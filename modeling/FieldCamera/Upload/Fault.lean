import FieldCamera.Address
import FieldCamera.Upload.Frame
import FieldCamera.Upload.Reply
/-!
# Why an upload fails

Each cause has a text, a number for the command line and a short name for statistics.
-/

namespace FieldCamera.Upload

inductive Fault where
  | capture (cause : CaptureFault)
  | url (cause : Address.Fault)
  | connect (authority reason : String)
  /-- The request broke off after `sent` bytes. -/
  | write (sent : Nat) (reason : String)
  | malformedStatus (line : String)
  | timeout (idleMs : Nat)
  /-- The collector refused the upload. -/
  | status (code : Nat)
  deriving DecidableEq, Repr

namespace Fault

def message : Fault → String
  | capture cause => "capture failed: " ++ cause.message
  | url cause => "invalid upload URL: " ++ cause.message
  | connect authority reason => "failed to connect to " ++ authority ++ ": " ++ reason
  | write sent reason => s!"transport write failed after {sent} bytes: " ++ reason
  | malformedStatus line => Reply.malformedMessage line
  | timeout idleMs => "no response data within " ++ Span.text idleMs
  | status code => s!"collector answered with status {code}"

/-- Negative for causes on this side, the collector's status for a refusal. -/
def code : Fault → Int
  | capture _ => -1
  | url _ | connect .. => -2
  | write .. => -3
  | malformedStatus _ => -4
  | timeout _ => -5
  | status code => code

def kind : Fault → String
  | capture _ => "capture"
  | url _ => "url"
  | connect .. => "connect"
  | write .. => "write"
  | malformedStatus _ => "malformed_status"
  | timeout _ => "timeout"
  | status _ => "status"

def ofReply : Reply.Fault → Fault
  | .malformed line => malformedStatus line
  | .timeout idleMs => timeout idleMs

end Fault

end FieldCamera.Upload
