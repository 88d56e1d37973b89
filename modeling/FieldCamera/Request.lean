import FieldCamera.Text.Blank
import FieldCamera.Text.Cut
/-!
# Requests to the setup portal

What a client asked for, the limits a request is held to, and the reasons to refuse one.
-/

namespace FieldCamera

inductive Method where
  | get
  | post
  | other (token : String)
  deriving DecidableEq, Repr

/-- GET and POST in any letter case, every other token as it stands. -/
def Method.ofToken (token : List Char) : Method :=
  if Text.sameLetters token "get".toList then .get
  else if Text.sameLetters token "post".toList then .post
  else .other (String.ofList token)

structure Request where
  method : Method
  target : String
  body : String
  /-- The declared length of the body, kept also where no body was read. -/
  contentLength : Nat
  deriving DecidableEq, Repr

namespace Request

/-- The target up to its first question mark. -/
def path (r : Request) : String :=
  String.ofList (Text.before '?' r.target.toList)

/-- The target after its first question mark. -/
def query (r : Request) : String :=
  String.ofList (Text.after '?' r.target.toList)

/-- The most bytes of one line, of all header lines together, and of a body. -/
structure Limits where
  line : Nat := 2048
  headers : Nat := 8192
  body : Nat := 4096
  deriving DecidableEq, Repr

/-- How far a request has been read. -/
inductive Phase where
  | line
  | headers
  | body
  | dispatch
  deriving DecidableEq, Repr

def Phase.name : Phase → String
  | line => "Line"
  | headers => "Headers"
  | body => "Body"
  | dispatch => "Dispatch"

inductive Fault where
  | lineTooLong (limit : Nat)
  | headersTooLarge (limit : Nat)
  | bodyTooLarge (length limit : Nat)
  | incomplete (phase : Phase)
  deriving DecidableEq, Repr

def Fault.message : Fault → String
  | lineTooLong limit => s!"line exceeds {limit} bytes"
  | headersTooLarge limit => s!"header block exceeds {limit} bytes"
  | bodyTooLarge length limit => s!"body of {length} bytes exceeds {limit} bytes"
  | incomplete phase => "request incomplete in state " ++ phase.name

end Request

end FieldCamera
