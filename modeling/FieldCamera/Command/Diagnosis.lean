import FieldCamera.Node
import FieldCamera.Settings.Reading
/-!
# Diagnoses

A command that fails tells its cause as a value: its name, with its fields between braces or its
content between parentheses.
-/

namespace FieldCamera

namespace Diagnosis

/-- A name with its fields. -/
def withFields (name : String) (fields : List (String × String)) : String :=
  name ++ " \x7b " ++ ", ".intercalate (fields.map fun f => f.1 ++ ": " ++ f.2) ++ " \x7d"

/-- A name with its content. -/
def withContent (name content : String) : String :=
  name ++ "(" ++ content ++ ")"

end Diagnosis

open Diagnosis

def SystemFault.diagnosis (f : SystemFault) : String :=
  let shared := [("kind", f.className), ("message", Text.quoted f.word)]
  match f.number? with
  | some n => withFields "Os" (("code", toString n) :: shared)
  | none => withFields "Error" shared

namespace Settings

def Violation.diagnosis : Violation → String
  | zero field => withFields "Zero" [("field", Text.quoted field)]
  | badAddress field value =>
    withFields "BadAddress" [("field", Text.quoted field), ("value", Text.quoted value)]
  | batteryOutOfRange percent => withContent "BatteryOutOfRange" (toString percent.toNat)

def Fault.diagnosis : Fault → String
  | unreadable path cause =>
    withFields "Read" [("path", Text.quoted path), ("source", cause.diagnosis)]
  | undecodable => "Toml"
  | violated violations =>
    withContent "Invalid" ("[" ++ ", ".intercalate (violations.map Violation.diagnosis) ++ "]")

end Settings

def Store.Fault.diagnosis : Store.Fault → String
  | inaccessible path cause =>
    withFields "Io" [("path", Text.quoted path), ("source", cause.diagnosis)]
  | undecodable path _ => withFields "Decode" [("path", Text.quoted path)]
  | refused => "Refused"

def Setup.Listener.Fault.diagnosis : Setup.Listener.Fault → String
  | badAddress address => withFields "Address" [("address", Text.quoted address)]
  | unavailable address cause =>
    withFields "Bind" [("address", address.text), ("source", cause.diagnosis)]

def Node.Fault.diagnosis : Node.Fault → String
  | listener cause => withContent "Listener" cause.diagnosis
  | store cause => withContent "Store" cause.diagnosis

def Enrolment.Fault.diagnosis : Enrolment.Fault → String
  | missingUrl => "MissingUrl"
  | unanswered => "Http"
  | status code => withContent "Status" (toString code)

end FieldCamera
