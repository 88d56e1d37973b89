import FieldCamera.Command
import FieldCamera.Command.Diagnosis
import FieldCamera.Command.Help
/-!
# Carrying out a command line
-/

namespace FieldCamera

/-- What a command leaves behind: its exit status and its two texts. -/
structure Ending where
  status : Nat
  output : String := ""
  errors : String := ""
  deriving DecidableEq, Repr

namespace Ending

/-- The end of a command that gives up. -/
def failure (diagnosis : String) : Ending :=
  ⟨1, "", "Error: " ++ diagnosis ++ "\n"⟩

/-- The end of a command line that is not understood. -/
def misuse (m : Misuse) : Ending :=
  ⟨2, "", m.text⟩

def ofAttempt {α : Type} : Except Node.Fault α → Ending
  | .ok _ => ⟨0, "", ""⟩
  | .error cause => failure cause.diagnosis

def ofEnrolment : Except Enrolment.Fault Nat → Ending
  | .ok status => ⟨0, s!"{status}\n", ""⟩
  | .error cause => failure cause.diagnosis

def ofPost : Except Upload.Fault Upload.Receipt → Ending
  | .ok receipt => ⟨0, s!"{receipt.status}\n", ""⟩
  | .error fault => ⟨1, "", s!"upload failed ({fault.code}): {fault.message}\n"⟩

end Ending

namespace Command

/-- Does something for the stored configuration. -/
def withDevice (s : Settings) (use : Device → Activity Ending) : Activity Ending := do
  match ← Node.loadDevice s.device with
  | .error cause => return .failure cause.diagnosis
  | .ok device => use device

def execute (s : Settings) : Command → Activity Ending
  | run => return .ofAttempt (← Node.run s)
  | portal => return .ofAttempt (← Node.servePortal s)
  | upload image url => withDevice s fun device =>
    return .ofPost (← Node.post s (image.getD s.capture.imagePath) (url.getD device.uploadUrl))
  | register => withDevice s fun device => return .ofEnrolment (← Node.enrol s device)

end Command

namespace Invocation

/-- The settings in the file that was named, or the default ones. -/
def settings (i : Invocation) : Activity (Except Settings.Fault Settings) :=
  match i.settingsPath with
  | none => .done (.ok {})
  | some path => .look [path] fun files => .done (Settings.ofFile files path)

/-- Carries out the words behind the program's name. -/
def execute (words : List String) : Activity Ending :=
  match ofWords words with
  | .error m => .done (.misuse m)
  | .ok (.help topic) => .done ⟨0, topic.helpText, ""⟩
  | .ok (.invocation i) => do
    match ← i.settings with
    | .error cause => return .failure cause.diagnosis
    | .ok s => i.command.execute s

end Invocation

end FieldCamera
