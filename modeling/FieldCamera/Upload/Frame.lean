import FieldCamera.Files
import FieldCamera.Number.Places
/-!
# Captured frames
-/

namespace FieldCamera.Upload

/-- Why no frame was captured. -/
inductive CaptureFault where
  | unreadable (path reason : String)
  | empty
  deriving DecidableEq, Repr

def CaptureFault.message : CaptureFault → String
  | unreadable path reason => "failed to read frame from " ++ path ++ ": " ++ reason
  | empty => "camera returned an empty frame"

/-- What the camera gives when it is asked for a frame. -/
abbrev Capture := Except CaptureFault (List UInt8)

/-- The content of a file as a frame; a file without bytes is no frame. -/
def frameFromFile (files : Files) (path : String) : Capture :=
  match files.read path with
  | .error cause => .error (.unreadable path cause.text)
  | .ok bytes => if bytes = [] then .error .empty else .ok bytes

/-- What is told of a frame in diagnostics. -/
def describeFrame (length : Nat) (hasRelease : Bool) : String :=
  s!"Frame \x7b len: {length}, has_release: {hasRelease} \x7d"

/-- A point in time on the wall. -/
structure Moment where
  year : Int
  month : Nat
  day : Nat
  hour : Nat
  minute : Nat
  second : Nat
  deriving DecidableEq, Repr

/-- A year in four digits; years before 0 and after 9999 have a sign. -/
def yearText (year : Int) : String :=
  let digits := Number.padded 4 year.natAbs
  if year < 0 then "-" ++ digits
  else if 9999 < year then "+" ++ digits
  else digits

/-- The name of a captured image: after its time, or after the time since the node was started
where the wall clock is not set. -/
def captureName (now : Option Moment) (uptimeMs : Nat) : String :=
  match now with
  | some t =>
    "esp_capture_" ++ yearText t.year ++ Number.padded 2 t.month ++ Number.padded 2 t.day ++ "_" ++
      Number.padded 2 t.hour ++ Number.padded 2 t.minute ++ Number.padded 2 t.second ++ ".jpg"
  | none => s!"esp_capture_unknown_{uptimeMs}.jpg"

end FieldCamera.Upload
