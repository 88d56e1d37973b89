import FieldCamera.Json.Structure
/-!
# Detection reports

A good reply may carry a report of what the collector has seen in the frame. A body that is blank or
no report is left out without harm.
-/

namespace FieldCamera.Upload

open Json

structure Circle where
  radius : Int64 := 0
  status : String := ""
  x : Int64 := 0
  y : Int64 := 0
  deriving DecidableEq, Repr

structure Report where
  circles : List Circle := []
  message : Option String := none
  deriving DecidableEq, Repr

namespace Report

def circleMembers : List (Member Circle) := [
  member "radius" int64 fun c v => { c with radius := v },
  member "status" string fun c v => { c with status := v },
  member "x" int64 fun c v => { c with x := v },
  member "y" int64 fun c v => { c with y := v }]

def members : List (Member Report) := [
  member "circles" (list (structured circleMembers {})) fun r v => { r with circles := v },
  member "message" (optional string) fun r v => { r with message := v }]

def ofBody (body : List UInt8) : Except Json.Fault Report :=
  whole (structured members {}) body

/-- The blanks that a body without a report may consist of. -/
def isSpace (b : UInt8) : Bool :=
  b == 0x20 || b == 0x09 || b == 0x0A || b == 0x0C || b == 0x0D

/-- The report of a body, if it holds one. -/
def ofBody? (body : List UInt8) : Option Report :=
  if body.all isSpace then none else (ofBody body).toOption

end Report

end FieldCamera.Upload
