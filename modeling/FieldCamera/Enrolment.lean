import FieldCamera.Address
import FieldCamera.Device
import FieldCamera.Json
import FieldCamera.Number.Shortest
import FieldCamera.Settings
/-!
# Enrolment at the collector

Before its first upload the node makes itself known with one JSON object.
-/

namespace FieldCamera

structure Enrolment where
  nodeId : String
  moduleName : String
  batteryLevel : UInt8
  latitude : Option Float
  longitude : Option Float

namespace Enrolment

def ofSettings (identity : Settings.Identity) (device : Device) : Enrolment where
  nodeId := toString identity.deviceId.toNat
  moduleName := device.moduleName
  batteryLevel := identity.batteryLevel
  latitude := identity.latitude
  longitude := identity.longitude

/-- A coordinate; one that is not finite is written as `null`. -/
def coordinate (x : Float) : Json :=
  match (Number.Binary.ofFloat x).shortestText? with
  | some text => .number text
  | none => .null

/-- A member that is left out when it has no value. -/
def memberOf (name : String) : Option Float → List (String × Json)
  | some x => [(name, coordinate x)]
  | none => []

def toJson (e : Enrolment) : Json :=
  .object ([
    ("esp_id", .text e.nodeId),
    ("module_name", .text e.moduleName),
    ("battery_level", .integer e.batteryLevel.toNat)] ++
    memberOf "latitude" e.latitude ++ memberOf "longitude" e.longitude)

/-- The request that brings an enrolment to the collector. -/
def request (e : Enrolment) (target : Address) : String :=
  let body := e.toJson.compact
  let line (s : String) : String := s ++ "\r\n"
  line ("POST " ++ target.path ++ " HTTP/1.1") ++ line "content-type: application/json" ++
    line "accept: */*" ++ line ("host: " ++ target.authority) ++ line "connection: close" ++
    line ("content-length: " ++ toString body.utf8ByteSize) ++ line "" ++ body

/-- Why an enrolment fails: there is nowhere to send it, it got no answer, or a bad one. -/
inductive Fault where
  | missingUrl
  | unanswered
  | status (code : Nat)
  deriving DecidableEq, Repr

def Fault.message? : Fault → Option String
  | missingUrl => some "no init URL configured"
  | unanswered => none
  | status code => some s!"collector answered registration with status {code}"

/-- What comes of an enrolment, from the status of the collector's answer where there is one. A
blank URL is not asked at all. -/
def outcome (initUrl : String) (answer : Option Nat) : Except Fault Nat :=
  if Text.trim initUrl.toList = [] then .error .missingUrl
  else
    match answer with
    | none => .error .unanswered
    | some code => if 200 ≤ code ∧ code < 300 then .ok code else .error (.status code)

end Enrolment

end FieldCamera
