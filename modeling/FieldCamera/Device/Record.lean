import FieldCamera.Device
import FieldCamera.Json.Structure
/-!
# The device record

A record keeps a configuration in two sections, one for the network and one for the camera. It is a
JSON document of which all is written; in reading, what is absent keeps its default. A record and
its configuration hold the same (`toRecord_toDevice`, `toDevice_toRecord`), and the same is the
default of both (`toDevice_default`).
-/

namespace FieldCamera

open Json

namespace Record

structure Network where
  moduleName : String := ""
  ssid : String := ""
  password : String := ""
  uploadUrl : String := ""
  initUrl : String := ""
  deriving DecidableEq, Repr

/-- The defaults are those of a configuration. -/
structure Camera where
  captureIntervalMs : Int32 := ({} : Device).captureIntervalMs
  resolution : String := ({} : Device).resolution
  verticalFlip : Int32 := ({} : Device).verticalFlip
  brightness : Int32 := ({} : Device).brightness
  saturation : Int32 := ({} : Device).saturation
  deriving DecidableEq, Repr

end Record

structure Record where
  network : Record.Network := {}
  camera : Record.Camera := {}
  deriving DecidableEq, Repr

/-- The configuration that a record keeps. -/
def Record.toDevice (r : Record) : Device where
  moduleName := r.network.moduleName
  ssid := r.network.ssid
  password := r.network.password
  uploadUrl := r.network.uploadUrl
  initUrl := r.network.initUrl
  captureIntervalMs := r.camera.captureIntervalMs
  resolution := r.camera.resolution
  verticalFlip := r.camera.verticalFlip
  brightness := r.camera.brightness
  saturation := r.camera.saturation

/-- The record of a configuration. -/
def Device.toRecord (d : Device) : Record where
  network := {
    moduleName := d.moduleName
    ssid := d.ssid
    password := d.password
    uploadUrl := d.uploadUrl
    initUrl := d.initUrl }
  camera := {
    captureIntervalMs := d.captureIntervalMs
    resolution := d.resolution
    verticalFlip := d.verticalFlip
    brightness := d.brightness
    saturation := d.saturation }

@[simp] theorem Device.toDevice_toRecord (d : Device) : d.toRecord.toDevice = d := rfl

@[simp] theorem Record.toRecord_toDevice (r : Record) : r.toDevice.toRecord = r := rfl

/-- What no record sets is in the configuration as it is without one. -/
@[simp] theorem Record.toDevice_default : ({} : Record).toDevice = {} := rfl

namespace Record

def Network.toJson (n : Network) : Json :=
  .object [
    ("MODULE_NAME", .text n.moduleName),
    ("SSID", .text n.ssid),
    ("PASSWORD", .text n.password),
    ("UPLOAD_URL", .text n.uploadUrl),
    ("INIT_URL", .text n.initUrl)]

def Camera.toJson (c : Camera) : Json :=
  .object [
    ("CAPTURE_INTERVAL_IN_MS", .integer c.captureIntervalMs.toInt),
    ("RESOLUTION", .text c.resolution),
    ("VERTICAL_FLIP", .integer c.verticalFlip.toInt),
    ("BRIGHTNESS", .integer c.brightness.toInt),
    ("SATURATION", .integer c.saturation.toInt)]

def toJson (r : Record) : Json :=
  .object [("NETWORK", r.network.toJson), ("CAMERA", r.camera.toJson)]

/-- The text that is stored. -/
def text (r : Record) : String :=
  r.toJson.pretty

def Network.members : List (Member Network) := [
  member "MODULE_NAME" string fun n v => { n with moduleName := v },
  member "SSID" string fun n v => { n with ssid := v },
  member "PASSWORD" string fun n v => { n with password := v },
  member "UPLOAD_URL" string fun n v => { n with uploadUrl := v },
  member "INIT_URL" string fun n v => { n with initUrl := v }]

def Camera.members : List (Member Camera) := [
  member "CAPTURE_INTERVAL_IN_MS" int32 fun c v => { c with captureIntervalMs := v },
  member "RESOLUTION" string fun c v => { c with resolution := v },
  member "VERTICAL_FLIP" int32 fun c v => { c with verticalFlip := v },
  member "BRIGHTNESS" int32 fun c v => { c with brightness := v },
  member "SATURATION" int32 fun c v => { c with saturation := v }]

/-- A section begins with its defaults. -/
def members : List (Member Record) := [
  member "NETWORK" (structured Network.members {}) fun r n => { r with network := n },
  member "CAMERA" (structured Camera.members {}) fun r c => { r with camera := c }]

/-- Reads a stored record. -/
def read (content : Bytes) : Except Json.Fault Record :=
  whole (structured members {}) content

end Record

/-- The text that is stored of a configuration. -/
def Device.recordText (d : Device) : String :=
  d.toRecord.text

/-- The configuration in a stored record. -/
def Device.ofRecord (content : Bytes) : Except Json.Fault Device :=
  (Record.read content).map Record.toDevice

end FieldCamera
