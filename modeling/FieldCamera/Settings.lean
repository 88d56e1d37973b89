import FieldCamera.Request
/-!
# Node settings

How the node itself runs: where the setup portal listens, the bounds and patience of its protocols,
its identity and where it keeps its files.
-/

namespace FieldCamera

namespace Settings

structure Portal where
  bindAddress : String := "0.0.0.0:80"
  maxLineBytes : Nat := 2048
  maxHeaderBytes : Nat := 8192
  maxBodyBytes : Nat := 4096
  /-- The longest silence of a client whose request is incomplete. -/
  readIdleMs : Nat := 5000
  /-- The longest time a whole request may take. -/
  requestTimeoutMs : Nat := 15000
  deriving DecidableEq, Repr, Inhabited

structure Upload where
  /-- The most image bytes of one write. -/
  chunkSize : Nat := 16384
  connectTimeoutMs : Nat := 8000
  writeTimeoutMs : Nat := 8000
  responseIdleMs : Nat := 5000
  /-- The bytes of a response body that are kept; the rest is read and dropped. -/
  maxResponseBytes : Nat := 65536
  maxLineBytes : Nat := 1024
  deriving DecidableEq, Repr, Inhabited

structure Identity where
  deviceId : UInt64 := 0
  batteryPercent : UInt8 := 90
  recordPath : String := "config.json"
  configuredFlagPath : String := "configured.flag"
  latitude : Option Float := none
  longitude : Option Float := none
  deriving Repr, Inhabited

structure Capture where
  imagePath : String := "capture.jpg"
  deriving DecidableEq, Repr, Inhabited

structure Observability where
  logLevel : String := "info"
  metricsEnabled : Bool := false
  metricsAddress : String := "0.0.0.0:9090"
  deriving DecidableEq, Repr, Inhabited

def Portal.limits (p : Portal) : Request.Limits :=
  ⟨p.maxLineBytes, p.maxHeaderBytes, p.maxBodyBytes⟩

/-- The battery level as a percentage that is at most 100. -/
def Identity.batteryLevel (i : Identity) : UInt8 :=
  min i.batteryPercent 100

/-- The battery level between zero and one. -/
def Identity.batteryFraction (i : Identity) : Float32 :=
  i.batteryLevel.toFloat32 / 100

/-- Which log lines are written unless the environment says otherwise. -/
def Observability.directive (o : Observability) : String :=
  "camera_node=" ++ o.logLevel

end Settings

structure Settings where
  portal : Settings.Portal := {}
  upload : Settings.Upload := {}
  device : Settings.Identity := {}
  capture : Settings.Capture := {}
  observability : Settings.Observability := {}
  deriving Repr, Inhabited

end FieldCamera
