import FieldCamera.Activity
/-!
# The life of a node

A node that has not been set up opens its portal and waits until a configuration is saved; then, or
at once if it had one, it enrols with the collector and posts frames in rounds. The portal's address
is taken before the record is read, and neither an enrolment nor an upload that fails ends the
node.
-/

namespace FieldCamera.Node

/-- Why a node does not start. -/
inductive Fault where
  | listener (cause : Setup.Listener.Fault)
  | store (cause : Store.Fault)
  deriving DecidableEq, Repr

/-- The store that settings name. -/
def lookAtStore (i : Settings.Identity) : Activity RecordFiles :=
  .look [i.recordPath, i.configuredFlagPath] fun files =>
    .done ⟨files, i.recordPath, i.configuredFlagPath⟩

/-- The stored configuration, or the default. -/
def loadDevice (i : Settings.Identity) : Activity (Except Store.Fault Device) := do
  return Store.loadDevice (← lookAtStore i)

/-- Opens the portal and serves it; the configuration that was saved, if it came to that. -/
def servePortal (s : Settings) : Activity (Except Fault (Option Device)) := do
  match ← Activity.listen s.portal.bindAddress .done with
  | .error cause => return .error (.listener cause)
  | .ok _ =>
    let store ← lookAtStore s.device
    match Store.loadDevice store with
    | .error cause => return .error (.store cause)
    | .ok device => return .ok (← Activity.serve (.ofSettings s.portal) store device .done)

/-- Who posts for a node. -/
def sender (s : Settings) : Upload.Sender :=
  ⟨s.device.deviceId, s.device.batteryFraction⟩

/-- The bounds of a node's uploads. -/
def pace (s : Settings) : Upload.Pace :=
  ⟨s.upload.chunkSize, s.upload.writeTimeoutMs,
    ⟨s.upload.responseIdleMs, s.upload.maxLineBytes, s.upload.maxResponseBytes⟩⟩

/-- Enrols a device. A blank URL is not asked at all. -/
def enrol (s : Settings) (device : Device) : Activity (Except Enrolment.Fault Nat) :=
  match Enrolment.outcome device.initUrl none with
  | .error .missingUrl => .done (.error .missingUrl)
  | _ =>
    .enrol device.initUrl (Enrolment.ofSettings s.device device) fun answer =>
      .done (Enrolment.outcome device.initUrl answer)

/-- Posts one frame from an image file. -/
def post (s : Settings) (image url : String) :
    Activity (Except Upload.Fault Upload.Receipt) :=
  .look [image] fun files =>
    .post (sender s) (pace s) (Upload.frameFromFile files image) url .done

/-- The work of a node that has its configuration. -/
def work (s : Settings) (device : Device) : Activity Unit := do
  let _ ← enrol s device
  Activity.postRounds (sender s) (pace s) s.capture.imagePath device (.done ())

/-- The whole life of a node. -/
def run (s : Settings) : Activity (Except Fault Unit) := do
  let store ← lookAtStore s.device
  if Store.isConfigured store then
    match Store.loadDevice store with
    | .error cause => return .error (.store cause)
    | .ok device => return .ok (← work s device)
  else
    match ← servePortal s with
    | .error fault => return .error fault
    | .ok none => return .ok ()
    | .ok (some device) => return .ok (← work s device)

end FieldCamera.Node
