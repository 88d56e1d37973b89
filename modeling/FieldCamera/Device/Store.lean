import FieldCamera.Device.Record
import FieldCamera.Files
/-!
# Keeping the device record

A store keeps one record and the marker that tells whether the device has been set up. A change that
fails leaves a store as it was. `Memory` keeps both in memory and can be told to fail;
`RecordFiles` keeps each in a file.
-/

namespace FieldCamera

namespace Store

inductive Fault where
  | inaccessible (path : String) (cause : SystemFault)
  | undecodable (path : String) (cause : Json.Fault)
  /-- The store has been told to fail. -/
  | refused
  deriving DecidableEq, Repr

def Fault.message? : Fault → Option String
  | inaccessible path cause => some ("failed to access " ++ path ++ ": " ++ cause.text)
  | _ => none

end Store

class Store (σ : Type) where
  /-- The record, if one has been saved. -/
  loadRecord : σ → Except Store.Fault (Option Record)
  saveRecord : σ → Record → Except Store.Fault σ
  isConfigured : σ → Bool
  setConfigured : σ → Bool → Except Store.Fault σ

namespace Store

variable {σ : Type} [Store σ]

/-- The configuration in the record, if one has been saved. -/
def load (s : σ) : Except Store.Fault (Option Device) :=
  (Store.loadRecord s).map (·.map Record.toDevice)

/-- Saves the record of a configuration. -/
def save (s : σ) (d : Device) : Except Store.Fault σ :=
  Store.saveRecord s d.toRecord

/-- The configuration that a boot finds: the stored one, or the default. -/
def loadDevice (s : σ) : Except Store.Fault Device :=
  (Store.load s).map (·.getD {})

end Store

structure Memory where
  record : Option Record := none
  configured : Bool := false
  refusesRecord : Bool := false
  refusesMarker : Bool := false
  deriving DecidableEq, Repr

instance : Store Memory where
  loadRecord m := .ok m.record
  saveRecord m r := if m.refusesRecord then .error .refused else .ok { m with record := some r }
  isConfigured m := m.configured
  setConfigured m b := if m.refusesMarker then .error .refused else .ok { m with configured := b }

structure RecordFiles where
  files : Files := {}
  recordPath : String
  flagPath : String
  deriving DecidableEq, Repr

namespace RecordFiles

/-- A file that is not there is no record yet; it has to be text before it can be a record. -/
def load (s : RecordFiles) : Except Store.Fault (Option Record) :=
  match s.files.read s.recordPath with
  | .error .notFound => .ok none
  | .error cause => .error (.inaccessible s.recordPath cause)
  | .ok content =>
    match Utf8.decode? content with
    | none => .error (.inaccessible s.recordPath .notText)
    | some _ =>
      match Record.read content with
      | .ok r => .ok (some r)
      | .error cause => .error (.undecodable s.recordPath cause)

def save (s : RecordFiles) (r : Record) : Except Store.Fault RecordFiles :=
  match s.files.write s.recordPath (Utf8.encode r.text) with
  | .ok files => .ok { s with files := files }
  | .error cause => .error (.inaccessible s.recordPath cause)

/-- The content of the marker. -/
def marker : List UInt8 := ['1'.toUInt8]

/-- Setting writes the marker; clearing removes it, and needs none to be there. -/
def setConfigured (s : RecordFiles) (configured : Bool) : Except Store.Fault RecordFiles :=
  let changed :=
    if configured then s.files.write s.flagPath marker
    else
      match s.files.remove s.flagPath with
      | .error .notFound => .ok s.files
      | changed => changed
  match changed with
  | .ok files => .ok { s with files := files }
  | .error cause => .error (.inaccessible s.flagPath cause)

end RecordFiles

instance : Store RecordFiles where
  loadRecord := RecordFiles.load
  saveRecord := RecordFiles.save
  isConfigured s := s.files.isThere s.flagPath
  setConfigured := RecordFiles.setConfigured

end FieldCamera
