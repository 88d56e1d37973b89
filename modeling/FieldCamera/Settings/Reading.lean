import FieldCamera.Files
import FieldCamera.Settings.Check
import FieldCamera.Text.Utf8
import FieldCamera.Toml.Reading
/-!
# Reading settings

Settings are written in TOML, a table for each section. A field that is missing has its default and
an unknown one is passed over. A section may also be an array of its first fields. What is read
has to pass the check of `Settings.violations`.
-/

namespace FieldCamera

namespace Toml.Value

def text? : Value → Option String
  | text s => some s
  | _ => none

def boolean? : Value → Option Bool
  | boolean b => some b
  | _ => none

/-- An integer that is not negative. -/
def natural? : Value → Option Nat
  | integer n => if 0 ≤ n then some n.toNat else none
  | _ => none

def byte? : Value → Option UInt8
  | integer n => if 0 ≤ n ∧ n < 256 then some n.toNat.toUInt8 else none
  | _ => none

/-- A number of any kind. -/
def float? : Value → Option Float
  | float x => some x
  | integer n => some (Float.ofInt n)
  | _ => none

/-- Whether a value can stand for a section. A moment stands for one without fields. -/
def isSection : Value → Bool
  | table _ _ => true
  | array _ => true
  | rows _ _ => true
  | moment => true
  | _ => false

/-- The field of a section by its name, or by its place where the section is an array. -/
def member? (place : Nat) (name : String) : Value → Option Value
  | table _ entries => entries.lookup name
  | array items => items[place]?
  | rows latest earlier => ((latest :: earlier).reverse[place]?).map (table .header)
  | _ => none

/-- A field of a section, the default where it is missing. -/
def field {α : Type} (v : Value) (place : Nat) (name : String) (read : Value → Option α)
    (default : α) : Option α :=
  match v.member? place name with
  | some x => read x
  | none => some default

end Toml.Value

namespace Settings

open Toml (Value)

def Portal.ofToml? (v : Value) : Option Portal := do
  let d : Portal := {}
  guard v.isSection
  some {
    bindAddress := ← v.field 0 "bind_address" Value.text? d.bindAddress
    maxLineBytes := ← v.field 1 "max_line_bytes" Value.natural? d.maxLineBytes
    maxHeaderBytes := ← v.field 2 "max_header_bytes" Value.natural? d.maxHeaderBytes
    maxBodyBytes := ← v.field 3 "max_body_bytes" Value.natural? d.maxBodyBytes
    readIdleMs := ← v.field 4 "read_idle_ms" Value.natural? d.readIdleMs
    requestTimeoutMs := ← v.field 5 "request_timeout_ms" Value.natural? d.requestTimeoutMs }

def Upload.ofToml? (v : Value) : Option Upload := do
  let d : Upload := {}
  guard v.isSection
  some {
    chunkSize := ← v.field 0 "chunk_size" Value.natural? d.chunkSize
    connectTimeoutMs := ← v.field 1 "connect_timeout_ms" Value.natural? d.connectTimeoutMs
    writeTimeoutMs := ← v.field 2 "write_timeout_ms" Value.natural? d.writeTimeoutMs
    responseIdleMs := ← v.field 3 "response_idle_ms" Value.natural? d.responseIdleMs
    maxResponseBytes := ← v.field 4 "max_response_bytes" Value.natural? d.maxResponseBytes
    maxLineBytes := ← v.field 5 "max_line_bytes" Value.natural? d.maxLineBytes }

def Identity.ofToml? (v : Value) : Option Identity := do
  let d : Identity := {}
  guard v.isSection
  some {
    deviceId := ← v.field 0 "device_id" (fun x => x.natural?.map Nat.toUInt64) d.deviceId
    batteryPercent := ← v.field 1 "battery_percent" Value.byte? d.batteryPercent
    recordPath := ← v.field 2 "record_path" Value.text? d.recordPath
    configuredFlagPath :=
      ← v.field 3 "configured_flag_path" Value.text? d.configuredFlagPath
    latitude := ← v.field 4 "latitude" (fun x => x.float?.map some) d.latitude
    longitude := ← v.field 5 "longitude" (fun x => x.float?.map some) d.longitude }

def Capture.ofToml? (v : Value) : Option Capture := do
  guard v.isSection
  some { imagePath := ← v.field 0 "image_path" Value.text? ({} : Capture).imagePath }

def Observability.ofToml? (v : Value) : Option Observability := do
  let d : Observability := {}
  guard v.isSection
  some {
    logLevel := ← v.field 0 "log_level" Value.text? d.logLevel
    metricsEnabled := ← v.field 1 "metrics_enabled" Value.boolean? d.metricsEnabled
    metricsAddress := ← v.field 2 "metrics_address" Value.text? d.metricsAddress }

/-- The settings that a document describes, unchecked. -/
def ofToml? (t : Toml.Table) : Option Settings := do
  let v : Value := .table .header t
  some {
    portal := ← v.field 0 "portal" Portal.ofToml? {}
    upload := ← v.field 1 "upload" Upload.ofToml? {}
    device := ← v.field 2 "device" Identity.ofToml? {}
    capture := ← v.field 3 "capture" Capture.ofToml? {}
    observability := ← v.field 4 "observability" Observability.ofToml? {} }

/-- Why there are no settings. -/
inductive Fault where
  | unreadable (path : String) (cause : SystemFault)
  /-- The text is no TOML, or a value is of the wrong kind. -/
  | undecodable
  | violated (violations : List Violation)
  deriving DecidableEq, Repr

/-- The message of a fault, where its wording is the node's own. -/
def Fault.message? : Fault → Option String
  | unreadable path cause => some s!"cannot read {path}: {cause.text}"
  | undecodable => none
  | violated violations =>
    some ("invalid settings: " ++ "; ".intercalate (violations.map Violation.message))

/-- The settings that a text describes. -/
def ofText (text : String) : Except Fault Settings :=
  match Toml.Table.ofText? text >>= ofToml? with
  | none => .error .undecodable
  | some s =>
    match s.violations with
    | [] => .ok s
    | vs => .error (.violated vs)

/-- The settings in a file. -/
def ofFile (files : Files) (path : String) : Except Fault Settings :=
  match files.read path with
  | .error fault => .error (.unreadable path fault)
  | .ok bytes =>
    match Utf8.decode? bytes with
    | some text => ofText text
    | none => .error (.unreadable path .notText)

end Settings

end FieldCamera
