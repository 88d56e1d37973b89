import FieldCamera.Device.Store
import FieldCamera.Proofs.Json.Layouts
/-!
# Records that leave something out

A record may hold any of the known members, in any order, in any layout and among others that the
device does not know. A configuration is read from it field by field: what is there counts, and
what is not there keeps its default (`RecordFiles.load_of_writesRecord`).
-/

namespace FieldCamera

namespace Device

open Json

section Fields

inductive Kind where
  | text
  | integer
  | other
  deriving DecidableEq

/-- The value of a member of a section. Of a value that is not asked for only the form counts. -/
inductive Field where
  | text (s : String)
  | integer (n : Int32)
  | other

namespace Field

def kind : Field → Kind
  | text _ => .text
  | integer _ => .integer
  | other => .other

def text? : Field → Option String
  | text s => some s
  | _ => none

def integer? : Field → Option Int32
  | integer n => some n
  | _ => none

/-- An integer has one form only: with a fraction, an exponent or as a negative zero a number is of
another type. -/
def Writes : Field → Bytes → Prop
  | text s, bs => WritesText s bs
  | integer n, bs => bs = Utf8.encode (toString n.toInt)
  | other, bs => Written .value bs

end Field

def networkKinds : List (String × Kind) := [
  ("MODULE_NAME", .text),
  ("SSID", .text),
  ("PASSWORD", .text),
  ("UPLOAD_URL", .text),
  ("INIT_URL", .text)]

def cameraKinds : List (String × Kind) := [
  ("CAPTURE_INTERVAL_IN_MS", .integer),
  ("RESOLUTION", .text),
  ("VERTICAL_FLIP", .integer),
  ("BRIGHTNESS", .integer),
  ("SATURATION", .integer)]

/-- Whether every known member is of its type and comes once at most. -/
structure Fits (kinds : List (String × Kind)) (ms : List (String × Field)) : Prop where
  typed : ∀ e ∈ ms, e.2.kind = (kinds.lookup e.1).getD .other
  once : Once (kinds.map Prod.fst) ms

/-- `d` with what a network section gives. -/
def withNetwork (d : Device) (ms : List (String × Field)) : Device :=
  { d with
    moduleName := valueIn Field.text? ms "MODULE_NAME" d.moduleName
    ssid := valueIn Field.text? ms "SSID" d.ssid
    password := valueIn Field.text? ms "PASSWORD" d.password
    uploadUrl := valueIn Field.text? ms "UPLOAD_URL" d.uploadUrl
    initUrl := valueIn Field.text? ms "INIT_URL" d.initUrl }

/-- `d` with what a camera section gives. -/
def withCamera (d : Device) (ms : List (String × Field)) : Device :=
  { d with
    captureIntervalMs := valueIn Field.integer? ms "CAPTURE_INTERVAL_IN_MS" d.captureIntervalMs
    resolution := valueIn Field.text? ms "RESOLUTION" d.resolution
    verticalFlip := valueIn Field.integer? ms "VERTICAL_FLIP" d.verticalFlip
    brightness := valueIn Field.integer? ms "BRIGHTNESS" d.brightness
    saturation := valueIn Field.integer? ms "SATURATION" d.saturation }

/-- A network section with what its members give. -/
def overlayNetwork (n : Record.Network) (ms : List (String × Field)) : Record.Network where
  moduleName := valueIn Field.text? ms "MODULE_NAME" n.moduleName
  ssid := valueIn Field.text? ms "SSID" n.ssid
  password := valueIn Field.text? ms "PASSWORD" n.password
  uploadUrl := valueIn Field.text? ms "UPLOAD_URL" n.uploadUrl
  initUrl := valueIn Field.text? ms "INIT_URL" n.initUrl

/-- A camera section with what its members give. -/
def overlayCamera (c : Record.Camera) (ms : List (String × Field)) : Record.Camera where
  captureIntervalMs := valueIn Field.integer? ms "CAPTURE_INTERVAL_IN_MS" c.captureIntervalMs
  resolution := valueIn Field.text? ms "RESOLUTION" c.resolution
  verticalFlip := valueIn Field.integer? ms "VERTICAL_FLIP" c.verticalFlip
  brightness := valueIn Field.integer? ms "BRIGHTNESS" c.brightness
  saturation := valueIn Field.integer? ms "SATURATION" c.saturation

end Fields

section Members

variable {σ : Type} {members : List (Member σ)} {overlay : σ → List (String × Field) → σ}
  {name : String} {field : Field}

theorem takes_text {put : σ → String → σ}
    (hfind : members.find? (fun m => m.name == name) = some (member name string put))
    (hput : ∀ x s, overlay x [(name, .text s)] = put x s) (hkind : field.kind = .text) :
    Takes members Field.Writes overlay (name, field) := by
  cases field with
  | text s =>
      refine fun bs hwrites => .inl ⟨_, hfind, fun d => ?_⟩
      rw [hput]
      exact reads_member (reads_string (isQuoted_of_writes hwrites)) name put d
  | integer n => contradiction
  | other => contradiction

theorem takes_integer {put : σ → Int32 → σ}
    (hfind : members.find? (fun m => m.name == name) = some (member name int32 put))
    (hput : ∀ x n, overlay x [(name, .integer n)] = put x n) (hkind : field.kind = .integer) :
    Takes members Field.Writes overlay (name, field) := by
  cases field with
  | integer n =>
      rintro _ rfl
      refine .inl ⟨_, hfind, fun d => ?_⟩
      rw [hput]
      exact reads_member (reads_int32 n) name put d
  | text s => contradiction
  | other => contradiction

theorem takes_other (hname : name ∉ members.map Member.name)
    (hput : ∀ x, overlay x [(name, .other)] = x) (hkind : field.kind = .other) :
    Takes members Field.Writes overlay (name, field) := by
  have hfind : members.find? (fun m => m.name == name) = none := by
    rw [List.find?_eq_none]
    intro m hm heq
    exact hname (beq_iff_eq.1 heq ▸ List.mem_map_of_mem hm)
  cases field with
  | other => exact fun bs hwrites => .inr ⟨hfind, skips_of_written hwrites, hput⟩
  | text s => contradiction
  | integer n => contradiction

theorem overlays_network :
    Overlays (Record.Network.members.map Member.name) overlayNetwork where
  nil _ := rfl
  cons n e ms hnew := by
    have hlaw := valueIn_known Field.text? hnew
    simp only [overlayNetwork, hlaw "MODULE_NAME" (by decide), hlaw "SSID" (by decide),
      hlaw "PASSWORD" (by decide), hlaw "UPLOAD_URL" (by decide), hlaw "INIT_URL" (by decide)]

theorem overlays_camera : Overlays (Record.Camera.members.map Member.name) overlayCamera where
  nil _ := rfl
  cons c e ms hnew := by
    have htext := valueIn_known Field.text? hnew
    have hinteger := valueIn_known Field.integer? hnew
    simp only [overlayCamera, hinteger "CAPTURE_INTERVAL_IN_MS" (by decide),
      htext "RESOLUTION" (by decide), hinteger "VERTICAL_FLIP" (by decide),
      hinteger "BRIGHTNESS" (by decide), hinteger "SATURATION" (by decide)]

theorem kind_of_not_mem {kinds : List (String × Kind)} {e : String × Field}
    (hkind : e.2.kind = (kinds.lookup e.1).getD .other) (hname : e.1 ∉ kinds.map Prod.fst) :
    e.2.kind = .other := by
  have hlookup : kinds.lookup e.1 = none := by
    rw [List.lookup_eq_none_iff]
    intro k hk
    simpa using fun heq : e.1 = k.1 => hname (heq ▸ List.mem_map_of_mem hk)
  rw [hkind, hlookup, Option.getD_none]

theorem takes_network {e : String × Field}
    (hkind : e.2.kind = (networkKinds.lookup e.1).getD .other) :
    Takes Record.Network.members Field.Writes overlayNetwork e := by
  obtain ⟨name, field⟩ := e
  by_cases hname : name ∈ networkKinds.map Prod.fst
  · simp only [networkKinds, List.map_cons, List.map_nil, List.mem_cons, List.not_mem_nil,
      or_false] at hname
    obtain rfl | rfl | rfl | rfl | rfl := hname <;> exact takes_text rfl (fun _ _ => rfl) hkind
  · refine takes_other hname (fun n => ?_) (kind_of_not_mem hkind hname)
    simp only [overlayNetwork, valueIn_silent Field.text? (x := .other) rfl]

theorem takes_camera {e : String × Field}
    (hkind : e.2.kind = (cameraKinds.lookup e.1).getD .other) :
    Takes Record.Camera.members Field.Writes overlayCamera e := by
  obtain ⟨name, field⟩ := e
  by_cases hname : name ∈ cameraKinds.map Prod.fst
  · simp only [cameraKinds, List.map_cons, List.map_nil, List.mem_cons, List.not_mem_nil,
      or_false] at hname
    obtain rfl | rfl | rfl | rfl | rfl := hname
    · exact takes_integer rfl (fun _ _ => rfl) hkind
    · exact takes_text rfl (fun _ _ => rfl) hkind
    all_goals exact takes_integer rfl (fun _ _ => rfl) hkind
  · refine takes_other hname (fun c => ?_) (kind_of_not_mem hkind hname)
    simp only [overlayCamera, valueIn_silent Field.text? (x := .other) rfl,
      valueIn_silent Field.integer? (x := .other) rfl]

end Members

section Sections

/-- A value beside the members of a record. -/
inductive Section where
  | members (ms : List (String × Field))
  | other

namespace Section

def members? : Section → Option (List (String × Field))
  | members ms => some ms
  | other => none

/-- A section begins with its defaults. -/
def network? : Section → Option Record.Network
  | members ms => some (overlayNetwork {} ms)
  | other => none

def camera? : Section → Option Record.Camera
  | members ms => some (overlayCamera {} ms)
  | other => none

def Writes : Section → Bytes → Prop
  | members ms, bs => WritesObject Field.Writes ms bs
  | other, bs => Written .value bs

end Section

/-- Whether each of the two sections is absent or an object of members that fit it. -/
structure IsPartial (es : List (String × Section)) : Prop where
  network : ∀ e ∈ es, e.1 = "NETWORK" → ∃ ms, e.2 = .members ms ∧ Fits networkKinds ms
  camera : ∀ e ∈ es, e.1 = "CAMERA" → ∃ ms, e.2 = .members ms ∧ Fits cameraKinds ms
  other : ∀ e ∈ es, e.1 ∉ ["NETWORK", "CAMERA"] → e.2 = .other
  once : Once ["NETWORK", "CAMERA"] es

/-- `d` with what the sections give. -/
def withSections (d : Device) (es : List (String × Section)) : Device :=
  (d.withNetwork (valueIn Section.members? es "NETWORK" [])).withCamera
    (valueIn Section.members? es "CAMERA" [])

/-- The text of a record with these members. -/
def WritesRecord (es : List (String × Section)) (text : String) : Prop :=
  ∃ lead object trail, Blank lead ∧ WritesObject Section.Writes es object ∧ Blank trail ∧
    Utf8.encode text = lead ++ object ++ trail

/-- A record with what the sections give. -/
def overlaySections (r : Record) (es : List (String × Section)) : Record where
  network := valueIn Section.network? es "NETWORK" r.network
  camera := valueIn Section.camera? es "CAMERA" r.camera

/-- The sections give the same to a record without any and to its configuration. -/
theorem toDevice_overlaySections (es : List (String × Section)) :
    (overlaySections {} es).toDevice = ({} : Device).withSections es := by
  have hnetwork : valueIn Section.network? es "NETWORK" {} =
      overlayNetwork {} (valueIn Section.members? es "NETWORK" []) := by
    unfold valueIn
    cases es.lookup "NETWORK" with
    | none => rfl
    | some value => cases value <;> rfl
  have hcamera : valueIn Section.camera? es "CAMERA" {} =
      overlayCamera {} (valueIn Section.members? es "CAMERA" []) := by
    unfold valueIn
    cases es.lookup "CAMERA" with
    | none => rfl
    | some value => cases value <;> rfl
  rw [overlaySections, hnetwork, hcamera]
  rfl

theorem overlays_sections : Overlays (Record.members.map Member.name) overlaySections where
  nil _ := rfl
  cons r e es hnew := by
    have hnetwork := valueIn_known Section.network? hnew "NETWORK" (by decide)
    have hcamera := valueIn_known Section.camera? hnew "CAMERA" (by decide)
    simp only [overlaySections, hnetwork, hcamera]

theorem takes_section {es : List (String × Section)} (h : IsPartial es) {e : String × Section}
    (he : e ∈ es) : Takes Record.members Section.Writes overlaySections e := by
  obtain ⟨name, value⟩ := e
  by_cases hnetwork : name = "NETWORK"
  · subst hnetwork
    obtain ⟨ms, rfl, hms⟩ := h.network _ he rfl
    refine fun bs hwrites => .inl ⟨_, rfl, fun r => ?_⟩
    exact reads_member (reads_writesObject overlays_network
      (fun e he => takes_network (hms.typed e he)) hms.once hwrites {}) _ _ r
  by_cases hcamera : name = "CAMERA"
  · subst hcamera
    obtain ⟨ms, rfl, hms⟩ := h.camera _ he rfl
    refine fun bs hwrites => .inl ⟨_, rfl, fun r => ?_⟩
    exact reads_member (reads_writesObject overlays_camera
      (fun e he => takes_camera (hms.typed e he)) hms.once hwrites {}) _ _ r
  obtain rfl : value = .other := h.other _ he (by simp [hnetwork, hcamera])
  have hfind : Record.members.find? (fun m => m.name == name) = none := by
    simp [Record.members, member, Ne.symm hnetwork, Ne.symm hcamera]
  refine fun bs hwrites => .inr ⟨hfind, skips_of_written hwrites, fun r => ?_⟩
  simp only [overlaySections, valueIn_silent Section.network? (x := .other) rfl,
    valueIn_silent Section.camera? (x := .other) rfl]

theorem read_of_writesRecord {es : List (String × Section)} {text : String}
    (hes : IsPartial es) (htext : WritesRecord es text) :
    Record.read (Utf8.encode text) = .ok (overlaySections {} es) := by
  obtain ⟨lead, object, trail, hlead, hobject, htrail, heq⟩ := htext
  rw [heq]
  exact whole_append (reads_writesObject overlays_sections (fun e he => takes_section hes he)
    hes.once hobject {}) hlead htrail

end Sections

end Device

namespace RecordFiles

open Json Device

/-- From a record with any of the known members a configuration is loaded in which every member that
is there counts, and every other field has its default. -/
theorem load_of_writesRecord {s : RecordFiles} {text : String}
    {es : List (String × Section)}
    (hread : s.files.read s.recordPath = .ok (Utf8.encode text)) (hes : IsPartial es)
    (htext : WritesRecord es text) :
    Store.load s = .ok (some (({} : Device).withSections es)) := by
  have hload : Store.loadRecord s = .ok (some (overlaySections {} es)) := by
    change RecordFiles.load s = _
    simp only [RecordFiles.load, hread, Utf8.decode?_encode, read_of_writesRecord hes htext]
  rw [Store.load, hload, Except.map, Option.map_some, toDevice_overlaySections]

/-- A record with one field in each section, behind a member that the device does not know. -/
theorem load_of_writesRecord_two_fields :
    let text := "\x7b\"notes\":[1],\"CAMERA\":\x7b\"BRIGHTNESS\":-2\x7d," ++
      "\"NETWORK\":\x7b\"SSID\":\"field\"\x7d\x7d\n"
    let es : List (String × Section) := [("notes", .other),
      ("CAMERA", .members [("BRIGHTNESS", .integer (-2))]),
      ("NETWORK", .members [("SSID", .text "field")])]
    let s : RecordFiles :=
      { files := { entries := [(["record"], .file (Utf8.encode text))] }
        recordPath := "record"
        flagPath := "flag" }
    IsPartial es ∧ WritesRecord es text ∧
      Store.load s = .ok (some { ssid := "field", brightness := -2 }) := by
  intro text es s
  have hone : IsNumber ([] ++ (['1'.toUInt8] ++ ([] ++ []))) :=
    .parts (by simp) (.digits (by decide) (by decide) (by simp)) .none .none
  have hnotes : Written .value (Utf8.encode "[1]") :=
    .filled (c := .array) (.last (.array blank_nil) (.number hone) blank_nil)
  have hminus : Field.Writes (.integer (-2)) (Utf8.encode "-2") := by
    change Utf8.encode "-2" = Utf8.encode (toString (-2 : Int32).toInt)
    decide +kernel
  have hcamera : WritesObject Field.Writes [("BRIGHTNESS", .integer (-2))]
      (Utf8.encode "\x7b\"BRIGHTNESS\":-2\x7d") :=
    ⟨[Utf8.encode "\"BRIGHTNESS\":-2"], [], .cons (writesMember_tight (by decide) hminus) .nil,
      blank_nil, by decide +kernel⟩
  have hfield : Field.Writes (.text "field") (Utf8.encode "\"field\"") :=
    writesText_plain (by decide)
  have hnetwork : WritesObject Field.Writes [("SSID", .text "field")]
      (Utf8.encode "\x7b\"SSID\":\"field\"\x7d") :=
    ⟨[Utf8.encode "\"SSID\":\"field\""], [], .cons (writesMember_tight (by decide) hfield) .nil,
      blank_nil, by decide +kernel⟩
  have hend : Blank ['\n'.toUInt8] := List.forall_mem_singleton.2 (by decide)
  have htext : WritesRecord es text :=
    ⟨[], _, ['\n'.toUInt8], blank_nil,
      ⟨_, [], .cons (writesMember_tight (by decide) hnotes) <|
        .cons (writesMember_tight (by decide) hcamera) <|
        .cons (writesMember_tight (by decide) hnetwork) .nil, blank_nil, rfl⟩,
      hend, by decide +kernel⟩
  have hfits : Fits cameraKinds [("BRIGHTNESS", .integer (-2))] ∧
      Fits networkKinds [("SSID", .text "field")] :=
    ⟨⟨List.forall_mem_singleton.2 rfl, List.pairwise_singleton _ _⟩,
      ⟨List.forall_mem_singleton.2 rfl, List.pairwise_singleton _ _⟩⟩
  have hes : IsPartial es :=
    ⟨by simpa [es] using hfits.2, by simpa [es] using hfits.1, by simp [es], by simp [es, Once]⟩
  have hread (content : List UInt8) :
      Files.read { entries := [(["record"], .file content)] } "record" = .ok content := by
    rfl
  exact ⟨hes, htext, load_of_writesRecord (hread _) hes htext⟩

end RecordFiles

end FieldCamera
