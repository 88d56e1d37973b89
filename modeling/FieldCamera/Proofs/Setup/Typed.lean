import FieldCamera.Proofs.Number.Leading
import FieldCamera.Proofs.Setup.Guard
import FieldCamera.Proofs.Setup.Turns
import FieldCamera.Proofs.Text.Utf8
/-!
# A form is stored as it was typed

Whoever sends a form may escape any byte of a value, and must escape three (`FormCode`). The pairs
may come in any order and among others, as long as the first of each name carries what was typed
(`Carries`). Whatever choice was made, it is what was typed that the portal stores
(`answer_stores_typed`).
-/

namespace FieldCamera.Setup

/-- A code of bytes in a form: each as an escape, or a space as a plus sign, or as itself unless it
has a meaning in a form. -/
inductive FormCode : List UInt8 → List UInt8 → Prop
  | nil : FormCode [] []
  | escape {h l : UInt8} {u v : Nat} {bs vs : List UInt8} (high : IsHexDigit h u)
      (low : IsHexDigit l v) (rest : FormCode bs vs) :
      FormCode ('%'.toUInt8 :: h :: l :: bs) ((16 * u + v).toUInt8 :: vs)
  | plus {bs vs : List UInt8} (rest : FormCode bs vs) :
      FormCode ('+'.toUInt8 :: bs) (' '.toUInt8 :: vs)
  | literal {b : UInt8} {bs vs : List UInt8} (percent : b ≠ '%'.toUInt8) (plus : b ≠ '+'.toUInt8)
      (ampersand : b ≠ '&'.toUInt8) (rest : FormCode bs vs) : FormCode (b :: bs) (b :: vs)

/-- A code spells the bytes that it was made for. -/
theorem FormCode.spells {bs vs : List UInt8} (h : FormCode bs vs) : Spells bs vs := by
  induction h with
  | nil => exact .nil
  | escape high low _ ih => exact .byte high low ih
  | plus _ ih => exact .space ih
  | literal percent plus _ _ ih => exact .literal plus percent ih

theorem FormCode.decodeValue_eq {code text : String}
    (h : FormCode (Utf8.encode code) (Utf8.encode text)) : decodeValue code = text :=
  means_iff.1 ⟨Utf8.encode text, h.spells, Utf8.decodeLossy_encode text⟩

/-- Whether every percent sign begins an escape and no ampersand stands in the bytes. -/
def isWritten : List UInt8 → Bool
  | [] => true
  | b :: bs =>
    if b = '%'.toUInt8 then
      match bs with
      | h :: l :: rest => (Text.hexPair? h l).isSome && isWritten rest
      | _ => false
    else b ≠ '&'.toUInt8 && isWritten bs

theorem isWritten_cons_of_ne {b : UInt8} (percent : b ≠ '%'.toUInt8) (bs : List UInt8) :
    isWritten (b :: bs) = (decide (b ≠ '&'.toUInt8) && isWritten bs) := by
  rw [isWritten.eq_def]
  simp only [if_neg percent]

theorem formCode_unescape {bs : List UInt8} (h : isWritten bs = true) :
    FormCode bs (unescape bs) := by
  fun_induction unescape bs with
  | case1 => exact .nil
  | case2 bs ih =>
      rw [isWritten_cons_of_ne (by decide), Bool.and_eq_true] at h
      exact .plus (ih h.2)
  | case3 high low rest x hpair _ ih =>
      obtain ⟨u, v, hu, hv, rfl⟩ := hexPair?_eq_some_iff.1 hpair
      exact .escape hu hv (ih (by simpa [isWritten, hpair] using h))
  | case4 high low rest hnone _ _ => simp [isWritten, hnone] at h
  | case5 rest hshort _ _ =>
      exfalso
      cases rest with
      | nil => simp [isWritten] at h
      | cons a rest =>
          cases rest with
          | nil => simp [isWritten] at h
          | cons b more => exact hshort a b more rfl
  | case6 b bs hplus hpercent ih =>
      rw [isWritten_cons_of_ne hpercent, Bool.and_eq_true, decide_eq_true_iff] at h
      exact .literal hpercent hplus h.1 (ih h.2)

/-- Well written bytes are a code of what they are read as, and of nothing else. -/
theorem formCode_iff {bs vs : List UInt8} :
    FormCode bs vs ↔ isWritten bs = true ∧ unescape bs = vs := by
  constructor
  · intro h
    refine ⟨?_, spells_iff.1 h.spells⟩
    induction h with
    | nil => rfl
    | escape high low _ ih =>
        have hpair := hexPair?_eq_some_iff.2 ⟨_, _, high, low, rfl⟩
        simp [isWritten, hpair, ih]
    | plus _ ih =>
        rw [isWritten_cons_of_ne (by decide), ih]
        rfl
    | literal percent _ ampersand _ ih =>
        rw [isWritten_cons_of_ne percent, ih]
        simpa using ampersand
  · rintro ⟨h, rfl⟩
    exact formCode_unescape h

instance (bs vs : List UInt8) : Decidable (FormCode bs vs) :=
  decidable_of_iff _ formCode_iff.symm

/-- One pair of a form: a name, and the code of a value. -/
structure Pair where
  name : String
  code : String
  name_free : '=' ∉ name.toList ∧ '&' ∉ name.toList := by simp
  code_free : '&' ∉ code.toList := by simp

def Pair.text (p : Pair) : String :=
  p.name ++ "=" ++ p.code

/-- The pairs with an ampersand between each two. -/
def formOf (pairs : List Pair) : String :=
  "&".intercalate (pairs.map Pair.text)

theorem Pair.splitPair_text (p : Pair) :
    splitPair p.text.toList = (p.name.toList, p.code.toList) := by
  have hcut : Text.cut '=' p.text.toList = some (p.name.toList, p.code.toList) :=
    Text.cut_eq_some_iff.2 ⟨by simp [text], p.name_free.1⟩
  rw [splitPair, hcut, Option.getD_some]

theorem Pair.ampersand_notMem (p : Pair) : '&' ∉ p.text.toList := by
  simp [text, p.name_free.2, p.code_free]

theorem pieces_formOf {pairs : List Pair} (hne : pairs ≠ []) :
    Text.pieces '&' (formOf pairs).toList = pairs.map fun p => p.text.toList := by
  rw [Text.pieces_eq_iff]
  refine ⟨by simpa using hne, ?_, ?_⟩
  · intro piece hpiece
    obtain ⟨p, -, rfl⟩ := List.mem_map.1 hpiece
    exact p.ampersand_notMem
  · rw [formOf, String.toList_intercalate, List.map_map]
    rfl

/-- The first pair of a name has a code of the value. -/
def Carries (pairs : List Pair) (name value : String) : Prop :=
  ∃ pair ∈ pairs.find? (·.name == name), FormCode (Utf8.encode pair.code) (Utf8.encode value)

instance (pairs : List Pair) (name value : String) : Decidable (Carries pairs name value) :=
  inferInstanceAs (Decidable (∃ _ ∈ _, _))

/-- A field has the value that the first pair of its name carries. -/
theorem Carries.field_eq {pairs : List Pair} {name value : String} (h : Carries pairs name value) :
    field (formOf pairs) name = value := by
  obtain ⟨pair, hpair, hcode⟩ := h
  have hne : pairs ≠ [] := by
    rintro rfl
    contradiction
  have hname : (fun p : Pair => (splitPair p.text.toList).1 == name.toList) =
      fun p => p.name == name := by
    funext p
    rw [p.splitPair_text, Bool.eq_iff_iff, beq_iff_eq, beq_iff_eq, String.toList_inj]
  have hfind : ((Text.pieces '&' (formOf pairs).toList).map splitPair).find?
      (·.1 == name.toList) = some (pair.name.toList, pair.code.toList) := by
    rw [pieces_formOf hne, List.map_map, List.find?_map, ← pair.splitPair_text]
    exact congrArg (Option.map _) ((congrArg (pairs.find? ·) hname).trans hpair)
  unfold field
  simp only [hfind, String.ofList_toList]
  exact hcode.decodeValue_eq

theorem Carries.intField_eq {pairs : List Pair} {name : String} {n : Int32}
    (h : Carries pairs name (number n)) : intField (formOf pairs) name = n := by
  rw [intField, h.field_eq, number]
  exact Number.clamp32_ofText_toString n

/-- What is typed into the fields of the setup form. -/
structure Typed where
  moduleName : String
  ssid : String
  password : String
  resolution : String
  uploadServer : String
  uploadEndpoint : String
  initServer : String
  initEndpoint : String
  captureIntervalMs : Int32
  verticalFlip : Int32
  brightness : Int32
  saturation : Int32
  deriving DecidableEq, Repr

namespace Typed

/-- Every field of the form with its value, the token among them. -/
def fields (t : Typed) (token : Token) : List (String × String) :=
  [("session", token.text), ("module_name", t.moduleName), ("ssid", t.ssid),
    ("password", t.password), ("res", t.resolution), ("upload_base", t.uploadServer),
    ("upload_endpoint", t.uploadEndpoint), ("init_base", t.initServer),
    ("init_endpoint", t.initEndpoint), ("interval", number t.captureIntervalMs),
    ("vflip", number t.verticalFlip), ("bright", number t.brightness),
    ("sat", number t.saturation)]

/-- The configuration that is meant: texts and numbers as they are, and each URL joined from its two
halves. -/
def device (t : Typed) : Device where
  moduleName := t.moduleName
  ssid := t.ssid
  password := t.password
  uploadUrl := joinUrl t.uploadServer t.uploadEndpoint
  initUrl := joinUrl t.initServer t.initEndpoint
  captureIntervalMs := t.captureIntervalMs
  resolution := t.resolution
  verticalFlip := t.verticalFlip
  brightness := t.brightness
  saturation := t.saturation

variable {t : Typed} {token : Token} {pairs : List Pair}

theorem deviceOfForm_eq (h : ∀ f ∈ t.fields token, Carries pairs f.1 f.2) :
    deviceOfForm (formOf pairs) = t.device := by
  simp only [fields, List.forall_mem_cons] at h
  obtain ⟨-, hname, hssid, hpassword, hres, huploadBase, huploadEnd, hinitBase, hinitEnd, hinterval,
    hvflip, hbright, hsat, -⟩ := h
  simp only [deviceOfForm, device, hname.field_eq, hssid.field_eq, hpassword.field_eq,
    hres.field_eq, huploadBase.field_eq, huploadEnd.field_eq, hinitBase.field_eq,
    hinitEnd.field_eq, hinterval.intField_eq, hvflip.intField_eq, hbright.intField_eq,
    hsat.intField_eq]

theorem admits_formOf (htoken : token.text ≠ "")
    (h : ∀ f ∈ t.fields token, Carries pairs f.1 f.2) :
    token.admits (field (formOf pairs) "session") = true := by
  have hsession := (h ("session", token.text) List.mem_cons_self).field_eq
  simp [Token.admits, hsession, htoken]

theorem formOf_ne_empty (htoken : token.text ≠ "")
    (h : ∀ f ∈ t.fields token, Carries pairs f.1 f.2) : formOf pairs ≠ "" := by
  intro hempty
  have hsession := (h ("session", token.text) List.mem_cons_self).field_eq
  have hnone : field "" "session" = "" := by decide +kernel
  rw [hempty, hnone] at hsession
  exact htoken hsession.symm

end Typed

section Storing

variable {σ : Type} [Store σ] {p : Portal σ}

/-- What becomes of an accepted form when the store takes both changes. -/
theorem Portal.accept_eq_saved {form : String} {s t : σ}
    (hsave : Store.save p.store (deviceOfForm form) = .ok s)
    (hmark : Store.setConfigured s true = .ok t) :
    p.accept form = (⟨page (deviceOfForm form) p.token true, .saved, true⟩,
      { p with device := deviceOfForm form, store := t }) := by
  simp only [accept, hsave, hmark]

/-- On a store that takes both changes, a form is stored just as it was typed, in whatever order and
code it is sent. -/
theorem answer_stores_typed (typed : Typed) (pairs : List Pair) (r : Request)
    (htoken : p.token.text ≠ "")
    (hcarries : ∀ f ∈ typed.fields p.token, Carries pairs f.1 f.2)
    (hpost : r.method = .post) (hsaving : IsForSaving r) (hbody : r.body = formOf pairs)
    (htakes : ∀ d, ∃ s t, Store.save p.store d = .ok s ∧ Store.setConfigured s true = .ok t) :
    ∃ s t, Store.save p.store typed.device = .ok s ∧ Store.setConfigured s true = .ok t ∧
      p.answer r = (⟨page typed.device p.token true, .saved, true⟩,
        { p with device := typed.device, store := t }) ∧
      ∀ Sound : σ → Prop, Store.Keeps Sound → Sound p.store →
        Store.load t = .ok (some typed.device) ∧ Store.isConfigured t = true := by
  have hform : submission r = formOf pairs := by
    rw [← hbody]
    exact (submits_iff.1 (.body hpost)).symm
  have hdevice : deviceOfForm (submission r) = typed.device := by
    rw [hform]
    exact Typed.deviceOfForm_eq hcarries
  have hasked : IsForSaving r ∧ submission r ≠ "" := by
    rw [hform]
    exact ⟨hsaving, Typed.formOf_ne_empty htoken hcarries⟩
  have hadmits : p.token.admits (field (submission r) "session") = true := by
    rw [hform]
    exact Typed.admits_formOf htoken hcarries
  obtain ⟨s, t, hsave, hmark⟩ := htakes typed.device
  refine ⟨s, t, hsave, hmark, ?_, fun Sound hkeeps hsound => ?_⟩
  · rw [← hdevice] at hsave ⊢
    rw [answer_eq_accept hasked hadmits, Portal.accept_eq_saved hsave hmark]
  · obtain ⟨hsoundSaved, hload, -⟩ := hkeeps.save_device hsound hsave
    obtain ⟨-, hkept, hconfigured⟩ := hkeeps.mark_device hsoundSaved hmark
    exact ⟨hkept.trans hload, hconfigured⟩

end Storing

/-- A value looks like an escape and like another pair, one name comes twice and one is unknown, and
the numbers are the least and the greatest. -/
theorem answer_stores_escaped_values :
    let typed : Typed := ⟨"é=&+%41&ssid=x", " a+b ", "", "vga ", "http://h/", "/up", "", "laté",
      -2147483648, 2147483647, 0, -1⟩
    let pairs : List Pair := [.mk "sat" "%2D1", .mk "note" "ssid=%",
      .mk "module_name" "%c3%A9=%26%2B%2541%26ssid=x", .mk "session" "%74",
      .mk "ssid" "+a%2bb%20", .mk "ssid" "other", .mk "password" "", .mk "res" "vga+",
      .mk "upload_base" "http:%2f/h%2F", .mk "upload_endpoint" "/up", .mk "init_base" "",
      .mk "init_endpoint" "l%61té", .mk "interval" "-2147483648", .mk "vflip" "2147483647",
      .mk "bright" "%30"]
    let p : Portal Memory := ⟨{}, {}, ⟨"t"⟩⟩
    let r : Request := ⟨.post, "/save", formOf pairs, 0⟩
    (∀ f ∈ typed.fields p.token, Carries pairs f.1 f.2) ∧
      (p.answer r).1 = ⟨page typed.device p.token true, .saved, true⟩ ∧
      (p.answer r).2.store.record = some typed.device.toRecord := by
  intro typed pairs p r
  have hcarries : ∀ f ∈ typed.fields p.token, Carries pairs f.1 f.2 := by decide +kernel
  have htakes : ∀ d, ∃ s t, Store.save p.store d = .ok s ∧ Store.setConfigured s true = .ok t :=
    fun d => ⟨{ record := some d.toRecord }, { record := some d.toRecord, configured := true },
      rfl, rfl⟩
  have hsaving : IsForSaving r := (asksToSave_iff r).1 (by decide +kernel)
  obtain ⟨s, t, hsave, hmark, hanswer, -⟩ :=
    answer_stores_typed typed pairs r (by decide) hcarries rfl hsaving rfl htakes
  refine ⟨hcarries, congrArg Prod.fst hanswer, ?_⟩
  obtain rfl : { record := some typed.device.toRecord } = s := Except.ok.inj hsave
  obtain rfl : { record := some typed.device.toRecord, configured := true } = t :=
    Except.ok.inj hmark
  rw [hanswer]

end FieldCamera.Setup
