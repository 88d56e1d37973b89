import Mathlib.Data.List.Induction
import FieldCamera.Proofs.Device.Record
import FieldCamera.Proofs.Files.Places
import FieldCamera.Proofs.Setup.Turns
/-!
# Files as a store

Two files that each have a place of their own hold one record and one marker (`RecordFiles.Holds`).
Every call answers as a store in memory would, and leaves the files holding what that store then
holds (`RecordFiles.Holds.respond`). So it is along every row of calls, and what is found is what
was saved or marked last (`RecordFiles.answers_of_isFresh`).
-/

namespace FieldCamera

namespace Store

/-- A call to a store. -/
inductive Call where
  | load
  | save (record : Record)
  | isConfigured
  | setConfigured (configured : Bool)
  deriving DecidableEq, Repr

/-- What a call answers. -/
inductive Answer where
  | record (found : Option Record)
  | marker (configured : Bool)
  | changed
  | failed (cause : Fault)
  deriving DecidableEq, Repr

namespace Call

def saved? : Call → Option Record
  | save r => some r
  | _ => none

def marked? : Call → Option Bool
  | setConfigured b => some b
  | _ => none

end Call

/-- The record that was saved last. -/
def lastSaved (calls : List Call) : Option Record :=
  (calls.filterMap Call.saved?).getLast?

/-- The marker as it was set or cleared last. -/
def lastMarked (calls : List Call) : Bool :=
  (calls.filterMap Call.marked?).getLast?.getD false

section Runs

variable {σ : Type} [Store σ]

/-- The answer to a call, and the store behind it. A change that fails leaves the store as it
was. -/
def respond (s : σ) : Call → Answer × σ
  | .load =>
    match Store.loadRecord s with
    | .ok found => (.record found, s)
    | .error cause => (.failed cause, s)
  | .save r =>
    match Store.saveRecord s r with
    | .ok t => (.changed, t)
    | .error cause => (.failed cause, s)
  | .isConfigured => (.marker (Store.isConfigured s), s)
  | .setConfigured b =>
    match Store.setConfigured s b with
    | .ok t => (.changed, t)
    | .error cause => (.failed cause, s)

/-- The answers to a row of calls. -/
def answers (s : σ) : List Call → List Answer
  | [] => []
  | c :: cs => (respond s c).1 :: answers (respond s c).2 cs

/-- The store behind a row of calls. -/
def after (s : σ) (calls : List Call) : σ :=
  calls.foldl (fun s c => (respond s c).2) s

theorem after_append_singleton (s : σ) (calls : List Call) (c : Call) :
    after s (calls ++ [c]) = (respond (after s calls) c).2 := by
  rw [after, List.foldl_append]
  rfl

end Runs

end Store

namespace Memory

open Store

/-- A store in memory holds what was saved and marked last. -/
theorem after_eq (calls : List Call) :
    after ({} : Memory) calls = { record := lastSaved calls, configured := lastMarked calls } := by
  induction calls using List.reverseRecOn with
  | nil => rfl
  | append_singleton calls c ih =>
      rw [after_append_singleton, ih]
      cases c <;>
        simp [lastSaved, lastMarked, Call.saved?, Call.marked?, respond, Store.loadRecord,
          Store.saveRecord, Store.isConfigured, Store.setConfigured]

end Memory

namespace RecordFiles

open Store

variable {s : RecordFiles} {record flag : Files.Place} {found : Option Record} {configured : Bool}

/-- The files hold a record and a marker, each at a place of its own. -/
structure Holds (record flag : Files.Place) (found : Option Record) (configured : Bool)
    (s : RecordFiles) : Prop where
  recordPlace : s.files.HasPlace s.recordPath record
  flagPlace : s.files.HasPlace s.flagPath flag
  apart : record.way ≠ flag.way
  recordContent : s.files.lookup record.way =
    (found.map fun r => Utf8.encode r.text).map .file
  flagContent : s.files.lookup flag.way = (if configured then some marker else none).map .file

section Steps

theorem Holds.load_eq (h : Holds record flag found configured s) :
    Store.loadRecord s = .ok found := by
  have hread := h.recordPlace.read_eq h.recordContent
  change RecordFiles.load s = .ok found
  rw [RecordFiles.load, hread]
  cases found with
  | none => rfl
  | some r =>
      simp only [Option.map_some, Option.elim_some, Utf8.decode?_encode, Record.read_text]

theorem Holds.loadDevice_eq (h : Holds record flag found configured s) :
    Store.loadDevice s = .ok ((found.map Record.toDevice).getD {}) := by
  rw [Store.loadDevice, Store.load, h.load_eq]
  rfl

theorem Holds.isConfigured_eq (h : Holds record flag found configured s) :
    Store.isConfigured s = configured := by
  have hthere := h.flagPlace.isThere_eq h.flagContent
  change s.files.isThere s.flagPath = configured
  rw [hthere]
  cases configured <;> rfl

/-- The files hold what they are changed to, as long as no directory is lost. -/
theorem Holds.change (h : Holds record flag found configured s) {files : Files}
    (hkeeps : s.files.KeepsDirectories files) {found' : Option Record} {configured' : Bool}
    (hrecord : files.lookup record.way = (found'.map fun r => Utf8.encode r.text).map .file)
    (hflag : files.lookup flag.way = (if configured' then some marker else none).map .file) :
    Holds record flag found' configured' { s with files := files } where
  recordPlace := h.recordPlace.mono hkeeps
  flagPlace := h.flagPlace.mono hkeeps
  apart := h.apart
  recordContent := hrecord
  flagContent := hflag

/-- Saving always succeeds. It replaces the record, and leaves the marker as it was. -/
theorem Holds.save (h : Holds record flag found configured s) (r : Record) :
    ∃ files, Store.saveRecord s r = .ok { s with files := files } ∧
      Holds record flag (some r) configured { s with files := files } := by
  have hwrite := h.recordPlace.write_eq h.recordContent (Utf8.encode r.text)
  have hfile := Files.lookup_ne_directory h.recordContent
  refine ⟨s.files.put record.way (.file (Utf8.encode r.text)), ?_, ?_⟩
  · change RecordFiles.save s r = _
    rw [RecordFiles.save, hwrite]
  · exact h.change (Files.keepsDirectories_put hfile _) (Files.lookup_put_self hfile _)
      ((Files.lookup_put_of_ne h.apart.symm _).trans h.flagContent)

/-- Setting or clearing the marker always succeeds, whether or not it was set. It leaves the record
as it was. -/
theorem Holds.setConfigured (h : Holds record flag found configured s) (b : Bool) :
    ∃ files, Store.setConfigured s b = .ok { s with files := files } ∧
      Holds record flag found b { s with files := files } := by
  have hfile := Files.lookup_ne_directory h.flagContent
  change ∃ files, RecordFiles.setConfigured s b = .ok { s with files := files } ∧ _
  cases b with
  | true =>
      have hwrite := h.flagPlace.write_eq h.flagContent marker
      refine ⟨s.files.put flag.way (.file marker), ?_, ?_⟩
      · simp only [RecordFiles.setConfigured, if_pos, hwrite]
      · exact h.change (Files.keepsDirectories_put hfile _)
          ((Files.lookup_put_of_ne h.apart _).trans h.recordContent)
          (Files.lookup_put_self hfile _)
  | false =>
      have hremove := h.flagPlace.remove_eq h.flagContent
      cases configured with
      | true =>
          refine ⟨s.files.drop flag.way, ?_, ?_⟩
          · simp only [RecordFiles.setConfigured, hremove]
            rfl
          · exact h.change (Files.keepsDirectories_drop hfile)
              ((Files.lookup_drop_of_ne h.apart).trans h.recordContent)
              (Files.lookup_drop_self hfile)
      | false =>
          -- There is no marker to remove, and that is no fault.
          refine ⟨s.files, ?_, h⟩
          simp only [RecordFiles.setConfigured, hremove]
          rfl

/-- A call answers as a store in memory would, and leaves the files holding what that store then
holds. -/
theorem Holds.respond (h : Holds record flag found configured s) (c : Call) :
    ∃ found' configured',
      Store.respond ({ record := found, configured := configured } : Memory) c =
        ((Store.respond s c).1, { record := found', configured := configured' }) ∧
      Holds record flag found' configured' (Store.respond s c).2 := by
  cases c with
  | load =>
      refine ⟨found, configured, ?_, ?_⟩
      · simp only [Store.respond, h.load_eq]
        rfl
      · simpa only [Store.respond, h.load_eq] using h
  | save r =>
      obtain ⟨files, hsave, ht⟩ := h.save r
      refine ⟨some r, configured, ?_, ?_⟩
      · simp only [Store.respond, hsave]
        rfl
      · simpa only [Store.respond, hsave] using ht
  | isConfigured =>
      refine ⟨found, configured, ?_, h⟩
      simp only [Store.respond, h.isConfigured_eq]
      rfl
  | setConfigured b =>
      obtain ⟨files, hmark, ht⟩ := h.setConfigured b
      refine ⟨found, b, ?_, ?_⟩
      · simp only [Store.respond, hmark]
        rfl
      · simpa only [Store.respond, hmark] using ht

end Steps

/-- So it is along every row of calls. -/
theorem Holds.answers (h : Holds record flag found configured s) (calls : List Call) :
    Store.answers s calls =
      Store.answers ({ record := found, configured := configured } : Memory) calls ∧
    ∃ found' configured',
      Store.after ({ record := found, configured := configured } : Memory) calls =
        { record := found', configured := configured' } ∧
      Holds record flag found' configured' (Store.after s calls) := by
  induction calls generalizing s found configured with
  | nil => exact ⟨rfl, found, configured, rfl, h⟩
  | cons c calls ih =>
      obtain ⟨found', configured', hrespond, hholds⟩ := h.respond c
      obtain ⟨hanswers, hafter⟩ := ih hholds
      constructor
      · simp only [Store.answers, hrespond, hanswers]
      · simp only [Store.after, List.foldl_cons, hrespond]
        exact hafter

/-- The laws that the portal asks of its store hold of the files at two paths. -/
theorem keeps (recordPath flagPath : String) : Store.Keeps fun s : RecordFiles =>
    s.recordPath = recordPath ∧ s.flagPath = flagPath ∧
      ∃ found configured, Holds record flag found configured s where
  save {s t r} hs hsave := by
    obtain ⟨hrecord, hflag, found, configured, h⟩ := hs
    obtain ⟨files, hsave', ht⟩ := h.save r
    obtain rfl := Except.ok.inj (hsave'.symm.trans hsave)
    exact ⟨⟨hrecord, hflag, _, _, ht⟩, ht.load_eq,
      ht.isConfigured_eq.trans h.isConfigured_eq.symm⟩
  mark {s t b} hs hmark := by
    obtain ⟨hrecord, hflag, found, configured, h⟩ := hs
    obtain ⟨files, hmark', ht⟩ := h.setConfigured b
    obtain rfl := Except.ok.inj (hmark'.symm.trans hmark)
    exact ⟨⟨hrecord, hflag, _, _, ht⟩, ht.load_eq.trans h.load_eq.symm, ht.isConfigured_eq⟩

/-- Two different files in directories that are there, neither of which has been made yet. -/
structure IsFresh (s : RecordFiles) (record flag : Files.Place) : Prop where
  recordPlace : s.files.HasPlace s.recordPath record
  flagPlace : s.files.HasPlace s.flagPath flag
  apart : record.way ≠ flag.way
  noRecord : s.files.lookup record.way = none
  noFlag : s.files.lookup flag.way = none

theorem IsFresh.holds (h : IsFresh s record flag) : Holds record flag none false s :=
  ⟨h.recordPlace, h.flagPlace, h.apart, h.noRecord, h.noFlag⟩

/-- Over any row of calls, the files answer as a store in memory does that holds nothing at first.
Behind them the record is the one saved last, whatever is in it, and the marker is as it was set or
cleared last; and each can still be changed. -/
theorem answers_of_isFresh (h : IsFresh s record flag) (calls : List Call) :
    Store.answers s calls = Store.answers ({} : Memory) calls ∧
    Store.loadRecord (Store.after s calls) = .ok (lastSaved calls) ∧
    Store.isConfigured (Store.after s calls) = lastMarked calls ∧
    (∀ r, ∃ t, Store.saveRecord (Store.after s calls) r = .ok t) ∧
    ∀ b, ∃ t, Store.setConfigured (Store.after s calls) b = .ok t := by
  obtain ⟨hanswers, found, configured, hafter, hholds⟩ := h.holds.answers calls
  have hlast := hafter.symm.trans (Memory.after_eq calls)
  obtain ⟨rfl, rfl⟩ : found = lastSaved calls ∧ configured = lastMarked calls := by
    simpa using hlast
  refine ⟨hanswers, hholds.load_eq, hholds.isConfigured_eq, fun r => ?_, fun b => ?_⟩
  · obtain ⟨files, hsave, -⟩ := hholds.save r
    exact ⟨_, hsave⟩
  · obtain ⟨files, hmark, -⟩ := hholds.setConfigured b
    exact ⟨_, hmark⟩

/-- A record in one directory and a marker in another, of which neither has been made. -/
def unmade : RecordFiles where
  files := { home := ["srv"], entries := [(["data"], .directory)] }
  recordPath := "/data/./config.json"
  flagPath := "configured.flag"

theorem isFresh_unmade :
    IsFresh unmade ⟨["data"], "config.json", false⟩ ⟨["srv"], "configured.flag", false⟩ := by
  have hplace {path : String} {place : Files.Place}
      (h : (unmade.files.resolve path).toOption = some place) :
      unmade.files.resolve path = .ok place := by
    cases hresolve : unmade.files.resolve path <;> simp_all [Except.toOption]
  exact {
    recordPlace := ⟨hplace (by decide +kernel), by decide, by decide⟩
    flagPlace := ⟨hplace (by decide +kernel), by decide, by decide⟩
    apart := by decide
    noRecord := by decide
    noFlag := by decide }

/-- A record with quotes, backslashes, controls and characters of every length, and numbers at both
ends of their range. -/
theorem answers_unmade :
    let r : Record := {
      network := { moduleName := "\u0001\"\\\n\u007f\u2028\ue000😀" }
      camera := { captureIntervalMs := -2147483648, brightness := 2147483647 } }
    IsFresh unmade ⟨["data"], "config.json", false⟩ ⟨["srv"], "configured.flag", false⟩ ∧
    Store.answers unmade [.load, .setConfigured false, .save r, .setConfigured true, .isConfigured,
        .load, .save {}, .setConfigured false, .load, .isConfigured] =
      [.record none, .changed, .changed, .changed, .marker true, .record (some r),
        .changed, .changed, .record (some {}), .marker false] :=
  ⟨isFresh_unmade, (answers_of_isFresh isFresh_unmade _).1⟩

end RecordFiles

end FieldCamera
