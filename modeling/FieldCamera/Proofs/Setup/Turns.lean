import FieldCamera.Setup.Portal
/-!
# The portal and its store

A store keeps its record and its marker apart, and finds the record that was saved last
(`Store.Keeps`). A portal that was opened on such a store shows what the store holds. It goes on
doing so whatever it is asked, and whichever changes fail: the record is saved first, and what the
portal shows follows it at once, whether or not the marker can be set as well (`fitting_after`).
-/

namespace FieldCamera

namespace Store

/-- The laws of a store, in those of its states that are `Sound`. -/
structure Keeps {σ : Type} [Store σ] (Sound : σ → Prop) : Prop where
  save {s t : σ} {r : Record} : Sound s → Store.saveRecord s r = .ok t →
    Sound t ∧ Store.loadRecord t = .ok (some r) ∧ Store.isConfigured t = Store.isConfigured s
  mark {s t : σ} {b : Bool} : Sound s → Store.setConfigured s b = .ok t →
    Sound t ∧ Store.loadRecord t = Store.loadRecord s ∧ Store.isConfigured t = b

section Devices

variable {σ : Type} [Store σ] {Sound : σ → Prop} {s t : σ}

/-- A configuration is found again that was saved, since its record is. -/
theorem Keeps.save_device (h : Keeps Sound) {d : Device} (hs : Sound s)
    (hsave : Store.save s d = .ok t) :
    Sound t ∧ Store.load t = .ok (some d) ∧ Store.isConfigured t = Store.isConfigured s := by
  obtain ⟨ht, hload, hsame⟩ := h.save hs hsave
  refine ⟨ht, ?_, hsame⟩
  rw [Store.load, hload, Except.map, Option.map_some, Device.toDevice_toRecord]

theorem Keeps.mark_device (h : Keeps Sound) {b : Bool} (hs : Sound s)
    (hmark : Store.setConfigured s b = .ok t) :
    Sound t ∧ Store.load t = Store.load s ∧ Store.isConfigured t = b := by
  obtain ⟨ht, hload, hset⟩ := h.mark hs hmark
  exact ⟨ht, congrArg (Except.map (Option.map Record.toDevice)) hload, hset⟩

theorem loadDevice_of_load {d : Device} (h : Store.load s = .ok (some d)) :
    Store.loadDevice s = .ok d := by
  rw [Store.loadDevice, h]
  rfl

end Devices

end Store

theorem Memory.keeps : Store.Keeps fun _ : Memory => True where
  save {s t r} _ h := by
    cases hrefuses : s.refusesRecord with
    | true => simp [Store.saveRecord, hrefuses] at h
    | false =>
        obtain rfl : { s with record := some r } = t := by
          simpa [Store.saveRecord, hrefuses] using h
        exact ⟨trivial, rfl, rfl⟩
  mark {s t b} _ h := by
    cases hrefuses : s.refusesMarker with
    | true => simp [Store.setConfigured, hrefuses] at h
    | false =>
        obtain rfl : { s with configured := b } = t := by
          simpa [Store.setConfigured, hrefuses] using h
        exact ⟨trivial, rfl, rfl⟩

/-- One change of a store. -/
inductive Change where
  | record (saved : Record)
  | marker (configured : Bool)
  deriving DecidableEq, Repr

/-- A store of which either change can be made to fail, with the changes that were made to it. -/
structure Watched (σ : Type) where
  store : σ
  refusesRecord : Bool := false
  refusesMarker : Bool := false
  made : List Change := []

namespace Watched

variable {σ : Type} [Store σ]

instance : Store (Watched σ) where
  loadRecord w := Store.loadRecord w.store
  saveRecord w r :=
    if w.refusesRecord then .error .refused
    else (Store.saveRecord w.store r).map fun s =>
      { w with store := s, made := w.made ++ [.record r] }
  isConfigured w := Store.isConfigured w.store
  setConfigured w b :=
    if w.refusesMarker then .error .refused
    else (Store.setConfigured w.store b).map fun s =>
      { w with store := s, made := w.made ++ [.marker b] }

theorem exists_of_save {w v : Watched σ} {r : Record} (h : Store.saveRecord w r = .ok v) :
    ∃ s, Store.saveRecord w.store r = .ok s ∧
      v = { w with store := s, made := w.made ++ [.record r] } := by
  cases hrefuses : w.refusesRecord with
  | true => simp [Store.saveRecord, hrefuses] at h
  | false =>
      cases hsave : Store.saveRecord w.store r with
      | error cause => simp [Store.saveRecord, hrefuses, hsave, Except.map] at h
      | ok s =>
          exact ⟨s, rfl, by simpa [Store.saveRecord, hrefuses, hsave, Except.map] using h.symm⟩

theorem exists_of_mark {w v : Watched σ} {b : Bool} (h : Store.setConfigured w b = .ok v) :
    ∃ s, Store.setConfigured w.store b = .ok s ∧
      v = { w with store := s, made := w.made ++ [.marker b] } := by
  cases hrefuses : w.refusesMarker with
  | true => simp [Store.setConfigured, hrefuses] at h
  | false =>
      cases hmark : Store.setConfigured w.store b with
      | error cause => simp [Store.setConfigured, hrefuses, hmark, Except.map] at h
      | ok s =>
          exact ⟨s, rfl, by simpa [Store.setConfigured, hrefuses, hmark, Except.map] using h.symm⟩

/-- Failures that are chosen from outside leave the laws as they are. -/
theorem keeps {Sound : σ → Prop} (hkeeps : Store.Keeps Sound) :
    Store.Keeps fun w : Watched σ => Sound w.store where
  save hsound h := by
    obtain ⟨s, hsave, rfl⟩ := exists_of_save h
    exact hkeeps.save hsound hsave
  mark hsound h := by
    obtain ⟨s, hmark, rfl⟩ := exists_of_mark h
    exact hkeeps.mark hsound hmark

end Watched

namespace Setup

namespace Portal

variable {σ : Type} [Store σ]

/-- What an answer can do to a portal: nothing, or save the record that was submitted, or save it
and set the marker. -/
theorem answer_cases (p : Portal σ) (r : Request) :
    let device := deviceOfForm (submission r)
    (∃ route, route ≠ .saved ∧ p.answer r = (p.present route, p)) ∨
    (∃ s, Store.save p.store device = .ok s ∧
      p.answer r = (({ p with device := device, store := s } : Portal σ).present .saveFailed,
        { p with device := device, store := s })) ∨
    (∃ s t, Store.save p.store device = .ok s ∧ Store.setConfigured s true = .ok t ∧
      p.answer r = (⟨page device p.token true, .saved, true⟩,
        { p with device := device, store := t })) := by
  intro device
  unfold answer
  dsimp only
  split
  · exact .inl ⟨.form, by decide, rfl⟩
  · split
    · cases hsave : Store.save p.store device with
      | error cause =>
          exact .inl ⟨.saveFailed, by decide, by simp only [accept, device, hsave]⟩
      | ok s =>
          cases hmark : Store.setConfigured s true with
          | error cause => exact .inr (.inl ⟨s, rfl, by simp only [accept, device, hsave, hmark]⟩)
          | ok t =>
              exact .inr (.inr ⟨s, t, rfl, hmark, by simp only [accept, device, hsave, hmark]⟩)
    · exact .inl ⟨.rejected, by decide, rfl⟩

/-- A portal that shows what its store holds. -/
structure InStep (Sound : σ → Prop) (p : Portal σ) : Prop where
  sound : Sound p.store
  shown : Store.loadDevice p.store = .ok p.device

theorem inStep_ofStore {Sound : σ → Prop} {store : σ} (hstore : Sound store) {token : Token}
    {p : Portal σ} (h : Portal.ofStore store token = .ok p) : InStep Sound p := by
  cases hload : Store.loadDevice store with
  | error cause => simp [ofStore, hload, Except.map] at h
  | ok device =>
      obtain rfl : (⟨device, store, token⟩ : Portal σ) = p := by
        simpa [ofStore, hload, Except.map] using h
      exact ⟨hstore, hload⟩

theorem InStep.answer {Sound : σ → Prop} (hkeeps : Store.Keeps Sound) {p : Portal σ}
    (h : InStep Sound p) (r : Request) : InStep Sound (p.answer r).2 := by
  obtain ⟨route, -, hanswer⟩ | ⟨s, hsave, hanswer⟩ | ⟨s, t, hsave, hmark, hanswer⟩ :=
    p.answer_cases r
  · rw [hanswer]
    exact h
  · obtain ⟨hsound, hload, -⟩ := hkeeps.save_device h.sound hsave
    rw [hanswer]
    exact ⟨hsound, Store.loadDevice_of_load hload⟩
  · obtain ⟨hsound, hload, -⟩ := hkeeps.save_device h.sound hsave
    obtain ⟨hmarked, hloadMarked, -⟩ := hkeeps.mark_device hsound hmark
    rw [hanswer]
    exact ⟨hmarked, Store.loadDevice_of_load (hloadMarked.trans hload)⟩

end Portal

/-- A request, and which changes of the store fail while it is answered. -/
structure Turn where
  request : Request
  refusesRecord : Bool := false
  refusesMarker : Bool := false

namespace Portal

variable {σ : Type} [Store σ]

/-- The portal at the beginning of a turn, in which no change has been made yet. -/
def facing (p : Portal (Watched σ)) (turn : Turn) : Portal (Watched σ) :=
  { p with store := ⟨p.store.store, turn.refusesRecord, turn.refusesMarker, []⟩ }

/-- Answers the request of a turn. -/
def take (p : Portal (Watched σ)) (turn : Turn) : Answer × Portal (Watched σ) :=
  (p.facing turn).answer turn.request

/-- The portal after some turns. -/
def after (p : Portal (Watched σ)) (turns : List Turn) : Portal (Watched σ) :=
  turns.foldl (fun p turn => (p.take turn).2) p

theorem after_cons (p : Portal (Watched σ)) (turn : Turn) (turns : List Turn) :
    p.after (turn :: turns) = (p.take turn).2.after turns :=
  List.foldl_cons ..

theorem InStep.take {Sound : σ → Prop} (hkeeps : Store.Keeps Sound) {p : Portal (Watched σ)}
    (h : InStep (fun w => Sound w.store) p) (turn : Turn) :
    InStep (fun w => Sound w.store) (p.take turn).2 :=
  have hfacing : InStep (fun w => Sound w.store) (p.facing turn) := ⟨h.sound, h.shown⟩
  hfacing.answer (Watched.keeps hkeeps) turn.request

theorem InStep.after {Sound : σ → Prop} (hkeeps : Store.Keeps Sound) {p : Portal (Watched σ)}
    (h : InStep (fun w => Sound w.store) p) (turns : List Turn) :
    InStep (fun w => Sound w.store) (p.after turns) := by
  induction turns generalizing p with
  | nil => exact h
  | cons turn turns ih =>
      rw [after_cons]
      exact ih (h.take hkeeps turn)

/-- What one turn does, by the changes that were made in it. -/
theorem take_cases {p now : Portal (Watched σ)} {turn : Turn} {answer : Answer}
    (h : p.take turn = (answer, now)) :
    let device := deviceOfForm (submission turn.request)
    ((now.store.made = [] ∧ now.store.store = p.store.store ∨
        now.store.made = [.record device.toRecord]) ∧
      answer.route ≠ .saved ∧ answer.stop ≠ true) ∨
    (now.store.made = [.record device.toRecord, .marker true] ∧ answer.route = .saved ∧
      answer.stop = true ∧ ∃ s, Store.save p.store.store device = .ok s ∧
        Store.setConfigured s true = .ok now.store.store) := by
  intro device
  rw [take] at h
  obtain ⟨route, hroute, htake⟩ | ⟨w, hsave, htake⟩ | ⟨w, v, hsave, hmark, htake⟩ :=
    (p.facing turn).answer_cases turn.request
  · obtain ⟨rfl, rfl⟩ := Prod.mk.inj (htake.symm.trans h)
    exact .inl ⟨.inl ⟨rfl, rfl⟩, hroute, Bool.noConfusion⟩
  · obtain ⟨s, -, rfl⟩ := Watched.exists_of_save hsave
    obtain ⟨rfl, rfl⟩ := Prod.mk.inj (htake.symm.trans h)
    exact .inl ⟨.inr rfl, Route.noConfusion, Bool.noConfusion⟩
  · obtain ⟨s, hsaved, rfl⟩ := Watched.exists_of_save hsave
    obtain ⟨t, hmarked, rfl⟩ := Watched.exists_of_mark hmark
    obtain ⟨rfl, rfl⟩ := Prod.mk.inj (htake.symm.trans h)
    exact .inr ⟨rfl, rfl, rfl, s, hsaved, hmarked⟩

end Portal

/-- The changes of a turn that sets the portal up: the record that was submitted, and the marker. -/
def setUp (turn : Turn) : List Change :=
  [.record (deviceOfForm (submission turn.request)).toRecord, .marker true]

/-- How portal and store fit each other before a turn and after it. -/
structure Fitting {σ : Type} [Store σ] (before : Portal (Watched σ)) (turn : Turn)
    (answer : Answer) (now : Portal (Watched σ)) : Prop where
  shown_before : Store.loadDevice before.store = .ok before.device
  /-- The portal shows what the next boot would load. -/
  shown : Store.loadDevice now.store = .ok now.device
  /-- The marker is not set without the record that was submitted. -/
  record_of_marked : Store.isConfigured before.store = false →
    Store.isConfigured now.store = true →
      .record (deviceOfForm (submission turn.request)).toRecord ∈ now.store.made
  saved_iff : answer.route = .saved ↔ now.store.made = setUp turn
  stop_iff : answer.stop = true ↔ now.store.made = setUp turn
  load : now.store.made = setUp turn →
    Store.load now.store = .ok (some (deviceOfForm (submission turn.request)))
  configured : now.store.made = setUp turn → Store.isConfigured now.store = true

/-- Portal and store fit each other in each turn of a portal that was opened on the store. -/
theorem fitting_after {σ : Type} [Store σ] {Sound : σ → Prop} (hkeeps : Store.Keeps Sound)
    {store : σ} (hstore : Sound store) {token : Token} {p : Portal (Watched σ)}
    (hopen : Portal.ofStore (⟨store, false, false, []⟩ : Watched σ) token = .ok p)
    (past : List Turn) (turn : Turn) {answer : Answer} {now : Portal (Watched σ)}
    (hturn : (p.after past).take turn = (answer, now)) :
    Fitting (p.after past) turn answer now := by
  have hfirst : Portal.InStep (fun w : Watched σ => Sound w.store) p := by
    refine Portal.inStep_ofStore ?_ hopen
    exact hstore
  have hbefore := hfirst.after hkeeps past
  have hnow := hbefore.take hkeeps turn
  rw [hturn] at hnow
  obtain ⟨hmade, hroute, hstop⟩ | ⟨hmade, hroute, hstop, s, hsave, hmark⟩ :=
    Portal.take_cases hturn
  · have hless : now.store.made ≠ setUp turn := by
      obtain ⟨hnone, -⟩ | hrecord := hmade
      · simp [hnone, setUp]
      · simp [hrecord, setUp]
    have hmarked : Store.isConfigured (p.after past).store = false →
        Store.isConfigured now.store = true →
          .record (deviceOfForm (submission turn.request)).toRecord ∈ now.store.made := by
      intro hunset hset
      obtain ⟨-, hsame⟩ | hrecord := hmade
      · have hkept : Store.isConfigured now.store = Store.isConfigured (p.after past).store :=
          congrArg (Store.isConfigured (σ := σ)) hsame
        simp [hkept, hunset] at hset
      · simp [hrecord]
    exact {
      shown_before := hbefore.shown
      shown := hnow.shown
      record_of_marked := hmarked
      saved_iff := iff_of_false hroute hless
      stop_iff := iff_of_false hstop hless
      load := fun h => absurd h hless
      configured := fun h => absurd h hless }
  · obtain ⟨hsound, hload, -⟩ := hkeeps.save_device hbefore.sound hsave
    obtain ⟨-, hloadMarked, hconfigured⟩ := hkeeps.mark_device hsound hmark
    exact {
      shown_before := hbefore.shown
      shown := hnow.shown
      record_of_marked := fun _ _ => by simp [hmade]
      saved_iff := iff_of_true hroute hmade
      stop_iff := iff_of_true hstop hmade
      load := fun _ => hloadMarked.trans hload
      configured := fun _ => hconfigured }

/-- A record is saved and its marker fails; a form without the token changes nothing; a further form
is saved with its marker. -/
theorem fitting_after_half_save :
    let p : Portal (Watched Memory) := ⟨{}, ⟨{}, false, false, []⟩, ⟨"t"⟩⟩
    let half : Turn := ⟨⟨.post, "/save", "ssid=a&session=t", 16⟩, false, true⟩
    let foreign : Turn := ⟨⟨.get, "/save?ssid=b&session=x", "", 0⟩, false, false⟩
    let whole : Turn := ⟨⟨.get, "/save?ssid=c&session=%74", "", 0⟩, false, false⟩
    let before := p.after [half, foreign]
    let answer := (before.take whole).1
    let now := (before.take whole).2
    Portal.ofStore (⟨{}, false, false, []⟩ : Watched Memory) ⟨"t"⟩ = .ok p ∧
      before.device.ssid = "a" ∧ Store.isConfigured before.store = false ∧
      now.store.made = setUp whole ∧ Fitting before whole answer now := by
  intro p half foreign whole before answer now
  have hopen : Portal.ofStore (⟨{}, false, false, []⟩ : Watched Memory) ⟨"t"⟩ = .ok p := rfl
  have hcourse : before.device.ssid = "a" ∧ Store.isConfigured before.store = false ∧
      now.store.made = setUp whole := by
    decide +kernel
  have hturn : before.take whole = (answer, now) := (Prod.eta _).symm
  exact ⟨hopen, hcourse.1, hcourse.2.1, hcourse.2.2,
    fitting_after Memory.keeps trivial hopen [half, foreign] whole hturn⟩

end Setup

end FieldCamera
