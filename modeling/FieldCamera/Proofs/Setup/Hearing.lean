import FieldCamera.Proofs.Link.Course
import FieldCamera.Proofs.Request.Feeding
import FieldCamera.Setup.Visit
/-!
# What is heard of a request

The course of a stream settles a request at the first instant at which the bytes that have come
until then complete it or break a bound. Reading hears exactly that request, provided that no wait
is too long and that the instant is not too late (`heardIn_hear`).
-/

namespace FieldCamera.Setup

open Link Request

/-- The bytes that have come at `t` settle what `r` is to receive, and those before do not. -/
structure SettledAt (limits : Limits) (r : Receiver) (c : Course) (t : Nat) : Prop where
  settles : (Receiver.feed limits r (c.receivedBy t)).verdict.isSome
  first : ∀ t' < t, (Receiver.feed limits r (c.receivedBy t')).verdict = none

/-- What a course settles is the same whichever instant is given for it. -/
theorem SettledAt.unique {limits : Limits} {r : Receiver} {c : Course} {t t' : Nat}
    (h : SettledAt limits r c t) (h' : SettledAt limits r c t') : t = t' := by
  rcases Nat.lt_trichotomy t t' with hlt | heq | hlt
  · have := h.settles
    rw [h'.first t hlt] at this
    contradiction
  · exact heq
  · have := h'.settles
    rw [h.first t' hlt] at this
    contradiction

section Front

variable {limits : Limits} {r : Receiver} {c : Course} {bs : List UInt8} {wait t : Nat}

theorem receivedBy_delay_prepend (hbs : bs ≠ []) :
    ((c.prepend bs).delay wait).receivedBy t =
      if wait ≤ t then bs ++ c.receivedBy (t - wait) else [] := by
  obtain ⟨b, bs, rfl⟩ := List.exists_cons_of_ne_nil hbs
  rw [Course.receivedBy, Course.upTo_delay_prepend hbs]
  split
  · simp [Course.receivedBy, Function.comp_def]
  · rfl

theorem waitsBy_delay_prepend (hbs : bs ≠ []) (ht : wait ≤ t) {idle : Nat} :
    (∀ w ∈ ((c.prepend bs).delay wait).waitsBy t, w ≤ idle) ↔
      wait ≤ idle ∧ ∀ w ∈ c.waitsBy (t - wait), w ≤ idle := by
  obtain ⟨b, bs, rfl⟩ := List.exists_cons_of_ne_nil hbs
  have hfront : ∀ w ∈ bs.map fun _ => 0, w ≤ idle := by simp
  rw [Course.waitsBy, Course.upTo_delay_prepend hbs, if_pos ht]
  simp only [List.map_append, List.map_cons, List.map_map, List.forall_mem_append,
    List.forall_mem_cons, Function.comp_def]
  exact ⟨fun h => ⟨h.1.1, h.2⟩, fun h => ⟨⟨h.1, hfront⟩, h.2⟩⟩

/-- Nothing is settled before the first byte comes. -/
theorem SettledAt.exists_byte (h : SettledAt limits r c t) (hr : r.isComplete = false) :
    ∃ w ∈ c.waitsBy t, c.wait = some w ∧ w ≤ t := by
  obtain ⟨_ | ⟨⟨w, b⟩, bytes⟩, ending⟩ := c
  · have := h.settles
    simp [Course.receivedBy, Course.upTo, Receiver.verdict_feed_nil hr] at this
  · by_cases hw : w ≤ t
    · exact ⟨w, by simp [Course.waitsBy, Course.upTo, hw], rfl, hw⟩
    · have := h.settles
      simp [Course.receivedBy, Course.upTo, hw, Receiver.verdict_feed_nil hr] at this

/-- Bytes in front that settle the request do so when they come. -/
theorem settledAt_iff_of_verdict (hbs : bs ≠ []) (hr : r.isComplete = false)
    (h : (Receiver.feed limits r bs).verdict.isSome) :
    SettledAt limits r ((c.prepend bs).delay wait) t ↔ t = wait := by
  have hsettled : SettledAt limits r ((c.prepend bs).delay wait) wait := by
    constructor
    · rw [receivedBy_delay_prepend hbs, if_pos (le_refl wait), Receiver.feed_append_of_verdict h]
      exact h
    · intro t' ht'
      rw [receivedBy_delay_prepend hbs, if_neg (by omega), Receiver.verdict_feed_nil hr]
  constructor
  · exact fun ht => ht.unique hsettled
  · rintro rfl
    exact hsettled

/-- Behind bytes that settle nothing, the request is settled by what follows. -/
theorem settledAt_iff_of_verdict_none (hbs : bs ≠ []) (hr : r.isComplete = false)
    (h : (Receiver.feed limits r bs).verdict = none) :
    SettledAt limits r ((c.prepend bs).delay wait) t ↔
      wait ≤ t ∧ SettledAt limits (Receiver.feed limits r bs).receiver c (t - wait) := by
  have hfeed : ∀ t', wait ≤ t' →
      (Receiver.feed limits r (((c.prepend bs).delay wait).receivedBy t')).verdict =
        (Receiver.feed limits (Receiver.feed limits r bs).receiver
          (c.receivedBy (t' - wait))).verdict := by
    intro t' ht'
    rw [receivedBy_delay_prepend hbs, if_pos ht', Receiver.feed_append_of_verdict_none h,
      Receiver.Fed.verdict_andThen]
  have hbefore : ∀ t' < wait,
      (Receiver.feed limits r (((c.prepend bs).delay wait).receivedBy t')).verdict = none := by
    intro t' ht'
    rw [receivedBy_delay_prepend hbs, if_neg (by omega), Receiver.verdict_feed_nil hr]
  constructor
  · intro hs
    have ht : wait ≤ t := by
      by_contra hlt
      have := hs.settles
      rw [hbefore t (by omega)] at this
      contradiction
    refine ⟨ht, hfeed t ht ▸ hs.settles, fun t' ht' => ?_⟩
    have := hs.first (wait + t') (by omega)
    rwa [hfeed _ (by omega), Nat.add_sub_cancel_left] at this
  · rintro ⟨ht, hs⟩
    refine ⟨(hfeed t ht).symm ▸ hs.settles, fun t' ht' => ?_⟩
    rcases Nat.lt_or_ge t' wait with hlt | hge
    · exact hbefore t' hlt
    · rw [hfeed t' hge]
      exact hs.first _ (by omega)

end Front

/-- What is heard, `now + t` being the instant at which the course settles the request. -/
def HeardIn (patience : Patience) (deadline : Nat) (r : Receiver) (now : Nat) (c : Course)
    (heard : Heard) : Prop :=
  match heard.request with
  | none => ∀ t, SettledAt patience.limits r c t → (∀ w ∈ c.waitsBy t, w ≤ patience.idleMs) →
      deadline < now + t
  | some request => ∃ t, SettledAt patience.limits r c t ∧
      (∀ w ∈ c.waitsBy t, w ≤ patience.idleMs) ∧ now + t ≤ deadline ∧ heard.now = now + t ∧
      (Receiver.feed patience.limits r (c.receivedBy t)).verdict = some request

section Hearing

variable {patience : Patience} {deadline now later : Nat} {r : Receiver} {c rest : Course}
  {bs : List UInt8} {s : Stream}

/-- Nothing is heard where the first byte comes too late or not at all. -/
theorem heardIn_none (hr : r.isComplete = false)
    (hc : ∀ w, c.bytes ≠ [] → c.wait = some w → w ≤ patience.idleMs → deadline < now + w) :
    HeardIn patience deadline r now c ⟨none, later, s⟩ := by
  intro t ht hwaits
  obtain ⟨w, hw, hwait, hle⟩ := ht.exists_byte hr
  have hne : c.bytes ≠ [] := by
    rintro hnil
    simp [Course.waitsBy, hnil, Course.upTo] at hw
  have := hc w hne hwait (hwaits w hw)
  omega

/-- Bytes that settle the request are heard when they come. -/
theorem heardIn_some {request : Except Fault Request} (hr : r.isComplete = false)
    (hbs : bs ≠ []) (hle : now ≤ later) (hidle : later ≤ now + patience.idleMs)
    (hdeadline : later ≤ deadline)
    (h : (Receiver.feed patience.limits r bs).verdict = some request) :
    HeardIn patience deadline r now ((rest.prepend bs).delay (later - now))
      ⟨some request, later, s⟩ := by
  have hsome : (Receiver.feed patience.limits r bs).verdict.isSome := by simp [h]
  have hreceived : ((rest.prepend bs).delay (later - now)).receivedBy (later - now) =
      bs ++ rest.receivedBy 0 := by
    rw [receivedBy_delay_prepend hbs, if_pos (le_refl _), Nat.sub_self]
  refine ⟨later - now, (settledAt_iff_of_verdict hbs hr hsome).2 rfl, ?_, by omega,
    by simp only; omega, ?_⟩
  · rw [waitsBy_delay_prepend hbs (le_refl _), Nat.sub_self]
    refine ⟨by omega, fun w hw => ?_⟩
    have := Course.le_of_mem_waitsBy hw
    omega
  · rw [hreceived, Receiver.feed_append_of_verdict hsome, h]

/-- Behind bytes that settle nothing, hearing goes on from the instant of their coming. -/
theorem HeardIn.of_rest {heard : Heard} (hr : r.isComplete = false) (hbs : bs ≠ [])
    (hle : now ≤ later) (hidle : later ≤ now + patience.idleMs)
    (h : (Receiver.feed patience.limits r bs).verdict = none)
    (hrest : HeardIn patience deadline (Receiver.feed patience.limits r bs).receiver later rest
      heard) :
    HeardIn patience deadline r now ((rest.prepend bs).delay (later - now)) heard := by
  unfold HeardIn at hrest ⊢
  split at hrest
  · intro t ht hwaits
    obtain ⟨hwait, ht⟩ := (settledAt_iff_of_verdict_none hbs hr h).1 ht
    have := hrest _ ht ((waitsBy_delay_prepend hbs hwait).1 hwaits).2
    omega
  · obtain ⟨t, ht, hwaits, hdeadline, hnow, hverdict⟩ := hrest
    have hsub : later - now + t - (later - now) = t := by omega
    refine ⟨later - now + t, ?_, ?_, by omega, by omega, ?_⟩
    · rw [settledAt_iff_of_verdict_none hbs hr h, hsub]
      exact ⟨Nat.le_add_right .., ht⟩
    · rw [waitsBy_delay_prepend hbs (Nat.le_add_right ..), hsub]
      exact ⟨by omega, hwaits⟩
    · rw [receivedBy_delay_prepend hbs, if_pos (Nat.le_add_right ..), hsub,
        Receiver.feed_append_of_verdict_none h, Receiver.Fed.verdict_andThen, hverdict]

/-- What is heard, and when, is settled by the course. -/
theorem HeardIn.unique {heard heard' : Heard} (h : HeardIn patience deadline r now c heard)
    (h' : HeardIn patience deadline r now c heard') :
    heard.request = heard'.request ∧ (heard.request.isSome → heard.now = heard'.now) := by
  unfold HeardIn at h h'
  split at h <;> split at h'
  · rename_i hnone _ hnone'
    simp [hnone, hnone']
  · obtain ⟨t, ht, hwaits, hdeadline, -⟩ := h'
    have := h t ht hwaits
    omega
  · obtain ⟨t, ht, hwaits, hdeadline, -⟩ := h
    have := h' t ht hwaits
    omega
  · rename_i hsome _ _ hsome'
    obtain ⟨t, ht, -, -, hnow, hverdict⟩ := h
    obtain ⟨t', ht', -, -, hnow', hverdict'⟩ := h'
    obtain rfl := ht.unique ht'
    rw [hsome, hsome', ← hverdict, ← hverdict', hnow, hnow']
    exact ⟨rfl, fun _ => rfl⟩

/-- What is met in reading one block of a request. -/
theorem meets_block (hd : now ≤ deadline) {outcome : Outcome (List UInt8)}
    (h : (s.read requestBlock (min deadline (now + patience.idleMs)) now).outcome = outcome) :
    (s.course now).Meets (min deadline (now + patience.idleMs)) now outcome
      (s.read requestBlock (min deadline (now + patience.idleMs)) now).now
      ((s.read requestBlock (min deadline (now + patience.idleMs)) now).state.course
        (s.read requestBlock (min deadline (now + patience.idleMs)) now).now) :=
  h ▸ s.meets_read (by decide) (by omega)

/-- Reading hears the request that the course settles, unless a wait or the whole is too long. -/
theorem heardIn_hear (patience : Patience) {deadline now : Nat} {r : Receiver} (s : Stream)
    (hr : r.isComplete = false) (hd : now ≤ deadline) :
    HeardIn patience deadline r now (s.course now) (hear patience deadline r now s) := by
  -- Each block is taken off the front of the course; only one that settles nothing is followed.
  fun_induction hear patience deadline r now s with
  | case1 r now s t hlate =>
      have hm := meets_block hd hlate
      apply heardIn_none hr
      intro w _ hw hidle
      have := hm w hw
      omega
  | case2 r now s t reason hf =>
      obtain ⟨-, -, hcourse⟩ := meets_block hd hf
      apply heardIn_none hr
      intro w hbytes
      rw [hcourse] at hbytes
      contradiction
  | case3 r now s t hnothing =>
      obtain ⟨-, -, hcourse⟩ := meets_block hd hnothing
      apply heardIn_none hr
      intro w hbytes
      rw [hcourse] at hbytes
      contradiction
  | case4 r now s t bytes ht hb fed fault hfault =>
      obtain ⟨hle, hlater, hcourse⟩ := (meets_block hd ht).of_bytes hb
      have hverdict : fed.verdict = some (.error fault) := by simp [Receiver.Fed.verdict, hfault]
      rw [hcourse]
      exact heardIn_some hr hb hle (by omega) (by omega) hverdict
  | case5 r now s t bytes ht hb fed hfault hcomplete =>
      obtain ⟨hle, hlater, hcourse⟩ := (meets_block hd ht).of_bytes hb
      have hverdict : fed.verdict = some fed.receiver.finish := by
        simp [Receiver.Fed.verdict, hfault, hcomplete]
      rw [hcourse]
      exact heardIn_some hr hb hle (by omega) (by omega) hverdict
  | case6 r now s t bytes ht hb fed hfault hcomplete ih =>
      obtain ⟨hle, hlater, hcourse⟩ := (meets_block hd ht).of_bytes hb
      have hverdict : fed.verdict = none := by simp [Receiver.Fed.verdict, hfault, hcomplete]
      have hlate : t.now ≤ deadline := hlater.trans (Nat.min_le_left ..)
      rw [hcourse]
      exact (ih (by simpa using hcomplete) hlate).of_rest hr hb hle (by omega) hverdict

end Hearing

end FieldCamera.Setup
