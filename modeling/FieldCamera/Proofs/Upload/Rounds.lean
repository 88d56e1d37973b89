import FieldCamera.Proofs.Upload.Clock
import Mathlib.Data.List.Chain
/-!
# The timetable of the rounds

A run of rounds is followed by noting each of its posts: when it starts, how long it takes and
whether it succeeds. What is noted is a run with pauses between its rounds that the signal ends
(`run_noted`), and from the two ways in which a run goes on follows its whole timetable
(`Run.timetable`), whatever the posts do and however often the signal is raised. Of a device these
are its posts at their true times (`rounds_keep_timetable`).
-/

namespace FieldCamera.Upload

/-- One post, as it went. -/
structure Round where
  start : Nat
  took : Nat
  good : Bool
  deriving DecidableEq, Repr

namespace Round

def ending (r : Round) : Nat :=
  r.start + r.took

/-- When the pause behind a post is over. -/
def next (interval : Int32) (r : Round) : Nat :=
  r.ending + pauseMs interval

theorem ending_lt_next (interval : Int32) (r : Round) : r.ending < r.next interval :=
  Nat.lt_add_of_pos_right (pauseMs_pos interval)

/-- The configured time counts in milliseconds, with ten at least; no time counts as negative. -/
theorem next_eq (interval : Int32) (r : Round) :
    (r.next interval : Int) = r.ending + max interval.toInt 10 := by
  rw [next, pauseMs]
  omega

end Round

/-- The rounds of a log were made one after another, each on what the one before it has left. What
one round leaves is told by `makes`. -/
def Follows {σ : Type} (makes : Round → σ → σ → Prop) : List Round → σ → σ → Prop
  | [], s, last => last = s
  | r :: rest, s, last => ∃ after, makes r s after ∧ Follows makes rest after last

theorem Follows.imp {σ : Type} {makes makes' : Round → σ → σ → Prop}
    (h : ∀ r s after, makes r s after → makes' r s after) {log : List Round} {s last : σ}
    (hlog : Follows makes log s last) : Follows makes' log s last := by
  induction log generalizing s with
  | nil => exact hlog
  | cons r rest ih =>
      obtain ⟨after, hmakes, hrest⟩ := hlog
      exact ⟨after, h r s after hmakes, ih hrest⟩

/-- What is promised of a run of rounds that starts at `now`. -/
structure Timetable (interval : Int32) (signal : Signal) (now : Nat) (log : List Round)
    (tally : Tally) : Prop where
  /-- The first post starts at once. -/
  starts : log.head?.map Round.start = some now
  /-- Each further one starts just the configured time after the end of the one before, ten
  milliseconds at least, whether that one succeeded or not. -/
  paced : log.IsChain fun prev r => (r.start : Int) = prev.ending + max interval.toInt 10
  /-- Apart from the first, none starts after a call. -/
  none_late : ∀ r ∈ log.tail, ∀ t ∈ signal.raised, r.start ≤ t
  /-- The rounds do not end without a call. -/
  called : ∃ t ∈ signal.raised, t ≤ tally.now
  /-- They end with the last post or in the pause behind it. -/
  ends : ∀ r ∈ log.getLast?, r.ending ≤ tally.now ∧
    (tally.now : Int) ≤ r.ending + max interval.toInt 10
  /-- A call up to the end of a post is kept and ends the rounds with that post. -/
  kept : ∀ before r after, log = before ++ r :: after → ∀ t ∈ signal.raised, t ≤ r.ending →
    after = [] ∧ tally.now = r.ending
  /-- The first call, if it comes in a pause, ends the rounds at once. -/
  broken : ∀ before r after, log = before ++ r :: after → r.ending ≤ signal.first →
    (signal.first : Int) < r.ending + max interval.toInt 10 →
    after = [] ∧ tally.now = signal.first
  posts : tally.posts = log.length
  delivered : tally.delivered = log.countP (·.good)

/-- The rounds that a signal ends: it breaks off the pause behind the last one, or comes at its end,
and has not come before the end of any other pause. -/
inductive Run (interval : Int32) (signal : Signal) : Nat → List Round → Nat → Prop where
  | last {now ended : Nat} {r : Round} (hstart : r.start = now)
      (hended : ended = max r.ending signal.first) (hpause : ended ≤ r.next interval) :
      Run interval signal now [r] ended
  | more {now ended : Nat} {r : Round} {rest : List Round} (hstart : r.start = now)
      (hquiet : r.next interval ≤ signal.first)
      (tail : Run interval signal (r.next interval) rest ended) :
      Run interval signal now (r :: rest) ended

namespace Run

variable {interval : Int32} {signal : Signal} {now ended : Nat} {log : List Round}

theorem head?_start (h : Run interval signal now log ended) :
    log.head?.map Round.start = some now := by
  cases h with
  | last hstart | more hstart => exact congrArg some hstart

theorem paced (h : Run interval signal now log ended) :
    log.IsChain fun prev r => r.start = prev.next interval := by
  induction h with
  | last => exact List.isChain_singleton _
  | @more now ended r rest hstart hquiet tail ih =>
      rw [List.isChain_cons]
      refine ⟨fun later hlater => ?_, ih⟩
      have hhead := tail.head?_start
      rw [hlater] at hhead
      exact Option.some.inj hhead

/-- Of the rounds behind the first none starts after the first call. -/
theorem start_le_first (h : Run interval signal now log ended) :
    ∀ r ∈ log.tail, r.start ≤ signal.first := by
  induction h with
  | last => exact List.forall_mem_nil _
  | @more now ended r rest hstart hquiet tail ih =>
      intro later hlater
      cases tail with
      | last hlast =>
          rw [List.tail_cons, List.mem_singleton] at hlater
          rw [hlater, hlast]
          exact hquiet
      | more hnext =>
          obtain rfl | hmem := List.mem_cons.1 hlater
          · rw [hnext]
            exact hquiet
          · exact ih later hmem

theorem first_le_ended (h : Run interval signal now log ended) : signal.first ≤ ended := by
  induction h with
  | last hstart hended =>
      rw [hended]
      exact Nat.le_max_right _ _
  | more hstart hquiet tail ih => exact ih

/-- The end lies between the end of the last post and the end of the pause behind it. -/
theorem ended_in_pause (h : Run interval signal now log ended) :
    ∀ r ∈ log.getLast?, r.ending ≤ ended ∧ ended ≤ r.next interval := by
  induction h with
  | last hstart hended hpause =>
      intro r hr
      obtain rfl := Option.some.inj hr
      rw [hended] at hpause ⊢
      exact ⟨Nat.le_max_left _ _, hpause⟩
  | more hstart hquiet tail ih =>
      intro later hlater
      cases tail with
      | last | more => exact ih later hlater

/-- A call up to the end of a pause leaves no further round. -/
theorem ended_of_first_lt {r : Round} {before after : List Round}
    (h : Run interval signal now (before ++ r :: after) ended)
    (hcall : signal.first < r.next interval) :
    after = [] ∧ ended = max r.ending signal.first := by
  induction before generalizing now with
  | nil =>
      cases h with
      | last hstart hended => exact ⟨rfl, hended⟩
      | more hstart hquiet => exact absurd hcall (Nat.not_lt.2 hquiet)
  | cons earlier before ih =>
      rw [List.cons_append] at h
      generalize hrest : before ++ r :: after = rest at h
      cases h with
      | last => simp at hrest
      | more hstart hquiet tail =>
          subst hrest
          exact ih tail

theorem timetable {tally : Tally} (h : Run interval signal now log tally.now)
    (hposts : tally.posts = log.length) (hdelivered : tally.delivered = log.countP (·.good)) :
    Timetable interval signal now log tally := by
  constructor
  case starts => exact h.head?_start
  case paced =>
    apply h.paced.imp
    intro prev r hr
    rw [hr, Round.next_eq]
  case none_late =>
    intro r hr t ht
    exact (h.start_le_first r hr).trans (Signal.first_le ht)
  case called => exact ⟨signal.first, signal.first_mem, h.first_le_ended⟩
  case ends =>
    intro r hr
    obtain ⟨hpost, hpause⟩ := h.ended_in_pause r hr
    rw [← r.next_eq]
    exact ⟨hpost, Int.ofNat_le.2 hpause⟩
  case kept =>
    rintro before r after rfl t ht hle
    have hfirst : signal.first ≤ r.ending := (Signal.first_le ht).trans hle
    obtain ⟨hafter, hended⟩ := h.ended_of_first_lt (hfirst.trans_lt (r.ending_lt_next interval))
    exact ⟨hafter, hended.trans (Nat.max_eq_left hfirst)⟩
  case broken =>
    rintro before r after rfl hle hlt
    have hcall : signal.first < r.next interval := by
      have := r.next_eq interval
      omega
    obtain ⟨hafter, hended⟩ := h.ended_of_first_lt hcall
    exact ⟨hafter, hended.trans (Nat.max_eq_right hle)⟩
  case posts => exact hposts
  case delivered => exact hdelivered

end Run

section Rounds

variable {σ : Type} {once : Nat → σ → Bool × Nat × σ} {interval : Int32} {signal : Signal}
  {wins : Nat → Bool} {now took time : Nat} {good : Bool} {s after : σ}

/-- Rounds go on if no call comes in the pause behind a post. -/
theorem round_eq_inl_iff {posts delivered : Nat} {t : Tally} :
    round once interval signal wins ⟨posts, delivered, now⟩ s = (.inl t, after) ↔
      ∃ good took, once now s = (good, took, after) ∧
        signal.break? wins (now + took + pauseMs interval) (now + took) = none ∧
        t = ⟨posts + 1, if good then delivered + 1 else delivered,
          now + took + pauseMs interval⟩ := by
  rcases hpost : once now s with ⟨good, took, s'⟩
  rw [round_eq]
  simp only [hpost, Tally.count, Prod.mk.injEq]
  constructor
  · intro h
    split at h
    · cases h
    · rename_i hquiet
      cases h
      exact ⟨good, took, ⟨rfl, rfl, rfl⟩, hquiet, rfl⟩
  · rintro ⟨good, took, ⟨rfl, rfl, rfl⟩, hquiet, rfl⟩
    simp only [hquiet]

/-- They are over at the time at which a call breaks that pause off. -/
theorem round_eq_inr_iff {posts delivered : Nat} {t : Tally} :
    round once interval signal wins ⟨posts, delivered, now⟩ s = (.inr t, after) ↔
      ∃ good took time, once now s = (good, took, after) ∧
        signal.break? wins (now + took + pauseMs interval) (now + took) = some time ∧
        t = ⟨posts + 1, if good then delivered + 1 else delivered, time⟩ := by
  rcases hpost : once now s with ⟨good, took, s'⟩
  rw [round_eq]
  simp only [hpost, Tally.count, Prod.mk.injEq]
  constructor
  · intro h
    split at h
    · rename_i time hbreak
      cases h
      exact ⟨good, took, time, ⟨rfl, rfl, rfl⟩, hbreak, rfl⟩
    · cases h
  · rintro ⟨good, took, time, ⟨rfl, rfl, rfl⟩, hbreak, rfl⟩
    simp only [hbreak]

theorem rounds_of_inl {posts delivered : Nat} {t : Tally}
    (h : round once interval signal wins ⟨posts, delivered, now⟩ s = (.inl t, after)) :
    rounds once interval signal wins posts delivered now s =
      rounds once interval signal wins t.posts t.delivered t.now after := by
  rw [rounds, h]

theorem rounds_of_inr {posts delivered : Nat} {t : Tally}
    (h : round once interval signal wins ⟨posts, delivered, now⟩ s = (.inr t, after)) :
    rounds once interval signal wins posts delivered now s = (t, after) := by
  rw [rounds, h]

/-- Posts as `once` does and notes how it went. -/
def noted (once : Nat → σ → Bool × Nat × σ) (now : Nat) (s : List Round × σ) :
    Bool × Nat × (List Round × σ) :=
  let (good, took, after) := once now s.2
  (good, took, (s.1 ++ [⟨now, took, good⟩], after))

theorem noted_eq (hpost : once now s = (good, took, after)) (log : List Round) :
    noted once now (log, s) = (good, took, (log ++ [⟨now, took, good⟩], after)) := by
  rw [noted, hpost]

/-- The round is a post as `once` makes it. -/
def Makes (once : Nat → σ → Bool × Nat × σ) (r : Round) (s after : σ) : Prop :=
  once r.start s = (r.good, r.took, after)

/-- Noting changes nothing else, and what is noted is a run that holds each post once. -/
theorem run_noted (once : Nat → σ → Bool × Nat × σ) (interval : Int32) (signal : Signal)
    (wins : Nat → Bool) (posts delivered now : Nat) (s : σ) (log : List Round) :
    ∃ more,
      let t := rounds once interval signal wins posts delivered now s
      rounds (noted once) interval signal wins posts delivered now (log, s) =
        (t.1, (log ++ more, t.2)) ∧
      Run interval signal now more t.1.now ∧
      t.1.posts = posts + more.length ∧ t.1.delivered = delivered + more.countP (·.good) ∧
      Follows (Makes once) more s t.2 := by
  induction posts, delivered, now, s using rounds.induct once interval signal wins
    generalizing log with
  | case1 posts delivered now s t after hround ih =>
      obtain ⟨good, took, hpost, hquiet, rfl⟩ := round_eq_inl_iff.1 hround
      obtain ⟨more, heq, hrun, hposts, hdelivered, hnoted⟩ := ih (log ++ [⟨now, took, good⟩])
      dsimp only at hposts hdelivered
      have hcall := Signal.le_first_of_break?_eq_none
        (Nat.lt_add_of_pos_right (pauseMs_pos interval)) hquiet
      refine ⟨⟨now, took, good⟩ :: more, ?_⟩
      rw [rounds_of_inl hround,
        rounds_of_inl (round_eq_inl_iff.2 ⟨good, took, noted_eq hpost log, hquiet, rfl⟩)]
      refine ⟨?_, .more rfl hcall hrun, ?_, ?_, after, hpost, hnoted⟩
      · rw [heq, List.append_assoc, List.singleton_append]
      · rw [hposts, List.length_cons]
        omega
      · rw [hdelivered, List.countP_cons]
        cases good with
        | true =>
            rw [if_pos rfl, if_pos rfl]
            omega
        | false => rfl
  | case2 posts delivered now s t after hround =>
      obtain ⟨good, took, time, hpost, hbreak, rfl⟩ := round_eq_inr_iff.1 hround
      obtain ⟨hended, hpause⟩ := Signal.eq_of_break?_eq_some hbreak
      refine ⟨[⟨now, took, good⟩], ?_⟩
      rw [rounds_of_inr hround,
        rounds_of_inr (round_eq_inr_iff.2 ⟨good, took, time, noted_eq hpost log, hbreak, rfl⟩)]
      refine ⟨rfl, .last rfl hended hpause, rfl, ?_, after, hpost, rfl⟩
      cases good <;> rfl

/-- The rounds keep their timetable. It tells of all posts, since noting them changes nothing
else. -/
theorem timetable_noted (once : Nat → σ → Bool × Nat × σ) (interval : Int32)
    (signal : Signal) (wins : Nat → Bool) (now : Nat) (s : σ) :
    let noting := rounds (noted once) interval signal wins 0 0 now ([], s)
    rounds once interval signal wins 0 0 now s = (noting.1, noting.2.2) ∧
      Timetable interval signal now noting.2.1 noting.1 ∧
      Follows (Makes once) noting.2.1 s noting.2.2 := by
  obtain ⟨log, heq, hrun, hposts, hdelivered, hnoted⟩ :=
    run_noted once interval signal wins 0 0 now s []
  rw [List.nil_append] at heq
  rw [Nat.zero_add] at hposts hdelivered
  dsimp only at heq ⊢
  rw [heq]
  exact ⟨rfl, hrun.timetable hposts hdelivered, hnoted⟩

end Rounds

/-- The round is a post of a frame: it ends when that ends, and succeeds if that does. -/
def Posts (sender : Sender) (pace : Pace) (stamp : Stamp) (frame : Capture) (url : String)
    (r : Round) (u after : Uplink) : Prop :=
  let p := post sender pace stamp frame url r.start u
  r.ending = p.2.1 ∧ r.good = p.1.isOk ∧ after = p.2.2

theorem posts_of_makes {sender : Sender} {pace : Pace} {stamp : Stamp} {frame : Capture}
    {url : String} {r : Round} {u after : Uplink}
    (h : Makes (posting sender pace stamp frame url) r u after) :
    Posts sender pace stamp frame url r u after := by
  obtain ⟨hgood, htook, hafter⟩ : (post sender pace stamp frame url r.start u).1.isOk = r.good ∧
      (post sender pace stamp frame url r.start u).2.1 - r.start = r.took ∧
      (post sender pace stamp frame url r.start u).2.2 = after := by
    simpa [Makes, posting] using h
  have hle := le_now_post sender pace stamp frame url r.start u
  refine ⟨?_, hgood.symm, hafter.symm⟩
  rw [Round.ending, ← htook, Nat.add_sub_cancel' hle]

/-- The rounds of a device are its posts, at their true times. -/
theorem runRounds_posts (sender : Sender) (pace : Pace) (stamp : Stamp) (frame : Capture)
    (device : Device) (signal : Signal) (wins : Nat → Bool) (now : Nat) (u : Uplink) :
    let run := runRounds sender pace stamp frame device signal now u wins
    ∃ log, Timetable device.captureIntervalMs signal now log run.1 ∧
      Follows (Posts sender pace stamp frame device.uploadUrl) log u run.2 := by
  obtain ⟨heq, htimetable, hnoted⟩ := timetable_noted
    (posting sender pace stamp frame device.uploadUrl) device.captureIntervalMs signal wins now u
  rw [runRounds, heq]
  exact ⟨_, htimetable, hnoted.imp fun _ _ _ => posts_of_makes⟩

/-- The rounds keep their timetable, whatever their posts do. It tells of all posts, since noting
them changes nothing else. The rounds of a device are such rounds, with its interval: its own posts
at their true times, one after another on the same connection. -/
theorem rounds_keep_timetable (signal : Signal) (wins : Nat → Bool) (now : Nat) :
    (∀ {σ : Type} (once : Nat → σ → Bool × Nat × σ) (interval : Int32) (s : σ),
      let noting := rounds (noted once) interval signal wins 0 0 now ([], s)
      rounds once interval signal wins 0 0 now s = (noting.1, noting.2.2) ∧
        Timetable interval signal now noting.2.1 noting.1) ∧
    ∀ (sender : Sender) (pace : Pace) (stamp : Stamp) (frame : Capture) (device : Device)
      (u : Uplink),
      let run := runRounds sender pace stamp frame device signal now u wins
      ∃ log, Timetable device.captureIntervalMs signal now log run.1 ∧
        Follows (Posts sender pace stamp frame device.uploadUrl) log u run.2 := by
  constructor
  · intro σ once interval s
    obtain ⟨heq, htimetable, -⟩ := timetable_noted once interval signal wins now s
    exact ⟨heq, htimetable⟩
  · intro sender pace stamp frame device u
    exact runRounds_posts sender pace stamp frame device signal wins now u

/-- Two posts for want of a frame, and a signal in the pause behind the second. -/
example : (runRounds ⟨7, 0.5⟩ {} ⟨"f.jpg", "b"⟩ (.error .empty) { captureIntervalMs := 20 }
    (25 : Nat) 0 { dials := [] }).1 = ⟨2, 0, 25⟩ := by
  decide +kernel

end FieldCamera.Upload
