/-!
# The signal to stop

The signal may be raised any number of times. A call that is not heard yet is kept, but of several
only the last one: a listener who is behind is told first how many it has missed. That is a call
like any other (`isSome_callAt?`).
-/

namespace FieldCamera

/-- A signal by the times at which it is raised, as one listener meets it who has heard nothing. -/
structure Signal where
  raised : List Nat
  isRaised : raised ≠ []
  deriving DecidableEq, Repr

namespace Signal

/-- What a listener is told. -/
inductive Call where
  | heard
  | missed (count : Nat)
  deriving DecidableEq, Repr

/-- Raised just once. -/
def once (time : Nat) : Signal :=
  ⟨[time], List.cons_ne_nil _ _⟩

/-- A time stands for the signal that is raised just then. -/
instance : Coe Nat Signal := ⟨once⟩

/-- When the signal is raised for the first time. -/
def first (s : Signal) : Nat :=
  s.raised.min s.isRaised

theorem first_mem (s : Signal) : s.first ∈ s.raised :=
  List.min_mem _

theorem first_le {s : Signal} {t : Nat} (h : t ∈ s.raised) : s.first ≤ t :=
  List.min_le_of_mem h

/-- What a listener is told at `now`, if there is anything to tell. -/
def callAt? (now : Nat) (s : Signal) : Option Call :=
  match s.raised.countP (· ≤ now) with
  | 0 => none
  | 1 => some .heard
  | missed + 2 => some (.missed (missed + 1))

/-- However often the signal was raised by then, there is a call. -/
theorem isSome_callAt? {now : Nat} {s : Signal} (h : s.first ≤ now) :
    (s.callAt? now).isSome = true := by
  have hpos : 0 < s.raised.countP (· ≤ now) :=
    List.countP_pos_iff.2 ⟨s.first, s.first_mem, decide_eq_true h⟩
  rw [callAt?]
  split
  · omega
  · rfl
  · rfl

example : callAt? 7 ⟨[5, 9, 3], by decide⟩ = some (.missed 1) := by decide

/-- Listens from `now` to `deadline`: the call and when it comes, if it comes in time. -/
def await? (deadline now : Nat) (s : Signal) : Option (Call × Nat) :=
  let time := max now s.first
  if time ≤ deadline then (s.callAt? time).map (·, time) else none

/-- Waits from `now` to `deadline` unless a call breaks the wait off, and tells when. If a call
comes just at the end, `wins` says whether it still counts. -/
def break? (wins : Nat → Bool) (deadline now : Nat) (s : Signal) : Option Nat :=
  match s.await? deadline now with
  | some (_, time) => if time < deadline ∨ wins time = true then some time else none
  | none => none

theorem await?_eq_some_iff {deadline now time : Nat} {s : Signal} :
    (∃ call, s.await? deadline now = some (call, time)) ↔
      time = max now s.first ∧ time ≤ deadline := by
  rw [await?]
  constructor
  · rintro ⟨call, h⟩
    split at h
    · rename_i hle
      obtain ⟨call', -, heq⟩ := Option.map_eq_some_iff.1 h
      obtain ⟨-, rfl⟩ := Prod.mk.inj heq
      exact ⟨rfl, hle⟩
    · contradiction
  · rintro ⟨rfl, hle⟩
    obtain ⟨call, hcall⟩ := Option.isSome_iff_exists.1
      (isSome_callAt? (Nat.le_max_right now s.first))
    exact ⟨call, by simp [hle, hcall]⟩

theorem eq_of_break?_eq_some {wins : Nat → Bool} {deadline now time : Nat} {s : Signal}
    (h : s.break? wins deadline now = some time) :
    time = max now s.first ∧ time ≤ deadline := by
  rw [break?] at h
  split at h
  · rename_i call t hcall
    split at h
    · obtain rfl := Option.some.inj h
      exact await?_eq_some_iff.1 ⟨call, hcall⟩
    · contradiction
  · contradiction

/-- A wait is not broken off just where no call comes before its end. -/
theorem le_first_of_break?_eq_none {wins : Nat → Bool} {deadline now : Nat} {s : Signal}
    (hnow : now < deadline) (h : s.break? wins deadline now = none) : deadline ≤ s.first := by
  apply Nat.le_of_not_lt
  intro hlt
  obtain ⟨call, hcall⟩ := await?_eq_some_iff.2
    ⟨rfl, Nat.max_le.2 ⟨Nat.le_of_lt hnow, Nat.le_of_lt hlt⟩⟩
  rw [break?, hcall] at h
  dsimp only at h
  rw [if_pos (.inl (Nat.max_lt.2 ⟨hnow, hlt⟩))] at h
  contradiction

end Signal

end FieldCamera
