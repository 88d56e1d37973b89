/-!
# Cutting text at a separator

`cut` divides at the first occurrence of a separator and `cutLast` at the last one; `pieces`
divides at every one. The separator itself belongs to neither side, and putting it back restores
the text (`cut_eq_some_iff`).
-/

namespace FieldCamera.Text

variable {α : Type} [BEq α]

/-- What stands before and after the first `sep`, or `none` without a `sep`. -/
def cut (sep : α) : List α → Option (List α × List α)
  | [] => none
  | x :: xs =>
    if x == sep then some ([], xs)
    else (cut sep xs).map fun r => (x :: r.1, r.2)

/-- What stands before and after the last `sep`. -/
def cutLast (sep : α) : List α → Option (List α × List α)
  | [] => none
  | x :: xs =>
    match cutLast sep xs with
    | some r => some (x :: r.1, r.2)
    | none => if x == sep then some ([], xs) else none

/-- The text before the first `sep`, all of it without one. -/
def before (sep : α) (xs : List α) : List α :=
  match cut sep xs with
  | some r => r.1
  | none => xs

/-- The text after the first `sep`, empty without one. -/
def after (sep : α) (xs : List α) : List α :=
  match cut sep xs with
  | some r => r.2
  | none => []

/-- The stretches between the separators, one more than there are separators. -/
def pieces (sep : α) : List α → List (List α)
  | [] => [[]]
  | x :: xs =>
    if x == sep then [] :: pieces sep xs
    else
      match pieces sep xs with
      | [] => [[x]]
      | p :: ps => (x :: p) :: ps

/-- What stands before and after the first occurrence of the text `sep`. -/
def cutText (sep : List α) : List α → Option (List α × List α)
  | [] => if sep.isEmpty then some ([], []) else none
  | x :: xs =>
    if sep.isPrefixOf (x :: xs) then some ([], (x :: xs).drop sep.length)
    else (cutText sep xs).map fun r => (x :: r.1, r.2)

/-- The text after `start`, if it begins with it. -/
def dropStart? (start : List α) (xs : List α) : Option (List α) :=
  if start.isPrefixOf xs then some (xs.drop start.length) else none

section Laws

variable [LawfulBEq α]

theorem cut_eq_some_iff {sep : α} {xs l r : List α} :
    cut sep xs = some (l, r) ↔ xs = l ++ sep :: r ∧ sep ∉ l := by
  induction xs generalizing l with
  | nil => simp [cut]
  | cons x xs ih =>
    by_cases hx : x = sep
    · subst hx
      cases l with
      | nil => simp [cut]
      | cons y l =>
        have : x = y → xs = l ++ x :: r → ¬x = y → x ∈ l := fun h _ h' => absurd h h'
        simpa [cut] using this
    · cases l with
      | nil => simp [cut, hx]
      | cons y l =>
        simp only [cut, beq_iff_eq, hx, if_false, Option.map_eq_some_iff, Prod.mk.injEq,
          List.cons.injEq, List.cons_append, List.mem_cons, not_or]
        constructor
        · rintro ⟨⟨p, q⟩, hp, ⟨rfl, rfl⟩, rfl⟩
          obtain ⟨h₁, h₂⟩ := ih.1 hp
          exact ⟨⟨rfl, h₁⟩, fun h => hx h.symm, h₂⟩
        · rintro ⟨⟨rfl, h₁⟩, _, h₂⟩
          exact ⟨(l, r), ih.2 ⟨h₁, h₂⟩, ⟨rfl, rfl⟩, rfl⟩

theorem cut_eq_none_iff {sep : α} {xs : List α} : cut sep xs = none ↔ sep ∉ xs := by
  induction xs with
  | nil => simp [cut]
  | cons x xs ih =>
    by_cases hx : x = sep
    · simp [cut, hx]
    · simp [cut, hx, ih, Ne.symm hx]

end Laws

end FieldCamera.Text
