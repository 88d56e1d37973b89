import FieldCamera.Text.Cut
import Mathlib.Logic.Basic
/-!
# Where a delimiter is found

A delimiter whose first element stands nowhere else in it cannot begin within itself. So behind
elements that do not hold it, it is found where it was put, even if they end in a part of it
(`cutText_append`). The pieces of a text are the only ones that a separator joins to it
(`pieces_eq_iff`).
-/

namespace FieldCamera.Text

variable {α : Type} [BEq α] [LawfulBEq α]

/-- The two sides and the delimiter between them are the whole. -/
theorem eq_of_cutText_eq_some {sep xs l r : List α} (h : cutText sep xs = some (l, r)) :
    xs = l ++ (sep ++ r) := by
  induction xs generalizing l with
  | nil =>
      rw [cutText] at h
      split at h
      · rename_i hempty
        obtain ⟨rfl, rfl⟩ := Prod.mk.inj (Option.some.inj h)
        rw [List.isEmpty_iff.1 hempty]
        rfl
      · contradiction
  | cons x xs ih =>
      rw [cutText] at h
      split at h
      · rename_i hprefix
        obtain ⟨rfl, rfl⟩ := Prod.mk.inj (Option.some.inj h)
        obtain ⟨t, ht⟩ := List.isPrefixOf_iff_prefix.1 hprefix
        rw [← ht, List.drop_left, List.nil_append]
      · obtain ⟨⟨l', r'⟩, hcut, heq⟩ := Option.map_eq_some_iff.1 h
        obtain ⟨rfl, rfl⟩ := Prod.mk.inj heq
        rw [ih hcut]
        rfl

theorem length_cutText_lt {sep xs l r : List α} (hsep : sep ≠ [])
    (h : cutText sep xs = some (l, r)) : r.length < xs.length := by
  have := List.length_pos_iff.2 hsep
  rw [eq_of_cutText_eq_some h, List.length_append, List.length_append]
  omega

theorem cutText_self (sep r : List α) (hsep : sep ≠ []) :
    cutText sep (sep ++ r) = some ([], r) := by
  cases sep with
  | nil => contradiction
  | cons x s =>
      have hprefix : (x :: s).isPrefixOf (x :: (s ++ r)) = true :=
        List.isPrefixOf_iff_prefix.2 ⟨r, rfl⟩
      rw [List.cons_append, cutText, if_pos hprefix, ← List.cons_append, List.drop_left]

/-- Elements of which none is the first of a delimiter are passed over. -/
theorem cutText_append_of_notMem {x : α} {l : List α} (h : x ∉ l) (s rest : List α) :
    cutText (x :: s) (l ++ rest) =
      (cutText (x :: s) rest).map fun r => (l ++ r.1, r.2) := by
  induction l with
  | nil => simp
  | cons y l ih =>
      rw [List.mem_cons, not_or] at h
      have hprefix : ¬(x :: s).isPrefixOf (y :: (l ++ rest)) = true := by
        rw [List.isPrefixOf_iff_prefix]
        rintro ⟨t, ht⟩
        exact h.1 (List.cons.inj ht).1
      rw [List.cons_append, cutText, if_neg hprefix, ih h.2, Option.map_map]
      rfl

/-- Any delimiter is found behind elements of which none is its first. -/
theorem cutText_append_self {x : α} {l : List α} (h : x ∉ l) (s r : List α) :
    cutText (x :: s) (l ++ (x :: s ++ r)) = some (l, r) := by
  rw [cutText_append_of_notMem h, cutText_self (x :: s) r (by simp), Option.map_some,
    List.append_nil]

theorem cutText_eq_none_of_notMem {x : α} {l : List α} (h : x ∉ l) (s : List α) :
    cutText (x :: s) l = none := by
  have hpassed := cutText_append_of_notMem h s []
  rwa [List.append_nil] at hpassed

/-- A delimiter whose first element stands nowhere else in it is found where it was put, behind
elements that do not hold it. -/
theorem cutText_append {x : α} {s l : List α} (hx : x ∉ s) (hl : ¬x :: s <:+: l)
    (r : List α) : cutText (x :: s) (l ++ (x :: s ++ r)) = some (l, r) := by
  induction l with
  | nil => exact cutText_self (x :: s) r (by simp)
  | cons y l ih =>
      have htail : ¬x :: s <:+: l := fun h => hl (h.trans (List.suffix_cons y l).isInfix)
      -- An earlier occurrence would end before the delimiter, or hold its first element again.
      have hprefix : ¬(x :: s).isPrefixOf (y :: (l ++ (x :: s ++ r))) = true := by
        rw [List.isPrefixOf_iff_prefix]
        rintro ⟨t, ht⟩
        obtain ⟨rfl, heq⟩ := List.cons.inj ht
        obtain ⟨within, rfl, -⟩ | ⟨beyond, rfl, hbeyond⟩ := List.append_eq_append_iff.1 heq
        · exact hl (List.prefix_append (x :: s) within).isInfix
        · cases beyond with
          | nil =>
              rw [List.append_nil] at hl
              exact hl (List.infix_refl _)
          | cons z beyond =>
              obtain ⟨rfl, -⟩ := List.cons.inj hbeyond
              exact hx (List.mem_append_right l List.mem_cons_self)
      rw [List.cons_append, cutText, if_neg hprefix, ih htail, Option.map_some]

/-- The first delimiter that is found has none in front of it. -/
theorem not_infix_of_cutText_eq_some {sep xs l r : List α} (hsep : sep ≠ [])
    (h : cutText sep xs = some (l, r)) : ¬sep <:+: l := by
  induction xs generalizing l with
  | nil => simp [cutText, hsep] at h
  | cons x xs ih =>
      rw [cutText] at h
      split at h
      · obtain ⟨rfl, -⟩ := Prod.mk.inj (Option.some.inj h)
        rwa [List.infix_nil]
      · rename_i hprefix
        obtain ⟨⟨l', r'⟩, hcut, heq⟩ := Option.map_eq_some_iff.1 h
        obtain ⟨rfl, rfl⟩ := Prod.mk.inj heq
        rw [eq_of_cutText_eq_some hcut, List.isPrefixOf_iff_prefix] at hprefix
        rw [List.infix_cons_iff, not_or]
        exact ⟨fun hl => hprefix (hl.trans (List.prefix_append (x :: l') _)), ih hcut⟩

theorem cutText_eq_none_iff {sep xs : List α} : cutText sep xs = none ↔ ¬sep <:+: xs := by
  induction xs with
  | nil => simp [cutText]
  | cons x xs ih =>
      rw [cutText, List.infix_cons_iff, not_or, ← ih, ← List.isPrefixOf_iff_prefix]
      split
      · rename_i hfront
        simp [hfront]
      · rename_i hfront
        simp [hfront]

/-- What does not hold the first element of a delimiter adds no occurrence in front. -/
theorem infix_append_left_iff {x : α} {s l xs : List α} (h : x ∉ l) :
    x :: s <:+: l ++ xs ↔ x :: s <:+: xs := by
  rw [← not_iff_not, ← cutText_eq_none_iff, ← cutText_eq_none_iff, cutText_append_of_notMem h,
    Option.map_eq_none_iff]

/-- What does not hold the last element of a delimiter adds no occurrence behind. -/
theorem infix_append_right_iff {x : α} {s r xs : List α} (h : x ∉ r) :
    s ++ [x] <:+: xs ++ r ↔ s ++ [x] <:+: xs :=
  calc s ++ [x] <:+: xs ++ r
    _ ↔ x :: s.reverse <:+: r.reverse ++ xs.reverse := List.reverse_infix.symm.trans (by simp)
    _ ↔ x :: s.reverse <:+: xs.reverse := infix_append_left_iff (mt List.mem_reverse.1 h)
    _ ↔ s ++ [x] <:+: xs := Iff.trans (by simp) List.reverse_infix

theorem cutLast_eq_none_iff {sep : α} {xs : List α} : cutLast sep xs = none ↔ sep ∉ xs := by
  induction xs with
  | nil => exact iff_of_true rfl List.not_mem_nil
  | cons x xs ih =>
      rw [cutLast, List.mem_cons, not_or, ← ih]
      cases cutLast sep xs with
      | some r => simp
      | none =>
          have hside : sep = x ↔ x = sep := eq_comm
          simp [hside]

theorem cutLast_append {sep : α} {r : List α} (h : sep ∉ r) (l : List α) :
    cutLast sep (l ++ sep :: r) = some (l, r) := by
  induction l with
  | nil => simp [cutLast, cutLast_eq_none_iff.2 h]
  | cons x l ih => rw [List.cons_append, cutLast, ih]

/-- Behind the last separator there is no other. -/
theorem cutLast_eq_some_iff {sep : α} {xs l r : List α} :
    cutLast sep xs = some (l, r) ↔ xs = l ++ sep :: r ∧ sep ∉ r := by
  constructor
  · intro h
    induction xs generalizing l with
    | nil => simp [cutLast] at h
    | cons x xs ih =>
        rw [cutLast] at h
        cases hcut : cutLast sep xs with
        | some halves =>
            rw [hcut] at h
            obtain ⟨rfl, rfl⟩ := Prod.mk.inj (Option.some.inj h)
            obtain ⟨hxs, hlast⟩ := ih hcut
            exact ⟨congrArg (x :: ·) hxs, hlast⟩
        | none =>
            obtain ⟨hx, rfl, rfl⟩ : x = sep ∧ [] = l ∧ xs = r := by simpa [hcut] using h
            exact ⟨congrArg (· :: xs) hx, cutLast_eq_none_iff.1 hcut⟩
  · rintro ⟨rfl, h⟩
    exact cutLast_append h l

@[simp] theorem dropStart?_append (start xs : List α) :
    dropStart? start (start ++ xs) = some xs := by
  have hprefix : start.isPrefixOf (start ++ xs) = true :=
    List.isPrefixOf_iff_prefix.2 (List.prefix_append start xs)
  rw [dropStart?, if_pos hprefix, List.drop_left]

theorem dropStart?_eq_some_iff {start xs rest : List α} :
    dropStart? start xs = some rest ↔ xs = start ++ rest := by
  constructor
  · intro h
    rw [dropStart?] at h
    split at h
    · rename_i hprefix
      obtain ⟨t, rfl⟩ := List.isPrefixOf_iff_prefix.1 hprefix
      rw [List.drop_left] at h
      rw [Option.some.inj h]
    · contradiction
  · rintro rfl
    exact dropStart?_append start rest

omit [LawfulBEq α] in
theorem before_eq_takeWhile (sep : α) (xs : List α) :
    before sep xs = xs.takeWhile fun x => !(x == sep) := by
  induction xs with
  | nil => rfl
  | cons x xs ih =>
      rw [before] at ih ⊢
      cases hx : x == sep with
      | true => simp [cut, hx]
      | false =>
          rw [List.takeWhile_cons_of_pos (by simp [hx]), ← ih, cut, hx]
          cases cut sep xs <;> rfl

omit [LawfulBEq α] in
theorem pieces_eq_splitOn (sep : α) (xs : List α) : pieces sep xs = xs.splitOn sep := by
  induction xs with
  | nil => rw [List.splitOn_nil, pieces]
  | cons x xs ih =>
      rw [pieces, List.splitOn_cons_eq_if_modifyHead, ih]
      split
      · rfl
      · cases h : xs.splitOn sep with
        | nil => exact absurd h (List.splitOn_ne_nil sep xs)
        | cons piece more => rfl

theorem notMem_of_mem_pieces {sep : α} {xs piece : List α} (h : piece ∈ pieces sep xs) :
    sep ∉ piece := by
  induction xs generalizing piece with
  | nil =>
      rw [pieces, List.mem_singleton] at h
      rw [h]
      exact List.not_mem_nil
  | cons x xs ih =>
      rw [pieces] at h
      split at h
      · obtain rfl | hmem := List.mem_cons.1 h
        · exact List.not_mem_nil
        · exact ih hmem
      · rename_i hx
        rw [beq_iff_eq] at hx
        split at h
        · rename_i hnone
          rw [pieces_eq_splitOn] at hnone
          exact absurd hnone (List.splitOn_ne_nil sep xs)
        · rename_i first more hpieces
          rw [hpieces] at ih
          obtain rfl | hmem := List.mem_cons.1 h
          · exact List.not_mem_cons_of_ne_of_not_mem (Ne.symm hx) (ih List.mem_cons_self)
          · exact ih (List.mem_cons_of_mem first hmem)

theorem pieces_eq_iff {sep : α} {xs : List α} {ps : List (List α)} :
    pieces sep xs = ps ↔ ps ≠ [] ∧ (∀ p ∈ ps, sep ∉ p) ∧ xs = [sep].intercalate ps := by
  constructor
  · rintro rfl
    refine ⟨?_, fun _ => notMem_of_mem_pieces, ?_⟩
    · rw [pieces_eq_splitOn]
      exact List.splitOn_ne_nil sep xs
    · rw [pieces_eq_splitOn, List.intercalate_splitOn]
  · rintro ⟨hne, hfree, rfl⟩
    rw [pieces_eq_splitOn, List.splitOn_intercalate sep hfree hne]

end FieldCamera.Text
