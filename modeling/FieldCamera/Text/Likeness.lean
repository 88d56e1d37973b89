/-!
# How alike two words are

Two letters of two words are partners if they are equal and not farther apart than half the longer
word less one. The likeness of two words is the mean of three shares: of the letters in either word
that have a partner, and of the partners that come in the same order.
-/

namespace FieldCamera.Text

/-- The letters of the first word that have a partner, each with its partner's place. A letter takes
the first partner that is left. -/
def partners (a b : List Char) : List (Char × Nat) :=
  let reach := max a.length b.length / 2 - 1
  a.zipIdx.foldl (fun met (c, i) =>
    let isFree (j : Nat) := b[j]? == some c && !met.any (·.2 == j)
    let near := (List.range b.length).filter fun j => i ≤ j + reach && j ≤ i + reach
    match near.find? isFree with
    | some j => met ++ [(c, j)]
    | none => met) []

/-- How many pairs of partners are out of order. -/
def crossings (met : List (Char × Nat)) (b : List Char) : Nat :=
  let inOrder := (b.zipIdx.filter fun (_, j) => met.any (·.2 == j)).map (·.1)
  ((met.map (·.1)).zip inOrder).countP (fun (c, d) => c != d) / 2

/-- The likeness of two words, from zero to one. -/
def likeness (a b : String) : Float :=
  let met := partners a.toList b.toList
  let count := met.length
  if count = 0 then 0
  else
    (count.toFloat / a.length.toFloat + count.toFloat / b.length.toFloat +
      (count - crossings met b.toList).toFloat / count.toFloat) / 3

/-- The words that could have been meant by another one, the likeliest at the end. -/
def similar (word : String) (candidates : List String) : List String :=
  (candidates.filter fun c => 0.7 < likeness word c).mergeSort fun c d =>
    likeness word c ≤ likeness word d

end FieldCamera.Text
