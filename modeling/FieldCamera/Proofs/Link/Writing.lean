import FieldCamera.Link.Stream
/-!
# Writing to a stream

Bytes are written in pieces. Each write offers what is left of the first piece that has not been
passed on, and the first write or flush that breaks is the last (`Passage`). So the bytes that are
passed on are a beginning of the pieces, in their order (`Passage.isPrefix`), and every write
offers bytes of one piece only (`Passage.offers`).
-/

namespace FieldCamera.Link

/-- The bytes that an act passed on. -/
def Act.passed : Act → List UInt8
  | write offered (.done accepted) => offered.take accepted
  | _ => []

/-- Whether an act failed, was given up, or was a write that took nothing. -/
def Act.Breaks : Act → Prop
  | write _ (.done accepted) => accepted = 0
  | flush (.done _) => False
  | _ => True

@[simp] theorem Act.breaks_flush {outcome : Outcome Unit} :
    (flush outcome).Breaks ↔ outcome ≠ .done () := by
  cases outcome <;> simp [Breaks]

/-- The bytes that acts passed on, in their order. -/
def passed (acts : List Act) : List UInt8 :=
  acts.flatMap Act.passed

@[simp] theorem passed_nil : passed [] = [] := rfl

@[simp] theorem passed_cons (a : Act) (acts : List Act) :
    passed (a :: acts) = a.passed ++ passed acts := rfl

@[simp] theorem passed_append (acts more : List Act) :
    passed (acts ++ more) = passed acts ++ passed more := by
  simp [passed]

@[simp] theorem Act.passed_flush (outcome : Outcome Unit) : (Act.flush outcome).passed = [] := rfl

/-- Acts done one after another from `now` on. An act that starts at `t` may last until `due t`. -/
inductive Performs (due : Nat → Nat) : Stream → Nat → List Act → Stream → Nat → Prop
  | nil (s now) : Performs due s now [] s now
  | write {s now acts s' now'} (data : List UInt8)
      (tail : Performs due (s.write data (due now) now).state (s.write data (due now) now).now
        acts s' now') :
      Performs due s now (.write data (s.write data (due now) now).outcome :: acts) s' now'
  | flush {s now acts s' now'}
      (tail : Performs due (s.flush (due now) now).state (s.flush (due now) now).now acts s' now') :
      Performs due s now (.flush (s.flush (due now) now).outcome :: acts) s' now'

namespace Stream

@[simp] theorem acts_write (data : List UInt8) (deadline now : Nat) (s : Stream) :
    (s.write data deadline now).state.acts =
      .write data (s.write data deadline now).outcome :: s.acts := by
  unfold write
  dsimp only
  split <;> rfl

@[simp] theorem acts_flush (deadline now : Nat) (s : Stream) :
    (s.flush deadline now).state.acts = .flush (s.flush deadline now).outcome :: s.acts := by
  unfold flush
  dsimp only
  split <;> rfl

/-- No write takes more than it is offered. -/
theorem accepted_le {data : List UInt8} {deadline now count : Nat} {s : Stream}
    (h : (s.write data deadline now).outcome = .done count) : count ≤ data.length := by
  unfold write at h
  dsimp only at h
  split at h
  · obtain rfl := Outcome.done.inj h
    exact Nat.min_le_left ..
  · rename_i outcome later hne heq
    simp_all

/-- The writing side of a stream: the same stream, with nothing on it to read. -/
def outlet (s : Stream) : Stream :=
  { s with arrivals := [], pausedSince := none, staysOpen := false }

@[simp] theorem outlet_read (cap deadline now : Nat) (s : Stream) :
    (s.read cap deadline now).state.outlet = s.outlet := rfl

@[simp] theorem acts_outlet (s : Stream) : s.outlet.acts = s.acts := rfl

/-- A write has to do with the writing side only. -/
theorem write_outlet (data : List UInt8) (deadline now : Nat) (s : Stream) :
    s.outlet.write data deadline now =
      ⟨(s.write data deadline now).outcome, (s.write data deadline now).now,
        (s.write data deadline now).state.outlet⟩ := by
  have huptake : s.outlet.writeUptake data.length = s.writeUptake data.length := rfl
  unfold write
  rw [huptake]
  dsimp only
  split <;> rfl

theorem flush_outlet (deadline now : Nat) (s : Stream) :
    s.outlet.flush deadline now =
      ⟨(s.flush deadline now).outcome, (s.flush deadline now).now,
        (s.flush deadline now).state.outlet⟩ := by
  have huptake : s.outlet.flushUptake = s.flushUptake := rfl
  unfold flush
  rw [huptake]
  dsimp only
  split <;> rfl

end Stream

theorem written_eq_passed (s : Stream) : s.written = passed s.acts.reverse := by
  have hact : ∀ a : Act, (a.answered?.map Write.passed).getD [] = a.passed := by
    intro a
    cases a with
    | write offered outcome => cases outcome <;> rfl
    | flush outcome => rfl
  suffices h : ∀ acts : List Act,
      (acts.filterMap Act.answered?).flatMap Write.passed = passed acts by
    rw [Stream.written, Stream.writes, ← List.filterMap_reverse, h]
  intro acts
  induction acts with
  | nil => rfl
  | cons a acts ih =>
      rw [passed_cons, ← ih, ← hact a]
      cases h : a.answered? <;> simp [h]

namespace Performs

variable {due : Nat → Nat} {s s' s'' : Stream} {now now' now'' : Nat} {acts more : List Act}

theorem append (h : Performs due s now acts s' now') (h' : Performs due s' now' more s'' now'') :
    Performs due s now (acts ++ more) s'' now'' := by
  induction h with
  | nil => exact h'
  | write data _ ih => exact .write data (ih h')
  | flush _ ih => exact .flush (ih h')

/-- All that is done on a stream is noted. -/
theorem acts_eq (h : Performs due s now acts s' now') : s'.acts = acts.reverse ++ s.acts := by
  induction h with
  | nil => rfl
  | write data _ ih => simp [ih]
  | flush _ ih => simp [ih]

/-- What is done has to do with the writing side only. -/
theorem outlet (h : Performs due s now acts s' now') :
    Performs due s.outlet now acts s'.outlet now' := by
  induction h with
  | nil => exact .nil _ _
  | @write s now _ _ _ data _ ih =>
      have hwrite := Stream.write_outlet data (due now) now s
      rw [show (s.write data (due now) now).outcome = (s.outlet.write data (due now) now).outcome
        by rw [hwrite]]
      refine .write data ?_
      rwa [hwrite]
  | @flush s now _ _ _ _ ih =>
      have hflush := Stream.flush_outlet (due now) now s
      rw [show (s.flush (due now) now).outcome = (s.outlet.flush (due now) now).outcome
        by rw [hflush]]
      refine .flush ?_
      rwa [hflush]

/-- The bytes that have been written grow by those that are passed on. -/
theorem written_eq (h : Performs due s now acts s' now') :
    s'.written = s.written ++ passed acts := by
  calc
    s'.written = passed (acts.reverse ++ s.acts).reverse := by rw [written_eq_passed, h.acts_eq]
    _ = passed s.acts.reverse ++ passed acts := by simp
    _ = s.written ++ passed acts := by rw [written_eq_passed]

end Performs

/-- What is left of the piece that the byte at `offset` lies in. -/
def pieceFrom : List (List UInt8) → Nat → List UInt8
  | [], _ => []
  | piece :: rest, offset =>
    if offset < piece.length then piece.drop offset else pieceFrom rest (offset - piece.length)

/-- Each write among the acts offers what `offer` gives for the number of bytes passed on before
it, counted from `sent`. -/
def Offers (offer : Nat → List UInt8) : Nat → List Act → Prop
  | _, [] => True
  | sent, .write data outcome :: acts =>
    data = offer sent ∧ Offers offer (sent + (Act.write data outcome).passed.length) acts
  | sent, .flush _ :: acts => Offers offer sent acts

theorem Offers.append {offer : Nat → List UInt8} {sent : Nat} {acts more : List Act}
    (h : Offers offer sent acts) (h' : Offers offer (sent + (passed acts).length) more) :
    Offers offer sent (acts ++ more) := by
  induction acts generalizing sent with
  | nil => exact h'
  | cons a acts ih =>
      cases a with
      | write data outcome =>
          refine ⟨h.1, ih h.2 ?_⟩
          simpa [Nat.add_assoc] using h'
      | flush outcome => exact ih h h'

/-- An offer counted from a later byte. -/
theorem Offers.shift {offer : Nat → List UInt8} {sent skipped : Nat} {acts : List Act}
    (h : Offers (fun k => offer (skipped + k)) sent acts) :
    Offers offer (skipped + sent) acts := by
  induction acts generalizing sent with
  | nil => trivial
  | cons a acts ih =>
      cases a with
      | write data outcome =>
          refine ⟨h.1, ?_⟩
          rw [Nat.add_assoc]
          exact ih h.2
      | flush outcome => exact ih h

/-- Each write of a list of acts, with the bytes that were passed on before it. -/
theorem Offers.at {offer : Nat → List UInt8} {sent : Nat} {before after : List Act}
    {data : List UInt8} {outcome : Outcome Nat}
    (h : Offers offer sent (before ++ .write data outcome :: after)) :
    data = offer (sent + (passed before).length) := by
  induction before generalizing sent with
  | nil => exact h.1
  | cons a before ih =>
      cases a with
      | write offered answer =>
          have := ih h.2
          simpa [Nat.add_assoc] using this
      | flush answer => exact ih h

/-- The writing of pieces up to the last of them or to the first write that breaks; the last
argument tells which. -/
inductive Passage (due : Nat → Nat) :
    List (List UInt8) → Stream → Nat → List Act → Stream → Nat → Bool → Prop
  | nil (s now) : Passage due [] s now [] s now true
  | skip {rest s now acts s' now' whole} (tail : Passage due rest s now acts s' now' whole) :
      Passage due ([] :: rest) s now acts s' now' whole
  | taken {data rest s now acts s' now' whole n} (hdata : data ≠ [])
      (h : (s.write data (due now) now).outcome = .done (n + 1))
      (tail : Passage due (data.drop (n + 1) :: rest) (s.write data (due now) now).state
        (s.write data (due now) now).now acts s' now' whole) :
      Passage due (data :: rest) s now (.write data (.done (n + 1)) :: acts) s' now' whole
  | broken {data rest s now outcome} (hdata : data ≠ [])
      (h : (s.write data (due now) now).outcome = outcome) (hb : (Act.write data outcome).Breaks) :
      Passage due (data :: rest) s now [.write data outcome] (s.write data (due now) now).state
        (s.write data (due now) now).now false

theorem Act.passed_of_breaks {data : List UInt8} {outcome : Outcome Nat}
    (h : (write data outcome).Breaks) : (write data outcome).passed = [] := by
  cases outcome with
  | done accepted =>
      obtain rfl : accepted = 0 := h
      rfl
  | failed reason => rfl
  | late => rfl

theorem pieceFrom_nil_cons (rest : List (List UInt8)) :
    pieceFrom ([] :: rest) = pieceFrom rest := by
  funext offset
  simp [pieceFrom]

theorem pieceFrom_singleton (data : List UInt8) : pieceFrom [data] = (data.drop ·) := by
  funext offset
  by_cases h : offset < data.length
  · simp [pieceFrom, h]
  · simp [pieceFrom, h, List.drop_eq_nil_of_le (Nat.le_of_not_lt h)]

/-- After some bytes of what is left of a piece, the rest of it is left. -/
theorem pieceFrom_add {pieces : List (List UInt8)} {offset n : Nat}
    (h : n < (pieceFrom pieces offset).length) :
    pieceFrom pieces (offset + n) = (pieceFrom pieces offset).drop n := by
  induction pieces generalizing offset with
  | nil => simp [pieceFrom] at h
  | cons piece rest ih =>
      rw [pieceFrom] at h ⊢
      by_cases hoffset : offset < piece.length
      · rw [if_pos hoffset, List.length_drop] at h
        rw [if_pos (by omega), pieceFrom, if_pos hoffset, List.drop_drop]
      · rw [if_neg hoffset] at h
        have hsub : offset + n - piece.length = offset - piece.length + n := by omega
        rw [if_neg (by omega), pieceFrom, if_neg hoffset, hsub, ih h]

theorem pieceFrom_drop {data : List UInt8} {n : Nat} (hn : n ≤ data.length)
    (rest : List (List UInt8)) (offset : Nat) :
    pieceFrom (data.drop n :: rest) offset = pieceFrom (data :: rest) (n + offset) := by
  simp only [pieceFrom, List.length_drop, List.drop_drop]
  by_cases h : n + offset < data.length
  · rw [if_pos (by omega), if_pos h]
  · rw [if_neg (by omega), if_neg h]
    congr 1
    omega

namespace Passage

variable {due : Nat → Nat} {pieces : List (List UInt8)} {s s' : Stream} {now now' : Nat}
  {acts : List Act} {whole : Bool}

theorem performs (h : Passage due pieces s now acts s' now' whole) :
    Performs due s now acts s' now' := by
  induction h with
  | nil => exact .nil _ _
  | skip _ ih => exact ih
  | @taken data _ s now _ _ _ _ _ _ h _ ih =>
      have := Performs.write data ih
      rwa [h] at this
  | broken _ h _ =>
      subst h
      exact .write _ (.nil _ _)

theorem isPrefix (h : Passage due pieces s now acts s' now' whole) :
    passed acts <+: pieces.flatten := by
  induction h with
  | nil => simp
  | skip _ ih => simpa using ih
  | @taken data rest _ _ _ _ _ _ n _ _ _ ih =>
      have hsplit : (data :: rest).flatten =
          data.take (n + 1) ++ (data.drop (n + 1) :: rest).flatten := by
        simp [← List.append_assoc]
      rw [hsplit, passed_cons]
      exact (List.prefix_append_right_inj _).2 ih
  | broken _ _ hb => simp [Act.passed_of_breaks hb]

/-- Behind a passage that was whole, the next pieces follow. -/
theorem append {more : List (List UInt8)} {later : List Act} {s'' : Stream} {now'' : Nat}
    {whole' : Bool} (h : Passage due pieces s now acts s' now' whole) (hwhole : whole = true)
    (h' : Passage due more s' now' later s'' now'' whole') :
    Passage due (pieces ++ more) s now (acts ++ later) s'' now'' whole' := by
  induction h with
  | nil => exact h'
  | skip _ ih => exact .skip (ih hwhole h')
  | taken hdata h _ ih => exact .taken hdata h (ih hwhole h')
  | broken => contradiction

/-- Behind a passage that broke off, the next pieces are not tried. -/
theorem append_of_broken (h : Passage due pieces s now acts s' now' whole)
    (hwhole : whole = false) (more : List (List UInt8)) :
    Passage due (pieces ++ more) s now acts s' now' false := by
  induction h with
  | nil => contradiction
  | skip _ ih => exact .skip (ih hwhole)
  | taken hdata h _ ih => exact .taken hdata h (ih hwhole)
  | broken hdata h hb => exact .broken hdata h hb

/-- All pieces are passed on, or a write breaks. -/
theorem whole_iff (h : Passage due pieces s now acts s' now' whole) :
    whole = true ↔ passed acts = pieces.flatten := by
  induction h with
  | nil => simp
  | skip _ ih => simpa using ih
  | @taken data rest _ _ _ _ _ _ n _ _ _ ih =>
      have hsplit : (data :: rest).flatten =
          data.take (n + 1) ++ (data.drop (n + 1) :: rest).flatten := by
        simp [← List.append_assoc]
      rw [hsplit, passed_cons, ih]
      exact (List.append_cancel_left_eq ..).symm.to_iff
  | broken hdata _ hb => simp [Act.passed_of_breaks hb, hdata]

theorem breaks_iff (h : Passage due pieces s now acts s' now' whole) :
    (∃ a ∈ acts, a.Breaks) ↔ whole = false := by
  induction h with
  | nil => simp
  | skip _ ih => exact ih
  | taken _ _ _ ih => simpa [Act.Breaks] using ih
  | broken _ _ hb => simpa using hb

/-- Nothing is tried after an act that breaks. -/
theorem not_breaks_dropLast (h : Passage due pieces s now acts s' now' whole) :
    ∀ a ∈ acts.dropLast, ¬a.Breaks := by
  induction h with
  | nil => simp
  | skip _ ih => exact ih
  | @taken _ _ _ _ acts _ _ _ _ _ _ _ ih =>
      cases acts with
      | nil => simp
      | cons a acts =>
          rw [List.dropLast_cons_cons]
          exact List.forall_mem_cons.2 ⟨by simp [Act.Breaks], ih⟩
  | broken => simp

theorem flush_notMem (h : Passage due pieces s now acts s' now' whole) (outcome : Outcome Unit) :
    Act.flush outcome ∉ acts := by
  induction h with
  | nil => simp
  | skip _ ih => exact ih
  | taken _ _ _ ih => simpa using ih
  | broken => simp

/-- Every write offers what is left of the piece that the next byte lies in. -/
theorem offers (h : Passage due pieces s now acts s' now' whole) :
    Offers (pieceFrom pieces) 0 acts := by
  induction h with
  | nil => trivial
  | skip _ ih => rwa [pieceFrom_nil_cons]
  | @taken data rest _ _ _ _ _ _ n hdata h _ ih =>
      have hn := Stream.accepted_le h
      refine ⟨by simp [pieceFrom, List.length_pos_iff.2 hdata], ?_⟩
      have hlen : (Act.write data (.done (n + 1))).passed.length = n + 1 := by
        simp only [Act.passed, List.length_take]
        omega
      rw [hlen, Nat.add_comm]
      -- The rest of the passage counts from the bytes that this write has taken.
      apply Offers.shift
      rwa [funext (pieceFrom_drop hn rest)] at ih
  | broken hdata => exact ⟨by simp [pieceFrom, List.length_pos_iff.2 hdata], trivial⟩

end Passage

end FieldCamera.Link
