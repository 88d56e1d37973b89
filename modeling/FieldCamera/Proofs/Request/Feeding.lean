import FieldCamera.Request.Receiver
/-!
# Feeding a receiver in pieces

Bytes fed in two pieces are bytes fed at once: as long as nothing is settled by the first piece,
the second is fed to the receiver that the first has left (`feed_append_of_verdict_none`), and else
it is not looked at (`feed_append_of_verdict`). So a stream may be cut into any pieces, from any
receiver on, also one that has refused a byte before (`feed_cut_anywhere`).
-/

namespace FieldCamera.Request.Receiver

/-- What bytes have settled, if anything: the request, or the bound that was broken. -/
def Fed.verdict (fed : Fed) : Option (Except Fault Request) :=
  match fed.fault with
  | some fault => some (.error fault)
  | none => if fed.receiver.isComplete then some fed.receiver.finish else none

/-- What two runs of bytes led to, of which the second was fed where the first had ended. -/
def Fed.andThen (fed more : Fed) : Fed :=
  ⟨more.receiver, fed.consumed + more.consumed, more.fault⟩

@[simp] theorem Fed.verdict_andThen (fed more : Fed) :
    (fed.andThen more).verdict = more.verdict := rfl

variable {limits : Limits} {r : Receiver}

theorem feed_of_isComplete (h : r.isComplete = true) (bs : List UInt8) :
    feed limits r bs = ⟨r, 0, none⟩ := by
  cases bs <;> simp [feed, h]

theorem feed_cons_of_none {r' : Receiver} {b : UInt8} (hopen : r.isComplete = false)
    (h : receive limits r b = (r', none)) (bs : List UInt8) :
    feed limits r (b :: bs) = (⟨r', 1, none⟩ : Fed).andThen (feed limits r' bs) := by
  simp [feed, hopen, h, Fed.andThen, Nat.add_comm]

theorem feed_cons_of_fault {r' : Receiver} {b : UInt8} {fault : Fault}
    (hopen : r.isComplete = false) (h : receive limits r b = (r', some fault))
    (bs : List UInt8) : feed limits r (b :: bs) = ⟨r', 1, some fault⟩ := by
  simp [feed, hopen, h]

/-- Without bytes nothing is settled that was not settled before. -/
theorem verdict_feed_nil (h : r.isComplete = false) : (feed limits r []).verdict = none := by
  simp [feed, Fed.verdict, h]

theorem feed_append_of_verdict {bs : List UInt8} (h : (feed limits r bs).verdict.isSome)
    (more : List UInt8) : feed limits r (bs ++ more) = feed limits r bs := by
  induction bs generalizing r with
  | nil =>
      cases hr : r.isComplete with
      | true => rw [feed_of_isComplete hr, feed_of_isComplete hr]
      | false => simp [verdict_feed_nil hr] at h
  | cons b bs ih =>
      rw [List.cons_append, feed, feed]
      split
      · rfl
      · rename_i hr
        rw [feed, if_neg hr] at h
        split
        · rfl
        · rename_i r' heq
          rw [heq] at h
          simp only
          rw [ih h]

theorem feed_append_of_verdict_none {bs : List UInt8} (h : (feed limits r bs).verdict = none)
    (more : List UInt8) :
    feed limits r (bs ++ more) =
      (feed limits r bs).andThen (feed limits (feed limits r bs).receiver more) := by
  induction bs generalizing r with
  | nil => simp [feed, Fed.andThen]
  | cons b bs ih =>
      rw [feed] at h
      split at h
      · rename_i hr
        simp [Fed.verdict, hr] at h
      · rename_i hr
        split at h
        · simp [Fed.verdict] at h
        · rename_i r' heq
          have := ih h
          rw [List.cons_append, feed, if_neg hr, heq, feed, if_neg hr, heq]
          simp only
          rw [this]
          simp only [Fed.andThen]
          congr 1
          omega

/-- A byte that is refused is the last that is looked at. -/
theorem feed_append_of_fault {bs : List UInt8} {fault : Fault}
    (h : (feed limits r bs).fault = some fault) (more : List UInt8) :
    feed limits r (bs ++ more) = feed limits r bs :=
  feed_append_of_verdict (by simp [Fed.verdict, h]) more

/-- As long as no byte is refused, feeding goes on where it has ended; a receiver that is complete
takes nothing more. -/
theorem feed_append_of_fault_none {bs : List UInt8} (h : (feed limits r bs).fault = none)
    (more : List UInt8) :
    feed limits r (bs ++ more) =
      (feed limits r bs).andThen (feed limits (feed limits r bs).receiver more) := by
  cases hcomplete : (feed limits r bs).receiver.isComplete with
  | true =>
      have hsettled : (feed limits r bs).verdict.isSome := by simp [Fed.verdict, h, hcomplete]
      rw [feed_append_of_verdict hsettled, feed_of_isComplete hcomplete]
      simp [Fed.andThen, ← h]
  | false => exact feed_append_of_verdict_none (by simp [Fed.verdict, h, hcomplete]) more

/-- No more is taken than is fed. -/
theorem consumed_feed_le (limits : Limits) (r : Receiver) (bs : List UInt8) :
    (feed limits r bs).consumed ≤ bs.length := by
  induction bs generalizing r with
  | nil => exact Nat.le_refl 0
  | cons b bs ih =>
      rw [feed]
      split
      · exact Nat.zero_le _
      · split
        · exact Nat.succ_le_succ (Nat.zero_le _)
        · exact Nat.succ_le_succ (ih _)

/-- Where no byte is refused, bytes are left over only behind the end of the request. -/
theorem isComplete_of_consumed_lt {bs : List UInt8} (hfault : (feed limits r bs).fault = none)
    (h : (feed limits r bs).consumed < bs.length) :
    (feed limits r bs).receiver.isComplete = true := by
  induction bs generalizing r with
  | nil => exact absurd h (Nat.lt_irrefl 0)
  | cons b bs ih =>
      rw [feed] at hfault h ⊢
      split at h
      · rename_i hr
        rwa [if_pos hr]
      · rename_i hr
        rw [if_neg hr] at hfault ⊢
        cases hreceive : receive limits r b with
        | mk r' fault =>
            cases fault with
            | some fault => simp [hreceive] at hfault
            | none =>
                simp only [hreceive] at hfault h ⊢
                exact ih hfault (Nat.lt_of_succ_lt_succ h)

/-- Of a body all bytes are taken at once, up to its end. -/
theorem feed_body (limits : Limits) (first : FirstLine) (declared : Nat) (received : List UInt8)
    {missing : Nat} (h : 0 < missing) (bs : List UInt8) :
    feed limits (body first declared received missing) bs =
      if bs.length < missing then
        ⟨body first declared (bs.reverse ++ received) (missing - bs.length), bs.length, none⟩
      else ⟨dispatch first declared (received.reverse ++ bs.take missing), missing, none⟩ := by
  induction bs generalizing received missing with
  | nil => simp [feed, h]
  | cons b bs ih =>
      have hopen : ¬(body first declared received missing).isComplete = true := by
        simp [isComplete, phase]
      rw [feed, if_neg hopen, receive]
      by_cases hlast : missing ≤ 1
      · obtain rfl : missing = 1 := by omega
        simp [feed_of_isComplete, isComplete, phase]
      · simp only [if_neg hlast]
        rw [ih _ (by omega)]
        by_cases hlt : bs.length < missing - 1
        · rw [if_pos hlt, if_pos (by rw [List.length_cons]; omega)]
          simp only [List.reverse_cons, List.append_assoc, List.singleton_append, List.length_cons]
          congr 2
          omega
        · rw [if_neg hlt, if_neg (by rw [List.length_cons]; omega)]
          obtain ⟨m, rfl⟩ : ∃ m, missing = m + 1 := ⟨missing - 1, by omega⟩
          simp

/-- Feeds pieces in their order, up to the first that breaks a bound. -/
def feedPieces (limits : Limits) : Receiver → List (List UInt8) → Fed
  | r, [] => ⟨r, 0, none⟩
  | r, piece :: rest =>
    let fed := feed limits r piece
    match fed.fault with
    | some _ => fed
    | none => fed.andThen (feedPieces limits fed.receiver rest)

/-- How a stream is cut into pieces is not to be seen in what becomes of it. -/
theorem feedPieces_eq_feed (limits : Limits) (r : Receiver) (pieces : List (List UInt8)) :
    feedPieces limits r pieces = feed limits r pieces.flatten := by
  induction pieces generalizing r with
  | nil => rw [feedPieces, List.flatten_nil, feed]
  | cons piece rest ih =>
      rw [feedPieces, List.flatten_cons]
      cases hfault : (feed limits r piece).fault with
      | some fault => rw [feed_append_of_fault hfault]
      | none => rw [feed_append_of_fault_none hfault, ih]

/-- Bytes may be cut anywhere. Behind a byte that is refused or behind the end of the request
nothing is looked at; else the bytes after the cut are fed to the receiver that those before it have
left. So bytes in any pieces lead to the receiver, the count, the fault and the request to which
they lead in one. -/
theorem feed_cut_anywhere (limits : Limits) (r : Receiver) :
    (∀ a b : List UInt8,
      let fed := feed limits r a
      let whole := feed limits r (a ++ b)
      let more := feed limits fed.receiver b
      fed.consumed ≤ a.length ∧
      (∀ fault, fed.fault = some fault →
        whole.fault = some fault ∧ whole.receiver = fed.receiver) ∧
      (fed.fault = none → fed.consumed < a.length →
        whole.fault = none ∧ whole.consumed = fed.consumed ∧ whole.receiver = fed.receiver) ∧
      (fed.fault = none → fed.consumed = a.length →
        whole.fault = more.fault ∧ whole.receiver = more.receiver ∧
          whole.consumed = a.length + more.consumed)) ∧
    ∀ pieces : List (List UInt8),
      feedPieces limits r pieces = feed limits r pieces.flatten ∧
        (feedPieces limits r pieces).receiver.finish =
          (feed limits r pieces.flatten).receiver.finish := by
  constructor
  · intro a b fed whole more
    refine ⟨consumed_feed_le limits r a, ?_, ?_, ?_⟩
    · intro fault hfault
      have hwhole : whole = fed := feed_append_of_fault hfault b
      exact ⟨hwhole ▸ hfault, hwhole ▸ rfl⟩
    · intro hfault hlt
      have hcomplete : fed.receiver.isComplete = true := isComplete_of_consumed_lt hfault hlt
      have hsettled : fed.verdict.isSome := by simp [Fed.verdict, hfault, hcomplete]
      have hwhole : whole = fed := feed_append_of_verdict hsettled b
      exact ⟨hwhole ▸ hfault, hwhole ▸ rfl, hwhole ▸ rfl⟩
    · intro hfault hall
      have hwhole : whole = fed.andThen more := feed_append_of_fault_none hfault b
      rw [hwhole, ← hall]
      exact ⟨rfl, rfl, rfl⟩
  · intro pieces
    have hpieces := feedPieces_eq_feed limits r pieces
    exact ⟨hpieces, congrArg (·.receiver.finish) hpieces⟩

/-- A cut in front of the rest of a line of which a byte has been refused. -/
theorem feed_cut_long_line :
    let limits : Limits := { line := 4 }
    let a := Utf8.encode "\r\nGET /"
    let b := Utf8.encode "index.html HTTP/1.1\r\n\r\n"
    (feed limits start a).fault = some (.lineTooLong 4) ∧
      (feed limits start (a ++ b)).fault = some (.lineTooLong 4) ∧
        (feed limits start (a ++ b)).receiver = (feed limits start a).receiver := by
  intro limits a b
  have hfault : (feed limits start a).fault = some (.lineTooLong 4) := by decide +kernel
  obtain ⟨hcut, -⟩ := feed_cut_anywhere limits start
  obtain ⟨-, hbroken, -⟩ := hcut a b
  exact ⟨hfault, hbroken _ hfault⟩

end FieldCamera.Request.Receiver
