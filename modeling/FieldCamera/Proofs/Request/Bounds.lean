import FieldCamera.Proofs.Request.Grammar
import Mathlib.Data.List.Chain
/-!
# What stays within bounds while a receiver is fed

However a receiver is fed, also after a byte that it has refused, its line and its body stay within
their limits and it only moves on from phase to phase. `Within` says what holds of one receiver. The
receivers that calls lead through are a chain in which one byte makes each of the one before
(`isChain_passed`), so that what one byte keeps (`Within.receive`, `rank_receive_le`) holds along
every run. As long as no byte is refused, the bytes before the body come out of a budget
(`room_receive_le`). The main statement is `passed_within`.
-/

namespace FieldCamera.Request

/-- The place of a phase on the way of a request. -/
def Phase.rank : Phase → Nat
  | line => 0
  | headers => 1
  | body => 2
  | dispatch => 3

namespace Receiver

/-- Whether a receiver is still before the body. -/
def inHead (r : Receiver) : Bool :=
  r.phase = .line ∨ r.phase = .headers

/-- The bytes of the line that has not ended. -/
def pendingLine : Receiver → List UInt8
  | line pending => pending.toList
  | headers _ pending _ _ => pending.toList
  | body .. => []
  | dispatch .. => []

/-- The bytes of the body so far. -/
def content : Receiver → List UInt8
  | line _ => []
  | headers .. => []
  | body _ _ received _ => received.reverse
  | dispatch _ _ content => content

/-- The method, once the first line has named one. -/
def method? : Receiver → Option Method
  | line _ => none
  | headers first _ _ _ => some first.method
  | body first _ _ _ => some first.method
  | dispatch first _ _ => some first.method

/-- The declared length of the body. -/
def declared : Receiver → Nat
  | line _ => 0
  | headers _ _ _ declared => declared
  | body _ declared _ _ => declared
  | dispatch _ declared _ => declared

/-- The bytes that a body under way still lacks. -/
def missing : Receiver → Nat
  | body _ _ _ missing => missing
  | _ => 0

/-- What holds of a receiver at every byte. -/
structure Within (limits : Limits) (r : Receiver) : Prop where
  line : r.pendingLine.length ≤ limits.line
  beforeBody : r.inHead = true → r.content = []
  body : r.phase = .body →
    r.method? = some .post ∧ r.content.length < r.declared ∧ r.declared ≤ limits.body ∧
      r.missing = r.declared - r.content.length
  posted : r.phase = .dispatch → r.method? = some .post →
    r.content.length = r.declared ∧ r.declared ≤ limits.body
  other : r.phase = .dispatch → r.method? ≠ some .post → r.content = []

section Step

variable {limits : Limits} {r : Receiver}

theorem within_line_iff {pending : Array UInt8} :
    Within limits (line pending) ↔ pending.size ≤ limits.line := by
  constructor
  · intro h
    exact h.line
  · intro h
    exact ⟨h, fun _ => rfl, nofun, nofun, nofun⟩

theorem within_headers_iff {first : FirstLine} {pending : Array UInt8} {used declared : Nat} :
    Within limits (headers first pending used declared) ↔ pending.size ≤ limits.line := by
  constructor
  · intro h
    exact h.line
  · intro h
    exact ⟨h, fun _ => rfl, nofun, nofun, nofun⟩

theorem within_body_iff {first : FirstLine} {declared missing : Nat} {received : List UInt8} :
    Within limits (body first declared received missing) ↔
      first.method = .post ∧ received.length < declared ∧ declared ≤ limits.body ∧
        missing = declared - received.length := by
  constructor
  · intro h
    have hbody := h.body rfl
    simpa only [method?, content, Receiver.declared, Receiver.missing, Option.some.injEq,
      List.length_reverse] using hbody
  · rintro ⟨hmethod, hlt, hle, hmissing⟩
    refine ⟨Nat.zero_le _, nofun, fun _ => ?_, nofun, nofun⟩
    rw [content, List.length_reverse]
    exact ⟨congrArg some hmethod, hlt, hle, hmissing⟩

theorem within_dispatch_iff {first : FirstLine} {declared : Nat} {content : List UInt8} :
    Within limits (dispatch first declared content) ↔
      (first.method = .post → content.length = declared ∧ declared ≤ limits.body) ∧
        (first.method ≠ .post → content = []) := by
  constructor
  · intro h
    exact ⟨fun hpost => h.posted rfl (congrArg some hpost),
      fun hother => h.other rfl fun hsome => hother (Option.some.inj hsome)⟩
  · rintro ⟨hposted, hother⟩
    exact ⟨Nat.zero_le _, nofun, nofun, fun _ hpost => hposted (Option.some.inj hpost),
      fun _ hne => hother fun hpost => hne (congrArg some hpost)⟩

theorem within_start (limits : Limits) : Within limits start :=
  within_line_iff.2 (Nat.zero_le _)

theorem within_endHeaders (limits : Limits) (first : FirstLine) (used declared : Nat) :
    Within limits (endHeaders limits first used declared).1 := by
  rw [endHeaders]
  split
  · rename_i hposted
    split
    · exact within_headers_iff.2 (Nat.zero_le _)
    · rename_i hfits
      exact within_body_iff.2 ⟨hposted.1, hposted.2, Nat.le_of_not_lt hfits, rfl⟩
  · rename_i hempty
    refine within_dispatch_iff.2 ⟨fun hpost => ?_, fun _ => rfl⟩
    obtain rfl : declared = 0 := by
      rcases Nat.eq_zero_or_pos declared with hzero | hpos
      · exact hzero
      · exact absurd ⟨hpost, hpos⟩ hempty
    exact ⟨rfl, Nat.zero_le _⟩

theorem Within.endLine (h : Within limits r) : Within limits (endLine limits r).1 := by
  cases r with
  | line pending =>
      rw [Receiver.endLine]
      split
      · exact within_start limits
      · exact within_headers_iff.2 (Nat.zero_le _)
  | headers first pending used declared =>
      rw [Receiver.endLine]
      split
      · exact within_endHeaders ..
      · exact within_headers_iff.2 (Nat.zero_le _)
  | body first declared received missing => exact h
  | dispatch first declared content => exact h

theorem Within.push (h : Within limits r) (b : UInt8) : Within limits (push limits b r).1 := by
  cases r with
  | line pending =>
      rw [Receiver.push]
      split
      · exact h
      · rw [within_line_iff, Array.size_push]
        omega
  | headers first pending used declared =>
      have hline := within_headers_iff.1 h
      rw [Receiver.push]
      split
      · exact h
      · split
        · exact within_headers_iff.2 hline
        · rw [within_headers_iff, Array.size_push]
          omega
  | body first declared received missing => exact h
  | dispatch first declared content => exact h

/-- Before the body a byte ends a line, is dropped, or is a byte of a line. -/
theorem receive_of_inHead (h : r.inHead = true) (b : UInt8) :
    receive limits r b =
      if b = '\n'.toUInt8 then endLine limits r
      else if b = '\r'.toUInt8 then (r, none)
      else push limits b r := by
  cases r with
  | line pending => rfl
  | headers first pending used declared => rfl
  | body first declared received missing => contradiction
  | dispatch first declared content => contradiction

/-- One byte leaves everything within its bounds, whether it is refused or not. -/
theorem Within.receive (h : Within limits r) (b : UInt8) :
    Within limits (receive limits r b).1 := by
  have hhead : r.inHead = true → Within limits (Receiver.receive limits r b).1 := by
    intro hin
    rw [receive_of_inHead hin]
    split
    · exact h.endLine
    · split
      · exact h
      · exact h.push b
  cases r with
  | line pending => exact hhead rfl
  | headers first pending used declared => exact hhead rfl
  | body first declared received missing =>
      obtain ⟨hpost, hlt, hle, rfl⟩ := within_body_iff.1 h
      rw [Receiver.receive]
      split
      · rename_i hlast
        refine within_dispatch_iff.2 ⟨fun _ => ?_, fun hother => absurd hpost hother⟩
        rw [List.length_reverse, List.length_cons]
        exact ⟨by omega, hle⟩
      · rename_i hmore
        refine within_body_iff.2 ⟨hpost, ?_, hle, ?_⟩
        · rw [List.length_cons]
          omega
        · rw [List.length_cons]
          omega
  | dispatch first declared content => exact h

theorem rank_endLine_le (limits : Limits) (r : Receiver) :
    r.phase.rank ≤ (endLine limits r).1.phase.rank := by
  cases r with
  | line pending => exact Nat.zero_le _
  | headers first pending used declared =>
      rw [endLine]
      split
      · rw [endHeaders]
        split
        · split
          · exact Nat.le_refl 1
          · exact Nat.le_succ 1
        · exact Nat.le_add_left 1 2
      · exact Nat.le_refl _
  | body first declared received missing => exact Nat.le_refl _
  | dispatch first declared content => exact Nat.le_refl _

theorem phase_push (limits : Limits) (b : UInt8) (r : Receiver) :
    (push limits b r).1.phase = r.phase := by
  cases r with
  | line pending =>
      rw [push]
      split <;> rfl
  | headers first pending used declared =>
      rw [push]
      split
      · rfl
      · split <;> rfl
  | body first declared received missing => rfl
  | dispatch first declared content => rfl

/-- No byte leads back to an earlier phase. -/
theorem rank_receive_le (limits : Limits) (r : Receiver) (b : UInt8) :
    r.phase.rank ≤ (receive limits r b).1.phase.rank := by
  have hhead : r.inHead = true → r.phase.rank ≤ (receive limits r b).1.phase.rank := by
    intro hin
    rw [receive_of_inHead hin]
    split
    · exact rank_endLine_le limits r
    · split
      · exact Nat.le_refl _
      · rw [phase_push]
  cases r with
  | line pending => exact hhead rfl
  | headers first pending used declared => exact hhead rfl
  | body first declared received missing =>
      rw [receive]
      split
      · exact Nat.le_succ 2
      · exact Nat.le_refl 2
  | dispatch first declared content => exact Nat.le_refl _

/-- The bytes that may still come before the body, line ends not counted, if none is refused. -/
def room (limits : Limits) : Receiver → Nat
  | line pending => limits.line - pending.size + limits.headers
  | headers _ _ used _ => limits.headers - used
  | body .. => 0
  | dispatch .. => 0

theorem room_endLine_le (limits : Limits) (r : Receiver) :
    room limits (endLine limits r).1 ≤ room limits r := by
  cases r with
  | line pending =>
      rw [endLine]
      split
      · rename_i hempty
        rw [Array.isEmpty_iff.1 hempty]
      · exact Nat.le_add_left _ _
  | headers first pending used declared =>
      rw [endLine]
      split
      · rw [endHeaders]
        split
        · split
          · exact Nat.le_refl _
          · exact Nat.zero_le _
        · exact Nat.zero_le _
      · exact Nat.le_refl _
  | body first declared received missing => exact Nat.le_refl _
  | dispatch first declared content => exact Nat.le_refl _

/-- A byte of a line that is not refused takes up room. -/
theorem room_push_lt {b : UInt8} (hin : r.inHead = true) (h : (push limits b r).2 = none) :
    room limits (push limits b r).1 < room limits r := by
  cases r with
  | line pending =>
      rw [push] at h ⊢
      split at h
      · contradiction
      · rename_i hroom
        rw [if_neg hroom, room, room, Array.size_push]
        omega
  | headers first pending used declared =>
      rw [push] at h ⊢
      split at h
      · contradiction
      · rename_i hline
        split at h
        · contradiction
        · rename_i hroom
          rw [if_neg hline, if_neg hroom, room, room]
          omega
  | body first declared received missing => contradiction
  | dispatch first declared content => contradiction

/-- Whether a byte that a receiver takes counts for the bounds before the body. -/
def counts (r : Receiver) (b : UInt8) : Bool :=
  r.inHead && !isLineEnd b

theorem room_receive_le {b : UInt8} (h : (receive limits r b).2 = none) :
    (if counts r b then 1 else 0) + room limits (receive limits r b).1 ≤ room limits r := by
  cases hin : r.inHead with
  | true =>
      rw [receive_of_inHead hin] at h ⊢
      split at h
      · rename_i hfeed
        subst hfeed
        have hcount : counts r '\n'.toUInt8 = false := by simp [counts, isLineEnd]
        rw [hcount, if_pos rfl]
        simpa using room_endLine_le limits r
      · rename_i hfeed
        split at h
        · rename_i hreturn
          subst hreturn
          have hcount : counts r '\r'.toUInt8 = false := by simp [counts, isLineEnd]
          rw [hcount, if_neg hfeed, if_pos rfl]
          simp
        · rename_i hreturn
          have hcount : counts r b = true := by simp [counts, isLineEnd, hin, hfeed, hreturn]
          rw [hcount, if_neg hfeed, if_neg hreturn, if_pos rfl]
          have := room_push_lt hin h
          omega
  | false =>
      have hcount : counts r b = false := by simp [counts, hin]
      have hroom : room limits (receive limits r b).1 = 0 := by
        cases r with
        | line pending => contradiction
        | headers first pending used declared => contradiction
        | body first declared received missing =>
            rw [receive]
            split <;> rfl
        | dispatch first declared content => rfl
      rw [hcount, hroom]
      exact Nat.zero_le _

end Step

section Run

variable {limits : Limits} {r : Receiver}

/-- The bytes that feeding takes, each with the receiver that takes it. -/
def taken (limits : Limits) : Receiver → List UInt8 → List (Receiver × UInt8)
  | _, [] => []
  | r, b :: bs =>
    if r.isComplete then []
    else
      match receive limits r b with
      | (_, some _) => [(r, b)]
      | (r', none) => (r, b) :: taken limits r' bs

theorem taken_of_isComplete (h : r.isComplete = true) (bs : List UInt8) :
    taken limits r bs = [] := by
  cases bs with
  | nil => rfl
  | cons b bs => rw [taken, if_pos h]

theorem taken_cons_of_none {r' : Receiver} {b : UInt8} (hopen : r.isComplete = false)
    (h : receive limits r b = (r', none)) (bs : List UInt8) :
    taken limits r (b :: bs) = (r, b) :: taken limits r' bs := by
  simp [taken, hopen, h]

theorem taken_cons_of_fault {r' : Receiver} {b : UInt8} {fault : Fault}
    (hopen : r.isComplete = false) (h : receive limits r b = (r', some fault))
    (bs : List UInt8) : taken limits r (b :: bs) = [(r, b)] := by
  simp [taken, hopen, h]

/-- What feeding takes is what it consumes. -/
theorem map_snd_taken (limits : Limits) (r : Receiver) (bs : List UInt8) :
    (taken limits r bs).map Prod.snd = bs.take (feed limits r bs).consumed := by
  induction bs generalizing r with
  | nil => rfl
  | cons b bs ih =>
      cases hcomplete : r.isComplete with
      | true => rw [taken_of_isComplete hcomplete, feed_of_isComplete hcomplete]; rfl
      | false =>
          rcases hreceive : receive limits r b with ⟨r', _ | fault⟩
          · rw [taken_cons_of_none hcomplete hreceive, feed_cons_of_none hcomplete hreceive,
              Fed.andThen, Nat.add_comm, List.take_succ_cons, ← ih]
            rfl
          · rw [taken_cons_of_fault hcomplete hreceive, feed_cons_of_fault hcomplete hreceive]
            rfl

/-- Behind bytes of which none is refused the rest is taken by the receiver that they lead to. -/
theorem taken_append {bs : List UInt8} (h : (feed limits r bs).fault = none) (more : List UInt8) :
    taken limits r (bs ++ more) =
      taken limits r bs ++ taken limits (feed limits r bs).receiver more := by
  induction bs generalizing r with
  | nil => rfl
  | cons b bs ih =>
      cases hcomplete : r.isComplete with
      | true =>
          rw [taken_of_isComplete hcomplete, taken_of_isComplete hcomplete,
            feed_of_isComplete hcomplete, taken_of_isComplete hcomplete, List.nil_append]
      | false =>
          rcases hreceive : receive limits r b with ⟨r', _ | fault⟩
          · rw [feed_cons_of_none hcomplete hreceive] at h ⊢
            rw [List.cons_append, taken_cons_of_none hcomplete hreceive,
              taken_cons_of_none hcomplete hreceive, List.cons_append, ih h]
            rfl
          · rw [feed_cons_of_fault hcomplete hreceive] at h
            contradiction

/-- The receiver behind calls, of which each is made even if the one before has failed. -/
def after (limits : Limits) (r : Receiver) (calls : List (List UInt8)) : Receiver :=
  calls.foldl (fun r bs => (feed limits r bs).receiver) r

/-- The bytes that calls take, each with the receiver that takes it. -/
def takenBy (limits : Limits) : Receiver → List (List UInt8) → List (Receiver × UInt8)
  | _, [] => []
  | r, bs :: calls => taken limits r bs ++ takenBy limits (feed limits r bs).receiver calls

/-- Calls of which none fails take what one call with all the bytes takes. -/
theorem takenBy_eq_taken {calls : List (List UInt8)}
    (h : (feedPieces limits r calls).fault = none) :
    takenBy limits r calls = taken limits r calls.flatten := by
  induction calls generalizing r with
  | nil => rfl
  | cons bs calls ih =>
      rw [feedPieces] at h
      cases hfault : (feed limits r bs).fault with
      | some fault => simp [hfault] at h
      | none =>
          rw [hfault] at h
          rw [takenBy, List.flatten_cons, taken_append hfault, ih h]

/-- All receivers that calls lead through, from the one at the beginning on. -/
def passed (limits : Limits) (r : Receiver) (calls : List (List UInt8)) : List Receiver :=
  (takenBy limits r calls).map Prod.fst ++ [after limits r calls]

/-- The second receiver is what one byte makes of the first. -/
def Next (limits : Limits) (r s : Receiver) : Prop :=
  ∃ b, s = (receive limits r b).1

/-- Feeding leads from the receiver at the beginning to the one at the end, byte by byte. -/
theorem exists_chain_taken (limits : Limits) (r : Receiver) (bs : List UInt8) :
    ∃ rest, (taken limits r bs).map Prod.fst ++ [(feed limits r bs).receiver] = r :: rest ∧
      (r :: rest).IsChain (Next limits) := by
  induction bs generalizing r with
  | nil => exact ⟨[], rfl, List.isChain_singleton r⟩
  | cons b bs ih =>
      cases hcomplete : r.isComplete with
      | true =>
          rw [taken_of_isComplete hcomplete, feed_of_isComplete hcomplete]
          exact ⟨[], rfl, List.isChain_singleton r⟩
      | false =>
          rcases hreceive : receive limits r b with ⟨r', _ | fault⟩
          · obtain ⟨rest, hrest, hchain⟩ := ih r'
            have hnext : Next limits r r' := ⟨b, by rw [hreceive]⟩
            refine ⟨r' :: rest, ?_, List.isChain_cons_cons.2 ⟨hnext, hchain⟩⟩
            rw [taken_cons_of_none hcomplete hreceive, feed_cons_of_none hcomplete hreceive,
              List.map_cons, List.cons_append, ← hrest]
            rfl
          · have hnext : Next limits r r' := ⟨b, by rw [hreceive]⟩
            refine ⟨[r'], ?_, List.isChain_pair.2 hnext⟩
            rw [taken_cons_of_fault hcomplete hreceive, feed_cons_of_fault hcomplete hreceive]
            rfl

theorem isChain_passed (limits : Limits) (r : Receiver) (calls : List (List UInt8)) :
    ∃ rest, passed limits r calls = r :: rest ∧ (r :: rest).IsChain (Next limits) := by
  induction calls generalizing r with
  | nil => exact ⟨[], rfl, List.isChain_singleton r⟩
  | cons bs calls ih =>
      obtain ⟨first, hfirst, hchain⟩ := exists_chain_taken limits r bs
      obtain ⟨rest, hrest, hmore⟩ := ih (feed limits r bs).receiver
      have hpassed : passed limits r (bs :: calls) =
          (taken limits r bs).map Prod.fst ++ (feed limits r bs).receiver :: rest := by
        rw [← hrest, passed, passed, takenBy, List.map_append, List.append_assoc]
        rfl
      have hwhole : (taken limits r bs).map Prod.fst ++ (feed limits r bs).receiver :: rest =
          r :: (first ++ rest) := by
        rw [List.append_cons, hfirst, List.cons_append]
      refine ⟨first ++ rest, hpassed.trans hwhole, ?_⟩
      rw [← hwhole, List.isChain_split, hfirst]
      exact ⟨hchain, hmore⟩

/-- Everything stays within its bounds in every receiver on the way. -/
theorem within_of_mem_passed (h : Within limits r) (calls : List (List UInt8)) :
    ∀ s ∈ passed limits r calls, Within limits s := by
  obtain ⟨rest, hpassed, hchain⟩ := isChain_passed limits r calls
  rw [hpassed]
  refine hchain.induction (Within limits) _ ?_ (fun _ => h)
  rintro s _ ⟨b, rfl⟩ hs
  exact hs.receive b

/-- Of two receivers on the way, the later one is not in an earlier phase. -/
theorem pairwise_rank_passed (limits : Limits) (r : Receiver) (calls : List (List UInt8)) :
    (passed limits r calls).Pairwise fun s t => s.phase.rank ≤ t.phase.rank := by
  obtain ⟨rest, hpassed, hchain⟩ := isChain_passed limits r calls
  have hranks : ((r :: rest).map fun s => s.phase.rank).IsChain (· ≤ ·) := by
    rw [List.isChain_map]
    apply hchain.imp
    rintro s _ ⟨b, rfl⟩
    exact rank_receive_le limits s b
  rw [hpassed, ← List.pairwise_map]
  exact hranks.pairwise

/-- The bytes of a run that count for the bounds before the body. -/
def counted (run : List (Receiver × UInt8)) : List UInt8 :=
  (run.filter fun p => counts p.1 p.2).map Prod.snd

theorem length_counted_cons (p : Receiver × UInt8) (run : List (Receiver × UInt8)) :
    (counted (p :: run)).length = (if counts p.1 p.2 then 1 else 0) + (counted run).length := by
  rw [counted, counted, List.filter_cons]
  split
  · rw [List.map_cons, List.length_cons, Nat.add_comm]
  · rw [Nat.zero_add]

/-- Feeding in which no byte is refused takes no more than there is room for. -/
theorem length_counted_taken_le {bs : List UInt8} (h : (feed limits r bs).fault = none) :
    (counted (taken limits r bs)).length + room limits (feed limits r bs).receiver ≤
      room limits r := by
  induction bs generalizing r with
  | nil => exact Nat.le_of_eq (Nat.zero_add _)
  | cons b bs ih =>
      cases hcomplete : r.isComplete with
      | true =>
          rw [taken_of_isComplete hcomplete, feed_of_isComplete hcomplete]
          exact Nat.le_of_eq (Nat.zero_add _)
      | false =>
          rcases hreceive : receive limits r b with ⟨r', _ | fault⟩
          · rw [feed_cons_of_none hcomplete hreceive] at h ⊢
            have hstep : (if counts r b then 1 else 0) + room limits r' ≤ room limits r := by
              have hkept : (receive limits r b).2 = none := by rw [hreceive]
              have hroom := room_receive_le hkept
              rwa [hreceive] at hroom
            have hrest := ih h
            rw [taken_cons_of_none hcomplete hreceive, length_counted_cons, Fed.andThen]
            dsimp only
            omega
          · rw [feed_cons_of_fault hcomplete hreceive] at h
            contradiction

/-- What calls of which none fails take are the bytes that they consume, and those of them that
count fit into the room. -/
theorem takenBy_of_fault_none {calls : List (List UInt8)}
    (h : (feedPieces limits r calls).fault = none) :
    (takenBy limits r calls).map Prod.snd =
        calls.flatten.take (feedPieces limits r calls).consumed ∧
      (counted (takenBy limits r calls)).length ≤ room limits r := by
  rw [takenBy_eq_taken h]
  rw [feedPieces_eq_feed] at h ⊢
  exact ⟨map_snd_taken limits r calls.flatten,
    (Nat.le_add_right _ _).trans (length_counted_taken_le h)⟩

/-- A receiver that is not complete takes at least one of the bytes that it is fed. -/
theorem consumed_feed_pos (hopen : r.isComplete = false) {bs : List UInt8} (hbs : bs ≠ []) :
    0 < (feed limits r bs).consumed := by
  cases bs with
  | nil => contradiction
  | cons b bs =>
      rcases hreceive : receive limits r b with ⟨r', _ | fault⟩
      · rw [feed_cons_of_none hopen hreceive, Fed.andThen]
        exact Nat.lt_of_lt_of_le Nat.one_pos (Nat.le_add_right 1 _)
      · rw [feed_cons_of_fault hopen hreceive]
        exact Nat.one_pos

/-- In a body as many bytes are taken as it lacks, or as there are. -/
theorem Within.consumed_feed (h : Within limits r) (hbody : r.phase = .body) (bs : List UInt8) :
    (feed limits r bs).consumed = min r.missing bs.length := by
  cases r with
  | line pending => contradiction
  | headers first pending used declared => contradiction
  | body first declared received missing =>
      obtain ⟨-, hlt, -, hmissing⟩ := within_body_iff.1 h
      rw [feed_body limits first declared received (by omega) bs]
      split
      · rename_i hless
        exact (Nat.min_eq_right (Nat.le_of_lt hless)).symm
      · rename_i hmore
        exact (Nat.min_eq_left (Nat.le_of_not_lt hmore)).symm
  | dispatch first declared content => contradiction

/-- Whatever calls are made on a new receiver, also after calls that have failed, `Within` holds of
every receiver on the way, and none on the way is in an earlier phase than one before it. A receiver
that is complete takes nothing more and stays as it is; any other takes at least one byte, in a body
as many as it lacks if there are so many. As long as no call has failed, the bytes that were
consumed before the body, line ends not counted, fit into one line and the headers. -/
theorem passed_within (limits : Limits) (calls : List (List UInt8)) :
    (∀ r ∈ passed limits start calls, Within limits r ∧ ∀ bs : List UInt8,
      (r.isComplete = true → feed limits r bs = ⟨r, 0, none⟩) ∧
      (r.isComplete = false → bs ≠ [] → 0 < (feed limits r bs).consumed) ∧
      (r.phase = .body → (feed limits r bs).consumed = min r.missing bs.length)) ∧
    (passed limits start calls).Pairwise (fun r s => r.phase.rank ≤ s.phase.rank) ∧
    ((feedPieces limits start calls).fault = none →
      (takenBy limits start calls).map Prod.snd =
          calls.flatten.take (feedPieces limits start calls).consumed ∧
        (counted (takenBy limits start calls)).length ≤ limits.line + limits.headers) := by
  refine ⟨?_, pairwise_rank_passed limits start calls, fun h => takenBy_of_fault_none h⟩
  intro r hr
  have hwithin := within_of_mem_passed (within_start limits) calls r hr
  refine ⟨hwithin, fun bs => ⟨?_, ?_, ?_⟩⟩
  · intro hcomplete
    exact feed_of_isComplete hcomplete bs
  · intro hopen hbs
    exact consumed_feed_pos hopen hbs
  · intro hbody
    exact hwithin.consumed_feed hbody bs

/-- A request in three calls that leaves no byte of its budget unused. -/
theorem passed_within_full_budget :
    let limits : Limits := ⟨17, 17, 2⟩
    let calls := ["\r\nPOST /upload-here\r\nContent-", "Length: 2\r\n\r", "\nab"].map Utf8.encode
    (feedPieces limits start calls).fault = none ∧
      (counted (takenBy limits start calls)).length ≤ 17 + 17 ∧
        (counted (takenBy limits start calls)).length = 34 := by
  intro limits calls
  have hfault : (feedPieces limits start calls).fault = none := by decide +kernel
  obtain ⟨-, -, hbudget⟩ := passed_within limits calls
  exact ⟨hfault, (hbudget hfault).2, by decide +kernel⟩

end Run

end Receiver

end FieldCamera.Request
