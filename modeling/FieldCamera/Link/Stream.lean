/-!
# Streams to a peer

A stream is known by what its peer does: which bytes arrive, and when, and how writes are taken,
one by one or by a lasting rule.
Time is counted in milliseconds. Every operation is given the time at which it starts and the
latest time at which it may still finish; being ready exactly then is in time.
-/

namespace FieldCamera.Link

/-- What reading meets next. -/
inductive Arrival where
  | bytes (content : List UInt8)
  /-- Nothing for a while, counted from when reading first gets here. -/
  | pause (ms : Nat)
  /-- Nothing until so many flushes have been made on the stream. -/
  | untilFlush (count : Nat)
  | fault (reason : String)
  deriving DecidableEq, Repr

/-- What becomes of an operation that the peer does not take. -/
inductive Refusal where
  | nothing
  | stall
  | fault (reason : String)
  deriving DecidableEq, Repr

/-- What a single write or flush meets. -/
inductive Uptake where
  /-- It is taken after a while; of a write so many bytes at most. -/
  | takes (ms count : Nat)
  | stall
  | fault (ms : Nat) (reason : String)
  deriving DecidableEq, Repr

/-- How an operation ends. -/
inductive Outcome (α : Type) where
  | done (value : α)
  | failed (reason : String)
  | late
  deriving DecidableEq, Repr

/-- Something tried on the writing side of a stream, and how it ended. -/
inductive Act where
  /-- A write ends with the number of bytes that were taken. -/
  | write (offered : List UInt8) (outcome : Outcome Nat)
  | flush (outcome : Outcome Unit)
  deriving DecidableEq, Repr

/-- One write that was answered, with the number of bytes that were taken. -/
structure Write where
  offered : List UInt8
  accepted : Nat
  deriving DecidableEq, Repr

/-- The bytes that a write passed on. -/
def Write.passed (w : Write) : List UInt8 :=
  w.offered.take w.accepted

/-- The write that an act is, if it is one that was answered. -/
def Act.answered? : Act → Option Write
  | write offered (.done accepted) => some ⟨offered, accepted⟩
  | _ => none

structure Stream where
  arrivals : List Arrival
  /-- When reading reached the pause that comes next. -/
  pausedSince : Option Nat := none
  /-- Whether the peer stays silent at the end instead of closing. -/
  staysOpen : Bool := false
  /-- What the next writes and flushes meet, each in its turn. After them the rule that the fields
  from `maxWrite` to `flushRefusal` give holds for good. -/
  uptakes : List Uptake := []
  /-- The most bytes that one write can pass on. -/
  maxWrite : Option Nat := none
  /-- The bytes that the peer will still take in all. -/
  room : Option Nat := none
  /-- What a write meets when there is no room. -/
  overrun : Refusal := .nothing
  writeDelay : Nat := 0
  /-- What a flush meets; `nothing` lets it pass. -/
  flushRefusal : Refusal := .nothing
  /-- The flushes so far that were taken. -/
  flushes : Nat := 0
  /-- The writes and flushes so far, the last one first. -/
  acts : List Act := []
  shut : Bool := false
  deriving DecidableEq, Repr

/-- An outcome, the time it came at, and what is left behind. -/
structure Timed (α σ : Type) where
  outcome : Outcome α
  now : Nat
  state : σ

/-- The bytes that a list of arrivals still brings. -/
def pendingBytes : List Arrival → Nat
  | [] => 0
  | .bytes content :: rest => content.length + pendingBytes rest
  | _ :: rest => pendingBytes rest

namespace Stream

/-- The bytes still to come. -/
def pending (s : Stream) : Nat :=
  pendingBytes s.arrivals

/-- The writes that were answered, the last one first. -/
def writes (s : Stream) : List Write :=
  s.acts.filterMap Act.answered?

/-- All bytes that writes have passed on. -/
def written (s : Stream) : List UInt8 :=
  s.writes.reverse.flatMap Write.passed

/-- Reads from a list of arrivals: the outcome, its time, what is left, and since when reading
waits there. -/
def readArrivals (cap flushes : Nat) (staysOpen : Bool) (deadline : Nat) :
    List Arrival → Option Nat → Nat → Outcome (List UInt8) × Nat × List Arrival × Option Nat
  | [], _, now => if staysOpen then (.late, deadline, [], none) else (.done [], now, [], none)
  | .bytes content :: rest, _, now =>
    if content = [] then readArrivals cap flushes staysOpen deadline rest none now
    else if content.length ≤ cap then (.done content, now, rest, none)
    else (.done (content.take cap), now, .bytes (content.drop cap) :: rest, none)
  | .pause ms :: rest, since, now =>
    let start := since.getD now
    if start + ms ≤ deadline then
      readArrivals cap flushes staysOpen deadline rest none (max now (start + ms))
    else (.late, deadline, .pause ms :: rest, some start)
  | .untilFlush count :: rest, _, now =>
    if count ≤ flushes then readArrivals cap flushes staysOpen deadline rest none now
    else (.late, deadline, .untilFlush count :: rest, none)
  | .fault reason :: rest, _, now => (.failed reason, now, rest, none)

/-- Reads at most `cap` bytes; no bytes at all mean the end of the stream. -/
def read (cap deadline now : Nat) (s : Stream) : Timed (List UInt8) Stream :=
  let (outcome, now, arrivals, since) :=
    readArrivals cap s.flushes s.staysOpen deadline s.arrivals s.pausedSince now
  ⟨outcome, now, { s with arrivals := arrivals, pausedSince := since }⟩

/-- How many of `offered` bytes a write passes on by the lasting rule. -/
def accepts (s : Stream) (offered : Nat) : Nat :=
  min (min offered (s.maxWrite.getD offered)) (s.room.getD offered)

/-- What the next write meets, if it offers so many bytes. -/
def writeUptake (s : Stream) (offered : Nat) : Uptake :=
  match s.uptakes with
  | uptake :: _ => uptake
  | [] =>
    if s.room = some 0 then
      match s.overrun with
      | .nothing => .takes s.writeDelay 0
      | .stall => .stall
      | .fault reason => .fault s.writeDelay reason
    else .takes s.writeDelay (s.accepts offered)

/-- What the next flush meets. -/
def flushUptake (s : Stream) : Uptake :=
  match s.uptakes with
  | uptake :: _ => uptake
  | [] =>
    match s.flushRefusal with
    | .nothing => .takes 0 0
    | .stall => .stall
    | .fault reason => .fault 0 reason

end Stream

/-- How an operation ends that meets `uptake`, and when. -/
def Uptake.settle (deadline now : Nat) : Uptake → Outcome Nat × Nat
  | takes ms count => if now + ms ≤ deadline then (.done count, now + ms) else (.late, deadline)
  | stall => (.late, deadline)
  | fault ms reason =>
    if now + ms ≤ deadline then (.failed reason, now + ms) else (.late, deadline)

namespace Stream

/-- Offers bytes once, and tells how many were taken. -/
def write (data : List UInt8) (deadline now : Nat) (s : Stream) : Timed Nat Stream :=
  let after (outcome : Outcome Nat) (taken now : Nat) : Timed Nat Stream :=
    ⟨outcome, now, { s with
      uptakes := s.uptakes.tail
      room := s.room.map (· - taken)
      acts := .write data outcome :: s.acts }⟩
  match (s.writeUptake data.length).settle deadline now with
  | (.done count, now) => after (.done (min data.length count)) (min data.length count) now
  | (outcome, now) => after outcome 0 now

def flush (deadline now : Nat) (s : Stream) : Timed Unit Stream :=
  let after (outcome : Outcome Unit) (taken now : Nat) : Timed Unit Stream :=
    ⟨outcome, now, { s with
      uptakes := s.uptakes.tail
      flushes := s.flushes + taken
      acts := .flush outcome :: s.acts }⟩
  match s.flushUptake.settle deadline now with
  | (.done _, now) => after (.done ()) 1 now
  | (.failed reason, now) => after (.failed reason) 0 now
  | (.late, now) => after .late 0 now

theorem pendingBytes_readArrivals (cap flushes : Nat) (staysOpen : Bool) (deadline : Nat)
    (arrivals : List Arrival) (since : Option Nat) (now : Nat) :
    let r := readArrivals cap flushes staysOpen deadline arrivals since now
    pendingBytes r.2.2.1 ≤ pendingBytes arrivals ∧
      ∀ bs, r.1 = .done bs → pendingBytes r.2.2.1 + bs.length ≤ pendingBytes arrivals := by
  fun_induction readArrivals cap flushes staysOpen deadline arrivals since now with
  | case1 | case2 => simp [pendingBytes]
  | case3 => simp_all [pendingBytes]
  | case4 content rest =>
    simp only [pendingBytes]
    exact ⟨by omega, by rintro bs ⟨⟩; omega⟩
  | case5 content rest =>
    simp only [pendingBytes, List.length_drop]
    exact ⟨by omega, by rintro bs ⟨⟩; simp only [List.length_take]; omega⟩
  | case6 | case8 => simp_all [pendingBytes]
  | case7 | case9 | case10 => simp [pendingBytes]

/-- Reading never adds to what is still to come. -/
theorem pending_read_le (cap deadline now : Nat) (s : Stream) :
    (s.read cap deadline now).state.pending ≤ s.pending :=
  (pendingBytes_readArrivals ..).1

/-- What was read is no longer to come. -/
theorem pending_read_add {cap deadline now : Nat} {s : Stream} {bs : List UInt8}
    (h : (s.read cap deadline now).outcome = .done bs) :
    (s.read cap deadline now).state.pending + bs.length ≤ s.pending :=
  (pendingBytes_readArrivals ..).2 bs h

end Stream

end FieldCamera.Link
