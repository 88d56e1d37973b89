import FieldCamera.Upload.Envelope
import FieldCamera.Upload.Fault
/-!
# The connection to the collector

One connection at a time leads to the collector. It is opened when a request needs it and kept
only after a good reply on a stream that the peer has left open. A kept connection on which
anything has arrived since, even its end, is replaced. No request is tried twice.
-/

namespace FieldCamera.Upload

open Link

/-- The bounds of one exchange. -/
structure Pace where
  /-- The most image bytes of one write; zero counts as one. -/
  chunkSize : Nat := 16384
  writeMs : Nat := 8000
  reply : Reply.Limits := {}
  deriving DecidableEq, Repr

/-- What an attempt to connect meets, and how long it takes. -/
structure Dial where
  delay : Nat := 0
  answer : Except String Stream

/-- An earlier attempt to connect: where to, and the stream it gave unless it was refused. -/
structure Attempt where
  authority : String
  stream : Option Stream
  deriving DecidableEq, Repr

structure Connection where
  authority : String
  reader : Reader
  deriving DecidableEq, Repr

structure Uplink where
  /-- What the attempts to come will meet; after them all are refused. -/
  dials : List Dial
  held : Option Connection := none
  /-- The attempts that no held connection is left of, the last one first. -/
  past : List Attempt := []

/-- A good reply, and the length of the request it answers. -/
structure Delivery where
  reply : Reply
  sent : Nat
  deriving DecidableEq, Repr

/-- Consecutive stretches of `size` elements, the last one perhaps shorter; a size of zero counts
as one. -/
def chunks {α : Type} (size : Nat) (xs : List α) : List (List α) :=
  if _h : xs = [] then []
  else xs.take (max size 1) :: chunks size (xs.drop (max size 1))
termination_by xs.length
decreasing_by
  have := List.length_pos_iff.2 _h
  rw [List.length_drop]
  omega

/-- The pieces that a request is written in. -/
def Envelope.pieces (e : Envelope) (target : Address) (chunkSize : Nat) : List (List UInt8) :=
  Utf8.encode (e.requestHead target) :: e.head :: chunks chunkSize e.image ++ [e.tail]

/-- How far a request has been written. -/
structure Progress where
  sent : Nat
  now : Nat
  stream : Stream

/-- Writes all of `data`, offering what is left after each partial write. Writing ends with a
reason when a write fails, takes nothing, or takes longer than `limit`. -/
def writeAll (limit : Nat) (data : List UInt8) (p : Progress) : Progress × Option String :=
  if _h : data = [] then (p, none)
  else
    let t := p.stream.write data (p.now + limit) p.now
    match t.outcome with
    | .late => (⟨p.sent, t.now, t.state⟩, some ("write stalled for " ++ Span.text limit))
    | .failed reason => (⟨p.sent, t.now, t.state⟩, some reason)
    | .done 0 => (⟨p.sent, t.now, t.state⟩, some "zero-length write")
    | .done (n + 1) => writeAll limit (data.drop (n + 1)) ⟨p.sent + (n + 1), t.now, t.state⟩
termination_by data.length
decreasing_by
  have := List.length_pos_iff.2 _h
  rw [List.length_drop]
  omega

/-- Writes piece after piece up to the first that cannot be written. -/
def writePieces (limit : Nat) : List (List UInt8) → Progress → Progress × Option String
  | [], p => (p, none)
  | piece :: rest, p =>
    match writeAll limit piece p with
    | (p, some reason) => (p, some reason)
    | (p, none) => writePieces limit rest p

/-- Writes a request, flushes it and reads the reply. -/
def exchange (pace : Pace) (target : Address) (e : Envelope) (now : Nat) (r : Reader) :
    Reply.Step (Except Fault Delivery) :=
  match writePieces pace.writeMs (e.pieces target pace.chunkSize) ⟨0, now, r.stream⟩ with
  | (p, some reason) => ⟨.error (.write p.sent reason), p.now, { r with stream := p.stream }⟩
  | (p, none) =>
    let t := p.stream.flush (p.now + pace.writeMs) p.now
    let r := { r with stream := t.state }
    match t.outcome with
    | .late => ⟨.error (.write p.sent "flush timed out"), t.now, r⟩
    | .failed reason => ⟨.error (.write p.sent reason), t.now, r⟩
    | .done () =>
      let s := Reply.receive pace.reply t.now r
      match s.result with
      | .ok reply => ⟨.ok ⟨reply, p.sent⟩, s.now, s.reader⟩
      | .error fault => ⟨.error (.ofReply fault), s.now, s.reader⟩

namespace Uplink

def isConnected (u : Uplink) : Bool :=
  u.held.isSome

/-- All attempts to connect, the first one first, with what has become of their streams. -/
def attempts (u : Uplink) : List Attempt :=
  match u.held with
  | some c => u.past.reverse ++ [⟨c.authority, some c.reader.stream⟩]
  | none => u.past.reverse

/-- Drops the held connection. -/
def close (u : Uplink) : Uplink :=
  match u.held with
  | some c => { u with held := none, past := ⟨c.authority, some c.reader.stream⟩ :: u.past }
  | none => u

/-- Looks at a held connection without waiting, and drops it unless nothing at all has arrived. -/
def refresh (now : Nat) (u : Uplink) : Uplink :=
  match u.held with
  | some c =>
    let t := c.reader.fill now now
    let looked := { u with held := some { c with reader := t.state } }
    match t.outcome with
    | .late => looked
    | _ => looked.close
  | none => u

/-- Opens a connection. -/
def dial (target : Address) (now : Nat) (u : Uplink) : Except Fault Connection × Nat × Uplink :=
  let refused (reason : String) (now : Nat) (u : Uplink) :=
    (.error (.connect target.authority reason), now,
      { u with past := ⟨target.authority, none⟩ :: u.past })
  match u.dials with
  | [] => refused "connection refused" now u
  | d :: dials =>
    let u := { u with dials := dials }
    match d.answer with
    | .error reason => refused reason (now + d.delay) u
    | .ok stream =>
      let c : Connection := ⟨target.authority, { stream := stream }⟩
      (.ok c, now + d.delay, { u with held := some c })

/-- The connection for the next request: the held one where it is still fit, else a new one. -/
def connect (target : Address) (now : Nat) (u : Uplink) :
    Except Fault Connection × Nat × Uplink :=
  let u := u.refresh now
  match u.held with
  | some c => (.ok c, now, u)
  | none => u.dial target now

/-- What a delivery counts as: only a good status is a success. -/
def judge : Except Fault Delivery → Except Fault Delivery
  | .ok d => if d.reply.isSuccess then .ok d else .error (.status d.reply.status)
  | .error fault => .error fault

/-- Whether the stream may carry another request after a delivery. -/
def keeps : Except Fault Delivery → Bool
  | .ok d => !d.reply.peerClosed
  | .error _ => false

/-- Sends one request and reads its reply. -/
def send (pace : Pace) (target : Address) (e : Envelope) (now : Nat) (u : Uplink) :
    Except Fault Delivery × Nat × Uplink :=
  match u.connect target now with
  | (.error fault, now, u) => (.error fault, now, u)
  | (.ok c, now, u) =>
    let s := exchange pace target e now c.reader
    let result := judge s.result
    let u := { u with held := some { c with reader := s.reader } }
    (result, s.now, if keeps result then u else u.close)

end Uplink

end FieldCamera.Upload
