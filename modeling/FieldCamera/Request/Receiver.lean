import FieldCamera.Number.Leading
import FieldCamera.Request
import FieldCamera.Text.Utf8
/-!
# Receiving a request byte by byte

A receiver takes the bytes of one request as they arrive and stops at its end. Before the body,
carriage returns are dropped and a line feed ends a line. Of the header lines only the declared
length of the body counts. Lines, headers and bodies are bounded; a byte that breaks a bound is
refused, and the receiver stays usable.
-/

namespace FieldCamera.Request

structure FirstLine where
  method : Method
  target : String
  deriving DecidableEq, Repr

/-- The first two of the tokens between single spaces, empty where missing. -/
def FirstLine.ofText (line : List Char) : FirstLine :=
  ⟨Method.ofToken (Text.before ' ' line),
    String.ofList (Text.before ' ' (Text.after ' ' line))⟩

/-- The pending bytes are those of the line that has not ended. -/
inductive Receiver where
  /-- Waiting for the first line. -/
  | line (pending : Array UInt8)
  /-- Among the header lines: the bytes they have used, and the length of the body that the last
  of them to do so has declared. -/
  | headers (first : FirstLine) (pending : Array UInt8) (used declared : Nat)
  /-- In the body, `missing` bytes before its end. The last byte received is the first. -/
  | body (first : FirstLine) (declared : Nat) (received : List UInt8) (missing : Nat)
  | dispatch (first : FirstLine) (declared : Nat) (content : List UInt8)
  deriving DecidableEq, Repr

namespace Receiver

def start : Receiver :=
  line #[]

def phase : Receiver → Phase
  | line .. => .line
  | headers .. => .headers
  | body .. => .body
  | dispatch .. => .dispatch

def isComplete (r : Receiver) : Bool :=
  r.phase = .dispatch

/-- The line that pending bytes make. -/
def textOf (pending : Array UInt8) : List Char :=
  (Utf8.decodeLossy pending.toList).toList

/-- The length of the body after a header line, which is the length before unless the line
declares one; a negative number counts as zero. -/
def declaredAfter (line : List Char) (declared : Nat) : Nat :=
  let name := "content-length:".toList
  if Text.sameLetters (line.take name.length) name then
    (Number.leading (line.drop name.length)).toNat
  else declared

/-- The empty line after the headers: a declared body follows a POST only. -/
def endHeaders (limits : Limits) (first : FirstLine) (used declared : Nat) :
    Receiver × Option Fault :=
  if first.method = .post ∧ 0 < declared then
    if limits.body < declared then
      (headers first #[] used declared, some (.bodyTooLarge declared limits.body))
    else (body first declared [] declared, none)
  else (dispatch first declared [], none)

/-- The end of a line before the body. Empty lines before the first line are skipped. -/
def endLine (limits : Limits) : Receiver → Receiver × Option Fault
  | line pending =>
    if pending.isEmpty then (line #[], none)
    else (headers (.ofText (textOf pending)) #[] 0 0, none)
  | headers first pending used declared =>
    if pending.isEmpty then endHeaders limits first used declared
    else (headers first #[] used (declaredAfter (textOf pending) declared), none)
  | r => (r, none)

/-- One byte of a line. The line's bound is tested before the bound of all headers. -/
def push (limits : Limits) (b : UInt8) : Receiver → Receiver × Option Fault
  | line pending =>
    if limits.line ≤ pending.size then (line pending, some (.lineTooLong limits.line))
    else (line (pending.push b), none)
  | headers first pending used declared =>
    if limits.line ≤ pending.size then
      (headers first pending used declared, some (.lineTooLong limits.line))
    else if limits.headers < used + 1 then
      (headers first pending (used + 1) declared, some (.headersTooLarge limits.headers))
    else (headers first (pending.push b) (used + 1) declared, none)
  | r => (r, none)

/-- Takes the next byte, and tells the bound it breaks if there is one. -/
def receive (limits : Limits) (r : Receiver) (b : UInt8) : Receiver × Option Fault :=
  match r with
  | body first declared received missing =>
    if missing ≤ 1 then (dispatch first declared (b :: received).reverse, none)
    else (body first declared (b :: received) (missing - 1), none)
  | dispatch .. => (r, none)
  | r =>
    if b = '\n'.toUInt8 then endLine limits r
    else if b = '\r'.toUInt8 then (r, none)
    else push limits b r

/-- What a run of bytes led to. -/
structure Fed where
  receiver : Receiver
  /-- The bytes taken, a refused one included. -/
  consumed : Nat
  fault : Option Fault
  deriving DecidableEq, Repr

/-- Takes bytes up to the end of the request or the first that breaks a bound. -/
def feed (limits : Limits) : Receiver → List UInt8 → Fed
  | r, [] => ⟨r, 0, none⟩
  | r, b :: bs =>
    if r.isComplete then ⟨r, 0, none⟩
    else
      match receive limits r b with
      | (r, some fault) => ⟨r, 1, some fault⟩
      | (r, none) =>
        let rest := feed limits r bs
        ⟨rest.receiver, rest.consumed + 1, rest.fault⟩

/-- The request, once it is complete. -/
def finish : Receiver → Except Fault Request
  | dispatch first declared content =>
    .ok ⟨first.method, first.target, Utf8.decodeLossy content, declared⟩
  | r => .error (.incomplete r.phase)

end Receiver

end FieldCamera.Request
