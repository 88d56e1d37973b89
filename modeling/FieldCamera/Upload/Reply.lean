import FieldCamera.Link.Reader
import FieldCamera.Span
import FieldCamera.Text.Cut
import FieldCamera.Text.Quoted
import FieldCamera.Text.Utf8
import FieldCamera.Upload.StatusLine
/-!
# Reading the collector's reply

A reply is a status line, header lines up to an empty one, and a body up to the end of the stream
or to a silence. Long lines are cut and what is over the limit of the body is dropped, yet all of
it is read. Silence before the body is a fault; in the body it only ends the body.
-/

namespace FieldCamera.Upload

open Link

structure Reply where
  status : Nat
  statusLine : String
  body : List UInt8
  /-- The peer ended the stream, so that it can carry no further request. -/
  peerClosed : Bool
  deriving DecidableEq, Repr

namespace Reply

structure Limits where
  /-- The longest silence that is waited for. -/
  idleMs : Nat := 5000
  line : Nat := 1024
  body : Nat := 65536
  deriving DecidableEq, Repr

inductive Fault where
  | malformed (line : String)
  | timeout (idleMs : Nat)
  deriving DecidableEq, Repr

def malformedMessage (line : String) : String :=
  "malformed status line: " ++ Text.quoted line

def Fault.message : Fault → String
  | malformed line => malformedMessage line
  | timeout idleMs => "peer idle for " ++ Span.text idleMs ++ " before headers completed"

def isSuccess (r : Reply) : Bool :=
  200 ≤ r.status && r.status < 300

theorem isSuccess_iff {r : Reply} : r.isSuccess = true ↔ 200 ≤ r.status ∧ r.status < 300 := by
  simp [isSuccess]

def bodyText (r : Reply) : String :=
  Utf8.decodeLossy r.body

/-- How a line was ended. A failed read ends the stream. -/
inductive LineEnd where
  | newline
  | streamEnd
  deriving DecidableEq, Repr

/-- What a part of the reading found, when, and the reader after it. -/
structure Step (α : Type) where
  result : α
  now : Nat
  reader : Reader

/-- Adds bytes to what is kept, up to a limit. -/
def keep (limit : Nat) (kept more : List UInt8) : List UInt8 :=
  kept ++ more.take (limit - kept.length)

/-- Reads up to the next line feed or the end of the stream; `none` after too long a silence. -/
def readLine (limits : Limits) (kept : List UInt8) (now : Nat) (r : Reader) :
    Step (Option (List UInt8 × LineEnd)) :=
  let t := r.fill (now + limits.idleMs) now
  match _h : t.outcome with
  | .late => ⟨none, t.now, t.state⟩
  | .failed _ => ⟨some (kept, .streamEnd), t.now, t.state⟩
  | .done bytes =>
    if _hb : bytes = [] then ⟨some (kept, .streamEnd), t.now, t.state⟩
    else
      match Text.cut '\n'.toUInt8 bytes with
      | some (content, _) =>
        ⟨some (keep limits.line kept content, .newline), t.now,
          t.state.consume (content.length + 1)⟩
      | none =>
        readLine limits (keep limits.line kept bytes) t.now (t.state.consume bytes.length)
termination_by r.pending
decreasing_by
  have hle := Reader.pending_fill_le (now + limits.idleMs) now r
  have := Reader.pending_consume (Nat.le_of_eq (congrArg List.length (Reader.fill_buffer _h)).symm)
  have := List.length_pos_iff.2 _hb
  omega

theorem pending_readLine_lt {limits : Limits} {kept line : List UInt8} {now : Nat} {r : Reader}
    (h : (readLine limits kept now r).result = some (line, .newline)) :
    (readLine limits kept now r).reader.pending < r.pending := by
  fun_induction readLine limits kept now r with
  | case1 | case2 | case3 => simp at h
  | case4 kept now r t bytes hd hb content rest hcut =>
    have hle : t.state.pending ≤ r.pending := Reader.pending_fill_le ..
    have hbuf := Reader.fill_buffer hd
    have hlen : content.length + 1 ≤ bytes.length := by
      obtain ⟨rfl, -⟩ := Text.cut_eq_some_iff.1 hcut
      simp
    have := Reader.pending_consume (r := t.state) (n := content.length + 1) (hbuf ▸ hlen)
    simp only
    omega
  | case5 kept now r t bytes hd hb hcut ih =>
    have hle : t.state.pending ≤ r.pending := Reader.pending_fill_le ..
    have hbuf : bytes.length = t.state.buffer.length := by rw [Reader.fill_buffer hd]
    have := Reader.pending_consume (Nat.le_of_eq hbuf)
    have := ih h
    omega

/-- Reads lines up to one of which nothing or a lone carriage return is kept, and tells how the
last of them ended. -/
def skipHeaders (limits : Limits) (now : Nat) (r : Reader) : Step (Option LineEnd) :=
  let t := readLine limits [] now r
  match _h : t.result with
  | none => ⟨none, t.now, t.reader⟩
  | some (_, .streamEnd) => ⟨some .streamEnd, t.now, t.reader⟩
  | some (line, .newline) =>
    if line = [] ∨ line = ['\r'.toUInt8] then ⟨some .newline, t.now, t.reader⟩
    else skipHeaders limits t.now t.reader
termination_by r.pending
decreasing_by exact pending_readLine_lt _h

/-- The bytes that one read of a body asks for. -/
def bodyBlock : Nat := 1024

/-- Reads the rest of the stream: what is kept of it, and whether the peer ended it. -/
def readBody (limits : Limits) (kept : List UInt8) (now : Nat) (r : Reader) :
    Step (List UInt8 × Bool) :=
  let t := r.read bodyBlock (now + limits.idleMs) now
  match _h : t.outcome with
  | .late => ⟨(kept, false), t.now, t.state⟩
  | .failed _ => ⟨(kept, true), t.now, t.state⟩
  | .done bytes =>
    if _hb : bytes = [] then ⟨(kept, true), t.now, t.state⟩
    else readBody limits (keep limits.body kept bytes) t.now t.state
termination_by r.pending
decreasing_by
  have := Reader.pending_read_add _h
  have := List.length_pos_iff.2 _hb
  omega

/-- A line as text, without carriage returns at its end. -/
def lineText (line : List UInt8) : String :=
  String.ofList ((Utf8.decodeLossy line).toList.reverse.dropWhile (· == '\r')).reverse

/-- Reads what follows the status line. -/
def readRest (limits : Limits) (status : Nat) (statusLine : String) (now : Nat) (r : Reader) :
    Step (Except Fault Reply) :=
  let t := skipHeaders limits now r
  match t.result with
  | none => ⟨.error (.timeout limits.idleMs), t.now, t.reader⟩
  | some .streamEnd => ⟨.ok ⟨status, statusLine, [], true⟩, t.now, t.reader⟩
  | some .newline =>
    let b := readBody limits [] t.now t.reader
    ⟨.ok ⟨status, statusLine, b.result.1, b.result.2⟩, b.now, b.reader⟩

/-- Reads one reply. -/
def receive (limits : Limits) (now : Nat) (r : Reader) : Step (Except Fault Reply) :=
  let t := readLine limits [] now r
  match t.result with
  | none => ⟨.error (.timeout limits.idleMs), t.now, t.reader⟩
  | some (line, ending) =>
    let text := lineText line
    match ending, statusCode? text.toList with
    | .newline, some status => readRest limits status text t.now t.reader
    | _, _ => ⟨.error (.malformed text), t.now, t.reader⟩

end Reply

end FieldCamera.Upload
