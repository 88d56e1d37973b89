import FieldCamera.Link.Stream
/-!
# Buffered reading

A reader takes bytes from its stream in blocks of its capacity and hands them out in smaller
parts. Bytes in the buffer come before anything that the stream still brings.
-/

namespace FieldCamera.Link

structure Reader where
  stream : Stream
  capacity : Nat := 8192
  buffer : List UInt8 := []
  deriving DecidableEq, Repr

namespace Reader

/-- The bytes still to be handed out. -/
def pending (r : Reader) : Nat :=
  r.buffer.length + r.stream.pending

/-- The bytes at hand; an empty buffer is filled first. No bytes mean the end of the stream. -/
def fill (deadline now : Nat) (r : Reader) : Timed (List UInt8) Reader :=
  if r.buffer = [] then
    let t := r.stream.read r.capacity deadline now
    match t.outcome with
    | .done bytes => ⟨.done bytes, t.now, { r with stream := t.state, buffer := bytes }⟩
    | outcome => ⟨outcome, t.now, { r with stream := t.state }⟩
  else ⟨.done r.buffer, now, r⟩

/-- Drops bytes from the front of the buffer. -/
def consume (n : Nat) (r : Reader) : Reader :=
  { r with buffer := r.buffer.drop n }

/-- Takes at most `cap` bytes. A read that is no smaller than the buffer passes an empty one by. -/
def read (cap deadline now : Nat) (r : Reader) : Timed (List UInt8) Reader :=
  if r.buffer = [] ∧ r.capacity ≤ cap then
    let t := r.stream.read cap deadline now
    ⟨t.outcome, t.now, { r with stream := t.state }⟩
  else
    let t := r.fill deadline now
    match t.outcome with
    | .done bytes => ⟨.done (bytes.take cap), t.now, t.state.consume cap⟩
    | outcome => ⟨outcome, t.now, t.state⟩

theorem fill_buffer {deadline now : Nat} {r : Reader} {bs : List UInt8}
    (h : (r.fill deadline now).outcome = .done bs) : (r.fill deadline now).state.buffer = bs := by
  unfold fill at h ⊢
  split at h <;> rename_i hb
  · simp only [hb, if_true] at h ⊢
    split at h <;> simp_all
  · simp_all

theorem pending_fill_le (deadline now : Nat) (r : Reader) :
    (r.fill deadline now).state.pending ≤ r.pending := by
  unfold fill
  split
  · rename_i hb
    have hle := r.stream.pending_read_le r.capacity deadline now
    dsimp only
    split
    · rename_i bs h
      have := Stream.pending_read_add h
      simp only [pending, hb, List.length_nil]
      omega
    · simp only [pending]
      omega
  · exact Nat.le_refl _

/-- Consuming bytes that are at hand brings the end nearer. -/
theorem pending_consume {r : Reader} {n : Nat} (h : n ≤ r.buffer.length) :
    (r.consume n).pending + n = r.pending := by
  simp only [consume, pending, List.length_drop]
  omega

theorem pending_read_add {cap deadline now : Nat} {r : Reader} {bs : List UInt8}
    (h : (r.read cap deadline now).outcome = .done bs) :
    (r.read cap deadline now).state.pending + bs.length ≤ r.pending := by
  unfold read at h ⊢
  split at h <;> rename_i hc
  · simp only [hc, and_self, if_true] at h ⊢
    have := Stream.pending_read_add h
    simp only [pending, hc.1, List.length_nil]
    omega
  · simp only [hc, if_false] at h ⊢
    split at h
    · rename_i bytes hf
      cases h
      have hle := pending_fill_le deadline now r
      have hb := fill_buffer hf
      simp only [pending, consume, hb, List.length_drop, List.length_take] at hle ⊢
      omega
    · simp_all

end Reader

end FieldCamera.Link
