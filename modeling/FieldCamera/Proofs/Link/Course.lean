import FieldCamera.Link.Reader
import Mathlib.Data.List.TakeWhile
/-!
# The course of a stream

The course of a stream is what it brings to one who reads without a break: its bytes, each after a
wait, and its end after a last wait. How the bytes are cut into arrivals is no longer to be seen.
An attempt to read takes bytes off the front of the course, or meets its end, or is given up before
anything comes (`Stream.meets_read`); this holds in the same way behind a buffer of any capacity
(`Reader.meets_fill`, `Reader.meets_read`).
-/

namespace FieldCamera.Link

structure Course where
  /-- The bytes, each with the wait for it. -/
  bytes : List (Nat × UInt8)
  /-- The wait for the end; without one the stream stays silent. A read that fails is an end. -/
  ending : Option Nat
  deriving DecidableEq, Repr

namespace Course

def silent : Course := ⟨[], none⟩

/-- The end comes after `wait`, and nothing before it. -/
def ends (wait : Nat) : Course := ⟨[], some wait⟩

/-- Bytes that are there at once, and then the rest. -/
def prepend (content : List UInt8) (c : Course) : Course :=
  { c with bytes := content.map (0, ·) ++ c.bytes }

/-- A longer wait for whatever comes first. -/
def delay (ms : Nat) : Course → Course
  | ⟨[], ending⟩ => ⟨[], ending.map (ms + ·)⟩
  | ⟨(wait, b) :: rest, ending⟩ => ⟨(ms + wait, b) :: rest, ending⟩

/-- The wait for whatever comes first, if anything ever comes. -/
def wait : Course → Option Nat
  | ⟨[], ending⟩ => ending
  | ⟨(wait, _) :: _, _⟩ => some wait

@[simp] theorem prepend_nil (c : Course) : c.prepend [] = c := rfl

theorem prepend_append (content more : List UInt8) (c : Course) :
    c.prepend (content ++ more) = (c.prepend more).prepend content := by
  simp [prepend]

@[simp] theorem delay_zero (c : Course) : c.delay 0 = c := by
  obtain ⟨_ | ⟨⟨wait, b⟩, rest⟩, ending⟩ := c <;> simp [delay]

theorem delay_delay (ms more : Nat) (c : Course) :
    (c.delay more).delay ms = c.delay (ms + more) := by
  obtain ⟨_ | ⟨⟨wait, b⟩, rest⟩, ending⟩ := c
  · cases ending <;> simp [delay, Nat.add_assoc]
  · simp [delay, Nat.add_assoc]

@[simp] theorem delay_ends (ms wait : Nat) : (ends wait).delay ms = ends (ms + wait) := rfl

@[simp] theorem wait_delay (ms : Nat) (c : Course) : (c.delay ms).wait = c.wait.map (ms + ·) := by
  obtain ⟨_ | ⟨⟨wait, b⟩, rest⟩, ending⟩ := c <;> simp [delay, Course.wait]

/-- The course that arrivals make, when so many flushes have been made. -/
def ofArrivals (flushes : Nat) (staysOpen : Bool) : List Arrival → Course
  | [] => if staysOpen then silent else ends 0
  | .bytes content :: rest => (ofArrivals flushes staysOpen rest).prepend content
  | .pause ms :: rest => (ofArrivals flushes staysOpen rest).delay ms
  | .untilFlush count :: rest =>
    if count ≤ flushes then ofArrivals flushes staysOpen rest else silent
  | .fault _ :: _ => ends 0

/-- Bytes that are cut once more make the same course. -/
theorem ofArrivals_cut (flushes : Nat) (staysOpen : Bool) (before after : List Arrival)
    (bs more : List UInt8) :
    ofArrivals flushes staysOpen (before ++ .bytes (bs ++ more) :: after) =
      ofArrivals flushes staysOpen (before ++ .bytes bs :: .bytes more :: after) := by
  induction before with
  | nil => exact prepend_append ..
  | cons a before ih =>
      cases a with
      | bytes content => exact congrArg (prepend content) ih
      | pause ms => exact congrArg (delay ms) ih
      | untilFlush count =>
          simp only [List.cons_append, ofArrivals, ih]
      | fault reason => rfl

end Course

/-- The arrivals as they stand at `now`: of a pause that has begun, what is left of it. -/
def remaining (arrivals : List Arrival) (since : Option Nat) (now : Nat) : List Arrival :=
  match arrivals, since with
  | .pause ms :: rest, some start => .pause (start + ms - now) :: rest
  | _, _ => arrivals

@[simp] theorem remaining_none (arrivals : List Arrival) (now : Nat) :
    remaining arrivals none now = arrivals := by
  unfold remaining
  split
  · contradiction
  · rfl

/-- The course of a stream from `now` on. -/
def Stream.course (now : Nat) (s : Stream) : Course :=
  .ofArrivals s.flushes s.staysOpen (remaining s.arrivals s.pausedSince now)

/-- The course behind a buffer: what is in the buffer is there at once. -/
def Reader.course (now : Nat) (r : Reader) : Course :=
  (r.stream.course now).prepend r.buffer

/-- What an attempt to read until `deadline` makes of a course: how it ends, when, and the course
from then on. -/
def Course.Meets (c : Course) (deadline now : Nat) :
    Outcome (List UInt8) → Nat → Course → Prop
  | .late, _, _ => ∀ wait, c.wait = some wait → deadline < now + wait
  | .done (b :: bs), later, rest =>
    now ≤ later ∧ later ≤ deadline ∧ c = (rest.prepend (b :: bs)).delay (later - now)
  | _, later, _ => now ≤ later ∧ later ≤ deadline ∧ c = ends (later - now)

namespace Course

variable {c rest : Course} {deadline now later : Nat} {outcome : Outcome (List UInt8)}

theorem Meets.of_bytes {bs : List UInt8} (h : c.Meets deadline now (.done bs) later rest)
    (hbs : bs ≠ []) :
    now ≤ later ∧ later ≤ deadline ∧ c = (rest.prepend bs).delay (later - now) := by
  cases bs with
  | nil => contradiction
  | cons b bs => exact h

theorem meets_bytes {bs : List UInt8} (hbs : bs ≠ []) (hd : now ≤ deadline)
    (hc : c = rest.prepend bs) : c.Meets deadline now (.done bs) now rest := by
  cases bs with
  | nil => contradiction
  | cons b bs =>
      refine ⟨le_refl now, hd, ?_⟩
      rw [hc, Nat.sub_self, delay_zero]

/-- An attempt that starts with a pause meets what an attempt after the pause meets. -/
theorem Meets.delay {start : Nat} (h : c.Meets deadline start outcome later rest)
    (hs : now ≤ start) : (c.delay (start - now)).Meets deadline now outcome later rest := by
  cases outcome with
  | late =>
      intro wait hw
      rw [wait_delay] at hw
      obtain ⟨w, hc, rfl⟩ := Option.map_eq_some_iff.1 hw
      have := h w hc
      omega
  | failed reason =>
      obtain ⟨h₁, h₂, rfl⟩ := h
      refine ⟨by omega, h₂, ?_⟩
      rw [delay_ends]
      congr 1
      omega
  | done bs =>
      cases bs with
      | nil =>
          obtain ⟨h₁, h₂, rfl⟩ := h
          refine ⟨by omega, h₂, ?_⟩
          rw [delay_ends]
          congr 1
          omega
      | cons b bs =>
          obtain ⟨h₁, h₂, rfl⟩ := h
          refine ⟨by omega, h₂, ?_⟩
          rw [delay_delay]
          congr 1
          omega

/-- The bytes before the first wait that is longer than `idle`. -/
def heard (idle : Nat) (c : Course) : List UInt8 :=
  (c.bytes.takeWhile (·.1 ≤ idle)).map Prod.snd

/-- Whether the end comes without a wait longer than `idle` on the way to it. -/
def endsWithin (idle : Nat) (c : Course) : Bool :=
  c.bytes.all (·.1 ≤ idle) && c.ending.any (· ≤ idle)

/-- The bytes that have come when `t` has passed, each with the wait for it. -/
def upTo (t : Nat) : List (Nat × UInt8) → List (Nat × UInt8)
  | [] => []
  | (wait, b) :: rest => if wait ≤ t then (wait, b) :: upTo (t - wait) rest else []

/-- The bytes that have come when `t` has passed. -/
def receivedBy (t : Nat) (c : Course) : List UInt8 :=
  (upTo t c.bytes).map Prod.snd

/-- The waits for the bytes that have come when `t` has passed. -/
def waitsBy (t : Nat) (c : Course) : List Nat :=
  (upTo t c.bytes).map Prod.fst

/-- What has come when `t` has passed was not waited for longer than that. -/
theorem le_of_mem_waitsBy {t w : Nat} {c : Course} (h : w ∈ c.waitsBy t) : w ≤ t := by
  obtain ⟨bytes, ending⟩ := c
  unfold waitsBy at h
  induction bytes generalizing t with
  | nil => simp [upTo] at h
  | cons p rest ih =>
      rw [upTo] at h
      split at h
      · rcases List.mem_cons.1 h with rfl | h
        · assumption
        · exact (ih h).trans (Nat.sub_le ..)
      · contradiction

theorem takeWhile_prepend (idle : Nat) (bs : List UInt8) (c : Course) :
    (c.prepend bs).bytes.takeWhile (·.1 ≤ idle) =
      bs.map (0, ·) ++ c.bytes.takeWhile (·.1 ≤ idle) := by
  rw [prepend, List.takeWhile_append_of_pos (by simp)]

theorem upTo_prepend (t : Nat) (bs : List UInt8) (c : Course) :
    upTo t (c.prepend bs).bytes = bs.map (0, ·) ++ upTo t c.bytes := by
  induction bs with
  | nil => rfl
  | cons b bs ih => simpa [prepend, upTo] using ih

variable {rest : Course} {bs : List UInt8} {wait idle now later : Nat}

theorem heard_prepend (bs : List UInt8) (c : Course) :
    (c.prepend bs).heard idle = bs ++ c.heard idle := by
  simp [heard, takeWhile_prepend, Function.comp_def]

theorem endsWithin_prepend (bs : List UInt8) (c : Course) :
    (c.prepend bs).endsWithin idle = c.endsWithin idle := by
  have hall : (bs.all fun _ => true) = true := by simp
  simp [endsWithin, prepend, Function.comp_def, hall]

theorem heard_delay (bs : List UInt8) (hw : wait ≤ idle) (c : Course) (b : UInt8) :
    ((c.prepend (b :: bs)).delay wait).heard idle = (c.prepend (b :: bs)).heard idle ∧
      ((c.prepend (b :: bs)).delay wait).endsWithin idle =
        (c.prepend (b :: bs)).endsWithin idle := by
  simp [heard, endsWithin, delay, prepend, hw]

theorem upTo_delay_prepend (hbs : bs ≠ []) (t : Nat) (c : Course) :
    upTo t ((c.prepend bs).delay wait).bytes =
      if wait ≤ t then (wait, bs.head hbs) :: bs.tail.map (0, ·) ++ upTo (t - wait) c.bytes
      else [] := by
  obtain ⟨b, bs, rfl⟩ := List.exists_cons_of_ne_nil hbs
  have ht := upTo_prepend (t - wait) bs c
  simp only [prepend] at ht
  simp [delay, prepend, upTo, ht]

theorem heard_ends (hw : wait ≤ idle) :
    (ends wait).heard idle = [] ∧ (ends wait).endsWithin idle = true := by
  simp [heard, endsWithin, ends, hw]

/-- What listening with the patience `idle` finds at the front of a course. -/
def Yields (c : Course) (idle : Nat) : Outcome (List UInt8) → Course → Prop
  | .late, _ => c.heard idle = [] ∧ c.endsWithin idle = false
  | .done (b :: bs), rest =>
    c.heard idle = b :: bs ++ rest.heard idle ∧ c.endsWithin idle = rest.endsWithin idle
  | _, _ => c.heard idle = [] ∧ c.endsWithin idle = true

theorem Meets.yields {c : Course} {outcome : Outcome (List UInt8)}
    (h : c.Meets (now + idle) now outcome later rest) : c.Yields idle outcome rest := by
  cases outcome with
  | late =>
      have hwait : ∀ w, c.wait = some w → ¬w ≤ idle := fun w hw => by
        have := h w hw
        omega
      obtain ⟨_ | ⟨⟨w, b⟩, bytes⟩, ending⟩ := c
      · cases ending with
        | none => exact ⟨rfl, rfl⟩
        | some w => simp [Yields, heard, endsWithin, hwait w rfl]
      · simp [Yields, heard, endsWithin, hwait w rfl]
  | failed reason =>
      obtain ⟨-, hle, rfl⟩ := h
      exact heard_ends (by omega)
  | done bs =>
      cases bs with
      | nil =>
          obtain ⟨-, hle, rfl⟩ := h
          exact heard_ends (by omega)
      | cons b bs =>
          obtain ⟨-, hle, rfl⟩ := h
          have hwait : later - now ≤ idle := by omega
          obtain ⟨h₁, h₂⟩ := heard_delay bs hwait rest b
          exact ⟨h₁.trans (heard_prepend ..), h₂.trans (endsWithin_prepend ..)⟩

theorem Yields.of_bytes {c : Course} (h : c.Yields idle (.done bs) rest) (hbs : bs ≠ []) :
    c.heard idle = bs ++ rest.heard idle ∧ c.endsWithin idle = rest.endsWithin idle := by
  cases bs with
  | nil => contradiction
  | cons b bs => exact h

end Course

theorem meets_readArrivals {cap : Nat} (flushes : Nat) (staysOpen : Bool) {deadline : Nat}
    (arrivals : List Arrival) (since : Option Nat) {now : Nat} (hcap : 0 < cap)
    (hd : now ≤ deadline) :
    let r := Stream.readArrivals cap flushes staysOpen deadline arrivals since now
    (Course.ofArrivals flushes staysOpen (remaining arrivals since now)).Meets deadline now
      r.1 r.2.1 (.ofArrivals flushes staysOpen (remaining r.2.2.1 r.2.2.2 r.2.1)) := by
  fun_induction Stream.readArrivals cap flushes staysOpen deadline arrivals since now with
  | case1 => simp [remaining, Course.ofArrivals, Course.Meets, Course.silent, Course.wait, *]
  | case2 => simp [remaining, Course.ofArrivals, Course.Meets, *]
  | case3 rest since now ih => simpa [remaining, Course.ofArrivals] using ih hd
  | case4 content rest since now hne hle =>
      apply Course.meets_bytes hne hd
      simp [remaining, Course.ofArrivals]
  | case5 content rest since now hne hlt =>
      apply Course.meets_bytes (by simp [hne, Nat.ne_of_gt hcap]) hd
      rw [remaining_none, Course.ofArrivals, ← Course.prepend_append, List.take_append_drop]
      simp [remaining, Course.ofArrivals]
  | case6 ms rest since now start hs ih =>
      have hrest := (ih (by omega)).delay (show now ≤ max now (start + ms) by omega)
      have hms : Course.ofArrivals flushes staysOpen (remaining (.pause ms :: rest) since now) =
          (Course.ofArrivals flushes staysOpen rest).delay (max now (start + ms) - now) := by
        cases since with
        | none => simp only [remaining_none, Course.ofArrivals]; congr 1; simp [start]
        | some _ => simp only [remaining, Course.ofArrivals]; congr 1; simp [start]; omega
      rw [hms]
      simpa using hrest
  | case7 ms rest since now start hs =>
      intro _ wait hw
      have hms : ∃ ms', start + ms ≤ now + ms' ∧
          remaining (.pause ms :: rest) since now = .pause ms' :: rest := by
        cases since with
        | none => exact ⟨ms, by simp [start], by simp⟩
        | some _ => exact ⟨start + ms - now, by omega, rfl⟩
      obtain ⟨ms', hms', he⟩ := hms
      rw [he, Course.ofArrivals, Course.wait_delay] at hw
      obtain ⟨w, -, rfl⟩ := Option.map_eq_some_iff.1 hw
      omega
  | case8 count rest since now hc ih =>
      simpa [remaining, Course.ofArrivals, hc] using ih hd
  | case9 count rest since now hc =>
      simp [remaining, Course.ofArrivals, Course.Meets, Course.silent, Course.wait, hc]
  | case10 => simp [remaining, Course.ofArrivals, Course.Meets, hd]

/-- How the bytes are cut into arrivals is not to be seen in the course. -/
theorem Stream.course_cut (s : Stream) (before after : List Arrival) (bs more : List UInt8)
    (now : Nat) :
    Stream.course now { s with arrivals := before ++ .bytes (bs ++ more) :: after } =
      Stream.course now { s with arrivals := before ++ .bytes bs :: .bytes more :: after } := by
  unfold course
  cases before with
  | nil => exact Course.ofArrivals_cut _ _ [] after bs more
  | cons a before =>
      cases a with
      | pause ms =>
          cases s.pausedSince with
          | none => exact Course.ofArrivals_cut _ _ (.pause ms :: before) after bs more
          | some start =>
              exact Course.ofArrivals_cut _ _ (.pause (start + ms - now) :: before) after bs more
      | bytes content => exact Course.ofArrivals_cut _ _ (.bytes content :: before) after bs more
      | untilFlush count =>
          exact Course.ofArrivals_cut _ _ (.untilFlush count :: before) after bs more
      | fault reason => rfl

/-- A read takes bytes off the front of the course, meets its end, or is given up. -/
theorem Stream.meets_read {cap deadline now : Nat} (s : Stream) (hcap : 0 < cap)
    (hd : now ≤ deadline) :
    (s.course now).Meets deadline now (s.read cap deadline now).outcome
      (s.read cap deadline now).now
      ((s.read cap deadline now).state.course (s.read cap deadline now).now) :=
  meets_readArrivals s.flushes s.staysOpen s.arrivals s.pausedSince hcap hd

/-- No read brings more than it asked for. -/
theorem length_readArrivals_le {cap flushes deadline now : Nat} {staysOpen : Bool}
    {arrivals : List Arrival} {since : Option Nat} {bs : List UInt8}
    (h : (Stream.readArrivals cap flushes staysOpen deadline arrivals since now).1 = .done bs) :
    bs.length ≤ cap := by
  fun_induction Stream.readArrivals cap flushes staysOpen deadline arrivals since now with
  | case2 =>
      cases h
      exact Nat.zero_le _
  | case4 content rest since now hne hle =>
      cases h
      exact hle
  | case5 content rest since now hne hlt =>
      cases h
      exact List.length_take_le ..
  | case3 rest since now ih | case6 ms rest since now start hs ih
  | case8 count rest since now hc ih => exact ih h
  | case1 | case7 | case9 | case10 => contradiction

namespace Reader

theorem course_of_buffer_eq_nil {r : Reader} (h : r.buffer = []) (now : Nat) :
    r.course now = r.stream.course now := by
  rw [course, h, Course.prepend_nil]

/-- Bytes that are taken from the buffer stood in front of the course. -/
theorem course_consume (n now : Nat) (r : Reader) :
    r.course now = ((r.consume n).course now).prepend (r.buffer.take n) := by
  rw [course, course, consume, ← Course.prepend_append, List.take_append_drop]

@[simp] theorem capacity_fill (deadline now : Nat) (r : Reader) :
    (r.fill deadline now).state.capacity = r.capacity := by
  unfold fill
  split
  · dsimp only
    split <;> rfl
  · rfl

@[simp] theorem capacity_consume (n : Nat) (r : Reader) :
    (r.consume n).capacity = r.capacity := rfl

@[simp] theorem capacity_read (cap deadline now : Nat) (r : Reader) :
    (r.read cap deadline now).state.capacity = r.capacity := by
  unfold read
  split
  · rfl
  · dsimp only
    split <;> simp

/-- What is met in filling the buffer; the bytes stay in it. -/
theorem meets_fill {deadline now : Nat} (r : Reader) (hcap : 0 < r.capacity)
    (hd : now ≤ deadline) :
    (r.course now).Meets deadline now (r.fill deadline now).outcome (r.fill deadline now).now
      ((r.fill deadline now).state.stream.course (r.fill deadline now).now) := by
  unfold fill
  split
  · rename_i hb
    have hr := r.stream.meets_read hcap hd
    rw [course_of_buffer_eq_nil hb]
    dsimp only
    split <;> simp_all
  · rename_i hb
    exact Course.meets_bytes hb hd rfl

/-- What is met in reading at most `cap` bytes through the buffer. -/
theorem meets_read {cap deadline now : Nat} (r : Reader) (hcapacity : 0 < r.capacity)
    (hcap : 0 < cap) (hd : now ≤ deadline) :
    (r.course now).Meets deadline now (r.read cap deadline now).outcome
      (r.read cap deadline now).now
      ((r.read cap deadline now).state.course (r.read cap deadline now).now) := by
  unfold read
  split
  · rename_i hb
    have hr := r.stream.meets_read hcap hd
    rw [course_of_buffer_eq_nil hb.1]
    dsimp only
    rw [course_of_buffer_eq_nil (by exact hb.1)]
    exact hr
  · have hf := r.meets_fill hcapacity hd
    dsimp only
    split
    · rename_i bs hbs
      have hbuffer := fill_buffer hbs
      rw [hbs] at hf
      cases bs with
      | nil =>
          simp only [List.take_nil]
          exact hf
      | cons b bs =>
          obtain ⟨h₁, h₂, h₃⟩ := hf.of_bytes (by simp)
          have hstate := course_consume cap (r.fill deadline now).now (r.fill deadline now).state
          rw [course, hbuffer] at hstate
          rw [hstate] at h₃
          obtain ⟨n, rfl⟩ : ∃ n, cap = n + 1 := ⟨cap - 1, by omega⟩
          exact ⟨h₁, h₂, h₃⟩
    · rename_i hne
      generalize (r.fill deadline now).outcome = outcome at hf hne
      cases outcome with
      | done bs => exact absurd rfl (hne bs)
      | failed reason => exact hf
      | late => exact hf

/-- What is found in filling the buffer with the patience `idle`. -/
theorem yields_fill {idle now : Nat} {r : Reader} {outcome : Outcome (List UInt8)}
    (hcap : 0 < r.capacity) (h : (r.fill (now + idle) now).outcome = outcome) :
    (r.course now).Yields idle outcome
      ((r.fill (now + idle) now).state.stream.course (r.fill (now + idle) now).now) :=
  h ▸ (r.meets_fill hcap (Nat.le_add_right now idle)).yields

/-- What is found in reading with the patience `idle`. -/
theorem yields_read {cap idle now : Nat} {r : Reader} {outcome : Outcome (List UInt8)}
    (hcapacity : 0 < r.capacity) (hcap : 0 < cap)
    (h : (r.read cap (now + idle) now).outcome = outcome) :
    (r.course now).Yields idle outcome
      ((r.read cap (now + idle) now).state.course (r.read cap (now + idle) now).now) :=
  h ▸ (r.meets_read hcapacity hcap (Nat.le_add_right now idle)).yields

/-- A reader that can hold nothing brings nothing. -/
theorem fill_of_capacity {deadline now : Nat} {r : Reader} {bs : List UInt8}
    (hb : r.buffer = []) (hcap : r.capacity = 0)
    (h : (r.fill deadline now).outcome = .done bs) : bs = [] := by
  unfold fill at h
  rw [if_pos hb, hcap] at h
  dsimp only at h
  split at h
  · rename_i bytes hread
    cases h
    exact List.eq_nil_of_length_eq_zero (Nat.le_zero.1 (length_readArrivals_le hread))
  · rename_i hne
    exact absurd h (hne bs)

end Reader

end FieldCamera.Link
