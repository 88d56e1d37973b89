import FieldCamera.Proofs.Upload.ReplyCourse
import Mathlib.Algebra.Order.BigOperators.Group.List
import Mathlib.Algebra.Order.Ring.Nat
/-!
# How long a reply is waited for

The patience with a collector is renewed by every byte that comes. So the time that a reply takes is
the sum of the waits for its bytes, and a last wait (`Course.listening`); nothing else ends it
(`receive_lasts`). The limits alone do not bound it: bytes that trickle hold the reader for as long
as they come (`receive_held_by_trickle`).
-/

namespace FieldCamera.Link

/-- What is given up is given up at the latest time that was allowed. -/
theorem Stream.now_readArrivals_late {cap flushes deadline now : Nat} {staysOpen : Bool}
    {arrivals : List Arrival} {since : Option Nat}
    (h : (readArrivals cap flushes staysOpen deadline arrivals since now).1 = .late) :
    (readArrivals cap flushes staysOpen deadline arrivals since now).2.1 = deadline := by
  fun_induction readArrivals cap flushes staysOpen deadline arrivals since now with
  | case1 | case7 | case9 => rfl
  | case2 | case4 | case5 | case10 => contradiction
  | case3 rest since now ih | case6 ms rest since now start hs ih
  | case8 count rest since now hc ih => exact ih h

theorem Reader.now_fill_late {deadline now : Nat} {r : Reader}
    (h : (r.fill deadline now).outcome = .late) : (r.fill deadline now).now = deadline := by
  rw [fill] at h ⊢
  split at h
  · rename_i hb
    rw [if_pos hb]
    cases hread : (r.stream.read r.capacity deadline now).outcome with
    | late =>
        simp only [hread]
        exact Stream.now_readArrivals_late hread
    | done bytes => simp [hread] at h
    | failed reason => simp [hread] at h
  · contradiction

theorem Reader.now_read_late {cap deadline now : Nat} {r : Reader}
    (h : (r.read cap deadline now).outcome = .late) : (r.read cap deadline now).now = deadline := by
  rw [read] at h ⊢
  split at h
  · rename_i hb
    rw [if_pos hb]
    exact Stream.now_readArrivals_late h
  · rename_i hb
    rw [if_neg hb]
    cases hfill : (r.fill deadline now).outcome with
    | late =>
        simp only [hfill]
        exact now_fill_late hfill
    | done bytes => simp [hfill] at h
    | failed reason => simp [hfill] at h

namespace Course

variable {c rest : Course} {bs : List UInt8} {wait idle now later : Nat}

/-- The time after which the first `n` bytes have come. -/
def timeOf (n : Nat) (c : Course) : Nat :=
  ((c.bytes.take n).map Prod.fst).sum

/-- The time up to the end, or up to the instant at which a wait has become longer than `idle`. -/
def listening (idle : Nat) (c : Course) : Nat :=
  c.timeOf (c.heard idle).length + if c.endsWithin idle then c.ending.getD 0 else idle

theorem timeOf_prepend (n : Nat) (bs : List UInt8) (c : Course) :
    (c.prepend bs).timeOf n = c.timeOf (n - bs.length) := by
  rw [timeOf, timeOf, prepend, List.take_append, List.map_append, List.sum_append,
    List.length_map, ← List.map_take, List.map_map]
  have hfront : (List.map (Prod.fst ∘ fun b : UInt8 => (0, b)) (bs.take n)).sum = 0 := by
    simp [Function.comp_def]
  rw [hfront, Nat.zero_add]

/-- A wait in front comes on top of all that follows. -/
theorem timeOf_delay {n : Nat} (hn : 0 < n) (hbs : bs ≠ []) (c : Course) :
    ((c.prepend bs).delay wait).timeOf n = wait + (c.prepend bs).timeOf n := by
  obtain ⟨b, bs, rfl⟩ := List.exists_cons_of_ne_nil hbs
  obtain ⟨n, rfl⟩ : ∃ m, n = m + 1 := ⟨n - 1, by omega⟩
  simp [timeOf, delay, prepend]

theorem listening_prepend (bs : List UInt8) (c : Course) :
    (c.prepend bs).listening idle = c.listening idle := by
  rw [listening, listening, heard_prepend, endsWithin_prepend, timeOf_prepend,
    List.length_append, Nat.add_sub_cancel_left]
  rfl

theorem listening_delay (hbs : bs ≠ []) (hw : wait ≤ idle) (c : Course) :
    ((c.prepend bs).delay wait).listening idle = wait + c.listening idle := by
  obtain ⟨b, bs, rfl⟩ := List.exists_cons_of_ne_nil hbs
  obtain ⟨hheard, hends⟩ := heard_delay bs hw c b
  have hpos : 0 < ((c.prepend (b :: bs)).heard idle).length := by
    rw [heard_prepend]
    exact Nat.succ_pos _
  rw [listening, hheard, hends, timeOf_delay hpos hbs, ← listening_prepend (b :: bs) c, listening,
    Nat.add_assoc]
  rfl

theorem listening_ends (hw : wait ≤ idle) : (ends wait).listening idle = wait := by
  obtain ⟨hheard, hends⟩ := heard_ends hw
  rw [listening, hheard, hends]
  exact Nat.zero_add wait

/-- Where nothing is heard at all, the time is that of the patience. -/
theorem Meets.listening_of_late (h : c.Meets (now + idle) now .late later rest) :
    c.listening idle = idle := by
  obtain ⟨hheard, hends⟩ := h.yields
  rw [Course.listening, hheard, hends]
  exact Nat.zero_add idle

theorem listening_of_ends (h : now ≤ later ∧ later ≤ now + idle ∧ c = ends (later - now)) :
    later = now + c.listening idle := by
  obtain ⟨hle, hidle, rfl⟩ := h
  rw [listening_ends (by omega)]
  omega

/-- What bytes leave of the time is the time of what follows them. -/
theorem Meets.listening_of_bytes (h : c.Meets (now + idle) now (.done bs) later rest)
    (hbs : bs ≠ []) : later + rest.listening idle = now + c.listening idle := by
  obtain ⟨hle, hidle, rfl⟩ := h.of_bytes hbs
  rw [listening_delay hbs (by omega)]
  omega

/-- Of bytes that are met together, each comes when the first does. -/
theorem Meets.timeOf_of_le {n : Nat} (h : c.Meets (now + idle) now (.done bs) later rest)
    (hn : 0 < n) (hle : n ≤ bs.length) : later = now + c.timeOf n := by
  have hbs : bs ≠ [] := by
    rintro rfl
    exact absurd hn (Nat.not_lt.2 hle)
  obtain ⟨hlater, -, rfl⟩ := h.of_bytes hbs
  rw [timeOf_delay hn hbs, timeOf_prepend, Nat.sub_eq_zero_of_le hle]
  simp only [timeOf, List.take_zero, List.map_nil, List.sum_nil]
  omega

theorem Meets.timeOf_add {n : Nat} (h : c.Meets (now + idle) now (.done bs) later rest)
    (hbs : bs ≠ []) : later + rest.timeOf n = now + c.timeOf (bs.length + n) := by
  obtain ⟨hlater, -, rfl⟩ := h.of_bytes hbs
  have hpos : 0 < bs.length + n := Nat.add_pos_left (List.length_pos_iff.2 hbs) n
  rw [timeOf_delay hpos hbs, timeOf_prepend, Nat.add_sub_cancel_left]
  omega

/-- The bytes that are heard have not been waited for longer than `idle` each. -/
theorem timeOf_le {n : Nat} (hn : n ≤ (c.heard idle).length) : c.timeOf n ≤ idle * n := by
  have htake : c.bytes.take n = (c.bytes.takeWhile (·.1 ≤ idle)).take n := by
    rw [heard, List.length_map] at hn
    rw [← List.take_append_of_le_length hn, List.takeWhile_append_dropWhile]
  rw [timeOf, htake, Nat.mul_comm]
  apply (List.sum_le_card_nsmul _ idle ?_).trans
  · rw [Nat.nsmul_eq_mul, List.length_map]
    exact Nat.mul_le_mul_right idle (List.length_take_le ..)
  · intro w hw
    obtain ⟨p, hp, rfl⟩ := List.mem_map.1 hw
    simpa using List.mem_takeWhile_imp (List.mem_of_mem_take hp)

theorem listening_le (idle : Nat) (c : Course) :
    c.listening idle ≤ idle * ((c.heard idle).length + 1) := by
  have hbytes : c.timeOf (c.heard idle).length ≤ idle * (c.heard idle).length :=
    timeOf_le (Nat.le_refl _)
  have hend : (if c.endsWithin idle then c.ending.getD 0 else idle) ≤ idle := by
    split
    · rename_i hends
      rw [endsWithin, Bool.and_eq_true] at hends
      cases hending : c.ending with
      | none => exact Nat.zero_le idle
      | some w => simpa [hending] using hends.2
    · exact Nat.le_refl idle
  calc c.listening idle ≤ idle * (c.heard idle).length + idle := Nat.add_le_add hbytes hend
    _ = idle * ((c.heard idle).length + 1) := (Nat.mul_succ ..).symm

end Course

/-- Bytes that come one at a time, each after a wait of `ms`. -/
def trickle (ms : Nat) : List UInt8 → List Arrival
  | [] => []
  | b :: bs => .pause ms :: .bytes [b] :: trickle ms bs

theorem Course.ofArrivals_trickle (flushes ms : Nat) (bs : List UInt8) :
    Course.ofArrivals flushes true (trickle ms bs) = ⟨bs.map (ms, ·), none⟩ := by
  induction bs with
  | nil => rfl
  | cons b bs ih =>
      rw [trickle, ofArrivals, ofArrivals, ih]
      rfl

/-- A peer that sends one byte every `ms` and never closes. -/
def Stream.trickling (ms : Nat) (bs : List UInt8) : Stream :=
  { arrivals := trickle ms bs, staysOpen := true }

theorem Stream.course_trickling (ms : Nat) (bs : List UInt8) (now : Nat) :
    (Stream.trickling ms bs).course now = ⟨bs.map (ms, ·), none⟩ := by
  rw [course, trickling, remaining_none]
  exact Course.ofArrivals_trickle 0 ms bs

section Trickled

variable {bs : List UInt8} {ms idle : Nat}

theorem Course.heard_trickled (hms : ms ≤ idle) :
    (Course.mk (bs.map (ms, ·)) none).heard idle = bs := by
  have hall : ∀ p ∈ bs.map (ms, ·), decide (p.1 ≤ idle) = true := by simp [hms]
  rw [heard, List.takeWhile_eq_self_iff.2 hall, List.map_map]
  exact List.map_id bs

/-- Each of the bytes renews the patience, so that all their waits count. -/
theorem Course.listening_trickled (hms : ms ≤ idle) :
    (Course.mk (bs.map (ms, ·)) none).listening idle = ms * bs.length + idle := by
  have hends : (Course.mk (bs.map (ms, ·)) none).endsWithin idle = false := by
    simp [endsWithin]
  have htime : (Course.mk (bs.map (ms, ·)) none).timeOf bs.length = ms * bs.length := by
    simp [timeOf, Function.comp_def, Nat.mul_comm]
  rw [listening, heard_trickled hms, hends, htime]
  rfl

end Trickled

end FieldCamera.Link

namespace FieldCamera.Upload.Reply

open Link

variable {limits : Limits}

/-- The time that the reply takes which the course of a stream spells. A bad status line is refused
as soon as it ends; else the stream is listened to. -/
def lasting (limits : Limits) (c : Course) : Nat :=
  match Text.cut '\n'.toUInt8 (c.heard limits.idleMs) with
  | some (line, _) =>
    if (statusCode? (statusText limits.line line).toList).isSome then c.listening limits.idleMs
    else c.timeOf (line.length + 1)
  | none => c.listening limits.idleMs

/-- A line takes the time up to its line feed; without one the stream is listened to. -/
theorem now_readLine (limits : Limits) (kept : List UInt8) (now : Nat) (r : Reader)
    (hcap : 0 < r.capacity) :
    let c := r.course now
    let t := readLine limits kept now r
    (Text.cut '\n'.toUInt8 (c.heard limits.idleMs) = none →
      t.now = now + c.listening limits.idleMs) ∧
    ∀ line rest, Text.cut '\n'.toUInt8 (c.heard limits.idleMs) = some (line, rest) →
      t.now = now + c.timeOf (line.length + 1) ∧
        t.now + (t.reader.course t.now).listening limits.idleMs =
          now + c.listening limits.idleMs := by
  have hidle : now ≤ now + limits.idleMs := Nat.le_add_right ..
  fun_induction readLine limits kept now r with
  | case1 kept now r t hlate =>
      have hmeets := hlate ▸ r.meets_fill hcap hidle
      obtain ⟨hheard, -⟩ := hmeets.yields
      refine ⟨fun _ => ?_, fun line rest hcut => ?_⟩
      · rw [hmeets.listening_of_late]
        exact Reader.now_fill_late hlate
      · rw [hheard] at hcut
        contradiction
  | case2 kept now r t reason hf =>
      have hmeets := hf ▸ r.meets_fill hcap hidle
      obtain ⟨hheard, -⟩ := hmeets.yields
      refine ⟨fun _ => Course.listening_of_ends hmeets, fun line rest hcut => ?_⟩
      rw [hheard] at hcut
      contradiction
  | case3 kept now r t hd =>
      have hmeets := hd ▸ r.meets_fill hcap hidle
      obtain ⟨hheard, -⟩ := hmeets.yields
      refine ⟨fun _ => Course.listening_of_ends hmeets, fun line rest hcut => ?_⟩
      rw [hheard] at hcut
      contradiction
  | case4 kept now r t bytes hd hb content after hcut =>
      have hmeets := hd ▸ r.meets_fill hcap hidle
      obtain ⟨hheard, -⟩ := hmeets.yields.of_bytes hb
      have hbuffer : t.state.buffer = bytes := Reader.fill_buffer hd
      obtain ⟨rfl, -⟩ := Text.cut_eq_some_iff.1 hcut
      have hrest : (t.state.consume (content.length + 1)).course t.now =
          (t.state.stream.course t.now).prepend after := by
        rw [Reader.course, Reader.consume, hbuffer]
        simp
      have hlength : content.length + 1 ≤ (content ++ '\n'.toUInt8 :: after).length := by simp
      have hwhole := Text.cut_append_of_some hcut
        ((t.state.stream.course t.now).heard limits.idleMs)
      dsimp only
      rw [hheard, hrest, Course.listening_prepend]
      refine ⟨fun hnone => ?_, fun line rest hline => ?_⟩
      · exact absurd (hwhole.symm.trans hnone) (Option.some_ne_none _)
      · obtain ⟨rfl, -⟩ := Prod.mk.inj (Option.some.inj (hwhole.symm.trans hline))
        exact ⟨hmeets.timeOf_of_le (Nat.succ_pos _) hlength, hmeets.listening_of_bytes hb⟩
  | case5 kept now r t bytes hd hb hcut ih =>
      have hmeets := hd ▸ r.meets_fill hcap hidle
      obtain ⟨hheard, -⟩ := hmeets.yields.of_bytes hb
      have hbuffer : t.state.buffer = bytes := Reader.fill_buffer hd
      have hrest : (t.state.consume bytes.length).course t.now = t.state.stream.course t.now := by
        rw [Reader.course, Reader.consume, hbuffer]
        simp
      have hroom : 0 < (t.state.consume bytes.length).capacity := by
        rwa [Reader.capacity_consume, Reader.capacity_fill]
      obtain ⟨hnever, hline⟩ := ih hroom (Nat.le_add_right ..)
      rw [hrest] at hnever hline
      have hbytes := hmeets.listening_of_bytes hb
      dsimp only
      rw [hheard, Text.cut_append_of_none hcut]
      refine ⟨fun hnone => ?_, fun line rest hsome => ?_⟩
      · exact (hnever (Option.map_eq_none_iff.1 hnone)).trans hbytes
      · obtain ⟨⟨before, behind⟩, hmore, heq⟩ := Option.map_eq_some_iff.1 hsome
        obtain ⟨rfl, rfl⟩ := Prod.mk.inj heq
        obtain ⟨hnow, hthen⟩ := hline before behind hmore
        refine ⟨?_, hthen.trans hbytes⟩
        rw [List.length_append, Nat.add_assoc, ← hmeets.timeOf_add hb]
        exact hnow

/-- Skipping header lines takes the time up to the body; without one the stream is listened to. -/
theorem now_skipHeaders (limits : Limits) (now : Nat) (r : Reader) (hcap : 0 < r.capacity) :
    let c := r.course now
    let t := skipHeaders limits now r
    (afterHeaders limits.line (c.heard limits.idleMs) = none →
      t.now = now + c.listening limits.idleMs) ∧
    ∀ body, afterHeaders limits.line (c.heard limits.idleMs) = some body →
      t.now + (t.reader.course t.now).listening limits.idleMs =
        now + c.listening limits.idleMs := by
  fun_induction skipHeaders limits now r with
  | case1 now r t ht =>
      obtain ⟨h₁, -, -⟩ := readLine_result limits [] now r hcap
      obtain ⟨hcut, -⟩ := firstLine_eq_none (h₁.symm.trans ht)
      dsimp only
      rw [afterHeaders_of_none hcut]
      exact ⟨fun _ => (now_readLine limits [] now r hcap).1 hcut,
        fun _ hsome => absurd hsome.symm (Option.some_ne_none _)⟩
  | case2 now r t line ht =>
      obtain ⟨h₁, -, -⟩ := readLine_result limits [] now r hcap
      obtain ⟨hcut, -, -⟩ := firstLine_eq_streamEnd (h₁.symm.trans ht)
      dsimp only
      rw [afterHeaders_of_none hcut]
      exact ⟨fun _ => (now_readLine limits [] now r hcap).1 hcut,
        fun _ hsome => absurd hsome.symm (Option.some_ne_none _)⟩
  | case3 now r t line ht hempty =>
      obtain ⟨h₁, -, -⟩ := readLine_result limits [] now r hcap
      obtain ⟨content, rest, hcut, rfl⟩ := firstLine_eq_newline (h₁.symm.trans ht)
      rw [keep_nil] at hempty
      dsimp only
      rw [afterHeaders_of_some hcut, if_pos hempty]
      exact ⟨fun hnone => absurd hnone (Option.some_ne_none _),
        fun _ _ => ((now_readLine limits [] now r hcap).2 _ _ hcut).2⟩
  | case4 now r t line ht hempty ih =>
      obtain ⟨h₁, h₂, h₃⟩ := readLine_result limits [] now r hcap
      obtain ⟨content, rest, hcut, rfl⟩ := firstLine_eq_newline (h₁.symm.trans ht)
      obtain ⟨hheard, -⟩ := h₃ _ _ hcut
      obtain ⟨-, hline⟩ := (now_readLine limits [] now r hcap).2 _ _ hcut
      obtain ⟨hnever, hbody⟩ := ih (h₂ ▸ hcap)
      rw [keep_nil] at hempty
      rw [hheard] at hnever hbody
      dsimp only
      rw [afterHeaders_of_some hcut, if_neg hempty]
      exact ⟨fun hnone => (hnever hnone).trans hline,
        fun body hsome => (hbody body hsome).trans hline⟩

theorem now_readBody (limits : Limits) (kept : List UInt8) (now : Nat) (r : Reader)
    (hcap : 0 < r.capacity) :
    (readBody limits kept now r).now = now + (r.course now).listening limits.idleMs := by
  have hidle : now ≤ now + limits.idleMs := Nat.le_add_right ..
  have hblock : 0 < bodyBlock := by decide
  fun_induction readBody limits kept now r with
  | case1 kept now r t hlate =>
      have hmeets := hlate ▸ r.meets_read hcap hblock hidle
      rw [hmeets.listening_of_late]
      exact Reader.now_read_late hlate
  | case2 kept now r t reason hf =>
      have hmeets := hf ▸ r.meets_read hcap hblock hidle
      exact Course.listening_of_ends hmeets
  | case3 kept now r t hd =>
      have hmeets := hd ▸ r.meets_read hcap hblock hidle
      exact Course.listening_of_ends hmeets
  | case4 kept now r t bytes hd hb ih =>
      have hmeets := hd ▸ r.meets_read hcap hblock hidle
      have hc : t.state.capacity = r.capacity := r.capacity_read ..
      rw [ih (hc ▸ hcap) (Nat.le_add_right ..)]
      exact hmeets.listening_of_bytes hb

theorem now_readRest (limits : Limits) (status : Nat) (text : String) (now : Nat) (r : Reader)
    (hcap : 0 < r.capacity) :
    (readRest limits status text now r).now = now + (r.course now).listening limits.idleMs := by
  obtain ⟨h₁, h₂⟩ := skipHeaders_result limits now r hcap
  obtain ⟨hnever, hbody⟩ := now_skipHeaders limits now r hcap
  cases hafter : afterHeaders limits.line ((r.course now).heard limits.idleMs) with
  | none =>
      have hnow := hnever hafter
      simp only [hafter] at h₂
      rw [readRest, h₂]
      cases (r.course now).endsWithin limits.idleMs with
      | true => exact hnow
      | false => exact hnow
  | some body =>
      simp only [hafter] at h₂
      rw [readRest, h₂.1]
      dsimp only
      rw [now_readBody limits [] _ _ (h₁ ▸ hcap)]
      exact hbody body hafter

/-- A reply takes just the time that `lasting` tells, through a buffer of any capacity. -/
theorem now_receive (limits : Limits) (now : Nat) (r : Reader) (hcap : 0 < r.capacity) :
    (receive limits now r).now = now + lasting limits (r.course now) := by
  obtain ⟨h₁, h₂, -⟩ := readLine_result limits [] now r hcap
  obtain ⟨hnever, hline⟩ := now_readLine limits [] now r hcap
  cases hcut : Text.cut '\n'.toUInt8 ((r.course now).heard limits.idleMs) with
  | none =>
      have hnow := hnever hcut
      rw [firstLine, hcut] at h₁
      rw [lasting, hcut, receive, h₁]
      cases (r.course now).endsWithin limits.idleMs with
      | true => exact hnow
      | false => exact hnow
  | some p =>
      obtain ⟨line, rest⟩ := p
      obtain ⟨hnow, hthen⟩ := hline line rest hcut
      rw [firstLine, hcut] at h₁
      rw [lasting, hcut, receive, h₁]
      dsimp only
      rw [keep_nil, lineText_take]
      cases hstatus : statusCode? (statusText limits.line line).toList with
      | none => exact hnow
      | some status =>
          dsimp only
          rw [now_readRest limits status _ _ _ (h₂ ▸ hcap)]
          exact hthen

theorem lasting_le (limits : Limits) (c : Course) :
    lasting limits c ≤ limits.idleMs * ((c.heard limits.idleMs).length + 1) := by
  cases hcut : Text.cut '\n'.toUInt8 (c.heard limits.idleMs) with
  | none =>
      rw [lasting, hcut]
      exact c.listening_le limits.idleMs
  | some p =>
      obtain ⟨line, rest⟩ := p
      rw [lasting, hcut]
      dsimp only
      split
      · exact c.listening_le limits.idleMs
      · have hle : line.length + 1 ≤ (c.heard limits.idleMs).length := by
          rw [(Text.cut_eq_some_iff.1 hcut).1]
          simp
        calc c.timeOf (line.length + 1) ≤ limits.idleMs * (line.length + 1) :=
              Course.timeOf_le hle
          _ ≤ limits.idleMs * ((c.heard limits.idleMs).length + 1) :=
              Nat.mul_le_mul_left limits.idleMs (Nat.le_succ_of_le hle)

/-- The time that a reply takes is that of its course: the waits for the bytes that are heard, none
longer than the patience, and one wait more. It is bounded by the number of bytes that the peer
sends, whatever they are. -/
theorem receive_lasts (limits : Limits) (now : Nat) (s : Stream) (capacity : Nat)
    (hcap : 0 < capacity) :
    let t := receive limits now { stream := s, capacity := capacity }
    t.now = now + lasting limits (s.course now) ∧
      lasting limits (s.course now) ≤
        limits.idleMs * (((s.course now).heard limits.idleMs).length + 1) := by
  have hnow := now_receive limits now { stream := s, capacity := capacity } hcap
  rw [Reader.course_of_buffer_eq_nil rfl] at hnow
  exact ⟨hnow, lasting_le limits (s.course now)⟩

/-- Of two bytes of body only one is kept, but both are waited for. -/
theorem receive_lasts_beyond_kept :
    0 < 8 ∧ (receive ⟨10, 16, 1⟩ 5 { capacity := 8, stream := { arrivals :=
      [.bytes (Utf8.encode "HTTP/1.1 200 OK\r\n\r\n"), .pause 7, .bytes (Utf8.encode "a"),
        .pause 8, .bytes (Utf8.encode "b"), .pause 11] } }).now = 30 :=
  ⟨by decide, (receive_lasts _ _ _ _ (by decide)).1.trans (by decide +kernel)⟩

/-- Bytes that trickle hold the reader as long as they come, unless they spell a bad status
line. -/
theorem now_receive_trickle (limits : Limits) (now ms : Nat) (bs : List UInt8) {capacity : Nat}
    (hcap : 0 < capacity) (hms : ms ≤ limits.idleMs)
    (hgood : ∀ line rest, Text.cut '\n'.toUInt8 bs = some (line, rest) →
      (statusCode? (statusText limits.line line).toList).isSome) :
    (receive limits now { stream := .trickling ms bs, capacity := capacity }).now =
      now + (ms * bs.length + limits.idleMs) := by
  rw [(receive_lasts limits now _ capacity hcap).1, Stream.course_trickling, lasting,
    Course.heard_trickled hms]
  congr 1
  split
  · rename_i line rest hcut
    rw [if_pos (hgood line rest hcut)]
    exact Course.listening_trickled hms
  · exact Course.listening_trickled hms

/-- No time that the limits alone tell is enough: behind a good status line and an empty header
block, one byte of body a millisecond holds the reader beyond it. -/
theorem receive_held_by_trickle :
    ¬ ∀ limits : Limits, 0 < limits.idleMs → ∃ bound, ∀ (s : Stream) (capacity now : Nat),
      0 < capacity →
      (receive limits now { stream := s, capacity := capacity }).now ≤ now + bound := by
  intro h
  obtain ⟨bound, hbound⟩ := h {} (by decide)
  let head := Utf8.encode "HTTP/1.1 200 OK\r\n\r\n"
  let content := head ++ List.replicate bound 'x'.toUInt8
  have hgood : ∀ line rest, Text.cut '\n'.toUInt8 content = some (line, rest) →
      (statusCode? (statusText 1024 line).toList).isSome := by
    intro line rest hcut
    have hhead : Text.cut '\n'.toUInt8 head =
        some (Utf8.encode "HTTP/1.1 200 OK\r", Utf8.encode "\r\n") := by decide +kernel
    obtain ⟨rfl, -⟩ := Prod.mk.inj
      (Option.some.inj ((Text.cut_append_of_some hhead _).symm.trans hcut))
    decide +kernel
  have hheld : (receive {} 0 _).now = 0 + (1 * content.length + 5000) :=
    now_receive_trickle {} 0 1 content Nat.zero_lt_one (by decide) hgood
  have hle := hbound (.trickling 1 content) 1 0 Nat.zero_lt_one
  have hlength : bound ≤ content.length := by simp [content]
  omega

end FieldCamera.Upload.Reply
