import FieldCamera.Device
import FieldCamera.Signal
import FieldCamera.Upload.Report
import FieldCamera.Upload.Uplink
/-!
# Posting frames

One post takes one frame to the collector. The rounds of a running node are posts with pauses
between them, up to the signal to stop.
-/

namespace FieldCamera.Upload

/-- Who posts. -/
structure Sender where
  deviceId : UInt64
  battery : Float32

/-- The name of an image and the boundary of its request, which the clock and chance provide. -/
structure Stamp where
  filename : String
  boundary : String
  deriving DecidableEq, Repr

structure Receipt where
  status : Nat
  sent : Nat
  report : Option Report
  deriving DecidableEq, Repr

/-- The form that brings an image. -/
def Sender.envelope (sender : Sender) (stamp : Stamp) (image : List UInt8) : Envelope :=
  Payload.seal ⟨sender.deviceId, sender.battery, stamp.filename, image⟩ stamp.boundary

/-- Where a frame is to be taken, and in which form, unless there is no frame or no address. -/
def errand (sender : Sender) (stamp : Stamp) (frame : Capture) (url : String) :
    Except Fault (Address × Envelope) :=
  match frame with
  | .error cause => .error (.capture cause)
  | .ok image =>
    match Address.ofUrl url with
    | .error cause => .error (.url cause)
    | .ok target => .ok (target, sender.envelope stamp image)

/-- Posts a frame. Without a frame or an address nothing is done on the connection. -/
def post (sender : Sender) (pace : Pace) (stamp : Stamp) (frame : Capture) (url : String)
    (now : Nat) (u : Uplink) : Except Fault Receipt × Nat × Uplink :=
  match errand sender stamp frame url with
  | .error fault => (.error fault, now, u)
  | .ok (target, e) =>
    match u.send pace target e now with
    | (.error fault, now, u) => (.error fault, now, u)
    | (.ok d, now, u) => (.ok ⟨d.reply.status, d.sent, Report.ofBody? d.reply.body⟩, now, u)

/-- The pause between two posts, which is never shorter than ten milliseconds. -/
def pauseMs (interval : Int32) : Nat :=
  max interval.toInt.toNat 10

theorem pauseMs_pos (interval : Int32) : 0 < pauseMs interval := by
  unfold pauseMs
  omega

/-- What the rounds have come to. -/
structure Tally where
  posts : Nat
  delivered : Nat
  now : Nat
  deriving DecidableEq, Repr

/-- The tally at the end of one more post. -/
def Tally.count (t : Tally) (good : Bool) (ended : Nat) : Tally :=
  ⟨t.posts + 1, if good then t.delivered + 1 else t.delivered, ended⟩

/-- One round: a post, and the pause behind it. `once` posts from a time on and tells whether the
post succeeded and when it ended; `pause` waits up to the first time from the second on, and tells
when a call has broken it off. On the left is the tally of rounds that go on, on the right that of
rounds that a call has ended. -/
def roundIn {m : Type → Type} [Monad m] (once : Nat → m (Bool × Nat))
    (pause : Nat → Nat → m (Option Nat)) (interval : Int32) (t : Tally) : m (Tally ⊕ Tally) := do
  let (good, ended) ← once t.now
  let t := t.count good ended
  let next := ended + pauseMs interval
  match ← pause next ended with
  | some time => return .inr { t with now := time }
  | none => return .inl { t with now := next }

section Rounds

variable {σ : Type} (once : Nat → σ → Bool × Nat × σ) (interval : Int32) (signal : Signal)
  (wins : Nat → Bool)

/-- One round on a state. `once` is one post from the time it starts at: whether it succeeded, how
long it took, and the state after it. A signal that comes during a post is heard at its end, and one
that comes during a pause ends the pause. Where it comes just when the pause ends, `wins` says
whether it is taken. -/
def round (t : Tally) (s : σ) : (Tally ⊕ Tally) × σ :=
  let post (now : Nat) : StateM σ (Bool × Nat) := do
    let (good, took, s) := once now (← get)
    set s
    return (good, now + took)
  let pause (deadline now : Nat) : StateM σ (Option Nat) :=
    return signal.break? wins deadline now
  ((roundIn post pause interval t).run s).run

theorem round_eq (t : Tally) (s : σ) :
    round once interval signal wins t s =
      let (good, took, after) := once t.now s
      let ended := t.now + took
      let next := ended + pauseMs interval
      match signal.break? wins next ended with
      | some time => (.inr { t.count good ended with now := time }, after)
      | none => (.inl { t.count good ended with now := next }, after) := by
  cases hbreak : signal.break? wins (t.now + (once t.now s).2.1 + pauseMs interval)
      (t.now + (once t.now s).2.1) <;>
    simp [round, roundIn, hbreak]

variable {once interval signal wins} in
/-- Rounds go on only up to the first call. -/
theorem now_lt_of_round {t t' : Tally} {s s' : σ}
    (h : round once interval signal wins t s = (.inl t', s')) :
    t.now < t'.now ∧ t'.now ≤ signal.first := by
  rw [round_eq] at h
  dsimp only at h
  split at h
  · cases h
  · rename_i hbreak
    have hpause := pauseMs_pos interval
    have hfirst := Signal.le_first_of_break?_eq_none (Nat.lt_add_of_pos_right hpause) hbreak
    cases h
    exact ⟨by dsimp only; omega, hfirst⟩

/-- Posts again and again until the signal. -/
def rounds (posts delivered now : Nat) (s : σ) : Tally × σ :=
  match _h : round once interval signal wins ⟨posts, delivered, now⟩ s with
  | (.inl t, s) => rounds t.posts t.delivered t.now s
  | (.inr t, s) => (t, s)
termination_by signal.first - now
decreasing_by
  have := now_lt_of_round _h
  dsimp only at this
  omega

end Rounds

/-- A post as a round makes it: whether it succeeds, how long it takes, and what it leaves. -/
def posting (sender : Sender) (pace : Pace) (stamp : Stamp) (frame : Capture) (url : String)
    (now : Nat) (u : Uplink) : Bool × Nat × Uplink :=
  let (result, after, u) := post sender pace stamp frame url now u
  (result.isOk, after - now, u)

/-- Posts the same frame in rounds for a device, until the signal. A pause that is over just when
the signal comes has priority, unless `wins` says otherwise. -/
def runRounds (sender : Sender) (pace : Pace) (stamp : Stamp) (frame : Capture) (device : Device)
    (signal : Signal) (now : Nat) (u : Uplink) (wins : Nat → Bool := fun _ => false) :
    Tally × Uplink :=
  rounds (posting sender pace stamp frame device.uploadUrl) device.captureIntervalMs signal wins
    0 0 now u

end FieldCamera.Upload
