import FieldCamera.Enrolment
import FieldCamera.Setup.Listener
import FieldCamera.Setup.Serving
import FieldCamera.Upload.Post
/-!
# What a node does outside itself

An activity is a course of steps, each of which asks something of the surroundings and goes on with
the answer. The same activity can be carried out among files and connections, or in `Surroundings`
where everything that will be met is written down.
-/

namespace FieldCamera

inductive Activity (α : Type) where
  | done (result : α)
  /-- Looks at the files of some paths. -/
  | look (paths : List String) (next : Files → Activity α)
  /-- Listens on an address. -/
  | listen (address : String)
    (next : Except Setup.Listener.Fault SocketAddress → Activity α)
  /-- Serves the portal with a configuration to begin with, and tells the one that was saved,
  if it came to that. -/
  | serve (patience : Setup.Patience) (store : RecordFiles) (device : Device)
    (next : Option Device → Activity α)
  /-- Sends an enrolment, and tells the status of the answer if there is one. -/
  | enrol (url : String) (enrolment : Enrolment) (next : Option Nat → Activity α)
  /-- Posts one frame. -/
  | post (sender : Upload.Sender) (pace : Upload.Pace) (frame : Upload.Capture) (url : String)
    (next : Except Upload.Fault Upload.Receipt → Activity α)
  /-- Posts what stands in the image file, in rounds until the signal to stop. -/
  | postRounds (sender : Upload.Sender) (pace : Upload.Pace) (image : String) (device : Device)
    (next : Activity α)

namespace Activity

variable {α β : Type}

def bind : Activity α → (α → Activity β) → Activity β
  | done a, f => f a
  | look paths next, f => look paths fun x => (next x).bind f
  | listen address next, f => listen address fun x => (next x).bind f
  | serve patience store device next, f => serve patience store device fun x => (next x).bind f
  | enrol url e next, f => enrol url e fun x => (next x).bind f
  | post sender pace frame url next, f => post sender pace frame url fun x => (next x).bind f
  | postRounds sender pace image device next, f =>
    postRounds sender pace image device (next.bind f)

instance : Monad Activity where
  pure := done
  bind := bind

theorem bind_eq (x : Activity α) (f : α → Activity β) : x >>= f = x.bind f := rfl

end Activity

/-- Everything that an activity can meet, and the traces that it leaves. -/
structure Surroundings where
  files : Files := {}
  /-- What the system has against listening on an address. -/
  refusal : SocketAddress → Option SystemFault := fun _ => none
  /-- The token of the portal's run, which chance provides. -/
  token : Setup.Token
  /-- The clients who will call. -/
  clients : List Link.Stream := []
  /-- The visits of those who have called. -/
  visits : List (Setup.Visit RecordFiles) := []
  /-- The status with which the collector answers an enrolment, if it does. -/
  answer : Option Nat := none
  stamp : Upload.Stamp
  uplink : Upload.Uplink := ⟨[], none, []⟩
  now : Nat := 0
  /-- The signal to stop, and whether it is taken where it comes just at the end of a pause. -/
  signal : Signal := .once 0
  wins : Nat → Bool := fun _ => false

/-- What is left where the portal has been served. -/
def Surroundings.afterServing (w : Surroundings) (served : Setup.Serving RecordFiles) :
    Surroundings :=
  { w with
    files := served.portal.store.files
    clients := w.clients.drop served.visits.length
    visits := w.visits ++ served.visits
    now := served.now }

namespace Activity

variable {α : Type}

/-- Carries out an activity in surroundings. -/
def within : Activity α → Surroundings → α × Surroundings
  | done a, w => (a, w)
  | look _ next, w => (next w.files).within w
  | listen address next, w => (next (Setup.Listener.bind w.refusal address)).within w
  | serve patience store device next, w =>
    let served := (⟨device, store, w.token⟩ : Setup.Portal RecordFiles).serve patience w.now
      w.clients
    let saved := if served.isDone then some served.portal.device else none
    (next saved).within (w.afterServing served)
  | enrol _ _ next, w => (next w.answer).within w
  | post sender pace frame url next, w =>
    let (result, now, uplink) := Upload.post sender pace w.stamp frame url w.now w.uplink
    (next result).within { w with uplink := uplink, now := now }
  | postRounds sender pace image device next, w =>
    let (tally, uplink) := Upload.runRounds sender pace w.stamp
      (Upload.frameFromFile w.files image) device w.signal w.now w.uplink w.wins
    next.within { w with uplink := uplink, now := tally.now }

/-- An activity goes on in the surroundings that the first part of it has left. -/
theorem within_bind {β : Type} (x : Activity α) (f : α → Activity β) (w : Surroundings) :
    (x.bind f).within w = (f (x.within w).1).within (x.within w).2 := by
  induction x generalizing w with
  | done a => rfl
  | postRounds sender pace image device next ih => simp [bind, within, ih]
  | _ => simp_all [bind, within]

end Activity

end FieldCamera
