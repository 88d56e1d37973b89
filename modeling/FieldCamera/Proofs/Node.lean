import FieldCamera.Node
import FieldCamera.Proofs.Device.Store
import FieldCamera.Proofs.Setup.Serving
/-!
# A node from boot to boot

What a node does in given surroundings is taken apart at its steps. A node that has been set up
works for the configuration in its store (`within_run_of_isConfigured`), and any other one serves
its portal first and works for what the last visit has saved (`within_run_of_not_isConfigured`).
Either way the uploads are made for the configuration that the next boot finds
(`run_works_for_stored`).
-/

namespace FieldCamera.Node

open Activity

/-- The store that settings name in surroundings. -/
def storeIn (s : Settings) (w : Surroundings) : RecordFiles :=
  ⟨w.files, s.device.recordPath, s.device.configuredFlagPath⟩

variable {s : Settings} {w : Surroundings} {device : Device}

theorem within_lookAtStore (s : Settings) (w : Surroundings) :
    (lookAtStore s.device).within w = (storeIn s w, w) := rfl

/-- An enrolment leaves no traces. -/
theorem within_enrol (s : Settings) (device : Device) (w : Surroundings) :
    ((enrol s device).within w).2 = w := by
  unfold enrol
  split <;> rfl

/-- A node works in rounds of posts, whatever comes of its enrolment. -/
theorem within_work (s : Settings) (device : Device) (w : Surroundings) :
    let (tally, uplink) := Upload.runRounds (sender s) (pace s) w.stamp
      (Upload.frameFromFile w.files s.capture.imagePath) device w.signal w.now w.uplink w.wins
    (work s device).within w = ((), { w with uplink := uplink, now := tally.now }) := by
  dsimp only
  rw [work, bind_eq, within_bind, within_enrol]
  rfl

/-- The portal is served with what the store holds. -/
theorem within_servePortal {address : SocketAddress}
    (hlisten : Setup.Listener.bind w.refusal s.portal.bindAddress = .ok address)
    (hload : Store.loadDevice (storeIn s w) = .ok device) :
    let served := (⟨device, storeIn s w, w.token⟩ : Setup.Portal RecordFiles).serve
      (.ofSettings s.portal) w.now w.clients
    (servePortal s).within w =
      (.ok (if served.isDone then some served.portal.device else none),
        w.afterServing served) := by
  simp only [servePortal, bind_eq, within_bind, within, hlisten, within_lookAtStore, hload]
  rfl

theorem within_servePortal_of_error {cause : Setup.Listener.Fault}
    (hlisten : Setup.Listener.bind w.refusal s.portal.bindAddress = .error cause) :
    (servePortal s).within w = (.error (.listener cause), w) := by
  simp only [servePortal, bind_eq, within_bind, within, hlisten]
  rfl

/-- A node that has been set up works for what its store holds. -/
theorem within_run_of_isConfigured (hset : Store.isConfigured (storeIn s w) = true)
    (hload : Store.loadDevice (storeIn s w) = .ok device) :
    (run s).within w = (.ok (), ((work s device).within w).2) := by
  simp only [run, bind_eq, within_bind, within_lookAtStore, hset, if_true, hload]
  rfl

/-- Any other node opens its portal, and works for what has been saved there. -/
theorem within_run_of_not_isConfigured (hunset : Store.isConfigured (storeIn s w) = false) :
    (run s).within w =
      match (servePortal s).within w with
      | (.error fault, w) => (.error fault, w)
      | (.ok none, w) => (.ok (), w)
      | (.ok (some device), w) => (.ok (), ((work s device).within w).2) := by
  rcases hserve : (servePortal s).within w with ⟨fault | none | device, w'⟩ <;>
    simp only [run, bind_eq, within_bind, within_lookAtStore, hunset, Bool.false_eq_true, if_false,
      hserve] <;> rfl

/-- The work of a node leaves its files as they are. -/
theorem files_work (s : Settings) (device : Device) (w : Surroundings) :
    ((work s device).within w).2.files = w.files := by
  rw [within_work]

theorem files_run {start : Surroundings}
    (h : (run s).within w = (.ok (), ((work s device).within start).2)) :
    ((run s).within w).2.files = start.files := by
  rw [h, files_work]

theorem storeIn_eq {store : RecordFiles} (hfiles : w.files = store.files)
    (hrecord : store.recordPath = s.device.recordPath)
    (hflag : store.flagPath = s.device.configuredFlagPath) : storeIn s w = store := by
  rw [storeIn, hfiles, ← hrecord, ← hflag]

theorem storeIn_congr {w' : Surroundings} (h : w'.files = w.files) : storeIn s w' = storeIn s w :=
  storeIn_eq h rfl rfl

/-- Every boot among these files goes to work for the device at once. -/
def SetUpFor (s : Settings) (device : Device) (files : Files) : Prop :=
  ∀ w : Surroundings, w.files = files →
    (run s).within w = (.ok (), ((work s device).within w).2)

theorem setUpFor_of_isConfigured (hset : Store.isConfigured (storeIn s w) = true)
    (hload : Store.loadDevice (storeIn s w) = .ok device) : SetUpFor s device w.files := by
  intro next hnext
  have hsame : storeIn s next = storeIn s w := storeIn_congr hnext
  exact within_run_of_isConfigured (hsame ▸ hset) (hsame ▸ hload)

section Boots

variable {record flag : Files.Place} {found : Option Record} {configured : Bool}

/-- Just when the portal is done, the device is set up with the configuration that it shows. Until
then everyone who calls is received. -/
theorem stage_serve (h : RecordFiles.Holds record flag found false (storeIn s w))
    (hload : Store.loadDevice (storeIn s w) = .ok device) :
    let served := (⟨device, storeIn s w, w.token⟩ : Setup.Portal RecordFiles).serve
      (.ofSettings s.portal) w.now w.clients
    let store := storeIn s (w.afterServing served)
    Store.isConfigured store = served.isDone ∧
      Store.loadDevice store = .ok served.portal.device ∧
      (served.isDone = false → (w.afterServing served).clients = []) := by
  intro served store
  have hall (hgoes : served.isDone = false) : (w.afterServing served).clients = [] := by
    obtain ⟨before, -, ⟨hdone, -⟩ | ⟨-, hvisits, hlength⟩⟩ :=
      Setup.Portal.visits_serve ⟨device, storeIn s w, w.token⟩ (.ofSettings s.portal) w.now
        w.clients
    · exact absurd (hdone.symm.trans hgoes) Bool.noConfusion
    · rw [Surroundings.afterServing, hvisits, hlength, List.drop_length]
  obtain ⟨hlast, -⟩ := Setup.Portal.Stage.serve
    (RecordFiles.keeps s.device.recordPath s.device.configuredFlagPath)
    (p := ⟨device, storeIn s w, w.token⟩)
    ⟨⟨⟨rfl, rfl, found, false, h⟩, hload⟩, h.isConfigured_eq, Bool.noConfusion⟩
    (.ofSettings s.portal) w.now w.clients
  obtain ⟨hrecord, hflag, -⟩ := hlast.sound
  rw [show store = served.portal.store from storeIn_eq rfl hrecord hflag]
  exact ⟨hlast.marked, hlast.shown, hall⟩

/-- The life of a node whose record and marker have places of their own. As long as no configuration
has been saved, nothing is posted; if the portal can be opened at all, everyone who calls is
received then. Else all posts are made for the configuration with which every later boot goes to
work at once, and nothing but the portal has changed the surroundings before. -/
theorem run_works_for_stored (h : RecordFiles.Holds record flag found configured (storeIn s w)) :
    let after := ((run s).within w).2
    (Store.isConfigured (storeIn s after) = false ∧ after.uplink = w.uplink ∧
        ((∃ cause, (run s).within w = (.error (.listener cause), w)) ∨
          (run s).within w = (.ok (), after) ∧ after.clients = [])) ∨
      ∃ device clients visits now,
        let start := { w with
          files := after.files, clients := clients, visits := visits, now := now }
        SetUpFor s device after.files ∧
          (run s).within w = (.ok (), ((work s device).within start).2) := by
  intro after
  cases configured with
  | true =>
      have hrun := within_run_of_isConfigured h.isConfigured_eq h.loadDevice_eq
      rw [show after.files = w.files from files_run hrun]
      exact .inr ⟨_, w.clients, w.visits, w.now,
        setUpFor_of_isConfigured h.isConfigured_eq h.loadDevice_eq, hrun⟩
  | false =>
      have hrun := within_run_of_not_isConfigured h.isConfigured_eq
      cases hlisten : Setup.Listener.bind w.refusal s.portal.bindAddress with
      | error cause =>
          rw [within_servePortal_of_error hlisten] at hrun
          rw [show after = w from congrArg Prod.snd hrun]
          exact .inl ⟨h.isConfigured_eq, rfl, .inl ⟨cause, hrun⟩⟩
      | ok address =>
          rw [within_servePortal hlisten h.loadDevice_eq] at hrun
          obtain ⟨hmarked, hload, hall⟩ := stage_serve h h.loadDevice_eq
          generalize Setup.Portal.serve (σ := RecordFiles) _ _ _ _ = served
            at hrun hmarked hload hall
          cases hdone : served.isDone with
          | false =>
              simp only [hdone, Bool.false_eq_true, if_false] at hrun
              rw [show after = w.afterServing served from congrArg Prod.snd hrun]
              exact .inl ⟨hmarked.trans hdone, rfl, .inr ⟨hrun, hall hdone⟩⟩
          | true =>
              simp only [hdone, if_true] at hrun
              rw [show after.files = (w.afterServing served).files from files_run hrun]
              exact .inr ⟨_, (w.afterServing served).clients, (w.afterServing served).visits,
                served.now, setUpFor_of_isConfigured (hmarked.trans hdone) hload, hrun⟩

end Boots

end FieldCamera.Node
