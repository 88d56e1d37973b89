import FieldCamera.Proofs.Setup.Turns
import FieldCamera.Proofs.Setup.Visits
import FieldCamera.Setup.Serving
/-!
# Serving up to the first save

A portal is served from visit to visit, each with the portal as the visit before has left it, and
serving ends with the first visit that saves a configuration (`Portal.serve_append`,
`Portal.visits_serve`). Until then the device is not set up; from then on it is, and the store holds
just the configuration that the portal shows (`Portal.Stage.serve`).
-/

namespace FieldCamera.Setup

open Link

variable {σ : Type}

/-- The same serving with some visits before it. -/
def Serving.behind (visits : List (Visit σ)) (s : Serving σ) : Serving σ :=
  { s with visits := visits ++ s.visits }

theorem Serving.isDone_behind {visit : Visit σ} (h : visit.stops = false) (s : Serving σ) :
    (s.behind [visit]).isDone = s.isDone := by
  simp [isDone, behind, h]

namespace Portal

variable [Store σ]

section Rows

variable {p : Portal σ} {patience : Patience} {now : Nat} {client : Stream}

theorem serve_cons_of_stops (h : (p.receive patience now client).stops = true)
    (clients : List Stream) :
    let v := p.receive patience now client
    p.serve patience now (client :: clients) = ⟨v.portal, [v], v.now⟩ := by
  intro v
  rw [serve, if_pos h]

theorem serve_cons_of_not_stops (h : (p.receive patience now client).stops = false)
    (clients : List Stream) :
    let v := p.receive patience now client
    p.serve patience now (client :: clients) =
      (v.portal.serve patience v.now clients).behind [v] := by
  intro v
  rw [serve, if_neg (Bool.eq_false_iff.1 h)]
  rfl

/-- Serving can be cut between any two clients. Who comes behind a save finds nobody, and who comes
behind clients that saved nothing meets the portal as it was left. -/
theorem serve_append (p : Portal σ) (patience : Patience) (now : Nat) (first rest : List Stream) :
    let served := p.serve patience now first
    p.serve patience now (first ++ rest) =
      if served.isDone then served
      else (served.portal.serve patience served.now rest).behind served.visits := by
  induction first generalizing p now with
  | nil => rfl
  | cons client first ih =>
      rw [List.cons_append]
      cases hstops : (p.receive patience now client).stops with
      | true => simp [serve_cons_of_stops hstops, Serving.isDone, hstops]
      | false =>
          simp only [serve_cons_of_not_stops hstops, Serving.isDone_behind hstops, ih]
          split <;> rfl

/-- No visit saves a configuration but the last one, which hands over its portal. If that does not
save one either, no client is left. -/
theorem visits_serve (p : Portal σ) (patience : Patience) (now : Nat) (clients : List Stream) :
    let served := p.serve patience now clients
    ∃ before : List (Visit σ), (∀ v ∈ before, v.stops = false) ∧
      ((served.isDone = true ∧ ∃ last, last.stops = true ∧ last.portal = served.portal ∧
          served.visits = before ++ [last]) ∨
        (served.isDone = false ∧ served.visits = before ∧ before.length = clients.length)) := by
  induction clients generalizing p now with
  | nil => exact ⟨[], by simp, .inr ⟨rfl, rfl, rfl⟩⟩
  | cons client clients ih =>
      cases hstops : (p.receive patience now client).stops with
      | true =>
          refine ⟨[], by simp, .inl ⟨?_, p.receive patience now client, hstops, ?_⟩⟩
          · simp [serve_cons_of_stops hstops, Serving.isDone, hstops]
          · rw [serve_cons_of_stops hstops]
            exact ⟨rfl, rfl⟩
      | false =>
          obtain ⟨before, hbefore, hend⟩ :=
            ih (p.receive patience now client).portal (p.receive patience now client).now
          refine ⟨p.receive patience now client :: before,
            List.forall_mem_cons.2 ⟨hstops, hbefore⟩, ?_⟩
          simp only [serve_cons_of_not_stops hstops, Serving.isDone_behind hstops]
          obtain ⟨hdone, last, hlast, hportal, hvisits⟩ | ⟨hgoes, hvisits, hlength⟩ := hend
          · exact .inl ⟨hdone, last, hlast, hportal, congrArg _ hvisits⟩
          · exact .inr ⟨hgoes, congrArg _ hvisits, congrArg (· + 1) hlength⟩

end Rows

/-- A visit leaves the portal as it was, or as it answers one request. -/
theorem receive_cases (p : Portal σ) (patience : Patience) (now : Nat) (s : Stream) :
    let v := p.receive patience now s
    (v.portal = p ∧ v.stops = false) ∨
      ∃ request, v.stops = (p.answer request).1.stop ∧ v.portal = (p.answer request).2 := by
  intro v
  cases h : (hear patience (now + patience.requestMs) .start now s).request with
  | none =>
      left
      rw [show v = _ from receive_of_none p h]
      exact ⟨rfl, rfl⟩
  | some heard =>
      rw [show v = _ from receive_of_some p h]
      cases heard with
      | error fault => exact .inl ⟨rfl, rfl⟩
      | ok request => exact .inr ⟨request, rfl, rfl⟩

/-- How far a device has been set up: whether a configuration has been saved, which then is the one
that the portal shows. -/
structure Stage (Sound : σ → Prop) (isSaved : Bool) (p : Portal σ) : Prop
    extends InStep Sound p where
  marked : Store.isConfigured p.store = isSaved
  saved : isSaved = true → Store.load p.store = .ok (some p.device)

namespace Stage

variable {Sound : σ → Prop} {p : Portal σ}

/-- A request sets the device up just if its answer is the last one. -/
theorem answer (hkeeps : Store.Keeps Sound) (h : Stage Sound false p) (r : Request) :
    Stage Sound (p.answer r).1.stop (p.answer r).2 := by
  have hstep := h.toInStep.answer hkeeps r
  obtain ⟨route, -, hanswer⟩ | ⟨s, hsave, hanswer⟩ | ⟨s, t, hsave, hmark, hanswer⟩ :=
    p.answer_cases r
  · rw [hanswer]
    exact h
  · obtain ⟨-, -, hsame⟩ := hkeeps.save_device h.sound hsave
    rw [hanswer] at hstep ⊢
    exact ⟨hstep, hsame.trans h.marked, Bool.noConfusion⟩
  · obtain ⟨hsound, hload, -⟩ := hkeeps.save_device h.sound hsave
    obtain ⟨-, hkept, hmarked⟩ := hkeeps.mark_device hsound hmark
    rw [hanswer] at hstep ⊢
    exact ⟨hstep, hmarked, fun _ => hkept.trans hload⟩

/-- So does a visit. -/
theorem receive (hkeeps : Store.Keeps Sound) (h : Stage Sound false p) (patience : Patience)
    (now : Nat) (s : Stream) :
    Stage Sound (p.receive patience now s).stops (p.receive patience now s).portal := by
  obtain ⟨hportal, hstops⟩ | ⟨request, hstops, hportal⟩ := p.receive_cases patience now s
  · rw [hstops, hportal]
    exact h
  · rw [hstops, hportal]
    exact h.answer hkeeps request

/-- Serving sets the device up just if a visit saves a configuration. -/
theorem serve (hkeeps : Store.Keeps Sound) (h : Stage Sound false p) (patience : Patience)
    (now : Nat) (clients : List Stream) :
    let served := p.serve patience now clients
    Stage Sound served.isDone served.portal ∧
      ∀ v ∈ served.visits, Stage Sound v.stops v.portal := by
  induction clients generalizing p now with
  | nil => exact ⟨h, by simp [Portal.serve]⟩
  | cons client clients ih =>
      have hvisit := h.receive hkeeps patience now client
      cases hstops : (p.receive patience now client).stops with
      | true =>
          rw [serve_cons_of_stops hstops]
          simpa [Serving.isDone, hstops] using hvisit
      | false =>
          have hrest := ih (hstops ▸ hvisit) (p.receive patience now client).now
          simp only [serve_cons_of_not_stops hstops, Serving.isDone_behind hstops]
          exact ⟨hrest.1, List.forall_mem_cons.2 ⟨hvisit, hrest.2⟩⟩

end Stage

end Portal

end FieldCamera.Setup
