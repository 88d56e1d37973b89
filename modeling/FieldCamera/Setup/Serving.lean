import FieldCamera.Setup.Visit
/-!
# Serving clients

The portal receives one client after another and is done with the first visit that saves a
configuration; those who would come later find nobody.
-/

namespace FieldCamera.Setup

open Link

/-- What came of serving: the portal as it was left, and the visits in their order. -/
structure Serving (σ : Type) where
  portal : Portal σ
  visits : List (Visit σ)
  now : Nat

/-- Whether a configuration was saved. -/
def Serving.isDone {σ : Type} (s : Serving σ) : Bool :=
  s.visits.any (·.stops)

/-- Receives clients from `now` on, as long as nothing has been saved. -/
def Portal.serve {σ : Type} [Store σ] (p : Portal σ) (patience : Patience) (now : Nat) :
    List Stream → Serving σ
  | [] => ⟨p, [], now⟩
  | client :: clients =>
    let visit := p.receive patience now client
    if visit.stops then ⟨visit.portal, [visit], visit.now⟩
    else
      let rest := visit.portal.serve patience visit.now clients
      { rest with visits := visit :: rest.visits }

end FieldCamera.Setup
