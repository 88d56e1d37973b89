import FieldCamera.Proofs.Setup.Fields
import FieldCamera.Setup.Portal
/-!
# Who may set the portal up

A request is admitted if it is for the save path and submits a form of which the first `session`
means the token, and the token is not empty (`Admitted`). Any other request is answered with the
page as it stands and leaves the portal as it was, whatever its store would do
(`answer_guarded`).
-/

namespace FieldCamera.Setup

/-- A request whose target begins with the save path, up to its first question mark. -/
def IsForSaving (r : Request) : Prop :=
  "/save".toList <+: r.target.toList.takeWhile (· != '?')

/-- The form that a request submits: the body of a POST, what a GET puts behind the save path and a
question mark, and nothing otherwise. -/
inductive Submits : Request → String → Prop
  | body {r : Request} (post : r.method = .post) : Submits r r.body
  | query {r : Request} {form : String} (get : r.method = .get)
      (target : r.target = "/save?" ++ form) : Submits r form
  | nothing {r : Request} (post : r.method ≠ .post)
      (query : r.method = .get → ∀ form, r.target ≠ "/save?" ++ form) : Submits r ""

/-- A request with this form that may set up a portal of this token. -/
structure Admitted (token : Token) (r : Request) (form : String) : Prop where
  saving : IsForSaving r
  submits : Submits r form
  form_given : form ≠ ""
  token_given : token.text ≠ ""
  session : ∃ value, FirstValue "session" form value ∧ Means value token.text

theorem asksToSave_iff (r : Request) : asksToSave r = true ↔ IsForSaving r := by
  rw [asksToSave, List.isPrefixOf_iff_prefix, Request.path, String.toList_ofList,
    Text.before_eq_takeWhile]
  exact Iff.rfl

theorem dropStart?_target_iff {target form : String} :
    Text.dropStart? (savePath.toList ++ ['?']) target.toList = some form.toList ↔
      target = "/save?" ++ form := by
  have hstart : "/save?".toList = savePath.toList ++ ['?'] := by simp [savePath]
  rw [Text.dropStart?_eq_some_iff, ← hstart, ← String.toList_append, String.toList_inj]

theorem submission_query {r : Request} {form : String} (get : r.method = .get)
    (target : r.target = "/save?" ++ form) : submission r = form := by
  simp only [submission, get, dropStart?_target_iff.2 target, Option.getD_some,
    String.ofList_toList]

theorem submission_nothing {r : Request} (post : r.method ≠ .post)
    (query : r.method = .get → ∀ form, r.target ≠ "/save?" ++ form) : submission r = "" := by
  cases hmethod : r.method with
  | post => exact absurd hmethod post
  | other token => simp only [submission, hmethod]
  | get =>
      have hnone : Text.dropStart? (savePath.toList ++ ['?']) r.target.toList = none := by
        rw [Option.eq_none_iff_forall_ne_some]
        intro rest hrest
        rw [← String.toList_ofList (l := rest), dropStart?_target_iff] at hrest
        exact query hmethod _ hrest
      simp only [submission, hmethod, hnone, Option.getD_none, String.ofList_nil]

theorem submits_submission (r : Request) : Submits r (submission r) := by
  cases hmethod : r.method with
  | post =>
      have hbody : submission r = r.body := by simp only [submission, hmethod]
      rw [hbody]
      exact .body hmethod
  | other token =>
      have hget : r.method = .get → ∀ form, r.target ≠ "/save?" ++ form := by simp [hmethod]
      have hpost : r.method ≠ .post := by simp [hmethod]
      rw [submission_nothing hpost hget]
      exact .nothing hpost hget
  | get =>
      by_cases h : ∃ form, r.target = "/save?" ++ form
      · obtain ⟨form, htarget⟩ := h
        rw [submission_query hmethod htarget]
        exact .query hmethod htarget
      · have hpost : r.method ≠ .post := by simp [hmethod]
        have hget : r.method = .get → ∀ form, r.target ≠ "/save?" ++ form :=
          fun _ form htarget => h ⟨form, htarget⟩
        rw [submission_nothing hpost hget]
        exact .nothing hpost hget

/-- A request submits one form. -/
theorem submits_iff {r : Request} {form : String} : Submits r form ↔ form = submission r := by
  refine ⟨fun h => ?_, fun h => h ▸ submits_submission r⟩
  cases h with
  | body post => simp only [submission, post]
  | query get target => exact (submission_query get target).symm
  | nothing post query => exact (submission_nothing post query).symm

theorem admits_iff (token : Token) (form : String) :
    token.admits (field form "session") = true ↔
      token.text ≠ "" ∧ ∃ value, FirstValue "session" form value ∧ Means value token.text := by
  have hname : '=' ∉ "session".toList := by simp
  rw [Token.admits, Bool.and_eq_true, decide_eq_true_iff, beq_iff_eq]
  constructor
  · rintro ⟨hne, heq⟩
    rw [heq] at hne
    exact ⟨hne, (field_eq_iff hname hne).1 heq⟩
  · rintro ⟨hne, hsession⟩
    have heq := (field_eq_iff hname hne).2 hsession
    exact ⟨heq ▸ hne, heq⟩

theorem passes_iff (r : Request) :
    (!asksToSave r || submission r == "") = true ↔ ¬(IsForSaving r ∧ submission r ≠ "") := by
  rw [← asksToSave_iff]
  cases asksToSave r <;> simp

section Answers

variable {σ : Type} [Store σ] {p : Portal σ} {r : Request}

theorem answer_eq_form (hasked : ¬(IsForSaving r ∧ submission r ≠ "")) :
    p.answer r = (p.present .form, p) := by
  unfold Portal.answer
  dsimp only
  rw [if_pos ((passes_iff r).2 hasked)]

theorem answer_eq_rejected (hasked : IsForSaving r ∧ submission r ≠ "")
    (hadmits : ¬p.token.admits (field (submission r) "session") = true) :
    p.answer r = (p.present .rejected, p) := by
  unfold Portal.answer
  dsimp only
  rw [if_neg fun h => (passes_iff r).1 h hasked, if_neg hadmits]

theorem answer_eq_accept (hasked : IsForSaving r ∧ submission r ≠ "")
    (hadmits : p.token.admits (field (submission r) "session") = true) :
    p.answer r = p.accept (submission r) := by
  unfold Portal.answer
  dsimp only
  rw [if_neg fun h => (passes_iff r).1 h hasked, if_pos hadmits]

end Answers

/-- A request that is not admitted is answered in one way, whatever the operations of the store
are: with the page as it stands, no stop, and the portal as it was. Only the route tells whether it
asked to save. -/
theorem answer_guarded {σ : Type} (p : Portal σ) (r : Request) :
    ∃ form, (∀ other, Submits r other ↔ other = form) ∧
      (Admitted p.token r form → ∀ _ : Store σ, p.answer r = p.accept form) ∧
      (¬Admitted p.token r form → ∃ route,
        (∀ _ : Store σ, p.answer r = (⟨page p.device p.token false, route, false⟩, p)) ∧
        (route = .rejected ↔ IsForSaving r ∧ form ≠ "") ∧
        (route = .form ↔ ¬(IsForSaving r ∧ form ≠ ""))) := by
  refine ⟨submission r, fun other => submits_iff, fun hadmitted => ?_, fun hnot => ?_⟩
  · intro _
    apply answer_eq_accept
    · exact ⟨hadmitted.saving, hadmitted.form_given⟩
    · exact (admits_iff _ _).2 ⟨hadmitted.token_given, hadmitted.session⟩
  · by_cases hasked : IsForSaving r ∧ submission r ≠ ""
    · have hadmits : ¬p.token.admits (field (submission r) "session") = true := by
        intro hadmits
        obtain ⟨htoken, hsession⟩ := (admits_iff _ _).1 hadmits
        exact hnot ⟨hasked.1, submits_submission r, hasked.2, htoken, hsession⟩
      refine ⟨.rejected, ?_, by simp [hasked], by simp [hasked]⟩
      intro _
      exact answer_eq_rejected hasked hadmits
    · refine ⟨.form, ?_, by simp [hasked], by simp [hasked]⟩
      intro _
      exact answer_eq_form hasked

/-- Only the first `session` counts, and it may be escaped. -/
example :
    let p : Portal Memory := ⟨{}, {}, ⟨"t"⟩⟩
    (p.answer ⟨.post, "/save.html", "session=x&session=t", 19⟩).1.route = .rejected ∧
      (p.answer ⟨.post, "/save.html", "session=%74&session=x", 21⟩).1.route = .saved := by
  decide +kernel

end FieldCamera.Setup
