import FieldCamera.Proofs.Text.Blank
import FieldCamera.Proofs.Text.Occurrence
import FieldCamera.Setup.Halves
/-!
# Joining the halves that the form shows

The form shows a URL as the two halves around its last slash past the scheme, and joining trims each
half and drops a slash at the seam. So a URL whose halves have blanks at their ends, or a slash
where they meet, loses characters each time that its halves are sent back, and any other comes back
as it was (`joinUrl_splitUrl_iff`).
-/

namespace FieldCamera.Setup

/-- A text that joining takes over whole as a server. -/
structure IsServer (cs : List Char) : Prop where
  bare : Text.Bare cs
  open_end : cs.getLast? ≠ some '/'

instance (cs : List Char) : Decidable (IsServer cs) :=
  decidable_of_iff (Text.Bare cs ∧ cs.getLast? ≠ some '/')
    ⟨fun h => ⟨h.1, h.2⟩, fun h => ⟨h.bare, h.open_end⟩⟩

/-- A text that joining takes over whole as an endpoint without slashes. -/
structure IsEndpoint (cs : List Char) : Prop where
  bare : Text.Bare cs
  given : cs ≠ []

/-- A URL that is shown in halves as it is: either no slash has more than seven bytes before it and
the whole URL is shown as a server, or the last slash has a server before it and an endpoint behind
it. -/
inductive Settled : List Char → Prop
  | whole {url : List Char}
      (short : ∀ server endpoint, url = server ++ '/' :: endpoint → '/' ∉ endpoint →
        Utf8.size server ≤ 7)
      (server : IsServer url) : Settled url
  | halves {server endpoint : List Char} (long : 7 < Utf8.size server) (last : '/' ∉ endpoint)
      (whole_server : IsServer server) (whole_endpoint : IsEndpoint endpoint) :
      Settled (server ++ '/' :: endpoint)

theorem dropSlash_sublist (cs : List Char) : (dropSlash cs).Sublist cs := by
  unfold dropSlash
  split
  · exact List.sublist_cons_self ..
  · exact List.Sublist.refl _

theorem dropSlash_eq_self_iff {cs : List Char} : dropSlash cs = cs ↔ cs.head? ≠ some '/' := by
  unfold dropSlash
  split
  · simp
  · rename_i hfirst
    refine iff_of_true rfl fun hhead => ?_
    obtain ⟨rest, rfl⟩ := List.head?_eq_some_iff.1 hhead
    exact hfirst rest rfl

theorem dropLastSlash_sublist (cs : List Char) : (dropLastSlash cs).Sublist cs := by
  rw [dropLastSlash, ← List.reverse_sublist, List.reverse_reverse]
  exact dropSlash_sublist _

theorem dropLastSlash_eq_self_iff {cs : List Char} :
    dropLastSlash cs = cs ↔ cs.getLast? ≠ some '/' := by
  rw [dropLastSlash, List.reverse_eq_iff, ← List.head?_reverse]
  exact dropSlash_eq_self_iff

section Taken

/-- What joining takes of a server. -/
theorem serverPart_sublist (cs : List Char) : (dropLastSlash (Text.trim cs)).Sublist cs :=
  (dropLastSlash_sublist _).trans (Text.trim_sublist cs)

theorem serverPart_eq_self_iff {cs : List Char} :
    dropLastSlash (Text.trim cs) = cs ↔ IsServer cs := by
  constructor
  · intro h
    have htrim : Text.trim cs = cs := by
      apply (Text.trim_sublist cs).eq_of_length_le
      calc
        cs.length = (dropLastSlash (Text.trim cs)).length := by rw [h]
        _ ≤ (Text.trim cs).length := (dropLastSlash_sublist _).length_le
    rw [htrim] at h
    exact ⟨Text.trim_eq_self_iff.1 htrim, dropLastSlash_eq_self_iff.1 h⟩
  · intro h
    rw [Text.trim_eq_self_iff.2 h.bare, dropLastSlash_eq_self_iff.2 h.open_end]

/-- What joining takes of an endpoint. -/
theorem endpointPart_sublist (cs : List Char) : (dropSlash (Text.trim cs)).Sublist cs :=
  (dropSlash_sublist _).trans (Text.trim_sublist cs)

theorem endpointPart_eq_self_iff {cs : List Char} (hlast : '/' ∉ cs) :
    dropSlash (Text.trim cs) = cs ↔ Text.Bare cs := by
  have hfirst : (Text.trim cs).head? ≠ some '/' := fun hhead =>
    hlast ((Text.trim_sublist cs).subset (List.mem_of_mem_head? hhead))
  rw [dropSlash_eq_self_iff.2 hfirst, Text.trim_eq_self_iff]

end Taken

/-- Joining only leaves characters out. -/
theorem joinHalves_sublist (server endpoint : List Char) :
    (joinHalves server endpoint).Sublist (server ++ '/' :: endpoint) := by
  unfold joinHalves
  dsimp only
  split
  · exact (serverPart_sublist server).append ((endpointPart_sublist endpoint).cons_cons '/')
  · exact (serverPart_sublist server).trans (List.sublist_append_left ..)

theorem joinHalves_nil (server : List Char) :
    joinHalves server [] = dropLastSlash (Text.trim server) := by
  rw [joinHalves]
  exact if_neg fun hgiven => hgiven.2 rfl

/-- Two halves are joined without a loss exactly if both are taken over whole. -/
theorem joinHalves_eq_iff {server endpoint : List Char} (hserver : server ≠ [])
    (hlast : '/' ∉ endpoint) :
    joinHalves server endpoint = server ++ '/' :: endpoint ↔
      IsServer server ∧ IsEndpoint endpoint := by
  have hserverPart := (serverPart_sublist server).length_le
  have hendpointPart := (endpointPart_sublist endpoint).length_le
  constructor
  · intro h
    unfold joinHalves at h
    dsimp only at h
    split at h
    · rename_i hgiven
      have hlength := congrArg List.length h
      simp only [List.length_append, List.length_cons] at hlength
      have hserver := (serverPart_sublist server).eq_of_length (by omega)
      have hendpoint := (endpointPart_sublist endpoint).eq_of_length (by omega)
      refine ⟨serverPart_eq_self_iff.1 hserver, ?_, ?_⟩
      · exact (endpointPart_eq_self_iff hlast).1 hendpoint
      · rw [← hendpoint]
        exact hgiven.2
    · rw [h] at hserverPart
      simp only [List.length_append, List.length_cons] at hserverPart
      omega
  · rintro ⟨hwhole, hbare, hgiven⟩
    rw [joinHalves, serverPart_eq_self_iff.2 hwhole, (endpointPart_eq_self_iff hlast).2 hbare]
    exact if_pos ⟨hserver, hgiven⟩

/-- The halves of a URL: those around its last slash, if that has more than seven bytes before it,
or else the whole URL and nothing. -/
theorem splitHalves_cases (url : List Char) :
    (∃ server endpoint, url = server ++ '/' :: endpoint ∧ '/' ∉ endpoint ∧
      7 < Utf8.size server ∧ splitHalves url = (server, endpoint)) ∨
    ((∀ server endpoint, url = server ++ '/' :: endpoint → '/' ∉ endpoint →
      Utf8.size server ≤ 7) ∧ splitHalves url = (url, [])) := by
  rw [splitHalves]
  cases hcut : Text.cutLast '/' url with
  | none =>
      refine .inr ⟨fun server endpoint heq _ => ?_, rfl⟩
      rw [Text.cutLast_eq_none_iff, heq] at hcut
      simp at hcut
  | some halves =>
      obtain ⟨server, endpoint⟩ := halves
      obtain ⟨heq, hlast⟩ := Text.cutLast_eq_some_iff.1 hcut
      dsimp only
      split
      · rename_i hlong
        exact .inl ⟨server, endpoint, heq, hlast, hlong, rfl⟩
      · rename_i hshort
        refine .inr ⟨fun server' endpoint' heq' hlast' => ?_, rfl⟩
        obtain ⟨rfl, rfl⟩ : server' = server ∧ endpoint' = endpoint := by
          simpa [hcut] using (Text.cutLast_eq_some_iff.2 ⟨heq', hlast'⟩).symm
        omega

theorem settled_iff_of_long {server endpoint : List Char} (hlast : '/' ∉ endpoint)
    (hlong : 7 < Utf8.size server) :
    Settled (server ++ '/' :: endpoint) ↔ IsServer server ∧ IsEndpoint endpoint := by
  constructor
  · intro h
    generalize hurl : server ++ '/' :: endpoint = url at h
    cases h with
    | whole short _ =>
        have := short server endpoint hurl.symm hlast
        omega
    | @halves server' endpoint' _ hlast' hserver hendpoint =>
        have hcut := Text.cutLast_append hlast server
        rw [hurl, Text.cutLast_append hlast'] at hcut
        obtain ⟨rfl, rfl⟩ := Prod.mk.inj (Option.some.inj hcut)
        exact ⟨hserver, hendpoint⟩
  · rintro ⟨hserver, hendpoint⟩
    exact .halves hlong hlast hserver hendpoint

theorem settled_iff_of_short {url : List Char}
    (hshort : ∀ server endpoint, url = server ++ '/' :: endpoint → '/' ∉ endpoint →
      Utf8.size server ≤ 7) : Settled url ↔ IsServer url := by
  refine ⟨fun h => ?_, .whole hshort⟩
  cases h with
  | whole _ server => exact server
  | @halves server endpoint long last _ _ =>
      have := hshort server endpoint rfl last
      omega

theorem joinHalves_splitHalves_iff (url : List Char) :
    joinHalves (splitHalves url).1 (splitHalves url).2 = url ↔ Settled url := by
  obtain ⟨server, endpoint, rfl, hlast, hlong, hsplit⟩ | ⟨hshort, hsplit⟩ := splitHalves_cases url
  · have hserver : server ≠ [] := by
      rintro rfl
      simp [Utf8.size] at hlong
    rw [hsplit, joinHalves_eq_iff hserver hlast, settled_iff_of_long hlast hlong]
  · rw [hsplit, joinHalves_nil, serverPart_eq_self_iff, settled_iff_of_short hshort]

theorem joinHalves_splitHalves_sublist (url : List Char) :
    (joinHalves (splitHalves url).1 (splitHalves url).2).Sublist url := by
  obtain ⟨server, endpoint, rfl, -, -, hsplit⟩ | ⟨-, hsplit⟩ := splitHalves_cases url
  · rw [hsplit]
    exact joinHalves_sublist server endpoint
  · rw [hsplit, joinHalves_nil]
    exact serverPart_sublist url

/-- The URL that is stored when the form is sent back with the halves that it shows. -/
def resent (url : String) : String :=
  joinUrl (splitUrl url).1 (splitUrl url).2

/-- A URL that was stored comes back from the halves that the form shows for it exactly if it is
settled. Any other comes back with characters left out. -/
theorem joinUrl_splitUrl_iff (server endpoint : String) :
    (resent (joinUrl server endpoint) = joinUrl server endpoint ↔
      Settled (joinUrl server endpoint).toList) ∧
    (resent (joinUrl server endpoint)).toList.Sublist (joinUrl server endpoint).toList := by
  generalize joinUrl server endpoint = url
  have hresent : (resent url).toList =
      joinHalves (splitHalves url.toList).1 (splitHalves url.toList).2 := by
    simp only [resent, joinUrl, splitUrl, String.toList_ofList]
  rw [← String.toList_inj, hresent]
  exact ⟨joinHalves_splitHalves_iff _, joinHalves_splitHalves_sublist _⟩

/-- An endpoint that ends in a slash is stored with it and comes back without it. -/
theorem joinUrl_splitUrl_drops_slash :
    joinUrl "http://h" "upload/" = "http://h/upload/" ∧
      splitUrl "http://h/upload/" = ("http://h/upload", "") ∧
      resent (joinUrl "http://h" "upload/") ≠ joinUrl "http://h" "upload/" := by
  decide +kernel

end FieldCamera.Setup
