import FieldCamera.Proofs.Address.NormalForm
import FieldCamera.Proofs.Setup.Halves
/-!
# The server of a joined URL

An address is read from the first `://` of a URL. Where the server half of the form has one, the
endpoint comes behind it and is path only. A server half without a scheme leaves the mark to be
found in the endpoint, or at the seam, and then the endpoint names the host. In every other case
the joined URL leads to the server that was given (`ofUrl_joinUrl`).
-/

namespace FieldCamera.Address

/-- What may stand behind an authority: nothing, or a path. -/
def Rooted (tail : List Char) : Prop :=
  ∀ c ∈ tail.head?, c = '/'

/-- A path behind it does not change the authority. -/
theorem splitPath_fst_append {tail : List Char} (h : Rooted tail) (rest : List Char) :
    (splitPath (rest ++ tail)).1 = (splitPath rest).1 := by
  have htail : tail.takeWhile (fun c => !(c == '/')) = [] := by
    cases tail with
    | nil => rfl
    | cons c tail => simp [h c rfl]
  rw [splitPath_fst, splitPath_fst, List.takeWhile_append, htail, List.append_nil]
  split
  · rename_i hall
    exact ((List.takeWhile_prefix _).eq_of_length hall).symm
  · rfl

/-- Host and port depend on the scheme and the authority alone. -/
theorem ofUrl_of_same_authority {url url' : String} {scheme rest rest' : List Char}
    (hbegins : Begins scheme rest url.toList) (hbegins' : Begins scheme rest' url'.toList)
    (hsame : (splitPath rest').1 = (splitPath rest).1) {target : Address}
    (h : ofUrl url = .ok target) :
    ∃ target', ofUrl url' = .ok target' ∧ target'.host = target.host ∧
      target'.port = target.port := by
  rw [ofUrl_of_begins hbegins] at h
  simp only at h
  split at h
  · contradiction
  · rename_i hgiven
    obtain rfl := Except.ok.inj h
    refine ⟨⟨_, _, String.ofList (splitPath rest').2⟩, ?_, rfl, rfl⟩
    rw [ofUrl_of_begins hbegins', hsame]
    exact if_neg hgiven

/-- Something stands behind the scheme of a URL that is not refused. -/
theorem ne_nil_of_ofUrl {url : String} {scheme rest : List Char}
    (hbegins : Begins scheme rest url.toList) {target : Address} (h : ofUrl url = .ok target) :
    rest ≠ [] := by
  rintro rfl
  rw [ofUrl_of_begins hbegins] at h
  contradiction

/-- The host begins what stands behind the scheme. -/
theorem host_prefix_of_ofUrl {url : String} {scheme rest : List Char}
    (hbegins : Begins scheme rest url.toList) {target : Address} (h : ofUrl url = .ok target) :
    target.host.toList <+: rest := by
  rw [ofUrl_of_begins hbegins] at h
  simp only at h
  split at h
  · contradiction
  · obtain rfl := Except.ok.inj h
    rw [String.toList_ofList, splitPort_fst, splitPath_fst]
    exact (List.takeWhile_prefix _).trans (List.takeWhile_prefix _)

/-- A URL that holds the mark of a scheme begins with one. -/
theorem exists_begins_of_infix {url : List Char} (h : schemeMark <:+: url) :
    ∃ scheme rest, url = scheme ++ (schemeMark ++ rest) ∧ Begins scheme rest url := by
  have hbegins := begins_splitScheme url
  generalize (splitScheme url).1 = scheme, (splitScheme url).2 = rest at hbegins
  cases hbegins with
  | scheme first => exact ⟨_, _, rfl, .scheme first rest⟩
  | bare hnone => exact absurd h hnone

end FieldCamera.Address

namespace FieldCamera.Setup

open Address (schemeMark Begins Rooted)

/-- A text without the blanks at its ends. -/
def trimmed (s : String) : String :=
  String.ofList (Text.trim s.toList)

/-- What joining takes of a server. -/
def serverPart (server : String) : List Char :=
  dropLastSlash (Text.trim server.toList)

/-- What joining takes of an endpoint. -/
def endpointPart (endpoint : String) : List Char :=
  dropSlash (Text.trim endpoint.toList)

/-- The endpoint brings the mark of a scheme into the URL: it holds one, or makes one out of a colon
at the end of the server. -/
def BringsScheme (server endpoint : String) : Prop :=
  schemeMark <:+: endpointPart endpoint ∨
    (serverPart server).getLast? = some ':' ∧ (endpointPart endpoint).head? = some '/'

instance (server endpoint : String) : Decidable (BringsScheme server endpoint) :=
  inferInstanceAs (Decidable (_ ∨ _))

section Parts

theorem dropSlash_suffix (cs : List Char) : dropSlash cs <:+ cs := by
  unfold dropSlash
  split
  · exact List.suffix_cons _ _
  · exact List.suffix_refl _

theorem isInfix_trim (cs : List Char) : Text.trim cs <:+: cs := by
  have hend : Text.trim cs <+: Text.trimStart cs := by
    rw [Text.trim, Text.trimEnd, ← List.reverse_suffix, List.reverse_reverse]
    exact List.dropWhile_suffix _
  exact hend.isInfix.trans (List.dropWhile_suffix _).isInfix

theorem isInfix_endpointPart (endpoint : String) : endpointPart endpoint <:+: endpoint.toList :=
  (dropSlash_suffix _).isInfix.trans (isInfix_trim _)

/-- A server is taken whole, or without the slash at its end. -/
theorem serverPart_cases (server : String) :
    ((trimmed server).toList = serverPart server ∧ (serverPart server).getLast? ≠ some '/') ∨
      (trimmed server).toList = serverPart server ++ ['/'] := by
  rw [serverPart, trimmed, String.toList_ofList]
  by_cases hlast : (Text.trim server.toList).getLast? = some '/'
  · obtain ⟨front, hfront⟩ := List.getLast?_eq_some_iff.1 hlast
    rw [hfront]
    simp [dropLastSlash, dropSlash]
  · have hwhole := dropLastSlash_eq_self_iff.2 hlast
    exact .inl ⟨hwhole.symm, by rwa [hwhole]⟩

/-- A joined URL is the server, with the endpoint behind a slash if both are given. -/
theorem toList_joinUrl (server endpoint : String) :
    (joinUrl server endpoint).toList =
      if serverPart server ≠ [] ∧ endpointPart endpoint ≠ [] then
        serverPart server ++ '/' :: endpointPart endpoint
      else serverPart server :=
  String.toList_ofList

theorem exists_toList_joinUrl (server endpoint : String) :
    ∃ tail, Rooted tail ∧ (joinUrl server endpoint).toList = serverPart server ++ tail := by
  rw [toList_joinUrl]
  split
  · exact ⟨_, by simp [Rooted], rfl⟩
  · exact ⟨[], by simp [Rooted], (List.append_nil _).symm⟩

end Parts

section Seam

variable {server endpoint : List Char}

/-- The mark of a scheme that stands neither in the server nor across the slash behind it is brought
by the endpoint, and so is all that follows the mark. -/
theorem scheme_behind_seam (hserver : ¬schemeMark <:+: server ++ ['/']) {scheme rest : List Char}
    (h : scheme ++ (schemeMark ++ rest) = server ++ '/' :: endpoint) :
    rest <:+ endpoint ∧ (schemeMark <:+: endpoint ∨
      server.getLast? = some ':' ∧ endpoint.head? = some '/') := by
  obtain ⟨part, rfl, hmark⟩ | ⟨part, -, hmark⟩ := List.append_eq_append_iff.1 h
  · -- The mark begins in the server, where there is room for its colon and no more.
    obtain _ | ⟨c, _ | ⟨d, _ | ⟨e, part⟩⟩⟩ := part
    · simp [schemeMark] at hmark
    · obtain ⟨rfl, rfl⟩ : c = ':' ∧ endpoint = '/' :: rest := by
        simpa [schemeMark, eq_comm] using hmark
      exact ⟨List.suffix_cons _ _, .inr ⟨by simp, rfl⟩⟩
    · obtain ⟨rfl, rfl, -⟩ : c = ':' ∧ d = '/' ∧ endpoint = rest := by
        simpa [schemeMark, eq_comm] using hmark
      exact absurd ⟨scheme, [], by simp [schemeMark]⟩ hserver
    · obtain ⟨rfl, rfl, rfl, -⟩ : c = ':' ∧ d = '/' ∧ e = '/' ∧ part ++ '/' :: endpoint = rest := by
        simpa [schemeMark, eq_comm] using hmark
      exact absurd ⟨scheme, part ++ ['/'], by simp [schemeMark]⟩ hserver
  · cases part with
    | nil => simp [schemeMark] at hmark
    | cons c part =>
        have hendpoint : endpoint = part ++ schemeMark ++ rest := by
          simpa using (List.cons.inj hmark).2
        rw [hendpoint]
        exact ⟨List.suffix_append _ _, .inl ⟨part, rest, rfl⟩⟩

theorem scheme_infix_seam_iff (hserver : ¬schemeMark <:+: server ++ ['/']) :
    schemeMark <:+: server ++ '/' :: endpoint ↔ schemeMark <:+: endpoint ∨
      server.getLast? = some ':' ∧ endpoint.head? = some '/' := by
  constructor
  · rintro ⟨scheme, rest, h⟩
    exact (scheme_behind_seam hserver (by rw [← List.append_assoc, h])).2
  · rintro (hmark | ⟨hlast, hfirst⟩)
    · exact hmark.trans ((List.suffix_cons '/' endpoint).trans (List.suffix_append _ _)).isInfix
    · obtain ⟨front, rfl⟩ := List.getLast?_eq_some_iff.1 hlast
      obtain ⟨rest, rfl⟩ := List.head?_eq_some_iff.1 hfirst
      exact ⟨front, rest, by simp [schemeMark]⟩

end Seam

section Joined

variable {base endpoint : String} {target : Address}

/-- A server without a scheme has none either when its slash is put back. -/
theorem not_scheme_infix_serverPart (h : ¬schemeMark <:+: (trimmed base).toList) :
    ¬schemeMark <:+: serverPart base ++ ['/'] := by
  obtain ⟨hwhole, hlast⟩ | hslash := serverPart_cases base
  · rw [List.infix_concat_iff, ← hwhole]
    rintro (⟨front, hmark⟩ | hinfix)
    · have hend : (trimmed base).toList = front ++ [':', '/'] :=
        List.append_cancel_right (by rw [← hmark]; simp [schemeMark])
      rw [← hwhole, hend] at hlast
      simp at hlast
    · exact h hinfix
  · rwa [← hslash]

/-- A server that has a scheme keeps it, and all behind it but a slash at the end. -/
theorem serverPart_of_scheme {scheme rest : List Char}
    (h : (trimmed base).toList = scheme ++ (schemeMark ++ rest)) (hrest : rest ≠ []) :
    ∃ rest' tail, Rooted tail ∧ rest = rest' ++ tail ∧
      serverPart base = scheme ++ (schemeMark ++ rest') := by
  obtain ⟨hwhole, -⟩ | hslash := serverPart_cases base
  · exact ⟨rest, [], by simp [Rooted], (List.append_nil _).symm, by rw [← hwhole, h]⟩
  · obtain ⟨front, last, rfl⟩ := (List.eq_nil_or_concat rest).resolve_left hrest
    rw [List.concat_eq_append] at h ⊢
    rw [hslash, ← List.append_assoc, ← List.append_assoc] at h
    obtain ⟨hfront, hlast⟩ := List.append_inj' h rfl
    refine ⟨front, [last], ?_, rfl, by rw [hfront, List.append_assoc]⟩
    rw [← hlast]
    simp [Rooted]

theorem serverPart_append (base : String) :
    ∃ tail, Rooted tail ∧ (trimmed base).toList = serverPart base ++ tail := by
  obtain ⟨hwhole, -⟩ | hslash := serverPart_cases base
  · exact ⟨[], by simp [Rooted], by rw [hwhole, List.append_nil]⟩
  · exact ⟨['/'], by simp [Rooted], hslash⟩

/-- Nothing brings a scheme into the URL of a server without one but the endpoint. -/
theorem scheme_infix_joinUrl_iff (hbase : ¬schemeMark <:+: (trimmed base).toList)
    (hserver : serverPart base ≠ []) :
    schemeMark <:+: (joinUrl base endpoint).toList ↔ BringsScheme base endpoint := by
  have hslash := not_scheme_infix_serverPart hbase
  rw [toList_joinUrl, BringsScheme]
  split
  · exact scheme_infix_seam_iff hslash
  · rename_i habsent
    have hempty : endpointPart endpoint = [] := by
      by_contra hendpoint
      exact habsent ⟨hserver, hendpoint⟩
    have hfree : ¬schemeMark <:+: serverPart base := fun h =>
      hslash (h.trans (List.prefix_append _ _).isInfix)
    rw [hempty]
    refine iff_of_false hfree ?_
    simp [schemeMark]

theorem serverPart_ne_nil (h : Address.ofUrl (trimmed base) = .ok target) :
    serverPart base ≠ [] := by
  intro hempty
  have hrefused : Address.ofUrl "" = .error (.emptyHost "") ∧
      Address.ofUrl "/" = .error (.emptyHost "/") := by
    decide +kernel
  obtain ⟨hwhole, -⟩ | hslash := serverPart_cases base
  · have hbase : trimmed base = "" := String.toList_inj.1 (hwhole.trans hempty)
    rw [hbase, hrefused.1] at h
    contradiction
  · rw [hempty] at hslash
    have hbase : trimmed base = "/" := String.toList_inj.1 hslash
    rw [hbase, hrefused.2] at h
    contradiction

/-- A joined URL begins as its server does where the server has a scheme, or where the endpoint
brings none. -/
theorem begins_joinUrl {scheme rest : List Char}
    (hbegins : Begins scheme rest (trimmed base).toList) (hrest : rest ≠ [])
    (hserver : serverPart base ≠ [])
    (hscheme : schemeMark <:+: (trimmed base).toList ∨ ¬BringsScheme base endpoint) :
    ∃ rest', Begins scheme rest' (joinUrl base endpoint).toList ∧
      (Address.splitPath rest').1 = (Address.splitPath rest).1 := by
  obtain ⟨tail, htail, hjoined⟩ := exists_toList_joinUrl base endpoint
  generalize hurl : (trimmed base).toList = url at hbegins
  cases hbegins with
  | scheme first =>
      obtain ⟨rest', tail', htail', rfl, hpart⟩ := serverPart_of_scheme hurl hrest
      refine ⟨rest' ++ tail, ?_, ?_⟩
      · rw [hjoined, hpart, List.append_assoc, List.append_assoc]
        exact .scheme first _
      · rw [Address.splitPath_fst_append htail, Address.splitPath_fst_append htail']
  | bare hnone =>
      rw [← hurl] at hnone
      obtain ⟨tail', htail', hbase⟩ := serverPart_append base
      refine ⟨(joinUrl base endpoint).toList, .bare ?_, ?_⟩
      · rw [scheme_infix_joinUrl_iff hnone hserver]
        exact hscheme.resolve_left hnone
      · rw [← hurl, hjoined, hbase, Address.splitPath_fst_append htail,
          Address.splitPath_fst_append htail']

/-- What follows the mark of a scheme in the URL of a server without one is part of the endpoint. -/
theorem rest_suffix_endpointPart (hbase : ¬schemeMark <:+: (trimmed base).toList)
    {scheme rest : List Char}
    (hjoined : (joinUrl base endpoint).toList = scheme ++ (schemeMark ++ rest)) :
    rest <:+ endpointPart endpoint := by
  have hslash := not_scheme_infix_serverPart hbase
  rw [toList_joinUrl] at hjoined
  split at hjoined
  · exact (scheme_behind_seam hslash hjoined.symm).1
  · refine absurd ⟨scheme, rest ++ ['/'], ?_⟩ hslash
    rw [hjoined]
    simp

end Joined

/-- An endpoint leads to another path on the server that was given, as long as that has a scheme or
the endpoint brings none. Otherwise the endpoint names the host itself. -/
theorem ofUrl_joinUrl {base endpoint : String} {target : Address}
    (h : Address.ofUrl (trimmed base) = .ok target) :
    (schemeMark <:+: (trimmed base).toList ∨ ¬BringsScheme base endpoint →
      ∃ joined, Address.ofUrl (joinUrl base endpoint) = .ok joined ∧
        joined.host = target.host ∧ joined.port = target.port) ∧
    (¬schemeMark <:+: (trimmed base).toList → BringsScheme base endpoint →
      ∀ joined, Address.ofUrl (joinUrl base endpoint) = .ok joined →
        joined.host.toList <:+: endpoint.toList) := by
  have hserver := serverPart_ne_nil h
  constructor
  · intro hscheme
    have hbegins := Address.begins_splitScheme (trimmed base).toList
    have hrest := Address.ne_nil_of_ofUrl hbegins h
    obtain ⟨rest', hbegins', hsame⟩ := begins_joinUrl hbegins hrest hserver hscheme
    exact Address.ofUrl_of_same_authority hbegins hbegins' hsame h
  · intro hbase hbrings joined hjoined
    have hmark := (scheme_infix_joinUrl_iff hbase hserver).2 hbrings
    obtain ⟨scheme, rest, hurl, hbegins⟩ := Address.exists_begins_of_infix hmark
    have hrest := rest_suffix_endpointPart hbase hurl
    have hhost := Address.host_prefix_of_ofUrl hbegins hjoined
    exact (hhost.isInfix.trans hrest.isInfix).trans (isInfix_endpointPart endpoint)

/-- Colons and double slashes of an endpoint stay in the path. -/
theorem ofUrl_joinUrl_of_slashes :
    Address.ofUrl (trimmed " cam.example:8080/ ") = .ok ⟨"cam.example", 8080, "/"⟩ ∧
      ¬BringsScheme " cam.example:8080/ " "//a:1//b:/c " ∧
      ∃ joined, Address.ofUrl (joinUrl " cam.example:8080/ " "//a:1//b:/c ") = .ok joined ∧
        joined.host = "cam.example" ∧ joined.port = 8080 := by
  have hbase : Address.ofUrl (trimmed " cam.example:8080/ ") = .ok ⟨"cam.example", 8080, "/"⟩ := by
    decide +kernel
  have hbrings : ¬BringsScheme " cam.example:8080/ " "//a:1//b:/c " := by decide +kernel
  exact ⟨hbase, hbrings, (ofUrl_joinUrl hbase).1 (.inr hbrings)⟩

/-- Behind a server without a scheme, an endpoint can name another one. -/
theorem endpoint_leads_to_other_host :
    ¬∀ (base endpoint : String) (target : Address), Address.ofUrl (trimmed base) = .ok target →
      ∃ joined, Address.ofUrl (joinUrl base endpoint) = .ok joined ∧
        joined.host = target.host ∧ joined.port = target.port := by
  intro h
  obtain ⟨joined, hjoined, hhost, -⟩ := h "cam.example" "x://elsewhere.example/up"
    ⟨"cam.example", 443, "/"⟩ (by decide +kernel)
  have hother : Address.ofUrl (joinUrl "cam.example" "x://elsewhere.example/up") =
      .ok ⟨"elsewhere.example", 443, "/up"⟩ := by
    decide +kernel
  obtain rfl := Except.ok.inj (hjoined.symm.trans hother)
  exact absurd hhost (by decide)

end FieldCamera.Setup
