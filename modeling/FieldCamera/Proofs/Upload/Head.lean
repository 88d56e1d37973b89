import FieldCamera.Proofs.Upload.Framing
import FieldCamera.Proofs.Upload.Parts
import FieldCamera.Setup.Submission
/-!
# The head of a request and the URL it is made from

Path and host go into the head of a request as the URL spells them; nothing is escaped, and reading
a URL refuses nothing but an empty host. So the head keeps its form just for a path without a space
and for a path and a host without a line break (`headFormed_iff`). Every URL without these gives
such a head (`headFormed_of_url`), but a form can save a URL that has them
(`not_headFormed_of_saved_url`).
-/

namespace FieldCamera.Address

variable {url : String} {target : Address}

theorem isSuffix_splitScheme (url : List Char) : (splitScheme url).2 <:+ url := by
  rw [splitScheme]
  cases hcut : Text.cutText "://".toList url with
  | none => exact List.suffix_refl url
  | some halves =>
      rw [Text.eq_of_cutText_eq_some hcut, ← List.append_assoc]
      exact List.suffix_append _ _

theorem isInfix_splitPath (rest : List Char) :
    (splitPath rest).1 <:+: rest ∧ ((splitPath rest).2 <:+: rest ∨ (splitPath rest).2 = ['/']) := by
  rw [splitPath]
  cases hcut : Text.cut '/' rest with
  | none => exact ⟨List.infix_refl rest, .inr rfl⟩
  | some halves =>
      rw [(Text.cut_eq_some_iff.1 hcut).1]
      exact ⟨(List.prefix_append _ _).isInfix, .inl (List.suffix_append _ _).isInfix⟩

theorem isPrefix_splitPort (otherwise : UInt16) (authority : List Char) :
    (splitPort otherwise authority).1 <+: authority := by
  rw [splitPort]
  cases hcut : Text.cut ':' authority with
  | none => exact List.prefix_refl authority
  | some halves =>
      rw [(Text.cut_eq_some_iff.1 hcut).1]
      exact List.prefix_append _ _

/-- The host is a part of the URL, and so is the path unless there is none. -/
theorem infix_of_ofUrl (h : ofUrl url = .ok target) :
    target.host.toList <:+: url.toList ∧
      (target.path.toList <:+: url.toList ∨ target.path.toList = ['/']) := by
  have hrest := (isSuffix_splitScheme url.toList).isInfix
  obtain ⟨hauthority, hpath⟩ := isInfix_splitPath (splitScheme url.toList).2
  have hhost := (isPrefix_splitPort (defaultPort (splitScheme url.toList).1)
    (splitPath (splitScheme url.toList).2).1).isInfix
  rw [ofUrl] at h
  simp only at h
  split at h
  · contradiction
  · obtain rfl := Except.ok.inj h
    rw [String.toList_ofList, String.toList_ofList]
    exact ⟨hhost.trans (hauthority.trans hrest), hpath.imp_left fun h => h.trans hrest⟩

end FieldCamera.Address

namespace FieldCamera.Upload.Envelope

open Form

variable {e : Envelope} {target : Address}

/-- The head is that of one request: cut at its line breaks it is a line of three tokens, the header
lines, and an empty line at its very end. -/
def HeadFormed (e : Envelope) (target : Address) : Prop :=
  ∃ line, linesOf (e.requestHead target).toList =
      line :: (e.headerFields target ++ ["", ""]).map String.toList ∧
    Text.pieces ' ' line = ["POST".toList, target.path.toList, "HTTP/1.1".toList]

theorem requestHead_eq (e : Envelope) (target : Address) :
    e.requestHead target = joined (requestLine target :: (e.headerFields target ++ ["", ""])) := by
  unfold requestHead requestLine headerFields lineEnd
  rw [List.cons_append, List.cons_append, List.cons_append, List.cons_append, List.nil_append]
  simp only [joined, String.append_assoc, String.append_empty, String.empty_append]

theorem toList_requestHead (e : Envelope) (target : Address) :
    (e.requestHead target).toList = lineBreak.intercalate
      ((requestLine target).toList :: (e.headerFields target ++ ["", ""]).map String.toList) := by
  rw [requestHead_eq, toList_joined, List.map_cons]

/-- A space in the path is the only thing that makes other tokens of the first line. -/
theorem pieces_requestLine_iff :
    Text.pieces ' ' (requestLine target).toList =
        ["POST".toList, target.path.toList, "HTTP/1.1".toList] ↔
      ' ' ∉ target.path.toList := by
  rw [Text.pieces_eq_iff]
  constructor
  · rintro ⟨-, hfree, -⟩
    exact hfree _ (by simp)
  · intro h
    refine ⟨List.cons_ne_nil _ _, ?_, ?_⟩
    · rw [List.forall_mem_cons, List.forall_mem_cons, List.forall_mem_singleton]
      exact ⟨by decide, h, by decide⟩
    · simp [requestLine, List.intercalate_cons_cons]

theorem lineBreak_infix_append_left {s t : String} (h : '\r' ∉ s.toList) :
    lineBreak <:+: (s ++ t).toList ↔ lineBreak <:+: t.toList := by
  rw [String.toList_append]
  exact Text.infix_append_left_iff h

theorem lineBreak_infix_append_right {s t : String} (h : '\n' ∉ t.toList) :
    lineBreak <:+: (s ++ t).toList ↔ lineBreak <:+: s.toList := by
  have hbreak : lineBreak = ['\r'] ++ ['\n'] := rfl
  rw [String.toList_append, hbreak]
  exact Text.infix_append_right_iff h

theorem lineBreak_infix_requestLine :
    lineBreak <:+: (requestLine target).toList ↔ lineBreak <:+: target.path.toList :=
  calc lineBreak <:+: ("POST " ++ target.path ++ " HTTP/1.1").toList
    _ ↔ lineBreak <:+: ("POST " ++ target.path).toList := lineBreak_infix_append_right (by simp)
    _ ↔ lineBreak <:+: target.path.toList := lineBreak_infix_append_left (by simp)

theorem headerFields_free_iff :
    (∀ s ∈ e.headerFields target, ¬lineBreak <:+: s.toList) ↔
      ¬lineBreak <:+: target.host.toList ∧ ¬lineBreak <:+: e.boundary.toList := by
  have hhost : lineBreak <:+: ("Host: " ++ target.host).toList ↔
      lineBreak <:+: target.host.toList := lineBreak_infix_append_left (by simp)
  have hkeep : ¬lineBreak <:+: "Connection: keep-alive".toList :=
    not_infix_of_oneLine (by simp [Text.OneLine])
  have htype : lineBreak <:+: ("Content-Type: " ++ e.contentType).toList ↔
      lineBreak <:+: e.boundary.toList :=
    (lineBreak_infix_append_left (by simp)).trans (lineBreak_infix_append_left (by simp))
  have hlength : ¬lineBreak <:+: ("Content-Length: " ++ toString e.contentLength).toList :=
    (lineBreak_infix_append_left (by simp)).not.2
      (not_infix_of_oneLine (Text.oneLine_toString _))
  simp only [headerFields, List.forall_mem_cons, hhost, htype, hkeep, hlength, not_false_eq_true,
    true_and, List.not_mem_nil, false_imp_iff, implies_true, and_true]

/-- The head keeps its form just where no text in it breaks a line and the path is one token. -/
theorem headFormed_iff :
    e.HeadFormed target ↔ ' ' ∉ target.path.toList ∧ ¬lineBreak <:+: target.path.toList ∧
      ¬lineBreak <:+: target.host.toList ∧ ¬lineBreak <:+: e.boundary.toList := by
  have hempty : ∀ line ∈ ["", ""].map String.toList, ¬lineBreak <:+: line := by decide
  constructor
  · rintro ⟨line, hlines, htokens⟩
    obtain ⟨-, hfree, hhead⟩ := linesOf_eq_iff.1 hlines
    -- The first line is the one that was put there, for what follows it is the same.
    obtain rfl : (requestLine target).toList = line := by
      rw [toList_requestHead] at hhead
      simp only [headerFields, List.cons_append, List.map_cons, List.intercalate_cons_cons,
        List.append_assoc] at hhead
      exact List.append_cancel_right hhead
    rw [List.forall_mem_cons, List.map_append, List.forall_mem_append, List.forall_mem_map] at hfree
    obtain ⟨hline, hfields, -⟩ := hfree
    exact ⟨pieces_requestLine_iff.1 htokens, lineBreak_infix_requestLine.not.1 hline,
      headerFields_free_iff.1 hfields⟩
  · rintro ⟨htoken, hpath, hrest⟩
    refine ⟨(requestLine target).toList, ?_, pieces_requestLine_iff.2 htoken⟩
    rw [linesOf_eq_iff]
    refine ⟨List.cons_ne_nil _ _, ?_, toList_requestHead e target⟩
    rw [List.forall_mem_cons, List.map_append, List.forall_mem_append, List.forall_mem_map]
    exact ⟨lineBreak_infix_requestLine.not.2 hpath, headerFields_free_iff.2 hrest, hempty⟩

/-- Of the head that is made from a URL nothing but its path and its host can break the form, and
these do not where the URL itself has no space and no line break. -/
theorem headFormed_of_url {url : String} (hurl : Address.ofUrl url = .ok target)
    (hboundary : ¬lineBreak <:+: e.boundary.toList) :
    (e.HeadFormed target ↔ ' ' ∉ target.path.toList ∧ ¬lineBreak <:+: target.path.toList ∧
        ¬lineBreak <:+: target.host.toList) ∧
      (' ' ∉ url.toList → ¬lineBreak <:+: url.toList → e.HeadFormed target) := by
  obtain ⟨hhost, hpath⟩ := Address.infix_of_ofUrl hurl
  constructor
  · rw [headFormed_iff, and_iff_left hboundary]
  · intro hspace hbreak
    rw [headFormed_iff]
    have htoken : ' ' ∉ target.path.toList ∧ ¬lineBreak <:+: target.path.toList := by
      obtain hpath | hpath := hpath
      · exact ⟨fun h => hspace (hpath.mem h), fun h => hbreak (h.trans hpath)⟩
      · rw [hpath]
        exact ⟨by decide, by decide⟩
    exact ⟨htoken.1, htoken.2, fun h => hbreak (h.trans hhost), hboundary⟩

/-- A space in front of the path and a port that is none do no harm. -/
theorem headFormed_of_url_with_port :
    Address.ofUrl "ht tp://cam.example:x y/up?n=1" = .ok ⟨"cam.example", 443, "/up?n=1"⟩ ∧
      ¬lineBreak <:+: "b".toList ∧
      Envelope.HeadFormed ⟨"b", [], [], []⟩ ⟨"cam.example", 443, "/up?n=1"⟩ := by
  have hurl : Address.ofUrl "ht tp://cam.example:x y/up?n=1" =
      .ok ⟨"cam.example", 443, "/up?n=1"⟩ := by decide +kernel
  have hboundary : ¬lineBreak <:+: "b".toList := by decide
  exact ⟨hurl, hboundary, (headFormed_of_url hurl hboundary).1.2 (by decide +kernel)⟩

/-- A form can save a URL that adds a header line to each request. -/
theorem not_headFormed_of_saved_url :
    ¬ ∀ (form : String) (target : Address) (e : Envelope),
      Address.ofUrl (Setup.deviceOfForm form).uploadUrl = .ok target →
      '\r' ∉ e.boundary.toList → '\n' ∉ e.boundary.toList → ' ' ∉ e.boundary.toList →
      e.HeadFormed target := by
  intro h
  have hformed := h "upload_base=http%3A%2F%2Fh&upload_endpoint=a%0D%0AX-Admin%3A+1"
    ⟨"h", 80, "/a\r\nX-Admin: 1"⟩ ⟨"b", [], [], []⟩ (by decide +kernel) (by decide) (by decide)
    (by decide)
  exact (headFormed_iff.1 hformed).2.1 (by decide +kernel)

end FieldCamera.Upload.Envelope
