import FieldCamera.Address
import FieldCamera.Proofs.Number.Leading
import FieldCamera.Proofs.Text.Occurrence
import Mathlib.Data.List.TakeWhile
/-!
# The normal form of an address

A URL is cut at three marks, each where it stands first: `://`, then a slash, then a colon. So the
host holds neither a slash nor a colon, and the path begins with a slash and may hold all three
marks. With any scheme in front, the text of such an address is read back as the same address
(`Normal.ofUrl_text`), and every address that is read is one (`ofUrl_normal`).
-/

namespace FieldCamera.Address

/-- The mark between a scheme and what it is the scheme of. -/
def schemeMark : List Char :=
  "://".toList

/-- A URL begins with a scheme and its mark, or it holds no such mark and has no scheme. -/
inductive Begins : List Char → List Char → List Char → Prop
  | scheme {scheme : List Char} (first : ¬schemeMark <:+: scheme) (rest : List Char) :
      Begins scheme rest (scheme ++ (schemeMark ++ rest))
  | bare {url : List Char} (none : ¬schemeMark <:+: url) : Begins [] url url

/-- A character that ends a host. -/
def endsHost (c : Char) : Bool :=
  c == '/' || c == ':'

/-- The text of the host in a URL: it runs from the scheme, if there is one, up to the next slash or
colon, or to the end. -/
def HostText (url host : List Char) : Prop :=
  ∃ scheme behind, Begins scheme (host ++ behind) url ∧
    (∀ c ∈ host, endsHost c = false) ∧ ∀ c ∈ behind.head?, endsHost c = true

section Scheme

theorem splitScheme_eq_iff {url scheme rest : List Char} :
    splitScheme url = (scheme, rest) ↔ Begins scheme rest url := by
  have hmark : schemeMark ≠ [] := by decide
  rw [splitScheme]
  constructor
  · intro h
    cases hcut : Text.cutText "://".toList url with
    | none =>
        rw [hcut] at h
        obtain ⟨rfl, rfl⟩ := Prod.mk.inj h
        exact .bare (Text.cutText_eq_none_iff.1 hcut)
    | some halves =>
        rw [hcut] at h
        obtain rfl : halves = (scheme, rest) := h
        rw [Text.eq_of_cutText_eq_some hcut]
        exact .scheme (Text.not_infix_of_cutText_eq_some hmark hcut) rest
  · intro h
    cases h with
    | scheme first =>
        have hcut : Text.cutText schemeMark (scheme ++ (schemeMark ++ rest)) =
            some (scheme, rest) := Text.cutText_append (by decide) first rest
        exact congrArg (Option.getD · _) hcut
    | bare hnone =>
        have hcut : Text.cutText schemeMark url = none := Text.cutText_eq_none_iff.2 hnone
        exact congrArg (Option.getD · _) hcut

theorem begins_splitScheme (url : List Char) :
    Begins (splitScheme url).1 (splitScheme url).2 url :=
  splitScheme_eq_iff.1 rfl

end Scheme

section Parts

/-- The authority runs up to the first slash. -/
theorem splitPath_fst (rest : List Char) :
    (splitPath rest).1 = rest.takeWhile fun c => !(c == '/') := by
  rw [← Text.before_eq_takeWhile, splitPath, Text.before]
  cases Text.cut '/' rest <;> rfl

theorem splitPath_append {authority : List Char} (h : '/' ∉ authority) (path : List Char) :
    splitPath (authority ++ '/' :: path) = (authority, '/' :: path) := by
  rw [splitPath, Text.cut_eq_some_iff.2 ⟨rfl, h⟩]

/-- The path begins with a slash, also where there is none in the URL. -/
theorem splitPath_rooted (rest : List Char) : (splitPath rest).2.head? = some '/' := by
  rw [splitPath]
  cases Text.cut '/' rest <;> rfl

/-- The host runs up to the first colon. -/
theorem splitPort_fst (otherwise : UInt16) (authority : List Char) :
    (splitPort otherwise authority).1 = authority.takeWhile fun c => !(c == ':') := by
  rw [← Text.before_eq_takeWhile, splitPort, Text.before]
  cases Text.cut ':' authority <;> rfl

theorem splitPort_append (otherwise : UInt16) {host : List Char} (h : ':' ∉ host)
    {text : List Char} {port : UInt16} (hport : Number.port? text = some port) :
    splitPort otherwise (host ++ ':' :: text) = (host, port) := by
  rw [splitPort, Text.cut_eq_some_iff.2 ⟨rfl, h⟩]
  simp only [hport, Option.getD_some]

theorem hostText_iff {url host : List Char} :
    HostText url host ↔ host = (splitScheme url).2.takeWhile fun c => !endsHost c := by
  constructor
  · rintro ⟨scheme, behind, hbegins, hhost, hbehind⟩
    rw [splitScheme_eq_iff.2 hbegins, List.takeWhile_append_of_pos (by simpa using hhost)]
    cases behind with
    | nil => simp
    | cons c behind => simp [hbehind c rfl]
  · rintro rfl
    refine ⟨(splitScheme url).1, (splitScheme url).2.dropWhile fun c => !endsHost c, ?_, ?_, ?_⟩
    · rw [List.takeWhile_append_dropWhile]
      exact begins_splitScheme url
    · intro c hc
      simpa using List.mem_takeWhile_imp hc
    · intro c hc
      have hend := List.head?_dropWhile_not (fun c => !endsHost c) (splitScheme url).2
      rw [hc] at hend
      simpa using hend

/-- The host that is read is the text of the host. -/
theorem hostText_splitPort (otherwise : UInt16) (url : List Char) :
    HostText url (splitPort otherwise (splitPath (splitScheme url).2).1).1 := by
  rw [hostText_iff, splitPort_fst, splitPath_fst, List.takeWhile_takeWhile]
  congr 1
  funext c
  rw [Bool.eq_iff_iff]
  simp [endsHost, and_comm]

theorem port?_ne_zero {text : List Char} {port : UInt16} (h : Number.port? text = some port) :
    port ≠ 0 := by
  unfold Number.port? at h
  simp only at h
  split at h
  · rename_i hrange
    obtain rfl := Option.some.inj h
    intro hzero
    have hsize : (Number.leading text).toNat.toUInt16.toNat = (Number.leading text).toNat :=
      UInt16.toNat_ofNat_of_lt' (by simp only [UInt16.size]; omega)
    rw [hzero] at hsize
    simp at hsize
    omega
  · contradiction

/-- A port is read back from its digits. -/
theorem port?_toDigits {port : UInt16} (h : port ≠ 0) :
    Number.port? (Nat.toDigits 10 port.toNat) = some port := by
  have hpos : port.toNat ≠ 0 := fun hzero => h (UInt16.toNat_inj.1 hzero)
  have hsize : port.toNat < 65536 := port.toNat_lt
  have hvalue : Number.leading (Nat.toDigits 10 port.toNat) = port.toNat := by
    rw [Number.leading_toDigits, Nat.min_eq_left]
    unfold Number.greatest
    omega
  simp only [Number.port?, hvalue]
  rw [if_pos (by omega), Int.toNat_natCast]
  exact congrArg some (UInt16.ofNat_toNat)

theorem ofUrl_of_begins {url : String} {scheme rest : List Char}
    (h : Begins scheme rest url.toList) :
    ofUrl url =
      let server := splitPort (defaultPort scheme) (splitPath rest).1
      if server.1 = [] then .error (.emptyHost url)
      else .ok ⟨String.ofList server.1, server.2, String.ofList (splitPath rest).2⟩ := by
  rw [ofUrl, splitScheme_eq_iff.2 h]

end Parts

/-- An address whose parts hold no mark that would end them early. -/
structure Normal (a : Address) : Prop where
  host_given : a.host.toList ≠ []
  host_whole : ∀ c ∈ a.host.toList, endsHost c = false
  port_given : a.port ≠ 0
  path_rooted : a.path.toList.head? = some '/'

section Normal

theorem splitPort_given (scheme authority : List Char) :
    (splitPort (defaultPort scheme) authority).2 ≠ 0 := by
  have hdefault : defaultPort scheme ≠ 0 := by
    unfold defaultPort
    split <;> decide
  rw [splitPort]
  cases Text.cut ':' authority with
  | none => exact hdefault
  | some halves =>
      cases hport : Number.port? halves.2 with
      | none => simpa [hport] using hdefault
      | some port => simpa [hport] using port?_ne_zero hport

/-- What is read from a URL is in normal form. -/
theorem normal_of_ofUrl {url : String} {target : Address} (h : ofUrl url = .ok target) :
    target.Normal := by
  have hhost := hostText_splitPort (defaultPort (splitScheme url.toList).1) url.toList
  rw [ofUrl_of_begins (begins_splitScheme url.toList)] at h
  simp only at h
  split at h
  · contradiction
  · rename_i hgiven
    obtain rfl := Except.ok.inj h
    obtain ⟨_, _, _, hwhole, _⟩ := hhost
    exact ⟨by simpa using hgiven, by simpa using hwhole, splitPort_given _ _,
      by simpa using splitPath_rooted _⟩

/-- With any scheme in front, the text of an address is read as that address. -/
theorem Normal.ofUrl_text {a : Address} (h : a.Normal) {scheme : String}
    (hfirst : ¬schemeMark <:+: scheme.toList) : ofUrl (scheme ++ "://" ++ a.text) = .ok a := by
  obtain ⟨path, hpath⟩ := List.head?_eq_some_iff.1 h.path_rooted
  let digits := Nat.toDigits 10 a.port.toNat
  have hurl : (scheme ++ "://" ++ a.text).toList =
      scheme.toList ++ (schemeMark ++ (a.host.toList ++ ':' :: digits ++ '/' :: path)) := by
    simp [text, authority, schemeMark, digits, hpath]
  have hbegins := Begins.scheme hfirst (a.host.toList ++ ':' :: digits ++ '/' :: path)
  rw [← hurl] at hbegins
  have hauthority : '/' ∉ a.host.toList ++ ':' :: digits := by
    rw [List.mem_append, List.mem_cons]
    rintro (hhost | hcolon | hdigit)
    · exact absurd (h.host_whole _ hhost) (by decide)
    · exact absurd hcolon (by decide)
    · exact absurd (Number.isDigit_of_mem_toDigits hdigit) (by decide)
  have hcolon : ':' ∉ a.host.toList := fun hmem => absurd (h.host_whole _ hmem) (by decide)
  rw [ofUrl_of_begins hbegins, splitPath_append hauthority,
    splitPort_append _ hcolon (port?_toDigits h.port_given)]
  simp only [if_neg h.host_given, ← hpath, String.ofList_toList]

end Normal

/-- A URL is refused just where the text of its host is empty. Any other gives an address with that
host, a port and a path, and the text of this address gives it again behind every scheme. -/
theorem ofUrl_normal (url : String) :
    ∃ host, (∀ cs, HostText url.toList cs ↔ cs = host) ∧
      (host = [] → ofUrl url = .error (.emptyHost url)) ∧
      (host ≠ [] → ∃ target, ofUrl url = .ok target ∧ target.host.toList = host ∧
        '/' ∉ host ∧ ':' ∉ host ∧ 1 ≤ target.port.toNat ∧ target.port.toNat ≤ 65535 ∧
        target.path.toList.head? = some '/' ∧
        ∀ scheme : String, ¬schemeMark <:+: scheme.toList →
          ofUrl (scheme ++ "://" ++ target.text) = .ok target) := by
  let scheme := (splitScheme url.toList).1
  let parts := splitPath (splitScheme url.toList).2
  let server := splitPort (defaultPort scheme) parts.1
  have hread : ofUrl url = if server.1 = [] then .error (.emptyHost url)
      else .ok ⟨String.ofList server.1, server.2, String.ofList parts.2⟩ :=
    ofUrl_of_begins (begins_splitScheme url.toList)
  have hhost : HostText url.toList server.1 := hostText_splitPort _ _
  refine ⟨server.1, fun cs => ?_, fun hempty => ?_, fun hgiven => ?_⟩
  · rw [hostText_iff, ← hostText_iff.1 hhost]
  · rw [hread, if_pos hempty]
  · rw [if_neg hgiven] at hread
    have hnormal := normal_of_ofUrl hread
    have hport : server.2.toNat ≠ 0 := fun hzero => hnormal.port_given (UInt16.toNat_inj.1 hzero)
    have hrange : server.2.toNat < 65536 := server.2.toNat_lt
    refine ⟨_, hread, String.toList_ofList, ?_, ?_, by simp only; omega, by simp only; omega,
      hnormal.path_rooted, fun _ => hnormal.ofUrl_text⟩
    · exact fun hmem => absurd (hnormal.host_whole '/' (by simpa using hmem)) (by decide)
    · exact fun hmem => absurd (hnormal.host_whole ':' (by simpa using hmem)) (by decide)

end FieldCamera.Address
