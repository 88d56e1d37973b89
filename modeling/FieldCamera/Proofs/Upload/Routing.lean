import FieldCamera.Proofs.Upload.Holding
/-!
# Where a request is written

A request is written on the stream of one attempt to connect. A new connection leads to the host and
port of the request; a connection that is held is used as it is, wherever it leads. So requests that
all have the same host and port reach it, and of two requests to different hosts the second can
reach the first host (`request_reaches_target_iff`).
-/

namespace FieldCamera

/-- Host and port can be told from the text of both. -/
theorem Address.authority_inj {a b : Address} :
    a.authority = b.authority ↔ a.host = b.host ∧ a.port = b.port := by
  -- A host may hold colons itself, so the text is cut at its last one.
  have hcut (a : Address) : Text.cut ':' a.authority.toList.reverse =
      some ((Nat.toDigits 10 a.port.toNat).reverse, a.host.toList.reverse) := by
    rw [Text.cut_eq_some_iff]
    constructor
    · simp [authority]
    · intro hmem
      have := Nat.isDigit_of_mem_toDigits (by decide) (le_refl 10) (List.mem_reverse.1 hmem)
      contradiction
  constructor
  · intro h
    have heq := (hcut a).symm.trans (h ▸ hcut b)
    obtain ⟨hport, hhost⟩ := Prod.mk.inj (Option.some.inj heq)
    have hnumber : a.port.toNat = b.port.toNat := by
      calc
        a.port.toNat = Nat.ofDigitChars 10 (Nat.toDigits 10 a.port.toNat) 0 :=
          Nat.ofDigitChars_ten_toDigits.symm
        _ = Nat.ofDigitChars 10 (Nat.toDigits 10 b.port.toNat) 0 := by
          rw [List.reverse_inj.1 hport]
        _ = b.port.toNat := Nat.ofDigitChars_ten_toDigits
    constructor
    · exact String.toList_injective (List.reverse_inj.1 hhost)
    · exact UInt16.toNat_inj.1 hnumber
  · rintro ⟨hhost, hport⟩
    rw [authority, authority, hhost, hport]

namespace Upload.Uplink

open Link

/-- All that is written between `u` and `u'` is written on the stream of the last attempt, and that
attempt led to `authority`. -/
def OnlyAt (authority : String) (u u' : Uplink) : Prop :=
  ∃ others stream, u'.outlets = others ++ [(authority, stream)] ∧
    (u.outlets = others ∨ ∃ before, u.outlets = others ++ [(authority, before)])

section Carrying

variable {pace : Pace} {target : Address} {e : Envelope} {now : Nat} {u u' : Uplink}
  {c : Connection}

/-- The last attempt leads to one place only. -/
theorem OnlyAt.authority_eq {authority last : String} {others : List (String × Option Stream)}
    {stream : Option Stream} (h : OnlyAt authority u u')
    (hlast : u'.outlets = others ++ [(last, stream)]) : last = authority := by
  obtain ⟨_, _, h, -⟩ := h
  have heq := List.append_inj_right' (hlast.symm.trans h) rfl
  exact (Prod.mk.inj (List.singleton_inj.1 heq)).1

/-- A request is written on a fit connection, wherever that leads. -/
theorem SentOnHeld.onlyAt (h : SentOnHeld pace target e now u c) :
    OnlyAt c.authority u (u.send pace target e now).2.2 := by
  obtain ⟨_, _, _, others, -, -, hbefore, hafter, -⟩ := h.exchange
  exact ⟨others, _, hafter, .inr ⟨_, hbefore⟩⟩

/-- Without one it is written on a connection to its target. -/
theorem SentAnew.onlyAt (h : SentAnew pace target e now u) :
    OnlyAt target.authority u (u.send pace target e now).2.2 := by
  obtain ⟨-, -, hafter⟩ | ⟨_, _, _, _, _, -, -, -, hafter, -⟩ := h.exchange
  · exact ⟨u.outlets, none, hafter, .inl rfl⟩
  · exact ⟨u.outlets, _, hafter, .inl rfl⟩

end Carrying

/-- The targets of the requests among some uses. -/
def targets (uses : List Use) : List Address :=
  uses.filterMap fun
    | .send target _ => some target
    | _ => none

theorem targets_append (uses more : List Use) :
    targets (uses ++ more) = targets uses ++ targets more :=
  List.filterMap_append

/-- A held connection leads to the target of one of these uses. -/
def Bound (uses : List Use) (u : Uplink) : Prop :=
  ∀ c, u.held = some c → ∃ t ∈ targets uses, c.authority = t.authority

section Runs

variable {pace : Pace} {dials : List Dial} {uses : List Use} {s : Nat × Uplink}

theorem Bound.apply (h : Bound uses s.2) (hroom : s.2.Roomy) (use : Use) :
    Bound (uses ++ [use]) (use.apply pace s).2 := by
  intro c hheld
  rw [targets_append]
  cases use with
  | send target e =>
      by_cases hfit : ∃ c₀, s.2.Fit s.1 c₀
      · obtain ⟨c₀, hc₀⟩ := hfit
        obtain ⟨t, ht, hauthority⟩ := h c₀ hc₀.1
        have honly := (sentOnHeld_of_fit pace target e hroom hc₀).onlyAt
        have hsame := honly.authority_eq (outlets_of_held hheld)
        exact ⟨t, List.mem_append_left _ ht, hsame.trans hauthority⟩
      · have honly := (sentAnew_of_unfit pace target e hroom (not_exists.1 hfit)).onlyAt
        have hnew := honly.authority_eq (outlets_of_held hheld)
        exact ⟨target, List.mem_append_right _ (List.mem_singleton_self target), hnew⟩
  | close =>
      rw [Use.apply, held_close] at hheld
      contradiction
  | rest ms =>
      obtain ⟨t, ht, hauthority⟩ := h c hheld
      exact ⟨t, List.mem_append_left _ ht, hauthority⟩

theorem Bound.used (h : Bound uses s.2) (haccount : Accounted dials s.2) (more : List Use) :
    Bound (uses ++ more) (used pace s more).2 := by
  induction more generalizing uses s with
  | nil => rwa [List.append_nil]
  | cons use more ih =>
      rw [List.append_cons]
      exact ih (h.apply haccount.roomy use) (haccount.apply use)

theorem bound_used (pace : Pace) (dials : List Dial) (start : Nat) (uses : List Use) :
    Bound uses (used pace (start, { dials := dials }) uses).2 := by
  have hnew : Bound [] ({ dials := dials } : Uplink) := by
    intro c hheld
    contradiction
  exact hnew.used (s := (start, { dials := dials })) (accounted_new dials) uses

end Runs

/-- A request is written on one stream, which leads to its own target or to that of an earlier
request. It leads to its own host and port exactly if a connection that is fit for it does; so it
does if no earlier request had another host or port. -/
theorem request_reaches_target_iff (pace : Pace) (dials : List Dial) (start : Nat)
    (uses : List Use) (target : Address) (e : Envelope) :
    let s := used pace (start, { dials := dials }) uses
    let now := s.1
    let u := s.2
    let v := u.send pace target e now
    (∃ t ∈ targets uses ++ [target], OnlyAt t.authority u v.2.2) ∧
    (OnlyAt target.authority u v.2.2 ↔ ∀ c, u.Fit now c →
      ∃ t ∈ targets uses, c.authority = t.authority ∧ t.host = target.host ∧ t.port = target.port) ∧
    ((∀ t ∈ targets uses, t.host = target.host ∧ t.port = target.port) →
      OnlyAt target.authority u v.2.2) := by
  intro s now u v
  have hnew : Accounted dials (start, ({ dials := dials } : Uplink)).2 := accounted_new dials
  have hbound : Bound uses u := bound_used pace dials start uses
  have hroom : u.Roomy := (hnew.used uses).roomy
  by_cases hfit : ∃ c, u.Fit now c
  · obtain ⟨c, hc⟩ := hfit
    obtain ⟨t, ht, hauthority⟩ := hbound c hc.1
    have honly : OnlyAt c.authority u v.2.2 := (sentOnHeld_of_fit pace target e hroom hc).onlyAt
    refine ⟨⟨t, List.mem_append_left _ ht, hauthority ▸ honly⟩, ?_, ?_⟩
    · constructor
      · rintro ⟨_, _, hown, -⟩ c' hc'
        obtain rfl : c = c' := Option.some.inj (hc.1.symm.trans hc'.1)
        have heq := hauthority.symm.trans (honly.authority_eq hown).symm
        exact ⟨t, ht, hauthority, Address.authority_inj.1 heq⟩
      · intro hreach
        obtain ⟨t', -, hauthority', hplace⟩ := hreach c hc
        rwa [hauthority', Address.authority_inj.2 hplace] at honly
    · intro hall
      rwa [hauthority, Address.authority_inj.2 (hall t ht)] at honly
  · have hunfit := not_exists.1 hfit
    have honly : OnlyAt target.authority u v.2.2 :=
      (sentAnew_of_unfit pace target e hroom hunfit).onlyAt
    have hmem : target ∈ targets uses ++ [target] :=
      List.mem_append_right _ (List.mem_singleton_self target)
    refine ⟨⟨target, hmem, honly⟩, ?_, fun _ => honly⟩
    exact iff_of_true honly fun c hc => absurd hc (hunfit c)

/-- Of two requests to one host, for different paths, the second reaches the host. -/
theorem request_reaches_same_host :
    let ok := Utf8.encode "HTTP/1.1 200 OK\r\n\r\n"
    let stream : Stream :=
      { staysOpen := true, arrivals := [.untilFlush 1, .bytes ok, .untilFlush 2, .bytes ok] }
    let first : Address := ⟨"a", 80, "/"⟩
    let second : Address := ⟨"a", 80, "/late"⟩
    let e : Envelope := ⟨"b", [1, 2], [3, 4, 5], [6]⟩
    let s := used {} (0, { dials := [⟨5, .ok stream⟩] }) [.send first e, .rest 10]
    (∀ t ∈ targets [.send first e, .rest 10], t.host = second.host ∧ t.port = second.port) ∧
      OnlyAt second.authority s.2 (s.2.send {} second e s.1).2.2 := by
  intro ok stream first second e s
  have htargets : ∀ t ∈ targets [.send first e, .rest 10],
      t.host = second.host ∧ t.port = second.port := by
    intro t ht
    obtain rfl : t = first := List.mem_singleton.1 ht
    exact ⟨rfl, rfl⟩
  obtain ⟨-, -, hreaches⟩ :=
    request_reaches_target_iff {} [⟨5, .ok stream⟩] 0 [.send first e, .rest 10] second e
  exact ⟨htargets, hreaches htargets⟩

/-- Of two requests to different hosts the second is written whole on the stream to the first host,
where a connection to the second could be had. -/
theorem request_on_stream_to_other_host :
    let ok := Utf8.encode "HTTP/1.1 200 OK\r\n\r\n"
    let stream : Stream :=
      { staysOpen := true, arrivals := [.untilFlush 1, .bytes ok, .untilFlush 2, .bytes ok] }
    let first : Address := ⟨"a", 80, "/"⟩
    let second : Address := ⟨"b", 80, "/"⟩
    let e : Envelope := ⟨"b", [1, 2], [3, 4, 5], [6]⟩
    let s := used {} (0, { dials := [⟨0, .ok stream⟩, ⟨0, .ok stream⟩] }) [.send first e]
    let v := s.2.send {} second e s.1
    v.2.2.attempts.map (fun a => (a.authority, a.stream.map Stream.written)) =
      [("a:80", some (e.wire first ++ e.wire second))] := by
  decide +kernel

end Upload.Uplink

end FieldCamera
