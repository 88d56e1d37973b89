import FieldCamera.Files
/-!
# Files at their places

A path that leads to the place of a file goes on leading there as long as no directory is lost
(`HasPlace.mono`). Reading, writing and removing then only touch the entry of that place, lose no
directory, and leave every other entry as it was.
-/

namespace FieldCamera.Files

section Entries

variable {f : Files} {way other : List String}

theorem not_prefix_home (h : f.lookup way ≠ some .directory) : ¬way <+: f.home := by
  intro hhome
  exact h (by rw [lookup, if_pos (List.isPrefixOf_iff_prefix.2 hhome)])

/-- An entry is found among those that stay when the entries of another way are taken out. -/
theorem find?_filter_way (h : other ≠ way) (entries : List (List String × Entry)) :
    (entries.filter fun e => e.1 != way).find? (fun e => e.1 == other) =
      entries.find? fun e => e.1 == other := by
  rw [List.find?_filter]
  congr 1
  funext e
  grind

theorem lookup_put_self (h : f.lookup way ≠ some .directory) (e : Entry) :
    (f.put way e).lookup way = some e := by
  simp [lookup, put, not_prefix_home h]

theorem lookup_put_of_ne (h : other ≠ way) (e : Entry) :
    (f.put way e).lookup other = f.lookup other := by
  have hother : (way == other) = false := by simpa using h.symm
  simp only [lookup, put, List.find?_cons, hother, find?_filter_way h]

theorem lookup_drop_self (h : f.lookup way ≠ some .directory) :
    (f.drop way).lookup way = none := by
  simp [lookup, drop, not_prefix_home h]

theorem lookup_drop_of_ne (h : other ≠ way) : (f.drop way).lookup other = f.lookup other := by
  simp only [lookup, drop, find?_filter_way h]

end Entries

/-- No directory of `f` is lost in `g`. -/
structure KeepsDirectories (f g : Files) : Prop where
  home : g.home = f.home
  directory {way : List String} : f.lookup way = some .directory → g.lookup way = some .directory

section Directories

variable {f g : Files}

/-- No directory is lost by a change at a way where there is none. -/
theorem keepsDirectories_of_lookup {way : List String} (hhome : g.home = f.home)
    (h : f.lookup way ≠ some .directory)
    (hothers : ∀ other, other ≠ way → g.lookup other = f.lookup other) : KeepsDirectories f g where
  home := hhome
  directory {other} hother := by
    have hne : other ≠ way := by
      rintro rfl
      exact h hother
    rw [hothers other hne, hother]

theorem keepsDirectories_put {way : List String} (h : f.lookup way ≠ some .directory) (e : Entry) :
    KeepsDirectories f (f.put way e) :=
  keepsDirectories_of_lookup rfl h fun _ hne => lookup_put_of_ne hne e

theorem keepsDirectories_drop {way : List String} (h : f.lookup way ≠ some .directory) :
    KeepsDirectories f (f.drop way) :=
  keepsDirectories_of_lookup rfl h fun _ hne => lookup_drop_of_ne hne

theorem entry_eq_ok_iff {way : List String} {name : String} {found : Option Entry} :
    f.entry way name = .ok found ↔
      (isDots name = true ∨ name.utf8ByteSize ≤ longestName) ∧
        f.lookup (move way name) = found := by
  unfold entry
  by_cases hdots : isDots name = true
  · simp [hdots]
  · by_cases hlong : longestName < name.utf8ByteSize
    · simp [hdots, hlong, Nat.not_le.2 hlong]
    · simp [hdots, hlong, Nat.not_lt.1 hlong]

theorem enter_eq_ok_iff {way next : List String} {name : String} :
    f.enter way name = .ok next ↔
      (isDots name = true ∨ name.utf8ByteSize ≤ longestName) ∧
        f.lookup (move way name) = some .directory ∧ next = move way name := by
  rw [← and_assoc, ← entry_eq_ok_iff]
  unfold enter
  cases f.entry way name with
  | error fault => simp [bind, Except.bind]
  | ok found =>
      cases found with
      | none => simp [bind, Except.bind, throw, throwThe, MonadExceptOf.throw]
      | some e =>
          cases e <;>
            simp [bind, Except.bind, throw, throwThe, MonadExceptOf.throw, pure, Except.pure,
              eq_comm]

theorem KeepsDirectories.foldlM_enter (h : KeepsDirectories f g) {names : List String}
    {way last : List String} (hf : names.foldlM f.enter way = .ok last) :
    names.foldlM g.enter way = .ok last := by
  induction names generalizing way with
  | nil => exact hf
  | cons name names ih =>
      rw [List.foldlM_cons] at hf ⊢
      cases hnext : f.enter way name with
      | error fault => simp [hnext, bind, Except.bind] at hf
      | ok next =>
          obtain ⟨hname, hdirectory, rfl⟩ := enter_eq_ok_iff.1 hnext
          have hkept : g.enter way name = .ok (move way name) :=
            enter_eq_ok_iff.2 ⟨hname, h.directory hdirectory, rfl⟩
          rw [hnext] at hf
          rw [hkept]
          exact ih hf

/-- A path leads to the same place where no directory has been lost. -/
theorem KeepsDirectories.resolve_eq (h : KeepsDirectories f g) {path : String} {place : Place}
    (hf : f.resolve path = .ok place) : g.resolve path = .ok place := by
  unfold resolve at hf ⊢
  cases hfault : pathFault? path with
  | some fault => simp [hfault] at hf
  | none =>
      cases hparent : (names path).dropLast.foldlM f.enter (start f.home path) with
      | error fault => simp [hfault, hparent, bind, Except.bind] at hf
      | ok parent =>
          simp only [hfault, hparent] at hf
          simp only [h.home, h.foldlM_enter hparent]
          exact hf

end Directories

/-- A path leads to the place of a file: its name is one that a file can have, and everything in
front of it is a directory. -/
structure HasPlace (f : Files) (path : String) (place : Place) : Prop where
  resolves : f.resolve path = .ok place
  isFile : place.isDirectory = false
  fits : place.name.utf8ByteSize ≤ longestName

section Places

variable {f g : Files} {path : String} {place : Place} {content : Option (List UInt8)}

theorem HasPlace.mono (h : HasPlace f path place) (hkeeps : KeepsDirectories f g) :
    HasPlace g path place :=
  ⟨hkeeps.resolve_eq h.resolves, h.isFile, h.fits⟩

theorem lookup_ne_directory {way : List String} (h : f.lookup way = content.map .file) :
    f.lookup way ≠ some .directory := by
  rw [h]
  cases content <;> simp

/-- What is at the place: the file, if there is one. -/
theorem HasPlace.at?_eq (h : HasPlace f path place)
    (hcontent : f.lookup place.way = content.map .file) :
    f.at? place = .ok (content.map .file) := by
  have hentry : f.entry place.parent place.name = .ok (content.map .file) :=
    entry_eq_ok_iff.2 ⟨.inr h.fits, hcontent⟩
  rw [at?, hentry]
  cases content with
  | none => rfl
  | some content => simp [bind, Except.bind, h.isFile, pure, Except.pure]

theorem HasPlace.read_eq (h : HasPlace f path place)
    (hcontent : f.lookup place.way = content.map .file) :
    f.read path = content.elim (.error .notFound) .ok := by
  simp only [read, h.resolves, bind, Except.bind, h.at?_eq hcontent]
  cases content <;> rfl

theorem HasPlace.isThere_eq (h : HasPlace f path place)
    (hcontent : f.lookup place.way = content.map .file) : f.isThere path = content.isSome := by
  simp only [isThere, h.resolves, bind, Except.bind, h.at?_eq hcontent]
  cases content <;> rfl

theorem HasPlace.write_eq (h : HasPlace f path place)
    (hcontent : f.lookup place.way = content.map .file) (new : List UInt8) :
    f.write path new = .ok (f.put place.way (.file new)) := by
  simp only [write, h.resolves, bind, Except.bind, h.isFile, h.at?_eq hcontent]
  cases content <;> rfl

/-- Only a file that is there can be removed. -/
theorem HasPlace.remove_eq (h : HasPlace f path place)
    (hcontent : f.lookup place.way = content.map .file) :
    f.remove path = content.elim (.error .notFound) fun _ => .ok (f.drop place.way) := by
  have hname : isDots place.name = false := by
    have hplace := h.isFile
    rw [Place.isDirectory, Bool.or_eq_false_iff] at hplace
    exact hplace.2
  simp only [remove, h.resolves, bind, Except.bind, hname, h.at?_eq hcontent]
  cases content <;> rfl

end Places

end FieldCamera.Files
