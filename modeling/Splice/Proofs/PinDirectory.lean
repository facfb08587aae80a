import Splice.Pins
/-!
# The directory of the pins

A path to a directory of the machine, with the name of a pin behind it, leads to
that name's place in the directory, or is not found. Removing what can be removed
there takes it away, and leaves the directory where it is and all else as it was.
-/

namespace Splice

open Host

/-! ## Paths in a directory -/

namespace Host.Path

/-- A name that stands for itself in a path: it is there, has no slash, and leads
neither back nor nowhere. -/
structure Plain (name : String) : Prop where
  ne_empty : name ≠ ""
  noSlash : '/' ∉ name.toList
  noDot : '.' ∉ name.toList
  short : name.utf8ByteSize ≤ maxName

variable {base name : String}

theorem toList_ne_nil (h : name ≠ "") : name.toList ≠ [] := fun hnil => h (String.toList_inj.1 (by simpa using hnil))

theorem Plain.head?_ne (hn : Plain name) : (name.toList.head? == some '/') = false := by
  rw [beq_eq_false_iff_ne]
  exact fun h => hn.noSlash (List.mem_of_head? h)

theorem toList_join (base : String) (hn : Plain name) :
    ∃ front, (join base name).toList = front ++ name.toList ∧ front.head? = base.toList.head? := by
  by_cases hb : base = ""
  · subst hb
    exact ⟨[], by simp [join], rfl⟩
  · have ha : isAbsolute name = false := hn.head?_ne
    simp only [join, ha, hb, Bool.false_or, decide_false, Bool.false_eq_true, if_false]
    split
    · exact ⟨base.toList, String.toList_append .., rfl⟩
    · exact ⟨base.toList ++ ['/'], by simp, by
        rw [List.head?_append, List.head?_eq_some_head (toList_ne_nil hb), Option.some_or]⟩

theorem isAbsolute_join (hn : Plain name) : isAbsolute (join base name) = isAbsolute base := by
  obtain ⟨front, hjoin, hfront⟩ := toList_join base hn
  rw [isAbsolute, isAbsolute, hjoin, List.head?_append, ← hfront]
  cases front.head? with
  | some c => rfl
  | none => exact hn.head?_ne

theorem endsInSlash_join (hn : Plain name) : endsInSlash (join base name) = false := by
  obtain ⟨front, hjoin, -⟩ := toList_join base hn
  have hl := toList_ne_nil hn.ne_empty
  rw [endsInSlash, hjoin, List.getLast?_append, List.getLast?_eq_some_getLast hl, Option.some_or, beq_eq_false_iff_ne]
  exact fun h => hn.noSlash (Option.some_inj.1 h ▸ List.getLast_mem hl)

/-- A blank base is the working directory, and has no names of its own. -/
theorem names_join_of_plain (hn : Plain name) : names (join base name) = names base ++ [name] := by
  by_cases hb : base = ""
  · subst hb
    simp [join, names, runs, runs_of_no_slash hn.noSlash, toList_ne_nil hn.ne_empty]
  · exact names_join hb hn.ne_empty hn.noSlash

end Host.Path

/-! ## Places in a file system -/

namespace Host.FileSystem

variable {κ : Type} {s : FileSystem κ} {place other start : Location} {name path : String} {hold : Hold}

/-- A directory stands there. -/
def DirectoryAt (s : FileSystem κ) (place : Location) : Prop := ∃ fs, s.node? place = some (.directory fs)

/-- What stands at a place and is not held is no directory. -/
theorem not_directoryAt_of_hold? (h : s.hold? place = none) : ¬s.DirectoryAt place := by
  rintro ⟨fs, hfs⟩
  rw [hold?, hfs] at h
  dsimp only [Option.bind_some] at h
  split at h
  · cases h
  · cases h

theorem directoryAt_of_enter (h : s.enter start name = .ok place) : s.DirectoryAt start := by
  unfold enter at h
  split at h
  · rename_i fs hfs
    exact ⟨fs, hfs⟩
  · cases h

theorem enter_of_plain (hd : s.DirectoryAt start) (hn : Path.Plain name) :
    s.enter start name = if (s.node? (start ++ [name])).isSome then .ok (start ++ [name]) else .error .notFound := by
  obtain ⟨fs, hfs⟩ := hd
  have hdot : name ≠ "." := fun h => hn.noDot (by simp [h])
  have hdots : name ≠ ".." := fun h => hn.noDot (by simp [h])
  unfold enter
  rw [hfs]
  dsimp only
  rw [if_neg hdot, if_neg hdots, if_neg (Nat.not_lt.2 hn.short), if_neg fun h => hn.noDot h.2]

/-- Erasing what is no directory leaves every way that leads to another place. -/
theorem enter_erase (hx : ¬s.DirectoryAt place) (h : s.enter start name = .ok other) (hne : other ≠ place) :
    (s.erase place).enter start name = .ok other := by
  obtain ⟨fs, hfs⟩ := directoryAt_of_enter h
  have hstart : place ≠ start := fun heq => hx ⟨fs, heq ▸ hfs⟩
  unfold enter at h ⊢
  rw [node?_erase, if_neg hstart, hfs]
  rw [hfs] at h
  dsimp only at h ⊢
  by_cases hname : place = start ++ [name]
  · grind
  · rw [node?_erase, if_neg hname]
    exact h

theorem directoryAt_of_foldlM {names : List String} (h : names.foldlM s.enter start = .ok place)
    (hd : s.DirectoryAt place) : s.DirectoryAt start := by
  cases names with
  | nil =>
    cases h
    exact hd
  | cons name names =>
    rw [List.foldlM_cons] at h
    cases hfirst : s.enter start name with
    | error e => rw [hfirst] at h; cases h
    | ok next => exact directoryAt_of_enter hfirst

theorem foldlM_enter_erase {names : List String} (h : names.foldlM s.enter start = .ok other) (hd : s.DirectoryAt other)
    (hx : ¬s.DirectoryAt place) : names.foldlM (s.erase place).enter start = .ok other := by
  induction names generalizing start with
  | nil => exact h
  | cons name names ih =>
    rw [List.foldlM_cons] at h ⊢
    cases hfirst : s.enter start name with
    | error e => rw [hfirst] at h; cases h
    | ok next =>
      rw [hfirst] at h
      have hnext : next ≠ place := fun heq => hx (heq ▸ directoryAt_of_foldlM h hd)
      rw [enter_erase hx hfirst hnext]
      exact ih h

theorem checkPath_eq_ok : checkPath path = .ok () ↔ '\x00' ∉ path.toList ∧ path ≠ "" ∧ path.utf8ByteSize ≤ Path.maxPath := by
  grind [checkPath]

theorem remove_of_resolve (h : s.resolve path = .ok place) :
    s.remove path =
      match s.hold? place with
      | some hold => .error hold.fault
      | none => .ok (s.erase place) := by
  rw [remove, h]
  rfl

theorem remove_of_resolve_error {e : Fault} (h : s.resolve path = .error e) : s.remove path = .error e := by
  rw [remove, h]
  rfl

end Host.FileSystem

/-! ## Pins -/

namespace Pins

open Host.FileSystem

theorem plain_names : ∀ name ∈ names, Path.Plain name := by
  intro name hname
  have hall : ∀ name ∈ names, name ≠ "" ∧ '/' ∉ name.toList ∧ '.' ∉ name.toList ∧ name.utf8ByteSize ≤ Path.maxName := by
    decide
  obtain ⟨hne, hslash, hdot, hshort⟩ := hall name hname
  exact ⟨hne, hslash, hdot, hshort⟩

theorem nodup_names : names.Nodup := by decide

/-- A path to the directory at a place. The system takes it with the name of a pin
behind it. -/
structure PinDirectory (s : FileSystem Content) (dir : String) (loc : Location) : Prop where
  leads : (Path.names dir).foldlM s.enter (s.start dir) = .ok loc
  directory : s.DirectoryAt loc
  takes : ∀ name ∈ names, checkPath (Path.join dir name) = .ok ()

variable {dir name : String} {loc : Location} {s : FileSystem Content}

theorem PinDirectory.erase {place : Location} (h : PinDirectory s dir loc) (hx : ¬s.DirectoryAt place) :
    PinDirectory (s.erase place) dir loc := by
  refine ⟨foldlM_enter_erase h.leads h.directory hx, ?_, h.takes⟩
  obtain ⟨fs, hfs⟩ := h.directory
  have hne : place ≠ loc := fun heq => hx ⟨fs, heq ▸ hfs⟩
  exact ⟨fs, by rw [node?_erase, if_neg hne, hfs]⟩

theorem PinDirectory.resolve (h : PinDirectory s dir loc) (hname : name ∈ names) :
    s.resolve (Path.join dir name) =
      if (s.node? (loc ++ [name])).isSome then .ok (loc ++ [name]) else .error .notFound := by
  have hplain := plain_names name hname
  have hstart : s.start (Path.join dir name) = s.start dir := by
    rw [start, start, Path.isAbsolute_join hplain]
  rw [FileSystem.resolve, h.takes name hname, Path.endsInSlash_join hplain, Path.names_join_of_plain hplain, hstart]
  change ((Path.names dir ++ [name]).foldlM s.enter (s.start dir)) = _
  rw [List.foldlM_append, h.leads]
  change [name].foldlM s.enter loc = _
  rw [List.foldlM_cons, enter_of_plain h.directory hplain]
  split <;> rfl

end Pins

end Splice
