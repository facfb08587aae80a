import Mathlib.Data.List.DropRight
import Mathlib.Data.List.Nodup
import Splice.Config
/-!
# The first fault of a configuration

The checks of a configuration stand in a fixed order, and each interface name has
one of its own. A validation `Reports` the fault of the first check that fails, and
none if the configuration is `Valid`. The interface names that were seen are those
with a smaller index, so it is the least index with a blank or repeated name that
counts.
-/

namespace Splice

theorem Text.trim_eq_empty_iff {s : String} : trim s = "" ↔ isBlank s = true := by
  have hfront : (∀ c ∈ s.toList.dropWhile isSpace, isSpace c = true) ↔ s.toList.dropWhile isSpace = [] := by
    rw [← List.dropWhile_eq_nil_iff, List.dropWhile_idempotent]
  calc trim s = "" ↔ ∀ c ∈ s.toList.dropWhile isSpace, isSpace c = true := by
        simp only [trim, String.ofList_eq_empty_iff, List.reverse_eq_nil_iff, List.dropWhile_eq_nil_iff, List.mem_reverse]
    _ ↔ isBlank s = true := by rw [hfront, List.dropWhile_eq_nil_iff, isBlank, List.all_eq_true]

/-- The words for log levels. -/
def Log.Level.words : List String := ["trace", "debug", "info", "warn", "error"]

theorem Log.Level.isNone_ofWord? {s : String} : (ofWord? s).isNone = true ↔ s ∉ words := by
  have hwords : words = all.map word := rfl
  rw [ofWord?, Option.isNone_iff_eq_none, List.find?_eq_none, hwords, List.mem_map, not_exists]
  simp only [beq_iff_eq, not_and]

namespace Config

/-- What is checked of a configuration. -/
inductive Check where
  | objectGiven
  | objectFound
  | pinPathAbsolute
  | cgroupFound
  /-- The name of the interface at an index. -/
  | interface (i : Nat)
  | levelKnown

/-- The checks in the order they are made. -/
def checks (c : Config) : List Check :=
  [.objectGiven, .objectFound, .pinPathAbsolute, .cgroupFound] ++
    ((List.range c.interfaces.length).map .interface ++ [.levelKnown])

section Faults
variable (isFile isDirectory : String → Bool) (c : Config)

/-- The configuration fails a check, and this is the fault. -/
inductive Fails : Check → ConfigError → Prop
  | objectEmpty : c.object = "" → Fails .objectGiven .objectEmpty
  | objectNotFound : isFile c.object = false → Fails .objectFound (.objectNotFound c.object)
  | pinPathRelative : Host.Path.isAbsolute c.pinPath = false → Fails .pinPathAbsolute (.pinPathRelative c.pinPath)
  | cgroupNotFound {path : String} :
      c.cgroupPath = some path → isDirectory path = false → Fails .cgroupFound (.cgroupNotFound path)
  | interfaceBlank {i : Nat} {name : String} :
      c.interfaces[i]? = some name → Text.trim name = "" → Fails (.interface i) .interfaceBlank
  | interfaceRepeated {i j : Nat} {name : String} :
      c.interfaces[i]? = some name → j < i → c.interfaces[j]? = some name → Fails (.interface i) (.interfaceRepeated name)
  | levelUnknown : c.logging.level ∉ Log.Level.words → Fails .levelKnown (.levelUnknown c.logging.level)

/-- The configuration can be used. -/
structure Valid : Prop where
  objectGiven : c.object ≠ ""
  objectFound : isFile c.object = true
  pinPathAbsolute : Host.Path.isAbsolute c.pinPath = true
  cgroupFound : ∀ path, c.cgroupPath = some path → isDirectory path = true
  interfacesNamed : ∀ name ∈ c.interfaces, Text.trim name ≠ ""
  interfacesDistinct : c.interfaces.Nodup
  levelKnown : c.logging.level ∈ Log.Level.words

/-- What a validation says if it makes these checks: nothing if none fails, or else
the fault of the first that does. -/
def Reports (checks : List Check) : Except ConfigError Unit → Prop
  | .ok () => ∀ check ∈ checks, ∀ e, ¬Fails isFile isDirectory c check e
  | .error e => ∃ before check after, checks = before ++ check :: after ∧ Fails isFile isDirectory c check e ∧
      ∀ earlier ∈ before, ∀ e', ¬Fails isFile isDirectory c earlier e'

end Faults

variable {isFile isDirectory : String → Bool} {c : Config} {check : Check} {checks later : List Check} {e : ConfigError}
variable {r r' : Except ConfigError Unit}

/-! ## One check after the other -/

theorem Reports.fails (h : Fails isFile isDirectory c check e) : Reports isFile isDirectory c (check :: checks) (.error e) :=
  ⟨[], check, checks, rfl, h, fun _ h => absurd h List.not_mem_nil⟩

theorem Reports.passes (hcheck : ∀ e, ¬Fails isFile isDirectory c check e) (h : Reports isFile isDirectory c checks r) :
    Reports isFile isDirectory c (check :: checks) r := by
  cases r with
  | ok => exact List.forall_mem_cons.2 ⟨hcheck, h⟩
  | error e =>
    obtain ⟨before, failing, after, rfl, hfails, hbefore⟩ := h
    exact ⟨check :: before, failing, after, rfl, hfails, List.forall_mem_cons.2 ⟨hcheck, hbefore⟩⟩

theorem Reports.bind (h : Reports isFile isDirectory c checks r) (h' : Reports isFile isDirectory c later r') :
    Reports isFile isDirectory c (checks ++ later) (r >>= fun _ => r') := by
  cases r with
  | error e =>
    obtain ⟨before, failing, after, rfl, hfails, hbefore⟩ := h
    exact ⟨before, failing, after ++ later, by simp, hfails, hbefore⟩
  | ok =>
    change Reports isFile isDirectory c (checks ++ later) r'
    induction checks with
    | nil => exact h'
    | cons check checks ih =>
      obtain ⟨hcheck, hchecks⟩ := List.forall_mem_cons.1 h
      exact passes hcheck (ih hchecks)

/-- The names from index `k` on are checked when those before it have been seen. -/
theorem checkInterfaces_reports {k : Nat} {seen names : List String} (hnames : c.interfaces.drop k = names)
    (hseen : ∀ name, name ∈ seen ↔ ∃ j < k, c.interfaces[j]? = some name) :
    Reports isFile isDirectory c ((List.range' k names.length).map .interface) (checkInterfaces seen names) := by
  induction names generalizing k seen with
  | nil => exact fun _ h => absurd h List.not_mem_nil
  | cons name names ih =>
    have hname : c.interfaces[k]? = some name := by
      have hfirst := congrArg (·[0]?) hnames
      rwa [List.getElem?_drop, Nat.add_zero] at hfirst
    have hrest : c.interfaces.drop (k + 1) = names := by rw [← List.tail_drop, hnames, List.tail_cons]
    rw [List.length_cons, List.range'_succ, List.map_cons, checkInterfaces]
    split
    · rename_i hblank
      exact .fails (.interfaceBlank hname (Text.trim_eq_empty_iff.2 hblank))
    rename_i hblank
    split
    · rename_i hrepeated
      obtain ⟨j, hj, hsame⟩ := (hseen name).1 hrepeated
      exact .fails (.interfaceRepeated hname hj hsame)
    rename_i hnew
    refine .passes (fun e he => ?_) (ih hrest fun other => ?_)
    · cases he with
      | interfaceBlank hother htrim =>
        rw [hname] at hother
        cases hother
        exact hblank (Text.trim_eq_empty_iff.1 htrim)
      | interfaceRepeated hother hj hsame =>
        rw [hname] at hother
        cases hother
        exact hnew ((hseen name).2 ⟨_, hj, hsame⟩)
    · rw [List.mem_cons, hseen]
      constructor
      · rintro (rfl | ⟨j, hj, hother⟩)
        · exact ⟨k, Nat.lt_succ_self k, hname⟩
        · exact ⟨j, Nat.lt_succ_of_lt hj, hother⟩
      · rintro ⟨j, hj, hother⟩
        rcases Nat.lt_succ_iff_lt_or_eq.1 hj with hj | rfl
        · exact .inr ⟨j, hj, hother⟩
        · rw [hname] at hother
          exact .inl (Option.some.inj hother).symm

/-- A check that is one test. -/
theorem Reports.test {p : Prop} [Decidable p] (hfails : p → Fails isFile isDirectory c check e)
    (honly : ∀ e', Fails isFile isDirectory c check e' → p) (h : Reports isFile isDirectory c checks r) :
    Reports isFile isDirectory c (check :: checks) (if p then .error e else r) := by
  split
  · rename_i hp
    exact fails (hfails hp)
  · rename_i hp
    exact passes (fun e' he => hp (honly e' he)) h

theorem validate_reports (isFile isDirectory : String → Bool) (c : Config) :
    Reports isFile isDirectory c c.checks (c.validate isFile isDirectory) := by
  have hinterfaces : Reports isFile isDirectory c ((List.range c.interfaces.length).map .interface)
      (checkInterfaces [] c.interfaces) := by
    rw [List.range_eq_range']
    exact checkInterfaces_reports rfl (by simp)
  have hlevel : Reports isFile isDirectory c [.levelKnown]
      (if (Log.Level.ofWord? c.logging.level).isNone then .error (.levelUnknown c.logging.level) else .ok ()) := by
    refine .test (fun h => .levelUnknown (Log.Level.isNone_ofWord?.1 h)) (fun e he => ?_) fun _ h => absurd h List.not_mem_nil
    cases he with
    | levelUnknown h => exact Log.Level.isNone_ofWord?.2 h
  unfold validate checks
  refine .test .objectEmpty ?_ (.test ?_ ?_ (.test ?_ ?_ (.test ?_ ?_ (hinterfaces.bind hlevel))))
  · rintro e ⟨hobject⟩
    exact hobject
  · exact fun hfile => .objectNotFound (by simpa using hfile)
  · rintro e ⟨⟩
    simpa
  · exact fun hpins => .pinPathRelative (by simpa using hpins)
  · rintro e ⟨⟩
    simpa
  · intro hcgroup
    cases hpath : c.cgroupPath with
    | none => simp [hpath] at hcgroup
    | some path => exact .cgroupNotFound hpath (by simpa [hpath] using hcgroup)
  · rintro e (_ | _ | _ | ⟨hpath, hdirectory⟩)
    simp [hpath, hdirectory]

/-! ## Valid configurations -/

theorem Valid.not_fails (h : Valid isFile isDirectory c) : ¬Fails isFile isDirectory c check e := by
  rintro (hobject | hfile | hpins | ⟨hpath, hdirectory⟩ | ⟨hname, hblank⟩ | ⟨hname, hlt, hsame⟩ | hlevel)
  · exact h.objectGiven hobject
  · exact Bool.false_ne_true (hfile.symm.trans h.objectFound)
  · exact Bool.false_ne_true (hpins.symm.trans h.pinPathAbsolute)
  · exact Bool.false_ne_true (hdirectory.symm.trans (h.cgroupFound _ hpath))
  · exact h.interfacesNamed _ (List.mem_of_getElem? hname) hblank
  · obtain ⟨hlength, -⟩ := List.getElem?_eq_some_iff.1 hname
    exact List.nodup_iff_getElem?_ne_getElem?.1 h.interfacesDistinct _ _ hlt hlength (hsame.trans hname.symm)
  · exact hlevel h.levelKnown

theorem interface_mem_checks {i : Nat} {name : String} (h : c.interfaces[i]? = some name) : .interface i ∈ c.checks := by
  obtain ⟨hlength, -⟩ := List.getElem?_eq_some_iff.1 h
  refine List.mem_append_right _ (List.mem_append_left _ (List.mem_map.2 ⟨i, List.mem_range.2 hlength, rfl⟩))

theorem valid_of_not_fails (h : ∀ check ∈ c.checks, ∀ e, ¬Fails isFile isDirectory c check e) :
    Valid isFile isDirectory c where
  objectGiven hobject := h .objectGiven (by simp [checks]) _ (.objectEmpty hobject)
  objectFound := eq_true_of_ne_false fun hfile => h .objectFound (by simp [checks]) _ (.objectNotFound hfile)
  pinPathAbsolute :=
    eq_true_of_ne_false fun hpins => h .pinPathAbsolute (by simp [checks]) _ (.pinPathRelative hpins)
  cgroupFound path hpath :=
    eq_true_of_ne_false fun hdirectory =>
      h .cgroupFound (by simp [checks]) _ (.cgroupNotFound hpath hdirectory)
  interfacesNamed name hmem hblank := by
    obtain ⟨i, hname⟩ := List.mem_iff_getElem?.1 hmem
    exact h _ (interface_mem_checks hname) _ (.interfaceBlank hname hblank)
  interfacesDistinct := by
    refine List.nodup_iff_getElem?_ne_getElem?.2 fun i j hlt hlength hsame => ?_
    have hname : c.interfaces[j]? = some c.interfaces[j] := List.getElem?_eq_getElem hlength
    exact h _ (interface_mem_checks hname) _ (.interfaceRepeated hname hlt (hsame.trans hname))
  levelKnown := by
    by_contra hlevel
    exact h .levelKnown (by simp [checks]) _ (.levelUnknown hlevel)

/-- A configuration is accepted exactly if it is valid. Otherwise the fault is that
of the first check that fails: of the object, the pin directory and the cgroup, then
of each interface name from the first on, then of the log level. -/
theorem validate_reports_first_fault (isFile isDirectory : String → Bool) (c : Config) :
    (c.validate isFile isDirectory = .ok () ↔ Valid isFile isDirectory c) ∧
      ∀ e, c.validate isFile isDirectory = .error e →
        ∃ before check after, c.checks = before ++ check :: after ∧ Fails isFile isDirectory c check e ∧
          ∀ earlier ∈ before, ∀ e', ¬Fails isFile isDirectory c earlier e' := by
  have hreports := validate_reports isFile isDirectory c
  refine ⟨⟨fun hok => ?_, fun hvalid => ?_⟩, fun e he => ?_⟩
  · rw [hok] at hreports
    exact valid_of_not_fails hreports
  · cases hr : c.validate isFile isDirectory with
    | ok => rfl
    | error e =>
      rw [hr] at hreports
      obtain ⟨_, _, _, -, hfails, -⟩ := hreports
      exact absurd hfails hvalid.not_fails
  · rw [he] at hreports
    exact hreports

example : validate (fun _ => true) (fun _ => true) ⟨"/opt/programs.o", "/pins", none, ["lo", " ", "lo"], ⟨"loud", false⟩⟩ =
    .error .interfaceBlank := by decide

end Config

end Splice
