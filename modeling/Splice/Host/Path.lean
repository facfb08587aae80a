/-!
# Paths

A path is text: names between slashes. Relative to what it is read, and whether
anything stands there, is up to the file system; here it is only taken apart and
put together. `names_join` says that joining adds one name at the end.
-/

namespace Splice.Host.Path

/-- The longest name a directory can hold, in octets. -/
def maxName : Nat := 255

/-- The longest path the system takes, in octets. -/
def maxPath : Nat := 4095

/-- The path starts at the root. -/
def isAbsolute (path : String) : Bool := path.toList.head? == some '/'

/-- The path ends in a slash and so must lead to a directory. -/
def endsInSlash (path : String) : Bool := path.toList.getLast? == some '/'

/-- The runs of characters between slashes, empty ones included. -/
def runs : List Char → List (List Char)
  | [] => [[]]
  | c :: cs =>
    if c = '/' then [] :: runs cs
    else
      match runs cs with
      | [] => [[c]]
      | r :: rs => (c :: r) :: rs

/-- The names of a path, from the first to the last. -/
def names (path : String) : List String := ((runs path.toList).filter (· ≠ [])).map String.ofList

/-- The path `name` below `base`. A name that starts at the root stays itself. -/
def join (base name : String) : String :=
  if isAbsolute name || base = "" then name
  else if endsInSlash base then base ++ name
  else base ++ "/" ++ name

/-- The path of some names, starting at the root or not. -/
def ofNames (absolute : Bool) (names : List String) : String :=
  (if absolute then "/" else "") ++ "/".intercalate names

/-- The paths above a path, the nearest first. A name of one dot stands for
nothing and is passed over. -/
def parents (path : String) : List String :=
  let proper := (names path).filter (· ≠ ".")
  (List.range proper.length).reverse.map fun n => ofNames (isAbsolute path) (proper.take n)

/-! ## Taking apart what was joined -/

theorem runs_ne_nil (cs : List Char) : runs cs ≠ [] := by
  cases cs with
  | nil => simp [runs]
  | cons c cs =>
    simp only [runs]
    split
    · simp
    · split <;> simp

/-- A slash ends a run for good. -/
theorem runs_append_slash (cs ds : List Char) : runs (cs ++ '/' :: ds) = runs cs ++ runs ds := by
  induction cs with
  | nil => simp [runs]
  | cons c cs ih =>
    simp only [List.cons_append, runs, ih]
    split
    · rfl
    · cases h : runs cs with
      | nil => exact absurd h (runs_ne_nil cs)
      | cons r rs => rfl

/-- Characters without a slash are one run. -/
theorem runs_of_no_slash {cs : List Char} (h : '/' ∉ cs) : runs cs = [cs] := by
  induction cs with
  | nil => rfl
  | cons c cs ih =>
    simp only [List.mem_cons, not_or] at h
    simp [runs, Ne.symm h.1, ih h.2]

/-- Joining a name to a base puts it behind the base's names. -/
theorem names_join {base name : String} (hb : base ≠ "") (hn : name ≠ "") (hs : '/' ∉ name.toList) :
    names (join base name) = names base ++ [name] := by
  have hl : name.toList ≠ [] := fun h => hn (String.toList_inj.1 (by simpa using h))
  have ha : isAbsolute name = false := by
    simp only [isAbsolute, beq_eq_false_iff_ne]
    intro h
    exact hs (List.mem_of_head? h)
  have hrun := runs_of_no_slash hs
  simp only [join, ha, hb, Bool.false_or, decide_false, Bool.false_eq_true, if_false]
  split
  · rename_i he
    obtain ⟨front, hf⟩ : ∃ front, base.toList = front ++ ['/'] := by
      simp only [endsInSlash, beq_iff_eq] at he
      exact List.getLast?_eq_some_iff.1 he
    simp [names, String.toList_append, hf, runs_append_slash, hrun, hl, runs]
  · simp [names, String.toList_append, runs_append_slash, hrun, hl]

end Splice.Host.Path
