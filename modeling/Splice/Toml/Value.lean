/-!
# Values of a TOML document

A table remembers how it came to be, since that decides who may still add to it.
`assign`, `openTable` and `appendTable` are the three ways a document adds to its
root table; each gives nothing when it would define a name twice.
-/

namespace Splice.Toml

/-- How a table came to be. -/
inductive Origin where
  /-- By its own header. -/
  | header
  /-- By the header of a table inside it. -/
  | implied
  /-- By a dotted key. -/
  | dotted
  /-- By braces, which close it for good. -/
  | braces
deriving DecidableEq, Inhabited, Repr

inductive Value where
  | text (s : String)
  | boolean (b : Bool)
  /-- A number, date or time, as it is spelled. -/
  | literal (s : String)
  | array (items : List Value)
  | table (origin : Origin) (entries : List (String × Value))
  /-- An array of tables, one for each header in double brackets. -/
  | tables (rows : List (List (String × Value)))
deriving Inhabited, Repr

/-- The entries of a table in the order they were first named. -/
abbrev Entries := List (String × Value)

namespace Entries

/-- The value under a name. -/
def get? (es : Entries) (k : String) : Option Value := (es.find? (·.1 == k)).map (·.2)

/-- Gives `k` the value that `f` makes of the one it has, if `f` makes any. -/
def alter (k : String) (f : Option Value → Option Value) : Entries → Option Entries
  | [] => (f none).map fun v => [(k, v)]
  | (j, v) :: es =>
    if j = k then (f (some v)).map fun w => (j, w) :: es
    else (alter k f es).map ((j, v) :: ·)

/-- Gives a value to a dotted key. Tables on the way must be of dotted keys. -/
def assign (es : Entries) (path : List String) (v : Value) : Option Entries :=
  match path with
  | [] => none
  | [k] => alter k (fun | none => some v | some _ => none) es
  | k :: ks => alter k (fun
    | none => (assign [] ks v).map (.table .dotted)
    | some (.table .dotted inner) => (assign inner ks v).map (.table .dotted)
    | some _ => none) es

/-- Changes the last element of a list. -/
def onLast {α : Type} (f : α → Option α) : List α → Option (List α)
  | [] => none
  | [a] => (f a).map ([·])
  | a :: as => (onLast f as).map (a :: ·)

/-- Changes the table that the names of a header lead to, the last table of an
array of tables standing for the array. A missing table is implied. -/
def within (es : Entries) (path : List String) (f : Entries → Option Entries) : Option Entries :=
  match path with
  | [] => f es
  | k :: ks => alter k (fun
    | none => (within [] ks f).map (.table .implied)
    | some (.table .braces _) => none
    | some (.table origin inner) => (within inner ks f).map (.table origin)
    | some (.tables rows) => (onLast (fun row => within row ks f) rows).map .tables
    | some _ => none) es

/-- Opens the table of a header. -/
def openTable (es : Entries) (path : List String) : Option Entries :=
  match path.getLast? with
  | none => none
  | some k => es.within path.dropLast <| alter k fun
    | none => some (.table .header [])
    | some (.table .implied inner) => some (.table .header inner)
    | some _ => none

/-- Appends a table to the array of a header in double brackets. -/
def appendTable (es : Entries) (path : List String) : Option Entries :=
  match path.getLast? with
  | none => none
  | some k => es.within path.dropLast <| alter k fun
    | none => some (.tables [[]])
    | some (.tables rows) => some (.tables (rows ++ [[]]))
    | some _ => none

end Entries

end Splice.Toml
