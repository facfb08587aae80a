import Splice.Log.Record
import Splice.Text.Blank
/-!
# Filters

A filter is a list of directives, each naming a level and the records it is
for: those whose origin begins with a given text and that have given fields. The
most specific directive for a record decides whether it is written. A directive
may also name a span of work; no record of this program stands in one, so such a
directive is for no record.
-/

namespace Splice.Log

structure Directive where
  /-- What the origin's name begins with. -/
  origin : Option String
  /-- Names of fields the record has. -/
  fields : List String
  /-- The record stands in a span of some name, or has a field of some value. -/
  spanned : Bool
  /-- The least grave level that is written; none for no record at all. -/
  level : Option Level
deriving DecidableEq, Inhabited, Repr

abbrev Filter := List Directive

namespace Filter

/-! ## Reading -/

/-- A level by its name, in letters of either case, or by its rank; the inner
option is none for the level above all. -/
def level? (s : String) : Option (Option Level) :=
  let digits := if s.startsWith "+" then (s.toList.drop 1) else s.toList
  if digits ≠ [] ∧ digits.all Char.isDigit then
    match digits.foldl (fun n c => n * 10 + (c.toNat - 48)) 0 with
    | 0 => some none
    | n => (Level.all.find? (·.rank == n)).map some
  else if s.toLower = "off" then some none
  else (Level.ofWord? s.toLower).map some

/-- The level after an equals sign; nothing means all records. -/
def levelAfter? (cs : List Char) : Option (Option Level) :=
  if cs = [] then some (some .trace) else level? (String.ofList cs)

/-- What may follow a closing bracket. -/
def afterBracket? : List Char → Option (Option Level)
  | [] => some (some .trace)
  | '=' :: cs => levelAfter? cs
  | _ => none

/-- The part of a directive that follows an opening bracket: the name of a span,
and maybe a field in braces. -/
def bracket? (origin : Option String) (cs : List Char) : Option Directive :=
  let name := cs.takeWhile fun c => c ≠ ']' ∧ c ≠ '\x7b'
  match cs.drop name.length with
  | ']' :: rest => (afterBracket? rest).map fun level => ⟨origin, [], name ≠ [], level⟩
  | '\x7b' :: rest =>
    let field := rest.takeWhile (· ≠ '\x7d')
    match field, rest.drop field.length with
    | _ :: _, '\x7d' :: ']' :: rest =>
      (afterBracket? rest).map fun level =>
        ⟨origin, [String.ofList field], name ≠ [] ∨ '=' ∈ field, level⟩
    | _, _ => none
  | _ => none

/-- The letters a directive may begin with. -/
def opens (c : Char) : Bool := c.isAlphanum || c == '-' || c == ':' || c == '_' || 128 ≤ c.toNat

/-- Reads one directive. -/
def directive? (s : String) : Option Directive :=
  match (Text.trim s).toList with
  | [] => none
  | '[' :: cs => bracket? none cs
  | c :: cs =>
    if opens c then
      let name := (c :: cs).takeWhile fun c => c ≠ '=' ∧ c ≠ '['
      let origin := String.ofList name
      match (c :: cs).drop name.length with
      | '=' :: rest => (levelAfter? rest).map fun level => ⟨some origin, [], false, level⟩
      | '[' :: rest => bracket? (some origin) rest
      | _ =>
        match level? origin with
        | some level => some ⟨none, [], false, level⟩
        | none => some ⟨some origin, [], false, some .trace⟩
    else none

/-- Reads directives between commas. No text at all is the filter that lets
nothing through. -/
def read? (s : String) : Option Filter :=
  if s = "" then some [] else (s.splitOn ",").mapM directive?

/-- Lets through the records of a level and graver ones. -/
def ofLevel (level : Level) : Filter := [⟨none, [], false, some level⟩]

/-! ## Deciding -/

/-- The directive is for the report. -/
def concerns (d : Directive) (r : Report) : Bool :=
  !d.spanned && d.origin.all (fun text => text.toList.isPrefixOf r.origin.name.toList) &&
    d.fields.all fun name => name == "message" || r.record.fields.any (·.1 == name)

/-- How specific a directive is: first by its origin, then by its fields. -/
def rank (d : Directive) : Nat × Nat :=
  (match d.origin with | none => 0 | some text => text.utf8ByteSize + 1, d.fields.length)

/-- The first is at least as specific as the second. -/
def outranks (d e : Directive) : Bool :=
  (rank e).1 < (rank d).1 || ((rank e).1 == (rank d).1 && (rank e).2 ≤ (rank d).2)

/-- The most specific directive for a report, the last of them if there are
several. -/
def deciding (f : Filter) (r : Report) : Option Directive :=
  (f.filter (concerns · r)).foldl
    (fun best d =>
      match best with
      | none => some d
      | some b => if outranks d b then some d else some b) none

/-- The report is written. -/
def passes (f : Filter) (r : Report) : Bool :=
  match f.deciding r with
  | some { level := some level, .. } => r.record.level.rank ≤ level.rank
  | _ => false

end Filter

end Splice.Log
