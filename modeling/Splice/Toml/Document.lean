import Splice.Toml.Literal
import Splice.Toml.Value
/-!
# Reading a TOML document

A document is a list of lines, each empty, a comment, a header or a key with its
value; a value may run over several lines. `Toml.read` gives the root table of a
well-formed document. Values may nest at most `maxDepth` deep.
-/

namespace Splice.Toml

/-! ## Comments and line ends -/

/-- The characters behind a comment that starts here, if one does. -/
def skipComment : List Char → Option (List Char)
  | '#' :: cs =>
    let rest := cs.dropWhile fun c => !isControl c
    match rest with
    | [] => some []
    | _ => if (lineEnd? rest).isSome then some rest else none
  | cs => some cs

/-- The characters behind blanks, an optional comment and the end of the line. -/
def finishLine (cs : List Char) : Option (List Char) :=
  match skipComment (skipBlanks cs) with
  | none => none
  | some [] => some []
  | some cs => lineEnd? cs

/-- Drops blanks, comments and line ends. -/
def skipFiller (fuel : Nat) (cs : List Char) : Option (List Char) :=
  match fuel with
  | 0 => none
  | fuel + 1 =>
    match skipLines cs with
    | '#' :: cs => (skipComment ('#' :: cs)).bind (skipFiller fuel)
    | cs => some cs

/-! ## Keys -/

def isBare (c : Char) : Bool := c.isAlphanum || c == '_' || c == '-'

/-- One name of a key. -/
def readName (cs : List Char) : Option (String × List Char) :=
  match cs with
  | '"' :: cs => (readBasic (cs.length + 1) cs).map fun (s, rest) => (String.ofList s, rest)
  | '\'' :: cs => (readLiteral cs).map fun (s, rest) => (String.ofList s, rest)
  | cs =>
    let name := cs.takeWhile isBare
    if name.isEmpty then none else some (String.ofList name, cs.dropWhile isBare)

/-- A key: names with dots between them. Blanks around it are dropped. -/
def readKey (fuel : Nat) (cs : List Char) : Option (List String × List Char) :=
  match fuel with
  | 0 => none
  | fuel + 1 => do
    let (name, rest) ← readName (skipBlanks cs)
    match skipBlanks rest with
    | '.' :: rest => do
      let (names, rest) ← readKey fuel rest
      return (name :: names, rest)
    | rest => return ([name], rest)

/-! ## Values -/

/-- How deep arrays and tables in braces may nest. -/
def maxDepth : Nat := 80

/-- A character that ends a bare value. -/
def endsLiteral (c : Char) : Bool :=
  isBlank c || c == '\n' || c == '\r' || c == ',' || c == ']' || c == '\x7d' || c == '#' || c == '='

/-- A bare value: a truth value, or the spelling of a number, date or time. A
blank may stand between a date and a time. -/
def readBare (cs : List Char) : Option (Value × List Char) :=
  let word := cs.takeWhile fun c => !endsLiteral c
  let rest := cs.dropWhile fun c => !endsLiteral c
  if word = "true".toList then some (.boolean true, rest)
  else if word = "false".toList then some (.boolean false, rest)
  else
    match rest with
    | ' ' :: more =>
      let time := more.takeWhile fun c => !endsLiteral c
      if Literal.date? word == some [] && (time.head?.map Literal.isDecimal).getD false then
        let moment := word ++ ' ' :: time
        if Literal.isMoment moment then
          some (.literal (String.ofList moment), more.dropWhile fun c => !endsLiteral c)
        else none
      else if Literal.isValid word then some (.literal (String.ofList word), rest) else none
    | _ => if Literal.isValid word then some (.literal (String.ofList word), rest) else none

mutual

/-- A value. `depth` levels of nesting are left; `fuel` exceeds twice the number
of characters. -/
def readValue (fuel depth : Nat) (cs : List Char) : Option (Value × List Char) :=
  match fuel with
  | 0 => none
  | fuel + 1 =>
    match cs with
    | '"' :: _ => (readString cs).map fun (s, rest) => (.text s, rest)
    | '\'' :: _ => (readString cs).map fun (s, rest) => (.text s, rest)
    | '[' :: rest =>
      match depth with
      | 0 => none
      | depth + 1 => (readItems fuel depth rest).map fun (items, rest) => (.array items, rest)
    | '\x7b' :: rest =>
      match depth with
      | 0 => none
      | depth + 1 => (readEntries fuel depth [] rest).map fun (es, rest) => (.table .braces es, rest)
    | _ => readBare cs

/-- The items of an array behind its opening bracket or a comma. -/
def readItems (fuel depth : Nat) (cs : List Char) : Option (List Value × List Char) :=
  match fuel with
  | 0 => none
  | fuel + 1 =>
    match skipFiller (cs.length + 1) cs with
    | none => none
    | some (']' :: rest) => some ([], rest)
    | some cs => do
      let (v, rest) ← readValue fuel depth cs
      match ← skipFiller (rest.length + 1) rest with
      | ']' :: rest => return ([v], rest)
      | ',' :: rest => do
        let (vs, rest) ← readItems fuel depth rest
        return (v :: vs, rest)
      | _ => none

/-- The entries of a table in braces behind its opening brace or a comma, added
to those read before. -/
def readEntries (fuel depth : Nat) (es : Entries) (cs : List Char) : Option (Entries × List Char) :=
  match fuel with
  | 0 => none
  | fuel + 1 =>
    match skipFiller (cs.length + 1) cs with
    | none => none
    | some ('\x7d' :: rest) => some (es, rest)
    | some cs => do
      let (key, rest) ← readKey (cs.length + 1) cs
      let rest ← Literal.drop? '=' rest
      let (v, rest) ← readValue fuel depth (skipBlanks rest)
      let es ← es.assign key v
      match ← skipFiller (rest.length + 1) rest with
      | '\x7d' :: rest => return (es, rest)
      | ',' :: rest => readEntries fuel depth es rest
      | _ => none

end

/-! ## Lines -/

/-- The root table so far, and the names of the header the next keys are under. -/
structure Progress where
  root : Entries
  header : List String

/-- A header behind its first bracket. -/
def readHeader (p : Progress) (cs : List Char) : Option (Progress × List Char) :=
  match cs with
  | '[' :: cs => do
    let (key, rest) ← readKey (cs.length + 1) cs
    let rest ← Literal.drop? ']' (← Literal.drop? ']' rest)
    return (⟨← p.root.appendTable key, key⟩, rest)
  | cs => do
    let (key, rest) ← readKey (cs.length + 1) cs
    let rest ← Literal.drop? ']' rest
    return (⟨← p.root.openTable key, key⟩, rest)

/-- A key with its value. -/
def readAssignment (p : Progress) (cs : List Char) : Option (Progress × List Char) := do
  let (key, rest) ← readKey (cs.length + 1) cs
  let rest ← Literal.drop? '=' rest
  let (v, rest) ← readValue (2 * rest.length + 2) maxDepth (skipBlanks rest)
  return ({ p with root := ← p.root.within p.header fun es => es.assign key v }, rest)

/-- The lines from here on. `fuel` exceeds the number of characters. -/
def readLines (fuel : Nat) (p : Progress) (cs : List Char) : Option Entries :=
  match fuel with
  | 0 => none
  | fuel + 1 =>
    match skipLines cs with
    | [] => some p.root
    | '#' :: cs => (finishLine ('#' :: cs)).bind (readLines fuel p)
    | '[' :: cs => do
      let (p, rest) ← readHeader p cs
      readLines fuel p (← finishLine rest)
    | cs => do
      let (p, rest) ← readAssignment p cs
      readLines fuel p (← finishLine rest)

/-- The root table of a document. A byte order mark in front is dropped. -/
def read (s : String) : Option Entries :=
  let cs := s.toList
  let cs := if cs.head? = some '\ufeff' then cs.tail else cs
  readLines (cs.length + 1) ⟨[], []⟩ cs

end Splice.Toml
