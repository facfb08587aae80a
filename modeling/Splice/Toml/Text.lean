import Splice.Net.Decimal
/-!
# Strings of a TOML document

A string stands between single or double quotes, once or three times. Between
double quotes a backslash starts an escape; between three quotes line ends are
part of the string, except one right after the opening quotes and, between
double quotes, those that a backslash at the end of a line swallows. Controls
other than the tab are refused. Each reader takes the characters after the
opening quotes and gives the string and the rest.
-/

namespace Splice.Toml

/-- A character no string or comment holds as it is. -/
def isControl (c : Char) : Bool := (c.toNat < 0x20 && c != '\t') || c.toNat == 0x7f

/-- Blanks within a line. -/
def isBlank (c : Char) : Bool := c == ' ' || c == '\t'

def skipBlanks (cs : List Char) : List Char := cs.dropWhile isBlank

def hexValue? (c : Char) : Option Nat :=
  if '0' ≤ c ∧ c ≤ '9' then some (c.toNat - 48)
  else if 'a' ≤ c ∧ c ≤ 'f' then some (c.toNat - 87)
  else if 'A' ≤ c ∧ c ≤ 'F' then some (c.toNat - 55)
  else none

/-- Reads exactly `n` hexadecimal digits on top of the value so far. -/
def readHex : Nat → Nat → List Char → Option (Nat × List Char)
  | 0, value, cs => some (value, cs)
  | n + 1, value, c :: cs => (hexValue? c).bind fun d => readHex n (value * 16 + d) cs
  | _ + 1, _, [] => none

/-- The character of a code point that has one. -/
def scalar? (n : Nat) : Option Char := if n.isValidChar then some (Char.ofNat n) else none

/-- Reads `n` hexadecimal digits as a character. -/
def readScalar (n : Nat) (cs : List Char) : Option (Char × List Char) :=
  (readHex n 0 cs).bind fun (value, rest) => (scalar? value).map (·, rest)

/-- Reads an escape behind its backslash. -/
def readEscape : List Char → Option (Char × List Char)
  | 'b' :: cs => some ('\x08', cs)
  | 't' :: cs => some ('\t', cs)
  | 'n' :: cs => some ('\n', cs)
  | 'f' :: cs => some ('\x0c', cs)
  | 'r' :: cs => some ('\r', cs)
  | 'e' :: cs => some ('\x1b', cs)
  | '"' :: cs => some ('"', cs)
  | '\\' :: cs => some ('\\', cs)
  | 'x' :: cs => readScalar 2 cs
  | 'u' :: cs => readScalar 4 cs
  | 'U' :: cs => readScalar 8 cs
  | _ => none

/-- The characters behind a line end that starts here. -/
def lineEnd? : List Char → Option (List Char)
  | '\n' :: cs => some cs
  | '\r' :: '\n' :: cs => some cs
  | _ => none

/-- Drops blanks and line ends. -/
def skipLines : List Char → List Char
  | ' ' :: cs => skipLines cs
  | '\t' :: cs => skipLines cs
  | '\n' :: cs => skipLines cs
  | '\r' :: '\n' :: cs => skipLines cs
  | cs => cs

/-- A line end behind opening quotes is not part of the string. -/
def skipFirstLineEnd (cs : List Char) : List Char := (lineEnd? cs).getD cs

section Readers

/-- Puts a character in front of a string that was read. -/
def prepend (c : Char) : Option (List Char × List Char) → Option (List Char × List Char)
  | none => none
  | some (s, rest) => some (c :: s, rest)

/-- Up to a single quote, on one line. -/
def readLiteral : List Char → Option (List Char × List Char)
  | [] => none
  | '\'' :: cs => some ([], cs)
  | c :: cs => if isControl c then none else prepend c (readLiteral cs)

/-- Quotes at the end of a string between three quotes: the last three close it,
and one or two before them belong to it. -/
def closing (quote : Char) (cs : List Char) : List Char × List Char :=
  let n := min 5 (cs.takeWhile (· == quote)).length
  (List.replicate (n - 3) quote, cs.drop n)

/-- Up to three single quotes. -/
def readLiteralLines : List Char → Option (List Char × List Char)
  | [] => none
  | '\'' :: '\'' :: '\'' :: cs => some (closing '\'' ('\'' :: '\'' :: '\'' :: cs))
  | '\r' :: '\n' :: cs => prepend '\n' (readLiteralLines cs)
  | '\n' :: cs => prepend '\n' (readLiteralLines cs)
  | c :: cs => if isControl c then none else prepend c (readLiteralLines cs)

/-- Up to a double quote, on one line. `fuel` is at least the number of
characters. -/
def readBasic (fuel : Nat) (cs : List Char) : Option (List Char × List Char) :=
  match fuel, cs with
  | 0, _ => none
  | _, [] => none
  | _ + 1, '"' :: cs => some ([], cs)
  | fuel + 1, '\\' :: cs => (readEscape cs).bind fun (c, rest) => prepend c (readBasic fuel rest)
  | fuel + 1, c :: cs => if isControl c then none else prepend c (readBasic fuel cs)

/-- Up to three double quotes. `fuel` is at least the number of characters. -/
def readBasicLines (fuel : Nat) (cs : List Char) : Option (List Char × List Char) :=
  match fuel, cs with
  | 0, _ => none
  | _, [] => none
  | _ + 1, '"' :: '"' :: '"' :: cs => some (closing '"' ('"' :: '"' :: '"' :: cs))
  | fuel + 1, '\r' :: '\n' :: cs => prepend '\n' (readBasicLines fuel cs)
  | fuel + 1, '\n' :: cs => prepend '\n' (readBasicLines fuel cs)
  | fuel + 1, '\\' :: cs =>
    match lineEnd? (skipBlanks cs) with
    | some rest => readBasicLines fuel (skipLines rest)
    | none => (readEscape cs).bind fun (c, rest) => prepend c (readBasicLines fuel rest)
  | fuel + 1, c :: cs => if isControl c then none else prepend c (readBasicLines fuel cs)

/-- Reads a string of any of the four kinds, from its opening quotes on. -/
def readString (cs : List Char) : Option (String × List Char) :=
  let read :=
    match cs with
    | '\'' :: '\'' :: '\'' :: cs => readLiteralLines (skipFirstLineEnd cs)
    | '\'' :: cs => readLiteral cs
    | '"' :: '"' :: '"' :: cs => readBasicLines (cs.length + 1) (skipFirstLineEnd cs)
    | '"' :: cs => readBasic (cs.length + 1) cs
    | _ => none
  read.map fun (s, rest) => (String.ofList s, rest)

end Readers

end Splice.Toml
