import Splice.Toml.Text
/-!
# Numbers, dates and times of a TOML document

Predicates on the spelling of a value that is neither a string nor a truth
value. An underscore may stand between two digits.
-/

namespace Splice.Toml.Literal

def isDecimal (c : Char) : Bool := '0' ≤ c && c ≤ '9'

/-- Digits of a class, underscores standing between two of them only. -/
def isRun (digit : Char → Bool) : List Char → Bool
  | [] => false
  | [c] => digit c
  | c :: '_' :: cs => digit c && isRun digit cs
  | c :: cs => digit c && isRun digit cs

/-- The characters behind an optional sign. -/
def unsigned : List Char → List Char
  | '+' :: cs => cs
  | '-' :: cs => cs
  | cs => cs

/-- Decimal digits without a leading zero. -/
def isWhole (cs : List Char) : Bool :=
  match cs with
  | '0' :: rest => rest.isEmpty
  | _ => isRun isDecimal cs

def isInteger (cs : List Char) : Bool :=
  match cs with
  | '0' :: 'x' :: rest => isRun (fun c => (hexValue? c).isSome) rest
  | '0' :: 'o' :: rest => isRun (fun c => '0' ≤ c && c ≤ '7') rest
  | '0' :: 'b' :: rest => isRun (fun c => c == '0' || c == '1') rest
  | _ => isWhole (unsigned cs)

/-- What follows the sign of an exponent letter. -/
def isExponent (cs : List Char) : Bool := isRun isDecimal (unsigned cs)

/-- Splits at the first exponent letter. -/
def splitExponent (cs : List Char) : List Char × Option (List Char) :=
  match cs.span (fun c => c != 'e' && c != 'E') with
  | (front, _ :: back) => (front, some back)
  | (front, []) => (front, none)

def isFloat (cs : List Char) : Bool :=
  let cs := unsigned cs
  if cs = "inf".toList ∨ cs = "nan".toList then true
  else
    let (mantissa, exponent) := splitExponent cs
    let exponentOk := exponent.all isExponent
    match mantissa.span (· != '.') with
    | (whole, _ :: fraction) => isWhole whole && isRun isDecimal fraction && exponentOk
    | (whole, []) => isWhole whole && exponent.isSome && exponentOk

/-! ## Dates and times -/

/-- The value of exactly `n` digits at the front, and the rest. -/
def digits (n : Nat) (cs : List Char) : Option (Nat × List Char) :=
  if (cs.take n).length = n ∧ (cs.take n).all isDecimal then
    (Decimal.read? (cs.take n)).map (·, cs.drop n)
  else none

/-- Drops a character that must be there. -/
def drop? (c : Char) : List Char → Option (List Char)
  | d :: cs => if d = c then some cs else none
  | [] => none

def isLeap (year : Nat) : Bool := year % 4 == 0 && (year % 100 != 0 || year % 400 == 0)

def daysIn (year month : Nat) : Nat :=
  if month = 2 then (if isLeap year then 29 else 28)
  else if month = 4 ∨ month = 6 ∨ month = 9 ∨ month = 11 then 30
  else 31

/-- The characters behind a date. -/
def date? (cs : List Char) : Option (List Char) := do
  let (year, cs) ← digits 4 cs
  let (month, cs) ← digits 2 (← drop? '-' cs)
  let (day, cs) ← digits 2 (← drop? '-' cs)
  if 1 ≤ month ∧ month ≤ 12 ∧ 1 ≤ day ∧ day ≤ daysIn year month then some cs else none

/-- The characters behind a fraction of a second, if one starts here. -/
def fraction? : List Char → Option (List Char)
  | '.' :: cs =>
    match cs with
    | c :: _ => if isDecimal c then some (cs.dropWhile isDecimal) else none
    | [] => none
  | cs => some cs

/-- The characters behind a time; seconds may be left out. -/
def time? (cs : List Char) : Option (List Char) := do
  let (hour, cs) ← digits 2 cs
  let (minute, cs) ← digits 2 (← drop? ':' cs)
  if hour ≤ 23 ∧ minute ≤ 59 then
    match cs with
    | ':' :: cs => do
      let (second, cs) ← digits 2 cs
      if second ≤ 60 then fraction? cs else none
    | _ => some cs
  else none

/-- An offset from universal time makes up the rest, or there is none. -/
def isOffset : List Char → Bool
  | [] => true
  | ['Z'] => true
  | ['z'] => true
  | '+' :: cs => hours cs
  | '-' :: cs => hours cs
  | _ => false
where
  hours (cs : List Char) : Bool :=
    (do
      let (hour, cs) ← digits 2 cs
      let (minute, cs) ← digits 2 (← drop? ':' cs)
      return hour ≤ 23 && minute ≤ 59 && cs.isEmpty : Option Bool).getD false

/-- A date, a time, or both. -/
def isMoment (cs : List Char) : Bool :=
  match date? cs with
  | some [] => true
  | some (c :: rest) => (c == 'T' || c == 't' || c == ' ') && ((time? rest).map isOffset).getD false
  | none => ((time? cs).map List.isEmpty).getD false

/-- The spelling of a number, date or time. -/
def isValid (cs : List Char) : Bool := isInteger cs || isFloat cs || isMoment cs

end Splice.Toml.Literal
