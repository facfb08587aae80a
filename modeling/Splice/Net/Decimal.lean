/-!
# Decimal numerals

Addresses, ports and counters are written in decimal without leading zeros.
`chars` writes a number and `read?` reads a non-empty run of digits.
-/

namespace Splice.Decimal

/-- The digit character of a number below ten. -/
def digit (n : Nat) : Char := Char.ofNat (48 + n)

/-- The decimal numeral of `n`, most significant digit first. -/
def chars (n : Nat) : List Char :=
  if n < 10 then [digit n] else chars (n / 10) ++ [digit (n % 10)]
termination_by n

/-- The value of a digit character. -/
def value? (c : Char) : Option Nat :=
  if 48 ≤ c.toNat ∧ c.toNat ≤ 57 then some (c.toNat - 48) else none

/-- Continues a numeral of value `acc` with the digits `cs`. -/
def readFrom (acc : Nat) : List Char → Option Nat
  | [] => some acc
  | c :: cs => (value? c).bind fun d => readFrom (acc * 10 + d) cs

/-- Reads a numeral; there must be at least one digit and nothing else. -/
def read? : List Char → Option Nat
  | [] => none
  | cs => readFrom 0 cs

/-- The decimal numeral as text. -/
def text (n : Nat) : String := String.ofList (chars n)

/-! ## Reading back what was written -/

theorem value?_digit (d : Nat) (h : d < 10) : value? (digit d) = some d := by
  have : d = 0 ∨ d = 1 ∨ d = 2 ∨ d = 3 ∨ d = 4 ∨ d = 5 ∨ d = 6 ∨ d = 7 ∨ d = 8 ∨ d = 9 := by omega
  rcases this with rfl | rfl | rfl | rfl | rfl | rfl | rfl | rfl | rfl | rfl <;> rfl

theorem readFrom_append (acc : Nat) (xs ys : List Char) :
    readFrom acc (xs ++ ys) = (readFrom acc xs).bind fun n => readFrom n ys := by
  induction xs generalizing acc with
  | nil => rfl
  | cons c xs ih =>
    simp only [List.cons_append, readFrom]
    cases value? c with
    | none => rfl
    | some d => simp [ih]

theorem readFrom_chars (n : Nat) : readFrom 0 (chars n) = some n := by
  induction n using chars.induct with
  | case1 n h => rw [chars, if_pos h]; simp [readFrom, value?_digit n h]
  | case2 n h ih =>
    rw [chars, if_neg h, readFrom_append, ih]
    simp only [Option.bind_some, readFrom, value?_digit (n % 10) (by omega)]
    congr 1; omega

theorem chars_ne_nil (n : Nat) : chars n ≠ [] := by
  rw [chars]; split <;> simp

theorem read?_chars (n : Nat) : read? (chars n) = some n := by
  cases h : chars n with
  | nil => exact absurd h (chars_ne_nil n)
  | cons c cs => rw [read?, ← h]; exact readFrom_chars n; simp

/-- A numeral consists of digits. -/
theorem isDigit_of_mem_chars (n : Nat) : ∀ c ∈ chars n, ∃ d, d < 10 ∧ c = digit d := by
  induction n using chars.induct with
  | case1 n h => rw [chars, if_pos h]; intro c hc; exact ⟨n, h, by simpa using hc⟩
  | case2 n h ih =>
    rw [chars, if_neg h]
    intro c hc
    rcases List.mem_append.1 hc with hc | hc
    · exact ih c hc
    · exact ⟨n % 10, by omega, by simpa using hc⟩

end Splice.Decimal
