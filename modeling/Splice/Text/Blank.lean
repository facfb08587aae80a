/-!
# Blank text

Text is blank when every character of it is white space in the sense of
Unicode's property of that name.
-/

namespace Splice.Text

/-- The characters with the Unicode property White_Space. -/
def isSpace (c : Char) : Bool :=
  (0x9 ≤ c.toNat && c.toNat ≤ 0xd) || c.toNat == 0x20 || c.toNat == 0x85 || c.toNat == 0xa0 ||
    c.toNat == 0x1680 || (0x2000 ≤ c.toNat && c.toNat ≤ 0x200a) || c.toNat == 0x2028 ||
    c.toNat == 0x2029 || c.toNat == 0x202f || c.toNat == 0x205f || c.toNat == 0x3000

/-- Nothing is left of the text when white space is trimmed from both ends. -/
def isBlank (s : String) : Bool := s.toList.all isSpace

/-- The text without white space at its ends. -/
def trim (s : String) : String :=
  String.ofList (((s.toList.dropWhile isSpace).reverse.dropWhile isSpace).reverse)

end Splice.Text
