import MsnGuard.RustText

/-!
# Text operations of the app

The app's string functions differ from the engine's in what they take for whitespace, and a
comparison that ignores case folds single characters.
-/

namespace MsnGuard.KotlinText

open RustText

/-- Whitespace or a space character. -/
def isWhitespace (c : Char) : Bool :=
  let n := c.toNat
  (9≤n && n≤13) || (0x1C≤n && n≤0x20) || n == 0xA0 || n == 0x1680 ||
    (0x2000≤n && n≤0x200A) || n == 0x2028 || n == 0x2029 || n == 0x202F ||
    n == 0x205F || n == 0x3000

/-- Remove the leading and the trailing whitespace. -/
def trim (s : Text) : Text := (s.dropWhile isWhitespace).rdropWhile isWhitespace

/-- Has the text nothing but whitespace? -/
def isBlank (s : Text) : Bool := s.all isWhitespace

/-- The text, or another one if it is blank. -/
def ifBlank (s other : Text) : Text := if isBlank s then other else s

/-- The text, or nothing if it is blank. -/
def nonBlank (s : Text) : Option Text := if isBlank s then none else some s

/-- What a character is compared as when case is ignored and the other side is
ASCII: two dotless or dotted letters, the long s and the Kelvin sign fold into it. -/
def foldCase (c : Char) : Char :=
  if c.toNat=0x130 ∨ c.toNat=0x131 then 'i'
  else if c.toNat=0x17F then 's'
  else if c.toNat=0x212A then 'k'
  else c.toLower

/-- Does the text begin with an ASCII text, up to case? -/
def startsWithIgnoreCase (head s : Text) : Bool :=
  decide (head.map foldCase=(s.take head.length).map foldCase)

/-- The decimal digits of a number. -/
def decimal (n : ℤ) : Text := (toString n).toList

/-- A number has at least one digit. -/
theorem decimal_ne_nil (n : ℤ) : decimal n≠[] := by
  unfold decimal
  cases n with
  | ofNat n | negSucc n => simp [toString,Int.repr]

/-- The zeros of the decimal digits that one code unit can hold; the nine digits that follow a
zero stand right behind it. -/
def digitZeros : List ℕ :=
  [0x30,0x660,0x6F0,0x7C0,0x966,0x9E6,0xA66,0xAE6,0xB66,0xBE6,0xC66,0xCE6,0xD66,0xDE6,0xE50,0xED0,
    0xF20,0x1040,0x1090,0x17E0,0x1810,0x1946,0x19D0,0x1A80,0x1A90,0x1B50,0x1BB0,0x1C40,0x1C50,
    0xA620,0xA8D0,0xA900,0xA9D0,0xA9F0,0xAA50,0xABF0,0xFF10]

/-- A decimal digit of any script. -/
def isDigit (c : Char) : Bool := digitZeros.any fun first => first≤c.toNat && c.toNat<first+10

/-- The value of a decimal digit of any script. -/
def digitValue (c : Char) : Option ℕ :=
  (digitZeros.find? fun first => first≤c.toNat && c.toNat<first+10).map (c.toNat - ·)

/-- The value of digits, of which there may be none. -/
def digitsValue (s : Text) : Option ℕ :=
  s.foldlM (fun value c => (digitValue c).map (value*10 + ·)) 0

/-- A number of 32 bits, with or without a sign. -/
def toIntOrNull (s : Text) : Option ℤ :=
  let within (bound value : ℕ) : Option ℕ := if value≤bound then some value else none
  match s with
  | [] => none
  | first::rest =>
    if first.toNat<48 then
      if rest=[] then none
      else if first = '-' then ((digitsValue rest).bind (within (2^31))).map fun n => -(n : ℤ)
      else if first = '+' then ((digitsValue rest).bind (within (2^31-1))).map (↑)
      else none
    else ((digitsValue s).bind (within (2^31-1))).map (↑)

end MsnGuard.KotlinText
