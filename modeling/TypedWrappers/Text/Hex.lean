/-!
# Hexadecimal digits

The digits of hexadecimal numbers, read in either case and written in lower case, and the numbers that name no
character because they are halves of surrogate pairs.
-/

namespace TypedWrappers.Text

/-- The value of a hexadecimal digit. -/
def hexDigit? (c : Char) : Option Nat :=
  if '0' ≤ c ∧ c ≤ '9' then some (c.toNat - 48)
  else if 'a' ≤ c ∧ c ≤ 'f' then some (c.toNat - 87)
  else if 'A' ≤ c ∧ c ≤ 'F' then some (c.toNat - 55)
  else none

/-- The number that hexadecimal digits write. -/
def hexNumber? (digits : List Char) : Option Nat :=
  digits.foldlM (fun n c => (hexDigit? c).map (n * 16 + ·)) 0

/-- The hexadecimal digit of a number below sixteen. -/
def lowerHexDigit (n : Nat) : Char :=
  if n < 10 then Char.ofNat (48 + n) else Char.ofNat (87 + n)

/-- Whether a number is a unit of a surrogate pair. -/
def isSurrogate (n : Nat) : Bool :=
  0xD800 ≤ n && n ≤ 0xDFFF

/-- The character with a number, unless the number is a surrogate or too large. -/
def characterOf? (n : Nat) : Option Char :=
  if isSurrogate n || 0x10FFFF < n then none else some (Char.ofNat n)

end TypedWrappers.Text
