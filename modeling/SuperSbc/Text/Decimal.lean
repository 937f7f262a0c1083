import SuperSbc.Text.Reading

/-!
Decimal texts: numbers filled up with zeros to a width, and decimal fractions as
`decimal.NewFromString` reads them.
-/

namespace SuperSbc.Text

/-- A number with zeros before it, up to a width. -/
def padded (width n : ℕ) : List Char :=
  List.replicate (width - (Nat.toDigits 10 n).length) '0' ++ Nat.toDigits 10 n

/-- So many digits. -/
def readDigits (width : ℕ) (s : List Char) : Option (ℕ × List Char) :=
  if width ≤ s.length ∧ (s.take width).all Char.isDigit then
    some (Nat.ofDigitChars 10 (s.take width) 0, s.drop width)
  else none

/-- A number with at most one point in it, as a whole number and its places. -/
def readPoint (s : List Char) : Option (ℤ × ℕ) :=
  let whole := s.takeWhile (· ≠ '.')
  match s.dropWhile (· ≠ '.') with
  | [] => (readInt whole).map (fun n => (n, 0))
  | _ :: places =>
    if '.' ∈ places then none else (readInt (whole ++ places)).map (fun n => (n, places.length))

/-- Does a power of ten follow? -/
def isExponent (c : Char) : Bool := c = 'e' || c = 'E'

def readPower : List Char → Option ℤ
  | [] => some 0
  | _ :: power => (readInt power).filter (fun n => -2 ^ 31 ≤ n ∧ n < 2 ^ 31)

/-- `decimal.NewFromString`: a number and, after an `e`, a power of ten. Powers
are kept in 32 bits. -/
def newFromString (s : List Char) : Option ℚ := do
  let shift ← readPower (s.dropWhile (!isExponent ·))
  let number ← readPoint (s.takeWhile (!isExponent ·))
  let power := shift - number.2
  if -2 ^ 31 ≤ power ∧ power < 2 ^ 31 then some (number.1 * 10 ^ power) else none

example : newFromString "12.50e-1".toList = some (5 / 4) := by decide +kernel

end SuperSbc.Text
