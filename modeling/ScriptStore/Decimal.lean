/-!
# Decimals

A decimal is a natural significand times a power of ten. The module gives the form without
trailing zeros, the cut to a number of digits, and the two ways to write a decimal: in plain
notation and in scientific notation.
-/

namespace ScriptStore

/-! ## Decimals and their digits -/

/-- The number `significand * 10 ^ exponent`. -/
structure Decimal where
  significand : Nat
  exponent : Int
  deriving DecidableEq, Repr

namespace Decimal

/-- Zero, in the form without trailing zeros. -/
def zero : Decimal := ⟨0, 0⟩

/-- The digits of the significand, most significant first. -/
def digits (d : Decimal) : List Char := Nat.toDigits 10 d.significand

/-- How many digits the significand has; zero has one. -/
def length (d : Decimal) : Nat := d.digits.length

/-- The power of ten of the leading digit. -/
def leadingExponent (d : Decimal) : Int := (d.length : Int) - 1 + d.exponent

/-! ## The form without trailing zeros -/

/-- Moves up to `count` trailing zeros of the significand into the exponent. -/
def dropZeros : Nat → Nat → Int → Decimal
  | 0, significand, exponent => ⟨significand, exponent⟩
  | count + 1, significand, exponent =>
    if significand % 10 = 0 then dropZeros count (significand / 10) (exponent + 1)
    else ⟨significand, exponent⟩

/-- The same number with no trailing zero in the significand. -/
def trim (d : Decimal) : Decimal :=
  if d.significand = 0 then zero else dropZeros d.length d.significand d.exponent

/-! ## Fewer digits -/

/-- The multiple of `10 ^ drop` significand units just below `d`. -/
def cutDown (d : Decimal) (drop : Nat) : Decimal :=
  ⟨d.significand / Nat.pow 10 drop, d.exponent + drop⟩

/-- The multiple of `10 ^ drop` significand units just above `d`. -/
def cutUp (d : Decimal) (drop : Nat) : Decimal :=
  ⟨d.significand / Nat.pow 10 drop + 1, d.exponent + drop⟩

/-! ## Written forms -/

/-- Plain notation: zeros are filled in on either side, and a point stands only where digits
follow it. -/
def plain (d : Decimal) : List Char :=
  match d.exponent with
  | .ofNat zeros => d.digits ++ List.replicate zeros '0'
  | .negSucc p =>
    let places := p + 1
    if places < d.length then
      d.digits.take (d.length - places) ++ '.' :: d.digits.drop (d.length - places)
    else
      '0' :: '.' :: (List.replicate (places - d.length) '0' ++ d.digits)

/-- The exponent part of scientific notation, always with a sign. -/
def exponentPart (e : Int) : List Char :=
  'e' :: (if e < 0 then '-' else '+') :: Nat.toDigits 10 e.natAbs

/-- Scientific notation: one digit before the point, and no point without digits after it. -/
def scientific (d : Decimal) : List Char :=
  d.digits.take 1 ++ (if d.length = 1 then [] else '.' :: d.digits.drop 1) ++
    exponentPart d.leadingExponent

end Decimal

end ScriptStore
