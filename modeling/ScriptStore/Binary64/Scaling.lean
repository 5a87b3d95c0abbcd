import ScriptStore.Binary64

/-!
# Doubles scaled by powers of ten

A significand and an exponent can be turned into a double in double arithmetic: the significand
is rounded to a double, the double is multiplied or divided by a power of ten that is a double
itself, and the result is rounded again. This is quick and gives the nearest double for short
numbers, but the second rounding may move the result to a neighbour of the nearest double: of
9999999999999999 times 100000 the nearest double is below `10 ^ 21`, and the scaled one is
`10 ^ 21`.
-/

namespace ScriptStore

namespace Binary64

/-! ## Products and quotients -/

/-- The magnitude in units of `2 ^ -1074`. -/
def units (x : Binary64) : Nat := x.mantissa * Nat.pow 2 x.scale

/-- The magnitude with another sign. -/
def withSign (negative : Bool) (x : Binary64) : Binary64 :=
  ⟨negative, x.mantissa, x.scale, x.canonical⟩

/-- The double nearest to a product; none when it would be out of range. -/
def mul? (x y : Binary64) : Option Binary64 :=
  ofRatio? (x.negative != y.negative) (x.units * y.units) (Nat.pow 2 2148)

/-- The double nearest to a quotient; none when it would be out of range, and none for a division
by zero. -/
def div? (x y : Binary64) : Option Binary64 :=
  if y.isZero then none else ofRatio? (x.negative != y.negative) x.units y.units

/-! ## Powers of ten -/

/-- The exponent of the greatest power of ten that is in range. -/
def maxTenPower : Nat := 308

/-- The double nearest to `10 ^ n`, if that is in range. -/
def tenPower? (n : Nat) : Option Binary64 :=
  if n ≤ maxTenPower then ofRatio? false (Nat.pow 10 n) 1 else none

/-- Multiplies by `10 ^ n`. Zero stays zero even if the power is out of range. -/
def scaleUp? (x : Binary64) (n : Nat) : Option Binary64 :=
  if x.isZero then some x else (tenPower? n).bind x.mul?

/-- Divides by the greatest power of ten a number of times, as long as it is not zero. -/
def divideOften? (x : Binary64) : Nat → Option Binary64
  | 0 => some x
  | times + 1 =>
    if x.isZero then some x
    else ((tenPower? maxTenPower).bind x.div?).bind fun next => next.divideOften? times

/-- Divides by `10 ^ n`, in several steps if the power is out of range. -/
def scaleDown? (x : Binary64) (n : Nat) : Option Binary64 :=
  let times := (n - 1) / maxTenPower
  (x.divideOften? times).bind fun next =>
    if next.isZero then some next
    else (tenPower? (n - maxTenPower * times)).bind next.div?

/-! ## Significand and exponent -/

/-- The double that double arithmetic gives for `± significand * 10 ^ exponent`; none when it
would be out of range. -/
def ofScaled? (negative : Bool) (significand : Nat) (exponent : Int) : Option Binary64 :=
  (ofRatio? false significand 1).bind fun whole =>
    (match exponent with
      | .ofNat n => whole.scaleUp? n
      | .negSucc n => whole.scaleDown? (n + 1)).map (withSign negative)

end Binary64

end ScriptStore
