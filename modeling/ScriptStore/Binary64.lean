import ScriptStore.Decimal
import ScriptStore.Rounding

/-!
# Double-precision numbers

Finite IEEE 754 doubles as exact values: a sign, a mantissa below `2 ^ 53` and a scale, with
value `mantissa * 2 ^ scale` in units of `2 ^ -1074`, the smallest positive double. Every
double is a decimal exactly, and every decimal in range has a nearest double, ties going to
the even mantissa.
-/

namespace ScriptStore

/-! ## Values -/

/-- Whether a mantissa and a scale are in range and the mantissa has all of its 53 bits, unless
the scale is the smallest one. -/
abbrev IsCanonical (mantissa scale : Nat) : Prop :=
  mantissa < Nat.pow 2 53 ∧ scale ≤ 2045 ∧ (Nat.pow 2 52 ≤ mantissa ∨ scale = 0)

/-- A finite double. Each value has one canonical form; zero has two signs. -/
structure Binary64 where
  negative : Bool
  mantissa : Nat
  scale : Nat
  canonical : IsCanonical mantissa scale
  deriving DecidableEq

namespace Binary64

/-- Zero of either sign. -/
def zero (negative : Bool) : Binary64 := ⟨negative, 0, 0, by decide⟩

instance : Inhabited Binary64 := ⟨zero false⟩

/-- Whether the value is zero, of either sign. -/
def isZero (x : Binary64) : Bool := x.mantissa == 0

/-- Equality of values: the two zeros are equal, all else is equal only to itself. -/
def sameValue (x y : Binary64) : Bool := x == y || (x.isZero && y.isZero)

/-- The double of these parts, if they are in range and in canonical form. -/
def ofParts? (negative : Bool) (mantissa scale : Nat) : Option Binary64 :=
  if h : IsCanonical mantissa scale then some ⟨negative, mantissa, scale, h⟩ else none

/-- The parts of a double give the double back. -/
@[simp] theorem ofParts?_parts (x : Binary64) :
    ofParts? x.negative x.mantissa x.scale = some x := by
  unfold ofParts?
  rw [dif_pos x.canonical]

/-! ## The exact decimal -/

/-- The magnitude as a decimal, exactly. -/
def toDecimal (x : Binary64) : Decimal :=
  ⟨x.mantissa * Nat.pow 2 (x.scale - 1074) * Nat.pow 5 (1074 - x.scale),
    -((1074 - x.scale : Nat) : Int)⟩

/-! ## The nearest double -/

/-- The nearest double to `± num / den`, ties to the even mantissa; none when it would be out of
range. The scale leaves 53 bits of the quotient; a mantissa that rounds up to `2 ^ 53` is
halved. -/
def ofRatio? (negative : Bool) (num den : Nat) : Option Binary64 :=
  let units := num * Nat.pow 2 1074
  let scale := (units / den).log2 + 1 - 53
  let mantissa := roundDiv .toEven units (den * Nat.pow 2 scale)
  if mantissa < Nat.pow 2 53 then ofParts? negative mantissa scale
  else ofParts? negative (Nat.pow 2 52) (scale + 1)

/-- The nearest double to `± d`; none when it would be out of range. A magnitude of `10 ^ 310` or
more is out of range and one below `10 ^ -330` is nearest to zero, whatever the digits. -/
def ofDecimal? (negative : Bool) (d : Decimal) : Option Binary64 :=
  if d.significand = 0 then some (zero negative)
  else if 310 < d.length + d.exponent then none
  else if d.length + d.exponent < -330 then some (zero negative)
  else
    ofRatio? negative (d.significand * Nat.pow 10 d.exponent.toNat)
      (Nat.pow 10 (-d.exponent).toNat)

/-- The nearest double to a whole number. -/
def ofInt? (n : Int) : Option Binary64 := ofRatio? (n < 0) n.natAbs 1

end Binary64

end ScriptStore
