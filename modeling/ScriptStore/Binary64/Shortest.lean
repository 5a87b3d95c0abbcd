import ScriptStore.Binary64

/-!
# The shortest decimal of a double

Many decimals have the same nearest double. Of those with the fewest digits the one closest to
the value is chosen; between two equally close ones the caller's rule decides. The double is the
nearest one to every decimal that is found for it.
-/

namespace ScriptStore

namespace Binary64

/-! ## Candidates -/

/-- Whether `x` is the nearest double to `d` with the sign of `x`. -/
def isNearestTo (x : Binary64) (d : Decimal) : Bool := ofDecimal? x.negative d == some x

/-- The greatest decimal up to the value when `drop` of its digits are given up. -/
def lower (x : Binary64) (drop : Nat) : Decimal := (x.toDecimal.cutDown drop).trim

/-- The least decimal above the value when `drop` of its digits are given up. -/
def upper (x : Binary64) (drop : Nat) : Decimal := (x.toDecimal.cutUp drop).trim

/-- Whether the lower of the two candidates is the closer one. -/
def prefersLower (tie : Tie) (x : Binary64) (drop : Nat) : Bool :=
  roundDiv tie x.toDecimal.significand (Nat.pow 10 drop) ==
    x.toDecimal.significand / Nat.pow 10 drop

/-- The decimal for `x` when `drop` digits are given up: of the two candidates one to which `x` is
nearest, the closer one if there are two. -/
def onGrid? (tie : Tie) (x : Binary64) (drop : Nat) : Option Decimal :=
  if x.isNearestTo (x.lower drop) && (prefersLower tie x drop || !x.isNearestTo (x.upper drop)) then
    some (x.lower drop)
  else if x.isNearestTo (x.upper drop) then some (x.upper drop)
  else none

/-! ## The search -/

/-- The first decimal found while fewer and fewer digits are given up, from `drop` digits down.
With none given up the exact value is left. -/
def searchFrom (tie : Tie) (x : Binary64) : Nat → Decimal
  | 0 => x.toDecimal.trim
  | drop + 1 => (onGrid? tie x (drop + 1)).getD (searchFrom tie x drop)

/-- The shortest decimal whose nearest double is `x`, without trailing zeros and without the
sign. -/
def shortest (tie : Tie) (x : Binary64) : Decimal :=
  searchFrom tie x (x.toDecimal.length - 1)

end Binary64

end ScriptStore
