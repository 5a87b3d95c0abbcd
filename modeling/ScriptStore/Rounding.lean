/-!
# Rounding a quotient

The nearest whole number to a quotient of natural numbers. A remainder below one half goes
down and one above it goes up; what an exact half does is chosen by the caller.
-/

namespace ScriptStore

/-! ## Ties -/

/-- Where a value halfway between two neighbours goes. -/
inductive Tie where
  /-- To the neighbour whose last digit is even. -/
  | toEven
  /-- To the larger neighbour. -/
  | up
  deriving DecidableEq, Repr

/-- The neighbour chosen for the value halfway between `q` and `q + 1`. -/
def Tie.pick (tie : Tie) (q : Nat) : Nat :=
  match tie with
  | .toEven => if q % 2 = 0 then q else q + 1
  | .up => q + 1

/-! ## Quotients -/

/-- The whole number nearest to `n / d`. -/
def roundDiv (tie : Tie) (n d : Nat) : Nat :=
  if 2 * (n % d) < d then n / d
  else if d < 2 * (n % d) then n / d + 1
  else tie.pick (n / d)

end ScriptStore
