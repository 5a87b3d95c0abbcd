import ScriptStore.Binary64.Scaling
import ScriptStore.Binary64.Shortest

/-!
# Numbers of JSON texts

A number is a whole number that fits 64 bits, signed or unsigned, or a double. The module reads a
number from its characters, as RFC 8259 spells it, and writes it: whole numbers with their
digits, doubles with the shortest digits whose nearest double they are. Reading takes in the
digits that fit 64 bits and scales them in double arithmetic, so that a double with many digits
may be read as a neighbour of the one that was written.
-/

namespace ScriptStore

/-! ## Numbers -/

/-- Whether a whole number fits 64 bits, signed or unsigned: from `-2 ^ 63` up to, and without,
`2 ^ 64`. -/
abbrev FitsWord (value : Int) : Prop :=
  -9223372036854775808 ≤ value ∧ value < 18446744073709551616

/-- A whole number that fits 64 bits, or a double. -/
inductive Number where
  | int (value : Int) (fits : FitsWord value)
  | float (value : Binary64)
  deriving DecidableEq

namespace Number

/-- The whole number, if it is in range. -/
def ofInt? (value : Int) : Option Number :=
  if h : FitsWord value then some (.int value h) else none

/-- The nearest double. -/
def toBinary64? : Number → Option Binary64
  | .int value _ => Binary64.ofInt? value
  | .float value => some value

/-- Whether the number is zero. -/
def isZero : Number → Bool
  | .int value _ => value == 0
  | .float value => value.isZero

/-- Equality of stored numbers: whole numbers with whole numbers and doubles with doubles, where
the two zeros of a double are one. -/
def same : Number → Number → Bool
  | .int a _, .int b _ => a == b
  | .float a, .float b => a.sameValue b
  | _, _ => false

/-! ## Reading -/

/-- The leading digits and what follows them. -/
def digitRun (cs : List Char) : List Char × List Char :=
  (cs.takeWhile Char.isDigit, cs.dropWhile Char.isDigit)

/-- The digits before the point: at least one, and no zero before another digit. -/
def wholePart? (cs : List Char) : Option (List Char × List Char) :=
  match digitRun cs with
  | ([], _) => none
  | ('0' :: _ :: _, _) => none
  | split => some split

/-- The digits after a point: none without a point, at least one after it. -/
def fractionPart? : List Char → Option (List Char × List Char)
  | '.' :: cs =>
    match digitRun cs with
    | ([], _) => none
    | split => some split
  | cs => some ([], cs)

/-- A natural number that takes up all characters. -/
def natural? (cs : List Char) : Option Nat :=
  match digitRun cs with
  | ([], _) => none
  | (digits, []) => some (Nat.ofDigitChars 10 digits 0)
  | _ => none

/-- The exponent after an `e`, which takes up all characters that are left. -/
def exponent? : List Char → Option Int
  | '+' :: cs => (natural? cs).map Int.ofNat
  | '-' :: cs => (natural? cs).map fun n => -(n : Int)
  | cs => (natural? cs).map Int.ofNat

/-- The exponent part: none at the end of the characters. -/
def exponentPart? : List Char → Option (Option Int)
  | [] => some none
  | c :: cs => if c = 'e' ∨ c = 'E' then (exponent? cs).map some else none

/-- Takes digits into a significand as long as it fits 64 bits; gives it with the digits that are
left. -/
def takeDigits (significand : Nat) : List Char → Nat × List Char
  | [] => (significand, [])
  | c :: cs =>
    let next := 10 * significand + (c.toNat - '0'.toNat)
    if next < 18446744073709551616 then takeDigits next cs else (significand, c :: cs)

/-- The double of digits before and after the point and an exponent. Digits before the point that
the significand does not take in count as zeros, and those after it are passed over. -/
def ofDigits? (negative : Bool) (whole fraction : List Char) (exponent : Int) :
    Option Binary64 :=
  let (upper, wholeLeft) := takeDigits 0 whole
  let (significand, fractionLeft) := takeDigits upper fraction
  let places := fraction.length - fractionLeft.length
  Binary64.ofScaled? negative significand (exponent + wholeLeft.length - places)

/-- The number written without fraction and exponent: whole if it is in range and not a negative
zero, a double otherwise. -/
def ofWhole? (negative : Bool) (whole : List Char) : Option Number :=
  let value := Nat.ofDigitChars 10 whole 0
  if negative ∧ value = 0 then some (.float (Binary64.zero true))
  else
    match ofInt? (if negative then -(value : Int) else value) with
    | some number => some number
    | none => (ofDigits? negative whole [] 0).map .float

/-- The number of an optional sign and the digits before the point, after it and in the
exponent. -/
def ofParts? (negative : Bool) (whole fraction : List Char) (exponent : Option Int) :
    Option Number :=
  if fraction.isEmpty ∧ exponent.isNone then ofWhole? negative whole
  else (ofDigits? negative whole fraction (exponent.getD 0)).map .float

/-- The number that an unsigned spelling stands for after the sign. -/
def ofUnsigned? (negative : Bool) (cs : List Char) : Option Number := do
  let (whole, afterWhole) ← wholePart? cs
  let (fraction, afterFraction) ← fractionPart? afterWhole
  let exponent ← exponentPart? afterFraction
  ofParts? negative whole fraction exponent

/-- The number that these characters spell, all of them; none if they are no number or one too
large for a double. -/
def ofChars? : List Char → Option Number
  | '-' :: cs => ofUnsigned? true cs
  | cs => ofUnsigned? false cs

/-! ## Writing -/

/-- The characters of a sign. -/
def signChars (negative : Bool) : List Char := if negative then ['-'] else []

/-- A whole number in decimal digits. -/
def intChars (value : Int) : List Char :=
  signChars (value < 0) ++ Nat.toDigits 10 value.natAbs

/-- A decimal as the text of a double: plain with at least one digit after the point while the
leading digit stands for a power of ten from -5 to 15, scientific otherwise. -/
def decimalChars (d : Decimal) : List Char :=
  if -5 ≤ d.leadingExponent ∧ d.leadingExponent < 16 then
    if 0 ≤ d.exponent then d.plain ++ ['.', '0'] else d.plain
  else d.scientific

/-- The characters of a number. Of two equally close shortest decimals a double takes the one
with the even last digit. -/
def chars : Number → List Char
  | .int value _ => intChars value
  | .float value => signChars value.negative ++ decimalChars (value.shortest .toEven)

end Number

end ScriptStore
