import ScriptStore.Json.Basic

/-!
# Loose comparison of values

Whether a variable counts as changed is decided as a script would compare its old and its new
value: by truth and by text. An old value that is absent or false in a condition always counts
as changed; two values that are true in a condition are compared by their texts only.
-/

namespace ScriptStore

namespace Json

/-! ## Truth -/

/-- Whether a value is true in a condition. -/
def truthy : Json → Bool
  | .null => false
  | .bool b => b
  | .num n => !n.isZero
  | .str s => !s.isEmpty
  | .arr _ => true
  | .obj _ => true

/-! ## Text -/

/-- A double as a script text, in plain notation always: whole numbers below `10 ^ 21` with all
their digits, all others with the shortest digits whose nearest double they are, the larger of
two equally close ones. The sign of zero is not written. -/
def doubleText (x : Binary64) : String :=
  let exact := x.toDecimal.trim
  if x.isZero then "0"
  else if 0 ≤ exact.exponent ∧ exact.leadingExponent < 21 then
    String.ofList (Number.signChars x.negative ++ exact.plain)
  else String.ofList (Number.signChars x.negative ++ (x.shortest .up).plain)

/-- A number as a script text. -/
def numberText : Number → String
  | .int value _ => String.ofList (Number.intChars value)
  | .float value => doubleText value

mutual
/-- A value as a script text. The items of an array are joined with commas. -/
def text : Json → String
  | .null => "null"
  | .bool true => "true"
  | .bool false => "false"
  | .num n => numberText n
  | .str s => s
  | .arr items => String.intercalate "," (itemTexts items)
  | .obj _ => "[object Object]"

/-- The texts of the items of an array, in which `null` has an empty text. -/
def itemTexts : List Json → List String
  | [] => []
  | item :: rest => (if item.isNull then "" else text item) :: itemTexts rest
end

/-! ## Comparison -/

/-- Equality without coercion: scalars of one kind with one value. Arrays and objects are equal
to nothing, and numbers are compared as doubles. -/
def strictEq : Json → Json → Bool
  | .null, .null => true
  | .bool a, .bool b => a == b
  | .str a, .str b => a == b
  | .num a, .num b =>
    match a.toBinary64?, b.toBinary64? with
    | some x, some y => x.sameValue y
    | _, _ => false
  | _, _ => false

/-- The old side of the comparison: the text of a true value, and `false` otherwise. -/
def oldOperand : Option Json → Json
  | some value => if value.truthy then .str value.text else .bool false
  | none => .bool false

/-- The new side of the comparison: the text of a true value, and any other value itself. -/
def newOperand (value : Json) : Json := if value.truthy then .str value.text else value

/-- Whether a variable that had the old value, if any, has changed to the new one. -/
def changed (old : Option Json) (new : Json) : Bool :=
  !strictEq (oldOperand old) (newOperand new) || !old.any truthy

end Json

end ScriptStore
