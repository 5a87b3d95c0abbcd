import ScriptStore.Json.Basic

/-!
# Writing JSON texts

One writer serves two layouts. The compact layout has no blanks; the pretty one puts each item
and field on a line of its own, indented by two blanks a level, and a blank after each colon.
Fields are written in their order, and empty arrays and objects as a pair of brackets.
-/

namespace ScriptStore

namespace Json

/-! ## Strings -/

/-- The hexadecimal digit of a value below 16, in lower case. -/
def hexDigit (n : Nat) : Char := Nat.digitChar n

/-- The characters that stand for a character in a string. -/
def escape (c : Char) : List Char :=
  if c = '"' then ['\\', '"']
  else if c = '\\' then ['\\', '\\']
  else if c = '\x08' then ['\\', 'b']
  else if c = '\x0c' then ['\\', 'f']
  else if c = '\n' then ['\\', 'n']
  else if c = '\r' then ['\\', 'r']
  else if c = '\t' then ['\\', 't']
  else if c.toNat < 0x20 then
    ['\\', 'u', '0', '0', hexDigit (c.toNat / 16), hexDigit (c.toNat % 16)]
  else [c]

/-- A string in quotes. -/
def quote (s : String) : List Char := '"' :: (s.toList.flatMap escape ++ ['"'])

/-! ## Layouts -/

/-- How a text is broken into lines. -/
inductive Layout where
  | compact
  | pretty
  deriving DecidableEq, Repr

namespace Layout

/-- What stands before each item and each closing bracket at a level. -/
def lineBreak (layout : Layout) (level : Nat) : List Char :=
  match layout with
  | .compact => []
  | .pretty => '\n' :: List.replicate (2 * level) ' '

/-- What stands between a key and its value. -/
def colon : Layout → List Char
  | .compact => [':']
  | .pretty => [':', ' ']

/-- What stands between two items. -/
def separator (first : Bool) : List Char := if first then [] else [',']

end Layout

/-! ## Values -/

mutual
/-- The characters of a value that starts at a level of indentation. -/
def chars (layout : Layout) (level : Nat) : Json → List Char
  | .null => ['n', 'u', 'l', 'l']
  | .bool true => ['t', 'r', 'u', 'e']
  | .bool false => ['f', 'a', 'l', 's', 'e']
  | .num n => n.chars
  | .str s => quote s
  | .arr [] => ['[', ']']
  | .arr items@(_ :: _) =>
    '[' :: (itemChars layout (level + 1) true items ++ layout.lineBreak level ++ [']'])
  | .obj [] => ['\x7b', '\x7d']
  | .obj fields@(_ :: _) =>
    '\x7b' :: (fieldChars layout (level + 1) true fields ++ layout.lineBreak level ++ ['\x7d'])

/-- The characters of items at a level, with what separates them. -/
def itemChars (layout : Layout) (level : Nat) (first : Bool) : List Json → List Char
  | [] => []
  | item :: rest =>
    Layout.separator first ++ layout.lineBreak level ++ chars layout level item ++
      itemChars layout level false rest

/-- The characters of fields at a level, with what separates them. -/
def fieldChars (layout : Layout) (level : Nat) (first : Bool) : List (String × Json) → List Char
  | [] => []
  | (key, value) :: rest =>
    Layout.separator first ++ layout.lineBreak level ++ quote key ++ layout.colon ++
      chars layout level value ++ fieldChars layout level false rest
end

/-- The text of a value without blanks. -/
def compact (value : Json) : String := String.ofList (chars .compact 0 value)

/-- The text of a value with a line for each item and field. -/
def pretty (value : Json) : String := String.ofList (chars .pretty 0 value)

end Json

end ScriptStore
