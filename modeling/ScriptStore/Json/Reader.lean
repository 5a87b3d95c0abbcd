import ScriptStore.Json.Token

/-!
# Reading JSON texts

The tokens of a text are read one by one. What is open is kept on a stack, innermost first: an
array with its items so far, or an object with its fields so far and the key whose value comes.
At most 127 arrays and objects may be open at a time.
-/

namespace ScriptStore

namespace Json

/-! ## What is open -/

/-- An array or object whose closing bracket has not come. -/
inductive Open where
  /-- An array, its items latest first. -/
  | array (items : List Json)
  /-- An object, its fields in order, and the key of the value that is read. -/
  | object (fields : List (String × Json)) (key : String)

/-- What must come next, inside the open arrays and objects. -/
inductive Reading where
  /-- A value. -/
  | needValue (stack : List Open)
  /-- The first item of an array, or its end. -/
  | needFirstItem (stack : List Open)
  /-- The first key of an object, or its end. -/
  | needFirstKey (stack : List Open)
  /-- A further key of an object with these fields. -/
  | needKey (stack : List Open) (fields : List (String × Json))
  /-- The colon after a key. -/
  | needColon (stack : List Open) (fields : List (String × Json)) (key : String)
  /-- What follows a complete value. -/
  | complete (stack : List Open) (value : Json)

/-- The greatest number of arrays and objects that may be open. -/
def maxOpen : Nat := 127

/-! ## Reading tokens -/

namespace Reading

/-- Reads the first token of a value. -/
def stepValue (stack : List Open) : Token → Option Reading
  | .openArray => if stack.length < maxOpen then some (.needFirstItem stack) else none
  | .openObject => if stack.length < maxOpen then some (.needFirstKey stack) else none
  | .text s => some (.complete stack (.str s))
  | .atom v => some (.complete stack v)
  | _ => none

/-- Reads a token after a complete value. -/
def stepAfter (value : Json) : List Open → Token → Option Reading
  | .array items :: stack, .comma => some (.needValue (.array (value :: items) :: stack))
  | .array items :: stack, .closeArray => some (.complete stack (.arr (value :: items).reverse))
  | .object fields key :: stack, .comma => some (.needKey stack (Entries.insert key value fields))
  | .object fields key :: stack, .closeObject =>
    some (.complete stack (.obj (Entries.insert key value fields)))
  | _, _ => none

/-- Reads one token. -/
def step (reading : Reading) (token : Token) : Option Reading :=
  match reading with
  | .needValue stack => stepValue stack token
  | .needFirstItem stack =>
    if token = .closeArray then some (.complete stack (.arr []))
    else stepValue (.array [] :: stack) token
  | .needFirstKey stack =>
    match token with
    | .closeObject => some (.complete stack (.obj []))
    | .text s => some (.needColon stack [] s)
    | _ => none
  | .needKey stack fields =>
    match token with
    | .text s => some (.needColon stack fields s)
    | _ => none
  | .needColon stack fields key =>
    match token with
    | .colon => some (.needValue (.object fields key :: stack))
    | _ => none
  | .complete stack value => stepAfter value stack token

/-- The value that has been read, when nothing is open. -/
def finish? : Reading → Option Json
  | .complete [] value => some value
  | _ => none

end Reading

/-- The value that a list of tokens stands for. -/
def ofTokens? (tokens : List Token) : Option Json :=
  (tokens.foldlM Reading.step (.needValue [])).bind Reading.finish?

/-- The value of a JSON text, which it must be as a whole. -/
def ofString? (text : String) : Option Json :=
  (tokens? text.toList).bind ofTokens?

end Json

end ScriptStore
