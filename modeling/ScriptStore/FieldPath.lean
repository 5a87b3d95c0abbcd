/-!
# Places in documents

A place in a document is a path of keys and positions from the root.
-/

namespace ScriptStore

/-! ## Paths -/

/-- One step into a document. -/
inductive PathStep where
  | key (name : String)
  | index (position : Nat)
  deriving DecidableEq, Repr

/-- The steps from the root to a place. -/
abbrev FieldPath := List PathStep

namespace FieldPath

/-- The text of the steps of a path; a key that is not the first step follows a point. -/
def stepsText (first : Bool) : List PathStep → String
  | [] => ""
  | .key name :: rest => (if first then name else "." ++ name) ++ stepsText false rest
  | .index position :: rest => "[" ++ Nat.repr position ++ "]" ++ stepsText false rest

/-- A path as it is shown, such as `actions[0].name`; the root is shown as `$`. -/
def render (path : FieldPath) : String :=
  if path.isEmpty then "$" else stepsText true path

end FieldPath

end ScriptStore
