import ScriptStore.Json.Basic
import ScriptStore.OrderedMap

/-!
# Members and their trees

The raw, unevaluated members of entities. A function keeps its source text and the result of its
last execution, a variable its declared value. The members of an entity form a tree, and the
trees of all entities a forest.
-/

namespace ScriptStore

/-! ## Members -/

/-- A raw member of an entity. -/
inductive Member where
  /-- A function with its source text and the data of its last execution. -/
  | function (source : String) (data : Json)
  /-- A variable with its declared value. -/
  | var (value : Json)
  deriving DecidableEq

/-- The data of a function that has not been executed. -/
def emptyData : Json := .obj []

namespace Member

instance : Inhabited Member := ⟨.var .null⟩

/-- Whether the member is a function. -/
def isFunction : Member → Bool
  | .function _ _ => true
  | .var _ => false

/-- The source text of a function. -/
def source? : Member → Option String
  | .function source _ => some source
  | .var _ => none

/-- The data of a function. -/
def data? : Member → Option Json
  | .function _ data => some data
  | .var _ => none

/-- The value of a variable. -/
def value? : Member → Option Json
  | .function _ _ => none
  | .var value => some value

/-- Equality up to the order of fields in values. -/
def same : Member → Member → Bool
  | .function s d, .function t e => s == t && d.same e
  | .var v, .var w => v.same w
  | _, _ => false

end Member

/-! ## Trees -/

/-- The members of an entity by name. -/
abbrev MemberTree := OrderedMap Member

namespace MemberTree

/-- The source text of a function. -/
def source? (members : MemberTree) (name : String) : Option String :=
  (members.get? name).bind Member.source?

/-- The data of a function. -/
def data? (members : MemberTree) (name : String) : Option Json :=
  (members.get? name).bind Member.data?

/-- The value of a variable. -/
def value? (members : MemberTree) (name : String) : Option Json :=
  (members.get? name).bind Member.value?

/-- Sets the source text of a function; data that the function has is kept. -/
def setSource (members : MemberTree) (name source : String) : MemberTree :=
  members.insert name (.function source ((members.data? name).getD emptyData))

/-- Sets the data of a function; none if the name has no function. -/
def setData? (members : MemberTree) (name : String) (data : Json) : Option MemberTree :=
  match members.get? name with
  | some (.function source _) => some (members.insert name (.function source data))
  | _ => none

/-- Equality up to order. -/
def same (a b : MemberTree) : Bool := OrderedMap.sameBy Member.same a b

end MemberTree

/-- The trees of all entities by name. -/
abbrev Forest := OrderedMap MemberTree

/-- Equality of forests up to order. -/
def Forest.same (a b : Forest) : Bool := OrderedMap.sameBy MemberTree.same a b

end ScriptStore
