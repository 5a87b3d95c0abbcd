import ScriptStore.Member
import ScriptStore.Record

/-!
# States of an entity

What is kept about one entity: its tables and its members. A member is added, replaced and
removed in all tables at once.
-/

namespace ScriptStore

/-! ## States of an entity -/

/-- What is kept about one entity: its tables and its members. -/
structure EntityState where
  record : Record
  members : MemberTree
  deriving DecidableEq

namespace EntityState

/-- The state of an entity that is seen for the first time. -/
def new (name : String) : EntityState := ⟨Record.new name, ∅⟩

/-- Equality up to the order of entries in maps. -/
def same (a b : EntityState) : Bool := a.record.same b.record && a.members.same b.members

/-! ## Functions -/

/-- Declares a function: its name and its data path become reactive, its name is bound and
registered for the entity body, and its member keeps data of a function of that name. -/
def addFunction (state : EntityState) (name source : String) (arguments : List Argument) :
    EntityState :=
  { record :=
      { state.record with
        functions := state.record.functions.insert name (.declared arguments)
        reactivePaths :=
          (state.record.reactivePaths.insert name .smart).insert (dataPath name) .template
        bindingPaths := Names.push state.record.bindingPaths name
        dependencies := state.record.dependencies.pushBody name }
    members := state.members.setSource name source }

/-- Gives a function a new source text; its data is kept. -/
def replaceSource (state : EntityState) (name source : String) : EntityState :=
  { state with members := state.members.setSource name source }

/-- Removes a function from all tables, and its member. -/
def removeFunction (state : EntityState) (name : String) : EntityState :=
  { record :=
      { state.record with
        functions := state.record.functions.erase name
        reactivePaths := (state.record.reactivePaths.erase name).erase (dataPath name)
        bindingPaths := Names.remove state.record.bindingPaths name
        dependencies := state.record.dependencies.removeBody name }
    members := state.members.erase name }

/-! ## Variables -/

/-- Declares a variable: its name becomes reactive and is bound. -/
def addVariable (state : EntityState) (name : String) (value : Json) : EntityState :=
  { record :=
      { state.record with
        vars := state.record.vars ++ [name]
        reactivePaths := state.record.reactivePaths.insert name .smart
        bindingPaths := Names.push state.record.bindingPaths name }
    members := state.members.insert name (.var value) }

/-- Gives a variable a new value. -/
def replaceValue (state : EntityState) (name : String) (value : Json) : EntityState :=
  { state with members := state.members.insert name (.var value) }

/-- Removes a variable from the list of variables and, unless a function of the same name owns
the other entries, from the paths and the members. The dependencies are left as they are. -/
def removeVariable (state : EntityState) (name : String) : EntityState :=
  let undeclared := { state.record with vars := Names.remove state.record.vars name }
  if state.record.hasFunction name then { state with record := undeclared }
  else
    { record :=
        { undeclared with
          reactivePaths := undeclared.reactivePaths.erase name
          bindingPaths := Names.remove undeclared.bindingPaths name }
      members := state.members.erase name }

end EntityState

end ScriptStore
