import ScriptStore.Schema.Basic

/-!
# The schema of store documents

The form that documents of stores should have. It asks for more than reading a store does:
fields must be known ones, values must be written as objects, and names must not be empty.
-/

namespace ScriptStore

namespace Schema

/-! ## Records -/

/-- A string of any length. -/
def text : Schema := .string false

/-- A name, which is not empty. -/
def name : Schema := .string true

/-- An object without required fields whose values are all of one form. -/
def mapOf (form : Schema) : Schema := .object [] [] (some form)

/-- An argument. It may have further fields. -/
def argument : Schema := .object ["name"] [("name", name), ("value", .any)] (some .any)

/-- The metadata of a function. -/
def functionMeta : Schema :=
  .object ["arguments", "isAsync", "confirmBeforeExecute"]
    [("arguments", .array argument), ("isAsync", .boolean), ("confirmBeforeExecute", .boolean)]
    none

/-- How a reactive path is substituted. -/
def substitution : Schema := .label ["SMART_SUBSTITUTE", "TEMPLATE"]

/-- A dynamic binding path. -/
def bindingPath : Schema := .object ["key"] [("key", text)] none

/-- A record. -/
def record : Schema :=
  .object ["name"]
    [("name", name),
      ("variables", .array name),
      ("functions", mapOf functionMeta),
      ("reactivePaths", mapOf substitution),
      ("dynamicBindingPathList", .array bindingPath),
      ("dependencyMap", mapOf (.array text))]
    none

/-! ## Members and stores -/

/-- A member that is a function. -/
def functionMember : Schema :=
  .object ["kind", "body"] [("kind", .label ["function"]), ("body", text), ("data", .any)] none

/-- A member that is a variable. -/
def variableMember : Schema :=
  .object ["kind"] [("kind", .label ["variable"]), ("value", .any)] none

/-- A member of either kind. -/
def member : Schema := .exactlyOne [functionMember, variableMember]

/-- A document of a store. -/
def storeDocument : Schema :=
  .object [] [("configs", mapOf record), ("tree", mapOf (mapOf member))] none

end Schema

end ScriptStore
