import ScriptStore.Entries

/-!
# Insertion-ordered maps

A map from names to values that remembers the order in which the names came: a value set again
stays in its place, a removed name closes the gap, and a name that comes back goes last. The
statements give each operation through lookup and through the list of keys.
-/

namespace ScriptStore

/-! ## Maps -/

/-- Entries in insertion order, no key repeated. -/
structure OrderedMap (α : Type) where
  entries : List (String × α)
  nodup_keys : (Entries.keys entries).Nodup

namespace OrderedMap

variable {α β : Type}

/-- Maps with the same entries in the same order are equal. -/
@[ext] theorem ext {m n : OrderedMap α} (h : m.entries = n.entries) : m = n := by
  cases m
  cases n
  simp only at h
  subst h
  rfl

instance [DecidableEq α] : DecidableEq (OrderedMap α) := fun m n =>
  decidable_of_iff (m.entries = n.entries) ⟨ext, congrArg entries⟩

/-- The map without entries. -/
def empty : OrderedMap α := ⟨[], List.nodup_nil⟩

instance : EmptyCollection (OrderedMap α) := ⟨empty⟩

instance : Inhabited (OrderedMap α) := ⟨empty⟩

/-! ## Lookup -/

/-- The keys, in insertion order. -/
def keys (m : OrderedMap α) : List String := Entries.keys m.entries

/-- The value of a key. -/
def get? (m : OrderedMap α) (key : String) : Option α := Entries.get? key m.entries

/-- Whether a key has a value. -/
def contains (m : OrderedMap α) (key : String) : Bool := (m.get? key).isSome

/-- The number of entries. -/
def size (m : OrderedMap α) : Nat := m.entries.length

/-- Whether there is no entry. -/
def isEmpty (m : OrderedMap α) : Bool := m.entries.isEmpty

/-- The keys with a value are those listed. -/
theorem contains_iff (m : OrderedMap α) (key : String) : m.contains key = true ↔ key ∈ m.keys :=
  Entries.isSome_get? key m.entries

/-! ## Updates -/

/-- Sets the value of a key, in its place or at the end. -/
def insert (m : OrderedMap α) (key : String) (value : α) : OrderedMap α :=
  ⟨Entries.insert key value m.entries, Entries.nodup_keys_insert key value m.nodup_keys⟩

/-- Removes all of these keys. -/
def eraseAll (m : OrderedMap α) (dropped : List String) : OrderedMap α :=
  ⟨Entries.eraseAll dropped m.entries, Entries.nodup_keys_eraseAll dropped m.nodup_keys⟩

/-- Removes a key. -/
def erase (m : OrderedMap α) (key : String) : OrderedMap α := m.eraseAll [key]

/-- Changes every value and keeps the keys and their order. -/
def map (f : α → β) (m : OrderedMap α) : OrderedMap β :=
  ⟨Entries.mapValues f m.entries, by rw [Entries.keys_mapValues]; exact m.nodup_keys⟩

/-- The map of these entries; a key given twice keeps its first place and its last value. -/
def ofList (entries : List (String × α)) : OrderedMap α :=
  entries.foldl (fun m entry => m.insert entry.1 entry.2) empty

/-- An inserted key is found, and the others are as before. -/
theorem get?_insert (m : OrderedMap α) (key other : String) (value : α) :
    (m.insert key value).get? other = if key = other then some value else m.get? other :=
  Entries.get?_insert key other value m.entries

/-- An inserted key keeps its place or goes last. -/
theorem keys_insert (m : OrderedMap α) (key : String) (value : α) :
    (m.insert key value).keys = if key ∈ m.keys then m.keys else m.keys ++ [key] :=
  Entries.keys_insert key value m.entries

/-- Removed keys are gone and the others keep their order. -/
theorem keys_eraseAll (m : OrderedMap α) (dropped : List String) :
    (m.eraseAll dropped).keys = m.keys.filter (· ∉ dropped) :=
  Entries.keys_eraseAll dropped m.entries

@[simp] theorem entries_empty : (∅ : OrderedMap α).entries = [] := rfl

@[simp] theorem keys_empty : (∅ : OrderedMap α).keys = [] := rfl

@[simp] theorem get?_empty (key : String) : (∅ : OrderedMap α).get? key = none := rfl

/-! ## Comparison without order -/

/-- Whether two maps have the same keys with related values, in whatever order. -/
def sameBy (related : α → α → Bool) (m n : OrderedMap α) : Bool :=
  m.size == n.size && m.entries.all fun entry =>
    match n.get? entry.1 with
    | some other => related entry.2 other
    | none => false

end OrderedMap

end ScriptStore
