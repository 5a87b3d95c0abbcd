/-!
# Lists of entries

Key-value pairs in the order in which the keys came. The functions look at the first entry with
a key; on lists without repeated keys, the only kind that is built from `insert`, that is the one
entry with it. The statements say what each operation does to the list of keys.
-/

namespace ScriptStore

namespace Entries

variable {α β : Type}

/-! ## Lookup -/

/-- The keys, in order. -/
def keys (entries : List (String × α)) : List String := entries.map Prod.fst

/-- The value of the first entry with this key. -/
def get? (key : String) : List (String × α) → Option α
  | [] => none
  | (k, v) :: rest => if k = key then some v else get? key rest

@[simp] theorem keys_nil : keys ([] : List (String × α)) = [] := rfl

@[simp] theorem keys_cons (k : String) (v : α) (rest : List (String × α)) :
    keys ((k, v) :: rest) = k :: keys rest := rfl

/-- A key is found exactly when it is listed. -/
theorem isSome_get? (key : String) (entries : List (String × α)) :
    (get? key entries).isSome = true ↔ key ∈ keys entries := by
  induction entries with
  | nil => simp [get?]
  | cons entry rest ih =>
    obtain ⟨k, v⟩ := entry
    by_cases h : k = key
    · simp [get?, h]
    · simp [get?, h, ih, Ne.symm h]

/-! ## Insertion -/

/-- Sets the value of a key: in its place when it is listed, at the end otherwise. -/
def insert (key : String) (value : α) : List (String × α) → List (String × α)
  | [] => [(key, value)]
  | (k, v) :: rest => if k = key then (k, value) :: rest else (k, v) :: insert key value rest

/-- A listed key keeps its place and a new one goes last. -/
theorem keys_insert (key : String) (value : α) (entries : List (String × α)) :
    keys (insert key value entries) =
      if key ∈ keys entries then keys entries else keys entries ++ [key] := by
  induction entries with
  | nil => rfl
  | cons entry rest ih =>
    obtain ⟨k, v⟩ := entry
    by_cases h : k = key
    · simp [insert, h]
    · by_cases hk : key ∈ keys rest
      · simp [insert, h, ih, hk]
      · simp [insert, h, ih, hk, Ne.symm h]

/-- The inserted key has the inserted value and every other key is as before. -/
theorem get?_insert (key other : String) (value : α) (entries : List (String × α)) :
    get? other (insert key value entries) =
      if key = other then some value else get? other entries := by
  induction entries with
  | nil => rfl
  | cons entry rest ih =>
    obtain ⟨k, v⟩ := entry
    by_cases hk : k = key
    · subst hk
      by_cases ho : k = other <;> simp [insert, get?, ho]
    · by_cases ho : k = other
      · subst ho
        simp [insert, get?, hk, Ne.symm hk]
      · simp [insert, get?, hk, ho, ih]

/-- Insertion repeats no key. -/
theorem nodup_keys_insert (key : String) (value : α) {entries : List (String × α)}
    (h : (keys entries).Nodup) : (keys (insert key value entries)).Nodup := by
  rw [keys_insert]
  split
  · exact h
  · rename_i hk
    rw [List.nodup_append]
    refine ⟨h, by simp, ?_⟩
    intro a ha b hb hab
    rw [List.mem_singleton] at hb
    exact hk (hb ▸ hab ▸ ha)

/-! ## Removal -/

/-- Drops every entry with one of these keys; the others close the gap. -/
def eraseAll (dropped : List String) (entries : List (String × α)) : List (String × α) :=
  entries.filter fun entry => entry.1 ∉ dropped

/-- The remaining keys keep their order. -/
theorem keys_eraseAll (dropped : List String) (entries : List (String × α)) :
    keys (eraseAll dropped entries) = (keys entries).filter (· ∉ dropped) := by
  unfold keys eraseAll
  rw [List.filter_map]
  rfl

/-- Removal repeats no key. -/
theorem nodup_keys_eraseAll (dropped : List String) {entries : List (String × α)}
    (h : (keys entries).Nodup) : (keys (eraseAll dropped entries)).Nodup := by
  rw [keys_eraseAll]
  exact h.filter _

/-! ## Change of values -/

/-- Changes the values and leaves the keys. -/
def mapValues (f : α → β) (entries : List (String × α)) : List (String × β) :=
  entries.map fun entry => (entry.1, f entry.2)

@[simp] theorem keys_mapValues (f : α → β) (entries : List (String × α)) :
    keys (mapValues f entries) = keys entries := by
  unfold keys mapValues
  rw [List.map_map]
  rfl

end Entries

end ScriptStore
