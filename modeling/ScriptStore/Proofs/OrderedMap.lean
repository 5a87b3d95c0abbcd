import ScriptStore.OrderedMap

/-!
# Insertion-ordered maps under batches of updates

A map is determined by the order of its keys and by its lookups.  The module gives both for a
batch of insertions (`OrderedMap.insertAll`) and a batch of removals (`OrderedMap.eraseAll`), and
shows that a batch of removals is what the single removals do one after the other.

The batches are what the tables of an entity undergo in a pass, so these lemmas are the only ones
about entries that the rest of the theory uses.
-/

namespace ScriptStore

/-! ## Lists of entries -/

namespace Entries

variable {α β : Type}

/-- The first entry of a key counts. -/
theorem get?_cons (key k : String) (v : α) (rest : List (String × α)) :
    get? key ((k, v) :: rest) = if k = key then some v else get? key rest := rfl

/-- Nothing is found under a key that is not there. -/
theorem get?_eq_none_iff (key : String) (entries : List (String × α)) :
    get? key entries = none ↔ key ∉ keys entries := by
  rw [← isSome_get?, Option.not_isSome_iff_eq_none]

/-- Entries without a repeated key are determined by the keys in order and the lookups. -/
theorem ext_of_keys {entries others : List (String × α)} (hnd : (keys entries).Nodup)
    (hkeys : keys entries = keys others)
    (hget : ∀ key, get? key entries = get? key others) : entries = others := by
  induction entries generalizing others with
  | nil =>
    cases others with
    | nil => rfl
    | cons entry rest => cases hkeys
  | cons entry rest ih =>
    obtain ⟨k, v⟩ := entry
    cases others with
    | nil => cases hkeys
    | cons other tail =>
      obtain ⟨l, w⟩ := other
      rw [keys_cons, keys_cons, List.cons.injEq] at hkeys
      obtain ⟨rfl, htail⟩ := hkeys
      rw [keys_cons, List.nodup_cons] at hnd
      have hvw : v = w := by
        have h := hget k
        rw [get?_cons, get?_cons, if_pos rfl, if_pos rfl] at h
        exact Option.some.inj h
      have hrest : rest = tail := by
        refine ih hnd.2 htail (fun key => ?_)
        by_cases hk : k = key
        -- the head key is found in neither tail, since no key is repeated
        · subst hk
          rw [(get?_eq_none_iff k rest).mpr hnd.1,
            (get?_eq_none_iff k tail).mpr (htail ▸ hnd.1)]
        · have h := hget key
          rwa [get?_cons, get?_cons, if_neg hk, if_neg hk] at h
      rw [hvw, hrest]

/-- Lookup after a batch of removals. -/
theorem get?_eraseAll (dropped : List String) (key : String) (entries : List (String × α)) :
    get? key (eraseAll dropped entries) = if key ∈ dropped then none else get? key entries := by
  induction entries with
  | nil => simp [eraseAll, get?]
  | cons entry rest ih =>
    obtain ⟨k, v⟩ := entry
    unfold eraseAll at ih ⊢
    by_cases hk : k ∈ dropped
    · rw [List.filter_cons_of_neg (by simpa using hk), ih, get?_cons]
      by_cases hkey : k = key
      · subst hkey
        rw [if_pos hk, if_pos hk]
      · rw [if_neg hkey]
    · rw [List.filter_cons_of_pos (by simpa using hk), get?_cons, get?_cons, ih]
      by_cases hkey : k = key
      · subst hkey
        rw [if_pos rfl, if_pos rfl, if_neg hk]
      · rw [if_neg hkey, if_neg hkey]

/-- Setting a key to the value that it has changes nothing. -/
theorem insert_of_get? {key : String} {value : α} {entries : List (String × α)}
    (h : get? key entries = some value) : insert key value entries = entries := by
  induction entries with
  | nil => cases h
  | cons entry rest ih =>
    obtain ⟨k, v⟩ := entry
    rw [get?_cons] at h
    by_cases hk : k = key
    · rw [if_pos hk, Option.some.injEq] at h
      rw [insert, if_pos hk, h]
    · rw [if_neg hk] at h
      rw [insert, if_neg hk, ih h]

/-- A removal after a removal drops the keys of both. -/
theorem eraseAll_eraseAll (dropped more : List String) (entries : List (String × α)) :
    eraseAll more (eraseAll dropped entries) = eraseAll (dropped ++ more) entries := by
  unfold eraseAll
  rw [List.filter_filter]
  refine List.filter_congr (fun entry _ => ?_)
  simp [Bool.and_comm]

/-- An insertion does not show among the entries whose keys pass a test, unless its key does. -/
theorem filter_insert {test : String → Bool} {key : String} (h : test key = false) (value : α)
    (entries : List (String × α)) :
    (insert key value entries).filter (fun entry => test entry.1) =
      entries.filter (fun entry => test entry.1) := by
  induction entries with
  | nil =>
    unfold insert
    rw [List.filter_cons_of_neg (by simp [h])]
  | cons entry rest ih =>
    obtain ⟨k, v⟩ := entry
    by_cases hk : k = key
    · subst hk
      rw [insert, if_pos rfl, List.filter_cons_of_neg (by simp [h]),
        List.filter_cons_of_neg (by simp [h])]
    · rw [insert, if_neg hk, List.filter_cons, List.filter_cons, ih]

/-- An insertion does not show once its key is removed. -/
theorem eraseAll_insert_of_mem {dropped : List String} {key : String} (h : key ∈ dropped)
    (value : α) (entries : List (String × α)) :
    eraseAll dropped (insert key value entries) = eraseAll dropped entries := by
  let kept : String → Bool := fun k => k ∉ dropped
  have hkept : kept key = false := by simpa [kept] using h
  exact filter_insert hkept value entries

/-- A removal does not show among entries that all stay. -/
theorem filter_eraseAll {test : String → Bool} {dropped : List String}
    (h : ∀ key ∈ dropped, test key = false) (entries : List (String × α)) :
    (eraseAll dropped entries).filter (fun entry => test entry.1) =
      entries.filter (fun entry => test entry.1) := by
  rw [eraseAll, List.filter_filter]
  refine List.filter_congr (fun entry _ => ?_)
  by_cases hkey : entry.1 ∈ dropped
  · rw [h entry.1 hkey, Bool.false_and]
  · simp [hkey]

/-- A lookup of a key that passes a test sees the entries that pass it only. -/
theorem get?_filter {test : String → Bool} {key : String} (h : test key = true)
    (entries : List (String × α)) :
    get? key (entries.filter fun entry => test entry.1) = get? key entries := by
  induction entries with
  | nil => rfl
  | cons entry rest ih =>
    obtain ⟨k, v⟩ := entry
    by_cases hk : k = key
    · subst hk
      rw [List.filter_cons_of_pos (by simp [h]), get?_cons, get?_cons, if_pos rfl, if_pos rfl]
    · rw [List.filter_cons, get?_cons, if_neg hk, ← ih]
      split
      · rw [get?_cons, if_neg hk]
      · rfl

/-- A lookup after a change of values finds the changed value. -/
theorem get?_mapValues (f : α → β) (key : String) (entries : List (String × α)) :
    get? key (mapValues f entries) = (get? key entries).map f := by
  induction entries with
  | nil => rfl
  | cons entry rest ih =>
    obtain ⟨k, v⟩ := entry
    show get? key ((k, f v) :: mapValues f rest) = _
    rw [get?_cons, get?_cons, ih]
    split <;> rfl

/-- Values are changed before or after an entry is written. -/
theorem mapValues_insert (f : α → β) (key : String) (value : α) (entries : List (String × α)) :
    mapValues f (insert key value entries) = insert key (f value) (mapValues f entries) := by
  induction entries with
  | nil => rfl
  | cons entry rest ih =>
    obtain ⟨k, v⟩ := entry
    show _ = insert key (f value) ((k, f v) :: mapValues f rest)
    rw [insert, insert]
    split
    · rfl
    · rw [← ih]
      rfl

/-- Values are changed before or after entries are removed. -/
theorem mapValues_eraseAll (f : α → β) (dropped : List String) (entries : List (String × α)) :
    mapValues f (eraseAll dropped entries) = eraseAll dropped (mapValues f entries) := by
  unfold mapValues eraseAll
  rw [List.filter_map]
  rfl

/-- What a lookup finds is an entry. -/
theorem mem_of_get? {key : String} {value : α} {entries : List (String × α)}
    (h : get? key entries = some value) : (key, value) ∈ entries := by
  induction entries with
  | nil => cases h
  | cons first rest ih =>
    rw [get?_cons] at h
    split at h
    · rename_i hkey
      exact List.mem_cons.mpr (Or.inl (Prod.ext hkey.symm (Option.some.inj h).symm))
    · exact List.mem_cons_of_mem _ (ih h)

/-- An entry after an insertion is the inserted one or was there before. -/
theorem mem_insert {key : String} {value : α} {entries : List (String × α)}
    {entry : String × α} (h : entry ∈ insert key value entries) :
    entry = (key, value) ∨ entry ∈ entries := by
  induction entries with
  | nil => exact Or.inl (List.mem_singleton.mp h)
  | cons first rest ih =>
    obtain ⟨k, v⟩ := first
    rw [insert] at h
    split at h
    · rename_i hkey
      exact (List.mem_cons.mp h).imp (fun heq => hkey ▸ heq) (List.mem_cons_of_mem _)
    · rcases List.mem_cons.mp h with rfl | hrest
      · exact Or.inr List.mem_cons_self
      · exact (ih hrest).imp_right (List.mem_cons_of_mem _)

/-- Of entries without a repeated key, those under a key are what the lookup finds. -/
theorem mem_iff_get? {entries : List (String × α)} (hnd : (keys entries).Nodup) (key : String)
    (value : α) : (key, value) ∈ entries ↔ get? key entries = some value := by
  induction entries with
  | nil => simp [get?]
  | cons entry rest ih =>
    obtain ⟨k, v⟩ := entry
    rw [keys_cons, List.nodup_cons] at hnd
    rw [List.mem_cons, get?_cons, ih hnd.2, Prod.mk.injEq]
    by_cases hk : k = key
    · subst hk
      have hnone : get? k rest = none := (get?_eq_none_iff k rest).mpr hnd.1
      simp [hnone, eq_comm]
    · simp [hk, Ne.symm hk]

/-- Lookup in entries that are made from a list, one for each item. -/
theorem get?_map_of_nodup {items : List β} (name : β → String) (value : β → α)
    (hnd : (items.map name).Nodup) {item : β} (hmem : item ∈ items) :
    get? (name item) (items.map fun i => (name i, value i)) = some (value item) := by
  induction items with
  | nil => cases hmem
  | cons head rest ih =>
    rw [List.map_cons, List.nodup_cons] at hnd
    rw [List.map_cons, get?_cons]
    rcases List.mem_cons.mp hmem with rfl | hrest
    · rw [if_pos rfl]
    · have hne : name head ≠ name item := by
        intro heq
        exact hnd.1 (heq ▸ List.mem_map_of_mem hrest)
      rw [if_neg hne]
      exact ih hnd.2 hrest

end Entries

/-! ## Maps -/

namespace OrderedMap

variable {α : Type}

/-- Nothing is found under a key that is not there. -/
theorem get?_eq_none_iff (m : OrderedMap α) (key : String) : m.get? key = none ↔ key ∉ m.keys :=
  Entries.get?_eq_none_iff key m.entries

/-- Something is found under every key, and only there. -/
theorem mem_keys_iff (m : OrderedMap α) (key : String) :
    key ∈ m.keys ↔ ∃ value, m.get? key = some value := by
  rw [← contains_iff, contains, Option.isSome_iff_exists]

/-- What is found has a key. -/
theorem mem_keys_of_get? {m : OrderedMap α} {key : String} {value : α}
    (h : m.get? key = some value) : key ∈ m.keys :=
  (m.mem_keys_iff key).mpr ⟨value, h⟩

/-- **Extensionality**: the keys in order and the lookups determine a map. -/
theorem ext_of_keys {m n : OrderedMap α} (hkeys : m.keys = n.keys)
    (hget : ∀ key, m.get? key = n.get? key) : m = n :=
  ext (Entries.ext_of_keys m.nodup_keys hkeys hget)

/-- Maps with the same keys list them alike up to order. -/
theorem perm_keys {m n : OrderedMap α} (h : ∀ key, key ∈ m.keys ↔ key ∈ n.keys) :
    m.keys.Perm n.keys :=
  (List.perm_ext_iff_of_nodup m.nodup_keys n.nodup_keys).mpr h

/-- Maps with the same lookups have the same entries up to order. -/
theorem perm_entries {m n : OrderedMap α} (h : ∀ key, m.get? key = n.get? key) :
    m.entries.Perm n.entries := by
  have hnodup : ∀ k : OrderedMap α, k.entries.Nodup := fun k =>
    List.Pairwise.of_map Prod.fst (fun _ _ hne heq => hne (congrArg Prod.fst heq)) k.nodup_keys
  refine (List.perm_ext_iff_of_nodup (hnodup m) (hnodup n)).mpr fun entry => ?_
  obtain ⟨key, value⟩ := entry
  rw [Entries.mem_iff_get? m.nodup_keys, Entries.mem_iff_get? n.nodup_keys]
  show m.get? key = some value ↔ n.get? key = some value
  rw [h]

/-! ### Removals -/

/-- Lookup after a batch of removals. -/
theorem get?_eraseAll (m : OrderedMap α) (dropped : List String) (key : String) :
    (m.eraseAll dropped).get? key = if key ∈ dropped then none else m.get? key :=
  Entries.get?_eraseAll dropped key m.entries

/-- The keys after removals are the others. -/
theorem mem_keys_eraseAll (m : OrderedMap α) (dropped : List String) (key : String) :
    key ∈ (m.eraseAll dropped).keys ↔ key ∈ m.keys ∧ key ∉ dropped := by
  rw [keys_eraseAll, List.mem_filter, decide_eq_true_eq]

/-- Removals one after the other are removals at once. -/
theorem eraseAll_eraseAll (m : OrderedMap α) (dropped more : List String) :
    (m.eraseAll dropped).eraseAll more = m.eraseAll (dropped ++ more) :=
  ext (Entries.eraseAll_eraseAll dropped more m.entries)

/-- The keys after a removal are the others. -/
theorem mem_keys_erase (m : OrderedMap α) (dropped key : String) :
    key ∈ (m.erase dropped).keys ↔ key ∈ m.keys ∧ key ≠ dropped := by
  rw [erase, mem_keys_eraseAll, List.mem_singleton]

/-- Which keys are removed matters, not how often or in which order they are named. -/
theorem eraseAll_congr (m : OrderedMap α) {dropped others : List String}
    (h : ∀ key ∈ m.keys, (key ∈ dropped ↔ key ∈ others)) :
    m.eraseAll dropped = m.eraseAll others := by
  refine ext (List.filter_congr (fun entry hentry => ?_))
  have hkey : entry.1 ∈ m.keys := List.mem_map_of_mem hentry
  rw [decide_eq_decide, h entry.1 hkey]

@[simp] theorem eraseAll_nil (m : OrderedMap α) : m.eraseAll [] = m := by
  refine ext ?_
  show m.entries.filter (fun entry => entry.1 ∉ []) = m.entries
  rw [List.filter_eq_self]
  intro entry _
  simp

/-- Removal of keys that are not there changes nothing. -/
theorem eraseAll_of_disjoint {m : OrderedMap α} {dropped : List String}
    (h : ∀ key ∈ m.keys, key ∉ dropped) : m.eraseAll dropped = m := by
  have hnone : ∀ key ∈ m.keys, (key ∈ dropped ↔ key ∈ []) := fun key hkey => by
    simp [h key hkey]
  rw [m.eraseAll_congr hnone, eraseAll_nil]

/-- Without all of its keys a map is empty. -/
theorem eraseAll_of_keys_subset (m : OrderedMap α) {dropped : List String}
    (h : m.keys ⊆ dropped) : m.eraseAll dropped = ∅ := by
  refine ext ?_
  show m.entries.filter (fun entry => entry.1 ∉ dropped) = []
  rw [List.filter_eq_nil_iff]
  intro entry hentry
  have hkey : entry.1 ∈ m.keys := List.mem_map_of_mem hentry
  simpa using h hkey

/-! ### Insertions -/

/-- Setting a key to the value that it has changes nothing. -/
theorem insert_of_get? {m : OrderedMap α} {key : String} {value : α}
    (h : m.get? key = some value) : m.insert key value = m :=
  ext (Entries.insert_of_get? h)

/-- The keys after an insertion are the old ones and the new one. -/
theorem mem_keys_insert (m : OrderedMap α) (added key : String) (value : α) :
    key ∈ (m.insert added value).keys ↔ key ∈ m.keys ∨ key = added := by
  rw [mem_keys_iff, get?_insert, mem_keys_iff]
  by_cases heq : added = key
  · simp [heq]
  · simp [heq, Ne.symm heq]

/-- Of two settings of a key the last one counts. -/
theorem insert_insert (m : OrderedMap α) (key : String) (value last : α) :
    (m.insert key value).insert key last = m.insert key last := by
  refine ext_of_keys ?_ (fun other => ?_)
  · have hmem : key ∈ (m.insert key value).keys := by
      rw [mem_keys_iff, get?_insert, if_pos rfl]
      exact ⟨value, rfl⟩
    rw [keys_insert (m.insert key value), if_pos hmem, keys_insert, keys_insert]
  · rw [get?_insert, get?_insert, get?_insert]
    split <;> rfl

/-- Sets the values of keys one after the other. -/
def insertAll (m : OrderedMap α) (added : List (String × α)) : OrderedMap α :=
  added.foldl (fun n entry => n.insert entry.1 entry.2) m

@[simp] theorem insertAll_nil (m : OrderedMap α) : m.insertAll [] = m := rfl

/-- The first entry is written first. -/
theorem insertAll_cons (m : OrderedMap α) (entry : String × α) (added : List (String × α)) :
    m.insertAll (entry :: added) = (m.insert entry.1 entry.2).insertAll added := rfl

/-- The keys after insertions are the old ones and the new ones. -/
theorem mem_keys_insertAll (m : OrderedMap α) (added : List (String × α)) (key : String) :
    key ∈ (m.insertAll added).keys ↔ key ∈ m.keys ∨ key ∈ Entries.keys added := by
  induction added generalizing m with
  | nil => simp
  | cons entry rest ih =>
    obtain ⟨k, v⟩ := entry
    rw [insertAll_cons, ih, keys_insert, Entries.keys_cons, List.mem_cons]
    split
    · rename_i hk
      constructor
      · rintro (h | h)
        · exact Or.inl h
        · exact Or.inr (Or.inr h)
      · rintro (h | rfl | h)
        · exact Or.inl h
        · exact Or.inl hk
        · exact Or.inr h
    · rw [List.mem_append, List.mem_singleton, or_assoc]

/-- The new keys go to the end, in the order in which they are given. -/
theorem keys_insertAll (m : OrderedMap α) {added : List (String × α)}
    (hnd : (Entries.keys added).Nodup) :
    (m.insertAll added).keys = m.keys ++ (Entries.keys added).filter (· ∉ m.keys) := by
  induction added generalizing m with
  | nil => simp
  | cons entry rest ih =>
    obtain ⟨k, v⟩ := entry
    rw [Entries.keys_cons, List.nodup_cons] at hnd
    rw [insertAll_cons, ih _ hnd.2, keys_insert, Entries.keys_cons]
    split
    · rename_i hk
      rw [List.filter_cons_of_neg (by simpa using hk)]
    · rename_i hk
      rw [List.filter_cons_of_pos (by simpa using hk), List.append_assoc, List.singleton_append]
      congr 2
      -- the first new key is none of the others, so it bars none of them
      refine List.filter_congr (fun name hname => ?_)
      have hne : name ≠ k := by
        rintro rfl
        exact hnd.1 hname
      simp [hne]

/-- Lookup after a batch of insertions without a repeated key. -/
theorem get?_insertAll (m : OrderedMap α) {added : List (String × α)}
    (hnd : (Entries.keys added).Nodup) (key : String) :
    (m.insertAll added).get? key = (Entries.get? key added).or (m.get? key) := by
  induction added generalizing m with
  | nil => rfl
  | cons entry rest ih =>
    obtain ⟨k, v⟩ := entry
    rw [Entries.keys_cons, List.nodup_cons] at hnd
    rw [insertAll_cons, ih _ hnd.2, get?_insert, Entries.get?_cons]
    by_cases hk : k = key
    · subst hk
      rw [if_pos rfl, if_pos rfl, (Entries.get?_eq_none_iff k rest).mpr hnd.1]
      rfl
    · rw [if_neg hk, if_neg hk]

/-- A key that is not among the inserted ones is as before. -/
theorem get?_insertAll_of_notMem (m : OrderedMap α) {added : List (String × α)} {key : String}
    (h : key ∉ Entries.keys added) : (m.insertAll added).get? key = m.get? key := by
  induction added generalizing m with
  | nil => rfl
  | cons entry rest ih =>
    obtain ⟨k, v⟩ := entry
    rw [Entries.keys_cons, List.mem_cons, not_or] at h
    rw [insertAll_cons, ih _ h.2, get?_insert, if_neg (Ne.symm h.1)]

/-- Insertions do not show once their keys are removed, unless they change nothing anyway. -/
theorem eraseAll_insertAll (m : OrderedMap α) {dropped : List String} {added : List (String × α)}
    (h : ∀ entry ∈ added, entry.1 ∈ dropped ∨ m.get? entry.1 = some entry.2) :
    (m.insertAll added).eraseAll dropped = m.eraseAll dropped := by
  induction added generalizing m with
  | nil => rfl
  | cons entry rest ih =>
    rw [List.forall_mem_cons] at h
    rw [insertAll_cons]
    rcases h.1 with hdropped | hsame
    · have hrest : ∀ other ∈ rest, other.1 ∈ dropped ∨
          (m.insert entry.1 entry.2).get? other.1 = some other.2 := by
        intro other hother
        by_cases hkey : entry.1 = other.1
        · exact Or.inl (hkey ▸ hdropped)
        · rw [get?_insert, if_neg hkey]
          exact h.2 other hother
      rw [ih _ hrest]
      exact ext (Entries.eraseAll_insert_of_mem hdropped entry.2 m.entries)
    · rw [insert_of_get? hsame]
      exact ih m h.2

/-- Insertions of what is there change nothing. -/
theorem insertAll_of_get? {m : OrderedMap α} {added : List (String × α)}
    (h : ∀ entry ∈ added, m.get? entry.1 = some entry.2) : m.insertAll added = m := by
  induction added with
  | nil => rfl
  | cons entry rest ih =>
    rw [insertAll_cons, insert_of_get? (h entry List.mem_cons_self)]
    exact ih (fun other hother => h other (List.mem_cons_of_mem _ hother))

/-! ### Maps of given entries -/

/-- A map is built from its own entries. -/
theorem ofList_entries (m : OrderedMap α) : ofList m.entries = m := by
  refine ext_of_keys ?_ fun key => ?_
  · show (insertAll ∅ m.entries).keys = m.keys
    rw [keys_insertAll ∅ m.nodup_keys, keys_empty, List.nil_append]
    exact List.filter_eq_self.mpr (by simp)
  · show (insertAll ∅ m.entries).get? key = m.get? key
    rw [get?_insertAll ∅ m.nodup_keys, get?_empty, Option.or_none]
    rfl

/-- The entries of a map are among those that it is built from. -/
theorem mem_entries_ofList {entries : List (String × α)} {entry : String × α}
    (h : entry ∈ (ofList entries).entries) : entry ∈ entries := by
  suffices hall : ∀ m : OrderedMap α, entry ∈ (m.insertAll entries).entries →
      entry ∈ m.entries ∨ entry ∈ entries from (hall ∅ h).resolve_left (List.not_mem_nil)
  clear h
  intro m hmem
  induction entries generalizing m with
  | nil => exact Or.inl hmem
  | cons first rest ih =>
    rcases ih (m.insert first.1 first.2) hmem with hinsert | hrest
    · rcases Entries.mem_insert hinsert with rfl | hold
      · exact Or.inr List.mem_cons_self
      · exact Or.inl hold
    · exact Or.inr (List.mem_cons_of_mem _ hrest)

/-! ### Changes of values -/

/-- The keys stay where they are. -/
@[simp] theorem keys_map {β : Type} (f : α → β) (m : OrderedMap α) : (m.map f).keys = m.keys :=
  Entries.keys_mapValues f m.entries

/-- What is found is what was there, changed. -/
theorem get?_map {β : Type} (f : α → β) (m : OrderedMap α) (key : String) :
    (m.map f).get? key = (m.get? key).map f :=
  Entries.get?_mapValues f key m.entries

/-- Values are changed before or after an entry is written. -/
theorem map_insert {β : Type} (f : α → β) (m : OrderedMap α) (key : String) (value : α) :
    (m.insert key value).map f = (m.map f).insert key (f value) :=
  ext (Entries.mapValues_insert f key value m.entries)

/-- Values are changed before or after entries are removed. -/
theorem map_eraseAll {β : Type} (f : α → β) (m : OrderedMap α) (dropped : List String) :
    (m.eraseAll dropped).map f = (m.map f).eraseAll dropped :=
  ext (Entries.mapValues_eraseAll f dropped m.entries)

/-- A change of values changes nothing exactly if it leaves every value as it is. -/
theorem map_eq_self_iff {f : α → α} {m : OrderedMap α} :
    m.map f = m ↔ ∀ entry ∈ m.entries, f entry.2 = entry.2 := by
  have hself : m.entries.map id = m.entries := List.map_id _
  constructor
  · intro h entry hentry
    have hentries : m.entries.map (fun entry => (entry.1, f entry.2)) = m.entries.map id :=
      (congrArg entries h).trans hself.symm
    exact congrArg Prod.snd (List.map_inj_left.mp hentries entry hentry)
  · intro h
    refine ext ((List.map_inj_left.mpr fun entry hentry => ?_).trans hself)
    exact Prod.ext rfl (h entry hentry)

/-! ### Entries that stay -/

/-- Two maps have the same entries under the keys that pass a test, in the same order. -/
def AgreeWhere (test : String → Bool) (m n : OrderedMap α) : Prop :=
  (m.entries.filter fun entry => test entry.1) = n.entries.filter fun entry => test entry.1

namespace AgreeWhere

variable {test : String → Bool} {m n : OrderedMap α}

theorem refl (test : String → Bool) (m : OrderedMap α) : m.AgreeWhere test m := rfl

/-- The lookups of these keys are the same. -/
theorem get? (h : m.AgreeWhere test n) {key : String} (hkey : test key = true) :
    m.get? key = n.get? key := by
  unfold OrderedMap.get?
  rw [← Entries.get?_filter hkey m.entries, ← Entries.get?_filter hkey n.entries, h]

/-- An insertion elsewhere does not show. -/
protected theorem insert (h : m.AgreeWhere test n) {key : String} (hkey : test key = false)
    (value : α) : (m.insert key value).AgreeWhere test n :=
  (Entries.filter_insert hkey value m.entries).trans h

/-- Insertions elsewhere do not show. -/
protected theorem insertAll {added : List (String × α)} (h : m.AgreeWhere test n)
    (hadded : ∀ entry ∈ added, test entry.1 = false) : (m.insertAll added).AgreeWhere test n := by
  induction added generalizing m with
  | nil => exact h
  | cons entry rest ih =>
    rw [List.forall_mem_cons] at hadded
    rw [insertAll_cons]
    exact ih (h.insert hadded.1 entry.2) hadded.2

/-- Removals elsewhere do not show. -/
protected theorem eraseAll (h : m.AgreeWhere test n) {dropped : List String}
    (hdropped : ∀ key ∈ dropped, test key = false) : (m.eraseAll dropped).AgreeWhere test n :=
  (Entries.filter_eraseAll hdropped m.entries).trans h

end AgreeWhere

end OrderedMap

end ScriptStore
