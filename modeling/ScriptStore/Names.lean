/-!
# Lists of names

Lists of names that are kept without repetition, in the order in which the names came, and two
views of lists that may repeat names: the names that come again, and each name once.
-/

namespace ScriptStore

namespace Names

/-! ## Updates -/

/-- Appends a name unless it is listed. -/
def push (names : List String) (name : String) : List String :=
  if name ∈ names then names else names ++ [name]

/-- Drops every occurrence of a name. -/
def remove (names : List String) (name : String) : List String := names.filter (· ≠ name)

/-- The names after a push are those before it and the pushed one. -/
theorem mem_push (names : List String) (name other : String) :
    other ∈ push names name ↔ other ∈ names ∨ other = name := by
  unfold push
  split
  · rename_i h
    constructor
    · exact Or.inl
    · rintro (h' | rfl)
      · exact h'
      · exact h
  · simp

/-- The names after a removal are the other ones. -/
theorem mem_remove (names : List String) (name other : String) :
    other ∈ remove names name ↔ other ∈ names ∧ other ≠ name := by
  simp [remove]

/-- A push repeats no name. -/
theorem nodup_push {names : List String} (h : names.Nodup) (name : String) :
    (push names name).Nodup := by
  unfold push
  split
  · exact h
  · rename_i hn
    rw [List.nodup_append]
    refine ⟨h, by simp, ?_⟩
    intro a ha b hb hab
    rw [List.mem_singleton] at hb
    exact hn (hb ▸ hab ▸ ha)

/-- A removal repeats no name. -/
theorem nodup_remove {names : List String} (h : names.Nodup) (name : String) :
    (remove names name).Nodup := h.filter _

/-! ## Repetitions -/

/-- The occurrences of names that occur before in the list or among the names seen. -/
def repeats (seen : List String) : List String → List String
  | [] => []
  | name :: rest =>
    if name ∈ seen then name :: repeats seen rest else repeats (name :: seen) rest

/-- The first occurrences of names that are not among the names seen. -/
def distinct (seen : List String) : List String → List String
  | [] => []
  | name :: rest =>
    if name ∈ seen then distinct seen rest else name :: distinct (name :: seen) rest

end Names

end ScriptStore
