import ScriptStore.Names

/-!
# Lists of names under batches of updates

What a batch of pushes (`Names.pushAll`) and a batch of removals (`Names.removeAll`) leave of a
list of names, and which names a list repeats.
-/

namespace ScriptStore

namespace Names

/-! ## Pushes -/

/-- Pushes names one after the other. -/
def pushAll (names added : List String) : List String := added.foldl push names

@[simp] theorem pushAll_nil (names : List String) : pushAll names [] = names := rfl

/-- The first name is pushed first. -/
theorem pushAll_cons (names : List String) (name : String) (added : List String) :
    pushAll names (name :: added) = pushAll (push names name) added := rfl

/-- The names after pushes are the old ones and the new ones. -/
theorem mem_pushAll (names added : List String) (name : String) :
    name ∈ pushAll names added ↔ name ∈ names ∨ name ∈ added := by
  induction added generalizing names with
  | nil => simp
  | cons first rest ih => rw [pushAll_cons, ih, mem_push, List.mem_cons, or_assoc]

/-- Pushes repeat no name. -/
theorem nodup_pushAll {names : List String} (h : names.Nodup) (added : List String) :
    (pushAll names added).Nodup := by
  induction added generalizing names with
  | nil => exact h
  | cons first rest ih => exact ih (nodup_push h first)

/-- A name that is listed is not listed again, and a new one is listed once. -/
theorem count_pushAll (names added : List String) (name : String) :
    (pushAll names added).count name =
      if name ∈ names then names.count name else if name ∈ added then 1 else 0 := by
  induction added generalizing names with
  | nil =>
    rw [pushAll_nil, if_neg List.not_mem_nil]
    split
    · rfl
    · rename_i hmem
      exact List.count_eq_zero.mpr hmem
  -- a name counts once from its first push on; later pushes of it find it listed
  | cons first rest ih =>
    rw [pushAll_cons, ih, push]
    split
    · rename_i hfirst
      by_cases hmem : name ∈ names
      · rw [if_pos hmem, if_pos hmem]
      · have hne : name ≠ first := by
          rintro rfl
          exact hmem hfirst
        rw [if_neg hmem, if_neg hmem]
        simp only [List.mem_cons, hne, false_or]
    · rename_i hfirst
      by_cases heq : name = first
      · subst heq
        rw [if_pos (by simp), if_neg hfirst, if_pos List.mem_cons_self, List.count_append,
          List.count_eq_zero.mpr hfirst]
        simp
      · have hcount : (names ++ [first]).count name = names.count name := by
          have hnone : name ∉ [first] := by simpa using heq
          rw [List.count_append, List.count_eq_zero.mpr hnone, Nat.add_zero]
        rw [hcount]
        simp only [List.mem_append, List.mem_cons, List.not_mem_nil, heq, or_false, false_or]

/-- New names go to the end, in the order in which they are given. -/
theorem pushAll_eq_append (names : List String) {added : List String} (hnd : added.Nodup) :
    pushAll names added = names ++ added.filter (· ∉ names) := by
  induction added generalizing names with
  | nil => simp
  | cons first rest ih =>
    rw [List.nodup_cons] at hnd
    rw [pushAll_cons, ih _ hnd.2, push]
    split
    · rename_i hmem
      rw [List.filter_cons_of_neg (by simpa using hmem)]
    · rename_i hmem
      rw [List.filter_cons_of_pos (by simpa using hmem), List.append_assoc,
        List.singleton_append]
      congr 2
      refine List.filter_congr (fun name hname => ?_)
      have hne : name ≠ first := by
        rintro rfl
        exact hnd.1 hname
      simp [hne]

/-- A push does not show among the names that pass a test, unless its name does. -/
theorem filter_push {test : String → Bool} {name : String} (h : test name = false)
    (names : List String) : (push names name).filter test = names.filter test := by
  unfold push
  split
  · rfl
  · rw [List.filter_append, List.filter_cons_of_neg (by simp [h]), List.filter_nil,
      List.append_nil]

/-- Pushes do not show among the names that pass a test, unless their names do. -/
theorem filter_pushAll {test : String → Bool} {added : List String}
    (h : ∀ name ∈ added, test name = false) (names : List String) :
    (pushAll names added).filter test = names.filter test := by
  induction added generalizing names with
  | nil => rfl
  | cons first rest ih =>
    rw [List.forall_mem_cons] at h
    rw [pushAll_cons, ih h.2, filter_push h.1]

/-! ## Removals -/

/-- Drops every occurrence of these names. -/
def removeAll (names removed : List String) : List String := names.filter (· ∉ removed)

/-- The names after removals are the others. -/
theorem mem_removeAll (names removed : List String) (name : String) :
    name ∈ removeAll names removed ↔ name ∈ names ∧ name ∉ removed := by
  rw [removeAll, List.mem_filter, decide_eq_true_eq]

/-- The other names are listed as often as before. -/
theorem count_removeAll (names : List String) {removed : List String} {name : String}
    (h : name ∉ removed) : (removeAll names removed).count name = names.count name :=
  List.count_filter (by simpa using h)

/-- Removals repeat no name. -/
theorem nodup_removeAll {names : List String} (h : names.Nodup) (removed : List String) :
    (removeAll names removed).Nodup := h.filter _

@[simp] theorem removeAll_nil (names : List String) : removeAll names [] = names := by
  rw [removeAll, List.filter_eq_self]
  intro name _
  simp

/-- Removals one after the other are removals at once. -/
theorem removeAll_removeAll (names removed more : List String) :
    removeAll (removeAll names removed) more = removeAll names (removed ++ more) := by
  unfold removeAll
  rw [List.filter_filter]
  refine List.filter_congr (fun name _ => ?_)
  simp [Bool.and_comm]

/-- Removal of names that are not listed changes nothing. -/
theorem removeAll_of_disjoint {names removed : List String} (h : ∀ name ∈ names, name ∉ removed) :
    removeAll names removed = names := by
  rw [removeAll, List.filter_eq_self]
  intro name hname
  simpa using h name hname

/-- A push does not show once its name is removed. -/
theorem removeAll_pushAll (names : List String) {added removed : List String}
    (h : ∀ name ∈ added, name ∈ removed) :
    removeAll (pushAll names added) removed = removeAll names removed :=
  filter_pushAll (fun name hname => by simpa using h name hname) names

/-- A removal does not show among names that all stay. -/
theorem filter_removeAll {test : String → Bool} {removed : List String}
    (h : ∀ name ∈ removed, test name = false) (names : List String) :
    (removeAll names removed).filter test = names.filter test := by
  rw [removeAll, List.filter_filter]
  refine List.filter_congr (fun name _ => ?_)
  by_cases hname : name ∈ removed
  · rw [h name hname, Bool.false_and]
  · simp [hname]

/-- One removal is a list of one. -/
theorem remove_eq_removeAll (names : List String) (name : String) :
    remove names name = removeAll names [name] := by
  refine List.filter_congr (fun other _ => ?_)
  simp

/-! ## Repetitions -/

/-- No name comes again exactly when the list is free of repetitions and of the names seen. -/
theorem repeats_eq_nil_iff (seen names : List String) :
    repeats seen names = [] ↔ names.Nodup ∧ ∀ name ∈ names, name ∉ seen := by
  induction names generalizing seen with
  | nil => simp [repeats]
  | cons first rest ih =>
    rw [repeats, List.nodup_cons, List.forall_mem_cons]
    split
    · rename_i hseen
      constructor
      · intro h
        cases h
      · rintro ⟨-, hfirst, -⟩
        exact absurd hseen hfirst
    · rename_i hseen
      rw [ih]
      constructor
      · rintro ⟨hnd, hrest⟩
        have hfirst : first ∉ rest := fun hmem => hrest first hmem List.mem_cons_self
        refine ⟨⟨hfirst, hnd⟩, hseen, fun name hname hmem => ?_⟩
        exact hrest name hname (List.mem_cons_of_mem _ hmem)
      · rintro ⟨⟨hfirst, hnd⟩, -, hrest⟩
        refine ⟨hnd, fun name hname hmem => ?_⟩
        rcases List.mem_cons.mp hmem with rfl | hmem'
        · exact hfirst hname
        · exact hrest name hname hmem'

/-! ## Each name once -/

/-- Each name that has not been seen is kept. -/
theorem mem_distinct_iff (seen names : List String) (name : String) :
    name ∈ distinct seen names ↔ name ∈ names ∧ name ∉ seen := by
  induction names generalizing seen with
  | nil => simp [distinct]
  | cons first rest ih =>
    rw [distinct]
    split
    · rename_i hfirst
      rw [ih, List.mem_cons]
      constructor
      · exact fun h => ⟨Or.inr h.1, h.2⟩
      · rintro ⟨rfl | hrest, hseen⟩
        · exact absurd hfirst hseen
        · exact ⟨hrest, hseen⟩
    · rename_i hfirst
      rw [List.mem_cons, ih, List.mem_cons, List.mem_cons, not_or]
      constructor
      · rintro (rfl | ⟨hrest, -, hseen⟩)
        · exact ⟨Or.inl rfl, hfirst⟩
        · exact ⟨Or.inr hrest, hseen⟩
      · rintro ⟨rfl | hrest, hseen⟩
        · exact Or.inl rfl
        · by_cases heq : name = first
          · exact Or.inl heq
          · exact Or.inr ⟨hrest, heq, hseen⟩

/-- The names come in the order of their first occurrences, so none comes twice. -/
theorem pairwise_distinct (seen names : List String) :
    (distinct seen names).Pairwise fun a b => names.idxOf a < names.idxOf b := by
  induction names generalizing seen with
  | nil => exact List.Pairwise.nil
  | cons first rest ih =>
    -- behind the first name every other one stands a place later
    have hcons : ∀ {name : String}, name ≠ first →
        (first :: rest).idxOf name = rest.idxOf name + 1 := by
      intro name hne
      rw [List.idxOf_cons, beq_false_of_ne (Ne.symm hne)]
      rfl
    have hshift : ∀ {a b : String}, a ≠ first → b ≠ first → rest.idxOf a < rest.idxOf b →
        (first :: rest).idxOf a < (first :: rest).idxOf b := by
      intro a b ha hb hlt
      rw [hcons ha, hcons hb]
      exact Nat.succ_lt_succ hlt
    rw [distinct]
    split
    · rename_i hfirst
      have hne : ∀ name ∈ distinct seen rest, name ≠ first := by
        rintro name hname rfl
        exact ((mem_distinct_iff seen rest name).mp hname).2 hfirst
      exact (ih seen).imp_of_mem fun ha hb hlt => hshift (hne _ ha) (hne _ hb) hlt
    · have hne : ∀ name ∈ distinct (first :: seen) rest, name ≠ first := by
        rintro name hname rfl
        exact ((mem_distinct_iff _ rest name).mp hname).2 List.mem_cons_self
      rw [List.pairwise_cons]
      refine ⟨fun name hname => ?_, ?_⟩
      · rw [List.idxOf_cons_self, hcons (hne name hname)]
        exact Nat.succ_pos _
      · exact (ih _).imp_of_mem fun ha hb hlt => hshift (hne _ ha) (hne _ hb) hlt

end Names

end ScriptStore
