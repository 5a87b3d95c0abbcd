import Mathlib.Data.List.Basic
import Mathlib.Data.List.Induction
import ScriptStore.Proofs.Names

/-!
# Histories of lists of names

A list of names that is changed by pushes and selections alone is a set in order of insertion.
Which names it has, and in which order, can be read off the changes themselves: a name is listed if
it is pushed and not dropped after its last push (`Names.Lists`), and it stands where the push put
it that found it absent (`Names.InsertedAt`).  The names that are listed at the start count as
pushed first (`Names.reflects_changedBy`).
-/

namespace ScriptStore

namespace Names

/-! ## Changes -/

/-- A change of a list of names: a push of a name, or a selection of the names that stay. -/
inductive Change where
  | push (name : String)
  | select (keep : String → Bool)

namespace Change

/-- The names after a change. -/
def apply (names : List String) : Change → List String
  | .push name => Names.push names name
  | .select keep => names.filter keep

/-- Whether a change drops this name, wherever it is listed. -/
def drops (name : String) : Change → Bool
  | .push _ => false
  | .select keep => !keep name

/-- A change lists the name that it pushes and those that it finds and does not drop. -/
theorem mem_apply (names : List String) (change : Change) (name : String) :
    name ∈ change.apply names ↔
      change = .push name ∨ (name ∈ names ∧ change.drops name = false) := by
  cases change with
  | push other =>
    rw [apply, mem_push, push.injEq, eq_comm (a := other), or_comm]
    simp [drops]
  | select keep => simp [apply, drops]

/-- A change repeats no name. -/
theorem nodup_apply {names : List String} (h : names.Nodup) (change : Change) :
    (change.apply names).Nodup := by
  cases change with
  | push name => exact nodup_push h name
  | select keep => exact h.filter keep

/-- A change lists no name twice that was not listed as often before. -/
theorem count_apply_le (names : List String) (change : Change) (name : String) :
    (change.apply names).count name ≤ max 1 (names.count name) := by
  cases change with
  | push other =>
    have hcount := count_pushAll names [other] name
    rw [pushAll_cons, pushAll_nil] at hcount
    rw [apply, hcount]
    split
    · exact Nat.le_max_right _ _
    · split
      · exact Nat.le_max_left _ _
      · exact Nat.zero_le _
  | select keep => exact Nat.le_trans (List.filter_sublist.count_le name) (Nat.le_max_right _ _)

end Change

/-- The names after changes one after the other. -/
def changedBy (names : List String) (changes : List Change) : List String :=
  changes.foldl Change.apply names

/-- Changes are made one after the other. -/
theorem changedBy_append (names : List String) (changes more : List Change) :
    changedBy names (changes ++ more) = changedBy (changedBy names changes) more :=
  List.foldl_append

/-- The last change is made last. -/
theorem changedBy_concat (names : List String) (changes : List Change) (change : Change) :
    changedBy names (changes ++ [change]) = change.apply (changedBy names changes) :=
  changedBy_append names changes [change]

/-- Changes repeat no name. -/
theorem nodup_changedBy {names : List String} (h : names.Nodup) (changes : List Change) :
    (changedBy names changes).Nodup := by
  induction changes generalizing names with
  | nil => exact h
  | cons first rest ih => exact ih (first.nodup_apply h)

/-- Names without repetition are those that are listed after a push of each of them. -/
theorem changedBy_pushes {names : List String} (h : names.Nodup) :
    changedBy [] (names.map .push) = names := by
  have hpushes : changedBy [] (names.map .push) = pushAll [] names := List.foldl_map
  rw [hpushes, pushAll_eq_append [] h, List.nil_append, List.filter_eq_self]
  intro name _
  simp

/-! ## Listed names -/

/-- The history pushes the name and does not drop it after its last push. -/
def Lists (history : List Change) (name : String) : Prop :=
  ∃ before after, history = before ++ .push name :: after ∧ .push name ∉ after ∧
    ∀ change ∈ after, change.drops name = false

/-- At the outset no name is listed. -/
theorem not_lists_nil (name : String) : ¬ Lists [] name := by
  rintro ⟨before, after, heq, -⟩
  exact List.append_ne_nil_of_right_ne_nil before (List.cons_ne_nil _ after) heq.symm

/-- What a history lists follows the last change as the names of a list do. -/
theorem lists_concat_iff (history : List Change) (change : Change) (name : String) :
    Lists (history ++ [change]) name ↔
      change = .push name ∨ (Lists history name ∧ change.drops name = false) := by
  constructor
  · rintro ⟨before, after, heq, hlast, hkept⟩
    rcases List.eq_nil_or_concat' after with rfl | ⟨middle, latest, rfl⟩
    · exact Or.inl (List.append_singleton_inj.mp heq).2
    · rw [← List.cons_append, ← List.append_assoc, List.append_singleton_inj] at heq
      obtain ⟨rfl, rfl⟩ := heq
      simp only [List.mem_append, not_or] at hlast
      refine Or.inr ⟨⟨before, middle, rfl, hlast.1, fun other hother => ?_⟩, ?_⟩
      · exact hkept other (List.mem_append_left _ hother)
      · exact hkept change (List.mem_append_right _ (List.mem_singleton_self change))
  · intro h
    by_cases hpush : change = .push name
    · subst hpush
      exact ⟨history, [], rfl, List.not_mem_nil, by simp⟩
    · obtain ⟨⟨before, after, rfl, hlast, hkept⟩, hdrops⟩ := h.resolve_left hpush
      refine ⟨before, after ++ [change], by simp, ?_, ?_⟩
      · simpa [hlast] using Ne.symm hpush
      · simpa [or_imp, forall_and, hdrops] using hkept

/-- From an empty list on, the names that are listed are those that the history lists. -/
theorem mem_changedBy_nil_iff (history : List Change) (name : String) :
    name ∈ changedBy [] history ↔ Lists history name := by
  induction history using List.reverseRecOn with
  | nil => exact iff_of_false List.not_mem_nil (not_lists_nil name)
  | append_singleton history change ih =>
    rw [changedBy_concat, Change.mem_apply, lists_concat_iff, ih]

/-- A push counts even if it is not the last one, as long as nothing after it drops the name. -/
theorem lists_of_pushed {before after : List Change} {name : String}
    (h : ∀ change ∈ after, change.drops name = false) :
    Lists (before ++ .push name :: after) name := by
  induction after using List.reverseRecOn with
  | nil => exact (lists_concat_iff before (.push name) name).mpr (Or.inl rfl)
  | append_singleton after change ih =>
    rw [List.forall_mem_append] at h
    rw [← List.cons_append, ← List.append_assoc, lists_concat_iff]
    exact Or.inr ⟨ih h.1, h.2 change (List.mem_singleton_self change)⟩

/-! ## Places of insertion -/

/-- The change at this place inserts the name for good: it pushes the name, the changes before it do
not list the name, and none after it drops the name. -/
def InsertedAt (history : List Change) (place : Nat) (name : String) : Prop :=
  ∃ before after, history = before ++ .push name :: after ∧ before.length = place ∧
    ¬ Lists before name ∧ ∀ change ∈ after, change.drops name = false

/-- A push of a name that is not listed inserts it. -/
theorem insertedAt_length {history : List Change} {name : String} (h : ¬ Lists history name) :
    InsertedAt (history ++ [.push name]) history.length name :=
  ⟨history, [], rfl, rfl, h, by simp⟩

/-- An insertion is one of the changes. -/
theorem InsertedAt.lt_length {history : List Change} {place : Nat} {name : String}
    (h : InsertedAt history place name) : place < history.length := by
  obtain ⟨before, after, rfl, rfl, -⟩ := h
  simp

/-- A name that the next change does not drop stays in its place. -/
theorem InsertedAt.concat {history : List Change} {place : Nat} {name : String}
    (h : InsertedAt history place name) {change : Change} (hdrops : change.drops name = false) :
    InsertedAt (history ++ [change]) place name := by
  obtain ⟨before, after, rfl, hplace, habsent, hkept⟩ := h
  refine ⟨before, after ++ [change], by simp, hplace, habsent, ?_⟩
  simpa [or_imp, forall_and, hdrops] using hkept

/-- Every name that a history lists has a place. -/
theorem exists_insertedAt {history : List Change} {name : String} (h : Lists history name) :
    ∃ place, InsertedAt history place name := by
  induction history using List.reverseRecOn with
  | nil => exact absurd h (not_lists_nil name)
  | append_singleton history change ih =>
    by_cases hbefore : Lists history name
    · obtain ⟨place, hplace⟩ := ih hbefore
      rcases (lists_concat_iff ..).mp h with rfl | ⟨-, hdrops⟩
      · exact ⟨place, hplace.concat rfl⟩
      · exact ⟨place, hplace.concat hdrops⟩
    · rcases (lists_concat_iff ..).mp h with rfl | ⟨hlisted, -⟩
      · exact ⟨_, insertedAt_length hbefore⟩
      · exact absurd hlisted hbefore

/-- A later push finds a name that was inserted for good, so it inserts nothing. -/
theorem InsertedAt.not_lt {history : List Change} {place later : Nat} {name : String}
    (h : InsertedAt history place name) (hlater : InsertedAt history later name) :
    ¬ place < later := by
  obtain ⟨before, after, rfl, rfl, -, hkept⟩ := h
  obtain ⟨before', after', heq, rfl, habsent, -⟩ := hlater
  intro hlt
  rcases List.append_eq_append_iff.mp heq with ⟨middle, rfl, hmiddle⟩ | ⟨middle, rfl, -⟩
  · cases middle with
    | nil => simp at hlt
    | cons first rest =>
      obtain ⟨rfl, rfl⟩ := List.cons.inj hmiddle
      exact habsent (lists_of_pushed fun change hchange =>
        hkept change (List.mem_append_left _ hchange))
  · rw [List.length_append] at hlt
    omega

/-- A listed name has one place of insertion. -/
theorem InsertedAt.unique {history : List Change} {place other : Nat} {name : String}
    (h : InsertedAt history place name) (hother : InsertedAt history other name) :
    place = other :=
  Nat.le_antisymm (Nat.le_of_not_lt (hother.not_lt h)) (Nat.le_of_not_lt (h.not_lt hother))

/-! ## The order of the names -/

/-- The history inserts the first name for good before it does so with the second. -/
def InsertsBefore (history : List Change) (a b : String) : Prop :=
  ∃ place later, InsertedAt history place a ∧ InsertedAt history later b ∧ place < later

/-- The order of two names stays while neither is dropped. -/
theorem InsertsBefore.concat {history : List Change} {a b : String}
    (h : InsertsBefore history a b) {change : Change} (ha : change.drops a = false)
    (hb : change.drops b = false) : InsertsBefore (history ++ [change]) a b := by
  obtain ⟨place, later, hplace, hlater, hlt⟩ := h
  exact ⟨place, later, hplace.concat ha, hlater.concat hb, hlt⟩

/-- A new name is inserted after all others. -/
theorem insertsBefore_new {history : List Change} {a b : String} (ha : Lists history a)
    (hb : ¬ Lists history b) : InsertsBefore (history ++ [.push b]) a b := by
  obtain ⟨place, hplace⟩ := exists_insertedAt ha
  exact ⟨place, history.length, hplace.concat rfl, insertedAt_length hb, hplace.lt_length⟩

/-- The names stand in the order of their insertion. -/
theorem pairwise_changedBy_nil (history : List Change) :
    (changedBy [] history).Pairwise (InsertsBefore history) := by
  -- the last change puts a name behind all others, or it only takes names away
  induction history using List.reverseRecOn with
  | nil => exact List.Pairwise.nil
  | append_singleton history change ih =>
    rw [changedBy_concat]
    cases change with
    | push name =>
      have hnames : (changedBy [] history).Pairwise (InsertsBefore (history ++ [.push name])) :=
        ih.imp fun h => h.concat rfl rfl
      rw [Change.apply, push]
      split
      · exact hnames
      · rename_i hnew
        refine List.pairwise_append.mpr ⟨hnames, List.pairwise_singleton _ _, ?_⟩
        intro a ha b hb
        obtain rfl : b = name := List.mem_singleton.mp hb
        rw [mem_changedBy_nil_iff] at ha hnew
        exact insertsBefore_new ha hnew
    | select keep =>
      have hdrops : ∀ {name : String}, name ∈ (changedBy [] history).filter keep →
          (Change.select keep).drops name = false := by
        intro name hname
        rw [Change.drops, (List.mem_filter.mp hname).2, Bool.not_true]
      exact (ih.filter keep).imp_of_mem fun ha hb h => h.concat (hdrops ha) (hdrops hb)

/-! ## Lists and their histories -/

/-- The names are exactly those that the history lists, each once and in order of insertion; the
place of insertion of each is unique. -/
structure Reflects (history : List Change) (names : List String) : Prop where
  nodup : names.Nodup
  mem_iff : ∀ name, name ∈ names ↔ Lists history name
  place : ∀ name ∈ names, ∃! place, InsertedAt history place name
  ordered : names.Pairwise (InsertsBefore history)

/-- The list that a history makes reflects it. -/
theorem reflects_changedBy_nil (history : List Change) :
    Reflects history (changedBy [] history) := by
  refine ⟨nodup_changedBy List.nodup_nil history, mem_changedBy_nil_iff history, ?_,
    pairwise_changedBy_nil history⟩
  intro name hname
  obtain ⟨place, hplace⟩ := exists_insertedAt ((mem_changedBy_nil_iff history name).mp hname)
  exact ⟨place, hplace, fun other hother => hother.unique hplace⟩

/-- The names at the start count as pushed first, in their order. -/
theorem reflects_changedBy {names : List String} (h : names.Nodup) (changes : List Change) :
    Reflects (names.map .push ++ changes) (changedBy names changes) := by
  have hstart : changedBy [] (names.map .push ++ changes) = changedBy names changes := by
    rw [changedBy_append, changedBy_pushes h]
  rw [← hstart]
  exact reflects_changedBy_nil _

end Names

end ScriptStore
