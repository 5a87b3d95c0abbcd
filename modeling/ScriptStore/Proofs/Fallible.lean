import Mathlib.Data.List.Forall2

/-!
# Computations that may fail

Facts that belong to no particular reader or command: what it means that two steps in a row succeed
or fail, what a traversal of a list with a step that may fail gives, and how lists of items and
lists of results correspond.
-/

namespace ScriptStore

variable {ε σ α β : Type}

/-! ## Two steps in a row -/

/-- What the first step of two gives, the second goes on with. -/
theorem bind_eq_ok_iff {first : Except ε α} {next : α → Except ε β} {result : β} :
    first >>= next = .ok result ↔ ∃ value, first = .ok value ∧ next value = .ok result := by
  cases first with
  | error error =>
    constructor
    · rintro ⟨⟩
    · rintro ⟨_, ⟨⟩, -⟩
  | ok value =>
    constructor
    · exact fun h => ⟨value, rfl, h⟩
    · rintro ⟨other, hother, h⟩
      exact Except.ok.inj hother ▸ h

/-- The second of two steps fails only if the first does not. -/
theorem bind_eq_error_iff {first : Except ε α} {next : α → Except ε β} {error : ε} :
    first >>= next = .error error ↔
      first = .error error ∨ ∃ value, first = .ok value ∧ next value = .error error := by
  cases first with
  | error found =>
    show Except.error found = .error error ↔ _
    simp
  | ok value =>
    show next value = .error error ↔ _
    simp

/-- Steps that agree one by one agree as a whole; what two steps in a row admit is what each of
them admits. -/
theorem bind_eq_ok_iff_and {first : Except ε α} {next : α → Except ε β}
    {found : Option α} {more : α → Option β} {p q : Prop} {result : β}
    (hfirst : ∀ value, first = .ok value ↔ p ∧ found = some value)
    (hnext : ∀ value, next value = .ok result ↔ q ∧ more value = some result) :
    first >>= next = .ok result ↔ (p ∧ q) ∧ found >>= more = some result := by
  rw [bind_eq_ok_iff, Option.bind_eq_bind, Option.bind_eq_some_iff]
  constructor
  · rintro ⟨value, hvalue, hresult⟩
    obtain ⟨hp, hfound⟩ := (hfirst value).mp hvalue
    obtain ⟨hq, hmore⟩ := (hnext value).mp hresult
    exact ⟨⟨hp, hq⟩, value, hfound, hmore⟩
  · rintro ⟨⟨hp, hq⟩, value, hfound, hmore⟩
    exact ⟨value, (hfirst value).mpr ⟨hp, hfound⟩, (hnext value).mpr ⟨hq, hmore⟩⟩

section States

variable {first : ExceptT ε (StateM σ) α} {next : α → ExceptT ε (StateM σ) β} {state left : σ}

/-- Of two steps that work on a state, the second starts where the first has left it. -/
theorem run_bind_of_ok {value : α} (h : first.run.run state = (.ok value, left)) :
    (first >>= next).run.run state = (next value).run.run left := by
  show (first >>= next) state = next value left
  have hfirst : first state = (.ok value, left) := h
  simp only [bind, ExceptT.bind, ExceptT.mk, StateT.bind]
  rw [hfirst]
  rfl

/-- Of two steps that work on a state, the first may end the work, with the state that it leaves. -/
theorem run_bind_of_error {error : ε} (h : first.run.run state = (.error error, left)) :
    (first >>= next).run.run state = (.error error, left) := by
  show (first >>= next) state = (.error error, left)
  have hfirst : first state = (.error error, left) := h
  simp only [bind, ExceptT.bind, ExceptT.mk, StateT.bind]
  rw [hfirst]
  rfl

end States

/-! ## Traversals -/

/-- What a traversal gives comes from its inputs. -/
theorem exists_of_mem_mapM {f : α → Option β} {inputs : List α} {results : List β} {result : β}
    (h : inputs.mapM f = some results) (hresult : result ∈ results) :
    ∃ input ∈ inputs, f input = some result := by
  induction inputs generalizing results with
  | nil =>
    obtain rfl := Option.some.inj h
    cases hresult
  | cons first rest ih =>
    rw [List.mapM_cons] at h
    obtain ⟨head, hhead, h⟩ := Option.bind_eq_some_iff.mp h
    obtain ⟨tail, htail, h⟩ := Option.bind_eq_some_iff.mp h
    obtain rfl := Option.some.inj h
    rcases List.mem_cons.mp hresult with rfl | hmem
    · exact ⟨first, List.mem_cons_self, hhead⟩
    · obtain ⟨input, hinput, hf⟩ := ih htail hmem
      exact ⟨input, List.mem_cons_of_mem _ hinput, hf⟩

/-- A traversal succeeds with results of a kind if each step does. -/
theorem exists_mapM {p : β → Prop} {f : α → Option β} {inputs : List α}
    (h : ∀ input ∈ inputs, ∃ result, f input = some result ∧ p result) :
    ∃ results, inputs.mapM f = some results ∧ ∀ result ∈ results, p result := by
  induction inputs with
  | nil => exact ⟨[], rfl, List.forall_mem_nil _⟩
  | cons first rest ih =>
    rw [List.forall_mem_cons] at h
    obtain ⟨result, hresult, hp⟩ := h.1
    obtain ⟨results, hresults, hps⟩ := ih h.2
    refine ⟨result :: results, ?_, List.forall_mem_cons.mpr ⟨hp, hps⟩⟩
    rw [List.mapM_cons, hresult, hresults]
    rfl

/-- A traversal whose steps undo a map, up to a change of the items, undoes it for a list. -/
theorem mapM_map_of_forall {f : α → α} {read : β → Option α} {write : α → β} {items : List α}
    (h : ∀ item ∈ items, read (write item) = some (f item)) :
    (items.map write).mapM read = some (items.map f) := by
  induction items with
  | nil => rfl
  | cons first rest ih =>
    rw [List.forall_mem_cons] at h
    rw [List.map_cons, List.mapM_cons, h.1, ih h.2]
    rfl

/-- Items that a traversal takes are not changed if none that a step takes is. -/
theorem map_eq_self_of_mapM {f : α → α} {read : α → Option β}
    (hf : ∀ item result, read item = some result → f item = item)
    {items : List α} {results : List β} (h : items.mapM read = some results) :
    items.map f = items := by
  induction items generalizing results with
  | nil => rfl
  | cons first rest ih =>
    rw [List.mapM_cons] at h
    obtain ⟨head, hhead, h⟩ := Option.bind_eq_some_iff.mp h
    obtain ⟨tail, htail, -⟩ := Option.bind_eq_some_iff.mp h
    rw [List.map_cons, hf first head hhead, ih htail]

/-- What each step keeps holds at the end. -/
theorem foldlM_keeps (keeps : σ → Prop) {next : σ → α → Option σ} {inputs : List α}
    (hstep : ∀ input ∈ inputs, ∀ s t, keeps s → next s input = some t → keeps t) {first last : σ}
    (hfirst : keeps first) (hlast : inputs.foldlM next first = some last) : keeps last := by
  induction inputs generalizing first with
  | nil => exact Option.some.inj hlast ▸ hfirst
  | cons input rest ih =>
    rw [List.forall_mem_cons] at hstep
    rw [List.foldlM_cons] at hlast
    obtain ⟨s, hs, hrest⟩ := Option.bind_eq_some_iff.mp hlast
    exact ih hstep.2 (hstep.1 first s hfirst hs) hrest

/-! ## Lists item by item -/

/-- Each item is related to something exactly if the items are related to a list, item by item. -/
theorem exists_forall₂_iff {R : α → β → Prop} (items : List α) :
    (∃ results, List.Forall₂ R items results) ↔ ∀ item ∈ items, ∃ result, R item result := by
  induction items with
  | nil => simp
  | cons first rest ih =>
    rw [List.forall_mem_cons, ← ih]
    constructor
    · rintro ⟨_, hall⟩
      obtain ⟨result, results, hfirst, hrest, -⟩ := List.forall₂_cons_left_iff.mp hall
      exact ⟨⟨result, hfirst⟩, results, hrest⟩
    · rintro ⟨⟨result, hfirst⟩, results, hrest⟩
      exact ⟨result :: results, .cons hfirst hrest⟩

/-- The positions of items increase along a list. -/
theorem pairwise_zipIdx (items : List α) : items.zipIdx.Pairwise fun a b => a.2 < b.2 := by
  rw [← List.pairwise_map (f := Prod.snd), List.zipIdx_map_snd]
  exact List.pairwise_lt_range'

end ScriptStore
