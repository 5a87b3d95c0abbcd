import ScriptStore.Body.Validation
import ScriptStore.Record

/-!
# What a valid body guarantees

`Body.validate` accepts a body exactly when its names are in order (`Body.WellNamed`): every
declared name is a possible path segment, none is declared twice, and no argument is nameless.
As a path segment holds no separator, the data path of a function is never the name of a member.
-/

namespace ScriptStore

/-! ## Path segments -/

/-- Whether a name can be a segment of a path: not empty and without the separator. -/
def IsSegment (name : String) : Prop := name ≠ "" ∧ pathSeparator ∉ name.toList

/-- The data path determines its function. -/
theorem dataPath_inj {f g : String} : dataPath f = dataPath g ↔ f = g := by
  unfold dataPath
  exact String.append_left_inj dataSuffix

/-- The data paths of a list of functions are told apart by their functions. -/
theorem mem_map_dataPath (function : String) (names : List String) :
    dataPath function ∈ names.map dataPath ↔ function ∈ names := by
  rw [List.mem_map]
  constructor
  · rintro ⟨other, hother, heq⟩
    exact dataPath_inj.mp heq ▸ hother
  · intro hmem
    exact ⟨function, hmem, rfl⟩

/-- A path that no function owns is none of their data paths. -/
theorem notMem_map_dataPath {path : String} (h : ∀ function, path ≠ dataPath function)
    (functions : List String) : path ∉ functions.map dataPath := by
  intro hmem
  obtain ⟨function, -, heq⟩ := List.mem_map.mp hmem
  exact h function heq.symm

/-- A name without the separator is not the data path of anything. -/
theorem ne_dataPath_of_notMem {name : String} (h : pathSeparator ∉ name.toList)
    (function : String) : name ≠ dataPath function := by
  rintro rfl
  refine h ?_
  rw [dataPath, String.toList_append, List.mem_append]
  right
  decide

/-- A segment is not the data path of anything. -/
theorem IsSegment.ne_dataPath {name : String} (h : IsSegment name) (function : String) :
    name ≠ dataPath function := ne_dataPath_of_notMem h.2 function

/-- A segment is none of the data paths of functions. -/
theorem IsSegment.notMem_map_dataPath {name : String} (h : IsSegment name)
    (functions : List String) : name ∉ functions.map dataPath :=
  ScriptStore.notMem_map_dataPath h.ne_dataPath functions

/-! ## Declared names -/

namespace Body

/-- The names of a body are in order. -/
structure WellNamed (body : Body) : Prop where
  segment : ∀ name ∈ body.functionNames ++ body.variableNames, IsSegment name
  nodup : (body.functionNames ++ body.variableNames).Nodup
  arguments : ∀ decl ∈ body.functions, ∀ argument ∈ decl.arguments, argument.name ≠ ""

/-- A name is in order if it is a segment that has not come before. -/
theorem nameFault?_eq_none_iff (before : List String) (name : String) :
    nameFault? before name = none ↔ IsSegment name ∧ name ∉ before := by
  unfold nameFault? IsSegment
  by_cases hempty : name = ""
  · simp [hempty]
  · by_cases hsep : pathSeparator ∈ name.toList
    · simp [hempty, hsep]
    · by_cases hmem : name ∈ before <;> simp [hempty, hsep, hmem]

/-- No declared name is faulty exactly when all are segments, none comes twice and none is among
those declared before. -/
theorem firstNameError?_eq_none_iff (before : List String) (names : List PlacedName) :
    firstNameError? before names = none ↔
      (∀ placed ∈ names, IsSegment placed.2) ∧ (names.map Prod.snd).Nodup ∧
        ∀ placed ∈ names, placed.2 ∉ before := by
  induction names generalizing before with
  | nil => simp [firstNameError?]
  | cons placed rest ih =>
    obtain ⟨path, name⟩ := placed
    rw [firstNameError?]
    cases hfault : nameFault? before name with
    | some fault =>
      have hnone : nameFault? before name ≠ none := by simp [hfault]
      rw [Ne, nameFault?_eq_none_iff] at hnone
      constructor
      · intro h
        cases h
      · rintro ⟨hseg, -, hbefore⟩
        exact absurd ⟨hseg _ List.mem_cons_self, hbefore _ List.mem_cons_self⟩ hnone
    | none =>
      obtain ⟨hseg, hname⟩ := (nameFault?_eq_none_iff before name).mp hfault
      show firstNameError? (name :: before) rest = none ↔ _
      rw [ih, List.map_cons, List.nodup_cons, List.forall_mem_cons, List.forall_mem_cons]
      simp only [List.mem_map, List.mem_cons, not_or, not_exists, not_and]
      constructor
      · rintro ⟨hsegs, hnd, hrest⟩
        exact ⟨⟨hseg, hsegs⟩, ⟨fun other hother => (hrest other hother).1, hnd⟩, hname,
          fun other hother => (hrest other hother).2⟩
      · rintro ⟨⟨-, hsegs⟩, ⟨hne, hnd⟩, -, hrest⟩
        exact ⟨hsegs, hnd, fun other hother => ⟨hne other hother, hrest other hother⟩⟩

/-- Placing names keeps them in their order. -/
theorem map_snd_placeNames (list : String) (names : List String) :
    (placeNames list names).map Prod.snd = names := by
  unfold placeNames
  rw [List.map_map]
  have hcomp : (Prod.snd ∘ fun placed : String × Nat => (namePath list placed.2, placed.1))
      = Prod.fst := by
    funext placed
    rfl
  rw [hcomp, List.zipIdx_map_fst]

/-- Functions are declared before variables. -/
theorem map_snd_declaredNames (body : Body) :
    body.declaredNames.map Prod.snd = body.functionNames ++ body.variableNames := by
  rw [declaredNames, List.map_append, map_snd_placeNames, map_snd_placeNames]

/-- No argument name is faulty exactly when none is empty. -/
theorem firstArgumentError?_eq_none_iff (body : Body) :
    firstArgumentError? body.argumentNames = none ↔
      ∀ decl ∈ body.functions, ∀ argument ∈ decl.arguments, argument.name ≠ "" := by
  have hfault : ∀ path name, (argumentFault? name).map (BodyError.mk path) = none ↔ name ≠ "" := by
    intro path name
    unfold argumentFault?
    by_cases h : name = "" <;> simp [h]
  unfold firstArgumentError? argumentNames
  simp only [List.findSome?_eq_none_iff, List.mem_flatMap, List.mem_map]
  constructor
  · intro h decl hdecl argument hargument
    obtain ⟨i, hi, rfl⟩ := List.mem_iff_getElem.mp hdecl
    obtain ⟨j, hj, rfl⟩ := List.mem_iff_getElem.mp hargument
    have hmem := h (argumentPath i j, body.functions[i].arguments[j].name)
      ⟨(body.functions[i], i), List.mk_mem_zipIdx_iff_getElem?.mpr (List.getElem?_eq_getElem hi),
        (body.functions[i].arguments[j], j),
        List.mk_mem_zipIdx_iff_getElem?.mpr (List.getElem?_eq_getElem hj), rfl⟩
    exact (hfault _ _).mp hmem
  · rintro h placed ⟨⟨decl, i⟩, hdecl, ⟨argument, j⟩, hargument, rfl⟩
    have hne := h decl (List.fst_mem_of_mem_zipIdx hdecl) argument
      (List.fst_mem_of_mem_zipIdx hargument)
    exact (hfault _ _).mpr hne

/-- **Validity**: a body is accepted exactly when its names are in order. -/
theorem nameError?_eq_none_iff (body : Body) : body.nameError? = none ↔ body.WellNamed := by
  rw [nameError?, Option.or_eq_none_iff, firstNameError?_eq_none_iff,
    firstArgumentError?_eq_none_iff, map_snd_declaredNames]
  have hsegments : (∀ placed ∈ body.declaredNames, IsSegment placed.2) ↔
      ∀ name ∈ body.functionNames ++ body.variableNames, IsSegment name := by
    rw [← map_snd_declaredNames, List.forall_mem_map]
  rw [hsegments]
  constructor
  · rintro ⟨⟨hsegment, hnodup, -⟩, harguments⟩
    exact ⟨hsegment, hnodup, harguments⟩
  · rintro ⟨hsegment, hnodup, harguments⟩
    exact ⟨⟨hsegment, hnodup, fun _ _ => List.not_mem_nil⟩, harguments⟩

/-- **The accepted bodies** are those with names that are in order. -/
theorem validate_eq_ok_iff (body : Body) : body.validate = .ok () ↔ body.WellNamed := by
  rw [← nameError?_eq_none_iff, validate]
  cases body.nameError? <;> simp

/-- A body is refused for the first offence. -/
theorem validate_eq_error_iff (body : Body) (error : BodyError) :
    body.validate = .error error ↔ body.nameError? = some error := by
  rw [validate]
  cases body.nameError? <;> simp

/-- There is nothing to object to without names. -/
theorem wellNamed_empty : empty.WellNamed := (nameError?_eq_none_iff empty).mp nameError?_empty

/-! ## Consequences -/

namespace WellNamed

variable {body : Body}

/-- No function is declared twice. -/
theorem nodup_functionNames (h : body.WellNamed) : body.functionNames.Nodup :=
  (List.nodup_append.mp h.nodup).1

/-- No variable is declared twice. -/
theorem nodup_variableNames (h : body.WellNamed) : body.variableNames.Nodup :=
  (List.nodup_append.mp h.nodup).2.1

/-- No name is declared both as a function and as a variable. -/
theorem disjoint (h : body.WellNamed) {name : String} (hf : name ∈ body.functionNames) :
    name ∉ body.variableNames :=
  fun hv => (List.nodup_append.mp h.nodup).2.2 name hf name hv rfl

/-- The name of a function is a segment. -/
theorem segment_function (h : body.WellNamed) {name : String} (hf : name ∈ body.functionNames) :
    IsSegment name := h.segment name (List.mem_append_left _ hf)

/-- The name of a variable is a segment. -/
theorem segment_variable (h : body.WellNamed) {name : String} (hv : name ∈ body.variableNames) :
    IsSegment name := h.segment name (List.mem_append_right _ hv)

/-- No data path is declared. -/
theorem dataPath_notMem (h : body.WellNamed) (function : String) :
    dataPath function ∉ body.functionNames ∧ dataPath function ∉ body.variableNames := by
  constructor
  · intro hmem
    exact (h.segment_function hmem).ne_dataPath function rfl
  · intro hmem
    exact (h.segment_variable hmem).ne_dataPath function rfl

end WellNamed

end Body

end ScriptStore
