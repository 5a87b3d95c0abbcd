import Mathlib.Data.List.Nodup
import ScriptStore.Proofs.Body.Validity
import ScriptStore.Proofs.Fallible

/-!
# The first offending name

A body that is refused has names that are out of order, and the refusal is about the first of them.
The names are looked at list by list: those of all functions, those of all variables, and then those
of the arguments, function by function (`NamePlace.Before`).  A name offends if it is empty; the
name of a function or variable offends also if it contains the separator of paths or stands at an
earlier place (`Body.Offends`).

A body is accepted exactly if its names are in order, and otherwise the error is the offence of the
first name that offends, at the place of this very occurrence
(`Body.validate_reports_first_offender`).
-/

namespace ScriptStore

/-! ## Places of names -/

/-- Where a body declares a name, by positions in its lists. -/
inductive NamePlace where
  | function (position : Nat)
  | var (position : Nat)
  | argument (position index : Nat)
  deriving DecidableEq, Repr

namespace NamePlace

/-- The list that a name is in, and its positions in there. -/
def key : NamePlace → List Nat
  | .function position => [0, position]
  | .var position => [1, position]
  | .argument position index => [2, position, index]

/-- Whether the name at a place is looked at before the name at another one. -/
def Before (a b : NamePlace) : Prop := a.key < b.key

instance (a b : NamePlace) : Decidable (a.Before b) := inferInstanceAs (Decidable (a.key < b.key))

/-- Whether the name is that of a function or variable, and not of an argument. -/
def isMember : NamePlace → Bool
  | .function _ => true
  | .var _ => true
  | .argument _ _ => false

/-- The path of a place in the document of a body. -/
def path : NamePlace → FieldPath
  | .function position => Body.namePath "actions" position
  | .var position => Body.namePath "variables" position
  | .argument position index => Body.argumentPath position index

/-- A place as it is shown. -/
def text : NamePlace → String
  | .function position => "actions[" ++ Nat.repr position ++ "].name"
  | .var position => "variables[" ++ Nat.repr position ++ "].name"
  | .argument position index =>
    "actions[" ++ Nat.repr position ++ "].arguments[" ++ Nat.repr index ++ "].name"

/-- The place of a name is written as its path. -/
theorem render_path (place : NamePlace) : place.path.render = place.text := by
  cases place <;>
    simp [path, text, Body.namePath, Body.argumentPath, FieldPath.render, FieldPath.stepsText,
      String.ext_iff]

/-! ## The order of places -/

theorem key_inj {a b : NamePlace} (h : a.key = b.key) : a = b := by
  cases a <;> cases b <;> simp_all [key]

/-- Nothing stands before itself. -/
theorem Before.ne {a b : NamePlace} (h : a.Before b) : a ≠ b := by
  rintro rfl
  exact List.lt_irrefl a.key h

/-- No place stands before and behind another. -/
theorem Before.asymm {a b : NamePlace} (h : a.Before b) : ¬ b.Before a := List.lt_asymm h

/-- The order goes on from place to place. -/
theorem Before.trans {a b c : NamePlace} (hab : a.Before b) (hbc : b.Before c) : a.Before c :=
  List.lt_trans hab hbc

/-- Of two places one comes first. -/
theorem before_or_before {a b : NamePlace} (h : a ≠ b) : a.Before b ∨ b.Before a := by
  refine Decidable.byContradiction fun hnot => h (key_inj ?_)
  exact List.le_antisymm (fun hlt => hnot (Or.inr hlt)) (fun hlt => hnot (Or.inl hlt))

/-- Before functions and variables there are functions and variables only. -/
theorem Before.isMember {a b : NamePlace} (h : a.Before b) (hb : b.isMember = true) :
    a.isMember = true := by
  cases a with
  | argument i j =>
    unfold Before at h
    cases b <;> simp_all [key, NamePlace.isMember, List.cons_lt_cons_iff]
  | _ => rfl

end NamePlace

namespace Body

/-! ## Offences -/

/-- The name that a body declares at a place. -/
def nameAt? (body : Body) : NamePlace → Option String
  | .function position => body.functionNames[position]?
  | .var position => body.variableNames[position]?
  | .argument position index =>
    (body.functions[position]?).bind fun decl => (decl.arguments.map (·.name))[index]?

/-- What is wrong with the name at a place. -/
inductive Offends (body : Body) (place : NamePlace) : BodyFault → Prop
  | empty (hname : body.nameAt? place = some "") : Offends body place .empty
  | pathSeparator {name : String} (hmember : place.isMember = true)
      (hname : body.nameAt? place = some name) (hsep : pathSeparator ∈ name.toList) :
      Offends body place (.pathSeparator name)
  | duplicate {name : String} {earlier : NamePlace} (hmember : place.isMember = true)
      (hname : body.nameAt? place = some name) (hsegment : IsSegment name)
      (hbefore : earlier.Before place) (hearlier : body.nameAt? earlier = some name) :
      Offends body place (.duplicate name)

/-! ## Names in order -/

/-- Names with their places, given the place of each position. -/
def placed (place : Nat → NamePlace) (names : List String) : List (NamePlace × String) :=
  names.zipIdx.map fun (name, position) => (place position, name)

/-- A placed name is that of its position. -/
theorem mem_placed (f : Nat → NamePlace) (names : List String) (place : NamePlace)
    (name : String) :
    (place, name) ∈ placed f names ↔
      ∃ position, place = f position ∧ names[position]? = some name := by
  unfold placed
  rw [List.mem_map]
  constructor
  · rintro ⟨⟨other, position⟩, hmem, heq⟩
    obtain ⟨rfl, rfl⟩ := Prod.mk.inj heq
    exact ⟨position, rfl, List.mk_mem_zipIdx_iff_getElem?.mp hmem⟩
  · rintro ⟨position, rfl, hget⟩
    exact ⟨(name, position), List.mk_mem_zipIdx_iff_getElem?.mpr hget, rfl⟩

/-- Names with increasing places are in order. -/
theorem pairwise_placed {f : Nat → NamePlace} (hf : ∀ i j, i < j → (f i).Before (f j))
    (names : List String) : (placed f names).Pairwise fun a b => a.1.Before b.1 := by
  unfold placed
  rw [List.pairwise_map]
  exact (pairwise_zipIdx names).imp fun hlt => hf _ _ hlt

/-- The names of functions and variables with their places, in order. -/
def placedMembers (body : Body) : List (NamePlace × String) :=
  placed .function body.functionNames ++ placed .var body.variableNames

/-- The names of arguments with their places, in order. -/
def placedArguments (body : Body) : List (NamePlace × String) :=
  body.functions.zipIdx.flatMap fun (decl, position) =>
    placed (.argument position) (decl.arguments.map (·.name))

variable (body : Body)

/-- The placed members are the names at places of members. -/
theorem mem_placedMembers (place : NamePlace) (name : String) :
    (place, name) ∈ body.placedMembers ↔
      place.isMember = true ∧ body.nameAt? place = some name := by
  rw [placedMembers, List.mem_append, mem_placed, mem_placed]
  cases place <;> simp [NamePlace.isMember, nameAt?]

/-- The placed arguments are the names at places of arguments. -/
theorem mem_placedArguments (place : NamePlace) (name : String) :
    (place, name) ∈ body.placedArguments ↔
      place.isMember = false ∧ body.nameAt? place = some name := by
  unfold placedArguments
  rw [List.mem_flatMap]
  constructor
  · rintro ⟨⟨decl, position⟩, hdecl, hmem⟩
    obtain ⟨index, rfl, hname⟩ := (mem_placed _ _ _ _).mp hmem
    refine ⟨rfl, ?_⟩
    rw [nameAt?, List.mk_mem_zipIdx_iff_getElem?.mp hdecl]
    exact hname
  · rintro ⟨hargument, hname⟩
    cases place with
    | argument position index =>
      obtain ⟨decl, hdecl, hname⟩ := Option.bind_eq_some_iff.mp hname
      exact ⟨(decl, position), List.mk_mem_zipIdx_iff_getElem?.mpr hdecl,
        (mem_placed _ _ _ _).mpr ⟨index, rfl, hname⟩⟩
    | _ => cases hargument

/-- The members are placed in order. -/
theorem pairwise_placedMembers : body.placedMembers.Pairwise fun a b => a.1.Before b.1 := by
  rw [placedMembers, List.pairwise_append]
  refine ⟨pairwise_placed ?_ _, pairwise_placed ?_ _, ?_⟩
  · intro i j hlt
    simpa [NamePlace.Before, NamePlace.key, List.cons_lt_cons_iff] using hlt
  · intro i j hlt
    simpa [NamePlace.Before, NamePlace.key, List.cons_lt_cons_iff] using hlt
  · rintro ⟨a, m⟩ ha ⟨b, n⟩ hb
    obtain ⟨i, rfl, -⟩ := (mem_placed _ _ _ _).mp ha
    obtain ⟨j, rfl, -⟩ := (mem_placed _ _ _ _).mp hb
    simp [NamePlace.Before, NamePlace.key, List.cons_lt_cons_iff]

/-- The arguments are placed in order. -/
theorem pairwise_placedArguments :
    body.placedArguments.Pairwise fun a b => a.1.Before b.1 := by
  unfold placedArguments
  rw [List.pairwise_flatMap]
  refine ⟨fun decl _ => pairwise_placed ?_ _, ?_⟩
  · intro i j hlt
    simpa [NamePlace.Before, NamePlace.key, List.cons_lt_cons_iff] using hlt
  · refine (pairwise_zipIdx body.functions).imp ?_
    rintro ⟨_, i⟩ ⟨_, j⟩ hlt ⟨a, m⟩ ha ⟨b, n⟩ hb
    obtain ⟨_, rfl, -⟩ := (mem_placed _ _ _ _).mp ha
    obtain ⟨_, rfl, -⟩ := (mem_placed _ _ _ _).mp hb
    simp [NamePlace.Before, NamePlace.key, List.cons_lt_cons_iff, show i < j from hlt]

/-- A name with its place in the document. -/
def inDocument (entry : NamePlace × String) : PlacedName := (entry.1.path, entry.2)

theorem declaredNames_eq : body.declaredNames = body.placedMembers.map inDocument := by
  rw [declaredNames, placedMembers, List.map_append]
  unfold placeNames placed
  rw [List.map_map, List.map_map]
  rfl

theorem argumentNames_eq : body.argumentNames = body.placedArguments.map inDocument := by
  unfold argumentNames placedArguments placed
  rw [List.map_flatMap]
  refine congrArg (fun f => List.flatMap f body.functions.zipIdx) (funext fun entry => ?_)
  obtain ⟨decl, position⟩ := entry
  dsimp only
  rw [List.zipIdx_map, List.map_map, List.map_map]
  rfl

/-- Where names are split in the document, they are split before a place. -/
theorem exists_split_of_inDocument {names : List (NamePlace × String)} {before : List PlacedName}
    {path : FieldPath} {name : String} {behind : List PlacedName}
    (h : names.map inDocument = before ++ (path, name) :: behind) :
    ∃ sound place rest, names = sound ++ (place, name) :: rest ∧
      before = sound.map inDocument ∧ path = place.path := by
  obtain ⟨sound, tail, hnames, rfl, htail⟩ := List.map_eq_append_iff.mp h
  obtain ⟨⟨place, other⟩, rest, rfl, hentry, -⟩ := List.map_eq_cons_iff.mp htail
  obtain ⟨hpath, rfl⟩ := Prod.mk.inj hentry
  exact ⟨sound, place, rest, hnames, rfl, hpath.symm⟩

/-! ## The first fault of a list -/

/-- The fault that is reported is that of a name behind names without faults. -/
theorem firstNameError?_eq_some {before : List String} {names : List PlacedName}
    {error : BodyError} (h : firstNameError? before names = some error) :
    ∃ sound name rest, names = sound ++ (error.path, name) :: rest ∧
      firstNameError? before sound = none ∧
      nameFault? ((sound.map Prod.snd).reverse ++ before) name = some error.fault := by
  induction names generalizing before with
  | nil => cases h
  | cons placed rest ih =>
    obtain ⟨path, name⟩ := placed
    rw [firstNameError?] at h
    cases hfault : nameFault? before name with
    | some fault =>
      rw [hfault] at h
      obtain rfl := Option.some.inj h
      exact ⟨[], name, rest, rfl, rfl, hfault⟩
    | none =>
      rw [hfault] at h
      obtain ⟨sound, other, behind, rfl, hsound, hother⟩ := ih h
      refine ⟨(path, name) :: sound, other, behind, rfl, ?_, ?_⟩
      · rw [firstNameError?, hfault]
        exact hsound
      · rw [List.map_cons, List.reverse_cons, List.append_assoc]
        exact hother

/-- A name is faulty in one of three ways; the first that applies is reported. -/
theorem nameFault?_eq_some {before : List String} {name : String} {fault : BodyFault}
    (h : nameFault? before name = some fault) :
    (fault = .empty ∧ name = "") ∨
      (fault = .pathSeparator name ∧ pathSeparator ∈ name.toList) ∨
      (fault = .duplicate name ∧ IsSegment name ∧ name ∈ before) := by
  unfold nameFault? at h
  split at h
  · rename_i hempty
    exact Or.inl ⟨(Option.some.inj h).symm, hempty⟩
  · rename_i hne
    split at h
    · rename_i hsep
      exact Or.inr (Or.inl ⟨(Option.some.inj h).symm, hsep⟩)
    · rename_i hnsep
      split at h
      · rename_i hmem
        exact Or.inr (Or.inr ⟨(Option.some.inj h).symm, ⟨hne, hnsep⟩, hmem⟩)
      · cases h

/-- Arguments are only asked for a name. -/
theorem argumentFault?_eq_some_iff {name : String} {fault : BodyFault} :
    argumentFault? name = some fault ↔ fault = .empty ∧ name = "" := by
  unfold argumentFault?
  split <;> simp [*, eq_comm]

/-- The reported argument is the first without a name. -/
theorem firstArgumentError?_eq_some {names : List PlacedName} {error : BodyError}
    (h : firstArgumentError? names = some error) :
    ∃ sound rest, names = sound ++ (error.path, "") :: rest ∧ error.fault = .empty ∧
      ∀ placed ∈ sound, placed.2 ≠ "" := by
  obtain ⟨sound, ⟨path, name⟩, rest, rfl, herror, hsound⟩ := List.findSome?_eq_some_iff.mp h
  obtain ⟨fault, hfault, rfl⟩ := Option.map_eq_some_iff.mp herror
  obtain ⟨rfl, rfl⟩ := argumentFault?_eq_some_iff.mp hfault
  refine ⟨sound, rest, rfl, rfl, fun placed hplaced hempty => ?_⟩
  have hnone := Option.map_eq_none_iff.mp (hsound placed hplaced)
  rw [hempty] at hnone
  cases hnone

/-! ## Places without offences -/

variable {body}

/-- A place is without offence if its name is one of some names without faults, and so are the
names at the places before it. -/
theorem not_offends_of_sound {sound : List (NamePlace × String)} {place : NamePlace}
    (hsound : firstNameError? [] (sound.map inDocument) = none)
    (hplace : ∀ name, body.nameAt? place = some name → (place, name) ∈ sound)
    (hbefore : ∀ earlier name, earlier.Before place → body.nameAt? earlier = some name →
      (earlier, name) ∈ sound) (fault : BodyFault) : ¬ body.Offends place fault := by
  obtain ⟨hsegment, hnodup, -⟩ := (firstNameError?_eq_none_iff [] _).mp hsound
  rw [List.forall_mem_map] at hsegment
  rw [List.map_map] at hnodup
  intro hoffends
  cases hoffends with
  | empty hname => exact (hsegment _ (hplace _ hname)).1 rfl
  | pathSeparator _ hname hsep => exact (hsegment _ (hplace _ hname)).2 hsep
  | duplicate _ hname _ hearlier hsame =>
    have heq := List.inj_on_of_nodup_map hnodup (hbefore _ _ hearlier hsame) (hplace _ hname) rfl
    exact hearlier.ne (Prod.mk.inj heq).1

/-- The place of an argument is without offence unless its name is empty. -/
theorem not_offends_of_argument {place : NamePlace} (hargument : place.isMember = false)
    (hname : body.nameAt? place ≠ some "") (fault : BodyFault) : ¬ body.Offends place fault := by
  intro hoffends
  cases hoffends with
  | empty hempty => exact hname hempty
  | pathSeparator hmember => exact Bool.false_ne_true (hargument.symm.trans hmember)
  | duplicate hmember => exact Bool.false_ne_true (hargument.symm.trans hmember)

/-- If the names of functions and variables are without faults, their places are without offence. -/
theorem not_offends_of_member (hsound : firstNameError? [] body.declaredNames = none)
    {place : NamePlace} (hmember : place.isMember = true) (fault : BodyFault) :
    ¬ body.Offends place fault := by
  rw [declaredNames_eq] at hsound
  refine not_offends_of_sound hsound (fun name hname => ?_) (fun earlier name hearlier hname => ?_)
    fault
  · exact (mem_placedMembers body _ _).mpr ⟨hmember, hname⟩
  · exact (mem_placedMembers body _ _).mpr ⟨hearlier.isMember hmember, hname⟩

/-- If the names are in order, no place has an offence. -/
theorem WellNamed.not_offends (h : body.WellNamed) (place : NamePlace) (fault : BodyFault) :
    ¬ body.Offends place fault := by
  obtain ⟨hmembers, harguments⟩ := Option.or_eq_none_iff.mp ((nameError?_eq_none_iff body).mpr h)
  cases hplace : place.isMember with
  | true => exact not_offends_of_member hmembers hplace fault
  | false =>
    refine not_offends_of_argument hplace (fun hempty => ?_) fault
    have hmem : (place, "") ∈ body.placedArguments :=
      (mem_placedArguments body _ _).mpr ⟨hplace, hempty⟩
    rw [argumentNames_eq] at harguments
    have hnone := List.findSome?_eq_none_iff.mp harguments _ (List.mem_map_of_mem hmem)
    cases hnone

/-! ## The first offender -/

/-- Of names in order, those at places before one of them are listed before it. -/
theorem mem_of_before {sound rest : List (NamePlace × String)} {place earlier : NamePlace}
    {name other : String}
    (hsorted : (sound ++ (place, name) :: rest).Pairwise fun a b => a.1.Before b.1)
    (hmem : (earlier, other) ∈ sound ++ (place, name) :: rest) (hbefore : earlier.Before place) :
    (earlier, other) ∈ sound := by
  obtain ⟨-, htail, -⟩ := List.pairwise_append.mp hsorted
  rcases List.mem_append.mp hmem with hsound | hrest
  · exact hsound
  · rcases List.mem_cons.mp hrest with heq | hbehind
    · exact absurd (Prod.mk.inj heq).1 hbefore.ne
    · exact absurd hbefore ((List.pairwise_cons.mp htail).1 _ hbehind).asymm

/-- A place has an offence, and no place before it has one. -/
def OffendsFirst (body : Body) (place : NamePlace) (fault : BodyFault) : Prop :=
  body.Offends place fault ∧
    ∀ earlier, earlier.Before place → ∀ other, ¬ body.Offends earlier other

/-- A place has one offence at most. -/
theorem Offends.unique {place : NamePlace} {fault other : BodyFault}
    (h : body.Offends place fault) (hother : body.Offends place other) : fault = other := by
  cases h <;> cases hother <;> simp_all [IsSegment]

/-- At most one place has the first offence. -/
theorem OffendsFirst.unique {a b : NamePlace} {fault other : BodyFault}
    (ha : body.OffendsFirst a fault) (hb : body.OffendsFirst b other) : a = b ∧ fault = other := by
  have hplace : a = b := by
    refine Decidable.byContradiction fun hne => ?_
    rcases NamePlace.before_or_before hne with hbefore | hbefore
    · exact hb.2 a hbefore fault ha.1
    · exact ha.2 b hbefore other hb.1
  subst hplace
  exact ⟨rfl, ha.1.unique hb.1⟩

/-- What is reported about the names of functions and variables is the first offence. -/
theorem offendsFirst_of_firstNameError? {error : BodyError}
    (h : firstNameError? [] body.declaredNames = some error) :
    ∃ place, error.path = place.path ∧ body.OffendsFirst place error.fault := by
  obtain ⟨before, name, behind, hsplit, hsound, hfault⟩ := firstNameError?_eq_some h
  rw [declaredNames_eq] at hsplit
  obtain ⟨sound, place, rest, hnames, rfl, hpath⟩ := exists_split_of_inDocument hsplit
  have hmem : ∀ {earlier : NamePlace} {other : String}, (earlier, other) ∈ body.placedMembers ↔
      earlier.isMember = true ∧ body.nameAt? earlier = some other :=
    mem_placedMembers body _ _
  obtain ⟨hmember, hname⟩ := hmem.mp (hnames ▸ List.mem_append_right sound List.mem_cons_self)
  -- the names are listed in the order of their places, so earlier places come before the split
  have hlisted : ∀ earlier other, earlier.Before place → body.nameAt? earlier = some other →
      (earlier, other) ∈ sound := by
    intro earlier other hearlier hother
    have hin := hmem.mpr ⟨hearlier.isMember hmember, hother⟩
    rw [hnames] at hin
    exact mem_of_before (hnames ▸ pairwise_placedMembers body) hin hearlier
  refine ⟨place, hpath, ?_, fun earlier hearlier => ?_⟩
  · rcases nameFault?_eq_some hfault with ⟨hf, rfl⟩ | ⟨hf, hsep⟩ | ⟨hf, hsegment, hseen⟩
    · exact hf ▸ .empty hname
    · exact hf ▸ .pathSeparator hmember hname hsep
    · rw [List.append_nil, List.mem_reverse, List.map_map] at hseen
      obtain ⟨⟨earlier, _⟩, hearlier, rfl⟩ := List.mem_map.mp hseen
      have hin : (earlier, _) ∈ body.placedMembers := hnames ▸ List.mem_append_left _ hearlier
      have hbefore : earlier.Before place := by
        have hsorted := hnames ▸ pairwise_placedMembers body
        exact (List.pairwise_append.mp hsorted).2.2 _ hearlier _ List.mem_cons_self
      exact hf ▸ .duplicate hmember hname hsegment hbefore (hmem.mp hin).2
  · exact not_offends_of_sound hsound (fun other => hlisted earlier other hearlier)
      fun first other hfirst => hlisted first other (hfirst.trans hearlier)

/-- What is reported about the names of arguments is the first offence, if the other names are
without faults. -/
theorem offendsFirst_of_firstArgumentError? {error : BodyError}
    (hmembers : firstNameError? [] body.declaredNames = none)
    (h : firstArgumentError? body.argumentNames = some error) :
    ∃ place, error.path = place.path ∧ body.OffendsFirst place error.fault := by
  obtain ⟨before, behind, hsplit, hfault, hsound⟩ := firstArgumentError?_eq_some h
  rw [argumentNames_eq] at hsplit
  obtain ⟨sound, place, rest, hnames, rfl, hpath⟩ := exists_split_of_inDocument hsplit
  have hmem : ∀ {earlier : NamePlace} {other : String}, (earlier, other) ∈ body.placedArguments ↔
      earlier.isMember = false ∧ body.nameAt? earlier = some other :=
    mem_placedArguments body _ _
  obtain ⟨-, hname⟩ := hmem.mp (hnames ▸ List.mem_append_right sound List.mem_cons_self)
  refine ⟨place, hpath, hfault ▸ .empty hname, fun earlier hearlier other => ?_⟩
  cases hkind : earlier.isMember with
  | true => exact not_offends_of_member hmembers hkind other
  | false =>
    refine not_offends_of_argument hkind (fun hempty => ?_) other
    have hin := hmem.mpr ⟨hkind, hempty⟩
    rw [hnames] at hin
    have hlisted := mem_of_before (hnames ▸ pairwise_placedArguments body) hin hearlier
    exact hsound _ (List.mem_map_of_mem hlisted) rfl

/-- A body is refused with the first offence. -/
theorem validate_eq_error_iff_offendsFirst (error : BodyError) :
    body.validate = .error error ↔
      ∃ place, error.path = place.path ∧ body.OffendsFirst place error.fault := by
  have hreported : ∀ {error : BodyError}, body.nameError? = some error →
      ∃ place, error.path = place.path ∧ body.OffendsFirst place error.fault := by
    intro error h
    rcases Option.or_eq_some_iff.mp h with hmember | ⟨hmembers, hargument⟩
    · exact offendsFirst_of_firstNameError? hmember
    · exact offendsFirst_of_firstArgumentError? hmembers hargument
  rw [validate_eq_error_iff]
  refine ⟨hreported, fun ⟨place, hpath, hfirst⟩ => ?_⟩
  cases hresult : body.nameError? with
  | none => exact absurd hfirst.1 (((nameError?_eq_none_iff body).mp hresult).not_offends _ _)
  | some reported =>
    obtain ⟨other, hother, hreported⟩ := hreported hresult
    obtain ⟨rfl, hfault⟩ := hfirst.unique hreported
    obtain ⟨_, _⟩ := reported
    obtain ⟨_, _⟩ := error
    exact congrArg some ((BodyError.mk.injEq _ _ _ _).mpr ⟨hother.trans hpath.symm, hfault.symm⟩)

/-- **The first offender.**  A body is accepted exactly if the names of its functions and variables
are not empty, hold no separator and are pairwise distinct, and no argument has an empty name.
Otherwise it is refused with the offence of the first name that offends, which is shown with its
list and its positions; no name before it offends. -/
theorem validate_reports_first_offender (body : Body) :
    (body.validate = .ok () ↔
      (∀ name ∈ body.functionNames ++ body.variableNames,
        name ≠ "" ∧ pathSeparator ∉ name.toList) ∧
      (body.functionNames ++ body.variableNames).Nodup ∧
      ∀ decl ∈ body.functions, ∀ argument ∈ decl.arguments, argument.name ≠ "") ∧
    ∀ error, body.validate = .error error ↔
      ∃ place, error.path = place.path ∧ error.field = place.text ∧
        body.Offends place error.fault ∧
        ∀ earlier, earlier.Before place → ∀ fault, ¬ body.Offends earlier fault := by
  constructor
  · rw [validate_eq_ok_iff]
    constructor
    · intro h
      exact ⟨h.segment, h.nodup, h.arguments⟩
    · rintro ⟨hsegment, hnodup, harguments⟩
      exact ⟨hsegment, hnodup, harguments⟩
  · intro error
    rw [validate_eq_error_iff_offendsFirst]
    constructor
    · rintro ⟨place, hpath, hfirst⟩
      have hfield : error.field = place.text := by
        rw [BodyError.field, hpath, NamePlace.render_path]
      exact ⟨place, hpath, hfield, hfirst⟩
    · rintro ⟨place, hpath, -, hfirst⟩
      exact ⟨place, hpath, hfirst⟩

/-- A body with a nameless argument, a variable with the name of a function and, behind it, a name
with a separator. -/
def offendingBody : Body :=
  ⟨[⟨"run", "() => 1", [⟨"", none⟩]⟩, ⟨"load", "() => 2", []⟩],
    [⟨"x", .null⟩, ⟨"load", .null⟩, ⟨"a.b", .null⟩]⟩

/-- The variable with the name of the function is the first offender: the nameless argument comes
later, and the function itself is without offence. -/
theorem offendingBody_is_refused :
    (NamePlace.function 1).Before (.var 1) ∧ (NamePlace.var 1).Before (.argument 0 0) ∧
      offendingBody.validate = .error ⟨namePath "variables" 1, .duplicate "load"⟩ ∧
      ∀ fault, ¬ offendingBody.Offends (.function 1) fault := by
  have hbefore : (NamePlace.function 1).Before (.var 1) := by decide
  have hrefused : offendingBody.validate =
      .error ⟨namePath "variables" 1, .duplicate "load"⟩ := by decide
  obtain ⟨place, hpath, -, -, hfirst⟩ :=
    ((validate_reports_first_offender offendingBody).2 _).mp hrefused
  have hplace : place = .var 1 := by
    cases place <;> simp_all [NamePlace.path, namePath, argumentPath]
  exact ⟨hbefore, by decide, hrefused, hfirst _ (hplace ▸ hbefore)⟩

end Body

end ScriptStore
