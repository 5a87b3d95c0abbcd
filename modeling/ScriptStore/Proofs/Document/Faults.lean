import Mathlib.Data.List.Lex
import ScriptStore.Proofs.Document.Grammar

/-!
# The first fault of a document

A document that is no body has a fault: at some place of the grammar it does not have what is
demanded there (`Body.Place`, `Unmet`).  Places are paths, and they are looked at in a fixed order:
a value before its parts, the items of a list one after the other, and the fields of an object in
the order in which the reader asks for them (`FieldPath.Before`).

A reader reports the first fault of what it reads (`Reports`).  Readers are put together from
smaller ones, and so are the faults that they report: one lemma for each way of putting readers
together gives that the reader of bodies reports the first fault of a document
(`Body.readStructure_reports`), and with that what becomes of every document
(`Body.reading_follows_grammar`).
-/

namespace ScriptStore

/-! ## Paths -/

/-- The fields of objects in the order in which they are looked at. -/
def fieldOrder : List String := ["actions", "variables", "name", "body", "arguments"]

/-- Whether one step leads to an earlier place than another one from the same value. -/
def PathStep.Before : PathStep → PathStep → Prop
  | .key a, .key b => fieldOrder.idxOf a < fieldOrder.idxOf b
  | .index i, .index j => i < j
  | _, _ => False

/-- Whether the place of a path is looked at before that of another one: it is on the way to it, or
takes an earlier step where the two part. -/
def FieldPath.Before : FieldPath → FieldPath → Prop := List.Lex PathStep.Before

/-- The value at the end of a path. -/
def Json.at? : FieldPath → Json → Option Json
  | [], document => some document
  | .key key :: rest, document => (document.field? key).bind (at? rest)
  | .index position :: rest, .arr items => (items[position]?).bind (at? rest)
  | .index _ :: _, _ => none

/-- A value is found step by step. -/
theorem Json.at?_append (start rest : FieldPath) (document : Json) :
    document.at? (start ++ rest) = (document.at? start).bind (at? rest) := by
  induction start generalizing document with
  | nil => rfl
  | cons step start ih =>
    cases step with
    | key key =>
      rw [List.cons_append, at?, at?, Option.bind_assoc]
      exact congrArg _ (funext ih)
    | index position =>
      cases document with
      | arr items =>
        rw [List.cons_append, at?, at?, Option.bind_assoc]
        exact congrArg _ (funext ih)
      | _ => rfl

/-- No step stands before and behind another. -/
theorem PathStep.Before.asymm {a b : PathStep} (h : a.Before b) : ¬ b.Before a := by
  cases a <;> cases b <;> simp_all [Before] <;> omega

/-- No place stands before and behind another. -/
theorem FieldPath.Before.asymm {a b : FieldPath} (h : a.Before b) : ¬ b.Before a := by
  induction h with
  | nil => rintro ⟨⟩
  | cons h ih =>
    intro hba
    cases hba with
    | cons hba => exact ih hba
    | rel hrel => exact hrel.asymm hrel
  | rel hrel =>
    intro hba
    cases hba with
    | cons hba => exact hrel.asymm hrel
    | rel hback => exact hrel.asymm hback

/-- Nothing stands before the whole. -/
theorem FieldPath.not_before_nil {path : FieldPath} : ¬ path.Before [] := by
  cases path <;> rintro ⟨⟩

/-- An object is looked at before what is in it. -/
theorem FieldPath.nil_before (step : PathStep) (path : FieldPath) : Before [] (step :: path) :=
  List.Lex.nil

/-- What stands in an earlier field stands before what stands in a later one. -/
theorem FieldPath.key_before {a b : String} (h : fieldOrder.idxOf a < fieldOrder.idxOf b)
    (path other : FieldPath) : Before (.key a :: path) (.key b :: other) := List.Lex.rel h

/-! ## Demands -/

/-- What the grammar demands at a place: an object, a text that is there, or a list unless it is
absent or null. -/
inductive Demand where
  | object
  | text
  | list
  deriving DecidableEq, Repr

/-- What is demanded inside arguments and variables. -/
inductive NamedPlace : FieldPath → Demand → Prop
  | itself : NamedPlace [] .object
  | name : NamedPlace [.key "name"] .text

/-- What is demanded inside functions. -/
inductive FunctionDecl.Place : FieldPath → Demand → Prop
  | itself : Place [] .object
  | name : Place [.key "name"] .text
  | source : Place [.key "body"] .text
  | arguments : Place [.key "arguments"] .list
  | argument {path : FieldPath} {demand : Demand} (position : Nat) (h : NamedPlace path demand) :
      Place (.key "arguments" :: .index position :: path) demand

/-- What is demanded of bodies. -/
inductive Body.Place : FieldPath → Demand → Prop
  | itself : Place [] .object
  | functions : Place [.key "actions"] .list
  | function {path : FieldPath} {demand : Demand} (position : Nat)
      (h : FunctionDecl.Place path demand) :
      Place (.key "actions" :: .index position :: path) demand
  | vars : Place [.key "variables"] .list
  | var {path : FieldPath} {demand : Demand} (position : Nat) (h : NamedPlace path demand) :
      Place (.key "variables" :: .index position :: path) demand

/-- How a document does not have what is demanded at a place: the value there has another type, or
the text is absent or null in the object that should hold it. -/
def Unmet (document : Json) (path : FieldPath) : Demand → BodyFault → Prop
  | .object, .wrongType .object =>
    ∃ found, document.at? path = some found ∧ found.isObject = false
  | .text, .missing =>
    ∃ parent key fields, path = parent ++ [.key key] ∧ document.at? parent = some (.obj fields) ∧
      (Entries.get? key fields = none ∨ Entries.get? key fields = some .null)
  | .text, .wrongType .string =>
    ∃ found, document.at? path = some found ∧ found ≠ .null ∧ ∀ text, found ≠ .str text
  | .list, .wrongType .array =>
    ∃ found, document.at? path = some found ∧ found ≠ .null ∧ ∀ items, found ≠ .arr items
  | _, _ => False

/-- The error is about a place where something is demanded that the document does not have. -/
def FaultIn (places : FieldPath → Demand → Prop) (document : Json) (error : BodyError) : Prop :=
  ∃ demand, places error.path demand ∧ Unmet document error.path demand error.fault

/-- The error is about what is demanded at this place. -/
def FaultAt (path : FieldPath) (demand : Demand) (document : Json) (error : BodyError) : Prop :=
  error.path = path ∧ Unmet document path demand error.fault

/-- No fault at a place comes before this place. -/
theorem FaultAt.not_before {path : FieldPath} {demand : Demand} {document : Json}
    {error : BodyError} (h : FaultAt path demand document error) : ¬ error.path.Before path := by
  rw [h.1]
  exact fun hbefore => hbefore.asymm hbefore

/-- The error is about an item of the list in a field. -/
def FaultOfItem (key : String) (places : FieldPath → Demand → Prop) (document : Json)
    (error : BodyError) : Prop :=
  ∃ position item path, (document.itemsOf key)[position]? = some item ∧
    error.path = .key key :: .index position :: path ∧ FaultIn places item ⟨path, error.fault⟩

/-! ## Faults of parts -/

section Parts

variable {document : Json} {key : String} {fault : BodyFault}

theorem Json.at?_key : document.at? [.key key] = document.field? key := by
  rw [at?]
  cases document.field? key <;> rfl

/-- An item is found at its position in the list, if there is one. -/
theorem Json.at?_item (position : Nat) :
    document.at? [.key key, .index position] = (document.itemsOf key)[position]? := by
  unfold itemsOf
  rw [at?]
  cases document.field? key with
  | none => rfl
  | some found =>
    cases found with
    | arr items =>
      show (items[position]?).bind (at? []) = items[position]?
      cases items[position]? <;> rfl
    | _ => rfl

/-- The demand for an object can fail in one way. -/
theorem unmet_object_iff : Unmet document [] .object fault ↔
    fault = .wrongType .object ∧ document.isObject = false := by
  cases fault with
  | wrongType expected => cases expected <;> simp [Unmet, Json.at?]
  | _ => simp [Unmet]

/-- In an object a required text is missing if it is absent or null, and has another type if it is
neither absent nor null nor a text. -/
theorem unmet_text_iff : Unmet document [.key key] .text fault ↔
    (fault = .missing ∧ document.isObject = true ∧
      (document.field? key = none ∨ document.field? key = some .null)) ∨
    (fault = .wrongType .string ∧ ∃ found, document.field? key = some found ∧ found ≠ .null ∧
      ∀ text, found ≠ .str text) := by
  cases fault with
  | missing =>
    simp only [Unmet, true_and, reduceCtorEq, false_and, or_false]
    constructor
    · rintro ⟨parent, other, fields, hpath, hparent, hmissing⟩
      have hpath : [] ++ [PathStep.key key] = parent ++ [.key other] := hpath
      obtain ⟨rfl, hkey⟩ := List.append_inj' hpath rfl
      obtain rfl := PathStep.key.inj (List.cons.inj hkey).1
      obtain rfl := Option.some.inj hparent
      exact ⟨rfl, hmissing⟩
    · rintro ⟨hobject, hmissing⟩
      obtain ⟨fields, rfl⟩ := Json.isObject_iff.mp hobject
      exact ⟨[], key, fields, rfl, rfl, hmissing⟩
  | wrongType expected => cases expected <;> simp [Unmet, Json.at?_key]
  | _ => simp [Unmet]

/-- The demand for a list can fail in one way, as a missing list is an empty one. -/
theorem unmet_list_iff : Unmet document [.key key] .list fault ↔
    fault = .wrongType .array ∧ ¬ document.HasList key := by
  cases fault with
  | wrongType expected =>
    cases expected with
    | array =>
      simp only [Unmet, Json.at?_key, Json.HasList, true_and]
      cases document.field? key with
      | none => simp
      | some found => simp
    | _ => simp [Unmet]
  | _ => simp [Unmet]

/-- What stands in an item is found from the item on. -/
theorem Json.at?_in_item (position : Nat) (rest : FieldPath) :
    document.at? (.key key :: .index position :: rest) =
      ((document.itemsOf key)[position]?).bind (at? rest) := by
  rw [← Json.at?_item]
  exact Json.at?_append [.key key, .index position] rest document

/-- The value at a place in an item is a value of the item. -/
theorem exists_at?_in_item_iff (position : Nat) (path : FieldPath) (p : Json → Prop) :
    (∃ found, document.at? (.key key :: .index position :: path) = some found ∧ p found) ↔
      ∃ item, (document.itemsOf key)[position]? = some item ∧
        ∃ found, item.at? path = some found ∧ p found := by
  simp only [Json.at?_in_item, Option.bind_eq_some_iff]
  constructor
  · rintro ⟨found, ⟨item, hitem, hfound⟩, hp⟩
    exact ⟨item, hitem, found, hfound, hp⟩
  · rintro ⟨item, hitem, found, hfound, hp⟩
    exact ⟨found, ⟨item, hitem, hfound⟩, hp⟩

/-- A text is missing at a place in an item if it is missing in the item: the object that should
hold the text is the item or lies in it. -/
theorem missing_in_item_iff (position : Nat) {path : FieldPath} (hpath : path ≠ []) :
    Unmet document (.key key :: .index position :: path) .text .missing ↔
      ∃ item, (document.itemsOf key)[position]? = some item ∧ Unmet item path .text .missing := by
  obtain ⟨init, last, rfl⟩ := (List.eq_nil_or_concat' path).resolve_left hpath
  simp only [Unmet]
  constructor
  · rintro ⟨parent, other, fields, heq, hparent, hmissing⟩
    have heq : (.key key :: .index position :: init) ++ [last] = parent ++ [.key other] := heq
    obtain ⟨rfl, hlast⟩ := List.append_inj' heq rfl
    rw [Json.at?_in_item] at hparent
    obtain ⟨item, hitem, hfields⟩ := Option.bind_eq_some_iff.mp hparent
    exact ⟨item, hitem, init, other, fields, by rw [hlast], hfields, hmissing⟩
  · rintro ⟨item, hitem, parent, other, fields, heq, hparent, hmissing⟩
    refine ⟨.key key :: .index position :: parent, other, fields, ?_, ?_, hmissing⟩
    · rw [heq]
      rfl
    · rw [Json.at?_in_item, hitem]
      exact hparent

/-- What an item does not have is not had by the document at a place in the item. -/
theorem unmet_item_iff {position : Nat} {path : FieldPath} {demand : Demand}
    (hpath : path = [] → demand ≠ .text) :
    Unmet document (.key key :: .index position :: path) demand fault ↔
      ∃ item, (document.itemsOf key)[position]? = some item ∧ Unmet item path demand fault := by
  cases fault with
  | missing =>
    cases demand with
    | text => exact missing_in_item_iff position fun heq => hpath heq rfl
    | _ => simp [Unmet]
  | wrongType expected =>
    -- only with the type that is demanded this is about the value at the place
    cases demand with
    | object =>
      cases expected with
      | object => exact exists_at?_in_item_iff position path _
      | _ => simp [Unmet]
    | text =>
      cases expected with
      | string => exact exists_at?_in_item_iff position path _
      | _ => simp [Unmet]
    | list =>
      cases expected with
      | array => exact exists_at?_in_item_iff position path _
      | _ => simp [Unmet]
  | _ => simp [Unmet]

/-- The demands inside the items of a list are faults of the document as they are faults of the
items. -/
theorem faultOfItem_iff {places : FieldPath → Demand → Prop} {error : BodyError}
    (hitself : ∀ demand, places [] demand → demand ≠ .text) :
    FaultOfItem key places document error ↔ ∃ position path demand, places path demand ∧
      FaultAt (.key key :: .index position :: path) demand document error := by
  constructor
  · rintro ⟨position, item, path, hitem, hpath, demand, hplace, hunmet⟩
    exact ⟨position, path, demand, hplace, hpath,
      (unmet_item_iff fun heq => hitself demand (heq ▸ hplace)).mpr ⟨item, hitem, hunmet⟩⟩
  · rintro ⟨position, path, demand, hplace, hpath, hunmet⟩
    obtain ⟨item, hitem, hunmet⟩ :=
      (unmet_item_iff fun heq => hitself demand (heq ▸ hplace)).mp hunmet
    exact ⟨position, item, path, hitem, hpath, demand, hplace, hunmet⟩

end Parts

/-! ## Faults of declarations -/

section Declarations

variable {document : Json} {error : BodyError}

/-- The faults of a declaration with a name are its own or those of the name. -/
theorem faultIn_named_iff : FaultIn NamedPlace document error ↔
    FaultAt [] .object document error ∨ FaultAt [.key "name"] .text document error := by
  unfold FaultIn FaultAt
  constructor
  · rintro ⟨demand, hplace, hunmet⟩
    generalize error.path = path at *
    cases hplace with
    | itself => exact Or.inl ⟨rfl, hunmet⟩
    | name => exact Or.inr ⟨rfl, hunmet⟩
  · rintro (⟨hpath, hunmet⟩ | ⟨hpath, hunmet⟩) <;> rw [hpath]
    · exact ⟨_, .itself, hunmet⟩
    · exact ⟨_, .name, hunmet⟩

/-- The faults of a function are its own, those of its fields or those of its arguments. -/
theorem faultIn_function_iff : FaultIn FunctionDecl.Place document error ↔
    FaultAt [] .object document error ∨ FaultAt [.key "name"] .text document error ∨
      FaultAt [.key "body"] .text document error ∨ FaultAt [.key "arguments"] .list document error ∨
      FaultOfItem "arguments" NamedPlace document error := by
  have hitself : ∀ demand, NamedPlace [] demand → demand ≠ .text := by
    rintro _ ⟨⟩ ⟨⟩
  rw [faultOfItem_iff hitself]
  unfold FaultIn FaultAt
  constructor
  · rintro ⟨demand, hplace, hunmet⟩
    generalize error.path = path at *
    cases hplace with
    | itself => exact Or.inl ⟨rfl, hunmet⟩
    | name => exact Or.inr (Or.inl ⟨rfl, hunmet⟩)
    | source => exact Or.inr (Or.inr (Or.inl ⟨rfl, hunmet⟩))
    | arguments => exact Or.inr (Or.inr (Or.inr (Or.inl ⟨rfl, hunmet⟩)))
    | argument position h =>
      exact Or.inr (Or.inr (Or.inr (Or.inr ⟨position, _, demand, h, rfl, hunmet⟩)))
  · rintro (⟨hpath, hunmet⟩ | ⟨hpath, hunmet⟩ | ⟨hpath, hunmet⟩ | ⟨hpath, hunmet⟩ |
      ⟨position, path, demand, h, hpath, hunmet⟩) <;> rw [hpath]
    · exact ⟨_, .itself, hunmet⟩
    · exact ⟨_, .name, hunmet⟩
    · exact ⟨_, .source, hunmet⟩
    · exact ⟨_, .arguments, hunmet⟩
    · exact ⟨_, .argument position h, hunmet⟩

/-- The faults of a body are its own or those of its two lists. -/
theorem faultIn_body_iff : FaultIn Body.Place document error ↔
    FaultAt [] .object document error ∨
      (FaultAt [.key "actions"] .list document error ∨
        FaultOfItem "actions" FunctionDecl.Place document error) ∨
      FaultAt [.key "variables"] .list document error ∨
      FaultOfItem "variables" NamedPlace document error := by
  have hfunction : ∀ demand, FunctionDecl.Place [] demand → demand ≠ .text := by
    rintro _ ⟨⟩ ⟨⟩
  have hvariable : ∀ demand, NamedPlace [] demand → demand ≠ .text := by
    rintro _ ⟨⟩ ⟨⟩
  rw [faultOfItem_iff hfunction, faultOfItem_iff hvariable]
  unfold FaultIn FaultAt
  constructor
  · rintro ⟨demand, hplace, hunmet⟩
    generalize error.path = path at *
    cases hplace with
    | itself => exact Or.inl ⟨rfl, hunmet⟩
    | functions => exact Or.inr (Or.inl (Or.inl ⟨rfl, hunmet⟩))
    | function position h =>
      exact Or.inr (Or.inl (Or.inr ⟨position, _, demand, h, rfl, hunmet⟩))
    | vars => exact Or.inr (Or.inr (Or.inl ⟨rfl, hunmet⟩))
    | var position h => exact Or.inr (Or.inr (Or.inr ⟨position, _, demand, h, rfl, hunmet⟩))
  · rintro (⟨hpath, hunmet⟩ | (⟨hpath, hunmet⟩ | ⟨position, path, demand, h, hpath, hunmet⟩) |
      ⟨hpath, hunmet⟩ | ⟨position, path, demand, h, hpath, hunmet⟩) <;> rw [hpath]
    · exact ⟨_, .itself, hunmet⟩
    · exact ⟨_, .functions, hunmet⟩
    · exact ⟨_, .function position h, hunmet⟩
    · exact ⟨_, .vars, hunmet⟩
    · exact ⟨_, .var position h, hunmet⟩

end Declarations

/-! ## Faults of fields -/

/-- The faults are about places in these fields. -/
def InsideFields (keys : List String) (faults : BodyError → Prop) : Prop :=
  ∀ e, faults e → ∃ key ∈ keys, ∃ rest, e.path = .key key :: rest

section Fields

variable {document : Json} {key : String} {demand : Demand} {keys others : List String}
  {F G : BodyError → Prop}

/-- The fault of a field stands in it. -/
theorem insideFields_faultAt : InsideFields [key] (FaultAt [.key key] demand document) :=
  fun _ h => ⟨key, List.mem_singleton_self key, [], h.1⟩

/-- The faults of a list and of its items stand in its field. -/
theorem insideFields_list {places : FieldPath → Demand → Prop} :
    InsideFields [key] (fun e =>
      FaultAt [.key key] .list document e ∨ FaultOfItem key places document e) := by
  rintro e (⟨hpath, -⟩ | ⟨position, _, path, -, hpath, -⟩)
  · exact ⟨key, List.mem_singleton_self key, _, hpath⟩
  · exact ⟨key, List.mem_singleton_self key, _, hpath⟩

namespace InsideFields

/-- Faults of either kind stand in the fields of both. -/
theorem or (hF : InsideFields keys F) (hG : InsideFields others G) :
    InsideFields (keys ++ others) (fun e => F e ∨ G e) := by
  rintro e (h | h)
  · obtain ⟨key, hkey, hpath⟩ := hF e h
    exact ⟨key, List.mem_append_left _ hkey, hpath⟩
  · obtain ⟨key, hkey, hpath⟩ := hG e h
    exact ⟨key, List.mem_append_right _ hkey, hpath⟩

/-- Faults in earlier fields are at earlier places. -/
theorem before (hF : InsideFields keys F) (hG : InsideFields others G)
    (horder : ∀ a ∈ keys, ∀ b ∈ others, fieldOrder.idxOf a < fieldOrder.idxOf b)
    (e other : BodyError) (he : F e) (hother : G other) : e.path.Before other.path := by
  obtain ⟨a, ha, rest, hpath⟩ := hF e he
  obtain ⟨b, hb, next, hnext⟩ := hG other hother
  rw [hpath, hnext]
  exact FieldPath.key_before (horder a ha b hb) rest next

/-- That a value is no object comes before everything about its fields. -/
theorem behind (hG : InsideFields others G) (e other : BodyError)
    (he : FaultAt [] demand document e) (hother : G other) : e.path.Before other.path := by
  obtain ⟨b, -, next, hnext⟩ := hG other hother
  rw [he.1, hnext]
  exact FieldPath.nil_before _ next

end InsideFields

end Fields

/-! ## Reports -/

/-- The reader, at work at a place, reports the first of these faults: it succeeds only if there are
none, and otherwise its error is one of them, and none is at an earlier place. -/
def Reports {α : Type} (run : Except BodyError α) (start : FieldPath)
    (faults : BodyError → Prop) : Prop :=
  match run with
  | .ok _ => ∀ error, ¬ faults error
  | .error error => ∃ path, error.path = start ++ path ∧ faults ⟨path, error.fault⟩ ∧
      ∀ other, faults other → ¬ other.path.Before path

namespace Reports

variable {α β : Type} {start : FieldPath} {F G : BodyError → Prop}

/-- Reports are about faults, however they are described. -/
theorem congr {run : Except BodyError α} (h : Reports run start F) (hFG : ∀ e, F e ↔ G e) :
    Reports run start G := by
  rwa [← funext fun e => propext (hFG e)]

/-- Two readers one after the other report the first fault of both, if those of the first one come
first. -/
theorem bind {run : Except BodyError α} {next : α → Except BodyError β} (hrun : Reports run start F)
    (hnext : ∀ result, run = .ok result → Reports (next result) start G)
    (horder : ∀ e other, F e → G other → e.path.Before other.path) :
    Reports (run >>= next) start (fun e => F e ∨ G e) := by
  cases run with
  | ok result =>
    have hnone : ∀ e, ¬ F e := hrun
    exact (hnext result rfl).congr fun e => (or_iff_right (hnone e)).symm
  | error error =>
    obtain ⟨path, hpath, hfault, hfirst⟩ := hrun
    refine ⟨path, hpath, Or.inl hfault, fun other hother => ?_⟩
    rcases hother with hother | hother
    · exact hfirst other hother
    · exact (horder _ other hfault hother).asymm

/-- What is done with a result does not change what is reported. -/
theorem map {run : Except BodyError α} (h : Reports run start F) (f : α → β) :
    Reports (run >>= fun result => .ok (f result)) start F := by
  cases run with
  | ok result => exact h
  | error error => exact h

/-- What a reader reports at a place is reported a step before it at a path with this step. -/
theorem under {run : Except BodyError α} {step : PathStep} (h : Reports run (start ++ [step]) F) :
    Reports run start (fun e => ∃ path, e.path = step :: path ∧ F ⟨path, e.fault⟩) := by
  cases run with
  | ok result =>
    rintro e ⟨path, -, hfault⟩
    exact h _ hfault
  | error error =>
    obtain ⟨path, hpath, hfault, hfirst⟩ := h
    refine ⟨step :: path, ?_, ⟨path, rfl, hfault⟩, ?_⟩
    · rw [hpath, List.append_assoc]
      rfl
    · rintro other ⟨rest, hrest, hother⟩ hbefore
      rw [hrest] at hbefore
      cases hbefore with
      | cons hbefore => exact hfirst _ hother hbefore
      | rel hrel => exact hrel.asymm hrel

end Reports

/-! ## Readers of fields -/

namespace Body

variable {start : FieldPath} {document : Json}

/-- The reader of objects reports what is no object. -/
theorem readObject_reports :
    Reports (readObject start document) start (FaultAt [] .object document) := by
  unfold FaultAt
  simp only [unmet_object_iff]
  cases document with
  | obj fields =>
    rintro e ⟨-, -, hobject⟩
    cases hobject
  | _ =>
    refine ⟨[], (List.append_nil start).symm, ⟨rfl, rfl, rfl⟩, ?_⟩
    exact fun other _ => FieldPath.not_before_nil

/-- The reader of texts reports what is missing or no text. -/
theorem readText_reports (hobject : document.isObject = true) (key : String) :
    Reports (readText start key document) start (FaultAt [.key key] .text document) := by
  unfold readText
  cases hfound : document.field? key with
  | none =>
    exact ⟨_, rfl, ⟨rfl, unmet_text_iff.mpr (Or.inl ⟨rfl, hobject, Or.inl hfound⟩)⟩,
      fun _ => FaultAt.not_before⟩
  | some found =>
    cases found with
    | null =>
      exact ⟨_, rfl, ⟨rfl, unmet_text_iff.mpr (Or.inl ⟨rfl, hobject, Or.inr hfound⟩)⟩,
        fun _ => FaultAt.not_before⟩
    | str text =>
      rintro e ⟨-, hunmet⟩
      rcases unmet_text_iff.mp hunmet with ⟨-, -, hmissing⟩ | ⟨-, other, hother, -, htype⟩
      · rw [hfound] at hmissing
        rcases hmissing with hmissing | hmissing <;> cases hmissing
      · exact htype text (Option.some.inj (hother.symm.trans hfound))
    | _ =>
      refine ⟨_, rfl, ⟨rfl, unmet_text_iff.mpr (Or.inr ⟨rfl, _, hfound, ?_, ?_⟩)⟩,
        fun _ => FaultAt.not_before⟩
      · rintro ⟨⟩
      · rintro text ⟨⟩

/-- The reader of lists reports what is there and no list. -/
theorem readItems_reports (key : String) :
    Reports (readItems start key document) start (FaultAt [.key key] .list document) := by
  have hnone (hlist : document.HasList key) (e : BodyError) :
      ¬ FaultAt [.key key] .list document e :=
    fun hfault => (unmet_list_iff.mp hfault.2).2 hlist
  unfold readItems
  cases hfound : document.field? key with
  | none => exact hnone (Or.inl hfound)
  | some found =>
    cases found with
    | null => exact hnone (Or.inr (Or.inl hfound))
    | arr items => exact hnone (Or.inr (Or.inr ⟨items, hfound⟩))
    | _ =>
      refine ⟨_, rfl, ⟨rfl, unmet_list_iff.mpr ⟨rfl, ?_⟩⟩, fun _ => FaultAt.not_before⟩
      simp [Json.HasList, hfound]

section Lists

variable {α : Type} {read : FieldPath → Json → Except BodyError α}
  {places : FieldPath → Demand → Prop}

/-- A reader of the items from a position on reports the first fault of an item. -/
theorem readEach_reports (h : ∀ start item, Reports (read start item) start (FaultIn places item))
    (position : Nat) (items : List Json) :
    Reports (readEach read start position items) start (fun e => ∃ i item path,
      items[i]? = some item ∧ e.path = .index (position + i) :: path ∧
        FaultIn places item ⟨path, e.fault⟩) := by
  induction items generalizing position with
  | nil =>
    rintro e ⟨i, item, path, hitem, -⟩
    cases hitem
  | cons item rest ih =>
    have hread : readEach read start position (item :: rest) =
        (read (start ++ [.index position]) item >>= fun first =>
          readEach read start (position + 1) rest >>= fun others => .ok (first :: others)) := rfl
    rw [hread]
    -- a fault of the first item has an earlier position than any fault of the others
    refine ((h _ item).under.bind (fun first _ => (ih (position + 1)).map _) ?_).congr fun e => ?_
    · rintro e other ⟨path, hpath, -⟩ ⟨i, _, next, -, hnext, -⟩
      rw [hpath, hnext]
      exact List.Lex.rel (by simp [PathStep.Before]; omega)
    · constructor
      · rintro (⟨path, hpath, hfault⟩ | ⟨i, other, path, hother, hpath, hfault⟩)
        · exact ⟨0, item, path, rfl, hpath, hfault⟩
        · refine ⟨i + 1, other, path, hother, ?_, hfault⟩
          rw [hpath, Nat.add_right_comm, Nat.add_assoc]
      · rintro ⟨i, other, path, hother, hpath, hfault⟩
        cases i with
        | zero =>
          obtain rfl := Option.some.inj hother
          exact Or.inl ⟨path, hpath, hfault⟩
        | succ i =>
          refine Or.inr ⟨i, other, path, hother, ?_, hfault⟩
          rw [hpath, Nat.add_right_comm, Nat.add_assoc]

/-- A reader of an optional list reports that it is none, or the first fault of an item. -/
theorem readList_reports (h : ∀ start item, Reports (read start item) start (FaultIn places item))
    (key : String) :
    Reports (readList read start key document) start
      (fun e => FaultAt [.key key] .list document e ∨ FaultOfItem key places document e) := by
  unfold readList
  refine (readItems_reports key).bind (fun items hitems => ?_) ?_
  · obtain ⟨-, rfl⟩ := readItems_eq_ok_iff.mp hitems
    refine (readEach_reports h 0 _).under.congr fun e => ?_
    constructor
    · rintro ⟨_, hstep, i, item, path, hitem, rfl, hfault⟩
      exact ⟨i, item, path, hitem, by rw [hstep, Nat.zero_add], hfault⟩
    · rintro ⟨i, item, path, hitem, hpath, hfault⟩
      exact ⟨_, hpath, i, item, path, hitem, by rw [Nat.zero_add], hfault⟩
  · rintro e other ⟨hpath, -⟩ ⟨i, item, path, -, hother, -⟩
    rw [hpath, hother]
    exact List.Lex.cons List.Lex.nil

end Lists

/-! ## Readers of declarations -/

/-- A reader that asks for an object with a name and for nothing else. -/
theorem readNamed_reports {α : Type} (f : String → α) :
    Reports (readObject start document >>= fun _ =>
      readText start "name" document >>= fun name => .ok (f name)) start
      (FaultIn NamedPlace document) := by
  refine (readObject_reports.bind (fun _ hobject => ?_) insideFields_faultAt.behind).congr
    fun e => faultIn_named_iff.symm
  exact (readText_reports (readObject_eq_ok_iff.mp hobject) "name").map f

/-- The reader of arguments reports the first fault. -/
theorem readArgument_reports :
    Reports (readArgument start document) start (FaultIn NamedPlace document) :=
  readNamed_reports fun name => Argument.mk name ((document.field? "value").filter (!·.isNull))

/-- The reader of variables reports the first fault; a value may be missing. -/
theorem readVariable_reports :
    Reports (readVariable start document) start (FaultIn NamedPlace document) :=
  readNamed_reports fun name => VariableDecl.mk name ((document.field? "value").getD .null)

/-- The reader of functions reports the first fault, field by field. -/
theorem readFunction_reports :
    Reports (readFunction start document) start (FaultIn FunctionDecl.Place document) := by
  have hread : readFunction start document = (readObject start document >>= fun _ =>
      readText start "name" document >>= fun name =>
      readText start "body" document >>= fun source =>
      readList readArgument start "arguments" document >>= fun arguments =>
        .ok ⟨name, source, arguments⟩) := rfl
  rw [hread]
  have hname : InsideFields ["name"] (FaultAt [.key "name"] .text document) :=
    insideFields_faultAt
  have hsource : InsideFields ["body"] (FaultAt [.key "body"] .text document) :=
    insideFields_faultAt
  have harguments : InsideFields ["arguments"] (fun e =>
      FaultAt [.key "arguments"] .list document e ∨
        FaultOfItem "arguments" NamedPlace document e) := insideFields_list
  have hbehind := hsource.or harguments
  refine (readObject_reports.bind (fun _ hobject => ?_) (hname.or hbehind).behind).congr
    fun e => faultIn_function_iff.symm
  have hobject := readObject_eq_ok_iff.mp hobject
  refine (readText_reports hobject "name").bind (fun name _ => ?_)
    (hname.before hbehind (by decide))
  refine (readText_reports hobject "body").bind (fun source _ => ?_)
    (hsource.before harguments (by decide))
  exact (readList_reports (fun _ _ => readArgument_reports) "arguments").map _

/-- The reader of bodies reports the first fault of a document. -/
theorem readStructure_reports : Reports (readStructure document) [] (FaultIn Place document) := by
  have hread : readStructure document = (readObject [] document >>= fun _ =>
      readList readFunction [] "actions" document >>= fun functions =>
      readList readVariable [] "variables" document >>= fun vars =>
        .ok ⟨functions, vars⟩) := rfl
  rw [hread]
  have hfunctions : InsideFields ["actions"] (fun e =>
      FaultAt [.key "actions"] .list document e ∨
        FaultOfItem "actions" FunctionDecl.Place document e) := insideFields_list
  have hvars : InsideFields ["variables"] (fun e =>
      FaultAt [.key "variables"] .list document e ∨
        FaultOfItem "variables" NamedPlace document e) := insideFields_list
  refine (readObject_reports.bind (fun _ _ => ?_) (hfunctions.or hvars).behind).congr
    fun e => faultIn_body_iff.symm
  refine (readList_reports (fun _ _ => readFunction_reports) "actions").bind
    (fun functions _ => ?_) (hfunctions.before hvars (by decide))
  exact (readList_reports (fun _ _ => readVariable_reports) "variables").map _

/-! ## The main theorem -/

/-- **Reading follows the grammar.**  The parser's reader gets past the fields of exactly the
documents of the grammar.  It then has the body that the document declares, and answers with it or
with what is wrong with its names.  For every other document its error is a fault of the document,
and no fault is at an earlier place. -/
theorem reading_follows_grammar (document : Json) :
    ((∃ body, readStructure document = .ok body) ↔ Conforms document) ∧
    (Conforms document → ∃ body, readStructure document = .ok body ∧ DeclaredBy document body ∧
      ofJson document = body.checked) ∧
    (¬ Conforms document → ∃ error, ofJson document = .error error ∧
      FaultIn Place document error ∧
      ∀ other, FaultIn Place document other → ¬ other.path.Before error.path) := by
  refine ⟨exists_readStructure_eq_ok_iff, fun h => ?_, fun h => ?_⟩
  · obtain ⟨body, hbody⟩ := h.exists_declaredBy
    have hread := readStructure_eq_ok_iff_declaredBy.mpr ⟨h, hbody⟩
    exact ⟨body, hread, hbody, ofJson_of_readStructure hread⟩
  · have hreports : Reports (readStructure document) [] (FaultIn Place document) :=
      readStructure_reports
    cases hread : readStructure document with
    | ok body => exact absurd (exists_readStructure_eq_ok_iff.mp ⟨body, hread⟩) h
    | error error =>
      rw [hread] at hreports
      obtain ⟨path, hpath, hfault, hfirst⟩ := hreports
      obtain rfl : path = error.path := hpath.symm
      refine ⟨error, ?_, hfault, hfirst⟩
      show (readStructure document >>= _) = _
      rw [hread]
      rfl

/-- A document with null lists and a null default value. -/
def sparseDocument : Json :=
  .obj [("variables", .null), ("actions", .arr [
    .obj [("body", .str "1"), ("name", .str "run"), ("arguments", .null)],
    .obj [("name", .str "load"), ("body", .str "2"),
      ("arguments", .arr [.obj [("name", .str "id"), ("value", .null)]])]])]

/-- A document with an argument that has no name, and with a text for a variable. -/
def faultyDocument : Json :=
  .obj [("variables", .arr [.str "x"]), ("actions", .arr [
    .obj [("name", .str "run"), ("body", .str "1")],
    .obj [("name", .str "load"), ("body", .str "2"),
      ("arguments", .arr [.obj [("name", .str "id")], .obj [("value", .null)]])]])]

/-- The first document is read, and of the two faults of the second one that of the argument is
reported, though the variables are written first. -/
theorem sparse_and_faulty_documents :
    (Conforms sparseDocument ∧
      ofJson sparseDocument = .ok ⟨[⟨"run", "1", []⟩, ⟨"load", "2", [⟨"id", none⟩]⟩], []⟩) ∧
    ¬ Conforms faultyDocument ∧
    FaultIn Place faultyDocument ⟨[.key "variables", .index 0], .wrongType .object⟩ ∧
    ∃ error, ofJson faultyDocument = .error error ∧
      error.field = "actions[1].arguments[1].name" ∧ error.fault = .missing ∧
      ∀ other, FaultIn Place faultyDocument other → ¬ other.path.Before error.path := by
  have hread : readStructure sparseDocument =
      .ok ⟨[⟨"run", "1", []⟩, ⟨"load", "2", [⟨"id", none⟩]⟩], []⟩ := by decide
  have hconforms := (reading_follows_grammar sparseDocument).1.mp ⟨_, hread⟩
  have hfaulty : ¬ Conforms faultyDocument := by
    intro h
    obtain ⟨body, hbody⟩ := (reading_follows_grammar faultyDocument).1.mpr h
    have hrefused : readStructure faultyDocument = .error ⟨argumentPath 1 1, .missing⟩ := by decide
    rw [hrefused] at hbody
    cases hbody
  refine ⟨⟨hconforms, ?_⟩, hfaulty, ⟨_, .var 0 .itself, _, rfl, rfl⟩, ?_⟩
  · obtain ⟨body, hbody, -, hanswer⟩ := (reading_follows_grammar sparseDocument).2.1 hconforms
    rw [hanswer]
    obtain rfl := Except.ok.inj (hread.symm.trans hbody)
    decide
  · obtain ⟨error, herror, -, hfirst⟩ := (reading_follows_grammar faultyDocument).2.2 hfaulty
    have hmissing : ofJson faultyDocument = .error ⟨argumentPath 1 1, .missing⟩ := by decide
    obtain rfl := Except.error.inj (hmissing.symm.trans herror)
    exact ⟨_, hmissing, by decide, rfl, hfirst⟩

end Body

end ScriptStore
