import Mathlib.Data.List.Forall2
import ScriptStore.Proofs.Document.Bodies

/-!
# The grammar of parsed bodies

What a document must look like for the parser's reader, said of its fields and items only
(`Body.Conforms`), and which body such a document declares (`Body.DeclaredBy`).  Null stands for
what is absent wherever something may be absent: for a list of members or arguments, for the default
value of an argument and for the value of a variable.

The reader, before it looks at names, succeeds for exactly the documents of the grammar and gives
the body that they declare (`Body.readStructure_eq_ok_iff_declaredBy`).
-/

namespace ScriptStore

/-! ## Forms -/

namespace Json

/-- The document has a text in a field. -/
def HasText (key : String) (document : Json) : Prop :=
  ∃ text, document.field? key = some (.str text)

/-- The document has a list in a field, or the field is absent or null. -/
def HasList (key : String) (document : Json) : Prop :=
  document.field? key = none ∨ document.field? key = some .null ∨
    ∃ items, document.field? key = some (.arr items)

/-- The form of arguments and variables: an object with a name. -/
structure IsNamed (document : Json) : Prop where
  object : document.isObject = true
  name : document.HasText "name"

end Json

/-- The form of functions. -/
structure FunctionDecl.Conforms (document : Json) : Prop where
  object : document.isObject = true
  name : document.HasText "name"
  source : document.HasText "body"
  arguments : document.HasList "arguments"
  eachArgument : ∀ argument ∈ document.itemsOf "arguments", argument.IsNamed

/-- The form of bodies. -/
structure Body.Conforms (document : Json) : Prop where
  object : document.isObject = true
  functions : document.HasList "actions"
  vars : document.HasList "variables"
  eachFunction : ∀ action ∈ document.itemsOf "actions", FunctionDecl.Conforms action
  eachVariable : ∀ decl ∈ document.itemsOf "variables", decl.IsNamed

/-! ## Declarations -/

/-- The argument has the name in the document, and the default value unless it is null. -/
structure Argument.DeclaredBy (document : Json) (argument : Argument) : Prop where
  name : document.field? "name" = some (.str argument.name)
  value : ∀ default, argument.value = some default ↔
    document.field? "value" = some default ∧ default ≠ .null

/-- The variable has the name in the document, and the value or null. -/
structure VariableDecl.DeclaredBy (document : Json) (decl : VariableDecl) : Prop where
  name : document.field? "name" = some (.str decl.name)
  value : document.field? "value" = some decl.value ∨
    document.field? "value" = none ∧ decl.value = .null

/-- The function has the name, the source text and, in order, the arguments in the document. -/
structure FunctionDecl.DeclaredBy (document : Json) (decl : FunctionDecl) : Prop where
  name : document.field? "name" = some (.str decl.name)
  source : document.field? "body" = some (.str decl.source)
  arguments : List.Forall₂ Argument.DeclaredBy (document.itemsOf "arguments") decl.arguments

/-- The body has the functions and variables in the document, in order. -/
structure Body.DeclaredBy (document : Json) (body : Body) : Prop where
  functions : List.Forall₂ FunctionDecl.DeclaredBy (document.itemsOf "actions") body.functions
  vars : List.Forall₂ VariableDecl.DeclaredBy (document.itemsOf "variables") body.vars

/-! ## Items -/

/-- A null is dropped from an optional value, and nothing else. -/
theorem Json.filter_notNull_eq_some_iff {value? : Option Json} {value : Json} :
    value?.filter (!·.isNull) = some value ↔ value? = some value ∧ value ≠ .null := by
  rw [Option.filter_eq_some_iff]
  cases value <;> simp [isNull]

namespace Body

variable {path : FieldPath} {document : Json}

/-! ## Reading of fields -/

/-- An object is read as such. -/
theorem readObject_eq_ok_iff {result : Unit} :
    readObject path document = .ok result ↔ document.isObject = true := by
  cases document <;> simp [readObject, Json.isObject]

/-- A text is read if the field is there and is a text. -/
theorem readText_eq_ok_iff_field? {key text : String} :
    readText path key document = .ok text ↔ document.field? key = some (.str text) := by
  unfold readText
  cases document.field? key with
  | none => simp
  | some found => cases found <;> simp

/-- Items are read if there is a list or none is given. -/
theorem readItems_eq_ok_iff {key : String} {items : List Json} :
    readItems path key document = .ok items ↔
      document.HasList key ∧ document.itemsOf key = items := by
  unfold readItems Json.HasList Json.itemsOf
  cases document.field? key with
  | none => simp
  | some found => cases found <;> simp

section Lists

variable {α : Type} {read : FieldPath → Json → Except BodyError α} {admits : Json → α → Prop}

/-- Items are read one by one, in their order. -/
theorem readEach_eq_ok_iff_forall₂
    (h : ∀ path item result, read path item = .ok result ↔ admits item result)
    {position : Nat} {items : List Json} {results : List α} :
    readEach read path position items = .ok results ↔ List.Forall₂ admits items results := by
  induction items generalizing position results with
  | nil =>
    show Except.ok [] = Except.ok results ↔ _
    rw [List.forall₂_nil_left_iff, Except.ok.injEq, eq_comm]
  | cons item rest ih =>
    show (read (path ++ [.index position]) item >>= fun first =>
      readEach read path (position + 1) rest >>= fun others => .ok (first :: others)) =
        .ok results ↔ _
    simp only [bind_eq_ok_iff, h, ih, List.forall₂_cons_left_iff, Except.ok.injEq]
    constructor
    · rintro ⟨first, hfirst, others, hrest, rfl⟩
      exact ⟨first, others, hfirst, hrest, rfl⟩
    · rintro ⟨first, others, hfirst, hrest, rfl⟩
      exact ⟨first, hfirst, others, hrest, rfl⟩

/-- An optional list is read exactly if it is one and each of its items is read. -/
theorem readList_eq_ok_iff_forall₂
    (h : ∀ path item result, read path item = .ok result ↔ admits item result)
    {key : String} {results : List α} :
    readList read path key document = .ok results ↔
      document.HasList key ∧ List.Forall₂ admits (document.itemsOf key) results := by
  unfold readList
  simp only [bind_eq_ok_iff, readItems_eq_ok_iff, readEach_eq_ok_iff_forall₂ h]
  constructor
  · rintro ⟨_, ⟨hlist, rfl⟩, hitems⟩
    exact ⟨hlist, hitems⟩
  · rintro ⟨hlist, hitems⟩
    exact ⟨_, ⟨hlist, rfl⟩, hitems⟩

end Lists

/-! ## Reading of declarations -/

/-- An argument is read as its declaration says. -/
theorem readArgument_eq_ok_iff_declaredBy {argument : Argument} :
    readArgument path document = .ok argument ↔
      document.IsNamed ∧ Argument.DeclaredBy document argument := by
  have hread : readArgument path document = (readObject path document >>= fun _ =>
      readText path "name" document >>= fun name =>
        .ok ⟨name, (document.field? "value").filter (!·.isNull)⟩) := rfl
  simp only [hread, bind_eq_ok_iff, readObject_eq_ok_iff, readText_eq_ok_iff_field?,
    Except.ok.injEq]
  constructor
  · rintro ⟨-, hobject, name, hname, rfl⟩
    exact ⟨⟨hobject, name, hname⟩, hname, fun _ => Json.filter_notNull_eq_some_iff⟩
  · rintro ⟨⟨hobject, -⟩, hname, hvalue⟩
    refine ⟨(), hobject, argument.name, hname, ?_⟩
    have hdefault : (document.field? "value").filter (!·.isNull) = argument.value := by
      refine Option.ext fun default => ?_
      rw [Json.filter_notNull_eq_some_iff, hvalue]
    rw [hdefault]

/-- A variable is read as its declaration says. -/
theorem readVariable_eq_ok_iff_declaredBy {decl : VariableDecl} :
    readVariable path document = .ok decl ↔
      document.IsNamed ∧ VariableDecl.DeclaredBy document decl := by
  have hread : readVariable path document = (readObject path document >>= fun _ =>
      readText path "name" document >>= fun name =>
        .ok ⟨name, (document.field? "value").getD .null⟩) := rfl
  simp only [hread, bind_eq_ok_iff, readObject_eq_ok_iff, readText_eq_ok_iff_field?,
    Except.ok.injEq]
  constructor
  · rintro ⟨-, hobject, name, hname, rfl⟩
    refine ⟨⟨hobject, name, hname⟩, hname, ?_⟩
    cases document.field? "value" <;> simp
  · rintro ⟨⟨hobject, -⟩, hname, hvalue⟩
    refine ⟨(), hobject, decl.name, hname, ?_⟩
    have hgiven : (document.field? "value").getD .null = decl.value := by
      rcases hvalue with hvalue | ⟨hvalue, hnull⟩
      · rw [hvalue]
        rfl
      · rw [hvalue, hnull]
        rfl
    rw [hgiven]

/-- A function is read as its declaration says. -/
theorem readFunction_eq_ok_iff_declaredBy {decl : FunctionDecl} :
    readFunction path document = .ok decl ↔
      FunctionDecl.Conforms document ∧ FunctionDecl.DeclaredBy document decl := by
  have hread : readFunction path document = (readObject path document >>= fun _ =>
      readText path "name" document >>= fun name =>
      readText path "body" document >>= fun source =>
      readList readArgument path "arguments" document >>= fun arguments =>
        .ok ⟨name, source, arguments⟩) := rfl
  have hargument : ∀ path item result, readArgument path item = .ok result ↔
      item.IsNamed ∧ Argument.DeclaredBy item result :=
    fun _ _ _ => readArgument_eq_ok_iff_declaredBy
  simp only [hread, bind_eq_ok_iff, readObject_eq_ok_iff, readText_eq_ok_iff_field?,
    readList_eq_ok_iff_forall₂ hargument, List.forall₂_and_left, Except.ok.injEq]
  constructor
  · rintro ⟨-, hobject, name, hname, source, hsource, arguments, ⟨hlist, hforms, hitems⟩, rfl⟩
    exact ⟨⟨hobject, ⟨name, hname⟩, ⟨source, hsource⟩, hlist, hforms⟩, hname, hsource, hitems⟩
  · rintro ⟨⟨hobject, -, -, hlist, hforms⟩, hname, hsource, hitems⟩
    exact ⟨(), hobject, decl.name, hname, decl.source, hsource, decl.arguments,
      ⟨hlist, hforms, hitems⟩, rfl⟩

/-- **The grammar**: a body is read, before its names are looked at, exactly from the documents of
the grammar, and it is the body that they declare. -/
theorem readStructure_eq_ok_iff_declaredBy {body : Body} :
    readStructure document = .ok body ↔ Conforms document ∧ DeclaredBy document body := by
  have hread : readStructure document = (readObject [] document >>= fun _ =>
      readList readFunction [] "actions" document >>= fun functions =>
      readList readVariable [] "variables" document >>= fun vars =>
        .ok ⟨functions, vars⟩) := rfl
  have hfunction : ∀ path item result, readFunction path item = .ok result ↔
      FunctionDecl.Conforms item ∧ FunctionDecl.DeclaredBy item result :=
    fun _ _ _ => readFunction_eq_ok_iff_declaredBy
  have hvariable : ∀ path item result, readVariable path item = .ok result ↔
      item.IsNamed ∧ VariableDecl.DeclaredBy item result :=
    fun _ _ _ => readVariable_eq_ok_iff_declaredBy
  simp only [hread, bind_eq_ok_iff, readObject_eq_ok_iff, readList_eq_ok_iff_forall₂ hfunction,
    readList_eq_ok_iff_forall₂ hvariable, List.forall₂_and_left, Except.ok.injEq]
  constructor
  · rintro ⟨-, hobject, functions, ⟨hlist, hforms, hitems⟩, vars, ⟨hvars, hnamed, hdecls⟩, rfl⟩
    exact ⟨⟨hobject, hlist, hvars, hforms, hnamed⟩, hitems, hdecls⟩
  · rintro ⟨⟨hobject, hlist, hvars, hforms, hnamed⟩, hitems, hdecls⟩
    exact ⟨(), hobject, body.functions, ⟨hlist, hforms, hitems⟩, body.vars,
      ⟨hvars, hnamed, hdecls⟩, rfl⟩

/-! ## Declared bodies -/

/-- Every document of the grammar declares a body. -/
theorem Conforms.exists_declaredBy (h : Conforms document) : ∃ body, DeclaredBy document body := by
  have hargument : ∀ {item : Json}, item.IsNamed →
      ∃ argument, Argument.DeclaredBy item argument := by
    rintro item ⟨-, name, hname⟩
    exact ⟨⟨name, (item.field? "value").filter (!·.isNull)⟩, hname,
      fun _ => Json.filter_notNull_eq_some_iff⟩
  have hvariable : ∀ {item : Json}, item.IsNamed → ∃ decl, VariableDecl.DeclaredBy item decl := by
    rintro item ⟨-, name, hname⟩
    refine ⟨⟨name, (item.field? "value").getD .null⟩, hname, ?_⟩
    cases item.field? "value" <;> simp
  have hfunction : ∀ {item : Json}, FunctionDecl.Conforms item →
      ∃ decl, FunctionDecl.DeclaredBy item decl := by
    rintro item ⟨-, ⟨name, hname⟩, ⟨source, hsource⟩, -, harguments⟩
    obtain ⟨arguments, hitems⟩ :=
      (exists_forall₂_iff _).mpr fun argument hmem => hargument (harguments argument hmem)
    exact ⟨⟨name, source, arguments⟩, hname, hsource, hitems⟩
  obtain ⟨functions, hfunctions⟩ :=
    (exists_forall₂_iff _).mpr fun action hmem => hfunction (h.eachFunction action hmem)
  obtain ⟨vars, hvars⟩ :=
    (exists_forall₂_iff _).mpr fun decl hmem => hvariable (h.eachVariable decl hmem)
  exact ⟨⟨functions, vars⟩, hfunctions, hvars⟩

/-- The reader gets past the fields of exactly the documents of the grammar. -/
theorem exists_readStructure_eq_ok_iff :
    (∃ body, readStructure document = .ok body) ↔ Conforms document := by
  constructor
  · rintro ⟨body, hbody⟩
    exact (readStructure_eq_ok_iff_declaredBy.mp hbody).1
  · intro h
    obtain ⟨body, hbody⟩ := h.exists_declaredBy
    exact ⟨body, readStructure_eq_ok_iff_declaredBy.mpr ⟨h, hbody⟩⟩

end Body

end ScriptStore
