import ScriptStore.Proofs.Pass.Tables
import ScriptStore.Proofs.Store.Passes

/-!
# Empty names in records

Bodies with an empty name are refused, but no pass looks at the name of the entity.  So a store
whose records have no empty names stays so after a pass exactly if the entity has a name
(`Store.noEmptyNames_of_reconcile_iff`).
-/

namespace ScriptStore

/-! ## Records -/

/-- No variable of the record and no argument of its functions has the empty name. -/
structure Record.NoEmptyDeclarations (record : Record) : Prop where
  vars : ∀ name ∈ record.vars, name ≠ ""
  arguments : ∀ function data, record.functions.get? function = some data →
    ∀ argument ∈ data.arguments, argument.name ≠ ""

/-- Neither the record nor anything that it declares has the empty name; the names of functions are
keys and are not looked at. -/
def Record.NoEmptyNames (record : Record) : Prop := record.name ≠ "" ∧ record.NoEmptyDeclarations

theorem Record.noEmptyDeclarations_new (name : String) : (new name).NoEmptyDeclarations where
  vars := List.forall_mem_nil _
  arguments := by rintro function data ⟨⟩

/-- What a pass declares are the names of a body, which are not empty, and what it keeps. -/
theorem EntityState.noEmptyDeclarations_withBody {state : EntityState} {body : Body}
    (hbody : body.WellNamed) (h : state.record.NoEmptyDeclarations) :
    (state.withBody body).record.NoEmptyDeclarations := by
  constructor
  case vars =>
    intro name hname
    exact (hbody.segment_variable ((mem_vars_withBody state body name).mp hname)).1
  case arguments =>
    intro function data hdata
    have hfunction : function ∈ body.functionNames :=
      (mem_functions_withBody state body function).mp (OrderedMap.mem_keys_of_get? hdata)
    by_cases hold : function ∈ state.record.functions.keys
    · rw [get?_functions_withBody_of_mem state body hfunction hold] at hdata
      exact h.arguments function data hdata
    · obtain ⟨decl, hdecl, rfl⟩ := List.mem_map.mp hfunction
      rw [get?_functions_withBody_of_notMem state hbody hdecl hold] at hdata
      obtain rfl := Option.some.inj hdata
      exact hbody.arguments decl hdecl

/-! ## Stores -/

namespace Store

variable {store next : Store} {entity : String} {body : Body} {diff : EntityDiff}

/-- No record of the store has empty names. -/
def NoEmptyNames (store : Store) : Prop :=
  ∀ entity record, store.record? entity = some record → record.NoEmptyNames

theorem NoEmptyNames.stateOf (h : store.NoEmptyNames) (entity : String) :
    (store.stateOf entity).record.NoEmptyDeclarations := by
  unfold Store.stateOf
  cases hrecord : store.record? entity with
  | none => exact Record.noEmptyDeclarations_new entity
  | some record => exact (h entity record hrecord).2

/-- Of a store without empty names, only the new record has to be looked at. -/
theorem put_noEmptyNames_iff (h : store.NoEmptyNames) (state : EntityState) :
    (store.put entity state).NoEmptyNames ↔ state.record.NoEmptyNames := by
  constructor
  · intro hput
    exact hput entity state.record (by rw [record?_put, if_pos rfl])
  · intro hstate other record hrecord
    rw [record?_put] at hrecord
    split at hrecord
    · exact Option.some.inj hrecord ▸ hstate
    · exact h other record hrecord

/-- **A pass brings in no empty names**, unless the entity itself has none. -/
theorem noEmptyNames_of_reconcile_iff (h : store.NoEmptyNames)
    (hpass : store.reconcile entity body = .ok (diff, next)) :
    next.NoEmptyNames ↔ entity ≠ "" := by
  obtain ⟨hfiled, hnames, -, -, rfl⟩ := reconcile_eq_ok hpass
  have hbody := (Body.nameError?_eq_none_iff body).mp hnames
  have hname : ((store.stateOf entity).withBody body).record.name = entity := name_stateOf hfiled
  have hdeclarations := EntityState.noEmptyDeclarations_withBody hbody (h.stateOf entity)
  rw [put_noEmptyNames_iff h, Record.NoEmptyNames, hname, and_iff_left hdeclarations]

/-- An entity of a store without empty names has a name if it can be cleared, and clearing it brings
in no empty names. -/
theorem noEmptyNames_of_clear (h : store.NoEmptyNames)
    (hclear : store.clear entity = .ok (some diff, next)) : next.NoEmptyNames := by
  refine (noEmptyNames_of_reconcile_iff h (reconcile_of_clear hclear)).mpr ?_
  rcases clear_eq_ok hclear with ⟨-, hanswer, -⟩ | ⟨record, hrecord, rfl, -, -⟩
  · cases hanswer
  · exact (h record.name record hrecord).1

end Store

end ScriptStore
