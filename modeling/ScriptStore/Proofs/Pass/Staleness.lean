import ScriptStore.Proofs.Consistency
import ScriptStore.Proofs.Pass.Changes

/-!
# Stale dependencies

The entity body may depend on names that are not declared.  A pass leaves such names behind on
purpose: a function that goes takes its dependency with it, a variable that goes does not.  So the
names that become stale in a pass are the registered ones that lose their variable and get nothing
in its place, and a name is stale no longer as soon as it is declared again, whatever it becomes.

The reports list every stale name once, and the checks do not look at stale names at all.
-/

namespace ScriptStore

/-! ## Stale names of a record -/

namespace Record

variable (record : Record)

/-- The stale names are registered and not declared. -/
theorem mem_staleDependencies (name : String) :
    name ∈ record.staleDependencies ↔
      name ∈ record.dependencies.body ∧ name ∉ record.functions.keys ∧ name ∉ record.vars := by
  rw [staleDependencies, List.mem_filter, Names.mem_distinct_iff, Bool.not_eq_true',
    ← Bool.not_eq_true, declares_iff, not_or, and_iff_left List.not_mem_nil]

/-- The stale names come in the order in which they are registered first. -/
theorem pairwise_staleDependencies :
    record.staleDependencies.Pairwise fun a b =>
      record.dependencies.body.idxOf a < record.dependencies.body.idxOf b :=
  (Names.pairwise_distinct [] record.dependencies.body).filter _

theorem nodup_staleDependencies : record.staleDependencies.Nodup := by
  refine record.pairwise_staleDependencies.imp fun {a b} hlt heq => ?_
  rw [heq] at hlt
  exact Nat.lt_irrefl _ hlt

end Record

namespace EntityState

variable (state : EntityState) (body : Body)

/-! ## Stale names and the checks -/

/-- The entity with other dependencies. -/
def withDependencies (dependencies : DependencyMap) : EntityState :=
  { state with record := { state.record with dependencies := dependencies } }

/-- Whether stale names are registered, and how often, does not show among the violations. -/
theorem violations_withDependencies {dependencies : DependencyMap}
    (h : ∀ name, name ∉ state.record.staleDependencies →
      dependencies.body.count name = state.record.dependencies.body.count name) :
    (state.withDependencies dependencies).violations = state.violations := by
  refine LooksLike.violations {
    vars := rfl
    functions := rfl
    reactivePaths := rfl
    bindingPaths := rfl
    dependencies := fun function hfunction => h function ?_
    members := rfl
    kinds := fun _ => rfl }
  rw [Record.mem_staleDependencies]
  exact fun hstale => hstale.2.1 hfunction

/-! ## Stale names after a pass -/

/-- After a pass the stale names are those that were registered and are neither functions before nor
declared by the body. -/
theorem mem_staleDependencies_withBody (name : String) :
    name ∈ (state.withBody body).record.staleDependencies ↔
      name ∈ state.record.dependencies.body ∧ name ∉ state.record.functions.keys ∧
        name ∉ body.functionNames ∧ name ∉ body.variableNames := by
  rw [Record.mem_staleDependencies, mem_dependencyBody_withBody, mem_functions_withBody,
    mem_vars_withBody, mem_addedFunctionNames, mem_missingFunctions]
  constructor
  -- names that a pass registers are functions of the body, so none of them is stale
  · rintro ⟨⟨hlisted, hmissing⟩, hfunction, hvariable⟩
    refine ⟨?_, fun hold => hmissing ⟨hold, hfunction⟩, hfunction, hvariable⟩
    rcases hlisted with hlisted | hadded
    · exact hlisted
    · exact absurd hadded.1 hfunction
  · rintro ⟨hlisted, hold, hfunction, hvariable⟩
    exact ⟨⟨Or.inl hlisted, fun hmissing => hold hmissing.1⟩, hfunction, hvariable⟩

/-- A name becomes stale exactly if it is registered, was a variable and no function, and the body
does not declare it. -/
theorem becomesStale_iff (name : String) :
    (name ∈ (state.withBody body).record.staleDependencies ∧
        name ∉ state.record.staleDependencies) ↔
      name ∈ state.record.dependencies.body ∧ name ∈ state.record.vars ∧
        name ∉ state.record.functions.keys ∧
        name ∉ body.functionNames ∧ name ∉ body.variableNames := by
  rw [mem_staleDependencies_withBody, Record.mem_staleDependencies]
  constructor
  · rintro ⟨⟨hlisted, hfunction, hbody⟩, hfresh⟩
    have hvariable : name ∈ state.record.vars :=
      Classical.byContradiction fun hnone => hfresh ⟨hlisted, hfunction, hnone⟩
    exact ⟨hlisted, hvariable, hfunction, hbody⟩
  · rintro ⟨hlisted, hvariable, hfunction, hbody⟩
    exact ⟨⟨hlisted, hfunction, hbody⟩, fun hold => hold.2.2 hvariable⟩

/-- A stale name stays stale exactly if the body does not declare it. -/
theorem staysStale_iff {name : String} (h : name ∈ state.record.staleDependencies) :
    name ∈ (state.withBody body).record.staleDependencies ↔
      name ∉ body.functionNames ∧ name ∉ body.variableNames := by
  obtain ⟨hlisted, hfunction, -⟩ := (Record.mem_staleDependencies _ _).mp h
  rw [mem_staleDependencies_withBody, and_iff_right hlisted, and_iff_right hfunction]

/-! ## The main theorem -/

/-- **Stale dependencies.**  In a pass of an accepted body a name becomes stale exactly if it is
registered for the entity body, was a variable and no function, and is not declared any more.  A
stale name stays so exactly if the body does not declare it, and removed functions are not
registered any more.  Reports list stale names once each, in the order of registration, and the
violations are the same however often stale names are registered. -/
theorem staleness_after_pass :
    (∀ (state : EntityState) (body : Body), body.validate = .ok () →
      ∃ outcome, state.synchronize body = .ok outcome ∧
        (∀ name,
          (name ∈ outcome.state.inspect.staleDependencies ∧
              name ∉ state.inspect.staleDependencies) ↔
            name ∈ state.record.dependencies.body ∧ name ∈ state.record.vars ∧
              name ∉ state.record.functions.keys ∧
              name ∉ body.functionNames ∧ name ∉ body.variableNames) ∧
        (∀ name ∈ state.inspect.staleDependencies,
          name ∈ outcome.state.inspect.staleDependencies ↔
            name ∉ body.functionNames ∧ name ∉ body.variableNames) ∧
        ∀ change ∈ outcome.diff.functions, change.kind = .removed →
          change.name ∉ outcome.state.record.dependencies.body) ∧
    ∀ state : EntityState,
      state.inspect.staleDependencies.Nodup ∧
      (state.inspect.staleDependencies.Pairwise fun a b =>
        state.record.dependencies.body.idxOf a < state.record.dependencies.body.idxOf b) ∧
      ∀ dependencies : DependencyMap,
        (∀ name, name ∉ state.inspect.staleDependencies →
          dependencies.body.count name = state.record.dependencies.body.count name) →
        (state.withDependencies dependencies).inspect.violations = state.inspect.violations := by
  refine ⟨fun state body hvalid => ?_, fun state => ?_⟩
  · have herror : body.nameError? = none :=
      (Body.nameError?_eq_none_iff body).mpr ((Body.validate_eq_ok_iff body).mp hvalid)
    refine ⟨_, synchronize_of_nameError? state herror, becomesStale_iff state body,
      fun name hname => staysStale_iff state body hname, fun change hchange hkind => ?_⟩
    have hmissing := mem_missingFunctions_of_removed state body hchange hkind
    rw [mem_dependencyBody_withBody]
    exact fun hlisted => hlisted.2 hmissing
  · exact ⟨state.record.nodup_staleDependencies, state.record.pairwise_staleDependencies,
      fun dependencies h => violations_withDependencies state h⟩

/-- An entity whose body depends twice on a variable, on names that are not declared and on a name
that is function and variable. -/
def retiringState : EntityState :=
  ⟨{ Record.new "Page" with
      vars := ["x", "y", "both"]
      functions := OrderedMap.ofList [("load", .declared []), ("both", .declared [])]
      dependencies := DependencyMap.initial.insert DependencyMap.bodyKey
        ["old", "y", "load", "both", "back", "y"] }, ∅⟩

/-- A body that keeps one variable and declares a stale name as a function. -/
def revivingBody : Body := ⟨[⟨"back", "() => 1", []⟩], [⟨"x", .null⟩]⟩

/-- Of the names that the entity body depends on, the variable becomes stale, one stale name stays
and the other one is declared again. -/
theorem retiringState_staleness :
    revivingBody.validate = .ok () ∧
      retiringState.inspect.staleDependencies = ["old", "back"] ∧ ∃ outcome,
        retiringState.synchronize revivingBody = .ok outcome ∧
          ("y" ∈ outcome.state.inspect.staleDependencies ∧
            "y" ∉ retiringState.inspect.staleDependencies) ∧
          "old" ∈ outcome.state.inspect.staleDependencies ∧
          "back" ∉ outcome.state.inspect.staleDependencies ∧
          "both" ∉ outcome.state.inspect.staleDependencies ∧
          outcome.state.inspect.staleDependencies.Nodup := by
  have hvalid : revivingBody.validate = .ok () := by decide
  obtain ⟨hpass, hreport⟩ := staleness_after_pass
  obtain ⟨outcome, houtcome, hfresh, hold, -⟩ := hpass retiringState revivingBody hvalid
  have hback := hold "back" (by decide)
  have hboth := hfresh "both"
  refine ⟨hvalid, by decide, outcome, houtcome, (hfresh "y").mpr (by decide),
    (hold "old" (by decide)).mpr (by decide), fun hmem => ?_, fun hmem => ?_,
    (hreport outcome.state).1⟩
  · exact absurd (hback.mp hmem) (by decide)
  -- it was a function as well, so it went from the dependencies
  · exact absurd (hboth.mp ⟨hmem, by decide⟩) (by decide)

end EntityState

end ScriptStore
