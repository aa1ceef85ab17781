import Ulpf.Deployment.Stacks
import Ulpf.SelfHealing.FailClosed

/-!
Repairs between the deployments and rollbacks of operators: a repair that promotes pushes its
candidate on the stack of its source, so that every spec that is active or can be rolled back to
has passed the gates or the validation of its deployment.
-/

namespace Ulpf.SelfHealing

open Ulpf.Lib
open Ulpf.Python
open Ulpf.Deployment
open Ulpf.Deployment.SpecDeploymentEngine (Represents represents_init)

/-- A repair, or a call of the engine itself. -/
inductive Operation where
  | repair (env : Environment) (call : RepairCall)
  | deployment (call : Call)

/-- What an operation returns or raises. -/
inductive Answer where
  | repaired (result : Except PyError SelfHealingReport)
  | replied (reply : Except PyError Reply)

section Operations

variable (policy : PromotionPolicy)

/-- An operation on the deployer of a workflow. -/
def perform (engine : SpecDeploymentEngine) : Operation → Answer × SpecDeploymentEngine
  | .repair env call =>
      let (result, engine') := handleRepair env policy engine call
      (.repaired result, engine')
  | .deployment call =>
      let (reply, engine') := engine.perform call
      (.replied reply, engine')

/-- What a repair returns or raises. -/
def verdict (env : Environment) (call : RepairCall) : Except PyError SelfHealingReport :=
  (handleRepair env policy .init call).1

/-- The spec a repair deploys. -/
def promotion (env : Environment) (call : RepairCall) : Option CompiledParserSpec :=
  match assess env call with
  | .error _ => none
  | .ok found =>
      if (policyDecision policy call found).1 = .promoted then
        (compileCandidate env call found.candId found.candVer).toOption
      else none

/-- An operation on the stacks of the sources. -/
def Operation.onStacks (family : Stacks String CompiledParserSpec) :
    Operation → Answer × Stacks String CompiledParserSpec
  | .repair env call =>
      (.repaired (verdict policy env call),
        (promotion policy env call).elim family fun compiled =>
          family.push compiled.sourceId compiled)
  | .deployment call =>
      let (reply, family') := call.onStacks family
      (.replied reply, family')

/-- Why an operation deploys a spec: the gates pass and the mode is automatic, or the operator
says that the validation has passed. -/
inductive Deploys (spec : CompiledParserSpec) : Operation → Prop where
  | promoted {env : Environment} {call : RepairCall} (promotes : Promotes env policy call)
      (sourceId : spec.sourceId = call.sourceId)
      (compiledCode : spec.compiledCode = dumps call.candidateSpec)
      (specHash : spec.specHash = specHash env call.candidateSpec) :
      Deploys spec (.repair env call)
  | validated : Deploys spec (.deployment (.deploySpec spec true))

end Operations

section Repairs

variable {policy : PromotionPolicy} {env : Environment} {call : RepairCall}
  {engine : SpecDeploymentEngine} {family : Stacks String CompiledParserSpec}

theorem handleRepair_eq (policy : PromotionPolicy) (env : Environment) (call : RepairCall)
    (engine : SpecDeploymentEngine) :
    handleRepair env policy engine call =
      (verdict policy env call, (promotion policy env call).elim engine fun compiled =>
        (engine.perform (.deploySpec compiled true)).2) := by
  rw [verdict, promotion, handleRepair, handleRepair]
  cases assess env call with
  | error e => rfl
  | ok found =>
      dsimp only
      split
      · cases compileCandidate env call found.candId found.candVer with
        | error e => rfl
        | ok compiled => rfl
      · rfl

theorem promotion_isSome_iff : (promotion policy env call).isSome = true ↔
    ∃ report, verdict policy env call = .ok report ∧ report.decision = .promoted := by
  rw [verdict, promotion, handleRepair]
  cases assess env call with
  | error e => simp
  | ok found =>
      dsimp only
      split
      · rename_i hpromoted
        cases compileCandidate env call found.candId found.candVer with
        | error e => simp [Except.bind, Except.toOption]
        | ok compiled =>
            have hdecision : (buildReport env policy call found).decision = .promoted := hpromoted
            simpa [Except.bind, Except.toOption, SpecDeploymentEngine.deploySpec] using hdecision
      · rename_i hnot
        have hdecision : (buildReport env policy call found).decision ≠ .promoted := hnot
        simpa using hdecision

theorem compiled_of_promotion {compiled : CompiledParserSpec}
    (h : promotion policy env call = some compiled) :
    ∃ candId candVer, compileCandidate env call candId candVer = .ok compiled := by
  rw [promotion] at h
  split at h
  · cases h
  · rename_i found hassess
    split at h
    · exact ⟨found.candId, found.candVer, toOption_eq_some_iff.mp h⟩
    · cases h

theorem deploys_of_promotion {compiled : CompiledParserSpec}
    (h : promotion policy env call = some compiled) :
    Deploys policy compiled (.repair env call) := by
  obtain ⟨candId, candVer, hcompile⟩ := compiled_of_promotion h
  obtain ⟨hsource, hcode, hhash, -⟩ := compileCandidate_spec hcompile
  obtain ⟨report, hverdict, hpromoted⟩ := promotion_isSome_iff.mp (Option.isSome_of_eq_some h)
  have hrepair := handleRepair_eq policy env call .init
  rw [hverdict] at hrepair
  exact .promoted ((decision_of_handleRepair hrepair).mp hpromoted) hsource hcode hhash

end Repairs

section Runs

variable {policy : PromotionPolicy} {engine : SpecDeploymentEngine}
  {family : Stacks String CompiledParserSpec}

variable (policy) in
theorem perform_simulates (h : Represents engine family) (operation : Operation) :
    (perform policy engine operation).1 = (operation.onStacks policy family).1 ∧
      Represents (perform policy engine operation).2 (operation.onStacks policy family).2 := by
  cases operation with
  | repair env call =>
      rw [perform, handleRepair_eq, Operation.onStacks]
      refine ⟨rfl, ?_⟩
      cases promotion policy env call with
      | none => exact h
      | some compiled =>
          exact (SpecDeploymentEngine.perform_simulates h (.deploySpec compiled true)).2
  | deployment call =>
      obtain ⟨hreply, hrel⟩ := SpecDeploymentEngine.perform_simulates h call
      exact ⟨congrArg Answer.replied hreply, hrel⟩

theorem mem_onStacks {operation : Operation} {source : String} {spec : CompiledParserSpec}
    (h : spec ∈ (operation.onStacks policy family).2 source) :
    spec ∈ family source ∨ (spec.sourceId = source ∧ Deploys policy spec operation) := by
  have hpush {compiled : CompiledParserSpec} (hdeploys : Deploys policy compiled operation)
      (hmem : spec ∈ family.push compiled.sourceId compiled source) :
      spec ∈ family source ∨ (spec.sourceId = source ∧ Deploys policy spec operation) := by
    by_cases hsource : source = compiled.sourceId
    · subst hsource
      rw [Stacks.push_self] at hmem
      obtain rfl | hold := List.mem_cons.mp hmem
      · exact .inr ⟨rfl, hdeploys⟩
      · exact .inl hold
    · rw [Stacks.push_of_ne _ _ hsource] at hmem
      exact .inl hmem
  cases operation with
  | repair env call =>
      rw [Operation.onStacks] at h
      cases hpromotion : promotion policy env call with
      | none =>
          rw [hpromotion] at h
          exact .inl h
      | some compiled =>
          rw [hpromotion] at h
          exact hpush (deploys_of_promotion hpromotion) h
  | deployment call =>
      cases call with
      | deploySpec compiled validationPassed =>
          cases validationPassed with
          | false => exact .inl h
          | true => exact hpush .validated h
      | rollback sourceId =>
          rw [Operation.onStacks, Call.onStacks] at h
          cases hpop : family.pop sourceId with
          | none =>
              rw [hpop] at h
              exact .inl h
          | some popped =>
              rw [hpop] at h
              exact .inl (Stacks.mem_of_pop hpop h)

theorem mem_runStacks {operations : List Operation} {source : String} {spec : CompiledParserSpec}
    (h : spec ∈ (runInputs (Operation.onStacks policy) family operations).2 source) :
    spec ∈ family source ∨ (spec.sourceId = source ∧
      ∃ operation ∈ operations, Deploys policy spec operation) := by
  induction operations generalizing family with
  | nil => exact .inl h
  | cons operation operations ih =>
      rw [runInputs_cons] at h
      obtain hnext | ⟨hsource, later, hmem, hdeploys⟩ := ih h
      · obtain hold | ⟨hsource, hdeploys⟩ := mem_onStacks hnext
        · exact .inl hold
        · exact .inr ⟨hsource, operation, List.mem_cons_self, hdeploys⟩
      · exact .inr ⟨hsource, later, List.mem_cons_of_mem _ hmem, hdeploys⟩

/-- Promotions of a source. -/
def Promotions (policy : PromotionPolicy) (source : String) (repairs : List RepairInput) : Prop :=
  ∀ repair ∈ repairs, repair.2.sourceId = source ∧
    ∃ report, verdict policy repair.1 repair.2 = .ok report ∧ report.decision = .promoted

/-- Repairs, and as many rollbacks of their source. -/
def takenBack (source : String) (repairs : List RepairInput) : List Operation :=
  repairs.map (fun repair => .repair repair.1 repair.2) ++
    List.replicate repairs.length (.deployment (.rollback source))

theorem takenBack_cons (source : String) (repair : RepairInput) (repairs : List RepairInput) :
    takenBack source (repair :: repairs) =
      .repair repair.1 repair.2 ::
        (takenBack source repairs ++ [.deployment (.rollback source)]) := by
  rw [takenBack, takenBack, List.length_cons, List.replicate_succ', List.map_cons,
    List.cons_append, List.append_assoc]

theorem runStacks_takenBack {source : String} {repairs : List RepairInput}
    (hpromotions : Promotions policy source repairs) (hactive : family source ≠ []) :
    (runInputs (Operation.onStacks policy) family (takenBack source repairs)).2 = family := by
  induction repairs generalizing family with
  | nil => rfl
  | cons repair repairs ih =>
      obtain ⟨⟨hsource, hreport⟩, hrest⟩ := List.forall_mem_cons.mp hpromotions
      obtain ⟨compiled, hcompiled⟩ := Option.isSome_iff_exists.mp (promotion_isSome_iff.mpr hreport)
      obtain ⟨candId, candVer, hcompile⟩ := compiled_of_promotion hcompiled
      have hcompiledSource := (compileCandidate_spec hcompile).1.trans hsource
      obtain ⟨top, htop⟩ : ∃ top, (family source).head? = some top :=
        Option.isSome_iff_exists.mp (List.isSome_head?.mpr hactive)
      have hpromoted : (Operation.onStacks policy family (.repair repair.1 repair.2)).2 =
          family.push source compiled := by
        rw [Operation.onStacks, hcompiled, Option.elim_some, hcompiledSource]
      have hpop := family.pop_push compiled htop
      rw [takenBack_cons, runInputs_cons, hpromoted, runInputs_append,
        ih hrest (by rw [Stacks.push_self]; exact List.cons_ne_nil _ _)]
      simp [Operation.onStacks, Call.onStacks, hpop]

end Runs

open SpecDeploymentEngine (init) in
/-- After any repairs, deployments and rollbacks the deployer holds one stack of specs per source,
and every operation has answered what it does on the stacks. Every spec on a stack is of its
source and was deployed by an operation that had a reason to. Any number of promotions of a
source that has a spec is undone by as many rollbacks. -/
theorem repairs_and_rollbacks (policy : PromotionPolicy) (operations : List Operation) :
    let run := runInputs (perform policy) init operations
    let family := runInputs (Operation.onStacks policy) Stacks.empty operations
    run.1 = family.1 ∧ Represents run.2 family.2 ∧
    (∀ source, ∀ spec ∈ family.2 source, spec.sourceId = source ∧
      ∃ operation ∈ operations, Deploys policy spec operation) ∧
    ∀ source repairs, family.2 source ≠ [] → Promotions policy source repairs →
      Represents (runInputs (perform policy) run.2 (takenBack source repairs)).2 family.2 := by
  intro run family
  obtain ⟨hanswers, hrel⟩ := runInputs_simulates Represents
    (fun _ _ operation h => perform_simulates policy h operation) represents_init operations
  refine ⟨hanswers, hrel, fun source spec hspec => ?_, fun source repairs hactive hpromotions => ?_⟩
  · obtain hempty | hdeployed := mem_runStacks hspec
    · cases hempty
    · exact hdeployed
  · have hafter := (runInputs_simulates Represents
      (fun _ _ operation h => perform_simulates policy h operation) hrel
      (takenBack source repairs)).2
    rwa [runStacks_takenBack hpromotions hactive] at hafter

end Ulpf.SelfHealing
