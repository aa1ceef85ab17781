import Ulpf.Deployment.Deployer
import Ulpf.Lib.Run
import Ulpf.Lib.Stacks

/-!
Runs of deployments and rollbacks: the registry and the histories of an engine
are the stacks of the specs its sources have had.
-/

namespace Ulpf.Deployment

open Ulpf.Lib
open Ulpf.Python

/-- The two calls that write. -/
inductive Call where
  | deploySpec (spec : CompiledParserSpec) (validationPassed : Bool)
  | rollback (sourceId : String)

/-- The source a call is about. -/
def Call.sourceId : Call → String
  | .deploySpec spec _ => spec.sourceId
  | .rollback sourceId => sourceId

/-- The dictionary a call returns. -/
structure Reply where
  status : String
  sourceId : String
  activeSpecId : String
  specHash : String
  version : Option ℤ
  deriving DecidableEq

def Reply.deployed (spec : CompiledParserSpec) : Reply :=
  ⟨"DEPLOYED", spec.sourceId, spec.specId, spec.specHash, some spec.version⟩

def Reply.rolledBack (sourceId : String) (previous : CompiledParserSpec) : Reply :=
  ⟨"ROLLED_BACK", sourceId, previous.specId, previous.specHash, none⟩

/-- What a call makes of the registry and the history. -/
def Call.apply (engine : SpecDeploymentEngine) : Call → Except PyError SpecDeploymentEngine
  | .deploySpec spec validationPassed => engine.deploySpec spec validationPassed
  | .rollback sourceId => engine.rollback sourceId

/-- What a call returns or raises. -/
def Call.reply (engine : SpecDeploymentEngine) : Call → Except PyError Reply
  | .deploySpec spec validationPassed =>
      if validationPassed then .ok (.deployed spec) else .error .valueError
  | .rollback sourceId =>
      match (engine.history sourceId).getLast? with
      | none => .error .keyError
      | some previous => .ok (.rolledBack sourceId previous)

/-- What a call on the stacks of the sources returns or raises, and the stacks after it. -/
def Call.onStacks (family : Stacks String CompiledParserSpec) :
    Call → Except PyError Reply × Stacks String CompiledParserSpec
  | .deploySpec spec true => (.ok (.deployed spec), family.push spec.sourceId spec)
  | .deploySpec _ false => (.error .valueError, family)
  | .rollback sourceId =>
      match family.pop sourceId with
      | none => (.error .keyError, family)
      | some (previous, popped) => (.ok (.rolledBack sourceId previous), popped)

namespace SpecDeploymentEngine

/-- A call and the engine after it: both methods raise before they write. -/
def perform (engine : SpecDeploymentEngine) (call : Call) :
    Except PyError Reply × SpecDeploymentEngine :=
  (call.reply engine, (call.apply engine).toOption.getD engine)

/-- The stack of a source has the active spec on top of the revisions it replaced. -/
def Represents (engine : SpecDeploymentEngine) (family : Stacks String CompiledParserSpec) :
    Prop :=
  ∀ source, engine.getActiveSpec source = (family source).head? ∧
    engine.history source = (family source).tail.reverse

/-- Two engines hold the same for a source. -/
def AgreeAt (source : String) (engine engine' : SpecDeploymentEngine) : Prop :=
  engine'.activeRegistry.get? source = engine.activeRegistry.get? source ∧
    engine'.revisionHistory.get? source = engine.revisionHistory.get? source

variable {engine engine' : SpecDeploymentEngine}
  {family : Stacks String CompiledParserSpec} {source : String}

namespace AgreeAt

theorem getActiveSpec (h : AgreeAt source engine engine') :
    engine'.getActiveSpec source = engine.getActiveSpec source := h.1

theorem history (h : AgreeAt source engine engine') :
    engine'.history source = engine.history source := by
  rw [SpecDeploymentEngine.history, SpecDeploymentEngine.history, h.2]

end AgreeAt

theorem rollback_spec {sourceId : String} (h : engine.rollback sourceId = .ok engine') :
    ∃ previous, (engine.history sourceId).getLast? = some previous ∧
      engine'.getActiveSpec sourceId = some previous ∧
      engine'.revisionHistory.get? sourceId = some (engine.history sourceId).dropLast ∧
      ∀ source, source ≠ sourceId → AgreeAt source engine engine' := by
  unfold rollback at h
  split at h
  · cases h
  · rename_i previous hlast
    cases h
    refine ⟨previous, hlast, ?_, ?_, ?_⟩
    · rw [getActiveSpec, Dict.get?_set_self]
    · rw [Dict.get?_set_self]
    · intro source hne
      exact ⟨Dict.get?_set_of_ne _ _ hne.symm, Dict.get?_set_of_ne _ _ hne.symm⟩

theorem rollback_eq_error_iff {sourceId : String} {e : PyError} :
    engine.rollback sourceId = .error e ↔ engine.history sourceId = [] ∧ e = .keyError := by
  unfold rollback
  cases hhistory : (engine.history sourceId).getLast? with
  | none =>
      rw [List.getLast?_eq_none_iff] at hhistory
      simp [hhistory, eq_comm]
  | some previous =>
      have hne : engine.history sourceId ≠ [] := by
        rintro hnil
        simp [hnil] at hhistory
      simp [hne]

theorem reply_eq_error_iff (engine : SpecDeploymentEngine) (call : Call) (e : PyError) :
    call.reply engine = .error e ↔ call.apply engine = .error e := by
  cases call with
  | deploySpec spec validationPassed =>
      cases validationPassed <;> simp [Call.reply, Call.apply, deploySpec]
  | rollback sourceId =>
      rw [Call.apply, rollback, Call.reply]
      cases (engine.history sourceId).getLast? <;> simp

theorem perform_of_error (call : Call) {e : PyError} (h : call.apply engine = .error e) :
    engine.perform call = (.error e, engine) := by
  rw [perform, (reply_eq_error_iff engine call e).mpr h, h]
  rfl

theorem perform_of_ok (call : Call) (h : call.apply engine = .ok engine') :
    engine.perform call = (call.reply engine, engine') := by
  rw [perform, h]
  rfl

theorem perform_agreeAt (call : Call) (hne : source ≠ call.sourceId) :
    AgreeAt source engine (engine.perform call).2 := by
  cases happly : call.apply engine with
  | error e =>
      rw [perform_of_error call happly]
      exact ⟨rfl, rfl⟩
  | ok engine' =>
      rw [perform_of_ok call happly]
      cases call with
      | deploySpec spec validationPassed =>
          cases validationPassed with
          | false => cases happly
          | true => exact (deploySpec_spec happly).2.2 source hne
      | rollback sourceId =>
          obtain ⟨_, _, _, _, hothers⟩ := rollback_spec happly
          exact hothers source hne

@[simp] theorem represents_init : Represents init Stacks.empty :=
  fun _ => ⟨rfl, rfl⟩

/-- The step of the simulation for a call that writes: the source of the call is all that
is left to look at. -/
theorem represents_of_agreeAt {family' : Stacks String CompiledParserSpec} {sourceId : String}
    (h : Represents engine family)
    (hengine : ∀ source, source ≠ sourceId → AgreeAt source engine engine')
    (hfamily : ∀ source, source ≠ sourceId → family' source = family source)
    (hactive : engine'.getActiveSpec sourceId = (family' sourceId).head?)
    (hhistory : engine'.history sourceId = (family' sourceId).tail.reverse) :
    Represents engine' family' := by
  intro source
  by_cases hsource : source = sourceId
  · subst hsource
    exact ⟨hactive, hhistory⟩
  · rw [(hengine source hsource).getActiveSpec, (hengine source hsource).history,
      hfamily source hsource]
    exact h source

theorem represents_deploySpec {spec : CompiledParserSpec} (h : Represents engine family)
    (hok : engine.deploySpec spec true = .ok engine') :
    Represents engine' (family.push spec.sourceId spec) := by
  obtain ⟨hactive, hhistory, hothers⟩ := deploySpec_spec hok
  obtain ⟨htop, hrest⟩ := h spec.sourceId
  refine represents_of_agreeAt h hothers (fun source => family.push_of_ne spec) ?_ ?_
  · rw [hactive, Stacks.push_self, List.head?_cons]
  · rw [hhistory, hrest, htop, Stacks.push_self, List.tail_cons]
    cases family spec.sourceId with
    | nil => rfl
    | cons top rest => simp

theorem represents_rollback {sourceId : String} (h : Represents engine family)
    (hok : engine.rollback sourceId = .ok engine') :
    ∃ previous popped, (engine.history sourceId).getLast? = some previous ∧
      family.pop sourceId = some (previous, popped) ∧ Represents engine' popped := by
  obtain ⟨previous, hlast, hactive, hentry, hothers⟩ := rollback_spec hok
  have hrest := (h sourceId).2
  obtain ⟨top, rest, hstack⟩ : ∃ top rest, family sourceId = top :: previous :: rest := by
    rw [hrest, List.getLast?_reverse] at hlast
    match hfamily : family sourceId with
    | [] => simp [hfamily] at hlast
    | [top] => simp [hfamily] at hlast
    | top :: item :: rest =>
        rw [hfamily, List.tail_cons, List.head?_cons, Option.some.injEq] at hlast
        exact ⟨top, rest, by rw [hlast]⟩
  refine ⟨previous, Function.update family sourceId (previous :: rest), hlast, ?_, ?_⟩
  · exact (Stacks.pop_eq_some_iff _ _ _ _).mpr ⟨top, rest, hstack, rfl⟩
  · refine represents_of_agreeAt h hothers (fun source hne => Function.update_of_ne hne _ _) ?_ ?_
    · simpa using hactive
    · have hdrop : engine'.history sourceId = (engine.history sourceId).dropLast := by
        rw [history, hentry, Option.getD_some]
      rw [hdrop, hrest, hstack]
      simp

theorem perform_simulates (h : Represents engine family) (call : Call) :
    (engine.perform call).1 = (call.onStacks family).1 ∧
      Represents (engine.perform call).2 (call.onStacks family).2 := by
  cases call with
  | deploySpec spec validationPassed =>
      cases validationPassed with
      | false => exact ⟨rfl, h⟩
      | true => exact ⟨rfl, represents_deploySpec h rfl⟩
  | rollback sourceId =>
      cases hok : engine.rollback sourceId with
      | error e =>
          obtain ⟨hhistory, -⟩ := rollback_eq_error_iff.mp hok
          have htail : (family sourceId).tail = [] := by
            rw [← List.reverse_eq_nil_iff, ← (h sourceId).2, hhistory]
          have hpop := (family.pop_eq_none_iff sourceId).mpr htail
          rw [perform_of_error (.rollback sourceId) hok, Call.onStacks, hpop]
          exact ⟨congrArg Except.error (rollback_eq_error_iff.mp hok).2, h⟩
      | ok engine' =>
          obtain ⟨previous, popped, hlast, hpop, hrel⟩ := represents_rollback h hok
          rw [perform_of_ok (.rollback sourceId) hok, Call.onStacks, hpop, Call.reply,
            hlast]
          exact ⟨rfl, hrel⟩

/-- What a list of calls returns and raises, and the engine after it. -/
abbrev performAll (calls : List Call) : List (Except PyError Reply) × SpecDeploymentEngine :=
  runInputs perform init calls

/-- What a list of calls returns and raises on stacks that start out empty, and the stacks
after it. -/
abbrev stacksAfter (calls : List Call) :
    List (Except PyError Reply) × Stacks String CompiledParserSpec :=
  runInputs (fun family call => call.onStacks family) Stacks.empty calls

theorem performAll_simulates (calls : List Call) :
    (performAll calls).1 = (stacksAfter calls).1 ∧
      Represents (performAll calls).2 (stacksAfter calls).2 :=
  runInputs_simulates Represents (fun _ _ call h => perform_simulates h call)
    represents_init calls

/-- A redeploy and the rollback after it leave a source as it was: its history is the same
list, and a source without a list gets the empty one. -/
theorem rollback_after_redeploy {spec previous : CompiledParserSpec}
    (hactive : engine.getActiveSpec spec.sourceId = some previous) :
    ∃ restored, runInputs perform engine [.deploySpec spec true, .rollback spec.sourceId] =
        ([.ok (.deployed spec), .ok (.rolledBack spec.sourceId previous)], restored) ∧
      restored.activeRegistry.get? spec.sourceId = engine.activeRegistry.get? spec.sourceId ∧
      restored.revisionHistory.get? spec.sourceId = some (engine.history spec.sourceId) ∧
      ∀ source, source ≠ spec.sourceId → AgreeAt source engine restored := by
  obtain ⟨deployed, hdeploy⟩ : ∃ deployed, engine.deploySpec spec true = .ok deployed := ⟨_, rfl⟩
  have hhistory : deployed.history spec.sourceId = engine.history spec.sourceId ++ [previous] := by
    rw [(deploySpec_spec hdeploy).2.1, hactive]
    rfl
  obtain ⟨restored, hrollback, -⟩ := rollback_deploySpec hactive hdeploy
  obtain ⟨previous', hlast, hrestored, hentry, hothers⟩ := rollback_spec hrollback
  obtain rfl : previous' = previous := by
    simpa [hhistory, eq_comm] using hlast
  refine ⟨restored, ?_, hrestored.trans hactive.symm, ?_, ?_⟩
  · rw [runInputs_cons, perform_of_ok (.deploySpec spec true) hdeploy, runInputs_cons,
      perform_of_ok (.rollback spec.sourceId) hrollback]
    simp [Call.reply, hlast]
  · rw [hentry, hhistory, List.dropLast_concat]
  · intro source hne
    obtain ⟨hactive', hhistory'⟩ := (deploySpec_spec hdeploy).2.2 source hne
    obtain ⟨hactive'', hhistory''⟩ := hothers source hne
    exact ⟨hactive''.trans hactive', hhistory''.trans hhistory'⟩

/-- After every list of calls the engine is one stack per source: what the calls returned
and raised, what is active and what was replaced are those of the stacks; a call that
raises changes nothing, and one of another source nothing of this one; and a rollback
takes back the redeploy before it. A history that has been rolled back to its end may remain as
an empty list, which is read like none. -/
theorem deployment_is_a_stack_per_source (calls : List Call) :
    (performAll calls).1 = (stacksAfter calls).1 ∧
      (∀ source,
        (performAll calls).2.getActiveSpec source = ((stacksAfter calls).2 source).head? ∧
        (performAll calls).2.history source = ((stacksAfter calls).2 source).tail.reverse) ∧
      (∀ call e, ((performAll calls).2.perform call).1 = .error e →
        ((performAll calls).2.perform call).2 = (performAll calls).2) ∧
      (∀ call source, source ≠ call.sourceId →
        AgreeAt source (performAll calls).2 ((performAll calls).2.perform call).2) ∧
      ∀ spec previous, (performAll calls).2.getActiveSpec spec.sourceId = some previous →
        ∃ restored,
          runInputs perform (performAll calls).2
              [.deploySpec spec true, .rollback spec.sourceId] =
            ([.ok (.deployed spec), .ok (.rolledBack spec.sourceId previous)], restored) ∧
          restored.activeRegistry.get? spec.sourceId =
            (performAll calls).2.activeRegistry.get? spec.sourceId ∧
          restored.revisionHistory.get? spec.sourceId =
            some ((performAll calls).2.history spec.sourceId) ∧
          ∀ source, source ≠ spec.sourceId → AgreeAt source (performAll calls).2 restored := by
  obtain ⟨hreplies, hrel⟩ := performAll_simulates calls
  refine ⟨hreplies, hrel, ?_, fun call source => perform_agreeAt call, ?_⟩
  · intro call e herror
    rw [perform_of_error call ((reply_eq_error_iff _ call e).mp herror)]
  · intro spec previous hactive
    exact rollback_after_redeploy hactive

end SpecDeploymentEngine

end Ulpf.Deployment
