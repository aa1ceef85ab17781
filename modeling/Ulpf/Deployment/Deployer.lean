import Ulpf.Python.Value

/-!
`SpecDeploymentEngine`: the registry of active specs and the revisions they
replaced.
-/

namespace Ulpf.Deployment

open Ulpf.Lib
open Ulpf.Python

/-- `TargetRuntime`: what a spec is compiled for. -/
inductive TargetRuntime where
  | ulpfParserSpec
  | vectorRemap
  | logstash
  | pythonNative
  deriving DecidableEq

/-- A mapping that was approved, and whether an override decided it. -/
structure FieldMapping where
  rawField : String
  canonicalField : String
  transformer : Option String
  overrideApplied : Bool
  deriving DecidableEq

/-- What was compiled for a source and a target, with its text and its hash. -/
structure CompiledParserSpec where
  specId : String
  sourceId : String
  version : ℤ
  targetRuntime : TargetRuntime
  mappings : List FieldMapping
  compiledCode : String
  specHash : String
  deriving DecidableEq

/-- The engine: what is active for each source, and what was before. -/
structure SpecDeploymentEngine where
  activeRegistry : Dict String CompiledParserSpec
  revisionHistory : Dict String (List CompiledParserSpec)
  deriving DecidableEq

namespace SpecDeploymentEngine

def init : SpecDeploymentEngine := ⟨Dict.empty, Dict.empty⟩

/-- `get_active_spec` -/
def getActiveSpec (engine : SpecDeploymentEngine) (sourceId : String) :
    Option CompiledParserSpec := engine.activeRegistry.get? sourceId

/-- The replaced revisions of a source, oldest first. -/
def history (engine : SpecDeploymentEngine) (sourceId : String) : List CompiledParserSpec :=
  (engine.revisionHistory.get? sourceId).getD []

/-- The specs a source has had so far, the active one last. -/
def revisions (engine : SpecDeploymentEngine) (sourceId : String) : List CompiledParserSpec :=
  engine.history sourceId ++ (engine.getActiveSpec sourceId).toList

/-- The history after the active spec of a source has been appended to it. -/
def archive (engine : SpecDeploymentEngine) (sourceId : String) :
    Dict String (List CompiledParserSpec) :=
  match engine.activeRegistry.get? sourceId with
  | some previous =>
      engine.revisionHistory.set sourceId (engine.history sourceId ++ [previous])
  | none => engine.revisionHistory

/-- `deploy_spec` -/
def deploySpec (engine : SpecDeploymentEngine) (spec : CompiledParserSpec)
    (validationPassed : Bool) : Except PyError SpecDeploymentEngine :=
  if validationPassed then
    .ok ⟨engine.activeRegistry.set spec.sourceId spec, engine.archive spec.sourceId⟩
  else .error .valueError

/-- `rollback` -/
def rollback (engine : SpecDeploymentEngine) (sourceId : String) :
    Except PyError SpecDeploymentEngine :=
  match (engine.history sourceId).getLast? with
  | none => .error .keyError
  | some previous =>
      .ok ⟨engine.activeRegistry.set sourceId previous,
        engine.revisionHistory.set sourceId (engine.history sourceId).dropLast⟩

variable {engine engine' : SpecDeploymentEngine} {spec : CompiledParserSpec}

theorem deploySpec_spec (h : engine.deploySpec spec true = .ok engine') :
    engine'.getActiveSpec spec.sourceId = some spec ∧
      engine'.history spec.sourceId =
        engine.history spec.sourceId ++ (engine.getActiveSpec spec.sourceId).toList ∧
      ∀ source, source ≠ spec.sourceId →
        engine'.getActiveSpec source = engine.getActiveSpec source ∧
          engine'.revisionHistory.get? source = engine.revisionHistory.get? source := by
  simp only [deploySpec, if_true, Except.ok.injEq] at h
  subst h
  refine ⟨by simp [getActiveSpec], ?_, ?_⟩
  · rw [history, archive, getActiveSpec]
    cases engine.activeRegistry.get? spec.sourceId with
    | none => simp [history]
    | some previous => simp
  · intro source hne
    refine ⟨by simp [getActiveSpec, Dict.get?_set_of_ne _ _ hne.symm], ?_⟩
    show (engine.archive spec.sourceId).get? source = _
    rw [archive]
    cases engine.activeRegistry.get? spec.sourceId with
    | none => rfl
    | some previous => exact Dict.get?_set_of_ne _ _ hne.symm

theorem revisions_deploySpec (h : engine.deploySpec spec true = .ok engine') (source : String) :
    engine'.revisions source =
      engine.revisions source ++ (if spec.sourceId = source then [spec] else []) := by
  rcases deploySpec_spec h with ⟨hactive, hhistory, hothers⟩
  split
  · rename_i hsource
    subst hsource
    rw [revisions, hhistory, hactive]
    rfl
  · rename_i hne
    rcases hothers source (Ne.symm hne) with ⟨hactive', hhistory'⟩
    rw [revisions, revisions, hactive', history, history, hhistory', List.append_nil]

theorem rollback_deploySpec {previous : CompiledParserSpec}
    (hactive : engine.getActiveSpec spec.sourceId = some previous)
    (h : engine.deploySpec spec true = .ok engine') :
    ∃ restored, engine'.rollback spec.sourceId = .ok restored ∧
      restored.getActiveSpec spec.sourceId = some previous ∧
      restored.history spec.sourceId = engine.history spec.sourceId := by
  have hhistory : engine'.history spec.sourceId = engine.history spec.sourceId ++ [previous] := by
    rw [(deploySpec_spec h).2.1, hactive]
    rfl
  refine ⟨⟨engine'.activeRegistry.set spec.sourceId previous,
    engine'.revisionHistory.set spec.sourceId (engine.history spec.sourceId)⟩, ?_, ?_, ?_⟩
  · simp [rollback, hhistory]
  · simp [getActiveSpec]
  · simp [history]

end SpecDeploymentEngine

end Ulpf.Deployment
