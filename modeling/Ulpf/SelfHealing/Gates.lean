import Ulpf.SelfHealing.RegistrySafety
import Ulpf.Shadow.RunnerSpec

/-!
What the gates ask of a candidate spec: the shape the schema check accepts, the
targets the empirical validation looks for, and the shadow verdict; and with
them when a call returns and when it promotes.
-/

namespace Ulpf.SelfHealing

open Ulpf.Lib
open Ulpf.Python
open Ulpf.Deployment
open Ulpf.Shadow

/-- The `parser` section that the workflow reads. -/
def parserInfo (spec : PyVal) : PyVal := spec.memberD "parser" (.obj [])

/-- The field definitions of a specification. -/
def definitions (spec : PyVal) : List PyVal :=
  match spec.memberD "fields" (.obj []) with
  | .obj members => members.map Prod.snd
  | _ => []

/-- The shape `_validate_spec_schema` asks for. -/
structure HasShape (spec : PyVal) : Prop where
  identified : ((parserInfo spec).member? "id").isSome
  versioned : ((parserInfo spec).member? "version").isSome
  fieldsObj : ∃ members, spec.member? "fields" = some (.obj members)

theorem lacksIdentity_of_opens {spec : PyVal} (h : Opens spec) : ∃ b, lacksIdentity spec = .ok b ∧
    (b = false ↔ ((parserInfo spec).member? "id").isSome ∧
      ((parserInfo spec).member? "version").isSome) := by
  have hinfo := h.parserObj
  simp only [lacksIdentity, PyVal.contains_of_isObj h.isObj, ok_bind]
  cases hparser : spec.member? "parser" with
  | none =>
      have hnone : parserInfo spec = .obj [] := by simp [parserInfo, Json.memberD, hparser]
      exact ⟨true, rfl, by simp [hnone, Json.member?]⟩
  | some info =>
      have hobj : info.isObj = true := by simpa [Json.memberD, hparser] using hinfo
      simp only [Option.isSome_some, if_true, PyVal.getItem_eq_ok_iff.mpr hparser, ok_bind,
        PyVal.contains_of_isObj hobj, parserInfo, Json.memberD, hparser, Option.getD_some]
      cases hid : info.member? "id" with
      | none => exact ⟨true, rfl, by simp⟩
      | some id =>
          refine ⟨_, rfl, ?_⟩
          cases info.member? "version" <;> simp

theorem lacksFields_of_isObj {spec : PyVal} (h : spec.isObj = true) : ∃ b,
    lacksFields spec = .ok b ∧
      (b = false ↔ ∃ members, spec.member? "fields" = some (.obj members)) := by
  simp only [lacksFields, PyVal.contains_of_isObj h, ok_bind]
  cases hfields : spec.member? "fields" with
  | none => exact ⟨true, rfl, by simp⟩
  | some fields =>
      simp only [Option.isSome_some, if_true, PyVal.getItem_eq_ok_iff.mpr hfields, ok_bind]
      refine ⟨_, rfl, ?_⟩
      simp [Json.isObj_iff]

theorem validateSpecSchema_of_opens {spec : PyVal} (h : Opens spec) : ∃ passed details,
    validateSpecSchema spec = .ok (passed, details) ∧ (passed = true ↔ HasShape spec) := by
  rcases lacksIdentity_of_opens h with ⟨noIdentity, hidentity, hidentified⟩
  rcases lacksFields_of_isObj h.isObj with ⟨noFields, hfields, hfieldsObj⟩
  have hshape : HasShape spec ↔ noIdentity = false ∧ noFields = false := by
    rw [hidentified, hfieldsObj]
    exact ⟨fun hs => ⟨⟨hs.identified, hs.versioned⟩, hs.fieldsObj⟩,
      fun ⟨⟨hid, hver⟩, hobj⟩ => ⟨hid, hver, hobj⟩⟩
  simp only [validateSpecSchema, h.isObj, Bool.not_true, Bool.false_eq_true, if_false, hidentity,
    hfields, ok_bind, hshape]
  cases noIdentity with
  | true => exact ⟨_, _, rfl, by simp⟩
  | false =>
      cases noFields with
      | true => exact ⟨_, _, rfl, by simp⟩
      | false => exact ⟨_, _, rfl, by simp⟩

/-- Whether a field definition maps to one of the targets. -/
def mapsTo (targets : List String) (fDef : PyVal) : Bool :=
  targets.any fun target => fDef.member? "map_to" = some (.str target)

/-- Every definition up to the first one that maps to a target is a dictionary. -/
def Scannable (targets : List String) (defs : List PyVal) : Prop :=
  ∀ fDef ∈ defs.takeWhile fun fDef => !mapsTo targets fDef, fDef.isObj = true

theorem mapsTo_of_isObj {targets : List String} {fDef : PyVal} :
    (targets.any fun t => PyVal.eq (fDef.memberD "map_to" .null) (.str t)) =
      mapsTo targets fDef := by
  rw [mapsTo]
  congr 1
  funext target
  rw [Bool.eq_iff_iff, PyVal.eq_str_iff, decide_eq_true_eq]
  cases hmember : fDef.member? "map_to" with
  | none => simp [Json.memberD, hmember]
  | some v => simp [Json.memberD, hmember]

theorem anyMapsTo_eq_ok_iff {targets : List String} {defs : List PyVal} {b : Bool} :
    anyMapsTo targets defs = .ok b ↔ Scannable targets defs ∧ b = defs.any (mapsTo targets) := by
  induction defs with
  | nil =>
      simp only [anyMapsTo, Except.ok.injEq, List.any_nil]
      exact ⟨fun h => ⟨by simp [Scannable], h.symm⟩, fun h => h.2.symm⟩
  | cons fDef rest ih =>
      simp only [anyMapsTo, bind_eq_ok_iff, PyVal.getD_eq_ok_iff]
      cases hmaps : mapsTo targets fDef with
      | true =>
          have hobj : fDef.isObj = true := by
            cases fDef <;> simp_all [mapsTo, Json.member?, Json.isObj]
          simp only [Scannable, List.takeWhile_cons, hmaps, Bool.not_true, Bool.false_eq_true,
            if_false, List.any_cons, Bool.true_or]
          constructor
          · rintro ⟨target, ⟨-, rfl⟩, h⟩
            rw [mapsTo_of_isObj, hmaps, if_pos rfl, pure_eq_ok_iff] at h
            exact ⟨by simp, h.symm⟩
          · rintro ⟨-, rfl⟩
            refine ⟨_, ⟨hobj, rfl⟩, ?_⟩
            rw [mapsTo_of_isObj, hmaps]
            rfl
      | false =>
          have hscan : Scannable targets (fDef :: rest) ↔
              fDef.isObj = true ∧ Scannable targets rest := by
            simp [Scannable, hmaps]
          rw [hscan, List.any_cons, hmaps, Bool.false_or, and_assoc, ← ih]
          constructor
          · rintro ⟨target, ⟨hobj, rfl⟩, h⟩
            rw [mapsTo_of_isObj, hmaps, if_neg Bool.false_ne_true] at h
            exact ⟨hobj, h⟩
          · rintro ⟨hobj, h⟩
            refine ⟨_, ⟨hobj, rfl⟩, ?_⟩
            rw [mapsTo_of_isObj, hmaps, if_neg Bool.false_ne_true]
            exact h

/-- Both scans of the empirical validation come to an end. -/
def FieldsScannable (spec : PyVal) : Prop :=
  Scannable ["event.action"] (definitions spec) ∧
    Scannable ["src.ip", "dst.ip"] (definitions spec)

/-- Some definition maps to `event.action` and some to an address. -/
def MapsDetectionFields (spec : PyVal) : Prop :=
  (definitions spec).any (mapsTo ["event.action"]) = true ∧
    (definitions spec).any (mapsTo ["src.ip", "dst.ip"]) = true

theorem definitions_of_fields {spec : PyVal} {members : List (String × PyVal)}
    (h : spec.member? "fields" = some (.obj members)) :
    definitions spec = members.map Prod.snd := by
  simp [definitions, Json.memberD, h]

theorem runEmpiricalValidation_eq_ok_iff {spec : PyVal} {samples : List String}
    {validation : Validation} (hshape : HasShape spec) (hsamples : samples ≠ []) :
    runEmpiricalValidation spec samples = .ok validation ↔ FieldsScannable spec ∧
      validation = (if definitions spec = [] then ⟨false, 0, 0, 0, 1, 1⟩
        else if (definitions spec).any (mapsTo ["event.action"]) &&
            (definitions spec).any (mapsTo ["src.ip", "dst.ip"]) then ⟨true, 1, 1, 1, 1, 1⟩
        else ⟨false, 1, 1, 0, 1, 1⟩) := by
  rcases hshape.fieldsObj with ⟨members, hmembers⟩
  have hspec : spec.isObj = true := by
    cases spec <;> simp_all [Json.member?, Json.isObj]
  have hempty : samples.isEmpty = false := by simpa using hsamples
  have hthreshold : threshold ≤ 1 := by decide +kernel
  have hfields : PyVal.getD spec "fields" (.obj []) = .ok (.obj members) :=
    PyVal.getD_eq_ok_iff.mpr ⟨hspec, by simp [Json.memberD, hmembers]⟩
  rw [FieldsScannable, definitions_of_fields hmembers, runEmpiricalValidation]
  simp only [hempty, Bool.false_eq_true, if_false, hfields, ok_bind]
  cases members with
  | nil =>
      simp only [Json.isObj, PyVal.truthy, List.isEmpty_nil, Bool.not_true, or_true, Bool.not_false,
        if_true, pure_eq_ok_iff, List.map_nil]
      exact ⟨fun h => ⟨by simp [Scannable], h.symm⟩, fun h => h.2.symm⟩
  | cons member rest =>
      have hvalue : ∀ action endpoints : Bool,
          (⟨1 ≤ (if action && endpoints then 1 else 0 : ℚ) && threshold ≤ 1, 1, 1,
            if action && endpoints then 1 else 0, 1, 1⟩ : Validation) =
            if action && endpoints then ⟨true, 1, 1, 1, 1, 1⟩ else ⟨false, 1, 1, 0, 1, 1⟩ := by
        intro action endpoints
        cases action <;> cases endpoints <;> simp [hthreshold]
      have hne : ¬ (member :: rest).map Prod.snd = [] := by simp
      simp only [Json.isObj, PyVal.truthy, List.isEmpty_cons, Bool.not_false, Bool.not_true,
        Bool.false_eq_true, or_self, if_false, PyVal.values, ok_bind, bind_eq_ok_iff,
        anyMapsTo_eq_ok_iff, pure_eq_ok_iff]
      constructor
      · rintro ⟨action, ⟨haction, rfl⟩, endpoints, ⟨hendpoints, rfl⟩, rfl⟩
        refine ⟨⟨haction, hendpoints⟩, ?_⟩
        rw [if_neg hne, ← hvalue]
      · rintro ⟨⟨haction, hendpoints⟩, rfl⟩
        refine ⟨_, ⟨haction, rfl⟩, _, ⟨hendpoints, rfl⟩, ?_⟩
        rw [if_neg hne, ← hvalue]

/-- The shadow run of a call returns a report that passes. -/
def ShadowPasses (env : Environment) (call : RepairCall) : Prop :=
  ∃ report bus, executeDual env.unicode env.ticks (call.recentLogSamples.map .str)
    call.activeSpec call.candidateSpec call.sourceId none true = .ok (report, bus) ∧
      report.shadowState = .passed

/-- A candidate that every gate lets through. -/
structure GatesPass (env : Environment) (call : RepairCall) : Prop where
  shaped : HasShape call.candidateSpec
  sampled : call.recentLogSamples ≠ []
  detects : MapsDetectionFields call.candidateSpec
  shadowed : ShadowPasses env call

/-- Every sample can be read under both specs. -/
def SamplesUsable (env : Environment) (call : RepairCall) : Prop :=
  ∀ sample ∈ call.recentLogSamples, Usable env.unicode call.activeSpec sample ∧
    Usable env.unicode call.candidateSpec sample

section Call

variable {env : Environment} {call : RepairCall}

theorem returns_shadowGate_iff (hactive : Opens call.activeSpec)
    (hcandidate : Opens call.candidateSpec) (hsamples : call.recentLogSamples ≠ []) :
    Returns (shadowGate env call true) ↔ SamplesUsable env call := by
  have hempty : call.recentLogSamples.isEmpty = false := by simpa using hsamples
  have hdual := returns_executeDual_iff env.unicode env.ticks call.recentLogSamples call.activeSpec
    call.candidateSpec call.sourceId true
  rw [SamplesUsable]
  simp only [hactive, hcandidate, true_and] at hdual
  rw [← hdual, shadowGate]
  simp only [hempty, Bool.not_false, Bool.and_self, if_true, returns_bind_iff]
  constructor
  · rintro ⟨result, hresult, -⟩
    exact ⟨result, hresult⟩
  · rintro ⟨result, hresult⟩
    exact ⟨result, hresult, returns_pure _⟩

theorem returns_evaluateGates_iff (env : Environment) (hactive : Opens call.activeSpec)
    (hcandidate : Opens call.candidateSpec) :
    Returns (evaluateGates env call) ↔
      (HasShape call.candidateSpec → call.recentLogSamples ≠ [] →
        FieldsScannable call.candidateSpec ∧ SamplesUsable env call) := by
  rcases validateSpecSchema_of_opens hcandidate with ⟨passed, details, hschema, hpassed⟩
  simp only [evaluateGates, hschema, ok_bind]
  cases passed with
  | false =>
      have hno : ¬ HasShape call.candidateSpec := fun h => by simpa using hpassed.mpr h
      simp only [hno, false_implies, iff_true]
      exact ⟨_, rfl⟩
  | true =>
      have hshape := hpassed.mp rfl
      by_cases hsamples : call.recentLogSamples = []
      · simp only [hsamples, ne_eq, not_true_eq_false, false_implies, implies_true, iff_true]
        simp only [validationGate, shadowGate, runEmpiricalValidation, hsamples, List.isEmpty_nil]
        exact ⟨_, rfl⟩
      · simp only [hshape, hsamples, ne_eq, not_false_eq_true, true_implies]
        rw [← returns_shadowGate_iff hactive hcandidate hsamples]
        simp only [validationGate, if_true, returns_bind_iff]
        constructor
        · rintro ⟨validation, hvalidation, shadow, hshadow, -⟩
          exact ⟨((runEmpiricalValidation_eq_ok_iff hshape hsamples).mp hvalidation).1,
            shadow, hshadow⟩
        · rintro ⟨hscan, shadow, hshadow⟩
          exact ⟨_, (runEmpiricalValidation_eq_ok_iff hshape hsamples).mpr ⟨hscan, rfl⟩, shadow,
            hshadow, returns_pure _⟩

theorem clear_iff_gatesPass (hcandidate : Opens call.candidateSpec) {gates : GateResults}
    (h : evaluateGates env call = .ok gates) : Clear gates ↔ GatesPass env call := by
  rcases validateSpecSchema_of_opens hcandidate with ⟨passed, details, hschema, hpassed⟩
  simp only [evaluateGates, hschema, ok_bind] at h
  cases passed with
  | false =>
      have hno : ¬ HasShape call.candidateSpec := fun hs => by simpa using hpassed.mpr hs
      simp only [bind_eq_ok_iff, pure_eq_ok_iff] at h
      rcases h with ⟨validation, -, shadow, -, rfl⟩
      constructor
      · intro hclear
        exact absurd rfl (hclear .schemaInvalid)
      · intro hpass
        exact absurd hpass.shaped hno
  | true =>
      have hshape := hpassed.mp rfl
      by_cases hsamples : call.recentLogSamples = []
      · simp only [validationGate, runEmpiricalValidation, hsamples, List.isEmpty_nil, if_true,
          bind_eq_ok_iff, pure_eq_ok_iff] at h
        rcases h with ⟨validation, rfl, shadow, -, rfl⟩
        constructor
        · intro hclear
          exact absurd (Or.inl rfl) (hclear .validationIncomplete)
        · intro hpass
          exact absurd hsamples hpass.sampled
      · simp only [validationGate, if_true, bind_eq_ok_iff,
          runEmpiricalValidation_eq_ok_iff hshape hsamples, pure_eq_ok_iff] at h
        rcases h with ⟨validation, ⟨hscan, hvalidation⟩, shadow, hshadow, rfl⟩
        have hempty : call.recentLogSamples.isEmpty = false := by simpa using hsamples
        simp only [shadowGate, hempty, Bool.not_false, Bool.and_self, if_true, bind_eq_ok_iff,
          pure_eq_ok_iff] at hshadow
        rcases hshadow with ⟨⟨report, bus⟩, hdual, rfl⟩
        constructor
        · intro hclear
          refine ⟨hshape, hsamples, ?_, report, bus, hdual, ?_⟩
          · have hpassed : validation.passed = true := by
              by_contra hfail
              exact hclear .validationIncomplete (Or.inl (by simpa using hfail))
            rw [hvalidation] at hpassed
            split at hpassed
            · simp at hpassed
            · split at hpassed
              · rename_i hany
                simpa [MapsDetectionFields] using hany
              · simp at hpassed
          · by_contra hfail
            exact hclear .shadowUnpassedOrLeaked (Or.inl (by simpa using hfail))
        · rintro ⟨-, -, hdetects, report', bus', hdual', hstate⟩
          rw [hdual, Except.ok.injEq, Prod.mk.injEq] at hdual'
          rcases hdual' with ⟨rfl, rfl⟩
          rcases executeDual_eq_ok_iff.mp hdual with ⟨-, -, -, acts, cands, -, -, hcompare⟩
          rcases compare_passed hcompare hstate with ⟨-, hisolation, hdelta⟩
          have hne : definitions call.candidateSpec ≠ [] := by
            intro hnil
            simpa [hnil] using hdetects.1
          rw [if_neg hne, if_pos (by simpa [MapsDetectionFields] using hdetects)] at hvalidation
          have hthreshold : ¬ (1 : ℚ) < threshold := by decide +kernel
          intro condition
          cases condition with
          | schemaInvalid => simp [RefusalCondition.Holds]
          | validationIncomplete => simp [RefusalCondition.Holds, hvalidation, hthreshold]
          | detectionTestsFailed => simpa [RefusalCondition.Holds, hvalidation] using hdelta
          | retentionBelow100 => simp [RefusalCondition.Holds, hvalidation]
          | shadowUnpassedOrLeaked =>
              simp [RefusalCondition.Holds, hstate, ShadowState.value, hisolation]

end Call

end Ulpf.SelfHealing
