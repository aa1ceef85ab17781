import Ulpf.Lib.Outcome
import Ulpf.SemanticMapper.Decisions

/-!
The samples of a field behind an accepted integer mapping: `all(int(str(v)) ...)` stops at
the first sample that reads as zero, and what stands behind it is never looked at.
-/

namespace Ulpf.SemanticMapper

open Ulpf.Lib
open Ulpf.Python
open Ulpf.SourceProfiler

variable {u : Unicode} {samples : List PyVal}

/-- `int(str(v))` returns. -/
def readsInt (u : Unicode) (v : PyVal) : Bool := (parseInt u (str u v)).isSome

/-- Up to its first unreadable sample a list that has one holds no zero. -/
def NoEarlyZero (u : Unicode) (samples : List PyVal) : Prop :=
  (∃ v ∈ samples.takeWhile (readsInt u), parseInt u (str u v) = some 0) →
    ∀ v ∈ samples, readsInt u v = true

/-- The check passes when every sample reads as an integer, or when a zero ends it early. -/
theorem returns_allIntegers_iff : Returns (allIntegers u samples) ↔
    (∀ v ∈ samples, readsInt u v = true) ∨
      ∃ v ∈ samples.takeWhile (readsInt u), parseInt u (str u v) = some 0 := by
  induction samples with
  | nil => exact iff_of_true ⟨true, rfl⟩ (.inl fun v hv => absurd hv List.not_mem_nil)
  | cons v rest ih =>
      rw [allIntegers.eq_2, List.forall_mem_cons, List.takeWhile_cons]
      cases hv : parseInt u (str u v) with
      | none =>
          have hunread : readsInt u v = false := by rw [readsInt, hv]; rfl
          rw [hunread]
          refine iff_of_false (fun ⟨b, hb⟩ => nomatch hb) ?_
          simp
      | some n =>
          have hread : readsInt u v = true := by rw [readsInt, hv]; rfl
          rw [hread, and_iff_right rfl, if_pos rfl]
          dsimp only
          split
          · rename_i hzero
            subst hzero
            exact iff_of_true ⟨false, rfl⟩ (.inr ⟨v, List.mem_cons_self, hv⟩)
          · rename_i hne
            rw [ih]
            simp [hv, hne]

theorem sampleCompatibility_eq (samples : List PyVal) :
    sampleCompatibility u samples = (true, false) ∧ samples ≠ [] ∧ Returns (allIntegers u samples) ∨
      sampleCompatibility u samples = (false, true) ∧
        ¬ (samples ≠ [] ∧ Returns (allIntegers u samples)) := by
  rw [sampleCompatibility]
  cases samples with
  | nil => exact .inr ⟨rfl, fun h => h.1 rfl⟩
  | cons v rest =>
      rw [List.isEmpty_cons, if_neg Bool.false_ne_true]
      cases allIntegers u (v :: rest) with
      | ok b => exact .inl ⟨rfl, List.cons_ne_nil _ _, b, rfl⟩
      | error e => exact .inr ⟨rfl, fun ⟨_, b, hb⟩ => nomatch hb⟩

variable {fieldProfile : FieldProfile} {canonicalDefn : CanonicalFieldDefinition}

theorem evaluateTypeCompatibility_string
    (hinteger : "integer" ∈ canonicalDefn.expectedTypes)
    (hstring : "string" ∉ canonicalDefn.expectedTypes) (hsamples : fieldProfile.sampleValues ≠ []) :
    (evaluateTypeCompatibility u "string" canonicalDefn.expectedTypes
      (some fieldProfile)).2 = false ↔ Returns (allIntegers u fieldProfile.sampleValues) := by
  have heval : evaluateTypeCompatibility u "string" canonicalDefn.expectedTypes
      (some fieldProfile) = sampleCompatibility u fieldProfile.sampleValues := by
    simp [evaluateTypeCompatibility, hinteger, hstring]
  rw [heval]
  obtain ⟨hcheck, -, hreturns⟩ | ⟨hcheck, hfails⟩ :=
    sampleCompatibility_eq (u := u) fieldProfile.sampleValues
  · rw [hcheck]
    exact iff_of_true rfl hreturns
  · rw [hcheck]
    exact iff_of_false (by decide) fun h => hfails ⟨hsamples, h⟩

/-- A mapping to an integer field is only accepted for integers if and only if no zero hides
an unreadable sample behind it. -/
theorem integersOnly_iff (similarity : String → String → ℚ) (rawField : String)
    (eventFamily : Option String) (htype : fieldProfile.inferredType = "string")
    (hsamples : fieldProfile.sampleValues ≠ [])
    (hinteger : "integer" ∈ canonicalDefn.expectedTypes)
    (hstring : "string" ∉ canonicalDefn.expectedTypes) :
    ((scoreCandidate u similarity rawField fieldProfile canonicalDefn
          eventFamily).reviewStatus = .autoAccepted ∨
        (evaluateTypeCompatibility u fieldProfile.inferredType canonicalDefn.expectedTypes
          (some fieldProfile)).2 = false →
      ∀ v ∈ fieldProfile.sampleValues, readsInt u v = true) ↔
    NoEarlyZero u fieldProfile.sampleValues := by
  have haccepted : (scoreCandidate u similarity rawField fieldProfile canonicalDefn
      eventFamily).reviewStatus = .autoAccepted →
      (evaluateTypeCompatibility u fieldProfile.inferredType canonicalDefn.expectedTypes
        (some fieldProfile)).2 = false :=
    fun h => (decidedBy_scoreCandidate.accepted h).2
  rw [or_iff_right_of_imp haccepted, htype, evaluateTypeCompatibility_string hinteger hstring
    hsamples, returns_allIntegers_iff, NoEarlyZero, or_imp, and_iff_right fun h => h]

/-- The profile of a field of texts with the given samples. -/
def stringProfile (name : String) (sampleValues : List String) : FieldProfile :=
  { FieldProfile.new name "string" with sampleValues := sampleValues.map .str }

theorem integersOnly_iff_ports :
    ((scoreCandidate Unicode.ascii (fun _ _ => 0) "src_port"
          (stringProfile "src_port" ["443", "0"]) srcPort none).reviewStatus = .autoAccepted ∨
        (evaluateTypeCompatibility Unicode.ascii "string" srcPort.expectedTypes
          (some (stringProfile "src_port" ["443", "0"]))).2 = false →
      ∀ v ∈ ([.str "443", .str "0"] : List PyVal), readsInt Unicode.ascii v = true) ↔
    NoEarlyZero Unicode.ascii [.str "443", .str "0"] :=
  integersOnly_iff (fun _ _ => 0) "src_port" none
    (rfl : (stringProfile "src_port" ["443", "0"]).inferredType = "string")
    (by simp [stringProfile]) (by decide : "integer" ∈ srcPort.expectedTypes) (by decide)

/-- A port field with the samples `0` and `high` is accepted. -/
theorem not_integersOnly_zeroFirst :
    ¬ ∀ (u : Unicode) (similarity : String → String → ℚ) (rawField : String)
      (fieldProfile : FieldProfile) (canonicalDefn : CanonicalFieldDefinition)
      (eventFamily : Option String), fieldProfile.inferredType = "string" →
      fieldProfile.sampleValues ≠ [] → "integer" ∈ canonicalDefn.expectedTypes →
      "string" ∉ canonicalDefn.expectedTypes →
      (scoreCandidate u similarity rawField fieldProfile canonicalDefn
          eventFamily).reviewStatus = .autoAccepted ∨
        (evaluateTypeCompatibility u fieldProfile.inferredType canonicalDefn.expectedTypes
          (some fieldProfile)).2 = false →
      ∀ v ∈ fieldProfile.sampleValues, readsInt u v = true := by
  intro hall
  have hread := hall Unicode.ascii (fun _ _ => 0) "src_port"
    (stringProfile "src_port" ["0", "high"]) srcPort none rfl (by simp [stringProfile])
    (by decide) (by decide) (.inl (by decide +kernel)) (.str "high") (by simp [stringProfile])
  revert hread
  decide +kernel

end Ulpf.SemanticMapper
