import Ulpf.ParserRuntime.Loading
import Ulpf.SelfHealing.Promotable

/-!
Whether the production runtime can load a promoted spec: the gates check less
of a candidate than the contract and the Go loader do.
-/

namespace Ulpf.SelfHealing

open Ulpf.Lib
open Ulpf.Python
open Ulpf.Contracts
open Ulpf.Deployment
open Ulpf.ParserRuntime

/-- A candidate the production runtime can run, in the text a promotion deploys. -/
def Runnable (u : Unicode) (candidate : PyVal) : Prop :=
  SchemaValid candidate ∧ ∃ spec, loadParserSpecJSON u (dumps candidate) = .ok spec

/-- A candidate that can be run whenever a call has promoted it. The two
runtimes have tables of their own. -/
def RunnableWhenPromoted (u goTables : Unicode) (candidate : PyVal) : Prop :=
  ∀ (env : Environment) (policy : PromotionPolicy) (engine engine' : SpecDeploymentEngine)
    (call : RepairCall) (report : SelfHealingReport), env.unicode = u →
    call.candidateSpec = candidate →
    handleRepair env policy engine call = (.ok report, engine') → report.decision = .promoted →
    Runnable goTables candidate

/-- A candidate of the contract whose fields all have names. -/
structure Conforms (candidate : PyVal) : Prop where
  valid : SchemaValid candidate
  named : ∀ k, NamesField candidate k → k ≠ ""

theorem runnable_iff_conforms {u : Unicode} {candidate : PyVal} :
    Runnable u candidate ↔ Conforms candidate := by
  constructor
  · rintro ⟨hvalid, hload⟩
    exact ⟨hvalid, (returns_loadParserSpecJSON_iff jsonNum hvalid).mp hload⟩
  · rintro ⟨hvalid, hnamed⟩
    exact ⟨hvalid, (returns_loadParserSpecJSON_iff jsonNum hvalid).mpr hnamed⟩

/-- Exactly the candidates that no call promotes, or that conform to the
contract anyway, are runnable whenever they are promoted. -/
theorem runnableWhenPromoted_iff (u goTables : Unicode) (candidate : PyVal) :
    RunnableWhenPromoted u goTables candidate ↔
      ¬ Promotable u candidate ∨ Conforms candidate := by
  constructor
  · intro hrunnable
    by_cases hpromotable : Promotable u candidate
    · rcases blankCall_promoted hpromotable PromotionPolicy.default SpecDeploymentEngine.init with
        ⟨report, engine', hreport, hpromoted⟩
      exact Or.inr (runnable_iff_conforms.mp
        (hrunnable _ _ _ _ _ _ rfl rfl hreport hpromoted))
    · exact Or.inl hpromotable
  · rintro (hnever | hconforms) env policy engine engine' call report hunicode hcandidate h
      hpromoted
    · have hpromotable := promotable_of_promoted h hpromoted
      rw [hunicode, hcandidate] at hpromotable
      exact absurd hpromotable hnever
    · exact runnable_iff_conforms.mpr hconforms

/-- The firewall spec is promoted without the entries the contract requires. -/
theorem not_runnableWhenPromoted_firewallSpec :
    ¬ RunnableWhenPromoted Unicode.ascii Unicode.ascii (firewallSpec "1.1.0") := by
  intro hrunnable
  rcases blankCall_promoted promotable_firewallSpec PromotionPolicy.default
    SpecDeploymentEngine.init with ⟨report, engine', hreport, hpromoted⟩
  have hinvalid : ¬ SchemaValid (firewallSpec "1.1.0") := by decide
  exact hinvalid (hrunnable _ _ _ _ _ _ rfl rfl hreport hpromoted).1

end Ulpf.SelfHealing
