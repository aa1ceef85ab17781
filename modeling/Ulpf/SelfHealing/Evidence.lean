import Ulpf.SelfHealing.Promotable

/-!
The evidence behind a promotion: whether a promoted candidate has extracted a
security event from any sample.
-/

namespace Ulpf.SelfHealing

open Ulpf.Lib
open Ulpf.Python
open Ulpf.Deployment
open Ulpf.Shadow

def extracts (ev : Event) (name : String) : Prop := ev.get name ≠ .null

/-- Some sample from which a spec extracts an action and an address. -/
def HasEvidence (u : Unicode) (spec : PyVal) (samples : List String) : Prop :=
  ∃ sample ∈ samples, ∃ ev, parse u (.str sample) spec = .ok ev ∧ extracts ev "event.action" ∧
    (extracts ev "src.ip" ∨ extracts ev "dst.ip")

/-- A candidate that is only ever promoted on evidence. -/
def EvidenceBased (u : Unicode) (candidate : PyVal) : Prop :=
  ∀ (env : Environment) (policy : PromotionPolicy) (engine engine' : SpecDeploymentEngine)
    (call : RepairCall) (report : SelfHealingReport), env.unicode = u →
    call.candidateSpec = candidate →
    handleRepair env policy engine call = (.ok report, engine') → report.decision = .promoted →
    call.recentLogSamples ≠ [] ∧ HasEvidence u candidate call.recentLogSamples

theorem not_hasEvidence_blank {u : Unicode} {candidate : PyVal} (h : Promotable u candidate) :
    ¬ HasEvidence u candidate [""] := by
  rintro ⟨sample, hsample, ev, hev, haction, -⟩
  rw [List.mem_singleton.mp hsample, parse_blank h.opens.isObj h.hinted, Except.ok.injEq] at hev
  exact haction (hev ▸ rfl)

/-- Promotions of a candidate rest on evidence only when it is never promoted. -/
theorem evidenceBased_iff (u : Unicode) (candidate : PyVal) :
    EvidenceBased u candidate ↔ ¬ Promotable u candidate := by
  constructor
  · intro hbased hpromotable
    rcases blankCall_promoted hpromotable PromotionPolicy.default SpecDeploymentEngine.init with
      ⟨report, engine', hreport, hpromoted⟩
    exact not_hasEvidence_blank hpromotable
      (hbased _ _ _ _ _ _ rfl rfl hreport hpromoted).2
  · intro hnever env policy engine engine' call report hunicode hcandidate h hpromoted
    have hpromotable := promotable_of_promoted h hpromoted
    rw [hunicode, hcandidate] at hpromotable
    exact absurd hpromotable hnever

/-- A blank sample promotes a firewall spec that has extracted nothing. -/
theorem not_evidenceBased_firewallSpec :
    ¬ EvidenceBased Unicode.ascii (firewallSpec "1.1.0") := by
  intro hbased
  rcases blankCall_promoted promotable_firewallSpec PromotionPolicy.default
    SpecDeploymentEngine.init with ⟨report, engine', hreport, hpromoted⟩
  exact not_hasEvidence_blank promotable_firewallSpec
    (hbased _ _ _ _ _ _ rfl rfl hreport hpromoted).2

end Ulpf.SelfHealing
