import Ulpf.Python.Difflib
import Ulpf.SemanticMapper.Decisions

/-!
`compute_lexical_similarity`, and how near to one it comes for a name that is not the same.
-/

namespace Ulpf.SemanticMapper

open Ulpf.Lib
open Ulpf.Lib.Binary64 (fl fl_one fl_monotone roundTo roundTo_monotone)
open Ulpf.Python
open Ulpf.Python.Difflib (ratio ratio_le ratio_le_one)

/-- `compute_lexical_similarity` -/
def computeLexicalSimilarity (u : Unicode) (raw target : String) : ℚ :=
  let rNorm := (squeeze u raw).toList
  let tNorm := (squeeze u target).toList
  if rNorm = [] ∨ tNorm = [] then 0
  else if rNorm = tNorm then 1
  else if tNorm.isSuffixOf rNorm || rNorm.isSuffixOf tNorm then fl (90 / 100)
  else roundTo 3 (ratio rNorm tNorm)

variable {u : Unicode} {raw target : String}

theorem computeLexicalSimilarity_le_one : computeLexicalSimilarity u raw target ≤ 1 := by
  rw [computeLexicalSimilarity]
  split
  · exact zero_le_one
  · split
    · exact le_rfl
    · split
      · exact (fl_monotone (by norm_num)).trans_eq Binary64.fl_one
      · calc roundTo 3 (ratio (squeeze u raw).toList (squeeze u target).toList)
            ≤ roundTo 3 1 := roundTo_monotone 3 (ratio_le_one _ _)
          _ = 1 := Binary64.roundTo_one 3

theorem computeLexicalSimilarity_eq_one (hne : squeeze u target ≠ "")
    (h : squeeze u raw = squeeze u target) : computeLexicalSimilarity u raw target = 1 := by
  rw [computeLexicalSimilarity, h, if_neg (by rwa [or_self, String.toList_eq_nil_iff]), if_pos rfl]

/-- A similarity below this one is no perfect match. -/
def nearMiss : ℚ := fl (995 / 1000)

theorem nearMiss_nonneg : 0 ≤ nearMiss := Binary64.fl_nonneg (by norm_num)

theorem computeLexicalSimilarity_le_nearMiss (hlength : (squeeze u target).toList.length < 100)
    (h : squeeze u raw ≠ squeeze u target) : computeLexicalSimilarity u raw target ≤ nearMiss := by
  have hne : (squeeze u raw).toList ≠ (squeeze u target).toList :=
    fun heq => h (String.toList_inj.mp heq)
  rw [computeLexicalSimilarity]
  split
  · exact Binary64.fl_nonneg (by norm_num)
  · split
    · exact fl_monotone (by norm_num)
    · calc roundTo 3 (ratio (squeeze u raw).toList (squeeze u target).toList)
          ≤ roundTo 3 (fl ((200 - 1 : ℕ) / (200 : ℕ))) :=
            roundTo_monotone 3 (ratio_le hne (by omega))
        _ ≤ nearMiss := by decide +kernel

theorem bestSimilarity_le {similarity : String → String → ℚ} {rawField : String}
    {canonicalDefn : CanonicalFieldDefinition} {bound : ℚ} (hbound : 0 ≤ bound)
    (hleaf : similarity (rawClean u rawField) (leafTarget canonicalDefn.path) ≤ bound)
    (haliases : ∀ a ∈ canonicalDefn.aliases, similarity (rawClean u rawField) a ≤ bound) :
    bestSimilarity u similarity rawField canonicalDefn ≤ bound := by
  rw [bestSimilarity]
  refine max_le hleaf ?_
  cases hmax : (canonicalDefn.aliases.map (similarity (rawClean u rawField))).max? with
  | none => exact hbound
  | some best =>
      obtain ⟨a, ha, rfl⟩ := List.mem_map.mp (List.max?_mem hmax)
      exact haliases a ha

theorem similarityScore_le {bestSim bound : ℚ} (h : bestSim ≤ bound)
    (hbound : fl (75 / 100) ≤ bound) : similarityScore bestSim ≤ fl (bound * fl (88 / 100)) := by
  have hfactor (digits : ℚ) (hdigits : 0 ≤ digits) : 0 ≤ fl digits := Binary64.fl_nonneg hdigits
  have hreview : fl (fl (75 / 100) * fl (60 / 100)) ≤ fl (bound * fl (88 / 100)) := by
    refine fl_monotone (mul_le_mul hbound (fl_monotone (by norm_num)) (hfactor _ (by norm_num)) ?_)
    exact (hfactor _ (by norm_num)).trans hbound
  rw [similarityScore]
  split
  · exact fl_monotone (mul_le_mul_of_nonneg_right h (hfactor _ (by norm_num)))
  · rename_i hlow
    split
    · refine (fl_monotone ?_).trans hreview
      exact mul_le_mul_of_nonneg_right (not_le.mp hlow).le (hfactor _ (by norm_num))
    · rename_i hlower
      refine le_trans ?_ hreview
      calc fl (bestSim * fl (40 / 100)) ≤ fl (fl (50 / 100) * fl (40 / 100)) :=
            fl_monotone (mul_le_mul_of_nonneg_right (not_le.mp hlower).le
              (hfactor _ (by norm_num)))
        _ ≤ fl (fl (75 / 100) * fl (60 / 100)) :=
            fl_monotone (mul_le_mul (fl_monotone (by norm_num)) (fl_monotone (by norm_num))
              (hfactor _ (by norm_num)) (hfactor _ (by norm_num)))

end Ulpf.SemanticMapper
