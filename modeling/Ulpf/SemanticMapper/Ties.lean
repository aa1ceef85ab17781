import Ulpf.SemanticMapper.Scores
import Ulpf.SemanticMapper.TypeChecks

/-!
Two canonical fields with the same best score. Over the default knowledge base the mapper
accepts such a tie for two kinds of fields only, and then takes the one registered first.
-/

namespace Ulpf.SemanticMapper

open Ulpf.Lib
open Ulpf.Lib.Binary64 (fl fl_one fl_monotone)
open Ulpf.Python
open Ulpf.SourceProfiler

section Similar

variable {u : Unicode} {rawField : String} {fieldProfile : FieldProfile}
  {canonicalDefn : CanonicalFieldDefinition} {eventFamily : Option String}

theorem strip_strip (s : String) : strip (strip s) = strip s := by
  rw [strip, strip, Text.onChars, Text.onChars, String.toList_ofList, Text.trim_trim]

/-- Lower case neither adds nor takes away blanks at the ends of a text, so the two normal
forms of a raw name agree. -/
theorem squeeze_rawClean (hlower : ∀ s, strip (lower u s) = lower u (strip s)) (rawField : String) :
    squeeze u (rawClean u rawField) = String.ofList (rawName u rawField) := by
  rw [rawName, String.ofList_toList, normalizeName, rawClean, hlower, strip_strip]

theorem bestSimilarity_le_one (rawField : String) (canonicalDefn : CanonicalFieldDefinition) :
    bestSimilarity u (computeLexicalSimilarity u) rawField canonicalDefn ≤ 1 :=
  bestSimilarity_le zero_le_one computeLexicalSimilarity_le_one
    fun _ _ => computeLexicalSimilarity_le_one

variable (hlower : ∀ s, strip (lower u s) = lower u (strip s))
  (hdefn : canonicalDefn ∈ definitions)

include hlower hdefn

theorem computeLexicalSimilarity_le_of_ne {target : String}
    (htarget : target ∈
      leafTarget canonicalDefn.path :: canonicalDefn.path :: canonicalDefn.aliases)
    (hne : rawName u rawField ≠ squeezed target) :
    computeLexicalSimilarity u (rawClean u rawField) target ≤ nearMiss := by
  have hplain := isPlain_of_mem hdefn htarget
  apply computeLexicalSimilarity_le_nearMiss
  · rw [squeeze_of_isPlain hplain, String.toList_ofList]
    exact length_squeezed_lt hplain
  · rw [squeeze_rawClean hlower, squeeze_of_isPlain hplain]
    exact fun h => hne (String.ofList_injective h)

theorem bestSimilarity_le_nearMiss (hname : rawName u rawField ∉ names canonicalDefn)
    (hleaf : rawName u rawField ≠ squeezed (leafTarget canonicalDefn.path)) :
    bestSimilarity u (computeLexicalSimilarity u) rawField canonicalDefn ≤ nearMiss := by
  refine bestSimilarity_le nearMiss_nonneg ?_ fun a ha => ?_
  · exact computeLexicalSimilarity_le_of_ne hlower hdefn List.mem_cons_self hleaf
  · refine computeLexicalSimilarity_le_of_ne hlower hdefn (by simp [ha]) fun heq => hname ?_
    exact List.mem_map.mpr ⟨a, List.mem_cons_of_mem _ ha, heq.symm⟩

theorem bestSimilarity_eq_one
    (hleaf : rawName u rawField = squeezed (leafTarget canonicalDefn.path)) :
    bestSimilarity u (computeLexicalSimilarity u) rawField canonicalDefn = 1 := by
  have hplain := isPlain_of_mem hdefn (List.mem_cons_self (l := canonicalDefn.path ::
    canonicalDefn.aliases) (a := leafTarget canonicalDefn.path))
  refine le_antisymm (bestSimilarity_le_one rawField canonicalDefn) ?_
  rw [bestSimilarity]
  refine le_max_of_le_left (computeLexicalSimilarity_eq_one ?_ ?_).ge
  · rw [squeeze_of_isPlain hplain, ← String.toList_inj.ne, String.toList_ofList]
    exact squeezed_ne_nil hdefn
  · rw [squeeze_rawClean hlower, squeeze_of_isPlain hplain, hleaf]

end Similar

theorem similarityScore_one : similarityScore 1 = similarBase := by decide +kernel

section Accepted

variable {u : Unicode} {fieldProfile : FieldProfile}
  {canonicalDefn : CanonicalFieldDefinition} {eventFamily : Option String}

/-- The score of a canonical field for a raw field. -/
def score (u : Unicode) (fieldProfile : FieldProfile) (eventFamily : Option String)
    (canonicalDefn : CanonicalFieldDefinition) : ℚ :=
  (scoreCandidate u (computeLexicalSimilarity u) fieldProfile.name fieldProfile canonicalDefn
    eventFamily).mappingScore

/-- The types of a raw field and of a canonical field fit. -/
def Fits (u : Unicode) (fieldProfile : FieldProfile) (canonicalDefn : CanonicalFieldDefinition) :
    Prop :=
  evaluateTypeCompatibility u fieldProfile.inferredType canonicalDefn.expectedTypes
    (some fieldProfile) = (true, false)

theorem le_score_named_iff (hdefn : canonicalDefn ∈ definitions)
    (hname : rawName u fieldProfile.name ∈ names canonicalDefn) :
    autoAcceptThreshold ≤ score u fieldProfile eventFamily canonicalDefn ↔
      Fits u fieldProfile canonicalDefn := by
  rw [score, mappingScore_eq, fst_lexicalScore_of_mem hdefn hname,
    le_total_named_iff _ _ _ (oneKind_traitsOf hdefn), Fits, Prod.ext_iff]

section Unnamed

variable (hlower : ∀ s, strip (lower u s) = lower u (strip s))
  (hdefn : canonicalDefn ∈ definitions)
  (hname : rawName u fieldProfile.name ∉ names canonicalDefn)

include hdefn hname

theorem score_unnamed_le :
    score u fieldProfile eventFamily canonicalDefn ≤ autoAcceptThreshold := by
  rw [score, mappingScore_eq, fst_lexicalScore_of_not_mem hdefn hname]
  refine (total_mono _ _ _ ?_).trans (total_similar_le _ _ _ (oneKind_traitsOf hdefn))
  exact similarityScore_le (bestSimilarity_le_one _ _) ((fl_monotone (by norm_num)).trans_eq fl_one)

include hlower

theorem eq_of_score_unnamed
    (hscore : score u fieldProfile eventFamily canonicalDefn = autoAcceptThreshold) :
    Fits u fieldProfile canonicalDefn ∧ fieldProfile.isIpCandidate = true ∧
      fieldProfile.inferredType ∈ complexTypes ∧ (∃ f ∈ allEventFamilies, eventFamily = some f) ∧
      canonicalDefn.expectedTypes = ["ipv4", "ipv6", "ip"] ∧
      rawName u fieldProfile.name = "ip".toList := by
  have hkind : OneKind (traitsOf fieldProfile canonicalDefn eventFamily) := oneKind_traitsOf hdefn
  have hleaf : rawName u fieldProfile.name = squeezed (leafTarget canonicalDefn.path) := by
    by_contra hne
    have hlow := total_mono
      (evaluateTypeCompatibility u fieldProfile.inferredType canonicalDefn.expectedTypes
        (some fieldProfile)).1
      (evaluateTypeCompatibility u fieldProfile.inferredType canonicalDefn.expectedTypes
        (some fieldProfile)).2
      (traitsOf fieldProfile canonicalDefn eventFamily)
      (similarityScore_le (bestSimilarity_le_nearMiss hlower hdefn hname hne)
        (fl_monotone (by norm_num)))
    rw [← fst_lexicalScore_of_not_mem hdefn hname, ← mappingScore_eq] at hlow
    exact absurd hscore (hlow.trans_lt (total_nearMiss_lt _ _ _ hkind)).ne
  rw [score, mappingScore_eq, fst_lexicalScore_of_not_mem hdefn hname,
    bestSimilarity_eq_one hlower hdefn hleaf, similarityScore_one,
    total_similar_eq_iff _ _ _ hkind] at hscore
  simp only [Bool.and_eq_true, Bool.not_eq_true'] at hscore
  obtain ⟨⟨⟨⟨hcompatible, hconflict⟩, hcomplex⟩, hshape⟩, hfamily⟩ := hscore
  obtain hknown | hplain | ⟨htypes, hfamilies, hip⟩ := leaf_definitions hdefn
  · exact absurd (hleaf ▸ hknown) hname
  · simp only [Bool.or_eq_false_iff] at hplain
    simp [traitsOf, hplain.1.1, hplain.1.2, hplain.2] at hshape
  · have hexpects : expectsIp canonicalDefn = true := by rw [expectsIp, htypes]; decide
    have hone := oneKind_definitions canonicalDefn hdefn
    rw [hexpects] at hone
    have htime : expectsTime canonicalDefn = false := by rw [expectsTime, htypes]; decide
    have henum : expectsEnum canonicalDefn = false := by
      cases henum : expectsEnum canonicalDefn with
      | false => rfl
      | true => simp [henum] at hone
    refine ⟨Prod.ext hcompatible hconflict, ?_, List.contains_iff_mem.mp hcomplex, ?_, htypes,
      hleaf.trans hip⟩
    · simpa [traitsOf, hexpects, htime, henum] using hshape
    · simp only [traitsOf, hfamilies, Bool.and_eq_true, List.contains_iff_mem] at hfamily
      cases eventFamily with
      | none => exact absurd hfamily.1 (by decide)
      | some f => exact ⟨f, hfamily.2, rfl⟩

end Unnamed

end Accepted

section Types

variable {u : Unicode} {fieldProfile : FieldProfile} {canonicalDefn : CanonicalFieldDefinition}

/-- The values of a field pass for integers, as far as the mapper looks at them. -/
def ReadsAsInteger (u : Unicode) (fieldProfile : FieldProfile) : Prop :=
  fieldProfile.inferredType = "null" ∨ fieldProfile.inferredType = "integer" ∨
    fieldProfile.inferredType ∈
        ["string", "ipv4", "ipv6", "timestamp", "email", "url", "json", "array"] ∧
      fieldProfile.sampleValues ≠ [] ∧ Returns (allIntegers u fieldProfile.sampleValues)

theorem sampleCompatibility_eq_iff (samples : List PyVal) :
    sampleCompatibility u samples = (true, false) ↔
      samples ≠ [] ∧ Returns (allIntegers u samples) := by
  obtain ⟨hcheck, hpasses⟩ | ⟨hcheck, hfails⟩ := sampleCompatibility_eq (u := u) samples
  · exact iff_of_true hcheck hpasses
  · exact iff_of_false (by rw [hcheck]; simp) hfails

theorem fits_httpStatusCode_iff :
    Fits u fieldProfile httpStatusCode ↔ ReadsAsInteger u fieldProfile := by
  have htypes : httpStatusCode.expectedTypes = ["integer"] := rfl
  have hsamples := sampleCompatibility_eq_iff (u := u) fieldProfile.sampleValues
  rw [Fits, htypes, ReadsAsInteger, ← hsamples]
  generalize fieldProfile.inferredType = rawType
  by_cases hlisted : rawType ∈
      ["string", "ipv4", "ipv6", "timestamp", "email", "url", "json", "array"]
  · simp only [List.mem_cons, List.not_mem_nil, or_false] at hlisted
    obtain rfl | rfl | rfl | rfl | rfl | rfl | rfl | rfl := hlisted
    all_goals simp [evaluateTypeCompatibility]
  · by_cases hnull : rawType = "null"
    · simp [evaluateTypeCompatibility, hnull]
    · by_cases hinteger : rawType = "integer"
      · simp [evaluateTypeCompatibility, hinteger]
      · simp [evaluateTypeCompatibility, hnull, hinteger, hlisted]

theorem fits_dnsResponseCode (h : ReadsAsInteger u fieldProfile) :
    Fits u fieldProfile dnsResponseCode := by
  have htypes : dnsResponseCode.expectedTypes = ["string", "integer"] := rfl
  have hsamples := sampleCompatibility_eq_iff (u := u) fieldProfile.sampleValues
  rw [ReadsAsInteger, ← hsamples] at h
  rw [Fits, htypes]
  generalize fieldProfile.inferredType = rawType at *
  obtain rfl | rfl | ⟨hlisted, hcheck⟩ := h
  · simp [evaluateTypeCompatibility]
  · simp [evaluateTypeCompatibility]
  · simp only [List.mem_cons, List.not_mem_nil, or_false] at hlisted
    obtain rfl | rfl | rfl | rfl | rfl | rfl | rfl | rfl := hlisted
    all_goals simp [evaluateTypeCompatibility, hcheck]

theorem eq_of_fits_ip (htypes : canonicalDefn.expectedTypes = ["ipv4", "ipv6", "ip"])
    (hcomplex : fieldProfile.inferredType ∈ complexTypes) (h : Fits u fieldProfile canonicalDefn) :
    fieldProfile.inferredType = "ipv4" ∨ fieldProfile.inferredType = "ipv6" := by
  rw [Fits, htypes] at h
  generalize fieldProfile.inferredType = rawType at *
  simp only [complexTypes, List.mem_cons, List.not_mem_nil, or_false] at hcomplex
  obtain rfl | rfl | rfl | rfl | rfl := hcomplex
  · exact .inl rfl
  · exact .inr rfl
  all_goals simp [evaluateTypeCompatibility] at h

theorem fits_ip (htypes : canonicalDefn.expectedTypes = ["ipv4", "ipv6", "ip"])
    (h : fieldProfile.inferredType = "ipv4" ∨ fieldProfile.inferredType = "ipv6") :
    Fits u fieldProfile canonicalDefn := by
  rw [Fits, htypes]
  obtain htype | htype := h
  all_goals rw [htype]; simp [evaluateTypeCompatibility]

end Types

section Ties

variable {u : Unicode} {fieldProfile : FieldProfile} {eventFamily : Option String}

/-- Two canonical fields share the best score for a raw field. -/
def Tied (u : Unicode) (fieldProfile : FieldProfile) (eventFamily : Option String) : Prop :=
  ∃ defn ∈ definitions, ∃ defn' ∈ definitions, defn.path ≠ defn'.path ∧
    score u fieldProfile eventFamily defn = score u fieldProfile eventFamily defn' ∧
    ∀ other ∈ definitions,
      score u fieldProfile eventFamily other ≤ score u fieldProfile eventFamily defn

/-- The raw fields that the knowledge base cannot tell apart: response codes that pass for
integers, of no family that favours one of the two, and addresses without a side. -/
def Ambiguous (u : Unicode) (fieldProfile : FieldProfile) (eventFamily : Option String) : Prop :=
  rawName u fieldProfile.name = "responsecode".toList ∧ ReadsAsInteger u fieldProfile ∧
      (fieldProfile.inferredType ∈ complexTypes ∨
        eventFamily ≠ some "WEB_SESSION" ∧ eventFamily ≠ some "DNS_ACTIVITY") ∨
    rawName u fieldProfile.name = "ip".toList ∧ fieldProfile.isIpCandidate = true ∧
      (fieldProfile.inferredType = "ipv4" ∨ fieldProfile.inferredType = "ipv6") ∧
      ∃ family ∈ allEventFamilies, eventFamily = some family

section Codes

theorem http_mem : httpStatusCode ∈ definitions := by decide

theorem dns_mem : dnsResponseCode ∈ definitions := by decide

variable (hname : rawName u fieldProfile.name = responseCode)

include hname

theorem score_responseCode {defn : CanonicalFieldDefinition} (hdefn : defn ∈ definitions)
    (hnames : responseCode ∈ names defn) (hpath : squeezed defn.path ≠ responseCode)
    (hkind : (expectsIp defn || expectsTime defn || expectsEnum defn) = false)
    (hfits : Fits u fieldProfile defn) :
    score u fieldProfile eventFamily defn =
      total true false ⟨complexTypes.contains fieldProfile.inferredType, false, false, false,
        (traitsOf fieldProfile defn eventFamily).family⟩ (fl (98 / 100)) := by
  have hexact : isExactPath u fieldProfile.name defn = false := by
    rw [← Bool.not_eq_true]
    intro h
    exact hpath ((rawName_of_isExactPath hdefn h).symm.trans hname)
  simp only [Bool.or_eq_false_iff] at hkind
  rw [score, mappingScore_eq, fst_lexicalScore_of_mem hdefn (hname ▸ hnames), hexact, hfits,
    traitsOf, hkind.1.1, hkind.1.2, hkind.2, Bool.and_false, Bool.and_false, Bool.and_false]
  rfl

theorem score_http (hreads : ReadsAsInteger u fieldProfile) :
    score u fieldProfile eventFamily httpStatusCode =
      total true false ⟨complexTypes.contains fieldProfile.inferredType, false, false, false,
        (traitsOf fieldProfile httpStatusCode eventFamily).family⟩ (fl (98 / 100)) :=
  score_responseCode hname http_mem responseCode_http.1 responseCode_http.2 (by decide)
    (fits_httpStatusCode_iff.mpr hreads)

theorem score_dns (hreads : ReadsAsInteger u fieldProfile) :
    score u fieldProfile eventFamily dnsResponseCode =
      total true false ⟨complexTypes.contains fieldProfile.inferredType, false, false, false,
        (traitsOf fieldProfile dnsResponseCode eventFamily).family⟩ (fl (98 / 100)) :=
  score_responseCode hname dns_mem responseCode_dns.1 responseCode_dns.2 (by decide)
    (fits_dnsResponseCode hreads)

omit hname in
theorem family_iff {defn : CanonicalFieldDefinition} {family : String}
    (hfamilies : defn.eventFamilies = [family]) (hne : family ≠ "") :
    (traitsOf fieldProfile defn eventFamily).family = true ↔ eventFamily = some family := by
  simp only [traitsOf, hfamilies, Bool.and_eq_true, decide_eq_true_eq, List.contains_iff_mem,
    List.mem_singleton]
  cases eventFamily with
  | none => exact iff_of_false (fun h => h.1 rfl) (by simp)
  | some f =>
      rw [Option.getD_some, Option.some.injEq]
      exact and_iff_right_of_imp fun h => h ▸ hne

theorem score_http_eq_dns_iff (hreads : ReadsAsInteger u fieldProfile) :
    score u fieldProfile eventFamily httpStatusCode =
        score u fieldProfile eventFamily dnsResponseCode ↔
      fieldProfile.inferredType ∈ complexTypes ∨
        eventFamily ≠ some "WEB_SESSION" ∧ eventFamily ≠ some "DNS_ACTIVITY" := by
  have hhttp : (traitsOf fieldProfile httpStatusCode eventFamily).family = true ↔
      eventFamily = some "WEB_SESSION" := family_iff rfl (by decide)
  have hdns : (traitsOf fieldProfile dnsResponseCode eventFamily).family = true ↔
      eventFamily = some "DNS_ACTIVITY" := family_iff rfl (by decide)
  rw [score_http hname hreads, score_dns hname hreads, total_alias_eq_iff, List.contains_iff_mem,
    Bool.eq_iff_iff, hhttp, hdns]
  refine or_congr_right ⟨fun h => ⟨fun hweb => ?_, fun hdns => ?_⟩, fun h => ?_⟩
  · exact absurd (hweb.symm.trans (h.mp hweb)) (by decide)
  · exact absurd (hdns.symm.trans (h.mpr hdns)) (by decide)
  · exact iff_of_false h.1 h.2

end Codes

/-- A tie above the threshold is one of the two kinds. -/
theorem ambiguous_of_tied (hlower : ∀ s, strip (lower u s) = lower u (strip s))
    {defn defn' : CanonicalFieldDefinition} (hdefn : defn ∈ definitions)
    (hdefn' : defn' ∈ definitions) (hne : defn.path ≠ defn'.path)
    (htie : score u fieldProfile eventFamily defn = score u fieldProfile eventFamily defn')
    (haccepted : autoAcceptThreshold ≤ score u fieldProfile eventFamily defn) :
    Ambiguous u fieldProfile eventFamily := by
  have haccepted' := haccepted
  rw [htie] at haccepted'
  by_cases hname : rawName u fieldProfile.name ∈ names defn
  · have hname' : rawName u fieldProfile.name ∈ names defn' := by
      by_contra hunnamed
      obtain ⟨-, -, -, -, -, hip⟩ := eq_of_score_unnamed hlower hdefn' hunnamed
        (le_antisymm (score_unnamed_le hdefn' hunnamed) haccepted')
      exact ip_not_mem_names hdefn (hip ▸ hname)
    have hfits := (le_score_named_iff hdefn hname).mp haccepted
    have hfits' := (le_score_named_iff hdefn' hname').mp haccepted'
    obtain ⟨hcode, ⟨rfl, rfl⟩ | ⟨rfl, rfl⟩⟩ := shared_name hdefn hdefn' hne hname hname'
    · have hreads := fits_httpStatusCode_iff.mp hfits
      exact .inl ⟨hcode, hreads, (score_http_eq_dns_iff hcode hreads).mp htie⟩
    · have hreads := fits_httpStatusCode_iff.mp hfits'
      exact .inl ⟨hcode, hreads, (score_http_eq_dns_iff hcode hreads).mp htie.symm⟩
  · obtain ⟨hfits, hcandidate, hcomplex, hfamily, htypes, hip⟩ :=
      eq_of_score_unnamed hlower hdefn hname (le_antisymm (score_unnamed_le hdefn hname) haccepted)
    exact .inr ⟨hip, hcandidate, eq_of_fits_ip htypes hcomplex hfits, hfamily⟩

theorem score_address (hlower : ∀ s, strip (lower u s) = lower u (strip s))
    {defn : CanonicalFieldDefinition} (hdefn : defn ∈ definitions)
    (htypes : defn.expectedTypes = ["ipv4", "ipv6", "ip"])
    (hfamilies : defn.eventFamilies = allEventFamilies)
    (hleaf : squeezed (leafTarget defn.path) = "ip".toList)
    (hip : rawName u fieldProfile.name = "ip".toList)
    (hcandidate : fieldProfile.isIpCandidate = true)
    (htype : fieldProfile.inferredType = "ipv4" ∨ fieldProfile.inferredType = "ipv6")
    (hfamily : ∃ family ∈ allEventFamilies, eventFamily = some family) :
    score u fieldProfile eventFamily defn = autoAcceptThreshold := by
  have hname : rawName u fieldProfile.name ∉ names defn := by
    rw [hip]
    exact ip_not_mem_names hdefn
  have hexpects : expectsIp defn = true := by
    rw [expectsIp, htypes]
    decide
  have hcomplex : fieldProfile.inferredType ∈ complexTypes := by
    obtain htype | htype := htype
    all_goals rw [htype]; decide
  obtain ⟨family, hmem, rfl⟩ := hfamily
  have hnonempty : family ≠ "" := by
    rintro rfl
    exact absurd hmem (by decide)
  have hfits : Fits u fieldProfile defn := fits_ip htypes htype
  rw [score, mappingScore_eq, fst_lexicalScore_of_not_mem hdefn hname,
    bestSimilarity_eq_one hlower hdefn (hip.trans hleaf.symm), similarityScore_one, hfits,
    total_similar_eq_iff _ _ _ (oneKind_traitsOf hdefn)]
  simp [traitsOf, hcomplex, hcandidate, hexpects, hfamilies, hnonempty, hmem]

theorem tied_of_ambiguous (hlower : ∀ s, strip (lower u s) = lower u (strip s))
    (h : Ambiguous u fieldProfile eventFamily) :
    Tied u fieldProfile eventFamily ∧
      ∃ defn ∈ definitions, autoAcceptThreshold ≤ score u fieldProfile eventFamily defn := by
  obtain ⟨hcode, hreads, hneutral⟩ | ⟨hip, hcandidate, htype, hfamily⟩ := h
  · have htie := (score_http_eq_dns_iff hcode hreads).mpr hneutral
    have habove : autoAcceptThreshold < score u fieldProfile eventFamily httpStatusCode := by
      rw [score_http hcode hreads]
      exact similar_lt_total_alias _
    refine ⟨⟨httpStatusCode, http_mem, dnsResponseCode, dns_mem, by decide, htie, ?_⟩,
      httpStatusCode, http_mem, habove.le⟩
    intro other hother
    by_cases hname : rawName u fieldProfile.name ∈ names other
    · rw [hcode] at hname
      obtain rfl | rfl := eq_of_responseCode hother hname
      · exact le_rfl
      · exact htie.ge
    · exact (score_unnamed_le hother hname).trans habove.le
  · have hscore (defn : CanonicalFieldDefinition) (hdefn : defn ∈ definitions)
        (htypes : defn.expectedTypes = ["ipv4", "ipv6", "ip"])
        (hfamilies : defn.eventFamilies = allEventFamilies)
        (hleaf : squeezed (leafTarget defn.path) = "ip".toList) :
        score u fieldProfile eventFamily defn = autoAcceptThreshold :=
      score_address hlower hdefn htypes hfamilies hleaf hip hcandidate htype hfamily
    have hsrc := hscore srcIp (by decide) rfl rfl squeezed_leaf_ip.1
    have hdst := hscore dstIp (by decide) rfl rfl squeezed_leaf_ip.2
    refine ⟨⟨srcIp, by decide, dstIp, by decide, by decide, hsrc.trans hdst.symm, ?_⟩,
      srcIp, by decide, hsrc.ge⟩
    intro other hother
    rw [hsrc]
    refine score_unnamed_le hother ?_
    rw [hip]
    exact ip_not_mem_names hother

theorem accepted_of_ambiguous (hlower : ∀ s, strip (lower u s) = lower u (strip s)) {topN : ℤ}
    (htop : 1 ≤ topN) (h : Ambiguous u fieldProfile eventFamily) :
    Tied u fieldProfile eventFamily ∧
      (mapField u (computeLexicalSimilarity u) definitions eventFamily topN
        fieldProfile).chosenMapping.reviewStatus = .autoAccepted := by
  obtain ⟨htied, defn, hdefn, haccepted⟩ := tied_of_ambiguous hlower h
  rw [reviewStatus_mapField_iff htop]
  exact ⟨htied, haccepted.trans ((decidedField_mapField htop fieldProfile).maximal defn hdefn)⟩

/-- A tie for the best score is not accepted if and only if the field is of neither of the two
kinds that the knowledge base cannot tell apart. -/
theorem tied_not_accepted_iff (hlower : ∀ s, strip (lower u s) = lower u (strip s)) {topN : ℤ}
    (htop : 1 ≤ topN) (fieldProfile : FieldProfile) (eventFamily : Option String) :
    (Tied u fieldProfile eventFamily →
      (mapField u (computeLexicalSimilarity u) definitions eventFamily topN
        fieldProfile).chosenMapping.reviewStatus ≠ .autoAccepted) ↔
    ¬ Ambiguous u fieldProfile eventFamily := by
  constructor
  · intro hrefused hambiguous
    obtain ⟨htied, haccepted⟩ := accepted_of_ambiguous hlower htop hambiguous
    exact hrefused htied haccepted
  · rintro hclear ⟨defn, hdefn, defn', hdefn', hne, htie, hmax⟩ haccepted
    rw [reviewStatus_mapField_iff htop] at haccepted
    have hdecided : DecidedField u (computeLexicalSimilarity u) definitions eventFamily
        fieldProfile (mapField u (computeLexicalSimilarity u) definitions eventFamily topN
          fieldProfile) := decidedField_mapField htop fieldProfile
    obtain ⟨best, hbest, -, hscore⟩ := hdecided.attained (by decide)
    refine hclear (ambiguous_of_tied hlower hdefn hdefn' hne htie ?_)
    exact haccepted.trans (hscore.le.trans (hmax best hbest))

theorem strip_lower_ascii (s : String) :
    strip (lower Unicode.ascii s) = lower Unicode.ascii (strip s) := by
  have hcapitals : ∀ n ∈ List.range' 65 26,
      isSpace (Text.asciiLower (Char.ofNat n)) = isSpace (Char.ofNat n) := by decide
  have hspace (c : Char) : isSpace (Text.asciiLower c) = isSpace c := by
    by_cases hcapital : 'A' ≤ c ∧ c ≤ 'Z'
    · have hlow : 65 ≤ c.toNat := hcapital.1
      have hhigh : c.toNat ≤ 90 := hcapital.2
      have hc := hcapitals c.toNat (List.mem_range'_1.mpr ⟨hlow, by omega⟩)
      rwa [Char.ofNat_toNat] at hc
    · rw [Text.asciiLower, if_neg hcapital]
  rw [strip, strip, lower, lower, Text.onChars, Text.onChars, Text.onChars, Text.onChars,
    String.toList_ofList, String.toList_ofList]
  exact congrArg String.ofList (Text.trim_map hspace s.toList)

theorem tied_not_accepted_iff_address :
    (Tied Unicode.ascii { FieldProfile.new "ip" "ipv4" with isIpCandidate := true }
        (some "FIREWALL_POLICY") →
      (mapField Unicode.ascii (computeLexicalSimilarity Unicode.ascii) definitions
        (some "FIREWALL_POLICY") 3
        { FieldProfile.new "ip" "ipv4" with
          isIpCandidate := true }).chosenMapping.reviewStatus ≠ .autoAccepted) ↔
    ¬ Ambiguous Unicode.ascii { FieldProfile.new "ip" "ipv4" with isIpCandidate := true }
        (some "FIREWALL_POLICY") :=
  tied_not_accepted_iff strip_lower_ascii (by decide) _ _

/-- The two response codes are tied for an integer field of that name, and one is accepted. -/
theorem not_tied_not_accepted_responseCode :
    ¬ ∀ (u : Unicode) (fieldProfile : FieldProfile) (eventFamily : Option String) (topN : ℤ),
      (∀ s, strip (lower u s) = lower u (strip s)) → 1 ≤ topN →
      Tied u fieldProfile eventFamily →
      (mapField u (computeLexicalSimilarity u) definitions eventFamily topN
        fieldProfile).chosenMapping.reviewStatus ≠ .autoAccepted := by
  intro hall
  have hambiguous : Ambiguous Unicode.ascii (.new "response_code" "integer") none :=
    .inl ⟨by decide +kernel, .inr (.inl rfl), .inr ⟨by decide, by decide⟩⟩
  have htop : (1 : ℤ) ≤ 3 := by decide
  obtain ⟨htied, haccepted⟩ := accepted_of_ambiguous strip_lower_ascii htop hambiguous
  exact hall Unicode.ascii _ none 3 strip_lower_ascii htop htied haccepted

end Ties

end Ulpf.SemanticMapper
