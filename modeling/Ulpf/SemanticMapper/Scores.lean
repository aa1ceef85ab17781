import Ulpf.Lib.Ascii
import Ulpf.SemanticMapper.Similarity

/-!
The score of a candidate as a function of its base and of what its bonuses depend on, and
the names in the default knowledge base.
-/

namespace Ulpf.SemanticMapper

open Ulpf.Lib
open Ulpf.Lib.Binary64 (fl fl_monotone)
open Ulpf.Python
open Ulpf.SourceProfiler

section Totals

/-- `boost`, when the bonus applies. -/
def boostWhen (applies : Bool) (bonus score : ℚ) : ℚ := if applies then boost bonus score else score

/-- What a candidate's bonuses depend on. -/
structure Traits where
  complex : Bool
  ip : Bool
  time : Bool
  enum : Bool
  family : Bool
  deriving DecidableEq

/-- The score once the types are compared. -/
def typedTotal (compatible conflict complex : Bool) (base : ℚ) : ℚ :=
  if conflict then min (fl (base - fl (35 / 100))) (fl (65 / 100))
  else if compatible then boostWhen complex (2 / 100) base
  else fl (base - fl (15 / 100))

/-- The whole of `score_candidate` from the score of the name on. -/
def total (compatible conflict : Bool) (traits : Traits) (base : ℚ) : ℚ :=
  finalScore (boostWhen traits.family (2 / 100) (boostWhen traits.enum (3 / 100)
    (boostWhen traits.time (3 / 100) (boostWhen traits.ip (3 / 100)
      (typedTotal compatible conflict traits.complex base)))))

theorem boostWhen_mono (applies : Bool) (bonus : ℚ) : Monotone (boostWhen applies bonus) := by
  cases applies with
  | true => exact boost_mono bonus
  | false => exact monotone_id

theorem typedTotal_mono (compatible conflict complex : Bool) :
    Monotone (typedTotal compatible conflict complex) := by
  intro base base' h
  rw [typedTotal, typedTotal]
  split
  · exact min_le_min_right _ (fl_monotone (sub_le_sub_right h _))
  · split
    · exact boostWhen_mono _ _ h
    · exact fl_monotone (sub_le_sub_right h _)

theorem total_mono (compatible conflict : Bool) (traits : Traits) :
    Monotone (total compatible conflict traits) := by
  intro base base' h
  refine finalScore_mono (boostWhen_mono _ _ (boostWhen_mono _ _ (boostWhen_mono _ _
    (boostWhen_mono _ _ ?_))))
  exact typedTotal_mono compatible conflict traits.complex h

/-- No canonical field of the knowledge base has two kinds of values. -/
def OneKind (traits : Traits) : Prop :=
  traits.ip.toNat + traits.time.toNat + traits.enum.toNat ≤ 1

instance (traits : Traits) : Decidable (OneKind traits) := inferInstanceAs (Decidable (_ ≤ _))

/-- What a name that is only similar can score before the type is known. -/
def similarBase : ℚ := fl (1 * fl (88 / 100))

theorem total_table : ∀ compatible conflict complex ip time enum family,
    (OneKind ⟨complex, ip, time, enum, family⟩ →
      total compatible conflict ⟨complex, ip, time, enum, family⟩ (fl (nearMiss * fl (88 / 100))) <
        autoAcceptThreshold ∧
      total compatible conflict ⟨complex, ip, time, enum, family⟩ similarBase ≤
        autoAcceptThreshold ∧
      (total compatible conflict ⟨complex, ip, time, enum, family⟩ similarBase =
          autoAcceptThreshold ↔
        (compatible && !conflict && complex && (ip || time || enum) && family) = true) ∧
      ∀ exact : Bool, autoAcceptThreshold ≤
          total compatible conflict ⟨complex, ip, time, enum, family⟩
            (if exact then 1 else fl (98 / 100)) ↔
        compatible = true ∧ conflict = false) ∧
    (∀ family', total true false ⟨complex, false, false, false, family⟩ (fl (98 / 100)) =
        total true false ⟨complex, false, false, false, family'⟩ (fl (98 / 100)) ↔
      complex = true ∨ family = family') ∧
    autoAcceptThreshold < total true false ⟨complex, ip, time, enum, family⟩ (fl (98 / 100)) := by
  decide +kernel

theorem total_nearMiss_lt (compatible conflict : Bool) (traits : Traits) (h : OneKind traits) :
    total compatible conflict traits (fl (nearMiss * fl (88 / 100))) < autoAcceptThreshold :=
  ((total_table compatible conflict _ _ _ _ _).1 h).1

theorem total_similar_le (compatible conflict : Bool) (traits : Traits) (h : OneKind traits) :
    total compatible conflict traits similarBase ≤ autoAcceptThreshold :=
  ((total_table compatible conflict _ _ _ _ _).1 h).2.1

theorem total_similar_eq_iff (compatible conflict : Bool) (traits : Traits) (h : OneKind traits) :
    total compatible conflict traits similarBase = autoAcceptThreshold ↔
      (compatible && !conflict && traits.complex && (traits.ip || traits.time || traits.enum) &&
        traits.family) = true :=
  ((total_table compatible conflict _ _ _ _ _).1 h).2.2.1

example : total true false ⟨true, true, false, false, true⟩ similarBase = autoAcceptThreshold ∧
    total true false ⟨true, true, false, false, false⟩ similarBase ≠ autoAcceptThreshold := by
  decide +kernel

theorem le_total_named_iff (compatible conflict : Bool) (traits : Traits) (h : OneKind traits)
    (exact : Bool) :
    autoAcceptThreshold ≤ total compatible conflict traits (if exact then 1 else fl (98 / 100)) ↔
      compatible = true ∧ conflict = false :=
  ((total_table compatible conflict _ _ _ _ _).1 h).2.2.2 exact

theorem total_alias_eq_iff (complex family family' : Bool) :
    total true false ⟨complex, false, false, false, family⟩ (fl (98 / 100)) =
        total true false ⟨complex, false, false, false, family'⟩ (fl (98 / 100)) ↔
      complex = true ∨ family = family' :=
  (total_table true false complex false false false family).2.1 family'

theorem similar_lt_total_alias (traits : Traits) :
    autoAcceptThreshold < total true false traits (fl (98 / 100)) :=
  (total_table true false _ _ _ _ _).2.2

end Totals

section Names

/-- The characters of a text that its normalised form is made of. -/
def squeezedChars (cs : List Char) : List Char := cs.filter fun c => c.isLower || Text.isDigit c

def squeezed (s : String) : List Char := squeezedChars s.toList

/-- A short ASCII text without capitals and blanks, by its characters. -/
def plainChars (cs : List Char) : Bool :=
  cs.length < 100 && cs.all fun c => c.toNat < 128 && Text.asciiLower c = c && !isSpace c

def isPlain (s : String) : Bool := plainChars s.toList

/-- The names that a canonical field goes by. -/
def names (defn : CanonicalFieldDefinition) : List (List Char) :=
  (defn.path :: defn.aliases).map squeezed

/-- The texts of the knowledge base are ASCII, so their characters are their bytes. -/
theorem ascii_definitions : ∀ defn ∈ definitions, ∀ s ∈ defn.path :: defn.aliases,
    (Ascii.isAscii s && plainChars (Ascii.chars s)) = true := by
  decide +kernel

example : isPlain "source.ip" = true ∧ isPlain "Source IP" = false := by decide +kernel

variable {u : Unicode} {s : String}

theorem lower_of_isPlain (h : isPlain s = true) : lower u s = s := by
  simp only [isPlain, plainChars, Bool.and_eq_true, List.all_eq_true, decide_eq_true_eq] at h
  rw [lower, Text.onChars, u.lowerText_ascii _ fun c hc => (h.2 c hc).1.1,
    List.map_congr_left fun c hc => (h.2 c hc).1.2, List.map_id', String.ofList_toList]

theorem strip_of_isPlain (h : isPlain s = true) : strip s = s := by
  simp only [isPlain, plainChars, Bool.and_eq_true, List.all_eq_true, Bool.not_eq_true'] at h
  rw [strip, Text.onChars, Text.trim_eq_self_of_forall fun c hc => (h.2 c hc).2,
    String.ofList_toList]

theorem squeeze_of_isPlain (h : isPlain s = true) : squeeze u s = String.ofList (squeezed s) := by
  rw [squeeze, lower_of_isPlain h, squeezed, squeezedChars]

theorem normalizeName_of_isPlain (h : isPlain s = true) :
    normalizeName u s = String.ofList (squeezed s) := by
  rw [normalizeName, strip_of_isPlain h, squeeze_of_isPlain h]

theorem length_squeezed_lt (h : isPlain s = true) : (squeezed s).length < 100 := by
  rw [isPlain, plainChars, Bool.and_eq_true, decide_eq_true_eq] at h
  exact (List.length_filter_le _ _).trans_lt h.1

variable {canonicalDefn : CanonicalFieldDefinition} {rawField : String}

theorem toList_of_mem (hdefn : canonicalDefn ∈ definitions) {s : String}
    (hs : s ∈ canonicalDefn.path :: canonicalDefn.aliases) : s.toList = Ascii.chars s :=
  Ascii.toList_eq (Bool.and_eq_true_iff.mp (ascii_definitions canonicalDefn hdefn s hs)).1

theorem isPlain_name (hdefn : canonicalDefn ∈ definitions) {s : String}
    (hs : s ∈ canonicalDefn.path :: canonicalDefn.aliases) : isPlain s = true := by
  rw [isPlain, toList_of_mem hdefn hs]
  exact (Bool.and_eq_true_iff.mp (ascii_definitions canonicalDefn hdefn s hs)).2

/-- The characters of the last part of a path. -/
def leafChars (cs : List Char) : List Char := ((Text.splitOn ['.'] cs).getLast?).getD []

theorem toList_leafTarget (path : String) : (leafTarget path).toList = leafChars path.toList := by
  rw [leafTarget, String.toList_ofList]
  rfl

theorem leafChars_subset (cs : List Char) :
    leafChars cs ⊆ cs ∧ (leafChars cs).length ≤ cs.length := by
  rw [leafChars, Text.splitOn_singleton]
  have hne := List.splitOn_ne_nil '.' cs
  have hlast := List.getLast_mem hne
  have hcount := Text.length_splitOn '.' cs
  have hparts := List.length_pos_iff.mpr hne
  have hpart : ((cs.splitOn '.').getLast hne).length ≤ (cs.splitOn '.').flatten.length :=
    (List.sublist_flatten_of_mem hlast).length_le
  rw [List.getLast?_eq_some_getLast hne, Option.getD_some]
  exact ⟨(Text.not_mem_of_mem_splitOn _ hlast).2, by omega⟩

theorem isPlain_of_mem (hdefn : canonicalDefn ∈ definitions) {s : String}
    (hs : s ∈ leafTarget canonicalDefn.path :: canonicalDefn.path :: canonicalDefn.aliases) :
    isPlain s = true := by
  obtain rfl | hmem := List.mem_cons.mp hs
  · have hpath := isPlain_name hdefn List.mem_cons_self
    obtain ⟨hsub, hlength⟩ := leafChars_subset canonicalDefn.path.toList
    simp only [isPlain, plainChars, Bool.and_eq_true, decide_eq_true_eq,
      List.all_eq_true] at hpath ⊢
    rw [toList_leafTarget]
    exact ⟨hlength.trans_lt hpath.1, fun c hc => hpath.2 c (hsub hc)⟩
  · exact isPlain_name hdefn hmem

/-- The normalised form of a raw name. -/
def rawName (u : Unicode) (rawField : String) : List Char :=
  (normalizeName u (rawClean u rawField)).toList

theorem isExact_iff (hdefn : canonicalDefn ∈ definitions) :
    (isExactPath u rawField canonicalDefn || isExactAlias u rawField canonicalDefn) = true ↔
      rawName u rawField ∈ names canonicalDefn := by
  have hpath : normalizeName u canonicalDefn.path = String.ofList (squeezed canonicalDefn.path) :=
    normalizeName_of_isPlain (isPlain_of_mem hdefn (by simp))
  have halias (a : String) (ha : a ∈ canonicalDefn.aliases) :
      normalizeName u a = String.ofList (squeezed a) :=
    normalizeName_of_isPlain (isPlain_of_mem hdefn (by simp [ha]))
  have hlower : lower u canonicalDefn.path = canonicalDefn.path :=
    lower_of_isPlain (isPlain_of_mem hdefn (by simp))
  have hname (x : String) : rawName u rawField = squeezed x ↔
      normalizeName u (rawClean u rawField) = String.ofList (squeezed x) := by
    rw [rawName, ← String.toList_inj, String.toList_ofList]
  rw [names, List.map_cons, List.mem_cons, List.mem_map, Bool.or_eq_true]
  constructor
  · rintro (hexact | hexact)
    · rw [isExactPath, decide_eq_true_iff, hlower] at hexact
      rw [hname, hexact]
      exact .inl hpath
    · simp only [isExactAlias, Bool.or_eq_true, Bool.and_eq_true, decide_eq_true_eq,
        List.contains_iff_mem, List.mem_map] at hexact
      obtain (hclean | ⟨a, ha, heq⟩) | ⟨-, heq⟩ := hexact
      · exact .inr ⟨_, hclean, ((hname _).mpr (halias _ hclean)).symm⟩
      · exact .inr ⟨a, ha, ((hname a).mpr (heq.symm.trans (halias a ha))).symm⟩
      · exact .inl ((hname _).mpr (heq.trans hpath))
  · rintro (heq | ⟨a, ha, heq⟩)
    · cases hexact : isExactPath u rawField canonicalDefn with
      | true => exact .inl rfl
      | false =>
          refine .inr ?_
          rw [isExactAlias, hexact, (hname _).mp heq, hpath]
          simp
    · refine .inr ?_
      have hmem : normalizeName u (rawClean u rawField) ∈
          canonicalDefn.aliases.map (normalizeName u) :=
        List.mem_map.mpr ⟨a, ha, (halias a ha).trans ((hname a).mp heq.symm).symm⟩
      rw [isExactAlias, List.contains_iff_mem.mpr hmem]
      simp

end Names

section Registry

/-- The names of a canonical field, from the bytes of its path and its aliases. -/
def asciiNames (defn : CanonicalFieldDefinition) : List (List Char) :=
  (defn.path :: defn.aliases).map fun s => squeezedChars (Ascii.chars s)

theorem names_eq {defn : CanonicalFieldDefinition} (hdefn : defn ∈ definitions) :
    names defn = asciiNames defn := by
  refine List.map_congr_left fun s hs => ?_
  rw [← toList_of_mem hdefn hs]
  rfl

theorem squeezed_leaf {defn : CanonicalFieldDefinition} (hdefn : defn ∈ definitions) :
    squeezed (leafTarget defn.path) = squeezedChars (leafChars (Ascii.chars defn.path)) := by
  rw [← toList_of_mem hdefn List.mem_cons_self, ← toList_leafTarget]
  rfl

/-- The one name that two canonical fields share. -/
def responseCode : List Char := "responsecode".toList

theorem filter_responseCode :
    (definitions.filter fun defn => (asciiNames defn).contains responseCode) =
      [httpStatusCode, dnsResponseCode] := by
  decide +kernel

theorem eq_of_responseCode {defn : CanonicalFieldDefinition} (hdefn : defn ∈ definitions)
    (hname : responseCode ∈ names defn) : defn = httpStatusCode ∨ defn = dnsResponseCode := by
  have hmem : defn ∈ definitions.filter fun defn => (asciiNames defn).contains responseCode := by
    rw [List.mem_filter, List.contains_iff_mem, ← names_eq hdefn]
    exact ⟨hdefn, hname⟩
  rw [filter_responseCode] at hmem
  simpa using hmem

/-- A place for a text in a bit set; no two names of the knowledge base meet in one. -/
def place (cs : List Char) : ℕ := cs.foldl (fun n c => 128 * n + c.toNat) 0 % 2375

/-- The bit set of the names of a canonical field, but the shared one. -/
def marks (defn : CanonicalFieldDefinition) : ℕ :=
  ((asciiNames defn).filter (· ≠ responseCode)).foldr (fun cs bits => 1 <<< place cs ||| bits) 0

theorem pairwise_marks : definitions.Pairwise fun a b => marks a &&& marks b = 0 := by
  decide +kernel

example : marks httpStatusCode ≠ 0 := by decide +kernel

theorem testBit_marks {defn : CanonicalFieldDefinition} {name : List Char}
    (hname : name ∈ asciiNames defn) (hne : name ≠ responseCode) :
    (marks defn).testBit (place name) = true := by
  rw [marks]
  have hmem : name ∈ (asciiNames defn).filter (· ≠ responseCode) := by
    rw [List.mem_filter, decide_eq_true_eq]
    exact ⟨hname, hne⟩
  generalize (asciiNames defn).filter (· ≠ responseCode) = rest at hmem
  induction rest with
  | nil => cases hmem
  | cons cs rest ih =>
      rw [List.foldr_cons, Nat.testBit_or, Bool.or_eq_true]
      obtain rfl | hrest := List.mem_cons.mp hmem
      · left
        rw [Nat.one_shiftLeft, Nat.testBit_two_pow_self]
      · exact .inr (ih hrest)

/-- The types whose values are easy to tell. -/
def complexTypes : List String := ["ipv4", "ipv6", "timestamp", "email", "url"]

/-- The paths of the canonical fields with enumerated values. -/
def enumPaths : List String := ["event.action", "event.outcome", "network.protocol"]

/-- A canonical field is for addresses. -/
def expectsIp (defn : CanonicalFieldDefinition) : Bool :=
  defn.expectedTypes.contains "ipv4" || defn.expectedTypes.contains "ip"

def expectsTime (defn : CanonicalFieldDefinition) : Bool :=
  defn.expectedTypes.contains "timestamp"

def expectsEnum (defn : CanonicalFieldDefinition) : Bool := enumPaths.contains defn.path

theorem registry_table : ∀ defn ∈ definitions,
    "ip".toList ∉ asciiNames defn ∧
    (expectsIp defn).toNat + (expectsTime defn).toNat + (expectsEnum defn).toNat ≤ 1 ∧
    (squeezedChars (leafChars (Ascii.chars defn.path)) ∈ asciiNames defn ∨
      (expectsIp defn || expectsTime defn || expectsEnum defn) = false ∨
      defn.expectedTypes = ["ipv4", "ipv6", "ip"] ∧ defn.eventFamilies = allEventFamilies ∧
        squeezedChars (leafChars (Ascii.chars defn.path)) = "ip".toList) ∧
    squeezedChars (leafChars (Ascii.chars defn.path)) ≠ [] := by
  decide +kernel

example : leafChars (Ascii.chars srcIp.path) = "ip".toList := by decide +kernel

theorem ip_not_mem_names {defn : CanonicalFieldDefinition} (hdefn : defn ∈ definitions) :
    "ip".toList ∉ names defn := by
  rw [names_eq hdefn]
  exact (registry_table defn hdefn).1

theorem shared_name {defn defn' : CanonicalFieldDefinition} (hdefn : defn ∈ definitions)
    (hdefn' : defn' ∈ definitions) (hne : defn.path ≠ defn'.path) {name : List Char}
    (hname : name ∈ names defn) (hname' : name ∈ names defn') :
    name = responseCode ∧ (defn = httpStatusCode ∧ defn' = dnsResponseCode ∨
      defn = dnsResponseCode ∧ defn' = httpStatusCode) := by
  have hshared : name = responseCode := by
    by_contra hother
    have hdisjoint : marks defn &&& marks defn' = 0 := by
      have hsymm : Std.Symm fun a b : CanonicalFieldDefinition => marks a &&& marks b = 0 :=
        ⟨fun a b hab => (Nat.and_comm _ _).trans hab⟩
      refine pairwise_marks.forall hdefn hdefn' ?_
      rintro rfl
      exact hne rfl
    have hbit := testBit_marks (names_eq hdefn ▸ hname) hother
    have hbit' := testBit_marks (names_eq hdefn' ▸ hname') hother
    have hzero : (marks defn &&& marks defn').testBit (place name) = false := by
      rw [hdisjoint, Nat.zero_testBit]
    rw [Nat.testBit_and, hbit, hbit'] at hzero
    cases hzero
  subst hshared
  refine ⟨rfl, ?_⟩
  obtain rfl | rfl := eq_of_responseCode hdefn hname
  · obtain rfl | rfl := eq_of_responseCode hdefn' hname'
    · exact absurd rfl hne
    · exact .inl ⟨rfl, rfl⟩
  · obtain rfl | rfl := eq_of_responseCode hdefn' hname'
    · exact .inr ⟨rfl, rfl⟩
    · exact absurd rfl hne

theorem responseCode_http :
    responseCode ∈ names httpStatusCode ∧ squeezed httpStatusCode.path ≠ responseCode := by
  decide +kernel

theorem responseCode_dns :
    responseCode ∈ names dnsResponseCode ∧ squeezed dnsResponseCode.path ≠ responseCode := by
  decide +kernel

theorem squeezed_leaf_ip : squeezed (leafTarget srcIp.path) = "ip".toList ∧
    squeezed (leafTarget dstIp.path) = "ip".toList := by
  decide +kernel

example : rawName Unicode.ascii " Response-Code" = responseCode := by decide +kernel

theorem oneKind_definitions : ∀ defn ∈ definitions,
    (expectsIp defn).toNat + (expectsTime defn).toNat + (expectsEnum defn).toNat ≤ 1 :=
  fun defn hdefn => (registry_table defn hdefn).2.1

/-- A canonical field whose last part is not among its names is of no special kind or an IP
address. -/
theorem leaf_definitions {defn : CanonicalFieldDefinition} (hdefn : defn ∈ definitions) :
    squeezed (leafTarget defn.path) ∈ names defn ∨
      (expectsIp defn || expectsTime defn || expectsEnum defn) = false ∨
      defn.expectedTypes = ["ipv4", "ipv6", "ip"] ∧ defn.eventFamilies = allEventFamilies ∧
        squeezed (leafTarget defn.path) = "ip".toList := by
  rw [names_eq hdefn, squeezed_leaf hdefn]
  exact (registry_table defn hdefn).2.2.1

theorem squeezed_ne_nil {defn : CanonicalFieldDefinition} (hdefn : defn ∈ definitions) :
    squeezed (leafTarget defn.path) ≠ [] := by
  rw [squeezed_leaf hdefn]
  exact (registry_table defn hdefn).2.2.2

end Registry

section Scores

variable {u : Unicode} {similarity : String → String → ℚ} {rawField : String}
  {fieldProfile : FieldProfile} {canonicalDefn : CanonicalFieldDefinition}
  {eventFamily : Option String}

/-- What the score of a mapping depends on, apart from the names. -/
def traitsOf (fieldProfile : FieldProfile) (canonicalDefn : CanonicalFieldDefinition)
    (eventFamily : Option String) : Traits where
  complex := complexTypes.contains fieldProfile.inferredType
  ip := fieldProfile.isIpCandidate && expectsIp canonicalDefn
  time := fieldProfile.isTimestampCandidate && expectsTime canonicalDefn
  enum := fieldProfile.isEnumCandidate && expectsEnum canonicalDefn
  family := eventFamily.getD "" ≠ "" &&
    canonicalDefn.eventFamilies.contains (eventFamily.getD "")

theorem oneKind_traitsOf (hdefn : canonicalDefn ∈ definitions) :
    OneKind (traitsOf fieldProfile canonicalDefn eventFamily) := by
  refine le_trans ?_ (oneKind_definitions canonicalDefn hdefn)
  refine Nat.add_le_add (Nat.add_le_add ?_ ?_) ?_
  all_goals exact Bool.toNat_le_toNat fun h => (Bool.and_eq_true_iff.mp h).2

theorem foldl_bonusWhen (applies : Bool) (bonus score : ℚ) (note : String) :
    (bonusWhen applies bonus note).foldl (fun score bonus => boost bonus.1 score) score =
      boostWhen applies bonus score := by
  cases applies <;> rfl

theorem fst_typedScore (rawType : String) (expectedTypes : List String)
    (compatibility : Bool × Bool) (base : ℚ) :
    (typedScore u rawType expectedTypes compatibility base).1 =
      typedTotal compatibility.1 compatibility.2 (complexTypes.contains rawType) base := by
  obtain ⟨compatible, conflict⟩ := compatibility
  cases conflict <;> cases compatible <;> rfl

theorem mappingScore_eq :
    (scoreCandidate u similarity rawField fieldProfile canonicalDefn eventFamily).mappingScore =
      total
        (evaluateTypeCompatibility u fieldProfile.inferredType canonicalDefn.expectedTypes
          (some fieldProfile)).1
        (evaluateTypeCompatibility u fieldProfile.inferredType canonicalDefn.expectedTypes
          (some fieldProfile)).2
        (traitsOf fieldProfile canonicalDefn eventFamily)
        (lexicalScore u similarity rawField canonicalDefn).1 := by
  dsimp only [scoreCandidate]
  rw [bonuses, List.foldl_append, List.foldl_append, List.foldl_append, foldl_bonusWhen,
    foldl_bonusWhen, foldl_bonusWhen, foldl_bonusWhen, fst_typedScore]
  rfl

theorem rawName_of_isExactPath (hdefn : canonicalDefn ∈ definitions)
    (h : isExactPath u rawField canonicalDefn = true) :
    rawName u rawField = squeezed canonicalDefn.path := by
  have hplain := isPlain_of_mem hdefn
    (List.mem_cons_of_mem (leafTarget canonicalDefn.path) List.mem_cons_self)
  rw [isExactPath, decide_eq_true_iff, lower_of_isPlain hplain] at h
  rw [rawName, h, normalizeName_of_isPlain hplain, String.toList_ofList]

theorem fst_lexicalScore_of_mem (hdefn : canonicalDefn ∈ definitions)
    (hname : rawName u rawField ∈ names canonicalDefn) :
    (lexicalScore u similarity rawField canonicalDefn).1 =
      if isExactPath u rawField canonicalDefn then 1 else fl (98 / 100) := by
  have hexact := (isExact_iff hdefn).mpr hname
  rw [lexicalScore]
  split
  · rfl
  · rename_i hpath
    rw [Bool.not_eq_true] at hpath
    rw [hpath, Bool.false_or] at hexact
    rw [if_pos hexact]

theorem fst_lexicalScore_of_not_mem (hdefn : canonicalDefn ∈ definitions)
    (hname : rawName u rawField ∉ names canonicalDefn) :
    (lexicalScore u similarity rawField canonicalDefn).1 =
      similarityScore (bestSimilarity u similarity rawField canonicalDefn) := by
  rw [← isExact_iff hdefn, Bool.or_eq_true, not_or] at hname
  rw [lexicalScore, if_neg hname.1, if_neg hname.2]

end Scores

end Ulpf.SemanticMapper
