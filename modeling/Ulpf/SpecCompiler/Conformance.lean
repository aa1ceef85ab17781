import Ulpf.ParserRuntime.Loading
import Ulpf.SpecCompiler.Compiler

/-!
Whether the runtime accepts what the compiler emits. Everything but the names
of the fields is right by construction.
-/

namespace Ulpf.SpecCompiler

open Ulpf.Lib
open Ulpf.Lib.Text
open Ulpf.Python
open Ulpf.Deployment
open Ulpf.ParserRuntime

section Identifier

def isIdChar (c : Char) : Bool := isIdAlnum c || "._-".toList.contains c

theorem isIdChar_cleanChar (c : Char) : isIdChar (cleanChar c) = true := by
  rw [cleanChar]
  split
  · rename_i h
    exact h
  · decide

theorem takes_lowerDigit : Regex.Takes Regex.lowerDigit isIdAlnum :=
  (Regex.takes_char _).alt (Regex.takes_char _)

theorem takes_idChar :
    Regex.Takes (Regex.alt Regex.lowerDigit (Regex.oneOf "._-")) isIdChar :=
  takes_lowerDigit.alt (Regex.takes_char _)

theorem mem_of_mem_trim {p : Char → Bool} {s : List Char} {c : Char} (h : c ∈ trim p s) :
    c ∈ s := by
  have hinner := (List.dropWhile_sublist p).mem (List.mem_reverse.mp h)
  exact (List.dropWhile_sublist p).mem (List.mem_reverse.mp hinner)

theorem matches_cleanId (u : Unicode) (sourceId : String) :
    Schema.matchesPattern Contracts.idPattern (cleanId u sourceId) = true := by
  have hchars : ∀ c ∈ trim (· = '_') ((lower u sourceId).toList.map cleanChar),
      isIdChar c = true := by
    intro c hc
    obtain ⟨d, -, rfl⟩ := List.mem_map.mp (mem_of_mem_trim hc)
    exact isIdChar_cleanChar d
  rw [cleanId]
  split
  · decide +kernel
  · rename_i c rest heq
    rw [heq] at hchars
    split
    · rename_i halnum
      rw [Schema.matchesPattern, String.toList_ofList]
      exact Regex.fullMatch_seq_many takes_lowerDigit takes_idChar halnum
        fun d hd => hchars d (List.mem_cons_of_mem c hd)
    · rw [Schema.matchesPattern, String.toList_append, String.toList_ofList,
        String.toList_ofList]
      show Regex.fullMatch Contracts.idPattern
        ('s' :: (['o', 'u', 'r', 'c', 'e', '_'] ++ c :: rest)) = true
      refine Regex.fullMatch_seq_many takes_lowerDigit takes_idChar (by decide) ?_
      intro d hd
      rcases List.mem_append.mp hd with hprefix | hrest
      · have hfixed : ['o', 'u', 'r', 'c', 'e', '_'].all isIdChar = true := by decide
        exact List.all_eq_true.mp hfixed d hprefix
      · exact hchars d hrest

end Identifier

section Inference

variable (u : Unicode)

theorem formatOf_mem (detectedFormat : String) : formatOf u detectedFormat ∈ validFormats := by
  rw [formatOf]
  split_ifs <;> decide

theorem inferType_mem (canonicalField : String) :
    (inferType u canonicalField).1 ∈ validFieldTypes ∧
      ∀ op ∈ (inferType u canonicalField).2, op ∈ whitelistedOperations := by
  rw [inferType]
  split_ifs <;> decide

end Inference

section Fields

variable (u : Unicode)

/-- The canonical field a raw field is mapped to: by the last of its mappings. -/
def canonicalOf (mappings : List FieldMapping) (raw : String) : Option String :=
  lookup raw (mappings.map fun m => (m.rawField, m.canonicalField)).reverse

/-- A field of the compiled spec as the runtime reads it. -/
def inferredField (canonicalField : String) : FieldSpec :=
  ⟨(inferType u canonicalField).1, canonicalField, Dict.empty, (inferType u canonicalField).2⟩

/-- The field that stands in for missing mappings. -/
def rawMessageField : FieldSpec := ⟨"string", "event.action", Dict.empty, ["trim"]⟩

/-- The field that a compiled spec has under a name. -/
def targetField? (mappings : List FieldMapping) (k : String) : Option FieldSpec :=
  if mappings = [] then if k = "raw_message" then some rawMessageField else none
  else (canonicalOf mappings k).map (inferredField u)

def fieldDoc (fieldSpec : FieldSpec) : PyVal :=
  fieldEntry fieldSpec.mapTo (fieldSpec.type, fieldSpec.transformations)

theorem get?_fieldsDict (mappings : List FieldMapping) (k : String) :
    (fieldsDict u mappings).get? k = (targetField? u mappings k).map fieldDoc := by
  rw [targetField?]
  cases mappings with
  | nil =>
      rw [if_pos rfl]
      refine (Dict.get?_set Dict.empty "raw_message" k _).trans ?_
      by_cases hk : k = "raw_message"
      · subst hk
        rfl
      · rw [if_neg (Ne.symm hk), if_neg hk]
        rfl
  | cons m rest =>
      have hfields : ¬ (Dict.ofList ((m :: rest).map fun m => (m.rawField,
          fieldEntry m.canonicalField (inferType u m.canonicalField)))).entries.isEmpty := by
        rw [List.isEmpty_iff, Dict.ofList_eq_empty_iff]
        exact List.cons_ne_nil _ _
      rw [if_neg (List.cons_ne_nil _ _), fieldsDict, if_neg hfields, Dict.get?_ofList, canonicalOf,
        Option.map_map, ← lookup_map_snd, ← List.map_reverse, ← List.map_reverse, List.map_map]
      rfl

theorem mem_fieldsDict_iff {u : Unicode} {mappings : List FieldMapping} {k : String} {doc : PyVal} :
    (k, doc) ∈ (fieldsDict u mappings).entries ↔
      ∃ fieldSpec, targetField? u mappings k = some fieldSpec ∧ fieldDoc fieldSpec = doc := by
  rw [← Dict.get?_eq_some_iff, get?_fieldsDict, Option.map_eq_some_iff]

end Fields

section Decoding

theorem decodeMap_of_all {α : Type} {decode : PyVal → Except SpecError α} {f : PyVal → α}
    {entries : List (String × PyVal)} (h : ∀ m ∈ entries, decode m.2 = .ok (f m.2))
    (prior : Dict String α) :
    decodeMap decode prior (.obj entries) =
      .ok (prior.update (entries.map fun m => (m.1, f m.2))) := by
  induction entries generalizing prior with
  | nil => rfl
  | cons m rest ih =>
      have hrest := ih (fun m' hm' => h m' (List.mem_cons_of_mem m hm')) (prior.set m.1 (f m.2))
      rw [decodeMap] at hrest ⊢
      rw [List.foldlM_cons, h m List.mem_cons_self]
      exact hrest

theorem decodeStrings_texts (texts : List String) :
    decodeStrings (.arr (texts.map .str) : PyVal) = .ok texts := by
  rw [decodeStrings]
  induction texts with
  | nil => rfl
  | cons text rest ih =>
      rw [List.map_cons, List.mapM_cons, ih]
      rfl

theorem decodeFieldSpec_fieldDoc (u : Unicode) {fieldSpec : FieldSpec}
    (henum : fieldSpec.enum = Dict.empty) :
    decodeFieldSpec u FieldSpec.zero (fieldDoc fieldSpec) = .ok fieldSpec := by
  obtain ⟨type, mapTo, enum, transformations⟩ := fieldSpec
  obtain rfl : enum = Dict.empty := henum
  simp [decodeFieldSpec, decodeStruct, decodeMember, fieldDoc, fieldEntry, decodeString,
    decodeStrings_texts, FieldSpec.zero, List.foldlM_cons, Except.map, bind, Except.bind, pure,
    Except.pure]

/-- What the runtime reads of a compiled spec. -/
structure CompiledTo (u : Unicode) (sourceId detectedFormat : String)
    (mappings : List FieldMapping) (spec : ParserSpec) : Prop where
  dslVersion : spec.dslVersion = "1.0"
  parser : spec.parser = ⟨cleanId u sourceId, "1.0.0"⟩
  matchFormat : spec.matchConfig.format = formatOf u detectedFormat
  bodyParserType : spec.bodyParser.type = formatOf u detectedFormat
  fields : ∀ k, spec.fields.get? k = targetField? u mappings k
  policy : spec.unknownFields.policy = "preserve"
  raw : spec.raw.preserve = true

theorem enum_of_targetField {u : Unicode} {mappings : List FieldMapping} {k : String}
    {fieldSpec : FieldSpec} (h : targetField? u mappings k = some fieldSpec) :
    fieldSpec.enum = Dict.empty := by
  rw [targetField?] at h
  split at h
  · split at h
    · cases h
      rfl
    · cases h
  · obtain ⟨canonical, -, rfl⟩ := Option.map_eq_some_iff.mp h
    rfl

theorem decodeMap_fieldsDict (u goTables : Unicode) (mappings : List FieldMapping) :
    ∃ table, decodeMap (decodeFieldSpec goTables FieldSpec.zero) Dict.empty
        (.obj (fieldsDict u mappings).entries) = .ok table ∧
      ∀ k, table.get? k = targetField? u mappings k := by
  let decoded (doc : PyVal) : FieldSpec :=
    match decodeFieldSpec goTables FieldSpec.zero doc with
    | .ok fieldSpec => fieldSpec
    | .error _ => FieldSpec.zero
  have hdecoded : ∀ m ∈ (fieldsDict u mappings).entries,
      decodeFieldSpec goTables FieldSpec.zero m.2 = .ok (decoded m.2) := by
    intro m hm
    obtain ⟨fieldSpec, htarget, hdoc⟩ := mem_fieldsDict_iff.mp hm
    have hok := decodeFieldSpec_fieldDoc goTables (enum_of_targetField htarget)
    show _ = Except.ok (match decodeFieldSpec goTables FieldSpec.zero m.2 with
      | .ok fieldSpec => fieldSpec
      | .error _ => FieldSpec.zero)
    rw [← hdoc, hok]
  refine ⟨_, decodeMap_of_all hdecoded Dict.empty, ?_⟩
  intro k
  have hkeys : ((fieldsDict u mappings).entries.map fun m => (m.1, decoded m.2)).map Prod.fst =
      (fieldsDict u mappings).entries.map Prod.fst := by
    rw [List.map_map]
    rfl
  rw [Dict.get?_update_of_nodup _ (hkeys ▸ (fieldsDict u mappings).nodup), Dict.get?_empty,
    Option.or_none, lookup_map_snd]
  show ((fieldsDict u mappings).get? k).map decoded = _
  rw [get?_fieldsDict, Option.map_map]
  cases htarget : targetField? u mappings k with
  | none => rfl
  | some fieldSpec =>
      have hok := decodeFieldSpec_fieldDoc goTables (enum_of_targetField htarget)
      show some (match decodeFieldSpec goTables FieldSpec.zero (fieldDoc fieldSpec) with
        | .ok fieldSpec => fieldSpec
        | .error _ => FieldSpec.zero) = _
      rw [hok]

theorem decodeSpec_generateUlpfParserSpec (u goTables : Unicode)
    (sourceId detectedFormat : String) (mappings : List FieldMapping) :
    ∃ spec, decodeSpec goTables (generateUlpfParserSpec u sourceId detectedFormat mappings) =
        .ok spec ∧ CompiledTo u sourceId detectedFormat mappings spec := by
  obtain ⟨table, htable, hfields⟩ := decodeMap_fieldsDict u goTables mappings
  refine ⟨⟨"", "1.0", ⟨cleanId u sourceId, "1.0.0"⟩, ⟨formatOf u detectedFormat, []⟩,
    ⟨formatOf u detectedFormat, "", "", "", []⟩, table, ⟨"preserve"⟩, ⟨true⟩⟩, ?_,
    ⟨rfl, rfl, rfl, rfl, hfields, rfl, rfl⟩⟩
  have hinfo : decodeParserInfo goTables ⟨"", ""⟩
      (.obj [("id", .str (cleanId u sourceId)), ("version", .str "1.0.0")] : PyVal) =
        .ok ⟨cleanId u sourceId, "1.0.0"⟩ := rfl
  have hmatch : decodeMatchConfig goTables ⟨"", []⟩
      (.obj [("format", .str (formatOf u detectedFormat))] : PyVal) =
        .ok ⟨formatOf u detectedFormat, []⟩ := rfl
  have hbody : decodeBodyParserConfig goTables ⟨"", "", "", "", []⟩
      (.obj [("type", .str (formatOf u detectedFormat))] : PyVal) =
        .ok ⟨formatOf u detectedFormat, "", "", "", []⟩ := rfl
  have hunknown : decodeUnknownFields goTables ⟨""⟩
      (.obj [("policy", .str "preserve")] : PyVal) = .ok ⟨"preserve"⟩ := rfl
  have hraw : decodeRaw goTables ⟨false⟩ (.obj [("preserve", .bool true)] : PyVal) =
      .ok ⟨true⟩ := rfl
  simp [decodeSpec, decodeStruct, decodeMember, generateUlpfParserSpec, specNames,
    decodeSpecMember, ParserSpec.zero, decodeString, hinfo, hmatch, hbody, htable, hunknown, hraw,
    Except.map, bind, Except.bind, pure, Except.pure]

end Decoding

section Validity

variable {u : Unicode}

/-- A canonical field is a path as the contract has it. -/
def IsCanonicalPath (canonicalField : String) : Prop :=
  Schema.matchesPattern Contracts.mapToPattern canonicalField = true

theorem targetField_mem {mappings : List FieldMapping} {k : String} {fieldSpec : FieldSpec}
    (h : targetField? u mappings k = some fieldSpec) :
    fieldSpec.type ∈ validFieldTypes ∧
      ∀ op ∈ fieldSpec.transformations, op ∈ whitelistedOperations := by
  rw [targetField?] at h
  split at h
  · split at h
    · cases h
      decide
    · cases h
  · obtain ⟨canonical, -, rfl⟩ := Option.map_eq_some_iff.mp h
    exact inferType_mem u canonical

theorem exists_targetField (mappings : List FieldMapping) :
    ∃ k fieldSpec, targetField? u mappings k = some fieldSpec := by
  cases mappings with
  | nil => exact ⟨"raw_message", rawMessageField, rfl⟩
  | cons m rest =>
      have hsome : (canonicalOf (m :: rest) m.rawField).isSome := by
        rw [canonicalOf, lookup_isSome_iff]
        simp
      obtain ⟨canonical, hcanonical⟩ := Option.isSome_iff_exists.mp hsome
      refine ⟨m.rawField, inferredField u canonical, ?_⟩
      rw [targetField?, if_neg (List.cons_ne_nil _ _), hcanonical]
      rfl

theorem valid_fieldDoc_iff {fieldSpec : FieldSpec} (htype : fieldSpec.type ∈ validFieldTypes)
    (hops : ∀ op ∈ fieldSpec.transformations, op ∈ whitelistedOperations) :
    Contracts.fieldSchema.valid (fieldDoc fieldSpec) = true ↔ IsCanonicalPath fieldSpec.mapTo := by
  have htypes : fieldSpec.type = "string" ∨ fieldSpec.type = "integer" ∨ fieldSpec.type = "float" ∨
      fieldSpec.type = "boolean" ∨ fieldSpec.type = "ip" ∨ fieldSpec.type = "timestamp" := by
    simpa [validFieldTypes] using htype
  have hoperations : ∀ op ∈ fieldSpec.transformations, op ∈ Contracts.operations := hops
  simp [fieldDoc, fieldEntry, Contracts.fieldSchema, Schema.valid, Schema.validNamed, lookup,
    Contracts.oneOfStrings, htypes, IsCanonicalPath]
  exact fun _ => hoperations

theorem valid_matchDoc {format : String} (h : format ∈ validFormats) :
    Contracts.matchSchema.valid (.obj [("format", .str format)] : PyVal) = true := by
  simp only [validFormats, List.mem_cons, List.not_mem_nil, or_false] at h
  rcases h with rfl | rfl | rfl | rfl | rfl | rfl <;> decide

theorem valid_bodyParserDoc {type : String} (h : type ∈ validFormats) :
    Contracts.bodyParserSchema.valid (.obj [("type", .str type)] : PyVal) = true := by
  simp only [validFormats, List.mem_cons, List.not_mem_nil, or_false] at h
  rcases h with rfl | rfl | rfl | rfl | rfl | rfl <;> decide

theorem valid_parserInfoDoc {id : String}
    (h : Schema.matchesPattern Contracts.idPattern id = true) :
    Contracts.parserInfoSchema.valid
      (.obj [("id", .str id), ("version", .str "1.0.0")] : PyVal) = true := by
  have hversion : Schema.matchesPattern Contracts.versionPattern "1.0.0" = true := by
    decide +kernel
  simp [Contracts.parserInfoSchema, Schema.valid, Schema.validNamed, lookup, h, hversion]

theorem valid_fieldsDict_iff {mappings : List FieldMapping} :
    Contracts.fieldsSchema.valid (.obj (fieldsDict u mappings).entries : PyVal) = true ↔
      ∀ k fieldSpec, targetField? u mappings k = some fieldSpec →
        IsCanonicalPath fieldSpec.mapTo := by
  rw [Contracts.fieldsSchema, Schema.valid_dictionary_iff]
  constructor
  · rintro ⟨members, heq, -, hmembers⟩ k fieldSpec htarget
    cases heq
    have hmem := mem_fieldsDict_iff.mpr ⟨fieldSpec, htarget, rfl⟩
    obtain ⟨htype, hops⟩ := targetField_mem htarget
    exact (valid_fieldDoc_iff htype hops).mp (hmembers _ hmem)
  · intro h
    refine ⟨_, rfl, ?_, ?_⟩
    · obtain ⟨k, fieldSpec, htarget⟩ := exists_targetField (u := u) mappings
      exact List.length_pos_of_mem (mem_fieldsDict_iff.mpr ⟨fieldSpec, htarget, rfl⟩)
    · rintro m hm
      obtain ⟨fieldSpec, htarget, hdoc⟩ := mem_fieldsDict_iff.mp hm
      obtain ⟨htype, hops⟩ := targetField_mem htarget
      rw [← hdoc, valid_fieldDoc_iff htype hops]
      exact h _ fieldSpec htarget

theorem schemaValid_generate_iff (sourceId detectedFormat : String)
    (mappings : List FieldMapping) :
    Contracts.SchemaValid (generateUlpfParserSpec u sourceId detectedFormat mappings) ↔
      ∀ k fieldSpec, targetField? u mappings k = some fieldSpec →
        IsCanonicalPath fieldSpec.mapTo := by
  have hparser := valid_parserInfoDoc (matches_cleanId u sourceId)
  have hmatch := valid_matchDoc (formatOf_mem u detectedFormat)
  have hbody := valid_bodyParserDoc (formatOf_mem u detectedFormat)
  have hunknown : Contracts.unknownFieldsSchema.valid
      (.obj [("policy", .str "preserve")] : PyVal) = true := by
    decide
  have hraw : Contracts.rawSchema.valid (.obj [("preserve", .bool true)] : PyVal) = true := by
    decide
  rw [← valid_fieldsDict_iff]
  simp only [Contracts.SchemaValid, Contracts.parserSpecSchema, generateUlpfParserSpec]
  generalize (fieldsDict u mappings).entries = fields
  generalize cleanId u sourceId = id at hparser ⊢
  generalize formatOf u detectedFormat = format at hmatch hbody ⊢
  simp [Schema.valid, Schema.validNamed, lookup, hparser, hmatch, hbody, hunknown, hraw]

theorem accepted_iff_of_compiledTo {sourceId detectedFormat : String}
    {mappings : List FieldMapping} {spec : ParserSpec}
    (h : CompiledTo u sourceId detectedFormat mappings spec) :
    Accepted spec ↔ ∀ k fieldSpec, targetField? u mappings k = some fieldSpec →
      k ≠ "" ∧ IsCanonicalPath fieldSpec.mapTo := by
  constructor
  · intro haccepted k fieldSpec htarget
    have hmem := Dict.get?_eq_some_iff.mp ((h.fields k).trans htarget)
    exact ⟨(haccepted.fields _ hmem).named, (haccepted.fields _ hmem).mapped⟩
  · intro hnames
    refine ⟨h.dslVersion, ?_, ?_, ?_, ?_, ?_, ?_, h.policy, h.raw⟩
    · rw [h.parser]
      exact matches_cleanId u sourceId
    · rw [h.parser]
      show matchString semverRegex "1.0.0" = true
      decide +kernel
    · rw [h.matchFormat]
      exact formatOf_mem u detectedFormat
    · rw [h.bodyParserType]
      exact formatOf_mem u detectedFormat
    · obtain ⟨k, fieldSpec, htarget⟩ := exists_targetField (u := u) mappings
      exact List.ne_nil_of_mem (Dict.get?_eq_some_iff.mp ((h.fields k).trans htarget))
    · rintro ⟨k, fieldSpec⟩ hmem
      have htarget := (h.fields k).symm.trans (Dict.get?_eq_some_iff.mpr hmem)
      obtain ⟨htype, hops⟩ := targetField_mem htarget
      obtain ⟨hnamed, hpath⟩ := hnames k fieldSpec htarget
      exact ⟨hnamed, htype, hpath, hops⟩

end Validity

section Packages

/-- The canonical field a reviewer has approved for a raw field: the override,
or else the last deterministic mapping, or else the first AI candidate. -/
def approvedCanonical (candidatePackage : CandidatePackage)
    (reviewerOverrides : Dict String String) (raw : String) : Option String :=
  (reviewerOverrides.get? raw).or
    ((lookup raw (candidatePackage.deterministicMappings.filterMap MappingItem.names?).reverse).or
      (lookup raw (candidatePackage.aiCandidateSpecs.flatten.filterMap MappingItem.names?)))

/-- The canonical field of the mapping resolved so far. -/
def resolvedCanonical (resolved : Resolved) (raw : String) : Option String :=
  (resolved.get? raw).map (·.canonicalField)

theorem resolvedCanonical_set (resolved : Resolved) (k raw : String) (m : FieldMapping) :
    resolvedCanonical (resolved.set k m) raw =
      if k = raw then some m.canonicalField else resolvedCanonical resolved raw := by
  rw [resolvedCanonical, Dict.get?_set]
  split <;> rfl

theorem resolvedCanonical_foldl_mergeDeterministic (items : List MappingItem)
    (resolved : Resolved) (raw : String) :
    resolvedCanonical (items.foldl mergeDeterministic resolved) raw =
      (lookup raw (items.filterMap MappingItem.names?).reverse).or
        (resolvedCanonical resolved raw) := by
  induction items generalizing resolved with
  | nil => rfl
  | cons item rest ih =>
      rw [List.foldl_cons, ih, mergeDeterministic]
      cases hnames : item.names? with
      | none => rw [List.filterMap_cons_none hnames]
      | some names =>
          rw [List.filterMap_cons_some hnames, List.reverse_cons, lookup_append,
            resolvedCanonical_set, lookup_cons, Option.or_assoc]
          split <;> rfl

theorem resolvedCanonical_foldl_mergeCandidate (items : List MappingItem)
    (resolved : Resolved) (raw : String) :
    resolvedCanonical (items.foldl mergeCandidate resolved) raw =
      (resolvedCanonical resolved raw).or (lookup raw (items.filterMap MappingItem.names?)) := by
  induction items generalizing resolved with
  | nil => rw [List.filterMap_nil, lookup_nil, Option.or_none, List.foldl_nil]
  | cons item rest ih =>
      rw [List.foldl_cons, ih, mergeCandidate]
      cases hnames : item.names? with
      | none => rw [List.filterMap_cons_none hnames]
      | some names =>
          obtain ⟨k, canonical⟩ := names
          rw [List.filterMap_cons_some hnames, lookup_cons]
          show (resolvedCanonical (if resolved.contains k then resolved
            else resolved.set k ⟨k, canonical, none, false⟩) raw).or _ = _
          cases hget : resolved.get? k with
          | some m =>
              have hcontains : resolved.contains k = true := by rw [Dict.contains, hget]; rfl
              rw [if_pos hcontains]
              by_cases hkey : k = raw
              · subst hkey
                rw [resolvedCanonical, hget]
                rfl
              · rw [if_neg hkey]
          | none =>
              have hcontains : ¬ resolved.contains k = true := by
                rw [Dict.contains, hget]
                decide
              rw [if_neg hcontains, resolvedCanonical_set]
              by_cases hkey : k = raw
              · subst hkey
                rw [if_pos rfl, if_pos rfl, resolvedCanonical, hget]
                rfl
              · rw [if_neg hkey, if_neg hkey]

theorem resolvedCanonical_foldl_applyOverride (overrides : List (String × String))
    (resolved : Resolved) (raw : String) :
    resolvedCanonical (overrides.foldl applyOverride resolved) raw =
      (lookup raw overrides.reverse).or (resolvedCanonical resolved raw) := by
  induction overrides generalizing resolved with
  | nil => rfl
  | cons override rest ih =>
      rw [List.foldl_cons, ih, applyOverride, resolvedCanonical_set, List.reverse_cons,
        lookup_append, lookup_cons, Option.or_assoc]
      split <;> rfl

theorem resolvedCanonical_resolveMappings (candidatePackage : CandidatePackage)
    (reviewerOverrides : Dict String String) (raw : String) :
    resolvedCanonical (resolveMappings candidatePackage reviewerOverrides) raw =
      approvedCanonical candidatePackage reviewerOverrides raw := by
  have hflatten (resolved : Resolved) : candidatePackage.aiCandidateSpecs.foldl
      (fun resolved mappedFields => mappedFields.foldl mergeCandidate resolved) resolved =
        candidatePackage.aiCandidateSpecs.flatten.foldl mergeCandidate resolved :=
    List.foldl_flatten.symm
  rw [resolveMappings, resolvedCanonical_foldl_applyOverride, hflatten,
    resolvedCanonical_foldl_mergeCandidate, resolvedCanonical_foldl_mergeDeterministic,
    approvedCanonical,
    ← lookup_perm (List.reverse_perm _).symm reviewerOverrides.nodup]
  show _ = (lookup raw reviewerOverrides.entries).or _
  congr 1
  rw [resolvedCanonical, Dict.get?_empty, Option.map_none, Option.or_none]

/-- Every mapping stands under its raw field. -/
def Keyed (resolved : Resolved) : Prop := ∀ entry ∈ resolved.entries, entry.2.rawField = entry.1

theorem keyed_set {resolved : Resolved} (h : Keyed resolved) {k : String} {m : FieldMapping}
    (hm : m.rawField = k) : Keyed (resolved.set k m) := by
  intro entry hentry
  have hget := (Dict.get?_eq_some_iff (k := entry.1)).mpr hentry
  rw [Dict.get?_set] at hget
  split at hget
  · rename_i hkey
    rw [← Option.some.inj hget, hm, hkey]
  · exact h entry (Dict.get?_eq_some_iff.mp hget)

theorem keyed_foldl {α : Type} {f : Resolved → α → Resolved}
    (hf : ∀ resolved x, Keyed resolved → Keyed (f resolved x)) (xs : List α)
    {resolved : Resolved} (h : Keyed resolved) : Keyed (xs.foldl f resolved) := by
  induction xs generalizing resolved with
  | nil => exact h
  | cons x rest ih => exact ih (hf resolved x h)

theorem keyed_resolveMappings (candidatePackage : CandidatePackage)
    (reviewerOverrides : Dict String String) :
    Keyed (resolveMappings candidatePackage reviewerOverrides) := by
  have hdeterministic (resolved : Resolved) (item : MappingItem) (h : Keyed resolved) :
      Keyed (mergeDeterministic resolved item) := by
    rw [mergeDeterministic]
    split
    · exact keyed_set h rfl
    · exact h
  have hcandidate (resolved : Resolved) (item : MappingItem) (h : Keyed resolved) :
      Keyed (mergeCandidate resolved item) := by
    rw [mergeCandidate]
    split
    · split
      · exact h
      · exact keyed_set h rfl
    · exact h
  have hempty : Keyed Dict.empty := by
    intro entry hentry
    cases hentry
  have hoverride (resolved : Resolved) (override : String × String) (h : Keyed resolved) :
      Keyed (applyOverride resolved override) := keyed_set h rfl
  have hcandidates (resolved : Resolved) (mappedFields : List MappingItem) (h : Keyed resolved) :
      Keyed (mappedFields.foldl mergeCandidate resolved) := keyed_foldl hcandidate mappedFields h
  exact keyed_foldl hoverride _
    (keyed_foldl hcandidates _ (keyed_foldl hdeterministic _ hempty))

theorem canonicalOf_mergeOverrides (candidatePackage : CandidatePackage)
    (reviewerOverrides : Dict String String) (raw : String) :
    canonicalOf (mergeOverrides candidatePackage reviewerOverrides) raw =
      approvedCanonical candidatePackage reviewerOverrides raw := by
  let resolved := resolveMappings candidatePackage reviewerOverrides
  have hkeyed := keyed_resolveMappings candidatePackage reviewerOverrides
  have hentries : (resolved.entries.map Prod.snd).map (fun m => (m.rawField, m.canonicalField)) =
      resolved.entries.map fun entry => (entry.1, entry.2.canonicalField) := by
    rw [List.map_map]
    apply List.map_congr_left
    intro entry hentry
    show (entry.2.rawField, entry.2.canonicalField) = _
    rw [hkeyed entry hentry]
  have hnodup : ((resolved.entries.map fun entry =>
      (entry.1, entry.2.canonicalField)).map Prod.fst).Nodup := by
    rw [List.map_map]
    exact resolved.nodup
  rw [← resolvedCanonical_resolveMappings]
  show lookup raw ((resolved.entries.map Prod.snd).map
    fun m => (m.rawField, m.canonicalField)).reverse = (resolved.get? raw).map (·.canonicalField)
  rw [hentries, ← lookup_perm (List.reverse_perm _).symm hnodup]
  exact lookup_map_snd (fun m : FieldMapping => m.canonicalField) raw resolved.entries

end Packages

section Targets

variable (u goTables : Unicode)

/-- A spec satisfies the contract, and the runtime accepts it. -/
def AcceptedByTarget (doc : PyVal) : Prop :=
  Contracts.SchemaValid doc ∧
    ∃ spec, decodeSpec goTables doc = .ok spec ∧ validateParserSpec spec = .ok ()

variable {u goTables}

theorem acceptedByTarget_generate_iff (sourceId detectedFormat : String)
    (mappings : List FieldMapping) :
    AcceptedByTarget goTables (generateUlpfParserSpec u sourceId detectedFormat mappings) ↔
      ∀ raw canonical, canonicalOf mappings raw = some canonical →
        raw ≠ "" ∧ IsCanonicalPath canonical := by
  have htarget : (∀ raw canonical, canonicalOf mappings raw = some canonical →
      raw ≠ "" ∧ IsCanonicalPath canonical) ↔
        ∀ k fieldSpec, targetField? u mappings k = some fieldSpec →
          k ≠ "" ∧ IsCanonicalPath fieldSpec.mapTo := by
    cases mappings with
    | nil =>
        constructor
        · intro _ k fieldSpec h
          rw [targetField?, if_pos rfl] at h
          split at h
          · rename_i hk
            cases h
            subst hk
            refine ⟨by decide, ?_⟩
            show Schema.matchesPattern Contracts.mapToPattern "event.action" = true
            decide +kernel
          · cases h
        · intro _ raw canonical h
          cases h
    | cons m rest =>
        have hfield (k : String) : targetField? u (m :: rest) k =
            (canonicalOf (m :: rest) k).map (inferredField u) := if_neg (List.cons_ne_nil _ _)
        simp only [hfield, Option.map_eq_some_iff]
        constructor
        · rintro h k fieldSpec ⟨canonical, hcanonical, rfl⟩
          exact h k canonical hcanonical
        · intro h raw canonical hcanonical
          exact h raw (inferredField u canonical) ⟨canonical, hcanonical, rfl⟩
  rw [htarget]
  obtain ⟨spec, hspec, hcompiled⟩ :=
    decodeSpec_generateUlpfParserSpec u goTables sourceId detectedFormat mappings
  rw [← accepted_iff_of_compiledTo hcompiled, ← validateParserSpec_eq_ok_iff]
  constructor
  · rintro ⟨-, spec', hspec', hvalid⟩
    rw [hspec] at hspec'
    cases hspec'
    exact hvalid
  · intro hvalid
    refine ⟨(schemaValid_generate_iff sourceId detectedFormat mappings).mpr ?_, spec, hspec, hvalid⟩
    intro k fieldSpec hk
    have haccepted := (validateParserSpec_eq_ok_iff spec).mp hvalid
    exact ((accepted_iff_of_compiledTo hcompiled).mp haccepted k fieldSpec hk).2

end Targets

/-- What the compiler emits for a package is accepted exactly when every
approved raw field has a name and every approved canonical field is a path. -/
theorem acceptedByTarget_compiledSpec_iff (u goTables : Unicode)
    (candidatePackage : CandidatePackage) (reviewerOverrides : Dict String String) :
    AcceptedByTarget goTables (compiledSpec u candidatePackage reviewerOverrides) ↔
      ∀ raw canonical, approvedCanonical candidatePackage reviewerOverrides raw = some canonical →
        raw ≠ "" ∧ IsCanonicalPath canonical := by
  rw [compiledSpec, acceptedByTarget_generate_iff]
  simp only [canonicalOf_mergeOverrides]

def hyphenPackage : CandidatePackage :=
  ⟨some "fw", some "key_value", [⟨some "src", some "src-ip"⟩], []⟩

/-- The contract refuses the compiled spec. -/
theorem not_acceptedByTarget_hyphen :
    ¬ AcceptedByTarget Unicode.ascii (compiledSpec Unicode.ascii hyphenPackage Dict.empty) := by
  intro h
  have hinvalid : ¬ Contracts.SchemaValid
      (compiledSpec Unicode.ascii hyphenPackage Dict.empty) := by
    decide +kernel
  exact hinvalid h.1

end Ulpf.SpecCompiler
