import Ulpf.ParserRuntime.Loading

/-!
Parser specs written out under the names of their struct tags. Such a document satisfies the
contract exactly when `ValidateParserSpec` accepts the spec, and it loads as that spec.
-/

namespace Ulpf.ParserRuntime

open Ulpf.Lib
open Ulpf.Contracts

variable {ν : Type}

def textArray (texts : List String) : Json ν := .arr (texts.map .str)

def textObject (texts : Dict String String) : Json ν :=
  .obj (texts.entries.map fun entry => (entry.1, .str entry.2))

/-- A member under `omitempty`. -/
def omittedWhen (isEmpty : Bool) (name : String) (value : Json ν) : List (String × Json ν) :=
  if isEmpty then [] else [(name, value)]

def ParserInfo.document (info : ParserInfo) : Json ν :=
  .obj [("id", .str info.id), ("version", .str info.version)]

def MatchConfig.document (config : MatchConfig) : Json ν :=
  .obj (("format", .str config.format) ::
    omittedWhen config.bodyContains.isEmpty "body_contains" (textArray config.bodyContains))

/-- A body parser as `json.Marshal` writes it. -/
def BodyParserConfig.document (config : BodyParserConfig) : Json ν :=
  .obj (("type", .str config.type) ::
    (omittedWhen (config.pairSeparator = "") "pair_separator" (.str config.pairSeparator) ++
    (omittedWhen (config.keyValueSeparator = "") "key_value_separator"
      (.str config.keyValueSeparator) ++
    (omittedWhen (config.delimiter = "") "delimiter" (.str config.delimiter) ++
    omittedWhen config.headers.isEmpty "headers" (textArray config.headers)))))

/-- A field spec as `json.Marshal` writes it. -/
def FieldSpec.document (fieldSpec : FieldSpec) : Json ν :=
  .obj (("type", .str fieldSpec.type) :: ("map_to", .str fieldSpec.mapTo) ::
    (omittedWhen fieldSpec.enum.entries.isEmpty "enum" (textObject fieldSpec.enum) ++
    omittedWhen fieldSpec.transformations.isEmpty "transformations"
      (textArray fieldSpec.transformations)))

def UnknownFieldsConfig.document (config : UnknownFieldsConfig) : Json ν :=
  .obj [("policy", .str config.policy)]

def RawConfig.document (config : RawConfig) : Json ν := .obj [("preserve", .bool config.preserve)]

/-- The members of a map stand in the order of its entries. -/
def ParserSpec.document (spec : ParserSpec) : Json ν :=
  .obj (omittedWhen (spec.schema = "") "$schema" (.str spec.schema) ++
    [("dsl_version", .str spec.dslVersion), ("parser", spec.parser.document),
     ("match", spec.matchConfig.document), ("body_parser", spec.bodyParser.document),
     ("fields", .obj (spec.fields.entries.map fun field => (field.1, field.2.document))),
     ("unknown_fields", spec.unknownFields.document), ("raw", spec.raw.document)])

theorem forall_mem_omittedWhen {isEmpty : Bool} {name : String} {value : Json ν}
    {P : String × Json ν → Prop} :
    (∀ m ∈ omittedWhen isEmpty name value, P m) ↔ (isEmpty = false → P (name, value)) := by
  cases isEmpty <;> simp [omittedWhen]

section Reading

variable {u : Unicode} {σ : Type} {names : List String} {member : MemberDecoder σ ν}

theorem decodeMember_of_mem {name : String} (h : name ∈ names) (acc : σ) (x : Json ν) :
    decodeMember u names member acc (name, x) = member acc name x := by
  have hexact : names.find? (fun known => known = name) = some name := by
    have hsome : (names.find? fun known => known = name).isSome :=
      List.find?_isSome.mpr ⟨name, h, by simp⟩
    obtain ⟨known, hknown⟩ := Option.isSome_iff_exists.mp hsome
    have heq := List.find?_some hknown
    rw [decide_eq_true_eq] at heq
    rw [hknown, heq]
  rw [decodeMember, hexact]
  rfl

variable {name : String} {value : Json ν} {members : List (String × Json ν)} {acc acc' result : σ}

theorem read_member (hname : name ∈ names) (hread : member acc name value = .ok acc')
    (hrest : members.foldlM (decodeMember u names member) acc' = .ok result) :
    ((name, value) :: members).foldlM (decodeMember u names member) acc = .ok result := by
  rw [List.foldlM_cons, decodeMember_of_mem hname, hread]
  exact hrest

theorem read_omittedWhen {isEmpty : Bool} (hname : name ∈ names)
    (hempty : isEmpty = true → acc = acc') (hread : member acc name value = .ok acc')
    (hrest : members.foldlM (decodeMember u names member) acc' = .ok result) :
    (omittedWhen isEmpty name value ++ members).foldlM (decodeMember u names member) acc =
      .ok result := by
  rw [omittedWhen]
  split
  · rename_i h
    rw [hempty h]
    exact hrest
  · exact read_member hname hread hrest

theorem read_last {isEmpty : Bool} (hname : name ∈ names) (hempty : isEmpty = true → acc = result)
    (hread : member acc name value = .ok result) :
    (omittedWhen isEmpty name value).foldlM (decodeMember u names member) acc = .ok result := by
  rw [← List.append_nil (omittedWhen isEmpty name value)]
  exact read_omittedWhen hname hempty hread rfl

theorem decodeStrings_textArray (texts : List String) :
    decodeStrings (textArray texts : Json ν) = .ok texts := by
  rw [textArray, decodeStrings]
  induction texts with
  | nil => rfl
  | cons text texts ih =>
      rw [List.map_cons, List.mapM_cons, ih]
      rfl

theorem decodeMap_document {α : Type} {decode : Json ν → Except SpecError α} {write : α → Json ν}
    (d : Dict String α) (hread : ∀ entry ∈ d.entries, decode (write entry.2) = .ok entry.2) :
    decodeMap decode Dict.empty (.obj (d.entries.map fun entry => (entry.1, write entry.2))) =
      .ok d := by
  have hloop (entries : List (String × α)) (acc : Dict String α)
      (h : ∀ entry ∈ entries, decode (write entry.2) = .ok entry.2) :
      (entries.map fun entry => (entry.1, write entry.2)).foldlM (fun acc m => do
        let v ← decode m.2
        return acc.set m.1 v) acc = .ok (acc.update entries) := by
    induction entries generalizing acc with
    | nil => rfl
    | cons entry entries ih =>
        rw [List.forall_mem_cons] at h
        rw [List.map_cons, List.foldlM_cons, h.1]
        exact ih _ h.2
  have hofList : Dict.ofList d.entries = d :=
    Dict.ext_entries (Dict.entries_ofList_of_nodup d.nodup)
  rw [decodeMap, hloop d.entries Dict.empty hread]
  exact congrArg Except.ok hofList

theorem decodeParserInfo_document (info prior : ParserInfo) :
    decodeParserInfo u prior (info.document : Json ν) = .ok info :=
  read_member (by simp) rfl (read_member (by simp) rfl rfl)

theorem decodeMatchConfig_document (config : MatchConfig) :
    decodeMatchConfig u ParserSpec.zero.matchConfig (config.document : Json ν) = .ok config := by
  refine read_member (by simp) rfl (read_last (by simp) (fun hempty => ?_) ?_)
  · rw [List.isEmpty_iff] at hempty
    obtain ⟨format, bodyContains⟩ := config
    cases hempty
    rfl
  · dsimp only
    rw [decodeStrings_textArray]
    rfl

theorem decodeBodyParserConfig_document (config : BodyParserConfig) :
    decodeBodyParserConfig u ParserSpec.zero.bodyParser (config.document : Json ν) =
      .ok config := by
  obtain ⟨type, pairSeparator, keyValueSeparator, delimiter, headers⟩ := config
  refine read_member (by simp) rfl ?_
  refine read_omittedWhen (by simp) (fun hempty => ?_) rfl ?_
  · cases of_decide_eq_true hempty
    rfl
  refine read_omittedWhen (by simp) (fun hempty => ?_) rfl ?_
  · cases of_decide_eq_true hempty
    rfl
  refine read_omittedWhen (by simp) (fun hempty => ?_) rfl ?_
  · cases of_decide_eq_true hempty
    rfl
  refine read_last (by simp) (fun hempty => ?_) ?_
  · cases List.isEmpty_iff.mp hempty
    rfl
  · dsimp only
    rw [decodeStrings_textArray]
    rfl

theorem decodeFieldSpec_document (fieldSpec : FieldSpec) :
    decodeFieldSpec u FieldSpec.zero (fieldSpec.document : Json ν) = .ok fieldSpec := by
  obtain ⟨type, mapTo, enum, transformations⟩ := fieldSpec
  have henum : decodeMap (decodeString "") Dict.empty (textObject enum : Json ν) = .ok enum :=
    decodeMap_document enum fun _ _ => rfl
  refine read_member (by simp) rfl (read_member (by simp) rfl ?_)
  have hread := congrArg (Except.map fun v => (⟨type, mapTo, v, []⟩ : FieldSpec)) henum
  refine read_omittedWhen (by simp) (fun hempty => ?_) hread ?_
  · have hnone : enum = Dict.empty := Dict.ext_entries (List.isEmpty_iff.mp hempty)
    rw [hnone]
    rfl
  refine read_last (by simp) (fun hempty => ?_) ?_
  · cases List.isEmpty_iff.mp hempty
    rfl
  · exact congrArg (Except.map _) (decodeStrings_textArray transformations)

section Members

variable (acc : ParserSpec)

theorem decodeSpecMember_info (info : ParserInfo) :
    decodeSpecMember u acc "parser" (info.document : Json ν) = .ok { acc with parser := info } := by
  have hread := decodeParserInfo_document (u := u) (ν := ν) info acc.parser
  exact congrArg (Except.map fun v => { acc with parser := v }) hread

theorem decodeSpecMember_match (config : MatchConfig)
    (hacc : acc.matchConfig = ParserSpec.zero.matchConfig) :
    decodeSpecMember u acc "match" (config.document : Json ν) =
      .ok { acc with matchConfig := config } := by
  have hread := decodeMatchConfig_document (u := u) (ν := ν) config
  exact congrArg (Except.map fun v => { acc with matchConfig := v }) (hacc ▸ hread)

theorem decodeSpecMember_bodyParser (config : BodyParserConfig)
    (hacc : acc.bodyParser = ParserSpec.zero.bodyParser) :
    decodeSpecMember u acc "body_parser" (config.document : Json ν) =
      .ok { acc with bodyParser := config } := by
  have hread := decodeBodyParserConfig_document (u := u) (ν := ν) config
  exact congrArg (Except.map fun v => { acc with bodyParser := v }) (hacc ▸ hread)

theorem decodeSpecMember_fields (fields : Dict String FieldSpec)
    (hacc : acc.fields = Dict.empty) :
    decodeSpecMember u acc "fields"
      (.obj (fields.entries.map fun field => (field.1, (field.2.document : Json ν)))) =
      .ok { acc with fields := fields } := by
  have hread := decodeMap_document fields fun field _ =>
    decodeFieldSpec_document (u := u) (ν := ν) field.2
  exact congrArg (Except.map fun v => { acc with fields := v }) (hacc ▸ hread)

end Members

theorem decodeSpec_document (spec : ParserSpec) :
    decodeSpec u (spec.document : Json ν) = .ok spec := by
  obtain ⟨schema, dslVersion, parser, matchConfig, bodyParser, fields, unknownFields, raw⟩ := spec
  refine read_omittedWhen (by simp [specNames]) (fun hempty => ?_) rfl ?_
  · cases of_decide_eq_true hempty
    rfl
  refine read_member (by simp [specNames]) rfl ?_
  refine read_member (by simp [specNames]) (decodeSpecMember_info _ parser) ?_
  refine read_member (by simp [specNames]) (decodeSpecMember_match _ matchConfig rfl) ?_
  refine read_member (by simp [specNames]) (decodeSpecMember_bodyParser _ bodyParser rfl) ?_
  refine read_member (by simp [specNames]) (decodeSpecMember_fields _ fields rfl) ?_
  exact read_member (by simp [specNames]) rfl (read_member (by simp [specNames]) rfl rfl)

end Reading

section Validity

theorem valid_closed_obj_iff {required : List String} {properties : List (String × Schema)} {n : ℕ}
    {members : List (String × Json ν)} :
    (Schema.object required properties none n).valid (.obj members) = true ↔
      (∀ k ∈ required, k ∈ members.map Prod.fst) ∧ n ≤ members.length ∧
      ∀ m ∈ members, Schema.validNamed properties m.1 m.2 = some true := by
  simp only [Schema.valid, Bool.and_eq_true, List.all_eq_true, decide_eq_true_eq,
    lookup_isSome_iff, Schema.validAdditional, and_assoc]
  refine and_congr_right fun _ => and_congr_right fun _ => forall₂_congr fun m _ => ?_
  cases Schema.validNamed properties m.1 m.2 <;> simp

theorem valid_str {accepts : String → Bool} {s : String} :
    (Schema.string accepts).valid (.str s : Json ν) = accepts s := by
  rw [Schema.valid]

theorem valid_oneOfStrings_iff {values : List String} {s : String} :
    (oneOfStrings values).valid (.str s : Json ν) = true ↔ s ∈ values := by
  rw [oneOfStrings, valid_str, List.contains_iff_mem]

theorem valid_textArray_iff {items : Schema} {texts : List String} :
    (Schema.array items).valid (textArray texts : Json ν) = true ↔
      ∀ text ∈ texts, items.valid (.str text : Json ν) = true := by
  simp [textArray, Schema.valid]

theorem valid_anyString (s : String) : anyString.valid (.str s : Json ν) = true := valid_str

theorem valid_stringsArray (texts : List String) :
    stringsArray.valid (textArray texts : Json ν) = true :=
  valid_textArray_iff.mpr fun text _ => valid_anyString text

theorem valid_named_iff {properties : List (String × Schema)} {name : String} {schema : Schema}
    {x : Json ν} (h : lookup name properties = some schema) :
    Schema.validNamed properties name x = some true ↔ schema.valid x = true := by
  rw [Schema.validNamed_eq, h, Option.map_some, Option.some.injEq]

theorem valid_parserInfo_iff {info : ParserInfo} :
    parserInfoSchema.valid (info.document : Json ν) = true ↔
      matchString parserIDRegex info.id = true ∧ matchString semverRegex info.version = true := by
  rw [parserInfoSchema, ParserInfo.document, valid_closed_obj_iff, and_iff_right (by simp),
    and_iff_right (Nat.zero_le _), List.forall_mem_cons, List.forall_mem_singleton,
    valid_named_iff rfl, valid_named_iff rfl, valid_str, valid_str]
  rfl

theorem valid_match_iff {config : MatchConfig} :
    matchSchema.valid (config.document : Json ν) = true ↔ config.format ∈ validFormats := by
  rw [matchSchema, MatchConfig.document, valid_closed_obj_iff, and_iff_right (by simp),
    and_iff_right (Nat.zero_le _), List.forall_mem_cons, forall_mem_omittedWhen,
    valid_named_iff rfl, valid_oneOfStrings_iff]
  exact and_iff_left fun _ => (valid_named_iff rfl).mpr (valid_stringsArray _)

theorem valid_bodyParser_iff {config : BodyParserConfig} :
    bodyParserSchema.valid (config.document : Json ν) = true ↔ config.type ∈ validBodyTypes := by
  have htypes : config.type ∈ ["key_value", "json", "cef", "leef", "syslog", "csv"] ↔
      config.type ∈ validBodyTypes := by
    simp only [validBodyTypes, List.mem_cons]
    tauto
  rw [bodyParserSchema, BodyParserConfig.document, valid_closed_obj_iff, and_iff_right (by simp),
    and_iff_right (Nat.zero_le _), List.forall_mem_cons, List.forall_mem_append,
    List.forall_mem_append, List.forall_mem_append, valid_named_iff rfl, valid_oneOfStrings_iff,
    htypes]
  refine and_iff_left ⟨?_, ?_, ?_, ?_⟩
  · exact forall_mem_omittedWhen.mpr fun _ => (valid_named_iff rfl).mpr (valid_anyString _)
  · exact forall_mem_omittedWhen.mpr fun _ => (valid_named_iff rfl).mpr (valid_anyString _)
  · exact forall_mem_omittedWhen.mpr fun _ => (valid_named_iff rfl).mpr (valid_anyString _)
  · exact forall_mem_omittedWhen.mpr fun _ => (valid_named_iff rfl).mpr (valid_stringsArray _)

theorem valid_textObject (texts : Dict String String) :
    (Schema.object [] [] (some anyString) 0).valid (textObject texts : Json ν) = true := by
  rw [textObject, Schema.valid_dictionary_iff]
  refine ⟨_, rfl, Nat.zero_le _, fun m hm => ?_⟩
  obtain ⟨entry, -, rfl⟩ := List.mem_map.mp hm
  exact valid_anyString entry.2

theorem valid_transformations_iff {ops : List String} :
    (∀ m ∈ omittedWhen ops.isEmpty "transformations" (textArray ops : Json ν),
      (Schema.array (oneOfStrings operations)).valid m.2 = true) ↔
      ∀ op ∈ ops, op ∈ whitelistedOperations := by
  rw [forall_mem_omittedWhen, valid_textArray_iff]
  simp only [valid_oneOfStrings_iff]
  cases ops with
  | nil => simp
  | cons op ops => exact ⟨fun h => h rfl, fun h _ => h⟩

theorem valid_field_iff {fieldSpec : FieldSpec} :
    fieldSchema.valid (fieldSpec.document : Json ν) = true ↔ FieldShaped fieldSpec := by
  have hoperations : (∀ m ∈ omittedWhen fieldSpec.transformations.isEmpty "transformations"
      (textArray fieldSpec.transformations : Json ν),
      (Schema.array (oneOfStrings operations)).valid m.2 = true) ↔
      ∀ op ∈ fieldSpec.transformations, op ∈ whitelistedOperations := valid_transformations_iff
  rw [forall_mem_omittedWhen] at hoperations
  rw [fieldSchema, FieldSpec.document, valid_closed_obj_iff, and_iff_right (by simp),
    and_iff_right (Nat.zero_le _), List.forall_mem_cons, List.forall_mem_cons,
    List.forall_mem_append, forall_mem_omittedWhen, forall_mem_omittedWhen, valid_named_iff rfl,
    valid_named_iff rfl, valid_named_iff rfl, valid_named_iff rfl, valid_oneOfStrings_iff,
    valid_str, hoperations]
  constructor
  · rintro ⟨htyped, hmapped, -, hwhitelisted⟩
    exact ⟨htyped, hmapped, hwhitelisted⟩
  · intro h
    exact ⟨h.typed, h.mapped, fun _ => valid_textObject _, h.whitelisted⟩

theorem valid_fields_iff {fields : Dict String FieldSpec} :
    fieldsSchema.valid (.obj (fields.entries.map fun field =>
      (field.1, (field.2.document : Json ν)))) = true ↔
      fields.entries ≠ [] ∧ ∀ entry ∈ fields.entries, FieldShaped entry.2 := by
  rw [fieldsSchema, Schema.valid_dictionary_iff]
  simp only [Json.obj.injEq, exists_eq_left', List.forall_mem_map, valid_field_iff]
  refine and_congr_left fun _ => ?_
  rw [List.length_map, Nat.one_le_iff_ne_zero, ne_eq, List.length_eq_zero_iff]

theorem valid_unknownFields_iff {config : UnknownFieldsConfig} :
    unknownFieldsSchema.valid (config.document : Json ν) = true ↔ config.policy = "preserve" := by
  rw [unknownFieldsSchema, UnknownFieldsConfig.document, valid_closed_obj_iff,
    and_iff_right (by simp), and_iff_right (Nat.zero_le _), List.forall_mem_singleton,
    valid_named_iff rfl, Schema.valid_constString_iff, Json.str.injEq]

theorem valid_raw_iff {config : RawConfig} :
    rawSchema.valid (config.document : Json ν) = true ↔ config.preserve = true := by
  rw [rawSchema, RawConfig.document, valid_closed_obj_iff, and_iff_right (by simp),
    and_iff_right (Nat.zero_le _), List.forall_mem_singleton, valid_named_iff rfl,
    Schema.valid_constBool_iff, Json.bool.injEq]

/-- The document of a spec satisfies the contract exactly when the loader would accept the spec,
the names of its fields apart. -/
theorem schemaValid_document_iff {spec : ParserSpec} :
    SchemaValid (spec.document : Json ν) ↔ spec.schema = "" ∧ SpecShaped spec := by
  have hschema : (decide (spec.schema = "") = false → False) ↔ spec.schema = "" := by simp
  have hundeclared (x : Json ν) : ¬ Schema.validNamed
      [("dsl_version", .constString "1.0"), ("parser", parserInfoSchema), ("match", matchSchema),
       ("body_parser", bodyParserSchema), ("fields", fieldsSchema),
       ("unknown_fields", unknownFieldsSchema), ("raw", rawSchema)] "$schema" x = some true := by
    simp [Schema.validNamed]
  rw [SchemaValid, parserSpecSchema, ParserSpec.document, valid_closed_obj_iff,
    and_iff_right (by simp), and_iff_right (Nat.zero_le _), List.forall_mem_append,
    forall_mem_omittedWhen, iff_false_intro (hundeclared _), hschema, List.forall_mem_cons,
    List.forall_mem_cons, List.forall_mem_cons, List.forall_mem_cons, List.forall_mem_cons,
    List.forall_mem_cons, List.forall_mem_singleton, valid_named_iff rfl, valid_named_iff rfl,
    valid_named_iff rfl, valid_named_iff rfl, valid_named_iff rfl, valid_named_iff rfl,
    valid_named_iff rfl, Schema.valid_constString_iff, Json.str.injEq, valid_parserInfo_iff,
    valid_match_iff, valid_bodyParser_iff, valid_fields_iff, valid_unknownFields_iff, valid_raw_iff]
  refine and_congr_right fun _ => ⟨?_, fun h => ?_⟩
  · rintro ⟨hversion, ⟨hid, hsemver⟩, hformat, htype, ⟨hsome, hfields⟩, hpolicy, hraw⟩
    exact ⟨hversion, hid, hsemver, hformat, htype, hsome, hfields, hpolicy, hraw⟩
  · exact ⟨h.dslVersion, ⟨h.parserId, h.parserVersion⟩, h.matchFormat, h.bodyParserType,
      ⟨h.someField, h.fields⟩, h.policy, h.raw⟩

end Validity

section Loading

variable {spec : ParserSpec}

theorem Accepted.shaped (h : Accepted spec) : SpecShaped spec where
  dslVersion := h.dslVersion
  parserId := h.parserId
  parserVersion := h.parserVersion
  matchFormat := h.matchFormat
  bodyParserType := h.bodyParserType
  someField := h.someField
  fields entry hentry :=
    { typed := (h.fields entry hentry).typed
      mapped := (h.fields entry hentry).mapped
      whitelisted := (h.fields entry hentry).whitelisted }
  policy := h.policy
  raw := h.raw

/-- The spec without its `$schema`, of which the contract knows nothing. -/
def ParserSpec.withoutSchema (spec : ParserSpec) : ParserSpec := { spec with schema := "" }

theorem accepted_withoutSchema_iff : Accepted spec.withoutSchema ↔ Accepted spec := by
  constructor
  · exact fun h => ⟨h.1, h.2, h.3, h.4, h.5, h.6, h.7, h.8, h.9⟩
  · exact fun h => ⟨h.1, h.2, h.3, h.4, h.5, h.6, h.7, h.8, h.9⟩

theorem accepted_iff_document : Accepted spec ↔
    SchemaValid (spec.withoutSchema.document : Json ν) ∧ "" ∉ spec.fields.keys := by
  have hschema : spec.withoutSchema.schema = "" := rfl
  rw [← accepted_withoutSchema_iff, schemaValid_document_iff, and_iff_right hschema]
  constructor
  · intro h
    exact ⟨h.shaped, fun hmem => (accepted_iff_of_shaped h.shaped).mp h "" hmem rfl⟩
  · rintro ⟨hshaped, hnames⟩
    refine (accepted_iff_of_shaped hshaped).mpr fun k hk => ?_
    rintro rfl
    exact hnames hk

/-- A document without numbers whose containers lie at most so deep. -/
structure Plain (depth : ℕ) (x : Json ν) : Prop where
  numberFree : x.NumberFree
  shallow : x.depth ≤ depth

theorem plain_obj {depth : ℕ} {members : List (String × Json ν)}
    (h : ∀ m ∈ members, Plain depth m.2) : Plain (depth + 1) (.obj members) :=
  ⟨Json.numbersMembers_eq_nil_iff.mpr fun m hm => (h m hm).numberFree,
    Nat.succ_le_succ (Json.depthMembers_le.mpr fun m hm => (h m hm).shallow)⟩

theorem plain_str (depth : ℕ) (s : String) : Plain depth (.str s : Json ν) :=
  ⟨rfl, Nat.zero_le _⟩

theorem plain_textArray (depth : ℕ) (texts : List String) :
    Plain (depth + 1) (textArray texts : Json ν) := by
  have htexts : ∀ x ∈ texts.map (Json.str (ν := ν)), Plain depth x := by
    intro x hx
    obtain ⟨text, -, rfl⟩ := List.mem_map.mp hx
    exact plain_str depth text
  exact ⟨Json.numbersItems_eq_nil_iff.mpr fun x hx => (htexts x hx).numberFree,
    Nat.succ_le_succ (Json.depthItems_le.mpr fun x hx => (htexts x hx).shallow)⟩

theorem plain_textObject (depth : ℕ) (texts : Dict String String) :
    Plain (depth + 1) (textObject texts : Json ν) := by
  refine plain_obj fun m hm => ?_
  obtain ⟨entry, -, rfl⟩ := List.mem_map.mp hm
  exact plain_str depth entry.2

theorem plain_parserInfo (info : ParserInfo) : Plain 1 (info.document : Json ν) := by
  refine plain_obj ?_
  rw [List.forall_mem_cons, List.forall_mem_singleton]
  exact ⟨plain_str 0 _, plain_str 0 _⟩

theorem plain_unknownFields (config : UnknownFieldsConfig) : Plain 1 (config.document : Json ν) :=
  plain_obj (List.forall_mem_singleton.mpr (plain_str 0 _))

theorem plain_raw (config : RawConfig) : Plain 1 (config.document : Json ν) :=
  plain_obj (List.forall_mem_singleton.mpr ⟨rfl, Nat.zero_le _⟩)

theorem plain_field (fieldSpec : FieldSpec) : Plain 2 (fieldSpec.document : Json ν) := by
  refine plain_obj ?_
  rw [List.forall_mem_cons, List.forall_mem_cons, List.forall_mem_append, forall_mem_omittedWhen,
    forall_mem_omittedWhen]
  exact ⟨plain_str 1 _, plain_str 1 _, fun _ => plain_textObject 0 _, fun _ => plain_textArray 0 _⟩

theorem plain_bodyParser (config : BodyParserConfig) : Plain 2 (config.document : Json ν) := by
  refine plain_obj ?_
  rw [List.forall_mem_cons, List.forall_mem_append, List.forall_mem_append, List.forall_mem_append,
    forall_mem_omittedWhen, forall_mem_omittedWhen, forall_mem_omittedWhen, forall_mem_omittedWhen]
  exact ⟨plain_str 1 _, fun _ => plain_str 1 _, fun _ => plain_str 1 _, fun _ => plain_str 1 _,
    fun _ => plain_textArray 0 _⟩

theorem plain_match (config : MatchConfig) : Plain 2 (config.document : Json ν) := by
  refine plain_obj ?_
  rw [List.forall_mem_cons, forall_mem_omittedWhen]
  exact ⟨plain_str 1 _, fun _ => plain_textArray 0 _⟩

theorem Plain.mono {depth depth' : ℕ} {x : Json ν} (h : Plain depth x) (hle : depth ≤ depth') :
    Plain depth' x := ⟨h.numberFree, h.shallow.trans hle⟩

theorem plain_document (spec : ParserSpec) : Plain 4 (spec.document : Json ν) := by
  have hfields : Plain 3 (.obj (spec.fields.entries.map fun field =>
      (field.1, (field.2.document : Json ν)))) := by
    refine plain_obj fun m hm => ?_
    obtain ⟨field, -, rfl⟩ := List.mem_map.mp hm
    exact plain_field field.2
  refine plain_obj ?_
  rw [List.forall_mem_append, forall_mem_omittedWhen]
  refine ⟨fun _ => plain_str 3 _, ?_⟩
  simp only [List.forall_mem_cons]
  exact ⟨plain_str 3 _, (plain_parserInfo _).mono (by decide), (plain_match _).mono (by decide),
    (plain_bodyParser _).mono (by decide), hfields, (plain_unknownFields _).mono (by decide),
    (plain_raw _).mono (by decide), List.forall_mem_nil _⟩

/-- A written spec is loaded as the spec it was written from, or refused for what
`ValidateParserSpec` finds in that spec. -/
theorem loadParserSpecJSON_document (u : Unicode) (num : NumLit → List Char) (spec : ParserSpec) :
    loadParserSpecJSON u (String.ofList (JsonText.render num spec.document)) =
      (validateParserSpec spec).map fun _ => spec := by
  have hplain := plain_document (ν := NumLit) spec
  have hfits : JsonText.Fits ⟨false, some maxNestingDepth⟩ 0 (spec.document : Json NumLit) := by
    rintro limit ⟨⟩
    have hshallow := hplain.shallow
    rw [maxNestingDepth]
    omega
  have hparse := JsonText.parsePrefix_render num id hplain.numberFree hfits []
  rw [List.append_nil, Json.mapNum_id] at hparse
  have hload : loadParserSpecJSON u (String.ofList (JsonText.render num spec.document)) =
      (validateParserSpec spec >>= fun _ => .ok spec) := by
    simp only [loadParserSpecJSON, String.toList_ofList, hparse, decodeSpec_document]
    rfl
  rw [hload]
  cases validateParserSpec spec <;> rfl

/-- The contract and the loader agree on the specs a maintainer can write: the loader accepts the
written spec, and returns it unchanged, exactly when its document without `$schema` satisfies
the contract and no field has an empty name. -/
theorem loads_iff_schemaValid (u : Unicode) (num : NumLit → List Char) (spec : ParserSpec) :
    let data := String.ofList (JsonText.render num spec.document)
    (loadParserSpecJSON u data = .ok spec ↔
      SchemaValid (spec.withoutSchema.document : Json NumLit) ∧ "" ∉ spec.fields.keys) ∧
    loadParserSpecJSON u data = (validateParserSpec spec).map fun _ => spec := by
  intro data
  have hload : loadParserSpecJSON u data = (validateParserSpec spec).map fun _ => spec :=
    loadParserSpecJSON_document u num spec
  refine ⟨?_, hload⟩
  rw [hload, ← accepted_iff_document, ← validateParserSpec_eq_ok_iff]
  cases validateParserSpec spec <;> simp [Except.map]

end Loading

end Ulpf.ParserRuntime
