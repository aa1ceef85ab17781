import Ulpf.Contracts.ParserSpec
import Ulpf.Lib.JsonRoundTrip
import Ulpf.ParserRuntime.Dsl

/-!
Documents of the parser spec contract, seen by the Go loader: a document that
satisfies `parser_spec.schema.json` loads unless a field has an empty name.
-/

namespace Ulpf.ParserRuntime

open Ulpf.Lib
open Ulpf.Contracts

variable {ν : Type}

/-- Decoding of an object whose members are all known: what each member
establishes and later ones keep holds in the end. -/
theorem decodeStruct_of_members {σ : Type} {u : Unicode} {names : List String}
    {member : MemberDecoder σ ν} {members : List (String × Json ν)} {prior : σ} {P : σ → Prop}
    (Inv : σ → Prop) (Good : String × Json ν → σ → Prop) (hnames : ∀ m ∈ members, m.1 ∈ names)
    (hstart : Inv prior)
    (hstep : ∀ acc, Inv acc → ∀ m ∈ members, ∃ acc', member acc m.1 m.2 = .ok acc' ∧ Inv acc' ∧
      Good m acc' ∧ ∀ m' ∈ members, Good m' acc → Good m' acc')
    (hfinish : ∀ acc, Inv acc → (∀ m ∈ members, Good m acc) → P acc) :
    ∃ acc, decodeStruct u names member prior (.obj members) = .ok acc ∧ P acc := by
  have hloop : ∃ acc, members.foldlM (decodeMember u names member) prior = .ok acc ∧ Inv acc ∧
      ∀ m ∈ members, Good m acc := by
    refine foldlM_establishes Inv Good ?_ hstart
    intro acc hacc m hm
    have hexact : names.find? (fun name => name = m.1) = some m.1 := by
      have hsome : (names.find? fun name => name = m.1).isSome := by
        rw [List.find?_isSome]
        exact ⟨m.1, hnames m hm, by simp⟩
      rcases Option.isSome_iff_exists.mp hsome with ⟨name, hname⟩
      have heq := List.find?_some hname
      simp only [decide_eq_true_eq] at heq
      rw [hname, heq]
    have hdecode : decodeMember u names member acc m = member acc m.1 m.2 := by
      rw [decodeMember, hexact]
      rfl
    rw [hdecode]
    exact hstep acc hacc m hm
  rcases hloop with ⟨acc, hacc, hinv, hgood⟩
  exact ⟨acc, hacc, hfinish acc hinv hgood⟩

theorem exists_member {k : String} {members : List (String × Json ν)}
    (h : (lookup k members).isSome) : ∃ x, (k, x) ∈ members := by
  rcases Option.isSome_iff_exists.mp h with ⟨x, hx⟩
  exact ⟨x, mem_of_lookup hx⟩

theorem exists_declared {properties : List (String × Schema)} {m : String × Json ν}
    (h : ∃ schema, lookup m.1 properties = some schema ∧ schema.valid m.2 = true) :
    ∃ schema, (m.1, schema) ∈ properties ∧ schema.valid m.2 = true := by
  rcases h with ⟨schema, hlookup, hvalid⟩
  exact ⟨schema, mem_of_lookup hlookup, hvalid⟩

theorem names_of_closed {properties : List (String × Schema)} {names : List String}
    {members : List (String × Json ν)} (hnames : ∀ k ∈ properties.map Prod.fst, k ∈ names)
    (hclosed : ∀ m ∈ members, ∃ schema, lookup m.1 properties = some schema ∧
      schema.valid m.2 = true) : ∀ m ∈ members, m.1 ∈ names := by
  intro m hm
  rcases hclosed m hm with ⟨schema, hlookup, -⟩
  exact hnames _ (lookup_isSome_iff.mp (by simp [hlookup]))

theorem decodeStrings_of_valid {accepts : String → Bool} {x : Json ν}
    (h : Schema.valid (.array (.string accepts)) x = true) :
    ∃ values, decodeStrings x = .ok values ∧ ∀ s ∈ values, accepts s = true := by
  rcases Schema.valid_array_iff.mp h with ⟨items, rfl, hitems⟩
  have hdecode : ∀ y ∈ items, ∃ s, decodeString "" y = .ok s ∧ accepts s = true := by
    intro y hy
    rcases Schema.valid_string_iff.mp (hitems y hy) with ⟨s, rfl, hs⟩
    exact ⟨s, rfl, hs⟩
  rcases returns_mapM_iff.mpr fun y hy => (hdecode y hy).imp fun s hs => hs.1 with
    ⟨values, hvalues⟩
  refine ⟨values, hvalues, fun s hs => ?_⟩
  rcases mapM_mem hvalues hs with ⟨y, hy, hys⟩
  rcases hdecode y hy with ⟨t, ht, haccepts⟩
  rw [hys, Except.ok.injEq] at ht
  exact ht ▸ haccepts

theorem decodeMap_establishes {α : Type} {decode : Json ν → Except SpecError α} (P : α → Prop)
    {members : List (String × Json ν)}
    (hdecode : ∀ m ∈ members, ∃ v, decode m.2 = .ok v ∧ P v) (prior : Dict String α)
    (hprior : ∀ entry ∈ prior.entries, P entry.2) :
    ∃ d, decodeMap decode prior (.obj members) = .ok d ∧ (∀ entry ∈ d.entries, P entry.2) ∧
      ∀ k, k ∈ d.keys ↔ k ∈ prior.keys ∨ k ∈ members.map Prod.fst := by
  induction members generalizing prior with
  | nil => exact ⟨prior, rfl, hprior, by simp⟩
  | cons m ms ih =>
      rw [List.forall_mem_cons] at hdecode
      rcases hdecode with ⟨⟨v, hv, hPv⟩, hrest⟩
      have hset : ∀ entry ∈ (prior.set m.1 v).entries, P entry.2 := by
        rintro ⟨k, w⟩ hmem
        have hget := Dict.get?_eq_some_iff.mpr hmem
        rw [Dict.get?_set] at hget
        split at hget
        · cases hget
          exact hPv
        · exact hprior _ (Dict.get?_eq_some_iff.mp hget)
      rcases ih hrest _ hset with ⟨d, hd, hP, hkeys⟩
      refine ⟨d, ?_, hP, fun k => ?_⟩
      · rw [decodeMap, List.foldlM_cons, hv]
        exact hd
      · rw [hkeys, List.map_cons, List.mem_cons, Dict.mem_keys_iff, Dict.mem_keys_iff,
          Dict.get?_set]
        split
        · rename_i heq
          simp [heq]
        · rename_i hne
          simp [Ne.symm hne]

theorem decodeParserInfo_of_valid {u : Unicode} {x : Json ν} (prior : ParserInfo)
    (h : parserInfoSchema.valid x = true) : ∃ info, decodeParserInfo u prior x = .ok info ∧
      matchString parserIDRegex info.id = true ∧ matchString semverRegex info.version = true := by
  rcases Schema.valid_closed_iff.mp h with ⟨members, rfl, hrequired, -, hclosed⟩
  refine decodeStruct_of_members (fun _ => True)
    (fun m info => (m.1 = "id" → matchString parserIDRegex info.id = true) ∧
      (m.1 = "version" → matchString semverRegex info.version = true))
    (names_of_closed (by decide) hclosed) trivial ?_ ?_
  · rintro acc - ⟨k, y⟩ hm
    rcases exists_declared (hclosed _ hm) with ⟨schema, hdeclared, hvalid⟩
    simp only [List.mem_cons, List.not_mem_nil, or_false, Prod.mk.injEq] at hdeclared
    rcases hdeclared with ⟨rfl, rfl⟩ | ⟨rfl, rfl⟩
    · rcases Schema.valid_string_iff.mp hvalid with ⟨s, rfl, hs⟩
      exact ⟨{ acc with id := s }, rfl, trivial, ⟨fun _ => hs, by simp⟩,
        fun m' _ hgood => ⟨fun _ => hs, hgood.2⟩⟩
    · rcases Schema.valid_string_iff.mp hvalid with ⟨s, rfl, hs⟩
      exact ⟨{ acc with version := s }, rfl, trivial, ⟨by simp, fun _ => hs⟩,
        fun m' _ hgood => ⟨hgood.1, fun _ => hs⟩⟩
  · rintro info - hgood
    rcases exists_member (hrequired "id" (by simp)) with ⟨idDoc, hid⟩
    rcases exists_member (hrequired "version" (by simp)) with ⟨versionDoc, hversion⟩
    exact ⟨(hgood _ hid).1 rfl, (hgood _ hversion).2 rfl⟩

theorem decodeMatchConfig_of_valid {u : Unicode} {x : Json ν} (prior : MatchConfig)
    (h : matchSchema.valid x = true) : ∃ config, decodeMatchConfig u prior x = .ok config ∧
      config.format ∈ validFormats := by
  rcases Schema.valid_closed_iff.mp h with ⟨members, rfl, hrequired, -, hclosed⟩
  refine decodeStruct_of_members (fun _ => True)
    (fun m config => m.1 = "format" → config.format ∈ validFormats)
    (names_of_closed (by decide) hclosed) trivial ?_ ?_
  · rintro acc - ⟨k, y⟩ hm
    rcases exists_declared (hclosed _ hm) with ⟨schema, hdeclared, hvalid⟩
    simp only [List.mem_cons, List.not_mem_nil, or_false, Prod.mk.injEq] at hdeclared
    rcases hdeclared with ⟨rfl, rfl⟩ | ⟨rfl, rfl⟩
    · rcases Schema.valid_string_iff.mp hvalid with ⟨s, rfl, hs⟩
      have hmem : s ∈ validFormats := List.contains_iff_mem.mp hs
      exact ⟨{ acc with format := s }, rfl, trivial, fun _ => hmem, fun m' _ _ _ => hmem⟩
    · rcases decodeStrings_of_valid hvalid with ⟨values, hvalues, -⟩
      exact ⟨{ acc with bodyContains := values }, by simp [hvalues, Except.map], trivial, by simp,
        fun m' _ hgood => hgood⟩
  · rintro config - hgood
    rcases exists_member (hrequired "format" (by simp)) with ⟨doc, hformat⟩
    exact hgood _ hformat rfl

theorem decodeBodyParserConfig_of_valid {u : Unicode} {x : Json ν} (prior : BodyParserConfig)
    (h : bodyParserSchema.valid x = true) : ∃ config,
      decodeBodyParserConfig u prior x = .ok config ∧ config.type ∈ validBodyTypes := by
  rcases Schema.valid_closed_iff.mp h with ⟨members, rfl, hrequired, -, hclosed⟩
  refine decodeStruct_of_members (fun _ => True)
    (fun m config => m.1 = "type" → config.type ∈ validBodyTypes)
    (names_of_closed (by decide) hclosed) trivial ?_ ?_
  · rintro acc - ⟨k, y⟩ hm
    rcases exists_declared (hclosed _ hm) with ⟨schema, hdeclared, hvalid⟩
    simp only [List.mem_cons, List.not_mem_nil, or_false, Prod.mk.injEq] at hdeclared
    rcases hdeclared with ⟨rfl, rfl⟩ | ⟨rfl, rfl⟩ | ⟨rfl, rfl⟩ | ⟨rfl, rfl⟩ | ⟨rfl, rfl⟩
    · rcases Schema.valid_string_iff.mp hvalid with ⟨s, rfl, hs⟩
      have hmem : s ∈ validBodyTypes := by
        have := List.contains_iff_mem.mp hs
        simp only [List.mem_cons] at this
        simp only [validBodyTypes, List.mem_cons]
        tauto
      exact ⟨{ acc with type := s }, rfl, trivial, fun _ => hmem, fun m' _ _ _ => hmem⟩
    · rcases Schema.valid_string_iff.mp hvalid with ⟨s, rfl, -⟩
      exact ⟨{ acc with pairSeparator := s }, rfl, trivial, by simp, fun m' _ hgood => hgood⟩
    · rcases Schema.valid_string_iff.mp hvalid with ⟨s, rfl, -⟩
      exact ⟨{ acc with keyValueSeparator := s }, rfl, trivial, by simp, fun m' _ hgood => hgood⟩
    · rcases Schema.valid_string_iff.mp hvalid with ⟨s, rfl, -⟩
      exact ⟨{ acc with delimiter := s }, rfl, trivial, by simp, fun m' _ hgood => hgood⟩
    · rcases decodeStrings_of_valid hvalid with ⟨values, hvalues, -⟩
      exact ⟨{ acc with headers := values }, by simp [hvalues, Except.map], trivial, by simp,
        fun m' _ hgood => hgood⟩
  · rintro config - hgood
    rcases exists_member (hrequired "type" (by simp)) with ⟨doc, htype⟩
    exact hgood _ htype rfl

/-- What the loader accepts of a field apart from its name. -/
structure FieldShaped (fieldSpec : FieldSpec) : Prop where
  typed : fieldSpec.type ∈ validFieldTypes
  mapped : matchString mapToRegex fieldSpec.mapTo = true
  whitelisted : ∀ op ∈ fieldSpec.transformations, op ∈ whitelistedOperations

theorem decodeFieldSpec_of_valid {u : Unicode} {x : Json ν} (h : fieldSchema.valid x = true) :
    ∃ fieldSpec, decodeFieldSpec u FieldSpec.zero x = .ok fieldSpec ∧ FieldShaped fieldSpec := by
  rcases Schema.valid_closed_iff.mp h with ⟨members, rfl, hrequired, -, hclosed⟩
  refine decodeStruct_of_members
    (fun fieldSpec => ∀ op ∈ fieldSpec.transformations, op ∈ whitelistedOperations)
    (fun m fieldSpec => (m.1 = "type" → fieldSpec.type ∈ validFieldTypes) ∧
      (m.1 = "map_to" → matchString mapToRegex fieldSpec.mapTo = true))
    (names_of_closed (by decide) hclosed) (by simp [FieldSpec.zero]) ?_ ?_
  · rintro acc hops ⟨k, y⟩ hm
    rcases exists_declared (hclosed _ hm) with ⟨schema, hdeclared, hvalid⟩
    simp only [List.mem_cons, List.not_mem_nil, or_false, Prod.mk.injEq] at hdeclared
    rcases hdeclared with ⟨rfl, rfl⟩ | ⟨rfl, rfl⟩ | ⟨rfl, rfl⟩ | ⟨rfl, rfl⟩
    · rcases Schema.valid_string_iff.mp hvalid with ⟨s, rfl, hs⟩
      have hmem : s ∈ validFieldTypes := List.contains_iff_mem.mp hs
      exact ⟨{ acc with type := s }, rfl, hops, ⟨fun _ => hmem, by simp⟩,
        fun m' _ hgood => ⟨fun _ => hmem, hgood.2⟩⟩
    · rcases Schema.valid_string_iff.mp hvalid with ⟨s, rfl, hs⟩
      exact ⟨{ acc with mapTo := s }, rfl, hops, ⟨by simp, fun _ => hs⟩,
        fun m' _ hgood => ⟨hgood.1, fun _ => hs⟩⟩
    · rcases Schema.valid_dictionary_iff.mp hvalid with ⟨entries, rfl, -, hentries⟩
      have hdecode : ∀ m ∈ entries, ∃ s, decodeString "" m.2 = .ok s ∧ True := by
        intro m hm
        rcases Schema.valid_string_iff.mp (hentries m hm) with ⟨s, hs, -⟩
        exact ⟨s, by rw [hs]; rfl, trivial⟩
      rcases decodeMap_establishes (fun _ => True) hdecode acc.enum (by simp) with
        ⟨table, htable, -, -⟩
      exact ⟨{ acc with enum := table }, by simp [htable, Except.map], hops, ⟨by simp, by simp⟩,
        fun m' _ hgood => hgood⟩
    · rcases decodeStrings_of_valid hvalid with ⟨values, hvalues, hall⟩
      have hmem : ∀ op ∈ values, op ∈ whitelistedOperations :=
        fun op hop => List.contains_iff_mem.mp (hall op hop)
      exact ⟨{ acc with transformations := values }, by simp [hvalues, Except.map], hmem,
        ⟨by simp, by simp⟩, fun m' _ hgood => hgood⟩
  · intro fieldSpec hops hgood
    rcases exists_member (hrequired "type" (by simp)) with ⟨typeDoc, htype⟩
    rcases exists_member (hrequired "map_to" (by simp)) with ⟨mapDoc, hmap⟩
    exact ⟨(hgood _ htype).1 rfl, (hgood _ hmap).2 rfl, hops⟩

theorem decodeUnknownFields_of_valid {u : Unicode} {x : Json ν} (prior : UnknownFieldsConfig)
    (h : unknownFieldsSchema.valid x = true) : ∃ config,
      decodeUnknownFields u prior x = .ok config ∧ config.policy = "preserve" := by
  rcases Schema.valid_closed_iff.mp h with ⟨members, rfl, hrequired, -, hclosed⟩
  refine decodeStruct_of_members (fun _ => True) (fun _ config => config.policy = "preserve")
    (names_of_closed (by decide) hclosed) trivial ?_ ?_
  · rintro acc - ⟨k, y⟩ hm
    rcases exists_declared (hclosed _ hm) with ⟨schema, hdeclared, hvalid⟩
    simp only [List.mem_cons, List.not_mem_nil, or_false, Prod.mk.injEq] at hdeclared
    rcases hdeclared with ⟨rfl, rfl⟩
    rw [Schema.valid_constString_iff.mp hvalid]
    exact ⟨⟨"preserve"⟩, rfl, trivial, rfl, fun m' _ _ => rfl⟩
  · rintro config - hgood
    rcases exists_member (hrequired "policy" (by simp)) with ⟨doc, hpolicy⟩
    exact hgood _ hpolicy

theorem decodeRaw_of_valid {u : Unicode} {x : Json ν} (prior : RawConfig)
    (h : rawSchema.valid x = true) : ∃ config,
      decodeRaw u prior x = .ok config ∧ config.preserve = true := by
  rcases Schema.valid_closed_iff.mp h with ⟨members, rfl, hrequired, -, hclosed⟩
  refine decodeStruct_of_members (fun _ => True) (fun _ config => config.preserve = true)
    (names_of_closed (by decide) hclosed) trivial ?_ ?_
  · rintro acc - ⟨k, y⟩ hm
    rcases exists_declared (hclosed _ hm) with ⟨schema, hdeclared, hvalid⟩
    simp only [List.mem_cons, List.not_mem_nil, or_false, Prod.mk.injEq] at hdeclared
    rcases hdeclared with ⟨rfl, rfl⟩
    rw [Schema.valid_constBool_iff.mp hvalid]
    exact ⟨⟨true⟩, rfl, trivial, rfl, fun m' _ _ => rfl⟩
  · rintro config - hgood
    rcases exists_member (hrequired "preserve" (by simp)) with ⟨doc, hpreserve⟩
    exact hgood _ hpreserve

/-- The names of the fields of a document. -/
def NamesField (x : Json ν) (k : String) : Prop :=
  ∃ members fields, x = .obj members ∧ ("fields", .obj fields) ∈ members ∧
    k ∈ fields.map Prod.fst

/-- What the loader accepts apart from the names of the fields. -/
structure SpecShaped (spec : ParserSpec) : Prop where
  dslVersion : spec.dslVersion = "1.0"
  parserId : matchString parserIDRegex spec.parser.id = true
  parserVersion : matchString semverRegex spec.parser.version = true
  matchFormat : spec.matchConfig.format ∈ validFormats
  bodyParserType : spec.bodyParser.type ∈ validBodyTypes
  someField : spec.fields.entries ≠ []
  fields : ∀ entry ∈ spec.fields.entries, FieldShaped entry.2
  policy : spec.unknownFields.policy = "preserve"
  raw : spec.raw.preserve = true

/-- What a member of a valid document leaves in the spec. -/
structure MemberRead (m : String × Json ν) (spec : ParserSpec) : Prop where
  dslVersion : m.1 = "dsl_version" → spec.dslVersion = "1.0"
  parser : m.1 = "parser" → matchString parserIDRegex spec.parser.id = true ∧
    matchString semverRegex spec.parser.version = true
  matchConfig : m.1 = "match" → spec.matchConfig.format ∈ validFormats
  bodyParser : m.1 = "body_parser" → spec.bodyParser.type ∈ validBodyTypes
  fields : m.1 = "fields" → ∀ fields, m.2 = .obj fields →
    ∀ k ∈ fields.map Prod.fst, k ∈ spec.fields.keys
  unknownFields : m.1 = "unknown_fields" → spec.unknownFields.policy = "preserve"
  raw : m.1 = "raw" → spec.raw.preserve = true

theorem decodeSpec_of_valid {u : Unicode} {x : Json ν} (h : SchemaValid x) :
    ∃ spec, decodeSpec u x = .ok spec ∧ SpecShaped spec ∧
      ∀ k, k ∈ spec.fields.keys ↔ NamesField x k := by
  rcases Schema.valid_closed_iff.mp h with ⟨members, rfl, hrequired, -, hclosed⟩
  refine decodeStruct_of_members
    (fun spec => (∀ entry ∈ spec.fields.entries, FieldShaped entry.2) ∧
      ∀ k ∈ spec.fields.keys, NamesField (.obj members) k)
    MemberRead (names_of_closed (by decide) hclosed)
    (by simp [ParserSpec.zero, Dict.empty, Dict.keys]) ?_ ?_
  · rintro acc ⟨hfields, hkeys⟩ ⟨k, y⟩ hm
    rcases exists_declared (hclosed _ hm) with ⟨schema, hdeclared, hvalid⟩
    simp only [List.mem_cons, List.not_mem_nil, or_false, Prod.mk.injEq] at hdeclared
    rcases hdeclared with ⟨rfl, rfl⟩ | ⟨rfl, rfl⟩ | ⟨rfl, rfl⟩ | ⟨rfl, rfl⟩ | ⟨rfl, rfl⟩ |
      ⟨rfl, rfl⟩ | ⟨rfl, rfl⟩
    · rw [Schema.valid_constString_iff.mp hvalid]
      exact ⟨{ acc with dslVersion := "1.0" }, rfl, ⟨hfields, hkeys⟩,
        ⟨fun _ => rfl, by simp, by simp, by simp, by simp, by simp, by simp⟩,
        fun m' _ hgood => { hgood with dslVersion := fun _ => rfl }⟩
    · rcases decodeParserInfo_of_valid (u := u) acc.parser hvalid with ⟨info, hinfo, hread⟩
      exact ⟨{ acc with parser := info }, by simp [decodeSpecMember, hinfo, Except.map],
        ⟨hfields, hkeys⟩, ⟨by simp, fun _ => hread, by simp, by simp, by simp, by simp, by simp⟩,
        fun m' _ hgood => { hgood with parser := fun _ => hread }⟩
    · rcases decodeMatchConfig_of_valid (u := u) acc.matchConfig hvalid with
        ⟨config, hconfig, hread⟩
      exact ⟨{ acc with matchConfig := config }, by simp [decodeSpecMember, hconfig, Except.map],
        ⟨hfields, hkeys⟩, ⟨by simp, by simp, fun _ => hread, by simp, by simp, by simp, by simp⟩,
        fun m' _ hgood => { hgood with matchConfig := fun _ => hread }⟩
    · rcases decodeBodyParserConfig_of_valid (u := u) acc.bodyParser hvalid with
        ⟨config, hconfig, hread⟩
      exact ⟨{ acc with bodyParser := config }, by simp [decodeSpecMember, hconfig, Except.map],
        ⟨hfields, hkeys⟩, ⟨by simp, by simp, by simp, fun _ => hread, by simp, by simp, by simp⟩,
        fun m' _ hgood => { hgood with bodyParser := fun _ => hread }⟩
    · rcases Schema.valid_dictionary_iff.mp hvalid with ⟨fields, rfl, -, hentries⟩
      rcases decodeMap_establishes FieldShaped
        (fun m hm => decodeFieldSpec_of_valid (u := u) (hentries m hm)) acc.fields hfields with
        ⟨table, htable, hshaped, htableKeys⟩
      refine ⟨{ acc with fields := table }, by simp [decodeSpecMember, htable, Except.map],
        ⟨hshaped, ?_⟩, ⟨by simp, by simp, by simp, by simp, ?_, by simp, by simp⟩, ?_⟩
      · intro k hk
        rcases (htableKeys k).mp hk with hprior | hnew
        · exact hkeys k hprior
        · exact ⟨members, fields, rfl, hm, hnew⟩
      · rintro - fields' heq k hk
        cases heq
        exact (htableKeys k).mpr (Or.inr hk)
      · intro m' _ hgood
        exact { hgood with
          fields := fun hname fields' heq k hk =>
            (htableKeys k).mpr (Or.inl (hgood.fields hname fields' heq k hk)) }
    · rcases decodeUnknownFields_of_valid (u := u) acc.unknownFields hvalid with
        ⟨config, hconfig, hread⟩
      exact ⟨{ acc with unknownFields := config },
        by simp [decodeSpecMember, hconfig, Except.map], ⟨hfields, hkeys⟩,
        ⟨by simp, by simp, by simp, by simp, by simp, fun _ => hread, by simp⟩,
        fun m' _ hgood => { hgood with unknownFields := fun _ => hread }⟩
    · rcases decodeRaw_of_valid (u := u) acc.raw hvalid with ⟨config, hconfig, hread⟩
      exact ⟨{ acc with raw := config }, by simp [decodeSpecMember, hconfig, Except.map],
        ⟨hfields, hkeys⟩, ⟨by simp, by simp, by simp, by simp, by simp, by simp, fun _ => hread⟩,
        fun m' _ hgood => { hgood with raw := fun _ => hread }⟩
  · rintro spec ⟨hfields, hkeys⟩ hgood
    rcases exists_member (hrequired "dsl_version" (by simp)) with ⟨_, hversion⟩
    rcases exists_member (hrequired "parser" (by simp)) with ⟨_, hparser⟩
    rcases exists_member (hrequired "match" (by simp)) with ⟨_, hmatch⟩
    rcases exists_member (hrequired "body_parser" (by simp)) with ⟨_, hbody⟩
    rcases exists_member (hrequired "fields" (by simp)) with ⟨fieldsDoc, hfieldsDoc⟩
    rcases exists_member (hrequired "unknown_fields" (by simp)) with ⟨_, hunknown⟩
    rcases exists_member (hrequired "raw" (by simp)) with ⟨_, hraw⟩
    have hread : ∀ k, k ∈ spec.fields.keys ↔ NamesField (.obj members) k := by
      refine fun k => ⟨hkeys k, ?_⟩
      rintro ⟨members', fields, heq, hmem, hk⟩
      cases heq
      exact (hgood _ hmem).fields rfl fields rfl k hk
    refine ⟨⟨(hgood _ hversion).dslVersion rfl, ((hgood _ hparser).parser rfl).1,
      ((hgood _ hparser).parser rfl).2, (hgood _ hmatch).matchConfig rfl,
      (hgood _ hbody).bodyParser rfl, ?_, hfields, (hgood _ hunknown).unknownFields rfl,
      (hgood _ hraw).raw rfl⟩, hread⟩
    rcases exists_declared (hclosed _ hfieldsDoc) with ⟨schema, hdeclared, hvalid⟩
    simp only [List.mem_cons, List.not_mem_nil, or_false, Prod.mk.injEq, String.reduceEq,
      false_and, false_or, true_and] at hdeclared
    subst hdeclared
    rcases Schema.valid_dictionary_iff.mp hvalid with ⟨fields, rfl, hmin, -⟩
    cases fields with
    | nil => simp at hmin
    | cons field rest =>
        intro hnil
        have hmem : field.1 ∈ spec.fields.keys :=
          (hread _).mpr ⟨members, _, rfl, hfieldsDoc, by simp⟩
        simp [Dict.keys, hnil] at hmem

theorem accepted_iff_of_shaped {spec : ParserSpec} (h : SpecShaped spec) :
    Accepted spec ↔ ∀ k ∈ spec.fields.keys, k ≠ "" := by
  constructor
  · intro haccepted k hk
    rcases List.mem_map.mp hk with ⟨entry, hentry, rfl⟩
    exact (haccepted.fields entry hentry).named
  · intro hnames
    refine ⟨h.dslVersion, h.parserId, h.parserVersion, h.matchFormat, h.bodyParserType,
      h.someField, fun entry hentry => ?_, h.policy, h.raw⟩
    have hshaped := h.fields entry hentry
    exact ⟨hnames entry.1 (List.mem_map_of_mem hentry), hshaped.typed, hshaped.mapped,
      hshaped.whitelisted⟩

theorem namesField_mapNum {μ : Type} (f : ν → μ) (x : Json ν) (k : String) :
    NamesField (x.mapNum f) k ↔ NamesField x k := by
  constructor
  · rintro ⟨members, fields, heq, hmem, hk⟩
    cases x with
    | obj members' =>
        rw [Json.mapNum, Json.mapNumMembers_eq, Json.obj.injEq] at heq
        subst heq
        rcases List.mem_map.mp hmem with ⟨⟨name, y⟩, hy, heq⟩
        simp only [Prod.mk.injEq] at heq
        rcases heq with ⟨rfl, heq⟩
        cases y with
        | obj fields' =>
            rw [Json.mapNum, Json.mapNumMembers_eq, Json.obj.injEq] at heq
            subst heq
            exact ⟨members', fields', rfl, hy, by simpa using hk⟩
        | _ => simp [Json.mapNum] at heq
    | _ => simp [Json.mapNum] at heq
  · rintro ⟨members, fields, rfl, hmem, hk⟩
    refine ⟨members.map fun m => (m.1, m.2.mapNum f), fields.map fun m => (m.1, m.2.mapNum f),
      ?_, ?_, by simpa using hk⟩
    · rw [Json.mapNum, Json.mapNumMembers_eq]
    · refine List.mem_map.mpr ⟨_, hmem, ?_⟩
      rw [Json.mapNum, Json.mapNumMembers_eq]

/-- A document that satisfies the contract loads, in the text it is rendered to,
exactly when no field has an empty name. -/
theorem returns_loadParserSpecJSON_iff {u : Unicode} {x : Json ν} (num : ν → List Char)
    (h : SchemaValid x) :
    Returns (loadParserSpecJSON u (String.ofList (JsonText.render num x))) ↔
      ∀ k, NamesField x k → k ≠ "" := by
  have hfree : x.NumberFree := Schema.numbers_of_valid h
  have hfits : JsonText.Fits ⟨false, some maxNestingDepth⟩ 0 x := by
    rintro limit ⟨⟩
    have hdepth : parserSpecSchema.depth = 4 := by decide
    have hvalid := Schema.depth_le_of_valid h
    rw [hdepth] at hvalid
    rw [maxNestingDepth]
    omega
  have hparse := JsonText.parsePrefix_render num (fun _ => NumLit.nan) hfree hfits []
  rw [List.append_nil] at hparse
  rcases decodeSpec_of_valid (u := u) (Schema.valid_mapNum (fun _ => NumLit.nan) _ x h) with
    ⟨spec, hspec, hshaped, hkeys⟩
  have hload : loadParserSpecJSON u (String.ofList (JsonText.render num x)) =
      (validateParserSpec spec >>= fun _ => .ok spec) := by
    simp only [loadParserSpecJSON, String.toList_ofList, hparse, hspec]
    rfl
  rw [hload, returns_bind_iff]
  have haccepted :
      (∃ a, validateParserSpec spec = .ok a ∧ Returns (.ok spec : Except SpecError _)) ↔
        Accepted spec := by
    rw [← validateParserSpec_eq_ok_iff]
    exact ⟨fun ⟨_, h, _⟩ => h, fun h => ⟨(), h, returns_ok _⟩⟩
  rw [haccepted, accepted_iff_of_shaped hshaped]
  refine forall_congr' fun k => ?_
  rw [hkeys, namesField_mapNum]

end Ulpf.ParserRuntime
