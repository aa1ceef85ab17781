import Ulpf.Lib.Escaping
import Ulpf.Lib.JsonPointer
import Ulpf.ParserRuntime.JsonLeaves
import Ulpf.ParserRuntime.LineageDocuments

/-!
Which pointers of lineage records lead back to the raw value of their field. A pointer is made
from the joined key, whose dots become slashes, and escapes nothing.
-/

namespace Ulpf.ParserRuntime

open Ulpf.Lib
open Ulpf.Lib.Text
open Ulpf.Go

section Tokens

variable {path : List String}

/-- No key of a path has a dot, a slash or a tilde, and an empty key stands at its head only if
it is the whole path. -/
def PlainPath (path : List String) : Prop :=
  (∀ k ∈ path, '.' ∉ k.toList ∧ '/' ∉ k.toList ∧ '~' ∉ k.toList) ∧ ¬ LosesHead path

/-- The tokens that a path falls into when it is joined with dots and cut at dots and slashes. -/
def cut (path : List String) : Option (List (List Char)) :=
  ((dotted (path.dropWhile (· = ""))).toList.splitOnP fun c => c = '.' || c = '/').mapM
    JsonPointer.unescape

/-- The text of a pointer behind its first slash. -/
def slashed (s : List Char) : List Char := s.map fun c => if c = '.' then '/' else c

theorem splitOn_slashed (s : List Char) :
    (slashed s).splitOn '/' = s.splitOnP fun c => c = '.' || c = '/' := by
  induction s with
  | nil => simp [slashed]
  | cons c s ih =>
      rw [slashed, List.map_cons, List.splitOn_cons_eq_if_modifyHead,
        List.splitOnP_cons_eq_if_modifyHead, ← slashed, ih]
      by_cases hdot : c = '.'
      · simp [hdot]
      · simp [hdot]

theorem toList_locator (k : String) :
    (locatorOf "json" k).value.toList = '/' :: slashed k.toList := by
  have hreplace : replace ['.'] ['/'] k.toList = slashed k.toList := by
    rw [replace_singleton, slashed, List.map_eq_flatMap]
    congr 1
    funext c
    split <;> rfl
  rw [locatorOf, if_pos rfl, ← hreplace]
  simp [replaceAll, onChars]

theorem tokens_locator (path : List String) :
    JsonPointer.tokens (locatorOf "json" (flatKey path)).value.toList = cut path := by
  rw [toList_locator, JsonPointer.tokens, if_pos rfl, splitOn_slashed, cut, flatKey_eq]

example : cut ["user", "id.name"] = some ["user".toList, "id".toList, "name".toList] := by
  decide +kernel

theorem length_dotted (hne : path ≠ []) :
    (dotted path).length + 1 = (path.map String.toList).flatten.length + path.length := by
  induction path with
  | nil => exact absurd rfl hne
  | cons k path ih =>
      cases path with
      | nil => simp [dotted, String.length_toList]
      | cons k' path =>
          have hrest := ih (by simp)
          have hjoin : dotted (k :: k' :: path) = k ++ "." ++ dotted (k' :: path) :=
            String.intercalate_cons_cons
          have hone : ".".length = 1 := rfl
          rw [hjoin, String.length_append, String.length_append]
          simp only [List.map_cons, List.flatten_cons, List.length_append, List.length_cons,
            String.length_toList] at hrest ⊢
          omega

theorem slashed_dotted (h : ∀ k ∈ path, '.' ∉ k.toList) :
    slashed (dotted path).toList = ['/'].intercalate (path.map String.toList) := by
  have hkept {s : List Char} (hs : '.' ∉ s) : slashed s = s := by
    rw [slashed, List.map_congr_left (g := id), List.map_id]
    rintro c hc
    rw [if_neg]
    · rfl
    · rintro rfl
      exact hs hc
  induction path with
  | nil => rfl
  | cons k path ih =>
      obtain ⟨hk, hpath⟩ := List.forall_mem_cons.mp h
      cases path with
      | nil =>
          rw [dotted, String.intercalate_singleton, hkept hk]
          simp
      | cons k' path =>
          have hjoin : dotted (k :: k' :: path) = k ++ "." ++ dotted (k' :: path) :=
            String.intercalate_cons_cons
          have hdot : slashed ".".toList = ['/'] := rfl
          rw [slashed, hjoin, String.toList_append, String.toList_append, List.map_append,
            List.map_append, ← slashed, ← slashed, ← slashed, hkept hk, hdot, ih hpath]
          simp only [List.map_cons, List.intercalate_cons_cons]

/-- The tokens of a path are its keys if and only if the path is plain: what is cut off or escaped
makes them shorter than the keys are. -/
theorem cut_eq_iff (hne : path ≠ []) :
    cut path = some (path.map String.toList) ↔ PlainPath path := by
  rw [cut, ← flatKey_eq, ← splitOn_slashed]
  constructor
  · intro h
    obtain ⟨hcount, hparts⟩ := JsonPointer.mapM_unescape_eq_some h
    have hsplit := length_splitOn '/' (slashed (flatKey path).toList)
    have hdotted := length_dotted hne
    have hslashed : (slashed (flatKey path).toList).length = (flatKey path).length := by
      rw [slashed, List.length_map, String.length_toList]
    rw [List.length_map] at hcount
    have hle : (flatKey path).length ≤ (dotted path).length := by
      by_cases hlost : LosesHead path
      · exact (length_flatKey_lt hlost).le
      · rw [flatKey_eq_dotted hne hlost]
    obtain ⟨htildes, hkeys⟩ | hshorter := hparts
    · have hkept : ¬ LosesHead path := by
        intro hlost
        have hlt := length_flatKey_lt hlost
        rw [hkeys] at hdotted
        omega
      refine ⟨fun k hk => ?_, hkept⟩
      have hpart : k.toList ∈ (slashed (flatKey path).toList).splitOn '/' := by
        rw [← hkeys]
        exact List.mem_map_of_mem hk
      obtain ⟨hslash, hsub⟩ := not_mem_of_mem_splitOn _ hpart
      refine ⟨fun hdot => ?_, hslash, htildes _ hpart⟩
      obtain ⟨c, -, hc⟩ := List.mem_map.mp (hsub hdot)
      split at hc
      · cases hc
      · rename_i hne
        exact hne hc
    · omega
  · rintro ⟨hplain, hlost⟩
    have hpieces : (slashed (flatKey path).toList).splitOn '/' = path.map String.toList := by
      rw [flatKey_eq_dotted hne hlost, slashed_dotted fun k hk => (hplain k hk).1]
      apply List.splitOn_intercalate
      · intro part hpart
        obtain ⟨k, hk, rfl⟩ := List.mem_map.mp hpart
        exact (hplain k hk).2.1
      · simpa using hne
    rw [hpieces]
    apply JsonPointer.mapM_unescape_eq_self
    intro part hpart
    obtain ⟨k, hk, rfl⟩ := List.mem_map.mp hpart
    exact (hplain k hk).2.2

end Tokens

section Records

variable {p : Platform} {e : Enumeration} {raw : List UInt8} {doc val : Value}
  {path source : List String} {k : String}

/-- A path of a document from which a raw field was taken. -/
structure IsSource (doc : Value) (k : String) (val : Value) (source : List String) : Prop where
  nonempty : source ≠ []
  leads : doc.getPath source = some val
  spells : flatKey source = k

/-- Apart from the way along the keys, the tokens that a path falls into lead to a value. -/
def CutsTo (doc : Value) (source : List String) (val : Value) : Prop :=
  ∃ tokens, tokens ≠ source.map String.toList ∧ cut source = some tokens ∧
    tokens.foldlM JsonPointer.child doc = some val

theorem eval_locator_iff (h : IsSource doc k val source) :
    JsonPointer.eval (locatorOf "json" k).value doc = some val ↔
      PlainPath source ∨ CutsTo doc source val := by
  have heval : JsonPointer.eval (locatorOf "json" k).value doc =
      (cut source).bind fun tokens => tokens.foldlM JsonPointer.child doc := by
    rw [JsonPointer.eval, ← h.spells, tokens_locator]
  have hkeys := JsonPointer.foldlM_child_of_getPath h.leads
  rw [heval, ← cut_eq_iff h.nonempty, CutsTo, Option.bind_eq_some_iff]
  constructor
  · rintro ⟨tokens, hcut, hvalue⟩
    by_cases hsame : tokens = source.map String.toList
    · exact .inl (by rw [hcut, hsame])
    · exact .inr ⟨tokens, hsame, hcut, hvalue⟩
  · rintro (hcut | ⟨tokens, -, hcut, hvalue⟩)
    · exact ⟨_, hcut, hkeys⟩
    · exact ⟨tokens, hcut, hvalue⟩

theorem type_of_locator {spec : ParserSpec} (haccepted : Accepted spec) {rawStr srcField : String}
    {field : String × FieldSpec} (hfield : field ∈ spec.fields.entries) {typedVal : Value}
    (htype : (lineageOf p spec rawStr srcField field.2 typedVal).rawLocator.type = "json_pointer") :
    spec.bodyParser.type = "json" ∧
      (lineageOf p spec rawStr srcField field.2 typedVal).rawLocator =
        locatorOf "json" srcField := by
  have hpath := (haccepted.fields field hfield).mapped
  rw [lineageOf_eq haccepted.bodyParserType hpath] at htype ⊢
  split at htype
  · rename_i hbuilt
    by_cases hjson : spec.bodyParser.type = "json"
    · rw [if_pos hbuilt, hjson]
      exact ⟨rfl, rfl⟩
    · have hkey : (locatorOf spec.bodyParser.type srcField).type = "key" := by
        rw [locatorOf, if_neg hjson]
      exact absurd (hkey.symm.trans htype) (by decide)
  · exact absurd (show "key" = "json_pointer" from htype) (by decide)

theorem exists_source {rawStr : String} {fields : RawFields}
    (hparse : parseJSON e rawStr = .ok fields) (hget : fields.get? k = some val) :
    ∃ doc, unmarshal rawStr = some doc ∧ ∃ source, IsSource doc k val source := by
  rw [parseJSON] at hparse
  split at hparse
  · cases hparse
    cases hget
  · rename_i members hdoc
    cases hparse
    obtain ⟨source, hne, hleads, hspells⟩ := exists_path_of_get? hget
    exact ⟨.obj members, hdoc, source, hne, hleads, hspells.symm⟩
  · cases hparse

/-- Every record with a pointer comes from a place of the document, and its pointer yields the
value there if and only if the path is plain, or the document holds an equal value where its keys,
cut at their dots and slashes, lead. -/
theorem pointer_yields_iff (spec : ValidSpec) {res : ParseResult}
    (hparse : parse p e raw spec.1 = .ok res) {normalizedPath : String} {record : FieldLineage}
    (hrecord : res.lineage.get? normalizedPath = some record)
    (htype : record.rawLocator.type = "json_pointer") :
    ∃ doc, unmarshal (ofBytes raw) = some doc ∧ Nonempty (Emission p e raw spec.1 normalizedPath) ∧
      ∀ em : Emission p e raw spec.1 normalizedPath, em.record = record ∧
        (∃ source, IsSource doc em.k em.val source) ∧
        ∀ source, IsSource doc em.k em.val source →
          (JsonPointer.eval record.rawLocator.value doc = some em.val ↔
            PlainPath source ∨ CutsTo doc source em.val) := by
  have hemitted := exists_emission_of_record hparse hrecord
  have hlocator (em : Emission p e raw spec.1 normalizedPath) :
      spec.1.bodyParser.type = "json" ∧ record.rawLocator = locatorOf "json" em.k := by
    have hsame := em.record_eq hparse hrecord
    rw [← hsame] at htype ⊢
    exact type_of_locator spec.2 (mem_fields_of_lastWriter em.writer) htype
  obtain ⟨em₀⟩ := hemitted
  have hdocument (em : Emission p e raw spec.1 normalizedPath) :
      ∃ doc, unmarshal (ofBytes raw) = some doc ∧ ∃ source, IsSource doc em.k em.val source := by
    have hbody := em.body
    rw [parseBody, (hlocator em).1] at hbody
    exact exists_source hbody (get?_of_resolve em.writer.resolves)
  obtain ⟨doc, hdoc, -⟩ := hdocument em₀
  refine ⟨doc, hdoc, ⟨em₀⟩, fun em => ⟨em.record_eq hparse hrecord, ?_, fun source hsource => ?_⟩⟩
  · obtain ⟨doc', hdoc', hsource⟩ := hdocument em
    rw [hdoc] at hdoc'
    cases hdoc'
    exact hsource
  · rw [(hlocator em).2]
    exact eval_locator_iff hsource

def jsonUserSpec (key : String) : ParserSpec :=
  plainSpec "json" [(key, plainField "string" "user.name")]

def accountSpec : ValidSpec :=
  ⟨jsonUserSpec "account", (validateParserSpec_eq_ok_iff _).mp (by decide +kernel)⟩

theorem pointer_yields_iff_account : ∃ record doc,
    unmarshal (ofBytes (asciiBytes "\x7b\"account\":\"bob\"\x7d")) = some doc ∧
      ∀ em : Emission Platform.plain Enumeration.standing
        (asciiBytes "\x7b\"account\":\"bob\"\x7d") accountSpec.1 "user.name",
        em.record = record ∧ ∀ source, IsSource doc em.k em.val source →
          (JsonPointer.eval record.rawLocator.value doc = some em.val ↔
            PlainPath source ∨ CutsTo doc source em.val) := by
  have hbody : parseBody Enumeration.standing
      (ofBytes (asciiBytes "\x7b\"account\":\"bob\"\x7d")) accountSpec.1 =
        .ok (Dict.ofList [("account", .str "bob")]) := by
    decide +kernel
  obtain ⟨doc, hdoc, -, hall⟩ := pointer_yields_iff (p := Platform.plain) accountSpec
    (parse_eq_ok_iff.mpr ⟨by decide, _, hbody, rfl⟩)
    (show Dict.get? _ "user.name" = some (locatedLineage "user.name" "account" "json" []) by
      decide +kernel) rfl
  exact ⟨_, doc, hdoc, fun em => ⟨(hall em).1, (hall em).2.2⟩⟩

def dottedUserSpec : ValidSpec :=
  ⟨jsonUserSpec "user.id", (validateParserSpec_eq_ok_iff _).mp (by decide +kernel)⟩

/-- The pointer of the member "user.id" asks for a member "user". -/
theorem not_pointer_yields_dotted :
    ¬ ∀ (p : Platform) (e : Enumeration) (raw : List UInt8) (spec : ValidSpec) (res : ParseResult),
      parse p e raw spec.1 = .ok res → ∀ path record, res.lineage.get? path = some record →
        record.rawLocator.type = "json_pointer" → ∀ doc, unmarshal (ofBytes raw) = some doc →
          ∀ em : Emission p e raw spec.1 path,
            JsonPointer.eval record.rawLocator.value doc = some em.val := by
  intro hall
  have hbody : parseBody Enumeration.standing
      (ofBytes (asciiBytes "\x7b\"user.id\":\"bob\"\x7d")) dottedUserSpec.1 =
        .ok (Dict.ofList [("user.id", .str "bob")]) := by
    decide +kernel
  have hwriter : LastWriter Platform.plain Enumeration.standing
      (Dict.ofList [("user.id", .str "bob")])
      (Enumeration.standing.entries .fields dottedUserSpec.1.fields)
      ("user.id", plainField "string" "user.name") "user.id" (.str "bob") (.str "bob") :=
    ⟨by decide +kernel, by decide +kernel, [], [], by decide +kernel, by simp⟩
  have hvalue : JsonPointer.eval "/user/id" (.obj [("user.id", .str "bob")] : Value) =
      some (.str "bob") :=
    hall _ _ _ dottedUserSpec _ (parse_eq_ok_iff.mpr ⟨by decide, _, hbody, rfl⟩) "user.name"
      (locatedLineage "user.name" "user.id" "json" []) (by decide +kernel) rfl _ (by decide +kernel)
      ⟨_, _, _, _, _, hbody, hwriter, rfl⟩
  revert hvalue
  decide +kernel

end Records

end Ulpf.ParserRuntime
