import Ulpf.IngestGateway.FirewallLimits

/-!
The limits of `inspectJSONStructure` against the documents of a stream: what the loop
over the tokens measures is what the documents contain, however they are nested.
-/

namespace Ulpf.IngestGateway

open Ulpf.Lib
open Ulpf.Lib.JsonTokens (Token tokensOf tokensOfItems tokensOfMembers)

section Documents

mutual

/-- The keys of the objects in a document, in the order of the text. -/
def keysOf : Json NumLit → List String
  | .arr items => keysOfItems items
  | .obj members => keysOfMembers members
  | _ => []

def keysOfItems : List (Json NumLit) → List String
  | [] => []
  | x :: xs => keysOf x ++ keysOfItems xs

def keysOfMembers : List (String × Json NumLit) → List String
  | [] => []
  | (k, x) :: ms => k :: (keysOf x ++ keysOfMembers ms)

end

mutual

/-- The depths of the containers in a document that stands at a depth. -/
def depthsOf (depth : ℤ) : Json NumLit → List ℤ
  | .arr items => (depth + 1) :: depthsOfItems (depth + 1) items
  | .obj members => (depth + 1) :: depthsOfMembers (depth + 1) members
  | _ => []

def depthsOfItems (depth : ℤ) : List (Json NumLit) → List ℤ
  | [] => []
  | x :: xs => depthsOf depth x ++ depthsOfItems depth xs

def depthsOfMembers (depth : ℤ) : List (String × Json NumLit) → List ℤ
  | [] => []
  | (_, x) :: ms => depthsOf depth x ++ depthsOfMembers depth ms

end

/-- The state of the loop after a value with so many keys. -/
def JsonScan.afterValue (s : JsonScan) (keys : ℕ) : JsonScan :=
  { s with
    fieldCount := s.fieldCount + keys
    expectKey := s.inObject }

@[simp] theorem depth_afterValue (s : JsonScan) (n : ℕ) : (s.afterValue n).depth = s.depth := rfl

@[simp] theorem inObject_afterValue (s : JsonScan) (n : ℕ) :
    (s.afterValue n).inObject = s.inObject :=
  rfl

theorem afterValue_afterValue (s : JsonScan) (m n : ℕ) :
    (s.afterValue m).afterValue n = s.afterValue (m + n) := by
  simp only [JsonScan.afterValue, Nat.add_assoc]
  rfl

/-- Where the flag stands as the container wants it, no value changes it. -/
theorem afterValue_zero {s : JsonScan} (h : s.expectKey = s.inObject) : s.afterValue 0 = s := by
  rw [JsonScan.afterValue, ← h]
  rfl

/-- The state of the loop between a key and its value. -/
def JsonScan.afterKey (s : JsonScan) : JsonScan :=
  { s with
    fieldCount := s.fieldCount + 1
    expectKey := false }

theorem afterValue_afterKey (s : JsonScan) (n : ℕ) : s.afterKey.afterValue n =
    s.afterValue (n + 1) := by
  simp only [JsonScan.afterValue, JsonScan.afterKey, Nat.add_assoc, Nat.add_comm 1 n]
  rfl

/-- The loop measures of tokens the keys and the depths of a value, and goes on behind it. -/
structure Measures (s : JsonScan) (tokens : List Token) (keys : List String) (depths : List ℤ)
    (t : JsonScan) : Prop where
  keys : ∀ rest, jsonKeys s (tokens ++ rest) = keys ++ jsonKeys t rest
  depths : ∀ rest, jsonDepths s (tokens ++ rest) = depths ++ jsonDepths t rest

theorem measures_nil (s : JsonScan) : Measures s [] [] [] s :=
  ⟨fun _ => rfl, fun _ => rfl⟩

theorem measures_cons (s : JsonScan) (token : Token) :
    Measures s [token] (keyOf s token).toList (depthOf s token).toList (advance s token) :=
  ⟨fun _ => rfl, fun _ => rfl⟩

theorem Measures.append {s t u : JsonScan} {tokens tokens' : List Token} {keys keys' : List String}
    {depths depths' : List ℤ} (h : Measures s tokens keys depths t)
    (h' : Measures t tokens' keys' depths' u) :
    Measures s (tokens ++ tokens') (keys ++ keys') (depths ++ depths') u := by
  constructor
  · intro rest
    rw [List.append_assoc, h.keys, h'.keys, List.append_assoc]
  · intro rest
    rw [List.append_assoc, h.depths, h'.depths, List.append_assoc]

/-- What is measured of a value, which the loop meets where it expects no key. -/
def ValueMeasured (x : Json NumLit) : Prop :=
  ∀ s : JsonScan, s.expectKey = false →
    Measures s (tokensOf x) (keysOf x) (depthsOf s.depth x) (s.afterValue (keysOf x).length)

theorem advance_value {s : JsonScan} (hkey : s.expectKey = false) (t : String)
    (x : Json NumLit) :
    advance s (.str t) = s.afterValue 0 ∧ advance s (.scalar x) = s.afterValue 0 := by
  rw [advance, advance, hkey, Bool.and_false, if_neg Bool.false_ne_true]
  cases hobject : s.inObject with
  | true =>
      rw [if_pos rfl, JsonScan.afterValue, hobject]
      exact ⟨rfl, rfl⟩
  | false =>
      rw [if_neg Bool.false_ne_true, afterValue_zero (hkey.trans hobject.symm)]
      exact ⟨rfl, rfl⟩

theorem valueMeasured_scalar {x : Json NumLit} (htokens : tokensOf x = [.scalar x])
    (hkeys : keysOf x = []) (hdepths : ∀ depth, depthsOf depth x = []) : ValueMeasured x := by
  intro s hkey
  have hscalar := measures_cons s (.scalar x)
  rw [(advance_value hkey "" x).2] at hscalar
  rw [htokens, hkeys, hdepths]
  exact hscalar

theorem measures_items {items : List (Json NumLit)} (h : ∀ x ∈ items, ValueMeasured x)
    (s : JsonScan) (hkey : s.expectKey = false) (harray : s.inObject = false) :
    Measures s (tokensOfItems items) (keysOfItems items) (depthsOfItems s.depth items)
      (s.afterValue (keysOfItems items).length) := by
  induction items generalizing s with
  | nil =>
      rw [keysOfItems, List.length_nil, afterValue_zero (hkey.trans harray.symm)]
      exact measures_nil s
  | cons x xs ih =>
      obtain ⟨hx, hxs⟩ := List.forall_mem_cons.mp h
      have hfirst := hx s hkey
      have hrest := ih hxs (s.afterValue (keysOf x).length) harray harray
      rw [afterValue_afterValue, depth_afterValue] at hrest
      rw [tokensOfItems, keysOfItems, depthsOfItems, List.length_append]
      exact hfirst.append hrest

/-- A member is a key and a value; after it the next key is expected. -/
theorem measures_members {members : List (String × Json NumLit)}
    (h : ∀ m ∈ members, ValueMeasured m.2) (s : JsonScan) (hkey : s.expectKey = true)
    (hobject : s.inObject = true) :
    Measures s (tokensOfMembers members) (keysOfMembers members)
      (depthsOfMembers s.depth members) (s.afterValue (keysOfMembers members).length) := by
  induction members generalizing s with
  | nil =>
      rw [keysOfMembers, List.length_nil, afterValue_zero (hkey.trans hobject.symm)]
      exact measures_nil s
  | cons m ms ih =>
      obtain ⟨k, x⟩ := m
      obtain ⟨hx, hms⟩ := List.forall_mem_cons.mp h
      have hname : Measures s [.str k] [k] [] (s.afterKey) := by
        have hcons := measures_cons s (.str k)
        rwa [keyOf, advance, hobject, hkey] at hcons
      have hvalue := hx s.afterKey rfl
      have hrest := ih hms (s.afterKey.afterValue (keysOf x).length) hobject hobject
      have hend : (s.afterKey.afterValue (keysOf x).length).afterValue (keysOfMembers ms).length =
          s.afterValue (keysOfMembers ((k, x) :: ms)).length := by
        rw [afterValue_afterValue, keysOfMembers, List.length_cons, List.length_append]
        exact afterValue_afterKey s _
      rw [hend] at hrest
      exact hname.append (hvalue.append hrest)

/-- By induction on the document: a container is entered, its content measured, and left
with the flag as the outer container wants it. -/
theorem valueMeasured (x : Json NumLit) : ValueMeasured x := by
  induction x using Json.induct with
  | arr items ih =>
      intro s hkey
      have hopen := measures_cons s (.delim '[')
      have hitems := measures_items ih (advance s (.delim '[')) rfl rfl
      have hclose := measures_cons
        ((advance s (.delim '[')).afterValue (keysOfItems items).length) (.delim ']')
      have hend : advance ((advance s (.delim '[')).afterValue (keysOfItems items).length)
          (.delim ']') = s.afterValue (keysOf (.arr items)).length := by
        simp [advance, closeContainer, JsonScan.afterValue, JsonScan.inObject, keysOf]
      rw [hend] at hclose
      have hall := hopen.append (hitems.append hclose)
      simpa [tokensOf, keysOf, depthsOf, keyOf, depthOf, advance] using hall
  | obj members ih =>
      intro s hkey
      have hopen := measures_cons s (.delim '{')
      have hmembers := measures_members ih (advance s (.delim '{')) rfl rfl
      have hclose := measures_cons
        ((advance s (.delim '{')).afterValue (keysOfMembers members).length) (.delim '}')
      have hend : advance ((advance s (.delim '{')).afterValue (keysOfMembers members).length)
          (.delim '}') = s.afterValue (keysOf (.obj members)).length := by
        simp [advance, closeContainer, JsonScan.afterValue, JsonScan.inObject, keysOf]
      rw [hend] at hclose
      have hall := hopen.append (hmembers.append hclose)
      simpa [tokensOf, keysOf, depthsOf, keyOf, depthOf, advance] using hall
  | str t =>
      intro s hkey
      have hstr := measures_cons s (.str t)
      rw [(advance_value hkey t .null).1, keyOf, hkey, Bool.and_false] at hstr
      exact hstr
  | null => exact valueMeasured_scalar rfl rfl fun _ => rfl
  | bool b => exact valueMeasured_scalar rfl rfl fun _ => rfl
  | num n => exact valueMeasured_scalar rfl rfl fun _ => rfl

theorem depthsOfMembers_eq (depth : ℤ) (members : List (String × Json NumLit)) :
    depthsOfMembers depth members = depthsOfItems depth (members.map Prod.snd) := by
  induction members with
  | nil => rfl
  | cons m ms ih =>
      obtain ⟨k, x⟩ := m
      rw [depthsOfMembers, ih]
      rfl

theorem depthMembers_eq (members : List (String × Json NumLit)) :
    Json.depthMembers members = Json.depthItems (members.map Prod.snd) := by
  induction members with
  | nil => rfl
  | cons m ms ih =>
      obtain ⟨k, x⟩ := m
      rw [Json.depthMembers, ih]
      rfl

/-- A limit is kept by all depths when the deepest container keeps it. -/
def DepthMeasured (x : Json NumLit) : Prop :=
  ∀ depth limit : ℤ, (∀ d ∈ depthsOf depth x, d ≤ limit) ↔ (0 < x.depth → depth + x.depth ≤ limit)

theorem forall_depthsOfItems_iff {items : List (Json NumLit)} (h : ∀ x ∈ items, DepthMeasured x)
    (depth limit : ℤ) :
    (depth ≤ limit ∧ ∀ d ∈ depthsOfItems depth items, d ≤ limit) ↔
      depth + Json.depthItems items ≤ limit := by
  induction items with
  | nil => simp [depthsOfItems, Json.depthItems]
  | cons x xs ih =>
      obtain ⟨hx, hxs⟩ := List.forall_mem_cons.mp h
      have hrest := ih hxs
      rw [depthsOfItems, List.forall_mem_append, hx depth limit, Json.depthItems]
      constructor
      · rintro ⟨hle, hfirst, hlater⟩
        have hdeep := hrest.mp ⟨hle, hlater⟩
        omega
      · intro hdeep
        obtain ⟨hle, hlater⟩ := hrest.mpr (by omega)
        refine ⟨hle, ?_, hlater⟩
        intro _
        omega

theorem depthMeasured (x : Json NumLit) : DepthMeasured x := by
  have hcontainer {items : List (Json NumLit)} (h : ∀ x ∈ items, DepthMeasured x)
      (depth limit : ℤ) : (∀ d ∈ (depth + 1) :: depthsOfItems (depth + 1) items, d ≤ limit) ↔
        depth + (Json.depthItems items + 1 : ℕ) ≤ limit := by
    rw [List.forall_mem_cons, forall_depthsOfItems_iff h, Nat.cast_add, Nat.cast_one,
      add_right_comm, add_assoc]
  induction x using Json.induct with
  | arr items ih =>
      intro depth limit
      rw [depthsOf, Json.depth, hcontainer ih, forall_prop_of_true (Nat.succ_pos _)]
  | obj members ih =>
      intro depth limit
      rw [depthsOf, Json.depth, depthsOfMembers_eq, depthMembers_eq,
        hcontainer (List.forall_mem_map.mpr ih), forall_prop_of_true (Nat.succ_pos _)]
  | _ => intro depth limit; simp [depthsOf, Json.depth]

end Documents

section Streams

/-- What a configuration allows of the documents of a stream. -/
structure WithinConfigured (cfg : FirewallConfig) (docs : List (Json NumLit)) : Prop where
  nesting : ∀ doc ∈ docs, (doc.depth : ℤ) ≤ cfg.maxStructuralNesting
  fields : ((keysOfItems docs).length : ℤ) ≤ cfg.maxParsedFields
  keyLength : ∀ key ∈ keysOfItems docs, (key.length : ℤ) ≤ cfg.maxKeyLength

/-- The limits as the loop applies them, to the containers and the keys that it meets. -/
structure KeepsLimits (cfg : FirewallConfig) (docs : List (Json NumLit)) : Prop where
  nesting : ∀ doc ∈ docs, 0 < doc.depth → (doc.depth : ℤ) ≤ cfg.maxStructuralNesting
  fields : keysOfItems docs ≠ [] → ((keysOfItems docs).length : ℤ) ≤ cfg.maxParsedFields
  keyLength : ∀ key ∈ keysOfItems docs, (key.length : ℤ) ≤ cfg.maxKeyLength

variable {cfg : FirewallConfig} {syntaxError : List Char → String} {raw : List Char}
  {docs : List (Json NumLit)}

theorem forall_jsonDepths_iff (docs : List (Json NumLit)) (limit : ℤ) :
    (∀ d ∈ depthsOfItems 0 docs, d ≤ limit) ↔
      ∀ doc ∈ docs, 0 < doc.depth → (doc.depth : ℤ) ≤ limit := by
  induction docs with
  | nil => simp [depthsOfItems]
  | cons doc docs ih =>
      rw [depthsOfItems, List.forall_mem_append, ih, List.forall_mem_cons, depthMeasured doc,
        zero_add]

example : depthsOfItems 0 [.arr [.obj [], .null]] = [1, 2] := by decide +kernel

/-- A stream of documents passes exactly when it keeps the limits. -/
theorem inspectJSONStructure_eq_ok_iff_keepsLimits
    (hdocs : decoderTokens raw = (tokensOfItems docs, true)) :
    inspectJSONStructure cfg syntaxError raw = .ok () ↔ KeepsLimits cfg docs := by
  have hvalues : ∀ x ∈ docs, ValueMeasured x := fun x _ => valueMeasured x
  have hmeasures := measures_items hvalues JsonScan.init rfl rfl
  have hkeys : jsonKeys JsonScan.init (tokensOfItems docs) = keysOfItems docs := by
    simpa [jsonKeys] using hmeasures.keys []
  have hdepths : jsonDepths JsonScan.init (tokensOfItems docs) = depthsOfItems 0 docs := by
    simpa [jsonDepths, JsonScan.init] using hmeasures.depths []
  rw [inspectJSONStructure_eq_ok_iff, hdocs, and_iff_left rfl, returns_foldlM_scanToken_iff,
    hkeys, hdepths, forall_jsonDepths_iff, KeysAllowed]
  constructor
  · rintro ⟨hnesting, hlengths, hcount⟩
    exact ⟨hnesting, fun h => by simpa [JsonScan.init] using hcount h, hlengths⟩
  · rintro ⟨hnesting, hcount, hlengths⟩
    exact ⟨hnesting, hlengths, fun h => by simpa [JsonScan.init] using hcount h⟩

theorem inspectJSONStructure_eq_ok_iff_keepsLimits_alerts :
    inspectJSONStructure defaultFirewallConfig (fun _ => "")
        "\x7b\"alerts\": [\x7b\x7d, \"high\"], \"user\": \"alice\"\x7d".toList = .ok () ↔
      KeepsLimits defaultFirewallConfig
        [.obj [("alerts", .arr [.obj [], .str "high"]), ("user", .str "alice")]] :=
  inspectJSONStructure_eq_ok_iff_keepsLimits (by decide +kernel)

/-- An object without keys passes a limit of less than none. -/
theorem not_withinConfigured_emptyObject :
    ¬ ∀ (cfg : FirewallConfig) (syntaxError : List Char → String) (raw : List Char)
      (docs : List (Json NumLit)), decoderTokens raw = (tokensOfItems docs, true) →
      (inspectJSONStructure cfg syntaxError raw = .ok () ↔ WithinConfigured cfg docs) := by
  intro hall
  have hiff := hall { defaultFirewallConfig with maxParsedFields := -1 } (fun _ => "")
    "\x7b\x7d".toList [.obj []] (by decide +kernel)
  have hfields := (hiff.mp (by decide +kernel)).fields
  revert hfields
  decide

end Streams

end Ulpf.IngestGateway
