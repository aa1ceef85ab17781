import Mathlib.Algebra.Order.BigOperators.Group.List
import Ulpf.Lib.JsonPath
import Ulpf.ParserRuntime.PayloadNames

/-!
Which leaves of a JSON payload stand among its raw fields. The keys of a path are joined by dots,
so paths whose keys hold dots can share a field, and empty keys at the head of a path are lost.
-/

namespace Ulpf.ParserRuntime

open Ulpf.Lib
open Ulpf.Lib.Text
open Ulpf.Go

section Keys

/-- The keys of a path with dots between them. -/
def dotted (path : List String) : String := ".".intercalate path

/-- The key that `flattenJSON` gives to a path. -/
def flatKey (path : List String) : String := path.foldl joined ""

/-- An empty key stands at the head of a path, and is not the whole of it. -/
def LosesHead (path : List String) : Prop := path.head? = some "" ∧ path ≠ [""]

theorem dotted_cons (k : String) (path : List String) :
    dotted (k :: path) = path.foldl (fun pre k => pre ++ "." ++ k) k := by
  induction path generalizing k with
  | nil => exact String.intercalate_singleton
  | cons k' path ih =>
      have hjoin : dotted (k :: k' :: path) = dotted ((k ++ "." ++ k') :: path) := by
        simp [dotted]
      rw [hjoin, ih, List.foldl_cons]

theorem joined_ne_empty {pre : String} (h : pre ≠ "") (k : String) : joined pre k ≠ "" := by
  rw [joined, if_neg h]
  intro hempty
  have hlength := congrArg String.length hempty
  rw [String.length_append, String.length_append] at hlength
  simp at hlength

theorem foldl_joined {pre : String} (h : pre ≠ "") (path : List String) :
    path.foldl joined pre = path.foldl (fun pre k => pre ++ "." ++ k) pre := by
  induction path generalizing pre with
  | nil => rfl
  | cons k path ih =>
      have hjoined : joined pre k = pre ++ "." ++ k := if_neg h
      rw [List.foldl_cons, List.foldl_cons, ih (joined_ne_empty h k), hjoined]

theorem foldl_joined_ne_empty {pre : String} (h : pre ≠ "") (path : List String) :
    path.foldl joined pre ≠ "" := by
  induction path generalizing pre with
  | nil => exact h
  | cons k path ih => exact ih (joined_ne_empty h k)

theorem length_foldl_joined_le {pre pre' : String} (h : pre.length ≤ pre'.length)
    (path : List String) : (path.foldl joined pre).length ≤
      (path.foldl (fun pre k => pre ++ "." ++ k) pre').length := by
  induction path generalizing pre pre' with
  | nil => exact h
  | cons k path ih =>
      apply ih
      rw [joined, String.length_append, String.length_append]
      split
      · omega
      · rw [String.length_append, String.length_append]
        omega

theorem flatKey_eq_dotted {path : List String} (hne : path ≠ []) (h : ¬ LosesHead path) :
    flatKey path = dotted path := by
  obtain ⟨k, path, rfl⟩ := List.exists_cons_of_ne_nil hne
  rw [dotted_cons, flatKey, List.foldl_cons]
  show path.foldl joined k = _
  by_cases hk : k = ""
  · have hpath : path = [] := by
      by_contra hpath
      exact h ⟨by rw [hk]; rfl, by simp [hpath]⟩
    rw [hpath]
    rfl
  · exact foldl_joined hk path

theorem flatKey_eq (path : List String) : flatKey path = dotted (path.dropWhile (· = "")) := by
  induction path with
  | nil => exact String.intercalate_nil.symm
  | cons k path ih =>
      by_cases hk : k = ""
      · rw [List.dropWhile_cons_of_pos (by simp [hk]), ← ih, hk]
        rfl
      · rw [List.dropWhile_cons_of_neg (by simp [hk]), dotted_cons, ← foldl_joined hk]
        rfl

theorem eq_of_dotted_empty {path : List String} (hne : path ≠ []) (h : dotted path = "") :
    path = [""] := by
  obtain ⟨k, path, rfl⟩ := List.exists_cons_of_ne_nil hne
  by_cases hk : k = ""
  · cases path with
    | nil => rw [hk]
    | cons k' path =>
        rw [dotted, String.intercalate_cons_cons] at h
        have hlength := congrArg String.length h
        simp at hlength
  · rw [dotted_cons, ← foldl_joined hk] at h
    exact absurd h (foldl_joined_ne_empty hk path)

theorem exists_of_flatKey_empty {path : List String} (hne : path ≠ []) (h : flatKey path = "") :
    ∃ rest, path = "" :: rest := by
  obtain ⟨k, rest, rfl⟩ := List.exists_cons_of_ne_nil hne
  refine ⟨rest, ?_⟩
  by_contra hk
  have hk' : k ≠ "" := fun hempty => hk (by rw [hempty])
  exact foldl_joined_ne_empty hk' rest h

theorem length_lt_foldl_joined {pre : String} (h : pre ≠ "") {path : List String}
    (hne : path ≠ []) : pre.length < (path.foldl joined pre).length := by
  induction path generalizing pre with
  | nil => exact absurd rfl hne
  | cons k path ih =>
      have hstep : pre.length < (joined pre k).length := by
        have hone : ".".length = 1 := rfl
        rw [joined, if_neg h, String.length_append, String.length_append]
        omega
      by_cases hpath : path = []
      · rw [hpath]
        exact hstep
      · exact hstep.trans (ih (joined_ne_empty h k) hpath)

theorem length_flatKey_lt {path : List String} (h : LosesHead path) :
    (flatKey path).length < (dotted path).length := by
  obtain ⟨hhead, hwhole⟩ := h
  obtain ⟨path, rfl⟩ := List.head?_eq_some_iff.mp hhead
  obtain ⟨k, path, rfl⟩ : ∃ k rest, path = k :: rest := by
    apply List.exists_cons_of_ne_nil
    rintro rfl
    exact hwhole rfl
  -- the dot before the second key is lost, and every later one counts on both sides
  have hle : (flatKey ("" :: k :: path)).length ≤
      (path.foldl (fun pre k => pre ++ "." ++ k) k).length := length_foldl_joined_le le_rfl path
  have hdot : dotted ("" :: k :: path) = "." ++ path.foldl (fun pre k => pre ++ "." ++ k) k := by
    rw [← dotted_cons, dotted, String.intercalate_cons_cons, String.empty_append]
    rfl
  rw [hdot, String.length_append]
  have hone : ".".length = 1 := rfl
  omega

end Keys

section Nodes

variable {e : Enumeration} {doc v : Value} {path : List String}

theorem mem_flattenJSON_iff_getPath (e : Enumeration) (at' : List String) (pre : String)
    (x : Value) (entry : String × Value) :
    entry ∈ flattenJSON e at' pre x ↔
      ∃ path, path ≠ [] ∧ x.getPath path = some entry.2 ∧ entry.1 = path.foldl joined pre := by
  induction x using Json.induct generalizing at' pre with
  | obj members ih =>
      rw [mem_flattenJSON_obj]
      constructor
      · rintro ⟨k, val, hlookup, hentry⟩
        obtain rfl | hbelow := hentry
        · exact ⟨[k], by simp, by simp [Json.getPath_cons, Json.members, hlookup], rfl⟩
        · obtain ⟨path, hne, hget, hkey⟩ := (ih (k, val) (mem_of_lookup hlookup) _ _).mp hbelow
          exact ⟨k :: path, by simp, by simpa [Json.getPath_cons, Json.members, hlookup] using hget,
            hkey⟩
      · rintro ⟨path, hne, hget, hkey⟩
        obtain ⟨k, path, rfl⟩ := List.exists_cons_of_ne_nil hne
        obtain ⟨val, hlookup, hbelow⟩ := Option.bind_eq_some_iff.mp hget
        refine ⟨k, val, hlookup, ?_⟩
        by_cases hpath : path = []
        · subst hpath
          cases hbelow
          exact .inl (Prod.ext hkey rfl)
        · exact .inr ((ih (k, val) (mem_of_lookup hlookup) _ _).mpr ⟨path, hpath, hbelow, hkey⟩)
  | _ =>
      constructor
      · intro h
        cases h
      · rintro ⟨path, hne, hget, -⟩
        obtain ⟨k, path, rfl⟩ := List.exists_cons_of_ne_nil hne
        cases hget

/-- The order that leaves the nodes on the way to a path for the end. -/
def steerTo (target : List String) : Enumeration
  | .object at' => KeyOrder.last fun k => (at' ++ [k]).isPrefixOf target
  | _ => KeyOrder.standing

theorem run_steerTo {k : String} {keys : List String} (hk : k ∈ keys)
    (at' rest : List String) :
    ∃ before, (steerTo (at' ++ k :: rest) (.object at')).run keys = before ++ [k] := by
  have hpre : (fun k' => !!(at' ++ [k']).isPrefixOf (at' ++ k :: rest)) = (· == k) := by
    funext k'
    rw [Bool.not_not, Bool.eq_iff_iff, List.isPrefixOf_iff_prefix, List.prefix_append_right_inj,
      List.cons_prefix_cons, beq_iff_eq, and_iff_left (List.nil_prefix)]
  obtain ⟨n, hn⟩ := Nat.exists_eq_add_of_lt (List.count_pos_iff.mpr hk)
  refine ⟨keys.filter (fun k' => !(at' ++ [k']).isPrefixOf (at' ++ k :: rest)) ++
    List.replicate n k, ?_⟩
  simp only [steerTo, KeyOrder.last, KeyOrder.first, hpre]
  rw [List.filter_beq, hn, Nat.zero_add, List.replicate_succ', List.append_assoc]

/-- In that order nothing is assigned after a node but what is below it. -/
theorem flattenJSON_steerTo {path : List String} (hne : path ≠ []) (at' : List String)
    (pre : String) {x v : Value} (hget : x.getPath path = some v) :
    ∃ before, flattenJSON (steerTo (at' ++ path)) at' pre x =
      before ++ (path.foldl joined pre, v) ::
        flattenJSON (steerTo (at' ++ path)) (at' ++ path) (path.foldl joined pre) v := by
  induction path generalizing at' pre x with
  | nil => exact absurd rfl hne
  | cons k path ih =>
      obtain ⟨val, hlookup, hbelow⟩ := Option.bind_eq_some_iff.mp hget
      cases x with
      | obj members =>
          have hk : k ∈ members.map Prod.fst := lookup_isSome_iff.mp (by
            rw [show lookup k members = some val from hlookup]
            rfl)
          obtain ⟨keys, hrun⟩ := run_steerTo hk at' path
          have hlast : ∃ before, flattenJSON (steerTo (at' ++ k :: path)) at' pre (.obj members) =
              before ++ (joined pre k, val) ::
                flattenJSON (steerTo (at' ++ k :: path)) (at' ++ [k]) (joined pre k) val := by
            refine ⟨(arrange keys (flattenMembers (steerTo (at' ++ k :: path)) at' pre
              members)).flatMap Prod.snd, ?_⟩
            rw [flattenJSON, hrun, arrange_append, List.flatMap_append]
            simp only [arrange, List.filterMap_cons, List.filterMap_nil, lookup_flattenMembers,
              show lookup k members = some val from hlookup, Option.map_some, List.flatMap_cons,
              List.flatMap_nil, List.append_nil]
            rfl
          obtain ⟨before, hbefore⟩ := hlast
          by_cases hpath : path = []
          · subst hpath
            cases hbelow
            exact ⟨before, hbefore⟩
          · obtain ⟨inner, hinner⟩ := ih hpath (at' ++ [k]) (joined pre k) hbelow
            rw [List.append_assoc, List.singleton_append] at hinner
            refine ⟨before ++ (joined pre k, val) :: inner, ?_⟩
            rw [hbefore, hinner]
            simp
      | _ => cases hlookup

end Nodes

section Leaves

variable {doc v : Value} {path : List String} {raw : String} {members : List (String × Value)}

/-- A path of an object leads to a scalar or to an array. -/
def IsLeaf (doc : Value) (path : List String) (v : Value) : Prop :=
  path ≠ [] ∧ doc.getPath path = some v ∧ v.IsAtom

/-- Every leaf of a payload stands under its dotted path, whatever the order of its members, and no
two leaves share a dotted path. -/
def KeepsLeaves (raw : String) : Prop :=
  ∀ members, unmarshal raw = some (.obj members) →
    (∀ e fields, parseJSON e raw = .ok fields →
      ∀ path v, IsLeaf (.obj members) path v → fields.get? (dotted path) = some v) ∧
    ∀ path path' v v', IsLeaf (.obj members) path v → IsLeaf (.obj members) path' v' →
      dotted path = dotted path' → path = path'

/-- No path to a leaf has an empty key at its head, unless it is this key; and none is the dotted
form of another path, to a leaf or to an object, without the empty keys at the head of that one. -/
def LeavesApart (doc : Value) : Prop :=
  ∀ path v, IsLeaf doc path v → ¬ LosesHead path ∧
    ∀ path', path' ≠ [] → (doc.getPath path').isSome = true →
      dotted (path'.dropWhile (· = "")) = dotted path → path' = path

theorem parseJSON_eq (e : Enumeration) (hraw : unmarshal raw = some (.obj members)) :
    parseJSON e raw = .ok (Dict.ofList (flattenJSON e [] "" (.obj members))) := by
  rw [parseJSON, hraw]

theorem exists_path_of_get? {e : Enumeration} {k : String}
    (h : (Dict.ofList (flattenJSON e [] "" doc)).get? k = some v) :
    ∃ path, path ≠ [] ∧ doc.getPath path = some v ∧ k = flatKey path := by
  rw [Dict.get?_ofList] at h
  exact (mem_flattenJSON_iff_getPath e [] "" doc (k, v)).mp
    (List.mem_reverse.mp (mem_of_lookup h))

/-- In a payload that keeps its leaves no path to one has an empty key at its head: a leaf that
stands under its dotted form has a longer dotted form, which loses its head in turn. -/
theorem not_losesHead_of_keepsLeaves (hkeeps : KeepsLeaves raw)
    (hraw : unmarshal raw = some (.obj members)) (hleaf : IsLeaf (.obj members) path v) :
    ¬ LosesHead path := by
  obtain ⟨hget, hdistinct⟩ := hkeeps members hraw
  have hread := hget Enumeration.standing _ (parseJSON_eq _ hraw)
  generalize hfields : Dict.ofList (flattenJSON Enumeration.standing [] "" (.obj members)) = fields
    at hread
  have hbound (path : List String) (v : Value) (hleaf : IsLeaf (.obj members) path v) :
      (dotted path).length ≤ (fields.keys.map String.length).sum := by
    apply List.le_sum_of_mem
    apply List.mem_map_of_mem
    rw [Dict.mem_keys_iff, hread path v hleaf]
    rfl
  induction hroom : (fields.keys.map String.length).sum - (dotted path).length
    using Nat.strong_induction_on generalizing path v with
  | _ n ih =>
      intro hlost
      have hvalue := hread path v hleaf
      rw [← hfields] at hvalue
      obtain ⟨path', hne, hpath', hkey⟩ := exists_path_of_get? hvalue
      have hleaf' : IsLeaf (.obj members) path' v := ⟨hne, hpath', hleaf.2.2⟩
      by_cases hlost' : LosesHead path'
      · have hlonger := length_flatKey_lt hlost'
        rw [← hkey] at hlonger
        have hle := hbound path' v hleaf'
        exact ih _ (by omega) hleaf' rfl hlost'
      · rw [flatKey_eq_dotted hne hlost'] at hkey
        rw [hdistinct path path' v v hleaf hleaf' hkey] at hlost
        exact hlost' hlost

/-- No other path of a payload that keeps its leaves has the key of a leaf: an object under it
would come last in some order. -/
theorem eq_of_keepsLeaves (hkeeps : KeepsLeaves raw) (hraw : unmarshal raw = some (.obj members))
    (hleaf : IsLeaf (.obj members) path v) {path' : List String} {v' : Value} (hne : path' ≠ [])
    (hpath' : Json.getPath path' (.obj members) = some v') (hkey : flatKey path' = dotted path) :
    path' = path := by
  obtain ⟨hget, hdistinct⟩ := hkeeps members hraw
  by_cases hatom : v'.IsAtom
  · have hleaf' : IsLeaf (.obj members) path' v' := ⟨hne, hpath', hatom⟩
    have hlost := not_losesHead_of_keepsLeaves hkeeps hraw hleaf'
    rw [flatKey_eq_dotted hne hlost] at hkey
    exact hdistinct path' path v' v hleaf' hleaf hkey
  · exfalso
    obtain ⟨before, hlast⟩ := flattenJSON_steerTo hne [] "" hpath'
    have hnonempty : flatKey path' ≠ "" := by
      intro hempty
      obtain rfl : path = [""] := eq_of_dotted_empty hleaf.1 (hkey ▸ hempty)
      obtain ⟨rest, rfl⟩ := exists_of_flatKey_empty hne hempty
      rw [← List.singleton_append, Json.getPath_append, hleaf.2.1, Option.bind_some] at hpath'
      obtain ⟨-, rfl⟩ := Json.eq_of_getPath_of_isAtom hleaf.2.2 hpath'
      exact hatom hleaf.2.2
    have hafter : flatKey path' ∉ (flattenJSON (steerTo ([] ++ path')) ([] ++ path')
        (path'.foldl joined "") v').map Prod.fst := by
      intro hmem
      obtain ⟨entry, hentry, hsame⟩ := List.mem_map.mp hmem
      obtain ⟨rest, hrest, -, hlong⟩ := (mem_flattenJSON_iff_getPath _ _ _ _ _).mp hentry
      have hlt := length_lt_foldl_joined hnonempty hrest
      rw [hlong] at hsame
      exact hlt.ne' (congrArg String.length hsame)
    have hvalue := hget (steerTo ([] ++ path')) _ (parseJSON_eq _ hraw) path v hleaf
    have hvalue' := lookup_reverse_eq_some_iff.mpr ⟨before, _, hlast, hafter⟩
    rw [← hkey, Dict.get?_ofList, flatKey, hvalue'] at hvalue
    cases hvalue
    exact hatom hleaf.2.2

theorem keepsLeaves_iff (raw : String) :
    KeepsLeaves raw ↔
      ∀ members, unmarshal raw = some (.obj members) → LeavesApart (.obj members) := by
  constructor
  · intro hkeeps members hraw path v hleaf
    refine ⟨not_losesHead_of_keepsLeaves hkeeps hraw hleaf, fun path' hne hnode hkey => ?_⟩
    obtain ⟨v', hpath'⟩ := Option.isSome_iff_exists.mp hnode
    rw [← flatKey_eq] at hkey
    exact eq_of_keepsLeaves hkeeps hraw hleaf hne hpath' hkey
  · intro hall members hraw
    have hapart := hall members hraw
    constructor
    · intro e fields hparse path v hleaf
      obtain ⟨hlost, hother⟩ := hapart path v hleaf
      rw [parseJSON_eq e hraw] at hparse
      cases hparse
      have hkey := flatKey_eq_dotted hleaf.1 hlost
      have hmem : dotted path ∈ (Dict.ofList (flattenJSON e [] "" (.obj members))).keys := by
        rw [Dict.ofList, Dict.mem_keys_update, ← hkey]
        exact .inl (List.mem_map_of_mem
          ((mem_flattenJSON_iff_getPath e [] "" _ (flatKey path, v)).mpr
            ⟨path, hleaf.1, hleaf.2.1, rfl⟩))
      obtain ⟨w, hw⟩ := Option.isSome_iff_exists.mp (Dict.mem_keys_iff.mp hmem)
      obtain ⟨path', hne, hpath', hkey'⟩ := exists_path_of_get? hw
      have hsame := hother path' hne (by rw [hpath']; rfl) (by rw [← flatKey_eq, hkey'])
      rw [hsame, hleaf.2.1] at hpath'
      rw [hw, hpath']
    · intro path path' v v' hleaf hleaf' hkey
      obtain ⟨hlost', -⟩ := hapart path' v' hleaf'
      have hsame := (hapart path v hleaf).2 path' hleaf'.1 (by rw [hleaf'.2.1]; rfl)
      rw [← flatKey_eq, flatKey_eq_dotted hleaf'.1 hlost'] at hsame
      exact (hsame hkey.symm).symm

/-- The member "b" of "a" and the member "a.b" share a field. -/
theorem not_keepsLeaves_dotted :
    ¬ KeepsLeaves "\x7b\"a.b\":\"x\",\"a\":\x7b\"b\":\"y\"\x7d\x7d" := by
  intro hkeeps
  obtain ⟨-, hdistinct⟩ := hkeeps [("a.b", .str "x"), ("a", .obj [("b", .str "y")])]
    (by decide +kernel)
  have hatom (s : String) : Json.IsAtom (.str s : Value) := by
    rintro _ ⟨⟩
  have hsame := hdistinct ["a.b"] ["a", "b"] (.str "x") (.str "y")
    ⟨by simp, by decide +kernel, hatom "x"⟩ ⟨by simp, by decide +kernel, hatom "y"⟩
    (by decide +kernel)
  exact absurd hsame (by decide)

end Leaves

end Ulpf.ParserRuntime
