import Ulpf.Go.Utf8
import Ulpf.Lib.Binary64
import Ulpf.Lib.Json

/-!
Values behind an `interface{}`, with the sizes of their integers and the bytes of
their strings, and what `encoding/json` makes of them: the documents it writes and
the values it reads from documents.
-/

namespace Ulpf.Go

open Ulpf.Lib

/-- A number of a document: an integer numeral, or the numeral of a float, of which
the encoder writes as many digits as tell it from the other floats. -/
inductive Numeral where
  | int (n : ℤ)
  | float (x : Binary64)
  deriving DecidableEq

/-- A JSON document with numbers as their numerals. -/
abbrev Document := Json Numeral

/-- A value of type `any`, as Go's decoder or a caller makes it. -/
inductive Interface where
  | null
  | bool (b : Bool)
  | int (n : Int64)
  | int64 (n : Int64)
  | float64 (x : Binary64)
  | string (s : GoString)
  | slice (items : List Interface)
  | map (members : List (GoString × Interface))

namespace Interface

theorem induct {P : Interface → Prop} (null : P .null) (bool : ∀ b, P (.bool b))
    (int : ∀ n, P (.int n)) (int64 : ∀ n, P (.int64 n)) (float64 : ∀ x, P (.float64 x))
    (string : ∀ s, P (.string s)) (slice : ∀ items, (∀ x ∈ items, P x) → P (.slice items))
    (map : ∀ members, (∀ m ∈ members, P m.2) → P (.map members)) (x : Interface) : P x := by
  refine @Interface.rec P (fun items => ∀ x ∈ items, P x) (fun members => ∀ m ∈ members, P m.2)
    (fun m => P m.2) null bool int int64 float64 string slice map ?_ ?_ ?_ ?_ ?_ x
  · exact List.forall_mem_nil _
  · intro head tail hhead htail
    exact List.forall_mem_cons.mpr ⟨hhead, htail⟩
  · exact List.forall_mem_nil _
  · intro head tail hhead htail
    exact List.forall_mem_cons.mpr ⟨hhead, htail⟩
  · intro _ _ h
    exact h

section Maps

mutual

/-- The maps of a value have each key once. -/
def Distinct : Interface → Prop
  | .slice items => DistinctItems items
  | .map members => (members.map Prod.fst).Nodup ∧ DistinctMembers members
  | _ => True

/-- No item has a map with a key twice. -/
def DistinctItems : List Interface → Prop
  | [] => True
  | x :: xs => Distinct x ∧ DistinctItems xs

/-- No value of a map has a map with a key twice. -/
def DistinctMembers : List (GoString × Interface) → Prop
  | [] => True
  | (_, x) :: ms => Distinct x ∧ DistinctMembers ms

end

theorem distinctItems_iff {items : List Interface} :
    DistinctItems items ↔ ∀ x ∈ items, Distinct x := by
  induction items with
  | nil => simp [DistinctItems]
  | cons x xs ih => rw [DistinctItems, ih, List.forall_mem_cons]

theorem distinctMembers_iff {members : List (GoString × Interface)} :
    DistinctMembers members ↔ ∀ m ∈ members, Distinct m.2 := by
  induction members with
  | nil => simp [DistinctMembers]
  | cons m ms ih => rw [DistinctMembers, ih, List.forall_mem_cons]

mutual

/-- `reflect.DeepEqual`: a map has no order. -/
def Same : Interface → Interface → Prop
  | .slice xs, .slice ys => SameItems xs ys
  | .map ms, .map ns => SameMembers ms ns ∧ ∀ k ∈ ns.map Prod.fst, k ∈ ms.map Prod.fst
  | x, y => x = y

/-- The items of two slices are the same, one by one. -/
def SameItems : List Interface → List Interface → Prop
  | [], [] => True
  | x :: xs, y :: ys => Same x y ∧ SameItems xs ys
  | _, _ => False

/-- Every entry of one map is, in value, an entry of the other. -/
def SameMembers : List (GoString × Interface) → List (GoString × Interface) → Prop
  | [], _ => True
  | (k, x) :: ms, ns => (∃ y, (k, y) ∈ ns ∧ Same x y) ∧ SameMembers ms ns

end

theorem sameMembers_iff {ms ns : List (GoString × Interface)} :
    SameMembers ms ns ↔ ∀ m ∈ ms, ∃ y, (m.1, y) ∈ ns ∧ Same m.2 y := by
  induction ms with
  | nil => simp [SameMembers]
  | cons m ms ih => rw [SameMembers, ih, List.forall_mem_cons]

theorem Same.refl (x : Interface) : Same x x := by
  induction x using Interface.induct with
  | slice items ih =>
      rw [Same]
      induction items with
      | nil => trivial
      | cons x xs ihs =>
          rw [List.forall_mem_cons] at ih
          exact ⟨ih.1, ihs ih.2⟩
  | map members ih =>
      rw [Same, sameMembers_iff]
      exact ⟨fun m hm => ⟨m.2, hm, ih m hm⟩, fun k hk => hk⟩
  | _ => rfl

end Maps

section Encoding

mutual

/-- `json.Marshal`, which fails on an infinity and on what is no number. -/
def marshal : Interface → Option Document
  | .null => some .null
  | .bool b => some (.bool b)
  | .int n | .int64 n => some (.num (.int n.toInt))
  | .float64 x => if x.toRat?.isSome then some (.num (.float x)) else none
  | .string s => some (.str (ofBytes s))
  | .slice items => (marshalItems items).map .arr
  | .map members => (marshalMembers members).map .obj

def marshalItems : List Interface → Option (List Document)
  | [] => some []
  | x :: xs => do
      let d ← marshal x
      let ds ← marshalItems xs
      return d :: ds

def marshalMembers : List (GoString × Interface) → Option (List (String × Document))
  | [] => some []
  | (k, x) :: ms => do
      let d ← marshal x
      let ds ← marshalMembers ms
      return (ofBytes k, d) :: ds

end

/-- A number as a `float64`; a numeral beyond the range is an error. -/
def readFloat : Numeral → Option Binary64
  | .int n => let x := Binary64.ofInt n; if x.toRat?.isSome then some x else none
  | .float x => if x.toRat?.isSome then some x else none

mutual

/-- A document into an `interface{}`: every number becomes a `float64`. -/
def unmarshal : Document → Option Interface
  | .null => some .null
  | .bool b => some (.bool b)
  | .num n => (readFloat n).map .float64
  | .str s => some (.string (utf8 s))
  | .arr items => (unmarshalItems items).map .slice
  | .obj members => (unmarshalMembers members).map fun ms => .map (Dict.ofList ms).entries

def unmarshalItems : List Document → Option (List Interface)
  | [] => some []
  | d :: ds => do
      let x ← unmarshal d
      let xs ← unmarshalItems ds
      return x :: xs

def unmarshalMembers : List (String × Document) → Option (List (GoString × Interface))
  | [] => some []
  | (k, d) :: ds => do
      let x ← unmarshal d
      let ms ← unmarshalMembers ds
      return (utf8 k, x) :: ms

end

end Encoding

section RoundTrip

mutual

/-- The values that come back from a document as they are: their numbers are floats
and finite, their strings valid UTF-8. -/
def Lossless : Interface → Prop
  | .null | .bool _ => True
  | .int _ | .int64 _ => False
  | .float64 x => x.toRat?.isSome = true
  | .string s => utf8Valid s = true
  | .slice items => LosslessItems items
  | .map members => LosslessMembers members

def LosslessItems : List Interface → Prop
  | [] => True
  | x :: xs => Lossless x ∧ LosslessItems xs

def LosslessMembers : List (GoString × Interface) → Prop
  | [] => True
  | (k, x) :: ms => (utf8Valid k = true ∧ Lossless x) ∧ LosslessMembers ms

end

theorem losslessItems_iff {items : List Interface} :
    LosslessItems items ↔ ∀ x ∈ items, Lossless x := by
  induction items with
  | nil => simp [LosslessItems]
  | cons x xs ih => rw [LosslessItems, ih, List.forall_mem_cons]

theorem losslessMembers_iff {members : List (GoString × Interface)} :
    LosslessMembers members ↔ ∀ m ∈ members, utf8Valid m.1 = true ∧ Lossless m.2 := by
  induction members with
  | nil => simp [LosslessMembers]
  | cons m ms ih => rw [LosslessMembers, ih, List.forall_mem_cons]

theorem isSome_toRat?_of_readFloat {n : Numeral} {x : Binary64} (h : readFloat n = some x) :
    x.toRat?.isSome = true := by
  cases n with
  | int n =>
      rw [readFloat, Option.ite_none_right_eq_some, Option.some.injEq] at h
      exact h.2 ▸ h.1
  | float y =>
      rw [readFloat, Option.ite_none_right_eq_some, Option.some.injEq] at h
      exact h.2 ▸ h.1

theorem forall_unmarshalItems {P : Interface → Prop} {items : List Document}
    (h : ∀ d ∈ items, ∀ x, unmarshal d = some x → P x) {xs : List Interface}
    (hxs : unmarshalItems items = some xs) : ∀ x ∈ xs, P x := by
  induction items generalizing xs with
  | nil =>
      cases hxs
      exact List.forall_mem_nil _
  | cons d ds ih =>
      obtain ⟨y, hy, hxs⟩ := Option.bind_eq_some_iff.mp hxs
      obtain ⟨ys, hys, hxs⟩ := Option.bind_eq_some_iff.mp hxs
      cases hxs
      rw [List.forall_mem_cons] at h ⊢
      exact ⟨h.1 y hy, ih h.2 hys⟩

theorem forall_unmarshalMembers {P : Interface → Prop} {members : List (String × Document)}
    (h : ∀ m ∈ members, ∀ x, unmarshal m.2 = some x → P x) {ms : List (GoString × Interface)}
    (hms : unmarshalMembers members = some ms) : ∀ m ∈ ms, utf8Valid m.1 = true ∧ P m.2 := by
  induction members generalizing ms with
  | nil =>
      cases hms
      exact List.forall_mem_nil _
  | cons m ds ih =>
      obtain ⟨y, hy, hms⟩ := Option.bind_eq_some_iff.mp hms
      obtain ⟨ys, hys, hms⟩ := Option.bind_eq_some_iff.mp hms
      cases hms
      rw [List.forall_mem_cons] at h ⊢
      exact ⟨⟨utf8Valid_utf8 _, h.1 y hy⟩, ih h.2 hys⟩

theorem lossless_unmarshal {d : Document} {x : Interface} (h : unmarshal d = some x) :
    Lossless x ∧ Distinct x := by
  induction d using Json.induct generalizing x with
  | null =>
      cases h
      exact ⟨trivial, trivial⟩
  | bool b =>
      cases h
      exact ⟨trivial, trivial⟩
  | num n =>
      obtain ⟨y, hy, rfl⟩ := Option.map_eq_some_iff.mp h
      exact ⟨isSome_toRat?_of_readFloat hy, trivial⟩
  | str s =>
      cases h
      exact ⟨utf8Valid_utf8 s, trivial⟩
  | arr items ih =>
      obtain ⟨xs, hxs, rfl⟩ := Option.map_eq_some_iff.mp h
      have hall := forall_unmarshalItems (fun d hd _ => ih d hd) hxs
      rw [Lossless, Distinct, losslessItems_iff, distinctItems_iff]
      exact ⟨fun x hx => (hall x hx).1, fun x hx => (hall x hx).2⟩
  | obj members ih =>
      obtain ⟨ms, hms, rfl⟩ := Option.map_eq_some_iff.mp h
      have hall := forall_unmarshalMembers (fun m hm _ => ih m hm) hms
      rw [Lossless, Distinct, losslessMembers_iff, distinctMembers_iff]
      refine ⟨fun m hm => ?_, (Dict.ofList ms).nodup, fun m hm => ?_⟩
      · obtain ⟨hkey, hlossless, -⟩ := hall m (Dict.mem_of_mem_ofList hm)
        exact ⟨hkey, hlossless⟩
      · exact (hall m (Dict.mem_of_mem_ofList hm)).2.2

theorem lossless_unmarshalMembers {members : List (String × Document)}
    {ms : List (GoString × Interface)} (h : unmarshalMembers members = some ms) :
    ∀ m ∈ ms, utf8Valid m.1 = true ∧ Lossless m.2 ∧ Distinct m.2 :=
  forall_unmarshalMembers (fun _ _ _ hread => lossless_unmarshal hread) h

theorem unmarshal_marshal {x : Interface} (hx : Lossless x) (hdistinct : Distinct x) :
    ∃ d, marshal x = some d ∧ unmarshal d = some x := by
  induction x using Interface.induct with
  | null => exact ⟨.null, rfl, rfl⟩
  | bool b => exact ⟨.bool b, rfl, rfl⟩
  | int n => exact hx.elim
  | int64 n => exact hx.elim
  | float64 x =>
      rw [Lossless] at hx
      refine ⟨.num (.float x), ?_, ?_⟩
      · rw [marshal, if_pos hx]
      · rw [unmarshal, readFloat, if_pos hx]
        rfl
  | string s =>
      refine ⟨.str (ofBytes s), rfl, ?_⟩
      rw [unmarshal, utf8_ofBytes_iff.mpr hx]
  | slice items ih =>
      rw [Lossless, losslessItems_iff] at hx
      rw [Distinct, distinctItems_iff] at hdistinct
      have hitems : ∃ ds, marshalItems items = some ds ∧ unmarshalItems ds = some items := by
        induction items with
        | nil => exact ⟨[], rfl, rfl⟩
        | cons x xs ihs =>
            rw [List.forall_mem_cons] at ih hx hdistinct
            obtain ⟨d, hd, hback⟩ := ih.1 hx.1 hdistinct.1
            obtain ⟨ds, hds, hbacks⟩ := ihs ih.2 hx.2 hdistinct.2
            refine ⟨d :: ds, ?_, ?_⟩
            · rw [marshalItems, hd, hds]
              rfl
            · rw [unmarshalItems, hback, hbacks]
              rfl
      obtain ⟨ds, hds, hback⟩ := hitems
      refine ⟨.arr ds, ?_, ?_⟩
      · rw [marshal, hds]
        rfl
      · rw [unmarshal, hback]
        rfl
  | map members ih =>
      rw [Lossless, losslessMembers_iff] at hx
      rw [Distinct, distinctMembers_iff] at hdistinct
      obtain ⟨hnodup, hdistinct⟩ := hdistinct
      have hmembers : ∃ ds, marshalMembers members = some ds ∧
          unmarshalMembers ds = some members := by
        clear hnodup
        induction members with
        | nil => exact ⟨[], rfl, rfl⟩
        | cons m ms ihs =>
            rw [List.forall_mem_cons] at ih hx hdistinct
            obtain ⟨d, hd, hback⟩ := ih.1 hx.1.2 hdistinct.1
            obtain ⟨ds, hds, hbacks⟩ := ihs ih.2 hx.2 hdistinct.2
            refine ⟨(ofBytes m.1, d) :: ds, ?_, ?_⟩
            · rw [marshalMembers, hd, hds]
              rfl
            · rw [unmarshalMembers, hback, hbacks, utf8_ofBytes_iff.mpr hx.1.1]
              rfl
      obtain ⟨ds, hds, hback⟩ := hmembers
      refine ⟨.obj ds, ?_, ?_⟩
      · rw [marshal, hds]
        rfl
      · rw [unmarshal, hback, Option.map_some, Dict.entries_ofList_of_nodup hnodup]

theorem Same.lossless {x y : Interface} (h : Same x y) (hy : Lossless y) : Lossless x := by
  induction x using Interface.induct generalizing y with
  | slice xs ih =>
      cases y with
      | slice ys =>
          rw [Lossless] at hy ⊢
          rw [Same] at h
          induction xs generalizing ys with
          | nil => trivial
          | cons x xs ihs =>
              cases ys with
              | nil => exact h.elim
              | cons y ys =>
                  rw [List.forall_mem_cons] at ih
                  exact ⟨ih.1 h.1 hy.1, ihs ih.2 ys h.2 hy.2⟩
      | _ => cases h
  | map ms ih =>
      cases y with
      | map ns =>
          rw [Lossless, losslessMembers_iff] at hy ⊢
          rw [Same, sameMembers_iff] at h
          intro m hm
          obtain ⟨y, hmem, hsame⟩ := h.1 m hm
          exact ⟨(hy _ hmem).1, ih m hm hsame (hy _ hmem).2⟩
      | _ => cases h
  | _ =>
      cases h
      exact hy

mutual

/-- Number of containers around the innermost value. -/
def depth : Interface → ℕ
  | .slice items => depthItems items + 1
  | .map members => depthMembers members + 1
  | _ => 0

def depthItems : List Interface → ℕ
  | [] => 0
  | x :: xs => max (depth x) (depthItems xs)

def depthMembers : List (GoString × Interface) → ℕ
  | [] => 0
  | (_, x) :: ms => max (depth x) (depthMembers ms)

end

theorem depth_of_marshal {x : Interface} {d : Document} (h : marshal x = some d) :
    d.depth = x.depth := by
  induction x using Interface.induct generalizing d with
  | slice items ih =>
      obtain ⟨ds, hds, rfl⟩ := Option.map_eq_some_iff.mp h
      rw [Json.depth, depth]
      clear h
      induction items generalizing ds with
      | nil =>
          cases hds
          rfl
      | cons x xs ihs =>
          obtain ⟨y, hy, hds⟩ := Option.bind_eq_some_iff.mp hds
          obtain ⟨ys, hys, hds⟩ := Option.bind_eq_some_iff.mp hds
          cases hds
          rw [List.forall_mem_cons] at ih
          rw [Json.depthItems, depthItems, ih.1 hy, Nat.add_right_cancel (ihs ih.2 ys hys)]
  | map members ih =>
      obtain ⟨ds, hds, rfl⟩ := Option.map_eq_some_iff.mp h
      rw [Json.depth, depth]
      clear h
      induction members generalizing ds with
      | nil =>
          cases hds
          rfl
      | cons m ms ihs =>
          obtain ⟨y, hy, hds⟩ := Option.bind_eq_some_iff.mp hds
          obtain ⟨ys, hys, hds⟩ := Option.bind_eq_some_iff.mp hds
          cases hds
          rw [List.forall_mem_cons] at ih
          rw [Json.depthMembers, depthMembers, ih.1 hy, Nat.add_right_cancel (ihs ih.2 ys hys)]
  | float64 x =>
      rw [marshal, Option.ite_none_right_eq_some, Option.some.injEq] at h
      rw [← h.2]
      rfl
  | _ =>
      cases h
      rfl

end RoundTrip

end Interface

end Ulpf.Go
