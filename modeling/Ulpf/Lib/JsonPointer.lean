import Ulpf.Lib.JsonPath
import Ulpf.Lib.Text

/-!
JSON Pointers: texts of reference tokens, each after a slash, that lead to a place in a document.
-/

namespace Ulpf.Lib.JsonPointer

open Ulpf.Lib.Text

universe u

/-- A reference token without its escapes: `~1` stands for a slash, `~0` for a tilde. -/
def unescape : List Char → Option (List Char)
  | [] => some []
  | '~' :: '0' :: rest => (unescape rest).map ('~' :: ·)
  | '~' :: '1' :: rest => (unescape rest).map ('/' :: ·)
  | c :: rest => if c = '~' then none else (unescape rest).map (c :: ·)

/-- The reference tokens of a pointer; a text that is no pointer has none. -/
def tokens (pointer : List Char) : Option (List (List Char)) :=
  match pointer with
  | [] => some []
  | c :: rest => if c = '/' then (rest.splitOn '/').mapM unescape else none

/-- The index that a token is the canonical numeral of. -/
def index? (token : List Char) : Option ℕ :=
  match token with
  | ['0'] => some 0
  | c :: _ => if c = '0' then none else decimal? token
  | [] => none

section Evaluation

variable {ν : Type u}

/-- What a token of a pointer leads to. -/
def child (x : Json ν) (token : List Char) : Option (Json ν) :=
  match x with
  | .obj members => lookup (String.ofList token) members
  | .arr items => (index? token).bind fun i => items[i]?
  | _ => none

/-- The value at the end of a pointer. -/
def eval (pointer : String) (doc : Json ν) : Option (Json ν) :=
  (tokens pointer.toList).bind fun tokens => tokens.foldlM child doc

/-- Along objects the tokens are the keys of a path. -/
theorem foldlM_child_of_getPath {path : List String} {doc v : Json ν}
    (h : doc.getPath path = some v) : (path.map String.toList).foldlM child doc = some v := by
  induction path generalizing doc with
  | nil => exact h
  | cons k path ih =>
      obtain ⟨x, hlookup, hbelow⟩ := Option.bind_eq_some_iff.mp h
      have hchild : child doc k.toList = some x := by
        cases doc with
        | obj members => rwa [child, String.ofList_toList]
        | _ => cases hlookup
      rw [List.map_cons, List.foldlM_cons, hchild]
      exact ih hbelow

end Evaluation

section Tokens

variable {token result : List Char}

theorem unescape_eq_some (h : unescape token = some result) :
    ('~' ∉ token ∧ result = token) ∨ result.length < token.length := by
  induction token using unescape.induct generalizing result with
  | case1 =>
      cases h
      exact .inl ⟨by simp, rfl⟩
  | case2 rest ih =>
      rw [unescape] at h
      obtain ⟨text, htext, rfl⟩ := Option.map_eq_some_iff.mp h
      obtain ⟨-, rfl⟩ | hshorter := ih htext
      · exact .inr (by simp)
      · exact .inr (by simp only [List.length_cons]; omega)
  | case3 rest ih =>
      rw [unescape] at h
      obtain ⟨text, htext, rfl⟩ := Option.map_eq_some_iff.mp h
      obtain ⟨-, rfl⟩ | hshorter := ih htext
      · exact .inr (by simp)
      · exact .inr (by simp only [List.length_cons]; omega)
  | case4 rest hzero hone =>
      rw [unescape.eq_4 _ _ hzero hone, if_pos rfl] at h
      cases h
  | case5 c rest hzero hone hc ih =>
      rw [unescape.eq_4 _ _ hzero hone, if_neg hc] at h
      obtain ⟨text, htext, rfl⟩ := Option.map_eq_some_iff.mp h
      obtain ⟨htilde, rfl⟩ | hshorter := ih htext
      · exact .inl ⟨by simp [htilde, Ne.symm hc], rfl⟩
      · exact .inr (by simp only [List.length_cons]; omega)

theorem unescape_eq_self (h : '~' ∉ token) : unescape token = some token := by
  induction token with
  | nil => rfl
  | cons c rest ih =>
      obtain ⟨hc, hrest⟩ := not_or.mp (mt List.mem_cons.mpr h)
      rw [unescape.eq_4, if_neg (Ne.symm hc), ih hrest]
      · rfl
      · rintro _ rfl
        exact absurd rfl hc
      · rintro _ rfl
        exact absurd rfl hc

theorem mapM_unescape_eq_some {parts results : List (List Char)}
    (h : parts.mapM unescape = some results) :
    results.length = parts.length ∧
      ((∀ part ∈ parts, '~' ∉ part) ∧ results = parts ∨
        results.flatten.length < parts.flatten.length) := by
  induction parts generalizing results with
  | nil =>
      cases h
      exact ⟨rfl, .inl ⟨List.forall_mem_nil _, rfl⟩⟩
  | cons part parts ih =>
      rw [List.mapM_cons] at h
      obtain ⟨first, hfirst, h⟩ := Option.bind_eq_some_iff.mp h
      obtain ⟨rest, hrest, h⟩ := Option.bind_eq_some_iff.mp h
      cases h
      obtain ⟨hlength, hparts⟩ := ih hrest
      refine ⟨by rw [List.length_cons, List.length_cons, hlength], ?_⟩
      simp only [List.flatten_cons, List.length_append, List.forall_mem_cons]
      obtain ⟨htilde, rfl⟩ | hshorter := unescape_eq_some hfirst
      · obtain ⟨htildes, rfl⟩ | hshort := hparts
        · exact .inl ⟨⟨htilde, htildes⟩, rfl⟩
        · exact .inr (by omega)
      · obtain ⟨-, rfl⟩ | hshort := hparts
        · exact .inr (by omega)
        · exact .inr (by omega)

theorem mapM_unescape_eq_self {parts : List (List Char)} (h : ∀ part ∈ parts, '~' ∉ part) :
    parts.mapM unescape = some parts := by
  induction parts with
  | nil => rfl
  | cons part parts ih =>
      obtain ⟨hpart, hparts⟩ := List.forall_mem_cons.mp h
      rw [List.mapM_cons, unescape_eq_self hpart, ih hparts]
      rfl

end Tokens

end Ulpf.Lib.JsonPointer
