import Ulpf.Lib.Regex
import Mathlib.Tactic.Common

/-!
Backtracking search with an expression: the first of its matches after which a continuation
succeeds. Each operator of expressions has an equation, and the equations of a concatenation
follow its text from the left.
-/

namespace Ulpf.Lib.Regex

variable {α : Type*}

/-- The result of a continuation after the first match after which it has one. -/
def search (r : Regex) (k : Cursor → Option α) (c : Cursor) : Option α := (run r c).findSome? k

section Lists

variable {β γ : Type*}

theorem findSome?_flatMap (f : β → List γ) (k : γ → Option α) (l : List β) :
    (l.flatMap f).findSome? k = l.findSome? fun x => (f x).findSome? k := by
  induction l with
  | nil => rfl
  | cons x l ih =>
      rw [List.flatMap_cons, List.findSome?_append, ih, List.findSome?_cons]
      cases (f x).findSome? k <;> rfl

end Lists

section Operators

variable {r s : Regex} {k k' : Cursor → Option α} {c : Cursor}

theorem matchStart_eq_search (r : Regex) (s : List Char) :
    matchStart r s = search r Option.some ⟨none, s, []⟩ := by
  rw [matchStart, search]
  cases run r ⟨none, s, []⟩ <;> rfl

theorem map_search {β : Type*} (f : α → β) (r : Regex) (k : Cursor → Option α) (c : Cursor) :
    (search r k c).map f = search r (fun c => (k c).map f) c := by
  rw [search, search]
  induction run r c with
  | nil => rfl
  | cons c' rest ih =>
      rw [List.findSome?_cons, List.findSome?_cons]
      cases k c' with
      | none => exact ih
      | some a => rfl

theorem map_groups_matchStart (r : Regex) (s : List Char) :
    (matchStart r s).map Cursor.groups =
      search r (fun c => Option.some c.groups) ⟨none, s, []⟩ := by
  rw [matchStart_eq_search, map_search]
  rfl

theorem exists_matchStart {s : List Char} {groups : List (ℕ × List Char)}
    (h : search r (fun c => Option.some c.groups) ⟨none, s, []⟩ = Option.some groups) :
    ∃ m, matchStart r s = Option.some m ∧ m.groups = groups := by
  rw [← Option.map_eq_some_iff, map_groups_matchStart]
  exact h

theorem exists_of_search_eq {rest : List Char} {groups : List (ℕ × List Char)}
    (h : search r (fun c => Option.some (c.rest, c.groups)) c = Option.some (rest, groups)) :
    ∃ m, search r Option.some c = Option.some m ∧ m.rest = rest ∧ m.groups = groups := by
  have hmap := map_search (fun c : Cursor => (c.rest, c.groups)) r Option.some c
  obtain ⟨m, hm, hparts⟩ := Option.map_eq_some_iff.mp (hmap.trans h)
  obtain ⟨hrest, hgroups⟩ := Prod.mk.injEq .. ▸ hparts
  exact ⟨m, hm, hrest, hgroups⟩

theorem exists_of_search_eq_some {a : α} (h : search r k c = Option.some a) :
    ∃ m ∈ run r c, k m = Option.some a := List.exists_of_findSome?_eq_some h

theorem search_eps : search eps k c = k c := by
  rw [search, run, List.findSome?_cons]
  cases k c <;> rfl

theorem search_seq : search (seq r s) k c = search r (search s k) c := by
  rw [search, run, findSome?_flatMap]
  rfl

theorem search_alt : search (alt r s) k c = (search r k c).or (search s k c) := by
  rw [search, run, List.findSome?_append]
  rfl

theorem search_group {index : ℕ} : search (group index r) k c =
    search r (fun c' => k { c' with
      groups := (index, c.rest.take (c.rest.length - c'.rest.length)) :: c'.groups }) c := by
  rw [search, run, List.findSome?_map]
  rfl

theorem search_char_cons {p : Char → Bool} {before : Option Char} {x : Char} {rest : List Char}
    {groups : List (ℕ × List Char)} : search (char p) k ⟨before, x :: rest, groups⟩ =
      if p x then k ⟨Option.some x, rest, groups⟩ else none := by
  rw [search, run]
  dsimp only
  split
  · rw [List.findSome?_cons]
    cases k _ <;> rfl
  · rfl

theorem search_ahead :
    search (ahead r) k c = if (search r Option.some c).isSome then k c else none := by
  rw [search, run, search]
  cases run r c with
  | nil => rfl
  | cons c' rest =>
      rw [List.findSome?_cons, List.isEmpty_cons, if_neg Bool.false_ne_true, List.findSome?_cons]
      cases k c <;> rfl

theorem search_start : search start k c = if c.before.isNone then k c else none := by
  rw [search, run]
  split
  · rw [List.findSome?_cons]
    cases k c <;> rfl
  · rfl

theorem search_stop : search stop k c = if c.rest.isEmpty then k c else none := by
  rw [search, run]
  split
  · rw [List.findSome?_cons]
    cases k c <;> rfl
  · rfl

theorem search_stopLine :
    search stopLine k c = if c.rest.isEmpty || c.rest = ['\n'] then k c else none := by
  rw [search, run]
  split
  · rw [List.findSome?_cons]
    cases k c <;> rfl
  · rfl

end Operators

section Matches

variable {r s : Regex} {k k' : Cursor → Option α} {c c' : Cursor} {p : Char → Bool}

theorem mem_run_char : c' ∈ run (char p) c ↔
    ∃ x, p x = true ∧ c.rest = x :: c'.rest ∧ c'.before = Option.some x ∧ c'.groups = c.groups := by
  obtain ⟨before, rest, groups⟩ := c
  obtain ⟨before', rest', groups'⟩ := c'
  cases rest with
  | nil => simp [run]
  | cons x rest =>
      rw [run]
      dsimp only
      split
      · rename_i hx
        simp only [List.mem_singleton, Cursor.mk.injEq, List.cons.injEq]
        constructor
        · rintro ⟨rfl, rfl, rfl⟩
          exact ⟨x, hx, ⟨rfl, rfl⟩, rfl, rfl⟩
        · rintro ⟨y, -, ⟨rfl, rfl⟩, rfl, rfl⟩
          exact ⟨rfl, rfl, rfl⟩
      · rename_i hx
        simp only [List.not_mem_nil, List.cons.injEq, false_iff]
        rintro ⟨y, hy, ⟨rfl, -⟩, -⟩
        exact hx hy

/-- The groups that an expression can capture. -/
def indices : Regex → List ℕ
  | eps | char _ | ahead _ | start | stop | stopLine => []
  | seq r s | alt r s => indices r ++ indices s
  | star _ r => indices r
  | group index r => index :: indices r

/-- What relates the two ends of every character and of every capture relates the ends of every
match. -/
theorem rel_of_mem_run {R : Cursor → Cursor → Prop} (hrefl : ∀ c, R c c)
    (htrans : ∀ {c₁ c₂ c₃}, R c₁ c₂ → R c₂ c₃ → R c₁ c₃)
    (hchar : ∀ before x rest groups, R ⟨before, x :: rest, groups⟩ ⟨Option.some x, rest, groups⟩)
    (hgroup : ∀ index ∈ indices r, ∀ {c c'} captured,
      R c c' → R c { c' with groups := (index, captured) :: c'.groups })
    (h : c' ∈ run r c) : R c c' := by
  induction r generalizing c c' with
  | eps =>
      rw [List.mem_singleton.mp h]
      exact hrefl c
  | char p =>
      obtain ⟨before, rest, groups⟩ := c
      obtain ⟨before', rest', groups'⟩ := c'
      obtain ⟨x, -, hrest, hbefore, hgroups⟩ := mem_run_char.mp h
      dsimp only at hrest hbefore hgroups
      rw [hrest, hbefore, hgroups]
      exact hchar before x rest' groups
  | seq r s ihr ihs =>
      obtain ⟨next, hnext, hc'⟩ := List.mem_flatMap.mp h
      exact htrans (ihr (fun i hi => hgroup i (List.mem_append_left _ hi)) hnext)
        (ihs (fun i hi => hgroup i (List.mem_append_right _ hi)) hc')
  | alt r s ihr ihs =>
      obtain hleft | hright := List.mem_append.mp h
      · exact ihr (fun i hi => hgroup i (List.mem_append_left _ hi)) hleft
      · exact ihs (fun i hi => hgroup i (List.mem_append_right _ hi)) hright
  | star greedy r ih =>
      rw [run] at h
      generalize c.rest.length = fuel at h
      induction fuel generalizing c with
      | zero =>
          rw [List.mem_singleton.mp h]
          exact hrefl c
      | succ fuel ihfuel =>
          have hround (hmem : c' ∈ ((run r c).filter fun c' =>
              c'.rest.length < c.rest.length).flatMap (iterate greedy (run r) fuel)) : R c c' := by
            obtain ⟨next, hnext, hc'⟩ := List.mem_flatMap.mp hmem
            exact htrans (ih hgroup (List.mem_filter.mp hnext).1) (ihfuel hc')
          rw [iterate] at h
          split at h
          · obtain hmem | hself := List.mem_append.mp h
            · exact hround hmem
            · rw [List.mem_singleton.mp hself]
              exact hrefl c
          · obtain rfl | hmem := List.mem_cons.mp h
            · exact hrefl c'
            · exact hround hmem
  | group index r ih =>
      obtain ⟨next, hnext, rfl⟩ := List.mem_map.mp h
      exact hgroup index List.mem_cons_self _
        (ih (fun i hi => hgroup i (List.mem_cons_of_mem _ hi)) hnext)
  | ahead r _ =>
      rw [run] at h
      split at h
      · cases h
      · rw [List.mem_singleton.mp h]
        exact hrefl c
  | start | stop | stopLine =>
      rw [run] at h
      split at h
      · rw [List.mem_singleton.mp h]
        exact hrefl c
      · cases h

theorem suffix_of_mem_run (h : c' ∈ run r c) : c'.rest <:+ c.rest :=
  rel_of_mem_run (R := fun c c' => c'.rest <:+ c.rest) (fun c => List.suffix_refl c.rest)
    (fun h h' => h'.trans h) (fun _ x rest _ => List.suffix_cons x rest) (fun _ _ _ _ _ h => h) h

theorem length_le_of_mem_run (h : c' ∈ run r c) : c'.rest.length ≤ c.rest.length :=
  (suffix_of_mem_run h).length_le

theorem groups_of_mem_run (h : c' ∈ run r c) :
    ∃ captured, c'.groups = captured ++ c.groups ∧ ∀ entry ∈ captured, entry.1 ∈ indices r := by
  refine rel_of_mem_run (R := fun c c' => ∃ captured, c'.groups = captured ++ c.groups ∧
    ∀ entry ∈ captured, entry.1 ∈ indices r) ?_ ?_ ?_ ?_ h
  · exact fun c => ⟨[], rfl, List.forall_mem_nil _⟩
  · rintro c₁ c₂ c₃ ⟨first, hfirst, hin⟩ ⟨second, hsecond, hin'⟩
    refine ⟨second ++ first, by rw [hsecond, hfirst, List.append_assoc], ?_⟩
    exact List.forall_mem_append.mpr ⟨hin', hin⟩
  · exact fun _ _ _ _ => ⟨[], rfl, List.forall_mem_nil _⟩
  · rintro index hindex c c' text ⟨captured, hcaptured, hin⟩
    refine ⟨(index, text) :: captured, by rw [hcaptured, List.cons_append], ?_⟩
    exact List.forall_mem_cons.mpr ⟨hindex, hin⟩

theorem exists_of_mem_run_group {index : ℕ} (h : c' ∈ run (group index r) c) :
    ∃ text next, next ∈ run r c ∧ c.rest = text ++ next.rest ∧ c'.rest = next.rest ∧
      c'.groups = (index, text) :: next.groups := by
  obtain ⟨next, hnext, rfl⟩ := List.mem_map.mp h
  obtain ⟨text, htext⟩ := suffix_of_mem_run hnext
  refine ⟨text, next, hnext, htext.symm, rfl, ?_⟩
  rw [← htext, List.length_append, Nat.add_sub_cancel, List.take_left]

end Matches

section Repetition

variable {r s : Regex} {k k' : Cursor → Option α} {c : Cursor}

theorem iterate_fuel (greedy : Bool) (step : Cursor → List Cursor) {fuel fuel' : ℕ}
    (h : c.rest.length ≤ fuel) (h' : c.rest.length ≤ fuel') :
    iterate greedy step fuel c = iterate greedy step fuel' c := by
  induction fuel generalizing fuel' c with
  | zero =>
      cases fuel' with
      | zero => rfl
      | succ fuel' =>
          have hnone : (step c).filter (fun c' => c'.rest.length < c.rest.length) = [] := by
            rw [List.filter_eq_nil_iff]
            intro c' _
            simp only [decide_eq_true_eq]
            omega
          rw [iterate, iterate, hnone]
          cases greedy <;> rfl
  | succ fuel ih =>
      cases fuel' with
      | zero =>
          have hnone : (step c).filter (fun c' => c'.rest.length < c.rest.length) = [] := by
            rw [List.filter_eq_nil_iff]
            intro c' _
            simp only [decide_eq_true_eq]
            omega
          rw [iterate, iterate, hnone]
          cases greedy <;> rfl
      | succ fuel' =>
          have hsame : ((step c).filter fun c' => c'.rest.length < c.rest.length).flatMap
              (iterate greedy step fuel) = ((step c).filter fun c' =>
                c'.rest.length < c.rest.length).flatMap (iterate greedy step fuel') := by
            apply List.flatMap_congr
            intro c' hc'
            have hshorter := of_decide_eq_true (List.mem_filter.mp hc').2
            exact ih (by omega) (by omega)
          rw [iterate, iterate, hsame]

/-- An expression that never matches the empty text. -/
def Consumes (r : Regex) : Prop := ∀ c, ∀ c' ∈ run r c, c'.rest.length < c.rest.length

theorem consumes_char (p : Char → Bool) : Consumes (char p) := by
  intro c c' h
  obtain ⟨before, rest, groups⟩ := c
  cases rest with
  | nil => cases h
  | cons x rest =>
      rw [run] at h
      dsimp only at h
      split at h
      · rw [List.mem_singleton.mp h]
        exact Nat.lt_succ_self _
      · cases h

theorem Consumes.seq (h : Consumes r) (s : Regex) : Consumes (seq r s) := by
  intro c c' hc'
  obtain ⟨next, hnext, hlast⟩ := List.mem_flatMap.mp hc'
  exact (length_le_of_mem_run hlast).trans_lt (h c next hnext)

theorem Consumes.alt (hr : Consumes r) (hs : Consumes s) : Consumes (alt r s) := by
  intro c c' hc'
  obtain hleft | hright := List.mem_append.mp hc'
  · exact hr c c' hleft
  · exact hs c c' hright

theorem run_star (h : Consumes r) (greedy : Bool) (c : Cursor) : run (star greedy r) c =
    if greedy then (run r c).flatMap (run (star greedy r)) ++ [c]
    else c :: (run r c).flatMap (run (star greedy r)) := by
  have hround : run (star greedy r) c = iterate greedy (run r) (c.rest.length + 1) c := by
    rw [run]
    exact iterate_fuel greedy (run r) le_rfl (Nat.le_succ _)
  have hall : (run r c).filter (fun c' => c'.rest.length < c.rest.length) = run r c := by
    rw [List.filter_eq_self]
    intro c' hc'
    simpa using h c c' hc'
  have hfurther : (run r c).flatMap (iterate greedy (run r) c.rest.length) =
      (run r c).flatMap (run (star greedy r)) := by
    apply List.flatMap_congr
    intro c' hc'
    rw [run]
    exact iterate_fuel greedy (run r) (h c c' hc').le le_rfl
  rw [hround, iterate, hall, hfurther]

theorem search_greedy (h : Consumes r) :
    search (star true r) k c = (search r (search (star true r) k) c).or (k c) := by
  rw [search, run_star h, if_pos rfl, List.findSome?_append, findSome?_flatMap, List.findSome?_cons]
  cases k c <;> rfl

theorem search_lazy (h : Consumes r) :
    search (star false r) k c = (k c).or (search r (search (star false r) k) c) := by
  rw [search, run_star h, if_neg Bool.false_ne_true, List.findSome?_cons, findSome?_flatMap]
  cases k c <;> rfl

/-- An expression whose matches are the single characters of a class. -/
def Single (r : Regex) (p : Char → Bool) : Prop :=
  ∀ c c', c' ∈ run r c ↔
    ∃ x, p x = true ∧ c.rest = x :: c'.rest ∧ c'.before = Option.some x ∧ c'.groups = c.groups

theorem single_char (p : Char → Bool) : Single (char p) p := fun _ _ => mem_run_char

theorem Single.alt {p q : Char → Bool} (hr : Single r p) (hs : Single s q) :
    Single (alt r s) fun x => p x || q x := by
  intro c c'
  rw [run, List.mem_append, hr c c', hs c c']
  simp only [Bool.or_eq_true]
  constructor
  · rintro (⟨x, hx, hrest⟩ | ⟨x, hx, hrest⟩)
    · exact ⟨x, .inl hx, hrest⟩
    · exact ⟨x, .inr hx, hrest⟩
  · rintro ⟨x, hx | hx, hrest⟩
    · exact .inl ⟨x, hx, hrest⟩
    · exact .inr ⟨x, hx, hrest⟩

theorem Single.consumes {p : Char → Bool} (h : Single r p) : Consumes r := by
  intro c c' hc'
  obtain ⟨x, -, hrest, -, -⟩ := (h c c').mp hc'
  rw [hrest]
  exact Nat.lt_succ_self _

theorem mem_run_star (h : Consumes r) {greedy : Bool} : c' ∈ run (star greedy r) c ↔
    c' = c ∨ ∃ next ∈ run r c, c' ∈ run (star greedy r) next := by
  rw [run_star h]
  split
  · rw [List.mem_append, List.mem_singleton, List.mem_flatMap, or_comm]
  · rw [List.mem_cons, List.mem_flatMap]

theorem Single.exists_of_mem_run_star {greedy : Bool} {p : Char → Bool} {c' : Cursor}
    (hr : Single r p) (h : c' ∈ run (star greedy r) c) :
    ∃ text, c.rest = text ++ c'.rest ∧ (∀ x ∈ text, p x = true) ∧ c'.groups = c.groups := by
  induction hlength : c.rest.length using Nat.strong_induction_on generalizing c with
  | _ n ih =>
      obtain rfl | ⟨next, hnext, hc'⟩ := (mem_run_star hr.consumes).mp h
      · exact ⟨[], rfl, List.forall_mem_nil _, rfl⟩
      · obtain ⟨x, hx, hrest, -, hgroups⟩ := (hr c next).mp hnext
        have hshorter : next.rest.length < n := by
          rw [← hlength, hrest]
          exact Nat.lt_succ_self _
        obtain ⟨text, htext, hall, hkept⟩ := ih _ hshorter hc' rfl
        refine ⟨x :: text, by rw [hrest, htext, List.cons_append], ?_, hkept.trans hgroups⟩
        exact List.forall_mem_cons.mpr ⟨hx, hall⟩

theorem Single.exists_mem_run_star {p : Char → Bool} (hr : Single r p) (greedy : Bool)
    {text : List Char} (h : ∀ x ∈ text, p x = true) (rest : List Char)
    (before : Option Char) (groups : List (ℕ × List Char)) :
    ∃ c' ∈ run (star greedy r) ⟨before, text ++ rest, groups⟩,
      c'.rest = rest ∧ c'.groups = groups := by
  induction text generalizing before with
  | nil => exact ⟨⟨before, rest, groups⟩, (mem_run_star hr.consumes).mpr (.inl rfl), rfl, rfl⟩
  | cons x text ih =>
      obtain ⟨hx, h⟩ := List.forall_mem_cons.mp h
      obtain ⟨c', hc', hrest⟩ := ih h (Option.some x)
      refine ⟨c', (mem_run_star hr.consumes).mpr (.inr ⟨_, ?_, hc'⟩), hrest⟩
      exact (hr _ _).mpr ⟨x, hx, rfl, rfl, rfl⟩

theorem exists_of_mem_run_star {greedy : Bool} {p : Char → Bool} {c' : Cursor}
    (h : c' ∈ run (star greedy (char p)) c) :
    ∃ text, c.rest = text ++ c'.rest ∧ (∀ x ∈ text, p x = true) ∧ c'.groups = c.groups :=
  (single_char p).exists_of_mem_run_star h

theorem exists_of_mem_run_some {p : Char → Bool} {c' : Cursor} (h : c' ∈ run (some (char p)) c) :
    ∃ text, text ≠ [] ∧ c.rest = text ++ c'.rest ∧ (∀ x ∈ text, p x = true) ∧
      c'.groups = c.groups := by
  obtain ⟨next, hnext, hc'⟩ := List.mem_flatMap.mp h
  obtain ⟨x, hx, hrest, -, hgroups⟩ := mem_run_char.mp hnext
  obtain ⟨text, htext, hall, hkept⟩ := exists_of_mem_run_star hc'
  refine ⟨x :: text, by simp, by rw [hrest, htext, List.cons_append], ?_, hkept.trans hgroups⟩
  exact List.forall_mem_cons.mpr ⟨hx, hall⟩

end Repetition

section Reading

/-- The preferred match at a text reads its first part, and captures nothing. -/
def Reads (r : Regex) (s rest : List Char) : Prop :=
  ∀ before groups, ∃ before',
    search r Option.some ⟨before, s ++ rest, groups⟩ = Option.some ⟨before', rest, groups⟩

/-- An expression has no match at a text. -/
def Stuck (r : Regex) (rest : List Char) : Prop :=
  ∀ before groups, run r ⟨before, rest, groups⟩ = []

variable {r r' : Regex} {s t rest : List Char} {k : Cursor → Option α} {a : α}
  {before : Option Char} {groups : List (ℕ × List Char)} {p : Char → Bool}

/-- A continuation that succeeds after the preferred match is where the search ends. -/
theorem search_of_head {c c' : Cursor} (h : search r Option.some c = Option.some c')
    (hk : k c' = Option.some a) : search r k c = Option.some a := by
  rw [search] at h ⊢
  cases hrun : run r c with
  | nil =>
      rw [hrun] at h
      cases h
  | cons first others =>
      rw [hrun, List.findSome?_cons] at h
      cases h
      rw [List.findSome?_cons, hk]

theorem search_of_reads (h : Reads r s rest)
    (hk : ∀ before', k ⟨before', rest, groups⟩ = Option.some a) :
    search r k ⟨before, s ++ rest, groups⟩ = Option.some a := by
  obtain ⟨before', hbefore⟩ := h before groups
  exact search_of_head hbefore (hk before')

theorem search_of_reads_nil (h : Reads r [] rest)
    (hk : ∀ before', k ⟨before', rest, groups⟩ = Option.some a) :
    search r k ⟨before, rest, groups⟩ = Option.some a :=
  search_of_reads h hk

theorem search_start_none (rest : List Char) (groups : List (ℕ × List Char)) :
    search start k ⟨none, rest, groups⟩ = k ⟨none, rest, groups⟩ := by
  rw [search_start]
  rfl

theorem search_stopLine_nil : search stopLine k ⟨before, [], groups⟩ = k ⟨before, [], groups⟩ := by
  rw [search_stopLine]
  rfl

theorem search_group_of_reads {index : ℕ} (h : Reads r s rest)
    (hk : ∀ before', k ⟨before', rest, (index, s) :: groups⟩ = Option.some a) :
    search (group index r) k ⟨before, s ++ rest, groups⟩ = Option.some a := by
  rw [search_group]
  apply search_of_reads h
  intro before'
  have htake : (s ++ rest).take ((s ++ rest).length - rest.length) = s := by
    rw [List.length_append, Nat.add_sub_cancel, List.take_left]
  dsimp only
  rw [htake]
  exact hk before'

theorem search_group_of_reads_all {index : ℕ} (h : Reads r s [])
    (hk : ∀ before', k ⟨before', [], (index, s) :: groups⟩ = Option.some a) :
    search (group index r) k ⟨before, s, groups⟩ = Option.some a := by
  have hread := @search_group_of_reads _ r s [] k a before groups index h hk
  rwa [List.append_nil] at hread

theorem search_of_stuck (h : Stuck r rest) : search r k ⟨before, rest, groups⟩ = none := by
  rw [search, h]
  rfl

theorem reads_char {x : Char} (hx : p x = true) (rest : List Char) : Reads (char p) [x] rest := by
  intro before groups
  refine ⟨Option.some x, ?_⟩
  rw [List.singleton_append, search_char_cons, if_pos hx]

theorem stuck_char (h : ∀ x ∈ rest.head?, p x = false) : Stuck (char p) rest := by
  intro before groups
  cases rest with
  | nil => rfl
  | cons x rest =>
      rw [run]
      dsimp only
      rw [if_neg (by simp [h x rfl])]

theorem Stuck.seq (h : Stuck r rest) (r' : Regex) : Stuck (seq r r') rest := by
  intro before groups
  rw [run, h]
  rfl

theorem Stuck.group (h : Stuck r rest) (index : ℕ) : Stuck (group index r) rest := by
  intro before groups
  rw [run, h]
  rfl

theorem Reads.seq (h : Reads r s (t ++ rest)) (h' : Reads r' t rest) :
    Reads (seq r r') (s ++ t) rest := by
  intro before groups
  obtain ⟨middle, hmiddle⟩ := h before groups
  obtain ⟨last, hlast⟩ := h' middle groups
  refine ⟨last, ?_⟩
  rw [search_seq, List.append_assoc]
  exact search_of_head hmiddle hlast

theorem Reads.star_nil (hconsumes : Consumes r) (h : Stuck r rest) :
    Reads (star true r) [] rest := by
  intro before groups
  refine ⟨before, ?_⟩
  rw [search_greedy hconsumes, List.nil_append, search_of_stuck h]
  rfl

theorem Reads.star_cons (hconsumes : Consumes r) (h : Reads r s (t ++ rest))
    (h' : Reads (star true r) t rest) : Reads (star true r) (s ++ t) rest := by
  intro before groups
  obtain ⟨last, hlast⟩ := (h.seq h') before groups
  refine ⟨last, ?_⟩
  rw [search_greedy hconsumes, ← search_seq, hlast]
  rfl

theorem reads_many_char (hs : ∀ x ∈ s, p x = true) (hrest : ∀ x ∈ rest.head?, p x = false) :
    Reads (many (char p)) s rest := by
  induction s with
  | nil => exact Reads.star_nil (consumes_char p) (stuck_char hrest)
  | cons x s ih =>
      obtain ⟨hx, hs⟩ := List.forall_mem_cons.mp hs
      exact Reads.star_cons (consumes_char p) (reads_char hx _) (ih hs)

theorem reads_some_char (hne : s ≠ []) (hs : ∀ x ∈ s, p x = true)
    (hrest : ∀ x ∈ rest.head?, p x = false) : Reads (some (char p)) s rest := by
  obtain ⟨x, s, rfl⟩ := List.exists_cons_of_ne_nil hne
  obtain ⟨hx, hs⟩ := List.forall_mem_cons.mp hs
  exact (reads_char hx _).seq (reads_many_char hs hrest)

theorem search_all_nil : search (all []) k = k := by
  funext c
  exact search_eps

theorem search_all_cons (r : Regex) (rest : List Regex) (k : Cursor → Option α) :
    search (all (r :: rest)) k = search r (search (all rest) k) := by
  funext c
  cases rest with
  | nil => rw [search_all_nil]; rfl
  | cons r' rest => exact search_seq

theorem search_text (s : String) (rest : List Char) (k : Cursor → Option α)
    (before : Option Char) (groups : List (ℕ × List Char)) : ∃ before',
      search (text s) k ⟨before, s.toList ++ rest, groups⟩ = k ⟨before', rest, groups⟩ := by
  rw [text]
  induction s.toList generalizing before with
  | nil => exact ⟨before, by rw [List.map_nil, search_all_nil, List.nil_append]⟩
  | cons x s ih =>
      obtain ⟨last, hlast⟩ := ih (Option.some x)
      refine ⟨last, ?_⟩
      rw [List.map_cons, search_all_cons, List.cons_append, search_char_cons, if_pos (by simp),
        hlast]

theorem reads_text (s : String) (rest : List Char) : Reads (text s) s.toList rest :=
  fun before groups => search_text s rest Option.some before groups

end Reading

section Rejection

/-- A continuation that fails in front of every character of a class. -/
def Rejects (p : Char → Bool) (k : Cursor → Option α) : Prop :=
  ∀ before x rest groups, p x = true → k ⟨before, x :: rest, groups⟩ = none

variable {r r' : Regex} {s rest : List Char} {k : Cursor → Option α} {a : α}
  {before : Option Char} {groups : List (ℕ × List Char)} {p q : Char → Bool}

theorem rejects_char (h : ∀ x, p x = true → q x = false) (k : Cursor → Option α) :
    Rejects p (search (char q) k) := by
  intro before x rest groups hx
  rw [search_char_cons, if_neg (by simp [h x hx])]

theorem Rejects.seq (h : Rejects p (search r (search r' k))) : Rejects p (search (seq r r') k) := by
  intro before x rest groups hx
  rw [search_seq]
  exact h before x rest groups hx

theorem Rejects.alt (h : Rejects p (search r k)) (h' : Rejects p (search r' k)) :
    Rejects p (search (alt r r') k) := by
  intro before x rest groups hx
  rw [search_alt, h before x rest groups hx, h' before x rest groups hx]
  rfl

theorem rejects_some_char (h : ∀ x, p x = true → q x = false) (k : Cursor → Option α) :
    Rejects p (search (some (char q)) k) :=
  (rejects_char h _).seq

theorem rejects_group {index : ℕ} (h : ∀ k : Cursor → Option α, Rejects p (search r k))
    (k : Cursor → Option α) : Rejects p (search (group index r) k) := by
  intro before x rest groups hx
  rw [search_group]
  exact h _ before x rest groups hx

theorem search_trans {k' : Cursor → Option α} {found : Option α} {rest' : List Char}
    {groups' : List (ℕ × List Char)} (h : ∃ before, found = k ⟨before, rest, groups⟩)
    (h' : ∀ before, ∃ before', k ⟨before, rest, groups⟩ = k' ⟨before', rest', groups'⟩) :
    ∃ before', found = k' ⟨before', rest', groups'⟩ := by
  obtain ⟨before, rfl⟩ := h
  exact h' before

theorem search_eq_none {found : Option α} (h : ∃ before, found = k ⟨before, rest, groups⟩)
    (h' : ∀ before, k ⟨before, rest, groups⟩ = none) : found = none := by
  obtain ⟨before, rfl⟩ := h
  exact h' before

theorem search_many_char (hs : ∀ x ∈ s, p x = true) (hrest : ∀ x ∈ rest.head?, p x = false)
    (hk : Rejects p k) : ∃ before', search (many (char p)) k ⟨before, s ++ rest, groups⟩ =
      k ⟨before', rest, groups⟩ := by
  induction s generalizing before with
  | nil =>
      refine ⟨before, ?_⟩
      rw [many, search_greedy (consumes_char p), List.nil_append,
        search_of_stuck (stuck_char hrest)]
      rfl
  | cons x s ih =>
      obtain ⟨hx, hs⟩ := List.forall_mem_cons.mp hs
      obtain ⟨before', hlater⟩ := @ih (Option.some x) hs
      refine ⟨before', ?_⟩
      rw [many, search_greedy (consumes_char p), List.cons_append, search_char_cons, if_pos hx,
        ← many, hlater, hk _ _ _ _ hx, Option.or_none]

theorem search_some_char (hne : s ≠ []) (hs : ∀ x ∈ s, p x = true)
    (hrest : ∀ x ∈ rest.head?, p x = false) (hk : Rejects p k) :
    ∃ before', search (some (char p)) k ⟨before, s ++ rest, groups⟩ =
      k ⟨before', rest, groups⟩ := by
  obtain ⟨x, s, rfl⟩ := List.exists_cons_of_ne_nil hne
  obtain ⟨hx, hs⟩ := List.forall_mem_cons.mp hs
  obtain ⟨before', hlater⟩ := @search_many_char _ s rest k (Option.some x) groups p hs hrest hk
  refine ⟨before', ?_⟩
  rw [some, search_seq, List.cons_append, search_char_cons, if_pos hx]
  exact hlater

theorem search_group_some_char {index : ℕ} (hne : s ≠ []) (hs : ∀ x ∈ s, p x = true)
    (hrest : ∀ x ∈ rest.head?, p x = false) (hk : Rejects p k) :
    ∃ before', search (group index (some (char p))) k ⟨before, s ++ rest, groups⟩ =
      k ⟨before', rest, (index, s) :: groups⟩ := by
  have htake : (s ++ rest).take ((s ++ rest).length - rest.length) = s := by
    rw [List.length_append, Nat.add_sub_cancel, List.take_left]
  have hk' : Rejects p fun c' => k { c' with groups :=
      (index, (s ++ rest).take ((s ++ rest).length - c'.rest.length)) :: c'.groups } :=
    fun before x rest _ hx => hk before x rest _ hx
  obtain ⟨before', h⟩ := @search_some_char _ s rest _ before groups p hne hs hrest hk'
  refine ⟨before', ?_⟩
  rw [search_group]
  refine h.trans ?_
  dsimp only
  rw [htake]

theorem search_lazy_char (hs : ∀ x ∈ s, p x = true)
    (hinside : ∀ before s₁ s₂, s = s₁ ++ s₂ → s₂ ≠ [] → k ⟨before, s₂ ++ rest, groups⟩ = none)
    (hend : ∀ before, k ⟨before, rest, groups⟩ = Option.some a) :
    search (star false (char p)) k ⟨before, s ++ rest, groups⟩ = Option.some a := by
  induction s generalizing before with
  | nil =>
      rw [search_lazy (consumes_char p), List.nil_append, hend]
      rfl
  | cons x s ih =>
      obtain ⟨hx, hs⟩ := List.forall_mem_cons.mp hs
      have hstay := hinside before [] (x :: s) rfl (by simp)
      rw [search_lazy (consumes_char p), hstay, Option.none_or, List.cons_append,
        search_char_cons, if_pos hx]
      refine ih hs fun before s₁ s₂ hsplit hne => hinside before (x :: s₁) s₂ ?_ hne
      rw [hsplit, List.cons_append]

theorem search_group_lazy_char {index : ℕ} (hs : ∀ x ∈ s, p x = true)
    (hinside : ∀ before captured s₁ s₂, s = s₁ ++ s₂ → s₂ ≠ [] →
      k ⟨before, s₂ ++ rest, (index, captured) :: groups⟩ = none)
    (hend : ∀ before, k ⟨before, rest, (index, s) :: groups⟩ = Option.some a) :
    search (group index (star false (char p))) k ⟨before, s ++ rest, groups⟩ = Option.some a := by
  rw [search_group]
  apply search_lazy_char hs
  · exact fun before s₁ s₂ hsplit hne => hinside before _ s₁ s₂ hsplit hne
  · intro before
    have htake : (s ++ rest).take ((s ++ rest).length - rest.length) = s := by
      rw [List.length_append, Nat.add_sub_cancel, List.take_left]
    dsimp only
    rw [htake]
    exact hend before

theorem reads_upTo_char {n : ℕ} (hlength : s.length ≤ n) (hs : ∀ x ∈ s, p x = true)
    (hrest : ∀ x ∈ rest.head?, p x = false) : Reads (upTo (char p) n) s rest := by
  induction n generalizing s with
  | zero =>
      obtain rfl := List.length_eq_zero_iff.mp (Nat.le_zero.mp hlength)
      exact fun before groups => ⟨before, search_eps⟩
  | succ n ih =>
      intro before groups
      cases s with
      | nil =>
          refine ⟨before, ?_⟩
          rw [upTo, opt, search_alt, List.nil_append, search_of_stuck ((stuck_char hrest).seq _)]
          exact search_eps
      | cons x s =>
          obtain ⟨hx, hs⟩ := List.forall_mem_cons.mp hs
          have hlength' : s.length ≤ n := Nat.le_of_succ_le_succ hlength
          obtain ⟨before', h⟩ := ((reads_char hx _).seq (ih hlength' hs)) before groups
          refine ⟨before', ?_⟩
          rw [upTo, opt, search_alt]
          exact (congrArg (fun found => Option.or found _) h).trans rfl

end Rejection

section Successive

variable {r : Regex} {s rest : List Char} {before : Option Char} {x : Char}

theorem findFrom_length_append (r : Regex) (s rest : List Char) (before : Option Char) :
    ∃ before', findFrom r s.length before (s ++ rest) = findFrom r 0 before' rest := by
  induction s generalizing before with
  | nil => exact ⟨before, rfl⟩
  | cons x s ih => exact ih (Option.some x)

theorem findFrom_of_search {m : Cursor}
    (h : search r Option.some ⟨before, x :: s ++ m.rest, []⟩ = Option.some m) :
    ∃ before', findFrom r 0 before (x :: s ++ m.rest) = m :: findFrom r 0 before' m.rest := by
  have hhead : (run r ⟨before, x :: s ++ m.rest, []⟩).head? = Option.some m := by
    rw [← h, search]
    cases run r ⟨before, x :: s ++ m.rest, []⟩ <;> rfl
  obtain ⟨before', hrest⟩ := findFrom_length_append r s m.rest (Option.some x)
  refine ⟨before', ?_⟩
  have hskip : (x :: s ++ m.rest).length - m.rest.length - 1 = s.length := by
    rw [List.length_append, List.length_cons]
    omega
  rw [← hrest, ← hskip]
  rw [List.cons_append] at hhead ⊢
  rw [findFrom, hhead]

theorem findFrom_of_stuck (h : Stuck r (x :: rest)) :
    findFrom r 0 before (x :: rest) = findFrom r 0 (Option.some x) rest := by
  rw [findFrom, h]
  rfl

theorem removeFrom_length_append (r : Regex) (s rest : List Char) (before : Option Char) :
    ∃ before', removeFrom r s.length before (s ++ rest) = removeFrom r 0 before' rest := by
  induction s generalizing before with
  | nil => exact ⟨before, rfl⟩
  | cons x s ih => exact ih (Option.some x)

/-- A match takes away what it has read, and the removal goes on behind it. -/
theorem removeFrom_of_head {m : Cursor}
    (h : (run r ⟨before, x :: s ++ m.rest, []⟩).head? = Option.some m) :
    ∃ before', removeFrom r 0 before (x :: s ++ m.rest) = removeFrom r 0 before' m.rest := by
  obtain ⟨before', hrest⟩ := removeFrom_length_append r s m.rest (Option.some x)
  refine ⟨before', ?_⟩
  rw [List.cons_append] at h ⊢
  rw [removeFrom, h]
  dsimp only
  rw [List.length_append, if_pos (Nat.le_add_left _ _), Nat.add_sub_cancel, hrest]

theorem removeFrom_of_head_none (h : (run r ⟨before, x :: rest, []⟩).head? = none) :
    removeFrom r 0 before (x :: rest) = x :: removeFrom r 0 (Option.some x) rest := by
  rw [removeFrom, h]

theorem exists_of_mem_findFrom {m : Cursor} {skip : ℕ} (h : m ∈ findFrom r skip before s) :
    ∃ before' rest, m ∈ run r ⟨before', rest, []⟩ := by
  induction s generalizing skip before with
  | nil =>
      rw [findFrom] at h
      cases h
  | cons x s ih =>
      cases skip with
      | succ skip => exact ih h
      | zero =>
          rw [findFrom] at h
          split at h
          · rename_i first hfirst
            obtain rfl | hlater := List.mem_cons.mp h
            · exact ⟨before, x :: s, List.mem_of_mem_head? hfirst⟩
            · exact ih hlater
          · exact ih h

end Successive

end Ulpf.Lib.Regex
