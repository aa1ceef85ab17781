import Ulpf.Lib.Text
import Mathlib.Data.List.Basic

/-!
Paths of slash-separated names and their lexical cleaning, as `path/filepath`
does it on Unix.
-/

namespace Ulpf.Go.Filepath

abbrev Name := List Char

/-- A cleaned path: how far it climbs first, and the names it then enters. -/
structure CleanPath where
  rooted : Bool
  ups : ℕ
  names : List Name
  deriving DecidableEq

namespace CleanPath

/-- Go on to a component: an empty one and `.` stay, `..` leaves the last name. -/
def enter (p : CleanPath) (c : Name) : CleanPath :=
  if c = [] ∨ c = ['.'] then p
  else if c = ['.', '.'] then
    if p.names ≠ [] then { p with names := p.names.dropLast }
    else if p.rooted then p
    else { p with ups := p.ups + 1 }
  else { p with names := p.names ++ [c] }

/-- A path after some components, one after the other. -/
def enterAll (p : CleanPath) (cs : List Name) : CleanPath := cs.foldl enter p

/-- The components of a path, a climb out of its directory at their head. -/
def components (p : CleanPath) : List Name := List.replicate p.ups ['.', '.'] ++ p.names

/-- The text of a path. -/
def text (p : CleanPath) : List Char :=
  if p.rooted then '/' :: ['/'].intercalate p.components
  else if p.components = [] then ['.']
  else ['/'].intercalate p.components

/-- The path that a relative path leads to from another. -/
def resolve (p rel : CleanPath) : CleanPath where
  rooted := p.rooted
  ups := if p.rooted then p.ups else p.ups + (rel.ups - p.names.length)
  names := p.names.take (p.names.length - rel.ups) ++ rel.names

end CleanPath

/-- A name that cleaning keeps. -/
def Proper (c : Name) : Prop := c ≠ [] ∧ c ≠ ['.'] ∧ c ≠ ['.', '.'] ∧ '/' ∉ c

instance (c : Name) : Decidable (Proper c) := inferInstanceAs (Decidable (_ ∧ _ ∧ _ ∧ _))

/-- No rooted path climbs, and the names are no dots. -/
structure CleanPath.WellFormed (p : CleanPath) : Prop where
  ups_rooted : p.rooted = true → p.ups = 0
  proper : ∀ c ∈ p.names, Proper c

/-- The start of a relative path. -/
def here : CleanPath := ⟨false, 0, []⟩

/-- The path that a text leads to. -/
def read (s : List Char) : CleanPath :=
  CleanPath.enterAll ⟨s.head? = some '/', 0, []⟩ (s.splitOn '/')

/-- `filepath.Clean` -/
def clean (s : String) : String := String.ofList (read s.toList).text

/-- `filepath.Join` -/
def join (elems : List String) : String :=
  match elems.dropWhile (· = "") with
  | [] => ""
  | kept => clean (String.ofList (['/'].intercalate (kept.map String.toList)))

/-- The path lies below the directory. -/
def Inside (dir path : String) : Prop := (dir ++ "/").toList <+: path.toList

instance (dir path : String) : Decidable (Inside dir path) :=
  inferInstanceAs (Decidable ((dir ++ "/").toList <+: path.toList))

namespace CleanPath

variable {p rel : CleanPath} {c : Name}

theorem enterAll_append (p : CleanPath) (cs cs' : List Name) :
    p.enterAll (cs ++ cs') = (p.enterAll cs).enterAll cs' :=
  List.foldl_append

theorem enter_of_proper (p : CleanPath) (h : Proper c) :
    p.enter c = { p with names := p.names ++ [c] } := by
  obtain ⟨hempty, hdot, hdots, -⟩ := h
  simp [enter, hempty, hdot, hdots]

theorem enterAll_of_proper (p : CleanPath) {cs : List Name} (h : ∀ c ∈ cs, Proper c) :
    p.enterAll cs = { p with names := p.names ++ cs } := by
  induction cs generalizing p with
  | nil => simp [enterAll]
  | cons c cs ih =>
      have htail := ih (p.enter c) fun c' hc' => h c' (List.mem_cons_of_mem _ hc')
      rw [enter_of_proper p (h c List.mem_cons_self)] at htail
      rw [enterAll, List.foldl_cons, ← enterAll, enter_of_proper p (h c List.mem_cons_self), htail]
      simp

theorem WellFormed.enter (h : p.WellFormed) (hc : '/' ∉ c) : (p.enter c).WellFormed := by
  unfold CleanPath.enter
  split
  · exact h
  · rename_i hstay
    rw [not_or] at hstay
    split
    · split
      · exact ⟨h.ups_rooted, fun x hx => h.proper x (List.mem_of_mem_dropLast hx)⟩
      · split
        · exact h
        · rename_i hrooted
          exact ⟨fun heq => absurd heq hrooted, h.proper⟩
    · rename_i hdots
      refine ⟨h.ups_rooted, ?_⟩
      intro x hx
      rcases List.mem_append.mp hx with hold | hnew
      · exact h.proper x hold
      · rw [List.mem_singleton.mp hnew]
        exact ⟨hstay.1, hstay.2, hdots, hc⟩

theorem WellFormed.enterAll (h : p.WellFormed) {cs : List Name} (hcs : ∀ c ∈ cs, '/' ∉ c) :
    (p.enterAll cs).WellFormed := by
  induction cs generalizing p with
  | nil => exact h
  | cons c cs ih =>
      exact ih (h.enter (hcs c List.mem_cons_self))
        fun c' hc' => hcs c' (List.mem_cons_of_mem _ hc')

theorem enter_rooted (p : CleanPath) (c : Name) : (p.enter c).rooted = p.rooted := by
  unfold enter
  split_ifs <;> rfl

theorem enterAll_rooted (p : CleanPath) (cs : List Name) : (p.enterAll cs).rooted = p.rooted := by
  induction cs generalizing p with
  | nil => rfl
  | cons c cs ih => exact (ih (p.enter c)).trans (enter_rooted p c)

theorem resolve_here (p : CleanPath) : p.resolve here = p := by
  simp [resolve, here]

theorem resolve_enter (hrel : rel.rooted = false) :
    p.resolve (rel.enter c) = (p.resolve rel).enter c := by
  unfold enter
  split
  · rfl
  · split
    · by_cases hnames : rel.names = []
      · rw [if_neg (not_not.mpr hnames), if_neg (by simp [hrel])]
        by_cases hroom : rel.ups < p.names.length
        · have hne : (p.resolve rel).names ≠ [] := by
            intro hnil
            have hlen := congrArg List.length hnil
            simp [resolve] at hlen
            omega
          rw [if_pos hne]
          have hups : rel.ups - p.names.length = 0 ∧ rel.ups + 1 - p.names.length = 0 := by omega
          have htake : p.names.length - (rel.ups + 1) = p.names.length - rel.ups - 1 := by omega
          simp only [resolve, hnames, hups.1, hups.2, htake, List.append_nil]
          congr 1
          rw [List.dropLast_eq_take, List.length_take, List.take_take]
          congr 1
          omega
        · have hnil : (p.resolve rel).names = [] := by
            have hzero : p.names.length - rel.ups = 0 := by omega
            simp [resolve, hnames, hzero]
          rw [if_neg (not_not.mpr hnil)]
          have hzero : p.names.length - rel.ups = 0 ∧ p.names.length - (rel.ups + 1) = 0 := by
            omega
          have hups : rel.ups + 1 - p.names.length = rel.ups - p.names.length + 1 := by omega
          cases hrooted : p.rooted
          · simp [resolve, hrooted, hnames, hzero, hups, Nat.add_assoc]
          · simp [resolve, hrooted, hnames, hzero]
      · have hne : (p.resolve rel).names ≠ [] := by simp [resolve, hnames]
        rw [if_pos hnames, if_pos hne]
        simp [resolve, List.dropLast_append_of_ne_nil hnames]
    · simp [resolve]

/-- From any directory the components of a path lead where the path, read as a
relative one, leads. -/
theorem enterAll_eq_resolve (p : CleanPath) (cs : List Name) :
    p.enterAll cs = p.resolve (here.enterAll cs) := by
  induction cs using List.reverseRecOn with
  | nil => exact (resolve_here p).symm
  | append_singleton cs c ih =>
      have hrel : (here.enterAll cs).rooted = false := enterAll_rooted here cs
      rw [enterAll_append, enterAll_append, ih]
      exact (resolve_enter hrel).symm

theorem WellFormed.slash_not_mem (h : p.WellFormed) : ∀ x ∈ p.components, '/' ∉ x := by
  intro x hx
  rcases List.mem_append.mp hx with hup | hname
  · rw [List.eq_of_mem_replicate hup]
    decide
  · exact (h.proper x hname).2.2.2

end CleanPath

theorem slash_not_mem_splitOn (s : List Char) : ∀ x ∈ s.splitOn '/', '/' ∉ x := fun x hx =>
  (Lib.Text.not_mem_of_mem_splitOn x hx).1

theorem wellFormed_read (s : List Char) : (read s).WellFormed := by
  apply CleanPath.WellFormed.enterAll
  · exact ⟨fun _ => rfl, by simp⟩
  · exact slash_not_mem_splitOn s

theorem intercalate_append {cs rest : List Name} (hcs : cs ≠ []) (hrest : rest ≠ []) :
    ['/'].intercalate (cs ++ rest) = ['/'].intercalate cs ++ '/' :: ['/'].intercalate rest := by
  induction cs with
  | nil => exact absurd rfl hcs
  | cons c cs ih =>
      cases cs with
      | nil => simp [List.intercalate_cons_of_ne_nil hrest]
      | cons c' cs =>
          have htail := ih (by simp)
          rw [List.cons_append] at htail
          rw [List.cons_append, List.cons_append, List.intercalate_cons_cons, htail,
            List.intercalate_cons_cons]
          simp

theorem intercalate_append_singleton (cs : List Name) (c suffix : Name) :
    ['/'].intercalate (cs ++ [c ++ suffix]) = ['/'].intercalate (cs ++ [c]) ++ suffix := by
  by_cases hcs : cs = []
  · simp [hcs]
  · rw [intercalate_append hcs (by simp), intercalate_append hcs (by simp)]
    simp

theorem intercalate_prefix_iff {cs cs' : List Name} (h : ∀ x ∈ cs, '/' ∉ x)
    (h' : ∀ x ∈ cs', '/' ∉ x) (hcs : cs ≠ []) :
    ['/'].intercalate cs ++ ['/'] <+: ['/'].intercalate cs' ↔
      ∃ rest, rest ≠ [] ∧ cs' = cs ++ rest := by
  constructor
  · rintro ⟨t, ht⟩
    rw [List.append_assoc, List.singleton_append] at ht
    have hcs' : cs' ≠ [] := by
      rintro rfl
      simp at ht
    refine ⟨t.splitOn '/', List.splitOn_ne_nil '/' t, ?_⟩
    rw [← List.splitOn_intercalate '/' h' hcs', ← ht, List.splitOn_append_cons_self,
      List.splitOn_intercalate '/' h hcs]
  · rintro ⟨rest, hrest, rfl⟩
    rw [intercalate_append hcs hrest]
    exact ⟨['/'].intercalate rest, by simp⟩

/-- A climb and the names entered after it tell where one ends and the other begins. -/
theorem replicate_append_eq {m n : ℕ} {xs ys : List Name} (hxs : xs.head? ≠ some ['.', '.'])
    (hys : ys.head? ≠ some ['.', '.'])
    (h : List.replicate m ['.', '.'] ++ xs = List.replicate n ['.', '.'] ++ ys) :
    m = n ∧ xs = ys := by
  induction m generalizing n with
  | zero =>
      cases n with
      | zero => exact ⟨rfl, by simpa using h⟩
      | succ n => simp [List.replicate_succ, show xs = _ from h] at hxs
  | succ m ih =>
      cases n with
      | zero => simp [List.replicate_succ, ← show _ = ys from h] at hys
      | succ n =>
          simp only [List.replicate_succ, List.cons_append, List.cons.injEq, true_and] at h
          obtain ⟨rfl, hnames⟩ := ih h
          exact ⟨rfl, hnames⟩

namespace CleanPath

variable {p q : CleanPath}

theorem WellFormed.ne_nil (h : p.WellFormed) : ∀ x ∈ p.components, x ≠ [] := by
  intro x hx
  rcases List.mem_append.mp hx with hup | hname
  · rw [List.eq_of_mem_replicate hup]
    simp
  · exact (h.proper x hname).1

theorem WellFormed.head_text (h : p.WellFormed) : p.text.head? = some '/' ↔ p.rooted = true := by
  unfold text
  split
  · rename_i hrooted
    simp [hrooted]
  · rename_i hrooted
    simp only [hrooted]
    split
    · simp
    · rename_i hne
      obtain ⟨first, rest, hcomponents⟩ := List.exists_cons_of_ne_nil hne
      have hfirst : first ∈ p.components := by simp [hcomponents]
      obtain ⟨c, cs, rfl⟩ := List.exists_cons_of_ne_nil (h.ne_nil first hfirst)
      have hslash : c ≠ '/' := by
        rintro rfl
        exact h.slash_not_mem _ hfirst List.mem_cons_self
      rw [hcomponents]
      cases rest with
      | nil => simpa using hslash
      | cons next rest => simpa [List.intercalate_cons_cons] using hslash

theorem WellFormed.text_ne_nil (h : p.WellFormed) : p.text ≠ [] := by
  unfold text
  split
  · simp
  · split
    · simp
    · rename_i hne
      obtain ⟨first, rest, hcomponents⟩ := List.exists_cons_of_ne_nil hne
      have hfirst : first ≠ [] := h.ne_nil first (by simp [hcomponents])
      rw [hcomponents]
      cases rest with
      | nil => simpa using hfirst
      | cons next rest => simp [List.intercalate_cons_cons, hfirst]

theorem WellFormed.head_names (h : p.WellFormed) : p.names.head? ≠ some ['.', '.'] := by
  intro hhead
  exact (h.proper _ (List.mem_of_mem_head? hhead)).2.2.1 rfl

theorem components_eq_append_iff (hp : p.WellFormed) (hq : q.WellFormed) (hnames : p.names ≠ [])
    {rest : List Name} :
    q.components = p.components ++ rest ↔ p.ups = q.ups ∧ q.names = p.names ++ rest := by
  rw [components, components, List.append_assoc]
  constructor
  · intro h
    have hhead : (p.names ++ rest).head? ≠ some ['.', '.'] := by
      rw [List.head?_append_of_ne_nil _ hnames]
      exact hp.head_names
    obtain ⟨hups, hnames'⟩ := replicate_append_eq hq.head_names hhead h
    exact ⟨hups.symm, hnames'⟩
  · rintro ⟨hups, hnames'⟩
    rw [hups, hnames']

theorem text_prefix_iff (hp : p.WellFormed) (hq : q.WellFormed) (hnames : p.names ≠ []) :
    p.text ++ ['/'] <+: q.text ↔ p.rooted = q.rooted ∧ p.ups = q.ups ∧
      ∃ rest, rest ≠ [] ∧ q.names = p.names ++ rest := by
  have hcomponents : p.components ≠ [] := by simp [components, hnames]
  have hjoined : ['/'].intercalate p.components ++ ['/'] <+: ['/'].intercalate q.components ↔
      p.ups = q.ups ∧ ∃ rest, rest ≠ [] ∧ q.names = p.names ++ rest := by
    rw [intercalate_prefix_iff hp.slash_not_mem hq.slash_not_mem hcomponents]
    simp only [components_eq_append_iff hp hq hnames]
    tauto
  by_cases hrooted : p.rooted = q.rooted
  · simp only [hrooted, true_and]
    rw [← hjoined]
    unfold text
    cases hq' : q.rooted with
    | true => simp [hrooted, hq']
    | false =>
        rw [hq'] at hrooted
        simp only [hrooted, hcomponents, if_false, Bool.false_eq_true]
        split
        · rename_i hnil
          rw [hnil]
          constructor
          · intro hprefix
            have hslash := hprefix.subset (List.mem_append_right _ (List.mem_singleton_self '/'))
            simp at hslash
          · intro hprefix
            simp at hprefix
        · rfl
  · constructor
    · rintro ⟨t, ht⟩
      obtain ⟨c, cs, hc⟩ := List.exists_cons_of_ne_nil hp.text_ne_nil
      have hhead : p.text.head? = q.text.head? := by
        rw [← ht, hc]
        rfl
      have hiff := hp.head_text
      rw [hhead, hq.head_text] at hiff
      exact absurd (Bool.eq_iff_iff.mpr hiff.symm) hrooted
    · rintro ⟨heq, -⟩
      exact absurd heq hrooted

theorem text_of_names_ne_nil (h : p.names ≠ []) :
    p.text = (if p.rooted then ['/'] else []) ++ ['/'].intercalate p.components := by
  have hne : p.components ≠ [] := by simp [components, h]
  rw [text, if_neg hne]
  split <;> rfl

theorem text_append (dir : CleanPath) (c suffix : Name) :
    { dir with names := dir.names ++ [c ++ suffix] }.text =
      { dir with names := dir.names ++ [c] }.text ++ suffix := by
  rw [text_of_names_ne_nil (by simp), text_of_names_ne_nil (by simp), components, components,
    ← List.append_assoc, intercalate_append_singleton, List.append_assoc, List.append_assoc]

theorem text_inj (hp : p.WellFormed) (hq : q.WellFormed) (hnames : p.names ≠ [])
    (hnames' : q.names ≠ []) : p.text = q.text ↔ p = q := by
  refine ⟨fun htext => ?_, congrArg text⟩
  have hrooted : p.rooted = q.rooted := by
    have hiff := hp.head_text
    rw [htext, hq.head_text] at hiff
    exact Bool.eq_iff_iff.mpr hiff.symm
  have hne : p.components ≠ [] := by simp [components, hnames]
  have hne' : q.components ≠ [] := by simp [components, hnames']
  have hjoined : ['/'].intercalate p.components = ['/'].intercalate q.components := by
    unfold text at htext
    rw [hrooted] at htext
    split at htext
    · exact (List.cons.inj htext).2
    · simpa only [hne, hne', if_false] using htext
  have hsplit := congrArg (List.splitOn '/') hjoined
  rw [List.splitOn_intercalate '/' hp.slash_not_mem hne,
    List.splitOn_intercalate '/' hq.slash_not_mem hne'] at hsplit
  obtain ⟨hups, hnames⟩ := replicate_append_eq hp.head_names hq.head_names hsplit
  obtain ⟨rooted, ups, names⟩ := p
  obtain ⟨rooted', ups', names'⟩ := q
  simp only at hrooted hups hnames
  rw [hrooted, hups, hnames]

end CleanPath

end Ulpf.Go.Filepath
