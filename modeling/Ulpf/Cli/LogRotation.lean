import Mathlib.Logic.Function.Basic
import Mathlib.Order.Nat
import Ulpf.Lib.Run

/-!
The log of the daemon and its backups: which files stand under their names when daemons are started
and write, whatever fails on the way.
-/

namespace Ulpf.Cli.LogRotation

open Ulpf.Lib

/-- Files have numbers in the order of their creation. Name 0 is that of the log, name `i` that of
its backup with the suffix `.i`. -/
structure Disk where
  names : ℕ → Option ℕ
  contents : ℕ → List UInt8
  next : ℕ
  unwritten : ∀ file, next ≤ file → contents file = []

namespace Disk

def empty : Disk := ⟨fun _ => none, fun _ => [], 0, fun _ _ => rfl⟩

variable (d : Disk)

/-- `s.rename(t)`, which takes the name from a file that has it. -/
def rename (s t : ℕ) : Disk :=
  { d with names := Function.update (Function.update d.names t (d.names s)) s none }

/-- What `rotate_file_if_needed` does for the backups from number `i` on down and for the log. The
last number is that of the calls of `rename` that succeed before one raises an exception. -/
def rotateFrom : ℕ → ℕ → Disk → Disk
  | _, 0, d => d
  | 0, _ + 1, d => d.rename 0 1
  | i + 1, succeed + 1, d =>
      if (d.names (i + 1)).isSome then rotateFrom i succeed (d.rename (i + 1) (i + 2))
      else rotateFrom i (succeed + 1) d

/-- `rotate_file_if_needed` -/
def rotateFileIfNeeded (maxBytes backups succeed : ℕ) : Disk :=
  match d.names 0 with
  | none => d
  | some log =>
      if (d.contents log).length < maxBytes then d else rotateFrom (backups - 1) succeed d

/-- A new file under the name of the log. -/
def create : Disk where
  names := Function.update d.names 0 (some d.next)
  contents := d.contents
  next := d.next + 1
  unwritten file hfile := d.unwritten file (Nat.le_of_succ_le hfile)

/-- `os.open` of the log for appending -/
def openLog : Disk := if (d.names 0).isSome then d else d.create

/-- A write to a file that some daemon has opened, be its name what it may by now. -/
def write (file : ℕ) (hfile : file < d.next) (bytes : List UInt8) : Disk where
  names := d.names
  contents := Function.update d.contents file (d.contents file ++ bytes)
  next := d.next
  unwritten file' hfile' := by
    rw [Function.update_of_ne (by omega), d.unwritten file' hfile']

end Disk

/-- What happens to the log: a daemon is started, where the rotation or the opening may fail, or
one writes. -/
inductive Action where
  | start (succeed : ℕ) (opens : Bool)
  | write (file : ℕ) (bytes : List UInt8)

/-- What a start of the command or a write to the log does to the directory. -/
inductive Step (maxBytes backups : ℕ) (d : Disk) : Action → Unit → Disk → Prop where
  | start (succeed : ℕ) : Step maxBytes backups d (.start succeed true) ()
      (d.rotateFileIfNeeded maxBytes backups succeed).openLog
  | startFails (succeed : ℕ) : Step maxBytes backups d (.start succeed false) ()
      (d.rotateFileIfNeeded maxBytes backups succeed)
  | write {file : ℕ} (hfile : file < d.next) (bytes : List UInt8) :
      Step maxBytes backups d (.write file bytes) () (d.write file hfile bytes)

/-- The last backup there is. The log itself is renamed though no backups are asked for. -/
def lastBackup (backups : ℕ) : ℕ := max 1 backups

section Order

variable {d : Disk} {maxBytes backups i succeed : ℕ}

/-- The files that have a name are the latest ones, in their order, and only a full log has become
a backup. -/
structure Ordered (maxBytes last : ℕ) (d : Disk) : Prop where
  bounded : ∀ i file, d.names i = some file → i ≤ last ∧ file < d.next
  latest : ∀ i j file file', i < j → d.names i = some file → d.names j = some file' → file' < file
  kept : ∀ i file file', d.names i = some file → file < file' → file' < d.next →
    ∃ j, d.names j = some file'
  full : ∀ i file, d.names (i + 1) = some file → maxBytes ≤ (d.contents file).length

theorem names_rename_self : (d.rename i (i + 1)).names i = none := Function.update_self ..

theorem names_rename_succ : (d.rename i (i + 1)).names (i + 1) = d.names i :=
  (Function.update_of_ne (Nat.succ_ne_self i) _ _).trans (Function.update_self ..)

theorem names_rename_of_ne {j : ℕ} (hself : j ≠ i) (hsucc : j ≠ i + 1) :
    (d.rename i (i + 1)).names j = d.names j :=
  (Function.update_of_ne hself _ _).trans (Function.update_of_ne hsucc _ _)

theorem of_names_rename {j file : ℕ} (h : (d.rename i (i + 1)).names j = some file) :
    j = i + 1 ∧ d.names i = some file ∨ j ≠ i ∧ j ≠ i + 1 ∧ d.names j = some file := by
  obtain rfl | hself := eq_or_ne j i
  · rw [names_rename_self] at h
    cases h
  · obtain rfl | hsucc := eq_or_ne j (i + 1)
    · rw [names_rename_succ] at h
      exact .inl ⟨rfl, h⟩
    · rw [names_rename_of_ne hself hsucc] at h
      exact .inr ⟨hself, hsucc, h⟩

variable {last : ℕ}

theorem Ordered.rename (h : Ordered maxBytes last d) (hi : i + 1 ≤ last)
    (hfree : d.names (i + 1) = none ∨ i + 1 = last)
    (hfull : i = 0 → ∀ log, d.names 0 = some log → maxBytes ≤ (d.contents log).length) :
    Ordered maxBytes last (d.rename i (i + 1)) where
  bounded j file hj := by
    obtain ⟨rfl, hold⟩ | ⟨-, -, hold⟩ := of_names_rename hj
    · exact ⟨hi, (h.bounded i file hold).2⟩
    · exact h.bounded j file hold
  latest j k file file' hjk hj hk := by
    obtain ⟨rfl, hold⟩ | ⟨hj', -, hold⟩ := of_names_rename hj
    · obtain ⟨rfl, -⟩ | ⟨-, -, hold'⟩ := of_names_rename hk
      · exact absurd hjk (Nat.lt_irrefl _)
      · exact h.latest i k file file' (Nat.lt_of_succ_lt hjk) hold hold'
    · obtain ⟨rfl, hold'⟩ | ⟨-, -, hold'⟩ := of_names_rename hk
      · exact h.latest j i file file' (by omega) hold hold'
      · exact h.latest j k file file' hjk hold hold'
  kept j file file' hj hlt hborn := by
    have hnamed : ∃ k, d.names k = some file ∧ k ≤ last := by
      obtain ⟨-, hold⟩ | ⟨-, -, hold⟩ := of_names_rename hj
      · exact ⟨i, hold, (h.bounded i file hold).1⟩
      · exact ⟨j, hold, (h.bounded j file hold).1⟩
    obtain ⟨k, hold, hk⟩ := hnamed
    obtain ⟨k', hold'⟩ := h.kept k file file' hold hlt hborn
    obtain rfl | hself := eq_or_ne k' i
    · exact ⟨k' + 1, names_rename_succ.trans hold'⟩
    · obtain rfl | hsucc := eq_or_ne k' (i + 1)
      · -- the last name is that of the oldest file
        have hlast : i + 1 = last := hfree.resolve_left (by simp [hold'])
        obtain rfl | hk' := Nat.eq_or_lt_of_le (hlast ▸ hk)
        · rw [hold] at hold'
          cases hold'
          exact absurd hlt (Nat.lt_irrefl _)
        · exact absurd hlt (Nat.lt_asymm (h.latest k (i + 1) file file' hk' hold hold'))
      · exact ⟨k', (names_rename_of_ne hself hsucc).trans hold'⟩
  full j file hj := by
    obtain ⟨hj', hold⟩ | ⟨-, -, hold⟩ := of_names_rename hj
    · obtain rfl : j = i := by omega
      cases j with
      | zero => exact hfull rfl file hold
      | succ j => exact h.full j file hold
    · exact h.full j file hold

/-- What is known of the names when the loop comes to number `i`. -/
theorem Ordered.rotateFrom (h : Ordered maxBytes last d) (hi : i + 1 ≤ last)
    (hfree : d.names (i + 1) = none ∨ i + 1 = last)
    (hfull : ∀ log, d.names 0 = some log → maxBytes ≤ (d.contents log).length) :
    Ordered maxBytes last (Disk.rotateFrom i succeed d) := by
  induction i generalizing d succeed with
  | zero =>
      cases succeed with
      | zero => exact h
      | succ succeed => exact h.rename hi hfree fun _ => hfull
  | succ i ih =>
      cases succeed with
      | zero => exact h
      | succ succeed =>
          rw [Disk.rotateFrom]
          split
          · refine ih (h.rename hi hfree fun hzero => by omega) (by omega)
              (.inl names_rename_self) fun log hlog => ?_
            obtain ⟨hzero, -⟩ | ⟨-, -, hold⟩ := of_names_rename hlog
            · omega
            · exact hfull log hold
          · rename_i hnone
            exact ih h (by omega) (.inl (by simpa using hnone)) hfull

theorem Ordered.rotateFileIfNeeded (h : Ordered maxBytes (lastBackup backups) d) (succeed : ℕ) :
    Ordered maxBytes (lastBackup backups) (d.rotateFileIfNeeded maxBytes backups succeed) := by
  rw [Disk.rotateFileIfNeeded]
  cases hlog : d.names 0 with
  | none => exact h
  | some log =>
      dsimp only
      split
      · exact h
      · rename_i hlong
        have hlast : backups - 1 + 1 = lastBackup backups := by
          rw [lastBackup]
          omega
        refine h.rotateFrom hlast.le (.inr hlast) fun log' hlog' => ?_
        · rw [hlog] at hlog'
          cases hlog'
          exact Nat.le_of_not_lt hlong

theorem names_create_zero : d.create.names 0 = some d.next := by simp [Disk.create]

theorem names_create_of_ne {j : ℕ} (hne : j ≠ 0) : d.create.names j = d.names j :=
  Function.update_of_ne hne _ _

theorem of_names_create {j file : ℕ} (h : d.create.names j = some file) :
    j = 0 ∧ file = d.next ∨ j ≠ 0 ∧ d.names j = some file := by
  obtain rfl | hne := eq_or_ne j 0
  · rw [names_create_zero] at h
    exact .inl ⟨rfl, (Option.some.inj h).symm⟩
  · rw [names_create_of_ne hne] at h
    exact .inr ⟨hne, h⟩

theorem Ordered.create (h : Ordered maxBytes last d) (hnone : d.names 0 = none) :
    Ordered maxBytes last d.create where
  bounded j file hj := by
    obtain ⟨rfl, rfl⟩ | ⟨-, hold⟩ := of_names_create hj
    · exact ⟨Nat.zero_le _, Nat.lt_succ_self _⟩
    · exact (h.bounded j file hold).imp_right Nat.lt_succ_of_lt
  latest j k file file' hjk hj hk := by
    obtain ⟨rfl, -⟩ | ⟨-, hold'⟩ := of_names_create hk
    · exact absurd hjk (Nat.not_lt_zero _)
    · obtain ⟨-, rfl⟩ | ⟨-, hold⟩ := of_names_create hj
      · exact (h.bounded k file' hold').2
      · exact h.latest j k file file' hjk hold hold'
  kept j file file' hj hlt hborn := by
    obtain hborn | rfl := Nat.lt_succ_iff_lt_or_eq.mp hborn
    · obtain ⟨-, rfl⟩ | ⟨-, hold⟩ := of_names_create hj
      · exact absurd hlt (Nat.lt_asymm hborn)
      · obtain ⟨k, hk⟩ := h.kept j file file' hold hlt hborn
        have hne : k ≠ 0 := by
          rintro rfl
          rw [hnone] at hk
          cases hk
        exact ⟨k, (names_create_of_ne hne).trans hk⟩
    · exact ⟨0, names_create_zero⟩
  full j file hj := h.full j file ((names_create_of_ne (Nat.succ_ne_zero j)).symm.trans hj)

theorem Ordered.openLog (h : Ordered maxBytes last d) : Ordered maxBytes last d.openLog := by
  rw [Disk.openLog]
  split
  · exact h
  · rename_i hnone
    exact h.create (by simpa using hnone)

theorem contents_write {file : ℕ} (hfile : file < d.next) (bytes : List UInt8) (file' : ℕ) :
    (d.write file hfile bytes).contents file' =
      d.contents file' ++ if file = file' then bytes else [] := by
  split
  · rename_i heq
    subst heq
    exact Function.update_self ..
  · rename_i hne
    rw [List.append_nil]
    exact Function.update_of_ne (Ne.symm hne) _ _

theorem Ordered.write (h : Ordered maxBytes last d) {file : ℕ} (hfile : file < d.next)
    (bytes : List UInt8) : Ordered maxBytes last (d.write file hfile bytes) where
  bounded := h.bounded
  latest := h.latest
  kept := h.kept
  full j file' hj := by
    have hfull := h.full j file' hj
    rw [contents_write, List.length_append]
    omega

theorem Ordered.step {d' : Disk} {action : Action} (h : Ordered maxBytes (lastBackup backups) d)
    (hstep : Step maxBytes backups d action () d') : Ordered maxBytes (lastBackup backups) d' := by
  cases hstep with
  | start succeed => exact (h.rotateFileIfNeeded succeed).openLog
  | startFails succeed => exact h.rotateFileIfNeeded succeed
  | write hfile bytes => exact h.write hfile bytes

end Order

section Contents

variable {d : Disk} {maxBytes backups i succeed : ℕ}

theorem rotateFrom_contents : (Disk.rotateFrom i succeed d).contents = d.contents := by
  induction i generalizing d succeed with
  | zero => cases succeed <;> rfl
  | succ i ih =>
      cases succeed with
      | zero => rfl
      | succ succeed =>
          rw [Disk.rotateFrom]
          split
          · exact ih
          · exact ih

theorem rotateFileIfNeeded_contents :
    (d.rotateFileIfNeeded maxBytes backups succeed).contents = d.contents := by
  rw [Disk.rotateFileIfNeeded]
  cases d.names 0 with
  | none => rfl
  | some log =>
      dsimp only
      split
      · rfl
      · exact rotateFrom_contents

theorem openLog_contents : d.openLog.contents = d.contents := by
  rw [Disk.openLog]
  split <;> rfl

/-- What an action writes to a file. -/
def Action.writes (file : ℕ) : Action → List UInt8
  | .start _ _ => []
  | .write file' bytes => if file' = file then bytes else []

theorem step_contents {d' : Disk} {action : Action} (hstep : Step maxBytes backups d action () d')
    (file : ℕ) : d'.contents file = d.contents file ++ action.writes file := by
  cases hstep with
  | start succeed =>
      rw [openLog_contents, rotateFileIfNeeded_contents]
      exact (List.append_nil _).symm
  | startFails succeed =>
      rw [rotateFileIfNeeded_contents]
      exact (List.append_nil _).symm
  | write hfile bytes => exact contents_write hfile bytes file

end Contents

section Unhindered

variable {d : Disk} {maxBytes backups last i succeed : ℕ}

/-- No rename and no opening fails. -/
def Action.Unhindered (backups : ℕ) : Action → Prop
  | .start succeed opens => lastBackup backups ≤ succeed ∧ opens = true
  | .write _ _ => True

theorem next_rotateFrom : (Disk.rotateFrom i succeed d).next = d.next := by
  induction i generalizing d succeed with
  | zero => cases succeed <;> rfl
  | succ i ih =>
      cases succeed with
      | zero => rfl
      | succ succeed =>
          rw [Disk.rotateFrom]
          split
          · exact ih
          · exact ih

theorem names_rotateFrom (hsucceed : i < succeed)
    (hgaps : ∀ j, 0 < j → j ≤ i → d.names j = none → d.names (j + 1) = none) {j : ℕ}
    (hpos : 0 < j) : (Disk.rotateFrom i succeed d).names j =
      if j ≤ i + 1 then d.names (j - 1) else d.names j := by
  induction i generalizing d succeed with
  | zero =>
      obtain ⟨succeed, rfl⟩ : ∃ n, succeed = n + 1 := ⟨succeed - 1, by omega⟩
      rw [Disk.rotateFrom]
      split
      · obtain rfl : j = 1 := by omega
        exact names_rename_succ
      · exact names_rename_of_ne (by omega) (by omega)
  | succ i ih =>
      obtain ⟨succeed, rfl⟩ : ∃ n, succeed = n + 1 := ⟨succeed - 1, by omega⟩
      rw [Disk.rotateFrom]
      split
      · have hrenamed {k : ℕ} (hself : k ≠ i + 1) (hsucc : k ≠ i + 2) :
            (d.rename (i + 1) (i + 2)).names k = d.names k :=
          names_rename_of_ne hself hsucc
        rw [ih (by omega) fun k hk hki hnone => ?_]
        · obtain hlt | rfl | hgt := lt_trichotomy j (i + 2)
          · rw [if_pos (by omega), if_pos (by omega), hrenamed (by omega) (by omega)]
          · rw [if_neg (by omega), if_pos (by omega)]
            exact names_rename_succ
          · rw [if_neg (by omega), if_neg (by omega), hrenamed (by omega) (by omega)]
        · obtain rfl | hne := eq_or_ne k i
          · exact names_rename_self
          · rw [hrenamed (by omega) (by omega)] at hnone ⊢
            exact hgaps k hk (by omega) hnone
      · rename_i hnone
        have hnone : d.names (i + 1) = none := by simpa using hnone
        rw [ih (by omega) fun k hk hki => hgaps k hk (by omega)]
        obtain hlt | rfl | hgt := lt_trichotomy j (i + 2)
        · rw [if_pos (by omega), if_pos (by omega)]
        · rw [if_neg (by omega), if_pos (by omega), hgaps (i + 1) (by omega) le_rfl hnone]
          exact hnone.symm
        · rw [if_neg (by omega), if_neg (by omega)]

theorem names_zero_rotateFrom (hsucceed : i < succeed) :
    (Disk.rotateFrom i succeed d).names 0 = none := by
  induction i generalizing d succeed with
  | zero =>
      obtain ⟨succeed, rfl⟩ : ∃ n, succeed = n + 1 := ⟨succeed - 1, by omega⟩
      exact names_rename_self
  | succ i ih =>
      obtain ⟨succeed, rfl⟩ : ∃ n, succeed = n + 1 := ⟨succeed - 1, by omega⟩
      rw [Disk.rotateFrom]
      split
      · exact ih (by omega)
      · exact ih (by omega)

/-- The log and its backups are the latest files, as many as there may be. -/
def Latest (last : ℕ) (d : Disk) : Prop :=
  ∀ j, d.names j = if j ≤ last ∧ j < d.next then some (d.next - 1 - j) else none

theorem Latest.next_eq_zero (h : Latest last d) (hnone : d.names 0 = none) : d.next = 0 := by
  rw [h, ite_eq_right_iff] at hnone
  by_contra hnext
  cases hnone ⟨Nat.zero_le _, Nat.pos_of_ne_zero hnext⟩

theorem latest_create {d' : Disk} (h : Latest last d) (hnext : d'.next = d.next)
    (hmoved : ∀ j, j < last → d'.names (j + 1) = d.names j)
    (hrest : ∀ j, last < j → d'.names j = d.names j) : Latest last d'.create := by
  intro j
  have hborn : d'.create.next = d.next + 1 := congrArg (· + 1) hnext
  rw [hborn]
  cases j with
  | zero => simp [names_create_zero, hnext]
  | succ j =>
      rw [names_create_of_ne (Nat.succ_ne_zero j)]
      obtain hj | hj := Nat.lt_or_ge j last
      · rw [hmoved j hj, h]
        split
        · rw [if_pos (by omega)]
          congr 1
          omega
        · rw [if_neg (by omega)]
      · rw [hrest _ (by omega), h, if_neg (by omega), if_neg (by omega)]

theorem Latest.start (h : Latest (lastBackup backups) d) (hsucceed : lastBackup backups ≤ succeed) :
    Latest (lastBackup backups) (d.rotateFileIfNeeded maxBytes backups succeed).openLog := by
  rw [Disk.rotateFileIfNeeded]
  cases hlog : d.names 0 with
  | none =>
      have hnames (j : ℕ) : d.names j = none := by
        rw [h, h.next_eq_zero hlog, if_neg (by omega)]
      dsimp only
      rw [Disk.openLog, hlog, if_neg (by simp)]
      exact latest_create h rfl (fun j _ => by rw [hnames, hnames]) fun _ _ => rfl
  | some log =>
      dsimp only
      split
      · rw [Disk.openLog, hlog]
        exact h
      · have hlast : backups - 1 + 1 = lastBackup backups := by
          rw [lastBackup]
          omega
        have hall : backups - 1 < succeed := by omega
        have hgaps : ∀ j, 0 < j → j ≤ backups - 1 → d.names j = none → d.names (j + 1) = none := by
          intro j _ _ hnone
          rw [h, ite_eq_right_iff] at hnone
          rw [h, if_neg fun hj => ?_]
          cases hnone ⟨by omega, by omega⟩
        rw [Disk.openLog, names_zero_rotateFrom hall, if_neg (by simp)]
        refine latest_create h next_rotateFrom (fun j hj => ?_) fun j hj => ?_
        · rw [names_rotateFrom hall hgaps (Nat.succ_pos j), if_pos (by omega)]
          rfl
        · rw [names_rotateFrom hall hgaps (by omega), if_neg (by omega)]

theorem Latest.step {d' : Disk} {action : Action} (h : Latest (lastBackup backups) d)
    (hunhindered : action.Unhindered backups) (hstep : Step maxBytes backups d action () d') :
    Latest (lastBackup backups) d' := by
  cases hstep with
  | start succeed => exact h.start hunhindered.1
  | startFails succeed => exact absurd hunhindered.2 Bool.false_ne_true
  | write hfile bytes => exact h

end Unhindered

/-- Whatever fails, the log and its backups are the latest files in their order, only the oldest
lose their names, only full logs become backups, and no byte that a daemon has written is lost from
its file. Where nothing fails they are the latest files without a gap. -/
theorem log_kept {maxBytes backups : ℕ} {trace : List (Transition Disk Action Unit)} {d : Disk}
    (hrun : Run (Step maxBytes backups) .empty trace d) :
    Ordered maxBytes (lastBackup backups) d ∧
    (∀ file, d.contents file = trace.flatMap fun tr => tr.input.writes file) ∧
    ((∀ tr ∈ trace, tr.input.Unhindered backups) → Latest (lastBackup backups) d) := by
  refine ⟨?_, fun file => ?_, fun hunhindered => ?_⟩
  · have hempty : Ordered maxBytes (lastBackup backups) .empty := by
      constructor <;> intros <;> contradiction
    exact (hrun.invariant (Ordered maxBytes (lastBackup backups)) (fun _ _ => True)
      (fun _ _ _ _ h _ hstep => h.step hstep) hempty fun _ _ => trivial).1
  · exact hrun.accumulate (fun d => d.contents file) (fun tr => tr.input.writes file)
      fun tr hstep => step_contents hstep file
  · exact (hrun.invariant (Latest (lastBackup backups)) (fun _ action => action.Unhindered backups)
      (fun _ _ _ _ h hunhindered hstep => h.step hunhindered hstep) (fun j => by simp [Disk.empty])
      hunhindered).1

/-- A daemon fills its log, and the next one begins another. -/
theorem log_kept_rotated : ∃ (trace : List (Transition Disk Action Unit)) (d : Disk),
    Run (Step 4 3) .empty trace d ∧ d.names 0 = some 1 ∧ d.names 1 = some 0 ∧
      d.contents 0 = [46, 46, 46, 46] := by
  let full := (Disk.empty.rotateFileIfNeeded 4 3 3).openLog.write 0 (by decide) [46, 46, 46, 46]
  have hfill : Run (Step 4 3) .empty _ full := .cons (.start 3) (.cons (.write _ _) (.nil full))
  have hrun := hfill.append (.cons (.start 3) (.nil _))
  obtain ⟨-, hcontents, hlatest⟩ := log_kept hrun
  have hnames := hlatest (by simp [Action.Unhindered, lastBackup])
  exact ⟨_, _, hrun, hnames 0, hnames 1, hcontents 0⟩

end Ulpf.Cli.LogRotation
