import Mathlib.Data.List.Basic
import Mathlib.Data.List.Infix
import Mathlib.Data.List.Nodup

/-!
# Trees of files and directories

A tree is flat: the paths of its directories, and the files with their contents. Names and contents
are arbitrary. Deleting, pruning and writing do what the system calls do, and what they refuse
leaves the tree as it is. `prune` removes directories bottom up and never enters a hidden one;
`mem_prune_iff` says which directories are left.
-/

namespace AgentSystem.FileTree

variable {N C : Type*} [DecidableEq N]

structure Tree (N C : Type*) where
  dirs : List (List N)
  files : List (List N × C)

variable (t : Tree N C) (p : List N)

def Tree.read : Option C := t.files.lookup p

/-- What lies under a path, the path itself left out. -/
def Tree.below : List (List N) := (t.dirs ++ t.files.map Prod.fst).filter (fun q => p <+: q ∧ q ≠ p)

def Tree.remove : Tree N C := { t with files := t.files.filter (·.1 ≠ p) }

/-- Only an empty directory can be removed. -/
def Tree.rmdir : Tree N C :=
  if t.below p = [] then { t with dirs := t.dirs.filter (· ≠ p) } else t

/-- A directory with all directories above it; a file on the way stops it. -/
def Tree.makedirs : Option (Tree N C) :=
  if p.inits.any (fun q => (t.read q).isSome) then none
  else some { t with dirs := p.inits.filter (· ∉ t.dirs) ++ t.dirs }

/-- The contents of one file. -/
def Tree.write (c : C) : Tree N C := { t.remove p with files := (p, c) :: (t.remove p).files }

/-- Each directory in turn is removed, unless it is the root or hidden. -/
def Tree.prune (hidden : List N → Bool) (order : List (List N)) : Tree N C :=
  order.foldl (fun t d => if d = [] ∨ hidden d then t else t.rmdir d) t

/-- Every entry is in a directory, no path is both a file and a directory, and no path is twice a
file. -/
structure Tree.Sound (t : Tree N C) : Prop where
  root : [] ∈ t.dirs
  closed : ∀ d ∈ t.dirs, ∀ q, q <+: d → q ∈ t.dirs
  parents : ∀ file ∈ t.files, file.1.dropLast ∈ t.dirs
  apart : ∀ file ∈ t.files, file.1 ∉ t.dirs
  distinct : (t.files.map Prod.fst).Nodup

variable {t p}

/-! ## Prefixes of paths -/

omit [DecidableEq N] in
lemma prefix_dropLast {a b : List N} (h : a <+: b) (hne : a ≠ b) : a <+: b.dropLast := by
  obtain ⟨rest, rfl⟩ := h
  have hrest : rest ≠ [] := by simpa using hne
  rw [List.dropLast_append_of_ne_nil hrest]
  exact List.prefix_append a _

omit [DecidableEq N] in
lemma not_prefix_dropLast {a : List N} (h : a ≠ []) : ¬ a <+: a.dropLast := by
  intro hprefix
  have hle := hprefix.length_le
  have hpos := List.length_pos_iff.mpr h
  rw [List.length_dropLast] at hle
  omega

/-! ## One operation -/

@[simp] lemma mem_below {q : List N} :
    q ∈ t.below p ↔ (q ∈ t.dirs ∨ ∃ c, (q, c) ∈ t.files) ∧ p <+: q ∧ q ≠ p := by
  simp only [Tree.below, List.mem_filter, List.mem_append, List.mem_map, Prod.exists,
    exists_and_right, exists_eq_right, decide_eq_true_eq]

@[simp] lemma rmdir_files : (t.rmdir p).files = t.files := by
  unfold Tree.rmdir
  split_ifs <;> rfl

lemma mem_rmdir {d : List N} : d ∈ (t.rmdir p).dirs ↔ d ∈ t.dirs ∧ (d = p → t.below p ≠ []) := by
  unfold Tree.rmdir
  split_ifs with h <;> simp [h]

lemma lookup_filter_ne {q : List N} (hq : q ≠ p) (files : List (List N × C)) :
    (files.filter (·.1 ≠ p)).lookup q = files.lookup q := by
  induction files with
  | nil => rfl
  | cons file files ih =>
    obtain ⟨r, c⟩ := file
    by_cases hfile : r = p
    · obtain rfl := hfile
      have hother : (q == r) = false := by simpa using hq
      simpa [List.lookup_cons, hother] using ih
    · simp [List.lookup_cons, hfile, ← ih]

lemma read_write (c : C) (q : List N) :
    (t.write p c).read q = if q = p then some c else t.read q := by
  unfold Tree.write Tree.remove Tree.read
  split_ifs with hq
  · simp [hq]
  · have hbeq : (q == p) = false := by simpa using hq
    rw [List.lookup_cons, hbeq]
    exact lookup_filter_ne hq t.files

@[simp] lemma write_dirs (c : C) : (t.write p c).dirs = t.dirs := rfl

lemma makedirs_eq_some (h : ∀ q, q <+: p → t.read q = none) :
    ∃ t', t.makedirs p = some t' ∧ t'.files = t.files ∧
      ∀ d, d ∈ t'.dirs ↔ d ∈ t.dirs ∨ d <+: p := by
  have hfree : p.inits.any (fun q => (t.read q).isSome) = false := by
    simp only [List.any_eq_false, List.mem_inits]
    intro q hq
    simp [h q hq]
  refine ⟨{ t with dirs := p.inits.filter (· ∉ t.dirs) ++ t.dirs }, ?_, rfl, fun d => ?_⟩
  · rw [Tree.makedirs, hfree, if_neg Bool.false_ne_true]
  simp only [List.mem_append, List.mem_filter, List.mem_inits, decide_eq_true_eq]
  tauto

/-! ## Pruning -/

section Prune

variable {hidden : List N → Bool} {order : List (List N)}

@[simp] lemma prune_files : (t.prune hidden order).files = t.files := by
  unfold Tree.prune
  induction order generalizing t with
  | nil => rfl
  | cons d order ih =>
    simp only [List.foldl_cons]
    rw [ih]
    split_ifs <;> simp

lemma prune_cons (d : List N) : t.prune hidden (d :: order) =
    (if d = [] ∨ hidden d then t else t.rmdir d).prune hidden order := rfl

/-- A hidden directory and the directories above it stay. -/
lemma mem_prune {d e : List N} (he : e ∈ t.dirs) (hhidden : hidden e = true) (hd : d ∈ t.dirs)
    (hde : d <+: e) : d ∈ (t.prune hidden order).dirs := by
  induction order generalizing t with
  | nil => exact hd
  | cons x order ih =>
    rw [prune_cons]
    split_ifs with hskip
    · exact ih he hd
    · have hx : e ≠ x := by
        rintro rfl
        exact hskip (Or.inr hhidden)
      refine ih (mem_rmdir.mpr ⟨he, fun heq => absurd heq hx⟩) (mem_rmdir.mpr ⟨hd, ?_⟩)
      rintro rfl
      exact List.ne_nil_of_mem (mem_below.mpr ⟨Or.inl he, hde, hx⟩)

lemma root_mem_prune (h : [] ∈ t.dirs) : [] ∈ (t.prune hidden order).dirs := by
  induction order generalizing t with
  | nil => exact h
  | cons x order ih =>
    rw [prune_cons]
    split_ifs with hskip
    · exact ih h
    · refine ih (mem_rmdir.mpr ⟨h, ?_⟩)
      rintro rfl
      exact absurd (Or.inl rfl) hskip

/-- Bottom up every directory without a hidden one at or under it is found empty. The invariant is
that those which are left are still to come. -/
lemma not_mem_prune {all : List (List N)} (hsub : ∀ d ∈ t.dirs, d ∈ all)
    (hfiles : ∀ file ∈ t.files, file.1.dropLast ∈ all ∧ hidden file.1.dropLast = true)
    (horder : order.Pairwise (fun a b => ¬ a <+: b))
    (hcome : ∀ d ∈ t.dirs, d ≠ [] → (∀ e ∈ all, d <+: e → hidden e = false) → d ∈ order)
    {d : List N} (hne : d ≠ []) (hclean : ∀ e ∈ all, d <+: e → hidden e = false) :
    d ∉ (t.prune hidden order).dirs := by
  induction order generalizing t with
  | nil => exact fun hmem => List.not_mem_nil (hcome d hmem hne hclean)
  | cons x order ih =>
    obtain ⟨hx, horder⟩ := List.pairwise_cons.mp horder
    rw [prune_cons]
    split_ifs with hskip
    · refine ih hsub hfiles horder fun q hq hqne hqclean => ?_
      rcases List.mem_cons.mp (hcome q hq hqne hqclean) with rfl | hrest
      · have := hqclean q (hsub q hq) List.prefix_rfl
        simp_all
      · exact hrest
    · refine ih (fun q hq => hsub q (mem_rmdir.mp hq).1) (by simpa using hfiles) horder ?_
      intro q hq hqne hqclean
      obtain ⟨hmem, hbelow⟩ := mem_rmdir.mp hq
      rcases List.mem_cons.mp (hcome q hmem hqne hqclean) with rfl | hrest
      · -- what is under it has been removed
        obtain ⟨z, hz⟩ := List.exists_mem_of_ne_nil _ (hbelow rfl)
        obtain ⟨hentry, hprefix, hzne⟩ := mem_below.mp hz
        rcases hentry with hdir | ⟨c, hfile⟩
        · have hznil : z ≠ [] := by
            rintro rfl
            exact hzne (List.prefix_nil.mp hprefix).symm
          have hcomes := hcome z hdir hznil fun e he hze => hqclean e he (List.IsPrefix.trans hprefix hze)
          rcases List.mem_cons.mp hcomes with rfl | hrest
          · exact absurd rfl hzne
          · exact absurd hprefix (hx z hrest)
        · obtain ⟨hall, hhid⟩ := hfiles _ hfile
          have := hqclean _ hall (prefix_dropLast hprefix hzne.symm)
          rw [hhid] at this
          exact absurd this (by decide)
      · exact hrest

/-- Pruning bottom up a tree with files in hidden directories only leaves the root and the
directories that lead to a hidden one or are one. -/
theorem mem_prune_iff (ht : t.Sound) (hfiles : ∀ file ∈ t.files, hidden file.1.dropLast = true)
    (horder : order.Pairwise (fun a b => ¬ a <+: b)) (hall : ∀ d ∈ t.dirs, d ∈ order)
    {d : List N} : d ∈ (t.prune hidden order).dirs ↔
      d = [] ∨ ∃ e ∈ t.dirs, d <+: e ∧ hidden e = true := by
  constructor
  · intro hmem
    by_contra hnot
    push Not at hnot
    refine not_mem_prune (fun _ h => h) (fun file h => ⟨ht.parents file h, hfiles file h⟩) horder
      (fun q hq _ _ => hall q hq) hnot.1 (fun e he hde => ?_) hmem
    simpa using hnot.2 e he hde
  · rintro (rfl | ⟨e, he, hde, hhidden⟩)
    · exact root_mem_prune ht.root
    · exact mem_prune he hhidden (ht.closed e he d hde) hde

end Prune

end AgentSystem.FileTree
