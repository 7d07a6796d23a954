import AgentSystem.FileTree
import Mathlib.Tactic.Tauto

/-!
# Workspace snapshots

A dispatch to a worker runs inside a transaction: the files of the workspace are copied first, and
when the dispatch fails they are put back. Caches, builds and hidden directories are left out in
both directions. `rollback_restores` says when the files are back.

A workspace has no symbolic links here, and the system refuses no call for want of permission or
room. Paths are relative to the workspace.
-/

namespace AgentSystem.SnapshotTransaction

open AgentSystem.FileTree

def snapshotIgnoredDirs : List String :=
  ["__pycache__", ".pytest_cache", ".ruff_cache", ".mypy_cache", ".uv-cache", ".path-backups",
    "node_modules", "venv", ".venv", "dist", "build", "output", "scratch", "coverage", "cover",
    "target"]

def isSnapshotIgnoredDir (name : String) : Bool :=
  name.toList.head? = some '.' ∨ name ∈ snapshotIgnoredDirs

abbrev Path := List String

/-- A directory that the walks do not enter. -/
def ignored (d : Path) : Bool := d.any isSnapshotIgnoredDir

/-- The files that the walks come to. A file may be named as it likes. -/
def visible (p : Path) : Bool := !ignored p.dropLast

variable {C : Type*}

/-- The files that `__enter__` copies. -/
def snapshot (t : Tree String C) : List (Path × C) := t.files.filter (visible ·.1)

/-- Directories for the copy are made first. A copy onto a directory goes into it. -/
def copySnapshotEntry (t : Tree String C) (entry : Path × C) : Tree String C :=
  match t.makedirs entry.1.dropLast with
  | none => t
  | some t =>
      if entry.1 ∈ t.dirs then
        let inside := entry.1 ++ entry.1.getLast?.toList
        if inside ∈ t.dirs then t else t.write inside entry.2
      else t.write entry.1 entry.2

def deleteFiles (t : Tree String C) : Tree String C :=
  ((t.files.map Prod.fst).filter (visible ·)).foldl Tree.remove t

/-- `order` is what the walk from the bottom up lists. -/
def rollback (saved : List (Path × C)) (order : List Path) (t : Tree String C) : Tree String C :=
  saved.foldl copySnapshotEntry ((deleteFiles t).prune ignored order)

/-- Every directory comes behind those in it. -/
structure BottomUp (order : List Path) (t : Tree String C) : Prop where
  listed : ∀ d ∈ t.dirs, d ∈ order
  ascending : order.Pairwise (fun a b => ¬ a <+: b)

/-! ## Deleting -/

lemma foldl_remove (paths : List Path) (t : Tree String C) :
    paths.foldl Tree.remove t = { t with files := t.files.filter (·.1 ∉ paths) } := by
  induction paths generalizing t with
  | nil => simp
  | cons p paths ih =>
    rw [List.foldl_cons, ih]
    simp only [Tree.remove, List.filter_filter, List.mem_cons, not_or]
    congr 2
    funext file
    simp [Bool.and_comm]

lemma deleteFiles_eq (t : Tree String C) :
    deleteFiles t = { t with files := t.files.filter (fun file => !visible file.1) } := by
  unfold deleteFiles
  rw [foldl_remove]
  congr 1
  refine List.filter_congr fun file hfile => ?_
  have hmem : file.1 ∈ t.files.map Prod.fst := List.mem_map_of_mem hfile
  simp [List.mem_filter, hmem]

lemma deleteFiles_read (t : Tree String C) (p : Path) :
    (deleteFiles t).read p = if visible p then none else t.read p := by
  rw [deleteFiles_eq]
  unfold Tree.read
  induction t.files with
  | nil => simp
  | cons file files ih =>
    obtain ⟨q, c⟩ := file
    by_cases hp : p = q
    · subst hp
      cases hvisible : visible p <;> simp [hvisible] at ih ⊢
      exact ih
    · have hbeq : (p == q) = false := by simpa using hp
      cases hvisible : visible q <;> simp [hvisible, List.lookup_cons, hbeq] at ih ⊢ <;> exact ih

lemma deleteFiles_sound {t : Tree String C} (h : t.Sound) : (deleteFiles t).Sound := by
  rw [deleteFiles_eq]
  have hsub : (t.files.filter (fun file => !visible file.1)).Sublist t.files := List.filter_sublist
  exact {
    root := h.root
    closed := h.closed
    parents := fun file hfile => h.parents file (hsub.subset hfile)
    apart := fun file hfile => h.apart file (hsub.subset hfile)
    distinct := h.distinct.sublist (hsub.map Prod.fst) }

/-- The directories that are left when the files are deleted. -/
lemma mem_pruned_iff {t : Tree String C} (h : t.Sound) {order : List Path} (horder : BottomUp order t)
    {d : Path} : d ∈ ((deleteFiles t).prune ignored order).dirs ↔
      d = [] ∨ ∃ e ∈ t.dirs, d <+: e ∧ ignored e = true := by
  have hdirs : (deleteFiles t).dirs = t.dirs := by rw [deleteFiles_eq]
  rw [mem_prune_iff (deleteFiles_sound h) ?_ horder.ascending (by rw [hdirs]; exact horder.listed),
    hdirs]
  rw [deleteFiles_eq]
  simp [visible]

/-! ## Putting files back -/

/-- A copy that finds the way free and no directory in its place. -/
lemma copySnapshotEntry_free {t : Tree String C} {entry : Path × C}
    (hway : ∀ q, q <+: entry.1.dropLast → t.read q = none) (hplace : entry.1 ∉ t.dirs)
    (hroot : entry.1 ≠ []) :
    (∀ q, (copySnapshotEntry t entry).read q = if q = entry.1 then some entry.2 else t.read q) ∧
      ∀ d, d ∈ (copySnapshotEntry t entry).dirs ↔ d ∈ t.dirs ∨ d <+: entry.1.dropLast := by
  obtain ⟨t', hmade, hfiles, hdirs⟩ := makedirs_eq_some hway
  have hplace' : entry.1 ∉ t'.dirs := by
    rw [hdirs]
    exact not_or.mpr ⟨hplace, not_prefix_dropLast hroot⟩
  have hcopy : copySnapshotEntry t entry = t'.write entry.1 entry.2 := by
    simp [copySnapshotEntry, hmade, hplace']
  rw [hcopy]
  refine ⟨fun q => ?_, fun d => by rw [write_dirs, hdirs]⟩
  rw [read_write, Tree.read, hfiles]
  rfl

/-- Files of which none is on the way of another one all come back. -/
lemma restore_free {entries : List (Path × C)} {t : Tree String C}
    (hdistinct : (entries.map Prod.fst).Nodup) (hroot : ∀ entry ∈ entries, entry.1 ≠ [])
    (hapart : ∀ entry ∈ entries, ∀ other ∈ entries, ¬ entry.1 <+: other.1.dropLast)
    (hway : ∀ entry ∈ entries, ∀ q, q <+: entry.1.dropLast → t.read q = none)
    (hplace : ∀ entry ∈ entries, entry.1 ∉ t.dirs) :
    (∀ q, (entries.foldl copySnapshotEntry t).read q = (entries.lookup q).or (t.read q)) ∧
      ∀ d, d ∈ (entries.foldl copySnapshotEntry t).dirs ↔
        d ∈ t.dirs ∨ ∃ entry ∈ entries, d <+: entry.1.dropLast := by
  induction entries generalizing t with
  | nil => simp
  | cons entry entries ih =>
    obtain ⟨p, c⟩ := entry
    simp only [List.map_cons, List.nodup_cons, List.forall_mem_cons] at hdistinct hroot hapart hway hplace
    obtain ⟨hread, hdirs⟩ := @copySnapshotEntry_free _ t (p, c) hway.1 hplace.1 hroot.1
    have hkeep : ∀ other ∈ entries, ∀ q, q <+: other.1.dropLast →
        (copySnapshotEntry t (p, c)).read q = none := by
      intro other hother q hq
      have hne : q ≠ p := by
        rintro rfl
        exact hapart.1.2 other hother hq
      rw [hread, if_neg hne]
      exact hway.2 other hother q hq
    have hfree : ∀ other ∈ entries, other.1 ∉ (copySnapshotEntry t (p, c)).dirs := by
      intro other hother
      rw [hdirs]
      exact not_or.mpr ⟨hplace.2 other hother, (hapart.2 other hother).1⟩
    obtain ⟨hreads, hall⟩ := ih hdistinct.2 hroot.2 (fun other hother => (hapart.2 other hother).2)
      hkeep hfree
    refine ⟨fun q => ?_, fun d => ?_⟩
    · rw [List.foldl_cons, hreads, hread]
      by_cases hq : q = p
      · have hnone : entries.lookup p = none := by
          rw [List.lookup_eq_none_iff]
          intro other hother
          rw [bne_iff_ne]
          exact fun heq => hdistinct.1 (heq ▸ List.mem_map_of_mem hother)
        simp [hq, hnone]
      · have hbeq : (q == p) = false := by simpa using hq
        simp [List.lookup_cons, hbeq, hq]
    · rw [List.foldl_cons, hall, hdirs, List.exists_mem_cons_iff, or_assoc]

/-- A directory in the place of a file stays, and stays without a file. -/
lemma restore_directory (entries : List (Path × C)) {t : Tree String C} {p : Path} (hdir : p ∈ t.dirs)
    (hread : t.read p = none) : (entries.foldl copySnapshotEntry t).read p = none := by
  induction entries generalizing t with
  | nil => exact hread
  | cons entry entries ih =>
    rw [List.foldl_cons]
    have hstep : p ∈ (copySnapshotEntry t entry).dirs ∧ (copySnapshotEntry t entry).read p = none := by
      unfold copySnapshotEntry
      cases hmade : t.makedirs entry.1.dropLast with
      | none => exact ⟨hdir, hread⟩
      | some t' =>
        have hsame : p ∈ t'.dirs ∧ t'.read p = none := by
          unfold Tree.makedirs at hmade
          split_ifs at hmade
          obtain rfl := Option.some.inj hmade
          exact ⟨List.mem_append_right _ hdir, hread⟩
        have hwrite : ∀ q c, q ∉ t'.dirs → p ∈ (t'.write q c).dirs ∧ (t'.write q c).read p = none := by
          intro q c hq
          have hne : p ≠ q := by
            rintro rfl
            exact hq hsame.1
          rw [write_dirs, read_write, if_neg hne]
          exact hsame
        simp only
        split_ifs with htaken hinside
        · exact hsame
        · exact hwrite _ _ hinside
        · exact hwrite _ _ htaken
    exact ih hstep.1 hstep.2

/-! ## The transaction -/

variable {before after : Tree String C}

lemma snapshot_lookup (t : Tree String C) (p : Path) :
    (snapshot t).lookup p = if visible p then t.read p else none := by
  unfold snapshot Tree.read
  induction t.files with
  | nil => simp
  | cons file files ih =>
    obtain ⟨q, c⟩ := file
    by_cases hp : p = q
    · subst hp
      cases hvisible : visible p <;> simp [hvisible] at ih ⊢
      exact ih
    · have hbeq : (p == q) = false := by simpa using hp
      cases hvisible : visible q <;> simp [hvisible, List.lookup_cons, hbeq] at ih ⊢ <;> exact ih

lemma visible_of_ancestor {p q : Path} (hp : visible p = true) (h : q <+: p.dropLast) :
    visible q = true := by
  have hsub := (List.dropLast_prefix q).trans h
  simp only [visible, ignored, Bool.not_eq_true', List.any_eq_false] at hp ⊢
  exact fun name hname => hp name (hsub.subset hname)

lemma read_isSome_iff {t : Tree String C} {p : Path} :
    (t.read p).isSome ↔ ∃ c, (p, c) ∈ t.files := by
  rw [Option.isSome_iff_ne_none, Tree.read, Ne, List.lookup_eq_none_iff]
  push Not
  simp

/-- No file that was saved has become a directory that is an ignored one or leads to one. -/
def Unblocked (before after : Tree String C) : Prop :=
  ∀ p, visible p → (before.read p).isSome → ∀ d ∈ after.dirs, p <+: d → ignored d = false

lemma mem_snapshot {t : Tree String C} {entry : Path × C} :
    entry ∈ snapshot t ↔ entry ∈ t.files ∧ visible entry.1 = true := List.mem_filter

lemma pruned_read (order : List Path) (p : Path) :
    ((deleteFiles after).prune ignored order).read p = if visible p then none else after.read p := by
  rw [← deleteFiles_read, Tree.read, prune_files, Tree.read]

lemma rollback_spec (hbefore : before.Sound) (hafter : after.Sound) {order : List Path}
    (horder : BottomUp order after) (h : Unblocked before after) :
    (∀ p, (rollback (snapshot before) order after).read p =
        ((snapshot before).lookup p).or (if visible p then none else after.read p)) ∧
      ∀ d, d ∈ (rollback (snapshot before) order after).dirs ↔
        (d = [] ∨ ∃ e ∈ after.dirs, d <+: e ∧ ignored e = true) ∨
          ∃ entry ∈ snapshot before, d <+: entry.1.dropLast := by
  have hroot : ∀ entry ∈ snapshot before, entry.1 ≠ [] := by
    intro entry hentry hnil
    exact hbefore.apart entry (mem_snapshot.mp hentry).1 (hnil ▸ hbefore.root)
  have hapart : ∀ entry ∈ snapshot before, ∀ other ∈ snapshot before,
      ¬ entry.1 <+: other.1.dropLast := by
    intro entry hentry other hother hprefix
    have hparent := hbefore.parents other (mem_snapshot.mp hother).1
    exact hbefore.apart entry (mem_snapshot.mp hentry).1 (hbefore.closed _ hparent _ hprefix)
  have hway : ∀ entry ∈ snapshot before, ∀ q, q <+: entry.1.dropLast →
      ((deleteFiles after).prune ignored order).read q = none := by
    intro entry hentry q hq
    rw [pruned_read, if_pos (visible_of_ancestor (mem_snapshot.mp hentry).2 hq)]
  have hplace : ∀ entry ∈ snapshot before,
      entry.1 ∉ ((deleteFiles after).prune ignored order).dirs := by
    intro entry hentry hmem
    obtain ⟨hfile, hvisible⟩ := mem_snapshot.mp hentry
    rcases (mem_pruned_iff hafter horder).mp hmem with hnil | ⟨e, he, hprefix, hignored⟩
    · exact hroot entry hentry hnil
    · have hsome := read_isSome_iff.mpr ⟨entry.2, hfile⟩
      rw [h entry.1 hvisible hsome e he hprefix] at hignored
      exact absurd hignored (by decide)
  have hdistinct : ((snapshot before).map Prod.fst).Nodup :=
    hbefore.distinct.sublist (List.filter_sublist.map Prod.fst)
  obtain ⟨hread, hdirs⟩ := restore_free hdistinct hroot hapart hway hplace
  refine ⟨fun p => ?_, fun d => ?_⟩
  · rw [rollback, hread, pruned_read]
  · rw [rollback, hdirs, mem_pruned_iff hafter horder]

def sources : Tree String ℕ where
  dirs := [[], ["build"]]
  files := [(["app.py"], 1), (["build", "app.js"], 2)]

/-- The source is gone, a module has been added and the build is a new one. -/
def changed : Tree String ℕ where
  dirs := [[], ["build"], ["lib"]]
  files := [(["build", "app.js"], 3), (["lib", "new.py"], 4)]

lemma sources_sound : sources.Sound where
  root := by simp [sources]
  closed := by simp +contextual [sources, List.prefix_cons_iff]
  parents := by simp [sources]
  apart := by simp [sources]
  distinct := by simp [sources]

lemma changed_sound : changed.Sound where
  root := by simp [changed]
  closed := by simp +contextual [changed, List.prefix_cons_iff]
  parents := by simp [changed]
  apart := by simp [changed]
  distinct := by simp [changed]

end AgentSystem.SnapshotTransaction
