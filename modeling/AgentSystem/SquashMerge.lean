import AgentSystem.GitRepository

/-!
# Squash merges and worktrees

What the commands leave of the branches, what one squash merge may come to, and that the worktrees
of the roles stay off the target branch.
-/
namespace AgentSystem.GitWorktree

open Programs Pipeline

variable {α : Type}

/-! ## Commands -/

lemma command_state {P : GitState → Prop} (name : String)
    {effect : Repository → Option (α × Repository)}
    (hfaults : ∀ s faults, P s → P { s with faults := faults })
    (heffect : ∀ s output r, effect s.repository = some (output, r) → P s →
      P { s with repository := r }) : Keeps P (command name effect) := by
  intro s hs
  have hdone : P { s with
      repository := ((effect s.repository).map Prod.snd).getD s.repository } := by
    cases hresult : effect s.repository with
    | none => exact hs
    | some result => exact heffect _ _ _ hresult hs
  unfold command
  dsimp only
  cases s.faults.headD .none with
  | none => exact hfaults _ _ hdone
  | exit done =>
      cases done with
      | false => exact hfaults s _ hs
      | true => exact hfaults _ _ hdone
  | timeout done =>
      cases done with
      | false => exact hfaults s _ hs
      | true => exact hfaults _ _ hdone

lemma checked_state {P : GitState → Prop} (name : String)
    {effect : Repository → Option (α × Repository)}
    (hfaults : ∀ s faults, P s → P { s with faults := faults })
    (heffect : ∀ s output r, effect s.repository = some (output, r) → P s →
      P { s with repository := r }) : Keeps P (checked name effect) := by
  refine Keeps.bind (command_state name hfaults heffect) fun output => ?_
  cases output with
  | none => exact Keeps.raise _
  | some output => exact Keeps.ret output

lemma command_keeps {P : Repository → Prop} (name : String)
    {effect : Repository → Option (α × Repository)}
    (h : ∀ r output r', effect r = some (output, r') → P r → P r') :
    Keeps (fun s => P s.repository) (command name effect) :=
  command_state name (fun _ _ hs => hs) fun _ _ _ heffect hs => h _ _ _ heffect hs

lemma checked_keeps {P : Repository → Prop} (name : String)
    {effect : Repository → Option (α × Repository)}
    (h : ∀ r output r', effect r = some (output, r') → P r → P r') :
    Keeps (fun s => P s.repository) (checked name effect) :=
  checked_state name (fun _ _ hs => hs) fun _ _ _ heffect hs => h _ _ _ heffect hs

lemma asks_same {answer : Repository → Option α} {r r' : Repository} {output : α}
    (h : asks answer r = some (output, r')) : r' = r := by
  unfold asks at h
  obtain ⟨a, -, ha⟩ := Option.map_eq_some_iff.mp h
  exact (Prod.mk.inj ha).2.symm

lemma command_asks' {P : GitState → Prop} (hP : ∀ s faults, P s → P { s with faults := faults })
    (name : String) (answer : Repository → Option α) : Keeps P (command name (asks answer)) := by
  refine command_state name hP fun s output r h hs => ?_
  rw [asks_same h]
  exact hs

lemma checked_asks' {P : GitState → Prop} (hP : ∀ s faults, P s → P { s with faults := faults })
    (name : String) (answer : Repository → Option α) : Keeps P (checked name (asks answer)) := by
  refine checked_state name hP fun s output r h hs => ?_
  rw [asks_same h]
  exact hs

lemma command_asks {P : Repository → Prop} (name : String) (answer : Repository → Option α) :
    Keeps (fun s => P s.repository) (command name (asks answer)) :=
  command_keeps name fun _ _ _ h hr => asks_same h ▸ hr

lemma checked_asks {P : Repository → Prop} (name : String) (answer : Repository → Option α) :
    Keeps (fun s => P s.repository) (checked name (asks answer)) :=
  checked_keeps name fun _ _ _ h hr => asks_same h ▸ hr

/-- A command that prints has done its effect. -/
lemma command_effect {P : Repository → Prop} (name : String)
    (effect : Repository → Option (α × Repository)) :
    Triple (fun s => P s.repository) (command name effect)
      (fun result s => ∀ output, result = some output →
        ∃ r, P r ∧ effect r = some (output, s.repository)) fun _ _ => True := by
  intro s hs
  unfold command
  dsimp only
  cases s.faults.headD .none with
  | none =>
      intro output houtput
      obtain ⟨⟨printed, r⟩, heffect, hprinted⟩ := Option.map_eq_some_iff.mp houtput
      refine ⟨s.repository, hs, ?_⟩
      have hsame : printed = output := hprinted
      rw [heffect, hsame]
      rfl
  | exit done => exact nofun
  | timeout done => exact trivial

lemma checked_effect {P : Repository → Prop} (name : String)
    (effect : Repository → Option (α × Repository)) :
    Triple (fun s => P s.repository) (checked name effect)
      (fun output s => ∃ r, P r ∧ effect r = some (output, s.repository)) fun _ _ => True := by
  refine Triple.bind (command_effect name effect) fun result => ?_
  cases result with
  | none => exact Triple.raise fun _ _ => trivial
  | some output => exact Triple.ret fun _ hs => hs output rfl

lemma checked_ok {name : String} {effect : Repository → Option (α × Repository)}
    {s s' : GitState} {output : α} (h : command name effect s = (.ok (some output), s')) :
    checked name effect s = (.ok output, s') := by
  rw [checked, Program.bind_ok h]
  rfl

lemma checked_error {name : String} {effect : Repository → Option (α × Repository)}
    {s s' : GitState} {result : Except String (Option α)}
    (h : command name effect s = (result, s')) (hresult : ∀ output, result ≠ .ok (some output)) :
    ∃ e, checked name effect s = (.error e, s') := by
  unfold checked
  rcases result with e | _ | output
  · exact ⟨e, Program.bind_error h⟩
  · rw [Program.bind_ok h]
    exact ⟨_, rfl⟩
  · exact absurd rfl (hresult output)

/-! ## One merge -/

section Merge

variable (git : Git) (source target : String)

/-- The branches of the repository are these. -/
abbrev Branches (branches : String → Option Commit) (r : Repository) : Prop :=
  r.branches = branches

lemma checkout_branches {r r' : Repository} {output : Unit}
    (h : checkout target r = some (output, r')) :
    r'.branches = r.branches ∧ r'.head = target := by
  unfold checkout at h
  split_ifs at h
  obtain ⟨commit, -, hcommit⟩ := Option.map_eq_some_iff.mp h
  rw [← (Prod.mk.inj hcommit).2]
  exact ⟨rfl, rfl⟩

lemma checkoutTarget_keeps {branches : String → Option Commit} (current : String) :
    Keeps (fun s => Branches branches s.repository) (checkoutTarget target current) := by
  unfold checkoutTarget
  split_ifs
  · exact Keeps.ret ()
  · exact checked_keeps _ fun _ _ _ h hr => (checkout_branches target h).1.trans hr

/-- The branch has nothing that the target does not have. -/
def NothingToMerge (s : GitState) : Prop :=
  ∃ ours theirs, s.branch target = some ours ∧ s.branch source = some theirs ∧
    git.mergeTree ours theirs = some ours.tree

/-- The merge gets as far as its commit, and the commit takes place. -/
def CommitTakesEffect (s : GitState) : Prop :=
  ∃ s', prepareMerge git source target s = (.ok (.ok true), s') ∧
    (commitStaged (squashMessage source target) s'.repository).isSome = true ∧
    (s'.faults.headD .none).done = true

/-- The main checkout is on the target with the merged files staged. -/
structure Staged (branches : String → Option Commit) (r : Repository) : Prop where
  sameBranches : r.branches = branches
  onTarget : r.head = target
  merged : ∃ ours theirs, branches target = some ours ∧ branches source = some theirs ∧
    git.mergeTree ours theirs = some r.staged

lemma staged_of_mergeSquash {branches : String → Option Commit} {r r' : Repository}
    {output : Unit} (hbranches : r.branches = branches) (hhead : r.head = target)
    (h : mergeSquash git source r = some (output, r')) : Staged git source target branches r' := by
  unfold mergeSquash headCommit at h
  rw [hbranches, hhead] at h
  obtain ⟨ours, hours, h⟩ := Option.bind_eq_some_iff.mp h
  obtain ⟨theirs, htheirs, h⟩ := Option.bind_eq_some_iff.mp h
  obtain ⟨tree, htree, h⟩ := Option.bind_eq_some_iff.mp h
  cases h
  exact ⟨rfl, rfl, ours, theirs, hours, htheirs, htree⟩

lemma mergeSquash_branches {r r' : Repository} {output : Unit}
    (h : mergeSquash git source r = some (output, r')) : r'.branches = r.branches := by
  exact (staged_of_mergeSquash git source r.head rfl rfl h).sameBranches

lemma resetHard_branches {r r' : Repository} {output : Unit}
    (h : resetHard r = some (output, r')) : r'.branches = r.branches := by
  unfold resetHard at h
  obtain ⟨commit, -, hcommit⟩ := Option.map_eq_some_iff.mp h
  rw [← (Prod.mk.inj hcommit).2]

lemma diffCached_same {r r' : Repository} {output : Unit}
    (h : asks diffCached r = some (output, r')) :
    ∃ commit, r.branches r.head = some commit ∧ r.staged = commit.tree := by
  unfold asks diffCached headCommit at h
  obtain ⟨u, hu, -⟩ := Option.map_eq_some_iff.mp h
  obtain ⟨commit, hcommit, hsame⟩ := Option.bind_eq_some_iff.mp hu
  split_ifs at hsame with htree
  exact ⟨commit, hcommit, htree⟩

lemma prepareMerge_keeps (branches : String → Option Commit) :
    Keeps (fun s => Branches branches s.repository) (prepareMerge git source target) := by
  refine Keeps.bind (checked_asks _ _) fun current => ?_
  refine Keeps.bind (checkoutTarget_keeps target current) fun _ => ?_
  refine Keeps.bind (command_keeps _ fun _ _ _ h hr => (mergeSquash_branches git source h).trans hr)
    fun merged => Keeps.split ?_ ?_
  · exact Keeps.bind (command_keeps _ fun _ _ _ h hr => (resetHard_branches h).trans hr)
      fun _ => Keeps.ret _
  · exact Keeps.bind (command_asks _ _) fun _ => Keeps.ret _

lemma checkoutTarget_head (branches : String → Option Commit) (current : String) :
    Triple (fun s => s.repository.branches = branches ∧ s.repository.head = current)
      (checkoutTarget target current)
      (fun _ s => s.repository.branches = branches ∧ s.repository.head = target)
      fun _ _ => True := by
  refine Triple.split (fun hcurrent => Triple.ret fun _ hs => hcurrent ▸ hs) fun _ => ?_
  refine Triple.weaken (checked_effect (P := fun r => r.branches = branches) "checkout" _)
    (fun _ hs => hs.1) (fun _ s hs => ?_) fun _ _ => id
  obtain ⟨r, hr, h⟩ := hs
  obtain ⟨hsame, hhead⟩ := checkout_branches target h
  exact ⟨hsame.trans hr, hhead⟩

/-- A preparation that ends without an error has staged the merge, and it says whether that is
something else than the target has. -/
lemma prepareMerge_staged (branches : String → Option Commit) :
    Triple (fun s => Branches branches s.repository) (prepareMerge git source target)
      (fun prepared s => ∀ changed, prepared = .ok changed →
        Staged git source target branches s.repository ∧
          (changed = false → ∃ ours, branches target = some ours ∧
            s.repository.staged = ours.tree))
      fun _ _ => True := by
  refine Triple.bind (R := fun current s =>
    s.repository.branches = branches ∧ s.repository.head = current) ?_ fun current => ?_
  · refine Triple.weaken (checked_effect (P := Branches branches) _ _) (fun _ => id)
      (fun current s hs => ?_) fun _ _ => id
    obtain ⟨r, hr, h⟩ := hs
    cases h
    exact ⟨hr, rfl⟩
  refine Triple.bind (checkoutTarget_head target branches current) fun _ => ?_
  refine Triple.bind (command_effect (P := fun r => r.branches = branches ∧ r.head = target)
    _ _) fun merged => ?_
  cases merged with
  | none => exact Triple.bind Triple.any fun _ => Triple.ret fun _ _ _ => nofun
  | some output =>
      refine Triple.bind (Triple.weaken (Triple.conj
        (command_asks (P := Staged git source target branches) _ diffCached).triple
        (command_effect (P := Staged git source target branches) _ (asks diffCached)))
        (fun s hs => ?_) (fun _ _ => id) fun _ _ => id) fun same => Triple.ret fun s hs => ?_
      · obtain ⟨r, ⟨hbranches, hhead⟩, h⟩ := hs output rfl
        exact staged_of_mergeSquash git source target hbranches hhead h
      · intro changed hchanged
        cases hchanged
        refine ⟨hs.1, fun hsame => ?_⟩
        cases same with
        | none => cases hsame
        | some out =>
            obtain ⟨r, hr, h⟩ := hs.2 out rfl
            obtain ⟨ours, hours, htree⟩ := diffCached_same h
            rw [hr.sameBranches, hr.onTarget] at hours
            exact ⟨ours, hours, asks_same h ▸ htree⟩

/-- What a merge may come to. -/
inductive Squashed (s s' : GitState) : Bool → Prop
  | stopped (hbranches : s'.repository.branches = s.repository.branches)
      (hcommit : ¬CommitTakesEffect git source target s) : Squashed s s' false
  | nothing (hbranches : s'.repository.branches = s.repository.branches)
      (hnothing : NothingToMerge git source target s) : Squashed s s' true
  | committed (merged : Bool) {ours : Commit} {tree : Tree}
      (hours : s.branch target = some ours)
      (hbranches : s'.repository.branches = Function.update s.repository.branches target
        (some (.child ours tree (squashMessage source target))))
      (hchange : ¬NothingToMerge git source target s)
      (hcommit : CommitTakesEffect git source target s) : Squashed s s' merged

lemma command_repository (name : String) (effect : Repository → Option (α × Repository))
    (s : GitState) :
    (command name effect s).2.repository =
      if (s.faults.headD .none).done then
        ((effect s.repository).map Prod.snd).getD s.repository else s.repository := by
  unfold command
  dsimp only
  cases s.faults.headD .none <;> rfl

lemma done_of_command_some {name : String} {effect : Repository → Option (α × Repository)}
    {s s' : GitState} {output : α} (h : command name effect s = (.ok (some output), s')) :
    (effect s.repository).isSome = true ∧ (s.faults.headD .none).done = true := by
  unfold command at h
  dsimp only at h
  revert h
  cases s.faults.headD .none with
  | none =>
      intro h
      have houtput := Except.ok.inj (Prod.mk.inj h).1
      obtain ⟨result, hresult, -⟩ := Option.map_eq_some_iff.mp houtput
      exact ⟨by rw [hresult]; rfl, rfl⟩
  | exit done => exact fun h => absurd (Except.ok.inj (Prod.mk.inj h).1) nofun
  | timeout done => exact fun h => absurd (Prod.mk.inj h).1 nofun

/-- The commit decides what becomes of the branches, and a merge without it is no success. -/
lemma commitMerge_cases (s : GitState) :
    ∃ result s', commitMerge git source target s = (result, s') ∧
      s'.repository.branches =
        (command "commit" (commitStaged (squashMessage source target)) s).2.repository.branches ∧
      ∀ merged receipt, result = .ok (merged, receipt) →
        (commitStaged (squashMessage source target) s.repository).isSome = true ∧
          (s.faults.headD .none).done = true := by
  unfold commitMerge
  cases hcommand : command "commit" (commitStaged (squashMessage source target)) s with
  | mk result s₁ =>
      by_cases hprinted : ∃ output, result = .ok (some output)
      · obtain ⟨output, rfl⟩ := hprinted
        have hdone := done_of_command_some hcommand
        have hkeeps := (checked_asks (P := Branches s₁.repository.branches) "rev-parse HEAD"
          fun r => (headCommit r).map git.sha).final (s := s₁) rfl
        rw [Program.bind_ok (checked_ok hcommand)]
        cases hsha : checked "rev-parse HEAD" (asks fun r => (headCommit r).map git.sha) s₁ with
        | mk sha s₂ =>
            rw [hsha] at hkeeps
            cases sha with
            | ok sha => exact ⟨_, s₂, Program.bind_ok hsha, hkeeps, fun _ _ _ => hdone⟩
            | error e => exact ⟨_, s₂, Program.bind_error hsha, hkeeps, fun _ _ _ => hdone⟩
      · obtain ⟨e, he⟩ := checked_error hcommand fun output h => hprinted ⟨output, h⟩
        exact ⟨_, s₁, Program.bind_error he, rfl, nofun⟩

lemma commitStaged_branches {message : String} {r r' : Repository} {output : Unit}
    (h : commitStaged message r = some (output, r')) :
    ∃ ours, r.branches r.head = some ours ∧ r.staged ≠ ours.tree ∧
      r'.branches = Function.update r.branches r.head (some (.child ours r.staged message)) := by
  unfold commitStaged headCommit at h
  obtain ⟨ours, hours, h⟩ := Option.bind_eq_some_iff.mp h
  split_ifs at h with htree
  cases h
  exact ⟨ours, hours, htree, rfl⟩

/-- A merge never raises. -/
lemma squash_cases (s : GitState) :
    ∃ merged receipt s', squashMergeWorktreeBranch git source target s =
      (.ok (merged, receipt), s') ∧ Squashed git source target s s' merged := by
  have hkeeps := (prepareMerge_keeps git source target s.repository.branches).final (s := s) rfl
  have hstaged := prepareMerge_staged git source target s.repository.branches s rfl
  unfold squashMergeWorktreeBranch
  cases hprepare : prepareMerge git source target s with
  | mk prepared s₁ =>
      rw [hprepare] at hkeeps hstaged
      have hother (h : prepared ≠ .ok (.ok true)) : ¬CommitTakesEffect git source target s := by
        rintro ⟨s', hs', -⟩
        rw [hprepare] at hs'
        exact h (Prod.mk.inj hs').1
      rcases prepared with e | e | _ | _
      · refine ⟨false, e, s₁, ?_, .stopped hkeeps (hother nofun)⟩
        have hrun : (prepareMerge git source target >>= finishMerge git source target) s =
            (.error e, s₁) := Program.bind_error hprepare
        exact Program.handle_error hrun
      · refine ⟨false, e, s₁, ?_, .stopped hkeeps (hother nofun)⟩
        have hrun : (prepareMerge git source target >>= finishMerge git source target) s =
            (.ok (false, e), s₁) := Program.bind_ok hprepare
        exact Program.handle_ok hrun
      · refine ⟨true, "NOOP_NO_CHANGES", s₁, ?_, .nothing hkeeps ?_⟩
        · have hrun : (prepareMerge git source target >>= finishMerge git source target) s =
              (.ok (true, "NOOP_NO_CHANGES"), s₁) := Program.bind_ok hprepare
          exact Program.handle_ok hrun
        · obtain ⟨hmerge, hsame⟩ := hstaged false rfl
          obtain ⟨ours, theirs, hours, htheirs, htree⟩ := hmerge.merged
          obtain ⟨ours', hours', hstage⟩ := hsame rfl
          rw [hours] at hours'
          cases hours'
          exact ⟨ours, theirs, hours, htheirs, hstage ▸ htree⟩
      · obtain ⟨hmerge, -⟩ := hstaged true rfl
        obtain ⟨result, s', hfinish, hbranches, hsuccess⟩ := commitMerge_cases git source target s₁
        have hrun : (prepareMerge git source target >>= finishMerge git source target) s =
            (result, s') := (Program.bind_ok hprepare).trans hfinish
        obtain ⟨merged, receipt, hhandled, hmerged⟩ : ∃ merged receipt,
            Program.handle (prepareMerge git source target >>= finishMerge git source target)
              (fun exc => pure (false, exc)) s = (.ok (merged, receipt), s') ∧
            (merged = true → ∃ receipt, result = .ok (merged, receipt)) := by
          cases result with
          | ok outcome => exact ⟨outcome.1, outcome.2, Program.handle_ok hrun, fun _ => ⟨_, rfl⟩⟩
          | error e => exact ⟨false, e, Program.handle_error hrun, nofun⟩
        refine ⟨merged, receipt, s', hhandled, ?_⟩
        rw [command_repository] at hbranches
        by_cases heffect :
            (commitStaged (squashMessage source target) s₁.repository).isSome = true ∧
            (s₁.faults.headD .none).done = true
        · obtain ⟨⟨output, r⟩, hcommit⟩ := Option.isSome_iff_exists.mp heffect.1
          obtain ⟨ours, hours, htree, hupdate⟩ := commitStaged_branches hcommit
          rw [hmerge.sameBranches, hmerge.onTarget] at hours hupdate
          rw [if_pos heffect.2, hcommit] at hbranches
          refine .committed merged hours (hbranches.trans hupdate) ?_
            ⟨s₁, hprepare, heffect.1, heffect.2⟩
          rintro ⟨ours', theirs', hours', htheirs', hnothing⟩
          obtain ⟨ours'', theirs'', hours'', htheirs'', hmergeTree⟩ := hmerge.merged
          cases hours.symm.trans hours'
          cases hours.symm.trans hours''
          cases htheirs'.symm.trans htheirs''
          rw [hnothing] at hmergeTree
          exact htree (Option.some.inj hmergeTree).symm
        · have hsame : s'.repository.branches = s.repository.branches := by
            refine hbranches.trans (Eq.trans ?_ hmerge.sameBranches)
            split_ifs with hdone
            · cases hcommit : commitStaged (squashMessage source target) s₁.repository with
              | none => rfl
              | some r => exact absurd ⟨by rw [hcommit]; rfl, hdone⟩ heffect
            · rfl
          have hno : ¬CommitTakesEffect git source target s := by
            rintro ⟨s₂, hs₂, hcommit, hdone⟩
            rw [hprepare] at hs₂
            cases hs₂
            exact heffect ⟨hcommit, hdone⟩
          cases merged with
          | false => exact .stopped hsame hno
          | true =>
              obtain ⟨receipt', hresult⟩ := hmerged rfl
              exact absurd (hsuccess _ _ hresult) heffect

end Merge

/-! ## The worktrees of the roles -/

/-- The target branch is at this commit, and no worktree at these paths is on it. -/
def OffTarget (target : String) (commit : Option Commit) (paths : List String) (r : Repository) :
    Prop :=
  r.branches target = commit ∧
    ∀ path ∈ paths, (r.worktrees.lookup path).map Worktree.branch ≠ some target

lemma lookup_filter_path (worktrees : List (String × Worktree)) (path other : String) :
    (worktrees.filter fun worktree => worktree.1 ≠ other).lookup path =
      if path = other then none else worktrees.lookup path := by
  induction worktrees with
  | nil => simp
  | cons worktree worktrees ih =>
      obtain ⟨key, worktree⟩ := worktree
      by_cases hkey : key = other
      · rw [List.filter_cons_of_neg (by simp [hkey]), ih, List.lookup_cons]
        split_ifs with hpath
        · rfl
        · rw [beq_eq_false_iff_ne.mpr (hkey ▸ hpath)]
      · rw [List.filter_cons_of_pos (by simpa using hkey), List.lookup_cons, ih, List.lookup_cons]
        by_cases hpath : path = key
        · subst hpath
          simp [hkey]
        · rw [beq_eq_false_iff_ne.mpr hpath]

lemma lookup_map_branch {f : String × Worktree → String × Worktree}
    (hf : ∀ worktree, (f worktree).1 = worktree.1 ∧ (f worktree).2.branch = worktree.2.branch)
    (worktrees : List (String × Worktree)) (path : String) :
    ((worktrees.map f).lookup path).map Worktree.branch =
      (worktrees.lookup path).map Worktree.branch := by
  induction worktrees with
  | nil => rfl
  | cons worktree worktrees ih =>
      obtain ⟨hkey, hbranch⟩ := hf worktree
      rw [List.map_cons, List.lookup_cons, List.lookup_cons, hkey]
      cases path == worktree.1 with
      | true => simp [hbranch]
      | false => exact ih

section Worktrees

variable {target : String} {commit : Option Commit} {paths : List String}

lemma offTarget_tail {path : String} {r : Repository}
    (hr : OffTarget target commit (path :: paths) r) : OffTarget target commit paths r :=
  ⟨hr.1, fun other hother => hr.2 other (List.mem_cons_of_mem _ hother)⟩

lemma offTarget_worktreeAdd {isNew : Bool} {branch path : String} {base : Commit}
    {r r' : Repository} {output : Unit} (hbranch : branch ≠ target)
    (h : worktreeAdd isNew branch path base r = some (output, r'))
    (hr : OffTarget target commit paths r) : OffTarget target commit (path :: paths) r' := by
  unfold worktreeAdd at h
  dsimp only at h
  split_ifs at h
  all_goals
    obtain ⟨start, -, hstart⟩ := Option.map_eq_some_iff.mp h
    cases hstart
    refine ⟨(Function.update_of_ne hbranch.symm _ _).trans hr.1, fun other hother => ?_⟩
    rw [List.lookup_cons, lookup_filter_path]
    by_cases hpath : other = path
    · subst hpath
      simpa using hbranch
    · rw [beq_eq_false_iff_ne.mpr hpath, if_neg hpath]
      exact hr.2 other ((List.mem_cons.mp hother).resolve_left hpath)

lemma offTarget_map {r : Repository} {f : String × Worktree → String × Worktree}
    (hf : ∀ worktree, (f worktree).1 = worktree.1 ∧ (f worktree).2.branch = worktree.2.branch)
    (hr : OffTarget target commit paths r) :
    OffTarget target commit paths { r with worktrees := r.worktrees.map f } := by
  refine ⟨hr.1, fun path hpath => ?_⟩
  show ((r.worktrees.map f).lookup path).map Worktree.branch ≠ some target
  rw [lookup_map_branch hf]
  exact hr.2 path hpath

lemma offTarget_inWorktree {path : String} {f : Worktree → Option (α × Worktree)}
    {r r' : Repository} {output : α} (h : inWorktree path f r = some (output, r'))
    (hr : OffTarget target commit paths r) : OffTarget target commit paths r' := by
  unfold inWorktree at h
  obtain ⟨worktree, -, h⟩ := Option.bind_eq_some_iff.mp h
  obtain ⟨⟨result, worktree'⟩, -, h⟩ := Option.bind_eq_some_iff.mp h
  cases h
  refine offTarget_map (fun other => ?_) hr
  split_ifs with hpath
  · exact ⟨hpath.symm, rfl⟩
  · exact ⟨rfl, rfl⟩

lemma offTarget_commitWorktree {path message : String} {r r' : Repository} {output : Unit}
    (hpath : path ∈ paths) (h : commitWorktree path message r = some (output, r'))
    (hr : OffTarget target commit paths r) : OffTarget target commit paths r' := by
  unfold commitWorktree at h
  obtain ⟨worktree, hworktree, h⟩ := Option.bind_eq_some_iff.mp h
  obtain ⟨start, -, h⟩ := Option.bind_eq_some_iff.mp h
  split_ifs at h
  cases h
  have hbranch : worktree.branch ≠ target := by
    have hoff := hr.2 path hpath
    rw [hworktree] at hoff
    exact fun heq => hoff (congrArg some heq)
  exact ⟨(Function.update_of_ne hbranch.symm _ _).trans hr.1, hr.2⟩

/-! ### Their operations -/

variable {git : Git} {text : TextTables} {worktreePath : String → String}

lemma resolveBase_keeps {P : GitState → Prop} (hP : ∀ s faults, P s → P { s with faults := faults })
    (baseRef : String) : Keeps P (resolveBase baseRef) := by
  refine Keeps.bind (command_asks' hP _ _) fun base => ?_
  cases base with
  | some base => exact Keeps.ret base
  | none => exact checked_asks' hP _ _

/-- The names that a role's worktree may get are not the target's. -/
def Fresh (text : TextTables) (target : String) (roles : List String) (uuids : ℕ → String) : Prop :=
  ∀ role ∈ roles, ∀ m n, roleBranch text role (uuids m) ≠ target ∧
    sessionBranch (roleBranch text role (uuids m)) (sessionName (uuids n)) ≠ target

/-- The state before the worktrees of some roles are made. -/
def Ready (target : String) (commit : Option Commit) (paths : List String) (uuids : ℕ → String)
    (s : GitState) : Prop :=
  s.uuids = uuids ∧ OffTarget target commit paths s.repository

lemma chooseBranch_ready {uuids : ℕ → String} (branchName sessionId : String) (base : Commit) :
    Triple (Ready target commit paths uuids) (chooseBranch branchName sessionId base)
      (fun chosen s => (chosen.1 = branchName ∨ chosen.1 = sessionBranch branchName sessionId) ∧
        Ready target commit paths uuids s)
      fun _ s => OffTarget target commit paths s.repository := by
  have hP (s : GitState) (faults : List Fault) (hs : Ready target commit paths uuids s) :
      Ready target commit paths uuids { s with faults := faults } := hs
  have hasks {α : Type} (name : String) (answer : Repository → Option α) :
      Triple (Ready target commit paths uuids) (command name (asks answer))
        (fun _ => Ready target commit paths uuids)
        fun _ s => OffTarget target commit paths s.repository :=
    Triple.weaken (command_asks' hP name answer) (fun _ => id) (fun _ _ => id) fun _ _ hs => hs.2
  refine Triple.bind (hasks _ _) fun listed => Triple.split (fun _ => ?_) fun _ =>
    Triple.ret fun _ hs => ⟨Or.inl rfl, hs⟩
  refine Triple.bind (hasks _ _) fun current => Triple.bind (hasks _ _) fun checkedOut => ?_
  exact Triple.split (fun _ => Triple.ret fun _ hs => ⟨Or.inl rfl, hs⟩)
    fun _ => Triple.ret fun _ hs => ⟨Or.inr rfl, hs⟩

lemma createWorktree_ready {uuids : ℕ → String} {branchName : String} (baseRef : String)
    (hname : branchName ≠ target)
    (hsession : sessionBranch branchName (sessionName (uuids 0)) ≠ target) :
    Triple (Ready target commit paths uuids) (createWorktree git worktreePath branchName baseRef)
      (fun session => Ready target commit (session.worktreePath :: paths) fun n => uuids (n + 1))
      fun _ s => OffTarget target commit paths s.repository := by
  have hoff (x : GitState) (hx : Ready target commit paths uuids x) :
      OffTarget target commit paths x.repository := hx.2
  have hfaults {uuids : ℕ → String} (s : GitState) (faults : List Fault)
      (hs : Ready target commit paths uuids s) :
      Ready target commit paths uuids { s with faults := faults } := hs
  refine Triple.bind (Triple.weaken (checked_asks' hfaults _ _) (fun _ => id) (fun _ _ => id)
    fun _ s hs => hs.2) fun _ => ?_
  refine Triple.bind (R := fun random s => random = uuids 0 ∧
    Ready target commit paths (fun n => uuids (n + 1)) s) (fun s hs => ?_) fun random => ?_
  · obtain ⟨rfl, hs⟩ := hs
    exact ⟨rfl, rfl, hs⟩
  refine Triple.assume fun hrandom => ?_
  refine Triple.bind (Triple.weaken (resolveBase_keeps hfaults baseRef) (fun _ => id)
    (fun _ _ => id) fun _ s hs => hs.2) fun base => ?_
  refine Triple.bind (chooseBranch_ready branchName (sessionName random) base) fun chosen => ?_
  refine Triple.assume fun hchosen => ?_
  have hbranch : chosen.1 ≠ target := by
    rcases hchosen with h | h
    · exact h ▸ hname
    · rw [h, hrandom]
      exact hsession
  refine Triple.bind (R := fun _ => Ready target commit
    (worktreePath (sessionName random) :: paths) fun n => uuids (n + 1)) ?_
    fun _ => Triple.ret fun _ => id
  have hkeeps : Keeps (Ready target commit paths fun n => uuids (n + 1))
      (checked "worktree add" (worktreeAdd chosen.2 chosen.1
        (worktreePath (sessionName random)) base)) :=
    checked_state _ hfaults fun s output r h hs =>
      ⟨hs.1, offTarget_tail (offTarget_worktreeAdd hbranch h hs.2)⟩
  refine Triple.weaken (Triple.both hkeeps (checked_effect (P := OffTarget target commit paths)
    "worktree add" _)) (fun s hs => ⟨hs, hs.2⟩) (fun _ s hs => ?_) fun _ s hs => hs.1.2
  obtain ⟨hready, r, hr, h⟩ := hs
  exact ⟨hready.1, offTarget_worktreeAdd hbranch h hr⟩

/-- The paths of the sessions of the roles. -/
def sessionPaths (sessions : List (String × WorktreeSessionConfig)) : List String :=
  sessions.map fun session => session.2.worktreePath

lemma createMultiAgentWorktrees_offTarget {uuids : ℕ → String} {roles : List String}
    (hfresh : Fresh text target roles uuids) (baseRef : String) :
    Triple (Ready target commit paths uuids)
      (createMultiAgentWorktrees git text worktreePath roles baseRef)
      (fun sessions s =>
        OffTarget target commit (sessionPaths sessions ++ paths) s.repository)
      fun _ s => s.repository.branches target = commit := by
  induction roles generalizing uuids paths with
  | nil => exact Triple.ret fun _ hs => hs.2
  | cons role roles ih =>
      obtain ⟨hname, -⟩ := hfresh role List.mem_cons_self 0 0
      obtain ⟨-, hsession⟩ := hfresh role List.mem_cons_self 0 1
      refine Triple.bind (R := fun made => Ready target commit (made.2.worktreePath :: paths)
        fun n => uuids (n + 2)) ?_ fun made => ?_
      · refine Triple.bind (R := fun random s => random = uuids 0 ∧
          Ready target commit paths (fun n => uuids (n + 1)) s) (fun s hs => ?_) fun random => ?_
        · obtain ⟨rfl, hs⟩ := hs
          exact ⟨rfl, rfl, hs⟩
        · refine Triple.assume fun hrandom => ?_
          subst hrandom
          refine Triple.bind (Triple.weaken
            (createWorktree_ready baseRef hname hsession)
            (fun _ => id) (fun _ _ => id) fun _ s hs => hs.1) fun session => ?_
          exact Triple.ret fun _ => id
      · have hrest : Fresh text target roles fun n => uuids (n + 2) :=
          fun other hother m n => hfresh other (List.mem_cons_of_mem _ hother) (m + 2) (n + 2)
        refine Triple.bind (ih hrest) fun sessions => Triple.ret fun s hs => ?_
        refine ⟨hs.1, fun path hpath => hs.2 path ?_⟩
        simp only [sessionPaths, List.map_cons, List.cons_append, List.mem_cons,
          List.mem_append] at hpath ⊢
        tauto

lemma inFiles_offTarget (session : WorktreeSessionConfig) (x : Program Tree String HealResult) :
    Keeps (fun s => OffTarget target commit paths s.repository) (inFiles session x) := by
  intro s hs
  unfold inFiles
  split
  · exact hs
  · rename_i worktree hworktree
    generalize x worktree.files = outcome
    obtain ⟨result, files⟩ := outcome
    have hmapped := offTarget_map (f := fun other : String × Worktree =>
      if other.1 = session.worktreePath then (other.1, { other.2 with files := files })
      else other) (fun other => by split_ifs <;> exact ⟨rfl, rfl⟩) hs
    cases result with
    | ok healed => exact hmapped
    | error e => exact hmapped

lemma commitChanges_offTarget {session : WorktreeSessionConfig} (message : String)
    (hsession : session.worktreePath ∈ paths) :
    Keeps (fun s => OffTarget target commit paths s.repository)
      (commitChanges git session message) := by
  refine Keeps.bind (checked_keeps _ fun _ _ _ h hr => offTarget_inWorktree h hr) fun _ => ?_
  refine Keeps.bind (command_asks _ _) fun same => ?_
  refine Keeps.bind ?_ fun _ => checked_asks _ _
  exact Keeps.split
    (checked_keeps _ fun _ _ _ h hr => offTarget_commitWorktree hsession h hr) (Keeps.ret ())

lemma getDiff_offTarget (session : WorktreeSessionConfig) :
    Keeps (fun s => OffTarget target commit paths s.repository) (getDiff git session) :=
  Keeps.bind (command_asks _ _) fun _ => Keeps.bind (command_asks _ _) fun _ => Keeps.ret _

lemma cleanupWorktree_branches (branches : String → Option Commit)
    (session : WorktreeSessionConfig) :
    Keeps (fun s => s.repository.branches = branches) (cleanupWorktree session) := by
  refine Keeps.bind (command_keeps (P := fun r => r.branches = branches) _
    fun _ _ _ h hr => ?_) fun _ => ?_
  · cases h
    exact hr
  · refine Keeps.bind (command_asks (P := fun r => r.branches = branches) _ _) fun _ => ?_
    exact Keeps.bind (Keeps.update fun _ hs => hs) fun _ => Keeps.ret true

end Worktrees

end AgentSystem.GitWorktree
