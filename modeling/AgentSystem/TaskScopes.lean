import AgentSystem.PySequence
import AgentSystem.TaskEnvironment

/-!
# Tasks that run in parallel

The tasks of a graph, the check that the mutable scopes of some of them do not overlap, and the
environments that are synthesised for them.
-/
namespace AgentSystem.Executor

open Json Audit Pipeline PolicyGate

/-! ## Pairs of a list -/

section Pairs

variable {α β : Type} {f : α → α → Option β}

/-- The first result for an element and one after it. -/
def findPair (f : α → α → Option β) : List α → Option β
  | [] => none
  | a :: as => (as.findSome? (f a)).or (findPair f as)

lemma findPair_eq_none {as : List α} :
    findPair f as = none ↔ as.Pairwise fun a b => f a b = none := by
  induction as with
  | nil => simp [findPair]
  | cons a as ih => rw [findPair, Option.or_eq_none_iff, List.findSome?_eq_none_iff, ih,
      List.pairwise_cons]

end Pairs

/-! ## The task graph -/

/-- The tools and the turns that a task is given. -/
structure AgentCapabilityRequirement where
  requiredTools : List String := minimalGovernedTools
  maxTurns : ℕ := 3
  maxTurns_pos : 1 ≤ maxTurns := by decide
  maxTurns_le : maxTurns ≤ 5 := by decide

lemma defaultTurns_pos : 1 ≤ 3 := by decide

structure TaskNode where
  taskId : String
  assignedRole : String
  mutableScope : List String := []
  dependencies : List String := []
  capabilityRequirement : Option AgentCapabilityRequirement := none

structure TaskGraph where
  graphId : String
  tasks : List (String × TaskNode) := []

/-- The entries of a mutable scope as they are compared. -/
def TaskNode.cleanScope (task : TaskNode) : List PyStr :=
  task.mutableScope.map fun scope => cleanPath (toPyStr scope)

/-- The entry as a directory. -/
def withSlash (path : PyStr) : PyStr := if endsWith path [slash] then path else path ++ [slash]

/-- Why an entry of one task collides with an entry of another. -/
def pathCollision (taskA taskB : String) (pathA pathB : PyStr) : Option PyStr :=
  if pathA = pathB then
    some (toPyStr s!"Parallel scope collision: Task '{taskA}' and Task '{taskB}' both target " ++
      toPyStr "exact path '" ++ pathA ++ toPyStr "'")
  else if startsWith pathB (withSlash pathA) || startsWith pathA (withSlash pathB) then
    some (toPyStr s!"Parallel scope collision: Task '{taskA}' ('" ++ pathA ++
      toPyStr s!"') and Task '{taskB}' ('" ++ pathB ++
      toPyStr "') have overlapping directory boundaries")
  else none

def scopeCollision (a b : String × List PyStr) : Option PyStr :=
  a.2.findSome? fun pathA => b.2.findSome? fun pathB => pathCollision a.1 b.1 pathA pathB

namespace TaskGraph

variable (graph : TaskGraph)

/-- `get_task`, with the text of the `KeyError`. -/
def getTask (taskId : String) : Except String TaskNode :=
  match PySequence.getItem graph.tasks taskId with
  | some task => .ok task
  | none => .error s!"Task '{taskId}' not found in TaskGraph '{graph.graphId}'."

/-- The loop that fills `scopes_by_task`. -/
def scopesByTask : List (String × List PyStr) → List String →
    Except String (List (String × List PyStr))
  | scopes, [] => .ok scopes
  | scopes, taskId :: taskIds => do
      let task ← graph.getTask taskId
      scopesByTask (PySequence.setItem scopes taskId task.cleanScope) taskIds

/-- `validate_no_overlapping_scopes`: the collision, `none` when there is none. -/
def validateNoOverlappingScopes (taskIds : List String) : Except String (Option PyStr) := do
  let evaluated ← graph.scopesByTask [] taskIds
  pure (findPair scopeCollision evaluated)

end TaskGraph

/-! ## The synthesizer -/

variable {D : Type}

/-- What `synthesize` is given for a task: the protected paths of the repository profile, the
worktree session and the time limit of the sandbox policy. -/
structure SynthesisArgs (D : Type) where
  protectedPaths : List String := []
  worktreeSession : Option WorktreeSessionConfig := none
  maxExecutionSeconds : Option (PyValue D) := none

/-- The `ScopeBoundaryError` of a task, if its scope leaves its role. -/
def boundaryError (D : Type) [Coercion D] (task : TaskNode) : Option PyStr :=
  let role := task.assignedRole
  if (roleRule role).readOnly && task.mutableScope ≠ [] then
    some (toPyStr s!"Role '{role}' is strictly read-only and cannot have mutable_scope: " ++
      listText D task.mutableScope)
  else
    task.mutableScope.findSome? fun path =>
      (forbiddenPrefix role (cleanPath (toPyStr path))).map fun forbidden =>
        toPyStr (s!"Role '{role}' is forbidden from modifying '{path}' " ++
          s!"(violates boundary prefix '{forbidden}')")

/-- `synthesize`. -/
def synthesize [Coercion D] (task : TaskNode) (args : SynthesisArgs D) :
    Except PyStr (TaskEnvironment D) :=
  match boundaryError D task with
  | some error => .error error
  | none =>
      let mountedTools :=
        if (roleRule task.assignedRole).readOnly then minimalGovernedTools.erase "filesystem.write"
        else minimalGovernedTools
      let capReq := task.capabilityRequirement.getD
        { requiredTools := mountedTools, maxTurns_pos := defaultTurns_pos }
      .ok
        { agentRole := task.assignedRole
          mutableScope := task.mutableScope
          protectedScope := ((defaultProtectedPatterns ++ args.protectedPaths).dedup).insertionSort
            (· ≤ ·)
          availableGovernedTools := capReq.requiredTools
          maxExecutionSeconds := args.maxExecutionSeconds.getD (.int 60)
          executionEnvironment := args.worktreeSession
          stopCondition := [("max_turns", .int capReq.maxTurns), ("loop_limit", .int 3),
            ("hitl_gate_required", .bool true)] }

namespace TaskEnvironment

variable (env : TaskEnvironment D)

/-- A protected pattern matches the path. -/
def Protects (path : PyStr) : Prop :=
  ∃ pattern ∈ env.protectedScope, protectedReason path pattern ≠ none

/-- The mutable scope does not exclude the path. An empty one excludes none. -/
def InScope (path : PyStr) : Prop :=
  env.mutableScope = [] ∨ ∃ allowed ∈ env.mutableScope, allows path allowed = true

lemma isPathMutable_eq_none [Coercion D] {path : PyStr} :
    env.isPathMutable path = none ↔ ¬env.Protects path ∧ env.InScope path := by
  unfold isPathMutable Protects InScope
  cases hreason : env.protectedScope.findSome? (protectedReason path) with
  | some reason =>
      obtain ⟨pattern, hpattern, hmatch⟩ := List.exists_of_findSome?_eq_some hreason
      refine iff_of_false nofun fun h => h.1 ⟨pattern, hpattern, ?_⟩
      rw [hmatch]
      exact nofun
  | none =>
      have hnone := List.findSome?_eq_none_iff.mp hreason
      have hopen : ¬∃ pattern ∈ env.protectedScope, protectedReason path pattern ≠ none :=
        fun ⟨pattern, hpattern, hmatch⟩ => hmatch (hnone pattern hpattern)
      simp only [hopen, not_false_eq_true, true_and]
      split_ifs with hscope
      · refine iff_of_false nofun fun h => ?_
        rcases h with hempty | ⟨allowed, hallowed, hcovers⟩
        · exact hscope.1 hempty
        · exact absurd hcovers (by simpa using List.any_eq_false.mp hscope.2 allowed hallowed)
      · refine iff_of_true rfl ?_
        by_cases hempty : env.mutableScope = []
        · exact .inl hempty
        · refine .inr (List.any_eq_true.mp ?_)
          exact Bool.eq_true_of_not_eq_false fun hfalse => hscope ⟨hempty, hfalse⟩

end TaskEnvironment

lemma mutableScope_synthesize [Coercion D] {task : TaskNode} {args : SynthesisArgs D}
    {env : TaskEnvironment D} (h : synthesize task args = .ok env) :
    env.mutableScope = task.mutableScope := by
  unfold synthesize at h
  split at h
  · cases h
  · cases h
    rfl

/-! ## What the check excludes -/

/-- The comparisons of the check find a pair of entries. -/
def Overlaps (pathA pathB : PyStr) : Prop :=
  pathA = pathB ∨ startsWith pathB (withSlash pathA) = true ∨
    startsWith pathA (withSlash pathB) = true

lemma Overlaps.symm {pathA pathB : PyStr} (h : Overlaps pathA pathB) : Overlaps pathB pathA := by
  rcases h with rfl | h | h
  · exact .inl rfl
  · exact .inr (.inr h)
  · exact .inr (.inl h)

lemma pathCollision_eq_none {taskA taskB : String} {pathA pathB : PyStr} :
    pathCollision taskA taskB pathA pathB = none ↔ ¬Overlaps pathA pathB := by
  unfold pathCollision Overlaps
  split_ifs with hsame hprefix
  · simp [hsame]
  · refine iff_of_false nofun fun h => h (.inr ?_)
    simpa using hprefix
  · refine iff_of_true rfl fun h => ?_
    rcases h with h | h | h
    · exact hsame h
    · exact hprefix (by simp [h])
    · exact hprefix (by simp [h])

/-- No entries of two tasks overlap. -/
def Apart (a b : String × List PyStr) : Prop :=
  ∀ pathA ∈ a.2, ∀ pathB ∈ b.2, ¬Overlaps pathA pathB

instance : Std.Symm Apart where
  symm _ _ h pathB hpathB pathA hpathA hover := h pathA hpathA pathB hpathB hover.symm

lemma scopeCollision_eq_none {a b : String × List PyStr} :
    scopeCollision a b = none ↔ Apart a b := by
  simp only [Apart, scopeCollision, List.findSome?_eq_none_iff, pathCollision_eq_none]

/-- The environment lets the cleaned entry cover the cleaned path. -/
def covers (entry path : PyStr) : Bool :=
  if endsWith entry [slash] then startsWith path entry else path = entry

lemma allows_eq_covers (path : PyStr) (allowed : String) :
    allows path allowed = covers (cleanPath (toPyStr allowed)) (cleanPath path) := rfl

/-- Entries that cover one path overlap. -/
lemma overlaps_of_covers {entryA entryB path : PyStr} (ha : covers entryA path = true)
    (hb : covers entryB path = true) : Overlaps entryA entryB := by
  unfold covers at ha hb
  unfold Overlaps withSlash
  split_ifs at ha hb ⊢ with hdirA hdirB hdirB
  · -- of two directories with a common path one contains the other
    have hA := List.isPrefixOf_iff_prefix.mp ha
    have hB := List.isPrefixOf_iff_prefix.mp hb
    rcases List.prefix_or_prefix_of_prefix hA hB with h | h
    · exact .inr (.inl (List.isPrefixOf_iff_prefix.mpr h))
    · exact .inr (.inr (List.isPrefixOf_iff_prefix.mpr h))
  · obtain rfl : path = entryB := by simpa using hb
    exact .inr (.inl ha)
  · obtain rfl : path = entryA := by simpa using ha
    exact .inr (.inr hb)
  · have hA : path = entryA := by simpa using ha
    have hB : path = entryB := by simpa using hb
    exact .inl (hA.symm.trans hB)

namespace TaskGraph

variable (graph : TaskGraph)

/-- The items are tasks of the graph with their scopes. -/
def ScopesOfTasks (scopes : List (String × List PyStr)) : Prop :=
  ∀ item ∈ scopes, ∃ task, graph.getTask item.1 = .ok task ∧ item.2 = task.cleanScope

/-- The loop adds an item for each of the tasks. -/
lemma scopesByTask_ok {scopes evaluated : List (String × List PyStr)} {taskIds : List String}
    (h : graph.scopesByTask scopes taskIds = .ok evaluated) (hscopes : graph.ScopesOfTasks scopes) :
    graph.ScopesOfTasks evaluated ∧
      ∀ taskId, taskId ∈ taskIds ∨ taskId ∈ scopes.map Prod.fst →
        taskId ∈ evaluated.map Prod.fst := by
  induction taskIds generalizing scopes with
  | nil =>
      cases h
      exact ⟨hscopes, fun taskId h => h.resolve_left List.not_mem_nil⟩
  | cons first taskIds ih =>
      cases htask : graph.getTask first with
      | error e => simp [scopesByTask, htask, bind, Except.bind] at h
      | ok task =>
          simp only [scopesByTask, htask, bind, Except.bind] at h
          have hset : graph.ScopesOfTasks (PySequence.setItem scopes first task.cleanScope) := by
            intro item hitem
            rcases PySequence.mem_of_mem_setItem hitem with rfl | hitem
            · exact ⟨task, htask, rfl⟩
            · exact hscopes item hitem
          obtain ⟨hevaluated, hkeys⟩ := ih h hset
          refine ⟨hevaluated, fun taskId hmem => hkeys taskId ?_⟩
          rw [PySequence.mem_keys_setItem]
          rcases hmem with hmem | hmem
          · rcases List.mem_cons.mp hmem with rfl | hmem
            · exact .inr (.inl rfl)
            · exact .inl hmem
          · exact .inr (.inr hmem)

/-- The entries of two tasks that pass the check do not overlap. -/
lemma not_overlaps_of_valid {taskIds : List String}
    (h : graph.validateNoOverlappingScopes taskIds = .ok none) {a b : String} (ha : a ∈ taskIds)
    (hb : b ∈ taskIds) (hne : a ≠ b) {taskA taskB : TaskNode} (hA : graph.getTask a = .ok taskA)
    (hB : graph.getTask b = .ok taskB) :
    ∀ entryA ∈ taskA.cleanScope, ∀ entryB ∈ taskB.cleanScope, ¬Overlaps entryA entryB := by
  cases hevaluated : graph.scopesByTask [] taskIds with
  | error e => simp [validateNoOverlappingScopes, hevaluated, bind, Except.bind] at h
  | ok evaluated =>
      have hnone : findPair scopeCollision evaluated = none := by
        simpa [validateNoOverlappingScopes, hevaluated, bind, Except.bind, pure, Except.pure]
          using h
      obtain ⟨hscopes, hkeys⟩ := graph.scopesByTask_ok hevaluated fun _ h => by cases h
      have hitem {id : String} {task : TaskNode} (hid : id ∈ taskIds)
          (htask : graph.getTask id = .ok task) : (id, task.cleanScope) ∈ evaluated := by
        obtain ⟨item, hitem, rfl⟩ := List.mem_map.mp (hkeys id (.inl hid))
        obtain ⟨task', htask', hscope⟩ := hscopes item hitem
        obtain rfl : task' = task := Except.ok.inj (htask'.symm.trans htask)
        rw [← hscope]
        exact hitem
      have hpairs : evaluated.Pairwise Apart :=
        (findPair_eq_none.mp hnone).imp scopeCollision_eq_none.mp
      exact hpairs.forall (hitem ha hA) (hitem hb hB) fun heq => hne (congrArg Prod.fst heq)

/-! ## The environments of parallel tasks -/

variable [Coercion D] (args : String → SynthesisArgs D)

/-- The environment that is synthesised for a task. -/
def Synthesizes (taskId : String) (env : TaskEnvironment D) : Prop :=
  ∃ task, graph.getTask taskId = .ok task ∧ synthesize task (args taskId) = .ok env

/-- No path is mutable in the environments of two different tasks. -/
def ScopesDisjoint (taskIds : List String) : Prop :=
  ∀ a ∈ taskIds, ∀ b ∈ taskIds, a ≠ b → ∀ envA envB : TaskEnvironment D,
    graph.Synthesizes args a envA → graph.Synthesizes args b envB →
      ∀ path, ¬(envA.isPathMutable path = none ∧ envB.isPathMutable path = none)

/-- What another task may change is protected beside a task with an empty scope. -/
def EmptyScopesSealed (taskIds : List String) : Prop :=
  ∀ a ∈ taskIds, ∀ b ∈ taskIds, a ≠ b → ∀ envA envB : TaskEnvironment D,
    graph.Synthesizes args a envA → graph.Synthesizes args b envB → envA.mutableScope = [] →
      ∀ path, envB.InScope path → envA.Protects path ∨ envB.Protects path

/-- Tasks that pass the check have disjoint environments just if those with empty scopes stand
beside nothing that can be changed. -/
theorem scopesDisjoint_iff {taskIds : List String}
    (h : graph.validateNoOverlappingScopes taskIds = .ok none) :
    graph.ScopesDisjoint args taskIds ↔ graph.EmptyScopesSealed args taskIds := by
  constructor
  · intro hdisjoint a ha b hb hne envA envB hA hB hempty path hscope
    by_contra hopen
    rw [not_or] at hopen
    refine hdisjoint a ha b hb hne envA envB hA hB path ⟨?_, ?_⟩
    · exact envA.isPathMutable_eq_none.mpr ⟨hopen.1, .inl hempty⟩
    · exact envB.isPathMutable_eq_none.mpr ⟨hopen.2, hscope⟩
  · rintro hsealed a ha b hb hne envA envB hA hB path ⟨hmutableA, hmutableB⟩
    obtain ⟨hopenA, hscopeA⟩ := envA.isPathMutable_eq_none.mp hmutableA
    obtain ⟨hopenB, hscopeB⟩ := envB.isPathMutable_eq_none.mp hmutableB
    rcases hscopeA with hemptyA | ⟨allowedA, hallowedA, hcoversA⟩
    · exact (hsealed a ha b hb hne envA envB hA hB hemptyA path hscopeB).elim hopenA hopenB
    rcases hscopeB with hemptyB | ⟨allowedB, hallowedB, hcoversB⟩
    · exact (hsealed b hb a ha hne.symm envB envA hB hA hemptyB path
        (.inr ⟨allowedA, hallowedA, hcoversA⟩)).elim hopenB hopenA
    obtain ⟨taskA, htaskA, henvA⟩ := hA
    obtain ⟨taskB, htaskB, henvB⟩ := hB
    rw [mutableScope_synthesize henvA] at hallowedA
    rw [mutableScope_synthesize henvB] at hallowedB
    rw [allows_eq_covers] at hcoversA hcoversB
    exact graph.not_overlaps_of_valid h ha hb hne htaskA htaskB _
      (List.mem_map_of_mem hallowedA) _ (List.mem_map_of_mem hallowedB)
      (overlaps_of_covers hcoversA hcoversB)

end TaskGraph

/-! ## A task without a scope -/

/-- A task that names no files beside one for a file of the backend. -/
def reviewGraph : TaskGraph where
  graphId := "mission"
  tasks := [
    ("t_review", { taskId := "t_review", assignedRole := "BACKEND_INFRA_AGENT" }),
    ("t_core",
      { taskId := "t_core"
        assignedRole := "BACKEND_INFRA_AGENT"
        mutableScope := ["core/app.py"] }),
    ("t_docs",
      { taskId := "t_docs"
        assignedRole := "BACKEND_INFRA_AGENT"
        mutableScope := ["docs/"] })]

theorem scoped_tasks_disjoint :
    reviewGraph.ScopesDisjoint (D := Empty) (fun _ => {}) ["t_core", "t_docs"] ↔
      reviewGraph.EmptyScopesSealed (D := Empty) (fun _ => {}) ["t_core", "t_docs"] :=
  reviewGraph.scopesDisjoint_iff (fun _ => {}) (by decide +kernel)

/-- The check passes, and one file can be changed in both environments. -/
theorem unscoped_task_collides :
    reviewGraph.validateNoOverlappingScopes ["t_review", "t_core"] = .ok none ∧
      ¬reviewGraph.ScopesDisjoint (D := Empty) (fun _ => {}) ["t_review", "t_core"] := by
  refine ⟨by decide +kernel, fun hdisjoint => ?_⟩
  have hreview : ∃ env : TaskEnvironment Empty,
      reviewGraph.Synthesizes (fun _ => {}) "t_review" env ∧
        env.isPathMutable (toPyStr "core/app.py") = none :=
    ⟨_, ⟨_, rfl, rfl⟩, by decide +kernel⟩
  have hcore : ∃ env : TaskEnvironment Empty,
      reviewGraph.Synthesizes (fun _ => {}) "t_core" env ∧
        env.isPathMutable (toPyStr "core/app.py") = none :=
    ⟨_, ⟨_, rfl, rfl⟩, by decide +kernel⟩
  obtain ⟨envA, hA, hmutableA⟩ := hreview
  obtain ⟨envB, hB, hmutableB⟩ := hcore
  exact hdisjoint "t_review" (by decide) "t_core" (by decide) (by decide) envA envB hA hB _
    ⟨hmutableA, hmutableB⟩

end AgentSystem.Executor
