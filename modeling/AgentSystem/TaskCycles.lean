import AgentSystem.DepthFirst
import AgentSystem.TaskScopes

/-!
# Cycles of a task graph

Tasks are added to a graph one by one, and every time the whole graph is searched for a cycle of
dependencies.
-/
namespace AgentSystem.Executor

open DepthFirst

structure CyclicDependencyError where
  message : String
  cycle : List String
  deriving DecidableEq

/-- How a search ends early: at the bound that is set to its depth, or with a cycle. -/
inductive DfsError
  | recursion
  | cyclic (error : CyclicDependencyError)
  deriving DecidableEq

/-- What `detect_cycles` keeps: `visited` with 0 for unvisited, 1 for visiting and 2 for visited
tasks, and `path`. -/
structure DfsState where
  visited : String → ℕ := fun _ => 0
  path : List String := []

def DfsState.enter (state : DfsState) (nodeId : String) : DfsState where
  visited := Function.update state.visited nodeId 1
  path := state.path ++ [nodeId]

def DfsState.leave (state : DfsState) (nodeId : String) : DfsState where
  visited := Function.update state.visited nodeId 2
  path := state.path.dropLast

lemma DfsState.visited_enter {state : DfsState} {nodeId other : String} (h : other ≠ nodeId) :
    (state.enter nodeId).visited other = state.visited other := Function.update_of_ne h _ _

lemma DfsState.visited_leave {state : DfsState} {nodeId other : String} (h : other ≠ nodeId) :
    (state.leave nodeId).visited other = state.visited other := Function.update_of_ne h _ _

/-- The error for a dependency that is being visited. -/
def cyclicDependency (path : List String) (depId : String) : CyclicDependencyError :=
  let cycle := path.drop (path.idxOf depId) ++ [depId]
  ⟨"Cyclic dependency detected: " ++ " -> ".intercalate cycle, cycle⟩

namespace TaskGraph

variable (graph : TaskGraph)

/-- `task_id in self.tasks`. -/
def contains (taskId : String) : Bool := decide (taskId ∈ graph.tasks.map Prod.fst)

/-- The dependencies of the task with this id. -/
def dependenciesOf (taskId : String) : List String :=
  match PySequence.getItem graph.tasks taskId with
  | some task => task.dependencies
  | none => []

/-- The nested `dfs`. The first argument bounds the depth of the recursion. -/
def dfs : ℕ → DfsState → String → Except DfsError DfsState
  | 0, _, _ => .error .recursion
  | depth + 1, state, nodeId =>
    ((graph.dependenciesOf nodeId).foldlM
      (fun state depId =>
        if graph.contains depId = false then .ok state
        else if state.visited depId = 1 then .error (.cyclic (cyclicDependency state.path depId))
        else if state.visited depId = 0 then dfs depth state depId
        else .ok state)
      (state.enter nodeId)).map fun state => state.leave nodeId

/-- `detect_cycles` with a bound on the depth of the search. -/
def detectCyclesTo (depth : ℕ) : Except DfsError Unit :=
  ((graph.tasks.map Prod.fst).foldlM
    (fun state taskId =>
      if state.visited taskId = 0 then graph.dfs depth state taskId else .ok state)
    ({} : DfsState)).map fun _ => ()

/-- `detect_cycles`. Every level of the recursion visits one more task. -/
def detectCycles : Except DfsError Unit := graph.detectCyclesTo (graph.tasks.length + 1)

end TaskGraph

inductive AddTaskError
  | valueError (message : String)
  | search (error : DfsError)
  deriving DecidableEq

/-- `self.tasks[task.task_id] = task`. -/
def TaskGraph.withTask (graph : TaskGraph) (task : TaskNode) : TaskGraph :=
  { graph with tasks := PySequence.setItem graph.tasks task.taskId task }

/-- `add_task`: the graph afterwards, and the exception. -/
def TaskGraph.addTask (graph : TaskGraph) (task : TaskNode) :
    TaskGraph × Except AddTaskError Unit :=
  if graph.contains task.taskId then
    (graph, .error (.valueError
      s!"Task with ID '{task.taskId}' already exists in TaskGraph '{graph.graphId}'."))
  else
    let graph := graph.withTask task
    (graph, graph.detectCycles.mapError .search)

/-! ## The search of the graph -/

namespace TaskGraph

variable (graph : TaskGraph)

/-- A task of the graph depends on another task of the graph. -/
def DependsOn (taskId depId : String) : Prop :=
  graph.contains depId = true ∧ depId ∈ graph.dependenciesOf taskId

/-- The dependencies of a task in the graph. -/
def knownDependencies (taskId : String) : List String :=
  (graph.dependenciesOf taskId).filter fun depId => graph.contains depId

variable {graph}

lemma edge_knownDependencies (taskId depId : String) :
    Edge graph.knownDependencies taskId depId ↔ graph.DependsOn taskId depId := by
  rw [Edge, knownDependencies, List.mem_filter, DependsOn, and_comm]

lemma knownDependencies_within (graph : TaskGraph) :
    Within graph.knownDependencies (graph.tasks.map Prod.fst) := by
  intro taskId hunknown
  rw [knownDependencies, dependenciesOf, PySequence.getItem_eq_none hunknown]
  rfl

/-- The state of the code and of the library: the same path, and the same vertices done. -/
structure Tracks (state : DfsState) (path done : List String) : Prop where
  path_eq : state.path = path.reverse
  visiting : ∀ taskId, state.visited taskId = 1 ↔ taskId ∈ path
  unvisited : ∀ taskId, state.visited taskId = 0 ↔ taskId ∉ path ∧ taskId ∉ done

lemma tracks_start : Tracks {} [] [] :=
  ⟨rfl, fun _ => ⟨nofun, nofun⟩, fun _ => ⟨fun _ => ⟨nofun, nofun⟩, fun _ => rfl⟩⟩

lemma Tracks.enter {state : DfsState} {path done : List String} (h : Tracks state path done)
    {taskId : String} : Tracks (state.enter taskId) (taskId :: path) done where
  path_eq := by rw [DfsState.enter, h.path_eq, List.reverse_cons]
  visiting other := by
    by_cases heq : other = taskId
    · subst heq
      simp [DfsState.enter]
    · rw [DfsState.visited_enter heq, h.visiting, List.mem_cons, or_iff_right heq]
  unvisited other := by
    by_cases heq : other = taskId
    · subst heq
      simp [DfsState.enter]
    · rw [DfsState.visited_enter heq, h.unvisited, List.mem_cons, or_iff_right heq]

lemma Tracks.leave {state : DfsState} {path done : List String} {taskId : String}
    (h : Tracks state (taskId :: path) done) (hfresh : taskId ∉ path) :
    Tracks (state.leave taskId) path (taskId :: done) where
  path_eq := by rw [DfsState.leave, h.path_eq, List.reverse_cons, List.dropLast_concat]
  visiting other := by
    by_cases heq : other = taskId
    · subst heq
      simp [DfsState.leave, hfresh]
    · rw [DfsState.visited_leave heq, h.visiting, List.mem_cons, or_iff_right heq]
  unvisited other := by
    by_cases heq : other = taskId
    · subst heq
      simp [DfsState.leave]
    · rw [DfsState.visited_leave heq, h.unvisited, List.mem_cons, List.mem_cons,
        or_iff_right heq, or_iff_right heq]

/-- What the code does where the search of the library has this result. -/
def Matches (result : Except DfsError DfsState) :
    Except (Failure String) (List String × List String) → Prop
  | .ok (path, done) => ∃ state, result = .ok state ∧ Tracks state path done
  | .error (.cycle (depId :: path)) => result = .error (.cyclic (cyclicDependency path.reverse depId))
  | .error _ => True

/-- The body of the loop over the dependencies. -/
def visitDependency (graph : TaskGraph) (depth : ℕ) (state : DfsState) (depId : String) :
    Except DfsError DfsState :=
  if graph.contains depId = false then .ok state
  else if state.visited depId = 1 then .error (.cyclic (cyclicDependency state.path depId))
  else if state.visited depId = 0 then graph.dfs depth state depId
  else .ok state

lemma dfs_succ (graph : TaskGraph) (depth : ℕ) (state : DfsState) (nodeId : String) :
    graph.dfs (depth + 1) state nodeId =
      ((graph.dependenciesOf nodeId).foldlM (graph.visitDependency depth)
        (state.enter nodeId)).map fun state => state.leave nodeId := rfl

lemma visitDependency_matches {depth : ℕ} {state : DfsState} {path done : List String}
    {depId : String} (hknown : graph.contains depId = true) (htracks : Tracks state path done)
    (hdfs : depId ∉ path → depId ∉ done → Matches (graph.dfs depth state depId)
      (search graph.knownDependencies depth (path, done) depId)) :
    Matches (graph.visitDependency depth state depId)
      (search graph.knownDependencies depth (path, done) depId) := by
  rw [visitDependency, if_neg (by simp [hknown])]
  split_ifs with hvisiting hunvisited
  · cases depth with
    | zero => trivial
    | succ depth =>
        rw [search, if_pos ((htracks.visiting depId).mp hvisiting), htracks.path_eq]
        rfl
  · obtain ⟨hpath, hdone⟩ := (htracks.unvisited depId).mp hunvisited
    exact hdfs hpath hdone
  · cases depth with
    | zero => trivial
    | succ depth =>
        have hpath : depId ∉ path := fun h => hvisiting ((htracks.visiting depId).mpr h)
        have hdone : depId ∈ done := by
          by_contra h
          exact hunvisited ((htracks.unvisited depId).mpr ⟨hpath, h⟩)
        rw [search, if_neg hpath, if_pos hdone]
        exact ⟨state, rfl, htracks⟩

/-- A loop of visits, from what one visit does. -/
lemma foldlM_matches {depth : ℕ} {body : DfsState → String → Except DfsError DfsState}
    {path vertices : List String} {state : DfsState} {done : List String}
    (hbody : ∀ v ∈ vertices, ∀ state done, Tracks state path done → Matches (body state v)
      (search graph.knownDependencies depth (path, done) v))
    (htracks : Tracks state path done) :
    Matches (vertices.foldlM body state)
      (vertices.foldlM (search graph.knownDependencies depth) (path, done)) := by
  induction vertices generalizing state done with
  | nil => exact ⟨state, rfl, htracks⟩
  | cons v vertices ih =>
      have hfirst := hbody v List.mem_cons_self state done htracks
      rw [List.foldlM_cons, List.foldlM_cons]
      cases hresult : search graph.knownDependencies depth (path, done) v with
      | error failure =>
          rw [hresult] at hfirst
          match failure, hfirst with
          | .depth, _ => trivial
          | .cycle [], _ => trivial
          | .cycle (depId :: trail), hfirst =>
            change body state v >>= _ = _
            rw [hfirst]
            rfl
      | ok sets =>
          obtain ⟨path', done'⟩ := sets
          rw [hresult] at hfirst
          obtain rfl : path' = path := search_path hresult
          obtain ⟨state', heq, htracks'⟩ := hfirst
          rw [heq]
          exact ih (fun w hw => hbody w (List.mem_cons_of_mem _ hw)) htracks'

/-- Dependencies that are not in the graph are passed over. -/
lemma foldlM_visitDependency (graph : TaskGraph) (depth : ℕ) (depIds : List String)
    (state : DfsState) :
    depIds.foldlM (graph.visitDependency depth) state =
      (depIds.filter fun depId => graph.contains depId).foldlM (graph.visitDependency depth)
        state := by
  induction depIds generalizing state with
  | nil => rfl
  | cons depId depIds ih =>
      by_cases hknown : graph.contains depId = true
      · rw [List.filter_cons_of_pos (by simpa using hknown), List.foldlM_cons, List.foldlM_cons]
        cases graph.visitDependency depth state depId with
        | error error => rfl
        | ok state' => exact ih state'
      · have hskip : graph.visitDependency depth state depId = .ok state := by
          rw [visitDependency, if_pos (by simpa using hknown)]
        rw [List.filter_cons_of_neg (by simpa using hknown), List.foldlM_cons, hskip]
        exact ih state

lemma dfs_matches {depth : ℕ} {state : DfsState} {path done : List String} {nodeId : String}
    (htracks : Tracks state path done) (hpath : nodeId ∉ path) (hdone : nodeId ∉ done) :
    Matches (graph.dfs depth state nodeId)
      (search graph.knownDependencies depth (path, done) nodeId) := by
  induction depth generalizing state path done nodeId with
  | zero => trivial
  | succ depth ih =>
      rw [dfs_succ, search, if_neg hpath, if_neg hdone, foldlM_visitDependency,
        ← knownDependencies]
      have hstart : Tracks (state.enter nodeId) (nodeId :: path) done := htracks.enter
      have hfold : Matches
          ((graph.knownDependencies nodeId).foldlM (graph.visitDependency depth)
            (state.enter nodeId))
          ((graph.knownDependencies nodeId).foldlM (search graph.knownDependencies depth)
            (nodeId :: path, done)) :=
        foldlM_matches (fun depId hdep state done htracks => visitDependency_matches
          (by simpa using (List.mem_filter.mp hdep).2) htracks fun h h' => ih htracks h h') hstart
      cases hresult : (graph.knownDependencies nodeId).foldlM
          (search graph.knownDependencies depth) (nodeId :: path, done) with
      | error failure =>
          rw [hresult] at hfold
          cases failure with
          | depth => trivial
          | cycle trail =>
            cases trail with
            | nil => trivial
            | cons depId trail =>
              change Except.map _ _ = _
              rw [hfold]
              rfl
      | ok sets =>
          obtain ⟨path', done'⟩ := sets
          rw [hresult] at hfold
          obtain rfl : path' = nodeId :: path := foldlM_search_path hresult
          obtain ⟨state', heq, htracks'⟩ := hfold
          rw [heq]
          exact ⟨state'.leave nodeId, rfl, htracks'.leave hpath⟩

lemma root_matches {depth : ℕ} {state : DfsState} {done : List String} {taskId : String}
    (hmem : taskId ∈ graph.tasks.map Prod.fst) (htracks : Tracks state [] done) :
    Matches (if state.visited taskId = 0 then graph.dfs depth state taskId else .ok state)
      (search graph.knownDependencies depth ([], done) taskId) := by
  have hknown : graph.contains taskId = true := decide_eq_true hmem
  have hidle : state.visited taskId ≠ 1 := fun h =>
    List.not_mem_nil ((htracks.visiting taskId).mp h)
  have hvisit : Matches (graph.visitDependency depth state taskId)
      (search graph.knownDependencies depth ([], done) taskId) :=
    visitDependency_matches hknown htracks fun h h' => dfs_matches htracks h h'
  rwa [visitDependency, if_neg (by simp [hknown]), if_neg hidle] at hvisit

/-- The answer of `detect_cycles` for what the search of the library gives. -/
def answer : Except (Failure String) (List String × List String) → Except DfsError Unit
  | .ok _ => .ok ()
  | .error (.cycle (depId :: path)) => .error (.cyclic (cyclicDependency path.reverse depId))
  | .error _ => .error .recursion

/-- `detect_cycles` is the search of the library over the tasks of the graph. -/
lemma detectCyclesTo_eq {depth : ℕ} (hdepth : graph.tasks.length < depth) :
    graph.detectCyclesTo depth =
      answer (searchAll graph.knownDependencies depth (graph.tasks.map Prod.fst)) := by
  have hfold : Matches
      ((graph.tasks.map Prod.fst).foldlM
        (fun state taskId =>
          if state.visited taskId = 0 then graph.dfs depth state taskId else .ok state) {})
      (searchAll graph.knownDependencies depth (graph.tasks.map Prod.fst)) :=
    foldlM_matches (fun _ hv _ _ htracks => root_matches hv htracks) tracks_start
  have hbound : (graph.tasks.map Prod.fst).length < depth := by rwa [List.length_map]
  cases hresult : searchAll graph.knownDependencies depth (graph.tasks.map Prod.fst) with
  | ok sets =>
      rw [hresult] at hfold
      obtain ⟨state, heq, -⟩ := hfold
      rw [detectCyclesTo, heq]
      rfl
  | error failure =>
      cases failure with
      | depth => exact absurd hresult (searchAll_depth (knownDependencies_within graph) hbound)
      | cycle trail =>
          obtain ⟨-, depId, path, rfl, -⟩ := searchAll_cycle hresult
          rw [hresult] at hfold
          change _ = _ at hfold
          rw [detectCyclesTo, hfold]
          rfl

/-- The dependency relation within the graph has a cycle. -/
def Cyclic (graph : TaskGraph) : Prop := ∃ taskId, Relation.TransGen graph.DependsOn taskId taskId

lemma edge_eq_dependsOn (graph : TaskGraph) : Edge graph.knownDependencies = graph.DependsOn := by
  funext taskId depId
  exact propext (edge_knownDependencies taskId depId)

lemma not_cyclic : ¬graph.Cyclic ↔ Acyclic graph.knownDependencies := by
  rw [Cyclic, Acyclic, edge_eq_dependsOn, not_exists]

/-- A walk of dependencies back to the task where it starts. -/
structure DependencyCycle (graph : TaskGraph) (cycle : List String) : Prop where
  long : 2 ≤ cycle.length
  ends : cycle.head? = cycle.getLast?
  steps : cycle.IsChain graph.DependsOn

lemma dependencyCycle_of_trail {depId : String} {path : List String}
    (htrail : Trail graph.knownDependencies (depId :: path)) (hmem : depId ∈ path) :
    graph.DependencyCycle (cyclicDependency path.reverse depId).cycle := by
  obtain ⟨hlong, hends, hsteps⟩ := htrail.closedWalk hmem
  rw [edge_eq_dependsOn] at hsteps
  exact ⟨hlong, hends, hsteps⟩

lemma DependencyCycle.cyclic {cycle : List String} (h : graph.DependencyCycle cycle) :
    graph.Cyclic := by
  have hwalk : ClosedWalk graph.knownDependencies cycle := by
    refine ⟨h.long, h.ends, ?_⟩
    rw [edge_eq_dependsOn]
    exact h.steps
  rw [Cyclic, ← edge_eq_dependsOn]
  exact hwalk.cycle

/-- A greater bound on the depth changes nothing. -/
lemma detectCyclesTo_deeper (graph : TaskGraph) (extra : ℕ) :
    graph.detectCyclesTo (graph.tasks.length + 1 + extra) = graph.detectCycles := by
  have hdeeper := searchAll_deeper (knownDependencies_within graph) (graph.tasks.map Prod.fst) extra
  rw [List.length_map] at hdeeper
  rw [detectCycles, detectCyclesTo_eq (Nat.lt_succ_self _), detectCyclesTo_eq (by omega), hdeeper]

/-- The search ends in one of two ways. -/
lemma detectCycles_spec (graph : TaskGraph) :
    ¬graph.Cyclic ∧ graph.detectCycles = .ok () ∨
    ∃ error, graph.DependencyCycle error.cycle ∧ graph.detectCycles = .error (.cyclic error) := by
  have hwithin := knownDependencies_within graph
  have hdepth : (graph.tasks.map Prod.fst).length < graph.tasks.length + 1 := by
    rw [List.length_map]
    omega
  rw [detectCycles, detectCyclesTo_eq (Nat.lt_succ_self _)]
  cases hresult : searchAll graph.knownDependencies (graph.tasks.length + 1)
      (graph.tasks.map Prod.fst) with
  | ok sets =>
      refine .inl ⟨not_cyclic.mpr ?_, rfl⟩
      exact (searchAll_acyclic hwithin hdepth).mp ⟨sets, hresult⟩
  | error failure =>
      cases failure with
      | depth => exact absurd hresult (searchAll_depth hwithin hdepth)
      | cycle trail =>
          obtain ⟨htrail, depId, path, rfl, hmem⟩ := searchAll_cycle hresult
          exact .inr ⟨_, dependencyCycle_of_trail htrail hmem, rfl⟩

/-- `detect_cycles` ends, raises exactly for a cycle, and the cycle that it reports is one. -/
theorem detect_cycles_exact (graph : TaskGraph) :
    (∀ extra : ℕ, graph.detectCyclesTo (graph.tasks.length + 1 + extra) = graph.detectCycles) ∧
    graph.detectCycles ≠ .error .recursion ∧
    ((∃ error, graph.detectCycles = .error (.cyclic error)) ↔ graph.Cyclic) ∧
    ∀ error, graph.detectCycles = .error (.cyclic error) →
      graph.DependencyCycle error.cycle := by
  refine ⟨detectCyclesTo_deeper graph, ?_, ?_, ?_⟩
  · rcases detectCycles_spec graph with ⟨-, hok⟩ | ⟨error, -, herror⟩
    · rw [hok]
      nofun
    · rw [herror]
      nofun
  · constructor
    · rintro ⟨error, herror⟩
      rcases detectCycles_spec graph with ⟨-, hok⟩ | ⟨error', hcycle, -⟩
      · rw [herror] at hok
        cases hok
      · exact hcycle.cyclic
    · intro hcyclic
      rcases detectCycles_spec graph with ⟨hacyclic, -⟩ | ⟨error, -, herror⟩
      · exact absurd hcyclic hacyclic
      · exact ⟨error, herror⟩
  · intro error herror
    rcases detectCycles_spec graph with ⟨-, hok⟩ | ⟨error', hcycle, herror'⟩
    · rw [herror] at hok
      cases hok
    · rw [herror] at herror'
      cases herror'
      exact hcycle

/-! ## Adding tasks -/

/-- The graph after some calls of `add_task`, the first of them on an empty graph. -/
def addTasks (graphId : String) (tasks : List TaskNode) : TaskGraph :=
  tasks.foldl (fun graph task => (graph.addTask task).1) { graphId := graphId }

/-- A new task that would depend on itself, through dependencies that may name tasks added later. -/
def ClosesCycle (graph : TaskGraph) (task : TaskNode) : Prop :=
  graph.contains task.taskId = false ∧
    Relation.TransGen (graph.withTask task).DependsOn task.taskId task.taskId

lemma contains_withTask {task : TaskNode} {taskId : String} (hne : taskId ≠ task.taskId) :
    (graph.withTask task).contains taskId = graph.contains taskId := by
  apply Bool.decide_congr
  rw [withTask, PySequence.mem_keys_setItem, or_iff_right hne]

lemma dependenciesOf_withTask {task : TaskNode} {taskId : String}
    (hfresh : graph.contains task.taskId = false) (hne : taskId ≠ task.taskId) :
    (graph.withTask task).dependenciesOf taskId = graph.dependenciesOf taskId := by
  have hitem : PySequence.getItem [(task.taskId, task)] taskId = none :=
    PySequence.getItem_eq_none (by simpa using hne)
  rw [dependenciesOf, withTask, PySequence.setItem_of_notMem (of_decide_eq_false hfresh),
    PySequence.getItem_append, hitem, Option.none_or]
  rfl

/-- A walk in the larger graph goes through the new task or was there before. -/
lemma dependsOn_withTask {task : TaskNode} (hfresh : graph.contains task.taskId = false)
    {a b : String} (hreach : Relation.TransGen (graph.withTask task).DependsOn a b) :
    Relation.TransGen graph.DependsOn a b ∨
      Relation.ReflTransGen (graph.withTask task).DependsOn a task.taskId ∧
        Relation.ReflTransGen (graph.withTask task).DependsOn task.taskId b := by
  have hstep : ∀ {u v : String}, (graph.withTask task).DependsOn u v →
      u ≠ task.taskId → v ≠ task.taskId → graph.DependsOn u v := by
    intro u v hedge hu hv
    rwa [DependsOn, contains_withTask hv, dependenciesOf_withTask hfresh hu] at hedge
  induction hreach with
  | @single b hedge =>
      by_cases ha : a = task.taskId
      · subst ha
        exact .inr ⟨.refl, .single hedge⟩
      · by_cases hb : b = task.taskId
        · subst hb
          exact .inr ⟨.single hedge, .refl⟩
        · exact .inl (.single (hstep hedge ha hb))
  | @tail b c hreach hedge ih =>
      rcases ih with hold | ⟨hto, hfrom⟩
      · by_cases hb : b = task.taskId
        · subst hb
          exact .inr ⟨hreach.to_reflTransGen, .single hedge⟩
        · by_cases hc : c = task.taskId
          · subst hc
            exact .inr ⟨(hreach.tail hedge).to_reflTransGen, .refl⟩
          · exact .inl (hold.tail (hstep hedge hb hc))
      · exact .inr ⟨hto, hfrom.tail hedge⟩

lemma cyclic_withTask {task : TaskNode} (hfresh : graph.contains task.taskId = false)
    (hacyclic : ¬graph.Cyclic) (hcyclic : (graph.withTask task).Cyclic) :
    Relation.TransGen (graph.withTask task).DependsOn task.taskId task.taskId := by
  obtain ⟨taskId, hcycle⟩ := hcyclic
  rcases dependsOn_withTask hfresh hcycle with hold | ⟨hto, hfrom⟩
  · exact absurd ⟨taskId, hold⟩ hacyclic
  · exact Relation.TransGen.trans_right hfrom (Relation.TransGen.trans_left hcycle hto)

/-- One call of `add_task` that closes no cycle. -/
lemma addTask_step {task : TaskNode} (hacyclic : ¬graph.Cyclic)
    (hopen : ¬graph.ClosesCycle task) :
    ¬(graph.addTask task).1.Cyclic ∧
      ((graph.addTask task).2 ≠ .ok () → (graph.addTask task).1 = graph) := by
  rw [addTask]
  split_ifs with hknown
  · exact ⟨hacyclic, fun _ => rfl⟩
  · have hfresh : graph.contains task.taskId = false := Bool.eq_false_of_not_eq_true hknown
    have hacyclic' : ¬(graph.withTask task).Cyclic := fun hcyclic =>
      hopen ⟨hfresh, cyclic_withTask hfresh hacyclic hcyclic⟩
    refine ⟨hacyclic', fun herror => absurd ?_ herror⟩
    rcases detectCycles_spec (graph.withTask task) with ⟨-, hok⟩ | ⟨error, hcycle, -⟩
    · change Except.mapError _ (graph.withTask task).detectCycles = _
      rw [hok]
      rfl
    · exact absurd hcycle.cyclic hacyclic'

lemma not_cyclic_empty (graphId : String) : ¬({ graphId := graphId } : TaskGraph).Cyclic := by
  rintro ⟨taskId, hcycle⟩
  obtain ⟨depId, ⟨hknown, -⟩, -⟩ := Relation.TransGen.head'_iff.mp hcycle
  cases hknown

/-- Calls none of which closes a cycle leave the graph acyclic. -/
lemma not_cyclic_addTasks {graphId : String} {tasks : List TaskNode}
    (hopen : ∀ before task after, tasks = before ++ task :: after →
      ¬(addTasks graphId before).ClosesCycle task) : ¬(addTasks graphId tasks).Cyclic := by
  induction tasks using List.reverseRecOn with
  | nil => exact not_cyclic_empty graphId
  | append_singleton tasks task ih =>
      have hbefore : ¬(addTasks graphId tasks).Cyclic := ih fun before other after heq =>
        hopen before other (after ++ [task]) (by rw [heq]; simp)
      have hlast := (addTask_step hbefore (hopen tasks task [] rfl)).1
      rwa [addTasks, List.foldl_append]

/-- After every call the graph is acyclic, and a call that raises has left it as it was, exactly
when no call of the sequence adds a task that closes a cycle. -/
theorem add_task_acyclic_iff (graphId : String) (tasks : List TaskNode) :
    (∀ before task after, tasks = before ++ task :: after →
      ¬((addTasks graphId before).addTask task).1.Cyclic ∧
        (((addTasks graphId before).addTask task).2 ≠ .ok () →
          ((addTasks graphId before).addTask task).1 = addTasks graphId before)) ↔
    ∀ before task after, tasks = before ++ task :: after →
      ¬(addTasks graphId before).ClosesCycle task := by
  constructor
  · rintro h before task after heq ⟨hfresh, hcycle⟩
    apply (h before task after heq).1
    rw [addTask, if_neg (by simp [hfresh])]
    exact ⟨task.taskId, hcycle⟩
  · intro hopen before task after heq
    have hbefore : ¬(addTasks graphId before).Cyclic := not_cyclic_addTasks
      fun before' other after' heq' => hopen before' other (after' ++ task :: after) (by
        rw [heq, heq']
        simp)
    exact addTask_step hbefore (hopen before task after heq)

/-- A second task closes the cycle that the first one has named: the call raises, and the graph keeps
both tasks. -/
theorem refused_task_stays :
    let graph := addTasks "mission" [⟨"a", "coder", [], ["b"], none⟩]
    let added := graph.addTask ⟨"b", "coder", [], ["a"], none⟩
    added.2 = .error (.search (.cyclic
      ⟨"Cyclic dependency detected: a -> b -> a", ["a", "b", "a"]⟩)) ∧
    added.1 ≠ graph ∧ added.1.Cyclic := by
  refine ⟨by decide +kernel, fun heq => ?_, "a", ?_⟩
  · have hlength := congrArg (fun graph => graph.tasks.length) heq
    revert hlength
    decide +kernel
  · apply Relation.TransGen.head (b := "b")
    · exact ⟨by decide +kernel, by decide +kernel⟩
    · exact .single ⟨by decide +kernel, by decide +kernel⟩

end TaskGraph

end AgentSystem.Executor
