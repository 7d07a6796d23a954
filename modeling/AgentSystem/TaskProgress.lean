import AgentSystem.TaskCycles

/-!
# The progress of a task graph

The statuses that the scheduler gives to the tasks of a graph: which tasks are ready, and which
are blocked when one fails.
-/
namespace AgentSystem.Executor

inductive TaskStatus
  | pending
  | ready
  | inProgress
  | completed
  | failed
  | blocked
  deriving DecidableEq

/-- The task has not been started: `PENDING` or `READY`. -/
def TaskStatus.waiting (status : TaskStatus) : Bool := status = .pending || status = .ready

/-- A task with its status and the summary of its result. -/
structure TrackedTask extends TaskNode where
  status : TaskStatus := .pending
  resultSummary : Option String := none

/-- A task graph with the statuses of its tasks, each under its own id. -/
structure TrackedGraph where
  graphId : String
  tasks : List (String × TrackedTask)
  nodup : (tasks.map Prod.fst).Nodup

namespace TrackedGraph

variable (graph : TrackedGraph)

/-- The graph without the statuses. -/
def toTaskGraph : TaskGraph where
  graphId := graph.graphId
  tasks := graph.tasks.map fun item => (item.1, item.2.toTaskNode)

/-- `self.tasks.get(task_id)`. -/
def get? (taskId : String) : Option TrackedTask := PySequence.getItem graph.tasks taskId

/-- `get_task`, with the text of the `KeyError`. -/
def getTask (taskId : String) : Except String TrackedTask :=
  match graph.get? taskId with
  | some task => .ok task
  | none => .error s!"Task '{taskId}' not found in TaskGraph '{graph.graphId}'."

/-- The task of this id has become `task`. -/
def update (taskId : String) (task : TrackedTask) : TrackedGraph where
  graphId := graph.graphId
  tasks := PySequence.setItem graph.tasks taskId task
  nodup := PySequence.setItem_nodup graph.nodup _ _

/-- A loop over `self.tasks.values()` that changes each task by itself. -/
def mapTasks (f : TrackedTask → TrackedTask) : TrackedGraph where
  graphId := graph.graphId
  tasks := graph.tasks.map fun item => (item.1, f item.2)
  nodup := by
    rw [List.map_map]
    exact graph.nodup

/-- The loop over the dependencies of a task. -/
def allDepsSatisfied (task : TrackedTask) : Bool :=
  task.dependencies.all fun depId =>
    match graph.get? depId with
    | some depTask => depTask.status = .completed
    | none => false

/-- One turn of the loop of `get_ready_tasks`: the graph and the tasks collected so far. -/
def collectReady (state : TrackedGraph × List (String × TrackedTask)) (taskId : String) :
    TrackedGraph × List (String × TrackedTask) :=
  match state.1.get? taskId with
  | some task =>
      if task.status.waiting && state.1.allDepsSatisfied task then
        (state.1.update taskId { task with status := .ready },
          state.2 ++ [(taskId, { task with status := .ready })])
      else state
  | none => state

/-- `get_ready_tasks`: the graph afterwards, and the tasks with their ids. -/
def getReadyTasks : TrackedGraph × List (String × TrackedTask) :=
  (graph.tasks.map Prod.fst).foldl collectReady (graph, [])

/-- `mark_completed`. -/
def markCompleted (taskId summary : String) : Except String TrackedGraph := do
  let task ← graph.getTask taskId
  pure (graph.update taskId { task with status := .completed, resultSummary := some summary })

/-- What the loop of `mark_failed` does to another task. -/
def block (taskId : String) (otherTask : TrackedTask) : TrackedTask :=
  if taskId ∈ otherTask.dependencies ∧ otherTask.status.waiting then
    { otherTask with
      status := .blocked
      resultSummary := some s!"Blocked by failed dependency '{taskId}'" }
  else otherTask

/-- `mark_failed`. -/
def markFailed (taskId reason : String) : Except String TrackedGraph := do
  let task ← graph.getTask taskId
  pure ((graph.update taskId { task with status := .failed, resultSummary := some reason }).mapTasks
    (block taskId))

end TrackedGraph

/-- A call on a task graph. -/
inductive TaskCall
  | getReadyTasks
  | markCompleted (taskId summary : String)
  | markFailed (taskId reason : String)

namespace TrackedGraph

/-- The graph after a call; a call that raises leaves it as it was. -/
def perform (graph : TrackedGraph) : TaskCall → TrackedGraph
  | .getReadyTasks => graph.getReadyTasks.1
  | .markCompleted taskId summary => (graph.markCompleted taskId summary).toOption.getD graph
  | .markFailed taskId reason => (graph.markFailed taskId reason).toOption.getD graph

/-- The graph after some calls. -/
def after (graph : TrackedGraph) (calls : List TaskCall) : TrackedGraph :=
  calls.foldl perform graph

section Views

variable (graph : TrackedGraph)

def statusOf (taskId : String) : Option TaskStatus := (graph.get? taskId).map (·.status)

def dependenciesOf (taskId : String) : List String :=
  ((graph.get? taskId).map (·.dependencies)).getD []

/-- The task depends on another, directly or through tasks of the graph. -/
def Needs (taskId depId : String) : Prop :=
  Relation.TransGen (fun taskId depId => depId ∈ graph.dependenciesOf taskId) taskId depId

/-- If the task is not completed or failed, it is blocked. -/
def Halted (taskId : String) : Prop :=
  ∀ status, graph.statusOf taskId = some status → status ≠ .completed → status ≠ .failed →
    status = .blocked

/-- The task waits, and each of its own dependencies is completed. -/
def Free (taskId : String) : Prop :=
  (∃ status, graph.statusOf taskId = some status ∧ status.waiting) ∧
    ∀ depId ∈ graph.dependenciesOf taskId, graph.statusOf depId = some .completed

end Views

/-! ## What the operations change -/

section Operations

variable {graph graph' : TrackedGraph} {taskId : String} {task : TrackedTask}

/-- The values of a dictionary are changed one by one. -/
lemma getItem_mapValues {ν : Type} (f : ν → ν) (items : List (String × ν)) (key : String) :
    PySequence.getItem (items.map fun item => (item.1, f item.2)) key =
      (PySequence.getItem items key).map f := by
  induction items with
  | nil => rfl
  | cons item items ih =>
      obtain ⟨k, value⟩ := item
      rw [List.map_cons, PySequence.getItem_cons, PySequence.getItem_cons, ih]
      cases PySequence.getItem items key with
      | some found => rfl
      | none => by_cases h : k = key <;> simp [h]

lemma get?_update (k : String) :
    (graph.update taskId task).get? k = if taskId = k then some task else graph.get? k :=
  PySequence.getItem_setItem graph.nodup taskId task k

lemma get?_mapTasks (f : TrackedTask → TrackedTask) (k : String) :
    (graph.mapTasks f).get? k = (graph.get? k).map f := getItem_mapValues f graph.tasks k

lemma get?_isSome_of_mem {k : String} (h : k ∈ graph.tasks.map Prod.fst) :
    ∃ task, graph.get? k = some task := by
  obtain ⟨⟨k, task⟩, hmem, rfl⟩ := List.mem_map.mp h
  exact ⟨task, PySequence.getItem_of_mem graph.nodup hmem⟩

lemma get?_mem {k : String} (h : graph.get? k = some task) : k ∈ graph.tasks.map Prod.fst :=
  List.mem_map.mpr ⟨(k, task), PySequence.getItem_mem h, rfl⟩

lemma statusOf_of_get? {k : String} (h : graph.get? k = some task) :
    graph.statusOf k = some task.status := by rw [statusOf, h, Option.map_some]

lemma dependenciesOf_of_get? {k : String} (h : graph.get? k = some task) :
    graph.dependenciesOf k = task.dependencies := by
  rw [dependenciesOf, h, Option.map_some, Option.getD_some]

lemma statusOf_update (k : String) : (graph.update taskId task).statusOf k =
    if taskId = k then some task.status else graph.statusOf k := by
  rw [statusOf, get?_update]
  split_ifs with hk
  · rfl
  · rfl

/-- A new status changes no dependency. -/
lemma dependenciesOf_update (htask : graph.get? taskId = some task) (status : TaskStatus)
    (summary : Option String) (k : String) :
    (graph.update taskId { task with status, resultSummary := summary }).dependenciesOf k =
      graph.dependenciesOf k := by
  by_cases hk : taskId = k
  · subst hk
    rw [dependenciesOf_of_get? htask, dependenciesOf, get?_update, if_pos rfl, Option.map_some,
      Option.getD_some]
  · rw [dependenciesOf, get?_update, if_neg hk, dependenciesOf]

lemma allDepsSatisfied_iff : graph.allDepsSatisfied task = true ↔
    ∀ depId ∈ task.dependencies, graph.statusOf depId = some .completed := by
  rw [allDepsSatisfied, List.all_eq_true]
  refine forall₂_congr fun depId _ => ?_
  cases hdep : graph.get? depId with
  | some depTask => simp [statusOf_of_get? hdep]
  | none => simp [statusOf, hdep]

/-- What the loop over some ids has done, from the graph before it. -/
structure Sweep (graph : TrackedGraph) (taskIds : List String)
    (state : TrackedGraph × List (String × TrackedTask)) : Prop where
  dependencies : ∀ k, state.1.dependenciesOf k = graph.dependenciesOf k
  status : ∀ k, state.1.statusOf k = graph.statusOf k ∨
    graph.Free k ∧ state.1.statusOf k = some .ready
  returned : ∀ k, (∃ task, (k, task) ∈ state.2) ↔ k ∈ taskIds ∧ graph.Free k

variable {state : TrackedGraph × List (String × TrackedTask)} {taskIds : List String}

lemma Sweep.waiting (h : Sweep graph taskIds state) {status : TaskStatus}
    (hstatus : state.1.statusOf taskId = some status) :
    (∃ old, graph.statusOf taskId = some old ∧ old.waiting) ↔ status.waiting = true := by
  rcases h.status taskId with heq | ⟨hfree, heq⟩
  · rw [heq] at hstatus
    rw [hstatus]
    exact ⟨fun ⟨old, hold, hwaiting⟩ => Option.some.inj hold ▸ hwaiting,
      fun hwaiting => ⟨status, rfl, hwaiting⟩⟩
  · rw [heq, Option.some.injEq] at hstatus
    subst hstatus
    exact ⟨fun _ => rfl, fun _ => hfree.1⟩

lemma Sweep.completed (h : Sweep graph taskIds state) (k : String) :
    state.1.statusOf k = some .completed ↔ graph.statusOf k = some .completed := by
  rcases h.status k with heq | ⟨hfree, heq⟩
  · rw [heq]
  · obtain ⟨⟨status, hstatus, hwaiting⟩, -⟩ := hfree
    rw [heq, hstatus]
    constructor
    · nofun
    · rintro ⟨⟩
      cases hwaiting

lemma Sweep.free_iff (h : Sweep graph taskIds state) (htask : state.1.get? taskId = some task) :
    (task.status.waiting && state.1.allDepsSatisfied task) = true ↔ graph.Free taskId := by
  have hdeps : task.dependencies = graph.dependenciesOf taskId := by
    rw [← h.dependencies, dependenciesOf_of_get? htask]
  rw [Bool.and_eq_true, allDepsSatisfied_iff, Free, h.waiting (statusOf_of_get? htask), hdeps]
  refine and_congr_right fun _ => forall₂_congr fun depId _ => ?_
  exact h.completed depId

lemma Sweep.collectReady (h : Sweep graph taskIds state)
    (htask : state.1.get? taskId = some task) :
    Sweep graph (taskIds ++ [taskId]) (collectReady state taskId) := by
  have hfree := h.free_iff htask
  rw [TrackedGraph.collectReady, htask]
  dsimp only
  split_ifs with hready
  · refine ⟨fun k => ?_, fun k => ?_, fun k => ?_⟩
    · rw [← h.dependencies]
      exact dependenciesOf_update htask _ _ k
    · rw [statusOf_update]
      split_ifs with hk
      · subst hk
        exact .inr ⟨hfree.mp hready, rfl⟩
      · exact h.status k
    · simp only [List.mem_append, List.mem_singleton, Prod.mk.injEq, exists_or, h.returned]
      constructor
      · rintro (⟨hk, hfreek⟩ | ⟨_, rfl, -⟩)
        · exact ⟨.inl hk, hfreek⟩
        · exact ⟨.inr rfl, hfree.mp hready⟩
      · rintro ⟨hk | rfl, hfreek⟩
        · exact .inl ⟨hk, hfreek⟩
        · exact .inr ⟨_, rfl, rfl⟩
  · refine ⟨h.dependencies, h.status, fun k => ?_⟩
    rw [h.returned, List.mem_append, List.mem_singleton, or_and_right, iff_self_or]
    rintro ⟨rfl, hfreek⟩
    exact absurd (hfree.mpr hfreek) hready

lemma sweep_foldl (rest : List String) (h : Sweep graph taskIds state)
    (hknown : ∀ k ∈ rest, graph.statusOf k ≠ none) :
    Sweep graph (taskIds ++ rest) (rest.foldl TrackedGraph.collectReady state) := by
  induction rest generalizing taskIds state with
  | nil => rwa [List.append_nil]
  | cons k rest ih =>
      have hget : state.1.get? k ≠ none := by
        intro hnone
        have hstatus : state.1.statusOf k = none := by rw [statusOf, hnone, Option.map_none]
        rcases h.status k with heq | ⟨-, heq⟩
        · exact hknown k List.mem_cons_self (heq.symm.trans hstatus)
        · rw [heq] at hstatus
          cases hstatus
      obtain ⟨task, htask⟩ := Option.ne_none_iff_exists'.mp hget
      have hnext := ih (h.collectReady htask) fun k' hk' => hknown k' (List.mem_cons_of_mem _ hk')
      rwa [List.append_assoc] at hnext

/-- `get_ready_tasks` returns the tasks that wait with completed dependencies only, and nothing
else changes. -/
lemma sweep_getReadyTasks (graph : TrackedGraph) :
    Sweep graph (graph.tasks.map Prod.fst) graph.getReadyTasks := by
  have hstart : Sweep graph [] (graph, []) :=
    ⟨fun _ => rfl, fun _ => .inl rfl, fun k => by simp⟩
  refine sweep_foldl _ hstart fun k hk hnone => ?_
  obtain ⟨task, htask⟩ := get?_isSome_of_mem hk
  rw [statusOf_of_get? htask] at hnone
  cases hnone

lemma mem_getReadyTasks {k : String} :
    (∃ task, (k, task) ∈ graph.getReadyTasks.2) ↔ graph.Free k := by
  rw [(sweep_getReadyTasks graph).returned]
  refine and_iff_right_of_imp ?_
  rintro ⟨⟨status, hstatus, -⟩, -⟩
  obtain ⟨task, htask, -⟩ := Option.map_eq_some_iff.mp hstatus
  exact get?_mem htask

lemma perform_markCompleted (htask : graph.get? taskId = some task) (summary : String) :
    graph.perform (.markCompleted taskId summary) =
      graph.update taskId { task with status := .completed, resultSummary := some summary } := by
  rw [perform, markCompleted, getTask, htask]
  rfl

lemma perform_markFailed (htask : graph.get? taskId = some task) (reason : String) :
    graph.perform (.markFailed taskId reason) =
      (graph.update taskId
        { task with status := .failed, resultSummary := some reason }).mapTasks (block taskId) := by
  rw [perform, markFailed, getTask, htask]
  rfl

/-- A call for an unknown task raises. -/
lemma perform_unknown (hnone : graph.get? taskId = none) (summary : String) :
    graph.perform (.markCompleted taskId summary) = graph ∧
      graph.perform (.markFailed taskId summary) = graph := by
  rw [perform, markCompleted, getTask, perform, markFailed, getTask, hnone]
  exact ⟨rfl, rfl⟩

lemma dependencies_block (otherTask : TrackedTask) :
    (block taskId otherTask).dependencies = otherTask.dependencies := by
  rw [block]
  split_ifs <;> rfl

lemma dependenciesOf_mapTasks_block (k : String) :
    (graph.mapTasks (block taskId)).dependenciesOf k = graph.dependenciesOf k := by
  rw [dependenciesOf, get?_mapTasks, dependenciesOf]
  cases graph.get? k with
  | none => rfl
  | some otherTask => exact dependencies_block otherTask

/-- The statuses after `mark_failed`: only what waits directly for the task is blocked. -/
lemma statusOf_markFailed (htask : graph.get? taskId = some task) (reason k : String) :
    (graph.perform (.markFailed taskId reason)).statusOf k =
      (if taskId = k then some .failed else graph.statusOf k).map fun status =>
        if taskId ∈ graph.dependenciesOf k ∧ status.waiting then .blocked else status := by
  rw [perform_markFailed htask, statusOf, get?_mapTasks, get?_update]
  split_ifs with hk
  · simp [block, TaskStatus.waiting]
  · rw [statusOf, dependenciesOf]
    cases graph.get? k with
    | none => rfl
    | some otherTask =>
        simp only [Option.map_some, Option.getD_some, block]
        split_ifs <;> rfl

lemma dependenciesOf_perform (call : TaskCall) (k : String) :
    (graph.perform call).dependenciesOf k = graph.dependenciesOf k := by
  cases call with
  | getReadyTasks => exact (sweep_getReadyTasks graph).dependencies k
  | markCompleted taskId summary =>
      cases htask : graph.get? taskId with
      | none => rw [(perform_unknown htask summary).1]
      | some task =>
          rw [perform_markCompleted htask]
          exact dependenciesOf_update htask _ _ k
  | markFailed taskId reason =>
      cases htask : graph.get? taskId with
      | none => rw [(perform_unknown htask reason).2]
      | some task =>
          rw [perform_markFailed htask, dependenciesOf_mapTasks_block]
          exact dependenciesOf_update htask _ _ k

lemma dependenciesOf_after (calls : List TaskCall) (k : String) :
    (graph.after calls).dependenciesOf k = graph.dependenciesOf k := by
  induction calls generalizing graph with
  | nil => rfl
  | cons call calls ih => exact Eq.trans ih (dependenciesOf_perform call k)

lemma needs_after (calls : List TaskCall) (k depId : String) :
    (graph.after calls).Needs k depId ↔ graph.Needs k depId := by
  simp only [Needs, dependenciesOf_after]

lemma halted_perform {k : String} (h : graph.Halted k) (call : TaskCall) :
    (graph.perform call).Halted k := by
  cases call with
  | getReadyTasks =>
      rcases (sweep_getReadyTasks graph).status k with heq | ⟨⟨⟨status, hstatus, hwaiting⟩, -⟩, -⟩
      · intro status hstatus
        exact h status (heq.symm.trans hstatus)
      · -- A task that waits is not halted.
        cases status with
        | pending => cases h _ hstatus nofun nofun
        | ready => cases h _ hstatus nofun nofun
        | inProgress => cases hwaiting
        | completed => cases hwaiting
        | failed => cases hwaiting
        | blocked => cases hwaiting
  | markCompleted taskId summary =>
      cases htask : graph.get? taskId with
      | none => rwa [(perform_unknown htask summary).1]
      | some task =>
          intro status hstatus hcompleted hfailed
          rw [perform_markCompleted htask, statusOf_update] at hstatus
          split_ifs at hstatus with hk
          · cases hstatus
            exact absurd rfl hcompleted
          · exact h status hstatus hcompleted hfailed
  | markFailed taskId reason =>
      cases htask : graph.get? taskId with
      | none => rwa [(perform_unknown htask reason).2]
      | some task =>
          intro status hstatus hcompleted hfailed
          rw [statusOf_markFailed htask, Option.map_eq_some_iff] at hstatus
          obtain ⟨old, hold, rfl⟩ := hstatus
          split_ifs at hcompleted hfailed ⊢ with hblock
          · rfl
          · split_ifs at hold with hk
            · cases hold
              exact absurd rfl hfailed
            · exact h old hold hcompleted hfailed

lemma halted_after {k : String} (h : graph.Halted k) (calls : List TaskCall) :
    (graph.after calls).Halted k := by
  induction calls generalizing graph with
  | nil => exact h
  | cons call calls ih => exact ih (halted_perform h call)

/-- A task is halted after `mark_failed` if it was, or if it waits directly for the failed one. -/
lemma halted_markFailed (htask : graph.get? taskId = some task) (reason k : String) :
    (graph.perform (.markFailed taskId reason)).Halted k ↔
      k = taskId ∨ graph.Halted k ∨
        taskId ∈ graph.dependenciesOf k ∧
          ∃ status, graph.statusOf k = some status ∧ status.waiting = true := by
  constructor
  · intro h
    by_cases hk : k = taskId
    · exact .inl hk
    · right
      by_contra hnot
      rw [not_or, Halted, not_forall] at hnot
      obtain ⟨⟨status, hopen⟩, hdirect⟩ := hnot
      rw [Classical.not_imp] at hopen
      have hkept : ¬(taskId ∈ graph.dependenciesOf k ∧ status.waiting = true) := fun hblock =>
        hdirect ⟨hblock.1, status, hopen.1, hblock.2⟩
      have hafter : (graph.perform (.markFailed taskId reason)).statusOf k = some status := by
        rw [statusOf_markFailed htask, if_neg (Ne.symm hk), hopen.1, Option.map_some, if_neg hkept]
      exact hopen.2 (h status hafter)
  · have hself : (graph.perform (.markFailed taskId reason)).Halted taskId := by
      intro status hstatus _ hfailed
      rw [statusOf_markFailed htask, if_pos rfl, Option.map_some] at hstatus
      split_ifs at hstatus
      · exact (Option.some.inj hstatus).symm
      · exact absurd (Option.some.inj hstatus).symm hfailed
    rintro (rfl | h | ⟨hdep, status, hstatus, hwaiting⟩)
    · exact hself
    · exact halted_perform h _
    · by_cases hk : taskId = k
      · exact hk ▸ hself
      · intro status' hstatus' _ _
        rw [statusOf_markFailed htask, if_neg hk, hstatus, Option.map_some,
          if_pos ⟨hdep, hwaiting⟩] at hstatus'
        exact (Option.some.inj hstatus').symm

end Operations

/-! ## Failures and readiness over a run -/

section Runs

variable (graph : TrackedGraph)

/-- After a `mark_failed` of a known task, and ever after, the tasks that need it are halted. -/
def FailureBlocks (calls : List TaskCall) : Prop :=
  ∀ before taskId reason since rest,
    calls = before ++ .markFailed taskId reason :: (since ++ rest) →
    (graph.after before).get? taskId ≠ none →
    ∀ other, graph.Needs other taskId →
      (graph.after (before ++ .markFailed taskId reason :: since)).Halted other

/-- Whatever a task returned by `get_ready_tasks` needs is completed. -/
def ReadyComplete (calls : List TaskCall) : Prop :=
  ∀ before rest, calls = before ++ .getReadyTasks :: rest →
    ∀ item ∈ (graph.after before).getReadyTasks.2, ∀ depId, graph.Needs item.1 depId →
      (graph.after (before ++ [.getReadyTasks])).statusOf depId = some .completed

/-- Every other task that needs this one is halted, or is waiting and names it itself. -/
def NamedByWaiting (taskId : String) : Prop :=
  ∀ other, graph.Needs other taskId → other ≠ taskId → ¬graph.Halted other →
    taskId ∈ graph.dependenciesOf other ∧
      ∃ status, graph.statusOf other = some status ∧ status.waiting = true

/-- No task that a free task needs was completed before one of its own dependencies. -/
def CompletedInOrder : Prop :=
  ∀ taskId, graph.Free taskId → ∀ other, graph.Needs taskId other →
    graph.statusOf other = some .completed →
    ∀ depId ∈ graph.dependenciesOf other, graph.statusOf depId = some .completed

variable {graph}

lemma completedInOrder_iff : graph.CompletedInOrder ↔
    ∀ taskId, graph.Free taskId → ∀ depId, graph.Needs taskId depId →
      graph.statusOf depId = some .completed := by
  constructor
  · intro hordered taskId hfree depId hneeds
    induction hneeds with
    | single hdep => exact hfree.2 _ hdep
    | tail hneeds hdep ih => exact hordered taskId hfree _ hneeds ih _ hdep
  · intro h taskId hfree other hneeds _ depId hdep
    exact h taskId hfree depId (hneeds.tail hdep)

lemma after_append (before calls : List TaskCall) :
    graph.after (before ++ calls) = (graph.after before).after calls := List.foldl_append

/-- The failures of a run block all that need the failed tasks, and no task is returned before all
that it needs is completed, exactly when every failure finds only waiting tasks that name the
failed one, and every search for ready tasks finds tasks that were completed in order. -/
theorem failureBlocks_readyComplete_iff (graph : TrackedGraph) (calls : List TaskCall) :
    graph.FailureBlocks calls ∧ graph.ReadyComplete calls ↔
      (∀ before taskId reason rest, calls = before ++ .markFailed taskId reason :: rest →
        (graph.after before).get? taskId ≠ none → (graph.after before).NamedByWaiting taskId) ∧
      ∀ before rest, calls = before ++ .getReadyTasks :: rest →
        (graph.after before).CompletedInOrder := by
  refine and_congr ⟨?_, ?_⟩ (forall₃_congr fun before rest _ => ?_)
  · intro hblocks before taskId reason rest hcalls hknown other hneeds hne hopen
    obtain ⟨task, htask⟩ := Option.ne_none_iff_exists'.mp hknown
    have hhalted := hblocks before taskId reason [] rest hcalls hknown other
      ((needs_after before _ _).mp hneeds)
    rw [after_append] at hhalted
    rcases (halted_markFailed htask reason other).mp hhalted with heq | hhalt | hdirect
    · exact absurd heq hne
    · exact absurd hhalt hopen
    · exact hdirect
  · intro hnamed before taskId reason since rest hcalls hknown other hneeds
    obtain ⟨task, htask⟩ := Option.ne_none_iff_exists'.mp hknown
    have hstep : ((graph.after before).perform (.markFailed taskId reason)).Halted other := by
      rw [halted_markFailed htask]
      by_contra hnot
      rw [not_or, not_or] at hnot
      exact hnot.2.2 (hnamed before taskId reason _ hcalls hknown other
        ((needs_after before _ _).mpr hneeds) hnot.1 hnot.2.1)
    rw [after_append]
    exact halted_after hstep since
  · rw [completedInOrder_iff]
    have hafter : graph.after (before ++ [.getReadyTasks]) =
        (graph.after before).getReadyTasks.1 := by
      rw [after_append]
      rfl
    simp only [hafter, (sweep_getReadyTasks _).completed, needs_after]
    constructor
    · intro h taskId hfree
      obtain ⟨task, hmem⟩ := mem_getReadyTasks.mpr hfree
      exact h _ hmem
    · intro h item hmem
      exact h item.1 (mem_getReadyTasks.mp ⟨item.2, hmem⟩)

/-- Three tasks, each of which depends on the one before. -/
def chain : TrackedGraph where
  graphId := "mission"
  tasks := [("a", { taskId := "a", assignedRole := "coder" }),
    ("b", { taskId := "b", assignedRole := "coder", dependencies := ["a"] }),
    ("c", { taskId := "c", assignedRole := "coder", dependencies := ["b"] })]
  nodup := by simp

lemma chain_needs : chain.Needs "c" "a" := by
  apply Relation.TransGen.head (b := "b")
  · simp [chain, dependenciesOf, get?, PySequence.getItem]
  · apply Relation.TransGen.single
    simp [chain, dependenciesOf, get?, PySequence.getItem]

lemma chain_acyclic : ¬chain.toTaskGraph.Cyclic := by
  rcases TaskGraph.detectCycles_spec chain.toTaskGraph with ⟨hacyclic, -⟩ | ⟨error, -, herror⟩
  · exact hacyclic
  · have hok : chain.toTaskGraph.detectCycles = .ok () := by decide +kernel
    rw [hok] at herror
    cases herror

/-- The last task of the chain keeps waiting when the first one fails. -/
theorem chain_failure_stops : ¬chain.toTaskGraph.Cyclic ∧ chain.Needs "c" "a" ∧
    (chain.after [.markFailed "a" "broken"]).statusOf "c" = some .pending ∧
    ¬chain.FailureBlocks [.markFailed "a" "broken"] := by
  have hstatus : (chain.after [.markFailed "a" "broken"]).statusOf "c" = some .pending := by
    decide +kernel
  refine ⟨chain_acyclic, chain_needs, hstatus, fun hblocks => ?_⟩
  have hhalted := hblocks [] "a" "broken" [] [] rfl (by simp [chain, after, get?, PySequence.getItem])
    "c" chain_needs
  cases hhalted .pending hstatus nofun nofun

end Runs

end TrackedGraph

end AgentSystem.Executor
