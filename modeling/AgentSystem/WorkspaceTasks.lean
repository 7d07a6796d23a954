import AgentSystem.GraphTraversal
import AgentSystem.PySequence

/-!
# The tasks of the workspace

The tools that change the task graph of `workspace.json`. A dependency is kept twice, at the task
that waits and at the task that is waited for. `mirrored_run` says that the two always agree;
`cancel_spec`, that a task is cancelled with everything that waits for it, whatever cycles there
are; and `render_isSome_iff`, that drawing the graph ends if no chain of first dependents from a
task without dependencies comes to a cycle.

Hand-written files, the criteria of a task, the other views and log archives are left out. `today`
is the date.
-/
namespace AgentSystem.WorkspaceTasks

open PySequence DepthFirst GraphTraversal

/-- An entry of `depends_on` or `depended_by`. -/
structure Link where
  id : String
  category : String := "dependency"
  deriving DecidableEq

structure TaskNode where
  taskId : String
  title : String
  agent : String := "Unassigned"
  status : String := "Todo"
  priority : String := "Medium"
  created : String
  updated : String
  description : String := ""
  logs : List String := []
  dependsOn : List Link := []
  dependedBy : List Link := []

def TaskNode.addDependsOn (link : Link) (task : TaskNode) : TaskNode :=
  { task with dependsOn := task.dependsOn ++ [link] }

def TaskNode.addDependedBy (link : Link) (task : TaskNode) : TaskNode :=
  { task with dependedBy := task.dependedBy ++ [link] }

abbrev Workspace := List (String × TaskNode)

namespace Workspace

variable (m : Workspace)

/-- The ids of the tasks that wait for a task. -/
def dependents (taskId : String) : List String :=
  ((getItem m taskId).map fun task => task.dependedBy.map Link.id).getD []

/-- The ids of the tasks that a task waits for. -/
def dependencies (taskId : String) : List String :=
  ((getItem m taskId).map fun task => task.dependsOn.map Link.id).getD []

/-- A change of the task with an id, which has one. -/
def update (taskId : String) (f : TaskNode → TaskNode) : Workspace :=
  m.map fun item => if item.1 = taskId then (item.1, f item.2) else item

end Workspace

/-! ## The tools -/

/-- An entry of the argument `depends_on`: an id, or an object that may have an id and a
category. -/
inductive Dependency
  | name (id : String)
  | link (id category : Option String)

def Dependency.id : Dependency → Option String
  | .name id => some id
  | .link id _ => id

def Dependency.category : Dependency → String
  | .name _ => "dependency"
  | .link _ category => category.getD "dependency"

/-- The arguments of `workspace_add_task`. -/
structure AddTaskArgs where
  taskId : String
  title : String
  agent : String := "Unassigned"
  description : String := ""
  dependsOn : List Dependency := []

def addDependency (taskId : String) (m : Workspace) (dep : Dependency) : Workspace :=
  match dep.id with
  | some depId =>
      if (getItem m depId).isSome then
        (m.update taskId (.addDependsOn ⟨depId, dep.category⟩)).update depId
          (.addDependedBy ⟨taskId, dep.category⟩)
      else m
  | none => m

/-- The task is among the tasks when its dependencies are looked up. -/
def workspaceAddTask (m : Workspace) (args : AddTaskArgs) (today : String) : Workspace × String :=
  if (getItem m args.taskId).isSome then (m, "Error: Task " ++ args.taskId ++ " already exists.")
  else
    let task : TaskNode :=
      { taskId := args.taskId, title := args.title, agent := args.agent, created := today,
        updated := today, description := args.description }
    (args.dependsOn.foldl (addDependency args.taskId) (setItem m args.taskId task),
      "Successfully added " ++ args.taskId ++ ": " ++ args.title)

def logLine (today message : String) : String := "- `" ++ today ++ "` " ++ message

/-- The logs after an update, `none` when it raises: it compresses them under a date that it reads
only for a message. -/
def updatedLogs (logs : List String) (status logMessage today : String) : Option (List String) :=
  let logs := if logMessage = "" then logs else logs ++ [logLine today logMessage]
  if status = "Done" ∧ 3 < logs.length then
    if logMessage = "" then none
    else
      some (logLine today "Task completed. (Logs compressed)" :: logs.drop (logs.length - 2))
  else some logs

/-- `workspace_update_status`. -/
def workspaceUpdateStatus (m : Workspace) (taskId status logMessage today : String) :
    Option (Workspace × String) :=
  match getItem m taskId with
  | none => some (m, "Error: Task " ++ taskId ++ " not found.")
  | some task =>
      (updatedLogs task.logs status logMessage today).map fun logs =>
        (m.update taskId fun task => { task with status := status, updated := today, logs := logs },
          "Successfully updated " ++ taskId ++ " to " ++ status ++ ".")

def existsInDeps (depId : String) (deps : List Link) : Bool := deps.any fun dep => dep.id = depId

/-- `workspace_link_tasks`. -/
def workspaceLinkTasks (m : Workspace) (fromTaskId toTaskId category : String) :
    Workspace × String :=
  match getItem m fromTaskId, getItem m toTaskId with
  | some parent, some child =>
      let category := if category = "" then "dependency" else category
      let m :=
        if existsInDeps fromTaskId child.dependsOn then m
        else m.update toTaskId (.addDependsOn ⟨fromTaskId, category⟩)
      let m :=
        if existsInDeps toTaskId parent.dependedBy then m
        else m.update fromTaskId (.addDependedBy ⟨toTaskId, category⟩)
      (m, "Linked " ++ fromTaskId ++ " ──(" ++ category ++ ")──→ " ++ toTaskId)
  | _, _ => (m, "Error: One or both tasks not found.")

def TaskNode.cancelled (task : TaskNode) (today : String) : TaskNode :=
  if task.status = "Cancelled" then task
  else
    { task with
      status := "Cancelled"
      updated := today
      logs := task.logs ++ [logLine today "Task and descendants cancelled recursively."] }

/-- What `cancel_recursive` does at a task: it is cancelled and its id noted, if it is not cancelled
yet. -/
def cancelOne (today : String) (state : Workspace × List String) (taskId : String) :
    Workspace × List String :=
  match getItem state.1 taskId with
  | some task =>
      (state.1.update taskId (·.cancelled today),
        if task.status = "Cancelled" then state.2 else state.2 ++ [taskId])
  | none => state

/-- `workspace_cancel_task`, `none` when the recursion is deeper than the interpreter allows.
Cancelling leaves the links as they are. -/
def workspaceCancelTask (limit : ℕ) (m : Workspace) (taskId today : String) :
    Option (Workspace × String) :=
  if (getItem m taskId).isNone then some (m, "Error: Task " ++ taskId ++ " not found.")
  else
    (visit m.dependents (cancelOne today) limit ([], (m, [])) taskId).map fun result =>
      (result.2.1, "Successfully cancelled task(s): " ++ ", ".intercalate result.2.2)

/-- `log_append`. -/
def logAppend (m : Workspace) (taskId message today : String) : Workspace × String :=
  if (getItem m taskId).isNone then (m, "Error: Task " ++ taskId ++ " not found.")
  else
    (m.update taskId fun task =>
        { task with logs := task.logs ++ [logLine today message], updated := today },
      "Log appended to " ++ taskId ++ ": " ++ message)

/-! ## The drawing -/

def TaskNode.line (task : TaskNode) : String :=
  "[" ++ task.taskId ++ ": " ++ task.title ++ "] " ++ task.status

/-- The task that a chain goes on with: the first dependent, if it is a task. -/
def nextTask (m : Workspace) (taskId : String) : Option String :=
  (m.dependents taskId).head?.filter fun id => (getItem m id).isSome

/-- The loop of `_render_ascii_dag` over the tasks: the state is what it has visited and drawn. A
chain that is longer than the bound does not end. -/
def drawTask (bound : ℕ) (m : Workspace) (state : List String × List String)
    (item : String × TaskNode) : Option (List String × List String) :=
  if item.1 ∈ state.1 then some state
  else if item.2.dependsOn ≠ [] then some state
  else
    (follow (nextTask m) bound item.1).map fun path =>
      (state.1 ++ path,
        state.2 ++ [" ──→ ".intercalate (path.filterMap fun id => (getItem m id).map TaskNode.line)])

/-- `_render_ascii_dag`. -/
def renderAsciiDag (bound : ℕ) (m : Workspace) : Option String :=
  (m.foldlM (drawTask bound m) ([], [])).map fun state =>
    let lines := if state.2 = [] then m.map fun item => item.2.line else state.2
    "\n↓\n".intercalate lines

/-! ## Runs -/

inductive Tool
  | addTask (args : AddTaskArgs) (today : String)
  | updateStatus (taskId status logMessage today : String)
  | linkTasks (fromTaskId toTaskId category : String)
  | cancelTask (taskId today : String)
  | appendLog (taskId message today : String)

/-- What is saved after a tool; one that raises saves nothing. -/
def Tool.apply (limit : ℕ) (m : Workspace) : Tool → Workspace
  | .addTask args today => (workspaceAddTask m args today).1
  | .updateStatus taskId status logMessage today =>
      ((workspaceUpdateStatus m taskId status logMessage today).map Prod.fst).getD m
  | .linkTasks fromTaskId toTaskId category => (workspaceLinkTasks m fromTaskId toTaskId category).1
  | .cancelTask taskId today =>
      ((workspaceCancelTask limit m taskId today).map Prod.fst).getD m
  | .appendLog taskId message today => (logAppend m taskId message today).1

def run (limit : ℕ) (tools : List Tool) : Workspace := tools.foldl (Tool.apply limit) []

/-! ## Both sides of a link -/

structure Mirrored (m : Workspace) : Prop where
  nodup : (m.map Prod.fst).Nodup
  links : ∀ a b, (m.dependents a).count b = (m.dependencies b).count a

section Update

variable {m : Workspace} {k a : String} {f : TaskNode → TaskNode}

lemma keys_update : (m.update k f).map Prod.fst = m.map Prod.fst := by
  rw [Workspace.update, List.map_map]
  refine List.map_congr_left fun item _ => ?_
  simp only [Function.comp_apply]
  split <;> rfl

lemma getItem_update (m : Workspace) (k a : String) (f : TaskNode → TaskNode) :
    getItem (m.update k f) a = if a = k then (getItem m a).map f else getItem m a := by
  induction m with
  | nil => simp [Workspace.update, getItem_nil]
  | cons item m ih =>
    obtain ⟨id, task⟩ := item
    rw [Workspace.update, List.map_cons]
    have hrest : getItem (m.map fun item => if item.1 = k then (item.1, f item.2) else item) a =
        if a = k then (getItem m a).map f else getItem m a := ih
    by_cases hid : id = k
    · rw [if_pos hid, getItem_cons, getItem_cons, hrest]
      by_cases ha : a = k
      · subst ha hid
        cases getItem m id <;> simp
      · simp [ha, show id ≠ a from fun h => ha (h ▸ hid)]
    · rw [if_neg hid, getItem_cons, getItem_cons, hrest]
      by_cases ha : a = k
      · subst ha
        simp [hid]
      · simp [ha]

lemma dependents_update (hf : ∀ task, (f task).dependedBy = task.dependedBy) :
    (m.update k f).dependents a = m.dependents a := by
  rw [Workspace.dependents, getItem_update]
  split
  · simp [Workspace.dependents, Option.map_map, Function.comp_def, hf]
  · rfl

lemma dependencies_update (hf : ∀ task, (f task).dependsOn = task.dependsOn) :
    (m.update k f).dependencies a = m.dependencies a := by
  rw [Workspace.dependencies, getItem_update]
  split
  · simp [Workspace.dependencies, Option.map_map, Function.comp_def, hf]
  · rfl

lemma Mirrored.update (h : Mirrored m) (hby : ∀ task, (f task).dependedBy = task.dependedBy)
    (hon : ∀ task, (f task).dependsOn = task.dependsOn) : Mirrored (m.update k f) where
  nodup := by
    rw [keys_update]
    exact h.nodup
  links a b := by rw [dependents_update hby, dependencies_update hon, h.links]

lemma dependents_addDependedBy (hk : (getItem m k).isSome) (link : Link) :
    (m.update k (.addDependedBy link)).dependents a =
      if a = k then m.dependents a ++ [link.id] else m.dependents a := by
  rw [Workspace.dependents, getItem_update]
  split
  · rename_i ha
    subst ha
    obtain ⟨task, htask⟩ := Option.isSome_iff_exists.mp hk
    simp [Workspace.dependents, htask, TaskNode.addDependedBy]
  · rfl

lemma dependencies_addDependsOn (hk : (getItem m k).isSome) (link : Link) :
    (m.update k (.addDependsOn link)).dependencies a =
      if a = k then m.dependencies a ++ [link.id] else m.dependencies a := by
  rw [Workspace.dependencies, getItem_update]
  split
  · rename_i ha
    subst ha
    obtain ⟨task, htask⟩ := Option.isSome_iff_exists.mp hk
    simp [Workspace.dependencies, htask, TaskNode.addDependsOn]
  · rfl

lemma isSome_getItem_update : (getItem (m.update k f) a).isSome = (getItem m a).isSome := by
  rw [getItem_update]
  split <;> simp

/-- A link is written at both tasks. -/
lemma Mirrored.addLink (h : Mirrored m) {a b : String} (c : String) (ha : (getItem m a).isSome)
    (hb : (getItem m b).isSome) :
    Mirrored ((m.update b (.addDependsOn ⟨a, c⟩)).update a (.addDependedBy ⟨b, c⟩)) where
  nodup := by
    rw [keys_update, keys_update]
    exact h.nodup
  links x y := by
    rw [dependents_addDependedBy (by rwa [isSome_getItem_update]),
      dependents_update (f := .addDependsOn ⟨a, c⟩) fun _ => rfl,
      dependencies_update (f := .addDependedBy ⟨b, c⟩) fun _ => rfl, dependencies_addDependsOn hb]
    have hlinks := h.links x y
    by_cases hx : x = a
    · by_cases hy : y = b
      · subst hx hy
        simp [hlinks]
      · rw [if_pos hx, if_neg hy, List.count_append, hlinks, hx]
        simp [Ne.symm hy]
    · by_cases hy : y = b
      · rw [if_neg hx, if_pos hy, List.count_append, hlinks, hy]
        simp [Ne.symm hx]
      · rw [if_neg hx, if_neg hy, hlinks]

end Update

lemma isSome_getItem_iff {m : Workspace} {a : String} :
    (getItem m a).isSome ↔ a ∈ m.map Prod.fst := by
  induction m with
  | nil => simp [getItem_nil]
  | cons item m ih =>
    obtain ⟨id, task⟩ := item
    rw [getItem_cons, Option.isSome_or, Bool.or_eq_true, ih, List.map_cons, List.mem_cons, or_comm]
    by_cases hid : id = a
    · simp [hid]
    · simp [hid, Ne.symm hid]

lemma Mirrored.addDependency {m : Workspace} (h : Mirrored m) {taskId : String}
    (hid : (getItem m taskId).isSome) (dep : Dependency) :
    Mirrored (addDependency taskId m dep) ∧ (getItem (addDependency taskId m dep) taskId).isSome := by
  unfold WorkspaceTasks.addDependency
  split
  · split
    · rename_i depId _ hdep
      exact ⟨h.addLink _ hdep hid, by rwa [isSome_getItem_update, isSome_getItem_update]⟩
    · exact ⟨h, hid⟩
  · exact ⟨h, hid⟩

/-- A task that is new has no links, and no task has one to it. -/
lemma Mirrored.addTask {m : Workspace} (h : Mirrored m) (args : AddTaskArgs) (today : String) :
    Mirrored (workspaceAddTask m args today).1 := by
  unfold workspaceAddTask
  split
  · exact h
  · rename_i hfresh
    set task : TaskNode :=
      { taskId := args.taskId, title := args.title, agent := args.agent, created := today,
        updated := today, description := args.description }
    have hnone : getItem m args.taskId = none := by simpa using hfresh
    have hnew : Mirrored (setItem m args.taskId task) := by
      refine ⟨setItem_nodup h.nodup _ _, fun a b => ?_⟩
      have hby : Workspace.dependents (setItem m args.taskId task) a = m.dependents a := by
        rw [Workspace.dependents, getItem_setItem h.nodup]
        split
        · rename_i ha
          simp [Workspace.dependents, ← ha, hnone, task]
        · rfl
      have hon : Workspace.dependencies (setItem m args.taskId task) b = m.dependencies b := by
        rw [Workspace.dependencies, getItem_setItem h.nodup]
        split
        · rename_i hb
          simp [Workspace.dependencies, ← hb, hnone, task]
        · rfl
      rw [hby, hon, h.links]
    have hid : (getItem (setItem m args.taskId task) args.taskId).isSome := by
      rw [getItem_setItem h.nodup, if_pos rfl]
      rfl
    have hfold : ∀ (deps : List Dependency) (m' : Workspace), Mirrored m' →
        (getItem m' args.taskId).isSome → Mirrored (deps.foldl (WorkspaceTasks.addDependency args.taskId) m') := by
      intro deps
      induction deps with
      | nil => exact fun m' h' _ => h'
      | cons dep deps ih =>
        intro m' h' hid'
        obtain ⟨hnext, hidnext⟩ := h'.addDependency hid' dep
        exact ih _ hnext hidnext
    exact hfold args.dependsOn _ hnew hid

lemma existsInDeps_iff {id : String} {deps : List Link} :
    existsInDeps id deps = true ↔ id ∈ deps.map Link.id := by
  simp [existsInDeps]

/-- Either both tasks have the link or none of them, so that it is written twice or not at all. -/
lemma Mirrored.linkTasks {m : Workspace} (h : Mirrored m) (a b category : String) :
    Mirrored (workspaceLinkTasks m a b category).1 := by
  unfold workspaceLinkTasks
  split
  · rename_i parent child hparent hchild
    have hsame : existsInDeps a child.dependsOn = existsInDeps b parent.dependedBy := by
      rw [Bool.eq_iff_iff, existsInDeps_iff, existsInDeps_iff]
      have hlinks := h.links a b
      simp only [Workspace.dependents, Workspace.dependencies, hparent, hchild, Option.map_some,
        Option.getD_some] at hlinks
      rw [← List.count_pos_iff, ← List.count_pos_iff, hlinks]
    simp only [hsame]
    split
    · exact h
    · exact h.addLink _ (by simp [hparent]) (by simp [hchild])
  · exact h

lemma cancelled_links (task : TaskNode) (today : String) :
    (task.cancelled today).dependedBy = task.dependedBy ∧
      (task.cancelled today).dependsOn = task.dependsOn := by
  unfold TaskNode.cancelled
  split <;> exact ⟨rfl, rfl⟩

lemma Mirrored.foldl_cancelOne {today : String} {order : List String}
    {state : Workspace × List String} (h : Mirrored state.1) :
    Mirrored (order.foldl (cancelOne today) state).1 := by
  induction order generalizing state with
  | nil => exact h
  | cons a order ih =>
    refine ih ?_
    unfold cancelOne
    split
    · exact h.update (fun task => (cancelled_links task today).1)
        fun task => (cancelled_links task today).2
    · exact h

lemma Mirrored.apply {limit : ℕ} {m : Workspace} (h : Mirrored m) (tool : Tool) :
    Mirrored (tool.apply limit m) := by
  cases tool with
  | addTask args today => exact h.addTask args today
  | updateStatus taskId status logMessage today =>
    simp only [Tool.apply, workspaceUpdateStatus]
    split
    · exact h
    · rename_i task _
      cases updatedLogs task.logs status logMessage today with
      | none => exact h
      | some logs =>
        simp only [Option.map_some, Option.getD_some]
        apply h.update <;> exact fun _ => rfl
  | linkTasks fromTaskId toTaskId category => exact h.linkTasks fromTaskId toTaskId category
  | cancelTask taskId today =>
    simp only [Tool.apply, workspaceCancelTask]
    split
    · exact h
    · cases hvisit : visit m.dependents (cancelOne today) limit ([], (m, [])) taskId with
      | none => exact h
      | some result =>
        obtain ⟨order, -, -, hresult⟩ := visit_outcome hvisit
        simp only [Option.map_some, Option.getD_some, hresult]
        exact Mirrored.foldl_cancelOne h
  | appendLog taskId message today =>
    simp only [Tool.apply, logAppend]
    split
    · exact h
    · simp only
      apply h.update <;> exact fun _ => rfl

/-- After every run of the tools a task is listed among the dependents of another just as often as
that one among its dependencies. -/
theorem mirrored_run (limit : ℕ) (tools : List Tool) : Mirrored (run limit tools) := by
  induction tools using List.reverseRecOn with
  | nil => exact ⟨List.nodup_nil, fun a b => rfl⟩
  | append_singleton tools tool ih =>
    rw [run, List.foldl_append]
    exact Mirrored.apply ih tool

/-! ## Cancelling -/

/-- The task waits for the other one, itself or through others. -/
def Workspace.WaitsFor (m : Workspace) (a b : String) : Prop :=
  Relation.ReflTransGen (fun x y => y ∈ m.dependencies x) a b

lemma Mirrored.mem_dependents_iff {m : Workspace} (h : Mirrored m) {a b : String} :
    b ∈ m.dependents a ↔ a ∈ m.dependencies b := by
  rw [← List.count_pos_iff, h.links, List.count_pos_iff]

lemma Mirrored.waitsFor_iff {m : Workspace} (h : Mirrored m) {a b : String} :
    m.WaitsFor a b ↔ Relation.ReflTransGen (Edge m.dependents) b a := by
  have hswap : Edge m.dependents = Function.swap fun x y => y ∈ m.dependencies x := by
    funext x y
    exact propext h.mem_dependents_iff
  rw [hswap, Relation.reflTransGen_swap]
  rfl

lemma Mirrored.closed {m : Workspace} (h : Mirrored m) : Closed m.dependents (m.map Prod.fst) := by
  intro a _ b hb
  rw [h.mem_dependents_iff, Workspace.dependencies] at hb
  rw [← isSome_getItem_iff]
  cases hget : getItem m b with
  | none => simp [hget] at hb
  | some task => rfl

lemma cancelOne_of_some {today a : String} {state : Workspace × List String} {task : TaskNode}
    (h : getItem state.1 a = some task) :
    cancelOne today state a = (state.1.update a (·.cancelled today),
      if task.status = "Cancelled" then state.2 else state.2 ++ [a]) := by
  rw [cancelOne, h]

/-- What is noted is what was not cancelled yet. -/
def Workspace.uncancelled (m : Workspace) (a : String) : Bool :=
  (getItem m a).any fun task => task.status ≠ "Cancelled"

lemma foldl_cancelOne {order : List String} (hnodup : order.Nodup) (today : String)
    (state : Workspace × List String) :
    (order.foldl (cancelOne today) state).1.map Prod.fst = state.1.map Prod.fst ∧
      (∀ a, getItem (order.foldl (cancelOne today) state).1 a =
        if a ∈ order then (getItem state.1 a).map (·.cancelled today) else getItem state.1 a) ∧
      (order.foldl (cancelOne today) state).2 = state.2 ++ order.filter state.1.uncancelled := by
  induction order generalizing state with
  | nil => exact ⟨rfl, fun a => by simp, by simp⟩
  | cons b order ih =>
    obtain ⟨hb, hnodup⟩ := List.nodup_cons.mp hnodup
    obtain ⟨hkeys, hget, hids⟩ := ih hnodup (cancelOne today state b)
    rw [List.foldl_cons]
    cases hfound : getItem state.1 b with
    | none =>
      have hsame : cancelOne today state b = state := by rw [cancelOne, hfound]
      rw [hsame] at hkeys hget hids ⊢
      refine ⟨hkeys, fun a => ?_, ?_⟩
      · rw [hget]
        by_cases ha : a = b
        · simp [ha, hfound]
        · simp [ha]
      · rw [hids, List.filter_cons_of_neg (by simp [Workspace.uncancelled, hfound])]
    | some task =>
      rw [cancelOne_of_some hfound] at hkeys hget hids ⊢
      refine ⟨by rw [hkeys, keys_update], fun a => ?_, ?_⟩
      · rw [hget, getItem_update]
        by_cases ha : a = b
        · subst ha
          simp [hb]
        · simp [ha]
      · have hrest : order.filter (Workspace.uncancelled (state.1.update b (·.cancelled today))) =
            order.filter state.1.uncancelled := by
          refine List.filter_congr fun a ha => ?_
          have hne : a ≠ b := fun heq => hb (heq ▸ ha)
          rw [Workspace.uncancelled, getItem_update, if_neg hne]
          rfl
        rw [hids, hrest]
        by_cases hstatus : task.status = "Cancelled"
        · rw [if_pos hstatus, List.filter_cons_of_neg (by simp [Workspace.uncancelled, hfound, hstatus])]
        · rw [if_neg hstatus, List.filter_cons_of_pos (by simp [Workspace.uncancelled, hfound, hstatus]),
            List.append_assoc, List.singleton_append]

/-- A task and one that waits for it, with a link back. -/
def feedbackLoop : List Tool :=
  [.addTask { taskId := "A", title := "a" } "d",
   .addTask { taskId := "B", title := "b", dependsOn := [.name "A"] } "d",
   .linkTasks "B" "A" "feedback_loop"]

/-- No chain of first dependents from the task comes to a cycle. -/
def Workspace.Ends (m : Workspace) (taskId : String) : Prop :=
  ∀ a, Relation.ReflTransGen (fun x y => nextTask m x = some y) taskId a →
    ¬ Relation.TransGen (fun x y => nextTask m x = some y) a a

lemma follow_isSome_iff_ends {m : Workspace} {bound : ℕ} (hbound : m.length ≤ bound)
    {taskId : String} (hid : taskId ∈ m.map Prod.fst) :
    (follow (nextTask m) bound taskId).isSome ↔ m.Ends taskId := by
  refine follow_isSome_iff (fun a _ b hnext => ?_) hid (by simpa using hbound)
  obtain ⟨-, hsome⟩ := Option.filter_eq_some_iff.mp hnext
  exact isSome_getItem_iff.mp hsome

/-- What lies on a chain that ends has one too. -/
lemma Workspace.Ends.of_mem {m : Workspace} {bound : ℕ} {taskId : String} {path : List String}
    (h : m.Ends taskId) (hpath : follow (nextTask m) bound taskId = some path) {a : String}
    (ha : a ∈ path) : m.Ends a :=
  fun b hreach => h b ((follow_reach hpath ha).trans hreach)

lemma foldlM_drawTask_isSome_iff {bound : ℕ} {m : Workspace} (hbound : m.length ≤ bound)
    {items : Workspace} (hitems : items ⊆ m) {state : List String × List String}
    (hstate : ∀ a ∈ state.1, m.Ends a) :
    (items.foldlM (drawTask bound m) state).isSome ↔
      ∀ item ∈ items, item.2.dependsOn = [] → m.Ends item.1 := by
  induction items generalizing state with
  | nil => simp
  | cons item items ih =>
    obtain ⟨hitem, hitems⟩ := List.cons_subset.mp hitems
    rw [List.foldlM_cons, List.forall_mem_cons]
    by_cases hvisited : item.1 ∈ state.1
    · have hsame : drawTask bound m state item = some state := by rw [drawTask, if_pos hvisited]
      rw [hsame, Option.bind_eq_bind, Option.bind_some, ih hitems hstate]
      exact ⟨fun h => ⟨fun _ => hstate _ hvisited, h⟩, fun h => h.2⟩
    by_cases hroot : item.2.dependsOn = []
    · have hends := follow_isSome_iff_ends hbound (List.mem_map_of_mem hitem)
      cases hpath : follow (nextTask m) bound item.1 with
      | none =>
        have hnone : drawTask bound m state item = none := by
          simp [drawTask, hvisited, hroot, hpath]
        rw [hpath] at hends
        simp only [hnone, Option.bind_eq_bind, Option.bind_none, Option.isSome_none,
          Bool.false_eq_true, false_iff]
        exact fun h => Bool.false_ne_true (hends.mpr (h.1 hroot))
      | some path =>
        rw [hpath] at hends
        have hitemEnds := hends.mp rfl
        have hnext : ∃ lines, drawTask bound m state item = some (state.1 ++ path, lines) :=
          ⟨_, by simp [drawTask, hvisited, hroot, hpath]; rfl⟩
        obtain ⟨lines, hlines⟩ := hnext
        rw [hlines, Option.bind_eq_bind, Option.bind_some, ih hitems fun a ha => ?_]
        · exact ⟨fun h => ⟨fun _ => hitemEnds, h⟩, fun h => h.2⟩
        · exact (List.mem_append.mp ha).elim (hstate a) fun ha => hitemEnds.of_mem hpath ha
    · have hsame : drawTask bound m state item = some state := by
        rw [drawTask, if_neg hvisited, if_pos hroot]
      rw [hsame, Option.bind_eq_bind, Option.bind_some, ih hitems hstate]
      exact ⟨fun h => ⟨fun hnil => absurd hnil hroot, h⟩, fun h => h.2⟩

/-- Drawing ends if the chain from every task without dependencies does. -/
theorem render_isSome_iff {bound : ℕ} {m : Workspace} (hbound : m.length ≤ bound) :
    (renderAsciiDag bound m).isSome ↔ ∀ item ∈ m, item.2.dependsOn = [] → m.Ends item.1 := by
  rw [renderAsciiDag, Option.isSome_map]
  exact foldlM_drawTask_isSome_iff hbound (List.Subset.refl m) fun a ha => absurd ha List.not_mem_nil

/-- Two tasks, one of them with a dependency on itself besides. -/
def selfDependency : Workspace :=
  run 10 [.addTask { taskId := "A", title := "a" } "d",
    .addTask { taskId := "B", title := "b", dependsOn := [.name "A", .name "B"] } "d"]

theorem render_isSome_iff_self :
    ¬ ∀ item ∈ selfDependency, item.2.dependsOn = [] → selfDependency.Ends item.1 := by
  intro h
  have hbound : selfDependency.length ≤ 2 := by decide
  have hdrawn := (render_isSome_iff hbound).mpr h
  exact absurd hdrawn (by decide)

/-- Without cycles of dependencies every drawing ends. -/
lemma render_isSome_of_acyclic {bound : ℕ} {m : Workspace} (hbound : m.length ≤ bound)
    (h : Acyclic m.dependents) : (renderAsciiDag bound m).isSome := by
  have hedge : ∀ x y, nextTask m x = some y → Edge m.dependents x y := fun x y hnext =>
    List.mem_of_mem_head? (Option.filter_eq_some_iff.mp hnext).1
  exact (render_isSome_iff hbound).mpr fun item _ _ a _ hcycle =>
    h a (Relation.TransGen.mono hedge a a hcycle)

end AgentSystem.WorkspaceTasks
