import AgentSystem.ParallelWaves
import AgentSystem.PySequence

/-!
# Custom plans

`decompose_custom_plan` orders the tasks of a plan that share a scope, pair by pair, and checks the plan for
cycles. Which dependencies it adds depends on the given ones of the pair alone.
-/
namespace AgentSystem.Factory

open PySequence (fromPairs)

namespace RefactoringTaskNode

/-- `shares_scope_with`. -/
def sharesScopeWith (lower : String → String) (node other : RefactoringTaskNode) : Bool :=
  (normalisedScope lower node).any fun file => file ∈ normalisedScope lower other

/-- `self.dependencies.append(id)`. -/
def waitFor (node : RefactoringTaskNode) (id : String) : RefactoringTaskNode :=
  { node with dependencies := node.dependencies ++ [id] }

end RefactoringTaskNode

variable (lower : String → String)

/-- One pair of tasks: of two that share a scope the one of the lower priority waits, unless one of them waits
for the other already. -/
def serializePair (a b : RefactoringTaskNode) : RefactoringTaskNode × RefactoringTaskNode :=
  if a.sharesScopeWith lower b then
    if b.priority ≤ a.priority then
      if a.nodeId ∉ b.dependencies ∧ b.nodeId ∉ a.dependencies then (a, b.waitFor a.nodeId) else (a, b)
    else if b.nodeId ∉ a.dependencies ∧ a.nodeId ∉ b.dependencies then (a.waitFor b.nodeId, b)
    else (a, b)
  else (a, b)

/-- The inner loop, over the tasks after the first one. -/
def serializeWith (a : RefactoringTaskNode) : List RefactoringTaskNode →
    RefactoringTaskNode × List RefactoringTaskNode
  | [] => (a, [])
  | b :: rest =>
      let pair := serializePair lower a b
      let (last, others) := serializeWith pair.1 rest
      (last, pair.2 :: others)

/-- The outer loop, over at most so many tasks. -/
def serialize : ℕ → List RefactoringTaskNode → List RefactoringTaskNode
  | 0, tasks => tasks
  | _, [] => []
  | n + 1, a :: rest => (serializeWith lower a rest).1 :: serialize n (serializeWith lower a rest).2

/-- `dag.nodes.values()` after the tasks are added. -/
def taskList (tasks : List RefactoringTaskNode) : List RefactoringTaskNode :=
  (fromPairs (tasks.map fun task => (task.nodeId, task))).map Prod.snd

lemma taskList_nodup (tasks : List RefactoringTaskNode) :
    ((taskList tasks).map RefactoringTaskNode.nodeId).Nodup := by
  have hkeys : (fromPairs (tasks.map fun task => (task.nodeId, task))).map Prod.fst =
      (taskList tasks).map RefactoringTaskNode.nodeId := by
    rw [taskList, List.map_map]
    refine List.map_congr_left fun entry hentry => ?_
    obtain ⟨task, -, rfl⟩ := List.mem_map.mp (PySequence.mem_of_mem_fromPairs hentry)
    rfl
  rw [← hkeys]
  exact PySequence.fromPairs_nodup _

lemma taskList_of_nodup {tasks : List RefactoringTaskNode}
    (h : (tasks.map RefactoringTaskNode.nodeId).Nodup) : taskList tasks = tasks := by
  rw [taskList, PySequence.fromPairs_of_nodup, List.map_map]
  · exact List.map_id tasks
  · rwa [List.map_map]

/-! ## The dependencies that are added -/

/-- The tasks share a scope, and neither waits for the other by itself. -/
def Contend (a b : RefactoringTaskNode) : Prop :=
  a.sharesScopeWith lower b = true ∧ a.nodeId ∉ b.dependencies ∧ b.nodeId ∉ a.dependencies

/-- One id stands before the other. -/
def Earlier (ids : List String) (x y : String) : Prop := [x, y].Sublist ids

/-- The first one of two contending tasks: that of the higher priority, or the earlier one. -/
def GoesFirst (tasks : List RefactoringTaskNode) (a b : RefactoringTaskNode) : Prop :=
  Contend lower a b ∧
    (Earlier (tasks.map RefactoringTaskNode.nodeId) a.nodeId b.nodeId ∧ b.priority ≤ a.priority ∨
      Earlier (tasks.map RefactoringTaskNode.nodeId) b.nodeId a.nodeId ∧ b.priority < a.priority)

/-- The task with these dependencies more. -/
structure Grown (task grown : RefactoringTaskNode) (extra : String → Prop) : Prop where
  nodeId : grown.nodeId = task.nodeId
  mutableScope : grown.mutableScope = task.mutableScope
  priority : grown.priority = task.priority
  dependencies : ∀ x, x ∈ grown.dependencies ↔ x ∈ task.dependencies ∨ extra x

variable {lower} {a b c d a' b' : RefactoringTaskNode} {rest tasks : List RefactoringTaskNode}
  {P Q : String → Prop}

lemma Grown.refl (h : ∀ x, ¬ P x) : Grown a a P := ⟨rfl, rfl, rfl, fun x => (or_iff_left (h x)).symm⟩

lemma Grown.waitFor (id : String) : Grown a (a.waitFor id) (· = id) :=
  ⟨rfl, rfl, rfl, fun x => by simp [RefactoringTaskNode.waitFor]⟩

lemma Grown.trans (h : Grown a b P) (h' : Grown b c Q) : Grown a c fun x => P x ∨ Q x where
  nodeId := h'.nodeId.trans h.nodeId
  mutableScope := h'.mutableScope.trans h.mutableScope
  priority := h'.priority.trans h.priority
  dependencies x := by rw [h'.dependencies, h.dependencies, or_assoc]

lemma Grown.congr (h : Grown a b P) (hpq : ∀ x, P x ↔ Q x) : Grown a b Q :=
  ⟨h.nodeId, h.mutableScope, h.priority, fun x => by rw [h.dependencies, hpq]⟩

lemma sharesScopeWith_congr (ha : a'.mutableScope = a.mutableScope) (hb : b'.mutableScope = b.mutableScope) :
    a'.sharesScopeWith lower b' = a.sharesScopeWith lower b := by
  unfold RefactoringTaskNode.sharesScopeWith normalisedScope
  rw [ha, hb]

lemma sharesScopeWith_comm : a.sharesScopeWith lower b = true ↔ b.sharesScopeWith lower a = true := by
  simp only [RefactoringTaskNode.sharesScopeWith, List.any_eq_true, decide_eq_true_eq]
  exact ⟨fun ⟨file, h, h'⟩ => ⟨file, h', h⟩, fun ⟨file, h, h'⟩ => ⟨file, h', h⟩⟩

lemma Contend.symm (h : Contend lower a b) : Contend lower b a := ⟨sharesScopeWith_comm.mp h.1, h.2.2, h.2.1⟩

/-- Dependencies on others do not change whether two tasks contend. -/
lemma contend_congr (ha : Grown a a' P) (hb : Grown b b' Q) (hp : ¬ P b.nodeId) (hq : ¬ Q a.nodeId) :
    Contend lower a' b' ↔ Contend lower a b := by
  unfold Contend
  rw [sharesScopeWith_congr ha.mutableScope hb.mutableScope, ha.nodeId, hb.nodeId, ha.dependencies,
    hb.dependencies, or_iff_left hp, or_iff_left hq]

lemma serializePair_spec : Grown a (serializePair lower a b).1
      (fun x => x = b.nodeId ∧ Contend lower a b ∧ a.priority < b.priority) ∧
    Grown b (serializePair lower a b).2
      (fun x => x = a.nodeId ∧ Contend lower a b ∧ b.priority ≤ a.priority) := by
  unfold serializePair Contend
  split_ifs with hshares hpriority hfree hfree
  · refine ⟨Grown.refl fun x h => not_lt.mpr hpriority h.2.2, (Grown.waitFor a.nodeId).congr fun x => ?_⟩
    exact (and_iff_left ⟨⟨hshares, hfree⟩, hpriority⟩).symm
  · exact ⟨Grown.refl fun x h => hfree h.2.1.2, Grown.refl fun x h => hfree h.2.1.2⟩
  · refine ⟨(Grown.waitFor b.nodeId).congr fun x => ?_, Grown.refl fun x h => hpriority h.2.2⟩
    exact (and_iff_left ⟨⟨hshares, hfree.2, hfree.1⟩, not_le.mp hpriority⟩).symm
  · exact ⟨Grown.refl fun x h => hfree h.2.1.2.symm, Grown.refl fun x h => hfree h.2.1.2.symm⟩
  · exact ⟨Grown.refl fun x h => hshares h.2.1.1, Grown.refl fun x h => hshares h.2.1.1⟩

variable (lower) in
/-- The task of the outer loop waits for those of a higher priority, and the others of the loop for it. -/
lemma serializeWith_spec (hnodup : (a.nodeId :: rest.map RefactoringTaskNode.nodeId).Nodup) :
    Grown a (serializeWith lower a rest).1
        (fun x => ∃ b ∈ rest, x = b.nodeId ∧ Contend lower a b ∧ a.priority < b.priority) ∧
      (serializeWith lower a rest).2.map RefactoringTaskNode.nodeId = rest.map RefactoringTaskNode.nodeId ∧
      ∀ b ∈ rest, ∀ b' ∈ (serializeWith lower a rest).2, b'.nodeId = b.nodeId →
        Grown b b' fun x => x = a.nodeId ∧ Contend lower a b ∧ b.priority ≤ a.priority := by
  induction rest generalizing a with
  | nil => exact ⟨Grown.refl fun x h => by simp at h, rfl, by simp⟩
  | cons b rest ih =>
    obtain ⟨hfirst, hsecond⟩ : Grown a (serializePair lower a b).1 _ ∧ Grown b (serializePair lower a b).2 _ :=
      serializePair_spec
    have hids := hnodup
    rw [List.map_cons, List.nodup_cons, List.nodup_cons, List.mem_cons, not_or] at hids
    obtain ⟨⟨hab, ha⟩, hb, hrest⟩ := hids
    have hother : ∀ c ∈ rest, c.nodeId ≠ b.nodeId := fun c hc heq => hb (heq ▸ List.mem_map_of_mem hc)
    have hcontend : ∀ c ∈ rest, Contend lower (serializePair lower a b).1 c ↔ Contend lower a c := fun c hc =>
      contend_congr hfirst (Grown.refl fun _ => not_false) (fun h => hother c hc h.1) not_false
    obtain ⟨hlast, hkept, hothers⟩ :=
      ih (by rw [hfirst.nodeId]; exact List.nodup_cons.mpr ⟨ha, hrest⟩)
    refine ⟨(hfirst.trans hlast).congr fun x => ?_, ?_, ?_⟩
    · rw [hfirst.priority, List.exists_mem_cons_iff]
      exact or_congr_right (exists_congr fun c => and_congr_right fun hc => by rw [hcontend c hc])
    · change (serializePair lower a b).2.nodeId :: (serializeWith lower _ rest).2.map _ = _
      rw [hkept, hsecond.nodeId, List.map_cons]
    · intro c hc c' hc' heq
      rcases List.mem_cons.mp hc with rfl | hc
      · rcases List.mem_cons.mp hc' with rfl | hc'
        · exact hsecond
        · exact absurd (hkept ▸ List.mem_map_of_mem hc') (heq ▸ hb)
      · rcases List.mem_cons.mp hc' with rfl | hc'
        · exact absurd (heq.symm.trans hsecond.nodeId) (hother c hc)
        · refine (hothers c hc c' hc' heq).congr fun x => ?_
          rw [hfirst.nodeId, hfirst.priority, hcontend c hc]

lemma earlier_cons {ids : List String} {first x y : String} :
    Earlier (first :: ids) x y ↔ x = first ∧ y ∈ ids ∨ Earlier ids x y := by
  unfold Earlier
  rw [List.sublist_cons_iff, or_comm]
  refine or_congr_left ?_
  constructor
  · rintro ⟨others, heq, hsub⟩
    obtain ⟨rfl, rfl⟩ := List.cons.inj heq
    exact ⟨rfl, List.singleton_sublist.mp hsub⟩
  · rintro ⟨rfl, hy⟩
    exact ⟨[y], rfl, List.singleton_sublist.mpr hy⟩

lemma Earlier.mem {ids : List String} {x y : String} (h : Earlier ids x y) : x ∈ ids ∧ y ∈ ids :=
  ⟨h.subset (by simp), h.subset (by simp)⟩

lemma goesFirst_tail (hb : b.nodeId ≠ a.nodeId) (hc : c.nodeId ≠ a.nodeId) :
    GoesFirst lower (a :: rest) c b ↔ GoesFirst lower rest c b := by
  have hearlier : ∀ x y, x ≠ a.nodeId → (Earlier (a.nodeId :: rest.map RefactoringTaskNode.nodeId) x y ↔
      Earlier (rest.map RefactoringTaskNode.nodeId) x y) := fun x y hx =>
    earlier_cons.trans (or_iff_right fun h => hx h.1)
  unfold GoesFirst
  rw [List.map_cons, hearlier _ _ hb, hearlier _ _ hc]

/-- The first task goes before one of the rest. -/
lemma goesFirst_first (hb : b.nodeId ∈ rest.map RefactoringTaskNode.nodeId)
    (ha : a.nodeId ∉ rest.map RefactoringTaskNode.nodeId) :
    GoesFirst lower (a :: rest) a b ↔ Contend lower a b ∧ b.priority ≤ a.priority := by
  unfold GoesFirst
  rw [List.map_cons, earlier_cons, earlier_cons]
  refine and_congr_right fun _ => ⟨fun h => ?_, fun h => .inl ⟨.inl ⟨rfl, hb⟩, h⟩⟩
  rcases h with h | ⟨h | h, -⟩
  · exact h.2
  · exact absurd h.2 ha
  · exact absurd h.mem.2 ha

/-- One of the rest goes before the first task. -/
lemma goesFirst_last (hb : b.nodeId ∈ rest.map RefactoringTaskNode.nodeId)
    (ha : a.nodeId ∉ rest.map RefactoringTaskNode.nodeId) :
    GoesFirst lower (a :: rest) b a ↔ Contend lower a b ∧ a.priority < b.priority := by
  unfold GoesFirst
  rw [List.map_cons, earlier_cons, earlier_cons]
  refine and_congr ⟨Contend.symm, Contend.symm⟩ ⟨fun h => ?_, fun h => .inr ⟨.inl ⟨rfl, hb⟩, h⟩⟩
  rcases h with ⟨h | h, -⟩ | h
  · exact absurd h.2 ha
  · exact absurd h.mem.2 ha
  · exact h.2

variable (lower) in
/-- All pairs are ordered as their tasks are given. -/
lemma serialize_spec {n : ℕ} (hlength : tasks.length ≤ n) (hnodup : (tasks.map RefactoringTaskNode.nodeId).Nodup) :
    (serialize lower n tasks).map RefactoringTaskNode.nodeId = tasks.map RefactoringTaskNode.nodeId ∧
      ∀ b ∈ tasks, ∀ b' ∈ serialize lower n tasks, b'.nodeId = b.nodeId →
        Grown b b' fun x => ∃ a ∈ tasks, x = a.nodeId ∧ GoesFirst lower tasks a b := by
  induction n generalizing tasks with
  | zero =>
    obtain rfl := List.length_eq_zero_iff.mp (Nat.le_zero.mp hlength)
    exact ⟨rfl, by simp⟩
  | succ n ih =>
    cases tasks with
    | nil => exact ⟨rfl, by simp⟩
    | cons a rest =>
      obtain ⟨hfirst, hids, hothers⟩ := serializeWith_spec lower hnodup
      rw [List.map_cons, List.nodup_cons] at hnodup
      obtain ⟨ha, hrest⟩ := hnodup
      have hshorter : (serializeWith lower a rest).2.length ≤ n := by
        rw [← List.length_map RefactoringTaskNode.nodeId, hids, List.length_map]
        exact Nat.le_of_succ_le_succ hlength
      obtain ⟨hkept, hgrown⟩ := ih hshorter (hids ▸ hrest)
      have hold : ∀ b ∈ rest, ∃ b' ∈ (serializeWith lower a rest).2, b'.nodeId = b.nodeId := fun b hb =>
        List.mem_map.mp (hids ▸ List.mem_map_of_mem hb)
      have hne : ∀ b ∈ rest, b.nodeId ≠ a.nodeId := fun b hb heq => ha (heq ▸ List.mem_map_of_mem hb)
      refine ⟨?_, fun b hb b' hb' heq => ?_⟩
      · change (serializeWith lower a rest).1.nodeId :: (serialize lower n _).map _ = _
        rw [hkept, hids, hfirst.nodeId, List.map_cons]
      · rcases List.mem_cons.mp hb with rfl | hb <;> rcases List.mem_cons.mp hb' with rfl | hb'
        · refine hfirst.congr fun x => ?_
          rw [List.exists_mem_cons_iff, or_iff_right]
          · refine exists_congr fun c => and_congr_right fun hc => and_congr_right fun _ => ?_
            exact (goesFirst_last (List.mem_map_of_mem hc) ha).symm
          · rintro ⟨-, -, ⟨h, -⟩ | ⟨h, -⟩⟩
            · exact (earlier_cons.mp h).elim (fun h => ha h.2) fun h => ha h.mem.2
            · exact (earlier_cons.mp h).elim (fun h => ha h.2) fun h => ha h.mem.2
        · exact absurd (heq ▸ hids ▸ hkept ▸ List.mem_map_of_mem hb') ha
        · exact absurd (heq.symm.trans hfirst.nodeId) (hne b hb)
        · obtain ⟨b₁, hb₁, heq₁⟩ := hold b hb
          have hwith := hothers b hb b₁ hb₁ heq₁
          refine (hwith.trans (hgrown b₁ hb₁ b' hb' (heq.trans heq₁.symm))).congr fun x => ?_
          rw [List.exists_mem_cons_iff]
          refine or_congr ?_ ?_
          · exact and_congr_right fun _ => (goesFirst_first (List.mem_map_of_mem hb) ha).symm
          · have hsame : ∀ c ∈ rest, ∀ c₁ ∈ (serializeWith lower a rest).2, c₁.nodeId = c.nodeId →
                (GoesFirst lower (serializeWith lower a rest).2 c₁ b₁ ↔ GoesFirst lower (a :: rest) c b) := by
              intro c hc c₁ hc₁ heqc
              have hgrownc := hothers c hc c₁ hc₁ heqc
              rw [goesFirst_tail (hne b hb) (hne c hc)]
              unfold GoesFirst
              rw [hids, heqc, heq₁, hwith.priority, hgrownc.priority,
                contend_congr hgrownc hwith (fun h => hne b hb h.1) fun h => hne c hc h.1]
            constructor
            · rintro ⟨c₁, hc₁, rfl, hgoes⟩
              obtain ⟨c, hc, heqc⟩ := List.mem_map.mp (hids ▸ List.mem_map_of_mem hc₁)
              exact ⟨c, hc, heqc.symm, (hsame c hc c₁ hc₁ heqc.symm).mp hgoes⟩
            · rintro ⟨c, hc, rfl, hgoes⟩
              obtain ⟨c₁, hc₁, heqc⟩ := hold c hc
              exact ⟨c₁, hc₁, heqc.symm, (hsame c hc c₁ hc₁ heqc).mpr hgoes⟩

/-! ## The plan -/

variable (lower)

/-- The graph of the tasks after the loops, each under its id. -/
def planDag (tasks : List RefactoringTaskNode) : RefactoringTaskDag where
  nodes := (serialize lower (taskList tasks).length (taskList tasks)).map fun task => (task.nodeId, task)
  nodup := by
    rw [List.map_map]
    change ((serialize lower _ _).map RefactoringTaskNode.nodeId).Nodup
    rw [(serialize_spec lower le_rfl (taskList_nodup tasks)).1]
    exact taskList_nodup tasks

/-- `decompose_custom_plan`, `none` when the fuel of the check runs out. -/
def decomposeCustomPlan (fuel : ℕ) (tasks : List RefactoringTaskNode) :
    Option (Except String RefactoringTaskDag) := do
  match ← (planDag lower tasks).validateAcyclic fuel with
  | .error error => pure (.error error)
  | .ok () => pure (.ok (planDag lower tasks))

/-- The given dependencies. -/
def Given (tasks : List RefactoringTaskNode) (dep id : String) : Prop :=
  ∃ task ∈ tasks, task.nodeId = id ∧ dep ∈ task.dependencies

/-- A task waits for another one by itself, or because the other one goes first of the two. -/
def Waits (tasks : List RefactoringTaskNode) (dep id : String) : Prop :=
  ∃ b ∈ tasks, b.nodeId = id ∧ (dep ∈ b.dependencies ∨ ∃ a ∈ tasks, dep = a.nodeId ∧ GoesFirst lower tasks a b)

variable (hnodup : (tasks.map RefactoringTaskNode.nodeId).Nodup)

include hnodup

lemma planDag_nodes : (planDag lower tasks).nodes =
    (serialize lower tasks.length tasks).map fun task => (task.nodeId, task) := by
  change (serialize lower (taskList tasks).length (taskList tasks)).map _ = _
  rw [taskList_of_nodup hnodup]

lemma planDag_length : (planDag lower tasks).nodes.length = tasks.length := by
  rw [planDag_nodes lower hnodup, List.length_map, ← List.length_map RefactoringTaskNode.nodeId,
    (serialize_spec lower le_rfl hnodup).1, List.length_map]

/-- What a task of the plan waits for. -/
lemma planDag_dependsOn : (planDag lower tasks).DependsOn = Waits lower tasks := by
  obtain ⟨hids, hgrown⟩ := serialize_spec lower le_rfl hnodup
  funext dep id
  refine propext ?_
  unfold RefactoringTaskDag.DependsOn Waits
  rw [planDag_nodes lower hnodup]
  constructor
  · rintro ⟨entry, hentry, rfl, hdep⟩
    obtain ⟨b', hb', rfl⟩ := List.mem_map.mp hentry
    obtain ⟨b, hb, heq⟩ := List.mem_map.mp (hids ▸ List.mem_map_of_mem hb')
    exact ⟨b, hb, heq, ((hgrown b hb b' hb' heq.symm).dependencies dep).mp hdep⟩
  · rintro ⟨b, hb, rfl, hdep⟩
    obtain ⟨b', hb', heq⟩ := List.mem_map.mp (hids.symm ▸ List.mem_map_of_mem hb)
    exact ⟨_, List.mem_map_of_mem hb', heq, ((hgrown b hb b' hb' heq).dependencies dep).mpr hdep⟩

omit hnodup

lemma earlier_total {ids : List String} {x y : String} (hx : x ∈ ids) (hy : y ∈ ids) (hne : x ≠ y) :
    Earlier ids x y ∨ Earlier ids y x := by
  induction ids with
  | nil => simp at hx
  | cons first ids ih =>
    rw [earlier_cons, earlier_cons]
    rcases List.mem_cons.mp hx with rfl | hx'
    · exact .inl (.inl ⟨rfl, (List.mem_cons.mp hy).resolve_left hne.symm⟩)
    · rcases List.mem_cons.mp hy with rfl | hy'
      · exact .inr (.inl ⟨rfl, hx'⟩)
      · exact (ih hx' hy').imp .inr .inr

variable {lower} in
/-- Of two tasks that share a scope one waits for the other. -/
lemma waits_of_shares (ha : a ∈ tasks) (hb : b ∈ tasks) (hne : a.nodeId ≠ b.nodeId)
    (hshares : a.sharesScopeWith lower b = true) :
    Waits lower tasks a.nodeId b.nodeId ∨ Waits lower tasks b.nodeId a.nodeId := by
  by_cases hab : a.nodeId ∈ b.dependencies
  · exact .inl ⟨b, hb, rfl, .inl hab⟩
  by_cases hba : b.nodeId ∈ a.dependencies
  · exact .inr ⟨a, ha, rfl, .inl hba⟩
  have hcontend : Contend lower a b := ⟨hshares, hab, hba⟩
  have hfirst : GoesFirst lower tasks a b ∨ GoesFirst lower tasks b a := by
    rcases earlier_total (List.mem_map_of_mem ha) (List.mem_map_of_mem hb) hne with h | h
    · rcases le_or_gt b.priority a.priority with hle | hlt
      · exact .inl ⟨hcontend, .inl ⟨h, hle⟩⟩
      · exact .inr ⟨hcontend.symm, .inr ⟨h, hlt⟩⟩
    · rcases le_or_gt a.priority b.priority with hle | hlt
      · exact .inr ⟨hcontend.symm, .inl ⟨h, hle⟩⟩
      · exact .inl ⟨hcontend, .inr ⟨h, hlt⟩⟩
  exact hfirst.imp (fun h => ⟨b, hb, rfl, .inr ⟨a, ha, rfl, h⟩⟩) fun h => ⟨a, ha, rfl, .inr ⟨b, hb, rfl, h⟩⟩

/-- A plan is returned exactly when no task waits for itself, and raised on otherwise. -/
lemma decomposeCustomPlan_ends (hnodup : (tasks.map RefactoringTaskNode.nodeId).Nodup) {fuel : ℕ}
    (hfuel : tasks.length ≤ fuel) :
    (∀ id, ¬ Relation.TransGen (Waits lower tasks) id id) ∧
        decomposeCustomPlan lower fuel tasks = some (.ok (planDag lower tasks)) ∨
      (∃ id, Relation.TransGen (Waits lower tasks) id id) ∧
        decomposeCustomPlan lower fuel tasks = some (.error RefactoringTaskDag.cycleDetected) := by
  have hlength := (planDag_length lower hnodup).trans_le hfuel
  have hcycle : (planDag lower tasks).HasCycle ↔ ∃ id, Relation.TransGen (Waits lower tasks) id id := by
    rw [RefactoringTaskDag.HasCycle, planDag_dependsOn lower hnodup]
  unfold decomposeCustomPlan
  by_cases h : (planDag lower tasks).HasCycle
  · rw [RefactoringTaskDag.validateAcyclic_cycle h hlength]
    exact .inr ⟨hcycle.mp h, rfl⟩
  · rw [RefactoringTaskDag.validateAcyclic_acyclic h hlength]
    exact .inl ⟨not_exists.mp (hcycle.not.mp h), rfl⟩

/-- A plan without a cycle that keeps the given dependencies and orders all tasks that share a scope. -/
structure Serialised (tasks : List RefactoringTaskNode) (dag : RefactoringTaskDag) : Prop where
  acyclic : ¬ dag.HasCycle
  given : ∀ dep id, Given tasks dep id → dag.DependsOn dep id
  ordered : ∀ a ∈ tasks, ∀ b ∈ tasks, a.nodeId ≠ b.nodeId → a.sharesScopeWith lower b = true →
    Relation.TransGen dag.DependsOn a.nodeId b.nodeId ∨ Relation.TransGen dag.DependsOn b.nodeId a.nodeId

/-- `decompose_custom_plan` returns a serialised plan exactly when no cycle joins the given dependencies with
those of the tasks that go first. -/
theorem decomposeCustomPlan_serialised_iff (tasks : List RefactoringTaskNode)
    (hnodup : (tasks.map RefactoringTaskNode.nodeId).Nodup) (fuel : ℕ) (hfuel : tasks.length ≤ fuel) :
    (∃ dag, decomposeCustomPlan lower fuel tasks = some (.ok dag) ∧ Serialised lower tasks dag) ↔
      ∀ id, ¬ Relation.TransGen (Waits lower tasks) id id := by
  rcases decomposeCustomPlan_ends lower hnodup hfuel with ⟨hacyclic, hrun⟩ | ⟨⟨id, hcycle⟩, hrun⟩
  · refine iff_of_true ⟨planDag lower tasks, hrun, ?_, ?_, ?_⟩ hacyclic
    · rw [RefactoringTaskDag.HasCycle, planDag_dependsOn lower hnodup]
      exact not_exists.mpr hacyclic
    · rintro dep id ⟨task, htask, hid, hdep⟩
      rw [planDag_dependsOn lower hnodup]
      exact ⟨task, htask, hid, .inl hdep⟩
    · intro a ha b hb hne hshares
      rw [planDag_dependsOn lower hnodup]
      exact (waits_of_shares ha hb hne hshares).imp .single .single
  · refine iff_of_false ?_ fun hacyclic => hacyclic id hcycle
    rintro ⟨dag, hdag, -⟩
    rw [hrun] at hdag
    cases hdag

/-- A chain of three tasks; the last one is given first and edits the file of the first one. -/
def sampleTasks : List RefactoringTaskNode :=
  [⟨"migrate", ["src/core.py"], ["harden"], 1, 1⟩, ⟨"harden", ["src/api.py"], ["extract"], 1, 1⟩,
    ⟨"extract", ["src\\core.py"], [], 1, 1⟩]

theorem decomposeCustomPlan_serialised_sample :
    (∃ dag, decomposeCustomPlan String.toLower 3 sampleTasks = some (.ok dag) ∧
        Serialised String.toLower sampleTasks dag) ↔
      ∀ id, ¬ Relation.TransGen (Waits String.toLower sampleTasks) id id :=
  decomposeCustomPlan_serialised_iff String.toLower sampleTasks (by decide) 3 (by decide)

lemma sampleTasks_given {dep id : String} (h : Given sampleTasks dep id) :
    (dep, id) = ("harden", "migrate") ∨ (dep, id) = ("extract", "harden") := by
  obtain ⟨task, htask, rfl, hdep⟩ := h
  revert dep task
  simp [sampleTasks]

/-- The last task of the chain is made to wait for the first one. -/
lemma sampleTasks_goesFirst : GoesFirst String.toLower sampleTasks sampleTasks[0] sampleTasks[2] :=
  ⟨⟨by decide +kernel, by decide, by decide⟩, .inl ⟨by unfold Earlier; decide, by decide⟩⟩

/-- Tasks without a cycle whose plan is refused. -/
theorem decomposeCustomPlan_not_serialised :
    ¬ ∀ tasks : List RefactoringTaskNode, (tasks.map RefactoringTaskNode.nodeId).Nodup →
      (∀ dep id, Given tasks dep id → dep ∈ tasks.map RefactoringTaskNode.nodeId) →
      (∀ id, ¬ Relation.TransGen (Given tasks) id id) →
      ∃ dag, decomposeCustomPlan String.toLower tasks.length tasks = some (.ok dag) ∧
        Serialised String.toLower tasks dag := by
  intro hclaim
  have hclosed : ∀ dep id, Given sampleTasks dep id → dep ∈ sampleTasks.map RefactoringTaskNode.nodeId := by
    intro dep id h
    rcases sampleTasks_given h with h | h <;> cases h <;> decide
  have hacyclic : ∀ id, ¬ Relation.TransGen (Given sampleTasks) id id := by
    intro id hcycle
    let place := fun id => ["extract", "harden"].idxOf id
    have hplace : Relation.TransGen (fun m n : ℕ => m < n) (place id) (place id) := by
      refine hcycle.lift place fun dep id h => ?_
      rcases sampleTasks_given h with h | h <;> cases h <;> decide
    rw [Relation.transGen_eq_self] at hplace
    exact lt_irrefl _ hplace
  have hnodup : (sampleTasks.map RefactoringTaskNode.nodeId).Nodup := by decide
  obtain ⟨dag, hdag, -⟩ := hclaim sampleTasks hnodup hclosed hacyclic
  have hback : Waits String.toLower sampleTasks "migrate" "extract" :=
    ⟨sampleTasks[2], by simp, rfl, .inr ⟨sampleTasks[0], by simp, rfl, sampleTasks_goesFirst⟩⟩
  have hchain : Waits String.toLower sampleTasks "extract" "harden" ∧
      Waits String.toLower sampleTasks "harden" "migrate" :=
    ⟨⟨sampleTasks[1], by simp, rfl, .inl (by decide)⟩, ⟨sampleTasks[0], by simp, rfl, .inl (by decide)⟩⟩
  rcases decomposeCustomPlan_ends String.toLower hnodup le_rfl with ⟨hnone, -⟩ | ⟨-, hrun⟩
  · exact hnone "migrate" (((Relation.TransGen.single hback).tail hchain.1).tail hchain.2)
  · cases hrun.symm.trans hdag

end AgentSystem.Factory
