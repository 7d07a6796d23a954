import AgentSystem.Interleaving
import AgentSystem.KeyedTable

/-!
# Heartbeats of the swarm

`SwarmCoordinator` with threads whose critical sections come in any order. A scan under the lock decides which
nodes are stale; each of them is removed under the lock later on, whatever has become of it.
-/
namespace AgentSystem.Swarm

open Interleaving

variable {τ : Type}

/-- An entry of `_nodes`. -/
structure Node (τ : Type) where
  nodeId : String
  role : String
  status : String
  lastSeen : τ
  load : ℕ
  deriving DecidableEq

structure FailureEvent (τ : Type) where
  timestamp : τ
  nodeId : String
  role : String
  reason : String
  deriving DecidableEq

/-- A scan that has not removed all of its stale nodes. -/
structure Scan (τ : Type) where
  now : τ
  timeout : τ
  staleNodes : List String
  deriving DecidableEq

/-- A node that a scan removed. -/
structure Eviction (τ : Type) where
  node : Node τ
  now : τ
  timeout : τ
  deriving DecidableEq

/-- The class attributes, with the history of what scans removed. -/
structure Registry (τ : Type) where
  nodes : KeyedTable (Node τ) Node.nodeId := KeyedTable.empty
  failureLogs : List (FailureEvent τ) := []
  evictions : List (Eviction τ) := []

/-- How far a thread is: between calls, with the answer of the last one, on the way through the stale nodes of a
scan, perhaps for `get_best_node`, or before the choice of the best node. -/
inductive Phase (τ : Type)
  | idle (answer : Option String)
  | marking (scan : Scan τ) (role : Option String)
  | choosing (role : String)
  deriving DecidableEq

/-- A call, with what it reads off the clock, or the next critical section of the call that the thread is in. -/
inductive Input (τ : Type)
  | register (role nodeId status : String) (now : τ)
  | checkHeartbeats (timeout now : τ)
  | getBestNode (role : String) (now : τ)
  | markOffline (nodeId reason : String) (now : τ)
  | releaseLoad (nodeId : String)
  | advance (now : τ)
  deriving DecidableEq

namespace Registry

variable (lower : String → String) (registry : Registry τ)

/-- `register_or_update_node`. -/
def registerOrUpdateNode (role nodeId status : String) (now : τ) : Registry τ :=
  let node : Node τ :=
    { nodeId, role := lower role, status := lower status, lastSeen := now
      load := if lower status = "busy" then 1 else 0 }
  { registry with nodes := registry.nodes.upsert node (fun old => { node with nodeId := old.nodeId }) fun _ => rfl }

/-- `mark_node_offline`. -/
def markNodeOffline (nodeId reason : String) (now : τ) : Registry τ :=
  match registry.nodes.lookup nodeId with
  | none => registry
  | some node =>
      { registry with
        nodes := registry.nodes.delete fun other => other.nodeId = nodeId
        failureLogs := registry.failureLogs ++ [⟨now, nodeId, node.role, reason⟩] }

/-- `mark_node_offline` for a stale node of the scan. -/
def evict (scan : Scan τ) (nodeId : String) (now : τ) : Registry τ :=
  { registry.markNodeOffline nodeId "heartbeat_timeout" now with
    evictions := registry.evictions ++
      ((registry.nodes.lookup nodeId).map fun node => ⟨node, scan.now, scan.timeout⟩).toList }

/-- The better one of the best node so far and another node. -/
def prefer (role : String) (best : Option (Node τ)) (node : Node τ) : Option (Node τ) :=
  if node.role = role then
    match best with
    | none => some node
    | some chosen => if node.load < chosen.load then some node else some chosen
  else best

/-- The node of the role with the least load, of several the first one. -/
def bestNode (role : String) : Option (Node τ) := registry.nodes.rows.foldl (prefer role) none

/-- The reservation of the best node; the id `""` is never reserved. -/
def reserve (role : String) (now : τ) : Registry τ :=
  match registry.bestNode role with
  | none => registry
  | some best =>
      if best.nodeId = "" then registry
      else
        { registry with
          nodes := registry.nodes.update (fun node => node.nodeId = best.nodeId)
            (fun node => { node with status := "busy", load := node.load + 1, lastSeen := now }) fun _ => rfl }

/-- `release_node_load`. -/
def releaseNodeLoad (nodeId : String) : Registry τ :=
  { registry with
    nodes := registry.nodes.update (fun node => node.nodeId = nodeId)
      (fun node =>
        { node with load := node.load - 1, status := if node.load - 1 = 0 then "idle" else node.status })
      fun _ => rfl }

variable [Sub τ] [LT τ] [DecidableLT τ]

/-- The scan of `check_heartbeats`. -/
def scan (timeout now : τ) : Scan τ :=
  { now, timeout
    staleNodes := (registry.nodes.rows.filter fun node => timeout < now - node.lastSeen).map Node.nodeId }

end Registry

section Threads

variable [Sub τ] [LT τ] [DecidableLT τ] (lower : String → String) (defaultTimeout : τ)

/-- The critical sections of the calls. -/
def next : Program (Input τ) (Registry τ) (Phase τ)
  | .register role nodeId status now, registry, .idle _ =>
      some (registry.registerOrUpdateNode lower role nodeId status now, .idle none)
  | .checkHeartbeats timeout now, registry, .idle _ => some (registry, .marking (registry.scan timeout now) none)
  | .getBestNode role now, registry, .idle _ =>
      some (registry, .marking (registry.scan defaultTimeout now) (some (lower role)))
  | .markOffline nodeId reason now, registry, .idle _ => some (registry.markNodeOffline nodeId reason now, .idle none)
  | .releaseLoad nodeId, registry, .idle _ => some (registry.releaseNodeLoad nodeId, .idle none)
  | .advance now, registry, .marking scan role =>
      match scan.staleNodes with
      | nodeId :: rest => some (registry.evict scan nodeId now, .marking { scan with staleNodes := rest } role)
      | [] => some (registry, role.elim (.idle none) .choosing)
  | .advance now, registry, .choosing role =>
      some (registry.reserve role now, .idle ((registry.bestNode role).map Node.nodeId))
  | _, _, _ => none

/-- The node whose `last_seen` a step writes, with what it writes. -/
def refreshed (registry : Registry τ) : Phase τ → Input τ → Option (String × τ)
  | .idle _, .register _ nodeId _ now => some (nodeId, now)
  | .choosing role, .advance now =>
      ((registry.bestNode role).filter fun best => best.nodeId ≠ "").map fun best => (best.nodeId, now)
  | _, _ => none

variable {ι : Type}

/-- No node is refreshed that a scan has found stale and not yet removed, save by a time that is as old. -/
def LeavesStale (s : World ι (Registry τ) (Phase τ)) (i : ι) (input : Input τ) : Prop :=
  ∀ nodeId now, refreshed s.store (s.proc i) input = some (nodeId, now) →
    ∀ j scan role, s.proc j = .marking scan role → nodeId ∈ scan.staleNodes → scan.timeout < scan.now - now

/-- A node was older than the timeout when it was removed. -/
def Eviction.Stale (eviction : Eviction τ) : Prop :=
  eviction.timeout < eviction.now - eviction.node.lastSeen

/-- The evictions so far, and those to come of nodes that stay as they are. -/
structure OnlyStale (s : World ι (Registry τ) (Phase τ)) : Prop where
  past : ∀ eviction ∈ s.store.evictions, eviction.Stale
  pending : ∀ j scan role, s.proc j = .marking scan role → ∀ nodeId ∈ scan.staleNodes, ∀ node,
    s.store.nodes.lookup nodeId = some node → scan.timeout < scan.now - node.lastSeen

variable {lower : String → String} {defaultTimeout : τ} {input : Input τ} {registry registry' : Registry τ}
  {p p' : Phase τ}

/-! ## What a step does -/

omit [Sub τ] [LT τ] [DecidableLT τ] in
lemma lookup_markNodeOffline {nodeId other reason : String} {now : τ} {node : Node τ}
    (h : (registry.markNodeOffline nodeId reason now).nodes.lookup other = some node) :
    registry.nodes.lookup other = some node := by
  unfold Registry.markNodeOffline at h
  split at h
  · exact h
  · rw [KeyedTable.lookup_delete] at h
    exact (Option.filter_eq_some_iff.mp h).1

omit [Sub τ] [LT τ] [DecidableLT τ] in
lemma lookup_reserve {role nodeId : String} {now : τ} {node : Node τ}
    (h : (registry.reserve role now).nodes.lookup nodeId = some node) :
    (∃ old, registry.nodes.lookup nodeId = some old ∧ old.lastSeen = node.lastSeen) ∨
      refreshed registry (.choosing role) (.advance now) = some (nodeId, node.lastSeen) := by
  unfold Registry.reserve at h
  unfold refreshed
  cases hbest : registry.bestNode role with
  | none =>
    rw [hbest] at h
    exact .inl ⟨node, h, rfl⟩
  | some best =>
    rw [hbest] at h
    dsimp only at h
    by_cases hempty : best.nodeId = ""
    · rw [if_pos hempty] at h
      exact .inl ⟨node, h, rfl⟩
    · rw [if_neg hempty, KeyedTable.lookup_update] at h
      obtain ⟨old, hold, rfl⟩ := Option.map_eq_some_iff.mp h
      obtain rfl : old.nodeId = nodeId := (KeyedTable.lookup_eq_some.mp hold).2
      by_cases hsame : old.nodeId = best.nodeId
      · exact .inr (by simp [hbest, hempty, hsame])
      · exact .inl ⟨old, hold, by simp [hsame]⟩

omit [Sub τ] [LT τ] [DecidableLT τ] in
lemma lookup_register {role nodeId other status : String} {now : τ} {node : Node τ}
    (h : (registry.registerOrUpdateNode lower role nodeId status now).nodes.lookup other = some node) :
    registry.nodes.lookup other = some node ∨ other = nodeId ∧ node.lastSeen = now := by
  unfold Registry.registerOrUpdateNode at h
  dsimp only at h
  rw [KeyedTable.lookup_upsert] at h
  by_cases hsame : nodeId = other
  · rw [if_pos hsame] at h
    refine .inr ⟨hsame.symm, ?_⟩
    cases hold : registry.nodes.lookup other <;> rw [hold] at h <;> cases h <;> rfl
  · rw [if_neg hsame] at h
    exact .inl h

omit [Sub τ] [LT τ] [DecidableLT τ] in
lemma lookup_release {nodeId other : String} {node : Node τ}
    (h : (registry.releaseNodeLoad nodeId).nodes.lookup other = some node) :
    ∃ old, registry.nodes.lookup other = some old ∧ old.lastSeen = node.lastSeen := by
  unfold Registry.releaseNodeLoad at h
  rw [KeyedTable.lookup_update] at h
  obtain ⟨old, hold, rfl⟩ := Option.map_eq_some_iff.mp h
  refine ⟨old, hold, ?_⟩
  split_ifs <;> rfl

/-- A node is as old as before the step, or the step refreshes it. -/
lemma next_lookup (h : next lower defaultTimeout input registry p = some (registry', p')) {nodeId : String}
    {node : Node τ} (hnode : registry'.nodes.lookup nodeId = some node) :
    (∃ old, registry.nodes.lookup nodeId = some old ∧ old.lastSeen = node.lastSeen) ∨
      refreshed registry p input = some (nodeId, node.lastSeen) := by
  unfold next at h
  split at h
  · cases h
    rcases lookup_register hnode with hold | ⟨rfl, rfl⟩
    · exact .inl ⟨node, hold, rfl⟩
    · exact .inr rfl
  · cases h
    exact .inl ⟨node, hnode, rfl⟩
  · cases h
    exact .inl ⟨node, hnode, rfl⟩
  · cases h
    exact .inl ⟨node, lookup_markNodeOffline hnode, rfl⟩
  · cases h
    exact .inl (lookup_release hnode)
  · split at h
    · cases h
      exact .inl ⟨node, lookup_markNodeOffline hnode, rfl⟩
    · cases h
      exact .inl ⟨node, hnode, rfl⟩
  · cases h
    exact lookup_reserve hnode
  · cases h

omit [Sub τ] [LT τ] [DecidableLT τ] in
lemma markNodeOffline_evictions (nodeId reason : String) (now : τ) :
    (registry.markNodeOffline nodeId reason now).evictions = registry.evictions := by
  unfold Registry.markNodeOffline
  split <;> rfl

omit [Sub τ] [LT τ] [DecidableLT τ] in
lemma reserve_evictions (role : String) (now : τ) : (registry.reserve role now).evictions = registry.evictions := by
  unfold Registry.reserve
  split
  · rfl
  · split_ifs <;> rfl

/-- An eviction is of a node that its scan has found stale. -/
lemma next_evictions (h : next lower defaultTimeout input registry p = some (registry', p')) {eviction : Eviction τ}
    (heviction : eviction ∈ registry'.evictions) :
    eviction ∈ registry.evictions ∨ ∃ scan role nodeId, p = .marking scan role ∧ nodeId ∈ scan.staleNodes ∧
      registry.nodes.lookup nodeId = some eviction.node ∧ eviction.now = scan.now ∧ eviction.timeout = scan.timeout := by
  unfold next at h
  split at h
  · cases h
    exact .inl heviction
  · cases h
    exact .inl heviction
  · cases h
    exact .inl heviction
  · cases h
    exact .inl (markNodeOffline_evictions _ _ _ ▸ heviction)
  · cases h
    exact .inl heviction
  · rename_i now scan role
    split at h
    · rename_i nodeId rest hstale
      cases h
      rcases List.mem_append.mp heviction with hpast | hnew
      · exact .inl hpast
      · obtain ⟨node, hnode, rfl⟩ := Option.map_eq_some_iff.mp (Option.mem_toList.mp hnew)
        exact .inr ⟨scan, role, nodeId, rfl, hstale ▸ List.mem_cons_self, hnode, rfl, rfl⟩
    · cases h
      exact .inl heviction
  · cases h
    exact .inl (reserve_evictions _ _ ▸ heviction)
  · cases h

/-- A scan is new and has found its nodes stale, or it is what is left of the scan before. -/
lemma next_marking (h : next lower defaultTimeout input registry p = some (registry', p')) {scan : Scan τ}
    {role : Option String} (hmarking : p' = .marking scan role) :
    (registry' = registry ∧ ∃ timeout now, scan = registry.scan timeout now) ∨
      ∃ before, p = .marking before role ∧ scan.now = before.now ∧ scan.timeout = before.timeout ∧
        ∀ nodeId ∈ scan.staleNodes, nodeId ∈ before.staleNodes := by
  subst hmarking
  unfold next at h
  split at h
  · cases h
  · cases h
    exact .inl ⟨rfl, _, _, rfl⟩
  · cases h
    exact .inl ⟨rfl, _, _, rfl⟩
  · cases h
  · cases h
  · rename_i now before after
    split at h
    · rename_i nodeId rest hstale
      cases h
      exact .inr ⟨before, rfl, rfl, rfl, fun nodeId hrest => hstale ▸ List.mem_cons_of_mem _ hrest⟩
    · cases after <;> cases h
  · cases h
  · cases h

lemma scan_stale {timeout now : τ} {nodeId : String} {node : Node τ}
    (hstale : nodeId ∈ (registry.scan timeout now).staleNodes) (hnode : registry.nodes.lookup nodeId = some node) :
    timeout < now - node.lastSeen := by
  obtain ⟨found, hfound, hid⟩ := List.mem_map.mp hstale
  obtain ⟨hrow, hold⟩ := List.mem_filter.mp hfound
  have hlookup : registry.nodes.lookup nodeId = some found := KeyedTable.lookup_eq_some.mpr ⟨hrow, hid⟩
  rw [Option.some.inj (hnode.symm.trans hlookup)]
  exact of_decide_eq_true hold

variable [DecidableEq ι]

/-- A step that refreshes no node of a scan keeps evictions to stale nodes. -/
lemma onlyStale_step {s s' : World ι (Registry τ) (Phase τ)} {i : ι} (hs : OnlyStale s)
    (hleaves : LeavesStale s i input) (hstep : s.step (next lower defaultTimeout) i input = some s') :
    OnlyStale s' := by
  obtain ⟨registry, p, hnext, rfl⟩ := step_eq_some hstep
  have hold : ∀ j scan role, s.proc j = .marking scan role → ∀ nodeId ∈ scan.staleNodes, ∀ node,
      registry.nodes.lookup nodeId = some node → scan.timeout < scan.now - node.lastSeen := by
    intro j scan role hj nodeId hstale node hnode
    rcases next_lookup hnext hnode with ⟨old, hlookup, hsame⟩ | hrefreshed
    · rw [← hsame]
      exact hs.pending j scan role hj nodeId hstale old hlookup
    · exact hleaves nodeId node.lastSeen hrefreshed j scan role hj hstale
  refine ⟨fun eviction heviction => ?_, fun j scan role hj => ?_⟩
  · rcases next_evictions hnext heviction with hpast | ⟨scan, role, nodeId, hp, hstale, hnode, hnow, htimeout⟩
    · exact hs.past eviction hpast
    · have hage := hs.pending i scan role hp nodeId hstale eviction.node hnode
      rwa [← hnow, ← htimeout] at hage
  · by_cases hji : j = i
    · subst hji
      rw [proc_self] at hj
      rcases next_marking hnext hj with ⟨rfl, timeout, now, rfl⟩ | ⟨before, hp, hnow, htimeout, hsub⟩
      · exact fun nodeId hstale node hnode => scan_stale hstale hnode
      · intro nodeId hstale node hnode
        rw [hnow, htimeout]
        exact hold j before role hp nodeId (hsub nodeId hstale) node hnode
    · rw [proc_of_ne hji] at hj
      exact hold j scan role hj

/-- In every run that refreshes no node of a scan, only stale nodes are evicted. -/
theorem evictions_stale (lower : String → String) (defaultTimeout : τ) (s s' : World ι (Registry τ) (Phase τ))
    (actions : List (ι × Input τ)) (hstart : s.store.evictions = []) (hidle : ∀ i, ∃ answer, s.proc i = .idle answer)
    (hrun : s.run (next lower defaultTimeout) actions = some s')
    (hleaves : s.Throughout (next lower defaultTimeout) LeavesStale actions) :
    ∀ eviction ∈ s'.store.evictions, eviction.Stale := by
  have hs : OnlyStale s := by
    refine ⟨by simp [hstart], fun j scan role hj => ?_⟩
    obtain ⟨answer, hidle⟩ := hidle j
    rw [hidle] at hj
    cases hj
  have hinduction : OnlyStale s' :=
    run_induction (fun s i input s' hs hleaves hstep => onlyStale_step hs hleaves hstep) hs hrun hleaves
  exact hinduction.past

variable (lower defaultTimeout) in
/-- A node that a scan holds for stale is evicted in the end, as it is by then, if nothing else happens. -/
lemma exists_eviction {s : World ι (Registry τ) (Phase τ)} {j : ι} {scan : Scan τ} {role : Option String}
    (hj : s.proc j = .marking scan role) {nodeId : String} (hstale : nodeId ∈ scan.staleNodes) {node : Node τ}
    (hnode : s.store.nodes.lookup nodeId = some node) (now : τ) :
    ∃ count s', s.run (next lower defaultTimeout) (List.replicate count (j, .advance now)) = some s' ∧
      (⟨node, scan.now, scan.timeout⟩ : Eviction τ) ∈ s'.store.evictions := by
  obtain ⟨stale, hlist⟩ : ∃ stale, scan.staleNodes = stale := ⟨_, rfl⟩
  induction stale generalizing s scan with
  | nil => simp [hlist] at hstale
  | cons first rest ih =>
    have hstep : s.step (next lower defaultTimeout) j (.advance now) =
        some ⟨s.store.evict scan first now,
          Function.update s.proc j (.marking { scan with staleNodes := rest } role)⟩ := by
      simp only [World.step, next, hj, hlist, Option.map_some]
    have hrun : ∀ later, s.run (next lower defaultTimeout) ((j, .advance now) :: later) =
        World.run (next lower defaultTimeout) ⟨s.store.evict scan first now,
          Function.update s.proc j (.marking { scan with staleNodes := rest } role)⟩ later := by
      intro later
      rw [World.run, hstep, Option.bind_some]
    by_cases hfirst : first = nodeId
    · subst hfirst
      refine ⟨1, _, hrun [], List.mem_append_right _ ?_⟩
      rw [hnode]
      exact List.mem_singleton_self _
    · have hlater : nodeId ∈ rest := (List.mem_cons.mp (hlist ▸ hstale)).resolve_left (Ne.symm hfirst)
      have hkept : (s.store.evict scan first now).nodes.lookup nodeId = some node := by
        change (s.store.markNodeOffline first _ now).nodes.lookup nodeId = some node
        unfold Registry.markNodeOffline
        split
        · exact hnode
        · rw [KeyedTable.lookup_delete, hnode]
          simp [(KeyedTable.lookup_eq_some.mp hnode).2, Ne.symm hfirst]
      have hproc : (World.mk (s.store.evict scan first now)
          (Function.update s.proc j (.marking { scan with staleNodes := rest } role))).proc j =
            .marking { scan with staleNodes := rest } role := proc_self
      obtain ⟨count, s', hs', hmem⟩ := ih hproc hlater hkept rfl
      exact ⟨count + 1, s', (hrun _).trans hs', hmem⟩

omit [Sub τ] [LT τ] [DecidableLT τ] in
lemma bestNode_mem {role : String} {best : Node τ} (h : registry.bestNode role = some best) :
    best ∈ registry.nodes.rows := by
  have hfold : ∀ (rows : List (Node τ)) (start : Option (Node τ)),
      rows.foldl (Registry.prefer role) start = some best → start = some best ∨ best ∈ rows := by
    intro rows
    induction rows with
    | nil => exact fun start h => .inl h
    | cons node rows ih =>
      intro start h
      rcases ih _ h with hstart | hmem
      · unfold Registry.prefer at hstart
        cases start with
        | none =>
          split_ifs at hstart
          exact .inr (Option.some.inj hstart ▸ List.mem_cons_self)
        | some chosen =>
          dsimp only at hstart
          split_ifs at hstart
          · exact .inr (Option.some.inj hstart ▸ List.mem_cons_self)
          · exact .inl hstart
          · exact .inl hstart
      · exact .inr (List.mem_cons_of_mem _ hmem)
  exact (hfold _ _ h).resolve_left (by simp)

/-- A refreshed node stands in the registry with its new time, and the thread was between scans. -/
lemma next_refreshed (h : next lower defaultTimeout input registry p = some (registry', p')) {nodeId : String}
    {now : τ} (hrefreshed : refreshed registry p input = some (nodeId, now)) :
    (∃ node, registry'.nodes.lookup nodeId = some node ∧ node.lastSeen = now) ∧ ∀ scan role, p ≠ .marking scan role := by
  unfold refreshed at hrefreshed
  split at hrefreshed
  · cases hrefreshed
    cases h
    refine ⟨?_, fun scan role => by simp⟩
    unfold Registry.registerOrUpdateNode
    dsimp only
    rw [KeyedTable.lookup_upsert, if_pos rfl]
    cases registry.nodes.lookup nodeId <;> exact ⟨_, rfl, rfl⟩
  · obtain ⟨best, hfilter, heq⟩ := Option.map_eq_some_iff.mp hrefreshed
    obtain ⟨hbest, hnonempty⟩ := Option.filter_eq_some_iff.mp hfilter
    cases heq
    cases h
    refine ⟨?_, fun scan role => by simp⟩
    have hlookup : registry.nodes.lookup best.nodeId = some best :=
      KeyedTable.lookup_eq_some.mpr ⟨bestNode_mem hbest, rfl⟩
    unfold Registry.reserve
    rw [hbest]
    dsimp only
    rw [if_neg (of_decide_eq_true hnonempty), KeyedTable.lookup_update, hlookup]
    exact ⟨_, rfl, by simp⟩
  · cases hrefreshed

/-- After a step that refreshes a node of a scan by a recent time, the node can be evicted as it is. -/
theorem exists_fresh_eviction {s s' : World ι (Registry τ) (Phase τ)} {i : ι} (hbreaks : ¬ LeavesStale s i input)
    (hstep : s.step (next lower defaultTimeout) i input = some s') (clock : τ) :
    ∃ actions s'', s'.run (next lower defaultTimeout) actions = some s'' ∧
      ∃ eviction ∈ s''.store.evictions, ¬ eviction.Stale := by
  unfold LeavesStale at hbreaks
  push Not at hbreaks
  obtain ⟨nodeId, now, hrefreshed, j, scan, role, hj, hstale, hage⟩ := hbreaks
  obtain ⟨registry, p, hnext, rfl⟩ := step_eq_some hstep
  obtain ⟨⟨node, hnode, rfl⟩, hbetween⟩ := next_refreshed hnext hrefreshed
  have hji : j ≠ i := fun heq => hbetween scan role (heq ▸ hj)
  have hproc : (World.mk registry (Function.update s.proc i p)).proc j = .marking scan role :=
    (proc_of_ne hji).trans hj
  obtain ⟨count, s'', hrun, heviction⟩ := exists_eviction lower defaultTimeout hproc hstale hnode clock
  exact ⟨_, s'', hrun, _, heviction, hage⟩

end Threads

/-! ## A node that comes back -/

/-- Two threads without nodes. -/
def sampleStart : World Bool (Registry ℤ) (Phase ℤ) := ⟨{}, fun _ => .idle none⟩

/-- A node that is scanned after its timeout and removed. -/
def staleRun : List (Bool × Input ℤ) :=
  [(true, .register "Coder" "node-1" "idle" 0), (false, .checkHeartbeats 15 20), (false, .advance 20)]

/-- A node that registers again between its scan and its removal. -/
def returningRun : List (Bool × Input ℤ) :=
  [(true, .register "Coder" "node-1" "idle" 0), (false, .checkHeartbeats 15 20),
    (true, .register "Coder" "node-1" "idle" 20), (false, .advance 20)]

theorem evictions_stale_sample :
    ((sampleStart.run (next String.toLower 15) staleRun).getD sampleStart).store.evictions.length = 1 ∧
      ∀ eviction ∈ ((sampleStart.run (next String.toLower 15) staleRun).getD sampleStart).store.evictions,
        eviction.Stale := by
  have hrun : sampleStart.run (next String.toLower 15) staleRun =
      some ((sampleStart.run (next String.toLower 15) staleRun).getD sampleStart) := rfl
  refine ⟨by decide +kernel, ?_⟩
  refine evictions_stale String.toLower 15 sampleStart _ staleRun rfl (fun i => ⟨none, rfl⟩) hrun ?_
  simp only [staleRun, World.Throughout]
  refine ⟨fun nodeId now _ j scan role hj => (by cases hj), fun s₁ h₁ => ?_⟩
  cases h₁
  refine ⟨fun nodeId now h => (by cases h), fun s₂ h₂ => ?_⟩
  cases h₂
  exact ⟨fun nodeId now h => (by cases h), fun _ _ => trivial⟩

/-- The node that came back is removed at an age of zero. -/
theorem evictions_not_stale :
    ¬ ∀ (s : World Bool (Registry ℤ) (Phase ℤ)) (actions : List (Bool × Input ℤ)),
      sampleStart.run (next String.toLower 15) actions = some s →
        ∀ eviction ∈ s.store.evictions, eviction.Stale := by
  intro hclaim
  have hstale := hclaim _ returningRun rfl
  have hage := hstale ⟨⟨"node-1", "coder", "idle", 20, 0⟩, 20, 15⟩ (by decide +kernel)
  exact absurd hage (by unfold Eviction.Stale; decide)

end AgentSystem.Swarm
