import AgentSystem.RefactoringDag

/-!
# Soundness and completeness of the waves

`get_parallel_waves` orders every graph without a cycle and without foreign dependencies into waves
that keep the dependencies and share no file, and it raises on every other graph.
-/
namespace AgentSystem.Factory

open KahnOrder

namespace RefactoringTaskDag

variable {lower : String → String}

/-- Two nodes that share no file. -/
def ScopesDisjoint (lower : String → String) (a b : RefactoringTaskNode) : Prop :=
  ∀ file ∈ normalisedScope lower a, file ∉ normalisedScope lower b

/-! ## One wave -/

/-- A wave that has taken the chosen entries. -/
structure Filled (lower : String → String) (remaining : List NodeEntry) (completed : List String)
    (chosen : List NodeEntry) (wave : Wave) : Prop where
  current : wave.current = chosen.map Prod.snd
  occupied : ∀ file, file ∈ wave.occupied ↔
    ∃ entry ∈ chosen, file ∈ normalisedScope lower entry.2
  remaining : wave.remaining = remaining.filter fun entry => entry.1 ∉ chosen.map Prod.fst
  completed : wave.completed = completed ++ chosen.map Prod.fst
  disjoint : chosen.Pairwise fun a b => ScopesDisjoint lower a.2 b.2

variable {remaining : List NodeEntry} {completed : List String}

lemma filled_start : Filled lower remaining completed []
    { remaining := remaining, completed := completed } := by
  refine ⟨rfl, by simp, by simp, by simp, List.Pairwise.nil⟩

lemma Filled.schedule {chosen : List NodeEntry} {wave : Wave}
    (h : Filled lower remaining completed chosen wave) {entry : NodeEntry}
    (hfree : ¬∃ file ∈ normalisedScope lower entry.2, file ∈ wave.occupied) :
    Filled lower remaining completed (chosen ++ [entry])
      (RefactoringTaskDag.schedule lower wave entry) := by
  rw [RefactoringTaskDag.schedule, if_neg hfree]
  refine ⟨by simp [h.current], fun file => ?_, ?_, by simp [h.completed], ?_⟩
  · simp only [List.mem_append, h.occupied, List.mem_singleton]
    constructor
    · rintro (⟨other, hother, hfile⟩ | hfile)
      · exact ⟨other, .inl hother, hfile⟩
      · exact ⟨entry, .inr rfl, hfile⟩
    · rintro ⟨other, hother | rfl, hfile⟩
      · exact .inl ⟨other, hother, hfile⟩
      · exact .inr hfile
  · simp only [h.remaining, List.filter_filter]
    refine List.filter_congr fun other _ => ?_
    simp only [List.map_append, List.mem_append, List.map_cons, List.map_nil, List.mem_singleton,
      not_or, Bool.decide_and]
    exact Bool.and_comm _ _
  · rw [List.pairwise_append]
    refine ⟨h.disjoint, List.pairwise_singleton _ _, fun other hother last hlast file hfile => ?_⟩
    rw [List.mem_singleton.mp hlast]
    exact fun hshared => hfree ⟨file, hshared, (h.occupied file).mpr ⟨other, hother, hfile⟩⟩

variable (lower remaining completed) in
/-- A wave takes some of its candidates, and at least one. -/
lemma exists_filled (entries : List NodeEntry) : ∃ chosen,
    Filled lower remaining completed chosen
      (entries.foldl (schedule lower) { remaining := remaining, completed := completed }) ∧
    chosen.Sublist entries ∧ (entries ≠ [] → chosen ≠ []) := by
  induction entries using List.reverseRecOn with
  | nil => exact ⟨[], filled_start, List.Sublist.refl _, fun h => absurd rfl h⟩
  | append_singleton entries entry ih =>
      obtain ⟨chosen, hfilled, hsub, hsome⟩ := ih
      rw [List.foldl_append]
      by_cases hfree : ∃ file ∈ normalisedScope lower entry.2, file ∈
          (entries.foldl (schedule lower) { remaining := remaining, completed := completed }).occupied
      · refine ⟨chosen, ?_, hsub.trans (List.sublist_append_left _ _), fun _ => ?_⟩
        · rw [List.foldl_cons, List.foldl_nil, schedule, if_pos hfree]
          exact hfilled
        · obtain ⟨file, -, hfile⟩ := hfree
          obtain ⟨other, hother, -⟩ := (hfilled.occupied file).mp hfile
          exact List.ne_nil_of_mem hother
      · exact ⟨chosen ++ [entry], hfilled.schedule hfree, hsub.append (List.Sublist.refl _),
          fun _ => by simp⟩

/-! ## The plan so far -/

/-- The waves up to now, by the entries of their nodes. -/
structure Planned (lower : String → String) (dag : RefactoringTaskDag)
    (waves : List (List NodeEntry)) (remaining : List NodeEntry) (completed : List String) :
    Prop where
  perm : (waves.flatten ++ remaining).Perm dag.nodes
  completed : completed = waves.flatten.map Prod.fst
  ordered : ∀ before wave after, waves = before ++ wave :: after →
    ∀ entry ∈ wave, ∀ dep ∈ entry.2.dependencies, dep ∈ before.flatten.map Prod.fst
  disjoint : ∀ wave ∈ waves, wave.Pairwise fun a b => ScopesDisjoint lower a.2 b.2

variable {dag : RefactoringTaskDag} {waves : List (List NodeEntry)}

lemma planned_start (lower : String → String) (dag : RefactoringTaskDag) :
    Planned lower dag [] dag.nodes [] where
  perm := List.Perm.refl _
  completed := rfl
  ordered before wave after h := by simp at h
  disjoint := nofun

lemma Planned.nodup (h : Planned lower dag waves remaining completed) :
    ((waves.flatten ++ remaining).map Prod.fst).Nodup :=
  (h.perm.map Prod.fst).nodup_iff.mpr dag.nodup

lemma perm_chosen {chosen : List NodeEntry} (hnodup : (remaining.map Prod.fst).Nodup)
    (hchosen : chosen.Nodup) (hsub : chosen ⊆ remaining) :
    (chosen ++ remaining.filter fun entry => entry.1 ∉ chosen.map Prod.fst).Perm remaining := by
  have hinj := List.inj_on_of_nodup_map hnodup
  have htaken : chosen.Perm (remaining.filter fun entry => entry.1 ∈ chosen.map Prod.fst) := by
    refine (List.perm_ext_iff_of_nodup hchosen (hnodup.of_map _ |>.filter _)).mpr fun entry => ?_
    rw [List.mem_filter, decide_eq_true_eq, List.mem_map]
    constructor
    · exact fun h => ⟨hsub h, entry, h, rfl⟩
    · rintro ⟨hentry, other, hother, hkey⟩
      rwa [← hinj (hsub hother) hentry hkey]
  refine (htaken.append_right _).trans ?_
  simpa using List.filter_append_perm (fun entry : NodeEntry => decide (entry.1 ∈ chosen.map Prod.fst))
    remaining

/-- A wave of candidates continues the plan. -/
lemma Planned.next (h : Planned lower dag waves remaining completed) {chosen : List NodeEntry}
    {wave : Wave} (hfilled : Filled lower remaining completed chosen wave)
    (hnodup : chosen.Nodup) (hsub : chosen ⊆ candidates remaining completed) :
    Planned lower dag (waves ++ [chosen]) wave.remaining wave.completed := by
  have hremaining : (remaining.map Prod.fst).Nodup := by
    have := h.nodup
    rw [List.map_append, List.nodup_append'] at this
    exact this.2.1
  have hsub' : chosen ⊆ remaining := fun entry hentry => (List.mem_filter.mp (hsub hentry)).1
  refine ⟨?_, ?_, fun before last after heq entry hentry dep hdep => ?_, fun last hlast => ?_⟩
  · rw [List.flatten_append, List.flatten_singleton, List.append_assoc, hfilled.remaining]
    exact ((perm_chosen hremaining hnodup hsub').append_left _).trans h.perm
  · rw [hfilled.completed, h.completed, List.flatten_append, List.flatten_singleton,
      List.map_append]
  · rcases List.eq_nil_or_concat after with rfl | ⟨after, other, rfl⟩
    · obtain ⟨rfl, hlast⟩ := List.append_inj' heq rfl
      obtain rfl := List.singleton_inj.mp hlast
      have hdone := (List.mem_filter.mp (hsub hentry)).2
      rw [← h.completed]
      simpa using List.all_eq_true.mp hdone dep hdep
    · rw [List.concat_eq_append, ← List.cons_append, ← List.append_assoc] at heq
      obtain ⟨hwaves, -⟩ := List.append_inj' heq rfl
      exact h.ordered before last after hwaves entry hentry dep hdep
  · rcases List.mem_append.mp hlast with hbefore | hnew
    · exact h.disjoint last hbefore
    · rw [List.mem_singleton.mp hnew]
      exact hfilled.disjoint

/-- No node that is left can run. -/
def Stuck (remaining : List NodeEntry) (completed : List String) : Prop :=
  remaining ≠ [] ∧ ∀ entry ∈ remaining, ∃ dep ∈ entry.2.dependencies, dep ∉ completed

lemma stuck_of_candidates (hremaining : remaining ≠ [])
    (h : (candidates remaining completed).mergeSort goesBefore = []) :
    Stuck remaining completed := by
  refine ⟨hremaining, fun entry hentry => ?_⟩
  have hnone : entry ∉ candidates remaining completed := by
    rw [← (List.mergeSort_perm (candidates remaining completed) goesBefore).mem_iff, h]
    exact List.not_mem_nil
  rw [candidates, List.mem_filter, not_and] at hnone
  simpa using hnone hentry

/-- With a step for each node that is left, the loop ends with a whole plan or gets stuck. -/
lemma waveLoop_of_ne_nil (hne : remaining ≠ []) (fuel : ℕ) (waves : List (List RefactoringTaskNode)) :
    waveLoop lower (fuel + 1) remaining completed waves =
      match (candidates remaining completed).mergeSort goesBefore with
      | [] => some (.error deadlock)
      | first :: rest =>
          let wave := orFirst first ((first :: rest).foldl (schedule lower)
            { remaining := remaining, completed := completed })
          waveLoop lower fuel wave.remaining wave.completed (waves ++ [wave.current]) := by
  cases remaining with
  | nil => exact absurd rfl hne
  | cons entry rest => rfl

lemma waveLoop_ends {fuel : ℕ} (h : Planned lower dag waves remaining completed)
    (hfuel : remaining.length ≤ fuel) :
    (∃ waves' completed', Planned lower dag waves' [] completed' ∧
      waveLoop lower fuel remaining completed (waves.map (List.map Prod.snd)) =
        some (.ok (waves'.map (List.map Prod.snd)))) ∨
    ∃ waves' remaining' completed', Planned lower dag waves' remaining' completed' ∧
      Stuck remaining' completed' ∧
      waveLoop lower fuel remaining completed (waves.map (List.map Prod.snd)) =
        some (.error deadlock) := by
  induction fuel generalizing waves remaining completed with
  | zero =>
      obtain rfl := List.eq_nil_of_length_eq_zero (Nat.le_zero.mp hfuel)
      exact .inl ⟨waves, completed, h, rfl⟩
  | succ fuel ih =>
      cases hleft : remaining with
      | nil =>
          subst hleft
          exact .inl ⟨waves, completed, h, rfl⟩
      | cons entry rest =>
          rw [← hleft]
          rw [waveLoop_of_ne_nil (hleft ▸ List.cons_ne_nil _ _)]
          cases hsorted : (candidates remaining completed).mergeSort goesBefore with
          | nil =>
              exact .inr ⟨waves, remaining, completed, h,
                stuck_of_candidates (by simp [hleft]) hsorted, rfl⟩
          | cons first others =>
              obtain ⟨chosen, hfilled, hsub, hsome⟩ :=
                exists_filled lower remaining completed (first :: others)
              have hne : chosen ≠ [] := hsome (List.cons_ne_nil _ _)
              have hperm := List.mergeSort_perm (candidates remaining completed) goesBefore
              rw [hsorted] at hperm
              have hsub' : chosen ⊆ candidates remaining completed := fun other hother =>
                hperm.mem_iff.mp (hsub.subset hother)
              have hnodup : chosen.Nodup := by
                have hkeys := h.nodup
                rw [List.map_append, List.nodup_append'] at hkeys
                have hcandidates : (candidates remaining completed).Nodup :=
                  (hkeys.2.1.of_map _).filter _
                exact hsub.nodup (hperm.nodup_iff.mpr hcandidates)
              have hfirst : orFirst first ((first :: others).foldl (schedule lower)
                  { remaining := remaining, completed := completed }) =
                  (first :: others).foldl (schedule lower)
                    { remaining := remaining, completed := completed } := by
                rw [orFirst, if_neg]
                rw [hfilled.current, List.map_eq_nil_iff]
                exact hne
              have hshorter : ((first :: others).foldl (schedule lower)
                  { remaining := remaining, completed := completed }).remaining.length ≤ fuel := by
                have hall := (h.next hfilled hnodup hsub').perm.length_eq
                have hbefore := h.perm.length_eq
                have hpos := List.length_pos_iff.mpr hne
                simp only [List.flatten_append, List.flatten_singleton, List.length_append] at *
                omega
              have hrest := ih (h.next hfilled hnodup hsub') hshorter
              rw [List.map_append, List.map_singleton, ← hfilled.current] at hrest
              dsimp only
              rw [hfirst]
              exact hrest

/-! ## Cycles -/

/-- A node depends on another one, inside of the graph or not. -/
def DependsOn (dag : RefactoringTaskDag) (dep id : String) : Prop :=
  ∃ entry ∈ dag.nodes, entry.1 = id ∧ dep ∈ entry.2.dependencies

def HasCycle (dag : RefactoringTaskDag) : Prop :=
  ∃ id, Relation.TransGen dag.DependsOn id id

/-- A dependency outside of the graph. -/
def NamesForeign (dag : RefactoringTaskDag) : Prop :=
  ∃ entry ∈ dag.nodes, ∃ dep ∈ entry.2.dependencies, dep ∉ dag.ids

lemma mem_edges {dep id : String} :
    (dep, id) ∈ dag.edges ↔ dep ∈ dag.ids ∧ dag.DependsOn dep id := by
  simp only [edges, List.mem_flatMap, List.mem_map, List.mem_filter, decide_eq_true_eq, Prod.mk.injEq,
    DependsOn]
  constructor
  · rintro ⟨entry, hentry, other, ⟨hdep, hinside⟩, rfl, rfl⟩
    exact ⟨hinside, entry, hentry, rfl, hdep⟩
  · rintro ⟨hinside, entry, hentry, rfl, hdep⟩
    exact ⟨entry, hentry, dep, ⟨hdep, hinside⟩, rfl, rfl⟩

/-- The check passes every graph without a cycle. -/
lemma validateAcyclic_acyclic (hacyclic : ¬dag.HasCycle) {fuel : ℕ}
    (hfuel : dag.nodes.length ≤ fuel) : dag.validateAcyclic fuel = some (.ok ()) := by
  have hlength : dag.ids.length = dag.nodes.length := List.length_map _
  have hclosed : ∀ edge ∈ dag.edges, edge.1 ∈ dag.ids ∧ edge.2 ∈ dag.ids := by
    rintro ⟨dep, id⟩ hedge
    obtain ⟨hinside, entry, hentry, rfl, -⟩ := mem_edges.mp hedge
    exact ⟨hinside, List.mem_map_of_mem hentry⟩
  have hnone : ∀ id, ¬Relation.TransGen (fun u v => (u, v) ∈ dag.edges) id id := fun id hcycle =>
    hacyclic ⟨id, hcycle.lift (fun v => v) fun _ _ hedge => (mem_edges.mp hedge).2⟩
  have hids : dag.ids.Nodup := dag.nodup
  have hvisit := visit_acyclic hids hclosed hnone (hlength.trans_le hfuel)
  rw [validateAcyclic]
  change (visit _ _ _ (dag.ids.filter _) 0).bind _ = _
  rw [hvisit, Option.bind_some, hlength]
  simp

lemma validateAcyclic_ends {fuel : ℕ} (hfuel : dag.nodes.length ≤ fuel) :
    dag.validateAcyclic fuel = some (.ok ()) ∨
      dag.validateAcyclic fuel = some (.error cycleDetected) := by
  have hlength : dag.ids.length = dag.nodes.length := List.length_map _
  have hclosed : ∀ edge ∈ dag.edges, edge.2 ∈ dag.ids := by
    rintro ⟨dep, id⟩ hedge
    obtain ⟨-, entry, hentry, rfl, -⟩ := mem_edges.mp hedge
    exact List.mem_map_of_mem hentry
  obtain ⟨_, done, -, -, hvisit⟩ :=
    visit_ends hclosed (progress_start dag.nodup) trivial (hlength.trans_le hfuel)
  rw [validateAcyclic]
  change (visit _ _ _ (dag.ids.filter _) 0).bind _ = _ ∨
    (visit _ _ _ (dag.ids.filter _) 0).bind _ = _
  change visit _ _ _ (dag.ids.filter _) 0 = _ at hvisit
  rw [hvisit, Option.bind_some]
  by_cases hcount : done.length = dag.nodes.length
  · simp [hcount]
  · simp [hcount]

/-- The check passes no graph with a cycle. -/
lemma validateAcyclic_cycle (hcycle : dag.HasCycle) {fuel : ℕ} (hfuel : dag.nodes.length ≤ fuel) :
    dag.validateAcyclic fuel = some (.error cycleDetected) := by
  refine (validateAcyclic_ends hfuel).resolve_left fun hvalid => ?_
  have hlength : dag.ids.length = dag.nodes.length := List.length_map _
  have hinside : ∀ {dep id : String}, dag.DependsOn dep id → id ∈ dag.ids := by
    rintro dep _ ⟨entry, hentry, rfl, -⟩
    exact List.mem_map_of_mem hentry
  have hclosed : ∀ edge ∈ dag.edges, edge.2 ∈ dag.ids := fun edge hedge => hinside (mem_edges.mp hedge).2
  obtain ⟨visited, hvisit, hcount⟩ := Option.bind_eq_some_iff.mp hvalid
  have hall : visited = dag.ids.length := by
    by_contra hne
    rw [hlength] at hne
    simp [hne] at hcount
  rw [hall] at hvisit
  obtain ⟨id, hpath⟩ := hcycle
  obtain ⟨_, -, hlast⟩ := Relation.TransGen.tail'_iff.mp hpath
  have hedges : ∀ v, Relation.TransGen dag.DependsOn id v →
      Relation.TransGen (fun u v => (u, v) ∈ dag.edges) id v := by
    intro v hv
    induction hv with
    | single h => exact .single (mem_edges.mpr ⟨hinside hlast, h⟩)
    | tail hu h ih =>
        obtain ⟨_, -, hbefore⟩ := Relation.TransGen.tail'_iff.mp hu
        exact ih.tail (mem_edges.mpr ⟨hinside hbefore, h⟩)
  exact acyclic_of_visit dag.nodup hclosed (hlength.trans_le hfuel) hvisit id (hedges id hpath)

/-- A loop that is stuck has met a cycle or a foreign dependency. -/
lemma cycle_of_stuck (h : Planned lower dag waves remaining completed)
    (hstuck : Stuck remaining completed) : dag.HasCycle ∨ dag.NamesForeign := by
  by_contra hnone
  rw [not_or] at hnone
  obtain ⟨hacyclic, hinside⟩ := hnone
  obtain ⟨hremaining, hwaits⟩ := hstuck
  have hleft : ((remaining.map Prod.fst).toFinset).Nonempty := by
    rw [List.toFinset_nonempty_iff]
    simpa using hremaining
  have hirrefl : ∀ id, ¬Relation.TransGen dag.DependsOn id id := fun id hcycle =>
    hacyclic ⟨id, hcycle⟩
  obtain ⟨id, hid, hmin⟩ := exists_minimal hirrefl hleft
  obtain ⟨entry, hentry, rfl⟩ := List.mem_map.mp (List.mem_toFinset.mp hid)
  obtain ⟨dep, hdep, hopen⟩ := hwaits entry hentry
  have hnode : entry ∈ dag.nodes := h.perm.mem_iff.mp (List.mem_append_right _ hentry)
  have hids : dep ∈ dag.ids := by
    by_contra hforeign
    exact hinside ⟨entry, hnode, dep, hdep, hforeign⟩
  obtain ⟨other, hother, rfl⟩ := List.mem_map.mp hids
  have hrest : other ∈ remaining := by
    refine (List.mem_append.mp (h.perm.mem_iff.mpr hother)).resolve_left fun hdone => hopen ?_
    rw [h.completed]
    exact List.mem_map_of_mem hdone
  exact hmin other.1 (by simpa using ⟨other.2, hrest⟩) ⟨entry, hnode, rfl, hdep⟩

/-! ## Whole plans -/

/-- The place of a node in the waves. -/
def rank (waves : List (List NodeEntry)) (id : String) : ℕ :=
  (waves.flatten.map Prod.fst).idxOf id

lemma rank_lt {before after : List (List NodeEntry)} {wave : List NodeEntry} {dep id : String}
    (hdep : dep ∈ before.flatten.map Prod.fst) (hid : id ∉ before.flatten.map Prod.fst) :
    rank (before ++ wave :: after) dep < rank (before ++ wave :: after) id := by
  rw [rank, rank, List.flatten_append, List.map_append, List.idxOf_append_of_mem hdep,
    List.idxOf_append_of_notMem hid]
  have := List.idxOf_lt_length_of_mem hdep
  omega

/-- A whole plan keeps every dependency inside, at an earlier place. -/
lemma Planned.dependency (h : Planned lower dag waves [] completed) {dep id : String}
    (hdepends : dag.DependsOn dep id) : dep ∈ dag.ids ∧ rank waves dep < rank waves id := by
  obtain ⟨entry, hentry, rfl, hdep⟩ := hdepends
  have hplaced : entry ∈ waves.flatten := by
    have := h.perm.mem_iff.mpr hentry
    rwa [List.append_nil] at this
  obtain ⟨wave, hwave, hmem⟩ := List.mem_flatten.mp hplaced
  obtain ⟨before, after, rfl⟩ := List.append_of_mem hwave
  have hbefore := h.ordered before wave after rfl entry hmem dep hdep
  have hkeys := h.nodup
  rw [List.append_nil, List.flatten_append, List.map_append, List.nodup_append'] at hkeys
  refine ⟨?_, rank_lt hbefore fun hid => hkeys.2.2 hid ?_⟩
  · obtain ⟨other, hother, rfl⟩ := List.mem_map.mp hbefore
    refine List.mem_map_of_mem (h.perm.mem_iff.mp ?_)
    rw [List.append_nil, List.flatten_append]
    exact List.mem_append_left _ hother
  · rw [List.flatten_cons, List.map_append]
    exact List.mem_append_left _ (List.mem_map_of_mem hmem)

lemma Planned.acyclic (h : Planned lower dag waves [] completed) :
    ¬(dag.HasCycle ∨ dag.NamesForeign) := by
  rintro (⟨id, hcycle⟩ | ⟨entry, hentry, dep, hdep, hforeign⟩)
  · have hlt : rank waves id < rank waves id := by
      have hlift : Relation.TransGen (fun m n : ℕ => m < n) (rank waves id) (rank waves id) :=
        hcycle.lift (rank waves) fun u v huv => (h.dependency huv).2
      rwa [Relation.transGen_eq_self] at hlift
    exact lt_irrefl _ hlt
  · exact hforeign (h.dependency ⟨entry, hentry, rfl, hdep⟩).1

/-- Every node stands under its own id. -/
def Keyed (dag : RefactoringTaskDag) : Prop := ∀ entry ∈ dag.nodes, entry.1 = entry.2.nodeId

/-- Waves that hold every node once, keep the dependencies and share no file within a wave. -/
structure SoundWaves (lower : String → String) (dag : RefactoringTaskDag)
    (waves : List (List RefactoringTaskNode)) : Prop where
  perm : waves.flatten.Perm (dag.nodes.map Prod.snd)
  ordered : ∀ before wave after, waves = before ++ wave :: after →
    ∀ node ∈ wave, ∀ dep ∈ node.dependencies, ∃ earlier ∈ before, ∃ other ∈ earlier,
      other.nodeId = dep
  disjoint : ∀ wave ∈ waves, wave.Pairwise (ScopesDisjoint lower)

lemma Planned.sound (hkeyed : dag.Keyed) (h : Planned lower dag waves [] completed) :
    SoundWaves lower dag (waves.map (List.map Prod.snd)) := by
  have hperm := h.perm
  rw [List.append_nil] at hperm
  refine ⟨?_, ?_, ?_⟩
  · rw [← List.map_flatten]
    exact hperm.map Prod.snd
  · intro before wave after heq node hnode dep hdep
    obtain ⟨before', rest, rfl, rfl, hrest⟩ := List.map_eq_append_iff.mp heq
    obtain ⟨wave', after', rfl, rfl, rfl⟩ := List.map_eq_cons_iff.mp hrest
    obtain ⟨entry, hentry, rfl⟩ := List.mem_map.mp hnode
    obtain ⟨other, hother, rfl⟩ :=
      List.mem_map.mp (h.ordered before' wave' after' rfl entry hentry dep hdep)
    obtain ⟨earlier, hearlier, hmem⟩ := List.mem_flatten.mp hother
    have hnode' : other ∈ dag.nodes := by
      refine hperm.mem_iff.mp ?_
      rw [List.flatten_append]
      exact List.mem_append_left _ hother
    exact ⟨earlier.map Prod.snd, List.mem_map_of_mem hearlier, other.2, List.mem_map_of_mem hmem,
      (hkeyed other hnode').symm⟩
  · intro wave hwave
    obtain ⟨wave', hwave', rfl⟩ := List.mem_map.mp hwave
    exact List.pairwise_map.mpr (h.disjoint wave' hwave')

/-- `get_parallel_waves` ends, raises exactly for a cycle or a foreign dependency, and returns sound
waves otherwise. -/
theorem getParallelWaves_correct (lower : String → String) (dag : RefactoringTaskDag)
    (hkeyed : dag.Keyed) (fuel : ℕ) (hfuel : dag.nodes.length ≤ fuel) :
    ∃ result, dag.getParallelWaves lower fuel = some result ∧
      ((∃ message, result = .error message) ↔ dag.HasCycle ∨ dag.NamesForeign) ∧
      ∀ waves, result = .ok waves → SoundWaves lower dag waves := by
  have hends := waveLoop_ends (planned_start lower dag) hfuel
  rw [List.map_nil] at hends
  rcases validateAcyclic_ends hfuel with hvalid | hvalid
  · have hloop : dag.getParallelWaves lower fuel = waveLoop lower fuel dag.nodes [] [] := by
      rw [getParallelWaves, hvalid]
      rfl
    rw [hloop]
    rcases hends with ⟨waves, completed, hplanned, hrun⟩ | ⟨waves, remaining, completed, hplanned,
      hstuck, hrun⟩
    · refine ⟨_, hrun, iff_of_false nofun hplanned.acyclic, ?_⟩
      rintro _ ⟨⟩
      exact hplanned.sound hkeyed
    · exact ⟨_, hrun, iff_of_true ⟨_, rfl⟩ (cycle_of_stuck hplanned hstuck), nofun⟩
  · have hcycle : dag.HasCycle := by
      by_contra hacyclic
      rw [validateAcyclic_acyclic hacyclic hfuel] at hvalid
      cases hvalid
    refine ⟨.error cycleDetected, ?_, iff_of_true ⟨_, rfl⟩ (.inl hcycle), nofun⟩
    rw [getParallelWaves, hvalid]
    rfl

/-- Two tasks on one file, and a third one behind the second. -/
def sampleDag : RefactoringTaskDag where
  nodes := [("a", ⟨"a", ["src/Core.py"], [], 1, 1⟩), ("b", ⟨"b", ["src\\core.py"], [], 1, 2⟩),
    ("c", ⟨"c", [], ["b"], 1, 1⟩)]
  nodup := by decide

theorem sampleDag_waves :
    ∃ result, sampleDag.getParallelWaves String.toLower 3 = some result ∧
      ((∃ message, result = .error message) ↔ sampleDag.HasCycle ∨ sampleDag.NamesForeign) ∧
      ∀ waves, result = .ok waves → SoundWaves String.toLower sampleDag waves :=
  getParallelWaves_correct String.toLower sampleDag (by unfold Keyed; decide) 3 (by decide)

end RefactoringTaskDag

end AgentSystem.Factory
