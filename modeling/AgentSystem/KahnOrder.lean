import AgentSystem.DepthFirst

/-!
# Kahn's algorithm

Counting the edges into each vertex of a finite directed graph and taking away those of the vertices
that are reached. Edges may occur more than once.
-/
namespace AgentSystem.KahnOrder

open DepthFirst

variable {V : Type} [DecidableEq V]

omit [DecidableEq V] in
/-- An acyclic relation has a minimal element in every finite set that is not empty. -/
lemma exists_minimal {R : V → V → Prop} (hacyclic : ∀ v, ¬Relation.TransGen R v v) {S : Finset V}
    (hS : S.Nonempty) : ∃ v ∈ S, ∀ u ∈ S, ¬R u v := by
  let before : S → S → Prop := fun u v => Relation.TransGen R u v
  have : IsTrans S before := ⟨fun _ _ _ => Relation.TransGen.trans⟩
  have : Std.Irrefl before := ⟨fun v => hacyclic v⟩
  have hwell : WellFounded before := Finite.wellFounded_of_trans_of_irrefl before
  obtain ⟨v, hv⟩ := hS
  obtain ⟨m, -, hmin⟩ := hwell.has_min Set.univ ⟨⟨v, hv⟩, trivial⟩
  exact ⟨m, m.2, fun u hu hR => hmin ⟨u, hu⟩ trivial (.single hR)⟩

/-! ## The graph -/

/-- The number of edges into a vertex and the ends of the edges out of it. -/
structure Links (V : Type) where
  inDegree : V → ℤ := fun _ => 0
  adjacent : V → List V := fun _ => []

def Links.addEdge (g : Links V) (edge : V × V) : Links V where
  inDegree := Function.update g.inDegree edge.2 (g.inDegree edge.2 + 1)
  adjacent := Function.update g.adjacent edge.1 (g.adjacent edge.1 ++ [edge.2])

def links (edges : List (V × V)) : Links V := edges.foldl Links.addEdge {}

lemma links_append (edges : List (V × V)) (edge : V × V) :
    links (edges ++ [edge]) = (links edges).addEdge edge := by
  rw [links, links, List.foldl_append]
  rfl

lemma links_inDegree (edges : List (V × V)) (v : V) :
    (links edges).inDegree v = edges.countP fun edge => edge.2 = v := by
  induction edges using List.reverseRecOn with
  | nil => rfl
  | append_singleton edges edge ih =>
      rw [links_append, List.countP_append, Nat.cast_add, ← ih]
      by_cases h : v = edge.2
      · subst h
        simp [Links.addEdge]
      · simp [Links.addEdge, Function.update_of_ne h, Ne.symm h]

lemma links_adjacent (edges : List (V × V)) (u v : V) :
    ((links edges).adjacent u).count v = edges.countP fun edge => edge.1 = u ∧ edge.2 = v := by
  induction edges using List.reverseRecOn with
  | nil => rfl
  | append_singleton edges edge ih =>
      rw [links_append, List.countP_append, ← ih]
      by_cases h : u = edge.1
      · subst h
        simp [Links.addEdge, List.count_append, List.count_singleton]
      · simp [Links.addEdge, Function.update_of_ne h, Ne.symm h]

/-! ## The loop -/

/-- One edge is taken away; a vertex without edges into it joins the queue. -/
def relax (s : (V → ℤ) × List V) (v : V) : (V → ℤ) × List V :=
  let inDegree := Function.update s.1 v (s.1 v - 1)
  (inDegree, if inDegree v = 0 then s.2 ++ [v] else s.2)

/-- The vertices of the queue are visited; their number, `none` when the fuel runs out. -/
def visit (adjacent : V → List V) : ℕ → (V → ℤ) → List V → ℕ → Option ℕ
  | _, _, [], visited => some visited
  | 0, _, _ :: _, _ => none
  | fuel + 1, inDegree, current :: queue, visited =>
      let relaxed := (adjacent current).foldl relax (inDegree, queue)
      visit adjacent fuel relaxed.1 relaxed.2 (visited + 1)

lemma relax_spec {ends : List V} {inDegree : V → ℤ} {queue : List V}
    (hcount : ∀ v, (ends.count v : ℤ) ≤ inDegree v) (hnodup : queue.Nodup)
    (hzero : ∀ v ∈ queue, inDegree v = 0) :
    let relaxed := ends.foldl relax (inDegree, queue)
    (∀ v, relaxed.1 v = inDegree v - ends.count v) ∧ relaxed.2.Nodup ∧
      ∀ v, v ∈ relaxed.2 ↔ v ∈ queue ∨ v ∈ ends ∧ relaxed.1 v = 0 := by
  induction ends generalizing inDegree queue with
  | nil => simp [hnodup]
  | cons first ends ih =>
      have hfirst := hcount first
      rw [List.count_cons_self] at hfirst
      push_cast at hfirst
      have hfresh : first ∉ queue := fun hmem => by
        have := hzero first hmem
        omega
      have hnext : (relax (inDegree, queue) first).1 =
          Function.update inDegree first (inDegree first - 1) := rfl
      have hcount' : ∀ v, (ends.count v : ℤ) ≤ (relax (inDegree, queue) first).1 v := by
        intro v
        rw [hnext]
        by_cases hv : v = first
        · subst hv
          rw [Function.update_self]
          omega
        · rw [Function.update_of_ne hv]
          have := hcount v
          rwa [List.count_cons_of_ne (Ne.symm hv)] at this
      have hqueue : ∀ v, v ∈ (relax (inDegree, queue) first).2 ↔
          v ∈ queue ∨ v = first ∧ inDegree first = 1 := by
        intro v
        simp only [relax, Function.update_self]
        split_ifs with hone
        · rw [List.mem_append, List.mem_singleton]
          exact or_congr_right ⟨fun h => ⟨h, by omega⟩, fun h => h.1⟩
        · exact ⟨.inl, fun h => h.resolve_right fun h => hone (by omega)⟩
      have hnodup' : (relax (inDegree, queue) first).2.Nodup := by
        simp only [relax]
        split_ifs
        · exact hnodup.append (List.nodup_singleton _) (by simpa using hfresh)
        · exact hnodup
      have hzero' : ∀ v ∈ (relax (inDegree, queue) first).2,
          (relax (inDegree, queue) first).1 v = 0 := by
        intro v hv
        rw [hnext]
        rcases (hqueue v).mp hv with hold | ⟨rfl, hone⟩
        · have hne : v ≠ first := fun heq => hfresh (heq ▸ hold)
          rw [Function.update_of_ne hne]
          exact hzero v hold
        · rw [Function.update_self, hone]
          rfl
      obtain ⟨hdegree, hkept, hmem⟩ := ih hcount' hnodup' hzero'
      refine ⟨fun v => ?_, hkept, fun v => ?_⟩
      · rw [List.foldl_cons, hdegree, hnext]
        by_cases hv : v = first
        · subst hv
          rw [Function.update_self, List.count_cons_self]
          push_cast
          ring
        · rw [Function.update_of_ne hv, List.count_cons_of_ne (Ne.symm hv)]
      · rw [List.foldl_cons, hmem, hqueue, List.mem_cons]
        have hdone : v = first → inDegree first = 1 →
            (ends.foldl relax (relax (inDegree, queue) first)).1 v = 0 := by
          rintro rfl hone
          have hle := hcount' v
          rw [hdegree, hnext, Function.update_self] at *
          omega
        have hlast : v = first → v ∉ ends →
            (ends.foldl relax (relax (inDegree, queue) first)).1 v = 0 → inDegree first = 1 := by
          rintro rfl hnone heq
          rw [hdegree, hnext, Function.update_self, List.count_eq_zero_of_not_mem hnone] at heq
          push_cast at heq
          omega
        constructor
        · rintro ((hold | ⟨heq, hone⟩) | ⟨hend, hleft⟩)
          · exact .inl hold
          · exact .inr ⟨.inl heq, hdone heq hone⟩
          · exact .inr ⟨.inr hend, hleft⟩
        · rintro (hold | ⟨hjoin, hleft⟩)
          · exact .inl (.inl hold)
          · by_cases hend : v ∈ ends
            · exact .inr ⟨hend, hleft⟩
            · have heq := hjoin.resolve_right hend
              exact .inl (.inr ⟨heq, hlast heq hend hleft⟩)

/-! ## What is visited -/

/-- The degrees and the queue after some visits. -/
structure Progress (nodes : List V) (edges : List (V × V)) (inDegree : V → ℤ) (queue done : List V) :
    Prop where
  degree : ∀ v, inDegree v = edges.countP fun edge => edge.2 = v ∧ edge.1 ∉ done
  nodup : (queue ++ done).Nodup
  reached : ∀ v, v ∈ queue ++ done ↔ v ∈ nodes ∧ inDegree v = 0

variable {nodes : List V} {edges : List (V × V)}

lemma progress_start (hnodes : nodes.Nodup) :
    Progress nodes edges (links edges).inDegree
      (nodes.filter fun v => (links edges).inDegree v = 0) [] where
  degree v := by simp [links_inDegree]
  nodup := by simpa using hnodes.filter _
  reached v := by simp

lemma countP_visited (edges : List (V × V)) {current : V} {done : List V}
    (hcurrent : current ∉ done) (v : V) :
    (edges.countP fun edge => edge.2 = v ∧ edge.1 ∉ done) =
      (edges.countP fun edge => edge.2 = v ∧ edge.1 ∉ current :: done) +
        edges.countP fun edge => edge.1 = current ∧ edge.2 = v := by
  induction edges with
  | nil => rfl
  | cons edge edges ih =>
      simp only [List.countP_cons, ih, List.mem_cons, not_or]
      by_cases hv : edge.2 = v <;> by_cases hc : edge.1 = current
      · simp [hv, hc, hcurrent]
        omega
      · by_cases hd : edge.1 ∈ done
        · simp [hv, hc, hd]
        · simp [hv, hc, hd]
          omega
      · simp [hv]
      · simp [hv]

/-- A visit takes the edges of its vertex away. -/
lemma Progress.step {inDegree : V → ℤ} {current : V} {queue done : List V}
    (hclosed : ∀ edge ∈ edges, edge.2 ∈ nodes)
    (h : Progress nodes edges inDegree (current :: queue) done) :
    let relaxed := ((links edges).adjacent current).foldl relax (inDegree, queue)
    Progress nodes edges relaxed.1 relaxed.2 (current :: done) := by
  have hcurrent : current ∉ done := fun hmem =>
    (List.nodup_append'.mp h.nodup).2.2 List.mem_cons_self hmem
  have hsplit := countP_visited edges hcurrent
  have hcount : ∀ v, (((links edges).adjacent current).count v : ℤ) ≤ inDegree v := by
    intro v
    rw [h.degree, links_adjacent, hsplit]
    push_cast
    omega
  have hqueue : queue.Nodup := (List.nodup_append'.mp h.nodup).1.of_cons
  have hzero : ∀ v ∈ queue, inDegree v = 0 := fun v hv =>
    ((h.reached v).mp (List.mem_append_left _ (List.mem_cons_of_mem _ hv))).2
  obtain ⟨hdegree, hnodup, hmem⟩ := relax_spec hcount hqueue hzero
  have hnext : ∀ v, (((links edges).adjacent current).foldl relax (inDegree, queue)).1 v =
      edges.countP fun edge => edge.2 = v ∧ edge.1 ∉ current :: done := by
    intro v
    rw [hdegree, h.degree, links_adjacent, hsplit]
    push_cast
    ring
  have hends : ∀ v, v ∈ (links edges).adjacent current → v ∈ nodes := by
    intro v hv
    have hpos : 0 < ((links edges).adjacent current).count v := List.count_pos_iff.mpr hv
    rw [links_adjacent, List.countP_pos_iff] at hpos
    obtain ⟨edge, hedge, heq⟩ := hpos
    simp only [decide_eq_true_eq] at heq
    exact heq.2 ▸ hclosed edge hedge
  -- A vertex that is visited or waits has lost its last edge before, one that joins has an edge.
  have hold : ∀ v, v ∈ ((links edges).adjacent current) → v ∉ current :: (queue ++ done) := by
    intro v hv hmem
    have hpos : 0 < ((links edges).adjacent current).count v := List.count_pos_iff.mpr hv
    have := ((h.reached v).mp (by simpa using hmem)).2
    have := hcount v
    omega
  refine ⟨hnext, ?_, fun v => ?_⟩
  · rw [List.nodup_append']
    refine ⟨hnodup, List.nodup_cons.mpr ⟨hcurrent, (List.nodup_append'.mp h.nodup).2.1⟩, ?_⟩
    intro v hv hdone
    rcases (hmem v).mp hv with hwaiting | ⟨hjoined, -⟩
    · have hnodup' := h.nodup
      rw [List.cons_append, List.nodup_cons] at hnodup'
      rcases List.mem_cons.mp hdone with rfl | hbefore
      · exact hnodup'.1 (List.mem_append_left _ hwaiting)
      · exact (List.nodup_append'.mp hnodup'.2).2.2 hwaiting hbefore
    · refine hold v hjoined ?_
      rcases List.mem_cons.mp hdone with rfl | hbefore
      · exact List.mem_cons_self
      · exact List.mem_cons_of_mem _ (List.mem_append_right _ hbefore)
  · rw [List.mem_append, hmem, List.mem_cons]
    have hreached := h.reached v
    rw [List.cons_append, List.mem_cons, List.mem_append] at hreached
    have hstay : inDegree v = 0 →
        (((links edges).adjacent current).foldl relax (inDegree, queue)).1 v = 0 := by
      intro heq
      have := hcount v
      rw [hdegree]
      omega
    have hjoin : inDegree v ≠ 0 →
        (((links edges).adjacent current).foldl relax (inDegree, queue)).1 v = 0 →
        v ∈ (links edges).adjacent current := by
      intro hne heq
      by_contra hnone
      rw [hdegree, List.count_eq_zero_of_not_mem hnone] at heq
      push_cast at heq
      omega
    constructor
    · rintro ((hwaiting | ⟨hend, hleft⟩) | hvisited)
      · obtain ⟨hnode, heq⟩ := hreached.mp (.inr (.inl hwaiting))
        exact ⟨hnode, hstay heq⟩
      · exact ⟨hends v hend, hleft⟩
      · obtain ⟨hnode, heq⟩ := hreached.mp (hvisited.imp_right .inr)
        exact ⟨hnode, hstay heq⟩
    · rintro ⟨hnode, hleft⟩
      by_cases heq : inDegree v = 0
      · rcases hreached.mpr ⟨hnode, heq⟩ with hcurrent | hwaiting | hvisited
        · exact .inr (.inl hcurrent)
        · exact .inl (.inl hwaiting)
        · exact .inr (.inr hvisited)
      · exact .inl (.inr ⟨hjoin heq hleft, hleft⟩)

lemma Progress.length_le {inDegree : V → ℤ} {queue done : List V}
    (h : Progress nodes edges inDegree queue done) : queue.length + done.length ≤ nodes.length := by
  rw [← List.length_append]
  exact (List.subperm_of_subset h.nodup fun v hv => ((h.reached v).mp hv).1).length_le

/-- The vertices with an edge to this one. -/
def predecessors (edges : List (V × V)) (v : V) : List V := (edges.filter fun edge => edge.2 = v).map Prod.fst

lemma mem_predecessors {u v : V} : u ∈ predecessors edges v ↔ (u, v) ∈ edges := by
  simp [predecessors]

/-- A vertex is visited after its predecessors. -/
lemma Progress.topological {inDegree : V → ℤ} {current : V} {queue done : List V}
    (h : Progress nodes edges inDegree (current :: queue) done)
    (horder : Topological (predecessors edges) done) : Topological (predecessors edges) (current :: done) := by
  refine ⟨fun hmem => (List.nodup_append'.mp h.nodup).2.2 List.mem_cons_self hmem, fun u hu => ?_, horder⟩
  have hzero : inDegree current = 0 := ((h.reached current).mp (by simp)).2
  rw [h.degree, Nat.cast_eq_zero, List.countP_eq_zero] at hzero
  by_contra hdone
  exact hzero (u, current) (mem_predecessors.mp hu) (by simp [hdone])

/-- With a step for each vertex the loop ends, and has visited what no cycle keeps back, each vertex after its
predecessors. -/
lemma visit_ends (hclosed : ∀ edge ∈ edges, edge.2 ∈ nodes) {fuel : ℕ} {inDegree : V → ℤ}
    {queue done : List V} (h : Progress nodes edges inDegree queue done)
    (horder : Topological (predecessors edges) done) (hfuel : nodes.length ≤ fuel + done.length) :
    ∃ inDegree' done', Progress nodes edges inDegree' [] done' ∧ Topological (predecessors edges) done' ∧
      visit (links edges).adjacent fuel inDegree queue done.length = some done'.length := by
  induction fuel generalizing inDegree queue done with
  | zero =>
      cases queue with
      | nil => exact ⟨inDegree, done, h, horder, rfl⟩
      | cons current queue =>
          have := h.length_le
          rw [List.length_cons] at this
          omega
  | succ fuel ih =>
      cases queue with
      | nil => exact ⟨inDegree, done, h, horder, rfl⟩
      | cons current queue =>
          have hlength : nodes.length ≤ fuel + (current :: done).length := by
            rw [List.length_cons]
            omega
          exact ih (h.step hclosed) (h.topological horder) hlength

lemma Progress.complete {inDegree : V → ℤ} {done : List V} (hnodes : nodes.Nodup)
    (hclosed : ∀ edge ∈ edges, edge.1 ∈ nodes ∧ edge.2 ∈ nodes)
    (hacyclic : ∀ v, ¬Relation.TransGen (fun u v => (u, v) ∈ edges) v v)
    (h : Progress nodes edges inDegree [] done) : done.length = nodes.length := by
  have hall : ∀ v ∈ nodes, v ∈ done := by
    by_contra hsome
    push Not at hsome
    obtain ⟨v, hv, hdone⟩ := hsome
    have hleft : (nodes.toFinset.filter (· ∉ done)).Nonempty := ⟨v, by simp [hv, hdone]⟩
    obtain ⟨m, hm, hmin⟩ := exists_minimal hacyclic hleft
    simp only [Finset.mem_filter, List.mem_toFinset] at hm hmin
    have hpos : inDegree m ≠ 0 := fun hzero =>
      hm.2 (by simpa using (h.reached m).mpr ⟨hm.1, hzero⟩)
    rw [h.degree, Nat.cast_ne_zero, ← Nat.pos_iff_ne_zero, List.countP_pos_iff] at hpos
    obtain ⟨edge, hedge, hinto⟩ := hpos
    simp only [decide_eq_true_eq] at hinto
    exact hmin edge.1 ⟨(hclosed edge hedge).1, hinto.2⟩ (hinto.1 ▸ hedge)
  refine le_antisymm ?_ (List.subperm_of_subset hnodes hall).length_le
  have := h.length_le
  rwa [List.length_nil, Nat.zero_add] at this

/-- Every vertex of an acyclic graph is visited. -/
theorem visit_acyclic (hnodes : nodes.Nodup)
    (hclosed : ∀ edge ∈ edges, edge.1 ∈ nodes ∧ edge.2 ∈ nodes)
    (hacyclic : ∀ v, ¬Relation.TransGen (fun u v => (u, v) ∈ edges) v v) {fuel : ℕ}
    (hfuel : nodes.length ≤ fuel) :
    visit (links edges).adjacent fuel (links edges).inDegree
      (nodes.filter fun v => (links edges).inDegree v = 0) 0 = some nodes.length := by
  obtain ⟨inDegree, done, hprogress, -, hvisit⟩ :=
    visit_ends (fun edge hedge => (hclosed edge hedge).2) (progress_start hnodes) trivial hfuel
  rw [← hprogress.complete hnodes hclosed hacyclic]
  exact hvisit

/-- A graph all of whose vertices are visited has no cycle. -/
theorem acyclic_of_visit (hnodes : nodes.Nodup) (hclosed : ∀ edge ∈ edges, edge.2 ∈ nodes) {fuel : ℕ}
    (hfuel : nodes.length ≤ fuel)
    (hvisit : visit (links edges).adjacent fuel (links edges).inDegree
      (nodes.filter fun v => (links edges).inDegree v = 0) 0 = some nodes.length) :
    ∀ v, ¬Relation.TransGen (fun u v => (u, v) ∈ edges) v v := by
  obtain ⟨inDegree, done, hprogress, horder, hends⟩ :=
    visit_ends hclosed (progress_start hnodes) trivial hfuel
  have hlength : done.length = nodes.length := Option.some.inj (hends.symm.trans hvisit)
  have hsub : done ⊆ nodes := fun v hv => ((hprogress.reached v).mp hv).1
  have hperm : done.Perm nodes :=
    (List.subperm_of_subset horder.nodup hsub).perm_of_length_le hlength.ge
  intro v hcycle
  obtain ⟨u, -, hedge⟩ := Relation.TransGen.tail'_iff.mp hcycle
  have hmem : v ∈ done := hperm.mem_iff.mpr (hclosed _ hedge)
  refine horder.acyclic v hmem (Relation.transGen_swap.mp ?_)
  exact hcycle.lift id fun _ _ h => mem_predecessors.mpr h

end AgentSystem.KahnOrder
