import AgentSystem.DepthFirst

/-!
# Traversals of a graph

A depth-first traversal with one set of marks does something at every vertex that it reaches, and a
walk follows the one successor of each vertex until there is none. Both are bounded, and a bound of
the number of vertices is enough.
-/
namespace AgentSystem.GraphTraversal

open DepthFirst

variable {V σ : Type} {next : V → List V}

/-! ## A traversal -/

/-- The visit of a vertex; the state is the marks and what the visits have made so far. -/
def visit [DecidableEq V] (next : V → List V) (enter : σ → V → σ) :
    ℕ → List V × σ → V → Option (List V × σ)
  | 0, _, _ => none
  | depth + 1, (marks, s), v =>
    if v ∈ marks then some (marks, s)
    else (next v).foldlM (visit next enter depth) (v :: marks, enter s v)

/-- The vertices in the order of their visits, when these start from some of them and find some
marks. -/
structure Traversal (next : V → List V) (vertices marks order : List V) : Prop where
  nodup : order.Nodup
  fresh : ∀ w ∈ order, w ∉ marks
  reached : ∀ w ∈ order, ∃ v ∈ vertices, Relation.ReflTransGen (Edge next) v w
  closed : ∀ w ∈ order, ∀ u ∈ next w, u ∈ order ∨ u ∈ marks
  all : ∀ v ∈ vertices, v ∈ order ∨ v ∈ marks

lemma traversal_marked {marks : List V} {v : V} (h : v ∈ marks) : Traversal next [v] marks [] where
  nodup := List.nodup_nil
  fresh _ hw := absurd hw List.not_mem_nil
  reached _ hw := absurd hw List.not_mem_nil
  closed _ hw := absurd hw List.not_mem_nil
  all _ hw := Or.inr (List.mem_singleton.mp hw ▸ h)

/-- The visit of a vertex without a mark is that of what it leads to. -/
lemma Traversal.cons {marks order : List V} {v : V} (hv : v ∉ marks)
    (h : Traversal next (next v) (v :: marks) order) : Traversal next [v] marks (v :: order) where
  nodup := List.nodup_cons.mpr ⟨fun hmem => h.fresh v hmem List.mem_cons_self, h.nodup⟩
  fresh w hw := by
    rcases List.mem_cons.mp hw with rfl | hw
    · exact hv
    · exact fun hmem => h.fresh w hw (List.mem_cons_of_mem _ hmem)
  reached w hw := by
    refine ⟨v, List.mem_singleton_self v, ?_⟩
    rcases List.mem_cons.mp hw with rfl | hw
    · exact Relation.ReflTransGen.refl
    · obtain ⟨u, hu, hreach⟩ := h.reached w hw
      exact Relation.ReflTransGen.head hu hreach
  closed w hw u hu := by
    rcases List.mem_cons.mp hw with rfl | hw
    · rcases h.all u hu with hmem | hmem
      · exact Or.inl (List.mem_cons_of_mem _ hmem)
      · exact (List.mem_cons.mp hmem).imp (fun heq => List.mem_cons.mpr (Or.inl heq)) id
    · rcases h.closed w hw u hu with hmem | hmem
      · exact Or.inl (List.mem_cons_of_mem _ hmem)
      · exact (List.mem_cons.mp hmem).imp (fun heq => List.mem_cons.mpr (Or.inl heq)) id
  all _ hw := Or.inl (List.mem_singleton.mp hw ▸ List.mem_cons_self)

/-- Visits one after the other. -/
lemma Traversal.append {marks order order' vertices : List V} {v : V}
    (h : Traversal next [v] marks order)
    (h' : Traversal next vertices (order.reverse ++ marks) order') :
    Traversal next (v :: vertices) marks (order ++ order') where
  nodup := List.nodup_append.mpr ⟨h.nodup, h'.nodup, fun w hw u hu heq =>
    h'.fresh u hu (List.mem_append_left _ (List.mem_reverse.mpr (heq ▸ hw)))⟩
  fresh w hw := by
    rcases List.mem_append.mp hw with hw | hw
    · exact h.fresh w hw
    · exact fun hmem => h'.fresh w hw (List.mem_append_right _ hmem)
  reached w hw := by
    rcases List.mem_append.mp hw with hw | hw
    · obtain ⟨u, hu, hreach⟩ := h.reached w hw
      exact ⟨u, List.mem_singleton.mp hu ▸ List.mem_cons_self, hreach⟩
    · obtain ⟨u, hu, hreach⟩ := h'.reached w hw
      exact ⟨u, List.mem_cons_of_mem _ hu, hreach⟩
  closed w hw u hu := by
    rcases List.mem_append.mp hw with hw | hw
    · exact (h.closed w hw u hu).imp (List.mem_append_left _) id
    · rcases h'.closed w hw u hu with hmem | hmem
      · exact Or.inl (List.mem_append_right _ hmem)
      · exact (List.mem_append.mp hmem).imp
          (fun hmem => List.mem_append_left _ (List.mem_reverse.mp hmem)) id
  all w hw := by
    rcases List.mem_cons.mp hw with rfl | hw
    · exact (h.all w (List.mem_singleton_self w)).imp (List.mem_append_left _) id
    · rcases h'.all w hw with hmem | hmem
      · exact Or.inl (List.mem_append_right _ hmem)
      · exact (List.mem_append.mp hmem).imp
          (fun hmem => List.mem_append_left _ (List.mem_reverse.mp hmem)) id

/-- A traversal without marks has what its first vertex reaches. -/
theorem Traversal.mem_iff {order : List V} {v w : V} (h : Traversal next [v] [] order) :
    w ∈ order ↔ Relation.ReflTransGen (Edge next) v w := by
  constructor
  · intro hw
    obtain ⟨u, hu, hreach⟩ := h.reached w hw
    rwa [List.mem_singleton.mp hu] at hreach
  · intro hreach
    induction hreach with
    | refl => exact (h.all v (List.mem_singleton_self v)).resolve_right List.not_mem_nil
    | tail _ hedge ih => exact (h.closed _ ih _ hedge).resolve_right List.not_mem_nil

section Visit

variable [DecidableEq V] {enter : σ → V → σ}

/-- What comes of visits: the marks of a traversal, and what was done in its order. -/
def Outcome (next : V → List V) (enter : σ → V → σ) (vertices marks : List V) (s : σ)
    (result : List V × σ) : Prop :=
  ∃ order, Traversal next vertices marks order ∧ result.1 = order.reverse ++ marks ∧
    result.2 = order.foldl enter s

omit [DecidableEq V] in
lemma outcome_foldlM {f : List V × σ → V → Option (List V × σ)}
    (hvisit : ∀ marks s v result, f (marks, s) v = some result → Outcome next enter [v] marks s result)
    {vertices marks : List V} {s : σ} {result : List V × σ}
    (h : vertices.foldlM f (marks, s) = some result) : Outcome next enter vertices marks s result := by
  induction vertices generalizing marks s with
  | nil =>
    rw [← Option.some.inj h]
    refine ⟨[], ⟨List.nodup_nil, ?_, ?_, ?_, ?_⟩, rfl, rfl⟩ <;>
      exact fun w hw => absurd hw List.not_mem_nil
  | cons v vertices ih =>
    rw [List.foldlM_cons] at h
    obtain ⟨⟨marks', s'⟩, hfirst, hrest⟩ := Option.bind_eq_some_iff.mp h
    obtain ⟨order, htraversal, hmarks, hs⟩ := hvisit marks s v (marks', s') hfirst
    simp only at hmarks hs
    obtain ⟨order', htraversal', hmarks', hs'⟩ := ih hrest
    refine ⟨order ++ order', htraversal.append (hmarks ▸ htraversal'), ?_, ?_⟩
    · rw [hmarks', hmarks, List.reverse_append, List.append_assoc]
    · rw [hs', hs, List.foldl_append]

theorem visit_outcome {depth : ℕ} {marks : List V} {s : σ} {v : V} {result : List V × σ}
    (h : visit next enter depth (marks, s) v = some result) :
    Outcome next enter [v] marks s result := by
  induction depth generalizing marks s v result with
  | zero => cases h
  | succ depth ih =>
    rw [visit] at h
    split at h
    · rename_i hv
      rw [← Option.some.inj h]
      exact ⟨[], traversal_marked hv, rfl, rfl⟩
    · rename_i hv
      obtain ⟨order, htraversal, hmarks, hs⟩ :=
        outcome_foldlM (fun marks s v result => ih) h
      refine ⟨v :: order, htraversal.cons hv, ?_, hs⟩
      rw [hmarks, List.reverse_cons, List.append_assoc, List.singleton_append]

omit [DecidableEq V] in
/-- Marks stay among the vertices. -/
lemma Outcome.marks_subset {nodes vertices marks : List V} {s : σ} {result : List V × σ}
    (h : Outcome next enter vertices marks s result) (hclosed : Closed next nodes)
    (hvertices : vertices ⊆ nodes) (hmarks : marks ⊆ nodes) (hnodup : marks.Nodup) :
    result.1 ⊆ nodes ∧ result.1.Nodup ∧ marks.length ≤ result.1.length := by
  obtain ⟨order, htraversal, hresult, -⟩ := h
  rw [hresult]
  refine ⟨List.append_subset.mpr ⟨fun w hw => ?_, hmarks⟩, ?_, by simp⟩
  · obtain ⟨v, hv, hreach⟩ := htraversal.reached w (List.mem_reverse.mp hw)
    exact hclosed.reach hreach (hvertices hv)
  · refine List.nodup_append.mpr ⟨List.nodup_reverse.mpr htraversal.nodup, hnodup, ?_⟩
    intro w hw u hu heq
    exact htraversal.fresh w (List.mem_reverse.mp hw) (heq ▸ hu)

lemma foldlM_visit_isSome {nodes : List V} {depth : ℕ} (hclosed : Closed next nodes)
    (hvisit : ∀ marks s v, v ∈ nodes → marks ⊆ nodes → marks.Nodup →
      nodes.length < depth + marks.length → (visit next enter depth (marks, s) v).isSome)
    {vertices marks : List V} {s : σ} (hvertices : vertices ⊆ nodes) (hmarks : marks ⊆ nodes)
    (hnodup : marks.Nodup) (hdepth : nodes.length < depth + marks.length) :
    (vertices.foldlM (visit next enter depth) (marks, s)).isSome := by
  induction vertices generalizing marks s with
  | nil => rfl
  | cons v vertices ih =>
    rw [List.cons_subset] at hvertices
    obtain ⟨⟨marks', s'⟩, hfirst⟩ := Option.isSome_iff_exists.mp
      (hvisit marks s v hvertices.1 hmarks hnodup hdepth)
    obtain ⟨hmarks', hnodup', hlength⟩ := (visit_outcome hfirst).marks_subset hclosed
      (List.cons_subset.mpr ⟨hvertices.1, List.nil_subset _⟩) hmarks hnodup
    rw [List.foldlM_cons, hfirst]
    exact ih hvertices.2 hmarks' hnodup' (hdepth.trans_le (Nat.add_le_add_left hlength depth))

/-- Every level adds a mark. -/
theorem visit_isSome {nodes : List V} (hclosed : Closed next nodes) {depth : ℕ} {marks : List V}
    {s : σ} {v : V} (hv : v ∈ nodes) (hmarks : marks ⊆ nodes) (hnodup : marks.Nodup)
    (hdepth : nodes.length < depth + marks.length) :
    (visit next enter depth (marks, s) v).isSome := by
  induction depth generalizing marks s v with
  | zero =>
    have := (List.subperm_of_subset hnodup hmarks).length_le
    omega
  | succ depth ih =>
    rw [visit]
    split
    · rfl
    · rename_i hfresh
      refine foldlM_visit_isSome hclosed (fun marks s v hv hmarks hnodup hdepth => ?_)
        (fun w hw => hclosed v hv w hw) (List.cons_subset.mpr ⟨hv, hmarks⟩)
        (List.nodup_cons.mpr ⟨hfresh, hnodup⟩) (by rw [List.length_cons]; omega)
      exact ih hv hmarks hnodup hdepth

end Visit

/-! ## A walk -/

/-- The walk from a vertex along the successors, `none` when it does not end within the bound. -/
def follow (succ : V → Option V) : ℕ → V → Option (List V)
  | 0, _ => none
  | n + 1, v =>
    match succ v with
    | none => some [v]
    | some w => (follow succ n w).map (v :: ·)

variable {succ : V → Option V}

/-- The successor of a vertex is the first vertex of every path from it. -/
lemma reach_succ {v w u : V} (hsucc : succ v = some w)
    (h : Relation.TransGen (fun a b => succ a = some b) v u) :
    Relation.ReflTransGen (fun a b => succ a = some b) w u := by
  obtain ⟨w', hw', hreach⟩ := Relation.TransGen.head'_iff.mp h
  rw [hsucc, Option.some.injEq] at hw'
  rwa [hw']

lemma follow_reach {n : ℕ} {v w : V} {walk : List V} (h : follow succ n v = some walk)
    (hw : w ∈ walk) : Relation.ReflTransGen (fun a b => succ a = some b) v w := by
  induction n generalizing v walk with
  | zero => cases h
  | succ n ih =>
    rw [follow] at h
    cases hsucc : succ v with
    | none =>
      rw [hsucc, Option.some.injEq] at h
      rw [← h, List.mem_singleton] at hw
      rw [hw]
    | some u =>
      rw [hsucc] at h
      obtain ⟨rest, hrest, rfl⟩ := Option.map_eq_some_iff.mp h
      rcases List.mem_cons.mp hw with rfl | hw
      · exact Relation.ReflTransGen.refl
      · exact Relation.ReflTransGen.head hsucc (ih hrest hw)

lemma follow_acyclic {n : ℕ} {v : V} {walk : List V} (h : follow succ n v = some walk) {w : V}
    (hreach : Relation.ReflTransGen (fun a b => succ a = some b) v w) :
    ¬ Relation.TransGen (fun a b => succ a = some b) w w := by
  induction n generalizing v w walk with
  | zero => cases h
  | succ n ih =>
    rw [follow] at h
    cases hsucc : succ v with
    | none =>
      intro hcycle
      have hvw : v = w := by
        rcases Relation.ReflTransGen.cases_head hreach with heq | ⟨u, hu, -⟩
        · exact heq
        · rw [hsucc] at hu
          cases hu
      subst hvw
      obtain ⟨u, hu, -⟩ := Relation.TransGen.head'_iff.mp hcycle
      rw [hsucc] at hu
      cases hu
    | some u =>
      rw [hsucc] at h
      obtain ⟨rest, hrest, -⟩ := Option.map_eq_some_iff.mp h
      intro hcycle
      rcases Relation.ReflTransGen.cases_head hreach with rfl | ⟨u', hu', hreach'⟩
      · -- the cycle goes through the successor, which is on a cycle then
        have hback := reach_succ hsucc hcycle
        exact ih hrest Relation.ReflTransGen.refl (Relation.TransGen.tail' hback hsucc)
      · rw [hsucc, Option.some.injEq] at hu'
        subst hu'
        exact ih hrest hreach' hcycle

/-- Without a cycle no vertex is met twice. -/
lemma follow_isSome {nodes path : List V} (hclosed : ∀ v ∈ nodes, ∀ w, succ v = some w → w ∈ nodes)
    {n : ℕ} {v : V} (hv : v ∈ nodes) (hpath : path ⊆ nodes) (hnodup : path.Nodup)
    (htrail : ∀ u ∈ path, Relation.TransGen (fun a b => succ a = some b) u v)
    (hlength : nodes.length ≤ n + path.length)
    (hacyclic : ∀ w, Relation.ReflTransGen (fun a b => succ a = some b) v w →
      ¬ Relation.TransGen (fun a b => succ a = some b) w w) : (follow succ n v).isSome := by
  have hfresh : v ∉ path := fun hmem => hacyclic v Relation.ReflTransGen.refl (htrail v hmem)
  induction n generalizing v path with
  | zero =>
    have hsub : v :: path ⊆ nodes := List.cons_subset.mpr ⟨hv, hpath⟩
    have hle := (List.subperm_of_subset (List.nodup_cons.mpr ⟨hfresh, hnodup⟩) hsub).length_le
    rw [List.length_cons] at hle
    omega
  | succ n ih =>
    rw [follow]
    cases hsucc : succ v with
    | none => rfl
    | some w =>
      have htrail' : ∀ u ∈ v :: path, Relation.TransGen (fun a b => succ a = some b) u w := by
        intro u hu
        rcases List.mem_cons.mp hu with rfl | hu
        · exact Relation.TransGen.single hsucc
        · exact (htrail u hu).tail hsucc
      have hacyclic' : ∀ u, Relation.ReflTransGen (fun a b => succ a = some b) w u →
          ¬ Relation.TransGen (fun a b => succ a = some b) u u :=
        fun u hreach => hacyclic u (Relation.ReflTransGen.head hsucc hreach)
      rw [Option.isSome_map]
      exact ih (hclosed v hv w hsucc) (List.cons_subset.mpr ⟨hv, hpath⟩)
        (List.nodup_cons.mpr ⟨hfresh, hnodup⟩) htrail' (by rw [List.length_cons]; omega) hacyclic'
        fun hmem => hacyclic' w Relation.ReflTransGen.refl (htrail' w hmem)

/-- A walk ends if it comes to no cycle. -/
theorem follow_isSome_iff {nodes : List V} (hclosed : ∀ v ∈ nodes, ∀ w, succ v = some w → w ∈ nodes)
    {n : ℕ} {v : V} (hv : v ∈ nodes) (hlength : nodes.length ≤ n) :
    (follow succ n v).isSome ↔
      ∀ w, Relation.ReflTransGen (fun a b => succ a = some b) v w →
        ¬ Relation.TransGen (fun a b => succ a = some b) w w := by
  constructor
  · intro h w hreach
    obtain ⟨walk, hwalk⟩ := Option.isSome_iff_exists.mp h
    exact follow_acyclic hwalk hreach
  · exact follow_isSome hclosed hv (List.nil_subset _) List.nodup_nil
      (fun u hu => absurd hu List.not_mem_nil) hlength

end AgentSystem.GraphTraversal
