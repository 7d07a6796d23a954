import Mathlib

/-!
# Depth-first search for a cycle

The three-colour search of a directed graph. The vertices that are being visited form the path from
the root of the search, the last of them first; a vertex is done after everything that it leads to.
-/
namespace AgentSystem.DepthFirst

variable {V : Type}

/-- The edges of a graph that is given by the ends of the edges out of each vertex. -/
def Edge (next : V → List V) (v w : V) : Prop := w ∈ next v

def Acyclic (next : V → List V) : Prop := ∀ v, ¬Relation.TransGen (Edge next) v v

/-- No edge leaves the vertices. -/
def Closed (next : V → List V) (nodes : List V) : Prop := ∀ v ∈ nodes, ∀ w ∈ next v, w ∈ nodes

/-- Edges start only at the vertices. -/
def Within (next : V → List V) (nodes : List V) : Prop := ∀ v, v ∉ nodes → next v = []

/-- Every vertex leads only to vertices further down the list, and none occurs twice. -/
def Topological (next : V → List V) : List V → Prop
  | [] => True
  | v :: rest => v ∉ rest ∧ (∀ w ∈ next v, w ∈ rest) ∧ Topological next rest

/-- A path with the last vertex first. -/
def Trail (next : V → List V) (trail : List V) : Prop := trail.IsChain fun w v => Edge next v w

/-- A walk along edges back to where it starts. -/
structure ClosedWalk (next : V → List V) (walk : List V) : Prop where
  long : 2 ≤ walk.length
  ends : walk.head? = walk.getLast?
  steps : walk.IsChain (Edge next)

/-! ## Topological orders -/

variable {next : V → List V}

lemma Topological.nodup {order : List V} (h : Topological next order) : order.Nodup := by
  induction order with
  | nil => exact List.nodup_nil
  | cons v rest ih => exact List.nodup_cons.mpr ⟨h.1, ih h.2.2⟩

lemma Topological.closed {order : List V} (h : Topological next order) : Closed next order := by
  induction order with
  | nil => nofun
  | cons v rest ih =>
      intro u hu w hw
      rcases List.mem_cons.mp hu with rfl | hrest
      · exact List.mem_cons_of_mem _ (h.2.1 w hw)
      · exact List.mem_cons_of_mem _ (ih h.2.2 u hrest w hw)

lemma Closed.reach {nodes : List V} (h : Closed next nodes) {v w : V}
    (hreach : Relation.ReflTransGen (Edge next) v w) (hv : v ∈ nodes) : w ∈ nodes := by
  induction hreach with
  | refl => exact hv
  | tail _ hedge ih => exact h _ ih _ hedge

/-- A vertex on a cycle is one of the vertices. -/
lemma Within.mem {nodes : List V} (h : Within next nodes) {v : V}
    (hcycle : Relation.TransGen (Edge next) v v) : v ∈ nodes := by
  obtain ⟨w, hedge, -⟩ := Relation.TransGen.head'_iff.mp hcycle
  by_contra hv
  rw [Edge, h v hv] at hedge
  exact List.not_mem_nil hedge

lemma Topological.acyclic {order : List V} (h : Topological next order) :
    ∀ v ∈ order, ¬Relation.TransGen (Edge next) v v := by
  induction order with
  | nil => nofun
  | cons v rest ih =>
      intro u hu hcycle
      rcases List.mem_cons.mp hu with rfl | hrest
      · obtain ⟨w, hedge, hback⟩ := Relation.TransGen.head'_iff.mp hcycle
        exact h.1 (h.2.2.closed.reach hback (h.2.1 w hedge))
      · exact ih h.2.2 u hrest hcycle

/-! ## Closed walks -/

lemma ClosedWalk.cycle {walk : List V} (h : ClosedWalk next walk) :
    ∃ v, Relation.TransGen (Edge next) v v := by
  obtain ⟨hlong, hends, hsteps⟩ := h
  match walk, hlong with
  | v :: w :: rest, _ =>
    have hlast : (w :: rest).getLast? = some v := by
      rw [List.head?_cons, List.getLast?_cons_cons] at hends
      exact hends.symm
    have hback : Relation.ReflTransGen (Edge next) w v := by
      rw [List.getLast?_eq_some_getLast (List.cons_ne_nil w rest), Option.some.injEq] at hlast
      exact List.relationReflTransGen_of_exists_isChain_cons rest
        (List.isChain_cons_cons.mp hsteps).2 hlast
    have hedge : Edge next v w := (List.isChain_cons_cons.mp hsteps).1
    exact ⟨v, Relation.TransGen.head' hedge hback⟩

variable [DecidableEq V]

/-- The part of a path from the first time that a vertex is on it, and back to that vertex. -/
def closeWalk (path : List V) (v : V) : List V := path.drop (path.idxOf v) ++ [v]

/-- The path to a vertex that is on the path already ends in a closed walk. -/
lemma Trail.closedWalk {v : V} {path : List V} (h : Trail next (v :: path)) (hv : v ∈ path) :
    ClosedWalk next (closeWalk path.reverse v) := by
  have hmem : v ∈ path.reverse := List.mem_reverse.mpr hv
  have hlt : path.reverse.idxOf v < path.reverse.length := List.idxOf_lt_length_of_mem hmem
  have hdrop : path.reverse.drop (path.reverse.idxOf v) =
      v :: path.reverse.drop (path.reverse.idxOf v + 1) := by
    rw [List.drop_eq_getElem_cons hlt, List.getElem_idxOf]
  have hwhole : (path.reverse ++ [v]).IsChain (Edge next) := by
    rw [← List.reverse_cons, List.isChain_reverse]
    exact h
  refine ⟨?_, ?_, ?_⟩
  · rw [closeWalk, hdrop]
    simp
  · rw [closeWalk, List.getLast?_append, hdrop]
    simp
  · apply hwhole.suffix
    exact ⟨path.reverse.take (path.reverse.idxOf v), by
      rw [closeWalk, ← List.append_assoc, List.take_append_drop]⟩

/-! ## The search -/

/-- Why a search stops: at the bound on its depth, or with the path to a vertex on that path. -/
inductive Failure (V : Type)
  | depth
  | cycle (trail : List V)

/-- The visit of a vertex; the state is the path to it and what is done. -/
def search (next : V → List V) :
    ℕ → List V × List V → V → Except (Failure V) (List V × List V)
  | 0, _, _ => .error .depth
  | depth + 1, (path, done), v =>
    if v ∈ path then .error (.cycle (v :: path))
    else if v ∈ done then .ok (path, done)
    else
      ((next v).foldlM (search next depth) (v :: path, done)).map fun state => (path, v :: state.2)

/-- The visits of all vertices one after the other. -/
def searchAll (next : V → List V) (depth : ℕ) (roots : List V) :
    Except (Failure V) (List V × List V) :=
  roots.foldlM (search next depth) ([], [])

/-- What holds between two visits. -/
structure State (next : V → List V) (path done : List V) : Prop where
  nodup : path.Nodup
  trail : Trail next path
  order : Topological next done
  apart : ∀ v ∈ path, v ∉ done

omit [DecidableEq V] in
lemma state_start : State next [] [] := ⟨List.nodup_nil, List.IsChain.nil, trivial, nofun⟩

/-- What comes of the visits of some vertices: all of them are done, or a path that meets itself. -/
def Outcome (next : V → List V) (path done vertices : List V) :
    Except (Failure V) (List V × List V) → Prop
  | .ok state =>
      state.1 = path ∧ State next path state.2 ∧ done ⊆ state.2 ∧ vertices ⊆ state.2
  | .error (.cycle trail) => Trail next trail ∧ ∃ v path, trail = v :: path ∧ v ∈ path
  | .error .depth => True

omit [DecidableEq V] in
/-- The visits of several vertices from what comes of each. -/
lemma outcome_foldlM {f : List V × List V → V → Except (Failure V) (List V × List V)}
    {path vertices : List V} {done : List V}
    (hvisit : ∀ v ∈ vertices, ∀ done, State next path done →
      Outcome next path done [v] (f (path, done) v))
    (hstate : State next path done) :
    Outcome next path done vertices (vertices.foldlM f (path, done)) := by
  induction vertices generalizing done with
  | nil => exact ⟨rfl, hstate, List.Subset.refl _, List.nil_subset _⟩
  | cons v vertices ih =>
      have hfirst := hvisit v List.mem_cons_self done hstate
      rw [List.foldlM_cons]
      cases hresult : f (path, done) v with
      | error failure =>
          rw [hresult] at hfirst
          cases failure with
          | depth => trivial
          | cycle trail => exact hfirst
      | ok state =>
          rw [hresult] at hfirst
          obtain ⟨hpath, hstate', hkept, hdone⟩ := hfirst
          have hrest := ih (fun w hw => hvisit w (List.mem_cons_of_mem _ hw)) hstate'
          have heq : state = (path, state.2) := by rw [← hpath]
          change Outcome next path done (v :: vertices) (vertices.foldlM f state)
          rw [heq]
          cases hlast : vertices.foldlM f (path, state.2) with
          | error failure =>
              rw [hlast] at hrest
              cases failure with
              | depth => trivial
              | cycle trail => exact hrest
          | ok last =>
              rw [hlast] at hrest
              obtain ⟨hpath', hstate'', hkept', hdone'⟩ := hrest
              refine ⟨hpath', hstate'', fun u hu => hkept' (hkept hu), ?_⟩
              apply List.cons_subset.mpr
              exact ⟨hkept' (hdone List.mem_cons_self), hdone'⟩

/-- A visit keeps the state, and leaves its vertex done. -/
lemma search_outcome {depth : ℕ} {path done : List V} {v : V} (hstate : State next path done)
    (htrail : Trail next (v :: path)) :
    Outcome next path done [v] (search next depth (path, done) v) := by
  induction depth generalizing path done v with
  | zero => trivial
  | succ depth ih =>
      rw [search]
      split_ifs with hpath hdone
      · exact ⟨htrail, v, path, rfl, hpath⟩
      · exact ⟨rfl, hstate, List.Subset.refl _, by simpa using hdone⟩
      · have hstate' : State next (v :: path) done :=
          ⟨List.nodup_cons.mpr ⟨hpath, hstate.nodup⟩, htrail, hstate.order, fun u hu => by
            rcases List.mem_cons.mp hu with rfl | hold
            · exact hdone
            · exact hstate.apart u hold⟩
        have hfold : Outcome next (v :: path) done (next v)
            ((next v).foldlM (search next depth) (v :: path, done)) :=
          outcome_foldlM (fun w hw done' hstate'' =>
            ih hstate'' (List.isChain_cons_cons.mpr ⟨hw, htrail⟩)) hstate'
        cases hresult : (next v).foldlM (search next depth) (v :: path, done) with
        | error failure =>
            rw [hresult] at hfold
            cases failure with
            | depth => trivial
            | cycle trail => exact hfold
        | ok state =>
            rw [hresult] at hfold
            obtain ⟨-, hstate'', hkept, hnext⟩ := hfold
            have hfresh : v ∉ state.2 := hstate''.apart v List.mem_cons_self
            refine ⟨rfl, ⟨hstate.nodup, hstate.trail, ⟨hfresh, hnext, hstate''.order⟩, ?_⟩, ?_, ?_⟩
            · intro u hu hmem
              rcases List.mem_cons.mp hmem with rfl | hold
              · exact hpath hu
              · exact hstate''.apart u (List.mem_cons_of_mem _ hu) hold
            · exact fun u hu => List.mem_cons_of_mem _ (hkept hu)
            · simp

lemma searchAll_outcome (next : V → List V) (depth : ℕ) (roots : List V) :
    Outcome next [] [] roots (searchAll next depth roots) :=
  outcome_foldlM (fun v _ _ hstate => search_outcome hstate (List.isChain_singleton v)) state_start

/-- After the visits of all vertices every one is done, in a topological order. -/
theorem searchAll_ok {depth : ℕ} {roots : List V} {state : List V × List V}
    (h : searchAll next depth roots = .ok state) : Topological next state.2 ∧ roots ⊆ state.2 := by
  have hall := searchAll_outcome next depth roots
  rw [h] at hall
  exact ⟨hall.2.1.order, hall.2.2.2⟩

/-- A cycle that is found is one. -/
theorem searchAll_cycle {depth : ℕ} {roots trail : List V}
    (h : searchAll next depth roots = .error (.cycle trail)) :
    Trail next trail ∧ ∃ v path, trail = v :: path ∧ v ∈ path := by
  have hall := searchAll_outcome next depth roots
  rw [h] at hall
  exact hall

/-! ## The bound on the depth -/

lemma search_path {depth : ℕ} {path done : List V} {v : V} {state : List V × List V}
    (h : search next depth (path, done) v = .ok state) : state.1 = path := by
  cases depth with
  | zero => cases h
  | succ depth =>
      rw [search] at h
      split_ifs at h with hpath hdone
      · cases h
        rfl
      · cases hresult : (next v).foldlM (search next depth) (v :: path, done) with
        | error failure =>
            rw [hresult] at h
            cases h
        | ok state' =>
            rw [hresult] at h
            cases h
            rfl

lemma foldlM_search_path {depth : ℕ} {path vertices done : List V} {state : List V × List V}
    (h : vertices.foldlM (search next depth) (path, done) = .ok state) : state.1 = path := by
  induction vertices generalizing done with
  | nil =>
      cases h
      rfl
  | cons v vertices ih =>
      rw [List.foldlM_cons] at h
      cases hresult : search next depth (path, done) v with
      | error failure =>
          rw [hresult] at h
          cases h
      | ok first =>
          rw [hresult, ← Prod.mk.eta (p := first), search_path hresult] at h
          exact ih h

/-- A fold that forgets why a step fails. -/
lemma foldlM_toOption {α β ε : Type} {f : β → α → Except ε β} {g : β → α → Option β}
    (h : ∀ b a, (f b a).toOption = g b a) (items : List α) (b : β) :
    (items.foldlM f b).toOption = items.foldlM g b := by
  induction items generalizing b with
  | nil => rfl
  | cons a items ih =>
      rw [List.foldlM_cons, List.foldlM_cons, ← h b a]
      cases f b a with
      | error failure => rfl
      | ok b' => exact ih b'

/-- A bound that stops no visit stops none of several. -/
lemma foldlM_search_depth {depth : ℕ} {path vertices done : List V}
    (hvisit : ∀ v ∈ vertices, ∀ done, search next depth (path, done) v ≠ .error .depth) :
    vertices.foldlM (search next depth) (path, done) ≠ .error .depth := by
  induction vertices generalizing done with
  | nil => nofun
  | cons v vertices ih =>
      rw [List.foldlM_cons]
      cases hresult : search next depth (path, done) v with
      | error failure =>
          intro heq
          apply hvisit v List.mem_cons_self done
          rw [hresult]
          exact heq
      | ok state =>
          have heq : state = (path, state.2) := by rw [← search_path hresult]
          change vertices.foldlM (search next depth) state ≠ .error .depth
          rw [heq]
          exact ih fun w hw => hvisit w (List.mem_cons_of_mem _ hw)

/-- Every level adds a vertex to the path, so the number of vertices bounds the depth. -/
lemma search_depth {nodes : List V} (hwithin : Within next nodes) {depth : ℕ} {path done : List V}
    {v : V} (hnodup : path.Nodup) (hsub : path ⊆ nodes) (hdepth : nodes.length < depth + path.length) :
    search next depth (path, done) v ≠ .error .depth := by
  induction depth generalizing path done v with
  | zero =>
      have := (List.subperm_of_subset hnodup hsub).length_le
      omega
  | succ depth ih =>
      rw [search]
      split_ifs with hpath hdone
      · nofun
      · nofun
      · by_cases hv : v ∈ nodes
        · have hnodup' : (v :: path).Nodup := List.nodup_cons.mpr ⟨hpath, hnodup⟩
          have hsub' : v :: path ⊆ nodes := List.cons_subset.mpr ⟨hv, hsub⟩
          have hdepth' : nodes.length < depth + (v :: path).length := by
            rw [List.length_cons]
            omega
          have hfold : (next v).foldlM (search next depth) (v :: path, done) ≠ .error .depth :=
            foldlM_search_depth fun w _ done' => ih hnodup' hsub' hdepth'
          intro heq
          cases hresult : (next v).foldlM (search next depth) (v :: path, done) with
          | error failure =>
              rw [hresult] at heq hfold
              cases heq
              exact hfold rfl
          | ok state =>
              rw [hresult] at heq
              cases heq
        · rw [hwithin v hv]
          nofun

lemma searchAll_depth {nodes : List V} (hwithin : Within next nodes) {depth : ℕ} {roots : List V}
    (hdepth : nodes.length < depth) : searchAll next depth roots ≠ .error .depth :=
  foldlM_search_depth fun _ _ _ =>
    search_depth hwithin List.nodup_nil (List.nil_subset _) hdepth

omit [DecidableEq V] in
lemma foldlM_congr {f g : List V × List V → V → Except (Failure V) (List V × List V)}
    (h : ∀ state v, f state v ≠ .error .depth → g state v = f state v) {vertices : List V}
    {state : List V × List V} (hfold : vertices.foldlM f state ≠ .error .depth) :
    vertices.foldlM g state = vertices.foldlM f state := by
  induction vertices generalizing state with
  | nil => rfl
  | cons v vertices ih =>
      rw [List.foldlM_cons] at hfold ⊢
      rw [List.foldlM_cons]
      have hfirst : f state v ≠ .error .depth := fun heq => by
        rw [heq] at hfold
        exact hfold rfl
      rw [h state v hfirst]
      cases hresult : f state v with
      | error failure => rfl
      | ok state' =>
          rw [hresult] at hfold
          exact ih hfold

/-- A greater bound changes nothing once a bound is not reached. -/
lemma search_deeper {depth : ℕ} {state : List V × List V} {v : V}
    (h : search next depth state v ≠ .error .depth) :
    search next (depth + 1) state v = search next depth state v := by
  induction depth generalizing state v with
  | zero => exact absurd rfl h
  | succ depth ih =>
      rw [search] at h
      rw [search, search]
      split_ifs at h ⊢ with hpath hdone
      · rfl
      · rfl
      · rw [foldlM_congr fun state v => ih]
        intro heq
        rw [heq] at h
        exact h rfl

theorem searchAll_deeper {nodes : List V} (hwithin : Within next nodes) (roots : List V) (extra : ℕ) :
    searchAll next (nodes.length + 1 + extra) roots = searchAll next (nodes.length + 1) roots := by
  induction extra with
  | zero => rfl
  | succ extra ih =>
      have hbound : nodes.length < nodes.length + 1 + extra := by omega
      rw [← ih]
      exact foldlM_congr (fun state v => search_deeper) (searchAll_depth hwithin hbound)

/-! ## Cycles are found exactly -/

/-- The search of all vertices of a graph succeeds exactly for an acyclic one. -/
theorem searchAll_acyclic {nodes : List V} (hwithin : Within next nodes) {depth : ℕ}
    (hdepth : nodes.length < depth) :
    (∃ state, searchAll next depth nodes = .ok state) ↔ Acyclic next := by
  constructor
  · rintro ⟨state, hstate⟩ v hcycle
    obtain ⟨horder, hall⟩ := searchAll_ok hstate
    exact horder.acyclic v (hall (hwithin.mem hcycle)) hcycle
  · intro hacyclic
    cases hresult : searchAll next depth nodes with
    | ok state => exact ⟨state, rfl⟩
    | error failure =>
        exfalso
        cases failure with
        | depth => exact searchAll_depth hwithin hdepth hresult
        | cycle trail =>
            obtain ⟨htrail, v, path, rfl, hv⟩ := searchAll_cycle hresult
            obtain ⟨u, hcycle⟩ := (htrail.closedWalk hv).cycle
            exact hacyclic u hcycle

/-! ## Orders of the vertices -/

lemma Topological.filter {order nodes : List V} (hclosed : Closed next nodes)
    (h : Topological next order) : Topological next (order.filter (· ∈ nodes)) := by
  induction order with
  | nil => trivial
  | cons v rest ih =>
      rw [List.filter_cons]
      split_ifs with hv
      · refine ⟨fun hmem => h.1 (List.mem_of_mem_filter hmem), fun w hw => ?_, ih h.2.2⟩
        rw [List.mem_filter, decide_eq_true_eq]
        exact ⟨h.2.1 w hw, hclosed v (of_decide_eq_true hv) w hw⟩
      · exact ih h.2.2

lemma Topological.idxOf_lt {order : List V} (h : Topological next order) {v w : V} (hv : v ∈ order)
    (hw : w ∈ next v) : order.reverse.idxOf w < order.reverse.idxOf v := by
  induction order with
  | nil => cases hv
  | cons u rest ih =>
      have hlater : w ∈ rest := by
        rcases List.mem_cons.mp hv with rfl | hrest
        · exact h.2.1 w hw
        · exact h.2.2.closed v hrest w hw
      rw [List.reverse_cons, List.idxOf_append_of_mem (List.mem_reverse.mpr hlater)]
      rcases List.mem_cons.mp hv with rfl | hrest
      · rw [List.idxOf_append_of_notMem (fun hmem => h.1 (List.mem_reverse.mp hmem))]
        have := List.idxOf_lt_length_of_mem (List.mem_reverse.mpr hlater)
        omega
      · rw [List.idxOf_append_of_mem (List.mem_reverse.mpr hrest)]
        exact ih h.2.2 hrest

omit [DecidableEq V] in
/-- Edges that lower a rank form no cycle. -/
lemma acyclic_of_rank {rank : V → ℕ} (h : ∀ v, ∀ w ∈ next v, rank w < rank v) : Acyclic next := by
  intro v hcycle
  have hlower : ∀ w, Relation.TransGen (Edge next) v w → rank w < rank v := by
    intro w hreach
    induction hreach with
    | single hedge => exact h _ _ hedge
    | tail _ hedge ih => exact (h _ _ hedge).trans ih
  exact lt_irrefl _ (hlower v hcycle)

/-- A graph is acyclic exactly if its vertices can be ordered along the edges. -/
theorem acyclic_iff_order {nodes : List V} (hnodup : nodes.Nodup) (hwithin : Within next nodes)
    (hclosed : Closed next nodes) :
    Acyclic next ↔
      ∃ order : List V, order.Perm nodes ∧ ∀ v, ∀ w ∈ next v, order.idxOf w < order.idxOf v := by
  constructor
  · intro hacyclic
    obtain ⟨state, hstate⟩ := (searchAll_acyclic hwithin (Nat.lt_succ_self _)).mpr hacyclic
    obtain ⟨horder, hall⟩ := searchAll_ok hstate
    have horder' := horder.filter hclosed
    refine ⟨(state.2.filter (· ∈ nodes)).reverse, ?_, fun v w hw => ?_⟩
    · apply (List.perm_ext_iff_of_nodup (List.nodup_reverse.mpr horder'.nodup) hnodup).mpr
      intro v
      rw [List.mem_reverse, List.mem_filter, decide_eq_true_eq]
      exact ⟨fun h => h.2, fun h => ⟨hall h, h⟩⟩
    · have hv : v ∈ nodes := by
        by_contra hv
        rw [hwithin v hv] at hw
        exact List.not_mem_nil hw
      apply horder'.idxOf_lt _ hw
      rw [List.mem_filter, decide_eq_true_eq]
      exact ⟨hall hv, hv⟩
  · rintro ⟨order, -, hlower⟩
    exact acyclic_of_rank hlower

end AgentSystem.DepthFirst
