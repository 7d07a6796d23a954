import AgentSystem.WorkflowState

/-!
# The active steps

Propagation only adds steps, each of them once, and it stops at a set that no active step can
extend: every pass that changes something adds one of the steps that the definition can ever add.
-/
namespace AgentSystem.Workflow

variable {ω : Type} {env : Env ω} {d : Definition} {s : RunState ω} {context : Context ω}
  {active active' : List Scalar} {stepId : Scalar}

/-! ## Folds that may raise -/

section Folds

variable {α β ε : Type} {f : β → α → Except ε β} {items : List α} {b b' : β}

lemma foldlM_cons_ok {item : α} (h : (item :: items).foldlM f b = .ok b') :
    ∃ next, f b item = .ok next ∧ items.foldlM f next = .ok b' := by
  rw [List.foldlM_cons] at h
  cases hf : f b item with
  | error error =>
      rw [hf] at h
      cases h
  | ok next =>
      rw [hf] at h
      exact ⟨next, rfl, h⟩

/-- A fold keeps what its body keeps. -/
lemma foldlM_ok {P : β → Prop} (hfold : items.foldlM f b = .ok b') (hb : P b)
    (hstep : ∀ b, ∀ item ∈ items, ∀ b', P b → f b item = .ok b' → P b') : P b' := by
  induction items generalizing b with
  | nil =>
      cases hfold
      exact hb
  | cons item items ih =>
      obtain ⟨next, hnext, hrest⟩ := foldlM_cons_ok hfold
      refine ih hrest (hstep b item List.mem_cons_self next hb hnext) ?_
      exact fun b item hitem => hstep b item (List.mem_cons_of_mem _ hitem)

/-- A fold that only appends and ends where it started has changed nothing on its way. -/
lemma foldlM_stable {γ : Type} {f : List γ → α → Except ε (List γ)} {b b' : List γ}
    (hfold : items.foldlM f b = .ok b') (hlength : b'.length = b.length)
    (happend : ∀ b item b', f b item = .ok b' → b <+: b') : ∀ item ∈ items, f b item = .ok b := by
  induction items generalizing b with
  | nil => simp
  | cons item items ih =>
      obtain ⟨next, hnext, hrest⟩ := foldlM_cons_ok hfold
      have hfirst := happend b item next hnext
      have hlater : next <+: b' :=
        foldlM_ok hrest (List.prefix_refl next) fun b item _ b' hb hf => hb.trans (happend b item b' hf)
      have heq : next = b :=
        (hfirst.eq_of_length (by have := hfirst.length_le; have := hlater.length_le; omega)).symm
      subst heq
      intro other hother
      rcases List.mem_cons.mp hother with rfl | hmem
      · exact hnext
      · exact ih hrest hlength other hmem

end Folds

/-! ## What can be added -/

lemma addActive_nodup {i : Scalar} (h : active.Nodup) : (addActive active i).Nodup := by
  unfold addActive
  split_ifs with hmem
  · exact h
  · exact h.append (List.nodup_singleton i) (by simpa using hmem)

lemma mem_addActive {i j : Scalar} : j ∈ addActive active i ↔ j ∈ active ∨ j = i := by
  unfold addActive
  split_ifs with hmem
  · constructor
    · exact .inl
    · rintro (hj | rfl)
      · exact hj
      · exact hmem
  · simp

lemma prefix_addActive {i : Scalar} : active <+: addActive active i := by
  unfold addActive
  split_ifs
  · exact List.prefix_refl _
  · exact List.prefix_append _ _

/-- The steps that one step of the definition can make active: itself as a dependent, its next step
and its fallback step. -/
def stepTargets (env : Env ω) (context : Context ω) (step : StepDef) : List Scalar :=
  let next :=
    match nextStepId env context step with
    | .ok next => next.toList
    | .error _ => []
  let fallback :=
    match step.fallback with
    | some (.scalar fallback) => [fallback]
    | _ => []
  step.id :: (next ++ fallback)

def targets (env : Env ω) (d : Definition) (context : Context ω) : List Scalar :=
  d.steps.flatMap (stepTargets env context)

lemma targets_length : (targets env d context).length ≤ 3 * d.steps.length := by
  have bound : ∀ step, (stepTargets env context step).length ≤ 3 := by
    intro step
    unfold stepTargets
    have hnext : ∀ next : Option Scalar, next.toList.length ≤ 1 := by
      intro next
      cases next <;> simp
    rcases nextStepId env context step with error | next <;> dsimp only
    · split <;> simp
    · have := hnext next
      split <;> simp <;> omega
  unfold targets
  induction d.steps with
  | nil => simp
  | cons step steps ih =>
      have := bound step
      simp only [List.flatMap_cons, List.length_append, List.length_cons]
      omega

lemma mem_targets {step : StepDef} {i : Scalar} (hstep : d.step stepId = some step)
    (hi : i ∈ stepTargets env context step) : i ∈ targets env d context :=
  List.mem_flatMap.mpr ⟨step, List.mem_of_find?_eq_some hstep, hi⟩

lemma dependent_mem_targets {entry : Scalar × Deps} (h : entry ∈ d.stepDependencies) :
    entry.1 ∈ targets env d context := by
  have hid : entry.1 ∈ d.ids := by
    rw [← d.stepDependencies_keys]
    exact List.mem_map_of_mem h
  obtain ⟨step, hstep, hentry⟩ := List.mem_map.mp hid
  exact List.mem_flatMap.mpr ⟨step, hstep, by rw [← hentry]; exact List.mem_cons_self⟩

/-- Every change of the active steps is the addition of a target. -/
lemma activateFrom_induction {P : List Scalar → Prop}
    (h : activateFrom env d s context active stepId = .ok active') (hactive : P active)
    (hadd : ∀ active, ∀ i ∈ targets env d context, P active → P (addActive active i)) :
    P active' := by
  unfold activateFrom at h
  split at h
  · cases h
    exact hactive
  split at h
  · cases h
  next step hstep =>
  have next : ∀ found, nextStepId env context step = .ok found → P (addNext active found) := by
    intro found hfound
    unfold addNext
    split
    · exact hactive
    · next i hi =>
      refine hadd _ i (mem_targets hstep ?_) hactive
      have hsome : found = some i := (Option.filter_eq_some_iff.mp hi).1
      simp [stepTargets, hfound, hsome]
  have finished : (do
      let next ← nextStepId env context step
      if next = some stepId then .error (.cycle stepId)
      else d.stepDependencies.foldlM (addDependent d stepId) (addNext active next)) =
        Except.ok active' → P active' := by
    intro h
    cases hnext : nextStepId env context step with
    | error error =>
        rw [hnext] at h
        cases h
    | ok found =>
        rw [hnext] at h
        change (if found = some stepId then _ else _) = _ at h
        split_ifs at h
        refine foldlM_ok h (next found hnext) fun b entry hentry b' hb hbody => ?_
        unfold addDependent at hbody
        split at hbody
        · split at hbody
          · cases hbody
          · cases hbody
            split_ifs
            · exact hadd _ _ (dependent_mem_targets hentry) hb
            · exact hb
        · cases hbody
          exact hb
  split at h
  · exact finished h
  · exact finished h
  · split_ifs at h
    · cases hnext : nextStepId env context step with
      | error error =>
          rw [hnext] at h
          cases h
      | ok found =>
          rw [hnext] at h
          cases h
          exact next found hnext
    · split at h
      · cases h
        exact hactive
      · next fallback hfallback =>
        cases h
        refine hadd _ _ (mem_targets hstep ?_) hactive
        simp [stepTargets, hfallback]
      · cases h
    · cases h
      exact hactive
  · cases h
    exact hactive
  · cases h
    exact hactive

lemma activateFrom_append (h : activateFrom env d s context active stepId = .ok active') :
    active <+: active' :=
  activateFrom_induction h (List.prefix_refl active) fun _ _ _ hprefix =>
    hprefix.trans prefix_addActive

lemma activatePass_induction {P : List Scalar → Prop}
    (h : activatePass env d s context active = .ok active') (hactive : P active)
    (hadd : ∀ active, ∀ i ∈ targets env d context, P active → P (addActive active i)) :
    P active' :=
  foldlM_ok h hactive fun _ _ _ _ hb hf => activateFrom_induction hf hb hadd

/-! ## The fixed point -/

/-- No active step can add another one. -/
def Closed (env : Env ω) (d : Definition) (s : RunState ω) (context : Context ω)
    (active : List Scalar) : Prop :=
  ∀ i ∈ active, activateFrom env d s context active i = .ok active

/-- The targets that are not active yet. -/
def missing (env : Env ω) (d : Definition) (context : Context ω) (active : List Scalar) :
    Finset Scalar :=
  (targets env d context).toFinset \ active.toFinset

/-- A pass that adds something makes fewer targets miss. -/
lemma missing_lt (h : activatePass env d s context active = .ok active')
    (hlength : active'.length ≠ active.length) :
    (missing env d context active').card < (missing env d context active).card := by
  obtain ⟨added, hadded, htargets⟩ : ∃ added, active' = active ++ added ∧
      ∀ i ∈ added, i ∈ targets env d context ∧ i ∉ active := by
    refine activatePass_induction (P := fun found => ∃ added, found = active ++ added ∧
      ∀ i ∈ added, i ∈ targets env d context ∧ i ∉ active) h ⟨[], by simp⟩ ?_
    rintro _ i hi ⟨added, rfl, hall⟩
    unfold addActive
    split_ifs with hmem
    · exact ⟨added, rfl, hall⟩
    · refine ⟨added ++ [i], by simp, fun j hj => ?_⟩
      rcases List.mem_append.mp hj with hold | hlast
      · exact hall j hold
      · obtain rfl := List.mem_singleton.mp hlast
        exact ⟨hi, fun hj => hmem (List.mem_append_left _ hj)⟩
  subst hadded
  have hsome : added ≠ [] := by
    rintro rfl
    simp at hlength
  obtain ⟨i, hi⟩ := List.exists_mem_of_ne_nil added hsome
  apply Finset.card_lt_card
  rw [Finset.ssubset_iff_of_subset]
  · refine ⟨i, ?_, ?_⟩
    · simp [missing, htargets i hi]
    · simp [missing, hi]
  · intro j hj
    simp only [missing, Finset.mem_sdiff, List.mem_toFinset, List.mem_append, not_or] at hj ⊢
    exact ⟨hj.1, hj.2.1⟩

/-- With a pass for every missing target and one more, the loop ends because nothing changes. -/
lemma propagate_closed {passes : ℕ} (h : propagate env d s context passes active = .ok active')
    (hpasses : (missing env d context active).card < passes) : Closed env d s context active' := by
  induction passes generalizing active with
  | zero => omega
  | succ passes ih =>
      unfold propagate at h
      cases hpass : activatePass env d s context active with
      | error error =>
          rw [hpass] at h
          cases h
      | ok next =>
          rw [hpass] at h
          change (if next.length = active.length then _ else _) = _ at h
          split_ifs at h with hlength
          · cases h
            intro i hi
            refine foldlM_stable hpass hlength (fun _ _ _ => activateFrom_append) i ?_
            exact (env.iterate_perm _).mem_iff.mpr hi
          · have := missing_lt hpass hlength
            exact ih h (by omega)

lemma propagate_induction {P : List Scalar → Prop} {passes : ℕ}
    (h : propagate env d s context passes active = .ok active') (hactive : P active)
    (hadd : ∀ active, ∀ i ∈ targets env d context, P active → P (addActive active i)) :
    P active' := by
  induction passes generalizing active with
  | zero =>
      cases h
      exact hactive
  | succ passes ih =>
      unfold propagate at h
      cases hpass : activatePass env d s context active with
      | error error =>
          rw [hpass] at h
          cases h
      | ok next =>
          rw [hpass] at h
          change (if next.length = active.length then _ else _) = _ at h
          split_ifs at h
          · cases h
            exact hactive
          · exact ih h (activatePass_induction hpass hactive hadd)

/-! ## The active steps -/

lemma foldl_addActive_nodup {ids : List Scalar} (h : active.Nodup) :
    (ids.foldl addActive active).Nodup := by
  induction ids generalizing active with
  | nil => exact h
  | cons i ids ih => exact ih (addActive_nodup h)

lemma mem_foldl_addActive {ids : List Scalar} {i : Scalar} :
    i ∈ ids.foldl addActive active ↔ i ∈ active ∨ i ∈ ids := by
  induction ids generalizing active with
  | nil => simp
  | cons j ids ih => rw [List.foldl_cons, ih, mem_addActive, List.mem_cons, or_assoc]

lemma activeSteps_nodup (h : activeSteps env d s context = .ok active) : active.Nodup :=
  propagate_induction h (foldl_addActive_nodup List.nodup_nil) fun _ _ _ => addActive_nodup

lemma activeSteps_closed (h : activeSteps env d s context = .ok active) :
    Closed env d s context active := by
  refine propagate_closed h ?_
  have hcard : (missing env d context (initialActive d s)).card ≤ (targets env d context).length :=
    (Finset.card_le_card Finset.sdiff_subset).trans (List.toFinset_card_le _)
  have htargets : (targets env d context).length ≤ 3 * d.steps.length := targets_length
  unfold maxPasses
  omega

/-- A step that has ended is active. -/
lemma mem_activeSteps {status : StepStatus} (h : activeSteps env d s context = .ok active)
    (hstatus : s.statusOf stepId = some status) (hended : status.ended = true) :
    stepId ∈ active := by
  refine propagate_induction h ?_ fun _ _ _ hmem => mem_addActive.mpr (.inl hmem)
  obtain ⟨row, hrow, rfl⟩ := Option.map_eq_some_iff.mp hstatus
  obtain ⟨hmem, hid⟩ := KeyedTable.lookup_eq_some.mp hrow
  refine mem_foldl_addActive.mpr (.inr (List.mem_append_right _ ?_))
  exact List.mem_map.mpr ⟨row, List.mem_filter.mpr ⟨hmem, hended⟩, hid⟩

/-- The fallback step of an active failed step is active. -/
lemma Closed.fallback {step : StepDef} {target : Node} (h : Closed env d s context active)
    (hactive : stepId ∈ active) (hfailed : s.statusOf stepId = some .failed)
    (hstep : d.step stepId = some step) (hpolicy : step.policy = fallbackPolicy)
    (htarget : step.fallback = some target) : ∃ i, target = .scalar i ∧ i ∈ active := by
  have hsame := h stepId hactive
  have hskip : ¬ fallbackPolicy = skipPolicy := by decide
  simp only [activateFrom, hfailed, hstep, hpolicy, if_neg hskip, if_true, htarget] at hsame
  split at hsame
  · next hnone => cases hnone
  · next i hi =>
    cases hi
    refine ⟨i, rfl, ?_⟩
    rw [Except.ok.injEq] at hsame
    rw [← hsame]
    exact mem_addActive.mpr (.inr rfl)
  · cases hsame

end AgentSystem.Workflow
