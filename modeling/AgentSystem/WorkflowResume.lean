import AgentSystem.WorkflowSafety

/-!
# Resumed runs

`execute(resume=True)` goes on from a checkpoint only if its overall status is `failed`. A run that
was stopped from outside leaves the status `running`, and then everything begins again. The outputs
that a resumed run takes over are those that JSON gives back.
-/
namespace AgentSystem.Workflow

variable {ω : Type} {env : Env ω} {d : Definition}

/-- The run does not repeat what the checkpoint has as successful, and its outputs are in the
context that the parameters of the steps are resolved in. -/
structure Continues (saved : RunState ω) (c : Config ω) : Prop where
  unrepeated : ∀ i, saved.statusOf i = some .success → i ∉ c.started
  passed : ∀ i, saved.statusOf i = some .success → c.context i = saved.outputs i

/-! ## Successful steps have outputs -/

/-- Every successful step has its output. -/
def Delivered (s : RunState ω) : Prop :=
  ∀ row ∈ s.steps.rows, row.status = .success → row.output.isSome = true

section Delivered

variable {s saved : RunState ω} {c c' : Config ω} {stepId : Scalar}

lemma Delivered.output (h : Delivered s) (hsuccess : s.statusOf stepId = some .success) :
    ∃ output, s.outputs stepId = some output := by
  obtain ⟨row, hrow, hstatus⟩ := Option.map_eq_some_iff.mp hsuccess
  obtain ⟨output, houtput⟩ := Option.isSome_iff_exists.mp
    (h row (KeyedTable.lookup_eq_some.mp hrow).1 hstatus)
  exact ⟨output, by simp [RunState.outputs, hrow, hstatus, houtput]⟩

lemma success_of_outputs {output : ω} (h : s.outputs stepId = some output) :
    s.statusOf stepId = some .success := by
  obtain ⟨row, hrow, hif⟩ := Option.bind_eq_some_iff.mp h
  split_ifs at hif with hstatus
  simp [RunState.statusOf, hrow, hstatus]

lemma Delivered.modify {f : StepState ω → StepState ω}
    {keeps : ∀ row, (f row).stepId = row.stepId} (h : Delivered s)
    (hf : ∀ row, (f row).status = .success → (f row).output.isSome = true) :
    Delivered (s.modify stepId f keeps) := by
  intro row hrow hsuccess
  obtain ⟨old, hold, rfl⟩ := List.mem_map.mp hrow
  dsimp only at hsuccess ⊢
  split_ifs at hsuccess ⊢
  · exact hf old hsuccess
  · exact h old hold hsuccess

lemma Delivered.startStep {saves : Bool} (h : Delivered c.state) :
    Delivered (c.startStep stepId saves).state :=
  h.modify nofun

lemma Delivered.setFailed {status : StepStatus} (h : Delivered s) (hstatus : status ≠ .success)
    (error : String) : Delivered (s.setFailed stepId status error) :=
  h.modify fun _ hsuccess => absurd hsuccess hstatus

lemma Delivered.finishStep {outcome : Except String ω} {saves : Bool} (h : Delivered c.state) :
    Delivered (c.finishStep d stepId outcome saves).state := by
  unfold Config.finishStep
  split
  · exact h.modify fun _ _ => rfl
  · next message =>
    have hskipped : Delivered (c.state.setFailed stepId .skipped message) := h.setFailed (by decide) message
    have hfailed : Delivered (c.state.setFailed stepId .failed message) := h.setFailed (by decide) message
    split_ifs
    · exact hskipped
    · exact hfailed
    · exact hfailed

lemma Delivered.step {event : Event ω} (h : Delivered c.state)
    (hstep : c.step env d event = some c') : Delivered c'.state := by
  cases event with
  | evaluate saves =>
      simp only [Config.step] at hstep
      split at hstep
      · cases hstep
        unfold Config.evaluateLoop
        dsimp only
        split <;> exact h
      · cases hstep
  | start i saves =>
      simp only [Config.step] at hstep
      split_ifs at hstep
      cases hstep
      exact h.startStep
  | finish i tool saves =>
      simp only [Config.step] at hstep
      split_ifs at hstep
      cases hstep
      exact h.finishStep
  | crash i =>
      simp only [Config.step] at hstep
      split_ifs at hstep
      cases hstep
      exact h
  | gather saves =>
      simp only [Config.step] at hstep
      split at hstep
      · split at hstep
        · cases hstep
          exact h
        · split_ifs at hstep
          cases hstep
          unfold Config.afterGather
          split_ifs <;> exact h
      · cases hstep

lemma delivered_fresh (workflowId : String) : Delivered (RunState.fresh d workflowId : RunState ω) := by
  intro row hrow hsuccess
  obtain ⟨step, -, rfl⟩ := List.mem_map.mp hrow
  cases hsuccess

lemma Delivered.resumed (h : Delivered s) : Delivered s.resumed := by
  intro row hrow hsuccess
  obtain ⟨old, hold, rfl⟩ := List.mem_map.mp hrow
  dsimp only at hsuccess ⊢
  split_ifs at hsuccess ⊢
  exact h old hold hsuccess

lemma Delivered.reload {decode : ω → ω} (h : Delivered saved) (hreload : saved.reload decode = some s) :
    Delivered s := by
  unfold RunState.reload at hreload
  split_ifs at hreload
  cases hreload
  intro row hrow hsuccess
  obtain ⟨old, hold, rfl⟩ := List.mem_map.mp hrow
  have := h old hold hsuccess
  simpa using this

/-- What runs of a definition leave behind has the outputs of its successful steps. -/
lemma Leaves.delivered {disk : Option (RunState ω)} (h : Leaves d disk) :
    ∀ saved, disk = some saved → Delivered saved := by
  induction h with
  | nothing =>
      intro saved hsaved
      cases hsaved
  | @run env workflowId decode resume unlinked disk c c' _ began reached ih =>
      obtain ⟨events, hplay⟩ := reached
      have hbegin : Delivered c.state := by
        unfold beginRun at began
        split at began
        · cases began
          exact delivered_fresh workflowId
        split at began
        · cases began
        next hreload =>
        split at began
        · cases began
        split at began
        · cases began
          exact ((ih _ rfl).reload hreload).resumed
        · cases began
          exact delivered_fresh workflowId
      have hboth : Delivered c'.state ∧ ∀ saved, c'.saved = some saved → Delivered saved := by
        refine Config.play_steps (P := fun c : Config ω => Delivered c.state ∧
          ∀ saved, c.saved = some saved → Delivered saved) hplay ⟨hbegin, ?_⟩ ?_
        · intro saved hsaved
          rcases saved_of_begin began with hnone | hdisk
          · rw [hnone] at hsaved
            cases hsaved
          · exact ih saved (hdisk.symm.trans hsaved)
        · rintro before event after ⟨hstate, hsaved⟩ hstep
          refine ⟨hstate.step hstep, fun saved hfound => ?_⟩
          rcases (Config.step_effect hstep).saved_cases with hold | hnew
          · exact hsaved saved (hold.symm.trans hfound)
          · rw [hnew, Option.some.injEq] at hfound
            rw [← hfound]
            exact hstate.step hstep
      exact hboth.2

end Delivered

/-! ## The context of a run -/

section Context

variable {s saved : RunState ω} {c₀ c c' : Config ω} {workflowId : String} {decode : ω → ω}
  {resume unlinked : Bool}

/-- A step that was not started keeps what the context has for it. -/
lemma step_context {event : Event ω} (hsound : Sound d c₀ c)
    (hstep : c.step env d event = some c') :
    c.started ⊆ c'.started ∧ ∀ i, i ∉ c.started → c'.context i = c.context i := by
  cases event with
  | evaluate saves =>
      simp only [Config.step] at hstep
      split at hstep
      · cases hstep
        unfold Config.evaluateLoop
        dsimp only
        split <;> exact ⟨fun _ h => h, fun _ _ => rfl⟩
      · cases hstep
  | start i saves =>
      simp only [Config.step] at hstep
      split_ifs at hstep
      cases hstep
      exact ⟨List.subset_append_left _ _, fun _ _ => rfl⟩
  | finish i tool saves =>
      simp only [Config.step] at hstep
      split_ifs at hstep with hrunning
      cases hstep
      have hbegun : i ∈ c.started := hsound.begun _ hrunning (by simp)
      unfold Config.finishStep
      split
      · refine ⟨fun _ h => h, fun j hj => Function.update_of_ne ?_ _ _⟩
        rintro rfl
        exact hj hbegun
      · split_ifs <;> exact ⟨fun _ h => h, fun _ _ => rfl⟩
  | crash i =>
      simp only [Config.step] at hstep
      split_ifs at hstep
      cases hstep
      exact ⟨fun _ h => h, fun _ _ => rfl⟩
  | gather saves =>
      simp only [Config.step] at hstep
      split at hstep
      · split at hstep
        · cases hstep
          exact ⟨fun _ h => h, fun _ _ => rfl⟩
        · split_ifs at hstep
          cases hstep
          unfold Config.afterGather
          split_ifs <;> exact ⟨fun _ h => h, fun _ _ => rfl⟩
      · cases hstep

lemma reached_context (hsound : Sound d c₀ c₀) (hreaches : c₀.Reaches env d c) :
    ∀ i, i ∉ c.started → c.context i = c₀.context i := by
  obtain ⟨events, hplay⟩ := hreaches
  have hboth : Sound d c₀ c ∧ ∀ i, i ∉ c.started → c.context i = c₀.context i := by
    refine Config.play_steps (P := fun c : Config ω => Sound d c₀ c ∧
      ∀ i, i ∉ c.started → c.context i = c₀.context i) hplay ⟨hsound, fun _ _ => rfl⟩ ?_
    rintro before event after ⟨hbefore, hcontext⟩ hstep
    obtain ⟨hstarted, hsame⟩ := step_context hbefore hstep
    refine ⟨hbefore.effect (Config.step_effect hstep), fun i hi => ?_⟩
    have hnot : i ∉ before.started := fun h => hi (hstarted h)
    rw [hsame i hnot, hcontext i hnot]
  exact hboth.2

lemma outputs_reload (h : saved.reload decode = some s) (i : Scalar) :
    s.outputs i = (saved.outputs i).map decode := by
  unfold RunState.reload at h
  split_ifs at h
  cases h
  simp only [RunState.outputs, KeyedTable.lookup_update]
  cases saved.steps.lookup i with
  | none => rfl
  | some row => by_cases hsuccess : row.status = .success <;> simp [hsuccess]

lemma outputs_resumed (i : Scalar) : s.resumed.outputs i = s.outputs i := by
  simp only [RunState.outputs, RunState.resumed, KeyedTable.lookup_update]
  cases s.steps.lookup i with
  | none => rfl
  | some row => by_cases hfailed : row.status = .failed <;> simp [hfailed]

/-- A run that is asked to resume begins with the outputs of a failed checkpoint as JSON gives them
back, or without any. -/
lemma context_of_begin
    (h : beginRun d workflowId decode true unlinked (some saved) = .ok c) (i : Scalar) :
    c.context i = if saved.status = .failed then (saved.outputs i).map decode else none := by
  unfold beginRun at h
  simp only at h
  split at h
  · cases h
  next s hreload =>
  have hstatus : s.status = saved.status := by
    unfold RunState.reload at hreload
    split_ifs at hreload
    cases hreload
    rfl
  split at h
  · cases h
  split at h
  · next hresume =>
    cases h
    rw [if_pos (hstatus ▸ hresume.2)]
    exact (outputs_resumed i).trans (outputs_reload hreload i)
  · next hfresh =>
    cases h
    rw [if_neg fun hfailed => hfresh ⟨trivial, hstatus.trans hfailed⟩]

end Context

/-- A run that is asked to resume goes on from what a stopped run has left exactly if nothing was
successful there, or its overall status is `failed` and JSON gives the outputs back unchanged. -/
theorem resume_continues_iff {saved : RunState ω} {workflowId : String} {decode : ω → ω}
    {unlinked : Bool} {c₀ : Config ω} (left : Leaves d (some saved))
    (began : beginRun d workflowId decode true unlinked (some saved) = .ok c₀) :
    (∀ c, c₀.Reaches env d c → Continues saved c) ↔
      ∀ i output, saved.outputs i = some output → saved.status = .failed ∧ decode output = output := by
  have hdelivered := left.delivered saved rfl
  constructor
  · intro hcontinues i output houtput
    have hpassed := (hcontinues c₀ ⟨[], rfl⟩).passed i (success_of_outputs houtput)
    rw [context_of_begin began, houtput] at hpassed
    split_ifs at hpassed with hfailed
    exact ⟨hfailed, Option.some.inj hpassed⟩
  · intro hkept c hreaches
    have hfirst := beginRun_begins began
    have hunrepeated : ∀ i, saved.statusOf i = some .success → i ∉ c.started := by
      intro i hsuccess
      obtain ⟨output, houtput⟩ := hdelivered.output hsuccess
      exact (starts_safely began hreaches).notRepeated saved rfl rfl (hkept i output houtput).1 i
        hsuccess
    refine ⟨hunrepeated, fun i hsuccess => ?_⟩
    obtain ⟨output, houtput⟩ := hdelivered.output hsuccess
    obtain ⟨hfailed, hdecode⟩ := hkept i output houtput
    have hsound : Sound d c₀ c₀ := .initial hfirst.tasks hfirst.started
    rw [reached_context hsound hreaches i (hunrepeated i hsuccess), context_of_begin began,
      if_pos hfailed, houtput, Option.map_some, hdecode]

/-- The second of two parallel steps fails after the first one has succeeded. -/
def failedEvents : List (Event ℕ) :=
  [.evaluate true, .start (.text "a") true, .start (.text "b") true,
   .finish (.text "a") working true, .finish (.text "b") failing true]

theorem resume_continues_parallel :
    ∃ saved c₀, Leaves parallelWorkflow (some saved) ∧
      saved.outputs (.text "a") = some 1 ∧
      beginRun parallelWorkflow "parallel" id true true (some saved) = .ok c₀ ∧
      ((∀ c, c₀.Reaches plainEnv parallelWorkflow c → Continues saved c) ↔
        ∀ i (output : ℕ), saved.outputs i = some output → saved.status = .failed ∧ id output = output) := by
  have hleft : ∃ saved c₀, Leaves parallelWorkflow (some saved) ∧
      saved.outputs (.text "a") = some 1 ∧
      beginRun parallelWorkflow "parallel" id true true (some saved) = .ok c₀ :=
    ⟨_, _, @Leaves.run ℕ parallelWorkflow plainEnv "parallel" id false true none _ _ .nothing rfl
      ⟨failedEvents, rfl⟩, rfl, rfl⟩
  obtain ⟨saved, c₀, left, houtput, began⟩ := hleft
  exact ⟨saved, c₀, left, houtput, began, resume_continues_iff left began⟩

/-- The process stops after the first of two parallel steps has succeeded. -/
def stoppedEvents : List (Event ℕ) :=
  [.evaluate true, .start (.text "a") true, .finish (.text "a") working true]

/-- The run that is asked to resume starts the successful step again. -/
theorem stopped_step_repeats :
    ∃ saved c₀ c, Leaves parallelWorkflow (some saved) ∧
      saved.statusOf (.text "a") = some .success ∧ saved.status = .running ∧
      beginRun parallelWorkflow "parallel" id true true (some saved) = .ok c₀ ∧
      Config.play plainEnv parallelWorkflow c₀ [.evaluate true, .start (.text "a") true] = some c ∧
      .text "a" ∈ c.started ∧ ¬Continues saved c :=
  ⟨_, _, _, @Leaves.run ℕ parallelWorkflow plainEnv "parallel" id false true none _ _ .nothing rfl
    ⟨stoppedEvents, rfl⟩, rfl, rfl, rfl, rfl, List.mem_singleton_self _,
    fun h => h.unrepeated (.text "a") rfl (List.mem_singleton_self _)⟩

end AgentSystem.Workflow
