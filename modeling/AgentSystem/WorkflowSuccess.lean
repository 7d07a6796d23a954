import AgentSystem.WorkflowSafety

/-!
# What a run that returns tells about its failures

A failure under the policy `fail` stops the run after its batch, one under `skip` leaves the step
skipped. So when `execute` returns, the steps that ended failed have other policies, and the fallback
steps that they name have ended too, since the loop ends only when every active step has.
-/
namespace AgentSystem.Workflow

variable {ω : Type} {env : Env ω} {d : Definition}

/-- The step that takes over for a failed step. -/
def Definition.fallbackOf (d : Definition) (stepId : Scalar) : Option Scalar :=
  match (d.step stepId).bind StepDef.fallback with
  | some (.scalar fallback) => if d.policyOf stepId = fallbackPolicy then some fallback else none
  | _ => none

/-- Every step has one of the three policies, and a fallback step if that is its policy. -/
def Definition.Declared (d : Definition) : Prop :=
  ∀ step ∈ d.steps, step.policy = failPolicy ∨ step.policy = skipPolicy ∨
    (step.policy = fallbackPolicy ∧ step.fallback.isSome)

/-- A step that ended well, or whose fallback step did, or the fallback step of that, … -/
inductive Rescued (d : Definition) (s : RunState ω) : Scalar → Prop
  | well {i : Scalar} {status : StepStatus} (found : s.statusOf i = some status)
      (ended : status = .success ∨ status = .skipped) : Rescued d s i
  | falls {i j : Scalar} (failed : s.statusOf i = some .failed) (fallback : d.fallbackOf i = some j)
      (rescued : Rescued d s j) : Rescued d s i

/-- What is true of the failed steps of a run that returned. -/
structure SuccessSound (d : Definition) (s : RunState ω) : Prop where
  policy : ∀ i, s.statusOf i = some .failed → d.policyOf i ≠ failPolicy ∧ d.policyOf i ≠ skipPolicy
  fallback : ∀ i step target, s.statusOf i = some .failed → d.step i = some step →
    step.policy = fallbackPolicy → step.fallback = some target →
      ∃ j status, target = .scalar j ∧ s.statusOf j = some status ∧ status.ended = true
  rescued : d.Declared → (WellFounded fun j i => d.fallbackOf i = some j) →
    ∀ i, s.statusOf i = some .failed → Rescued d s i

/-- What holds of the failed steps in every configuration of a run. -/
structure Failures (d : Definition) (c : Config ω) : Prop where
  notSkipped : ∀ i, c.state.statusOf i = some .failed → d.policyOf i ≠ skipPolicy
  fatalTask : ∀ i, fatal d c.state i = true →
    ∃ task ∈ c.tasks, task.stepId = i ∧ (task.phase = .ended false ∨ task.phase = .raised)
  looping : c.main = .looping → ∀ i, fatal d c.state i = false

section Fatal

variable {s s' : RunState ω} {i : Scalar}

lemma fatal_eq_true :
    fatal d s i = true ↔ s.statusOf i = some .failed ∧ d.policyOf i = failPolicy := by
  simp [fatal]

lemma fatal_congr (h : s'.statusOf i = s.statusOf i) : fatal d s' i = fatal d s i := by
  unfold fatal
  rw [h]

end Fatal

namespace Failures

variable {c₀ c c' : Config ω}

lemma congr (h : Failures d c) (hsame : SameStatuses c.state c'.state)
    (htasks : c'.tasks = c.tasks)
    (hlooping : c'.main = .looping → ∀ i, fatal d c.state i = false) : Failures d c' where
  notSkipped i hi := h.notSkipped i ((hsame i).symm.trans hi)
  fatalTask i hi := by
    rw [fatal_congr (hsame i)] at hi
    rw [htasks]
    exact h.fatalTask i hi
  looping hmain i := by
    rw [fatal_congr (hsame i)]
    exact hlooping hmain i

lemma starts {i : Scalar} {saves : Bool} (h : Failures d c) (hsound : Sound d c₀ c)
    (hi : ⟨i, .waiting⟩ ∈ c.tasks) : Failures d (c.startStep i saves) := by
  have hupdates : Updates c.state (c.startStep i saves).state i .running := updates_setRunning
  have hrunning := hupdates.self (by rw [(hsound.waiting i hi).1]; rfl)
  have other : ∀ j, (c.startStep i saves).state.statusOf j = some .failed →
      j ≠ i ∧ c.state.statusOf j = some .failed := by
    intro j hj
    have hne : j ≠ i := by
      rintro rfl
      rw [hrunning] at hj
      cases hj
    exact ⟨hne, by rw [← hupdates.other hne]; exact hj⟩
  refine ⟨fun j hj => h.notSkipped j (other j hj).2, fun j hj => ?_, fun hmain => ?_⟩
  · obtain ⟨hfailed, hpolicy⟩ := fatal_eq_true.mp hj
    obtain ⟨hne, hold⟩ := other j hfailed
    obtain ⟨task, htask, rfl, hphase⟩ := h.fatalTask j (fatal_eq_true.mpr ⟨hold, hpolicy⟩)
    exact ⟨task, mem_setPhase.mpr (.inl ⟨hne, htask⟩), rfl, hphase⟩
  · obtain ⟨result, hresult⟩ := hsound.looping hmain _ hi
    cases hresult

lemma ends {i : Scalar} {saves : Bool} (h : Failures d c) (hsound : Sound d c₀ c)
    (hi : ⟨i, .running⟩ ∈ c.tasks) (hends : c.Ends d c' i saves) : Failures d c' := by
  obtain ⟨status, result, hupdates, -, hfailed, htasks⟩ := hends.ends
  have hself := hupdates.self (by rw [hsound.running i hi]; rfl)
  refine ⟨fun j hj => ?_, fun j hj => ?_, fun hmain => ?_⟩
  · by_cases hji : j = i
    · subst hji
      rw [hself, Option.some.injEq] at hj
      exact (hfailed hj).2
    · rw [hupdates.other hji] at hj
      exact h.notSkipped j hj
  · rw [htasks]
    by_cases hji : j = i
    · subst hji
      have hstatus := (fatal_eq_true.mp hj).1
      rw [hself, Option.some.injEq] at hstatus
      refine ⟨_, mem_setPhase.mpr (.inr ⟨rfl, List.mem_map_of_mem hi⟩), rfl, ?_⟩
      rw [(hfailed hstatus).1]
      cases saves <;> simp
    · rw [fatal_congr (hupdates.other hji)] at hj
      obtain ⟨task, htask, rfl, hphase⟩ := h.fatalTask j hj
      exact ⟨task, mem_setPhase.mpr (.inl ⟨hji, htask⟩), rfl, hphase⟩
  · rw [hends.main] at hmain
    obtain ⟨result, hresult⟩ := hsound.looping hmain _ hi
    cases hresult

lemma crashes {i : Scalar} (h : Failures d c) (hsound : Sound d c₀ c)
    (hi : ⟨i, .running⟩ ∈ c.tasks) :
    Failures d { c with tasks := setPhase c.tasks i .raised } := by
  refine ⟨h.notSkipped, fun j hj => ?_, h.looping⟩
  obtain ⟨task, htask, rfl, hphase⟩ := h.fatalTask j hj
  refine ⟨task, mem_setPhase.mpr (.inl ⟨?_, htask⟩), rfl, hphase⟩
  rintro rfl
  rw [task_unique hsound.alone htask hi] at hphase
  simp at hphase

lemma effect (h : Failures d c) (hsound : Sound d c₀ c)
    (heffect : Config.Effect env d c c') : Failures d c' := by
  cases heffect with
  | sleeps hlooping _ => exact h.congr (fun _ => rfl) rfl fun _ => h.looping hlooping
  | batches hlooping _ =>
      refine ⟨h.notSkipped, fun i hi => ?_, fun hmain => by cases hmain⟩
      have hnone := h.looping hlooping i
      rw [Config.startBatch] at hi
      rw [hnone] at hi
      cases hi
  | stops hlooping hstops =>
      exact h.congr hstops.same hstops.tasks fun _ => h.looping hlooping
  | starts hwaiting => exact h.starts hsound hwaiting
  | ends hrunning hends => exact h.ends hsound hrunning hends
  | crashes hrunning => exact h.crashes hsound hrunning
  | gathers _ hgathers =>
      refine h.congr hgathers.same hgathers.tasks fun hmain i => ?_
      rcases hgathers.main with (⟨_, hstopped⟩ | ⟨_, hstopped⟩) | ⟨-, hgathered, hfatal⟩
      · rw [hmain] at hstopped
        cases hstopped
      · rw [hmain] at hstopped
        cases hstopped
      -- a fatal failure has a coroutine that returned `False`, which `execute` has looked for
      by_contra hi
      rw [Bool.not_eq_false] at hi
      obtain ⟨task, htask, rfl, hphase | hphase⟩ := h.fatalTask i hi
      · exact hfatal ⟨⟨task, htask, hphase⟩, task, htask, hi⟩
      · obtain ⟨result, hresult⟩ := hgathered task htask
        rw [hphase] at hresult
        cases hresult

end Failures

section Returned

variable {s : RunState ω} {context : Context ω} {active : List Scalar}

/-- What the main loop has seen when it ends. -/
lemma evaluate_eq_finish (h : evaluate env d s context = .finish) :
    ∃ active, activeSteps env d s context = .ok active ∧
      ∀ i ∈ active, ∃ status, s.statusOf i = some status ∧ status.ended = true := by
  unfold evaluate at h
  split at h
  · cases h
  · cases h
  next active hactive =>
  refine ⟨active, hactive, fun i hi => ?_⟩
  unfold evaluateActive at h
  split at h
  · cases h
  split at h
  · next hall =>
    have hstatus := List.all_eq_true.mp hall i hi
    cases hfound : s.statusOf i with
    | none =>
        rw [hfound] at hstatus
        cases hstatus
    | some status =>
        rw [hfound] at hstatus
        exact ⟨status, rfl, hstatus⟩
  · split at h
    · cases h
    split at h
    · cases h
    · split at h <;> cases h
    · cases h

lemma policyOf_eq {step : StepDef} {i : Scalar} (hstep : d.step i = some step) :
    d.policyOf i = step.policy := by
  simp [Definition.policyOf, hstep]

/-- A failed step with one of the three policies has a fallback step that has ended. -/
lemma fallbackOf_of_failed {i : Scalar} (hdeclared : d.Declared)
    (hfail : d.policyOf i ≠ failPolicy) (hskip : d.policyOf i ≠ skipPolicy) :
    ∃ step target, d.step i = some step ∧ step.policy = fallbackPolicy ∧
      step.fallback = some target := by
  cases hstep : d.step i with
  | none => exact absurd (by simp [Definition.policyOf, hstep]) hfail
  | some step =>
      rw [policyOf_eq hstep] at hfail hskip
      rcases hdeclared step (List.mem_of_find?_eq_some hstep) with h | h | ⟨hpolicy, hfallback⟩
      · exact absurd h hfail
      · exact absurd h hskip
      · obtain ⟨target, htarget⟩ := Option.isSome_iff_exists.mp hfallback
        exact ⟨step, target, rfl, hpolicy, htarget⟩

lemma successSound_of_finish (h : evaluate env d s context = .finish)
    (hskip : ∀ i, s.statusOf i = some .failed → d.policyOf i ≠ skipPolicy)
    (hfatal : ∀ i, fatal d s i = false) : SuccessSound d s := by
  obtain ⟨active, hactive, hended⟩ := evaluate_eq_finish h
  have hpolicy : ∀ i, s.statusOf i = some .failed →
      d.policyOf i ≠ failPolicy ∧ d.policyOf i ≠ skipPolicy := by
    refine fun i hi => ⟨fun hfail => ?_, hskip i hi⟩
    have := hfatal i
    rw [fatal_eq_true.mpr ⟨hi, hfail⟩] at this
    cases this
  have hfallback : ∀ i step target, s.statusOf i = some .failed → d.step i = some step →
      step.policy = fallbackPolicy → step.fallback = some target →
        ∃ j status, target = .scalar j ∧ s.statusOf j = some status ∧ status.ended = true := by
    intro i step target hfailed hstep hpolicy htarget
    have hmem := mem_activeSteps hactive hfailed rfl
    obtain ⟨j, rfl, hj⟩ :=
      (activeSteps_closed hactive).fallback hmem hfailed hstep hpolicy htarget
    obtain ⟨status, hstatus⟩ := hended j hj
    exact ⟨j, status, rfl, hstatus⟩
  refine ⟨hpolicy, hfallback, fun hdeclared hacyclic i => ?_⟩
  -- along the fallback steps, of which there is no infinite chain
  induction i using hacyclic.induction with
  | h i ih =>
      intro hfailed
      obtain ⟨hfail, hskipped⟩ := hpolicy i hfailed
      obtain ⟨step, target, hstep, hfalls, htarget⟩ := fallbackOf_of_failed hdeclared hfail hskipped
      obtain ⟨j, status, rfl, hj, hstatus⟩ := hfallback i step target hfailed hstep hfalls htarget
      have hij : d.fallbackOf i = some j := by
        simp [Definition.fallbackOf, hstep, htarget, policyOf_eq hstep, hfalls]
      refine .falls hfailed hij ?_
      cases status with
      | pending => cases hstatus
      | running => cases hstatus
      | success => exact .well hj (.inl rfl)
      | skipped => exact .well hj (.inr rfl)
      | failed => exact ih j hij hj

end Returned

/-- What is kept until `execute` returns, and what is true from then on. -/
structure UntilReturned (d : Definition) (c₀ c : Config ω) : Prop where
  sound : Sound d c₀ c
  failures : Failures d c
  returned : ∀ results, c.main = .returned results → c.gathered ∧ SuccessSound d c.state

lemma SuccessSound.congr {s s' : RunState ω} (h : SuccessSound d s) (hsame : SameStatuses s s') :
    SuccessSound d s' := by
  have hequal : s'.statusOf = s.statusOf := funext hsame
  refine ⟨?_, ?_, fun hdeclared hacyclic i hi => ?_⟩
  · rw [hequal]
    exact h.policy
  · rw [hequal]
    exact h.fallback
  · rw [hequal] at hi
    have hrescued := h.rescued hdeclared hacyclic i hi
    clear hi
    induction hrescued with
    | well found ended => exact .well (by rw [hequal]; exact found) ended
    | falls failed fallback _ ih => exact .falls (by rw [hequal]; exact failed) fallback ih

lemma UntilReturned.effect {c₀ c c' : Config ω} (h : UntilReturned d c₀ c)
    (heffect : Config.Effect env d c c') : UntilReturned d c₀ c' := by
  refine ⟨h.sound.effect heffect, h.failures.effect h.sound heffect, fun results hmain => ?_⟩
  cases heffect with
  | sleeps hlooping _ =>
      rw [show c.main = .returned results from hmain] at hlooping
      cases hlooping
  | batches => cases hmain
  | stops hlooping hstops =>
      have hfinish := hstops.finish results hmain
      have hsuccess := successSound_of_finish hfinish h.failures.notSkipped
        (h.failures.looping hlooping)
      refine ⟨?_, hsuccess.congr hstops.same⟩
      unfold Config.gathered
      rw [hstops.tasks]
      exact h.sound.looping hlooping
  | starts hwaiting =>
      obtain ⟨result, hresult⟩ := (h.returned results hmain).1 _ hwaiting
      cases hresult
  | ends hrunning hends =>
      rw [hends.main] at hmain
      obtain ⟨result, hresult⟩ := (h.returned results hmain).1 _ hrunning
      cases hresult
  | crashes hrunning =>
      obtain ⟨result, hresult⟩ := (h.returned results hmain).1 _ hrunning
      cases hresult
  | gathers _ hgathers => exact absurd hmain (hgathers.raised results)

lemma Begins.untilReturned {disk : Option (RunState ω)} {resume : Bool} {c : Config ω}
    (h : Begins d disk resume c) : UntilReturned d c c := by
  have hnone : ∀ i, c.state.statusOf i ≠ some .failed := by
    intro i hi
    rcases h.statuses with hfresh | ⟨saved, -, -, -, hresumed⟩
    · rw [hfresh i] at hi
      split_ifs at hi
      cases hi
    · rw [hresumed i] at hi
      obtain ⟨status, -, hstatus⟩ := Option.map_eq_some_iff.mp hi
      split_ifs at hstatus with hfailed
      exact hfailed hstatus
  refine ⟨.initial h.tasks h.started, ⟨fun i hi => absurd hi (hnone i), fun i hi => ?_, fun _ i => ?_⟩,
    fun results hmain => ?_⟩
  · exact absurd (fatal_eq_true.mp hi).1 (hnone i)
  · by_contra hi
    rw [Bool.not_eq_false] at hi
    exact hnone i (fatal_eq_true.mp hi).1
  · rw [h.main] at hmain
    cases hmain

/-- When `execute` returns, no step ended failed under the policies `fail` and `skip`, and the
fallback steps of the failed steps have ended; following them leads to a step that ended well. -/
theorem success_sound {disk : Option (RunState ω)} {workflowId : String} {decode : ω → ω}
    {resume unlinked : Bool} {c₀ c : Config ω} {results : List (Scalar × Option ω)}
    (began : beginRun d workflowId decode resume unlinked disk = .ok c₀)
    (reached : c₀.Reaches env d c) (returned : c.main = .returned results) :
    SuccessSound d c.state := by
  obtain ⟨events, hplay⟩ := reached
  have huntil := Config.play_induction hplay (beginRun_begins began).untilReturned
    fun _ _ h heffect => h.effect heffect
  exact (huntil.returned results returned).2

theorem success_sound_chain :
    ∃ c₀ c results, beginRun chainWorkflow "chain" id false true none = .ok c₀ ∧
      Config.play plainEnv chainWorkflow c₀ chainEvents = some c ∧ c.main = .returned results ∧
      SuccessSound chainWorkflow c.state :=
  ⟨_, _, _, rfl, rfl, rfl,
    @success_sound ℕ plainEnv chainWorkflow none "chain" id false true _ _ _ rfl
      ⟨chainEvents, rfl⟩ rfl⟩

/-- The run of the chain returns although the fallback step of its first step failed. -/
theorem fallback_failed :
    ∃ c₀ c results, beginRun chainWorkflow "chain" id false true none = .ok c₀ ∧
      Config.play plainEnv chainWorkflow c₀ chainEvents = some c ∧ c.main = .returned results ∧
      c.state.statusOf (.text "a") = some .failed ∧
      chainWorkflow.fallbackOf (.text "a") = some (.text "b") ∧
      c.state.statusOf (.text "b") = some .failed :=
  ⟨_, _, _, rfl, rfl, rfl, rfl, rfl, rfl⟩

end AgentSystem.Workflow
