import AgentSystem.WorkflowRun

/-!
# What the events of a run do

The effect of each event on the statuses of the steps. Only the coroutine of a step changes its
status, and a pass of the main loop changes none.
-/
namespace AgentSystem.Workflow

variable {ω : Type} {s s' : RunState ω} {stepId : Scalar} {status : StepStatus}

/-- One step gets a status and the others keep theirs. -/
def Updates (s s' : RunState ω) (stepId : Scalar) (status : StepStatus) : Prop :=
  ∀ k, s'.statusOf k = if k = stepId then (s.statusOf k).map fun _ => status else s.statusOf k

/-- No step changes its status. -/
def SameStatuses (s s' : RunState ω) : Prop := ∀ k, s'.statusOf k = s.statusOf k

namespace Updates

lemma self (h : Updates s s' stepId status) (hsome : (s.statusOf stepId).isSome) :
    s'.statusOf stepId = some status := by
  rw [h stepId, if_pos rfl]
  obtain ⟨old, hold⟩ := Option.isSome_iff_exists.mp hsome
  rw [hold, Option.map_some]

lemma other (h : Updates s s' stepId status) {k : Scalar} (hk : k ≠ stepId) :
    s'.statusOf k = s.statusOf k := by
  rw [h k, if_neg hk]

end Updates

lemma Updates.isSome (h : Updates s s' stepId status) (k : Scalar) :
    (s'.statusOf k).isSome = (s.statusOf k).isSome := by
  rw [h k]
  split_ifs
  · rw [Option.isSome_map]
  · rfl

lemma updates_modify {f : StepState ω → StepState ω} (keeps : ∀ row, (f row).stepId = row.stepId)
    (hf : ∀ row, (f row).status = status) : Updates s (s.modify stepId f keeps) stepId status := by
  intro k
  unfold RunState.statusOf RunState.modify
  rw [KeyedTable.lookup_update keeps]
  cases hrow : s.steps.lookup k with
  | none => simp
  | some row =>
      have hkey : row.stepId = k := (KeyedTable.lookup_eq_some.mp hrow).2
      by_cases hk : k = stepId
      · simp [hkey, hk, hf]
      · simp [hkey, hk]

lemma updates_setRunning : Updates s (s.setRunning stepId) stepId .running :=
  updates_modify _ fun _ => rfl

lemma updates_setSuccess (output : ω) : Updates s (s.setSuccess stepId output) stepId .success :=
  updates_modify _ fun _ => rfl

lemma updates_setFailed (error : String) :
    Updates s (s.setFailed stepId status error) stepId status :=
  updates_modify _ fun _ => rfl

/-! ## Phases of the coroutines -/

variable {tasks : List Task} {phase : TaskPhase} {task : Task}

lemma mem_setPhase :
    task ∈ setPhase tasks stepId phase ↔
      (task.stepId ≠ stepId ∧ task ∈ tasks) ∨
        (task = ⟨stepId, phase⟩ ∧ stepId ∈ tasks.map Task.stepId) := by
  unfold setPhase
  rw [List.mem_map]
  constructor
  · rintro ⟨old, hold, rfl⟩
    by_cases hid : old.stepId = stepId
    · subst hid
      rw [if_pos rfl]
      exact .inr ⟨rfl, List.mem_map_of_mem hold⟩
    · rw [if_neg hid]
      exact .inl ⟨hid, hold⟩
  · rintro (⟨hid, hmem⟩ | ⟨rfl, hmem⟩)
    · exact ⟨task, hmem, if_neg hid⟩
    · obtain ⟨old, hold, rfl⟩ := List.mem_map.mp hmem
      exact ⟨old, hold, if_pos rfl⟩

lemma setPhase_ids : (setPhase tasks stepId phase).map Task.stepId = tasks.map Task.stepId := by
  unfold setPhase
  rw [List.map_map]
  refine List.map_congr_left fun task _ => ?_
  simp only [Function.comp_apply]
  split_ifs <;> rfl

/-! ## The events -/

namespace Config

variable {env : Env ω} {d : Definition} {c c' : Config ω} {saves : Bool}

/-- The main coroutine has returned or raised. -/
def stopped (c : Config ω) : Prop :=
  (∃ results, c.main = .returned results) ∨ ∃ error, c.main = .raised error

lemma checkpoint_cases {state : RunState ω} :
    c.checkpoint state saves = c.saved ∨ c.checkpoint state saves = some state := by
  cases saves
  · exact .inl rfl
  · exact .inr rfl

/-- A pass that ends the loop. -/
structure Stops (env : Env ω) (d : Definition) (c c' : Config ω) : Prop where
  stopped : c'.stopped
  same : SameStatuses c.state c'.state
  tasks : c'.tasks = c.tasks
  started : c'.started = c.started
  rounds : c'.rounds = c.rounds + 1
  saved : c'.saved = c.saved ∨ c'.saved = some c'.state
  finish : ∀ results, c'.main = .returned results → evaluate env d c.state c.context = .finish

lemma evaluateLoop_cases :
    (evaluate env d c.state c.context = .sleep ∧
        c.evaluateLoop env d saves = { c with rounds := c.rounds + 1 }) ∨
      (∃ active ready, evaluate env d c.state c.context = .batch active ready ∧
        c.evaluateLoop env d saves =
          startBatch { c with rounds := c.rounds + 1 } active ready) ∨
      c.Stops env d (c.evaluateLoop env d saves) := by
  cases hverdict : evaluate env d c.state c.context with
  | sleep => exact .inl ⟨rfl, by simp [evaluateLoop, hverdict]⟩
  | batch active ready =>
      exact .inr (.inl ⟨active, ready, rfl, by simp [evaluateLoop, hverdict]⟩)
  | finish =>
      have hloop : c.evaluateLoop env d saves =
          succeed { c with rounds := c.rounds + 1 } saves := by
        simp [evaluateLoop, hverdict]
      rw [hloop]
      refine .inr (.inr ⟨?_, fun _ => rfl, rfl, rfl, rfl, checkpoint_cases, fun _ _ => hverdict⟩)
      cases saves <;> simp [stopped, succeed]
  | halt error saved =>
      cases saved with
      | false =>
          have hloop : c.evaluateLoop env d saves =
              { c with rounds := c.rounds + 1, main := .raised error } := by
            simp [evaluateLoop, hverdict]
          rw [hloop]
          exact .inr (.inr ⟨.inr ⟨error, rfl⟩, fun _ => rfl, rfl, rfl, rfl, .inl rfl, by simp⟩)
      | true =>
          have hloop : c.evaluateLoop env d saves =
              fail { c with rounds := c.rounds + 1 } error saves := by
            simp [evaluateLoop, hverdict]
          rw [hloop]
          exact .inr (.inr ⟨.inr ⟨_, rfl⟩, fun _ => rfl, rfl, rfl, rfl, checkpoint_cases,
            by simp [fail]⟩)

/-- The step of a coroutine ends with a status that decides its result. -/
structure Ends (d : Definition) (c c' : Config ω) (stepId : Scalar) (saves : Bool) : Prop where
  ends : ∃ status result, Updates c.state c'.state stepId status ∧ status.ended = true ∧
    (status = .failed → result = false ∧ d.policyOf stepId ≠ skipPolicy) ∧
    c'.tasks = setPhase c.tasks stepId (if saves then .ended result else .raised)
  main : c'.main = c.main
  started : c'.started = c.started
  rounds : c'.rounds = c.rounds
  saved : c'.saved = c.saved ∨ c'.saved = some c'.state

lemma finishStep_ends (c : Config ω) (stepId : Scalar) (outcome : Except String ω) (saves : Bool) :
    c.Ends d (c.finishStep d stepId outcome saves) stepId saves := by
  unfold finishStep
  split
  · exact ⟨⟨.success, true, updates_setSuccess _, rfl, by simp, rfl⟩, rfl, rfl, rfl,
      checkpoint_cases⟩
  · next message =>
    split_ifs with hskip
    · exact ⟨⟨.skipped, true, updates_setFailed _, rfl, by simp, rfl⟩, rfl, rfl, rfl,
        checkpoint_cases⟩
    · exact ⟨⟨.failed, false, updates_setFailed _, rfl, fun _ => ⟨rfl, hskip⟩, rfl⟩, rfl, rfl, rfl,
        checkpoint_cases⟩
    · exact ⟨⟨.failed, false, updates_setFailed (s := c.state) message, rfl,
        fun _ => ⟨rfl, hskip⟩, rfl⟩, rfl, rfl, rfl, checkpoint_cases⟩

/-- Every coroutine has ended and none has raised. -/
def gathered (c : Config ω) : Prop := ∀ task ∈ c.tasks, ∃ result, task.phase = .ended result

/-- `asyncio.gather` raises, or `execute` raises for a fatal failure, or the loop goes on. -/
structure Gathers (d : Definition) (c c' : Config ω) : Prop where
  main : c'.stopped ∨ (c'.main = .looping ∧ c.gathered ∧
    ¬ ((∃ task ∈ c.tasks, task.phase = .ended false) ∧
      ∃ task ∈ c.tasks, fatal d c.state task.stepId = true))
  settled : c.gathered ∨ ∃ task ∈ c.tasks, task.phase = .raised
  raised : ∀ results, c'.main ≠ .returned results
  same : SameStatuses c.state c'.state
  tasks : c'.tasks = c.tasks
  started : c'.started = c.started
  rounds : c'.rounds = c.rounds
  saved : c'.saved = c.saved ∨ c'.saved = some c'.state

lemma afterGather_gathers {active : List Scalar} (hgathered : c.gathered) :
    c.Gathers d (c.afterGather env d active saves) := by
  unfold afterGather
  split_ifs with hfatal
  · exact ⟨.inl (.inr ⟨_, rfl⟩), .inl hgathered, by simp [fail], fun _ => rfl, rfl, rfl, rfl,
      checkpoint_cases⟩
  · refine ⟨.inr ⟨rfl, hgathered, ?_⟩, .inl hgathered, by simp, fun _ => rfl, rfl, rfl, rfl, .inl rfl⟩
    simpa using hfatal

/-- What each event can do. -/
inductive Effect (env : Env ω) (d : Definition) (c : Config ω) : Config ω → Prop
  | sleeps (looping : c.main = .looping) (verdict : evaluate env d c.state c.context = .sleep) :
      Effect env d c { c with rounds := c.rounds + 1 }
  | batches {active ready : List Scalar} (looping : c.main = .looping)
      (verdict : evaluate env d c.state c.context = .batch active ready) :
      Effect env d c (startBatch { c with rounds := c.rounds + 1 } active ready)
  | stops {c' : Config ω} (looping : c.main = .looping) (stops : c.Stops env d c') :
      Effect env d c c'
  | starts {stepId : Scalar} {saves : Bool} (waiting : ⟨stepId, .waiting⟩ ∈ c.tasks) :
      Effect env d c (c.startStep stepId saves)
  | ends {c' : Config ω} {stepId : Scalar} {saves : Bool} (running : ⟨stepId, .running⟩ ∈ c.tasks)
      (ends : c.Ends d c' stepId saves) : Effect env d c c'
  | crashes {stepId : Scalar} (running : ⟨stepId, .running⟩ ∈ c.tasks) :
      Effect env d c { c with tasks := setPhase c.tasks stepId .raised }
  | gathers {c' : Config ω} {active : List Scalar} (gathering : c.main = .gathering active)
      (gathers : c.Gathers d c') : Effect env d c c'

lemma step_effect {event : Event ω} (h : c.step env d event = some c') : Effect env d c c' := by
  cases event with
  | evaluate saves =>
      simp only [step] at h
      split at h
      · next hmain =>
        cases h
        rcases @evaluateLoop_cases _ env d c saves with
          ⟨hverdict, hloop⟩ | ⟨active, ready, hverdict, hloop⟩ | hstops
        · rw [hloop]
          exact .sleeps hmain hverdict
        · rw [hloop]
          exact .batches hmain hverdict
        · exact .stops hmain hstops
      · cases h
  | start stepId saves =>
      simp only [step] at h
      split_ifs at h with hwaiting
      cases h
      exact .starts hwaiting
  | finish stepId tool saves =>
      simp only [step] at h
      split_ifs at h with hrunning
      cases h
      exact .ends hrunning (c.finishStep_ends stepId _ saves)
  | crash stepId =>
      simp only [step] at h
      split_ifs at h with hrunning
      cases h
      exact .crashes hrunning
  | gather saves =>
      simp only [step] at h
      split at h
      · next active hmain =>
        split at h
        · next task hraised =>
          cases h
          refine .gathers hmain
            ⟨.inl (.inr ⟨_, rfl⟩), .inr ⟨task, List.mem_of_find?_eq_some hraised, ?_⟩, by simp,
              fun _ => rfl, rfl, rfl, rfl, .inl rfl⟩
          simpa using List.find?_some hraised
        · split_ifs at h with hall
          cases h
          refine .gathers hmain (afterGather_gathers ?_)
          simpa [gathered] using hall
      · cases h

/-- No event adds or removes a step. -/
lemma Effect.isSome_statusOf (h : Effect env d c c') (k : Scalar) :
    (c'.state.statusOf k).isSome = (c.state.statusOf k).isSome := by
  cases h with
  | sleeps => rfl
  | batches => rfl
  | stops _ hstops => rw [hstops.same k]
  | starts => exact updates_setRunning.isSome k
  | ends _ hends =>
      obtain ⟨status, result, hupdates, -⟩ := hends.ends
      exact hupdates.isSome k
  | crashes => rfl
  | gathers _ hgathers => rw [hgathers.same k]

/-- The checkpoint is the old one or the state. -/
lemma Effect.saved_cases (h : Effect env d c c') :
    c'.saved = c.saved ∨ c'.saved = some c'.state := by
  cases h with
  | sleeps => exact .inl rfl
  | batches => exact .inl rfl
  | stops _ hstops => exact hstops.saved
  | starts => exact checkpoint_cases
  | ends _ hends => exact hends.saved
  | crashes => exact .inl rfl
  | gathers _ hgathers => exact hgathers.saved

lemma play_append {events more : List (Event ω)} (h : play env d c events = some c') :
    play env d c (events ++ more) = play env d c' more := by
  induction events generalizing c with
  | nil =>
      cases h
      rfl
  | cons event events ih =>
      obtain ⟨next, hnext, hrest⟩ := Option.bind_eq_some_iff.mp h
      rw [List.cons_append, play, hnext]
      exact ih hrest

/-- What every step preserves holds after every list of events. -/
lemma play_steps {P : Config ω → Prop} {events : List (Event ω)}
    (hplay : play env d c events = some c') (hc : P c)
    (hstep : ∀ before event after, P before → before.step env d event = some after → P after) :
    P c' := by
  induction events generalizing c with
  | nil =>
      cases hplay
      exact hc
  | cons event events ih =>
      obtain ⟨next, hnext, hrest⟩ := Option.bind_eq_some_iff.mp hplay
      exact ih hrest (hstep c event next hc hnext)

lemma play_induction {P : Config ω → Prop} {events : List (Event ω)}
    (hplay : play env d c events = some c') (hc : P c)
    (hstep : ∀ before after, P before → Effect env d before after → P after) : P c' :=
  play_steps hplay hc fun before _ after h hnext => hstep before after h (step_effect hnext)

end Config

/-! ## The batch -/

section Ready

variable {env : Env ω} {d : Definition} {context : Context ω} {active ready : List Scalar}

/-- A dependency that does not hold a step back: it ended well, or it failed and names exactly
this step as its fallback. -/
def DependencyEnded (d : Definition) (s : RunState ω) (stepId dependency : Scalar) : Prop :=
  s.statusOf dependency = some .success ∨ s.statusOf dependency = some .skipped ∨
    (s.statusOf dependency = some .failed ∧ ∃ step, d.step dependency = some step ∧
      step.onFailure = some fallbackPolicy ∧ step.fallbackStep = some (.scalar stepId))

lemma dependencyMet_iff {dependency : Scalar} :
    dependencyMet d s stepId dependency = true ↔ DependencyEnded d s stepId dependency := by
  unfold dependencyMet DependencyEnded
  cases s.statusOf dependency with
  | none => simp
  | some status =>
      cases status <;> simp
      cases d.step dependency <;> simp

/-- Every dependency of the step has ended. -/
def DependenciesEnded (d : Definition) (s : RunState ω) (stepId : Scalar) : Prop :=
  ∃ items, d.depsOf stepId = some (.iterable items) ∧
    ∀ item ∈ items, ∃ dependency, item = some dependency ∧ DependencyEnded d s stepId dependency

lemma dependenciesMet_eq_true {items : List (Option Scalar)}
    (h : dependenciesMet d s stepId items = .ok true) :
    ∀ item ∈ items, ∃ dependency, item = some dependency ∧
      DependencyEnded d s stepId dependency := by
  induction items with
  | nil => simp
  | cons item items ih =>
      cases item with
      | none => cases h
      | some dependency =>
          simp only [dependenciesMet] at h
          split_ifs at h with hmet
          · intro item hitem
            rcases List.mem_cons.mp hitem with rfl | hrest
            · exact ⟨dependency, rfl, dependencyMet_iff.mp hmet⟩
            · exact ih h item hrest
          · cases h

/-- A step that may start. -/
def MayStart (d : Definition) (s : RunState ω) (stepId : Scalar) : Prop :=
  s.statusOf stepId = some .pending ∧ DependenciesEnded d s stepId

/-- The loop keeps to the order of iteration and only adds steps that may start. -/
lemma foldlM_addReady {ids acc : List Scalar}
    (h : ids.foldlM (addReady d s) acc = .ok ready) :
    ∃ added, ready = acc ++ added ∧ added.Sublist ids ∧ ∀ i ∈ added, MayStart d s i := by
  induction ids generalizing acc with
  | nil =>
      cases h
      exact ⟨[], by simp⟩
  | cons i ids ih =>
      rw [List.foldlM_cons] at h
      cases hadd : addReady d s acc i with
      | error error =>
          rw [hadd] at h
          cases h
      | ok next =>
          rw [hadd] at h
          obtain ⟨added, rfl, hsub, hmay⟩ := ih h
          unfold addReady at hadd
          split_ifs at hadd with hpending
          · split at hadd
            · cases hadd
            · cases hadd
            next items hdeps =>
            cases hmet : dependenciesMet d s i items with
            | error error =>
                rw [hmet] at hadd
                cases hadd
            | ok met =>
                rw [hmet] at hadd
                cases met with
                | false =>
                    cases hadd
                    exact ⟨added, rfl, hsub.cons i, hmay⟩
                | true =>
                    cases hadd
                    refine ⟨i :: added, by simp, hsub.cons_cons i, ?_⟩
                    intro j hj
                    rcases List.mem_cons.mp hj with rfl | hold
                    · exact ⟨hpending, items, hdeps, dependenciesMet_eq_true hmet⟩
                    · exact hmay j hold
          · cases hadd
            exact ⟨added, rfl, hsub.cons i, hmay⟩

/-- What the main loop has looked at before it starts a batch. -/
lemma evaluate_eq_batch (h : evaluate env d s context = .batch active ready) :
    activeSteps env d s context = .ok active ∧ ready ≠ [] ∧
      ready.Sublist (env.iterate active) ∧ ∀ i ∈ ready, MayStart d s i := by
  unfold evaluate at h
  split at h
  · cases h
  · cases h
  next found hactive =>
  unfold evaluateActive at h
  split at h
  · cases h
  split at h
  · cases h
  split at h
  · cases h
  split at h
  · cases h
  · split at h <;> cases h
  next chosen hnonempty hready =>
  cases h
  obtain ⟨added, rfl, hsub, hmay⟩ := foldlM_addReady hready
  refine ⟨hactive, ?_, (List.take_sublist _ _).trans hsub, fun i hi => hmay i (List.mem_of_mem_take hi)⟩
  intro hempty
  rcases List.take_eq_nil_iff.mp hempty with hzero | hnil
  · exact env.maxConcurrentTasks.ne_zero hzero
  · exact hnonempty hnil

end Ready

end AgentSystem.Workflow
