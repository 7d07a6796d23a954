import AgentSystem.WorkflowSafety

/-!
# The main loop ends

Every pass of the main loop that does not end it starts a step, and no step starts twice. The
exception is the pass that sleeps, which happens when an active step is `running` and none is ready:
it repeats for ever. A run makes no step `running` that it does not also end before the next pass,
so only a checkpoint can bring such a step.
-/
namespace AgentSystem.Workflow

variable {ω : Type} {env : Env ω} {d : Definition}

/-- The pass of the main loop that sleeps. -/
def Sleeps (env : Env ω) (d : Definition) (c : Config ω) : Prop :=
  c.main = .looping ∧ evaluate env d c.state c.context = .sleep

/-- The loop of a run ends: it makes at most one more pass than there are steps, the run has only
so many events, and it does not stand still before it has returned or raised. -/
structure LoopEnds (env : Env ω) (d : Definition) (c₀ : Config ω) : Prop where
  rounds : ∀ c, c₀.Reaches env d c → c.rounds ≤ d.steps.length + 1
  finite : ∀ events c, Config.play env d c₀ events = some c → events.length ≤ 6 * d.steps.length + 1
  halts : ∀ c, c₀.Reaches env d c → c.stopped ∨ ∃ event c', c.step env d event = some c'

/-! ## The steps of a run are those of the definition -/

/-- The steps of a state are steps of the definition. -/
def KnownSteps (d : Definition) (s : RunState ω) : Prop :=
  ∀ k status, s.statusOf k = some status → k ∈ d.ids

structure Known (d : Definition) (c : Config ω) : Prop where
  state : KnownSteps d c.state
  saved : ∀ saved, c.saved = some saved → KnownSteps d saved

section Known

variable {c c' : Config ω}

lemma KnownSteps.effect (h : KnownSteps d c.state) (heffect : Config.Effect env d c c') :
    KnownSteps d c'.state := by
  intro k status hstatus
  have hsome : (c.state.statusOf k).isSome := by
    rw [← heffect.isSome_statusOf k, hstatus]
    rfl
  obtain ⟨old, hold⟩ := Option.isSome_iff_exists.mp hsome
  exact h k old hold

lemma Known.effect (h : Known d c) (heffect : Config.Effect env d c c') : Known d c' := by
  refine ⟨h.state.effect heffect, fun saved hfound => ?_⟩
  rcases heffect.saved_cases with hold | hnew
  · exact h.saved saved (hold.symm.trans hfound)
  · rw [hnew, Option.some.injEq] at hfound
    rw [← hfound]
    exact h.state.effect heffect

lemma Known.reached (h : Known d c) (hreaches : c.Reaches env d c') : Known d c' := by
  obtain ⟨events, hplay⟩ := hreaches
  exact Config.play_induction hplay h fun _ _ h heffect => h.effect heffect

variable {disk : Option (RunState ω)} {workflowId : String} {decode : ω → ω}
  {resume unlinked : Bool}

lemma known_of_begin (hdisk : ∀ saved, disk = some saved → KnownSteps d saved)
    (h : beginRun d workflowId decode resume unlinked disk = .ok c) : Known d c := by
  refine ⟨?_, fun saved hsaved => ?_⟩
  · intro k status hstatus
    rcases (beginRun_begins h).statuses with hfresh | ⟨saved, hsaved, -, -, hresumed⟩
    · rw [hfresh k] at hstatus
      split_ifs at hstatus with hk
      exact hk
    · rw [hresumed k] at hstatus
      obtain ⟨old, hold, -⟩ := Option.map_eq_some_iff.mp hstatus
      exact hdisk saved hsaved k old hold
  · rcases saved_of_begin h with hnone | hdisk'
    · rw [hnone] at hsaved
      cases hsaved
    · exact hdisk saved (hdisk'.symm.trans hsaved)

/-- A checkpoint that runs of a definition leave behind has only steps of this definition. -/
lemma Leaves.known (h : Leaves d disk) : ∀ saved, disk = some saved → KnownSteps d saved := by
  induction h with
  | nothing =>
      intro saved hsaved
      cases hsaved
  | run _ began reached ih => exact ((known_of_begin ih began).reached reached).saved

end Known

/-! ## The number of passes -/

/-- Every pass but the current one has started a step. -/
structure Paced (c : Config ω) : Prop where
  bound : c.rounds ≤ c.started.length + 1
  looping : c.main = .looping → c.rounds ≤ c.started.length
  gathering : ∀ active, c.main = .gathering active → c.tasks ≠ [] ∧
    ((∃ task ∈ c.tasks, task.phase ≠ .waiting) → c.rounds ≤ c.started.length)

section Counting

variable {c₀ c c' : Config ω}

/-- Once the main coroutine has stopped it neither loops nor gathers. -/
lemma Config.stopped.not_main (h : c.stopped) :
    c.main ≠ .looping ∧ ∀ active, c.main ≠ .gathering active := by
  rcases h with ⟨results, h⟩ | ⟨error, h⟩ <;> rw [h] <;> simp

lemma setPhase_eq_nil {tasks : List Task} {i : Scalar} {phase : TaskPhase} :
    setPhase tasks i phase = [] ↔ tasks = [] := by
  unfold setPhase
  exact List.map_eq_nil_iff

lemma Paced.effect (h : Paced c) (hawake : ¬ Sleeps env d c)
    (heffect : Config.Effect env d c c') : Paced c' := by
  cases heffect with
  | sleeps hlooping hverdict => exact absurd ⟨hlooping, hverdict⟩ hawake
  | batches hlooping hverdict =>
      have hrounds := h.looping hlooping
      refine ⟨Nat.succ_le_succ hrounds, ?_, fun _ _ => ⟨?_, ?_⟩⟩
      · intro hmain
        cases hmain
      · intro hnil
        exact (evaluate_eq_batch hverdict).2.1 (List.map_eq_nil_iff.mp hnil)
      · rintro ⟨task, htask, hphase⟩
        obtain ⟨i, -, rfl⟩ := List.mem_map.mp htask
        exact absurd rfl hphase
  | stops hlooping hstops =>
      have hrounds := h.looping hlooping
      obtain ⟨hmain, hgathering⟩ := hstops.stopped.not_main
      refine ⟨?_, fun hloop => absurd hloop hmain, fun active hgather => ?_⟩
      · rw [hstops.rounds, hstops.started]
        exact Nat.succ_le_succ hrounds
      · exact absurd hgather (hgathering active)
  | @starts i saves hwaiting =>
      have hlength : (c.startStep i saves).started.length = c.started.length + 1 := by
        simp [Config.startStep]
      have hrounds : (c.startStep i saves).rounds ≤ (c.startStep i saves).started.length := by
        rw [hlength]
        exact h.bound
      refine ⟨hrounds.trans (Nat.le_succ _), fun _ => hrounds, fun active hmain => ⟨?_, fun _ => hrounds⟩⟩
      exact fun hnil => (h.gathering active hmain).1 (setPhase_eq_nil.mp hnil)
  | ends hrunning hends =>
      obtain ⟨status, result, -, -, -, htasks⟩ := hends.ends
      refine ⟨?_, fun hmain => ?_, fun active hmain => ?_⟩
      · rw [hends.rounds, hends.started]
        exact h.bound
      · rw [hends.rounds, hends.started]
        exact h.looping (hends.main.symm.trans hmain)
      · obtain ⟨hsome, hrounds⟩ := h.gathering active (hends.main.symm.trans hmain)
        rw [htasks, hends.rounds, hends.started]
        exact ⟨fun hnil => hsome (setPhase_eq_nil.mp hnil),
          fun _ => hrounds ⟨_, hrunning, by simp⟩⟩
  | crashes hrunning =>
      refine ⟨h.bound, h.looping, fun active hmain => ?_⟩
      obtain ⟨hsome, hrounds⟩ := h.gathering active hmain
      exact ⟨fun hnil => hsome (setPhase_eq_nil.mp hnil), fun _ => hrounds ⟨_, hrunning, by simp⟩⟩
  | gathers hgathering hgathers =>
      obtain ⟨hsome, hrounds⟩ := h.gathering _ hgathering
      have unchanged : c'.rounds ≤ c'.started.length ↔ c.rounds ≤ c.started.length := by
        rw [hgathers.rounds, hgathers.started]
      refine ⟨?_, fun hmain => ?_, fun active hmain => ?_⟩
      · rw [hgathers.rounds, hgathers.started]
        exact h.bound
      · rcases hgathers.main with hstopped | ⟨-, hgathered, -⟩
        · exact absurd hmain hstopped.not_main.1
        · obtain ⟨task, htask⟩ := List.exists_mem_of_ne_nil _ hsome
          obtain ⟨result, hresult⟩ := hgathered task htask
          exact unchanged.mpr (hrounds ⟨task, htask, by rw [hresult]; simp⟩)
      · rcases hgathers.main with hstopped | ⟨hlooping, -⟩
        · exact absurd hmain (hstopped.not_main.2 active)
        · rw [hmain] at hlooping
          cases hlooping

/-- The steps that were started are steps of the definition. -/
lemma Sound.started_length (h : Sound d c₀ c) (hknown : KnownSteps d c₀.state) :
    c.started.length ≤ d.steps.length := by
  have hsubset : c.started ⊆ d.ids := fun i hi => hknown i _ (h.fromPending i hi)
  calc c.started.length ≤ d.ids.length := (h.once.subperm hsubset).length_le
    _ = d.steps.length := List.length_map _

end Counting

/-! ## The number of events -/

section Potential

variable {c₀ c c' : Config ω}

/-- What the main coroutine can still do before another step starts. -/
def mainPotential (c : Config ω) : ℕ :=
  match c.main with
  | .looping => 1
  | .gathering _ => if c.tasks.all fun task => task.phase = .waiting then 0 else 3
  | .returned _ | .raised _ => 0

/-- The events that are left to a run, unless it sleeps. -/
def potential (d : Definition) (c : Config ω) : ℕ :=
  6 * (d.steps.length - c.started.length) +
    c.tasks.countP (fun task => task.phase = .running) + mainPotential c

lemma mainPotential_le : mainPotential c ≤ 3 := by
  unfold mainPotential
  split
  · omega
  · split_ifs <;> omega
  · omega
  · omega

lemma mainPotential_gathering {active : List Scalar} (hmain : c.main = .gathering active)
    (hsome : ∃ task ∈ c.tasks, task.phase ≠ .waiting) : mainPotential c = 3 := by
  obtain ⟨task, htask, hphase⟩ := hsome
  unfold mainPotential
  rw [hmain]
  refine if_neg fun hall => hphase ?_
  exact of_decide_eq_true (List.all_eq_true.mp hall task htask)

lemma mainPotential_stopped (h : c.stopped) : mainPotential c = 0 := by
  unfold mainPotential
  rcases h with ⟨results, h⟩ | ⟨error, h⟩ <;> rw [h]

/-- A change of one phase changes the count by this coroutine only. -/
lemma countP_setPhase {tasks : List Task} {i : Scalar} {old : TaskPhase}
    (halone : (tasks.map Task.stepId).Nodup) (hi : ⟨i, old⟩ ∈ tasks) (new : TaskPhase)
    (p : Task → Bool) :
    (setPhase tasks i new).countP p + (if p ⟨i, old⟩ then 1 else 0) =
      tasks.countP p + if p ⟨i, new⟩ then 1 else 0 := by
  induction tasks with
  | nil => cases hi
  | cons task tasks ih =>
      rw [List.map_cons, List.nodup_cons] at halone
      unfold setPhase at ih ⊢
      rw [List.map_cons, List.countP_cons, List.countP_cons]
      by_cases hid : task.stepId = i
      · have htask : task = ⟨i, old⟩ := by
          rcases List.mem_cons.mp hi with heq | hmem
          · exact heq.symm
          · exact absurd (hid ▸ List.mem_map_of_mem hmem) halone.1
        have hrest : (tasks.map fun task => if task.stepId = i then { task with phase := new }
            else task) = tasks := by
          conv_rhs => rw [← List.map_id tasks]
          refine List.map_congr_left fun other hother => if_neg ?_
          rintro hother'
          exact halone.1 (hid.trans hother'.symm ▸ List.mem_map_of_mem hother)
        rw [hrest, htask]
        simp only [if_true]
        omega
      · have hmem : ⟨i, old⟩ ∈ tasks := by
          rcases List.mem_cons.mp hi with heq | hmem
          · exact absurd (congrArg Task.stepId heq).symm hid
          · exact hmem
        have := ih halone.2 hmem
        rw [if_neg hid]
        omega

/-- Every event but a sleep uses up some of the potential. -/
lemma potential_lt (hpaced : Paced c) (hsound : Sound d c₀ c) (hsound' : Sound d c₀ c')
    (hknown : KnownSteps d c₀.state) (hawake : ¬ Sleeps env d c)
    (heffect : Config.Effect env d c c') : potential d c' < potential d c := by
  unfold potential
  cases heffect with
  | sleeps hlooping hverdict => exact absurd ⟨hlooping, hverdict⟩ hawake
  | @batches active ready hlooping _ =>
      have hwaiting : ∀ task ∈ ready.map fun i => (⟨i, .waiting⟩ : Task), task.phase = .waiting := by
        intro task htask
        obtain ⟨i, -, rfl⟩ := List.mem_map.mp htask
        rfl
      have hcount : (ready.map fun i => (⟨i, .waiting⟩ : Task)).countP
          (fun task => task.phase = .running) = 0 := by
        rw [List.countP_eq_zero]
        intro task htask
        simp [hwaiting task htask]
      have hafter : mainPotential
          (Config.startBatch { c with rounds := c.rounds + 1 } active ready) = 0 := by
        refine if_pos (List.all_eq_true.mpr fun task htask => ?_)
        exact decide_eq_true (hwaiting task htask)
      have hbefore : mainPotential c = 1 := by
        unfold mainPotential
        rw [hlooping]
      rw [hafter, hbefore]
      change _ + (ready.map fun i => (⟨i, .waiting⟩ : Task)).countP _ + 0 < _
      rw [hcount]
      simp only [Config.startBatch]
      omega
  | stops hlooping hstops =>
      have hbefore : mainPotential c = 1 := by
        unfold mainPotential
        rw [hlooping]
      rw [mainPotential_stopped hstops.stopped, hbefore, hstops.tasks, hstops.started]
      omega
  | @starts i saves hwaiting =>
      have hlength : (c.startStep i saves).started.length = c.started.length + 1 := by
        simp [Config.startStep]
      have hbound := hsound'.started_length hknown
      have hcount := countP_setPhase hsound.alone hwaiting (if saves then .running else .raised)
        fun task => task.phase = .running
      have hmain := mainPotential_le (c := c.startStep i saves)
      change _ + (setPhase c.tasks i _).countP _ + _ < _
      rw [hlength] at hbound ⊢
      cases saves <;> simp at hcount ⊢ <;> omega
  | @ends _ i saves hrunning hends =>
      obtain ⟨status, result, -, -, -, htasks⟩ := hends.ends
      have hcount := countP_setPhase hsound.alone hrunning
        (if saves then .ended result else .raised) fun task => task.phase = .running
      have hmain : mainPotential c' ≤ mainPotential c := by
        cases hgather : c.main with
        | gathering active =>
            rw [mainPotential_gathering hgather ⟨_, hrunning, by simp⟩]
            exact mainPotential_le
        | looping =>
            obtain ⟨result, hresult⟩ := hsound.looping hgather _ hrunning
            cases hresult
        | returned results =>
            rw [mainPotential_stopped (.inl ⟨results, hends.main.trans hgather⟩)]
            exact Nat.zero_le _
        | raised error =>
            rw [mainPotential_stopped (.inr ⟨error, hends.main.trans hgather⟩)]
            exact Nat.zero_le _
      rw [htasks, hends.started]
      cases saves <;> simp at hcount ⊢ <;> omega
  | @crashes i hrunning =>
      have hcount := countP_setPhase hsound.alone hrunning .raised
        fun task => task.phase = .running
      have hmain : mainPotential { c with tasks := setPhase c.tasks i .raised } ≤
          mainPotential c := by
        cases hgather : c.main with
        | gathering active =>
            rw [mainPotential_gathering hgather ⟨_, hrunning, by simp⟩]
            exact mainPotential_le
        | looping =>
            obtain ⟨result, hresult⟩ := hsound.looping hgather _ hrunning
            cases hresult
        | returned results => simp [mainPotential, hgather]
        | raised error => simp [mainPotential, hgather]
      simp at hcount ⊢
      omega
  | gathers hgathering hgathers =>
      obtain ⟨hsome, -⟩ := hpaced.gathering _ hgathering
      have hmoved : ∃ task ∈ c.tasks, task.phase ≠ .waiting := by
        rcases hgathers.settled with hgathered | ⟨task, htask, hraised⟩
        · obtain ⟨task, htask⟩ := List.exists_mem_of_ne_nil _ hsome
          obtain ⟨result, hresult⟩ := hgathered task htask
          exact ⟨task, htask, by rw [hresult]; simp⟩
        · exact ⟨task, htask, by rw [hraised]; simp⟩
      have hafter : mainPotential c' ≤ 1 := by
        rcases hgathers.main with hstopped | ⟨hlooping, -⟩
        · rw [mainPotential_stopped hstopped]
          exact Nat.zero_le _
        · unfold mainPotential
          rw [hlooping]
      rw [hgathers.tasks, hgathers.started, mainPotential_gathering hgathering hmoved]
      omega

end Potential

/-! ## Progress -/

section Progress

variable {c₀ c c' : Config ω}

/-- A coroutine that has neither ended nor raised can take a step. -/
lemma Config.step_task {task : Task} (htask : task ∈ c.tasks)
    (hphase : task.phase = .waiting ∨ task.phase = .running) :
    ∃ event c', c.step env d event = some c' := by
  obtain ⟨i, phase⟩ := task
  rcases hphase with rfl | rfl
  · exact ⟨.start i true, _, if_pos htask⟩
  · exact ⟨.crash i, _, if_pos htask⟩

lemma Config.halts (c : Config ω) : c.stopped ∨ ∃ event c', c.step env d event = some c' := by
  cases hmain : c.main with
  | returned results => exact .inl (.inl ⟨results, hmain⟩)
  | raised error => exact .inl (.inr ⟨error, hmain⟩)
  | looping =>
      refine .inr ⟨.evaluate true, c.evaluateLoop env d true, ?_⟩
      simp only [Config.step, hmain]
  | gathering active =>
      right
      by_cases hopen : ∃ task ∈ c.tasks, task.phase = .waiting ∨ task.phase = .running
      · obtain ⟨task, htask, hphase⟩ := hopen
        exact Config.step_task htask hphase
      push Not at hopen
      cases hraised : c.tasks.find? fun task => task.phase = .raised with
      | some task =>
          refine ⟨.gather true, { c with main := .raised (.step task.stepId) }, ?_⟩
          simp only [Config.step, hmain, hraised]
      | none =>
          have hall : c.tasks.all fun task => decide (∃ result, task.phase = .ended result) := by
            refine List.all_eq_true.mpr fun task htask => decide_eq_true ?_
            have hnot := List.find?_eq_none.mp hraised task htask
            obtain ⟨hwaiting, hrunning⟩ := hopen task htask
            cases hphase : task.phase with
            | waiting => exact absurd hphase hwaiting
            | running => exact absurd hphase hrunning
            | ended result => exact ⟨result, rfl⟩
            | raised => simp [hphase] at hnot
          refine ⟨.gather true, c.afterGather env d active true, ?_⟩
          simp only [Config.step, hmain, hraised]
          exact if_pos hall

/-- A run that sleeps can sleep for ever. -/
lemma Sleeps.forever (h : Sleeps env d c) (passes : ℕ) :
    ∃ c', c.Reaches env d c' ∧ Sleeps env d c' ∧ c'.rounds = c.rounds + passes := by
  induction passes with
  | zero => exact ⟨c, ⟨[], rfl⟩, h, rfl⟩
  | succ passes ih =>
      obtain ⟨c', ⟨events, hplay⟩, hsleeps, hrounds⟩ := ih
      refine ⟨{ c' with rounds := c'.rounds + 1 }, ⟨events ++ [.evaluate true], ?_⟩, hsleeps, ?_⟩
      · rw [Config.play_append hplay]
        simp [Config.play, Config.step, Config.evaluateLoop, hsleeps.1, hsleeps.2]
      · simp [hrounds, Nat.add_assoc]

/-- What the counting needs, in every configuration of a run that never sleeps. -/
structure Counted (d : Definition) (c₀ c : Config ω) : Prop where
  paced : Paced c
  sound : Sound d c₀ c

lemma Begins.counted {disk : Option (RunState ω)} {resume : Bool}
    (h : Begins d disk resume c) : Counted d c c := by
  refine ⟨⟨?_, fun _ => ?_, fun active hmain => ?_⟩, .initial h.tasks h.started⟩
  · rw [h.rounds]
    exact Nat.zero_le _
  · rw [h.rounds]
    exact Nat.zero_le _
  · rw [h.main] at hmain
    cases hmain

/-- Along a run that never sleeps the events are paid for by the potential. -/
lemma Counted.play (h : Counted d c₀ c) (hknown : KnownSteps d c₀.state)
    (hawake : ∀ c', c.Reaches env d c' → ¬ Sleeps env d c') {events : List (Event ω)}
    (hplay : Config.play env d c events = some c') :
    Counted d c₀ c' ∧ events.length + potential d c' ≤ potential d c := by
  induction events generalizing c with
  | nil =>
      cases hplay
      exact ⟨h, by simp⟩
  | cons event events ih =>
      obtain ⟨next, hnext, hrest⟩ := Option.bind_eq_some_iff.mp hplay
      have heffect := Config.step_effect hnext
      have hsleep := hawake c ⟨[], rfl⟩
      have hcounted : Counted d c₀ next :=
        ⟨h.paced.effect hsleep heffect, h.sound.effect heffect⟩
      have hlt := potential_lt h.paced h.sound hcounted.sound hknown hsleep heffect
      obtain ⟨hfinal, hlength⟩ := ih hcounted (fun c' ⟨events, hc'⟩ =>
        hawake c' ⟨event :: events, by rw [Config.play, hnext]; exact hc'⟩) hrest
      refine ⟨hfinal, ?_⟩
      rw [List.length_cons]
      omega

/-- No step is running before the run has started it. -/
structure RunningTasks (c : Config ω) : Prop where
  task : ∀ i, c.state.statusOf i = some .running →
    ∃ task ∈ c.tasks, task.stepId = i ∧ ∀ result, task.phase ≠ .ended result

lemma RunningTasks.effect (h : RunningTasks c) (hsound : Sound d c₀ c)
    (heffect : Config.Effect env d c c') : RunningTasks c' := by
  constructor
  intro j hj
  cases heffect with
  | sleeps => exact h.task j hj
  | batches hlooping _ =>
      obtain ⟨task, htask, -, hphase⟩ := h.task j hj
      obtain ⟨result, hresult⟩ := hsound.looping hlooping task htask
      exact absurd hresult (hphase result)
  | stops _ hstops =>
      rw [hstops.tasks]
      exact h.task j ((hstops.same j).symm.trans hj)
  | @starts i saves hwaiting =>
      by_cases hji : j = i
      · subst hji
        refine ⟨_, mem_setPhase.mpr (.inr ⟨rfl, List.mem_map_of_mem hwaiting⟩), rfl, ?_⟩
        cases saves <;> simp
      · have hold : c.state.statusOf j = some .running := by
          rw [← updates_setRunning.other hji]
          exact hj
        obtain ⟨task, htask, rfl, hphase⟩ := h.task j hold
        exact ⟨task, mem_setPhase.mpr (.inl ⟨hji, htask⟩), rfl, hphase⟩
  | @ends _ i saves hrunning hends =>
      obtain ⟨status, result, hupdates, hended, -, htasks⟩ := hends.ends
      have hself := hupdates.self (by rw [hsound.running i hrunning]; rfl)
      have hji : j ≠ i := by
        rintro rfl
        rw [hself, Option.some.injEq] at hj
        subst hj
        cases hended
      rw [hupdates.other hji] at hj
      obtain ⟨task, htask, rfl, hphase⟩ := h.task j hj
      rw [htasks]
      exact ⟨task, mem_setPhase.mpr (.inl ⟨hji, htask⟩), rfl, hphase⟩
  | @crashes i hrunning =>
      obtain ⟨task, htask, rfl, hphase⟩ := h.task j hj
      by_cases hji : task.stepId = i
      · refine ⟨⟨i, .raised⟩, mem_setPhase.mpr (.inr ⟨rfl, List.mem_map_of_mem hrunning⟩), hji.symm, ?_⟩
        simp
      · exact ⟨task, mem_setPhase.mpr (.inl ⟨hji, htask⟩), rfl, hphase⟩
  | gathers _ hgathers =>
      rw [hgathers.tasks]
      exact h.task j ((hgathers.same j).symm.trans hj)

/-- A pass sleeps only on an active step that is running. -/
lemma evaluate_eq_sleep {s : RunState ω} {context : Context ω}
    (h : evaluate env d s context = .sleep) : ∃ i, s.statusOf i = some .running := by
  unfold evaluate at h
  split at h
  · cases h
  · cases h
  unfold evaluateActive at h
  split at h
  · cases h
  split at h
  · cases h
  split at h
  · cases h
  split at h
  · cases h
  · split at h
    · next hany =>
      obtain ⟨i, -, hi⟩ := List.any_eq_true.mp hany
      exact ⟨i, of_decide_eq_true hi⟩
    · cases h
  · cases h

/-- A run that begins without running steps never sleeps. -/
lemma never_sleeps (hnone : ∀ i, c₀.state.statusOf i ≠ some .running) (hsound : Sound d c₀ c₀)
    (hreaches : c₀.Reaches env d c) : ¬ Sleeps env d c := by
  rintro ⟨hlooping, hverdict⟩
  obtain ⟨events, hplay⟩ := hreaches
  have hboth : Sound d c₀ c ∧ RunningTasks c := by
    refine Config.play_induction (P := fun c => Sound d c₀ c ∧ RunningTasks c) hplay
      ⟨hsound, ⟨fun i hi => absurd hi (hnone i)⟩⟩ ?_
    exact fun _ _ h heffect => ⟨h.1.effect heffect, h.2.effect h.1 heffect⟩
  obtain ⟨i, hi⟩ := evaluate_eq_sleep hverdict
  obtain ⟨task, htask, -, hphase⟩ := hboth.2.task i hi
  obtain ⟨result, hresult⟩ := hboth.1.looping hlooping task htask
  exact hphase result hresult

end Progress

/-- The loop of a run ends exactly if the run never sleeps, and a run that begins without running
steps, from nothing or from a checkpoint, never does. -/
theorem loop_ends {disk : Option (RunState ω)} {workflowId : String} {decode : ω → ω}
    {resume unlinked : Bool} {c₀ : Config ω} (left : Leaves d disk)
    (began : beginRun d workflowId decode resume unlinked disk = .ok c₀) :
    (LoopEnds env d c₀ ↔ ∀ c, c₀.Reaches env d c → ¬ Sleeps env d c) ∧
      ((∀ saved, disk = some saved → resume = true → saved.status = .failed →
        ∀ i, saved.statusOf i ≠ some .running) → LoopEnds env d c₀) := by
  have hbegins := beginRun_begins began
  have hcounted := hbegins.counted (d := d)
  have hknown := (known_of_begin left.known began).state
  have hends : (∀ c, c₀.Reaches env d c → ¬ Sleeps env d c) → LoopEnds env d c₀ := by
    intro hawake
    refine ⟨?_, ?_, fun c _ => c.halts⟩
    · rintro c ⟨events, hplay⟩
      obtain ⟨hfinal, -⟩ := hcounted.play hknown hawake hplay
      have := hfinal.paced.bound
      have := hfinal.sound.started_length hknown
      omega
    · intro events c hplay
      obtain ⟨-, hlength⟩ := hcounted.play hknown hawake hplay
      have hstart : potential d c₀ = 6 * d.steps.length + 1 := by
        simp [potential, mainPotential, hbegins.main, hbegins.tasks, hbegins.started]
      omega
  refine ⟨⟨fun h c hreaches hsleeps => ?_, hends⟩, fun hnone => hends fun c => ?_⟩
  · obtain ⟨events, hplay⟩ := hreaches
    obtain ⟨c', ⟨more, hmore⟩, -, hrounds⟩ := hsleeps.forever (d.steps.length + 2)
    have := h.rounds c' ⟨events ++ more, by rw [Config.play_append hplay]; exact hmore⟩
    omega
  · refine never_sleeps (fun i hi => ?_) hcounted.sound
    rcases hbegins.statuses with hfresh | ⟨saved, hsaved, hresume, hfailed, hresumed⟩
    · rw [hfresh i] at hi
      split_ifs at hi
      cases hi
    · rw [hresumed i] at hi
      obtain ⟨status, hstatus, heq⟩ := Option.map_eq_some_iff.mp hi
      split_ifs at heq
      subst heq
      exact hnone saved hsaved hresume hfailed i hstatus

theorem loop_ends_parallel :
    ∃ c₀, beginRun parallelWorkflow "parallel" id false true none = .ok c₀ ∧
      ((LoopEnds plainEnv parallelWorkflow c₀ ↔
          ∀ c, c₀.Reaches plainEnv parallelWorkflow c → ¬ Sleeps plainEnv parallelWorkflow c) ∧
        ((∀ saved : RunState ℕ, none = some saved → false = true → saved.status = .failed →
          ∀ i, saved.statusOf i ≠ some .running) → LoopEnds plainEnv parallelWorkflow c₀)) :=
  ⟨_, rfl, @loop_ends ℕ plainEnv parallelWorkflow none "parallel" id false true _ .nothing rfl⟩

/-- A process stops after the second of two parallel steps has failed; the run that resumes from
its checkpoint makes more passes than any number. -/
theorem resumed_run_sleeps :
    ∃ (disk : Option (RunState ℕ)) (c₀ : Config ℕ), Leaves parallelWorkflow disk ∧
      beginRun parallelWorkflow "parallel" id true true disk = .ok c₀ ∧
      ∀ n, ∃ c, c₀.Reaches plainEnv parallelWorkflow c ∧ c.main = .looping ∧ n ≤ c.rounds := by
  have hresumed : ∃ (disk : Option (RunState ℕ)) (c₀ c : Config ℕ),
      Leaves parallelWorkflow disk ∧
        beginRun parallelWorkflow "parallel" id true true disk = .ok c₀ ∧
        Config.play plainEnv parallelWorkflow c₀ resumedEvents = some c ∧
        Sleeps plainEnv parallelWorkflow c :=
    ⟨_, _, _, @Leaves.run ℕ parallelWorkflow plainEnv "parallel" id false true none _ _ .nothing
      rfl ⟨siblingEvents, rfl⟩, rfl, rfl, rfl, rfl⟩
  obtain ⟨disk, c₀, c, hleft, hbegan, hplay, hsleeps⟩ := hresumed
  refine ⟨disk, c₀, hleft, hbegan, fun n => ?_⟩
  obtain ⟨c', ⟨more, hmore⟩, hsleeps', hrounds⟩ := hsleeps.forever n
  exact ⟨c', ⟨resumedEvents ++ more, (Config.play_append hplay).trans hmore⟩, hsleeps'.1, by omega⟩

end AgentSystem.Workflow
