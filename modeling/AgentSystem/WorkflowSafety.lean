import AgentSystem.WorkflowActivation
import AgentSystem.WorkflowRunSpec

/-!
# A run starts each step at most once, after its dependencies

Only pending steps become coroutines, a coroutine makes its step leave `pending` when it starts, and
a step that has ended never changes again. So no step starts twice, and what a step waited for is
still so when it starts.
-/
namespace AgentSystem.Workflow

variable {ω : Type} {env : Env ω} {d : Definition}

/-- What holds in every configuration that a run reaches from its beginning `c₀`. -/
structure Sound (d : Definition) (c₀ c : Config ω) : Prop where
  once : c.started.Nodup
  fromPending : ∀ i ∈ c.started, c₀.state.statusOf i = some .pending
  notPending : ∀ i ∈ c.started, c.state.statusOf i ≠ some .pending
  untouched : ∀ i, i ∉ c.started → c.state.statusOf i = c₀.state.statusOf i
  alone : (c.tasks.map Task.stepId).Nodup
  waiting : ∀ i, ⟨i, .waiting⟩ ∈ c.tasks → MayStart d c.state i
  running : ∀ i, ⟨i, .running⟩ ∈ c.tasks → c.state.statusOf i = some .running
  ended : ∀ i result, ⟨i, .ended result⟩ ∈ c.tasks → ∃ status, c.state.statusOf i = some status ∧
    status.ended = true
  begun : ∀ task ∈ c.tasks, task.phase ≠ .waiting → task.stepId ∈ c.started
  looping : c.main = .looping → c.gathered

section Stability

variable {s s' : RunState ω} {i : Scalar}

/-- A dependency that has ended stays so when no ended step changes. -/
lemma DependencyEnded.mono {dependency : Scalar} (h : DependencyEnded d s i dependency)
    (hsame : ∀ k status, s.statusOf k = some status → status.ended = true →
      s'.statusOf k = some status) : DependencyEnded d s' i dependency := by
  rcases h with hsuccess | hskipped | ⟨hfailed, hstep⟩
  · exact .inl (hsame _ _ hsuccess rfl)
  · exact .inr (.inl (hsame _ _ hskipped rfl))
  · exact .inr (.inr ⟨hsame _ _ hfailed rfl, hstep⟩)

lemma MayStart.mono (h : MayStart d s i) (hpending : s'.statusOf i = some .pending)
    (hsame : ∀ k status, s.statusOf k = some status → status.ended = true →
      s'.statusOf k = some status) : MayStart d s' i := by
  obtain ⟨-, items, hdeps, hended⟩ := h
  refine ⟨hpending, items, hdeps, fun item hitem => ?_⟩
  obtain ⟨dependency, rfl, hdependency⟩ := hended item hitem
  exact ⟨dependency, rfl, hdependency.mono hsame⟩

/-- A step that has not ended may change without touching the ended ones. -/
lemma Updates.ended_same {status old : StepStatus} (h : Updates s s' i status)
    (hold : s.statusOf i = some old) (hactive : old.ended = false) :
    ∀ k status, s.statusOf k = some status → status.ended = true →
      s'.statusOf k = some status := by
  intro k found hfound hended
  have hk : k ≠ i := by
    rintro rfl
    rw [hold, Option.some.injEq] at hfound
    subst hfound
    rw [hactive] at hended
    cases hended
  rw [h.other hk, hfound]

end Stability

/-- Two coroutines of one step are the same. -/
lemma task_unique {tasks : List Task} {i : Scalar} {phase phase' : TaskPhase}
    (halone : (tasks.map Task.stepId).Nodup) (h : ⟨i, phase⟩ ∈ tasks) (h' : ⟨i, phase'⟩ ∈ tasks) :
    phase = phase' := by
  have hequal := List.inj_on_of_nodup_map halone h h' rfl
  exact congrArg Task.phase hequal

namespace Sound

variable {c₀ c c' : Config ω}

/-- Nothing that a step can see has changed. -/
lemma congr (h : Sound d c₀ c) (hsame : SameStatuses c.state c'.state)
    (htasks : c'.tasks = c.tasks) (hstarted : c'.started = c.started)
    (hlooping : c'.main = .looping → c.gathered) : Sound d c₀ c' where
  once := by rw [hstarted]; exact h.once
  fromPending := by rw [hstarted]; exact h.fromPending
  notPending := by
    rw [hstarted]
    intro i hi
    rw [hsame i]
    exact h.notPending i hi
  untouched := by
    rw [hstarted]
    intro i hi
    rw [hsame i]
    exact h.untouched i hi
  alone := by rw [htasks]; exact h.alone
  waiting := by
    rw [htasks]
    intro i hi
    have hmay := h.waiting i hi
    refine hmay.mono ((hsame i).trans hmay.1) fun k status hstatus _ => ?_
    rw [hsame k, hstatus]
  running := by
    rw [htasks]
    intro i hi
    rw [hsame i]
    exact h.running i hi
  ended := by
    rw [htasks]
    intro i result hi
    rw [hsame i]
    exact h.ended i result hi
  begun := by rw [htasks, hstarted]; exact h.begun
  looping := by
    intro hmain
    unfold Config.gathered
    rw [htasks]
    exact hlooping hmain

lemma batches {active ready : List Scalar} {context : Context ω} (h : Sound d c₀ c)
    (hverdict : evaluate env d c.state context = .batch active ready)
    (rounds : ℕ) : Sound d c₀ (Config.startBatch { c with rounds := rounds } active ready) := by
  obtain ⟨hactive, -, hsub, hmay⟩ := evaluate_eq_batch hverdict
  have hready : ready.Nodup :=
    hsub.nodup ((env.iterate_perm active).nodup_iff.mpr (activeSteps_nodup hactive))
  have waits : ∀ task ∈ ready.map fun i => (⟨i, .waiting⟩ : Task),
      task.phase = .waiting ∧ task.stepId ∈ ready := by
    intro task htask
    obtain ⟨i, hi, rfl⟩ := List.mem_map.mp htask
    exact ⟨rfl, hi⟩
  refine ⟨h.once, h.fromPending, h.notPending, h.untouched, ?_, ?_, ?_, ?_, ?_, ?_⟩ <;>
    simp only [Config.startBatch]
  · rw [List.map_map]
    simpa [Function.comp_def] using hready
  · intro i hi
    exact hmay i (waits _ hi).2
  · intro i hi
    cases (waits _ hi).1
  · intro i result hi
    cases (waits _ hi).1
  · intro task htask hphase
    exact absurd (waits task htask).1 hphase
  · intro hmain
    cases hmain

/-- A waiting step was not started yet. -/
lemma waiting_notMem (h : Sound d c₀ c) {i : Scalar} (hi : ⟨i, .waiting⟩ ∈ c.tasks) :
    i ∉ c.started :=
  fun hmem => h.notPending i hmem (h.waiting i hi).1

lemma starts {i : Scalar} {saves : Bool} (h : Sound d c₀ c) (hi : ⟨i, .waiting⟩ ∈ c.tasks) :
    Sound d c₀ (c.startStep i saves) := by
  have hnew := h.waiting_notMem hi
  have hpending := (h.waiting i hi).1
  have hupdates : Updates c.state (c.startStep i saves).state i .running := updates_setRunning
  have hrunning := hupdates.self (by rw [hpending]; rfl)
  have hsame := hupdates.ended_same hpending rfl
  have hother : ∀ j, j ≠ i → (c.startStep i saves).state.statusOf j = c.state.statusOf j :=
    fun j hj => hupdates.other hj
  have hphase : (if saves then TaskPhase.running else .raised) ≠ .waiting := by
    cases saves <;> simp
  have tasks : ∀ task, task ∈ (c.startStep i saves).tasks →
      (task.stepId ≠ i ∧ task ∈ c.tasks) ∨
        task = ⟨i, if saves then .running else .raised⟩ := by
    intro task htask
    rcases mem_setPhase.mp htask with hold | ⟨rfl, -⟩
    · exact .inl hold
    · exact .inr rfl
  constructor
  case once => exact h.once.append (List.nodup_singleton i) (by simpa using hnew)
  case fromPending =>
    intro j hj
    rcases List.mem_append.mp hj with hold | hlast
    · exact h.fromPending j hold
    · obtain rfl := List.mem_singleton.mp hlast
      rw [← h.untouched j hnew]
      exact hpending
  case notPending =>
    intro j hj
    rcases List.mem_append.mp hj with hold | hlast
    · rw [hother j (by rintro rfl; exact hnew hold)]
      exact h.notPending j hold
    · obtain rfl := List.mem_singleton.mp hlast
      rw [hrunning]
      simp
  case untouched =>
    intro j hj
    have hj' : j ∉ c.started ∧ j ≠ i := by simpa [Config.startStep] using hj
    rw [hother j hj'.2]
    exact h.untouched j hj'.1
  case alone =>
    change ((setPhase c.tasks i _).map Task.stepId).Nodup
    rw [setPhase_ids]
    exact h.alone
  case waiting =>
    intro j hj
    rcases tasks _ hj with ⟨hne, hold⟩ | hnew
    · have hmay := h.waiting j hold
      exact hmay.mono ((hother j hne).trans hmay.1) hsame
    · exact absurd (congrArg Task.phase hnew).symm hphase
  case running =>
    intro j hj
    rcases tasks _ hj with ⟨hne, hold⟩ | hnew
    · rw [hother j hne]
      exact h.running j hold
    · obtain rfl := congrArg Task.stepId hnew
      exact hrunning
  case ended =>
    intro j result hj
    rcases tasks _ hj with ⟨hne, hold⟩ | hnew
    · rw [hother j hne]
      exact h.ended j result hold
    · have := congrArg Task.phase hnew
      cases saves <;> simp at this
  case begun =>
    intro task htask hwaiting
    rcases tasks task htask with ⟨-, hold⟩ | rfl
    · exact List.mem_append_left _ (h.begun task hold hwaiting)
    · exact List.mem_append_right _ (List.mem_singleton_self i)
  case looping =>
    intro hmain
    obtain ⟨result, hresult⟩ := h.looping hmain _ hi
    cases hresult

lemma ends {i : Scalar} {saves : Bool} (h : Sound d c₀ c) (hi : ⟨i, .running⟩ ∈ c.tasks)
    (hends : c.Ends d c' i saves) : Sound d c₀ c' := by
  obtain ⟨status, result, hupdates, hended, -, htasks⟩ := hends.ends
  have hstatus := h.running i hi
  have hself := hupdates.self (by rw [hstatus]; rfl)
  have hsame := hupdates.ended_same hstatus rfl
  have hbegun : i ∈ c.started := h.begun _ hi (by simp)
  have tasks : ∀ task ∈ c'.tasks, (task.stepId ≠ i ∧ task ∈ c.tasks) ∨
      task = ⟨i, if saves then .ended result else .raised⟩ := by
    intro task htask
    rw [htasks] at htask
    rcases mem_setPhase.mp htask with hold | ⟨rfl, -⟩
    · exact .inl hold
    · exact .inr rfl
  constructor
  case once => rw [hends.started]; exact h.once
  case fromPending => rw [hends.started]; exact h.fromPending
  case notPending =>
    rw [hends.started]
    intro j hj
    by_cases hji : j = i
    · subst hji
      rw [hself]
      cases status <;> simp_all [StepStatus.ended]
    · rw [hupdates.other hji]
      exact h.notPending j hj
  case untouched =>
    rw [hends.started]
    intro j hj
    rw [hupdates.other (by rintro rfl; exact hj hbegun)]
    exact h.untouched j hj
  case alone =>
    rw [htasks, setPhase_ids]
    exact h.alone
  case waiting =>
    intro j hj
    rcases tasks _ hj with ⟨hne, hold⟩ | hnew
    · have hmay := h.waiting j hold
      exact hmay.mono ((hupdates.other hne).trans hmay.1) hsame
    · have := congrArg Task.phase hnew
      cases saves <;> simp at this
  case running =>
    intro j hj
    rcases tasks _ hj with ⟨hne, hold⟩ | hnew
    · rw [hupdates.other hne]
      exact h.running j hold
    · have := congrArg Task.phase hnew
      cases saves <;> simp at this
  case ended =>
    intro j result' hj
    rcases tasks _ hj with ⟨hne, hold⟩ | hnew
    · rw [hupdates.other hne]
      exact h.ended j result' hold
    · obtain rfl := congrArg Task.stepId hnew
      exact ⟨status, hself, hended⟩
  case begun =>
    rw [hends.started]
    intro task htask hwaiting
    rcases tasks task htask with ⟨-, hold⟩ | rfl
    · exact h.begun task hold hwaiting
    · exact hbegun
  case looping =>
    intro hmain
    rw [hends.main] at hmain
    obtain ⟨result, hresult⟩ := h.looping hmain _ hi
    cases hresult

lemma crashes {i : Scalar} (h : Sound d c₀ c) (hi : ⟨i, .running⟩ ∈ c.tasks) :
    Sound d c₀ { c with tasks := setPhase c.tasks i .raised } := by
  have tasks : ∀ task ∈ setPhase c.tasks i .raised,
      (task.stepId ≠ i ∧ task ∈ c.tasks) ∨ task = ⟨i, .raised⟩ := by
    intro task htask
    rcases mem_setPhase.mp htask with hold | ⟨rfl, -⟩
    · exact .inl hold
    · exact .inr rfl
  have old : ∀ j phase, phase ≠ .raised → ⟨j, phase⟩ ∈ setPhase c.tasks i .raised →
      ⟨j, phase⟩ ∈ c.tasks := by
    intro j phase hphase hj
    rcases tasks _ hj with ⟨-, hold⟩ | hnew
    · exact hold
    · exact absurd (congrArg Task.phase hnew) hphase
  refine ⟨h.once, h.fromPending, h.notPending, h.untouched, ?_, ?_, ?_, ?_, ?_, ?_⟩
  · change ((setPhase c.tasks i .raised).map Task.stepId).Nodup
    rw [setPhase_ids]
    exact h.alone
  · exact fun j hj => h.waiting j (old j .waiting (by simp) hj)
  · exact fun j hj => h.running j (old j .running (by simp) hj)
  · exact fun j result hj => h.ended j result (old j (.ended result) (by simp) hj)
  · intro task htask hwaiting
    rcases tasks task htask with ⟨-, hold⟩ | rfl
    · exact h.begun task hold hwaiting
    · exact h.begun ⟨i, .running⟩ hi (by simp)
  · intro hmain
    obtain ⟨result, hresult⟩ := h.looping hmain _ hi
    cases hresult

lemma effect (h : Sound d c₀ c) (heffect : Config.Effect env d c c') : Sound d c₀ c' := by
  cases heffect with
  | sleeps hlooping _ => exact h.congr (fun _ => rfl) rfl rfl fun _ => h.looping hlooping
  | batches _ hverdict => exact h.batches hverdict _
  | stops hlooping hstops =>
      exact h.congr hstops.same hstops.tasks hstops.started fun _ => h.looping hlooping
  | starts hwaiting => exact h.starts hwaiting
  | ends hrunning hends => exact h.ends hrunning hends
  | crashes hrunning => exact h.crashes hrunning
  | gathers hgathering hgathers =>
      refine h.congr hgathers.same hgathers.tasks hgathers.started fun hmain => ?_
      rcases hgathers.main with (⟨results, hstopped⟩ | ⟨error, hstopped⟩) | ⟨-, hgathered, -⟩
      · rw [hmain] at hstopped
        cases hstopped
      · rw [hmain] at hstopped
        cases hstopped
      · exact hgathered

/-- A run begins without coroutines. -/
lemma initial (hmain : c.tasks = []) (hstarted : c.started = []) : Sound d c c := by
  constructor <;> simp [hmain, hstarted, Config.gathered]

lemma reached (h : Sound d c₀ c) (hreaches : c.Reaches env d c') : Sound d c₀ c' := by
  obtain ⟨events, hplay⟩ := hreaches
  exact Config.play_induction hplay h fun _ _ hsound heffect => hsound.effect heffect

end Sound

/-! ## The beginning of a run -/

section Begin

variable {s saved : RunState ω} {c c₀ : Config ω} {disk : Option (RunState ω)}
  {workflowId : String} {decode : ω → ω} {resume unlinked : Bool}

lemma statusOf_fresh (k : Scalar) :
    (RunState.fresh d workflowId : RunState ω).statusOf k =
      if k ∈ d.ids then some .pending else none := by
  unfold RunState.statusOf
  split_ifs with hk
  · obtain ⟨step, hstep, rfl⟩ := List.mem_map.mp hk
    have hrow : (RunState.fresh d workflowId : RunState ω).steps.lookup step.id =
        some { stepId := step.id } :=
      KeyedTable.lookup_eq_some.mpr ⟨List.mem_map_of_mem hstep, rfl⟩
    rw [hrow]
    rfl
  · have hnone : (RunState.fresh d workflowId : RunState ω).steps.lookup k = none := by
      rw [KeyedTable.lookup_eq_none]
      simpa [RunState.fresh, Definition.ids] using hk
    rw [hnone]
    rfl

lemma statusOf_reload (h : saved.reload decode = some s) (k : Scalar) :
    s.statusOf k = saved.statusOf k := by
  unfold RunState.reload at h
  split_ifs at h
  cases h
  simp [RunState.statusOf, KeyedTable.lookup_update, Function.comp_def]

lemma statusOf_resumed (k : Scalar) :
    s.resumed.statusOf k =
      (s.statusOf k).map fun status => if status = .failed then .pending else status := by
  simp only [RunState.statusOf, RunState.resumed, KeyedTable.lookup_update, Option.map_map]
  congr 1
  funext row
  by_cases hfailed : row.status = .failed <;> simp [hfailed]

/-- A run begins with every step pending, or with the statuses of a failed checkpoint of which the
failed ones are pending again. -/
structure Begins (d : Definition) (disk : Option (RunState ω)) (resume : Bool) (c : Config ω) :
    Prop where
  main : c.main = .looping
  tasks : c.tasks = []
  started : c.started = []
  rounds : c.rounds = 0
  statuses : (∀ k, c.state.statusOf k = if k ∈ d.ids then some .pending else none) ∨
    ∃ saved, disk = some saved ∧ resume = true ∧ saved.status = .failed ∧
      ∀ k, c.state.statusOf k =
        (saved.statusOf k).map fun status => if status = .failed then .pending else status
  resumes : ∀ saved, disk = some saved → resume = true → saved.status = .failed →
    ∀ k, c.state.statusOf k =
      (saved.statusOf k).map fun status => if status = .failed then .pending else status

lemma beginRun_begins (h : beginRun d workflowId decode resume unlinked disk = .ok c) :
    Begins d disk resume c := by
  unfold beginRun at h
  split at h
  · cases h
    exact ⟨rfl, rfl, rfl, rfl, .inl statusOf_fresh, by simp⟩
  next saved =>
  split at h
  · cases h
  next s hreload =>
  have hstatus : s.status = saved.status := by
    unfold RunState.reload at hreload
    split_ifs at hreload
    cases hreload
    rfl
  split at h
  · cases h
  split at h
  · next hresume =>
    cases h
    have hstatuses : ∀ k, s.resumed.statusOf k =
        (saved.statusOf k).map fun status => if status = .failed then .pending else status := by
      intro k
      rw [statusOf_resumed, statusOf_reload hreload]
    refine ⟨rfl, rfl, rfl, rfl, .inr ⟨saved, rfl, hresume.1, ?_, hstatuses⟩, ?_⟩
    · rw [← hstatus]
      exact hresume.2
    · intro other hother _ _
      cases hother
      exact hstatuses
  · next hfresh =>
    cases h
    refine ⟨rfl, rfl, rfl, rfl, .inl statusOf_fresh, ?_⟩
    intro other hother hresume hfailed
    cases hother
    exact absurd ⟨hresume, hstatus.trans hfailed⟩ hfresh

/-- A run begins with the old checkpoint or with none. -/
lemma saved_of_begin (h : beginRun d workflowId decode resume unlinked disk = .ok c) :
    c.saved = none ∨ c.saved = disk := by
  unfold beginRun at h
  split at h
  · cases h
    exact .inl rfl
  split at h
  · cases h
  split at h
  · cases h
  split at h
  · cases h
    exact .inr rfl
  · cases h
    cases unlinked
    · exact .inr rfl
    · exact .inl rfl

end Begin

/-- What a configuration of a run tells about the steps that were started, and about those that
start next. -/
structure StartsSafely (env : Env ω) (d : Definition) (disk : Option (RunState ω)) (resume : Bool)
    (c : Config ω) : Prop where
  once : c.started.Nodup
  notRepeated : ∀ saved, disk = some saved → resume = true → saved.status = .failed →
    ∀ i, saved.statusOf i = some .success → i ∉ c.started
  dependencies : ∀ i saves c', c.step env d (.start i saves) = some c' →
    DependenciesEnded d c.state i

/-- In a run, fresh or resumed, every step is started at most once, none that was successful in the
checkpoint, and none before its dependencies have ended. -/
theorem starts_safely {disk : Option (RunState ω)} {workflowId : String} {decode : ω → ω}
    {resume unlinked : Bool} {c₀ c : Config ω}
    (began : beginRun d workflowId decode resume unlinked disk = .ok c₀)
    (reached : c₀.Reaches env d c) : StartsSafely env d disk resume c := by
  have hbegins := beginRun_begins began
  have hsound := (Sound.initial hbegins.tasks hbegins.started).reached (d := d) reached
  refine ⟨hsound.once, ?_, ?_⟩
  · intro saved hdisk hresume hfailed i hsuccess hstarted
    have hpending := hsound.fromPending i hstarted
    rw [hbegins.resumes saved hdisk hresume hfailed i, hsuccess] at hpending
    cases hpending
  · intro i saves c' hstep
    simp only [Config.step] at hstep
    split_ifs at hstep with hwaiting
    exact (hsound.waiting i hwaiting).2

theorem starts_safely_chain :
    ∃ c₀ c, beginRun chainWorkflow "chain" id false true none = .ok c₀ ∧
      Config.play plainEnv chainWorkflow c₀ chainEvents = some c ∧
      c.started = [.text "a", .text "b", .text "c"] ∧
      StartsSafely plainEnv chainWorkflow none false c :=
  ⟨_, _, rfl, rfl, rfl,
    @starts_safely ℕ plainEnv chainWorkflow none "chain" id false true _ _ rfl ⟨chainEvents, rfl⟩⟩

end AgentSystem.Workflow
