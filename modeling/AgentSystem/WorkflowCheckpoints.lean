import AgentSystem.WorkflowGraph
import AgentSystem.WorkflowSuccess
import AgentSystem.WorkflowTermination

/-!
# The checkpoint at the end of a run

A run that returns has saved the status `success`. A run that raises has saved `failed` first if
the exception comes from one of the places that `execute` expects: a cycle, a fatal step, a deadlock.
The others are steps that `next_step` or `fallback_step` names and the definition does not have,
dependencies that cannot be read, exceptions of a step outside its `try` block, and failing saves.
-/
namespace AgentSystem.Workflow

variable {ω : Type} {env : Env ω} {d : Definition}

/-- What the checkpoint says once the run has ended. -/
structure Terminal (c : Config ω) : Prop where
  returned : ∀ results, c.main = .returned results → c.saved.map RunState.status = some .success
  raised : ∀ error, c.main = .raised error → c.saved.map RunState.status = some .failed

/-! ## What a pass of the main loop needs -/

/-- Dependencies that can be iterated over and looked up one by one. -/
def Deps.Readable (deps : Deps) : Prop := ∃ items, deps = .iterable items ∧ none ∉ items

/-- A `depends_on` behind a `dependencies: null`, which the validator does not see, can be read. -/
def Definition.ShadowedReadable (d : Definition) : Prop :=
  ∀ step ∈ d.steps, ∀ node, step.shadowed = some node → node.deps.Readable

/-- Both delimiters are `in` the value. -/
def Node.templated : Node → Bool
  | .scalar (.text text) => occursIn "\x7b\x7b" text && occursIn "\x7d\x7d" text
  | .scalar _ => false
  | .sequence items => decide (some (.text "\x7b\x7b") ∈ items ∧ some (.text "\x7d\x7d") ∈ items)
  | .mapping keys => decide (.text "\x7b\x7b" ∈ keys ∧ .text "\x7d\x7d" ∈ keys)

/-- `next_step` leads nowhere or to a step of the definition: a template renders to nothing or to
the id of a step, and another value that counts as true is the id of a step. -/
def Leads (env : Env ω) (d : Definition) (context : Context ω) (step : StepDef) : Prop :=
  ∀ node, step.nextStep.filter Node.truthy = some node →
    if node.templated then
      ∀ template target, node = .scalar (.text template) →
        env.render template context = some target → target = "" ∨ .text target ∈ d.ids
    else ∃ target, .text target ∈ d.ids ∧ node = .scalar (.text target)

/-- The steps that the ended steps name are steps of the definition. -/
structure Passes (env : Env ω) (d : Definition) (s : RunState ω) (context : Context ω) : Prop where
  next : ∀ step ∈ d.steps, s.statusOf step.id = some .success ∨ s.statusOf step.id = some .skipped →
    Leads env d context step
  fallback : ∀ step ∈ d.steps, s.statusOf step.id = some .failed → step.policy = fallbackPolicy →
    ∀ node, step.fallback = some node → ∃ target ∈ d.ids, node = .scalar target

/-- Every save succeeds, no step raises outside its `try` block, and the main loop finds the steps
that it looks up. -/
def Event.Goes (env : Env ω) (d : Definition) (c : Config ω) : Event ω → Prop
  | .evaluate saves => saves = true ∧ Passes env d c.state c.context
  | .start _ saves => saves = true
  | .finish _ _ saves => saves = true
  | .crash _ => False
  | .gather saves => saves = true

/-- An event of this kind leads from one configuration to the other. -/
def Goes (env : Env ω) (d : Definition) (c c' : Config ω) : Prop :=
  ∃ event : Event ω, event.Goes env d c ∧ c.step env d event = some c'

/-- The steps of a state are exactly those of the definition. -/
def Whole (d : Definition) (s : RunState ω) : Prop := ∀ k, (s.statusOf k).isSome = true ↔ k ∈ d.ids

section Whole

variable {c c' : Config ω} {disk : Option (RunState ω)} {workflowId : String} {decode : ω → ω}
  {resume unlinked : Bool}

lemma Whole.effect (h : Whole d c.state) (heffect : Config.Effect env d c c') :
    Whole d c'.state := by
  intro k
  rw [heffect.isSome_statusOf k]
  exact h k

lemma whole_of_begin (hdisk : ∀ saved, disk = some saved → Whole d saved)
    (h : beginRun d workflowId decode resume unlinked disk = .ok c) : Whole d c.state := by
  intro k
  rcases (beginRun_begins h).statuses with hfresh | ⟨saved, hsaved, -, -, hresumed⟩
  · rw [hfresh k]
    split_ifs with hk <;> simp [hk]
  · rw [hresumed k, Option.isSome_map]
    exact hdisk saved hsaved k

/-- A checkpoint that runs of a definition leave behind has exactly its steps. -/
lemma Leaves.whole (h : Leaves d disk) : ∀ saved, disk = some saved → Whole d saved := by
  induction h with
  | nothing =>
      intro saved hsaved
      cases hsaved
  | @run env _ _ _ _ disk c c' _ began reached ih =>
      obtain ⟨events, hplay⟩ := reached
      have hboth : Whole d c'.state ∧ ∀ saved, c'.saved = some saved → Whole d saved := by
        refine Config.play_induction (P := fun c : Config ω => Whole d c.state ∧
          ∀ saved, c.saved = some saved → Whole d saved) hplay ⟨whole_of_begin ih began, ?_⟩ ?_
        · intro saved hsaved
          rcases saved_of_begin began with hnone | hdisk
          · rw [hnone] at hsaved
            cases hsaved
          · exact ih saved (hdisk.symm.trans hsaved)
        · rintro before after ⟨hstate, hsaved⟩ heffect
          refine ⟨hstate.effect heffect, fun saved hfound => ?_⟩
          rcases heffect.saved_cases with hold | hnew
          · exact hsaved saved (hold.symm.trans hfound)
          · rw [hnew, Option.some.injEq] at hfound
            rw [← hfound]
            exact hstate.effect heffect
      exact hboth.2

end Whole

/-! ## A pass halts only after a save -/

section Evaluate

variable {s : RunState ω} {context : Context ω} {active : List Scalar} {stepId : Scalar}

/-- The dependencies that `execute` resolves can be read if those that the validator does not see
can be. -/
lemma stepDependencies_readable (readable : d.ShadowedReadable) :
    ∀ entry ∈ d.stepDependencies, entry.2.Readable := by
  intro entry hentry
  rw [Definition.stepDependencies, resolveDeps_eq] at hentry
  obtain ⟨pair, hpair, rfl⟩ := List.mem_map.mp hentry
  have hstep : pair.2 ∈ d.steps := by
    rw [← withPrevious_steps none d.steps]
    exact List.mem_map_of_mem hpair
  obtain ⟨-, hvalidated⟩ := d.readings hpair
  change (executedDeps pair.1 pair.2).Readable
  rw [executedDeps]
  rcases explicitDeps_cases pair.2 with ⟨hnode, hexplicit, -⟩ | ⟨-, hexplicit⟩
  · obtain ⟨items, hitems, hsame⟩ := sameReading_node hnode hvalidated
    rw [hexplicit]
    refine ⟨items, hitems, fun hnone => ?_⟩
    obtain ⟨dep, -, hdep⟩ := List.mem_map.mp ((hsame none).mp hnone)
    cases hdep
  · rw [hexplicit]
    cases hshadowed : pair.2.shadowed with
    | some node => exact readable pair.2 hstep node hshadowed
    | none => exact ⟨_, rfl, by simp⟩

lemma exists_step (h : stepId ∈ d.ids) :
    ∃ step ∈ d.steps, step.id = stepId ∧ d.step stepId = some step := by
  obtain ⟨step, hstep, hid⟩ := List.mem_map.mp h
  have hsome : (d.step stepId).isSome := List.find?_isSome.mpr ⟨step, hstep, by simpa using hid⟩
  obtain ⟨found, hfound⟩ := Option.isSome_iff_exists.mp hsome
  exact ⟨found, List.mem_of_find?_eq_some hfound, by simpa using List.find?_some hfound, hfound⟩

/-- Where `next_step` leads nowhere or to a step, `_get_next_step_id` returns. -/
lemma Leads.next {step : StepDef} (h : Leads env d context step) :
    ∃ next, nextStepId env context step = .ok next ∧
      ∀ target, next.filter Scalar.truthy = some target → target ∈ d.ids := by
  unfold nextStepId
  cases hnode : step.nextStep.filter Node.truthy with
  | none => exact ⟨none, rfl, nofun⟩
  | some node =>
      have hleads := h node hnode
      cases node with
      | scalar value =>
          cases value with
          | text template =>
              by_cases htemplate : (Node.scalar (.text template)).templated = true
              · rw [if_pos htemplate] at hleads
                refine ⟨_, if_pos htemplate, fun target htarget => ?_⟩
                obtain ⟨hrendered, htruthy⟩ := Option.filter_eq_some_iff.mp htarget
                obtain ⟨text, htext, rfl⟩ := Option.map_eq_some_iff.mp hrendered
                rcases hleads template text rfl htext with rfl | hknown
                · simp [Scalar.truthy] at htruthy
                · exact hknown
              · rw [if_neg htemplate] at hleads
                obtain ⟨target, hknown, htarget⟩ := hleads
                cases htarget
                refine ⟨_, if_neg htemplate, fun found hfound => ?_⟩
                rwa [← Option.some.inj (Option.filter_eq_some_iff.mp hfound).1]
          | null => simp [Node.templated] at hleads
          | number value => simp [Node.templated] at hleads
          | other literal => simp [Node.templated] at hleads
      | sequence items =>
          simp only [Node.templated, decide_eq_true_eq] at hleads
          split_ifs at hleads with hboth
          · exact ⟨none, if_pos hboth, nofun⟩
          · obtain ⟨target, -, htarget⟩ := hleads
            cases htarget
      | mapping keys =>
          simp only [Node.templated, decide_eq_true_eq] at hleads
          split_ifs at hleads with hboth
          · exact ⟨none, if_pos hboth, nofun⟩
          · obtain ⟨target, -, htarget⟩ := hleads
            cases htarget

/-- A result in steps of the definition, or the exception of a cycle. -/
def KnownOrCycle (d : Definition) : Except WorkflowError (List Scalar) → Prop
  | .ok active => active ⊆ d.ids
  | .error error => ∃ stepId, error = .cycle stepId

lemma foldlM_knownOrCycle {α : Type} {f : List Scalar → α → Except WorkflowError (List Scalar)}
    {items : List α} (hactive : active ⊆ d.ids)
    (h : ∀ active, active ⊆ d.ids → ∀ item ∈ items, KnownOrCycle d (f active item)) :
    KnownOrCycle d (items.foldlM f active) := by
  induction items generalizing active with
  | nil => exact hactive
  | cons item items ih =>
      have hfirst := h active hactive item List.mem_cons_self
      rw [List.foldlM_cons]
      cases hf : f active item with
      | error error =>
          rw [hf] at hfirst
          exact hfirst
      | ok next =>
          rw [hf] at hfirst
          exact ih hfirst fun active hactive item hitem =>
            h active hactive item (List.mem_cons_of_mem _ hitem)

lemma addActive_subset (hactive : active ⊆ d.ids) (hid : stepId ∈ d.ids) :
    addActive active stepId ⊆ d.ids := by
  intro i hi
  rcases mem_addActive.mp hi with hold | rfl
  · exact hactive hold
  · exact hid

lemma addNext_subset {next : Option Scalar} (hactive : active ⊆ d.ids)
    (hnext : ∀ target, next.filter Scalar.truthy = some target → target ∈ d.ids) :
    addNext active next ⊆ d.ids := by
  unfold addNext
  split
  · exact hactive
  · next target htarget => exact addActive_subset hactive (hnext target htarget)

lemma addDependent_knownOrCycle (readable : d.ShadowedReadable) (hactive : active ⊆ d.ids)
    {entry : Scalar × Deps} (hentry : entry ∈ d.stepDependencies) :
    KnownOrCycle d (addDependent d stepId active entry) := by
  unfold addDependent
  split
  · obtain ⟨items, hitems, -⟩ := stepDependencies_readable readable entry hentry
    rw [hitems]
    change (if some stepId ∈ items then addActive active entry.1 else active) ⊆ d.ids
    split_ifs
    · refine addActive_subset hactive ?_
      rw [← d.stepDependencies_keys]
      exact List.mem_map_of_mem hentry
    · exact hactive
  · exact hactive

lemma activateFrom_knownOrCycle (readable : d.ShadowedReadable) (passes : Passes env d s context)
    (hskip : ∀ i, s.statusOf i = some .failed → d.policyOf i ≠ skipPolicy)
    (hactive : active ⊆ d.ids) (hid : stepId ∈ d.ids) :
    KnownOrCycle d (activateFrom env d s context active stepId) := by
  obtain ⟨step, hstep, rfl, hfound⟩ := exists_step hid
  have goesOn : s.statusOf step.id = some .success ∨ s.statusOf step.id = some .skipped →
      KnownOrCycle d (do
        let next ← nextStepId env context step
        if next = some step.id then .error (.cycle step.id)
        else d.stepDependencies.foldlM (addDependent d step.id) (addNext active next)) := by
    intro hended
    obtain ⟨next, hnext, hknown⟩ := (passes.next step hstep hended).next
    rw [hnext]
    change KnownOrCycle d (if next = some step.id then _ else _)
    split_ifs
    · exact ⟨_, rfl⟩
    · exact foldlM_knownOrCycle (addNext_subset hactive hknown) fun active hactive entry hentry =>
        addDependent_knownOrCycle readable hactive hentry
  unfold activateFrom
  cases hstatus : s.statusOf step.id with
  | none => exact hactive
  | some status =>
      simp only [hfound]
      cases status with
      | pending => exact hactive
      | running => exact hactive
      | success => exact goesOn (.inl hstatus)
      | skipped => exact goesOn (.inr hstatus)
      | failed =>
          have hpolicy := hskip _ hstatus
          rw [policyOf_eq hfound] at hpolicy
          simp only [if_neg hpolicy]
          split_ifs with hfalls
          · cases hfallback : step.fallback with
            | none => exact hactive
            | some node =>
                obtain ⟨target, htarget, rfl⟩ :=
                  passes.fallback step hstep hstatus hfalls node hfallback
                exact addActive_subset hactive htarget
          · exact hactive

lemma initialActive_subset (whole : Whole d s) : initialActive d s ⊆ d.ids := by
  intro i hi
  rcases mem_foldl_addActive.mp hi with hnil | hmem
  · cases hnil
  rcases List.mem_append.mp hmem with hmem | hended
  · rcases List.mem_append.mp hmem with hhead | hroot
    · exact List.mem_of_mem_head? (Option.mem_toList.mp hhead)
    · obtain ⟨entry, hentry, rfl⟩ := List.mem_map.mp hroot
      rw [← d.stepDependencies_keys]
      exact List.mem_map_of_mem (List.mem_of_mem_filter hentry)
  · obtain ⟨row, hrow, rfl⟩ := List.mem_map.mp hended
    refine (whole _).mp ?_
    have hlookup : s.steps.lookup row.stepId = some row :=
      KeyedTable.lookup_eq_some.mpr ⟨List.mem_of_mem_filter hrow, rfl⟩
    simp [RunState.statusOf, hlookup]

lemma propagate_knownOrCycle (readable : d.ShadowedReadable) (passes : Passes env d s context)
    (hskip : ∀ i, s.statusOf i = some .failed → d.policyOf i ≠ skipPolicy) (count : ℕ)
    (hactive : active ⊆ d.ids) : KnownOrCycle d (propagate env d s context count active) := by
  induction count generalizing active with
  | zero => exact hactive
  | succ count ih =>
      have hpass : KnownOrCycle d (activatePass env d s context active) := by
        refine foldlM_knownOrCycle hactive fun found hfound i hi => ?_
        exact activateFrom_knownOrCycle readable passes hskip hfound
          (hactive ((env.iterate_perm active).mem_iff.mp hi))
      unfold propagate
      cases hnext : activatePass env d s context active with
      | error error =>
          rw [hnext] at hpass
          exact hpass
      | ok next =>
          rw [hnext] at hpass
          change KnownOrCycle d (if next.length = active.length then _ else _)
          split_ifs
          · exact hactive
          · exact ih hpass

/-- Readable dependencies let the ready steps be collected. -/
lemma readySteps_ok (whole : Whole d s) (readable : d.ShadowedReadable) (ids ready : List Scalar) :
    ∃ found, ids.foldlM (addReady d s) ready = .ok found := by
  have hmet : ∀ (stepId : Scalar) (items : List (Option Scalar)), none ∉ items →
      ∃ met, dependenciesMet d s stepId items = .ok met := by
    intro stepId items hnone
    induction items with
    | nil => exact ⟨true, rfl⟩
    | cons item items ih =>
        rw [List.mem_cons, not_or] at hnone
        cases item with
        | none => exact absurd rfl hnone.1
        | some dependency =>
            unfold dependenciesMet
            split_ifs
            · exact ih hnone.2
            · exact ⟨false, rfl⟩
  have hadd : ∀ ready stepId, ∃ next, addReady d s ready stepId = .ok next := by
    intro ready stepId
    unfold addReady
    split_ifs with hpending
    · have hid : stepId ∈ d.ids := (whole stepId).mp (by rw [hpending]; rfl)
      rw [← d.stepDependencies_keys] at hid
      obtain ⟨entry, hentry, rfl⟩ := List.mem_map.mp hid
      have hunique : (d.stepDependencies.map Prod.fst).Nodup :=
        d.stepDependencies_keys ▸ d.ids_nodup
      obtain ⟨items, hitems, hnone⟩ := stepDependencies_readable readable entry hentry
      obtain ⟨met, hmet⟩ := hmet entry.1 items hnone
      have hdeps : d.depsOf entry.1 = some (.iterable items) := by
        rw [Definition.depsOf, (find?_key_eq_some hunique).mpr ⟨hentry, rfl⟩, Option.map_some, hitems]
      rw [hdeps]
      exact ⟨_, by simp only [hmet]; rfl⟩
    · exact ⟨ready, rfl⟩
  induction ids generalizing ready with
  | nil => exact ⟨ready, rfl⟩
  | cons i ids ih =>
      obtain ⟨next, hnext⟩ := hadd ready i
      obtain ⟨found, hfound⟩ := ih next
      exact ⟨found, by rw [List.foldlM_cons, hnext]; exact hfound⟩

/-- A pass that finds the steps that it looks up raises only after a save. -/
lemma evaluate_saves (whole : Whole d s) (readable : d.ShadowedReadable)
    (passes : Passes env d s context)
    (hskip : ∀ i, s.statusOf i = some .failed → d.policyOf i ≠ skipPolicy)
    (error : WorkflowError) : evaluate env d s context ≠ .halt error false := by
  have hactive := propagate_knownOrCycle readable passes hskip (maxPasses d)
    (initialActive_subset whole)
  change KnownOrCycle d (activeSteps env d s context) at hactive
  unfold evaluate
  cases hsteps : activeSteps env d s context with
  | error found =>
      rw [hsteps] at hactive
      obtain ⟨stepId, rfl⟩ := hactive
      simp
  | ok active =>
      rw [hsteps] at hactive
      have hfound : (env.iterate active).find? (fun i => (s.statusOf i).isNone) = none := by
        refine List.find?_eq_none.mpr fun i hi => ?_
        have hid := hactive ((env.iterate_perm active).mem_iff.mp hi)
        simpa [Option.isNone_iff_eq_none, ← Option.isSome_iff_ne_none] using (whole i).mpr hid
      obtain ⟨ready, hready⟩ := readySteps_ok whole readable (env.iterate active) []
      change readySteps env d s active = .ok ready at hready
      simp only [evaluateActive, hfound, hready]
      cases ready with
      | nil => split_ifs <;> simp
      | cons first rest => split_ifs <;> simp

end Evaluate

/-! ## Runs -/

/-- No coroutine has raised, and a run that has ended has its last checkpoint: no coroutine is left
that could save again. -/
structure Settled (c : Config ω) : Prop where
  quiet : ∀ task ∈ c.tasks, task.phase ≠ .raised
  done : c.stopped → c.gathered
  terminal : Terminal c

section Settled

variable {c c' : Config ω} {stepId : Scalar}

lemma Settled.of_main (hquiet : ∀ task ∈ c.tasks, task.phase ≠ .raised) (hmain : ¬ c.stopped) :
    Settled c :=
  ⟨hquiet, fun hstopped => absurd hstopped hmain, fun results h => absurd (.inl ⟨results, h⟩) hmain,
    fun error h => absurd (.inr ⟨error, h⟩) hmain⟩

lemma settled_succeed (hquiet : ∀ task ∈ c.tasks, task.phase ≠ .raised) (hgathered : c.gathered) :
    Settled (c.succeed true) :=
  ⟨hquiet, fun _ => hgathered, fun _ _ => rfl, nofun⟩

lemma settled_fail (hquiet : ∀ task ∈ c.tasks, task.phase ≠ .raised) (hgathered : c.gathered)
    (error : WorkflowError) : Settled (c.fail error true) :=
  ⟨hquiet, fun _ => hgathered, nofun, fun _ _ => rfl⟩

lemma Settled.evaluateLoop (h : Settled c) (hlooping : c.main = .looping) (hgathered : c.gathered)
    (hsaves : ∀ error, evaluate env d c.state c.context ≠ .halt error false) :
    Settled (c.evaluateLoop env d true) := by
  unfold Config.evaluateLoop
  simp only
  cases hverdict : evaluate env d c.state c.context with
  | finish => exact settled_succeed h.quiet hgathered
  | sleep =>
      refine .of_main h.quiet ?_
      simp [Config.stopped, hlooping]
  | batch active ready =>
      refine .of_main (fun task htask => ?_) (by simp [Config.stopped, Config.startBatch])
      obtain ⟨i, -, rfl⟩ := List.mem_map.mp htask
      simp
  | halt error saved =>
      cases saved with
      | true => exact settled_fail (c := { c with rounds := c.rounds + 1 }) h.quiet hgathered error
      | false => exact absurd hverdict (hsaves error)

/-- While a coroutine is left the run has not ended. -/
lemma Settled.not_stopped {phase : TaskPhase} (h : Settled c) (htask : ⟨stepId, phase⟩ ∈ c.tasks)
    (hphase : ∀ result, phase ≠ .ended result) : ¬ c.stopped := by
  intro hstopped
  obtain ⟨result, hresult⟩ := h.done hstopped _ htask
  exact hphase result hresult

lemma quiet_setPhase {phase : TaskPhase} (h : ∀ task ∈ c.tasks, task.phase ≠ .raised)
    (hphase : phase ≠ .raised) : ∀ task ∈ setPhase c.tasks stepId phase, task.phase ≠ .raised := by
  intro task htask
  rcases mem_setPhase.mp htask with ⟨-, hold⟩ | ⟨rfl, -⟩
  · exact h task hold
  · exact hphase

lemma Settled.startStep (h : Settled c) (hwaiting : ⟨stepId, .waiting⟩ ∈ c.tasks) :
    Settled (c.startStep stepId true) :=
  .of_main (quiet_setPhase h.quiet nofun) (h.not_stopped hwaiting nofun)

lemma Settled.finishStep {outcome : Except String ω} (h : Settled c)
    (hrunning : ⟨stepId, .running⟩ ∈ c.tasks) : Settled (c.finishStep d stepId outcome true) := by
  have hends := c.finishStep_ends (d := d) stepId outcome true
  obtain ⟨status, result, -, -, -, htasks⟩ := hends.ends
  refine .of_main ?_ ?_
  · rw [htasks]
    exact quiet_setPhase h.quiet nofun
  · unfold Config.stopped
    rw [hends.main]
    exact h.not_stopped hrunning nofun

lemma Settled.afterGather {active : List Scalar} (h : Settled c) (hgathered : c.gathered) :
    Settled (c.afterGather env d active true) := by
  unfold Config.afterGather
  split_ifs
  · exact settled_fail h.quiet hgathered _
  · exact .of_main h.quiet (by simp [Config.stopped])

end Settled

/-- What is kept by every event that goes well. -/
structure Secured (d : Definition) (c₀ c : Config ω) : Prop where
  sound : Sound d c₀ c
  failures : Failures d c
  whole : Whole d c.state
  settled : Settled c

lemma Secured.goes {c₀ c c' : Config ω} (h : Secured d c₀ c) (readable : d.ShadowedReadable)
    (hgoes : Goes env d c c') : Secured d c₀ c' := by
  obtain ⟨event, hevent, hstep⟩ := hgoes
  have heffect := Config.step_effect hstep
  refine ⟨h.sound.effect heffect, h.failures.effect h.sound heffect, h.whole.effect heffect, ?_⟩
  cases event with
  | crash stepId => exact hevent.elim
  | evaluate saves =>
      obtain ⟨rfl, hpasses⟩ := hevent
      simp only [Config.step] at hstep
      split at hstep
      · next hlooping =>
        cases hstep
        exact h.settled.evaluateLoop hlooping (h.sound.looping hlooping)
          (evaluate_saves h.whole readable hpasses h.failures.notSkipped)
      · cases hstep
  | start stepId saves =>
      obtain rfl : saves = true := hevent
      simp only [Config.step] at hstep
      split_ifs at hstep with hwaiting
      cases hstep
      exact h.settled.startStep hwaiting
  | finish stepId tool saves =>
      obtain rfl : saves = true := hevent
      simp only [Config.step] at hstep
      split_ifs at hstep with hrunning
      cases hstep
      exact h.settled.finishStep hrunning
  | gather saves =>
      obtain rfl : saves = true := hevent
      simp only [Config.step] at hstep
      split at hstep
      · split at hstep
        · next task hraised =>
          refine absurd ?_ (h.settled.quiet task (List.mem_of_find?_eq_some hraised))
          simpa using List.find?_some hraised
        · split_ifs at hstep with hall
          cases hstep
          refine h.settled.afterGather ?_
          simpa [Config.gathered] using hall
      · cases hstep

/-- A run whose saves succeed, whose steps raise only inside their `try` blocks and whose passes find
the steps that they look up, ends with a checkpoint that says how it has ended. -/
theorem ends_saved {disk : Option (RunState ω)} {workflowId : String} {decode : ω → ω}
    {resume unlinked : Bool} {c₀ : Config ω} (readable : d.ShadowedReadable) (left : Leaves d disk)
    (began : beginRun d workflowId decode resume unlinked disk = .ok c₀)
    (idle : ∀ saved, disk = some saved → resume = true → saved.status = .failed →
      ∀ i, saved.statusOf i ≠ some .running) :
    LoopEnds env d c₀ ∧ ∀ c, Relation.ReflTransGen (Goes env d) c₀ c → Terminal c := by
  refine ⟨(loop_ends left began).2 idle, fun c hrun => ?_⟩
  have hbegins := beginRun_begins began
  have hfirst := hbegins.untilReturned (d := d)
  have hsecured : Secured d c₀ c := by
    induction hrun with
    | refl =>
        refine ⟨hfirst.sound, hfirst.failures, whole_of_begin left.whole began, .of_main ?_ ?_⟩
        · rw [hbegins.tasks]
          exact nofun
        · simp [Config.stopped, hbegins.main]
    | tail _ hgoes ih => exact ih.goes readable hgoes
  exact hsecured.settled.terminal

theorem ends_saved_chain :
    ∃ c₀, beginRun chainWorkflow "chain" id false true none = .ok c₀ ∧
      LoopEnds plainEnv chainWorkflow c₀ ∧
        ∀ c, Relation.ReflTransGen (Goes plainEnv chainWorkflow) c₀ c → Terminal c := by
  have hnone : ∀ step ∈ chainWorkflow.steps, step.shadowed = none := by decide
  refine ⟨_, rfl, @ends_saved ℕ plainEnv chainWorkflow none "chain" id false true _ ?_ .nothing rfl
    nofun⟩
  intro step hstep node hnode
  rw [hnone step hstep] at hnode
  cases hnode

/-- A step whose output names the next step. -/
def branchingWorkflow : Definition where
  steps :=
    [{ stepId := some (textNode "a"),
       nextStep := some (textNode "\x7b\x7b steps.a.output \x7d\x7d") }]
  valid := rfl

/-- The template renders to the output of the step. -/
def echoEnv : Env String where
  render _ context := context (.text "a")
  maxConcurrentTasks := plainEnv.maxConcurrentTasks

/-- The only step answers with the name of a step that is not there. -/
def strayEvents : List (Event String) :=
  [.evaluate true, .start (.text "a") true, .finish (.text "a") (fun _ => .returned "nowhere") true,
   .gather true, .evaluate true]

/-- `execute` raises a `KeyError` and leaves a checkpoint that says `running`. -/
theorem stray_next_step :
    ∃ c₀ c, beginRun branchingWorkflow "branching" id false true none = .ok c₀ ∧
      Config.play echoEnv branchingWorkflow c₀ strayEvents = some c ∧
      c.main = .raised (.keyError (.text "nowhere")) ∧
      c.saved.map RunState.status = some .running ∧ ¬Terminal c :=
  ⟨_, _, rfl, rfl, rfl, rfl, fun h => nomatch h.raised _ rfl⟩

end AgentSystem.Workflow
