import AgentSystem.ToolGovernance

/-!
# The turns of an attempt

The tool calls on one attempt, with the turns that they count, the effects that they have and the
evidence that they leave.
-/
namespace AgentSystem.Executor

open Json Audit Programs PolicyGate Pipeline

variable {D W G L α β : Type} [Interpreter D] [Coercion D]

/-! ## One effect for a tool -/

namespace Host

/-- A program with one effect at most. -/
def Once (p : Program (Host D W G) Fault α) : Prop :=
  ∀ k, Triple (fun h => h.effects.length ≤ k) p (fun _ h => h.effects.length ≤ k + 1)
    fun _ h => h.effects.length ≤ k + 1

/-- A program without effects. -/
def Idle (p : Program (Host D W G) Fault α) : Prop :=
  ∀ k, Keeps (fun h => h.effects.length ≤ k) p

variable {p : Program (Host D W G) Fault α} {f : α → Program (Host D W G) Fault β}

omit [Interpreter D] [Coercion D]

lemma Idle.of_effects (h : ∀ host, (p host).2.effects = host.effects) : Idle p := by
  intro k host hhost
  have hsame := h host
  generalize p host = result at hsame
  obtain ⟨⟨fault⟩ | ⟨a⟩, host'⟩ := result
  · exact (congrArg List.length hsame).le.trans hhost
  · exact (congrArg List.length hsame).le.trans hhost

lemma Idle.query (g : W → Except Fault α) : Idle (Host.query g : Program (Host D W G) _ _) :=
  Idle.of_effects fun _ => rfl

lemma Idle.onDisk (q : Program W Fault α) : Idle (Host.onDisk q : Program (Host D W G) _ _) :=
  Idle.of_effects fun host => onDisk_effects q host

lemma Idle.ret (a : α) : Idle (pure a : Program (Host D W G) Fault α) := fun _ => Keeps.ret a

lemma Idle.raise (fault : Fault) : Idle (.raise fault : Program (Host D W G) Fault α) :=
  fun _ => Keeps.raise fault

lemma Idle.bind (hp : Idle p) (hf : ∀ a, Idle (f a)) : Idle (p >>= f) :=
  fun k => Keeps.bind (hp k) fun a => hf a k

lemma Idle.once (h : Idle p) : Once p := fun k =>
  Triple.weaken (h k) (fun _ => id) (fun _ _ hk => Nat.le_succ_of_le hk) fun _ _ hk =>
    Nat.le_succ_of_le hk

/-- The effect comes in the second part. -/
lemma Idle.bind_once (hp : Idle p) (hf : ∀ a, Once (f a)) : Once (p >>= f) := fun k =>
  Triple.bind (Triple.weaken (hp k) (fun _ => id) (fun _ _ => id) fun _ _ hk =>
    Nat.le_succ_of_le hk) fun a => hf a k

/-- The effect comes in the first part. -/
lemma Once.bind_idle (hp : Once p) (hf : ∀ a, Idle (f a)) : Once (p >>= f) :=
  fun k => Triple.bind (hp k) fun a => hf a (k + 1)

lemma Once.perform (effect : Effect D) :
    Once (Host.perform effect : Program (Host D W G) _ _) := by
  intro k
  refine Triple.update fun host hk => ?_
  rw [List.length_append]
  exact Nat.add_le_add_right hk 1

lemma Once.le (h : Once p) (host : Host D W G) :
    (p host).2.effects.length ≤ host.effects.length + 1 :=
  Triple.final (h host.effects.length) (le_refl _)

end Host

namespace ScopeGuard

variable (guard : ScopeGuard D W G)

lemma revalidate_idle (toolName : String) (args : Arguments D) :
    Host.Idle (guard.revalidate toolName args) := by
  refine Host.Idle.bind (Host.Idle.of_effects (guard.validateToolCall_effects toolName args)) ?_
  intro error
  cases error with
  | none => exact Host.Idle.ret ()
  | some error => exact Host.Idle.raise _

lemma filesystemRead_once (filePath startLine endLine : PyValue D) :
    Host.Once (guard.filesystemRead filePath startLine endLine) := by
  refine Host.Idle.bind_once (Host.Idle.query _) fun path => ?_
  refine Host.Idle.bind_once (Host.Idle.of_effects fun _ => rfl) fun present => ?_
  cases present with
  | false => exact (Host.Idle.raise _).once
  | true =>
      refine Host.Once.bind_idle (Host.Once.perform _) fun _ => ?_
      refine Host.Idle.bind (Host.Idle.query _) fun content => ?_
      split
      · exact Host.Idle.ret content
      · exact Host.Idle.bind (Host.Idle.query _) fun lines => Host.Idle.ret _

lemma filesystemWrite_once (filePath content append : PyValue D) :
    Host.Once (guard.filesystemWrite filePath content append) := by
  refine Host.Idle.bind_once (guard.revalidate_idle _ _) fun _ => ?_
  refine Host.Idle.bind_once (Host.Idle.query _) fun path => ?_
  refine Host.Once.bind_idle (Host.Once.perform _) fun _ => ?_
  exact Host.Idle.bind (Host.Idle.onDisk _) fun _ => Host.Idle.ret _

lemma shellExec_once (command timeoutSeconds : PyValue D) :
    Host.Once (guard.shellExec command timeoutSeconds) := by
  refine Host.Idle.bind_once (guard.revalidate_idle _ _) fun _ => ?_
  refine Host.Idle.bind_once (Host.Idle.query _) fun text => ?_
  exact Host.Once.bind_idle (Host.Once.perform _) fun _ => Host.Idle.onDisk _

omit [Interpreter D] [Coercion D] in
lemma gitDiff_once : Host.Once guard.gitDiff :=
  Host.Once.bind_idle (Host.Once.perform _) fun _ => Host.Idle.onDisk _

/-- A tool has one effect at most. -/
lemma dispatch_once (toolName : String) (args : Arguments D) :
    Host.Once (guard.dispatch toolName args) := by
  unfold dispatch
  split_ifs
  · refine Host.Idle.bind_once (Host.Idle.query _) fun filePath => ?_
    exact Host.Once.bind_idle (guard.filesystemRead_once _ _ _) fun content => Host.Idle.ret _
  · refine Host.Idle.bind_once (Host.Idle.query _) fun filePath => ?_
    refine Host.Idle.bind_once (Host.Idle.query _) fun content => ?_
    exact Host.Once.bind_idle (guard.filesystemWrite_once _ _ _) fun written => Host.Idle.ret _
  · refine Host.Idle.bind_once (Host.Idle.query _) fun command => ?_
    exact Host.Once.bind_idle (guard.shellExec_once _ _) fun process => Host.Idle.ret _
  · exact Host.Once.bind_idle guard.gitDiff_once fun diff => Host.Idle.ret _
  · exact (Host.Idle.raise _).once

lemma guarded_once (toolName : String) (args : Arguments D) :
    Host.Once (guard.guarded toolName args) :=
  Host.Idle.bind_once (Host.Idle.of_effects (guard.validateToolCall_effects toolName args))
    fun _ => guard.dispatch_once toolName args

end ScopeGuard

/-! ## One call -/

/-- The text that a record keeps of what a tool did. -/
def outputSnippet : Except Fault Dispatched → PyStr
  | .ok dispatched => dispatched.snippet
  | .error fault => fault.message D

omit [Interpreter D] [Coercion D] in
lemma record_trail (evidence : ToolCallEvidence D) (s : Session D W G L) :
    (Session.record evidence s).2.attempt.evidenceTrail = s.attempt.evidenceTrail ++
      if (encode evidence.outputSnippet).isSome then [evidence] else [] := by
  unfold Session.record
  cases encode evidence.outputSnippet with
  | none => exact (List.append_nil _).symm
  | some text => rfl

/-- What the limit of an attempt is about. -/
def turns (s : Session D W G L) : ℤ × ℤ := (s.attempt.turnCount, s.attempt.maxTurns)

omit [Interpreter D] [Coercion D] in
lemma record_turns (evidence : ToolCallEvidence D) :
    Leaves turns (Session.record evidence : Program (Session D W G L) _ _) := fun _ =>
  Keeps.split (Keeps.raise _) (Keeps.update fun _ h => h)

omit [Interpreter D] [Coercion D] in
lemma onHost_turns (p : Program (Host D W G) Fault α) :
    Leaves turns (Session.onHost p : Program (Session D W G L) _ _) := by
  intro v
  unfold Session.onHost
  refine Keeps.within (fun _ _ h => ?_) p
  exact h

lemma dispatchRecorded_turns (guard : ScopeGuard D W G) (toolName : String)
    (args : Arguments D) :
    Leaves turns (AgentExecutor.dispatchRecorded guard toolName args :
      Program (Session D W G L) _ _) := fun v =>
  Keeps.bind (Keeps.handle (onHost_turns _ v) fun _ =>
    Keeps.bind (record_turns _ v) fun _ => Keeps.raise _) fun _ =>
      Keeps.bind (record_turns _ v) fun _ => Keeps.ret _

omit [Interpreter D] [Coercion D] in
/-- What follows a program without a change of the state ends where that program does. -/
lemma bind_state {p : Program (Session D W G L) Fault α} {f : α → Program (Session D W G L) Fault β}
    (hf : ∀ a s, (f a s).2 = s) (s : Session D W G L) : ((p >>= f) s).2 = (p s).2 := by
  rw [Program.bind_apply]
  generalize p s = result
  obtain ⟨⟨fault⟩ | ⟨a⟩, s'⟩ := result
  · rfl
  · exact hf a s'

omit [Interpreter D] [Coercion D] in
/-- What follows an exception does not run. -/
lemma raise_state {p : Program (Session D W G L) Fault Unit} {fault : Fault}
    {f : α → Program (Session D W G L) Fault β} (s : Session D W G L) :
    (((p >>= fun _ => .raise fault) >>= f) s).2 = (p s).2 := by
  rw [Program.bind_apply, Program.bind_apply]
  generalize p s = result
  obtain ⟨⟨fault⟩ | ⟨a⟩, s'⟩ := result
  · rfl
  · rfl

/-- A dispatched tool leaves one record, if its snippet can be encoded. -/
lemma dispatchRecorded_trail (guard : ScopeGuard D W G) (toolName : String) (args : Arguments D)
    (s : Session D W G L) :
    ∃ evidence, (AgentExecutor.dispatchRecorded guard toolName args s).2.attempt.evidenceTrail =
      s.attempt.evidenceTrail ++
        if (encode (outputSnippet (D := D) (guard.dispatch toolName args s.host).1)).isSome
          then [evidence] else [] := by
  have hdispatch : (Session.onHost (guard.dispatch toolName args) : Program (Session D W G L) _ _) s =
      ((guard.dispatch toolName args s.host).1,
        { s with host := (guard.dispatch toolName args s.host).2 }) := rfl
  unfold AgentExecutor.dispatchRecorded
  dsimp only
  generalize guard.dispatch toolName args s.host = result at hdispatch ⊢
  obtain ⟨⟨fault⟩ | ⟨dispatched⟩, host⟩ := result
  · rw [Program.bind_apply, Program.handle_error hdispatch, ← Program.bind_apply, raise_state,
      record_trail]
    exact ⟨_, rfl⟩
  · rw [Program.bind_ok (Program.handle_ok hdispatch), bind_state fun _ _ => rfl, record_trail]
    exact ⟨_, rfl⟩

/-- The session with the turn of a call counted. -/
def Session.counted (s : Session D W G L) : Session D W G L :=
  { s with attempt := { s.attempt with turnCount := s.attempt.turnCount + 1 } }

namespace AgentExecutor

variable (x : AgentExecutor D W G) (guard : ScopeGuard D W G)

/-- The call consumes a turn: it is in the limit and its arguments are repaired. -/
def Counted (call : ToolCall D L) (s : Session D W G L) (args : Arguments D) (caller : L) : Prop :=
  s.attempt.turnCount < s.attempt.maxTurns ∧
    ∃ strategy, x.repair call s.caller = (.ok (.success args strategy), caller)

/-- The guard does not raise about a call that is counted, and what its tool returns, or the message
of its exception, can be encoded. -/
def Evidenced (call : ToolCall D L) (s : Session D W G L) : Prop :=
  ∀ args caller, x.Counted call s args caller →
    ∃ answer host, guard.validateToolCall call.toolName args s.host = (.ok answer, host) ∧
      (encode (outputSnippet (D := D) (guard.dispatch call.toolName args host).1)).isSome

lemma executeTool_counted {call : ToolCall D L} {s : Session D W G L} {args : Arguments D}
    {caller : L} (h : x.Counted call s args caller) :
    x.executeTool guard call s =
      runRepaired guard call.toolName args { s with caller := caller } := by
  obtain ⟨hlimit, strategy, hrepair⟩ := h
  have hcaller : (Session.onCaller (x.repair call) : Program (Session D W G L) _ _) s =
      ((x.repair call s.caller).1, { s with caller := (x.repair call s.caller).2 }) := rfl
  rw [hrepair] at hcaller
  rw [x.executeTool_inLimit guard (not_le.mpr hlimit), runCall, Program.bind_ok hcaller]

omit x in
lemma runRepaired_turns (toolName : String) (args : Arguments D) (s : Session D W G L) :
    turns (runRepaired guard toolName args s).2 = (s.attempt.turnCount + 1, s.attempt.maxTurns) := by
  have hcount : (Session.setAttempt fun attempt =>
      { attempt with turnCount := attempt.turnCount + 1 }) s = (.ok (), s.counted) := rfl
  unfold runRepaired
  rw [Program.bind_ok hcount]
  exact Keeps.final (Keeps.bind (onHost_turns _ _) fun _ => dispatchRecorded_turns guard _ _ _) rfl

omit x in
/-- A counted turn has a record exactly if the guard returns and the snippet can be encoded. -/
lemma runRepaired_trail (toolName : String) (args : Arguments D) (s : Session D W G L) :
    (∃ evidence, (runRepaired guard toolName args s).2.attempt.evidenceTrail =
        s.attempt.evidenceTrail ++ [evidence]) ↔
      ∃ answer host, guard.validateToolCall toolName args s.host = (.ok answer, host) ∧
        (encode (outputSnippet (D := D) (guard.dispatch toolName args host).1)).isSome := by
  have hcount : (Session.setAttempt fun attempt =>
      { attempt with turnCount := attempt.turnCount + 1 }) s = (.ok (), s.counted) := rfl
  have hvalidate : (Session.onHost (guard.validateToolCall toolName args) :
      Program (Session D W G L) _ _) s.counted =
        ((guard.validateToolCall toolName args s.host).1,
          { s.counted with host := (guard.validateToolCall toolName args s.host).2 }) := rfl
  unfold runRepaired
  rw [Program.bind_ok hcount, Program.bind_apply, hvalidate]
  cases hresult : guard.validateToolCall toolName args s.host with
  | mk result host =>
  cases result with
  | error fault =>
      refine iff_of_false (fun ⟨evidence, h⟩ => ?_) fun ⟨answer, host, h, _⟩ => by cases h
      exact absurd (List.self_eq_append_right.mp h) (List.cons_ne_nil _ _)
  | ok answer =>
      obtain ⟨evidence, htrail⟩ := dispatchRecorded_trail guard toolName args
        { s.counted with host := host }
      dsimp only at htrail ⊢
      rw [htrail]
      constructor
      · rintro ⟨evidence', h⟩
        refine ⟨answer, host, rfl, ?_⟩
        by_contra hnone
        rw [if_neg hnone] at h
        exact absurd (List.append_cancel_left h) (List.cons_ne_nil _ _).symm
      · rintro ⟨answer', host', h, hsome⟩
        cases h
        rw [if_pos hsome]
        exact ⟨evidence, rfl⟩

lemma executeTool_uncounted {call : ToolCall D L} {s : Session D W G L}
    (h : ∀ args caller, ¬ x.Counted call s args caller) :
    turns (x.executeTool guard call s).2 = turns s ∧
      (x.executeTool guard call s).2.host = s.host := by
  by_cases hlimit : s.attempt.maxTurns ≤ s.attempt.turnCount
  · refine ⟨?_, x.executeTool_blocked guard hlimit⟩
    have hread : (Program.read Session.attempt) s = ((.ok s.attempt : Except Fault _), s) := rfl
    unfold executeTool
    rw [Program.bind_ok hread, if_pos hlimit]
    rfl
  · have hcaller : (Session.onCaller (x.repair call) : Program (Session D W G L) _ _) s =
        ((x.repair call s.caller).1, { s with caller := (x.repair call s.caller).2 }) := rfl
    rw [x.executeTool_inLimit guard hlimit, runCall, Program.bind_apply, hcaller]
    cases hrepair : x.repair call s.caller with
    | mk result caller =>
    obtain ⟨fault⟩ | ⟨⟨args, strategy⟩ | ⟨error⟩⟩ := result
    · exact ⟨rfl, rfl⟩
    · exact absurd ⟨not_le.mp hlimit, strategy, hrepair⟩ (h args caller)
    · refine ⟨?_, rejectRepair_host call error _⟩
      exact Keeps.final (Keeps.bind (record_turns _ (turns s)) fun _ => Keeps.ret _) rfl

/-- The effects of a call are paid for with a turn. -/
lemma executeTool_paid (call : ToolCall D L) (s : Session D W G L) :
    (x.executeTool guard call s).2.attempt.maxTurns = s.attempt.maxTurns ∧
      ∃ used : ℕ, (x.executeTool guard call s).2.attempt.turnCount = s.attempt.turnCount + used ∧
        (x.executeTool guard call s).2.host.effects.length ≤ s.host.effects.length + used ∧
        (used = 0 ∨ used = 1 ∧ s.attempt.turnCount < s.attempt.maxTurns) := by
  by_cases h : ∃ args caller, x.Counted call s args caller
  · obtain ⟨args, caller, hcounted⟩ := h
    rw [x.executeTool_counted guard hcounted]
    have hturns := runRepaired_turns guard call.toolName args { s with caller := caller }
    have heffects := congrArg List.length
      (runRepaired_effects guard call.toolName args { s with caller := caller })
    have honce := (guard.guarded_once call.toolName args).le s.host
    refine ⟨congrArg Prod.snd hturns, 1, congrArg Prod.fst hturns, ?_, .inr ⟨rfl, hcounted.1⟩⟩
    exact heffects.le.trans honce
  · push Not at h
    obtain ⟨hturns, hhost⟩ := x.executeTool_uncounted guard h
    refine ⟨congrArg Prod.snd hturns, 0, ?_, ?_, .inl rfl⟩
    · exact (congrArg Prod.fst hturns).trans (add_zero _).symm
    · exact (congrArg (fun host => host.effects.length) hhost).le

/-- A call that consumes a turn leaves exactly one record. -/
def Recorded (call : ToolCall D L) (s : Session D W G L) : Prop :=
  (x.executeTool guard call s).2.attempt.turnCount ≠ s.attempt.turnCount →
    ∃ evidence, (x.executeTool guard call s).2.attempt.evidenceTrail =
      s.attempt.evidenceTrail ++ [evidence]

lemma recorded_iff (call : ToolCall D L) (s : Session D W G L) :
    x.Recorded guard call s ↔ x.Evidenced guard call s := by
  constructor
  · intro hrecorded args caller hcounted
    refine (runRepaired_trail guard call.toolName args { s with caller := caller }).mp ?_
    have hturns := runRepaired_turns guard call.toolName args { s with caller := caller }
    unfold Recorded at hrecorded
    rw [x.executeTool_counted guard hcounted] at hrecorded
    refine hrecorded fun hsame => ?_
    have hnext := (congrArg Prod.fst hturns).symm.trans hsame
    exact absurd hnext (by simp)
  · intro hevidenced hnew
    by_cases h : ∃ args caller, x.Counted call s args caller
    · obtain ⟨args, caller, hcounted⟩ := h
      rw [x.executeTool_counted guard hcounted]
      exact (runRepaired_trail guard call.toolName args { s with caller := caller }).mpr
        (hevidenced args caller hcounted)
    · push Not at h
      exact absurd (congrArg Prod.fst (x.executeTool_uncounted guard h).1) hnew

/-! ## Sequences of calls on one attempt -/

def afterCalls (calls : List (ToolCall D L)) (s : Session D W G L) : Session D W G L :=
  x.runSteps guard (calls.map .call) s

lemma afterCalls_append (calls : List (ToolCall D L)) (call : ToolCall D L)
    (s : Session D W G L) :
    x.afterCalls guard (calls ++ [call]) s =
      (x.executeTool guard call (x.afterCalls guard calls s)).2 := by
  unfold afterCalls runSteps
  rw [List.map_append, List.foldl_append]
  rfl

/-- The effects of the calls are paid for with the turns of the attempt. -/
lemma afterCalls_paid (calls : List (ToolCall D L)) (s : Session D W G L) :
    (x.afterCalls guard calls s).attempt.maxTurns = s.attempt.maxTurns ∧
      ∃ used : ℕ, (x.afterCalls guard calls s).attempt.turnCount = s.attempt.turnCount + used ∧
        (x.afterCalls guard calls s).host.effects.length ≤ s.host.effects.length + used ∧
        (s.attempt.turnCount ≤ s.attempt.maxTurns →
          s.attempt.turnCount + used ≤ s.attempt.maxTurns) := by
  induction calls using List.reverseRecOn with
  | nil => exact ⟨rfl, 0, (add_zero _).symm, le_refl _, fun h => by omega⟩
  | append_singleton calls call ih =>
      obtain ⟨hmax, used, hturn, heffects, hlimit⟩ := ih
      rw [x.afterCalls_append]
      obtain ⟨hmax', one, hturn', heffects', hone⟩ :=
        x.executeTool_paid guard call (x.afterCalls guard calls s)
      refine ⟨hmax'.trans hmax, used + one, ?_, ?_, fun hstart => ?_⟩
      · rw [hturn', hturn]
        push_cast
        ring
      · omega
      · have hbefore := hlimit hstart
        rcases hone with rfl | ⟨rfl, hinLimit⟩
        · simpa using hbefore
        · rw [hturn, hmax] at hinLimit
          push_cast
          omega

/-- After each call of a sequence the turns are in the limit, as many effects are performed as turns
were left at most, and each turn that was consumed has its record. -/
structure Balanced (calls : List (ToolCall D L)) (s : Session D W G L) : Prop where
  inLimit : ∀ before after, calls = before ++ after →
    (x.afterCalls guard before s).attempt.turnCount ≤ s.attempt.maxTurns
  effects : ∀ before after, calls = before ++ after →
    ((x.afterCalls guard before s).host.effects.length : ℤ) ≤
      s.host.effects.length + (s.attempt.maxTurns - s.attempt.turnCount)
  recorded : ∀ before call after, calls = before ++ call :: after →
    x.Recorded guard call (x.afterCalls guard before s)

/-- The calls on an attempt that is in its limit balance exactly if about each call that is counted
the guard returns and what the tool gives can be encoded. -/
theorem balanced_iff (calls : List (ToolCall D L)) (s : Session D W G L) :
    x.Balanced guard calls s ↔ s.attempt.turnCount ≤ s.attempt.maxTurns ∧
      ∀ before call after, calls = before ++ call :: after →
        x.Evidenced guard call (x.afterCalls guard before s) := by
  constructor
  · intro h
    refine ⟨h.inLimit [] calls rfl, fun before call after heq => ?_⟩
    exact (x.recorded_iff guard call _).mp (h.recorded before call after heq)
  · rintro ⟨hstart, hevidenced⟩
    refine ⟨fun before after _ => ?_, fun before after _ => ?_, fun before call after heq => ?_⟩
    · obtain ⟨-, used, hturn, -, hlimit⟩ := x.afterCalls_paid guard before s
      exact hturn.le.trans (hlimit hstart)
    · obtain ⟨-, used, -, heffects, hlimit⟩ := x.afterCalls_paid guard before s
      have hused := hlimit hstart
      omega
    · exact (x.recorded_iff guard call _).mpr (hevidenced before call after heq)

end AgentExecutor

/-! ## A write outside the scope -/

/-- A QA agent that may write in the tests. -/
def testsGuard : ScopeGuard Empty (List (FilePath × PyStr)) Unit where
  platform := memoryPlatform
  taskEnv :=
    { agentRole := "QA_TEST_AGENT"
      mutableScope := ["tests/"]
      availableGovernedTools := ["filesystem.write"] }
  worktreePath := memoryPlatform.resolveRoot "/srv/wt1"
  policyGate := none

def coreWrite : ToolCall Empty Unit where
  toolName := "filesystem.write"
  args := .dict (.ofPairs [("file_path", strValue "core/a.txt"), ("content", strValue "x")])

/-- The guard raises about a write outside the scope, and the turn leaves no record. -/
theorem refused_write_unrecorded : ¬ memoryExecutor.Balanced testsGuard [coreWrite] readerSession := by
  intro h
  have hturn : (memoryExecutor.executeTool testsGuard coreWrite
      readerSession).2.attempt.turnCount = 1 := by decide
  have htrail : (memoryExecutor.executeTool testsGuard coreWrite
      readerSession).2.attempt.evidenceTrail.length = 0 := by decide
  have hrecorded : memoryExecutor.Recorded testsGuard coreWrite readerSession :=
    h.recorded [] coreWrite [] rfl
  obtain ⟨evidence, hevidence⟩ := hrecorded (hturn.trans_ne (by decide))
  rw [List.length_eq_zero_iff.mp htrail] at hevidence
  cases hevidence

end AgentSystem.Executor
