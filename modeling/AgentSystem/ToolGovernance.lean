import AgentSystem.MutationScope

/-!
# The governance of tool calls

A sequence of tool calls of the executor, and which of them do something that the scope guard did
not accept.
-/
namespace AgentSystem.Executor

open Json Audit Programs PolicyGate Pipeline

variable {D W G L α : Type} [Interpreter D] [Coercion D]

/-! ## The dispatched tools -/

namespace ScopeGuard

variable (guard : ScopeGuard D W G)

omit [Coercion D] in
lemma consultGate_effects (toolName : String) (args : Arguments D) (host : Host D W G) :
    (guard.consultGate toolName args host).2.effects = host.effects := by
  unfold consultGate
  cases guard.policyGate with
  | none => rfl
  | some evaluate =>
      cases policyGateRequest guard.taskEnv toolName args with
      | none => rfl
      | some request => exact Host.bind_effects rfl fun _ _ => rfl

lemma validateToolCall_effects (toolName : String) (args : Arguments D) (host : Host D W G) :
    (guard.validateToolCall toolName args host).2.effects = host.effects := by
  refine Host.bind_effects (guard.consultGate_effects toolName args host) fun error host' => ?_
  cases error <;> rfl

/-- A tool of no name in the registry raises. -/
lemma dispatch_unknown {toolName : String} (h : toolName ∉ minimalGovernedTools)
    (args : Arguments D) (host : Host D W G) :
    (guard.dispatch toolName args host).2.effects = host.effects := by
  simp only [minimalGovernedTools, List.mem_cons, List.not_mem_nil, or_false, not_or] at h
  unfold dispatch
  rw [if_neg h.1, if_neg h.2.1, if_neg h.2.2.1, if_neg h.2.2.2]
  rfl

/-- The file that a read gets to. -/
def Readable (args : Arguments D) (disk : W) : Prop :=
  ∃ filePath path, args.find "file_path" = some filePath ∧
    guard.resolveAndVerifyPath filePath disk = .ok path ∧ guard.platform.isFile path disk = true

omit [Interpreter D] [Coercion D] in
lemma require_bind {args : Arguments D} {key : String} {value : PyValue D}
    (h : args.find key = some value) (f : PyValue D → Program (Host D W G) Fault α)
    (host : Host D W G) :
    ((Host.query fun _ => args.require key) >>= f) host = f value host := by
  refine Program.bind_ok (Host.query_ok ?_)
  unfold Arguments.require
  rw [h]

omit [Interpreter D] [Coercion D] in
lemma require_missing {args : Arguments D} {key : String} (h : args.find key = none)
    (f : PyValue D → Program (Host D W G) Fault α) (host : Host D W G) :
    ∃ fault, ((Host.query fun _ => args.require key) >>= f) host = (.error fault, host) := by
  unfold Arguments.require
  rw [h]
  exact ⟨_, Program.bind_error (Host.query_error rfl)⟩

lemma filesystemRead_effects {filePath : PyValue D} {path : FilePath} {host : Host D W G}
    (startLine endLine : PyValue D)
    (h : guard.resolveAndVerifyPath filePath host.disk = .ok path) :
    (guard.filesystemRead filePath startLine endLine host).2.effects =
      host.effects ++ if guard.platform.isFile path host.disk then [.read path] else [] := by
  have hread : (Program.read fun h : Host D W G => guard.platform.isFile path h.disk) host =
      ((.ok (guard.platform.isFile path host.disk) : Except Fault Bool), host) := rfl
  unfold filesystemRead
  rw [Program.bind_ok (Host.query_ok h), Program.bind_ok hread]
  split_ifs
  · rw [Program.bind_ok (Host.perform_apply _ host)]
    refine Host.bind_effects rfl fun content host' => ?_
    split
    · rfl
    · exact Host.bind_effects rfl fun _ _ => rfl
  · exact (List.append_nil _).symm

/-- A read is performed exactly on a file that it gets to. -/
lemma dispatch_read (args : Arguments D) (host : Host D W G) :
    (guard.dispatch "filesystem.read" args host).2.effects ≠ host.effects ↔
      guard.Readable args host.disk := by
  have hdispatch : guard.dispatch "filesystem.read" args = guard.dispatchRead args := if_pos rfl
  rw [hdispatch]
  unfold dispatchRead
  cases hfile : args.find "file_path" with
  | none =>
      obtain ⟨fault, hfault⟩ := require_missing (W := W) (G := G) hfile _ host
      rw [hfault]
      refine ⟨fun h => absurd rfl h, fun ⟨filePath, path, hsome, _⟩ => ?_⟩
      rw [hfile] at hsome
      cases hsome
  | some filePath =>
      rw [require_bind hfile]
      cases hpath : guard.resolveAndVerifyPath filePath host.disk with
      | error fault =>
          have hraised : guard.filesystemRead filePath (args.get "start_line")
              (args.get "end_line") host = (.error fault, host) :=
            Program.bind_error (Host.query_error hpath)
          rw [Program.bind_error hraised]
          refine ⟨fun h => absurd rfl h, fun ⟨filePath', path, hsome, hok, _⟩ => ?_⟩
          rw [hfile] at hsome
          cases hsome
          rw [hpath] at hok
          cases hok
      | ok path =>
          have heffects := guard.filesystemRead_effects (args.get "start_line")
            (args.get "end_line") hpath
          rw [Host.bind_effects heffects fun _ _ => rfl]
          constructor
          · intro hnew
            refine ⟨filePath, path, hfile, hpath, ?_⟩
            by_contra habsent
            rw [if_neg habsent, List.append_nil] at hnew
            exact hnew rfl
          · rintro ⟨filePath', path', hsome, hok, hisFile⟩
            rw [hfile] at hsome
            cases hsome
            rw [hpath] at hok
            cases hok
            simp [hisFile]

lemma dispatch_diff (args : Arguments D) (host : Host D W G) :
    (guard.dispatch "git.diff" args host).2.effects ≠ host.effects := by
  have hdiff : (guard.gitDiff host).2.effects = host.effects ++ [.diff] := by
    unfold gitDiff
    rw [Program.bind_ok (Host.perform_apply _ host)]
    exact Host.onDisk_effects _ _
  have hdispatch : guard.dispatch "git.diff" args = guard.dispatchDiff := rfl
  rw [hdispatch, dispatchDiff, Host.bind_effects hdiff fun _ _ => rfl]
  simp

/-- Without a gate, the guard accepts the arguments of a write or refuses them the second time. -/
lemma dispatch_write {args : Arguments D} {host : Host D W G}
    (hrefused : (guard.validateToolCall "filesystem.write" args host).1 ≠ .ok none) :
    (guard.dispatch "filesystem.write" args host).2.effects = host.effects := by
  have hdispatch : guard.dispatch "filesystem.write" args = guard.dispatchWrite args := rfl
  rw [hdispatch]
  unfold dispatchWrite
  cases hfile : args.find "file_path" with
  | none =>
      obtain ⟨fault, hfault⟩ := require_missing (W := W) (G := G) hfile _ host
      rw [hfault]
  | some filePath =>
      rw [require_bind hfile]
      cases hcontent : args.find "content" with
      | none =>
          obtain ⟨fault, hfault⟩ := require_missing (W := W) (G := G) hcontent _ host
          rw [hfault]
      | some content =>
          rw [require_bind hcontent]
          have hnone : ∀ path,
              ¬ guard.AcceptsWrite (writeArguments filePath content) path host.disk := by
            intro path h
            refine hrefused ((guard.acceptsWrite_iff args host).mpr ⟨path, ?_⟩)
            have hsame : (writeArguments filePath content).find "file_path" =
                args.find "file_path" := (find_filePath filePath content).trans hfile.symm
            have hget : (writeArguments filePath content).get "content" = args.get "content" := by
              unfold Arguments.get
              rw [hcontent, writeArguments, Arguments.find_ofPairs]
              rfl
            exact ⟨h.noGate, h.allowed, hsame ▸ h.named, hsame ▸ h.resolves, h.inScope,
              hget ▸ h.clean⟩
          obtain ⟨fault, hfault⟩ := guard.filesystemWrite_refused filePath content
            ((args.find "append").getD (.bool false)) host hnone
          rw [Program.bind_error hfault]

/-- A command is refused the second time when the guard did not accept the first. -/
lemma dispatch_shell {args : Arguments D} {host : Host D W G}
    (hrefused : (guard.validateToolCall "shell.exec" args host).1 ≠ .ok none) :
    (guard.dispatch "shell.exec" args host).2.effects = host.effects := by
  have hdispatch : guard.dispatch "shell.exec" args = guard.dispatchShell args := rfl
  rw [hdispatch]
  unfold dispatchShell
  cases hcommand : args.find "command" with
  | none =>
      obtain ⟨fault, hfault⟩ := require_missing (W := W) (G := G) hcommand _ host
      rw [hfault]
  | some command =>
      rw [require_bind hcommand]
      have hfind : (Arguments.ofPairs [("command", command)]).find "command" =
          args.find "command" := by
        rw [hcommand, Arguments.find_ofPairs]
        rfl
      have hagain : (guard.validateToolCall "shell.exec" (.ofPairs [("command", command)])
          host).1 ≠ .ok none := by
        by_cases hgate : guard.policyGate = none
        · rw [guard.validateToolCall_of_noGate hgate] at hrefused ⊢
          unfold checkTool checkCommand at hrefused ⊢
          rw [hfind]
          exact hrefused
        · rw [guard.validateToolCall_of_gate (by decide) hgate]
          exact nofun
      obtain ⟨fault, hfault⟩ := guard.revalidate_error (by decide) _ host hagain
      have hraised : guard.shellExec command (args.get "timeout_seconds") host =
          (.error fault, host) := Program.bind_error hfault
      rw [Program.bind_error hraised]

lemma checkTool_unlisted {toolName : String}
    (h : guard.taskEnv.validateToolAllowed toolName = false) (args : Arguments D) (disk : W) :
    ∃ error, guard.checkTool toolName args disk = .ok (some error) := by
  unfold checkTool
  rw [if_pos h]
  exact ⟨_, rfl⟩

/-- The guard has nothing to check about a read or a diff that is listed. -/
lemma checkTool_listed {toolName : String} (h : guard.taskEnv.validateToolAllowed toolName = true)
    (htool : toolName = "filesystem.read" ∨ toolName = "git.diff") (args : Arguments D) (disk : W) :
    guard.checkTool toolName args disk = .ok none := by
  unfold checkTool
  rw [h, if_neg (by decide)]
  rcases htool with rfl | rfl
  · rfl
  · rfl

/-- A dispatched call does something. -/
def Performs (toolName : String) (args : Arguments D) (disk : W) : Prop :=
  toolName = "filesystem.read" ∧ guard.Readable args disk ∨ toolName = "git.diff"

/-- The guard and then the tool, whatever the guard returned. -/
def guarded (toolName : String) (args : Arguments D) : Program (Host D W G) Fault Dispatched := do
  let _ ← guard.validateToolCall toolName args
  guard.dispatch toolName args

lemma guarded_unknown {toolName : String} (h : toolName ∉ minimalGovernedTools)
    (args : Arguments D) (host : Host D W G) :
    (guard.guarded toolName args host).2.effects = host.effects :=
  Host.bind_effects (guard.validateToolCall_effects toolName args host) fun _ host' =>
    guard.dispatch_unknown h args host'

/-- A write or a command that is not accepted does nothing. -/
lemma guarded_refused {toolName : String}
    (htool : toolName = "filesystem.write" ∨ toolName = "shell.exec") {args : Arguments D}
    {host : Host D W G} (hrefused : (guard.validateToolCall toolName args host).1 ≠ .ok none) :
    (guard.guarded toolName args host).2.effects = host.effects := by
  have hmem : toolName ∈ minimalGovernedTools := by
    rcases htool with rfl | rfl
    · decide
    · decide
  have hhost := guard.validateToolCall_host hmem args host
  unfold guarded
  rw [Program.bind_apply]
  generalize guard.validateToolCall toolName args host = result at hhost
  obtain ⟨⟨fault⟩ | ⟨answer⟩, host'⟩ := result
  · exact congrArg Host.effects hhost
  · cases hhost
    rcases htool with rfl | rfl
    · exact guard.dispatch_write hrefused
    · exact guard.dispatch_shell hrefused

/-- Without a gate, a tool that is not listed is dispatched all the same. -/
lemma guarded_unlisted (hgate : guard.policyGate = none) {toolName : String}
    (htool : toolName ∈ minimalGovernedTools)
    (h : guard.taskEnv.validateToolAllowed toolName = false) (args : Arguments D)
    (host : Host D W G) :
    (guard.guarded toolName args host).2.effects ≠ host.effects ↔
      guard.Performs toolName args host.disk := by
  obtain ⟨error, herror⟩ := guard.checkTool_unlisted h args host.disk
  have hvalidate := guard.validateToolCall_of_noGate hgate toolName args host
  rw [herror] at hvalidate
  have hrefused : (guard.validateToolCall toolName args host).1 ≠ .ok none := by
    rw [hvalidate]
    exact nofun
  have hguarded : guard.guarded toolName args host = guard.dispatch toolName args host :=
    Program.bind_ok hvalidate
  unfold Performs
  simp only [minimalGovernedTools, List.mem_cons, List.not_mem_nil, or_false] at htool
  rcases htool with rfl | rfl | rfl | rfl
  · rw [hguarded, guard.dispatch_read]
    simp
  · rw [guard.guarded_refused (.inl rfl) hrefused]
    simp
  · rw [guard.guarded_refused (.inr rfl) hrefused]
    simp
  · rw [hguarded]
    simp [guard.dispatch_diff]

/-- What a tool does without being accepted is a read or a diff that is not listed. -/
lemma guarded_unaccepted_iff (toolName : String) (args : Arguments D) (host : Host D W G) :
    ((guard.guarded toolName args host).2.effects ≠ host.effects ∧
        (guard.validateToolCall toolName args host).1 ≠ .ok none) ↔
      guard.policyGate = none ∧ guard.taskEnv.validateToolAllowed toolName = false ∧
        guard.Performs toolName args host.disk := by
  by_cases htool : toolName ∈ minimalGovernedTools
  · by_cases hgate : guard.policyGate = none
    · cases hlisted : guard.taskEnv.validateToolAllowed toolName with
      | false =>
          have hrefused : (guard.validateToolCall toolName args host).1 ≠ .ok none := by
            obtain ⟨error, herror⟩ := guard.checkTool_unlisted hlisted args host.disk
            rw [guard.validateToolCall_of_noGate hgate, herror]
            exact nofun
          rw [guard.guarded_unlisted hgate htool hlisted]
          simp [hgate, hrefused]
      | true =>
          refine ⟨fun ⟨hnew, hrefused⟩ => ?_, fun h => absurd h.2.1 (by decide)⟩
          by_cases hchecked : toolName = "filesystem.write" ∨ toolName = "shell.exec"
          · exact absurd (guard.guarded_refused hchecked hrefused) hnew
          · have hfree : toolName = "filesystem.read" ∨ toolName = "git.diff" := by
              simp only [minimalGovernedTools, List.mem_cons, List.not_mem_nil, or_false] at htool
              tauto
            rw [guard.validateToolCall_of_noGate hgate,
              guard.checkTool_listed hlisted hfree] at hrefused
            exact absurd rfl hrefused
    · refine ⟨fun ⟨hnew, _⟩ => absurd ?_ hnew, fun h => absurd h.1 hgate⟩
      unfold guarded
      rw [Program.bind_error (guard.validateToolCall_of_gate htool hgate args host)]
  · refine ⟨fun ⟨hnew, _⟩ => absurd (guard.guarded_unknown htool args host) hnew, ?_⟩
    rintro ⟨-, -, ⟨rfl, -⟩ | rfl⟩
    · exact absurd (by decide) htool
    · exact absurd (by decide) htool

end ScopeGuard

/-! ## Calls of an attempt -/

namespace AgentExecutor

variable (x : AgentExecutor D W G) (guard : ScopeGuard D W G)

/-- The guard accepts a call with the arguments that their repair gives. -/
def Accepts (call : ToolCall D L) (s : Session D W G L) : Prop :=
  ∃ args strategy caller, x.repair call s.caller = (.ok (.success args strategy), caller) ∧
    (guard.validateToolCall call.toolName args s.host).1 = .ok none

/-- A call that does something is one that the guard accepts. -/
def Governed (call : ToolCall D L) (s : Session D W G L) : Prop :=
  (x.executeTool guard call s).2.host.effects ≠ s.host.effects → x.Accepts guard call s

/-- A call in the limit of its attempt, without a policy gate, that reads a file or takes the diff
with a tool that is not allocated. -/
structure Bypasses (call : ToolCall D L) (s : Session D W G L) : Prop where
  inLimit : s.attempt.turnCount < s.attempt.maxTurns
  noGate : guard.policyGate = none
  unlisted : guard.taskEnv.validateToolAllowed call.toolName = false
  performs : ∃ args strategy caller,
    x.repair call s.caller = (.ok (.success args strategy), caller) ∧
      guard.Performs call.toolName args s.host.disk

omit [Interpreter D] [Coercion D] in
lemma record_host (evidence : ToolCallEvidence D) (host : Host D W G) :
    Keeps (fun s : Session D W G L => s.host = host) (Session.record evidence) :=
  Keeps.split (Keeps.raise _) (Keeps.update fun _ h => h)

lemma dispatchRecorded_host (toolName : String) (args : Arguments D) (s : Session D W G L) :
    (dispatchRecorded guard toolName args s).2.host = (guard.dispatch toolName args s.host).2 := by
  have hdispatch : (Session.onHost (guard.dispatch toolName args) : Program (Session D W G L) _ _) s =
      ((guard.dispatch toolName args s.host).1,
        { s with host := (guard.dispatch toolName args s.host).2 }) := rfl
  unfold dispatchRecorded
  dsimp only
  generalize guard.dispatch toolName args s.host = result at hdispatch ⊢
  obtain ⟨⟨fault⟩ | ⟨dispatched⟩, host⟩ := result
  · rw [Program.bind_apply, Program.handle_error hdispatch, ← Program.bind_apply]
    exact Keeps.final (P := fun s : Session D W G L => s.host = host)
      (Keeps.bind (Keeps.bind (record_host _ _) fun _ => Keeps.raise _) fun _ =>
        Keeps.bind (record_host _ _) fun _ => Keeps.ret _) rfl
  · rw [Program.bind_ok (Program.handle_ok hdispatch)]
    exact Keeps.final (P := fun s : Session D W G L => s.host = host)
      (Keeps.bind (record_host _ _) fun _ => Keeps.ret dispatched.result) rfl

/-- The repaired call acts on the host as the guard and the tool do. -/
lemma runRepaired_effects (toolName : String) (args : Arguments D) (s : Session D W G L) :
    (runRepaired guard toolName args s).2.host.effects =
      (guard.guarded toolName args s.host).2.effects := by
  let counted : Session D W G L :=
    { s with attempt := { s.attempt with turnCount := s.attempt.turnCount + 1 } }
  have hcount : (Session.setAttempt fun attempt =>
      { attempt with turnCount := attempt.turnCount + 1 }) s = (.ok (), counted) := rfl
  have hvalidate : (Session.onHost (guard.validateToolCall toolName args) :
      Program (Session D W G L) _ _) counted =
        ((guard.validateToolCall toolName args s.host).1,
          { counted with host := (guard.validateToolCall toolName args s.host).2 }) := rfl
  unfold runRepaired
  rw [Program.bind_ok hcount, Program.bind_apply, hvalidate]
  unfold ScopeGuard.guarded
  rw [Program.bind_apply]
  generalize guard.validateToolCall toolName args s.host = result
  obtain ⟨⟨fault⟩ | ⟨answer⟩, host⟩ := result
  · rfl
  · exact congrArg Host.effects (dispatchRecorded_host guard toolName args _)

/-- A call at the limit of its attempt does nothing. -/
lemma executeTool_blocked {call : ToolCall D L} {s : Session D W G L}
    (h : s.attempt.maxTurns ≤ s.attempt.turnCount) :
    (x.executeTool guard call s).2.host = s.host := by
  have hread : (Program.read Session.attempt) s = ((.ok s.attempt : Except Fault _), s) := rfl
  unfold executeTool
  rw [Program.bind_ok hread, if_pos h]
  rfl

lemma executeTool_inLimit {call : ToolCall D L} {s : Session D W G L}
    (h : ¬ s.attempt.maxTurns ≤ s.attempt.turnCount) :
    x.executeTool guard call s = x.runCall guard call s := by
  have hread : (Program.read Session.attempt) s = ((.ok s.attempt : Except Fault _), s) := rfl
  unfold executeTool
  rw [Program.bind_ok hread, if_neg h]

lemma rejectRepair_host (call : ToolCall D L) (error : PyStr) (s : Session D W G L) :
    (rejectRepair call error s).2.host = s.host :=
  Keeps.final (P := fun s' : Session D W G L => s'.host = s.host)
    (Keeps.bind (record_host _ _) fun _ => Keeps.ret _) rfl

/-- A call within the limit goes through the guard when its arguments are repaired, and does
nothing otherwise. -/
lemma runCall_effects (call : ToolCall D L) (s : Session D W G L) :
    (x.runCall guard call s).2.host.effects =
      match (x.repair call s.caller).1 with
      | .ok (.success args _) => (guard.guarded call.toolName args s.host).2.effects
      | _ => s.host.effects := by
  have hrepair : (Session.onCaller (x.repair call) : Program (Session D W G L) _ _) s =
      ((x.repair call s.caller).1, { s with caller := (x.repair call s.caller).2 }) := rfl
  unfold runCall
  rw [Program.bind_apply, hrepair]
  generalize x.repair call s.caller = result
  obtain ⟨⟨fault⟩ | ⟨⟨args, strategy⟩ | ⟨error⟩⟩, caller⟩ := result
  · rfl
  · exact runRepaired_effects guard call.toolName args _
  · exact congrArg Host.effects (rejectRepair_host call error _)

/-- A call stays governed exactly when it does not bypass the guard. -/
lemma governed_iff (call : ToolCall D L) (s : Session D W G L) :
    x.Governed guard call s ↔ ¬ x.Bypasses guard call s := by
  by_cases hlimit : s.attempt.maxTurns ≤ s.attempt.turnCount
  · refine iff_of_true (fun hnew => ?_) fun h => absurd hlimit (not_le.mpr h.inLimit)
    rw [x.executeTool_blocked guard hlimit] at hnew
    exact absurd rfl hnew
  · have heffects := x.runCall_effects guard call s
    rw [← x.executeTool_inLimit guard hlimit] at heffects
    cases hrepair : x.repair call s.caller with
    | mk result caller =>
    rw [hrepair] at heffects
    obtain ⟨fault⟩ | ⟨⟨args, strategy⟩ | ⟨error⟩⟩ := result
    · refine iff_of_true (fun hnew => absurd heffects hnew) ?_
      rintro ⟨-, -, -, args, strategy, caller', hsuccess, -⟩
      rw [hrepair] at hsuccess
      cases hsuccess
    · have hsplit := guard.guarded_unaccepted_iff call.toolName args s.host
      constructor
      · rintro hgoverned ⟨-, hgate, hunlisted, args', strategy', caller', hsuccess, hperforms⟩
        rw [hrepair] at hsuccess
        cases hsuccess
        obtain ⟨hnew, hrefused⟩ := hsplit.mpr ⟨hgate, hunlisted, hperforms⟩
        obtain ⟨args'', strategy'', caller'', hsuccess, haccepted⟩ := hgoverned (heffects ▸ hnew)
        rw [hrepair] at hsuccess
        cases hsuccess
        exact hrefused haccepted
      · intro hno hnew
        refine ⟨args, strategy, caller, hrepair, ?_⟩
        by_contra hrefused
        rw [heffects] at hnew
        obtain ⟨hgate, hunlisted, hperforms⟩ := hsplit.mp ⟨hnew, hrefused⟩
        exact hno ⟨not_le.mp hlimit, hgate, hunlisted, args, strategy, caller, hrepair, hperforms⟩
    · refine iff_of_true (fun hnew => absurd heffects hnew) ?_
      rintro ⟨-, -, -, args, strategy, caller', hsuccess, -⟩
      rw [hrepair] at hsuccess
      cases hsuccess

/-! ## Sequences of calls -/

/-- What a caller does with an executor: a tool call, or the start of another attempt. -/
inductive Step (D L : Type)
  | call (call : ToolCall D L)
  | newAttempt (attempt : ExecutionAttempt D)

/-- The session after a step; an exception goes to the caller, who goes on. -/
def runStep (s : Session D W G L) : Step D L → Session D W G L
  | .call call => (x.executeTool guard call s).2
  | .newAttempt attempt => { s with attempt := attempt }

def runSteps (steps : List (Step D L)) (s : Session D W G L) : Session D W G L :=
  steps.foldl (x.runStep guard) s

/-- In a sequence of tool calls everything that is done was accepted by the guard exactly if no call
bypasses the guard in the state that it finds. -/
theorem calls_governed_iff (steps : List (Step D L)) (s : Session D W G L) :
    (∀ before call after, steps = before ++ .call call :: after →
        x.Governed guard call (x.runSteps guard before s)) ↔
      ∀ before call after, steps = before ++ .call call :: after →
        ¬ x.Bypasses guard call (x.runSteps guard before s) := by
  constructor
  · intro h before call after heq
    exact (x.governed_iff guard call _).mp (h before call after heq)
  · intro h before call after heq
    exact (x.governed_iff guard call _).mpr (h before call after heq)

end AgentExecutor

/-! ## A diff that is not allocated -/

/-- An environment with the reader alone. -/
def readerGuard : ScopeGuard Empty (List (FilePath × PyStr)) Unit where
  platform := memoryPlatform
  taskEnv := { agentRole := "QA_TEST_AGENT", availableGovernedTools := ["filesystem.read"] }
  worktreePath := memoryPlatform.resolveRoot "/srv/wt1"
  policyGate := none

def diffCall : ToolCall Empty Unit where
  toolName := "git.diff"
  args := .dict ⟨[], List.nodup_nil⟩

def readerSession : Session Empty (List (FilePath × PyStr)) Unit Unit where
  host := { disk := [], gate := () }
  attempt := { attemptId := "att_1", taskId := "T1", role := "QA_TEST_AGENT" }
  caller := ()

/-- The executor takes the diff for an agent that may only read. -/
theorem unlisted_diff_performed :
    ¬ ∀ before call after, [.call diffCall] = before ++ AgentExecutor.Step.call call :: after →
      memoryExecutor.Governed readerGuard call
        (memoryExecutor.runSteps readerGuard before readerSession) := by
  intro hgoverned
  refine (memoryExecutor.governed_iff readerGuard diffCall readerSession).mp
    (hgoverned [] diffCall [] rfl) ⟨by decide, rfl, by decide, ?_⟩
  exact ⟨⟨[], List.nodup_nil⟩, .noop, (), rfl, .inr rfl⟩

end AgentSystem.Executor
