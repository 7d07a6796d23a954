import AgentSystem.ScopeGuard

/-!
# The agent executor

`AgentExecutor.execute_plan` applies the file mutations of a plan in a worktree, `execute_tool` runs
one tool call through the repair of its arguments and the scope guard.
-/
namespace AgentSystem.Executor

open Json Audit Programs PolicyGate Pipeline

variable {D W G L α : Type}

structure ToolCallEvidence (D : Type) where
  toolName : String
  arguments : List (PyStr × PyValue D)
  exitCode : ℤ := 0
  outputSnippet : PyStr := []

structure ExecutionAttempt (D : Type) where
  attemptId : String
  taskId : String
  role : String
  turnCount : ℤ := 0
  maxTurns : ℤ := 3
  status : VerificationStatus := .notRun
  evidenceTrail : List (ToolCallEvidence D) := []
  errorMessage : Option String := none

structure AgentExecutor (D W G : Type) where
  platform : Platform D W
  texts : Texts D
  taskEnv : Option (TaskEnvironment D) := none
  policyGate : Option (PolicyGateRequest D → Program G Fault PolicyGateDecision) := none

inductive AppliedMutation
  | written (filePath : PyStr) (bytesWritten : ℕ)
  | deleted (filePath : PyStr)

structure PlanResult (D W G : Type) where
  guard : ScopeGuard D W G
  attempt : ExecutionAttempt D
  appliedMutations : List AppliedMutation

variable [Interpreter D] [Coercion D]

/-! ## Plans -/

namespace ScopeGuard

variable (guard : ScopeGuard D W G)

/-- `if abs_p.exists(): abs_p.unlink()`. -/
def deleteFile (path : FilePath) : Program (Host D W G) Fault Unit := do
  if ← .read fun h => guard.platform.exists_ path h.disk then
    Host.perform (.delete path)
    Host.onDisk (guard.platform.unlink path)
  else pure ()

def writeFile (mutation : FileMutationSpec) : Program (Host D W G) Fault (Option AppliedMutation) := do
  let written ← guard.filesystemWrite (strValue mutation.filePath) (strValue mutation.content)
    (.bool (mutation.action = "append"))
  pure (some (.written written.1 written.2))

def removeFile (mutation : FileMutationSpec) :
    Program (Host D W G) Fault (Option AppliedMutation) := do
  let path ← Host.query (guard.resolveAndVerifyPath (strValue mutation.filePath))
  guard.deleteFile path
  pure (some (.deleted (guard.relPath path)))

/-- One of the file mutations of a plan; an unknown action does nothing. -/
def applyMutation (mutation : FileMutationSpec) :
    Program (Host D W G) Fault (Option AppliedMutation) :=
  if mutation.action = "write" ∨ mutation.action = "append" then guard.writeFile mutation
  else if mutation.action = "delete" then guard.removeFile mutation
  else pure none

end ScopeGuard

namespace AgentExecutor

variable (x : AgentExecutor D W G)

/-- The given environment, or one that the plan describes. -/
def environment (session : WorktreeSessionConfig) (plan : ScopedMutationPlan) : TaskEnvironment D :=
  x.taskEnv.getD
    { agentRole := plan.assignedRole
      mutableScope := plan.targetFiles
      executionEnvironment := some session }

def guard (session : WorktreeSessionConfig) (plan : ScopedMutationPlan) : ScopeGuard D W G where
  platform := x.platform
  taskEnv := x.environment session plan
  worktreePath := x.platform.resolveRoot session.worktreePath
  policyGate := x.policyGate

/-- `stop_condition.get("max_turns", 3)` as the integer that the attempt takes. -/
def maxTurns (session : WorktreeSessionConfig) (plan : ScopedMutationPlan) : Option ℤ :=
  x.platform.asInt
    ((PySequence.getItem (x.environment session plan).stopCondition "max_turns").getD (.int 3))

/-- `execute_plan`. -/
def executePlan (session : WorktreeSessionConfig) (plan : ScopedMutationPlan) :
    Program (Host D W G) Fault (PlanResult D W G) :=
  match validateScopeCompliance plan.assignedRole plan.targetFiles with
  | some error =>
      .raise (.scopeExpansionRequest plan.assignedRole (toPyStr (plan.targetFiles.headD "")) []
        error)
  | none =>
      match x.maxTurns session plan with
      | none => .raise (.other "ValidationError" [])
      | some maxTurns => do
          let applied ← Program.collect (x.guard session plan).applyMutation plan.fileMutations
          pure
            { guard := x.guard session plan
              attempt :=
                { attemptId := "att_" ++ firstChars 8 session.sessionId
                  taskId := plan.taskId
                  role := plan.assignedRole
                  maxTurns := maxTurns }
              appliedMutations := applied.reduceOption }

end AgentExecutor

/-! ## Tool calls -/

/-- What the calls of an attempt change; the last part is the state of the model that repairs. -/
structure Session (D W G L : Type) where
  host : Host D W G
  attempt : ExecutionAttempt D
  caller : L

namespace Session

def onHost (p : Program (Host D W G) Fault α) : Program (Session D W G L) Fault α :=
  .within Session.host (fun host s => { s with host := host }) p

def onCaller (p : Program L Fault α) : Program (Session D W G L) Fault α :=
  .within Session.caller (fun caller s => { s with caller := caller }) p

def setAttempt (f : ExecutionAttempt D → ExecutionAttempt D) :
    Program (Session D W G L) Fault Unit :=
  .update fun s => { s with attempt := f s.attempt }

/-- A record in the evidence trail; its hash is taken over the snippet in UTF-8. -/
def record (evidence : ToolCallEvidence D) : Program (Session D W G L) Fault Unit :=
  if (encode evidence.outputSnippet).isNone then .raise (.other "UnicodeEncodeError" [])
  else
    setAttempt fun attempt =>
      { attempt with evidenceTrail := attempt.evidenceTrail ++ [evidence] }

end Session

structure ToolCall (D L : Type) where
  toolName : String
  args : RawArguments D
  schema : Option Schema := none
  llmCaller : Option (RepairPrompt D → Program L Fault (RawArguments D)) := none

/-- The status and the error of a call that is not dispatched, or what the tool returns. -/
inductive ToolResult
  | blocked (error : String)
  | failed (error : PyStr)
  | content (content : PyStr)
  | written (filePath : PyStr) (bytesWritten : ℕ)
  | shell (process : CompletedProcess)
  | diff (diff : PyStr)

/-- What a dispatched tool gives: its result, exit code and snippet. -/
structure Dispatched where
  result : ToolResult
  exitCode : ℤ := 0
  snippet : PyStr

/-- `args[key]`. -/
def Arguments.require (args : Arguments D) (key : String) : Except Fault (PyValue D) :=
  match args.find key with
  | some value => .ok value
  | none => .error (.other "KeyError" (toPyStr s!"'{key}'"))

namespace ScopeGuard

variable (guard : ScopeGuard D W G)

def dispatchRead (args : Arguments D) : Program (Host D W G) Fault Dispatched := do
  let filePath ← Host.query fun _ => args.require "file_path"
  let content ← guard.filesystemRead filePath (args.get "start_line") (args.get "end_line")
  pure { result := .content content, snippet := content.take 200 }

def dispatchWrite (args : Arguments D) : Program (Host D W G) Fault Dispatched := do
  let filePath ← Host.query fun _ => args.require "file_path"
  let content ← Host.query fun _ => args.require "content"
  let written ← guard.filesystemWrite filePath content ((args.find "append").getD (.bool false))
  pure
    { result := .written written.1 written.2
      snippet := toPyStr s!"Wrote {written.2} bytes to " ++ (formatValue filePath).getD [] }

def dispatchShell (args : Arguments D) : Program (Host D W G) Fault Dispatched := do
  let command ← Host.query fun _ => args.require "command"
  let process ← guard.shellExec command (args.get "timeout_seconds")
  pure
    { result := .shell process
      exitCode := process.returncode
      snippet := (process.stdout ++ process.stderr).take 200 }

def dispatchDiff : Program (Host D W G) Fault Dispatched := do
  let diff ← guard.gitDiff
  pure { result := .diff diff, snippet := diff.take 200 }

/-- The branch of a tool. -/
def dispatch (toolName : String) (args : Arguments D) : Program (Host D W G) Fault Dispatched :=
  if toolName = "filesystem.read" then guard.dispatchRead args
  else if toolName = "filesystem.write" then guard.dispatchWrite args
  else if toolName = "shell.exec" then guard.dispatchShell args
  else if toolName = "git.diff" then guard.dispatchDiff
  else .raise (.other "ValueError" (toPyStr s!"Unknown tool: {toolName}"))

end ScopeGuard

/-- `str(args)`, whose text is the one of the value. -/
def RawArguments.value : RawArguments D → PyValue D
  | .dict args => .dict (args.items.map fun item => (.str item.1, item.2))
  | .text s => .str s
  | .other value => value

/-- The limit that stops an attempt. -/
def loopLimitMessage (maxTurns : ℤ) : String :=
  s!"Loop limit safety gate triggered: attempt reached max_turns ({maxTurns}). Halting execution " ++
    "for human-in-the-loop review."

namespace AgentExecutor

variable (x : AgentExecutor D W G)

/-- The repair of the arguments of a call. -/
def repair (call : ToolCall D L) : Program L Fault (RepairResult D) :=
  validateAndRepair x.texts call.llmCaller (.other "ValueError" []) call.toolName call.args
    call.schema 2

/-- A dispatched tool leaves evidence, also when it raises. -/
def dispatchRecorded (guard : ScopeGuard D W G) (toolName : String) (args : Arguments D) :
    Program (Session D W G L) Fault ToolResult := do
  let evidence (exitCode : ℤ) (snippet : PyStr) : ToolCallEvidence D :=
    { toolName := toolName
      arguments := args.items.filter fun item => item.1 ≠ toPyStr "content"
      exitCode := exitCode
      outputSnippet := snippet }
  let dispatched ← (Session.onHost (guard.dispatch toolName args)).handle fun fault => do
    Session.record (evidence 1 (fault.message D))
    .raise fault
  Session.record (evidence dispatched.exitCode dispatched.snippet)
  pure dispatched.result

/-- A call whose arguments are repaired: the turn counts, the guard is asked, the tool runs. -/
def runRepaired (guard : ScopeGuard D W G) (toolName : String) (args : Arguments D) :
    Program (Session D W G L) Fault ToolResult := do
  Session.setAttempt fun attempt => { attempt with turnCount := attempt.turnCount + 1 }
  let _ ← Session.onHost (guard.validateToolCall toolName args)
  dispatchRecorded guard toolName args

/-- A call whose arguments stay invalid. -/
def rejectRepair (call : ToolCall D L) (error : PyStr) :
    Program (Session D W G L) Fault ToolResult := do
  let snippet := toPyStr "Protocol validation failed: " ++ error
  Session.record
    { toolName := call.toolName
      arguments := [(toPyStr "raw_input",
        .str (((formatValue call.args.value).getD []).take 200))]
      exitCode := 1
      outputSnippet := snippet }
  pure (.failed snippet)

/-- The part of `execute_tool` behind the turn limit. -/
def runCall (guard : ScopeGuard D W G) (call : ToolCall D L) :
    Program (Session D W G L) Fault ToolResult := do
  match ← Session.onCaller (x.repair call) with
  | .failure error => rejectRepair call error
  | .success args _ => runRepaired guard call.toolName args

/-- `execute_tool`. -/
def executeTool (guard : ScopeGuard D W G) (call : ToolCall D L) :
    Program (Session D W G L) Fault ToolResult := do
  let attempt ← .read Session.attempt
  if attempt.maxTurns ≤ attempt.turnCount then
    Session.setAttempt fun attempt =>
      { attempt with
        status := .blocked
        errorMessage := some (loopLimitMessage attempt.maxTurns) }
    pure (.blocked (loopLimitMessage attempt.maxTurns))
  else x.runCall guard call

end AgentExecutor

/-! ## A worktree in memory -/

/-- Files without links, a shell that does nothing, and no commands that the guard looks for. -/
def memoryPlatform : Platform Empty (List (FilePath × PyStr)) where
  search _ _ := false
  resolveRoot path := components (toPyStr path)
  resolve root path _ := .ok ((components path).foldl
    (fun path part => if part = toPyStr ".." then path.dropLast else path ++ [part]) root)
  isFile path disk := (disk.lookup path).isSome
  exists_ path disk := (disk.lookup path).isSome
  readText path disk :=
    ((disk.lookup path).map Except.ok).getD (.error (.other "FileNotFoundError" []))
  splitlines text := text.splitOn (codePoint '\n')
  slice lines _ _ := .ok lines
  write path content append disk :=
    match content with
    | .str text =>
        let old := if append then (disk.lookup path).getD [] else []
        (.ok (), PySequence.setItem disk path (old ++ text))
    | _ => (.error (.other "TypeError" []), PySequence.setItem disk path [])
  unlink path disk := (.ok (), disk.filter fun file => file.1 ≠ path)
  run _ _ := pure { returncode := 0, stdout := [], stderr := [] }
  gitDiff := pure []
  asInt
    | .int n => some n
    | _ => none

/-- Texts that are no arguments, and the conversions of ASCII digits. -/
def plainTexts : Texts Empty where
  parse _ := .error (toPyStr "Failed to parse raw arguments as JSON")
  isDigit text := text ≠ [] && text.all fun c => codePoint '0' ≤ c && c ≤ codePoint '9'
  int text := ((encode text).map String.toInt?).getD none
  float _ := none
  lower text := text
  str := formatValue

def memoryExecutor : AgentExecutor Empty (List (FilePath × PyStr)) Unit where
  platform := memoryPlatform
  texts := plainTexts

end AgentSystem.Executor
