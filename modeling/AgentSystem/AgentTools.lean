import AgentSystem.PipelineModels
import AgentSystem.Programs

/-!
# The tools of the agent loops

The manifest with the allowlist of tools, the approval of sensitive tools,
`AgentEngine.execute_tool` and the tool calls of one model response, as both loops of `AgentRouter`
run them.
-/
namespace AgentSystem.Router

open Programs Pipeline

variable {W A α : Type}

inductive Exn
  | cancelled
  | raised (kind message : String)
  deriving DecidableEq

/-- `str(error)`. -/
def Exn.message : Exn → String
  | cancelled => ""
  | raised _ message => message

structure ToolCall (A : Type) where
  name : String
  arguments : A

inductive Message (A : Type)
  | user (content : String)
  | assistant (content : String)
  | toolRequest (call : ToolCall A)
  | toolResult (name content : String)

structure Usage where
  prompt : ℕ := 0
  completion : ℕ := 0
  total : ℕ := 0
  deriving DecidableEq

namespace Usage

def add (u v : Usage) : Usage :=
  ⟨u.prompt + v.prompt, u.completion + v.completion, u.total + v.total⟩

/-- The line that ends every response. -/
def summary (u : Usage) : String :=
  s!"[Token Usage: Prompt: {u.prompt}, Completion: {u.completion}, Total: {u.total}]"

end Usage

/-! ## Front matter -/

/-- A value in a list of a manifest. -/
inductive YamlItem
  | str (s : String)
  | other (text : String)
  deriving DecidableEq

inductive ToolsEntry
  | missing
  | notList
  | list (items : List YamlItem)
  deriving DecidableEq

/-- What the router reads of a dictionary in front matter; the last field is the text that the
schemas are checked on. -/
structure FrontMatter where
  tools : ToolsEntry := .missing
  authorizationLevel : Option YamlItem := none
  sensitive : Bool := false
  requiredRole : Option String := none
  inputs : String := ""

/-- `yaml.safe_load`. -/
inductive Yaml
  | dict (fields : FrontMatter)
  | other

/-- The text from the first `---` of a list on, with what stands before it. -/
def breakMark : List Char → Option (List Char × List Char)
  | '-' :: '-' :: '-' :: rest => some ([], rest)
  | c :: rest => (breakMark rest).map fun parts => (c :: parts.1, parts.2)
  | [] => none

/-- `parts[1]` of `content.split("---", 2)`, `none` for fewer than three parts. -/
def frontMatterText (content : String) : Option String := do
  let (_, rest) ← breakMark content.toList
  let (text, _) ← breakMark rest
  pure (String.ofList text)

/-! ## The runtime -/

/-- The decision of a human about a request. -/
inductive Decision
  | approved
  | denied
  | hijacked (value : String)
  deriving DecidableEq

inductive ApprovalRequest (A : Type)
  | tool (call : ToolCall A)
  | continuation (iteration : ℤ)

/-- What the tools find outside of the router: files and YAML, schemas, the human, the counters'
limits and the registry of the engine, and the order in which the event loop runs awaited calls. -/
structure Runtime (W A : Type) where
  agentMd : W → Option (Except Exn String)
  skillFile : String → W → Option (Except Exn String)
  safeLoad : String → Except Exn Yaml
  checkContract : FrontMatter → A → W → Except Exn Unit
  testing : Bool
  testLoopApproval : Bool
  accountRole : W → String
  decide : ApprovalRequest A → Program W Exn Decision
  nextOnboardingFile : W → Option String
  maxTurns : ℤ
  maxContextChars : ℤ
  argumentsLength : A → ℕ
  exportHandoff : String → Program W Exn String
  toolsRegistry : W → List String
  invoke : ToolCall A → Program W Exn String
  strip : String → String
  arrange : List (ToolCall A) → W → List (ℕ × ToolCall A)
  arrange_perm : ∀ calls w, (arrange calls w).Perm (calls.zipIdx.map Prod.swap)

structure Conversation where
  user : String
  assistant : String
  deriving DecidableEq

/-- The variables of a loop, the working memory of the session, the counters of the engine, and what
was done: the calls given to `execute_tool`, those that passed its allowlist, and the number of
generation requests after the classification. -/
structure LoopState (W A : Type) where
  world : W
  iteration : ℤ := 0
  finalResponse : String := ""
  messages : List (Message A) := []
  totalToolCalls : ℤ := 0
  failureCounts : String → ℕ := fun _ => 0
  resolvedAllowed : List YamlItem := []
  usage : Usage := {}
  memory : List Conversation := []
  turnCount : ℤ := 0
  contextChars : ℤ := 0
  started : List (ToolCall A) := []
  admitted : List (ToolCall A) := []
  requests : ℕ := 0

namespace LoopState

def onWorld (x : Program W Exn α) : Program (LoopState W A) Exn α :=
  .within LoopState.world (fun world s => { s with world := world }) x

/-- A check that changes nothing. -/
def check (f : LoopState W A → Except Exn α) : Program (LoopState W A) Exn α := fun s => (f s, s)

end LoopState

namespace Runtime

variable (r : Runtime W A)

/-! ## The allowlist -/

/-- The front matter of `agent.md`, `none` when the manifest is missing or does not parse. -/
def manifest (w : W) : Option FrontMatter :=
  match r.agentMd w with
  | some (.ok content) =>
      match (frontMatterText content).map r.safeLoad with
      | some (.ok (.dict fields)) => some fields
      | _ => none
  | _ => none

/-- The list of tools in the manifest, empty where it fails. -/
def papTools (w : W) : List YamlItem :=
  match (r.manifest w).map FrontMatter.tools with
  | some (.list items) => items
  | _ => []

/-- `_resolve_allowed_tools`. -/
def resolveAllowedTools (callerAllowed : Option (List String)) (w : W) : List YamlItem :=
  match callerAllowed with
  | none => r.papTools w
  | some allowed => (r.papTools w).filter fun tool => tool ∈ allowed.map YamlItem.str

/-- `_get_authorization_level`. -/
def authorizationLevel (w : W) : YamlItem :=
  ((r.manifest w).bind FrontMatter.authorizationLevel).getD (.str "standard")

/-! ## Skills -/

/-- `describe_skill`: the contract, or the exception; `FileNotFoundError` is kept apart. -/
def describeSkill (skillId : String) (w : W) : Except Exn FrontMatter :=
  match r.skillFile skillId w with
  | none =>
      .error (.raised "FileNotFoundError"
        s!"Skill contract not found for ID '{skillId}' in local or global directories")
  | some (.error error) => .error error
  | some (.ok content) =>
      if startsWith content "---" then
        match frontMatterText content with
        | none =>
            .error (.raised "ValueError"
              s!"Skill contract for '{skillId}' is missing frontmatter end")
        | some text =>
            match r.safeLoad text with
            | .error error => .error error
            | .ok (.dict fields) => .ok fields
            | .ok .other =>
                .error (.raised "ValueError"
                  s!"Skill contract frontmatter for '{skillId}' is not a dictionary")
      else
        .error (.raised "ValueError"
          s!"Skill contract for '{skillId}' is missing frontmatter start")

def roleLevel (role : String) : ℕ :=
  if role = "admin" then 3 else if role = "developer" then 2 else 1

/-- `validate_call`. -/
def validateCall (call : ToolCall A) (w : W) : Except Exn Unit :=
  match r.describeSkill call.name w with
  | .error (.raised "FileNotFoundError" _) =>
      if r.testing || startsWith call.name "mock" then .ok ()
      else
        .error (.raised "ToolValidationError" s!"Skill contract not found for ID '{call.name}'")
  | .error error => .error error
  | .ok contract =>
      let userRole := r.accountRole w
      let requiredRole := contract.requiredRole.getD ""
      if requiredRole ≠ "" ∧ roleLevel userRole < roleLevel requiredRole then
        .error (.raised "PermissionError"
          (s!"RBAC authorization failed: role '{userRole}' is insufficient for tool " ++
            s!"'{call.name}' requiring role '{requiredRole}'"))
      else r.checkContract contract call.arguments w

/-- A call that a human has to approve. -/
def needsApproval (call : ToolCall A) (w : W) : Bool :=
  (match r.describeSkill call.name w with
    | .ok contract => contract.sensitive
    | .error _ => false) || r.authorizationLevel w = .str "interactive-approval"

/-! ## One tool call -/

/-- `_turn_count` and `_context_chars` after a call. -/
def countTurn (call : ToolCall A) (s : LoopState W A) : LoopState W A :=
  { s with
    turnCount := s.turnCount + 1
    contextChars := s.contextChars + r.argumentsLength call.arguments }

/-- Why the engine hands a thread off. -/
def handoffReason (s : LoopState W A) : Option String :=
  if 0 < r.maxTurns ∧ r.maxTurns < s.turnCount then
    some s!"Turn count {s.turnCount} exceeds max_turns {r.maxTurns}"
  else if 0 < r.maxContextChars ∧ r.maxContextChars < s.contextChars then
    some (s!"Context length {s.contextChars} chars exceeds max_context_chars " ++
      s!"{r.maxContextChars}")
  else none

/-- `allowed_tools is not None and tool_name not in allowed_tools`. -/
def isForbidden (allowedTools : Option (List String)) (name : String) : Bool :=
  match allowedTools with
  | none => false
  | some allowed => name ∉ allowed

/-- A call that passed the allowlist. -/
def runTool (call : ToolCall A) : Program (LoopState W A) Exn String := do
  .update fun s => { s with admitted := s.admitted ++ [call] }
  let registry ← .read fun s => r.toolsRegistry s.world
  if call.name ∈ registry then LoopState.onWorld (r.invoke call)
  else
    .raise (.raised "KeyError" (s!"\"Unknown tool '{call.name}'. Available tools: " ++
      ", ".intercalate (registry.mergeSort (· ≤ ·)) ++ "\""))

/-- The limits of the engine, then the allowlist of the request. -/
def checkLimits (call : ToolCall A) (allowedTools : Option (List String)) :
    Program (LoopState W A) Exn String := do
  .update (r.countTurn call)
  match ← .read r.handoffReason with
  | some reason =>
      let handoffId ← LoopState.onWorld (r.exportHandoff s!"Auto-handoff: {reason}")
      .raise (.raised "HandoffRequired"
        s!"Handoff required ({reason}). Handoff packet exported as '{handoffId}'.")
  | none =>
      if isForbidden allowedTools call.name then
        .raise (.raised "PermissionError" s!"Tool '{call.name}' is not allowed for this request.")
      else r.runTool call

/-- `AgentEngine.execute_tool`. -/
def executeTool (call : ToolCall A) (allowedTools : Option (List String)) :
    Program (LoopState W A) Exn String := do
  .update fun s => { s with started := s.started ++ [call] }
  match ← .read fun s => r.nextOnboardingFile s.world with
  | some expected =>
      .raise (.raised "PermissionError" ("Onboarding sequence incomplete. Must read agent.md -> " ++
        "skills.md -> agent_tasks.md -> handoff_guide.md before calling tools. Next required " ++
        s!"file: {expected}."))
  | none => r.checkLimits call allowedTools

/-- `_wait_for_approval`. -/
def waitForApproval (request : ApprovalRequest A) : Program (LoopState W A) Exn Decision :=
  LoopState.onWorld (r.decide request)

/-- A tool whose request is decided. -/
def executeDecided (call : ToolCall A) (allowedTools : Option (List String)) :
    Decision → Program (LoopState W A) Exn String
  | .approved => r.executeTool call allowedTools
  | .denied =>
      .raise (.raised "ApprovalDeniedError" s!"Human approval denied for tool '{call.name}'")
  | .hijacked value => pure value

/-- `_execute_tool_with_approval`. -/
def executeToolWithApproval (call : ToolCall A) (allowedTools : Option (List String)) :
    Program (LoopState W A) Exn String := do
  if ← .read fun s => r.needsApproval call s.world then
    let decision ← r.waitForApproval (.tool call)
    r.executeDecided call allowedTools decision
  else r.executeTool call allowedTools

/-! ## The calls of a response -/

/-- An awaited call with its position; its exception is a result. -/
def runAwaited (allowedTools : Option (List String)) (task : ℕ × ToolCall A) :
    Program (LoopState W A) Exn (ℕ × Except Exn String) :=
  Program.handle (do
      let value ← r.executeToolWithApproval task.2 allowedTools
      pure (task.1, .ok value))
    fun error => pure (task.1, .error error)

/-- `asyncio.gather(*tasks, return_exceptions=True)`: the results in the order of the calls. -/
def gather (calls : List (ToolCall A)) (allowedTools : Option (List String)) :
    Program (LoopState W A) Exn (List (Except Exn String)) := do
  let tasks ← .read fun s => r.arrange calls s.world
  let results ← Program.collect (r.runAwaited allowedTools) tasks
  pure ((List.range calls.length).filterMap fun i => results.lookup i)

/-- The text of a result. -/
def resultText : Except Exn String → String
  | .ok value => value
  | .error .cancelled => Exn.cancelled.message
  | .error error => s!"Error: tool execution failed: {error.message}"

def failureWarning (name : String) : String :=
  s!"System Warning: You have failed using the tool '{name}' 3 times. " ++
    "Please stop trying and ask the user for clarification."

/-- The failure count of a tool and the messages after a result. -/
def recordResult (call : ToolCall A) (text : String) (s : LoopState W A) : LoopState W A :=
  let count := if startsWith text "Error:" then s.failureCounts call.name + 1 else 0
  { s with
    failureCounts := Function.update s.failureCounts call.name count
    messages := s.messages ++ [.toolRequest call, .toolResult call.name text] ++
      if 3 ≤ count then [.user (failureWarning call.name)] else [] }

/-- A result that hands the session over. -/
def isHandoff (text : String) : Bool := startsWith text "HANDOFF_TO:"

/-- The response that hands the session over to another agent. -/
def handoffResponse (text : String) : String :=
  let target := r.strip (text.drop 11).toString
  s!"[Session handoff requested to {target}]"

end Runtime

end AgentSystem.Router
