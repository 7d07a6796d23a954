import AgentSystem.AgentTools

/-!
# The agent loops

`AgentRouter.run_agent_loop` and `stream_agent_loop`: two loops over the responses of a model, one
with whole responses and one with the events of a stream.
-/
namespace AgentSystem.Router

open Programs Pipeline

variable {W A α : Type}

structure Request (A : Type) where
  systemPrompt : String
  messages : List (Message A)
  toolSchemas : List String

/-- The type of a response with its data. -/
inductive Reply (A : Type)
  | error (data : String)
  | text (data : String)
  | toolCall (call : ToolCall A)
  | toolCalls (calls : List (ToolCall A))
  | other (type : String)

/-- A response, or an event of a stream. -/
structure Response (A : Type) where
  reply : Reply A
  usage : Option Usage := none

/-- The events of a stream, with the exception that ends it. -/
structure ResponseStream (A : Type) where
  events : List (Response A)
  failure : Option Exn := none

inductive Intent
  | task
  | chat
  deriving DecidableEq

/-- The router: its limits, the provider with both ways to generate, and what prepares and ends a
run. -/
structure AgentRouter (W A : Type) extends Runtime W A where
  maxIterations : ℤ := 5
  maxToolCalls : ℤ := 15
  resolveAccount : Program W Exn Unit
  generateContent : Request A → Program W Exn (Response A)
  generateContentStream : Request A → W → ResponseStream A × W
  renderPrompt : String → Program W Exn String
  memoryContext : String → Program W Exn String
  recordPlan : Intent → List YamlItem → Program W Exn Unit
  awaitResume : Program W Exn Unit
  preflight : Request A → Program W Exn Unit
  finishTurn : String → W → W
  upper : String → String

/-! ## Parts of both loops -/

namespace LoopState

/-- The state at the start of a run. -/
def fresh (s : LoopState W A) : LoopState W A where
  world := s.world
  memory := s.memory
  turnCount := s.turnCount
  contextChars := s.contextChars

def setFinal (text : String) : Program (LoopState W A) Exn Unit :=
  .update fun s => { s with finalResponse := text }

/-- The end of a loop with a final response. -/
def finish (text : String) : Program (LoopState W A) Exn Bool := do
  setFinal text
  pure false

def recordUsage (usage : Option Usage) : Program (LoopState W A) Exn Unit :=
  .update fun s => { s with usage := s.usage.add (usage.getD {}) }

/-- `try … except Exception` with a warning. -/
def tolerate (x : Program (LoopState W A) Exn α) : Program (LoopState W A) Exn (Option α) :=
  Program.handle (some <$> x) fun error =>
    match error with
    | .cancelled => .raise .cancelled
    | .raised _ _ => pure none

/-- `append_conversation`: twenty exchanges are kept. -/
def appendConversation (entry : Conversation) (memory : List Conversation) : List Conversation :=
  (memory ++ [entry]).drop (memory.length + 1 - 20)

/-- `_build_message_history`. -/
def buildMessageHistory (currentInput : String) (memory : List Conversation) : List (Message A) :=
  (memory.drop (memory.length - 5)).flatMap (fun c => [.user c.user, .assistant c.assistant]) ++
    [.user currentInput]

end LoopState

/-- `while …: if not round(): break`. -/
def rounds {σ : Type} (round : Program σ Exn Bool) : ℕ → Program σ Exn Unit
  | 0 => pure ()
  | n + 1 => do
      if ← round then rounds round n
      else pure ()

def deniedMessage : String := "Error: Loop continuation denied by user after 3 iterations."

def generationFailed (data : String) : String := s!"Error: LLM generation failed: {data}"

def cancelledNote : String := "\n[Session cancelled before completion]"

/-- The prompt of the classification. -/
def classificationPrompt (userInput : String) : String :=
  "You are an intent classifier. Determine if the user's input requires executing any tools/tasks " ++
    "(like calculating, fetching data, creating files) or if it is just a simple greeting/chat. " ++
    s!"Reply EXACTLY with 'TASK' or 'CHAT'.\n\nUser input: {userInput}"

/-- What a run keeps through its rounds. -/
structure Context where
  systemPrompt : String
  toolSchemas : List String

namespace AgentRouter

variable (r : AgentRouter W A)

def limitMessage : String :=
  s!"Error: Maximum tool execution limit ({r.maxToolCalls}) exceeded. Force ending loop to " ++
    "prevent runaway costs."

/-- `_classify_intent`. -/
def classifyIntent (userInput : String) : Program (LoopState W A) Exn Intent := do
  let reply ← LoopState.tolerate do
    let response ← LoopState.onWorld (r.generateContent
      { systemPrompt := "You are an intent classifier."
        messages := [.user (classificationPrompt userInput)]
        toolSchemas := [] })
    LoopState.recordUsage response.usage
    pure response.reply
  match reply with
  | none => pure .task
  | some (.text data) => pure (if hasPart (r.upper data) "TASK" then .task else .chat)
  | some _ => pure .chat

/-- The intent of a run; a run with an output schema is a task. -/
def intentOf (userInput : String) (outputSchema : Bool) : Program (LoopState W A) Exn Intent :=
  if outputSchema then pure .task else r.classifyIntent userInput

/-- `get_tool_schemas` by the names of the tools. -/
def toolSchemas (intent : Intent) (resolved : List YamlItem) (w : W) : List String :=
  if intent = .chat then [] else (r.toolsRegistry w).filter fun name => .str name ∈ resolved

/-- What comes before the first round. -/
def setUp (userInput : String) (allowedTools : Option (List String)) (intent : Intent) :
    Program (LoopState W A) Exn Context := do
  let basePrompt ← LoopState.onWorld (r.renderPrompt userInput)
  let memory ← LoopState.tolerate (LoopState.onWorld (r.memoryContext userInput))
  .update fun s => { s with resolvedAllowed := r.resolveAllowedTools allowedTools s.world }
  let schemas ← .read fun s => r.toolSchemas intent s.resolvedAllowed s.world
  let resolved ← .read LoopState.resolvedAllowed
  LoopState.onWorld (r.recordPlan intent resolved)
  .update fun s => { s with messages := LoopState.buildMessageHistory userInput s.memory }
  pure { systemPrompt := basePrompt ++ memory.getD "", toolSchemas := schemas }

/-- The continuation gate from the third iteration on. -/
def continuationGate : Program (LoopState W A) Exn Bool := do
  let iteration ← .read LoopState.iteration
  if 3 ≤ iteration && !(r.testing && !r.testLoopApproval) then
    let decision ← r.waitForApproval (.continuation iteration)
    pure (decision ≠ .denied)
  else pure true

/-- The start of a round; `false` when a human stops the loop. -/
def openRound : Program (LoopState W A) Exn Bool := do
  LoopState.onWorld r.awaitResume
  .update fun s => { s with iteration := s.iteration + 1 }
  r.continuationGate

/-- The request of a round after its estimates. -/
def prepareRequest (context : Context) : Program (LoopState W A) Exn (Request A) := do
  let messages ← .read LoopState.messages
  let request : Request A :=
    { systemPrompt := context.systemPrompt
      messages := messages
      toolSchemas := context.toolSchemas }
  LoopState.onWorld (r.preflight request)
  .update fun s => { s with requests := s.requests + 1 }
  pure request

/-- The memory of the session at the end of a run. -/
def remember (userInput : String) (s : LoopState W A) : LoopState W A :=
  let response := s!"{s.finalResponse}\n\n{s.usage.summary}"
  { s with
    finalResponse := response
    memory := LoopState.appendConversation ⟨userInput, response⟩ s.memory
    world := r.finishTurn userInput s.world }

/-- `except asyncio.CancelledError`. -/
def noteCancelled : Exn → Program (LoopState W A) Exn Unit
  | .cancelled => .update fun s => { s with finalResponse := s.finalResponse ++ cancelledNote }
  | error => .raise error

/-- The last permitted iteration was reached without an error. -/
def exhausted (s : LoopState W A) : Bool :=
  r.maxIterations ≤ s.iteration && !startsWith s.finalResponse "Error:"

/-! ## The plain loop -/

/-- The results of the calls; the first handoff ends them. -/
def settleResults : List (ToolCall A × Except Exn String) →
    Program (LoopState W A) Exn (Option String)
  | [] => pure none
  | (call, result) :: rest => do
      if Runtime.isHandoff (Runtime.resultText result) then
        pure (some (r.handoffResponse (Runtime.resultText result)))
      else do
        .update (Runtime.recordResult call (Runtime.resultText result))
        settleResults rest

/-- `_handle_tool_calls`. -/
def handleToolCalls (calls : List (ToolCall A)) (allowedTools : Option (List String)) :
    Program (LoopState W A) Exn (Option String) := do
  let _ ← Program.collect (fun call => LoopState.check fun s => r.validateCall call s.world) calls
  let results ← r.gather calls allowedTools
  r.settleResults (calls.zip results)

/-- The tool calls of a response: the limit, then the calls. -/
def toolRound (calls : List (ToolCall A)) (allowedTools : Option (List String)) :
    Program (LoopState W A) Exn Bool := do
  .update fun s => { s with totalToolCalls := s.totalToolCalls + calls.length }
  let total ← .read LoopState.totalToolCalls
  if r.maxToolCalls < total then LoopState.finish r.limitMessage
  else
    match ← r.handleToolCalls calls allowedTools with
    | some response => LoopState.finish response
    | none => pure true

/-- What a response leads to; `true` for another round. -/
def settleReply (allowedTools : Option (List String)) :
    Reply A → Program (LoopState W A) Exn Bool
  | .error data => LoopState.finish (generationFailed data)
  | .text data => LoopState.finish data
  | .toolCall call => r.toolRound [call] allowedTools
  | .toolCalls calls => r.toolRound calls allowedTools
  | .other type => LoopState.finish s!"Error: unsupported LLM response type '{type}'"

def generateRound (context : Context) (allowedTools : Option (List String)) :
    Program (LoopState W A) Exn Bool := do
  let request ← r.prepareRequest context
  let response ← LoopState.onWorld (r.generateContent request)
  LoopState.recordUsage response.usage
  r.settleReply allowedTools response.reply

/-- One iteration of the loop; `true` for another one. -/
def round (context : Context) (allowedTools : Option (List String)) :
    Program (LoopState W A) Exn Bool := do
  if ← r.openRound then r.generateRound context allowedTools
  else LoopState.finish deniedMessage

def exhaustedMessage : String :=
  s!"Error: maximum agent iterations reached ({r.maxIterations}). " ++
    "Stopping to avoid an infinite tool loop."

/-- The `finally` block. -/
def close (userInput : String) : Program (LoopState W A) Exn Unit := do
  .update fun s => if r.exhausted s then { s with finalResponse := r.exhaustedMessage } else s
  .update (r.remember userInput)

/-- The rounds with what comes before them. -/
def converse (userInput : String) (allowedTools : Option (List String)) (intent : Intent) :
    Program (LoopState W A) Exn Unit := do
  let context ← r.setUp userInput allowedTools intent
  rounds (r.round context allowedTools) r.maxIterations.toNat

/-- `run_agent_loop`. -/
def runAgentLoop (userInput : String) (allowedTools : Option (List String))
    (outputSchema : Bool) : Program (LoopState W A) Exn String := do
  .update LoopState.fresh
  LoopState.onWorld r.resolveAccount
  let intent ← r.intentOf userInput outputSchema
  Program.cleanUp ((r.converse userInput allowedTools intent).handle noteCancelled)
    (r.close userInput)
  .read LoopState.finalResponse

end AgentRouter

/-! ## The streaming loop -/

inductive OutEvent (A : Type)
  | conductorTrace
  | status (content : String)
  | textChunk (content : String)
  | toolCall (call : ToolCall A)
  | hitlGate (call : ToolCall A)
  | toolResult (name result : String)
  | error (content : String)
  | done (content : String)

/-- The state of a streaming run with the events that it has yielded. -/
structure StreamState (W A : Type) where
  loop : LoopState W A
  yielded : List (OutEvent A) := []

namespace StreamState

def lift (x : Program (LoopState W A) Exn α) : Program (StreamState W A) Exn α :=
  .within StreamState.loop (fun loop s => { s with loop := loop }) x

def yield (event : OutEvent A) : Program (StreamState W A) Exn Unit :=
  .update fun s => { s with yielded := s.yielded ++ [event] }

/-- The end of a loop with an error event. -/
def finishError (text : String) : Program (StreamState W A) Exn Bool := do
  lift (LoopState.setFinal text)
  yield (.error text)
  pure false

end StreamState

namespace AgentRouter

open StreamState

variable (r : AgentRouter W A)

/-- The events of a stream up to the one that ends it: the text, and the tool calls. -/
def consume (failure : Option Exn) : List (Response A) → String →
    Program (StreamState W A) Exn (String × Option (List (ToolCall A)))
  | [], text =>
      match failure with
      | none => pure (text, none)
      | some error => .raise error
  | event :: events, text => do
      lift (LoopState.recordUsage event.usage)
      match event.reply with
      | .error data => do
          lift (LoopState.setFinal (generationFailed data))
          yield (.error (generationFailed data))
          pure (text, none)
      | .toolCall call => pure (text, some [call])
      | .toolCalls calls => pure (text, some calls)
      | .text data => do
          yield (.textChunk data)
          consume failure events (text ++ data)
      | .other _ => consume failure events text

/-- The events of a call before it is awaited. -/
def announce (call : ToolCall A) : Program (StreamState W A) Exn Unit := do
  yield (.toolCall call)
  lift (LoopState.check fun s => r.validateCall call s.world)
  if ← .read fun s => r.needsApproval call s.loop.world then yield (.hitlGate call)
  else pure ()

/-- The results of the calls with their events; the first handoff ends them. -/
def settleStreamed : List (ToolCall A × Except Exn String) →
    Program (StreamState W A) Exn (Option String)
  | [] => pure none
  | (call, result) :: rest => do
      yield (.toolResult call.name (Runtime.resultText result))
      if Runtime.isHandoff (Runtime.resultText result) then
        pure (some (r.handoffResponse (Runtime.resultText result)))
      else do
        lift (.update (Runtime.recordResult call (Runtime.resultText result)))
        settleStreamed rest

/-- The limit, after the calls. -/
def checkLimit (calls : List (ToolCall A)) : Program (StreamState W A) Exn Bool := do
  lift (.update fun s => { s with totalToolCalls := s.totalToolCalls + calls.length })
  let total ← .read fun s => s.loop.totalToolCalls
  if r.maxToolCalls < total then finishError r.limitMessage else pure true

def finishHandoff (response : String) : Program (StreamState W A) Exn Bool := do
  lift (LoopState.setFinal response)
  yield (.textChunk s!"\n{response}\n")
  pure false

def streamToolRound (calls : List (ToolCall A)) (allowedTools : Option (List String)) :
    Program (StreamState W A) Exn Bool := do
  let _ ← Program.collect r.announce calls
  let results ← lift (r.gather calls allowedTools)
  match ← r.settleStreamed (calls.zip results) with
  | some response => finishHandoff response
  | none => r.checkLimit calls

/-- The end of a stream without tool calls. -/
def finishText (text : String) : Program (LoopState W A) Exn Bool := do
  let final ← .read LoopState.finalResponse
  LoopState.finish (if text ≠ "" then text
    else if final = "" then "Error: LLM returned no content." else final)

/-- The stream of a round, consumed. -/
def receive (context : Context) :
    Program (StreamState W A) Exn (String × Option (List (ToolCall A))) := do
  let request ← lift (r.prepareRequest context)
  yield (.status "thinking")
  let stream ← lift (LoopState.onWorld fun w =>
    ((.ok (r.generateContentStream request w).1), (r.generateContentStream request w).2))
  consume stream.failure stream.events ""

def streamGenerateRound (context : Context) (allowedTools : Option (List String)) :
    Program (StreamState W A) Exn Bool := do
  match ← r.receive context with
  | (_, some calls) => r.streamToolRound calls allowedTools
  | (text, none) => lift (finishText text)

/-- One iteration of the streaming loop. -/
def streamRound (context : Context) (allowedTools : Option (List String)) :
    Program (StreamState W A) Exn Bool := do
  if ← lift r.openRound then r.streamGenerateRound context allowedTools
  else do
    yield (.error deniedMessage)
    pure false

def streamExhaustedMessage : String :=
  s!"Error: maximum agent iterations reached ({r.maxIterations})."

/-- The check behind the loop. -/
def reportExhausted : Program (StreamState W A) Exn Unit := do
  if ← .read fun s => r.exhausted s.loop then
    lift (LoopState.setFinal r.streamExhaustedMessage)
    yield (.error r.streamExhaustedMessage)
  else pure ()

def streamConverse (userInput : String) (allowedTools : Option (List String)) (intent : Intent) :
    Program (StreamState W A) Exn Unit := do
  let context ← lift (r.setUp userInput allowedTools intent)
  yield .conductorTrace
  rounds (r.streamRound context allowedTools) r.maxIterations.toNat
  r.reportExhausted

/-- `stream_agent_loop`. -/
def streamAgentLoop (userInput : String) (allowedTools : Option (List String))
    (outputSchema : Bool) : Program (StreamState W A) Exn Unit := do
  .update fun s => { loop := s.loop.fresh }
  lift (LoopState.onWorld r.resolveAccount)
  let intent ← lift (r.intentOf userInput outputSchema)
  Program.cleanUp ((r.streamConverse userInput allowedTools intent).handle fun error =>
      lift (noteCancelled error))
    (lift (.update (r.remember userInput)))
  let content ← .read fun s => s.loop.finalResponse
  yield (.done content)

/-- A router without a manifest whose provider follows the script in the world and whose engine has
one tool with a plain contract; a stream is the next response as one event. -/
def scripted (maxIterations maxToolCalls : ℤ) (tool : String) :
    AgentRouter (List (Response Unit)) Unit where
  agentMd _ := none
  skillFile _ _ := some (.ok "------")
  safeLoad _ := .ok (.dict {})
  checkContract _ _ _ := .ok ()
  testing := false
  testLoopApproval := false
  accountRole _ := "viewer"
  decide _ := pure .approved
  nextOnboardingFile _ := none
  maxTurns := 0
  maxContextChars := 0
  argumentsLength _ := 0
  exportHandoff _ := pure ""
  toolsRegistry _ := [tool]
  invoke _ := pure "done"
  strip := id
  arrange calls _ := calls.zipIdx.map Prod.swap
  arrange_perm _ _ := List.Perm.refl _
  maxIterations := maxIterations
  maxToolCalls := maxToolCalls
  resolveAccount := pure ()
  generateContent _ script := (.ok (script.head?.getD ⟨.text "", none⟩), script.tail)
  generateContentStream _ script := (⟨script.take 1, none⟩, script.tail)
  renderPrompt _ := pure ""
  memoryContext _ := pure ""
  recordPlan _ _ := pure ()
  awaitResume := pure ()
  preflight _ := pure ()
  finishTurn _ := id
  upper := id

end AgentRouter

end AgentSystem.Router
