import AgentSystem.JoinedFields

/-!
# Ids of tool calls

The messages that the agent loop builds, and the two payloads that are made of them. In the one an id counts the
calls, in the other one it is the name of the tool.
-/
namespace AgentSystem.ToolCallIds

open JoinedFields

variable {α : Type}

/-- A call as it came from a provider, perhaps without a name or arguments. -/
structure ToolCall (α : Type) where
  name : Option String
  arguments : Option α

/-- The messages of the loop. -/
inductive Message (α : Type)
  | user (content : String)
  | assistant (content : String)
  | toolCall (call : ToolCall α)
  | tool (name content : String)

/-! ## The loop -/

/-- `_build_message_history`. -/
def buildMessageHistory (context : List (String × String)) (currentInput : String) : List (Message α) :=
  (context.flatMap fun conversation => [.user conversation.1, .assistant conversation.2]) ++ [.user currentInput]

/-- What `asyncio.gather` gives for a call, an exception by its text. -/
inductive Outcome
  | returned (text : String)
  | raised (text : String)

def Outcome.toolResult : Outcome → String
  | returned text => text
  | raised text => "Error: tool execution failed: " ++ text

def startsWith (text start : String) : Bool := start.toList.isPrefixOf text.toList

def failureWarning (toolName : String) : String :=
  "System Warning: You have failed using the tool '" ++ toolName ++ "' 3 times. " ++
    "Please stop trying and ask the user for clarification."

/-- The loop's messages, the failures of each tool and the result that hands the session over. -/
structure Turns (α : Type) where
  messages : List (Message α)
  failureCounts : String → ℕ := fun _ => 0
  handoff : Option String := none

/-- One call of `_handle_tool_calls` with its result. -/
def Turns.record (turns : Turns α) (call : ToolCall α) (outcome : Outcome) : Turns α :=
  let toolName := call.name.getD ""
  let toolResult := outcome.toolResult
  if startsWith toolResult "HANDOFF_TO:" then { turns with handoff := some toolResult }
  else
    let failures := if startsWith toolResult "Error:" then turns.failureCounts toolName + 1 else 0
    { turns with
      failureCounts := Function.update turns.failureCounts toolName failures
      messages := turns.messages ++ [.toolCall call, .tool toolName toolResult] ++
        if 3 ≤ failures then [.user (failureWarning toolName)] else [] }

/-- `_handle_tool_calls`, up to a handoff. -/
def Turns.handleToolCalls (turns : Turns α) : List (ToolCall α × Outcome) → Turns α
  | [] => turns
  | (call, outcome) :: rest =>
      let turns := turns.record call outcome
      if turns.handoff.isSome then turns else turns.handleToolCalls rest

/-- The turns of a loop after any number of batches. -/
inductive Built : Turns α → Prop
  | start (context : List (String × String)) (currentInput : String) :
      Built { messages := buildMessageHistory context currentInput }
  | batch {turns : Turns α} (h : Built turns) (hrunning : turns.handoff = none)
      (batch : List (ToolCall α × Outcome)) : Built (turns.handleToolCalls batch)

/-- The calls in their order. -/
def calls (messages : List (Message α)) : List (ToolCall α) :=
  messages.filterMap fun
    | .toolCall call => some call
    | _ => none

/-! ## The payloads -/

inductive OpenAIEntry
  | system (content : String)
  | user (content : String)
  | assistant (content : String)
  | toolCall (id name arguments : String)
  | tool (toolCallId content : String)

/-- The variables of the loop in `openai_messages`. -/
structure OpenAIState where
  result : List OpenAIEntry
  toolCallIds : String → Option String := fun _ => none
  callIndex : ℕ := 0

def callId (index : ℕ) (toolName : String) : String := "call_" ++ toString index ++ "_" ++ toolName

def OpenAIState.add (dumps : Option α → String) (s : OpenAIState) : Message α → OpenAIState
  | .user content => { s with result := s.result ++ [.user content] }
  | .assistant content => { s with result := s.result ++ [.assistant content] }
  | .toolCall call =>
      let toolName := call.name.getD ""
      let id := callId (s.callIndex + 1) toolName
      { result := s.result ++ [.toolCall id toolName (dumps call.arguments)]
        toolCallIds := Function.update s.toolCallIds toolName (some id)
        callIndex := s.callIndex + 1 }
  | .tool name content =>
      { s with result := s.result ++ [.tool ((s.toolCallIds name).getD ("call_unknown_" ++ name)) content] }

/-- `openai_messages`; absent arguments are written as an empty dictionary. -/
def openaiMessages (dumps : Option α → String) (systemPrompt : String) (messages : List (Message α)) :
    List OpenAIEntry :=
  (messages.foldl (OpenAIState.add dumps) { result := [.system systemPrompt] }).result

inductive AnthropicEntry (α : Type)
  | user (content : String)
  | assistant (content : String)
  | toolUse (id name : String) (input : Option α)
  | toolResult (toolUseId content : String)

/-- `AnthropicProvider._messages`. -/
def anthropicMessages (messages : List (Message α)) : List (AnthropicEntry α) :=
  messages.map fun
    | .user content => .user content
    | .assistant content => .assistant content
    | .toolCall call => .toolUse ("toolu_" ++ call.name.getD "tool") (call.name.getD "") call.arguments
    | .tool name content => .toolResult ("toolu_" ++ name) content

/-- The ids of the calls and those that the results carry, in the order of the payload. -/
structure Ids where
  ofCalls : List String
  ofResults : List String

/-- All ids are distinct, and every result carries the id of its call. -/
structure Ids.Paired (ids : Ids) : Prop where
  nodup : ids.ofCalls.Nodup
  results : ids.ofResults = ids.ofCalls

def openaiIds (entries : List OpenAIEntry) : Ids where
  ofCalls := entries.filterMap fun
    | .toolCall id _ _ => some id
    | _ => none
  ofResults := entries.filterMap fun
    | .tool id _ => some id
    | _ => none

def anthropicIds (entries : List (AnthropicEntry α)) : Ids where
  ofCalls := entries.filterMap fun
    | .toolUse id _ _ => some id
    | _ => none
  ofResults := entries.filterMap fun
    | .toolResult id _ => some id
    | _ => none

/-! ## Every call is followed by its result -/

/-- Every call is followed by a result of its name, and no result stands elsewhere. -/
inductive Answered : List (Message α) → Prop
  | nil : Answered []
  | user (content : String) {messages : List (Message α)} (h : Answered messages) : Answered (.user content :: messages)
  | assistant (content : String) {messages : List (Message α)} (h : Answered messages) :
      Answered (.assistant content :: messages)
  | call (call : ToolCall α) (content : String) {messages : List (Message α)} (h : Answered messages) :
      Answered (.toolCall call :: .tool (call.name.getD "") content :: messages)

variable {messages more : List (Message α)} {turns : Turns α}

lemma Answered.append (h : Answered messages) (hmore : Answered more) : Answered (messages ++ more) := by
  induction h with
  | nil => exact hmore
  | user content h ih => exact .user content ih
  | assistant content h ih => exact .assistant content ih
  | call call content h ih => exact .call call content ih

lemma answered_history (context : List (String × String)) (currentInput : String) :
    Answered (buildMessageHistory (α := α) context currentInput) := by
  refine Answered.append ?_ (.user currentInput .nil)
  induction context with
  | nil => exact .nil
  | cons conversation context ih => exact .user _ (.assistant _ ih)

lemma answered_record (h : Answered turns.messages) (call : ToolCall α) (outcome : Outcome) :
    Answered (turns.record call outcome).messages := by
  unfold Turns.record
  dsimp only
  split_ifs
  · exact h
  · exact (h.append (.call call _ .nil)).append (.user _ .nil)
  · exact (h.append (.call call _ .nil)).append .nil
  · exact (h.append (.call call _ .nil)).append (.user _ .nil)
  · exact (h.append (.call call _ .nil)).append .nil

lemma answered_handle (h : Answered turns.messages) (batch : List (ToolCall α × Outcome)) :
    Answered (turns.handleToolCalls batch).messages := by
  induction batch generalizing turns with
  | nil => exact h
  | cons first batch ih =>
    obtain ⟨call, outcome⟩ := first
    rw [Turns.handleToolCalls]
    split_ifs
    · exact answered_record h call outcome
    · exact ih (answered_record h call outcome)

lemma Built.answered (h : Built turns) : Answered turns.messages := by
  induction h with
  | start context currentInput => exact answered_history context currentInput
  | batch h hrunning batch ih => exact answered_handle ih batch

/-! ## The ids of the payloads -/

/-- The ids that the counter gives to these calls after so many. -/
def countedIds : ℕ → List (ToolCall α) → List String
  | _, [] => []
  | index, call :: rest => callId (index + 1) (call.name.getD "") :: countedIds (index + 1) rest

/-- A result finds the id of the call before it under the name of the tool. -/
lemma openaiIds_foldl (h : Answered messages) (dumps : Option α → String) (s : OpenAIState) :
    openaiIds (messages.foldl (OpenAIState.add dumps) s).result =
      ⟨(openaiIds s.result).ofCalls ++ countedIds s.callIndex (calls messages),
        (openaiIds s.result).ofResults ++ countedIds s.callIndex (calls messages)⟩ := by
  induction h generalizing s with
  | nil => simp [calls, countedIds]
  | user content h ih =>
    rw [List.foldl_cons, ih]
    simp [OpenAIState.add, openaiIds, calls]
  | assistant content h ih =>
    rw [List.foldl_cons, ih]
    simp [OpenAIState.add, openaiIds, calls]
  | call call content h ih =>
    rw [List.foldl_cons, List.foldl_cons, ih]
    simp [OpenAIState.add, openaiIds, calls, countedIds]

lemma openaiIds_messages (h : Answered messages) (dumps : Option α → String) (systemPrompt : String) :
    openaiIds (openaiMessages dumps systemPrompt messages) =
      ⟨countedIds 0 (calls messages), countedIds 0 (calls messages)⟩ := by
  rw [openaiMessages, openaiIds_foldl h]
  rfl

/-- The number of a call stands before an underscore, and has none itself. -/
lemma callId_inj {i j : ℕ} {name name' : String} (h : callId i name = callId j name') : i = j := by
  have hdigits : ∀ n : ℕ, (Nat.toDigits 10 n).count '_' = 0 := fun n =>
    List.count_eq_zero.mpr fun hmem => absurd (Nat.isDigit_of_mem_toDigits (by decide) (by decide) hmem) (by decide)
  have hlists := congrArg String.toList h
  simp only [callId, String.toList_append, List.append_assoc, List.append_cancel_left_eq] at hlists
  have htexts : Nat.toDigits 10 i ++ '_' :: name.toList = Nat.toDigits 10 j ++ '_' :: name'.toList := by
    simpa using hlists
  have hsame := (append_sep_inj htexts ((hdigits i).trans (hdigits j).symm)).1
  rw [← Nat.ofDigitChars_ten_toDigits (n := i), hsame, Nat.ofDigitChars_ten_toDigits]

lemma lt_of_mem_countedIds {index i : ℕ} {name : String} {list : List (ToolCall α)}
    (h : callId i name ∈ countedIds index list) : index < i := by
  induction list generalizing index with
  | nil => exact absurd h List.not_mem_nil
  | cons call list ih =>
    rcases List.mem_cons.mp h with heq | hmem
    · rw [callId_inj heq]
      exact Nat.lt_succ_self index
    · exact Nat.lt_of_succ_lt (ih hmem)

lemma countedIds_nodup (index : ℕ) (list : List (ToolCall α)) : (countedIds index list).Nodup := by
  induction list generalizing index with
  | nil => exact List.nodup_nil
  | cons call list ih =>
    exact List.nodup_cons.mpr ⟨fun hmem => lt_irrefl _ (lt_of_mem_countedIds hmem), ih (index + 1)⟩

/-- In the one payload every result carries the id of its call. -/
theorem openaiIds_paired (h : Answered messages) (dumps : Option α → String) (systemPrompt : String) :
    (openaiIds (openaiMessages dumps systemPrompt messages)).Paired := by
  rw [openaiIds_messages h]
  exact ⟨countedIds_nodup 0 _, rfl⟩

lemma anthropicIds_messages (h : Answered messages) :
    anthropicIds (anthropicMessages messages) =
      ⟨(calls messages).map fun call => "toolu_" ++ call.name.getD "tool",
        (calls messages).map fun call => "toolu_" ++ call.name.getD ""⟩ := by
  induction h with
  | nil => rfl
  | user content h ih => exact ih
  | assistant content h ih => exact ih
  | call call content h ih =>
    have hcalls := congrArg Ids.ofCalls ih
    have hresults := congrArg Ids.ofResults ih
    simp only [anthropicIds, anthropicMessages, calls] at hcalls hresults ⊢
    simp [hcalls, hresults]

lemma prefixed_injective : Function.Injective fun name : String => "toolu_" ++ name := fun _ _ h => by
  simpa using h

/-- In the other payload it does exactly if all calls have names, and no two the same. -/
lemma anthropicIds_paired_iff (h : Answered messages) :
    (anthropicIds (anthropicMessages messages)).Paired ↔
      (∀ call ∈ calls messages, call.name.isSome = true) ∧ ((calls messages).map ToolCall.name).Nodup := by
  have hids : ((calls messages).map fun call => "toolu_" ++ call.name.getD "tool") =
      ((calls messages).map ToolCall.name).map fun name => "toolu_" ++ name.getD "tool" := by
    rw [List.map_map]
    rfl
  rw [anthropicIds_messages h, hids]
  constructor
  · rintro ⟨hnodup, hresults⟩
    refine ⟨fun call hcall => ?_, hnodup.of_map⟩
    have hsame := List.map_inj_left.mp (hresults.trans hids.symm) call hcall
    cases hname : call.name with
    | some name => rfl
    | none => simp [hname] at hsame
  · rintro ⟨hnamed, hnodup⟩
    refine ⟨hnodup.map_on fun a ha b hb hab => ?_, hids ▸ List.map_inj_left.mpr fun call hcall => ?_⟩
    · obtain ⟨call, hcall, rfl⟩ := List.mem_map.mp ha
      obtain ⟨other, hother, rfl⟩ := List.mem_map.mp hb
      obtain ⟨name, hname⟩ := Option.isSome_iff_exists.mp (hnamed call hcall)
      obtain ⟨name', hname'⟩ := Option.isSome_iff_exists.mp (hnamed other hother)
      rw [hname, hname'] at hab ⊢
      exact congrArg some (prefixed_injective hab)
    · obtain ⟨name, hname⟩ := Option.isSome_iff_exists.mp (hnamed call hcall)
      simp [hname]

/-- The ids are paired in both payloads exactly if every call names its tool, and no tool is called twice. -/
theorem toolCallIds_paired_iff (dumps : Option α → String) (systemPrompt : String) (turns : Turns α)
    (h : Built turns) :
    (openaiIds (openaiMessages dumps systemPrompt turns.messages)).Paired ∧
        (anthropicIds (anthropicMessages turns.messages)).Paired ↔
      (∀ call ∈ calls turns.messages, call.name.isSome = true) ∧
        ((calls turns.messages).map ToolCall.name).Nodup := by
  rw [and_iff_right (openaiIds_paired h.answered dumps systemPrompt), anthropicIds_paired_iff h.answered]

/-- Two calls in one batch. -/
def sampleTurns (first second : String) : Turns String :=
  Turns.handleToolCalls { messages := buildMessageHistory [] "Compare them." }
    [(⟨some first, some "a"⟩, .returned "x"), (⟨some second, some "b"⟩, .returned "y")]

lemma sampleTurns_built (first second : String) : Built (sampleTurns first second) :=
  .batch (.start [] "Compare them.") rfl _

theorem toolCallIds_paired_sample :
    (openaiIds (openaiMessages (fun arguments => arguments.getD "") "system"
        (sampleTurns "list_dir" "read_file").messages)).Paired ∧
        (anthropicIds (anthropicMessages (sampleTurns "list_dir" "read_file").messages)).Paired ↔
      (∀ call ∈ calls (sampleTurns "list_dir" "read_file").messages, call.name.isSome = true) ∧
        ((calls (sampleTurns "list_dir" "read_file").messages).map ToolCall.name).Nodup :=
  toolCallIds_paired_iff _ "system" _ (sampleTurns_built "list_dir" "read_file")

/-- Two calls of one tool have one id. -/
theorem toolCallIds_not_paired :
    ¬ ∀ turns : Turns String, Built turns →
      (openaiIds (openaiMessages (fun arguments => arguments.getD "") "system" turns.messages)).Paired ∧
        (anthropicIds (anthropicMessages turns.messages)).Paired := by
  intro hclaim
  obtain ⟨-, hnodup, -⟩ := hclaim _ (sampleTurns_built "read_file" "read_file")
  exact absurd hnodup (by decide)

end AgentSystem.ToolCallIds
