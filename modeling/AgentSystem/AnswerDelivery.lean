import AgentSystem.LoopLimits

/-!
# The delivery of answers

What the two loops give back when the model answers with a text after some rounds of tool calls.
-/
namespace AgentSystem.Router

open Programs Pipeline LoopState StreamState

variable {W A α : Type}

/-! ## Rounds up to an answer -/

section Rounds

variable {σ : Type} {round : Program σ Exn Bool} {work work' answer answer' : σ → σ → Prop}

/-- The last of a number of iterations answers, the others work. -/
inductive After (work answer : σ → σ → Prop) : ℕ → σ → σ → Prop
  | answer {s s' : σ} : answer s s' → After work answer 1 s s'
  | work {k : ℕ} {s s' s'' : σ} : work s s' → After work answer k s' s'' →
      After work answer (k + 1) s s''

lemma After.mono (hwork : ∀ s s', work s s' → work' s s')
    (hanswer : ∀ s s', answer s s' → answer' s s') {k : ℕ} {s s' : σ}
    (h : After work answer k s s') : After work' answer' k s s' := by
  induction h with
  | answer h => exact .answer (hanswer _ _ h)
  | work h _ ih => exact .work (hwork _ _ h) ih

lemma After.last {k : ℕ} {s s' : σ} (h : After work answer k s s') : ∃ s₀, answer s₀ s' := by
  induction h with
  | answer h => exact ⟨_, h⟩
  | work _ _ ih => exact ih

/-- A loop whose last round ends it. -/
def Stops (round : Program σ Exn Bool) : ℕ → σ → σ → Prop :=
  After (fun s s' => round s = (.ok true, s')) fun s s' => round s = (.ok false, s')

lemma Stops.rounds {k : ℕ} {s s' : σ} (h : Stops round k s s') {n : ℕ} (hn : k ≤ n) :
    rounds round n s = (.ok (), s') := by
  induction h generalizing n with
  | answer h =>
      obtain ⟨n, rfl⟩ := Nat.exists_eq_succ_of_ne_zero (Nat.one_le_iff_ne_zero.mp hn)
      rw [Router.rounds, Program.bind_ok h]
      rfl
  | work h _ ih =>
      obtain ⟨n, rfl⟩ := Nat.exists_eq_succ_of_ne_zero (Nat.ne_of_gt (Nat.zero_lt_of_lt hn))
      rw [Router.rounds, Program.bind_ok h]
      exact ih (Nat.succ_le_succ_iff.mp hn)

/-- What each round counts, the loop counts. -/
lemma Stops.count {view : σ → ℤ}
    (hround : ∀ v, Triple (fun s => view s = v) round (fun _ s => view s = v + 1) fun _ _ => True)
    {k : ℕ} {s s' : σ} (h : Stops round k s s') : view s' = view s + k := by
  induction h with
  | answer h => exact (hround _).returned rfl h
  | work h _ ih =>
      have hnext := (hround _).returned rfl h
      rw [ih, hnext]
      push_cast
      ring

end Rounds

/-- The calls of a reply that asks for tools. -/
def Reply.batch : Reply A → Option (List (ToolCall A))
  | .toolCall call => some [call]
  | .toolCalls calls => some calls
  | _ => none

/-! ## The iteration counter -/

namespace AgentRouter

variable (r : AgentRouter W A)

lemma openRound_iteration (v : ℤ) :
    Triple (fun s => s.iteration = v) r.openRound (fun _ s => s.iteration = v + 1)
      fun _ _ => True := by
  have hresume : Leaves LoopState.iteration (onWorld (A := A) r.awaitResume) :=
    onWorld_leaves (fun _ _ => rfl) _
  refine Triple.bind (hresume v).triple fun _ => ?_
  refine Triple.bind (R := fun _ s => s.iteration = v + 1) (Triple.update fun s hs => by rw [hs])
    fun _ => Keeps.triple ?_
  refine Keeps.bind (Keeps.read _) fun iteration => Keeps.split ?_ (Keeps.ret _)
  have hwait : Leaves LoopState.iteration (r.waitForApproval (.continuation iteration)) :=
    onWorld_leaves (fun _ _ => rfl) _
  exact Keeps.bind (hwait (v + 1)) fun decision => Keeps.ret _

lemma round_iteration (context : Context) (allowedTools : Option (List String)) (v : ℤ) :
    Triple (fun s => LoopState.iteration s = v) (r.round context allowedTools)
      (fun _ s => s.iteration = v + 1) fun _ _ => True := by
  refine Triple.bind (r.openRound_iteration v) fun go => Keeps.triple (Keeps.split ?_ ?_)
  · have hprepare : Leaves LoopState.iteration (r.prepareRequest context) :=
      r.prepareRequest_leaves context (fun _ _ => rfl) fun _ => rfl
    refine Keeps.bind (hprepare (v + 1)) fun request => ?_
    have hgenerate : Leaves LoopState.iteration (onWorld (A := A) (r.generateContent request)) :=
      onWorld_leaves (fun _ _ => rfl) _
    refine Keeps.bind (hgenerate (v + 1)) fun response => ?_
    have husage : Leaves LoopState.iteration
        (LoopState.recordUsage (W := W) (A := A) response.usage) := update_leaves fun _ => rfl
    refine Keeps.bind (husage (v + 1)) fun _ => ?_
    exact r.settleReply_leaves allowedTools response.reply
      (fun s s' h => congrArg (fun f => f.1) h) (fun _ _ _ => rfl) (fun _ _ => rfl)
      (fun _ _ => rfl) (v + 1)
  · have hdenied : Leaves LoopState.iteration (LoopState.finish (A := A) (W := W) deniedMessage) :=
      finish_leaves _ fun _ => rfl
    exact hdenied (v + 1)

lemma streamRound_iteration (context : Context) (allowedTools : Option (List String)) (v : ℤ) :
    Triple (fun s : StreamState W A => s.loop.iteration = v) (r.streamRound context allowedTools)
      (fun _ s => s.loop.iteration = v + 1) fun _ _ => True := by
  refine Triple.bind (lift_triple (r.openRound_iteration v)) fun go =>
    Keeps.triple (Keeps.split ?_ ?_)
  · have hreceive : Leaves (fun s : StreamState W A => s.loop.iteration) (r.receive context) :=
      r.receive_leaves context (fun _ _ => rfl) (fun _ => rfl) (fun _ _ => rfl) fun _ _ => rfl
    refine Keeps.bind (hreceive (v + 1)) fun received => ?_
    obtain ⟨text, calls⟩ := received
    cases calls with
    | none =>
        have htext : Leaves LoopState.iteration (finishText (W := W) (A := A) text) := fun v =>
          Keeps.bind (Keeps.read _) fun final => finish_leaves _ (fun _ => rfl) v
        exact lift_leaves htext (v + 1)
    | some calls =>
        have htools : Leaves (fun s : StreamState W A => s.loop.iteration)
            (r.streamToolRound calls allowedTools) :=
          r.streamToolRound_leaves calls allowedTools (fun s s' h => congrArg (fun f => f.1) h)
            (fun _ _ _ => rfl) (fun _ _ => rfl) fun _ _ => rfl
        exact htools (v + 1)
  · exact Keeps.bind (yield_leaves LoopState.iteration _ (v + 1)) fun _ => Keeps.ret _

/-- The state of a run behind its opening counts no iteration yet. -/
lemma opening_iteration {userInput : String} {allowedTools : Option (List String)}
    {outputSchema : Bool} {s s' : LoopState W A} {context : Context}
    (h : r.opening userInput allowedTools outputSchema s = (.ok context, s')) :
    s'.iteration = 0 := by
  have haccount : Leaves LoopState.iteration (onWorld (A := A) r.resolveAccount) :=
    onWorld_leaves (fun _ _ => rfl) _
  have hintent : Leaves LoopState.iteration (r.intentOf userInput outputSchema) :=
    r.intentOf_leaves userInput outputSchema (fun _ _ => rfl) fun _ _ => rfl
  have henter : Triple (fun _ => True) (r.enter userInput outputSchema)
      (fun _ s => s.iteration = 0) fun _ s => s.iteration = 0 :=
    Triple.bind (Triple.update fun _ _ => rfl) fun _ => Triple.bind (haccount 0) fun _ => hintent 0
  have hsetUp : ∀ intent, Leaves LoopState.iteration (r.setUp userInput allowedTools intent) :=
    fun intent => r.setUp_leaves userInput allowedTools intent (fun _ _ => rfl) (fun _ _ => rfl)
      fun _ _ => rfl
  exact (Triple.bind henter fun intent => hsetUp intent 0).returned trivial h

/-! ## Iterations of the plain loop -/

/-- The loop behind the results of a batch. -/
def recordResults (results : List (ToolCall A × Except Exn String)) (s : LoopState W A) :
    LoopState W A :=
  results.foldl (fun s result => Runtime.recordResult result.1 (Runtime.resultText result.2) s) s

lemma settleResults_recorded {results : List (ToolCall A × Except Exn String)}
    (h : ∀ result ∈ results, Runtime.isHandoff (Runtime.resultText result.2) = false)
    (s : LoopState W A) : r.settleResults results s = (.ok none, recordResults results s) := by
  induction results generalizing s with
  | nil => rfl
  | cons result results ih =>
      obtain ⟨call, value⟩ := result
      have hvalue : Runtime.isHandoff (Runtime.resultText value) = false := h _ List.mem_cons_self
      have hrecord : Program.update (Runtime.recordResult call (Runtime.resultText value)) s =
          ((.ok () : Except Exn Unit), Runtime.recordResult call (Runtime.resultText value) s) := rfl
      rw [settleResults, if_neg (by rw [hvalue]; exact Bool.false_ne_true), Program.bind_ok hrecord]
      exact ih (fun result hresult => h result (List.mem_cons_of_mem _ hresult)) _

/-- The start of an iteration whose continuation, if it is requested, is approved, up to the reply of
the model. -/
def Replies (context : Context) (s : LoopState W A) (reply : Reply A) (s' : LoopState W A) : Prop :=
  ∃ s₁ request s₂ usage s₃, r.openRound s = (.ok true, s₁) ∧
    r.prepareRequest context s₁ = (.ok request, s₂) ∧
    onWorld (r.generateContent request) s₂ = (.ok ⟨reply, usage⟩, s₃) ∧
    recordUsage usage s₃ = ((.ok () : Except Exn Unit), s')

/-- An iteration that is a batch of valid tool calls within the limit, without a handoff. -/
def Works (context : Context) (allowedTools : Option (List String)) (s s' : LoopState W A) : Prop :=
  ∃ reply calls s₁ results s₂, r.Replies context s reply s₁ ∧ reply.batch = some calls ∧
    s₁.totalToolCalls + calls.length ≤ r.maxToolCalls ∧
    (∀ call ∈ calls, r.validateCall call s₁.world = .ok ()) ∧
    r.gather calls allowedTools
      { s₁ with totalToolCalls := s₁.totalToolCalls + calls.length } = (.ok results, s₂) ∧
    (∀ result ∈ results, Runtime.isHandoff (Runtime.resultText result) = false) ∧
    s' = recordResults (calls.zip results) s₂

variable {r} {context : Context} {allowedTools : Option (List String)}

lemma Replies.bind {reply : Reply A} {s s' : LoopState W A} (h : r.Replies context s reply s') :
    r.round context allowedTools s = r.settleReply allowedTools reply s' := by
  obtain ⟨s₁, request, s₂, usage, s₃, hopen, hprepare, hgenerate, hrecord⟩ := h
  unfold round
  rw [Program.bind_ok hopen]
  change r.generateRound context allowedTools s₁ = _
  unfold generateRound
  rw [Program.bind_ok hprepare, Program.bind_ok hgenerate, Program.bind_ok hrecord]

/-- Checks that all pass change nothing. -/
lemma collect_check {f : ToolCall A → LoopState W A → Except Exn Unit} {calls : List (ToolCall A)}
    {s : LoopState W A} (h : ∀ call ∈ calls, f call s = .ok ()) :
    ∃ units, Program.collect (fun call => check (f call)) calls s = (.ok units, s) := by
  induction calls with
  | nil => exact ⟨[], rfl⟩
  | cons call calls ih =>
      obtain ⟨units, hrest⟩ := ih fun call hcall => h call (List.mem_cons_of_mem _ hcall)
      refine ⟨() :: units, Program.collect_cons_ok ?_ hrest⟩
      exact Prod.ext (h call List.mem_cons_self) rfl

lemma Works.round {s s' : LoopState W A} (h : r.Works context allowedTools s s') :
    r.round context allowedTools s = (.ok true, s') := by
  obtain ⟨reply, calls, s₁, results, s₂, hreplies, hbatch, hlimit, hvalid, hgather, hfree, rfl⟩ := h
  rw [hreplies.bind]
  have hcalls : r.settleReply allowedTools reply = r.toolRound calls allowedTools := by
    cases reply with
    | toolCall call =>
        cases hbatch
        rfl
    | toolCalls calls' =>
        cases hbatch
        rfl
    | error data => cases hbatch
    | text data => cases hbatch
    | other type => cases hbatch
  let counted : LoopState W A := { s₁ with totalToolCalls := s₁.totalToolCalls + calls.length }
  have hcount : (Program.update fun s : LoopState W A =>
      { s with totalToolCalls := s.totalToolCalls + calls.length }) s₁ =
        ((.ok () : Except Exn Unit), counted) := rfl
  have htotal : Program.read LoopState.totalToolCalls counted =
      ((.ok counted.totalToolCalls : Except Exn ℤ), counted) := rfl
  obtain ⟨units, hcheck⟩ := collect_check (f := fun call s => r.validateCall call s.world)
    (s := counted) hvalid
  have hhandle : r.handleToolCalls calls allowedTools counted =
      (.ok none, recordResults (calls.zip results) s₂) := by
    unfold handleToolCalls
    rw [Program.bind_ok hcheck, Program.bind_ok hgather]
    exact r.settleResults_recorded (fun result hresult => hfree _ (List.of_mem_zip hresult).2) s₂
  rw [hcalls, toolRound, Program.bind_ok hcount, Program.bind_ok htotal,
    if_neg (not_lt.mpr hlimit), Program.bind_ok hhandle]
  rfl

/-- An iteration in which the model answers with a text. -/
def Answers (context : Context) (text : String) (s s' : LoopState W A) : Prop :=
  ∃ s₁, r.Replies context s (.text text) s₁ ∧ s' = { s₁ with finalResponse := text }

lemma Answers.round {text : String} {s s' : LoopState W A} (h : r.Answers context text s s') :
    r.round context allowedTools s = (.ok false, s') := by
  obtain ⟨s₁, hreplies, rfl⟩ := h
  rw [hreplies.bind]
  rfl

/-- In the last of a number of iterations the model first answers, with a text. -/
def Answered (r : AgentRouter W A) (userInput : String) (allowedTools : Option (List String))
    (outputSchema : Bool) (text : String) (k : ℕ) (s : LoopState W A) : Prop :=
  ∃ context s₀ s', r.opening userInput allowedTools outputSchema s = (.ok context, s₀) ∧
    After (r.Works context allowedTools) (r.Answers context text) k s₀ s'

/-- A response with the token summary behind it. -/
def withSummary (text : String) (usage : Usage) : String := s!"{text}\n\n{usage.summary}"

lemma withSummary_inj {text text' : String} {usage : Usage}
    (h : withSummary text usage = withSummary text' usage) : text = text' := by
  have happended : text ++ "\n\n" ++ usage.summary = text' ++ "\n\n" ++ usage.summary := h
  rwa [String.append_left_inj, String.append_left_inj] at happended

/-- The run returns the text with the token summary. -/
def Returns (r : AgentRouter W A) (userInput : String) (allowedTools : Option (List String))
    (outputSchema : Bool) (text : String) (s : LoopState W A) : Prop :=
  ∃ s', r.runAgentLoop userInput allowedTools outputSchema s =
    (.ok (withSummary text s'.usage), s')

/-- The answer is kept: an iteration is left, or it reads like an error. -/
def Kept (r : AgentRouter W A) (text : String) (k : ℕ) : Prop :=
  (k : ℤ) < r.maxIterations ∨ startsWith text "Error:" = true

lemma exhausted_iff {text : String} {k : ℕ} {s : LoopState W A} (hiteration : s.iteration = k)
    (hfinal : s.finalResponse = text) :
    r.exhausted s = true ↔ ¬ r.Kept text k := by
  unfold exhausted Kept
  rw [hiteration, hfinal, Bool.and_eq_true, decide_eq_true_iff, Bool.not_eq_true', not_or, not_lt,
    Bool.not_eq_true]

/-- The run of a loop that ends with an answer. -/
lemma Answered.run {userInput : String} {outputSchema : Bool} {text : String} {k : ℕ}
    {s : LoopState W A} (h : r.Answered userInput allowedTools outputSchema text k s)
    (hlimit : (k : ℤ) ≤ r.maxIterations) :
    ∃ s' : LoopState W A, s'.iteration = k ∧ s'.finalResponse = text ∧
      r.runAgentLoop userInput allowedTools outputSchema s =
        (.ok (r.closed userInput s').finalResponse, r.closed userInput s') := by
  obtain ⟨context, s₀, s', hopening, hafter⟩ := h
  have hstops : Stops (r.round context allowedTools) k s₀ s' :=
    hafter.mono (fun _ _ => Works.round) fun _ _ => Answers.round
  have hrounds := hstops.rounds (n := r.maxIterations.toNat) (by omega)
  have hcount := hstops.count (r.round_iteration context allowedTools)
  refine ⟨s', ?_, ?_, ?_⟩
  · rw [hcount, r.opening_iteration hopening, zero_add]
  · obtain ⟨_, _, _, rfl⟩ := hafter.last
    rfl
  · unfold opening at hopening
    rw [r.runAgentLoop_apply]
    rcases henter : r.enter userInput outputSchema s with ⟨⟨error⟩ | ⟨intent⟩, s₁⟩
    · rw [Program.bind_error henter] at hopening
      cases hopening
    · rw [Program.bind_ok henter] at hopening
      have hconverse : (r.converse userInput allowedTools intent).handle noteCancelled s₁ =
          (.ok (), s') := Program.handle_ok ((Program.bind_ok hopening).trans hrounds)
      dsimp only
      rw [hconverse]

lemma startsWith_append {text start : String} (h : startsWith text start = true) (rest : String) :
    startsWith (text ++ rest) start = true := by
  unfold startsWith at h ⊢
  rw [List.isPrefixOf_iff_prefix] at h ⊢
  rw [String.toList_append]
  exact h.trans (List.prefix_append _ _)

lemma startsWith_exhausted : startsWith r.exhaustedMessage "Error:" = true := by
  unfold exhaustedMessage
  refine startsWith_append (startsWith_append (startsWith_append ?_ _) _) _
  decide

lemma startsWith_streamExhausted : startsWith r.streamExhaustedMessage "Error:" = true := by
  unfold streamExhaustedMessage
  refine startsWith_append (startsWith_append ?_ _) _
  decide

/-- What replaces an answer reads like an error, which the answer does not. -/
lemma replaced_iff {text message : String} {k : ℕ} {s : LoopState W A}
    (hmessage : startsWith message "Error:" = true) (hiteration : s.iteration = k)
    (hfinal : s.finalResponse = text) :
    (if r.exhausted s then message else s.finalResponse) = text ↔ r.Kept text k := by
  by_cases hkept : r.Kept text k
  · rw [if_neg (mt (exhausted_iff hiteration hfinal).mp (not_not.mpr hkept))]
    exact iff_of_true hfinal hkept
  · rw [if_pos ((exhausted_iff hiteration hfinal).mpr hkept)]
    refine iff_of_false (fun heq => hkept (.inr ?_)) hkept
    rw [← heq, hmessage]

lemma closed_final (userInput : String) (s : LoopState W A) :
    (r.closed userInput s).finalResponse =
      withSummary (if r.exhausted s then r.exhaustedMessage else s.finalResponse)
        (r.closed userInput s).usage := by
  unfold closed
  split_ifs <;> rfl

/-- An answer in the limit is returned exactly if it is kept. -/
lemma Answered.returns_iff {userInput : String} {outputSchema : Bool} {text : String} {k : ℕ}
    {s : LoopState W A} (h : r.Answered userInput allowedTools outputSchema text k s)
    (hlimit : (k : ℤ) ≤ r.maxIterations) :
    r.Returns userInput allowedTools outputSchema text s ↔ r.Kept text k := by
  obtain ⟨s', hiteration, hfinal, hrun⟩ := h.run hlimit
  unfold Returns
  rw [hrun, ← replaced_iff r.startsWith_exhausted hiteration hfinal, closed_final]
  constructor
  · rintro ⟨s'', heq⟩
    rw [Prod.mk.injEq, Except.ok.injEq] at heq
    obtain ⟨htext, rfl⟩ := heq
    exact withSummary_inj htext
  · intro h
    exact ⟨_, by rw [h]⟩

/-! ## Iterations of the streaming loop -/

/-- The events of valid calls, before they are awaited. -/
def announced (r : AgentRouter W A) (calls : List (ToolCall A)) (s : StreamState W A) :
    StreamState W A :=
  calls.foldl (fun s call => (r.announce call s).2) s

lemma announce_valid {call : ToolCall A} {s : StreamState W A}
    (h : r.validateCall call s.loop.world = .ok ()) :
    r.announce call s = (.ok (), (r.announce call s).2) ∧ (r.announce call s).2.loop = s.loop := by
  let called : StreamState W A := { s with yielded := s.yielded ++ [.toolCall call] }
  have hyield : yield (.toolCall call) s = ((.ok () : Except Exn Unit), called) := rfl
  have hcheck : lift (check fun s => r.validateCall call s.world) called =
      (.ok (), called) := Prod.ext h rfl
  have hread : (Program.read fun s : StreamState W A => r.needsApproval call s.loop.world) called =
      ((.ok (r.needsApproval call called.loop.world) : Except Exn Bool), called) := rfl
  unfold announce
  rw [Program.bind_ok hyield, Program.bind_ok hcheck, Program.bind_ok hread]
  cases r.needsApproval call called.loop.world <;> exact ⟨rfl, rfl⟩

lemma announced_valid {calls : List (ToolCall A)} {s : StreamState W A}
    (h : ∀ call ∈ calls, r.validateCall call s.loop.world = .ok ()) :
    (∃ units, Program.collect r.announce calls s = (.ok units, r.announced calls s)) ∧
      (r.announced calls s).loop = s.loop := by
  induction calls generalizing s with
  | nil => exact ⟨⟨[], rfl⟩, rfl⟩
  | cons call calls ih =>
      obtain ⟨hfirst, hloop⟩ := announce_valid (h call List.mem_cons_self)
      obtain ⟨⟨units, hrest⟩, hsame⟩ := ih (s := (r.announce call s).2) fun call hcall => by
        rw [hloop]
        exact h call (List.mem_cons_of_mem _ hcall)
      exact ⟨⟨() :: units, Program.collect_cons_ok hfirst hrest⟩, hsame.trans hloop⟩

/-- The loop behind the results of a batch, with their events. -/
def streamResults (results : List (ToolCall A × Except Exn String)) (s : StreamState W A) :
    StreamState W A where
  loop := recordResults results s.loop
  yielded := s.yielded ++
    results.map fun result => .toolResult result.1.name (Runtime.resultText result.2)

lemma settleStreamed_recorded {results : List (ToolCall A × Except Exn String)}
    (h : ∀ result ∈ results, Runtime.isHandoff (Runtime.resultText result.2) = false)
    (s : StreamState W A) : r.settleStreamed results s = (.ok none, streamResults results s) := by
  induction results generalizing s with
  | nil =>
      unfold streamResults
      rw [List.map_nil, List.append_nil]
      rfl
  | cons result results ih =>
      obtain ⟨call, value⟩ := result
      have hvalue : Runtime.isHandoff (Runtime.resultText value) = false := h _ List.mem_cons_self
      let event : OutEvent A := .toolResult call.name (Runtime.resultText value)
      let shown : StreamState W A := { s with yielded := s.yielded ++ [event] }
      have hyield : yield event s = ((.ok () : Except Exn Unit), shown) := rfl
      have hrecord : lift (.update (Runtime.recordResult call (Runtime.resultText value))) shown =
          ((.ok () : Except Exn Unit),
            { shown with loop := Runtime.recordResult call (Runtime.resultText value) s.loop }) := rfl
      rw [settleStreamed, Program.bind_ok hyield,
        if_neg (by rw [hvalue]; exact Bool.false_ne_true), Program.bind_ok hrecord,
        ih fun result hresult => h result (List.mem_cons_of_mem _ hresult)]
      unfold streamResults
      rw [List.map_cons, List.append_cons]
      rfl

/-- The calls of a batch, counted. -/
def counted (calls : List (ToolCall A)) (s : StreamState W A) : StreamState W A :=
  { s with loop := { s.loop with totalToolCalls := s.loop.totalToolCalls + calls.length } }

/-- An iteration whose stream ends in a batch of valid tool calls within the limit, without a
handoff. -/
def StreamWorks (r : AgentRouter W A) (context : Context) (allowedTools : Option (List String))
    (s s' : StreamState W A) : Prop :=
  ∃ s₁ text calls s₂ results s₃, lift r.openRound s = (.ok true, s₁) ∧
    r.receive context s₁ = (.ok (text, some calls), s₂) ∧
    s₂.loop.totalToolCalls + calls.length ≤ r.maxToolCalls ∧
    (∀ call ∈ calls, r.validateCall call s₂.loop.world = .ok ()) ∧
    lift (r.gather calls allowedTools) (r.announced calls s₂) = (.ok results, s₃) ∧
    (∀ result ∈ results, Runtime.isHandoff (Runtime.resultText result) = false) ∧
    s' = counted calls (streamResults (calls.zip results) s₃)

/-- An iteration whose stream ends with a text. -/
def StreamAnswers (r : AgentRouter W A) (context : Context) (text : String)
    (s s' : StreamState W A) : Prop :=
  ∃ s₁ s₂, lift r.openRound s = (.ok true, s₁) ∧ r.receive context s₁ = (.ok (text, none), s₂) ∧
    s' = { s₂ with loop := { s₂.loop with finalResponse := text } }

lemma StreamAnswers.round {text : String} (htext : text ≠ "") {s s' : StreamState W A}
    (h : r.StreamAnswers context text s s') :
    r.streamRound context allowedTools s = (.ok false, s') := by
  obtain ⟨s₁, s₂, hopen, hreceive, rfl⟩ := h
  unfold streamRound
  rw [Program.bind_ok hopen]
  change r.streamGenerateRound context allowedTools s₁ = _
  unfold streamGenerateRound
  rw [Program.bind_ok hreceive]
  have hread : Program.read LoopState.finalResponse s₂.loop =
      ((.ok s₂.loop.finalResponse : Except Exn String), s₂.loop) := rfl
  have hfinish : finishText text s₂.loop =
      ((.ok false : Except Exn Bool), { s₂.loop with finalResponse := text }) := by
    unfold finishText
    rw [Program.bind_ok hread, if_pos htext]
    rfl
  change lift (finishText text) s₂ = _
  rw [lift_apply, hfinish]

lemma recordResults_total (results : List (ToolCall A × Except Exn String)) (s : LoopState W A) :
    (recordResults results s).totalToolCalls = s.totalToolCalls := by
  unfold recordResults
  induction results generalizing s with
  | nil => rfl
  | cons result results ih => exact ih _

lemma StreamWorks.round {s s' : StreamState W A} (h : r.StreamWorks context allowedTools s s') :
    r.streamRound context allowedTools s = (.ok true, s') := by
  obtain ⟨s₁, text, calls, s₂, results, s₃, hopen, hreceive, hlimit, hvalid, hgather, hfree, rfl⟩ := h
  obtain ⟨⟨units, hannounce⟩, hloop⟩ := announced_valid hvalid
  have htotal : s₃.loop.totalToolCalls = s₂.loop.totalToolCalls := by
    have hframe := Keeps.triple (r.gather_frame calls allowedTools (r.announced calls s₂).loop.frame)
    have hsame := hframe.returned rfl (lift_eq_ok hgather)
    rw [hloop] at hsame
    exact congrArg (fun f => f.2.2.2.1) hsame
  have hsettle := r.settleStreamed_recorded
    (fun result hresult => hfree _ (List.of_mem_zip hresult).2 : ∀ result ∈ calls.zip results, _) s₃
  have hcheck : r.checkLimit calls (streamResults (calls.zip results) s₃) =
      (.ok true, counted calls (streamResults (calls.zip results) s₃)) := by
    let after := counted calls (streamResults (calls.zip results) s₃)
    have hcount : lift (.update fun s : LoopState W A =>
        { s with totalToolCalls := s.totalToolCalls + calls.length })
          (streamResults (calls.zip results) s₃) = ((.ok () : Except Exn Unit), after) := rfl
    have hread : (Program.read fun s : StreamState W A => s.loop.totalToolCalls) after =
        ((.ok after.loop.totalToolCalls : Except Exn ℤ), after) := rfl
    have hafter : after.loop.totalToolCalls = s₂.loop.totalToolCalls + calls.length := by
      rw [← htotal, ← recordResults_total (calls.zip results) s₃.loop]
      rfl
    unfold checkLimit
    rw [Program.bind_ok hcount, Program.bind_ok hread, if_neg (by rw [hafter]; exact not_lt.mpr hlimit)]
    rfl
  unfold streamRound
  rw [Program.bind_ok hopen]
  change r.streamGenerateRound context allowedTools s₁ = _
  unfold streamGenerateRound
  rw [Program.bind_ok hreceive]
  change r.streamToolRound calls allowedTools s₂ = _
  unfold streamToolRound
  rw [Program.bind_ok hannounce, Program.bind_ok hgather, Program.bind_ok hsettle]
  exact hcheck

/-- In the last of a number of iterations the stream first ends with a text. -/
def StreamAnswered (r : AgentRouter W A) (userInput : String) (allowedTools : Option (List String))
    (outputSchema : Bool) (text : String) (k : ℕ) (s : StreamState W A) : Prop :=
  ∃ context s₀ s', r.opening userInput allowedTools outputSchema s.loop = (.ok context, s₀) ∧
    After (r.StreamWorks context allowedTools) (r.StreamAnswers context text) k
      { loop := s₀, yielded := [.conductorTrace] } s'

/-- The last event of the run is done with the text and the token summary. -/
def Delivers (r : AgentRouter W A) (userInput : String) (allowedTools : Option (List String))
    (outputSchema : Bool) (text : String) (s : StreamState W A) : Prop :=
  ∃ s', r.streamAgentLoop userInput allowedTools outputSchema s = (.ok (), s') ∧
    s'.yielded.getLast? = some (.done (withSummary text s'.loop.usage))

/-- The state behind the check that follows the loop. -/
def reported (r : AgentRouter W A) (s : StreamState W A) : StreamState W A :=
  if r.exhausted s.loop then
    { loop := { s.loop with finalResponse := r.streamExhaustedMessage }
      yielded := s.yielded ++ [.error r.streamExhaustedMessage] }
  else s

lemma reportExhausted_apply (s : StreamState W A) :
    r.reportExhausted s = (.ok (), r.reported s) := by
  have hread : (Program.read fun s : StreamState W A => r.exhausted s.loop) s =
      ((.ok (r.exhausted s.loop) : Except Exn Bool), s) := rfl
  unfold reportExhausted reported
  rw [Program.bind_ok hread]
  split_ifs <;> rfl

/-- The run of a streaming loop that ends with an answer. -/
lemma StreamAnswered.run {userInput : String} {outputSchema : Bool} {text : String} {k : ℕ}
    {s : StreamState W A} (h : r.StreamAnswered userInput allowedTools outputSchema text k s)
    (htext : text ≠ "") (hlimit : (k : ℤ) ≤ r.maxIterations) :
    ∃ s' : StreamState W A, s'.loop.iteration = k ∧ s'.loop.finalResponse = text ∧
      r.streamAgentLoop userInput allowedTools outputSchema s =
        yield (.done (r.streamClosed userInput (r.reported s')).loop.finalResponse)
          (r.streamClosed userInput (r.reported s')) := by
  obtain ⟨context, s₀, s', hopening, hafter⟩ := h
  have hstops : Stops (r.streamRound context allowedTools) k ⟨s₀, [.conductorTrace]⟩ s' :=
    hafter.mono (fun _ _ => StreamWorks.round) fun _ _ => StreamAnswers.round htext
  have hrounds := hstops.rounds (n := r.maxIterations.toNat) (by omega)
  have hcount := hstops.count (r.streamRound_iteration context allowedTools)
  refine ⟨s', ?_, ?_, ?_⟩
  · rw [hcount, r.opening_iteration hopening, zero_add]
  · obtain ⟨_, _, _, _, _, rfl⟩ := hafter.last
    rfl
  · unfold opening at hopening
    rw [r.streamAgentLoop_apply]
    rcases henter : r.enter userInput outputSchema s.loop with ⟨⟨error⟩ | ⟨intent⟩, s₁⟩
    · rw [Program.bind_error henter] at hopening
      cases hopening
    · rw [Program.bind_ok henter] at hopening
      have hsetUp : lift (r.setUp userInput allowedTools intent) ⟨s₁, []⟩ =
          (.ok context, ⟨s₀, []⟩) := by
        rw [lift_apply, hopening]
      have htrace : yield .conductorTrace (⟨s₀, []⟩ : StreamState W A) =
          ((.ok () : Except Exn Unit), ⟨s₀, [.conductorTrace]⟩) := rfl
      have hconverse : r.streamConverse userInput allowedTools intent ⟨s₁, []⟩ =
          (.ok (), r.reported s') := by
        unfold streamConverse
        rw [Program.bind_ok hsetUp, Program.bind_ok htrace, Program.bind_ok hrounds,
          reportExhausted_apply]
      dsimp only
      rw [Program.handle_ok hconverse]

lemma streamClosed_final (userInput : String) (s : StreamState W A) :
    (r.streamClosed userInput (r.reported s)).loop.finalResponse =
      withSummary (if r.exhausted s.loop then r.streamExhaustedMessage else s.loop.finalResponse)
        (r.streamClosed userInput (r.reported s)).loop.usage := by
  unfold reported
  split_ifs <;> rfl

/-- An answer in the limit is in the done event exactly if it is kept. -/
lemma StreamAnswered.delivers_iff {userInput : String} {outputSchema : Bool} {text : String} {k : ℕ}
    {s : StreamState W A} (h : r.StreamAnswered userInput allowedTools outputSchema text k s)
    (htext : text ≠ "") (hlimit : (k : ℤ) ≤ r.maxIterations) :
    r.Delivers userInput allowedTools outputSchema text s ↔ r.Kept text k := by
  obtain ⟨s', hiteration, hfinal, hrun⟩ := h.run htext hlimit
  let final := r.streamClosed userInput (r.reported s')
  have hyield : yield (.done final.loop.finalResponse) final = ((.ok () : Except Exn Unit),
      { final with yielded := final.yielded ++ [.done final.loop.finalResponse] }) := rfl
  have hcontent := r.streamClosed_final userInput s'
  unfold Delivers
  rw [hrun, hyield, ← replaced_iff r.startsWith_streamExhausted hiteration hfinal]
  constructor
  · rintro ⟨s'', hrun', hdone⟩
    rw [Prod.mk.injEq] at hrun'
    rw [← hrun'.2, List.getLast?_concat, Option.some.injEq, OutEvent.done.injEq] at hdone
    exact withSummary_inj (hcontent.symm.trans hdone)
  · intro h
    refine ⟨_, rfl, ?_⟩
    rw [h] at hcontent
    rw [List.getLast?_concat]
    exact congrArg (fun content => some (OutEvent.done content)) hcontent

/-- An answer in an iteration of the limit comes back from both loops exactly if it is kept. -/
theorem answers_delivered_iff (r : AgentRouter W A) (userInput : String)
    (allowedTools : Option (List String)) (outputSchema : Bool) {text : String} {k : ℕ}
    (htext : text ≠ "") (hlimit : (k : ℤ) ≤ r.maxIterations) :
    (∀ s, r.Answered userInput allowedTools outputSchema text k s →
        (r.Returns userInput allowedTools outputSchema text s ↔ r.Kept text k)) ∧
      ∀ s, r.StreamAnswered userInput allowedTools outputSchema text k s →
        (r.Delivers userInput allowedTools outputSchema text s ↔ r.Kept text k) :=
  ⟨fun _ h => h.returns_iff hlimit, fun _ h => h.delivers_iff htext hlimit⟩

/-! ## An answer in the last iteration -/

/-- A model that answers at once. -/
def greeting : LoopState (List (Response Unit)) Unit where
  world := [⟨.text "Hello!", none⟩]

lemma greeting_answered (maxIterations : ℤ) :
    (scripted maxIterations 15 "files.read").Answered "Hi" none true "Hello!" 1 greeting :=
  ⟨_, _, _, rfl, .answer ⟨_, ⟨_, _, _, _, _, rfl, rfl, rfl, rfl⟩, rfl⟩⟩

lemma greeting_streamed (maxIterations : ℤ) :
    (scripted maxIterations 15 "files.read").StreamAnswered "Hi" none true "Hello!" 1
      { loop := greeting } :=
  ⟨_, _, _, rfl, .answer ⟨_, _, rfl, rfl, rfl⟩⟩

/-- With a second iteration left, the answer comes back. -/
theorem greeting_delivered :
    (scripted 2 15 "files.read").Returns "Hi" none true "Hello!" greeting ∧
      (scripted 2 15 "files.read").Delivers "Hi" none true "Hello!" { loop := greeting } := by
  have hboth := answers_delivered_iff (scripted 2 15 "files.read") "Hi" none true
    (show "Hello!" ≠ "" by decide) (k := 1) (by decide)
  have hkept : (scripted 2 15 "files.read").Kept "Hello!" 1 := .inl (by decide)
  exact ⟨(hboth.1 _ (greeting_answered 2)).mpr hkept, (hboth.2 _ (greeting_streamed 2)).mpr hkept⟩

/-- An answer in the last permitted iteration is replaced. -/
theorem last_answer_lost :
    ¬ ∀ (text : String) (k : ℕ), text ≠ "" → (k : ℤ) ≤ (scripted 1 15 "files.read").maxIterations →
      (scripted 1 15 "files.read").Answered "Hi" none true text k greeting →
      (scripted 1 15 "files.read").StreamAnswered "Hi" none true text k { loop := greeting } →
      (scripted 1 15 "files.read").Returns "Hi" none true text greeting ∧
        (scripted 1 15 "files.read").Delivers "Hi" none true text { loop := greeting } := by
  intro h
  have hreturns := (h "Hello!" 1 (by decide) (by decide) (greeting_answered 1)
    (greeting_streamed 1)).1
  rcases ((greeting_answered 1).returns_iff (by decide)).mp hreturns with hleft | herror
  · exact absurd hleft (by decide)
  · exact absurd herror (by decide)

end AgentRouter

end AgentSystem.Router
