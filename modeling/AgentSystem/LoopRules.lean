import AgentSystem.AgentLoops

/-!
# Rules for the agent loops

What the parts of the two loops leave alone, and how an invariant of the rounds gives a bound on
what a whole run did.
-/
namespace AgentSystem.Router

open Programs

variable {W A α β : Type}

/-! ## What the parts of a round leave alone -/

namespace LoopState

/-- The variables of a loop that the tools do not touch. -/
def frame (s : LoopState W A) :=
  (s.iteration, s.finalResponse, s.messages, s.totalToolCalls, s.failureCounts, s.resolvedAllowed,
    s.usage, s.memory, s.requests)

/-- The number of tool executions that were started. -/
def startedCount (s : LoopState W A) : ℕ := s.started.length

lemma onWorld_leaves {view : LoopState W A → β}
    (h : ∀ w s, view { s with world := w } = view s) (x : Program W Exn α) :
    Leaves view (onWorld x) := fun _ => Keeps.within (fun w s hs => (h w s).trans hs) x

lemma check_leaves (view : LoopState W A → β) (f : LoopState W A → Except Exn α) :
    Leaves view (check f) := by
  intro v s hs
  unfold check
  cases f s with
  | error error => exact hs
  | ok a => exact hs

lemma update_leaves {view : LoopState W A → β} {f : LoopState W A → LoopState W A}
    (h : ∀ s, view (f s) = view s) : Leaves view (Program.update f : Program _ Exn Unit) :=
  fun _ => Keeps.update fun s hs => (h s).trans hs

lemma tolerate_leaves {view : LoopState W A → β} {x : Program (LoopState W A) Exn α}
    (h : Leaves view x) : Leaves view (tolerate x) := by
  refine fun v => Keeps.handle (Keeps.bind (h v) fun a => Keeps.ret _) fun error => ?_
  cases error with
  | cancelled => exact Keeps.raise _
  | raised kind message => exact Keeps.ret _

end LoopState

open LoopState

namespace Runtime

variable (r : Runtime W A)

/-- Behind its first step, `execute_tool` leaves what depends on none of its counters. -/
lemma checkLimits_leaves {view : LoopState W A → β} (call : ToolCall A)
    (allowedTools : Option (List String)) (hworld : ∀ w s, view { s with world := w } = view s)
    (hcount : ∀ s, view (r.countTurn call s) = view s)
    (hpassed : ∀ s, view { s with admitted := s.admitted ++ [call] } = view s) :
    Leaves view (r.checkLimits call allowedTools) := by
  intro v
  refine Keeps.bind (update_leaves hcount v) fun _ => Keeps.bind (Keeps.read _) fun reason => ?_
  cases reason with
  | some reason => exact Keeps.bind (onWorld_leaves hworld _ v) fun _ => Keeps.raise _
  | none =>
      refine Keeps.split (Keeps.raise _) (Keeps.bind (update_leaves hpassed v) fun _ =>
        Keeps.bind (Keeps.read _) fun registry => ?_)
      exact Keeps.split (onWorld_leaves hworld _ v) (Keeps.raise _)

lemma executeTool_frame (call : ToolCall A) (allowedTools : Option (List String)) :
    Leaves frame (r.executeTool call allowedTools) := by
  intro v
  refine Keeps.bind (update_leaves (fun _ => rfl) v) fun _ =>
    Keeps.bind (Keeps.read _) fun expected => ?_
  cases expected with
  | some expected => exact Keeps.raise _
  | none =>
      exact r.checkLimits_leaves call allowedTools (fun _ _ => rfl) (fun _ => rfl)
        (fun _ => rfl) v

lemma executeDecided_frame (call : ToolCall A) (allowedTools : Option (List String))
    (decision : Decision) : Leaves frame (r.executeDecided call allowedTools decision) := by
  intro v
  cases decision with
  | approved => exact r.executeTool_frame call allowedTools v
  | denied => exact Keeps.raise _
  | hijacked value => exact Keeps.ret _

lemma executeToolWithApproval_frame (call : ToolCall A) (allowedTools : Option (List String)) :
    Leaves frame (r.executeToolWithApproval call allowedTools) := by
  intro v
  refine Keeps.bind (Keeps.read _) fun sensitive => Keeps.split ?_ ?_
  · exact Keeps.bind (onWorld_leaves (fun _ _ => rfl) _ v) fun decision =>
      r.executeDecided_frame call allowedTools decision v
  · exact r.executeTool_frame call allowedTools v

/-- The awaited calls of a response leave the variables of the loop as they are. -/
lemma gather_frame (calls : List (ToolCall A)) (allowedTools : Option (List String)) :
    Leaves frame (r.gather calls allowedTools) := by
  intro v
  refine Keeps.bind (Keeps.read _) fun tasks => Keeps.bind (Keeps.collect fun task _ => ?_)
    fun results => Keeps.ret _
  exact Keeps.handle (Keeps.bind (r.executeToolWithApproval_frame task.2 allowedTools v)
    fun _ => Keeps.ret _) fun error => Keeps.ret _

end Runtime

/-! ## Rounds -/

section Rounds

variable {σ : Type} {round : Program σ Exn Bool} {P B C : σ → Prop} {E : Exn → σ → Prop}

/-- Every state that a loop starts a round in meets a condition. -/
def RoundsMeet (round : Program σ Exn Bool) (C : σ → Prop) : ℕ → σ → Prop
  | 0, _ => True
  | n + 1, s => C s ∧ ∀ s', round s = (.ok true, s') → RoundsMeet round C n s'

/-- A round that keeps an invariant where it goes on gives a loop that ends with a bound. -/
lemma rounds_meet (hround : ∀ s, P s → C s →
      Ends (fun again s => B s ∧ (again = true → P s)) E (round s)) (hP : ∀ s, P s → B s) (n : ℕ) :
    ∀ s, P s → RoundsMeet round C n s → Ends (fun _ => B) E (rounds round n s) := by
  induction n with
  | zero => exact fun s hs _ => hP s hs
  | succ n ih =>
      rintro s hs ⟨hC, hnext⟩
      have hends := hround s hs hC
      rw [rounds, Program.bind_apply]
      generalize hresult : round s = result at hends hnext
      obtain ⟨⟨error⟩ | ⟨again⟩, s'⟩ := result
      · exact hends
      · cases again with
        | false => exact hends.1
        | true => exact ih s' (hends.2 rfl) (hnext s' rfl)

lemma roundsMeet_true (round : Program σ Exn Bool) (n : ℕ) (s : σ) :
    RoundsMeet round (fun _ => True) n s := by
  induction n generalizing s with
  | zero => exact trivial
  | succ n ih => exact ⟨trivial, fun s' _ => ih s'⟩

lemma rounds_triple (hround : Triple P round (fun again s => B s ∧ (again = true → P s)) E)
    (hP : ∀ s, P s → B s) (n : ℕ) : Triple P (rounds round n) (fun _ => B) E := fun s hs =>
  rounds_meet (fun s hs (_ : True) => hround s hs) hP n s hs (roundsMeet_true round n s)

lemma rounds_keeps (h : Keeps P round) (n : ℕ) : Keeps P (rounds round n) :=
  rounds_triple (Triple.weaken h (fun _ => id) (fun _ _ hs => ⟨hs, fun _ => hs⟩) fun _ _ => id)
    (fun _ => id) n

/-- A measure that each round raises by at most one rises by at most the number of rounds. -/
lemma rounds_count {view : σ → ℕ} (h : ∀ k, Triple (fun s => view s ≤ k) round
      (fun _ s => view s ≤ k + 1) fun _ s => view s ≤ k + 1) (n k : ℕ) :
    Triple (fun s => view s ≤ k) (rounds round n) (fun _ s => view s ≤ k + n)
      fun _ s => view s ≤ k + n := by
  induction n generalizing k with
  | zero => exact Triple.ret fun _ => id
  | succ n ih =>
      refine Triple.bind (Triple.weaken (h k) (fun _ => id) (fun _ _ => id)
        fun _ s (hs : view s ≤ k + 1) => by omega) fun again => Triple.split (fun _ => ?_)
          fun _ => Triple.ret fun s (hs : view s ≤ k + 1) => by omega
      exact Triple.weaken (ih (k + 1)) (fun _ => id) (fun _ s hs => by omega)
        fun _ s hs => by omega

end Rounds

/-! ## Parts of the plain loop -/

namespace AgentRouter

variable (r : AgentRouter W A)

lemma settleResults_leaves {view : LoopState W A → β}
    (h : ∀ call text s, view (Runtime.recordResult call text s) = view s)
    (results : List (ToolCall A × Except Exn String)) : Leaves view (r.settleResults results) := by
  intro v
  induction results with
  | nil => exact Keeps.ret _
  | cons result results ih =>
      exact Keeps.split (Keeps.ret _)
        (Keeps.bind (update_leaves (h result.1 _) v) fun _ => ih)

lemma validateCalls_leaves (view : LoopState W A → β) (calls : List (ToolCall A)) :
    Leaves view
      (Program.collect (fun call => check fun s => r.validateCall call s.world) calls) :=
  fun v => Keeps.collect fun _ _ => check_leaves view _ v

/-- What a batch of calls leaves of the loop. -/
lemma handleToolCalls_leaves {view : LoopState W A → β} (calls : List (ToolCall A))
    (allowedTools : Option (List String))
    (hframe : ∀ s s' : LoopState W A, s.frame = s'.frame → view s = view s')
    (hrecord : ∀ call text s, view (Runtime.recordResult call text s) = view s) :
    Leaves view (r.handleToolCalls calls allowedTools) := by
  intro v
  refine Keeps.bind (r.validateCalls_leaves view calls v) fun _ => Keeps.bind ?_ fun results =>
    r.settleResults_leaves hrecord _ v
  intro s hs
  refine Triple.weaken (r.gather_frame calls allowedTools s.frame) (fun _ => id)
    (fun _ s' h => (hframe s' s h).trans hs) (fun _ s' h => (hframe s' s h).trans hs) s rfl

lemma openRound_leaves {view : LoopState W A → β}
    (hworld : ∀ w s, view { s with world := w } = view s)
    (hcount : ∀ s, view { s with iteration := s.iteration + 1 } = view s) :
    Leaves view r.openRound := by
  intro v
  refine Keeps.bind (onWorld_leaves hworld _ v) fun _ => Keeps.bind (update_leaves hcount v)
    fun _ => Keeps.bind (Keeps.read _) fun iteration => Keeps.split ?_ (Keeps.ret _)
  exact Keeps.bind (onWorld_leaves hworld _ v) fun decision => Keeps.ret _

lemma prepareRequest_leaves {view : LoopState W A → β} (context : Context)
    (hworld : ∀ w s, view { s with world := w } = view s)
    (hcount : ∀ s, view { s with requests := s.requests + 1 } = view s) :
    Leaves view (r.prepareRequest context) := fun v =>
  Keeps.bind (Keeps.read _) fun _ => Keeps.bind (onWorld_leaves hworld _ v) fun _ =>
    Keeps.bind (update_leaves hcount v) fun _ => Keeps.ret _

lemma finish_leaves {view : LoopState W A → β} (text : String)
    (h : ∀ s, view { s with finalResponse := text } = view s) :
    Leaves view (LoopState.finish text) := fun v =>
  Keeps.bind (update_leaves h v) fun _ => Keeps.ret _

/-- What the reply of a round leaves alone. -/
lemma settleReply_leaves {view : LoopState W A → β} (allowedTools : Option (List String))
    (reply : Reply A) (hframe : ∀ s s' : LoopState W A, s.frame = s'.frame → view s = view s')
    (hrecord : ∀ call text s, view (Runtime.recordResult call text s) = view s)
    (hfinal : ∀ text s, view { s with finalResponse := text } = view s)
    (htotal : ∀ n s, view { s with totalToolCalls := n } = view s) :
    Leaves view (r.settleReply allowedTools reply) := by
  have hcalls : ∀ calls, Leaves view (r.toolRound calls allowedTools) := by
    intro calls v
    refine Keeps.bind (update_leaves (fun s => htotal _ s) v) fun _ => Keeps.bind (Keeps.read _)
      fun total => Keeps.split (finish_leaves _ (hfinal _) v) (Keeps.bind
        (r.handleToolCalls_leaves calls allowedTools hframe hrecord v) fun response => ?_)
    cases response with
    | none => exact Keeps.ret _
    | some response => exact finish_leaves _ (hfinal _) v
  cases reply with
  | error data => exact finish_leaves _ (hfinal _)
  | text data => exact finish_leaves _ (hfinal _)
  | toolCall call => exact hcalls [call]
  | toolCalls calls => exact hcalls calls
  | other type => exact finish_leaves _ (hfinal _)

/-! ## A whole run -/

lemma intentOf_leaves {view : LoopState W A → β} (userInput : String) (outputSchema : Bool)
    (hworld : ∀ w s, view { s with world := w } = view s)
    (husage : ∀ u s, view { s with usage := u } = view s) :
    Leaves view (r.intentOf userInput outputSchema) := by
  intro v
  refine Keeps.split (Keeps.ret _) (Keeps.bind (tolerate_leaves (fun v => ?_) v) fun reply => ?_)
  · exact Keeps.bind (onWorld_leaves hworld _ v) fun response =>
      Keeps.bind (update_leaves (fun s => husage _ s) v) fun _ => Keeps.ret _
  · cases reply with
    | none => exact Keeps.ret _
    | some reply => cases reply <;> exact Keeps.ret _

lemma setUp_leaves {view : LoopState W A → β} (userInput : String)
    (allowedTools : Option (List String)) (intent : Intent)
    (hworld : ∀ w s, view { s with world := w } = view s)
    (hresolved : ∀ tools s, view { s with resolvedAllowed := tools } = view s)
    (hmessages : ∀ messages s, view { s with messages := messages } = view s) :
    Leaves view (r.setUp userInput allowedTools intent) := by
  intro v
  refine Keeps.bind (onWorld_leaves hworld _ v) fun basePrompt =>
    Keeps.bind (tolerate_leaves (onWorld_leaves hworld _) v) fun memory =>
    Keeps.bind (update_leaves (fun s => hresolved _ s) v) fun _ =>
    Keeps.bind (Keeps.read _) fun schemas => Keeps.bind (Keeps.read _) fun resolved =>
    Keeps.bind (onWorld_leaves hworld _ v) fun _ => ?_
  exact Keeps.bind (update_leaves (fun s => hmessages _ s) v) fun _ => Keeps.ret _

/-- What a run did, with the allowlist that it resolved. -/
def record (s : LoopState W A) := (s.started, s.admitted, s.resolvedAllowed, s.requests)

lemma noteCancelled_record (error : Exn) :
    Leaves record (noteCancelled error : Program (LoopState W A) Exn Unit) := by
  intro v
  cases error with
  | cancelled => exact update_leaves (fun _ => rfl) v
  | raised kind message => exact Keeps.raise _

/-- The start of a run up to its `try`. -/
def enter (userInput : String) (outputSchema : Bool) : Program (LoopState W A) Exn Intent := do
  .update LoopState.fresh
  LoopState.onWorld r.resolveAccount
  r.intentOf userInput outputSchema

/-- The start of a run up to its rounds. -/
def opening (userInput : String) (allowedTools : Option (List String)) (outputSchema : Bool) :
    Program (LoopState W A) Exn Context := do
  let intent ← r.enter userInput outputSchema
  r.setUp userInput allowedTools intent

/-- The state behind the `finally` block. -/
def closed (userInput : String) (s : LoopState W A) : LoopState W A :=
  r.remember userInput (if r.exhausted s then { s with finalResponse := r.exhaustedMessage } else s)

lemma closed_record (userInput : String) (s : LoopState W A) :
    record (r.closed userInput s) = record s := by
  unfold closed
  split_ifs <;> rfl

/-- A run by the way its guarded part ends. -/
lemma runAgentLoop_apply (userInput : String) (allowedTools : Option (List String))
    (outputSchema : Bool) (s : LoopState W A) :
    r.runAgentLoop userInput allowedTools outputSchema s =
      match r.enter userInput outputSchema s with
      | (.error error, s) => (.error error, s)
      | (.ok intent, s) =>
          match (r.converse userInput allowedTools intent).handle noteCancelled s with
          | (.error error, s) => (.error error, r.closed userInput s)
          | (.ok _, s) => (.ok (r.closed userInput s).finalResponse, r.closed userInput s) := by
  have hstart : Program.update LoopState.fresh s = ((.ok () : Except Exn Unit), fresh s) := rfl
  unfold runAgentLoop enter
  rw [Program.bind_ok hstart, Program.bind_ok hstart, Program.bind_apply, Program.bind_apply]
  generalize LoopState.onWorld r.resolveAccount (fresh s) = result
  obtain ⟨⟨error⟩ | ⟨_⟩, s₁⟩ := result
  · rfl
  · dsimp only
    rw [Program.bind_apply]
    generalize r.intentOf userInput outputSchema s₁ = result
    obtain ⟨⟨error⟩ | ⟨intent⟩, s₂⟩ := result
    · rfl
    · dsimp only
      rw [Program.bind_apply]
      unfold Program.cleanUp
      generalize (r.converse userInput allowedTools intent).handle noteCancelled s₂ = result
      obtain ⟨⟨error⟩ | ⟨_⟩, s₃⟩ := result
      · rfl
      · rfl

/-- What holds before the set-up of a run, behind it, and wherever the run ends. -/
structure RunBound (userInput : String) (allowedTools : Option (List String))
    (outputSchema : Bool) (P Q B : LoopState W A → Prop) : Prop where
  fresh : ∀ s, P (fresh s)
  started : ∀ s, P s → B s
  ready : ∀ s, Q s → B s
  recorded : ∀ s s', record s' = record s → B s → B s'
  account : Keeps P (onWorld r.resolveAccount)
  intent : Keeps P (r.intentOf userInput outputSchema)
  setUp : ∀ intent, Triple P (r.setUp userInput allowedTools intent) (fun _ => Q) fun _ => B

variable {r} {P Q B : LoopState W A → Prop} {userInput : String}
  {allowedTools : Option (List String)} {outputSchema : Bool}

lemma RunBound.weaken (h : r.RunBound userInput allowedTools outputSchema P Q B)
    {x : Program (LoopState W A) Exn α} (hx : Keeps P x) : Triple P x (fun _ => P) fun _ => B :=
  Triple.weaken hx (fun _ => id) (fun _ _ => id) fun _ => h.started

lemma RunBound.enter (h : r.RunBound userInput allowedTools outputSchema P Q B) :
    Triple (fun _ => True) (r.enter userInput outputSchema) (fun _ => P) fun _ => B :=
  Triple.bind (Triple.update fun s _ => h.fresh s) fun _ => Triple.bind (h.weaken h.account)
    fun _ => h.weaken h.intent

/-- What the rounds of a run find. -/
lemma RunBound.opening (h : r.RunBound userInput allowedTools outputSchema P Q B)
    {s s' : LoopState W A} {context : Context}
    (hopening : r.opening userInput allowedTools outputSchema s = (.ok context, s')) : Q s' := by
  have hopened : Triple (fun _ => True) (r.opening userInput allowedTools outputSchema)
      (fun _ => Q) fun _ _ => True :=
    Triple.bind (Triple.weaken h.enter (fun _ => id) (fun _ _ => id) fun _ _ _ => trivial)
      fun intent => Triple.weaken (h.setUp intent) (fun _ => id) (fun _ _ => id)
        fun _ _ _ => trivial
  have hends := hopened s trivial
  rw [hopening] at hends
  exact hends

lemma RunBound.keeps (h : r.RunBound userInput allowedTools outputSchema P Q B)
    {x : Program (LoopState W A) Exn α} (hx : Leaves record x) : Keeps B x := by
  intro s hs
  exact Triple.weaken (hx (record s)) (fun _ => id) (fun _ s' hsame => h.recorded s s' hsame hs)
    (fun _ s' hsame => h.recorded s s' hsame hs) s rfl

/-- A bound on what a run did holds at its end when the rounds keep it. -/
lemma runAgentLoop_ends (h : r.RunBound userInput allowedTools outputSchema P Q B)
    (s : LoopState W A)
    (hrounds : ∀ context s', r.opening userInput allowedTools outputSchema s = (.ok context, s') →
      Ends (fun _ => B) (fun _ => B)
        (rounds (r.round context allowedTools) r.maxIterations.toNat s')) :
    B (r.runAgentLoop userInput allowedTools outputSchema s).2 := by
  have henter := h.enter s trivial
  rw [r.runAgentLoop_apply]
  unfold AgentRouter.opening at hrounds
  generalize hresult : r.enter userInput outputSchema s = result at henter
  obtain ⟨⟨error⟩ | ⟨intent⟩, s₁⟩ := result
  · exact henter
  · rw [Program.bind_ok hresult] at hrounds
    have hconverse : Triple (fun s' => s' = s₁) (r.converse userInput allowedTools intent)
        (fun _ => B) fun _ => B := by
      rintro s' rfl
      have hsetUp := h.setUp intent s' henter
      unfold converse
      generalize hset : r.setUp userInput allowedTools intent s' = result at hsetUp hrounds
      obtain ⟨⟨error⟩ | ⟨context⟩, s₂⟩ := result
      · rw [Program.bind_error hset]
        exact hsetUp
      · rw [Program.bind_ok hset]
        exact hrounds context s₂ rfl
    have hhandled := Triple.handle hconverse
      (fun error => h.keeps (noteCancelled_record error)) s₁ rfl
    have hclosed : ∀ s', B s' → B (r.closed userInput s') := fun s' hs =>
      h.recorded s' _ (r.closed_record userInput s') hs
    dsimp only
    revert hhandled
    generalize (r.converse userInput allowedTools intent).handle noteCancelled s₁ = result
    obtain ⟨⟨error⟩ | ⟨_⟩, s₂⟩ := result
    · exact hclosed s₂
    · exact hclosed s₂

end AgentRouter

/-! ## The streaming loop -/

namespace StreamState

lemma lift_apply (x : Program (LoopState W A) Exn α) (s : StreamState W A) :
    lift x s = ((x s.loop).1, { s with loop := (x s.loop).2 }) := rfl

lemma lift_eq_ok {x : Program (LoopState W A) Exn α} {s s' : StreamState W A} {a : α}
    (h : lift x s = (.ok a, s')) : x s.loop = (.ok a, s'.loop) := by
  rw [lift_apply] at h
  generalize x s.loop = result at h
  obtain ⟨⟨error⟩ | ⟨a'⟩, loop⟩ := result
  · cases h
  · cases h
    rfl

lemma lift_triple {P : LoopState W A → Prop} {x : Program (LoopState W A) Exn α}
    {Q : α → LoopState W A → Prop} {E : Exn → LoopState W A → Prop} (h : Triple P x Q E) :
    Triple (fun s => P s.loop) (lift x) (fun a s => Q a s.loop) fun e s => E e s.loop := by
  intro s hs
  have hends := h s.loop hs
  rw [lift_apply]
  generalize x s.loop = result at hends ⊢
  obtain ⟨⟨error⟩ | ⟨a⟩, loop⟩ := result
  · exact hends
  · exact hends

lemma yield_keeps (P : LoopState W A → Prop) (event : OutEvent A) :
    Keeps (fun s : StreamState W A => P s.loop) (yield event) := Keeps.update fun _ => id

/-- What the loops leave, the stream leaves. -/
lemma lift_leaves {view : LoopState W A → β} {x : Program (LoopState W A) Exn α}
    (h : Leaves view x) : Leaves (fun s : StreamState W A => view s.loop) (lift x) := fun v =>
  lift_triple (h v)

lemma yield_leaves (view : LoopState W A → β) (event : OutEvent A) :
    Leaves (fun s : StreamState W A => view s.loop) (yield event) := fun v =>
  yield_keeps (fun loop => view loop = v) event

end StreamState

open StreamState

namespace AgentRouter

variable (r : AgentRouter W A)

lemma consume_leaves {view : LoopState W A → β} (failure : Option Exn)
    (husage : ∀ u s, view { s with usage := u } = view s)
    (hfinal : ∀ text s, view { s with finalResponse := text } = view s)
    (events : List (Response A)) (text : String) :
    Leaves (fun s : StreamState W A => view s.loop) (consume failure events text) := by
  intro v
  induction events generalizing text with
  | nil =>
      cases failure with
      | none => exact Keeps.ret _
      | some error => exact Keeps.raise _
  | cons event events ih =>
      refine Keeps.bind (lift_leaves (update_leaves fun s => husage _ s) v) fun _ => ?_
      cases event.reply with
      | error data =>
          exact Keeps.bind (lift_leaves (update_leaves fun s => hfinal _ s) v) fun _ =>
            Keeps.bind (yield_leaves view _ v) fun _ => Keeps.ret _
      | text data => exact Keeps.bind (yield_leaves view _ v) fun _ => ih _
      | toolCall call => exact Keeps.ret _
      | toolCalls calls => exact Keeps.ret _
      | other type => exact ih _

lemma announce_leaves (view : LoopState W A → β) (call : ToolCall A) :
    Leaves (fun s : StreamState W A => view s.loop) (r.announce call) := by
  intro v
  refine Keeps.bind (yield_leaves view _ v) fun _ =>
    Keeps.bind (lift_leaves (check_leaves view _) v) fun _ => Keeps.bind (Keeps.read _) fun sensitive => ?_
  exact Keeps.split (yield_leaves view _ v) (Keeps.ret _)

lemma settleStreamed_leaves {view : LoopState W A → β}
    (h : ∀ call text s, view (Runtime.recordResult call text s) = view s)
    (results : List (ToolCall A × Except Exn String)) :
    Leaves (fun s : StreamState W A => view s.loop) (r.settleStreamed results) := by
  intro v
  induction results with
  | nil => exact Keeps.ret _
  | cons result results ih =>
      refine Keeps.bind (yield_leaves view _ v) fun _ => Keeps.split (Keeps.ret _) ?_
      exact Keeps.bind (lift_leaves (update_leaves (h result.1 _)) v) fun _ => ih

/-- What the tool calls of a streaming round leave alone. -/
lemma streamToolRound_leaves {view : LoopState W A → β} (calls : List (ToolCall A))
    (allowedTools : Option (List String))
    (hframe : ∀ s s' : LoopState W A, s.frame = s'.frame → view s = view s')
    (hrecord : ∀ call text s, view (Runtime.recordResult call text s) = view s)
    (hfinal : ∀ text s, view { s with finalResponse := text } = view s)
    (htotal : ∀ n s, view { s with totalToolCalls := n } = view s) :
    Leaves (fun s : StreamState W A => view s.loop) (r.streamToolRound calls allowedTools) := by
  intro v
  refine Keeps.bind (Keeps.collect fun call _ => r.announce_leaves view call v) fun _ =>
    Keeps.bind ?_ fun results => Keeps.bind (r.settleStreamed_leaves hrecord _ v)
      fun response => ?_
  · intro s hs
    refine Triple.weaken (lift_triple (r.gather_frame calls allowedTools s.loop.frame))
      (fun _ => id) (fun _ s' h => ?_) (fun _ s' h => ?_) s rfl
    · exact (hframe s'.loop s.loop h).trans hs
    · exact (hframe s'.loop s.loop h).trans hs
  · have hset : ∀ text, Keeps (fun s : StreamState W A => view s.loop = v)
        (lift (LoopState.setFinal text)) := fun text =>
      lift_leaves (update_leaves (hfinal text)) v
    cases response with
    | some response =>
        exact Keeps.bind (hset _) fun _ => Keeps.bind (yield_leaves view _ v) fun _ => Keeps.ret _
    | none =>
        refine Keeps.bind (lift_leaves (update_leaves fun s => htotal _ s) v) fun _ =>
          Keeps.bind (Keeps.read _) fun total => Keeps.split ?_ (Keeps.ret _)
        exact Keeps.bind (hset _) fun _ => Keeps.bind (yield_leaves view _ v) fun _ => Keeps.ret _

/-- What the stream of a round leaves alone while it is consumed. -/
lemma receive_leaves {view : LoopState W A → β} (context : Context)
    (hworld : ∀ w s, view { s with world := w } = view s)
    (hrequests : ∀ s, view { s with requests := s.requests + 1 } = view s)
    (husage : ∀ u s, view { s with usage := u } = view s)
    (hfinal : ∀ text s, view { s with finalResponse := text } = view s) :
    Leaves (fun s : StreamState W A => view s.loop) (r.receive context) := by
  intro v
  refine Keeps.bind (lift_leaves (r.prepareRequest_leaves context hworld hrequests) v)
    fun request => Keeps.bind (yield_leaves view _ v) fun _ =>
    Keeps.bind (lift_leaves (onWorld_leaves hworld _) v) fun stream => ?_
  exact consume_leaves _ husage hfinal _ _ v

lemma reportExhausted_leaves {view : LoopState W A → β}
    (hfinal : ∀ text s, view { s with finalResponse := text } = view s) :
    Leaves (fun s : StreamState W A => view s.loop) r.reportExhausted := fun v =>
  Keeps.bind (Keeps.read _) fun _ => Keeps.split
    (Keeps.bind (lift_leaves (update_leaves fun s => hfinal _ s) v) fun _ => yield_leaves view _ v)
    (Keeps.ret _)

/-- The state behind the `finally` block of a streaming run. -/
def streamClosed (userInput : String) (s : StreamState W A) : StreamState W A :=
  { s with loop := r.remember userInput s.loop }

/-- A streaming run by the way its guarded part ends. -/
lemma streamAgentLoop_apply (userInput : String) (allowedTools : Option (List String))
    (outputSchema : Bool) (s : StreamState W A) :
    r.streamAgentLoop userInput allowedTools outputSchema s =
      match r.enter userInput outputSchema s.loop with
      | (.error error, loop) => (.error error, { loop := loop })
      | (.ok intent, loop) =>
          match (r.streamConverse userInput allowedTools intent).handle
              (fun error => lift (noteCancelled error)) { loop := loop } with
          | (.error error, s) => (.error error, r.streamClosed userInput s)
          | (.ok _, s) =>
              yield (.done (r.streamClosed userInput s).loop.finalResponse)
                (r.streamClosed userInput s) := by
  have hstart : Program.update LoopState.fresh s.loop =
      ((.ok () : Except Exn Unit), fresh s.loop) := rfl
  have hstream : (Program.update fun s : StreamState W A => { loop := s.loop.fresh }) s =
      ((.ok () : Except Exn Unit), ({ loop := fresh s.loop } : StreamState W A)) := rfl
  unfold streamAgentLoop enter
  rw [Program.bind_ok hstart, Program.bind_ok hstream, Program.bind_apply, Program.bind_apply,
    lift_apply]
  generalize LoopState.onWorld r.resolveAccount (fresh s.loop) = result
  obtain ⟨⟨error⟩ | ⟨_⟩, s₁⟩ := result
  · rfl
  · dsimp only
    rw [Program.bind_apply, lift_apply]
    generalize r.intentOf userInput outputSchema s₁ = result
    obtain ⟨⟨error⟩ | ⟨intent⟩, s₂⟩ := result
    · rfl
    · dsimp only
      rw [Program.bind_apply]
      unfold Program.cleanUp
      generalize (r.streamConverse userInput allowedTools intent).handle
        (fun error => lift (noteCancelled error)) { loop := s₂ } = result
      obtain ⟨⟨error⟩ | ⟨_⟩, s₃⟩ := result
      · rfl
      · rfl

variable {r} {P Q B : LoopState W A → Prop} {userInput : String}
  {allowedTools : Option (List String)} {outputSchema : Bool}

lemma RunBound.streamKeeps (h : r.RunBound userInput allowedTools outputSchema P Q B)
    {x : Program (StreamState W A) Exn α} (hx : Leaves (fun s => record s.loop) x) :
    Keeps (fun s => B s.loop) x := by
  intro s hs
  exact Triple.weaken (hx (record s.loop)) (fun _ => id)
    (fun _ s' hsame => h.recorded s.loop s'.loop hsame hs)
    (fun _ s' hsame => h.recorded s.loop s'.loop hsame hs) s rfl

/-- A bound on what a streaming run did holds at its end when the rounds keep it. -/
lemma streamAgentLoop_ends (h : r.RunBound userInput allowedTools outputSchema P Q B)
    (s : StreamState W A)
    (hrounds : ∀ context s',
      r.opening userInput allowedTools outputSchema s.loop = (.ok context, s') →
      Ends (fun _ s => B s.loop) (fun _ s => B s.loop)
        (rounds (r.streamRound context allowedTools) r.maxIterations.toNat
          { loop := s', yielded := [.conductorTrace] })) :
    B (r.streamAgentLoop userInput allowedTools outputSchema s).2.loop := by
  have henter := h.enter s.loop trivial
  rw [r.streamAgentLoop_apply]
  unfold AgentRouter.opening at hrounds
  generalize hresult : r.enter userInput outputSchema s.loop = result at henter
  obtain ⟨⟨error⟩ | ⟨intent⟩, s₁⟩ := result
  · exact henter
  · rw [Program.bind_ok hresult] at hrounds
    have hconverse : Triple (fun s' => s' = ({ loop := s₁ } : StreamState W A))
        (r.streamConverse userInput allowedTools intent) (fun _ s => B s.loop)
        fun _ s => B s.loop := by
      rintro s' rfl
      have hsetUp := h.setUp intent s₁ henter
      unfold streamConverse
      rw [Program.bind_apply, lift_apply]
      dsimp only
      generalize hset : r.setUp userInput allowedTools intent s₁ = result at hsetUp hrounds
      obtain ⟨⟨error⟩ | ⟨context⟩, s₂⟩ := result
      · exact hsetUp
      · have hloop := hrounds context s₂ rfl
        let start : StreamState W A := ⟨s₂, [.conductorTrace]⟩
        change Ends _ _ ((rounds (r.streamRound context allowedTools) r.maxIterations.toNat >>=
          fun _ => r.reportExhausted) start)
        have hrounded : Triple (fun s => s = start)
            (rounds (r.streamRound context allowedTools) r.maxIterations.toNat)
            (fun _ s => B s.loop) fun _ s => B s.loop := by
          rintro s' rfl
          exact hloop
        refine Triple.bind hrounded (fun _ => ?_) start rfl
        exact h.streamKeeps (r.reportExhausted_leaves fun _ _ => rfl)
    have hhandled := Triple.handle hconverse
      (fun error => h.streamKeeps (lift_leaves (noteCancelled_record error))) ⟨s₁, []⟩ rfl
    have hclosed : ∀ s' : StreamState W A, B s'.loop → B (r.streamClosed userInput s').loop :=
      fun s' hs => h.recorded s'.loop _ rfl hs
    dsimp only
    revert hhandled
    generalize (r.streamConverse userInput allowedTools intent).handle
      (fun error => lift (noteCancelled error)) ⟨s₁, []⟩ = result
    obtain ⟨⟨error⟩ | ⟨_⟩, s₂⟩ := result
    · exact hclosed s₂
    · exact hclosed s₂

end AgentRouter

end AgentSystem.Router
