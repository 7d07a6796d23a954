import AgentSystem.LoopRules

/-!
# The limits of the agent loops

How many tool executions a run starts and how many generation requests it makes, in both loops.
-/
namespace AgentSystem.Router

open Programs LoopState

variable {W A α : Type}

namespace Runtime

variable (r : Runtime W A)

/-! ## How many tools are started -/

lemma executeTool_started (call : ToolCall A) (allowedTools : Option (List String)) (k : ℕ) :
    Triple (fun s => startedCount s ≤ k) (r.executeTool call allowedTools)
      (fun _ s => startedCount s ≤ k + 1) fun _ s => startedCount s ≤ k + 1 := by
  refine Triple.bind (R := fun _ s => startedCount s ≤ k + 1) (Triple.update fun s hs => ?_)
    fun _ => ?_
  · simp only [startedCount, List.length_append, List.length_singleton]
    exact Nat.add_le_add_right hs 1
  · refine Keeps.bind (Keeps.read _) fun expected => ?_
    cases expected with
    | some expected => exact Keeps.raise _
    | none =>
        have htail : Leaves startedCount (r.checkLimits call allowedTools) :=
          r.checkLimits_leaves call allowedTools (fun _ _ => rfl) (fun _ => rfl) fun _ => rfl
        exact htail.keeps (· ≤ k + 1)

lemma executeToolWithApproval_started (call : ToolCall A) (allowedTools : Option (List String))
    (k : ℕ) :
    Triple (fun s => startedCount s ≤ k) (r.executeToolWithApproval call allowedTools)
      (fun _ s => startedCount s ≤ k + 1) fun _ s => startedCount s ≤ k + 1 := by
  have hsome : ∀ s : LoopState W A, startedCount s ≤ k → startedCount s ≤ k + 1 := fun s hs =>
    Nat.le_succ_of_le hs
  refine Triple.bind (Triple.read fun _ => id) fun sensitive =>
    Triple.split (fun _ => ?_) fun _ => r.executeTool_started call allowedTools k
  have hwait : Leaves startedCount (r.waitForApproval (.tool call)) :=
    onWorld_leaves (fun _ _ => rfl) _
  refine Triple.bind (Triple.weaken (hwait.keeps (· ≤ k)) (fun _ => id) (fun _ _ => id)
    fun _ s hs => hsome s hs) fun decision => ?_
  cases decision with
  | approved => exact r.executeTool_started call allowedTools k
  | denied => exact Triple.raise hsome
  | hijacked value => exact Triple.ret hsome

/-- A batch of calls starts at most as many tools as it has calls. -/
lemma gather_started (calls : List (ToolCall A)) (allowedTools : Option (List String)) (k : ℕ) :
    Triple (fun s => startedCount s ≤ k) (r.gather calls allowedTools)
      (fun _ s => startedCount s ≤ k + calls.length)
      fun _ s => startedCount s ≤ k + calls.length := by
  have hlength : ∀ w, (r.arrange calls w).length = calls.length := fun w => by
    simpa using (r.arrange_perm calls w).length_eq
  refine Triple.bind (R := fun tasks s => tasks.length = calls.length ∧ startedCount s ≤ k)
    (Triple.read fun s hs => ⟨hlength s.world, hs⟩) fun tasks => Triple.assume fun htasks => ?_
  refine Triple.bind ?_ fun results => Triple.ret fun _ => id
  rw [← htasks]
  refine Triple.collect_count (fun task j => ?_) tasks k
  exact Triple.handle (Triple.bind (r.executeToolWithApproval_started task.2 allowedTools j)
    fun _ => Triple.ret fun _ => id) fun error => Triple.ret fun _ => id

end Runtime

/-! ## The plain loop -/

namespace AgentRouter

variable (r : AgentRouter W A)

lemma handleToolCalls_started (calls : List (ToolCall A)) (allowedTools : Option (List String))
    (k : ℕ) :
    Triple (fun s => startedCount s ≤ k) (r.handleToolCalls calls allowedTools)
      (fun _ s => startedCount s ≤ k + calls.length)
      fun _ s => startedCount s ≤ k + calls.length := by
  have hvalidate := (r.validateCalls_leaves startedCount calls).keeps (· ≤ k)
  refine Triple.bind (Triple.weaken hvalidate (fun _ => id) (fun _ _ => id)
    fun _ _ => le_add_right) fun _ => Triple.bind (r.gather_started calls allowedTools k)
      fun results => ?_
  have hsettle : Leaves startedCount (r.settleResults (calls.zip results)) :=
    r.settleResults_leaves (fun _ _ _ => rfl) _
  exact hsettle.keeps (· ≤ k + calls.length)

/-- The tools that were started fit into the calls that were counted, and these into the limit. -/
structure InBudget (s : LoopState W A) : Prop where
  counted : (startedCount s : ℤ) ≤ s.totalToolCalls
  limited : s.totalToolCalls ≤ r.maxToolCalls.toNat

/-- No more tools were started than the limit permits. -/
def Bounded (s : LoopState W A) : Prop := startedCount s ≤ r.maxToolCalls.toNat

variable {r} in
lemma InBudget.bounded {s : LoopState W A} (h : r.InBudget s) : r.Bounded s := by
  have := h.counted.trans h.limited
  exact_mod_cast this

/-- After a round that goes on the budget is kept, after another one the bound. -/
def RoundBounded (again : Bool) (s : LoopState W A) : Prop :=
  r.Bounded s ∧ (again = true → r.InBudget s)

lemma finish_bounded (text : String) :
    Triple r.Bounded (LoopState.finish text) r.RoundBounded fun _ => r.Bounded := by
  refine Triple.bind (R := fun _ => r.Bounded) (Triple.update fun s hs => hs) fun _ =>
    Triple.ret fun s hs => ⟨hs, nofun⟩

lemma toolRound_bounded (calls : List (ToolCall A)) (allowedTools : Option (List String)) :
    Triple r.InBudget (r.toolRound calls allowedTools) r.RoundBounded fun _ => r.Bounded := by
  intro s hs
  let counted : LoopState W A := { s with totalToolCalls := s.totalToolCalls + calls.length }
  have hcounted : r.Bounded counted := hs.bounded
  change Ends r.RoundBounded (fun _ => r.Bounded)
    ((if r.maxToolCalls < counted.totalToolCalls then LoopState.finish r.limitMessage
      else r.handleToolCalls calls allowedTools >>= fun response => _) counted)
  split_ifs with hlimit
  · exact r.finish_bounded r.limitMessage counted hcounted
  · have hstarted := r.handleToolCalls_started calls allowedTools (startedCount s)
    have htotal : Leaves LoopState.totalToolCalls (r.handleToolCalls calls allowedTools) :=
      r.handleToolCalls_leaves calls allowedTools
        (fun s s' h => congrArg (fun f => f.2.2.2.1) h) fun _ _ _ => rfl
    have hcall := Triple.both hstarted (htotal counted.totalToolCalls)
    have hbudget : ∀ s' : LoopState W A, startedCount s' ≤ startedCount s + calls.length ∧
        s'.totalToolCalls = counted.totalToolCalls → r.InBudget s' := by
      rintro s' ⟨hcount, htotal'⟩
      have hbefore := hs.counted
      refine ⟨?_, ?_⟩
      · rw [htotal']
        push_cast [counted]
        omega
      · rw [htotal']
        omega
    refine Triple.bind (Triple.weaken hcall (fun _ => id) (fun _ _ => id)
      fun _ s' h => (hbudget s' h).bounded) (fun response => ?_) counted ⟨le_rfl, rfl⟩
    cases response with
    | none => exact Triple.ret fun s' h => ⟨(hbudget s' h).bounded, fun _ => hbudget s' h⟩
    | some response =>
        exact Triple.weaken (r.finish_bounded response) (fun s' h => (hbudget s' h).bounded)
          (fun _ _ => id) fun _ _ => id

/-- The counters of the started tools. -/
def tally (s : LoopState W A) : ℕ × ℤ := (startedCount s, s.totalToolCalls)

lemma tally_inBudget {x : Program (LoopState W A) Exn α} (h : Leaves tally x) :
    Keeps r.InBudget x := by
  have hsame : ∀ {s s' : LoopState W A}, tally s' = tally s → r.InBudget s → r.InBudget s' := by
    intro s s' htally hs
    have hcount : startedCount s' = startedCount s := congrArg Prod.fst htally
    have htotal : s'.totalToolCalls = s.totalToolCalls := congrArg Prod.snd htally
    exact ⟨hcount ▸ htotal ▸ hs.counted, htotal ▸ hs.limited⟩
  intro s hs
  exact Triple.weaken (h (tally s)) (fun _ => id) (fun _ _ h => hsame h hs)
    (fun _ _ h => hsame h hs) s rfl

lemma keeps_inBudget {x : Program (LoopState W A) Exn α} (h : Leaves tally x) :
    Triple r.InBudget x (fun _ => r.InBudget) fun _ => r.Bounded :=
  Triple.weaken (r.tally_inBudget h) (fun _ => id) (fun _ _ => id) fun _ _ => InBudget.bounded

lemma settleReply_bounded (allowedTools : Option (List String)) (reply : Reply A) :
    Triple r.InBudget (r.settleReply allowedTools reply) r.RoundBounded fun _ => r.Bounded := by
  have hfinish : ∀ text, Triple r.InBudget (LoopState.finish text) r.RoundBounded
      fun _ => r.Bounded := fun text =>
    Triple.weaken (r.finish_bounded text) (fun _ => InBudget.bounded) (fun _ _ => id)
      fun _ _ => id
  cases reply with
  | error data => exact hfinish _
  | text data => exact hfinish _
  | toolCall call => exact r.toolRound_bounded [call] allowedTools
  | toolCalls calls => exact r.toolRound_bounded calls allowedTools
  | other type => exact hfinish _

lemma round_bounded (context : Context) (allowedTools : Option (List String)) :
    Triple r.InBudget (r.round context allowedTools) r.RoundBounded fun _ => r.Bounded := by
  refine Triple.bind (r.keeps_inBudget (r.openRound_leaves (fun _ _ => rfl) fun _ => rfl))
    fun go => Triple.split (fun _ => ?_) fun _ => Triple.weaken (r.finish_bounded deniedMessage)
      (fun _ => InBudget.bounded) (fun _ _ => id) fun _ _ => id
  refine Triple.bind (r.keeps_inBudget (r.prepareRequest_leaves context (fun _ _ => rfl)
    fun _ => rfl)) fun request => Triple.bind (r.keeps_inBudget (onWorld_leaves (fun _ _ => rfl) _))
      fun response => Triple.bind (r.keeps_inBudget (update_leaves fun _ => rfl)) fun _ => ?_
  exact r.settleReply_bounded allowedTools response.reply

/-! ## Generation requests -/

lemma prepareRequest_requests (context : Context) (k : ℕ) :
    Triple (fun s => LoopState.requests s ≤ k) (r.prepareRequest context)
      (fun _ s => s.requests ≤ k + 1) fun _ s => s.requests ≤ k + 1 := by
  have hpreflight : ∀ request,
      Leaves LoopState.requests (onWorld (A := A) (r.preflight request)) :=
    fun request => onWorld_leaves (fun _ _ => rfl) _
  refine Triple.bind (R := fun _ s => s.requests ≤ k) (Triple.read fun _ => id) fun messages => ?_
  refine Triple.bind (Triple.weaken ((hpreflight _).keeps (· ≤ k)) (fun _ => id) (fun _ _ => id)
    fun _ _ => Nat.le_succ_of_le) fun _ => ?_
  exact Triple.bind (Triple.update fun s hs => Nat.add_le_add_right hs 1) fun _ =>
    Triple.ret fun _ => id

lemma settleReply_requests (allowedTools : Option (List String)) (reply : Reply A) :
    Leaves LoopState.requests (r.settleReply allowedTools reply) :=
  r.settleReply_leaves allowedTools reply (fun _ _ h => congrArg (fun f => f.2.2.2.2.2.2.2.2) h)
    (fun _ _ _ => rfl) (fun _ _ => rfl) fun _ _ => rfl

/-- A round makes at most one generation request. -/
lemma round_requests (context : Context) (allowedTools : Option (List String)) (k : ℕ) :
    Triple (fun s => LoopState.requests s ≤ k) (r.round context allowedTools)
      (fun _ s => s.requests ≤ k + 1) fun _ s => s.requests ≤ k + 1 := by
  have hopen : Leaves LoopState.requests r.openRound :=
    r.openRound_leaves (fun _ _ => rfl) fun _ => rfl
  have hdenied : Leaves LoopState.requests (LoopState.finish (A := A) (W := W) deniedMessage) :=
    finish_leaves _ fun _ => rfl
  refine Triple.bind (Triple.weaken (hopen.keeps (· ≤ k)) (fun _ => id) (fun _ _ => id)
    fun _ _ => Nat.le_succ_of_le) fun go => Triple.split (fun _ => ?_) fun _ =>
      Triple.weaken (hdenied.keeps (· ≤ k)) (fun _ => id) (fun _ _ => Nat.le_succ_of_le)
        fun _ _ => Nat.le_succ_of_le
  refine Triple.bind (r.prepareRequest_requests context k) fun request => ?_
  have hgenerate : Leaves LoopState.requests (onWorld (A := A) (r.generateContent request)) :=
    onWorld_leaves (fun _ _ => rfl) _
  refine Keeps.bind (hgenerate.keeps (· ≤ k + 1)) fun response => ?_
  have husage : Leaves LoopState.requests
      (LoopState.recordUsage (W := W) (A := A) response.usage) :=
    update_leaves fun _ => rfl
  exact Keeps.bind (husage.keeps (· ≤ k + 1)) fun _ =>
    (r.settleReply_requests allowedTools response.reply).keeps (· ≤ k + 1)

/-! ## A whole run -/

/-- The budget of a run, from its start on. -/
lemma budget_bound (userInput : String) (allowedTools : Option (List String))
    (outputSchema : Bool) :
    r.RunBound userInput allowedTools outputSchema r.InBudget r.InBudget r.Bounded where
  fresh _ := ⟨le_rfl, Nat.cast_nonneg _⟩
  started _ := InBudget.bounded
  ready _ := InBudget.bounded
  recorded _ _ h hs := (congrArg (fun f => f.1.length) h).trans_le hs
  account := r.tally_inBudget (onWorld_leaves (fun _ _ => rfl) _)
  intent := r.tally_inBudget
    (r.intentOf_leaves userInput outputSchema (fun _ _ => rfl) fun _ _ => rfl)
  setUp intent := r.keeps_inBudget
    (r.setUp_leaves userInput allowedTools intent (fun _ _ => rfl) (fun _ _ => rfl) fun _ _ => rfl)

/-- A run of the plain loop starts no more tools than the limit permits. -/
lemma runAgentLoop_started (userInput : String) (allowedTools : Option (List String))
    (outputSchema : Bool) (s : LoopState W A) :
    r.Bounded (r.runAgentLoop userInput allowedTools outputSchema s).2 := by
  have hbound := r.budget_bound userInput allowedTools outputSchema
  refine runAgentLoop_ends hbound s fun context s' hopening => ?_
  exact rounds_triple (r.round_bounded context allowedTools) (fun _ => InBudget.bounded) _ s'
    (hbound.opening hopening)

/-- No request is made before the rounds of a run. -/
lemma requests_bound (userInput : String) (allowedTools : Option (List String))
    (outputSchema : Bool) :
    r.RunBound userInput allowedTools outputSchema (fun s => s.requests ≤ 0)
      (fun s => s.requests ≤ 0) fun s => s.requests ≤ r.maxIterations.toNat := by
  have hkeeps : ∀ {α : Type} {x : Program (LoopState W A) Exn α},
      Leaves LoopState.requests x → Keeps (fun s => s.requests ≤ 0) x := fun h => h.keeps (· ≤ 0)
  have hbound : ∀ s : LoopState W A, s.requests ≤ 0 → s.requests ≤ r.maxIterations.toNat :=
    fun s hs => hs.trans (Nat.zero_le _)
  refine ⟨fun _ => le_rfl, hbound, hbound, fun _ _ h hs => ?_, ?_, ?_, fun intent => ?_⟩
  · exact (congrArg (fun f => f.2.2.2) h).trans_le hs
  · exact hkeeps (onWorld_leaves (fun _ _ => rfl) _)
  · exact hkeeps (r.intentOf_leaves userInput outputSchema (fun _ _ => rfl) fun _ _ => rfl)
  · have hsetUp := hkeeps (r.setUp_leaves userInput allowedTools intent (fun _ _ => rfl)
      (fun _ _ => rfl) fun _ _ => rfl)
    exact Triple.weaken hsetUp (fun _ => id) (fun _ _ => id) fun _ => hbound

/-- A run of the plain loop makes no more requests than the limit permits. -/
lemma runAgentLoop_requests (userInput : String) (allowedTools : Option (List String))
    (outputSchema : Bool) (s : LoopState W A) :
    (r.runAgentLoop userInput allowedTools outputSchema s).2.requests ≤ r.maxIterations.toNat := by
  have hbound := r.requests_bound userInput allowedTools outputSchema
  refine runAgentLoop_ends hbound s fun context s' hopening => ?_
  refine Triple.weaken (rounds_count (r.round_requests context allowedTools) _ 0)
    (fun _ => id) (fun _ s hs => ?_) (fun _ s hs => ?_) s' (hbound.opening hopening)
  · exact hs.trans_eq (Nat.zero_add _)
  · exact hs.trans_eq (Nat.zero_add _)

/-! ## The streaming loop -/

open StreamState

lemma yield_bounded (again : Bool) (event : OutEvent A) :
    Triple (fun s : StreamState W A => r.RoundBounded again s.loop) (yield event)
      (fun _ s => r.RoundBounded again s.loop) fun _ s => r.Bounded s.loop :=
  Triple.update fun _ => id

lemma finishError_bounded (text : String) :
    Triple (fun s : StreamState W A => r.Bounded s.loop) (finishError text)
      (fun again s => r.RoundBounded again s.loop) fun _ s => r.Bounded s.loop := by
  refine Triple.bind (R := fun _ s => r.RoundBounded false s.loop) ?_ fun _ =>
    Triple.bind (r.yield_bounded false _) fun _ => Triple.ret fun _ => id
  exact Triple.update fun s hs => ⟨hs, nofun⟩

/-- A batch that fits into the limit leaves the budget. -/
lemma streamToolRound_bounded (calls : List (ToolCall A)) (allowedTools : Option (List String)) :
    Triple (fun s : StreamState W A => r.InBudget s.loop ∧
        s.loop.totalToolCalls + calls.length ≤ r.maxToolCalls)
      (r.streamToolRound calls allowedTools) (fun again s => r.RoundBounded again s.loop)
      fun _ s => r.Bounded s.loop := by
  rintro s ⟨hs, hfit⟩
  let total := s.loop.totalToolCalls
  let k := startedCount s.loop
  have hk : (k : ℤ) ≤ total := hs.counted
  -- Before the limit is compared, the tools that were started are ahead of the calls counted.
  let Ahead : StreamState W A → Prop := fun s' =>
    startedCount s'.loop ≤ k + calls.length ∧ s'.loop.totalToolCalls = total
  have hahead : ∀ s', Ahead s' → r.Bounded s'.loop := by
    rintro s' ⟨hcount, -⟩
    have : (startedCount s'.loop : ℤ) ≤ k + calls.length := by exact_mod_cast hcount
    unfold Bounded
    omega
  have hannounce : Triple (fun s' : StreamState W A => tally s'.loop = tally s.loop)
      (Program.collect r.announce calls) (fun _ s' => tally s'.loop = tally s.loop)
      fun _ s' => r.Bounded s'.loop := by
    refine Triple.weaken (Triple.collect fun call _ => r.announce_leaves tally call _)
      (fun _ => id) (fun _ _ => id) fun _ s' h => ?_
    have hcount : startedCount s'.loop = k := congrArg Prod.fst h
    exact hcount.trans_le hs.bounded
  have htotal : Leaves LoopState.totalToolCalls (r.gather calls allowedTools) := by
    intro v s' hs'
    refine Triple.weaken (r.gather_frame calls allowedTools s'.frame) (fun _ => id)
      (fun _ s'' h => ?_) (fun _ s'' h => ?_) s' rfl
    · exact (congrArg (fun f => f.2.2.2.1) h).trans hs'
    · exact (congrArg (fun f => f.2.2.2.1) h).trans hs'
  have hgather : Triple (fun s' : StreamState W A => tally s'.loop = tally s.loop)
      (lift (r.gather calls allowedTools)) (fun _ => Ahead) fun _ s' => r.Bounded s'.loop := by
    refine Triple.weaken (lift_triple (Triple.both (r.gather_started calls allowedTools k)
      (htotal total))) (fun s' h => ?_) (fun _ _ => id) fun _ s' h => hahead s' h
    exact ⟨(congrArg Prod.fst h).le, congrArg Prod.snd h⟩
  refine Triple.bind hannounce (fun _ => Triple.bind hgather fun results => ?_) s rfl
  have hleaves : Leaves (fun s : StreamState W A => tally s.loop)
      (r.settleStreamed (calls.zip results)) := r.settleStreamed_leaves (fun _ _ _ => rfl) _
  have hsettle : Keeps Ahead (r.settleStreamed (calls.zip results)) :=
    hleaves.keeps fun v => v.1 ≤ k + calls.length ∧ v.2 = total
  refine Triple.bind (Triple.weaken hsettle (fun _ => id) (fun _ _ => id) fun _ => hahead)
    fun response => ?_
  cases response with
  | some response =>
      refine Triple.bind (R := fun _ s => r.RoundBounded false s.loop) ?_ fun _ =>
        Triple.bind (r.yield_bounded false _) fun _ => Triple.ret fun _ => id
      exact Triple.update fun s' hs' => ⟨hahead s' hs', nofun⟩
  | none =>
      refine Triple.bind (R := fun _ s' => r.InBudget s'.loop) (Triple.update ?_) fun _ =>
        Triple.bind (R := fun _ s' => r.InBudget s'.loop) (Triple.read fun _ => id) fun count =>
        Triple.split (fun _ => ?_) fun _ => ?_
      · rintro s' ⟨hcount, hsame⟩
        have : (startedCount s'.loop : ℤ) ≤ k + calls.length := by exact_mod_cast hcount
        refine ⟨?_, ?_⟩
        · change (startedCount s'.loop : ℤ) ≤ s'.loop.totalToolCalls + calls.length
          omega
        · change s'.loop.totalToolCalls + calls.length ≤ _
          omega
      · exact Triple.weaken (r.finishError_bounded _) (fun _ => InBudget.bounded) (fun _ _ => id)
          fun _ _ => id
      · exact Triple.ret fun s' hs' => ⟨hs'.bounded, fun _ => hs'⟩

/-- The calls that a round receives fit into the limit with those of the rounds before. -/
def Fits (context : Context) (s : StreamState W A) : Prop :=
  ∀ s₁ text calls s₂, lift r.openRound s = (.ok true, s₁) →
    r.receive context s₁ = (.ok (text, some calls), s₂) →
    s.loop.totalToolCalls + calls.length ≤ r.maxToolCalls

lemma receive_tally (context : Context) :
    Leaves (fun s : StreamState W A => tally s.loop) (r.receive context) :=
  r.receive_leaves context (fun _ _ => rfl) (fun _ => rfl) (fun _ _ => rfl) fun _ _ => rfl

lemma streamRound_bounded (context : Context) (allowedTools : Option (List String))
    (s : StreamState W A) (hs : r.InBudget s.loop) (hfits : r.Fits context s) :
    Ends (fun again s' => r.Bounded s'.loop ∧ (again = true → r.InBudget s'.loop))
      (fun _ s' => r.Bounded s'.loop) (r.streamRound context allowedTools s) := by
  have hsame : ∀ s' : StreamState W A, tally s'.loop = tally s.loop → r.InBudget s'.loop := by
    intro s' h
    have hcount : startedCount s'.loop = startedCount s.loop := congrArg Prod.fst h
    have htotal : s'.loop.totalToolCalls = s.loop.totalToolCalls := congrArg Prod.snd h
    exact ⟨hcount ▸ htotal ▸ hs.counted, htotal ▸ hs.limited⟩
  have hopen : Leaves tally r.openRound := r.openRound_leaves (fun _ _ => rfl) fun _ => rfl
  have hopened := lift_leaves hopen (tally s.loop) s rfl
  unfold streamRound
  generalize hgo : lift r.openRound s = result at hopened
  obtain ⟨⟨error⟩ | ⟨go⟩, s₁⟩ := result
  · rw [Program.bind_error hgo]
    exact (hsame s₁ hopened).bounded
  · rw [Program.bind_ok hgo]
    cases go with
    | false => exact ⟨(hsame s₁ hopened).bounded, nofun⟩
    | true =>
        have hreceived := r.receive_tally context (tally s.loop) s₁ hopened
        change Ends _ _ (r.streamGenerateRound context allowedTools s₁)
        unfold streamGenerateRound
        generalize hrec : r.receive context s₁ = result at hreceived
        obtain ⟨⟨error⟩ | ⟨text, calls⟩, s₂⟩ := result
        · rw [Program.bind_error hrec]
          exact (hsame s₂ hreceived).bounded
        · rw [Program.bind_ok hrec]
          cases calls with
          | none => exact ⟨(hsame s₂ hreceived).bounded, nofun⟩
          | some calls =>
              have hfit := hfits s₁ text calls s₂ hgo hrec
              have htotal : s₂.loop.totalToolCalls = s.loop.totalToolCalls :=
                congrArg Prod.snd hreceived
              exact r.streamToolRound_bounded calls allowedTools s₂
                ⟨hsame s₂ hreceived, htotal ▸ hfit⟩

/-- Every batch of a streaming run fits into the limit when it arrives. -/
def BatchesFit (userInput : String) (allowedTools : Option (List String)) (outputSchema : Bool)
    (s : LoopState W A) : Prop :=
  ∀ context s', r.opening userInput allowedTools outputSchema s = (.ok context, s') →
    RoundsMeet (r.streamRound context allowedTools) (r.Fits context) r.maxIterations.toNat
      { loop := s', yielded := [.conductorTrace] }

/-- A run of the streaming loop starts no more tools than the limit permits where each batch fits
into it. -/
lemma streamAgentLoop_started (userInput : String) (allowedTools : Option (List String))
    (outputSchema : Bool) (s : LoopState W A)
    (hfit : r.BatchesFit userInput allowedTools outputSchema s) :
    r.Bounded (r.streamAgentLoop userInput allowedTools outputSchema { loop := s }).2.loop := by
  have hbound := r.budget_bound userInput allowedTools outputSchema
  refine streamAgentLoop_ends hbound _ fun context s' hopening => ?_
  exact rounds_meet (r.streamRound_bounded context allowedTools) (fun _ => InBudget.bounded) _ _
    (hbound.opening hopening) (hfit context s' hopening)

lemma streamRound_requests (context : Context) (allowedTools : Option (List String)) (k : ℕ) :
    Triple (fun s : StreamState W A => s.loop.requests ≤ k) (r.streamRound context allowedTools)
      (fun _ s => s.loop.requests ≤ k + 1) fun _ s => s.loop.requests ≤ k + 1 := by
  have hopen : Leaves LoopState.requests r.openRound :=
    r.openRound_leaves (fun _ _ => rfl) fun _ => rfl
  have hworld : ∀ {α : Type} (x : Program W Exn α),
      Leaves LoopState.requests (onWorld (A := A) x) := fun x => onWorld_leaves (fun _ _ => rfl) x
  have hmore : ∀ s : StreamState W A, s.loop.requests ≤ k → s.loop.requests ≤ k + 1 := fun s hs =>
    Nat.le_succ_of_le hs
  refine Triple.bind (Triple.weaken (lift_triple (hopen.keeps (· ≤ k))) (fun _ => id)
    (fun _ _ => id) fun _ => hmore) fun go => Triple.split (fun _ => ?_) fun _ =>
      Triple.bind (R := fun _ s => s.loop.requests ≤ k) (Triple.update fun _ => id) fun _ =>
        Triple.ret hmore
  refine Triple.bind (R := fun _ s => s.loop.requests ≤ k + 1) ?_ fun received => ?_
  · refine Triple.bind (lift_triple (r.prepareRequest_requests context k)) fun request =>
      Keeps.bind (Keeps.update fun _ => id) fun _ => Keeps.bind ?_ fun stream => ?_
    · exact lift_triple ((hworld _).keeps (· ≤ k + 1))
    · have hconsume : Leaves (fun s : StreamState W A => s.loop.requests)
          (consume stream.failure stream.events "") :=
        consume_leaves _ (fun _ _ => rfl) (fun _ _ => rfl) _ _
      exact hconsume.keeps (· ≤ k + 1)
  · obtain ⟨text, calls⟩ := received
    cases calls with
    | none =>
        have htext : Leaves LoopState.requests (finishText (W := W) (A := A) text) := fun v =>
          Keeps.bind (Keeps.read _) fun final => finish_leaves _ (fun _ => rfl) v
        exact lift_triple (htext.keeps (· ≤ k + 1))
    | some calls =>
        have htools : Leaves (fun s : StreamState W A => s.loop.requests)
            (r.streamToolRound calls allowedTools) :=
          r.streamToolRound_leaves calls allowedTools
            (fun _ _ h => congrArg (fun f => f.2.2.2.2.2.2.2.2) h) (fun _ _ _ => rfl)
            (fun _ _ => rfl) fun _ _ => rfl
        exact htools.keeps (· ≤ k + 1)

/-- A run of the streaming loop makes no more requests than the limit permits. -/
lemma streamAgentLoop_requests (userInput : String) (allowedTools : Option (List String))
    (outputSchema : Bool) (s : StreamState W A) :
    (r.streamAgentLoop userInput allowedTools outputSchema s).2.loop.requests ≤
      r.maxIterations.toNat := by
  have hbound := r.requests_bound userInput allowedTools outputSchema
  refine streamAgentLoop_ends hbound s fun context s' hopening => ?_
  refine Triple.weaken (rounds_count (r.streamRound_requests context allowedTools) _ 0)
    (fun _ => id) (fun _ s hs => ?_) (fun _ s hs => ?_) _ (hbound.opening hopening)
  · exact hs.trans_eq (Nat.zero_add _)
  · exact hs.trans_eq (Nat.zero_add _)

/-- Both loops keep the limit of requests, and the plain loop that of tool executions. The streaming
loop compares its count after it has run a batch, so it keeps that limit while the batches fit. -/
theorem loops_bounded (userInput : String) (allowedTools : Option (List String))
    (outputSchema : Bool) (s : LoopState W A) :
    let plain := (r.runAgentLoop userInput allowedTools outputSchema s).2
    let streamed := (r.streamAgentLoop userInput allowedTools outputSchema { loop := s }).2.loop
    plain.requests ≤ r.maxIterations.toNat ∧ plain.started.length ≤ r.maxToolCalls.toNat ∧
      streamed.requests ≤ r.maxIterations.toNat ∧
      (r.BatchesFit userInput allowedTools outputSchema s →
        streamed.started.length ≤ r.maxToolCalls.toNat) :=
  ⟨r.runAgentLoop_requests userInput allowedTools outputSchema s,
    r.runAgentLoop_started userInput allowedTools outputSchema s,
    r.streamAgentLoop_requests userInput allowedTools outputSchema { loop := s },
    r.streamAgentLoop_started userInput allowedTools outputSchema s⟩

/-- Two calls in one response. -/
def twoCalls : Response Unit := ⟨.toolCalls [⟨"files.read", ()⟩, ⟨"files.read", ()⟩], none⟩

/-- With a limit of one, a streaming run starts both tools of a response. -/
theorem overrun_batch_started :
    ¬((scripted 5 1 "files.read").streamAgentLoop "Read both." none true
      { loop := { world := [twoCalls] } }).2.loop.started.length ≤ 1 := by
  decide +kernel

/-- With a limit of two, the same batch fits. -/
theorem fitting_batch_bounded :
    ((scripted 1 2 "files.read").streamAgentLoop "Read both." none true
      { loop := { world := [twoCalls] } }).2.loop.started.length ≤ 2 := by
  refine (loops_bounded (scripted 1 2 "files.read") "Read both." none true
    { world := [twoCalls] }).2.2.2 fun context s' hopening => ?_
  cases hopening
  refine ⟨?_, fun _ _ => trivial⟩
  rintro s₁ text calls s₂ hopen hreceive
  cases hopen
  cases hreceive
  decide

end AgentRouter

end AgentSystem.Router
