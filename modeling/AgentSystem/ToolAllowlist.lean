import AgentSystem.LoopRules

/-!
# The allowlist of the agent loops

Which tools pass the allowlist of `execute_tool`, compared with the list that
`_resolve_allowed_tools` returned for the run. The loops show the model the tools of that list, and
hand the caller's own list on to the engine.
-/
namespace AgentSystem.Router

open Programs LoopState StreamState

variable {W A α : Type}

/-- Each tool that passed the allowlist is in the list that the run resolved. -/
def AllowlistKept (s : LoopState W A) : Prop :=
  ∀ call ∈ s.admitted, YamlItem.str call.name ∈ s.resolvedAllowed

/-- An empty list lets no tool through. -/
lemma AllowlistKept.empty {s : LoopState W A} (h : AllowlistKept s) (hnone : s.resolvedAllowed = []) :
    s.admitted = [] := by
  refine List.eq_nil_iff_forall_not_mem.mpr fun call hcall => ?_
  have hmem := h call hcall
  rw [hnone] at hmem
  exact List.not_mem_nil hmem

/-- The list of the caller adds nothing to the list that was resolved. -/
structure Covered (allowed : List String) (s : LoopState W A) : Prop where
  kept : AllowlistKept s
  listed : ∀ name ∈ allowed, YamlItem.str name ∈ s.resolvedAllowed

/-- What the allowlist depends on. -/
def admission (s : LoopState W A) := (s.admitted, s.resolvedAllowed)

variable {allowed : List String}

lemma Covered.same {s s' : LoopState W A} (hs : Covered allowed s)
    (h : admission s' = admission s) : Covered allowed s' := by
  have hadmitted : s'.admitted = s.admitted := congrArg Prod.fst h
  have hresolved : s'.resolvedAllowed = s.resolvedAllowed := congrArg Prod.snd h
  refine ⟨fun call hcall => ?_, fun name hname => ?_⟩
  · rw [hresolved]
    exact hs.kept call (hadmitted ▸ hcall)
  · rw [hresolved]
    exact hs.listed name hname

lemma keeps_covered {x : Program (LoopState W A) Exn α} (h : Leaves admission x) :
    Keeps (Covered allowed) x := by
  intro s hs
  exact Triple.weaken (h (admission s)) (fun _ => id) (fun _ _ h => hs.same h)
    (fun _ _ h => hs.same h) s rfl

lemma stream_covered {x : Program (StreamState W A) Exn α}
    (h : Leaves (fun s : StreamState W A => admission s.loop) x) :
    Keeps (fun s => Covered allowed s.loop) x := by
  intro s hs
  exact Triple.weaken (h (admission s.loop)) (fun _ => id) (fun _ _ h => hs.same h)
    (fun _ _ h => hs.same h) s rfl

lemma onWorld_covered (x : Program W Exn α) :
    Keeps (Covered allowed) (onWorld x : Program (LoopState W A) Exn α) :=
  keeps_covered (onWorld_leaves (fun _ _ => rfl) x)

/-! ## One tool call -/

namespace Runtime

variable (r : Runtime W A)

/-- A call that passes the list of the caller is in the list that was resolved. -/
lemma checkLimits_covered (call : ToolCall A) :
    Keeps (Covered allowed) (r.checkLimits call (some allowed)) := by
  refine Keeps.bind (keeps_covered (update_leaves fun _ => rfl)) fun _ =>
    Keeps.bind (Keeps.read _) fun reason => ?_
  cases reason with
  | some reason => exact Keeps.bind (onWorld_covered _) fun _ => Keeps.raise _
  | none =>
      refine Triple.split (fun _ => Keeps.raise _) fun hpass => ?_
      have hname : call.name ∈ allowed := by simpa [isForbidden] using hpass
      refine Keeps.bind (Keeps.update fun s hs => ⟨fun passed hpassed => ?_, hs.listed⟩) fun _ =>
        Keeps.bind (Keeps.read _) fun registry => Keeps.split (onWorld_covered _) (Keeps.raise _)
      obtain hpassed | hpassed := List.mem_append.mp hpassed
      · exact hs.kept passed hpassed
      · rw [List.mem_singleton.mp hpassed]
        exact hs.listed call.name hname

lemma executeTool_covered (call : ToolCall A) :
    Keeps (Covered allowed) (r.executeTool call (some allowed)) := by
  refine Keeps.bind (keeps_covered (update_leaves fun _ => rfl)) fun _ =>
    Keeps.bind (Keeps.read _) fun expected => ?_
  cases expected with
  | some expected => exact Keeps.raise _
  | none => exact r.checkLimits_covered call

lemma executeToolWithApproval_covered (call : ToolCall A) :
    Keeps (Covered allowed) (r.executeToolWithApproval call (some allowed)) := by
  refine Keeps.bind (Keeps.read _) fun sensitive =>
    Keeps.split (Keeps.bind (onWorld_covered _) fun decision => ?_) (r.executeTool_covered call)
  cases decision with
  | approved => exact r.executeTool_covered call
  | denied => exact Keeps.raise _
  | hijacked value => exact Keeps.ret _

lemma gather_covered (calls : List (ToolCall A)) :
    Keeps (Covered allowed) (r.gather calls (some allowed)) := by
  refine Keeps.bind (Keeps.read _) fun tasks => Keeps.bind (Keeps.collect fun task _ => ?_)
    fun results => Keeps.ret _
  exact Keeps.handle (Keeps.bind (r.executeToolWithApproval_covered task.2) fun _ => Keeps.ret _)
    fun error => Keeps.ret _

end Runtime

namespace AgentRouter

variable (r : AgentRouter W A)

/-! ## The rounds of both loops -/

lemma finish_covered (text : String) :
    Keeps (Covered allowed) (LoopState.finish text : Program (LoopState W A) Exn Bool) :=
  keeps_covered (finish_leaves text fun _ => rfl)

lemma toolRound_covered (calls : List (ToolCall A)) :
    Keeps (Covered allowed) (r.toolRound calls (some allowed)) := by
  refine Keeps.bind (keeps_covered (update_leaves fun _ => rfl)) fun _ =>
    Keeps.bind (Keeps.read _) fun total => Keeps.split (finish_covered _) ?_
  refine Keeps.bind ?_ fun response => ?_
  · refine Keeps.bind (keeps_covered (r.validateCalls_leaves admission calls)) fun _ =>
      Keeps.bind (r.gather_covered calls) fun results => ?_
    exact keeps_covered (r.settleResults_leaves (fun _ _ _ => rfl) _)
  · cases response with
    | none => exact Keeps.ret _
    | some response => exact finish_covered _

lemma openRound_covered : Keeps (Covered allowed) r.openRound :=
  keeps_covered (r.openRound_leaves (fun _ _ => rfl) fun _ => rfl)

lemma round_covered (context : Context) :
    Keeps (Covered allowed) (r.round context (some allowed)) := by
  refine Keeps.bind r.openRound_covered fun go => Keeps.split ?_ (finish_covered _)
  refine Keeps.bind (keeps_covered (r.prepareRequest_leaves context (fun _ _ => rfl) fun _ => rfl))
    fun request => Keeps.bind (onWorld_covered _) fun response =>
    Keeps.bind (keeps_covered (update_leaves fun _ => rfl)) fun _ => ?_
  cases response.reply with
  | error data => exact finish_covered _
  | text data => exact finish_covered _
  | toolCall call => exact r.toolRound_covered [call]
  | toolCalls calls => exact r.toolRound_covered calls
  | other type => exact finish_covered _

lemma streamToolRound_covered (calls : List (ToolCall A)) :
    Keeps (fun s : StreamState W A => Covered allowed s.loop)
      (r.streamToolRound calls (some allowed)) := by
  have hset : ∀ text, Keeps (fun s : StreamState W A => Covered allowed s.loop)
      (lift (LoopState.setFinal text)) := fun text =>
    stream_covered (lift_leaves (update_leaves fun _ => rfl))
  have hyield : ∀ event, Keeps (fun s : StreamState W A => Covered allowed s.loop)
      (yield event) := fun event => yield_keeps (Covered allowed) event
  refine Keeps.bind (Keeps.collect fun call _ => stream_covered (r.announce_leaves admission call))
    fun _ => Keeps.bind (lift_triple (r.gather_covered calls)) fun results =>
    Keeps.bind (stream_covered (r.settleStreamed_leaves (fun _ _ _ => rfl) _)) fun response => ?_
  cases response with
  | some response =>
      exact Keeps.bind (hset _) fun _ => Keeps.bind (hyield _) fun _ => Keeps.ret _
  | none =>
      refine Keeps.bind (stream_covered (lift_leaves (update_leaves fun _ => rfl))) fun _ =>
        Keeps.bind (Keeps.read _) fun total => Keeps.split ?_ (Keeps.ret _)
      exact Keeps.bind (hset _) fun _ => Keeps.bind (hyield _) fun _ => Keeps.ret _

lemma streamRound_covered (context : Context) :
    Keeps (fun s : StreamState W A => Covered allowed s.loop)
      (r.streamRound context (some allowed)) := by
  refine Keeps.bind (lift_triple r.openRound_covered) fun go => Keeps.split ?_
    (Keeps.bind (yield_keeps (Covered allowed) _) fun _ => Keeps.ret _)
  have hreceive : Leaves (fun s : StreamState W A => admission s.loop) (r.receive context) :=
    r.receive_leaves context (fun _ _ => rfl) (fun _ => rfl) (fun _ _ => rfl) fun _ _ => rfl
  refine Keeps.bind (stream_covered hreceive) fun received => ?_
  obtain ⟨text, calls⟩ := received
  cases calls with
  | none => exact lift_triple (Keeps.bind (Keeps.read _) fun _ => finish_covered _)
  | some calls => exact r.streamToolRound_covered calls

/-! ## The list of a run -/

/-- The tools that `agent.md` lists when a run reads it. -/
def toolsFound (userInput : String) (outputSchema : Bool) :
    Program (LoopState W A) Exn (List YamlItem) := do
  let _ ← r.enter userInput outputSchema
  let _ ← LoopState.onWorld (r.renderPrompt userInput)
  let _ ← LoopState.tolerate (LoopState.onWorld (r.memoryContext userInput))
  .read fun s => r.papTools s.world

lemma opening_resolved {userInput : String} {allowedTools : Option (List String)}
    {outputSchema : Bool} {s s' : LoopState W A} {context : Context}
    (h : r.opening userInput allowedTools outputSchema s = (.ok context, s')) :
    ∃ w, (r.toolsFound userInput outputSchema s).1 = .ok (r.papTools w) ∧
      s'.resolvedAllowed = r.resolveAllowedTools allowedTools w := by
  obtain ⟨intent, s₂, henter, h⟩ := Program.bind_eq_ok h
  obtain ⟨prompt, s₃, hprompt, h⟩ := Program.bind_eq_ok h
  obtain ⟨memory, s₄, hmemory, h⟩ := Program.bind_eq_ok h
  obtain ⟨_, s₅, hresolve, h⟩ := Program.bind_eq_ok h
  obtain ⟨schemas, s₆, hschemas, h⟩ := Program.bind_eq_ok h
  obtain ⟨resolved, s₇, hread, h⟩ := Program.bind_eq_ok h
  obtain ⟨_, s₈, hplan, h⟩ := Program.bind_eq_ok h
  obtain ⟨_, s₉, hmessages, h⟩ := Program.bind_eq_ok h
  have hleaves : Leaves LoopState.resolvedAllowed
      (onWorld (A := A) (r.recordPlan intent resolved)) := onWorld_leaves (fun _ _ => rfl) _
  have hplanned := hleaves _ s₇ rfl
  rw [hplan] at hplanned
  refine ⟨s₄.world, ?_, ?_⟩
  · unfold toolsFound
    rw [Program.bind_ok henter, Program.bind_ok hprompt, Program.bind_ok hmemory]
    rfl
  · cases h
    cases hmessages
    cases hread
    cases hschemas
    cases hresolve
    exact hplanned

/-- `agent.md` lists these tools when a run reads it. -/
def Lists (userInput : String) (outputSchema : Bool) (s : LoopState W A) (tools : List YamlItem) :
    Prop :=
  ∀ found, (r.toolsFound userInput outputSchema s).1 = .ok found → found = tools

/-- No tool is admitted before the rounds of a run. -/
lemma admission_bound (userInput : String) (allowedTools : Option (List String))
    (outputSchema : Bool) :
    r.RunBound userInput allowedTools outputSchema (fun s => s.admitted = [])
      (fun s => s.admitted = []) AllowlistKept := by
  have hkeeps : ∀ {α : Type} {x : Program (LoopState W A) Exn α},
      Leaves LoopState.admitted x → Keeps (fun s => s.admitted = []) x := fun h => h.keeps (· = [])
  have hkept : ∀ s : LoopState W A, s.admitted = [] → AllowlistKept s := fun s hs call hcall => by
    rw [hs] at hcall
    cases hcall
  refine ⟨fun s => rfl, hkept, hkept, fun s s' h hs => ?_, ?_, ?_, fun intent => ?_⟩
  · have hadmitted : s'.admitted = s.admitted := congrArg (fun f => f.2.1) h
    have hresolved : s'.resolvedAllowed = s.resolvedAllowed := congrArg (fun f => f.2.2.1) h
    intro call hcall
    rw [hresolved]
    exact hs call (hadmitted ▸ hcall)
  · exact hkeeps (onWorld_leaves (fun _ _ => rfl) _)
  · exact hkeeps (r.intentOf_leaves userInput outputSchema (fun _ _ => rfl) fun _ _ => rfl)
  · exact Triple.weaken (hkeeps (r.setUp_leaves userInput allowedTools intent (fun _ _ => rfl)
      (fun _ _ => rfl) fun _ _ => rfl)) (fun _ => id) (fun _ _ => id) fun _ => hkept

variable {r} in
/-- The rounds find a list that covers the caller's. -/
lemma Lists.covered {userInput : String} {outputSchema : Bool} {s s' : LoopState W A}
    {tools : List YamlItem} {context : Context} (h : r.Lists userInput outputSchema s tools)
    (hallowed : ∀ name ∈ allowed, YamlItem.str name ∈ tools)
    (hopening : r.opening userInput (some allowed) outputSchema s = (.ok context, s')) :
    Covered allowed s' := by
  obtain ⟨w, hfound, hresolved⟩ := r.opening_resolved hopening
  have hnone := (r.admission_bound userInput (some allowed) outputSchema).opening hopening
  refine ⟨fun call hcall => ?_, fun name hname => ?_⟩
  · rw [hnone] at hcall
    cases hcall
  · rw [hresolved, Runtime.resolveAllowedTools, List.mem_filter, h _ hfound]
    exact ⟨hallowed name hname, decide_eq_true (List.mem_map_of_mem hname)⟩

/-! ## A run that names a tool outside of the list -/

/-- A scripted router with a list of tools in its `agent.md`. -/
def withManifest (tools : List YamlItem) (tool : String) :
    AgentRouter (List (Response Unit)) Unit :=
  { scripted 1 1 tool with
    agentMd := fun _ => some (.ok "------")
    safeLoad := fun _ => .ok (.dict { tools := .list tools }) }

/-- The model's one response. -/
def oneCall (name : String) : LoopState (List (Response Unit)) Unit where
  world := [⟨.toolCall ⟨name, ()⟩, none⟩]

/-- The state behind a call that ran. -/
def ran (name : String) (s : LoopState (List (Response Unit)) Unit) :
    LoopState (List (Response Unit)) Unit :=
  { s with
    started := s.started ++ [⟨name, ()⟩]
    admitted := s.admitted ++ [⟨name, ()⟩]
    turnCount := s.turnCount + 1 }

variable (tools : List YamlItem) {name : String} {allowedTools : Option (List String)}

lemma withManifest_gather (hpass : Runtime.isForbidden allowedTools name = false)
    (s : LoopState (List (Response Unit)) Unit) :
    (withManifest tools name).gather [⟨name, ()⟩] allowedTools s =
      (.ok [.ok "done"], ran name s) := by
  have hexec : (withManifest tools name).executeTool ⟨name, ()⟩ allowedTools s =
      (.ok "done", ran name s) := by
    simp [Runtime.executeTool, Runtime.checkLimits, Runtime.runTool, Program.bind_apply,
      Program.update, Program.read, hpass, withManifest, scripted, Runtime.handoffReason, onWorld,
      Program.within, Runtime.countTurn, ran]
  have hcall : (withManifest tools name).executeToolWithApproval ⟨name, ()⟩ allowedTools s =
      (.ok "done", ran name s) := by
    rw [← hexec]
    rfl
  have hawait : (withManifest tools name).runAwaited allowedTools (0, ⟨name, ()⟩) s =
      (.ok (0, .ok "done"), ran name s) := by
    refine Program.handle_ok ?_
    rw [Program.bind_ok hcall]
    rfl
  have hcollect : Program.collect ((withManifest tools name).runAwaited allowedTools)
      [(0, ⟨name, ()⟩)] s = (.ok [(0, .ok "done")], ran name s) :=
    Program.collect_cons_ok hawait rfl
  change (Program.collect ((withManifest tools name).runAwaited allowedTools)
      [(0, ⟨name, ()⟩)] >>= _) s = _
  rw [Program.bind_ok hcollect]
  rfl

lemma withManifest_calls (hpass : Runtime.isForbidden allowedTools name = false)
    (s : LoopState (List (Response Unit)) Unit) :
    (withManifest tools name).handleToolCalls [⟨name, ()⟩] allowedTools s =
      (.ok none, Runtime.recordResult ⟨name, ()⟩ "done" (ran name s)) := by
  change ((withManifest tools name).gather [⟨name, ()⟩] allowedTools >>= _) s = _
  rw [Program.bind_ok (withManifest_gather tools hpass s)]
  rfl

lemma withManifest_round (hpass : Runtime.isForbidden allowedTools name = false)
    (context : Context) {s : LoopState (List (Response Unit)) Unit}
    (hworld : s.world = (oneCall name).world) (hiteration : s.iteration = 0)
    (hcount : s.totalToolCalls = 0) (hadmitted : s.admitted = []) :
    ∃ s', (withManifest tools name).round context allowedTools s = (.ok true, s') ∧
      s'.admitted = [⟨name, ()⟩] ∧ s'.resolvedAllowed = s.resolvedAllowed := by
  obtain ⟨world, iteration, final, messages, total, failures, resolved, usage, memory, turns, chars,
    started, admitted, requests⟩ := s
  cases hworld
  cases hiteration
  cases hcount
  cases hadmitted
  let counted : LoopState (List (Response Unit)) Unit :=
    { world := []
      iteration := 1
      finalResponse := final
      messages := messages
      totalToolCalls := 1
      failureCounts := failures
      resolvedAllowed := resolved
      usage := usage.add {}
      memory := memory
      turnCount := turns
      contextChars := chars
      started := started
      admitted := []
      requests := requests + 1 }
  have hcalls := withManifest_calls tools hpass counted
  refine ⟨Runtime.recordResult ⟨name, ()⟩ "done" (ran name counted), ?_, rfl, rfl⟩
  change ((withManifest tools name).handleToolCalls [⟨name, ()⟩] allowedTools >>= _) counted = _
  rw [Program.bind_ok hcalls]
  rfl

/-- The tool that the model names runs when it passes the list of the caller. -/
lemma withManifest_run (hpass : Runtime.isForbidden allowedTools name = false) :
    let final :=
      ((withManifest tools name).runAgentLoop "" allowedTools true (oneCall name)).2
    final.admitted = [⟨name, ()⟩] ∧
      final.resolvedAllowed = (withManifest tools name).resolveAllowedTools allowedTools [] := by
  have henter : (withManifest tools name).enter "" true (oneCall name) =
      (.ok .task, fresh (oneCall name)) := rfl
  obtain ⟨context, s, hsetUp, hworld, hiteration, hcount, hadmitted, hresolved⟩ :
      ∃ context s, (withManifest tools name).setUp "" allowedTools .task
        (fresh (oneCall name)) = (.ok context, s) ∧ s.world = (oneCall name).world ∧
        s.iteration = 0 ∧ s.totalToolCalls = 0 ∧ s.admitted = [] ∧
        s.resolvedAllowed = (withManifest tools name).resolveAllowedTools allowedTools [] :=
    ⟨_, _, rfl, rfl, rfl, rfl, rfl, rfl⟩
  obtain ⟨s', hround, hadmits, hsame⟩ :=
    withManifest_round tools hpass context hworld hiteration hcount hadmitted
  have hconverse : (withManifest tools name).converse "" allowedTools .task
      (fresh (oneCall name)) = (.ok (), s') := by
    unfold converse
    rw [Program.bind_ok hsetUp]
    change ((withManifest tools name).round context allowedTools >>= _) s = _
    rw [Program.bind_ok hround]
    rfl
  have hclosed := (withManifest tools name).closed_record "" s'
  rw [runAgentLoop_apply, henter]
  dsimp only
  rw [Program.handle_ok hconverse]
  exact ⟨(congrArg (fun f => f.2.1) hclosed).trans hadmits,
    (congrArg (fun f => f.2.2.1) hclosed).trans (hsame.trans hresolved)⟩

/-- What is resolved is listed. -/
lemma mem_resolveAllowedTools {r : AgentRouter W A} {w : W} {item : YamlItem}
    (h : item ∈ r.resolveAllowedTools allowedTools w) : item ∈ r.papTools w := by
  unfold Runtime.resolveAllowedTools at h
  cases allowedTools with
  | none => exact h
  | some allowed => exact (List.mem_filter.mp h).1

lemma exists_unlisted (tools : List YamlItem) : ∃ name : String, YamlItem.str name ∉ tools := by
  have hinjective : Function.Injective (fun n => YamlItem.str (String.ofList (List.replicate n 'a'))) := by
    intro m n h
    have hlists := String.ofList_inj.mp (YamlItem.str.inj h)
    simpa using congrArg List.length hlists
  obtain ⟨item, ⟨n, rfl⟩, hitem⟩ :=
    (Set.infinite_range_of_injective hinjective).exists_notMem_finset tools.toFinset
  exact ⟨_, fun h => hitem (List.mem_toFinset.mpr h)⟩

/-- Whatever the model does, both loops keep to the resolved list exactly when the caller passes a
list of names that `agent.md` has. -/
theorem allowlist_kept_iff (tools : List YamlItem) (allowedTools : Option (List String)) :
    (∀ (W A : Type) (r : AgentRouter W A) (userInput : String) (outputSchema : Bool)
      (s : LoopState W A), r.Lists userInput outputSchema s tools →
      AllowlistKept (r.runAgentLoop userInput allowedTools outputSchema s).2 ∧
      AllowlistKept (r.streamAgentLoop userInput allowedTools outputSchema { loop := s }).2.loop) ↔
    ∃ allowed, allowedTools = some allowed ∧ ∀ name ∈ allowed, YamlItem.str name ∈ tools := by
  constructor
  · intro hkept
    have hlisted : ∀ name, Runtime.isForbidden allowedTools name = false →
        YamlItem.str name ∈ tools := by
      intro name hpass
      obtain ⟨hplain, -⟩ := hkept _ _ (withManifest tools name) "" true (oneCall name)
        fun found hfound => by cases hfound; rfl
      obtain ⟨hadmitted, hresolved⟩ := withManifest_run tools hpass
      have hcall := hplain ⟨name, ()⟩ (hadmitted ▸ List.mem_singleton_self _)
      rw [hresolved] at hcall
      exact mem_resolveAllowedTools hcall
    cases allowedTools with
    | none =>
        obtain ⟨name, hname⟩ := exists_unlisted tools
        exact absurd (hlisted name rfl) hname
    | some allowed =>
        exact ⟨allowed, rfl, fun name hname => hlisted name (by simp [Runtime.isForbidden, hname])⟩
  · rintro ⟨allowed, rfl, hallowed⟩ W A r userInput outputSchema s hlists
    have hbound := r.admission_bound userInput (some allowed) outputSchema
    refine ⟨runAgentLoop_ends hbound s fun context s' hopening => ?_,
      streamAgentLoop_ends hbound _ fun context s' hopening => ?_⟩
    · exact Triple.weaken (rounds_keeps (r.round_covered context) _) (fun _ => id)
        (fun _ _ => Covered.kept) (fun _ _ => Covered.kept) s' (hlists.covered hallowed hopening)
    · exact Triple.weaken (rounds_keeps (r.streamRound_covered context) _) (fun _ => id)
        (fun _ _ => Covered.kept) (fun _ _ => Covered.kept) _ (hlists.covered hallowed hopening)

/-- Without a manifest and without a list of the caller, a tool that the model names runs although
the resolved list is empty. -/
theorem unlisted_tool_admitted :
    let final := ((scripted 5 15 "files.read").runAgentLoop "Read it." none true
      (oneCall "files.read")).2
    final.resolvedAllowed = [] ∧ ¬AllowlistKept final := by
  intro final
  have hresolved : final.resolvedAllowed = [] := by decide +kernel
  have hcount : final.admitted.length = 1 := by decide +kernel
  refine ⟨hresolved, fun hkept => ?_⟩
  rw [hkept.empty hresolved] at hcount
  cases hcount

end AgentRouter

end AgentSystem.Router
