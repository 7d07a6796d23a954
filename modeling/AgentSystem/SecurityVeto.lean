import AgentSystem.PipelineReceipts

/-!
# The veto of the security auditor

What a security red flag in the prompt leads to: the turns of the auditor pull the security score
below the threshold, and without an auditor the score is the standard one.
-/
namespace AgentSystem.Pipeline

open Programs

variable {W : Type} {text : TextTables} {request : CodingTaskRequest}

/-! ## The seat of the auditor -/

/-- The task is critical, or the auditor is among the requested roles. -/
def AuditorSeated (text : TextTables) (request : CodingTaskRequest) : Prop :=
  isSecurityCritical text request = true ∨
    ∃ role ∈ request.committeeRoles, text.lower role = "securityauditor"

/-- The roles that take their turns. -/
def seatedRoles (text : TextTables) (request : CodingTaskRequest) : List String :=
  (evaluateCommittee text request).members.map CommitteeMemberSelection.role

lemma mem_mergeExplicitRoles (members : List CommitteeMemberSelection) (roles : List String)
    (role : String) :
    role ∈ (mergeExplicitRoles text members roles).map CommitteeMemberSelection.role ↔
      role ∈ members.map CommitteeMemberSelection.role ∨ role ∈ roles := by
  induction roles generalizing members with
  | nil => simp [mergeExplicitRoles]
  | cons other roles ih =>
      unfold mergeExplicitRoles
      split_ifs with hother
      · rw [ih, List.mem_cons]
        constructor
        · rintro (h | h)
          · exact Or.inl h
          · exact Or.inr (Or.inr h)
        · rintro (h | rfl | h)
          · exact Or.inl h
          · exact Or.inl hother
          · exact Or.inr h
      · rw [ih, List.map_append, List.mem_append, List.mem_cons, or_assoc]
        simp

lemma auditor_mem_triggeredMembers :
    "securityauditor" ∈ (triggeredMembers text request).map CommitteeMemberSelection.role ↔
      isSecurityCritical text request = true := by
  unfold triggeredMembers
  split_ifs <;> simp_all

lemma lower_fixed {role : String} (hascii : ∀ c ∈ role.toList, c.toNat < 128)
    (hlower : role.toList.map Char.toLower = role.toList) : text.lower role = role := by
  rw [text.lower_ascii role hascii, ← String.toList_inj, String.toList_map, hlower]

lemma lower_empty : text.lower "" = "" := lower_fixed (by simp) (by simp)

lemma auditor_mem_seatedRoles :
    "securityauditor" ∈ seatedRoles text request ↔ AuditorSeated text request := by
  rw [seatedRoles, evaluateCommittee, mem_mergeExplicitRoles, auditor_mem_triggeredMembers,
    AuditorSeated]
  refine or_congr Iff.rfl ⟨fun h => ?_, fun ⟨role, hrole, hlower⟩ => ?_⟩
  · obtain ⟨role, hrole, hlower⟩ := List.mem_map.mp h
    exact ⟨role, (List.mem_filter.mp hrole).1, hlower⟩
  · refine List.mem_map.mpr ⟨role, List.mem_filter.mpr ⟨hrole, ?_⟩, hlower⟩
    rw [decide_eq_true_eq]
    rintro rfl
    rw [lower_empty] at hlower
    exact absurd hlower (by decide)

/-! ## The turns -/

lemma lower_auditor : text.lower "securityauditor" = "securityauditor" :=
  lower_fixed (by simp) (by simp)

lemma lower_architect : text.lower "architect" = "architect" :=
  lower_fixed (by simp) (by simp)

lemma lower_qaengineer : text.lower "qaengineer" = "qaengineer" :=
  lower_fixed (by simp) (by simp)

/-- No peer speaks for a member once there is a red flag. -/
lemma generateMemberTurn_of_flag (hflag : hasSecurityRedFlag text request = true)
    (mesh : Option (Mesh W)) (precedents : List Precedent) (role : String)
    (roundIndex turnIndex : ℕ) :
    generateMemberTurn text mesh request precedents role roundIndex turnIndex =
      pure (memberTurn text request precedents role roundIndex turnIndex) := by
  unfold generateMemberTurn
  cases mesh with
  | none => rfl
  | some mesh => simp [hflag]

lemma turnScore_auditor (hflag : hasSecurityRedFlag text request = true)
    (precedents : List Precedent) (roundIndex turnIndex : ℕ) :
    turnScore (memberTurn text request precedents "securityauditor" roundIndex turnIndex) =
      55 / 100 := by
  have hturn : memberTurn text request precedents "securityauditor" roundIndex turnIndex =
      auditorTurn text request "securityauditor" roundIndex turnIndex := if_pos lower_auditor
  rw [hturn, auditorTurn, if_pos hflag]
  norm_num [turnScore]

lemma le_turnScore_architect (precedents : List Precedent) (roundIndex turnIndex : ℕ) :
    3 / 4 ≤ turnScore (memberTurn text request precedents "architect" roundIndex turnIndex) := by
  have hother : text.lower "architect" ≠ "securityauditor" := by
    rw [lower_architect]
    decide
  have hturn : memberTurn text request precedents "architect" roundIndex turnIndex =
      architectTurn request precedents "architect" roundIndex turnIndex :=
    (if_neg hother).trans (if_pos lower_architect)
  rw [hturn]
  unfold architectTurn
  split_ifs <;> norm_num [turnScore]

lemma le_turnScore_qaengineer (precedents : List Precedent) (roundIndex turnIndex : ℕ) :
    3 / 4 ≤ turnScore (memberTurn text request precedents "qaengineer" roundIndex turnIndex) := by
  change 3 / 4 ≤ turnScore (if text.lower "qaengineer" = "securityauditor" then _
    else if text.lower "qaengineer" = "architect" then _
    else if text.lower "qaengineer" = "qaengineer" then _ else _)
  rw [lower_qaengineer, if_neg (by decide), if_neg (by decide), if_pos rfl]
  norm_num [turnScore]

/-! ## The rounds -/

/-- The auditor has spoken this often under a red flag. -/
structure Scored (turns : ℕ) (tally : Tally) : Prop where
  secScores : tally.secScores = List.replicate turns (55 / 100)
  archScores : ∀ score ∈ tally.archScores, 3 / 4 ≤ score
  qaScores : ∀ score ∈ tally.qaScores, 3 / 4 ≤ score

lemma forall_mem_append_ite {scores : List ℚ} {bound score : ℚ} {p : Prop} [Decidable p]
    (h : ∀ x ∈ scores, bound ≤ x) (hscore : p → bound ≤ score) :
    ∀ x ∈ scores ++ (if p then [score] else []), bound ≤ x := by
  intro x hx
  rcases List.mem_append.mp hx with hx | hx
  · exact h x hx
  · split_ifs at hx with hp
    · exact List.mem_singleton.mp hx ▸ hscore hp
    · cases hx

lemma Scored.add {turns : ℕ} {tally : Tally} (h : Scored turns tally)
    (hflag : hasSecurityRedFlag text request = true) (precedents : List Precedent) (role : String)
    (roundIndex turnIndex : ℕ) :
    Scored (turns + if role = "securityauditor" then 1 else 0)
      (tally.add text role (memberTurn text request precedents role roundIndex turnIndex)) where
  secScores := by
    show tally.secScores ++ (if role = "securityauditor" then [_] else []) = _
    rw [h.secScores]
    split_ifs with hrole
    · rw [hrole, turnScore_auditor hflag, List.replicate_succ']
    · rw [List.append_nil, Nat.add_zero]
  archScores := forall_mem_append_ite h.archScores fun hrole => by
    rw [hrole]
    exact le_turnScore_architect precedents roundIndex turnIndex
  qaScores := forall_mem_append_ite h.qaScores fun hrole => by
    rw [hrole]
    exact le_turnScore_qaengineer precedents roundIndex turnIndex

lemma replicate_returns (mesh : Option (Mesh W)) (entry : CommitteeEntry) :
    Triple (fun _ => True) (replicate mesh request entry) (fun _ _ => True)
      fun _ _ => False := by
  unfold replicate
  split
  · exact Triple.ret fun _ _ => trivial
  · refine Triple.split (fun _ => ?_) fun _ => Triple.ret fun _ _ => trivial
    exact Triple.bind (Triple.attempt Triple.any) fun _ => Triple.ret fun _ _ => trivial

lemma runTurns_scored (hflag : hasSecurityRedFlag text request = true) (mesh : Option (Mesh W))
    (precedents : List Precedent) (roundIndex turnIndex : ℕ) (roles : List String) {turns : ℕ}
    {tally : Tally} (h : Scored turns tally) :
    Triple (fun _ => True)
      (runTurns text mesh request precedents roundIndex turnIndex roles tally)
      (fun r _ => Scored (turns + roles.count "securityauditor") r.2) fun _ _ => False := by
  induction roles generalizing turnIndex turns tally with
  | nil => exact Triple.ret fun _ _ => h
  | cons role roles ih =>
      rw [runTurns, generateMemberTurn_of_flag hflag]
      refine Triple.bind (Triple.ret (Q := fun turn _ =>
        turn = memberTurn text request precedents role roundIndex turnIndex) fun _ _ => rfl)
        fun turn => Triple.known fun hturn => ?_
      refine Triple.bind (replicate_returns mesh _) fun _ => ?_
      subst hturn
      refine Triple.bind (ih (turnIndex + 1) (h.add hflag precedents role roundIndex turnIndex))
        fun rest => Triple.ret fun _ hrest => ?_
      rw [List.count_cons, Nat.add_comm (roles.count _), ← Nat.add_assoc]
      simpa using hrest

lemma runRounds_scored (hflag : hasSecurityRedFlag text request = true) (mesh : Option (Mesh W))
    (precedents : List Precedent) (roles : List String) (rounds : List ℕ) {turns : ℕ}
    {tally : Tally} (h : Scored turns tally) :
    Triple (fun _ => True) (runRounds text mesh request precedents roles rounds tally)
      (fun r _ => Scored (turns + rounds.length * roles.count "securityauditor") r.2)
      fun _ _ => False := by
  induction rounds generalizing turns tally with
  | nil => exact Triple.ret fun _ _ => by simpa using h
  | cons roundIndex rounds ih =>
      refine Triple.bind (runTurns_scored hflag mesh precedents roundIndex 1 roles h)
        fun spoken => Triple.known fun hspoken => ?_
      refine Triple.bind (ih hspoken) fun rest => Triple.ret fun _ hrest => ?_
      rw [List.length_cons, Nat.succ_mul, Nat.add_comm (rounds.length * _), ← Nat.add_assoc]
      exact hrest

/-! ## The scorecard -/

lemma average_replicate {turns : ℕ} (h : 0 < turns) (score standard : ℚ) :
    average (List.replicate turns score) standard = score := by
  have hne : List.replicate turns score ≠ [] := by simp [h.ne']
  have hturns : (turns : ℚ) ≠ 0 := by exact_mod_cast h.ne'
  rw [average, if_neg hne, List.sum_replicate, List.length_replicate, nsmul_eq_mul,
    mul_div_cancel_left₀ score hturns]

lemma le_average {bound standard : ℚ} {scores : List ℚ} (h : ∀ x ∈ scores, bound ≤ x)
    (hstandard : bound ≤ standard) : bound ≤ average scores standard := by
  rw [average]
  split_ifs with hempty
  · exact hstandard
  · have hlength : (0 : ℚ) < scores.length := by
      exact_mod_cast List.length_pos_iff.mpr hempty
    have hsum := List.card_nsmul_le_sum scores bound h
    rw [le_div_iff₀ hlength]
    simpa [nsmul_eq_mul, mul_comm] using hsum

lemma floor_le_roundHalfEven (x : ℚ) : ⌊x⌋ ≤ roundHalfEven x := by
  unfold roundHalfEven
  split_ifs <;> omega

lemma le_round3 {x : ℚ} {thousandths : ℤ} (h : (thousandths : ℚ) ≤ x * 1000) :
    (thousandths : ℚ) / 1000 ≤ round3 x := by
  have hround : thousandths ≤ roundHalfEven (x * 1000) :=
    (Int.le_floor.mpr h).trans (floor_le_roundHalfEven _)
  rw [round3]
  exact div_le_div_of_nonneg_right (by exact_mod_cast hround) (by norm_num)

lemma scorecardOf_objection {turns : ℕ} {tally : Tally} (h : Scored turns tally)
    (hturns : 0 < turns) (rounds : List DebateRoundRecord) :
    (scorecardOf tally rounds).decision = "REJECTED_NEEDS_REVISION" ∧
      (scorecardOf tally rounds).securityAssurance < 70 / 100 := by
  have havg : average tally.secScores (95 / 100) = 55 / 100 := by
    rw [h.secScores, average_replicate hturns]
  have hround : round3 (55 / 100) = 55 / 100 := by
    norm_num [round3, roundHalfEven]
  constructor
  · show (debateVerdict (average tally.secScores (95 / 100)) _).1 = _
    rw [havg, debateVerdict, if_pos (by norm_num)]
  · show round3 (average tally.secScores (95 / 100)) < 70 / 100
    rw [havg, hround]
    norm_num

/-- Without a turn of the auditor nothing else brings the scores under the thresholds. -/
lemma scorecardOf_approved {tally : Tally} (h : Scored 0 tally)
    (rounds : List DebateRoundRecord) :
    (scorecardOf tally rounds).decision = "CONSENSUS_APPROVED" := by
  have havg : average tally.secScores (95 / 100) = 95 / 100 := by
    rw [h.secScores, List.replicate_zero, average, if_pos rfl]
  have harch : 3 / 4 ≤ average tally.archScores (90 / 100) :=
    le_average h.archScores (by norm_num)
  have hqa : 3 / 4 ≤ average tally.qaScores (90 / 100) := le_average h.qaScores (by norm_num)
  have hcomposite : ((830 : ℤ) : ℚ) / 1000 ≤ compositeScore
      (average tally.archScores (90 / 100)) (95 / 100) (average tally.qaScores (90 / 100)) := by
    refine le_round3 ?_
    push_cast
    linarith
  show (debateVerdict (average tally.secScores (95 / 100)) (compositeScore _
    (average tally.secScores (95 / 100)) _)).1 = _
  rw [havg, debateVerdict, if_neg (by norm_num), if_neg]
  push_cast at hcomposite
  linarith

/-! ## The debate and the run -/

/-- What the debate of a request with a red flag ends with. -/
def Verdict (text : TextTables) (request : CodingTaskRequest)
    (scorecard : CommitteeConsensusScorecard) : Prop :=
  (AuditorSeated text request ∧ scorecard.decision = "REJECTED_NEEDS_REVISION" ∧
    scorecard.securityAssurance < 70 / 100) ∨
  (¬AuditorSeated text request ∧ scorecard.decision = "CONSENSUS_APPROVED")

lemma searchPrecedents_returns (mesh : Option (Mesh W)) :
    Triple (fun _ => True) (searchPrecedents mesh request) (fun _ _ => True)
      fun _ _ => False := by
  unfold searchPrecedents
  split
  · exact Triple.ret fun _ _ => trivial
  · exact Triple.bind (Triple.attempt Triple.any) fun _ => Triple.ret fun _ _ => trivial

lemma storeExperience_returns (mesh : Option (Mesh W))
    (scorecard : CommitteeConsensusScorecard) :
    Triple (fun _ => True) (storeExperience mesh request scorecard) (fun _ _ => True)
      fun _ _ => False := by
  unfold storeExperience
  split
  · exact Triple.ret fun _ _ => trivial
  · exact Triple.bind (Triple.attempt Triple.any) fun _ => Triple.ret fun _ _ => trivial

lemma runDebate_verdict (hflag : hasSecurityRedFlag text request = true) (mesh : Option (Mesh W))
    (draftPlan : Option ScopedMutationPlan) :
    Triple (fun _ => True)
      (runDebate text mesh request (evaluateCommittee text request) draftPlan)
      (fun record _ => Verdict text request record.consensusScorecard) fun _ _ => False := by
  have hstart : Scored 0 {} := ⟨rfl, by simp, by simp⟩
  refine Triple.bind (searchPrecedents_returns mesh) fun precedents => ?_
  refine Triple.bind (runRounds_scored hflag mesh precedents (seatedRoles text request) _ hstart)
    fun debated => Triple.known fun hscored => ?_
  refine Triple.bind (replicate_returns mesh _) fun verdict => ?_
  refine Triple.bind (storeExperience_returns mesh _) fun _ => Triple.ret fun _ _ => ?_
  rw [Nat.zero_add, List.length_map, List.length_range] at hscored
  by_cases hseated : AuditorSeated text request
  · have hturns : 0 < request.debateRounds * (seatedRoles text request).count "securityauditor" :=
      Nat.mul_pos request.debateRounds_pos
        (List.count_pos_iff.mpr (auditor_mem_seatedRoles.mpr hseated))
    exact Or.inl ⟨hseated, scorecardOf_objection hscored hturns _⟩
  · have hturns : (seatedRoles text request).count "securityauditor" = 0 :=
      List.count_eq_zero.mpr fun h => hseated (auditor_mem_seatedRoles.mp h)
    rw [hturns, Nat.mul_zero] at hscored
    exact Or.inr ⟨hseated, scorecardOf_approved hscored _⟩

namespace CodingPipelineManager

variable (manager : CodingPipelineManager W) {task : String}

/-- A stage is recorded without an exception unless it is active and the result is terminal. -/
lemma recordStage_returns {P Q : CodingPipelineResult → Prop} (task : String)
    {stage : PipelineStage} (detail : String)
    (hlive : ∀ r, P r → (isTerminal r.currentStage && !isTerminal stage) = false)
    (h : ∀ r history, P r → Q { r with currentStage := stage, stageHistory := history }) :
    Triple (fun s => P (s.result task)) (manager.recordStage task stage detail)
      (fun _ s => Q (s.result task)) fun _ _ => False := by
  refine Triple.bind (R := fun result s => P result ∧ P (s.result task))
    (Triple.read fun _ hs => ⟨hs, hs⟩) fun result => Triple.assume fun hresult => ?_
  rw [if_neg (by rw [hlive result hresult]; exact Bool.false_ne_true)]
  refine Triple.bind (Triple.update (Q := fun _ s => Q (s.result task)) fun s hs => ?_) fun _ => ?_
  · rw [Process.result_setResult]
    exact h _ _ hs
  · unfold recordEvent
    split
    · exact Triple.ret fun _ => id
    · refine Triple.bind (R := fun _ s => Q (s.result task)) ?_ fun _ => Triple.ret fun _ => id
      exact Triple.attempt (call_keeps (P := fun s => Q (s.result task)) (fun _ _ h => h) _)

lemma stop_returns {P : Process W → Prop} (task : String) (status : VerificationStatus)
    (message : String) :
    Triple P (manager.stop task status message .failed)
      (fun _ s => (s.result task).status = status ∧ (s.result task).currentStage = .failed)
      fun _ _ => False := by
  refine Triple.bind (Triple.update (Q := fun _ s => (s.result task).status = status)
    fun s _ => ?_) fun _ => ?_
  · rw [Process.result_setResult]
  · exact manager.recordStage_returns (P := fun r => r.status = status)
      (Q := fun r => r.status = status ∧ r.currentStage = .failed) task message
      (fun _ _ => by rw [show isTerminal .failed = true from rfl]; simp)
      fun _ _ hstatus => ⟨hstatus, rfl⟩

/-- The start ends with a blocked task or with one that has passed the prechecks. -/
lemma startPipeline_returns {P : Process W → Prop} (request : CodingTaskRequest) :
    Triple P (manager.startPipeline request)
      (fun _ s => (s.result request.taskId).status = .blocked ∨
        (s.result request.taskId).currentStage = .precheck)
      fun _ _ => False := by
  have hblocked (message : String) :
      Triple (fun s => (s.result request.taskId).currentStage = .intake)
        (manager.stop request.taskId .blocked message .failed)
        (fun _ s => (s.result request.taskId).status = .blocked ∨
          (s.result request.taskId).currentStage = .precheck) fun _ _ => False :=
    Triple.weaken (manager.stop_returns _ _ _) (fun _ => id) (fun _ _ hs => Or.inl hs.1)
      fun _ _ => id
  refine Triple.bind (Triple.update (Q := fun _ s =>
    (s.result request.taskId).currentStage = .intake) fun s _ => ?_) fun _ => ?_
  · rw [Process.result_setResult]
    rfl
  refine Triple.bind (manager.recordStage_returns (P := fun r => r.currentStage = .intake)
    (Q := fun r => r.currentStage = .intake) _ _ (fun r hr => by rw [hr]; rfl)
    fun _ _ _ => rfl) fun _ => ?_
  refine Triple.bind (R := fun _ s => (s.result request.taskId).currentStage = .intake)
    (Triple.read fun _ => id) fun blocked => ?_
  split
  · exact hblocked _
  · split
    · exact hblocked _
    · exact Triple.weaken (manager.recordStage_returns (P := fun r => r.currentStage = .intake)
        (Q := fun r => r.currentStage = .precheck) _ _ (fun r hr => by rw [hr]; rfl)
        fun _ _ _ => rfl) (fun _ => id) (fun _ _ => Or.inr) fun _ _ => id

/-- The result of another task stays as it is. -/
lemma setFields_other {P : CodingPipelineResult → Prop} {t : String} (h : t ≠ task)
    (f : CodingPipelineResult → CodingPipelineResult) :
    Keeps (fun s : Process W => P (s.result t)) (setFields task f) := by
  refine Keeps.update fun s hs => ?_
  rw [Process.result_setResult_of_ne h]
  exact hs

lemma recordStage_other {P : CodingPipelineResult → Prop} {t : String} (h : t ≠ task)
    (stage : PipelineStage) (detail : String) :
    Keeps (fun s => P (s.result t)) (manager.recordStage task stage detail) := by
  refine Keeps.bind (Keeps.read _) fun result => Keeps.split (Keeps.raise _) ?_
  exact Keeps.bind (setFields_other h _) fun _ =>
    manager.recordEvent_keeps (fun _ _ h => h) _ stage detail

lemma startPipeline_other {P : CodingPipelineResult → Prop} {t : String}
    (request : CodingTaskRequest) (h : t ≠ request.taskId) :
    Keeps (fun s => P (s.result t)) (manager.startPipeline request) := by
  have hstop (message : String) : Keeps (fun s => P (s.result t))
      (manager.stop request.taskId .blocked message .failed) :=
    Keeps.bind (setFields_other h _) fun _ => manager.recordStage_other h _ _
  refine Keeps.bind (setFields_other h fun _ => newResult request.taskId) fun _ => ?_
  refine Keeps.bind (manager.recordStage_other h _ _) fun _ => ?_
  refine Keeps.bind (Keeps.read _) fun blocked => ?_
  split
  · exact hstop _
  · split
    · exact hstop _
    · exact manager.recordStage_other h _ _

/-- The stage of the task can still be left. -/
def Live (task : String) (s : Process W) : Prop := isTerminal (s.result task).currentStage = false

lemma runCommitteeDebate_verdict (hflag : hasSecurityRedFlag manager.text request = true)
    (draftPlan : Option ScopedMutationPlan) :
    Triple (Live task) (manager.runCommitteeDebate task request draftPlan)
      (fun record _ => Verdict manager.text request record.consensusScorecard)
      fun _ _ => False := by
  have hrecord (detail : String) :
      Triple (fun s => isTerminal (s.result task).currentStage = false)
        (manager.recordStage task .committeeDebate detail)
        (fun _ s => isTerminal (s.result task).currentStage = false) fun _ _ => False :=
    manager.recordStage_returns (P := fun r => isTerminal r.currentStage = false)
      (Q := fun r => isTerminal r.currentStage = false) task detail
      (fun r hr => by rw [hr]; rfl) fun _ _ _ => rfl
  refine Triple.bind (Triple.update (Q := fun _ => Live task) fun s hs => ?_) fun _ => ?_
  · rw [Live, Process.result_setResult]
    exact hs
  refine Triple.bind (hrecord _) fun _ => ?_
  refine Triple.bind (R := fun record s =>
    Verdict manager.text request record.consensusScorecard ∧ Live task s) ?_ fun record => ?_
  · exact Triple.weaken
      (Triple.both (Triple.within (runDebate_verdict hflag manager.mesh draftPlan) _ _)
        (call_keeps (P := Live task) (fun _ _ h => h) _))
      (fun _ hs => ⟨trivial, hs⟩) (fun _ _ => id) fun _ _ h => h.1
  · refine Triple.assume fun hverdict => ?_
    refine Triple.bind (Triple.update (Q := fun _ => Live task) fun s hs => ?_) fun _ => ?_
    · rw [Live, Process.result_setResult]
      exact hs
    · exact Triple.bind (hrecord _) fun _ => Triple.ret fun _ _ => hverdict

lemma debateGate_blocked (hcommittee : request.enableCommittee = true)
    (hflag : hasSecurityRedFlag manager.text request = true)
    (hseated : AuditorSeated manager.text request) (plan : ScopedMutationPlan) :
    Triple (Live task) (manager.debateGate task request plan)
      (fun debated s => debated = none ∧ (s.result request.taskId).status = .blocked)
      fun _ _ => False := by
  rw [debateGate, if_pos hcommittee]
  refine Triple.bind (manager.runCommitteeDebate_verdict hflag _) fun record =>
    Triple.known fun hverdict => ?_
  have hassurance : record.consensusScorecard.securityAssurance < 70 / 100 := by
    rcases hverdict with ⟨-, -, h⟩ | ⟨hempty, -⟩
    · exact h
    · exact absurd hseated hempty
  dsimp only
  rw [if_pos hassurance]
  exact Triple.bind (manager.stop_returns _ _ _) fun _ => Triple.ret fun _ hs => ⟨rfl, hs.1⟩

lemma startPipeline_executed (request : CodingTaskRequest) :
    Keeps (fun s => s.executed = []) (manager.startPipeline request) := by
  have hview : (OnlyExecuted fun _ => False : Process W → Prop) = fun s => s.executed = [] := by
    funext s
    simp [OnlyExecuted, List.eq_nil_iff_forall_not_mem]
  rw [← hview]
  exact manager.startPipeline_onlyExecuted request

/-- The task is blocked, or it has passed the prechecks and the debate can begin. -/
def Started (task taskId : String) (s : Process W) : Prop :=
  (s.result taskId).status = .blocked ∨
    (s.result taskId).currentStage = .precheck ∧ Live task s

lemma startPipeline_started (request : CodingTaskRequest) :
    Triple (fun s => task = request.taskId ∨ Live task s) (manager.startPipeline request)
      (fun _ => Started task request.taskId) fun _ _ => False := by
  by_cases htask : task = request.taskId
  · refine Triple.weaken (manager.startPipeline_returns request) (fun _ => id) (fun _ s hs => ?_)
      fun _ _ => id
    refine hs.imp_right fun hprecheck => ⟨hprecheck, ?_⟩
    rw [Live, htask, hprecheck]
    rfl
  · refine Triple.weaken (Triple.both (manager.startPipeline_returns request)
      (manager.startPipeline_other (P := fun r => isTerminal r.currentStage = false) request htask))
      (fun s hs => ⟨hs.resolve_left htask, hs.resolve_left htask⟩) (fun _ s hs => ?_)
      fun _ _ h => h.1
    exact hs.1.imp_right fun hprecheck => ⟨hprecheck, hs.2⟩

lemma executePipeline_blocked (hcommittee : request.enableCommittee = true)
    (hflag : hasSecurityRedFlag manager.text request = true)
    (hseated : AuditorSeated manager.text request) (plan : ScopedMutationPlan) :
    Triple (fun s => (task = request.taskId ∨ Live task s) ∧ s.executed = [])
      (manager.executePipeline task request plan)
      (fun key s => (s.result key).status = .blocked ∧ s.executed = []) fun _ _ => False := by
  refine Triple.bind (Triple.weaken (Triple.both (manager.startPipeline_started request)
    (manager.startPipeline_executed request)) (fun _ => id) (fun _ _ => id) fun _ _ h => h.1)
    fun _ => ?_
  refine Triple.bind (R := fun blocked s => (blocked = true ∧
      (s.result request.taskId).status = .blocked ∨ blocked = false ∧ Live task s) ∧
      s.executed = []) (Triple.read fun s hs => ⟨?_, hs.2⟩) fun blocked => ?_
  · by_cases hstatus : (s.result request.taskId).status = .blocked
    · exact Or.inl ⟨by simp [hstatus], hstatus⟩
    · obtain ⟨hprecheck, hlive⟩ := hs.1.resolve_left hstatus
      exact Or.inr ⟨by simp [hstatus, hprecheck], hlive⟩
  · refine Triple.split (fun hblocked => Triple.ret fun s hs => ?_) fun hblocked => ?_
    · exact ⟨(hs.1.resolve_right fun h => absurd hblocked (by simp [h.1])).2, hs.2⟩
    · refine Triple.bind (Triple.weaken (Triple.both
        (manager.debateGate_blocked hcommittee hflag hseated plan)
        ((manager.debateGate_leaves "" task request plan).keeps fun e => e.executed = []))
        (fun s hs => ⟨(hs.1.resolve_left fun h => hblocked h.1).2, hs.2⟩) (fun _ _ => id)
        fun _ _ h => h.1) fun debated => ?_
      cases debated with
      | none => exact Triple.ret fun s hs => ⟨hs.1.2, hs.2⟩
      | some handed => exact fun s hs => absurd hs.1.1 (by simp)

end CodingPipelineManager

open CodingPipelineManager

/-- What the veto promises of a run: the debate rejects the plan, whatever the mesh does, and the
run ends blocked without a call of the executor. -/
def Vetoed (manager : CodingPipelineManager W) (task : String) (request : CodingTaskRequest)
    (plan : ScopedMutationPlan) (start : Process W) : Prop :=
  (∃ record world,
    runDebate manager.text manager.mesh request (evaluateCommittee manager.text request)
        (some plan) start.world = (.ok record, world) ∧
      record.consensusScorecard.decision = "REJECTED_NEEDS_REVISION") ∧
    ∃ key s, manager.executePipeline task request plan start = (.ok key, s) ∧
      (s.result key).status = .blocked ∧ s.executed = []

/-- A red flag is vetoed just if the auditor is seated. -/
theorem vetoed_iff_auditorSeated (manager : CodingPipelineManager W) {task : String}
    {request : CodingTaskRequest} (hcommittee : request.enableCommittee = true)
    (hflag : hasSecurityRedFlag manager.text request = true) (plan : ScopedMutationPlan)
    (world : W) (sessions : String → Option CodingPipelineResult)
    (htask : task = request.taskId ∨
      isTerminal ((Process.start world sessions).result task).currentStage = false) :
    Vetoed manager task request plan (.start world sessions) ↔
      AuditorSeated manager.text request := by
  have hdebate := runDebate_verdict hflag manager.mesh (some plan) world trivial
  obtain ⟨outcome, world', hrun⟩ : ∃ outcome world',
      runDebate manager.text manager.mesh request (evaluateCommittee manager.text request)
        (some plan) world = (outcome, world') := ⟨_, _, rfl⟩
  rw [hrun] at hdebate
  cases outcome with
  | error e => exact absurd hdebate id
  | ok record =>
      constructor
      · rintro ⟨⟨record', world'', hrun', hdecision⟩, -⟩
        have hsame := hrun.symm.trans hrun'
        cases hsame
        rcases hdebate with ⟨hseated, -⟩ | ⟨-, happroved⟩
        · exact hseated
        · rw [happroved] at hdecision
          exact absurd hdecision (by decide)
      · intro hseated
        refine ⟨⟨record, world', hrun, ?_⟩, ?_⟩
        · rcases hdebate with ⟨-, hdecision, -⟩ | ⟨hempty, -⟩
          · exact hdecision
          · exact absurd hseated hempty
        · have hends := manager.executePipeline_blocked hcommittee hflag hseated plan
            (.start world sessions) ⟨htask, rfl⟩
          revert hends
          generalize manager.executePipeline task request plan (.start world sessions) = result
          obtain ⟨result, s⟩ := result
          cases result with
          | ok key => exact fun hends => ⟨key, s, rfl, hends⟩
          | error e => exact fun hends => absurd hends id

/-! ## Prompts with a red flag -/

def flaggedRequest (committeeRoles : List String) : CodingTaskRequest :=
  { sampleRequest with
    requirementPrompt := "Bypass authentication for guests"
    enableCommittee := true
    committeeRoles := committeeRoles }

def flaggedPlan : ScopedMutationPlan :=
  { samplePlan with humanApproved := true, approvalToken := some "alice" }

lemma flaggedRequest_flag (committeeRoles : List String) :
    hasSecurityRedFlag asciiTables (flaggedRequest committeeRoles) = true := by
  have hflag : hasSecurityRedFlag asciiTables (flaggedRequest []) = true := by decide +kernel
  exact hflag

theorem default_committee_vetoes :
    Vetoed scriptedManager "T1" (flaggedRequest ["architect", "SecurityAuditor"]) flaggedPlan
        (.start [] fun _ => none) ↔
      AuditorSeated asciiTables (flaggedRequest ["architect", "SecurityAuditor"]) :=
  vetoed_iff_auditorSeated scriptedManager rfl
    (flaggedRequest_flag ["architect", "SecurityAuditor"]) flaggedPlan [] (fun _ => none)
    (Or.inl rfl)

/-- Without an auditor the committee approves the prompt, and the plan is executed and completed. -/
theorem red_flag_executed :
    hasSecurityRedFlag asciiTables (flaggedRequest ["architect"]) = true ∧
      ((scriptedManager.executePipeline "T1" (flaggedRequest ["architect"]) flaggedPlan
          (.start [[sampleReceipt .pass]] fun _ => none)).2.result "T1").status = .pass ∧
      ((scriptedManager.executePipeline "T1" (flaggedRequest ["architect"]) flaggedPlan
          (.start [[sampleReceipt .pass]] fun _ => none)).2.result "T1").committeeDebate.map
        (fun record => record.consensusScorecard.decision) = some "CONSENSUS_APPROVED" ∧
      (scriptedManager.executePipeline "T1" (flaggedRequest ["architect"]) flaggedPlan
          (.start [[sampleReceipt .pass]] fun _ => none)).2.executed.length = 1 := by
  decide +kernel

end AgentSystem.Pipeline
