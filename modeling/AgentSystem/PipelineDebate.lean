import AgentSystem.PipelineCommittee

/-!
# The debate

The rounds of the committee, the scorecard and the synthesized plan.
-/
namespace AgentSystem.Pipeline

open Programs

/-! ## The mesh -/

/-- An entry of the replicated log of debates. -/
inductive CommitteeEntry
  | speechTurn (taskId : String) (roundIndex : ℕ) (speakerRole content : String) (scoreImpact : ℚ)
  | consensusVerdict (taskId : String) (scorecard : CommitteeConsensusScorecard)
  | vectorCheckpoint (taskId decision : String)

structure VectorMemory (W : Type) where
  search : String → ℕ → Program W String (List Precedent)
  store : String → String → String → CommitteeConsensusScorecard → Program W String Unit

/-- The coordinator of the mesh; `ensureLeader` starts an election at a node that does not lead, and
a proposal returns the index and the term of its entry. -/
structure Mesh (W : Type) where
  selectBestPeer : Program W String (Option Peer)
  ensureLeader : Program W String Unit
  proposeCommitteeEntry : CommitteeEntry → Program W String (Option (ℤ × ℤ))
  vectorMemory : Option (VectorMemory W)

section Debate

variable {W : Type} (text : TextTables) (mesh : Option (Mesh W)) (request : CodingTaskRequest)

/-- The precedents that the debate starts from. -/
def searchPrecedents : Program W String (List Precedent) :=
  match mesh.bind Mesh.vectorMemory with
  | none => pure []
  | some memory => do
      let found ← (memory.search request.requirementPrompt 3).attempt
      pure (found.getD [])

/-- `_generate_member_turn`. -/
def generateMemberTurn (precedents : List Precedent) (role : String) (roundIndex turnIndex : ℕ) :
    Program W String DebateSpeechTurn :=
  match mesh with
  | none => pure (memberTurn text request precedents role roundIndex turnIndex)
  | some mesh =>
      if request.useMesh && !hasSecurityRedFlag text request then do
        let peer ← mesh.selectBestPeer.attempt
        match peer with
        | some (some peer) => pure (meshTurn peer role roundIndex turnIndex)
        | _ => pure (memberTurn text request precedents role roundIndex turnIndex)
      else pure (memberTurn text request precedents role roundIndex turnIndex)

/-- A proposal to the mesh, if the debate is replicated. -/
def replicate (entry : CommitteeEntry) : Program W String (Option (ℤ × ℤ)) :=
  match mesh with
  | none => pure none
  | some mesh =>
      if request.useRaftConsensus then do
        let proposed ← (mesh.ensureLeader >>= fun _ => mesh.proposeCommitteeEntry entry).attempt
        pure proposed.join
      else pure none

/-! ## The rounds -/

/-- What the turns so far have added up to. -/
structure Tally where
  archScores : List ℚ := []
  secScores : List ℚ := []
  qaScores : List ℚ := []
  dissentingOpinions : List String := []
  critiquePoints : List String := []

/-- `max(0.0, min(1.0, 1.0 + speech_turn.score_impact))`. -/
def turnScore (turn : DebateSpeechTurn) : ℚ := max 0 (min 1 (1 + turn.scoreImpact))

def Tally.add (tally : Tally) (role : String) (turn : DebateSpeechTurn) : Tally where
  archScores := tally.archScores ++ if role = "architect" then [turnScore turn] else []
  secScores := tally.secScores ++ if role = "securityauditor" then [turnScore turn] else []
  qaScores := tally.qaScores ++ if role = "qaengineer" then [turnScore turn] else []
  dissentingOpinions := tally.dissentingOpinions ++
    if turn.scoreImpact < -2 / 10 then
      [s!"[{text.upper role} R{turn.roundIndex}] {firstChars 140 turn.content}..."] else []
  critiquePoints := tally.critiquePoints ++ turn.critiquePoints

/-- The turns of a round. -/
def runTurns (precedents : List Precedent) (roundIndex : ℕ) :
    ℕ → List String → Tally → Program W String (List DebateSpeechTurn × Tally)
  | _, [], tally => pure ([], tally)
  | turnIndex, role :: roles, tally => do
      let turn ← generateMemberTurn text mesh request precedents role roundIndex turnIndex
      let _ ← replicate mesh request
        (.speechTurn request.taskId roundIndex role (firstChars 160 turn.content) turn.scoreImpact)
      let (turns, tally) ← runTurns precedents roundIndex (turnIndex + 1) roles
        (tally.add text role turn)
      pure (turn :: turns, tally)

def runRounds (precedents : List Precedent) (roles : List String) :
    List ℕ → Tally → Program W String (List DebateRoundRecord × Tally)
  | [], tally => pure ([], tally)
  | roundIndex :: rounds, tally => do
      let (turns, tally) ← runTurns text mesh request precedents roundIndex 1 roles tally
      let record : DebateRoundRecord :=
        { roundIndex := roundIndex
          turns := turns
          roundSummary :=
            s!"Round {roundIndex} completed with {turns.length} turns. Key discussion focused on " ++
            "architectural boundaries, security containment, and testing strategy." }
      let (records, tally) ← runRounds precedents roles rounds tally
      pure (record :: records, tally)

/-! ## The scorecard -/

/-- The mean of the scores, or the given one if there are none. -/
def average (scores : List ℚ) (standard : ℚ) : ℚ :=
  if scores = [] then standard else scores.sum / scores.length

/-- The weighted score and the decision over the averages of the three roles. -/
def compositeScore (arch sec qa : ℚ) : ℚ :=
  round3 (35 / 100 * arch + 40 / 100 * sec + 25 / 100 * qa)

def debateVerdict (avgSec composite : ℚ) : String × String :=
  if avgSec < 70 / 100 then
    ("REJECTED_NEEDS_REVISION",
      "Security assurance threshold not met; remediate zero-trust/sandbox risks.")
  else if composite < 70 / 100 then
    ("REJECTED_NEEDS_REVISION",
      "Composite confidence below 0.70 threshold; refine plan and re-deliberate.")
  else
    ("CONSENSUS_APPROVED",
      "Proceed to Stop-and-Wait Architecture Gate with committee enrichment.")

def scorecardOf (tally : Tally) (rounds : List DebateRoundRecord) : CommitteeConsensusScorecard :=
  let avgArch := average tally.archScores (90 / 100)
  let avgSec := average tally.secScores (95 / 100)
  let avgQa := average tally.qaScores (90 / 100)
  let composite := compositeScore avgArch avgSec avgQa
  { architecturalIntegrity := round3 avgArch
    securityAssurance := round3 avgSec
    testThoroughness := round3 avgQa
    compositeScore := composite
    totalReasoningTokens :=
      ((rounds.flatMap DebateRoundRecord.turns).map DebateSpeechTurn.reasoningTokens).sum
    decision := (debateVerdict avgSec composite).1
    dissentingOpinions := tally.dissentingOpinions
    recommendedActions := [(debateVerdict avgSec composite).2] }

/-! ## The plan -/

/-- The loop over the critique points: the edge cases and the tests. -/
def mergeCritiques : List String → List String × List String → List String × List String
  | [], merged => merged
  | point :: points, (edgeCases, testStrategy) =>
      if point ∉ edgeCases ∧ hasPart (text.lower point) "test" = false then
        mergeCritiques points (edgeCases ++ [point], testStrategy)
      else if point ∉ testStrategy ∧
          (hasPart (text.lower point) "test" || hasPart (text.lower point) "pytest") = true then
        mergeCritiques points (edgeCases, testStrategy ++ [point])
      else mergeCritiques points (edgeCases, testStrategy)

/-- The role that a synthesized plan is assigned to. -/
def leadRole : String := request.allowedRoles.head?.getD "DOMAIN_LOGIC_AGENT"

/-- `_synthesize_mutation_plan`. -/
def synthesizeMutationPlan (draftPlan : Option ScopedMutationPlan)
    (scorecard : CommitteeConsensusScorecard) (critiquePoints : List String) :
    ScopedMutationPlan :=
  let (edgeCases, testStrategy) := mergeCritiques text critiquePoints
    ((draftPlan.map ScopedMutationPlan.edgeCases).getD [],
     (draftPlan.map ScopedMutationPlan.testStrategy).getD [])
  let draftSummary := (draftPlan.map ScopedMutationPlan.planSummary).getD ""
  { taskId := request.taskId
    planSummary :=
      if draftSummary = "" then
        s!"[Committee-Enriched Plan] {request.requirementPrompt}. Consensus Composite: " ++
        s!"{fixed2 scorecard.compositeScore} ({scorecard.decision})."
      else s!"{draftSummary} (Reviewed & Enriched by Multi-Agent Committee)"
    targetFiles := (draftPlan.map ScopedMutationPlan.targetFiles).getD request.targetFiles
    assignedRole := leadRole request
    structuralDiffPreview := (draftPlan.map ScopedMutationPlan.structuralDiffPreview).getD ""
    edgeCases := edgeCases
    testStrategy :=
      if testStrategy = [] then
        [s!"pytest tests/ -k {request.taskId}", "python -m py_compile <target_files>"]
      else testStrategy }

/-! ## The debate -/

/-- The experience that the memory keeps, and the checkpoint of the memory. -/
def storeExperience (scorecard : CommitteeConsensusScorecard) : Program W String Unit :=
  match mesh.bind Mesh.vectorMemory with
  | none => pure ()
  | some memory => do
      let category :=
        if scorecard.decision = "CONSENSUS_APPROVED" then "DECISION" else "LESSON"
      let recommendations :=
        if scorecard.recommendedActions = [] then "Proceed"
        else "; ".intercalate (scorecard.recommendedActions.take 2)
      let content :=
        s!"Task {request.taskId} consensus verdict: {scorecard.decision}. Composite score: " ++
        s!"{fixed2 scorecard.compositeScore}. Recommendations: {recommendations}"
      let _ ← (memory.store request.taskId category content scorecard >>= fun _ =>
        match mesh with
        | some mesh =>
            if request.useRaftConsensus then
              mesh.proposeCommitteeEntry (.vectorCheckpoint request.taskId scorecard.decision)
            else pure none
        | none => pure none).attempt
      pure ()

/-- `run_debate`. -/
def runDebate (formation : CommitteeFormation) (draftPlan : Option ScopedMutationPlan) :
    Program W String CommitteeDebateRecord := do
  let precedents ← searchPrecedents mesh request
  let roles := formation.members.map CommitteeMemberSelection.role
  let (rounds, tally) ← runRounds text mesh request precedents roles
    ((List.range request.debateRounds).map (· + 1)) {}
  let scorecard := scorecardOf tally rounds
  let verdict ← replicate mesh request (.consensusVerdict request.taskId scorecard)
  storeExperience mesh request scorecard
  pure
    { debateId := s!"DEBATE-{request.taskId}"
      taskId := request.taskId
      committeeMembers := roles
      rounds := rounds
      consensusScorecard := scorecard
      synthesizedMutationPlan :=
        synthesizeMutationPlan text request draftPlan scorecard tally.critiquePoints
      raftLogIndex := verdict.map Prod.fst
      raftTerm := verdict.map Prod.snd }

end Debate

end AgentSystem.Pipeline
