import Mathlib

/-!
# Data of the coding pipeline

Requests, plans, receipts and results as they pass between the manager of the pipeline, its
committee and its tools. Scores are rational numbers in place of floats.
-/
namespace AgentSystem.Pipeline

inductive PipelineStage
  | intake
  | precheck
  | committeeDebate
  | planAndGate
  | isolatedMutation
  | verifyAndEvidence
  | independentReview
  | selfHealing
  | draftPrExport
  | completed
  | failed
  | aborted
  deriving DecidableEq

def PipelineStage.value : PipelineStage → String
  | intake => "INTAKE"
  | precheck => "PRECHECK"
  | committeeDebate => "COMMITTEE_DEBATE"
  | planAndGate => "PLAN_AND_GATE"
  | isolatedMutation => "ISOLATED_MUTATION"
  | verifyAndEvidence => "VERIFY_AND_EVIDENCE"
  | independentReview => "INDEPENDENT_REVIEW"
  | selfHealing => "SELF_HEALING"
  | draftPrExport => "DRAFT_PR_EXPORT"
  | completed => "COMPLETED"
  | failed => "FAILED"
  | aborted => "ABORTED"

inductive VerificationStatus
  | pass
  | fail
  | blocked
  | notRun
  | unverified
  deriving DecidableEq

def VerificationStatus.value : VerificationStatus → String
  | pass => "PASS"
  | fail => "FAIL"
  | blocked => "BLOCKED"
  | notRun => "NOT_RUN"
  | unverified => "UNVERIFIED"

structure CodingTaskRequest where
  taskId : String
  repositoryPath : String
  requirementPrompt : String
  baseBranch : String := "main"
  targetBranch : String
  inspectedFiles : List String := []
  targetFiles : List String := []
  allowedRoles : List String := ["DOMAIN_LOGIC_AGENT", "BACKEND_INFRA_AGENT"]
  enableCommittee : Bool := false
  debateRounds : ℕ := 1
  committeeRoles : List String := ["architect", "securityauditor", "qaengineer"]
  thinkingBudget : Option ℤ := none
  useMesh : Bool := false
  useRaftConsensus : Bool := false
  enableSelfHealing : Bool := true
  maxHealingAttempts : ℕ := 2
  requireMutationEvidence : Bool := false
  enableIndependentReview : Bool := false
  debateRounds_pos : 1 ≤ debateRounds := by decide
  debateRounds_le : debateRounds ≤ 3 := by decide
  maxHealingAttempts_le : maxHealingAttempts ≤ 5 := by decide

structure FileMutationSpec where
  filePath : String
  content : String := ""
  action : String := "write"
  deriving DecidableEq

structure WorktreeSessionConfig where
  sessionId : String
  worktreePath : String
  branchName : String
  baseCommit : String
  isIsolated : Bool := true
  deriving DecidableEq

structure ScopedMutationPlan where
  taskId : String
  planSummary : String
  targetFiles : List String
  assignedRole : String
  structuralDiffPreview : String := ""
  edgeCases : List String := []
  testStrategy : List String := []
  fileMutations : List FileMutationSpec := []
  humanApproved : Bool := false
  approvalToken : Option String := none
  approvalTimestamp : Option String := none
  deriving DecidableEq

structure VerificationReceipt where
  stepName : String
  command : String
  exitCode : ℤ
  status : VerificationStatus
  stdoutSnippet : String := ""
  stderrSnippet : String := ""
  durationMs : ℤ := 0
  deriving DecidableEq

structure DraftPRPayload where
  title : String
  body : String
  headBranch : String
  baseBranch : String
  commitHash : String
  changedFiles : List String := []
  receipts : List VerificationReceipt := []
  prUrl : Option String := none
  isDraft : Bool := true

/-- A turn of a committee member. -/
structure DebateSpeechTurn where
  speakerRole : String
  roundIndex : ℕ
  turnIndex : ℕ
  content : String
  critiquePoints : List String := []
  scoreImpact : ℚ := 0
  reasoningContent : Option String := none
  reasoningTokens : ℕ := 0

structure DebateRoundRecord where
  roundIndex : ℕ
  turns : List DebateSpeechTurn := []
  roundSummary : String := ""

structure CommitteeConsensusScorecard where
  architecturalIntegrity : ℚ := 1
  securityAssurance : ℚ := 1
  testThoroughness : ℚ := 1
  compositeScore : ℚ := 1
  totalReasoningTokens : ℕ := 0
  decision : String := "CONSENSUS_APPROVED"
  dissentingOpinions : List String := []
  recommendedActions : List String := []

structure CommitteeDebateRecord where
  debateId : String
  taskId : String
  committeeMembers : List String
  rounds : List DebateRoundRecord
  consensusScorecard : CommitteeConsensusScorecard
  synthesizedMutationPlan : ScopedMutationPlan
  raftLogIndex : Option ℤ := none
  raftTerm : Option ℤ := none

structure SelfHealingAttemptReceipt where
  attemptIndex : ℕ
  failedSteps : List String
  diagnosticEvidence : List String
  memoryPrecedentsUsed : List String
  correctiveAction : String
  modifiedFiles : List String
  ladderPassed : Bool

structure RollbackReceipt where
  taskId : String
  worktreePath : String
  branchName : String
  restoredBaseCommit : String
  untrackedFilesPurged : List String
  restorationStatus : String
  canonicalClean : Bool

structure CodingPipelineResult where
  taskId : String
  status : VerificationStatus
  currentStage : PipelineStage
  stageHistory : List (PipelineStage × String) := []
  worktreeConfig : Option WorktreeSessionConfig := none
  committeeDebate : Option CommitteeDebateRecord := none
  mutationPlan : Option ScopedMutationPlan := none
  receipts : List VerificationReceipt := []
  selfHealingAttempts : List SelfHealingAttemptReceipt := []
  rollbackReceipt : Option RollbackReceipt := none
  /-- The reviewed head of the receipt. -/
  independentReviewReceipt : Option String := none
  prPayload : Option DraftPRPayload := none
  errorMessage : Option String := none

/-! ## Texts -/

/-- The functions on texts that go by the Unicode tables. -/
structure TextTables where
  lower : String → String
  upper : String → String
  capitalize : String → String
  strip : String → String
  splitlines : String → List String
  isWord : Char → Bool
  lower_ascii : ∀ text : String, (∀ c ∈ text.toList, c.toNat < 128) →
    lower text = text.map Char.toLower

/-- The tables for texts of printable ASCII characters and line feeds. -/
def asciiTables : TextTables where
  lower text := text.map Char.toLower
  upper text := text.map Char.toUpper
  capitalize text :=
    String.ofList ((text.toList.take 1).map Char.toUpper ++ (text.toList.drop 1).map Char.toLower)
  strip text :=
    String.ofList (((text.toList.dropWhile Char.isWhitespace).reverse.dropWhile
      Char.isWhitespace).reverse)
  splitlines text :=
    if text.toList.getLast? = some '\n' then ((text.splitToList (· = '\n')).dropLast)
    else if text = "" then [] else text.splitToList (· = '\n')
  isWord c := c.isAlphanum || c = '_'
  lower_ascii _ _ := rfl

/-- `part in text`. -/
def hasPart (text part : String) : Bool := decide (part.toList <:+: text.toList)

def startsWith (text start : String) : Bool := start.toList.isPrefixOf text.toList

def endsWith (text tail : String) : Bool := tail.toList.isSuffixOf text.toList

/-- `text[:count]`. -/
def firstChars (count : ℕ) (text : String) : String := String.ofList (text.toList.take count)

/-- `path.replace("\\", "/")`. -/
def forwardSlashes (path : String) : String := path.map fun c => if c = '\\' then '/' else c

/-- `path.replace("\\", "/").lstrip("/")`. -/
def cleanPath (path : String) : String :=
  String.ofList ((forwardSlashes path).toList.dropWhile (· = '/'))

/-! ## Scores -/

/-- The integer next to a number, the even one of two. -/
def roundHalfEven (x : ℚ) : ℤ :=
  if x - ⌊x⌋ < 1 / 2 then ⌊x⌋
  else if 1 / 2 < x - ⌊x⌋ then ⌊x⌋ + 1
  else if ⌊x⌋ % 2 = 0 then ⌊x⌋
  else ⌊x⌋ + 1

/-- `round(x, 3)`. -/
def round3 (x : ℚ) : ℚ := roundHalfEven (x * 1000) / 1000

/-- `f"{x:.2f}"` of a score that is not negative. -/
def fixed2 (x : ℚ) : String :=
  let hundredths := (roundHalfEven (x * 100)).toNat
  toString (hundredths / 100) ++ "." ++
    (if hundredths % 100 < 10 then "0" else "") ++ toString (hundredths % 100)

end AgentSystem.Pipeline
