import AgentSystem.RawToolArguments

/-!
# Delegation packets

What `DelegationManager.create_packet` sends to an external advisor: the texts are scrubbed, the files are bounded,
and the packet is rendered in two forms. The regular expressions and the token counter are parameters.
-/
namespace AgentSystem.Advisor

open Json Executor ProtocolRepair

/-! ## Scrubbing -/

/-- A regular expression with its replacement. -/
structure Pattern where
  regex : String
  replacement : String
  deriving DecidableEq

/-- `SECRET_PATTERNS`. -/
def secretPatterns : List Pattern :=
  [⟨"\\bsk-[A-Za-z0-9_-]\x7b20,\x7d\\b", "[REDACTED_OPENAI_KEY]"⟩,
    ⟨"\\bAIza[0-9A-Za-z_-]\x7b20,\x7d\\b", "[REDACTED_GEMINI_KEY]"⟩,
    ⟨"\\bgh[pousr]_[A-Za-z0-9_]\x7b20,\x7d\\b", "[REDACTED_GITHUB_TOKEN]"⟩,
    ⟨"(?i)\\bBearer\\s+[A-Za-z0-9_\\-\\.]\x7b20,\x7d\\b", "Bearer [REDACTED_BEARER_TOKEN]"⟩,
    ⟨"(?i)\\b([a-zA-Z0-9_]*(?:password|passwd|secret|api_key|token|private_key))\\s*[:=]\\s*['\\\x22][^'\\\x22]*['\\\x22]",
      "\\1='[REDACTED_SECRET]'"⟩,
    ⟨"(?i)\\b([a-zA-Z0-9_]*(?:password|passwd|secret|api_key|token|private_key))\\s*[:=]\\s*[^\\s,;]\x7b4,\x7d",
      "\\1=[REDACTED_SECRET]"⟩]

/-- `PATH_PATTERNS`. -/
def pathPatterns : List Pattern :=
  [⟨"[A-Za-z]:\\\\[^\\s,;\\\x22']+", "[WORKSPACE]"⟩, ⟨"/(?:home|Users)/[^\\s,;\\\x22']+", "[WORKSPACE]"⟩]

structure SanitizedContextExtractor where
  /-- `pattern.sub(replacement, text)`. -/
  sub : Pattern → PyStr → PyStr
  estimateTokens : PyStr → ℕ

/-- A dictionary from paths to texts, as its items. -/
abbrev FileTexts := List (PyStr × PyStr)

/-- `sep.join(texts)`. -/
def joinTexts (sep : String) (texts : List PyStr) : PyStr := (toPyStr sep).intercalate texts

def truncationNotice : PyStr := toPyStr "# [TRUNCATED: remaining lines omitted for token containment]"

namespace SanitizedContextExtractor

variable (extractor : SanitizedContextExtractor)

def scrubSensitiveData (text : PyStr) : PyStr :=
  let scrubbed := secretPatterns.foldl (fun scrubbed pattern => extractor.sub pattern scrubbed) text
  pathPatterns.foldl (fun scrubbed pattern => extractor.sub pattern scrubbed) scrubbed

/-! ## Bounding -/

/-- The lines that are taken before a text is over its target. -/
def retainLines (target : ℤ) : PyStr → List PyStr → List PyStr
  | _, [] => []
  | curText, line :: lines =>
      let candidate := strip (curText ++ toPyStr "\n" ++ line)
      if target < extractor.estimateTokens candidate then [] else line :: retainLines target candidate lines

/-- The lines that stay when the last ones are taken off until they fit with the notice. -/
def popLines (budget : ℤ) (retained : List PyStr) : List PyStr :=
  if _h : retained ≠ [] ∧ budget < extractor.estimateTokens (joinTexts "\n" (retained ++ [truncationNotice])) then
    popLines budget retained.dropLast
  else retained
termination_by retained.length
decreasing_by
  rw [List.length_dropLast]
  exact Nat.sub_lt (List.length_pos_iff.mpr _h.1) Nat.one_pos

/-- A text over its budget, cut to some of its lines and the notice. -/
def truncate (budget : ℤ) (content : PyStr) : PyStr :=
  let target := max 20 (budget - extractor.estimateTokens truncationNotice)
  let retained := popLines extractor budget (retainLines extractor target [] (splitlines content))
  joinTexts "\n" (retained ++ [truncationNotice])

def boundFile (budget : ℤ) (content : PyStr) : PyStr :=
  if (extractor.estimateTokens content : ℤ) ≤ budget then content else extractor.truncate budget content

/-- The estimated tokens of all texts. -/
def totalTokens (files : FileTexts) : ℕ := (files.map fun file => extractor.estimateTokens file.2).sum

/-- `max(50, max_total_tokens // len(files))`. -/
def perFileBudget (maxTotalTokens : ℤ) (count : ℕ) : ℤ := max 50 (maxTotalTokens / count)

def extractAndBoundFiles (files : FileTexts) (maxTotalTokens : ℤ) : FileTexts :=
  let scrubbed := files.map fun file => (file.1, extractor.scrubSensitiveData file.2)
  if scrubbed = [] then []
  else if (extractor.totalTokens scrubbed : ℤ) ≤ maxTotalTokens then scrubbed
  else scrubbed.map fun file => (file.1, extractor.boundFile (perFileBudget maxTotalTokens scrubbed.length) file.2)

end SanitizedContextExtractor

/-! ## Packets -/

inductive AdvisorMode
  | automatedMcp
  | zeroRiskManual
  | internalFallback
  deriving DecidableEq

def AdvisorMode.value : AdvisorMode → String
  | automatedMcp => "AUTOMATED_MCP"
  | zeroRiskManual => "ZERO_RISK_MANUAL"
  | internalFallback => "INTERNAL_FALLBACK"

inductive AdvisorTaskType
  | architectureDesign
  | codeReview
  | refactoringStrategy
  | generalReasoning
  deriving DecidableEq

def AdvisorTaskType.value : AdvisorTaskType → String
  | architectureDesign => "ARCHITECTURE_DESIGN"
  | codeReview => "CODE_REVIEW"
  | refactoringStrategy => "REFACTORING_STRATEGY"
  | generalReasoning => "GENERAL_REASONING"

structure DelegationPacket where
  packetId : PyStr
  taskId : PyStr
  taskType : AdvisorTaskType
  objective : PyStr
  mode : AdvisorMode
  sanitizedFiles : FileTexts
  constraints : List PyStr
  questionsForAdvisor : List PyStr
  tokenBudget : ℤ
  estimatedTokens : ℕ
  deriving DecidableEq

/-- What `to_mcp_arguments` returns, the files in the order of their dictionary. -/
structure McpArguments where
  packetId : PyStr
  taskId : PyStr
  taskType : String
  objective : PyStr
  constraints : List PyStr
  questions : List PyStr
  files : FileTexts
  tokenBudget : ℤ
  deriving DecidableEq

namespace DelegationPacket

variable (packet : DelegationPacket)

/-- A heading with its items and an empty line, when there are items. -/
def itemLines (heading : String) (items : List PyStr) : List PyStr :=
  if items = [] then [] else toPyStr heading :: items.map (toPyStr "- " ++ ·) ++ [[]]

def fileLines (files : FileTexts) : List PyStr :=
  if files = [] then []
  else
    toPyStr "## 4. Context Source Files (Sanitized)" ::
      files.flatMap fun file =>
        [toPyStr "### File: `" ++ file.1 ++ toPyStr "`", toPyStr "```", file.2, toPyStr "```", []]

def toClipboardMarkdown : PyStr :=
  let mode := packet.mode.value
  joinTexts "\n"
    ([toPyStr ("# LAS External Advisor Consultation Packet [" ++ mode ++ "]"),
      toPyStr "- **Packet ID**: `" ++ packet.packetId ++ toPyStr "`",
      toPyStr "- **Task ID**: `" ++ packet.taskId ++ toPyStr "`",
      toPyStr ("- **Task Type**: `" ++ packet.taskType.value ++ "`"),
      toPyStr ("- **Mode**: `" ++ mode ++ "` (Mode: " ++ mode ++ ")"),
      toPyStr ("- **Estimated Tokens**: `" ++ toString packet.estimatedTokens ++ "` / `" ++
        toString packet.tokenBudget ++ "`"),
      [], toPyStr "## 1. Primary Objective", packet.objective, []] ++
      itemLines "## 2. Constraints & Invariants" packet.constraints ++
      itemLines "## 3. Specific Questions for Advisor" packet.questionsForAdvisor ++
      fileLines packet.sanitizedFiles ++
      [toPyStr "---", toPyStr "### Instructions for Advisor:",
        toPyStr "Please analyze the objective, constraints, and questions. Respond with structured advice containing:",
        toPyStr "1. Architectural recommendations", toPyStr "2. Implementation plan step-by-step",
        toPyStr "3. Code diffs / patch proposals if applicable"])

def toMcpArguments : McpArguments where
  packetId := packet.packetId
  taskId := packet.taskId
  taskType := packet.taskType.value
  objective := packet.objective
  constraints := packet.constraints
  questions := packet.questionsForAdvisor
  files := packet.sanitizedFiles
  tokenBudget := packet.tokenBudget

end DelegationPacket

/-- The arguments of `create_packet`. -/
structure Consultation where
  taskId : PyStr
  taskType : AdvisorTaskType
  objective : PyStr
  files : FileTexts
  constraints : List PyStr
  questions : List PyStr
  mode : AdvisorMode
  maxTokens : ℤ

namespace Consultation

variable (extractor : SanitizedContextExtractor) (call : Consultation)

/-- `total_text`. -/
def totalText : PyStr :=
  extractor.scrubSensitiveData call.objective ++
    joinTexts " " (call.constraints.map extractor.scrubSensitiveData) ++
    joinTexts " " (call.questions.map extractor.scrubSensitiveData) ++
    joinTexts "" ((extractor.extractAndBoundFiles call.files 1500).map Prod.snd)

/-- `create_packet`, with the id of the packet. -/
def createPacket (packetId : PyStr) : DelegationPacket where
  packetId := packetId
  taskId := call.taskId
  taskType := call.taskType
  objective := extractor.scrubSensitiveData call.objective
  mode := call.mode
  sanitizedFiles := extractor.extractAndBoundFiles call.files 1500
  constraints := call.constraints.map extractor.scrubSensitiveData
  questionsForAdvisor := call.questions.map extractor.scrubSensitiveData
  tokenBudget := min call.maxTokens 2000
  estimatedTokens := extractor.estimateTokens (call.totalText extractor)

/-- The call with everything scrubbed, the paths of the files too. -/
def scrubbed : Consultation :=
  { call with
    objective := extractor.scrubSensitiveData call.objective
    files := call.files.map fun file => (extractor.scrubSensitiveData file.1, extractor.scrubSensitiveData file.2)
    constraints := call.constraints.map extractor.scrubSensitiveData
    questions := call.questions.map extractor.scrubSensitiveData }

end Consultation

/-! ## What is sent -/

section Sent

variable {extractor : SanitizedContextExtractor} {files files' : FileTexts} {maxTotalTokens : ℤ}

open SanitizedContextExtractor

lemma extract_paths : (extractor.extractAndBoundFiles files maxTotalTokens).map Prod.fst = files.map Prod.fst := by
  simp only [extractAndBoundFiles]
  split_ifs with hempty
  · rw [List.map_eq_nil_iff.mp hempty]
  · simp
  · simp

lemma createPacket_paths (call : Consultation) (packetId : PyStr) :
    (call.createPacket extractor packetId).toMcpArguments.files.map Prod.fst = call.files.map Prod.fst :=
  extract_paths

/-- The files are read through their paths and their scrubbed texts. -/
lemma extract_congr (hpaths : files.map Prod.fst = files'.map Prod.fst)
    (htexts : files.map (fun file => extractor.scrubSensitiveData file.2) =
      files'.map fun file => extractor.scrubSensitiveData file.2) :
    extractor.extractAndBoundFiles files maxTotalTokens = extractor.extractAndBoundFiles files' maxTotalTokens := by
  have hscrubbed : files.map (fun file => (file.1, extractor.scrubSensitiveData file.2)) =
      files'.map fun file => (file.1, extractor.scrubSensitiveData file.2) := by
    simp only [← List.zip_map', hpaths, htexts]
  unfold extractAndBoundFiles
  rw [hscrubbed]

/-- Calls that are the same once they are scrubbed send the same exactly if the paths of the files are the same before
that. -/
theorem createPacket_same_iff (extractor : SanitizedContextExtractor) (a b : Consultation)
    (hscrubbed : a.scrubbed extractor = b.scrubbed extractor) (packetId : PyStr) :
    ((a.createPacket extractor packetId).toMcpArguments = (b.createPacket extractor packetId).toMcpArguments ∧
        (a.createPacket extractor packetId).toClipboardMarkdown =
          (b.createPacket extractor packetId).toClipboardMarkdown) ↔
      a.files.map Prod.fst = b.files.map Prod.fst := by
  constructor
  · rintro ⟨harguments, -⟩
    rw [← createPacket_paths a packetId, harguments, createPacket_paths]
  · intro hpaths
    simp only [Consultation.scrubbed, Consultation.mk.injEq] at hscrubbed
    obtain ⟨htask, htype, hobjective, hfiles, hconstraints, hquestions, hmode, hmax⟩ := hscrubbed
    have htexts : a.files.map (fun file => extractor.scrubSensitiveData file.2) =
        b.files.map fun file => extractor.scrubSensitiveData file.2 := by
      have := congrArg (List.map Prod.snd) hfiles
      simpa only [List.map_map, Function.comp_def] using this
    have hpacket : a.createPacket extractor packetId = b.createPacket extractor packetId := by
      simp only [Consultation.createPacket, Consultation.totalText, htask, htype, hobjective, hconstraints, hquestions,
        hmode, hmax, extract_congr hpaths htexts]
    rw [hpacket]
    exact ⟨rfl, rfl⟩

/-- Two files at home. -/
def alicePath : PyStr := toPyStr "/home/alice/a.py"

def bobPath : PyStr := toPyStr "/home/bob/a.py"

/-- The path pattern on these paths, and no match in other texts. -/
def homeExtractor : SanitizedContextExtractor where
  sub pattern text :=
    if pattern.regex = "/(?:home|Users)/[^\\s,;\\\x22']+" ∧ (text = alicePath ∨ text = bobPath) then
      toPyStr pattern.replacement
    else text
  estimateTokens text := max 1 (text.length / 4)

def homeCall (path : PyStr) : Consultation where
  taskId := toPyStr "task-1"
  taskType := .codeReview
  objective := toPyStr "review"
  files := [(path, toPyStr "pass")]
  constraints := []
  questions := []
  mode := .automatedMcp
  maxTokens := 2000

lemma homeCall_scrubbed : (homeCall alicePath).scrubbed homeExtractor = (homeCall bobPath).scrubbed homeExtractor := by
  have hpath : homeExtractor.scrubSensitiveData alicePath = homeExtractor.scrubSensitiveData bobPath := by decide
  simp [Consultation.scrubbed, homeCall, hpath]

theorem createPacket_same_sample :
    (((homeCall alicePath).createPacket homeExtractor []).toMcpArguments =
          ((homeCall bobPath).createPacket homeExtractor []).toMcpArguments ∧
        ((homeCall alicePath).createPacket homeExtractor []).toClipboardMarkdown =
          ((homeCall bobPath).createPacket homeExtractor []).toClipboardMarkdown) ↔
      (homeCall alicePath).files.map Prod.fst = (homeCall bobPath).files.map Prod.fst :=
  createPacket_same_iff homeExtractor (homeCall alicePath) (homeCall bobPath) homeCall_scrubbed []

/-- The name of the user is in what is sent. -/
theorem createPacket_sends_path :
    ¬ ∀ a b : Consultation, a.scrubbed homeExtractor = b.scrubbed homeExtractor → ∀ packetId,
      (a.createPacket homeExtractor packetId).toMcpArguments = (b.createPacket homeExtractor packetId).toMcpArguments ∧
        (a.createPacket homeExtractor packetId).toClipboardMarkdown =
          (b.createPacket homeExtractor packetId).toClipboardMarkdown := by
  intro hclaim
  have hpaths : (homeCall alicePath).files.map Prod.fst = (homeCall bobPath).files.map Prod.fst := by
    rw [← createPacket_paths (homeCall alicePath) [], (hclaim _ _ homeCall_scrubbed []).1, createPacket_paths]
  exact absurd hpaths (by decide)

end Sent

end AgentSystem.Advisor
