import AgentSystem.RawToolArguments

/-!
# Compaction of the task queue

`compact_task_queue`: the file is cut at its headings, the phases whose tasks are all done become lines of the
archive, and the parts are put together again.
-/
namespace AgentSystem.TaskQueue

open Executor
open Json (CodePoint PyStr codePoint toPyStr)
open ProtocolRepair (cut cut_eq_some splitlines)

/-! ## Marks -/

def completedHeading : PyStr := toPyStr "## 🛠️ COMPLETED PHASES"

def summaryHeading : PyStr := toPyStr "## 📈 Queue Summary & Progress"

def phaseMark : PyStr := toPyStr "## 🏢 PHASE"

def rule : PyStr := toPyStr "---"

/-- `text.split(mark)[0]`. -/
def before (mark text : PyStr) : PyStr := ((cut mark text).map Prod.fst).getD text

/-- What follows a mark at the start. -/
def afterMark (mark text : PyStr) : Option PyStr :=
  if startsWith text mark then some (text.drop mark.length) else none

/-! ## Patterns -/

/-- What `.` matches. -/
def inLine (c : CodePoint) : Bool := c ≠ codePoint '\n'

/-- `\s+(.*)` at the start: the rest of a line, and what follows. -/
def lineAfterSpaces (text : PyStr) : Option (PyStr × PyStr) :=
  if text.head?.any isSpace then
    some ((text.dropWhile isSpace).takeWhile inLine, (text.dropWhile isSpace).dropWhile inLine)
  else none

/-- `\s*-\s*\[...\]\s+(.*)` with one of these characters in the box. -/
def taskAt (marks : PyStr) (text : PyStr) : Option (PyStr × PyStr) :=
  (afterMark (toPyStr "-") (text.dropWhile isSpace)).bind fun item =>
    (afterMark (toPyStr "[") (item.dropWhile isSpace)).bind fun box =>
      match box with
      | [] => none
      | c :: rest => if c ∈ marks then (afterMark (toPyStr "]") rest).bind lineAfterSpaces else none

/-- `###\s+(.*)`. -/
def subHeaderAt (text : PyStr) : Option (PyStr × PyStr) := (afterMark (toPyStr "###") text).bind lineAfterSpaces

/-- The groups of the matches of a pattern at the starts of lines, at most so many characters on. -/
def matchesFrom (pattern : PyStr → Option (PyStr × PyStr)) : ℕ → Bool → PyStr → List PyStr
  | 0, _, _ => []
  | n + 1, lineStart, text =>
      match if lineStart then pattern text else none with
      | some (group, rest) => group :: matchesFrom pattern n false rest
      | none =>
          match text with
          | [] => []
          | c :: rest => matchesFrom pattern n (!inLine c) rest

/-- `re.findall` in several lines. -/
def findall (pattern : PyStr → Option (PyStr × PyStr)) (text : PyStr) : List PyStr :=
  matchesFrom pattern (text.length + 1) true text

def doneTasks (text : PyStr) : List PyStr := findall (taskAt (toPyStr "x")) text

def allTasks (text : PyStr) : List PyStr := findall (taskAt (toPyStr " x~!")) text

/-- The letters of `PHASE` in any case. -/
def phaseLetters : List PyStr := ["pP", "hH", "aA", "sSſ", "eE"].map toPyStr

section Phases

-- `\d`
variable (isDecimal : CodePoint → Bool)

/-- `## 🏢 PHASE (\d+) — (...+)` at the start, with the characters that the title may have, and what follows. -/
def phaseParts (inTitle : CodePoint → Bool) (text : PyStr) : Option (PyStr × PyStr × PyStr) :=
  (afterMark (phaseMark ++ toPyStr " ") text).bind fun rest =>
    (afterMark (toPyStr " — ") (rest.dropWhile isDecimal)).bind fun line =>
      if rest.takeWhile isDecimal = [] ∨ line.takeWhile inTitle = [] then none
      else some (rest.takeWhile isDecimal, line.takeWhile inTitle, line.dropWhile inTitle)

/-- `re.split` at the headers: the text before the first one, and every header with its body. -/
def splitPhases : ℕ → PyStr → PyStr × List (PyStr × PyStr)
  | 0, text => (text, [])
  | n + 1, text =>
      match phaseParts isDecimal inLine text with
      | some (number, title, rest) =>
          let (body, phases) := splitPhases n rest
          ([], (phaseMark ++ toPyStr " " ++ number ++ toPyStr " — " ++ title, body) :: phases)
      | none =>
          match text with
          | [] => ([], [])
          | c :: rest =>
              let (lead, phases) := splitPhases n rest
              (c :: lead, phases)

/-- The number and the title of a header, up to a slash. -/
def headerMatch (header : PyStr) : Option (PyStr × PyStr) :=
  header.tails.findSome? fun text =>
    (phaseParts isDecimal (fun c => inLine c && c ≠ codePoint '/') text).map fun parts => (parts.1, parts.2.1)

/-- `task_summary`. -/
def taskSummary (body : PyStr) : PyStr :=
  let subHeaders := findall subHeaderAt body
  if subHeaders ≠ [] then (toPyStr ", ").intercalate (subHeaders.map strip)
  else
    (toPyStr ", ").intercalate (((doneTasks body).take 3).map strip) ++
      if (doneTasks body).length > 3 then toPyStr "..." else []

/-- The line of the archive for a phase whose tasks are all done. -/
def archiveLine (phase : PyStr × PyStr) : Option PyStr :=
  (headerMatch isDecimal phase.1).bind fun (number, title) =>
    if 0 < (allTasks phase.2).length ∧ (allTasks phase.2).length = (doneTasks phase.2).length then
      some (toPyStr "- [x] **PHASE " ++ number ++ toPyStr " — " ++ strip title ++ toPyStr "**: " ++
        taskSummary phase.2 ++ toPyStr ".")
    else none

/-- `\*\*PHASE\s+(\d+)` in any case, anywhere in a line. -/
def phaseId (line : PyStr) : Option PyStr :=
  line.tails.findSome? fun text =>
    (afterMark (toPyStr "**") text).bind fun rest =>
      if rest.length ≥ 5 ∧ (List.zipWith (fun c letters => decide (c ∈ letters)) rest phaseLetters).all id ∧
          (rest.drop 5).head?.any isSpace ∧ ((rest.drop 5).dropWhile isSpace).takeWhile isDecimal ≠ [] then
        some (((rest.drop 5).dropWhile isSpace).takeWhile isDecimal)
      else none

/-- The first line of every phase. -/
def dedupe (seen : List PyStr) : List PyStr → List PyStr
  | [] => []
  | line :: lines =>
      match phaseId isDecimal line with
      | some id => if id ∈ seen then dedupe seen lines else line :: dedupe (id :: seen) lines
      | none => line :: dedupe seen lines

/-! ## Compaction -/

/-- The block that is written after the heading. -/
def newArchiveBlock (lines : List PyStr) : PyStr :=
  toPyStr "\n\n## 🛠️ COMPLETED PHASES (Phases 0 - 17 Summarized Archive)\n\n" ++
    lines.flatMap (· ++ toPyStr "\n") ++ toPyStr "\n"

/-- The lines of an archive. -/
def archiveLines (block : PyStr) : List PyStr :=
  ((splitlines block).map strip).filter fun line => startsWith line (toPyStr "- [x]")

/-- The summary at the end, with its heading. -/
def summaryPart (archiveAndActive : PyStr) : PyStr :=
  match cut summaryHeading archiveAndActive with
  | some (_, summary) => summaryHeading ++ before summaryHeading summary
  | none => []

/-- The phases that stay. -/
def keptPhases (phases : List (PyStr × PyStr)) : List (PyStr × PyStr) :=
  phases.filter fun phase => (archiveLine isDecimal phase).isNone

/-- `compact_task_queue`: the new text of the file, `none` when it returns `False`. -/
def compactTaskQueue (threshold : ℤ) (content : PyStr) : Option PyStr := do
  let (preamble, rest) ← cut completedHeading content
  let archiveAndActive := before completedHeading rest
  let activeContent := before summaryHeading archiveAndActive
  let (_, active) ← cut phaseMark activeContent
  if (doneTasks (phaseMark ++ active)).length ≤ threshold then none
  else
    let (lead, phases) := splitPhases isDecimal (activeContent.length + 1) activeContent
    let archived := phases.filterMap (archiveLine isDecimal)
    if archived = [] then none
    else
      let lines := dedupe isDecimal [] (archiveLines (before rule archiveAndActive) ++ archived)
      some (preamble ++ completedHeading ++ newArchiveBlock lines ++ rule ++ lead ++
        ((keptPhases isDecimal phases).flatMap fun phase => phase.1 ++ phase.2) ++
          summaryPart archiveAndActive)

end Phases

/-! ## Later runs -/

lemma startsWith_iff {text mark : PyStr} : startsWith text mark = true ↔ mark <+: text := List.isPrefixOf_iff_prefix

/-- A mark is found where it was, whatever follows it. -/
lemma cut_replace {mark text before after : PyStr} (hmark : mark ≠ []) (h : cut mark text = some (before, after))
    (rest : PyStr) : cut mark (before ++ mark ++ rest) = some (before, rest) := by
  induction text generalizing before with
  | nil => cases h
  | cons c text ih =>
    rw [cut] at h
    split_ifs at h with hstart
    · cases h
      obtain ⟨first, tail, rfl⟩ := List.exists_cons_of_ne_nil hmark
      rw [List.nil_append, List.cons_append, cut, ← List.cons_append,
        if_pos (startsWith_iff.mpr (List.prefix_append _ rest)), List.drop_left]
    · obtain ⟨⟨before', after'⟩, hcut, heq⟩ := Option.map_eq_some_iff.mp h
      cases heq
      have hno : ¬ startsWith (c :: (before' ++ mark ++ rest)) mark = true := by
        rw [startsWith_iff]
        intro hprefix
        apply hstart
        rw [startsWith_iff, cut_eq_some hcut]
        have hlong : mark.length ≤ (c :: (before' ++ mark)).length := by
          simp only [List.length_cons, List.length_append]
          omega
        have hshort : mark <+: c :: (before' ++ mark) :=
          List.prefix_of_prefix_length_le hprefix (List.prefix_append (c :: (before' ++ mark)) rest) hlong
        exact hshort.trans (List.prefix_append (c :: (before' ++ mark)) after')
      change cut mark (c :: (before' ++ mark ++ rest)) = some (c :: before', rest)
      rw [cut, if_neg hno, ih hcut]
      rfl

/-- The text up to the heading that a compaction writes, where this one stands before the old heading. -/
def newHeading (preamble : PyStr) : PyStr := preamble ++ completedHeading ++ toPyStr "\n\n" ++ completedHeading

section Runs

variable {isDecimal : CodePoint → Bool}

/-- Between the two headings there is no phase. -/
lemma compactTaskQueue_newHeading {content preamble rest : PyStr}
    (h : cut completedHeading content = some (preamble, rest)) (following : PyStr) (threshold : ℤ) :
    compactTaskQueue isDecimal threshold (newHeading preamble ++ following) = none := by
  have hfirst : cut completedHeading (newHeading preamble ++ following) =
      some (preamble, toPyStr "\n\n" ++ completedHeading ++ following) := by
    rw [newHeading, List.append_assoc, List.append_assoc, ← List.append_assoc (toPyStr "\n\n")]
    exact cut_replace (by decide) h _
  have hsecond : cut completedHeading (toPyStr "\n\n" ++ completedHeading ++ following) =
      some (toPyStr "\n\n", following) :=
    cut_replace (by decide) (show cut completedHeading (toPyStr "\n\n" ++ completedHeading) =
      some (toPyStr "\n\n", []) by decide) following
  have hbetween : before completedHeading (toPyStr "\n\n" ++ completedHeading ++ following) = toPyStr "\n\n" := by
    rw [before, hsecond]
    rfl
  have hphases : cut phaseMark (before summaryHeading (toPyStr "\n\n")) = none := by decide
  rw [compactTaskQueue, hfirst]
  simp only [Option.bind_eq_bind, Option.bind_some, hbetween, hphases, Option.bind_none]

/-- The parts of the text that a compaction writes. -/
lemma compactTaskQueue_parts {threshold : ℤ} {content new : PyStr}
    (h : compactTaskQueue isDecimal threshold content = some new) :
    ∃ preamble archiveAndActive lines lead phases,
      cut completedHeading content = some (preamble, archiveAndActive) ∧
      splitPhases isDecimal
        ((before summaryHeading (before completedHeading archiveAndActive)).length + 1)
        (before summaryHeading (before completedHeading archiveAndActive)) = (lead, phases) ∧
      new = preamble ++ completedHeading ++ newArchiveBlock lines ++ rule ++ lead ++
        ((keptPhases isDecimal phases).flatMap fun phase => phase.1 ++ phase.2) ++
          summaryPart (before completedHeading archiveAndActive) := by
  rw [compactTaskQueue] at h
  obtain ⟨⟨preamble, rest⟩, hcut, h⟩ := Option.bind_eq_some_iff.mp h
  obtain ⟨⟨before_, active⟩, -, h⟩ := Option.bind_eq_some_iff.mp h
  dsimp only at h
  split_ifs at h
  cases h
  exact ⟨preamble, rest, _, _, _, hcut, rfl, rfl⟩

lemma newArchiveBlock_heading (lines : List PyStr) :
    newArchiveBlock lines = toPyStr "\n\n" ++ completedHeading ++
      (toPyStr " (Phases 0 - 17 Summarized Archive)\n\n" ++ (lines.flatMap (· ++ toPyStr "\n") ++ toPyStr "\n")) := by
  have htext : toPyStr "\n\n## 🛠️ COMPLETED PHASES (Phases 0 - 17 Summarized Archive)\n\n" =
      toPyStr "\n\n" ++ completedHeading ++ toPyStr " (Phases 0 - 17 Summarized Archive)\n\n" := by
    decide +kernel
  rw [newArchiveBlock, htext, List.append_assoc, List.append_assoc]

section Kept

variable {threshold : ℤ} {content new preamble rest lead : PyStr} {phases : List (PyStr × PyStr)}

/-- A phase with an open task stays as it is. -/
lemma open_phase_kept (h : compactTaskQueue isDecimal threshold content = some new)
    (hcut : cut completedHeading content = some (preamble, rest))
    (hsplit : splitPhases isDecimal ((before summaryHeading (before completedHeading rest)).length + 1)
      (before summaryHeading (before completedHeading rest)) = (lead, phases))
    {phase : PyStr × PyStr} (hphase : phase ∈ phases) (hopen : archiveLine isDecimal phase = none) :
    phase.1 ++ phase.2 <:+: new := by
  obtain ⟨preamble', rest', lines, lead', phases', hcut', hsplit', rfl⟩ := compactTaskQueue_parts h
  cases hcut.symm.trans hcut'
  cases hsplit.symm.trans hsplit'
  have hkept : phase ∈ keptPhases isDecimal phases := List.mem_filter.mpr ⟨hphase, by rw [hopen]; rfl⟩
  have hinner : phase.1 ++ phase.2 <:+: (keptPhases isDecimal phases).flatMap fun phase => phase.1 ++ phase.2 := by
    obtain ⟨front, back, heq⟩ := List.append_of_mem hkept
    rw [heq, List.flatMap_append, List.flatMap_cons, ← List.append_assoc]
    exact List.infix_append _ _ _
  exact hinner.trans (List.infix_append _ _ _)

/-- What stood before the first phase, the old archive with it, stands again after the new archive. -/
lemma lead_repeated (h : compactTaskQueue isDecimal threshold content = some new)
    (hcut : cut completedHeading content = some (preamble, rest))
    (hsplit : splitPhases isDecimal ((before summaryHeading (before completedHeading rest)).length + 1)
      (before summaryHeading (before completedHeading rest)) = (lead, phases)) :
    ∃ lines following, new = preamble ++ completedHeading ++ newArchiveBlock lines ++ rule ++ (lead ++ following) := by
  obtain ⟨preamble', rest', lines, lead', phases', hcut', hsplit', rfl⟩ := compactTaskQueue_parts h
  cases hcut.symm.trans hcut'
  cases hsplit.symm.trans hsplit'
  refine ⟨lines, ((keptPhases isDecimal phases).flatMap fun phase => phase.1 ++ phase.2) ++
    summaryPart (before completedHeading rest), ?_⟩
  simp only [List.append_assoc]

end Kept

/-- After a compaction no later run does anything, whatever phases the file is extended with: the block that is
written begins with a second heading, and a run looks for phases before it. -/
theorem later_runs_refuse {threshold : ℤ} {content new : PyStr}
    (h : compactTaskQueue isDecimal threshold content = some new) :
    ∃ preamble rest, new = newHeading preamble ++ rest ∧ ∀ following later,
      compactTaskQueue isDecimal later (newHeading preamble ++ following) = none := by
  obtain ⟨preamble, archiveAndActive, lines, lead, phases, hcut, -, rfl⟩ := compactTaskQueue_parts h
  have hheading : ∃ rest, preamble ++ completedHeading ++ newArchiveBlock lines ++ rule ++ lead ++
      ((keptPhases isDecimal phases).flatMap fun phase => phase.1 ++ phase.2) ++
        summaryPart (before completedHeading archiveAndActive) = newHeading preamble ++ rest := by
    rw [newArchiveBlock_heading, newHeading]
    simp only [List.append_assoc]
    exact ⟨_, rfl⟩
  obtain ⟨rest, heq⟩ := hheading
  exact ⟨preamble, rest, heq, fun following later => compactTaskQueue_newHeading hcut following later⟩

end Runs

/-! ## Files -/

def asciiDecimal (c : CodePoint) : Bool := 48 ≤ c.val && c.val ≤ 57

/-- One phase that is done, after an archive with a line. -/
def queue : PyStr := toPyStr "## 🛠️ COMPLETED PHASES\n- [x] **PHASE 0 — A**: a.\n---\n## 🏢 PHASE 1 — B\n- [x] b\n"

def compacted : PyStr :=
  toPyStr "## 🛠️ COMPLETED PHASES\n\n## 🛠️ COMPLETED PHASES (Phases 0 - 17 Summarized Archive)\n\n" ++
    toPyStr "- [x] **PHASE 0 — A**: a.\n- [x] **PHASE 1 — B**: b.\n\n---\n- [x] **PHASE 0 — A**: a.\n---\n"

def nextPhase : PyStr := toPyStr "## 🏢 PHASE 2 — C\n- [x] c\n"

lemma queue_compacted : compactTaskQueue asciiDecimal 0 queue = some compacted := by decide +kernel

/-- A queue that is never compacted again. -/
theorem queue_frozen : ∃ preamble rest, compacted = newHeading preamble ++ rest ∧ ∀ following later,
    compactTaskQueue asciiDecimal later (newHeading preamble ++ following) = none :=
  later_runs_refuse queue_compacted

/-- The line of the first phase stands twice in the file, and a second phase that is done stays. -/
theorem next_phase_ignored : compactTaskQueue asciiDecimal 0 queue = some compacted ∧
    compactTaskQueue asciiDecimal 0 (compacted ++ nextPhase) = none ∧
      (compactTaskQueue asciiDecimal 0 (queue ++ nextPhase)).isSome = true :=
  ⟨queue_compacted, by decide +kernel, by decide +kernel⟩

end AgentSystem.TaskQueue
