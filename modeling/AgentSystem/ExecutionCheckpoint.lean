import AgentSystem.JoinedFields
import AgentSystem.JsonNumber
import AgentSystem.PipelineModels

/-!
# Execution checkpoints

`ExecutionCheckpoint` and `CheckpointRecoveryManager`. The checksum is the hash of five fields that are joined by
colons: it tells their parts, and nothing of the worktree and the history.
-/
namespace AgentSystem.CheckpointRecovery

open JoinedFields Json Pipeline

variable {V F : Type}

/-- `ExecutionCheckpoint`, with the values of its history. -/
structure ExecutionCheckpoint (V : Type) where
  checkpointId : String
  taskId : String
  stage : PipelineStage
  worktreePath : String
  headCommit : String
  attemptTurn : ℤ
  stageHistory : List V
  savedAt : String
  checksum : String := ""

namespace ExecutionCheckpoint

/-- The texts before the last colon of the checked text. -/
def checkedFields (checkpoint : ExecutionCheckpoint V) : List (List Char) :=
  [checkpoint.checkpointId.toList, checkpoint.taskId.toList, checkpoint.stage.value.toList,
    checkpoint.headCommit.toList]

/-- The checked fields and the turn, `none` when the turn has no text. -/
def checked (checkpoint : ExecutionCheckpoint V) : Option (List (List Char)) :=
  (intText checkpoint.attemptTurn).map fun turn => checkpoint.checkedFields ++ [turn]

/-- `compute_checksum`. -/
def computeChecksum (sha256 : String → String) (checkpoint : ExecutionCheckpoint V) : Option String :=
  checkpoint.checked.map fun fields => sha256 (String.ofList (join ':' fields))

end ExecutionCheckpoint

/-- How checkpoints are written to files and read from them. -/
structure Files (V F : Type) where
  modelDumpJson : ExecutionCheckpoint V → F
  modelValidate : F → Option (ExecutionCheckpoint V)

inductive LoadError
  | fileNotFound
  | invalid
  | checksum
  | corrupt (checkpointId expected found : String)
  deriving DecidableEq

variable (sha256 : String → String) (files : Files V F)

/-- `save_checkpoint`: the checkpoint with its checksum, the name of the file and the file. -/
def saveCheckpoint (checkpoint : ExecutionCheckpoint V) : Option (ExecutionCheckpoint V × String × F) :=
  (checkpoint.computeChecksum sha256).map fun checksum =>
    let checkpoint := { checkpoint with checksum }
    (checkpoint, checkpoint.checkpointId ++ ".json", files.modelDumpJson checkpoint)

/-- `load_checkpoint` of what stands under the path. -/
def loadCheckpoint (file : Option F) : Except LoadError (ExecutionCheckpoint V) :=
  match file with
  | none => .error .fileNotFound
  | some content =>
      match files.modelValidate content with
      | none => .error .invalid
      | some checkpoint =>
          match checkpoint.computeChecksum sha256 with
          | none => .error .checksum
          | some expected =>
              if checkpoint.checksum ≠ expected then
                .error (.corrupt checkpoint.checkpointId expected checkpoint.checksum)
              else .ok checkpoint

/-- Equal in the fields that the recovery uses. -/
structure SameRecovery (a b : ExecutionCheckpoint V) : Prop where
  checkpointId : a.checkpointId = b.checkpointId
  taskId : a.taskId = b.taskId
  stage : a.stage = b.stage
  worktreePath : a.worktreePath = b.worktreePath
  headCommit : a.headCommit = b.headCommit
  attemptTurn : a.attemptTurn = b.attemptTurn
  stageHistory : a.stageHistory = b.stageHistory

/-- The parts of the checked fields between colons. -/
def checkedParts (checkpoint : ExecutionCheckpoint V) : Option (List (List Char)) := checkpoint.checked.map (parts ':')

/-- The unchecked fields are the same, and the ids and the commit have as many colons. -/
structure Unshifted (a b : ExecutionCheckpoint V) : Prop where
  worktreePath : a.worktreePath = b.worktreePath
  stageHistory : a.stageHistory = b.stageHistory
  colons : a.checkedFields.map (List.count ':') = b.checkedFields.map (List.count ':')

variable {sha256 files} {checkpoint modified : ExecutionCheckpoint V}

lemma loadCheckpoint_unchecked {file : F} (hparse : files.modelValidate file = some modified)
    (hchecked : modified.checked = none) : loadCheckpoint sha256 files (some file) = .error .checksum := by
  unfold loadCheckpoint
  simp only [hparse, ExecutionCheckpoint.computeChecksum, hchecked, Option.map_none]

lemma loadCheckpoint_checked {file : F} {texts : List (List Char)} (hparse : files.modelValidate file = some modified)
    (hchecked : modified.checked = some texts) :
    loadCheckpoint sha256 files (some file) =
      if modified.checksum ≠ sha256 (String.ofList (join ':' texts)) then
        .error (.corrupt modified.checkpointId (sha256 (String.ofList (join ':' texts))) modified.checksum)
      else .ok modified := by
  unfold loadCheckpoint
  simp only [hparse, ExecutionCheckpoint.computeChecksum, hchecked, Option.map_some]

lemma value_injective : Function.Injective PipelineStage.value := by
  intro a b h
  cases a <;> cases b <;> first | rfl | exact absurd h (by decide)

lemma intText_inj {m n : ℤ} {text : List Char} (hm : intText m = some text) (hn : intText n = some text) : m = n := by
  unfold intText at hm hn
  split_ifs at hm hn with hmdigits hndigits
  have htexts : (intLiteral m).text ++ [] = (intLiteral n).text ++ [] := by
    rw [Option.some.inj hm, Option.some.inj hn]
  have hliterals : intLiteral m = intLiteral n := by
    have hscan := scanLiteral_text (intLiteral_wellFormed m) (show Stops [] by simp [Stops])
    rw [htexts, scanLiteral_text (intLiteral_wellFormed n) (by simp [Stops])] at hscan
    exact (congrArg Prod.fst (Option.some.inj hscan)).symm
  exact Option.some.inj ((readInt_intLiteral hmdigits).symm.trans (hliterals ▸ readInt_intLiteral hndigits))

lemma checked_eq_some {texts : List (List Char)} : checkpoint.checked = some texts ↔
    ∃ turn, intText checkpoint.attemptTurn = some turn ∧ checkpoint.checkedFields ++ [turn] = texts :=
  Option.map_eq_some_iff

/-- Where the checked texts are the same, the checkpoints agree unless something unchecked or a colon has moved. -/
lemma sameRecovery_iff {texts texts' : List (List Char)} (hm : modified.checked = some texts)
    (hc : checkpoint.checked = some texts') (hjoin : join ':' texts = join ':' texts') :
    SameRecovery modified checkpoint ↔ Unshifted modified checkpoint := by
  obtain ⟨turn, hturn, rfl⟩ := checked_eq_some.mp hm
  obtain ⟨turn', hturn', rfl⟩ := checked_eq_some.mp hc
  constructor
  · intro h
    refine ⟨h.worktreePath, h.stageHistory, ?_⟩
    rw [ExecutionCheckpoint.checkedFields, ExecutionCheckpoint.checkedFields, h.checkpointId, h.taskId, h.stage,
      h.headCommit]
  · intro h
    obtain ⟨hfields, rfl⟩ := join_inj hjoin h.colons
    simp only [ExecutionCheckpoint.checkedFields, List.cons.injEq, String.toList_inj, and_true] at hfields
    exact
      { checkpointId := hfields.1
        taskId := hfields.2.1
        stage := value_injective hfields.2.2.1
        worktreePath := h.worktreePath
        headCommit := hfields.2.2.2
        attemptTurn := intText_inj hturn hturn'
        stageHistory := h.stageHistory }

lemma checkedParts_eq_iff {texts texts' : List (List Char)} (hm : modified.checked = some texts)
    (hc : checkpoint.checked = some texts') :
    checkedParts modified = checkedParts checkpoint ↔ join ':' texts = join ':' texts' := by
  have hne : ∀ {c : ExecutionCheckpoint V} {texts : List (List Char)}, c.checked = some texts → texts ≠ [] := by
    intro c texts h
    obtain ⟨turn, -, rfl⟩ := checked_eq_some.mp h
    simp
  rw [checkedParts, checkedParts, hm, hc, Option.map_some, Option.map_some, Option.some.injEq,
    join_eq_iff (hne hm) (hne hc)]

lemma saveCheckpoint_eq_some {saved : ExecutionCheckpoint V} {name : String} {written : F}
    (h : saveCheckpoint sha256 files checkpoint = some (saved, name, written)) :
    ∃ texts, saved.checked = some texts ∧ saved.checksum = sha256 (String.ofList (join ':' texts)) := by
  obtain ⟨checksum, hchecksum, heq⟩ := Option.map_eq_some_iff.mp h
  obtain ⟨texts, htexts, rfl⟩ := Option.map_eq_some_iff.mp hchecksum
  obtain ⟨rfl, -⟩ := Prod.mk.inj heq
  exact ⟨texts, htexts, rfl⟩

/-- A modified file that keeps its checksum is refused, or read as the checkpoint, exactly if the modification
changes the parts of the checked fields, or keeps the rest and moves no colon. -/
theorem loadCheckpoint_detects_iff (sha256 : String → String) (hinjective : Function.Injective sha256)
    (files : Files V F) (checkpoint saved modified : ExecutionCheckpoint V) (name : String) (written file : F)
    (hsaved : saveCheckpoint sha256 files checkpoint = some (saved, name, written))
    (hparse : files.modelValidate file = some modified) (hchecksum : modified.checksum = saved.checksum) :
    ((∃ error, loadCheckpoint sha256 files (some file) = .error error) ∨
        ∃ loaded, loadCheckpoint sha256 files (some file) = .ok loaded ∧ SameRecovery loaded saved) ↔
      checkedParts modified ≠ checkedParts saved ∨ Unshifted modified saved := by
  obtain ⟨texts, htexts, hsum⟩ := saveCheckpoint_eq_some hsaved
  cases hmodified : modified.checked with
  | none =>
    refine iff_of_true (.inl ⟨_, loadCheckpoint_unchecked hparse hmodified⟩) (.inl ?_)
    rw [checkedParts, checkedParts, hmodified, htexts]
    simp
  | some others =>
    rw [loadCheckpoint_checked hparse hmodified, hchecksum, hsum,
      (checkedParts_eq_iff hmodified htexts).ne]
    by_cases hjoin : join ':' others = join ':' texts
    · rw [← sameRecovery_iff hmodified htexts hjoin]
      simp [hjoin]
    · have hdiffers : sha256 (String.ofList (join ':' texts)) ≠ sha256 (String.ofList (join ':' others)) := fun heq =>
        hjoin (String.ofList_injective (hinjective heq)).symm
      rw [if_pos hdiffers]
      exact iff_of_true (.inl ⟨_, rfl⟩) (.inl hjoin)

/-- Two texts as values of a history, and checkpoints that stand in their files as they are. -/
def sampleFiles : Files String (ExecutionCheckpoint String) := ⟨id, some⟩

def sampleCheckpoint : ExecutionCheckpoint String :=
  ⟨"cp-1", "task-1", .isolatedMutation, "/srv/worktree", "abc", 2, ["INTAKE"], "2026-01-01T00:00:00+00:00",
    "cp-1:task-1:ISOLATED_MUTATION:abc:2"⟩

/-- Another worktree under the same checksum. -/
def redirectedCheckpoint : ExecutionCheckpoint String := { sampleCheckpoint with worktreePath := "/srv/other" }

/-- The sample is what is saved of it by a hash that keeps its input. -/
lemma saveCheckpoint_sample : saveCheckpoint id sampleFiles sampleCheckpoint =
    some (sampleCheckpoint, "cp-1.json", sampleCheckpoint) := rfl

theorem loadCheckpoint_detects_sample :
    ((∃ error, loadCheckpoint id sampleFiles (some sampleCheckpoint) = .error error) ∨
        ∃ loaded, loadCheckpoint id sampleFiles (some sampleCheckpoint) = .ok loaded ∧
          SameRecovery loaded sampleCheckpoint) ↔
      checkedParts sampleCheckpoint ≠ checkedParts sampleCheckpoint ∨ Unshifted sampleCheckpoint sampleCheckpoint :=
  loadCheckpoint_detects_iff id Function.injective_id sampleFiles sampleCheckpoint sampleCheckpoint sampleCheckpoint
    "cp-1.json" sampleCheckpoint sampleCheckpoint saveCheckpoint_sample rfl rfl

/-- The redirected checkpoint is loaded. -/
theorem loadCheckpoint_misses :
    ¬ ∀ file modified : ExecutionCheckpoint String, sampleFiles.modelValidate file = some modified →
      modified.checksum = sampleCheckpoint.checksum →
        (∃ error, loadCheckpoint id sampleFiles (some file) = .error error) ∨
          ∃ loaded, loadCheckpoint id sampleFiles (some file) = .ok loaded ∧ SameRecovery loaded sampleCheckpoint := by
  intro hclaim
  have hload : loadCheckpoint id sampleFiles (some redirectedCheckpoint) = .ok redirectedCheckpoint := rfl
  rcases hclaim redirectedCheckpoint redirectedCheckpoint rfl rfl with ⟨error, herror⟩ | ⟨loaded, hloaded, hsame⟩
  · rw [hload] at herror
    cases herror
  · rw [hload] at hloaded
    cases hloaded
    exact absurd hsame.worktreePath (by decide)

end AgentSystem.CheckpointRecovery
