import AgentSystem.PySequence

/-!
# Committee log entries and the replicated state machine

`CommitteeLogEntry` and `CommitteeStateMachine.apply_entry`. An entry's signature and timestamp
are stamped on it by its author and read by no handler; they are not part of the model.
-/
namespace AgentSystem.Raft

abbrev NodeId := String

/-- The values an entry's payload can hold. -/
inductive Json where
  | null
  | bool (b : Bool)
  | num (q : ℚ)
  | str (s : String)
  | arr (items : List Json)
  | obj (members : List (String × Json))

abbrev Payload := List (String × Json)

/-- The values Python can hash; `True` and `1` are one dictionary key. -/
inductive Key where
  | null
  | num (q : ℚ)
  | str (s : String)
  deriving DecidableEq, Repr

def Json.key : Json → Option Key
  | .null => some .null
  | .bool b => some (.num (if b then 1 else 0))
  | .num q => some (.num q)
  | .str s => some (.str s)
  | .arr _ => none
  | .obj _ => none

inductive PyError where
  | indexError
  | typeError
  deriving DecidableEq, Repr

inductive RaftRole where
  | follower
  | candidate
  | leader
  deriving DecidableEq, Repr

inductive CommitteeEntryType where
  | proposeTask
  | speechTurn
  | critiqueScore
  | consensusVerdict
  | patchCommit
  | configuration
  | vectorCheckpoint
  deriving DecidableEq, Repr

structure CommitteeLogEntry where
  index : ℤ
  term : ℤ
  entryType : CommitteeEntryType
  authorNodeId : NodeId
  payload : Payload

/-- Slot 0 of every log. -/
def genesis : CommitteeLogEntry :=
  ⟨0, 0, .configuration, "genesis", [("desc", .str "genesis_slot")]⟩

structure CommitteeStateMachine where
  lastAppliedIndex : ℤ := 0
  debates : List (Key × List Payload) := []
  verdicts : List (Key × Payload) := []
  committedPatches : List (Key × Json) := []
  taskStatuses : List (Key × String) := []
  vectorCheckpoints : List Payload := []
  /-- The value whose `str` is the latest root. -/
  latestVectorMerkleRoot : Json := .str ""

namespace CommitteeStateMachine

def turns (m : CommitteeStateMachine) (task : Key) : List Payload :=
  (m.debates.lookup task).getD []

/-- `decision == "CONSENSUS_APPROVED"`. -/
def approves : Json → Bool
  | .str s => s = "CONSENSUS_APPROVED"
  | _ => false

/-- The dictionary updates of one entry for a hashable task id. -/
def applyTask (m : CommitteeStateMachine) (e : CommitteeLogEntry) (task : Key) :
    CommitteeStateMachine :=
  match e.entryType with
  | .proposeTask =>
      { m with
        taskStatuses := PySequence.setItem m.taskStatuses task "PROPOSED"
        debates := PySequence.setItem m.debates task (m.turns task) }
  | .speechTurn =>
      { m with debates := PySequence.setItem m.debates task (m.turns task ++ [e.payload]) }
  | .consensusVerdict =>
      { m with
        verdicts := PySequence.setItem m.verdicts task e.payload
        taskStatuses := PySequence.setItem m.taskStatuses task
          (if approves ((e.payload.lookup "decision").getD (.str "CONSENSUS_APPROVED"))
            then "APPROVED" else "REJECTED") }
  | .patchCommit =>
      { m with
        committedPatches := PySequence.setItem m.committedPatches task
          ((e.payload.lookup "merkle_root").getD (.str ""))
        taskStatuses := PySequence.setItem m.taskStatuses task "PATCH_COMMITTED" }
  | _ => m

/-- `apply_entry`. A task id that cannot be hashed raises once a dictionary is asked for it. -/
def applyEntry (m : CommitteeStateMachine) (e : CommitteeLogEntry) :
    CommitteeStateMachine × Option PyError :=
  let m := { m with lastAppliedIndex := e.index }
  match e.entryType with
  | .critiqueScore => (m, none)
  | .configuration => (m, none)
  | .vectorCheckpoint =>
      ({ m with
        vectorCheckpoints := m.vectorCheckpoints ++ [e.payload]
        latestVectorMerkleRoot :=
          (e.payload.lookup "merkle_root").getD m.latestVectorMerkleRoot }, none)
  | _ =>
      match ((e.payload.lookup "task_id").getD (.str "default-task")).key with
      | none => (m, some .typeError)
      | some task => (m.applyTask e task, none)

end CommitteeStateMachine

end AgentSystem.Raft
