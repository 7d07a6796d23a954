import AgentSystem.PySequence
import AgentSystem.Sha256

/-!
# The federated vector memory

Entries under their ids, the Merkle root over their hashes and the merge of the entries of a peer. The
hash of an entry covers neither its embedding nor its timestamp.
-/
namespace AgentSystem.VectorMemory

open Sha256

inductive VectorCategory
  | decision
  | lesson
  | pattern
  | error
  | codeSnippet
  deriving DecidableEq

def VectorCategory.value : VectorCategory → String
  | decision => "DECISION"
  | lesson => "LESSON"
  | pattern => "PATTERN"
  | error => "ERROR"
  | codeSnippet => "CODE_SNIPPET"

/-- An entry, with metadata in `μ` and floats in `τ`. -/
structure VectorMemoryEntry (μ τ : Type) where
  entryId : String
  taskId : String
  category : VectorCategory
  content : String
  metadata : μ
  embedding : List τ
  contentHash : String := ""
  authorNodeId : String := "node-local"
  timestamp : τ
  deriving DecidableEq

variable {μ τ : Type}

namespace VectorMemoryEntry

/-- `compute_hash`, with `json.dumps` of the metadata. -/
def computeHash (dumps : μ → String) (entry : VectorMemoryEntry μ τ) : String :=
  hexdigest (entry.entryId ++ ":" ++ entry.taskId ++ ":" ++ entry.category.value ++ ":" ++
    entry.authorNodeId ++ ":" ++ entry.content ++ ":" ++ dumps entry.metadata)

def ensureHash (dumps : μ → String) (entry : VectorMemoryEntry μ τ) : VectorMemoryEntry μ τ :=
  if entry.contentHash = "" then { entry with contentHash := entry.computeHash dumps } else entry

def verifyIntegrity (dumps : μ → String) (entry : VectorMemoryEntry μ τ) : Bool :=
  entry.contentHash ≠ "" && entry.contentHash = entry.computeHash dumps

variable {dumps : μ → String} {entry : VectorMemoryEntry μ τ}

@[simp] lemma ensureHash_entryId : (entry.ensureHash dumps).entryId = entry.entryId := by
  rw [ensureHash]
  split_ifs <;> rfl

lemma ensureHash_of_verify (h : entry.verifyIntegrity dumps = true) :
    entry.ensureHash dumps = entry := by
  rw [verifyIntegrity, Bool.and_eq_true, decide_eq_true_eq] at h
  rw [ensureHash, if_neg h.1]

end VectorMemoryEntry

/-! ## The root -/

/-- The hashes of pairs, an unpaired last one with itself. -/
def nextLevel : List String → List String
  | [] => []
  | [x] => [hexdigest (x ++ ":" ++ x)]
  | x :: y :: xs => hexdigest (x ++ ":" ++ y) :: nextLevel xs

lemma nextLevel_length (xs : List String) : (nextLevel xs).length = (xs.length + 1) / 2 := by
  induction xs using nextLevel.induct with
  | case1 => rfl
  | case2 x => simp [nextLevel]
  | case3 x y xs ih =>
      rw [nextLevel, List.length_cons, ih, List.length_cons, List.length_cons]
      omega

/-- The last level over these hashes, at most so many levels up. -/
def lastLevel : ℕ → List String → List String
  | 0, level => level
  | n + 1, level => if 1 < level.length then lastLevel n (nextLevel level) else level

/-- The root over these entries. -/
def merkleRoot (entries : List (String × VectorMemoryEntry μ τ)) : String :=
  if entries = [] then hexdigest "empty_vector_memory"
  else
    let leaves := (entries.map fun item => item.2.contentHash).mergeSort
    (lastLevel leaves.length leaves).headD ""

/-! ## The memory -/

structure FederatedVectorMemory (μ τ : Type) where
  entries : List (String × VectorMemoryEntry μ τ) := []
  cachedMerkleRoot : Option String := none
  isDirty : Bool := true

namespace FederatedVectorMemory

variable (memory : FederatedVectorMemory μ τ)

def computeMerkleRoot : FederatedVectorMemory μ τ × String :=
  match memory.isDirty, memory.cachedMerkleRoot with
  | false, some root => (memory, root)
  | _, _ =>
      let root := merkleRoot memory.entries
      ({ memory with cachedMerkleRoot := some root, isDirty := false }, root)

/-- `store` of an entry with these fields. -/
def store (dumps : μ → String) (fields : VectorMemoryEntry μ τ) : FederatedVectorMemory μ τ :=
  let entry := { fields with contentHash := "" }.ensureHash dumps
  { memory with
    entries := PySequence.setItem memory.entries entry.entryId entry
    isDirty := true }

/-- `export_entries`. -/
def exportEntries : List (VectorMemoryEntry μ τ) := memory.entries.map Prod.snd

/-- `_entries[entry.entry_id] = entry`. -/
def put (entry : VectorMemoryEntry μ τ) : FederatedVectorMemory μ τ :=
  { memory with
    entries := PySequence.setItem memory.entries entry.entryId entry
    isDirty := true }

variable [LT τ] [DecidableLT τ]

/-- The turn of an entry in the loop of `merge_entries`, and whether it was added. -/
def mergeEntry (dumps : μ → String) (raw : VectorMemoryEntry μ τ) :
    FederatedVectorMemory μ τ × Bool :=
  let entry := raw.ensureHash dumps
  if entry.verifyIntegrity dumps then
    match PySequence.getItem memory.entries entry.entryId with
    | none => (memory.put entry, true)
    | some current =>
        if current.contentHash ≠ entry.contentHash ∧ current.timestamp < entry.timestamp then
          (memory.put entry, true)
        else (memory, false)
  else (memory, false)

/-- The loop of `merge_entries`. -/
def mergeLoop (dumps : μ → String) :
    FederatedVectorMemory μ τ → List (VectorMemoryEntry μ τ) → FederatedVectorMemory μ τ × ℕ
  | memory, [] => (memory, 0)
  | memory, raw :: entries =>
      let (memory, added) := memory.mergeEntry dumps raw
      let (memory, count) := mergeLoop dumps memory entries
      (memory, count + if added then 1 else 0)

/-- `merge_entries`: the number of added entries and the new root. -/
def mergeEntries (dumps : μ → String) (entries : List (VectorMemoryEntry μ τ)) :
    FederatedVectorMemory μ τ × ℕ × String :=
  let (memory, count) := memory.mergeLoop dumps entries
  let (memory, root) := memory.computeMerkleRoot
  (memory, count, root)

end FederatedVectorMemory

end AgentSystem.VectorMemory
