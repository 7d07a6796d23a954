import AgentSystem.KahnOrder

/-!
# Waves of refactoring tasks

`RefactoringTaskDAG` with its check for cycles and the waves of tasks that may run together.
-/
namespace AgentSystem.Factory

open KahnOrder

/-- What the scheduling reads of a node. -/
structure RefactoringTaskNode where
  nodeId : String
  mutableScope : List String
  dependencies : List String
  estimatedEffort : ℤ
  priority : ℤ

/-- A node under its key. -/
abbrev NodeEntry := String × RefactoringTaskNode

/-- The dictionary `nodes` in its order. -/
structure RefactoringTaskDag where
  nodes : List NodeEntry
  nodup : (nodes.map Prod.fst).Nodup

/-- `f.replace("\\", "/").lower()` for each file, with the lower case of a text. -/
def normalisedScope (lower : String → String) (node : RefactoringTaskNode) : List String :=
  node.mutableScope.map fun file =>
    lower (String.ofList (file.toList.map fun c => if c = '\\' then '/' else c))

namespace RefactoringTaskDag

variable (dag : RefactoringTaskDag)

def ids : List String := dag.nodes.map Prod.fst

/-- The edges that `validate_acyclic` counts, in its order. -/
def edges : List (String × String) :=
  dag.nodes.flatMap fun entry =>
    (entry.2.dependencies.filter (· ∈ dag.ids)).map fun dep => (dep, entry.1)

def cycleDetected : String :=
  "Cycle detected in RefactoringTaskDAG! Tasks must form an acyclic graph."

/-- `validate_acyclic`, `none` when the fuel runs out. -/
def validateAcyclic (fuel : ℕ) : Option (Except String Unit) := do
  let graph := links dag.edges
  let queue := dag.ids.filter fun id => graph.inDegree id = 0
  let visitedCount ← visit graph.adjacent fuel graph.inDegree queue 0
  pure (if visitedCount ≠ dag.nodes.length then .error cycleDetected else .ok ())

/-! ## Waves -/

/-- A wave while it is filled, with what is left. -/
structure Wave where
  current : List RefactoringTaskNode := []
  occupied : List String := []
  remaining : List NodeEntry
  completed : List String

variable (lower : String → String)

/-- A candidate joins the wave unless its scope is occupied. -/
def schedule (wave : Wave) (entry : NodeEntry) : Wave :=
  if ∃ file ∈ normalisedScope lower entry.2, file ∈ wave.occupied then wave
  else
    { current := wave.current ++ [entry.2]
      occupied := wave.occupied ++ normalisedScope lower entry.2
      remaining := wave.remaining.filter fun other => other.1 ≠ entry.1
      completed := wave.completed ++ [entry.1] }

/-- The order of the sort: priority first, then effort. -/
def goesBefore (a b : NodeEntry) : Bool :=
  b.2.priority < a.2.priority ||
    a.2.priority = b.2.priority && a.2.estimatedEffort ≤ b.2.estimatedEffort

/-- The nodes whose dependencies are completed. -/
def candidates (remaining : List NodeEntry) (completed : List String) : List NodeEntry :=
  remaining.filter fun entry => entry.2.dependencies.all (· ∈ completed)

/-- The safeguard for a wave that stayed empty. -/
def orFirst (first : NodeEntry) (wave : Wave) : Wave :=
  if wave.current = [] then
    { wave with
      current := [first.2]
      remaining := wave.remaining.filter fun other => other.1 ≠ first.1
      completed := wave.completed ++ [first.1] }
  else wave

def deadlock : String := "Deadlock or cycle encountered while calculating parallel waves"

/-- `while remaining_nodes`, `none` when the fuel runs out. -/
def waveLoop : ℕ → List NodeEntry → List String → List (List RefactoringTaskNode) →
    Option (Except String (List (List RefactoringTaskNode)))
  | _, [], _, waves => some (.ok waves)
  | 0, _ :: _, _, _ => none
  | fuel + 1, remaining, completed, waves =>
      match (candidates remaining completed).mergeSort goesBefore with
      | [] => some (.error deadlock)
      | first :: rest =>
          let wave := orFirst first ((first :: rest).foldl (schedule lower)
            { remaining := remaining, completed := completed })
          waveLoop fuel wave.remaining wave.completed (waves ++ [wave.current])

/-- `get_parallel_waves`. -/
def getParallelWaves (fuel : ℕ) : Option (Except String (List (List RefactoringTaskNode))) := do
  match ← dag.validateAcyclic fuel with
  | .error error => pure (.error error)
  | .ok () => waveLoop lower fuel dag.nodes [] []

end RefactoringTaskDag

end AgentSystem.Factory
