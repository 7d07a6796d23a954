import AgentSystem.VectorConvergence

/-!
# The cached root

Every operation of a memory, also one that raises in the middle of a merge, leaves a cached root that is not
marked dirty only where it is the root over the entries. The root depends on how often a hash occurs.
-/
namespace AgentSystem.VectorMemory

open Sha256
open PySequence (sliceTo)

variable {μ τ : Type}

structure VectorSearchResult (μ τ : Type) where
  entry : VectorMemoryEntry μ τ
  similarity : τ
  rank : ℕ

/-- What `search` is asked for, with the embedding of the query. -/
structure Query (τ : Type) where
  vector : List τ
  topK : ℤ := 5
  category : Option VectorCategory := none
  minSimilarity : τ

namespace FederatedVectorMemory

section Operations

variable (memory : FederatedVectorMemory μ τ)

/-- `search`, with `cosine_similarity` and `round`. -/
def search [LT τ] [DecidableLT τ] [LE τ] [DecidableLE τ] [DecidableEq τ] (similarity : List τ → List τ → τ)
    (round : τ → τ) (query : Query τ) : List (VectorSearchResult μ τ) :=
  let ofCategory := memory.exportEntries.filter fun entry => query.category.all fun c => entry.category = c
  let candidates := (ofCategory.map fun entry => (similarity query.vector entry.embedding, entry)).filter
    fun candidate => query.minSimilarity ≤ candidate.1
  let ranked := candidates.mergeSort fun x y =>
    y.1 < x.1 ∨ (y.1 = x.1 ∧ y.2.entryId ≤ x.2.entryId)
  ((sliceTo ranked query.topK).zipIdx 1).map fun item =>
    { entry := item.1.2, similarity := round item.1.1, rank := item.2 }

variable [LT τ] [DecidableLT τ]

/-- The loop of `merge_entries` over what a peer sent, `none` where it is no entry or has no hash; the number of
added entries is missing when it raises. -/
def mergeRawLoop (dumps : μ → String) :
    FederatedVectorMemory μ τ → List (Option (VectorMemoryEntry μ τ)) → FederatedVectorMemory μ τ × Option ℕ
  | memory, [] => (memory, some 0)
  | memory, none :: _ => (memory, none)
  | memory, some raw :: raws =>
      let (memory, added) := memory.mergeEntry dumps raw
      let (memory, count) := mergeRawLoop dumps memory raws
      (memory, count.map fun count => count + if added then 1 else 0)

/-- `merge_entries`, that may raise. -/
def mergeRaws (dumps : μ → String) (raws : List (Option (VectorMemoryEntry μ τ))) :
    FederatedVectorMemory μ τ × Option (ℕ × String) :=
  match memory.mergeRawLoop dumps raws with
  | (memory, none) => (memory, none)
  | (memory, some count) =>
      let (memory, root) := memory.computeMerkleRoot
      (memory, some (count, root))

end Operations

/-- Calls; `store` with fields for which it raises is given none. -/
inductive Call (μ τ : Type)
  | store (fields : Option (VectorMemoryEntry μ τ))
  | mergeEntries (raws : List (Option (VectorMemoryEntry μ τ)))
  | search (query : Query τ)
  | computeMerkleRoot

inductive Answer (μ τ : Type)
  | raised
  | stored
  | merged (count : ℕ) (root : String)
  | found (results : List (VectorSearchResult μ τ))
  | root (root : String)

section Runs

variable [LT τ] [DecidableLT τ] [LE τ] [DecidableLE τ] [DecidableEq τ] (dumps : μ → String)
  (similarity : List τ → List τ → τ) (round : τ → τ)

def perform (memory : FederatedVectorMemory μ τ) : Call μ τ → FederatedVectorMemory μ τ × Answer μ τ
  | .store none => (memory, .raised)
  | .store (some fields) => (memory.store dumps fields, .stored)
  | .mergeEntries raws =>
      match memory.mergeRaws dumps raws with
      | (memory, none) => (memory, .raised)
      | (memory, some (count, root)) => (memory, .merged count root)
  | .search query => (memory, .found (memory.search similarity round query))
  | .computeMerkleRoot =>
      let (memory, root) := memory.computeMerkleRoot
      (memory, .root root)

/-- The memory after these calls. -/
def performAll (memory : FederatedVectorMemory μ τ) (calls : List (Call μ τ)) : FederatedVectorMemory μ τ :=
  calls.foldl (fun memory call => (memory.perform dumps similarity round call).1) memory

end Runs

/-- The hashes of the entries. -/
def hashes (memory : FederatedVectorMemory μ τ) : List String :=
  memory.entries.map fun item => item.2.contentHash

/-! ## Coherence -/

/-- A root that is not marked dirty is the root over the entries. -/
def Coherent (memory : FederatedVectorMemory μ τ) : Prop :=
  memory.isDirty = false → ∀ root, memory.cachedMerkleRoot = some root → root = merkleRoot memory.entries

variable {memory : FederatedVectorMemory μ τ} {dumps : μ → String}

lemma coherent_of_dirty (h : memory.isDirty = true) : Coherent memory := by
  intro hclean
  rw [h] at hclean
  cases hclean

lemma Coherent.root (h : Coherent memory) : memory.computeMerkleRoot.2 = merkleRoot memory.entries := by
  unfold FederatedVectorMemory.computeMerkleRoot
  split
  next root hclean hcached => exact h hclean root hcached
  · rfl

lemma Coherent.computeMerkleRoot (h : Coherent memory) : Coherent memory.computeMerkleRoot.1 := by
  unfold FederatedVectorMemory.computeMerkleRoot
  split
  · exact h
  · intro _ root hroot
    exact (Option.some.inj hroot).symm

section Steps

variable [LT τ] [DecidableLT τ]

/-- An entry is put, and the root marked dirty, or nothing changes. -/
lemma mergeEntry_cases (memory : FederatedVectorMemory μ τ) (dumps : μ → String)
    (raw : VectorMemoryEntry μ τ) :
    (memory.mergeEntry dumps raw).1 = memory.put (raw.ensureHash dumps) ∨
      (memory.mergeEntry dumps raw).1 = memory := by
  unfold mergeEntry
  dsimp only
  split_ifs
  · split
    · exact .inl rfl
    · split_ifs
      · exact .inl rfl
      · exact .inr rfl
  · exact .inr rfl

lemma Coherent.mergeEntry (h : Coherent memory) (raw : VectorMemoryEntry μ τ) :
    Coherent (memory.mergeEntry dumps raw).1 := by
  rcases mergeEntry_cases memory dumps raw with hput | hsame
  · rw [hput]
    exact coherent_of_dirty rfl
  · rw [hsame]
    exact h

/-- The entries before one that raises are merged coherently. -/
lemma Coherent.mergeRawLoop (h : Coherent memory) (raws : List (Option (VectorMemoryEntry μ τ))) :
    Coherent (memory.mergeRawLoop dumps raws).1 := by
  induction raws generalizing memory with
  | nil => exact h
  | cons raw raws ih =>
    cases raw with
    | none => exact h
    | some raw => exact ih (h.mergeEntry raw)

lemma Coherent.mergeRaws (h : Coherent memory) (raws : List (Option (VectorMemoryEntry μ τ))) :
    Coherent (memory.mergeRaws dumps raws).1 := by
  have hloop : Coherent (memory.mergeRawLoop dumps raws).1 := h.mergeRawLoop raws
  unfold FederatedVectorMemory.mergeRaws
  split
  next heq =>
    rw [heq] at hloop
    exact hloop
  next heq =>
    rw [heq] at hloop
    exact hloop.computeMerkleRoot

end Steps

section Runs

variable [LT τ] [DecidableLT τ] [LE τ] [DecidableLE τ] [DecidableEq τ]
  {similarity : List τ → List τ → τ} {round : τ → τ}

lemma Coherent.perform (h : Coherent memory) (call : Call μ τ) :
    Coherent (memory.perform dumps similarity round call).1 := by
  cases call with
  | store fields =>
    cases fields with
    | none => exact h
    | some fields => exact coherent_of_dirty rfl
  | mergeEntries raws =>
    have hmerge : Coherent (memory.mergeRaws dumps raws).1 := h.mergeRaws raws
    unfold FederatedVectorMemory.perform
    dsimp only
    split
    next heq => simpa only [heq] using hmerge
    next heq => simpa only [heq] using hmerge
  | search query => exact h
  | computeMerkleRoot => exact h.computeMerkleRoot

lemma Coherent.performAll (h : Coherent memory) (calls : List (Call μ τ)) :
    Coherent (memory.performAll dumps similarity round calls) := by
  induction calls generalizing memory with
  | nil => exact h
  | cons call calls ih => exact ih (h.perform call)

/-- After any calls the root is the one over the entries, and any calls after which the entries have the same
hashes, each as often, have the same root. -/
theorem root_of_performAll (dumps : μ → String) (similarity : List τ → List τ → τ) (round : τ → τ)
    (calls : List (Call μ τ)) :
    (performAll dumps similarity round {} calls).computeMerkleRoot.2 =
        merkleRoot (performAll dumps similarity round {} calls).entries ∧
      ∀ others : List (Call μ τ),
        (hashes (performAll dumps similarity round {} calls)).Perm
            (hashes (performAll dumps similarity round {} others)) →
          (performAll dumps similarity round {} calls).computeMerkleRoot.2 =
            (performAll dumps similarity round {} others).computeMerkleRoot.2 := by
  have hroot : ∀ calls : List (Call μ τ),
      (performAll dumps similarity round {} calls).computeMerkleRoot.2 =
        merkleRoot (performAll dumps similarity round {} calls).entries :=
    fun calls => ((coherent_of_dirty rfl).performAll calls).root
  refine ⟨hroot calls, fun others hperm => ?_⟩
  rw [hroot calls, hroot others]
  exact merkleRoot_of_hashes_perm hperm

end Runs

/-! ## Calls -/

def lesson (entryId taskId : String) : VectorMemoryEntry String ℤ where
  entryId
  taskId
  category := .lesson
  content := "x"
  metadata := "\x7b\x7d"
  embedding := []
  timestamp := 100

/-- The memory after these entries are stored. -/
def storeAll (entries : List (VectorMemoryEntry String ℤ)) : FederatedVectorMemory String ℤ :=
  performAll id (fun _ _ => 0) id {} (entries.map fun fields => .store (some fields))

/-- The root over one hash that occurs so often. -/
lemma merkleRoot_of_replicate {entries : List (String × VectorMemoryEntry μ τ)} {n : ℕ} {hash : String}
    (h : (entries.map fun item => item.2.contentHash) = List.replicate (n + 1) hash) :
    merkleRoot entries = (lastLevel (n + 1) (List.replicate (n + 1) hash)).headD "" := by
  have hsort : (entries.map fun item => item.2.contentHash).mergeSort = List.replicate (n + 1) hash :=
    List.perm_replicate.mp (h ▸ List.mergeSort_perm _ _)
  have hne : entries ≠ [] := by
    rintro rfl
    cases h
  rw [merkleRoot, if_neg hne, hsort]
  dsimp only
  rw [List.length_replicate]

/-- Two entries in either order. -/
theorem two_orders_same_root : (storeAll [lesson "a" "t", lesson "b" "t"]).computeMerkleRoot.2 =
    (storeAll [lesson "b" "t", lesson "a" "t"]).computeMerkleRoot.2 :=
  (root_of_performAll id (fun _ _ => 0) id
    ([lesson "a" "t", lesson "b" "t"].map fun fields => .store (some fields))).2
      ([lesson "b" "t", lesson "a" "t"].map fun fields => .store (some fields)) (List.Perm.swap _ _ [])

/-- An id with a colon and a task with one have the same hash, and the root is another one if both are there. -/
theorem repeated_hash_other_root :
    (∀ hash, hash ∈ hashes (storeAll [lesson "a:b" "c"]) ↔
      hash ∈ hashes (storeAll [lesson "a:b" "c", lesson "a" "b:c"])) ∧
    (storeAll [lesson "a:b" "c"]).computeMerkleRoot.2 ≠
      (storeAll [lesson "a:b" "c", lesson "a" "b:c"]).computeMerkleRoot.2 := by
  have hfirst : hashes (storeAll [lesson "a:b" "c"]) =
      [hexdigest "a:b:c:LESSON:node-local:x:\x7b\x7d"] := rfl
  have hboth : hashes (storeAll [lesson "a:b" "c", lesson "a" "b:c"]) =
      [hexdigest "a:b:c:LESSON:node-local:x:\x7b\x7d", hexdigest "a:b:c:LESSON:node-local:x:\x7b\x7d"] := rfl
  constructor
  · rw [hfirst, hboth]
    simp
  · rw [show (storeAll [lesson "a:b" "c"]).computeMerkleRoot.2 =
        hexdigest "a:b:c:LESSON:node-local:x:\x7b\x7d" from merkleRoot_of_replicate (n := 0) hfirst,
      show (storeAll [lesson "a:b" "c", lesson "a" "b:c"]).computeMerkleRoot.2 =
        hexdigest (hexdigest "a:b:c:LESSON:node-local:x:\x7b\x7d" ++ ":" ++
          hexdigest "a:b:c:LESSON:node-local:x:\x7b\x7d") from merkleRoot_of_replicate (n := 1) hboth]
    decide +kernel

end FederatedVectorMemory

end AgentSystem.VectorMemory
