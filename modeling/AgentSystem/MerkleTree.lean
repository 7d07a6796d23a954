import AgentSystem.HashTree
import AgentSystem.Sha256

/-!
# The Merkle tree of the ledgers

`MerkleTree` over hexadecimal SHA-256 digests, and what is asked of the digest of the strings at
hand: SHA-256 is a fixed function, so that no assumption about all strings would be true of it.
-/
namespace AgentSystem.Audit

open Sha256

/-- The hash before the first row of a chain, and the root of an empty tree. -/
@[irreducible] def zeroHash : String := String.ofList (List.replicate 64 '0')

/-- `MerkleTree._build_tree`. -/
def buildTree (leaves : List String) : String :=
  if leaves = [] then zeroHash else HashTree.root hexdigest leaves

/-- No two of these strings have the same digest, and none has the digest of an empty tree. -/
structure Resistant (strings : List String) : Prop where
  injOn : Set.InjOn hexdigest {s | s ∈ strings}
  ne_zero : ∀ s ∈ strings, hexdigest s ≠ zeroHash

/-- The strings that are hashed for the tree over these leaves. -/
def treeInputs (leaves : List String) : List String := HashTree.treeInputs hexdigest leaves

lemma zeroHash_length : zeroHash.length = 64 := by
  unfold zeroHash
  exact String.length_ofList.trans List.length_replicate

lemma Resistant.mono {strings more : List String} (h : Resistant more)
    (hsub : ∀ s ∈ strings, s ∈ more) : Resistant strings :=
  ⟨h.injOn.mono hsub, fun s hs => h.ne_zero s (hsub s hs)⟩

lemma resistant_of_nodup {strings : List String} (h : (zeroHash :: strings.map hexdigest).Nodup) :
    Resistant strings := by
  rw [List.nodup_cons] at h
  refine ⟨fun s hs t ht heq => List.inj_on_of_nodup_map h.2 hs ht heq, fun s hs heq => h.1 ?_⟩
  rw [← heq]
  exact List.mem_map_of_mem hs

/-- A tree with leaves has another root than the empty one. -/
lemma buildTree_ne_zero {leaves : List String} (hne : leaves ≠ [])
    (h : Resistant (treeInputs leaves)) : buildTree leaves ≠ zeroHash := by
  rw [buildTree, if_neg hne]
  obtain ⟨input, hinput, heq⟩ := List.mem_map.mp (@HashTree.root_mem hexdigest _ hne)
  rw [← heq]
  exact h.ne_zero input hinput

/-- Lists of different digests with one root are equal. -/
theorem buildTree_injective {leaves leaves' : List String} (hlength : ∀ s ∈ leaves, s.length = 64)
    (hlength' : ∀ s ∈ leaves', s.length = 64) (hnodup : leaves.Nodup) (hnodup' : leaves'.Nodup)
    (h : Resistant (treeInputs leaves ++ treeInputs leaves'))
    (hroot : buildTree leaves = buildTree leaves') : leaves = leaves' := by
  have hleft := h.mono fun s hs => List.mem_append_left (treeInputs leaves') hs
  have hright := h.mono fun s hs => List.mem_append_right (treeInputs leaves) hs
  have hempty : buildTree [] = zeroHash := rfl
  by_cases hne : leaves = []
  · subst hne
    by_contra hne'
    exact buildTree_ne_zero (Ne.symm hne') hright (hroot ▸ hempty)
  by_cases hne' : leaves' = []
  · subst hne'
    exact absurd (hroot.trans hempty) (buildTree_ne_zero hne hleft)
  rw [buildTree, buildTree, if_neg hne, if_neg hne'] at hroot
  exact HashTree.leaves_eq_of_root_eq hexdigest_length (by decide) hlength hlength' hne hne'
    hnodup hnodup' h.injOn hroot

end AgentSystem.Audit
