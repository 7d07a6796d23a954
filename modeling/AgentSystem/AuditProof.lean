import AgentSystem.AuditLedger

/-!
# Inclusion proofs

`generate_merkle_proof`, which builds the levels of the tree on its own, and `verify_merkle_proof`.
The proof of a stored event is accepted; an accepted one is about a stored event, unless its event
hash is the concatenation of the two hashes below an inner node.
-/
namespace AgentSystem.Audit

open Json Sha256

/-- One dictionary of a proof; a missing key is `none`. -/
structure ProofItem where
  hash : Option String
  position : Option String
  deriving DecidableEq

structure MerkleProof where
  proof : List ProofItem
  rootHash : String
  eventHash : String
  deriving DecidableEq

/-- The loop over `levels[:-1]`. -/
def proofItems : List (List String) → ℕ → List ProofItem
  | [], _ => []
  | level :: levels, idx =>
      (if idx % 2 = 0 then
        let sibling :=
          if idx + 1 < level.length then level.getD (idx + 1) "" else level.getD idx ""
        { hash := some sibling, position := some "right" }
      else { hash := some (level.getD (idx - 1) ""), position := some "left" }) ::
        proofItems levels (idx / 2)

def Ledger.generateMerkleProof (l : Ledger) (eventId : ℤ) : Option MerkleProof :=
  if l.rows = [] then none
  else
    match (l.rows.map Row.id).idxOf? eventId with
    | none => none
    | some targetIdx =>
        let levels := HashTree.levels hexdigest l.hashes.length (l.hashes.map hexdigest)
        some
          { proof := proofItems levels.dropLast targetIdx
            rootHash := (levels.getLast?.getD []).headD zeroHash
            eventHash := l.hashes.getD targetIdx "" }

/-- The loop of the verifier, `none` when it gives up. -/
def climbProof (current : String) : List ProofItem → Option String
  | [] => some current
  | item :: proof =>
      match item.hash, item.position with
      | some sibling, some position =>
          if sibling = "" ∨ position = "" then none
          else
            let combined := if position = "left" then sibling ++ current else current ++ sibling
            climbProof (hexdigest combined) proof
      | _, _ => none

def verifyMerkleProof (eventHash : String) (proof : List ProofItem) (rootHash : String) : Bool :=
  if eventHash = "" ∨ rootHash = "" then false
  else climbProof (hexdigest eventHash) proof == some rootHash

/-! ## Items as steps of a path -/

/-- The step that an item stands for, unless the verifier gives up at it. -/
def ProofItem.step (item : ProofItem) : Option HashTree.Step :=
  match item.hash, item.position with
  | some sibling, some position =>
      if sibling = "" ∨ position = "" then none
      else some ⟨sibling, if position = "left" then .left else .right⟩
  | _, _ => none

/-- The item for a step. -/
def stepItem (s : HashTree.Step) : ProofItem :=
  ⟨some s.sibling, some (match s.side with | .left => "left" | .right => "right")⟩

lemma step_stepItem {s : HashTree.Step} (h : s.sibling ≠ "") : (stepItem s).step = some s := by
  obtain ⟨sibling, side⟩ := s
  cases side <;> simp [stepItem, ProofItem.step, show sibling ≠ "" from h]

lemma climbProof_cons (current : String) (item : ProofItem) (proof : List ProofItem) :
    climbProof current (item :: proof) =
      item.step.bind fun s => climbProof (hexdigest (s.combine current)) proof := by
  obtain ⟨hash, position⟩ := item
  cases hash with
  | none => rfl
  | some sibling =>
      cases position with
      | none => rfl
      | some position =>
          rw [climbProof, ProofItem.step]
          by_cases hempty : sibling = "" ∨ position = ""
          · simp only [if_pos hempty, Option.bind_none]
          · simp only [if_neg hempty, Option.bind_some]
            by_cases hleft : position = "left"
            · simp only [if_pos hleft, HashTree.Step.combine]
            · simp only [if_neg hleft, HashTree.Step.combine]

/-- The verifier climbs along the steps of the items, if all of them have one. -/
lemma climbProof_eq_some {current result : String} {proof : List ProofItem} :
    climbProof current proof = some result ↔ ∃ steps : List HashTree.Step,
      proof.map ProofItem.step = steps.map some ∧ HashTree.climb hexdigest current steps = result := by
  induction proof generalizing current with
  | nil =>
      constructor
      · intro h
        cases h
        exact ⟨[], rfl, rfl⟩
      · rintro ⟨steps, hsteps, rfl⟩
        rw [List.map_eq_nil_iff.mp hsteps.symm]
        rfl
  | cons item proof ih =>
      cases hstep : item.step with
      | none =>
          rw [climbProof_cons, hstep]
          refine iff_of_false (by simp) ?_
          rintro ⟨steps, hsteps, -⟩
          cases steps with
          | nil => cases hsteps
          | cons s steps =>
              rw [List.map_cons, List.map_cons, hstep] at hsteps
              cases hsteps
      | some s =>
          rw [climbProof_cons, hstep, Option.bind_some, ih]
          constructor
          · rintro ⟨steps, hsteps, hclimb⟩
            exact ⟨s :: steps, by rw [List.map_cons, hstep, hsteps, List.map_cons], hclimb⟩
          · rintro ⟨steps, hsteps, hclimb⟩
            cases steps with
            | nil => cases hsteps
            | cons s' steps =>
                rw [List.map_cons, List.map_cons, hstep, List.cons.injEq, Option.some.injEq] at hsteps
                obtain ⟨rfl, hrest⟩ := hsteps
                exact ⟨steps, hrest, hclimb⟩

lemma verifyMerkleProof_iff {eventHash rootHash : String} {proof : List ProofItem} :
    verifyMerkleProof eventHash proof rootHash = true ↔ eventHash ≠ "" ∧ rootHash ≠ "" ∧
      ∃ steps : List HashTree.Step, proof.map ProofItem.step = steps.map some ∧
        HashTree.climb hexdigest (hexdigest eventHash) steps = rootHash := by
  rw [← climbProof_eq_some, verifyMerkleProof]
  split_ifs with hempty
  · refine iff_of_false (by simp) ?_
    rintro ⟨hevent, hroot, -⟩
    exact hempty.elim hevent hroot
  · rw [not_or] at hempty
    simp [hempty]

/-! ## Proofs of stored events -/

/-- The items that the generator collects are the steps of the path. -/
lemma proofItems_step {levels : List (List String)} {i : ℕ}
    (hne : ∀ s ∈ HashTree.path levels i, s.sibling ≠ "") :
    (proofItems levels i).map ProofItem.step = (HashTree.path levels i).map some := by
  induction levels generalizing i with
  | nil => rfl
  | cons level levels ih =>
      rw [HashTree.path, List.forall_mem_cons] at hne
      have hitem : ∀ item : ProofItem, item = stepItem (HashTree.siblingStep level i) →
          item.step = some (HashTree.siblingStep level i) := by
        rintro item rfl
        exact step_stepItem hne.1
      rw [proofItems, HashTree.path, List.map_cons, List.map_cons, ih hne.2, hitem]
      unfold HashTree.siblingStep
      split_ifs with hpar hnext
      · rw [List.getD_eq_getElem _ _ hnext]
        simp [stepItem, hnext]
      · rw [List.getD_eq_default _ _ (not_lt.mp hnext)]
        rfl
      · rfl

/-- The siblings of a path are hashes. -/
lemma path_sibling {n : ℕ} {xs : List String} (hxs : ∀ x ∈ xs, x ≠ "") {i : ℕ} (hi : i < xs.length) :
    ∀ s ∈ HashTree.path (HashTree.levels hexdigest n xs).dropLast i, s.sibling ≠ "" := by
  induction n generalizing xs i with
  | zero => simp [HashTree.levels, HashTree.path]
  | succ n ih =>
      rw [HashTree.levels]
      split_ifs with hlen
      · simp [HashTree.path]
      · rw [List.dropLast_cons_of_ne_nil (HashTree.levels_ne_nil n _), HashTree.path,
          List.forall_mem_cons]
        refine ⟨hxs _ (HashTree.siblingStep_mem hi), ih (fun x hx => ?_) ?_⟩
        · obtain ⟨input, -, rfl⟩ := List.mem_map.mp hx
          exact hexdigest_ne_empty input
        · rw [HashTree.nextLevel_length]
          omega

lemma buildTree_ne_empty (leaves : List String) : buildTree leaves ≠ "" := by
  by_cases hne : leaves = []
  · rw [buildTree, if_pos hne]
    intro hempty
    have hlength := zeroHash_length
    rw [hempty] at hlength
    cases hlength
  · rw [buildTree, if_neg hne]
    obtain ⟨input, -, heq⟩ := List.mem_map.mp (@HashTree.root_mem hexdigest _ hne)
    rw [← heq]
    exact hexdigest_ne_empty input

variable {D : Type} [Interpreter D] {l : Ledger} {row : Row}

lemma generateMerkleProof_stored (stored : row ∈ l.rows) :
    ∃ i, ∃ hi : i < l.rows.length, l.rows[i] = row ∧
      l.generateMerkleProof row.id = some
        { proof := proofItems
            (HashTree.levels hexdigest l.hashes.length (l.hashes.map hexdigest)).dropLast i
          rootHash := buildTree l.hashes
          eventHash := row.currentHash } := by
  have hne : l.rows ≠ [] := List.ne_nil_of_mem stored
  have hhashes : l.hashes ≠ [] := fun h => hne (List.map_eq_nil_iff.mp h)
  have hid : row.id ∈ l.rows.map Row.id := List.mem_map_of_mem stored
  obtain ⟨i, hindex⟩ := Option.isSome_iff_exists.mp (List.isSome_idxOf?.mpr hid)
  obtain ⟨hi, hget, -⟩ := List.idxOf?_eq_some_iff.mp hindex
  have hi' : i < l.rows.length := by rwa [List.length_map] at hi
  have hrow : l.rows[i] = row := by
    rw [List.getElem_map] at hget
    exact List.inj_on_of_nodup_map (l.sorted.imp fun hlt => hlt.ne) (List.getElem_mem hi') stored hget
  have hhash : l.hashes.getD i "" = row.currentHash := by
    rw [List.getD_eq_getElem _ _ (by rwa [Ledger.hashes, List.length_map])]
    simp [Ledger.hashes, hrow]
  refine ⟨i, hi', hrow, ?_⟩
  rw [Ledger.generateMerkleProof, if_neg hne, hindex]
  simp only [HashTree.levels_getLast, HashTree.top_eq_root hhashes, Option.getD_some, hhash,
    List.headD_cons, buildTree, if_neg hhashes]

/-- Every stored event has a proof; it is accepted, and its root is the root of the tree over the
hashes that a check of the chain reports. -/
theorem merkle_proof_complete (stored : row ∈ l.rows)
    (digest : ∃ s, row.currentHash = hexdigest s) :
    ∃ p, l.generateMerkleProof row.id = some p ∧ p.eventHash = row.currentHash ∧
      verifyMerkleProof p.eventHash p.proof p.rootHash = true ∧ p.rootHash = buildTree l.hashes ∧
      ((l.verifyChainIntegrity D).valid = true →
        (l.verifyChainIntegrity D).merkleRoot = p.rootHash) := by
  obtain ⟨i, hi, hrow, hproof⟩ := generateMerkleProof_stored stored
  refine ⟨_, hproof, rfl, ?_, rfl, fun hvalid => ?_⟩
  · have hlength : l.hashes.length = l.rows.length := List.length_map _
    have hlevel : i < (l.hashes.map hexdigest).length := by
      rw [List.length_map, hlength]
      exact hi
    have hxs : ∀ x ∈ l.hashes.map hexdigest, x ≠ "" := by
      intro x hx
      obtain ⟨input, -, rfl⟩ := List.mem_map.mp hx
      exact hexdigest_ne_empty input
    obtain ⟨s, hs⟩ := digest
    refine verifyMerkleProof_iff.mpr ⟨?_, buildTree_ne_empty _, _,
      proofItems_step (path_sibling hxs hlevel), ?_⟩
    · rw [hs]
      exact hexdigest_ne_empty s
    · have hstart : hexdigest row.currentHash = (l.hashes.map hexdigest).getD i "" := by
        rw [List.getD_eq_getElem _ _ hlevel, List.getElem_map]
        simp [Ledger.hashes, hrow]
      have hclimb := @HashTree.climb_path hexdigest _ _ (List.length_map hexdigest).le _ hlevel
      rw [hstart, hclimb, buildTree, if_neg fun h => ?_]
      · rfl
      · rw [h] at hlevel
        cases hlevel
  · rw [verifyChainIntegrity_root, if_pos hvalid]

theorem merkle_proof_complete_login :
    ∃ l row, Ledger.empty.recordAll (D := Empty)
        [⟨"LOGIN", .dict [], "default_tenant", "t1"⟩, ⟨"LOGIN", .dict [], "default_tenant", "t2"⟩,
         ⟨"LOGOUT", .dict [], "default_tenant", "t3"⟩] = .ok l ∧ row ∈ l.rows ∧ row.id = 3 ∧
      ∃ p, l.generateMerkleProof row.id = some p ∧ p.eventHash = row.currentHash ∧
        verifyMerkleProof p.eventHash p.proof p.rootHash = true ∧ p.rootHash = buildTree l.hashes ∧
        ((l.verifyChainIntegrity Empty).valid = true →
          (l.verifyChainIntegrity Empty).merkleRoot = p.rootHash) :=
  ⟨_, _, rfl, List.mem_append_right _ (List.mem_singleton_self _), rfl,
    merkle_proof_complete (List.mem_append_right _ (List.mem_singleton_self _)) ⟨_, rfl⟩⟩

/-! ## Accepted proofs -/

/-- The strings that a verifier hashes for a proof. -/
def proofInputs (eventHash : String) (proof : List ProofItem) : List String :=
  eventHash :: HashTree.climbInputs hexdigest (hexdigest eventHash) (proof.filterMap ProofItem.step)

/-- The strings that are hashed for the inner nodes of a tree: the hashes of two nodes, one after
the other. -/
def innerInputs (leaves : List String) : List String :=
  HashTree.nodeInputs hexdigest leaves.length (leaves.map hexdigest)

lemma filterMap_step {proof : List ProofItem} {steps : List HashTree.Step}
    (h : proof.map ProofItem.step = steps.map some) : proof.filterMap ProofItem.step = steps := by
  calc
    proof.filterMap ProofItem.step = (proof.map ProofItem.step).filterMap id := by
      rw [List.filterMap_map, Function.id_comp]
    _ = (steps.map some).filterMap id := by rw [h]
    _ = steps := by rw [List.filterMap_map, Function.id_comp, List.filterMap_some]

lemma step_sibling {item : ProofItem} {s : HashTree.Step} (h : item.step = some s) :
    s.sibling ≠ "" := by
  unfold ProofItem.step at h
  split at h
  · split_ifs at h with hempty <;> cases h <;> exact fun hsibling => hempty (.inl hsibling)
  · cases h

/-- What a verifier climbs to is the digest of one of the strings that it hashes. -/
lemma climb_mem (current : String) (steps : List HashTree.Step) {start : String}
    (h : current = hexdigest start) : ∃ input ∈ start :: HashTree.climbInputs hexdigest current steps,
      HashTree.climb hexdigest current steps = hexdigest input := by
  induction steps generalizing current start with
  | nil => exact ⟨start, by simp, h⟩
  | cons s steps ih =>
      obtain ⟨input, hinput, heq⟩ := ih (hexdigest (s.combine current)) rfl
      exact ⟨input, List.mem_cons_of_mem _ hinput, heq⟩

section Sound

variable {leaves : List String} {eventHash : String}

/-- An accepted proof is about a leaf or an inner node. -/
theorem mem_of_verified (hleaves : ∀ leaf ∈ leaves, leaf.length = 64) {proof : List ProofItem}
    (resistant : Resistant (treeInputs leaves ++ proofInputs eventHash proof))
    (verified : verifyMerkleProof eventHash proof (buildTree leaves) = true) :
    eventHash ∈ leaves ∨ eventHash ∈ innerInputs leaves := by
  obtain ⟨-, -, steps, hsteps, hclimb⟩ := verifyMerkleProof_iff.mp verified
  rw [proofInputs, filterMap_step hsteps] at resistant
  by_cases hne : leaves = []
  · obtain ⟨input, hinput, heq⟩ := climb_mem (hexdigest eventHash) steps rfl
    rw [hclimb, buildTree, if_pos hne] at heq
    exact absurd heq.symm (resistant.ne_zero input (List.mem_append_right _ hinput))
  rw [buildTree, if_neg hne] at hclimb
  have hsiblings : ∀ s ∈ steps, s.sibling ≠ "" := by
    intro s hs
    have hmem : some s ∈ proof.map ProofItem.step := by
      rw [hsteps]
      exact List.mem_map_of_mem hs
    obtain ⟨item, -, hitem⟩ := List.mem_map.mp hmem
    exact step_sibling hitem
  have htree : hexdigest eventHash ∈ (HashTree.treeInputs hexdigest leaves).map hexdigest := by
    refine HashTree.mem_of_climb hexdigest_length hleaves (hexdigest_length _) hsiblings
      (resistant.injOn.mono fun input hinput => ?_) ?_
    · rcases List.mem_append.mp hinput with hmem | hmem
      · exact List.mem_append_left _ hmem
      · exact List.mem_append_right _ (List.mem_cons_of_mem _ hmem)
    · rw [hclimb]
      exact HashTree.root_mem hne
  obtain ⟨input, hinput, heq⟩ := List.mem_map.mp htree
  have hsame := resistant.injOn (List.mem_append_left _ hinput)
    (List.mem_append_right _ List.mem_cons_self) heq
  rw [hsame] at hinput
  exact List.mem_append.mp hinput

/-- Every inner node has an accepted proof of strings that are hashed for the tree anyway. -/
lemma exists_verified (h : eventHash ∈ treeInputs leaves) (hne : leaves ≠ [])
    (hevent : eventHash ≠ "") :
    ∃ proof, verifyMerkleProof eventHash proof (buildTree leaves) = true ∧
      ∀ s ∈ proofInputs eventHash proof, s ∈ treeInputs leaves := by
  obtain ⟨steps, hclimb, hinputs, hsiblings⟩ :=
    HashTree.exists_path hexdigest_length (by decide) h
  have hsteps : (steps.map stepItem).map ProofItem.step = steps.map some := by
    rw [List.map_map]
    exact List.map_congr_left fun s hs => step_stepItem (hsiblings s hs)
  refine ⟨steps.map stepItem, verifyMerkleProof_iff.mpr ⟨hevent, buildTree_ne_empty _, steps,
    hsteps, ?_⟩, fun s hs => ?_⟩
  · rw [hclimb, buildTree, if_neg hne]
  · rw [proofInputs, filterMap_step hsteps] at hs
    rcases List.mem_cons.mp hs with rfl | hmem
    · exact h
    · exact hinputs s hmem

/-- Accepted proofs about an event hash are sound exactly if it is not the concatenation of the two
hashes below an inner node. -/
theorem merkle_proof_sound (hashes : ∀ leaf ∈ leaves, leaf.length = 64)
    (resistant : Resistant (treeInputs leaves)) :
    (∀ proof, Resistant (treeInputs leaves ++ proofInputs eventHash proof) →
        verifyMerkleProof eventHash proof (buildTree leaves) = true → eventHash ∈ leaves) ↔
      eventHash ∉ innerInputs leaves := by
  constructor
  · intro hsound hinner
    have hlength := HashTree.nodeInputs_length hexdigest_length (fun x hx => by
      obtain ⟨input, -, rfl⟩ := List.mem_map.mp hx
      exact hexdigest_length input) hinner
    have hne : leaves ≠ [] := by
      rintro rfl
      cases hinner
    obtain ⟨proof, hverified, hinputs⟩ := exists_verified (List.mem_append_right _ hinner) hne (by
      rintro rfl
      cases hlength)
    have hmem := hsound proof (resistant.mono fun s hs => (List.mem_append.mp hs).elim id (hinputs s))
      hverified
    rw [hashes eventHash hmem] at hlength
    cases hlength
  · intro hinner proof hresistant hverified
    exact (mem_of_verified hashes hresistant hverified).resolve_right hinner

end Sound

/-! ## A tree over two events -/

def firstHash : String := "ca978112ca1bbdcafac231b39a23dc4da786eff8147c4e72b9807785afee48bb"

def secondHash : String := "3e23e8160039594a33894f6564e1b1348bbd7a0088d42c4acb73eeaed59c009d"

lemma digest_firstHash : hexdigest firstHash =
    "da3811154d59c4267077ddd8bb768fa9b06399c486e1fc00485116b57c9872f5" := by
  decide +kernel

lemma digest_secondHash : hexdigest secondHash =
    "dba1de6de88c058e5e0922171e0bd97e79e20e9fc6c1d2737a91146765527305" := by
  decide +kernel

lemma digest_rootInput : hexdigest
    ("da3811154d59c4267077ddd8bb768fa9b06399c486e1fc00485116b57c9872f5" ++
      "dba1de6de88c058e5e0922171e0bd97e79e20e9fc6c1d2737a91146765527305") =
    "c57e9934976858a2e99419632f7777a32bbd64105104ae6f4bc13c37fa469c99" := by
  decide +kernel

lemma pair_resistant : Resistant (treeInputs [firstHash, secondHash]) := by
  have hinputs : treeInputs [firstHash, secondHash] =
      [firstHash, secondHash, hexdigest firstHash ++ hexdigest secondHash] := rfl
  rw [hinputs]
  refine resistant_of_nodup ?_
  simp only [List.map_cons, List.map_nil, digest_firstHash, digest_secondHash, digest_rootInput]
  decide +kernel

theorem merkle_proof_sound_pair :
    (∀ leaf ∈ [firstHash, secondHash], leaf.length = 64) ∧
      Resistant (treeInputs [firstHash, secondHash]) ∧
      ((∀ proof, Resistant (treeInputs [firstHash, secondHash] ++ proofInputs firstHash proof) →
          verifyMerkleProof firstHash proof (buildTree [firstHash, secondHash]) = true →
          firstHash ∈ [firstHash, secondHash]) ↔
        firstHash ∉ innerInputs [firstHash, secondHash]) :=
  ⟨by decide, pair_resistant, merkle_proof_sound (by decide) pair_resistant⟩

/-- The two hashes below the root, one after the other, are accepted as an event hash without any
sibling. -/
theorem inner_node_accepted :
    ∃ leaves eventHash proof, (∀ leaf ∈ leaves, leaf.length = 64) ∧
      Resistant (treeInputs leaves ++ proofInputs eventHash proof) ∧
      verifyMerkleProof eventHash proof (buildTree leaves) = true ∧ eventHash ∉ leaves := by
  refine ⟨[firstHash, secondHash], hexdigest firstHash ++ hexdigest secondHash, [], by decide,
    pair_resistant.mono fun s hs => ?_, ?_, fun hmem => ?_⟩
  · rcases List.mem_append.mp hs with htree | hinput
    · exact htree
    · rw [List.mem_singleton.mp hinput]
      exact List.mem_append_right _ List.mem_cons_self
  · refine verifyMerkleProof_iff.mpr ⟨fun hempty => ?_, buildTree_ne_empty _, [], rfl, rfl⟩
    have hlength := congrArg String.length hempty
    rw [String.length_append, hexdigest_length, hexdigest_length] at hlength
    cases hlength
  · have hlength : (hexdigest firstHash ++ hexdigest secondHash).length = 64 := by
      revert hmem
      generalize hexdigest firstHash ++ hexdigest secondHash = e
      revert e
      simp only [List.mem_cons, List.not_mem_nil, or_false]
      rintro e (rfl | rfl) <;> decide
    rw [String.length_append, hexdigest_length, hexdigest_length] at hlength
    cases hlength

end AgentSystem.Audit
