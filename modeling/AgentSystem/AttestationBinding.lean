import AgentSystem.NodeAttestation

/-!
# Who can answer a challenge

An accepted proof uses its challenge up, so a challenge is answered at most once. The node that the
challenge was issued to is never compared with the node of the proof.
-/
namespace AgentSystem.Attestation

open FederatedMeshCoordinator

variable {τ : Type} [Sub τ] [IntCast τ] [LinearOrder τ] (certs : SwarmCertManager τ)

/-- A proof that was accepted, its challenge, and whether its node was a peer. -/
structure Acceptance (τ : Type) where
  challenge : AttestationChallenge τ
  proof : AttestationProof
  now : τ
  isPeer : Bool
  deriving DecidableEq

/-- The coordinator, the challenges that it issued and the proofs that it accepted. -/
structure History (τ : Type) where
  coordinator : FederatedMeshCoordinator τ
  issued : List (AttestationChallenge τ) := []
  accepted : List (Acceptance τ) := []

inductive Call (τ : Type)
  | generate (targetNodeId : String) (ttlSeconds : ℤ) (challengeId nonce : String) (timestamp now : τ)
  | verify (proof : AttestationProof) (now instant : τ)

namespace History

def step (h : History τ) : Call τ → History τ
  | .generate targetNodeId ttlSeconds challengeId nonce timestamp now =>
      let result := h.coordinator.generateAttestationChallenge targetNodeId ttlSeconds challengeId
        nonce timestamp now
      { h with coordinator := result.1, issued := h.issued ++ [result.2] }
  | .verify proof now instant =>
      let result := h.coordinator.verifyAttestationProof certs proof now instant
      { h with
        coordinator := result.1
        accepted := h.accepted ++
          if result.2.1 then
            ((h.coordinator.activeChallenges proof.challengeId).map fun challenge =>
              (⟨challenge, proof, now, (h.coordinator.peers proof.originNodeId).isSome⟩ :
                Acceptance τ)).toList
          else [] }

def run (h : History τ) (calls : List (Call τ)) : History τ := calls.foldl (step certs) h

/-- A proof that passes the checks of its active challenge, of a node that is a peer, is of the node
that the challenge was issued to. -/
def TargetAnswers (h : History τ) : Call τ → Prop
  | .generate .. => True
  | .verify proof now instant =>
      ∀ challenge ∈ h.coordinator.activeChallenges proof.challengeId,
        checkProof certs challenge proof now instant = none →
          (h.coordinator.peers proof.originNodeId).isSome = true →
            challenge.targetNodeId = proof.originNodeId

/-- Every call of the run meets the condition. -/
def Throughout (h : History τ) : List (Call τ) → Prop
  | [] => True
  | call :: calls => TargetAnswers certs h call ∧ (h.step certs call).Throughout calls

/-- A node is verified by a proof that uses up an unexpired challenge to it, and no challenge is used
twice. -/
structure Bound (before : FederatedMeshCoordinator τ) (h : History τ) : Prop where
  once : ∀ challenge, h.accepted.countP (·.challenge = challenge) ≤ h.issued.count challenge
  marked : ∀ a ∈ h.accepted, a.isPeer = true →
    a.challenge ∈ h.issued ∧ a.challenge.challengeId = a.proof.challengeId ∧
      ¬ Expired a.challenge a.now ∧ a.challenge.targetNodeId = a.proof.originNodeId
  verified : ∀ node peer, h.coordinator.peers node = some peer →
    peer.attestationStatus = .verified →
      (∃ peer, before.peers node = some peer ∧ peer.attestationStatus = .verified) ∨
        ∃ a ∈ h.accepted, a.isPeer = true ∧ a.proof.originNodeId = node

variable {certs} {h : History τ} {before : FederatedMeshCoordinator τ} {proof : AttestationProof}
  {now instant : τ}

variable (certs) in
/-- What a verification does: nothing, or it uses the challenge up, or it accepts the proof as well. -/
lemma verify_cases (h : History τ) (proof : AttestationProof) (now instant : τ) :
    (h.coordinator.activeChallenges proof.challengeId = none ∧
        h.step certs (.verify proof now instant) = h) ∨
      ∃ challenge, h.coordinator.activeChallenges proof.challengeId = some challenge ∧
        (((∃ message, checkProof certs challenge proof now instant = some message) ∧
            h.step certs (.verify proof now instant) =
              { h with coordinator := h.coordinator.withoutChallenge proof.challengeId }) ∨
          (checkProof certs challenge proof now instant = none ∧
            h.step certs (.verify proof now instant) =
              { h with
                coordinator := (h.coordinator.withoutChallenge proof.challengeId).markVerified certs
                  proof now
                accepted := h.accepted ++
                  [⟨challenge, proof, now, (h.coordinator.peers proof.originNodeId).isSome⟩] })) := by
  rcases hactive : h.coordinator.activeChallenges proof.challengeId with _ | challenge
  · exact .inl ⟨rfl, by simp [step, verifyAttestationProof, hactive]⟩
  · refine .inr ⟨challenge, rfl, ?_⟩
    cases hcheck : checkProof certs challenge proof now instant with
    | none => exact .inr ⟨rfl, by simp [step, verifyAttestationProof, hactive, hcheck]⟩
    | some message =>
        exact .inl ⟨⟨message, rfl⟩, by simp [step, verifyAttestationProof, hactive, hcheck]⟩

/-- An accepted proof is in time. -/
lemma not_expired_of_check {challenge : AttestationChallenge τ}
    (hcheck : checkProof certs challenge proof now instant = none) : ¬ Expired challenge now := by
  intro hexpired
  rw [checkProof, if_pos hexpired] at hcheck
  cases hcheck

/-- What holds of every history, whoever answers. -/
structure Invariant (before : FederatedMeshCoordinator τ) (h : History τ) : Prop where
  keyed : ∀ id challenge, h.coordinator.activeChallenges id = some challenge →
    challenge.challengeId = id ∧ challenge ∈ h.issued
  once : ∀ challenge, h.accepted.countP (·.challenge = challenge) ≤ h.issued.count challenge
  unused : ∀ id challenge, h.coordinator.activeChallenges id = some challenge →
    h.accepted.countP (·.challenge = challenge) < h.issued.count challenge
  accepted : ∀ a ∈ h.accepted, a.challenge ∈ h.issued ∧
    a.challenge.challengeId = a.proof.challengeId ∧ ¬ Expired a.challenge a.now
  verified : ∀ node peer, h.coordinator.peers node = some peer →
    peer.attestationStatus = .verified →
      (∃ peer, before.peers node = some peer ∧ peer.attestationStatus = .verified) ∨
        ∃ a ∈ h.accepted, a.isPeer = true ∧ a.proof.originNodeId = node

lemma Invariant.generate (hinv : Invariant before h) (targetNodeId : String) (ttlSeconds : ℤ)
    (challengeId nonce : String) (timestamp now : τ) :
    Invariant before
      (h.step certs (.generate targetNodeId ttlSeconds challengeId nonce timestamp now)) := by
  obtain ⟨hkeyed, honce, hunused, haccepted, hverified⟩ := hinv
  set challenge : AttestationChallenge τ :=
    ⟨challengeId, nonce, h.coordinator.nodeId, targetNodeId, timestamp, ttlSeconds⟩
  -- an active challenge is the new one, or it was active before
  have hactive : ∀ id c, (h.step certs (.generate targetNodeId ttlSeconds challengeId nonce timestamp
      now)).coordinator.activeChallenges id = some c →
        (id = challengeId ∧ c = challenge) ∨ h.coordinator.activeChallenges id = some c := by
    intro id c hc
    change Function.update
      (fun id => (h.coordinator.activeChallenges id).filter fun c => ¬ Expired c now)
      challengeId (some challenge) id = some c at hc
    by_cases hid : id = challengeId
    · rw [hid, Function.update_self, Option.some.injEq] at hc
      exact .inl ⟨hid, hc.symm⟩
    · rw [Function.update_of_ne hid] at hc
      exact .inr (Option.filter_eq_some_iff.mp hc).1
  have hissued : ∀ c, (h.issued ++ [challenge]).count c =
      h.issued.count c + [challenge].count c := fun c => List.count_append
  constructor
  · intro id c hc
    rcases hactive id c hc with ⟨rfl, rfl⟩ | hold
    · exact ⟨rfl, List.mem_append_right _ List.mem_cons_self⟩
    · exact ⟨(hkeyed id c hold).1, List.mem_append_left _ (hkeyed id c hold).2⟩
  · intro c
    exact (honce c).trans ((hissued c).symm ▸ Nat.le_add_right _ _)
  · intro id c hc
    change h.accepted.countP _ < (h.issued ++ [challenge]).count c
    rw [hissued]
    rcases hactive id c hc with ⟨-, rfl⟩ | hold
    · rw [List.count_singleton_self]
      exact Nat.lt_succ_of_le (honce _)
    · exact (hunused id c hold).trans_le (Nat.le_add_right _ _)
  · intro a ha
    exact ⟨List.mem_append_left _ (haccepted a ha).1, (haccepted a ha).2⟩
  · exact hverified

omit [Sub τ] [IntCast τ] [LinearOrder τ] in
/-- An active challenge was active before, under another id than the one that is gone. -/
lemma withoutChallenge_active {coordinator : FederatedMeshCoordinator τ} {challengeId id : String}
    {challenge : AttestationChallenge τ}
    (h : (coordinator.withoutChallenge challengeId).activeChallenges id = some challenge) :
    id ≠ challengeId ∧ coordinator.activeChallenges id = some challenge := by
  change Function.update coordinator.activeChallenges challengeId none id = some challenge at h
  by_cases hid : id = challengeId
  · rw [hid, Function.update_self] at h
    cases h
  · exact ⟨hid, by rwa [Function.update_of_ne hid] at h⟩

omit [Sub τ] [IntCast τ] [LinearOrder τ] in
lemma markVerified_activeChallenges (coordinator : FederatedMeshCoordinator τ) :
    (coordinator.markVerified certs proof now).activeChallenges = coordinator.activeChallenges := by
  rw [markVerified]
  split <;> rfl

omit [Sub τ] [IntCast τ] [LinearOrder τ] in
/-- A peer stays as it was, unless it is the node of the proof. -/
lemma markVerified_peers {coordinator : FederatedMeshCoordinator τ} {node : String}
    {peer : FederatedPeerProfile τ}
    (h : (coordinator.markVerified certs proof now).peers node = some peer) :
    coordinator.peers node = some peer ∨
      ((coordinator.peers proof.originNodeId).isSome = true ∧ proof.originNodeId = node) := by
  rw [markVerified] at h
  split at h
  · exact .inl h
  · rename_i hpeer
    by_cases hnode : node = proof.originNodeId
    · exact .inr ⟨by rw [hpeer]; rfl, hnode.symm⟩
    · dsimp only at h
      exact .inl (by rwa [Function.update_of_ne hnode] at h)

lemma Invariant.verify (hinv : Invariant before h) (proof : AttestationProof) (now instant : τ) :
    Invariant before (h.step certs (.verify proof now instant)) := by
  rcases verify_cases certs h proof now instant with
    ⟨-, heq⟩ | ⟨challenge, hactive, ⟨-, heq⟩ | ⟨hcheck, heq⟩⟩
  · rwa [heq]
  · obtain ⟨hkeyed, honce, hunused, haccepted, hverified⟩ := hinv
    rw [heq]
    exact ⟨fun id c hc => hkeyed id c (withoutChallenge_active hc).2, honce,
      fun id c hc => hunused id c (withoutChallenge_active hc).2, haccepted, hverified⟩
  · obtain ⟨hkeyed, honce, hunused, haccepted, hverified⟩ := hinv
    obtain ⟨hid, hmem⟩ := hkeyed _ _ hactive
    have hcount : ∀ (a : Acceptance τ) c, (h.accepted ++ [a]).countP (·.challenge = c) =
        h.accepted.countP (·.challenge = c) + if a.challenge = c then 1 else 0 := by
      intro a c
      simp [List.countP_append, List.countP_singleton]
    rw [heq]
    constructor
    · intro id c hc
      rw [markVerified_activeChallenges] at hc
      exact hkeyed id c (withoutChallenge_active hc).2
    · intro c
      dsimp only
      rw [hcount]
      split_ifs with hc
      · subst hc
        exact hunused _ _ hactive
      · exact honce c
    · intro id c hc
      rw [markVerified_activeChallenges] at hc
      obtain ⟨hne, hc⟩ := withoutChallenge_active hc
      have hother : challenge ≠ c := by
        rintro rfl
        exact hne ((hkeyed id _ hc).1.symm.trans hid)
      dsimp only
      rw [hcount, if_neg hother]
      exact hunused id c hc
    · intro a ha
      rcases List.mem_append.mp ha with ha | ha
      · exact haccepted a ha
      · rw [List.mem_singleton.mp ha]
        exact ⟨hmem, hid, not_expired_of_check hcheck⟩
    · intro node peer hpeer hstatus
      rcases markVerified_peers hpeer with hsame | hmarked
      · exact (hverified node peer hsame hstatus).imp_right fun ⟨a, ha, hnode⟩ =>
          ⟨a, List.mem_append_left _ ha, hnode⟩
      · exact .inr ⟨_, List.mem_append_right _ (List.mem_singleton_self _), hmarked⟩

variable (certs) in
lemma Invariant.run (hinv : Invariant before h) (calls : List (Call τ)) :
    Invariant before (h.run certs calls) := by
  induction calls generalizing h with
  | nil => exact hinv
  | cons call calls ih =>
      cases call with
      | generate targetNodeId ttlSeconds challengeId nonce timestamp now =>
          exact ih (hinv.generate targetNodeId ttlSeconds challengeId nonce timestamp now)
      | verify proof now instant => exact ih (hinv.verify proof now instant)

/-- The node that is marked is the one that the challenge was issued to. -/
def OfTarget (a : Acceptance τ) : Prop :=
  a.isPeer = true → a.challenge.targetNodeId = a.proof.originNodeId

lemma ofTarget_step (h : History τ) (call : Call τ) :
    (∀ a ∈ (h.step certs call).accepted, OfTarget a) ↔
      (∀ a ∈ h.accepted, OfTarget a) ∧ TargetAnswers certs h call := by
  cases call with
  | generate => exact (and_iff_left trivial).symm
  | verify proof now instant =>
      rcases verify_cases certs h proof now instant with
        ⟨hactive, heq⟩ | ⟨challenge, hactive, ⟨⟨message, hcheck⟩, heq⟩ | ⟨hcheck, heq⟩⟩
      · simp [heq, TargetAnswers, hactive]
      · simp [heq, TargetAnswers, hactive, hcheck]
      · simp only [heq, TargetAnswers, hactive, Option.mem_some_iff, forall_eq', hcheck,
          true_imp_iff, List.mem_append, List.mem_singleton, or_imp, forall_and, forall_eq, OfTarget]

variable (certs) in
lemma ofTarget_run (h : History τ) (calls : List (Call τ)) :
    (∀ a ∈ (h.run certs calls).accepted, OfTarget a) ↔
      (∀ a ∈ h.accepted, OfTarget a) ∧ h.Throughout certs calls := by
  induction calls generalizing h with
  | nil => exact (and_iff_left trivial).symm
  | cons call calls ih =>
      change (∀ a ∈ ((h.step certs call).run certs calls).accepted, OfTarget a) ↔ _
      rw [ih, ofTarget_step, and_assoc]
      rfl

lemma invariant_start {coordinator : FederatedMeshCoordinator τ}
    (hnew : ∀ id, coordinator.activeChallenges id = none) :
    Invariant coordinator ⟨coordinator, [], []⟩ where
  keyed id challenge hc := by
    rw [hnew id] at hc
    cases hc
  once _ := le_refl 0
  unused id challenge hc := by
    rw [hnew id] at hc
    cases hc
  accepted := by simp
  verified _ peer hpeer hstatus := .inl ⟨peer, hpeer, hstatus⟩

/-- A history binds every verification to a challenge of its node exactly where every proof that is
accepted for a peer is of the node that its challenge was issued to. -/
theorem bound_iff (certs : SwarmCertManager τ) (coordinator : FederatedMeshCoordinator τ)
    (hnew : ∀ id, coordinator.activeChallenges id = none) (calls : List (Call τ)) :
    Bound coordinator (run certs ⟨coordinator, [], []⟩ calls) ↔
      Throughout certs ⟨coordinator, [], []⟩ calls := by
  obtain ⟨-, honce, -, haccepted, hverified⟩ := (invariant_start hnew).run certs calls
  have htarget := ofTarget_run certs ⟨coordinator, [], []⟩ calls
  simp only [List.not_mem_nil, false_imp_iff, implies_true, true_and] at htarget
  rw [← htarget]
  constructor
  · intro hbound a ha hpeer
    exact (hbound.marked a ha hpeer).2.2.2
  · intro hall
    refine ⟨honce, fun a ha hpeer => ?_, hverified⟩
    obtain ⟨hissued, hid, htime⟩ := haccepted a ha
    exact ⟨hissued, hid, htime, hall a ha hpeer⟩

/-! ## Two peers -/

/-- A certificate that signs with its own key. -/
def sampleCerts : SwarmCertManager ℤ where
  isCertValid _ _ := (true, "Certificate is valid")
  getCertFingerprint cert := "sha256 of " ++ cert
  getCertExpiry _ := some "2030-01-01T00:00:00+00:00"
  signPayload key payload := "signature of " ++ payload ++ " with the key of " ++ key
  verifySignature cert signature payload :=
    signature = "signature of " ++ payload ++ " with the key of " ++ cert

/-- A node whose key and certificate are named after it, with two pending peers. -/
def sampleNode (nodeId : String) : FederatedMeshCoordinator ℤ where
  nodeId
  privateKeyPem := nodeId
  certPem := nodeId
  certFingerprint := "sha256 of " ++ nodeId
  peers node := if node = "b" ∨ node = "c" then some { nodeId := node } else none

/-- The first node challenges the second one, and this node answers. -/
def answered (nodeId : String) : List (Call ℤ) :=
  [.generate "b" 60 "chal-1" "nonce" 0 0,
    .verify ((sampleNode nodeId).createAttestationProof sampleCerts "chal-1" "nonce") 10 10]

/-- A proof that the other peer makes with its own key, for a challenge that it was not given. -/
theorem other_node_verified :
    ¬ Bound (sampleNode "a") (run sampleCerts ⟨sampleNode "a", [], []⟩ (answered "c")) := by
  intro hbound
  have hlast : (run sampleCerts ⟨sampleNode "a", [], []⟩ (answered "c")).accepted.map
      (fun a => (a.isPeer, a.challenge.targetNodeId, a.proof.originNodeId)) =
        [(true, "b", "c")] := by decide +kernel
  obtain ⟨a, ha, hsame⟩ := List.mem_map.mp (hlast.symm ▸ List.mem_singleton_self _)
  simp only [Prod.mk.injEq] at hsame
  have htarget := (hbound.marked a ha hsame.1).2.2.2
  rw [hsame.2.1, hsame.2.2] at htarget
  exact absurd htarget (by decide)

/-- The node that was challenged is verified by its own proof. -/
theorem challenged_node_verified :
    Bound (sampleNode "a") (run sampleCerts ⟨sampleNode "a", [], []⟩ (answered "b")) ∧
      ((run sampleCerts ⟨sampleNode "a", [], []⟩ (answered "b")).coordinator.peers "b").map
        (·.attestationStatus) = some .verified := by
  refine ⟨(bound_iff sampleCerts _ (fun _ => rfl) _).mpr ⟨trivial, ?_, trivial⟩, by decide +kernel⟩
  intro challenge hactive _ _
  have htarget : (((run sampleCerts ⟨sampleNode "a", [], []⟩ ((answered "b").take 1)).coordinator
      |>.activeChallenges "chal-1").map (·.targetNodeId)) = some "b" := by decide +kernel
  obtain ⟨c, hc, hb⟩ := Option.map_eq_some_iff.mp htarget
  have hsame : some challenge = some c := hactive.symm.trans hc
  cases hsame
  exact hb

end History

end AgentSystem.Attestation
