import Mathlib

/-!
# The attestation of mesh nodes

A coordinator issues challenges to nodes and verifies the proofs that answer them. The certificates and
signatures are parameters, and a dictionary is its lookup.
-/
namespace AgentSystem.Attestation

inductive AttestationStatus
  | pending
  | verified
  | rejected
  | expired
  deriving DecidableEq

structure AttestationChallenge (τ : Type) where
  challengeId : String
  nonce : String
  issuerNodeId : String
  targetNodeId : String
  timestamp : τ
  ttlSeconds : ℤ
  deriving DecidableEq

structure AttestationProof where
  challengeId : String
  originNodeId : String
  certPem : String
  certFingerprint : String
  signedNonce : String
  deriving DecidableEq

/-- The fields of a `FederatedPeerProfile` that attestation writes. -/
structure FederatedPeerProfile (τ : Type) where
  nodeId : String
  certPem : Option String := none
  certFingerprint : Option String := none
  certExpiresAt : Option String := none
  attestationStatus : AttestationStatus := .pending
  attestationTimestamp : Option τ := none
  deriving DecidableEq

/-- `SwarmCertManager`; `is_cert_valid` reads a clock. -/
structure SwarmCertManager (τ : Type) where
  isCertValid : τ → String → Bool × String
  getCertFingerprint : String → String
  getCertExpiry : String → Option String
  signPayload : String → String → String
  verifySignature : String → String → String → Bool

structure FederatedMeshCoordinator (τ : Type) where
  nodeId : String
  privateKeyPem : String
  certPem : String
  certFingerprint : String
  activeChallenges : String → Option (AttestationChallenge τ) := fun _ => none
  peers : String → Option (FederatedPeerProfile τ)

namespace FederatedMeshCoordinator

variable {τ : Type}

/-- The payload of a challenge for a node. -/
def payload (challengeId nonce nodeId : String) : String := challengeId ++ ":" ++ nonce ++ ":" ++ nodeId

/-- `create_attestation_proof`. -/
def createAttestationProof (certs : SwarmCertManager τ) (coordinator : FederatedMeshCoordinator τ)
    (challengeId nonce : String) : AttestationProof where
  challengeId
  originNodeId := coordinator.nodeId
  certPem := coordinator.certPem
  certFingerprint := coordinator.certFingerprint
  signedNonce := certs.signPayload coordinator.privateKeyPem
    (payload challengeId nonce coordinator.nodeId)

/-- `active_challenges.pop`. -/
def withoutChallenge (coordinator : FederatedMeshCoordinator τ) (challengeId : String) :
    FederatedMeshCoordinator τ :=
  { coordinator with
    activeChallenges := Function.update coordinator.activeChallenges challengeId none }

/-- A peer that is verified, with the certificate of the proof. -/
def markVerified (certs : SwarmCertManager τ) (coordinator : FederatedMeshCoordinator τ)
    (proof : AttestationProof) (now : τ) : FederatedMeshCoordinator τ :=
  match coordinator.peers proof.originNodeId with
  | none => coordinator
  | some peer =>
      { coordinator with
        peers := Function.update coordinator.peers proof.originNodeId
          (some { peer with
            certPem := some proof.certPem
            certFingerprint := some proof.certFingerprint
            certExpiresAt := certs.getCertExpiry proof.certPem
            attestationStatus := .verified
            attestationTimestamp := some now }) }

variable [Sub τ] [IntCast τ] [LinearOrder τ]

/-- The challenge is past its time to live. -/
def Expired (challenge : AttestationChallenge τ) (now : τ) : Prop :=
  (challenge.ttlSeconds : τ) < now - challenge.timestamp

instance (challenge : AttestationChallenge τ) (now : τ) : Decidable (Expired challenge now) :=
  inferInstanceAs (Decidable (_ < _))

/-- `generate_attestation_challenge`, with the id, the nonce and the instants of the new challenge. -/
def generateAttestationChallenge (coordinator : FederatedMeshCoordinator τ) (targetNodeId : String)
    (ttlSeconds : ℤ) (challengeId nonce : String) (timestamp now : τ) :
    FederatedMeshCoordinator τ × AttestationChallenge τ :=
  let challenge : AttestationChallenge τ :=
    { challengeId, nonce, issuerNodeId := coordinator.nodeId, targetNodeId, timestamp, ttlSeconds }
  ({ coordinator with
      activeChallenges := Function.update
        (fun id => (coordinator.activeChallenges id).filter fun c => ¬ Expired c now)
        challengeId (some challenge) }, challenge)

/-- The checks of a proof against its challenge, with the first message. -/
def checkProof (certs : SwarmCertManager τ) (challenge : AttestationChallenge τ)
    (proof : AttestationProof) (now instant : τ) : Option String :=
  if Expired challenge now then some "Challenge expired"
  else if (certs.isCertValid instant proof.certPem).1 = false then
    some ("Invalid certificate: " ++ (certs.isCertValid instant proof.certPem).2)
  else if certs.getCertFingerprint proof.certPem ≠ proof.certFingerprint then
    some "Certificate fingerprint mismatch"
  else if certs.verifySignature proof.certPem proof.signedNonce
      (payload challenge.challengeId challenge.nonce proof.originNodeId) = false then
    some "Invalid attestation signature: cryptographic verification failed"
  else none

/-- `verify_attestation_proof`. -/
def verifyAttestationProof (certs : SwarmCertManager τ) (coordinator : FederatedMeshCoordinator τ)
    (proof : AttestationProof) (now instant : τ) : FederatedMeshCoordinator τ × Bool × String :=
  match coordinator.activeChallenges proof.challengeId with
  | none => (coordinator, false, "Challenge not found or already used (replay protection)")
  | some challenge =>
      let coordinator := coordinator.withoutChallenge proof.challengeId
      match checkProof certs challenge proof now instant with
      | some message => (coordinator, false, message)
      | none =>
          (coordinator.markVerified certs proof now, true, "Attestation verified successfully")

end FederatedMeshCoordinator

end AgentSystem.Attestation
