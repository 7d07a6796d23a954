import AgentSystem.JoinedFields
import AgentSystem.JsonRoundTrip
import AgentSystem.NodeAttestation

/-!
# Signed delegation requests

`sign_delegation_request` and `verify_delegation_request`. The signed text joins five fields by colons and leaves the
role out, so an accepted request is the signed one exactly where the role is the same and no colon has moved.
-/
namespace AgentSystem.Attestation

open JoinedFields Json

/-- A payload as JSON brings it, with its text: dictionaries are written with ascending names. -/
structure Payload (D : Type) [Interpreter D] where
  value : PyValue D
  text : List Char
  written : dumps value = some text
  ascends : NamesAscend value

variable {D τ : Type} [Interpreter D]

/-- The payloads are read back as the same value. -/
def Payload.Same (a b : Payload D) : Prop := reload a.value = reload b.value

lemma Payload.same_iff {a b : Payload D} : a.Same b ↔ a.text = b.text := by
  constructor
  · intro h
    have ha := (dumps_reload a.written).mpr a.ascends
    rw [show reload a.value = reload b.value from h, (dumps_reload b.written).mpr b.ascends] at ha
    exact (Option.some.inj ha).symm
  · intro h
    have ha := loads_dumps a.written
    rw [h, loads_dumps b.written] at ha
    exact (Option.some.inj ha).symm

structure FederatedDelegationRequest (D : Type) [Interpreter D] where
  requestId : String
  delegationType : String
  originNodeId : String
  taskId : String
  role : String
  payload : Payload D
  senderSignature : Option String := none
  senderCertFingerprint : Option String := none

namespace FederatedDelegationRequest

/-- The fields of the signed text before the payload. -/
def signedFields (req : FederatedDelegationRequest D) : List (List Char) :=
  [req.requestId.toList, req.taskId.toList, req.delegationType.toList, req.originNodeId.toList]

/-- `payload_str`. -/
def payloadStr (req : FederatedDelegationRequest D) : List Char := join ':' (req.signedFields ++ [req.payload.text])

/-- The request has these fields in common with another one. -/
structure Agrees (req other : FederatedDelegationRequest D) : Prop where
  requestId : req.requestId = other.requestId
  taskId : req.taskId = other.taskId
  delegationType : req.delegationType = other.delegationType
  originNodeId : req.originNodeId = other.originNodeId
  role : req.role = other.role
  payload : req.payload.Same other.payload

end FederatedDelegationRequest

/-- A coordinator with its setting for requests of peers. -/
structure DelegationCoordinator (τ : Type) extends FederatedMeshCoordinator τ where
  strictAttestation : Bool

/-- `if text`: the texts that count as true. -/
def truthy (text : Option String) : Option String := text.filter fun text => text ≠ ""

namespace DelegationCoordinator

variable (certs : SwarmCertManager τ) (statusText : AttestationStatus → String) (coordinator : DelegationCoordinator τ)

/-- `sign_delegation_request`. -/
def signDelegationRequest (req : FederatedDelegationRequest D) : FederatedDelegationRequest D :=
  { req with
    senderSignature := some (certs.signPayload coordinator.privateKeyPem (String.ofList req.payloadStr))
    senderCertFingerprint := some coordinator.certFingerprint }

/-- `verify_delegation_request`. -/
def verifyDelegationRequest (req : FederatedDelegationRequest D) : Bool × String :=
  let peer := coordinator.peers req.originNodeId
  let signature := truthy req.senderSignature
  let certificate := peer.bind fun peer => truthy peer.certPem
  let valid (cert signature : String) := certs.verifySignature cert signature (String.ofList req.payloadStr)
  if ∃ s ∈ signature, ∃ c ∈ certificate, valid c s = false then
    (false, "Delegation request signature verification failed")
  else if coordinator.strictAttestation = false then (true, "Strict attestation disabled; accepted")
  else
    match peer with
    | none => (false, "Peer " ++ req.originNodeId ++ " is not registered in mesh directory")
    | some peer =>
        if peer.attestationStatus ≠ .verified then
          (false, "Peer " ++ req.originNodeId ++ " failed zero-trust attestation check: status is '" ++
            statusText peer.attestationStatus ++ "' (not VERIFIED)")
        else
          match certificate, signature with
          | none, _ => (false, "Peer " ++ req.originNodeId ++ " has no registered certificate")
          | some _, none => (false, "Delegation request missing sender_signature")
          | some c, some s =>
              if valid c s = false then (false, "Delegation request signature verification failed")
              else (true, "Delegation request verified")

end DelegationCoordinator

/-! ## What was signed -/

/-- What a node signs with its key: delegation requests, and the challenges that it answers. -/
inductive Signing (D : Type) [Interpreter D]
  | request (req : FederatedDelegationRequest D)
  | proof (challengeId nonce nodeId : String)

/-- The fields that are joined for the signature. -/
def Signing.fields : Signing D → List (List Char)
  | request req => req.signedFields ++ [req.payload.text]
  | proof challengeId nonce nodeId => [challengeId.toList, nonce.toList, nodeId.toList]

lemma Signing.fields_ne_nil (signing : Signing D) : signing.fields ≠ [] := by
  cases signing with
  | request req => exact List.append_ne_nil_of_right_ne_nil _ (List.cons_ne_nil _ _)
  | proof challengeId nonce nodeId => exact List.cons_ne_nil _ _

/-- A signature verifies only for a text that was signed with the key of the certificate. -/
def Unforgeable (certs : SwarmCertManager τ) (signings : String → List (Signing D)) : Prop :=
  ∀ cert signature text, certs.verifySignature cert signature (String.ofList text) = true →
    ∃ signing ∈ signings cert, join ':' signing.fields = text

variable {certs : SwarmCertManager τ} {statusText : AttestationStatus → String}
  {coordinator : DelegationCoordinator τ} {req other : FederatedDelegationRequest D}

/-- A request that is accepted under strict attestation has a signature for the certificate of a verified peer. -/
lemma verifyDelegationRequest_accepted (hstrict : coordinator.strictAttestation = true)
    (h : (coordinator.verifyDelegationRequest certs statusText req).1 = true) :
    ∃ peer cert signature, coordinator.peers req.originNodeId = some peer ∧ peer.attestationStatus = .verified ∧
      peer.certPem = some cert ∧ certs.verifySignature cert signature (String.ofList req.payloadStr) = true := by
  simp only [DelegationCoordinator.verifyDelegationRequest, hstrict, Bool.true_eq_false, if_false] at h
  split_ifs at h with hinvalid
  cases hpeer : coordinator.peers req.originNodeId with
  | none => simp [hpeer] at h
  | some peer =>
    simp only [hpeer] at h
    split_ifs at h with hstatus
    split at h
    · simp at h
    · simp at h
    next cert signature hcert hsignature =>
      split_ifs at h with hvalid
      have hcert : truthy peer.certPem = some cert := hcert
      refine ⟨peer, cert, signature, rfl, not_not.mp hstatus, ?_, Bool.eq_true_of_not_eq_false hvalid⟩
      exact (Option.filter_eq_some_iff.mp hcert).1

/-- The signature of a verified peer is accepted. -/
lemma verifyDelegationRequest_of_valid {peer : FederatedPeerProfile τ} {cert signature : String}
    (hpeer : coordinator.peers req.originNodeId = some peer) (hstatus : peer.attestationStatus = .verified)
    (hcert : truthy peer.certPem = some cert) (hsignature : truthy req.senderSignature = some signature)
    (hvalid : certs.verifySignature cert signature (String.ofList req.payloadStr) = true) :
    (coordinator.verifyDelegationRequest certs statusText req).1 = true := by
  simp only [DelegationCoordinator.verifyDelegationRequest, hpeer, Option.bind_some, hcert, hsignature,
    Option.mem_some_iff, exists_eq_left', hvalid, hstatus, Bool.true_eq_false, if_false, ne_eq, not_true_eq_false]
  split <;> rfl

/-- Requests agree exactly if they have the role and the parts in common and no colon has moved. -/
lemma agrees_iff : other.Agrees req ↔
    parts ':' (other.signedFields ++ [other.payload.text]) = parts ':' (req.signedFields ++ [req.payload.text]) ∧
      other.signedFields.map (List.count ':') = req.signedFields.map (List.count ':') ∧ other.role = req.role := by
  constructor
  · intro h
    have hfields : other.signedFields = req.signedFields := by
      rw [FederatedDelegationRequest.signedFields, FederatedDelegationRequest.signedFields, h.requestId, h.taskId,
        h.delegationType, h.originNodeId]
    rw [hfields, Payload.same_iff.mp h.payload]
    exact ⟨rfl, rfl, h.role⟩
  · rintro ⟨hparts, hcolons, hrole⟩
    rw [← join_eq_iff (by simp) (by simp)] at hparts
    obtain ⟨hfields, hpayload⟩ := join_inj hparts hcolons
    simp only [FederatedDelegationRequest.signedFields, List.cons.injEq, String.toList_inj, and_true] at hfields
    exact
      { requestId := hfields.1
        taskId := hfields.2.1
        delegationType := hfields.2.2.1
        originNodeId := hfields.2.2.2
        role := hrole
        payload := Payload.same_iff.mpr hpayload }

/-- The empty dictionary, as it is written. -/
def samplePayload : Payload Empty := ⟨.dict [], ['\x7b', '\x7d'], rfl, List.Pairwise.nil, trivial⟩

/-- What the peer has signed. -/
def sampleRequest : FederatedDelegationRequest Empty :=
  { requestId := "req-1", delegationType := "TASK", originNodeId := "node-b", taskId := "task-1", role := "reviewer",
    payload := samplePayload, senderSignature := some "signature" }

/-- Another role under the same signature. -/
def promotedRequest : FederatedDelegationRequest Empty := { sampleRequest with role := "administrator" }

/-- Certificates for which one text was signed. -/
def signedOnce : SwarmCertManager ℤ where
  isCertValid _ _ := (true, "")
  getCertFingerprint cert := cert
  getCertExpiry _ := none
  signPayload _ _ := "signature"
  verifySignature cert signature text :=
    cert == "cert-b" && signature == "signature" && text == String.ofList sampleRequest.payloadStr

def signedRequests (cert : String) : List (Signing Empty) := if cert = "cert-b" then [.request sampleRequest] else []

def strictCoordinator : DelegationCoordinator ℤ where
  nodeId := "node-a"
  privateKeyPem := "key-a"
  certPem := "cert-a"
  certFingerprint := "fingerprint-a"
  strictAttestation := true
  peers node := if node = "node-b" then some ⟨"node-b", some "cert-b", none, none, .verified, none⟩ else none

lemma unforgeable_signedOnce : Unforgeable signedOnce signedRequests := by
  intro cert signature text h
  simp only [signedOnce, Bool.and_eq_true, beq_iff_eq] at h
  obtain ⟨⟨rfl, -⟩, htext⟩ := h
  exact ⟨_, List.mem_singleton_self _, (String.ofList_injective htext).symm⟩

def statusValue (_ : AttestationStatus) : String := "VERIFIED"

lemma accepted_sample (role : String) :
    (strictCoordinator.verifyDelegationRequest signedOnce statusValue { sampleRequest with role }).1 = true := by
  refine verifyDelegationRequest_of_valid rfl rfl rfl rfl ?_
  rw [show FederatedDelegationRequest.payloadStr { sampleRequest with role } = sampleRequest.payloadStr from rfl]
  simp [signedOnce]

end AgentSystem.Attestation
