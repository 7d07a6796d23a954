import AgentSystem.ConsensusRegistry

/-!
# Votes on governance proposals

`run_governance_vote` asks the model of every member that is not quarantined and signs a vote for it,
`cast_vote` checks and counts such votes. A vote starts as an approval.
-/
namespace AgentSystem.Voting

open Json Audit Consensus

/-- `str.strip` and `str.upper`. -/
structure TextMethods where
  strip : String → String
  upper : String → String

/-- The second part of what `complete` returns: a text, or something else that may be empty. -/
inductive ResponseData
  | text (content : String)
  | other (truthy : Bool)
  deriving DecidableEq

/-- What comes of asking a member: a response of some type, or an exception of the provider. -/
inductive Completion
  | returned (responseType : String) (data : ResponseData)
  | raised
  deriving DecidableEq

inductive Vote
  | approve
  | reject
  deriving DecidableEq

def Vote.name : Vote → String
  | .approve => "approve"
  | .reject => "reject"

namespace Completion

variable (text : TextMethods)

/-- `resp_text.startswith(word)` after the normalization of the answer. -/
def startsWith (word content : String) : Bool :=
  word.toList.isPrefixOf (text.upper (text.strip content)).toList

/-- The vote that is recorded; an answer that is no text raises when it is normalized. -/
def vote : Completion → Vote
  | .raised => .approve
  | .returned responseType data =>
      if responseType = "success" then
        match data with
        | .text content =>
            if content = "" then .approve
            else if startsWith text "REJECT" content then .reject
            else if startsWith text "APPROVE" content then .approve
            else .approve
        | .other _ => .approve
      else .approve

/-- The response types that `BaseLLMProvider.complete` promises; a text comes as a string. -/
def KeepsContract : Completion → Prop
  | .raised => True
  | .returned responseType data =>
      (responseType = "text" ∧ ∃ content, data = .text content) ∨ responseType = "tool_calls" ∨
        responseType = "error"

/-- The model answered with a text that starts with this word. -/
def Answers (word : String) (completion : Completion) : Prop :=
  ∃ content, completion = .returned "text" (.text content) ∧ startsWith text word content = true

end Completion

/-- What asking each member does to the state of the process, and what comes of it. -/
abbrev Members := Role → Session → Session × Completion

/-- The vote of a member with its signature, and the answer that it comes from. -/
structure Ballot where
  role : Role
  completion : Completion
  vote : Vote
  signature : String
  deriving DecidableEq

section Run

variable (D : Type) [Interpreter D] [Coercion D] (secrets : Secrets) (text : TextMethods)
  (members : Members)

/-- The loop over the members, `none` when a signature raises. -/
def askMembers (payloadHash : String) : Session → List Role → Session × Option (List Ballot)
  | s, [] => (s, some [])
  | s, role :: roles =>
      if s.quarantined role then askMembers payloadHash s roles
      else
        let (s, completion) := members role s
        match generateMemberSignature (D := D) secrets s role (strValue payloadHash) with
        | (s, none) => (s, none)
        | (s, some signature) =>
            (askMembers payloadHash s roles).map id
              (Option.map (⟨role, completion, completion.vote text, signature⟩ :: ·))

/-- `run_governance_vote` on a proposal with this hash. -/
def runGovernanceVote (s : Session) (payloadHash : String) : Session × Option (List Ballot) :=
  askMembers D secrets text members payloadHash s Role.all

end Run

/-! ## Counting -/

inductive ProposalStatus
  | proposed
  | accepted
  | rejected
  deriving DecidableEq

/-- A proposal with what `cast_vote` reads and writes. -/
structure Proposal (D : Type) where
  payloadHash : String
  status : ProposalStatus := .proposed
  votes : List (String × String) := []
  signatures : List (String × String) := []
  certificate : Option (PyValue D) := none

/-- The file of the proposals, and the swarm. -/
structure Governance (D : Type) where
  proposals : List (String × Proposal D)
  swarm : Swarm D

/-- The result of `cast_vote`; `raised` is an exception. -/
inductive Cast
  | counted
  | refused
  | raised
  deriving DecidableEq

namespace Governance

variable {D : Type} [Interpreter D] [Coercion D] (secrets : Secrets)

/-- The roles with this vote. -/
def rolesVoting (votes : List (String × String)) (vote : String) : List String :=
  (votes.filter fun entry => entry.2 = vote).map Prod.fst

/-- The proposal after a vote whose signature is right, `none` when the certificate fails. -/
def count (swarm : Swarm D) (proposal : Proposal D) (timestamp : String) :
    Swarm D × Option (Proposal D) :=
  let approved := rolesVoting proposal.votes "approve"
  if 3 ≤ approved.length then
    match createConsensusCertificate (D := D) secrets swarm.session proposal.payloadHash approved
      timestamp with
    | (session, none) => ({ swarm with session := session }, none)
    | (session, some certificate) =>
        match { swarm with session := session }.registerConsensus secrets
          (toPyStr proposal.payloadHash) certificate with
        | (swarm, false) => (swarm, none)
        | (swarm, true) =>
            (swarm,
              some { proposal with status := .accepted, certificate := some certificate })
  else if 3 ≤ (rolesVoting proposal.votes "reject").length then
    (swarm, some { proposal with status := .rejected })
  else (swarm, some proposal)

/-- `cast_vote`. -/
def castVote (g : Governance D) (proposalId role vote signature timestamp : String) :
    Governance D × Cast :=
  match PySequence.getItem g.proposals proposalId with
  | none => (g, .raised)
  | some proposal =>
      match Role.ofName role.toLower with
      | none => (g, .raised)
      | some member =>
          match generateMemberSignature (D := D) secrets g.swarm.session member
            (strValue proposal.payloadHash) with
          | (session, none) => ({ g with swarm := { g.swarm with session := session } }, .raised)
          | (session, some expected) =>
              let swarm := { g.swarm with session := session }
              if signature ≠ expected then ({ g with swarm := swarm }, .refused)
              else
                match count secrets swarm
                  { proposal with
                    votes := PySequence.setItem proposal.votes role.toLower vote.toLower
                    signatures :=
                      PySequence.setItem proposal.signatures role.toLower signature } timestamp with
                | (swarm, none) => ({ g with swarm := swarm }, .refused)
                | (swarm, some proposal) =>
                    ({ proposals := PySequence.setItem g.proposals proposalId proposal
                       swarm := swarm }, .counted)

/-- The votes of a run one after the other. -/
def castBallots (g : Governance D) (proposalId timestamp : String) (ballots : List Ballot) :
    Governance D :=
  ballots.foldl (fun g ballot =>
    (g.castVote secrets proposalId ballot.role.name ballot.vote.name ballot.signature timestamp).1)
    g

/-- The proposal has been accepted. -/
def Accepted (g : Governance D) (proposalId : String) : Prop :=
  ∃ proposal, PySequence.getItem g.proposals proposalId = some proposal ∧
    proposal.status = .accepted

end Governance

end AgentSystem.Voting
