import AgentSystem.MemberVotes

/-!
# Whose votes are recorded

Votes that arbitrary callers cast. A member signs the payload hash of a proposal, neither the vote
nor the proposal is part of what it signs.
-/
namespace AgentSystem.Voting

open Json Audit Consensus

variable {D : Type} [Interpreter D] [Coercion D] (secrets : Secrets)

/-- A vote that a member has signed, and what it signed for it. -/
structure Signed where
  role : Role
  proposalId : String
  vote : String
  payloadHash : String
  deriving DecidableEq

/-- The proposals, and the votes that the members have signed so far. -/
structure Poll (D : Type) where
  governance : Governance D
  signed : List Signed := []

/-- What happens in a poll: a member signs its vote on a proposal, somebody casts a vote, or
something else changes the swarm. -/
inductive PollAction (D : Type)
  | sign (role : Role) (proposalId vote : String)
  | cast (proposalId role vote signature timestamp : String)
  | swarm (swarm : Swarm D)

namespace Poll

/-- The signature of a member for a proposal under the keys in force. -/
def signatureOf (poll : Poll D) (role : Role) (payloadHash : String) : Session × Option String :=
  generateMemberSignature (D := D) secrets poll.governance.swarm.session role (strValue payloadHash)

def next (poll : Poll D) : PollAction D → Poll D
  | .sign role proposalId vote =>
      match PySequence.getItem poll.governance.proposals proposalId with
      | none => poll
      | some proposal =>
          match poll.signatureOf secrets role proposal.payloadHash with
          | (session, none) =>
              { poll with governance.swarm.session := session }
          | (session, some _) =>
              { governance := { poll.governance with
                  swarm := { poll.governance.swarm with session := session } }
                signed := ⟨role, proposalId, vote, proposal.payloadHash⟩ :: poll.signed }
  | .cast proposalId role vote signature timestamp =>
      { poll with
        governance :=
          (poll.governance.castVote secrets proposalId role vote signature timestamp).1 }
  | .swarm swarm => { poll with governance := { poll.governance with swarm := swarm } }

def run (poll : Poll D) (actions : List (PollAction D)) : Poll D :=
  actions.foldl (next secrets) poll

/-- The right signature of a member over a payload hash is passed only after the member has signed
that payload hash. -/
def Unforged (poll : Poll D) : PollAction D → Prop
  | .cast proposalId role _ signature _ =>
      ∀ proposal member, PySequence.getItem poll.governance.proposals proposalId = some proposal →
        Role.ofName role.toLower = some member →
        (poll.signatureOf secrets member proposal.payloadHash).2 = some signature →
          ∃ signed ∈ poll.signed, signed.role = member ∧ signed.payloadHash = proposal.payloadHash
  | _ => True

/-- The signatures of the members cannot be forged. -/
def Unforgeable : Poll D → List (PollAction D) → Prop
  | _, [] => True
  | poll, action :: actions =>
      poll.Unforged secrets action ∧ Unforgeable (poll.next secrets action) actions

/-- Every recorded vote is of a member that has signed the payload hash of its proposal. -/
def Backed (poll : Poll D) : Prop :=
  ∀ item ∈ poll.governance.proposals, ∀ entry ∈ item.2.votes,
    ∃ signed ∈ poll.signed, signed.role.name = entry.1 ∧ signed.payloadHash = item.2.payloadHash

/-- Every recorded vote is one that the member has signed for the proposal. -/
def VotesSigned (poll : Poll D) : Prop :=
  ∀ item ∈ poll.governance.proposals, ∀ entry ∈ item.2.votes,
    ∃ signed ∈ poll.signed, signed.role.name = entry.1 ∧ signed.proposalId = item.1 ∧
      signed.vote.toLower = entry.2

end Poll

/-! ## One call -/

omit [Interpreter D] [Coercion D] in
lemma role_of_ofName {name : String} {role : Role} (h : Role.ofName name = some role) :
    role.name = name :=
  of_decide_eq_true (@List.find?_some _ (fun r : Role => decide (r.name = name)) role Role.all h)

/-- A counted proposal keeps its payload hash and its votes. -/
lemma count_ok {swarm swarm' : Swarm D} {proposal counted : Proposal D} {timestamp : String}
    (h : Governance.count secrets swarm proposal timestamp = (swarm', some counted)) :
    counted.payloadHash = proposal.payloadHash ∧ counted.votes = proposal.votes := by
  unfold Governance.count at h
  dsimp only at h
  split_ifs at h
  · split at h
    · cases h
    · split at h <;> cases h
      exact ⟨rfl, rfl⟩
  · cases h
    exact ⟨rfl, rfl⟩
  · cases h
    exact ⟨rfl, rfl⟩

/-- What a call that changes the proposals has checked, and what it writes. -/
structure Recorded (g : Governance D) (proposalId role vote signature : String)
    (proposals : List (String × Proposal D)) : Prop where
  recorded : ∃ proposal member counted,
    PySequence.getItem g.proposals proposalId = some proposal ∧
      Role.ofName role.toLower = some member ∧
      (generateMemberSignature (D := D) secrets g.swarm.session member
        (strValue proposal.payloadHash)).2 = some signature ∧
      counted.payloadHash = proposal.payloadHash ∧
      counted.votes = PySequence.setItem proposal.votes role.toLower vote.toLower ∧
      proposals = PySequence.setItem g.proposals proposalId counted

lemma castVote_proposals (g : Governance D) (proposalId role vote signature timestamp : String) :
    (g.castVote secrets proposalId role vote signature timestamp).1.proposals = g.proposals ∨
      Recorded secrets g proposalId role vote signature
        (g.castVote secrets proposalId role vote signature timestamp).1.proposals := by
  unfold Governance.castVote
  cases hproposal : PySequence.getItem g.proposals proposalId with
  | none => exact .inl rfl
  | some proposal =>
      dsimp only
      cases hmember : Role.ofName role.toLower with
      | none => exact .inl rfl
      | some member =>
          dsimp only
          split
          · exact .inl rfl
          · rename_i session expected hexpected
            split_ifs with hsignature
            · exact .inl rfl
            · rw [not_not] at hsignature
              split
              · exact .inl rfl
              · rename_i swarm counted hcount
                obtain ⟨hhash, hvotes⟩ := count_ok secrets hcount
                refine .inr ⟨proposal, member, counted, hproposal, hmember, ?_, hhash, hvotes, rfl⟩
                rw [hexpected, hsignature]

namespace Poll

variable {secrets} {poll : Poll D}

omit [Interpreter D] [Coercion D] in
lemma Backed.sign (h : poll.Backed) (signed : Signed) (governance : Governance D)
    (hproposals : governance.proposals = poll.governance.proposals) :
    Backed ⟨governance, signed :: poll.signed⟩ := by
  intro item hitem entry hentry
  rw [hproposals] at hitem
  obtain ⟨first, hfirst, hbacks⟩ := h item hitem entry hentry
  exact ⟨first, List.mem_cons_of_mem _ hfirst, hbacks⟩

lemma Backed.cast (h : poll.Backed) {proposalId role vote signature timestamp : String}
    (hunforged : poll.Unforged secrets (.cast proposalId role vote signature timestamp)) :
    (poll.next secrets (.cast proposalId role vote signature timestamp)).Backed := by
  rcases castVote_proposals secrets poll.governance proposalId role vote signature timestamp with
    hsame | ⟨proposal, member, counted, hproposal, hmember, hright, hhash, hvotes, hset⟩
  · intro item hitem
    exact h item (hsame ▸ hitem)
  · intro item hitem entry hentry
    rcases PySequence.mem_of_mem_setItem (hset ▸ hitem) with rfl | hitem
    · -- the proposal that is voted on
      rw [hvotes] at hentry
      rcases PySequence.mem_of_mem_setItem hentry with rfl | hentry
      · obtain ⟨signed, hsigned, hrole, hpayload⟩ :=
          hunforged proposal member hproposal hmember hright
        refine ⟨signed, hsigned, ?_, hpayload.trans hhash.symm⟩
        rw [hrole]
        exact role_of_ofName hmember
      · obtain ⟨signed, hsigned, hrole, hpayload⟩ :=
          h (proposalId, proposal) (PySequence.getItem_mem hproposal) entry hentry
        exact ⟨signed, hsigned, hrole, hpayload.trans hhash.symm⟩
    · exact h item hitem entry hentry

/-- One action keeps the votes backed. -/
lemma Backed.next (h : poll.Backed) {action : PollAction D}
    (hunforged : poll.Unforged secrets action) : (poll.next secrets action).Backed := by
  cases action with
  | sign role proposalId vote =>
      unfold Poll.next
      dsimp only
      split
      · exact h
      · split
        · exact h
        · exact h.sign _ _ rfl
  | cast proposalId role vote signature timestamp => exact h.cast hunforged
  | swarm swarm => exact h

/-- In every poll with unforgeable signatures, the votes that are recorded are those of members that
have signed the payload hash. -/
theorem votes_backed {actions : List (PollAction D)} (h : poll.Backed)
    (hunforgeable : poll.Unforgeable secrets actions) : (poll.run secrets actions).Backed := by
  induction actions generalizing poll with
  | nil => exact h
  | cons action actions ih => exact ih (h.next hunforgeable.1) hunforgeable.2

end Poll

/-! ## A replayed signature -/

/-- Two proposals of one rule, with its payload hash, and nobody is quarantined. -/
def twoProposals : Poll Empty where
  governance :=
    { proposals := [("prop_1", { payloadHash := "a1" }), ("prop_2", { payloadHash := "a1" })]
      swarm := {} }

/-- The signature that the first member passes with its approval. -/
def observed : String := (twoProposals.signatureOf testSecrets .ceo "a1").2.getD ""

/-- The member approves the first proposal, and somebody else passes its signature with a rejection
of the second one. -/
def replay : List (PollAction Empty) :=
  [.sign .ceo "prop_1" "approve", .cast "prop_1" "ceo" "approve" observed "t1",
   .cast "prop_2" "ceo" "reject" observed "t2"]

/-- The poll after the member has signed. -/
def signedPoll : Poll Empty := twoProposals.next testSecrets (.sign .ceo "prop_1" "approve")

lemma signed_signedPoll : signedPoll.signed = [⟨.ceo, "prop_1", "approve", "a1"⟩] := by
  decide +kernel

/-- A vote of the member on a proposal with the payload hash is not forged. -/
lemma unforged_of_signed {poll : Poll Empty} (hsigned : poll.signed = signedPoll.signed)
    (hhash : ∀ item ∈ poll.governance.proposals, item.2.payloadHash = "a1")
    (proposalId vote signature timestamp : String) :
    poll.Unforged testSecrets (.cast proposalId "ceo" vote signature timestamp) := by
  intro proposal member hproposal hmember _
  have hceo : Role.ofName "ceo".toLower = some .ceo := by decide +kernel
  rw [hceo] at hmember
  cases hmember
  refine ⟨⟨.ceo, "prop_1", "approve", "a1"⟩, ?_, rfl, ?_⟩
  · rw [hsigned, signed_signedPoll]
    exact List.mem_singleton_self _
  · exact (hhash _ (PySequence.getItem_mem hproposal)).symm

lemma replay_unforgeable : twoProposals.Unforgeable testSecrets replay := by
  refine ⟨trivial, unforged_of_signed rfl (by decide +kernel) _ _ _ _,
    unforged_of_signed ?_ (by decide +kernel) _ _ _ _, trivial⟩
  rfl

theorem replayed_votes_backed : (twoProposals.run testSecrets replay).Backed :=
  Poll.votes_backed (by unfold Poll.Backed; decide) replay_unforgeable

/-- The rejection of the second proposal is recorded, and the member has never signed one. -/
theorem replayed_rejection_recorded :
    twoProposals.VotesSigned ∧ twoProposals.Unforgeable testSecrets replay ∧
      ¬(twoProposals.run testSecrets replay).VotesSigned := by
  refine ⟨by unfold Poll.VotesSigned; decide, replay_unforgeable, fun h => ?_⟩
  have hrecorded : ∃ item ∈ (twoProposals.run testSecrets replay).governance.proposals,
      item.1 = "prop_2" ∧ ("ceo", "reject") ∈ item.2.votes := by decide +kernel
  have hsigned : (twoProposals.run testSecrets replay).signed = signedPoll.signed := rfl
  obtain ⟨item, hitem, hid, hentry⟩ := hrecorded
  obtain ⟨signed, hmem, -, hproposal, -⟩ := h item hitem _ hentry
  rw [hsigned, signed_signedPoll, List.mem_singleton] at hmem
  rw [hmem, hid] at hproposal
  exact absurd hproposal (by decide)

end AgentSystem.Voting
