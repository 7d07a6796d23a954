import AgentSystem.RaftNodeSpec

/-!
# Which quorums meet

`start_election` and `propose_entry` each count a quorum of the peers that are attested when the
call begins. Two counted sets need not be drawn from the same peers. This module says exactly
when they are bound to share a node.
-/
namespace AgentSystem.Raft

/-- What a call fixes at its start: the nodes it addresses, its own node among them, and the
number of nodes it needs. -/
structure Call where
  addressed : List NodeId
  size : ℕ

inductive CallKind where
  | election
  | proposal
  deriving DecidableEq

/-- The call that an input opens on a node. -/
def Input.opens (n : CommitteeRaftNode) : Input → Option (CallKind × Call)
  | .startElection v w => some (.election, ⟨n.nodeId :: n.verifiedPeers v, n.getQuorumSize w⟩)
  | .proposeEntry v w _ _ _ =>
      some (.proposal, ⟨n.nodeId :: n.verifiedPeers w, n.getQuorumSize v⟩)
  | _ => none

/-- The calls that run on a node after an input. -/
def Input.update (n : CommitteeRaftNode) (i : Input) (calls : CallKind → Call) :
    CallKind → Call :=
  match i.opens n with
  | some (kind, k) => Function.update calls kind k
  | none => calls

/-- Every answer of `peers_provider` is the fixed membership. -/
def Input.Within (members : List NodeId) : Input → Prop
  | .startElection v w => v.peers = members ∧ w.peers = members
  | .voteReturned w _ => w.peers = members
  | .proposeEntry v w _ _ _ => v.peers = members ∧ w.peers = members
  | _ => True

/-- The quorum counted by the step with this output: the call won, committed, or raised while it
applied what it had committed. -/
def Output.quorum : Output → List NodeId
  | .elected result => if result.won then result.counted else []
  | .proposed result => if result.ok then result.counted else []
  | .raised _ counted => counted
  | _ => []

/-- The quorums counted by one step, with the call that counted them. -/
def quorums (i : Input) (o : Output) (calls : CallKind → Call) : List (Call × List NodeId) :=
  if o.quorum = [] then []
  else match i with
    | .startElection _ _ | .voteReturned _ _ => [(calls .election, o.quorum)]
    | .proposeEntry _ _ _ _ _ | .appendReturned _ => [(calls .proposal, o.quorum)]
    | _ => []

theorem mem_quorums {i : Input} {o : Output} {calls : CallKind → Call}
    {c : Call × List NodeId} (hc : c ∈ quorums i o calls) : o.quorum ≠ [] ∧
      match i with
      | .startElection _ _ | .voteReturned _ _ => c = (calls .election, o.quorum)
      | .proposeEntry _ _ _ _ _ | .appendReturned _ => c = (calls .proposal, o.quorum)
      | _ => False := by
  unfold quorums at hc
  split_ifs at hc with hne
  · cases hc
  · exact ⟨hne, by cases i <;> simp_all⟩

/-- The quorums counted along a run of one node with a fixed membership, whatever its checker
answers and whatever comes back to it. -/
inductive QuorumHistory (members : List NodeId) :
    Site → (CallKind → Call) → List (Call × List NodeId) → Prop
  | fresh (nodeId : NodeId) : QuorumHistory members (Site.fresh nodeId) (fun _ => ⟨[], 0⟩) []
  | step {s s' : Site} {i : Input} {o : Output} {calls : CallKind → Call}
      {history : List (Call × List NodeId)} (prior : QuorumHistory members s calls history)
      (within : i.Within members) (run : s.step i = some (s', o)) :
      QuorumHistory members s' (i.update s.node calls)
        (history ++ quorums i o (i.update s.node calls))

/-- A call of this node that some view of the membership opens. -/
def Opened (members : List NodeId) (nodeId : NodeId) (k : Call) : Prop :=
  ∃ (n : CommitteeRaftNode) (i : Input), n.nodeId = nodeId ∧ i.Within members ∧
    ∃ kind, i.opens n = some (kind, k)

/-- A set that a call of this node can count as its quorum. -/
structure Countable (members : List NodeId) (nodeId : NodeId) (k : Call) (Q : List NodeId) :
    Prop where
  opened : Opened members nodeId k
  enough : k.size ≤ Q.length
  addressed : List.Sublist Q k.addressed
  own : nodeId ∈ Q

/-- Where a running call stands: what it counted and what it still asks. -/
structure Asking (members : List NodeId) (nodeId : NodeId) (k : Call) (quorum : ℕ)
    (counted rest : List NodeId) : Prop where
  opened : Opened members nodeId k
  size : quorum = k.size
  addressed : List.Sublist (counted ++ rest) k.addressed
  own : nodeId ∈ counted

section Asking

variable {members : List NodeId} {nodeId : NodeId} {k : Call} {quorum : ℕ}
variable {counted rest : List NodeId} {p : NodeId}

theorem Asking.skip (h : Asking members nodeId k quorum counted (p :: rest)) :
    Asking members nodeId k quorum counted rest :=
  ⟨h.opened, h.size,
    ((List.Sublist.refl counted).append (List.sublist_cons_self p rest)).trans h.addressed, h.own⟩

theorem Asking.count (h : Asking members nodeId k quorum counted (p :: rest)) :
    Asking members nodeId k quorum (counted ++ [p]) rest :=
  ⟨h.opened, h.size, by rw [List.append_assoc]; exact h.addressed,
    List.mem_append_left _ h.own⟩

theorem Asking.countable (h : Asking members nodeId k quorum counted rest)
    (hquorum : quorum ≤ counted.length) : Countable members nodeId k counted :=
  ⟨h.opened, h.size ▸ hquorum, (List.sublist_append_left _ _).trans h.addressed, h.own⟩

end Asking

/-- What holds of a round of the vote loop, or of its end. -/
def ElectionOk (members : List NodeId) (n : CommitteeRaftNode) (k : Call) :
    Progress Election ElectionResult → Prop
  | .waiting c => Asking members n.nodeId k c.quorum c.voters (c.awaiting :: c.remaining) ∧
      n.role ≠ .leader
  | .finished result => result.won = true → Countable members n.nodeId k result.counted
  | .raised _ counted => counted = []

/-- The same of the replication loop. -/
def ProposalOk (members : List NodeId) (nodeId : NodeId) (k : Call) :
    Progress Proposal ProposeResult → Prop
  | .waiting c => Asking members nodeId k c.quorum c.ackers (c.awaiting :: c.remaining)
  | .finished result => result.ok = true → Countable members nodeId k result.counted
  | .raised _ counted => counted = [] ∨ Countable members nodeId k counted

section Progress

variable {members : List NodeId} {n : CommitteeRaftNode} {k : Call}

theorem electionOk_nextVote {args : RequestVoteArgs} {quorum : ℕ} {voters rest : List NodeId}
    (h : Asking members n.nodeId k quorum voters rest) (hrole : n.role ≠ .leader) :
    ElectionOk members n k (n.nextVote args quorum voters rest) := by
  cases rest with
  | nil => exact fun hwon => absurd (of_decide_eq_true hwon) hrole
  | cons p rest => exact ⟨h, hrole⟩

theorem electionOk_startElection {v w : View}
    (hopen : Opened members n.nodeId ⟨n.nodeId :: n.verifiedPeers v, n.getQuorumSize w⟩) :
    ElectionOk members (n.startElection v w).1
      ⟨n.nodeId :: n.verifiedPeers v, n.getQuorumSize w⟩ (n.startElection v w).2 := by
  have hasking : Asking members n.nodeId ⟨n.nodeId :: n.verifiedPeers v, n.getQuorumSize w⟩
      (n.getQuorumSize w) [n.nodeId] (n.verifiedPeers v) :=
    ⟨hopen, rfl, List.Sublist.refl _, List.mem_singleton_self _⟩
  rcases n.startElection_cases v w with ⟨hone, heq⟩ | ⟨_, _, heq⟩ | ⟨_, _, _, heq⟩
  · rw [heq]
    exact fun _ => hasking.countable hone
  · rw [heq]
    rfl
  · rw [heq]
    refine electionOk_nextVote hasking ?_
    intro h
    cases h

theorem electionOk_voteReturned {c : Election} {w : View} {reply : Option RequestVoteReply}
    (h : Asking members n.nodeId k c.quorum c.voters (c.awaiting :: c.remaining))
    (hrole : n.role ≠ .leader) :
    ElectionOk members (n.voteReturned c w reply).1 k (n.voteReturned c w reply).2 := by
  rcases n.voteReturned_cases c w reply with
    ⟨_, _, _, heq⟩ | ⟨_, _, _, _, hquorum, _, heq⟩ | ⟨voters, hvoters, heq⟩
  · rw [heq]
    intro hwon
    cases hwon
  · rw [heq]
    exact fun _ => h.count.countable (by simpa using hquorum)
  · rw [heq]
    rcases hvoters with rfl | ⟨rfl, _⟩
    · exact electionOk_nextVote h.skip hrole
    · exact electionOk_nextVote h.count hrole

theorem proposalOk_nextAppend {nodeId : NodeId} {newIndex : ℤ} {entry : CommitteeLogEntry}
    {quorum : ℕ} {ackers rest : List NodeId} (h : Asking members nodeId k quorum ackers rest) :
    ProposalOk members nodeId k (n.nextAppend newIndex entry quorum ackers rest).2 := by
  rcases n.nextAppend_cases newIndex entry quorum ackers rest with
    ⟨_, hquorum, _, heq | ⟨_, heq⟩⟩ | ⟨_, _, _, heq⟩ | ⟨_, _, _, _, _, heq⟩ | ⟨_, _, _, hrest, _, heq⟩
  · rw [heq]
    exact fun _ => h.countable hquorum
  · rw [heq]
    exact Or.inr (h.countable hquorum)
  · rw [heq]
    intro hok
    cases hok
  · rw [heq]
    exact Or.inl rfl
  · rw [heq]
    subst hrest
    exact h

theorem proposalOk_proposeEntry {v w : View} {entryType : CommitteeEntryType}
    {payload : Payload} {author : Option NodeId}
    (hopen : Opened members n.nodeId ⟨n.nodeId :: n.verifiedPeers w, n.getQuorumSize v⟩) :
    ProposalOk members n.nodeId ⟨n.nodeId :: n.verifiedPeers w, n.getQuorumSize v⟩
      (n.proposeEntry v w entryType payload author).2 := by
  rcases n.proposeEntry_cases v w entryType payload author with ⟨_, _, heq⟩ | ⟨_, heq⟩
  · rw [heq]
    intro hok
    cases hok
  · rw [heq]
    exact proposalOk_nextAppend
      ⟨hopen, rfl, List.Sublist.refl _, List.mem_singleton_self _⟩

theorem proposalOk_appendReturned {c : Proposal} {reply : Option AppendEntriesReply}
    {nodeId : NodeId}
    (h : Asking members nodeId k c.quorum c.ackers (c.awaiting :: c.remaining)) :
    ProposalOk members nodeId k (n.appendReturned c reply).2 := by
  rcases n.appendReturned_cases c reply with ⟨_, _, _, heq⟩ | ⟨_, heq⟩
  · rw [heq]
    intro hok
    cases hok
  · rw [heq]
    refine proposalOk_nextAppend ?_
    unfold Proposal.counted
    split_ifs
    · exact h.count
    · exact h.skip

end Progress

/-- Where the calls in progress on a node stand. -/
structure CallsInv (members : List NodeId) (s : Site) (calls : CallKind → Call) : Prop where
  role : s.election.isSome → s.node.role ≠ .leader
  election : ∀ c, s.election = some c →
    Asking members s.node.nodeId (calls .election) c.quorum c.voters (c.awaiting :: c.remaining)
  proposal : ∀ c, s.proposal = some c →
    Asking members s.node.nodeId (calls .proposal) c.quorum c.ackers (c.awaiting :: c.remaining)

section Step

variable {members : List NodeId} {s s' : Site} {o : Output} {calls : CallKind → Call}

theorem CallsInv.afterElection {r : CommitteeRaftNode × Progress Election ElectionResult}
    (h : CallsInv members s calls) (calls' : CallKind → Call)
    (run : s.afterElection r = (s', o))
    (hid : r.1.nodeId = s.node.nodeId) (hother : calls' .proposal = calls .proposal)
    (hok : ElectionOk members r.1 (calls' .election) r.2) :
    CallsInv members s' calls' ∧
      (o.quorum ≠ [] → Countable members s.node.nodeId (calls' .election) o.quorum) := by
  have hproposal : ∀ c, s.proposal = some c →
      Asking members r.1.nodeId (calls' .proposal) c.quorum c.ackers (c.awaiting :: c.remaining) :=
    fun c hc => by rw [hid, hother]; exact h.proposal c hc
  rcases Site.afterElection_cases run with
    ⟨c, hr, rfl, rfl⟩ | ⟨result, hr, rfl, rfl⟩ | ⟨_, counted, hr, rfl, rfl⟩
  · rw [hr] at hok
    exact ⟨⟨fun _ => hok.2, by rintro _ ⟨⟩; exact hok.1, hproposal⟩, fun hne => absurd rfl hne⟩
  · rw [hr] at hok
    refine ⟨⟨by rintro ⟨⟩, by rintro _ ⟨⟩, hproposal⟩, fun hne => ?_⟩
    unfold Output.quorum at hne ⊢
    dsimp only at hne ⊢
    by_cases hwon : result.won = true
    · rw [if_pos hwon, ← hid]
      exact hok hwon
    · exact absurd (if_neg hwon) hne
  · rw [hr] at hok
    exact ⟨⟨by rintro ⟨⟩, by rintro _ ⟨⟩, hproposal⟩, fun hne => absurd hok hne⟩

theorem CallsInv.afterProposal {r : CommitteeRaftNode × Progress Proposal ProposeResult}
    (h : CallsInv members s calls) (calls' : CallKind → Call)
    (run : s.afterProposal r = (s', o))
    (hid : r.1.nodeId = s.node.nodeId)
    (hrole : r.1.role = s.node.role ∨ r.1.role = .follower)
    (hother : calls' .election = calls .election)
    (hok : ProposalOk members s.node.nodeId (calls' .proposal) r.2) :
    CallsInv members s' calls' ∧
      (o.quorum ≠ [] → Countable members s.node.nodeId (calls' .proposal) o.quorum) := by
  have helection : ∀ c, s.election = some c →
      Asking members r.1.nodeId (calls' .election) c.quorum c.voters (c.awaiting :: c.remaining) :=
    fun c hc => by rw [hid, hother]; exact h.election c hc
  have hleader : s.election.isSome → r.1.role ≠ .leader := by
    intro hsome
    rcases hrole with hrole | hrole
    · exact hrole ▸ h.role hsome
    · rw [hrole]
      intro hc
      cases hc
  rcases Site.afterProposal_cases run with
    ⟨c, hr, rfl, rfl⟩ | ⟨result, hr, rfl, rfl⟩ | ⟨_, counted, hr, rfl, rfl⟩
  · rw [hr] at hok
    exact ⟨⟨hleader, helection, by rintro _ ⟨⟩; exact hid ▸ hok⟩, fun hne => absurd rfl hne⟩
  · rw [hr] at hok
    refine ⟨⟨hleader, helection, by rintro _ ⟨⟩⟩, fun hne => ?_⟩
    unfold Output.quorum at hne ⊢
    dsimp only at hne ⊢
    by_cases hyes : result.ok = true
    · rw [if_pos hyes]
      exact hok hyes
    · exact absurd (if_neg hyes) hne
  · rw [hr] at hok
    exact ⟨⟨hleader, helection, by rintro _ ⟨⟩⟩, fun hne => hok.resolve_left hne⟩

/-- A handler leaves the calls in progress where they stand. -/
theorem CallsInv.handler {m : CommitteeRaftNode} (h : CallsInv members s calls)
    (hid : m.nodeId = s.node.nodeId) (hrole : m.role = s.node.role ∨ m.role = .follower) :
    CallsInv members { s with node := m } calls := by
  refine ⟨fun hsome => ?_, fun c hc => hid ▸ h.election c hc, fun c hc => hid ▸ h.proposal c hc⟩
  rcases hrole with hrole | hrole
  · exact hrole ▸ h.role hsome
  · rw [hrole]
    intro hc
    cases hc

/-- One step: the calls in progress stay in place, and what is counted is countable. -/
theorem CallsInv.step {i : Input} (h : CallsInv members s calls) (within : i.Within members)
    (run : s.step i = some (s', o)) :
    CallsInv members s' (i.update s.node calls) ∧
      ∀ c ∈ quorums i o (i.update s.node calls),
        Countable members s.node.nodeId c.1 c.2 := by
  have hid := Site.step_nodeId run
  have hrole := Site.step_role run
  cases i with
  | startElection v w =>
    have hrun := (Site.step_startElection run).2
    rw [Site.afterElection_node hrun] at hid
    obtain ⟨hinv, hnew⟩ := h.afterElection
      (Input.update s.node (.startElection v w) calls) hrun hid
      (by simp [Input.update, Input.opens])
      (by
        have hopen : Opened members s.node.nodeId _ := 
          ⟨s.node, .startElection v w, rfl, within, _, rfl⟩
        simpa [Input.update, Input.opens] using electionOk_startElection hopen)
    refine ⟨hinv, fun c hc => ?_⟩
    obtain ⟨hne, heq⟩ := mem_quorums hc
    rw [show c = _ from heq]
    exact hnew hne
  | voteReturned w reply =>
    obtain ⟨e, he, hrun⟩ := Site.step_voteReturned run
    rw [Site.afterElection_node hrun] at hid
    obtain ⟨hinv, hnew⟩ := h.afterElection calls hrun hid rfl
      (electionOk_voteReturned (h.election e he) (h.role (by rw [he]; rfl)))
    refine ⟨hinv, fun c hc => ?_⟩
    obtain ⟨hne, heq⟩ := mem_quorums hc
    rw [show c = _ from heq]
    exact hnew hne
  | proposeEntry v w entryType payload author =>
    have hrun := (Site.step_proposeEntry run).2
    rw [Site.afterProposal_node hrun] at hid hrole
    obtain ⟨hinv, hnew⟩ := h.afterProposal
      (Input.update s.node (.proposeEntry v w entryType payload author) calls)
      hrun hid (by simpa using hrole) (by simp [Input.update, Input.opens])
      (by
        have hopen : Opened members s.node.nodeId _ :=
          ⟨s.node, .proposeEntry v w entryType payload author, rfl, within, _, rfl⟩
        simpa [Input.update, Input.opens] using proposalOk_proposeEntry hopen)
    refine ⟨hinv, fun c hc => ?_⟩
    obtain ⟨hne, heq⟩ := mem_quorums hc
    rw [show c = _ from heq]
    exact hnew hne
  | appendReturned reply =>
    obtain ⟨e, he, hrun⟩ := Site.step_appendReturned run
    rw [Site.afterProposal_node hrun] at hid hrole
    obtain ⟨hinv, hnew⟩ := h.afterProposal calls hrun hid (by simpa using hrole) rfl
      (proposalOk_appendReturned (h.proposal e he))
    refine ⟨hinv, fun c hc => ?_⟩
    obtain ⟨hne, heq⟩ := mem_quorums hc
    rw [show c = _ from heq]
    exact hnew hne
  | requestVote blocked v args =>
    obtain ⟨rfl, _⟩ := Site.afterVote_cases (Site.step_requestVote run)
    refine ⟨h.handler hid (by simpa using hrole), fun c hc => ?_⟩
    exact absurd (mem_quorums hc).2 id
  | appendEntries blocked v args =>
    obtain ⟨rfl, _⟩ := Site.afterAppend_cases (Site.step_appendEntries run)
    refine ⟨h.handler hid (by simpa using hrole), fun c hc => ?_⟩
    exact absurd (mem_quorums hc).2 id

end Step

/-- Every quorum of a run is one that its call could count. -/
theorem QuorumHistory.countable {members : List NodeId} {s : Site} {calls : CallKind → Call}
    {history : List (Call × List NodeId)} (h : QuorumHistory members s calls history) :
    ∀ c ∈ history, Countable members s.node.nodeId c.1 c.2 := by
  have hall : CallsInv members s calls ∧
      ∀ c ∈ history, Countable members s.node.nodeId c.1 c.2 := by
    induction h with
    | fresh nodeId => exact ⟨⟨by rintro ⟨⟩, by rintro _ ⟨⟩, by rintro _ ⟨⟩⟩, by simp⟩
    | @step s s' i o calls history _ within run ih =>
      obtain ⟨hinv, hold⟩ := ih
      obtain ⟨hinv', hnew⟩ := hinv.step within run
      refine ⟨hinv', fun c hc => ?_⟩
      rw [Site.step_nodeId run]
      rcases List.mem_append.mp hc with hc | hc
      · exact hold c hc
      · exact hnew c hc
  exact hall.2

/-- Some run of the node counts this set for this call. -/
def CountedBy (members : List NodeId) (nodeId : NodeId) (k : Call) (Q : List NodeId) : Prop :=
  ∃ s calls history, QuorumHistory members s calls history ∧ s.node.nodeId = nodeId ∧
    (k, Q) ∈ history

/-- When sets that two calls count cannot miss each other: the calls run on one node, or one call
needs more nodes than it addresses besides the other node, or together they need more nodes than
they address. -/
def Overlapping (n₁ : NodeId) (k₁ : Call) (n₂ : NodeId) (k₂ : Call) : Prop :=
  n₁ = n₂ ∨ (k₁.addressed.toFinset.erase n₂).card < k₁.size ∨
    (k₂.addressed.toFinset.erase n₁).card < k₂.size ∨
    (k₁.addressed.toFinset ∪ k₂.addressed.toFinset).card < k₁.size + k₂.size

section Overlap

variable {members : List NodeId} {n n₁ n₂ : NodeId} {k k₁ k₂ : Call} {Q Q₁ Q₂ : List NodeId}

/-- An opened call addresses different nodes, its own among them, and needs at least one. It is
also the call of an election. -/
theorem Opened.spec (hnodup : members.Nodup) (h : Opened members n k) :
    k.addressed.Nodup ∧ n ∈ k.addressed ∧ 0 < k.size ∧
      ∃ v w : View, v.peers = members ∧ w.peers = members ∧
        Input.opens { nodeId := n } (.startElection v w) = some (.election, k) := by
  obtain ⟨m, i, rfl, within, kind, hopens⟩ := h
  cases i with
  | startElection v w =>
    obtain ⟨rfl, rfl⟩ := Prod.mk.inj (Option.some.inj hopens)
    exact ⟨CommitteeRaftNode.verifiedPeers_nodup hnodup within.1, List.mem_cons_self, Nat.succ_pos _,
      v, w, within.1, within.2, rfl⟩
  | proposeEntry v w entryType payload author =>
    obtain ⟨rfl, rfl⟩ := Prod.mk.inj (Option.some.inj hopens)
    exact ⟨CommitteeRaftNode.verifiedPeers_nodup hnodup within.2, List.mem_cons_self, Nat.succ_pos _,
      w, v, within.2, within.1, rfl⟩
  | _ => cases hopens

theorem Countable.meet (hnodup : members.Nodup) (h₁ : Countable members n₁ k₁ Q₁)
    (h₂ : Countable members n₂ k₂ Q₂) (hover : Overlapping n₁ k₁ n₂ k₂) :
    ∃ n ∈ Q₁, n ∈ Q₂ := by
  by_contra hmiss
  have hdisjoint : Disjoint Q₁.toFinset Q₂.toFinset := by
    refine Finset.disjoint_left.mpr fun x hx hx' => hmiss ⟨x, ?_, ?_⟩
    · exact List.mem_toFinset.mp hx
    · exact List.mem_toFinset.mp hx'
  have hcard : ∀ {n k Q}, Countable members n k Q → k.size ≤ Q.toFinset.card := by
    intro n k Q h
    have hQ : Q.Nodup := h.addressed.nodup (h.opened.spec hnodup).1
    rw [List.toFinset_card_of_nodup hQ]
    exact h.enough
  have hsub : ∀ {n k Q}, Countable members n k Q → Q.toFinset ⊆ k.addressed.toFinset := by
    intro n k Q h x hx
    exact List.mem_toFinset.mpr (h.addressed.subset (List.mem_toFinset.mp hx))
  have herase : ∀ {n k Q m}, Countable members n k Q → m ∉ Q →
      k.size ≤ (k.addressed.toFinset.erase m).card := by
    intro n k Q m h hm
    refine (hcard h).trans (Finset.card_le_card (Finset.subset_erase.mpr ⟨hsub h, ?_⟩))
    exact fun hx => hm (List.mem_toFinset.mp hx)
  rcases hover with rfl | hlt | hlt | hlt
  · exact hmiss ⟨n₁, h₁.own, h₂.own⟩
  · exact absurd (herase h₁ fun hx => hmiss ⟨n₂, hx, h₂.own⟩) (not_le.mpr hlt)
  · exact absurd (herase h₂ fun hx => hmiss ⟨n₁, h₁.own, hx⟩) (not_le.mpr hlt)
  · have hunion := Finset.card_le_card (Finset.union_subset_union (hsub h₁) (hsub h₂))
    rw [Finset.card_union_of_disjoint hdisjoint] at hunion
    have := hcard h₁
    have := hcard h₂
    omega

/-- One round of an election in a run. -/
theorem QuorumHistory.round {s : Site} {calls : CallKind → Call}
    {history : List (Call × List NodeId)} (h : QuorumHistory members s calls history)
    {c : Election} (hc : s.election = some c) (reply : Option RequestVoteReply) :
    QuorumHistory members
      (s.afterElection (s.node.voteReturned c (.full members) reply)).1 calls
      (history ++ quorums (.voteReturned (.full members) reply)
        (s.afterElection (s.node.voteReturned c (.full members) reply)).2 calls) :=
  h.step (i := .voteReturned (.full members) reply) rfl (by simp [Site.step, hc])

/-- An election whose peers grant exactly the votes in `S`, just enough, counts them. -/
theorem QuorumHistory.ask {S : Finset NodeId} {calls : CallKind → Call} (rest : List NodeId)
    {s : Site} {history : List (Call × List NodeId)} (h : QuorumHistory members s calls history)
    {c : Election} (hc : s.election = some c) (hrest : c.remaining = rest)
    (hrole : s.node.role = .candidate) (hfew : c.voters.length < c.quorum)
    (hexact : c.voters.length + ((c.awaiting :: rest).filter (· ∈ S)).length = c.quorum) :
    CountedBy members s.node.nodeId (calls .election)
      (c.voters ++ (c.awaiting :: rest).filter (· ∈ S)) := by
  induction rest generalizing s history c with
  | nil =>
    -- the last peer asked completes the quorum
    have hgrant : c.awaiting ∈ S := by
      by_contra hno
      simp [hno] at hexact
      omega
    have hround := h.round hc (some ⟨s.node.currentTerm, true, c.awaiting, none⟩)
    have hrun : s.node.voteReturned c (.full members)
        (some ⟨s.node.currentTerm, true, c.awaiting, none⟩) =
        (s.node.becomeLeader (.full members), .finished ⟨true, c.voters ++ [c.awaiting]⟩) := by
      simp only [hgrant, List.filter_cons, decide_true, if_true, List.filter_nil,
        List.length_singleton] at hexact
      simp [CommitteeRaftNode.voteReturned, hrole, hexact.ge]
    rw [hrun] at hround
    refine ⟨_, _, _, hround, rfl, ?_⟩
    simp [Site.afterElection, quorums, Output.quorum, hgrant]
  | cons p rest ih =>
    by_cases hgrant : c.awaiting ∈ S
    · have hround := h.round hc (some ⟨s.node.currentTerm, true, c.awaiting, none⟩)
      by_cases hdone : c.quorum ≤ c.voters.length + 1
      · have hrun : s.node.voteReturned c (.full members)
            (some ⟨s.node.currentTerm, true, c.awaiting, none⟩) =
            (s.node.becomeLeader (.full members),
              .finished ⟨true, c.voters ++ [c.awaiting]⟩) := by
          simp [CommitteeRaftNode.voteReturned, hrole, hdone]
        have hnone : (p :: rest).filter (· ∈ S) = [] := by
          rw [List.filter_cons_of_pos (by simpa using hgrant), List.length_cons] at hexact
          exact List.length_eq_zero_iff.mp (by omega)
        rw [hrun] at hround
        refine ⟨_, _, _, hround, rfl, ?_⟩
        rw [List.filter_cons_of_pos (by simpa using hgrant), hnone]
        simp [Site.afterElection, quorums, Output.quorum]
      · have hrun : s.node.voteReturned c (.full members)
            (some ⟨s.node.currentTerm, true, c.awaiting, none⟩) =
            (s.node, .waiting ⟨c.args, c.quorum, c.voters ++ [c.awaiting], p, rest⟩) := by
          simp [CommitteeRaftNode.voteReturned, CommitteeRaftNode.nextVote, hrest, hdone]
        rw [hrun] at hround
        have hnext := ih hround rfl rfl hrole (by simpa using hdone) (by
          rw [List.filter_cons_of_pos (by simpa using hgrant), List.length_cons] at hexact
          simp only [List.length_append, List.length_singleton]
          omega)
        rw [List.filter_cons_of_pos (by simpa using hgrant)]
        simpa [Site.afterElection] using hnext
    · have hround := h.round hc none
      have hrun : s.node.voteReturned c (.full members) none =
          (s.node, .waiting ⟨c.args, c.quorum, c.voters, p, rest⟩) := by
        simp [CommitteeRaftNode.voteReturned, CommitteeRaftNode.nextVote, hrest]
      rw [hrun] at hround
      rw [List.filter_cons_of_neg (by simpa using hgrant)] at hexact ⊢
      exact ih hround rfl rfl hrole hfew hexact

/-- Any set of just the needed size that an opened call addresses, with its own node, can come
to be counted. -/
theorem Opened.counted (hnodup : members.Nodup) (h : Opened members n k) {S : Finset NodeId}
    (hS : S ⊆ k.addressed.toFinset) (hn : n ∈ S) (hcard : S.card = k.size) :
    ∃ Q, CountedBy members n k Q ∧ ∀ x ∈ Q, x ∈ S := by
  obtain ⟨hdistinct, _, _, v, w, hv, hw, hopens⟩ := h.spec hnodup
  obtain ⟨-, rfl⟩ := Prod.mk.inj (Option.some.inj hopens)
  set m : CommitteeRaftNode := { nodeId := n } with hm
  set calls := Input.update m (.startElection v w) (fun _ => ⟨[], 0⟩) with hcalls
  have hcall : calls .election = ⟨n :: m.verifiedPeers v, m.getQuorumSize w⟩ := by
    simp [hcalls, Input.update, Input.opens, hm]
  have hstart : QuorumHistory members ((Site.fresh n).afterElection (m.startElection v w)).1 calls
      ([] ++ quorums (.startElection v w)
        ((Site.fresh n).afterElection (m.startElection v w)).2 calls) :=
    (QuorumHistory.fresh n).step (i := .startElection v w) ⟨hv, hw⟩ rfl
  have hsize : ((n :: m.verifiedPeers v).filter (· ∈ S)).length = m.getQuorumSize w := by
    have hsame : ((n :: m.verifiedPeers v).filter (· ∈ S)).toFinset = S := by
      rw [List.toFinset_filter]
      ext x
      simp only [Finset.mem_filter, decide_eq_true_eq, and_iff_right_iff_imp]
      exact fun hx => hS hx
    rw [← List.toFinset_card_of_nodup (hdistinct.filter _), hsame]
    exact hcard
  have hself : (n :: m.verifiedPeers v).filter (· ∈ S) =
      n :: (m.verifiedPeers v).filter (· ∈ S) := List.filter_cons_of_pos (by simpa using hn)
  rw [hself, List.length_cons] at hsize
  have hmem : ∀ x ∈ n :: (m.verifiedPeers v).filter (· ∈ S), x ∈ S := by
    intro x hx
    rw [← hself] at hx
    simpa using (List.mem_filter.mp hx).2
  rcases m.startElection_cases v w with ⟨hone, hrun⟩ | ⟨_, hempty, _⟩ | ⟨hmore, last, _, hrun⟩
  · rw [hrun] at hstart
    have hcount : CountedBy members n (calls .election) [n] := by
      refine ⟨_, _, _, hstart, rfl, ?_⟩
      simp [Site.afterElection, quorums, Output.quorum, hm]
    exact ⟨[n], hcall ▸ hcount, by simpa using hn⟩
  · cases hempty
  · refine ⟨n :: (m.verifiedPeers v).filter (· ∈ S), ?_, hmem⟩
    cases hpeers : m.verifiedPeers v with
    | nil =>
      rw [hpeers] at hsize
      simp only [List.filter_nil, List.length_nil] at hsize
      omega
    | cons p rest =>
      rw [hrun, hpeers] at hstart
      have hcount := hstart.ask (S := S) rest rfl rfl rfl hmore (by
        rw [hpeers] at hsize
        simp only [List.length_singleton]
        omega)
      rw [hpeers] at hcall
      rw [hcall] at hcount
      exact hcount

/-- Two disjoint sets with a chosen node each can be cut out of two sets as soon as there is room
for each of them and for both. -/
theorem exists_disjoint_subsets {α : Type*} [DecidableEq α] {V W : Finset α} {a b : α}
    {p q : ℕ} (ha : a ∈ V) (haW : a ∉ W) (hb : b ∈ W) (hbV : b ∉ V) (hp : 0 < p) (hq : 0 < q)
    (hpV : p ≤ V.card) (hqW : q ≤ W.card) (hroom : p + q ≤ (V ∪ W).card) :
    ∃ P ⊆ V, ∃ R ⊆ W, a ∈ P ∧ b ∈ R ∧ P.card = p ∧ R.card = q ∧ Disjoint P R := by
  rcases le_total p (V \ W).card with hle | hle
  · obtain ⟨P, haP, hPV, hP⟩ := Finset.exists_subsuperset_card_eq
      (Finset.singleton_subset_iff.mpr (Finset.mem_sdiff.mpr ⟨ha, haW⟩)) (by rwa [Finset.card_singleton]) hle
    obtain ⟨R, hbR, hRW, hR⟩ := Finset.exists_subsuperset_card_eq
      (Finset.singleton_subset_iff.mpr hb) (by rwa [Finset.card_singleton]) hqW
    refine ⟨P, hPV.trans Finset.sdiff_subset, R, hRW, Finset.singleton_subset_iff.mp haP,
      Finset.singleton_subset_iff.mp hbR, hP, hR, ?_⟩
    exact Finset.disjoint_left.mpr fun x hx hx' => (Finset.mem_sdiff.mp (hPV hx)).2 (hRW hx')
  · -- the first set takes all that the second cannot use, and some of what both could
    obtain ⟨P, hVP, hPV, hP⟩ := Finset.exists_subsuperset_card_eq
      (Finset.sdiff_subset (s := V) (t := W)) hle hpV
    have hunion : V ∪ W = P ∪ W \ P := by
      rw [Finset.union_sdiff_self_eq_union]
      refine Finset.Subset.antisymm (Finset.union_subset (fun x hx => ?_)
        Finset.subset_union_right) (Finset.union_subset_union_left hPV)
      by_cases hxW : x ∈ W
      · exact Finset.mem_union_right _ hxW
      · exact Finset.mem_union_left _ (hVP (Finset.mem_sdiff.mpr ⟨hx, hxW⟩))
    have hleft : q ≤ (W \ P).card := by
      rw [hunion, Finset.card_union_of_disjoint Finset.disjoint_sdiff] at hroom
      omega
    obtain ⟨R, hbR, hRW, hR⟩ := Finset.exists_subsuperset_card_eq
      (Finset.singleton_subset_iff.mpr (Finset.mem_sdiff.mpr ⟨hb, fun h => hbV (hPV h)⟩))
      (by rwa [Finset.card_singleton]) hleft
    refine ⟨P, hPV, R, hRW.trans Finset.sdiff_subset, hVP (Finset.mem_sdiff.mpr ⟨ha, haW⟩),
      Finset.singleton_subset_iff.mp hbR, hP, hR, ?_⟩
    exact Finset.disjoint_left.mpr fun x hx hx' => (Finset.mem_sdiff.mp (hRW hx')).2 hx

/-- For two calls that nodes open in views of one membership, the sets they count are bound to
meet exactly if the calls overlap. -/
theorem quorums_meet_iff (hnodup : members.Nodup) (h₁ : Opened members n₁ k₁)
    (h₂ : Opened members n₂ k₂) :
    (∀ Q₁ Q₂, CountedBy members n₁ k₁ Q₁ → CountedBy members n₂ k₂ Q₂ → ∃ n ∈ Q₁, n ∈ Q₂) ↔
      Overlapping n₁ k₁ n₂ k₂ := by
  constructor
  · intro hmeet
    by_contra hover
    unfold Overlapping at hover
    push Not at hover
    obtain ⟨hne, hroom₁, hroom₂, hroom⟩ := hover
    obtain ⟨_, hn₁, hpos₁, _⟩ := h₁.spec hnodup
    obtain ⟨_, hn₂, hpos₂, _⟩ := h₂.spec hnodup
    have hin₁ : n₁ ∈ k₁.addressed.toFinset.erase n₂ :=
      Finset.mem_erase.mpr ⟨hne, List.mem_toFinset.mpr hn₁⟩
    have hin₂ : n₂ ∈ k₂.addressed.toFinset.erase n₁ :=
      Finset.mem_erase.mpr ⟨hne.symm, List.mem_toFinset.mpr hn₂⟩
    have hunion : k₁.addressed.toFinset.erase n₂ ∪ k₂.addressed.toFinset.erase n₁ =
        k₁.addressed.toFinset ∪ k₂.addressed.toFinset := by
      ext x
      simp only [Finset.mem_union, Finset.mem_erase, List.mem_toFinset]
      constructor
      · rintro (⟨_, hx⟩ | ⟨_, hx⟩)
        · exact Or.inl hx
        · exact Or.inr hx
      · intro hx
        by_cases hx₁ : x = n₁
        · exact Or.inl ⟨hx₁ ▸ hne, hx₁ ▸ hn₁⟩
        · by_cases hx₂ : x = n₂
          · exact Or.inr ⟨hx₁, hx₂ ▸ hn₂⟩
          · exact hx.imp (fun h => ⟨hx₂, h⟩) fun h => ⟨hx₁, h⟩
    obtain ⟨P, hPV, R, hRW, hP, hR, hPcard, hRcard, hdisjoint⟩ :=
      exists_disjoint_subsets hin₁ (Finset.notMem_erase _ _) hin₂ (Finset.notMem_erase _ _)
        hpos₁ hpos₂ hroom₁ hroom₂ (hunion ▸ hroom)
    obtain ⟨Q₁, hQ₁, hsub₁⟩ :=
      h₁.counted hnodup (hPV.trans (Finset.erase_subset _ _)) hP hPcard
    obtain ⟨Q₂, hQ₂, hsub₂⟩ :=
      h₂.counted hnodup (hRW.trans (Finset.erase_subset _ _)) hR hRcard
    obtain ⟨x, hx₁, hx₂⟩ := hmeet Q₁ Q₂ hQ₁ hQ₂
    exact Finset.disjoint_left.mp hdisjoint (hsub₁ x hx₁) (hsub₂ x hx₂)
  · rintro hover Q₁ Q₂ ⟨s₁, _, _, hrun₁, rfl, hmem₁⟩ ⟨s₂, _, _, hrun₂, rfl, hmem₂⟩
    exact (hrun₁.countable _ hmem₁).meet hnodup (hrun₂.countable _ hmem₂) hover

/-- Three nodes that attest one another count sets that meet. -/
theorem quorums_meet_iff_trio : ["a", "b", "c"].Nodup ∧
    ∀ Q₁ Q₂, CountedBy ["a", "b", "c"] "a" ⟨["a", "b", "c"], 2⟩ Q₁ →
      CountedBy ["a", "b", "c"] "b" ⟨["b", "a", "c"], 2⟩ Q₂ → ∃ n ∈ Q₁, n ∈ Q₂ := by
  have hopen₁ : Opened ["a", "b", "c"] "a" ⟨["a", "b", "c"], 2⟩ :=
    ⟨{ nodeId := "a" }, .startElection (.full ["a", "b", "c"]) (.full ["a", "b", "c"]), rfl,
      ⟨rfl, rfl⟩, .election, rfl⟩
  have hopen₂ : Opened ["a", "b", "c"] "b" ⟨["b", "a", "c"], 2⟩ :=
    ⟨{ nodeId := "b" }, .startElection (.full ["a", "b", "c"]) (.full ["a", "b", "c"]), rfl,
      ⟨rfl, rfl⟩, .election, rfl⟩
  have hnodup : ["a", "b", "c"].Nodup := by decide
  exact ⟨hnodup, (quorums_meet_iff hnodup hopen₁ hopen₂).mpr
    (Or.inr (Or.inr (Or.inr (by decide))))⟩

/-- Two nodes that attest nobody else. -/
def estranged : View := ⟨["a", "b"], fun _ => false⟩

/-- Two nodes that do not attest each other are each a quorum of their own. -/
theorem quorums_miss : ¬ ∀ (members : List NodeId) n₁ n₂ k₁ k₂ Q₁ Q₂, members.Nodup →
    CountedBy members n₁ k₁ Q₁ → CountedBy members n₂ k₂ Q₂ → ∃ n ∈ Q₁, n ∈ Q₂ := by
  intro hmeet
  have ha : CountedBy ["a", "b"] "a" ⟨["a"], 1⟩ ["a"] :=
    ⟨_, _, _, (QuorumHistory.fresh "a").step (i := .startElection estranged estranged)
      ⟨rfl, rfl⟩ rfl, rfl, List.Mem.head _⟩
  have hb : CountedBy ["a", "b"] "b" ⟨["b"], 1⟩ ["b"] :=
    ⟨_, _, _, (QuorumHistory.fresh "b").step (i := .startElection estranged estranged)
      ⟨rfl, rfl⟩ rfl, rfl, List.Mem.head _⟩
  obtain ⟨n, hna, hnb⟩ := hmeet _ _ _ _ _ _ _ (by decide) ha hb
  rw [List.mem_singleton] at hna hnb
  exact absurd (hna.symm.trans hnb) (by decide)

/-- Two calls that see the same members attested, both nodes among them, overlap. -/
theorem overlapping_of_agree {m₁ m₂ : CommitteeRaftNode} {v : View} (hnodup : v.peers.Nodup)
    (h₁ : m₁.nodeId ∈ v.peers ∧ v.attested m₁.nodeId)
    (h₂ : m₂.nodeId ∈ v.peers ∧ v.attested m₂.nodeId) :
    Overlapping m₁.nodeId ⟨m₁.nodeId :: m₁.verifiedPeers v, m₁.getQuorumSize v⟩
      m₂.nodeId ⟨m₂.nodeId :: m₂.verifiedPeers v, m₂.getQuorumSize v⟩ := by
  have haddressed : ∀ m : CommitteeRaftNode, m.nodeId ∈ v.peers ∧ v.attested m.nodeId →
      (m.nodeId :: m.verifiedPeers v).toFinset = (v.peers.filter v.attested).toFinset := by
    intro m hm
    ext x
    by_cases hx : x = m.nodeId
    · subst hx
      simp [hm]
    · simp [CommitteeRaftNode.verifiedPeers, CommitteeRaftNode.getClusterPeers, hx]
  have hsize : ∀ m : CommitteeRaftNode, m.nodeId ∈ v.peers ∧ v.attested m.nodeId →
      m.getQuorumSize v = (v.peers.filter v.attested).toFinset.card / 2 + 1 := by
    intro m hm
    rw [← haddressed m hm, List.toFinset_card_of_nodup (CommitteeRaftNode.verifiedPeers_nodup hnodup rfl)]
    rfl
  refine Or.inr (Or.inr (Or.inr ?_))
  dsimp only
  rw [haddressed m₁ h₁, haddressed m₂ h₂, hsize m₁ h₁, hsize m₂ h₂, Finset.union_self]
  omega

end Overlap

end AgentSystem.Raft
