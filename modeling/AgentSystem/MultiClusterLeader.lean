import AgentSystem.MultiClusterAgreement

/-!
# The leader on record of a multi-cluster

An election that is lost, or won in a term that another active node already leads, leaves a record that
names no leader or a second leader of one term. The record is right in every run without such elections.
-/
namespace AgentSystem.Raft

namespace CommitteeRaftNode

/-- The voter gives its vote for this request. -/
def Grants (args : RequestVoteArgs) (peer : CommitteeRaftNode) : Prop :=
  peer.currentTerm ≤ args.term ∧
    (peer.currentTerm < args.term ∨ peer.votedFor = none ∨ peer.votedFor = some args.candidateId) ∧
    ∃ lastLogTerm ∈ peer.lastLogTerm, peer.logOk lastLogTerm args

instance (args : RequestVoteArgs) (peer : CommitteeRaftNode) : Decidable (Grants args peer) :=
  inferInstanceAs (Decidable (_ ∧ _ ∧ _))

/-- The log begins with an entry of term 0. -/
def Rooted (node : CommitteeRaftNode) : Prop :=
  (node.log[0]?).map CommitteeLogEntry.term = some 0

lemma Rooted.length_pos {node : CommitteeRaftNode} (h : node.Rooted) : 0 < node.log.length := by
  by_contra hnil
  rw [Rooted, List.getElem?_eq_none (by omega)] at h
  cases h

lemma Rooted.lastLogTerm_isSome {node : CommitteeRaftNode} (h : node.Rooted) :
    ∃ lastLogTerm, node.lastLogTerm = some lastLogTerm := by
  have hpos := h.length_pos
  have hposition : PySequence.position node.log.length (-1) = some (node.log.length - 1) := by
    unfold PySequence.position
    rw [if_neg (by decide), if_pos (by omega)]
    congr 1
    omega
  obtain ⟨last, hlast⟩ : ∃ last, node.log[node.log.length - 1]? = some last :=
    ⟨_, List.getElem?_eq_getElem (by omega)⟩
  refine ⟨last.term, ?_⟩
  unfold lastLogTerm PySequence.get
  rw [hposition, Option.bind_some, hlast, Option.map_some]

/-- A voter with a log answers, and gives its vote exactly when `Grants` says so. -/
lemma considerVote_answers {peer : CommitteeRaftNode} {lastLogTerm : ℤ}
    (hlast : peer.lastLogTerm = some lastLogTerm) (args : RequestVoteArgs) :
    ∃ reply, (peer.considerVote args).2 = .ok reply ∧
      (reply.voteGranted = true ↔ Grants args peer) := by
  have hgrants : Grants args peer ↔ peer.currentTerm ≤ args.term ∧
      (peer.currentTerm < args.term ∨ peer.votedFor = none ∨
        peer.votedFor = some args.candidateId) ∧ peer.logOk lastLogTerm args := by
    simp [Grants, hlast]
  rcases lt_trichotomy peer.currentTerm args.term with hlt | heq | hgt
  · have hstepped : (peer.stepDown args.term none).lastLogTerm = some lastLogTerm := hlast
    have hterm : ¬ args.term < (peer.stepDown args.term none).currentTerm := lt_irrefl _
    unfold considerVote
    dsimp only
    rw [catchUp_of_lt hlt, if_neg hterm, hstepped]
    dsimp only
    split_ifs with hvote
    · exact ⟨_, rfl, iff_of_true rfl (hgrants.mpr ⟨hlt.le, .inl hlt, hvote.2⟩)⟩
    · refine ⟨_, rfl, iff_of_false (by simp [voteReply]) fun h => hvote ⟨.inl rfl, ?_⟩⟩
      exact (hgrants.mp h).2.2
  · unfold considerVote
    dsimp only
    rw [catchUp_of_le heq.ge, if_neg heq.not_gt, hlast]
    dsimp only
    split_ifs with hvote
    · exact ⟨_, rfl, iff_of_true rfl (hgrants.mpr ⟨heq.le, .inr hvote.1, hvote.2⟩)⟩
    · refine ⟨_, rfl, iff_of_false (by simp [voteReply]) fun h => hvote ?_⟩
      obtain ⟨_, hfree, hok⟩ := hgrants.mp h
      exact ⟨hfree.resolve_left heq.not_lt, hok⟩
  · unfold considerVote
    dsimp only
    rw [catchUp_of_le hgt.le, if_pos hgt]
    exact ⟨_, rfl, iff_of_false (by simp [voteReply]) fun h => absurd h.1 (not_le.mpr hgt)⟩

/-- A later term makes a voter a follower of that term, and nothing else changes its role or term. -/
lemma considerVote_role (peer : CommitteeRaftNode) (args : RequestVoteArgs) :
    (peer.considerVote args).1.currentTerm = max peer.currentTerm args.term ∧
      (peer.considerVote args).1.role =
        if peer.currentTerm < args.term then .follower else peer.role := by
  have hrole : (peer.catchUp args.term).role =
      if peer.currentTerm < args.term then .follower else peer.role := by
    unfold catchUp
    split_ifs <;> rfl
  have hterm := peer.catchUp_currentTerm args.term
  rcases peer.considerVote_cases args with
    ⟨hstale, _, heq⟩ | ⟨_, _, heq⟩ | ⟨_, _, heq⟩ | ⟨_, _, _, heq⟩
  · rw [heq, if_neg hstale.not_gt, max_eq_left hstale.le]
    exact ⟨rfl, rfl⟩
  · rw [heq]
    exact ⟨hterm, hrole⟩
  · rw [heq]
    exact ⟨hterm, hrole⟩
  · rw [heq]
    exact ⟨hterm, hrole⟩

lemma considerVote_log (peer : CommitteeRaftNode) (args : RequestVoteArgs) :
    (peer.considerVote args).1.log = peer.log := by
  have hcatch := peer.catchUp_log args.term
  rcases peer.considerVote_cases args with
    ⟨_, _, heq⟩ | ⟨_, _, heq⟩ | ⟨_, _, heq⟩ | ⟨_, _, _, heq⟩
  · rw [heq]
  · rw [heq]
    exact hcatch
  · rw [heq]
    exact hcatch
  · rw [heq]
    exact hcatch

end CommitteeRaftNode

namespace FederatedRaftMultiCluster

open CommitteeRaftNode

section Votes

variable {args : RequestVoteArgs} {view : View} {peer : CommitteeRaftNode}

lemma voteHandler_eq (hattested : view.attested args.candidateId = true) :
    voteHandler args view peer =
      ((peer.considerVote args).1, (peer.considerVote args).2.map RequestVoteReply.voteGranted) := by
  unfold voteHandler handleRequestVote
  dsimp only
  rw [if_neg (by simp), if_pos hattested]

lemma voteHandler_answer (hattested : view.attested args.candidateId = true) (hrooted : peer.Rooted) :
    ∃ answer, (voteHandler args view peer).2 = .ok answer ∧ (answer = true ↔ Grants args peer) := by
  obtain ⟨lastLogTerm, hlast⟩ := hrooted.lastLogTerm_isSome
  obtain ⟨reply, hreply, hgranted⟩ := considerVote_answers hlast args
  rw [voteHandler_eq hattested, hreply]
  exact ⟨reply.voteGranted, rfl, hgranted⟩

end Votes

/-! ## Elections -/

section Elections

variable (f : FederatedRaftMultiCluster) (candidateId : NodeId) (node : CommitteeRaftNode)

/-- The request of a candidate; the term of the last entry of its log is given. -/
def voteArgs (lastLogTerm : ℤ) : RequestVoteArgs :=
  ⟨node.currentTerm + 1, candidateId, node.lastLogIndex, lastLogTerm⟩

/-- The active peers that give the candidate their votes. -/
def voters (lastLogTerm : ℤ) : List (NodeId × RegionalClusterMember) :=
  (f.peersOf candidateId).filter fun item =>
    (f.nodes item.1).any fun peer => Grants (voteArgs candidateId node lastLogTerm) peer

/-- The candidate has a majority of the active nodes, from two regions if there are two. -/
def Wins : Prop :=
  ∃ lastLogTerm ∈ node.lastLogTerm, ∃ member ∈ PySequence.getItem f.members candidateId,
    f.totalActive / 2 < 1 + (f.voters candidateId node lastLogTerm).length ∧
    min 2 f.activeRegions ≤ ((f.voters candidateId node lastLogTerm).foldl
      (fun regions item => addRegion regions item.2.region) [member.region]).length

instance : Decidable (f.Wins candidateId node) := inferInstanceAs (Decidable (∃ _ ∈ _, _))

/-- No active node but the candidate leads the term of the candidacy. -/
def TermFree : Prop :=
  ∀ other ∈ f.activeIds, other ≠ candidateId → ∀ peer, f.nodes other = some peer →
    peer.role = .leader → peer.currentTerm ≠ node.currentTerm + 1

end Elections

/-- The members are registered once, with a node whose log has its first entry. -/
structure Registered (f : FederatedRaftMultiCluster) : Prop where
  nodup : (f.members.map Prod.fst).Nodup
  present : ∀ item ∈ f.members, ∃ node, f.nodes item.1 = some node
  rooted : ∀ id node, f.nodes id = some node → node.Rooted

/-- At most one active node leads a term. -/
def OneLeaderPerTerm (f : FederatedRaftMultiCluster) : Prop :=
  ∀ id ∈ f.activeIds, ∀ other ∈ f.activeIds, ∀ node peer, f.nodes id = some node →
    f.nodes other = some peer → node.role = .leader → peer.role = .leader →
    node.currentTerm = peer.currentTerm → id = other

/-- The leader on record is an active node with the role of a leader. -/
def LeaderOnRecord (f : FederatedRaftMultiCluster) : Prop :=
  ∀ id, f.currentCrossClusterLeader = some id →
    id ∈ f.activeIds ∧ ∃ node, f.nodes id = some node ∧ node.role = .leader

section Outcome

variable {f : FederatedRaftMultiCluster} {candidateId id : NodeId} {node peer : CommitteeRaftNode}

lemma mem_peersOf : id ∈ (f.peersOf candidateId).map Prod.fst ↔ id ≠ candidateId ∧ id ∈ f.activeIds := by
  unfold peersOf activeIds
  simp only [List.mem_map, List.mem_filter, decide_eq_true_eq]
  constructor
  · rintro ⟨item, ⟨hmem, hne, hactive⟩, rfl⟩
    exact ⟨hne, item, ⟨hmem, hactive⟩, rfl⟩
  · rintro ⟨hne, item, ⟨hmem, hactive⟩, rfl⟩
    exact ⟨item, ⟨hmem, hne, hactive⟩, rfl⟩

/-- What an election of a registered candidate leaves. -/
structure Elected (f : FederatedRaftMultiCluster) (candidateId : NodeId) (node : CommitteeRaftNode)
    (f' : FederatedRaftMultiCluster) : Prop where
  members : f'.members = f.members
  leader : f'.currentCrossClusterLeader =
    if f.Wins candidateId node then some candidateId else f.currentCrossClusterLeader
  candidate : ∃ after, f'.nodes candidateId = some after ∧
    after.currentTerm = node.currentTerm + 1 ∧ after.log = node.log ∧
    after.role = if f.Wins candidateId node then .leader else .follower
  others : ∀ id after, id ≠ candidateId → f'.nodes id = some after →
    ∃ peer, f.nodes id = some peer ∧ after.log = peer.log ∧
      (id ∈ f.activeIds → after.currentTerm = max peer.currentTerm (node.currentTerm + 1) ∧
        after.role = if peer.currentTerm < node.currentTerm + 1 then .follower else peer.role) ∧
      (id ∉ f.activeIds → after = peer)
  present : ∀ id peer, f.nodes id = some peer → ∃ after, f'.nodes id = some after

lemma setRole_nodes (id other : NodeId) (role : RaftRole) :
    (f.setRole id role).nodes other =
      if other = id then (f.nodes id).map fun node => { node with role } else f.nodes other :=
  Function.update_apply ..

/-- The candidate has begun its candidacy. -/
def campaign (f : FederatedRaftMultiCluster) (candidateId : NodeId) (node : CommitteeRaftNode) :
    FederatedRaftMultiCluster :=
  f.setNode candidateId { node with
    role := .candidate
    currentTerm := node.currentTerm + 1
    votedFor := some candidateId }

/-- The round of vote requests. -/
def askVotes (f : FederatedRaftMultiCluster) (candidateId : NodeId) (node : CommitteeRaftNode)
    (lastLogTerm : ℤ) (region : ClusterRegion) :
    FederatedRaftMultiCluster × Except FederationError (ℕ × List ClusterRegion) :=
  askPeers (voteHandler (voteArgs candidateId node lastLogTerm)) (f.peersOf candidateId)
    (f.campaign candidateId node) 1 [region]

lemma elect_eq (hnode : f.nodes candidateId = some node) {member : RegionalClusterMember}
    (hmember : PySequence.getItem f.members candidateId = some member) {lastLogTerm : ℤ}
    (hlast : node.lastLogTerm = some lastLogTerm) {votes : ℕ} {regions : List ClusterRegion}
    (hok : (f.askVotes candidateId node lastLogTerm member.region).2 = .ok (votes, regions)) :
    (f.electCrossClusterLeader candidateId).1 =
      ((f.askVotes candidateId node lastLogTerm member.region).1.concludeElection candidateId votes
        regions).1 := by
  have hlast' : (CommitteeRaftNode.lastLogTerm { node with
      role := .candidate
      currentTerm := node.currentTerm + 1
      votedFor := some candidateId }) = some lastLogTerm := hlast
  unfold electCrossClusterLeader
  rw [hnode, hmember]
  dsimp only
  rw [hlast']
  dsimp only
  split
  next heq => cases heq.symm.trans hok
  next heq =>
    obtain ⟨rfl, rfl⟩ := Prod.mk.inj (Except.ok.inj (heq.symm.trans hok))
    rfl

/-- The round of vote requests of a registered candidate comes to its end. -/
lemma askVotes_outcome (hf : f.Registered) (node : CommitteeRaftNode) {member : RegionalClusterMember}
    (hmember : PySequence.getItem f.members candidateId = some member) (lastLogTerm : ℤ) :
    Visited (fun peer => (peer.considerVote (voteArgs candidateId node lastLogTerm)).1)
      ((f.peersOf candidateId).map Prod.fst) (f.campaign candidateId node)
      (f.askVotes candidateId node lastLogTerm member.region).1 ∧
    (∀ id ∈ (f.peersOf candidateId).map Prod.fst,
      (f.askVotes candidateId node lastLogTerm member.region).1.nodes id = (f.nodes id).map fun peer =>
        (peer.considerVote (voteArgs candidateId node lastLogTerm)).1) ∧
    (f.askVotes candidateId node lastLogTerm member.region).2 =
      .ok (1 + (f.voters candidateId node lastLogTerm).length,
        (f.voters candidateId node lastLogTerm).foldl
          (fun regions item => addRegion regions item.2.region) [member.region]) := by
  set args := voteArgs candidateId node lastLogTerm with hargs
  have hnodup := peersOf_nodup hf.nodup candidateId
  have hattested : (f.campaign candidateId node).view.attested args.candidateId = true := by
    have hmem := List.mem_map_of_mem (f := Prod.fst) (PySequence.getItem_mem hmember)
    change decide (candidateId ∈ f.members.map Prod.fst) = true
    simpa using hmem
  have hhandler : (fun peer => (voteHandler args (f.campaign candidateId node).view peer).1) =
      fun peer => (peer.considerVote args).1 := by
    funext peer
    rw [voteHandler_eq hattested]
  have hpeernodes : ∀ item ∈ f.peersOf candidateId,
      (f.campaign candidateId node).nodes item.1 = f.nodes item.1 :=
    fun item hitem => setNode_of_ne (mem_peersOf.mp (List.mem_map_of_mem hitem)).1 _
  have hanswers : ∀ item ∈ f.peersOf candidateId, ∃ peer answer,
      (f.campaign candidateId node).nodes item.1 = some peer ∧
      (voteHandler args (f.campaign candidateId node).view peer).2 = .ok answer := by
    intro item hitem
    obtain ⟨peer, hpeer⟩ := hf.present item (List.mem_filter.mp hitem).1
    obtain ⟨answer, hanswer, _⟩ := voteHandler_answer hattested (hf.rooted _ _ hpeer)
    exact ⟨peer, answer, (hpeernodes item hitem).trans hpeer, hanswer⟩
  have hgrants : ∀ item ∈ f.peersOf candidateId, ∀ peer answer,
      (f.campaign candidateId node).nodes item.1 = some peer →
      (voteHandler args (f.campaign candidateId node).view peer).2 = .ok answer → (answer = true ↔
        ((f.nodes item.1).any fun peer => decide (Grants args peer)) = true) := by
    intro item hitem peer answer hpeer hanswer
    rw [hpeernodes item hitem] at hpeer
    obtain ⟨answer', hanswer', hgranted⟩ := voteHandler_answer hattested (hf.rooted _ _ hpeer)
    obtain rfl := Except.ok.inj (hanswer.symm.trans hanswer')
    rw [hgranted, hpeer]
    simp
  obtain ⟨votes, regions, hok⟩ := askPeers_answered hnodup hanswers 1 [member.region]
  obtain ⟨hall, hvotes, hregions⟩ := askPeers_ok hnodup hgrants hok
  have hvisited := askPeers_visited (voteHandler args) hnodup (f.campaign candidateId node) 1
    [member.region]
  rw [hhandler] at hvisited hall
  refine ⟨hvisited, fun id hid => ?_, ?_⟩
  · refine (hall id hid).trans ?_
    rw [campaign, setNode_of_ne (mem_peersOf.mp hid).1]
  · refine hok.trans ?_
    rw [hvotes, hregions]
    simp [voters, hargs]

/-- An election of a node that is registered comes to its end. -/
theorem elect_outcome (hf : f.Registered) (hnode : f.nodes candidateId = some node)
    {member : RegionalClusterMember} (hmember : PySequence.getItem f.members candidateId = some member) :
    Elected f candidateId node (f.electCrossClusterLeader candidateId).1 := by
  obtain ⟨lastLogTerm, hlast⟩ := (hf.rooted _ _ hnode).lastLogTerm_isSome
  obtain ⟨hvisited, hall, hok⟩ := askVotes_outcome hf node hmember lastLogTerm
  rw [elect_eq hnode hmember hlast hok]
  set asked := f.askVotes candidateId node lastLogTerm member.region with hasked
  have hmembers : asked.1.members = f.members := hvisited.members
  have hleader : asked.1.currentCrossClusterLeader = f.currentCrossClusterLeader := hvisited.leader
  have hwins : (asked.1.totalActive / 2 < 1 + (f.voters candidateId node lastLogTerm).length ∧
      min 2 asked.1.activeRegions ≤ ((f.voters candidateId node lastLogTerm).foldl
        (fun regions item => addRegion regions item.2.region) [member.region]).length) ↔
      f.Wins candidateId node := by
    unfold Wins totalActive activeIds activeRegions
    rw [hmembers]
    simp [hlast, hmember]
  have hself : asked.1.nodes candidateId = (f.campaign candidateId node).nodes candidateId :=
    (hvisited.nodes candidateId).resolve_right fun h => notMem_peersOf f candidateId h.1
  have hothers : ∀ id after, id ≠ candidateId → asked.1.nodes id = some after →
      ∃ peer, f.nodes id = some peer ∧ after.log = peer.log ∧
        (id ∈ f.activeIds → after.currentTerm = max peer.currentTerm (node.currentTerm + 1) ∧
          after.role = if peer.currentTerm < node.currentTerm + 1 then .follower else peer.role) ∧
        (id ∉ f.activeIds → after = peer) := by
    intro id after hne hafter
    by_cases hactive : id ∈ f.activeIds
    · rw [hall id (mem_peersOf.mpr ⟨hne, hactive⟩)] at hafter
      obtain ⟨peer, hpeer, rfl⟩ := Option.map_eq_some_iff.mp hafter
      exact ⟨peer, hpeer, considerVote_log peer _, fun _ => peer.considerVote_role _,
        fun hnot => absurd hactive hnot⟩
    · have hsame := (hvisited.nodes id).resolve_right fun h => hactive (mem_peersOf.mp h.1).2
      rw [hsame, campaign, setNode_of_ne hne] at hafter
      exact ⟨after, hafter, rfl, fun h => absurd h hactive, fun _ => rfl⟩
  have hcandidate : ∀ role, ∃ after, (asked.1.setRole candidateId role).nodes candidateId = some after ∧
      after.currentTerm = node.currentTerm + 1 ∧ after.log = node.log ∧ after.role = role := by
    intro role
    rw [setRole_nodes, if_pos rfl, hself, campaign, setNode_self]
    exact ⟨_, rfl, rfl, rfl, rfl⟩
  have hrole : ∀ role id, id ≠ candidateId →
      (asked.1.setRole candidateId role).nodes id = asked.1.nodes id := by
    intro role id hne
    rw [setRole_nodes, if_neg hne]
  have hpresent : ∀ role id peer, f.nodes id = some peer →
      ∃ after, (asked.1.setRole candidateId role).nodes id = some after := by
    intro role id peer hpeer
    by_cases hne : id = candidateId
    · subst hne
      obtain ⟨after, hafter, _⟩ := hcandidate role
      exact ⟨after, hafter⟩
    · rw [hrole role id hne]
      rcases hvisited.nodes id with hsame | ⟨hid, _⟩
      · rw [hsame, campaign, setNode_of_ne hne]
        exact ⟨peer, hpeer⟩
      · rw [hall id hid, hpeer]
        exact ⟨_, rfl⟩
  unfold concludeElection
  split_ifs with hconcluded
  · have hwon := hwins.mp hconcluded
    refine ⟨hmembers, by rw [if_pos hwon], ?_, fun id after hne hafter => ?_, hpresent .leader⟩
    · rw [if_pos hwon]
      exact hcandidate .leader
    · exact hothers id after hne ((hrole .leader id hne).symm.trans hafter)
  · have hlost : ¬ f.Wins candidateId node := fun h => hconcluded (hwins.mpr h)
    refine ⟨hmembers, by rw [if_neg hlost]; exact hleader, ?_, fun id after hne hafter => ?_,
      hpresent .follower⟩
    · rw [if_neg hlost]
      exact hcandidate .follower
    · exact hothers id after hne ((hrole .follower id hne).symm.trans hafter)

/-! ## The record through the calls -/

/-- The record is right, and no term is led twice. -/
structure WellLed (f : FederatedRaftMultiCluster) : Prop where
  registered : f.Registered
  onRecord : f.LeaderOnRecord
  oneLeader : f.OneLeaderPerTerm

lemma Elected.activeIds {f' : FederatedRaftMultiCluster} (h : Elected f candidateId node f') :
    f'.activeIds = f.activeIds := by
  unfold FederatedRaftMultiCluster.activeIds
  rw [h.members]

lemma Elected.registered {f' : FederatedRaftMultiCluster} (hf : f.Registered)
    (hnode : f.nodes candidateId = some node) (h : Elected f candidateId node f') :
    f'.Registered := by
  refine ⟨by rw [h.members]; exact hf.nodup, fun item hitem => ?_, fun id after hafter => ?_⟩
  · rw [h.members] at hitem
    obtain ⟨peer, hpeer⟩ := hf.present item hitem
    exact h.present item.1 peer hpeer
  · by_cases hne : id = candidateId
    · subst hne
      obtain ⟨candidate, hcandidate, _, hlog, _⟩ := h.candidate
      obtain rfl := Option.some.inj (hcandidate.symm.trans hafter)
      rw [Rooted, hlog]
      exact hf.rooted id node hnode
    · obtain ⟨peer, hpeer, hlog, _⟩ := h.others id after hne hafter
      rw [Rooted, hlog]
      exact hf.rooted id peer hpeer

/-- A node that leads after an election is the winner, or has led before in the same term, which is not
below that of the candidate. -/
lemma Elected.leads {f' : FederatedRaftMultiCluster} (h : Elected f candidateId node f')
    (hactive : id ∈ f.activeIds) (hpeer : f'.nodes id = some peer) (hleader : peer.role = .leader) :
    (id = candidateId ∧ f.Wins candidateId node ∧ peer.currentTerm = node.currentTerm + 1) ∨
    (id ≠ candidateId ∧ ∃ before, f.nodes id = some before ∧ before.role = .leader ∧
      before.currentTerm = peer.currentTerm ∧ node.currentTerm + 1 ≤ peer.currentTerm) := by
  by_cases hne : id = candidateId
  · subst hne
    obtain ⟨candidate, hcandidate, hterm, _, hrole⟩ := h.candidate
    obtain rfl := Option.some.inj (hcandidate.symm.trans hpeer)
    rw [hleader] at hrole
    split_ifs at hrole with hwins
    exact .inl ⟨rfl, hwins, hterm⟩
  · obtain ⟨before, hbefore, _, hvoted, _⟩ := h.others id peer hne hpeer
    obtain ⟨hterm, hrole⟩ := hvoted hactive
    rw [hleader] at hrole
    split_ifs at hrole with hlt
    rw [max_eq_left (not_lt.mp hlt)] at hterm
    exact .inr ⟨hne, before, hbefore, hrole.symm, hterm.symm, hterm ▸ not_lt.mp hlt⟩

/-- An election in a free term keeps terms from being led twice. -/
lemma Elected.oneLeader {f' : FederatedRaftMultiCluster} (hf : f.OneLeaderPerTerm)
    (h : Elected f candidateId node f')
    (hfree : f.Wins candidateId node → f.TermFree candidateId node) : f'.OneLeaderPerTerm := by
  intro id hid other hother one peer hone hpeer hlead hlead' hterm
  rw [h.activeIds] at hid hother
  rcases h.leads hid hone hlead with ⟨rfl, hwins, heq⟩ | ⟨hne, one', hone', hrole, heq, _⟩
  · rcases h.leads hother hpeer hlead' with ⟨rfl, _, _⟩ | ⟨hne', peer', hpeer', hrole', heq', _⟩
    · rfl
    · refine absurd ?_ (hfree hwins other hother hne' peer' hpeer' hrole')
      rw [heq', ← hterm, heq]
  · rcases h.leads hother hpeer hlead' with ⟨rfl, hwins, heq'⟩ | ⟨_, peer', hpeer', hrole', heq', _⟩
    · refine absurd ?_ (hfree hwins id hid hne one' hone' hrole)
      rw [heq, hterm, heq']
    · exact hf id hid other hother one' peer' hone' hpeer' hrole hrole' (by rw [heq, heq', hterm])

/-- An election is won by an active node in a free term, or leaves the leader on record in office. -/
structure ElectionSafe (f : FederatedRaftMultiCluster) (candidateId : NodeId)
    (node : CommitteeRaftNode) : Prop where
  won : f.Wins candidateId node → candidateId ∈ f.activeIds ∧ f.TermFree candidateId node
  lost : ¬ f.Wins candidateId node → ∀ id, f.currentCrossClusterLeader = some id →
    id ≠ candidateId ∧ ∀ peer, f.nodes id = some peer → node.currentTerm + 1 ≤ peer.currentTerm

/-- A won election puts its winner on record. -/
lemma Elected.onRecord_won {f' : FederatedRaftMultiCluster} (h : Elected f candidateId node f')
    (hwins : f.Wins candidateId node) (hactive : candidateId ∈ f.activeIds) : f'.LeaderOnRecord := by
  intro id hid
  rw [h.leader, if_pos hwins] at hid
  obtain rfl := Option.some.inj hid
  obtain ⟨candidate, hcandidate, _, _, hrole⟩ := h.candidate
  rw [if_pos hwins] at hrole
  rw [h.activeIds]
  exact ⟨hactive, candidate, hcandidate, hrole⟩

theorem WellLed.elected (hf : f.WellLed) {f' : FederatedRaftMultiCluster}
    (hnode : f.nodes candidateId = some node) (h : Elected f candidateId node f')
    (hsafe : f.ElectionSafe candidateId node) : f'.WellLed := by
  refine ⟨h.registered hf.registered hnode, ?_,
    h.oneLeader hf.oneLeader fun hwins => (hsafe.won hwins).2⟩
  by_cases hwins : f.Wins candidateId node
  · exact h.onRecord_won hwins (hsafe.won hwins).1
  · intro id hid
    rw [h.leader, if_neg hwins] at hid
    obtain ⟨hactive, leader, hleader, hrole⟩ := hf.onRecord id hid
    obtain ⟨hne, hterm⟩ := hsafe.lost hwins id hid
    obtain ⟨after, hafter⟩ := h.present id leader hleader
    obtain ⟨before, hbefore, _, hvoted, _⟩ := h.others id after hne hafter
    obtain rfl := Option.some.inj (hleader.symm.trans hbefore)
    rw [h.activeIds]
    refine ⟨hactive, after, hafter, ?_⟩
    rw [(hvoted hactive).2, if_neg (not_lt.mpr (hterm leader hleader)), hrole]

/-- An election of a node that is not registered changes nothing. -/
lemma elect_unregistered (h : f.nodes candidateId = none ∨
    PySequence.getItem f.members candidateId = none) :
    (f.electCrossClusterLeader candidateId).1 = f := by
  unfold electCrossClusterLeader
  split
  next hnode hmember =>
    rcases h with hnone | hnone
    · cases hnone.symm.trans hnode
    · cases hnone.symm.trans hmember
  · rfl

theorem WellLed.electCrossClusterLeader (hf : f.WellLed)
    (hsafe : ∀ node, f.nodes candidateId = some node → f.ElectionSafe candidateId node) :
    (f.electCrossClusterLeader candidateId).1.WellLed := by
  cases hnode : f.nodes candidateId with
  | none => rwa [elect_unregistered (.inl hnode)]
  | some node =>
      cases hmember : PySequence.getItem f.members candidateId with
      | none => rwa [elect_unregistered (.inr hmember)]
      | some member =>
          exact hf.elected hnode (elect_outcome hf.registered hnode hmember) (hsafe node hnode)

end Outcome

/-! ## Appends -/

section Calm

variable {f f' f'' : FederatedRaftMultiCluster} {leaderId : NodeId} {leader : CommitteeRaftNode}
  {entry previous : CommitteeLogEntry}

/-- Nodes have kept their roles and terms or have become followers; one of them has kept its role. -/
structure Calmed (leaderId : NodeId) (f f' : FederatedRaftMultiCluster) : Prop where
  members : f'.members = f.members
  leader : f'.currentCrossClusterLeader = f.currentCrossClusterLeader
  nodes : ∀ id after, f'.nodes id = some after → ∃ node, f.nodes id = some node ∧
    (node.Rooted → after.Rooted) ∧ (id = leaderId → after.role = node.role) ∧
    ((after.role = node.role ∧ after.currentTerm = node.currentTerm) ∨ after.role = .follower)
  present : ∀ id node, f.nodes id = some node → ∃ after, f'.nodes id = some after

lemma Calmed.refl (f : FederatedRaftMultiCluster) : Calmed leaderId f f :=
  ⟨rfl, rfl, fun _ node hnode => ⟨node, hnode, fun h => h, fun _ => rfl, .inl ⟨rfl, rfl⟩⟩,
    fun _ node hnode => ⟨node, hnode⟩⟩

lemma Calmed.trans (h : Calmed leaderId f f') (h' : Calmed leaderId f' f'') :
    Calmed leaderId f f'' := by
  refine ⟨h'.members.trans h.members, h'.leader.trans h.leader, fun id after hafter => ?_,
    fun id node hnode => ?_⟩
  · obtain ⟨between, hbetween, hrooted', hself', hrole'⟩ := h'.nodes id after hafter
    obtain ⟨node, hnode, hrooted, hself, hrole⟩ := h.nodes id between hbetween
    refine ⟨node, hnode, fun hn => hrooted' (hrooted hn),
      fun hid => (hself' hid).trans (hself hid), ?_⟩
    rcases hrole' with ⟨hsame', hterm'⟩ | hfollower
    · rw [hsame', hterm']
      exact hrole
    · exact .inr hfollower
  · obtain ⟨between, hbetween⟩ := h.present id node hnode
    exact h'.present id between hbetween

/-- A round calms the nodes when every change in it does. -/
lemma Visited.calmed {change : CommitteeRaftNode → CommitteeRaftNode} {ids : List NodeId}
    (h : Visited change ids f f')
    (hchange : ∀ id ∈ ids, ∀ node, f.nodes id = some node → (node.Rooted → (change node).Rooted) ∧
      (id = leaderId → (change node).role = node.role) ∧
      (((change node).role = node.role ∧ (change node).currentTerm = node.currentTerm) ∨
        (change node).role = .follower)) : Calmed leaderId f f' := by
  refine ⟨h.members, h.leader, fun id after hafter => ?_, fun id node hnode => ?_⟩
  · rcases h.nodes id with hsame | ⟨hid, hchanged⟩
    · rw [hsame] at hafter
      exact (Calmed.refl f).nodes id after hafter
    · rw [hchanged] at hafter
      obtain ⟨node, hnode, rfl⟩ := Option.map_eq_some_iff.mp hafter
      exact ⟨node, hnode, hchange id hid node hnode⟩
  · rcases h.nodes id with hsame | ⟨_, hchanged⟩
    · exact ⟨node, hsame.trans hnode⟩
    · exact ⟨change node, by rw [hchanged, hnode, Option.map_some]⟩

lemma rooted_take {node : CommitteeRaftNode} (h : node.Rooted) {k : ℕ} (hk : 0 < k) :
    Rooted { node with log := node.log.take k } := by
  unfold Rooted
  dsimp only
  rw [List.getElem?_take_of_lt hk]
  exact h

/-- A request for an entry of a leader leaves the first entry of a peer in its place. -/
lemma appendHandler_rooted (hleader : leader.Rooted)
    (hprevious : leader.log[leader.log.length - 1]? = some previous) (view : View)
    {node : CommitteeRaftNode} (h : node.Rooted) :
    (appendHandler (entryArgs leaderId leader entry previous) view node).1.Rooted := by
  have hpos := hleader.length_pos
  have hcast : (leader.log.length : ℤ) - 1 = ((leader.log.length - 1 : ℕ) : ℤ) := by omega
  unfold appendHandler handleAppendEntries
  dsimp only
  rw [if_neg (by simp)]
  split_ifs
  · rcases followLeader_checks node (entryArgs leaderId leader entry previous) with
      ⟨_, _, heq⟩ | ⟨_, follower, hlog, _, _, _, heq⟩
    · rw [heq]
      exact h
    · rw [heq]
      have hfollower : follower.Rooted := by
        rw [Rooted, hlog]
        exact h
      rcases follower.matchAndAppend_cases (entryArgs leaderId leader entry previous) with
        ⟨_, hnode, _⟩ | ⟨k, old, hposition, hold, hends⟩
      · rw [hnode]
        exact hfollower
      · change PySequence.position follower.log.length ((leader.log.length : ℤ) - 1) = some k
          at hposition
        rw [hcast, PySequence.position_natCast] at hposition
        split_ifs at hposition with hlt
        obtain rfl := Option.some.inj hposition
        rcases hends with ⟨hne, hnode, _⟩ | ⟨_, hends⟩
        · rw [hnode]
          refine rooted_take hfollower ?_
          -- the first entries have the same term, so the cut is behind them
          by_contra hzero
          have hzero : leader.log.length - 1 = 0 := by omega
          rw [hzero] at hold hprevious
          rw [Rooted, hold, Option.map_some] at hfollower
          rw [Rooted, hprevious, Option.map_some] at hleader
          exact hne (Option.some.inj (hfollower.trans hleader.symm))
        · have hinsert : insertEntries follower.log
              ((entryArgs leaderId leader entry previous).prevLogIndex + 1)
              (entryArgs leaderId leader entry previous).entries =
              (entered follower.log leader.log.length entry, none) := by
            change insertEntries follower.log ((leader.log.length : ℤ) - 1 + 1) [entry] = _
            rw [Int.sub_add_cancel]
            exact insertEntries_entered (by omega) entry
          rw [(hends _ hinsert).1]
          obtain ⟨_, _, _, _, hframe⟩ := advanceCommit_frame
            { follower with log := entered follower.log leader.log.length entry } leader.commitIndex
          change ({ follower with log := entered follower.log leader.log.length entry }.advanceCommit
            leader.commitIndex).1.Rooted
          rw [hframe]
          unfold Rooted
          dsimp only
          rw [entered_before (by omega) hpos]
          exact hfollower
  · exact h

lemma committedTo_frame (newIndex : ℤ) (node : CommitteeRaftNode) :
    (node.committedTo newIndex).log = node.log ∧ (node.committedTo newIndex).role = node.role ∧
      (node.committedTo newIndex).currentTerm = node.currentTerm := by
  obtain ⟨_, _, _, h⟩ := applyCommittedEntries_frame { node with commitIndex := newIndex }
  unfold committedTo
  rw [h]
  exact ⟨rfl, rfl, rfl⟩

/-- `replicate_cross_region_entry` once there is a leader calms the nodes. -/
theorem calmed_appendOnLeader (hf : f.Registered) (hleader : f.nodes leaderId = some leader)
    (entryType : CommitteeEntryType) (payload : Payload) (author : Option NodeId) :
    Calmed leaderId f (f.appendOnLeader leaderId leader entryType payload author).1 := by
  have hrooted := hf.rooted leaderId leader hleader
  have hpos := hrooted.length_pos
  have hnodup := peersOf_nodup hf.nodup leaderId
  unfold FederatedRaftMultiCluster.appendOnLeader
  dsimp only
  set entry := newEntry leaderId leader entryType payload author
  have hstart : Calmed leaderId f (f.withEntry leaderId leader entry) := by
    refine ⟨rfl, rfl, fun id after hafter => ?_, fun id node hnode => ?_⟩
    · by_cases hid : id = leaderId
      · subst hid
        rw [withEntry, setNode_self] at hafter
        obtain rfl := Option.some.inj hafter
        refine ⟨leader, hleader, fun h => ?_, fun _ => rfl, .inl ⟨rfl, rfl⟩⟩
        unfold Rooted
        dsimp only
        rw [List.getElem?_append_left hpos]
        exact h
      · rw [withEntry, setNode_of_ne hid] at hafter
        exact (Calmed.refl f).nodes id after hafter
    · by_cases hid : id = leaderId
      · subst hid
        exact ⟨_, setNode_self ..⟩
      · exact ⟨node, (setNode_of_ne hid _).trans hnode⟩
  split
  · exact hstart
  · exact hstart
  next member previous _ hget =>
    have hprevious : leader.log[leader.log.length - 1]? = some previous := by
      rw [show (leader.log.length : ℤ) - 1 = ((leader.log.length - 1 : ℕ) : ℤ) by omega,
        PySequence.get_natCast, List.getElem?_append_left (by omega)] at hget
      exact hget
    have hvisited := askPeers_visited (appendHandler (entryArgs leaderId leader entry previous))
      hnodup (f.withEntry leaderId leader entry) 1 [member.region]
    have hsent : Calmed leaderId f (f.sendEntry leaderId leader entry previous member.region).1 := by
      refine hstart.trans (hvisited.calmed fun id hid node _ => ⟨?_, ?_, ?_⟩)
      · exact appendHandler_rooted hrooted hprevious _
      · exact fun heq => absurd heq (mem_peersOf.mp hid).1
      · exact node.handleAppendEntries_role false _ _
    have hcommitted := hsent.trans ((commitNodes_visited
      (List.nodup_cons.mpr ⟨notMem_peersOf f leaderId, hnodup⟩) leader.log.length
      (f.sendEntry leaderId leader entry previous member.region).1).calmed fun id _ node _ => by
        obtain ⟨hlog, hrole, hterm⟩ := committedTo_frame leader.log.length node
        exact ⟨fun h => by rw [Rooted, hlog]; exact h, fun _ => hrole, .inl ⟨hrole, hterm⟩⟩)
    split
    · exact hsent
    · have hcommit : ∀ acks : ℕ, Calmed leaderId f
          (if (f.sendEntry leaderId leader entry previous member.region).1.totalActive / 2 < acks then
            commitNodes leader.log.length (leaderId :: (f.peersOf leaderId).map Prod.fst)
              (f.sendEntry leaderId leader entry previous member.region).1
            else ((f.sendEntry leaderId leader entry previous member.region).1, none)).1 := by
        intro acks
        split_ifs
        · exact hcommitted
        · exact hsent
      split
      · exact hcommit _
      · exact hcommit _

theorem WellLed.calmed (hf : f.WellLed) (hrecord : f.currentCrossClusterLeader = some leaderId)
    (h : Calmed leaderId f f') : f'.WellLed := by
  have hactive : f'.activeIds = f.activeIds := by
    unfold activeIds
    rw [h.members]
  have hleads : ∀ id after, f'.nodes id = some after → after.role = .leader →
      ∃ node, f.nodes id = some node ∧ node.role = .leader ∧ node.currentTerm = after.currentTerm := by
    intro id after hafter hrole
    obtain ⟨node, hnode, _, _, ⟨hsame, hterm⟩ | hfollower⟩ := h.nodes id after hafter
    · exact ⟨node, hnode, hsame.symm.trans hrole, hterm.symm⟩
    · cases hrole.symm.trans hfollower
  refine ⟨⟨by rw [h.members]; exact hf.registered.nodup, fun item hitem => ?_,
    fun id after hafter => ?_⟩, fun id hid => ?_, ?_⟩
  · rw [h.members] at hitem
    obtain ⟨node, hnode⟩ := hf.registered.present item hitem
    exact h.present item.1 node hnode
  · obtain ⟨node, hnode, hrooted, _⟩ := h.nodes id after hafter
    exact hrooted (hf.registered.rooted id node hnode)
  · rw [h.leader] at hid
    obtain ⟨hin, node, hnode, hrole⟩ := hf.onRecord id hid
    obtain ⟨after, hafter⟩ := h.present id node hnode
    obtain ⟨node', hnode', _, hself, _⟩ := h.nodes id after hafter
    obtain rfl := Option.some.inj (hnode.symm.trans hnode')
    rw [hactive]
    exact ⟨hin, after, hafter, (hself (Option.some.inj (hid.symm.trans hrecord))).trans hrole⟩
  · intro id hid other hother node peer hnode hpeer hlead hlead' hterm
    rw [hactive] at hid hother
    obtain ⟨before, hbefore, hrole, heq⟩ := hleads id node hnode hlead
    obtain ⟨before', hbefore', hrole', heq'⟩ := hleads other peer hpeer hlead'
    exact hf.oneLeader id hid other hother before before' hbefore hbefore' hrole hrole'
      (by rw [heq, heq', hterm])

end Calm

/-! ## Partitions and registrations -/

section Partition

variable {f : FederatedRaftMultiCluster} {failedRegion : ClusterRegion}

lemma mem_isolate {item : NodeId × RegionalClusterMember} :
    item ∈ (f.isolate failedRegion).members ↔ ∃ before ∈ f.members, (before.1,
      if before.2.region = failedRegion then { before.2 with isActive := false } else before.2) = item :=
  List.mem_map

/-- What is active after a region has been cut off was active before, elsewhere, and is as it was. -/
lemma active_isolate (hf : f.Registered) {id : NodeId} (h : id ∈ (f.isolate failedRegion).activeIds) :
    id ∈ f.activeIds ∧ (f.isolate failedRegion).nodes id = f.nodes id := by
  obtain ⟨item, hitem, rfl⟩ := List.mem_map.mp h
  obtain ⟨hmem, hactive⟩ := List.mem_filter.mp hitem
  obtain ⟨before, hbefore, rfl⟩ := mem_isolate.mp hmem
  dsimp only at hactive ⊢
  split_ifs at hactive with hregion
  refine ⟨List.mem_map.mpr ⟨before, List.mem_filter.mpr ⟨hbefore, hactive⟩, rfl⟩, if_neg ?_⟩
  rintro ⟨other, hother, hid, hfailed⟩
  have hsame : other = before := List.inj_on_of_nodup_map hf.nodup hother hbefore hid
  exact hregion (hsame ▸ hfailed)

lemma isolate_active {id : NodeId} {member : RegionalClusterMember} (hmem : (id, member) ∈ f.members)
    (hactive : member.isActive = true) (hregion : member.region ≠ failedRegion) :
    id ∈ (f.isolate failedRegion).activeIds := by
  refine List.mem_map.mpr ⟨(id, member), List.mem_filter.mpr ⟨mem_isolate.mpr
    ⟨(id, member), hmem, ?_⟩, hactive⟩, rfl⟩
  rw [if_neg hregion]

lemma Registered.isolate (hf : f.Registered) (failedRegion : ClusterRegion) :
    (f.isolate failedRegion).Registered := by
  obtain ⟨hkeys, hlogs⟩ := sameLogs_isolate (f := f) failedRegion
  refine ⟨hkeys ▸ hf.nodup, fun item hitem => ?_, fun id after hafter => ?_⟩
  · obtain ⟨before, hbefore, rfl⟩ := mem_isolate.mp hitem
    obtain ⟨node, hnode⟩ := hf.present before hbefore
    unfold FederatedRaftMultiCluster.isolate
    dsimp only
    split_ifs
    · exact ⟨_, by rw [hnode, Option.map_some]⟩
    · exact ⟨node, hnode⟩
  · obtain ⟨node, hnode, hlog, _⟩ := hlogs id after hafter
    rw [Rooted, hlog]
    exact hf.rooted id node hnode

lemma WellLed.isolate_oneLeader (hf : f.WellLed) (failedRegion : ClusterRegion) :
    (f.isolate failedRegion).OneLeaderPerTerm := by
  intro id hid other hother node peer hnode hpeer
  obtain ⟨hactive, hsame⟩ := active_isolate hf.registered hid
  obtain ⟨hactive', hsame'⟩ := active_isolate hf.registered hother
  exact hf.oneLeader id hactive other hactive' node peer (hsame ▸ hnode) (hsame' ▸ hpeer)

/-- A leader outside the region that is cut off stays on record. -/
lemma WellLed.isolate_onRecord (hf : f.WellLed)
    (hregion : ∀ id member, f.currentCrossClusterLeader = some id → (id, member) ∈ f.members →
      member.region ≠ failedRegion) : (f.isolate failedRegion).LeaderOnRecord := by
  intro id hid
  obtain ⟨hin, node, hnode, hrole⟩ := hf.onRecord id hid
  obtain ⟨⟨id, member⟩, hitem, rfl⟩ := List.mem_map.mp hin
  obtain ⟨hmem, hactive⟩ := List.mem_filter.mp hitem
  have hin := isolate_active hmem (by simpa using hactive) (hregion id member hid hmem)
  exact ⟨hin, node, (active_isolate hf.registered hin).2.trans hnode, hrole⟩

end Partition

/-- New ids are registered, elections are safe, and the leader of a region that is cut off is replaced
by the first survivor in a term that is free. -/
def LeaderSafe (f : FederatedRaftMultiCluster) : Call → Prop
  | .register nodeId .. => nodeId ∉ f.members.map Prod.fst
  | .elect candidateId => ∀ node, f.nodes candidateId = some node → f.ElectionSafe candidateId node
  | .replicate .. => f.recordedLeader = none → ∀ candidateId ∈ f.activeIds.head?,
      ∀ node, f.nodes candidateId = some node → f.ElectionSafe candidateId node
  | .partition failedRegion => ∀ survivor ∈ (f.isolate failedRegion).activeIds.head?,
      ∀ id ∈ f.currentCrossClusterLeader, ∀ member, (id, member) ∈ f.members →
        member.region = failedRegion → id ≠ "" ∧
          ∀ node, (f.isolate failedRegion).nodes survivor = some node →
            (f.isolate failedRegion).Wins survivor node ∧
            (f.isolate failedRegion).TermFree survivor node

section Runs

variable {f : FederatedRaftMultiCluster}

lemma WellLed.ensureLeader (hf : f.WellLed)
    (hsafe : f.recordedLeader = none → ∀ candidateId ∈ f.activeIds.head?,
      ∀ node, f.nodes candidateId = some node → f.ElectionSafe candidateId node) :
    f.ensureLeader.1.WellLed := by
  unfold FederatedRaftMultiCluster.ensureLeader
  split
  · exact hf
  next hnone =>
    split
    · exact hf
    next id rest hactive =>
      have helected := hf.electCrossClusterLeader (hsafe hnone id (by rw [hactive]; rfl))
      split
      next heq => rwa [heq] at helected
      next heq => rwa [heq] at helected

lemma WellLed.handleRegionalPartition (hf : f.WellLed) {failedRegion : ClusterRegion}
    (hsafe : f.LeaderSafe (.partition failedRegion)) :
    (f.handleRegionalPartition failedRegion).1.WellLed := by
  have hregistered := hf.registered.isolate failedRegion
  have honeLeader := hf.isolate_oneLeader failedRegion
  have hrecord : (f.isolate failedRegion).currentCrossClusterLeader = f.currentCrossClusterLeader := rfl
  unfold FederatedRaftMultiCluster.handleRegionalPartition
  dsimp only
  split
  · exact ⟨⟨hregistered.nodup, hregistered.present, hregistered.rooted⟩,
      (fun _ hid => by cases hid), honeLeader⟩
  next survivor rest hactive =>
    have hsafe := hsafe survivor (by rw [hactive]; rfl)
    have hsurvivor : survivor ∈ (f.isolate failedRegion).activeIds := by
      rw [hactive]
      exact List.mem_cons_self
    split
    next hnone =>
      refine ⟨hregistered, hf.isolate_onRecord fun id member hid hmem hregion => ?_, honeLeader⟩
      have hne := (hsafe id hid member hmem hregion).1
      rw [hrecord, hid, Option.filter_some, if_pos (by simpa using hne)] at hnone
      cases hnone
    next leaderId hleader =>
      obtain ⟨hid, _⟩ := Option.filter_eq_some_iff.mp hleader
      split
      next hmissing =>
        obtain ⟨hin, _⟩ := hf.onRecord leaderId hid
        obtain ⟨⟨id, member⟩, hitem, rfl⟩ := List.mem_map.mp hin
        obtain ⟨after, hmem⟩ : ∃ after, (id, after) ∈ (f.isolate failedRegion).members :=
          ⟨_, mem_isolate.mpr ⟨_, (List.mem_filter.mp hitem).1, rfl⟩⟩
        rw [PySequence.getItem_of_mem hregistered.nodup hmem] at hmissing
        cases hmissing
      next member hmember =>
        obtain ⟨before, hbefore, heq⟩ := mem_isolate.mp (PySequence.getItem_mem hmember)
        obtain ⟨rfl, hafter⟩ := Prod.mk.inj heq
        have hregion : member.region = before.2.region := by
          rw [← hafter]
          split_ifs <;> rfl
        split_ifs with hfailed
        · -- the leader was in the region, and the survivor is elected
          obtain ⟨_, hwins⟩ := hsafe before.1 hid before.2 hbefore (hregion.symm.trans hfailed)
          obtain ⟨⟨id, survivorMember⟩, hitem, hsurvivorId⟩ := List.mem_map.mp hsurvivor
          obtain rfl : id = survivor := hsurvivorId
          have hmem := (List.mem_filter.mp hitem).1
          obtain ⟨node, hnode⟩ := hregistered.present _ hmem
          obtain ⟨hwon, hfree⟩ := hwins node hnode
          have helected := elect_outcome hregistered hnode
            (PySequence.getItem_of_mem hregistered.nodup hmem)
          have hled : ((f.isolate failedRegion).electCrossClusterLeader id).1.WellLed :=
            ⟨helected.registered hregistered hnode, helected.onRecord_won hwon hsurvivor,
              helected.oneLeader honeLeader fun _ => hfree⟩
          split
          next hrun => rwa [hrun] at hled
          next hrun => rwa [hrun] at hled
        · refine ⟨hregistered, hf.isolate_onRecord fun id member' hid' hmem' => ?_, honeLeader⟩
          obtain rfl := Option.some.inj (hid.symm.trans hid')
          have hsame : (before.1, member') = before :=
            List.inj_on_of_nodup_map hf.registered.nodup hmem' hbefore rfl
          rw [← hsame] at hregion
          exact fun h => hfailed (hregion.trans h)

lemma WellLed.registerRegionalNode (hf : f.WellLed) {nodeId : NodeId}
    (hnew : nodeId ∉ f.members.map Prod.fst) (region : ClusterRegion)
    (organizationId virtualIp : String) (latencyWeightMs : ℚ) :
    (f.registerRegionalNode nodeId region organizationId virtualIp latencyWeightMs).WellLed := by
  set member : RegionalClusterMember := { nodeId, region, organizationId, virtualIp, latencyWeightMs }
  set f' := f.registerRegionalNode nodeId region organizationId virtualIp latencyWeightMs with hf'
  have hmembers : f'.members = f.members ++ [(nodeId, member)] :=
    PySequence.setItem_of_notMem hnew member
  have hactive : f'.activeIds = f.activeIds ++ [nodeId] := by
    unfold activeIds
    rw [hmembers, List.filter_append, List.map_append]
    rfl
  have hself : f'.nodes nodeId = some { nodeId } := Function.update_self ..
  have hothers : ∀ id, id ≠ nodeId → f'.nodes id = f.nodes id :=
    fun id hne => Function.update_of_ne hne ..
  have hold : ∀ id ∈ f.activeIds, id ≠ nodeId := by
    rintro id hid rfl
    obtain ⟨item, hitem, rfl⟩ := List.mem_map.mp hid
    exact hnew (List.mem_map_of_mem (List.mem_filter.mp hitem).1)
  -- a node that leads is not the new one
  have hleads : ∀ id ∈ f'.activeIds, ∀ node, f'.nodes id = some node → node.role = .leader →
      id ∈ f.activeIds ∧ f.nodes id = some node := by
    intro id hid node hnode hrole
    rw [hactive, List.mem_append, List.mem_singleton] at hid
    rcases hid with hid | rfl
    · exact ⟨hid, (hothers id (hold id hid)).symm.trans hnode⟩
    · obtain rfl := Option.some.inj (hself.symm.trans hnode)
      cases hrole
  refine ⟨⟨PySequence.setItem_nodup hf.registered.nodup _ _, fun item hitem => ?_,
    fun id node hnode => ?_⟩, fun id hid => ?_, ?_⟩
  · rw [hmembers, List.mem_append, List.mem_singleton] at hitem
    rcases hitem with hitem | rfl
    · have hne : item.1 ≠ nodeId := fun h => hnew (h ▸ List.mem_map_of_mem hitem)
      rw [hothers item.1 hne]
      exact hf.registered.present item hitem
    · exact ⟨_, hself⟩
  · by_cases hne : id = nodeId
    · subst hne
      obtain rfl := Option.some.inj (hself.symm.trans hnode)
      rfl
    · rw [hothers id hne] at hnode
      exact hf.registered.rooted id node hnode
  · obtain ⟨hin, node, hnode, hrole⟩ := hf.onRecord id hid
    rw [hactive, hothers id (hold id hin)]
    exact ⟨List.mem_append_left _ hin, node, hnode, hrole⟩
  · intro id hid other hother node peer hnode hpeer hlead hlead'
    obtain ⟨hin, hbefore⟩ := hleads id hid node hnode hlead
    obtain ⟨hin', hbefore'⟩ := hleads other hother peer hpeer hlead'
    exact hf.oneLeader id hin other hin' node peer hbefore hbefore' hlead hlead'

/-- One call keeps the record right. -/
theorem WellLed.step (hf : f.WellLed) {call : Call} (hcall : f.LeaderSafe call) :
    (f.step call).WellLed := by
  cases call with
  | register nodeId region organizationId virtualIp latencyWeightMs =>
      exact hf.registerRegionalNode hcall ..
  | elect candidateId => exact hf.electCrossClusterLeader hcall
  | replicate entryType payload author =>
      have hstart := hf.ensureLeader hcall
      change (f.replicateCrossRegionEntry entryType payload author).1.WellLed
      unfold replicateCrossRegionEntry
      split
      next heq => rwa [heq] at hstart
      next g heq =>
        rw [heq] at hstart
        dsimp only at hstart
        split
        · exact hstart
        next leaderId leader hleader =>
          obtain ⟨id, hrecord, hnode⟩ := Option.bind_eq_some_iff.mp hleader
          obtain ⟨node, hsome, hpair⟩ := Option.map_eq_some_iff.mp hnode
          obtain ⟨rfl, rfl⟩ := Prod.mk.inj hpair
          exact hstart.calmed hrecord (calmed_appendOnLeader hstart.registered hsome _ _ _)
  | partition failedRegion => exact hf.handleRegionalPartition hcall

lemma wellLed_initial (clusterName : String) :
    ({ clusterName } : FederatedRaftMultiCluster).WellLed :=
  ⟨⟨List.nodup_nil, (fun _ hitem => by cases hitem), (fun _ _ hnode => by cases hnode)⟩,
    (fun _ hid => by cases hid), (fun _ hid => by cases hid)⟩

end Runs

/-- In every run with safe elections the leader on record is an active node with the role of a leader,
and no term has two active leaders. -/
theorem safe_runs_well_led (clusterName : String) (calls : List Call)
    (hcalls : Throughout LeaderSafe { clusterName } calls) :
    (run { clusterName } calls).LeaderOnRecord ∧ (run { clusterName } calls).OneLeaderPerTerm := by
  have hled : (run { clusterName } calls).WellLed :=
    run_induction (fun _ _ h hcall => h.step hcall) (wellLed_initial clusterName) hcalls
  exact ⟨hled.onRecord, hled.oneLeader⟩

/-- A node is elected, another one joins, and the first one replicates to it. -/
def joinedNode : List Call :=
  [.register "a" .usEast "org" "10.244.0.1" 10, .elect "a",
    .register "b" .euCentral "org" "10.244.0.2" 10, .replicate .configuration [] none]

theorem safe_runs_well_led_joined :
    (run {} joinedNode).LeaderOnRecord ∧ (run {} joinedNode).OneLeaderPerTerm := by
  refine safe_runs_well_led "federated-global-mesh" joinedNode
    ⟨?_, fun node _ => ⟨fun _ => ⟨by decide +kernel, ?_⟩, ?_⟩, ?_, fun hnone => ?_, trivial⟩
  · exact List.not_mem_nil
  · intro other hother hne
    have hactive : (step {} (.register "a" .usEast "org" "10.244.0.1" 10)).activeIds = ["a"] := by
      decide +kernel
    rw [hactive, List.mem_singleton] at hother
    exact absurd hother hne
  · intro _ id hid
    cases hid
  · change "b" ∉ (run {} [.register "a" .usEast "org" "10.244.0.1" 10, .elect "a"]).members.map Prod.fst
    decide +kernel
  · exact absurd hnone (by decide +kernel)

/-! ## Runs that break it -/

/-- A leader on its own is joined by two nodes, one of which is elected in the same term. -/
def secondLeader : List Call :=
  [.register "a" .usEast "org" "10.244.0.1" 10, .elect "a",
    .register "b" .euCentral "org" "10.244.0.2" 10, .register "c" .apEast "org" "10.244.0.3" 10,
    .elect "b"]

/-- A node with a shorter log loses two elections, the second one in a later term than the leader's. -/
def deposedLeader : List Call :=
  [.register "a" .usEast "org" "10.244.0.1" 10, .replicate .configuration [] none,
    .register "b" .euCentral "org" "10.244.0.2" 10, .elect "b", .elect "b"]

/-- Runs that register new ids only, after which one term has two active leaders, or the leader on
record is a follower. -/
theorem leader_record_wrong :
    (Throughout RegistersNew {} secondLeader ∧ ¬ (run {} secondLeader).OneLeaderPerTerm) ∧
    Throughout RegistersNew {} deposedLeader ∧ ¬ (run {} deposedLeader).LeaderOnRecord := by
  refine ⟨⟨by decide +kernel, fun hone => ?_⟩, by decide +kernel, fun hrecord => ?_⟩
  · have hactive : (run {} secondLeader).activeIds = ["a", "b", "c"] := by decide +kernel
    have ha : ((run {} secondLeader).nodes "a").map (fun node => (node.role, node.currentTerm)) =
        some (.leader, 1) := by decide +kernel
    have hb : ((run {} secondLeader).nodes "b").map (fun node => (node.role, node.currentTerm)) =
        some (.leader, 1) := by decide +kernel
    obtain ⟨node, hnode, hpair⟩ := Option.map_eq_some_iff.mp ha
    obtain ⟨peer, hpeer, hpair'⟩ := Option.map_eq_some_iff.mp hb
    obtain ⟨hrole, hterm⟩ := Prod.mk.inj hpair
    obtain ⟨hrole', hterm'⟩ := Prod.mk.inj hpair'
    have heq := hone "a" (by simp [hactive]) "b" (by simp [hactive]) node peer hnode hpeer hrole
      hrole' (hterm.trans hterm'.symm)
    exact absurd heq (by decide)
  · have hleader : (run {} deposedLeader).currentCrossClusterLeader = some "a" := by decide +kernel
    have ha : ((run {} deposedLeader).nodes "a").map CommitteeRaftNode.role = some .follower := by
      decide +kernel
    obtain ⟨_, node, hnode, hrole⟩ := hrecord "a" hleader
    rw [hnode, Option.map_some, hrole] at ha
    cases ha

end FederatedRaftMultiCluster

end AgentSystem.Raft
