import AgentSystem.RaftSite

/-!
# What each handler and each call can change

Frame lemmas for the parts of a handler that touch only the log and the applied state, and one
case lemma for each handler and each round of an outgoing call.
-/
namespace AgentSystem.Raft

namespace CommitteeRaftNode

/-- The node itself and the peers it addresses are different nodes. -/
theorem verifiedPeers_nodup {members : List NodeId} (hnodup : members.Nodup)
    {n : CommitteeRaftNode} {v : View} (hv : v.peers = members) :
    (n.nodeId :: n.verifiedPeers v).Nodup := by
  refine List.nodup_cons.mpr ⟨?_, ?_⟩
  · simp [verifiedPeers, getClusterPeers]
  · unfold verifiedPeers getClusterPeers
    exact ((hv ▸ hnodup).filter _).filter _

/-- The apply loop touches only what was applied. -/
theorem applyRounds_frame (k : ℕ) (n : CommitteeRaftNode) :
    ∃ a m j, (applyRounds k n).1 = { n with lastApplied := a, stateMachine := m, applied := j } := by
  induction k generalizing n with
  | zero => exact ⟨n.lastApplied, n.stateMachine, n.applied, rfl⟩
  | succ k ih =>
    unfold applyRounds
    dsimp only
    split_ifs
    · split
      · exact ⟨_, _, _, rfl⟩
      · split
        · exact ⟨_, _, _, rfl⟩
        · obtain ⟨a, m, j, h⟩ := ih { n with
            lastApplied := n.lastApplied + 1
            stateMachine := _
            applied := _ }
          exact ⟨a, m, j, h⟩
    · obtain ⟨a, m, j, h⟩ := ih { n with lastApplied := n.lastApplied + 1 }
      exact ⟨a, m, j, h⟩

/-- The apply loop moves `last_applied` forward by at most one a round. -/
theorem applyRounds_lastApplied (k : ℕ) (n : CommitteeRaftNode) :
    n.lastApplied ≤ (applyRounds k n).1.lastApplied ∧
      (applyRounds k n).1.lastApplied ≤ n.lastApplied + k := by
  induction k generalizing n with
  | zero => simp [applyRounds]
  | succ k ih =>
    have hrest : ∀ m : CommitteeRaftNode, m.lastApplied = n.lastApplied + 1 →
        n.lastApplied ≤ (applyRounds k m).1.lastApplied ∧
          (applyRounds k m).1.lastApplied ≤ n.lastApplied + (k + 1 : ℕ) := by
      intro m hm
      have := ih m
      rw [hm] at this
      push_cast
      omega
    have hone : n.lastApplied ≤ n.lastApplied + 1 ∧
        n.lastApplied + 1 ≤ n.lastApplied + (k + 1 : ℕ) := by
      push_cast
      omega
    unfold applyRounds
    dsimp only
    split_ifs
    · split
      · exact hone
      · split
        · exact hone
        · exact hrest _ rfl
    · exact hrest _ rfl

/-- What the apply loop applies is the log's own entry, behind what was applied before. -/
theorem applyRounds_applied (k : ℕ) (n : CommitteeRaftNode) :
    ∀ p ∈ (applyRounds k n).1.applied, p ∈ n.applied ∨
      (n.lastApplied < p.1 ∧ p.1 ≤ n.lastApplied + k ∧ PySequence.get n.log p.1 = some p.2) := by
  induction k generalizing n with
  | zero => exact fun p hp => Or.inl hp
  | succ k ih =>
    have hrest : ∀ m : CommitteeRaftNode, m.lastApplied = n.lastApplied + 1 → m.log = n.log →
        (∀ p ∈ m.applied, p ∈ n.applied ∨
          (p.1 = n.lastApplied + 1 ∧ PySequence.get n.log p.1 = some p.2)) →
        ∀ p ∈ (applyRounds k m).1.applied, p ∈ n.applied ∨ (n.lastApplied < p.1 ∧
          p.1 ≤ n.lastApplied + (k + 1 : ℕ) ∧ PySequence.get n.log p.1 = some p.2) := by
      intro m hm hlog hnew p hp
      rcases ih m p hp with hp | ⟨hlo, hhi, hget⟩
      · rcases hnew p hp with hp | ⟨heq, hget⟩
        · exact Or.inl hp
        · exact Or.inr ⟨by omega, by omega, hget⟩
      · exact Or.inr ⟨by omega, by omega, hlog ▸ hget⟩
    unfold applyRounds
    dsimp only
    split_ifs
    · split
      · exact fun p hp => Or.inl hp
      · next e he =>
        have hnew : ∀ p ∈ n.applied ++ [(n.lastApplied + 1, e)], p ∈ n.applied ∨
            (p.1 = n.lastApplied + 1 ∧ PySequence.get n.log p.1 = some p.2) := by
          intro p hp
          rcases List.mem_append.mp hp with hp | hp
          · exact Or.inl hp
          · rw [List.mem_singleton.mp hp]
            exact Or.inr ⟨rfl, he⟩
        split
        · intro p hp
          rcases hnew p hp with hp | ⟨heq, hget⟩
          · exact Or.inl hp
          · exact Or.inr ⟨by omega, by omega, hget⟩
        · exact hrest _ rfl rfl hnew
    · exact hrest _ rfl rfl fun p hp => Or.inl hp

theorem applyCommittedEntries_frame (n : CommitteeRaftNode) :
    ∃ a m j, (applyCommittedEntries n).1 =
      { n with lastApplied := a, stateMachine := m, applied := j } :=
  applyRounds_frame _ n

theorem advanceCommit_frame (n : CommitteeRaftNode) (leaderCommit : ℤ) :
    ∃ c a m j, (n.advanceCommit leaderCommit).1 =
      { n with commitIndex := c, lastApplied := a, stateMachine := m, applied := j } := by
  unfold advanceCommit
  split_ifs
  · obtain ⟨a, m, j, h⟩ := applyCommittedEntries_frame
      { n with commitIndex := min leaderCommit n.lastLogIndex }
    exact ⟨_, a, m, j, h⟩
  · exact ⟨n.commitIndex, n.lastApplied, n.stateMachine, n.applied, rfl⟩

theorem matchAndAppend_frame (n : CommitteeRaftNode) (args : AppendEntriesArgs) :
    ∃ l c a m j, (n.matchAndAppend args).1 = { n with
      log := l, commitIndex := c, lastApplied := a, stateMachine := m, applied := j } := by
  unfold matchAndAppend
  dsimp only
  split_ifs
  · exact ⟨_, _, _, _, _, rfl⟩
  · split
    · exact ⟨_, _, _, _, _, rfl⟩
    · split_ifs
      · exact ⟨_, _, _, _, _, rfl⟩
      · split
        · exact ⟨_, _, _, _, _, rfl⟩
        · obtain ⟨c, a, m, j, h⟩ := advanceCommit_frame
            { n with log := (insertEntries n.log (args.prevLogIndex + 1) args.entries).1 }
              args.leaderCommit
          split <;> exact ⟨_, c, a, m, j, h⟩

/-- The ends of `matchAndAppend`: no entry at the previous index, one of another term, or one of
the same term, after which the insertion loop runs. -/
theorem matchAndAppend_cases (n : CommitteeRaftNode) (args : AppendEntriesArgs) :
    (PySequence.position n.log.length args.prevLogIndex = none ∧ (n.matchAndAppend args).1 = n ∧
      ∀ reply, (n.matchAndAppend args).2 = .ok reply → reply.success = false) ∨
    ∃ k prev, PySequence.position n.log.length args.prevLogIndex = some k ∧
      n.log[k]? = some prev ∧
      ((prev.term ≠ args.prevLogTerm ∧
          (n.matchAndAppend args).1 = { n with log := n.log.take k } ∧
          ∀ reply, (n.matchAndAppend args).2 = .ok reply → reply.success = false) ∨
        (prev.term = args.prevLogTerm ∧
          ∀ l, insertEntries n.log (args.prevLogIndex + 1) args.entries = (l, none) →
            (n.matchAndAppend args).1 = ({ n with log := l }.advanceCommit args.leaderCommit).1 ∧
            ∀ reply, (n.matchAndAppend args).2 = .ok reply →
              reply.term = n.currentTerm ∧ reply.matchIndex = l.length - 1)) := by
  unfold matchAndAppend
  by_cases hmiss : (n.log.length : ℤ) ≤ args.prevLogIndex
  · left
    dsimp only
    rw [if_pos hmiss]
    exact ⟨PySequence.position_of_le hmiss, rfl, by rintro _ ⟨⟩; rfl⟩
  · dsimp only
    rw [if_neg hmiss]
    unfold PySequence.get
    cases hpos : PySequence.position n.log.length args.prevLogIndex with
    | none => exact Or.inl ⟨rfl, rfl, by rintro _ ⟨⟩⟩
    | some k =>
      have hlt : k < n.log.length := PySequence.position_lt hpos
      have hk : n.log[k]? = some n.log[k] := List.getElem?_eq_getElem hlt
      right
      refine ⟨k, n.log[k], rfl, hk, ?_⟩
      rw [Option.bind_some, hk]
      dsimp only
      by_cases hterm : n.log[k].term = args.prevLogTerm
      · right
        refine ⟨hterm, fun l hl => ?_⟩
        rw [if_neg (not_not_intro hterm), hl]
        dsimp only
        obtain ⟨c, a, m, j, hadv⟩ := advanceCommit_frame { n with log := l } args.leaderCommit
        split
        · exact ⟨rfl, by rintro _ ⟨⟩⟩
        · refine ⟨rfl, ?_⟩
          rintro _ ⟨⟩
          rw [hadv]
          exact ⟨rfl, rfl⟩
      · left
        rw [if_pos hterm, PySequence.sliceTo_of_position hpos]
        exact ⟨hterm, rfl, by rintro _ ⟨⟩; rfl⟩

@[simp] theorem catchUp_log (n : CommitteeRaftNode) (term : ℤ) :
    (n.catchUp term).log = n.log := by
  unfold catchUp
  split_ifs <;> rfl

@[simp] theorem catchUp_nodeId (n : CommitteeRaftNode) (term : ℤ) :
    (n.catchUp term).nodeId = n.nodeId := by
  unfold catchUp
  split_ifs <;> rfl

theorem catchUp_currentTerm (n : CommitteeRaftNode) (term : ℤ) :
    (n.catchUp term).currentTerm = max n.currentTerm term := by
  unfold catchUp
  split_ifs with h
  · exact (max_eq_right h.le).symm
  · exact (max_eq_left (not_lt.mp h)).symm

theorem catchUp_of_le {n : CommitteeRaftNode} {term : ℤ} (h : term ≤ n.currentTerm) :
    n.catchUp term = n := if_neg (not_lt.mpr h)

theorem catchUp_of_lt {n : CommitteeRaftNode} {term : ℤ} (h : n.currentTerm < term) :
    n.catchUp term = n.stepDown term none := if_pos h

/-- The ends of `considerVote`: an earlier term, an empty log, a refusal, a vote. -/
theorem considerVote_cases (n : CommitteeRaftNode) (args : RequestVoteArgs) :
    (args.term < n.currentTerm ∧ ∃ reason,
      n.considerVote args = (n, .ok (n.voteReply false reason))) ∨
    (n.currentTerm ≤ args.term ∧ n.lastLogTerm = none ∧
      n.considerVote args = (n.catchUp args.term, .error .indexError)) ∨
    (n.currentTerm ≤ args.term ∧ ∃ reason, n.considerVote args =
      (n.catchUp args.term, .ok ((n.catchUp args.term).voteReply false reason))) ∨
    (n.currentTerm ≤ args.term ∧
      ((n.catchUp args.term).votedFor = none ∨
        (n.catchUp args.term).votedFor = some args.candidateId) ∧
      (∃ lastLogTerm, n.lastLogTerm = some lastLogTerm ∧ n.logOk lastLogTerm args) ∧
      n.considerVote args = ({ n.catchUp args.term with votedFor := some args.candidateId },
        .ok ⟨args.term, true, n.nodeId, none⟩)) := by
  by_cases hstale : args.term < n.currentTerm
  · left
    refine ⟨hstale, ?_⟩
    unfold considerVote
    dsimp only
    rw [catchUp_of_le hstale.le, if_pos hstale]
    exact ⟨_, rfl⟩
  · right
    have hle : n.currentTerm ≤ args.term := not_lt.mp hstale
    have hterm : (n.catchUp args.term).currentTerm = args.term := by
      rw [catchUp_currentTerm, max_eq_right hle]
    have hlast : (n.catchUp args.term).lastLogTerm = n.lastLogTerm := by
      unfold lastLogTerm
      rw [catchUp_log]
    unfold considerVote
    dsimp only
    rw [if_neg (by omega), hlast]
    cases hcase : n.lastLogTerm with
    | none => exact Or.inl ⟨hle, rfl, rfl⟩
    | some lastLogTerm =>
      right
      dsimp only
      split_ifs with hcan
      · right
        have hok : n.logOk lastLogTerm args := by simpa [logOk, lastLogIndex] using hcan.2
        exact ⟨hle, hcan.1, ⟨lastLogTerm, rfl, hok⟩, by simp [voteReply, hterm]⟩
      · exact Or.inl ⟨hle, _, rfl⟩

theorem recognizeLeader_of_lt {n : CommitteeRaftNode} {args : AppendEntriesArgs}
    (h : args.term < n.currentTerm) : n.recognizeLeader args = n := by
  unfold recognizeLeader
  rw [if_neg (not_lt.mpr h.le), if_neg (fun hc => h.ne hc.1)]

@[simp] theorem recognizeLeader_nodeId (n : CommitteeRaftNode) (args : AppendEntriesArgs) :
    (n.recognizeLeader args).nodeId = n.nodeId := by
  unfold recognizeLeader
  split_ifs <;> rfl

theorem recognizeLeader_currentTerm (n : CommitteeRaftNode) (args : AppendEntriesArgs) :
    (n.recognizeLeader args).currentTerm = max n.currentTerm args.term := by
  unfold recognizeLeader
  split_ifs with h₁ h₂
  · exact (max_eq_right h₁.le).symm
  · rw [← h₂.1, max_self]
    rfl
  · exact (max_eq_left (not_lt.mp h₁)).symm

/-- `followLeader` rejects an earlier term, and otherwise goes on to the log check as a
follower in the term of the message. -/
theorem followLeader_cases (n : CommitteeRaftNode) (args : AppendEntriesArgs) :
    (args.term < n.currentTerm ∧ ∃ message,
      n.followLeader args = (n, .ok (n.appendReply false 0 message))) ∨
    (n.currentTerm ≤ args.term ∧ n.followLeader args =
      { n.recognizeLeader args with leaderId := args.leaderId }.matchAndAppend args) := by
  unfold followLeader
  dsimp only
  rw [recognizeLeader_currentTerm]
  by_cases hstale : args.term < n.currentTerm
  · left
    rw [if_pos (by omega), recognizeLeader_of_lt hstale]
    exact ⟨hstale, _, rfl⟩
  · right
    rw [if_neg (by omega)]
    exact ⟨not_lt.mp hstale, rfl⟩

/-- Counting acknowledgements and preparing a request touch only what commits and applies. -/
theorem nextAppend_frame (n : CommitteeRaftNode) (newIndex : ℤ) (entry : CommitteeLogEntry)
    (quorum : ℕ) (ackers peers : List NodeId) :
    ∃ c a m j, (n.nextAppend newIndex entry quorum ackers peers).1 =
      { n with commitIndex := c, lastApplied := a, stateMachine := m, applied := j } := by
  unfold nextAppend
  cases peers with
  | nil =>
    dsimp only
    split_ifs
    · obtain ⟨a, m, j, h⟩ := applyCommittedEntries_frame { n with commitIndex := newIndex }
      split <;> exact ⟨_, a, m, j, h⟩
    · exact ⟨n.commitIndex, n.lastApplied, n.stateMachine, n.applied, rfl⟩
  | cons p rest =>
    dsimp only
    split <;> exact ⟨n.commitIndex, n.lastApplied, n.stateMachine, n.applied, rfl⟩

/-- The node right after it became a candidate. -/
def campaigning (n : CommitteeRaftNode) : CommitteeRaftNode :=
  { n with
    currentTerm := n.currentTerm + 1
    role := .candidate
    votedFor := some n.nodeId
    leaderId := none }

/-- `start_election` wins at once, raises on an empty log, or begins to ask. -/
lemma startElection_of_lt (n : CommitteeRaftNode) (v w : View) (hmore : ¬n.getQuorumSize w ≤ 1) :
    n.startElection v w =
      match n.lastLogTerm with
      | none => (n.campaigning, .raised .indexError [])
      | some lastLogTerm => (n.campaigning, n.campaigning.nextVote
          ⟨n.currentTerm + 1, n.nodeId, n.lastLogIndex, lastLogTerm⟩ (n.getQuorumSize w)
          [n.nodeId] (n.verifiedPeers v)) :=
  if_neg hmore

theorem startElection_cases (n : CommitteeRaftNode) (v w : View) :
    (n.getQuorumSize w ≤ 1 ∧ n.startElection v w =
      (n.campaigning.becomeLeader w, .finished ⟨true, [n.nodeId]⟩)) ∨
    (1 < n.getQuorumSize w ∧ n.lastLogTerm = none ∧
      n.startElection v w = (n.campaigning, .raised .indexError [])) ∨
    (1 < n.getQuorumSize w ∧ ∃ lastLogTerm, n.lastLogTerm = some lastLogTerm ∧
      n.startElection v w = (n.campaigning, n.campaigning.nextVote
        ⟨n.currentTerm + 1, n.nodeId, n.lastLogIndex, lastLogTerm⟩ (n.getQuorumSize w)
        [n.nodeId] (n.verifiedPeers v))) := by
  by_cases hone : n.getQuorumSize w ≤ 1
  · exact Or.inl ⟨hone, if_pos hone⟩
  · right
    have hrun := n.startElection_of_lt v w hone
    cases hlast : n.lastLogTerm with
    | none =>
      rw [hlast] at hrun
      exact Or.inl ⟨not_le.mp hone, rfl, hrun⟩
    | some lastLogTerm =>
      rw [hlast] at hrun
      exact Or.inr ⟨not_le.mp hone, lastLogTerm, rfl, hrun⟩

/-- A reply of a later term ends the election, a vote that completes the quorum wins it, and
otherwise the loop goes on, with the voter counted if it granted the vote. -/
theorem voteReturned_cases (n : CommitteeRaftNode) (c : Election) (w : View)
    (reply : Option RequestVoteReply) :
    (∃ r, reply = some r ∧ n.currentTerm < r.term ∧
      n.voteReturned c w reply = (n.stepDown r.term none, .finished ⟨false, c.voters⟩)) ∨
    (∃ r, reply = some r ∧ r.term ≤ n.currentTerm ∧ r.voteGranted = true ∧
      c.quorum ≤ c.voters.length + 1 ∧ n.role = .candidate ∧ n.voteReturned c w reply =
        (n.becomeLeader w, .finished ⟨true, c.voters ++ [c.awaiting]⟩)) ∨
    (∃ voters, (voters = c.voters ∨ (voters = c.voters ++ [c.awaiting] ∧
        ∃ r, reply = some r ∧ r.term ≤ n.currentTerm ∧ r.voteGranted = true)) ∧
      n.voteReturned c w reply = (n, n.nextVote c.args c.quorum voters c.remaining)) := by
  cases reply with
  | none => exact Or.inr (Or.inr ⟨c.voters, Or.inl rfl, rfl⟩)
  | some r =>
    unfold voteReturned
    dsimp only
    split_ifs with hlater hyes hwin
    · exact Or.inl ⟨r, rfl, hlater, rfl⟩
    · right; left
      exact ⟨r, rfl, not_lt.mp hlater, hyes, by simpa using hwin.1, hwin.2, rfl⟩
    · right; right
      exact ⟨_, Or.inr ⟨rfl, r, rfl, not_lt.mp hlater, hyes⟩, rfl⟩
    · exact Or.inr (Or.inr ⟨c.voters, Or.inl rfl, rfl⟩)

/-- A round of the replication loop sends the next request or raises; the end of the loop commits
or reports that the quorum was missed. -/
theorem nextAppend_cases (n : CommitteeRaftNode) (newIndex : ℤ) (entry : CommitteeLogEntry)
    (quorum : ℕ) (ackers peers : List NodeId) :
    (peers = [] ∧ quorum ≤ ackers.length ∧
      (n.nextAppend newIndex entry quorum ackers peers).1 =
        (applyCommittedEntries { n with commitIndex := newIndex }).1 ∧
      ((n.nextAppend newIndex entry quorum ackers peers).2 =
          .finished ⟨true, some entry, "Committed by quorum", ackers⟩ ∨
        ∃ error, (n.nextAppend newIndex entry quorum ackers peers).2 =
          .raised error ackers)) ∨
    (peers = [] ∧ ackers.length < quorum ∧ ∃ message,
      n.nextAppend newIndex entry quorum ackers peers =
        (n, .finished ⟨false, some entry, message, ackers⟩)) ∨
    (∃ p rest error, peers = p :: rest ∧ n.appendArgs newIndex p = .error error ∧
      n.nextAppend newIndex entry quorum ackers peers = (n, .raised error [])) ∨
    (∃ p rest args, peers = p :: rest ∧ n.appendArgs newIndex p = .ok args ∧
      n.nextAppend newIndex entry quorum ackers peers =
        (n, .waiting ⟨newIndex, entry, quorum, ackers, args, p, rest⟩)) := by
  cases peers with
  | nil =>
    unfold nextAppend
    dsimp only
    by_cases hquorum : quorum ≤ ackers.length
    · left
      rw [if_pos hquorum]
      refine ⟨rfl, hquorum, ?_⟩
      split
      · exact ⟨rfl, Or.inr ⟨_, rfl⟩⟩
      · exact ⟨rfl, Or.inl rfl⟩
    · right; left
      rw [if_neg hquorum]
      exact ⟨rfl, not_le.mp hquorum, _, rfl⟩
  | cons p rest =>
    right; right
    unfold nextAppend
    dsimp only
    cases hargs : n.appendArgs newIndex p with
    | error error => exact Or.inl ⟨p, rest, error, rfl, hargs, rfl⟩
    | ok args => exact Or.inr ⟨p, rest, args, rfl, hargs, rfl⟩

theorem proposeEntry_cases (n : CommitteeRaftNode) (v w : View)
    (entryType : CommitteeEntryType) (payload : Payload) (author : Option NodeId) :
    (n.role ≠ .leader ∧ ∃ message, n.proposeEntry v w entryType payload author =
      (n, .finished ⟨false, none, message, []⟩)) ∨
    (n.role = .leader ∧ n.proposeEntry v w entryType payload author =
      { n with log := n.log ++ [n.newEntry entryType payload author] }.nextAppend n.log.length
        (n.newEntry entryType payload author) (n.getQuorumSize v) [n.nodeId]
        (n.verifiedPeers w)) := by
  unfold proposeEntry
  by_cases hrole : n.role = .leader
  · rw [if_neg (not_not_intro hrole)]
    exact Or.inr ⟨hrole, rfl⟩
  · rw [if_pos hrole]
    exact Or.inl ⟨hrole, _, rfl⟩

end CommitteeRaftNode

/-- The nodes counted once the reply that the call waits for is in. -/
def Proposal.counted (c : Proposal) (reply : Option AppendEntriesReply) : List NodeId :=
  if reply.any AppendEntriesReply.success then c.ackers ++ [c.awaiting] else c.ackers

namespace CommitteeRaftNode

/-- What `propose_entry` notes about the peer that replied. -/
def noted (n : CommitteeRaftNode) (c : Proposal) : Option AppendEntriesReply → CommitteeRaftNode
  | none => n
  | some r => if r.success then n.recordAck c.awaiting r.matchIndex
      else n.recordRefusal c.awaiting c.newIndex

theorem noted_frame (n : CommitteeRaftNode) (c : Proposal) (reply : Option AppendEntriesReply) :
    ∃ x y, n.noted c reply = { n with nextIndex := x, matchIndex := y } := by
  unfold noted
  cases reply with
  | none => exact ⟨n.nextIndex, n.matchIndex, rfl⟩
  | some r =>
    dsimp only
    split_ifs
    · exact ⟨_, _, rfl⟩
    · exact ⟨_, n.matchIndex, rfl⟩

/-- A reply of a later term ends the call, any other is noted and counted. -/
theorem appendReturned_cases (n : CommitteeRaftNode) (c : Proposal)
    (reply : Option AppendEntriesReply) :
    (∃ r, reply = some r ∧ n.currentTerm < r.term ∧ n.appendReturned c reply =
      (n.stepDown r.term none,
        .finished ⟨false, none, "Stepped down due to higher term peer", c.ackers⟩)) ∨
    ((∀ r, reply = some r → r.term ≤ n.currentTerm) ∧ n.appendReturned c reply =
      (n.noted c reply).nextAppend c.newIndex c.entry c.quorum (c.counted reply)
        c.remaining) := by
  cases reply with
  | none => exact Or.inr ⟨by simp, rfl⟩
  | some r =>
    unfold appendReturned
    dsimp only
    by_cases hlater : n.currentTerm < r.term
    · rw [if_pos hlater]
      exact Or.inl ⟨r, rfl, hlater, rfl⟩
    · rw [if_neg hlater]
      refine Or.inr ⟨by rintro _ ⟨⟩; exact not_lt.mp hlater, ?_⟩
      by_cases hok : r.success = true <;> simp [noted, Proposal.counted, hok]

/-- A handler either leaves role and term alone or makes the node a follower. -/
theorem handleRequestVote_role (n : CommitteeRaftNode) (blocked : Bool) (v : View)
    (args : RequestVoteArgs) :
    ((n.handleRequestVote blocked v args).1.role = n.role ∧
      (n.handleRequestVote blocked v args).1.currentTerm = n.currentTerm) ∨
    (n.handleRequestVote blocked v args).1.role = .follower := by
  have hcatch : ((n.catchUp args.term).role = n.role ∧
      (n.catchUp args.term).currentTerm = n.currentTerm) ∨
      (n.catchUp args.term).role = .follower := by
    unfold catchUp
    split_ifs
    · exact Or.inr rfl
    · exact Or.inl ⟨rfl, rfl⟩
  unfold handleRequestVote
  split_ifs
  · exact Or.inl ⟨rfl, rfl⟩
  · rcases n.considerVote_cases args with ⟨_, _, heq⟩ | ⟨_, _, heq⟩ | ⟨_, _, heq⟩ | ⟨_, _, _, heq⟩
    · rw [heq]
      exact Or.inl ⟨rfl, rfl⟩
    all_goals
      rw [heq]
      exact hcatch
  · exact Or.inl ⟨rfl, rfl⟩

theorem handleAppendEntries_role (n : CommitteeRaftNode) (blocked : Bool) (v : View)
    (args : AppendEntriesArgs) :
    ((n.handleAppendEntries blocked v args).1.role = n.role ∧
      (n.handleAppendEntries blocked v args).1.currentTerm = n.currentTerm) ∨
    (n.handleAppendEntries blocked v args).1.role = .follower := by
  unfold handleAppendEntries
  split_ifs
  · exact Or.inl ⟨rfl, rfl⟩
  · rcases n.followLeader_cases args with ⟨_, _, heq⟩ | ⟨_, heq⟩
    · rw [heq]
      exact Or.inl ⟨rfl, rfl⟩
    · obtain ⟨l, c, a, m, j, hframe⟩ := matchAndAppend_frame
        { n.recognizeLeader args with leaderId := args.leaderId } args
      rw [heq, hframe]
      dsimp only
      unfold recognizeLeader
      split_ifs
      · exact Or.inr rfl
      · exact Or.inr rfl
      · exact Or.inl ⟨rfl, rfl⟩
  · exact Or.inl ⟨rfl, rfl⟩

/-- A vote request that fails a check, or is of no later term, changes at most the vote. -/
theorem handleRequestVote_same {n : CommitteeRaftNode} {blocked : Bool} {v : View}
    {args : RequestVoteArgs} (h : blocked = true ∨ v.attested args.candidateId = false ∨
      args.term ≤ n.currentTerm) :
    ∃ vote, (n.handleRequestVote blocked v args).1 = { n with votedFor := vote } := by
  unfold handleRequestVote
  split_ifs with hblocked hattested
  · exact ⟨n.votedFor, rfl⟩
  · have hle := (h.resolve_left hblocked).resolve_left (by simp [hattested])
    rcases n.considerVote_cases args with ⟨_, _, heq⟩ | ⟨_, _, heq⟩ | ⟨_, _, heq⟩ | ⟨_, _, _, heq⟩
    · exact ⟨n.votedFor, by rw [heq]⟩
    · exact ⟨n.votedFor, by rw [heq, catchUp_of_le hle]⟩
    · exact ⟨n.votedFor, by rw [heq, catchUp_of_le hle]⟩
    · exact ⟨some args.candidateId, by rw [heq, catchUp_of_le hle]⟩
  · exact ⟨n.votedFor, rfl⟩

/-- An append request that fails a check, or is of an earlier term, changes nothing. -/
theorem handleAppendEntries_same {n : CommitteeRaftNode} {blocked : Bool} {v : View}
    {args : AppendEntriesArgs} (h : blocked = true ∨ v.attested args.leaderId = false ∨
      args.term < n.currentTerm) : (n.handleAppendEntries blocked v args).1 = n := by
  unfold handleAppendEntries
  split_ifs with hblocked hattested
  · rfl
  · have hstale := (h.resolve_left hblocked).resolve_left (by simp [hattested])
    rcases n.followLeader_cases args with ⟨_, _, heq⟩ | ⟨hle, _⟩
    · rw [heq]
    · exact absurd hstale (not_lt.mpr hle)
  · rfl

end CommitteeRaftNode

namespace Site

variable {s s' : Site} {o : Output}

theorem step_startElection {v w : View} (h : s.step (.startElection v w) = some (s', o)) :
    s.election = none ∧ s.afterElection (s.node.startElection v w) = (s', o) := by
  simpa [step] using h

theorem step_voteReturned {w : View} {reply : Option RequestVoteReply}
    (h : s.step (.voteReturned w reply) = some (s', o)) :
    ∃ c, s.election = some c ∧ s.afterElection (s.node.voteReturned c w reply) = (s', o) := by
  simpa [step] using h

theorem step_proposeEntry {v w : View} {entryType : CommitteeEntryType} {payload : Payload}
    {author : Option NodeId}
    (h : s.step (.proposeEntry v w entryType payload author) = some (s', o)) :
    s.proposal = none ∧
      s.afterProposal (s.node.proposeEntry v w entryType payload author) = (s', o) := by
  simpa [step] using h

theorem step_appendReturned {reply : Option AppendEntriesReply}
    (h : s.step (.appendReturned reply) = some (s', o)) :
    ∃ c, s.proposal = some c ∧ s.afterProposal (s.node.appendReturned c reply) = (s', o) := by
  simpa [step] using h

theorem step_requestVote {blocked : Bool} {v : View} {args : RequestVoteArgs}
    (h : s.step (.requestVote blocked v args) = some (s', o)) :
    s.afterVote args (s.node.handleRequestVote blocked v args) = (s', o) := by
  simpa [step] using h

theorem step_appendEntries {blocked : Bool} {v : View} {args : AppendEntriesArgs}
    (h : s.step (.appendEntries blocked v args) = some (s', o)) :
    s.afterAppend args (s.node.handleAppendEntries blocked v args) = (s', o) := by
  simpa [step] using h

theorem afterElection_cases {r : CommitteeRaftNode × Progress Election ElectionResult}
    (h : s.afterElection r = (s', o)) :
    (∃ c, r.2 = .waiting c ∧ s' = { s with node := r.1, election := some c } ∧
      o = .sentVote c.awaiting c.args) ∨
    (∃ result, r.2 = .finished result ∧ s' = { s with node := r.1, election := none } ∧
      o = .elected result) ∨
    (∃ error counted, r.2 = .raised error counted ∧
      s' = { s with node := r.1, election := none } ∧ o = .raised error counted) := by
  unfold afterElection at h
  cases hr : r.2 with
  | waiting c =>
    rw [hr] at h
    cases h
    exact Or.inl ⟨c, rfl, rfl, rfl⟩
  | finished result =>
    rw [hr] at h
    cases h
    exact Or.inr (Or.inl ⟨result, rfl, rfl, rfl⟩)
  | raised error counted =>
    rw [hr] at h
    cases h
    exact Or.inr (Or.inr ⟨error, counted, rfl, rfl, rfl⟩)

theorem afterProposal_cases {r : CommitteeRaftNode × Progress Proposal ProposeResult}
    (h : s.afterProposal r = (s', o)) :
    (∃ c, r.2 = .waiting c ∧ s' = { s with node := r.1, proposal := some c } ∧
      o = .sentAppend c.awaiting c.args) ∨
    (∃ result, r.2 = .finished result ∧ s' = { s with node := r.1, proposal := none } ∧
      o = .proposed result) ∨
    (∃ error counted, r.2 = .raised error counted ∧
      s' = { s with node := r.1, proposal := none } ∧ o = .raised error counted) := by
  unfold afterProposal at h
  cases hr : r.2 with
  | waiting c =>
    rw [hr] at h
    cases h
    exact Or.inl ⟨c, rfl, rfl, rfl⟩
  | finished result =>
    rw [hr] at h
    cases h
    exact Or.inr (Or.inl ⟨result, rfl, rfl, rfl⟩)
  | raised error counted =>
    rw [hr] at h
    cases h
    exact Or.inr (Or.inr ⟨error, counted, rfl, rfl, rfl⟩)

theorem afterElection_node {r : CommitteeRaftNode × Progress Election ElectionResult}
    (h : s.afterElection r = (s', o)) : s'.node = r.1 := by
  rcases afterElection_cases h with ⟨_, _, rfl, _⟩ | ⟨_, _, rfl, _⟩ | ⟨_, _, _, rfl, _⟩ <;> rfl

theorem afterProposal_node {r : CommitteeRaftNode × Progress Proposal ProposeResult}
    (h : s.afterProposal r = (s', o)) : s'.node = r.1 := by
  rcases afterProposal_cases h with ⟨_, _, rfl, _⟩ | ⟨_, _, rfl, _⟩ | ⟨_, _, _, rfl, _⟩ <;> rfl

/-- After a handler the calls in progress are the same, and the output is its reply. -/
theorem afterVote_cases {args : RequestVoteArgs}
    {r : CommitteeRaftNode × Except PyError RequestVoteReply}
    (h : s.afterVote args r = (s', o)) : s' = { s with node := r.1 } ∧
      ((∃ reply, r.2 = .ok reply ∧ o = .voteReply args reply) ∨ ∃ error, o = .raised error []) := by
  unfold afterVote at h
  split at h
  · next reply hreply =>
    cases h
    exact ⟨rfl, Or.inl ⟨reply, hreply, rfl⟩⟩
  · next error _ =>
    cases h
    exact ⟨rfl, Or.inr ⟨error, rfl⟩⟩

theorem afterAppend_cases {args : AppendEntriesArgs}
    {r : CommitteeRaftNode × Except PyError AppendEntriesReply}
    (h : s.afterAppend args r = (s', o)) : s' = { s with node := r.1 } ∧
      ((∃ reply, r.2 = .ok reply ∧ o = .appendReply args reply) ∨ ∃ error, o = .raised error []) := by
  unfold afterAppend at h
  split at h
  · next reply hreply =>
    cases h
    exact ⟨rfl, Or.inl ⟨reply, hreply, rfl⟩⟩
  · next error _ =>
    cases h
    exact ⟨rfl, Or.inr ⟨error, rfl⟩⟩

/-- A node keeps its id. -/
theorem step_nodeId {i : Input} (h : s.step i = some (s', o)) :
    s'.node.nodeId = s.node.nodeId := by
  cases i with
  | startElection v w =>
    rw [afterElection_node (step_startElection h).2]
    rcases s.node.startElection_cases v w with ⟨_, heq⟩ | ⟨_, _, heq⟩ | ⟨_, _, _, heq⟩ <;>
      rw [heq] <;> rfl
  | voteReturned w reply =>
    obtain ⟨c, _, h⟩ := step_voteReturned h
    rw [afterElection_node h]
    rcases s.node.voteReturned_cases c w reply with
      ⟨_, _, _, heq⟩ | ⟨_, _, _, _, _, _, heq⟩ | ⟨_, _, heq⟩ <;> rw [heq] <;> rfl
  | proposeEntry v w entryType payload author =>
    rw [afterProposal_node (step_proposeEntry h).2]
    rcases s.node.proposeEntry_cases v w entryType payload author with ⟨_, _, heq⟩ | ⟨_, heq⟩
    · rw [heq]
    · rw [heq]
      obtain ⟨c, a, m, j, hframe⟩ := CommitteeRaftNode.nextAppend_frame
        { s.node with log := s.node.log ++ [s.node.newEntry entryType payload author] }
        s.node.log.length (s.node.newEntry entryType payload author) (s.node.getQuorumSize v)
        [s.node.nodeId] (s.node.verifiedPeers w)
      rw [hframe]
  | appendReturned reply =>
    obtain ⟨c, _, h⟩ := step_appendReturned h
    rw [afterProposal_node h]
    rcases s.node.appendReturned_cases c reply with ⟨_, _, _, heq⟩ | ⟨_, heq⟩
    · rw [heq]
      rfl
    · rw [heq]
      obtain ⟨x, y, hnoted⟩ := s.node.noted_frame c reply
      obtain ⟨k, a, m, j, hframe⟩ := CommitteeRaftNode.nextAppend_frame (s.node.noted c reply)
        c.newIndex c.entry c.quorum (c.counted reply) c.remaining
      rw [hframe, hnoted]
  | requestVote blocked v args =>
    obtain ⟨rfl, _⟩ := afterVote_cases (step_requestVote h)
    dsimp only
    unfold CommitteeRaftNode.handleRequestVote
    split_ifs
    · rfl
    · rcases s.node.considerVote_cases args with
        ⟨_, _, heq⟩ | ⟨_, _, heq⟩ | ⟨_, _, heq⟩ | ⟨_, _, _, heq⟩ <;> rw [heq] <;> simp
    · rfl
  | appendEntries blocked v args =>
    obtain ⟨rfl, _⟩ := afterAppend_cases (step_appendEntries h)
    dsimp only
    unfold CommitteeRaftNode.handleAppendEntries
    split_ifs
    · rfl
    · rcases s.node.followLeader_cases args with ⟨_, _, heq⟩ | ⟨_, heq⟩
      · rw [heq]
      · rw [heq]
        obtain ⟨l, c, a, m, j, hframe⟩ := CommitteeRaftNode.matchAndAppend_frame
          { s.node.recognizeLeader args with leaderId := args.leaderId } args
        rw [hframe]
        simp
    · rfl

/-- Only an election makes a leader. -/
theorem step_role {i : Input} (h : s.step i = some (s', o)) :
    (∃ v w, i = .startElection v w) ∨ (∃ w reply, i = .voteReturned w reply) ∨
      s'.node.role = s.node.role ∨ s'.node.role = .follower := by
  cases i with
  | startElection v w => exact Or.inl ⟨v, w, rfl⟩
  | voteReturned w reply => exact Or.inr (Or.inl ⟨w, reply, rfl⟩)
  | proposeEntry v w entryType payload author =>
    right; right; left
    rw [afterProposal_node (step_proposeEntry h).2]
    rcases s.node.proposeEntry_cases v w entryType payload author with ⟨_, _, heq⟩ | ⟨_, heq⟩
    · rw [heq]
    · rw [heq]
      obtain ⟨c, a, m, j, hframe⟩ := CommitteeRaftNode.nextAppend_frame
        { s.node with log := s.node.log ++ [s.node.newEntry entryType payload author] }
        s.node.log.length (s.node.newEntry entryType payload author) (s.node.getQuorumSize v)
        [s.node.nodeId] (s.node.verifiedPeers w)
      rw [hframe]
  | appendReturned reply =>
    right; right
    obtain ⟨c, _, h⟩ := step_appendReturned h
    rw [afterProposal_node h]
    rcases s.node.appendReturned_cases c reply with ⟨_, _, _, heq⟩ | ⟨_, heq⟩
    · rw [heq]
      exact Or.inr rfl
    · rw [heq]
      obtain ⟨x, y, hnoted⟩ := s.node.noted_frame c reply
      obtain ⟨k, a, m, j, hframe⟩ := CommitteeRaftNode.nextAppend_frame (s.node.noted c reply)
        c.newIndex c.entry c.quorum (c.counted reply) c.remaining
      rw [hframe, hnoted]
      exact Or.inl rfl
  | requestVote blocked v args =>
    obtain ⟨rfl, _⟩ := afterVote_cases (step_requestVote h)
    exact Or.inr (Or.inr ((s.node.handleRequestVote_role blocked v args).imp_left And.left))
  | appendEntries blocked v args =>
    obtain ⟨rfl, _⟩ := afterAppend_cases (step_appendEntries h)
    exact Or.inr (Or.inr ((s.node.handleAppendEntries_role blocked v args).imp_left And.left))

end Site

end AgentSystem.Raft
