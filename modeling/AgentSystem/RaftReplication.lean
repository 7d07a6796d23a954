import AgentSystem.RaftSafety

/-!
# Replication along a run of the cluster

What the logs, the committed entries and the state machines of the members have in common at any
two moments of a steady run. A step of a node leaves its commit index alone, follows the index of
a leader or counts its own entry; what it committed before stays in its log, so that the index
only moves forward and the entries are applied one by one.
-/
namespace AgentSystem.Raft

open ReplicatedLog CommitteeRaftNode

/-! ## The journal of a node -/

/-- The entries of the log that the node takes for committed. -/
def CommitteeRaftNode.committed (x : CommitteeRaftNode) : List CommitteeLogEntry :=
  x.log.take (x.commitIndex + 1).toNat

/-- What applying a journal makes of a state machine. An entry that raises counts as applied. -/
def replay (m : CommitteeStateMachine) (journal : List (ℤ × CommitteeLogEntry)) :
    CommitteeStateMachine :=
  journal.foldl (fun m p => (m.applyEntry p.2).1) m

/-- The journal that applies the log in order up to an index. -/
def journalTo (log : List CommitteeLogEntry) (k : ℕ) : List (ℤ × CommitteeLogEntry) :=
  ((log.take (k + 1)).drop 1).mapIdx fun i e => ((i : ℤ) + 1, e)

@[simp] lemma journalTo_length (log : List CommitteeLogEntry) (k : ℕ) :
    (journalTo log k).length = min (k + 1) log.length - 1 := by
  simp [journalTo]

lemma journalTo_zero (log : List CommitteeLogEntry) : journalTo log 0 = [] := by
  cases log <;> simp [journalTo]

lemma journalTo_succ {log : List CommitteeLogEntry} {k : ℕ} {e : CommitteeLogEntry}
    (he : log[k + 1]? = some e) : journalTo log (k + 1) = journalTo log k ++ [((k : ℤ) + 1, e)] := by
  obtain ⟨hlt, rfl⟩ := List.getElem?_eq_some_iff.mp he
  have htake : log.take (k + 1 + 1) = log.take (k + 1) ++ [log[k + 1]] :=
    (List.take_concat_get' log (k + 1) hlt).symm
  have hlen : (log.take (k + 1)).length = k + 1 := by simp; omega
  unfold journalTo
  rw [htake, List.drop_append_of_le_length (by omega), List.mapIdx_append]
  simp [hlen]

/-- A longer journal of a log that keeps the shorter one's entries. -/
lemma journalTo_isPrefix {log log' : List CommitteeLogEntry} {k k' : ℕ} (hk : k ≤ k')
    (hlog : log.take (k + 1) <+: log') : journalTo log k <+: journalTo log' k' := by
  have htake : log.take (k + 1) <+: log'.take (k' + 1) := by
    refine List.prefix_take_iff.mpr ⟨hlog, ?_⟩
    simp
    omega
  obtain ⟨rest, hrest⟩ := htake
  unfold journalTo
  rw [← hrest]
  cases htaken : log.take (k + 1) with
  | nil => simp
  | cons x xs =>
    rw [List.cons_append, List.drop_one, List.drop_one, List.tail_cons, List.tail_cons,
      List.mapIdx_append]
    exact List.prefix_append _ _

/-- A node has applied the entries of its log one by one, each once. -/
structure Journaled (x : CommitteeRaftNode) : Prop where
  nonneg : 0 ≤ x.lastApplied
  journal : x.applied = journalTo x.log x.lastApplied.toNat
  machine : x.stateMachine = replay {} x.applied

lemma journaled_fresh (nodeId : NodeId) : Journaled { nodeId := nodeId } :=
  ⟨le_rfl, rfl, rfl⟩

/-- One round of the apply loop. -/
lemma Journaled.apply {x : CommitteeRaftNode} (h : Journaled x) {e : CommitteeLogEntry}
    (he : PySequence.get x.log (x.lastApplied + 1) = some e) :
    Journaled { x with
      lastApplied := x.lastApplied + 1
      stateMachine := (x.stateMachine.applyEntry e).1
      applied := x.applied ++ [(x.lastApplied + 1, e)] } := by
  obtain ⟨k, hk⟩ := Int.eq_ofNat_of_zero_le h.nonneg
  have he' : x.log[k + 1]? = some e := by
    rw [hk, show (k : ℤ) + 1 = ((k + 1 : ℕ) : ℤ) by push_cast; rfl, PySequence.get_natCast] at he
    exact he
  refine ⟨by have := h.nonneg; simp; omega, ?_, ?_⟩
  · have hto : (x.lastApplied + 1).toNat = k + 1 := by omega
    have hof : x.lastApplied.toNat = k := by omega
    dsimp only
    rw [h.journal, hto, hof, hk, journalTo_succ he']
  · simp [replay, h.machine, List.foldl_append]

/-- The apply loop inside the log applies one entry a round. -/
lemma Journaled.applyRounds {k : ℕ} {x : CommitteeRaftNode} (h : Journaled x)
    (hlast : x.lastApplied + k < x.log.length) : Journaled (applyRounds k x).1 := by
  induction k generalizing x with
  | zero => exact h
  | succ k ih =>
    have hnonneg := h.nonneg
    have hin : x.lastApplied + 1 < x.log.length := by push_cast at hlast; omega
    obtain ⟨e, he⟩ : ∃ e, PySequence.get x.log (x.lastApplied + 1) = some e := by
      obtain ⟨m, hm⟩ := Int.eq_ofNat_of_zero_le (by omega : 0 ≤ x.lastApplied + 1)
      rw [hm, PySequence.get_natCast]
      exact ⟨_, List.getElem?_eq_getElem (by omega)⟩
    have hround := h.apply he
    unfold CommitteeRaftNode.applyRounds
    dsimp only
    rw [if_pos hin, he]
    dsimp only
    split
    · exact hround
    · refine ih hround ?_
      push_cast at hlast
      dsimp only
      omega

lemma Journaled.applyCommittedEntries {x : CommitteeRaftNode} (h : Journaled x)
    (hlast : x.lastApplied ≤ x.commitIndex) (hcommit : x.commitIndex < x.log.length) :
    Journaled (applyCommittedEntries x).1 := by
  refine h.applyRounds ?_
  omega

/-! ## What a step does with the commit index -/

/-- Two nodes that have applied the same. -/
structure SameApplied (x y : CommitteeRaftNode) : Prop where
  lastApplied : y.lastApplied = x.lastApplied
  stateMachine : y.stateMachine = x.stateMachine
  applied : y.applied = x.applied

/-- A step leaves the commit index alone, follows a later index of a leader up to the end of the
log, or commits the last entry of the log; in the last two cases it applies what it committed. -/
inductive Commitment (x : CommitteeRaftNode) : CommitteeRaftNode → Prop
  | keeps {y : CommitteeRaftNode} (commit : y.commitIndex = x.commitIndex)
      (same : SameApplied x y) : Commitment x y
  | follows {y : CommitteeRaftNode} {leaderCommit : ℤ} (later : x.commitIndex < leaderCommit)
      (commit : y.commitIndex = min leaderCommit y.lastLogIndex) (same : SameApplied x y) :
      Commitment x (applyCommittedEntries y).1
  | counts {y : CommitteeRaftNode} (commit : y.commitIndex = y.lastLogIndex)
      (same : SameApplied x y) : Commitment x (applyCommittedEntries y).1

lemma Commitment.refl (x : CommitteeRaftNode) : Commitment x x := .keeps rfl ⟨rfl, rfl, rfl⟩

/-- What was committed and applied is all that a commitment looks at. -/
lemma Commitment.of_same {x z y : CommitteeRaftNode} (h : Commitment z y)
    (hcommit : z.commitIndex = x.commitIndex) (hsame : SameApplied x z) : Commitment x y := by
  have htrans : ∀ {w : CommitteeRaftNode}, SameApplied z w → SameApplied x w := fun hw =>
    ⟨hw.lastApplied.trans hsame.lastApplied, hw.stateMachine.trans hsame.stateMachine,
      hw.applied.trans hsame.applied⟩
  cases h with
  | keeps commit same => exact .keeps (commit.trans hcommit) (htrans same)
  | follows later commit same => exact .follows (hcommit ▸ later) commit (htrans same)
  | counts commit same => exact .counts commit (htrans same)

lemma commitment_advanceCommit (x : CommitteeRaftNode) (leaderCommit : ℤ) :
    Commitment x (x.advanceCommit leaderCommit).1 := by
  unfold advanceCommit
  split_ifs with hlater
  · exact .follows hlater rfl ⟨rfl, rfl, rfl⟩
  · exact Commitment.refl x

lemma commitment_matchAndAppend (x : CommitteeRaftNode) (args : AppendEntriesArgs) :
    Commitment x (x.matchAndAppend args).1 := by
  have hlog : ∀ l : List CommitteeLogEntry,
      Commitment x ({ x with log := l }.advanceCommit args.leaderCommit).1 := fun l =>
    (commitment_advanceCommit { x with log := l } args.leaderCommit).of_same rfl ⟨rfl, rfl, rfl⟩
  unfold matchAndAppend
  dsimp only
  split_ifs
  · exact Commitment.refl x
  · split
    · exact Commitment.refl x
    · split_ifs
      · exact .keeps rfl ⟨rfl, rfl, rfl⟩
      · split
        · exact .keeps rfl ⟨rfl, rfl, rfl⟩
        · split <;> exact hlog _

/-- Stepping down for a later term commits nothing. -/
lemma same_catchUp (x : CommitteeRaftNode) (term : ℤ) :
    (x.catchUp term).commitIndex = x.commitIndex ∧ SameApplied x (x.catchUp term) := by
  unfold catchUp
  split_ifs <;> exact ⟨rfl, rfl, rfl, rfl⟩

lemma same_recognizeLeader (x : CommitteeRaftNode) (args : AppendEntriesArgs) :
    (x.recognizeLeader args).commitIndex = x.commitIndex ∧
      SameApplied x (x.recognizeLeader args) := by
  unfold recognizeLeader
  split_ifs <;> exact ⟨rfl, rfl, rfl, rfl⟩

lemma commitment_handleRequestVote (x : CommitteeRaftNode) (blocked : Bool) (v : View)
    (args : RequestVoteArgs) : Commitment x (x.handleRequestVote blocked v args).1 := by
  obtain ⟨hcommit, hsame⟩ := same_catchUp x args.term
  unfold handleRequestVote
  split_ifs
  · exact Commitment.refl x
  · rcases x.considerVote_cases args with
      ⟨_, _, heq⟩ | ⟨_, _, heq⟩ | ⟨_, _, heq⟩ | ⟨_, _, _, heq⟩ <;> rw [heq]
    · exact Commitment.refl x
    · exact .keeps hcommit hsame
    · exact .keeps hcommit hsame
    · exact .keeps hcommit ⟨hsame.lastApplied, hsame.stateMachine, hsame.applied⟩
  · exact Commitment.refl x

lemma commitment_handleAppendEntries (x : CommitteeRaftNode) (blocked : Bool) (v : View)
    (args : AppendEntriesArgs) : Commitment x (x.handleAppendEntries blocked v args).1 := by
  obtain ⟨hcommit, hsame⟩ := same_recognizeLeader x args
  unfold handleAppendEntries
  split_ifs
  · exact Commitment.refl x
  · rcases x.followLeader_cases args with ⟨_, _, heq⟩ | ⟨_, heq⟩ <;> rw [heq]
    · exact Commitment.refl x
    · refine (commitment_matchAndAppend _ args).of_same hcommit ?_
      exact ⟨hsame.lastApplied, hsame.stateMachine, hsame.applied⟩
  · exact Commitment.refl x

/-- Counting acknowledgements commits at most the last entry. -/
lemma commitment_nextAppend (x : CommitteeRaftNode) {newIndex : ℤ} (entry : CommitteeLogEntry)
    (quorum : ℕ) (ackers peers : List NodeId) (hlast : newIndex = x.lastLogIndex) :
    Commitment x (x.nextAppend newIndex entry quorum ackers peers).1 := by
  rcases x.nextAppend_cases newIndex entry quorum ackers peers with
    ⟨_, _, heq, _⟩ | ⟨_, _, _, heq⟩ | ⟨_, _, _, _, _, heq⟩ | ⟨_, _, _, _, _, heq⟩ <;> rw [heq]
  · exact .counts hlast ⟨rfl, rfl, rfl⟩
  all_goals exact Commitment.refl x

/-- The commitment of a step of a site whose waiting proposal is about the end of the log. -/
theorem Site.step_commitment {s s' : Site} {i : Input} {o : Output}
    (hproposal : ∀ p, s.proposal = some p → p.newIndex = s.node.lastLogIndex)
    (h : s.step i = some (s', o)) : Commitment s.node s'.node := by
  cases i with
  | startElection v w =>
    rw [afterElection_node (step_startElection h).2]
    rcases s.node.startElection_cases v w with ⟨_, heq⟩ | ⟨_, _, heq⟩ | ⟨_, _, _, heq⟩ <;>
      rw [heq] <;> exact .keeps rfl ⟨rfl, rfl, rfl⟩
  | voteReturned w reply =>
    obtain ⟨c, _, h⟩ := step_voteReturned h
    rw [afterElection_node h]
    rcases s.node.voteReturned_cases c w reply with
      ⟨_, _, _, heq⟩ | ⟨_, _, _, _, _, _, heq⟩ | ⟨_, _, heq⟩ <;> rw [heq] <;>
        exact .keeps rfl ⟨rfl, rfl, rfl⟩
  | proposeEntry v w entryType payload author =>
    rw [afterProposal_node (step_proposeEntry h).2]
    rcases s.node.proposeEntry_cases v w entryType payload author with ⟨_, _, heq⟩ | ⟨_, heq⟩ <;>
      rw [heq]
    · exact Commitment.refl _
    · refine (commitment_nextAppend _ _ _ _ _ ?_).of_same rfl ⟨rfl, rfl, rfl⟩
      simp [lastLogIndex]
  | appendReturned reply =>
    obtain ⟨c, hc, h⟩ := step_appendReturned h
    rw [afterProposal_node h]
    rcases s.node.appendReturned_cases c reply with ⟨_, _, _, heq⟩ | ⟨_, heq⟩ <;> rw [heq]
    · exact .keeps rfl ⟨rfl, rfl, rfl⟩
    · obtain ⟨x, y, hnoted⟩ := s.node.noted_frame c reply
      rw [hnoted]
      refine (commitment_nextAppend _ _ _ _ _ ?_).of_same rfl ⟨rfl, rfl, rfl⟩
      exact hproposal c hc
  | requestVote blocked v args =>
    obtain ⟨rfl, _⟩ := afterVote_cases (step_requestVote h)
    exact commitment_handleRequestVote s.node blocked v args
  | appendEntries blocked v args =>
    obtain ⟨rfl, _⟩ := afterAppend_cases (step_appendEntries h)
    exact commitment_handleAppendEntries s.node blocked v args

/-! ## What a node keeps -/

/-- Where a node stands inside its own log. -/
structure Bounded (x : CommitteeRaftNode) : Prop where
  appliedLe : x.lastApplied ≤ x.commitIndex
  commitLt : x.commitIndex < x.log.length

/-- What a node has committed and applied stays, and more may follow. -/
structure Extends (x y : CommitteeRaftNode) : Prop where
  commitIndex : x.commitIndex ≤ y.commitIndex
  lastApplied : x.lastApplied ≤ y.lastApplied
  committed : x.committed <+: y.committed

lemma Extends.refl (x : CommitteeRaftNode) : Extends x x :=
  ⟨le_rfl, le_rfl, List.prefix_rfl⟩

lemma Extends.trans {x y z : CommitteeRaftNode} (h : Extends x y) (h' : Extends y z) :
    Extends x z :=
  ⟨h.commitIndex.trans h'.commitIndex, h.lastApplied.trans h'.lastApplied,
    h.committed.trans h'.committed⟩

/-- The entries up to an applied index are among the committed ones. -/
lemma Journaled.held {x y : CommitteeRaftNode} (h : Journaled x) (hbound : Bounded x)
    (hheld : x.committed <+: y.log) : x.log.take (x.lastApplied.toNat + 1) <+: y.log := by
  refine List.IsPrefix.trans ?_ hheld
  unfold committed
  refine List.take_prefix_take_left ?_
  have hle := hbound.appliedLe
  have hnonneg := h.nonneg
  omega

lemma Journaled.moved {x y : CommitteeRaftNode} (h : Journaled x) (hbound : Bounded x)
    (hheld : x.committed <+: y.log) (same : SameApplied x y) : Journaled y := by
  refine ⟨same.lastApplied ▸ h.nonneg, ?_, ?_⟩
  · have hpre := journalTo_isPrefix le_rfl (h.held hbound hheld)
    rw [same.applied, same.lastApplied, h.journal]
    refine hpre.eq_of_length ?_
    have hlen := (h.held hbound hheld).length_le
    have hle := hbound.appliedLe
    have hlt := hbound.commitLt
    have hnonneg := h.nonneg
    simp only [journalTo_length, List.length_take] at hlen ⊢
    omega
  · rw [same.stateMachine, same.applied, h.machine]

/-- The journal is one of the committed entries. -/
lemma Journaled.applied_eq {x : CommitteeRaftNode} (h : Journaled x) (hbound : Bounded x) :
    x.applied = journalTo x.committed x.lastApplied.toNat := by
  have hle := hbound.appliedLe
  have hnonneg := h.nonneg
  have hmin : min (x.lastApplied.toNat + 1) (x.commitIndex + 1).toNat = x.lastApplied.toNat + 1 := by
    omega
  rw [h.journal]
  simp only [journalTo, committed, List.take_take, hmin]

lemma Journaled.length {x : CommitteeRaftNode} (h : Journaled x) (hbound : Bounded x) :
    x.applied.length = x.lastApplied.toNat := by
  have hle := hbound.appliedLe
  have hlt := hbound.commitLt
  rw [h.journal, journalTo_length]
  omega

/-- A commitment under which the log keeps what was committed. -/
theorem Journaled.commitment {x y : CommitteeRaftNode} (h : Journaled x) (hbound : Bounded x)
    (hheld : x.committed <+: y.log) (hcommitment : Commitment x y) :
    Journaled y ∧ Extends x y := by
  have hle := hbound.appliedLe
  have hlt := hbound.commitLt
  have hnonneg := h.nonneg
  -- the new commit index lies between the old one and the end of the log
  have happly : ∀ z : CommitteeRaftNode, SameApplied x z → x.committed <+: z.log →
      x.commitIndex ≤ z.commitIndex → z.commitIndex < z.log.length →
      Journaled (CommitteeRaftNode.applyCommittedEntries z).1 ∧
        Extends x (CommitteeRaftNode.applyCommittedEntries z).1 := by
    intro z same hz hge hend
    have hz' := h.moved hbound hz same
    have happlied : z.lastApplied ≤ z.commitIndex := by rw [same.lastApplied]; omega
    have hlast := applyRounds_lastApplied (z.commitIndex - z.lastApplied).toNat z
    obtain ⟨a, m, j, hframe⟩ := applyCommittedEntries_frame z
    refine ⟨hz'.applyCommittedEntries happlied hend, ?_, ?_, ?_⟩
    · rw [hframe]
      exact hge
    · rw [← same.lastApplied]
      exact hlast.1
    · rw [hframe]
      refine List.prefix_take_iff.mpr ⟨hz, ?_⟩
      simp only [committed, List.length_take]
      omega
  have hlen : (x.commitIndex + 1).toNat ≤ y.log.length := by
    have := hheld.length_le
    simp only [committed, List.length_take] at this
    omega
  cases hcommitment with
  | keeps commit same =>
    refine ⟨h.moved hbound hheld same, commit.ge, same.lastApplied.ge, ?_⟩
    refine List.prefix_take_iff.mpr ⟨hheld, ?_⟩
    simp only [committed, List.length_take]
    omega
  | @follows z leaderCommit later commit same =>
    obtain ⟨a, m, j, hframe⟩ := applyCommittedEntries_frame z
    rw [hframe] at hheld hlen
    unfold lastLogIndex at commit
    refine happly z same hheld ?_ ?_
    · dsimp only at hlen
      omega
    · dsimp only at hlen
      omega
  | @counts z commit same =>
    obtain ⟨a, m, j, hframe⟩ := applyCommittedEntries_frame z
    rw [hframe] at hheld hlen
    unfold lastLogIndex at commit
    refine happly z same hheld ?_ ?_
    · dsimp only at hlen
      omega
    · omega

/-! ## The cluster -/

section Cluster

variable {members : List NodeId} {c c' : Cluster} {a : History}

lemma NodeRep.bounded {n : NodeId} {x : CommitteeRaftNode} (h : NodeRep members a n x) :
    Bounded x :=
  ⟨h.commits.appliedLe, h.commits.commitLt⟩

/-- What a member committed is in its log after any step of the cluster. -/
lemma Rep.held (h : Rep members c a) {m n : NodeId} (hn : n ∈ members) {b : History}
    (hmoves : Moves members m a b) (hb : Rep members c' b) :
    (c.site n).node.committed <+: (c'.site n).node.log := by
  have hnode := (h.site n hn).node
  rw [← (hb.site n hn).node.log]
  refine h.sane.held hmoves ?_ ?_
  · rw [hnode.term]
    exact hnode.commits.committed
  · rw [hnode.log]
    exact List.take_prefix _ _

/-- A step of the cluster, seen from any member. -/
theorem Rep.extends_step (hnodup : members.Nodup) (h : Rep members c a)
    (hjournal : ∀ n ∈ members, Journaled (c.site n).node)
    (hstep : Cluster.Step members Steady c c') : ∃ b, Grows a b ∧ Rep members c' b ∧
      ∀ n ∈ members, Journaled (c'.site n).node ∧ Extends (c.site n).node (c'.site n).node := by
  obtain ⟨m, b, hmoves, hb⟩ := h.step hnodup hstep
  refine ⟨b, h.sane.grows hmoves, hb, fun n hn => ?_⟩
  have hnode := h.site n hn
  have hheld := h.held hn hmoves hb
  refine (hjournal n hn).commitment hnode.node.bounded hheld ?_
  cases hstep with
  | @act k i s o member allowed brought run =>
    rw [record_site]
    split_ifs with hk
    · subst hk
      refine Site.step_commitment (fun p hp => ?_) run
      obtain ⟨π, hlog, hindex, _⟩ := (hnode.proposal p hp).loop.last
      simp [lastLogIndex, hlog, hindex]
    · exact Commitment.refl _

theorem Rep.extends_run (hnodup : members.Nodup) (h : Rep members c a)
    (hjournal : ∀ n ∈ members, Journaled (c.site n).node)
    (hrun : Cluster.Run members Steady c c') : ∃ b, Grows a b ∧ Rep members c' b ∧
      ∀ n ∈ members, Journaled (c'.site n).node ∧ Extends (c.site n).node (c'.site n).node := by
  induction hrun with
  | refl => exact ⟨a, Grows.refl a, h, fun n hn => ⟨hjournal n hn, Extends.refl _⟩⟩
  | tail _ hstep ih =>
    obtain ⟨b, hgrow, hb, hboth⟩ := ih
    obtain ⟨d, hgrow', hd, hboth'⟩ := hb.extends_step hnodup (fun n hn => (hboth n hn).1) hstep
    exact ⟨d, hgrow.trans hgrow', hd,
      fun n hn => ⟨(hboth' n hn).1, (hboth n hn).2.trans (hboth' n hn).2⟩⟩

/-- Both moments of a run with their histories. -/
theorem histories (hnodup : members.Nodup) (h : Cluster.Run members Steady Cluster.initial c)
    (h' : Cluster.Run members Steady c c') : ∃ a b, Grows a b ∧ Rep members c a ∧
      Rep members c' b ∧ ∀ n ∈ members, Journaled (c.site n).node ∧
        Journaled (c'.site n).node ∧ Extends (c.site n).node (c'.site n).node := by
  obtain ⟨a, _, ha, hfirst⟩ := (rep_initial hnodup).extends_run hnodup
    (fun n _ => journaled_fresh n) h
  obtain ⟨b, hgrow, hb, hboth⟩ := ha.extends_run hnodup (fun n hn => (hfirst n hn).1) h'
  exact ⟨a, b, hgrow, ha, hb, fun n hn => ⟨(hfirst n hn).1, hboth n hn⟩⟩

/-- The entry that the first leader of three members proposes. -/
def proposed : CommitteeLogEntry := ⟨1, 1, .configuration, "a", []⟩

/-- Node `a` wins term 1, and commits an entry that `b` has appended. -/
lemma trio_commits : ∃ c, Cluster.Run ["a", "b", "c"] Steady Cluster.initial c ∧
    (c.site "a").node.log = [genesis, proposed] ∧ (c.site "b").node.log = [genesis, proposed] ∧
    (c.site "a").node.commitIndex = 1 ∧ (c.site "a").node.lastApplied = 1 ∧
    (c.site "b").node.commitIndex = 0 ∧ (c.site "b").node.lastApplied = 0 := by
  have h₀ : Cluster.Run ["a", "b", "c"] Steady Cluster.initial Cluster.initial := .refl
  have h₁ := h₀.tail (Cluster.Step.act (n := "a") (i := .startElection trio trio)
    (by decide) (Or.inl rfl) ⟨rfl, rfl⟩ rfl)
  have h₂ := h₁.tail (Cluster.Step.act (n := "b") (i := .requestVote false trio ⟨1, "a", 0, 0⟩)
    (by decide) (Or.inl rfl) ⟨rfl, List.Mem.head _⟩ rfl)
  have h₃ := h₂.tail (Cluster.Step.act (n := "a")
    (i := .voteReturned trio (some ⟨1, true, "b", none⟩)) (by decide) (Or.inl rfl)
    ⟨rfl, by rintro _ ⟨⟩; exact ⟨_, rfl, List.Mem.head _⟩⟩ rfl)
  have h₄ := h₃.tail (Cluster.Step.act (n := "a")
    (i := .proposeEntry trio trio .configuration [] none) (by decide) (Or.inl rfl) ⟨rfl, rfl⟩ rfl)
  have h₅ := h₄.tail (Cluster.Step.act (n := "b")
    (i := .appendEntries false trio ⟨1, "a", 0, 0, [proposed], 0⟩) (by decide) (Or.inl rfl)
    ⟨rfl, List.Mem.head _⟩ rfl)
  have h₆ := h₅.tail (Cluster.Step.act (n := "a")
    (i := .appendReturned (some ⟨1, true, 1, "b", none⟩)) (by decide) (Or.inr trivial)
    (by rintro _ ⟨⟩; exact ⟨_, rfl, List.Mem.head _⟩) rfl)
  have h₇ := h₆.tail (Cluster.Step.act (n := "a") (i := .appendReturned none) (by decide)
    (Or.inr trivial) (by rintro _ ⟨⟩) rfl)
  exact ⟨_, h₇, rfl, rfl, rfl, rfl, rfl, rfl⟩

/-- The committed entries of any two members are comparable, at any two moments. -/
lemma committed_comparable (hnodup : members.Nodup)
    (h : Cluster.Run members Steady Cluster.initial c) (h' : Cluster.Run members Steady c c')
    {n m : NodeId} (hn : n ∈ members) (hm : m ∈ members) :
    (c.site n).node.committed <+: (c'.site m).node.committed ∨
      (c'.site m).node.committed <+: (c.site n).node.committed := by
  obtain ⟨a, b, hgrow, ha, hb, _⟩ := histories hnodup h h'
  have hfirst := (ha.site n hn).node.commits.committed.mono hgrow le_rfl
  exact hb.sane.agreement hfirst (hb.site m hm).node.commits.committed

end Cluster

end AgentSystem.Raft
