import AgentSystem.RaftCluster
import AgentSystem.LeaderCompleteness

/-!
# The cluster as a replicated log

What relates a cluster to a state of the abstract protocol, part by part: a node, its running
calls, and each message ever sent. Every relation survives the growth of the abstract history.
The recorded ballot of a node follows `voted_for` only while its term has no leader; afterwards
`step_down` may have cleared the vote, but a vote that elected the leader is still there.
-/
namespace AgentSystem.Raft

open ReplicatedLog

abbrev History := ReplicatedLog.State NodeId CommitteeLogEntry ℤ

abbrev termOf : CommitteeLogEntry → ℤ := CommitteeLogEntry.term

/-- The abstract invariant over majorities of the members, rooted in the genesis slot. -/
abbrev Sane (members : List NodeId) (a : History) : Prop := Inv (majority members) termOf 0 a

/-- Moves of one node in the abstract protocol. -/
abbrev Moves (members : List NodeId) (n : NodeId) : History → History → Prop :=
  Steps (majority members) termOf n

/-- A candidate whose election is undecided. -/
structure Running (a : History) (n : NodeId) (T : ℤ) (log : List CommitteeLogEntry) : Prop where
  positive : 0 < T
  unseated : a.leader T ≠ some n
  earlier : ∀ e ∈ log, e.term < T
  own : a.leaderLog T = [] → a.ballotLog n T = log

/-- What a node committed and applied is committed in the abstract history. -/
structure Commits (members : List NodeId) (a : History) (T : ℤ) (log : List CommitteeLogEntry)
    (commitIndex lastApplied : ℤ) (applied : List (ℤ × CommitteeLogEntry)) : Prop where
  nonneg : 0 ≤ lastApplied
  appliedLe : lastApplied ≤ commitIndex
  commitLt : commitIndex < log.length
  committed : Committed (majority members) termOf a T (log.take (commitIndex + 1).toNat)
  journal : ∀ p ∈ applied, 0 ≤ p.1 ∧ ∃ T' κ, Committed (majority members) termOf a T' κ ∧
    κ[p.1.toNat]? = some p.2

structure NodeRep (members : List NodeId) (a : History) (n : NodeId) (x : CommitteeRaftNode) :
    Prop where
  id : x.nodeId = n
  term : a.term n = x.currentTerm
  log : a.log n = x.log
  vote : a.leaderLog x.currentTerm = [] → a.ballot n x.currentTerm = x.votedFor
  keptVote : ∀ c, a.leader x.currentTerm = some c → n ∈ a.electorate x.currentTerm →
    x.votedFor = some c
  selfVote : x.role ≠ .follower → x.votedFor = some n
  leads : x.role = .leader → a.leader x.currentTerm = some n
  runs : x.role = .candidate → Running a n x.currentTerm x.log
  next : x.role = .leader → ∀ p ∈ members, p ≠ n →
    ∃ k : ℕ, x.nextIndex p = some (k : ℤ) ∧ 1 ≤ k ∧ k ≤ x.log.length
  commits : Commits members a x.currentTerm x.log x.commitIndex x.lastApplied x.applied

/-- A vote that counts for `c` as long as the term is vacant, and that the leader of the term
could not have got from the same node. -/
structure Backs (a : History) (v : NodeId) (T : ℤ) (c : NodeId) : Prop where
  elected : ∀ d, a.leader T = some d → v ∈ a.electorate T → d = c
  ballot : a.leaderLog T = [] → a.ballot v T = some c

/-- A vote request describes the log that its candidate voted for itself with. -/
def Asks (a : History) (args : RequestVoteArgs) : Prop :=
  a.leaderLog args.term = [] → a.ballot args.candidateId args.term = some args.candidateId ∧
    ∃ x, (a.ballotLog args.candidateId args.term).getLast? = some x ∧
      args.lastLogTerm = x.term ∧
      args.lastLogIndex = (a.ballotLog args.candidateId args.term).length - 1

/-- An append request carries a stretch of its leader's log up to an entry of the leader's own,
and a commit index inside what the log shares with it. -/
structure Instructs (members : List NodeId) (a : History) (peer : NodeId)
    (args : AppendEntriesArgs) : Prop where
  leader : a.leader args.term = some args.leaderId
  other : peer ≠ args.leaderId
  stretch : ∃ k : ℕ, args.prevLogIndex = k ∧
    (∃ x, (a.leaderLog args.term)[k]? = some x ∧ x.term = args.prevLogTerm) ∧
    args.entries <+: (a.leaderLog args.term).drop (k + 1) ∧
    (∃ e, args.entries.getLast? = some e ∧ e.term = args.term) ∧
    ∃ m : ℕ, args.leaderCommit = m ∧ m < k + 1 + args.entries.length ∧
      Committed (majority members) termOf a args.term ((a.leaderLog args.term).take (m + 1))

/-- A successful reply: the node holds the leader's log up to the end of the request, and its
match index lies inside the leader's log. -/
structure Confirms (a : History) (v : NodeId) (args : AppendEntriesArgs)
    (reply : AppendEntriesReply) : Prop where
  held : args.prevLogIndex + 1 + args.entries.length ≤ a.acked v args.term
  nonneg : 0 ≤ reply.matchIndex
  inside : reply.matchIndex + 1 ≤ (a.leaderLog args.term).length

/-- An entry that a quorum confirmed at its index. -/
def Returned (members : List NodeId) (a : History) (e : CommitteeLogEntry) : Prop :=
  ∃ π : List CommitteeLogEntry, e.index = π.length ∧
    Chosen (majority members) termOf a e.term (π ++ [e])

/-- What a node sent or returned in one step. -/
def OutputRep (members : List NodeId) (a : History) (n : NodeId) : Output → Prop
  | .sentVote _ args => Asks a args
  | .sentAppend peer args => Instructs members a peer args
  | .voteReply args reply => reply.voteGranted = true → Backs a n args.term args.candidateId
  | .appendReply args reply => reply.success = true → Confirms a n args reply
  | .proposed result => result.ok = true → ∀ e, result.entry = some e → Returned members a e
  | _ => True

structure ElectionRep (members : List NodeId) (a : History) (n : NodeId)
    (x : CommitteeRaftNode) (e : Election) : Prop where
  undecided : x.role ≠ .leader
  current : x.role = .candidate → e.args.term = x.currentTerm
  own : e.args.candidateId = n
  quorum : e.quorum = members.length / 2 + 1
  distinct : (e.voters ++ e.awaiting :: e.remaining).Nodup
  asked : e.voters ++ e.awaiting :: e.remaining ⊆ members
  backed : ∀ v ∈ e.voters, Backs a v e.args.term n
  request : Asks a e.args

/-- Where a proposal stands before a round of its loop. -/
structure LoopRep (members : List NodeId) (a : History) (n : NodeId) (x : CommitteeRaftNode)
    (newIndex : ℤ) (entry : CommitteeLogEntry) (quorum : ℕ) (ackers rest : List NodeId) :
    Prop where
  leads : x.role = .leader
  last : ∃ π, x.log = π ++ [entry] ∧ newIndex = π.length ∧ entry.index = π.length
  entryTerm : entry.term = x.currentTerm
  quorum : quorum = members.length / 2 + 1
  distinct : (ackers ++ rest).Nodup
  asked : ackers ++ rest ⊆ members
  own : n ∈ ackers
  acked : ∀ v ∈ ackers, x.log.length ≤ a.acked v x.currentTerm
  next : ∀ q ∈ rest, ∃ k : ℕ, x.nextIndex q = some (k : ℤ) ∧ 1 ≤ k ∧ k < x.log.length

structure ProposalRep (members : List NodeId) (a : History) (n : NodeId)
    (x : CommitteeRaftNode) (p : Proposal) : Prop where
  loop : LoopRep members a n x p.newIndex p.entry p.quorum p.ackers (p.awaiting :: p.remaining)
  request : p.args.term = x.currentTerm ∧
    p.args.prevLogIndex + 1 + p.args.entries.length = x.log.length

structure SiteRep (members : List NodeId) (a : History) (n : NodeId) (s : Site) : Prop where
  node : NodeRep members a n s.node
  election : ∀ e, s.election = some e → ElectionRep members a n s.node e
  proposal : ∀ p, s.proposal = some p → ProposalRep members a n s.node p

/-- A ballot cast in a term that has no leader yet went to a candidate that voted for itself with
a log that passed the comparison. -/
def BallotsFair (a : History) : Prop :=
  ∀ v T c, a.ballot v T = some c → a.leaderLog T = [] →
    a.ballot c T = some c ∧ UpToDate termOf (a.ballotLog c T) (a.ballotLog v T)

/-- The cluster `c` carries out the abstract history `a`. -/
structure Rep (members : List NodeId) (c : Cluster) (a : History) : Prop where
  sane : Sane members a
  fair : BallotsFair a
  site : ∀ n ∈ members, SiteRep members a n (c.site n)
  voteRequests : ∀ m ∈ c.voteRequests, Asks a m.2
  appendRequests : ∀ m ∈ c.appendRequests, Instructs members a m.1 m.2
  voteReplies : ∀ m ∈ c.voteReplies, m.2.2.voteGranted = true →
    Backs a m.1 m.2.1.term m.2.1.candidateId
  appendReplies : ∀ m ∈ c.appendReplies, m.2.2.success = true → Confirms a m.1 m.2.1 m.2.2
  returned : ∀ e ∈ c.returned, Returned members a e

section Growth

variable {members : List NodeId} {a b : History} {n m : NodeId}

theorem led_of_grows (hgrow : Grows a b) {T : ℤ} (hT : b.leaderLog T = []) :
    a.leaderLog T = [] := by
  by_contra hne
  exact hgrow.led hne hT

theorem Backs.mono (hb : Sane members b) (hgrow : Grows a b) {v c : NodeId} {T : ℤ}
    (h : Backs a v T c) : Backs b v T c := by
  refine ⟨fun d hd hv => ?_, fun hT => hgrow.ballot v T c (h.ballot (led_of_grows hgrow hT))⟩
  by_cases hT : a.leaderLog T = []
  · -- the leader is new, so it was elected by the recorded ballots
    have hvote := ((hb.elected T d hd).2 v hv).1
    exact Option.some.inj (hvote.symm.trans (hgrow.ballot v T c (h.ballot hT)))
  · rw [hgrow.leaderFixed T hT] at hd
    rw [hgrow.electorate T d hd] at hv
    exact h.elected d hd hv

theorem Asks.mono (hgrow : Grows a b) {args : RequestVoteArgs} (h : Asks a args) :
    Asks b args := by
  intro hT
  obtain ⟨hself, hlog⟩ := h (led_of_grows hgrow hT)
  rw [hgrow.ballotLog _ _ _ hself]
  exact ⟨hgrow.ballot _ _ _ hself, hlog⟩

theorem Instructs.mono (hgrow : Grows a b) {peer : NodeId} {args : AppendEntriesArgs}
    (h : Instructs members a peer args) : Instructs members b peer args := by
  obtain ⟨k, hk, ⟨x, hx, hterm⟩, hentries, hlast, m, hm, hmlt, hcommitted⟩ := h.stretch
  have hlog := hgrow.leaderLog args.term
  have hshort : m + 1 ≤ (a.leaderLog args.term).length := by
    have hlen := hentries.length_le
    have hpos := (List.getElem?_eq_some_iff.mp hx).1
    rw [List.length_drop] at hlen
    omega
  refine ⟨hgrow.leader _ _ h.leader, h.other, k, hk,
    ⟨x, PySequence.getElem?_of_isPrefix hlog hx, hterm⟩, hentries.trans (hlog.drop _), hlast,
    m, hm, hmlt, ?_⟩
  have hsame : (b.leaderLog args.term).take (m + 1) = (a.leaderLog args.term).take (m + 1) := by
    obtain ⟨rest, hrest⟩ := hlog
    rw [← hrest, List.take_append_of_le_length hshort]
  rw [hsame]
  exact hcommitted.mono hgrow le_rfl

theorem Confirms.mono (hgrow : Grows a b) {v : NodeId} {args : AppendEntriesArgs}
    {reply : AppendEntriesReply} (h : Confirms a v args reply) : Confirms b v args reply := by
  have hacked := hgrow.acked v args.term
  have hlen := (hgrow.leaderLog args.term).length_le
  have hheld := h.held
  have hinside := h.inside
  exact ⟨by omega, h.nonneg, by omega⟩

theorem Returned.mono (hgrow : Grows a b) {e : CommitteeLogEntry} (h : Returned members a e) :
    Returned members b e := by
  obtain ⟨π, hindex, hchosen⟩ := h
  exact ⟨π, hindex, hchosen.mono hgrow⟩

theorem Commits.mono (hgrow : Grows a b) {T : ℤ} {log : List CommitteeLogEntry}
    {commitIndex lastApplied : ℤ} {applied : List (ℤ × CommitteeLogEntry)}
    (h : Commits members a T log commitIndex lastApplied applied) :
    Commits members b T log commitIndex lastApplied applied := by
  refine ⟨h.nonneg, h.appliedLe, h.commitLt, h.committed.mono hgrow le_rfl, fun p hp => ?_⟩
  obtain ⟨hpos, T', κ, hκ, hget⟩ := h.journal p hp
  exact ⟨hpos, T', κ, hκ.mono hgrow le_rfl, hget⟩

theorem ElectionRep.mono (hb : Sane members b) (hgrow : Grows a b) {x : CommitteeRaftNode}
    {e : Election} (h : ElectionRep members a n x e) : ElectionRep members b n x e :=
  { h with
    backed := fun v hv => (h.backed v hv).mono hb hgrow
    request := h.request.mono hgrow }

theorem ProposalRep.mono (hgrow : Grows a b) {x : CommitteeRaftNode} {p : Proposal}
    (h : ProposalRep members a n x p) : ProposalRep members b n x p :=
  { h with
    loop := { h.loop with acked := fun v hv => (h.loop.acked v hv).trans (hgrow.acked v _) } }

/-- A node keeps its relation while another node moves. -/
theorem NodeRep.elsewhere (hb : Sane members b) (hgrow : Grows a b) (helse : Elsewhere m a b)
    (hne : n ≠ m) {x : CommitteeRaftNode} (h : NodeRep members a n x) :
    NodeRep members b n x where
  id := h.id
  term := (helse.term n hne).trans h.term
  log := (helse.log n hne).trans h.log
  vote hT := by
    rw [helse.ballot n hne]
    exact h.vote (led_of_grows hgrow hT)
  keptVote c hc hn := by
    by_cases hT : a.leaderLog x.currentTerm = []
    · have hvote := ((hb.elected _ c hc).2 n hn).1
      rw [helse.ballot n hne, h.vote hT] at hvote
      exact hvote
    · rw [hgrow.leaderFixed _ hT] at hc
      rw [hgrow.electorate _ c hc] at hn
      exact h.keptVote c hc hn
  selfVote := h.selfVote
  leads hrole := hgrow.leader _ _ (h.leads hrole)
  runs hrole := by
    have hrun := h.runs hrole
    refine ⟨hrun.positive, fun hc => hrun.unseated (helse.leader n hne _ hc), hrun.earlier,
      fun hT => ?_⟩
    have hvacant := led_of_grows hgrow hT
    have hself : a.ballot n x.currentTerm = some n := by
      rw [h.vote hvacant]
      exact h.selfVote (by rw [hrole]; rintro ⟨⟩)
    rw [hgrow.ballotLog _ _ _ hself]
    exact hrun.own hvacant
  next := h.next
  commits := h.commits.mono hgrow

theorem SiteRep.elsewhere (hb : Sane members b) (hgrow : Grows a b) (helse : Elsewhere m a b)
    (hne : n ≠ m) {s : Site} (h : SiteRep members a n s) : SiteRep members b n s :=
  ⟨h.node.elsewhere hb hgrow helse hne, fun e he => (h.election e he).mono hb hgrow,
    fun p hp => (h.proposal p hp).mono hgrow⟩

/-- Ballots stay fair when each new one is. -/
theorem BallotsFair.mono (h : BallotsFair a) (hgrow : Grows a b)
    (hnew : ∀ v T c, b.ballot v T = some c → b.leaderLog T = [] → a.ballot v T = some c ∨
      (b.ballot c T = some c ∧ UpToDate termOf (b.ballotLog c T) (b.ballotLog v T))) :
    BallotsFair b := by
  intro v T c hc hT
  rcases hnew v T c hc hT with hold | hfair
  · obtain ⟨hself, hup⟩ := h v T c hold (led_of_grows hgrow hT)
    rw [hgrow.ballotLog _ _ _ hself, hgrow.ballotLog _ _ _ hold]
    exact ⟨hgrow.ballot _ _ _ hself, hup⟩
  · exact hfair

theorem BallotsFair.of_ballot_eq (h : BallotsFair a) (hgrow : Grows a b)
    (hsame : b.ballot = a.ballot) : BallotsFair b :=
  h.mono hgrow fun v T c hc _ => Or.inl (by rw [← hsame]; exact hc)

/-- One step of a member: it is enough to relate its new site and what left it. -/
theorem Rep.record {c : Cluster} {s : Site} {o : Output} (h : Rep members c a)
    (hmoves : Moves members n a b) (hfair : BallotsFair b) (hsite : SiteRep members b n s)
    (hout : OutputRep members b n o) : Rep members (c.record n s o) b := by
  have hgrow := h.sane.grows hmoves
  have hb : Sane members b := h.sane.steps hmoves
  constructor
  case sane => exact hb
  case fair => exact hfair
  case site =>
    intro m hm
    rw [record_site]
    split_ifs with heq
    · exact heq ▸ hsite
    · exact (h.site m hm).elsewhere hb hgrow (elsewhere hmoves) heq
  case voteRequests =>
    intro x hx
    rcases mem_record_voteRequests hx with hx | rfl
    · exact (h.voteRequests x hx).mono hgrow
    · exact hout
  case appendRequests =>
    intro x hx
    rcases mem_record_appendRequests hx with hx | rfl
    · exact (h.appendRequests x hx).mono hgrow
    · exact hout
  case voteReplies =>
    intro x hx
    rcases mem_record_voteReplies hx with hx | ⟨rfl, rfl⟩
    · exact fun hyes => (h.voteReplies x hx hyes).mono hb hgrow
    · exact hout
  case appendReplies =>
    intro x hx
    rcases mem_record_appendReplies hx with hx | ⟨rfl, rfl⟩
    · exact fun hyes => (h.appendReplies x hx hyes).mono hgrow
    · exact hout
  case returned =>
    intro e he
    rcases mem_record_returned he with he | ⟨result, rfl, hok, hentry⟩
    · exact (h.returned e he).mono hgrow
    · exact hout hok e hentry

end Growth

end AgentSystem.Raft
