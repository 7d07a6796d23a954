import AgentSystem.RaftNodeSpec

/-!
# Votes of one node

A node votes for itself when it starts an election and for a candidate whose request it grants.
`step_down` clears the vote, also when the term stays the same: `handle_append_entries` calls it
so for a candidate or leader that hears from the leader of its own term.
-/
namespace AgentSystem.Raft

/-- The votes that the node gives in one step, as term and candidate. -/
def votes (after : Site) : Input → Output → List (ℤ × NodeId)
  | .startElection _ _, _ => [(after.node.currentTerm, after.node.nodeId)]
  | .requestVote _ _ _, .voteReply args reply =>
      if reply.voteGranted then [(reply.term, args.candidateId)] else []
  | _, _ => []

/-- The votes given along a run of one node, from its construction on. The inputs of each step
satisfy `P`. -/
inductive VoteHistory (P : Site → Input → Prop) : Site → List (ℤ × NodeId) → Prop
  | fresh (nodeId : NodeId) : VoteHistory P (Site.fresh nodeId) []
  | step {s s' : Site} {i : Input} {o : Output} {history : List (ℤ × NodeId)}
      (prior : VoteHistory P s history) (allowed : P s i) (run : s.step i = some (s', o)) :
      VoteHistory P s' (history ++ votes s' i o)

/-- The input that clears the vote inside a term: an `AppendEntries` of the node's own term that
passes the chaos and attestation checks while the node is a candidate or leader. -/
def ClearsVote (s : Site) : Input → Prop
  | .appendEntries blocked v args =>
      blocked = false ∧ v.attested args.leaderId = true ∧
        args.term = s.node.currentTerm ∧ s.node.role ≠ .follower
  | _ => False

/-- How a step may change the vote: the term never falls, and inside a term a vote stays. -/
structure VoteKept (n m : CommitteeRaftNode) : Prop where
  term : n.currentTerm ≤ m.currentTerm
  vote : m.currentTerm = n.currentTerm → ∀ c, n.votedFor = some c → m.votedFor = some c

namespace CommitteeRaftNode

theorem voteKept_of_eq {n m : CommitteeRaftNode} (hterm : m.currentTerm = n.currentTerm)
    (hvote : m.votedFor = n.votedFor) : VoteKept n m :=
  ⟨hterm.ge, fun _ _ hc => hvote.trans hc⟩

theorem voteKept_of_lt {n m : CommitteeRaftNode} (h : n.currentTerm < m.currentTerm) :
    VoteKept n m := ⟨h.le, fun heq => absurd heq h.ne'⟩

theorem voteKept_catchUp (n : CommitteeRaftNode) (term : ℤ) : VoteKept n (n.catchUp term) := by
  unfold catchUp
  split_ifs with h
  · exact voteKept_of_lt h
  · exact voteKept_of_eq rfl rfl

theorem voteKept_matchAndAppend (n m : CommitteeRaftNode) (args : AppendEntriesArgs)
    (h : VoteKept n m) : VoteKept n (m.matchAndAppend args).1 := by
  obtain ⟨l, c, a, sm, j, heq⟩ := matchAndAppend_frame m args
  rw [heq]
  exact ⟨h.term, h.vote⟩

theorem voteKept_startElection (n : CommitteeRaftNode) (v w : View) :
    VoteKept n (n.startElection v w).1 ∧
      (n.startElection v w).1.votedFor = some (n.startElection v w).1.nodeId := by
  have hkept : VoteKept n { n with currentTerm := n.currentTerm + 1 } :=
    voteKept_of_lt (Int.lt_succ _)
  unfold startElection
  dsimp only
  split_ifs
  · exact ⟨⟨hkept.term, fun h => absurd h (by simp [becomeLeader])⟩, rfl⟩
  · split
    · exact ⟨⟨hkept.term, fun h => absurd h (by simp)⟩, rfl⟩
    · exact ⟨⟨hkept.term, fun h => absurd h (by simp)⟩, rfl⟩

theorem voteKept_voteReturned (n : CommitteeRaftNode) (c : Election) (w : View)
    (reply : Option RequestVoteReply) : VoteKept n (n.voteReturned c w reply).1 := by
  cases reply with
  | none => exact voteKept_of_eq rfl rfl
  | some reply =>
    unfold voteReturned
    dsimp only
    split_ifs with h
    · exact voteKept_of_lt h
    · exact voteKept_of_eq rfl rfl
    · exact voteKept_of_eq rfl rfl
    · exact voteKept_of_eq rfl rfl

theorem voteKept_nextAppend {n m : CommitteeRaftNode} (h : VoteKept n m) (newIndex : ℤ)
    (entry : CommitteeLogEntry) (quorum : ℕ) (ackers peers : List NodeId) :
    VoteKept n (m.nextAppend newIndex entry quorum ackers peers).1 := by
  obtain ⟨c, a, sm, j, heq⟩ := nextAppend_frame m newIndex entry quorum ackers peers
  rw [heq]
  exact ⟨h.term, h.vote⟩

theorem voteKept_proposeEntry (n : CommitteeRaftNode) (v w : View)
    (entryType : CommitteeEntryType) (payload : Payload) (author : Option NodeId) :
    VoteKept n (n.proposeEntry v w entryType payload author).1 := by
  unfold proposeEntry
  dsimp only
  split_ifs
  · exact voteKept_of_eq rfl rfl
  · refine voteKept_nextAppend ?_ _ _ _ _ _
    exact voteKept_of_eq rfl rfl

theorem voteKept_appendReturned (n : CommitteeRaftNode) (c : Proposal)
    (reply : Option AppendEntriesReply) : VoteKept n (n.appendReturned c reply).1 := by
  cases reply with
  | none => exact voteKept_nextAppend (voteKept_of_eq rfl rfl) _ _ _ _ _
  | some reply =>
    unfold appendReturned
    dsimp only
    split_ifs with h
    · exact voteKept_of_lt h
    · refine voteKept_nextAppend ?_ _ _ _ _ _
      exact voteKept_of_eq rfl rfl
    · refine voteKept_nextAppend ?_ _ _ _ _ _
      exact voteKept_of_eq rfl rfl

/-- `handle_request_vote` keeps a vote, and a granted request is recorded as the vote of the
term in the reply. -/
theorem voteKept_handleRequestVote (n : CommitteeRaftNode) (blocked : Bool) (v : View)
    (args : RequestVoteArgs) :
    VoteKept n (n.handleRequestVote blocked v args).1 ∧
      ∀ reply, (n.handleRequestVote blocked v args).2 = .ok reply → reply.voteGranted = true →
        reply.term = (n.handleRequestVote blocked v args).1.currentTerm ∧
          (n.handleRequestVote blocked v args).1.votedFor = some args.candidateId := by
  unfold handleRequestVote
  split_ifs
  · exact ⟨voteKept_of_eq rfl rfl, by rintro _ ⟨⟩ ⟨⟩⟩
  · have hcatch := voteKept_catchUp n args.term
    rcases n.considerVote_cases args with ⟨_, _, h⟩ | ⟨_, _, h⟩ | ⟨_, _, h⟩ | ⟨hle, hfree, _, h⟩
    · rw [h]
      exact ⟨voteKept_of_eq rfl rfl, by rintro _ ⟨⟩ ⟨⟩⟩
    · rw [h]
      exact ⟨hcatch, by rintro _ ⟨⟩⟩
    · rw [h]
      exact ⟨hcatch, by rintro _ ⟨⟩ ⟨⟩⟩
    · rw [h]
      refine ⟨⟨hcatch.term, fun heq c hc => ?_⟩, ?_⟩
      · -- a vote that was there is the candidate's own
        have hkept := hcatch.vote heq c hc
        rcases hfree with hnone | hsome
        · rw [hnone] at hkept
          cases hkept
        · exact hsome.symm.trans hkept
      · rintro reply ⟨⟩ _
        have hterm : (n.catchUp args.term).currentTerm = args.term := by
          rw [catchUp_currentTerm, max_eq_right hle]
        exact ⟨hterm.symm, rfl⟩
  · exact ⟨voteKept_of_eq rfl rfl, by rintro _ ⟨⟩ ⟨⟩⟩

theorem voteKept_handleAppendEntries (n : CommitteeRaftNode) (blocked : Bool) (v : View)
    (args : AppendEntriesArgs)
    (hclear : ¬ (blocked = false ∧ v.attested args.leaderId = true ∧
      args.term = n.currentTerm ∧ n.role ≠ .follower)) :
    VoteKept n (n.handleAppendEntries blocked v args).1 := by
  unfold handleAppendEntries
  split_ifs with hblocked hattested
  · exact voteKept_of_eq rfl rfl
  · rcases n.followLeader_cases args with ⟨_, _, h⟩ | ⟨_, h⟩
    · rw [h]
      exact voteKept_of_eq rfl rfl
    · rw [h]
      refine voteKept_matchAndAppend _ _ _ ?_
      have hkept : VoteKept n (n.recognizeLeader args) := by
        unfold recognizeLeader
        split_ifs with hlt hsame
        · exact voteKept_of_lt hlt
        · exact absurd ⟨by simpa using hblocked, hattested, hsame.1, hsame.2⟩ hclear
        · exact voteKept_of_eq rfl rfl
      exact ⟨hkept.term, hkept.vote⟩
  · exact voteKept_of_eq rfl rfl

end CommitteeRaftNode

open CommitteeRaftNode

/-- One step keeps the vote of the term, and what it votes is the vote it leaves recorded. -/
theorem Site.step_votes {s s' : Site} {i : Input} {o : Output} (run : s.step i = some (s', o))
    (hclear : ¬ ClearsVote s i) :
    VoteKept s.node s'.node ∧ ∀ b ∈ votes s' i o,
      b.1 = s'.node.currentTerm ∧ s'.node.votedFor = some b.2 := by
  cases i with
  | startElection v w =>
    have hnode := Site.afterElection_node (Site.step_startElection run).2
    obtain ⟨hkept, hself⟩ := voteKept_startElection s.node v w
    rw [← hnode] at hkept hself
    refine ⟨hkept, ?_⟩
    intro b hb
    rw [List.mem_singleton.mp hb]
    exact ⟨rfl, hself⟩
  | voteReturned w reply =>
    obtain ⟨c, _, run⟩ := Site.step_voteReturned run
    rw [Site.afterElection_node run]
    exact ⟨voteKept_voteReturned _ _ _ _, by simp [votes]⟩
  | proposeEntry v w entryType payload author =>
    rw [Site.afterProposal_node (Site.step_proposeEntry run).2]
    exact ⟨voteKept_proposeEntry _ _ _ _ _ _, by simp [votes]⟩
  | appendReturned reply =>
    obtain ⟨c, _, run⟩ := Site.step_appendReturned run
    rw [Site.afterProposal_node run]
    exact ⟨voteKept_appendReturned _ _ _, by simp [votes]⟩
  | requestVote blocked v args =>
    obtain ⟨hkept, hgrant⟩ := voteKept_handleRequestVote s.node blocked v args
    obtain ⟨rfl, ⟨reply, hreply, rfl⟩ | ⟨error, rfl⟩⟩ :=
      Site.afterVote_cases (Site.step_requestVote run)
    · refine ⟨hkept, ?_⟩
      intro b hb
      unfold votes at hb
      dsimp only at hb
      split_ifs at hb with hyes
      · rw [List.mem_singleton.mp hb]
        exact hgrant reply hreply hyes
      · simp at hb
    · exact ⟨hkept, by simp [votes]⟩
  | appendEntries blocked v args =>
    obtain ⟨rfl, _⟩ := Site.afterAppend_cases (Site.step_appendEntries run)
    exact ⟨voteKept_handleAppendEntries _ _ _ _ hclear, by simp [votes]⟩

/-- The invariant of a run: no vote is of a later term, and the votes of the current term are
the recorded one. -/
theorem VoteHistory.recorded {s : Site} {history : List (ℤ × NodeId)}
    (h : VoteHistory (fun s i => ¬ ClearsVote s i) s history) :
    ∀ b ∈ history, b.1 ≤ s.node.currentTerm ∧
      (b.1 = s.node.currentTerm → s.node.votedFor = some b.2) := by
  induction h with
  | fresh => simp
  | @step s s' i o history _ allowed run ih =>
    obtain ⟨hkept, hnew⟩ := Site.step_votes run allowed
    intro b hb
    rcases List.mem_append.mp hb with hb | hb
    · obtain ⟨hle, hvote⟩ := ih b hb
      refine ⟨hle.trans hkept.term, fun heq => ?_⟩
      have hsame : s'.node.currentTerm = s.node.currentTerm :=
        le_antisymm (heq ▸ hle) hkept.term
      exact hkept.vote hsame b.2 (hvote (heq.trans hsame))
    · obtain ⟨hterm, hvote⟩ := hnew b hb
      exact ⟨hterm.le, fun _ => hvote⟩

/-- Without an input that clears the vote, a node votes for one candidate in each term. -/
theorem vote_once {s : Site} {history : List (ℤ × NodeId)}
    (h : VoteHistory (fun s i => ¬ ClearsVote s i) s history) {T : ℤ} {c d : NodeId}
    (hc : (T, c) ∈ history) (hd : (T, d) ∈ history) : c = d := by
  induction h with
  | fresh => simp at hc
  | @step s s' i o history prior allowed run ih =>
    obtain ⟨hkept, hnew⟩ := Site.step_votes run allowed
    -- an earlier vote of the term of a new one is still the recorded vote
    have hold : ∀ {x y}, (T, x) ∈ history → (T, y) ∈ votes s' i o → x = y := by
      intro x y hx hy
      obtain ⟨hterm, hvote⟩ := hnew _ hy
      have hrec := (prior.step allowed run).recorded (T, x) (List.mem_append_left _ hx)
      exact Option.some.inj ((hrec.2 hterm).symm.trans hvote)
    rcases List.mem_append.mp hc with hc | hc <;> rcases List.mem_append.mp hd with hd | hd
    · exact ih hc hd
    · exact hold hc hd
    · exact (hold hd hc).symm
    · exact Option.some.inj ((hnew _ hc).2.symm.trans (hnew _ hd).2)

/-- Three nodes that attest one another. -/
def trio : View := .full ["a", "b", "c"]

/-- A candidate that asks twice gets the same vote twice. -/
theorem vote_once_repeated :
    VoteHistory (fun s i => ¬ ClearsVote s i)
      { node := { nodeId := "b", currentTerm := 1, votedFor := some "c" } } [(1, "c"), (1, "c")] ∧
    ("c" : NodeId) = "c" := by
  have h₀ := VoteHistory.fresh (P := fun s i => ¬ ClearsVote s i) "b"
  have h₁ := h₀.step (i := .requestVote false trio ⟨1, "c", 0, 0⟩) (by simp [ClearsVote]) rfl
  have h₂ := h₁.step (i := .requestVote false trio ⟨1, "c", 0, 0⟩) (by simp [ClearsVote]) rfl
  exact ⟨h₂, vote_once h₂ (T := 1) (by decide) (by decide)⟩

/-- Node `a` becomes a candidate in term 1, hears from the leader of term 1 and then votes for
a third node in term 1. -/
theorem votes_twice : ¬ ∀ s history, VoteHistory (fun _ _ => True) s history →
    ∀ T c d, (T, c) ∈ history → (T, d) ∈ history → c = d := by
  intro honce
  have h₀ := VoteHistory.fresh (P := fun _ _ => True) "a"
  have h₁ := h₀.step (i := .startElection trio trio) trivial rfl
  have h₂ := h₁.step (i := .appendEntries false trio ⟨1, "b", 0, 0, [], 0⟩) trivial rfl
  have h₃ := h₂.step (i := .requestVote false trio ⟨1, "c", 0, 0⟩) trivial rfl
  exact absurd (honce _ _ h₃ 1 "a" "c" (by decide) (by decide)) (by decide)

end AgentSystem.Raft
