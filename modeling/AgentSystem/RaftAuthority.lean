import AgentSystem.RaftVoteOnce

/-!
# Authority of a leader during its own replication loop

`propose_entry` rereads the term and the log for every peer but does not look again whether the
node still leads. A handler or an election that runs between two of its requests can take the
leadership away. Without such an interruption the loop stays inside the term that was won.
-/
namespace AgentSystem.Raft

/-- While `propose_entry` waits for a reply, the node starts no election and handles only what
leaves it leader: messages that fail the chaos or attestation check, vote requests of no later
term and append requests of an earlier term. -/
def Steady (s : Site) (i : Input) : Prop :=
  s.proposal = none ∨
    match i with
    | .startElection _ _ => False
    | .requestVote blocked v args =>
        blocked = true ∨ v.attested args.candidateId = false ∨ args.term ≤ s.node.currentTerm
    | .appendEntries blocked v args =>
        blocked = true ∨ v.attested args.leaderId = false ∨ args.term < s.node.currentTerm
    | _ => True

/-- The term won in a step. -/
def wonTerm (after : Site) : Output → List ℤ
  | .elected result => if result.won then [after.node.currentTerm] else []
  | _ => []

/-- The terms that a node won along a run whose inputs satisfy `P`. -/
inductive LeaderHistory (P : Site → Input → Prop) : Site → List ℤ → Prop
  | fresh (nodeId : NodeId) : LeaderHistory P (Site.fresh nodeId) []
  | step {s s' : Site} {i : Input} {o : Output} {won : List ℤ} (prior : LeaderHistory P s won)
      (allowed : P s i) (run : s.step i = some (s', o)) :
      LeaderHistory P s' (won ++ wonTerm s' o)

/-- The entry appended by the `propose_entry` call that a step begins or continues. -/
def Site.appends (s : Site) : Input → Option CommitteeLogEntry
  | .proposeEntry _ _ entryType payload author => some (s.node.newEntry entryType payload author)
  | .appendReturned _ => s.proposal.map Proposal.entry
  | _ => none

/-- A leader has won its term, a running election excludes the role of leader, and a running
proposal belongs to a leader whose last entry is the proposed one. -/
structure AuthorityInv (s : Site) (won : List ℤ) : Prop where
  leader : s.node.role = .leader → s.node.currentTerm ∈ won
  election : s.election.isSome → s.node.role ≠ .leader
  proposal : ∀ c, s.proposal = some c → s.node.role = .leader ∧
    ∃ π, s.node.log = π ++ [c.entry] ∧ c.newIndex = π.length

namespace CommitteeRaftNode

theorem appendArgs_term {n : CommitteeRaftNode} {newIndex : ℤ} {p : NodeId}
    {args : AppendEntriesArgs} (h : n.appendArgs newIndex p = .ok args) :
    args.term = n.currentTerm := by
  unfold appendArgs at h
  dsimp only at h
  split_ifs at h
  · split at h
    · cases h
    · cases h
      rfl
  · cases h
    rfl

/-- What the replication loop does to a leader that holds the proposed entry as its last one. -/
theorem nextAppend_authority {n : CommitteeRaftNode} {newIndex : ℤ} {entry : CommitteeLogEntry}
    (quorum : ℕ) (ackers peers : List NodeId) {π : List CommitteeLogEntry}
    (hlog : n.log = π ++ [entry]) (hnew : newIndex = π.length) :
    (∀ c, (n.nextAppend newIndex entry quorum ackers peers).2 = .waiting c →
      c.args.term = n.currentTerm ∧ c.newIndex = newIndex ∧ c.entry = entry) ∧
    ((n.nextAppend newIndex entry quorum ackers peers).1.commitIndex ≠ n.commitIndex →
      PySequence.get (n.nextAppend newIndex entry quorum ackers peers).1.log
        (n.nextAppend newIndex entry quorum ackers peers).1.commitIndex = some entry) := by
  rcases n.nextAppend_cases newIndex entry quorum ackers peers with
    ⟨_, _, hnode, hend⟩ | ⟨_, _, _, heq⟩ | ⟨_, _, _, _, _, heq⟩ | ⟨_, _, _, _, hargs, heq⟩
  · refine ⟨?_, fun _ => ?_⟩
    · rcases hend with hend | ⟨_, hend⟩ <;> rw [hend] <;> rintro _ ⟨⟩
    · obtain ⟨a, m, j, hframe⟩ := applyCommittedEntries_frame { n with commitIndex := newIndex }
      rw [hnode, hframe]
      dsimp only
      rw [hlog, hnew]
      simp
  · rw [heq]
    exact ⟨by rintro _ ⟨⟩, fun hne => absurd rfl hne⟩
  · rw [heq]
    exact ⟨by rintro _ ⟨⟩, fun hne => absurd rfl hne⟩
  · rw [heq]
    refine ⟨?_, fun hne => absurd rfl hne⟩
    rintro _ ⟨⟩
    exact ⟨appendArgs_term hargs, rfl, rfl⟩

end CommitteeRaftNode

open CommitteeRaftNode

section Step

variable {s s' : Site} {o : Output} {won : List ℤ}

/-- What a step does for its sends and its commit. -/
def Authorized (s s' : Site) (i : Input) (o : Output) (won : List ℤ) : Prop :=
  (∀ p args, o = .sentAppend p args → args.term ∈ won) ∧
    ∀ e, s.appends i = some e → s'.node.commitIndex ≠ s.node.commitIndex →
      PySequence.get s'.node.log s'.node.commitIndex = some e

theorem AuthorityInv.mono (h : AuthorityInv s won) (more : List ℤ) :
    AuthorityInv s (won ++ more) :=
  ⟨fun hrole => List.mem_append_left _ (h.leader hrole), h.election, h.proposal⟩

/-- A round of the replication loop of a leader. -/
theorem AuthorityInv.nextAppend (h : AuthorityInv s won) {n : CommitteeRaftNode}
    {newIndex : ℤ} {entry : CommitteeLogEntry} {quorum : ℕ} {ackers peers : List NodeId}
    {π : List CommitteeLogEntry} (hrole : s.node.role = .leader) (hn : n.role = .leader)
    (hterm : n.currentTerm = s.node.currentTerm) (hcommit : n.commitIndex = s.node.commitIndex)
    (hlog : n.log = π ++ [entry]) (hnew : newIndex = π.length)
    (run : s.afterProposal (n.nextAppend newIndex entry quorum ackers peers) = (s', o)) :
    AuthorityInv s' won ∧ (∀ p args, o = .sentAppend p args → args.term ∈ won) ∧
      (s'.node.commitIndex ≠ s.node.commitIndex →
        PySequence.get s'.node.log s'.node.commitIndex = some entry) := by
  have hwon : n.currentTerm ∈ won := hterm ▸ h.leader hrole
  have helection : s.election = none := by
    by_contra hsome
    exact h.election (Option.isSome_iff_ne_none.mpr hsome) hrole
  obtain ⟨hsend, hentry⟩ := nextAppend_authority quorum ackers peers hlog hnew
  obtain ⟨c, a, m, j, hframe⟩ := nextAppend_frame n newIndex entry quorum ackers peers
  rw [hcommit] at hentry
  rcases Site.afterProposal_cases run with
    ⟨c, hr, rfl, rfl⟩ | ⟨result, hr, rfl, rfl⟩ | ⟨_, counted, hr, rfl, rfl⟩
  · obtain ⟨hargs, hindex, hsame⟩ := hsend c hr
    refine ⟨⟨fun _ => ?_, fun hsome => ?_, ?_⟩, ?_, hentry⟩
    · rw [hframe]
      exact hwon
    · rw [helection] at hsome
      cases hsome
    · rintro _ ⟨⟩
      rw [hframe, hsame, hindex]
      exact ⟨hn, π, hlog, hnew⟩
    · rintro p args ⟨⟩
      rw [hargs]
      exact hwon
  all_goals
    refine ⟨⟨fun _ => ?_, fun hsome => ?_, by rintro _ ⟨⟩⟩, by rintro _ _ ⟨⟩, hentry⟩
    · rw [hframe]
      exact hwon
    · rw [helection] at hsome
      cases hsome

/-- A handler that left the node a leader, or ran while no proposal was waiting. -/
theorem AuthorityInv.handler (h : AuthorityInv s won) {n : CommitteeRaftNode}
    (hrole : (n.role = s.node.role ∧ n.currentTerm = s.node.currentTerm) ∨ n.role = .follower)
    (hsame : s.proposal = none ∨ (n.role = s.node.role ∧ n.log = s.node.log)) :
    AuthorityInv { s with node := n } won := by
  refine ⟨fun hleader => ?_, fun hsome => ?_, fun c hc => ?_⟩
  · rcases hrole with ⟨hr, ht⟩ | hr
    · exact ht ▸ h.leader (hr ▸ hleader)
    · rw [hr] at hleader
      cases hleader
  · rcases hrole with ⟨hr, _⟩ | hr
    · exact hr ▸ h.election hsome
    · rw [hr]
      intro hc
      cases hc
  · rcases hsame with hnone | ⟨hr, hl⟩
    · exact absurd hc (by rw [hnone]; rintro ⟨⟩)
    · obtain ⟨hleader, hlog⟩ := h.proposal c hc
      exact ⟨hr.trans hleader, hl ▸ hlog⟩

/-- After an election step no proposal is waiting, and a new leader has won its term. -/
theorem authority_afterElection {r : CommitteeRaftNode × Progress Election ElectionResult}
    (hproposal : s.proposal = none)
    (hwait : ∀ c, r.2 = .waiting c → r.1.role ≠ .leader)
    (hlead : r.1.role = .leader → (∃ Q, r.2 = .finished ⟨true, Q⟩))
    (run : s.afterElection r = (s', o)) : AuthorityInv s' (won ++ wonTerm s' o) := by
  rcases Site.afterElection_cases run with
    ⟨c, hr, rfl, rfl⟩ | ⟨result, hr, rfl, rfl⟩ | ⟨_, counted, hr, rfl, rfl⟩
  · refine ⟨fun hleader => absurd hleader (hwait c hr), fun _ => hwait c hr, fun p hp => ?_⟩
    exact absurd hp (by rw [hproposal]; rintro ⟨⟩)
  · refine ⟨fun hleader => ?_, by rintro ⟨⟩, fun p hp => ?_⟩
    · obtain ⟨Q, hQ⟩ := hlead hleader
      obtain rfl : (⟨true, Q⟩ : ElectionResult) = result := by
        rw [hr] at hQ
        cases hQ
        rfl
      exact List.mem_append_right _ (List.mem_singleton_self _)
    · exact absurd hp (by rw [hproposal]; rintro ⟨⟩)
  · refine ⟨fun hleader => ?_, by rintro ⟨⟩, fun p hp => ?_⟩
    · obtain ⟨Q, hQ⟩ := hlead hleader
      rw [hr] at hQ
      cases hQ
    · exact absurd hp (by rw [hproposal]; rintro ⟨⟩)

theorem AuthorityInv.step {i : Input} (h : AuthorityInv s won) (hi : Steady s i)
    (run : s.step i = some (s', o)) :
    AuthorityInv s' (won ++ wonTerm s' o) ∧ Authorized s s' i o won := by
  cases i with
  | startElection v w =>
    have hproposal : s.proposal = none := hi.resolve_right id
    have hrun := (Site.step_startElection run).2
    have hnosend : Authorized s s' (.startElection v w) o won := by
      refine ⟨?_, by rintro _ ⟨⟩⟩
      rintro p args rfl
      rcases Site.afterElection_cases hrun with ⟨_, _, _, ho⟩ | ⟨_, _, _, ho⟩ | ⟨_, _, _, _, ho⟩ <;>
        cases ho
    refine ⟨authority_afterElection hproposal ?_ ?_ hrun, hnosend⟩
    · intro c hc
      rcases s.node.startElection_cases v w with ⟨_, heq⟩ | ⟨_, _, heq⟩ | ⟨_, _, _, heq⟩
      · rw [heq] at hc
        cases hc
      · rw [heq]
        rintro ⟨⟩
      · rw [heq]
        rintro ⟨⟩
    · intro hleader
      rcases s.node.startElection_cases v w with ⟨_, heq⟩ | ⟨_, _, heq⟩ | ⟨_, _, _, heq⟩
      · exact ⟨_, by rw [heq]⟩
      · rw [heq] at hleader
        cases hleader
      · rw [heq] at hleader
        cases hleader
  | voteReturned w reply =>
    obtain ⟨c, hc, hrun⟩ := Site.step_voteReturned run
    have hrole : s.node.role ≠ .leader := h.election (by rw [hc]; rfl)
    have hproposal : s.proposal = none := by
      cases hp : s.proposal with
      | none => rfl
      | some p => exact absurd (h.proposal p hp).1 hrole
    have hnosend : Authorized s s' (.voteReturned w reply) o won := by
      refine ⟨?_, by rintro _ ⟨⟩⟩
      rintro p args rfl
      rcases Site.afterElection_cases hrun with ⟨_, _, _, ho⟩ | ⟨_, _, _, ho⟩ | ⟨_, _, _, _, ho⟩ <;>
        cases ho
    refine ⟨authority_afterElection hproposal ?_ ?_ hrun, hnosend⟩
    · intro e he
      rcases s.node.voteReturned_cases c w reply with
        ⟨_, _, _, heq⟩ | ⟨_, _, _, _, _, _, heq⟩ | ⟨_, _, heq⟩
      · rw [heq] at he
        cases he
      · rw [heq] at he
        cases he
      · rw [heq]
        exact hrole
    · intro hleader
      rcases s.node.voteReturned_cases c w reply with
        ⟨_, _, _, heq⟩ | ⟨_, _, _, _, _, _, heq⟩ | ⟨_, _, heq⟩
      · rw [heq] at hleader
        cases hleader
      · exact ⟨_, by rw [heq]⟩
      · rw [heq] at hleader
        exact absurd hleader hrole
  | proposeEntry v w entryType payload author =>
    have hrun := (Site.step_proposeEntry run).2
    rcases s.node.proposeEntry_cases v w entryType payload author with ⟨_, _, heq⟩ | ⟨hrole, heq⟩
    · rw [heq] at hrun
      cases hrun
      refine ⟨⟨?_, h.election, by rintro _ ⟨⟩⟩, by rintro _ _ ⟨⟩, fun _ _ hne => absurd rfl hne⟩
      exact fun hleader => List.mem_append_left _ (h.leader hleader)
    · rw [heq] at hrun
      obtain ⟨hinv, hsend, hentry⟩ := h.nextAppend
        (n := { s.node with log := s.node.log ++ [s.node.newEntry entryType payload author] })
        hrole hrole rfl rfl rfl rfl hrun
      refine ⟨hinv.mono _, hsend, ?_⟩
      rintro e ⟨⟩ hne
      exact hentry hne
  | appendReturned reply =>
    obtain ⟨c, hc, hrun⟩ := Site.step_appendReturned run
    obtain ⟨hrole, π, hlog, hnew⟩ := h.proposal c hc
    rcases s.node.appendReturned_cases c reply with ⟨_, _, _, heq⟩ | ⟨_, heq⟩
    · rw [heq] at hrun
      cases hrun
      refine ⟨⟨by rintro ⟨⟩, fun _ => by rintro ⟨⟩, by rintro _ ⟨⟩⟩, by rintro _ _ ⟨⟩, ?_⟩
      exact fun _ _ hne => absurd rfl hne
    · rw [heq] at hrun
      obtain ⟨x, y, hnoted⟩ := s.node.noted_frame c reply
      have hfields : (s.node.noted c reply).role = .leader ∧
          (s.node.noted c reply).currentTerm = s.node.currentTerm ∧
          (s.node.noted c reply).commitIndex = s.node.commitIndex ∧
          (s.node.noted c reply).log = π ++ [c.entry] := by
        rw [hnoted]
        exact ⟨hrole, rfl, rfl, hlog⟩
      obtain ⟨hinv, hsend, hentry⟩ :=
        h.nextAppend hrole hfields.1 hfields.2.1 hfields.2.2.1 hfields.2.2.2 hnew hrun
      refine ⟨hinv.mono _, hsend, fun e he hne => ?_⟩
      obtain rfl : c.entry = e := by
        simpa [Site.appends, hc] using he
      exact hentry hne
  | requestVote blocked v args =>
    obtain ⟨rfl, ho⟩ := Site.afterVote_cases (Site.step_requestVote run)
    have hnosend : Authorized s { s with node := (s.node.handleRequestVote blocked v args).1 }
        (.requestVote blocked v args) o won := by
      refine ⟨?_, by rintro _ ⟨⟩⟩
      rintro p a rfl
      rcases ho with ⟨_, _, ho⟩ | ⟨_, ho⟩ <;> cases ho
    refine ⟨(h.handler (s.node.handleRequestVote_role blocked v args) ?_).mono _, hnosend⟩
    refine hi.imp_right fun hi => ?_
    obtain ⟨vote, heq⟩ := handleRequestVote_same hi
    rw [heq]
    exact ⟨rfl, rfl⟩
  | appendEntries blocked v args =>
    obtain ⟨rfl, ho⟩ := Site.afterAppend_cases (Site.step_appendEntries run)
    have hnosend : Authorized s { s with node := (s.node.handleAppendEntries blocked v args).1 }
        (.appendEntries blocked v args) o won := by
      refine ⟨?_, by rintro _ ⟨⟩⟩
      rintro p a rfl
      rcases ho with ⟨_, _, ho⟩ | ⟨_, ho⟩ <;> cases ho
    refine ⟨(h.handler (s.node.handleAppendEntries_role blocked v args) ?_).mono _, hnosend⟩
    refine hi.imp_right fun hi => ?_
    rw [handleAppendEntries_same hi]
    exact ⟨rfl, rfl⟩

end Step

theorem LeaderHistory.inv {s : Site} {won : List ℤ} (h : LeaderHistory Steady s won) :
    AuthorityInv s won := by
  induction h with
  | fresh nodeId => exact ⟨by rintro ⟨⟩, by rintro ⟨⟩, by rintro _ ⟨⟩⟩
  | step _ allowed run ih => exact (ih.step allowed run).1

/-- In a steady run every append request carries a term that the node won before, and
`propose_entry` commits nothing but the entry that it appended. -/
theorem leader_authority {s s' : Site} {i : Input} {o : Output} {won : List ℤ}
    (h : LeaderHistory Steady s won) (allowed : Steady s i) (run : s.step i = some (s', o)) :
    (∀ p args, o = .sentAppend p args → args.term ∈ won) ∧
      ∀ e, s.appends i = some e → s'.node.commitIndex ≠ s.node.commitIndex →
        PySequence.get s'.node.log s'.node.commitIndex = some e :=
  (h.inv.step allowed run).2

/-- The request to the second peer carries the term that was won. -/
theorem leader_authority_second_peer :
    ∃ s s' won args, LeaderHistory Steady s won ∧
      s.step (.appendReturned none) = some (s', .sentAppend "c" args) ∧ args.term ∈ won := by
  have h₀ := LeaderHistory.fresh (P := Steady) "a"
  have h₁ := h₀.step (i := .startElection trio trio) (Or.inl rfl) rfl
  have h₂ := h₁.step (i := .voteReturned trio (some ⟨1, true, "b", none⟩)) (Or.inl rfl) rfl
  have h₃ := h₂.step (i := .proposeEntry trio trio .configuration [] none) (Or.inl rfl) rfl
  have hsent := (leader_authority (i := .appendReturned none) h₃ (Or.inr trivial) rfl).1 "c" _ rfl
  exact ⟨_, _, _, _, h₃, rfl, hsent⟩

/-- The leader of term 1 handles a vote request of term 2 while it waits for node `b`, and then
sends node `c` a request of term 2, which it never won. -/
theorem leader_authority_lost : ¬ ∀ s s' i o won, LeaderHistory (fun _ _ => True) s won →
    s.step i = some (s', o) → (∀ p args, o = .sentAppend p args → args.term ∈ won) ∧
      ∀ e, s.appends i = some e → s'.node.commitIndex ≠ s.node.commitIndex →
        PySequence.get s'.node.log s'.node.commitIndex = some e := by
  intro hall
  have h₀ := LeaderHistory.fresh (P := fun _ _ => True) "a"
  have h₁ := h₀.step (i := .startElection trio trio) trivial rfl
  have h₂ := h₁.step (i := .voteReturned trio (some ⟨1, true, "b", none⟩)) trivial rfl
  have h₃ := h₂.step (i := .proposeEntry trio trio .configuration [] none) trivial rfl
  have h₄ := h₃.step (i := .requestVote false trio ⟨2, "c", 5, 5⟩) trivial rfl
  have hterm := (hall _ _ (.appendReturned none) _ _ h₄ rfl).1 "c" _ rfl
  exact absurd hterm (by decide)

end AgentSystem.Raft
