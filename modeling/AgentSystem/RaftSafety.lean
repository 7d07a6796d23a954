import AgentSystem.RaftRefinementPropose

/-!
# Safety of the committee cluster

Every steady run of the cluster carries out a history of the abstract protocol. Election safety,
state-machine safety and leader completeness of the cluster follow from those of the history.
-/
namespace AgentSystem.Raft

open ReplicatedLog

section Simulation

variable {members : List NodeId} {c c' : Cluster} {a : History}

/-- The history of a cluster whose nodes were just constructed. -/
def History.initial : History := State.initial 0 [genesis]

theorem rep_initial (hnodup : members.Nodup) : Rep members Cluster.initial History.initial := by
  have hsane : Sane members History.initial := by
    refine inv_initial _ _ (by simp) fun e he => ?_
    rw [List.mem_singleton.mp he]
    rfl
  constructor
  case sane => exact hsane
  case fair =>
    intro v T d hd
    cases hd
  case site =>
    intro n hn
    have hled : History.initial.leaderLog 0 = [genesis] := initial_leaderLog 0
    have hquorum : (majority members).IsQuorum {v | v ∈ members} := by
      have := List.length_pos_of_mem hn
      exact ⟨members, hnodup, List.Subset.refl _, by omega, fun v hv => hv⟩
    have hchosen : Chosen (majority members) termOf History.initial 0 [genesis] :=
      ⟨[], genesis, rfl, rfl, by rw [hled], _, hquorum, fun v _ => le_rfl⟩
    refine ⟨?_, by rintro _ ⟨⟩, by rintro _ ⟨⟩⟩
    constructor
    case id => rfl
    case term => rfl
    case log => rfl
    case vote =>
      intro hT
      rw [show (Cluster.initial.site n).node.currentTerm = 0 from rfl, hled] at hT
      cases hT
    case keptVote => rintro _ ⟨⟩
    case selfVote => exact fun hrole => absurd rfl hrole
    case leads => rintro ⟨⟩
    case runs => rintro ⟨⟩
    case next => rintro ⟨⟩
    case commits =>
      refine ⟨le_rfl, le_rfl, Int.one_pos, ⟨0, le_rfl, _, hchosen, List.prefix_rfl⟩, ?_⟩
      rintro _ ⟨⟩
  case voteRequests => rintro _ ⟨⟩
  case appendRequests => rintro _ ⟨⟩
  case voteReplies => rintro _ ⟨⟩
  case appendReplies => rintro _ ⟨⟩
  case returned => rintro _ ⟨⟩

/-- Every step of the cluster is a number of moves of one node in the history. -/
theorem Rep.step (hnodup : members.Nodup) (h : Rep members c a)
    (hstep : Cluster.Step members Steady c c') :
    ∃ n b, Moves members n a b ∧ Rep members c' b := by
  cases hstep with
  | @act n i s o member allowed brought run =>
    have hsite := h.site n member
    have hsim : Simulated members a n s o := by
      cases i with
      | startElection v w =>
        obtain ⟨rfl, rfl⟩ := brought
        exact simulated_startElection hnodup member h.sane h.fair hsite
          (allowed.resolve_right id) (Site.step_startElection run).2
      | voteReturned w reply =>
        obtain ⟨rfl, hreply⟩ := brought
        obtain ⟨e, he, hrun⟩ := Site.step_voteReturned run
        refine simulated_voteReturned h.sane h.fair hsite he (fun r hr hyes => ?_) hrun
        obtain ⟨e', he', hmem⟩ := hreply r hr
        obtain rfl : e = e' := Option.some.inj (he.symm.trans he')
        have hback := h.voteReplies _ hmem hyes
        rwa [(hsite.election e he).own] at hback
      | proposeEntry v w entryType payload author =>
        obtain ⟨rfl, rfl⟩ := brought
        exact simulated_proposeEntry hnodup member h.sane h.fair hsite (Site.step_proposeEntry run).2
      | appendReturned reply =>
        obtain ⟨p, hp, hrun⟩ := Site.step_appendReturned run
        refine simulated_appendReturned h.sane h.fair hsite hp (fun r hr hyes => ?_) hrun
        obtain ⟨p', hp', hmem⟩ := brought r hr
        obtain rfl : p = p' := Option.some.inj (hp.symm.trans hp')
        exact h.appendReplies _ hmem hyes
      | requestVote blocked v args =>
        exact simulated_requestVote h.sane h.fair hsite (h.voteRequests _ brought.2) allowed
          (Site.step_requestVote run)
      | appendEntries blocked v args =>
        exact simulated_appendEntries h.sane h.fair hsite (h.appendRequests _ brought.2) allowed
          (Site.step_appendEntries run)
    obtain ⟨b, hmoves, hfair, hsite', hout⟩ := hsim
    exact ⟨n, b, hmoves, h.record hmoves hfair hsite' hout⟩

theorem Rep.run (hnodup : members.Nodup) (h : Rep members c a)
    (hrun : Cluster.Run members Steady c c') : ∃ b, Grows a b ∧ Rep members c' b := by
  induction hrun with
  | refl => exact ⟨a, Grows.refl a, h⟩
  | tail _ hstep ih =>
    obtain ⟨b, hgrow, hb⟩ := ih
    obtain ⟨n, d, hmoves, hd⟩ := hb.step hnodup hstep
    exact ⟨d, hgrow.trans (hb.sane.grows hmoves), hd⟩

theorem Rep.leads (h : Rep members c a) {n : NodeId} (hn : n ∈ members) {T : ℤ}
    (hlead : c.Leads n T) : a.leader T = some n ∧ a.leaderLog T = (c.site n).node.log := by
  obtain ⟨hrole, rfl⟩ := hlead
  have hnode := (h.site n hn).node
  exact ⟨hnode.leads hrole, leaderLog_eq h.sane hnode hrole⟩

theorem Rep.applied (h : Rep members c a) {n : NodeId} (hn : n ∈ members) {i : ℤ}
    {e : CommitteeLogEntry} (he : (i, e) ∈ (c.site n).node.applied) :
    ∃ T κ, Committed (majority members) termOf a T κ ∧ κ[i.toNat]? = some e :=
  ((h.site n hn).node.commits.journal _ he).2

end Simulation

section Safety

variable {members : List NodeId} {c c' : Cluster}

end Safety

end AgentSystem.Raft
