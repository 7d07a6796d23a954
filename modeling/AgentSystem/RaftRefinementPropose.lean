import AgentSystem.RaftRefinementLog

/-!
# Proposals in the abstract protocol

How a leader moves in the abstract protocol when it appends an entry, sends it around and commits
it. A steady leader stays the leader of its term while its proposal waits.
-/
namespace AgentSystem.Raft

open ReplicatedLog CommitteeRaftNode

section Propose

variable {members : List NodeId} {a b : History} {n : NodeId} {x : CommitteeRaftNode}

theorem leaderLog_eq (ha : Sane members a) (h : NodeRep members a n x)
    (hlead : x.role = .leader) : a.leaderLog x.currentTerm = x.log := by
  have hholds := ha.leaderHolds n
  rw [h.term, h.log] at hholds
  exact (hholds (h.leads hlead)).symm

/-- The request built for a peer whose next index lies before the end of the log. -/
theorem appendArgs_eq {newIndex : ℤ} {q : NodeId} {args : AppendEntriesArgs} {k : ℕ}
    (hnext : x.nextIndex q = some (k : ℤ)) (hpos : 1 ≤ k) (hlt : k < x.log.length)
    (hargs : x.appendArgs newIndex q = .ok args) :
    ∃ prev, x.log[k - 1]? = some prev ∧
      args = ⟨x.currentTerm, x.nodeId, (k - 1 : ℕ), prev.term, x.log.drop k, x.commitIndex⟩ := by
  unfold appendArgs at hargs
  have hprev : x.log[k - 1]? = some x.log[k - 1] := List.getElem?_eq_getElem (by omega)
  have hidx : (k : ℤ) - 1 = ((k - 1 : ℕ) : ℤ) := by omega
  have hback : ((k - 1 : ℕ) : ℤ) + 1 = (k : ℤ) := by omega
  rw [hnext] at hargs
  dsimp only [Option.getD_some] at hargs
  rw [hidx, if_pos (by omega), PySequence.get_natCast, hprev, hback,
    PySequence.sliceFrom_natCast] at hargs
  cases hargs
  exact ⟨_, hprev, rfl⟩

/-- A leader's request carries its own log up to its own last entry. -/
theorem instructs_appendArgs (ha : Sane members a) (h : NodeRep members a n x)
    (hlead : x.role = .leader) {π : List CommitteeLogEntry} {e : CommitteeLogEntry}
    (hlog : x.log = π ++ [e]) (hterm : e.term = x.currentTerm) {newIndex : ℤ} {q : NodeId}
    (hq : q ≠ n) {args : AppendEntriesArgs} {k : ℕ} (hnext : x.nextIndex q = some (k : ℤ))
    (hpos : 1 ≤ k) (hlt : k < x.log.length) (hargs : x.appendArgs newIndex q = .ok args) :
    Instructs members a q args ∧ args.term = x.currentTerm ∧
      args.prevLogIndex + 1 + args.entries.length = x.log.length := by
  obtain ⟨prev, hprev, rfl⟩ := appendArgs_eq hnext hpos hlt hargs
  have hled := leaderLog_eq ha h hlead
  have h₀ := h.commits.nonneg
  have h₁ := h.commits.appliedLe
  have h₂ := h.commits.commitLt
  have hcommitted := h.commits.committed
  refine ⟨⟨?_, ?_, k - 1, rfl, ⟨prev, ?_, rfl⟩, ?_, ⟨e, ?_, hterm⟩,
    x.commitIndex.toNat, ?_, ?_, ?_⟩, rfl, ?_⟩
  · rw [h.id]
    exact h.leads hlead
  · rw [h.id]
    exact hq
  · rw [hled]
    exact hprev
  · rw [hled, Nat.sub_add_cancel hpos]
  · rw [hlog] at hlt ⊢
    rw [List.length_append, List.length_singleton] at hlt
    rw [List.drop_append_of_le_length (by omega), List.getLast?_concat]
  · exact (Int.toNat_of_nonneg (h₀.trans h₁)).symm
  · rw [List.length_drop]
    omega
  · rw [hled]
    rwa [show (x.commitIndex + 1).toNat = x.commitIndex.toNat + 1 by omega] at hcommitted
  · dsimp only
    rw [List.length_drop]
    omega

/-- A leader appends an entry of its term and holds it itself. -/
theorem NodeRep.propose (ha : Sane members a) (hfair : BallotsFair a) (h : NodeRep members a n x)
    (hlead : x.role = .leader) {e : CommitteeLogEntry} (hterm : e.term = x.currentTerm) :
    ∃ b, Moves members n a b ∧ BallotsFair b ∧
      NodeRep members b n { x with log := x.log ++ [e] } ∧
      (x.log ++ [e]).length ≤ b.acked n x.currentTerm := by
  have hseat := h.leads hlead
  have hmove : Moves members n a (a.extend n e) := by
    refine Relation.ReflTransGen.single (.append e ?_ ?_)
    · rw [h.term]
      exact hseat
    · rw [h.term]
      exact hterm
  have hgrow := ha.grows hmove
  have hled : (a.extend n e).leaderLog x.currentTerm = x.log ++ [e] := by
    rw [extend_leaderLog, if_pos h.term.symm, h.log]
  have hne : (a.extend n e).leaderLog x.currentTerm ≠ [] := by
    rw [hled]
    simp
  have hlt := h.commits.commitLt
  have hrep : NodeRep members (a.extend n e) n { x with log := x.log ++ [e] } := by
    constructor
    case id => exact h.id
    case term => exact h.term
    case log => rw [extend_log, if_pos rfl, h.log]
    case vote => exact fun hT => absurd hT hne
    case keptVote => exact h.keptVote
    case selfVote => exact h.selfVote
    case leads => exact h.leads
    case runs =>
      intro hc
      rw [show x.role = .leader from hlead] at hc
      cases hc
    case next =>
      intro _ p hp hpn
      obtain ⟨k, hk, hpos, hle⟩ := h.next hlead p hp hpn
      refine ⟨k, hk, hpos, ?_⟩
      rw [List.length_append]
      omega
    case commits =>
      refine ⟨h.commits.nonneg, h.commits.appliedLe, ?_, ?_, (h.commits.mono hgrow).journal⟩
      · rw [List.length_append]
        push_cast
        omega
      · have hkeep : (x.log ++ [e]).take (x.commitIndex + 1).toNat =
            x.log.take (x.commitIndex + 1).toNat := List.take_append_of_le_length (by omega)
        dsimp only
        rw [hkeep]
        exact (h.commits.mono hgrow).committed
  have hsane : Sane members (a.extend n e) := ha.steps hmove
  obtain ⟨b, hmoves, hfair', hrep', hacked⟩ := hrep.confirm hsane
    (hfair.of_ballot_eq hgrow rfl) hne (k := (x.log ++ [e]).length)
    (by rw [← hled]) (by rw [List.take_of_length_le (by rw [← hled])]; rw [← hled])
  exact ⟨b, hmove.trans hmoves, hfair', hrep', hacked⟩

/-- The entry is chosen once the acknowledging nodes are a majority. -/
theorem LoopRep.chosen (ha : Sane members a) (h : NodeRep members a n x) {newIndex : ℤ}
    {entry : CommitteeLogEntry} {quorum : ℕ} {ackers : List NodeId}
    (hloop : LoopRep members a n x newIndex entry quorum ackers [])
    (henough : quorum ≤ ackers.length) :
    Chosen (majority members) termOf a x.currentTerm x.log := by
  obtain ⟨π, hlog, _, _⟩ := hloop.last
  have hdistinct := hloop.distinct
  have hasked := hloop.asked
  rw [List.append_nil] at hdistinct hasked
  refine ⟨π, entry, hlog, hloop.entryTerm, ?_, {v | v ∈ ackers}, ?_, hloop.acked⟩
  · rw [leaderLog_eq ha h hloop.leads]
  · exact ⟨ackers, hdistinct, hasked, hloop.quorum ▸ henough, fun v hv => hv⟩

/-- The next round of the replication loop, or its end. -/
theorem simulated_nextAppend {s s' : Site} {o : Output} {newIndex : ℤ}
    {entry : CommitteeLogEntry} {quorum : ℕ} {ackers rest : List NodeId} (ha : Sane members a)
    (hfair : BallotsFair a) (h : NodeRep members a n x) (helection : s.election = none)
    (hloop : LoopRep members a n x newIndex entry quorum ackers rest)
    (run : s.afterProposal (x.nextAppend newIndex entry quorum ackers rest) = (s', o)) :
    Simulated members a n s' o := by
  have hnone : ∀ (y : CommitteeRaftNode) e, s.election = some e → ElectionRep members a n y e := by
    intro y e he
    rw [helection] at he
    cases he
  obtain ⟨π, hlog, hnew, hindex⟩ := hloop.last
  rcases x.nextAppend_cases newIndex entry quorum ackers rest with
    ⟨rfl, henough, hnode, hend⟩ | ⟨_, _, _, heq⟩ | ⟨_, _, _, _, _, heq⟩ | ⟨p, l, args, rfl, hargs, heq⟩
  · have hchosen := hloop.chosen ha h henough
    have hlen : (x.log.length : ℤ) = newIndex + 1 := by
      rw [hlog, hnew]
      simp
    have h₁ := h.commits.appliedLe
    have h₂ := h.commits.commitLt
    have hrep : NodeRep members a n (applyCommittedEntries { x with commitIndex := newIndex }).1 := by
      refine h.commit (by omega) (by omega) ⟨x.currentTerm, le_rfl, x.log, hchosen, ?_⟩
      exact List.take_prefix _ _
    have hreturned : Returned members a entry := by
      refine ⟨π, hindex, ?_⟩
      rw [hloop.entryTerm, ← hlog]
      exact hchosen
    rw [← hnode] at hrep
    rcases Site.afterProposal_cases run with
      ⟨_, hr, rfl, rfl⟩ | ⟨result, hr, rfl, rfl⟩ | ⟨_, _, hr, rfl, rfl⟩
    · rcases hend with hend | ⟨_, hend⟩ <;> rw [hend] at hr <;> cases hr
    · refine ⟨a, Relation.ReflTransGen.refl, hfair, ⟨hrep, hnone _, by rintro _ ⟨⟩⟩, ?_⟩
      rintro _ e he
      rcases hend with hend | ⟨_, hend⟩ <;> rw [hend] at hr <;> cases hr
      exact Option.some.inj he ▸ hreturned
    · exact ⟨a, Relation.ReflTransGen.refl, hfair, ⟨hrep, hnone _, by rintro _ ⟨⟩⟩, trivial⟩
  · rw [heq] at run
    cases run
    exact ⟨a, Relation.ReflTransGen.refl, hfair, ⟨h, hnone _, by rintro _ ⟨⟩⟩, by rintro ⟨⟩⟩
  · rw [heq] at run
    cases run
    exact ⟨a, Relation.ReflTransGen.refl, hfair, ⟨h, hnone _, by rintro _ ⟨⟩⟩, trivial⟩
  · rw [heq] at run
    cases run
    obtain ⟨k, hk, hpos, hlt⟩ := hloop.next p List.mem_cons_self
    have hp : p ≠ n := by
      rintro rfl
      exact (List.nodup_append.mp hloop.distinct).2.2 p hloop.own p List.mem_cons_self rfl
    obtain ⟨hins, hrequest⟩ :=
      instructs_appendArgs ha h hloop.leads hlog hloop.entryTerm hp hk hpos hlt hargs
    refine ⟨a, Relation.ReflTransGen.refl, hfair, ⟨h, hnone _, ?_⟩, hins⟩
    rintro _ ⟨⟩
    exact ⟨hloop, hrequest⟩

theorem simulated_proposeEntry {s s' : Site} {o : Output} {entryType : CommitteeEntryType}
    {payload : Payload} {author : Option NodeId} (hnodup : members.Nodup) (hn : n ∈ members)
    (ha : Sane members a) (hfair : BallotsFair a) (h : SiteRep members a n s)
    (run : s.afterProposal (s.node.proposeEntry (.full members) (.full members) entryType payload
      author) = (s', o)) : Simulated members a n s' o := by
  rcases s.node.proposeEntry_cases (.full members) (.full members) entryType payload author with
    ⟨_, _, heq⟩ | ⟨hrole, heq⟩
  · rw [heq] at run
    cases run
    exact ⟨a, Relation.ReflTransGen.refl, hfair, ⟨h.node, h.election, by rintro _ ⟨⟩⟩,
      by rintro ⟨⟩⟩
  · rw [heq] at run
    have hid := h.node.id
    obtain ⟨b, hmoves, hfair', hrep, hacked⟩ := h.node.propose ha hfair hrole
      (e := s.node.newEntry entryType payload author) rfl
    have helection : s.election = none := by
      cases he : s.election with
      | none => rfl
      | some e => exact absurd hrole (h.election e he).undecided
    refine Simulated.after hmoves
      (simulated_nextAppend (ha.steps hmoves) hfair' hrep helection ?_ run)
    have hdistinct := verifiedPeers_nodup hnodup (n := s.node) (v := .full members) rfl
    refine ⟨hrole, ⟨s.node.log, rfl, rfl, rfl⟩, rfl, ?_, hdistinct, ?_, ?_, ?_, ?_⟩
    · exact getQuorumSize_full hnodup (hid.symm ▸ hn)
    · intro p hp
      rcases List.mem_cons.mp hp with rfl | hp
      · exact hid.symm ▸ hn
      · exact (mem_verifiedPeers_full.mp hp).1
    · exact hid ▸ List.mem_singleton_self _
    · intro v hv
      rw [List.mem_singleton.mp hv, hid]
      exact hacked
    · intro q hq
      obtain ⟨hmember, hne⟩ := mem_verifiedPeers_full.mp hq
      obtain ⟨k, hk, hpos, hle⟩ := h.node.next hrole q hmember (hid ▸ hne)
      refine ⟨k, hk, hpos, ?_⟩
      rw [List.length_append, List.length_singleton]
      omega

/-- The node that noted a reply, and the index it goes on with for that peer. -/
theorem NodeRep.noted (h : NodeRep members a n x) (hlead : x.role = .leader)
    (ha : Sane members a) {p : Proposal} (hp : ProposalRep members a n x p)
    {reply : Option AppendEntriesReply}
    (hreply : ∀ r, reply = some r → r.success = true → Confirms a p.awaiting p.args r) :
    NodeRep members a n (x.noted p reply) ∧
      ∀ q, q ≠ p.awaiting → (x.noted p reply).nextIndex q = x.nextIndex q := by
  have hother : ∀ q, q ≠ p.awaiting → (x.noted p reply).nextIndex q = x.nextIndex q := by
    intro q hq
    unfold CommitteeRaftNode.noted
    cases reply with
    | none => rfl
    | some r =>
      dsimp only
      split_ifs <;> simp [recordAck, recordRefusal, hq]
  have hawaited : ∃ k : ℕ, (x.noted p reply).nextIndex p.awaiting = some (k : ℤ) ∧ 1 ≤ k ∧
      k ≤ x.log.length := by
    obtain ⟨k, hk, hpos, hlt⟩ := hp.loop.next p.awaiting List.mem_cons_self
    unfold CommitteeRaftNode.noted
    cases reply with
    | none => exact ⟨k, hk, hpos, hlt.le⟩
    | some r =>
      dsimp only
      split_ifs with hok
      · obtain ⟨_, hnonneg, hinside⟩ := hreply r rfl hok
        rw [hp.request.1, leaderLog_eq ha h hlead] at hinside
        refine ⟨(r.matchIndex + 1).toNat, ?_, by omega, by omega⟩
        simp only [recordAck, Function.update_self]
        rw [Int.toNat_of_nonneg (by omega)]
      · refine ⟨max 1 (k - 1), ?_, le_max_left _ _, by omega⟩
        simp only [recordRefusal, Function.update_self, hk, Option.getD_some]
        congr 1
        omega
  refine ⟨?_, hother⟩
  have hnext : ∀ q ∈ members, q ≠ n → ∃ k : ℕ,
      (x.noted p reply).nextIndex q = some (k : ℤ) ∧ 1 ≤ k ∧ k ≤ x.log.length := by
    intro q hq hne
    by_cases heq : q = p.awaiting
    · rw [heq]
      exact hawaited
    · rw [hother q heq]
      exact h.next hlead q hq hne
  obtain ⟨y, z, hframe⟩ := x.noted_frame p reply
  rw [hframe] at hnext ⊢
  exact ⟨h.id, h.term, h.log, h.vote, h.keptVote, h.selfVote, h.leads, h.runs, fun _ => hnext,
    h.commits⟩

theorem simulated_appendReturned {s s' : Site} {o : Output} {p : Proposal}
    {reply : Option AppendEntriesReply} (ha : Sane members a) (hfair : BallotsFair a)
    (h : SiteRep members a n s) (hp : s.proposal = some p)
    (hreply : ∀ r, reply = some r → r.success = true → Confirms a p.awaiting p.args r)
    (run : s.afterProposal (s.node.appendReturned p reply) = (s', o)) :
    Simulated members a n s' o := by
  have hrep := h.proposal p hp
  have helection : s.election = none := by
    cases he : s.election with
    | none => rfl
    | some e => exact absurd hrep.loop.leads (h.election e he).undecided
  rcases s.node.appendReturned_cases p reply with ⟨r, _, hlater, heq⟩ | ⟨_, heq⟩
  · rw [heq] at run
    cases run
    refine ⟨_, moves_setTerm h.node hlater, fair_setTerm hfair _,
      ⟨h.node.later ha hlater none, ?_, by rintro _ ⟨⟩⟩, by rintro ⟨⟩⟩
    intro e he
    rw [helection] at he
    cases he
  · rw [heq] at run
    obtain ⟨hnode, hother⟩ := h.node.noted hrep.loop.leads ha hrep hreply
    refine simulated_nextAppend ha hfair hnode helection ?_ run
    have hassoc : p.ackers ++ p.awaiting :: p.remaining =
        p.ackers ++ [p.awaiting] ++ p.remaining := by simp
    have hdistinct := hrep.loop.distinct
    have hasked := hrep.loop.asked
    have hsub : List.Sublist (p.counted reply ++ p.remaining)
        (p.ackers ++ p.awaiting :: p.remaining) := by
      unfold Proposal.counted
      split_ifs
      · rw [hassoc]
      · exact (List.Sublist.refl _).append (List.sublist_cons_self _ _)
    have hacked : ∀ v ∈ p.counted reply, s.node.log.length ≤ a.acked v s.node.currentTerm := by
      intro v hv
      unfold Proposal.counted at hv
      split_ifs at hv with hok
      · rcases List.mem_append.mp hv with hv | hv
        · exact hrep.loop.acked v hv
        · obtain ⟨r, rfl⟩ : ∃ r, reply = some r := by
            cases reply with
            | none => cases hok
            | some r => exact ⟨r, rfl⟩
          have hheld := (hreply r rfl hok).held
          obtain ⟨hterm, hlen⟩ := hrep.request
          rw [List.mem_singleton.mp hv, ← hterm]
          omega
      · exact hrep.loop.acked v hv
    have hnext : ∀ q ∈ p.remaining, ∃ k : ℕ,
        (s.node.noted p reply).nextIndex q = some (k : ℤ) ∧ 1 ≤ k ∧ k < s.node.log.length := by
      intro q hq
      have hne : q ≠ p.awaiting := by
        rintro rfl
        exact (List.nodup_cons.mp (List.Nodup.of_append_right hdistinct)).1 hq
      rw [hother q hne]
      exact hrep.loop.next q (List.mem_cons_of_mem _ hq)
    have hown : n ∈ p.counted reply := by
      unfold Proposal.counted
      split_ifs
      · exact List.mem_append_left _ hrep.loop.own
      · exact hrep.loop.own
    obtain ⟨y, z, hframe⟩ := s.node.noted_frame p reply
    rw [hframe] at hnext ⊢
    exact ⟨hrep.loop.leads, hrep.loop.last, hrep.loop.entryTerm, hrep.loop.quorum, hdistinct.sublist hsub,
      fun v hv => hasked (hsub.subset hv), hown, hacked, hnext⟩

end Propose

end AgentSystem.Raft
