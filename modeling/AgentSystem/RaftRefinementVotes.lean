import AgentSystem.RaftRefinement

/-!
# Elections in the abstract protocol

How a node moves in the abstract protocol when it steps down, starts an election, grants a vote
and wins.
-/
namespace AgentSystem.Raft

open ReplicatedLog CommitteeRaftNode

/-- A step of node `n` to this site with this output has its counterpart in the history. -/
def Simulated (members : List NodeId) (a : History) (n : NodeId) (s : Site) (o : Output) : Prop :=
  ∃ b, Moves members n a b ∧ BallotsFair b ∧ SiteRep members b n s ∧ OutputRep members b n o

section Votes

variable {members : List NodeId} {a b : History} {n : NodeId} {x : CommitteeRaftNode}

theorem ballot_later (h : Sane members a) {T : ℤ} (hT : a.term n < T) : a.ballot n T = none := by
  cases hb : a.ballot n T with
  | none => rfl
  | some c => exact absurd (h.ballotTerm n T c hb) (not_le.mpr hT)

theorem log_ne_nil (h : NodeRep members a n x) : x.log ≠ [] := by
  intro hnil
  have h₀ := h.commits.nonneg
  have h₁ := h.commits.appliedLe
  have h₂ := h.commits.commitLt
  rw [hnil] at h₂
  simp only [List.length_nil, Nat.cast_zero] at h₂
  omega

theorem lastLogTerm_eq (x : CommitteeRaftNode) :
    x.lastLogTerm = x.log.getLast?.map CommitteeLogEntry.term := by
  unfold lastLogTerm
  congr 1
  unfold PySequence.get PySequence.position
  cases hlog : x.log with
  | nil => simp
  | cons y l =>
    rw [if_neg (by omega), if_pos (by simp)]
    simp [List.getLast?_eq_getElem?]

/-- Only the fields that the relation speaks of matter. -/
theorem NodeRep.setLeaderId (h : NodeRep members a n x) (l : Option NodeId) :
    NodeRep members a n { x with leaderId := l } :=
  ⟨h.id, h.term, h.log, h.vote, h.keptVote, h.selfVote, h.leads, h.runs, h.next, h.commits⟩

/-- The relation after the term of the node moved on. -/
theorem NodeRep.later (ha : Sane members a) (h : NodeRep members a n x) {T : ℤ}
    (hT : x.currentTerm < T) (l : Option NodeId) :
    NodeRep members (a.setTerm n T) n (x.stepDown T l) where
  id := h.id
  term := by simp [State.setTerm, stepDown]
  log := h.log
  vote _ := ballot_later ha (by rw [h.term]; exact hT)
  keptVote c hc hn := by
    have hvote := ((ha.elected T c hc).2 n hn).1
    rw [ballot_later ha (by rw [h.term]; exact hT)] at hvote
    cases hvote
  selfVote hrole := absurd rfl hrole
  leads hrole := by cases hrole
  runs hrole := by cases hrole
  next hrole := by cases hrole
  commits :=
    { h.commits with
      committed := by
        obtain ⟨T₀, hT₀, m, hm, hpre⟩ := h.commits.committed
        exact ⟨T₀, hT₀.trans hT.le, m, hm, hpre⟩
      journal := h.commits.journal }

theorem moves_setTerm (h : NodeRep members a n x) {T : ℤ} (hT : x.currentTerm < T) :
    Moves members n a (a.setTerm n T) :=
  Relation.ReflTransGen.single (.advance T (by rw [h.term]; exact hT.le))

theorem fair_setTerm (hfair : BallotsFair a) (T : ℤ) : BallotsFair (a.setTerm n T) := hfair

/-- A term that another majority than the candidate's supporters could not decide is vacant. -/
theorem vacant_of_backed (ha : Sane members a) {T : ℤ} (hT : 0 < T)
    (hunseated : a.leader T ≠ some n) {voters : List NodeId}
    (hquorum : (majority members).IsQuorum {v | v ∈ voters})
    (hbacked : ∀ v ∈ voters, Backs a v T n) : a.leaderLog T = [] := by
  by_contra hled
  obtain ⟨c, hc⟩ := (ha.seated T hled).resolve_left hT.ne'
  obtain ⟨v, hv, hv'⟩ := (majority members).meet hquorum (ha.elected T c hc).1
  obtain rfl : c = n := (hbacked v hv).elected c hc hv'
  exact hunseated hc

/-- A candidate backed by a majority takes the seat. -/
theorem NodeRep.win (ha : Sane members a) (hfair : BallotsFair a) (h : NodeRep members a n x)
    (hrole : x.role = .candidate) {voters : List NodeId} (hdistinct : voters.Nodup)
    (hmembers : voters ⊆ members) (henough : members.length / 2 + 1 ≤ voters.length)
    (hbacked : ∀ v ∈ voters, Backs a v x.currentTerm n) :
    ∃ b, Moves members n a b ∧ BallotsFair b ∧
      NodeRep members b n (x.becomeLeader (.full members)) := by
  have hrun := h.runs hrole
  have hquorum : (majority members).IsQuorum {v | v ∈ voters} :=
    ⟨voters, hdistinct, hmembers, henough, fun v hv => hv⟩
  have hvacant := vacant_of_backed ha hrun.positive hrun.unseated hquorum hbacked
  have hmove : Moves members n a (a.seat n {v | v ∈ voters}) := by
    refine Relation.ReflTransGen.single (.elect _ ?_ ?_ ?_ hquorum ?_)
    · rw [h.term]
      exact hvacant
    · rw [h.log]
      exact log_ne_nil h
    · rw [h.log, h.term]
      exact hrun.earlier
    · intro v hv
      rw [h.term, h.log]
      have hvote := (hbacked v hv).ballot hvacant
      refine ⟨hvote, ?_⟩
      rw [← hrun.own hvacant]
      exact (hfair v _ n hvote hvacant).2
  have hgrow := ha.grows hmove
  have hself : x.votedFor = some n := h.selfVote (by rw [hrole]; rintro ⟨⟩)
  have hleader : (a.seat n {v | v ∈ voters}).leader x.currentTerm = some n := by
    rw [seat_leader, if_pos h.term.symm]
  have hled : (a.seat n {v | v ∈ voters}).leaderLog x.currentTerm ≠ [] := by
    rw [seat_leaderLog, if_pos h.term.symm, h.log]
    exact log_ne_nil h
  refine ⟨_, hmove, hfair.of_ballot_eq hgrow rfl, ?_⟩
  constructor
  case id => exact h.id
  case term => exact h.term
  case log => exact h.log
  case vote => exact fun hT => absurd hT hled
  case keptVote =>
    intro c hc _
    exact hself.trans (hleader.symm.trans hc)
  case selfVote => exact fun _ => hself
  case leads => exact fun _ => hleader
  case runs =>
    intro hc
    cases hc
  case next =>
    intro _ p hp hne
    refine ⟨x.log.length, ?_, List.length_pos_of_ne_nil (log_ne_nil h), le_rfl⟩
    have hpeer : p ∈ x.getClusterPeers (.full members) := by
      simp [getClusterPeers, View.full, hp, h.id, hne]
    simp [becomeLeader, hpeer, lastLogIndex]
  case commits => exact h.commits.mono hgrow

/-- A new candidate: the term moves on, and if it is vacant the node casts its own ballot. -/
theorem NodeRep.campaign (ha : Sane members a) (hfair : BallotsFair a)
    (h : NodeRep members a n x) :
    ∃ b, Moves members n a b ∧ BallotsFair b ∧ NodeRep members b n x.campaigning ∧
      Backs b n (x.currentTerm + 1) n ∧
      ∀ lastLogTerm, x.lastLogTerm = some lastLogTerm →
        Asks b ⟨x.currentTerm + 1, n, x.lastLogIndex, lastLogTerm⟩ := by
  set T := x.currentTerm + 1 with hT
  have hlater : x.currentTerm < T := Int.lt_succ _
  have hlater' : a.term n < T := by
    rw [h.term]
    exact hlater
  have hfree : a.ballot n T = none := ballot_later ha hlater'
  have hpos : 0 < T := by
    have := ha.rootLe n
    rw [h.term] at this
    omega
  have hunseated : a.leader T ≠ some n := by
    intro hc
    exact absurd (ha.leaderTerm T n hc) (not_le.mpr hlater')
  have hoff : ∀ c, a.leader T = some c → n ∉ a.electorate T := by
    intro c hc hn
    have hvote := ((ha.elected T c hc).2 n hn).1
    rw [hfree] at hvote
    cases hvote
  have hearlier : ∀ e ∈ x.log, e.term < T := by
    intro e he
    have := ha.logTerm n e (by rw [h.log]; exact he)
    rw [h.term] at this
    exact this.trans_lt hlater
  have hmove := moves_setTerm h hlater
  have hcommits := (h.later ha hlater none).commits
  by_cases hvacant : a.leaderLog T = []
  · have hterm : (a.setTerm n T).term n = T := by simp [State.setTerm]
    have hvote : Moves members n a ((a.setTerm n T).castBallot n n) := by
      refine hmove.tail (.vote n ?_ ?_)
      · rw [hterm]
        exact hvacant
      · rw [hterm]
        exact hfree
    have hgrow := ha.grows hvote
    have hballot : ((a.setTerm n T).castBallot n n).ballot n T = some n := by
      simp [State.castBallot, State.setTerm]
    have hheld : ((a.setTerm n T).castBallot n n).ballotLog n T = x.log := by
      simp [State.castBallot, State.setTerm, h.log]
    refine ⟨_, hvote, hfair.mono hgrow ?_, ?_, ?_, ?_⟩
    · intro v U c hc _
      by_cases hnew : v = n ∧ U = T
      · obtain ⟨rfl, rfl⟩ := hnew
        right
        obtain rfl : v = c := Option.some.inj (hballot.symm.trans hc)
        refine ⟨hballot, ?_⟩
        rw [hheld]
        obtain ⟨y, hy⟩ : ∃ y, x.log.getLast? = some y :=
          ⟨_, List.getLast?_eq_some_getLast (log_ne_nil h)⟩
        exact ⟨y, hy, y, hy, Or.inr ⟨rfl, le_rfl⟩⟩
      · left
        by_cases hv : v = n
        · subst hv
          have hU : U ≠ T := fun hU => hnew ⟨rfl, hU⟩
          simpa [State.castBallot, State.setTerm, hU] using hc
        · simpa [State.castBallot, State.setTerm, hv] using hc
    · constructor
      case id => exact h.id
      case term => exact hterm
      case log => exact h.log
      case vote =>
        intro _
        rw [show x.campaigning.votedFor = some n from congrArg some h.id]
        exact hballot
      case keptVote => exact fun c hc hn => absurd hn (hoff c hc)
      case selfVote => exact fun _ => congrArg some h.id
      case leads =>
        intro hc
        cases hc
      case runs => exact fun _ => ⟨hpos, hunseated, hearlier, fun _ => hheld⟩
      case next =>
        intro hc
        cases hc
      case commits => exact hcommits.mono ((ha.steps hmove).grows_step (.vote n
          (by rw [hterm]; exact hvacant) (by rw [hterm]; exact hfree)))
    · exact ⟨fun c hc hn => absurd hn (hoff c hc), fun _ => hballot⟩
    · intro lastLogTerm hlast _
      refine ⟨hballot, ?_⟩
      rw [lastLogTerm_eq] at hlast
      obtain ⟨y, hy, rfl⟩ := Option.map_eq_some_iff.mp hlast
      exact ⟨y, by rw [hheld]; exact hy, rfl, by rw [hheld]; rfl⟩
  · refine ⟨_, hmove, fair_setTerm hfair T, ?_, ?_, ?_⟩
    · constructor
      case id => exact h.id
      case term => simp [State.setTerm, campaigning, hT]
      case log => exact h.log
      case vote => exact fun hT => absurd hT hvacant
      case keptVote => exact fun c hc hn => absurd hn (hoff c hc)
      case selfVote => exact fun _ => congrArg some h.id
      case leads =>
        intro hc
        cases hc
      case runs => exact fun _ => ⟨hpos, hunseated, hearlier, fun hT => absurd hT hvacant⟩
      case next =>
        intro hc
        cases hc
      case commits => exact hcommits
    · exact ⟨fun c hc hn => absurd hn (hoff c hc), fun hT => absurd hT hvacant⟩
    · exact fun _ _ hT => absurd hT hvacant

/-- `if term > self.current_term: self.step_down(term)` in the history. -/
theorem NodeRep.catchUp (ha : Sane members a) (hfair : BallotsFair a) (h : NodeRep members a n x)
    (T : ℤ) : ∃ b, Moves members n a b ∧ BallotsFair b ∧ NodeRep members b n (x.catchUp T) := by
  by_cases hT : x.currentTerm < T
  · rw [catchUp_of_lt hT]
    exact ⟨_, moves_setTerm h hT, fair_setTerm hfair T, h.later ha hT none⟩
  · rw [catchUp_of_le (not_lt.mp hT)]
    exact ⟨a, Relation.ReflTransGen.refl, hfair, h⟩

/-- A vote: in a vacant term the first one is a ballot, a repeated one is already there, and in a
led term none is recorded. -/
theorem NodeRep.grant (ha : Sane members a) (hfair : BallotsFair a) (h : NodeRep members a n x)
    {args : RequestVoteArgs} (hterm : x.currentTerm = args.term) (hasks : Asks a args)
    (hfree : x.votedFor = none ∨ x.votedFor = some args.candidateId) {lastLogTerm : ℤ}
    (hlast : x.lastLogTerm = some lastLogTerm) (hok : x.logOk lastLogTerm args) :
    ∃ b, Moves members n a b ∧ BallotsFair b ∧
      NodeRep members b n { x with votedFor := some args.candidateId } ∧
      Backs b n args.term args.candidateId := by
  rw [← hterm]
  rcases hfree with hnone | hsome
  · have hfollower : x.role = .follower := by
      by_contra hrole
      have := h.selfVote hrole
      rw [hnone] at this
      cases this
    have hoff : ∀ c, a.leader x.currentTerm = some c → n ∉ a.electorate x.currentTerm := by
      intro c hc hn
      have := h.keptVote c hc hn
      rw [hnone] at this
      cases this
    by_cases hvacant : a.leaderLog x.currentTerm = []
    · have hempty : a.ballot n x.currentTerm = none := by
        rw [h.vote hvacant]
        exact hnone
      have hstep : ReplicatedLog.Step (majority members) termOf n a
          (a.castBallot n args.candidateId) := by
        refine .vote _ ?_ ?_
        · rw [h.term]
          exact hvacant
        · rw [h.term]
          exact hempty
      have hgrow := ha.grows_step hstep
      have hballot : (a.castBallot n args.candidateId).ballot n x.currentTerm =
          some args.candidateId := by
        simp [State.castBallot, h.term]
      have hheld : (a.castBallot n args.candidateId).ballotLog n x.currentTerm = x.log := by
        simp [State.castBallot, h.term, h.log]
      refine ⟨_, Relation.ReflTransGen.single hstep, hfair.mono hgrow ?_, ?_, ?_⟩
      · intro v U c hc _
        by_cases hnew : v = n ∧ U = x.currentTerm
        · obtain ⟨rfl, rfl⟩ := hnew
          right
          obtain rfl : args.candidateId = c := Option.some.inj (hballot.symm.trans hc)
          rw [hterm] at hvacant hheld
          obtain ⟨hself, y, hy, hyterm, hylen⟩ := hasks hvacant
          rw [hterm, hheld, hgrow.ballotLog _ _ _ hself]
          refine ⟨hgrow.ballot _ _ _ hself, ?_⟩
          rw [lastLogTerm_eq] at hlast
          obtain ⟨z, hz, rfl⟩ := Option.map_eq_some_iff.mp hlast
          refine ⟨y, hy, z, hz, ?_⟩
          unfold logOk lastLogIndex at hok
          rw [hyterm, hylen] at hok
          rcases hok with hlt | ⟨heq, hle⟩
          · exact Or.inl hlt
          · exact Or.inr ⟨heq.symm, by omega⟩
        · left
          by_cases hv : v = n
          · subst hv
            have hU : U ≠ x.currentTerm := fun hU => hnew ⟨rfl, hU⟩
            simpa [State.castBallot, h.term, hU] using hc
          · simpa [State.castBallot, hv] using hc
      · constructor
        case id => exact h.id
        case term => exact h.term
        case log => exact h.log
        case vote => exact fun _ => hballot
        case keptVote => exact fun c hc hn => absurd hn (hoff c hc)
        case selfVote => exact fun hrole => absurd hfollower hrole
        case leads => exact h.leads
        case runs =>
          intro hc
          rw [hfollower] at hc
          cases hc
        case next => exact h.next
        case commits => exact h.commits.mono hgrow
      · exact ⟨fun c hc hn => absurd hn (hoff c hc), fun _ => hballot⟩
    · refine ⟨a, Relation.ReflTransGen.refl, hfair, ?_, ?_⟩
      · exact ⟨h.id, h.term, h.log, fun hT => absurd hT hvacant,
          fun c hc hn => absurd hn (hoff c hc), fun hrole => absurd hfollower hrole, h.leads,
          h.runs, h.next, h.commits⟩
      · exact ⟨fun c hc hn => absurd hn (hoff c hc), fun hT => absurd hT hvacant⟩
  · have hsame : { x with votedFor := some args.candidateId } = x := by rw [← hsome]
    rw [hsame]
    refine ⟨a, Relation.ReflTransGen.refl, hfair, h, fun c hc hn => ?_, fun hT => ?_⟩
    · exact Option.some.inj ((h.keptVote c hc hn).symm.trans hsome)
    · rw [h.vote hT, hsome]

theorem NodeRep.requestVote (ha : Sane members a) (hfair : BallotsFair a)
    (h : NodeRep members a n x) {args : RequestVoteArgs} (hasks : Asks a args) (blocked : Bool)
    (v : View) :
    ∃ b, Moves members n a b ∧ BallotsFair b ∧
      NodeRep members b n (x.handleRequestVote blocked v args).1 ∧
      ∀ reply, (x.handleRequestVote blocked v args).2 = .ok reply → reply.voteGranted = true →
        Backs b n args.term args.candidateId := by
  have hstay : ∀ r : Except PyError RequestVoteReply,
      (∀ reply, r = .ok reply → reply.voteGranted = false) →
      ∃ b, Moves members n a b ∧ BallotsFair b ∧ NodeRep members b n x ∧
        ∀ reply, r = .ok reply → reply.voteGranted = true →
          Backs b n args.term args.candidateId := by
    intro r hr
    refine ⟨a, Relation.ReflTransGen.refl, hfair, h, fun reply heq hyes => ?_⟩
    rw [hr reply heq] at hyes
    cases hyes
  unfold handleRequestVote
  split_ifs
  · exact hstay _ (by rintro _ ⟨⟩; rfl)
  · obtain ⟨b, hmoves, hfair', hrep⟩ := h.catchUp ha hfair args.term
    have hb : Sane members b := ha.steps hmoves
    rcases x.considerVote_cases args with
      ⟨_, _, heq⟩ | ⟨_, _, heq⟩ | ⟨_, _, heq⟩ | ⟨hle, hfree, ⟨last, hlast, hok⟩, heq⟩
    · rw [heq]
      exact hstay _ (by rintro _ ⟨⟩; rfl)
    · rw [heq]
      exact ⟨b, hmoves, hfair', hrep, by rintro _ ⟨⟩⟩
    · rw [heq]
      exact ⟨b, hmoves, hfair', hrep, by rintro _ ⟨⟩ ⟨⟩⟩
    · rw [heq]
      have hterm : (x.catchUp args.term).currentTerm = args.term := by
        rw [catchUp_currentTerm, max_eq_right hle]
      have hlast' : (x.catchUp args.term).lastLogTerm = some last := by
        rw [← hlast]
        unfold lastLogTerm
        rw [catchUp_log]
      have hok' : (x.catchUp args.term).logOk last args := by
        unfold logOk lastLogIndex at hok ⊢
        rw [catchUp_log]
        exact hok
      obtain ⟨b', hmoves', hfair'', hrep', hbacks⟩ :=
        hrep.grant hb hfair' hterm (hasks.mono (ha.grows hmoves)) hfree hlast' hok'
      exact ⟨b', hmoves.trans hmoves', hfair'', hrep', fun _ _ _ => hbacks⟩
  · exact hstay _ (by rintro _ ⟨⟩; rfl)

end Votes

section Calls

variable {members : List NodeId} {a b : History} {n : NodeId} {x y : CommitteeRaftNode}

/-- A running election does not mind what else happens to its node, unless it takes a seat. -/
theorem ElectionRep.of_role {e : Election} (h : ElectionRep members a n x e)
    (hrole : (y.role = x.role ∧ y.currentTerm = x.currentTerm) ∨ y.role = .follower) :
    ElectionRep members a n y e := by
  refine { h with undecided := ?_, current := ?_ }
  · rcases hrole with ⟨hr, _⟩ | hr
    · rw [hr]
      exact h.undecided
    · rw [hr]
      rintro ⟨⟩
  · intro hc
    rcases hrole with ⟨hr, ht⟩ | hr
    · rw [ht]
      exact h.current (hr ▸ hc)
    · rw [hr] at hc
      cases hc

/-- No proposal waits on a node that does not lead. -/
theorem SiteRep.proposal_none {s : Site} (h : SiteRep members a n s)
    (hrole : s.node.role ≠ .leader) : s.proposal = none := by
  cases hp : s.proposal with
  | none => rfl
  | some p => exact absurd (h.proposal p hp).loop.leads hrole

/-- A handler that simulates, with the calls that wait on the node. -/
theorem SiteRep.handler {s : Site} (ha : Sane members a) (h : SiteRep members a n s)
    (hmoves : Moves members n a b) (hnode : NodeRep members b n y)
    (hrole : (y.role = s.node.role ∧ y.currentTerm = s.node.currentTerm) ∨ y.role = .follower)
    (hsame : s.proposal = none ∨ ∃ vote, y = { s.node with votedFor := vote }) :
    SiteRep members b n { s with node := y } := by
  have hgrow := ha.grows hmoves
  refine ⟨hnode, fun e he => ?_, fun p hp => ?_⟩
  · exact ((h.election e he).mono (ha.steps hmoves) hgrow).of_role hrole
  · rcases hsame with hnone | ⟨vote, rfl⟩
    · exact absurd hp (by simp [hnone])
    · have hrep := (h.proposal p hp).mono hgrow
      have hloop := hrep.loop
      exact ⟨⟨hloop.leads, hloop.last, hloop.entryTerm, hloop.quorum, hloop.distinct, hloop.asked,
        hloop.own, hloop.acked, hloop.next⟩, hrep.request⟩

/-- The next round of the vote loop. -/
theorem simulated_nextVote {s s' : Site} {o : Output} {args : RequestVoteArgs} {quorum : ℕ}
    {voters rest : List NodeId} (hfair : BallotsFair a)
    (hnode : NodeRep members a n x) (hrole : x.role ≠ .leader) (hproposal : s.proposal = none)
    (hcurrent : x.role = .candidate → args.term = x.currentTerm) (hown : args.candidateId = n)
    (hquorum : quorum = members.length / 2 + 1) (hdistinct : (voters ++ rest).Nodup)
    (hasked : voters ++ rest ⊆ members) (hbacked : ∀ v ∈ voters, Backs a v args.term n)
    (hrequest : Asks a args)
    (run : s.afterElection (x, x.nextVote args quorum voters rest) = (s', o)) :
    Simulated members a n s' o := by
  have hnone : ∀ p, s.proposal = some p → ProposalRep members a n x p := by
    intro p hp
    rw [hproposal] at hp
    cases hp
  cases rest with
  | nil =>
    cases run
    exact ⟨a, Relation.ReflTransGen.refl, hfair, ⟨hnode, by rintro _ ⟨⟩, hnone⟩, trivial⟩
  | cons p rest =>
    cases run
    refine ⟨a, Relation.ReflTransGen.refl, hfair, ⟨hnode, ?_, hnone⟩, hrequest⟩
    rintro _ ⟨⟩
    exact ⟨hrole, hcurrent, hown, hquorum, hdistinct, hasked, hbacked, hrequest⟩

theorem simulated_win {s s' : Site} {o : Output} {voters : List NodeId} (ha : Sane members a)
    (hfair : BallotsFair a) (hnode : NodeRep members a n x) (hrole : x.role = .candidate)
    (hproposal : s.proposal = none) (hdistinct : voters.Nodup) (hasked : voters ⊆ members)
    (henough : members.length / 2 + 1 ≤ voters.length)
    (hbacked : ∀ v ∈ voters, Backs a v x.currentTerm n)
    (run : s.afterElection (x.becomeLeader (.full members), .finished ⟨true, voters⟩) =
      (s', o)) : Simulated members a n s' o := by
  obtain ⟨b, hmoves, hfair', hrep⟩ :=
    hnode.win ha hfair hrole hdistinct hasked henough hbacked
  cases run
  refine ⟨b, hmoves, hfair', ⟨hrep, by rintro _ ⟨⟩, fun p hp => ?_⟩, trivial⟩
  rw [hproposal] at hp
  cases hp

theorem Simulated.after (hmoves : Moves members n a b) {s : Site} {o : Output}
    (h : Simulated members b n s o) : Simulated members a n s o := by
  obtain ⟨c, hmoves', hrest⟩ := h
  exact ⟨c, hmoves.trans hmoves', hrest⟩

theorem simulated_startElection {s s' : Site} {o : Output} (hnodup : members.Nodup)
    (hn : n ∈ members) (ha : Sane members a) (hfair : BallotsFair a)
    (h : SiteRep members a n s) (hproposal : s.proposal = none)
    (run : s.afterElection (s.node.startElection (.full members) (.full members)) = (s', o)) :
    Simulated members a n s' o := by
  obtain ⟨b, hmoves, hfair', hrep, hself, hasks⟩ := h.node.campaign ha hfair
  have hb : Sane members b := ha.steps hmoves
  have hid := h.node.id
  have hsize : s.node.getQuorumSize (.full members) = members.length / 2 + 1 :=
    getQuorumSize_full hnodup (hid.symm ▸ hn)
  have hmember : [n] ⊆ members := by simpa using hn
  refine Simulated.after hmoves ?_
  rcases s.node.startElection_cases (.full members) (.full members) with
    ⟨hone, heq⟩ | ⟨_, hempty, _⟩ | ⟨_, last, hlast, heq⟩
  · rw [heq, hid] at run
    refine simulated_win hb hfair' hrep rfl hproposal (List.nodup_singleton n) hmember ?_ ?_ run
    · rw [← hsize]
      exact hone
    · intro v hv
      rw [List.mem_singleton.mp hv]
      exact hself
  · rw [lastLogTerm_eq, Option.map_eq_none_iff, List.getLast?_eq_none_iff] at hempty
    exact absurd hempty (log_ne_nil h.node)
  · rw [heq, hid] at run
    refine simulated_nextVote hfair' hrep (by rintro ⟨⟩) hproposal (fun _ => rfl) rfl hsize
      ?_ ?_ ?_ (hasks last hlast) run
    · have := verifiedPeers_nodup hnodup (n := s.node) (v := .full members) rfl
      rwa [hid] at this
    · intro p hp
      rcases List.mem_cons.mp hp with rfl | hp
      · exact hn
      · exact (mem_verifiedPeers_full.mp hp).1
    · intro v hv
      rw [List.mem_singleton.mp hv]
      exact hself

theorem simulated_voteReturned {s s' : Site} {o : Output} {e : Election}
    {reply : Option RequestVoteReply} (ha : Sane members a) (hfair : BallotsFair a)
    (h : SiteRep members a n s) (he : s.election = some e)
    (hreply : ∀ r, reply = some r → r.voteGranted = true → Backs a e.awaiting e.args.term n)
    (run : s.afterElection (s.node.voteReturned e (.full members) reply) = (s', o)) :
    Simulated members a n s' o := by
  have hrep := h.election e he
  have hproposal := h.proposal_none hrep.undecided
  have hassoc : ∀ l : List NodeId, e.voters ++ e.awaiting :: l = e.voters ++ [e.awaiting] ++ l :=
    fun l => by simp
  have hcounted : ∀ r, reply = some r → r.voteGranted = true →
      ∀ v ∈ e.voters ++ [e.awaiting], Backs a v e.args.term n := by
    intro r hr hyes v hv
    rcases List.mem_append.mp hv with hv | hv
    · exact hrep.backed v hv
    · rw [List.mem_singleton.mp hv]
      exact hreply r hr hyes
  rcases s.node.voteReturned_cases e (.full members) reply with
    ⟨r, _, hlater, heq⟩ | ⟨r, hr, _, hyes, hquorum, hrole, heq⟩ | ⟨voters, hvoters, heq⟩
  · rw [heq] at run
    cases run
    refine ⟨_, moves_setTerm h.node hlater, fair_setTerm hfair _,
      ⟨h.node.later ha hlater none, by rintro _ ⟨⟩, fun p hp => ?_⟩, trivial⟩
    rw [hproposal] at hp
    cases hp
  · rw [heq] at run
    have hdistinct := hrep.distinct
    have hasked := hrep.asked
    rw [hassoc] at hdistinct hasked
    refine simulated_win ha hfair h.node hrole hproposal (List.Nodup.of_append_left hdistinct)
      (fun v hv => hasked (List.mem_append_left _ hv)) ?_ ?_ run
    · rw [← hrep.quorum]
      simpa using hquorum
    · rw [← hrep.current hrole]
      exact hcounted r hr hyes
  · rw [heq] at run
    rcases hvoters with rfl | ⟨rfl, r, hr, _, hyes⟩
    · have hskip : List.Sublist (e.voters ++ e.remaining) (e.voters ++ e.awaiting :: e.remaining) :=
        (List.Sublist.refl _).append (List.sublist_cons_self _ _)
      exact simulated_nextVote hfair h.node hrep.undecided hproposal hrep.current hrep.own
        hrep.quorum (hrep.distinct.sublist hskip) (fun v hv => hrep.asked (hskip.subset hv))
        hrep.backed hrep.request run
    · have hdistinct := hrep.distinct
      have hasked := hrep.asked
      rw [hassoc] at hdistinct hasked
      exact simulated_nextVote hfair h.node hrep.undecided hproposal hrep.current hrep.own
        hrep.quorum hdistinct hasked (hcounted r hr hyes) hrep.request run

theorem simulated_requestVote {s s' : Site} {o : Output} {args : RequestVoteArgs}
    {blocked : Bool} {v : View} (ha : Sane members a) (hfair : BallotsFair a)
    (h : SiteRep members a n s) (hasks : Asks a args)
    (hsteady : Steady s (.requestVote blocked v args))
    (run : s.afterVote args (s.node.handleRequestVote blocked v args) = (s', o)) :
    Simulated members a n s' o := by
  obtain ⟨b, hmoves, hfair', hrep, hback⟩ := h.node.requestVote ha hfair hasks blocked v
  obtain ⟨rfl, ho⟩ := Site.afterVote_cases run
  refine ⟨b, hmoves, hfair', h.handler ha hmoves hrep
    (s.node.handleRequestVote_role blocked v args) (hsteady.imp_right handleRequestVote_same), ?_⟩
  rcases ho with ⟨reply, hreply, rfl⟩ | ⟨_, rfl⟩
  · exact hback reply hreply
  · trivial

end Calls

end AgentSystem.Raft
