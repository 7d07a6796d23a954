import AgentSystem.RaftCommittedPrefix
import AgentSystem.RaftRefinementVotes

/-!
# Replication in the abstract protocol

How a node moves in the abstract protocol when it takes over its leader's entries, commits and
applies them, and when it proposes an entry of its own.
-/
namespace AgentSystem.Raft

open ReplicatedLog CommitteeRaftNode

section Splice

variable {a : History} {log led entries : List CommitteeLogEntry} {j : ℕ}

/-- Up to the matched entries a follower's log is its leader's. -/
theorem take_matched (hlog : Sound termOf a log) (hled : Sound termOf a led)
    (hj : log.take j = led.take j) (hentries : entries <+: led.drop j) :
    log.take (j + matched (log.drop j) entries) = led.take (j + matched (log.drop j) entries) := by
  rcases Nat.eq_zero_or_pos (matched (log.drop j) entries) with h₀ | hpos
  · rw [h₀]
    exact hj
  · obtain ⟨x, y, hx, hy, hterm⟩ :=
      matched_term (log.drop j) entries (Nat.sub_lt hpos Nat.one_pos)
    have hy' := PySequence.getElem?_of_isPrefix hentries hy
    rw [List.getElem?_drop] at hx hy'
    have htake := hlog.take_eq hled hx hy' hterm
    rwa [show j + (matched (log.drop j) entries - 1) + 1 =
      j + matched (log.drop j) entries by omega] at htake

/-- What the insertion loop makes of a follower's log: the log as it was or the leader's up to
the end of the message, keeping all it shared with the leader. -/
theorem spliced_spec (hlog : Sound termOf a log) (hled : Sound termOf a led)
    (hj : log.take j = led.take j) (hentries : entries <+: led.drop j) :
    (spliced log j entries = log ∨ spliced log j entries = led.take (j + entries.length)) ∧
      (∀ ρ, ρ <+: log → ρ <+: led → ρ <+: spliced log j entries) ∧
      led.take (j + entries.length) <+: spliced log j entries := by
  have hmatch := take_matched hlog hled hj hentries
  obtain ⟨hold, hnew⟩ := matched_le (log.drop j) entries
  rw [List.length_drop] at hold
  have hfit := hentries.length_le
  rw [List.length_drop] at hfit
  unfold spliced
  split_ifs with hall
  · have heq : matched (log.drop j) entries = entries.length := le_antisymm hnew hall
    rw [heq] at hmatch
    refine ⟨Or.inl rfl, fun ρ hρ _ => hρ, ?_⟩
    rw [← hmatch]
    exact List.take_prefix _ _
  · set w := matched (log.drop j) entries with hw
    have hresult : log.take (j + w) ++ entries.drop w = led.take (j + entries.length) := by
      have htail : entries = (led.drop j).take entries.length :=
        List.prefix_iff_eq_take.mp hentries
      have hdrop : entries.drop w = (led.drop (j + w)).take (entries.length - w) := by
        rw [htail, List.drop_take, List.drop_drop, List.length_take, List.length_drop]
        congr 1
        omega
      rw [hmatch, hdrop, ← List.take_add]
      congr 1
      omega
    rw [hresult]
    refine ⟨Or.inr rfl, fun ρ hρ hρ' => ?_, List.prefix_rfl⟩
    rw [List.prefix_take_iff]
    refine ⟨hρ', ?_⟩
    -- a longer common beginning would hold the first entry that did not match
    by_contra hlong
    have hin : j + w < ρ.length := by omega
    have hget : ρ[j + w]? = some ρ[j + w] := List.getElem?_eq_getElem hin
    have hmine : (log.drop j)[w]? = some ρ[j + w] := by
      rw [List.getElem?_drop]
      exact PySequence.getElem?_of_isPrefix hρ hget
    have htheirs : entries[w]? = some ρ[j + w] := by
      have hleader := PySequence.getElem?_of_isPrefix hρ' hget
      rw [← List.getElem?_drop] at hleader
      have hwlt : w < entries.length := by omega
      have hentry := PySequence.getElem?_of_isPrefix hentries (List.getElem?_eq_getElem hwlt)
      rw [hleader] at hentry
      rw [List.getElem?_eq_getElem hwlt]
      exact hentry.symm
    exact matched_stop (log.drop j) entries hmine htheirs rfl

end Splice

section Append

variable {members : List NodeId} {a b : History} {n : NodeId} {x : CommitteeRaftNode}

/-- Moving the commit index to a committed position and applying up to it. -/
theorem NodeRep.commit (h : NodeRep members a n x) {c : ℤ} (hle : x.lastApplied ≤ c)
    (hlt : c < x.log.length)
    (hcommitted : Committed (majority members) termOf a x.currentTerm
      (x.log.take (c + 1).toNat)) :
    NodeRep members a n (applyCommittedEntries { x with commitIndex := c }).1 := by
  have hrounds := applyRounds_lastApplied (c - x.lastApplied).toNat { x with commitIndex := c }
  have hjournal := applyRounds_applied (c - x.lastApplied).toNat { x with commitIndex := c }
  obtain ⟨l, m, j, heq⟩ := applyCommittedEntries_frame { x with commitIndex := c }
  have hrun : applyRounds (c - x.lastApplied).toNat { x with commitIndex := c } =
      applyCommittedEntries { x with commitIndex := c } := rfl
  rw [hrun, heq] at hrounds hjournal
  rw [heq]
  have h₀ := h.commits.nonneg
  dsimp only at hrounds hjournal
  refine ⟨h.id, h.term, h.log, h.vote, h.keptVote, h.selfVote, h.leads, h.runs, h.next, ?_⟩
  refine ⟨by dsimp only; omega, by dsimp only; omega, hlt, hcommitted, fun p hp => ?_⟩
  rcases hjournal p hp with hold | ⟨hlo, hhi, hget⟩
  · exact h.commits.journal p hold
  · have hpos : 0 ≤ p.1 := by omega
    refine ⟨hpos, _, _, hcommitted, ?_⟩
    rw [List.getElem?_take_of_lt (by omega)]
    rwa [← Int.toNat_of_nonneg hpos, PySequence.get_natCast] at hget

/-- Accepting the sender as the leader of the term. -/
theorem NodeRep.follow (ha : Sane members a) (hfair : BallotsFair a) (h : NodeRep members a n x)
    {args : AppendEntriesArgs} (hins : Instructs members a n args)
    (hle : x.currentTerm ≤ args.term) :
    ∃ b, Moves members n a b ∧ BallotsFair b ∧
      NodeRep members b n { x.recognizeLeader args with leaderId := args.leaderId } ∧
      (x.recognizeLeader args).currentTerm = args.term ∧
      (x.recognizeLeader args).role = .follower := by
  unfold recognizeLeader
  split_ifs with hlater hsame
  · exact ⟨_, moves_setTerm h hlater, fair_setTerm hfair _,
      (h.later ha hlater args.leaderId).setLeaderId _, rfl, rfl⟩
  · obtain ⟨hterm, hrole⟩ := hsame
    have hled : a.leaderLog x.currentTerm ≠ [] :=
      hterm ▸ ha.leaderLed _ _ hins.leader
    have hoff : ∀ c, a.leader x.currentTerm = some c → n ∉ a.electorate x.currentTerm := by
      -- the node voted for itself, and it is not the leader
      intro c hc hn
      have hself := (h.selfVote hrole).symm.trans (h.keptVote c hc hn)
      rw [← hterm, hins.leader] at hc
      exact hins.other ((Option.some.inj hself).trans (Option.some.inj hc).symm)
    refine ⟨a, Relation.ReflTransGen.refl, hfair, ?_, rfl, rfl⟩
    constructor
    case id => exact h.id
    case term => exact h.term.trans hterm.symm
    case log => exact h.log
    case vote =>
      intro hT
      exact absurd (show a.leaderLog args.term = [] from hT) (hterm ▸ hled)
    case keptVote =>
      intro c hc hn
      exact absurd (show n ∈ a.electorate x.currentTerm from hterm ▸ hn)
        (hoff c (show a.leader x.currentTerm = some c from hterm ▸ hc))
    case selfVote => exact fun hc => absurd rfl hc
    case leads =>
      intro hc
      cases hc
    case runs =>
      intro hc
      cases hc
    case next =>
      intro hc
      cases hc
    case commits =>
      have hcommits := h.commits
      rw [← hterm] at hcommits
      exact hcommits
  · have hterm : x.currentTerm = args.term := le_antisymm hle (not_lt.mp hlater)
    refine ⟨a, Relation.ReflTransGen.refl, hfair, h.setLeaderId _, hterm, ?_⟩
    by_contra hrole
    exact hsame ⟨hterm.symm, hrole⟩

/-- A follower replaces its log by one that keeps what it shares with its leader. -/
theorem NodeRep.adopt (ha : Sane members a) (hfair : BallotsFair a) (h : NodeRep members a n x)
    (hrole : x.role = .follower) (hled : a.leaderLog x.currentTerm ≠ [])
    {l : List CommitteeLogEntry}
    (hsource : l <+: x.log ∨ l <+: a.leaderLog x.currentTerm)
    (hkeeps : ∀ ρ, ρ <+: x.log → ρ <+: a.leaderLog x.currentTerm → ρ <+: l) :
    Moves members n a (a.setLog n l) ∧ BallotsFair (a.setLog n l) ∧
      NodeRep members (a.setLog n l) n { x with log := l } := by
  have hmove : Moves members n a (a.setLog n l) := by
    refine Relation.ReflTransGen.single (.adopt l ?_ ?_ ?_)
    · rw [h.term]
      exact hled
    · rw [h.term, h.log]
      exact hsource
    · rw [h.term, h.log]
      exact hkeeps
  have hgrow := ha.grows hmove
  have h₀ := h.commits.nonneg
  have h₁ := h.commits.appliedLe
  have h₂ := h.commits.commitLt
  -- what is committed is part of the leader's log, so it is kept
  have hkept : x.log.take (x.commitIndex + 1).toNat <+: l :=
    hkeeps _ (List.take_prefix _ _) (ha.committed_isPrefix h.commits.committed le_rfl hled)
  have hlen := hkept.length_le
  rw [List.length_take] at hlen
  have htake : l.take (x.commitIndex + 1).toNat = x.log.take (x.commitIndex + 1).toNat := by
    have heq := List.prefix_iff_eq_take.mp hkept
    rw [List.length_take_of_le (by omega)] at heq
    exact heq.symm
  refine ⟨hmove, hfair.of_ballot_eq hgrow rfl, ?_⟩
  constructor
  case id => exact h.id
  case term => exact h.term
  case log => simp [State.setLog]
  case vote => exact h.vote
  case keptVote => exact h.keptVote
  case selfVote => exact h.selfVote
  case leads => exact h.leads
  case runs =>
    intro hc
    rw [hrole] at hc
    cases hc
  case next =>
    intro hc
    rw [hrole] at hc
    cases hc
  case commits =>
    refine ⟨h₀, h₁, by dsimp only; omega, ?_, (h.commits.mono hgrow).journal⟩
    dsimp only
    rw [htake]
    exact (h.commits.mono hgrow).committed

/-- Recording how much of the leader's log a node holds. -/
theorem NodeRep.confirm (ha : Sane members a) (hfair : BallotsFair a) (h : NodeRep members a n x)
    (hled : a.leaderLog x.currentTerm ≠ []) {k : ℕ}
    (hbound : k ≤ (a.leaderLog x.currentTerm).length)
    (hheld : (a.leaderLog x.currentTerm).take k <+: x.log) :
    ∃ b, Moves members n a b ∧ BallotsFair b ∧ NodeRep members b n x ∧
      k ≤ b.acked n x.currentTerm := by
  have hmove : Moves members n a (a.confirm n k) := by
    refine Relation.ReflTransGen.single (.ack k ?_ ?_ ?_)
    · rw [h.term]
      exact hled
    · rw [h.term]
      exact hbound
    · rw [h.term, h.log]
      exact hheld
  have hgrow := ha.grows hmove
  refine ⟨_, hmove, hfair.of_ballot_eq hgrow rfl, ?_, ?_⟩
  · exact ⟨h.id, h.term, h.log, h.vote, h.keptVote, h.selfVote, h.leads,
      fun hrole => ⟨(h.runs hrole).positive, (h.runs hrole).unseated, (h.runs hrole).earlier,
        (h.runs hrole).own⟩, h.next, h.commits.mono hgrow⟩
  · rw [confirm_acked, if_pos ⟨rfl, h.term.symm⟩]
    exact le_max_right _ _

/-- A log that holds an entry of the node's own term lies in the log of that term's leader. -/
theorem log_prefix_led (ha : Sane members a) (h : NodeRep members a n x) {e : CommitteeLogEntry}
    (he : e ∈ x.log) (hterm : e.term = x.currentTerm) : x.log <+: a.leaderLog x.currentTerm := by
  obtain ⟨y, hy⟩ : ∃ y, x.log.getLast? = some y :=
    ⟨_, List.getLast?_eq_some_getLast (log_ne_nil h)⟩
  obtain ⟨π, hπ⟩ := List.getLast?_eq_some_iff.mp hy
  have hsound := ha.logSound n
  rw [h.log, hπ] at hsound
  have hpre := hsound π y List.prefix_rfl
  have hle : x.currentTerm ≤ y.term := by
    rw [← hterm]
    refine ha.termOf_le (hpre.subset ?_)
    rw [← hπ]
    exact he
  have hge : y.term ≤ x.currentTerm := by
    rw [← h.term]
    refine ha.logTerm n y ?_
    rw [h.log, hπ]
    simp
  rw [hπ]
  rw [show termOf y = x.currentTerm from le_antisymm hge hle] at hpre
  exact hpre

theorem NodeRep.advance (h : NodeRep members a n x) {m : ℕ} (hm : m < x.log.length)
    (hcommitted : Committed (majority members) termOf a x.currentTerm (x.log.take (m + 1))) :
    NodeRep members a n (x.advanceCommit m).1 := by
  unfold advanceCommit
  split_ifs with hlt
  · have hmin : min (m : ℤ) x.lastLogIndex = m := by
      refine min_eq_left ?_
      unfold lastLogIndex
      omega
    rw [hmin]
    refine h.commit (h.commits.appliedLe.trans hlt.le) (by exact_mod_cast hm) ?_
    rw [show ((m : ℤ) + 1).toNat = m + 1 by omega]
    exact hcommitted
  · exact h

/-- The log check and the insertion loop for a message of the node's leader. -/
theorem NodeRep.matchAndAppend (ha : Sane members a) (hfair : BallotsFair a)
    (h : NodeRep members a n x) (hrole : x.role = .follower) {args : AppendEntriesArgs}
    (hterm : x.currentTerm = args.term) (hins : Instructs members a n args) :
    ∃ b, Moves members n a b ∧ BallotsFair b ∧ NodeRep members b n (x.matchAndAppend args).1 ∧
      ∀ reply, (x.matchAndAppend args).2 = .ok reply → reply.success = true →
        Confirms b n args reply := by
  obtain ⟨k, hk, ⟨y, hy, hyterm⟩, hentries, ⟨e, he, heterm⟩, m, hm, hmlt, hcommitted⟩ :=
    hins.stretch
  have hled : a.leaderLog x.currentTerm ≠ [] := hterm ▸ ha.leaderLed _ _ hins.leader
  have hsound := ha.logSound n
  have hledSound := ha.leaderLogSound x.currentTerm
  rw [h.log] at hsound
  rw [← hterm] at hy hentries hcommitted
  have hfit := hentries.length_le
  have hklt := (List.getElem?_eq_some_iff.mp hy).1
  rw [List.length_drop] at hfit
  rcases x.matchAndAppend_cases args with ⟨_, hnode, hfail⟩ | ⟨k', prev, hpos, hprev, hends⟩
  · rw [hnode]
    refine ⟨a, Relation.ReflTransGen.refl, hfair, h, fun reply hreply hyes => ?_⟩
    rw [hfail reply hreply] at hyes
    cases hyes
  rw [hk, PySequence.position_natCast] at hpos
  split_ifs at hpos with hkle
  obtain rfl : k = k' := Option.some.inj hpos
  rcases hends with ⟨hmismatch, hnode, hfail⟩ | ⟨hmatch, hends⟩
  · obtain ⟨hmoves, hfair', hrep⟩ := h.adopt ha hfair hrole hled (l := x.log.take k)
      (Or.inl (List.take_prefix _ _)) (fun ρ hρ hρ' => by
        rw [List.prefix_take_iff]
        refine ⟨hρ, ?_⟩
        -- a longer common beginning would give both the same previous entry
        by_contra hlong
        have hget : ρ[k]? = some ρ[k] := List.getElem?_eq_getElem (by omega)
        have hmine := PySequence.getElem?_of_isPrefix hρ hget
        have htheirs := PySequence.getElem?_of_isPrefix hρ' hget
        rw [hprev] at hmine
        rw [hy] at htheirs
        refine hmismatch ?_
        rw [Option.some.inj hmine, ← hyterm, Option.some.inj htheirs])
    rw [hnode]
    refine ⟨_, hmoves, hfair', hrep, fun reply hreply hyes => ?_⟩
    rw [hfail reply hreply] at hyes
    cases hyes
  · have htake : x.log.take (k + 1) = (a.leaderLog x.currentTerm).take (k + 1) :=
      hsound.take_eq hledSound hprev hy (hmatch.trans hyterm.symm)
    obtain ⟨hsource, hkeeps, hheld⟩ := spliced_spec hsound hledSound htake hentries
    obtain ⟨hnode, hreplies⟩ := hends (spliced x.log (k + 1) args.entries) (by
      rw [hk, ← insertEntries_eq_spliced x.log (k + 1) hkle]
      push_cast
      rfl)
    set l := spliced x.log (k + 1) args.entries with hl
    have hfrom : l <+: x.log ∨ l <+: a.leaderLog x.currentTerm := by
      rcases hsource with heq | heq
      · exact Or.inl (heq ▸ List.prefix_rfl)
      · exact Or.inr (heq ▸ List.take_prefix _ _)
    obtain ⟨hmoves, hfair', hrep⟩ := h.adopt ha hfair hrole hled hfrom hkeeps
    have hsane : Sane members (a.setLog n l) := ha.steps hmoves
    -- the end of the message is an entry of the leader's own, so the whole log is the leader's
    have hinside : l <+: a.leaderLog x.currentTerm := by
      have hmem : e ∈ l := by
        refine hheld.subset ?_
        have hwhere : (a.leaderLog x.currentTerm)[k + args.entries.length]? = some e := by
          rw [List.getLast?_eq_getElem?] at he
          have := PySequence.getElem?_of_isPrefix hentries he
          rw [List.getElem?_drop] at this
          have hpos := (List.getElem?_eq_some_iff.mp he).1
          rwa [show k + 1 + (args.entries.length - 1) = k + args.entries.length by omega] at this
        refine List.mem_of_getElem? (i := k + args.entries.length) ?_
        rw [List.getElem?_take_of_lt (by omega)]
        exact hwhere
      exact log_prefix_led hsane hrep hmem (heterm.trans hterm.symm)
    obtain ⟨b, hmoves', hfair'', hrep', hacked⟩ := hrep.confirm hsane hfair' hled
      (k := k + 1 + args.entries.length) (by
        change _ ≤ (a.leaderLog x.currentTerm).length
        omega) hheld
    have hgrow := (ha.grows hmoves).trans (hsane.grows hmoves')
    have hlen := hheld.length_le
    rw [List.length_take_of_le (by omega)] at hlen
    have hcommit : Committed (majority members) termOf b x.currentTerm (l.take (m + 1)) := by
      have hsame : l.take (m + 1) = (a.leaderLog x.currentTerm).take (m + 1) := by
        obtain ⟨rest, hrest⟩ := hinside
        rw [← hrest, List.take_append_of_le_length (by omega)]
      rw [hsame]
      exact hcommitted.mono hgrow le_rfl
    rw [hnode, hm]
    refine ⟨b, hmoves.trans hmoves', hfair'', hrep'.advance (by dsimp only; omega) hcommit, ?_⟩
    intro reply hreply _
    obtain ⟨_, hindex⟩ := hreplies reply hreply
    have hlong := hinside.length_le
    have hgrown := (hgrow.leaderLog x.currentTerm).length_le
    refine ⟨?_, ?_, ?_⟩
    · rw [hk, ← hterm]
      change k + 1 + args.entries.length ≤ b.acked n x.currentTerm at hacked
      omega
    · omega
    · rw [← hterm]
      omega

theorem NodeRep.appendEntries (ha : Sane members a) (hfair : BallotsFair a)
    (h : NodeRep members a n x) {args : AppendEntriesArgs} (hins : Instructs members a n args)
    (blocked : Bool) (v : View) :
    ∃ b, Moves members n a b ∧ BallotsFair b ∧
      NodeRep members b n (x.handleAppendEntries blocked v args).1 ∧
      ∀ reply, (x.handleAppendEntries blocked v args).2 = .ok reply → reply.success = true →
        Confirms b n args reply := by
  have hstay : ∀ r : Except PyError AppendEntriesReply,
      (∀ reply, r = .ok reply → reply.success = false) →
      ∃ b, Moves members n a b ∧ BallotsFair b ∧ NodeRep members b n x ∧
        ∀ reply, r = .ok reply → reply.success = true → Confirms b n args reply := by
    intro r hr
    refine ⟨a, Relation.ReflTransGen.refl, hfair, h, fun reply heq hyes => ?_⟩
    rw [hr reply heq] at hyes
    cases hyes
  unfold handleAppendEntries
  split_ifs
  · exact hstay _ (by rintro _ ⟨⟩; rfl)
  · rcases x.followLeader_cases args with ⟨_, _, heq⟩ | ⟨hle, heq⟩
    · rw [heq]
      exact hstay _ (by rintro _ ⟨⟩; rfl)
    · rw [heq]
      obtain ⟨b, hmoves, hfair', hrep, hterm, hrole⟩ := h.follow ha hfair hins hle
      have hb : Sane members b := ha.steps hmoves
      obtain ⟨b', hmoves', hfair'', hrep', hreply⟩ :=
        hrep.matchAndAppend hb hfair' hrole hterm (hins.mono (ha.grows hmoves))
      exact ⟨b', hmoves.trans hmoves', hfair'', hrep', hreply⟩
  · exact hstay _ (by rintro _ ⟨⟩; rfl)

theorem simulated_appendEntries {s s' : Site} {o : Output} {args : AppendEntriesArgs}
    {blocked : Bool} {v : View} (ha : Sane members a) (hfair : BallotsFair a)
    (h : SiteRep members a n s) (hins : Instructs members a n args)
    (hsteady : Steady s (.appendEntries blocked v args))
    (run : s.afterAppend args (s.node.handleAppendEntries blocked v args) = (s', o)) :
    Simulated members a n s' o := by
  obtain ⟨b, hmoves, hfair', hrep, hconfirm⟩ := h.node.appendEntries ha hfair hins blocked v
  obtain ⟨rfl, ho⟩ := Site.afterAppend_cases run
  refine ⟨b, hmoves, hfair', h.handler ha hmoves hrep
    (s.node.handleAppendEntries_role blocked v args)
    (hsteady.imp_right fun hi => ⟨s.node.votedFor, handleAppendEntries_same hi⟩), ?_⟩
  rcases ho with ⟨reply, hreply, rfl⟩ | ⟨_, rfl⟩
  · exact hconfirm reply hreply
  · trivial

end Append

end AgentSystem.Raft
