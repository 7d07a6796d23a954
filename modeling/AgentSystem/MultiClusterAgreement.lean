import AgentSystem.MultiClusterRounds

/-!
# When the nodes of a multi-cluster agree

The coordinator sets the commit index of every active node once a majority has taken the entry, also
where the node has refused it or holds other entries before it. The nodes agree on what they apply, and
hold it, in every run whose appends meet `Orderly`.
-/
namespace AgentSystem.Raft

namespace CommitteeRaftNode

variable {leader node peer : CommitteeRaftNode}

/-- What the node has applied is what its log holds up to `last_applied`. -/
structure Kept (node : CommitteeRaftNode) : Prop where
  nonneg : 0 ≤ node.lastApplied
  within : node.lastApplied < node.log.length
  held : ∀ item ∈ node.applied, 1 ≤ item.1 ∧ item.1 ≤ node.lastApplied ∧
    node.log[item.1.toNat]? = some item.2
  passed : ∀ i : ℤ, 1 ≤ i → i ≤ node.lastApplied → ∃ entry, (i, entry) ∈ node.applied

lemma Kept.congr {other : CommitteeRaftNode} (h : node.Kept) (hlog : other.log = node.log)
    (hlast : other.lastApplied = node.lastApplied) (happlied : other.applied = node.applied) :
    other.Kept := by
  constructor
  · rw [hlast]
    exact h.nonneg
  · rw [hlast, hlog]
    exact h.within
  · rw [happlied, hlast, hlog]
    exact h.held
  · rw [hlast, happlied]
    exact h.passed

/-- The log may change behind what is applied. -/
lemma Kept.setLog (h : node.Kept) {log : List CommitteeLogEntry}
    (hwithin : node.lastApplied < log.length)
    (hsame : ∀ k : ℕ, k ≤ node.lastApplied → log[k]? = node.log[k]?) :
    { node with log }.Kept := by
  refine ⟨h.nonneg, hwithin, fun item hitem => ?_, h.passed⟩
  obtain ⟨hpos, hle, hentry⟩ := h.held item hitem
  refine ⟨hpos, hle, ?_⟩
  rw [← hentry]
  exact hsame _ (by omega)

lemma get_of_nonneg {log : List CommitteeLogEntry} {i : ℤ} (h : 0 ≤ i) :
    PySequence.get log i = log[i.toNat]? := by
  lift i to ℕ using h
  simp

/-- The apply loop keeps what is applied and held, as long as it stays within the log. -/
lemma Kept.applyRounds {k : ℕ} (h : node.Kept) (hk : node.lastApplied + k < node.log.length) :
    (applyRounds k node).1.Kept := by
  induction k generalizing node with
  | zero => exact h
  | succ k ih =>
      push_cast at hk
      have hnonneg := h.nonneg
      have hlt : (node.lastApplied + 1).toNat < node.log.length := by omega
      have hget : PySequence.get node.log (node.lastApplied + 1) =
          some node.log[(node.lastApplied + 1).toNat] := by
        rw [get_of_nonneg (by omega), List.getElem?_eq_getElem hlt]
      -- the node right after it has applied the next entry
      have hnext : ∀ machine, ({ node with
          lastApplied := node.lastApplied + 1
          stateMachine := machine
          applied := node.applied ++
            [(node.lastApplied + 1, node.log[(node.lastApplied + 1).toNat])] }).Kept := by
        intro machine
        refine ⟨by dsimp only; omega, by dsimp only; omega, fun item hitem => ?_, fun i hi hle => ?_⟩
        · rcases List.mem_append.mp hitem with hold | hnew
          · obtain ⟨hpos, hle, hentry⟩ := h.held item hold
            exact ⟨hpos, by dsimp only; omega, hentry⟩
          · rw [List.mem_singleton.mp hnew]
            exact ⟨by dsimp only; omega, le_rfl, List.getElem?_eq_getElem hlt⟩
        · rcases hle.lt_or_eq with hlt | rfl
          · obtain ⟨entry, hentry⟩ := h.passed i hi (by dsimp only at hlt; omega)
            exact ⟨entry, List.mem_append_left _ hentry⟩
          · exact ⟨_, List.mem_append_right _ List.mem_cons_self⟩
      unfold CommitteeRaftNode.applyRounds
      dsimp only
      rw [if_pos (by omega), hget]
      dsimp only
      split
      · exact hnext _
      · exact ih (hnext _) (by dsimp only; omega)

/-- A commit up to an index that the log holds applies entries of the log. -/
lemma Kept.committedTo {newIndex : ℤ} (h : node.Kept) (hlen : newIndex < node.log.length) :
    (node.committedTo newIndex).Kept ∧ ∀ item ∈ (node.committedTo newIndex).applied,
      item ∈ node.applied ∨ (node.lastApplied < item.1 ∧ item.1 ≤ newIndex ∧
        node.log[item.1.toNat]? = some item.2) := by
  have hnonneg := h.nonneg
  have hwithin := h.within
  unfold CommitteeRaftNode.committedTo applyCommittedEntries
  constructor
  · have hset : { node with commitIndex := newIndex }.Kept := h.congr rfl rfl rfl
    apply hset.applyRounds
    dsimp only
    omega
  · intro item hitem
    rcases applyRounds_applied _ _ item hitem with hold | ⟨hlo, hhi, hget⟩
    · exact .inl hold
    · dsimp only at hlo hhi hget
      rw [get_of_nonneg (by omega)] at hget
      exact .inr ⟨hlo, by omega, hget⟩

/-- A commit up to what is applied already applies nothing. -/
lemma committedTo_of_le {newIndex : ℤ} (h : newIndex ≤ node.lastApplied) :
    node.committedTo newIndex = { node with commitIndex := newIndex } := by
  unfold committedTo applyCommittedEntries
  rw [show (newIndex - node.lastApplied).toNat = 0 by omega]
  rfl

/-! ## One peer -/

/-- The peer has an entry of the same term as the last entry of the leader in its place. -/
def Follows (leader peer : CommitteeRaftNode) : Prop :=
  (peer.log[leader.log.length - 1]?).map CommitteeLogEntry.term =
    (leader.log[leader.log.length - 1]?).map CommitteeLogEntry.term

instance : Decidable (Follows leader peer) := inferInstanceAs (Decidable (_ = _))

/-- The peer takes the next entry of the leader. -/
def Accepts (leader peer : CommitteeRaftNode) : Prop :=
  peer.currentTerm ≤ leader.currentTerm ∧ Follows leader peer

instance : Decidable (Accepts leader peer) := inferInstanceAs (Decidable (_ ∧ _))

/-- Where the log of the peer is cut, it is cut behind what the peer has applied. -/
structure CutBehind (leader peer : CommitteeRaftNode) : Prop where
  previous : ¬ Follows leader peer → leader.log.length ≤ peer.log.length →
    peer.lastApplied < leader.log.length - 1
  next : Follows leader peer → ∀ entry, peer.log[leader.log.length]? = some entry →
    entry.term ≠ leader.currentTerm → peer.lastApplied < leader.log.length

/-- Up to this index, what the peer has yet to apply is what the leader holds, and the place of the
next entry is free. -/
structure AgreesTo (reach : ℤ) (leader peer : CommitteeRaftNode) : Prop where
  before : ∀ k : ℕ, peer.lastApplied < k → k ≤ reach → k < leader.log.length →
    peer.log[k]? = leader.log[k]?
  free : leader.log.length ≤ reach → ∀ entry, peer.log[leader.log.length]? = some entry →
    entry.term ≠ leader.currentTerm

/-- The log of a node that takes an entry at this place. -/
def entered (log : List CommitteeLogEntry) (place : ℕ) (entry : CommitteeLogEntry) :
    List CommitteeLogEntry :=
  if (log[place]?).map CommitteeLogEntry.term = some entry.term then log
  else log.take place ++ [entry]

lemma insertEntries_entered {log : List CommitteeLogEntry} {place : ℕ} (h : place ≤ log.length)
    (entry : CommitteeLogEntry) :
    insertEntries log place [entry] = (entered log place entry, none) := by
  rw [insertEntries_eq_spliced log place h]
  unfold spliced entered
  congr 1
  rcases h.eq_or_lt with rfl | hlt
  · simp
  · rw [List.drop_eq_getElem_cons hlt, matched, List.getElem?_eq_getElem hlt, Option.map_some]
    by_cases hterm : log[place].term = entry.term
    · simp [hterm, matched]
    · simp [hterm]

section Entered

variable {log : List CommitteeLogEntry} {place : ℕ} {entry : CommitteeLogEntry}

lemma entered_before (h : place ≤ log.length) {k : ℕ} (hk : k < place) :
    (entered log place entry)[k]? = log[k]? := by
  unfold entered
  split_ifs
  · rfl
  · rw [List.getElem?_append_left (by rw [List.length_take]; omega), List.getElem?_take_of_lt hk]

lemma entered_free (hfree : ∀ old, log[place]? = some old → old.term ≠ entry.term) :
    entered log place entry = log.take place ++ [entry] := by
  unfold entered
  rw [if_neg]
  intro hterm
  obtain ⟨old, hold, heq⟩ := Option.map_eq_some_iff.mp hterm
  exact hfree old hold heq

end Entered

/-- The new log of a node that agrees with the leader up to an index is that of the leader. -/
lemma entered_agrees {reach : ℤ} {entry : CommitteeLogEntry}
    (hlen : leader.log.length ≤ node.log.length) (hterm : entry.term = leader.currentTerm)
    (hagrees : AgreesTo reach leader node) {k : ℕ} (hlo : node.lastApplied < k) (hreach : k ≤ reach)
    (hk : k ≤ leader.log.length) :
    (entered node.log leader.log.length entry)[k]? = (leader.log ++ [entry])[k]? := by
  rcases hk.lt_or_eq with hlt | rfl
  · rw [entered_before hlen hlt, List.getElem?_append_left hlt]
    exact hagrees.before k hlo hreach hlt
  · rw [entered_free (hterm ▸ hagrees.free hreach), List.getElem?_concat_length,
      List.getElem?_append_right (by simp)]
    simp [hlen]

/-- A message is a success exactly when the previous entry has the previous term. -/
lemma matchAndAppend_success (node : CommitteeRaftNode) (args : AppendEntriesArgs)
    {reply : AppendEntriesReply} (h : (node.matchAndAppend args).2 = .ok reply) :
    reply.success = true ↔ (PySequence.get node.log args.prevLogIndex).map
      CommitteeLogEntry.term = some args.prevLogTerm := by
  unfold matchAndAppend at h
  split_ifs at h with hmiss
  · obtain rfl := Except.ok.inj h
    rw [PySequence.get, PySequence.position_of_le hmiss]
    simp [appendReply]
  · split at h
    · cases h
    next previous hprevious =>
      rw [hprevious]
      dsimp only at h
      split_ifs at h with hterm
      · obtain rfl := Except.ok.inj h
        simp [appendReply, hterm]
      · rw [Option.map_some, not_not.mp hterm]
        split at h
        · cases h
        · split at h
          · cases h
          · obtain rfl := Except.ok.inj h
            simp [appendReply]

/-- What a request for the next entry of the leader leaves of a peer: new applied entries are those of the
leader, and with a majority the peer is ready to apply the rest of them. -/
structure Received (majority : Prop) (reach : ℤ) (leader : CommitteeRaftNode)
    (entry : CommitteeLogEntry) (peer node : CommitteeRaftNode) : Prop where
  kept : node.Kept
  applied : ∀ item ∈ node.applied, item ∈ peer.applied ∨ (Follows leader peer ∧
    peer.commitIndex < leader.commitIndex ∧ item.1 ≤ reach ∧
    (leader.log ++ [entry])[item.1.toNat]? = some item.2)
  ready : Follows leader peer → majority → leader.log.length < node.log.length ∧
    ∀ k : ℕ, node.lastApplied < k → k ≤ leader.log.length →
      node.log[k]? = (leader.log ++ [entry])[k]?

end CommitteeRaftNode

namespace FederatedRaftMultiCluster

open CommitteeRaftNode

section Peer

variable {majority : Prop} {reach : ℤ} {leader node : CommitteeRaftNode}
  {entry previous : CommitteeLogEntry} {leaderId : NodeId}

/-- The commit index follows that of the leader on a node that has taken the entry. -/
lemma received_advanceCommit (h : node.Kept) (hfollows : Follows leader node)
    (hlen : leader.log.length ≤ node.log.length) (hterm : entry.term = leader.currentTerm)
    (hkept : { node with log := entered node.log leader.log.length entry }.Kept)
    (hmajority : majority → reach = leader.log.length)
    (hreach : min leader.commitIndex leader.log.length ≤ reach)
    (hagrees : majority ∨ node.commitIndex < leader.commitIndex → AgreesTo reach leader node) :
    Received majority reach leader entry node
      ({ node with log := entered node.log leader.log.length entry }.advanceCommit
        leader.commitIndex).1 := by
  have hnonneg := h.nonneg
  -- the new log when it is the log of the leader that counts
  have hready : ∀ last : ℤ, node.lastApplied ≤ last → majority →
      leader.log.length < (entered node.log leader.log.length entry).length ∧
      ∀ k : ℕ, last < k → k ≤ leader.log.length →
        (entered node.log leader.log.length entry)[k]? = (leader.log ++ [entry])[k]? := by
    intro last hlast hall
    have hagree := hagrees (.inl hall)
    have hfull := hmajority hall
    constructor
    · rw [entered_free (hterm ▸ hagree.free (by omega)), List.length_append, List.length_take,
        List.length_singleton]
      omega
    · intro k hk hle
      exact entered_agrees hlen hterm hagree (by omega) (by omega) hle
  unfold advanceCommit
  split_ifs with hbehind
  · dsimp only at hbehind
    have hagree := hagrees (.inr hbehind)
    set after : CommitteeRaftNode :=
      { node with log := entered node.log leader.log.length entry } with hafter
    have hwithin : min leader.commitIndex after.lastLogIndex < after.log.length :=
      (min_le_right _ _).trans_lt (by unfold lastLogIndex; omega)
    obtain ⟨hnew, happlied⟩ := hkept.committedTo hwithin
    refine ⟨hnew, fun item hitem => (happlied item hitem).imp_right ?_, fun _ hall => ?_⟩
    · rintro ⟨hlo, hhi, hentry⟩
      have hlo : node.lastApplied < item.1 := hlo
      -- either the new entry is the last one, or what is committed ends before it
      have hend : item.1 ≤ reach ∧ item.1 ≤ leader.log.length := by
        by_cases hfree : leader.log.length ≤ reach
        · have hlast : after.lastLogIndex = leader.log.length := by
            rw [hafter, lastLogIndex]
            dsimp only
            rw [entered_free (hterm ▸ hagree.free hfree), List.length_append, List.length_take,
              List.length_singleton]
            omega
          rw [hlast] at hhi
          omega
        · omega
      refine ⟨hfollows, hbehind, hend.1, ?_⟩
      rw [← hentry]
      exact (entered_agrees hlen hterm hagree (by omega) (by omega) (by omega)).symm
    · obtain ⟨_, _, _, hframe⟩ := applyCommittedEntries_frame
        { after with commitIndex := min leader.commitIndex after.lastLogIndex }
      have hlast := (applyRounds_lastApplied
        (min leader.commitIndex after.lastLogIndex - after.lastApplied).toNat
        { after with commitIndex := min leader.commitIndex after.lastLogIndex }).1
      have hready := hready _ hlast hall
      refine ⟨?_, ?_⟩
      · rw [hframe]
        exact hready.1
      · intro k hk hle
        rw [hframe]
        exact hready.2 k hk hle
  · exact ⟨hkept, fun _ hitem => .inl hitem, fun _ hall => hready _ le_rfl hall⟩

lemma received_of_not_follows (hfollows : ¬ Follows leader node)
    {log : List CommitteeLogEntry} (hlog : { node with log }.Kept) :
    Received majority reach leader entry node { node with log } :=
  ⟨hlog, fun _ hitem => .inl hitem, fun h => absurd h hfollows⟩

/-- The log matching check and what follows it. -/
lemma received_matchAndAppend (h : node.Kept) (hnonempty : leader.log ≠ [])
    (hprevious : leader.log[leader.log.length - 1]? = some previous)
    (hterm : entry.term = leader.currentTerm) (hcut : CutBehind leader node)
    (hmajority : majority → reach = leader.log.length)
    (hreach : min leader.commitIndex leader.log.length ≤ reach)
    (hagrees : Follows leader node → majority ∨ node.commitIndex < leader.commitIndex →
      AgreesTo reach leader node) :
    Received majority reach leader entry node
      (node.matchAndAppend (entryArgs leaderId leader entry previous)).1 := by
  have hpos : 0 < leader.log.length := List.length_pos_iff.mpr hnonempty
  have hcast : (leader.log.length : ℤ) - 1 = ((leader.log.length - 1 : ℕ) : ℤ) := by omega
  have hfollows : Follows leader node ↔
      (node.log[leader.log.length - 1]?).map CommitteeLogEntry.term = some previous.term := by
    unfold Follows
    rw [hprevious, Option.map_some]
  have hplace : ∀ k, PySequence.position node.log.length
      (entryArgs leaderId leader entry previous).prevLogIndex = some k →
      k = leader.log.length - 1 ∧ leader.log.length ≤ node.log.length := by
    intro k hk
    change PySequence.position node.log.length ((leader.log.length : ℤ) - 1) = some k at hk
    rw [hcast, PySequence.position_natCast] at hk
    split_ifs at hk with hlt
    exact ⟨(Option.some.inj hk).symm, by omega⟩
  rcases node.matchAndAppend_cases (entryArgs leaderId leader entry previous) with
    ⟨hmissing, hnode, _⟩ | ⟨k, old, hposition, hold, hends⟩
  · rw [hnode]
    refine received_of_not_follows ?_ h
    rw [hfollows]
    change PySequence.position node.log.length ((leader.log.length : ℤ) - 1) = none at hmissing
    rw [hcast, PySequence.position_natCast] at hmissing
    split_ifs at hmissing with hlt
    rw [List.getElem?_eq_none (by omega)]
    simp
  · obtain ⟨rfl, hlen⟩ := hplace k hposition
    rw [hold, Option.map_some, Option.some_inj] at hfollows
    rcases hends with ⟨hne, hnode, _⟩ | ⟨heq, hends⟩
    · have hnot : ¬ Follows leader node := fun hf => hne (hfollows.mp hf)
      have hbehind := hcut.previous hnot hlen
      rw [hnode]
      refine received_of_not_follows hnot (h.setLog ?_ fun k hk => ?_)
      · rw [List.length_take]
        omega
      · exact List.getElem?_take_of_lt (by omega)
    · have hf : Follows leader node := hfollows.mpr heq
      have hinsert : insertEntries node.log
          ((entryArgs leaderId leader entry previous).prevLogIndex + 1)
          (entryArgs leaderId leader entry previous).entries =
          (entered node.log leader.log.length entry, none) := by
        change insertEntries node.log ((leader.log.length : ℤ) - 1 + 1) [entry] = _
        rw [Int.sub_add_cancel]
        exact insertEntries_entered hlen entry
      rw [(hends _ hinsert).1]
      refine received_advanceCommit h hf hlen hterm ?_ hmajority hreach (hagrees hf)
      -- the entry is in place already, or it replaces what the node has not applied
      by_cases hsame : (node.log[leader.log.length]?).map CommitteeLogEntry.term = some entry.term
      · unfold entered
        rw [if_pos hsame]
        exact h.congr rfl rfl rfl
      · have hlast : node.lastApplied < leader.log.length := by
          rcases hlen.lt_or_eq with hlt | hend
          · refine hcut.next hf _ (List.getElem?_eq_getElem hlt) ?_
            rw [List.getElem?_eq_getElem hlt, Option.map_some, Option.some_inj, hterm] at hsame
            exact hsame
          · rw [hend]
            exact h.within
        refine h.setLog ?_ fun k hk => entered_before hlen (by omega)
        unfold entered
        rw [if_neg hsame, List.length_append, List.length_take, List.length_singleton]
        omega

lemma Received.congr {other received : CommitteeRaftNode}
    (h : Received majority reach leader entry other received) (hlog : other.log = node.log)
    (hcommit : other.commitIndex = node.commitIndex) (happlied : other.applied = node.applied) :
    Received majority reach leader entry node received := by
  have hfollows : Follows leader other ↔ Follows leader node := by
    unfold Follows
    rw [hlog]
  refine ⟨h.kept, ?_, fun hf => h.ready (hfollows.mpr hf)⟩
  rw [← happlied, ← hcommit, ← hfollows]
  exact h.applied

/-- A message of an earlier term changes nothing, and otherwise the log of the node is checked. -/
lemma followLeader_checks (node : CommitteeRaftNode) (args : AppendEntriesArgs) :
    (args.term < node.currentTerm ∧ ∃ message,
      node.followLeader args = (node, .ok (node.appendReply false 0 message))) ∨
    (node.currentTerm ≤ args.term ∧ ∃ follower : CommitteeRaftNode, follower.log = node.log ∧
      follower.commitIndex = node.commitIndex ∧ follower.lastApplied = node.lastApplied ∧
      follower.applied = node.applied ∧ node.followLeader args = follower.matchAndAppend args) := by
  rcases node.followLeader_cases args with hstale | ⟨hle, heq⟩
  · exact .inl hstale
  · have hfields : (node.recognizeLeader args).log = node.log ∧
        (node.recognizeLeader args).commitIndex = node.commitIndex ∧
        (node.recognizeLeader args).lastApplied = node.lastApplied ∧
        (node.recognizeLeader args).applied = node.applied := by
      unfold recognizeLeader
      split_ifs <;> exact ⟨rfl, rfl, rfl, rfl⟩
    obtain ⟨hlog, hcommit, hlast, happlied⟩ := hfields
    exact .inr ⟨hle, { node.recognizeLeader args with leaderId := args.leaderId }, hlog, hcommit, hlast,
      happlied, heq⟩

/-- What a request leaves of a peer: nothing changes in a later term, and otherwise the log is checked. -/
lemma appendHandler_received {view : View} (hattested : view.attested leaderId = true)
    (h : node.Kept) (hnonempty : leader.log ≠ [])
    (hprevious : leader.log[leader.log.length - 1]? = some previous)
    (hterm : entry.term = leader.currentTerm)
    (hcut : node.currentTerm ≤ leader.currentTerm → CutBehind leader node)
    (hmajority : majority → reach = leader.log.length)
    (hreach : min leader.commitIndex leader.log.length ≤ reach)
    (hagrees : Accepts leader node → majority ∨ node.commitIndex < leader.commitIndex →
      AgreesTo reach leader node) :
    (leader.currentTerm < node.currentTerm ∧
      (appendHandler (entryArgs leaderId leader entry previous) view node).1 = node) ∨
    (node.currentTerm ≤ leader.currentTerm ∧ Received majority reach leader entry node
      (appendHandler (entryArgs leaderId leader entry previous) view node).1) := by
  have hhandled : (appendHandler (entryArgs leaderId leader entry previous) view node).1 =
      (node.followLeader (entryArgs leaderId leader entry previous)).1 := by
    unfold appendHandler handleAppendEntries
    dsimp only
    rw [if_neg (by simp), if_pos (c := view.attested
      (entryArgs leaderId leader entry previous).leaderId = true) hattested]
  rw [hhandled]
  rcases followLeader_checks node (entryArgs leaderId leader entry previous) with
    ⟨hstale, _, heq⟩ | ⟨hle, follower, hlog, hcommit, hlast, happlied, heq⟩
  · rw [heq]
    exact .inl ⟨hstale, rfl⟩
  · right
    refine ⟨hle, ?_⟩
    rw [heq]
    have hfollows : Follows leader follower ↔ Follows leader node := by
      unfold Follows
      rw [hlog]
    refine Received.congr ?_ hlog hcommit happlied
    refine received_matchAndAppend (h.congr hlog hlast happlied) hnonempty hprevious hterm ?_
      hmajority hreach ?_
    · have hcut := hcut hle
      constructor
      · rw [hfollows, hlog, hlast]
        exact hcut.previous
      · rw [hfollows, hlog, hlast]
        exact hcut.next
    · intro hf hguard
      rw [hcommit] at hguard
      have hagree := hagrees ⟨hle, hfollows.mp hf⟩ hguard
      constructor
      · rw [hlog, hlast]
        exact hagree.before
      · rw [hlog]
        exact hagree.free

/-- A peer answers that it has taken the entry exactly when it accepts. -/
lemma appendHandler_answer {view : View} (hattested : view.attested leaderId = true)
    (hnonempty : leader.log ≠ [])
    (hprevious : leader.log[leader.log.length - 1]? = some previous) {answer : Bool}
    (h : (appendHandler (entryArgs leaderId leader entry previous) view node).2 = .ok answer) :
    answer = true ↔ Accepts leader node := by
  have hpos : 0 < leader.log.length := List.length_pos_iff.mpr hnonempty
  have hcast : (leader.log.length : ℤ) - 1 = ((leader.log.length - 1 : ℕ) : ℤ) := by omega
  unfold appendHandler handleAppendEntries at h
  dsimp only at h
  rw [if_neg (by simp), if_pos (c := view.attested
    (entryArgs leaderId leader entry previous).leaderId = true) hattested] at h
  rcases followLeader_checks node (entryArgs leaderId leader entry previous) with
    ⟨hstale, _, heq⟩ | ⟨hle, follower, hlog, _, _, _, heq⟩
  · rw [heq] at h
    obtain rfl := Except.ok.inj h
    have hstale : leader.currentTerm < node.currentTerm := hstale
    simp [appendReply, Accepts, hstale]
  · rw [heq] at h
    cases hreply : (follower.matchAndAppend (entryArgs leaderId leader entry previous)).2 with
    | error error =>
        rw [hreply] at h
        cases h
    | ok reply =>
        rw [hreply] at h
        obtain rfl := Except.ok.inj h
        rw [matchAndAppend_success _ _ hreply, hlog]
        change (PySequence.get node.log ((leader.log.length : ℤ) - 1)).map _ = some previous.term ↔ _
        rw [hcast, PySequence.get_natCast]
        unfold Accepts Follows
        rw [hprevious, Option.map_some]
        exact ⟨fun hterm => ⟨hle, hterm⟩, fun haccepts => haccepts.2⟩

end Peer

/-! ## One append -/

section Append

variable (f : FederatedRaftMultiCluster) (leaderId : NodeId) (leader : CommitteeRaftNode)

/-- A member takes the next entry of the leader. -/
def takes (item : NodeId × RegionalClusterMember) : Bool :=
  (f.nodes item.1).any fun peer => Accepts leader peer

/-- The next entry of the leader reaches a majority of the active nodes. -/
def Majority : Prop :=
  f.totalActive / 2 < 1 + ((f.peersOf leaderId).filter fun item => f.takes leader item).length

instance : Decidable (f.Majority leaderId leader) := inferInstanceAs (Decidable (_ < _))

/-- The index up to which the next entry of the leader makes a peer apply. -/
def reach : ℤ := if f.Majority leaderId leader then leader.log.length else leader.commitIndex

/-- A node that is an active peer of the leader. -/
def Peer (peer : CommitteeRaftNode) : Prop :=
  ∃ item ∈ f.peersOf leaderId, f.nodes item.1 = some peer

/-- The next entry of the leader makes the peer apply. -/
def Moves (peer : CommitteeRaftNode) : Prop :=
  Accepts leader peer ∧ (f.Majority leaderId leader ∨ peer.commitIndex < leader.commitIndex)

/-- The append loses nothing that is applied, and lets the nodes apply nothing but the log of the leader. -/
structure Orderly : Prop where
  cut : ∀ peer, f.Peer leaderId peer → peer.currentTerm ≤ leader.currentTerm → CutBehind leader peer
  agrees : ∀ peer, f.Peer leaderId peer → f.Moves leaderId leader peer →
    AgreesTo (f.reach leaderId leader) leader peer
  whole : f.Majority leaderId leader → ∀ peer, f.Peer leaderId peer → Accepts leader peer ∨
    (leader.currentTerm < peer.currentTerm ∧ leader.log.length ≤ peer.lastApplied)
  complete : (f.Majority leaderId leader ∨ ∃ peer, f.Peer leaderId peer ∧
    f.Moves leaderId leader peer) → ∀ id node, f.nodes id = some node → ∀ item ∈ node.applied,
      item.1 ≤ f.reach leaderId leader → leader.log[item.1.toNat]? = some item.2

end Append

/-- No two nodes have applied different entries at one index. -/
def Agree (f : FederatedRaftMultiCluster) : Prop :=
  ∀ id other node peer, f.nodes id = some node → f.nodes other = some peer →
    ∀ i entry entry', (i, entry) ∈ node.applied → (i, entry') ∈ peer.applied → entry = entry'

/-- The nodes agree on what they have applied, and hold it. -/
structure Sound (f : FederatedRaftMultiCluster) : Prop where
  nodup : (f.members.map Prod.fst).Nodup
  kept : ∀ id node, f.nodes id = some node → node.Kept
  agree : f.Agree

section Step

variable {f f' : FederatedRaftMultiCluster} {leaderId : NodeId} {leader : CommitteeRaftNode}
  {entry : CommitteeLogEntry}

/-- What the append makes of one node. -/
structure Advanced (f : FederatedRaftMultiCluster) (leaderId : NodeId) (leader : CommitteeRaftNode)
    (entry : CommitteeLogEntry) (node after : CommitteeRaftNode) : Prop where
  kept : after.Kept
  applied : ∀ item ∈ after.applied, item ∈ node.applied ∨
    ((f.Majority leaderId leader ∨ ∃ peer, f.Peer leaderId peer ∧ f.Moves leaderId leader peer) ∧
      item.1 ≤ f.reach leaderId leader ∧ (leader.log ++ [entry])[item.1.toNat]? = some item.2)

lemma Advanced.refl {node : CommitteeRaftNode} (h : node.Kept) :
    Advanced f leaderId leader entry node node := ⟨h, fun _ hitem => .inl hitem⟩

lemma reach_of_majority (h : f.Majority leaderId leader) :
    f.reach leaderId leader = leader.log.length := if_pos h

lemma le_reach : min leader.commitIndex leader.log.length ≤ f.reach leaderId leader := by
  unfold reach
  split_ifs
  · exact min_le_right _ _
  · exact min_le_left _ _

/-- Nodes that have only advanced still agree. -/
lemma Sound.advance (hf : f.Sound) (ho : f.Orderly leaderId leader) (entry : CommitteeLogEntry)
    (hmembers : f'.members = f.members)
    (hnodes : ∀ id after, f'.nodes id = some after → ∃ node, f.nodes id = some node ∧
      Advanced f leaderId leader entry node after) : f'.Sound := by
  refine ⟨by rw [hmembers]; exact hf.nodup, fun id after hafter => ?_, ?_⟩
  · obtain ⟨_, _, hadvanced⟩ := hnodes id after hafter
    exact hadvanced.kept
  · intro id other after after' hafter hafter' i x y hx hy
    obtain ⟨node, hnode, hadvanced⟩ := hnodes id after hafter
    obtain ⟨node', hnode', hadvanced'⟩ := hnodes other after' hafter'
    -- an entry that was applied before is the entry of the leader, once there is a new one
    have hold : ∀ id node, f.nodes id = some node → ∀ item ∈ node.applied,
        (f.Majority leaderId leader ∨ ∃ peer, f.Peer leaderId peer ∧
          f.Moves leaderId leader peer) → item.1 ≤ f.reach leaderId leader →
        (leader.log ++ [entry])[item.1.toNat]? = some item.2 := by
      intro id node hnode item hitem hmoves hle
      exact PySequence.getElem?_of_isPrefix (List.prefix_append _ _)
        (ho.complete hmoves id node hnode item hitem hle)
    rcases hadvanced.applied _ hx with hx | ⟨hmoves, hle, hx⟩
    · rcases hadvanced'.applied _ hy with hy | ⟨hmoves, hle, hy⟩
      · exact hf.agree id other node node' hnode hnode' i x y hx hy
      · exact Option.some.inj ((hold id node hnode _ hx hmoves hle).symm.trans hy)
    · rcases hadvanced'.applied _ hy with hy | ⟨_, _, hy⟩
      · exact Option.some.inj (hx.symm.trans (hold other node' hnode' _ hy hmoves hle))
      · exact Option.some.inj (hx.symm.trans hy)

lemma peersOf_nodup (hf : (f.members.map Prod.fst).Nodup) (id : NodeId) :
    ((f.peersOf id).map Prod.fst).Nodup :=
  hf.sublist (List.filter_sublist.map Prod.fst)

lemma notMem_peersOf (f : FederatedRaftMultiCluster) (id : NodeId) :
    id ∉ (f.peersOf id).map Prod.fst := by
  intro h
  obtain ⟨item, hitem, rfl⟩ := List.mem_map.mp h
  simpa using (List.mem_filter.mp hitem).2

/-- A peer that has received the entry has only advanced. -/
lemma Received.advanced {peer after : CommitteeRaftNode} (hpeer : f.Peer leaderId peer)
    (hterm : peer.currentTerm ≤ leader.currentTerm)
    (h : Received (f.Majority leaderId leader) (f.reach leaderId leader) leader entry peer after) :
    Advanced f leaderId leader entry peer after := by
  refine ⟨h.kept, fun item hitem => (h.applied item hitem).imp_right ?_⟩
  rintro ⟨hfollows, hbehind, hle, hentry⟩
  exact ⟨.inr ⟨peer, hpeer, ⟨hterm, hfollows⟩, .inr hbehind⟩, hle, hentry⟩

/-- A commit of the new entry on a node that is ready for it. -/
lemma Advanced.commit {node after : CommitteeRaftNode}
    (h : Advanced f leaderId leader entry node after) (hmajority : f.Majority leaderId leader)
    (hready : leader.log.length < after.log.length ∧ ∀ k : ℕ, after.lastApplied < k →
      k ≤ leader.log.length → after.log[k]? = (leader.log ++ [entry])[k]?) :
    Advanced f leaderId leader entry node (after.committedTo leader.log.length) := by
  have hnonneg := h.kept.nonneg
  have hwithin : (leader.log.length : ℤ) < after.log.length := by exact_mod_cast hready.1
  obtain ⟨hkept, happlied⟩ := h.kept.committedTo hwithin
  refine ⟨hkept, fun item hitem => ?_⟩
  rcases happlied item hitem with hold | ⟨hlo, hhi, hentry⟩
  · exact h.applied item hold
  · refine .inr ⟨.inl hmajority, ?_, ?_⟩
    · rw [reach_of_majority hmajority]
      exact hhi
    · rw [← hentry]
      exact (hready.2 item.1.toNat (by omega) (by omega)).symm

/-- The leader itself takes its entry. -/
lemma advanced_leader (h : leader.Kept) :
    Advanced f leaderId leader entry leader { leader with log := leader.log ++ [entry] } := by
  have hwithin := h.within
  refine ⟨h.setLog ?_ fun k hk => ?_, fun _ hitem => .inl hitem⟩
  · rw [List.length_append]
    push_cast
    omega
  · exact List.getElem?_append_left (by omega)

/-- An append is on its way. -/
structure Appending (f : FederatedRaftMultiCluster) (leaderId : NodeId) (leader : CommitteeRaftNode)
    (entry previous : CommitteeLogEntry) : Prop where
  sound : f.Sound
  orderly : f.Orderly leaderId leader
  leads : f.nodes leaderId = some leader
  attested : f.view.attested leaderId = true
  term : entry.term = leader.currentTerm
  previous : leader.log[leader.log.length - 1]? = some previous

/-- The leader has its entry. -/
def withEntry (f : FederatedRaftMultiCluster) (leaderId : NodeId) (leader : CommitteeRaftNode)
    (entry : CommitteeLogEntry) : FederatedRaftMultiCluster :=
  f.setNode leaderId { leader with log := leader.log ++ [entry] }

lemma withEntry_advanced (hf : f.Sound) (hleader : f.nodes leaderId = some leader) {id : NodeId}
    {node : CommitteeRaftNode} (hnode : (f.withEntry leaderId leader entry).nodes id = some node) :
    ∃ before, f.nodes id = some before ∧ Advanced f leaderId leader entry before node := by
  unfold withEntry at hnode
  by_cases hid : id = leaderId
  · subst hid
    rw [setNode_self] at hnode
    obtain rfl := Option.some.inj hnode
    exact ⟨leader, hleader, advanced_leader (hf.kept id leader hleader)⟩
  · rw [setNode_of_ne hid] at hnode
    exact ⟨node, hnode, .refl (hf.kept id node hnode)⟩

section Round

variable {previous : CommitteeLogEntry} {id : NodeId} {peer node : CommitteeRaftNode}
  {member : RegionalClusterMember}

lemma Appending.nonempty (h : f.Appending leaderId leader entry previous) : leader.log ≠ [] := by
  intro hnil
  have hprevious := h.previous
  rw [hnil] at hprevious
  cases hprevious

lemma peer_of_mem (hid : id ∈ (f.peersOf leaderId).map Prod.fst) :
    id ≠ leaderId ∧ ∀ peer, f.nodes id = some peer → f.Peer leaderId peer := by
  refine ⟨?_, fun peer hnode => ?_⟩
  · rintro rfl
    exact notMem_peersOf f id hid
  · obtain ⟨item, hitem, rfl⟩ := List.mem_map.mp hid
    exact ⟨item, hitem, hnode⟩

/-- The state after the round of requests. -/
def sendEntry (f : FederatedRaftMultiCluster) (leaderId : NodeId) (leader : CommitteeRaftNode)
    (entry previous : CommitteeLogEntry) (region : ClusterRegion) :
    FederatedRaftMultiCluster × Except FederationError (ℕ × List ClusterRegion) :=
  askPeers (appendHandler (entryArgs leaderId leader entry previous)) (f.peersOf leaderId)
    (f.withEntry leaderId leader entry) 1 [region]

/-- What a peer makes of the request. -/
lemma Appending.received (h : f.Appending leaderId leader entry previous)
    (hnode : f.nodes id = some peer) (hpeer : f.Peer leaderId peer) :
    (leader.currentTerm < peer.currentTerm ∧
      (appendHandler (entryArgs leaderId leader entry previous) f.view peer).1 = peer) ∨
    (peer.currentTerm ≤ leader.currentTerm ∧ Received (f.Majority leaderId leader)
      (f.reach leaderId leader) leader entry peer
      (appendHandler (entryArgs leaderId leader entry previous) f.view peer).1) :=
  appendHandler_received h.attested (h.sound.kept id peer hnode) h.nonempty h.previous h.term
    (h.orderly.cut peer hpeer) reach_of_majority le_reach
    fun haccepts hmoves => h.orderly.agrees peer hpeer ⟨haccepts, hmoves⟩

lemma Appending.visited (h : f.Appending leaderId leader entry previous) (region : ClusterRegion) :
    Visited (fun peer => (appendHandler (entryArgs leaderId leader entry previous) f.view peer).1)
      ((f.peersOf leaderId).map Prod.fst) (f.withEntry leaderId leader entry)
      (f.sendEntry leaderId leader entry previous region).1 :=
  askPeers_visited (appendHandler (entryArgs leaderId leader entry previous))
    (peersOf_nodup h.sound.nodup leaderId) (f.withEntry leaderId leader entry) 1 [region]

/-- After the round every node has only advanced. -/
lemma Appending.sent (h : f.Appending leaderId leader entry previous) {region : ClusterRegion}
    (hnode : (f.sendEntry leaderId leader entry previous region).1.nodes id = some node) :
    ∃ before, f.nodes id = some before ∧ Advanced f leaderId leader entry before node := by
  rcases (h.visited region).nodes id with hsame | ⟨hid, hchanged⟩
  · rw [hsame] at hnode
    exact withEntry_advanced h.sound h.leads hnode
  · obtain ⟨hne, hpeer⟩ := peer_of_mem hid
    rw [hchanged, withEntry, setNode_of_ne hne] at hnode
    obtain ⟨peer, hbefore, rfl⟩ := Option.map_eq_some_iff.mp hnode
    refine ⟨peer, hbefore, ?_⟩
    rcases h.received hbefore (hpeer peer hbefore) with ⟨_, heq⟩ | ⟨hle, hreceived⟩
    · rw [heq]
      exact .refl (h.sound.kept id peer hbefore)
    · exact Received.advanced (hpeer peer hbefore) hle hreceived

/-- A round that comes to its end counts the peers that accept, and every peer has had the request. -/
lemma Appending.counted (h : f.Appending leaderId leader entry previous) {region : ClusterRegion}
    {acks : ℕ} {regions : List ClusterRegion}
    (hok : (f.sendEntry leaderId leader entry previous region).2 = .ok (acks, regions)) :
    (∀ id ∈ (f.peersOf leaderId).map Prod.fst,
      (f.sendEntry leaderId leader entry previous region).1.nodes id = (f.nodes id).map fun peer =>
        (appendHandler (entryArgs leaderId leader entry previous) f.view peer).1) ∧
    (f.totalActive / 2 < acks ↔ f.Majority leaderId leader) := by
  have hgrants : ∀ item ∈ f.peersOf leaderId, ∀ peer answer,
      (f.withEntry leaderId leader entry).nodes item.1 = some peer →
      (appendHandler (entryArgs leaderId leader entry previous)
        (f.withEntry leaderId leader entry).view peer).2 = .ok answer →
      (answer = true ↔ f.takes leader item = true) := by
    intro item hitem peer answer hnode hanswer
    rw [withEntry, setNode_of_ne (peer_of_mem (List.mem_map_of_mem hitem)).1] at hnode
    rw [appendHandler_answer h.attested h.nonempty h.previous hanswer]
    simp [takes, hnode]
  obtain ⟨hall, hacks, _⟩ := askPeers_ok (peersOf_nodup h.sound.nodup leaderId) hgrants hok
  refine ⟨fun id hid => ?_, ?_⟩
  · refine (hall id hid).trans ?_
    rw [withEntry, setNode_of_ne (peer_of_mem hid).1]
    rfl
  · rw [hacks]
    simp [Majority]

/-- A peer commits the new entry. -/
lemma Appending.peer_committed (h : f.Appending leaderId leader entry previous)
    (hmajority : f.Majority leaderId leader) (hnode : f.nodes id = some peer)
    (hpeer : f.Peer leaderId peer) :
    Advanced f leaderId leader entry peer
      ((appendHandler (entryArgs leaderId leader entry previous) f.view peer).1.committedTo
        leader.log.length) := by
  have hwhole := h.orderly.whole hmajority peer hpeer
  rcases h.received hnode hpeer with ⟨hlater, heq⟩ | ⟨hle, hreceived⟩
  · -- a peer of a later term has applied as much already
    have hlast : leader.log.length ≤ peer.lastApplied := by
      rcases hwhole with ⟨hle, _⟩ | ⟨_, hlast⟩
      · exact absurd hle (not_le.mpr hlater)
      · exact hlast
    rw [heq, committedTo_of_le hlast]
    exact ⟨(h.sound.kept id peer hnode).congr rfl rfl rfl, fun _ hitem => .inl hitem⟩
  · have hfollows : Follows leader peer := by
      rcases hwhole with ⟨_, hfollows⟩ | ⟨hlater, _⟩
      · exact hfollows
      · exact absurd hle (not_le.mpr hlater)
    exact (Received.advanced hpeer hle hreceived).commit hmajority
      (hreceived.ready hfollows hmajority)

/-- After the round of commits every node has only advanced. -/
lemma Appending.committed (h : f.Appending leaderId leader entry previous) {region : ClusterRegion}
    (hmajority : f.Majority leaderId leader)
    (hall : ∀ id ∈ (f.peersOf leaderId).map Prod.fst,
      (f.sendEntry leaderId leader entry previous region).1.nodes id = (f.nodes id).map fun peer =>
        (appendHandler (entryArgs leaderId leader entry previous) f.view peer).1)
    (hnode : (commitNodes leader.log.length (leaderId :: (f.peersOf leaderId).map Prod.fst)
      (f.sendEntry leaderId leader entry previous region).1).1.nodes id = some node) :
    ∃ before, f.nodes id = some before ∧ Advanced f leaderId leader entry before node := by
  have hnodup := List.nodup_cons.mpr
    ⟨notMem_peersOf f leaderId, peersOf_nodup h.sound.nodup leaderId⟩
  have hvisited := commitNodes_visited hnodup leader.log.length
    (f.sendEntry leaderId leader entry previous region).1
  rcases hvisited.nodes id with hsame | ⟨hid, hchanged⟩
  · rw [hsame] at hnode
    exact h.sent hnode
  · rw [hchanged] at hnode
    obtain ⟨sent, hsent, rfl⟩ := Option.map_eq_some_iff.mp hnode
    rcases List.mem_cons.mp hid with rfl | hid
    · have hkept := h.sound.kept id leader h.leads
      rcases (h.visited region).nodes id with hsame | ⟨hmem, _⟩
      · rw [hsame, withEntry, setNode_self] at hsent
        obtain rfl := Option.some.inj hsent
        refine ⟨leader, h.leads, (advanced_leader hkept).commit hmajority ⟨?_, fun _ _ _ => rfl⟩⟩
        rw [List.length_append]
        exact Nat.lt_succ_self _
      · exact absurd hmem (notMem_peersOf f id)
    · rw [hall id hid] at hsent
      obtain ⟨peer, hbefore, rfl⟩ := Option.map_eq_some_iff.mp hsent
      exact ⟨peer, hbefore, h.peer_committed hmajority hbefore ((peer_of_mem hid).2 peer hbefore)⟩

end Round

/-- `replicate_cross_region_entry` once there is a leader keeps the nodes in agreement. -/
theorem Sound.appendOnLeader (hf : f.Sound) (hleader : f.nodes leaderId = some leader)
    (ho : f.Orderly leaderId leader) (entryType : CommitteeEntryType) (payload : Payload)
    (author : Option NodeId) :
    (f.appendOnLeader leaderId leader entryType payload author).1.Sound := by
  have hkept := hf.kept leaderId leader hleader
  have hnonneg := hkept.nonneg
  have hwithin := hkept.within
  unfold FederatedRaftMultiCluster.appendOnLeader
  dsimp only
  set entry := newEntry leaderId leader entryType payload author with hentry
  split
  · exact hf.advance ho entry rfl fun _ _ => withEntry_advanced hf hleader
  · exact hf.advance ho entry rfl fun _ _ => withEntry_advanced hf hleader
  next member previous hmember hget =>
    have happending : f.Appending leaderId leader entry previous := by
      refine ⟨hf, ho, hleader, ?_, rfl, ?_⟩
      · have hmember : PySequence.getItem f.members leaderId = some member := hmember
        have hmem := List.mem_map_of_mem (f := Prod.fst) (PySequence.getItem_mem hmember)
        simpa [view] using hmem
      · rw [show (leader.log.length : ℤ) - 1 = ((leader.log.length - 1 : ℕ) : ℤ) by omega,
          PySequence.get_natCast, List.getElem?_append_left (by omega)] at hget
        exact hget
    have hmembers : (f.sendEntry leaderId leader entry previous member.region).1.members =
        f.members := (happending.visited member.region).members
    have hsent := hf.advance ho entry hmembers fun _ _ => happending.sent
    split
    · exact hsent
    next acks regions hok =>
      obtain ⟨hall, hmajority⟩ := happending.counted hok
      have htotal : (f.sendEntry leaderId leader entry previous member.region).1.totalActive =
          f.totalActive := by
        unfold totalActive activeIds
        rw [hmembers]
      have hcommit : (if (f.sendEntry leaderId leader entry previous member.region).1.totalActive / 2
            < acks then
          commitNodes leader.log.length (leaderId :: (f.peersOf leaderId).map Prod.fst)
            (f.sendEntry leaderId leader entry previous member.region).1
          else ((f.sendEntry leaderId leader entry previous member.region).1, none)).1.Sound := by
        rw [htotal]
        split_ifs with hsuccess
        · have hnodup := List.nodup_cons.mpr
            ⟨notMem_peersOf f leaderId, peersOf_nodup hf.nodup leaderId⟩
          have hvisited := commitNodes_visited hnodup leader.log.length
            (f.sendEntry leaderId leader entry previous member.region).1
          exact hf.advance ho entry (hvisited.members.trans hmembers) fun _ _ =>
            happending.committed (hmajority.mp hsuccess) hall
        · exact hsent
      split
      · exact hcommit
      · exact hcommit

end Step

/-! ## The other calls -/

section Calls

variable {f f' f'' : FederatedRaftMultiCluster}

/-- The nodes are the same but for their terms, votes and roles. -/
def SameLogs (f f' : FederatedRaftMultiCluster) : Prop :=
  f'.members.map Prod.fst = f.members.map Prod.fst ∧
    ∀ id after, f'.nodes id = some after → ∃ node, f.nodes id = some node ∧
      after.log = node.log ∧ after.lastApplied = node.lastApplied ∧ after.applied = node.applied

lemma SameLogs.refl (f : FederatedRaftMultiCluster) : SameLogs f f :=
  ⟨rfl, fun _ node hnode => ⟨node, hnode, rfl, rfl, rfl⟩⟩

lemma SameLogs.trans (h : SameLogs f f') (h' : SameLogs f' f'') : SameLogs f f'' := by
  refine ⟨h'.1.trans h.1, fun id after hafter => ?_⟩
  obtain ⟨node', hnode', hlog', hlast', happlied'⟩ := h'.2 id after hafter
  obtain ⟨node, hnode, hlog, hlast, happlied⟩ := h.2 id node' hnode'
  exact ⟨node, hnode, hlog'.trans hlog, hlast'.trans hlast, happlied'.trans happlied⟩

lemma Sound.of_sameLogs (h : f.Sound) (hsame : SameLogs f f') : f'.Sound := by
  refine ⟨by rw [hsame.1]; exact h.nodup, fun id after hafter => ?_, ?_⟩
  · obtain ⟨node, hnode, hlog, hlast, happlied⟩ := hsame.2 id after hafter
    exact (h.kept id node hnode).congr hlog hlast happlied
  · intro id other after after' hafter hafter' i x y hx hy
    obtain ⟨node, hnode, _, _, happlied⟩ := hsame.2 id after hafter
    obtain ⟨node', hnode', _, _, happlied'⟩ := hsame.2 other after' hafter'
    exact h.agree id other node node' hnode hnode' i x y (happlied ▸ hx) (happlied' ▸ hy)

/-- A change of nodes that touches neither log nor what is applied. -/
lemma SameLogs.of_nodes (change : NodeId → CommitteeRaftNode → CommitteeRaftNode)
    (hchange : ∀ id node, (change id node).log = node.log ∧
      (change id node).lastApplied = node.lastApplied ∧ (change id node).applied = node.applied)
    (hmembers : f'.members.map Prod.fst = f.members.map Prod.fst)
    (hnodes : ∀ id, f'.nodes id = f.nodes id ∨ f'.nodes id = (f.nodes id).map (change id)) :
    SameLogs f f' := by
  refine ⟨hmembers, fun id after hafter => ?_⟩
  rcases hnodes id with hsame | hchanged
  · exact ⟨after, hsame ▸ hafter, rfl, rfl, rfl⟩
  · rw [hchanged] at hafter
    obtain ⟨node, hnode, rfl⟩ := Option.map_eq_some_iff.mp hafter
    exact ⟨node, hnode, hchange id node⟩

lemma sameLogs_setRole (id : NodeId) (role : RaftRole) : SameLogs f (f.setRole id role) := by
  refine .of_nodes (fun _ node => { node with role }) (fun _ _ => ⟨rfl, rfl, rfl⟩) rfl
    fun other => ?_
  by_cases h : other = id
  · subst h
    exact .inr (Function.update_self ..)
  · exact .inl (Function.update_of_ne h ..)

lemma sameLogs_concludeElection (candidateId : NodeId) (votes : ℕ) (regions : List ClusterRegion) :
    SameLogs f (f.concludeElection candidateId votes regions).1 := by
  unfold concludeElection
  split_ifs
  · obtain ⟨hmembers, hnodes⟩ := sameLogs_setRole (f := f) candidateId .leader
    exact ⟨hmembers, hnodes⟩
  · exact sameLogs_setRole candidateId .follower

/-- A vote changes neither log nor what is applied. -/
lemma voteHandler_log (args : RequestVoteArgs) (view : View) (peer : CommitteeRaftNode) :
    (voteHandler args view peer).1.log = peer.log ∧
      (voteHandler args view peer).1.lastApplied = peer.lastApplied ∧
      (voteHandler args view peer).1.applied = peer.applied := by
  have hcatch : (peer.catchUp args.term).log = peer.log ∧
      (peer.catchUp args.term).lastApplied = peer.lastApplied ∧
      (peer.catchUp args.term).applied = peer.applied := by
    unfold catchUp
    split_ifs <;> exact ⟨rfl, rfl, rfl⟩
  unfold voteHandler handleRequestVote
  dsimp only
  rw [if_neg (by simp)]
  split_ifs
  · rcases peer.considerVote_cases args with
      ⟨_, _, heq⟩ | ⟨_, _, heq⟩ | ⟨_, _, heq⟩ | ⟨_, _, _, heq⟩
    · rw [heq]
      exact ⟨rfl, rfl, rfl⟩
    · rw [heq]
      exact hcatch
    · rw [heq]
      exact hcatch
    · rw [heq]
      exact hcatch
  · exact ⟨rfl, rfl, rfl⟩

lemma sameLogs_elect (hf : (f.members.map Prod.fst).Nodup) (candidateId : NodeId) :
    SameLogs f (f.electCrossClusterLeader candidateId).1 := by
  unfold electCrossClusterLeader
  split
  next node member hnode _ =>
    dsimp only
    set candidate : CommitteeRaftNode := { node with
      role := .candidate
      currentTerm := node.currentTerm + 1
      votedFor := some candidateId }
    have hcandidate : SameLogs f (f.setNode candidateId candidate) := by
      refine ⟨rfl, fun id after hafter => ?_⟩
      by_cases hid : id = candidateId
      · subst hid
        rw [setNode_self] at hafter
        obtain rfl := Option.some.inj hafter
        exact ⟨node, hnode, rfl, rfl, rfl⟩
      · rw [setNode_of_ne hid] at hafter
        exact ⟨after, hafter, rfl, rfl, rfl⟩
    split
    · exact hcandidate
    next lastLogTerm _ =>
      have hasked := askPeers_visited (voteHandler ⟨candidate.currentTerm, candidateId,
        candidate.lastLogIndex, lastLogTerm⟩) (peersOf_nodup hf candidateId)
        (f.setNode candidateId candidate) 1 [member.region]
      have hvoted := hcandidate.trans (.of_nodes _
        (fun _ peer => voteHandler_log _ (f.setNode candidateId candidate).view peer)
        (congrArg _ hasked.members) fun id => (hasked.nodes id).imp_right And.right)
      split
      · exact hvoted
      · exact hvoted.trans (sameLogs_concludeElection candidateId _ _)
  · exact .refl f

lemma sameLogs_ensureLeader (hf : (f.members.map Prod.fst).Nodup) :
    SameLogs f f.ensureLeader.1 := by
  unfold ensureLeader
  split
  · exact .refl f
  · split
    · exact .refl f
    next id _ _ =>
      have helect := sameLogs_elect hf id
      split
      next heq => rwa [heq] at helect
      next heq => rwa [heq] at helect

lemma sameLogs_isolate (failedRegion : ClusterRegion) : SameLogs f (f.isolate failedRegion) := by
  refine .of_nodes (fun _ node => { node with role := .follower }) (fun _ _ => ⟨rfl, rfl, rfl⟩) ?_
    fun id => ?_
  · unfold isolate
    rw [List.map_map]
    rfl
  · unfold isolate
    dsimp only
    split_ifs
    · exact .inr rfl
    · exact .inl rfl

lemma sameLogs_partition (hf : (f.members.map Prod.fst).Nodup) (failedRegion : ClusterRegion) :
    SameLogs f (f.handleRegionalPartition failedRegion).1 := by
  have hisolate := sameLogs_isolate (f := f) failedRegion
  have helect := sameLogs_elect (hisolate.1 ▸ hf)
  unfold handleRegionalPartition
  dsimp only
  split
  · exact hisolate
  next survivor _ _ =>
    split
    · exact hisolate
    · split
      · exact hisolate
      · split_ifs
        · have helect := hisolate.trans (helect survivor)
          split
          next heq => rwa [heq] at helect
          next heq => rwa [heq] at helect
        · exact hisolate

/-- A fresh node has applied nothing. -/
lemma kept_fresh (nodeId : NodeId) : ({ nodeId } : CommitteeRaftNode).Kept := by
  refine ⟨le_rfl, Int.one_pos, (fun _ hitem => by cases hitem), fun i hpos hle => ?_⟩
  have hle : i ≤ 0 := hle
  omega

lemma Sound.registerRegionalNode (h : f.Sound) (nodeId : NodeId) (region : ClusterRegion)
    (organizationId virtualIp : String) (latencyWeightMs : ℚ) :
    (f.registerRegionalNode nodeId region organizationId virtualIp latencyWeightMs).Sound := by
  have hnodes : ∀ id node,
      (f.registerRegionalNode nodeId region organizationId virtualIp latencyWeightMs).nodes id =
        some node → node = { nodeId } ∨ f.nodes id = some node := by
    intro id node hnode
    change Function.update f.nodes nodeId (some { nodeId }) id = some node at hnode
    by_cases hid : id = nodeId
    · subst hid
      rw [Function.update_self] at hnode
      exact .inl (Option.some.inj hnode).symm
    · rw [Function.update_of_ne hid] at hnode
      exact .inr hnode
  refine ⟨PySequence.setItem_nodup h.nodup _ _, fun id node hnode => ?_, ?_⟩
  · rcases hnodes id node hnode with rfl | hold
    · exact kept_fresh nodeId
    · exact h.kept id node hold
  · intro id other node peer hnode hpeer i x y hx hy
    rcases hnodes id node hnode with rfl | hold
    · cases hx
    · rcases hnodes other peer hpeer with rfl | hold'
      · cases hy
      · exact h.agree id other node peer hold hold' i x y hx hy

end Calls

/-- The append of a replication meets `Orderly` in the state in which it begins. -/
def AppendsInOrder (f : FederatedRaftMultiCluster) : Call → Prop
  | .replicate .. => ∀ leaderId leader, f.ensureLeader.2 = none →
      f.ensureLeader.1.currentCrossClusterLeader = some leaderId →
      f.ensureLeader.1.nodes leaderId = some leader → f.ensureLeader.1.Orderly leaderId leader
  | _ => True

variable {f : FederatedRaftMultiCluster}

/-- One call keeps the nodes in agreement. -/
theorem Sound.step (h : f.Sound) {call : Call} (hcall : f.AppendsInOrder call) :
    (f.step call).Sound := by
  cases call with
  | register nodeId region organizationId virtualIp latencyWeightMs =>
      exact h.registerRegionalNode ..
  | elect candidateId => exact h.of_sameLogs (sameLogs_elect h.nodup candidateId)
  | replicate entryType payload author =>
      have hstart := h.of_sameLogs (sameLogs_ensureLeader h.nodup)
      change (f.replicateCrossRegionEntry entryType payload author).1.Sound
      unfold replicateCrossRegionEntry
      dsimp only [AppendsInOrder] at hcall
      split
      next heq => rwa [heq] at hstart
      next g heq =>
        rw [heq] at hstart hcall
        dsimp only at hstart hcall
        split
        · exact hstart
        next leaderId leader hleader =>
          obtain ⟨id, hrecord, hnode⟩ := Option.bind_eq_some_iff.mp hleader
          obtain ⟨node, hsome, hpair⟩ := Option.map_eq_some_iff.mp hnode
          obtain ⟨rfl, rfl⟩ := Prod.mk.inj hpair
          exact hstart.appendOnLeader hsome (hcall id node rfl hrecord hsome) _ _ _
  | partition failedRegion => exact h.of_sameLogs (sameLogs_partition h.nodup failedRegion)

/-- A coordinator without members is sound. -/
lemma sound_initial (clusterName : String) :
    ({ clusterName } : FederatedRaftMultiCluster).Sound :=
  ⟨List.nodup_nil, (fun _ _ hnode => by cases hnode), (fun _ _ _ _ hnode => by cases hnode)⟩

/-- In every run whose appends are in order, no two nodes apply different entries at one index, and no
node passes an index whose entry it does not hold. -/
theorem orderly_runs_agree (clusterName : String) (calls : List Call)
    (hcalls : Throughout AppendsInOrder { clusterName } calls) :
    (run { clusterName } calls).Agree ∧
      ∀ id node, (run { clusterName } calls).nodes id = some node → node.Kept := by
  have hsound : (run { clusterName } calls).Sound :=
    run_induction (fun _ _ h hcall => h.step hcall) (sound_initial clusterName) hcalls
  exact ⟨hsound.agree, hsound.kept⟩

/-- Two nodes that have not applied anything yet. -/
def twoNodes : FederatedRaftMultiCluster :=
  run {} [.register "a" .usEast "org" "10.244.0.1" 10, .register "b" .euCentral "org" "10.244.0.2" 10]

lemma twoNodes_nodes {id : NodeId} {node : CommitteeRaftNode} (h : twoNodes.nodes id = some node) :
    node.log = [genesis] ∧ node.lastApplied = 0 ∧ node.applied = [] := by
  change Function.update (Function.update (fun _ => none) "a" (some { nodeId := "a" })) "b"
    (some { nodeId := "b" }) id = some node at h
  rw [Function.update_apply, Function.update_apply] at h
  split_ifs at h
  · obtain rfl := Option.some.inj h
    exact ⟨rfl, rfl, rfl⟩
  · obtain rfl := Option.some.inj h
    exact ⟨rfl, rfl, rfl⟩

/-- The first replication to two fresh nodes is in order. -/
theorem orderly_runs_agree_replicated :
    (run {} [.register "a" .usEast "org" "10.244.0.1" 10,
      .register "b" .euCentral "org" "10.244.0.2" 10, .replicate .configuration [] none]).Agree := by
  refine (orderly_runs_agree "federated-global-mesh" [.register "a" .usEast "org" "10.244.0.1" 10,
    .register "b" .euCentral "org" "10.244.0.2" 10, .replicate .configuration [] none]
    ⟨trivial, trivial, ?_, trivial⟩).1
  intro leaderId leader _ hrecord hleader
  have hstart : twoNodes.ensureLeader.1.currentCrossClusterLeader = some "a" := by decide +kernel
  obtain rfl : leaderId = "a" := Option.some.inj (hrecord.symm.trans hstart)
  have hfresh : ∀ id node, twoNodes.ensureLeader.1.nodes id = some node →
      node.log = [genesis] ∧ node.lastApplied = 0 ∧ node.applied = [] := by
    intro id node hnode
    obtain ⟨before, hbefore, hlog, hlast, happlied⟩ :=
      (sameLogs_ensureLeader (f := twoNodes) (by decide +kernel)).2 id node hnode
    rw [hlog, hlast, happlied]
    exact twoNodes_nodes hbefore
  have hpeers : twoNodes.ensureLeader.1.peersOf "a" =
      [("b", ⟨"b", .euCentral, "org", "10.244.0.2", 10, true⟩)] := by decide +kernel
  have hterms : ((twoNodes.ensureLeader.1.nodes "a").map CommitteeRaftNode.currentTerm = some 1) ∧
      (twoNodes.ensureLeader.1.nodes "b").map CommitteeRaftNode.currentTerm = some 1 := by
    decide +kernel
  have hterm : leader.currentTerm = 1 := by
    have hmap := hterms.1
    rw [show twoNodes.ensureLeader.1.nodes "a" = some leader from hleader] at hmap
    exact Option.some.inj hmap
  have hpeer : ∀ peer, twoNodes.ensureLeader.1.Peer "a" peer →
      peer.log = [genesis] ∧ peer.currentTerm = 1 := by
    rintro peer ⟨item, hitem, hnode⟩
    rw [hpeers] at hitem
    obtain rfl := List.mem_singleton.mp hitem
    have hmap := hterms.2
    rw [show twoNodes.ensureLeader.1.nodes "b" = some peer from hnode] at hmap
    exact ⟨(hfresh "b" peer hnode).1, Option.some.inj hmap⟩
  have hlog := (hfresh "a" leader hleader).1
  refine ⟨fun peer hp _ => ⟨?_, ?_⟩, fun peer hp _ => ⟨?_, ?_⟩, fun _ peer hp => .inl ⟨?_, ?_⟩, ?_⟩
  · exact fun hnot => absurd (by rw [Follows, hlog, (hpeer peer hp).1]) hnot
  · simp [hlog, (hpeer peer hp).1]
  · intro k _ _ hk
    rw [hlog, (hpeer peer hp).1]
  · simp [hlog, (hpeer peer hp).1]
  · rw [(hpeer peer hp).2, hterm]
  · rw [Follows, hlog, (hpeer peer hp).1]
  · intro _ id node hnode item hitem
    rw [(hfresh id node hnode).2.2] at hitem
    cases hitem

/-! ## Runs that break it -/

/-- Every registration of the run has a new id. -/
def RegistersNew (f : FederatedRaftMultiCluster) : Call → Prop
  | .register nodeId .. => nodeId ∉ f.members.map Prod.fst
  | _ => True

instance (f : FederatedRaftMultiCluster) (call : Call) : Decidable (f.RegistersNew call) := by
  cases call with
  | register nodeId => exact inferInstanceAs (Decidable (nodeId ∉ _))
  | _ => exact inferInstanceAs (Decidable True)

/-- A leader on its own commits an entry, and a node that joins is elected in the same term and commits
another one at the same index. -/
def replacedLeader : List Call :=
  [.register "a" .usEast "org" "10.244.0.1" 10, .replicate .configuration [] (some "x"),
    .register "b" .euCentral "org" "10.244.0.2" 10, .register "c" .apEast "org" "10.244.0.3" 10,
    .elect "b", .replicate .configuration [] (some "y")]

/-- A node that joins late refuses the second entry, and its commit index is set all the same. -/
def lateNode : List Call :=
  [.register "a" .usEast "org" "10.244.0.1" 10, .register "b" .euCentral "org" "10.244.0.2" 10,
    .replicate .configuration [] (some "x"), .register "c" .apEast "org" "10.244.0.3" 10,
    .replicate .configuration [] (some "y")]

/-- Runs that register new ids only, after which two nodes have applied different entries at index 1, or
a node has passed an index that it does not hold. -/
theorem nodes_disagree :
    (Throughout RegistersNew {} replacedLeader ∧ ¬ (run {} replacedLeader).Agree) ∧
    Throughout RegistersNew {} lateNode ∧
      ¬ ∀ id node, (run {} lateNode).nodes id = some node → node.Kept := by
  refine ⟨⟨by decide +kernel, fun hagree => ?_⟩, by decide +kernel, fun hkept => ?_⟩
  · have ha : ((run {} replacedLeader).nodes "a").map (fun node => node.applied.map fun item =>
        (item.1, item.2.authorNodeId)) = some [(1, "x")] := by decide +kernel
    have hb : ((run {} replacedLeader).nodes "b").map (fun node => node.applied.map fun item =>
        (item.1, item.2.authorNodeId)) = some [(1, "y")] := by decide +kernel
    obtain ⟨node, hnode, happlied⟩ := Option.map_eq_some_iff.mp ha
    obtain ⟨peer, hpeer, happlied'⟩ := Option.map_eq_some_iff.mp hb
    obtain ⟨⟨i, entry⟩, hentry, hpair⟩ := List.mem_map.mp (happlied ▸ List.mem_cons_self)
    obtain ⟨⟨i', entry'⟩, hentry', hpair'⟩ := List.mem_map.mp (happlied' ▸ List.mem_cons_self)
    obtain ⟨rfl, hauthor⟩ := Prod.mk.inj hpair
    obtain ⟨rfl, hauthor'⟩ := Prod.mk.inj hpair'
    have heq := hagree "a" "b" node peer hnode hpeer 1 entry entry' hentry hentry'
    dsimp only at hauthor hauthor'
    rw [heq, hauthor'] at hauthor
    exact absurd hauthor (by decide)
  · have hc : ((run {} lateNode).nodes "c").map (fun node => (node.lastApplied, node.log.length)) =
        some (2, 1) := by decide +kernel
    obtain ⟨node, hnode, hpair⟩ := Option.map_eq_some_iff.mp hc
    obtain ⟨hlast, hlen⟩ := Prod.mk.inj hpair
    have hwithin := (hkept "c" node hnode).within
    omega

end FederatedRaftMultiCluster

end AgentSystem.Raft
