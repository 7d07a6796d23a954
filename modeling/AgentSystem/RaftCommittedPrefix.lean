import AgentSystem.RaftVoteOnce

/-!
# When an `AppendEntries` message leaves the committed entries alone

The exact effect of the insertion loop at the indices a leader uses, the invariant of the log
indices over the runs of one node, and the messages under which a node keeps what it committed.
-/
namespace AgentSystem.Raft

/-- How many leading entries of a message the log already has in place, judged by their terms. -/
def matched : List CommitteeLogEntry → List CommitteeLogEntry → ℕ
  | old :: log, entry :: entries => if old.term = entry.term then matched log entries + 1 else 0
  | _, _ => 0

theorem matched_le (log entries : List CommitteeLogEntry) :
    matched log entries ≤ log.length ∧ matched log entries ≤ entries.length := by
  induction log generalizing entries with
  | nil => simp [matched]
  | cons old log ih =>
    cases entries with
    | nil => simp [matched]
    | cons entry entries =>
      have := ih entries
      simp only [matched, List.length_cons]
      split_ifs <;> omega

@[simp] theorem matched_nil (entries : List CommitteeLogEntry) : matched [] entries = 0 := by
  cases entries <;> rfl

/-- A matched entry stands in the log with its term. -/
theorem matched_term (log entries : List CommitteeLogEntry) {i : ℕ}
    (hi : i < matched log entries) :
    ∃ x y, log[i]? = some x ∧ entries[i]? = some y ∧ x.term = y.term := by
  induction log generalizing entries i with
  | nil => simp at hi
  | cons old log ih =>
    cases entries with
    | nil => simp [matched] at hi
    | cons entry entries =>
      simp only [matched] at hi
      split_ifs at hi with h
      · cases i with
        | zero => exact ⟨old, entry, rfl, rfl, h⟩
        | succ i => exact ih entries (by omega)
      · omega

/-- Behind the matched entries the log ends or has another term. -/
theorem matched_stop (log entries : List CommitteeLogEntry) {old entry : CommitteeLogEntry}
    (hold : log[matched log entries]? = some old)
    (hentry : entries[matched log entries]? = some entry) : old.term ≠ entry.term := by
  induction log generalizing entries with
  | nil => simp at hold
  | cons x log ih =>
    cases entries with
    | nil => simp at hentry
    | cons y entries =>
      simp only [matched] at hold hentry
      split_ifs at hold hentry with h
      · exact ih entries (by simpa using hold) (by simpa using hentry)
      · simp only [List.getElem?_cons_zero, Option.some.injEq] at hold hentry
        rw [← hold, ← hentry]
        exact h

namespace CommitteeRaftNode

/-- The log after the insertion loop: what was not matched replaces the rest of the log. -/
def spliced (log : List CommitteeLogEntry) (j : ℕ) (entries : List CommitteeLogEntry) :
    List CommitteeLogEntry :=
  if entries.length ≤ matched (log.drop j) entries then log
  else log.take (j + matched (log.drop j) entries) ++ entries.drop (matched (log.drop j) entries)

theorem insertEntries_end (log entries : List CommitteeLogEntry) :
    insertEntries log log.length entries = (log ++ entries, none) := by
  induction entries generalizing log with
  | nil => simp [insertEntries]
  | cons entry entries ih =>
    have hstep := ih (log ++ [entry])
    rw [List.length_append, List.length_singleton, Nat.cast_add, Nat.cast_one] at hstep
    rw [insertEntries, if_neg (lt_irrefl _), hstep, List.append_assoc, List.singleton_append]

/-- The insertion loop from a position inside the log or at its end. -/
theorem insertEntries_eq_spliced (log : List CommitteeLogEntry) (j : ℕ) (hj : j ≤ log.length)
    (entries : List CommitteeLogEntry) :
    insertEntries log j entries = (spliced log j entries, none) := by
  induction entries generalizing j with
  | nil => simp [insertEntries, spliced]
  | cons entry entries ih =>
    rcases hj.eq_or_lt with rfl | hlt
    · rw [insertEntries_end]
      simp [spliced]
    · have hget : PySequence.get log j = some log[j] := by simp [hlt]
      have hdrop : log.drop j = log[j] :: log.drop (j + 1) := List.drop_eq_getElem_cons hlt
      rw [insertEntries, if_pos (by exact_mod_cast hlt), hget]
      dsimp only
      by_cases hterm : log[j].term = entry.term
      · have hcast : (j : ℤ) + 1 = ((j + 1 : ℕ) : ℤ) := by push_cast; rfl
        rw [if_neg (not_not_intro hterm), hcast, ih (j + 1) hlt]
        unfold spliced
        rw [hdrop, matched, if_pos hterm]
        simp only [List.length_cons, Nat.add_le_add_iff_right, List.drop_succ_cons]
        rw [show j + 1 + matched (log.drop (j + 1)) entries =
          j + (matched (log.drop (j + 1)) entries + 1) by omega]
      · have hlen : ((log.take j ++ [entry]).length : ℤ) = (j : ℤ) + 1 := by
          simp [hlt.le]
        rw [if_pos hterm, PySequence.sliceTo_natCast, ← hlen, insertEntries_end]
        unfold spliced
        rw [hdrop, matched, if_neg hterm]
        simp

/-- Each entry carries its index, and the indices kept beside the log are in order. -/
structure LogInv (n : CommitteeRaftNode) : Prop where
  appliedNonneg : 0 ≤ n.lastApplied
  appliedLe : n.lastApplied ≤ n.commitIndex
  commitLe : n.commitIndex ≤ n.lastLogIndex
  indexed : ∀ (k : ℕ) e, n.log[k]? = some e → e.index = k

theorem LogInv.congr {n m : CommitteeRaftNode} (h : LogInv n) (hlog : m.log = n.log)
    (hcommit : m.commitIndex = n.commitIndex) (happlied : m.lastApplied = n.lastApplied) :
    LogInv m := by
  constructor
  · rw [happlied]
    exact h.appliedNonneg
  · rw [happlied, hcommit]
    exact h.appliedLe
  · rw [hcommit, lastLogIndex, hlog]
    exact h.commitLe
  · rw [hlog]
    exact h.indexed

/-- Moving the commit index forward inside the log keeps the indices in order. -/
theorem LogInv.applyCommitted {n : CommitteeRaftNode} {c : ℤ} (h : LogInv n)
    (hle : n.commitIndex ≤ c) (hlast : c ≤ n.lastLogIndex) :
    LogInv (applyCommittedEntries { n with commitIndex := c }).1 := by
  obtain ⟨a, m, j, heq⟩ := applyCommittedEntries_frame { n with commitIndex := c }
  have hrounds := applyRounds_lastApplied (c - n.lastApplied).toNat { n with commitIndex := c }
  change n.lastApplied ≤ (applyCommittedEntries { n with commitIndex := c }).1.lastApplied ∧
    (applyCommittedEntries { n with commitIndex := c }).1.lastApplied ≤ _ at hrounds
  rw [heq] at hrounds ⊢
  have h₀ := h.appliedNonneg
  have h₁ := h.appliedLe
  dsimp only at hrounds
  exact ⟨by dsimp only; omega, by dsimp only; omega, hlast, h.indexed⟩

theorem LogInv.advanceCommit {n : CommitteeRaftNode} (h : LogInv n) (leaderCommit : ℤ) :
    LogInv (n.advanceCommit leaderCommit).1 ∧
      n.commitIndex ≤ (n.advanceCommit leaderCommit).1.commitIndex ∧
      (n.advanceCommit leaderCommit).1.log = n.log := by
  unfold CommitteeRaftNode.advanceCommit
  split_ifs with hlt
  · have hle : n.commitIndex ≤ min leaderCommit n.lastLogIndex := le_min hlt.le h.commitLe
    refine ⟨h.applyCommitted hle (min_le_right _ _), ?_⟩
    obtain ⟨a, m, j, heq⟩ := applyCommittedEntries_frame
      { n with commitIndex := min leaderCommit n.lastLogIndex }
    rw [heq]
    exact ⟨hle, rfl⟩
  · exact ⟨h, le_rfl, rfl⟩

/-- No entry up to the commit index was removed or replaced, the commit index did not fall, and
the log indices are in order. -/
structure PrefixKept (n m : CommitteeRaftNode) : Prop where
  kept : n.log.take (n.commitIndex + 1).toNat <+: m.log
  commit : n.commitIndex ≤ m.commitIndex
  inv : LogInv m

/-- The entries that a message would put behind the matched ones carry their index, and none of
them replaces a committed entry. -/
def SafeToInsert (n : CommitteeRaftNode) (j : ℕ) (entries : List CommitteeLogEntry) : Prop :=
  entries.length ≤ matched (n.log.drop j) entries ∨
    (n.commitIndex < j + matched (n.log.drop j) entries ∧
      ∀ i < entries.length, matched (n.log.drop j) entries ≤ i →
        ∀ e ∈ entries[i]?, e.index = j + i)

instance (n : CommitteeRaftNode) (j : ℕ) (entries : List CommitteeLogEntry) :
    Decidable (n.SafeToInsert j entries) :=
  inferInstanceAs (Decidable (_ ∨ _))

/-- What a message must meet once it passed the term check: where its previous entry has another
term, that entry is uncommitted; where it has the same term, the entries that follow are safe to
insert, and they are not inserted at a position counted from the end of the log. -/
def Benign (n : CommitteeRaftNode) (args : AppendEntriesArgs) : Prop :=
  ∀ k ∈ PySequence.position n.log.length args.prevLogIndex, ∀ prev ∈ n.log[k]?,
    if prev.term ≠ args.prevLogTerm then n.commitIndex < k
    else args.entries.length = 0 ∨
      (-1 ≤ args.prevLogIndex ∧ n.SafeToInsert (args.prevLogIndex + 1).toNat args.entries)

instance (n : CommitteeRaftNode) (args : AppendEntriesArgs) : Decidable (n.Benign args) :=
  inferInstanceAs (Decidable (∀ k ∈ _, ∀ prev ∈ n.log[k]?, ite _ _ _))

theorem LogInv.take_commit {n : CommitteeRaftNode} (h : LogInv n) :
    (n.log.take (n.commitIndex + 1).toNat).length = (n.commitIndex + 1).toNat := by
  have h₀ := h.appliedNonneg
  have h₁ := h.appliedLe
  have h₂ := h.commitLe
  unfold lastLogIndex at h₂
  rw [List.length_take]
  omega

/-- A log that keeps the committed entries and the indices keeps the invariant. -/
theorem LogInv.of_kept {n : CommitteeRaftNode} (h : LogInv n) {l : List CommitteeLogEntry}
    (hkept : n.log.take (n.commitIndex + 1).toNat <+: l)
    (hindex : ∀ (k : ℕ) e, l[k]? = some e → e.index = k) : LogInv { n with log := l } := by
  refine ⟨h.appliedNonneg, h.appliedLe, ?_, hindex⟩
  have hlen := hkept.length_le
  rw [h.take_commit] at hlen
  have h₀ := h.appliedNonneg
  have h₁ := h.appliedLe
  simp only [lastLogIndex]
  omega

/-- `SafeToInsert` is exactly when the splice keeps the committed entries and the indices. -/
theorem safeToInsert_iff {n : CommitteeRaftNode} (h : LogInv n) {j : ℕ} (hj : j ≤ n.log.length)
    (entries : List CommitteeLogEntry) :
    n.SafeToInsert j entries ↔
      n.log.take (n.commitIndex + 1).toNat <+: spliced n.log j entries ∧
        ∀ (k : ℕ) e, (spliced n.log j entries)[k]? = some e → e.index = k := by
  obtain ⟨hold, hnew⟩ := matched_le (n.log.drop j) entries
  rw [List.length_drop] at hold
  have hlen := h.take_commit
  have h₀ := h.appliedNonneg
  have h₁ := h.appliedLe
  unfold SafeToInsert spliced
  set w := matched (n.log.drop j) entries with hw
  by_cases hall : entries.length ≤ w
  · simp only [hall, if_true, true_or, true_iff]
    exact ⟨List.take_prefix _ _, h.indexed⟩
  · rw [if_neg hall]
    simp only [hall, false_or]
    have htake : (n.log.take (j + w)).length = j + w := by
      rw [List.length_take]
      omega
    constructor
    · rintro ⟨hcommit, hindex⟩
      constructor
      · exact (List.take_prefix_take_left (by omega)).trans (List.prefix_append _ _)
      · intro k e hk
        by_cases hlt : k < j + w
        · rw [List.getElem?_append_left (by omega), List.getElem?_take_of_lt hlt] at hk
          exact h.indexed k e hk
        · rw [List.getElem?_append_right (by omega), htake, List.getElem?_drop] at hk
          obtain ⟨hlen', _⟩ := List.getElem?_eq_some_iff.mp hk
          rw [hindex _ hlen' (by omega) e hk]
          omega
    · rintro ⟨hkept, hindex⟩
      constructor
      · -- otherwise the first entry that was not matched stands at a committed index
        by_contra hge
        have hin : j + w < n.log.length := by
          rw [List.length_take] at hlen
          omega
        have hat : (n.log.take (n.commitIndex + 1).toNat)[j + w]? = some n.log[j + w] := by
          rw [List.getElem?_take_of_lt (by omega), List.getElem?_eq_getElem hin]
        have hthere := PySequence.getElem?_of_isPrefix hkept hat
        rw [List.getElem?_append_right (by omega), htake, List.getElem?_drop, Nat.sub_self,
          Nat.add_zero] at hthere
        have hfound : (n.log.drop j)[w]? = some n.log[j + w] := by
          rw [List.getElem?_drop, List.getElem?_eq_getElem hin]
        exact matched_stop (n.log.drop j) entries hfound hthere rfl
      · intro i _ hi e he
        have hplace : (n.log.take (j + w) ++ entries.drop w)[j + i]? = some e := by
          rw [List.getElem?_append_right (by omega), htake, List.getElem?_drop,
            show w + (j + i - (j + w)) = i by omega]
          exact he
        rw [hindex _ e hplace]
        push_cast
        rfl

theorem PrefixKept.of_eq {n m : CommitteeRaftNode} (h : LogInv n) (hlog : m.log = n.log)
    (hcommit : m.commitIndex = n.commitIndex) (happlied : m.lastApplied = n.lastApplied) :
    PrefixKept n m :=
  ⟨hlog ▸ List.take_prefix _ _, hcommit.ge, h.congr hlog hcommit happlied⟩

/-- Changing only the log keeps the committed prefix exactly if the new log has it and carries
its indices. -/
theorem prefixKept_setLog {n : CommitteeRaftNode} (h : LogInv n) (l : List CommitteeLogEntry) :
    PrefixKept n { n with log := l } ↔
      n.log.take (n.commitIndex + 1).toNat <+: l ∧ ∀ (k : ℕ) e, l[k]? = some e → e.index = k :=
  ⟨fun hk => ⟨hk.kept, hk.inv.indexed⟩, fun hl => ⟨hl.1, le_rfl, h.of_kept hl.1 hl.2⟩⟩

/-- A commit that follows keeps the prefix, and hides no loss. -/
theorem prefixKept_advanceCommit {n : CommitteeRaftNode} (h : LogInv n)
    (l : List CommitteeLogEntry) (leaderCommit : ℤ) :
    PrefixKept n ({ n with log := l }.advanceCommit leaderCommit).1 ↔
      PrefixKept n { n with log := l } := by
  have hframe := advanceCommit_frame { n with log := l } leaderCommit
  constructor
  · intro hk
    obtain ⟨c, a, m, j, heq⟩ := hframe
    rw [heq] at hk
    exact (prefixKept_setLog h l).mpr ⟨hk.kept, hk.inv.indexed⟩
  · intro hk
    obtain ⟨hinv, hcommit, hlog⟩ := hk.inv.advanceCommit leaderCommit
    exact ⟨by rw [hlog]; exact hk.kept, hcommit, hinv⟩

theorem matchAndAppend_kept {n : CommitteeRaftNode} (h : LogInv n) (args : AppendEntriesArgs) :
    (n.Benign args → PrefixKept n (n.matchAndAppend args).1) ∧
      (-1 ≤ args.prevLogIndex ∨ args.entries = [] →
        PrefixKept n (n.matchAndAppend args).1 → n.Benign args) := by
  rcases n.matchAndAppend_cases args with ⟨hpos, hnode, _⟩ | ⟨k, prev, hpos, hk, hends⟩
  · rw [hnode]
    exact ⟨fun _ => PrefixKept.of_eq h rfl rfl rfl, fun _ _ k prev hsome => by simp_all⟩
  have hbenign : n.Benign args ↔ (if prev.term ≠ args.prevLogTerm then n.commitIndex < k
      else args.entries.length = 0 ∨ (-1 ≤ args.prevLogIndex ∧
        n.SafeToInsert (args.prevLogIndex + 1).toNat args.entries)) := by
    constructor
    · exact fun hb => hb k hpos prev hk
    · intro hb k' hpos' prev' hk'
      obtain rfl : k = k' := Option.some.inj (hpos.symm.trans hpos')
      obtain rfl : prev = prev' := Option.some.inj (hk.symm.trans hk')
      exact hb
  have hklt : k < n.log.length := PySequence.position_lt hpos
  rw [hbenign]
  rcases hends with ⟨hterm, hnode, _⟩ | ⟨hterm, hends⟩
  · rw [hnode, if_pos hterm, prefixKept_setLog h]
    have h₀ := h.appliedNonneg
    have h₁ := h.appliedLe
    constructor
    · intro hlt
      refine ⟨List.take_prefix_take_left (by omega), fun i e hi => ?_⟩
      exact h.indexed i e (PySequence.getElem?_of_isPrefix (List.take_prefix _ _) hi)
    · rintro _ ⟨hkept, _⟩
      have hlen := hkept.length_le
      rw [h.take_commit, List.length_take] at hlen
      omega
  · rw [if_neg (not_not_intro hterm)]
    by_cases hnil : args.entries = []
    · obtain ⟨hnode, _⟩ := hends n.log (by rw [hnil]; rfl)
      rw [hnode, prefixKept_advanceCommit h]
      exact ⟨fun _ => PrefixKept.of_eq h rfl rfl rfl, fun _ _ => Or.inl (by rw [hnil]; rfl)⟩
    · by_cases hprev : -1 ≤ args.prevLogIndex
      · have hj : (args.prevLogIndex + 1).toNat ≤ n.log.length := by
          by_contra hlong
          rw [PySequence.position_of_le (by omega)] at hpos
          cases hpos
        obtain ⟨hnode, _⟩ := hends (spliced n.log (args.prevLogIndex + 1).toNat args.entries) (by
          rw [← insertEntries_eq_spliced n.log _ hj, Int.toNat_of_nonneg (by omega)])
        rw [hnode, prefixKept_advanceCommit h, prefixKept_setLog h, ← safeToInsert_iff h hj]
        simp [hnil, hprev]
      · simp [hnil, hprev]

/-- The condition on a message: if it gets past the chaos, attestation and term checks, it is
benign. -/
def Respects (n : CommitteeRaftNode) (blocked : Bool) (v : View) (args : AppendEntriesArgs) :
    Prop :=
  blocked = false → v.attested args.leaderId = true → n.currentTerm ≤ args.term → n.Benign args

theorem handleAppendEntries_kept {n : CommitteeRaftNode} (h : LogInv n) (blocked : Bool)
    (v : View) (args : AppendEntriesArgs) :
    (n.Respects blocked v args → PrefixKept n (n.handleAppendEntries blocked v args).1) ∧
      (-1 ≤ args.prevLogIndex ∨ args.entries = [] →
        PrefixKept n (n.handleAppendEntries blocked v args).1 → n.Respects blocked v args) := by
  have hsame : PrefixKept n n := PrefixKept.of_eq h rfl rfl rfl
  unfold handleAppendEntries Respects
  split_ifs with hblocked hattested
  · exact ⟨fun _ => hsame, fun _ _ hfree => by simp [hblocked] at hfree⟩
  · rcases n.followLeader_cases args with ⟨hstale, _, heq⟩ | ⟨hterm, heq⟩
    · rw [heq]
      exact ⟨fun _ => hsame, fun _ _ _ _ hterm => absurd hterm (not_le.mpr hstale)⟩
    · rw [heq]
      -- stepping down and following change neither the log nor the indices beside it
      have hfields : ({ n.recognizeLeader args with leaderId := args.leaderId }).log = n.log ∧
          ({ n.recognizeLeader args with leaderId := args.leaderId }).commitIndex =
            n.commitIndex ∧
          ({ n.recognizeLeader args with leaderId := args.leaderId }).lastApplied =
            n.lastApplied := by
        unfold recognizeLeader
        split_ifs <;> exact ⟨rfl, rfl, rfl⟩
      generalize ({ n.recognizeLeader args with leaderId := args.leaderId } :
        CommitteeRaftNode) = m at hfields ⊢
      obtain ⟨hlog, hcommit, happlied⟩ := hfields
      have hkept := matchAndAppend_kept (h.congr hlog hcommit happlied) args
      have hbenign : m.Benign args ↔ n.Benign args := by
        unfold Benign SafeToInsert
        rw [hlog, hcommit]
      have hprefix : ∀ x, PrefixKept m x ↔ PrefixKept n x := by
        refine fun x => ⟨fun hx => ⟨?_, ?_, hx.inv⟩, fun hx => ⟨?_, ?_, hx.inv⟩⟩
        · exact hlog ▸ hcommit ▸ hx.kept
        · exact hcommit ▸ hx.commit
        · exact hlog ▸ hcommit ▸ hx.kept
        · exact hcommit ▸ hx.commit
      rw [← hbenign, ← hprefix]
      exact ⟨fun hb => hkept.1 (hb (by simpa using hblocked) hattested hterm),
        fun hpos hk _ _ _ => hkept.2 hpos hk⟩
  · exact ⟨fun _ => hsame, fun _ _ _ hfalse => absurd hfalse hattested⟩

theorem LogInv.nextAppend {n : CommitteeRaftNode} (h : LogInv n) (newIndex : ℤ)
    (entry : CommitteeLogEntry) (quorum : ℕ) (ackers peers : List NodeId)
    (hend : peers = [] → quorum ≤ ackers.length →
      n.commitIndex ≤ newIndex ∧ newIndex ≤ n.lastLogIndex) :
    LogInv (n.nextAppend newIndex entry quorum ackers peers).1 := by
  unfold CommitteeRaftNode.nextAppend
  cases peers with
  | nil =>
    dsimp only
    split_ifs with hquorum
    · obtain ⟨hlo, hhi⟩ := hend rfl hquorum
      split <;> exact h.applyCommitted hlo hhi
    · exact h
  | cons p rest =>
    dsimp only
    split <;> exact h

theorem LogInv.proposeEntry {n : CommitteeRaftNode} (h : LogInv n) (v w : View)
    (entryType : CommitteeEntryType) (payload : Payload) (author : Option NodeId) :
    LogInv (n.proposeEntry v w entryType payload author).1 := by
  unfold CommitteeRaftNode.proposeEntry
  split_ifs
  · exact h
  · have hle := h.commitLe
    unfold lastLogIndex at hle
    have hinv : LogInv { n with log := n.log ++ [n.newEntry entryType payload author] } := by
      refine ⟨h.appliedNonneg, h.appliedLe, ?_, ?_⟩
      · simp only [lastLogIndex, List.length_append, List.length_singleton]
        push_cast
        omega
      · intro k e hk
        rcases lt_trichotomy k n.log.length with hlt | rfl | hgt
        · rw [List.getElem?_append_left hlt] at hk
          exact h.indexed k e hk
        · simp only [List.getElem?_concat_length, Option.some.injEq] at hk
          rw [← hk]
          rfl
        · rw [List.getElem?_eq_none (by simp; omega)] at hk
          cases hk
    refine hinv.nextAppend _ _ _ _ _ fun _ _ => ?_
    simp only [lastLogIndex, List.length_append, List.length_singleton]
    push_cast
    omega

end CommitteeRaftNode

open CommitteeRaftNode

/-- The inputs under which a node keeps what it committed: messages it can obey without losing
any of it, and no commit of a proposal whose entry has left the log. -/
def KeepsCommitted (s : Site) : Input → Prop
  | .appendEntries blocked v args => s.node.Respects blocked v args
  | .appendReturned reply => ∀ c, s.proposal = some c → c.remaining = [] →
      c.quorum ≤ (c.counted reply).length →
      s.node.commitIndex ≤ c.newIndex ∧ c.newIndex ≤ s.node.lastLogIndex
  | _ => True

theorem LogInv.site_step {s s' : Site} {i : Input} {o : Output} (h : LogInv s.node)
    (hi : KeepsCommitted s i) (run : s.step i = some (s', o)) : LogInv s'.node := by
  cases i with
  | startElection v w =>
    rw [Site.afterElection_node (Site.step_startElection run).2]
    unfold startElection
    dsimp only
    split_ifs
    · exact h.congr rfl rfl rfl
    · split <;> exact h.congr rfl rfl rfl
  | voteReturned w reply =>
    obtain ⟨c, _, run⟩ := Site.step_voteReturned run
    rw [Site.afterElection_node run]
    unfold voteReturned
    cases reply with
    | none => exact h
    | some reply =>
      dsimp only
      split_ifs <;> exact h.congr rfl rfl rfl
  | proposeEntry v w entryType payload author =>
    rw [Site.afterProposal_node (Site.step_proposeEntry run).2]
    exact h.proposeEntry v w entryType payload author
  | appendReturned reply =>
    obtain ⟨c, hc, run⟩ := Site.step_appendReturned run
    have hend := hi c hc
    rw [Site.afterProposal_node run]
    unfold appendReturned
    cases reply with
    | none => exact h.nextAppend _ _ _ _ _ hend
    | some reply =>
      dsimp only
      unfold Proposal.counted at hend
      split_ifs with _ hok
      · exact h.congr rfl rfl rfl
      · have hinv : LogInv (s.node.recordAck c.awaiting reply.matchIndex) := h.congr rfl rfl rfl
        refine hinv.nextAppend _ _ _ _ _ fun hlast hquorum => hend hlast ?_
        simpa [hok] using hquorum
      · have hinv : LogInv (s.node.recordRefusal c.awaiting c.newIndex) := h.congr rfl rfl rfl
        refine hinv.nextAppend _ _ _ _ _ fun hlast hquorum => hend hlast ?_
        simpa [hok] using hquorum
  | requestVote blocked v args =>
    obtain ⟨rfl, _⟩ := Site.afterVote_cases (Site.step_requestVote run)
    dsimp only
    unfold handleRequestVote
    have hcatch : LogInv (s.node.catchUp args.term) := by
      unfold catchUp
      split_ifs <;> exact h.congr rfl rfl rfl
    split_ifs
    · exact h
    · rcases s.node.considerVote_cases args with ⟨_, _, heq⟩ | ⟨_, _, heq⟩ | ⟨_, _, heq⟩ |
        ⟨_, _, _, heq⟩
      · rw [heq]
        exact h
      · rw [heq]
        exact hcatch
      · rw [heq]
        exact hcatch
      · rw [heq]
        exact hcatch.congr rfl rfl rfl
    · exact h
  | appendEntries blocked v args =>
    obtain ⟨rfl, _⟩ := Site.afterAppend_cases (Site.step_appendEntries run)
    exact ((handleAppendEntries_kept h blocked v args).1 hi).inv

theorem SiteRun.logInv {s : Site} (h : SiteRun KeepsCommitted s) : LogInv s.node := by
  induction h with
  | fresh nodeId =>
    refine ⟨le_rfl, le_rfl, le_rfl, fun k e hk => ?_⟩
    match k with
    | 0 =>
      obtain rfl : genesis = e := by simpa [Site.fresh] using hk
      rfl
    | k + 1 => simp [Site.fresh] at hk
  | step _ allowed run ih => exact LogInv.site_step ih allowed run

/-- In every run whose messages can be obeyed without losing what is committed, each message is
obeyed so, and the log indices stay in order. -/
theorem committed_prefix_kept {s : Site} (h : SiteRun KeepsCommitted s) :
    LogInv s.node ∧ ∀ blocked v args, s.node.Respects blocked v args →
      PrefixKept s.node (s.node.handleAppendEntries blocked v args).1 :=
  ⟨h.logInv, fun blocked v args => (handleAppendEntries_kept h.logInv blocked v args).1⟩

/-- A node on its own. -/
def solo : View := .full ["a"]

/-- A follower takes over two entries and commits one of them. -/
theorem committed_prefix_kept_follower :
    PrefixKept { nodeId := "b", currentTerm := 1, leaderId := some "a" }
      (CommitteeRaftNode.handleAppendEntries
        { nodeId := "b", currentTerm := 1, leaderId := some "a" } false trio ⟨1, "a", 0, 0,
          [⟨1, 1, .configuration, "a", []⟩, ⟨2, 1, .configuration, "a", []⟩], 1⟩).1 := by
  have h₀ := SiteRun.fresh (P := KeepsCommitted) "b"
  have h₁ := h₀.step (i := .appendEntries false trio ⟨1, "a", 0, 0, [], 0⟩)
    (fun _ _ _ => by decide) rfl
  exact (committed_prefix_kept h₁).2 false trio _ fun _ _ _ => by decide

/-- A leader that committed its entry at index 1 drops it when a message of a later term names
another term for index 1. -/
theorem committed_entry_dropped : ¬ ∀ s, SiteRun (fun _ _ => True) s → ∀ blocked v args,
    PrefixKept s.node (s.node.handleAppendEntries blocked v args).1 := by
  intro hkept
  have h₀ := SiteRun.fresh (P := fun _ _ => True) "a"
  have h₁ := h₀.step (i := .startElection solo solo) trivial rfl
  have h₂ := h₁.step (i := .proposeEntry solo solo .configuration [] none) trivial rfl
  have hlast := (hkept _ h₂ false trio ⟨5, "b", 1, 7, [], 0⟩).inv.commitLe
  exact absurd hlast (by decide)

end AgentSystem.Raft
