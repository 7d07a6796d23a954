import AgentSystem.AuditDaemon
import AgentSystem.AuditIntegrity

/-!
# Synchronised ledgers

When a ping that records its sender as synchronized tells the truth. The count covers the rows of
the default tenant only, and the root of every invalid chain is that of an empty one.
-/
namespace AgentSystem.Audit

open Json Sha256

variable {D : Type} [Interpreter D] {d peer : Daemon} {seen : String}

/-- A ping records its sender as synchronized if the counts and the roots agree. -/
lemma peerState_synchronized :
    (∃ state, d.peerState D (peer.broadcastStatus D) seen = some state ∧
        state.status = .synchronized) ↔
      ¬ (peer.nodeId = "" ∨ peer.nodeId = d.nodeId) ∧ peer.localCount = d.localCount ∧
        (peer.ledger.verifyChainIntegrity D).merkleRoot =
          (d.ledger.verifyChainIntegrity D).merkleRoot := by
  unfold Daemon.peerState Daemon.broadcastStatus
  dsimp only
  by_cases hignored : peer.nodeId = "" ∨ peer.nodeId = d.nodeId
  · simp [hignored]
  · simp only [if_neg hignored, Option.some.injEq, exists_eq_left']
    split_ifs with hsync hahead
    · exact iff_of_true rfl ⟨hignored, hsync⟩
    · exact iff_of_false (by simp) fun h => hsync h.2
    · exact iff_of_false (by simp) fun h => hsync h.2

/-- The strings that are hashed for the chain of a ledger and for its tree. -/
def Ledger.inputs (D : Type) [Interpreter D] (l : Ledger) : List String :=
  l.rows.map (Row.checkedInput D) ++ treeInputs l.hashes

section Roots

variable {l l' : Ledger}

lemma hashes_eq_nil : l.hashes = [] ↔ l.rows = [] := List.map_eq_nil_iff

/-- Only an empty ledger and an invalid one report the root of an empty tree. -/
lemma root_eq_zero (resistant : Resistant (l.inputs D)) :
    (l.verifyChainIntegrity D).merkleRoot = zeroHash ↔
      ((l.verifyChainIntegrity D).valid = true → l.rows = []) := by
  rw [verifyChainIntegrity_root]
  by_cases hvalid : (l.verifyChainIntegrity D).valid = true
  · rw [if_pos hvalid]
    simp only [hvalid, true_imp_iff]
    constructor
    · intro hroot
      by_contra hne
      exact buildTree_ne_zero (fun h => hne (hashes_eq_nil.mp h))
        (resistant.mono fun s hs => List.mem_append_right _ hs) hroot
    · intro hempty
      rw [hashes_eq_nil.mpr hempty, buildTree, if_pos rfl]
  · rw [if_neg hvalid]
    exact iff_of_true rfl fun h => absurd h hvalid

/-- Valid ledgers with one root hold the same hashes. -/
lemma hashes_eq_of_root (hvalid : (l.verifyChainIntegrity D).valid = true)
    (hvalid' : (l'.verifyChainIntegrity D).valid = true)
    (resistant : Resistant (l.inputs D ++ l'.inputs D))
    (hroot : (l.verifyChainIntegrity D).merkleRoot = (l'.verifyChainIntegrity D).merkleRoot) :
    l.hashes = l'.hashes := by
  rw [verifyChainIntegrity_root, verifyChainIntegrity_root, if_pos hvalid, if_pos hvalid'] at hroot
  have hchain := verifyChainIntegrity_valid.mp hvalid
  have hchain' := verifyChainIntegrity_valid.mp hvalid'
  refine buildTree_injective (List.forall_mem_map.mpr (currentHash_length hchain))
    (List.forall_mem_map.mpr (currentHash_length hchain'))
    (currentHash_nodup hchain (resistant.mono ?_)) (currentHash_nodup hchain' (resistant.mono ?_))
    (resistant.mono ?_) hroot
  · exact fun s hs => List.mem_append_left _ (List.mem_append_left _ hs)
  · exact fun s hs => List.mem_append_right _ (List.mem_append_left _ hs)
  · intro s hs
    exact (List.mem_append.mp hs).elim
      (fun h => List.mem_append_left _ (List.mem_append_right _ h))
      fun h => List.mem_append_right _ (List.mem_append_right _ h)

/-- Two ledgers report one root if both are valid with the same hashes, or if one is invalid and
the other one invalid or empty. -/
lemma roots_eq_iff (resistant : Resistant (l.inputs D ++ l'.inputs D)) :
    (l'.verifyChainIntegrity D).merkleRoot = (l.verifyChainIntegrity D).merkleRoot ↔
      (l.verifyChainIntegrity D).valid = true ∧ (l'.verifyChainIntegrity D).valid = true ∧
          l.hashes = l'.hashes ∨
        ¬ ((l.verifyChainIntegrity D).valid = true ∧ (l'.verifyChainIntegrity D).valid = true) ∧
          ((l.verifyChainIntegrity D).valid = true → l.rows = []) ∧
          ((l'.verifyChainIntegrity D).valid = true → l'.rows = []) := by
  rw [← root_eq_zero (resistant.mono fun s hs => List.mem_append_left _ hs),
    ← root_eq_zero (resistant.mono fun s hs => List.mem_append_right _ hs)]
  have hinvalid {ledger : Ledger} (h : ¬ (ledger.verifyChainIntegrity D).valid = true) :
      (ledger.verifyChainIntegrity D).merkleRoot = zeroHash := by
    rw [verifyChainIntegrity_root, if_neg h]
  constructor
  · intro hroot
    by_cases hvalid : (l.verifyChainIntegrity D).valid = true
    · by_cases hvalid' : (l'.verifyChainIntegrity D).valid = true
      · exact .inl ⟨hvalid, hvalid', hashes_eq_of_root hvalid hvalid' resistant hroot.symm⟩
      · exact .inr ⟨fun h => hvalid' h.2, hroot ▸ hinvalid hvalid', hinvalid hvalid'⟩
    · exact .inr ⟨fun h => hvalid h.1, hinvalid hvalid, hroot.trans (hinvalid hvalid)⟩
  · rintro (⟨hvalid, hvalid', hhashes⟩ | ⟨-, hzero, hzero'⟩)
    · rw [verifyChainIntegrity_root, verifyChainIntegrity_root, if_pos hvalid, if_pos hvalid',
        hhashes]
    · rw [hzero, hzero']

end Roots

/-- A ping that records its sender as synchronized tells the truth about both ledgers, unless the
counts agree and both chains are invalid, or one is invalid and the other ledger is empty. -/
theorem synchronized_honest (resistant : Resistant (d.ledger.inputs D ++ peer.ledger.inputs D)) :
    (∀ state, d.peerState D (peer.broadcastStatus D) seen = some state →
        state.status = .synchronized →
          (d.ledger.verifyChainIntegrity D).valid = true ∧
            (peer.ledger.verifyChainIntegrity D).valid = true ∧
            d.ledger.hashes = peer.ledger.hashes) ↔
      peer.nodeId = "" ∨ peer.nodeId = d.nodeId ∨ peer.localCount ≠ d.localCount ∨
        ((d.ledger.verifyChainIntegrity D).valid = true ∨
            (peer.ledger.verifyChainIntegrity D).valid = true) ∧
          (d.ledger.rows = [] → (peer.ledger.verifyChainIntegrity D).valid = true) ∧
          (peer.ledger.rows = [] → (d.ledger.verifyChainIntegrity D).valid = true) := by
  have hrecorded := @peerState_synchronized D _ d peer seen
  rw [roots_eq_iff resistant] at hrecorded
  have hexists : (∀ state, d.peerState D (peer.broadcastStatus D) seen = some state →
      state.status = .synchronized →
        (d.ledger.verifyChainIntegrity D).valid = true ∧
          (peer.ledger.verifyChainIntegrity D).valid = true ∧
          d.ledger.hashes = peer.ledger.hashes) ↔
      ((∃ state, d.peerState D (peer.broadcastStatus D) seen = some state ∧
        state.status = .synchronized) →
        (d.ledger.verifyChainIntegrity D).valid = true ∧
          (peer.ledger.verifyChainIntegrity D).valid = true ∧
          d.ledger.hashes = peer.ledger.hashes) := by
    simp only [forall_exists_index, and_imp]
  rw [hexists, hrecorded]
  constructor
  · intro h
    by_contra hcondition
    simp only [not_or, not_not] at hcondition
    obtain ⟨hempty, hself, hcount, hbad⟩ := hcondition
    have hsound : ¬ ((d.ledger.verifyChainIntegrity D).valid = true ∧
        (peer.ledger.verifyChainIntegrity D).valid = true) :=
      fun hboth => hbad ⟨.inl hboth.1, fun _ => hboth.2, fun _ => hboth.1⟩
    have hhonest := h ⟨not_or.mpr ⟨hempty, hself⟩, hcount, .inr ⟨hsound, fun hvalid => ?_,
      fun hvalid => ?_⟩⟩
    · exact hsound ⟨hhonest.1, hhonest.2.1⟩
    · by_contra hne
      exact hbad ⟨.inl hvalid, fun hnil => absurd hnil hne, fun _ => hvalid⟩
    · by_contra hne
      exact hbad ⟨.inr hvalid, fun _ => hvalid, fun hnil => absurd hnil hne⟩
  · rintro hcondition ⟨hrecords, hcount, hhonest | ⟨hsound, hleft, hright⟩⟩
    · exact hhonest
    · rcases hcondition with hempty | hself | hcount' | ⟨hone, hleft', hright'⟩
      · exact absurd (.inl hempty) hrecords
      · exact absurd (.inr hself) hrecords
      · exact absurd hcount hcount'
      · exfalso
        rcases hone with hvalid | hvalid
        · exact hsound ⟨hvalid, hleft' (hleft hvalid)⟩
        · exact hsound ⟨hright' (hright hvalid), hvalid⟩

/-- A node whose only event does not continue the chain. -/
def brokenNode (nodeId hash : String) : Daemon where
  nodeId := nodeId
  ledger :=
    { rows := [⟨1, "LOGIN", "\x7b\x7d", hash, hash, "t1", some "default_tenant"⟩]
      sequence := 1
      sorted := List.pairwise_singleton _ _
      bounded := by
        intro row hrow
        rw [List.mem_singleton.mp hrow] }

lemma broken_resistant : Resistant
    ((brokenNode "node-1" "a").ledger.inputs Empty ++
      (brokenNode "node-2" "b").ledger.inputs Empty) :=
  resistant_of_nodup (by decide +kernel)

theorem synchronized_honest_broken :
    (∀ state, (brokenNode "node-1" "a").peerState Empty
          ((brokenNode "node-2" "b").broadcastStatus Empty) "t2" = some state →
        state.status = .synchronized →
          ((brokenNode "node-1" "a").ledger.verifyChainIntegrity Empty).valid = true ∧
            ((brokenNode "node-2" "b").ledger.verifyChainIntegrity Empty).valid = true ∧
            (brokenNode "node-1" "a").ledger.hashes = (brokenNode "node-2" "b").ledger.hashes) ↔
      (brokenNode "node-2" "b").nodeId = "" ∨
        (brokenNode "node-2" "b").nodeId = (brokenNode "node-1" "a").nodeId ∨
        (brokenNode "node-2" "b").localCount ≠ (brokenNode "node-1" "a").localCount ∨
        (((brokenNode "node-1" "a").ledger.verifyChainIntegrity Empty).valid = true ∨
            ((brokenNode "node-2" "b").ledger.verifyChainIntegrity Empty).valid = true) ∧
          ((brokenNode "node-1" "a").ledger.rows = [] →
            ((brokenNode "node-2" "b").ledger.verifyChainIntegrity Empty).valid = true) ∧
          ((brokenNode "node-2" "b").ledger.rows = [] →
            ((brokenNode "node-1" "a").ledger.verifyChainIntegrity Empty).valid = true) :=
  synchronized_honest broken_resistant

/-- Two broken ledgers with different events count as synchronized. -/
theorem broken_synchronized :
    ∃ d peer : Daemon, ∃ state, Resistant (d.ledger.inputs Empty ++ peer.ledger.inputs Empty) ∧
      d.peerState Empty (peer.broadcastStatus Empty) "t2" = some state ∧
      state.status = .synchronized ∧
      (d.ledger.verifyChainIntegrity Empty).valid = false ∧
      (peer.ledger.verifyChainIntegrity Empty).valid = false ∧
      d.ledger.hashes ≠ peer.ledger.hashes :=
  ⟨brokenNode "node-1" "a", brokenNode "node-2" "b", ⟨"t2", 1, zeroHash, .synchronized⟩,
    broken_resistant, by decide +kernel, rfl, by decide +kernel, by decide +kernel,
    by decide +kernel⟩

end AgentSystem.Audit
