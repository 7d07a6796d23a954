import AgentSystem.HashChain
import AgentSystem.JsonRoundTrip
import AgentSystem.MerkleTree

/-!
# The audit ledger

The SQLite table behind `AuditLedger`: rows ordered by their ids, each with the hash of the row
before it, and the check of the chain, which parses and serialises every payload again.
-/
namespace AgentSystem.Audit

open Json Sha256

/-- A row of `audit_ledger`. -/
structure Row where
  id : ℤ
  eventType : String
  payload : String
  previousHash : String
  currentHash : String
  timestamp : String
  tenantId : Option String := some "default_tenant"
  deriving DecidableEq

/-- The table in the order of its ids, and the largest id that it ever had. -/
structure Ledger where
  rows : List Row
  sequence : ℤ
  sorted : (rows.map Row.id).Pairwise (· < ·)
  bounded : ∀ row ∈ rows, row.id ≤ sequence

def Ledger.empty : Ledger := ⟨[], 0, .nil, by simp⟩

inductive LedgerError
  | notSerializable
  | full
  | notStorable
  deriving DecidableEq

/-- The largest id of a row. -/
def maxRowid : ℤ := 2 ^ 63 - 1

/-- `hash_input` of `record_event`. -/
def hashInput (previousHash payload timestamp : String) : String :=
  previousHash ++ payload ++ timestamp

variable (D : Type) [Interpreter D]

/-- A stored payload parsed and serialised again, or as it is when that raises. -/
def canonical (payload : String) : String :=
  match (loads (D := D) payload.toList).bind dumps with
  | some text => String.ofList text
  | none => payload

/-- The two hashes of a row and the one that the check computes. -/
def chain : HashChain.Format Row String where
  previous := Row.previousHash
  current := Row.currentHash
  digest row := hexdigest (hashInput row.previousHash (canonical D row.payload) row.timestamp)

variable {D}

lemma ids_append {ids : List ℤ} {sequence : ℤ} (hsorted : ids.Pairwise (· < ·))
    (hbounded : ∀ id ∈ ids, id ≤ sequence) : (ids ++ [sequence + 1]).Pairwise (· < ·) := by
  rw [List.pairwise_append]
  refine ⟨hsorted, List.pairwise_singleton _ _, fun id hid other hother => ?_⟩
  rw [List.mem_singleton.mp hother]
  exact Int.lt_add_one_of_le (hbounded id hid)

namespace Ledger

variable (l : Ledger)

/-- The hash of the last row. -/
def lastHash : String := (l.rows.getLast?.map Row.currentHash).getD zeroHash

/-- An insert without an id. -/
def append (row : ℤ → Row) (hid : ∀ id, (row id).id = id) : Except LedgerError Ledger :=
  if l.sequence < maxRowid then
    .ok
      { rows := l.rows ++ [row (l.sequence + 1)]
        sequence := l.sequence + 1
        sorted := by
          rw [List.map_append, List.map_singleton, hid]
          exact ids_append l.sorted (List.forall_mem_map.mpr l.bounded)
        bounded := by
          intro before hbefore
          rcases List.mem_append.mp hbefore with hmem | hmem
          · exact (l.bounded before hmem).trans (by omega)
          · rw [List.mem_singleton.mp hmem, hid] }
  else .error .full

/-- `INSERT OR REPLACE` with an id. -/
def replace (row : Row) : Ledger where
  rows := l.rows.filter (·.id < row.id) ++ row :: l.rows.filter (row.id < ·.id)
  sequence := max l.sequence row.id
  sorted := by
    have hsorted := List.pairwise_map.mp l.sorted
    rw [List.pairwise_map, List.pairwise_append, List.pairwise_cons]
    refine ⟨hsorted.filter _, ⟨fun other hother => ?_, hsorted.filter _⟩, ?_⟩
    · exact of_decide_eq_true (List.mem_filter.mp hother).2
    · intro before hbefore other hother
      have hlt : before.id < row.id := of_decide_eq_true (List.mem_filter.mp hbefore).2
      rcases List.mem_cons.mp hother with rfl | hmem
      · exact hlt
      · exact hlt.trans (of_decide_eq_true (List.mem_filter.mp hmem).2)
  bounded := by
    intro other hother
    rcases List.mem_append.mp hother with hmem | hmem
    · exact (l.bounded other (List.mem_of_mem_filter hmem)).trans (le_max_left _ _)
    · rcases List.mem_cons.mp hmem with rfl | hmem
      · exact le_max_right _ _
      · exact (l.bounded other (List.mem_of_mem_filter hmem)).trans (le_max_left _ _)

/-- `record_event` at a time of the clock: the table after the commit, and the id. -/
def recordEvent (eventType : String) (payload : PyValue D) (tenantId timestamp : String) :
    Except LedgerError (Ledger × ℤ) :=
  match dumps payload with
  | none => .error .notSerializable
  | some text =>
      let payload := String.ofList text
      let row (id : ℤ) : Row :=
        { id := id
          eventType := eventType
          payload := payload
          previousHash := l.lastHash
          currentHash := hexdigest (hashInput l.lastHash payload timestamp)
          timestamp := timestamp
          tenantId := some tenantId }
      (l.append row fun _ => rfl).map fun ledger => (ledger, ledger.sequence)

/-- A call of `record_event` and the time at which it is made. -/
structure Call (D : Type) where
  eventType : String
  payload : PyValue D
  tenantId : String := "default_tenant"
  timestamp : String

/-- Calls one after the other. -/
def recordAll (l : Ledger) : List (Call D) → Except LedgerError Ledger
  | [] => .ok l
  | call :: calls =>
      match l.recordEvent call.eventType call.payload call.tenantId call.timestamp with
      | .error error => .error error
      | .ok (ledger, _) => recordAll ledger calls

/-- `get_logs` of a tenant, without a filter for events. -/
def getLogs (tenantId : String) : List Row :=
  l.rows.filter fun row => row.tenantId = some tenantId

/-- `get_logs_after`. -/
def getLogsAfter (afterId : ℤ) : List Row := l.rows.filter fun row => afterId < row.id

end Ledger

/-! ## The check of the chain -/

/-- What `verify_chain_integrity` reports. -/
structure Integrity where
  valid : Bool
  tamperedId : Option ℤ := none
  error : Option String := none
  merkleRoot : String
  deriving DecidableEq

variable (D)

/-- The loop over the rows: their hashes, or the report about the first bad one. -/
def verifyRows (expectedPreviousHash : String) : List Row → Except Integrity (List String)
  | [] => .ok []
  | row :: rows =>
      if row.previousHash ≠ expectedPreviousHash then
        .error ⟨false, some row.id, some "previous_hash mismatch", zeroHash⟩
      else if row.currentHash ≠ (chain D).digest row then
        .error ⟨false, some row.id, some "current_hash mismatch", zeroHash⟩
      else (verifyRows row.currentHash rows).map (row.currentHash :: ·)

variable {D}

lemma verifyRows_ok {origin : String} {rows : List Row} {hashes : List String} :
    verifyRows D origin rows = .ok hashes ↔
      HashChain.Valid (chain D) origin rows ∧ hashes = rows.map Row.currentHash := by
  induction rows generalizing origin hashes with
  | nil =>
      constructor
      · rintro ⟨⟩
        exact ⟨⟨trivial, by simp⟩, rfl⟩
      · rintro ⟨-, rfl⟩
        rfl
  | cons row rows ih =>
      rw [verifyRows, HashChain.valid_cons]
      split_ifs with hprevious hcurrent
      · refine iff_of_false (by simp) ?_
        rintro ⟨⟨h, -⟩, -⟩
        exact hprevious h
      · refine iff_of_false (by simp) ?_
        rintro ⟨⟨-, h, -⟩, -⟩
        exact hcurrent h
      · have hp : (chain D).previous row = origin := not_not.mp hprevious
        have hc : (chain D).current row = (chain D).digest row := not_not.mp hcurrent
        constructor
        · intro h
          cases hrest : verifyRows D row.currentHash rows with
          | error report =>
              rw [hrest] at h
              cases h
          | ok rest =>
              rw [hrest] at h
              cases h
              obtain ⟨hvalid, rfl⟩ := ih.mp hrest
              exact ⟨⟨hp, hc, hvalid⟩, rfl⟩
        · rintro ⟨⟨-, -, hvalid⟩, rfl⟩
          have hrest : verifyRows D row.currentHash rows = .ok (rows.map Row.currentHash) :=
            ih.mpr ⟨hvalid, rfl⟩
          rw [hrest]
          rfl

lemma verifyRows_error {origin : String} {rows : List Row} {report : Integrity}
    (h : verifyRows D origin rows = .error report) :
    report.valid = false ∧ report.merkleRoot = zeroHash := by
  induction rows generalizing origin with
  | nil => cases h
  | cons row rows ih =>
      rw [verifyRows] at h
      split_ifs at h
      · cases h
        exact ⟨rfl, rfl⟩
      · cases h
        exact ⟨rfl, rfl⟩
      · cases hrest : verifyRows D row.currentHash rows with
        | error report' =>
            rw [hrest] at h
            cases h
            exact ih hrest
        | ok rest =>
            rw [hrest] at h
            cases h

variable (D) in
/-- `verify_chain_integrity`. -/
def Ledger.verifyChainIntegrity (l : Ledger) : Integrity :=
  match verifyRows D zeroHash l.rows with
  | .error report => report
  | .ok hashes => { valid := true, merkleRoot := buildTree hashes }

variable {l : Ledger}

/-- The hashes of the rows. -/
def Ledger.hashes (l : Ledger) : List String := l.rows.map Row.currentHash

theorem verifyChainIntegrity_valid : (l.verifyChainIntegrity D).valid = true ↔
    HashChain.Valid (chain D) zeroHash l.rows := by
  unfold Ledger.verifyChainIntegrity
  cases hrows : verifyRows D zeroHash l.rows with
  | ok hashes => exact iff_of_true rfl (verifyRows_ok.mp hrows).1
  | error report =>
      refine iff_of_false (by simp [(verifyRows_error hrows).1]) fun hvalid => ?_
      rw [verifyRows_ok.mpr ⟨hvalid, rfl⟩] at hrows
      cases hrows

/-- The reported root is the one of the tree over the hashes, or zero for a broken chain. -/
lemma verifyChainIntegrity_root : (l.verifyChainIntegrity D).merkleRoot =
    if (l.verifyChainIntegrity D).valid then buildTree l.hashes else zeroHash := by
  unfold Ledger.verifyChainIntegrity
  cases hrows : verifyRows D zeroHash l.rows with
  | ok hashes =>
      rw [(verifyRows_ok.mp hrows).2]
      rfl
  | error report =>
      have hreport := verifyRows_error hrows
      simp [hreport]

end AgentSystem.Audit
