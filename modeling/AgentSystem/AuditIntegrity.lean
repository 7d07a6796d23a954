import AgentSystem.AuditLedger

/-!
# Integrity of recorded ledgers

What `record_event` writes, and when the check of the chain notices that the contents of a row were
changed: the hash covers the payload, as the check serialises it, and the time, but neither the
event type nor the tenant.
-/
namespace AgentSystem.Audit

open Json Sha256

variable {D : Type} [Interpreter D] {l l' : Ledger} {row : Row}

/-! ## Recorded rows -/

/-- The row that a call writes. -/
structure Writes (call : Ledger.Call D) (row : Row) : Prop where
  eventType : row.eventType = call.eventType
  payload : (dumps call.payload).map String.ofList = some row.payload
  hashed : row.currentHash = hexdigest (hashInput row.previousHash row.payload row.timestamp)
  timestamp : row.timestamp = call.timestamp
  tenantId : row.tenantId = some call.tenantId

/-- A call that returns has written one more row, linked to the last one. -/
lemma recordEvent_ok {call : Ledger.Call D} {id : ℤ}
    (h : l.recordEvent call.eventType call.payload call.tenantId call.timestamp = .ok (l', id)) :
    ∃ row, l'.rows = l.rows ++ [row] ∧ Writes call row ∧ row.previousHash = l.lastHash ∧
      row.id = l.sequence + 1 ∧ l'.sequence = l.sequence + 1 ∧ id = l.sequence + 1 := by
  unfold Ledger.recordEvent at h
  cases htext : dumps call.payload with
  | none =>
      rw [htext] at h
      cases h
  | some text =>
      simp only [htext, Ledger.append] at h
      split_ifs at h
      · cases h
        exact ⟨_, rfl, ⟨rfl, by rw [htext]; rfl, rfl, rfl, rfl⟩, rfl, rfl, rfl, rfl⟩
      · cases h

lemma recorded_linked {calls : List (Ledger.Call D)}
    (hlinked : HashChain.Linked (chain D) zeroHash l.rows) (h : l.recordAll calls = .ok l') :
    HashChain.Linked (chain D) zeroHash l'.rows ∧
      ∃ rows, l'.rows = l.rows ++ rows ∧ List.Forall₂ Writes calls rows := by
  induction calls generalizing l with
  | nil =>
      cases h
      exact ⟨hlinked, [], (List.append_nil _).symm, .nil⟩
  | cons call calls ih =>
      rw [Ledger.recordAll] at h
      split at h
      · cases h
      · rename_i ledger id hrecord
        obtain ⟨row, hrows, hwrites, hprevious, -⟩ := recordEvent_ok hrecord
        have hnext : HashChain.Linked (chain D) zeroHash ledger.rows := by
          rw [hrows, HashChain.linked_append]
          exact ⟨hlinked, hprevious, trivial⟩
        obtain ⟨hlinked', rows, hrows', hforall⟩ := ih hnext h
        refine ⟨hlinked', row :: rows, ?_, .cons hwrites hforall⟩
        rw [hrows', hrows, List.append_assoc, List.singleton_append]

/-- The rows of a ledger that some calls have recorded from the start. -/
theorem recordAll_ok {calls : List (Ledger.Call D)} (h : Ledger.empty.recordAll calls = .ok l) :
    HashChain.Linked (chain D) zeroHash l.rows ∧ List.Forall₂ Writes calls l.rows := by
  have hempty : HashChain.Linked (chain D) zeroHash Ledger.empty.rows := trivial
  obtain ⟨hlinked, rows, hrows, hforall⟩ := recorded_linked hempty h
  obtain rfl : l.rows = rows := hrows
  exact ⟨hlinked, hforall⟩

/-- A recorded payload is serialised again as it is stored if the names of its keys ascend. -/
theorem canonical_eq_iff {value : PyValue D} {payload : String}
    (h : (dumps value).map String.ofList = some payload) :
    canonical D payload = payload ↔ NamesAscend value := by
  obtain ⟨text, htext, rfl⟩ := Option.map_eq_some_iff.mp h
  obtain ⟨text', htext'⟩ := exists_dumps_reload htext
  have hcanonical : canonical D (String.ofList text) = String.ofList text' := by
    rw [canonical, String.toList_ofList, loads_dumps htext, Option.bind_some, htext']
  rw [hcanonical, String.ofList_inj, ← dumps_reload htext, htext', Option.some.injEq]

/-- What the writer hashed for a row. -/
def Row.writtenInput (row : Row) : String := hashInput row.previousHash row.payload row.timestamp

variable (D) in
/-- What the check hashes for a row. -/
def Row.checkedInput (row : Row) : String :=
  hashInput row.previousHash (canonical D row.payload) row.timestamp

lemma recorded_hashed {calls : List (Ledger.Call D)} (h : List.Forall₂ Writes calls l.rows) :
    ∀ row ∈ l.rows, row.currentHash = hexdigest row.writtenInput := by
  intro row hrow
  obtain ⟨call, -, hwrites⟩ := exists_of_forall₂ h hrow
  exact hwrites.hashed

lemma writtenInput_eq_iff : row.writtenInput = row.checkedInput D ↔
    canonical D row.payload = row.payload := by
  rw [Row.writtenInput, Row.checkedInput, hashInput, hashInput, String.append_left_inj,
    String.append_right_inj, eq_comm]

/-! ## Valid chains -/

lemma hashInput_inj {previous previous' payload payload' timestamp timestamp' : String}
    (hprevious : previous.length = 64) (hprevious' : previous'.length = 64)
    (h : hashInput previous payload timestamp = hashInput previous' payload' timestamp') :
    previous = previous' := by
  have hlists := congrArg String.toList h
  simp only [hashInput, String.append_assoc, String.toList_append] at hlists
  refine String.toList_injective (List.append_inj_left hlists ?_)
  rw [String.length_toList, String.length_toList, hprevious, hprevious']

section Valid

variable {rows : List Row} (hvalid : HashChain.Valid (chain D) zeroHash rows)
include hvalid

lemma currentHash_length : ∀ row ∈ rows, row.currentHash.length = 64 := by
  intro row hrow
  have hhashed : row.currentHash = hexdigest (row.checkedInput D) := hvalid.hashed row hrow
  rw [hhashed]
  exact hexdigest_length _

lemma previousHash_length : ∀ row ∈ rows, row.previousHash.length = 64 := by
  intro row hrow
  rcases hvalid.linked.previous_mem hrow with heq | ⟨before, hbefore, heq⟩
  · exact (congrArg String.length heq).trans zeroHash_length
  · exact (congrArg String.length heq).trans (currentHash_length hvalid before hbefore)

lemma currentHash_nodup (hresistant : Resistant (rows.map (Row.checkedInput D))) :
    (rows.map Row.currentHash).Nodup := by
  have hinput : ∀ row ∈ rows, row.checkedInput D ∈ rows.map (Row.checkedInput D) :=
    fun row hrow => List.mem_map_of_mem hrow
  refine hvalid.nodup (fun row hrow other hother heq => ?_) fun row hrow => ?_
  · exact hashInput_inj (previousHash_length hvalid row hrow)
      (previousHash_length hvalid other hother)
      (hresistant.injOn (hinput row hrow) (hinput other hother) heq)
  · exact hresistant.ne_zero _ (hinput row hrow)

end Valid

/-! ## Changed contents -/

/-- Contents of the fields of a row that hold no hash. -/
structure Contents where
  eventType : String
  payload : String
  timestamp : String
  tenantId : Option String

/-- The row with other contents if it has this id, its hashes as they were. -/
def Row.tamper (id : ℤ) (contents : Contents) (row : Row) : Row :=
  if row.id = id then
    { row with
      eventType := contents.eventType
      payload := contents.payload
      timestamp := contents.timestamp
      tenantId := contents.tenantId }
  else row

lemma tamper_kept (id : ℤ) (contents : Contents) (row : Row) :
    (row.tamper id contents).id = row.id ∧
      (row.tamper id contents).previousHash = row.previousHash ∧
      (row.tamper id contents).currentHash = row.currentHash := by
  unfold Row.tamper
  split_ifs <;> exact ⟨rfl, rfl, rfl⟩

/-- The ledger with other contents in the row of this id. -/
def Ledger.tamper (l : Ledger) (id : ℤ) (contents : Contents) : Ledger where
  rows := l.rows.map (Row.tamper id contents)
  sequence := l.sequence
  sorted := by
    have hids : (l.rows.map (Row.tamper id contents)).map Row.id = l.rows.map Row.id := by
      rw [List.map_map]
      exact List.map_congr_left fun row _ => (tamper_kept id contents row).1
    rw [hids]
    exact l.sorted
  bounded := by
    intro row hrow
    obtain ⟨before, hbefore, rfl⟩ := List.mem_map.mp hrow
    rw [(tamper_kept id contents before).1]
    exact l.bounded before hbefore

lemma tamper_inputs (stored : row ∈ l.rows) (contents : Contents) :
    (∀ other ∈ l.rows, other.writtenInput = (other.tamper row.id contents).checkedInput D) ↔
      canonical D contents.payload ++ contents.timestamp = row.payload ++ row.timestamp ∧
        ∀ other ∈ l.rows, other ≠ row → canonical D other.payload = other.payload := by
  have hself : row.writtenInput = (row.tamper row.id contents).checkedInput D ↔
      canonical D contents.payload ++ contents.timestamp = row.payload ++ row.timestamp := by
    rw [Row.writtenInput, Row.checkedInput, Row.tamper, if_pos rfl, hashInput, hashInput,
      String.append_assoc, String.append_assoc, String.append_right_inj, eq_comm]
  have hother : ∀ other ∈ l.rows, other ≠ row →
      (other.writtenInput = (other.tamper row.id contents).checkedInput D ↔
        canonical D other.payload = other.payload) := by
    intro other hmem hne
    have hid : other.id ≠ row.id := fun heq =>
      hne (List.inj_on_of_nodup_map (l.sorted.imp fun hlt => hlt.ne) hmem stored heq)
    rw [Row.tamper, if_neg hid, writtenInput_eq_iff]
  constructor
  · intro h
    exact ⟨hself.mp (h row stored), fun other hmem hne => (hother other hmem hne).mp (h other hmem)⟩
  · rintro ⟨hrow, hrest⟩ other hmem
    by_cases heq : other = row
    · subst heq
      exact hself.mpr hrow
    · exact (hother other hmem heq).mpr (hrest other hmem heq)

/-- The check notices that a row was changed if the new payload, parsed and serialised again, and
the new time are together another text than before, or if it rejects another row anyway. -/
theorem tamper_detected {calls : List (Ledger.Call D)}
    (recorded : Ledger.empty.recordAll calls = .ok l) (stored : row ∈ l.rows) (contents : Contents)
    (injective : Set.InjOn hexdigest {s | s ∈ l.rows.map Row.writtenInput ++
      (l.tamper row.id contents).rows.map (Row.checkedInput D)}) :
    ((l.tamper row.id contents).verifyChainIntegrity D).valid = false ↔
      canonical D contents.payload ++ contents.timestamp ≠ row.payload ++ row.timestamp ∨
        ∃ other ∈ l.rows, other ≠ row ∧ canonical D other.payload ≠ other.payload := by
  obtain ⟨hlinked, hforall⟩ := recordAll_ok recorded
  have hvalid : HashChain.Valid (chain D) zeroHash (l.tamper row.id contents).rows ↔
      ∀ other ∈ l.rows, other.writtenInput = (other.tamper row.id contents).checkedInput D :=
    hlinked.valid_map_iff (fun other _ => (tamper_kept _ _ other).2.1)
      (fun other _ => (tamper_kept _ _ other).2.2) (recorded_hashed hforall) (fun _ _ => rfl)
      injective
  rw [← Bool.not_eq_true, verifyChainIntegrity_valid, hvalid, tamper_inputs stored, not_and_or]
  simp only [not_forall, exists_prop, ne_eq]

/-- The only row of a ledger with one event. -/
def loginRow : Row where
  id := 1
  eventType := "LOGIN"
  payload := "\x7b\x7d"
  previousHash := zeroHash
  currentHash := hexdigest (hashInput zeroHash "\x7b\x7d" "t1")
  timestamp := "t1"

def loginLedger : Ledger where
  rows := [loginRow]
  sequence := 1
  sorted := List.pairwise_singleton _ _
  bounded := by
    intro row hrow
    rw [List.mem_singleton.mp hrow]
    exact le_refl 1

lemma login_recorded : Ledger.empty.recordAll (D := Empty)
    [⟨"LOGIN", .dict [], "default_tenant", "t1"⟩] = .ok loginLedger := rfl

theorem tamper_detected_login :
    Ledger.empty.recordAll (D := Empty) [⟨"LOGIN", .dict [], "default_tenant", "t1"⟩] =
        .ok loginLedger ∧ loginRow ∈ loginLedger.rows ∧
      ∃ contents, contents.payload = "[]" ∧ Set.InjOn hexdigest
          {s | s ∈ loginLedger.rows.map Row.writtenInput ++
            (loginLedger.tamper loginRow.id contents).rows.map (Row.checkedInput Empty)} ∧
        (((loginLedger.tamper loginRow.id contents).verifyChainIntegrity Empty).valid = false ↔
          canonical Empty contents.payload ++ contents.timestamp ≠
              loginRow.payload ++ loginRow.timestamp ∨
            ∃ other ∈ loginLedger.rows, other ≠ loginRow ∧
              canonical Empty other.payload ≠ other.payload) := by
  have hinj : Set.InjOn hexdigest {s | s ∈ loginLedger.rows.map Row.writtenInput ++
      (loginLedger.tamper loginRow.id ⟨"LOGIN", "[]", "t1", none⟩).rows.map
        (Row.checkedInput Empty)} := by
    have hdigests : ((loginLedger.rows.map Row.writtenInput ++
        (loginLedger.tamper loginRow.id ⟨"LOGIN", "[]", "t1", none⟩).rows.map
          (Row.checkedInput Empty)).map hexdigest).Nodup := by
      decide +kernel
    exact fun s hs t ht heq => List.inj_on_of_nodup_map hdigests hs ht heq
  exact ⟨login_recorded, List.mem_singleton_self _, _, rfl, hinj,
    tamper_detected login_recorded (List.mem_singleton_self _) _ hinj⟩

/-- A login that became a logout goes unnoticed. -/
theorem renamed_event_unnoticed :
    Ledger.empty.recordAll (D := Empty) [⟨"LOGIN", .dict [], "default_tenant", "t1"⟩] =
        .ok loginLedger ∧ loginRow ∈ loginLedger.rows ∧
      ∃ contents, contents.eventType ≠ loginRow.eventType ∧ Set.InjOn hexdigest
          {s | s ∈ loginLedger.rows.map Row.writtenInput ++
            (loginLedger.tamper loginRow.id contents).rows.map (Row.checkedInput Empty)} ∧
        ((loginLedger.tamper loginRow.id contents).verifyChainIntegrity Empty).valid = true := by
  refine ⟨login_recorded, List.mem_singleton_self _,
    ⟨"LOGOUT", "\x7b\x7d", "t1", some "default_tenant"⟩, by decide, ?_, by decide +kernel⟩
  have hinputs : ∀ s ∈ loginLedger.rows.map Row.writtenInput ++
      (loginLedger.tamper loginRow.id ⟨"LOGOUT", "\x7b\x7d", "t1", some "default_tenant"⟩).rows.map
        (Row.checkedInput Empty), s = loginRow.writtenInput := by
    decide +kernel
  exact fun s hs t ht _ => (hinputs s hs).trans (hinputs t ht).symm

end AgentSystem.Audit
