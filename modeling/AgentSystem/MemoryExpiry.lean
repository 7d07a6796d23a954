import AgentSystem.BatchMove
import AgentSystem.Iso8601

/-!
# Expired records

`LongTermMemoryStore.prune_expired` over the table of records. The expiry is compared with the clock as a text.
-/
namespace AgentSystem.Memory

open Iso8601 Raft

/-! ## The store -/

/-- The dictionary of a row names the place of the row. -/
structure OwnPlace (row : MemoryRecord) : Prop where
  sessionId : row.value.lookup "session_id" = some (.str row.sessionId)
  id : row.value.lookup "id" = some (.str row.key)
  valid : sessionIdPattern row.sessionId = true

/-- What the callers of `write` leave in the table. -/
structure LongTermMemory where
  records : MemoryRecords
  own : ∀ row ∈ records.rows, OwnPlace row

lemma own_write {records records' : MemoryRecords} (own : ∀ row ∈ records.rows, OwnPlace row)
    {record : LongTermMemoryRecord}
    (h : SQLiteBackend.write records record.sessionId record.id record.asdict = some records') :
    ∀ row ∈ records'.rows, OwnPlace row := by
  intro row hrow
  have hlookup : records'.lookup (row.sessionId, row.key) = some row := KeyedTable.lookup_eq_some.mpr ⟨hrow, rfl⟩
  rw [lookup_write h] at hlookup
  split_ifs at hlookup with hplace
  · obtain ⟨hsession, hkey⟩ := Prod.mk.inj hplace
    have hvalue : row.value = record.asdict := by
      rw [← Option.some.inj hlookup]
      cases records.lookup (row.sessionId, row.key) <;> rfl
    refine ⟨by rw [hvalue, ← hsession]; rfl, by rw [hvalue, ← hkey]; rfl, ?_⟩
    obtain ⟨valid, hvalid, -⟩ := Option.map_eq_some_iff.mp h
    rw [← hsession]
    exact (Option.ite_none_right_eq_some.mp hvalid).1
  · exact own row (KeyedTable.lookup_eq_some.mp hlookup).1

/-- `_write_record` under the session of the record. -/
def LongTermMemory.writeRecord (memory : LongTermMemory) (record : LongTermMemoryRecord) : Option LongTermMemory :=
  match h : SQLiteBackend.write memory.records record.sessionId record.id record.asdict with
  | none => none
  | some records => some ⟨records, own_write memory.own h⟩

/-! ## Pruning -/

/-- `expires and expires < now`, `none` when the comparison raises. -/
def hasExpired (now : String) (r : Value) : Option Bool :=
  match r.lookup "expires_at" with
  | none | some .null | some (.bool false) | some (.arr []) | some (.obj []) => some false
  | some (.str expires) => some (decide (expires ≠ "" ∧ expires < now))
  | some (.num q) => if q = 0 then some false else none
  | some _ => none

/-- `r.get(name, "")` of a text. -/
def getText (r : Value) (name : String) : String :=
  match r.lookup name with
  | some (.str text) => text
  | _ => ""

/-- The loop of `prune_expired` over the records that are listed: the table and the number of deletions, `none` when it
raises. -/
def pruneExpired (now : String) (records : MemoryRecords) : List Value → Option (MemoryRecords × ℕ)
  | [] => some (records, 0)
  | r :: rs =>
      match hasExpired now r with
      | none => none
      | some false => pruneExpired now records rs
      | some true =>
          match SQLiteBackend.delete records (getText r "session_id") (getText r "id") with
          | none => none
          | some (records, deleted) =>
              (pruneExpired now records rs).map fun (records, count) => (records, count + if deleted then 1 else 0)

/-- What a dictionary says of its expiry: nothing, or an instant. -/
def Expires (r : Value) : Option IsoInstant → Prop
  | none => r.lookup "expires_at" = none ∨ r.lookup "expires_at" = some .null ∨ r.lookup "expires_at" = some (.str "")
  | some expiry => r.lookup "expires_at" = some (.str (String.ofList expiry.text))

variable {now : String} {records : MemoryRecords} {row : MemoryRecord} {listing : List MemoryRecord}
  {overdue : MemoryRecord → Bool}

lemma OwnPlace.getText_sessionId (h : OwnPlace row) : getText row.value "session_id" = row.sessionId := by
  rw [getText, h.sessionId]

lemma OwnPlace.getText_id (h : OwnPlace row) : getText row.value "id" = row.key := by
  rw [getText, h.id]

/-- A row that names its place is deleted, with no other one. -/
lemma delete_own (h : OwnPlace row) (hrow : row ∈ records.rows) :
    ∃ after, SQLiteBackend.delete records (getText row.value "session_id") (getText row.value "id") =
        some (after, true) ∧
      after.rows = records.rows.filter fun other => !decide (other.sessionId = row.sessionId ∧ other.key = row.key) := by
  rw [h.getText_sessionId, h.getText_id, SQLiteBackend.delete, validateSessionId, if_pos h.valid, Option.map_some]
  refine ⟨_, congrArg some (Prod.ext rfl (decide_eq_true ?_)), rfl⟩
  exact List.countP_pos_iff.mpr ⟨row, hrow, by simp⟩

/-- The place of a row is among those of the listed rows that are overdue. -/
def Pruned (overdue : MemoryRecord → Bool) (listing : List MemoryRecord) (row : MemoryRecord) : Bool :=
  listing.any fun listed => overdue listed && decide (row.sessionId = listed.sessionId ∧ row.key = listed.key)

/-- A run over distinct rows of the table deletes those that are overdue, and counts them. -/
lemma pruneExpired_eq (overdue : MemoryRecord → Bool) (hown : ∀ row ∈ listing, OwnPlace row) (hmem : ∀ row ∈ listing, row ∈ records.rows)
    (hnodup : (listing.map fun row => (row.sessionId, row.key)).Nodup)
    (hoverdue : ∀ row ∈ listing, hasExpired now row.value = some (overdue row)) :
    ∃ after, pruneExpired now records (listing.map MemoryRecord.value) = some (after, listing.countP overdue) ∧
      after.rows = records.rows.filter fun row => !Pruned overdue listing row := by
  induction listing generalizing records with
  | nil => exact ⟨records, rfl, (List.filter_eq_self.mpr fun _ _ => rfl).symm⟩
  | cons row listing ih =>
    obtain ⟨hnew, hnodup⟩ := List.nodup_cons.mp hnodup
    obtain ⟨hrow, hmem⟩ := List.forall_mem_cons.mp hmem
    obtain ⟨hplace, hown⟩ := List.forall_mem_cons.mp hown
    obtain ⟨hfirst, hoverdue⟩ := List.forall_mem_cons.mp hoverdue
    rw [List.map_cons, pruneExpired, hfirst]
    cases hlate : overdue row with
    | false =>
      obtain ⟨after, hrun, hrows⟩ := ih hown hmem hnodup hoverdue
      refine ⟨after, ?_, ?_⟩
      · rw [List.countP_cons_of_neg (by simp [hlate])]
        exact hrun
      · rw [hrows]
        simp [Pruned, hlate]
    | true =>
      obtain ⟨deleted, hdelete, hleft⟩ := delete_own hplace hrow
      have hstill : ∀ other ∈ listing, other ∈ deleted.rows := by
        intro other hother
        rw [hleft]
        refine List.mem_filter.mpr ⟨hmem other hother, ?_⟩
        rw [Bool.not_eq_true', decide_eq_false_iff_not]
        rintro ⟨hsession, hkey⟩
        exact hnew (List.mem_map.mpr ⟨other, hother, Prod.ext hsession hkey⟩)
      obtain ⟨after, hrun, hrows⟩ := ih hown hstill hnodup hoverdue
      refine ⟨after, ?_, ?_⟩
      · simp [hdelete, hrun, List.countP_cons_of_pos, hlate]
      · rw [hrows, hleft, List.filter_filter]
        refine List.filter_congr fun other _ => ?_
        simp [Pruned, hlate, Bool.and_comm]

/-! ## What is due -/

/-- The expiry is before the clock, as a text. -/
def overdueText (clock : UtcDatetime) : Option IsoInstant → Bool
  | none => false
  | some expiry => decide (expiry.text < clock.isoformat.text)

/-- The expiry is before the clock. -/
def overdueInstant (clock : UtcDatetime) : Option IsoInstant → Bool
  | none => false
  | some expiry => decide (expiry.instant < clock.isoformat.instant)

/-- `_now()`. -/
def nowText (clock : UtcDatetime) : String := String.ofList clock.isoformat.text

lemma isoText_ne_empty (expiry : IsoInstant) : String.ofList expiry.text ≠ "" := by
  intro h
  exact absurd (String.toList_inj.mpr h) (by simp [IsoInstant.text, Date.text, pad])

lemma hasExpired_eq {r : Value} {expiry : Option IsoInstant} (h : Expires r expiry) (clock : UtcDatetime) :
    hasExpired (nowText clock) r = some (overdueText clock expiry) := by
  cases expiry with
  | none => rcases h with h | h | h <;> simp [hasExpired, h, overdueText]
  | some expiry =>
    have hlookup : r.lookup "expires_at" = some (.str (String.ofList expiry.text)) := h
    simp only [hasExpired, hlookup, overdueText, nowText, Option.some.injEq, decide_eq_decide, String.lt_iff_toList_lt,
      String.toList_ofList]
    exact and_iff_right (isoText_ne_empty expiry)

/-- The text tells whether the expiry is before the clock exactly if it is comparable. -/
lemma overdue_eq_iff {clock : UtcDatetime} {expiry : Option IsoInstant} :
    overdueText clock expiry = overdueInstant clock expiry ↔
      ∀ instant, expiry = some instant → instant.Comparable clock.isoformat := by
  cases expiry with
  | none => simp [overdueText, overdueInstant]
  | some expiry =>
    rw [overdueText, overdueInstant, decide_eq_decide, IsoInstant.text_lt_iff_instant_lt rfl]
    simp

/-- Of all rows, the places of those that are overdue are pruned. -/
lemma pruned_eq (hlisting : listing.Perm records.rows) (hrow : row ∈ records.rows) :
    Pruned overdue listing row = overdue row := by
  rw [Bool.eq_iff_iff, Pruned, List.any_eq_true]
  constructor
  · rintro ⟨listed, hlisted, h⟩
    simp only [Bool.and_eq_true, decide_eq_true_eq] at h
    obtain ⟨hlate, hsession, hkey⟩ := h
    have hat : records.lookup (row.sessionId, row.key) = some listed :=
      KeyedTable.lookup_eq_some.mpr ⟨hlisting.mem_iff.mp hlisted, Prod.ext hsession.symm hkey.symm⟩
    obtain rfl := Option.some.inj (hat.symm.trans (KeyedTable.lookup_eq_some.mpr ⟨hrow, rfl⟩))
    exact hlate
  · intro hlate
    exact ⟨row, hlisting.mem_iff.mpr hrow, by simp [hlate]⟩

lemma filter_eq_filter_iff {α : Type} {p q : α → Bool} {rows : List α} :
    rows.filter p = rows.filter q ↔ ∀ row ∈ rows, p row = q row := by
  refine ⟨fun h row hrow => ?_, List.filter_congr⟩
  have hmem : row ∈ rows.filter p ↔ row ∈ rows.filter q := by rw [h]
  rw [List.mem_filter, List.mem_filter, and_iff_right hrow, and_iff_right hrow] at hmem
  exact Bool.eq_iff_iff.mpr hmem

section Run

variable (memory : LongTermMemory) (clock : UtcDatetime) (listing : List MemoryRecord)
  (expiry : MemoryRecord → Option IsoInstant)

/-- Pruning returns, and deletes the rows that are overdue as texts. -/
lemma pruneExpired_run (hlisting : listing.Perm memory.records.rows)
    (hexpiry : ∀ row ∈ memory.records.rows, Expires row.value (expiry row)) :
    ∃ after, pruneExpired (nowText clock) memory.records (listing.map MemoryRecord.value) =
        some (after, memory.records.rows.countP fun row => overdueText clock (expiry row)) ∧
      after.rows = memory.records.rows.filter fun row => !overdueText clock (expiry row) := by
  have hown : ∀ row ∈ listing, OwnPlace row := fun row hrow => memory.own row (hlisting.mem_iff.mp hrow)
  have hnodup : (listing.map fun row => (row.sessionId, row.key)).Nodup :=
    (hlisting.map _).nodup_iff.mpr memory.records.unique
  obtain ⟨after, hrun, hrows⟩ := pruneExpired_eq
    (fun row => overdueText clock (expiry row)) hown (fun row hrow => hlisting.mem_iff.mp hrow) hnodup
    fun row hrow => hasExpired_eq (hexpiry row (hlisting.mem_iff.mp hrow)) clock
  rw [hlisting.countP_eq] at hrun
  refine ⟨after, hrun, hrows.trans (List.filter_congr fun row hrow => ?_)⟩
  rw [pruned_eq hlisting hrow]

/-- Pruning returns. It deletes the rows whose expiry is before now, counts them and keeps the other ones exactly if
every expiry is comparable with the clock. -/
theorem pruneExpired_exact_iff (hlisting : listing.Perm memory.records.rows)
    (hexpiry : ∀ row ∈ memory.records.rows, Expires row.value (expiry row)) :
    ∃ after count, pruneExpired (nowText clock) memory.records (listing.map MemoryRecord.value) = some (after, count) ∧
      after.rows.Sublist memory.records.rows ∧ count + after.rows.length = memory.records.rows.length ∧
      (after.rows = memory.records.rows.filter (fun row => !overdueInstant clock (expiry row)) ∧
          count = memory.records.rows.countP (fun row => overdueInstant clock (expiry row)) ↔
        ∀ row ∈ memory.records.rows, ∀ instant, expiry row = some instant → instant.Comparable clock.isoformat) := by
  obtain ⟨after, hrun, hrows⟩ := pruneExpired_run memory clock listing expiry hlisting hexpiry
  refine ⟨after, _, hrun, hrows ▸ List.filter_sublist, ?_, ?_⟩
  · rw [hrows, ← List.countP_eq_length_filter,
      memory.records.rows.length_eq_countP_add_countP fun row => overdueText clock (expiry row)]
    simp
  · rw [hrows, filter_eq_filter_iff]
    constructor
    · rintro ⟨hsame, -⟩ row hrow
      exact overdue_eq_iff.mp (Bool.not_inj (hsame row hrow))
    · intro h
      refine ⟨fun row hrow => congrArg _ (overdue_eq_iff.mpr (h row hrow)), List.countP_congr fun row hrow => ?_⟩
      rw [overdue_eq_iff.mpr (h row hrow)]

end Run

def sampleDate : Date := ⟨2026, 1, 1, by decide, Nat.one_pos, by decide, Nat.one_pos, by decide⟩

/-- `2026-01-01T01:00:00-05:00`. -/
def sampleExpiry : IsoInstant := ⟨sampleDate, [1, 0, 0], by decide, by decide, .minutes true 5 0, by decide⟩

/-- Four hours before that. -/
def sampleClock : UtcDatetime :=
  { date := sampleDate, hour := 2, minute := 0, second := 0, microsecond := 0, hourLt := by decide,
    minuteLt := by decide, secondLt := by decide, microsecondLt := by decide }

def expiringRecord : LongTermMemoryRecord :=
  { sampleRecord with expiresAt := .str (String.ofList sampleExpiry.text) }

def sampleMemory : LongTermMemory where
  records := ⟨[⟨"s-1", "rec-1", expiringRecord.asdict⟩], List.nodup_singleton _⟩
  own := List.forall_mem_singleton.mpr ⟨rfl, rfl, by decide⟩

lemma expires_sample : ∀ row ∈ sampleMemory.records.rows, Expires row.value (some sampleExpiry) :=
  List.forall_mem_singleton.mpr rfl

theorem pruneExpired_exact_sample :
    ∃ after count, pruneExpired (nowText sampleClock) sampleMemory.records
        (sampleMemory.records.rows.map MemoryRecord.value) = some (after, count) ∧
      after.rows.Sublist sampleMemory.records.rows ∧
      count + after.rows.length = sampleMemory.records.rows.length ∧
      (after.rows = sampleMemory.records.rows.filter (fun _ => !overdueInstant sampleClock (some sampleExpiry)) ∧
          count = sampleMemory.records.rows.countP (fun _ => overdueInstant sampleClock (some sampleExpiry)) ↔
        ∀ row ∈ sampleMemory.records.rows, ∀ instant, some sampleExpiry = some instant →
          instant.Comparable sampleClock.isoformat) :=
  pruneExpired_exact_iff sampleMemory sampleClock sampleMemory.records.rows (fun _ => some sampleExpiry)
    (List.Perm.refl _) expires_sample

lemma sampleExpiry_later : ¬ sampleExpiry.instant < sampleClock.isoformat.instant := by
  have hexpiry : seconds 0 [1, 0, 0] = 3600 := by norm_num [seconds, Iso8601.unit]
  have hclock : seconds 0 [2, 0, 0] = 7200 := by norm_num [seconds, Iso8601.unit]
  have hoffset : (Zone.minutes true 5 0).offset = -18000 := by norm_num [Zone.offset]
  have hgreenwich : Zone.greenwich.offset = 0 := by norm_num [Zone.greenwich, Zone.offset]
  change ¬ 86400 * (sampleDate.number : ℚ) + seconds 0 [1, 0, 0] - (Zone.minutes true 5 0).offset <
    86400 * sampleDate.number + seconds 0 [2, 0, 0] - Zone.greenwich.offset
  rw [hexpiry, hclock, hoffset, hgreenwich]
  generalize (sampleDate.number : ℚ) = days
  linarith

/-- A record is deleted before it expires. -/
theorem pruneExpired_deletes_early :
    ¬ ∀ (memory : LongTermMemory) (clock : UtcDatetime) (expiry : MemoryRecord → Option IsoInstant)
        (after : MemoryRecords) (count : ℕ), (∀ row ∈ memory.records.rows, Expires row.value (expiry row)) →
      pruneExpired (nowText clock) memory.records (memory.records.rows.map MemoryRecord.value) = some (after, count) →
        after.rows = memory.records.rows.filter fun row => !overdueInstant clock (expiry row) := by
  intro hclaim
  obtain ⟨after, hrun, hrows⟩ := pruneExpired_run sampleMemory sampleClock sampleMemory.records.rows
    (fun _ => some sampleExpiry) (List.Perm.refl _) expires_sample
  have hexact := hclaim sampleMemory sampleClock (fun _ => some sampleExpiry) after _ expires_sample hrun
  rw [hrows, filter_eq_filter_iff] at hexact
  have htext : overdueText sampleClock (some sampleExpiry) = true := by decide
  have hsame := hexact _ (List.mem_singleton_self _)
  rw [htext, overdueInstant, decide_eq_false sampleExpiry_later] at hsame
  cases hsame

end AgentSystem.Memory
