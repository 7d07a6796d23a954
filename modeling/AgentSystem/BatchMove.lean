import AgentSystem.MemoryBackends

/-!
# Moving records to another category

`LongTermMemoryStore.batch_move` over the table of records. The record is rebuilt from the stored dictionary, field
by field: the category is the new one, the privacy level is the default, and fields without a place are lost.
-/
namespace AgentSystem.Memory

open Raft

/-! ## Records -/

/-- `LongTermMemoryRecord`. What comes out of a stored dictionary may be of any type. -/
structure LongTermMemoryRecord where
  id : String
  sessionId : String
  createdAt : Json
  source : Json
  sourceHash : Json
  summary : Json
  keywords : Json
  messageCount : Json
  payload : Json
  domain : Json := .str "episodic"
  confidence : Json := .num 1
  citations : Json := .null
  expiresAt : Json := .null
  privacyLevel : Json := .str "session"
  category : String := "general"

/-- `asdict`. -/
def LongTermMemoryRecord.asdict (record : LongTermMemoryRecord) : Value :=
  [("id", .str record.id), ("session_id", .str record.sessionId), ("created_at", record.createdAt),
    ("source", record.source), ("source_hash", record.sourceHash), ("summary", record.summary),
    ("keywords", record.keywords), ("message_count", record.messageCount), ("payload", record.payload),
    ("domain", record.domain), ("confidence", record.confidence), ("citations", record.citations),
    ("expires_at", record.expiresAt), ("privacy_level", record.privacyLevel), ("category", .str record.category)]

/-- `existing.get(name, default)`. -/
def get (existing : Value) (name : String) (default : Json) : Json := (existing.lookup name).getD default

/-- The record that a move makes of a stored dictionary. -/
def movedRecord (newCategory now sessionId key : String) (existing : Value) : LongTermMemoryRecord where
  id := key
  sessionId := sessionId
  createdAt := get existing "created_at" (.str now)
  source := get existing "source" (.str "user_edit")
  sourceHash := get existing "source_hash" (.str "")
  summary := get existing "summary" (.str "")
  keywords := get existing "keywords" (.arr [])
  messageCount := get existing "message_count" (.num 0)
  payload := get existing "payload" (.obj [])
  domain := get existing "domain" (.str "episodic")
  confidence := get existing "confidence" (.num 1)
  citations := get existing "citations" (.arr [])
  expiresAt := get existing "expires_at" .null
  category := newCategory

/-! ## The loop -/

/-- An item of `target_items`, and what `_now()` says in its turn. -/
structure TargetItem where
  sessionId : Option String
  key : Option String
  now : String

/-- The record that an item names. -/
structure Target where
  sessionId : String
  key : String
  now : String

/-- `if not session_id or not key: continue`. -/
def TargetItem.target (item : TargetItem) : Option Target :=
  match item.sessionId, item.key with
  | some sessionId, some key => if sessionId = "" ∨ key = "" then none else some ⟨sessionId, key, item.now⟩
  | _, _ => none

/-- `batch_move`: the table afterwards, and the number of records moved, `none` when it raises. -/
def batchMove (newCategory : String) (records : MemoryRecords) : List TargetItem → MemoryRecords × Option ℕ
  | [] => (records, some 0)
  | item :: items =>
      match item.target with
      | none => batchMove newCategory records items
      | some target =>
          match SQLiteBackend.read records target.sessionId target.key with
          | none => (records, none)
          | some none => batchMove newCategory records items
          | some (some existing) =>
              let record := movedRecord newCategory target.now target.sessionId target.key existing
              match SQLiteBackend.write records target.sessionId record.id record.asdict with
              | none => (records, none)
              | some records =>
                  let (records, moved) := batchMove newCategory records items
                  (records, moved.map (· + 1))

/-! ## What is moved -/

/-- The records that the loop comes to: it raises at the first session id that is not valid. -/
def reached (items : List TargetItem) : List Target :=
  (items.filterMap TargetItem.target).takeWhile fun target => sessionIdPattern target.sessionId

/-- Whether a record is among the moved ones. -/
def Moved (items : List TargetItem) (at' : String × String) : Prop :=
  ∃ target ∈ reached items, (target.sessionId, target.key) = at'

/-- A move keeps these fields where the dictionary has them. -/
def copiedFields : List String :=
  ["created_at", "source", "source_hash", "summary", "keywords", "message_count", "payload", "domain", "confidence",
    "citations", "expires_at"]

/-- The dictionary has all fields of a record and no others, it names its place in the table, and its privacy level is
the default one. -/
structure Canonical (at' : String × String) (existing : Value) : Prop where
  copied : ∀ name ∈ copiedFields, (existing.lookup name).isSome
  id : existing.lookup "id" = some (.str at'.2)
  sessionId : existing.lookup "session_id" = some (.str at'.1)
  privacyLevel : existing.lookup "privacy_level" = some (.str "session")
  known : ∀ name, name ∉ copiedFields ++ ["id", "session_id", "privacy_level", "category"] →
    existing.lookup name = none

/-- Two dictionaries differ in the category at most. -/
def SameButCategory (a b : Value) : Prop := ∀ name, name ≠ "category" → a.lookup name = b.lookup name

variable {newCategory now sessionId key : String} {existing : Value}

lemma LongTermMemoryRecord.asdict_known (record : LongTermMemoryRecord) {name : String}
    (h : name ∉ copiedFields ++ ["id", "session_id", "privacy_level", "category"]) :
    record.asdict.lookup name = none := by
  simp only [copiedFields, List.cons_append, List.nil_append, List.mem_cons, List.not_mem_nil, not_or] at h
  rw [List.lookup_eq_none_iff]
  simp only [LongTermMemoryRecord.asdict, List.forall_mem_cons]
  simp
  tauto

variable (newCategory now sessionId key existing) in
/-- A copied field is the stored one, or its default. -/
lemma movedRecord_copied {name : String} (h : name ∈ copiedFields) : ∃ default,
    (movedRecord newCategory now sessionId key existing).asdict.lookup name = some (get existing name default) := by
  simp only [copiedFields, List.mem_cons, List.not_mem_nil, or_false] at h
  obtain rfl | rfl | rfl | rfl | rfl | rfl | rfl | rfl | rfl | rfl | rfl := h <;> exact ⟨_, rfl⟩

/-- A move changes the category only of the dictionaries that are canonical. -/
lemma sameButCategory_iff :
    SameButCategory (movedRecord newCategory now sessionId key existing).asdict existing ↔
      Canonical (sessionId, key) existing := by
  constructor
  · intro h
    refine
      { copied := ?_
        id := (h "id" (by decide)).symm
        sessionId := (h "session_id" (by decide)).symm
        privacyLevel := (h "privacy_level" (by decide)).symm
        known := ?_ }
    · intro name hname
      obtain ⟨default, hdefault⟩ := movedRecord_copied newCategory now sessionId key existing hname
      rw [← h name (by rintro rfl; exact absurd hname (by decide)), hdefault]
      rfl
    · intro name hname
      rw [← h name (by rintro rfl; exact absurd hname (by decide))]
      exact LongTermMemoryRecord.asdict_known _ hname
  · intro h name hcategory
    by_cases hknown : name ∈ copiedFields ++ ["id", "session_id", "privacy_level", "category"]
    · rcases List.mem_append.mp hknown with hcopied | hother
      · obtain ⟨default, hdefault⟩ := movedRecord_copied newCategory now sessionId key existing hcopied
        obtain ⟨value, hvalue⟩ := Option.isSome_iff_exists.mp (h.copied name hcopied)
        rw [hdefault, get, hvalue, Option.getD_some]
      · simp only [List.mem_cons, List.not_mem_nil, or_false, hcategory] at hother
        obtain rfl | rfl | rfl := hother
        · exact h.id.symm
        · exact h.sessionId.symm
        · exact h.privacyLevel.symm
    · rw [LongTermMemoryRecord.asdict_known _ hknown, h.known name hknown]

/-! ## The run -/

variable {records : MemoryRecords} {item : TargetItem} {items : List TargetItem} {target : Target}
  {at' : String × String}

lemma reached_cons_none (h : item.target = none) : reached (item :: items) = reached items := by
  rw [reached, List.filterMap_cons_none h, reached]

lemma reached_cons_valid (h : item.target = some target) (hvalid : sessionIdPattern target.sessionId = true) :
    reached (item :: items) = target :: reached items := by
  rw [reached, List.filterMap_cons_some h, List.takeWhile_cons, if_pos hvalid, reached]

lemma reached_cons_invalid (h : item.target = some target) (hvalid : ¬ sessionIdPattern target.sessionId = true) :
    reached (item :: items) = [] := by
  rw [reached, List.filterMap_cons_some h, List.takeWhile_cons, if_neg hvalid]

lemma moved_cons (h : reached (item :: items) = target :: reached items) :
    Moved (item :: items) at' ↔ (target.sessionId, target.key) = at' ∨ Moved items at' := by
  rw [Moved, h, Moved]
  simp only [List.mem_cons, exists_eq_or_imp]

/-- The row after a move of the row before. -/
def MovedRow (newCategory : String) (at' : String × String) (old new : Option MemoryRecord) : Prop :=
  ∃ now, new = old.map fun row => { row with value := (movedRecord newCategory now at'.1 at'.2 row.value).asdict }

lemma MovedRow.trans {old mid new : Option MemoryRecord} (h : MovedRow newCategory at' old mid)
    (hnext : MovedRow newCategory at' mid new) : MovedRow newCategory at' old new := by
  obtain ⟨now, rfl⟩ := h
  obtain ⟨later, rfl⟩ := hnext
  refine ⟨now, ?_⟩
  cases old with
  | none => rfl
  | some row => rfl

/-- What a write does to the table. -/
lemma lookup_write {value : Value} {records' : MemoryRecords}
    (h : SQLiteBackend.write records sessionId key value = some records') (at' : String × String) :
    records'.lookup at' =
      if (sessionId, key) = at' then
        some (((records.lookup at').map fun row => { row with value := value }).getD ⟨sessionId, key, value⟩)
      else records.lookup at' := by
  obtain ⟨valid, hvalid, rfl⟩ := Option.map_eq_some_iff.mp h
  obtain rfl := Option.some.inj (Option.ite_none_right_eq_some.mp hvalid).2
  exact KeyedTable.lookup_upsert _ at'

lemma read_valid (h : sessionIdPattern sessionId = true) :
    SQLiteBackend.read records sessionId key = some ((records.lookup (sessionId, key)).map MemoryRecord.value) := by
  rw [SQLiteBackend.read, validateSessionId, if_pos h, Option.map_some]

lemma read_invalid (h : ¬ sessionIdPattern sessionId = true) : SQLiteBackend.read records sessionId key = none := by
  rw [SQLiteBackend.read, validateSessionId, if_neg h, Option.map_none]

variable (records key) in
lemma write_valid (h : sessionIdPattern sessionId = true) (value : Value) :
    ∃ records', SQLiteBackend.write records sessionId key value = some records' := by
  rw [SQLiteBackend.write, validateSessionId, if_pos h]
  exact ⟨_, rfl⟩

/-- An item that the loop comes to moves its row, and no other one. -/
lemma batchMove_cons (newCategory : String) (records : MemoryRecords) (items : List TargetItem)
    (htarget : item.target = some target) (hvalid : sessionIdPattern target.sessionId = true) :
    ∃ records', (batchMove newCategory records (item :: items)).1 = (batchMove newCategory records' items).1 ∧
      MovedRow newCategory (target.sessionId, target.key) (records.lookup (target.sessionId, target.key))
        (records'.lookup (target.sessionId, target.key)) ∧
      ∀ at', (target.sessionId, target.key) ≠ at' → records'.lookup at' = records.lookup at' := by
  cases hrow : records.lookup (target.sessionId, target.key) with
  | none =>
    refine ⟨records, ?_, ⟨target.now, hrow⟩, fun _ _ => rfl⟩
    rw [batchMove, htarget]
    simp only [read_valid hvalid, hrow, Option.map_none]
  | some row =>
    obtain ⟨records', hwrite⟩ := write_valid target.key records hvalid
      (movedRecord newCategory target.now target.sessionId target.key row.value).asdict
    refine ⟨records', ?_, ⟨target.now, ?_⟩, fun at' hother => ?_⟩
    · rw [batchMove, htarget]
      simp only [read_valid hvalid, hrow, Option.map_some]
      rw [show (movedRecord newCategory target.now target.sessionId target.key row.value).id = target.key from rfl,
        hwrite]
    · rw [lookup_write hwrite, if_pos rfl, hrow]
      rfl
    · rw [lookup_write hwrite, if_neg hother]

/-- A run moves the rows that it reaches and keeps the other ones. -/
lemma lookup_batchMove (newCategory : String) (records : MemoryRecords) (items : List TargetItem)
    (at' : String × String) :
    (Moved items at' →
        MovedRow newCategory at' (records.lookup at') ((batchMove newCategory records items).1.lookup at')) ∧
      (¬ Moved items at' → (batchMove newCategory records items).1.lookup at' = records.lookup at') := by
  induction items generalizing records with
  | nil =>
    refine ⟨?_, fun _ => rfl⟩
    rintro ⟨_, hmem, _⟩
    cases hmem
  | cons item items ih =>
    cases htarget : item.target with
    | none =>
      rw [Moved, reached_cons_none htarget, batchMove, htarget]
      exact ih records
    | some target =>
      by_cases hvalid : sessionIdPattern target.sessionId = true
      · obtain ⟨records', hrun, hrow, hothers⟩ := batchMove_cons newCategory records items htarget hvalid
        obtain ⟨hmoved, hkept⟩ := ih records'
        rw [moved_cons (reached_cons_valid htarget hvalid), hrun]
        by_cases hat : (target.sessionId, target.key) = at'
        · subst hat
          refine ⟨fun _ => ?_, fun h => absurd (.inl rfl) h⟩
          by_cases hlater : Moved items (target.sessionId, target.key)
          · exact hrow.trans (hmoved hlater)
          · rwa [hkept hlater]
        · rw [← hothers at' hat]
          exact ⟨fun h => hmoved (h.resolve_left hat), fun h => hkept (not_or.mp h).2⟩
      · rw [Moved, reached_cons_invalid htarget hvalid, batchMove, htarget]
        simp only [read_invalid hvalid]
        refine ⟨?_, fun _ => trivial⟩
        rintro ⟨_, hmem, _⟩
        cases hmem

/-- Rows that are not moved stay, moved ones have the new category, and the other fields of all moved ones stay
exactly if their dictionaries are canonical. -/
theorem batchMove_keeps_iff (newCategory : String) (records : MemoryRecords) (items : List TargetItem) :
    let after := (batchMove newCategory records items).1
    (∀ at', ¬ Moved items at' → after.lookup at' = records.lookup at') ∧
      (∀ at', Moved items at' → ∀ old, records.lookup at' = some old →
        ∃ new, after.lookup at' = some new ∧ new.value.lookup "category" = some (.str newCategory)) ∧
      ((∀ at', Moved items at' → ∀ old new, records.lookup at' = some old → after.lookup at' = some new →
          SameButCategory new.value old.value) ↔
        ∀ at', Moved items at' → ∀ old, records.lookup at' = some old → Canonical at' old.value) := by
  have hrow {at' : String × String} (hmoved : Moved items at') {old : MemoryRecord}
      (hold : records.lookup at' = some old) : ∃ now, (batchMove newCategory records items).1.lookup at' =
        some { old with value := (movedRecord newCategory now at'.1 at'.2 old.value).asdict } := by
    obtain ⟨now, hnew⟩ := (lookup_batchMove newCategory records items at').1 hmoved
    exact ⟨now, by rw [hnew, hold]; rfl⟩
  refine ⟨fun at' => (lookup_batchMove newCategory records items at').2, ?_, ?_, ?_⟩
  · intro at' hmoved old hold
    obtain ⟨now, hnew⟩ := hrow hmoved hold
    exact ⟨_, hnew, rfl⟩
  · intro h at' hmoved old hold
    obtain ⟨now, hnew⟩ := hrow hmoved hold
    exact sameButCategory_iff.mp (h at' hmoved old _ hold hnew)
  · intro h at' hmoved old new hold hnew
    obtain ⟨now, hrebuilt⟩ := hrow hmoved hold
    obtain rfl := Option.some.inj (hnew.symm.trans hrebuilt)
    exact sameButCategory_iff.mpr (h at' hmoved old hold)

/-- Among the dictionaries of records under their own session and key, those with the default privacy level are
canonical. -/
lemma canonical_asdict_iff (record : LongTermMemoryRecord) :
    Canonical (record.sessionId, record.id) record.asdict ↔ record.privacyLevel = .str "session" := by
  constructor
  · exact fun h => Option.some.inj h.privacyLevel
  · intro h
    refine ⟨fun name hname => ?_, rfl, rfl, congrArg some h, fun name => record.asdict_known⟩
    simp only [copiedFields, List.mem_cons, List.not_mem_nil, or_false] at hname
    obtain rfl | rfl | rfl | rfl | rfl | rfl | rfl | rfl | rfl | rfl | rfl := hname <;> rfl

/-- A record for the whole project. -/
def sampleRecord : LongTermMemoryRecord :=
  { id := "rec-1", sessionId := "s-1", createdAt := .str "2026-01-01T00:00:00+00:00", source := .str "workflow_memory",
    sourceHash := .str "", summary := .str "summary", keywords := .arr [], messageCount := .num 0, payload := .obj [],
    privacyLevel := .str "project" }

def sampleRecords : MemoryRecords where
  rows := [⟨"s-1", "rec-1", sampleRecord.asdict⟩]
  unique := List.nodup_singleton _

/-- The privacy level of the moved record is another one. -/
theorem batchMove_resets_privacy :
    ¬ ∀ (records : MemoryRecords) (items : List TargetItem) (newCategory : String) (at' : String × String)
        (old new : MemoryRecord),
      records.lookup at' = some old → (batchMove newCategory records items).1.lookup at' = some new →
        SameButCategory new.value old.value := by
  intro hclaim
  have hnew : (batchMove "archive" sampleRecords [⟨some "s-1", some "rec-1", ""⟩]).1.lookup ("s-1", "rec-1") =
      some ⟨"s-1", "rec-1", (movedRecord "archive" "" "s-1" "rec-1" sampleRecord.asdict).asdict⟩ := rfl
  have hprivacy := hclaim _ _ _ ("s-1", "rec-1") _ _ rfl hnew "privacy_level" (by decide)
  have htexts : Json.str "session" = Json.str "project" := Option.some.inj hprivacy
  exact absurd (Json.str.inj htexts) (by decide)

end AgentSystem.Memory
