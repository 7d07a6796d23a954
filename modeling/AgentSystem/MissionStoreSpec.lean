import AgentSystem.MissionStore

/-!
# What the methods of the store do

An attempt that raises leaves the database as it was. An attempt that returns has found the row
it needs, and its commit replaces the payload of this row only.
-/
namespace AgentSystem.Missions

/-- The Mission that `save` stores. -/
def Mission.saved (m : Mission) (now : Datetime) : Mission :=
  { m with
    revision := m.revision + 1
    updatedAt := now }

variable {m m' : Mission} {row : MissionRow}

lemma validated_eq_ok : validated m = .ok m' ↔ m.modelValidate = .ok m' := by
  unfold validated
  cases h : m.modelValidate <;> simp

lemma loadRow_eq_ok :
    loadRow row = .ok m ↔
      row.schemaVersion = schemaVersion ∧ row.payload = some m ∧ m.modelValidate = .ok m := by
  unfold loadRow
  constructor
  · intro h
    split_ifs at h with hschema
    split at h
    · next value hvalue =>
      cases h
      obtain ⟨stored, hstored, hvalid⟩ := Option.map_eq_some_iff.mp hvalue
      obtain ⟨rfl, -⟩ := Mission.modelValidate_eq_ok.mp hvalid
      exact ⟨not_not.mp hschema, hstored, hvalid⟩
    · cases h
  · rintro ⟨hschema, hpayload, hvalid⟩
    rw [if_neg (not_not.mpr hschema), hpayload, Option.map_some, hvalid]

/-- A row that was written with a validated Mission is read as this Mission. -/
lemma loadRow_newRow (hvalid : m.modelValidate = .ok m) : loadRow (newRow m) = .ok m :=
  loadRow_eq_ok.mpr ⟨rfl, rfl, hvalid⟩

lemma loadRow_writePayload (hschema : row.schemaVersion = schemaVersion)
    (hvalid : m.modelValidate = .ok m) : loadRow (writePayload m row) = .ok m :=
  loadRow_eq_ok.mpr ⟨hschema, rfl, hvalid⟩

namespace Database

variable {db db' : Database} {missionId : MissionId} {ownerId : Option ActorId}
  {fault : Option Fault} {now : Datetime}

section Transaction

variable {α : Type} {body : Database → Except StoreError (Database × α)} {value : α}
  {error : StoreError}

lemma transaction_eq_ok : db.transaction body = (db', .ok value) ↔ body db = .ok (db', value) := by
  unfold transaction
  split <;> simp_all

/-- Rollback. -/
lemma transaction_eq_error (h : db.transaction body = (db', .error error)) : db' = db := by
  unfold transaction at h
  split at h
  · exact (congrArg Prod.fst h).symm
  · cases h

end Transaction

/-- The database after the payload of one row was replaced. -/
structure Replaces (db db' : Database) (missionId : MissionId) (m : Mission) (row : MissionRow) :
    Prop where
  found : db.missions.lookup missionId = some row
  written : db'.missions.lookup missionId = some (writePayload m row)
  frame : ∀ k, k ≠ missionId → db'.missions.lookup k = db.missions.lookup k

lemma selectMission_eq_some (h : db.selectMission missionId ownerId = some row) :
    db.missions.lookup missionId = some row ∧ ownedBy ownerId row = true :=
  Option.filter_eq_some_iff.mp h

lemma updateMission_eq_some {revision : ℕ}
    (h : db.updateMission missionId ownerId revision m = some db') :
    db'.transitions = db.transitions ∧
      ∃ row, Replaces db db' missionId m row ∧ row.revision = revision := by
  unfold updateMission at h
  dsimp only at h
  split_ifs at h with hcount
  cases h
  obtain ⟨row, hlookup, hmatch⟩ := (KeyedTable.count_eq_one (k := missionId) fun row hrow => by
    simp only [matchesRevision, Bool.and_eq_true, decide_eq_true_eq] at hrow
    exact hrow.1.1).mp (not_not.mp hcount)
  have hrevision : row.revision = revision := by
    simp only [matchesRevision, Bool.and_eq_true, decide_eq_true_eq] at hmatch
    exact hmatch.2
  refine ⟨rfl, row, ⟨hlookup, ?_, ?_⟩, hrevision⟩
  · have hwritten := KeyedTable.lookup_update (t := db.missions)
      (p := matchesRevision missionId ownerId revision) (writePayload_missionId m) missionId
    rw [hwritten, hlookup, Option.map_some, if_pos hmatch]
  · intro k hk
    rw [KeyedTable.lookup_update (t := db.missions) (writePayload_missionId m)]
    cases hother : db.missions.lookup k with
    | none => rfl
    | some other =>
        have hkey := (KeyedTable.lookup_eq_some.mp hother).2
        have hmiss : matchesRevision missionId ownerId revision other = false := by
          simp [matchesRevision, hkey, hk]
        simp [hmiss]

lemma insertTransition_eq_some {request : TransitionRequest} {audit : MissionTransitionAudit}
    (h : db.insertTransition missionId request audit = some db') :
    db'.missions = db.missions ∧
      db'.transitions.rows =
        db.transitions.rows ++ [⟨missionId, request.idempotencyKey, request.event, some audit⟩] := by
  unfold insertTransition at h
  split_ifs at h
  obtain ⟨transitions, hinsert, rfl⟩ := Option.map_eq_some_iff.mp h
  exact ⟨rfl, KeyedTable.insert_rows hinsert⟩

/-! ## `create` -/

lemma create_eq_error {error : StoreError} (h : db.create m fault = (db', .error error)) :
    db' = db := by
  unfold create at h
  split at h
  · exact (congrArg Prod.fst h).symm
  · exact transaction_eq_error h

lemma create_eq_ok (h : db.create m fault = (db', .ok m')) :
    m' = m ∧ m.modelValidate = .ok m ∧ db'.transitions = db.transitions ∧
      db.missions.insert (newRow m) = some db'.missions := by
  unfold create at h
  split at h
  · cases h
  next stored hvalidated =>
  have hvalid := validated_eq_ok.mp hvalidated
  obtain ⟨rfl, -⟩ := Mission.modelValidate_eq_ok.mp hvalid
  have hbody := transaction_eq_ok.mp h
  split at hbody
  · cases hbody
  split at hbody
  · cases hbody
  next missions hinsert =>
  split at hbody
  · cases hbody
  cases hbody
  exact ⟨rfl, hvalid, rfl, hinsert⟩

/-! ## `get` -/

lemma get_eq_some (h : db.get missionId ownerId fault = .ok (some m)) :
    ∃ row, db.missions.lookup missionId = some row ∧ loadRow row = .ok m := by
  unfold get at h
  split_ifs at h
  split at h
  · cases h
  next row hselect =>
  cases hload : loadRow row with
  | error error =>
      rw [hload] at h
      cases h
  | ok loaded =>
      rw [hload] at h
      cases h
      exact ⟨row, (selectMission_eq_some hselect).1, hload⟩

/-! ## `save` -/

lemma save_eq_error {expectedRevision : ℕ} {error : StoreError}
    (h : db.save m expectedRevision ownerId now fault = (db', .error error)) : db' = db := by
  unfold save at h
  split at h
  · exact (congrArg Prod.fst h).symm
  split at h
  · exact (congrArg Prod.fst h).symm
  split at h
  · exact (congrArg Prod.fst h).symm
  · exact transaction_eq_error h

/-- A save that returns has compared the revision with that of the row and replaced the payload. -/
lemma save_eq_ok {expectedRevision : ℕ}
    (h : db.save m expectedRevision ownerId now fault = (db', .ok m')) :
    m.revision = expectedRevision ∧ m' = m.saved now ∧ m'.modelValidate = .ok m' ∧
      db'.transitions = db.transitions ∧
      ∃ row, Replaces db db' m'.missionId m' row ∧ row.revision = expectedRevision := by
  unfold save at h
  split at h
  · cases h
  next given hvalidated =>
  obtain ⟨rfl, -⟩ := Mission.modelValidate_eq_ok.mp (validated_eq_ok.mp hvalidated)
  split at h
  · cases h
  next hrevision =>
  rw [not_not] at hrevision
  subst hrevision
  split at h
  · cases h
  next updated hupdated =>
  obtain ⟨rfl, -⟩ := Mission.modelValidate_eq_ok.mp hupdated
  have hbody := transaction_eq_ok.mp h
  split at hbody
  · cases hbody
  split at hbody
  · cases hbody
  next after hupdate =>
  split at hbody
  · cases hbody
  cases hbody
  obtain ⟨htransitions, hreplaces⟩ := updateMission_eq_some hupdate
  exact ⟨rfl, rfl, hupdated, htransitions, hreplaces⟩

/-! ## `append_transition` -/

section Append

variable [CanonicalDigest] {request : TransitionRequest} {expectedRevision : Option ℕ}
  {result : TransitionResult}

lemma appendTransition_eq_error {error : StoreError}
    (h : db.appendTransition missionId request expectedRevision ownerId now fault =
      (db', .error error)) : db' = db :=
  transaction_eq_error h

/-- The transition was found among the receipts and nothing is written. -/
structure Replays (db db' : Database) (missionId : MissionId) (m : Mission)
    (request : TransitionRequest) (result : TransitionResult) : Prop where
  receipt : ∃ receipt, db.transitions.lookup (missionId, request.idempotencyKey) = some receipt ∧
    receipt.audit = some result.audit
  event : result.audit.event = request.event
  subject : result.audit.approvalSubject = request.approvalSubject
  mission : result.mission = m
  replayed : result.replayed = true
  unchanged : db' = db

/-- The state machine answered, and its Mission and audit are written. -/
structure Applies (db db' : Database) (missionId : MissionId) (m : Mission)
    (request : TransitionRequest) (expectedRevision : Option ℕ) (now : Datetime)
    (result : TransitionResult) : Prop where
  newReceipt : db.transitions.lookup (missionId, request.idempotencyKey) = none
  expected : ∀ expected ∈ expectedRevision, m.revision = expected
  transition : m.transition request now = .ok result
  valid : result.mission.modelValidate = .ok result.mission
  missions : ∃ row, Replaces db db' missionId result.mission row ∧ row.revision = m.revision
  transitions : db'.transitions.rows =
    db.transitions.rows ++
      [⟨missionId, request.idempotencyKey, request.event, some result.audit⟩]

lemma applyTransition_eq_ok
    (h : db.applyTransition missionId m request expectedRevision ownerId now fault =
      .ok (db', result))
    (hnew : db.transitions.lookup (missionId, request.idempotencyKey) = none) :
    Applies db db' missionId m request expectedRevision now result := by
  unfold applyTransition at h
  split at h
  · cases h
  next hexpected =>
  push Not at hexpected
  split at h
  · cases h
  next answer hanswer =>
  split at h
  · cases h
  next stored hstored =>
  have hvalid := validated_eq_ok.mp hstored
  obtain ⟨rfl, -⟩ := Mission.modelValidate_eq_ok.mp hvalid
  dsimp only at h
  split at h
  · cases h
  split at h
  · cases h
  next updated hupdate =>
  split at h
  · cases h
  split at h
  · cases h
  next inserted hinsert =>
  split at h
  · cases h
  split at h
  · cases h
  cases h
  obtain ⟨htransitions, row, hreplaces, hrevision⟩ := updateMission_eq_some hupdate
  obtain ⟨hmissions, hrows⟩ := insertTransition_eq_some hinsert
  rw [htransitions] at hrows
  refine ⟨hnew, hexpected, hanswer, hvalid, ⟨row, ⟨hreplaces.found, ?_, ?_⟩, hrevision⟩, hrows⟩
  · rw [hmissions]
    exact hreplaces.written
  · rw [hmissions]
    exact hreplaces.frame

lemma appendTransition_eq_ok
    (h : db.appendTransition missionId request expectedRevision ownerId now fault =
      (db', .ok result)) :
    ∃ row m, db.missions.lookup missionId = some row ∧ loadRow row = .ok m ∧
      (Replays db db' missionId m request result ∨
        Applies db db' missionId m request expectedRevision now result) := by
  have hbody := transaction_eq_ok.mp h
  split at hbody
  · cases hbody
  split at hbody
  · cases hbody
  next row hselect =>
  split at hbody
  · cases hbody
  next m hload =>
  refine ⟨row, m, (selectMission_eq_some hselect).1, hload, ?_⟩
  split at hbody
  · cases hbody
  split at hbody
  · next hnew => exact .inr (applyTransition_eq_ok hbody hnew)
  next receipt hreceipt =>
  split at hbody
  · cases hbody
  next audit haudit =>
  split at hbody
  · cases hbody
  next hsame =>
  push Not at hsame
  split at hbody
  · cases hbody
  cases hbody
  exact .inl ⟨⟨receipt, hreceipt, haudit⟩, hsame.1, hsame.2, rfl, rfl, rfl⟩

end Append

end Database

end AgentSystem.Missions
