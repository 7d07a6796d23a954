import AgentSystem.KeyedTable
import AgentSystem.MissionRun

/-!
# The Mission store

The two tables of the store and its methods. Every method runs one transaction of its own; the
statements of a transaction may fail, and an exception rolls all of them back.
-/
namespace AgentSystem.Missions

/-- `SCHEMA_VERSION`. -/
def schemaVersion : String := "1.0"

/-- A row of `missions`. The payload is what its JSON text decodes to before validation, `none`
for a text that is no Mission. -/
structure MissionRow where
  missionId : MissionId
  ownerActorId : ActorId
  schemaVersion : String
  revision : ℕ
  createdAt : Datetime
  updatedAt : Datetime
  payload : Option Mission

/-- A row of `mission_transitions`. -/
structure TransitionRow where
  missionId : MissionId
  idempotencyKey : IdempotencyKey
  event : MissionEvent
  audit : Option MissionTransitionAudit

/-- The primary key of `mission_transitions`. -/
def TransitionRow.key (row : TransitionRow) : MissionId × IdempotencyKey :=
  (row.missionId, row.idempotencyKey)

structure Database where
  missions : KeyedTable MissionRow MissionRow.missionId
  transitions : KeyedTable TransitionRow TransitionRow.key

/-- The exceptions that leave the store: the subclasses of `MissionStoreError`, those of the state
machine, a `ValidationError`, and what the hook before a commit raises. -/
inductive StoreError
  | conflict (code detail : String)
  | corruption (code detail : String)
  | validation (code detail : String)
  | unavailable (code detail : String)
  | transition (failure : TransitionFailure)
  | invalid (error : MissionError)
  | hook
  deriving DecidableEq

/-- The statement of a transaction that fails, or the hook before its commit. -/
inductive Fault
  | begin
  | select
  | receipt
  | update
  | insert
  | hook
  | commit
  deriving DecidableEq

def storeUnavailable : StoreError :=
  .unavailable "store_unavailable" "Mission store is temporarily unavailable"

def staleRevision (detail : String) : StoreError := .conflict "stale_revision" detail

namespace Database

def empty : Database := ⟨.empty, .empty⟩

/-- Run the statements and commit, or roll back when they raise. -/
def transaction {α : Type} (db : Database) (body : Database → Except StoreError (Database × α)) :
    Database × Except StoreError α :=
  match body db with
  | .error error => (db, .error error)
  | .ok (db', value) => (db', .ok value)

end Database

/-- `_validated`. -/
def validated (m : Mission) : Except StoreError Mission :=
  match m.modelValidate with
  | .ok m => .ok m
  | .error _ =>
      .error (.validation "invalid_aggregate_contract" "Mission aggregate validation failed")

/-- `_load_row`. -/
def loadRow (row : MissionRow) : Except StoreError Mission :=
  if row.schemaVersion ≠ schemaVersion then
    .error (.corruption "unsupported_contract_schema"
      "Mission contract schema version is unsupported")
  else
    match row.payload.map Mission.modelValidate with
    | some (.ok m) => .ok m
    | _ => .error (.corruption "corrupt_mission_payload" "Stored mission record is invalid")

/-- The condition `AND owner_actor_id = ?` of the statements that are given an owner. -/
def ownedBy (ownerId : Option ActorId) (row : MissionRow) : Bool :=
  match ownerId with
  | none => true
  | some ownerId => decide (row.ownerActorId = ownerId)

/-- The row that `create` inserts. -/
def newRow (m : Mission) : MissionRow where
  missionId := m.missionId
  ownerActorId := m.ownerId
  schemaVersion := schemaVersion
  revision := m.revision
  createdAt := m.createdAt
  updatedAt := m.updatedAt
  payload := some m

/-- `SET revision = ?, updated_at = ?, payload = ?`. -/
def writePayload (m : Mission) (row : MissionRow) : MissionRow :=
  { row with
    revision := m.revision
    updatedAt := m.updatedAt
    payload := some m }

lemma writePayload_missionId (m : Mission) (row : MissionRow) :
    (writePayload m row).missionId = row.missionId := rfl

/-- `WHERE mission_id = ? AND owner_actor_id = ? AND revision = ?`. -/
def matchesRevision (missionId : MissionId) (ownerId : Option ActorId) (revision : ℕ)
    (row : MissionRow) : Bool :=
  decide (row.missionId = missionId) && ownedBy ownerId row && decide (row.revision = revision)

namespace Database

/-- `SELECT … FROM missions WHERE mission_id = ? AND owner_actor_id = ?`. -/
def selectMission (db : Database) (missionId : MissionId) (ownerId : Option ActorId) :
    Option MissionRow :=
  (db.missions.lookup missionId).filter (ownedBy ownerId)

/-- `UPDATE missions`, `none` when it does not change exactly one row. -/
def updateMission (db : Database) (missionId : MissionId) (ownerId : Option ActorId)
    (revision : ℕ) (m : Mission) : Option Database :=
  let matching := matchesRevision missionId ownerId revision
  if db.missions.count matching ≠ 1 then none
  else
    some
      { db with
        missions := db.missions.update matching (writePayload m) (writePayload_missionId m) }

/-- `INSERT INTO mission_transitions`, `none` for an `IntegrityError`: a key in use, or a row that
belongs to no Mission. -/
def insertTransition (db : Database) (missionId : MissionId) (request : TransitionRequest)
    (audit : MissionTransitionAudit) : Option Database :=
  if (db.missions.lookup missionId).isNone then none
  else
    (db.transitions.insert ⟨missionId, request.idempotencyKey, request.event, some audit⟩).map
      fun transitions => { db with transitions := transitions }

/-- `MissionStore.create`. -/
def create (db : Database) (mission : Mission) (fault : Option Fault) :
    Database × Except StoreError Mission :=
  match validated mission with
  | .error error => (db, .error error)
  | .ok mission =>
      db.transaction fun db =>
        if fault = some .begin ∨ fault = some .insert then .error storeUnavailable
        else
          match db.missions.insert (newRow mission) with
          | none => .error (.conflict "duplicate_mission" "Mission already exists")
          | some missions =>
              if fault = some .commit then .error storeUnavailable
              else .ok ({ db with missions := missions }, mission)

/-- `MissionStore.get`. -/
def get (db : Database) (missionId : MissionId) (ownerId : Option ActorId)
    (fault : Option Fault) : Except StoreError (Option Mission) :=
  if fault = some .select then .error storeUnavailable
  else
    match db.selectMission missionId ownerId with
    | none => .ok none
    | some row => (loadRow row).map some

/-- `MissionStore.save`; `now` is what the clock answers. The checks before the transaction look
only at the given Mission. -/
def save (db : Database) (mission : Mission) (expectedRevision : ℕ) (ownerId : Option ActorId)
    (now : Datetime) (fault : Option Fault) : Database × Except StoreError Mission :=
  match validated mission with
  | .error error => (db, .error error)
  | .ok mission =>
      if mission.revision ≠ expectedRevision then
        (db, .error (staleRevision "Mission revision does not match expected revision"))
      else
        match { mission with revision := expectedRevision + 1, updatedAt := now }.modelValidate with
        | .error error => (db, .error (.invalid error))
        | .ok updated =>
            db.transaction fun db =>
              if fault = some .begin ∨ fault = some .update then .error storeUnavailable
              else
                match db.updateMission updated.missionId ownerId expectedRevision updated with
                | none => .error (staleRevision "Mission revision is stale")
                | some db' =>
                    if fault = some .commit then .error storeUnavailable else .ok (db', updated)

variable [CanonicalDigest]

/-- The part of `append_transition` after the receipt was not found. -/
def applyTransition (db : Database) (missionId : MissionId) (mission : Mission)
    (request : TransitionRequest) (expectedRevision : Option ℕ) (ownerId : Option ActorId)
    (now : Datetime) (fault : Option Fault) : Except StoreError (Database × TransitionResult) :=
  if ∃ expected ∈ expectedRevision, mission.revision ≠ expected then
    .error (staleRevision "Mission revision is stale")
  else
    match mission.transition request now with
    | .error failure => .error (.transition failure)
    | .ok result =>
        match validated result.mission with
        | .error error => .error error
        | .ok validatedMission =>
            let result : TransitionResult := ⟨validatedMission, result.audit, result.replayed⟩
            if fault = some .update then .error storeUnavailable
            else
              match db.updateMission missionId ownerId mission.revision result.mission with
              | none => .error (staleRevision "Mission revision is stale")
              | some db =>
                  if fault = some .insert then .error storeUnavailable
                  else
                    match db.insertTransition missionId request result.audit with
                    | none => .error storeUnavailable
                    | some db =>
                        if fault = some .hook then .error .hook
                        else if fault = some .commit then .error storeUnavailable
                        else .ok (db, result)

/-- `MissionStore.append_transition`; `now` is what the clock of the state machine answers. -/
def appendTransition (db : Database) (missionId : MissionId) (request : TransitionRequest)
    (expectedRevision : Option ℕ) (ownerId : Option ActorId) (now : Datetime)
    (fault : Option Fault) : Database × Except StoreError TransitionResult :=
  db.transaction fun db =>
    if fault = some .begin ∨ fault = some .select then .error storeUnavailable
    else
      match db.selectMission missionId ownerId with
      | none => .error (.conflict "mission_not_found" "Mission does not exist")
      | some row =>
          match loadRow row with
          | .error error => .error error
          | .ok mission =>
              if fault = some .receipt then .error storeUnavailable
              else
                match db.transitions.lookup (missionId, request.idempotencyKey) with
                | none =>
                    db.applyTransition missionId mission request expectedRevision ownerId now fault
                | some existing =>
                    match existing.audit with
                    | none =>
                        .error (.corruption "corrupt_transition_receipt"
                          "Stored transition receipt is invalid")
                    | some audit =>
                        if audit.event ≠ request.event ∨
                            audit.approvalSubject ≠ request.approvalSubject then
                          .error (.conflict "idempotency_conflict"
                            "Idempotency key was used for another event or subject")
                        else if fault = some .commit then .error storeUnavailable
                        else .ok (db, ⟨mission, audit, true⟩)

end Database

end AgentSystem.Missions
