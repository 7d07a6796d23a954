import AgentSystem.MissionStoreSpec

/-!
# Clients of the Mission store

Any number of clients call the store in any order. Every method runs in one transaction of the
database, so an interleaving of clients is a sequence of calls. A client that changes a Mission
works on a copy which it read from the store at some earlier time.
-/
namespace AgentSystem.Missions

/-- A Mission that a client holds, and the stored Mission that it was made from. -/
structure Copy where
  base : Mission
  mission : Mission

/-- A call of a client with all that it reads: the answer of the clock and the statement that
fails, if one does. -/
inductive ClientCall
  | create (mission : Mission) (fault : Option Fault)
  | get (missionId : MissionId) (ownerId : Option ActorId) (fault : Option Fault)
  | aggregate (copy : Copy) (call : AggregateCall)
  | save (copy : Copy) (expectedRevision : ℕ) (ownerId : Option ActorId) (now : Datetime)
      (fault : Option Fault)
  | appendTransition (missionId : MissionId) (request : TransitionRequest)
      (expectedRevision : Option ℕ) (ownerId : Option ActorId) (now : Datetime)
      (fault : Option Fault)

/-- The database and the copies that the clients hold. -/
structure System where
  db : Database
  copies : List Copy

/-- The copy that a client takes from what the store returns. -/
def learned : Except StoreError Mission → List Copy
  | .ok m => [⟨m, m⟩]
  | .error _ => []

namespace System

def empty : System := ⟨.empty, []⟩

def step [CanonicalDigest] (s : System) : ClientCall → System
  | .create mission fault =>
      let attempt := s.db.create mission fault
      ⟨attempt.1, learned attempt.2 ++ s.copies⟩
  | .get missionId ownerId fault =>
      match s.db.get missionId ownerId fault with
      | .ok (some m) => { s with copies := ⟨m, m⟩ :: s.copies }
      | _ => s
  | .aggregate copy call =>
      match copy.mission.aggregate call with
      | .ok m => { s with copies := ⟨copy.base, m⟩ :: s.copies }
      | .error _ => s
  | .save copy expectedRevision ownerId now fault =>
      let attempt := s.db.save copy.mission expectedRevision ownerId now fault
      ⟨attempt.1, learned attempt.2 ++ s.copies⟩
  | .appendTransition missionId request expectedRevision ownerId now fault =>
      let attempt := s.db.appendTransition missionId request expectedRevision ownerId now fault
      ⟨attempt.1, learned (attempt.2.map TransitionResult.mission) ++ s.copies⟩

/-- Created Missions are fresh, and what clients change and save are copies that they hold. -/
def Optimistic (s : System) : ClientCall → Prop
  | .create mission _ => mission.Fresh
  | .aggregate copy _ => copy ∈ s.copies
  | .save copy _ _ _ _ => copy ∈ s.copies
  | _ => True

end System

/-- The systems that calls reach from an empty store, when the calls satisfy `P`. -/
inductive History [CanonicalDigest] (P : System → ClientCall → Prop) : System → Prop
  | empty : History P .empty
  | step {s : System} {call : ClientCall} (prior : History P s) (allowed : P s call) :
      History P (s.step call)

/-- What a call does: nothing, a copy that a client reads or changes, or the commit of one of the
three writers. -/
inductive Effect [CanonicalDigest] (s : System) : ClientCall → System → Prop
  | idle {call : ClientCall} : Effect s call s
  | read {call : ClientCall} {missionId : MissionId} {row : MissionRow} {m : Mission}
      (found : s.db.missions.lookup missionId = some row) (loaded : loadRow row = .ok m) :
      Effect s call { s with copies := ⟨m, m⟩ :: s.copies }
  | changed {copy : Copy} {call : AggregateCall} {m : Mission}
      (returned : copy.mission.aggregate call = .ok m) :
      Effect s (.aggregate copy call) { s with copies := ⟨copy.base, m⟩ :: s.copies }
  | created {db : Database} {m : Mission} {fault : Option Fault}
      (valid : m.modelValidate = .ok m) (transitions : db.transitions = s.db.transitions)
      (missions : s.db.missions.insert (newRow m) = some db.missions) :
      Effect s (.create m fault) ⟨db, ⟨m, m⟩ :: s.copies⟩
  | saved {db : Database} {copy : Copy} {ownerId : Option ActorId} {now : Datetime}
      {fault : Option Fault} {m : Mission} {row : MissionRow} (mission : m = copy.mission.saved now)
      (valid : m.modelValidate = .ok m) (transitions : db.transitions = s.db.transitions)
      (missions : s.db.Replaces db m.missionId m row)
      (current : row.revision = copy.mission.revision) :
      Effect s (.save copy copy.mission.revision ownerId now fault) ⟨db, ⟨m, m⟩ :: s.copies⟩
  | applied {db : Database} {missionId : MissionId} {request : TransitionRequest}
      {expectedRevision : Option ℕ} {ownerId : Option ActorId} {now : Datetime}
      {fault : Option Fault} {row : MissionRow} {m : Mission} {result : TransitionResult}
      (found : s.db.missions.lookup missionId = some row) (loaded : loadRow row = .ok m)
      (applies : s.db.Applies db missionId m request expectedRevision now result) :
      Effect s (.appendTransition missionId request expectedRevision ownerId now fault)
        ⟨db, ⟨result.mission, result.mission⟩ :: s.copies⟩

lemma System.step_effect [CanonicalDigest] (s : System) (call : ClientCall) :
    Effect s call (s.step call) := by
  cases call with
  | create mission fault =>
      rcases h : s.db.create mission fault with ⟨db, error | stored⟩ <;> simp only [step, h]
      · obtain rfl := Database.create_eq_error h
        exact .idle
      · obtain ⟨rfl, hvalid, htransitions, hmissions⟩ := Database.create_eq_ok h
        exact .created hvalid htransitions hmissions
  | get missionId ownerId fault =>
      rcases h : s.db.get missionId ownerId fault with error | _ | m <;> simp only [step, h]
      · exact .idle
      · exact .idle
      · obtain ⟨row, hfound, hloaded⟩ := Database.get_eq_some h
        exact .read hfound hloaded
  | aggregate copy call =>
      rcases h : copy.mission.aggregate call with error | m <;> simp only [step, h]
      · exact .idle
      · exact .changed h
  | save copy expectedRevision ownerId now fault =>
      rcases h : s.db.save copy.mission expectedRevision ownerId now fault with
        ⟨db, error | m⟩ <;> simp only [step, h]
      · obtain rfl := Database.save_eq_error h
        exact .idle
      · obtain ⟨rfl, hm, hvalid, htransitions, row, hmissions, hcurrent⟩ := Database.save_eq_ok h
        exact .saved hm hvalid htransitions hmissions hcurrent
  | appendTransition missionId request expectedRevision ownerId now fault =>
      rcases h : s.db.appendTransition missionId request expectedRevision ownerId now fault with
        ⟨db, error | result⟩ <;> simp only [step, h]
      · obtain rfl := Database.appendTransition_eq_error h
        exact .idle
      · obtain ⟨row, m, hfound, hloaded, hreplays | happlies⟩ := Database.appendTransition_eq_ok h
        · obtain rfl := hreplays.unchanged
          obtain rfl := hreplays.mission
          exact .read hfound hloaded
        · exact .applied hfound hloaded happlies

/-! ## What every history keeps -/

/-- Every row can be loaded and agrees with its payload; every receipt belongs to a Mission and
agrees with the audit in it. -/
structure StoreSound (db : Database) : Prop where
  rows : ∀ missionId row, db.missions.lookup missionId = some row →
    ∃ m, loadRow row = .ok m ∧ m.missionId = missionId ∧ m.revision = row.revision
  receipts : ∀ receipt ∈ db.transitions.rows, ∃ audit, receipt.audit = some audit ∧
    audit.idempotencyKey = receipt.idempotencyKey ∧ audit.event = receipt.event
  owned : ∀ receipt ∈ db.transitions.rows, (db.missions.lookup receipt.missionId).isSome

lemma storeSound_empty : StoreSound .empty := by
  constructor <;> simp [Database.empty, KeyedTable.empty, KeyedTable.lookup]

lemma Mission.Moves.missionId [CanonicalDigest] {m : Mission} {request : TransitionRequest}
    {now : Datetime} {result : TransitionResult} (h : m.Moves request now result) :
    result.mission.missionId = m.missionId := by
  rw [h.mission]
  rfl

namespace StoreSound

variable [CanonicalDigest] {db db' : Database} {missionId : MissionId} {m : Mission}
  {row : MissionRow} {request : TransitionRequest} {expectedRevision : Option ℕ} {now : Datetime}
  {result : TransitionResult}

omit [CanonicalDigest] in
/-- A replaced payload under its own id keeps the rows sound. -/
lemma rows_of_replaces (h : StoreSound db) (hreplaces : db.Replaces db' missionId m row)
    (hid : m.missionId = missionId) (hvalid : m.modelValidate = .ok m) :
    ∀ k row', db'.missions.lookup k = some row' →
      ∃ m', loadRow row' = .ok m' ∧ m'.missionId = k ∧ m'.revision = row'.revision := by
  intro k row' hrow'
  by_cases hk : k = missionId
  · subst hk
    rw [hreplaces.written, Option.some.injEq] at hrow'
    subst hrow'
    obtain ⟨stored, hstored, -, -⟩ := h.rows k row hreplaces.found
    exact ⟨m, loadRow_writePayload (loadRow_eq_ok.mp hstored).1 hvalid, hid, rfl⟩
  · rw [hreplaces.frame k hk] at hrow'
    exact h.rows k row' hrow'

omit [CanonicalDigest] in
lemma isSome_of_replaces (hreplaces : db.Replaces db' missionId m row) {k : MissionId}
    (hk : (db.missions.lookup k).isSome) : (db'.missions.lookup k).isSome := by
  by_cases heq : k = missionId
  · rw [heq, hreplaces.written]
    rfl
  · rwa [hreplaces.frame k heq]

/-- The Mission and the audit that a transition returns carry the id of the Mission and the key
and event of the request. -/
lemma result_of_transition (hreturn : m.transition request now = .ok result) :
    result.mission.missionId = m.missionId ∧
      result.audit.idempotencyKey = request.idempotencyKey ∧ result.audit.event = request.event := by
  rcases Mission.transition_cases hreturn with ⟨hsame, -, -, hkey, hevent, -⟩ | hmoves
  · exact ⟨by rw [hsame], hkey, hevent⟩
  · obtain ⟨auditId, haudit⟩ := hmoves.audit
    refine ⟨hmoves.missionId, ?_, hmoves.event⟩
    rw [haudit]
    rfl

lemma applied (h : StoreSound db) (hfound : db.missions.lookup missionId = some row)
    (hloaded : loadRow row = .ok m)
    (happlies : db.Applies db' missionId m request expectedRevision now result) :
    StoreSound db' := by
  obtain ⟨row', hreplaces, -⟩ := happlies.missions
  obtain ⟨hresultId, hkey, hevent⟩ := result_of_transition happlies.transition
  obtain ⟨m', hm', hid, -⟩ := h.rows missionId row hfound
  rw [hloaded, Except.ok.injEq] at hm'
  subst hm'
  refine ⟨h.rows_of_replaces hreplaces (hresultId.trans hid) happlies.valid, ?_, ?_⟩
  · intro receipt hmem
    rw [happlies.transitions] at hmem
    rcases List.mem_append.mp hmem with hold | hnew
    · exact h.receipts receipt hold
    · obtain rfl := List.mem_singleton.mp hnew
      exact ⟨result.audit, rfl, hkey, hevent⟩
  · intro receipt hmem
    rw [happlies.transitions] at hmem
    rcases List.mem_append.mp hmem with hold | hnew
    · exact isSome_of_replaces hreplaces (h.owned receipt hold)
    · obtain rfl := List.mem_singleton.mp hnew
      exact isSome_of_replaces hreplaces (by rw [hfound]; rfl)

lemma effect {s s' : System} {call : ClientCall} (h : StoreSound s.db)
    (heffect : Effect s call s') : StoreSound s'.db := by
  cases heffect with
  | idle => exact h
  | read => exact h
  | changed => exact h
  | @created db m fault hvalid htransitions hmissions =>
      have hlookup := KeyedTable.lookup_insert hmissions
      refine ⟨?_, by rw [htransitions]; exact h.receipts, ?_⟩
      · intro k row hrow
        rw [hlookup] at hrow
        split_ifs at hrow with hk
        · cases hrow
          exact ⟨m, loadRow_newRow hvalid, hk, rfl⟩
        · exact h.rows k row hrow
      · rw [htransitions]
        intro receipt hmem
        rw [hlookup]
        split_ifs
        · rfl
        · exact h.owned receipt hmem
  | saved hm hvalid htransitions hreplaces hcurrent =>
      refine ⟨h.rows_of_replaces hreplaces rfl hvalid, by rw [htransitions]; exact h.receipts, ?_⟩
      rw [htransitions]
      exact fun receipt hmem => isSome_of_replaces hreplaces (h.owned receipt hmem)
  | applied hfound hloaded happlies => exact h.applied hfound hloaded happlies

end StoreSound

/-- The store is sound after any calls. -/
lemma storeSound_of_history [CanonicalDigest] {P : System → ClientCall → Prop} {s : System}
    (h : History P s) : StoreSound s.db := by
  induction h with
  | empty => exact storeSound_empty
  | @step s call _ _ ih => exact ih.effect (s.step_effect call)

end AgentSystem.Missions
