import AgentSystem.MissionHistory

/-!
# No lost update

A write that commits is computed from the payload that was committed right before it, and takes
the revision one further. An attempt on an older payload is refused as stale.
-/
namespace AgentSystem.Missions

/-- The column `revision` of a Mission. -/
def Database.column (db : Database) (missionId : MissionId) : Option ℕ :=
  (db.missions.lookup missionId).map MissionRow.revision

/-- A commit that replaces the payload `base` by `next`. -/
structure Commits (db db' : Database) (base next : Mission) : Prop where
  before : db.stored next.missionId = some base
  column : db.column next.missionId = some base.revision
  after : db'.stored next.missionId = some next
  column' : db'.column next.missionId = some next.revision
  revision : next.revision = base.revision + 1
  frame : ∀ k, k ≠ next.missionId → db'.missions.lookup k = db.missions.lookup k

/-- What the two writers do in a system, whatever they are called with. -/
structure NoLostUpdate [CanonicalDigest] (s : System) : Prop where
  save : ∀ copy ∈ s.copies, ∀ ownerId now fault db next,
    s.db.save copy.mission copy.base.revision ownerId now fault = (db, .ok next) →
      Commits s.db db copy.base next ∧ Derived copy.base copy.mission ∧
        next = copy.mission.saved now ∧ db.transitions = s.db.transitions
  staleSave : ∀ copy ∈ s.copies, s.db.stored copy.base.missionId ≠ some copy.base →
    ∀ ownerId now, s.db.save copy.mission copy.base.revision ownerId now none =
      (s.db, .error (staleRevision "Mission revision is stale"))
  saveRaises : ∀ mission expectedRevision ownerId now fault db error,
    s.db.save mission expectedRevision ownerId now fault = (db, .error error) → db = s.db
  append : ∀ missionId request expectedRevision ownerId now fault db result,
    s.db.appendTransition missionId request expectedRevision ownerId now fault =
        (db, .ok result) →
      (db = s.db ∧ result.replayed = true ∧ some result.audit ∈ s.db.receipts missionId) ∨
        ∃ base, Commits s.db db base result.mission ∧ base.missionId = missionId ∧
          base.transition request now = .ok result ∧
          db.transitions.rows = s.db.transitions.rows ++
            [⟨missionId, request.idempotencyKey, request.event, some result.audit⟩]
  staleAppend : ∀ missionId request expected ownerId now row m,
    s.db.selectMission missionId ownerId = some row → s.db.stored missionId = some m →
      s.db.transitions.lookup (missionId, request.idempotencyKey) = none → m.revision ≠ expected →
        s.db.appendTransition missionId request (some expected) ownerId now none =
          (s.db, .error (staleRevision "Mission revision is stale"))
  appendRaises : ∀ missionId request expectedRevision ownerId now fault db error,
    s.db.appendTransition missionId request expectedRevision ownerId now fault =
      (db, .error error) → db = s.db

variable {db db' : Database} {missionId : MissionId} {m : Mission} {row : MissionRow}

/-- The validator reads neither the revision nor the time of the update. -/
lemma Mission.saved_valid (hvalid : m.modelValidate = .ok m) (now : Datetime) :
    (m.saved now).modelValidate = .ok (m.saved now) := by
  obtain ⟨-, hlong, hrefs⟩ := Mission.modelValidate_eq_ok.mp hvalid
  rw [validateAggregateReferences_eq_none] at hrefs
  refine Mission.modelValidate_eq_ok.mpr ⟨rfl, hlong, ?_⟩
  rw [validateAggregateReferences_eq_none]
  refine ⟨hrefs.1, hrefs.2.1, hrefs.2.2.1, ?_, hrefs.2.2.2.2⟩
  have hevidence : (m.saved now).evidenceRecords = m.evidenceRecords := rfl
  exact (Mission.decisionError_congr hevidence _ _).trans hrefs.2.2.2.1

lemma column_of_found (hfound : db.missions.lookup missionId = some row) :
    db.column missionId = some row.revision := by
  unfold Database.column
  rw [hfound, Option.map_some]

lemma commits_of_replaces {base : Mission} (hreplaces : db.Replaces db' m.missionId m row)
    (hbase : db.stored m.missionId = some base) (hcolumn : row.revision = base.revision)
    (hrevision : m.revision = base.revision + 1) : Commits db db' base m where
  before := hbase
  column := by rw [column_of_found hreplaces.found, hcolumn]
  after := (puts_of_replaces hreplaces).value
  column' := column_of_found hreplaces.written
  revision := hrevision
  frame := hreplaces.frame

namespace OptimisticInv

variable [CanonicalDigest] {s : System} {copy : Copy}

lemma save_commits (h : OptimisticInv s) (hcopy : copy ∈ s.copies) {ownerId : Option ActorId}
    {now : Datetime} {fault : Option Fault} {next : Mission}
    (hsave : s.db.save copy.mission copy.base.revision ownerId now fault = (db, .ok next)) :
    Commits s.db db copy.base next ∧ Derived copy.base copy.mission ∧
      next = copy.mission.saved now ∧ db.transitions = s.db.transitions := by
  obtain ⟨hrevision, rfl, -, htransitions, row, hreplaces, hcurrent⟩ := Database.save_eq_ok hsave
  have hstored := h.base_eq_stored hcopy hreplaces.found (hcurrent.trans hrevision.symm)
  refine ⟨commits_of_replaces hreplaces hstored hcurrent ?_, h.derived copy hcopy, rfl,
    htransitions⟩
  exact congrArg (· + 1) hrevision

/-- A copy of an older payload has a revision that no row has. -/
lemma save_stale (h : OptimisticInv s) (hcopy : copy ∈ s.copies)
    (hstale : s.db.stored copy.base.missionId ≠ some copy.base) (ownerId : Option ActorId)
    (now : Datetime) :
    s.db.save copy.mission copy.base.revision ownerId now none =
      (s.db, .error (staleRevision "Mission revision is stale")) := by
  have hsame := (h.derived copy hcopy).sameHistory
  have hvalid := h.valid copy hcopy
  have hnone : s.db.updateMission copy.mission.missionId ownerId copy.mission.revision
      (copy.mission.saved now) = none := by
    by_contra hsome
    obtain ⟨db, hdb⟩ := Option.ne_none_iff_exists'.mp hsome
    obtain ⟨-, row, hreplaces, hrevision⟩ := Database.updateMission_eq_some hdb
    apply hstale
    rw [← hsame.missionId]
    exact h.base_eq_stored hcopy hreplaces.found hrevision
  have hsaved := Mission.saved_valid hvalid now
  unfold Mission.saved at hnone hsaved
  unfold Database.save
  rw [validated_eq_ok.mpr hvalid, ← hsame.revision]
  simp [hsaved, hnone, Database.transaction]

/-- The stored payload has the id under which it is stored and the revision of its row. -/
lemma missionId_of_stored (h : OptimisticInv s) (hstored : s.db.stored missionId = some m) :
    m.missionId = missionId ∧ s.db.column missionId = some m.revision := by
  obtain ⟨row, hfound, hpayload⟩ := Option.bind_eq_some_iff.mp hstored
  obtain ⟨m', hloaded, hid, hrevision⟩ := h.sound.rows missionId row hfound
  have hpayload' := (loadRow_eq_ok.mp hloaded).2.1
  rw [hpayload, Option.some.injEq] at hpayload'
  subst hpayload'
  exact ⟨hid, by rw [column_of_found hfound, hrevision]⟩

lemma append_commits (h : OptimisticInv s) {request : TransitionRequest}
    {expectedRevision : Option ℕ} {ownerId : Option ActorId} {now : Datetime}
    {fault : Option Fault} {result : TransitionResult}
    (happend : s.db.appendTransition missionId request expectedRevision ownerId now fault =
      (db, .ok result)) :
    (db = s.db ∧ result.replayed = true ∧ some result.audit ∈ s.db.receipts missionId) ∨
      ∃ base, Commits s.db db base result.mission ∧ base.missionId = missionId ∧
        base.transition request now = .ok result ∧
        db.transitions.rows = s.db.transitions.rows ++
          [⟨missionId, request.idempotencyKey, request.event, some result.audit⟩] := by
  obtain ⟨row, m, hfound, hloaded, hreplays | happlies⟩ := Database.appendTransition_eq_ok happend
  · obtain ⟨receipt, hlookup, haudit⟩ := hreplays.receipt
    obtain ⟨hmem, hkey⟩ := KeyedTable.lookup_eq_some.mp hlookup
    refine .inl ⟨hreplays.unchanged, hreplays.replayed, ?_⟩
    rw [← haudit]
    refine List.mem_map_of_mem (List.mem_filter.mpr ⟨hmem, ?_⟩)
    exact decide_eq_true (congrArg Prod.fst hkey)
  · have hstored := stored_of_loaded hfound hloaded
    have hmoves := h.trails.moves h.sound hstored happlies
    obtain ⟨rfl, -⟩ := h.missionId_of_stored hstored
    obtain ⟨row', hreplaces, hcurrent⟩ := happlies.missions
    rw [← hmoves.missionId] at hreplaces hstored
    refine .inr ⟨m, commits_of_replaces hreplaces hstored hcurrent ?_, rfl, happlies.transition,
      happlies.transitions⟩
    rw [hmoves.mission]
    rfl

lemma append_stale (h : OptimisticInv s) {request : TransitionRequest} {expected : ℕ}
    {ownerId : Option ActorId} (now : Datetime)
    (hselect : s.db.selectMission missionId ownerId = some row)
    (hstored : s.db.stored missionId = some m)
    (hnew : s.db.transitions.lookup (missionId, request.idempotencyKey) = none)
    (hstale : m.revision ≠ expected) :
    s.db.appendTransition missionId request (some expected) ownerId now none =
      (s.db, .error (staleRevision "Mission revision is stale")) := by
  have hfound := (Database.selectMission_eq_some hselect).1
  obtain ⟨m', hloaded, -⟩ := h.sound.rows missionId row hfound
  have hstored' := stored_of_loaded hfound hloaded
  rw [hstored, Option.some.injEq] at hstored'
  subst hstored'
  simp [Database.appendTransition, Database.applyTransition, Database.transaction, hselect,
    hloaded, hnew, hstale]

end OptimisticInv

/-- However clients interleave, a write commits only on the payload it was computed from, and an
attempt that raises changes neither table. -/
theorem no_lost_update [CanonicalDigest] {s : System} (h : History System.Optimistic s) :
    NoLostUpdate s := by
  have hinv := optimisticInv_of_history h
  constructor
  · intro copy hcopy ownerId now fault db next hsave
    exact hinv.save_commits hcopy hsave
  · intro copy hcopy hstale ownerId now
    exact hinv.save_stale hcopy hstale ownerId now
  · intro mission expectedRevision ownerId now fault db error hraise
    exact Database.save_eq_error hraise
  · intro missionId request expectedRevision ownerId now fault db result happend
    exact hinv.append_commits happend
  · intro missionId request expected ownerId now row m hselect hstored hnew hstale
    exact hinv.append_stale now hselect hstored hnew hstale
  · intro missionId request expectedRevision ownerId now fault db error hraise
    exact Database.appendTransition_eq_error hraise

theorem no_lost_update_planned : @NoLostUpdate sampleDigest plannedSystem :=
  @no_lost_update sampleDigest plannedSystem plannedSystem_history

/-- The request that started the planning is sent again: the call returns without a commit. -/
theorem replay_commits_nothing :
    (∃ result, @Database.appendTransition sampleDigest plannedSystem.db sampleMission.missionId
        startRequest none none 1 none = (plannedSystem.db, .ok result)) ∧
      plannedSystem.db.column sampleMission.missionId = some 1 :=
  ⟨⟨⟨sampleMission.moved startAudit, startAudit, true⟩, rfl⟩, rfl⟩

end AgentSystem.Missions
