import AgentSystem.MissionHistory

/-!
# Repeated transition requests

A receipt stays in the table of transitions, so a request that is sent again is answered from it
whatever happened to the Mission since. The state machine looks the key up in the audits of the
Mission instead, and both lookups agree as long as the clients do not forge the history.
-/
namespace AgentSystem.Missions

/-- The store lookup of a key: the audit in the receipt, if there is one. -/
def Database.storeLookup (db : Database) (missionId : MissionId) (key : IdempotencyKey) :
    Option MissionTransitionAudit :=
  (db.transitions.lookup (missionId, key)).bind TransitionRow.audit

/-- The lookup of the state machine in the audits of a Mission. -/
def Mission.machineLookup (m : Mission) (key : IdempotencyKey) : Option MissionTransitionAudit :=
  m.transitionAudit.find? fun audit => audit.idempotencyKey = key

/-- Any calls whatsoever. -/
abbrev anyCall : System → ClientCall → Prop := fun _ _ => True

/-- The systems that later calls reach. -/
abbrev Later [CanonicalDigest] : System → System → Prop :=
  Relation.ReflTransGen fun s t => ∃ call, t = s.step call

/-- What a system that calls have reached answers to requests that it has served before. -/
structure ServedOnce [CanonicalDigest] (s : System) : Prop where
  replay : ∀ missionId request expectedRevision ownerId now fault db result,
    s.db.appendTransition missionId request expectedRevision ownerId now fault =
        (db, .ok result) →
      ∀ later, Later ⟨db, s.copies⟩ later →
        ∀ again : TransitionRequest, again.idempotencyKey = request.idempotencyKey →
          again.event = request.event → again.approvalSubject = request.approvalSubject →
            ∀ expectedRevision ownerId now row,
              later.db.selectMission missionId ownerId = some row →
                ∃ m, later.db.stored missionId = some m ∧
                  later.db.appendTransition missionId again expectedRevision ownerId now none =
                    (later.db, .ok ⟨m, result.audit, true⟩)
  conflict : ∀ missionId request expectedRevision ownerId now fault db result,
    s.db.appendTransition missionId request expectedRevision ownerId now fault =
        (db, .ok result) →
      ∀ later, Later ⟨db, s.copies⟩ later →
        ∀ again : TransitionRequest, again.idempotencyKey = request.idempotencyKey →
          again.event ≠ request.event ∨ again.approvalSubject ≠ request.approvalSubject →
            ∀ expectedRevision ownerId now fault, ∃ error,
              later.db.appendTransition missionId again expectedRevision ownerId now fault =
                (later.db, .error error)
  createRaises : ∀ mission fault db error,
    s.db.create mission fault = (db, .error error) → db = s.db
  saveRaises : ∀ mission expectedRevision ownerId now fault db error,
    s.db.save mission expectedRevision ownerId now fault = (db, .error error) → db = s.db
  appendRaises : ∀ missionId request expectedRevision ownerId now fault db error,
    s.db.appendTransition missionId request expectedRevision ownerId now fault =
      (db, .error error) → db = s.db

section Receipts

variable {db db' : Database} {missionId : MissionId} {key : IdempotencyKey}
  {audit : MissionTransitionAudit}

lemma storeLookup_eq_some :
    db.storeLookup missionId key = some audit ↔
      ∃ receipt ∈ db.transitions.rows, receipt.key = (missionId, key) ∧
        receipt.audit = some audit := by
  unfold Database.storeLookup
  rw [Option.bind_eq_some_iff]
  simp only [KeyedTable.lookup_eq_some, and_assoc]

/-- A receipt is found as long as no row of the table goes away. -/
lemma storeLookup_mono (h : db.storeLookup missionId key = some audit)
    (hrows : db.transitions.rows ⊆ db'.transitions.rows) :
    db'.storeLookup missionId key = some audit := by
  obtain ⟨receipt, hmem, hreceipt⟩ := storeLookup_eq_some.mp h
  exact storeLookup_eq_some.mpr ⟨receipt, hrows hmem, hreceipt⟩

variable [CanonicalDigest]

/-- No call removes a receipt. -/
lemma Effect.transitions_subset {s s' : System} {call : ClientCall} (h : Effect s call s') :
    s.db.transitions.rows ⊆ s'.db.transitions.rows := by
  cases h with
  | idle => exact List.Subset.refl _
  | read => exact List.Subset.refl _
  | changed => exact List.Subset.refl _
  | created _ htransitions _ =>
      rw [htransitions]
      exact List.Subset.refl _
  | saved _ _ htransitions _ _ =>
      rw [htransitions]
      exact List.Subset.refl _
  | applied _ _ happlies =>
      rw [happlies.transitions]
      exact List.subset_append_left _ _

lemma Later.storeLookup {s t : System} (h : Later s t)
    (hstored : s.db.storeLookup missionId key = some audit) :
    t.db.storeLookup missionId key = some audit := by
  induction h with
  | refl => exact hstored
  | tail _ hstep ih =>
      obtain ⟨call, rfl⟩ := hstep
      exact storeLookup_mono ih (System.step_effect _ call).transitions_subset

lemma Later.storeSound {s t : System} (h : Later s t) (hsound : StoreSound s.db) :
    StoreSound t.db := by
  induction h with
  | refl => exact hsound
  | tail _ hstep ih =>
      obtain ⟨call, rfl⟩ := hstep
      exact ih.effect (System.step_effect _ call)

end Receipts

section Answers

variable [CanonicalDigest] {db db' : Database} {missionId : MissionId} {request : TransitionRequest}
  {expectedRevision : Option ℕ} {ownerId : Option ActorId} {now : Datetime} {fault : Option Fault}
  {result : TransitionResult} {audit : MissionTransitionAudit} {row : MissionRow}

/-- A call that returns leaves a sound store with a receipt of its audit. -/
lemma receipt_of_append (hsound : StoreSound db)
    (happend : db.appendTransition missionId request expectedRevision ownerId now fault =
      (db', .ok result)) :
    StoreSound db' ∧ db'.storeLookup missionId request.idempotencyKey = some result.audit ∧
      result.audit.event = request.event ∧
      result.audit.approvalSubject = request.approvalSubject := by
  obtain ⟨row, m, hfound, hloaded, hreplays | happlies⟩ := Database.appendTransition_eq_ok happend
  · obtain rfl := hreplays.unchanged
    obtain ⟨receipt, hlookup, haudit⟩ := hreplays.receipt
    refine ⟨hsound, ?_, hreplays.event, hreplays.subject⟩
    unfold Database.storeLookup
    rw [hlookup, Option.bind_some, haudit]
  · have hsubject : result.audit.approvalSubject = request.approvalSubject := by
      rcases Mission.transition_cases happlies.transition with ⟨-, -, -, -, -, hsame⟩ | hmoves
      · exact hsame
      · obtain ⟨auditId, haudit⟩ := hmoves.audit
        rw [haudit]
        rfl
    obtain ⟨-, -, hevent⟩ := StoreSound.result_of_transition happlies.transition
    refine ⟨hsound.applied hfound hloaded happlies, ?_, hevent, hsubject⟩
    refine storeLookup_eq_some.mpr
      ⟨⟨missionId, request.idempotencyKey, request.event, some result.audit⟩, ?_, rfl, rfl⟩
    rw [happlies.transitions]
    exact List.mem_append_right _ (List.mem_singleton_self _)

/-- The receipt answers the same request before the revision and the state are looked at. -/
lemma append_of_receipt (hsound : StoreSound db)
    (hreceipt : db.storeLookup missionId request.idempotencyKey = some audit)
    (hevent : audit.event = request.event)
    (hsubject : audit.approvalSubject = request.approvalSubject)
    (hselect : db.selectMission missionId ownerId = some row) :
    ∃ m, db.stored missionId = some m ∧
      db.appendTransition missionId request expectedRevision ownerId now none =
        (db, .ok ⟨m, audit, true⟩) := by
  have hfound := (Database.selectMission_eq_some hselect).1
  obtain ⟨m, hloaded, -⟩ := hsound.rows missionId row hfound
  obtain ⟨receipt, hlookup, haudit⟩ := Option.bind_eq_some_iff.mp hreceipt
  refine ⟨m, stored_of_loaded hfound hloaded, ?_⟩
  simp [Database.appendTransition, Database.transaction, hselect, hloaded, hlookup, haudit, hevent,
    hsubject]

/-- A call that returns agrees with the receipt of its key. -/
lemma agrees_of_receipt
    (hreceipt : db.storeLookup missionId request.idempotencyKey = some audit)
    (happend : db.appendTransition missionId request expectedRevision ownerId now fault =
      (db', .ok result)) :
    request.event = audit.event ∧ request.approvalSubject = audit.approvalSubject := by
  obtain ⟨receipt, hlookup, haudit⟩ := Option.bind_eq_some_iff.mp hreceipt
  obtain ⟨row, m, -, -, hreplays | happlies⟩ := Database.appendTransition_eq_ok happend
  · obtain ⟨receipt', hlookup', haudit'⟩ := hreplays.receipt
    rw [hlookup, Option.some.injEq] at hlookup'
    subst hlookup'
    rw [haudit, Option.some.injEq] at haudit'
    subst haudit'
    exact ⟨hreplays.event.symm, hreplays.subject.symm⟩
  · rw [happlies.newReceipt] at hlookup
    cases hlookup

end Answers

variable [CanonicalDigest] {s : System}

lemma servedOnce_of_sound (hsound : StoreSound s.db) : ServedOnce s := by
  constructor
  case createRaises => exact fun _ _ _ _ hraise => Database.create_eq_error hraise
  case saveRaises => exact fun _ _ _ _ _ _ _ hraise => Database.save_eq_error hraise
  case appendRaises => exact fun _ _ _ _ _ _ _ _ hraise => Database.appendTransition_eq_error hraise
  case replay =>
    intro missionId request _ _ _ _ db result happend later hlater again hkey hevent hsubject
      expectedRevision ownerId now row hselect
    obtain ⟨hafter, hreceipt, haudit, hauditSubject⟩ := receipt_of_append hsound happend
    rw [← hkey] at hreceipt
    exact append_of_receipt (hlater.storeSound hafter) (hlater.storeLookup hreceipt)
      (haudit.trans hevent.symm) (hauditSubject.trans hsubject.symm) hselect
  case conflict =>
    intro missionId request _ _ _ _ db result happend later hlater again hkey hother
      expectedRevision ownerId now fault
    obtain ⟨-, hreceipt, haudit, hauditSubject⟩ := receipt_of_append hsound happend
    rw [← hkey] at hreceipt
    rcases hanswer : later.db.appendTransition missionId again expectedRevision ownerId now fault
      with ⟨db', error | answer⟩
    · exact ⟨error, by rw [Database.appendTransition_eq_error hanswer]⟩
    · obtain ⟨hevent, hsubject⟩ := agrees_of_receipt (hlater.storeLookup hreceipt) hanswer
      rcases hother with hother | hother
      · exact absurd (hevent.trans haudit) hother
      · exact absurd (hsubject.trans hauditSubject) hother

/-- With the history kept, the key of a Mission is found in both places or in none. -/
lemma OptimisticInv.lookups_agree (h : OptimisticInv s) {missionId : MissionId} {m : Mission}
    (hstored : s.db.stored missionId = some m) (key : IdempotencyKey) :
    m.machineLookup key = s.db.storeLookup missionId key := by
  obtain ⟨htrail, hreceipts⟩ := h.trails missionId m hstored
  ext audit
  unfold Mission.machineLookup
  rw [find?_key_eq_some htrail.keys, storeLookup_eq_some]
  constructor
  · rintro ⟨hmem, rfl⟩
    have hreceipt : some audit ∈ s.db.receipts missionId := by
      rw [hreceipts]
      exact List.mem_map_of_mem hmem
    obtain ⟨receipt, hlookup, haudit⟩ := lookup_of_mem_receipts h.sound hreceipt
    obtain ⟨hrow, hkey⟩ := KeyedTable.lookup_eq_some.mp hlookup
    exact ⟨receipt, hrow, hkey, haudit⟩
  · rintro ⟨receipt, hrow, hkey, haudit⟩
    have hreceipt : some audit ∈ s.db.receipts missionId := by
      rw [← haudit]
      refine List.mem_map_of_mem (List.mem_filter.mpr ⟨hrow, ?_⟩)
      exact decide_eq_true (congrArg Prod.fst hkey)
    rw [hreceipts] at hreceipt
    obtain ⟨audit', hmem, hsome⟩ := List.mem_map.mp hreceipt
    obtain rfl := Option.some.inj hsome
    obtain ⟨audit', haudit', hkey', -⟩ := h.sound.receipts receipt hrow
    rw [haudit, Option.some.injEq] at haudit'
    subst haudit'
    exact ⟨hmem, hkey'.trans (congrArg Prod.snd hkey)⟩

/-- Requests are served once in every history; the two lookups agree in every history of fresh
Missions and saved copies. -/
theorem served_once (h : History anyCall s) :
    ServedOnce s ∧
      (History System.Optimistic s → ∀ missionId m, s.db.stored missionId = some m →
        ∀ key, m.machineLookup key = s.db.storeLookup missionId key) := by
  refine ⟨servedOnce_of_sound (storeSound_of_history h), ?_⟩
  intro hoptimistic missionId m hstored key
  exact (optimisticInv_of_history hoptimistic).lookups_agree hstored key

omit [CanonicalDigest] in
theorem served_once_planned :
    @ServedOnce sampleDigest plannedSystem ∧
      (@History sampleDigest System.Optimistic plannedSystem → ∀ missionId m,
        plannedSystem.db.stored missionId = some m →
          ∀ key, m.machineLookup key = plannedSystem.db.storeLookup missionId key) :=
  @served_once sampleDigest plannedSystem
    (@History.step sampleDigest _ _ _
      (@History.step sampleDigest _ _ _ (@History.empty sampleDigest _) trivial) trivial)

omit [CanonicalDigest] in
/-- A Mission that carries an audit is created: the state machine finds the audit, the store does
not. -/
theorem forged_audit_differs :
    ∃ s m, @History sampleDigest anyCall s ∧ s.db.stored sampleMission.missionId = some m ∧
      m.machineLookup startRequest.idempotencyKey = some startAudit ∧
      s.db.storeLookup sampleMission.missionId startRequest.idempotencyKey = none :=
  ⟨@System.step sampleDigest .empty (.create (sampleMission.moved startAudit) none),
    sampleMission.moved startAudit,
    @History.step sampleDigest _ _ _ (@History.empty sampleDigest _) trivial, rfl, rfl, rfl⟩

end AgentSystem.Missions
