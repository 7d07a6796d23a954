import AgentSystem.MissionAuditTrail
import AgentSystem.MissionClients
import AgentSystem.OptimisticCells

/-!
# The history of a stored Mission

The history of a Mission stands in its payload and again in the table of transitions. As long as
clients create fresh Missions and save copies that they loaded and changed by the methods of the
aggregate, both agree: the store behaves like optimistic cells, so a copy that `save` accepts was
made from the stored payload, and the aggregate leaves the history in it alone.
-/
namespace AgentSystem.Missions

/-- The payload that was committed last. -/
def Database.stored (db : Database) (missionId : MissionId) : Option Mission :=
  (db.missions.lookup missionId).bind MissionRow.payload

/-- The audits in the transitions of a Mission, in the order of the rows. -/
def Database.receipts (db : Database) (missionId : MissionId) :
    List (Option MissionTransitionAudit) :=
  (db.transitions.rows.filter fun row => row.missionId = missionId).map TransitionRow.audit

/-- One Mission is made from the other by methods of the aggregate. -/
abbrev Derived [CanonicalDigest] : Mission → Mission → Prop :=
  Relation.ReflTransGen fun m m' => ∃ call, m.aggregate call = .ok m'

lemma Derived.sameHistory [CanonicalDigest] {m m' : Mission} (h : Derived m m') :
    SameHistory m m' := by
  induction h with
  | refl => exact .refl m
  | tail _ hcall ih =>
      obtain ⟨call, hreturn⟩ := hcall
      exact ih.trans (Mission.aggregate_sameHistory hreturn)

/-- The stored Missions have an audit trail, which is what the table of transitions holds. -/
def TrailKept (db : Database) : Prop :=
  ∀ missionId m, db.stored missionId = some m →
    AuditTrail m ∧ db.receipts missionId = m.transitionAudit.map some

/-- Cells that hold what the database holds, and of which the clients have read what their copies
are made from. -/
structure Simulates (s : System) (cells : Cells MissionId Mission) : Prop where
  cell : cells.cell = s.db.stored
  held : ∀ copy ∈ s.copies, (copy.base.missionId, copy.base) ∈ cells.held

structure OptimisticInv [CanonicalDigest] (s : System) : Prop where
  sound : StoreSound s.db
  trails : TrailKept s.db
  derived : ∀ copy ∈ s.copies, Derived copy.base copy.mission
  valid : ∀ copy ∈ s.copies, copy.mission.modelValidate = .ok copy.mission
  simulates : ∃ cells, Cells.Steps Mission.revision .empty cells ∧ Simulates s cells

variable {db db' : Database} {missionId : MissionId} {m : Mission} {row : MissionRow}

lemma stored_of_loaded (hfound : db.missions.lookup missionId = some row)
    (hloaded : loadRow row = .ok m) : db.stored missionId = some m := by
  unfold Database.stored
  rw [hfound, Option.bind_some]
  exact (loadRow_eq_ok.mp hloaded).2.1

lemma StoreSound.missionId_of_loaded (h : StoreSound db)
    (hfound : db.missions.lookup missionId = some row) (hloaded : loadRow row = .ok m) :
    m.missionId = missionId ∧ m.revision = row.revision := by
  obtain ⟨m', hm', hid, hrevision⟩ := h.rows missionId row hfound
  rw [hloaded, Except.ok.injEq] at hm'
  subst hm'
  exact ⟨hid, hrevision⟩

/-! ## The writers as steps of cells -/

lemma puts_of_insert (hinsert : db.missions.insert (newRow m) = some db'.missions) :
    db.stored m.missionId = none ∧ Cells.Puts db.stored db'.stored m.missionId m := by
  have hlookup := KeyedTable.lookup_insert hinsert
  have hid : (newRow m).missionId = m.missionId := rfl
  refine ⟨?_, ?_, ?_⟩
  · unfold Database.stored
    rw [← hid, KeyedTable.insert_lookup_eq_none hinsert]
    rfl
  · unfold Database.stored
    rw [hlookup, if_pos hid]
    rfl
  · intro k hk
    unfold Database.stored
    rw [hlookup, if_neg fun heq => hk (heq.symm.trans hid)]

lemma puts_of_replaces (hreplaces : db.Replaces db' missionId m row) :
    Cells.Puts db.stored db'.stored missionId m := by
  constructor
  · unfold Database.stored
    rw [hreplaces.written]
    rfl
  · intro k hk
    unfold Database.stored
    rw [hreplaces.frame k hk]

lemma Simulates.hold {s : System} {cells : Cells MissionId Mission} (h : Simulates s cells)
    {copy : Copy} (hbase : (copy.base.missionId, copy.base) ∈ cells.held) :
    Simulates { s with copies := copy :: s.copies } cells where
  cell := h.cell
  held other hother := by
    rcases List.mem_cons.mp hother with rfl | hold
    · exact hbase
    · exact h.held other hold

/-- A client reads a cell and keeps its value as a copy. -/
lemma Simulates.read {s : System} {cells : Cells MissionId Mission} (h : Simulates s cells)
    (hstored : s.db.stored m.missionId = some m) :
    ∃ after, Cells.Steps Mission.revision cells after ∧
      Simulates { s with copies := ⟨m, m⟩ :: s.copies } after ∧ (m.missionId, m) ∈ after.held := by
  have hpresent : cells.cell m.missionId = some m := by rw [h.cell, hstored]
  refine ⟨_, .single (.read hpresent), ⟨h.cell, ?_⟩, Set.mem_insert _ _⟩
  intro copy hcopy
  rcases List.mem_cons.mp hcopy with rfl | hold
  · exact Set.mem_insert _ _
  · exact Set.mem_insert_of_mem _ (h.held copy hold)

/-! ## The trail -/

/-- Writing one payload keeps the trails of the other Missions when their transitions stay. -/
lemma TrailKept.puts (h : TrailKept db) (hputs : Cells.Puts db.stored db'.stored missionId m)
    (hother : ∀ k, k ≠ missionId → db'.receipts k = db.receipts k) (htrail : AuditTrail m)
    (hreceipts : db'.receipts missionId = m.transitionAudit.map some) : TrailKept db' := by
  intro k m' hstored
  by_cases hk : k = missionId
  · subst hk
    rw [hputs.value, Option.some.injEq] at hstored
    subst hstored
    exact ⟨htrail, hreceipts⟩
  · rw [hputs.frame k hk] at hstored
    rw [hother k hk]
    exact h k m' hstored

lemma receipts_eq_nil (hsound : StoreSound db) (hnone : db.missions.lookup missionId = none) :
    db.receipts missionId = [] := by
  unfold Database.receipts
  rw [List.map_eq_nil_iff, List.filter_eq_nil_iff]
  intro receipt hmem hid
  have howned := hsound.owned receipt hmem
  rw [of_decide_eq_true hid, hnone] at howned
  cases howned

/-- An audit that stands among the receipts of a Mission is found by its key. -/
lemma lookup_of_mem_receipts (hsound : StoreSound db) {audit : MissionTransitionAudit}
    (hmem : some audit ∈ db.receipts missionId) :
    ∃ receipt, db.transitions.lookup (missionId, audit.idempotencyKey) = some receipt ∧
      receipt.audit = some audit := by
  obtain ⟨receipt, hreceipt, haudit⟩ := List.mem_map.mp hmem
  obtain ⟨hrow, hid⟩ := List.mem_filter.mp hreceipt
  obtain ⟨audit', haudit', hkey, -⟩ := hsound.receipts receipt hrow
  rw [haudit, Option.some.injEq] at haudit'
  subst haudit'
  refine ⟨receipt, KeyedTable.lookup_eq_some.mpr ⟨hrow, ?_⟩, haudit⟩
  rw [TransitionRow.key, of_decide_eq_true hid, hkey]

section Digest

variable [CanonicalDigest] {request : TransitionRequest} {expectedRevision : Option ℕ}
  {now : Datetime} {result : TransitionResult}

/-- Without a receipt the state machine does not find the key either, so the Mission moves. -/
lemma TrailKept.moves (h : TrailKept db) (hsound : StoreSound db)
    (hstored : db.stored missionId = some m)
    (happlies : db.Applies db' missionId m request expectedRevision now result) :
    m.Moves request now result := by
  rcases Mission.transition_cases happlies.transition with ⟨-, -, hmem, hkey, -⟩ | hmoves
  · have hreceipt : some result.audit ∈ db.receipts missionId := by
      rw [(h missionId m hstored).2]
      exact List.mem_map_of_mem hmem
    obtain ⟨receipt, hlookup, -⟩ := lookup_of_mem_receipts hsound hreceipt
    rw [hkey, happlies.newReceipt] at hlookup
    cases hlookup
  · exact hmoves

lemma TrailKept.applied (h : TrailKept db) (hsound : StoreSound db)
    (hstored : db.stored missionId = some m)
    (happlies : db.Applies db' missionId m request expectedRevision now result) :
    TrailKept db' := by
  have hmoves := h.moves hsound hstored happlies
  obtain ⟨htrail, hreceipts⟩ := h missionId m hstored
  obtain ⟨row', hreplaces, -⟩ := happlies.missions
  refine h.puts (puts_of_replaces hreplaces) ?_ (htrail.transition happlies.transition) ?_
  · intro k hk
    unfold Database.receipts
    rw [happlies.transitions, List.filter_append]
    simp [hk.symm]
  · have hrows : db'.receipts missionId = db.receipts missionId ++ [some result.audit] := by
      unfold Database.receipts
      rw [happlies.transitions, List.filter_append, List.map_append]
      simp
    rw [hrows, hreceipts, hmoves.mission]
    simp [Mission.moved]

namespace OptimisticInv

variable {s : System}

lemma initial : OptimisticInv .empty where
  sound := storeSound_empty
  trails missionId m hstored := by
    simp [Database.stored, System.empty, Database.empty, KeyedTable.empty,
      KeyedTable.lookup] at hstored
  derived copy hcopy := by cases hcopy
  valid copy hcopy := by cases hcopy
  simulates := by
    refine ⟨.empty, .refl, ?_, ?_⟩
    · funext missionId
      simp [Cells.empty, Database.stored, System.empty, Database.empty, KeyedTable.empty,
        KeyedTable.lookup]
    · intro copy hcopy
      cases hcopy

/-- What a client learns from the store is a copy of its own. -/
lemma derived_cons (h : OptimisticInv s) {copy : Copy} (hcopy : Derived copy.base copy.mission) :
    ∀ other ∈ copy :: s.copies, Derived other.base other.mission := by
  intro other hother
  rcases List.mem_cons.mp hother with rfl | hold
  · exact hcopy
  · exact h.derived other hold

lemma valid_cons (h : OptimisticInv s) {copy : Copy}
    (hvalid : copy.mission.modelValidate = .ok copy.mission) :
    ∀ other ∈ copy :: s.copies, other.mission.modelValidate = .ok other.mission := by
  intro other hother
  rcases List.mem_cons.mp hother with rfl | hold
  · exact hvalid
  · exact h.valid other hold

/-- A copy whose revision is the one of the row was made from the stored payload. -/
lemma base_eq_stored (h : OptimisticInv s) {copy : Copy} (hcopy : copy ∈ s.copies)
    (hfound : s.db.missions.lookup copy.mission.missionId = some row)
    (hcurrent : row.revision = copy.mission.revision) :
    s.db.stored copy.mission.missionId = some copy.base := by
  have hsame := (h.derived copy hcopy).sameHistory
  obtain ⟨cells, hsteps, hsimulates⟩ := h.simulates
  obtain ⟨c, hloaded, -, hrevision⟩ := h.sound.rows _ row hfound
  have hstored := stored_of_loaded hfound hloaded
  have hpresent : cells.cell copy.base.missionId = some c := by
    rw [hsimulates.cell, ← hsame.missionId, hstored]
  have hequal : c.revision = copy.base.revision := by
    rw [hrevision, hcurrent, hsame.revision]
  rw [hstored, Cells.held_eq_current hsteps (hsimulates.held copy hcopy) hpresent hequal]

lemma created {after : Database} (h : OptimisticInv s) (hsound : StoreSound after)
    (hfresh : m.Fresh)
    (htransitions : after.transitions = s.db.transitions)
    (hmissions : s.db.missions.insert (newRow m) = some after.missions) :
    OptimisticInv ⟨after, ⟨m, m⟩ :: s.copies⟩ := by
  obtain ⟨habsent, hputs⟩ := puts_of_insert hmissions
  have hreceipts : ∀ k, after.receipts k = s.db.receipts k := by
    intro k
    unfold Database.receipts
    rw [htransitions]
  refine ⟨hsound, ?_, h.derived_cons .refl, h.valid_cons hfresh.valid, ?_⟩
  · refine h.trails.puts hputs (fun k _ => hreceipts k) hfresh.auditTrail ?_
    have hnone : s.db.missions.lookup m.missionId = none :=
      KeyedTable.insert_lookup_eq_none hmissions
    rw [hreceipts, receipts_eq_nil h.sound hnone, hfresh.audit]
    rfl
  · obtain ⟨cells, hsteps, hsimulates⟩ := h.simulates
    have hinsert : Cells.Step Mission.revision cells { cells with cell := after.stored } :=
      .insert (by rw [hsimulates.cell]; exact habsent) (by rw [hsimulates.cell]; exact hputs)
    have hafter : Simulates ⟨after, s.copies⟩ { cells with cell := after.stored } :=
      ⟨rfl, hsimulates.held⟩
    obtain ⟨final, hread, hfinal, -⟩ := hafter.read hputs.value
    exact ⟨final, (hsteps.tail hinsert).trans hread, hfinal⟩

lemma saved {after : Database} {copy : Copy} (h : OptimisticInv s) (hsound : StoreSound after)
    (hcopy : copy ∈ s.copies) (hvalid : m.modelValidate = .ok m)
    (hm : m = copy.mission.saved now) (htransitions : after.transitions = s.db.transitions)
    (hreplaces : s.db.Replaces after m.missionId m row)
    (hcurrent : row.revision = copy.mission.revision) :
    OptimisticInv ⟨after, ⟨m, m⟩ :: s.copies⟩ := by
  subst hm
  have hsame := (h.derived copy hcopy).sameHistory
  have hstored := h.base_eq_stored hcopy hreplaces.found hcurrent
  have hputs := puts_of_replaces hreplaces
  have hreceipts : ∀ k, after.receipts k = s.db.receipts k := by
    intro k
    unfold Database.receipts
    rw [htransitions]
  refine ⟨hsound, ?_, h.derived_cons .refl, h.valid_cons hvalid, ?_⟩
  · obtain ⟨htrail, hbase⟩ := h.trails _ _ hstored
    refine h.trails.puts hputs (fun k _ => hreceipts k) ?_ ?_
    · refine htrail.saved hsame.currentState hsame.resumeState hsame.transitionAudit ?_
      rw [← hsame.revision]
      exact Nat.le_succ _
    · rw [hreceipts]
      exact hbase.trans (congrArg _ hsame.transitionAudit.symm)
  · obtain ⟨cells, hsteps, hsimulates⟩ := h.simulates
    have hwrite : Cells.Step Mission.revision cells { cells with cell := after.stored } := by
      refine .write (b := copy.mission.saved now) (hsimulates.held copy hcopy) ?_ rfl ?_ ?_
      · rw [hsimulates.cell, ← hsame.missionId]
        exact hstored
      · rw [← hsame.revision]
        rfl
      · rw [hsimulates.cell, ← hsame.missionId]
        exact hputs
    have hafter : Simulates ⟨after, s.copies⟩ { cells with cell := after.stored } :=
      ⟨rfl, hsimulates.held⟩
    obtain ⟨final, hread, hfinal, -⟩ := hafter.read hputs.value
    exact ⟨final, (hsteps.tail hwrite).trans hread, hfinal⟩

lemma applied {after : Database} (h : OptimisticInv s) (hsound : StoreSound after)
    (hfound : s.db.missions.lookup missionId = some row) (hloaded : loadRow row = .ok m)
    (happlies : s.db.Applies after missionId m request expectedRevision now result) :
    OptimisticInv ⟨after, ⟨result.mission, result.mission⟩ :: s.copies⟩ := by
  have hstored := stored_of_loaded hfound hloaded
  obtain ⟨hid, -⟩ := h.sound.missionId_of_loaded hfound hloaded
  have hmoves := h.trails.moves h.sound hstored happlies
  have hresult : result.mission.missionId = missionId := hmoves.missionId.trans hid
  obtain ⟨row', hreplaces, -⟩ := happlies.missions
  have hputs := puts_of_replaces hreplaces
  refine ⟨hsound, h.trails.applied h.sound hstored happlies,
    h.derived_cons .refl, h.valid_cons happlies.valid, ?_⟩
  subst hid
  obtain ⟨cells, hsteps, hsimulates⟩ := h.simulates
  -- the transaction reads the cell and writes what it computes from the value
  obtain ⟨cells', hread, hsimulates', hheld⟩ := hsimulates.read hstored
  have hwrite : Cells.Step Mission.revision cells' { cells' with cell := after.stored } := by
    refine .write (b := result.mission) hheld ?_ rfl ?_ ?_
    · rw [hsimulates'.cell]
      exact hstored
    · rw [hmoves.mission]
      rfl
    · rw [hsimulates'.cell]
      exact hputs
  have hafter : Simulates ⟨after, s.copies⟩ { cells' with cell := after.stored } :=
    ⟨rfl, fun copy hcopy => hsimulates'.held copy (List.mem_cons_of_mem _ hcopy)⟩
  have hvalue : after.stored result.mission.missionId = some result.mission := by
    rw [hresult]
    exact hputs.value
  obtain ⟨final, hreread, hfinal, -⟩ := hafter.read hvalue
  exact ⟨final, ((hsteps.trans hread).tail hwrite).trans hreread, hfinal⟩

lemma effect {s' : System} {call : ClientCall} (h : OptimisticInv s)
    (allowed : s.Optimistic call) (heffect : Effect s call s') : OptimisticInv s' := by
  have hsound := h.sound.effect heffect
  cases heffect with
  | idle => exact h
  | read hfound hloaded =>
      obtain ⟨hid, -⟩ := h.sound.missionId_of_loaded hfound hloaded
      subst hid
      obtain ⟨cells, hsteps, hsimulates⟩ := h.simulates
      obtain ⟨after, hread, hafter, -⟩ := hsimulates.read (stored_of_loaded hfound hloaded)
      exact ⟨h.sound, h.trails, h.derived_cons .refl,
        h.valid_cons (loadRow_eq_ok.mp hloaded).2.2, after, hsteps.trans hread, hafter⟩
  | @changed copy call m hreturn =>
      have hcopy : copy ∈ s.copies := allowed
      obtain ⟨cells, hsteps, hsimulates⟩ := h.simulates
      have hderived := (h.derived copy hcopy).tail ⟨call, hreturn⟩
      have hvalid := Mission.aggregate_valid (h.valid copy hcopy) hreturn
      exact ⟨h.sound, h.trails, h.derived_cons hderived, h.valid_cons hvalid, cells, hsteps,
        hsimulates.hold (hsimulates.held copy hcopy)⟩
  | created _ htransitions hmissions => exact h.created hsound allowed htransitions hmissions
  | saved hm hvalid htransitions hreplaces hcurrent =>
      exact h.saved hsound allowed hvalid hm htransitions hreplaces hcurrent
  | applied hfound hloaded happlies => exact h.applied hsound hfound hloaded happlies

end OptimisticInv

lemma optimisticInv_of_history {s : System} (h : History System.Optimistic s) :
    OptimisticInv s := by
  induction h with
  | empty => exact .initial
  | @step s call _ allowed ih => exact ih.effect allowed (s.step_effect call)

/-- The history of a committed Mission is an unbroken legal path, and the rows of its transitions
are exactly its audits. -/
theorem audit_history {s : System} (h : History System.Optimistic s) {row : MissionRow}
    (hrow : row ∈ s.db.missions.rows) :
    ∃ m, row.payload = some m ∧ AuditTrail m ∧
      s.db.receipts row.missionId = m.transitionAudit.map some := by
  have hinv := optimisticInv_of_history h
  have hfound : s.db.missions.lookup row.missionId = some row :=
    KeyedTable.lookup_eq_some.mpr ⟨hrow, rfl⟩
  obtain ⟨m, hloaded, -⟩ := hinv.sound.rows _ row hfound
  exact ⟨m, (loadRow_eq_ok.mp hloaded).2.1, hinv.trails _ _ (stored_of_loaded hfound hloaded)⟩

end Digest

/-! ## The sample Mission starts planning -/

def startRequest : TransitionRequest :=
  ⟨.startPlanning, identifier "developer-1" isIdentifier_developer,
    identifier "start" isIdentifier_start, none⟩

def startAudit : MissionTransitionAudit :=
  sampleMission.newAudit startRequest (identifier "transition:start") .planning 0

def plannedSystem : System :=
  @System.step sampleDigest (@System.step sampleDigest .empty (.create sampleMission none))
    (.appendTransition sampleMission.missionId startRequest none none 0 none)

def plannedRow : MissionRow :=
  writePayload (sampleMission.moved startAudit) (newRow sampleMission)

lemma plannedSystem_rows : plannedSystem.db.missions.rows = [plannedRow] := rfl

lemma plannedSystem_history : @History sampleDigest System.Optimistic plannedSystem :=
  @History.step sampleDigest _ _ _
    (@History.step sampleDigest _ _ _ (@History.empty sampleDigest _) sampleMission_fresh) trivial

theorem audit_history_planned :
    ∃ m, plannedRow.payload = some m ∧ AuditTrail m ∧
      plannedSystem.db.receipts plannedRow.missionId = m.transitionAudit.map some :=
  @audit_history sampleDigest plannedSystem plannedSystem_history plannedRow
    (by rw [plannedSystem_rows]; exact List.mem_singleton_self _)

end AgentSystem.Missions
