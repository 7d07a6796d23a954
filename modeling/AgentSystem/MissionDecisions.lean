import AgentSystem.MissionReplanning

/-!
# Decisions on approval subjects

What a sequence of calls of `add_approval_gate` records. A decision that is recorded is the only one
on its subject and stays; a pending gate on the subject keeps every decision out.
-/
namespace AgentSystem.Missions

namespace Mission

variable {m : Mission} {gate : ApprovalGate}

/-- The decisions that are recorded on a subject. -/
def decisions (m : Mission) (subject : ApprovalSubject) : List ApprovalGate :=
  m.approvalGates.filter fun gate => gate.subject = subject ∧ gate.status ≠ .pending

/-- The subjects that have been decided, in the order of the gates. -/
def decidedSubjects (gates : List ApprovalGate) : List ApprovalSubject :=
  (gates.filter fun gate => gate.status ≠ .pending).map ApprovalGate.subject

lemma decidedSubjects_cons_pending {gates : List ApprovalGate} (h : gate.status = .pending) :
    decidedSubjects (gate :: gates) = decidedSubjects gates := by
  simp [decidedSubjects, h]

lemma decidedSubjects_cons_decided {gates : List ApprovalGate} (h : gate.status ≠ .pending) :
    decidedSubjects (gate :: gates) = gate.subject :: decidedSubjects gates := by
  simp [decidedSubjects, h]

/-- The loop over the approval gates accepts gates whose evidence exists, with one decision for each
subject. -/
lemma decisionError_eq_none {gates : List ApprovalGate} {finalDecisions : List ApprovalSubject} :
    m.decisionError gates finalDecisions = none ↔
      (∀ gate ∈ gates, ∀ ref ∈ gate.evidenceRefs, m.evidenceById ref ≠ none) ∧
        (decidedSubjects gates).Nodup ∧
        ∀ subject ∈ decidedSubjects gates, subject ∉ finalDecisions := by
  induction gates generalizing finalDecisions with
  | nil => simp [decisionError, decidedSubjects]
  | cons gate gates ih =>
      rw [decisionError, List.forall_mem_cons]
      split_ifs with hrefs hdecided hfinal
      · refine iff_of_false not_false fun h => ?_
        obtain ⟨ref, href, hnone⟩ := hrefs
        exact h.1.1 ref href hnone
      · rw [decidedSubjects_cons_decided hdecided]
        exact iff_of_false not_false fun h => h.2.2 gate.subject List.mem_cons_self hfinal
      · push Not at hrefs
        rw [ih, decidedSubjects_cons_decided hdecided, List.nodup_cons, List.forall_mem_cons]
        constructor
        · rintro ⟨hevidence, hnodup, hapart⟩
          refine ⟨⟨hrefs, hevidence⟩, ⟨fun hmem => ?_, hnodup⟩, hfinal, fun subject hsubject => ?_⟩
          · exact hapart gate.subject hmem List.mem_cons_self
          · exact fun hmem => hapart subject hsubject (List.mem_cons_of_mem _ hmem)
        · rintro ⟨⟨-, hevidence⟩, ⟨hnew, hnodup⟩, -, hapart⟩
          refine ⟨hevidence, hnodup, fun subject hsubject hmem => ?_⟩
          rcases List.mem_cons.mp hmem with rfl | hold
          · exact hnew hsubject
          · exact hapart subject hsubject hold
      · push Not at hrefs hdecided
        rw [ih, decidedSubjects_cons_pending hdecided]
        exact ⟨fun h => ⟨⟨hrefs, h.1⟩, h.2⟩, fun h => ⟨h.1.2, h.2⟩⟩

/-! ## Calls of `add_approval_gate` -/

section Offers

variable [CanonicalDigest]

/-- The Mission after a call of `add_approval_gate`; one that raises leaves it as it was. -/
def offer (m : Mission) (gate : ApprovalGate) : Mission :=
  match m.addApprovalGate gate with
  | .ok m' => m'
  | .error _ => m

def offers (m : Mission) (gates : List ApprovalGate) : Mission := gates.foldl offer m

lemma offer_valid (hvalid : m.modelValidate = .ok m) (gate : ApprovalGate) :
    (m.offer gate).modelValidate = .ok (m.offer gate) := by
  rw [offer]
  cases h : m.addApprovalGate gate with
  | error error => exact hvalid
  | ok m' =>
      have hcall : m.aggregate (.addApprovalGate gate) = .ok m' := h
      exact aggregate_valid hvalid hcall

lemma offers_valid (hvalid : m.modelValidate = .ok m) (gates : List ApprovalGate) :
    (m.offers gates).modelValidate = .ok (m.offers gates) := by
  induction gates generalizing m with
  | nil => exact hvalid
  | cons gate gates ih => exact ih (offer_valid hvalid gate)

lemma offer_extends (m : Mission) (gate : ApprovalGate) :
    m.approvalGates <+: (m.offer gate).approvalGates := by
  rw [offer]
  cases h : m.addApprovalGate gate with
  | error error => exact List.prefix_refl _
  | ok m' =>
      rcases addApprovalGate_cases h with rfl | ⟨rfl, -⟩
      · exact List.prefix_refl _
      · exact List.prefix_append _ _

lemma offers_extend (m : Mission) (gates : List ApprovalGate) :
    m.approvalGates <+: (m.offers gates).approvalGates := by
  induction gates generalizing m with
  | nil => exact List.prefix_refl _
  | cons gate gates ih => exact (offer_extends m gate).trans (ih (m.offer gate))

omit [CanonicalDigest] in
/-- A valid Mission holds one decision on a subject at most. -/
lemma decisions_length_le (hvalid : m.modelValidate = .ok m) (subject : ApprovalSubject) :
    (m.decisions subject).length ≤ 1 := by
  obtain ⟨-, -, hrefs⟩ := modelValidate_eq_ok.mp hvalid
  obtain ⟨-, -, -, hdecisions, -⟩ := validateAggregateReferences_eq_none.mp hrefs
  have hnodup := (decisionError_eq_none.mp hdecisions).2.1
  have hcount : (m.decisions subject).length = (decidedSubjects m.approvalGates).count subject := by
    rw [decisions, decidedSubjects, List.count, List.countP_map, List.countP_filter,
      ← List.countP_eq_length_filter]
    apply List.countP_congr
    intro item _
    simp
  rw [hcount]
  exact List.nodup_iff_count_le_one.mp hnodup subject

/-- The first non-pending decision on a subject, with a new gate id, from an actor who may decide
and on the plan that the Mission has. -/
structure FirstDecision (m : Mission) (gate : ApprovalGate) : Prop where
  decides : gate.status ≠ .pending
  first : m.decisions gate.subject = []
  fresh : gate.gateId ∉ m.approvalGates.map ApprovalGate.gateId
  actor : prohibitedApprover gate = none
  subject : m.planSubjectError gate = none

omit [CanonicalDigest] in
/-- No gate on the subject was added before, the evidence exists, and there is room for a gate. -/
structure Recordable (m : Mission) (gate : ApprovalGate) : Prop where
  untouched : ∀ item ∈ m.approvalGates, item.subject ≠ gate.subject
  evidence : ∀ ref ∈ gate.evidenceRefs, m.evidenceById ref ≠ none
  room : m.approvalGates.length < 256

omit [CanonicalDigest] in
lemma withApprovalGate_valid (hvalid : m.modelValidate = .ok m)
    (hfresh : gate.gateId ∉ m.approvalGates.map ApprovalGate.gateId)
    (huntouched : ∀ item ∈ m.approvalGates, item.subject ≠ gate.subject) :
    (m.withApprovalGate gate).modelValidate = .ok (m.withApprovalGate gate) ↔
      (∀ ref ∈ gate.evidenceRefs, m.evidenceById ref ≠ none) ∧ m.approvalGates.length < 256 := by
  obtain ⟨-, hlong, hrefs⟩ := modelValidate_eq_ok.mp hvalid
  obtain ⟨-, hevidence, hverifications, haudit⟩ := longFields_eq_nil.mp hlong
  obtain ⟨hplan, hunique, hlinks, hdecisions, hgates⟩ :=
    validateAggregateReferences_eq_none.mp hrefs
  have hrecords : (m.withApprovalGate gate).evidenceRecords = m.evidenceRecords := rfl
  have happrovals : (m.withApprovalGate gate).approvalGates = m.approvalGates ++ [gate] := rfl
  rw [modelValidate_eq_ok, longFields_eq_nil, validateAggregateReferences_eq_none,
    decisionError_congr hrecords, decisionError_eq_none, happrovals, List.length_append]
  obtain ⟨hexists, hnodup, -⟩ := decisionError_eq_none.mp hdecisions
  constructor
  · rintro ⟨-, ⟨hlength, -⟩, -, -, -, ⟨hexists', -⟩, -⟩
    refine ⟨hexists' gate (List.mem_append_right _ (List.mem_singleton_self _)), ?_⟩
    rw [List.length_singleton] at hlength
    omega
  · rintro ⟨hgate, hroom⟩
    refine ⟨rfl, ⟨?_, hevidence, hverifications, haudit⟩, hplan, ?_, hlinks, ⟨?_, ?_, nofun⟩, ?_⟩
    · rw [List.length_singleton]
      omega
    · obtain ⟨hids, hrest⟩ := uniquenessError_eq_none.mp hunique
      refine uniquenessError_eq_none.mpr ⟨?_, hrest⟩
      rw [happrovals, List.map_append, List.map_singleton, ← List.concat_eq_append]
      exact hids.concat hfresh
    · intro item hitem
      rcases List.mem_append.mp hitem with hold | hnew
      · exact hexists item hold
      · rwa [List.mem_singleton.mp hnew]
    · rw [decidedSubjects, List.filter_append, List.map_append]
      apply hnodup.append
      · exact ((List.nodup_singleton gate).filter _).map_on (by simp)
      · intro subject hold hnew
        obtain ⟨item, hitem, rfl⟩ := List.mem_map.mp hold
        obtain ⟨other, hother, heq⟩ := List.mem_map.mp hnew
        obtain rfl := List.mem_singleton.mp (List.mem_of_mem_filter hother)
        exact huntouched item (List.mem_of_mem_filter hitem) heq.symm
    · exact fun item hitem => (verificationGateError_congr hrecords item).trans (hgates item hitem)

lemma addApprovalGate_untouched (hfirst : m.FirstDecision gate)
    (huntouched : ∀ item ∈ m.approvalGates, item.subject ≠ gate.subject) :
    m.addApprovalGate gate = (m.withApprovalGate gate).modelValidate := by
  have hnone : (m.approvalGates.find? fun item => item.subject = gate.subject) = none := by
    apply List.find?_eq_none.mpr
    intro item hitem heq
    exact huntouched item hitem (of_decide_eq_true heq)
  rw [addApprovalGate, if_neg hfirst.fresh, hfirst.actor]
  simp only [hfirst.subject, hnone]

/-- A gate on the subject that is no decision keeps the first decision out. -/
lemma addApprovalGate_touched (hfirst : m.FirstDecision gate)
    (htouched : ∃ item ∈ m.approvalGates, item.subject = gate.subject) :
    m.addApprovalGate gate =
      .error (.aggregate "immutable_decision_conflict"
        "Approval subject already has a final decision") := by
  obtain ⟨item, hitem, hsubject⟩ := htouched
  have hfound : (m.approvalGates.find? fun item => item.subject = gate.subject).isSome :=
    List.find?_isSome.mpr ⟨item, hitem, decide_eq_true hsubject⟩
  obtain ⟨existing, hexisting⟩ := Option.isSome_iff_exists.mp hfound
  have hsame : existing.subject = gate.subject := by simpa using List.find?_some hexisting
  have hpending : existing.status = .pending := by
    by_contra hdecided
    have hmem : existing ∈ m.decisions gate.subject :=
      List.mem_filter.mpr ⟨List.mem_of_find?_eq_some hexisting, by simp [hsame, hdecided]⟩
    rw [hfirst.first] at hmem
    cases hmem
  have hother : existing.status ≠ gate.status := by
    rw [hpending]
    exact hfirst.decides.symm
  rw [addApprovalGate, if_neg hfirst.fresh, hfirst.actor]
  simp only [hfirst.subject, hexisting, hother, false_and, if_false]

/-- A first decision is recorded exactly if it can be. -/
lemma offer_records (hvalid : m.modelValidate = .ok m) (hfirst : m.FirstDecision gate) :
    gate ∈ (m.offer gate).approvalGates ↔ m.Recordable gate := by
  have habsent : gate ∉ m.approvalGates := fun hmem => hfirst.fresh (List.mem_map_of_mem hmem)
  by_cases huntouched : ∀ item ∈ m.approvalGates, item.subject ≠ gate.subject
  · have hrecorded := withApprovalGate_valid hvalid hfirst.fresh huntouched
    rw [offer, addApprovalGate_untouched hfirst huntouched]
    constructor
    · intro hmem
      cases hbuilt : (m.withApprovalGate gate).modelValidate with
      | error error =>
          rw [hbuilt] at hmem
          exact absurd hmem habsent
      | ok m' =>
          obtain ⟨rfl, -⟩ := modelValidate_eq_ok.mp hbuilt
          obtain ⟨hevidence, hroom⟩ := hrecorded.mp hbuilt
          exact ⟨huntouched, hevidence, hroom⟩
    · intro h
      rw [hrecorded.mpr ⟨h.evidence, h.room⟩]
      exact List.mem_append_right _ (List.mem_singleton_self gate)
  · have htouched : ∃ item ∈ m.approvalGates, item.subject = gate.subject := by
      push Not at huntouched
      exact huntouched
    rw [offer, addApprovalGate_touched hfirst htouched]
    exact iff_of_false habsent fun h => huntouched h.untouched

/-! ## Sequences of calls -/

lemma offers_append (m : Mission) (gates more : List ApprovalGate) :
    m.offers (gates ++ more) = (m.offers gates).offers more := List.foldl_append

/-- A recorded decision stays the only one on its subject. -/
lemma decisions_final (hvalid : m.modelValidate = .ok m) (gates : List ApprovalGate)
    {subject : ApprovalSubject} (hgate : gate ∈ m.decisions subject) :
    (m.offers gates).decisions subject = [gate] := by
  have hkept : gate ∈ (m.offers gates).decisions subject := by
    obtain ⟨hmem, hdecides⟩ := List.mem_filter.mp hgate
    exact List.mem_filter.mpr ⟨(offers_extend m gates).subset hmem, hdecides⟩
  have hlength := decisions_length_le (offers_valid hvalid gates) subject
  obtain ⟨item, hitem⟩ := List.length_eq_one_iff.mp
    (le_antisymm hlength (List.length_pos_of_mem hkept))
  rw [hitem] at hkept ⊢
  rw [List.mem_singleton.mp hkept]

/-- Over any sequence of calls one decision at most is recorded on a subject and stays, and every
first decision is recorded, exactly if for each first decision of the sequence no gate on its
subject was added before, its evidence exists and there is room. -/
theorem first_decisions_recorded_iff (hvalid : m.modelValidate = .ok m)
    (gates : List ApprovalGate) :
    ((∀ before after, gates = before ++ after → ∀ subject,
        ((m.offers before).decisions subject).length ≤ 1 ∧
          ∀ gate ∈ (m.offers before).decisions subject,
            (m.offers gates).decisions subject = [gate]) ∧
      ∀ before gate after, gates = before ++ gate :: after →
        (m.offers before).FirstDecision gate →
          gate ∈ ((m.offers before).offer gate).approvalGates) ↔
    ∀ before gate after, gates = before ++ gate :: after →
      (m.offers before).FirstDecision gate → (m.offers before).Recordable gate := by
  constructor
  · rintro ⟨-, hrecorded⟩ before gate after hgates hfirst
    exact (offer_records (offers_valid hvalid before) hfirst).mp
      (hrecorded before gate after hgates hfirst)
  · intro hrecordable
    refine ⟨fun before after hgates subject => ?_, fun before gate after hgates hfirst => ?_⟩
    · refine ⟨decisions_length_le (offers_valid hvalid before) subject, fun gate hgate => ?_⟩
      rw [hgates, offers_append]
      exact decisions_final (offers_valid hvalid before) after hgate
    · exact (offer_records (offers_valid hvalid before) hfirst).mpr
        (hrecordable before gate after hgates hfirst)

end Offers

/-! ## A pending gate -/

def scopeSubject : ApprovalSubject := .scopeExpansion ⟨identifier "scope-1"⟩

def pendingScope : ApprovalGate where
  gateId := identifier "gate-1"
  gateType := .scopeExpansion
  subject := scopeSubject
  idempotencyKey := identifier "key-1"

def approvedScope : ApprovalGate where
  gateId := identifier "gate-2"
  gateType := .scopeExpansion
  subject := scopeSubject
  status := .approved
  actorId := some (identifier "developer-1" isIdentifier_developer)
  decidedAt := some 0
  idempotencyKey := identifier "key-2"
  pending_undecided := sampleApproval.pending_undecided
  decided_metadata := sampleApproval.decided_metadata

theorem approved_scope_recorded :
    approvedScope ∈ (@offer sampleDigest sampleMission approvedScope).approvalGates := by
  let := sampleDigest
  have hwhole := (first_decisions_recorded_iff sampleMission_fresh.valid [approvedScope]).mpr (by
    intro before gate after hgates _
    obtain ⟨rfl, rfl, rfl⟩ : before = [] ∧ gate = approvedScope ∧ after = [] := by
      rcases List.singleton_eq_append_iff.mp hgates with ⟨rfl, hrest⟩ | ⟨-, hrest⟩
      · obtain ⟨rfl, rfl⟩ := List.cons_eq_cons.mp hrest
        exact ⟨rfl, rfl, rfl⟩
      · cases hrest
    exact ⟨nofun, nofun, by decide⟩)
  exact hwhole.2 [] approvedScope [] rfl ⟨by decide, by decide, by decide, by decide, by decide⟩

/-- The approval of a scope that is pending is refused, as if it had been decided. -/
theorem pending_gate_keeps_out :
    ¬ ∀ [CanonicalDigest] (m : Mission) (gates : List ApprovalGate), m.modelValidate = .ok m →
      ∀ before gate after, gates = before ++ gate :: after →
        (m.offers before).FirstDecision gate →
          gate ∈ ((m.offers before).offer gate).approvalGates := by
  intro claim
  let := sampleDigest
  have hrecorded := claim sampleMission [pendingScope, approvedScope] sampleMission_fresh.valid
    [pendingScope] approvedScope [] rfl
    ⟨by decide, by decide, by decide, by decide, by decide⟩
  revert hrecorded
  decide

end Mission

end AgentSystem.Missions
