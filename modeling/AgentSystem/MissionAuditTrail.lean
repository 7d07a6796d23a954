import AgentSystem.MissionRun

/-!
# The audit trail of a Mission

The transition audit that a Mission carries is an unbroken path through the state machine from
`DRAFT` to its current state. A transition extends it by one edge, and a saved Mission keeps it.
-/
namespace AgentSystem.Missions

/-- An audit that may follow another one: an edge of the table, or a `RESUME` to the state that the
`PAUSE` right before it recorded. -/
def LegalAfter (previous : Option MissionTransitionAudit) (audit : MissionTransitionAudit) : Prop :=
  ((audit.fromState, audit.event), audit.toState) ∈ legalTransitions ∨
    (audit.event = .resume ∧
      ∃ paused ∈ previous, paused.event = .pause ∧ paused.fromState = audit.toState)

structure AuditTrail (m : Mission) : Prop where
  start : ∀ audit ∈ m.transitionAudit.head?, audit.fromState = .draft
  linked : m.transitionAudit.IsChain fun previous audit => audit.fromState = previous.toState
  last : (m.transitionAudit.getLast?.map MissionTransitionAudit.toState).getD .draft =
    m.currentState
  legal : ∀ earlier audit later, m.transitionAudit = earlier ++ audit :: later →
    LegalAfter earlier.getLast? audit
  next : ∀ audit ∈ m.transitionAudit, (audit.toRevision : ℕ) = audit.fromRevision + 1
  increasing : m.transitionAudit.Pairwise fun previous audit =>
    previous.toRevision < audit.toRevision
  bounded : ∀ audit ∈ m.transitionAudit, (audit.toRevision : ℕ) ≤ m.revision
  keys : (m.transitionAudit.map MissionTransitionAudit.idempotencyKey).Nodup
  paused : m.resumeState.isSome ↔ m.currentState = .paused
  recorded : ∀ state ∈ m.resumeState,
    ∃ audit ∈ m.transitionAudit.getLast?, audit.event = .pause ∧ audit.fromState = state

variable {m m' : Mission}

lemma Mission.Fresh.auditTrail (h : m.Fresh) : AuditTrail m := by
  have hresume := h.resume
  have hdraft := h.draft
  constructor <;> simp [h.audit, hresume, hdraft]

/-- The trail does not depend on anything but state and history, and the revision may grow. -/
lemma AuditTrail.saved (h : AuditTrail m) (hstate : m'.currentState = m.currentState)
    (hresume : m'.resumeState = m.resumeState) (haudit : m'.transitionAudit = m.transitionAudit)
    (hrevision : m.revision ≤ m'.revision) : AuditTrail m' := by
  constructor
  case bounded =>
    rw [haudit]
    exact fun audit hmem => (h.bounded audit hmem).trans hrevision
  all_goals simp only [haudit, hstate, hresume]
  · exact h.start
  · exact h.linked
  · exact h.last
  · exact h.legal
  · exact h.next
  · exact h.increasing
  · exact h.keys
  · exact h.paused
  · exact h.recorded

/-- The recorded state is not `PAUSED` itself. -/
lemma AuditTrail.resumeState_ne_paused (h : AuditTrail m) : m.resumeState ≠ some .paused := by
  intro hresume
  obtain ⟨audit, hlast, hevent, hfrom⟩ := h.recorded .paused hresume
  obtain ⟨earlier, hsplit⟩ := List.getLast?_eq_some_iff.mp hlast
  rcases h.legal earlier audit [] hsplit with hedge | ⟨hresumed, -⟩
  · have edges : ∀ edge ∈ legalTransitions, edge.1 ≠ (.paused, .pause) := by decide
    rw [hevent, hfrom] at hedge
    exact edges _ hedge rfl
  · rw [hevent] at hresumed
    cases hresumed

variable [CanonicalDigest] {request : TransitionRequest} {occurredAt : Datetime}
  {result : TransitionResult}

namespace Mission.Moves

lemma fromRevision (h : Moves m request occurredAt result) :
    result.audit.fromRevision = m.revision := by
  obtain ⟨auditId, haudit⟩ := h.audit
  rw [haudit]
  rfl

lemma toRevision (h : Moves m request occurredAt result) :
    (result.audit.toRevision : ℕ) = m.revision + 1 := by
  obtain ⟨auditId, haudit⟩ := h.audit
  rw [haudit]
  rfl

lemma idempotencyKey (h : Moves m request occurredAt result) :
    result.audit.idempotencyKey = request.idempotencyKey := by
  obtain ⟨auditId, haudit⟩ := h.audit
  rw [haudit]
  rfl

/-- The new audit is an edge of the table or resumes what the last audit paused. -/
lemma legalAfter (h : Moves m request occurredAt result) (htrail : AuditTrail m) :
    LegalAfter m.transitionAudit.getLast? result.audit := by
  unfold LegalAfter
  rw [h.fromState, h.event]
  rcases target_cases h.target with ⟨hevent, hresume⟩ | hedge
  · exact .inr ⟨hevent, htrail.recorded _ hresume⟩
  · exact .inl hedge

/-- A Mission is paused by the event `PAUSE`. -/
lemma pause (h : Moves m request occurredAt result) (htrail : AuditTrail m)
    (hpaused : result.audit.toState = .paused) : result.audit.event = .pause := by
  have htarget := h.target
  rw [hpaused] at htarget
  rcases target_cases htarget with ⟨-, hresume⟩ | hedge
  · exact absurd hresume htrail.resumeState_ne_paused
  · rw [h.event]
    exact (paused_edge hedge).1

end Mission.Moves

/-- A transition keeps the trail, which it extends by its audit if it moves the Mission. -/
lemma AuditTrail.transition (h : AuditTrail m)
    (hreturn : m.transition request occurredAt = .ok result) : AuditTrail result.mission := by
  rcases Mission.transition_cases hreturn with ⟨hsame, -⟩ | hmoves
  · rwa [hsame]
  rw [hmoves.mission]
  have hfrom := hmoves.fromState
  have hto := hmoves.toRevision
  constructor <;> simp only [Mission.moved]
  · -- start
    intro audit haudit
    cases haudits : m.transitionAudit with
    | nil =>
        rw [haudits] at haudit
        cases haudit
        have hlast := h.last
        rw [haudits] at hlast
        rw [hfrom, ← hlast]
        rfl
    | cons head tail =>
        rw [haudits] at haudit
        exact h.start audit (by rw [haudits]; exact haudit)
  · -- linked
    refine h.linked.append (.singleton _) ?_
    intro previous hprevious audit haudit
    cases haudit
    have hlast := h.last
    rw [hprevious] at hlast
    rw [hfrom, ← hlast]
    rfl
  · -- last
    simp
  · -- legal
    intro earlier audit later hsplit
    rcases List.eq_nil_or_concat later with rfl | ⟨later, final, rfl⟩
    · obtain ⟨rfl, hfinal⟩ := List.append_inj' hsplit rfl
      cases hfinal
      exact hmoves.legalAfter h
    · have hinit : m.transitionAudit ++ [result.audit] = (earlier ++ audit :: later) ++ [final] := by
        simpa using hsplit
      exact h.legal earlier audit later (List.append_inj' hinit rfl).1
  · -- next
    intro audit haudit
    rcases List.mem_append.mp haudit with hold | hnew
    · exact h.next audit hold
    · obtain rfl := List.mem_singleton.mp hnew
      rw [hto, hmoves.fromRevision]
  · -- increasing
    refine List.pairwise_append.mpr ⟨h.increasing, List.pairwise_singleton _ _, ?_⟩
    intro previous hprevious audit haudit
    obtain rfl := List.mem_singleton.mp haudit
    rw [← PNat.coe_lt_coe, hto]
    exact Nat.lt_succ_of_le (h.bounded previous hprevious)
  · -- bounded
    intro audit haudit
    rcases List.mem_append.mp haudit with hold | hnew
    · exact (h.bounded audit hold).trans (Nat.le_succ _)
    · obtain rfl := List.mem_singleton.mp hnew
      exact hto.le
  · -- keys
    rw [List.map_append, List.map_singleton, hmoves.idempotencyKey]
    exact h.keys.append (List.nodup_singleton _) (by simpa using hmoves.newKey)
  · -- paused
    simp
  · -- recorded
    intro state hstate
    simp only [Option.mem_def, Option.ite_none_right_eq_some, Option.some.injEq] at hstate
    obtain ⟨hpaused, rfl⟩ := hstate
    exact ⟨result.audit, by simp, hmoves.pause h hpaused, hfrom⟩

end AgentSystem.Missions
