import AgentSystem.AgentTools

/-!
# Approvals of one session

`_wait_for_approval` with the decisions of humans, for any number of calls that wait at once. The
requests stand in `ACTIVE_APPROVALS`, one for each session.
-/
namespace AgentSystem.Router

/-- The two modules that the router is imported as, each with its own `ACTIVE_APPROVALS`. -/
inductive RouterModule
  | core
  | agentWorkspace
  deriving DecidableEq

/-- A key of one `ACTIVE_APPROVALS`. -/
structure ApprovalKey where
  module : RouterModule
  sessionId : String
  deriving DecidableEq

/-- What a future is resolved with. -/
inductive Resolution
  | decided (decision : Decision)
  | cancelled
  deriving DecidableEq

/-- The calls of `_wait_for_approval` up to now with their keys, by the number of their future: the
results of the futures, the requests that are registered, the calls that still wait, and what the
others returned with. -/
structure Approvals where
  keys : List ApprovalKey := []
  result : ℕ → Option Resolution := fun _ => none
  active : ApprovalKey → Option ℕ := fun _ => none
  waiting : List ℕ := []
  returned : List (ℕ × Resolution) := []

inductive ApprovalStep
  | wait (key : ApprovalKey)
  | decide (key : ApprovalKey) (decision : Decision)
  | cancel (future : ℕ)
  | wake (future : ℕ)

namespace Approvals

/-- `_wait_for_approval` up to `await future`. -/
def wait (key : ApprovalKey) (s : Approvals) : Approvals :=
  { s with
    keys := s.keys ++ [key]
    active := Function.update s.active key (some s.keys.length)
    waiting := s.waiting ++ [s.keys.length] }

/-- `future.set_result`, unless the future is done. -/
def setResult (future : ℕ) (resolution : Resolution) (s : Approvals) : Approvals :=
  if s.result future = none then
    { s with result := Function.update s.result future (some resolution) }
  else s

/-- `resolve_approval`, `approve_session`, `reject_session` and `hijack_session_endpoint`: the
request that is registered is decided. -/
def resolve (key : ApprovalKey) (decision : Decision) (s : Approvals) : Approvals :=
  match s.active key with
  | some future => s.setResult future (.decided decision)
  | none => s

/-- The task that waits is cancelled, also after a decision that it has not returned with. -/
def cancel (future : ℕ) (s : Approvals) : Approvals :=
  if future ∈ s.waiting then
    { s with result := Function.update s.result future (some .cancelled) }
  else s

/-- The `finally` block: the key of the call is removed, whoever stands under it. -/
def release (future : ℕ) (resolution : Resolution) (s : Approvals) : Approvals :=
  { s with
    active := match s.keys[future]? with
      | some key => Function.update s.active key none
      | none => s.active
    waiting := s.waiting.erase future
    returned := s.returned ++ [(future, resolution)] }

/-- A call returns once its future is done. -/
def wake (future : ℕ) (s : Approvals) : Approvals :=
  match s.result future with
  | some resolution => if future ∈ s.waiting then s.release future resolution else s
  | none => s

def step (s : Approvals) : ApprovalStep → Approvals
  | .wait key => s.wait key
  | .decide key decision => s.resolve key decision
  | .cancel future => s.cancel future
  | .wake future => s.wake future

/-- A run from the start of the process. -/
def run (steps : List ApprovalStep) : Approvals := steps.foldl step {}

/-- Both routes of `chat.py` import `core.router`, whatever module the loops are built from. -/
def approveSession (sessionId : String) : ApprovalStep :=
  .decide ⟨.core, sessionId⟩ .approved

def rejectSession (sessionId : String) : ApprovalStep :=
  .decide ⟨.core, sessionId⟩ .denied

def hijackSession (sessionId hijackValue : String) : ApprovalStep :=
  .decide ⟨.agentWorkspace, sessionId⟩ (.hijacked hijackValue)

lemma run_append (steps : List ApprovalStep) (a : ApprovalStep) :
    run (steps ++ [a]) = (run steps).step a := by
  rw [run, run, List.foldl_append]
  rfl

/-! ## What the claims are about -/

/-- A call that waits for a decision. -/
def Pending (s : Approvals) (future : ℕ) : Prop :=
  future ∈ s.waiting ∧ s.result future = none

/-- A pending call of a key. -/
def PendingAt (s : Approvals) (key : ApprovalKey) (future : ℕ) : Prop :=
  s.Pending future ∧ s.keys[future]? = some key

/-- Each call that waits for a decision is registered. -/
def AllRegistered (s : Approvals) : Prop :=
  ∀ key future, s.PendingAt key future → s.active key = some future

/-- A step that finds no pending call in its way: a call that begins to wait, none of its key; a
call that returns, none that would lose its entry to it. -/
def Unopposed (s : Approvals) : ApprovalStep → Prop
  | .wait key => ∀ future, ¬s.PendingAt key future
  | .wake future =>
      future ∈ s.waiting → s.result future ≠ none →
        ∀ key, s.keys[future]? = some key → ∀ other, ¬s.PendingAt key other
  | _ => True

/-- A decision releases the call that was registered, and no other. -/
def Releases (s : Approvals) (key : ApprovalKey) (decision : Decision) : Prop :=
  let s' := s.step (.decide key decision)
  (∀ future, s.active key = some future → s.result future = none →
    s'.result future = some (.decided decision)) ∧
  ∀ other, s.active key ≠ some other → s'.result other = s.result other

/-! ## What every run keeps -/

/-- Futures are numbered by their calls, and a key has an entry of its own call. -/
structure WellNumbered (s : Approvals) : Prop where
  waiting_lt : ∀ future ∈ s.waiting, future < s.keys.length
  waiting_nodup : s.waiting.Nodup
  fresh : ∀ future, s.keys.length ≤ future → s.result future = none
  registered : ∀ key future, s.active key = some future → s.keys[future]? = some key

lemma WellNumbered.active_lt {s : Approvals} (h : s.WellNumbered) {key : ApprovalKey}
    {future : ℕ} (hactive : s.active key = some future) : future < s.keys.length :=
  (List.getElem?_eq_some_iff.mp (h.registered key future hactive)).1

lemma WellNumbered.wait {s : Approvals} (h : s.WellNumbered) (key : ApprovalKey) :
    (s.wait key).WellNumbered := by
  refine ⟨fun future hfuture => ?_, ?_, fun future hfuture => h.fresh future ?_,
    fun other future hactive => ?_⟩
  · simp only [Approvals.wait, List.length_append, List.length_singleton]
    rcases List.mem_append.mp hfuture with hold | hnew
    · exact Nat.lt_succ_of_lt (h.waiting_lt future hold)
    · rw [List.mem_singleton.mp hnew]
      exact Nat.lt_succ_self _
  · refine h.waiting_nodup.append (List.nodup_singleton _) ?_
    simp only [List.disjoint_singleton]
    exact fun hmem => lt_irrefl _ (h.waiting_lt _ hmem)
  · simp only [Approvals.wait, List.length_append, List.length_singleton] at hfuture
    omega
  · by_cases hkey : other = key
    · subst hkey
      simp only [Approvals.wait, Function.update_self, Option.some.injEq] at hactive
      subst hactive
      exact List.getElem?_concat_length
    · simp only [Approvals.wait, Function.update_of_ne hkey] at hactive
      simp only [Approvals.wait]
      rw [List.getElem?_append_left (h.active_lt hactive)]
      exact h.registered other future hactive

lemma WellNumbered.setResult {s : Approvals} (h : s.WellNumbered) {future : ℕ}
    (hlt : future < s.keys.length) (resolution : Resolution) :
    (s.setResult future resolution).WellNumbered := by
  unfold Approvals.setResult
  split_ifs with hnone
  · refine ⟨h.waiting_lt, h.waiting_nodup, fun other hother => ?_, h.registered⟩
    have hne : other ≠ future := fun heq => by
      simp only at hother
      omega
    simp only [Function.update_of_ne hne]
    exact h.fresh other hother
  · exact h

lemma WellNumbered.cancel {s : Approvals} (h : s.WellNumbered) (future : ℕ) :
    (s.cancel future).WellNumbered := by
  unfold Approvals.cancel
  split_ifs with hwaiting
  · have hlt := h.waiting_lt future hwaiting
    refine ⟨h.waiting_lt, h.waiting_nodup, fun other hother => ?_, h.registered⟩
    have hne : other ≠ future := fun heq => by
      simp only at hother
      omega
    simp only [Function.update_of_ne hne]
    exact h.fresh other hother
  · exact h

lemma WellNumbered.release {s : Approvals} (h : s.WellNumbered) (future : ℕ)
    (resolution : Resolution) : (s.release future resolution).WellNumbered := by
  refine ⟨fun other hother => h.waiting_lt other (List.mem_of_mem_erase hother),
    h.waiting_nodup.erase future, h.fresh, fun key other hactive => h.registered key other ?_⟩
  simp only [Approvals.release] at hactive
  cases hkey : s.keys[future]? with
  | none =>
      simp only [hkey] at hactive
      exact hactive
  | some key' =>
      simp only [hkey] at hactive
      by_cases heq : key = key'
      · simp [heq] at hactive
      · rwa [Function.update_of_ne heq] at hactive

lemma WellNumbered.step {s : Approvals} (h : s.WellNumbered) (a : ApprovalStep) :
    (s.step a).WellNumbered := by
  cases a with
  | wait key => exact h.wait key
  | decide key decision =>
      simp only [Approvals.step, resolve]
      cases hactive : s.active key with
      | none => exact h
      | some future => exact h.setResult (h.active_lt hactive) _
  | cancel future => exact h.cancel future
  | wake future =>
      simp only [Approvals.step, wake]
      cases s.result future with
      | none => exact h
      | some resolution =>
          dsimp only
          split_ifs
          · exact h.release future resolution
          · exact h

lemma run_wellNumbered (steps : List ApprovalStep) : (run steps).WellNumbered := by
  induction steps using List.reverseRecOn with
  | nil => exact ⟨nofun, List.nodup_nil, fun _ _ => rfl, nofun⟩
  | append_singleton steps a ih =>
      rw [run_append]
      exact ih.step a

/-! ## Registrations -/

lemma pending_setResult {s : Approvals} {future other : ℕ} {resolution : Resolution}
    (h : (s.setResult future resolution).Pending other) : s.Pending other := by
  unfold Approvals.setResult at h
  split_ifs at h with hnone
  · refine ⟨h.1, ?_⟩
    have hresult : Function.update s.result future (some resolution) other = none := h.2
    by_cases heq : other = future
    · simp [heq] at hresult
    · rwa [Function.update_of_ne heq] at hresult
  · exact h

lemma setResult_active (s : Approvals) (future : ℕ) (resolution : Resolution) :
    (s.setResult future resolution).active = s.active ∧
      (s.setResult future resolution).keys = s.keys := by
  unfold Approvals.setResult
  split_ifs
  · exact ⟨rfl, rfl⟩
  · exact ⟨rfl, rfl⟩

lemma pendingAt_wait {s : Approvals} (hs : s.WellNumbered) {key other : ApprovalKey} {future : ℕ} :
    (s.wait key).PendingAt other future ↔
      s.PendingAt other future ∨ (other = key ∧ future = s.keys.length) := by
  constructor
  · rintro ⟨⟨hwaiting, hresult⟩, hkey⟩
    rcases List.mem_append.mp hwaiting with hold | hnew
    · have hlt := hs.waiting_lt future hold
      simp only [Approvals.wait] at hkey
      rw [List.getElem?_append_left hlt] at hkey
      exact .inl ⟨⟨hold, hresult⟩, hkey⟩
    · have heq := List.mem_singleton.mp hnew
      subst heq
      simp only [Approvals.wait, List.getElem?_concat_length, Option.some.injEq] at hkey
      exact .inr ⟨hkey.symm, rfl⟩
  · rintro (⟨⟨hwaiting, hresult⟩, hkey⟩ | ⟨rfl, rfl⟩)
    · refine ⟨⟨List.mem_append_left _ hwaiting, hresult⟩, ?_⟩
      simp only [Approvals.wait]
      rw [List.getElem?_append_left (hs.waiting_lt future hwaiting)]
      exact hkey
    · exact ⟨⟨List.mem_append_right _ (List.mem_singleton_self _), hs.fresh _ le_rfl⟩,
        List.getElem?_concat_length⟩

lemma pendingAt_release {s : Approvals} {future : ℕ} {resolution : Resolution}
    (hdone : s.result future ≠ none) {key : ApprovalKey} {other : ℕ} :
    (s.release future resolution).PendingAt key other ↔ s.PendingAt key other := by
  constructor
  · rintro ⟨⟨hwaiting, hresult⟩, hkey⟩
    exact ⟨⟨List.mem_of_mem_erase hwaiting, hresult⟩, hkey⟩
  · rintro ⟨⟨hwaiting, hresult⟩, hkey⟩
    have hne : other ≠ future := fun heq => hdone (heq ▸ hresult)
    exact ⟨⟨(List.mem_erase_of_ne hne).mpr hwaiting, hresult⟩, hkey⟩

lemma registered_wait_iff {s : Approvals} (hs : s.WellNumbered) (h : s.AllRegistered)
    (key : ApprovalKey) : (s.wait key).AllRegistered ↔ s.Unopposed (.wait key) := by
  constructor
  · intro hafter future hpending
    have hactive := hafter key future ((pendingAt_wait hs).mpr (.inl hpending))
    simp only [Approvals.wait, Function.update_self, Option.some.injEq] at hactive
    exact absurd hactive (hs.waiting_lt future hpending.1.1).ne'
  · intro hfree other future hpending
    rcases (pendingAt_wait hs).mp hpending with hold | ⟨rfl, rfl⟩
    · have hne : other ≠ key := by
        rintro rfl
        exact hfree future hold
      simp only [Approvals.wait, Function.update_of_ne hne]
      exact h other future hold
    · simp [Approvals.wait]

lemma registered_wake_iff {s : Approvals} (h : s.AllRegistered) (future : ℕ) :
    (s.wake future).AllRegistered ↔ s.Unopposed (.wake future) := by
  unfold wake Unopposed
  cases hresult : s.result future with
  | none =>
      dsimp only
      exact ⟨fun _ _ hne => absurd hresult hne, fun _ => h⟩
  | some resolution =>
      have hdone : s.result future ≠ none := by simp [hresult]
      dsimp only
      split_ifs with hwaiting
      · constructor
        · intro hafter _ _ key hkey other hpending
          have hactive := hafter key other ((pendingAt_release hdone).mpr hpending)
          simp [release, hkey] at hactive
        · intro hfree key other hpending
          have hold := (pendingAt_release hdone).mp hpending
          have hactive := h key other hold
          simp only [release]
          cases hkey : s.keys[future]? with
          | none => exact hactive
          | some key' =>
              have hne : key ≠ key' := by
                rintro rfl
                exact hfree hwaiting hdone key hkey other hold
              dsimp only
              rw [Function.update_of_ne hne]
              exact hactive
      · exact ⟨fun _ hmem => absurd hmem hwaiting, fun _ => h⟩

/-- A step keeps every pending call registered exactly when nothing stands in its way. -/
lemma registered_step_iff {s : Approvals} (hs : s.WellNumbered) (h : s.AllRegistered)
    (a : ApprovalStep) : (s.step a).AllRegistered ↔ s.Unopposed a := by
  cases a with
  | wait key => exact registered_wait_iff hs h key
  | wake future => exact registered_wake_iff h future
  | decide key decision =>
      refine iff_of_true ?_ trivial
      simp only [step, resolve]
      cases s.active key with
      | none => exact h
      | some future =>
          intro other pending hpending
          obtain ⟨hactive, hkeys⟩ := setResult_active s future (.decided decision)
          rw [hactive]
          exact h other pending ⟨pending_setResult hpending.1, hkeys ▸ hpending.2⟩
  | cancel future =>
      refine iff_of_true ?_ trivial
      simp only [step, cancel]
      split_ifs with hwaiting
      · rintro key other ⟨⟨hmem, hresult⟩, hkey⟩
        have hne : other ≠ future := by
          rintro rfl
          simp at hresult
        have hbefore : s.result other = none := by
          rw [← hresult]
          exact (Function.update_of_ne hne _ _).symm
        exact h key other ⟨⟨hmem, hbefore⟩, hkey⟩
      · exact h

/-! ## Decisions -/

lemma releases_decide (s : Approvals) (key : ApprovalKey) (decision : Decision) :
    s.Releases key decision := by
  refine ⟨fun future hactive hresult => ?_, fun other hother => ?_⟩
  · simp [step, resolve, hactive, setResult, hresult]
  · simp only [step, resolve]
    cases hactive : s.active key with
    | none => rfl
    | some future =>
        have hne : other ≠ future := by
          rintro rfl
          exact hother hactive
        simp only [setResult]
        split_ifs
        · exact Function.update_of_ne hne _ _
        · rfl

/-- The decision was made when the call was the registered one and had no result. -/
def DecidedBy (steps : List ApprovalStep) (future : ℕ) (decision : Decision) : Prop :=
  ∃ before key after, steps = before ++ .decide key decision :: after ∧
    (run before).active key = some future ∧ (run before).keys[future]? = some key ∧
    (run before).result future = none

lemma DecidedBy.append {steps : List ApprovalStep} {future : ℕ} {decision : Decision}
    (h : DecidedBy steps future decision) (a : ApprovalStep) :
    DecidedBy (steps ++ [a]) future decision := by
  obtain ⟨before, key, after, rfl, hregistered⟩ := h
  exact ⟨before, key, after ++ [a], by simp, hregistered⟩

lemma result_decided {s : Approvals} {a : ApprovalStep} {future : ℕ} {decision : Decision}
    (h : (s.step a).result future = some (.decided decision)) :
    s.result future = some (.decided decision) ∨
      ∃ key, a = .decide key decision ∧ s.active key = some future ∧ s.result future = none := by
  cases a with
  | wait key => exact .inl h
  | decide key other =>
      simp only [step, resolve] at h
      cases hactive : s.active key with
      | none =>
          rw [hactive] at h
          exact .inl h
      | some registered =>
          simp only [hactive, setResult] at h
          split_ifs at h with hnone
          · by_cases heq : future = registered
            · subst heq
              simp only [Function.update_self, Option.some.injEq, Resolution.decided.injEq] at h
              subst h
              exact .inr ⟨key, rfl, hactive, hnone⟩
            · simp only [Function.update_of_ne heq] at h
              exact .inl h
          · exact .inl h
  | cancel other =>
      simp only [step, cancel] at h
      split_ifs at h
      · by_cases heq : future = other
        · simp [heq] at h
        · simp only [Function.update_of_ne heq] at h
          exact .inl h
      · exact .inl h
  | wake other =>
      simp only [step, wake] at h
      cases hresult : s.result other with
      | none =>
          rw [hresult] at h
          exact .inl h
      | some resolution =>
          simp only [hresult] at h
          split_ifs at h
          · exact .inl h
          · exact .inl h

lemma returned_step {s : Approvals} {a : ApprovalStep} {future : ℕ} {resolution : Resolution}
    (h : (future, resolution) ∈ (s.step a).returned) :
    (future, resolution) ∈ s.returned ∨ s.result future = some resolution := by
  cases a with
  | wait key => exact .inl h
  | decide key decision =>
      simp only [step, resolve, setResult] at h
      cases hactive : s.active key with
      | none =>
          rw [hactive] at h
          exact .inl h
      | some registered =>
          simp only [hactive] at h
          split_ifs at h
          · exact .inl h
          · exact .inl h
  | cancel other =>
      simp only [step, cancel] at h
      split_ifs at h
      · exact .inl h
      · exact .inl h
  | wake other =>
      simp only [step, wake] at h
      cases hresult : s.result other with
      | none =>
          rw [hresult] at h
          exact .inl h
      | some result =>
          simp only [hresult] at h
          split_ifs at h
          · rcases List.mem_append.mp h with hold | hnew
            · exact .inl hold
            · obtain ⟨rfl, rfl⟩ := Prod.mk.inj (List.mem_singleton.mp hnew)
              exact .inr hresult
          · exact .inl h

lemma result_decidedBy {steps : List ApprovalStep} {future : ℕ} {decision : Decision}
    (h : (run steps).result future = some (.decided decision)) :
    DecidedBy steps future decision := by
  induction steps using List.reverseRecOn with
  | nil => cases h
  | append_singleton steps a ih =>
      rw [run_append] at h
      rcases result_decided h with hold | ⟨key, rfl, hactive, hnone⟩
      · exact (ih hold).append a
      · exact ⟨steps, key, [], rfl, hactive,
          (run_wellNumbered steps).registered key future hactive, hnone⟩

/-- A call returns only with the decision that was made about it. -/
lemma returned_decidedBy {steps : List ApprovalStep} {future : ℕ} {decision : Decision}
    (h : (future, .decided decision) ∈ (run steps).returned) :
    DecidedBy steps future decision := by
  induction steps using List.reverseRecOn with
  | nil => cases h
  | append_singleton steps a ih =>
      rw [run_append] at h
      rcases returned_step h with hold | hresult
      · exact (ih hold).append a
      · exact (result_decidedBy hresult).append a

/-! ## The calls that wait -/

lemma forall_registered_iff (steps : List ApprovalStep) :
    (∀ before after, steps = before ++ after → (run before).AllRegistered) ↔
      ∀ before a after, steps = before ++ a :: after → (run before).Unopposed a := by
  constructor
  · rintro h before a after rfl
    have hbefore := h before (a :: after) rfl
    have hafter := h (before ++ [a]) after (by simp)
    rw [run_append] at hafter
    exact (registered_step_iff (run_wellNumbered before) hbefore a).mp hafter
  · rintro h before after rfl
    induction before using List.reverseRecOn generalizing after with
    | nil => exact fun key future hpending => absurd hpending.1.1 (List.not_mem_nil)
    | append_singleton before a ih =>
        have hregistered := ih (a :: after) fun earlier b later heq =>
          h earlier b later (by rw [← heq]; simp)
        rw [run_append]
        exact (registered_step_iff (run_wellNumbered before) hregistered a).mpr
          (h before a after (by simp))

/-- Each decision of a run releases the call that was registered and no other, a call returns only
with a decision made about it, and every call that waits for one is registered. -/
structure ApprovalsReach (steps : List ApprovalStep) : Prop where
  releases : ∀ before key decision after, steps = before ++ .decide key decision :: after →
    (run before).Releases key decision
  returns : ∀ future decision, (future, .decided decision) ∈ (run steps).returned →
    DecidedBy steps future decision
  registered : ∀ before after, steps = before ++ after → (run before).AllRegistered

/-- Two sensitive calls of one response: the second takes the entry of the first, and removes it
when it returns. -/
def twoRequests : List ApprovalStep :=
  [.wait ⟨.core, "s1"⟩, .wait ⟨.core, "s1"⟩, approveSession "s1", .wake 1]

end Approvals

end AgentSystem.Router
