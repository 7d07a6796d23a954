import AgentSystem.UsageSync

/-!
# Usage reported once

The cursor that a run has read may be old when Stripe acknowledges its request, and a run may stop
before it writes its cursor back. Where neither happens, what Stripe has acknowledged for a tenant is
the usage up to its cursor.
-/
namespace AgentSystem.Billing

open Interleaving

/-! ## Requests -/

lemma foldl_max_le {xs : List ℕ} {start bound : ℕ} (hstart : start ≤ bound)
    (h : ∀ x ∈ xs, x ≤ bound) : xs.foldl max start ≤ bound := by
  induction xs generalizing start with
  | nil => exact hstart
  | cons x xs ih =>
      obtain ⟨hx, hxs⟩ := List.forall_mem_cons.mp h
      exact ih (Nat.max_le.mpr ⟨hstart, hx⟩) hxs

lemma le_foldl_max {xs : List ℕ} {start x : ℕ} (h : x = start ∨ x ∈ xs) :
    x ≤ xs.foldl max start := by
  induction xs generalizing start x with
  | nil => simpa using (h.resolve_right List.not_mem_nil).le
  | cons y xs ih =>
      rcases h with rfl | hmem
      · exact (Nat.le_max_left x y).trans (ih (.inl rfl))
      · rcases List.mem_cons.mp hmem with rfl | hmem
        · exact (Nat.le_max_right start x).trans (ih (.inl rfl))
        · exact ih (.inr hmem)

/-- The quantity of a request is the usage between its two ids. -/
structure Accounts (store : UsageStore) (request : UsageRequest) : Prop where
  advances : request.lastId < request.maxId
  known : request.maxId < store.nextId
  quantity : request.quantity =
    usage store.ledger request.tenantId request.lastId request.maxId

/-- The request that a run is waiting for or has to write back. -/
def SyncPhase.request : SyncPhase → Option UsageRequest
  | .posting _ _ request => some request
  | .acknowledged _ _ request => some request
  | _ => none

/-- The request that Stripe has acknowledged and the run has not written back. -/
def SyncPhase.owed : SyncPhase → Option UsageRequest
  | .acknowledged _ _ request => some request
  | _ => none

variable {settings : StripeSettings} {store : UsageStore} {state : SyncTable} {tenantId : String}
  {todo : List String} {request : UsageRequest}

lemma pay_owed : (settings.pay store.ledger state tenantId todo).owed = none := by
  rw [StripeSettings.pay]
  split_ifs <;> rfl

lemma pay_accounts (hids : ∀ row ∈ store.ledger, row.id < store.nextId)
    (h : (settings.pay store.ledger state tenantId todo).request = some request) :
    Accounts store request := by
  rw [StripeSettings.pay] at h
  split_ifs at h with hsends
  · cases h
    generalize state.lastId tenantId = lastId at hsends ⊢
    have hmem : ∀ row ∈ unsyncedRows store.ledger tenantId lastId,
        row ∈ store.ledger ∧ row.tenantId = tenantId ∧ lastId < row.id := by
      intro row hrow
      simpa [unsyncedRows] using hrow
    have hmax : ∀ row ∈ unsyncedRows store.ledger tenantId lastId,
        row.id ≤ ((unsyncedRows store.ledger tenantId lastId).map UsageRow.id).foldl max 0 :=
      fun row hrow => le_foldl_max (.inr (List.mem_map_of_mem hrow))
    obtain ⟨first, hfirst⟩ := List.exists_mem_of_ne_nil _ hsends.1
    obtain ⟨hledger, -, hbehind⟩ := hmem first hfirst
    refine ⟨hbehind.trans_le (hmax first hfirst), ?_, ?_⟩
    · have hpos := hids first hledger
      refine Nat.lt_of_le_pred (by omega) (foldl_max_le (Nat.zero_le _) fun id hid => ?_)
      obtain ⟨row, hrow, rfl⟩ := List.mem_map.mp hid
      exact Nat.le_pred_of_lt (hids row (hmem row hrow).1)
    · simp only [usage, unsyncedRows]
      congr 2
      refine List.filter_congr fun row hrow => ?_
      have hle := hmax row
      simp only [unsyncedRows, List.mem_filter, hrow, true_and, decide_eq_true_eq] at hle
      grind
  · cases h

lemma Accounts.insert (h : Accounts store request) (tenantId : String) (totalTokens : ℤ) :
    Accounts (store.insert tenantId totalTokens) request where
  advances := h.advances
  known := h.known.trans (Nat.lt_succ_self _)
  quantity := by
    rw [h.quantity, UsageStore.insert, usage_append]
    exact h.known

/-! ## The condition -/

/-- A run does not stop between an acknowledgement and its write, and no acknowledgement gets lost; one
comes only while the cursor is the one that the run has read, and while no other run owes a write
for the tenant. -/
structure Punctual {ι : Type} (s : World ι UsageStore SyncPhase) (i : ι) (input : SyncInput) :
    Prop where
  writes : input = .stop → (s.proc i).owed = none
  arrives : input ≠ .lose
  current : ∀ status request, input = .respond status → status = 200 ∨ status = 201 →
    (s.proc i).request = some request → s.store.synced.lastId request.tenantId = request.lastId
  alone : ∀ status request j other, input = .respond status → status = 200 ∨ status = 201 →
    (s.proc i).request = some request → (s.proc j).owed = some other →
    other.tenantId ≠ request.tenantId

/-! ## The invariant -/

/-- What Stripe has acknowledged is the usage up to the cursor, and what a run owes. -/
structure Balanced {ι : Type} (s : World ι UsageStore SyncPhase) : Prop where
  ids : ∀ row ∈ s.store.ledger, row.id < s.store.nextId
  cursors : ∀ tenantId, s.store.synced.lastId tenantId < s.store.nextId
  requests : ∀ i request, (s.proc i).request = some request → Accounts s.store request
  current : ∀ i request, (s.proc i).owed = some request →
    s.store.synced.lastId request.tenantId = request.lastId
  apart : ∀ i j request other, (s.proc i).owed = some request → (s.proc j).owed = some other →
    request.tenantId = other.tenantId → i = j
  settled : ∀ tenantId, (∀ i request, (s.proc i).owed = some request → request.tenantId ≠ tenantId) →
    s.store.acknowledgedFor tenantId =
      usageUpTo s.store.ledger tenantId (s.store.synced.lastId tenantId)
  owing : ∀ i request, (s.proc i).owed = some request →
    s.store.acknowledgedFor request.tenantId =
      usageUpTo s.store.ledger request.tenantId request.maxId

variable {ι : Type} [DecidableEq ι] {s s' : World ι UsageStore SyncPhase} {i : ι}
  {input : SyncInput} {p : SyncPhase}

lemma request_of_owed (h : p.owed = some request) : p.request = some request := by
  cases p with
  | acknowledged state todo other => exact h
  | _ => cases h

@[simp] lemma acknowledgedFor_acknowledge (store : UsageStore) (request : UsageRequest)
    (tenantId : String) :
    (store.acknowledge request).acknowledgedFor tenantId =
      store.acknowledgedFor tenantId +
        if request.tenantId = tenantId then request.quantity else 0 := by
  rw [UsageStore.acknowledgedFor, UsageStore.acknowledgedFor, UsageStore.acknowledge,
    List.filter_append, List.map_append, List.sum_append]
  split_ifs with htenant
  · simp [htenant]
  · simp [htenant]

/-- A step that leaves the store alone and owes as much as before. -/
lemma Balanced.moved (h : Balanced s) (howed : p.owed = (s.proc i).owed)
    (hrequest : ∀ request, p.request = some request → Accounts s.store request) :
    Balanced ⟨s.store, Function.update s.proc i p⟩ := by
  have howed' : ∀ j, (Function.update s.proc i p j).owed = (s.proc j).owed := fun j => by
    by_cases hj : j = i
    · rw [hj, Function.update_self, howed]
    · rw [Function.update_of_ne hj]
  constructor
  · exact h.ids
  · exact h.cursors
  · intro j request hj
    by_cases heq : j = i
    · simp only [heq, Function.update_self] at hj
      exact hrequest request hj
    · simp only [Function.update_of_ne heq] at hj
      exact h.requests j request hj
  · simpa only [howed'] using h.current
  · simpa only [howed'] using h.apart
  · simpa only [howed'] using h.settled
  · simpa only [howed'] using h.owing

/-- A new row of the ledger has an id that no cursor and no request has reached. -/
lemma Balanced.insert (h : Balanced s) (hidle : s.proc i = .idle) (tenantId : String)
    (totalTokens : ℤ) :
    Balanced ⟨s.store.insert tenantId totalTokens, Function.update s.proc i .idle⟩ := by
  rw [← hidle, Function.update_eq_self]
  constructor
  · intro row hrow
    rcases List.mem_append.mp hrow with hold | hnew
    · exact (h.ids row hold).trans (Nat.lt_succ_self _)
    · rw [List.mem_singleton.mp hnew]
      exact Nat.lt_succ_self _
  · exact fun tenant => (h.cursors tenant).trans (Nat.lt_succ_self _)
  · exact fun j request hj => (h.requests j request hj).insert tenantId totalTokens
  · exact h.current
  · exact h.apart
  · intro tenant htenant
    refine (h.settled tenant htenant).trans (usageUpTo_append ?_).symm
    exact h.cursors tenant
  · intro j request hj
    refine (h.owing j request hj).trans (usageUpTo_append ?_).symm
    exact (h.requests j request (request_of_owed hj)).known

/-- An acknowledgement of what the run has counted behind the current cursor. -/
lemma Balanced.acknowledge (h : Balanced s) (hproc : s.proc i = .posting state todo request)
    (hcurrent : s.store.synced.lastId request.tenantId = request.lastId)
    (halone : ∀ j other, (s.proc j).owed = some other → other.tenantId ≠ request.tenantId) :
    Balanced ⟨s.store.acknowledge request,
      Function.update s.proc i (.acknowledged state todo request)⟩ := by
  have haccounts : Accounts s.store request := h.requests i request (by rw [hproc]; rfl)
  have hself : (Function.update s.proc i (.acknowledged state todo request) i).owed =
      some request := by
    rw [Function.update_self]
    rfl
  have howed : ∀ j other, (Function.update s.proc i (.acknowledged state todo request) j).owed =
      some other → j = i ∧ other = request ∨ j ≠ i ∧ (s.proc j).owed = some other := by
    intro j other hj
    by_cases heq : j = i
    · rw [heq, hself] at hj
      exact .inl ⟨heq, (Option.some.inj hj).symm⟩
    · rw [Function.update_of_ne heq] at hj
      exact .inr ⟨heq, hj⟩
  constructor
  · exact h.ids
  · exact h.cursors
  · intro j other hj
    by_cases heq : j = i
    · simp only [heq, Function.update_self] at hj
      cases hj
      exact ⟨haccounts.advances, haccounts.known, haccounts.quantity⟩
    · simp only [Function.update_of_ne heq] at hj
      have := h.requests j other hj
      exact ⟨this.advances, this.known, this.quantity⟩
  · intro j other hj
    rcases howed j other hj with ⟨-, rfl⟩ | ⟨-, hold⟩
    · exact hcurrent
    · exact h.current j other hold
  · intro j k other third hj hk hsame
    rcases howed j other hj with ⟨rfl, rfl⟩ | ⟨-, hold⟩
    · rcases howed k third hk with ⟨rfl, -⟩ | ⟨-, hold⟩
      · rfl
      · exact absurd hsame.symm (halone k third hold)
    · rcases howed k third hk with ⟨rfl, rfl⟩ | ⟨-, hthird⟩
      · exact absurd hsame (halone j other hold)
      · exact h.apart j k other third hold hthird hsame
  · intro tenant htenant
    have hne : request.tenantId ≠ tenant := htenant i request hself
    simp only [acknowledgedFor_acknowledge, if_neg hne, add_zero]
    refine h.settled tenant fun j other hj => ?_
    by_cases heq : j = i
    · rw [heq, hproc] at hj
      cases hj
    · exact htenant j other (by simpa only [Function.update_of_ne heq] using hj)
  · intro j other hj
    rcases howed j other hj with ⟨-, rfl⟩ | ⟨-, hold⟩
    · simp only [acknowledgedFor_acknowledge, if_true]
      rw [h.settled other.tenantId halone, hcurrent, haccounts.quantity]
      exact usageUpTo_add_usage haccounts.advances.le
    · have hne : request.tenantId ≠ other.tenantId := (halone j other hold).symm
      simp only [acknowledgedFor_acknowledge, if_neg hne, add_zero]
      exact h.owing j other hold

/-- The cursor is written back. -/
lemma Balanced.writeBack (h : Balanced s) (hproc : s.proc i = .acknowledged state todo request) :
    Balanced ⟨s.store.writeBack request, Function.update s.proc i (.paying state todo)⟩ := by
  have howner : (s.proc i).owed = some request := by rw [hproc]; rfl
  have haccounts : Accounts s.store request := h.requests i request (request_of_owed howner)
  have howed : ∀ j other, (Function.update s.proc i (.paying state todo) j).owed = some other →
      (s.proc j).owed = some other ∧ other.tenantId ≠ request.tenantId := by
    intro j other hj
    by_cases heq : j = i
    · rw [heq, Function.update_self] at hj
      cases hj
    · rw [Function.update_of_ne heq] at hj
      exact ⟨hj, fun hsame => heq (h.apart j i other request hj howner hsame)⟩
  have hlast : ∀ tenant, (s.store.writeBack request).synced.lastId tenant =
      if tenant = request.tenantId then request.maxId else s.store.synced.lastId tenant :=
    SyncTable.lastId_put s.store.synced request.tenantId request.maxId
  constructor
  · exact h.ids
  · intro tenant
    simp only [hlast]
    split_ifs
    · exact haccounts.known
    · exact h.cursors tenant
  · intro j other hj
    by_cases heq : j = i
    · simp only [heq, Function.update_self] at hj
      cases hj
    · simp only [Function.update_of_ne heq] at hj
      have := h.requests j other hj
      exact ⟨this.advances, this.known, this.quantity⟩
  · intro j other hj
    obtain ⟨hold, hne⟩ := howed j other hj
    simp only [hlast, if_neg hne]
    exact h.current j other hold
  · intro j k other third hj hk hsame
    exact h.apart j k other third (howed j other hj).1 (howed k third hk).1 hsame
  · intro tenant htenant
    simp only [hlast]
    split_ifs with heq
    · rw [heq]
      exact h.owing i request howner
    · refine h.settled tenant fun j other hj => ?_
      by_cases hji : j = i
      · rw [hji, howner] at hj
        cases hj
        exact Ne.symm heq
      · exact htenant j other (by simpa only [Function.update_of_ne hji] using hj)
  · intro j other hj
    exact h.owing j other (howed j other hj).1

/-- What a punctual step does to the invariant and to the cursors. -/
lemma Balanced.step (h : Balanced s) (hpunctual : Punctual s i input)
    (hstep : s.step settings.next i input = some s') :
    Balanced s' ∧ ∀ tenantId, s.store.synced.lastId tenantId ≤ s'.store.synced.lastId tenantId := by
  obtain ⟨store, p, hnext, rfl⟩ := step_eq_some hstep
  rw [StripeSettings.next.eq_def] at hnext
  split at hnext
  · rename_i tenantId totalTokens hidle
    cases hnext
    exact ⟨h.insert hidle tenantId totalTokens, fun _ => le_rfl⟩
  · rename_i hidle
    cases hnext
    exact ⟨h.moved (by rw [hidle]; rfl) (by simp [SyncPhase.request]), fun _ => le_rfl⟩
  · rename_i state hproc
    cases hnext
    exact ⟨h.moved (by rw [hproc]; rfl) (by simp [SyncPhase.request]), fun _ => le_rfl⟩
  · rename_i state hproc
    cases hnext
    exact ⟨h.moved (by rw [hproc]; rfl) (by simp [SyncPhase.request]), fun _ => le_rfl⟩
  · rename_i state tenantId todo hproc
    cases hnext
    refine ⟨h.moved ?_ fun request hrequest => pay_accounts h.ids hrequest, fun _ => le_rfl⟩
    rw [hproc, pay_owed]
    rfl
  · rename_i status state todo request hproc
    split_ifs at hnext with hstatus
    · cases hnext
      have hrequest : (s.proc i).request = some request := by rw [hproc]; rfl
      exact ⟨h.acknowledge hproc (hpunctual.current status request rfl hstatus hrequest)
        fun j other => hpunctual.alone status request j other rfl hstatus hrequest, fun _ => le_rfl⟩
    · cases hnext
      exact ⟨h.moved (by rw [hproc]; rfl) (by simp [SyncPhase.request]), fun _ => le_rfl⟩
  · rename_i state todo request hproc
    cases hnext
    exact ⟨h.moved (by rw [hproc]; rfl) (by simp [SyncPhase.request]), fun _ => le_rfl⟩
  · exact absurd rfl hpunctual.arrives
  · rename_i state todo request hproc
    cases hnext
    refine ⟨h.writeBack hproc, fun tenantId => ?_⟩
    have howner : (s.proc i).owed = some request := by rw [hproc]; rfl
    have hcurrent := h.current i request howner
    have hadvances := (h.requests i request (request_of_owed howner)).advances
    simp only [UsageStore.writeBack, SyncTable.lastId_put]
    split_ifs with heq
    · rw [heq, hcurrent]
      exact hadvances.le
    · exact le_rfl
  · cases hnext
    exact ⟨h.moved (hpunctual.writes rfl).symm (by simp [SyncPhase.request]), fun _ => le_rfl⟩
  · cases hnext

/-- No row, no cursor and no run yet. -/
def noUsage : World ι UsageStore SyncPhase where
  store := { ledger := [], nextId := 1, synced := [], acknowledged := [] }
  proc _ := .idle

omit [DecidableEq ι] in
lemma balanced_noUsage : Balanced (noUsage : World ι UsageStore SyncPhase) := by
  constructor <;> simp [noUsage, SyncTable.lastId, SyncPhase.owed, SyncPhase.request,
    UsageStore.acknowledgedFor, usageUpTo]

/-- In runs of punctual steps what Stripe has acknowledged for a tenant, for which no run has to write
its cursor, is the usage up to the cursor, and the cursor never goes back. -/
theorem usage_reported_once (settings : StripeSettings) {actions : List (ι × SyncInput)}
    (hrun : (noUsage : World ι UsageStore SyncPhase).run settings.next actions = some s)
    (hpunctual : noUsage.Throughout settings.next Punctual actions) :
    (∀ tenantId, (∀ i request, (s.proc i).owed = some request → request.tenantId ≠ tenantId) →
      s.store.acknowledgedFor tenantId =
        usageUpTo s.store.ledger tenantId (s.store.synced.lastId tenantId)) ∧
    ∀ i input s', Punctual s i input → s.step settings.next i input = some s' →
      ∀ tenantId, s.store.synced.lastId tenantId ≤ s'.store.synced.lastId tenantId := by
  have hbalanced : Balanced s :=
    run_induction (fun s i input s' h hpunctual hstep => (h.step hpunctual hstep).1)
      balanced_noUsage hrun hpunctual
  exact ⟨hbalanced.settled, fun i input s' hinput hstep => (hbalanced.step hinput hstep).2⟩

/-! ## One row of the ledger -/

/-- A live key, and a subscription item of `tenant_a`. -/
def liveSettings : StripeSettings where
  apiKey := some "sk_live_1"
  items := [("tenant_a", some "si_tenant_a")]
  lower := id

/-- Two runs read the cursor before Stripe has acknowledged the request of one of them. -/
def overlappingRuns : List (Bool × SyncInput) :=
  [(false, .insert "tenant_a" 300), (false, .advance), (false, .advance), (false, .advance),
    (true, .advance), (true, .advance), (true, .advance), (false, .respond 200), (false, .advance),
    (true, .respond 200), (true, .advance)]

/-- Stripe has acknowledged the one row twice. -/
theorem usage_reported_twice : ∃ s : World Bool UsageStore SyncPhase,
    noUsage.run liveSettings.next overlappingRuns = some s ∧ (∀ i, (s.proc i).owed = none) ∧
      s.store.acknowledgedFor "tenant_a" = 600 ∧
      usageUpTo s.store.ledger "tenant_a" (s.store.synced.lastId "tenant_a") = 300 := by
  have hend : ((noUsage : World Bool UsageStore SyncPhase).run liveSettings.next
      overlappingRuns).map (fun s => (s.store, (s.proc false).owed, (s.proc true).owed)) =
        some ({ ledger := [⟨1, "tenant_a", 300⟩]
                nextId := 2
                synced := [("tenant_a", 1)]
                acknowledged := [("tenant_a", 300), ("tenant_a", 300)] }, none, none) := by
    decide +kernel
  obtain ⟨s, hrun, hs⟩ := Option.map_eq_some_iff.mp hend
  simp only [Prod.mk.injEq] at hs
  obtain ⟨hstore, hfalse, htrue⟩ := hs
  refine ⟨s, hrun, fun i => ?_, ?_, ?_⟩
  · cases i with
    | false => exact hfalse
    | true => exact htrue
  · rw [hstore]
    decide
  · rw [hstore]
    decide

def firstRun : List (Unit × SyncInput) :=
  [((), .insert "tenant_a" 300), ((), .advance), ((), .advance), ((), .advance)]

/-- A run that Stripe answers and nobody disturbs. -/
theorem usage_reported : ∃ s : World Unit UsageStore SyncPhase,
    noUsage.run liveSettings.next (firstRun ++ [((), .respond 200), ((), .advance)]) = some s ∧
      s.store.acknowledgedFor "tenant_a" =
        usageUpTo s.store.ledger "tenant_a" (s.store.synced.lastId "tenant_a") := by
  have hend : ((noUsage : World Unit UsageStore SyncPhase).run liveSettings.next
      (firstRun ++ [((), .respond 200), ((), .advance)])).map (fun s => (s.proc ()).owed) =
        some none := by
    decide +kernel
  obtain ⟨s, hrun, hs⟩ := Option.map_eq_some_iff.mp hend
  refine ⟨s, hrun, (usage_reported_once liveSettings hrun ?_).1 "tenant_a" fun i request hi => ?_⟩
  · rw [throughout_append]
    constructor
    · refine throughout_of_forall fun action haction s => ?_
      simp only [firstRun, List.mem_cons, List.not_mem_nil, or_false] at haction
      rcases haction with rfl | rfl | rfl | rfl <;> constructor <;> simp
    · intro middle hmiddle
      have hbefore : ((noUsage : World Unit UsageStore SyncPhase).run liveSettings.next
          firstRun).map (fun s => (s.proc (), s.store.synced)) =
            some (.posting [] [] ⟨"tenant_a", 0, 300, 1⟩, []) := by
        decide +kernel
      rw [hmiddle] at hbefore
      obtain ⟨hproc, hsynced⟩ := Prod.mk.inj (Option.some.inj hbefore)
      refine ⟨⟨by simp, by simp, ?_, ?_⟩, fun last _ => ⟨by constructor <;> simp, fun _ _ => trivial⟩⟩
      · intro status request _ _ hrequest
        simp only [hproc, SyncPhase.request, Option.some.injEq] at hrequest
        rw [hsynced, ← hrequest]
        rfl
      · intro status request j other _ _ _ howed
        simp [hproc, SyncPhase.owed] at howed
  · rw [hs] at hi
    cases hi

end AgentSystem.Billing
