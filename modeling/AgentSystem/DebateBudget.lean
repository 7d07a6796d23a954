import AgentSystem.AsyncSemaphore
import AgentSystem.Interleaving

/-!
# The budget of a debate

`DebateExecutionBudget` as far as its provider attempts go: coroutines enter and leave the contexts
of `provider_attempt` in any order, wait for the semaphore, are cancelled while they wait and find
the budget exhausted.
-/
namespace AgentSystem.DebateBudget

open Interleaving AsyncSemaphore

/-- The limits, with what `__post_init__` checks. -/
structure Limits where
  maxProviderCalls : ℕ := 64
  maxConcurrentProviderCalls : ℕ := 3
  calls_pos : 1 ≤ maxProviderCalls := by decide
  concurrent_pos : 1 ≤ maxConcurrentProviderCalls := by decide

structure Budget where
  providerCalls : ℕ := 0
  currentConcurrentProviderCalls : ℕ := 0
  peakConcurrentProviderCalls : ℕ := 0
  exhaustionReason : Option String := none
  semaphore : Semaphore

/-- Where a coroutine is: outside, in the semaphore's queue, with a permit but before its
bookkeeping, or inside the context. -/
inductive Attempt
  | outside
  | waiting (ticket : ℕ) (mustCancel : Bool)
  | acquired
  | inside
  deriving DecidableEq

/-- How the body of a context ends; `__aexit__` runs for all of them. -/
inductive Ending
  | returned
  | raised
  | cancelled

inductive Input
  | enter
  | cancel
  | resume
  | book
  | exit (ending : Ending)

namespace Budget

variable (limits : Limits) (b : Budget)

/-- The rest of `_acquire_provider` with a permit, and whether it returns. -/
def acquireProvider : Budget × Bool :=
  if limits.maxProviderCalls ≤ b.providerCalls then
    ({ b with exhaustionReason := some "provider_calls", semaphore := b.semaphore.release }, false)
  else
    ({ b with
      providerCalls := b.providerCalls + 1
      currentConcurrentProviderCalls := b.currentConcurrentProviderCalls + 1
      peakConcurrentProviderCalls :=
        max b.peakConcurrentProviderCalls (b.currentConcurrentProviderCalls + 1) }, true)

def releaseProvider : Budget :=
  { b with
    currentConcurrentProviderCalls := b.currentConcurrentProviderCalls - 1
    semaphore := b.semaphore.release }

end Budget

variable (limits : Limits)

def next : Program Input Budget Attempt
  | .enter, b, .outside =>
      let (semaphore, ticket) := b.semaphore.acquire
      some ({ b with semaphore := semaphore },
        match ticket with
        | none => .acquired
        | some ticket => .waiting ticket false)
  | .cancel, b, .waiting ticket mustCancel =>
      if b.semaphore.future ticket = some .pending then
        some ({ b with semaphore := b.semaphore.cancel ticket }, .waiting ticket mustCancel)
      else some (b, .waiting ticket true)
  | .resume, b, .waiting ticket mustCancel =>
      (b.semaphore.resume ticket mustCancel).map fun (semaphore, acquired) =>
        ({ b with semaphore := semaphore }, if acquired then .acquired else .outside)
  | .book, b, .acquired =>
      let (b, booked) := b.acquireProvider limits
      some (b, if booked then .inside else .outside)
  | .exit _, b, .inside => some (b.releaseProvider, .outside)
  | _, _, _ => none

lemma next_enter (b : Budget) : next limits .enter b .outside =
    some ({ b with semaphore := b.semaphore.acquire.1 },
      match b.semaphore.acquire.2 with
      | none => .acquired
      | some ticket => .waiting ticket false) := rfl

lemma next_cancel (b : Budget) (ticket : ℕ) (mustCancel : Bool) :
    next limits .cancel b (.waiting ticket mustCancel) =
      if b.semaphore.future ticket = some .pending then
        some ({ b with semaphore := b.semaphore.cancel ticket }, .waiting ticket mustCancel)
      else some (b, .waiting ticket true) := rfl

lemma next_book (b : Budget) : next limits .book b .acquired =
    let (b, booked) := b.acquireProvider limits
    some (b, if booked then .inside else .outside) := rfl

/-- A new budget, and coroutines that have not entered yet. -/
def start (ι : Type) : World ι Budget Attempt where
  store := { semaphore := { value := limits.maxConcurrentProviderCalls } }
  proc _ := .outside

section Runs

variable {ι : Type} (s : World ι Budget Attempt)

/-- The attempts inside their contexts. -/
def insiders : Set ι := those s (· = .inside)

/-- The coroutine has a permit and not yet done its bookkeeping: `acquire` has returned, or will
return because its future was granted. -/
def Between (i : ι) : Prop :=
  s.proc i = .acquired ∨ ∃ ticket mustCancel, s.proc i = .waiting ticket mustCancel ∧
    s.store.semaphore.future ticket = some .granted

/-- What holds after every run. -/
structure Inv (limits : Limits) (s : World ι Budget Attempt) : Prop where
  calls : s.store.providerCalls ≤ limits.maxProviderCalls
  inside : (insiders s).encard = s.store.currentConcurrentProviderCalls
  permits : ∃ n : ℕ, (those s (· = .acquired)).encard = n ∧ s.store.semaphore.permits + n +
    s.store.currentConcurrentProviderCalls = limits.maxConcurrentProviderCalls
  fresh : s.store.semaphore.Fresh
  owned : ∀ ticket ∈ s.store.semaphore.tickets, ∃ i mustCancel, s.proc i = .waiting ticket mustCancel
  peak : s.store.peakConcurrentProviderCalls ≤ limits.maxConcurrentProviderCalls

variable [DecidableEq ι] {limits s}

omit [DecidableEq ι] in
lemma inv_start : Inv limits (start limits ι) where
  calls := Nat.zero_le _
  inside := by simp [insiders, those, start]
  permits := ⟨0, by simp [those, start], by simp [start, Semaphore.permits, Semaphore.granted]⟩
  fresh := ⟨by simp [start, Semaphore.tickets], by simp [start, Semaphore.tickets]⟩
  owned := by simp [start, Semaphore.tickets]
  peak := Nat.zero_le _

variable {i : ι} {b : Budget} {p : Attempt}

/-- A future in the queue has its coroutine, where the one that takes the step keeps its own. -/
lemma owned_step (h : Inv limits s)
    (htickets : ∀ ticket ∈ b.semaphore.tickets, (∃ mustCancel, p = .waiting ticket mustCancel) ∨
      ticket ∈ s.store.semaphore.tickets ∧ ∀ mustCancel, s.proc i ≠ .waiting ticket mustCancel)
    (ticket : ℕ) (hticket : ticket ∈ b.semaphore.tickets) :
    ∃ j mustCancel, (World.mk b (Function.update s.proc i p)).proc j =
      .waiting ticket mustCancel := by
  rcases htickets ticket hticket with ⟨mustCancel, rfl⟩ | ⟨hold, hother⟩
  · exact ⟨i, mustCancel, proc_self⟩
  · obtain ⟨j, mustCancel, hj⟩ := h.owned ticket hold
    have hne : j ≠ i := by
      rintro rfl
      exact hother mustCancel hj
    exact ⟨j, mustCancel, by rw [proc_of_ne hne, hj]⟩

/-- Entering, at once or with a future to wait for. -/
lemma inv_enter (h : Inv limits s) (hproc : s.proc i = .outside)
    (hnext : next limits .enter s.store (s.proc i) = some (b, p)) :
    Inv limits ⟨b, Function.update s.proc i p⟩ := by
  obtain ⟨n, hacquired, hpermits⟩ := h.permits
  have hcount := Semaphore.permits_acquire (s := s.store.semaphore)
  rw [hproc] at hnext
  cases hacquire : s.store.semaphore.acquire.2 with
  | none =>
      simp only [next_enter, hacquire, Option.some.injEq, Prod.mk.injEq] at hnext
      obtain ⟨rfl, rfl⟩ := hnext
      rw [if_pos hacquire] at hcount
      refine ⟨h.calls, ?_, ⟨n + 1, ?_, ?_⟩, Semaphore.fresh_acquire h.fresh, ?_, h.peak⟩
      · rw [insiders, those_same (by simp [hproc])]
        exact h.inside
      · exact those_join rfl (by simp [hproc]) hacquired
      · dsimp only
        omega
      · refine owned_step h fun ticket hticket => .inr ⟨?_, by simp [hproc]⟩
        refine (Semaphore.tickets_acquire hticket).resolve_right ?_
        simp [hacquire]
  | some own =>
      simp only [next_enter, hacquire, Option.some.injEq, Prod.mk.injEq] at hnext
      obtain ⟨rfl, rfl⟩ := hnext
      rw [if_neg (by simp [hacquire])] at hcount
      refine ⟨h.calls, ?_, ⟨n, ?_, ?_⟩, Semaphore.fresh_acquire h.fresh, ?_, h.peak⟩
      · rw [insiders, those_same (by simp [hproc])]
        exact h.inside
      · rw [those_same (by simp [hproc])]
        exact hacquired
      · dsimp only
        omega
      · refine owned_step h fun ticket hticket => ?_
        rcases Semaphore.tickets_acquire hticket with hold | hown
        · exact .inr ⟨hold, by simp [hproc]⟩
        · rw [hacquire, Option.some.injEq] at hown
          exact .inl ⟨false, by rw [hown]⟩

/-- A cancelled coroutine that waits. -/
lemma inv_cancel (h : Inv limits s) {own : ℕ} {mustCancel : Bool}
    (hproc : s.proc i = .waiting own mustCancel)
    (hnext : next limits .cancel s.store (s.proc i) = some (b, p)) :
    Inv limits ⟨b, Function.update s.proc i p⟩ := by
  obtain ⟨n, hacquired, hpermits⟩ := h.permits
  have howned {semaphore : Semaphore} {mustCancel' : Bool}
      (htickets : semaphore.tickets = s.store.semaphore.tickets) (ticket : ℕ)
      (hticket : ticket ∈ semaphore.tickets) :
      (∃ mustCancel, Attempt.waiting own mustCancel' = .waiting ticket mustCancel) ∨
        ticket ∈ s.store.semaphore.tickets ∧ ∀ mustCancel, s.proc i ≠ .waiting ticket mustCancel := by
    by_cases hown : own = ticket
    · exact .inl ⟨mustCancel', by rw [hown]⟩
    · exact .inr ⟨htickets ▸ hticket, by simp [hproc, hown]⟩
  rw [hproc, next_cancel] at hnext
  split_ifs at hnext
  · cases hnext
    refine ⟨h.calls, ?_, ⟨n, ?_, ?_⟩, ?_, ?_, h.peak⟩
    · rw [insiders, those_same (by simp [hproc])]
      exact h.inside
    · rw [those_same (by simp [hproc])]
      exact hacquired
    · dsimp only
      rw [Semaphore.permits_cancel]
      exact hpermits
    · exact Semaphore.fresh_of_tickets h.fresh (by simp) rfl
    · exact owned_step h (howned Semaphore.tickets_cancel)
  · cases hnext
    refine ⟨h.calls, ?_, ⟨n, ?_, hpermits⟩, h.fresh, owned_step h (howned rfl), h.peak⟩
    · rw [insiders, those_same (by simp [hproc])]
      exact h.inside
    · rw [those_same (by simp [hproc])]
      exact hacquired

/-- A coroutine whose future is done. -/
lemma inv_resume (h : Inv limits s) {own : ℕ} {mustCancel : Bool}
    (hproc : s.proc i = .waiting own mustCancel)
    (hnext : next limits .resume s.store (s.proc i) = some (b, p)) :
    Inv limits ⟨b, Function.update s.proc i p⟩ := by
  obtain ⟨n, hacquired, hpermits⟩ := h.permits
  rw [hproc] at hnext
  obtain ⟨⟨after, acquired⟩, hresume, heq⟩ := Option.map_eq_some_iff.mp hnext
  have hcount := Semaphore.permits_resume hresume
  obtain ⟨htickets, hmade⟩ := Semaphore.tickets_resume hresume
  obtain ⟨rfl, rfl⟩ := Prod.mk.inj heq
  have hfresh : after.Fresh :=
    Semaphore.fresh_of_tickets h.fresh (htickets ▸ List.erase_sublist) hmade
  have howned (ticket : ℕ) (hticket : ticket ∈ after.tickets) :
      ticket ∈ s.store.semaphore.tickets ∧ ∀ mustCancel, s.proc i ≠ .waiting ticket mustCancel := by
    rw [htickets, h.fresh.nodup.mem_erase_iff] at hticket
    exact ⟨hticket.2, by simp [hproc, Ne.symm hticket.1]⟩
  have hinside (p : Attempt) (hp : p ≠ .inside) :
      (insiders ⟨{ s.store with semaphore := after }, Function.update s.proc i p⟩).encard =
        s.store.currentConcurrentProviderCalls := by
    rw [insiders, those_same (by simp [hproc, hp])]
    exact h.inside
  cases acquired with
  | true =>
      rw [if_pos rfl] at hcount
      refine ⟨h.calls, hinside _ (by simp), ⟨n + 1, ?_, ?_⟩, hfresh,
        owned_step h fun ticket hticket => .inr (howned ticket hticket), h.peak⟩
      · exact those_join rfl (by simp [hproc]) hacquired
      · dsimp only
        omega
  | false =>
      rw [if_neg (by simp)] at hcount
      refine ⟨h.calls, hinside _ (by simp), ⟨n, ?_, ?_⟩, hfresh,
        owned_step h fun ticket hticket => .inr (howned ticket hticket), h.peak⟩
      · rw [those_same (by simp [hproc])]
        exact hacquired
      · dsimp only
        omega

/-- The bookkeeping, or the way back out of a budget that is exhausted. -/
lemma inv_book (h : Inv limits s) (hproc : s.proc i = .acquired)
    (hnext : next limits .book s.store (s.proc i) = some (b, p)) :
    Inv limits ⟨b, Function.update s.proc i p⟩ := by
  obtain ⟨n, hacquired, hpermits⟩ := h.permits
  obtain ⟨m, rfl⟩ : ∃ m, n = m + 1 :=
    Nat.exists_eq_succ_of_ne_zero (those_pos (i := i) hproc hacquired).ne'
  have hwaiting (ticket : ℕ) (mustCancel : Bool) : s.proc i ≠ .waiting ticket mustCancel := by
    simp [hproc]
  rw [hproc, next_book, Budget.acquireProvider] at hnext
  split_ifs at hnext with hexhausted
  · cases hnext
    refine ⟨h.calls, ?_, ⟨m, ?_, ?_⟩, Semaphore.fresh_release h.fresh, ?_, h.peak⟩
    · rw [insiders, those_same (by simp [hproc])]
      exact h.inside
    · exact those_leave (by simp) hproc hacquired
    · dsimp only
      rw [Semaphore.permits_release]
      omega
    · refine owned_step h fun ticket hticket => .inr ⟨?_, hwaiting ticket⟩
      rwa [← Semaphore.tickets_release]
  · cases hnext
    have hbound : s.store.currentConcurrentProviderCalls + 1 ≤
        limits.maxConcurrentProviderCalls := by omega
    refine ⟨?_, ?_, ⟨m, ?_, ?_⟩, h.fresh, ?_, ?_⟩
    · dsimp only
      omega
    · exact those_join rfl (by simp [hproc]) h.inside
    · exact those_leave (by simp) hproc hacquired
    · dsimp only
      omega
    · exact owned_step h fun ticket hticket => .inr ⟨hticket, hwaiting ticket⟩
    · exact max_le h.peak hbound

/-- Leaving the context. -/
lemma inv_exit (h : Inv limits s) (hproc : s.proc i = .inside) {ending : Ending}
    (hnext : next limits (.exit ending) s.store (s.proc i) = some (b, p)) :
    Inv limits ⟨b, Function.update s.proc i p⟩ := by
  obtain ⟨n, hacquired, hpermits⟩ := h.permits
  have hinside := h.inside
  have hpos := those_pos (i := i) hproc hinside
  rw [hproc] at hnext
  cases hnext
  refine ⟨h.calls, ?_, ⟨n, ?_, ?_⟩, Semaphore.fresh_release h.fresh, ?_, h.peak⟩
  · apply those_leave (by simp) hproc
    rw [Budget.releaseProvider, Nat.sub_add_cancel hpos]
    exact hinside
  · rw [those_same (by simp [hproc])]
    exact hacquired
  · dsimp only [Budget.releaseProvider]
    rw [Semaphore.permits_release]
    omega
  · refine owned_step h fun ticket hticket => .inr ⟨?_, by simp [hproc]⟩
    rwa [← Semaphore.tickets_release]

lemma inv_step {input : Input} {s' : World ι Budget Attempt} (h : Inv limits s)
    (hstep : s.step (next limits) i input = some s') : Inv limits s' := by
  obtain ⟨b, p, hnext, rfl⟩ := step_eq_some hstep
  cases hproc : s.proc i with
  | outside =>
      cases input with
      | enter => exact inv_enter h hproc hnext
      | _ => simp [hproc, next] at hnext
  | waiting ticket mustCancel =>
      cases input with
      | cancel => exact inv_cancel h hproc hnext
      | resume => exact inv_resume h hproc hnext
      | _ => simp [hproc, next] at hnext
  | acquired =>
      cases input with
      | book => exact inv_book h hproc hnext
      | _ => simp [hproc, next] at hnext
  | inside =>
      cases input with
      | exit ending => exact inv_exit h hproc hnext
      | _ => simp [hproc, next] at hnext

omit [DecidableEq ι] in
/-- Without a coroutine between a permit and its bookkeeping no future in the queue is granted. -/
lemma granted_eq_zero (h : Inv limits s) (hbetween : ∀ i, ¬ Between s i) :
    s.store.semaphore.granted = 0 := by
  rw [Semaphore.granted, List.countP_eq_zero]
  rintro ⟨ticket, future⟩ hmem hgranted
  rw [decide_eq_true_eq] at hgranted
  subst hgranted
  obtain ⟨i, mustCancel, hproc⟩ := h.owned ticket (List.mem_map_of_mem hmem)
  exact hbetween i (.inr ⟨ticket, mustCancel, hproc, Semaphore.future_of_mem h.fresh hmem⟩)

/-- The calls and the concurrent calls keep to their limits, the counter is the number of attempts
inside, and no permit is lost or doubled. -/
theorem budget_kept {actions : List (ι × Input)}
    (hrun : (start limits ι).run (next limits) actions = some s) :
    s.store.providerCalls ≤ limits.maxProviderCalls ∧
      (insiders s).encard = s.store.currentConcurrentProviderCalls ∧
      s.store.currentConcurrentProviderCalls ≤ limits.maxConcurrentProviderCalls ∧
      ((∀ i, ¬ Between s i) → s.store.semaphore.value + s.store.currentConcurrentProviderCalls =
        limits.maxConcurrentProviderCalls) := by
  have h : Inv limits s := run_invariant (fun _ _ _ _ h => inv_step h) inv_start hrun
  obtain ⟨n, hacquired, hpermits⟩ := h.permits
  refine ⟨h.calls, h.inside, by omega, fun hbetween => ?_⟩
  have hnone : n = 0 := by
    by_contra hsome
    have hempty : those s (· = .acquired) = ∅ := by
      ext i
      simpa [those] using fun hi => hbetween i (.inl hi)
    rw [hempty, Set.encard_empty] at hacquired
    exact hsome (by exact_mod_cast hacquired.symm)
  have hgranted := granted_eq_zero h hbetween
  rw [Semaphore.permits, hgranted, hnone] at hpermits
  omega

end Runs

/-! ## A cancelled permit -/

def oneAtATime : Limits := { maxConcurrentProviderCalls := 1 }

/-- A coroutine in the queue is cancelled after it was granted the permit of the one before it. -/
def cancelledGrant : List (ℕ × Input) :=
  [(0, .enter), (0, .book), (1, .enter), (0, .exit .raised), (1, .cancel), (1, .resume)]

/-- The permit is there again. -/
theorem budget_kept_cancelled :
    ∃ s, (start oneAtATime ℕ).run (next oneAtATime) cancelledGrant = some s ∧
      s.store.providerCalls = 1 ∧ s.store.semaphore.value + 0 = 1 := by
  have hrun : (start oneAtATime ℕ).run (next oneAtATime) cancelledGrant = some _ := rfl
  refine ⟨_, hrun, rfl, (budget_kept hrun).2.2.2 fun i => ?_⟩
  by_cases hi : ∀ action ∈ cancelledGrant, action.1 ≠ i
  · rw [Between, proc_run hrun hi]
    simp [start]
  · have hi : i = 0 ∨ i = 1 := by
      simp [cancelledGrant] at hi
      omega
    rcases hi with rfl | rfl <;> rintro (h | ⟨ticket, mustCancel, h, -⟩) <;> cases h

end AgentSystem.DebateBudget
