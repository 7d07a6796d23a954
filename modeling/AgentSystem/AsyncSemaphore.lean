import AgentSystem.KeyedTable

/-!
# Semaphores of an event loop

`asyncio.Semaphore`: the counter and the queue of futures that wait for it. A release gives the
permit to the first future that is not done, so that a permit may belong to a task that has still to
be resumed; a task that is cancelled then gives it back.
-/
namespace AgentSystem.AsyncSemaphore

inductive Future
  | pending
  | granted
  | cancelled
  deriving DecidableEq

/-- The counter, the waiting futures in order and the number of futures made so far. -/
structure Semaphore where
  value : ℕ
  waiters : List (ℕ × Future) := []
  made : ℕ := 0
  deriving DecidableEq

/-- The queue after its first pending future was granted, `none` if it has none. -/
def grantFirst : List (ℕ × Future) → Option (List (ℕ × Future))
  | [] => none
  | (ticket, .pending) :: rest => some ((ticket, .granted) :: rest)
  | waiter :: rest => (grantFirst rest).map (waiter :: ·)

namespace Semaphore

variable (s : Semaphore)

def locked : Bool :=
  decide (s.value = 0) || s.waiters.any fun waiter => decide (waiter.2 ≠ .cancelled)

/-- `_wake_up_next`. -/
def wakeUpNext : Semaphore :=
  match grantFirst s.waiters with
  | some waiters => { s with value := s.value - 1, waiters := waiters }
  | none => s

def release : Semaphore := { s with value := s.value + 1 }.wakeUpNext

/-- `acquire` as far as it comes at once: with a permit, or with a future to wait for. -/
def acquire : Semaphore × Option ℕ :=
  if s.locked then
    ({ s with waiters := s.waiters ++ [(s.made, .pending)], made := s.made + 1 }, some s.made)
  else ({ s with value := s.value - 1 }, none)

/-- What has become of a future. -/
def future (ticket : ℕ) : Option Future :=
  (s.waiters.find? fun waiter => waiter.1 = ticket).map Prod.snd

/-- `waiters.remove(fut)`. -/
def remove (ticket : ℕ) : Semaphore :=
  { s with waiters := s.waiters.eraseP fun waiter => waiter.1 = ticket }

/-- `fut.cancel()`; a future that is granted stays so. -/
def cancel (ticket : ℕ) : Semaphore :=
  { s with
    waiters := s.waiters.map fun waiter =>
      if waiter = (ticket, .pending) then (ticket, .cancelled) else waiter }

/-- The rest of `acquire` once its future is done, and whether it returns; it raises when the future
or, after that was granted, the task was cancelled. `none` while the future is pending. -/
def resume (ticket : ℕ) (mustCancel : Bool) : Option (Semaphore × Bool) :=
  match s.future ticket with
  | some .granted =>
      if mustCancel then
        some ({ s.remove ticket with value := s.value + 1 }.wakeUpNext, false)
      else if 0 < s.value then some ((s.remove ticket).wakeUpNext, true)
      else some (s.remove ticket, true)
  | some .cancelled => some (s.remove ticket, false)
  | _ => none

/-- The permits that are free or belong to tasks that have still to be resumed. -/
def granted : ℕ := s.waiters.countP fun waiter => waiter.2 = .granted

def permits : ℕ := s.value + s.granted

end Semaphore

/-! ## Permits -/

lemma grantFirst_tickets {waiters after : List (ℕ × Future)} (h : grantFirst waiters = some after) :
    after.map Prod.fst = waiters.map Prod.fst := by
  induction waiters generalizing after with
  | nil => cases h
  | cons waiter waiters ih =>
      obtain ⟨ticket, future⟩ := waiter
      cases future with
      | pending =>
          cases h
          rfl
      | granted =>
          obtain ⟨rest, hrest, rfl⟩ := Option.map_eq_some_iff.mp h
          rw [List.map_cons, List.map_cons, ih hrest]
      | cancelled =>
          obtain ⟨rest, hrest, rfl⟩ := Option.map_eq_some_iff.mp h
          rw [List.map_cons, List.map_cons, ih hrest]

lemma grantFirst_count {waiters after : List (ℕ × Future)} (h : grantFirst waiters = some after) :
    after.countP (fun waiter => waiter.2 = .granted) =
      waiters.countP (fun waiter => waiter.2 = .granted) + 1 := by
  induction waiters generalizing after with
  | nil => cases h
  | cons waiter waiters ih =>
      obtain ⟨ticket, future⟩ := waiter
      cases future with
      | pending =>
          cases h
          simp
      | granted =>
          obtain ⟨rest, hrest, rfl⟩ := Option.map_eq_some_iff.mp h
          simp [ih hrest]
      | cancelled =>
          obtain ⟨rest, hrest, rfl⟩ := Option.map_eq_some_iff.mp h
          simp [ih hrest]

lemma countP_eraseP {α : Type} {p : α → Bool} (q : α → Bool) {xs : List α} {x : α}
    (h : xs.find? p = some x) :
    xs.countP q = (xs.eraseP p).countP q + if q x then 1 else 0 := by
  induction xs with
  | nil => cases h
  | cons head xs ih =>
      cases hp : p head with
      | true =>
          rw [List.find?_cons_of_pos hp, Option.some.injEq] at h
          subst h
          rw [List.eraseP_cons_of_pos hp, List.countP_cons]
      | false =>
          have hneg : ¬ p head = true := by simp [hp]
          rw [List.find?_cons_of_neg hneg] at h
          rw [List.eraseP_cons_of_neg hneg, List.countP_cons, List.countP_cons, ih h]
          omega

namespace Semaphore

variable {s : Semaphore} {ticket : ℕ}

/-- A permit that is handed over is not lost. -/
lemma permits_wakeUpNext (h : 0 < s.value) : s.wakeUpNext.permits = s.permits := by
  unfold wakeUpNext
  split
  · rename_i waiters hgrant
    have hcount := grantFirst_count hgrant
    simp only [permits, granted]
    omega
  · rfl

lemma permits_release : s.release.permits = s.permits + 1 := by
  rw [release, permits_wakeUpNext (Nat.succ_pos _)]
  simp only [permits, granted]
  omega

/-- A permit that is there at once is taken, a future has none. -/
lemma permits_acquire : s.acquire.1.permits + (if s.acquire.2 = none then 1 else 0) = s.permits := by
  unfold acquire
  split_ifs with hlocked h h
  · cases h
  · simp [permits, granted]
  · have hvalue : s.value ≠ 0 := by
      intro hzero
      simp [locked, hzero] at hlocked
    simp only [permits, granted]
    omega
  · exact absurd rfl h

lemma permits_remove {future : Future} (h : s.future ticket = some future) :
    s.permits = (s.remove ticket).permits + if future = .granted then 1 else 0 := by
  obtain ⟨waiter, hfind, rfl⟩ := Option.map_eq_some_iff.mp h
  have hcount := countP_eraseP (fun waiter => decide (waiter.2 = .granted)) hfind
  simp only [decide_eq_true_eq] at hcount
  simp only [permits, granted, remove]
  omega

/-- A task that is resumed has got a permit, or gives back the one that it had. -/
lemma permits_resume {mustCancel acquired : Bool} {after : Semaphore}
    (h : s.resume ticket mustCancel = some (after, acquired)) :
    after.permits + (if acquired then 1 else 0) = s.permits := by
  unfold resume at h
  split at h
  · rename_i hfuture
    have hremoved := permits_remove hfuture
    rw [if_pos rfl] at hremoved
    split_ifs at h with hcancel hvalue
    · cases h
      rw [permits_wakeUpNext (Nat.succ_pos _), hremoved]
      simp only [permits, granted, remove, Bool.false_eq_true, if_false]
      omega
    · cases h
      have hleft : 0 < (s.remove ticket).value := hvalue
      rw [permits_wakeUpNext hleft, hremoved, if_pos rfl]
    · cases h
      rw [hremoved, if_pos rfl]
  · rename_i hfuture
    cases h
    have hremoved := permits_remove hfuture
    simpa using hremoved.symm
  · cases h

lemma permits_cancel : (s.cancel ticket).permits = s.permits := by
  simp only [permits, granted, cancel, List.countP_map]
  congr 1
  apply List.countP_congr
  rintro ⟨other, future⟩ -
  by_cases h : (other, future) = (ticket, Future.pending)
  · cases h
    simp
  · simp [h]

/-! ## Tickets -/

/-- The tickets of the waiting futures. -/
def tickets (s : Semaphore) : List ℕ := s.waiters.map Prod.fst

/-- No two futures in the queue are the same, and none is made later. -/
structure Fresh (s : Semaphore) : Prop where
  nodup : s.tickets.Nodup
  below : ∀ ticket ∈ s.tickets, ticket < s.made

@[simp] lemma tickets_wakeUpNext : s.wakeUpNext.tickets = s.tickets := by
  unfold wakeUpNext
  split
  · rename_i waiters hgrant
    exact grantFirst_tickets hgrant
  · rfl

@[simp] lemma made_wakeUpNext : s.wakeUpNext.made = s.made := by
  unfold wakeUpNext
  split <;> rfl

lemma tickets_release : s.release.tickets = s.tickets := by
  rw [release, tickets_wakeUpNext]
  rfl

lemma made_release : s.release.made = s.made := by
  rw [release, made_wakeUpNext]

@[simp] lemma tickets_cancel : (s.cancel ticket).tickets = s.tickets := by
  simp only [tickets, cancel, List.map_map]
  apply List.map_congr_left
  rintro ⟨other, future⟩ -
  by_cases h : (other, future) = (ticket, Future.pending)
  · cases h
    simp
  · simp [h]

lemma tickets_remove : (s.remove ticket).tickets = s.tickets.erase ticket := by
  simp only [tickets, remove]
  rw [List.erase_eq_eraseP, List.eraseP_map]
  congr 2
  funext waiter
  by_cases h : waiter.1 = ticket
  · simp [h]
  · simp [h, Ne.symm h]

lemma tickets_resume {mustCancel acquired : Bool} {after : Semaphore}
    (h : s.resume ticket mustCancel = some (after, acquired)) :
    after.tickets = s.tickets.erase ticket ∧ after.made = s.made := by
  unfold resume at h
  split at h
  · split_ifs at h
    · cases h
      rw [tickets_wakeUpNext, made_wakeUpNext]
      exact ⟨tickets_remove, rfl⟩
    · cases h
      rw [tickets_wakeUpNext, made_wakeUpNext]
      exact ⟨tickets_remove, rfl⟩
    · cases h
      exact ⟨tickets_remove, rfl⟩
  · cases h
    exact ⟨tickets_remove, rfl⟩
  · cases h

lemma tickets_acquire (h : ticket ∈ s.acquire.1.tickets) :
    ticket ∈ s.tickets ∨ s.acquire.2 = some ticket := by
  unfold acquire at h ⊢
  split_ifs at h ⊢
  · simp only [tickets, List.map_append, List.mem_append, List.map_singleton,
      List.mem_singleton] at h
    exact h.imp_right fun h => by rw [h]
  · exact .inl h

lemma fresh_of_tickets {s' : Semaphore} (h : s.Fresh) (htickets : s'.tickets.Sublist s.tickets)
    (hmade : s'.made = s.made) : s'.Fresh where
  nodup := h.nodup.sublist htickets
  below ticket hticket := hmade ▸ h.below ticket (htickets.subset hticket)

lemma fresh_release (h : s.Fresh) : s.release.Fresh :=
  fresh_of_tickets h (by rw [tickets_release]) made_release

lemma fresh_acquire (h : s.Fresh) : s.acquire.1.Fresh := by
  unfold acquire
  split_ifs
  · constructor
    · simp only [tickets, List.map_append, List.map_singleton]
      refine h.nodup.append (List.nodup_singleton _) ?_
      intro ticket hticket hmade
      rw [List.mem_singleton.mp hmade] at hticket
      exact absurd (h.below _ hticket) (lt_irrefl _)
    · intro ticket hticket
      simp only [tickets, List.map_append, List.mem_append, List.map_singleton,
        List.mem_singleton] at hticket
      rcases hticket with hticket | rfl
      · exact (h.below ticket hticket).trans (Nat.lt_succ_self _)
      · exact Nat.lt_succ_self _
  · exact ⟨h.nodup, h.below⟩

/-- The future of a ticket in the queue. -/
lemma future_of_mem (h : s.Fresh) {future : Future} (hmem : (ticket, future) ∈ s.waiters) :
    s.future ticket = some future := by
  have hfind : (s.waiters.find? fun waiter => waiter.1 = ticket) = some (ticket, future) :=
    (find?_key_eq_some h.nodup).mpr ⟨hmem, rfl⟩
  rw [Semaphore.future, hfind]
  rfl

end Semaphore

end AgentSystem.AsyncSemaphore
