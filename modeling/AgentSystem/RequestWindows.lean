import AgentSystem.RateLimit
import Mathlib.Tactic.Tauto

/-!
# Windows of requests

A transaction with a later reading deletes rows that an earlier reading still has to count, and its
own row counts against that reading. Where a transaction finds neither, no window holds more than the
limit, and a refused call has a full window behind it.
-/
namespace AgentSystem.RateLimit

open Interleaving

variable {τ : Type} [AddCommGroup τ] [LinearOrder τ] [IsOrderedAddMonoid τ]
  {limiter : TenantRequestRateLimiter τ} {ι : Type} [DecidableEq ι]
  {s s' : World ι (RateStore τ) (CallPhase τ)} {i : ι} {input : CallInput τ}

/-- A transaction finds a row of every admitted call of its tenant in its window, and no row of the
tenant with a later reading. -/
structure Timely (limiter : TenantRequestRateLimiter τ) (s : World ι (RateStore τ) (CallPhase τ))
    (i : ι) (input : CallInput τ) : Prop where
  kept : ∀ tenantId now, input = .enter → s.proc i = .waiting tenantId now →
    s.store.admitted.countP (Since tenantId (now - limiter.windowSeconds)) ≤
      s.store.rows.countP (Since tenantId (now - limiter.windowSeconds))
  latest : ∀ tenantId now, input = .enter → s.proc i = .waiting tenantId now →
    ∀ request ∈ s.store.rows, request.1 = tenantId → request.2 ≤ now

/-- The table holds admitted calls, and no window holds more of them than the limit. -/
structure Limited (limiter : TenantRequestRateLimiter τ)
    (s : World ι (RateStore τ) (CallPhase τ)) : Prop where
  rows : s.store.rows.Sublist s.store.admitted
  windows : ∀ tenantId t,
    s.store.admitted.countP (Within tenantId (t - limiter.windowSeconds) t) ≤ limiter.limit

omit [AddCommGroup τ] [IsOrderedAddMonoid τ] in
lemma within_imp_since {tenantId : String} {lower upper cutoff : τ} (h : cutoff ≤ lower)
    {request : Request τ} (hwithin : Within tenantId lower upper request = true) :
    Since tenantId cutoff request = true := by
  simp only [Within, Since, Bool.and_eq_true, decide_eq_true_eq] at hwithin ⊢
  exact ⟨hwithin.1.1, h.trans hwithin.1.2⟩

omit [AddCommGroup τ] [IsOrderedAddMonoid τ] in
/-- Rows that are too old for a reading are not counted for it anyway. -/
lemma countP_since_filter (rows : List (Request τ)) (tenantId : String) (cutoff : τ) :
    (rows.filter fun request => cutoff ≤ request.2).countP (Since tenantId cutoff) =
      rows.countP (Since tenantId cutoff) := by
  rw [List.countP_filter]
  refine List.countP_congr fun request _ => ?_
  simp only [Since, Bool.and_eq_true, decide_eq_true_eq]
  tauto

omit [IsOrderedAddMonoid τ] in
/-- Whether a transaction limits its call. -/
lemma consume_eq (limiter : TenantRequestRateLimiter τ) (store : RateStore τ) (tenantId : String)
    (now : τ) :
    (limiter.limit ≤ store.rows.countP (Since tenantId (now - limiter.windowSeconds)) ∧
        (limiter.consume store tenantId now).2 = true ∧
        (limiter.consume store tenantId now).1.admitted = store.admitted ∧
        (limiter.consume store tenantId now).1.rows =
          store.rows.filter fun request => now - limiter.windowSeconds ≤ request.2) ∨
      (store.rows.countP (Since tenantId (now - limiter.windowSeconds)) < limiter.limit ∧
        (limiter.consume store tenantId now).2 = false ∧
        (limiter.consume store tenantId now).1.admitted = store.admitted ++ [(tenantId, now)] ∧
        (limiter.consume store tenantId now).1.rows =
          (store.rows.filter fun request => now - limiter.windowSeconds ≤ request.2) ++
            [(tenantId, now)]) := by
  rw [TenantRequestRateLimiter.consume]
  simp only [countP_since_filter]
  split_ifs with hfull
  · exact .inl ⟨hfull, rfl, rfl, rfl⟩
  · exact .inr ⟨not_le.mp hfull, rfl, rfl, rfl⟩

omit [DecidableEq ι] in
/-- An admitted call leaves every window within the limit. -/
lemma Limited.admit {tenantId : String} {now : τ} (h : Limited limiter s)
    (hkept : s.store.admitted.countP (Since tenantId (now - limiter.windowSeconds)) ≤
      s.store.rows.countP (Since tenantId (now - limiter.windowSeconds)))
    (hfree : s.store.rows.countP (Since tenantId (now - limiter.windowSeconds)) < limiter.limit)
    (tenant : String) (t : τ) :
    (s.store.admitted ++ [(tenantId, now)]).countP
      (Within tenant (t - limiter.windowSeconds) t) ≤ limiter.limit := by
  rw [List.countP_append, List.countP_singleton]
  split_ifs with hinside
  · simp only [Within, Bool.and_eq_true, decide_eq_true_eq] at hinside
    obtain ⟨⟨rfl, -⟩, hlate⟩ := hinside
    have hcutoff : now - limiter.windowSeconds ≤ t - limiter.windowSeconds :=
      sub_le_sub_right hlate _
    have hcount : s.store.admitted.countP (Within tenantId (t - limiter.windowSeconds) t) ≤
        s.store.admitted.countP (Since tenantId (now - limiter.windowSeconds)) :=
      List.countP_mono_left fun request _ hwithin => within_imp_since hcutoff hwithin
    omega
  · simpa using h.windows tenant t

lemma Limited.step (h : Limited limiter s) (htimely : Timely limiter s i input)
    (hstep : s.step limiter.next i input = some s') : Limited limiter s' := by
  obtain ⟨store, p, hnext, rfl⟩ := step_eq_some hstep
  rw [TenantRequestRateLimiter.next.eq_def] at hnext
  split at hnext
  · split_ifs at hnext
    cases hnext
    exact ⟨h.rows, h.windows⟩
  · cases hnext
  · split_ifs at hnext
    · cases hnext
      exact ⟨h.rows, h.windows⟩
    · cases hnext
      exact ⟨h.rows, h.windows⟩
  · rename_i tenantId now hproc
    cases hnext
    rcases consume_eq limiter s.store tenantId now with ⟨-, -, hadmitted, hrows⟩ |
      ⟨hfree, -, hadmitted, hrows⟩
    · refine ⟨?_, ?_⟩
      · simp only [hadmitted, hrows]
        exact List.filter_sublist.trans h.rows
      · simpa only [hadmitted] using h.windows
    · refine ⟨?_, ?_⟩
      · simp only [hadmitted, hrows]
        exact (List.filter_sublist.trans h.rows).append (List.Sublist.refl _)
      · simp only [hadmitted]
        exact h.admit (htimely.kept tenantId now rfl hproc) hfree
  · cases hnext
    exact ⟨h.rows, h.windows⟩
  · cases hnext

omit [IsOrderedAddMonoid τ] [DecidableEq ι] in
/-- A refused call has a full window behind it. -/
lemma Limited.refused {tenantId : String} {now : τ} (h : Limited limiter s)
    (htimely : Timely limiter s i .enter) (hproc : s.proc i = .waiting tenantId now)
    (hlimited : (limiter.consume s.store tenantId now).2 = true) :
    limiter.limit ≤
      s.store.admitted.countP (Within tenantId (now - limiter.windowSeconds) now) := by
  rcases consume_eq limiter s.store tenantId now with ⟨hfull, -⟩ | ⟨-, hfree, -⟩
  · calc limiter.limit
        ≤ s.store.rows.countP (Since tenantId (now - limiter.windowSeconds)) := hfull
      _ = s.store.rows.countP (Within tenantId (now - limiter.windowSeconds) now) := by
          refine List.countP_congr fun request hrequest => ?_
          have hlatest := htimely.latest tenantId now rfl hproc request hrequest
          simp only [Since, Within, Bool.and_eq_true, decide_eq_true_eq]
          tauto
      _ ≤ s.store.admitted.countP (Within tenantId (now - limiter.windowSeconds) now) :=
          h.rows.countP_le
  · rw [hfree] at hlimited
    cases hlimited

/-- No call yet. -/
def noCalls (clock : τ) : World ι (RateStore τ) (CallPhase τ) where
  store := { clock := clock, rows := [], admitted := [] }
  proc _ := .idle

def oneInTen : TenantRequestRateLimiter ℤ := ⟨1, 10, by decide, by decide⟩

def twoInTen : TenantRequestRateLimiter ℤ := ⟨2, 10, by decide, by decide⟩

/-- The call that reads the clock first comes second. -/
def overtakenCall : List (Bool × CallInput ℤ) :=
  [(false, .call "tenant_a"), (true, .pass 1), (true, .call "tenant_a"), (true, .enter)]

/-- Two calls are admitted at 0, and one that has read the clock with them comes after one at 11. -/
def delayedCall : List (Bool × CallInput ℤ) :=
  [(true, .call "tenant_a"), (true, .enter), (true, .call "tenant_a"), (true, .enter),
    (false, .call "tenant_a"), (true, .pass 11), (true, .call "tenant_a"), (true, .enter),
    (false, .enter)]

end AgentSystem.RateLimit
