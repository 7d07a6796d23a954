import AgentSystem.PySequence

/-!
# Backoff of a rate limited account

`mark_rate_limited` and `is_account_cooling` of the quota-aware router. A double is an exact rational up to
the largest double: a product or a sum beyond it is infinite, a power beyond it raises `OverflowError`.
-/
namespace AgentSystem.RateBackoff

/-- The largest double. -/
def maxDouble : ℚ := (2 ^ 53 - 1) * 2 ^ 971

lemma maxDouble_eq : maxDouble = 2 ^ 1024 - 2 ^ 971 := by
  have hsplit : (2 : ℚ) ^ 1024 = 2 ^ 53 * 2 ^ 971 := by rw [← pow_add]
  rw [hsplit]
  unfold maxDouble
  rw [sub_mul, one_mul]

lemma maxDouble_pos : 0 < maxDouble := by
  have hpos : (0 : ℚ) < 2 ^ 53 - 1 := by norm_num
  exact mul_pos hpos (pow_pos two_pos 971)

lemma two_pow_le_maxDouble {k : ℕ} (h : k < 1024) : (2 : ℚ) ^ k ≤ maxDouble := by
  have hk : (2 : ℚ) ^ k ≤ 2 ^ 1023 := pow_le_pow_right₀ one_le_two (by omega)
  have hlow : (2 : ℚ) ^ 971 ≤ 2 ^ 1023 := pow_le_pow_right₀ one_le_two (by omega)
  have hdouble : (2 : ℚ) ^ 1024 = 2 ^ 1023 + 2 ^ 1023 := by rw [pow_succ, mul_two]
  rw [maxDouble_eq, hdouble]
  exact hk.trans (le_sub_iff_add_le.mpr (add_le_add_right hlow _))

lemma maxDouble_lt_two_pow {k : ℕ} (h : 1024 ≤ k) : maxDouble < 2 ^ k := by
  have hk : (2 : ℚ) ^ 1024 ≤ 2 ^ k := pow_le_pow_right₀ one_le_two h
  have hpos : (0 : ℚ) < 2 ^ 971 := pow_pos two_pos 971
  rw [maxDouble_eq]
  exact (sub_lt_self _ hpos).trans_le hk

/-- A double that is neither infinite nor a NaN. -/
structure FiniteDouble where
  value : ℚ
  low : -maxDouble ≤ value
  high : value ≤ maxDouble

/-- A small whole number of seconds. -/
def FiniteDouble.ofNat (k : ℕ) (h : k ≤ 512) : FiniteDouble where
  value := k
  low := by
    have hk : (0 : ℚ) ≤ k := Nat.cast_nonneg k
    linarith [maxDouble_pos]
  high := by
    have hk : (k : ℚ) ≤ 512 := by exact_mod_cast h
    have hpow : (512 : ℚ) ≤ maxDouble := by
      have h9 := two_pow_le_maxDouble (show 9 < 1024 by omega)
      norm_num at h9
      exact h9
    linarith

inductive Double
  | negInf
  | finite (value : ℚ)
  | posInf
  deriving DecidableEq

namespace Double

/-- The double of a product or a sum. -/
def ofExact (x : ℚ) : Double :=
  if maxDouble < x then posInf else if x < -maxDouble then negInf else finite x

/-- `x <= y`. -/
def lessEq : Double → Double → Bool
  | negInf, _ => true
  | _, posInf => true
  | finite x, finite y => decide (x ≤ y)
  | _, _ => false

/-- `min(x, y)`. -/
def pyMin (x y : Double) : Double := if !x.lessEq y then y else x

/-- `time.time() + x`. -/
def after (now : FiniteDouble) : Double → Double
  | negInf => negInf
  | finite x => ofExact (now.value + x)
  | posInf => posInf

lemma ofExact_of_mem {x : ℚ} (hlow : -maxDouble ≤ x) (hhigh : x ≤ maxDouble) : ofExact x = finite x := by
  unfold ofExact
  rw [if_neg (not_lt.mpr hhigh), if_neg (not_lt.mpr hlow)]

/-- An instant that is a double is compared with a sum as with the exact sum. -/
lemma ofExact_lessEq (x : ℚ) (t : FiniteDouble) : (ofExact x).lessEq (finite t.value) = decide (x ≤ t.value) := by
  have hlow := t.low
  have hhigh := t.high
  unfold ofExact
  split_ifs with habove hbelow
  · have hnot : ¬ x ≤ t.value := by linarith
    simp [lessEq, hnot]
  · have hle : x ≤ t.value := by linarith
    simp [lessEq, hle]
  · rfl

/-- The clamp takes back a product that is infinite. -/
lemma pyMin_ofExact {x : ℚ} (hlow : -maxDouble ≤ x) (bound : FiniteDouble) :
    pyMin (ofExact x) (finite bound.value) = finite (min x bound.value) := by
  have hlessEq := ofExact_lessEq x bound
  unfold pyMin
  rw [hlessEq]
  by_cases hle : x ≤ bound.value
  · rw [min_eq_left hle, ofExact_of_mem hlow (hle.trans bound.high)]
    simp [hle]
  · rw [min_eq_right (le_of_not_ge hle)]
    simp [hle]

lemma pyMin_negInf {x : ℚ} (hlow : x < -maxDouble) (bound : Double) : pyMin (ofExact x) bound = negInf := by
  have hneg : ofExact x = negInf := by
    unfold ofExact
    rw [if_neg (by linarith [maxDouble_pos]), if_pos hlow]
  rw [hneg]
  simp [pyMin, lessEq]

end Double

open Double

inductive PyError
  | overflowError
  deriving DecidableEq

/-- `2.0 ** k`. -/
def twoPower (k : ℕ) : Except PyError ℚ :=
  if maxDouble < 2 ^ k then .error .overflowError else .ok (2 ^ k)

lemma twoPower_of_lt {k : ℕ} (h : k < 1024) : twoPower k = .ok (2 ^ k) :=
  if_neg (not_lt.mpr (two_pow_le_maxDouble h))

lemma twoPower_of_ge {k : ℕ} (h : 1024 ≤ k) : twoPower k = .error .overflowError :=
  if_pos (maxDouble_lt_two_pow h)

structure QuotaAwareRouter where
  baseCooldown : FiniteDouble
  maxCooldown : FiniteDouble
  coolingAccounts : String → Option Double := fun _ => none
  consecutive429 : String → Option ℕ := fun _ => none

namespace QuotaAwareRouter

variable (router : QuotaAwareRouter)

/-- The cooldown of the given count: what the provider asked for, or the backoff. -/
def cooldown (count : ℕ) : Option Double → Except PyError Double
  | some retryAfter => .ok retryAfter
  | none => (twoPower (count - 1)).map fun power =>
      pyMin (ofExact (router.baseCooldown.value * power)) (finite router.maxCooldown.value)

/-- The count is stored before the power is taken, the end of the cooldown after it. -/
def markRateLimited (accountId : String) (retryAfter : Option Double) (now : FiniteDouble) :
    QuotaAwareRouter × Except PyError Double :=
  let count := (router.consecutive429 accountId).getD 0 + 1
  let counted := { router with
    consecutive429 := Function.update router.consecutive429 accountId (some count) }
  match router.cooldown count retryAfter with
  | .error raised => (counted, .error raised)
  | .ok seconds => ({ counted with
      coolingAccounts := Function.update router.coolingAccounts accountId (some (after now seconds)) },
      .ok seconds)

def isAccountCooling (accountId : String) (now : FiniteDouble) : QuotaAwareRouter × Bool :=
  match router.coolingAccounts accountId with
  | none => (router, false)
  | some coolingUntil =>
      if coolingUntil.lessEq (finite now.value) then
        ({ router with coolingAccounts := Function.update router.coolingAccounts accountId none }, false)
      else (router, true)

end QuotaAwareRouter

/-- A call of the router, with what it reads from the clock. -/
inductive Call
  | markRateLimited (accountId : String) (retryAfter : Option Double) (now : FiniteDouble)
  | isAccountCooling (accountId : String) (now : FiniteDouble)

namespace Call

/-- The call marks this account. -/
def marks (accountId : String) : Call → Bool
  | markRateLimited id _ _ => id = accountId
  | isAccountCooling _ _ => false

/-- The call is about another account, or asks for this one before the given instant. -/
def leaves (accountId : String) (cooling : ℚ) : Call → Prop
  | markRateLimited id _ _ => id ≠ accountId
  | isAccountCooling id now => id = accountId → now.value < cooling

end Call

namespace QuotaAwareRouter

variable (router : QuotaAwareRouter)

def step : Call → QuotaAwareRouter
  | .markRateLimited accountId retryAfter now => (router.markRateLimited accountId retryAfter now).1
  | .isAccountCooling accountId now => (router.isAccountCooling accountId now).1

def run (calls : List Call) : QuotaAwareRouter := calls.foldl step router

/-! ## The count of the calls -/

lemma step_cooldowns (call : Call) :
    (router.step call).baseCooldown = router.baseCooldown ∧
      (router.step call).maxCooldown = router.maxCooldown := by
  cases call with
  | markRateLimited accountId retryAfter now =>
    unfold step markRateLimited
    dsimp only
    split <;> exact ⟨rfl, rfl⟩
  | isAccountCooling accountId now =>
    unfold step isAccountCooling
    dsimp only
    split
    · exact ⟨rfl, rfl⟩
    · split <;> exact ⟨rfl, rfl⟩

lemma step_count (accountId : String) (call : Call) :
    ((router.step call).consecutive429 accountId).getD 0 =
      (router.consecutive429 accountId).getD 0 + if call.marks accountId then 1 else 0 := by
  cases call with
  | markRateLimited id retryAfter now =>
    have hcount : (router.step (.markRateLimited id retryAfter now)).consecutive429 =
        Function.update router.consecutive429 id (some ((router.consecutive429 id).getD 0 + 1)) := by
      unfold step markRateLimited
      dsimp only
      split <;> rfl
    rw [hcount]
    by_cases hid : id = accountId
    · subst hid
      simp [Call.marks]
    · simp [Call.marks, hid, Function.update_of_ne (Ne.symm hid)]
  | isAccountCooling id now =>
    have hsame : (router.step (.isAccountCooling id now)).consecutive429 = router.consecutive429 := by
      unfold step isAccountCooling
      dsimp only
      split
      · rfl
      · split <;> rfl
    simp [hsame, Call.marks]

lemma run_cooldowns (calls : List Call) :
    (router.run calls).baseCooldown = router.baseCooldown ∧
      (router.run calls).maxCooldown = router.maxCooldown := by
  induction calls generalizing router with
  | nil => exact ⟨rfl, rfl⟩
  | cons call rest ih =>
    have hstep := router.step_cooldowns call
    have hrest := ih (router.step call)
    exact ⟨hrest.1.trans hstep.1, hrest.2.trans hstep.2⟩

lemma run_count (accountId : String) (calls : List Call) :
    ((router.run calls).consecutive429 accountId).getD 0 =
      (router.consecutive429 accountId).getD 0 + calls.countP (Call.marks accountId) := by
  induction calls generalizing router with
  | nil => rfl
  | cons call rest ih =>
    have hstep := router.step_count accountId call
    have hrest := ih (router.step call)
    simp only [run, List.foldl_cons, List.countP_cons] at hrest ⊢
    rw [hrest, hstep]
    omega

/-! ## The end of the cooldown -/

lemma isAccountCooling_eq {accountId : String} {x : ℚ}
    (h : router.coolingAccounts accountId = some (ofExact x)) {t : FiniteDouble} (ht : t.value < x) :
    router.isAccountCooling accountId t = (router, true) := by
  unfold isAccountCooling
  rw [h]
  have hnot : (ofExact x).lessEq (finite t.value) = false := by
    rw [ofExact_lessEq]
    exact decide_eq_false (not_le.mpr ht)
  simp [hnot]

/-- A call that leaves the account alone keeps the end of its cooldown. -/
lemma step_cooling {accountId : String} {x : ℚ} (h : router.coolingAccounts accountId = some (ofExact x))
    {call : Call} (hleaves : call.leaves accountId x) :
    (router.step call).coolingAccounts accountId = some (ofExact x) := by
  cases call with
  | markRateLimited id retryAfter now =>
    have hne : id ≠ accountId := hleaves
    unfold step markRateLimited
    dsimp only
    split
    · exact h
    · dsimp only
      rw [Function.update_of_ne (Ne.symm hne)]
      exact h
  | isAccountCooling id now =>
    by_cases hid : id = accountId
    · subst hid
      have hnow : now.value < x := hleaves rfl
      unfold step
      dsimp only
      rw [router.isAccountCooling_eq h hnow]
      exact h
    · unfold step isAccountCooling
      dsimp only
      split
      · exact h
      · split
        · dsimp only
          rw [Function.update_of_ne (Ne.symm hid)]
          exact h
        · exact h

lemma run_cooling {accountId : String} {x : ℚ} (h : router.coolingAccounts accountId = some (ofExact x))
    {calls : List Call} (hleaves : ∀ call ∈ calls, call.leaves accountId x) :
    (router.run calls).coolingAccounts accountId = some (ofExact x) := by
  induction calls generalizing router with
  | nil => exact h
  | cons call rest ih =>
    have hstep := router.step_cooling h (hleaves call List.mem_cons_self)
    exact ih (router.step call) hstep fun later hlater => hleaves later (List.mem_cons_of_mem call hlater)

/-! ## A call without `retry_after` -/

lemma cooldown_none (count : ℕ) (hcount : count ≤ 1024) (hpos : 0 < count) :
    router.cooldown count none = .ok (pyMin (ofExact (router.baseCooldown.value * 2 ^ (count - 1)))
      (finite router.maxCooldown.value)) := by
  unfold cooldown
  rw [twoPower_of_lt (by omega)]
  rfl

lemma cooldown_raises {count : ℕ} (hcount : 1024 < count) :
    router.cooldown count none = .error .overflowError := by
  unfold cooldown
  rw [twoPower_of_ge (by omega)]
  rfl

lemma markRateLimited_snd (accountId : String) (retryAfter : Option Double) (now : FiniteDouble) :
    (router.markRateLimited accountId retryAfter now).2 =
      router.cooldown ((router.consecutive429 accountId).getD 0 + 1) retryAfter := by
  unfold markRateLimited
  dsimp only
  split
  next raised h => exact h.symm
  next seconds h => exact h.symm

lemma markRateLimited_cooling {accountId : String} {retryAfter : Option Double} {now : FiniteDouble}
    {seconds : Double} (h : (router.markRateLimited accountId retryAfter now).2 = .ok seconds) :
    (router.markRateLimited accountId retryAfter now).1.coolingAccounts accountId =
      some (after now seconds) := by
  rw [markRateLimited_snd] at h
  unfold markRateLimited
  simp [h]

end QuotaAwareRouter

open QuotaAwareRouter

/-- The call returns the clamped backoff, and the account cools until it is over, whatever is called for
other accounts and however often the account is looked at before. -/
def Backs (result : QuotaAwareRouter × Except PyError Double) (accountId : String) (now : FiniteDouble)
    (backoff : ℚ) : Prop :=
  result.2 = .ok (finite backoff) ∧
    ∀ later : List Call, (∀ call ∈ later, call.leaves accountId (now.value + backoff)) →
      ∀ t : FiniteDouble, t.value < now.value + backoff →
        ((result.1.run later).isAccountCooling accountId t).2 = true

lemma Backs.ne_error {result : QuotaAwareRouter × Except PyError Double} {accountId : String}
    {now : FiniteDouble} {backoff : ℚ} (h : Backs result accountId now backoff) (raised : PyError) :
    result.2 ≠ .error raised := by
  rw [h.1]
  simp

/-- A call that 1024 calls for the account went before raises. -/
lemma late_call_raises (baseCooldown maxCooldown : FiniteDouble) {accountId : String} {earlier : List Call}
    (h : 1024 ≤ earlier.countP (Call.marks accountId)) (now : FiniteDouble) :
    ((run { baseCooldown, maxCooldown } earlier).markRateLimited accountId none now).2 =
      .error .overflowError := by
  have hcount := run_count { baseCooldown, maxCooldown } accountId earlier
  rw [Option.getD_none, Nat.zero_add] at hcount
  rw [markRateLimited_snd, hcount]
  exact cooldown_raises _ (by omega)

/-- The call of any number, after any calls of the router, backs off as long as the power is a double. -/
theorem backs_iff (baseCooldown maxCooldown : FiniteDouble) (accountId : String) (earlier : List Call)
    (now : FiniteDouble) :
    let router := run { baseCooldown, maxCooldown } earlier
    let n := earlier.countP (Call.marks accountId) + 1
    Backs (router.markRateLimited accountId none now) accountId now
        (min (baseCooldown.value * 2 ^ (n - 1)) maxCooldown.value) ↔
      n ≤ 1024 ∧ -maxDouble ≤ baseCooldown.value * 2 ^ (n - 1) := by
  intro router n
  have hcount : (router.consecutive429 accountId).getD 0 + 1 = n := by
    have hrun := run_count { baseCooldown, maxCooldown } accountId earlier
    simp only [Option.getD_none, Nat.zero_add] at hrun
    rw [hrun]
  have hcooldowns := run_cooldowns { baseCooldown, maxCooldown } earlier
  have hresult := router.markRateLimited_snd accountId none now
  rw [hcount] at hresult
  by_cases hn : n ≤ 1024
  · rw [router.cooldown_none n hn (by omega), hcooldowns.1, hcooldowns.2] at hresult
    by_cases hlow : -maxDouble ≤ baseCooldown.value * 2 ^ (n - 1)
    · refine iff_of_true ?_ ⟨hn, hlow⟩
      have hreturned := hresult.trans (congrArg Except.ok (pyMin_ofExact hlow maxCooldown))
      refine ⟨hreturned, fun later hlater t ht => ?_⟩
      have hcooling := router.markRateLimited_cooling hreturned
      have hlast := run_cooling _ hcooling hlater
      rw [isAccountCooling_eq _ hlast ht]
    · refine iff_of_false ?_ fun h => hlow h.2
      rintro ⟨hreturned, -⟩
      rw [hresult, pyMin_negInf (not_le.mp hlow)] at hreturned
      simp at hreturned
  · refine iff_of_false ?_ fun h => hn h.1
    intro hbacks
    exact hbacks.ne_error _ (late_call_raises baseCooldown maxCooldown (by omega) now)

/-- The router with the default cooldowns after a number of calls for one account. -/
def limited (n : ℕ) : QuotaAwareRouter :=
  run { baseCooldown := .ofNat 5 (by omega), maxCooldown := .ofNat 120 (by omega) }
    (List.replicate n (.markRateLimited "acc" none (.ofNat 0 (by omega))))

lemma limited_raises {n : ℕ} (h : 1024 ≤ n) (now : FiniteDouble) :
    ((limited n).markRateLimited "acc" none now).2 = .error .overflowError := by
  refine late_call_raises _ _ ?_ now
  rw [List.countP_replicate, if_pos (by simp [Call.marks])]
  exact h

/-- With the default cooldowns the call number 1025 raises. -/
theorem call_1025_raises :
    ((limited 1024).markRateLimited "acc" none (.ofNat 200 (by omega))).2 = .error .overflowError ∧
      ¬ Backs ((limited 1024).markRateLimited "acc" none (.ofNat 200 (by omega))) "acc"
        (.ofNat 200 (by omega)) (min (5 * 2 ^ 1024) 120) :=
  have hraises := limited_raises le_rfl _
  ⟨hraises, fun h => h.ne_error _ hraises⟩

end AgentSystem.RateBackoff
