import AgentSystem.AccountUsage

/-!
# The active account

The operations that add, delete and activate accounts, and the two ways an account is selected: by the id
of the active account, and by the flag of the accounts the quota-aware router may choose from.
-/
namespace AgentSystem.Usage

/-- `account.setdefault(...)` of `add_account`. -/
def Account.withDefaults (account : Account) : Account :=
  { account with
    tokenBudget := some (account.tokenBudget.getD (-1))
    tokensUsed := some (account.tokensUsed.getD 0) }

/-- `budget == -1 or used < budget`. -/
def Account.withinBudget (account : Account) : Bool :=
  account.tokenBudget.getD (-1) = -1 ∨ account.tokensUsed.getD 0 < account.tokenBudget.getD (-1)

namespace AccountsFile

/-- The first account of this id is replaced, a new one goes last. -/
def put (account : Account) : List Account → List Account
  | [] => [account]
  | acc :: rest => if acc.id = account.id then account :: rest else acc :: put account rest

/-- Only the accounts of this id are flagged. -/
def activated (id : String) (accounts : List Account) : List Account :=
  accounts.map fun account => { account with isActive := account.id = id }

variable (file : AccountsFile)

def addAccount (account : Account) : AccountsFile where
  accounts := put account.withDefaults file.accounts
  activeAccountId :=
    if file.activeAccountId = "" ∨ account.isActive then account.id else file.activeAccountId

/-- `none` where no account is deleted and nothing is saved. -/
def deleteAccount (accountId : String) : Option AccountsFile :=
  let accounts := file.accounts.filter fun account => account.id ≠ accountId
  if accounts.length = file.accounts.length then none
  else some {
    accounts
    activeAccountId :=
      if file.activeAccountId = accountId then (accounts.head?.map Account.id).getD ""
      else file.activeAccountId }

/-- `none` where no account has this id and nothing is saved. -/
def setActiveAccount (accountId : String) : Option AccountsFile :=
  if file.accounts.any fun account => account.id = accountId then
    some { accounts := activated accountId file.accounts, activeAccountId := accountId }
  else none

/-- `none` where there is no account to swap to. -/
def swapToFallback : Option AccountsFile :=
  file.fallback.map fun account =>
    { accounts := activated account.id file.accounts, activeAccountId := account.id }

/-- `none` below the threshold, and where nothing is rotated. -/
def checkAndRotateBudget (lower : String → String) (totalCost costThreshold : ℚ) : Option AccountsFile :=
  if costThreshold ≤ totalCost then file.rotate lower else none

def getActiveAccount : Option Account :=
  (file.accounts.find? fun account => account.id = file.activeAccountId) <|>
    (file.accounts.find? Account.isActive) <|> file.accounts.head?

/-- The accounts that do not cool and are within their budget. -/
def candidates (cooling : String → Bool) : List Account :=
  file.accounts.filter fun account => account.id ≠ "" ∧ ¬ cooling account.id ∧ account.withinBudget

/-- The candidates of the preferred provider, all of them where it has none. -/
def choices (lower : String → String) (cooling : String → Bool) (preferredProvider : Option String) :
    List Account :=
  let provider := preferredProvider.getD ""
  let preferred := (file.candidates cooling).filter fun account =>
    lower (account.provider.getD "") = lower provider
  if provider ≠ "" ∧ preferred ≠ [] then preferred else file.candidates cooling

/-- The flagged account of the choices, else their first: `none` for a `QuotaExhaustedError`. -/
def getAvailableAccount (lower : String → String) (cooling : String → Bool)
    (preferredProvider : Option String) : Option Account :=
  let choices := file.choices lower cooling preferredProvider
  choices.find? Account.isActive <|> choices.head?

end AccountsFile

/-- A request to the manager of the accounts. -/
inductive AccountOp
  | addAccount (account : Account)
  | deleteAccount (accountId : String)
  | setActiveAccount (accountId : String)
  | swapToFallback
  | checkAndRotateBudget (totalCost costThreshold : ℚ)

namespace AccountsFile

/-- What the file holds after a request. -/
def perform (lower : String → String) (file : AccountsFile) : AccountOp → AccountsFile
  | .addAccount account => file.addAccount account
  | .deleteAccount accountId => (file.deleteAccount accountId).getD file
  | .setActiveAccount accountId => (file.setActiveAccount accountId).getD file
  | .swapToFallback => file.swapToFallback.getD file
  | .checkAndRotateBudget totalCost costThreshold =>
      (file.checkAndRotateBudget lower totalCost costThreshold).getD file

def performAll (lower : String → String) (file : AccountsFile) (ops : List AccountOp) : AccountsFile :=
  ops.foldl (perform lower) file

/-- At most one account is flagged, and it is the first of the active id. -/
structure Consistent (file : AccountsFile) : Prop where
  oneFlagged : file.accounts.countP Account.isActive ≤ 1
  activeFlagged : file.accounts ≠ [] → ∃ account,
    file.accounts.find? (fun account => account.id = file.activeAccountId) = some account ∧
      account.isActive = true

/-! ## The two selectors -/

variable {file : AccountsFile}

/-- A flagged account is the one that the active id names. -/
lemma Consistent.flagged (h : file.Consistent) {account : Account} (hmem : account ∈ file.accounts)
    (hactive : account.isActive = true) :
    file.accounts.find? (fun account => account.id = file.activeAccountId) = some account := by
  obtain ⟨first, hfirst, hflag⟩ := h.activeFlagged (List.ne_nil_of_mem hmem)
  have hlength : (file.accounts.filter Account.isActive).length ≤ 1 := by
    rw [← List.countP_eq_length_filter]
    exact h.oneFlagged
  have hfirstMem : first ∈ file.accounts.filter Account.isActive :=
    List.mem_filter.mpr ⟨List.mem_of_find?_eq_some hfirst, hflag⟩
  have haccountMem : account ∈ file.accounts.filter Account.isActive :=
    List.mem_filter.mpr ⟨hmem, hactive⟩
  obtain ⟨only, honly⟩ := List.length_eq_one_iff.mp
    (le_antisymm hlength (List.length_pos_of_mem hfirstMem))
  rw [honly, List.mem_singleton] at hfirstMem haccountMem
  rw [hfirst, hfirstMem, haccountMem]

lemma Consistent.flagged_id (h : file.Consistent) {account : Account} (hmem : account ∈ file.accounts)
    (hactive : account.isActive = true) : account.id = file.activeAccountId := by
  have hfind := List.find?_some (h.flagged hmem hactive)
  exact of_decide_eq_true hfind

lemma choices_sublist (lower : String → String) (cooling : String → Bool) (provider : Option String) :
    (file.choices lower cooling provider).Sublist file.accounts := by
  unfold choices
  dsimp only
  split_ifs
  · exact List.filter_sublist.trans List.filter_sublist
  · exact List.filter_sublist

/-- The account a router prefers is the active one, and it prefers that one whenever it may choose it. -/
def SelectorsAgree (file : AccountsFile) : Prop :=
  ∀ (lower : String → String) (cooling : String → Bool) (provider : Option String),
    (∀ account, (file.choices lower cooling provider).find? Account.isActive = some account →
      file.getActiveAccount = some account) ∧
    ∀ account, file.getActiveAccount = some account → account ∈ file.choices lower cooling provider →
      file.getAvailableAccount lower cooling provider = some account

lemma Consistent.getActiveAccount_of_flagged (h : file.Consistent) {account : Account}
    (hmem : account ∈ file.accounts) (hactive : account.isActive = true) :
    file.getActiveAccount = some account := by
  unfold getActiveAccount
  rw [h.flagged hmem hactive]
  rfl

lemma Consistent.selectorsAgree (h : file.Consistent) : file.SelectorsAgree := by
  intro lower cooling provider
  have hsub := file.choices_sublist lower cooling provider
  refine ⟨fun account hfind => ?_, fun account hget hmem => ?_⟩
  · exact h.getActiveAccount_of_flagged (hsub.subset (List.mem_of_find?_eq_some hfind))
      (List.find?_some hfind)
  · have hmemFile := hsub.subset hmem
    obtain ⟨first, hfirst, hflag⟩ := h.activeFlagged (List.ne_nil_of_mem hmemFile)
    have hsame := h.getActiveAccount_of_flagged (List.mem_of_find?_eq_some hfirst) hflag
    have heq : first = account := Option.some.inj (hsame.symm.trans hget)
    subst heq
    cases hfind : (file.choices lower cooling provider).find? Account.isActive with
    | none =>
      have hnone := List.find?_eq_none.mp hfind first hmem
      exact absurd hflag hnone
    | some preferred =>
      have hpreferred := h.getActiveAccount_of_flagged
        (hsub.subset (List.mem_of_find?_eq_some hfind)) (List.find?_some hfind)
      unfold getAvailableAccount
      dsimp only
      rw [hfind, ← Option.some.inj (hsame.symm.trans hpreferred)]
      rfl

/-! ## What a request does to the flags -/

lemma find?_put (account : Account) (accounts : List Account) (id : String) :
    (put account accounts).find? (fun a => a.id = id) =
      if account.id = id then some account else accounts.find? fun a => a.id = id := by
  induction accounts with
  | nil => by_cases h : account.id = id <;> simp [put, h]
  | cons acc rest ih =>
    unfold put
    by_cases hsame : acc.id = account.id
    · rw [if_pos hsame]
      by_cases h : account.id = id
      · simp [h]
      · simp [h, hsame]
    · rw [if_neg hsame]
      by_cases h : acc.id = id
      · have hother : account.id ≠ id := fun e => hsame (h.trans e.symm)
        simp [h, hother]
      · simp only [h, List.find?_cons, decide_false]
        exact ih

/-- The flag of a new account counts instead of the one it replaces. -/
lemma countP_put (account : Account) (accounts : List Account) :
    (put account accounts).countP Account.isActive +
        (if (accounts.find? fun a => a.id = account.id).any Account.isActive then 1 else 0) =
      accounts.countP Account.isActive + if account.isActive then 1 else 0 := by
  induction accounts with
  | nil => simp [put]
  | cons acc rest ih =>
    unfold put
    by_cases hsame : acc.id = account.id
    · rw [if_pos hsame]
      simp only [List.countP_cons, List.find?_cons, hsame, decide_true, Option.any_some]
      omega
    · rw [if_neg hsame]
      simp only [List.countP_cons, List.find?_cons, hsame, decide_false]
      omega

lemma put_ne_nil (account : Account) (accounts : List Account) : put account accounts ≠ [] := by
  cases accounts with
  | nil => simp [put]
  | cons acc rest =>
    unfold put
    split_ifs <;> simp

lemma countP_activated (id : String) (accounts : List Account) :
    (activated id accounts).countP Account.isActive = accounts.countP fun account => account.id = id := by
  unfold activated
  rw [List.countP_map]
  rfl

lemma find?_activated (id : String) (accounts : List Account) :
    (activated id accounts).find? (fun account => account.id = id) =
      (accounts.find? fun account => account.id = id).map fun account =>
        { account with isActive := account.id = id } := by
  unfold activated
  rw [List.find?_map]
  rfl

/-- After the accounts of one id are flagged, that one is active where it is a single account. -/
lemma activated_consistent_iff {id : String} {accounts : List Account}
    (h : ∃ account ∈ accounts, account.id = id) :
    Consistent { accounts := activated id accounts, activeAccountId := id } ↔
      accounts.countP (fun account => account.id = id) ≤ 1 := by
  obtain ⟨account, hmem, hid⟩ := h
  constructor
  · intro hconsistent
    have hone := hconsistent.oneFlagged
    rwa [countP_activated] at hone
  · intro hone
    refine ⟨?_, fun _ => ?_⟩
    · rw [countP_activated]
      exact hone
    · cases hfind : accounts.find? fun account => account.id = id with
      | none =>
        have hnone := List.find?_eq_none.mp hfind account hmem
        simp [hid] at hnone
      | some first =>
        have hflag := List.find?_some hfind
        refine ⟨{ first with isActive := first.id = id }, ?_, hflag⟩
        dsimp only
        rw [find?_activated, hfind]
        rfl

/-- The ids and the flags of the accounts. -/
def flags (accounts : List Account) : List (String × Bool) :=
  accounts.map fun account => (account.id, account.isActive)

/-- Which accounts are flagged and which one is active is read from the flags. -/
lemma consistent_iff_flags :
    file.Consistent ↔ (flags file.accounts).countP Prod.snd ≤ 1 ∧
      (flags file.accounts ≠ [] → ∃ flag,
        (flags file.accounts).find? (fun flag => flag.1 = file.activeAccountId) = some flag ∧
          flag.2 = true) := by
  have hcount : (flags file.accounts).countP Prod.snd = file.accounts.countP Account.isActive := by
    unfold flags
    rw [List.countP_map]
    rfl
  have hfind : (flags file.accounts).find? (fun flag => flag.1 = file.activeAccountId) =
      (file.accounts.find? fun account => account.id = file.activeAccountId).map fun account =>
        (account.id, account.isActive) := by
    unfold flags
    rw [List.find?_map]
    rfl
  have hnil : flags file.accounts ≠ [] ↔ file.accounts ≠ [] := by
    simp [flags]
  rw [hcount, hfind, hnil]
  constructor
  · rintro ⟨hone, hactive⟩
    refine ⟨hone, fun hne => ?_⟩
    obtain ⟨account, hfirst, hflag⟩ := hactive hne
    exact ⟨(account.id, account.isActive), by rw [hfirst]; rfl, hflag⟩
  · rintro ⟨hone, hactive⟩
    refine ⟨hone, fun hne => ?_⟩
    obtain ⟨flag, hfirst, hflag⟩ := hactive hne
    obtain ⟨account, hfound, rfl⟩ := Option.map_eq_some_iff.mp hfirst
    exact ⟨account, hfound, hflag⟩

/-- A smaller model leaves the ids and the flags alone. -/
lemma downscale_flags {lower : String → String} {activeId : String} {accounts downscaled : List Account}
    (h : downscale lower activeId accounts = some downscaled) : flags downscaled = flags accounts := by
  induction accounts generalizing downscaled with
  | nil => simp [downscale] at h
  | cons account rest ih =>
    unfold downscale at h
    split_ifs at h with hpro
    · rw [← Option.some.inj h]
      rfl
    · obtain ⟨tail, htail, rfl⟩ := Option.map_eq_some_iff.mp h
      exact congrArg (List.cons (account.id, account.isActive)) (ih htail)

/-! ## One request -/

/-- The fallback is a single account. -/
def FallbackSingle (file : AccountsFile) : Prop :=
  ∀ fallback, file.fallback = some fallback →
    file.accounts.countP (fun account => account.id = fallback.id) ≤ 1

/-- The requests that flag the account they make active and no other: an account that is added is flagged
if and only if it is the active one, the active account is not deleted while there is another one, and an
account that is activated is a single one. -/
def Keeps (lower : String → String) (file : AccountsFile) : AccountOp → Prop
  | .addAccount account =>
      if file.accounts = [] ∨ account.id = file.activeAccountId then account.isActive = true
      else account.isActive = false ∧ file.activeAccountId ≠ ""
  | .deleteAccount accountId =>
      accountId = file.activeAccountId → ∀ account ∈ file.accounts, account.id = accountId
  | .setActiveAccount accountId => file.accounts.countP (fun account => account.id = accountId) ≤ 1
  | .swapToFallback => file.FallbackSingle
  | .checkAndRotateBudget totalCost costThreshold =>
      costThreshold ≤ totalCost → downscale lower file.activeAccountId file.accounts = none →
        file.FallbackSingle

/-- An added account is flagged where the first of its id is the active one. -/
lemma activeFlagged_addAccount_of_id {account : Account}
    (hid : (file.addAccount account).activeAccountId = account.id) :
    ((file.addAccount account).accounts ≠ [] → ∃ first,
        (file.addAccount account).accounts.find?
          (fun a => a.id = (file.addAccount account).activeAccountId) = some first ∧
            first.isActive = true) ↔ account.isActive = true := by
  have hfind : (file.addAccount account).accounts.find? (fun a => a.id = account.id) =
      some account.withDefaults := by
    unfold addAccount
    rw [find?_put]
    exact if_pos rfl
  rw [hid, hfind]
  constructor
  · intro h
    obtain ⟨first, hfirst, hflag⟩ := h (put_ne_nil _ _)
    rw [← Option.some.inj hfirst] at hflag
    exact hflag
  · intro hactive _
    exact ⟨_, rfl, hactive⟩

/-- Which account the first account of an id is after an account of another id was added. -/
lemma find?_addAccount_of_ne {account : Account} {id : String} (hid : account.id ≠ id) :
    (file.addAccount account).accounts.find? (fun a => a.id = id) =
      file.accounts.find? fun a => a.id = id := by
  unfold addAccount
  rw [find?_put]
  exact if_neg hid

lemma Consistent.countP_eq_one (h : file.Consistent) (hne : file.accounts ≠ []) :
    file.accounts.countP Account.isActive = 1 := by
  obtain ⟨first, hfirst, hflag⟩ := h.activeFlagged hne
  have hpos := List.countP_pos_iff.mpr ⟨first, List.mem_of_find?_eq_some hfirst, hflag⟩
  exact le_antisymm h.oneFlagged hpos

/-- An account that takes the place of the flagged one, or is the first, is flagged alone if at all. -/
lemma countP_addAccount_of_id (h : file.Consistent) {account : Account}
    (hplace : file.accounts = [] ∨ account.id = file.activeAccountId) :
    (file.addAccount account).accounts.countP Account.isActive = if account.isActive then 1 else 0 := by
  have hcount : (file.addAccount account).accounts.countP Account.isActive +
      (if (file.accounts.find? fun a => a.id = account.id).any Account.isActive then 1 else 0) =
        file.accounts.countP Account.isActive + if account.isActive then 1 else 0 :=
    countP_put account.withDefaults file.accounts
  by_cases hnil : file.accounts = []
  · simpa [hnil] using hcount
  · obtain ⟨first, hfirst, hflag⟩ := h.activeFlagged hnil
    rw [hplace.resolve_left hnil, hfirst, Option.any_some, if_pos hflag, h.countP_eq_one hnil] at hcount
    omega

/-- An account of another id is flagged beside the active one. -/
lemma countP_addAccount_of_ne (h : file.Consistent) (hnil : file.accounts ≠ []) {account : Account}
    (hid : account.id ≠ file.activeAccountId) :
    (file.addAccount account).accounts.countP Account.isActive =
      1 + if account.isActive then 1 else 0 := by
  have hcount : (file.addAccount account).accounts.countP Account.isActive +
      (if (file.accounts.find? fun a => a.id = account.id).any Account.isActive then 1 else 0) =
        file.accounts.countP Account.isActive + if account.isActive then 1 else 0 :=
    countP_put account.withDefaults file.accounts
  have hold : (file.accounts.find? fun a => a.id = account.id).any Account.isActive = false := by
    cases hfind : file.accounts.find? fun a => a.id = account.id with
    | none => rfl
    | some old =>
      rw [Option.any_some, Bool.eq_false_iff]
      intro hactive
      have hactiveId := h.flagged_id (List.mem_of_find?_eq_some hfind) hactive
      have holdId := List.find?_some hfind
      exact hid ((of_decide_eq_true holdId).symm.trans hactiveId)
  rw [hold, h.countP_eq_one hnil] at hcount
  simpa using hcount

lemma addAccount_consistent_iff (h : file.Consistent) (account : Account) :
    (file.addAccount account).Consistent ↔ if file.accounts = [] ∨ account.id = file.activeAccountId then
      account.isActive = true else account.isActive = false ∧ file.activeAccountId ≠ "" := by
  have hne : (file.addAccount account).accounts ≠ [] := put_ne_nil _ _
  split_ifs with hplace
  · have hcount := countP_addAccount_of_id h hplace
    constructor
    · intro hconsistent
      by_contra hactive
      rw [if_neg hactive, hconsistent.countP_eq_one hne] at hcount
      exact one_ne_zero hcount
    · intro hactive
      have hid : (file.addAccount account).activeAccountId = account.id := if_pos (.inr hactive)
      refine ⟨?_, (activeFlagged_addAccount_of_id hid).mpr hactive⟩
      rw [hcount, if_pos hactive]
  · obtain ⟨hnil, hother⟩ := not_or.mp hplace
    have hcount := countP_addAccount_of_ne h hnil hother
    cases hactive : account.isActive with
    | true =>
      refine iff_of_false ?_ (by simp)
      intro hconsistent
      rw [hconsistent.countP_eq_one hne, hactive] at hcount
      simp at hcount
    | false =>
      rw [hactive] at hcount
      by_cases hempty : file.activeAccountId = ""
      · have hid : (file.addAccount account).activeAccountId = account.id := if_pos (.inl hempty)
        refine iff_of_false ?_ fun hkept => hkept.2 hempty
        intro hconsistent
        have hflagged := (activeFlagged_addAccount_of_id hid).mp hconsistent.activeFlagged
        rw [hactive] at hflagged
        exact Bool.false_ne_true hflagged
      · have hid : (file.addAccount account).activeAccountId = file.activeAccountId :=
          if_neg (by simp [hempty, hactive])
        refine iff_of_true ⟨?_, fun _ => ?_⟩ ⟨rfl, hempty⟩
        · rw [hcount]
          simp
        · obtain ⟨first, hfirst, hflag⟩ := h.activeFlagged hnil
          refine ⟨first, ?_, hflag⟩
          rw [hid, find?_addAccount_of_ne hother]
          exact hfirst

/-- An account that is not the active one is deleted beside it. -/
lemma consistent_filter (h : file.Consistent) {accountId : String} (hid : accountId ≠ file.activeAccountId) :
    Consistent { file with accounts := file.accounts.filter fun account => account.id ≠ accountId } := by
  refine ⟨List.filter_sublist.countP_le.trans h.oneFlagged, fun hne => ?_⟩
  obtain ⟨account, hmem⟩ := List.exists_mem_of_ne_nil _ hne
  obtain ⟨first, hfirst, hflag⟩ := h.activeFlagged (List.ne_nil_of_mem (List.mem_filter.mp hmem).1)
  refine ⟨first, ?_, hflag⟩
  dsimp only
  rw [List.find?_filter, ← hfirst]
  congr 1
  funext a
  by_cases ha : a.id = file.activeAccountId
  · simp [ha, Ne.symm hid]
  · simp [ha]

/-- Without the active account no account is flagged. -/
lemma consistent_filter_active_iff (h : file.Consistent) (id : String) :
    Consistent {
        accounts := file.accounts.filter fun account => account.id ≠ file.activeAccountId
        activeAccountId := id } ↔ ∀ account ∈ file.accounts, account.id = file.activeAccountId := by
  constructor
  · intro hconsistent account hmem
    by_contra hother
    have hmemFilter : account ∈ file.accounts.filter fun account => account.id ≠ file.activeAccountId :=
      List.mem_filter.mpr ⟨hmem, by simpa using hother⟩
    obtain ⟨first, hfirst, hflag⟩ := hconsistent.activeFlagged (List.ne_nil_of_mem hmemFilter)
    obtain ⟨hfirstMem, hfirstId⟩ := List.mem_filter.mp (List.mem_of_find?_eq_some hfirst)
    have hactiveId := h.flagged_id hfirstMem hflag
    simp [hactiveId] at hfirstId
  · intro hall
    have hnil : (file.accounts.filter fun account => account.id ≠ file.activeAccountId) = [] := by
      rw [List.filter_eq_nil_iff]
      intro account hmem
      simpa using hall account hmem
    rw [hnil]
    exact ⟨Nat.zero_le 1, fun hne => absurd rfl hne⟩

lemma deleteAccount_consistent_iff (h : file.Consistent) (accountId : String) :
    ((file.deleteAccount accountId).getD file).Consistent ↔
      (accountId = file.activeAccountId → ∀ account ∈ file.accounts, account.id = accountId) := by
  unfold deleteAccount
  dsimp only
  split_ifs with hlength hactive
  · -- no account has this id, so the active one has it only where there is none
    have hkept := List.length_filter_eq_length_iff.mp hlength
    refine iff_of_true h ?_
    rintro rfl account hmem
    obtain ⟨first, hfirst, -⟩ := h.activeFlagged (List.ne_nil_of_mem hmem)
    have hid := List.find?_some hfirst
    have hother := hkept first (List.mem_of_find?_eq_some hfirst)
    exact absurd (of_decide_eq_true hid) (of_decide_eq_true hother)
  · subst hactive
    rw [Option.getD_some, consistent_filter_active_iff h]
    exact ⟨fun hall _ => hall, fun hall => hall rfl⟩
  · refine iff_of_true (consistent_filter h (Ne.symm hactive)) ?_
    intro hid
    exact absurd hid.symm hactive

lemma setActiveAccount_consistent_iff (h : file.Consistent) (accountId : String) :
    ((file.setActiveAccount accountId).getD file).Consistent ↔
      file.accounts.countP (fun account => account.id = accountId) ≤ 1 := by
  unfold setActiveAccount
  split_ifs with hany
  · obtain ⟨account, hmem, hid⟩ := List.any_eq_true.mp hany
    exact activated_consistent_iff ⟨account, hmem, of_decide_eq_true hid⟩
  · have hzero : file.accounts.countP (fun account => account.id = accountId) = 0 := by
      rw [List.countP_eq_zero]
      intro account hmem hid
      exact hany (List.any_eq_true.mpr ⟨account, hmem, hid⟩)
    rw [Option.getD_none, hzero]
    exact iff_of_true h (Nat.zero_le 1)

lemma swapToFallback_consistent_iff (h : file.Consistent) :
    (file.swapToFallback.getD file).Consistent ↔ file.FallbackSingle := by
  unfold swapToFallback FallbackSingle
  cases hfallback : file.fallback with
  | none =>
    refine iff_of_true h ?_
    intro fallback hnone
    exact absurd hnone (by simp)
  | some fallback =>
    have hmem := List.mem_of_find?_eq_some hfallback
    rw [Option.map_some, Option.getD_some, activated_consistent_iff ⟨fallback, hmem, rfl⟩]
    simp

lemma checkAndRotateBudget_consistent_iff (h : file.Consistent) (lower : String → String)
    (totalCost costThreshold : ℚ) :
    ((file.checkAndRotateBudget lower totalCost costThreshold).getD file).Consistent ↔
      (costThreshold ≤ totalCost → downscale lower file.activeAccountId file.accounts = none →
        file.FallbackSingle) := by
  unfold checkAndRotateBudget
  split_ifs with hover
  · unfold rotate
    cases hdown : downscale lower file.activeAccountId file.accounts with
    | none =>
      have hswap := swapToFallback_consistent_iff h
      unfold swapToFallback activated at hswap
      simpa [hover] using hswap
    | some accounts =>
      refine iff_of_true ?_ (by simp)
      rw [Option.getD_some, consistent_iff_flags]
      rw [consistent_iff_flags] at h
      dsimp only
      rw [downscale_flags hdown]
      exact h
  · exact iff_of_true h fun habove => absurd habove hover

lemma perform_consistent_iff (h : file.Consistent) (lower : String → String) (op : AccountOp) :
    (perform lower file op).Consistent ↔ Keeps lower file op := by
  cases op with
  | addAccount account => exact addAccount_consistent_iff h account
  | deleteAccount accountId => exact deleteAccount_consistent_iff h accountId
  | setActiveAccount accountId => exact setActiveAccount_consistent_iff h accountId
  | swapToFallback => exact swapToFallback_consistent_iff h
  | checkAndRotateBudget totalCost costThreshold =>
    exact checkAndRotateBudget_consistent_iff h lower totalCost costThreshold

/-! ## A run -/

/-- Every request of a run keeps the active account flagged. -/
def KeepsAll (lower : String → String) : AccountsFile → List AccountOp → Prop
  | _, [] => True
  | file, op :: rest => Keeps lower file op ∧ KeepsAll lower (perform lower file op) rest

/-- From a consistent file on, every file of a run is consistent, and the two selectors agree on it, if and
only if every request keeps the active account flagged. -/
theorem performAll_consistent_iff (lower : String → String) (h : file.Consistent) (ops : List AccountOp) :
    (∀ earlier, earlier <+: ops → (performAll lower file earlier).Consistent ∧
        (performAll lower file earlier).SelectorsAgree) ↔ KeepsAll lower file ops := by
  induction ops generalizing file with
  | nil =>
    refine iff_of_true ?_ trivial
    intro earlier hprefix
    rw [List.prefix_nil.mp hprefix]
    exact ⟨h, h.selectorsAgree⟩
  | cons op rest ih =>
    have hstep := perform_consistent_iff h lower op
    constructor
    · intro hall
      have hnext := (hall [op] ⟨rest, rfl⟩).1
      refine ⟨hstep.mp hnext, (ih hnext).mp fun earlier hprefix => ?_⟩
      exact hall (op :: earlier) (List.cons_prefix_cons.mpr ⟨rfl, hprefix⟩)
    · rintro ⟨hkeeps, hrest⟩ earlier hprefix
      cases earlier with
      | nil => exact ⟨h, h.selectorsAgree⟩
      | cons first earlier =>
        obtain ⟨rfl, htail⟩ := List.cons_prefix_cons.mp hprefix
        exact (ih (hstep.mpr hkeeps)).mpr hrest earlier htail

/-- Two accounts, the first of them active. -/
def twoAccounts : AccountsFile where
  accounts := [{ id := "a", isActive := true }, { id := "b" }]
  activeAccountId := "a"

lemma twoAccounts_consistent : twoAccounts.Consistent :=
  ⟨by decide, fun _ => ⟨{ id := "a", isActive := true }, by decide, rfl⟩⟩

/-- The second account is activated, and then the first one deleted. -/
theorem activated_and_deleted :
    (performAll id twoAccounts [.setActiveAccount "b", .deleteAccount "a"]).Consistent ∧
      (performAll id twoAccounts [.setActiveAccount "b", .deleteAccount "a"]).SelectorsAgree :=
  (performAll_consistent_iff id twoAccounts_consistent [.setActiveAccount "b", .deleteAccount "a"]).mpr
    ⟨by unfold Keeps; decide, by unfold Keeps; decide, trivial⟩ _ List.prefix_rfl

/-- An account that is added with its flag is active beside the one that was, and the selectors disagree;
the active account deleted, no account is flagged. -/
theorem added_beside_active :
    twoAccounts.Consistent ∧
      ¬ (perform id twoAccounts (.addAccount { id := "c", isActive := true })).Consistent ∧
      ¬ (perform id twoAccounts (.addAccount { id := "c", isActive := true })).SelectorsAgree ∧
      ¬ (perform id twoAccounts (.deleteAccount "a")).Consistent := by
  refine ⟨twoAccounts_consistent, fun h => ?_, fun h => ?_, fun h => ?_⟩
  · exact absurd h.oneFlagged (by decide)
  · have hfirst := (h id (fun _ => false) none).1 { id := "a", isActive := true } (by decide)
    exact absurd hfirst (by decide)
  · obtain ⟨first, hfirst, hflag⟩ := h.activeFlagged (by decide)
    have hb : first = { id := "b" } := Option.some.inj (hfirst.symm.trans (by decide))
    rw [hb] at hflag
    exact absurd hflag (by decide)

end AccountsFile

end AgentSystem.Usage
