import AgentSystem.AccountUsage
import AgentSystem.ChargedOnce
import Mathlib.Algebra.BigOperators.Fin
import Mathlib.Tactic.Ring

/-!
# Usage accounting

The tokens of the accounts are those of the ledger plus what saved calls have not yet recorded, as long as
no save overwrites a newer count, no key of a saved call is in the ledger already, and no call stops
between its save and its transaction.
-/
namespace AgentSystem.Usage

open Interleaving Charges

/-! ## The file -/

section File

variable {file file' : AccountsFile} {accounts accounts' : List Account} {id other : String}

/-- The count of an account in a list of accounts. -/
def countOf (accounts : List Account) (id : String) : ℤ :=
  ((accounts.find? fun account => account.id = id).bind Account.tokensUsed).getD 0

lemma countOf_cons (account : Account) (rest : List Account) (id : String) :
    countOf (account :: rest) id =
      if account.id = id then account.tokensUsed.getD 0 else countOf rest id := by
  unfold countOf
  rw [List.find?_cons]
  by_cases h : account.id = id
  · simp [h]
  · simp [h]

/-- Only the account that gets the tokens has a new count. -/
lemma addTokens_countOf {tokens : ℤ} {account : Account}
    (h : AccountsFile.addTokens id tokens accounts = some (accounts', account)) (other : String) :
    countOf accounts' other = countOf accounts other + if id = other then tokens else 0 := by
  induction accounts generalizing accounts' with
  | nil => cases h
  | cons first rest ih =>
      rw [AccountsFile.addTokens] at h
      split_ifs at h with hid
      · obtain ⟨rfl, _⟩ := Prod.mk.inj (Option.some.inj h)
        rw [countOf_cons, countOf_cons]
        dsimp only
        rw [hid]
        split_ifs
        · rw [Option.getD_some]
        · rw [add_zero]
      · obtain ⟨⟨rest', found⟩, hrest, hpair⟩ := Option.map_eq_some_iff.mp h
        obtain ⟨rfl, rfl⟩ := Prod.mk.inj hpair
        rw [countOf_cons, countOf_cons, ih hrest]
        by_cases hother : first.id = other
        · rw [if_pos hother, if_pos hother, if_neg fun heq => hid (hother.trans heq.symm), add_zero]
        · rw [if_neg hother, if_neg hother]

lemma charge_tokensUsed {tokens : ℤ} {provider model : String}
    (h : file.charge id tokens = some (file', provider, model)) (other : String) :
    file'.tokensUsed other = file.tokensUsed other + if id = other then tokens else 0 := by
  obtain ⟨⟨accounts, account⟩, hadded, heq⟩ := Option.map_eq_some_iff.mp h
  obtain ⟨rfl, _⟩ := Prod.mk.inj heq
  exact addTokens_countOf hadded other

lemma downscale_countOf {lower : String → String}
    (h : AccountsFile.downscale lower id accounts = some accounts') (other : String) :
    countOf accounts' other = countOf accounts other := by
  induction accounts generalizing accounts' with
  | nil => cases h
  | cons first rest ih =>
      rw [AccountsFile.downscale] at h
      split_ifs at h
      · obtain rfl := Option.some.inj h
        rw [countOf_cons, countOf_cons]
      · obtain ⟨rest', hrest, rfl⟩ := Option.map_eq_some_iff.mp h
        rw [countOf_cons, countOf_cons, ih hrest]

lemma countOf_map (change : Account → Account) (hid : ∀ account, (change account).id = account.id)
    (htokens : ∀ account, (change account).tokensUsed = account.tokensUsed) (id : String) :
    countOf (accounts.map change) id = countOf accounts id := by
  induction accounts with
  | nil => rfl
  | cons first rest ih => rw [List.map_cons, countOf_cons, countOf_cons, hid, htokens, ih]

/-- A rotation leaves every count as it is. -/
lemma rotate_tokensUsed {lower : String → String} (h : file.rotate lower = some file')
    (other : String) : file'.tokensUsed other = file.tokensUsed other := by
  unfold AccountsFile.rotate at h
  split at h
  next accounts hdownscale =>
    obtain rfl := Option.some.inj h
    exact downscale_countOf hdownscale other
  · obtain ⟨fallback, _, rfl⟩ := Option.map_eq_some_iff.mp h
    exact countOf_map (fun account => { account with isActive := account.id = fallback.id })
      (fun _ => rfl) (fun _ => rfl) other

end File

/-! ## The ledger -/

/-- The tokens in the rows of an account. -/
def ledgerTokens (db : Database) (accountId : String) : ℤ :=
  ((db.rows.filter fun row => row.accountId = accountId).map LedgerRow.totalTokens).sum

/-- The tokens of a transaction. -/
def transactionTokens (t : Transaction) : ℤ := t.promptTokens + t.completionTokens

lemma ledgerTokens_insert {lower : String → String} {db inserted : Database} {t : Transaction}
    (h : db.insertRow (t.row lower) = some inserted) (id : String) :
    ledgerTokens ((inserted.ensureBudget t.tenantId).deduct t.tenantId (t.row lower).cost) id =
      ledgerTokens db id + if t.accountId = id then transactionTokens t else 0 := by
  have hrows : ((inserted.ensureBudget t.tenantId).deduct t.tenantId (t.row lower).cost).rows =
      db.rows ++ [t.row lower] := by
    have hinserted := (insertRow_eq_some h).2
    rw [Database.deduct, ensureBudget_rows, hinserted]
  unfold ledgerTokens
  rw [hrows, List.filter_append, List.map_append, List.sum_append, List.filter_singleton]
  by_cases hid : t.accountId = id
  · simp [hid, Transaction.row, transactionTokens]
  · simp [hid, Transaction.row]

/-! ## The calls -/

/-- What a saved call has still to record for an account. -/
def owed (id : String) : Phase → ℤ
  | .saved t | .looked t => if t.accountId = id then transactionTokens t else 0
  | _ => 0

/-- The ledger has no row of the key of this transaction. -/
def NewKey (db : Database) (t : Transaction) : Prop :=
  ∀ key ∈ t.idempotencyKey, db.keyed t.tenantId key = []

lemma recordedCost_of_new {db : Database} {t : Transaction} (h : NewKey db t) :
    db.recordedCost t = none := by
  unfold Database.recordedCost
  split
  · rfl
  next key hkey =>
    rw [h key hkey]
    split_ifs <;> rfl

lemma insertRow_of_new {lower : String → String} {db : Database} {t : Transaction}
    (h : NewKey db t) :
    db.insertRow (t.row lower) = some { db with rows := db.rows ++ [t.row lower] } := by
  unfold Database.insertRow
  rw [if_neg]
  rintro ⟨key, hkey, hne⟩
  exact hne (h key hkey)

section Steps

variable {ι : Type}

/-- A save overwrites no newer count, a saved call of some tokens finds its key new, and no such call
stops. -/
def Undisturbed (settings : Settings) (s : World ι Store Phase) (i : ι) : Input → Prop
  | .enter _ => True
  | .advance =>
      match s.proc i with
      | .loaded call read => (read.charge call.target call.tokens).isSome →
          ∀ id, s.store.file.tokensUsed id = read.tokensUsed id
      | .rotating read => (read.rotate settings.lower).isSome →
          ∀ id, s.store.file.tokensUsed id = read.tokensUsed id
      | .saved t | .looked t => transactionTokens t ≠ 0 → NewKey s.store.ledger t
      | _ => True
  | .crash => ∀ id, owed id (s.proc i) = 0

/-- What a step adds to a count is what it adds to the ledger and to what its call owes. -/
theorem step_balance {settings : Settings} {s : World ι Store Phase} {i : ι} {input : Input}
    {store : Store} {phase : Phase} (hcondition : Undisturbed settings s i input)
    (h : next settings input s.store (s.proc i) = some (store, phase)) (id : String) :
    store.file.tokensUsed id + ledgerTokens s.store.ledger id + owed id (s.proc i) =
      s.store.file.tokensUsed id + ledgerTokens store.ledger id + owed id phase := by
  cases input with
  | enter call =>
      cases hproc : s.proc i <;> rw [hproc] at h <;> cases h
      rfl
  | crash =>
      have howed := hcondition id
      cases hproc : s.proc i <;> rw [hproc] at h howed <;> cases h
      all_goals rw [howed]; rfl
  | advance =>
      unfold Undisturbed at hcondition
      cases hproc : s.proc i with
      | «over» result =>
          rw [hproc] at h
          cases h
      | entered call =>
          rw [hproc] at h
          obtain ⟨rfl, rfl⟩ := Prod.mk.inj (Option.some.inj h)
          split_ifs <;> rfl
      | checked call =>
          rw [hproc] at h
          cases h
          rfl
      | loaded call read =>
          rw [hproc] at h hcondition
          cases hcharge : read.charge call.target call.tokens with
          | none =>
              simp only [next, hcharge] at h
              cases h
              rfl
          | some charged =>
              obtain ⟨file, provider, model⟩ := charged
              simp only [next, hcharge] at h
              cases h
              have hsame : s.store.file.tokensUsed id = read.tokensUsed id :=
                hcondition (by rw [hcharge]; rfl) id
              have hcount := charge_tokensUsed hcharge id
              change file.tokensUsed id + ledgerTokens s.store.ledger id + 0 =
                s.store.file.tokensUsed id + ledgerTokens s.store.ledger id +
                  if call.target = id then call.tokens else 0
              rw [hcount, hsame]
              ring
      | saved t =>
          rw [hproc] at h hcondition
          have hnew : transactionTokens t ≠ 0 → NewKey s.store.ledger t := hcondition
          cases hlookup : s.store.ledger.recordedCost t with
          | none =>
              simp only [next, hlookup] at h
              cases h
              rfl
          | some cost =>
              simp only [next, hlookup] at h
              cases h
              have hzero : transactionTokens t = 0 := by
                by_contra hne
                rw [recordedCost_of_new (hnew hne)] at hlookup
                cases hlookup
              change _ + _ + (if t.accountId = id then transactionTokens t else 0) = _ + _ + 0
              rw [hzero, ite_self]
      | looked t =>
          rw [hproc] at h hcondition
          have hnew : transactionTokens t ≠ 0 → NewKey s.store.ledger t := hcondition
          cases hinsert : s.store.ledger.insertRow (t.row settings.lower) with
          | none =>
              simp only [next, hinsert] at h
              cases h
              have hzero : transactionTokens t = 0 := by
                by_contra hne
                rw [insertRow_of_new (hnew hne)] at hinsert
                cases hinsert
              change _ + _ + (if t.accountId = id then transactionTokens t else 0) = _ + _ + 0
              rw [hzero, ite_self]
          | some db =>
              simp only [next, hinsert] at h
              cases h
              have hledger := ledgerTokens_insert hinsert id
              change s.store.file.tokensUsed id + ledgerTokens s.store.ledger id +
                (if t.accountId = id then transactionTokens t else 0) = s.store.file.tokensUsed id +
                ledgerTokens ((db.ensureBudget t.tenantId).deduct t.tenantId
                  (t.row settings.lower).cost) id + 0
              rw [hledger]
              ring
      | recorded =>
          rw [hproc] at h
          obtain ⟨rfl, rfl⟩ := Prod.mk.inj (Option.some.inj h)
          split_ifs <;> rfl
      | exceeded =>
          rw [hproc] at h
          cases h
          rfl
      | rotating read =>
          rw [hproc] at h hcondition
          cases hrotate : read.rotate settings.lower with
          | none =>
              simp only [next, hrotate] at h
              cases h
              rfl
          | some file =>
              simp only [next, hrotate] at h
              cases h
              have hsame : s.store.file.tokensUsed id = read.tokensUsed id :=
                hcondition (by rw [hrotate]; rfl) id
              have hcount := rotate_tokensUsed hrotate id
              change file.tokensUsed id + ledgerTokens s.store.ledger id + 0 =
                s.store.file.tokensUsed id + ledgerTokens s.store.ledger id + 0
              rw [hcount, hsame]

end Steps

section Runs

variable {ι : Type} [DecidableEq ι] [Fintype ι]

/-- What the calls still have to record for an account. -/
def outstanding (s : World ι Store Phase) (id : String) : ℤ := ∑ i, owed id (s.proc i)

lemma outstanding_update (store : Store) (proc : ι → Phase) (i : ι) (phase : Phase) (id : String) :
    outstanding ⟨store, Function.update proc i phase⟩ id + owed id (proc i) =
      outstanding ⟨store, proc⟩ id + owed id phase := by
  unfold outstanding
  have hothers : ∑ j ∈ Finset.univ.erase i, owed id (Function.update proc i phase j) =
      ∑ j ∈ Finset.univ.erase i, owed id (proc j) := by
    refine Finset.sum_congr rfl fun j hj => ?_
    rw [Function.update_of_ne (Finset.ne_of_mem_erase hj)]
  rw [← Finset.add_sum_erase _ _ (Finset.mem_univ i),
    ← Finset.add_sum_erase _ _ (Finset.mem_univ i)]
  dsimp only
  rw [Function.update_self, hothers]
  ring

/-- The counts are those of the start with what has been recorded since, or has still to be. -/
def Balanced (start s : World ι Store Phase) : Prop :=
  ∀ id, s.store.file.tokensUsed id + ledgerTokens start.store.ledger id =
    start.store.file.tokensUsed id + ledgerTokens s.store.ledger id + outstanding s id

/-- An undisturbed run that begins and ends with no call under way: the count of every account has grown
by the tokens of its new rows. -/
theorem usage_accounted (settings : Settings) {start s : World ι Store Phase}
    {actions : List (ι × Input)} (hstart : ∀ i, ∃ result, start.proc i = .over result)
    (hrun : start.run (next settings) actions = some s)
    (hundisturbed : start.Throughout (next settings) (Undisturbed settings) actions) :
    Balanced start s ∧ ((∀ i, ∃ result, s.proc i = .over result) →
      ∀ id, s.store.file.tokensUsed id + ledgerTokens start.store.ledger id =
        start.store.file.tokensUsed id + ledgerTokens s.store.ledger id) := by
  have hover : ∀ s : World ι Store Phase, (∀ i, ∃ result, s.proc i = .over result) →
      ∀ id, outstanding s id = 0 := by
    intro s hs id
    refine Finset.sum_eq_zero fun i _ => ?_
    obtain ⟨result, hresult⟩ := hs i
    rw [hresult]
    rfl
  have hbalanced : Balanced start s := by
    refine run_induction (I := Balanced start) ?_ ?_ hrun hundisturbed
    · intro s i input s' hs hcondition hstep id
      obtain ⟨store, phase, hnext, rfl⟩ := step_eq_some hstep
      have hbalance := step_balance hcondition hnext id
      have hupdate := outstanding_update store s.proc i phase id
      have hbefore := hs id
      have hsame : outstanding ⟨store, s.proc⟩ id = outstanding s id := rfl
      dsimp only
      linarith
    · intro id
      rw [hover start hstart id, add_zero]
  refine ⟨hbalanced, fun hs id => ?_⟩
  have hfinal := hbalanced id
  rwa [hover s hs id, add_zero] at hfinal

end Runs

/-! ## A run on its own -/

section Careful

variable {ι : Type}

/-- Each save finds the file as its call has loaded it, a saved call finds its key new, and none stops. -/
def Careful (s : World ι Store Phase) (i : ι) : Input → Prop
  | .enter _ => True
  | .advance =>
      match s.proc i with
      | .loaded _ read | .rotating read => s.store.file = read
      | .saved t | .looked t => NewKey s.store.ledger t
      | _ => True
  | .crash => False

instance (db : Database) (t : Transaction) : Decidable (NewKey db t) :=
  inferInstanceAs (Decidable (∀ _ ∈ _, _))

instance (s : World ι Store Phase) (i : ι) (input : Input) : Decidable (Careful s i input) := by
  unfold Careful
  split
  · infer_instance
  · split <;> infer_instance
  · infer_instance

lemma Careful.undisturbed (settings : Settings) {s : World ι Store Phase} {i : ι} {input : Input}
    (h : Careful s i input) : Undisturbed settings s i input := by
  cases input with
  | enter call => trivial
  | crash => exact h.elim
  | advance =>
      unfold Careful at h
      unfold Undisturbed
      dsimp only at h ⊢
      split
      next hproc =>
        rw [hproc] at h
        exact fun _ id => by rw [h]
      next hproc =>
        rw [hproc] at h
        exact fun _ id => by rw [h]
      next hproc =>
        rw [hproc] at h
        exact fun _ => h
      next hproc =>
        rw [hproc] at h
        exact fun _ => h
      · trivial

end Careful

/-- One account, no rows and no calls. -/
def oneAccount : World Bool Store Phase :=
  ⟨{ file := { accounts := [{ id := "main" }], activeAccountId := "main" } }, fun _ => .over none⟩

def usageOf (tokens : ℤ) (usageId : Option String) : Call :=
  { args := { accountId := "main", promptTokens := tokens, completionTokens := 0, usageId, now := "" } }

/-- The call of the first caller, with so many steps. -/
def callOf (call : Call) (steps : ℕ) : List (Bool × Input) :=
  (false, .enter call) :: List.replicate steps (false, .advance)

def Phase.isOver : Phase → Bool
  | .over _ => true
  | _ => false

lemma Phase.exists_over {phase : Phase} (h : phase.isOver = true) : ∃ result, phase = .over result := by
  cases phase with
  | «over» result => exact ⟨result, rfl⟩
  | _ => cases h

/-- Two calls one after the other. -/
theorem usage_accounted_sequence : ∃ s, oneAccount.run (next ⟨id, 5 / 100⟩)
      (callOf (usageOf 10 (some "k")) 6 ++ callOf (usageOf 5 none) 6) = some s ∧
    s.store.file.tokensUsed "main" = 15 ∧ s.store.file.tokensUsed "main" +
      ledgerTokens oneAccount.store.ledger "main" =
      oneAccount.store.file.tokensUsed "main" + ledgerTokens s.store.ledger "main" := by
  have hrun : (oneAccount.run (next ⟨id, 5 / 100⟩)
      (callOf (usageOf 10 (some "k")) 6 ++ callOf (usageOf 5 none) 6)).map (fun s =>
        (s.store.file.tokensUsed "main", (s.proc false).isOver, (s.proc true).isOver)) =
      some (15, true, true) := by decide +kernel
  obtain ⟨s, hs, hpair⟩ := Option.map_eq_some_iff.mp hrun
  obtain ⟨htokens, hpair⟩ := Prod.mk.inj hpair
  obtain ⟨hfalse, htrue⟩ := Prod.mk.inj hpair
  have hcareful : oneAccount.Throughout (next ⟨id, 5 / 100⟩) Careful
      (callOf (usageOf 10 (some "k")) 6 ++ callOf (usageOf 5 none) 6) := by decide +kernel
  refine ⟨s, hs, htokens, (usage_accounted ⟨id, 5 / 100⟩ (fun _ => ⟨none, rfl⟩) hs
    (throughout_mono (fun _ _ _ => Careful.undisturbed _) hcareful)).2 (fun i => ?_) "main"⟩
  cases i with
  | false => exact Phase.exists_over hfalse
  | true => exact Phase.exists_over htrue

/-! ## Runs that break it -/

/-- Two callers that both load the file before either of them saves it. -/
def lostUpdate : List (Bool × Input) :=
  [(false, .enter (usageOf 10 none)), (true, .enter (usageOf 5 none)), (false, .advance),
    (true, .advance), (false, .advance), (true, .advance)] ++
  List.replicate 4 (false, .advance) ++ List.replicate 4 (true, .advance)

/-- A call that stops after its save, and the retry with its usage id. -/
def retriedUsage : List (Bool × Input) :=
  callOf (usageOf 10 (some "k")) 3 ++ [(false, .crash)] ++ callOf (usageOf 10 (some "k")) 6

/-- After the lost update the account has 5 tokens and 15 in the ledger; after the retry it has 20 and
10 in the ledger. -/
theorem usage_not_accounted :
    (∃ s, oneAccount.run (next ⟨id, 5 / 100⟩) lostUpdate = some s ∧
      (∀ i, ∃ result, s.proc i = .over result) ∧ s.store.file.tokensUsed "main" = 5 ∧
      ledgerTokens s.store.ledger "main" = 15) ∧
    ∃ s, oneAccount.run (next ⟨id, 5 / 100⟩) retriedUsage = some s ∧
      (∀ i, ∃ result, s.proc i = .over result) ∧ s.store.file.tokensUsed "main" = 20 ∧
      ledgerTokens s.store.ledger "main" = 10 := by
  have hends : ∀ {actions : List (Bool × Input)} {tokens recorded : ℤ},
      (oneAccount.run (next ⟨id, 5 / 100⟩) actions).map (fun s =>
        (s.store.file.tokensUsed "main", ledgerTokens s.store.ledger "main", (s.proc false).isOver,
          (s.proc true).isOver)) = some (tokens, recorded, true, true) →
      ∃ s, oneAccount.run (next ⟨id, 5 / 100⟩) actions = some s ∧
        (∀ i, ∃ result, s.proc i = .over result) ∧ s.store.file.tokensUsed "main" = tokens ∧
        ledgerTokens s.store.ledger "main" = recorded := by
    intro actions tokens recorded hrun
    obtain ⟨s, hs, hpair⟩ := Option.map_eq_some_iff.mp hrun
    obtain ⟨htokens, hpair⟩ := Prod.mk.inj hpair
    obtain ⟨hrecorded, hpair⟩ := Prod.mk.inj hpair
    obtain ⟨hfalse, htrue⟩ := Prod.mk.inj hpair
    refine ⟨s, hs, fun i => ?_, htokens, hrecorded⟩
    cases i with
    | false => exact Phase.exists_over hfalse
    | true => exact Phase.exists_over htrue
  exact ⟨hends (by decide +kernel), hends (by decide +kernel)⟩

end AgentSystem.Usage
