import AgentSystem.TokenCharges
import Mathlib.Algebra.BigOperators.Group.List.Basic

/-!
# Token usage of accounts

`record_usage` of any number of callers over the file of the accounts and the financial ledger. A load and
a save of the file are one step each, and so is the write transaction of the ledger. The entries of an
account that no step reads are left out.
-/
namespace AgentSystem.Usage

open Interleaving Charges

structure Account where
  id : String
  provider : Option String := none
  model : Option String := none
  tokenBudget : Option ℤ := none
  tokensUsed : Option ℤ := none
  isActive : Bool := false
  deriving DecidableEq

/-- `accounts.json`. -/
structure AccountsFile where
  accounts : List Account := []
  activeAccountId : String := ""
  deriving DecidableEq

namespace AccountsFile

variable (file : AccountsFile)

/-- The count of the first account of this id. -/
def tokensUsed (id : String) : ℤ :=
  ((file.accounts.find? fun account => account.id = id).bind Account.tokensUsed).getD 0

/-- The loop of `record_usage`: the first account of this id gets the tokens. -/
def addTokens (id : String) (tokens : ℤ) : List Account → Option (List Account × Account)
  | [] => none
  | account :: rest =>
      if account.id = id then
        some ({ account with tokensUsed := some (account.tokensUsed.getD 0 + tokens) } :: rest, account)
      else (addTokens id tokens rest).map fun added => (account :: added.1, added.2)

/-- The file with the tokens, and the provider and the model of the account. -/
def charge (id : String) (tokens : ℤ) : Option (AccountsFile × String × String) :=
  (addTokens id tokens file.accounts).map fun added =>
    ({ file with accounts := added.1 }, added.2.provider.getD "google-genai",
      added.2.model.getD "gemini-2.5-flash")

/-- The first active account with a larger model gets the smaller one. -/
def downscale (lower : String → String) (activeId : String) : List Account → Option (List Account)
  | [] => none
  | account :: rest =>
      if account.id = activeId ∧ "pro".toList <:+: (lower (account.model.getD "")).toList then
        some ({ account with model := some ((account.model.getD "").replace "pro" "flash") } :: rest)
      else (downscale lower activeId rest).map fun rest => account :: rest

/-- An account that is not the active one and within its budget. -/
def fallback : Option Account :=
  file.accounts.find? fun account => account.id ≠ file.activeAccountId ∧
    (account.tokenBudget.getD (-1) = -1 ∨ account.tokensUsed.getD 0 < account.tokenBudget.getD (-1))

/-- What `check_and_rotate_budget` saves above the threshold, `none` where it saves nothing. -/
def rotate (lower : String → String) : Option AccountsFile :=
  match downscale lower file.activeAccountId file.accounts with
  | some accounts => some { file with accounts }
  | none => file.fallback.map fun fallback =>
      { accounts := file.accounts.map fun account =>
          { account with isActive := account.id = fallback.id }
        activeAccountId := fallback.id }

end AccountsFile

/-! ## A call -/

/-- The arguments of `record_usage`, and the instant of its transaction. -/
structure UsageArgs where
  accountId : String
  promptTokens : ℤ
  completionTokens : ℤ
  sessionId : String := "default-session"
  usageId : Option String := none
  now : String

structure Failover where
  fallbackAccountId : String
  markupMultiplier : ℚ

/-- A call, with the failover of its account and the tenant of its session. -/
structure Call where
  args : UsageArgs
  failover : Option Failover := none
  tenant : Option String := none

namespace Call

variable (call : Call)

def target : String := (call.failover.map Failover.fallbackAccountId).getD call.args.accountId

/-- `self.get_session_tenant(session_id) or "default_tenant"`. -/
def tenantId : String :=
  if call.tenant.getD "" = "" then "default_tenant" else call.tenant.getD ""

def tokens : ℤ := call.args.promptTokens + call.args.completionTokens

def transaction (provider model : String) : Transaction :=
  { sessionId := call.args.sessionId
    accountId := call.target
    provider
    model
    promptTokens := call.args.promptTokens
    completionTokens := call.args.completionTokens
    tenantId := call.tenantId
    markupMultiplier := call.failover.map Failover.markupMultiplier
    idempotencyKey := call.args.usageId
    now := call.args.now }

/-- `usage_id and ledger.has_idempotency_key(tenant_id, usage_id)`. -/
def seen (db : Database) : Bool :=
  call.args.usageId.any fun key => key ≠ "" ∧ db.keyed call.tenantId key ≠ []

end Call

/-- `get_total_cost()`. -/
def totalCost (db : Database) : ℚ := ((db.rowsOf "default_tenant").map LedgerRow.cost).sum

/-- How far a caller is. A call that is over has returned this, or has raised or stopped. -/
inductive Phase
  | over (result : Option Bool)
  | entered (call : Call)
  | checked (call : Call)
  | loaded (call : Call) (read : AccountsFile)
  | saved (transaction : Transaction)
  | looked (transaction : Transaction)
  | recorded
  | exceeded
  | rotating (read : AccountsFile)

structure Store where
  file : AccountsFile
  ledger : Database := {}

/-- A new call, the next step of a call, or the end of its process. -/
inductive Input
  | enter (call : Call)
  | advance
  | crash

/-- `str.lower`, and the threshold of the configuration. -/
structure Settings where
  lower : String → String
  costThreshold : ℚ := 5 / 100

/-- `record_usage`, step by step. -/
def next (settings : Settings) : Program Input Store Phase
  | .enter call, store, .over _ => some (store, .entered call)
  | .advance, store, .entered call =>
      some (store, if call.seen store.ledger then .over (some true) else .checked call)
  | .advance, store, .checked call => some (store, .loaded call store.file)
  | .advance, store, .loaded call read =>
      match read.charge call.target call.tokens with
      | none => some (store, .over (some false))
      | some (file, provider, model) =>
          some ({ store with file }, .saved (call.transaction provider model))
  | .advance, store, .saved transaction =>
      match store.ledger.recordedCost transaction with
      | some _ => some (store, .recorded)
      | none => some (store, .looked transaction)
  | .advance, store, .looked transaction =>
      match store.ledger.insertRow (transaction.row settings.lower) with
      | none => some (store, .over none)
      | some db =>
          some ({ store with
              ledger := (db.ensureBudget transaction.tenantId).deduct transaction.tenantId
                (transaction.row settings.lower).cost }, .recorded)
  | .advance, store, .recorded =>
      some (store, if settings.costThreshold ≤ totalCost store.ledger then .exceeded
        else .over (some true))
  | .advance, store, .exceeded => some (store, .rotating store.file)
  | .advance, store, .rotating read =>
      match read.rotate settings.lower with
      | none => some (store, .over (some true))
      | some file => some ({ store with file }, .over (some true))
  | .crash, _, .over _ => none
  | .crash, store, _ => some (store, .over none)
  | _, _, _ => none

end AgentSystem.Usage
