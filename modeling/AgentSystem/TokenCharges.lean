import AgentSystem.Interleaving
import Mathlib.Data.List.Infix
import Mathlib.Data.Rat.Lemmas
import Mathlib.Algebra.Order.Ring.Rat

/-!
# Token charges in the financial ledger

The statements of `record_transaction` on one database. A lookup sees what is committed; the write
transaction starts with the insert of the row, and the database lets one of them run at a time.
-/
namespace AgentSystem.Charges

open Interleaving

/-- The arguments of `record_transaction`, and the instant that it reads. -/
structure Transaction where
  sessionId : String
  accountId : String
  provider : String
  model : String
  promptTokens : ℤ
  completionTokens : ℤ
  tenantId : String := "default_tenant"
  markupMultiplier : Option ℚ := none
  idempotencyKey : Option String := none
  now : String
  deriving DecidableEq

/-- A row of `financial_ledger`; the table is in the order of the ids. -/
structure LedgerRow where
  sessionId : String
  accountId : String
  provider : String
  model : String
  promptTokens : ℤ
  completionTokens : ℤ
  totalTokens : ℤ
  cost : ℚ
  timestamp : String
  tenantId : String
  markupMultiplier : Option ℚ
  idempotencyKey : Option String
  deriving DecidableEq

/-- A row of `tenant_credit_budget` without its tenant. -/
structure CreditBudget where
  credits : ℚ := 100
  maxBudget : ℚ := 100
  routingPolicy : String := "downscale"
  deriving DecidableEq

/-- `estimate_cost`, with `str.lower`. -/
def estimateCost (lower : String → String) (model : String) (promptTokens completionTokens : ℤ) : ℚ :=
  let mLower := (lower model).toList
  if "pro".toList <:+: mLower then
    promptTokens * (15 / 1000000) + completionTokens * (45 / 1000000)
  else if "claude-3-5".toList <:+: mLower then
    promptTokens * (3 / 1000000) + completionTokens * (15 / 1000000)
  else if "flash".toList <:+: mLower then
    promptTokens * (75 / 1000000000) + completionTokens * (3 / 10000000)
  else
    promptTokens * (2 / 1000000) + completionTokens * (8 / 1000000)

/-- The row that a transaction inserts. -/
def Transaction.row (lower : String → String) (t : Transaction) : LedgerRow :=
  { t with
    totalTokens := t.promptTokens + t.completionTokens
    cost := estimateCost lower t.model t.promptTokens t.completionTokens
    timestamp := t.now }

/-! ## The tables -/

structure Database where
  rows : List LedgerRow := []
  budgets : String → Option CreditBudget := fun _ => none

namespace Database

variable (db : Database)

/-- The rows with an idempotency key of a tenant. -/
def keyed (tenantId key : String) : List LedgerRow :=
  db.rows.filter fun row => row.tenantId = tenantId ∧ row.idempotencyKey = some key

/-- `INSERT INTO financial_ledger`, `none` where the unique index refuses the row. -/
def insertRow (row : LedgerRow) : Option Database :=
  if ∃ key ∈ row.idempotencyKey, db.keyed row.tenantId key ≠ [] then none
  else some { db with rows := db.rows ++ [row] }

/-- The `SELECT` of the budget and its `INSERT` where there is none. -/
def ensureBudget (tenantId : String) : Database :=
  match db.budgets tenantId with
  | some _ => db
  | none => { db with budgets := Function.update db.budgets tenantId (some {}) }

/-- The `UPDATE` of the credits. -/
def deduct (tenantId : String) (cost : ℚ) : Database :=
  { db with
    budgets := Function.update db.budgets tenantId ((db.budgets tenantId).map fun budget =>
      { budget with credits := max 0 (budget.credits - cost) }) }

/-- The cost in the row that the lookup of a transaction finds. -/
def recordedCost (t : Transaction) : Option ℚ :=
  match t.idempotencyKey with
  | none => none
  | some key => if key = "" then none else (db.keyed t.tenantId key).head?.map LedgerRow.cost

/-- The credits of a tenant, which has 100 before its first row. -/
def credits (tenantId : String) : ℚ := ((db.budgets tenantId).map CreditBudget.credits).getD 100

/-- The rows of a tenant. -/
def rowsOf (tenantId : String) : List LedgerRow := db.rows.filter fun row => row.tenantId = tenantId

end Database

/-! ## A call -/

/-- A call of an instance, with the rows that were committed when it was made. -/
structure Call (κ : Type) where
  ledger : κ
  transaction : Transaction
  known : List LedgerRow

inductive Outcome
  | returned (cost : ℚ)
  | integrityError
  | failed
  deriving DecidableEq

/-- A call that is over, with the row that it committed. -/
structure Entry where
  transaction : Transaction
  known : List LedgerRow
  outcome : Outcome
  inserted : Option LedgerRow
  deriving DecidableEq

/-- How far a call is, with the database as its open transaction sees it. -/
inductive Phase (κ : Type)
  | idle
  | entered (call : Call κ)
  | found (call : Call κ) (cost : ℚ)
  | looked (call : Call κ)
  | inserted (call : Call κ) (db : Database)
  | ensured (call : Call κ) (db : Database)
  | deducted (call : Call κ) (db : Database)

namespace Phase

variable {κ : Type}

def call : Phase κ → Option (Call κ)
  | idle => none
  | entered call | found call _ | looked call | inserted call _ | ensured call _
  | deducted call _ => some call

/-- The call has a write transaction. -/
def writes : Phase κ → Bool
  | inserted .. | ensured .. | deducted .. => true
  | _ => false

end Phase

/-- The committed database, whether a write transaction is open, the locks of the instances and the
calls that are over. -/
structure Store (κ : Type) where
  committed : Database := {}
  writing : Bool := false
  busy : κ → Bool := fun _ => false
  log : List Entry := []

/-- A new call, the next statement of a call, or the failure of one. -/
inductive Input (κ : Type)
  | enter (ledger : κ) (transaction : Transaction)
  | advance
  | fail

variable {κ : Type} [DecidableEq κ]

/-- The call is over, and the connection and the lock are released. -/
def Store.leave (store : Store κ) (call : Call κ) (outcome : Outcome) (inserted : Option LedgerRow) :
    Store κ :=
  { store with
    busy := Function.update store.busy call.ledger false
    log := store.log ++ [⟨call.transaction, call.known, outcome, inserted⟩] }

/-- `record_transaction`, statement by statement. -/
def next (lower : String → String) : Program (Input κ) (Store κ) (Phase κ)
  | .enter ledger transaction, store, .idle =>
      if store.busy ledger then none
      else
        some ({ store with busy := Function.update store.busy ledger true },
          .entered ⟨ledger, transaction, store.committed.rows⟩)
  | .advance, store, .entered call =>
      match store.committed.recordedCost call.transaction with
      | some cost => some (store, .found call cost)
      | none => some (store, .looked call)
  | .advance, store, .found call cost => some (store.leave call (.returned cost) none, .idle)
  | .advance, store, .looked call =>
      if store.writing then none
      else
        match store.committed.insertRow (call.transaction.row lower) with
        | none => some (store.leave call .integrityError none, .idle)
        | some db => some ({ store with writing := true }, .inserted call db)
  | .advance, store, .inserted call db =>
      some (store, .ensured call (db.ensureBudget call.transaction.tenantId))
  | .advance, store, .ensured call db =>
      some (store, .deducted call
        (db.deduct call.transaction.tenantId (call.transaction.row lower).cost))
  | .advance, store, .deducted call db =>
      let row := call.transaction.row lower
      some (({ store with committed := db, writing := false }).leave call (.returned row.cost)
        (some row), .idle)
  | .fail, store, phase =>
      phase.call.map fun call =>
        (({ store with writing := store.writing && !phase.writes }).leave call .failed none,
          .idle)
  | _, _, _ => none

end AgentSystem.Charges
