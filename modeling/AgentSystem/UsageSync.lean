import AgentSystem.Interleaving
import Mathlib.Algebra.BigOperators.Group.List.Basic
import Mathlib.Data.List.Dedup
import Mathlib.Data.Nat.Basic

/-!
# Reports of usage to Stripe

Runs of `sync_billing_to_stripe` over the financial ledger. A run reads every cursor at its start; for
a tenant it then reads the rows behind the cursor, waits for Stripe and writes the cursor back.
-/
namespace AgentSystem.Billing

open Interleaving

/-- A row of `financial_ledger`. -/
structure UsageRow where
  id : ℕ
  tenantId : String
  totalTokens : ℤ
  deriving DecidableEq

/-- `stripe_sync_metadata`, a tenant with its `last_synced_id`. -/
abbrev SyncTable := List (String × ℕ)

/-- The database, and the quantities that Stripe has acknowledged. -/
structure UsageStore where
  ledger : List UsageRow
  nextId : ℕ
  synced : SyncTable
  acknowledged : List (String × ℤ)
  deriving DecidableEq

/-- The key and the subscription items, and `str.lower`. -/
structure StripeSettings where
  apiKey : Option String
  items : List (String × Option String)
  lower : String → String

structure UsageRequest where
  tenantId : String
  lastId : ℕ
  quantity : ℤ
  maxId : ℕ
  deriving DecidableEq

/-- How far a run is, with the cursors that it has read and the tenants that are left. -/
inductive SyncPhase
  | idle
  | cursors (state : SyncTable)
  | paying (state : SyncTable) (todo : List String)
  | posting (state : SyncTable) (todo : List String) (request : UsageRequest)
  | acknowledged (state : SyncTable) (todo : List String) (request : UsageRequest)
  deriving DecidableEq

/-- `insert` is a new row of the ledger. A request is answered with a status, fails, or is acknowledged
in a response that does not arrive; a run may stop anywhere. -/
inductive SyncInput
  | insert (tenantId : String) (totalTokens : ℤ)
  | advance
  | respond (status : ℕ)
  | fail
  | lose
  | stop
  deriving DecidableEq

/-! ## The tables -/

/-- `sync_state.get(t_id, 0)`. -/
def SyncTable.lastId (table : SyncTable) (tenantId : String) : ℕ :=
  ((table.find? fun row => row.1 = tenantId).map Prod.snd).getD 0

/-- `INSERT OR REPLACE`. -/
def SyncTable.put (table : SyncTable) (tenantId : String) (lastId : ℕ) : SyncTable :=
  table.filter (fun row => row.1 ≠ tenantId) ++ [(tenantId, lastId)]

lemma SyncTable.lastId_put (table : SyncTable) (tenantId : String) (lastId : ℕ) (other : String) :
    (table.put tenantId lastId).lastId other =
      if other = tenantId then lastId else table.lastId other := by
  have hfind : (table.filter fun row => row.1 ≠ tenantId).find? (fun row => row.1 = other) =
      if other = tenantId then none else table.find? fun row => row.1 = other := by
    rw [List.find?_filter]
    split_ifs with h
    · simp [h]
    · congr 1
      funext row
      by_cases hrow : row.1 = other
      · simp [hrow, h]
      · simp [hrow]
  rw [SyncTable.lastId, put, List.find?_append, hfind]
  split_ifs with h
  · simp [h]
  · simp [SyncTable.lastId, Ne.symm h]

namespace UsageStore

variable (store : UsageStore)

def insert (tenantId : String) (totalTokens : ℤ) : UsageStore :=
  { store with
    ledger := store.ledger ++ [⟨store.nextId, tenantId, totalTokens⟩]
    nextId := store.nextId + 1 }

def acknowledge (request : UsageRequest) : UsageStore :=
  { store with acknowledged := store.acknowledged ++ [(request.tenantId, request.quantity)] }

def writeBack (request : UsageRequest) : UsageStore :=
  { store with synced := store.synced.put request.tenantId request.maxId }

/-- What Stripe has acknowledged for a tenant. -/
def acknowledgedFor (tenantId : String) : ℤ :=
  ((store.acknowledged.filter fun entry => entry.1 = tenantId).map Prod.snd).sum

end UsageStore

/-! ## A run -/

/-- The rows of a tenant behind its cursor. -/
def unsyncedRows (ledger : List UsageRow) (tenantId : String) (lastId : ℕ) : List UsageRow :=
  ledger.filter fun row => row.tenantId = tenantId ∧ lastId < row.id

namespace StripeSettings

variable (settings : StripeSettings)

/-- The settings let the usage of the tenant be sent. -/
def sends (tenantId : String) : Bool :=
  let key := settings.apiKey.getD ""
  let item := ((settings.items.find? fun entry => entry.1 = tenantId).bind Prod.snd).getD ""
  key ≠ "" && item ≠ "" && !("mock".toList.isPrefixOf (settings.lower key).toList)

/-- The turn of a tenant, up to the request. -/
def pay (ledger : List UsageRow) (state : SyncTable) (tenantId : String) (todo : List String) :
    SyncPhase :=
  let records := unsyncedRows ledger tenantId (state.lastId tenantId)
  if records ≠ [] ∧ settings.sends tenantId then
    .posting state todo
      { tenantId := tenantId
        lastId := state.lastId tenantId
        quantity := (records.map UsageRow.totalTokens).sum
        maxId := (records.map UsageRow.id).foldl max 0 }
  else .paying state todo

def next : Program SyncInput UsageStore SyncPhase
  | .insert tenantId totalTokens, store, .idle => some (store.insert tenantId totalTokens, .idle)
  | .advance, store, .idle => some (store, .cursors store.synced)
  | .advance, store, .cursors state =>
      some (store, .paying state (store.ledger.map UsageRow.tenantId).dedup)
  | .advance, store, .paying _ [] => some (store, .idle)
  | .advance, store, .paying state (tenantId :: todo) =>
      some (store, settings.pay store.ledger state tenantId todo)
  | .respond status, store, .posting state todo request =>
      if status = 200 ∨ status = 201 then
        some (store.acknowledge request, .acknowledged state todo request)
      else some (store, .paying state todo)
  | .fail, store, .posting state todo _ => some (store, .paying state todo)
  | .lose, store, .posting state todo request =>
      some (store.acknowledge request, .paying state todo)
  | .advance, store, .acknowledged state todo request =>
      some (store.writeBack request, .paying state todo)
  | .stop, store, _ => some (store, .idle)
  | _, _, _ => none

end StripeSettings

/-! ## Usage -/

/-- The tokens of a tenant in the rows whose ids are in a range. -/
def usage (ledger : List UsageRow) (tenantId : String) (lower upper : ℕ) : ℤ :=
  ((ledger.filter fun row => row.tenantId = tenantId ∧ lower < row.id ∧ row.id ≤ upper).map
    UsageRow.totalTokens).sum

/-- The sum of `total_tokens` of the rows of a tenant with id at most this one. -/
def usageUpTo (ledger : List UsageRow) (tenantId : String) (upper : ℕ) : ℤ :=
  ((ledger.filter fun row => row.tenantId = tenantId ∧ row.id ≤ upper).map
    UsageRow.totalTokens).sum

variable {ledger : List UsageRow} {tenantId : String} {lower middle upper : ℕ}

lemma usageUpTo_add_usage (h : lower ≤ upper) :
    usageUpTo ledger tenantId lower + usage ledger tenantId lower upper =
      usageUpTo ledger tenantId upper := by
  induction ledger with
  | nil => rfl
  | cons row ledger ih =>
      simp only [usageUpTo, usage, List.filter_cons] at ih ⊢
      by_cases htenant : row.tenantId = tenantId
      · by_cases hlower : row.id ≤ lower
        · have hupper : row.id ≤ upper := by omega
          have hnot : ¬lower < row.id := by omega
          simp only [htenant, hlower, hupper, hnot, and_self, and_true, and_false, decide_true,
            decide_false, if_true, Bool.false_eq_true, if_false, List.map_cons, List.sum_cons]
          omega
        · have hlt : lower < row.id := by omega
          by_cases hupper : row.id ≤ upper
          · simp only [htenant, hlower, hupper, hlt, and_self, and_false, decide_true,
              decide_false, if_true, Bool.false_eq_true, if_false, List.map_cons, List.sum_cons]
            omega
          · simpa [htenant, hlower, hupper, hlt] using ih
      · simpa [htenant] using ih

lemma usageUpTo_append {row : UsageRow} (h : upper < row.id) :
    usageUpTo (ledger ++ [row]) tenantId upper = usageUpTo ledger tenantId upper := by
  have hnot : ¬row.id ≤ upper := by omega
  simp [usageUpTo, hnot]

lemma usage_append {row : UsageRow} (h : upper < row.id) :
    usage (ledger ++ [row]) tenantId lower upper = usage ledger tenantId lower upper := by
  have hnot : ¬row.id ≤ upper := by omega
  simp [usage, hnot]

end AgentSystem.Billing
