import AgentSystem.Interleaving
import Mathlib.Algebra.Order.Group.Defs
import Mathlib.Algebra.Order.Group.Int
import Mathlib.Algebra.Order.Sub.Basic

/-!
# The request limit of a tenant

Calls of `_consume` by processes that share the database. A call reads the clock before it enters its
transaction, so that the transactions need not come in the order of the readings; each of them deletes
the rows that are too old for its own reading.
-/
namespace AgentSystem.RateLimit

open Interleaving

variable {τ : Type} [AddCommGroup τ] [LinearOrder τ]

structure TenantRequestRateLimiter (τ : Type) [AddCommGroup τ] [LinearOrder τ] where
  limit : ℕ
  windowSeconds : τ
  limit_pos : 0 < limit
  windowSeconds_pos : 0 < windowSeconds

/-- A row of `tenant_request_rate`. -/
abbrev Request (τ : Type) := String × τ

/-- The clock and the table, with the history of the admitted calls. -/
structure RateStore (τ : Type) where
  clock : τ
  rows : List (Request τ)
  admitted : List (Request τ)
  deriving DecidableEq

/-- How far a call is; a decided one has returned whether it is limited. -/
inductive CallPhase (τ : Type)
  | idle
  | waiting (tenantId : String) (now : τ)
  | decided (tenantId : String) (now : τ) (limited : Bool)
  deriving DecidableEq

/-- Time passes, or a process calls `_consume`, goes through its transaction or raises. -/
inductive CallInput (τ : Type)
  | pass (clock : τ)
  | call (tenantId : String)
  | enter
  | raise

/-- A call of the tenant with a reading in this interval. -/
def Within (tenantId : String) (lower upper : τ) (request : Request τ) : Bool :=
  request.1 = tenantId && lower ≤ request.2 && request.2 ≤ upper

/-- A call of the tenant with a reading that is not older. -/
def Since (tenantId : String) (cutoff : τ) (request : Request τ) : Bool :=
  request.1 = tenantId && cutoff ≤ request.2

namespace TenantRequestRateLimiter

variable (limiter : TenantRequestRateLimiter τ)

/-- The transaction of a call, and whether the call is limited. -/
def consume (store : RateStore τ) (tenantId : String) (now : τ) : RateStore τ × Bool :=
  let cutoff := now - limiter.windowSeconds
  let rows := store.rows.filter fun request => cutoff ≤ request.2
  if limiter.limit ≤ rows.countP (Since tenantId cutoff) then ({ store with rows := rows }, true)
  else
    ({ store with
        rows := rows ++ [(tenantId, now)]
        admitted := store.admitted ++ [(tenantId, now)] }, false)

/-- A step of a process; a call without a tenant raises at once. -/
def next : Program (CallInput τ) (RateStore τ) (CallPhase τ)
  | .pass clock, store, p =>
      if store.clock ≤ clock then some ({ store with clock := clock }, p) else none
  | .call _, _, .waiting _ _ => none
  | .call tenantId, store, _ =>
      if tenantId = "" then some (store, .idle) else some (store, .waiting tenantId store.clock)
  | .enter, store, .waiting tenantId now =>
      let after := limiter.consume store tenantId now
      some (after.1, .decided tenantId now after.2)
  | .raise, store, .waiting _ _ => some (store, .idle)
  | _, _, _ => none

end TenantRequestRateLimiter

end AgentSystem.RateLimit
