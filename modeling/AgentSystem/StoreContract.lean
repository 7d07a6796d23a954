import Mathlib.Logic.Function.Basic
import Mathlib.Tactic.SplitIfs

/-!
# Stores and their contract

Stores that keep a value for each key, what they reply to a sequence of calls, and the map that says
what they are for. A store that simulates another one gives the same replies.
-/
namespace AgentSystem.StoreContract

inductive Call (κ ν : Type)
  | write (key : κ) (value : ν)
  | read (key : κ)
  | delete (key : κ)
  deriving DecidableEq

def Call.key {κ ν : Type} : Call κ ν → κ
  | .write key _ | .read key | .delete key => key

inductive Reply (ν : Type)
  | written
  | found (value : Option ν)
  | deleted (existed : Bool)
  | raised
  deriving DecidableEq

/-- What a store makes of a call, `none` when the call raises. -/
structure Store (κ ν σ : Type) where
  write : σ → κ → ν → Option σ
  read : σ → κ → Option (Option ν)
  delete : σ → κ → Option (σ × Bool)

namespace Store

variable {κ ν σ τ : Type} (store : Store κ ν σ) (s : σ)

/-- The next state and the reply; a call that raises changes nothing. -/
def step : Call κ ν → σ × Reply ν
  | .write key value =>
      match store.write s key value with
      | some s' => (s', .written)
      | none => (s, .raised)
  | .read key => (s, ((store.read s key).map .found).getD .raised)
  | .delete key =>
      match store.delete s key with
      | some (s', existed) => (s', .deleted existed)
      | none => (s, .raised)

def replies (s : σ) : List (Call κ ν) → List (Reply ν)
  | [] => []
  | call :: calls => (store.step s call).2 :: replies (store.step s call).1 calls

/-- Every call meets a condition on the state before it. -/
def Throughout (condition : σ → Call κ ν → Prop) (s : σ) : List (Call κ ν) → Prop
  | [] => True
  | call :: calls => condition s call ∧ Throughout condition (store.step s call).1 calls

variable {store s} {other : Store κ ν τ} {t : τ} {R : σ → τ → Prop}
  {condition : τ → Call κ ν → Prop} {calls : List (Call κ ν)}

/-- A store that simulates another one on the calls that meet a condition replies the same. -/
theorem replies_eq (hstep : ∀ s t call, R s t → condition t call →
      (store.step s call).2 = (other.step t call).2 ∧
        R (store.step s call).1 (other.step t call).1)
    (h : R s t) (hcalls : other.Throughout condition t calls) :
    store.replies s calls = other.replies t calls := by
  induction calls generalizing s t with
  | nil => rfl
  | cons call calls ih =>
      obtain ⟨hcall, hrest⟩ := hcalls
      obtain ⟨hreply, hnext⟩ := hstep s t call h hcall
      rw [replies, replies, hreply, ih hnext hrest]

lemma throughout_true : store.Throughout (fun _ _ => True) s calls := by
  induction calls generalizing s with
  | nil => trivial
  | cons call calls ih => exact ⟨trivial, ih⟩

end Store

section Contract

variable {κ ν : Type} [DecidableEq κ]

/-- The contract: a key has the value of its latest write unless it was deleted after that. -/
def contract : Store κ ν (κ → Option ν) where
  write s key value := some (Function.update s key (some value))
  read s key := some (s key)
  delete s key := some (Function.update s key none, (s key).isSome)

variable {s : κ → Option ν} {key : κ} {call : Call κ ν}

end Contract

end AgentSystem.StoreContract
