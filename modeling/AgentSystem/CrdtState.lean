import AgentSystem.PySequence

/-!
# The state that replicas synchronize

The last write of every key, with the timestamps of the values and of the tombstones. The three
operations compare these in ways of their own.
-/
namespace AgentSystem.Crdt

open Function (update)

/-- `{"values", "timestamps", "tombstones"}`. -/
structure Delta (ν τ : Type) where
  values : List (String × ν)
  timestamps : List (String × τ)
  tombstones : List (String × τ)
  deriving DecidableEq

/-- `CRDTState`, every dictionary as its lookup. -/
structure CRDTState (ν τ : Type) where
  values : String → Option ν := fun _ => none
  timestamps : String → Option τ := fun _ => none
  tombstones : String → Option τ := fun _ => none

namespace CRDTState

variable {ν τ : Type} [LinearOrder τ] [Zero τ] (state : CRDTState ν τ)

/-- `timestamp or time.time()`. -/
def instant (timestamp : Option τ) (now : τ) : τ :=
  match timestamp with
  | none => now
  | some t => if t = 0 then now else t

/-- `update`, with `none` for the delta `{}`. -/
def update (key : String) (value : ν) (timestamp : Option τ) (now : τ) :
    CRDTState ν τ × Option (Delta ν τ) :=
  let t := instant timestamp now
  if ∃ d ∈ state.tombstones key, t ≤ d then (state, none)
  else if ∀ s ∈ state.timestamps key, s < t then
    ({ values := Function.update state.values key (some value)
       timestamps := Function.update state.timestamps key (some t)
       tombstones :=
         if ∃ d ∈ state.tombstones key, d < t then Function.update state.tombstones key none
         else state.tombstones },
      some ⟨[(key, value)], [(key, t)], []⟩)
  else (state, none)

/-- `delete`, with `none` for the delta `{}`. -/
def delete (key : String) (timestamp : Option τ) (now : τ) :
    CRDTState ν τ × Option (Delta ν τ) :=
  let t := instant timestamp now
  if ∀ d ∈ state.tombstones key, d < t then
    ({ values := Function.update state.values key none
       timestamps := Function.update state.timestamps key none
       tombstones := Function.update state.tombstones key (some t) },
      some ⟨[], [], [(key, t)]⟩)
  else (state, none)

/-- The turn of an incoming tombstone, and whether the state changed. -/
def mergeTombstone (key : String) (t : τ) : CRDTState ν τ × Bool :=
  if (state.timestamps key).getD 0 < t ∧ (state.tombstones key).getD 0 < t then
    ({ values := Function.update state.values key none
       timestamps := Function.update state.timestamps key none
       tombstones := Function.update state.tombstones key (some t) }, true)
  else (state, false)

/-- The turn of an incoming value. -/
def mergeValue (timestamps : List (String × τ)) (key : String) (value : ν) :
    CRDTState ν τ × Bool :=
  let t := (PySequence.getItem timestamps key).getD 0
  if t ≤ (state.tombstones key).getD 0 then (state, false)
  else if (state.timestamps key).getD 0 < t then
    ({ values := Function.update state.values key (some value)
       timestamps := Function.update state.timestamps key (some t)
       tombstones := Function.update state.tombstones key none }, true)
  else (state, false)

/-- `merge_delta`. -/
def mergeDelta (delta : Delta ν τ) : CRDTState ν τ × Bool :=
  let afterTombstones := delta.tombstones.foldl (fun acc item =>
    let (state, changed) := acc.1.mergeTombstone item.1 item.2
    (state, acc.2 || changed)) (state, false)
  delta.values.foldl (fun acc item =>
    let (state, changed) := acc.1.mergeValue delta.timestamps item.1 item.2
    (state, acc.2 || changed)) afterTombstones

end CRDTState

/-! ## What a key shows -/

/-- A write or, without a value, a deletion. -/
structure Op (ν τ : Type) where
  key : String
  timestamp : τ
  value : Option ν
  deriving DecidableEq

variable {ν τ : Type}

namespace Op

/-- The delta that the operation sends. -/
def delta (op : Op ν τ) : Delta ν τ :=
  match op.value with
  | some value => ⟨[(op.key, value)], [(op.key, op.timestamp)], []⟩
  | none => ⟨[], [], [(op.key, op.timestamp)]⟩

/-- The value, the timestamp and the tombstone of a key after the operation. -/
def shown : Option (Op ν τ) → Option ν × Option τ × Option τ
  | none => (none, none, none)
  | some ⟨_, t, some value⟩ => (some value, some t, none)
  | some ⟨_, t, none⟩ => (none, none, some t)

lemma delta_injective : Function.Injective (delta (ν := ν) (τ := τ)) := by
  rintro ⟨key, t, value⟩ ⟨key', t', value'⟩ h
  cases value <;> cases value' <;> simp_all [delta]

/-- An operation takes the place of an earlier one. -/
def Later [LT τ] (op current : Op ν τ) : Prop := current.timestamp < op.timestamp

instance [LT τ] [DecidableLT τ] : DecidableRel (Later (ν := ν) (τ := τ)) := fun _ _ =>
  inferInstanceAs (Decidable (_ < _))

end Op

namespace CRDTState

/-- What the three dictionaries say about a key. -/
def look (state : CRDTState ν τ) (key : String) : Option ν × Option τ × Option τ :=
  (state.values key, state.timestamps key, state.tombstones key)

end CRDTState

end AgentSystem.Crdt
