import AgentSystem.CrdtConvergence
import AgentSystem.MirroredFiles

/-!
# The reconciler and its mirrors

`DeltaStateReconciler` keeps the state in `reconciled_state.json` and in one file for every mirror
path. The files are different ones, and one that is torn is not JSON any more. The lock makes the
calls of a reconciler follow one another; a process that ends leaves its files to the next one.
-/
namespace AgentSystem.Crdt

open MirroredFiles

/-- The calls of a reconciler, with the time that they read. -/
inductive Call (ν τ : Type)
  | applyUpdate (key : String) (value : ν) (now : τ)
  | applyDelete (key : String) (now : τ)
  | mergeDelta (delta : Delta ν τ)
  | getState

variable {ν τ : Type}

/-- The keys that a call can write. -/
def Call.keys : Call ν τ → List String
  | .applyUpdate key _ _ => [key]
  | .applyDelete key _ => [key]
  | .mergeDelta delta => delta.tombstones.map Prod.fst ++ delta.values.map Prod.fst
  | .getState => []

variable [LinearOrder τ] [Zero τ]

namespace DeltaStateReconciler

/-- What a call makes of the state that it has loaded, and whether it saves it. -/
def compute (call : Call ν τ) (state : CRDTState ν τ) : CRDTState ν τ × Bool :=
  match call with
  | .applyUpdate key value now =>
      let updated := state.update key value none now
      (updated.1, updated.2.isSome)
  | .applyDelete key now =>
      let deleted := state.delete key none now
      (deleted.1, deleted.2.isSome)
  | .mergeDelta delta => state.mergeDelta delta
  | .getState => (state, false)

/-- `_load_state` of a reader that nothing interrupts. -/
def loadState (disk : Disk (CRDTState ν τ)) : CRDTState ν τ := found {} disk

/-- One call, with what becomes of its writes. -/
def apply (disk : Disk (CRDTState ν τ)) (a : Attempt (Call ν τ)) :
    Disk (CRDTState ν τ) × Ending :=
  attempt compute {} disk a

def applyAll (disk : Disk (CRDTState ν τ)) (attempts : List (Attempt (Call ν τ))) :
    Disk (CRDTState ν τ) :=
  attempts.foldl (fun disk a => (apply disk a).1) disk

end DeltaStateReconciler

open DeltaStateReconciler

/-! ## What a call leaves alone -/

lemma look_update {state : CRDTState ν τ} {k key : String} (hk : k ≠ key) (value : ν)
    (timestamp : Option τ) (now : τ) :
    (state.update key value timestamp now).1.look k = state.look k := by
  unfold CRDTState.update
  dsimp only
  split_ifs <;> simp [CRDTState.look, Function.update_of_ne hk]

lemma look_delete {state : CRDTState ν τ} {k key : String} (hk : k ≠ key)
    (timestamp : Option τ) (now : τ) :
    (state.delete key timestamp now).1.look k = state.look k := by
  unfold CRDTState.delete
  dsimp only
  split_ifs <;> simp [CRDTState.look, Function.update_of_ne hk]

lemma look_mergeTombstone {state : CRDTState ν τ} {k key : String} (hk : k ≠ key) (t : τ) :
    (state.mergeTombstone key t).1.look k = state.look k := by
  unfold CRDTState.mergeTombstone
  split_ifs <;> simp [CRDTState.look, Function.update_of_ne hk]

lemma look_mergeValue {state : CRDTState ν τ} {k key : String} (hk : k ≠ key)
    (timestamps : List (String × τ)) (value : ν) :
    (state.mergeValue timestamps key value).1.look k = state.look k := by
  unfold CRDTState.mergeValue
  dsimp only
  split_ifs <;> simp [CRDTState.look, Function.update_of_ne hk]

lemma look_mergeTombstones {k : String} (tombstones : List (String × τ))
    (hk : k ∉ tombstones.map Prod.fst) (acc : CRDTState ν τ × Bool) :
    (tombstones.foldl (fun acc item =>
      let (state, changed) := acc.1.mergeTombstone item.1 item.2
      (state, acc.2 || changed)) acc).1.look k = acc.1.look k := by
  induction tombstones generalizing acc with
  | nil => rfl
  | cons item tombstones ih =>
    simp only [List.map_cons, List.mem_cons, not_or] at hk
    rw [List.foldl_cons, ih hk.2]
    exact look_mergeTombstone hk.1 item.2

lemma look_mergeValues {k : String} (timestamps : List (String × τ)) (values : List (String × ν))
    (hk : k ∉ values.map Prod.fst) (acc : CRDTState ν τ × Bool) :
    (values.foldl (fun acc item =>
      let (state, changed) := acc.1.mergeValue timestamps item.1 item.2
      (state, acc.2 || changed)) acc).1.look k = acc.1.look k := by
  induction values generalizing acc with
  | nil => rfl
  | cons item values ih =>
    simp only [List.map_cons, List.mem_cons, not_or] at hk
    rw [List.foldl_cons, ih hk.2]
    exact look_mergeValue hk.1 timestamps item.2

/-- A call changes nothing about the keys that it does not name. -/
lemma look_compute {call : Call ν τ} {k : String} (hk : k ∉ call.keys) (state : CRDTState ν τ) :
    (compute call state).1.look k = state.look k := by
  cases call with
  | applyUpdate key value now =>
    simp only [Call.keys, List.mem_singleton] at hk
    exact look_update hk value none now
  | applyDelete key now =>
    simp only [Call.keys, List.mem_singleton] at hk
    exact look_delete hk none now
  | mergeDelta delta =>
    simp only [Call.keys, List.mem_append, not_or] at hk
    unfold compute CRDTState.mergeDelta
    dsimp only
    rw [look_mergeValues delta.timestamps delta.values hk.2, look_mergeTombstones _ hk.1]
  | getState => rfl

lemma look_foldl {k : String} (taken : List (Call ν τ)) (hk : ∀ call ∈ taken, k ∉ call.keys)
    (state : CRDTState ν τ) :
    (taken.foldl (fun state call => (compute call state).1) state).look k = state.look k := by
  induction taken generalizing state with
  | nil => rfl
  | cons call taken ih =>
    rw [List.foldl_cons, ih fun c hc => hk c (by simp [hc])]
    exact look_compute (hk call (by simp)) state

/-! ## What survives -/

/-- There is always a deletion to save. -/
lemma exists_changing [NoMaxOrder τ] (state : CRDTState ν τ) :
    ∃ call : Call ν τ, (compute call state).2 = true := by
  obtain ⟨now, hnow⟩ := exists_gt ((state.tombstones "").getD 0)
  refine ⟨.applyDelete "" now, ?_⟩
  have hlater : ∀ d ∈ state.tombstones "", d < now := by
    intro d hd
    simpa [Option.mem_def.mp hd] using hnow
  unfold compute CRDTState.delete
  dsimp only
  split_ifs with h
  · rfl
  · exact absurd hlater h

section Survival

variable {disk : Disk (CRDTState ν τ)} {state : CRDTState ν τ}

/-- From files that agree on a state, calls that tear at most as many files as there are mirrors
leave the state with some of the calls taken, and the keys that they do not name as they were. -/
lemma loadState_of_tears (hsynced : disk.Synced state) (attempts : List (Attempt (Call ν τ)))
    (htears : (attempts.map Attempt.tears).sum ≤ disk.mirrors.length) :
    (∃ taken : List (Call ν τ), taken.Sublist (attempts.map Attempt.call) ∧
      loadState (applyAll disk attempts) =
        taken.foldl (fun state call => (compute call state).1) state) ∧
    ∀ key, (∀ a ∈ attempts, key ∉ a.call.keys) →
      (loadState (applyAll disk attempts)).look key = state.look key := by
  obtain ⟨taken, htaken, hfound⟩ := found_of_tears {} compute hsynced attempts
    htears
  refine ⟨⟨taken, htaken, hfound⟩, fun key hkey => ?_⟩
  have hnone : ∀ call ∈ taken, key ∉ call.keys := by
    intro call hcall
    obtain ⟨a, ha, rfl⟩ := List.mem_map.mp (htaken.subset hcall)
    exact hkey a ha
  have hlook := look_foldl taken hnone state
  rwa [← hfound] at hlook

/-- The mirrors are worth as many torn writes as there are of them. From files that agree on a
state, any calls that tear at most so many files leave a state that is the old one with some of
the calls taken, in their order, and a key that no call names is as it was; and with one torn
write more everything can be gone. -/
theorem mirrors_bound [NoMaxOrder τ] (hsynced : disk.Synced state) :
    (∀ attempts : List (Attempt (Call ν τ)),
      (attempts.map Attempt.tears).sum ≤ disk.mirrors.length →
        (∃ taken : List (Call ν τ), taken.Sublist (attempts.map Attempt.call) ∧
          loadState (applyAll disk attempts) =
            taken.foldl (fun state call => (compute call state).1) state) ∧
        ∀ key, (∀ a ∈ attempts, key ∉ a.call.keys) →
          (loadState (applyAll disk attempts)).look key = state.look key) ∧
    ∃ attempts : List (Attempt (Call ν τ)),
      (attempts.map Attempt.tears).sum = disk.mirrors.length + 1 ∧
        loadState (applyAll disk attempts) = {} := by
  refine ⟨loadState_of_tears hsynced, ?_⟩
  have hdisk : disk = ⟨some state, disk.mirrors ++ []⟩ := by
    have hprimary := hsynced disk.primary (by simp [Disk.files])
    rw [← hprimary, List.append_nil]
  obtain ⟨attempts, hsum, hnone⟩ := exists_all_torn {} exists_changing (s := state) disk.mirrors [] (by simp)
  refine ⟨attempts, hsum, ?_⟩
  rw [← hdisk] at hnone
  exact found_of_all_torn _ hnone

end Survival

/-- Two mirrors, a write that is torn in the primary and one that is torn in the first mirror. -/
theorem mirrors_bound_two : ∃ disk : Disk (CRDTState String ℤ), disk.mirrors.length = 2 ∧
    (loadState (applyAll disk [⟨.applyUpdate "b" "2" 5, .done, .stopped true, []⟩,
      ⟨.applyUpdate "c" "3" 6, .done, .done, [.stopped true]⟩])).values "a" = some "1" := by
  let state : CRDTState String ℤ := (({} : CRDTState String ℤ).update "a" "1" none 4).1
  let disk : Disk (CRDTState String ℤ) := ⟨some state, [some state, some state]⟩
  have hsynced : disk.Synced state := by simp [disk, Disk.Synced, Disk.files]
  have hlook := ((mirrors_bound hsynced).1 [⟨.applyUpdate "b" "2" 5, .done, .stopped true, []⟩,
    ⟨.applyUpdate "c" "3" 6, .done, .done, [.stopped true]⟩]
    (by simp [disk, Attempt.tears, Outcome.tears])).2 "a" (by simp [Call.keys])
  exact ⟨disk, rfl, congrArg Prod.fst hlook⟩

end AgentSystem.Crdt
