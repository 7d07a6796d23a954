import AgentSystem.Contest
import AgentSystem.CrdtState
import AgentSystem.Interleaving

/-!
# When replicas of the state converge

Every replica shows the latest operation that it has sent or merged, as long as it deletes no key with a
timestamp before that of its value: a local deletion, unlike a merged one, ignores the timestamp of the
value.
-/
namespace AgentSystem.Crdt

open Contest Interleaving Op

variable {ν τ : Type} {state state' : CRDTState ν τ} {op : Op ν τ} {key : String} {value : ν} {t now : τ}

/-- A key shows either a value with its timestamp, or a tombstone, or nothing. -/
lemma look_eq_shown {cell : Option (Op ν τ)} (h : state.look key = shown cell) :
    state.values key = (shown cell).1 ∧ state.timestamps key = (shown cell).2.1 ∧
      state.tombstones key = (shown cell).2.2 := by
  rw [← h]
  exact ⟨rfl, rfl, rfl⟩

/-- The writes of a value and of a tombstone leave the other keys as they were. -/
lemma look_of_ne {k key : String} (hk : k ≠ key) (value : Option ν) (timestamp tombstone : Option τ) :
    CRDTState.look
      { values := Function.update state.values key value
        timestamps := Function.update state.timestamps key timestamp
        tombstones := Function.update state.tombstones key tombstone } k = state.look k := by
  simp [CRDTState.look, Function.update_of_ne hk]

lemma look_self (value : Option ν) (timestamp tombstone : Option τ) :
    CRDTState.look
      { values := Function.update state.values key value
        timestamps := Function.update state.timestamps key timestamp
        tombstones := Function.update state.tombstones key tombstone } key =
      (value, timestamp, tombstone) := by
  simp [CRDTState.look]

lemma eq_of_look (h : state.look = state'.look) : state = state' := by
  obtain ⟨values, timestamps, tombstones⟩ := state
  obtain ⟨values', timestamps', tombstones'⟩ := state'
  have hlook := fun key => congrFun h key
  simp only [CRDTState.look, Prod.mk.injEq] at hlook
  rw [funext fun key => (hlook key).1, funext fun key => (hlook key).2.1,
    funext fun key => (hlook key).2.2]

variable [LinearOrder τ]

/-- The state after this operation has come to a replica. -/
structure Applied (state state' : CRDTState ν τ) (op : Op ν τ) : Prop where
  here : ∀ cell : Option (Op ν τ), state.look op.key = shown cell →
    state'.look op.key = shown (some (hold Later cell op))
  others : ∀ key, key ≠ op.key → state'.look key = state.look key

/-- The new operation is the latest one. -/
lemma hold_of_later {cell : Option (Op ν τ)} (h : ∀ c ∈ cell, Later op c) :
    hold Later cell op = op := by
  cases cell with
  | none => rfl
  | some c => exact if_pos (h c rfl)

/-- An operation is later than what a key shows where its timestamp is greater than those of the
value and of the tombstone. -/
lemma later_iff {cell : Option (Op ν τ)} (hlook : state.look op.key = shown cell) :
    (∀ c ∈ cell, Later op c) ↔ (∀ s ∈ state.timestamps op.key, s < op.timestamp) ∧
      ∀ d ∈ state.tombstones op.key, d < op.timestamp := by
  obtain ⟨-, htimestamps, htombstones⟩ := look_eq_shown hlook
  rw [htimestamps, htombstones]
  cases cell with
  | none => simp [shown]
  | some c =>
      obtain ⟨k, s, v⟩ := c
      cases v <;> simp [shown, Later]

/-- An operation that is later than what its key shows is written. -/
lemma applied_of_later (op : Op ν τ)
    (hlater : (∀ s ∈ state.timestamps op.key, s < op.timestamp) ∧
      ∀ d ∈ state.tombstones op.key, d < op.timestamp) :
    Applied state
      { values := Function.update state.values op.key (shown (some op)).1
        timestamps := Function.update state.timestamps op.key (shown (some op)).2.1
        tombstones := Function.update state.tombstones op.key (shown (some op)).2.2 } op where
  here cell hlook := by rw [look_self, hold_of_later ((later_iff hlook).mpr hlater)]
  others k hk := look_of_ne hk _ _ _

/-- An operation that is not later than what its key shows changes nothing. -/
lemma applied_of_not_later
    (hlater : ∀ cell : Option (Op ν τ), state.look op.key = shown cell →
      ∃ c ∈ cell, ¬ Later op c) :
    Applied state state op where
  here cell hlook := by
    obtain ⟨c, rfl, hnot⟩ := hlater cell hlook
    rw [hlook, hold, if_neg hnot]
  others _ _ := rfl

/-! ## What a replica has heard of -/

/-- The operations of a key. -/
def ofKey (key : String) (ops : List (Op ν τ)) : List (Op ν τ) := ops.filter (·.key = key)

/-- Every key shows the latest of these operations. -/
def Shows (state : CRDTState ν τ) (ops : List (Op ν τ)) : Prop :=
  ∀ key, state.look key = shown (holder Later none (ofKey key ops))

variable {ops : List (Op ν τ)}

lemma Shows.applied (h : Shows state ops) (happlied : Applied state state' op) :
    Shows state' (ops ++ [op]) := by
  intro key
  rw [ofKey, List.filter_append, holder_append]
  by_cases hkey : op.key = key
  · subst hkey
    rw [happlied.here _ (h op.key), List.filter_singleton, decide_eq_true rfl]
    rfl
  · rw [happlied.others key (Ne.symm hkey), h key, List.filter_singleton, decide_eq_false hkey]
    rfl

/-- Operations with timestamps of their own. -/
def Distinct (ops : List (Op ν τ)) : Prop :=
  ∀ a ∈ ops, ∀ b ∈ ops, a.timestamp = b.timestamp → a = b

/-- Some operation is the latest. -/
lemma exists_champion (hdistinct : Distinct ops) (hne : ops ≠ []) :
    ∃ m, Champion Later m ops := by
  obtain ⟨m, hm, hmax⟩ := Multiset.exists_max_image Op.timestamp
    (s := (ops : Multiset (Op ν τ))) (by simpa using hne)
  refine ⟨m, hm, fun a ha hdiffers => lt_of_le_of_ne (hmax a ha) ?_⟩
  exact fun heq => hdiffers (hdistinct a ha m hm heq)

lemma later_asymm (a b : Op ν τ) (h : Later a b) : ¬ Later b a := lt_asymm h

/-- States that show the same operations are equal. -/
lemma Shows.unique {ops' : List (Op ν τ)} (h : Shows state ops) (h' : Shows state' ops')
    (hdistinct : Distinct ops) (hsame : ∀ op, op ∈ ops ↔ op ∈ ops') : state.look = state'.look := by
  funext key
  have hkey : ∀ op, op ∈ ofKey key ops ↔ op ∈ ofKey key ops' := by
    simp [ofKey, hsame]
  rw [h key, h' key]
  congr 1
  by_cases hne : ofKey key ops = []
  · have hne' : ofKey key ops' = [] := by
      rw [List.eq_nil_iff_forall_not_mem]
      intro op hop
      rw [← hkey, hne] at hop
      cases hop
    rw [hne, hne']
  · have hofKey : Distinct (ofKey key ops) := fun a ha b hb =>
      hdistinct a (List.mem_filter.mp ha).1 b (List.mem_filter.mp hb).1
    obtain ⟨m, hm, hbeats⟩ := exists_champion hofKey hne
    have hm' : Champion Later m (ofKey key ops') :=
      ⟨(hkey m).mp hm, fun a ha => hbeats a ((hkey a).mpr ha)⟩
    rw [holder_champion later_asymm ⟨hm, hbeats⟩, holder_champion later_asymm hm']

/-! ## The operations -/

variable [Zero τ]

lemma instant_of_pos (ht : 0 < t) : CRDTState.instant (some t) now = t := if_neg ht.ne'

/-- A local write is ignored, or it is the latest operation of its key. -/
lemma update_cases (ht : 0 < t) (state : CRDTState ν τ) (key : String) (value : ν) (now : τ) :
    state.update key value (some t) now = (state, none) ∨
      ∃ state', state.update key value (some t) now =
          (state', some (Op.delta ⟨key, t, some value⟩)) ∧
        Applied state state' ⟨key, t, some value⟩ := by
  rw [CRDTState.update, instant_of_pos ht]
  by_cases htombstone : ∃ d ∈ state.tombstones key, t ≤ d
  · exact .inl (if_pos htombstone)
  rw [if_neg htombstone]
  by_cases htimestamp : ∀ s ∈ state.timestamps key, s < t
  · have hearlier : ∀ d ∈ state.tombstones key, d < t := by
      intro d hd
      exact lt_of_not_ge fun hle => htombstone ⟨d, hd, hle⟩
    have htombstones : (if ∃ d ∈ state.tombstones key, d < t then
        Function.update state.tombstones key none else state.tombstones) =
          Function.update state.tombstones key none := by
      split_ifs with hpresent
      · rfl
      · have hnone : state.tombstones key = none := by
          rw [Option.eq_none_iff_forall_not_mem]
          exact fun d hd => hpresent ⟨d, hd, hearlier d hd⟩
        rw [← hnone, Function.update_eq_self]
    rw [if_pos htimestamp, htombstones]
    exact .inr ⟨_, rfl, applied_of_later ⟨key, t, some value⟩ ⟨htimestamp, hearlier⟩⟩
  · exact .inl (if_neg htimestamp)

/-- So is a local deletion, unless the value is newer. -/
lemma delete_cases (ht : 0 < t) (hvalue : ∀ s ∈ state.timestamps key, s < t) (now : τ) :
    state.delete key (some t) now = (state, none) ∨
      ∃ state', state.delete key (some t) now = (state', some (Op.delta ⟨key, t, none⟩)) ∧
        Applied state state' ⟨key, t, none⟩ := by
  rw [CRDTState.delete, instant_of_pos ht]
  split_ifs with htombstone
  · exact .inr ⟨_, rfl, applied_of_later ⟨key, t, none⟩ ⟨hvalue, htombstone⟩⟩
  · exact .inl rfl

lemma getD_lt_iff (ht : 0 < t) {d : Option τ} : d.getD 0 < t ↔ ∀ s ∈ d, s < t := by
  cases d with
  | none => simp [ht]
  | some s => simp

/-- What a merge compares, with 0 for no timestamp. -/
lemma applied_of_not_getD_lt (ht : 0 < op.timestamp)
    (hlater : ¬ ((state.timestamps op.key).getD 0 < op.timestamp ∧
      (state.tombstones op.key).getD 0 < op.timestamp)) : Applied state state op := by
  apply applied_of_not_later
  intro cell hlook
  rw [getD_lt_iff ht, getD_lt_iff ht, ← later_iff hlook] at hlater
  simpa using hlater

/-- A merged delta is its operation, for any timestamps. -/
lemma mergeDelta_applied (ht : 0 < op.timestamp) (state : CRDTState ν τ) :
    Applied state (state.mergeDelta op.delta).1 op := by
  obtain ⟨key, t, value⟩ := op
  cases value with
  | none =>
      change Applied state (state.mergeTombstone key t).1 _
      rw [CRDTState.mergeTombstone]
      split_ifs with hlater
      · rw [getD_lt_iff ht, getD_lt_iff ht] at hlater
        exact applied_of_later ⟨key, t, none⟩ hlater
      · exact applied_of_not_getD_lt ht hlater
  | some value =>
      have ht' : (PySequence.getItem [(key, t)] key).getD 0 = t := by
        rw [PySequence.getItem_cons, if_pos rfl]
        rfl
      change Applied state (state.mergeValue [(key, t)] key value).1 _
      rw [CRDTState.mergeValue, ht']
      split_ifs with htombstone htimestamp
      · exact applied_of_not_getD_lt ht fun h => absurd h.2 (not_lt.mpr htombstone)
      · rw [not_le, getD_lt_iff ht] at htombstone
        rw [getD_lt_iff ht] at htimestamp
        exact applied_of_later ⟨key, t, some value⟩ ⟨htimestamp, htombstone⟩
      · exact applied_of_not_getD_lt ht fun h => htimestamp h.1

/-! ## Replicas -/

/-- The deltas that were sent, and the timestamps of the calls. -/
structure Network (ν τ : Type) where
  sent : List (Delta ν τ) := []
  used : List τ := []

/-- A replica with the deltas that it has sent or merged. -/
structure Replica (ν τ : Type) where
  state : CRDTState ν τ := {}
  heard : List (Delta ν τ) := []

/-- A local call, or the arrival of a sent delta. -/
inductive Input (ν τ : Type)
  | update (key : String) (value : ν) (timestamp now : τ)
  | delete (key : String) (timestamp now : τ)
  | deliver (i : ℕ)

/-- The call has returned this state and this delta. -/
def send (network : Network ν τ) (replica : Replica ν τ) (timestamp : τ)
    (result : CRDTState ν τ × Option (Delta ν τ)) : Network ν τ × Replica ν τ :=
  (⟨network.sent ++ result.2.toList, timestamp :: network.used⟩,
    ⟨result.1, replica.heard ++ result.2.toList⟩)

/-- A call with a positive timestamp that no other call has had, or a delivery. -/
def next : Program (Input ν τ) (Network ν τ) (Replica ν τ)
  | .update key value timestamp now, network, replica =>
      if 0 < timestamp ∧ timestamp ∉ network.used then
        some (send network replica timestamp (replica.state.update key value (some timestamp) now))
      else none
  | .delete key timestamp now, network, replica =>
      if 0 < timestamp ∧ timestamp ∉ network.used then
        some (send network replica timestamp (replica.state.delete key (some timestamp) now))
      else none
  | .deliver i, network, replica =>
      network.sent[i]?.map fun delta =>
        (network, ⟨(replica.state.mergeDelta delta).1, replica.heard ++ [delta]⟩)

variable {ι : Type} [DecidableEq ι]

/-- No replica has done anything yet. -/
def start : World ι (Network ν τ) (Replica ν τ) := ⟨{}, fun _ => {}⟩

/-- Every delta has come to every replica. -/
def AllHeard (s : World ι (Network ν τ) (Replica ν τ)) : Prop :=
  ∀ i, ∀ delta ∈ s.store.sent, delta ∈ (s.proc i).heard

/-- A deletion is later than the value of its key at the replica. -/
def DeletesLater (s : World ι (Network ν τ) (Replica ν τ)) (i : ι) : Input ν τ → Prop
  | .delete key timestamp _ => ∀ t ∈ (s.proc i).state.timestamps key, t < timestamp
  | _ => True

/-- The deltas are those of operations with timestamps of their own, and every replica shows the latest
ones that it has heard of. -/
structure Consistent (s : World ι (Network ν τ) (Replica ν τ)) (ops : List (Op ν τ)) : Prop where
  sent : s.store.sent = ops.map Op.delta
  distinct : Distinct ops
  used : ∀ op ∈ ops, 0 < op.timestamp ∧ op.timestamp ∈ s.store.used
  shows : ∀ i, ∃ heard : List (Op ν τ), (s.proc i).heard = heard.map Op.delta ∧
    (∀ op ∈ heard, op ∈ ops) ∧ Shows (s.proc i).state heard

variable {s s' : World ι (Network ν τ) (Replica ν τ)} {i : ι}

/-- A call that sends nothing. -/
lemma Consistent.ignored (h : Consistent s ops) (timestamp : τ) :
    Consistent ⟨(send s.store (s.proc i) timestamp ((s.proc i).state, none)).1,
      Function.update s.proc i
        (send s.store (s.proc i) timestamp ((s.proc i).state, none)).2⟩ ops where
  sent := by simp [send, h.sent]
  distinct := h.distinct
  used op hop := ⟨(h.used op hop).1, List.mem_cons_of_mem _ (h.used op hop).2⟩
  shows j := by
    by_cases hj : j = i
    · subst hj
      simpa [send] using h.shows j
    · simpa [Function.update_of_ne hj] using h.shows j

/-- A call that sends an operation with a new timestamp. -/
lemma Consistent.sends (h : Consistent s ops) (op : Op ν τ) (hpos : 0 < op.timestamp)
    (hnew : op.timestamp ∉ s.store.used) (happlied : Applied (s.proc i).state state' op) :
    Consistent ⟨(send s.store (s.proc i) op.timestamp (state', some op.delta)).1,
      Function.update s.proc i
        (send s.store (s.proc i) op.timestamp (state', some op.delta)).2⟩ (ops ++ [op]) where
  sent := by simp [send, h.sent]
  distinct a ha b hb heq := by
    rw [List.mem_append, List.mem_singleton] at ha hb
    rcases ha with ha | rfl
    · rcases hb with hb | rfl
      · exact h.distinct a ha b hb heq
      · exact absurd (heq ▸ (h.used a ha).2) hnew
    · rcases hb with hb | rfl
      · exact absurd (heq ▸ (h.used b hb).2) hnew
      · rfl
  used a ha := by
    rw [List.mem_append, List.mem_singleton] at ha
    rcases ha with ha | rfl
    · exact ⟨(h.used a ha).1, List.mem_cons_of_mem _ (h.used a ha).2⟩
    · exact ⟨hpos, List.mem_cons_self⟩
  shows j := by
    obtain ⟨heard, hheard, hmem, hshows⟩ := h.shows j
    by_cases hj : j = i
    · subst hj
      refine ⟨heard ++ [op], ?_, ?_, ?_⟩
      · simp [send, hheard]
      · intro a ha
        rw [List.mem_append] at ha ⊢
        exact ha.imp_left (hmem a)
      · simpa [send] using hshows.applied happlied
    · refine ⟨heard, ?_, fun a ha => List.mem_append_left _ (hmem a ha), ?_⟩
      · simpa [Function.update_of_ne hj] using hheard
      · simpa [Function.update_of_ne hj] using hshows

/-- The arrival of a delta that was sent. -/
lemma Consistent.delivers (h : Consistent s ops) (hop : op ∈ ops) :
    Consistent ⟨s.store, Function.update s.proc i
      ⟨((s.proc i).state.mergeDelta op.delta).1, (s.proc i).heard ++ [op.delta]⟩⟩ ops where
  sent := h.sent
  distinct := h.distinct
  used := h.used
  shows j := by
    obtain ⟨heard, hheard, hmem, hshows⟩ := h.shows j
    by_cases hj : j = i
    · subst hj
      refine ⟨heard ++ [op], ?_, ?_, ?_⟩
      · simp [hheard]
      · intro a ha
        rcases List.mem_append.mp ha with ha | ha
        · exact hmem a ha
        · rwa [List.mem_singleton.mp ha]
      · simpa using hshows.applied (mergeDelta_applied (h.used op hop).1 _)
    · refine ⟨heard, ?_, hmem, ?_⟩
      · simpa [Function.update_of_ne hj] using hheard
      · simpa [Function.update_of_ne hj] using hshows

lemma Consistent.step {input : Input ν τ} (h : Consistent s ops) (hdeletes : DeletesLater s i input)
    (hstep : s.step next i input = some s') : ∃ ops', Consistent s' ops' := by
  obtain ⟨network, replica, hnext, rfl⟩ := step_eq_some hstep
  cases input with
  | update key value timestamp now =>
      obtain ⟨⟨hpos, hnew⟩, hsend⟩ := Option.ite_none_right_eq_some.mp hnext
      rcases update_cases hpos (s.proc i).state key value now with heq | ⟨state', heq, happlied⟩
      · rw [heq, Option.some.injEq] at hsend
        cases hsend
        exact ⟨ops, h.ignored timestamp⟩
      · rw [heq, Option.some.injEq] at hsend
        cases hsend
        exact ⟨_, h.sends ⟨key, timestamp, some value⟩ hpos hnew happlied⟩
  | delete key timestamp now =>
      obtain ⟨⟨hpos, hnew⟩, hsend⟩ := Option.ite_none_right_eq_some.mp hnext
      rcases delete_cases hpos hdeletes now with heq | ⟨state', heq, happlied⟩
      · rw [heq, Option.some.injEq] at hsend
        cases hsend
        exact ⟨ops, h.ignored timestamp⟩
      · rw [heq, Option.some.injEq] at hsend
        cases hsend
        exact ⟨_, h.sends ⟨key, timestamp, none⟩ hpos hnew happlied⟩
  | deliver k =>
      obtain ⟨delta, hdelta, heq⟩ := Option.map_eq_some_iff.mp hnext
      cases heq
      have hsent : delta ∈ ops.map Op.delta := h.sent ▸ List.mem_of_getElem? hdelta
      obtain ⟨op, hop, rfl⟩ := List.mem_map.mp hsent
      exact ⟨ops, h.delivers hop⟩

omit [DecidableEq ι] in
lemma consistent_start : Consistent (start : World ι (Network ν τ) (Replica ν τ)) [] where
  sent := rfl
  distinct := by simp [Distinct]
  used := by simp
  shows _ := ⟨[], rfl, by simp, fun _ => rfl⟩

/-- In every run whose deletions are later than the values of their keys, the replicas that have heard
of everything are equal. -/
theorem crdt_converges {actions : List (ι × Input ν τ)}
    (hrun : start.run next actions = some s)
    (hdeletes : start.Throughout next DeletesLater actions) (hheard : AllHeard s) (i j : ι) :
    (s.proc i).state = (s.proc j).state := by
  have hstart : ∃ ops, Consistent (start : World ι (Network ν τ) (Replica ν τ)) ops :=
    ⟨[], consistent_start⟩
  obtain ⟨ops, hconsistent⟩ := run_induction
    (I := fun s => ∃ ops, Consistent s ops) (fun s i input s' h hcondition hstep =>
      h.elim fun _ hconsistent => hconsistent.step hcondition hstep) hstart hrun hdeletes
  obtain ⟨heard, hi, hmem, hshows⟩ := hconsistent.shows i
  obtain ⟨heard', hj, hmem', hshows'⟩ := hconsistent.shows j
  have hall : ∀ (k : ι) (heard : List (Op ν τ)), (s.proc k).heard = heard.map Op.delta →
      ∀ op ∈ ops, op ∈ heard := by
    intro k heard hk op hop
    have hsent := hheard k op.delta (hconsistent.sent ▸ List.mem_map_of_mem hop)
    rw [hk] at hsent
    exact (List.mem_map_of_injective Op.delta_injective).mp hsent
  have hlook := hshows.unique hshows'
    (fun a ha b hb => hconsistent.distinct a (hmem a ha) b (hmem b hb))
    (fun op => ⟨fun hop => hall j heard' hj op (hmem op hop),
      fun hop => hall i heard hi op (hmem' op hop)⟩)
  exact eq_of_look hlook

/-! ## Two replicas -/

/-- A value of time 10, its deletion at the same replica, and the deltas at the other replica. -/
def deletion (timestamp : ℤ) : List (Bool × Input String ℤ) :=
  [(true, .update "k" "v" 10 0), (true, .delete "k" timestamp 0), (false, .deliver 0),
    (false, .deliver 1)]

/-- Whether the replicas have heard of everything, and what they show for the key. -/
def report (s : World Bool (Network String ℤ) (Replica String ℤ)) :=
  ((decide ((s.proc true).heard = s.store.sent), decide ((s.proc false).heard = s.store.sent)),
    (s.proc true).state.values "k", (s.proc false).state.values "k")

lemma allHeard_of_report {s : World Bool (Network String ℤ) (Replica String ℤ)}
    (h : (report s).1 = (true, true)) : AllHeard s := by
  obtain ⟨htrue, hfalse⟩ := Prod.mk.inj h
  rintro (_ | _) delta hdelta
  · rwa [of_decide_eq_true hfalse]
  · rwa [of_decide_eq_true htrue]

/-- A deletion of time 5 removes the newer value only where it is called. -/
theorem old_deletion_diverges :
    ∃ s : World Bool (Network String ℤ) (Replica String ℤ),
      start.run next (deletion 5) = some s ∧ AllHeard s ∧
        (s.proc true).state ≠ (s.proc false).state := by
  have hreport : (start.run next (deletion 5)).map report =
      some ((true, true), none, some "v") := by decide +kernel
  obtain ⟨s, hrun, hs⟩ := Option.map_eq_some_iff.mp hreport
  refine ⟨s, hrun, allHeard_of_report (congrArg Prod.fst hs), fun heq => ?_⟩
  obtain ⟨htrue, hfalse⟩ := Prod.mk.inj (congrArg Prod.snd hs)
  have hnone : (s.proc true).state.values "k" = none := htrue
  have hsome : (s.proc false).state.values "k" = some "v" := hfalse
  rw [heq, hsome] at hnone
  cases hnone

/-- A deletion of time 12 removes it everywhere. -/
theorem deletion_converges :
    ∃ s : World Bool (Network String ℤ) (Replica String ℤ),
      start.run next (deletion 12) = some s ∧ AllHeard s ∧
        (s.proc true).state = (s.proc false).state := by
  have hreport : (start.run next (deletion 12)).map (fun s => (report s).1) =
      some (true, true) := by decide +kernel
  obtain ⟨s, hrun, hs⟩ := Option.map_eq_some_iff.mp hreport
  have hheard := allHeard_of_report hs
  refine ⟨s, hrun, hheard, crdt_converges hrun ?_ hheard true false⟩
  refine ⟨trivial, fun s₁ hs₁ => ⟨?_, fun s₂ _ => ⟨trivial, fun s₃ _ => ⟨trivial, fun _ _ => trivial⟩⟩⟩⟩
  intro t ht
  cases hs₁
  cases ht
  decide

end AgentSystem.Crdt
