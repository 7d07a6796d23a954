import AgentSystem.TokenCharges
import Mathlib.Tactic.Linarith

/-!
# Every transaction charged once

A call inserts its row and deducts its cost in one write transaction, and the unique index refuses a
second row for a key of a tenant. So the credits are those of the rows, whatever the order of the
statements of all the calls.
-/
namespace AgentSystem.Charges

open Interleaving

/-! ## The tables -/

/-- The credits after the deductions of these rows. -/
def charged (rows : List LedgerRow) : ℚ := rows.foldl (fun credits row => max 0 (credits - row.cost)) 100

/-- One row for a key of a tenant, and the credits of the rows. -/
structure Sound (db : Database) : Prop where
  keyed : ∀ tenantId key, (db.keyed tenantId key).length ≤ 1
  credits : ∀ tenantId, db.credits tenantId = charged (db.rowsOf tenantId)

variable {db db' : Database} {row : LedgerRow} {tenantId key : String}

lemma sound_empty : Sound {} where
  keyed _ _ := Nat.zero_le 1
  credits _ := rfl

lemma insertRow_eq_some (h : db.insertRow row = some db') :
    (∀ key, row.idempotencyKey = some key → db.keyed row.tenantId key = []) ∧
      db' = { db with rows := db.rows ++ [row] } := by
  rw [Database.insertRow] at h
  split_ifs at h with hconflict
  · refine ⟨fun key hkey => ?_, (Option.some.inj h).symm⟩
    by_contra hne
    exact hconflict ⟨key, hkey, hne⟩

/-- The database after the transaction of a row. -/
def charge (db : Database) (row : LedgerRow) : Database :=
  (({ db with rows := db.rows ++ [row] }).ensureBudget row.tenantId).deduct row.tenantId row.cost

@[simp] lemma ensureBudget_rows : (db.ensureBudget tenantId).rows = db.rows := by
  rw [Database.ensureBudget]
  split <;> rfl

@[simp] lemma charge_rows : (charge db row).rows = db.rows ++ [row] := ensureBudget_rows

lemma ensureBudget_budgets (db : Database) (tenantId : String) :
    (db.ensureBudget tenantId).budgets =
      Function.update db.budgets tenantId (some ((db.budgets tenantId).getD {})) := by
  rw [Database.ensureBudget]
  split
  · rename_i budget hbudget
    rw [hbudget, Option.getD_some, ← hbudget, Function.update_eq_self]
  · rename_i hnone
    rw [hnone]
    rfl

/-- The cost of the row is deducted from what its tenant has. -/
lemma charge_credits (db : Database) (row : LedgerRow) (tenantId : String) :
    (charge db row).credits tenantId =
      if row.tenantId = tenantId then max 0 (db.credits tenantId - row.cost)
      else db.credits tenantId := by
  have hbudgets : (charge db row).budgets = Function.update db.budgets row.tenantId
      (some { (db.budgets row.tenantId).getD {} with
        credits := max 0 (((db.budgets row.tenantId).getD {}).credits - row.cost) }) := by
    rw [charge, Database.deduct, ensureBudget_budgets]
    simp
  rw [Database.credits, hbudgets]
  split_ifs with htenant
  · subst htenant
    rw [Function.update_self, Database.credits]
    cases db.budgets row.tenantId <;> rfl
  · rw [Function.update_of_ne (Ne.symm htenant)]
    rfl

lemma rowsOf_append (h : db'.rows = db.rows ++ [row]) (tenantId : String) :
    db'.rowsOf tenantId = db.rowsOf tenantId ++ if row.tenantId = tenantId then [row] else [] := by
  rw [Database.rowsOf, h, List.filter_append, List.filter_singleton]
  simp [Database.rowsOf]

/-- The transaction of a row that the index accepts. -/
lemma Sound.charge (hsound : Sound db)
    (hnew : ∀ key, row.idempotencyKey = some key → db.keyed row.tenantId key = []) :
    Sound (charge db row) where
  keyed tenantId key := by
    rw [Database.keyed, charge_rows, List.filter_append, List.length_append, List.filter_singleton]
    have hbefore : ((db.rows.filter fun row =>
        decide (row.tenantId = tenantId ∧ row.idempotencyKey = some key)).length ≤ 1) :=
      hsound.keyed tenantId key
    by_cases hrow : row.tenantId = tenantId ∧ row.idempotencyKey = some key
    · obtain ⟨rfl, hkey⟩ := hrow
      have hnone := hnew key hkey
      rw [Database.keyed] at hnone
      rw [hnone, decide_eq_true ⟨rfl, hkey⟩]
      rfl
    · simpa [hrow] using hbefore
  credits tenantId := by
    rw [charge_credits, rowsOf_append charge_rows, hsound.credits]
    split_ifs
    · rw [charged, charged, List.foldl_append]
      rfl
    · rw [List.append_nil]

/-! ## The calls -/

/-- A row of the non-empty key of a transaction. -/
def Repeats (t : Transaction) (row : LedgerRow) : Prop :=
  row.tenantId = t.tenantId ∧ row.idempotencyKey = t.idempotencyKey ∧
    ∃ key, t.idempotencyKey = some key ∧ key ≠ ""

/-- What holds of a call that is over: a row of its key that was committed when it was made decides
what it returns, and only a call that inserts its row and returns its cost changes the tables. -/
structure Fair (lower : String → String) (e : Entry) : Prop where
  repeated : ∀ row ∈ e.known, Repeats e.transaction row →
    (e.outcome = .returned row.cost ∨ e.outcome = .failed) ∧ e.inserted = none
  raised : (∀ cost, e.outcome ≠ .returned cost) → e.inserted = none
  recorded : ∀ row, e.inserted = some row →
    row = e.transaction.row lower ∧ e.outcome = .returned row.cost

/-- The lookup finds the row of a key that is committed. -/
lemma recordedCost_of_repeats (hsound : Sound db) {t : Transaction} (hmem : row ∈ db.rows)
    (hrepeats : Repeats t row) : db.recordedCost t = some row.cost := by
  obtain ⟨htenant, hkey, key, htkey, hne⟩ := hrepeats
  have hrow : row ∈ db.keyed t.tenantId key := by
    rw [Database.keyed, List.mem_filter]
    exact ⟨hmem, by simp [htenant, hkey, htkey]⟩
  have hsingle : db.keyed t.tenantId key = [row] := by
    obtain ⟨first, hfirst⟩ := List.length_eq_one_iff.mp
      (le_antisymm (hsound.keyed t.tenantId key) (List.length_pos_of_mem hrow))
    rw [hfirst, List.mem_singleton] at hrow
    rw [hfirst, hrow]
  rw [Database.recordedCost, htkey]
  simp [hne, hsingle]

variable {κ : Type} [DecidableEq κ] {lower : String → String} {ι : Type} [DecidableEq ι]

/-- No row of its key was committed when the call was made. -/
def Unseen (call : Call κ) : Prop := ∀ row ∈ call.known, ¬ Repeats call.transaction row

/-- What a call knows, and what its transaction has done to the committed database. -/
def Staged (lower : String → String) (store : Store κ) : Phase κ → Prop
  | .idle => True
  | .entered call => ∀ row ∈ call.known, row ∈ store.committed.rows
  | .found call cost => ∀ row ∈ call.known, Repeats call.transaction row → cost = row.cost
  | .looked call => Unseen call
  | .inserted call db =>
      Unseen call ∧ store.committed.insertRow (call.transaction.row lower) = some db
  | .ensured call db =>
      Unseen call ∧ ∃ db', store.committed.insertRow (call.transaction.row lower) = some db' ∧
        db = db'.ensureBudget call.transaction.tenantId
  | .deducted call db =>
      Unseen call ∧ ∃ db', store.committed.insertRow (call.transaction.row lower) = some db' ∧
        db = (db'.ensureBudget call.transaction.tenantId).deduct call.transaction.tenantId
          (call.transaction.row lower).cost

/-- The tables are those of the calls that are over, and no two calls write. -/
structure Consistent (lower : String → String) (s : World ι (Store κ) (Phase κ)) : Prop where
  sound : Sound s.store.committed
  log : ∀ e ∈ s.store.log, Fair lower e
  rows : s.store.committed.rows = s.store.log.filterMap Entry.inserted
  staged : ∀ i, Staged lower s.store (s.proc i)
  locked : ∀ i, (s.proc i).writes = true → s.store.writing = true
  single : ∀ i j, (s.proc i).writes = true → (s.proc j).writes = true → i = j

/-- What a step of a call does to the store and to the call. -/
inductive Move (lower : String → String) (store : Store κ) : Phase κ → Store κ → Phase κ → Prop
  | enter (ledger : κ) (t : Transaction) :
      Move lower store .idle { store with busy := Function.update store.busy ledger true }
        (.entered ⟨ledger, t, store.committed.rows⟩)
  | find (call : Call κ) (cost : ℚ)
      (hcost : store.committed.recordedCost call.transaction = some cost) :
      Move lower store (.entered call) store (.found call cost)
  | look (call : Call κ) (hnone : store.committed.recordedCost call.transaction = none) :
      Move lower store (.entered call) store (.looked call)
  | answer (call : Call κ) (cost : ℚ) :
      Move lower store (.found call cost) (store.leave call (.returned cost) none) .idle
  | refuse (call : Call κ) :
      Move lower store (.looked call) (store.leave call .integrityError none) .idle
  | insert (call : Call κ) (db : Database) (hfree : store.writing = false)
      (hinsert : store.committed.insertRow (call.transaction.row lower) = some db) :
      Move lower store (.looked call) { store with writing := true } (.inserted call db)
  | ensure (call : Call κ) (db : Database) :
      Move lower store (.inserted call db) store
        (.ensured call (db.ensureBudget call.transaction.tenantId))
  | deduct (call : Call κ) (db : Database) :
      Move lower store (.ensured call db) store
        (.deducted call (db.deduct call.transaction.tenantId (call.transaction.row lower).cost))
  | commit (call : Call κ) (db : Database) :
      Move lower store (.deducted call db)
        (({ store with committed := db, writing := false }).leave call
          (.returned (call.transaction.row lower).cost) (some (call.transaction.row lower))) .idle
  | fail (phase : Phase κ) (call : Call κ) (hcall : phase.call = some call) :
      Move lower store phase
        (({ store with writing := store.writing && !phase.writes }).leave call .failed none) .idle

variable {store store' : Store κ} {phase phase' : Phase κ}

lemma move_of_next {input : Input κ} (h : next lower input store phase = some (store', phase')) :
    Move lower store phase store' phase' := by
  cases input with
  | enter ledger t =>
      cases phase with
      | idle =>
          obtain ⟨-, heq⟩ := Option.ite_none_left_eq_some.mp h
          cases heq
          exact .enter ledger t
      | _ => cases h
  | advance =>
      cases phase with
      | idle => cases h
      | entered call =>
          rw [next] at h
          split at h
          · rename_i cost hcost
            cases h
            exact .find call cost hcost
          · rename_i hnone
            cases h
            exact .look call hnone
      | found call cost =>
          cases h
          exact .answer call cost
      | looked call =>
          obtain ⟨hfree, hrest⟩ := Option.ite_none_left_eq_some.mp h
          split at hrest
          · cases hrest
            exact .refuse call
          · rename_i db hinsert
            cases hrest
            exact .insert call db (Bool.eq_false_of_not_eq_true hfree) hinsert
      | inserted call db =>
          cases h
          exact .ensure call db
      | ensured call db =>
          cases h
          exact .deduct call db
      | deducted call db =>
          cases h
          exact .commit call db
  | fail =>
      obtain ⟨call, hcall, heq⟩ := Option.map_eq_some_iff.mp h
      cases heq
      exact .fail phase call hcall

variable {s s' : World ι (Store κ) (Phase κ)} {i : ι}

omit [DecidableEq κ] in
lemma Staged.of_committed (h : Staged lower store phase)
    (hcommitted : store'.committed = store.committed) : Staged lower store' phase := by
  cases phase <;> simpa only [Staged, hcommitted] using h

omit [DecidableEq κ] in
lemma Staged.of_not_writes (h : Staged lower store phase) (hwrites : phase.writes = false)
    (hrows : ∀ row ∈ store.committed.rows, row ∈ store'.committed.rows) :
    Staged lower store' phase := by
  cases phase with
  | idle => trivial
  | entered call => exact fun row hrow => hrows row (h row hrow)
  | found call cost => exact h
  | looked call => exact h
  | _ => cases hwrites

omit [DecidableEq κ] in
/-- A step that leaves the committed tables as they are. -/
lemma Consistent.update (h : Consistent lower s) (more : List Entry)
    (hcommitted : store'.committed = s.store.committed) (hlog : store'.log = s.store.log ++ more)
    (hmore : ∀ e ∈ more, Fair lower e ∧ e.inserted = none) (hstaged : Staged lower store' phase)
    (hwrites : phase.writes = true →
      store'.writing = true ∧ ∀ j, j ≠ i → (s.proc j).writes ≠ true)
    (hothers : ∀ j, j ≠ i → (s.proc j).writes = true → store'.writing = true) :
    Consistent lower ⟨store', Function.update s.proc i phase⟩ where
  sound := by
    rw [hcommitted]
    exact h.sound
  log e he := by
    rw [hlog, List.mem_append] at he
    exact he.elim (h.log e) fun hnew => (hmore e hnew).1
  rows := by
    have hnone : more.filterMap Entry.inserted = [] :=
      List.filterMap_eq_nil_iff.mpr fun e he => (hmore e he).2
    rw [hcommitted, hlog, List.filterMap_append, hnone, List.append_nil, h.rows]
  staged := forall_proc hstaged fun j _ => (h.staged j).of_committed hcommitted
  locked := forall_proc (P := fun _ (p : Phase κ) => p.writes = true → store'.writing = true)
    (fun hself => (hwrites hself).1) hothers
  single j k hj hk := by
    by_contra hne
    by_cases hji : j = i
    · subst hji
      rw [proc_self] at hj
      rw [proc_of_ne (Ne.symm hne)] at hk
      exact (hwrites hj).2 k (Ne.symm hne) hk
    · rw [proc_of_ne hji] at hj
      by_cases hki : k = i
      · subst hki
        rw [proc_self] at hk
        exact (hwrites hk).2 j hji hj
      · rw [proc_of_ne hki] at hk
        exact hne (h.single j k hj hk)

/-- The commit of the only call that writes. -/
lemma Consistent.commit (h : Consistent lower s) {call : Call κ} (hphase : s.proc i = .deducted call db) :
    Consistent lower
      ⟨({ s.store with committed := db, writing := false }).leave call
          (.returned (call.transaction.row lower).cost) (some (call.transaction.row lower)),
        Function.update s.proc i .idle⟩ := by
  have hwrites : (s.proc i).writes = true := by rw [hphase]; rfl
  have hothers : ∀ j, j ≠ i → (s.proc j).writes = false := by
    intro j hj
    by_contra hw
    exact hj (h.single j i (Bool.eq_true_of_not_eq_false hw) hwrites)
  obtain ⟨hunseen, db', hinsert, hdb⟩ : Staged lower s.store (.deducted call db) :=
    hphase ▸ h.staged i
  obtain ⟨hnew, rfl⟩ := insertRow_eq_some hinsert
  have hcharge : db = charge s.store.committed (call.transaction.row lower) := hdb
  have hrows : db.rows = s.store.committed.rows ++ [call.transaction.row lower] := by
    rw [hcharge, charge_rows]
  constructor
  · change Sound db
    rw [hcharge]
    exact h.sound.charge hnew
  · intro e he
    rcases List.mem_append.mp he with he | he
    · exact h.log e he
    · rw [List.mem_singleton.mp he]
      exact
        { repeated := fun row hrow hrepeats => absurd hrepeats (hunseen row hrow)
          raised := fun hraised => absurd rfl (hraised _)
          recorded := by
            rintro row ⟨⟩
            exact ⟨rfl, rfl⟩ }
  · change db.rows = (s.store.log ++ [_]).filterMap Entry.inserted
    rw [hrows, h.rows, List.filterMap_append]
    rfl
  · apply forall_proc
    · trivial
    · intro j hj
      apply (h.staged j).of_not_writes (hothers j hj)
      intro row hrow
      change row ∈ db.rows
      rw [hrows]
      exact List.mem_append_left _ hrow
  · apply forall_proc (P := fun _ (p : Phase κ) => p.writes = true → false = true)
    · intro hself
      cases hself
    · intro j hj hw
      rw [hothers j hj] at hw
      cases hw
  · intro j k hj
    by_cases hji : j = i
    · subst hji
      rw [proc_self] at hj
      cases hj
    · rw [proc_of_ne hji, hothers j hji] at hj
      cases hj

/-- A call that is over without a row of its own. -/
lemma Consistent.leave (h : Consistent lower s) {call : Call κ} {outcome : Outcome} (writing : Bool)
    (hfair : Fair lower ⟨call.transaction, call.known, outcome, none⟩)
    (hothers : ∀ j, j ≠ i → (s.proc j).writes = true → writing = true) :
    Consistent lower
      ⟨({ s.store with writing := writing }).leave call outcome none,
        Function.update s.proc i .idle⟩ := by
  apply h.update [⟨call.transaction, call.known, outcome, none⟩]
  · rfl
  · rfl
  · intro e he
    rw [List.mem_singleton.mp he]
    exact ⟨hfair, rfl⟩
  · trivial
  · intro hself
    cases hself
  · exact hothers

lemma Consistent.step {input : Input κ} (h : Consistent lower s)
    (hstep : s.step (next lower) i input = some s') : Consistent lower s' := by
  obtain ⟨store, phase, hnext, rfl⟩ := step_eq_some hstep
  have hmove := move_of_next hnext
  have hstaged := h.staged i
  have hlocked : ∀ j, j ≠ i → (s.proc j).writes = true → s.store.writing = true :=
    fun j _ => h.locked j
  generalize hphase : s.proc i = before at hmove hstaged
  have hsingle : before.writes = true → ∀ j, j ≠ i → (s.proc j).writes ≠ true :=
    fun hw j hj hj' => hj (h.single j i hj' (hphase ▸ hw))
  have hnothing : ∀ e ∈ ([] : List Entry), Fair lower e ∧ e.inserted = none := by simp
  cases hmove with
  | enter ledger t =>
      exact h.update [] rfl (List.append_nil _).symm hnothing (fun row hrow => hrow)
        (fun hw => absurd hw (by simp [Phase.writes])) hlocked
  | find call cost hcost =>
      refine h.update [] rfl (List.append_nil _).symm hnothing (fun row hrow hrepeats => ?_)
        (fun hw => absurd hw (by simp [Phase.writes])) hlocked
      have hfound := recordedCost_of_repeats h.sound (hstaged row hrow) hrepeats
      exact Option.some.inj (hcost.symm.trans hfound)
  | look call hnone =>
      refine h.update [] rfl (List.append_nil _).symm hnothing (fun row hrow hrepeats => ?_)
        (fun hw => absurd hw (by simp [Phase.writes])) hlocked
      have hfound := recordedCost_of_repeats h.sound (hstaged row hrow) hrepeats
      rw [hnone] at hfound
      cases hfound
  | answer call cost =>
      apply h.leave s.store.writing _ hlocked
      exact
        { repeated := fun row hrow hrepeats => ⟨.inl (by rw [hstaged row hrow hrepeats]), rfl⟩
          raised := fun _ => rfl
          recorded := fun _ hinserted => by cases hinserted }
  | refuse call =>
      apply h.leave s.store.writing _ hlocked
      exact
        { repeated := fun row hrow hrepeats => absurd hrepeats (hstaged row hrow)
          raised := fun _ => rfl
          recorded := fun _ hinserted => by cases hinserted }
  | insert call db hfree hinsert =>
      refine h.update [] rfl (List.append_nil _).symm hnothing ⟨hstaged, hinsert⟩
        (fun _ => ⟨rfl, fun j _ hj => ?_⟩) (fun _ _ _ => rfl)
      rw [h.locked j hj] at hfree
      cases hfree
  | ensure call db =>
      exact h.update [] rfl (List.append_nil _).symm hnothing ⟨hstaged.1, db, hstaged.2, rfl⟩
        (fun _ => ⟨h.locked i (by rw [hphase]; rfl), hsingle rfl⟩) hlocked
  | deduct call db =>
      obtain ⟨hunseen, db', hinsert, rfl⟩ := hstaged
      exact h.update [] rfl (List.append_nil _).symm hnothing ⟨hunseen, db', hinsert, rfl⟩
        (fun _ => ⟨h.locked i (by rw [hphase]; rfl), hsingle rfl⟩) hlocked
  | commit call db => exact h.commit hphase
  | fail call hcall =>
      apply h.leave
      · exact
          { repeated := fun _ _ _ => ⟨.inr rfl, rfl⟩
            raised := fun _ => rfl
            recorded := fun _ hinserted => by cases hinserted }
      · intro j hj hw
        rw [h.locked j hw, Bool.true_and, Bool.not_eq_true']
        by_contra hwrites
        exact hsingle (Bool.eq_true_of_not_eq_false hwrites) j hj hw

/-- Nobody has called yet. -/
def start : World ι (Store κ) (Phase κ) := ⟨{}, fun _ => .idle⟩

omit [DecidableEq κ] [DecidableEq ι] in
lemma consistent_start : Consistent lower (start : World ι (Store κ) (Phase κ)) where
  sound := sound_empty
  log := by simp [start]
  rows := rfl
  staged _ := trivial
  locked _ hw := by cases hw
  single _ _ hw := by cases hw

/-- After every run, a key of a tenant has at most one row, the credits are those of the rows, the rows
are those of the calls that returned their cost, and every call was fair. -/
theorem charged_once {actions : List (ι × Input κ)} (hrun : start.run (next lower) actions = some s) :
    (∀ tenantId key, (s.store.committed.keyed tenantId key).length ≤ 1) ∧
      (∀ tenantId, s.store.committed.credits tenantId =
        charged (s.store.committed.rowsOf tenantId)) ∧
      s.store.committed.rows = s.store.log.filterMap Entry.inserted ∧
      ∀ e ∈ s.store.log, Fair lower e := by
  have hconsistent : Consistent lower s :=
    run_invariant (fun _ _ _ _ h hstep => h.step hstep) consistent_start hrun
  exact ⟨hconsistent.sound.keyed, hconsistent.sound.credits, hconsistent.rows, hconsistent.log⟩

/-! ## Two ledgers -/

/-- A transaction of one tenant under one key. -/
def sampleTransaction : Transaction :=
  { sessionId := "s", accountId := "a", provider := "p", model := "gemini-pro",
    promptTokens := 1000000, completionTokens := 100000, tenantId := "t",
    idempotencyKey := some "k", now := "2026-01-01" }

/-- Two ledgers look for the key, both find nothing, and the second one inserts too late; it calls
again. -/
def race : List (Bool × Input Bool) :=
  [(true, .enter true sampleTransaction), (false, .enter false sampleTransaction), (true, .advance),
    (false, .advance), (true, .advance), (true, .advance), (true, .advance), (true, .advance),
    (false, .advance), (false, .enter false sampleTransaction), (false, .advance),
    (false, .advance)]

/-- The cost is deducted once. -/
theorem race_charged_once :
    ∃ s : World Bool (Store Bool) (Phase Bool), start.run (next id) race = some s ∧
      s.store.log.map Entry.outcome =
        [.returned (39 / 2), .integrityError, .returned (39 / 2)] ∧
      s.store.committed.credits "t" = 161 / 2 := by
  have hreport : (start.run (next id) race).map (fun s =>
      (s.store.log.map Entry.outcome, s.store.committed.rowsOf "t")) =
        some ([.returned (39 / 2), .integrityError, .returned (39 / 2)],
          [sampleTransaction.row id]) := by decide +kernel
  obtain ⟨s, hrun, hs⟩ := Option.map_eq_some_iff.mp hreport
  obtain ⟨hlog, hrows⟩ := Prod.mk.inj hs
  refine ⟨s, hrun, hlog, ?_⟩
  rw [(charged_once hrun).2.1, hrows]
  decide +kernel

end AgentSystem.Charges
