import Mathlib.Logic.Function.Basic
import Mathlib.Tactic.SplitIfs

/-!
# Writers of a shared database

Calls that read a value, compute a row from it and insert that row. The transaction of a call starts
with its insert, so that others may commit after its read; a lock that the call holds keeps out only
the writers that use the same one.
-/
namespace AgentSystem.SharedDatabase

/-- What a call reads, and what its insert makes of the value, `none` when that raises. -/
structure Table (σ γ τ : Type) where
  read : σ → γ → τ
  insert : σ → γ → τ → Option σ

/-- How far the call of a writer is. -/
inductive Phase (γ τ : Type)
  | idle
  | entered (call : γ)
  | informed (call : γ) (value : τ)
  | inserted
  deriving DecidableEq

/-- The committed database, the transaction that has the write lock of the database, the locks of
the writers and their calls. -/
structure World (ω κ σ γ τ : Type) where
  database : σ
  uncommitted : Option (ω × σ)
  holder : κ → Option ω
  phase : ω → Phase γ τ

inductive Action (ω γ : Type)
  | enter (writer : ω) (call : γ)
  | read (writer : ω)
  | insert (writer : ω)
  | commit (writer : ω)
  | raise (writer : ω)
  deriving DecidableEq

variable {ω κ σ γ τ : Type} [DecidableEq ω] [DecidableEq κ] (t : Table σ γ τ) (lock : ω → κ)

namespace World

/-- A database that nobody uses. -/
def start (database : σ) : World ω κ σ γ τ := ⟨database, none, fun _ => none, fun _ => .idle⟩

variable (s : World ω κ σ γ τ)

/-- The writer has left its call and its lock. -/
def leave (writer : ω) : World ω κ σ γ τ :=
  { s with
    holder := Function.update s.holder (lock writer) none
    phase := Function.update s.phase writer .idle }

def step : Action ω γ → Option (World ω κ σ γ τ)
  | .enter writer call =>
      match s.phase writer, s.holder (lock writer) with
      | .idle, none =>
          some
            { s with
              holder := Function.update s.holder (lock writer) (some writer)
              phase := Function.update s.phase writer (.entered call) }
      | _, _ => none
  | .read writer =>
      match s.phase writer with
      | .entered call =>
          some
            { s with
              phase := Function.update s.phase writer (.informed call (t.read s.database call)) }
      | _ => none
  | .insert writer =>
      match s.phase writer, s.uncommitted with
      | .informed call value, none =>
          (t.insert s.database call value).map fun database =>
            { s with
              uncommitted := some (writer, database)
              phase := Function.update s.phase writer .inserted }
      | _, _ => none
  | .commit writer =>
      match s.uncommitted with
      | some (owner, database) =>
          if owner = writer then
            some ({ s with database := database, uncommitted := none }.leave lock writer)
          else none
      | none => none
  | .raise writer =>
      match s.phase writer with
      | .idle => none
      | _ =>
          some
            ({ s with
              uncommitted := s.uncommitted.filter fun owned => owned.1 ≠ writer }.leave lock writer)

/-- The actions one after the other, `none` if one of them is impossible. -/
def run (s : World ω κ σ γ τ) : List (Action ω γ) → Option (World ω κ σ γ τ)
  | [] => some s
  | action :: actions => (s.step t lock action).bind (run · actions)

/-- Every action of the run meets a condition on the world before it. -/
def Throughout (condition : World ω κ σ γ τ → Action ω γ → Prop) (s : World ω κ σ γ τ) :
    List (Action ω γ) → Prop
  | [] => True
  | action :: actions =>
      condition s action ∧ ∀ s', s.step t lock action = some s' → Throughout condition s' actions

/-- Inserts of good calls only, each of which finds what it has read. -/
def Fresh (good : γ → Prop) (s : World ω κ σ γ τ) : Action ω γ → Prop
  | .insert writer => ∀ call value, s.phase writer = .informed call value →
      value = t.read s.database call ∧ good call
  | _ => True

variable {t lock} {s s' : World ω κ σ γ τ} {writer : ω} {action : Action ω γ} {good : γ → Prop}

/-! ## What one action does -/

lemma enter_eq {call : γ} (h : s.step t lock (.enter writer call) = some s') :
    s.phase writer = .idle ∧ s.holder (lock writer) = none ∧
      s' = { s with
        holder := Function.update s.holder (lock writer) (some writer)
        phase := Function.update s.phase writer (.entered call) } := by
  simp only [step] at h
  split at h
  · rename_i hphase hholder
    exact ⟨hphase, hholder, (Option.some.inj h).symm⟩
  · cases h

lemma read_eq (h : s.step t lock (.read writer) = some s') :
    ∃ call, s.phase writer = .entered call ∧
      s' = { s with
        phase := Function.update s.phase writer (.informed call (t.read s.database call)) } := by
  simp only [step] at h
  split at h
  · rename_i call hphase
    exact ⟨call, hphase, (Option.some.inj h).symm⟩
  · cases h

lemma insert_eq (h : s.step t lock (.insert writer) = some s') :
    ∃ call value database, s.phase writer = .informed call value ∧ s.uncommitted = none ∧
      t.insert s.database call value = some database ∧
      s' = { s with
        uncommitted := some (writer, database)
        phase := Function.update s.phase writer .inserted } := by
  simp only [step] at h
  split at h
  · rename_i call value hphase hnone
    obtain ⟨database, hinsert, heq⟩ := Option.map_eq_some_iff.mp h
    exact ⟨call, value, database, hphase, hnone, hinsert, heq.symm⟩
  · cases h

lemma commit_eq (h : s.step t lock (.commit writer) = some s') :
    ∃ database, s.uncommitted = some (writer, database) ∧
      s' = { s with database := database, uncommitted := none }.leave lock writer := by
  simp only [step] at h
  split at h
  · rename_i owner database huncommitted
    split_ifs at h with howner
    exact ⟨database, howner ▸ huncommitted, (Option.some.inj h).symm⟩
  · cases h

lemma raise_eq (h : s.step t lock (.raise writer) = some s') :
    s.phase writer ≠ .idle ∧
      s' = { s with
        uncommitted := s.uncommitted.filter fun owned => owned.1 ≠ writer }.leave lock writer := by
  simp only [step] at h
  split at h
  · cases h
  · rename_i hphase
    exact ⟨hphase, (Option.some.inj h).symm⟩

/-! ## Runs -/

/-- What one action preserves under a condition holds after every run that meets the condition. -/
theorem run_induction {condition : World ω κ σ γ τ → Action ω γ → Prop}
    {I : World ω κ σ γ τ → Prop}
    (hstep : ∀ s action s', I s → condition s action → s.step t lock action = some s' → I s')
    {actions : List (Action ω γ)} (hs : I s) (hrun : s.run t lock actions = some s')
    (hthroughout : s.Throughout t lock condition actions) : I s' := by
  induction actions generalizing s with
  | nil =>
      cases hrun
      exact hs
  | cons action actions ih =>
      obtain ⟨next, hnext, hrest⟩ := Option.bind_eq_some_iff.mp hrun
      obtain ⟨hcondition, hafter⟩ := hthroughout
      exact ih (hstep s action next hs hcondition hnext) hrest (hafter next hnext)

lemma throughout_of_forall {condition : World ω κ σ γ τ → Action ω γ → Prop}
    {actions : List (Action ω γ)} (h : ∀ action ∈ actions, ∀ s, condition s action) :
    s.Throughout t lock condition actions := by
  induction actions generalizing s with
  | nil => trivial
  | cons action actions ih =>
      obtain ⟨haction, hactions⟩ := List.forall_mem_cons.mp h
      exact ⟨haction s, fun next _ => ih hactions⟩

/-- The database and the one that may replace it have the property. -/
def Holds (P : σ → Prop) (s : World ω κ σ γ τ) : Prop :=
  P s.database ∧ ∀ writer database, s.uncommitted = some (writer, database) → P database

lemma holds_step {P : σ → Prop} (hinsert : ∀ database call database', P database → good call →
      t.insert database call (t.read database call) = some database' → P database')
    (h : s.Holds P) (hfresh : s.Fresh t good action) (hstep : s.step t lock action = some s') :
    s'.Holds P := by
  cases action with
  | enter writer call =>
      obtain ⟨-, -, rfl⟩ := enter_eq hstep
      exact h
  | read writer =>
      obtain ⟨call, -, rfl⟩ := read_eq hstep
      exact h
  | insert writer =>
      obtain ⟨call, value, database, hphase, -, hdatabase, rfl⟩ := insert_eq hstep
      obtain ⟨rfl, hgood⟩ := hfresh call value hphase
      refine ⟨h.1, fun owner other hother => ?_⟩
      cases hother
      exact hinsert _ call _ h.1 hgood hdatabase
  | commit writer =>
      obtain ⟨database, huncommitted, rfl⟩ := commit_eq hstep
      exact ⟨h.2 writer database huncommitted, fun _ _ hnone => by cases hnone⟩
  | raise writer =>
      obtain ⟨-, rfl⟩ := raise_eq hstep
      refine ⟨h.1, fun owner database hfilter => ?_⟩
      exact h.2 owner database (Option.mem_filter_iff.mp hfilter).1

/-- What inserts preserve that find the value that they have read holds in every database that such
runs commit. -/
theorem holds_run {P : σ → Prop} (hinsert : ∀ database call database', P database → good call →
      t.insert database call (t.read database call) = some database' → P database')
    {database : σ} (hstart : P database) {actions : List (Action ω γ)}
    (hrun : (start database).run t lock actions = some s)
    (hfresh : (start database).Throughout t lock (Fresh t good) actions) : P s.database :=
  have hinitial : (start database : World ω κ σ γ τ).Holds P :=
    ⟨hstart, fun _ _ hnone => by cases hnone⟩
  (run_induction (fun _ _ _ h hfresh hstep => holds_step hinsert h hfresh hstep) hinitial hrun
    hfresh).1

/-! ## One lock -/

/-- Calls of the good kind only. -/
def Good (good : γ → Prop) (_ : World ω κ σ γ τ) : Action ω γ → Prop
  | .enter _ call => good call
  | _ => True

variable (t lock good) in
/-- At most one writer is in a call, which has the lock and finds what it has read. -/
inductive Guarded (s : World ω κ σ γ τ) : Prop
  | idle (hidle : ∀ writer, s.phase writer = .idle) (hnone : s.uncommitted = none)
  | busy (writer : ω) (hbusy : s.phase writer ≠ .idle)
      (hidle : ∀ other, other ≠ writer → s.phase other = .idle)
      (hholder : s.holder (lock writer) = some writer)
      (howner : ∀ owner database, s.uncommitted = some (owner, database) → owner = writer)
      (hentered : ∀ call, s.phase writer = .entered call → good call)
      (hinformed : ∀ call value, s.phase writer = .informed call value →
        value = t.read s.database call ∧ good call)

omit [DecidableEq κ] in
/-- The only writer in a call goes on to its next phase. -/
lemma Guarded.advance {next : Phase γ τ} {holder : κ → Option ω} {uncommitted : Option (ω × σ)}
    (hnext : next ≠ .idle) (hidle : ∀ other, other ≠ writer → s.phase other = .idle)
    (hholder : holder (lock writer) = some writer)
    (howner : ∀ owner database, uncommitted = some (owner, database) → owner = writer)
    (hentered : ∀ call, next = .entered call → good call)
    (hinformed : ∀ call value, next = .informed call value →
      value = t.read s.database call ∧ good call) :
    Guarded t lock good
      { s with
        uncommitted := uncommitted
        holder := holder
        phase := Function.update s.phase writer next } := by
  refine .busy writer ?_ (fun other hne => ?_) hholder howner ?_ ?_
  · simpa using hnext
  · simpa [Function.update_of_ne hne] using hidle other hne
  · simpa using hentered
  · simpa using hinformed

lemma guarded_leave (hidle : ∀ other, other ≠ writer → s.phase other = .idle)
    (hnone : s.uncommitted = none) : Guarded t lock good (s.leave lock writer) := by
  refine .idle (fun other => ?_) hnone
  by_cases hother : other = writer
  · simp [leave, hother]
  · simp [leave, Function.update_of_ne hother, hidle other hother]

omit [DecidableEq κ] in
/-- A writer that is in a call is the only one. -/
lemma Guarded.busy_of (h : Guarded t lock good s) (hphase : s.phase writer ≠ .idle) :
    (∀ other, other ≠ writer → s.phase other = .idle) ∧ s.holder (lock writer) = some writer ∧
      (∀ owner database, s.uncommitted = some (owner, database) → owner = writer) ∧
      (∀ call, s.phase writer = .entered call → good call) ∧
      ∀ call value, s.phase writer = .informed call value →
        value = t.read s.database call ∧ good call := by
  cases h with
  | idle hidle hnone => exact absurd (hidle writer) hphase
  | busy busy hbusy hidle hholder howner hentered hinformed =>
      obtain rfl : writer = busy := by
        by_contra hne
        exact hphase (hidle writer hne)
      exact ⟨hidle, hholder, howner, hentered, hinformed⟩

lemma guarded_step (hshared : ∀ writer other, lock writer = lock other)
    (h : Guarded t lock good s) (hgood : s.Good good action)
    (hstep : s.step t lock action = some s') : Guarded t lock good s' := by
  cases action with
  | enter writer call =>
      obtain ⟨-, hfree, rfl⟩ := enter_eq hstep
      cases h with
      | idle hidle hnone =>
          refine .advance (by simp) (fun other _ => hidle other) (by simp) ?_ ?_ (by simp)
          · simp [hnone]
          · rintro other ⟨⟩
            exact hgood
      | busy busy hbusy hidle hholder howner hentered hinformed =>
          rw [hshared writer busy, hholder] at hfree
          cases hfree
  | read writer =>
      obtain ⟨call, hphase, rfl⟩ := read_eq hstep
      obtain ⟨hidle, hholder, howner, hentered, -⟩ := h.busy_of (by rw [hphase]; simp)
      refine .advance (by simp) hidle hholder howner (by simp) ?_
      rintro other value ⟨⟩
      exact ⟨rfl, hentered call hphase⟩
  | insert writer =>
      obtain ⟨call, value, database, hphase, -, -, rfl⟩ := insert_eq hstep
      obtain ⟨hidle, hholder, -⟩ := h.busy_of (by rw [hphase]; simp)
      refine .advance (by simp) hidle hholder ?_ (by simp) (by simp)
      rintro owner other ⟨⟩
      rfl
  | commit writer =>
      obtain ⟨database, huncommitted, rfl⟩ := commit_eq hstep
      cases h with
      | idle hidle hnone =>
          rw [hnone] at huncommitted
          cases huncommitted
      | busy busy hbusy hidle hholder howner hentered hinformed =>
          obtain rfl := howner writer database huncommitted
          exact guarded_leave hidle rfl
  | raise writer =>
      obtain ⟨hphase, rfl⟩ := raise_eq hstep
      obtain ⟨hidle, -, howner, -⟩ := h.busy_of hphase
      refine guarded_leave hidle (Option.filter_eq_none_iff.mpr ?_)
      rintro ⟨owner, database⟩ huncommitted
      simpa using howner owner database huncommitted

/-- Writers that all use one lock find what they have read. -/
theorem fresh_of_shared (hshared : ∀ writer other, lock writer = lock other) {database : σ}
    {actions : List (Action ω γ)}
    (hgood : (start database).Throughout t lock (Good good) actions) :
    (start database).Throughout t lock (Fresh t good) actions := by
  have hguarded : Guarded t lock good (start database : World ω κ σ γ τ) :=
    .idle (fun _ => rfl) rfl
  generalize (start database : World ω κ σ γ τ) = s at hguarded hgood
  induction actions generalizing s with
  | nil => trivial
  | cons action actions ih =>
      refine ⟨?_, fun next hnext =>
        ih next (guarded_step hshared hguarded hgood.1 hnext) (hgood.2 next hnext)⟩
      cases action with
      | insert writer =>
          intro call value hphase
          exact (hguarded.busy_of (by rw [hphase]; simp)).2.2.2.2 call value hphase
      | _ => trivial

end World

end AgentSystem.SharedDatabase
