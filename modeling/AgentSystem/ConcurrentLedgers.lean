import AgentSystem.RuntimeEvents
import AgentSystem.SharedDatabase

/-!
# Concurrent calls of `record_event`

Both ledgers read the last hash and insert the next row in two statements. The lock around them is
one for every instance of `AuditLedger` on a path within a process, and one for each instance of
`RuntimeEventsLedger`.
-/
namespace AgentSystem.Audit

open Json Sha256 SharedDatabase

variable {D : Type} [Interpreter D]

/-! ## The audit ledger -/

/-- The insert of a call that has read this hash. -/
def Ledger.insertEvent (l : Ledger) (call : Ledger.Call D) (previousHash : String) :
    Option Ledger :=
  (dumps call.payload).bind fun text =>
    let payload := String.ofList text
    let row (id : ℤ) : Row :=
      { id := id
        eventType := call.eventType
        payload := payload
        previousHash := previousHash
        currentHash := hexdigest (hashInput previousHash payload call.timestamp)
        timestamp := call.timestamp
        tenantId := some call.tenantId }
    (l.append row fun _ => rfl).toOption

variable (D) in
def auditTable : Table Ledger (Ledger.Call D) String where
  read l _ := l.lastHash
  insert := Ledger.insertEvent

variable {l l' : Ledger} {call : Ledger.Call D} {previousHash : String}

lemma insertEvent_eq_some (h : l.insertEvent call previousHash = some l') :
    ∃ row, l'.rows = l.rows ++ [row] ∧ Writes call row ∧ row.previousHash = previousHash := by
  obtain ⟨text, htext, happend⟩ := Option.bind_eq_some_iff.mp h
  simp only [Ledger.append] at happend
  split_ifs at happend
  · cases happend
    exact ⟨_, rfl, ⟨rfl, by rw [htext]; rfl, rfl, rfl, rfl⟩, rfl⟩
  · cases happend

/-- An insert after the last row keeps the chain valid. -/
lemma insertEvent_valid (hvalid : (l.verifyChainIntegrity D).valid = true)
    (hascend : NamesAscend call.payload) (h : l.insertEvent call l.lastHash = some l') :
    (l'.verifyChainIntegrity D).valid = true := by
  obtain ⟨row, hrows, hwrites, hprevious⟩ := insertEvent_eq_some h
  have hcanonical := (canonical_eq_iff hwrites.payload).mpr hascend
  rw [← writtenInput_eq_iff] at hcanonical
  rw [verifyChainIntegrity_valid] at hvalid ⊢
  rw [hrows, HashChain.valid_append, HashChain.valid_cons]
  exact ⟨hvalid, hprevious, hwrites.hashed.trans (congrArg hexdigest hcanonical), trivial, by simp⟩

/-- An insert after any other row breaks it. -/
theorem insertEvent_stale (h : l.insertEvent call previousHash = some l')
    (hstale : previousHash ≠ l.lastHash) : (l'.verifyChainIntegrity D).valid = false := by
  obtain ⟨row, hrows, -, hprevious⟩ := insertEvent_eq_some h
  rw [← Bool.not_eq_true, verifyChainIntegrity_valid, hrows, HashChain.valid_append,
    HashChain.valid_cons]
  rintro ⟨-, hlast, -⟩
  exact hstale (hprevious.symm.trans hlast)

/-! ## The ledger of runtime events -/

/-- The insert of a call that has read this hash. -/
def RuntimeEventsLedger.insertEvent (events : RuntimeEventsLedger)
    (call : RuntimeEventsLedger.Call D) (previousHash : String) : Option RuntimeEventsLedger :=
  (dumps call.payload).bind fun text =>
    let row (id : ℤ) : EventRow :=
      { eventId := id
        taskId := call.taskId
        eventType := call.eventType.value
        payload := String.ofList text
        previousHash := previousHash
        currentHash := hexdigest (eventInput previousHash call.taskId call.eventType.value
          (String.ofList text) call.timestamp)
        timestamp := call.timestamp }
    (events.append row fun _ => rfl).toOption

variable (D) in
def eventTable : Table RuntimeEventsLedger (RuntimeEventsLedger.Call D) String where
  read events call := events.lastHash call.taskId
  insert := RuntimeEventsLedger.insertEvent

variable {events events' : RuntimeEventsLedger} {event : RuntimeEventsLedger.Call D}
  {acceptsKey : PyStr → Bool}

lemma insertRuntimeEvent_eq_some (h : events.insertEvent event previousHash = some events') :
    ∃ row, events'.rows = events.rows ++ [row] ∧ WritesEvent event row ∧
      row.previousHash = previousHash := by
  obtain ⟨text, htext, happend⟩ := Option.bind_eq_some_iff.mp h
  simp only [RuntimeEventsLedger.append] at happend
  split_ifs at happend
  · cases happend
    exact ⟨_, rfl, ⟨rfl, rfl, by rw [htext]; rfl, rfl⟩, rfl⟩
  · cases happend

/-- The check of one more event. -/
lemma verifyEvents_append {origin : String} {read more : List (RuntimeEvent D)}
    (h : verifyEvents origin read = some true) :
    verifyEvents origin (read ++ more) =
      verifyEvents ((read.getLast?.map RuntimeEvent.currentHash).getD origin) more := by
  induction read generalizing origin with
  | nil => rfl
  | cons first read ih =>
      rw [List.cons_append, verifyEvents]
      rw [verifyEvents] at h
      split_ifs at h ⊢ with hprevious
      · cases h
      · obtain ⟨text, htext, hrest⟩ := Option.bind_eq_some_iff.mp h
        rw [htext, Option.bind_some]
        dsimp only at hrest ⊢
        split_ifs at hrest ⊢ with hcurrent
        · cases hrest
        · rw [ih hrest, List.getLast?_cons]
          cases read.getLast? <;> rfl

lemma currentHash_of_read {row : EventRow} {read : RuntimeEvent D}
    (h : readEvent acceptsKey row = some read) : read.currentHash = row.currentHash := by
  simp only [readEvent, Option.bind_eq_bind, Option.bind_eq_some_iff] at h
  obtain ⟨_, -, _, -, hread⟩ := h
  split_ifs at hread
  cases hread
  rfl

lemma lastHash_of_read {rows : List EventRow} {read : List (RuntimeEvent D)}
    (h : rows.mapM (readEvent acceptsKey) = some read) :
    read.getLast?.map RuntimeEvent.currentHash = rows.getLast?.map EventRow.currentHash := by
  have hhashes : read.map RuntimeEvent.currentHash = rows.map EventRow.currentHash := by
    have hforall := mapM_readEvent.mp h
    clear h
    induction hforall with
    | nil => rfl
    | cons hread _ ih => rw [List.map_cons, List.map_cons, currentHash_of_read hread, ih]
  rw [← List.getLast?_map, hhashes, List.getLast?_map]

/-- An insert after the last row of the task keeps the chains of all tasks valid. -/
lemma insertRuntimeEvent_valid
    (hvalid : ∀ taskId, events.verifyChainIntegrity D acceptsKey taskId = some true)
    (hascend : NamesAscend event.payload) (haccepts : AcceptsNames acceptsKey event.payload)
    (h : events.insertEvent event (events.lastHash event.taskId) = some events') (taskId : String) :
    events'.verifyChainIntegrity D acceptsKey taskId = some true := by
  obtain ⟨row, hrows, hwrites, hprevious⟩ := insertRuntimeEvent_eq_some h
  have htaskRows : events'.taskRows taskId =
      events.taskRows taskId ++ [row].filter (·.taskId = taskId) := by
    rw [RuntimeEventsLedger.taskRows, hrows, List.filter_append]
    rfl
  by_cases htask : row.taskId = taskId
  · rw [List.filter_cons_of_pos (by simpa using htask), List.filter_nil] at htaskRows
    obtain ⟨read, hread, hverified⟩ := Option.bind_eq_some_iff.mp (hvalid taskId)
    rw [RuntimeEventsLedger.getEventsForTask] at hread
    obtain ⟨last, hlast⟩ := (readEvent_written hwrites).mpr haccepts
    have hreads := reads_written hwrites hlast
    have hcanonical := (canonical_eq_iff hwrites.payload).mpr hascend
    rw [← eventInput_eq_iff] at hcanonical
    have hhash : (read.getLast?.map RuntimeEvent.currentHash).getD zeroHash = row.previousHash := by
      rw [lastHash_of_read hread, hprevious, ← hwrites.taskId, htask]
      rfl
    have hboth : (events.taskRows taskId ++ [row]).mapM (readEvent acceptsKey) =
        some (read ++ [last]) := by
      rw [List.mapM_append, hread, List.mapM_cons, hlast, List.mapM_nil]
      rfl
    have hsingle : HashChain.Valid (eventChain D) row.previousHash [row] :=
      HashChain.valid_cons.mpr
        ⟨rfl, hwrites.hashed.trans (congrArg hexdigest hcanonical), trivial, by simp⟩
    rw [RuntimeEventsLedger.verifyChainIntegrity, RuntimeEventsLedger.getEventsForTask, htaskRows,
      hboth, Option.bind_some, verifyEvents_append hverified, hhash]
    exact (verifyEvents_eq_true (.cons hreads .nil)).mpr hsingle
  · rw [List.filter_cons_of_neg (by simpa using htask), List.filter_nil, List.append_nil]
      at htaskRows
    rw [← hvalid taskId, RuntimeEventsLedger.verifyChainIntegrity,
      RuntimeEventsLedger.getEventsForTask, htaskRows]
    rfl

/-- An insert after any other row breaks the chain of the task. -/
theorem insertRuntimeEvent_stale
    (hvalid : events.verifyChainIntegrity D acceptsKey event.taskId = some true)
    (h : events.insertEvent event previousHash = some events')
    (hstale : previousHash ≠ events.lastHash event.taskId) :
    events'.verifyChainIntegrity D acceptsKey event.taskId ≠ some true := by
  obtain ⟨row, hrows, hwrites, hprevious⟩ := insertRuntimeEvent_eq_some h
  have htaskRows : events'.taskRows event.taskId = events.taskRows event.taskId ++ [row] := by
    rw [RuntimeEventsLedger.taskRows, hrows, List.filter_append,
      List.filter_cons_of_pos (by simpa using hwrites.taskId)]
    rfl
  obtain ⟨read, hread, hverified⟩ := Option.bind_eq_some_iff.mp hvalid
  rw [RuntimeEventsLedger.getEventsForTask] at hread
  intro hvalid'
  obtain ⟨read', hread', hverified'⟩ := Option.bind_eq_some_iff.mp hvalid'
  rw [RuntimeEventsLedger.getEventsForTask, htaskRows, List.mapM_append, hread] at hread'
  obtain ⟨single, hsingle, heq⟩ := Option.bind_eq_some_iff.mp hread'
  obtain ⟨more, hmore, heq'⟩ := Option.bind_eq_some_iff.mp heq
  cases hsingle
  cases heq'
  obtain ⟨last, rest, hlast, hrest, rfl⟩ :=
    List.forall₂_cons_left_iff.mp (mapM_readEvent.mp hmore)
  rw [List.forall₂_nil_left_iff.mp hrest, verifyEvents_append hverified, lastHash_of_read hread,
    verifyEvents, if_pos] at hverified'
  · cases hverified'
  · rw [(reads_written hwrites hlast).previousHash, hprevious]
    exact hstale

/-! ## Any number of writers -/

section Writers

variable {ω κ : Type} [DecidableEq ω] [DecidableEq κ] {lock : ω → κ}

/-- Both ledgers stay valid if every insert finds the hash that its call has read still the last
one, and the check reads the payload of the call back as it was written. -/
theorem concurrent_valid
    {audit : World ω κ Ledger (Ledger.Call D) String}
    {auditActions : List (Action ω (Ledger.Call D))}
    (valid : (l.verifyChainIntegrity D).valid = true)
    (run : (World.start l).run (auditTable D) lock auditActions = some audit)
    (fresh : (World.start l).Throughout (auditTable D) lock
      (World.Fresh (auditTable D) fun call => NamesAscend call.payload) auditActions)
    {runtime : World ω κ RuntimeEventsLedger (RuntimeEventsLedger.Call D) String}
    {runtimeActions : List (Action ω (RuntimeEventsLedger.Call D))}
    (runtimeValid : ∀ taskId, events.verifyChainIntegrity D acceptsKey taskId = some true)
    (runtimeRun : (World.start events).run (eventTable D) lock runtimeActions = some runtime)
    (runtimeFresh : (World.start events).Throughout (eventTable D) lock
      (World.Fresh (eventTable D) fun call =>
        NamesAscend call.payload ∧ AcceptsNames acceptsKey call.payload) runtimeActions) :
    (audit.database.verifyChainIntegrity D).valid = true ∧
      ∀ taskId, runtime.database.verifyChainIntegrity D acceptsKey taskId = some true := by
  constructor
  · exact World.holds_run (P := fun l => (l.verifyChainIntegrity D).valid = true)
      (fun _ _ _ hvalid hgood hinsert => insertEvent_valid hvalid hgood hinsert) valid run fresh
  · exact World.holds_run
      (P := fun events => ∀ taskId, events.verifyChainIntegrity D acceptsKey taskId = some true)
      (fun _ _ _ hvalid hgood hinsert =>
        insertRuntimeEvent_valid hvalid hgood.1 hgood.2 hinsert) runtimeValid runtimeRun
      runtimeFresh

/-- Writers that share one lock keep both ledgers valid whatever the order of their steps is. -/
theorem shared_lock_valid (shared : ∀ writer other, lock writer = lock other)
    {audit : World ω κ Ledger (Ledger.Call D) String}
    {auditActions : List (Action ω (Ledger.Call D))}
    (valid : (l.verifyChainIntegrity D).valid = true)
    (run : (World.start l).run (auditTable D) lock auditActions = some audit)
    (ascend : (World.start l).Throughout (auditTable D) lock
      (World.Good fun call => NamesAscend call.payload) auditActions) :
    (audit.database.verifyChainIntegrity D).valid = true :=
  World.holds_run (P := fun l => (l.verifyChainIntegrity D).valid = true)
    (fun _ _ _ hvalid hgood hinsert => insertEvent_valid hvalid hgood hinsert) valid run
    (World.fresh_of_shared shared ascend)

end Writers

/-! ## Two writers -/

/-- Two writers with a lock each read before one of them inserts. -/
def forkActions {γ : Type} (call : γ) : List (Action String γ) :=
  [.enter "writer-1" call, .enter "writer-2" call, .read "writer-1", .read "writer-2",
    .insert "writer-1", .commit "writer-1", .insert "writer-2", .commit "writer-2"]

/-- One writer after the other. -/
def turnActions {γ : Type} (call : γ) : List (Action String γ) :=
  [.enter "writer-1" call, .read "writer-1", .insert "writer-1", .commit "writer-1",
    .enter "writer-2" call, .read "writer-2", .insert "writer-2", .commit "writer-2"]

def loginCall : Ledger.Call Empty := ⟨"LOGIN", .dict [], "default_tenant", "t1"⟩

def startedCall : RuntimeEventsLedger.Call Empty := ⟨"task-1", .taskStarted, .dict [], "t1"⟩

lemma turns_good {σ γ : Type} {good : γ → Prop} {call : γ} (h : good call) :
    ∀ action ∈ turnActions call, ∀ s : World String Unit σ γ String,
      World.Good good s action := by
  simp only [turnActions, List.forall_mem_cons, World.Good]
  simp [h]

theorem concurrent_valid_turns : ∃ audit runtime,
    (World.start Ledger.empty).run (auditTable Empty) (fun _ => ()) (turnActions loginCall) =
        some audit ∧
      (World.start RuntimeEventsLedger.empty).run (eventTable Empty) (fun _ => ())
          (turnActions startedCall) = some runtime ∧
      (audit.database.verifyChainIntegrity Empty).valid = true ∧
      ∀ taskId, runtime.database.verifyChainIntegrity Empty (fun _ => true) taskId = some true := by
  have hnames : NamesAscend (.dict [] : PyValue Empty) :=
    (@namesAscend_texts Empty _ [] List.nodup_nil).mpr (by simp)
  have haudit : ((World.start Ledger.empty).run (auditTable Empty) (fun _ => ())
      (turnActions loginCall)).isSome = true := by decide +kernel
  have hruntime : ((World.start RuntimeEventsLedger.empty).run (eventTable Empty) (fun _ => ())
      (turnActions startedCall)).isSome = true := by decide +kernel
  obtain ⟨audit, haudit⟩ := Option.isSome_iff_exists.mp haudit
  obtain ⟨runtime, hruntime⟩ := Option.isSome_iff_exists.mp hruntime
  have hgood : NamesAscend startedCall.payload ∧
      AcceptsNames (fun _ => true) startedCall.payload :=
    ⟨hnames, by simp [startedCall, AcceptsNames]⟩
  exact ⟨audit, runtime, haudit, hruntime,
    concurrent_valid rfl haudit
      (World.fresh_of_shared (fun _ _ => rfl) (World.throughout_of_forall (turns_good hnames)))
      (fun _ => rfl) hruntime
      (World.fresh_of_shared (fun _ _ => rfl) (World.throughout_of_forall (turns_good hgood)))⟩

/-- Both rows of two concurrent calls follow the hash of an empty ledger. -/
theorem fork_rejected :
    (((World.start Ledger.empty).run (auditTable Empty) id (forkActions loginCall)).map
        fun s => (s.database.verifyChainIntegrity Empty).valid) = some false ∧
      (((World.start RuntimeEventsLedger.empty).run (eventTable Empty) id
          (forkActions startedCall)).map fun s =>
        s.database.verifyChainIntegrity Empty (fun _ => true) "task-1") = some (some false) := by
  constructor <;> decide +kernel

end AgentSystem.Audit
