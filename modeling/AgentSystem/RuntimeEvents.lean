import AgentSystem.AuditIntegrity

/-!
# The ledger of runtime events

`RuntimeEventsLedger`, which keeps a chain of hashes for each task, and what both ledgers need for
an untampered chain to be found valid: the writer sorts the keys of a dictionary before it gives
them their names, the check sorts the names.
-/
namespace AgentSystem.Audit

open Json Sha256

inductive RuntimeEventType
  | taskStarted
  | toolInvoked
  | feedbackReceived
  | checkpointSaved
  | recoveryAttempted
  | reviewRequested
  | reviewVerified
  | receiptAnchored
  | prPublished
  | stageTransition
  | gateApproved
  | taskCompleted
  | taskFailed
  deriving DecidableEq

namespace RuntimeEventType

def value : RuntimeEventType → String
  | taskStarted => "TASK_STARTED"
  | toolInvoked => "TOOL_INVOKED"
  | feedbackReceived => "FEEDBACK_RECEIVED"
  | checkpointSaved => "CHECKPOINT_SAVED"
  | recoveryAttempted => "RECOVERY_ATTEMPTED"
  | reviewRequested => "REVIEW_REQUESTED"
  | reviewVerified => "REVIEW_VERIFIED"
  | receiptAnchored => "RECEIPT_ANCHORED"
  | prPublished => "PR_PUBLISHED"
  | stageTransition => "STAGE_TRANSITION"
  | gateApproved => "GATE_APPROVED"
  | taskCompleted => "TASK_COMPLETED"
  | taskFailed => "TASK_FAILED"

def all : List RuntimeEventType :=
  [taskStarted, toolInvoked, feedbackReceived, checkpointSaved, recoveryAttempted, reviewRequested,
    reviewVerified, receiptAnchored, prPublished, stageTransition, gateApproved, taskCompleted,
    taskFailed]

/-- `RuntimeEventType(value)`, `none` when that raises. -/
def ofValue (value : String) : Option RuntimeEventType := all.find? fun type => type.value = value

@[simp] lemma ofValue_value (type : RuntimeEventType) : ofValue type.value = some type := by
  cases type <;> rfl

end RuntimeEventType

/-- A row of `runtime_events`. -/
structure EventRow where
  eventId : ℤ
  taskId : String
  eventType : String
  payload : String
  previousHash : String
  currentHash : String
  timestamp : String
  deriving DecidableEq

structure RuntimeEvent (D : Type) where
  eventId : ℤ
  taskId : String
  eventType : RuntimeEventType
  payload : PyValue D
  previousHash : String
  currentHash : String
  timestamp : String

/-- The table in the order of its ids, and the largest id that it ever had. -/
structure RuntimeEventsLedger where
  rows : List EventRow
  sequence : ℤ
  sorted : (rows.map EventRow.eventId).Pairwise (· < ·)
  bounded : ∀ row ∈ rows, row.eventId ≤ sequence

/-- `hash_input` of `record_event`. -/
def eventInput (previousHash taskId eventType payload timestamp : String) : String :=
  previousHash ++ taskId ++ eventType ++ payload ++ timestamp

variable {D : Type} [Interpreter D]

/-- The model's check of `payload: dict[str, Any]`; which strings it takes as keys is its own. -/
def validPayload (acceptsKey : PyStr → Bool) : PyValue D → Bool
  | .dict items =>
      items.all fun item =>
        match item.1 with
        | .str name => acceptsKey name
        | _ => false
  | _ => false

namespace RuntimeEventsLedger

lemma increasing_nil : List.Pairwise (· < ·) ([] : List ℤ) := .nil

def empty : RuntimeEventsLedger := ⟨[], 0, increasing_nil, by simp⟩

variable (events : RuntimeEventsLedger)

def taskRows (taskId : String) : List EventRow :=
  events.rows.filter fun row => row.taskId = taskId

/-- The hash of the last row of a task. -/
def lastHash (taskId : String) : String :=
  ((events.taskRows taskId).getLast?.map EventRow.currentHash).getD zeroHash

/-- An insert without an id. -/
def append (row : ℤ → EventRow) (hid : ∀ id, (row id).eventId = id) :
    Except LedgerError RuntimeEventsLedger :=
  if events.sequence < maxRowid then
    .ok
      { rows := events.rows ++ [row (events.sequence + 1)]
        sequence := events.sequence + 1
        sorted := by
          rw [List.map_append, List.map_singleton, hid]
          exact ids_append events.sorted (List.forall_mem_map.mpr events.bounded)
        bounded := by
          intro before hbefore
          rcases List.mem_append.mp hbefore with hmem | hmem
          · exact (events.bounded before hmem).trans (by omega)
          · rw [List.mem_singleton.mp hmem, hid] }
  else .error .full

/-- `record_event` at a time of the clock: the table after the commit, and the event unless the
model rejects it. -/
def recordEvent (acceptsKey : PyStr → Bool) (taskId : String) (eventType : RuntimeEventType)
    (payload : PyValue D) (timestamp : String) :
    Except LedgerError (RuntimeEventsLedger × Option (RuntimeEvent D)) :=
  match dumps payload with
  | none => .error .notSerializable
  | some text =>
      let previousHash := events.lastHash taskId
      let currentHash := hexdigest
        (eventInput previousHash taskId eventType.value (String.ofList text) timestamp)
      let row (id : ℤ) : EventRow :=
        { eventId := id
          taskId := taskId
          eventType := eventType.value
          payload := String.ofList text
          previousHash := previousHash
          currentHash := currentHash
          timestamp := timestamp }
      (events.append row fun _ => rfl).map fun ledger =>
        (ledger,
          if validPayload acceptsKey payload then
            some
              { eventId := ledger.sequence
                taskId := taskId
                eventType := eventType
                payload := payload
                previousHash := previousHash
                currentHash := currentHash
                timestamp := timestamp }
          else none)

/-- A call of `record_event` and the time at which it is made. -/
structure Call (D : Type) where
  taskId : String
  eventType : RuntimeEventType
  payload : PyValue D
  timestamp : String

/-- Calls one after the other, also after events that the model rejects. -/
def recordAll (acceptsKey : PyStr → Bool) (events : RuntimeEventsLedger) :
    List (Call D) → Except LedgerError RuntimeEventsLedger
  | [] => .ok events
  | call :: calls =>
      match events.recordEvent acceptsKey call.taskId call.eventType call.payload call.timestamp with
      | .error error => .error error
      | .ok (ledger, _) => recordAll acceptsKey ledger calls

end RuntimeEventsLedger

/-! ## The check of a task -/

/-- The event of a row, `none` when something about it raises. -/
def readEvent (acceptsKey : PyStr → Bool) (row : EventRow) : Option (RuntimeEvent D) := do
  let eventType ← RuntimeEventType.ofValue row.eventType
  let payload ← loads row.payload.toList
  if validPayload acceptsKey payload then
    some
      { eventId := row.eventId
        taskId := row.taskId
        eventType := eventType
        payload := payload
        previousHash := row.previousHash
        currentHash := row.currentHash
        timestamp := row.timestamp }
  else none

def RuntimeEventsLedger.getEventsForTask (events : RuntimeEventsLedger) (acceptsKey : PyStr → Bool)
    (taskId : String) : Option (List (RuntimeEvent D)) :=
  (events.taskRows taskId).mapM (readEvent acceptsKey)

/-- The loop over the events, `none` when it raises. -/
def verifyEvents (expectedPrev : String) : List (RuntimeEvent D) → Option Bool
  | [] => some true
  | event :: events =>
      if event.previousHash ≠ expectedPrev then some false
      else
        (dumps event.payload).bind fun text =>
          let computedHash := hexdigest (eventInput event.previousHash event.taskId
            event.eventType.value (String.ofList text) event.timestamp)
          if computedHash ≠ event.currentHash then some false
          else verifyEvents event.currentHash events

variable (D) in
/-- `verify_chain_integrity` of a task, `none` when it raises. -/
def RuntimeEventsLedger.verifyChainIntegrity (events : RuntimeEventsLedger)
    (acceptsKey : PyStr → Bool) (taskId : String) : Option Bool :=
  (events.getEventsForTask (D := D) acceptsKey taskId).bind (verifyEvents zeroHash)

/-! ## Recorded events -/

/-- What the writer hashed for a row. -/
def EventRow.writtenInput (row : EventRow) : String :=
  eventInput row.previousHash row.taskId row.eventType row.payload row.timestamp

variable (D) in
/-- What the check hashes for a row. -/
def EventRow.checkedInput (row : EventRow) : String :=
  eventInput row.previousHash row.taskId row.eventType (canonical D row.payload) row.timestamp

variable (D) in
/-- The two hashes of a row and the one that the check computes. -/
def eventChain : HashChain.Format EventRow String where
  previous := EventRow.previousHash
  current := EventRow.currentHash
  digest row := hexdigest (row.checkedInput D)

/-- The row that a call writes. -/
structure WritesEvent (call : RuntimeEventsLedger.Call D) (row : EventRow) : Prop where
  taskId : row.taskId = call.taskId
  eventType : row.eventType = call.eventType.value
  payload : (dumps call.payload).map String.ofList = some row.payload
  hashed : row.currentHash = hexdigest row.writtenInput

variable {acceptsKey : PyStr → Bool} {events events' : RuntimeEventsLedger} {row : EventRow}
  {call : RuntimeEventsLedger.Call D} {calls : List (RuntimeEventsLedger.Call D)} {taskId : String}

/-- A call that commits has written one more row, linked to the last one of its task. -/
lemma recordEvent_committed {event : Option (RuntimeEvent D)}
    (h : events.recordEvent acceptsKey call.taskId call.eventType call.payload call.timestamp =
      .ok (events', event)) :
    ∃ row, events'.rows = events.rows ++ [row] ∧ WritesEvent call row ∧
      row.previousHash = events.lastHash row.taskId := by
  unfold RuntimeEventsLedger.recordEvent at h
  cases htext : dumps call.payload with
  | none =>
      rw [htext] at h
      cases h
  | some text =>
      simp only [htext, RuntimeEventsLedger.append] at h
      split_ifs at h
      · cases h
        exact ⟨_, rfl, ⟨rfl, rfl, by rw [htext]; rfl, rfl⟩, rfl⟩
      · cases h
      · cases h
        exact ⟨_, rfl, ⟨rfl, rfl, by rw [htext]; rfl, rfl⟩, rfl⟩
      · cases h

/-- The row of a call continues the chain of its task and leaves the others as they are. -/
lemma taskRows_linked (hrows : events'.rows = events.rows ++ [row])
    (hprevious : row.previousHash = events.lastHash row.taskId)
    (hlinked : ∀ taskId, HashChain.Linked (eventChain D) zeroHash (events.taskRows taskId))
    (taskId : String) :
    HashChain.Linked (eventChain D) zeroHash (events'.taskRows taskId) := by
  unfold RuntimeEventsLedger.taskRows
  rw [hrows, List.filter_append, HashChain.linked_append]
  refine ⟨hlinked taskId, ?_⟩
  by_cases htask : row.taskId = taskId
  · subst htask
    rw [List.filter_cons_of_pos (by simp)]
    exact ⟨hprevious, trivial⟩
  · rw [List.filter_cons_of_neg (by simpa using htask)]
    trivial

lemma recordAll_linked
    (hlinked : ∀ taskId, HashChain.Linked (eventChain D) zeroHash (events.taskRows taskId))
    (h : events.recordAll acceptsKey calls = .ok events') :
    (∀ taskId, HashChain.Linked (eventChain D) zeroHash (events'.taskRows taskId)) ∧
      ∃ rows, events'.rows = events.rows ++ rows ∧ List.Forall₂ WritesEvent calls rows := by
  induction calls generalizing events with
  | nil =>
      cases h
      exact ⟨hlinked, [], (List.append_nil _).symm, .nil⟩
  | cons call calls ih =>
      rw [RuntimeEventsLedger.recordAll] at h
      split at h
      · cases h
      · rename_i ledger event hrecord
        obtain ⟨row, hrows, hwrites, hprevious⟩ := recordEvent_committed hrecord
        obtain ⟨hlinked', rows, hrows', hforall⟩ :=
          ih (taskRows_linked hrows hprevious hlinked) h
        refine ⟨hlinked', row :: rows, ?_, .cons hwrites hforall⟩
        rw [hrows', hrows, List.append_assoc, List.singleton_append]

/-- The rows of a ledger that some calls have recorded from the start. -/
theorem recordAll_committed (h : RuntimeEventsLedger.empty.recordAll acceptsKey calls = .ok events) :
    (∀ taskId, HashChain.Linked (eventChain D) zeroHash (events.taskRows taskId)) ∧
      List.Forall₂ WritesEvent calls events.rows := by
  have hempty : ∀ taskId, HashChain.Linked (eventChain D) zeroHash
      (RuntimeEventsLedger.empty.taskRows taskId) := fun _ => trivial
  obtain ⟨hlinked, rows, hrows, hforall⟩ := recordAll_linked hempty h
  obtain rfl : events.rows = rows := hrows
  exact ⟨hlinked, hforall⟩

/-! ## Reading recorded events -/

/-- A dictionary whose names the model accepts when they come back. -/
def AcceptsNames (acceptsKey : PyStr → Bool) : PyValue D → Prop
  | .dict items => ∀ item ∈ items, acceptsKey item.1.reloadedName = true
  | _ => False

lemma validPayload_reload {value : PyValue D} :
    validPayload acceptsKey (reload value) = true ↔ AcceptsNames acceptsKey value := by
  cases value with
  | dict items =>
      have hnames : ∀ name, name ∈ (PySequence.fromPairs (reorder
          (Interpreter.order (items.map Prod.fst)) (reloadMembers items))).map Prod.fst ↔
            name ∈ items.map fun item => item.1.reloadedName := by
        intro name
        rw [PySequence.mem_keys_fromPairs, reloadMembers_eq, ← reorder_map, List.map_map,
          mem_reorder]
        · rfl
        · simpa using Interpreter.order_perm (items.map Prod.fst)
      rw [reload, validPayload, AcceptsNames, fromMembers, List.all_map, List.all_eq_true]
      constructor
      · intro h item hitem
        obtain ⟨pair, hpair, heq⟩ := List.mem_map.mp
          ((hnames item.1.reloadedName).mpr (List.mem_map_of_mem hitem))
        rw [← heq]
        exact h pair hpair
      · intro h pair hpair
        obtain ⟨item, hitem, heq⟩ := List.mem_map.mp
          ((hnames pair.1).mp (List.mem_map_of_mem hpair))
        have haccepts := h item hitem
        rw [heq] at haccepts
        exact haccepts
  | _ => exact iff_of_false (by simp [reload, validPayload]) id

/-- An event that was read from a row, with the text that the check gives its payload. -/
structure ReadsEvent (row : EventRow) (event : RuntimeEvent D) : Prop where
  taskId : event.taskId = row.taskId
  eventType : event.eventType.value = row.eventType
  payload : (dumps event.payload).map String.ofList = some (canonical D row.payload)
  previousHash : event.previousHash = row.previousHash
  currentHash : event.currentHash = row.currentHash
  timestamp : event.timestamp = row.timestamp

lemma readEvent_written (h : WritesEvent call row) :
    (∃ event, readEvent (D := D) acceptsKey row = some event) ↔
      AcceptsNames acceptsKey call.payload := by
  obtain ⟨text, htext, hpayload⟩ := Option.map_eq_some_iff.mp h.payload
  rw [readEvent, h.eventType, ← hpayload, RuntimeEventType.ofValue_value, String.toList_ofList,
    loads_dumps htext, ← validPayload_reload]
  by_cases hvalid : validPayload acceptsKey (reload call.payload) = true <;> simp [hvalid]

lemma reads_written (h : WritesEvent call row) {event : RuntimeEvent D}
    (hread : readEvent acceptsKey row = some event) : ReadsEvent row event := by
  obtain ⟨text, htext, hpayload⟩ := Option.map_eq_some_iff.mp h.payload
  obtain ⟨text', htext'⟩ := exists_dumps_reload htext
  have hcanonical : canonical D row.payload = String.ofList text' := by
    rw [canonical, ← hpayload, String.toList_ofList, loads_dumps htext, Option.bind_some, htext']
  rw [readEvent, h.eventType, ← hpayload, RuntimeEventType.ofValue_value, String.toList_ofList,
    loads_dumps htext] at hread
  simp only [Option.bind_eq_bind, Option.bind_some] at hread
  split_ifs at hread
  cases hread
  exact ⟨rfl, h.eventType.symm, by rw [hcanonical, htext']; rfl, rfl, rfl, rfl⟩

lemma mapM_readEvent {rows : List EventRow} {read : List (RuntimeEvent D)} :
    rows.mapM (readEvent acceptsKey) = some read ↔
      List.Forall₂ (fun row event => readEvent acceptsKey row = some event) rows read := by
  induction rows generalizing read with
  | nil =>
      rw [List.mapM_nil, List.forall₂_nil_left_iff, eq_comm]
      exact Option.some_inj
  | cons row rows ih =>
      rw [List.mapM_cons]
      constructor
      · intro h
        obtain ⟨event, hevent, hrest⟩ := Option.bind_eq_some_iff.mp h
        obtain ⟨rest, hmap, heq⟩ := Option.bind_eq_some_iff.mp hrest
        cases heq
        exact .cons hevent (ih.mp hmap)
      · rintro (_ | ⟨hevent, hrest⟩)
        rw [hevent, ih.mpr hrest]
        rfl

lemma verifyEvents_eq_true {origin : String} {rows : List EventRow} {read : List (RuntimeEvent D)}
    (h : List.Forall₂ ReadsEvent rows read) :
    verifyEvents origin read = some true ↔ HashChain.Valid (eventChain D) origin rows := by
  induction h generalizing origin with
  | nil => exact iff_of_true rfl ⟨trivial, by simp⟩
  | @cons row event rows read hreads h ih =>
      obtain ⟨text, htext, hpayload⟩ := Option.map_eq_some_iff.mp hreads.payload
      have hdigest : hexdigest (eventInput event.previousHash event.taskId event.eventType.value
          (String.ofList text) event.timestamp) = (eventChain D).digest row := by
        rw [hreads.previousHash, hreads.taskId, hreads.eventType, hreads.timestamp, hpayload]
        rfl
      rw [verifyEvents, htext, Option.bind_some, HashChain.valid_cons, hdigest,
        hreads.previousHash, hreads.currentHash]
      by_cases hprevious : row.previousHash = origin
      · by_cases hcurrent : (eventChain D).digest row = row.currentHash
        · rw [if_neg (not_not.mpr hprevious), if_neg (not_not.mpr hcurrent), ih]
          refine ⟨fun hvalid => ⟨hprevious, hcurrent.symm, hvalid⟩, ?_⟩
          rintro ⟨-, -, hvalid⟩
          exact hvalid
        · rw [if_neg (not_not.mpr hprevious), if_pos hcurrent]
          refine iff_of_false (by simp) ?_
          rintro ⟨-, heq, -⟩
          exact hcurrent heq.symm
      · rw [if_pos hprevious]
        refine iff_of_false (by simp) ?_
        rintro ⟨heq, -⟩
        exact hprevious heq

/-- A task is found valid if its rows can all be read and its chain is valid. -/
lemma verifyTask_iff (hwritten : ∀ row ∈ events.taskRows taskId, ∃ call : RuntimeEventsLedger.Call D,
      WritesEvent call row) :
    events.verifyChainIntegrity D acceptsKey taskId = some true ↔
      (∀ row ∈ events.taskRows taskId, ∃ event : RuntimeEvent D,
        readEvent acceptsKey row = some event) ∧
      HashChain.Valid (eventChain D) zeroHash (events.taskRows taskId) := by
  have hreads {read : List (RuntimeEvent D)} (h : List.Forall₂
      (fun row event => readEvent acceptsKey row = some event) (events.taskRows taskId) read) :
      List.Forall₂ ReadsEvent (events.taskRows taskId) read := by
    refine (forall₂_mem h).imp fun row event hrow => ?_
    obtain ⟨call, hcall⟩ := hwritten row hrow.2.1
    exact reads_written hcall hrow.1
  constructor
  · intro h
    obtain ⟨read, hread, hverify⟩ := Option.bind_eq_some_iff.mp h
    have hforall := mapM_readEvent.mp hread
    refine ⟨fun row hrow => ?_, (verifyEvents_eq_true (hreads hforall)).mp hverify⟩
    obtain ⟨event, -, hevent⟩ := exists_of_forall₂ hforall.flip hrow
    exact ⟨event, hevent⟩
  · rintro ⟨hexists, hvalid⟩
    obtain ⟨read, hforall⟩ := forall₂_of_exists hexists
    rw [RuntimeEventsLedger.verifyChainIntegrity, RuntimeEventsLedger.getEventsForTask,
      mapM_readEvent.mpr hforall]
    exact (verifyEvents_eq_true (hreads hforall)).mpr hvalid

lemma eventInput_eq_iff : row.writtenInput = row.checkedInput D ↔
    canonical D row.payload = row.payload := by
  rw [EventRow.writtenInput, EventRow.checkedInput, eventInput, eventInput, String.append_left_inj,
    String.append_right_inj, eq_comm]

/-! ## Untampered chains -/

/-- Both ledgers find a chain that nobody touched valid exactly if the names of the keys ascend in
every dictionary of every payload; for a task the model must accept the names as well. -/
theorem untampered_valid {auditCalls : List (Ledger.Call D)} {ledger : Ledger}
    (recorded : Ledger.empty.recordAll auditCalls = .ok ledger)
    (injective : Set.InjOn hexdigest {s | s ∈
      ledger.rows.map Row.writtenInput ++ ledger.rows.map (Row.checkedInput D)})
    (committed : RuntimeEventsLedger.empty.recordAll acceptsKey calls = .ok events)
    (eventsInjective : Set.InjOn hexdigest {s | s ∈
      events.rows.map EventRow.writtenInput ++ events.rows.map (EventRow.checkedInput D)}) :
    ((ledger.verifyChainIntegrity D).valid = true ↔
        ∀ call ∈ auditCalls, NamesAscend call.payload) ∧
      ∀ taskId, events.verifyChainIntegrity D acceptsKey taskId = some true ↔
        ∀ call ∈ calls, call.taskId = taskId →
          NamesAscend call.payload ∧ AcceptsNames acceptsKey call.payload := by
  constructor
  · obtain ⟨hlinked, hforall⟩ := recordAll_ok recorded
    have hvalid := @HashChain.Linked.valid_iff _ _ _ _ _ _ hexdigest Row.writtenInput
      (Row.checkedInput D) hlinked (recorded_hashed hforall) (fun _ _ => rfl) injective
    rw [verifyChainIntegrity_valid, hvalid]
    refine (forall_iff_of_forall₂ hforall fun call row hwrites => ?_).symm
    rw [writtenInput_eq_iff, canonical_eq_iff hwrites.payload]
  · intro taskId
    obtain ⟨hlinked, hforall⟩ := recordAll_committed committed
    have hrows (P : EventRow → Prop) : (∀ row ∈ events.taskRows taskId, P row) ↔
        ∀ row ∈ events.rows, row.taskId = taskId → P row := by
      simp [RuntimeEventsLedger.taskRows]
    have hwritten : ∀ row ∈ events.taskRows taskId,
        ∃ call : RuntimeEventsLedger.Call D, WritesEvent call row := by
      intro row hrow
      obtain ⟨call, -, hcall⟩ := exists_of_forall₂ hforall (List.mem_of_mem_filter hrow)
      exact ⟨call, hcall⟩
    have hhashed : ∀ row ∈ events.taskRows taskId, row.currentHash = hexdigest row.writtenInput :=
      fun row hrow => (hwritten row hrow).elim fun call hcall => hcall.hashed
    have hinjective : Set.InjOn hexdigest {s | s ∈ (events.taskRows taskId).map
        EventRow.writtenInput ++ (events.taskRows taskId).map (EventRow.checkedInput D)} := by
      have hsub : events.taskRows taskId ⊆ events.rows := fun row => List.mem_of_mem_filter
      exact eventsInjective.mono fun s hs => List.mem_append.mpr ((List.mem_append.mp hs).imp
        (fun h => List.map_subset _ hsub h) fun h => List.map_subset _ hsub h)
    have hvalid := (hlinked taskId).valid_iff hhashed (fun _ _ => rfl) hinjective
    rw [verifyTask_iff hwritten, hvalid, hrows, hrows, ← forall₂_and]
    refine (forall_iff_of_forall₂ hforall fun call row hwrites => ?_).symm
    rw [readEvent_written hwrites, eventInput_eq_iff, canonical_eq_iff hwrites.payload,
      hwrites.taskId, ← imp_and, and_comm]

/-! ## Numbers as keys -/

/-- A dictionary whose integer keys come in another order than their names. -/
def countsPayload : PyValue Empty :=
  .dict [(.str (toPyStr "k"), .dict [(.int 2, .int 0), (.int 10, .int 0)])]

def countsRow : Row where
  id := 1
  eventType := "COUNTED"
  payload := "\x7b\"k\": \x7b\"2\": 0, \"10\": 0\x7d\x7d"
  previousHash := zeroHash
  currentHash := hexdigest (hashInput zeroHash "\x7b\"k\": \x7b\"2\": 0, \"10\": 0\x7d\x7d" "t1")
  timestamp := "t1"

def countsLedger : Ledger where
  rows := [countsRow]
  sequence := 1
  sorted := List.pairwise_singleton _ _
  bounded := by
    intro row hrow
    rw [List.mem_singleton.mp hrow]
    exact le_refl 1

lemma counts_dumps : dumps countsPayload = some countsRow.payload.toList := by decide +kernel

lemma counts_recorded : Ledger.empty.recordAll
    [⟨"COUNTED", countsPayload, "default_tenant", "t1"⟩] = .ok countsLedger := by
  rw [Ledger.recordAll, Ledger.recordEvent, counts_dumps]
  rfl

def countsEvent : EventRow where
  eventId := 1
  taskId := "task-1"
  eventType := "TOOL_INVOKED"
  payload := countsRow.payload
  previousHash := zeroHash
  currentHash := hexdigest
    (eventInput zeroHash "task-1" "TOOL_INVOKED" countsRow.payload "t1")
  timestamp := "t1"

def countsEvents : RuntimeEventsLedger where
  rows := [countsEvent]
  sequence := 1
  sorted := List.pairwise_singleton _ _
  bounded := by
    intro row hrow
    rw [List.mem_singleton.mp hrow]
    exact le_refl 1

lemma counts_committed : RuntimeEventsLedger.empty.recordAll (fun _ => true)
    [⟨"task-1", .toolInvoked, countsPayload, "t1"⟩] = .ok countsEvents := by
  rw [RuntimeEventsLedger.recordAll, RuntimeEventsLedger.recordEvent, counts_dumps]
  rfl

lemma counts_injective : Set.InjOn hexdigest {s | s ∈
    countsLedger.rows.map Row.writtenInput ++ countsLedger.rows.map (Row.checkedInput Empty)} := by
  have hdigests : ((countsLedger.rows.map Row.writtenInput ++
      countsLedger.rows.map (Row.checkedInput Empty)).map hexdigest).Nodup := by
    decide +kernel
  exact fun s hs t ht heq => List.inj_on_of_nodup_map hdigests hs ht heq

lemma countsEvents_injective : Set.InjOn hexdigest {s | s ∈
    countsEvents.rows.map EventRow.writtenInput ++
      countsEvents.rows.map (EventRow.checkedInput Empty)} := by
  have hdigests : ((countsEvents.rows.map EventRow.writtenInput ++
      countsEvents.rows.map (EventRow.checkedInput Empty)).map hexdigest).Nodup := by
    decide +kernel
  exact fun s hs t ht heq => List.inj_on_of_nodup_map hdigests hs ht heq

theorem untampered_valid_counts :
    ((countsLedger.verifyChainIntegrity Empty).valid = true ↔
        ∀ call ∈ [(⟨"COUNTED", countsPayload, "default_tenant", "t1"⟩ : Ledger.Call Empty)],
          NamesAscend call.payload) ∧
      ∀ taskId, countsEvents.verifyChainIntegrity Empty (fun _ => true) taskId = some true ↔
        ∀ call ∈ [(⟨"task-1", .toolInvoked, countsPayload, "t1"⟩ : RuntimeEventsLedger.Call Empty)],
          call.taskId = taskId →
            NamesAscend call.payload ∧ AcceptsNames (fun _ => true) call.payload :=
  untampered_valid counts_recorded counts_injective counts_committed countsEvents_injective

/-- Both ledgers reject the only event that was ever recorded. -/
theorem counts_rejected :
    (∃ text, dumps countsPayload = some text) ∧
      Ledger.empty.recordAll [⟨"COUNTED", countsPayload, "default_tenant", "t1"⟩] =
        .ok countsLedger ∧
      Set.InjOn hexdigest {s | s ∈ countsLedger.rows.map Row.writtenInput ++
        countsLedger.rows.map (Row.checkedInput Empty)} ∧
      (countsLedger.verifyChainIntegrity Empty).valid = false ∧
      RuntimeEventsLedger.empty.recordAll (fun _ => true)
        [⟨"task-1", .toolInvoked, countsPayload, "t1"⟩] = .ok countsEvents ∧
      Set.InjOn hexdigest {s | s ∈ countsEvents.rows.map EventRow.writtenInput ++
        countsEvents.rows.map (EventRow.checkedInput Empty)} ∧
      countsEvents.verifyChainIntegrity Empty (fun _ => true) "task-1" = some false :=
  ⟨⟨_, counts_dumps⟩, counts_recorded, counts_injective, by decide +kernel, counts_committed,
    countsEvents_injective, by decide +kernel⟩

end AgentSystem.Audit
