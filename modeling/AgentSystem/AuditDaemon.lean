import AgentSystem.AuditLedger

/-!
# The consensus daemon

`AuditConsensusDaemon` as a function of the messages that it gets. Pings and requests are the ones
that daemons send; a response may hold anything that JSON can express.
-/
namespace AgentSystem.Audit

open Json Sha256

/-- What SQLite stores for values that are neither integers nor None, what Python prints for
containers, and what comes of a payload that is no Unicode text. -/
class Coercion (D : Type) where
  /-- `str` of a list or a dictionary. -/
  repr : PyValue D → Option PyStr
  /-- `json.dumps(json.loads(payload))`, or the payload, for one with halves of surrogate pairs. -/
  reserialized : PyStr → PyStr
  /-- A float in a text column, `none` for NULL. -/
  realText : PyFloat D → Option String
  /-- A float as an id: `none` for a datatype mismatch, `some none` for NULL. -/
  realRowid : PyFloat D → Option (Option ℤ)
  /-- A text as an id. -/
  textRowid : String → Option ℤ

instance : Coercion Empty where
  repr _ := none
  reserialized s := s
  realText _ := none
  realRowid _ := none
  textRowid s := s.toInt?

/-! ## Messages -/

structure Ping where
  nodeId : String
  merkleRoot : String
  eventCount : ℕ
  deriving DecidableEq

structure LogsRequest where
  requesterId : String
  providerId : String
  afterId : ℤ
  deriving DecidableEq

/-- A dictionary of `logs`; a missing key is `none`. -/
structure Log (D : Type) where
  id : Option (PyValue D)
  eventType : Option (PyValue D)
  payload : Option (PyValue D)
  previousHash : Option (PyValue D)
  currentHash : Option (PyValue D)
  timestamp : Option (PyValue D)
  tenantId : Option (PyValue D)

/-- A response; an element of `logs` that is no dictionary is `none`. -/
structure LogsResponse (D : Type) where
  providerId : PyValue D
  logs : List (Option (Log D))

inductive Message (D : Type)
  | syncQuery (senderId : String)
  | syncPing (ping : Ping)
  | logsRequest (request : LogsRequest)
  | logsResponse (requesterId : String) (response : LogsResponse D)

inductive PeerStatus
  | synchronized
  | peerAhead
  | localAhead
  deriving DecidableEq

structure PeerState where
  lastSeen : String
  eventCount : ℕ
  merkleRoot : String
  status : PeerStatus
  deriving DecidableEq

structure Daemon where
  ledger : Ledger
  nodeId : String
  peerStates : List (String × PeerState) := []
  pendingRequests : List PyStr := []

/-- The daemon after a message, what it publishes, and whether an exception ended it. -/
structure Outcome (D : Type) where
  daemon : Daemon
  published : List (Message D) := []
  raised : Bool := false

variable {D : Type} [Interpreter D]

def strValue (s : String) : PyValue D := .str (toPyStr s)

/-- A dictionary with these keys. -/
def dictValue (items : List (String × PyValue D)) : PyValue D :=
  .dict (items.map fun item => (.str (toPyStr item.1), item.2))

/-- `f"{peer_id}:{local_count}"`. -/
def requestKey (peerId : PyStr) (localCount : ℕ) : PyStr :=
  peerId ++ toPyStr (":" ++ toString localCount)

namespace Daemon

/-- A call of `record_event` for the default tenant, whose exceptions end the caller. -/
def record (d : Daemon) (eventType : String) (payload : PyValue D) (timestamp : String) :
    Outcome D :=
  match d.ledger.recordEvent eventType payload "default_tenant" timestamp with
  | .ok (ledger, _) => { daemon := { d with ledger := ledger } }
  | .error _ => { daemon := d, raised := true }

/-- `len(self.ledger.get_logs())`. -/
def localCount (d : Daemon) : ℕ := (d.ledger.getLogs "default_tenant").length

variable (D) in
def broadcastStatus (d : Daemon) : Ping where
  nodeId := d.nodeId
  merkleRoot := (d.ledger.verifyChainIntegrity D).merkleRoot
  eventCount := d.localCount

variable (D) in
/-- What a ping records in `peer_states`, unless it is ignored. -/
def peerState (d : Daemon) (ping : Ping) (seen : String) : Option PeerState :=
  if ping.nodeId = "" ∨ ping.nodeId = d.nodeId then none
  else
    some
      { lastSeen := seen
        eventCount := ping.eventCount
        merkleRoot := ping.merkleRoot
        status :=
          if ping.eventCount = d.localCount ∧
              ping.merkleRoot = (d.ledger.verifyChainIntegrity D).merkleRoot then .synchronized
          else if d.localCount < ping.eventCount then .peerAhead
          else .localAhead }

/-- `process_ping` of a status. -/
def processStatus (d : Daemon) (ping : Ping) (seen recordedAt : String) : Outcome D :=
  match d.peerState D ping seen with
  | none => { daemon := d }
  | some state =>
      let localRoot := (d.ledger.verifyChainIntegrity D).merkleRoot
      let localCount := d.localCount
      let d := { d with peerStates := PySequence.setItem d.peerStates ping.nodeId state }
      if localCount < ping.eventCount then
        let key := requestKey (toPyStr ping.nodeId) localCount
        if key ∈ d.pendingRequests then { daemon := d }
        else
          { daemon := { d with pendingRequests := key :: d.pendingRequests }
            published := [.logsRequest ⟨d.nodeId, ping.nodeId, localCount⟩] }
      else if ping.eventCount = localCount ∧ ping.merkleRoot ≠ localRoot then
        d.record "SOC2_VIOLATION"
          (dictValue
            [("error", strValue
                "Merkle root mismatch with equal event count / unresolvable fork detected"),
             ("peer_node_id", strValue ping.nodeId),
             ("local_root", strValue localRoot),
             ("peer_root", strValue ping.merkleRoot),
             ("event_count", .int localCount)])
          recordedAt
      else { daemon := d }

/-- `process_ping`. -/
def processPing (d : Daemon) (msg : Message D) (seen recordedAt : String) : Outcome D :=
  match msg with
  | .syncQuery _ => { daemon := d, published := [.syncPing (d.broadcastStatus D)] }
  | .syncPing ping => d.processStatus ping seen recordedAt
  | _ => { daemon := d }

end Daemon

/-- `dict(row)`. -/
def Row.toLog (row : Row) : Log D where
  id := some (.int row.id)
  eventType := some (strValue row.eventType)
  payload := some (strValue row.payload)
  previousHash := some (strValue row.previousHash)
  currentHash := some (strValue row.currentHash)
  timestamp := some (strValue row.timestamp)
  tenantId := some ((row.tenantId.map strValue).getD .none)

/-- `process_request`. -/
def Daemon.processRequest (d : Daemon) (request : LogsRequest) : Outcome D :=
  if request.providerId ≠ d.nodeId then { daemon := d }
  else
    { daemon := d
      published := [.logsResponse request.requesterId
        { providerId := strValue d.nodeId
          logs := (d.ledger.getLogsAfter request.afterId).map fun row => some row.toLog }] }

/-! ## Values of any kind -/

section Values

variable [Coercion D]

/-- `f"{value}"`, `none` when it raises. -/
def formatValue : PyValue D → Option PyStr
  | .none => some (toPyStr "None")
  | .bool b => some (toPyStr (if b then "True" else "False"))
  | .int n => (intText n).map (List.map codePoint)
  | .float (.finite x) => some ((Doubles.literal x).text.map codePoint)
  | .float (.infinity negative) => some (toPyStr (if negative then "-inf" else "inf"))
  | .float .nan => some (toPyStr "nan")
  | .str s => some s
  | .list items => Coercion.repr (.list items)
  | .dict items => Coercion.repr (.dict items)

/-- What is stored in a text column, `some none` for NULL and `none` when the insert raises. -/
def textColumn : PyValue D → Option (Option String)
  | .none => some none
  | .bool b => some (some (if b then "1" else "0"))
  | .int n => if -2 ^ 63 ≤ n ∧ n ≤ maxRowid then some (some (toString n)) else none
  | .float x => some (Coercion.realText x)
  | .str s => (encode s).map some
  | .list _ | .dict _ => none

/-- The id that is asked for, `some none` for NULL and `none` when the insert raises. -/
def rowid : PyValue D → Option (Option ℤ)
  | .none => some none
  | .bool b => some (some (if b then 1 else 0))
  | .int n => if -2 ^ 63 ≤ n ∧ n ≤ maxRowid then some (some n) else none
  | .float x => Coercion.realRowid x
  | .str s => (encode s).bind fun text => (Coercion.textRowid (D := D) text).map some
  | .list _ | .dict _ => none

/-- The id that an insert into a table with this sequence takes. -/
def insertedId (sequence : ℤ) (id : PyValue D) : Option ℤ :=
  match rowid id with
  | none => none
  | some (some id) => some id
  | some none => if sequence < maxRowid then some (sequence + 1) else none

/-- The row of an insert into a table with this sequence; every column but the tenant is NOT NULL. -/
def rowOf (sequence : ℤ) (id eventType payload previousHash currentHash timestamp
    tenantId : PyValue D) : Option Row := do
  let id ← insertedId sequence id
  let eventType ← (textColumn eventType).join
  let payload ← (textColumn payload).join
  let previousHash ← (textColumn previousHash).join
  let currentHash ← (textColumn currentHash).join
  let timestamp ← (textColumn timestamp).join
  let tenantId ← textColumn tenantId
  return {
    id := id
    eventType := eventType
    payload := payload
    previousHash := previousHash
    currentHash := currentHash
    timestamp := timestamp
    tenantId := tenantId }

/-- `insert_raw_event`, `none` when it raises. -/
def Ledger.insertRawEvent (l : Ledger) (id eventType payload previousHash currentHash timestamp
    tenantId : PyValue D) : Option Ledger :=
  (rowOf l.sequence id eventType payload previousHash currentHash timestamp tenantId).map l.replace

/-! ## Responses -/

/-- What the check of a log hashes for its payload. -/
def payloadText : PyValue D → Option PyStr
  | .str s =>
      match encode s with
      | some payload => some (toPyStr (canonical D payload))
      | none => some (Coercion.reserialized (D := D) s)
  | value => formatValue value

/-- `hash_input` of a log with this previous hash, `none` when it cannot be built or encoded. -/
def Log.hashInput (log : Log D) (previousHash : String) : Option String := do
  let payload ← payloadText (log.payload.getD .none)
  let timestamp ← formatValue (log.timestamp.getD .none)
  let rest ← encode (payload ++ timestamp)
  return previousHash ++ rest

inductive Verdict
  | verified
  | failed
  | raised
  deriving DecidableEq

/-- The verdict over a bad log, whose id is written to the error log. -/
def Log.reject (log : Log D) : Verdict :=
  if (formatValue (log.id.getD .none)).isSome then .failed else .raised

def isText (value : Option (PyValue D)) (s : String) : Bool :=
  match value with
  | some (.str t) => t = toPyStr s
  | _ => false

/-- The loop over the incoming logs. -/
def verifyLogs (expectedPrevHash : String) : List (Option (Log D)) → Verdict
  | [] => .verified
  | none :: _ => .raised
  | some log :: logs =>
      if isText log.previousHash expectedPrevHash = false then log.reject
      else
        match log.hashInput expectedPrevHash with
        | none => .raised
        | some input =>
            if isText log.currentHash (hexdigest input) = false then log.reject
            else verifyLogs (hexdigest input) logs

/-- The loop of inserts, each with its own commit, and whether it comes to an end. A missing key
raises, except that of the tenant. -/
def insertLogs (l : Ledger) : List (Option (Log D)) → Ledger × Bool
  | [] => (l, true)
  | log :: logs =>
      let inserted := do
        let log ← log
        l.insertRawEvent (← log.id) (← log.eventType) (← log.payload) (← log.previousHash)
          (← log.currentHash) (← log.timestamp) (log.tenantId.getD (strValue "default_tenant"))
      match inserted with
      | none => (l, false)
      | some l => insertLogs l logs

namespace Daemon

/-- The hash that the first incoming log has to name. -/
def expectedHash (d : Daemon) : String :=
  ((d.ledger.getLogs "default_tenant").getLast?.map Row.currentHash).getD zeroHash

def violationPayload (msg : LogsResponse D) : PyValue D :=
  dictValue
    [("error", strValue "Replicated logs failed cryptographic verification"),
     ("provider_node_id", msg.providerId),
     ("first_incoming_id", ((msg.logs.head?.join.bind Log.id).getD .none))]

def recoveryPayload (msg : LogsResponse D) : PyValue D :=
  dictValue
    [("message", strValue "Self-healing replication completed successfully"),
     ("logs_restored", .int msg.logs.length),
     ("provider_node_id", msg.providerId)]

/-- `process_response`. -/
def processResponse (d : Daemon) (msg : LogsResponse D) (recordedAt : String) : Outcome D :=
  if msg.logs = [] then { daemon := d }
  else
    match verifyLogs d.expectedHash msg.logs with
    | .raised => { daemon := d, raised := true }
    | .failed =>
        match formatValue msg.providerId with
        | none => { daemon := d, raised := true }
        | some _ => d.record "SOC2_VIOLATION" (violationPayload msg) recordedAt
    | .verified =>
        let (ledger, done) := insertLogs d.ledger msg.logs
        let healed := { d with ledger := ledger }
        match done, formatValue msg.providerId with
        | true, some provider =>
            let key := requestKey provider d.localCount
            { healed with pendingRequests := healed.pendingRequests.filter (· ≠ key) }.record
              "CONSENSUS_RECOVERY" (recoveryPayload msg) recordedAt
        | _, _ => { daemon := healed, raised := true }

end Daemon

end Values

end AgentSystem.Audit
