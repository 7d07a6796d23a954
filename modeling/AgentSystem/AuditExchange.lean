import AgentSystem.AuditRecovery

/-!
# Exchanges

A ping of a node that is ahead, the request and the response that follow. The node that was behind
takes the missing rows over and then records an event of its own about it, so that it is ahead by
one row afterwards: the roles are swapped, for ever.
-/
namespace AgentSystem.Audit

open Json Sha256

/-- A ledger of the default tenant whose ids count its rows, as `record_event` calls fill a new
database. -/
structure Unbroken (l : Ledger) : Prop where
  ids : ∀ (k : ℕ) (row : Row), l.rows[k]? = some row → row.id = k + 1
  sequence : l.sequence = l.rows.length
  tenant : ∀ row ∈ l.rows, row.tenantId = some "default_tenant"

variable (D : Type) [Interpreter D]

/-- The first node is behind the second one. -/
structure Lagging (d peer : Daemon) : Prop where
  named : d.nodeId ≠ "" ∧ peer.nodeId ≠ ""
  distinct : d.nodeId ≠ peer.nodeId
  unbroken : Unbroken d.ledger
  peerUnbroken : Unbroken peer.ledger
  peerValid : (peer.ledger.verifyChainIntegrity D).valid = true
  starts : d.ledger.rows <+: peer.ledger.rows
  behind : d.ledger.rows.length < peer.ledger.rows.length

section Delivery

variable [Coercion D]

/-- The responses of a node to what it gets, as the requester takes them in. -/
def Daemon.takeResponses (d peer : Daemon) (request : LogsRequest) (recordedAt : String) : Daemon :=
  (peer.processRequest (D := D) request).published.foldl
    (fun d msg =>
      match msg with
      | .logsResponse requesterId response =>
          if requesterId = d.nodeId then (d.processResponse response recordedAt).daemon else d
      | _ => d)
    d

/-- What a ping of a peer leads to: the node after its requests were answered. -/
def Daemon.exchange (d peer : Daemon) (seen pingedAt recordedAt : String) : Daemon :=
  let pinged := d.processPing (D := D) (.syncPing (peer.broadcastStatus D)) seen pingedAt
  pinged.published.foldl
    (fun d msg =>
      match msg with
      | .logsRequest request => d.takeResponses D peer request recordedAt
      | _ => d)
    pinged.daemon

end Delivery

variable {D} {l : Ledger} {d peer : Daemon}

/-! ## Unbroken ledgers -/

lemma Unbroken.localCount (h : Unbroken d.ledger) : d.localCount = d.ledger.rows.length := by
  unfold Daemon.localCount Ledger.getLogs
  rw [List.filter_eq_self.mpr fun row hrow => decide_eq_true (h.tenant row hrow)]

lemma Unbroken.unlisted (h : Unbroken l) : l.unlisted = [] := by
  rw [Ledger.unlisted, List.rtakeWhile_eq_nil_iff]
  intro hne
  simp [h.tenant _ (List.getLast_mem hne)]

lemma Unbroken.expectedHash (h : Unbroken d.ledger) :
    d.expectedHash = HashChain.last (chain D) zeroHash d.ledger.rows := by
  have hsplit := rows_split (l := d.ledger)
  rw [h.unlisted, List.append_nil] at hsplit
  rw [expectedHash_eq (D := D), ← hsplit]

/-- The rows after an id are those after so many rows. -/
lemma Unbroken.getLogsAfter (h : Unbroken l) (n : ℕ) : l.getLogsAfter n = l.rows.drop n := by
  have htake : ∀ row ∈ l.rows.take n, ¬ (n : ℤ) < row.id := by
    intro row hrow
    obtain ⟨k, hk⟩ := List.mem_iff_getElem?.mp hrow
    rw [List.getElem?_take] at hk
    split_ifs at hk with hlt
    rw [h.ids k row hk]
    omega
  have hdrop : ∀ row ∈ l.rows.drop n, (n : ℤ) < row.id := by
    intro row hrow
    obtain ⟨k, hk⟩ := List.mem_iff_getElem?.mp hrow
    rw [List.getElem?_drop] at hk
    rw [h.ids _ row hk]
    omega
  have hsplit : l.rows.filter (fun row => (n : ℤ) < row.id) =
      (l.rows.take n ++ l.rows.drop n).filter fun row => (n : ℤ) < row.id := by
    rw [List.take_append_drop]
  rw [Ledger.getLogsAfter, hsplit, List.filter_append,
    List.filter_eq_nil_iff.mpr fun row hrow => by simpa using htake row hrow,
    List.filter_eq_self.mpr fun row hrow => by simpa using hdrop row hrow, List.nil_append]

lemma Unbroken.ids_range (h : Unbroken l) (hroom : (l.rows.length : ℤ) ≤ maxRowid) :
    ∀ row ∈ l.rows, -2 ^ 63 ≤ row.id ∧ row.id ≤ maxRowid := by
  intro row hrow
  obtain ⟨k, hk⟩ := List.mem_iff_getElem?.mp hrow
  have hlt := (List.getElem?_eq_some_iff.mp hk).1
  rw [h.ids k row hk]
  constructor <;> omega

/-! ## One exchange -/

/-- A ping of a node that is ahead makes the other one ask for what it lacks. -/
lemma processStatus_behind (hnamed : peer.nodeId ≠ "") (hdistinct : peer.nodeId ≠ d.nodeId)
    (hbehind : d.localCount < peer.localCount) (seen pingedAt : String) :
    ∃ state, d.processStatus (D := D) (peer.broadcastStatus D) seen pingedAt =
      if requestKey (toPyStr peer.nodeId) d.localCount ∈ d.pendingRequests then
        { daemon := { d with peerStates := PySequence.setItem d.peerStates peer.nodeId state } }
      else
        { daemon :=
            { d with
              peerStates := PySequence.setItem d.peerStates peer.nodeId state
              pendingRequests :=
                requestKey (toPyStr peer.nodeId) d.localCount :: d.pendingRequests }
          published := [.logsRequest ⟨d.nodeId, peer.nodeId, d.localCount⟩] } := by
  have hstate : ∃ state, d.peerState D (peer.broadcastStatus D) seen = some state := by
    unfold Daemon.peerState Daemon.broadcastStatus
    rw [if_neg (not_or.mpr ⟨hnamed, hdistinct⟩)]
    exact ⟨_, rfl⟩
  obtain ⟨state, hstate⟩ := hstate
  refine ⟨state, ?_⟩
  unfold Daemon.processStatus
  rw [hstate]
  exact if_pos hbehind

/-- A ping of a node that is behind changes nothing but what is known about that node. -/
lemma processStatus_ahead (hahead : peer.localCount < d.localCount) (seen pingedAt : String) :
    (d.processStatus (D := D) (peer.broadcastStatus D) seen pingedAt).published = [] ∧
      (d.processStatus (D := D) (peer.broadcastStatus D) seen pingedAt).daemon.ledger =
        d.ledger := by
  have hcount : (peer.broadcastStatus D).eventCount = peer.localCount := rfl
  unfold Daemon.processStatus
  cases d.peerState D (peer.broadcastStatus D) seen with
  | none => exact ⟨rfl, rfl⟩
  | some state =>
      simp [hcount, hahead.not_gt, hahead.ne]

lemma record_ok (d : Daemon) (eventType : String) {payload : PyValue D} (timestamp : String)
    (hroom : d.ledger.sequence < maxRowid) (hdumps : ∃ text, dumps payload = some text) :
    ∃ ledger row, (d.record eventType payload timestamp).daemon = { d with ledger := ledger } ∧
      ledger.rows = d.ledger.rows ++ [row] ∧
      Writes (⟨eventType, payload, "default_tenant", timestamp⟩ : Ledger.Call D) row ∧
      row.previousHash = d.ledger.lastHash ∧ row.id = d.ledger.sequence + 1 ∧
      ledger.sequence = d.ledger.sequence + 1 := by
  obtain ⟨⟨ledger, id⟩, hrecord⟩ :=
    (@recordEvent_returns D d.ledger _ eventType "default_tenant" timestamp payload).mpr
      ⟨hroom, hdumps⟩
  obtain ⟨row, hrows, hwrites, hprevious, hid, hsequence, -⟩ := @recordEvent_ok _ _ _ _
    (⟨eventType, payload, "default_tenant", timestamp⟩ : Ledger.Call D) _ hrecord
  refine ⟨ledger, row, ?_, hrows, hwrites, hprevious, hid, hsequence⟩
  rw [Daemon.record, hrecord]

lemma replaceAll_sequence_le {ws : List Row} {n : ℤ} (hl : l.sequence ≤ n)
    (hws : ∀ w ∈ ws, w.id ≤ n) : (l.replaceAll ws).sequence ≤ n := by
  induction ws generalizing l with
  | nil => exact hl
  | cons w ws ih =>
      obtain ⟨hw, hrest⟩ := List.forall_mem_cons.mp hws
      exact ih (l := l.replace w) (max_le hl hw) hrest

section Exchange

variable (lagging : Lagging D d peer)
include lagging

lemma Lagging.split : peer.ledger.rows =
    d.ledger.rows ++ peer.ledger.rows.drop d.ledger.rows.length := by
  obtain ⟨rest, hrest⟩ := lagging.starts
  rw [← hrest, List.drop_left]

lemma Lagging.missing_valid : HashChain.Valid (chain D) d.expectedHash
    (peer.ledger.rows.drop d.ledger.rows.length) := by
  have hvalid := verifyChainIntegrity_valid.mp lagging.peerValid
  rw [lagging.split, HashChain.valid_append] at hvalid
  rw [lagging.unbroken.expectedHash (D := D)]
  exact hvalid.2

/-- The missing rows complete the ledger. -/
lemma Lagging.replaceAll_rows :
    (d.ledger.replaceAll (peer.ledger.rows.drop d.ledger.rows.length)).rows = peer.ledger.rows := by
  have hsorted := List.pairwise_map.mp peer.ledger.sorted
  rw [lagging.split, List.pairwise_append] at hsorted
  have hcontinues : Continues D d.ledger (peer.ledger.rows.drop d.ledger.rows.length) := by
    refine ⟨fun j row w hrow hw => ?_, ?_, ?_, ?_⟩
    all_goals rw [lagging.unbroken.unlisted] at *
    · cases hrow
    · exact hsorted.2.1
    · exact fun w hw row hrow => hsorted.2.2 row hrow w hw
    · exact fun w hw => lagging.missing_valid.hashed w hw
  rw [hcontinues.rows_eq, lagging.unbroken.unlisted]
  exact lagging.split.symm

lemma Lagging.replaceAll_sequence :
    (d.ledger.replaceAll (peer.ledger.rows.drop d.ledger.rows.length)).sequence =
      peer.ledger.rows.length := by
  have hlast := List.getElem?_eq_getElem (Nat.sub_one_lt_of_lt lagging.behind)
  have hid := lagging.peerUnbroken.ids _ _ hlast
  refine le_antisymm (replaceAll_sequence_le ?_ fun w hw => ?_) ?_
  · rw [lagging.unbroken.sequence]
    exact_mod_cast lagging.behind.le
  · rw [← lagging.peerUnbroken.sequence]
    exact peer.ledger.bounded w (List.mem_of_mem_drop hw)
  · have hmem : peer.ledger.rows.get ⟨_, Nat.sub_one_lt_of_lt lagging.behind⟩ ∈
        (d.ledger.replaceAll (peer.ledger.rows.drop d.ledger.rows.length)).rows := by
      rw [lagging.replaceAll_rows]
      exact List.mem_of_getElem? hlast
    have hbound := (d.ledger.replaceAll _).bounded _ hmem
    rw [List.get_eq_getElem, hid] at hbound
    have hbehind := lagging.behind
    omega

end Exchange

/-! ## The event about the recovery -/

omit [Interpreter D] in
/-- The answer to a request for everything after so many rows. -/
lemma processRequest_missing (hpeer : Unbroken peer.ledger) (requester : String) (n : ℕ) :
    (peer.processRequest (D := D) ⟨requester, peer.nodeId, n⟩).published =
      [.logsResponse requester (rowsResponse peer.nodeId (peer.ledger.rows.drop n))] := by
  rw [Daemon.processRequest, if_neg (by simp), hpeer.getLogsAfter]
  rfl

lemma recoveryPayload_dumps (nodeId : String) {rows : List Row} (h : rows.length < 2 ^ 63) :
    ∃ text, dumps (Daemon.recoveryPayload (rowsResponse (D := D) nodeId rows)) = some text := by
  refine exists_dumps_texts ?_
  simp only [List.forall_mem_cons, List.not_mem_nil, false_imp_iff, implies_true, and_true]
  refine ⟨⟨_, rfl⟩, ?_, ⟨_, rfl⟩⟩
  obtain ⟨text, htext⟩ := exists_intText h
  exact ⟨text, by rw [rowsResponse, List.length_map, dumps, htext]⟩

lemma recoveryPayload_ascends (nodeId : String) (rows : List Row) :
    NamesAscend (Daemon.recoveryPayload (rowsResponse (D := D) nodeId rows)) := by
  refine (namesAscend_texts (by simp)).mpr ?_
  simp only [List.forall_mem_cons, List.not_mem_nil, false_imp_iff, implies_true, and_true]
  exact ⟨trivial, trivial, trivial⟩

/-- An event at the end of an unbroken ledger leaves it unbroken. -/
lemma Unbroken.concat {ledger : Ledger} {row : Row} (h : Unbroken l)
    (hrows : ledger.rows = l.rows ++ [row]) (hid : row.id = l.sequence + 1)
    (hsequence : ledger.sequence = l.sequence + 1)
    (htenant : row.tenantId = some "default_tenant") : Unbroken ledger := by
  have hlength : ledger.rows.length = l.rows.length + 1 := by rw [hrows, List.length_append]; rfl
  refine ⟨fun k other hget => ?_, ?_, fun other hother => ?_⟩
  · rw [hrows] at hget
    rcases lt_or_ge k l.rows.length with hk | hk
    · rw [List.getElem?_append_left hk] at hget
      exact h.ids k other hget
    · rw [List.getElem?_append_right hk, List.getElem?_singleton] at hget
      split_ifs at hget with hzero
      rw [← Option.some.inj hget, hid, h.sequence]
      omega
  · rw [hsequence, h.sequence, hlength, Nat.cast_add, Nat.cast_one]
  · rw [hrows, List.mem_append, List.mem_singleton] at hother
    rcases hother with hmem | rfl
    · exact h.tenant other hmem
    · exact htenant

section Delivery

variable [Coercion D]

/-- An exchange inserts the missing rows and records an event about them. -/
lemma Lagging.exchange_eq (lagging : Lagging D d peer) (seen pingedAt recordedAt : String)
    (fresh : requestKey (toPyStr peer.nodeId) d.localCount ∉ d.pendingRequests)
    (room : (peer.ledger.rows.length : ℤ) < maxRowid) :
    ∃ filled : Daemon,
      filled.ledger = d.ledger.replaceAll (peer.ledger.rows.drop d.ledger.rows.length) ∧
        filled.nodeId = d.nodeId ∧ filled.pendingRequests = d.pendingRequests ∧
        d.exchange D peer seen pingedAt recordedAt =
          (filled.record "CONSENSUS_RECOVERY" (Daemon.recoveryPayload (rowsResponse (D := D)
            peer.nodeId (peer.ledger.rows.drop d.ledger.rows.length))) recordedAt).daemon := by
  have hlocal := lagging.unbroken.localCount
  obtain ⟨state, hpinged⟩ := processStatus_behind (D := D) lagging.named.2 lagging.distinct.symm
    (by rw [hlocal, lagging.peerUnbroken.localCount]; exact lagging.behind) seen pingedAt
  rw [if_neg fresh] at hpinged
  refine ⟨{ d with
    ledger := d.ledger.replaceAll (peer.ledger.rows.drop d.ledger.rows.length)
    peerStates := PySequence.setItem d.peerStates peer.nodeId state }, rfl, rfl, rfl, ?_⟩
  unfold Daemon.exchange Daemon.processPing
  simp only [hpinged, List.foldl_cons, List.foldl_nil, Daemon.takeResponses]
  rw [hlocal, processRequest_missing lagging.peerUnbroken]
  simp only [List.foldl_cons, List.foldl_nil, if_true]
  have hne : peer.ledger.rows.drop d.ledger.rows.length ≠ [] := by
    have hbehind := lagging.behind
    rw [ne_eq, List.drop_eq_nil_iff]
    omega
  have hids : ∀ row ∈ peer.ledger.rows.drop d.ledger.rows.length,
      -2 ^ 63 ≤ row.id ∧ row.id ≤ maxRowid := fun row hrow =>
    lagging.peerUnbroken.ids_range room.le row (List.mem_of_mem_drop hrow)
  have hpending : (requestKey (toPyStr peer.nodeId) d.ledger.rows.length ::
      d.pendingRequests).filter (· ≠ requestKey (toPyStr peer.nodeId) d.ledger.rows.length) =
        d.pendingRequests := by
    rw [List.filter_cons_of_neg (by simp), List.filter_eq_self]
    intro key hkey
    refine decide_eq_true fun heq => fresh ?_
    rwa [hlocal, ← heq]
  have hresponse := processResponse_rows (D := D)
    { d with
      peerStates := PySequence.setItem d.peerStates peer.nodeId state
      pendingRequests :=
        requestKey (toPyStr peer.nodeId) d.ledger.rows.length :: d.pendingRequests }
    peer.nodeId recordedAt hne lagging.missing_valid hids
  have hcount : Daemon.localCount
      { d with
        peerStates := PySequence.setItem d.peerStates peer.nodeId state
        pendingRequests := requestKey (toPyStr peer.nodeId) d.ledger.rows.length ::
          d.pendingRequests } = d.ledger.rows.length := hlocal
  rw [hresponse, hcount, hpending]

variable (D) in
/-- The second node is ahead by the event that it recorded about its recovery: pings of the first
one change nothing, and after a ping of the second one the first one asks for the event. -/
structure Recovered (peer healed : Daemon) : Prop where
  rows : ∃ row, row.eventType = "CONSENSUS_RECOVERY" ∧
    healed.ledger.rows = peer.ledger.rows ++ [row]
  swapped : Lagging D peer healed
  pinged : ∀ seen pingedAt,
    (healed.processPing (D := D) (.syncPing (peer.broadcastStatus D)) seen
        pingedAt).published = [] ∧
      (healed.processPing (D := D) (.syncPing (peer.broadcastStatus D)) seen
        pingedAt).daemon.ledger = healed.ledger
  pings : ∀ seen pingedAt,
    (peer.processPing (D := D) (.syncPing (healed.broadcastStatus D)) seen
        pingedAt).daemon.ledger = peer.ledger ∧
      (requestKey (toPyStr healed.nodeId) peer.localCount ∉ peer.pendingRequests →
        (peer.processPing (D := D) (.syncPing (healed.broadcastStatus D)) seen pingedAt).published =
          [.logsRequest ⟨peer.nodeId, healed.nodeId, peer.localCount⟩])

omit [Coercion D] in
lemma Recovered.of_rows {healed : Daemon} {row : Row} (swapped : Lagging D peer healed)
    (htype : row.eventType = "CONSENSUS_RECOVERY")
    (hrows : healed.ledger.rows = peer.ledger.rows ++ [row]) : Recovered D peer healed := by
  have hbehind : peer.localCount < healed.localCount := by
    rw [swapped.unbroken.localCount, swapped.peerUnbroken.localCount]
    exact swapped.behind
  refine ⟨⟨row, htype, hrows⟩, swapped, fun seen pingedAt => ?_, fun seen pingedAt => ?_⟩
  · exact processStatus_ahead hbehind seen pingedAt
  · obtain ⟨state, hpinged⟩ := processStatus_behind (D := D) swapped.named.2 swapped.distinct.symm
      hbehind seen pingedAt
    rw [Daemon.processPing, hpinged]
    split_ifs with hpending
    · exact ⟨rfl, fun hfresh => absurd hpending hfresh⟩
    · exact ⟨rfl, fun _ => rfl⟩

/-- The rows that an exchange leaves: those of the peer and an event. -/
lemma Lagging.exchange_rows (lagging : Lagging D d peer) (seen pingedAt recordedAt : String)
    (fresh : requestKey (toPyStr peer.nodeId) d.localCount ∉ d.pendingRequests)
    (room : (peer.ledger.rows.length : ℤ) < maxRowid) :
    ∃ (filled : Daemon) (row : Row),
      Unbroken filled.ledger ∧ filled.ledger.rows = peer.ledger.rows ∧
      row.eventType = "CONSENSUS_RECOVERY" ∧ row.tenantId = some "default_tenant" ∧
      row.id = filled.ledger.sequence + 1 ∧ row.previousHash = filled.ledger.lastHash ∧
      row.currentHash = hexdigest (row.checkedInput D) ∧
      (d.exchange D peer seen pingedAt recordedAt).nodeId = d.nodeId ∧
      (d.exchange D peer seen pingedAt recordedAt).pendingRequests = d.pendingRequests ∧
      (d.exchange D peer seen pingedAt recordedAt).ledger.rows = filled.ledger.rows ++ [row] ∧
      (d.exchange D peer seen pingedAt recordedAt).ledger.sequence =
        filled.ledger.sequence + 1 := by
  obtain ⟨filled, hledger, hnode, hpending, hexchange⟩ :=
    lagging.exchange_eq seen pingedAt recordedAt fresh room
  have hrows : filled.ledger.rows = peer.ledger.rows := by
    rw [hledger, lagging.replaceAll_rows]
  have hsequence : filled.ledger.sequence = peer.ledger.rows.length := by
    rw [hledger, lagging.replaceAll_sequence]
  have hlength : (peer.ledger.rows.drop d.ledger.rows.length).length < 2 ^ 63 := by
    have hdrop := List.length_drop (i := d.ledger.rows.length) (l := peer.ledger.rows)
    unfold maxRowid at room
    omega
  obtain ⟨ledger, row, hrecord, hrows', hwrites, hprevious, hid, hsequence'⟩ :=
    record_ok (D := D) filled "CONSENSUS_RECOVERY" recordedAt (hsequence ▸ room)
      (recoveryPayload_dumps peer.nodeId hlength)
  have hcanonical : canonical D row.payload = row.payload :=
    (canonical_eq_iff hwrites.payload).mpr (recoveryPayload_ascends _ _)
  rw [← writtenInput_eq_iff] at hcanonical
  rw [hexchange, hrecord]
  exact ⟨filled, row,
    ⟨hrows ▸ lagging.peerUnbroken.ids, by rw [hsequence, hrows],
      hrows ▸ lagging.peerUnbroken.tenant⟩,
    hrows, hwrites.eventType, hwrites.tenantId, hid, hprevious,
    hwrites.hashed.trans (congrArg hexdigest hcanonical), hnode, hpending, hrows', hsequence'⟩

/-- One exchange swaps the roles of the two nodes. -/
lemma Lagging.swap (lagging : Lagging D d peer) (seen pingedAt recordedAt : String)
    (fresh : requestKey (toPyStr peer.nodeId) d.localCount ∉ d.pendingRequests)
    (room : (peer.ledger.rows.length : ℤ) < maxRowid) :
    Lagging D peer (d.exchange D peer seen pingedAt recordedAt) := by
  obtain ⟨filled, row, hfilled, hrows, -, htenant, hid, hprevious, hhashed, hnode, -, hrows',
    hsequence⟩ := lagging.exchange_rows seen pingedAt recordedAt fresh room
  have hvalid : HashChain.Valid (chain D) zeroHash (peer.ledger.rows ++ [row]) := by
    rw [HashChain.valid_append, HashChain.valid_cons]
    refine ⟨verifyChainIntegrity_valid.mp lagging.peerValid, ?_, hhashed, trivial, by simp⟩
    exact hprevious.trans (congrArg (fun rows => HashChain.last (chain D) zeroHash rows) hrows)
  have hunbroken := hfilled.concat hrows' hid hsequence htenant
  rw [hrows] at hrows'
  refine ⟨⟨lagging.named.2, hnode ▸ lagging.named.1⟩, fun heq => lagging.distinct ?_,
    lagging.peerUnbroken, hunbroken, ?_, ⟨[row], hrows'.symm⟩, ?_⟩
  · exact (heq.trans hnode).symm
  · rw [verifyChainIntegrity_valid, hrows']
    exact hvalid
  · rw [hrows', List.length_append]
    exact Nat.lt_succ_self _

/-- One exchange fills the ledger of the node that was behind and adds an event about it, so that
the other node is behind by this event. -/
theorem exchange_recovers (lagging : Lagging D d peer) (seen pingedAt recordedAt : String)
    (fresh : requestKey (toPyStr peer.nodeId) d.localCount ∉ d.pendingRequests)
    (room : (peer.ledger.rows.length : ℤ) < maxRowid) :
    Recovered D peer (d.exchange D peer seen pingedAt recordedAt) := by
  obtain ⟨filled, row, -, hrows, htype, -, -, -, -, -, -, hrows', -⟩ :=
    lagging.exchange_rows seen pingedAt recordedAt fresh room
  rw [hrows] at hrows'
  exact .of_rows (lagging.swap seen pingedAt recordedAt fresh room) htype hrows'

variable (D) in
/-- So many exchanges, each of the node that is behind with the other one. -/
def exchanges (seen pingedAt recordedAt : String) : ℕ → Daemon × Daemon → Daemon × Daemon
  | 0, nodes => nodes
  | n + 1, (d, peer) =>
      exchanges seen pingedAt recordedAt n (peer, d.exchange D peer seen pingedAt recordedAt)

end Delivery

/-! ## A node without events -/

/-- A node that has recorded the login. -/
def loginPeer : Daemon where
  ledger := loginLedger
  nodeId := "node-2"

lemma empty_lagging : Lagging Empty emptyNode loginPeer where
  named := by decide
  distinct := by decide
  unbroken := ⟨by simp [emptyNode, Ledger.empty], rfl, by simp [emptyNode, Ledger.empty]⟩
  peerUnbroken := by
    refine ⟨fun k row hget => ?_, rfl, ?_⟩
    · have hsingle : [loginRow][k]? = some row := hget
      rw [List.getElem?_singleton] at hsingle
      split_ifs at hsingle with hzero
      rw [← Option.some.inj hsingle, hzero]
      rfl
    · exact List.forall_mem_singleton.mpr rfl
  peerValid := verifyChainIntegrity_valid.mpr login_valid
  starts := List.nil_prefix
  behind := by decide

theorem exchange_recovers_login : Lagging Empty emptyNode loginPeer ∧
    requestKey (toPyStr loginPeer.nodeId) emptyNode.localCount ∉ emptyNode.pendingRequests ∧
    (loginPeer.ledger.rows.length : ℤ) < maxRowid ∧
    Recovered Empty loginPeer (emptyNode.exchange Empty loginPeer "t2" "t2" "t3") :=
  ⟨empty_lagging, List.not_mem_nil, by decide,
    exchange_recovers empty_lagging "t2" "t2" "t3" List.not_mem_nil (by decide)⟩

/-- The event about the recovery is missing in the ledger that was copied. -/
theorem exchange_diverges : ∃ d peer, Lagging Empty d peer ∧ d.pendingRequests = [] ∧
    (d.exchange Empty peer "t2" "t2" "t3").ledger.hashes ≠ peer.ledger.hashes := by
  refine ⟨emptyNode, loginPeer, empty_lagging, rfl, fun heq => ?_⟩
  obtain ⟨filled, row, -, hrows, -, -, -, -, -, -, -, hrows', -⟩ :=
    empty_lagging.exchange_rows "t2" "t2" "t3" List.not_mem_nil (by decide)
  have hlength := congrArg List.length heq
  rw [Ledger.hashes, Ledger.hashes, List.length_map, List.length_map, hrows', hrows,
    List.length_append] at hlength
  exact absurd hlength (Nat.succ_ne_self _)

end AgentSystem.Audit
