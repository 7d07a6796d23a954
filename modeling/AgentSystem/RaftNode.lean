import AgentSystem.RaftEntry

/-!
# The committee Raft node

`CommitteeRaftNode` with its two message handlers and its two outgoing calls. Each outgoing call
waits for one reply after another; it is modelled as a suspended call that is resumed with what
came back, so that other code can run on the node in between. Clock readings are left out.
-/
namespace AgentSystem.Raft

structure RequestVoteArgs where
  term : ℤ
  candidateId : NodeId
  lastLogIndex : ℤ
  lastLogTerm : ℤ
  deriving DecidableEq, Repr

structure RequestVoteReply where
  term : ℤ
  voteGranted : Bool
  voterId : NodeId
  reason : Option String := none
  deriving DecidableEq, Repr

structure AppendEntriesArgs where
  term : ℤ
  leaderId : NodeId
  prevLogIndex : ℤ
  prevLogTerm : ℤ
  entries : List CommitteeLogEntry
  leaderCommit : ℤ

structure AppendEntriesReply where
  term : ℤ
  success : Bool
  matchIndex : ℤ
  nodeId : NodeId
  errorMessage : Option String := none
  deriving DecidableEq, Repr

structure CommitteeRaftNode where
  nodeId : NodeId
  currentTerm : ℤ := 0
  votedFor : Option NodeId := none
  log : List CommitteeLogEntry := [genesis]
  role : RaftRole := .follower
  leaderId : Option NodeId := none
  commitIndex : ℤ := 0
  lastApplied : ℤ := 0
  nextIndex : NodeId → Option ℤ := fun _ => none
  matchIndex : NodeId → Option ℤ := fun _ => none
  stateMachine : CommitteeStateMachine := {}
  /-- The calls of `apply_entry` so far, each with the log index it was made for. -/
  applied : List (ℤ × CommitteeLogEntry) := []

/-- What `peers_provider` and `attestation_checker` answer at one moment. -/
structure View where
  peers : List NodeId
  attested : NodeId → Bool

/-- The view in which every member is a peer and attested. -/
def View.full (members : List NodeId) : View := ⟨members, fun _ => true⟩

namespace CommitteeRaftNode

def lastLogIndex (n : CommitteeRaftNode) : ℤ := n.log.length - 1

/-- `self.log[-1].term`, an `IndexError` on an empty log. -/
def lastLogTerm (n : CommitteeRaftNode) : Option ℤ :=
  (PySequence.get n.log (-1)).map CommitteeLogEntry.term

def getClusterPeers (n : CommitteeRaftNode) (v : View) : List NodeId :=
  v.peers.filter (· ≠ n.nodeId)

def verifiedPeers (n : CommitteeRaftNode) (v : View) : List NodeId :=
  (n.getClusterPeers v).filter v.attested

def getQuorumSize (n : CommitteeRaftNode) (v : View) : ℕ :=
  ((n.verifiedPeers v).length + 1) / 2 + 1

def stepDown (n : CommitteeRaftNode) (term : ℤ) (leaderId : Option NodeId) :
    CommitteeRaftNode :=
  { n with currentTerm := term, role := .follower, votedFor := none, leaderId := leaderId }

/-- `if term > self.current_term: self.step_down(term)`. -/
def catchUp (n : CommitteeRaftNode) (term : ℤ) : CommitteeRaftNode :=
  if n.currentTerm < term then n.stepDown term none else n

/-- Whether the candidate's log is at least as up-to-date as the voter's. -/
def logOk (n : CommitteeRaftNode) (lastLogTerm : ℤ) (args : RequestVoteArgs) : Prop :=
  lastLogTerm < args.lastLogTerm ∨
    (args.lastLogTerm = lastLogTerm ∧ n.lastLogIndex ≤ args.lastLogIndex)

instance (n : CommitteeRaftNode) (lastLogTerm : ℤ) (args : RequestVoteArgs) :
    Decidable (n.logOk lastLogTerm args) :=
  inferInstanceAs (Decidable (_ ∨ _))

def voteReply (n : CommitteeRaftNode) (granted : Bool) (reason : Option String) :
    RequestVoteReply :=
  ⟨n.currentTerm, granted, n.nodeId, reason⟩

/-- The part of `handle_request_vote` behind the chaos and attestation checks. -/
def considerVote (n : CommitteeRaftNode) (args : RequestVoteArgs) :
    CommitteeRaftNode × Except PyError RequestVoteReply :=
  let n := n.catchUp args.term
  if args.term < n.currentTerm then
    (n, .ok (n.voteReply false
      s!"Candidate term {args.term} < current_term {n.currentTerm}"))
  else
    match n.lastLogTerm with
    | none => (n, .error .indexError)
    | some lastLogTerm =>
        if (n.votedFor = none ∨ n.votedFor = some args.candidateId) ∧ n.logOk lastLogTerm args then
          let n := { n with votedFor := some args.candidateId }
          (n, .ok (n.voteReply true none))
        else
          let voted := n.votedFor.getD "None"
          (n, .ok (n.voteReply false
            s!"Vote denied (already voted for {voted} or log not up-to-date)"))

/-- `handle_request_vote`; `blocked` is the verdict of the chaos manager, if there is one. -/
def handleRequestVote (n : CommitteeRaftNode) (blocked : Bool) (v : View)
    (args : RequestVoteArgs) : CommitteeRaftNode × Except PyError RequestVoteReply :=
  if blocked then (n, .ok (n.voteReply false "Blocked by active chaos rule (Phase 91)."))
  else if v.attested args.candidateId then n.considerVote args
  else (n, .ok (n.voteReply false "Candidate is not attested (Phase 88 Zero-Trust requirement)."))

/-- The `while` loop of `_apply_committed_entries`, for its remaining number of rounds. -/
def applyRounds : ℕ → CommitteeRaftNode → CommitteeRaftNode × Option PyError
  | 0, n => (n, none)
  | k + 1, n =>
      let n := { n with lastApplied := n.lastApplied + 1 }
      if n.lastApplied < n.log.length then
        match PySequence.get n.log n.lastApplied with
        | none => (n, some .indexError)
        | some e =>
            let r := n.stateMachine.applyEntry e
            let n := { n with stateMachine := r.1, applied := n.applied ++ [(n.lastApplied, e)] }
            match r.2 with
            | some error => (n, some error)
            | none => applyRounds k n
      else applyRounds k n

def applyCommittedEntries (n : CommitteeRaftNode) : CommitteeRaftNode × Option PyError :=
  applyRounds (n.commitIndex - n.lastApplied).toNat n

/-- The loop of `handle_append_entries` over the entries of the message. -/
def insertEntries : List CommitteeLogEntry → ℤ → List CommitteeLogEntry →
    List CommitteeLogEntry × Option PyError
  | log, _, [] => (log, none)
  | log, insertIdx, entry :: entries =>
      if insertIdx < log.length then
        match PySequence.get log insertIdx with
        | none => (log, some .indexError)
        | some old =>
            if old.term ≠ entry.term then
              insertEntries (PySequence.sliceTo log insertIdx ++ [entry]) (insertIdx + 1) entries
            else insertEntries log (insertIdx + 1) entries
      else insertEntries (log ++ [entry]) (insertIdx + 1) entries

def appendReply (n : CommitteeRaftNode) (success : Bool) (matchIndex : ℤ)
    (errorMessage : Option String) : AppendEntriesReply :=
  ⟨n.currentTerm, success, matchIndex, n.nodeId, errorMessage⟩

/-- `commit_index` follows `leader_commit`, and the new entries are applied. -/
def advanceCommit (n : CommitteeRaftNode) (leaderCommit : ℤ) :
    CommitteeRaftNode × Option PyError :=
  if n.commitIndex < leaderCommit then
    applyCommittedEntries { n with commitIndex := min leaderCommit n.lastLogIndex }
  else (n, none)

/-- The log matching check of `handle_append_entries` and all that follows it. -/
def matchAndAppend (n : CommitteeRaftNode) (args : AppendEntriesArgs) :
    CommitteeRaftNode × Except PyError AppendEntriesReply :=
  if n.log.length ≤ args.prevLogIndex then
    (n, .ok (n.appendReply false n.lastLogIndex
      s!"Missing prev_log_index {args.prevLogIndex} (log len={n.log.length})"))
  else
    match PySequence.get n.log args.prevLogIndex with
    | none => (n, .error .indexError)
    | some prev =>
        if prev.term ≠ args.prevLogTerm then
          let n := { n with log := PySequence.sliceTo n.log args.prevLogIndex }
          (n, .ok (n.appendReply false n.lastLogIndex
            s!"Term mismatch at prev_log_index {args.prevLogIndex}"))
        else
          let inserted := insertEntries n.log (args.prevLogIndex + 1) args.entries
          let n := { n with log := inserted.1 }
          match inserted.2 with
          | some error => (n, .error error)
          | none =>
              let advanced := n.advanceCommit args.leaderCommit
              match advanced.2 with
              | some error => (advanced.1, .error error)
              | none => (advanced.1, .ok (advanced.1.appendReply true advanced.1.lastLogIndex none))

/-- A later term, and a message of the own term to a candidate or leader, make it a follower. -/
def recognizeLeader (n : CommitteeRaftNode) (args : AppendEntriesArgs) : CommitteeRaftNode :=
  if n.currentTerm < args.term then n.stepDown args.term args.leaderId
  else if args.term = n.currentTerm ∧ n.role ≠ .follower then
    n.stepDown args.term args.leaderId
  else n

/-- The part of `handle_append_entries` behind the chaos and attestation checks. -/
def followLeader (n : CommitteeRaftNode) (args : AppendEntriesArgs) :
    CommitteeRaftNode × Except PyError AppendEntriesReply :=
  let n := n.recognizeLeader args
  if args.term < n.currentTerm then
    (n, .ok (n.appendReply false 0 s!"Leader term {args.term} < current_term {n.currentTerm}"))
  else matchAndAppend { n with leaderId := args.leaderId } args

def handleAppendEntries (n : CommitteeRaftNode) (blocked : Bool) (v : View)
    (args : AppendEntriesArgs) : CommitteeRaftNode × Except PyError AppendEntriesReply :=
  if blocked then
    (n, .ok (n.appendReply false 0 "Blocked by active chaos rule (Phase 91)."))
  else if v.attested args.leaderId then n.followLeader args
  else
    (n, .ok (n.appendReply false 0 "Leader is not attested (Phase 88 Zero-Trust requirement)."))

end CommitteeRaftNode

/-- A call that waits for a reply, has returned, or has raised; `counted` holds the quorum that
the call had counted when it raised, if any. -/
inductive Progress (Call Result : Type) where
  | waiting (call : Call)
  | finished (result : Result)
  | raised (error : PyError) (counted : List NodeId)

/-- `start_election` waiting for the reply of `awaiting`; `votes_granted` is the number of
`voters`, the node itself and the peers whose vote was counted so far. -/
structure Election where
  args : RequestVoteArgs
  quorum : ℕ
  voters : List NodeId
  awaiting : NodeId
  remaining : List NodeId

/-- What `start_election` returned, with the nodes it had counted by then. -/
structure ElectionResult where
  won : Bool
  counted : List NodeId

/-- `propose_entry` waiting for the reply of `awaiting` to `args`; `acks` is the number of
`ackers`, the node itself and the peers whose success was counted so far. -/
structure Proposal where
  newIndex : ℤ
  entry : CommitteeLogEntry
  quorum : ℕ
  ackers : List NodeId
  args : AppendEntriesArgs
  awaiting : NodeId
  remaining : List NodeId

structure ProposeResult where
  ok : Bool
  entry : Option CommitteeLogEntry
  message : String
  counted : List NodeId

namespace CommitteeRaftNode

def becomeLeader (n : CommitteeRaftNode) (v : View) : CommitteeRaftNode :=
  { n with
    role := .leader
    leaderId := some n.nodeId
    nextIndex := fun p =>
      if p ∈ n.getClusterPeers v then some (n.lastLogIndex + 1) else n.nextIndex p
    matchIndex := fun p => if p ∈ n.getClusterPeers v then some 0 else n.matchIndex p }

/-- The next round of the vote loop, or its end. -/
def nextVote (n : CommitteeRaftNode) (args : RequestVoteArgs) (quorum : ℕ)
    (voters : List NodeId) : List NodeId → Progress Election ElectionResult
  | [] => .finished ⟨n.role = .leader, voters⟩
  | p :: rest => .waiting ⟨args, quorum, voters, p, rest⟩

/-- `start_election` up to its first request. The attestation checker is asked once for the
peers to address (`v`) and once for the size of the quorum (`w`). -/
def startElection (n : CommitteeRaftNode) (v w : View) :
    CommitteeRaftNode × Progress Election ElectionResult :=
  let n := { n with
    currentTerm := n.currentTerm + 1
    role := .candidate
    votedFor := some n.nodeId
    leaderId := none }
  let quorum := n.getQuorumSize w
  if quorum ≤ 1 then (n.becomeLeader w, .finished ⟨true, [n.nodeId]⟩)
  else
    match n.lastLogTerm with
    | none => (n, .raised .indexError [])
    | some lastLogTerm =>
        let args : RequestVoteArgs := ⟨n.currentTerm, n.nodeId, n.lastLogIndex, lastLogTerm⟩
        (n, n.nextVote args quorum [n.nodeId] (n.verifiedPeers v))

/-- One round of the vote loop, from the reply on. -/
def voteReturned (n : CommitteeRaftNode) (c : Election) (w : View) :
    Option RequestVoteReply → CommitteeRaftNode × Progress Election ElectionResult
  | none => (n, n.nextVote c.args c.quorum c.voters c.remaining)
  | some reply =>
      if n.currentTerm < reply.term then
        (n.stepDown reply.term none, .finished ⟨false, c.voters⟩)
      else if reply.voteGranted then
        let voters := c.voters ++ [c.awaiting]
        if c.quorum ≤ voters.length ∧ n.role = .candidate then
          (n.becomeLeader w, .finished ⟨true, voters⟩)
        else (n, n.nextVote c.args c.quorum voters c.remaining)
      else (n, n.nextVote c.args c.quorum c.voters c.remaining)

/-- The request `propose_entry` builds for one peer. -/
def appendArgs (n : CommitteeRaftNode) (newIndex : ℤ) (peer : NodeId) :
    Except PyError AppendEntriesArgs :=
  let prevIdx := (n.nextIndex peer).getD newIndex - 1
  let args (prevTerm : ℤ) : AppendEntriesArgs :=
    ⟨n.currentTerm, n.nodeId, prevIdx, prevTerm, PySequence.sliceFrom n.log (prevIdx + 1),
      n.commitIndex⟩
  if prevIdx < n.log.length then
    match PySequence.get n.log prevIdx with
    | none => .error .indexError
    | some prev => .ok (args prev.term)
  else .ok (args 0)

/-- The next round of the replication loop, or the count of the acknowledgements. -/
def nextAppend (n : CommitteeRaftNode) (newIndex : ℤ) (entry : CommitteeLogEntry) (quorum : ℕ)
    (ackers : List NodeId) : List NodeId → CommitteeRaftNode × Progress Proposal ProposeResult
  | [] =>
      if quorum ≤ ackers.length then
        let applied := applyCommittedEntries { n with commitIndex := newIndex }
        match applied.2 with
        | some error => (applied.1, .raised error ackers)
        | none => (applied.1, .finished ⟨true, some entry, "Committed by quorum", ackers⟩)
      else
        (n, .finished ⟨false, some entry,
          s!"Quorum not achieved ({ackers.length}/{quorum} acks)", ackers⟩)
  | p :: rest =>
      match n.appendArgs newIndex p with
      | .error error => (n, .raised error [])
      | .ok args => (n, .waiting ⟨newIndex, entry, quorum, ackers, args, p, rest⟩)

/-- The entry `propose_entry` appends; an empty author is replaced as well. -/
def newEntry (n : CommitteeRaftNode) (entryType : CommitteeEntryType) (payload : Payload)
    (author : Option NodeId) : CommitteeLogEntry :=
  ⟨n.log.length, n.currentTerm, entryType,
    if author.getD "" = "" then n.nodeId else author.getD "", payload⟩

/-- `propose_entry` up to its first request; here the quorum is computed first (`v`) and the
peers to address afterwards (`w`). -/
def proposeEntry (n : CommitteeRaftNode) (v w : View) (entryType : CommitteeEntryType)
    (payload : Payload) (author : Option NodeId) :
    CommitteeRaftNode × Progress Proposal ProposeResult :=
  if n.role ≠ .leader then
    let leader := n.leaderId.getD "None"
    (n, .finished ⟨false, none,
      s!"Node {n.nodeId} is not LEADER (Current leader: {leader})", []⟩)
  else
    let newIndex : ℤ := n.log.length
    let entry := n.newEntry entryType payload author
    let n := { n with log := n.log ++ [entry] }
    n.nextAppend newIndex entry (n.getQuorumSize v) [n.nodeId] (n.verifiedPeers w)

def recordAck (n : CommitteeRaftNode) (peer : NodeId) (matchIndex : ℤ) : CommitteeRaftNode :=
  { n with
    matchIndex := Function.update n.matchIndex peer (some matchIndex)
    nextIndex := Function.update n.nextIndex peer (some (matchIndex + 1)) }

def recordRefusal (n : CommitteeRaftNode) (peer : NodeId) (newIndex : ℤ) : CommitteeRaftNode :=
  { n with
    nextIndex := Function.update n.nextIndex peer
      (some (max 1 ((n.nextIndex peer).getD newIndex - 1))) }

/-- One round of the replication loop, from the reply on. -/
def appendReturned (n : CommitteeRaftNode) (c : Proposal) :
    Option AppendEntriesReply → CommitteeRaftNode × Progress Proposal ProposeResult
  | none => n.nextAppend c.newIndex c.entry c.quorum c.ackers c.remaining
  | some reply =>
      if n.currentTerm < reply.term then
        (n.stepDown reply.term none,
          .finished ⟨false, none, "Stepped down due to higher term peer", c.ackers⟩)
      else if reply.success then
        (n.recordAck c.awaiting reply.matchIndex).nextAppend c.newIndex c.entry c.quorum
          (c.ackers ++ [c.awaiting]) c.remaining
      else
        (n.recordRefusal c.awaiting c.newIndex).nextAppend c.newIndex c.entry c.quorum c.ackers
          c.remaining

end CommitteeRaftNode

end AgentSystem.Raft
