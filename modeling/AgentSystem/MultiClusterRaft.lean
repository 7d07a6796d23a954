import AgentSystem.RaftNode

/-!
# The multi-cluster coordinator

`FederatedRaftMultiCluster` with the Raft nodes of its members, whose handlers it calls one after the
other. A call that raises leaves what it has done so far. Delays and latencies are left out.
-/
namespace AgentSystem.Raft

inductive ClusterRegion
  | usEast
  | euCentral
  | apEast
  | localRegion
  deriving DecidableEq

structure RegionalClusterMember where
  nodeId : NodeId
  region : ClusterRegion
  organizationId : String
  virtualIp : String
  latencyWeightMs : ℚ := 10
  isActive : Bool := true
  deriving DecidableEq

inductive FederationError
  | keyError
  | runtimeError
  | node (error : PyError)
  deriving DecidableEq

/-- What `replicate_cross_region_entry` returns. -/
structure MultiClusterProposalResult where
  term : ℤ
  logIndex : ℤ
  regionsCommitted : List ClusterRegion
  success : Bool
  nodesAcknowledged : ℕ
  totalNodes : ℕ
  deriving DecidableEq

/-- The members in the order of their registration, and their nodes. -/
structure FederatedRaftMultiCluster where
  clusterName : String := "federated-global-mesh"
  members : List (NodeId × RegionalClusterMember) := []
  nodes : NodeId → Option CommitteeRaftNode := fun _ => none
  currentCrossClusterLeader : Option NodeId := none

namespace FederatedRaftMultiCluster

variable (f : FederatedRaftMultiCluster)

/-- What the nodes are told about the members. -/
def view : View := ⟨f.members.map Prod.fst, fun id => id ∈ f.members.map Prod.fst⟩

def activeIds : List NodeId := (f.members.filter fun item => item.2.isActive).map Prod.fst

def totalActive : ℕ := f.activeIds.length

/-- `len({m.region for m in self.members.values() if m.is_active})`. -/
def activeRegions : ℕ :=
  ((f.members.filter fun item => item.2.isActive).map fun item => item.2.region).dedup.length

/-- The active members other than this one. -/
def peersOf (id : NodeId) : List (NodeId × RegionalClusterMember) :=
  f.members.filter fun item => item.1 ≠ id ∧ item.2.isActive

def setNode (id : NodeId) (node : CommitteeRaftNode) : FederatedRaftMultiCluster :=
  { f with nodes := Function.update f.nodes id (some node) }

def setRole (id : NodeId) (role : RaftRole) : FederatedRaftMultiCluster :=
  { f with nodes := Function.update f.nodes id ((f.nodes id).map fun node => { node with role }) }

/-- `register_regional_node`. -/
def registerRegionalNode (nodeId : NodeId) (region : ClusterRegion) (organizationId virtualIp : String)
    (latencyWeightMs : ℚ) : FederatedRaftMultiCluster :=
  { f with
    members := PySequence.setItem f.members nodeId
      { nodeId, region, organizationId, virtualIp, latencyWeightMs }
    nodes := Function.update f.nodes nodeId (some { nodeId }) }

/-- A region in the set of those that were counted. -/
def addRegion (regions : List ClusterRegion) (region : ClusterRegion) : List ClusterRegion :=
  if region ∈ regions then regions else regions ++ [region]

/-- A round of requests to peers: what each of them makes of its request, how many grant it in the end,
and their regions. -/
def askPeers (handle : View → CommitteeRaftNode → CommitteeRaftNode × Except PyError Bool) :
    List (NodeId × RegionalClusterMember) → FederatedRaftMultiCluster → ℕ → List ClusterRegion →
      FederatedRaftMultiCluster × Except FederationError (ℕ × List ClusterRegion)
  | [], f, granted, regions => (f, .ok (granted, regions))
  | (peerId, member) :: rest, f, granted, regions =>
      match f.nodes peerId with
      | none => (f, .error .keyError)
      | some peer =>
          let handled := handle f.view peer
          let f := f.setNode peerId handled.1
          match handled.2 with
          | .error error => (f, .error (.node error))
          | .ok true => askPeers handle rest f (granted + 1) (addRegion regions member.region)
          | .ok false => askPeers handle rest f granted regions

/-! ## Elections -/

/-- A peer is asked for its vote. -/
def voteHandler (args : RequestVoteArgs) (view : View) (peer : CommitteeRaftNode) :
    CommitteeRaftNode × Except PyError Bool :=
  let handled := peer.handleRequestVote false view args
  (handled.1, handled.2.map RequestVoteReply.voteGranted)

/-- The end of an election with so many votes from these regions. -/
def concludeElection (candidateId : NodeId) (votes : ℕ) (regions : List ClusterRegion) :
    FederatedRaftMultiCluster × Bool :=
  if f.totalActive / 2 < votes ∧ min 2 f.activeRegions ≤ regions.length then
    ({ f.setRole candidateId .leader with currentCrossClusterLeader := some candidateId }, true)
  else (f.setRole candidateId .follower, false)

/-- `elect_cross_cluster_leader`. -/
def electCrossClusterLeader (candidateId : NodeId) :
    FederatedRaftMultiCluster × Except FederationError Bool :=
  match f.nodes candidateId, PySequence.getItem f.members candidateId with
  | some node, some member =>
      let candidate := { node with
        role := .candidate
        currentTerm := node.currentTerm + 1
        votedFor := some candidateId }
      let f := f.setNode candidateId candidate
      match candidate.lastLogTerm with
      | none => (f, .error (.node .indexError))
      | some lastLogTerm =>
          let args : RequestVoteArgs :=
            ⟨candidate.currentTerm, candidateId, candidate.lastLogIndex, lastLogTerm⟩
          let asked := askPeers (voteHandler args) (f.peersOf candidateId) f 1 [member.region]
          match asked.2 with
          | .error error => (asked.1, .error error)
          | .ok (votes, regions) =>
              let concluded := asked.1.concludeElection candidateId votes regions
              (concluded.1, .ok concluded.2)
  | _, _ => (f, .error .keyError)

/-! ## Replication -/

/-- A peer is sent an entry. -/
def appendHandler (args : AppendEntriesArgs) (view : View) (peer : CommitteeRaftNode) :
    CommitteeRaftNode × Except PyError Bool :=
  let handled := peer.handleAppendEntries false view args
  (handled.1, handled.2.map AppendEntriesReply.success)

/-- The commit index of these nodes is set, and they apply what is committed. -/
def commitNodes (newIndex : ℤ) : List NodeId → FederatedRaftMultiCluster →
    FederatedRaftMultiCluster × Option FederationError
  | [], f => (f, none)
  | id :: rest, f =>
      match f.nodes id with
      | none => (f, some .keyError)
      | some node =>
          let applied := { node with commitIndex := newIndex }.applyCommittedEntries
          let f := f.setNode id applied.1
          match applied.2 with
          | some error => (f, some (.node error))
          | none => commitNodes newIndex rest f

/-- The entry that the leader appends. -/
def newEntry (leaderId : NodeId) (leader : CommitteeRaftNode) (entryType : CommitteeEntryType)
    (payload : Payload) (author : Option NodeId) : CommitteeLogEntry :=
  ⟨leader.log.length, leader.currentTerm, entryType,
    if author.getD "" = "" then leaderId else author.getD "", payload⟩

/-- What the followers are sent for the last entry of the log of the leader. -/
def entryArgs (leaderId : NodeId) (leader : CommitteeRaftNode) (entry previous : CommitteeLogEntry) :
    AppendEntriesArgs :=
  ⟨leader.currentTerm, leaderId, leader.log.length - 1, previous.term, [entry], leader.commitIndex⟩

/-- `replicate_cross_region_entry` once there is a leader. -/
def appendOnLeader (leaderId : NodeId) (leader : CommitteeRaftNode) (entryType : CommitteeEntryType)
    (payload : Payload) (author : Option NodeId) :
    FederatedRaftMultiCluster × Except FederationError MultiClusterProposalResult :=
  let newIndex : ℤ := leader.log.length
  let entry := newEntry leaderId leader entryType payload author
  let f := f.setNode leaderId { leader with log := leader.log ++ [entry] }
  match PySequence.getItem f.members leaderId,
      PySequence.get (leader.log ++ [entry]) (newIndex - 1) with
  | none, _ => (f, .error .keyError)
  | _, none => (f, .error (.node .indexError))
  | some member, some previous =>
      let sent := askPeers (appendHandler (entryArgs leaderId leader entry previous))
        (f.peersOf leaderId) f 1 [member.region]
      match sent.2 with
      | .error error => (sent.1, .error error)
      | .ok (acks, regions) =>
          let success := sent.1.totalActive / 2 < acks
          let committed :=
            if success then
              commitNodes newIndex (leaderId :: (f.peersOf leaderId).map Prod.fst) sent.1
            else (sent.1, none)
          match committed.2 with
          | some error => (committed.1, .error error)
          | none =>
              (committed.1, .ok ⟨leader.currentTerm, newIndex, regions, success, acks,
                sent.1.totalActive⟩)

/-- The leader that is on record, if it is registered. -/
def recordedLeader : Option NodeId :=
  f.currentCrossClusterLeader.filter fun id => id ≠ "" ∧ (f.nodes id).isSome

/-- The election before a replication that has no leader. -/
def ensureLeader : FederatedRaftMultiCluster × Option FederationError :=
  match f.recordedLeader with
  | some _ => (f, none)
  | none =>
      match f.activeIds with
      | [] => (f, some .runtimeError)
      | id :: _ =>
          match f.electCrossClusterLeader id with
          | (f, .error error) => (f, some error)
          | (f, .ok _) => (f, none)

/-- `replicate_cross_region_entry`. -/
def replicateCrossRegionEntry (entryType : CommitteeEntryType) (payload : Payload)
    (author : Option NodeId) :
    FederatedRaftMultiCluster × Except FederationError MultiClusterProposalResult :=
  match f.ensureLeader with
  | (f, some error) => (f, .error error)
  | (f, none) =>
      match f.currentCrossClusterLeader.bind fun id => (f.nodes id).map fun node => (id, node) with
      | none => (f, .error .keyError)
      | some (leaderId, leader) => f.appendOnLeader leaderId leader entryType payload author

/-! ## Partitions -/

/-- The nodes of a region are inactive followers. -/
def isolate (failedRegion : ClusterRegion) : FederatedRaftMultiCluster :=
  { f with
    members := f.members.map fun item =>
      (item.1, if item.2.region = failedRegion then { item.2 with isActive := false } else item.2)
    nodes := fun id =>
      if ∃ item ∈ f.members, item.1 = id ∧ item.2.region = failedRegion then
        (f.nodes id).map fun node => { node with role := .follower }
      else f.nodes id }

/-- `handle_regional_partition`. -/
def handleRegionalPartition (failedRegion : ClusterRegion) :
    FederatedRaftMultiCluster × Except FederationError (Option NodeId) :=
  let f := f.isolate failedRegion
  match f.activeIds with
  | [] => ({ f with currentCrossClusterLeader := none }, .ok none)
  | survivor :: _ =>
      match f.currentCrossClusterLeader.filter fun id => id ≠ "" with
      | none => (f, .ok f.currentCrossClusterLeader)
      | some leaderId =>
          match PySequence.getItem f.members leaderId with
          | none => (f, .error .keyError)
          | some member =>
              if member.region = failedRegion then
                match f.electCrossClusterLeader survivor with
                | (f, .error error) => (f, .error error)
                | (f, .ok elected) =>
                    (f, .ok (if elected then f.currentCrossClusterLeader else none))
              else (f, .ok f.currentCrossClusterLeader)

/-! ## Calls -/

inductive Call
  | register (nodeId : NodeId) (region : ClusterRegion) (organizationId virtualIp : String)
      (latencyWeightMs : ℚ)
  | elect (candidateId : NodeId)
  | replicate (entryType : CommitteeEntryType) (payload : Payload) (author : Option NodeId)
  | partition (failedRegion : ClusterRegion)

/-- The coordinator after a call, whether or not it has raised. -/
def step : Call → FederatedRaftMultiCluster
  | .register nodeId region organizationId virtualIp latencyWeightMs =>
      f.registerRegionalNode nodeId region organizationId virtualIp latencyWeightMs
  | .elect candidateId => (f.electCrossClusterLeader candidateId).1
  | .replicate entryType payload author => (f.replicateCrossRegionEntry entryType payload author).1
  | .partition failedRegion => (f.handleRegionalPartition failedRegion).1

/-- Calls one after the other. -/
def run (calls : List Call) : FederatedRaftMultiCluster := calls.foldl step f

/-- Every call of the run meets a condition on the coordinator before it. -/
def Throughout (condition : FederatedRaftMultiCluster → Call → Prop) :
    FederatedRaftMultiCluster → List Call → Prop
  | _, [] => True
  | f, call :: calls => condition f call ∧ Throughout condition (f.step call) calls

instance decidableThroughout {condition : FederatedRaftMultiCluster → Call → Prop}
    [∀ f call, Decidable (condition f call)] :
    ∀ f calls, Decidable (Throughout condition f calls)
  | _, [] => inferInstanceAs (Decidable True)
  | f, call :: calls =>
      have : Decidable (Throughout condition (f.step call) calls) := decidableThroughout _ calls
      inferInstanceAs (Decidable (_ ∧ _))

variable {f}

/-- What every call preserves under a condition holds after every run that meets it. -/
theorem run_induction {condition : FederatedRaftMultiCluster → Call → Prop}
    {I : FederatedRaftMultiCluster → Prop}
    (hstep : ∀ f call, I f → condition f call → I (f.step call)) {calls : List Call} (hf : I f)
    (hcalls : Throughout condition f calls) : I (f.run calls) := by
  induction calls generalizing f with
  | nil => exact hf
  | cons call calls ih => exact ih (hstep f call hf hcalls.1) hcalls.2

end FederatedRaftMultiCluster

end AgentSystem.Raft
