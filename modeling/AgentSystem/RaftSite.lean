import AgentSystem.RaftNode

/-!
# One node with the calls in progress on it

A `Site` is a node together with its `start_election` and its `propose_entry`, where one waits
for a reply. Whatever happens on a node is an `Input`: a call begins, a waiting call gets its
reply (or none), or a handler runs.
-/
namespace AgentSystem.Raft

structure Site where
  node : CommitteeRaftNode
  election : Option Election := none
  proposal : Option Proposal := none

/-- A node just constructed. -/
def Site.fresh (nodeId : NodeId) : Site := { node := { nodeId := nodeId } }

inductive Input where
  | startElection (v w : View)
  | voteReturned (w : View) (reply : Option RequestVoteReply)
  | proposeEntry (v w : View) (entryType : CommitteeEntryType) (payload : Payload)
      (author : Option NodeId)
  | appendReturned (reply : Option AppendEntriesReply)
  | requestVote (blocked : Bool) (v : View) (args : RequestVoteArgs)
  | appendEntries (blocked : Bool) (v : View) (args : AppendEntriesArgs)

/-- What leaves the node: a request to a peer, a reply, or the result of a call. -/
inductive Output where
  | sentVote (peer : NodeId) (args : RequestVoteArgs)
  | sentAppend (peer : NodeId) (args : AppendEntriesArgs)
  | voteReply (args : RequestVoteArgs) (reply : RequestVoteReply)
  | appendReply (args : AppendEntriesArgs) (reply : AppendEntriesReply)
  | elected (result : ElectionResult)
  | proposed (result : ProposeResult)
  | raised (error : PyError) (counted : List NodeId)

namespace Site

def afterElection (s : Site) (r : CommitteeRaftNode × Progress Election ElectionResult) :
    Site × Output :=
  match r.2 with
  | .waiting c => ({ s with node := r.1, election := some c }, .sentVote c.awaiting c.args)
  | .finished result => ({ s with node := r.1, election := none }, .elected result)
  | .raised error counted =>
      ({ s with node := r.1, election := none }, .raised error counted)

def afterProposal (s : Site) (r : CommitteeRaftNode × Progress Proposal ProposeResult) :
    Site × Output :=
  match r.2 with
  | .waiting c => ({ s with node := r.1, proposal := some c }, .sentAppend c.awaiting c.args)
  | .finished result => ({ s with node := r.1, proposal := none }, .proposed result)
  | .raised error counted =>
      ({ s with node := r.1, proposal := none }, .raised error counted)

def afterVote (s : Site) (args : RequestVoteArgs)
    (r : CommitteeRaftNode × Except PyError RequestVoteReply) : Site × Output :=
  match r.2 with
  | .ok reply => ({ s with node := r.1 }, .voteReply args reply)
  | .error error => ({ s with node := r.1 }, .raised error [])

def afterAppend (s : Site) (args : AppendEntriesArgs)
    (r : CommitteeRaftNode × Except PyError AppendEntriesReply) : Site × Output :=
  match r.2 with
  | .ok reply => ({ s with node := r.1 }, .appendReply args reply)
  | .error error => ({ s with node := r.1 }, .raised error [])

/-- One input. A call does not begin while the same call is in progress on the node, and a
reply needs a call that waits for it. -/
def step (s : Site) : Input → Option (Site × Output)
  | .startElection v w =>
      if s.election.isSome then none else some (s.afterElection (s.node.startElection v w))
  | .voteReturned w reply =>
      s.election.map fun c => s.afterElection (s.node.voteReturned c w reply)
  | .proposeEntry v w entryType payload author =>
      if s.proposal.isSome then none
      else some (s.afterProposal (s.node.proposeEntry v w entryType payload author))
  | .appendReturned reply =>
      s.proposal.map fun c => s.afterProposal (s.node.appendReturned c reply)
  | .requestVote blocked v args =>
      some (s.afterVote args (s.node.handleRequestVote blocked v args))
  | .appendEntries blocked v args =>
      some (s.afterAppend args (s.node.handleAppendEntries blocked v args))

end Site

/-- The states of one node, from its construction on, when the input of each step satisfies
`P` in the state that receives it. -/
inductive SiteRun (P : Site → Input → Prop) : Site → Prop
  | fresh (nodeId : NodeId) : SiteRun P (Site.fresh nodeId)
  | step {s s' : Site} {i : Input} {o : Output} (prior : SiteRun P s) (allowed : P s i)
      (run : s.step i = some (s', o)) : SiteRun P s'

end AgentSystem.Raft
