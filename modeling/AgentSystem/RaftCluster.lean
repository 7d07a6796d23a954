import AgentSystem.RaftAuthority

/-!
# The cluster

A fixed list of members that all know and attest one another, with everything they ever sent. A
request can reach its peer at any later time, any number of times or never, and a waiting call
can get a reply that its peer gave to that request, or none.
-/
namespace AgentSystem.Raft

structure Cluster where
  site : NodeId → Site
  /-- Requests with the peer they were sent to, and replies with the node that gave them. -/
  voteRequests : List (NodeId × RequestVoteArgs) := []
  appendRequests : List (NodeId × AppendEntriesArgs) := []
  voteReplies : List (NodeId × RequestVoteArgs × RequestVoteReply) := []
  appendReplies : List (NodeId × AppendEntriesArgs × AppendEntriesReply) := []
  /-- The entries for which `propose_entry` returned `True`. -/
  returned : List CommitteeLogEntry := []

namespace Cluster

def initial : Cluster := { site := Site.fresh }

/-- The cluster after a step of node `n`: its new site, and what left it. -/
def record (c : Cluster) (n : NodeId) (s : Site) (o : Output) : Cluster :=
  let c := { c with site := Function.update c.site n s }
  match o with
  | .sentVote peer args => { c with voteRequests := c.voteRequests ++ [(peer, args)] }
  | .sentAppend peer args => { c with appendRequests := c.appendRequests ++ [(peer, args)] }
  | .voteReply args reply => { c with voteReplies := c.voteReplies ++ [(n, args, reply)] }
  | .appendReply args reply => { c with appendReplies := c.appendReplies ++ [(n, args, reply)] }
  | .proposed result =>
      { c with returned := c.returned ++ if result.ok then result.entry.toList else [] }
  | .elected _ => c
  | .raised _ _ => c

/-- What the network and the members can bring to node `n`. -/
def Brings (c : Cluster) (members : List NodeId) (n : NodeId) : Input → Prop
  | .startElection v w => v = .full members ∧ w = .full members
  | .voteReturned w reply => w = .full members ∧ ∀ r, reply = some r →
      ∃ e, (c.site n).election = some e ∧ (e.awaiting, e.args, r) ∈ c.voteReplies
  | .proposeEntry v w _ _ _ => v = .full members ∧ w = .full members
  | .appendReturned reply => ∀ r, reply = some r →
      ∃ p, (c.site n).proposal = some p ∧ (p.awaiting, p.args, r) ∈ c.appendReplies
  | .requestVote _ v args => v = .full members ∧ (n, args) ∈ c.voteRequests
  | .appendEntries _ v args => v = .full members ∧ (n, args) ∈ c.appendRequests

/-- One step of one member; `d` restricts which inputs a site takes in which state. -/
inductive Step (members : List NodeId) (d : Site → Input → Prop) : Cluster → Cluster → Prop
  | act {c : Cluster} {n : NodeId} {i : Input} {s : Site} {o : Output} (member : n ∈ members)
      (allowed : d (c.site n) i) (brought : c.Brings members n i)
      (run : (c.site n).step i = some (s, o)) : Step members d c (c.record n s o)

abbrev Run (members : List NodeId) (d : Site → Input → Prop) : Cluster → Cluster → Prop :=
  Relation.ReflTransGen (Step members d)

/-- Node `n` is the leader of term `T`. -/
def Leads (c : Cluster) (n : NodeId) (T : ℤ) : Prop :=
  (c.site n).node.role = .leader ∧ (c.site n).node.currentTerm = T

end Cluster

/-- No handler and no other call runs on a node while one of its calls waits. -/
def Undisturbed (s : Site) : Input → Prop
  | .voteReturned _ _ => s.proposal = none
  | .appendReturned _ => s.election = none
  | _ => s.election = none ∧ s.proposal = none

theorem Undisturbed.steady {s : Site} {i : Input} (h : Undisturbed s i) : Steady s i := by
  cases i with
  | voteReturned _ _ => exact Or.inl h
  | appendReturned _ => exact Or.inr trivial
  | _ => exact Or.inl h.2

/-- Undisturbed calls are a special case of steady ones. -/
theorem Cluster.Run.steady {members : List NodeId} {c c' : Cluster}
    (h : Cluster.Run members Undisturbed c c') : Cluster.Run members Steady c c' := by
  refine Relation.ReflTransGen.mono ?_ c c' h
  intro x y hstep
  cases hstep with
  | act member allowed brought run => exact .act member allowed.steady brought run

section Record

variable {c : Cluster} {n : NodeId} {s : Site} {o : Output}

@[simp] theorem record_site (m : NodeId) :
    (c.record n s o).site m = if m = n then s else c.site m := by
  unfold Cluster.record
  cases o <;> simp [Function.update_apply]

/-- The new vote requests are the ones sent in the step. -/
theorem mem_record_voteRequests {x : NodeId × RequestVoteArgs}
    (hx : x ∈ (c.record n s o).voteRequests) : x ∈ c.voteRequests ∨ o = .sentVote x.1 x.2 := by
  cases o with
  | sentVote p args =>
    rcases List.mem_append.mp hx with hx | hx
    · exact Or.inl hx
    · rw [List.mem_singleton.mp hx]
      exact Or.inr rfl
  | _ => exact Or.inl hx

theorem mem_record_appendRequests {x : NodeId × AppendEntriesArgs}
    (hx : x ∈ (c.record n s o).appendRequests) :
    x ∈ c.appendRequests ∨ o = .sentAppend x.1 x.2 := by
  cases o with
  | sentAppend p args =>
    rcases List.mem_append.mp hx with hx | hx
    · exact Or.inl hx
    · rw [List.mem_singleton.mp hx]
      exact Or.inr rfl
  | _ => exact Or.inl hx

theorem mem_record_voteReplies {x : NodeId × RequestVoteArgs × RequestVoteReply}
    (hx : x ∈ (c.record n s o).voteReplies) :
    x ∈ c.voteReplies ∨ (x.1 = n ∧ o = .voteReply x.2.1 x.2.2) := by
  cases o with
  | voteReply args reply =>
    rcases List.mem_append.mp hx with hx | hx
    · exact Or.inl hx
    · rw [List.mem_singleton.mp hx]
      exact Or.inr ⟨rfl, rfl⟩
  | _ => exact Or.inl hx

theorem mem_record_appendReplies {x : NodeId × AppendEntriesArgs × AppendEntriesReply}
    (hx : x ∈ (c.record n s o).appendReplies) :
    x ∈ c.appendReplies ∨ (x.1 = n ∧ o = .appendReply x.2.1 x.2.2) := by
  cases o with
  | appendReply args reply =>
    rcases List.mem_append.mp hx with hx | hx
    · exact Or.inl hx
    · rw [List.mem_singleton.mp hx]
      exact Or.inr ⟨rfl, rfl⟩
  | _ => exact Or.inl hx

theorem mem_record_returned {x : CommitteeLogEntry} (hx : x ∈ (c.record n s o).returned) :
    x ∈ c.returned ∨ ∃ result, o = .proposed result ∧ result.ok = true ∧
      result.entry = some x := by
  cases o with
  | proposed result =>
    rcases List.mem_append.mp hx with hx | hx
    · exact Or.inl hx
    · right
      split_ifs at hx with hok
      · exact ⟨result, rfl, hok, Option.mem_toList.mp hx⟩
      · cases hx
  | _ => exact Or.inl hx

end Record

section Full

variable {members : List NodeId} {n : CommitteeRaftNode}

theorem mem_verifiedPeers_full {p : NodeId} :
    p ∈ n.verifiedPeers (.full members) ↔ p ∈ members ∧ p ≠ n.nodeId := by
  simp [CommitteeRaftNode.verifiedPeers, CommitteeRaftNode.getClusterPeers, View.full]

/-- A member that attests all members counts majorities of the membership. -/
theorem getQuorumSize_full (hnodup : members.Nodup) (hn : n.nodeId ∈ members) :
    n.getQuorumSize (.full members) = members.length / 2 + 1 := by
  have hpeers : (n.verifiedPeers (.full members)).length + 1 = members.length := by
    have hfilter : n.verifiedPeers (.full members) = members.erase n.nodeId := by
      rw [hnodup.erase_eq_filter]
      unfold CommitteeRaftNode.verifiedPeers CommitteeRaftNode.getClusterPeers View.full
      rw [List.filter_eq_self.mpr (fun _ _ => rfl)]
      refine List.filter_congr fun x _ => ?_
      by_cases hx : x = n.nodeId <;> simp [hx]
    rw [hfilter, List.length_erase_of_mem hn]
    have := List.length_pos_of_mem hn
    omega
  unfold CommitteeRaftNode.getQuorumSize
  rw [hpeers]

end Full

end AgentSystem.Raft
