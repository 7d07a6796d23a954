import AgentSystem.MultiClusterRaft
import AgentSystem.RaftCommittedPrefix

/-!
# The rounds of the multi-cluster coordinator

What a round of requests and a round of commits leave of the nodes, and how many peers granted a round
that came to its end.
-/
namespace AgentSystem.Raft

/-- A node whose commit index is set, and that has applied what is committed. -/
def CommitteeRaftNode.committedTo (newIndex : ℤ) (node : CommitteeRaftNode) : CommitteeRaftNode :=
  ({ node with commitIndex := newIndex }.applyCommittedEntries).1

namespace FederatedRaftMultiCluster

variable {f f' : FederatedRaftMultiCluster} {handle : View → CommitteeRaftNode →
  CommitteeRaftNode × Except PyError Bool} {change : CommitteeRaftNode → CommitteeRaftNode}

/-- Some of these nodes have changed in this way, and nothing else has. -/
structure Visited (change : CommitteeRaftNode → CommitteeRaftNode) (ids : List NodeId)
    (f f' : FederatedRaftMultiCluster) : Prop where
  members : f'.members = f.members
  leader : f'.currentCrossClusterLeader = f.currentCrossClusterLeader
  nodes : ∀ id, f'.nodes id = f.nodes id ∨ (id ∈ ids ∧ f'.nodes id = (f.nodes id).map change)

lemma Visited.refl (ids : List NodeId) : Visited change ids f f :=
  ⟨rfl, rfl, fun _ => .inl rfl⟩

@[simp] lemma setNode_self (id : NodeId) (node : CommitteeRaftNode) :
    (f.setNode id node).nodes id = some node := Function.update_self ..

lemma setNode_of_ne {id other : NodeId} (h : other ≠ id) (node : CommitteeRaftNode) :
    (f.setNode id node).nodes other = f.nodes other := Function.update_of_ne h ..

/-- The first node is visited, and then the others. -/
lemma Visited.cons {id : NodeId} {ids : List NodeId} {node : CommitteeRaftNode} (hid : id ∉ ids)
    (hnode : f.nodes id = some node) (h : Visited change ids (f.setNode id (change node)) f') :
    Visited change (id :: ids) f f' := by
  refine ⟨h.members, h.leader, fun other => ?_⟩
  by_cases hother : other = id
  · subst hother
    right
    refine ⟨List.mem_cons_self, ?_⟩
    rcases h.nodes other with heq | ⟨hmem, _⟩
    · rw [heq, setNode_self, hnode, Option.map_some]
    · exact absurd hmem hid
  · have hothers := h.nodes other
    rw [setNode_of_ne hother] at hothers
    exact hothers.imp_right fun h => ⟨List.mem_cons_of_mem _ h.1, h.2⟩

/-- A round of requests changes each peer at most once. -/
theorem askPeers_visited (handle : View → CommitteeRaftNode →
      CommitteeRaftNode × Except PyError Bool) {peers : List (NodeId × RegionalClusterMember)}
    (hnodup : (peers.map Prod.fst).Nodup) (f : FederatedRaftMultiCluster) (granted : ℕ)
    (regions : List ClusterRegion) :
    Visited (fun peer => (handle f.view peer).1) (peers.map Prod.fst) f
      (askPeers handle peers f granted regions).1 := by
  induction peers generalizing f granted regions with
  | nil => exact .refl _
  | cons item rest ih =>
      obtain ⟨peerId, member⟩ := item
      obtain ⟨hid, hrest⟩ := List.nodup_cons.mp hnodup
      unfold askPeers
      split
      · exact .refl _
      next peer hpeer =>
        have hvisited := fun granted regions =>
          ih hrest (f.setNode peerId (handle f.view peer).1) granted regions
        dsimp only
        split
        · exact (Visited.refl _).cons hid hpeer
        · exact (hvisited _ _).cons hid hpeer
        · exact (hvisited _ _).cons hid hpeer

/-- A round that comes to its end has changed every peer, and counts those that grant it. -/
theorem askPeers_ok {peers : List (NodeId × RegionalClusterMember)}
    (hnodup : (peers.map Prod.fst).Nodup) {Grants : NodeId × RegionalClusterMember → Prop}
    [DecidablePred Grants] {f : FederatedRaftMultiCluster} {granted votes : ℕ}
    {regions votingRegions : List ClusterRegion}
    (hgrants : ∀ item ∈ peers, ∀ peer answer, f.nodes item.1 = some peer →
      (handle f.view peer).2 = .ok answer → (answer = true ↔ Grants item))
    (hrun : (askPeers handle peers f granted regions).2 = .ok (votes, votingRegions)) :
    (∀ id ∈ peers.map Prod.fst, ((askPeers handle peers f granted regions).1.nodes id) =
      (f.nodes id).map fun peer => (handle f.view peer).1) ∧
    votes = granted + (peers.filter fun item => Grants item).length ∧
    votingRegions = (peers.filter fun item => Grants item).foldl
      (fun regions item => addRegion regions item.2.region) regions := by
  induction peers generalizing f granted regions with
  | nil =>
      obtain ⟨rfl, rfl⟩ := Prod.mk.inj (Except.ok.inj hrun)
      simp
  | cons item rest ih =>
      obtain ⟨peerId, member⟩ := item
      obtain ⟨hid, hrest⟩ := List.nodup_cons.mp hnodup
      cases hpeer : f.nodes peerId with
      | none => simp [askPeers, hpeer] at hrun
      | some peer =>
          have hhead := hgrants _ List.mem_cons_self peer
          -- the rest of the round runs on a state in which only the first peer has changed
          have hsame : ∀ id ∈ rest.map Prod.fst,
              (f.setNode peerId (handle f.view peer).1).nodes id = f.nodes id := by
            intro id hmem
            refine setNode_of_ne ?_ _
            rintro rfl
            exact hid hmem
          have hothers : ∀ item ∈ rest, ∀ other answer,
              (f.setNode peerId (handle f.view peer).1).nodes item.1 = some other →
              (handle (f.setNode peerId (handle f.view peer).1).view other).2 = .ok answer →
              (answer = true ↔ Grants item) := by
            intro item hitem other answer hother
            rw [hsame _ (List.mem_map_of_mem hitem)] at hother
            exact hgrants item (List.mem_cons_of_mem _ hitem) other answer hother
          have hnodes : ∀ granted regions,
              (∀ id ∈ rest.map Prod.fst,
                (askPeers handle rest (f.setNode peerId (handle f.view peer).1) granted
                  regions).1.nodes id =
                ((f.setNode peerId (handle f.view peer).1).nodes id).map
                  fun peer => (handle f.view peer).1) →
              ∀ id ∈ (((peerId, member) :: rest).map Prod.fst),
                (askPeers handle rest (f.setNode peerId (handle f.view peer).1) granted
                  regions).1.nodes id =
                (f.nodes id).map fun peer => (handle f.view peer).1 := by
            intro granted regions hall id hmem
            rcases List.mem_cons.mp hmem with rfl | hmem
            · have hvisited := askPeers_visited handle hrest (f.setNode id (handle f.view peer).1)
                granted regions
              rcases hvisited.nodes id with heq | ⟨hin, _⟩
              · rw [heq, setNode_self, hpeer, Option.map_some]
              · exact absurd hin hid
            · rw [hall id hmem, hsame id hmem]
          unfold askPeers at hrun ⊢
          rw [hpeer] at hrun ⊢
          dsimp only at hrun hhead ⊢
          cases hanswer : (handle f.view peer).2 with
          | error error => simp [hanswer] at hrun
          | ok answer =>
              have hhead := hhead answer hpeer hanswer
              rw [hanswer] at hrun
              cases answer with
              | true =>
                  obtain ⟨hall, hvotes, hregions⟩ := ih hrest hothers hrun
                  refine ⟨hnodes _ _ hall, ?_, ?_⟩
                  · rw [List.filter_cons_of_pos (by simpa using hhead.mp rfl), hvotes,
                      List.length_cons]
                    omega
                  · rw [List.filter_cons_of_pos (by simpa using hhead.mp rfl), hregions,
                      List.foldl_cons]
              | false =>
                  have hnot : ¬ Grants (peerId, member) := fun h => by simpa using hhead.mpr h
                  obtain ⟨hall, hvotes, hregions⟩ := ih hrest hothers hrun
                  refine ⟨hnodes _ _ hall, ?_, ?_⟩
                  · rw [List.filter_cons_of_neg (by simpa using hnot), hvotes]
                  · rw [List.filter_cons_of_neg (by simpa using hnot), hregions]

/-- A round comes to its end when every peer is there and answers. -/
theorem askPeers_answered {peers : List (NodeId × RegionalClusterMember)}
    (hnodup : (peers.map Prod.fst).Nodup) {f : FederatedRaftMultiCluster}
    (hanswers : ∀ item ∈ peers, ∃ peer answer, f.nodes item.1 = some peer ∧
      (handle f.view peer).2 = .ok answer) (granted : ℕ) (regions : List ClusterRegion) :
    ∃ votes votingRegions,
      (askPeers handle peers f granted regions).2 = .ok (votes, votingRegions) := by
  induction peers generalizing f granted regions with
  | nil => exact ⟨granted, regions, rfl⟩
  | cons item rest ih =>
      obtain ⟨peerId, member⟩ := item
      obtain ⟨hid, hrest⟩ := List.nodup_cons.mp hnodup
      obtain ⟨peer, answer, hpeer, hanswer⟩ := hanswers _ List.mem_cons_self
      have hothers : ∀ item ∈ rest, ∃ other answer,
          (f.setNode peerId (handle f.view peer).1).nodes item.1 = some other ∧
          (handle (f.setNode peerId (handle f.view peer).1).view other).2 = .ok answer := by
        intro item hitem
        obtain ⟨other, answer, hother, hanswer⟩ := hanswers item (List.mem_cons_of_mem _ hitem)
        refine ⟨other, answer, ?_, hanswer⟩
        rw [setNode_of_ne, hother]
        intro heq
        have hmem : item.1 ∈ rest.map Prod.fst := List.mem_map_of_mem hitem
        exact hid (heq ▸ hmem)
      unfold askPeers
      rw [hpeer]
      dsimp only
      rw [hanswer]
      cases answer with
      | true => exact ih hrest hothers _ _
      | false => exact ih hrest hothers _ _

/-- A round of commits changes each node at most once. -/
theorem commitNodes_visited {ids : List NodeId} (hnodup : ids.Nodup) (newIndex : ℤ)
    (f : FederatedRaftMultiCluster) :
    Visited (CommitteeRaftNode.committedTo newIndex) ids f (commitNodes newIndex ids f).1 := by
  induction ids generalizing f with
  | nil => exact .refl _
  | cons id rest ih =>
      obtain ⟨hid, hrest⟩ := List.nodup_cons.mp hnodup
      unfold commitNodes
      split
      · exact .refl _
      next node hnode =>
        dsimp only
        split
        · exact (Visited.refl _).cons hid hnode
        · exact (ih hrest _).cons hid hnode

end FederatedRaftMultiCluster

end AgentSystem.Raft
