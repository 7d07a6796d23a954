import AgentSystem.PeerRouter
import AgentSystem.PyData

/-!
# What gossip does to connected peers

Which messages leave the connection of a peer as it is. A ping writes the entry of the sender that
it names, and every peer that a message tells about is set to disconnected.
-/
namespace AgentSystem.P2P

open Json PySequence

variable {D K Ws Key : Type} [DecidableEq K]

lemma lookup_setItem {ν : Type} (items : List (K × ν)) (key b : K) (value : ν) :
    (setItem items key value).lookup b = if b = key then some value else items.lookup b := by
  induction items with
  | nil =>
      by_cases hb : b = key
      · simp [setItem, hb]
      · simp [setItem, hb, List.lookup_cons, beq_eq_false_iff_ne.mpr hb]
  | cons item items ih =>
      obtain ⟨k, v⟩ := item
      by_cases hk : k = key
      · subst hk
        rw [setItem, if_pos rfl, List.lookup_cons, List.lookup_cons]
        by_cases hb : b = k
        · simp [hb]
        · simp [hb, beq_eq_false_iff_ne.mpr hb]
      · rw [setItem, if_neg hk, List.lookup_cons, List.lookup_cons, ih]
        by_cases hb : b = k
        · subst hb
          simp [hk]
        · simp [beq_eq_false_iff_ne.mpr hb]

/-- The two entries agree on what a connection is. -/
structure SameConnection (peer peer' : PeerInfo D Ws Key) : Prop where
  status : peer'.status = peer.status
  role : peer'.role = peer.role
  host : peer'.host = peer.host
  port : peer'.port = peer.port
  ws : peer'.ws = peer.ws
  key : peer'.key = peer.key

lemma SameConnection.refl (peer : PeerInfo D Ws Key) : SameConnection peer peer :=
  ⟨rfl, rfl, rfl, rfl, rfl, rfl⟩

/-- The connection of a peer is in the table as it was. -/
def Keeps (b : K) (peer : PeerInfo D Ws Key) (s : P2PSwarmRouter D K Ws Key) : Prop :=
  ∃ peer', s.peers.lookup b = some peer' ∧ SameConnection peer peer'

/-- The peer is in the table, and it is not connected. -/
def Disconnected (b : K) (s : P2PSwarmRouter D K Ws Key) : Prop :=
  ∃ peer, s.peers.lookup b = some peer ∧ peer.status = .disconnected

lemma Disconnected.not_keeps {b : K} {peer : PeerInfo D Ws Key} {s : P2PSwarmRouter D K Ws Key}
    (h : Disconnected b s) (hconnected : peer.status = .connected) : ¬Keeps b peer s := by
  rintro ⟨peer', hlookup, hsame⟩
  obtain ⟨peer'', hlookup', hdisconnected⟩ := h
  rw [hlookup] at hlookup'
  cases hlookup'
  rw [hsame.status, hconnected] at hdisconnected
  cases hdisconnected

namespace P2PSwarmRouter

variable (clock : ℕ → ℚ) {s : P2PSwarmRouter D K Ws Key} {b : K} {peer : PeerInfo D Ws Key}

/-! ## One entry -/

lemma nodeId_addPeer (gossip : Gossip D K) (status : PeerStatus) (ws : Option Ws)
    (sharedKey : Option Key) : (s.addPeer clock gossip status ws sharedKey).nodeId = s.nodeId := rfl

lemma lookup_addPeer_of_ne {gossip : Gossip D K} (h : b ≠ gossip.key) (status : PeerStatus)
    (ws : Option Ws) (sharedKey : Option Key) :
    (s.addPeer clock gossip status ws sharedKey).peers.lookup b = s.peers.lookup b := by
  rw [addPeer, lookup_setItem, if_neg h]

/-- What is told about a peer disconnects it. -/
lemma disconnected_addPeer (gossip : Gossip D K) (ws : Option Ws) (sharedKey : Option Key) :
    Disconnected gossip.key (s.addPeer clock gossip .disconnected ws sharedKey) := by
  refine ⟨_, by rw [addPeer, lookup_setItem, if_pos rfl], ?_⟩
  split <;> rfl

/-- A ping in the name of a connected peer keeps its connection just if it repeats it. -/
lemma keeps_addPeer_iff {gossip : Gossip D K} (hb : b = gossip.key)
    (hlookup : s.peers.lookup b = some peer) (hconnected : peer.status = .connected) (ws : Ws)
    (sharedKey : Key) :
    Keeps b peer (s.addPeer clock gossip .connected (some ws) (some sharedKey)) ↔
      gossip.role = peer.role ∧ gossip.host = peer.host ∧ gossip.port = peer.port ∧
        some ws = peer.ws ∧ some sharedKey = peer.key := by
  unfold Keeps
  rw [addPeer, lookup_setItem, if_pos hb, ← hb, hlookup]
  constructor
  · rintro ⟨peer', heq, hsame⟩
    cases heq
    exact ⟨hsame.role, hsame.host, hsame.port, hsame.ws, hsame.key⟩
  · rintro ⟨hrole, hhost, hport, hws, hkey⟩
    exact ⟨_, rfl, hconnected.symm, hrole, hhost, hport, hws, hkey⟩

/-- A pong of a connected peer keeps its connection. -/
lemma keeps_notePong (hlookup : s.peers.lookup b = some peer)
    (hconnected : peer.status = .connected) (sender : K) :
    Keeps b peer (s.notePong clock sender) := by
  unfold notePong
  split
  · exact ⟨peer, hlookup, .refl peer⟩
  · rename_i other hother
    unfold Keeps
    rw [lookup_setItem]
    by_cases hb : b = sender
    · subst hb
      rw [hlookup] at hother
      cases hother
      rw [if_pos rfl]
      exact ⟨_, rfl, hconnected.symm, rfl, rfl, rfl, rfl, rfl⟩
    · rw [if_neg hb]
      exact ⟨peer, hlookup, .refl peer⟩

lemma nodeId_notePong (sender : K) : (s.notePong clock sender).nodeId = s.nodeId := by
  unfold notePong
  split <;> rfl

/-! ## The gossip of a message -/

variable [Doubles D] [Hashing D K]

/-- The peers that the entries tell about, up to the first one that raises. -/
def learned (nodeId : String) : List (PyValue D) → List K
  | [] => []
  | entry :: entries =>
      match readEntry nodeId entry with
      | .error _ => []
      | .ok none => learned nodeId entries
      | .ok (some gossip) => gossip.key :: learned nodeId entries

/-- The entries of `known_peers`, none if it is nothing to go through. -/
def entriesOf (knownPeers : PyValue D) : List (PyValue D) :=
  match elements knownPeers with
  | .error _ => []
  | .ok entries => entries

lemma lookup_learnEntries {entries : List (PyValue D)} (h : b ∉ learned s.nodeId entries) :
    (s.learnEntries clock entries).router.peers.lookup b = s.peers.lookup b := by
  induction entries generalizing s with
  | nil => rfl
  | cons entry entries ih =>
      rw [learned] at h
      rw [learnEntries]
      split
      · rfl
      · rename_i hread
        rw [hread] at h
        exact ih h
      · rename_i gossip hread
        rw [hread, List.mem_cons, not_or] at h
        exact (ih (s := s.addPeer clock gossip .disconnected none none) h.2).trans
          (lookup_addPeer_of_ne clock h.1 _ _ _)

lemma disconnected_learnEntries {entries : List (PyValue D)}
    (h : b ∈ learned s.nodeId entries ∨ Disconnected b s) :
    Disconnected b (s.learnEntries clock entries).router := by
  induction entries generalizing s with
  | nil => exact h.resolve_left List.not_mem_nil
  | cons entry entries ih =>
      rw [learned] at h
      rw [learnEntries]
      split
      · rename_i fault hread
        rw [hread] at h
        exact h.resolve_left List.not_mem_nil
      · rename_i hread
        rw [hread] at h
        exact ih h
      · rename_i gossip hread
        rw [hread, List.mem_cons] at h
        apply ih
        by_cases hb : b = gossip.key
        · subst hb
          exact .inr (disconnected_addPeer clock gossip none none)
        · rcases h with (h | h) | ⟨peer, hlookup, hstatus⟩
          · exact absurd h hb
          · exact .inl h
          · exact .inr ⟨peer, by rw [lookup_addPeer_of_ne clock hb]; exact hlookup, hstatus⟩

/-- Gossip keeps what it finds just if it does not tell about the peer. -/
lemma keeps_learnPeers_iff (hconnected : peer.status = .connected) (knownPeers : PyValue D) :
    Keeps b peer (s.learnPeers clock knownPeers).router ↔
      b ∉ learned s.nodeId (entriesOf knownPeers) ∧ Keeps b peer s := by
  have hentries : (s.learnPeers clock knownPeers).router =
      (s.learnEntries clock (entriesOf knownPeers)).router := by
    unfold learnPeers entriesOf
    cases elements knownPeers <;> rfl
  rw [hentries]
  by_cases hlearned : b ∈ learned s.nodeId (entriesOf knownPeers)
  · have hnot := (disconnected_learnEntries clock (.inl hlearned)).not_keeps hconnected
    exact iff_of_false hnot fun h => h.1 hlearned
  · simp only [Keeps, lookup_learnEntries clock hlearned, hlearned, not_false_eq_true, true_and]

/-! ## One message -/

/-- The value that a message tells peers with, if it gets so far. -/
def gossipOf (msg : Message D) : Option (PyValue D) :=
  if msg.hasType "ping" then
    match readPing msg with
    | .error _ => none
    | .ok ping => (Hashing.key ping.senderId).map fun _ => ping.knownPeers
  else if msg.hasType "pong" then
    match msg.require "sender_id" with
    | .error _ => none
    | .ok senderId => (Hashing.key senderId).map fun _ => msg.get "known_peers" (.list [])
  else none

/-- The peers that a message tells about. -/
def told (nodeId : String) (msg : Message D) : List K :=
  match gossipOf msg with
  | none => []
  | some knownPeers => learned nodeId (entriesOf knownPeers)

/-- A ping in the name of the peer repeats what its entry says. -/
def Repeats (msg : Message D) (ws : Ws) (sharedKey : Key) (b : K) (peer : PeerInfo D Ws Key) :
    Prop :=
  msg.hasType "ping" = true → ∀ ping, readPing msg = .ok ping → Hashing.key ping.senderId = some b →
    ping.role = peer.role ∧ ping.host = peer.host ∧ ping.port = peer.port ∧
      some ws = peer.ws ∧ some sharedKey = peer.key

variable {msg : Message D} {ws : Ws} {sharedKey : Key}

lemma keeps_processPing_iff (hlookup : s.peers.lookup b = some peer)
    (hconnected : peer.status = .connected) (hping : msg.hasType "ping" = true) :
    Keeps b peer (s.processPing clock msg ws sharedKey).router ↔
      b ∉ told s.nodeId msg ∧ Repeats msg ws sharedKey b peer := by
  have hkept : Keeps b peer s := ⟨peer, hlookup, .refl peer⟩
  unfold processPing told gossipOf
  rw [if_pos hping]
  cases hread : readPing msg with
  | error fault =>
      exact iff_of_true hkept ⟨List.not_mem_nil, fun _ ping h => by rw [hread] at h; cases h⟩
  | ok ping =>
      dsimp only
      cases hsender : Hashing.key ping.senderId with
      | none =>
          refine iff_of_true hkept ⟨List.not_mem_nil, fun _ ping' h hkey => ?_⟩
          rw [hread] at h
          cases h
          rw [hsender] at hkey
          cases hkey
      | some sender =>
          dsimp only [Step.andThen]
          rw [keeps_learnPeers_iff clock hconnected, nodeId_addPeer]
          refine and_congr_right fun _ => ?_
          by_cases hb : b = sender
          · subst hb
            rw [keeps_addPeer_iff clock (by rfl) hlookup hconnected]
            refine ⟨fun h _ ping' hread' _ => ?_, fun h => h hping ping hread hsender⟩
            rw [hread] at hread'
            cases hread'
            exact h
          · refine iff_of_true ⟨peer, ?_, .refl peer⟩ fun _ ping' hread' hkey => ?_
            · rw [lookup_addPeer_of_ne clock hb]
              exact hlookup
            · rw [hread] at hread'
              cases hread'
              exact absurd (Option.some.inj (hkey.symm.trans hsender)) hb

lemma keeps_processPong_iff (hlookup : s.peers.lookup b = some peer)
    (hconnected : peer.status = .connected) (hping : msg.hasType "ping" = false)
    (hpong : msg.hasType "pong" = true) :
    Keeps b peer (s.processPong clock msg).router ↔ b ∉ told s.nodeId msg := by
  have hkept : Keeps b peer s := ⟨peer, hlookup, .refl peer⟩
  unfold processPong told gossipOf
  rw [hping, if_neg Bool.false_ne_true, if_pos hpong]
  cases msg.require "sender_id" with
  | error fault => exact iff_of_true hkept List.not_mem_nil
  | ok senderId =>
      dsimp only
      cases Hashing.key senderId with
      | none => exact iff_of_true hkept List.not_mem_nil
      | some sender =>
          dsimp only [Step.andThen]
          rw [keeps_learnPeers_iff clock hconnected, nodeId_notePong]
          exact and_iff_left (keeps_notePong clock hlookup hconnected sender)

omit [Doubles D] in
lemma peers_processTaskResponse : (s.processTaskResponse msg).router.peers = s.peers := by
  unfold processTaskResponse
  split
  · rfl
  · split
    · rfl
    · split <;> rfl

/-- A message keeps the connection of a connected peer just if it does not tell about it, and is no
ping in its name with other data. -/
lemma keeps_processWsMessage_iff (hlookup : s.peers.lookup b = some peer)
    (hconnected : peer.status = .connected) (peerNodeId : String) :
    Keeps b peer (s.processWsMessage clock msg ws sharedKey peerNodeId).router ↔
      b ∉ told s.nodeId msg ∧ Repeats msg ws sharedKey b peer := by
  have hkept : Keeps b peer s := ⟨peer, hlookup, .refl peer⟩
  unfold processWsMessage
  by_cases hping : msg.hasType "ping" = true
  · rw [if_pos hping]
    exact keeps_processPing_iff clock hlookup hconnected hping
  have hrepeats : Repeats msg ws sharedKey b peer := fun h => absurd h hping
  rw [if_neg hping]
  by_cases hpong : msg.hasType "pong" = true
  · rw [if_pos hpong, and_iff_left hrepeats]
    exact keeps_processPong_iff clock hlookup hconnected (Bool.eq_false_of_not_eq_true hping) hpong
  rw [if_neg hpong]
  have htold : b ∉ told s.nodeId msg := by
    unfold told gossipOf
    rw [if_neg hping, if_neg hpong]
    exact List.not_mem_nil
  refine iff_of_true ?_ ⟨htold, hrepeats⟩
  split_ifs
  · exact hkept
  · unfold Keeps
    rw [peers_processTaskResponse]
    exact hkept
  · exact hkept

/-! ## Live connections -/

/-- Every peer but the one that the message comes from keeps the connection that it has. -/
def ConnectionsKept (peerNodeId : String) (s s' : P2PSwarmRouter D K Ws Key) : Prop :=
  ∀ b peer, Hashing.key (PyValue.str (D := D) (toPyStr peerNodeId)) ≠ some b →
    s.peers.lookup b = some peer → peer.status = .connected → Keeps b peer s'

/-- The message does not tell about another connected peer, and it is no ping in the name of one
with other data. -/
def LeavesOthers (peerNodeId : String) (s : P2PSwarmRouter D K Ws Key) (msg : Message D) (ws : Ws)
    (sharedKey : Key) : Prop :=
  ∀ b peer, Hashing.key (PyValue.str (D := D) (toPyStr peerNodeId)) ≠ some b →
    s.peers.lookup b = some peer → peer.status = .connected →
      b ∉ told s.nodeId msg ∧ Repeats msg ws sharedKey b peer

theorem connectionsKept_iff (s : P2PSwarmRouter D K Ws Key) (msg : Message D) (ws : Ws)
    (sharedKey : Key) (peerNodeId : String) :
    ConnectionsKept peerNodeId s (s.processWsMessage clock msg ws sharedKey peerNodeId).router ↔
      LeavesOthers peerNodeId s msg ws sharedKey := by
  refine forall_congr' fun b => forall_congr' fun peer => forall_congr' fun _ => ?_
  exact forall_congr' fun hlookup => forall_congr' fun hconnected =>
    keeps_processWsMessage_iff clock hlookup hconnected peerNodeId

end P2PSwarmRouter

/-! ## A peer that is told about -/

/-- The keys of an interpreter without floats. -/
inductive ValueKey
  | none
  | int (n : ℤ)
  | infinity (negative : Bool)
  | nan
  | str (s : PyStr)
  deriving DecidableEq

instance : Hashing Empty ValueKey where
  key
    | .none => some .none
    | .bool b => some (.int b.toInt)
    | .int n => some (.int n)
    | .float (.infinity negative) => some (.infinity negative)
    | .float .nan => some .nan
    | .str s => some (.str s)
    | .list _ => Option.none
    | .dict _ => Option.none

def idKey (name : String) : ValueKey := .str (toPyStr name)

def text (s : String) : PyValue Empty := .str (toPyStr s)

def connectedPeer (name role : String) (port : ℤ) (ws : ℕ) : PeerInfo Empty ℕ ℕ where
  nodeId := text name
  role := text role
  host := text "127.0.0.1"
  port := .int port
  status := .connected
  lastSeen := 0
  ws := some ws
  key := some ws

/-- A node that is connected to two others. -/
def meshNode : P2PSwarmRouter Empty ValueKey ℕ ℕ where
  nodeId := "node-A"
  role := "ceo"
  host := "127.0.0.1"
  port := 8000
  peers := [(idKey "node-B", connectedPeer "node-B" "dev" 8001 1),
    (idKey "node-C", connectedPeer "node-C" "qa" 8002 2)]

/-- The ping that node B sends with its `get_known_peers_list`. -/
def meshPing : Message Empty :=
  [(toPyStr "type", text "ping"), (toPyStr "sender_id", text "node-B"),
   (toPyStr "role", text "dev"), (toPyStr "host", text "127.0.0.1"), (toPyStr "port", .int 8001),
   (toPyStr "known_peers", .list
     [.dict [(.str (toPyStr "node_id"), text "node-C"), (.str (toPyStr "role"), text "qa"),
       (.str (toPyStr "host"), text "127.0.0.1"), (.str (toPyStr "port"), .int 8002)]])]

/-- The connection to node C is live, and the ping of node B sets it to disconnected. -/
theorem told_peer_disconnected :
    ¬P2PSwarmRouter.ConnectionsKept "node-B" meshNode
      (meshNode.processWsMessage (fun n => n) meshPing 1 1 "node-B").router := by
  intro hkept
  have hdisconnected : ((meshNode.processWsMessage (fun n => n) meshPing 1 1 "node-B").router.peers
      |>.lookup (idKey "node-C")).map PeerInfo.status = some .disconnected := by decide +kernel
  obtain ⟨peer', hlookup, hsame⟩ := hkept (idKey "node-C") (connectedPeer "node-C" "qa" 8002 2)
    (by decide +kernel) rfl rfl
  rw [hlookup] at hdisconnected
  exact absurd (hsame.status.symm.trans (Option.some.inj hdisconnected)) (by decide)

end AgentSystem.P2P
