import AgentSystem.PolicyGate

/-!
# The peer router

The table of peers of `P2PSwarmRouter` and the messages that it processes. Message values are JSON
values. Which values are one key of a dictionary is a parameter.
-/
namespace AgentSystem.P2P

open Json PySequence

/-- A value as a key of a dictionary: equal values have one key, lists and dictionaries none. -/
class Hashing (D : Type) (K : outParam Type) where
  key : PyValue D → Option K

inductive PeerStatus
  | connected
  | disconnected
  deriving DecidableEq

structure PeerInfo (D Ws Key : Type) where
  nodeId : PyValue D
  role : PyValue D
  host : PyValue D
  port : PyValue D
  status : PeerStatus
  latency : ℚ := 0
  lastSeen : ℚ
  pingStartTime : Option ℚ := none
  ws : Option Ws
  key : Option Key

/-- `peers` and `pending_requests` with their keys, the latter with whether the future is done.
`readings` counts the readings of the clock. -/
structure P2PSwarmRouter (D K Ws Key : Type) where
  nodeId : String
  role : String
  host : String
  port : ℤ
  peers : List (K × PeerInfo D Ws Key) := []
  pendingRequests : List (K × Bool) := []
  readings : ℕ := 0

/-- A message: the members of a JSON object. -/
abbrev Message (D : Type) : Type := List (PyStr × PyValue D)

inductive Fault
  | keyError (name : String)
  | typeError
  | attributeError
  deriving DecidableEq

variable {D K Ws Key : Type}

namespace Message

variable (msg : Message D)

/-- `msg.get(name, default)`. -/
def get (name : String) (default : PyValue D) : PyValue D :=
  (getItem msg (toPyStr name)).getD default

/-- `msg[name]`. -/
def require (name : String) : Except Fault (PyValue D) :=
  match getItem msg (toPyStr name) with
  | some value => .ok value
  | none => .error (.keyError name)

/-- `msg.get("type") == name`. -/
def hasType (name : String) : Bool :=
  match msg.get "type" .none with
  | .str s => s = toPyStr name
  | _ => false

end Message

/-- The value as a dictionary with names. -/
def members : PyValue D → Option (Message D)
  | .dict items => some (items.filterMap fun item =>
      match item.1 with
      | .str name => some (name, item.2)
      | _ => none)
  | _ => none

def keyValue : PyKey D → PyValue D
  | .none => .none
  | .bool b => .bool b
  | .int n => .int n
  | .float x => .float x
  | .str s => .str s

/-- What a `for` loop over the value visits. -/
def elements : PyValue D → Except Fault (List (PyValue D))
  | .list items => .ok items
  | .str s => .ok (s.map fun c => .str [c])
  | .dict items => .ok (items.map fun item => keyValue item.1)
  | _ => .error .typeError

structure PingMessage (D : Type) where
  senderId : PyValue D
  role : PyValue D
  host : PyValue D
  port : PyValue D
  knownPeers : PyValue D

def readPing (msg : Message D) : Except Fault (PingMessage D) := do
  let senderId ← msg.require "sender_id"
  let role ← msg.require "role"
  let host ← msg.require "host"
  let port ← msg.require "port"
  pure ⟨senderId, role, host, port, msg.get "known_peers" (.list [])⟩

/-- A peer that a message tells about. -/
structure Gossip (D K : Type) where
  key : K
  nodeId : PyValue D
  role : PyValue D
  host : PyValue D
  port : PyValue D

/-- The pong that answers a ping. -/
structure PongMessage (D : Type) where
  senderId : String
  role : String
  host : String
  port : ℤ
  knownPeers : List (PyValue D × PyValue D × PyValue D × PyValue D)

/-- What follows a message: an answer, a task that is run, or a result for a caller that waits. -/
inductive Outcome (D : Type)
  | nothing
  | pong (reply : PongMessage D)
  | runTask (taskId role taskInstructions inputParameters securityRestrictions mockDirectives
      validationAssertions : PyValue D)
  | result (msg : Message D)

/-- A step of the router, and what it raises. -/
structure Step (D K Ws Key α : Type) where
  router : P2PSwarmRouter D K Ws Key
  result : Except Fault α

/-- A step with the outcome of the message after it, unless it raises. -/
def Step.andThen (step : Step D K Ws Key Unit) (outcome : P2PSwarmRouter D K Ws Key → Outcome D) :
    Step D K Ws Key (Outcome D) where
  router := step.router
  result := step.result.map fun _ => outcome step.router

namespace P2PSwarmRouter

section Peers

variable [DecidableEq K] (clock : ℕ → ℚ) (s : P2PSwarmRouter D K Ws Key)

/-- `add_peer`; the id is given with its key. -/
def addPeer (gossip : Gossip D K) (status : PeerStatus) (ws : Option Ws) (sharedKey : Option Key) :
    P2PSwarmRouter D K Ws Key :=
  let peer := match s.peers.lookup gossip.key with
    | none =>
        { nodeId := gossip.nodeId
          role := gossip.role
          host := gossip.host
          port := gossip.port
          status := status
          lastSeen := clock s.readings
          ws := ws
          key := sharedKey }
    | some peer =>
        { peer with
          role := gossip.role
          host := gossip.host
          port := gossip.port
          status := status
          lastSeen := clock s.readings
          ws := ws.or peer.ws
          key := sharedKey.or peer.key }
  { s with peers := setItem s.peers gossip.key peer, readings := s.readings + 1 }

/-- The pong with `get_known_peers_list`. -/
def pong : PongMessage D where
  senderId := s.nodeId
  role := s.role
  host := s.host
  port := s.port
  knownPeers := s.peers.map fun item => (item.2.nodeId, item.2.role, item.2.host, item.2.port)

/-- The entry of a peer after a pong of it. -/
def seen (peer : PeerInfo D Ws Key) : PeerInfo D Ws Key :=
  { peer with
    status := .connected
    lastSeen := clock s.readings
    latency := (peer.pingStartTime.map fun start =>
      (clock (s.readings + 1) - start) * 1000).getD peer.latency }

/-- A pong of a peer. -/
def notePong (sender : K) : P2PSwarmRouter D K Ws Key :=
  match s.peers.lookup sender with
  | none => s
  | some peer =>
      { s with
        peers := setItem s.peers sender (s.seen clock peer)
        readings := s.readings + if peer.pingStartTime.isSome then 2 else 1 }

end Peers

section Messages

variable [DecidableEq K] [Doubles D] [Hashing D K] (clock : ℕ → ℚ)

/-- What an entry of `known_peers` tells, if it has an id that is not the own one. -/
def readEntry (nodeId : String) (entry : PyValue D) : Except Fault (Option (Gossip D K)) :=
  match members entry with
  | none => .error .attributeError
  | some items =>
      let pId := items.get "node_id" .none
      if PolicyGate.truthy pId then
        match Hashing.key pId with
        | none => .error .typeError
        | some key =>
            if Hashing.key (PyValue.str (D := D) (toPyStr nodeId)) = some key then .ok none
            else
              .ok (some ⟨key, pId, items.get "role" .none, items.get "host" .none,
                items.get "port" .none⟩)
      else .ok none

/-- The loop over `known_peers`, up to the first entry that raises. -/
def learnEntries : P2PSwarmRouter D K Ws Key → List (PyValue D) →
    Step D K Ws Key Unit
  | s, [] => ⟨s, .ok ()⟩
  | s, entry :: entries =>
      match readEntry s.nodeId entry with
      | .error fault => ⟨s, .error fault⟩
      | .ok none => learnEntries s entries
      | .ok (some gossip) => learnEntries (s.addPeer clock gossip .disconnected none none) entries

def learnPeers (s : P2PSwarmRouter D K Ws Key) (knownPeers : PyValue D) :
    Step D K Ws Key Unit :=
  match elements knownPeers with
  | .error fault => ⟨s, .error fault⟩
  | .ok entries => s.learnEntries clock entries

variable (s : P2PSwarmRouter D K Ws Key) (msg : Message D) (ws : Ws) (sharedKey : Key)

def processPing : Step D K Ws Key (Outcome D) :=
  match readPing msg with
  | .error fault => ⟨s, .error fault⟩
  | .ok ping =>
      match Hashing.key ping.senderId with
      | none => ⟨s, .error .typeError⟩
      | some sender =>
          let added := s.addPeer clock ⟨sender, ping.senderId, ping.role, ping.host, ping.port⟩
            .connected (some ws) (some sharedKey)
          (added.learnPeers clock ping.knownPeers).andThen fun s => .pong s.pong

def processPong : Step D K Ws Key (Outcome D) :=
  match msg.require "sender_id" with
  | .error fault => ⟨s, .error fault⟩
  | .ok senderId =>
      match Hashing.key senderId with
      | none => ⟨s, .error .typeError⟩
      | some sender =>
          ((s.notePong clock sender).learnPeers clock (msg.get "known_peers" (.list []))).andThen
            fun _ => .nothing

def readTaskRequest : Except Fault (Outcome D) := do
  let taskId ← msg.require "task_id"
  let role ← msg.require "role"
  let taskInstructions ← msg.require "task_instructions"
  pure (.runTask taskId role taskInstructions (msg.get "input_parameters" (.dict []))
    (msg.get "security_restrictions" (.dict [])) (msg.get "mock_directives" (.dict []))
    (msg.get "validation_assertions" (.list [])))

def processTaskResponse : Step D K Ws Key (Outcome D) :=
  match msg.require "task_id" with
  | .error fault => ⟨s, .error fault⟩
  | .ok taskId =>
      match Hashing.key taskId with
      | none => ⟨s, .error .typeError⟩
      | some task =>
          match s.pendingRequests.lookup task with
          | none => ⟨s, .ok .nothing⟩
          | some done =>
              let popped := { s with
                pendingRequests := s.pendingRequests.filter fun item => item.1 ≠ task }
              ⟨popped, .ok (if done then .nothing else .result msg)⟩

/-- `_process_ws_message` up to the sending of what it answers. It does not read the id of the peer
that the connection belongs to. -/
def processWsMessage (_peerNodeId : String) :
    Step D K Ws Key (Outcome D) :=
  if msg.hasType "ping" then s.processPing clock msg ws sharedKey
  else if msg.hasType "pong" then s.processPong clock msg
  else if msg.hasType "task_request" then ⟨s, readTaskRequest msg⟩
  else if msg.hasType "task_response" then s.processTaskResponse msg
  else ⟨s, .ok .nothing⟩

end Messages

end P2PSwarmRouter

end AgentSystem.P2P
