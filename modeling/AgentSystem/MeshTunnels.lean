import AgentSystem.PySequence

/-!
# Mesh tunnels

`MeshNATBridge` gives every endpoint that is registered an address and keeps the tunnels between
them. A handshake looks its endpoints up, waits, and then puts its tunnel into the table, whatever
has happened to them meanwhile. `soundRun_iff` says in which runs every tunnel of the table joins
endpoints that are registered with its addresses.

Keys of the endpoints, latencies and the ids of tunnels are left out; the clock counts milliseconds.
-/
namespace AgentSystem.MeshTunnels

open PySequence

inductive NATType
  | fullCone
  | restrictedCone
  | symmetric
  deriving DecidableEq

inductive TunnelStatus
  | connecting
  | established
  | relaying
  | failed
  | closed
  deriving DecidableEq

structure NATEndpoint where
  nodeId : String
  organizationId : String
  publicIp : String
  publicPort : ℕ
  natType : NATType := .fullCone
  virtualIp : String

structure TunnelSession where
  localNodeId : String
  remoteNodeId : String
  localVip : String
  remoteVip : String
  status : TunnelStatus := .connecting
  isRelayed : Bool := false
  relayServer : Option String := none
  bytesSent : ℤ := 0
  bytesReceived : ℤ := 0

/-- A call of `establish_tunnel` that waits, with the endpoints that it has looked up. -/
structure Handshake where
  source : String
  target : String
  srcEp : NATEndpoint
  dstEp : NATEndpoint
  startTime : ℚ

structure MeshNATBridge where
  registeredEndpoints : String → Option NATEndpoint := fun _ => none
  activeSessions : List (String × TunnelSession) := []
  nextVipIndex : ℕ := 2
  handshakes : List Handshake := []

/-- The arguments of the bridge; no servers mean the default ones. -/
structure Config where
  derpRelayServers : List String := []
  handshakeTimeoutMs : ℚ := 500

def Config.relayServer (config : Config) : String :=
  config.derpRelayServers.headD "derp-global-east.las.internal"

/-- The address of an endpoint. -/
def vip (n : ℕ) : String := "10.244.0." ++ toString n

def sessionKey (source target : String) : String := source ++ "<->" ++ target

def TunnelSession.joins (session : TunnelSession) (nodeId : String) : Bool :=
  session.localNodeId = nodeId ∨ session.remoteNodeId = nodeId

def TunnelSession.open (session : TunnelSession) : Bool :=
  session.status = .established ∨ session.status = .relaying

def Handshake.joins (h : Handshake) (nodeId : String) : Bool := h.source = nodeId ∨ h.target = nodeId

def Handshake.needsRelay (h : Handshake) : Bool :=
  h.srcEp.natType = .symmetric ∨ h.dstEp.natType = .symmetric

def Handshake.session (h : Handshake) (config : Config) : TunnelSession where
  localNodeId := h.source
  remoteNodeId := h.target
  localVip := h.srcEp.virtualIp
  remoteVip := h.dstEp.virtualIp
  status := if h.needsRelay then .relaying else .established
  isRelayed := h.needsRelay
  relayServer := if h.needsRelay then some config.relayServer else none

/-- What a handshake returns that took too long. -/
def Handshake.failedSession (h : Handshake) : TunnelSession where
  localNodeId := h.source
  remoteNodeId := h.target
  localVip := h.srcEp.virtualIp
  remoteVip := h.dstEp.virtualIp
  status := .failed

namespace MeshNATBridge

variable (bridge : MeshNATBridge) (config : Config)

def registerEndpoint (nodeId organizationId publicIp : String) (publicPort : ℕ)
    (natType : NATType) : MeshNATBridge :=
  { bridge with
    registeredEndpoints := Function.update bridge.registeredEndpoints nodeId
      (some ⟨nodeId, organizationId, publicIp, publicPort, natType, vip bridge.nextVipIndex⟩)
    nextVipIndex := bridge.nextVipIndex + 1 }

def unregisterEndpoint (nodeId : String) : MeshNATBridge :=
  { bridge with
    registeredEndpoints := Function.update bridge.registeredEndpoints nodeId none
    activeSessions := bridge.activeSessions.filter fun item => !item.2.joins nodeId }

/-- `establish_tunnel` up to its wait, `none` for a `KeyError`. -/
def beginHandshake (source target : String) (now : ℚ) : Option MeshNATBridge :=
  match bridge.registeredEndpoints source, bridge.registeredEndpoints target with
  | some srcEp, some dstEp =>
      some { bridge with handshakes := bridge.handshakes ++ [⟨source, target, srcEp, dstEp, now⟩] }
  | _, _ => none

/-- `establish_tunnel` from its wait on. -/
def endHandshake (n : ℕ) (h : Handshake) (now : ℚ) : MeshNATBridge × TunnelSession :=
  let bridge := { bridge with handshakes := bridge.handshakes.eraseIdx n }
  if config.handshakeTimeoutMs < now - h.startTime then (bridge, h.failedSession)
  else
    ({ bridge with
      activeSessions :=
        setItem bridge.activeSessions (sessionKey h.source h.target) (h.session config) },
      h.session config)

/-- `transmit_packet`. -/
def transmitPacket (key : String) (payloadSizeBytes : ℤ) : MeshNATBridge × Bool :=
  match getItem bridge.activeSessions key with
  | some session =>
      if session.open then
        ({ bridge with
          activeSessions := setItem bridge.activeSessions key
            { session with
              bytesSent := session.bytesSent + payloadSizeBytes
              bytesReceived := session.bytesReceived + payloadSizeBytes } }, true)
      else (bridge, false)
  | none => (bridge, false)

end MeshNATBridge

inductive Action
  | register (nodeId organizationId publicIp : String) (publicPort : ℕ) (natType : NATType)
  | unregister (nodeId : String)
  | beginHandshake (source target : String) (now : ℚ)
  | endHandshake (n : ℕ) (now : ℚ)
  | transmit (key : String) (payloadSizeBytes : ℤ)

/-- One turn of the event loop, `none` when it is not possible. -/
def MeshNATBridge.step (config : Config) (bridge : MeshNATBridge) : Action → Option MeshNATBridge
  | .register nodeId organizationId publicIp publicPort natType =>
      some (bridge.registerEndpoint nodeId organizationId publicIp publicPort natType)
  | .unregister nodeId => some (bridge.unregisterEndpoint nodeId)
  | .beginHandshake source target now => bridge.beginHandshake source target now
  | .endHandshake n now =>
      (bridge.handshakes[n]?).map fun h => (bridge.endHandshake config n h now).1
  | .transmit key payloadSizeBytes => some (bridge.transmitPacket key payloadSizeBytes).1

/-! ## Tunnels between registered endpoints -/

/-- The node is registered with the address. -/
def MeshNATBridge.At (bridge : MeshNATBridge) (nodeId virtualIp : String) : Prop :=
  ∃ ep, bridge.registeredEndpoints nodeId = some ep ∧ ep.virtualIp = virtualIp

/-- The tunnels, and those that handshakes will put into the table, join endpoints that are
registered with their addresses. -/
structure Sound (bridge : MeshNATBridge) : Prop where
  sessions : ∀ item ∈ bridge.activeSessions,
    bridge.At item.2.localNodeId item.2.localVip ∧ bridge.At item.2.remoteNodeId item.2.remoteVip
  handshakes : ∀ h ∈ bridge.handshakes,
    bridge.At h.source h.srcEp.virtualIp ∧ bridge.At h.target h.dstEp.virtualIp

/-- Nothing is registered again that a tunnel or a handshake joins, and nothing unregistered that a
handshake joins. -/
def Careful (bridge : MeshNATBridge) : Action → Prop
  | .register nodeId _ _ _ _ =>
      (∀ item ∈ bridge.activeSessions, item.2.joins nodeId = false) ∧
        ∀ h ∈ bridge.handshakes, h.joins nodeId = false
  | .unregister nodeId => ∀ h ∈ bridge.handshakes, h.joins nodeId = false
  | _ => True

/-- Every bridge of the run is sound. -/
def SoundRun (config : Config) (bridge : MeshNATBridge) : List Action → Prop
  | [] => Sound bridge
  | action :: actions =>
      Sound bridge ∧ ∀ bridge', bridge.step config action = some bridge' →
        SoundRun config bridge' actions

def CarefulRun (config : Config) (bridge : MeshNATBridge) : List Action → Prop
  | [] => True
  | action :: actions =>
      Careful bridge action ∧ ∀ bridge', bridge.step config action = some bridge' →
        CarefulRun config bridge' actions

/-- Addresses come from the counter. -/
def Counted (bridge : MeshNATBridge) : Prop :=
  ∀ nodeId ep, bridge.registeredEndpoints nodeId = some ep →
    ∃ n < bridge.nextVipIndex, ep.virtualIp = vip n

lemma vip_injective : Function.Injective vip := fun _ _ h =>
  Nat.repr_injective ((String.append_right_inj _).mp h)

variable {config : Config} {bridge bridge' : MeshNATBridge} {nodeId virtualIp : String}

lemma MeshNATBridge.At.functional (h : bridge.At nodeId virtualIp) {other : String}
    (h' : bridge.At nodeId other) : virtualIp = other := by
  obtain ⟨ep, hep, rfl⟩ := h
  obtain ⟨ep', hep', rfl⟩ := h'
  rw [hep, Option.some.injEq] at hep'
  rw [hep']

lemma Counted.step (h : Counted bridge) {action : Action}
    (hstep : bridge.step config action = some bridge') : Counted bridge' := by
  cases action with
  | register nodeId organizationId publicIp publicPort natType =>
    rw [← Option.some.inj hstep]
    intro other ep hep
    by_cases hother : other = nodeId
    · subst hother
      simp only [MeshNATBridge.registerEndpoint, Function.update_self, Option.some.injEq] at hep
      exact ⟨bridge.nextVipIndex, Nat.lt_succ_self _, by rw [← hep]⟩
    · obtain ⟨n, hn, hvip⟩ := h other ep ((Function.update_of_ne hother _ _).symm.trans hep)
      exact ⟨n, hn.trans (Nat.lt_succ_self _), hvip⟩
  | unregister nodeId =>
    rw [← Option.some.inj hstep]
    intro other ep hep
    by_cases hother : other = nodeId
    · subst hother
      cases (Function.update_self ..).symm.trans hep
    · exact h other ep ((Function.update_of_ne hother _ _).symm.trans hep)
  | beginHandshake source target now =>
    simp only [MeshNATBridge.step, MeshNATBridge.beginHandshake] at hstep
    split at hstep
    · rw [← Option.some.inj hstep]
      exact h
    · cases hstep
  | endHandshake n now =>
    obtain ⟨pending, -, rfl⟩ := Option.map_eq_some_iff.mp hstep
    unfold MeshNATBridge.endHandshake
    split <;> exact h
  | transmit key payloadSizeBytes =>
    rw [← Option.some.inj hstep]
    unfold MeshNATBridge.transmitPacket
    split
    · split <;> exact h
    · exact h

/-- A registration gives a new address. -/
lemma sound_register_iff (hcounted : Counted bridge) (h : Sound bridge)
    (organizationId publicIp : String) (publicPort : ℕ) (natType : NATType) :
    Sound (bridge.registerEndpoint nodeId organizationId publicIp publicPort natType) ↔
      Careful bridge (.register nodeId organizationId publicIp publicPort natType) := by
  set bridge' := bridge.registerEndpoint nodeId organizationId publicIp publicPort natType
  have hother : ∀ {other virtualIp}, other ≠ nodeId →
      bridge.At other virtualIp → bridge'.At other virtualIp := by
    intro other virtualIp hne hat
    obtain ⟨ep, hep, hvip⟩ := hat
    exact ⟨ep, (Function.update_of_ne hne _ _).trans hep, hvip⟩
  have hsame : ∀ {virtualIp}, bridge.At nodeId virtualIp → ¬ bridge'.At nodeId virtualIp := by
    intro virtualIp hat hat'
    obtain ⟨ep, hep, rfl⟩ := hat
    obtain ⟨n, hn, hvip⟩ := hcounted nodeId ep hep
    have hnew : bridge'.At nodeId (vip bridge.nextVipIndex) := ⟨_, Function.update_self .., rfl⟩
    have heq := hat'.functional hnew
    rw [hvip] at heq
    exact hn.ne (vip_injective heq)
  constructor
  · intro h'
    constructor
    · intro item hitem
      obtain ⟨hlocal, hremote⟩ := h.sessions item hitem
      obtain ⟨hlocal', hremote'⟩ := h'.sessions item hitem
      simp only [TunnelSession.joins, decide_eq_false_iff_not, not_or]
      exact ⟨fun heq => hsame (heq ▸ hlocal) (heq ▸ hlocal'),
        fun heq => hsame (heq ▸ hremote) (heq ▸ hremote')⟩
    · intro pending hpending
      obtain ⟨hsource, htarget⟩ := h.handshakes pending hpending
      obtain ⟨hsource', htarget'⟩ := h'.handshakes pending hpending
      simp only [Handshake.joins, decide_eq_false_iff_not, not_or]
      exact ⟨fun heq => hsame (heq ▸ hsource) (heq ▸ hsource'),
        fun heq => hsame (heq ▸ htarget) (heq ▸ htarget')⟩
  · intro hcareful
    constructor
    · intro item hitem
      have hjoins := hcareful.1 item hitem
      simp only [TunnelSession.joins, decide_eq_false_iff_not, not_or] at hjoins
      obtain ⟨hlocal, hremote⟩ := h.sessions item hitem
      exact ⟨hother hjoins.1 hlocal, hother hjoins.2 hremote⟩
    · intro pending hpending
      have hjoins := hcareful.2 pending hpending
      simp only [Handshake.joins, decide_eq_false_iff_not, not_or] at hjoins
      obtain ⟨hsource, htarget⟩ := h.handshakes pending hpending
      exact ⟨hother hjoins.1 hsource, hother hjoins.2 htarget⟩

/-- What is unregistered has no address, and its tunnels go with it. -/
lemma sound_unregister_iff (h : Sound bridge) :
    Sound (bridge.unregisterEndpoint nodeId) ↔ Careful bridge (.unregister nodeId) := by
  have hother : ∀ {other virtualIp}, other ≠ nodeId →
      bridge.At other virtualIp → (bridge.unregisterEndpoint nodeId).At other virtualIp := by
    intro other virtualIp hne hat
    obtain ⟨ep, hep, hvip⟩ := hat
    exact ⟨ep, (Function.update_of_ne hne _ _).trans hep, hvip⟩
  have hgone : ∀ {virtualIp}, ¬ (bridge.unregisterEndpoint nodeId).At nodeId virtualIp := by
    intro virtualIp hat
    obtain ⟨ep, hep, -⟩ := hat
    cases (Function.update_self ..).symm.trans hep
  constructor
  · intro h' pending hpending
    obtain ⟨hsource', htarget'⟩ := h'.handshakes pending hpending
    simp only [Handshake.joins, decide_eq_false_iff_not, not_or]
    exact ⟨fun heq => hgone (heq ▸ hsource'), fun heq => hgone (heq ▸ htarget')⟩
  · intro hcareful
    constructor
    · intro item hitem
      obtain ⟨hitem, hjoins⟩ := List.mem_filter.mp hitem
      simp only [TunnelSession.joins, Bool.not_eq_true', decide_eq_false_iff_not, not_or] at hjoins
      obtain ⟨hlocal, hremote⟩ := h.sessions item hitem
      exact ⟨hother hjoins.1 hlocal, hother hjoins.2 hremote⟩
    · intro pending hpending
      have hjoins := hcareful pending hpending
      simp only [Handshake.joins, decide_eq_false_iff_not, not_or] at hjoins
      obtain ⟨hsource, htarget⟩ := h.handshakes pending hpending
      exact ⟨hother hjoins.1 hsource, hother hjoins.2 htarget⟩

lemma Sound.beginHandshake (h : Sound bridge) {source target : String} {now : ℚ}
    (hstep : bridge.beginHandshake source target now = some bridge') : Sound bridge' := by
  unfold MeshNATBridge.beginHandshake at hstep
  split at hstep
  · rename_i srcEp dstEp hsrc hdst
    rw [← Option.some.inj hstep]
    refine ⟨h.sessions, fun pending hpending => ?_⟩
    rcases List.mem_append.mp hpending with hpending | hpending
    · exact h.handshakes pending hpending
    · rw [List.mem_singleton.mp hpending]
      exact ⟨⟨srcEp, hsrc, rfl⟩, ⟨dstEp, hdst, rfl⟩⟩
  · cases hstep

lemma Sound.endHandshake (h : Sound bridge) {n : ℕ} {pending : Handshake}
    (hpending : bridge.handshakes[n]? = some pending) (now : ℚ) :
    Sound (bridge.endHandshake config n pending now).1 := by
  have hrest : ∀ other ∈ bridge.handshakes.eraseIdx n, other ∈ bridge.handshakes :=
    fun other hother => List.mem_of_mem_eraseIdx hother
  unfold MeshNATBridge.endHandshake
  split
  · exact ⟨h.sessions, fun other hother => h.handshakes other (hrest other hother)⟩
  · refine ⟨fun item hitem => ?_, fun other hother => h.handshakes other (hrest other hother)⟩
    rcases mem_of_mem_setItem hitem with rfl | hitem
    · exact h.handshakes pending (List.mem_of_getElem? hpending)
    · exact h.sessions item hitem

lemma Sound.transmitPacket (h : Sound bridge) (key : String) (payloadSizeBytes : ℤ) :
    Sound (bridge.transmitPacket key payloadSizeBytes).1 := by
  unfold MeshNATBridge.transmitPacket
  split
  · rename_i session hsession
    split
    · refine ⟨fun item hitem => ?_, h.handshakes⟩
      rcases mem_of_mem_setItem hitem with rfl | hitem
      · exact h.sessions (key, session) (getItem_mem hsession)
      · exact h.sessions item hitem
    · exact h
  · exact h

lemma sound_step_iff (hcounted : Counted bridge) (h : Sound bridge) {action : Action}
    (hstep : bridge.step config action = some bridge') :
    Sound bridge' ↔ Careful bridge action := by
  cases action with
  | register nodeId organizationId publicIp publicPort natType =>
    rw [← Option.some.inj hstep]
    exact sound_register_iff hcounted h ..
  | unregister nodeId =>
    rw [← Option.some.inj hstep]
    exact sound_unregister_iff h
  | beginHandshake source target now => exact iff_of_true (h.beginHandshake hstep) trivial
  | endHandshake n now =>
    obtain ⟨pending, hpending, rfl⟩ := Option.map_eq_some_iff.mp hstep
    exact iff_of_true (h.endHandshake hpending now) trivial
  | transmit key payloadSizeBytes =>
    rw [← Option.some.inj hstep]
    exact iff_of_true (h.transmitPacket key payloadSizeBytes) trivial

/-- What cannot happen is careful. -/
lemma careful_of_step_none {action : Action} (hstep : bridge.step config action = none) :
    Careful bridge action := by
  cases action with
  | register | unregister | transmit => cases hstep
  | beginHandshake | endHandshake => trivial

lemma SoundRun.sound {actions : List Action} (h : SoundRun config bridge actions) :
    Sound bridge := by
  cases actions with
  | nil => exact h
  | cons action actions => exact h.1

lemma soundRun_iff_of_sound {actions : List Action} (hcounted : Counted bridge) (h : Sound bridge) :
    SoundRun config bridge actions ↔ CarefulRun config bridge actions := by
  induction actions generalizing bridge with
  | nil => exact iff_of_true h trivial
  | cons action actions ih =>
    rw [SoundRun, CarefulRun]
    cases hstep : bridge.step config action with
    | none => simp [h, careful_of_step_none hstep]
    | some bridge' =>
      have hiff := sound_step_iff hcounted h hstep
      constructor
      · rintro ⟨-, hrun⟩
        have hsound := hrun bridge' rfl
        refine ⟨hiff.mp hsound.sound, fun other hother => ?_⟩
        rw [← Option.some.inj hother]
        exact (ih (hcounted.step hstep) hsound.sound).mp hsound
      · rintro ⟨hcareful, hrun⟩
        refine ⟨h, fun other hother => ?_⟩
        rw [← Option.some.inj hother]
        exact (ih (hcounted.step hstep) (hiff.mpr hcareful)).mpr (hrun bridge' rfl)

/-- In just those runs from the start that are careful at every step is the bridge sound all the
time. -/
theorem soundRun_iff (config : Config) (actions : List Action) :
    SoundRun config {} actions ↔ CarefulRun config {} actions := by
  refine soundRun_iff_of_sound (fun nodeId ep hep => ?_) ⟨fun item hitem => ?_, fun h hh => ?_⟩
  · cases hep
  · cases hitem
  · cases hh

end AgentSystem.MeshTunnels
