import AgentSystem.JoinedFields

/-!
# The handshake of the peer tunnel

A node connects to `/v1/swarm/p2p/tunnel` and proves its role by a signature over both public keys of
the connection. The network can deliver every message to anybody, as often as it likes and with
other fields, and it can make up what it wants but the signatures of roles whose secret it does not
have. Public keys are the texts of key pairs that are made for one connection only.
-/
namespace AgentSystem.PeerHandshake

open JoinedFields

abbrev Text := List Char

/-- What the handshake uses: SHA-256 as a hexadecimal text, the roles with their names in lower case
and their secrets, and public keys as PEM texts. -/
structure Crypto (R : Type) where
  hexdigest : Text → Text
  hexdigest_injective : Function.Injective hexdigest
  hexdigest_noSep : ∀ t, ':' ∉ hexdigest t
  /-- The role of a text that `lower` makes the name of one. -/
  member : Text → Option R
  name : R → Text
  name_injective : Function.Injective name
  name_noSep : ∀ r, ':' ∉ name r
  secret : R → Text
  pem : ℕ → Text
  pem_injective : Function.Injective pem
  pem_noSep : ∀ k, ':' ∉ pem k
  /-- `load_public_key` does not raise. -/
  loads : Text → Bool

/-! ## The two ends -/

/-- A node that has got a `server_hello` with this key and has answered it. -/
structure ClientRun where
  key : ℕ
  role : Text
  serverPub : Text

/-- The `verify` message. -/
structure Verify where
  role : Text
  nodeId : Text
  host : Text
  port : ℕ
  payloadHash : Text
  signature : Text

inductive Phase
  | hello
  | keyed (clientPub : Text)
  | verified (clientPub : Text) (message : Verify)
  | closed

/-- A session of the endpoint, with the number of its key pair. -/
structure ServerRun where
  key : ℕ
  phase : Phase

inductive Message
  | clientHello (publicKey : Text)
  | verify (message : Verify)
  | other

variable {R : Type} (c : Crypto R)

namespace Crypto

/-- The text whose hash is signed. -/
def handshakeText (clientPub serverPub : Text) : Text := join ':' [clientPub, serverPub]

def signature (r : R) (payloadHash : Text) : Text :=
  c.hexdigest (join ':' [c.name r, payloadHash, c.secret r])

/-- `generate_member_signature`, `none` when the role is unknown. -/
def generateMemberSignature (role payloadHash : Text) : Option Text :=
  (c.member role).map (c.signature · payloadHash)

/-- What a session makes of the next message. -/
def receive (server : ServerRun) (message : Message) : ServerRun :=
  match server.phase, message with
  | .hello, .clientHello publicKey =>
      { server with phase := if c.loads publicKey then .keyed publicKey else .closed }
  | .keyed clientPub, .verify m =>
      { server with
        phase :=
          if m.payloadHash ≠ c.hexdigest (handshakeText clientPub (c.pem server.key)) then .closed
          else if c.generateMemberSignature m.role m.payloadHash ≠ some m.signature then .closed
          else .verified clientPub m }
  | .verified clientPub m, _ => { server with phase := .verified clientPub m }
  | _, _ => { server with phase := .closed }

end Crypto

/-! ## The network -/

/-- All ends so far, and what the roles have signed: the texts under the signed hashes. -/
structure Swarm (R : Type) where
  nextKey : ℕ := 0
  clients : List ClientRun := []
  servers : List ServerRun := []
  signed : List (R × Text) := []

/-- A signature that the network can deliver: one that it has seen, or one that no role signs whose
secret it does not have. -/
def Available (compromised : R → Prop) (s : Swarm R) (signature : Text) : Prop :=
  (∃ p ∈ s.signed, signature = c.signature p.1 (c.hexdigest p.2)) ∨
    ∀ r payloadHash, ¬ compromised r → signature ≠ c.signature r payloadHash

/-- What can happen next. The roles also sign hashes of other texts, none of which ends like the
text of a handshake. -/
inductive Step (compromised : R → Prop) : Swarm R → Swarm R → Prop
  | accept {s : Swarm R} :
      Step compromised s
        { s with nextKey := s.nextKey + 1, servers := s.servers ++ [⟨s.nextKey, .hello⟩] }
  | connect {s : Swarm R} {r : R} {role serverPub : Text} (known : c.member role = some r)
      (loads : c.loads serverPub = true) :
      Step compromised s
        { s with
          nextKey := s.nextKey + 1
          clients := s.clients ++ [⟨s.nextKey, role, serverPub⟩]
          signed := s.signed ++ [(r, Crypto.handshakeText (c.pem s.nextKey) serverPub)] }
  | sign {s : Swarm R} {r : R} {text : Text} (foreign : ∀ k, ¬ (':' :: c.pem k) <:+ text) :
      Step compromised s { s with signed := s.signed ++ [(r, text)] }
  | deliver {s : Swarm R} {i : ℕ} {server : ServerRun} {message : Message}
      (session : s.servers[i]? = some server)
      (available : ∀ m, message = .verify m → Available c compromised s m.signature) :
      Step compromised s { s with servers := s.servers.set i (c.receive server message) }

/-- The states from an empty swarm on. -/
abbrev Reachable (compromised : R → Prop) (s : Swarm R) : Prop :=
  Relation.ReflTransGen (Step c compromised) {} s

/-! ## Texts -/

variable {c}

/-- The key behind the last separator is told by the text. -/
lemma handshakeText_inj {a b : Text} {k l : ℕ}
    (h : Crypto.handshakeText a (c.pem k) = Crypto.handshakeText b (c.pem l)) : a = b ∧ k = l := by
  have hreverse := congrArg List.reverse h
  simp only [Crypto.handshakeText, join, List.reverse_append, List.reverse_cons,
    List.append_assoc, List.singleton_append] at hreverse
  have hcount : ∀ n, (c.pem n).reverse.count ':' = 0 := by
    intro n
    simpa [List.count_eq_zero] using c.pem_noSep n
  obtain ⟨hkey, htext⟩ := append_sep_inj hreverse (by rw [hcount, hcount])
  exact ⟨List.reverse_injective htext, c.pem_injective (List.reverse_injective hkey)⟩

/-- A signature tells its role and what was signed. -/
lemma signature_inj {r r' : R} {t t' : Text}
    (h : c.signature r (c.hexdigest t) = c.signature r' (c.hexdigest t')) : r = r' ∧ t = t' := by
  have hjoin := c.hexdigest_injective h
  have hzero : ∀ {u : Text}, ':' ∉ u → u.count ':' = 0 := fun hu => List.count_eq_zero.mpr hu
  obtain ⟨hfields, _⟩ := @join_inj _ _ ':' [c.name r, c.hexdigest t] [c.name r', c.hexdigest t']
    _ _ hjoin (by simp [hzero (c.name_noSep _), hzero (c.hexdigest_noSep _)])
  simp only [List.cons.injEq, and_true] at hfields
  exact ⟨c.name_injective hfields.1, c.hexdigest_injective hfields.2⟩

/-- The text of a handshake ends with a public key. -/
lemma handshakeText_suffix (a : Text) (k : ℕ) :
    (':' :: c.pem k) <:+ Crypto.handshakeText a (c.pem k) :=
  ⟨a, by simp [Crypto.handshakeText, join]⟩

/-! ## What holds of every reachable swarm -/

/-- The keys are fresh, the signatures are of clients or of other texts, and a session that has
verified a role has seen a signature of its own text. -/
structure Sound (c : Crypto R) (compromised : R → Prop) (s : Swarm R) : Prop where
  keys : (s.servers.map ServerRun.key).Nodup
  fresh : ∀ server ∈ s.servers, server.key < s.nextKey
  signers : ∀ p ∈ s.signed, (∃ run ∈ s.clients, c.member run.role = some p.1 ∧
    p.2 = Crypto.handshakeText (c.pem run.key) run.serverPub) ∨ ∀ k, ¬ (':' :: c.pem k) <:+ p.2
  verified : ∀ server ∈ s.servers, ∀ clientPub m r, server.phase = .verified clientPub m →
    c.member m.role = some r → ¬ compromised r →
      (r, Crypto.handshakeText clientPub (c.pem server.key)) ∈ s.signed

variable {compromised : R → Prop} {s s' : Swarm R}

lemma receive_key (server : ServerRun) (message : Message) :
    (c.receive server message).key = server.key := by
  unfold Crypto.receive
  split <;> rfl

/-- A session becomes verified by a message with the right hash and signature. -/
lemma receive_verified {server : ServerRun} {message : Message} {clientPub : Text} {m : Verify}
    (h : (c.receive server message).phase = .verified clientPub m) :
    server.phase = .verified clientPub m ∨ (message = .verify m ∧
      m.payloadHash = c.hexdigest (Crypto.handshakeText clientPub (c.pem server.key)) ∧
      c.generateMemberSignature m.role m.payloadHash = some m.signature) := by
  unfold Crypto.receive at h
  split at h
  · dsimp only at h
    split_ifs at h
  · next clientPub' m' hphase hmessage =>
    dsimp only at h
    split_ifs at h with hhash hsignature
    simp only [Phase.verified.injEq] at h
    obtain ⟨rfl, rfl⟩ := h
    exact Or.inr ⟨rfl, not_not.mp hhash, not_not.mp hsignature⟩
  · next clientPub' m' hphase =>
    dsimp only at h
    rw [← h]
    exact Or.inl hphase
  · simp at h

lemma map_key_set {servers : List ServerRun} {i : ℕ} {server : ServerRun} {message : Message}
    (h : servers[i]? = some server) :
    (servers.set i (c.receive server message)).map ServerRun.key = servers.map ServerRun.key := by
  rw [List.map_set, receive_key]
  apply List.ext_getElem?
  intro j
  by_cases hj : i = j
  · subst hj
    obtain ⟨hi, hget⟩ := List.getElem?_eq_some_iff.mp h
    simp [hi, hget]
  · simp [List.getElem?_set_ne hj]

lemma Sound.step (h : Sound c compromised s) (hstep : Step c compromised s s') :
    Sound c compromised s' := by
  cases hstep with
  | accept =>
    refine ⟨?_, ?_, h.signers, ?_⟩
    · simp only [List.map_append, List.map_singleton]
      refine h.keys.append (List.nodup_singleton _) ?_
      simp only [List.disjoint_singleton, List.mem_map, not_exists, not_and]
      intro server hserver heq
      have := h.fresh server hserver
      omega
    · intro server hserver
      rcases List.mem_append.mp hserver with hserver | hserver
      · have := h.fresh server hserver
        dsimp only
        omega
      · rw [List.mem_singleton.mp hserver]
        simp
    · intro server hserver clientPub m r hphase
      rcases List.mem_append.mp hserver with hserver | hserver
      · exact h.verified server hserver clientPub m r hphase
      · rw [List.mem_singleton.mp hserver] at hphase
        simp at hphase
  | @connect r role serverPub known loads =>
    refine ⟨h.keys, ?_, ?_, ?_⟩
    · intro server hserver
      have := h.fresh server hserver
      dsimp only
      omega
    · intro p hp
      rcases List.mem_append.mp hp with hp | hp
      · rcases h.signers p hp with ⟨run, hrun, hboth⟩ | hforeign
        · exact Or.inl ⟨run, by simp [hrun], hboth⟩
        · exact Or.inr hforeign
      · rw [List.mem_singleton.mp hp]
        exact Or.inl ⟨⟨s.nextKey, role, serverPub⟩, by simp, known, rfl⟩
    · intro server hserver clientPub m r hphase hmember hsafe
      have := h.verified server hserver clientPub m r hphase hmember hsafe
      simp [this]
  | sign foreign =>
    refine ⟨h.keys, h.fresh, ?_, ?_⟩
    · intro p hp
      rcases List.mem_append.mp hp with hp | hp
      · exact h.signers p hp
      · rw [List.mem_singleton.mp hp]
        exact Or.inr foreign
    · intro server hserver clientPub m r hphase hmember hsafe
      have := h.verified server hserver clientPub m r hphase hmember hsafe
      simp [this]
  | @deliver i server message session available =>
    have hmem := List.mem_of_getElem? session
    refine ⟨?_, ?_, h.signers, ?_⟩
    · rw [map_key_set session]
      exact h.keys
    · intro other hother
      rcases List.mem_or_eq_of_mem_set hother with hother | rfl
      · exact h.fresh other hother
      · rw [receive_key]
        exact h.fresh server hmem
    · intro other hother clientPub m r hphase hmember hsafe
      rcases List.mem_or_eq_of_mem_set hother with hother | rfl
      · exact h.verified other hother clientPub m r hphase hmember hsafe
      · rw [receive_key]
        rcases receive_verified hphase with hphase | ⟨hmessage, hhash, hsignature⟩
        · exact h.verified server hmem clientPub m r hphase hmember hsafe
        · -- the signature has been seen, and it tells what was signed
          have hsig : m.signature = c.signature r
              (c.hexdigest (Crypto.handshakeText clientPub (c.pem server.key))) := by
            rw [Crypto.generateMemberSignature, hmember, Option.map_some, Option.some.injEq,
              hhash] at hsignature
            exact hsignature.symm
          rcases available m hmessage with ⟨p, hp, heq⟩ | hnever
          · obtain ⟨hrole, htext⟩ := signature_inj (hsig.symm.trans heq)
            rw [hrole, htext]
            exact hp
          · exact absurd hsig (hnever r _ hsafe)

lemma sound_of_reachable (h : Reachable c compromised s) : Sound c compromised s := by
  induction h with
  | refl => exact ⟨by simp, by simp, by simp, by simp⟩
  | tail _ hstep ih => exact ih.step hstep

/-- Injective agreement: a session that has verified a role whose secret is safe has a client of
that role which signed the session's own two keys, and nothing but this one session has been
verified with that signature. A client key without a separator is the one of the client. The
signature says nothing about the node id, the host and the port of the message. -/
theorem tunnel_agreement (h : Reachable c compromised s) {i : ℕ} {server : ServerRun}
    (hserver : s.servers[i]? = some server) {clientPub : Text} {m : Verify}
    (hphase : server.phase = .verified clientPub m) {r : R} (hmember : c.member m.role = some r)
    (hsafe : ¬ compromised r) :
    ∃ run ∈ s.clients, c.member run.role = some r ∧
      Crypto.handshakeText (c.pem run.key) run.serverPub =
        Crypto.handshakeText clientPub (c.pem server.key) ∧
      (':' ∉ clientPub → clientPub = c.pem run.key ∧ run.serverPub = c.pem server.key) ∧
      ∀ (j : ℕ) (other : ServerRun) (otherPub : Text) (m' : Verify),
        s.servers[j]? = some other → other.phase = .verified otherPub m' →
        Crypto.handshakeText (c.pem run.key) run.serverPub =
          Crypto.handshakeText otherPub (c.pem other.key) → j = i := by
  have hsound := sound_of_reachable h
  have hsigned := hsound.verified server (List.mem_of_getElem? hserver) clientPub m r hphase hmember
    hsafe
  rcases hsound.signers _ hsigned with ⟨run, hrun, hrole, htext⟩ | hforeign
  · refine ⟨run, hrun, hrole, htext.symm, fun hsep => ?_, ?_⟩
    · -- neither client key has a separator
      have hcount : ∀ {u : Text}, ':' ∉ u → u.count ':' = 0 := fun hu => List.count_eq_zero.mpr hu
      have := append_sep_inj htext (by rw [hcount hsep, hcount (c.pem_noSep _)])
      exact ⟨this.1, this.2.symm⟩
    · intro j other otherPub m' hother _ htext'
      have hkey := (handshakeText_inj (htext.trans htext')).2
      obtain ⟨hi, hi'⟩ := List.getElem?_eq_some_iff.mp hserver
      obtain ⟨hj, hj'⟩ := List.getElem?_eq_some_iff.mp hother
      have hlt : j < (s.servers.map ServerRun.key).length := by simpa using hj
      have hlt' : i < (s.servers.map ServerRun.key).length := by simpa using hi
      have hkeys : (s.servers.map ServerRun.key)[j] = (s.servers.map ServerRun.key)[i] := by
        simp [hi', hj', hkey]
      exact (hsound.keys.getElem_inj_iff).mp hkeys
  · exact absurd (handshakeText_suffix clientPub server.key) (hforeign server.key)

/-! ### One connection -/

/-- A number for every text. -/
def code (t : Text) : ℕ := t.foldr (fun ch n => Nat.pair ch.toNat n + 1) 0

lemma code_injective : Function.Injective code := by
  intro a
  induction a with
  | nil =>
    intro b h
    cases b with
    | nil => rfl
    | cons ch b => simp [code] at h
  | cons ch a ih =>
    intro b h
    cases b with
    | nil => simp [code] at h
    | cons ch' b =>
      simp only [code, List.foldr_cons, Nat.add_right_cancel_iff, Nat.pair_eq_pair] at h
      rw [Char.toNat_inj.mp h.1, ih h.2]

lemma replicate_injective (ch : Char) : Function.Injective fun n => List.replicate n ch :=
  fun a b h => by simpa using congrArg List.length h

/-- One role, and texts that stand for the numbers of what they are made of. -/
def oneRole : Crypto Unit where
  hexdigest t := List.replicate (code t) 'a'
  hexdigest_injective := (replicate_injective 'a').comp code_injective
  hexdigest_noSep t := by simp
  member _ := some ()
  name _ := ['d', 'e', 'v']
  name_injective _ _ _ := rfl
  name_noSep _ := by simp
  secret _ := ['s']
  pem k := List.replicate k 'k'
  pem_injective := replicate_injective 'k'
  pem_noSep k := by simp
  loads _ := true

/-- The message of the client with key 1 to the session with key 0, under another node id. -/
def relayed : Verify where
  role := ['d', 'e', 'v']
  nodeId := ['x']
  host := []
  port := 0
  payloadHash := oneRole.hexdigest (Crypto.handshakeText (oneRole.pem 1) (oneRole.pem 0))
  signature := oneRole.signature () (oneRole.hexdigest
    (Crypto.handshakeText (oneRole.pem 1) (oneRole.pem 0)))

lemma receive_relayed : oneRole.receive ⟨0, .keyed (oneRole.pem 1)⟩ (.verify relayed) =
    ⟨0, .verified (oneRole.pem 1) relayed⟩ := by
  simp [Crypto.receive, relayed, Crypto.generateMemberSignature, oneRole]

theorem tunnel_agreement_relayed : ∃ s : Swarm Unit, Reachable oneRole (fun _ => False) s ∧
    s.servers[0]? = some ⟨0, .verified (oneRole.pem 1) relayed⟩ ∧
    ∃ run ∈ s.clients, run.serverPub = oneRole.pem 0 := by
  have h₀ : Reachable oneRole (fun _ => False) {} := .refl
  have h₁ := h₀.tail .accept
  have h₂ := h₁.tail (@Step.connect _ oneRole _ _ () ['d', 'e', 'v'] (oneRole.pem 0) rfl rfl)
  have h₃ := h₂.tail (@Step.deliver _ oneRole _ _ 0 _ (.clientHello (oneRole.pem 1)) rfl (by simp))
  have h₄ := h₃.tail (@Step.deliver _ oneRole _ _ 0 _ (.verify relayed) rfl (by
    rintro m ⟨⟩
    exact Or.inl ⟨((), Crypto.handshakeText (oneRole.pem 1) (oneRole.pem 0)), List.Mem.head _,
      by simp only [relayed]⟩))
  refine ⟨_, h₄, congrArg some receive_relayed, ?_⟩
  obtain ⟨run, hrun, _, _, hkeys, _⟩ := @tunnel_agreement _ oneRole _ _ h₄ 0
    ⟨0, .verified (oneRole.pem 1) relayed⟩ (congrArg some receive_relayed) (oneRole.pem 1) relayed
    rfl () rfl (by simp)
  exact ⟨run, hrun, (hkeys (oneRole.pem_noSep 1)).2⟩

end AgentSystem.PeerHandshake
