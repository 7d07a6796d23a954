import AgentSystem.PolicyGate

/-!
# What an approval is bound to

The gate takes the hash that a request carries in place of the one that it computes, and a registry
entry as it stands under a hash. An allowed action is covered by a certificate over its own payload
unless one of the two leads to a certificate for something else.
-/
namespace AgentSystem.PolicyGate

open Json Sha256 Audit Consensus

variable {D : Type} [Interpreter D] [Coercion D] {platform : Platform D} {secrets : Secrets}
  {g : Gate D} {request request' : PolicyGateRequest D} {timestamp : String}

/-! ## Decisions -/

omit [Coercion D] in
lemma recordDecision_snd {allowed : Bool} {reason : PyStr} {requiredGuard payloadHash : String} :
    (g.recordDecision request allowed reason requiredGuard payloadHash timestamp).2 =
      if g.audit.sequence < maxRowid then
        some
          { allowed := allowed
            action := request.action
            scope := request.scope
            reason := reason
            requiredGuard := requiredGuard
            payloadHash := payloadHash
            auditEventId := g.audit.sequence + 1 }
      else none := by
  have htexts : ∀ names : List String, ∃ texts, dumpsItems (D := D) (names.map strValue) =
      some texts := by
    intro names
    induction names with
    | nil => exact ⟨[], rfl⟩
    | cons name names ih =>
        obtain ⟨texts, htexts⟩ := ih
        exact ⟨stringText (toPyStr name) :: texts, by rw [List.map_cons, dumpsItems, htexts]; rfl⟩
  unfold Gate.recordDecision
  dsimp only
  rw [Ledger.recordEvent]
  have hdumps : ∃ text, dumps (dictValue
      [("action", strValue request.action.value), ("scope", strValue request.scope.value),
       ("session_id", strValue request.sessionId), ("actor", strValue request.actor),
       ("resource", optionValue request.resource), ("allowed", .bool allowed),
       ("reason", .str reason), ("required_guard", strValue requiredGuard),
       ("payload_hash", strValue payloadHash),
       ("metadata_keys",
        (.list (((request.metadata.map Prod.fst).insertionSort (· ≤ ·)).map strValue) :
          PyValue D))]) = some text := by
    refine exists_dumps_texts ?_
    obtain ⟨texts, hkeys⟩ := htexts ((request.metadata.map Prod.fst).insertionSort (· ≤ ·))
    have hresource : ∃ text, dumps (optionValue (D := D) request.resource) = some text := by
      cases request.resource <;> exact ⟨_, rfl⟩
    have hlist : ∃ text, dumps (.list (((request.metadata.map Prod.fst).insertionSort
        (· ≤ ·)).map strValue) : PyValue D) = some text := ⟨_, by rw [dumps, hkeys]; rfl⟩
    simp only [List.forall_mem_cons, List.not_mem_nil, false_imp_iff, implies_true, and_true]
    exact ⟨⟨_, rfl⟩, ⟨_, rfl⟩, ⟨_, rfl⟩, ⟨_, rfl⟩, hresource, ⟨_, rfl⟩, ⟨_, rfl⟩, ⟨_, rfl⟩, ⟨_, rfl⟩,
      hlist⟩
  obtain ⟨text, htext⟩ := hdumps
  rw [htext]
  dsimp only
  unfold Ledger.append
  split_ifs <;> rfl

/-- The certificate that the gate consults about a hash. -/
def consulted (w : Swarm D) (request : PolicyGateRequest D) (payloadHash : String) :
    Option (PyValue D) :=
  match request.consensusCertificate with
  | some certificate =>
      if isText (PySequence.getItem certificate "payload_hash") payloadHash then
        some (dictValue certificate)
      else none
  | none => PySequence.getItem w.file.entries (toPyStr payloadHash)

/-- The gate consults this certificate, which passes the check. -/
structure Relied (platform : Platform D) (secrets : Secrets) (w : Swarm D)
    (request : PolicyGateRequest D) (certificate : PyValue D) : Prop where
  consulted : ∃ payloadHash ∈ request.effectiveHash platform,
    certificate ∈ consulted w request payloadHash
  valid : (verifyConsensusCertificate secrets w.session certificate).2 = true

lemma hasValidConsensus_iff {w : Swarm D} {payloadHash : String} :
    (hasValidConsensus secrets w request payloadHash).2 = true ↔
      ∃ certificate ∈ consulted w request payloadHash,
        (verifyConsensusCertificate secrets w.session certificate).2 = true := by
  unfold hasValidConsensus consulted
  cases request.consensusCertificate with
  | none =>
      unfold Swarm.isConsensusApproved
      cases PySequence.getItem w.file.entries (toPyStr payloadHash) with
      | none => simp
      | some certificate => simp
  | some certificate =>
      dsimp only
      split_ifs <;> simp

/-- The gate allows the request. -/
def Allows (platform : Platform D) (secrets : Secrets) (g : Gate D)
    (request : PolicyGateRequest D) (timestamp : String) : Prop :=
  ∃ decision ∈ (g.evaluate platform secrets request timestamp).2, decision.allowed = true

/-- When an action that needs consensus is allowed. -/
theorem allows_iff (hrequired : request.action ∈ consensusRequiredActions) :
    Allows platform secrets g request timestamp ↔
      request.validateScope platform = some none ∧ g.audit.sequence < maxRowid ∧
        ∃ certificate, Relied platform secrets g.swarm request certificate := by
  have hrelied : (∃ certificate, Relied platform secrets g.swarm request certificate) ↔
      ∃ payloadHash ∈ request.effectiveHash platform,
        ∃ certificate ∈ consulted g.swarm request payloadHash,
          (verifyConsensusCertificate secrets g.swarm.session certificate).2 = true := by
    constructor
    · rintro ⟨certificate, ⟨payloadHash, hhash, hmem⟩, hvalid⟩
      exact ⟨payloadHash, hhash, certificate, hmem, hvalid⟩
    · rintro ⟨payloadHash, hhash, certificate, hmem, hvalid⟩
      exact ⟨certificate, ⟨payloadHash, hhash, hmem⟩, hvalid⟩
  rw [hrelied]
  unfold Allows Gate.evaluate
  cases request.effectiveHash platform with
  | none => simp
  | some payloadHash =>
      cases request.validateScope platform with
      | none => simp
      | some error =>
          cases error with
          | some error =>
              dsimp only
              rw [recordDecision_snd]
              split_ifs <;> simp
          | none =>
              dsimp only
              rw [if_pos hrequired, recordDecision_snd]
              dsimp only
              have hvalid : (hasValidConsensus secrets g.swarm request payloadHash).2 = true ↔ _ :=
                hasValidConsensus_iff
              by_cases hopen : g.audit.sequence < maxRowid
              · rw [if_pos hopen]
                simp only [Option.mem_some_iff, exists_eq_left', hvalid, hopen, true_and]
              · rw [if_neg hopen]
                simp [hopen]

/-! ## The binding -/

/-- A certificate that the request carries or that is registered. -/
def Presented (g : Gate D) (request : PolicyGateRequest D) (certificate : PyValue D) : Prop :=
  (∃ items ∈ request.consensusCertificate, certificate = dictValue items) ∨
    ∃ payloadHash, (payloadHash, certificate) ∈ g.swarm.file.entries

/-- A certificate is over the payload of the request. -/
def Over (platform : Platform D) (certificate : PyValue D) (request : PolicyGateRequest D) : Prop :=
  ∃ payloadHash ∈ request.payloadHashFor platform,
    field certificate "payload_hash" = some (strValue payloadHash)

/-- There is a valid certificate for the request. -/
def Covered (platform : Platform D) (secrets : Secrets) (g : Gate D)
    (request : PolicyGateRequest D) : Prop :=
  ∃ certificate, Presented g request certificate ∧ Over platform certificate request ∧
    (verifyConsensusCertificate secrets g.swarm.session certificate).2 = true

/-- The gate consults a valid certificate for something else, and no valid one for the request is
registered. -/
structure Misplaced (platform : Platform D) (secrets : Secrets) (g : Gate D)
    (request : PolicyGateRequest D) : Prop where
  required : request.action ∈ consensusRequiredActions
  accepted : request.validateScope platform = some none
  recorded : g.audit.sequence < maxRowid
  foreign : ∃ certificate, Relied platform secrets g.swarm request certificate ∧
    ¬ Over platform certificate request
  unregistered : ∀ entry ∈ g.swarm.file.entries, Over platform entry.2 request →
    (verifyConsensusCertificate secrets g.swarm.session entry.2).2 = false

omit [Interpreter D] [Coercion D] in
/-- The gate consults nothing but what is carried or registered. -/
lemma presented_of_consulted {payloadHash : String} {certificate : PyValue D}
    (h : consulted g.swarm request payloadHash = some certificate) :
    Presented g request certificate := by
  unfold consulted at h
  cases hcarried : request.consensusCertificate with
  | none =>
      rw [hcarried] at h
      exact .inr ⟨_, PySequence.getItem_mem h⟩
  | some items =>
      rw [hcarried] at h
      dsimp only at h
      split_ifs at h
      cases h
      exact .inl ⟨items, hcarried, rfl⟩

omit [Interpreter D] [Coercion D] in
lemma field_of_isText {items : List (String × PyValue D)} {name s : String}
    (h : isText (PySequence.getItem items name) s = true) :
    field (dictValue items) name = some (strValue s) := by
  rw [field_dictValue]
  revert h
  unfold isText
  split
  · rename_i text htext
    intro heq
    rw [htext, of_decide_eq_true heq]
    rfl
  · exact fun heq => absurd heq Bool.false_ne_true

/-- The gate is led astray only by a hash that is not the one of the request, or by an entry of the
registry that is over another hash. -/
theorem misplaced_foreign (h : Misplaced platform secrets g request) :
    (∃ payloadHash ∈ request.payloadHash, request.payloadHashFor platform ≠ some payloadHash) ∨
      request.consensusCertificate = none ∧
        ∃ payloadHash ∈ request.payloadHashFor platform, ∃ certificate,
          PySequence.getItem g.swarm.file.entries (toPyStr payloadHash) = some certificate ∧
            field certificate "payload_hash" ≠ some (strValue payloadHash) := by
  obtain ⟨certificate, ⟨⟨payloadHash, heffective, hconsulted⟩, hvalid⟩, hforeign⟩ := h.foreign
  by_cases hown : request.payloadHashFor platform = some payloadHash
  · right
    have hfield : field certificate "payload_hash" ≠ some (strValue payloadHash) :=
      fun hfield => hforeign ⟨payloadHash, hown, hfield⟩
    unfold consulted at hconsulted
    cases hcarried : request.consensusCertificate with
    | none =>
        rw [hcarried] at hconsulted
        exact ⟨rfl, payloadHash, hown, certificate, hconsulted, hfield⟩
    | some items =>
        rw [hcarried] at hconsulted
        dsimp only at hconsulted
        split_ifs at hconsulted with htext
        · cases hconsulted
          exact absurd (field_of_isText htext) hfield
        · cases hconsulted
  · left
    refine ⟨payloadHash, ?_, hown⟩
    unfold PolicyGateRequest.effectiveHash at heffective
    cases hcarried : request.payloadHash with
    | none =>
        rw [hcarried] at heffective
        exact absurd heffective hown
    | some carried =>
        rw [hcarried] at heffective
        exact heffective

/-! ## Different requests -/

/-- Two requests that agree in what their payloads say, the metadata as JSON. -/
structure Agree (platform : Platform D) (request request' : PolicyGateRequest D) : Prop where
  action : request.action = request'.action
  scope : request.scope = request'.scope
  session : request.sessionId = request'.sessionId
  tenant : request.tenantId = request'.tenantId
  actor : request.actor = request'.actor
  resource : request.resource = request'.resource
  metadata : (platform.jsonMode (dictValue request.metadata)).map reload =
    (platform.jsonMode (dictValue request'.metadata)).map reload

/-- Two different payloads with one hash. -/
def Collide (platform : Platform D) (request request' : PolicyGateRequest D) : Prop :=
  ∃ text ∈ request.serialized platform, ∃ text' ∈ request'.serialized platform,
    text ≠ text' ∧ hexdigest text = hexdigest text'

lemma value_injective : Function.Injective PolicyAction.value := by
  intro action action' h
  cases action <;> cases action' <;> first | rfl | exact absurd h (by decide)

lemma scopeValue_injective : Function.Injective PolicyScope.value := by
  intro scope scope' h
  cases scope <;> cases scope' <;> first | rfl | exact absurd h (by decide)

omit [Coercion D] in
/-- The fields of a dictionary that comes back. -/
lemma field_reload {items : List (String × PyValue D)} (hnodup : (items.map Prod.fst).Nodup)
    (name : String) :
    field (reload (dictValue items)) name = (PySequence.getItem items name).map reload := by
  set pairs := items.map fun item => ((.str (toPyStr item.1), item.2) : PyKey D × PyValue D)
    with hpairs
  have hmembers : reloadMembers pairs = items.map fun item => (toPyStr item.1, reload item.2) := by
    rw [reloadMembers_eq, hpairs, List.map_map]
    refine List.map_congr_left fun item _ => ?_
    simp [PyKey.reloadedName, PyKey.name, joinSurrogates_toPyStr]
  have hperm : (reorder (Interpreter.order (pairs.map Prod.fst)) (reloadMembers pairs)).Perm
      (items.map fun item => (toPyStr item.1, reload item.2)) := by
    rw [hmembers]
    refine reorder_perm ?_
    have horder := Interpreter.order_perm (pairs.map Prod.fst)
    rw [List.length_map, hpairs, List.length_map] at horder
    rw [List.length_map]
    exact horder
  have hnames : ((items.map fun item => (toPyStr item.1, reload item.2)).map Prod.fst).Nodup := by
    have hmap := hnodup.map toPyStr_injective
    rwa [List.map_map] at hmap ⊢
  change lookup (fromMembers (reorder (Interpreter.order (pairs.map Prod.fst))
    (reloadMembers pairs))) name = _
  rw [lookup_fromMembers, PySequence.getItem_perm hperm ((hperm.map Prod.fst).nodup_iff.mpr hnames)]
  clear hperm hmembers hnames hnodup hpairs pairs
  induction items with
  | nil => rfl
  | cons item items ih =>
      rw [List.map_cons, PySequence.getItem_cons, PySequence.getItem_cons, ih]
      simp only [toPyStr_injective.eq_iff]
      cases PySequence.getItem items name with
      | some value => rfl
      | none => split_ifs <;> rfl

omit [Coercion D] in
lemma reload_strValue (s : String) : reload (strValue (D := D) s) = strValue s := by
  rw [strValue, reload, joinSurrogates_toPyStr]

omit [Coercion D] in
lemma reload_optionValue (s : Option String) :
    reload (optionValue (D := D) s) = optionValue s := by
  cases s with
  | none => rfl
  | some s => exact reload_strValue s

omit [Interpreter D] [Coercion D] in
lemma strValue_injective : Function.Injective (strValue (D := D)) := by
  intro s t h
  exact toPyStr_injective (PyValue.str.inj h)

omit [Interpreter D] [Coercion D] in
lemma optionValue_injective : Function.Injective (optionValue (D := D)) := by
  intro s t h
  cases s <;> cases t
  · rfl
  · cases h
  · cases h
  · rw [strValue_injective h]

/-- The items of the payload. -/
def payloadItems (request : PolicyGateRequest D) (metadata : PyValue D) :
    List (String × PyValue D) :=
  [("action", strValue request.action.value),
   ("scope", strValue request.scope.value),
   ("session_id", strValue request.sessionId),
   ("tenant_id", strValue request.tenantId),
   ("actor", strValue request.actor),
   ("resource", optionValue request.resource),
   ("metadata", metadata)]

omit [Coercion D] in
/-- Payloads that come back as the same value have the same fields. -/
lemma agree_of_reload {metadata metadata' : PyValue D}
    (hmetadata : platform.jsonMode (dictValue request.metadata) = some metadata)
    (hmetadata' : platform.jsonMode (dictValue request'.metadata) = some metadata')
    (h : reload (dictValue (payloadItems request metadata)) =
      reload (dictValue (payloadItems request' metadata'))) :
    Agree platform request request' := by
  have hnames (request : PolicyGateRequest D) (metadata : PyValue D) :
      ((payloadItems request metadata).map Prod.fst).Nodup := by
    have heq : (payloadItems request metadata).map Prod.fst =
        ["action", "scope", "session_id", "tenant_id", "actor", "resource", "metadata"] := rfl
    rw [heq]
    decide
  have hfield (name : String) := congrArg (field · name) h
  simp only [field_reload (hnames _ _)] at hfield
  have hstr {s t : String} (heq : some (reload (strValue (D := D) s)) =
      some (reload (strValue t))) : s = t := by
    rw [reload_strValue, reload_strValue, Option.some.injEq] at heq
    exact strValue_injective heq
  have hresource := hfield "resource"
  exact
    { action := value_injective (hstr (hfield "action"))
      scope := scopeValue_injective (hstr (hfield "scope"))
      session := hstr (hfield "session_id")
      tenant := hstr (hfield "tenant_id")
      actor := hstr (hfield "actor")
      resource := by
        have heq : some (reload (optionValue request.resource)) =
            some (reload (optionValue (D := D) request'.resource)) := hfield "resource"
        rw [reload_optionValue, reload_optionValue, Option.some.injEq] at heq
        exact optionValue_injective heq
      metadata := by
        rw [hmetadata, hmetadata']
        exact hfield "metadata" }

omit [Coercion D] in
/-- One certificate is over two requests only if they agree or their payloads collide. -/
theorem agree_of_over {certificate : PyValue D} (h : Over platform certificate request)
    (h' : Over platform certificate request') :
    Agree platform request request' ∨ Collide platform request request' := by
  obtain ⟨payloadHash, hhash, hfield⟩ := h
  obtain ⟨payloadHash', hhash', hfield'⟩ := h'
  rw [hfield, Option.some.injEq] at hfield'
  have hsame : payloadHash = payloadHash' := strValue_injective hfield'
  obtain ⟨text, htext, rfl⟩ := Option.map_eq_some_iff.mp hhash
  obtain ⟨text', htext', heq⟩ := Option.map_eq_some_iff.mp hhash'
  by_cases hne : text = text'
  · left
    subst hne
    obtain ⟨chars, hcompact, hchars⟩ := Option.map_eq_some_iff.mp htext
    obtain ⟨chars', hcompact', hchars'⟩ := Option.map_eq_some_iff.mp htext'
    have hsamechars : chars = chars' := String.ofList_injective (hchars.trans hchars'.symm)
    obtain ⟨payload, hpayload, hcompact⟩ := Option.bind_eq_some_iff.mp hcompact
    obtain ⟨payload', hpayload', hcompact'⟩ := Option.bind_eq_some_iff.mp hcompact'
    obtain ⟨metadata, hmetadata, rfl⟩ := Option.map_eq_some_iff.mp hpayload
    obtain ⟨metadata', hmetadata', rfl⟩ := Option.map_eq_some_iff.mp hpayload'
    exact agree_of_reload hmetadata hmetadata'
      (reload_eq_of_compact hcompact (hsamechars ▸ hcompact'))
  · exact .inr ⟨text, htext, text', htext', hne, hsame.trans heq.symm⟩

/-- An allowed action that needs consensus has a valid certificate over its payload exactly if the
gate is not led astray; and one certificate is over two requests only if they agree or their
payloads collide. -/
theorem allowed_covered_iff (platform : Platform D) (secrets : Secrets) (g : Gate D)
    (request : PolicyGateRequest D) (timestamp : String) :
    ((request.action ∈ consensusRequiredActions →
          Allows platform secrets g request timestamp → Covered platform secrets g request) ↔
        ¬ Misplaced platform secrets g request) ∧
      ∀ (request' : PolicyGateRequest D) (certificate : PyValue D),
        Over platform certificate request → Over platform certificate request' →
          Agree platform request request' ∨ Collide platform request request' := by
  refine ⟨⟨?_, ?_⟩, fun request' certificate => agree_of_over⟩
  · intro hcovered hmisplaced
    obtain ⟨foreign, hrelied, hforeign⟩ := hmisplaced.foreign
    have hallows : Allows platform secrets g request timestamp :=
      (allows_iff hmisplaced.required).mpr
        ⟨hmisplaced.accepted, hmisplaced.recorded, foreign, hrelied⟩
    obtain ⟨certificate, hpresented, hover, hvalid⟩ := hcovered hmisplaced.required hallows
    rcases hpresented with ⟨items, hcarried, rfl⟩ | ⟨payloadHash, hentry⟩
    · -- a carried certificate is the one that the gate consults
      obtain ⟨payloadHash, -, hconsulted⟩ := hrelied.consulted
      unfold consulted at hconsulted
      rw [Option.mem_def.mp hcarried] at hconsulted
      dsimp only at hconsulted
      split_ifs at hconsulted
      · cases hconsulted
        exact hforeign hover
      · cases hconsulted
    · exact Bool.false_ne_true ((hmisplaced.unregistered _ hentry hover).symm.trans hvalid)
  · intro hplaced hrequired hallows
    obtain ⟨haccepted, hrecorded, certificate, hrelied⟩ := (allows_iff hrequired).mp hallows
    by_contra huncovered
    refine hplaced ⟨hrequired, haccepted, hrecorded, ⟨certificate, hrelied, fun hover => ?_⟩, ?_⟩
    · obtain ⟨payloadHash, -, hconsulted⟩ := hrelied.consulted
      exact huncovered ⟨certificate, presented_of_consulted hconsulted, hover, hrelied.valid⟩
    · intro entry hentry hover
      rw [← Bool.not_eq_true]
      exact fun hvalid => huncovered ⟨entry.2, .inr ⟨entry.1, hentry⟩, hover, hvalid⟩

/-! ## A foreign hash -/

def testPlatform : Platform Empty where
  search _ _ := false
  urlparse resource := some { scheme := "", netloc := resource }
  relative resource := some (some resource)
  jsonMode := some

/-- Requests without a resource. -/
def testRequest (action : PolicyAction) (payloadHash : Option String)
    (h : ∀ hash ∈ payloadHash, isPayloadHash hash = true) : PolicyGateRequest Empty where
  action := action
  scope := .session
  sessionId := "s1"
  payloadHash := payloadHash
  sessionId_nonempty := by decide
  payloadHash_pattern := h
  metadata_nodup := by simp

def approvedRequest : PolicyGateRequest Empty := testRequest .browserUse none (by simp)

/-- The hash of the approved request. -/
def approvedHash : String := "567e2072e31b27a2142f3f5e1432a49fc511723642299d263535d057348793ca"

lemma approvedHash_eq : approvedRequest.payloadHashFor testPlatform = some approvedHash := by
  decide +kernel

lemma approvedHash_pattern : isPayloadHash approvedHash = true := by decide +kernel

def approvedCertificate : PyValue Empty :=
  (createConsensusCertificate testSecrets {} approvedHash ["ceo", "cto", "dev"] "t1").2.getD .none

lemma approvedCertificate_created : (createConsensusCertificate (D := Empty) testSecrets {}
    approvedHash ["ceo", "cto", "dev"] "t1").2 = some approvedCertificate := by
  have hcreated : (createConsensusCertificate (D := Empty) testSecrets {} approvedHash
      ["ceo", "cto", "dev"] "t1").2.isSome = true := by decide +kernel
  obtain ⟨certificate, hcertificate⟩ := Option.isSome_iff_exists.mp hcreated
  rw [approvedCertificate, hcertificate, Option.getD_some]

lemma approvedCertificate_valid :
    (verifyConsensusCertificate testSecrets {} approvedCertificate).2 = true := by
  obtain ⟨next, hverified, -⟩ :=
    verify_created approvedCertificate_created (Agrees.refl testSecrets {})
  rw [hverified]

lemma approvedCertificate_hash :
    field approvedCertificate "payload_hash" = some (strValue approvedHash) :=
  created_hash approvedCertificate_created

def approvedGate : Gate Empty where
  swarm := { file := .registry [(toPyStr approvedHash, approvedCertificate)] }

/-- Another action that carries the approved hash. -/
def otherRequest : PolicyGateRequest Empty :=
  testRequest .computerUse (some approvedHash) (by simpa using approvedHash_pattern)

/-- The approval of one action allows another one that carries its hash. -/
theorem carried_hash_allowed :
    Over testPlatform approvedCertificate approvedRequest ∧
      otherRequest.action ∈ consensusRequiredActions ∧
      Allows testPlatform testSecrets approvedGate otherRequest "t2" ∧
      ¬ Covered testPlatform testSecrets approvedGate otherRequest := by
  have hrequired : otherRequest.action ∈ consensusRequiredActions := by decide
  refine ⟨⟨approvedHash, approvedHash_eq, approvedCertificate_hash⟩, hrequired, ?_, ?_⟩
  · refine (allows_iff hrequired).mpr ⟨rfl, by decide, approvedCertificate, ?_,
      approvedCertificate_valid⟩
    exact ⟨approvedHash, rfl, by simp [consulted, otherRequest, testRequest, approvedGate,
      RegistryFile.entries, PySequence.getItem_cons, PySequence.getItem_nil]⟩
  · rintro ⟨certificate, hpresented, ⟨payloadHash, hhash, hfield⟩, -⟩
    have hcertificate : certificate = approvedCertificate := by
      rcases hpresented with ⟨items, hcarried, -⟩ | ⟨key, hentry⟩
      · cases hcarried
      · exact (Prod.mk.inj (List.mem_singleton.mp hentry)).2
    rw [hcertificate, approvedCertificate_hash, Option.some.injEq] at hfield
    have hsame : otherRequest.payloadHashFor testPlatform = some approvedHash := by
      rw [strValue_injective hfield]
      exact hhash
    have hdifferent : otherRequest.payloadHashFor testPlatform ≠ some approvedHash := by
      decide +kernel
    exact hdifferent hsame

end AgentSystem.PolicyGate
