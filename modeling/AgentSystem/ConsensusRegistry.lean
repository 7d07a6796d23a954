import AgentSystem.ConsensusMajority

/-!
# The consensus registry

`register_consensus` and `is_consensus_approved` over the file of a project: certificates under the
hashes that the callers name, written as JSON with every registration.
-/
namespace AgentSystem.Consensus

open Json Sha256 Audit

variable {D : Type} [Interpreter D] [Coercion D]

/-! ## Values in a JSON file -/

mutual

/-- What `json.loads` makes of the text of a value, `none` when `json.dumps` raises. -/
def stored : PyValue D → Option (PyValue D)
  | .int n => (intText n).map fun _ => .int n
  | .list items => (storedItems items).map .list
  | .dict items => (storedMembers items).map fun members => .dict (fromMembers members)
  | value => some value

def storedItems : List (PyValue D) → Option (List (PyValue D))
  | [] => some []
  | value :: items => (stored value).bind fun value => (storedItems items).map (value :: ·)

def storedMembers : List (PyKey D × PyValue D) → Option (List (PyStr × PyValue D))
  | [] => some []
  | (key, value) :: items =>
      key.name.bind fun name => (stored value).bind fun value =>
        (storedMembers items).map ((name, value) :: ·)

end

mutual

/-- The text of a value, which is not reduced to ASCII, can be encoded. -/
def encodable : PyValue D → Bool
  | .str s => (encode s).isSome
  | .list items => encodableItems items
  | .dict items => encodableMembers items
  | _ => true

def encodableItems : List (PyValue D) → Bool
  | [] => true
  | value :: items => encodable value && encodableItems items

def encodableMembers : List (PyKey D × PyValue D) → Bool
  | [] => true
  | (key, value) :: items =>
      ((key.name.bind encode).isSome && encodable value) && encodableMembers items

end

/-! ## The registry -/

/-- `consensus_registry.json`; a broken one is no JSON. -/
inductive RegistryFile (D : Type)
  | missing
  | broken
  | registry (entries : List (PyStr × PyValue D))

/-- The registry to which a registration adds. -/
def RegistryFile.entries : RegistryFile D → List (PyStr × PyValue D)
  | .registry entries => entries
  | _ => []

/-- The state of the process and the file of its project. -/
structure Swarm (D : Type) where
  session : Session := {}
  file : RegistryFile D := .missing

namespace Swarm

variable (secrets : Secrets) (w : Swarm D)

/-- `write_text` of a registry: nothing happens when it has no text, and the file is left empty when
the text cannot be encoded. -/
def write (entries : List (PyStr × PyValue D)) : RegistryFile D :=
  match storedMembers (entries.map fun entry => (.str entry.1, entry.2)) with
  | none => w.file
  | some copies =>
      if encodable (.dict (entries.map fun entry => (.str entry.1, entry.2))) then
        .registry (PySequence.fromPairs copies)
      else .broken

/-- `register_consensus`, and whether it returns. -/
def registerConsensus (payloadHash : PyStr) (certificate : PyValue D) : Swarm D × Bool :=
  match verifyConsensusCertificate secrets w.session certificate with
  | (session, false) => ({ w with session := session }, false)
  | (session, true) =>
      ({ session := session
         file := w.write (PySequence.setItem w.file.entries payloadHash certificate) }, true)

/-- `is_consensus_approved`. -/
def isConsensusApproved (payloadHash : PyStr) : Swarm D × Bool :=
  match PySequence.getItem w.file.entries payloadHash with
  | none => (w, false)
  | some certificate =>
      let (session, approved) := verifyConsensusCertificate secrets w.session certificate
      ({ w with session := session }, approved)

end Swarm

inductive Call (D : Type)
  | register (payloadHash : PyStr) (certificate : PyValue D)
  | approved (payloadHash : PyStr)

namespace Swarm

variable (secrets : Secrets)

def step (w : Swarm D) : Call D → Swarm D
  | .register payloadHash certificate => (w.registerConsensus secrets payloadHash certificate).1
  | .approved payloadHash => (w.isConsensusApproved secrets payloadHash).1

def run (w : Swarm D) (calls : List (Call D)) : Swarm D := calls.foldl (step secrets) w

/-- The certificates of the registrations that return. -/
def registered (w : Swarm D) : List (Call D) → List (PyValue D)
  | [] => []
  | .approved payloadHash :: calls => registered (w.step secrets (.approved payloadHash)) calls
  | .register payloadHash certificate :: calls =>
      let rest := registered (w.step secrets (.register payloadHash certificate)) calls
      if (w.registerConsensus secrets payloadHash certificate).2 then certificate :: rest else rest

end Swarm

/-! ## Copies of certificates -/

omit [Interpreter D] [Coercion D] in
lemma lookup_fromMembers (members : List (PyStr × PyValue D)) (name : String) :
    lookup (fromMembers members) name = PySequence.getItem members (toPyStr name) := by
  have hitems : stringItems (fromMembers members) = PySequence.fromPairs members := by
    rw [stringItems, fromMembers, List.filterMap_map]
    exact List.filterMap_some
  rw [lookup, hitems, PySequence.getItem_fromPairs]

lemma text_of_name {text : List Char} (h : text.map codePoint = toPyStr "payload_hash") :
    text = 'p' :: "ayload_hash".toList := by
  have htext : toPyStr (String.ofList text) = toPyStr "payload_hash" := by
    rw [toPyStr, String.toList_ofList, h]
  have heq := congrArg String.toList (toPyStr_injective htext)
  rwa [String.toList_ofList] at heq

omit [Coercion D] in
/-- No key but the string has this name. -/
lemma key_of_name {key : PyKey D} (h : key.name = some (toPyStr "payload_hash")) :
    key = .str (toPyStr "payload_hash") := by
  have hhead {l : Literal} (hl : l.WellFormed)
      (heq : l.text.map codePoint = toPyStr "payload_hash") : False := by
    obtain ⟨c, rest, htext, hc⟩ := hl.text_head
    rw [text_of_name heq, List.cons.injEq] at htext
    rw [← htext.1] at hc
    exact absurd hc (by decide)
  cases key with
  | none => exact absurd (Option.some.inj h) (by decide)
  | bool b => cases b <;> exact absurd (Option.some.inj h) (by decide)
  | int n =>
      obtain ⟨text, htext, heq⟩ := Option.map_eq_some_iff.mp h
      obtain ⟨-, rfl⟩ := intText_eq_some.mp htext
      exact (hhead (intLiteral_wellFormed n) heq).elim
  | float x =>
      cases x with
      | finite x => exact (hhead (Doubles.wellFormed x) (Option.some.inj h)).elim
      | infinity negative =>
          have htext := text_of_name (Option.some.inj h)
          cases negative <;> simp [floatText] at htext
      | nan =>
          have htext := text_of_name (Option.some.inj h)
          simp [floatText] at htext
  | str s => rw [Option.some.inj h]

omit [Coercion D] in
/-- The names of the items come back as keys, with copies of the values. -/
lemma getItem_storedMembers {items : List (PyKey D × PyValue D)}
    {members : List (PyStr × PyValue D)} (h : storedMembers items = some members) :
    (lookup items "payload_hash" = none →
        PySequence.getItem members (toPyStr "payload_hash") = none) ∧
      ∀ value, lookup items "payload_hash" = some value →
        ∃ copy, stored value = some copy ∧
          PySequence.getItem members (toPyStr "payload_hash") = some copy := by
  induction items generalizing members with
  | nil =>
      cases h
      exact ⟨fun _ => rfl, fun value hvalue => by cases hvalue⟩
  | cons item items ih =>
      obtain ⟨key, value⟩ := item
      obtain ⟨name, hname, hrest⟩ := Option.bind_eq_some_iff.mp h
      obtain ⟨copy, hcopy, hrest⟩ := Option.bind_eq_some_iff.mp hrest
      obtain ⟨copies, hcopies, rfl⟩ := Option.map_eq_some_iff.mp hrest
      obtain ⟨hnone, hsome⟩ := ih hcopies
      have hlookup : lookup ((key, value) :: items) "payload_hash" =
          (lookup items "payload_hash").or
            (if name = toPyStr "payload_hash" then some value else none) := by
        have hname' : name = toPyStr "payload_hash" → key = .str (toPyStr "payload_hash") :=
          fun heq => key_of_name (heq ▸ hname)
        cases key with
        | str s =>
            rw [← Option.some.inj hname]
            exact PySequence.getItem_cons s value (stringItems items) _
        | _ =>
            rw [if_neg fun heq => nomatch hname' heq]
            exact Option.or_none.symm
      rw [hlookup, PySequence.getItem_cons]
      cases hitems : lookup items "payload_hash" with
      | some found =>
          obtain ⟨copy', hcopy', hget⟩ := hsome found hitems
          rw [hget]
          simp [hcopy']
      | none =>
          rw [hnone hitems]
          split_ifs with heq
          · simp [hcopy]
          · simp

omit [Coercion D] in
/-- The copy of a certificate is over the same hash. -/
lemma stored_hash {certificate copy : PyValue D} {payloadHash : PyStr}
    (h : stored certificate = some copy)
    (hhash : field certificate "payload_hash" = some (.str payloadHash)) :
    field copy "payload_hash" = some (.str payloadHash) := by
  cases certificate with
  | dict items =>
      obtain ⟨members, hmembers, rfl⟩ := Option.map_eq_some_iff.mp h
      obtain ⟨copy, hcopy, hget⟩ := (getItem_storedMembers hmembers).2 _ hhash
      cases hcopy
      rw [field, lookup_fromMembers, hget]
  | _ => cases hhash

/-! ## Runs -/

/-- Every entry is over the hash under which it stands, which some registration has named. -/
def Recorded (registered : List (PyValue D)) (file : RegistryFile D) : Prop :=
  ∀ payloadHash copy, (payloadHash, copy) ∈ file.entries →
    field copy "payload_hash" = some (.str payloadHash) ∧
      ∃ certificate ∈ registered, field certificate "payload_hash" = some (.str payloadHash)

variable {secrets : Secrets} {w : Swarm D} {registered : List (PyValue D)}

omit [Interpreter D] [Coercion D] in
lemma Recorded.mono {more : List (PyValue D)} {file : RegistryFile D}
    (h : Recorded registered file) (hsub : registered ⊆ more) : Recorded more file := by
  intro payloadHash copy hmem
  obtain ⟨hcopy, certificate, hcertificate, hhash⟩ := h payloadHash copy hmem
  exact ⟨hcopy, certificate, hsub hcertificate, hhash⟩

omit [Coercion D] in
lemma mem_storedEntries {entries copies : List (PyStr × PyValue D)}
    (h : storedMembers (entries.map fun entry => (.str entry.1, entry.2)) = some copies)
    {payloadHash : PyStr} {copy : PyValue D} (hmem : (payloadHash, copy) ∈ copies) :
    ∃ value, (payloadHash, value) ∈ entries ∧ stored value = some copy := by
  induction entries generalizing copies with
  | nil =>
      cases h
      cases hmem
  | cons entry entries ih =>
      obtain ⟨name, hname, hrest⟩ := Option.bind_eq_some_iff.mp h
      obtain ⟨first, hfirst, hrest⟩ := Option.bind_eq_some_iff.mp hrest
      obtain ⟨rest, hcopies, rfl⟩ := Option.map_eq_some_iff.mp hrest
      cases hname
      rcases List.mem_cons.mp hmem with heq | hmem
      · cases heq
        exact ⟨entry.2, List.mem_cons_self, hfirst⟩
      · obtain ⟨value, hvalue, hstored⟩ := ih hcopies hmem
        exact ⟨value, List.mem_cons_of_mem _ hvalue, hstored⟩

omit [Coercion D] in
/-- A registration under the hash of its certificate keeps the registry in order. -/
lemma recorded_write (h : Recorded registered w.file) {payloadHash : PyStr}
    {certificate : PyValue D}
    (keyed : field certificate "payload_hash" = some (.str payloadHash)) :
    Recorded (certificate :: registered)
      (w.write (PySequence.setItem w.file.entries payloadHash certificate)) := by
  unfold Swarm.write
  split
  · exact h.mono (List.subset_cons_self _ _)
  · rename_i copies hcopies
    split_ifs
    · intro hash copy hmem
      obtain ⟨value, hvalue, hstored⟩ :=
        mem_storedEntries hcopies (PySequence.mem_of_mem_fromPairs hmem)
      rcases PySequence.mem_of_mem_setItem hvalue with heq | hold
      · cases heq
        exact ⟨stored_hash hstored keyed, certificate, List.mem_cons_self, keyed⟩
      · obtain ⟨hhash, hregistered⟩ := h hash value hold
        obtain ⟨other, hother, hotherHash⟩ := hregistered
        exact ⟨stored_hash hstored hhash, other, List.mem_cons_of_mem _ hother, hotherHash⟩
    · intro hash copy hmem
      cases hmem

lemma registerConsensus_file {payloadHash : PyStr} {certificate : PyValue D} :
    (w.registerConsensus secrets payloadHash certificate).1.file =
      if (w.registerConsensus secrets payloadHash certificate).2 then
        w.write (PySequence.setItem w.file.entries payloadHash certificate)
      else w.file := by
  unfold Swarm.registerConsensus
  split <;> rfl

/-- A registration that returns names the hash of its certificate. -/
def Keyed (secrets : Secrets) (w : Swarm D) : List (Call D) → Prop
  | [] => True
  | .approved payloadHash :: calls => Keyed secrets (w.step secrets (.approved payloadHash)) calls
  | .register payloadHash certificate :: calls =>
      ((w.registerConsensus secrets payloadHash certificate).2 = true →
          field certificate "payload_hash" = some (.str payloadHash)) ∧
        Keyed secrets (w.step secrets (.register payloadHash certificate)) calls

lemma recorded_run {calls : List (Call D)} (h : Recorded registered w.file)
    (keyed : Keyed secrets w calls) :
    Recorded (registered ++ w.registered secrets calls) (w.run secrets calls).file := by
  induction calls generalizing w registered with
  | nil => exact h.mono (List.subset_append_left _ _)
  | cons call calls ih =>
      cases call with
      | approved payloadHash =>
          refine ih ?_ keyed
          have hfile : (w.isConsensusApproved secrets payloadHash).1.file = w.file := by
            unfold Swarm.isConsensusApproved
            split <;> rfl
          rw [Swarm.step, hfile]
          exact h
      | register payloadHash certificate =>
          obtain ⟨hkeyed, hrest⟩ := keyed
          have hrecorded : Recorded
              (if (w.registerConsensus secrets payloadHash certificate).2 then
                certificate :: registered else registered)
              (w.step secrets (.register payloadHash certificate)).file := by
            rw [Swarm.step, registerConsensus_file]
            split_ifs with hreturns
            · exact recorded_write h (hkeyed hreturns)
            · exact h
          refine (ih hrecorded hrest).mono ?_
          rw [Swarm.registered]
          split_ifs
          · exact List.perm_middle.symm.subset
          · exact List.Subset.refl _

/-- In runs that register certificates under their own hashes, a hash is approved only if a
registered certificate is over it, of which a copy over the same hash passes the check. -/
theorem approved_certified {session : Session} {calls : List (Call D)}
    (keyed : Keyed secrets { session := session } calls) {payloadHash : PyStr}
    (approved : (((Swarm.mk session .missing).run secrets calls).isConsensusApproved secrets
      payloadHash).2 = true) :
    (∃ certificate ∈ (Swarm.mk session .missing).registered secrets calls,
        field certificate "payload_hash" = some (.str payloadHash)) ∧
      ∃ copy, PySequence.getItem ((Swarm.mk session .missing).run secrets calls).file.entries
          payloadHash = some copy ∧
        field copy "payload_hash" = some (.str payloadHash) ∧
        (verifyConsensusCertificate secrets ((Swarm.mk session .missing).run secrets calls).session
          copy).2 = true := by
  have hempty : Recorded [] (Swarm.mk session (.missing : RegistryFile D)).file := by
    intro hash copy hmem
    cases hmem
  have hrecorded := recorded_run hempty keyed
  unfold Swarm.isConsensusApproved at approved
  split at approved
  · cases approved
  · rename_i copy hget
    obtain ⟨hhash, hregistered⟩ := hrecorded payloadHash copy (PySequence.getItem_mem hget)
    exact ⟨hregistered, copy, hget, hhash, approved⟩

/-- A new certificate is over the hash that it was created for. -/
lemma created_hash {payloadHash timestamp : String} {approvedRoles : List String}
    {certificate : PyValue D} {s : Session}
    (h : (createConsensusCertificate secrets s payloadHash approvedRoles timestamp).2 =
      some certificate) :
    field certificate "payload_hash" = some (strValue payloadHash) := by
  unfold createConsensusCertificate at h
  dsimp only at h
  split_ifs at h
  split at h
  · cases h
  · obtain ⟨signature, -, rfl⟩ := Option.map_eq_some_iff.mp h
    rw [field_dictValue]
    simp [PySequence.getItem_cons, PySequence.getItem_nil]

/-! ## New certificates are kept as they are -/

section Kept

omit [Coercion D]

lemma stored_strValue (s : String) : stored (strValue s : PyValue D) = some (strValue s) := rfl

lemma stored_list {values : List (PyValue D)} (h : ∀ value ∈ values, stored value = some value) :
    stored (.list values) = some (.list values) := by
  have hitems : storedItems values = some values := by
    induction values with
    | nil => rfl
    | cons value values ih =>
        obtain ⟨hvalue, hvalues⟩ := List.forall_mem_cons.mp h
        rw [storedItems, hvalue, Option.bind_some, ih hvalues, Option.map_some]
  rw [stored, hitems, Option.map_some]

lemma stored_dictValue {items : List (String × PyValue D)} (hnodup : (items.map Prod.fst).Nodup)
    (h : ∀ item ∈ items, stored item.2 = some item.2) :
    stored (dictValue items) = some (dictValue items) := by
  have hmembers : storedMembers (items.map fun item => (.str (toPyStr item.1), item.2)) =
      some (items.map fun item => (toPyStr item.1, item.2)) := by
    clear hnodup
    induction items with
    | nil => rfl
    | cons item items ih =>
        obtain ⟨hitem, hitems⟩ := List.forall_mem_cons.mp h
        rw [List.map_cons, storedMembers, PyKey.name, Option.bind_some, hitem, Option.bind_some,
          ih hitems, Option.map_some, List.map_cons]
  have hnames : ((items.map fun item => (toPyStr item.1, item.2)).map Prod.fst).Nodup := by
    simpa [Function.comp_def] using hnodup.map toPyStr_injective
  rw [dictValue, stored, hmembers, Option.map_some, fromMembers,
    PySequence.fromPairs_of_nodup hnames, List.map_map]
  rfl

lemma encodable_strValue (s : String) : encodable (strValue s : PyValue D) = true := by
  rw [strValue, encodable, encode_toPyStr]
  rfl

lemma encodable_list {values : List (PyValue D)} (h : ∀ value ∈ values, encodable value = true) :
    encodable (.list values) = true := by
  rw [encodable]
  induction values with
  | nil => rfl
  | cons value values ih =>
      obtain ⟨hvalue, hvalues⟩ := List.forall_mem_cons.mp h
      rw [encodableItems, hvalue, ih hvalues]
      rfl

lemma encodable_dictValue {items : List (String × PyValue D)}
    (h : ∀ item ∈ items, encodable item.2 = true) : encodable (dictValue items) = true := by
  rw [dictValue, encodable]
  induction items with
  | nil => rfl
  | cons item items ih =>
      obtain ⟨hitem, hitems⟩ := List.forall_mem_cons.mp h
      rw [List.map_cons, encodableMembers, PyKey.name, Option.bind_some, encode_toPyStr, hitem,
        ih hitems]
      rfl

end Kept

/-- A new certificate is the copy that comes back from the file. -/
lemma stored_created {payloadHash timestamp : String} {approvedRoles : List String}
    {certificate : PyValue D} {s : Session}
    (h : (createConsensusCertificate secrets s payloadHash approvedRoles timestamp).2 =
      some certificate) :
    stored certificate = some certificate ∧ encodable certificate = true := by
  obtain ⟨keys, text, signature, roles, -, -, -, -, -, -, rfl⟩ := create_eq_some h
  generalize roles.map (fun role => (role, hexdigest (role.name ++ ":" ++ text ++ ":" ++
    keys.secret role))) = signatures
  have hnames : (((PySequence.fromPairs signatures).map fun signed =>
      (signed.1.name, (strValue signed.2 : PyValue D))).map Prod.fst).Nodup := by
    simpa [Function.comp_def] using (PySequence.fromPairs_nodup signatures).map Role.name_injective
  constructor
  · refine stored_dictValue (by simp) ?_
    simp only [List.forall_mem_cons]
    refine ⟨stored_strValue _, stored_list (List.forall_mem_map.mpr fun _ _ => stored_strValue _),
      stored_dictValue hnames (List.forall_mem_map.mpr fun _ _ => stored_strValue _),
      stored_strValue _, stored_strValue _, by simp⟩
  · refine encodable_dictValue ?_
    simp only [List.forall_mem_cons]
    exact ⟨encodable_strValue _,
      encodable_list (List.forall_mem_map.mpr fun _ _ => encodable_strValue _),
      encodable_dictValue (List.forall_mem_map.mpr fun _ _ => encodable_strValue _),
      encodable_strValue _, encodable_strValue _, by simp⟩

/-- A new certificate that is registered first is approved afterwards, under any hash. -/
theorem created_approved {payloadHash timestamp key : String} {approvedRoles : List String}
    {certificate : PyValue D} {s : Session}
    (h : (createConsensusCertificate secrets s payloadHash approvedRoles timestamp).2 =
      some certificate) :
    (((Swarm.mk s .missing).run secrets
      [.register (toPyStr key) certificate]).isConsensusApproved secrets (toPyStr key)).2 = true := by
  obtain ⟨next, hverified, hagrees, -⟩ := verify_created h (Agrees.refl secrets s)
  obtain ⟨last, hagain, -⟩ := verify_created h hagrees
  obtain ⟨hstored, hencodable⟩ := stored_created h
  have hencodable' : encodable (dictValue [(key, certificate)]) = true :=
    encodable_dictValue (by simpa using hencodable)
  rw [dictValue, List.map_cons, List.map_nil] at hencodable'
  have hregistered : (Swarm.mk s .missing).registerConsensus secrets (toPyStr key) certificate =
      (⟨next, .registry [(toPyStr key, certificate)]⟩, true) := by
    simp only [Swarm.registerConsensus, hverified, Swarm.write, RegistryFile.entries,
      PySequence.setItem_nil, List.map_cons, List.map_nil, storedMembers, PyKey.name,
      Option.bind_some, hstored, Option.map_some, hencodable']
    rfl
  have hrun : (Swarm.mk s .missing).run secrets [.register (toPyStr key) certificate] =
      ⟨next, .registry [(toPyStr key, certificate)]⟩ := by
    simp only [Swarm.run, List.foldl_cons, List.foldl_nil, Swarm.step, hregistered]
  rw [hrun, Swarm.isConsensusApproved]
  simp only [RegistryFile.entries, PySequence.getItem_cons, PySequence.getItem_nil, if_pos,
    Option.none_or, hagain]

/-! ## A registration -/

lemma testCertificate_hash : field (testCertificate ["ceo", "cto", "dev"]) "payload_hash" =
    some (.str (toPyStr "a1")) := created_hash members_created

/-- A registration of the certificate of three members over `a1` under some hash. -/
def testRegistration (payloadHash : String) : Call Empty :=
  .register (toPyStr payloadHash) (testCertificate ["ceo", "cto", "dev"])

theorem approved_certified_members :
    Keyed testSecrets { session := {} } [testRegistration "a1"] ∧
      (((Swarm.mk {} .missing).run testSecrets [testRegistration "a1"]).isConsensusApproved
        testSecrets (toPyStr "a1")).2 = true ∧
      ∃ certificate ∈ (Swarm.mk {} .missing).registered testSecrets [testRegistration "a1"],
        field certificate "payload_hash" = some (.str (toPyStr "a1")) := by
  have hkeyed : Keyed testSecrets { session := {} } [testRegistration "a1"] :=
    ⟨fun _ => testCertificate_hash, trivial⟩
  have happroved : (((Swarm.mk {} .missing).run testSecrets
      [testRegistration "a1"]).isConsensusApproved testSecrets (toPyStr "a1")).2 = true :=
    created_approved members_created
  exact ⟨hkeyed, happroved, (approved_certified hkeyed happroved).1⟩

/-- A certificate over one hash approves another one under which it was registered. -/
theorem foreign_hash_approved :
    (((Swarm.mk {} .missing).run testSecrets [testRegistration "b2"]).isConsensusApproved
        testSecrets (toPyStr "b2")).2 = true ∧
      ∀ certificate ∈ (Swarm.mk {} .missing).registered testSecrets [testRegistration "b2"],
        field certificate "payload_hash" ≠ some (.str (toPyStr "b2")) := by
  have hregistered : (Swarm.mk {} .missing).registered testSecrets [testRegistration "b2"] ⊆
      [testCertificate ["ceo", "cto", "dev"]] := by
    rw [testRegistration, Swarm.registered, Swarm.registered]
    split_ifs <;> simp
  refine ⟨created_approved members_created, fun certificate hmem heq => ?_⟩
  rw [List.mem_singleton.mp (hregistered hmem), testCertificate_hash] at heq
  revert heq
  simp only [Option.some.injEq, PyValue.str.injEq]
  decide

end AgentSystem.Consensus
