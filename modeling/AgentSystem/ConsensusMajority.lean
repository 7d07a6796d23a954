import AgentSystem.ConsensusCertificate

/-!
# Majorities of certificates

When a certificate that passes the check has a majority of different members behind it. The check
counts the entries of a list that comes from the caller, so that one member can make up a majority.
-/
namespace AgentSystem.Consensus

open Json Sha256 Audit

variable {D : Type} [Interpreter D] [Coercion D] (secrets : Secrets) (s : Session)

/-- The dictionary of signatures has the signature of the member. -/
def signed (payloadHash : PyValue D) (signatures : List (PyKey D × PyValue D)) (role : Role) :
    Bool :=
  match (generateMemberSignature secrets s role payloadHash).2 with
  | some expected => isText (lookup signatures role.name) expected
  | none => false

/-- The members that are not quarantined and whose signatures are in the certificate. -/
def endorsers (certificate : PyValue D) : List Role :=
  match field certificate "payload_hash", field certificate "signatures" with
  | some payloadHash, some (.dict signatures) =>
      Role.all.filter fun role =>
        !s.quarantined role && signed secrets s payloadHash signatures role
  | _, _ => []

/-- Three different members are behind the certificate. -/
def Majority (certificate : PyValue D) : Prop := 3 ≤ (endorsers secrets s certificate).length

/-- The entries of the approvals that count, with repetitions. -/
def counted (payloadHash : PyValue D) (signatures : List (PyKey D × PyValue D))
    (approvals : List (PyValue D)) : List Role :=
  (approvals.filterMap roleOf).filter fun role =>
    !s.quarantined role && signed secrets s payloadHash signatures role

/-- No member has its third failure over these approvals. -/
def Calm (payloadHash : PyValue D) (signatures : List (PyKey D × PyValue D))
    (approvals : List (PyValue D)) : Prop :=
  ∀ role ∈ approvals.filterMap roleOf, s.quarantined role = false →
    signed secrets s payloadHash signatures role = false →
      s.failuresCount role + (approvals.filterMap roleOf).count role < 3

variable {secrets s} {role : Role} {payloadHash : PyValue D}
  {signatures : List (PyKey D × PyValue D)} {approvals : List (PyValue D)}

/-! ## One approval -/

lemma memberKeys_of_some {keys : Keys} (h : s.secretKeys = some keys) :
    s.memberKeys secrets = (s, some keys) := by
  rw [Session.memberKeys, h]

/-- Keys are loaded once, and nothing else changes. -/
lemma memberKeys_loaded {keys : Keys} (h : (s.memberKeys secrets).2 = some keys) :
    (s.memberKeys secrets).1.secretKeys = some keys ∧
      (s.memberKeys secrets).1.quarantined = s.quarantined ∧
      (s.memberKeys secrets).1.failuresCount = s.failuresCount ∧
      (s.memberKeys secrets).1.rotations = s.rotations := by
  unfold Session.memberKeys Session.loadConfiguredKeys at h ⊢
  cases hkeys : s.secretKeys with
  | some old =>
      simpa [hkeys] using h
  | none =>
      simp only [hkeys] at h ⊢
      cases hconfigured : secrets.configured with
      | none => simp [hconfigured] at h
      | some configured =>
          cases hconsensus : secrets.configuredConsensus with
          | none => simp [hconfigured, hconsensus] at h
          | some key =>
              simpa [hconfigured, hconsensus] using h

lemma generate_ready {keys : Keys} (h : s.secretKeys = some keys) (role : Role)
    (payloadHash : PyValue D) :
    generateMemberSignature secrets s role payloadHash =
      (s, (hashText payloadHash).map fun text =>
        hexdigest (role.name ++ ":" ++ text ++ ":" ++ keys.secret role)) := by
  rw [generateMemberSignature, memberKeys_of_some h]
  rfl

/-- Signing with keys that are loaded first is signing after they were loaded. -/
lemma generate_loaded {keys : Keys} (h : (s.memberKeys secrets).2 = some keys) (role : Role)
    (payloadHash : PyValue D) :
    generateMemberSignature secrets s role payloadHash =
      generateMemberSignature secrets (s.memberKeys secrets).1 role payloadHash := by
  rw [generate_ready (memberKeys_loaded h).1, generateMemberSignature]
  simp only [h, Option.bind_some]

/-- The check of one approval by a member whose signature can be computed. -/
lemma checkApprovals_cons {approval : PyValue D} (hrole : roleOf approval = some role)
    (hfree : s.quarantined role = false) {keys : Keys} (hkeys : s.secretKeys = some keys)
    {text : String} (htext : hashText payloadHash = some text) :
    checkApprovals secrets payloadHash (.dict signatures) s (approval :: approvals) =
      if signed secrets s payloadHash signatures role then
        (checkApprovals secrets payloadHash (.dict signatures) s approvals).map id
          (Option.map (role :: ·))
      else
        checkApprovals secrets payloadHash (.dict signatures) (s.recordFailure secrets role)
          approvals := by
  rw [checkApprovals, hrole]
  simp only [hfree, signed, generate_ready hkeys, htext, Option.map_some]
  rfl

lemma checkApprovals_skip {signaturesValue approval : PyValue D}
    (h : ∀ role, roleOf approval = some role → s.quarantined role = true) :
    checkApprovals secrets payloadHash signaturesValue s (approval :: approvals) =
      checkApprovals secrets payloadHash signaturesValue s approvals := by
  rw [checkApprovals]
  cases hrole : roleOf approval with
  | none => rfl
  | some role => exact if_pos (h role hrole)

/-! ## The loop -/

omit [Coercion D] in
lemma memberKeys_rotations : (s.memberKeys secrets).1.rotations = s.rotations := by
  unfold Session.memberKeys Session.loadConfiguredKeys
  cases s.secretKeys with
  | some keys => rfl
  | none =>
      cases secrets.configured with
      | none => rfl
      | some keys => cases secrets.configuredConsensus <;> rfl

@[simp] lemma countFailure_self :
    (s.countFailure role).failuresCount role = s.failuresCount role + 1 :=
  Function.update_self ..

lemma countFailure_of_ne {other : Role} (h : other ≠ role) :
    (s.countFailure role).failuresCount other = s.failuresCount other :=
  Function.update_of_ne h ..

@[simp] lemma countFailure_quarantined : (s.countFailure role).quarantined = s.quarantined := rfl

lemma recordFailure_rotations :
    s.rotations ≤ (s.recordFailure secrets role).rotations := by
  unfold Session.recordFailure Session.quarantineNode
  dsimp only
  split_ifs
  · exact le_refl _
  · exact Nat.le_succ _
  · exact le_refl _

/-- A first or second failure is only counted. -/
lemma recordFailure_eq (hbound : s.failuresCount role + 1 < 3) :
    s.recordFailure secrets role = s.countFailure role := by
  rw [Session.recordFailure]
  refine if_neg ?_
  rw [countFailure_self]
  omega

/-- Rotations are never undone. -/
lemma checkApprovals_rotations {signaturesValue : PyValue D} :
    s.rotations ≤ (checkApprovals secrets payloadHash signaturesValue s approvals).1.rotations := by
  induction approvals generalizing s with
  | nil => exact le_refl _
  | cons approval approvals ih =>
      rw [checkApprovals]
      cases roleOf approval with
      | none => exact ih
      | some role =>
          dsimp only
          split_ifs
          · exact ih
          · have hkeys : (generateMemberSignature secrets s role payloadHash).1.rotations =
                s.rotations := memberKeys_rotations
            split
            · rename_i next expected items hgenerate
              rw [hgenerate] at hkeys
              split_ifs
              · exact hkeys ▸ ih
              · exact hkeys ▸ recordFailure_rotations.trans ih
            · rename_i next signature value hgenerate _
              rw [hgenerate] at hkeys
              exact hkeys.ge

/-- The signature of a member depends on nothing but the keys. -/
lemma signed_eq {next : Session} (h : next.secretKeys = s.secretKeys) {keys : Keys}
    (hkeys : s.secretKeys = some keys) :
    signed secrets next payloadHash signatures role =
      signed secrets s payloadHash signatures role := by
  unfold signed
  rw [generate_ready hkeys, generate_ready (h.trans hkeys)]

/-- An approval that names nobody, or a quarantined member, changes nothing. -/
lemma skipped_approval {approval : PyValue D}
    (h : ∀ role, roleOf approval = some role → s.quarantined role = true) :
    counted secrets s payloadHash signatures (approval :: approvals) =
        counted secrets s payloadHash signatures approvals ∧
      (Calm secrets s payloadHash signatures (approval :: approvals) ↔
        Calm secrets s payloadHash signatures approvals) := by
  unfold counted Calm
  rw [List.filterMap_cons]
  cases hrole : roleOf approval with
  | none => exact ⟨rfl, Iff.rfl⟩
  | some role =>
      have hquarantined := h role hrole
      refine ⟨by simp [hquarantined], ?_⟩
      simp only [List.forall_mem_cons, hquarantined, Bool.true_eq_false, false_imp_iff, true_and]
      refine forall₂_congr fun other _ => imp_congr_right fun hfree => ?_
      have hne : role ≠ other := by
        rintro rfl
        exact Bool.false_ne_true (hfree.symm.trans hquarantined)
      rw [List.count_cons_of_ne hne]

/-- An approval of a member with the right signature does not count as a failure. -/
lemma signed_approval {approval : PyValue D} (hrole : roleOf approval = some role)
    (hfree : s.quarantined role = false)
    (hsigned : signed secrets s payloadHash signatures role = true) :
    counted secrets s payloadHash signatures (approval :: approvals) =
        role :: counted secrets s payloadHash signatures approvals ∧
      (Calm secrets s payloadHash signatures (approval :: approvals) ↔
        Calm secrets s payloadHash signatures approvals) := by
  unfold counted Calm
  rw [List.filterMap_cons_some hrole]
  refine ⟨by simp [hfree, hsigned], ?_⟩
  simp only [List.forall_mem_cons, hsigned, Bool.true_eq_false, false_imp_iff, implies_true,
    true_and]
  refine forall₂_congr fun other _ => imp_congr_right fun _ => imp_congr_right fun hother => ?_
  have hne : role ≠ other := by
    rintro rfl
    exact Bool.false_ne_true (hother.symm.trans hsigned)
  rw [List.count_cons_of_ne hne]

/-- An approval of a member with a wrong signature counts as one failure. -/
lemma unsigned_approval {approval : PyValue D} (hrole : roleOf approval = some role)
    (hfree : s.quarantined role = false)
    (hunsigned : signed secrets s payloadHash signatures role = false) {keys : Keys}
    (hkeys : s.secretKeys = some keys) :
    counted secrets s payloadHash signatures (approval :: approvals) =
        counted secrets (s.countFailure role) payloadHash signatures approvals ∧
      (Calm secrets s payloadHash signatures (approval :: approvals) ↔
        s.failuresCount role + 1 < 3 ∧
          Calm secrets (s.countFailure role) payloadHash signatures approvals) := by
  have hsame (other : Role) : signed secrets (s.countFailure role) payloadHash signatures other =
      signed secrets s payloadHash signatures other := signed_eq rfl hkeys
  unfold counted Calm
  rw [List.filterMap_cons_some hrole]
  simp only [hsame]
  refine ⟨by simp [hunsigned, Session.countFailure], ?_⟩
  have hcount (other : Role) : s.failuresCount other +
      (role :: approvals.filterMap roleOf).count other =
      (s.countFailure role).failuresCount other + (approvals.filterMap roleOf).count other := by
    by_cases hother : other = role
    · subst hother
      rw [List.count_cons_self, countFailure_self]
      omega
    · rw [List.count_cons_of_ne (Ne.symm hother), countFailure_of_ne hother]
  simp only [List.forall_mem_cons, hcount, hfree, hunsigned, forall_const, countFailure_self,
    countFailure_quarantined]
  constructor
  · rintro ⟨hrole, hrest⟩
    exact ⟨by omega, hrest⟩
  · rintro ⟨hbound, hrest⟩
    refine ⟨?_, hrest⟩
    by_cases hmem : role ∈ approvals.filterMap roleOf
    · simpa using hrest role hmem hfree hunsigned
    · rw [List.count_eq_zero_of_not_mem hmem]
      exact hbound

section Ready

variable {keys : Keys} (hkeys : s.secretKeys = some keys) {text : String}
  (htext : hashText payloadHash = some text)
include hkeys htext

/-- Without a third failure the loop returns the approvals that count. -/
lemma checkApprovals_calm (hcalm : Calm secrets s payloadHash signatures approvals) :
    ∃ failures, checkApprovals secrets payloadHash (.dict signatures) s approvals =
      ({ s with failuresCount := failures },
        some (counted secrets s payloadHash signatures approvals)) := by
  induction approvals generalizing s with
  | nil => exact ⟨s.failuresCount, rfl⟩
  | cons approval approvals ih =>
      by_cases hskip : ∀ role, roleOf approval = some role → s.quarantined role = true
      · rw [checkApprovals_skip hskip, (skipped_approval hskip).1]
        exact ih hkeys ((skipped_approval hskip).2.mp hcalm)
      · push Not at hskip
        obtain ⟨role, hrole, hfree⟩ := hskip
        rw [ne_eq, Bool.not_eq_true] at hfree
        rw [checkApprovals_cons hrole hfree hkeys htext]
        cases hsigned : signed secrets s payloadHash signatures role with
        | true =>
            have hrest := (signed_approval hrole hfree hsigned).2.mp hcalm
            obtain ⟨failures, hchecked⟩ := ih hkeys hrest
            refine ⟨failures, ?_⟩
            rw [if_pos rfl, hchecked, (signed_approval hrole hfree hsigned).1]
            rfl
        | false =>
            obtain ⟨hbound, hcalm'⟩ :=
              (unsigned_approval hrole hfree hsigned hkeys).2.mp hcalm
            obtain ⟨failures, hrest⟩ := @ih (s.countFailure role) hkeys hcalm'
            refine ⟨failures, ?_⟩
            rw [if_neg (by simp), recordFailure_eq hbound, hrest,
              (unsigned_approval hrole hfree hsigned hkeys).1]
            rfl

/-- A third failure rotates the keys. -/
lemma checkApprovals_rotates (hcalm : ¬ Calm secrets s payloadHash signatures approvals) :
    s.rotations <
      (checkApprovals secrets payloadHash (.dict signatures) s approvals).1.rotations := by
  induction approvals generalizing s with
  | nil => exact absurd (by simp [Calm]) hcalm
  | cons approval approvals ih =>
      by_cases hskip : ∀ role, roleOf approval = some role → s.quarantined role = true
      · rw [checkApprovals_skip hskip]
        exact ih hkeys (mt (skipped_approval hskip).2.mpr hcalm)
      · push Not at hskip
        obtain ⟨role, hrole, hfree⟩ := hskip
        rw [ne_eq, Bool.not_eq_true] at hfree
        rw [checkApprovals_cons hrole hfree hkeys htext]
        cases hsigned : signed secrets s payloadHash signatures role with
        | true =>
            rw [if_pos rfl]
            exact ih hkeys (mt (signed_approval hrole hfree hsigned).2.mpr hcalm)
        | false =>
            rw [if_neg (by simp)]
            by_cases hbound : s.failuresCount role + 1 < 3
            · rw [recordFailure_eq hbound]
              exact @ih (s.countFailure role) hkeys fun hrest => hcalm
                ((unsigned_approval hrole hfree hsigned hkeys).2.mpr ⟨hbound, hrest⟩)
            · refine lt_of_lt_of_le ?_ checkApprovals_rotations
              rw [Session.recordFailure, if_pos (by simp; omega), Session.quarantineNode,
                if_neg (by simpa using hfree)]
              exact Nat.lt_succ_self _

end Ready

/-! ## The check -/

/-- A loop that loads the keys goes on as if they had been there. -/
lemma checkApprovals_loaded {keys : Keys} (h : (s.memberKeys secrets).2 = some keys)
    {signaturesValue : PyValue D}
    (hmember : ∃ role ∈ approvals.filterMap roleOf, s.quarantined role = false) :
    checkApprovals secrets payloadHash signaturesValue s approvals =
      checkApprovals secrets payloadHash signaturesValue (s.memberKeys secrets).1 approvals := by
  obtain ⟨-, hquarantined, -, -⟩ := memberKeys_loaded h
  induction approvals with
  | nil => simp at hmember
  | cons approval approvals ih =>
      by_cases hskip : ∀ role, roleOf approval = some role → s.quarantined role = true
      · rw [checkApprovals_skip hskip, checkApprovals_skip (hquarantined ▸ hskip), ih]
        obtain ⟨role, hmem, hfree⟩ := hmember
        refine ⟨role, ?_, hfree⟩
        rw [List.filterMap_cons] at hmem
        cases hrole : roleOf approval with
        | none => rwa [hrole] at hmem
        | some other =>
            rw [hrole, List.mem_cons] at hmem
            refine hmem.resolve_left ?_
            rintro rfl
            exact Bool.false_ne_true (hfree.symm.trans (hskip role hrole))
      · push Not at hskip
        obtain ⟨role, hrole, hfree⟩ := hskip
        rw [checkApprovals, checkApprovals, hrole]
        simp only [hquarantined, if_neg hfree, generate_loaded h]

/-- A loop that finds a right signature had the keys, a hash that can be signed and a dictionary. -/
lemma checkApprovals_found {signaturesValue : PyValue D} {next : Session} {valid : List Role}
    (hcheck : checkApprovals secrets payloadHash signaturesValue s approvals = (next, some valid))
    (hne : valid ≠ []) :
    (∃ role ∈ approvals.filterMap roleOf, s.quarantined role = false) ∧
      (∃ keys, (s.memberKeys secrets).2 = some keys) ∧
      (∃ text, hashText payloadHash = some text) ∧
      ∃ signatures, signaturesValue = .dict signatures := by
  induction approvals with
  | nil =>
      cases hcheck
      exact absurd rfl hne
  | cons approval approvals ih =>
      by_cases hskip : ∀ role, roleOf approval = some role → s.quarantined role = true
      · rw [checkApprovals_skip hskip] at hcheck
        obtain ⟨⟨role, hmem, hfree⟩, hrest⟩ := ih hcheck
        obtain ⟨approval', hmem', hrole'⟩ := List.mem_filterMap.mp hmem
        exact ⟨⟨role, List.mem_filterMap.mpr ⟨approval', List.mem_cons_of_mem _ hmem', hrole'⟩,
          hfree⟩, hrest⟩
      · push Not at hskip
        obtain ⟨role, hrole, hfree⟩ := hskip
        rw [checkApprovals, hrole] at hcheck
        simp only [if_neg hfree] at hcheck
        split at hcheck
        · rename_i loaded expected signatures hgenerate
          have hsignature := congrArg Prod.snd hgenerate
          obtain ⟨keys, hkeys, htext⟩ := Option.bind_eq_some_iff.mp hsignature
          obtain ⟨text, htext, -⟩ := Option.map_eq_some_iff.mp htext
          refine ⟨⟨role, List.mem_filterMap.mpr ⟨approval, List.mem_cons_self, hrole⟩, ?_⟩,
            ⟨keys, hkeys⟩, ⟨text, htext⟩, signatures, rfl⟩
          simpa using hfree
        · cases hcheck

/-- The consensus signature of a certificate fits the approvals that count, no member has its third
failure, and everything that the check needs is there. -/
structure Sealed (secrets : Secrets) (s : Session) (certificate payloadHash : PyValue D)
    (signatures : List (PyKey D × PyValue D)) (approvals : List (PyValue D)) : Prop where
  hashed : field certificate "payload_hash" = some payloadHash
  approved : (field certificate "approvals").bind elements = some approvals
  written : field certificate "signatures" = some (.dict signatures)
  configured : ∃ keys, (s.memberKeys secrets).2 = some keys
  calm : Calm secrets s payloadHash signatures approvals
  consensus : ∃ expected, masterSignature (s.memberKeys secrets).1 payloadHash
      (counted secrets s payloadHash signatures approvals) = some expected ∧
    isText (field certificate "consensus_signature") expected = true

/-- A key that is drawn in the middle of the check did not make the consensus signature. -/
def Unguessed (secrets : Secrets) (s : Session) (certificate : PyValue D) : Prop :=
  ∀ payloadHash approvals signatures next valid expected,
    field certificate "payload_hash" = some payloadHash →
    (field certificate "approvals").bind elements = some approvals →
    field certificate "signatures" = some signatures →
    checkApprovals secrets payloadHash signatures s approvals = (next, some valid) →
    next.rotations ≠ s.rotations → masterSignature next payloadHash valid = some expected →
      isText (field certificate "consensus_signature") expected = false

variable {certificate : PyValue D}

omit [Interpreter D] [Coercion D] in
lemma isText_eq_true {value : Option (PyValue D)} {text : String} (h : isText value text = true) :
    ∃ found, value = some found := by
  cases value with
  | none => cases h
  | some found => exact ⟨found, rfl⟩

/-- What the check looks at. -/
lemma verify_eq_true : (verifyConsensusCertificate secrets s certificate).2 = true ↔
    ∃ payloadHash approvals signatures next valid expected,
      field certificate "payload_hash" = some payloadHash ∧
      (field certificate "approvals").bind elements = some approvals ∧
      field certificate "signatures" = some signatures ∧
      checkApprovals secrets payloadHash signatures s approvals = (next, some valid) ∧
      3 ≤ valid.length ∧ masterSignature next payloadHash valid = some expected ∧
      isText (field certificate "consensus_signature") expected = true := by
  unfold verifyConsensusCertificate
  constructor
  · intro h
    split at h
    · rename_i payloadHash approvals signatures consensusSignature hhash happrovals hsignatures
        hconsensus
      split at h
      · cases h
      · rename_i xs helements
        split at h
        · cases h
        · rename_i next valid hcheck
          split_ifs at h with hfew
          dsimp only at h
          split at h
          · cases h
          · rename_i expected hmaster
            refine ⟨payloadHash, xs, signatures, next, valid, expected, hhash, ?_, hsignatures,
              hcheck, Nat.le_of_not_lt hfew, hmaster, ?_⟩
            · rw [happrovals, Option.bind_some, helements]
            · rwa [hconsensus]
    · cases h
  · rintro ⟨payloadHash, approvals, signatures, next, valid, expected, hhash, happrovals,
      hsignatures, hcheck, hmany, hmaster, hconsensus⟩
    obtain ⟨value, hvalue, helements⟩ := Option.bind_eq_some_iff.mp happrovals
    obtain ⟨signature, hsignature⟩ := isText_eq_true hconsensus
    rw [hsignature] at hconsensus
    have hfew : ¬ valid.length < Role.majorityNeeded := Nat.not_lt.mpr hmany
    simp only [hhash, hvalue, hsignatures, hsignature, helements, hcheck, if_neg hfew, hmaster,
      hconsensus]

/-- What the approvals say does not depend on whether the keys are loaded yet. -/
lemma counted_loaded {keys : Keys} (h : (s.memberKeys secrets).2 = some keys) :
    counted secrets (s.memberKeys secrets).1 payloadHash signatures approvals =
        counted secrets s payloadHash signatures approvals ∧
      (Calm secrets (s.memberKeys secrets).1 payloadHash signatures approvals ↔
        Calm secrets s payloadHash signatures approvals) := by
  obtain ⟨-, hquarantined, hfailures, -⟩ := memberKeys_loaded h
  have hsigned (role : Role) : signed secrets (s.memberKeys secrets).1 payloadHash signatures role =
      signed secrets s payloadHash signatures role := by
    rw [signed, signed, ← generate_loaded h]
  simp only [counted, Calm, hsigned, hquarantined, hfailures, true_and]

/-- A certificate passes the check if it is sealed by three entries of its approvals. -/
theorem verify_iff_sealed (unguessed : Unguessed secrets s certificate) :
    (verifyConsensusCertificate secrets s certificate).2 = true ↔
      ∃ payloadHash signatures approvals,
        Sealed secrets s certificate payloadHash signatures approvals ∧
          3 ≤ (counted secrets s payloadHash signatures approvals).length := by
  rw [verify_eq_true]
  constructor
  · rintro ⟨payloadHash, approvals, signaturesValue, next, valid, expected, hhash, happrovals,
      hsignatures, hcheck, hmany, hmaster, hconsensus⟩
    have hne : valid ≠ [] := List.ne_nil_of_length_pos (by omega)
    obtain ⟨hmember, ⟨keys, hkeys⟩, ⟨text, htext⟩, signatures, rfl⟩ :=
      checkApprovals_found hcheck hne
    obtain ⟨hready, hquarantined, hfailures, hrotations⟩ := memberKeys_loaded hkeys
    have hsteady : next.rotations = s.rotations := by
      by_contra hrotated
      rw [unguessed payloadHash approvals _ next valid expected hhash happrovals hsignatures hcheck
        hrotated hmaster] at hconsensus
      cases hconsensus
    rw [checkApprovals_loaded hkeys hmember] at hcheck
    have hcalm : Calm secrets s payloadHash signatures approvals := by
      by_contra hfailed
      have hrotates :=
        checkApprovals_rotates hready htext (mt (counted_loaded hkeys).2.mp hfailed)
      rw [hcheck] at hrotates
      exact absurd (hsteady.trans hrotations.symm) hrotates.ne'
    obtain ⟨failures, hloop⟩ :=
      checkApprovals_calm hready htext ((counted_loaded hkeys).2.mpr hcalm)
    rw [hloop, (counted_loaded hkeys).1] at hcheck
    cases hcheck
    exact ⟨payloadHash, signatures, approvals, ⟨hhash, happrovals, hsignatures, ⟨keys, hkeys⟩,
      hcalm, expected, hmaster, hconsensus⟩, hmany⟩
  · rintro ⟨payloadHash, signatures, approvals, hsealed, hmany⟩
    obtain ⟨keys, hkeys⟩ := hsealed.configured
    obtain ⟨expected, hmaster, hconsensus⟩ := hsealed.consensus
    obtain ⟨text, htext, -⟩ := Option.map_eq_some_iff.mp hmaster
    obtain ⟨role, hrole⟩ := List.exists_mem_of_length_pos (Nat.zero_lt_of_lt hmany)
    obtain ⟨hmem, hcounts⟩ := List.mem_filter.mp hrole
    rw [Bool.and_eq_true, Bool.not_eq_true'] at hcounts
    obtain ⟨failures, hloop⟩ := checkApprovals_calm (memberKeys_loaded hkeys).1 htext
      ((counted_loaded hkeys).2.mpr hsealed.calm)
    rw [← checkApprovals_loaded hkeys ⟨role, hmem, hcounts.1⟩, (counted_loaded hkeys).1] at hloop
    exact ⟨payloadHash, approvals, .dict signatures, _, _, expected, hsealed.hashed,
      hsealed.approved, hsealed.written, hloop, hmany, hmaster, hconsensus⟩

/-- A certificate that is sealed by three entries of its approvals, but not by three members. -/
def Repeats (secrets : Secrets) (s : Session) (certificate : PyValue D) : Prop :=
  ∃ payloadHash signatures approvals,
    Sealed secrets s certificate payloadHash signatures approvals ∧
      3 ≤ (counted secrets s payloadHash signatures approvals).length ∧
      (endorsers secrets s certificate).length < 3

/-- A certificate that passes the check has three members behind it unless entries of its approvals
repeat a member. -/
theorem majority_iff (unguessed : Unguessed secrets s certificate) :
    ((verifyConsensusCertificate secrets s certificate).2 = true →
        Majority secrets s certificate) ↔
      ¬ Repeats secrets s certificate := by
  rw [verify_iff_sealed unguessed]
  constructor
  · rintro h ⟨payloadHash, signatures, approvals, hsealed, hmany, hfew⟩
    exact absurd (h ⟨payloadHash, signatures, approvals, hsealed, hmany⟩) (Nat.not_le.mpr hfew)
  · rintro h ⟨payloadHash, signatures, approvals, hsealed, hmany⟩
    by_contra hfew
    exact h ⟨payloadHash, signatures, approvals, hsealed, hmany, Nat.not_le.mp hfew⟩

lemma mem_all (role : Role) : role ∈ Role.all := by cases role <;> decide

/-- Approvals that name every member at most once cannot repeat one. -/
theorem not_repeats_of_nodup
    (h : ∀ approvals, (field certificate "approvals").bind elements = some approvals →
      (approvals.filterMap roleOf).Nodup) : ¬ Repeats secrets s certificate := by
  rintro ⟨payloadHash, signatures, approvals, hsealed, hmany, hfew⟩
  have hsub : counted secrets s payloadHash signatures approvals ⊆
      endorsers secrets s certificate := by
    intro role hrole
    unfold endorsers
    rw [hsealed.hashed, hsealed.written]
    exact List.mem_filter.mpr ⟨mem_all role, (List.mem_filter.mp hrole).2⟩
  have hnodup : (counted secrets s payloadHash signatures approvals).Nodup :=
    (h approvals hsealed.approved).filter _
  exact absurd (hmany.trans (hnodup.subperm hsub).length_le) (Nat.not_le.mpr hfew)

/-! ## New certificates -/

omit [Interpreter D] [Coercion D] in
lemma field_dictValue (items : List (String × PyValue D)) (name : String) :
    field (dictValue items) name = PySequence.getItem items name := by
  change PySequence.getItem (stringItems (items.map fun item =>
    (.str (toPyStr item.1), item.2))) (toPyStr name) = PySequence.getItem items name
  induction items with
  | nil => rfl
  | cons item items ih =>
      rw [PySequence.getItem_cons, ← ih]
      exact (PySequence.getItem_cons (toPyStr item.1) item.2 _ _).trans
        (by simp only [toPyStr_injective.eq_iff]; rfl)

omit [Interpreter D] [Coercion D] in
lemma roleOf_name (role : Role) : roleOf (strValue role.name : PyValue D) = some role := by
  change (Role.all.find? fun other => toPyStr role.name = toPyStr other.name) = some role
  cases role <;> simp [Role.all, toPyStr_injective.eq_iff, Role.name]

lemma Role.name_injective : Function.Injective Role.name := by
  intro role other h
  cases role <;> cases other <;> first | rfl | exact absurd h (by decide)

lemma getItem_graph {signature : Role → String} {roles : List Role} {role : Role}
    (h : role ∈ roles) :
    PySequence.getItem (roles.map fun role => (role, signature role)) role =
      some (signature role) := by
  induction roles with
  | nil => cases h
  | cons first roles ih =>
      rw [List.map_cons, PySequence.getItem_cons]
      by_cases hmem : role ∈ roles
      · rw [ih hmem, Option.some_or]
      · obtain rfl := (List.mem_cons.mp h).resolve_right hmem
        rw [PySequence.getItem_eq_none (by simpa using hmem), if_pos rfl, Option.none_or]

omit [Interpreter D] [Coercion D] in
lemma field_signatures {signature : Role → String} {roles : List Role} {role : Role}
    (h : role ∈ roles) :
    field (dictValue ((PySequence.fromPairs (roles.map fun role => (role, signature role))).map
      fun signed => (signed.1.name, (strValue signed.2 : PyValue D)))) role.name =
        some (strValue (signature role)) := by
  rw [field_dictValue]
  refine PySequence.getItem_of_mem ?_ (List.mem_map.mpr ⟨(role, signature role), ?_, rfl⟩)
  · rw [List.map_map]
    have hnodup := PySequence.fromPairs_nodup (roles.map fun role => (role, signature role))
    simpa [Function.comp_def] using hnodup.map Role.name_injective
  · refine PySequence.getItem_mem ?_
    rw [PySequence.getItem_fromPairs, getItem_graph h]

lemma signAll_ready {keys : Keys} (hkeys : s.secretKeys = some keys) {text : String}
    (htext : hashText payloadHash = some text) (roles : List Role) :
    signAll secrets payloadHash s roles = (s, some (roles.map fun role =>
      (role, hexdigest (role.name ++ ":" ++ text ++ ":" ++ keys.secret role)))) := by
  induction roles with
  | nil => rfl
  | cons role roles ih =>
      rw [signAll, generate_ready hkeys, htext]
      simp only [Option.map_some, ih]
      rfl

/-- Signatures come from keys that were loaded, of a hash that has a text. -/
lemma signAll_eq_some {roles : List Role} {next : Session} {signatures : List (Role × String)}
    (h : signAll secrets payloadHash s roles = (next, some signatures)) (hroles : roles ≠ []) :
    ∃ keys text, (s.memberKeys secrets).2 = some keys ∧ hashText payloadHash = some text ∧
      next = (s.memberKeys secrets).1 ∧ signatures = roles.map fun role =>
        (role, hexdigest (role.name ++ ":" ++ text ++ ":" ++ keys.secret role)) := by
  obtain ⟨role, roles, rfl⟩ := List.exists_cons_of_ne_nil hroles
  cases hkeys : (s.memberKeys secrets).2 with
  | none =>
      rw [signAll, generateMemberSignature] at h
      simp [hkeys] at h
  | some keys =>
      have hready := (memberKeys_loaded hkeys).1
      cases htext : hashText payloadHash with
      | none =>
          rw [signAll, generate_loaded hkeys, generate_ready hready, htext] at h
          cases h
      | some text =>
          have hloaded : signAll secrets payloadHash s (role :: roles) =
              signAll secrets payloadHash (s.memberKeys secrets).1 (role :: roles) := by
            rw [signAll, signAll, generate_loaded hkeys]
          rw [hloaded, signAll_ready hready htext] at h
          obtain ⟨rfl, hsignatures⟩ := Prod.mk.inj h
          exact ⟨keys, text, rfl, rfl, rfl, (Option.some.inj hsignatures).symm⟩

omit [Interpreter D] [Coercion D] in
lemma filterMap_roleOf_names (roles : List Role) :
    (roles.map fun role => (strValue role.name : PyValue D)).filterMap roleOf = roles := by
  rw [List.filterMap_map]
  conv_rhs => rw [← List.filterMap_some (l := roles)]
  exact List.filterMap_congr fun role _ => roleOf_name role

/-- The parts of a new certificate. -/
lemma create_eq_some {payloadHash timestamp : String} {approvedRoles : List String}
    {certificate : PyValue D}
    (h : (createConsensusCertificate secrets s payloadHash approvedRoles timestamp).2 =
      some certificate) :
    ∃ keys text signature, ∃ roles : List Role, (s.memberKeys secrets).2 = some keys ∧
      hashText (strValue payloadHash : PyValue D) = some text ∧ 3 ≤ roles.length ∧
      (∀ role ∈ roles, s.quarantined role = false) ∧
      masterSignature (s.memberKeys secrets).1 (strValue payloadHash : PyValue D) roles =
        some signature ∧
      (createConsensusCertificate (D := D) secrets s payloadHash approvedRoles timestamp).1 =
        (s.memberKeys secrets).1 ∧
      certificate = dictValue
        [("payload_hash", strValue payloadHash),
         ("approvals", .list (roles.map fun role => strValue role.name)),
         ("signatures", dictValue ((PySequence.fromPairs (roles.map fun role =>
            (role, hexdigest (role.name ++ ":" ++ text ++ ":" ++ keys.secret role)))).map
              fun signed => (signed.1.name, strValue signed.2))),
         ("consensus_signature", strValue signature),
         ("timestamp", strValue timestamp)] := by
  unfold createConsensusCertificate at h ⊢
  dsimp only at h ⊢
  generalize hroles : ((approvedRoles.filterMap fun role => Role.ofName role.toLower).filter
    fun role => !s.quarantined role) = roles at h ⊢
  split_ifs at h ⊢ with hfew
  rw [Nat.not_lt] at hfew
  have hne : roles ≠ [] := by
    rintro rfl
    exact absurd hfew (by decide)
  split at h
  · cases h
  · rename_i next signatures hsigned
    obtain ⟨keys, text, hkeys, htext, rfl, rfl⟩ := signAll_eq_some hsigned hne
    obtain ⟨signature, hmaster, rfl⟩ := Option.map_eq_some_iff.mp h
    refine ⟨keys, text, signature, roles, hkeys, htext, hfew, fun role hmem => ?_, hmaster,
      rfl, rfl⟩
    rw [← hroles] at hmem
    simpa using (List.mem_filter.mp hmem).2

/-- The same keys are used, for the same members. -/
structure Agrees (secrets : Secrets) (s t : Session) : Prop where
  keys : (t.memberKeys secrets).2 = (s.memberKeys secrets).2
  consensusKey : (t.memberKeys secrets).1.consensusKey = (s.memberKeys secrets).1.consensusKey
  quarantined : t.quarantined = s.quarantined

lemma Agrees.refl (secrets : Secrets) (s : Session) : Agrees secrets s s := ⟨rfl, rfl, rfl⟩

lemma Agrees.loaded {t next : Session} (h : Agrees secrets s t) {keys : Keys}
    (hkeys : (t.memberKeys secrets).2 = some keys) (hnext : next.secretKeys = some keys)
    (hconsensus : next.consensusKey = (t.memberKeys secrets).1.consensusKey)
    (hquarantined : next.quarantined = t.quarantined) : Agrees secrets s next where
  keys := by rw [memberKeys_of_some hnext, ← h.keys, hkeys]
  consensusKey := by
    rw [memberKeys_of_some hnext, hconsensus]
    exact h.consensusKey
  quarantined := hquarantined.trans h.quarantined

/-- A new certificate passes the check, which draws no key, as long as the keys stay. -/
theorem verify_created {t : Session} {payloadHash timestamp : String} {approvedRoles : List String}
    {certificate : PyValue D}
    (h : (createConsensusCertificate secrets s payloadHash approvedRoles timestamp).2 =
      some certificate) (hagrees : Agrees secrets s t) :
    ∃ next, verifyConsensusCertificate secrets t certificate = (next, true) ∧
      Agrees secrets s next ∧ next.rotations = t.rotations := by
  obtain ⟨keys, text, signature, roles, hkeys, htext, hmany, hfree, hmaster, -, rfl⟩ :=
    create_eq_some h
  rw [← hagrees.keys] at hkeys
  have hmaster' : masterSignature (t.memberKeys secrets).1 (strValue payloadHash : PyValue D) roles =
      some signature := by
    rw [masterSignature, hagrees.consensusKey]
    exact hmaster
  obtain ⟨hready, hquarantined, -, hrotations⟩ := memberKeys_loaded hkeys
  have hnamed := filterMap_roleOf_names (D := D) roles
  set approvals : List (PyValue D) := roles.map fun role => strValue role.name with happrovals
  set signatureOf : Role → String := fun role =>
    hexdigest (role.name ++ ":" ++ text ++ ":" ++ keys.secret role) with hsignature
  obtain ⟨items, hitems⟩ : ∃ items, dictValue ((PySequence.fromPairs (roles.map fun role =>
      (role, signatureOf role))).map fun signed =>
        (signed.1.name, (strValue signed.2 : PyValue D))) = .dict items := ⟨_, rfl⟩
  have hright : ∀ role ∈ roles, signed secrets (t.memberKeys secrets).1 (strValue payloadHash)
      items role = true := by
    intro role hrole
    have hlookup : lookup items role.name = some (strValue (signatureOf role)) := by
      have hfield := @field_signatures D signatureOf roles role hrole
      rwa [hitems] at hfield
    simp only [signed, generate_ready hready, htext, Option.map_some, hlookup]
    exact decide_eq_true rfl
  have hfree' : ∀ role ∈ roles, t.quarantined role = false := by
    rw [hagrees.quarantined]
    exact hfree
  have hcounted : counted secrets (t.memberKeys secrets).1 (strValue payloadHash) items approvals =
      roles := by
    rw [counted, hnamed]
    refine List.filter_eq_self.mpr fun role hrole => ?_
    rw [hquarantined, hfree' role hrole, hright role hrole]
    rfl
  have hcalm : Calm secrets (t.memberKeys secrets).1 (strValue payloadHash) items approvals := by
    intro role hrole _ hwrong
    rw [hnamed] at hrole
    exact absurd (hright role hrole) (by simp [hwrong])
  obtain ⟨failures, hchecked⟩ := checkApprovals_calm hready htext hcalm
  obtain ⟨first, hfirst⟩ := List.exists_mem_of_length_pos (Nat.lt_of_lt_of_le (by decide) hmany)
  have hloaded : checkApprovals secrets (strValue payloadHash) (.dict items) t approvals =
      ({ (t.memberKeys secrets).1 with failuresCount := failures }, some roles) := by
    rw [checkApprovals_loaded hkeys ⟨first, hnamed.symm ▸ hfirst, hfree' first hfirst⟩, hchecked,
      hcounted]
  have hconsensus : isText (some (strValue signature : PyValue D)) signature = true :=
    decide_eq_true rfl
  have hfew : ¬ roles.length < Role.majorityNeeded := Nat.not_lt.mpr hmany
  have hsealed : masterSignature { (t.memberKeys secrets).1 with failuresCount := failures }
      (strValue payloadHash : PyValue D) roles = some signature := hmaster'
  refine ⟨{ (t.memberKeys secrets).1 with failuresCount := failures }, ?_,
    hagrees.loaded hkeys hready rfl hquarantined, hrotations⟩
  rw [hitems]
  unfold verifyConsensusCertificate
  simp only [field_dictValue, PySequence.getItem_cons, PySequence.getItem_nil]
  simp [elements, hloaded, hfew, hsealed, hconsensus]

/-- Making a certificate loads the keys, and nothing else. -/
lemma create_agrees {payloadHash timestamp : String} {approvedRoles : List String}
    {certificate : PyValue D}
    (h : (createConsensusCertificate secrets s payloadHash approvedRoles timestamp).2 =
      some certificate) :
    Agrees secrets s
      (createConsensusCertificate (D := D) secrets s payloadHash approvedRoles timestamp).1 := by
  obtain ⟨keys, -, -, -, hkeys, -, -, -, -, hsession, -⟩ := create_eq_some h
  obtain ⟨hready, hquarantined, -, -⟩ := memberKeys_loaded hkeys
  rw [hsession]
  exact (Agrees.refl secrets s).loaded hkeys hready rfl hquarantined

/-! ## One member for all -/

def testKeys : Keys where
  secret role := "test-only:" ++ role.name
  nonempty role := by cases role <;> decide

def testSecrets : Secrets where
  configured := some testKeys
  configuredConsensus := some "test-only"
  tokens _ := testKeys
  consensusToken _ := "test-only"

/-- What `create_consensus_certificate` makes of these approvals. -/
def testCertificate (approvedRoles : List String) : PyValue Empty :=
  (createConsensusCertificate testSecrets {} "a1" approvedRoles "t1").2.getD .none

lemma testCertificate_created {approvedRoles : List String}
    (h : (createConsensusCertificate (D := Empty) testSecrets {} "a1" approvedRoles
      "t1").2.isSome = true) :
    (createConsensusCertificate (D := Empty) testSecrets {} "a1" approvedRoles "t1").2 =
      some (testCertificate approvedRoles) := by
  obtain ⟨certificate, hcertificate⟩ := Option.isSome_iff_exists.mp h
  rw [testCertificate, hcertificate, Option.getD_some]

/-- The approval of one member, given three times, makes a certificate that passes the check. -/
theorem repeated_approval_passes :
    (createConsensusCertificate (D := Empty) testSecrets {} "a1" ["ceo", "CEO", "ceo"]
        "t1").2.isSome = true ∧
      (verifyConsensusCertificate testSecrets {} (testCertificate ["ceo", "CEO", "ceo"])).2 =
        true ∧
      ¬ Majority testSecrets {} (testCertificate ["ceo", "CEO", "ceo"]) := by
  have hcreated : (createConsensusCertificate (D := Empty) testSecrets {} "a1"
      ["ceo", "CEO", "ceo"] "t1").2.isSome = true := by decide +kernel
  obtain ⟨next, hverified, -⟩ :=
    verify_created (testCertificate_created hcreated) (Agrees.refl testSecrets {})
  refine ⟨hcreated, by rw [hverified], ?_⟩
  unfold Majority
  decide +kernel

lemma members_created : (createConsensusCertificate (D := Empty) testSecrets {} "a1"
    ["ceo", "cto", "dev"] "t1").2 = some (testCertificate ["ceo", "cto", "dev"]) :=
  testCertificate_created (by decide +kernel)

/-- A check that quarantines nobody draws no key. -/
lemma unguessed_of_steady
    (h : (verifyConsensusCertificate secrets s certificate).1.rotations = s.rotations) :
    Unguessed secrets s certificate := by
  intro payloadHash approvals signatures next valid expected hhash happrovals hsignatures hcheck
    hrotated hmaster
  by_contra hconsensus
  rw [Bool.not_eq_false] at hconsensus
  obtain ⟨value, hvalue, helements⟩ := Option.bind_eq_some_iff.mp happrovals
  obtain ⟨signature, hsignature⟩ := isText_eq_true hconsensus
  simp only [verifyConsensusCertificate, hhash, hvalue, hsignatures, hsignature, helements,
    hcheck] at h
  split_ifs at h
  · exact hrotated h
  · exact hrotated h

theorem majority_iff_members :
    ((verifyConsensusCertificate testSecrets {} (testCertificate ["ceo", "cto", "dev"])).2 = true →
        Majority testSecrets {} (testCertificate ["ceo", "cto", "dev"])) ↔
      ¬ Repeats testSecrets {} (testCertificate ["ceo", "cto", "dev"]) := by
  obtain ⟨next, hverified, -, hsteady⟩ :=
    verify_created members_created (Agrees.refl testSecrets {})
  refine majority_iff (unguessed_of_steady ?_)
  rw [hverified]
  exact hsteady

end AgentSystem.Consensus
