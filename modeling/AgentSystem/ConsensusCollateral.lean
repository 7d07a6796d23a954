import AgentSystem.ConsensusMajority

/-!
# Failures of honest members

The check of a certificate records a failure for each approval that does not fit the keys of the
moment. A third failure draws new keys in the middle of the loop, and the signatures after it that
were right when the check began are failures too.
-/
namespace AgentSystem.Consensus

open Json Sha256 Audit

variable {D : Type} [Interpreter D] [Coercion D] (secrets : Secrets) (s : Session)

/-- The certificate has the signature that the member would give when the check begins. -/
def Matches (certificate : PyValue D) (role : Role) : Prop :=
  ∃ payloadHash signatures, field certificate "payload_hash" = some payloadHash ∧
    field certificate "signatures" = some (.dict signatures) ∧
    signed secrets s payloadHash signatures role = true

/-- The check records failures only for members whose signatures do not match. -/
def NoCollateral (certificate : PyValue D) : Prop :=
  ∀ role, (verifyConsensusCertificate secrets s certificate).1.failuresCount role ≠
    s.failuresCount role → ¬Matches secrets s certificate role

/-- No approval with a right signature comes after the third failure of a member. -/
def Spared (payloadHash : PyValue D) (signatures : List (PyKey D × PyValue D))
    (approvals : List (PyValue D)) : Prop :=
  ∀ before approval after role, approvals = before ++ approval :: after →
    roleOf approval = some role → s.quarantined role = false →
      signed secrets s payloadHash signatures role = true →
        Calm secrets s payloadHash signatures before

/-- No key that is drawn from now on gives a signature that is in the dictionary. -/
def Renewed (payloadHash : PyValue D) (signatures : List (PyKey D × PyValue D)) : Prop :=
  ∀ n, s.rotations ≤ n → ∀ role text, hashText payloadHash = some text →
    isText (lookup signatures role.name)
      (hexdigest (role.name ++ ":" ++ text ++ ":" ++ (secrets.tokens n).secret role)) = false

/-- The check of the certificate has no such approvals. -/
def SparesHonest (certificate : PyValue D) : Prop :=
  ∀ payloadHash approvals signatures, field certificate "payload_hash" = some payloadHash →
    (field certificate "approvals").bind elements = some approvals →
      field certificate "signatures" = some (.dict signatures) →
        (field certificate "consensus_signature").isSome →
          Spared secrets s payloadHash signatures approvals

/-- No key that is drawn from now on made a signature of the certificate. -/
def FreshKeys (certificate : PyValue D) : Prop :=
  ∀ payloadHash signatures, field certificate "payload_hash" = some payloadHash →
    field certificate "signatures" = some (.dict signatures) →
      Renewed secrets s payloadHash signatures

variable {secrets s} {payloadHash : PyValue D} {signatures : List (PyKey D × PyValue D)}
  {approvals : List (PyValue D)}

/-! ## What the loop leaves -/

/-- What has become of a session: failures are added, who is newly quarantined has failed, and new
keys are drawn keys. -/
structure Later (secrets : Secrets) (s s' : Session) : Prop where
  failures : ∀ role, s.failuresCount role ≤ s'.failuresCount role
  quarantined : ∀ role, s'.quarantined role = true →
    s.quarantined role = true ∨ s.failuresCount role < s'.failuresCount role
  stays : ∀ role, s.quarantined role = true → s'.quarantined role = true
  rotations : s.rotations ≤ s'.rotations
  keys : (s'.rotations = s.rotations ∧ s'.secretKeys = s.secretKeys) ∨
    ∃ n, s.rotations ≤ n ∧ s'.secretKeys = some (secrets.tokens n)

namespace Later

lemma refl (s : Session) : Later secrets s s :=
  ⟨fun _ => le_refl _, fun _ h => .inl h, fun _ h => h, le_refl _, .inl ⟨rfl, rfl⟩⟩

lemma trans {s' s'' : Session} (h : Later secrets s s') (h' : Later secrets s' s'') :
    Later secrets s s'' where
  failures role := (h.failures role).trans (h'.failures role)
  quarantined role hrole := by
    rcases h'.quarantined role hrole with hrole | hlt
    · exact (h.quarantined role hrole).imp_right fun hlt => hlt.trans_le (h'.failures role)
    · exact .inr ((h.failures role).trans_lt hlt)
  stays role hrole := h'.stays role (h.stays role hrole)
  rotations := h.rotations.trans h'.rotations
  keys := by
    rcases h'.keys with ⟨hrotations, hkeys⟩ | ⟨n, hn, hkeys⟩
    · rw [hrotations, hkeys]
      exact h.keys
    · exact .inr ⟨n, h.rotations.trans hn, hkeys⟩

variable (secrets) in
lemma countFailure (role : Role) : Later secrets s (s.countFailure role) where
  failures other := by
    by_cases h : other = role
    · subst h
      simp
    · rw [countFailure_of_ne h]
  quarantined other h := .inl h
  stays other h := h
  rotations := le_refl _
  keys := .inl ⟨rfl, rfl⟩

variable (secrets) in
/-- A failure of a member that is not quarantined. -/
lemma recordFailure {role : Role} (hfree : s.quarantined role = false) :
    Later secrets s (s.recordFailure secrets role) := by
  unfold Session.recordFailure
  dsimp only
  split_ifs
  · unfold Session.quarantineNode
    rw [if_neg (by simpa using hfree)]
    refine ⟨(countFailure secrets role).failures, fun other hother => ?_,
      fun other hother => ?_, Nat.le_succ _, .inr ⟨_, le_refl _, rfl⟩⟩
    · by_cases h : other = role
      · subst h
        exact .inr (by simp [Session.rotateSessionKeys])
      · refine .inl ?_
        simpa [Session.rotateSessionKeys, Function.update_of_ne h] using hother
    · have hne : other ≠ role := by
        rintro rfl
        exact Bool.false_ne_true (hfree.symm.trans hother)
      simpa [Session.rotateSessionKeys, Function.update_of_ne hne] using hother
  · exact countFailure secrets role

end Later

variable (secrets s) in
/-- A failure counts for the member that it is recorded for, and for no other one. -/
lemma failuresCount_recordFailure (role other : Role) :
    (s.recordFailure secrets role).failuresCount other =
      (s.countFailure role).failuresCount other := by
  unfold Session.recordFailure Session.quarantineNode
  dsimp only
  split_ifs <;> rfl

variable (secrets) in
lemma secretKeys_recordFailure {keys : Keys} (hkeys : s.secretKeys = some keys) (role : Role) :
    ∃ keys, (s.recordFailure secrets role).secretKeys = some keys := by
  unfold Session.recordFailure Session.quarantineNode
  dsimp only
  split_ifs
  · exact ⟨keys, hkeys⟩
  · exact ⟨_, rfl⟩
  · exact ⟨keys, hkeys⟩

section Ready

variable {text : String} (htext : hashText payloadHash = some text)
include htext

variable (secrets signatures approvals) in
/-- The loop from a session with keys leaves a later one with keys. -/
lemma checkApprovals_later {keys : Keys} (hkeys : s.secretKeys = some keys) :
    Later secrets s (checkApprovals secrets payloadHash (.dict signatures) s approvals).1 ∧
      ∃ keys, (checkApprovals secrets payloadHash (.dict signatures) s approvals).1.secretKeys =
        some keys := by
  induction approvals generalizing s keys with
  | nil => exact ⟨.refl s, keys, hkeys⟩
  | cons approval approvals ih =>
      by_cases hskip : ∀ role, roleOf approval = some role → s.quarantined role = true
      · rw [checkApprovals_skip hskip]
        exact ih hkeys
      · push Not at hskip
        obtain ⟨role, hrole, hfree⟩ := hskip
        rw [ne_eq, Bool.not_eq_true] at hfree
        rw [checkApprovals_cons hrole hfree hkeys htext]
        split_ifs
        · exact ih hkeys
        · obtain ⟨keys', hkeys'⟩ := secretKeys_recordFailure secrets hkeys role
          obtain ⟨hlater, hready⟩ := ih hkeys'
          exact ⟨(Later.recordFailure secrets hfree).trans hlater, hready⟩

/-- The loop over two lists one after the other. -/
lemma checkApprovals_append {keys : Keys} (hkeys : s.secretKeys = some keys)
    (more : List (PyValue D)) :
    (checkApprovals secrets payloadHash (.dict signatures) s (approvals ++ more)).1 =
      (checkApprovals secrets payloadHash (.dict signatures)
        (checkApprovals secrets payloadHash (.dict signatures) s approvals).1 more).1 := by
  induction approvals generalizing s keys with
  | nil => rfl
  | cons approval approvals ih =>
      rw [List.cons_append]
      by_cases hskip : ∀ role, roleOf approval = some role → s.quarantined role = true
      · rw [checkApprovals_skip hskip, checkApprovals_skip hskip]
        exact ih hkeys
      · push Not at hskip
        obtain ⟨role, hrole, hfree⟩ := hskip
        rw [ne_eq, Bool.not_eq_true] at hfree
        rw [checkApprovals_cons hrole hfree hkeys htext, checkApprovals_cons hrole hfree hkeys htext]
        split_ifs
        · exact ih hkeys
        · obtain ⟨keys', hkeys'⟩ := secretKeys_recordFailure secrets hkeys role
          exact ih hkeys'

/-- A failure is recorded for members that are not quarantined and that approve. -/
lemma recorded_mem {keys : Keys} (hkeys : s.secretKeys = some keys) {role : Role}
    (h : (checkApprovals secrets payloadHash (.dict signatures) s approvals).1.failuresCount role ≠
      s.failuresCount role) :
    (∃ approval ∈ approvals, roleOf approval = some role) ∧ s.quarantined role = false := by
  induction approvals generalizing s keys with
  | nil => exact absurd rfl h
  | cons approval approvals ih =>
      have hrest (h : (∃ other ∈ approvals, roleOf other = some role) ∧ s.quarantined role = false) :
          (∃ other ∈ approval :: approvals, roleOf other = some role) ∧
            s.quarantined role = false := by
        obtain ⟨⟨other, hother, hrole⟩, hfree⟩ := h
        exact ⟨⟨other, List.mem_cons_of_mem _ hother, hrole⟩, hfree⟩
      by_cases hskip : ∀ role, roleOf approval = some role → s.quarantined role = true
      · rw [checkApprovals_skip hskip] at h
        exact hrest (ih hkeys h)
      · push Not at hskip
        obtain ⟨member, hmember, hfree⟩ := hskip
        rw [ne_eq, Bool.not_eq_true] at hfree
        rw [checkApprovals_cons hmember hfree hkeys htext] at h
        split_ifs at h
        · exact hrest (ih hkeys h)
        · by_cases hsame : role = member
          · subst hsame
            exact ⟨⟨approval, List.mem_cons_self, hmember⟩, hfree⟩
          · obtain ⟨keys', hkeys'⟩ := secretKeys_recordFailure secrets hkeys member
            have hcount := failuresCount_recordFailure secrets s member role
            rw [countFailure_of_ne hsame] at hcount
            obtain ⟨hmem, hrole⟩ := ih hkeys' (by rw [hcount]; exact h)
            refine hrest ⟨hmem, Bool.eq_false_of_not_eq_true fun hquarantined => ?_⟩
            have hstays := (Later.recordFailure secrets hfree).stays role hquarantined
            exact Bool.false_ne_true (hrole.symm.trans hstays)

/-! ## When the loop spares the honest members -/

omit htext in
lemma spared_cons {approval : PyValue D}
    (h : Spared secrets s payloadHash signatures (approval :: approvals)) {s' : Session}
    (hquarantined : s'.quarantined = s.quarantined)
    (hsigned : ∀ role, signed secrets s' payloadHash signatures role =
      signed secrets s payloadHash signatures role)
    (hcalm : ∀ before, Calm secrets s payloadHash signatures (approval :: before) →
      Calm secrets s' payloadHash signatures before) :
    Spared secrets s' payloadHash signatures approvals := by
  intro before honest after role heq hrole hfree hright
  rw [hquarantined] at hfree
  rw [hsigned] at hright
  exact hcalm before
    (h (approval :: before) honest after role (by rw [heq]; rfl) hrole hfree hright)

/-- A loop that spares the honest members records failures for the others. -/
lemma wrong_of_recorded {keys : Keys} (hkeys : s.secretKeys = some keys)
    (hspared : Spared secrets s payloadHash signatures approvals) {role : Role}
    (h : (checkApprovals secrets payloadHash (.dict signatures) s approvals).1.failuresCount role ≠
      s.failuresCount role) : signed secrets s payloadHash signatures role = false := by
  induction approvals generalizing s with
  | nil => exact absurd rfl h
  | cons approval approvals ih =>
      by_cases hskip : ∀ role, roleOf approval = some role → s.quarantined role = true
      · rw [checkApprovals_skip hskip] at h
        exact ih hkeys (spared_cons hspared rfl (fun _ => rfl)
          fun _ => (skipped_approval hskip).2.mp) h
      · push Not at hskip
        obtain ⟨member, hmember, hfree⟩ := hskip
        rw [ne_eq, Bool.not_eq_true] at hfree
        rw [checkApprovals_cons hmember hfree hkeys htext] at h
        cases hsigned : signed secrets s payloadHash signatures member with
        | true =>
            rw [if_pos hsigned] at h
            exact ih hkeys (spared_cons hspared rfl (fun _ => rfl)
              fun _ => (signed_approval hmember hfree hsigned).2.mp) h
        | false =>
            rw [if_neg (by simp [hsigned])] at h
            by_cases hsame : role = member
            · exact hsame ▸ hsigned
            have hcount := failuresCount_recordFailure secrets s member role
            rw [countFailure_of_ne hsame] at hcount
            by_cases hbound : s.failuresCount member + 1 < 3
            · rw [recordFailure_eq hbound] at h hcount
              have hkeys' : (s.countFailure member).secretKeys = some keys := hkeys
              have hsame' (role : Role) : signed secrets (s.countFailure member) payloadHash
                  signatures role = signed secrets s payloadHash signatures role :=
                signed_eq rfl hkeys
              have hrest := ih hkeys' (spared_cons hspared rfl hsame' fun before hcalm =>
                ((unsigned_approval hmember hfree hsigned hkeys).2.mp hcalm).2) (by rwa [hcount])
              rwa [hsame'] at hrest
            · -- the keys are new, and no honest member comes after this approval
              obtain ⟨keys', hkeys'⟩ := secretKeys_recordFailure secrets hkeys member
              obtain ⟨⟨other, hother, hrole⟩, hopen⟩ :=
                recorded_mem htext hkeys' (by rwa [hcount])
              obtain ⟨before, after, rfl⟩ := List.append_of_mem hother
              refine Bool.eq_false_of_not_eq_true fun hright => hbound ?_
              have hunquarantined : s.quarantined role = false :=
                Bool.eq_false_of_not_eq_true fun hquarantined => Bool.false_ne_true (hopen.symm.trans
                  ((Later.recordFailure secrets hfree).stays role hquarantined))
              exact ((unsigned_approval hmember hfree hsigned hkeys).2.mp
                (hspared (approval :: before) other after role rfl hrole hunquarantined hright)).1

/-- An honest member whose approval comes after new keys have been drawn has a failure recorded. -/
lemma recorded_of_not_calm {keys : Keys} (hkeys : s.secretKeys = some keys)
    (hrenewed : Renewed secrets s payloadHash signatures) {before after : List (PyValue D)}
    {approval : PyValue D} {role : Role} (hrole : roleOf approval = some role)
    (hfree : s.quarantined role = false)
    (hcalm : ¬Calm secrets s payloadHash signatures before) :
    (checkApprovals secrets payloadHash (.dict signatures) s
      (before ++ approval :: after)).1.failuresCount role ≠ s.failuresCount role := by
  rw [checkApprovals_append htext hkeys]
  have hrotates := checkApprovals_rotates hkeys htext hcalm
  obtain ⟨hlater, keys', hkeys'⟩ :=
    checkApprovals_later secrets signatures before htext hkeys
  generalize (checkApprovals secrets payloadHash (.dict signatures) s before).1 = middle
    at hrotates hlater hkeys'
  obtain ⟨hafter, -⟩ := checkApprovals_later secrets signatures (approval :: after) htext
    hkeys'
  cases hquarantined : middle.quarantined role with
  | true =>
      have hlt := (hlater.quarantined role hquarantined).resolve_left
        fun h => Bool.false_ne_true (hfree.symm.trans h)
      exact (hlt.trans_le (hafter.failures role)).ne'
  | false =>
      obtain ⟨n, hn, hdrawn⟩ := hlater.keys.resolve_left fun h => hrotates.ne' h.1
      have hwrong : signed secrets middle payloadHash signatures role = false := by
        rw [signed, generate_ready hdrawn, htext]
        exact hrenewed n hn role text htext
      obtain ⟨keys'', hkeys''⟩ := secretKeys_recordFailure secrets hkeys' role
      have hrest := (checkApprovals_later secrets signatures after htext hkeys'').1.failures role
      rw [failuresCount_recordFailure, countFailure_self] at hrest
      rw [checkApprovals_cons hrole hquarantined hkeys' htext, if_neg (by simp [hwrong])]
      have hbefore := hlater.failures role
      omega

end Ready

/-! ## Any session -/

omit [Coercion D] in
lemma memberKeys_failures : (s.memberKeys secrets).1.failuresCount = s.failuresCount := by
  unfold Session.memberKeys Session.loadConfiguredKeys
  cases s.secretKeys with
  | some keys => rfl
  | none =>
      cases secrets.configured with
      | none => rfl
      | some keys => cases secrets.configuredConsensus <;> rfl

/-- Without keys, a text to sign or a dictionary of signatures the loop raises or finds nobody to
check. -/
lemma checkApprovals_unready {signaturesValue : PyValue D}
    (h : ∀ keys text signatures, (s.memberKeys secrets).2 = some keys →
      hashText payloadHash = some text → signaturesValue ≠ .dict signatures) :
    (checkApprovals secrets payloadHash signaturesValue s approvals).1.failuresCount =
      s.failuresCount := by
  induction approvals with
  | nil => rfl
  | cons approval approvals ih =>
      by_cases hskip : ∀ role, roleOf approval = some role → s.quarantined role = true
      · rw [checkApprovals_skip hskip]
        exact ih
      · push Not at hskip
        obtain ⟨role, hrole, hfree⟩ := hskip
        rw [checkApprovals, hrole]
        simp only [if_neg hfree]
        have hsession : (generateMemberSignature secrets s role payloadHash).1.failuresCount =
            s.failuresCount := memberKeys_failures
        split
        · rename_i next expected signatures hgenerate
          obtain ⟨keys, hkeys, htext⟩ := Option.bind_eq_some_iff.mp (congrArg Prod.snd hgenerate)
          obtain ⟨text, htext, -⟩ := Option.map_eq_some_iff.mp htext
          exact absurd rfl (h keys text signatures hkeys htext)
        · rename_i next signature value hgenerate _
          rw [hgenerate] at hsession
          exact hsession

/-- Approvals that name nobody, or quarantined members, change nothing. -/
lemma checkApprovals_skipped {signaturesValue : PyValue D}
    (h : ∀ approval ∈ approvals, ∀ role, roleOf approval = some role → s.quarantined role = true) :
    (checkApprovals secrets payloadHash signaturesValue s approvals).1 = s := by
  induction approvals with
  | nil => rfl
  | cons approval approvals ih =>
      rw [checkApprovals_skip (h approval List.mem_cons_self)]
      exact ih fun other hother => h other (List.mem_cons_of_mem _ hother)

/-- What the condition says does not depend on whether the keys are loaded yet. -/
lemma spared_loaded {keys : Keys} (h : (s.memberKeys secrets).2 = some keys) :
    Spared secrets (s.memberKeys secrets).1 payloadHash signatures approvals ↔
      Spared secrets s payloadHash signatures approvals := by
  have hsigned (role : Role) : signed secrets (s.memberKeys secrets).1 payloadHash signatures role =
      signed secrets s payloadHash signatures role := by
    rw [signed, signed, ← generate_loaded h]
  simp only [Spared, hsigned, (memberKeys_loaded h).2.1, (counted_loaded h).2]

/-- The loop records failures just for members whose signatures are wrong if it spares the honest
ones. -/
lemma loop_iff_spared (hrenewed : Renewed secrets s payloadHash signatures) :
    (∀ role, (checkApprovals secrets payloadHash (.dict signatures) s approvals).1.failuresCount
        role ≠ s.failuresCount role → signed secrets s payloadHash signatures role = false) ↔
      Spared secrets s payloadHash signatures approvals := by
  cases hloaded : (s.memberKeys secrets).2 with
  | none =>
      have hsame : (checkApprovals secrets payloadHash (.dict signatures) s
          approvals).1.failuresCount = s.failuresCount :=
        checkApprovals_unready fun keys _ _ hkeys => by rw [hloaded] at hkeys; cases hkeys
      have hunsigned (role : Role) : signed secrets s payloadHash signatures role = false := by
        simp only [signed, generateMemberSignature, hloaded, Option.bind_none]
      refine iff_of_true (fun role _ => hunsigned role) fun before _ _ role _ _ _ hright => ?_
      rw [hunsigned] at hright
      cases hright
  | some keys =>
      obtain ⟨hready, hquarantined, hfailures, hrotations⟩ := memberKeys_loaded hloaded
      have hsigned (role : Role) : signed secrets (s.memberKeys secrets).1 payloadHash signatures
          role = signed secrets s payloadHash signatures role := by
        rw [signed, signed, ← generate_loaded hloaded]
      cases htext : hashText payloadHash with
      | none =>
          have hsame : (checkApprovals secrets payloadHash (.dict signatures) s
              approvals).1.failuresCount = s.failuresCount :=
            checkApprovals_unready fun _ _ _ _ h => by rw [htext] at h; cases h
          have hunsigned (role : Role) : signed secrets s payloadHash signatures role = false := by
            rw [← hsigned, signed, generate_ready hready, htext, Option.map_none]
          refine iff_of_true (fun role _ => hunsigned role) fun before _ _ role _ _ _ hright => ?_
          rw [hunsigned] at hright
          cases hright
      | some text =>
          by_cases hmember : ∃ role ∈ approvals.filterMap roleOf, s.quarantined role = false
          · rw [checkApprovals_loaded hloaded hmember, ← spared_loaded hloaded]
            constructor
            · intro h before honest after role happrovals hrole hfree hright
              by_contra hcalm
              have hrecorded : (checkApprovals _ _ _ _ (before ++ honest :: after)).1.failuresCount
                  role ≠ _ :=
                recorded_of_not_calm htext hready (fun n hn => hrenewed n (hrotations ▸ hn)) hrole
                  hfree hcalm
              rw [← happrovals, hfailures] at hrecorded
              have hwrong := h role hrecorded
              rw [← hsigned, hright] at hwrong
              cases hwrong
            · intro hspared role hrecorded
              rw [← hsigned]
              exact wrong_of_recorded htext hready hspared (by rwa [hfailures])
          · have hskip (approval) (happroval : approval ∈ approvals) (role)
                (hrole : roleOf approval = some role) : s.quarantined role = true := by
              by_contra hfree
              exact hmember ⟨role, List.mem_filterMap.mpr ⟨approval, happroval, hrole⟩,
                by simpa using hfree⟩
            have hsame : (checkApprovals secrets payloadHash (.dict signatures) s
                approvals).1 = s := checkApprovals_skipped hskip
            refine iff_of_true (fun role h => absurd (by rw [hsame]) h) ?_
            rintro before honest after role rfl hrole hfree -
            rw [hskip honest (by simp) role hrole] at hfree
            cases hfree

/-! ## The check -/

/-- What the check leaves is what its loop leaves. -/
lemma verify_session {certificate payloadHash signaturesValue : PyValue D}
    (hhash : field certificate "payload_hash" = some payloadHash)
    (happrovals : (field certificate "approvals").bind elements = some approvals)
    (hsignatures : field certificate "signatures" = some signaturesValue)
    (hconsensus : (field certificate "consensus_signature").isSome) :
    (verifyConsensusCertificate secrets s certificate).1 =
      (checkApprovals secrets payloadHash signaturesValue s approvals).1 := by
  obtain ⟨value, hvalue, helements⟩ := Option.bind_eq_some_iff.mp happrovals
  obtain ⟨signature, hsignature⟩ := Option.isSome_iff_exists.mp hconsensus
  simp only [verifyConsensusCertificate, hhash, hvalue, hsignatures, hsignature, helements]
  split
  · rename_i hcheck
    rw [hcheck]
  · rename_i hcheck
    rw [hcheck]
    split_ifs <;> rfl

/-- Without all of its parts a certificate is refused before the loop. -/
lemma verify_partless {certificate : PyValue D}
    (h : ∀ payloadHash approvals signaturesValue,
      field certificate "payload_hash" = some payloadHash →
        (field certificate "approvals").bind elements = some approvals →
          field certificate "signatures" = some signaturesValue →
            (field certificate "consensus_signature").isSome = false) :
    (verifyConsensusCertificate secrets s certificate).1 = s := by
  unfold verifyConsensusCertificate
  split
  · rename_i payloadHash value signaturesValue signature hhash hvalue hsignatures hsignature
    cases helements : elements value with
    | none => rfl
    | some approvals =>
        have hnone := h payloadHash approvals signaturesValue hhash
          (by rw [hvalue, Option.bind_some, helements]) hsignatures
        rw [hsignature] at hnone
        cases hnone
  · rfl


/-- One check records failures only for members whose signatures do not match exactly when no right
signature comes after the third failure of a member. -/
theorem noCollateral_iff {certificate : PyValue D}
    (hfresh : FreshKeys secrets s certificate) :
    NoCollateral secrets s certificate ↔ SparesHonest secrets s certificate := by
  constructor
  · intro h payloadHash approvals signatures hhash happrovals hsignatures hconsensus
    apply (loop_iff_spared (hfresh payloadHash signatures hhash hsignatures)).mp
    intro role hrecorded
    rw [← verify_session hhash happrovals hsignatures hconsensus] at hrecorded
    apply Bool.eq_false_of_not_eq_true
    intro hright
    exact h role hrecorded ⟨payloadHash, signatures, hhash, hsignatures, hright⟩
  · rintro h role hrecorded ⟨payloadHash, signatures, hhash, hsignatures, hright⟩
    by_cases hparts : ∃ approvals, (field certificate "approvals").bind elements = some approvals ∧
        (field certificate "consensus_signature").isSome
    · obtain ⟨approvals, happrovals, hconsensus⟩ := hparts
      have hspared := h payloadHash approvals signatures hhash happrovals hsignatures hconsensus
      rw [verify_session hhash happrovals hsignatures hconsensus] at hrecorded
      have hwrong := (loop_iff_spared (hfresh payloadHash signatures hhash hsignatures)).mpr
        hspared role hrecorded
      rw [hright] at hwrong
      cases hwrong
    · refine hrecorded (congrArg (fun s => s.failuresCount role) (verify_partless ?_))
      intro _ approvals _ _ happrovals _
      apply Bool.eq_false_of_not_eq_true
      intro hconsensus
      exact hparts ⟨approvals, happrovals, hconsensus⟩

/-! ## A signature that was right -/

/-- Whether these keys give another signature than the one of the certificate. -/
def freshFor (certificate : PyValue D) (keys : Keys) (role : Role) : Bool :=
  match field certificate "payload_hash", field certificate "signatures" with
  | some payloadHash, some (.dict signatures) =>
      match hashText payloadHash with
      | some text => !isText (lookup signatures role.name)
          (hexdigest (role.name ++ ":" ++ text ++ ":" ++ keys.secret role))
      | none => true
  | _, _ => true

lemma matches_of_endorser {certificate : PyValue D} {role : Role}
    (h : role ∈ endorsers secrets s certificate) : Matches secrets s certificate role := by
  unfold endorsers at h
  split at h
  · rename_i payloadHash signatures hhash hsignatures
    have hrole := (List.mem_filter.mp h).2
    rw [Bool.and_eq_true] at hrole
    exact ⟨payloadHash, signatures, hhash, hsignatures, hrole.2⟩
  · cases h

/-- Keys that are not the configured ones. -/
def otherKeys : Keys where
  secret role := "drawn:" ++ role.name
  nonempty role := by cases role <;> decide

def rotatingSecrets : Secrets where
  configured := some testKeys
  configuredConsensus := some "test-only"
  tokens _ := otherKeys
  consensusToken _ := "drawn"

/-- A certificate with the wrong signature of one member and the right one of another. -/
def forgedCertificate : PyValue Empty :=
  dictValue
    [("payload_hash", strValue "a1"),
     ("approvals", .list [strValue "dev", strValue "ceo"]),
     ("signatures", dictValue [("dev", strValue "forged"), ("ceo", strValue
       ((generateMemberSignature rotatingSecrets {} .ceo (strValue (D := Empty) "a1")).2.getD
         ""))]),
     ("consensus_signature", strValue "forged")]

/-- The keys are loaded and a member has failed twice. -/
def failedTwice : Session where
  secretKeys := some testKeys
  consensusKey := some "test-only"
  failuresCount role := if role = .dev then 2 else 0

/-- The third failure of a member is also the first one of a member whose signature was right. -/
theorem honest_member_failed : ¬ NoCollateral rotatingSecrets failedTwice forgedCertificate := by
  intro h
  exact h .ceo (by decide +kernel) (matches_of_endorser (by decide +kernel))

/-- The drawn keys give no signature of this certificate. -/
theorem noCollateral_iff_members :
    NoCollateral rotatingSecrets {} (testCertificate ["ceo", "cto", "dev"]) ↔
      SparesHonest rotatingSecrets {} (testCertificate ["ceo", "cto", "dev"]) := by
  apply noCollateral_iff
  intro payloadHash signatures hhash hsignatures n _ role text htext
  have hfresh : ∀ role, freshFor (testCertificate ["ceo", "cto", "dev"]) otherKeys role = true := by
    intro role
    cases role <;> decide +kernel
  have hrole := hfresh role
  rw [freshFor, hhash, hsignatures] at hrole
  simp only [htext, Bool.not_eq_true'] at hrole
  exact hrole

end AgentSystem.Consensus
