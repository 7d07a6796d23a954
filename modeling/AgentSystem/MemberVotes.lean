import AgentSystem.GovernanceVote

/-!
# Votes that follow the members

No response type that a provider promises is the one that the loop looks for, so that every member that
is asked approves.
-/
namespace AgentSystem.Voting

open Json Audit Consensus

variable {D : Type} [Interpreter D] [Coercion D] {secrets : Secrets} {text : TextMethods}
  {members : Members} {s s' : Session} {payloadHash : String} {ballots : List Ballot}

/-- A provider that keeps its contract is never heard. -/
lemma vote_of_keepsContract {completion : Completion} (h : completion.KeepsContract) :
    completion.vote text = .approve := by
  cases completion with
  | raised => rfl
  | returned responseType data =>
      simp only [Completion.vote]
      rw [if_neg]
      rintro rfl
      simp [Completion.KeepsContract] at h

lemma not_answers_both {completion : Completion} (happrove : completion.Answers text "APPROVE") :
    ¬completion.Answers text "REJECT" := by
  obtain ⟨content, rfl, happrove⟩ := happrove
  rintro ⟨other, heq, hreject⟩
  cases heq
  simp only [Completion.startsWith, List.isPrefixOf_iff_prefix] at happrove hreject
  obtain ⟨rest, hrest⟩ := happrove
  obtain ⟨rest', hrest'⟩ := hreject
  rw [← hrest] at hrest'
  simp at hrest'

/-- Every ballot comes from asking its member. -/
lemma mem_askMembers {roles : List Role}
    (hrun : (askMembers D secrets text members payloadHash s roles).2 = some ballots)
    {ballot : Ballot} (hmem : ballot ∈ ballots) :
    ballot.vote = ballot.completion.vote text ∧
      ∃ before, before.quarantined ballot.role = false ∧
        ballot.completion = (members ballot.role before).2 := by
  induction roles generalizing s ballots with
  | nil =>
      cases hrun
      cases hmem
  | cons role roles ih =>
      rw [askMembers] at hrun
      split_ifs at hrun with hquarantined
      · exact ih hrun hmem
      · split at hrun
        rename_i next completion hcomplete
        split at hrun
        · cases hrun
        · rename_i signed signature hsigned
          obtain ⟨rest, hrest, rfl⟩ := Option.map_eq_some_iff.mp hrun
          rcases List.mem_cons.mp hmem with rfl | hmem
          · exact ⟨rfl, s, by simpa using hquarantined, by rw [hcomplete]⟩
          · exact ih hrest hmem

/-! ## Counting -/

/-- Members with three different roles approved in these ballots. -/
def ThreeApproved (ballots : List Ballot) : Prop :=
  ∃ roles : List Role, roles.Nodup ∧ 3 ≤ roles.length ∧
    ∀ role ∈ roles, ∃ ballot ∈ ballots, ballot.role = role ∧ ballot.vote = .approve

/-- The approvals of a proposal come from ballots, and it is accepted only after three of them. -/
structure CountsBallots (ballots : List Ballot) (proposal : Proposal D) : Prop where
  keys : (proposal.votes.map Prod.fst).Nodup
  votes : ∀ role, (role, "approve") ∈ proposal.votes →
    ∃ ballot ∈ ballots, ballot.role.name = role ∧ ballot.vote = .approve
  accepted : proposal.status = .accepted → ThreeApproved ballots

lemma mem_rolesVoting {votes : List (String × String)} {role vote : String} :
    role ∈ Governance.rolesVoting votes vote ↔ (role, vote) ∈ votes := by
  simp [Governance.rolesVoting]

omit [Interpreter D] [Coercion D] in
/-- Three approvals in the votes are ballots of three members. -/
lemma CountsBallots.threeApproved {proposal : Proposal D} (h : CountsBallots ballots proposal)
    (hthree : 3 ≤ (Governance.rolesVoting proposal.votes "approve").length) :
    ThreeApproved ballots := by
  have hnodup : (Governance.rolesVoting proposal.votes "approve").Nodup :=
    h.keys.sublist (List.filter_sublist.map Prod.fst)
  have hnames : ∀ name ∈ Governance.rolesVoting proposal.votes "approve",
      ∃ role ∈ Role.all, role.name = name := by
    intro name hname
    obtain ⟨ballot, -, hrole, -⟩ := h.votes name (mem_rolesVoting.mp hname)
    refine ⟨ballot.role, ?_, hrole⟩
    cases ballot.role <;> decide
  let approved := Role.all.filter fun role =>
    role.name ∈ Governance.rolesVoting proposal.votes "approve"
  refine ⟨approved, List.Nodup.filter _ (by decide), ?_, fun role hrole => ?_⟩
  · have hsub : Governance.rolesVoting proposal.votes "approve" ⊆ approved.map Role.name := by
      intro name hname
      obtain ⟨role, hrole, rfl⟩ := hnames name hname
      exact List.mem_map_of_mem (List.mem_filter.mpr ⟨hrole, decide_eq_true hname⟩)
    have hle := (hnodup.subperm hsub).length_le
    rw [List.length_map] at hle
    exact hthree.trans hle
  · have hvoted := of_decide_eq_true (List.mem_filter.mp hrole).2
    obtain ⟨ballot, hballot, hname, happroves⟩ := h.votes role.name (mem_rolesVoting.mp hvoted)
    exact ⟨ballot, hballot, Role.name_injective hname, happroves⟩

/-- A counted vote of a ballot. -/
lemma CountsBallots.count {proposal counted : Proposal D} {swarm : Swarm D} {timestamp : String}
    (h : CountsBallots ballots proposal)
    (hcount : (Governance.count secrets swarm proposal timestamp).2 = some counted) :
    CountsBallots ballots counted := by
  rw [Governance.count] at hcount
  split_ifs at hcount with happroved hrejected
  · split at hcount
    · cases hcount
    · split at hcount
      · cases hcount
      · cases hcount
        exact ⟨h.keys, h.votes, fun _ => h.threeApproved happroved⟩
  · cases hcount
    exact ⟨h.keys, h.votes, fun hstatus => by cases hstatus⟩
  · cases hcount
    exact h

omit [Interpreter D] [Coercion D] in
lemma CountsBallots.record {proposal : Proposal D} (h : CountsBallots ballots proposal)
    {ballot : Ballot} (hballot : ballot ∈ ballots) (signatures : List (String × String)) :
    CountsBallots ballots
      { proposal with
        votes := PySequence.setItem proposal.votes ballot.role.name ballot.vote.name
        signatures := signatures } where
  keys := PySequence.setItem_nodup h.keys _ _
  votes role hrole := by
    have hitem := PySequence.getItem_of_mem (PySequence.setItem_nodup h.keys _ _) hrole
    rw [PySequence.getItem_setItem h.keys] at hitem
    split_ifs at hitem with hsame
    · refine ⟨ballot, hballot, hsame, ?_⟩
      cases hvote : ballot.vote with
      | approve => rfl
      | reject =>
          rw [hvote] at hitem
          exact absurd (Option.some.inj hitem) (by decide)
    · exact h.votes role (PySequence.getItem_mem hitem)
  accepted := h.accepted

@[simp] lemma role_name_toLower (role : Role) : role.name.toLower = role.name := by
  cases role <;> decide +kernel

@[simp] lemma vote_name_toLower (vote : Vote) : vote.name.toLower = vote.name := by
  cases vote <;> decide +kernel

/-- The file of the proposals holds each once, and this one counts the ballots. -/
structure Counting (ballots : List Ballot) (proposalId : String) (g : Governance D) : Prop where
  keys : (g.proposals.map Prod.fst).Nodup
  counts : ∀ proposal, PySequence.getItem g.proposals proposalId = some proposal →
    CountsBallots ballots proposal

variable {g : Governance D} {proposalId timestamp : String}

lemma Counting.castVote (h : Counting ballots proposalId g) {ballot : Ballot}
    (hballot : ballot ∈ ballots) :
    Counting ballots proposalId
      (g.castVote secrets proposalId ballot.role.name ballot.vote.name ballot.signature
        timestamp).1 := by
  rw [Governance.castVote]
  split
  · exact h
  · rename_i proposal hproposal
    split
    · exact h
    · split
      · exact ⟨h.keys, h.counts⟩
      · simp only [role_name_toLower, vote_name_toLower]
        split_ifs
        · exact ⟨h.keys, h.counts⟩
        · split
          · exact ⟨h.keys, h.counts⟩
          · rename_i swarm counted hcount
            refine ⟨PySequence.setItem_nodup h.keys _ _, fun after hafter => ?_⟩
            simp only [PySequence.getItem_setItem h.keys, if_true] at hafter
            cases hafter
            exact ((h.counts proposal hproposal).record hballot _).count
              (congrArg Prod.snd hcount)

lemma Counting.castBallots (h : Counting ballots proposalId g) {cast : List Ballot}
    (hcast : ∀ ballot ∈ cast, ballot ∈ ballots) :
    Counting ballots proposalId (g.castBallots secrets proposalId timestamp cast) := by
  induction cast generalizing g with
  | nil => exact h
  | cons ballot cast ih =>
      obtain ⟨hballot, hrest⟩ := List.forall_mem_cons.mp hcast
      exact ih (h.castVote hballot) hrest

/-! ## Members -/

/-- A proposal with this hash that nobody has voted on. -/
structure Fresh (g : Governance D) (proposalId payloadHash : String) : Prop where
  keys : (g.proposals.map Prod.fst).Nodup
  fresh : PySequence.getItem g.proposals proposalId = some { payloadHash := payloadHash }

/-- The models of three members that were asked answered with an approval. -/
def ThreeAnswered (text : TextMethods) (ballots : List Ballot) : Prop :=
  ∃ roles : List Role, roles.Nodup ∧ 3 ≤ roles.length ∧
    ∀ role ∈ roles, ∃ ballot ∈ ballots, ballot.role = role ∧
      ballot.completion.Answers text "APPROVE"

variable (D secrets) in
/-- An approval is recorded only for an answer that approves, a rejection for every answer that rejects,
and the votes have a fresh proposal accepted only after three answers that approve. -/
structure FollowsMembers (text : TextMethods) (payloadHash : String) (ballots : List Ballot) :
    Prop where
  approves : ∀ ballot ∈ ballots, ballot.vote = .approve → ballot.completion.Answers text "APPROVE"
  rejects : ∀ ballot ∈ ballots, ballot.completion.Answers text "REJECT" → ballot.vote = .reject
  accepts : ∀ (g : Governance D) proposalId timestamp, Fresh g proposalId payloadHash →
    (g.castBallots secrets proposalId timestamp ballots).Accepted proposalId →
    ThreeAnswered text ballots

/-- The votes of members whose providers keep their contract follow the members exactly when the
models of all members that are asked answer with an approval. -/
theorem votes_follow_members_iff (secrets : Secrets) (text : TextMethods) (members : Members)
    (hcontract : ∀ role s, (members role s).2.KeepsContract) (s : Session) (payloadHash : String)
    (ballots : List Ballot)
    (hrun : (runGovernanceVote D secrets text members s payloadHash).2 = some ballots) :
    FollowsMembers D secrets text payloadHash ballots ↔
      ∀ ballot ∈ ballots, ballot.completion.Answers text "APPROVE" := by
  have hvotes : ∀ ballot ∈ ballots, ballot.vote = .approve := by
    intro ballot hballot
    obtain ⟨hvote, before, -, hcompletion⟩ := mem_askMembers hrun hballot
    rw [hvote]
    apply vote_of_keepsContract
    rw [hcompletion]
    exact hcontract ballot.role before
  constructor
  · exact fun h ballot hballot => h.approves ballot hballot (hvotes ballot hballot)
  · intro hanswers
    refine ⟨fun ballot hballot _ => hanswers ballot hballot, fun ballot hballot hreject => ?_,
      fun g proposalId timestamp hfresh haccepted => ?_⟩
    · exact absurd hreject (not_answers_both (hanswers ballot hballot))
    · have hcounting : Counting ballots proposalId g := by
        refine ⟨hfresh.keys, fun proposal hproposal => ?_⟩
        rw [hfresh.fresh] at hproposal
        cases hproposal
        exact ⟨List.nodup_nil, by simp, fun hstatus => by cases hstatus⟩
      obtain ⟨proposal, hproposal, hstatus⟩ := haccepted
      have hcast : Counting ballots proposalId
          (g.castBallots secrets proposalId timestamp ballots) :=
        hcounting.castBallots fun ballot hballot => hballot
      obtain ⟨roles, hnodup, hthree, hroles⟩ := (hcast.counts proposal hproposal).accepted hstatus
      refine ⟨roles, hnodup, hthree, fun role hrole => ?_⟩
      obtain ⟨ballot, hballot, hname, -⟩ := hroles role hrole
      exact ⟨ballot, hballot, hname, hanswers ballot hballot⟩

/-! ## Signed approvals -/

section Signed

variable {D : Type} [Interpreter D] [Coercion D] {secrets : Secrets}

lemma lower_name (role : Role) : role.name.toLower = role.name := by
  cases role <;> decide +kernel

lemma ofName_name (role : Role) : Role.ofName role.name = some role := by
  cases role <;> decide

/-- An approval with the right signature is counted. -/
lemma castVote_signed {g : Governance D} {proposalId signature timestamp : String}
    {proposal : Proposal D} {role : Role} {session : Session}
    (hget : PySequence.getItem g.proposals proposalId = some proposal)
    (hsigned : generateMemberSignature secrets g.swarm.session role
      (strValue proposal.payloadHash : PyValue D) = (session, some signature))
    {swarm : Swarm D} {counted : Proposal D}
    (hcount : Governance.count secrets { g.swarm with session := session }
      { proposal with
        votes := PySequence.setItem proposal.votes role.name "approve"
        signatures := PySequence.setItem proposal.signatures role.name signature } timestamp =
      (swarm, some counted)) :
    (g.castVote secrets proposalId role.name "approve" signature timestamp).1 =
      { proposals := PySequence.setItem g.proposals proposalId counted, swarm := swarm } := by
  have happrove : "approve".toLower = "approve" := by decide +kernel
  simp only [Governance.castVote, hget, lower_name, ofName_name, happrove, hsigned, hcount, ne_eq,
    not_true_eq_false, if_false]

/-- The third approval makes a certificate, which is registered. -/
lemma count_created {swarm : Swarm D} {proposal : Proposal D} {timestamp : String}
    (happroved : 3 ≤ (Governance.rolesVoting proposal.votes "approve").length)
    (hcreated : (createConsensusCertificate (D := D) secrets swarm.session proposal.payloadHash
      (Governance.rolesVoting proposal.votes "approve") timestamp).2.isSome = true) :
    ∃ swarm' certificate, Governance.count secrets swarm proposal timestamp =
      (swarm', some { proposal with status := .accepted, certificate := some certificate }) := by
  obtain ⟨certificate, hcertificate⟩ := Option.isSome_iff_exists.mp hcreated
  obtain ⟨next, hverified, -⟩ := verify_created hcertificate (create_agrees hcertificate)
  rw [Governance.count, if_pos happroved]
  cases hpair : createConsensusCertificate (D := D) secrets swarm.session proposal.payloadHash
      (Governance.rolesVoting proposal.votes "approve") timestamp with
  | mk session found =>
      rw [hpair] at hcertificate hverified
      obtain rfl : found = some certificate := hcertificate
      simp only [Swarm.registerConsensus, hverified]
      exact ⟨_, _, rfl⟩

end Signed

/-! ## Three members -/

/-- Every member answers with this text. -/
def answering (content : String) : Members :=
  fun _ s => (s, .returned "text" (.text content))

/-- Texts without blanks around them, in capitals. -/
def plainText : TextMethods := ⟨id, id⟩

/-- Two of the five members are quarantined. -/
def threeMembers : Session where
  quarantined role := role = .qa ∨ role = .cfo

def answeredBallots (content : String) : List Ballot :=
  ((runGovernanceVote Empty testSecrets plainText (answering content) threeMembers "a1").2).getD []

lemma mem_answeredBallots {content : String} {ballot : Ballot}
    (h : ballot ∈ answeredBallots content) :
    ballot.completion = .returned "text" (.text content) ∧ ballot.vote = .approve := by
  rw [answeredBallots] at h
  cases hrun : (runGovernanceVote Empty testSecrets plainText (answering content) threeMembers
      "a1").2 with
  | none =>
      rw [hrun] at h
      cases h
  | some ballots =>
      rw [hrun] at h
      obtain ⟨hvote, before, -, hcompletion⟩ := mem_askMembers hrun h
      refine ⟨hcompletion, ?_⟩
      rw [hvote, hcompletion]
      exact vote_of_keepsContract (.inl ⟨rfl, content, rfl⟩)

/-- A proposal with the hash of the run. -/
def newProposal : Governance Empty where
  proposals := [("prop_1", { payloadHash := "a1" })]
  swarm := { session := threeMembers }

def keyedSession : Session :=
  { threeMembers with secretKeys := some testKeys, consensusKey := some "test-only" }

def testSignature (role : Role) : String :=
  Sha256.hexdigest (role.name ++ ":" ++ "a1" ++ ":" ++ testKeys.secret role)

lemma generate_keyed (role : Role) : generateMemberSignature (D := Empty) testSecrets keyedSession
    role (strValue "a1") = (keyedSession, some (testSignature role)) := by
  have htext : hashText (strValue "a1" : PyValue Empty) = some "a1" := by decide +kernel
  rw [generate_ready rfl, htext]
  rfl

lemma generate_threeMembers (role : Role) : generateMemberSignature (D := Empty) testSecrets
    threeMembers role (strValue "a1") = (keyedSession, some (testSignature role)) := by
  have hkeys : (threeMembers.memberKeys testSecrets).2 = some testKeys := rfl
  rw [generate_loaded hkeys]
  exact generate_keyed role

lemma answeredBallots_eq (content : String) :
    answeredBallots content = [.ceo, .cto, .dev].map fun role =>
      ⟨role, .returned "text" (.text content), .approve, testSignature role⟩ := by
  have hthree : ∀ role, threeMembers.quarantined role = decide (role = .qa ∨ role = .cfo) :=
    fun _ => rfl
  have hkeyed : ∀ role, keyedSession.quarantined role = decide (role = .qa ∨ role = .cfo) :=
    fun _ => rfl
  simp [answeredBallots, runGovernanceVote, Role.all, askMembers, answering, hthree, hkeyed,
    generate_threeMembers, generate_keyed, Completion.vote]

/-- The proposal after the approvals of these members. -/
def approvedProposal (signature : Role → String) (roles : List Role) : Proposal Empty where
  payloadHash := "a1"
  votes := roles.map fun role => (role.name, "approve")
  signatures := roles.map fun role => (role.name, signature role)

def approvedBy (signature : Role → String) (roles : List Role) : Governance Empty where
  proposals := [("prop_1", approvedProposal signature roles)]
  swarm := { session := keyedSession }

/-- Three approvals have a new proposal accepted. -/
lemma approvals_accepted {signature : Role → String}
    (hfirst : ∀ role, generateMemberSignature (D := Empty) testSecrets threeMembers role
      (strValue "a1") = (keyedSession, some (signature role)))
    (hlater : ∀ role, generateMemberSignature (D := Empty) testSecrets keyedSession role
      (strValue "a1") = (keyedSession, some (signature role))) :
    ([.ceo, .cto, .dev].foldl (fun g role =>
      (g.castVote testSecrets "prop_1" (Role.name role) "approve" (signature role) "t1").1)
        newProposal).Accepted "prop_1" := by
  have hceo : (newProposal.castVote testSecrets "prop_1" Role.ceo.name "approve"
      (signature .ceo) "t1").1 = approvedBy signature [.ceo] :=
    castVote_signed rfl (hfirst _) rfl
  have hcto : ((approvedBy signature [.ceo]).castVote testSecrets "prop_1" Role.cto.name "approve"
      (signature .cto) "t1").1 = approvedBy signature [.ceo, .cto] :=
    castVote_signed rfl (hlater _) rfl
  have hcreated : (createConsensusCertificate (D := Empty) testSecrets keyedSession "a1"
      ["ceo", "cto", "dev"] "t1").2.isSome = true := by decide +kernel
  have hthree : 3 ≤ (Governance.rolesVoting
      (approvedProposal signature [.ceo, .cto, .dev]).votes "approve").length :=
    Nat.le_of_eq rfl
  obtain ⟨swarm, certificate, hcount⟩ :=
    @count_created Empty _ _ testSecrets ⟨keyedSession, .missing⟩ _ "t1" hthree hcreated
  have hdev : ((approvedBy signature [.ceo, .cto]).castVote testSecrets "prop_1" Role.dev.name
      "approve" (signature .dev) "t1").1 = _ :=
    castVote_signed rfl (hlater _) hcount
  simp only [List.foldl_cons, List.foldl_nil, hceo, hcto, hdev]
  exact ⟨_, rfl, rfl⟩

lemma answered_accepted (content : String) : (newProposal.castBallots testSecrets "prop_1" "t1"
    (answeredBallots content)).Accepted "prop_1" := by
  rw [answeredBallots_eq, Governance.castBallots, List.foldl_map]
  exact approvals_accepted generate_threeMembers generate_keyed

/-- Every model that is asked rejects, and the proposal is accepted. -/
theorem rejections_approved :
    (∀ ballot ∈ answeredBallots "REJECT. IT IS UNSAFE.",
      ballot.completion.Answers plainText "REJECT" ∧ ballot.vote = .approve) ∧
      Fresh newProposal "prop_1" "a1" ∧
      (newProposal.castBallots testSecrets "prop_1" "t1"
        (answeredBallots "REJECT. IT IS UNSAFE.")).Accepted "prop_1" ∧
      ¬FollowsMembers Empty testSecrets plainText "a1" (answeredBallots "REJECT. IT IS UNSAFE.") := by
  have hfresh : Fresh newProposal "prop_1" "a1" := ⟨by decide, rfl⟩
  have haccepted : (newProposal.castBallots testSecrets "prop_1" "t1"
      (answeredBallots "REJECT. IT IS UNSAFE.")).Accepted "prop_1" := answered_accepted _
  have hballots : ∀ ballot ∈ answeredBallots "REJECT. IT IS UNSAFE.",
      ballot.completion.Answers plainText "REJECT" ∧ ballot.vote = .approve :=
    fun ballot hballot =>
      ⟨⟨_, (mem_answeredBallots hballot).1, by decide +kernel⟩, (mem_answeredBallots hballot).2⟩
  refine ⟨hballots, hfresh, haccepted, fun h => ?_⟩
  obtain ⟨roles, -, hthree, hroles⟩ := h.accepts newProposal "prop_1" "t1" hfresh haccepted
  obtain ⟨role, hrole⟩ := List.exists_mem_of_length_pos (Nat.lt_of_lt_of_le (by decide) hthree)
  obtain ⟨ballot, hballot, -, happrove⟩ := hroles role hrole
  exact not_answers_both happrove (hballots ballot hballot).1

/-- Every model that is asked approves. -/
theorem approvals_follow : FollowsMembers Empty testSecrets plainText "a1"
    (answeredBallots "APPROVE. IT IS SOUND.") := by
  have hsome : (runGovernanceVote Empty testSecrets plainText (answering "APPROVE. IT IS SOUND.")
      threeMembers "a1").2.isSome = true := by
    decide +kernel
  obtain ⟨ballots, hrun⟩ := Option.isSome_iff_exists.mp hsome
  have hballots : answeredBallots "APPROVE. IT IS SOUND." = ballots := by
    rw [answeredBallots, hrun, Option.getD_some]
  rw [hballots]
  refine (votes_follow_members_iff testSecrets plainText (answering "APPROVE. IT IS SOUND.")
    (fun _ _ => .inl ⟨rfl, _, rfl⟩) threeMembers "a1" ballots hrun).mpr fun ballot hballot => ?_
  exact ⟨_, (mem_answeredBallots (hballots ▸ hballot)).1, by decide +kernel⟩

end AgentSystem.Voting
