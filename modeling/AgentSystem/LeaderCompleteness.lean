import AgentSystem.ReplicatedLogSteps

/-!
# Leader completeness and agreement of the replicated log

A beginning of a leader's log that ends in that leader's own term and that a quorum confirmed is
part of what every later leader started with. Hence any two committed beginnings are comparable,
and both persist while the history grows.
-/
namespace AgentSystem.ReplicatedLog
set_option linter.unusedSectionVars false

variable {Node Entry Term : Type*} [DecidableEq Node] [LinearOrder Term]
variable {Q : Quorums Node} {termOf : Entry → Term} {root : Term}
variable {s t u : State Node Entry Term} {n : Node}

/-- The heart of the argument: what a voter's log contains carries over to a candidate's log
that passed the comparison, once it is known of the leaders of the terms in between. -/
theorem Inv.carry (h : Inv Q termOf root s) {a b π : List Entry} {e : Entry} {T : Term}
    (ha : Sound termOf s a) (hb : Sound termOf s b) (hup : UpToDate termOf a b)
    (he : termOf e = T) (hπ : π ++ [e] <+: b)
    (hlater : ∀ x ∈ a.getLast?, T < termOf x → s.leaderLog (termOf x) ≠ [] →
      π ++ [e] <+: s.startLog (termOf x)) : π ++ [e] <+: a := by
  obtain ⟨x, hx, y, hy, hcmp⟩ := hup
  obtain ⟨α, rfl⟩ := List.getLast?_eq_some_iff.mp hx
  obtain ⟨β, rfl⟩ := List.getLast?_eq_some_iff.mp hy
  have hxl : α ++ [x] <+: s.leaderLog (termOf x) := ha α x List.prefix_rfl
  have hyl : β ++ [y] <+: s.leaderLog (termOf y) := hb β y List.prefix_rfl
  have hTy : T ≤ termOf y := he ▸ h.termOf_le (hyl.subset (hπ.subset (by simp)))
  rcases hcmp with hlt | ⟨heq, hlen⟩
  · -- the candidate's last entry is of a later term, whose leader started with the beginning
    have hled : s.leaderLog (termOf x) ≠ [] := by
      intro hnil
      rw [hnil] at hxl
      simp at hxl
    have hstart := hlater x hx (hTy.trans_lt hlt) hled
    have hlong : s.startLog (termOf x) <+: α ++ [x] := by
      rcases List.prefix_or_prefix_of_prefix (h.start_isPrefix (termOf x)) hxl with hpre | hpre
      · exact hpre
      · have hmem : x ∈ s.startLog (termOf x) := hpre.subset (by simp)
        exact absurd (h.startBefore _ x hmem) (lt_irrefl _)
    exact hstart.trans hlong
  · -- both logs begin the same leader's log, and the candidate's is at least as long
    rw [heq] at hyl
    exact hπ.trans (List.prefix_of_prefix_length_le hyl hxl hlen)

/-- A quorum confirmed this beginning of the log of term `T`, which ends in an entry of `T`. -/
def Chosen (Q : Quorums Node) (termOf : Entry → Term) (s : State Node Entry Term) (T : Term)
    (l : List Entry) : Prop :=
  ∃ π e, l = π ++ [e] ∧ termOf e = T ∧ l <+: s.leaderLog T ∧
    ∃ voters, Q.IsQuorum voters ∧ ∀ v ∈ voters, l.length ≤ s.acked v T

/-- A beginning of something chosen in a term up to `T`. -/
def Committed (Q : Quorums Node) (termOf : Entry → Term) (s : State Node Entry Term) (T : Term)
    (l : List Entry) : Prop :=
  ∃ T₀ ≤ T, ∃ m, Chosen Q termOf s T₀ m ∧ l <+: m

theorem Chosen.led {T : Term} {l : List Entry} (hl : Chosen Q termOf s T l) :
    s.leaderLog T ≠ [] := by
  obtain ⟨π, e, rfl, _, hpre, _⟩ := hl
  intro hnil
  rw [hnil] at hpre
  simp at hpre

section Completeness

variable [LocallyFiniteOrder Term]

/-- Leader completeness, by induction on the number of terms after the one of the choice. -/
theorem Inv.completeness (h : Inv Q termOf root s) {T T' : Term} {l : List Entry}
    (hl : Chosen Q termOf s T l) (hlt : T < T') (hled : s.leaderLog T' ≠ []) :
    l <+: s.startLog T' := by
  obtain ⟨π, e, rfl, he, hpre, voters, hquorum, hacked⟩ := hl
  induction hk : (Finset.Ioc T T').card using Nat.strong_induction_on generalizing T' with
  | _ k ih =>
    subst hk
    have hbetween : ∀ U, T < U → U < T' → s.leaderLog U ≠ [] → π ++ [e] <+: s.startLog U := by
      intro U hU hUlt hUled
      have hsub : Finset.Ioc T U ⊂ Finset.Ioc T T' := by
        refine Finset.ssubset_iff_subset_ne.mpr ⟨Finset.Ioc_subset_Ioc_right hUlt.le, ?_⟩
        intro heq
        have hmem : T' ∈ Finset.Ioc T U := heq ▸ Finset.mem_Ioc.mpr ⟨hlt, le_rfl⟩
        exact absurd (Finset.mem_Ioc.mp hmem).2 (not_le.mpr hUlt)
      exact ih _ (Finset.card_lt_card hsub) hU hUled rfl
    have hrootlt : T' ≠ root := by
      rintro rfl
      refine absurd (h.rootLeLed T ?_) (not_le.mpr hlt)
      intro hnil
      rw [hnil] at hpre
      simp at hpre
    obtain ⟨c, hc⟩ := (h.seated T' hled).resolve_left hrootlt
    obtain ⟨helect, hvotes⟩ := h.elected T' c hc
    -- a node that both confirmed the beginning and voted for the leader of the later term
    obtain ⟨v, hv, hv'⟩ := Q.meet hquorum helect
    obtain ⟨hballot, hup⟩ := hvotes v hv'
    have hkept : π ++ [e] <+: s.ballotLog v T' :=
      h.ballotKept v T T' c _ hballot hpre (hacked v hv) hlt hbetween
    have hstart : Sound termOf s (s.startLog T') :=
      (h.leaderLogSound T').of_isPrefix (h.start_isPrefix T')
    refine h.carry hstart (h.ballotLogSound v T' c hballot) hup he hkept ?_
    intro x hx hTx hxled
    exact hbetween _ hTx (h.startBefore T' x (List.mem_of_getLast? hx)) hxled

/-- Every leader from the term of the choice on holds what was chosen. -/
theorem Inv.chosen_isPrefix (h : Inv Q termOf root s) {T T' : Term} {l : List Entry}
    (hl : Chosen Q termOf s T l) (hle : T ≤ T') (hled : s.leaderLog T' ≠ []) :
    l <+: s.leaderLog T' := by
  rcases hle.eq_or_lt with rfl | hlt
  · obtain ⟨_, _, _, _, hpre, _⟩ := hl
    exact hpre
  · exact (h.completeness hl hlt hled).trans (h.start_isPrefix T')

theorem Inv.committed_isPrefix (h : Inv Q termOf root s) {T T' : Term} {l : List Entry}
    (hl : Committed Q termOf s T l) (hle : T ≤ T') (hled : s.leaderLog T' ≠ []) :
    l <+: s.leaderLog T' := by
  obtain ⟨T₀, hT₀, m, hm, hlm⟩ := hl
  exact hlm.trans (h.chosen_isPrefix hm (hT₀.trans hle) hled)

/-- State-machine safety in the abstract: committed beginnings never diverge. -/
theorem Inv.agreement (h : Inv Q termOf root s) {T T' : Term} {l m : List Entry}
    (hl : Committed Q termOf s T l) (hm : Committed Q termOf s T' m) : l <+: m ∨ m <+: l := by
  obtain ⟨U, _, l', hl', hll⟩ := hl
  obtain ⟨U', _, m', hm', hmm⟩ := hm
  rcases le_total U U' with hle | hle
  · have hl'' := hll.trans (h.chosen_isPrefix hl' hle hm'.led)
    have hm'' := hmm.trans (h.chosen_isPrefix hm' le_rfl hm'.led)
    exact List.prefix_or_prefix_of_prefix hl'' hm''
  · have hl'' := hll.trans (h.chosen_isPrefix hl' le_rfl hl'.led)
    have hm'' := hmm.trans (h.chosen_isPrefix hm' hle hl'.led)
    exact List.prefix_or_prefix_of_prefix hl'' hm''

end Completeness

/-- The recorded history only grows. -/
structure Grows (s t : State Node Entry Term) : Prop where
  term : ∀ n, s.term n ≤ t.term n
  leader : ∀ T c, s.leader T = some c → t.leader T = some c
  leaderFixed : ∀ T, s.leaderLog T ≠ [] → t.leader T = s.leader T
  electorate : ∀ T c, s.leader T = some c → t.electorate T = s.electorate T
  startLog : ∀ T, s.leaderLog T ≠ [] → t.startLog T = s.startLog T
  leaderLog : ∀ T, s.leaderLog T <+: t.leaderLog T
  ballot : ∀ v T c, s.ballot v T = some c → t.ballot v T = some c
  ballotLog : ∀ v T c, s.ballot v T = some c → t.ballotLog v T = s.ballotLog v T
  acked : ∀ v T, s.acked v T ≤ t.acked v T

theorem Grows.refl (s : State Node Entry Term) : Grows s s := by
  constructor <;> intros <;> first | assumption | rfl

theorem Grows.led (h : Grows s t) {T : Term} (hled : s.leaderLog T ≠ []) :
    t.leaderLog T ≠ [] := by
  intro hnil
  have := h.leaderLog T
  rw [hnil] at this
  exact hled (List.prefix_nil.mp this)

theorem Grows.trans (h : Grows s t) (h' : Grows t u) : Grows s u where
  term n := (h.term n).trans (h'.term n)
  leader T c hc := h'.leader T c (h.leader T c hc)
  leaderFixed T hT := (h'.leaderFixed T (h.led hT)).trans (h.leaderFixed T hT)
  electorate T c hc := (h'.electorate T c (h.leader T c hc)).trans (h.electorate T c hc)
  startLog T hT := (h'.startLog T (h.led hT)).trans (h.startLog T hT)
  leaderLog T := (h.leaderLog T).trans (h'.leaderLog T)
  ballot v T c hc := h'.ballot v T c (h.ballot v T c hc)
  ballotLog v T c hc := (h'.ballotLog v T c (h.ballot v T c hc)).trans (h.ballotLog v T c hc)
  acked v T := (h.acked v T).trans (h'.acked v T)

theorem Chosen.mono (hgrow : Grows s t) {T : Term} {l : List Entry}
    (hl : Chosen Q termOf s T l) : Chosen Q termOf t T l := by
  obtain ⟨π, e, heq, he, hpre, voters, hquorum, hacked⟩ := hl
  exact ⟨π, e, heq, he, hpre.trans (hgrow.leaderLog T), voters, hquorum,
    fun v hv => (hacked v hv).trans (hgrow.acked v T)⟩

theorem Committed.mono (hgrow : Grows s t) {T T' : Term} (hle : T ≤ T') {l : List Entry}
    (hl : Committed Q termOf s T l) : Committed Q termOf t T' l := by
  obtain ⟨T₀, hT₀, m, hm, hlm⟩ := hl
  exact ⟨T₀, hT₀.trans hle, m, hm.mono hgrow, hlm⟩

/-- A move of node `n` leaves the other nodes' own records as they were. -/
structure Elsewhere (n : Node) (s t : State Node Entry Term) : Prop where
  term : ∀ m, m ≠ n → t.term m = s.term m
  log : ∀ m, m ≠ n → t.log m = s.log m
  ballot : ∀ m, m ≠ n → t.ballot m = s.ballot m
  leader : ∀ m, m ≠ n → ∀ T, t.leader T = some m → s.leader T = some m

theorem Elsewhere.trans (h : Elsewhere n s t) (h' : Elsewhere n t u) : Elsewhere n s u where
  term m hm := (h'.term m hm).trans (h.term m hm)
  log m hm := (h'.log m hm).trans (h.log m hm)
  ballot m hm := (h'.ballot m hm).trans (h.ballot m hm)
  leader m hm T hT := h.leader m hm T (h'.leader m hm T hT)

theorem Elsewhere.refl (n : Node) (s : State Node Entry Term) : Elsewhere n s s := by
  constructor <;> intros <;> first | assumption | rfl

theorem Inv.grows_step (h : Inv Q termOf root s) (hst : Step Q termOf n s t) : Grows s t := by
  cases hst with
  | advance T later =>
    refine { Grows.refl s with term := fun m => ?_ }
    by_cases hm : m = n
    · subst hm
      simpa [State.setTerm] using later
    · simp [State.setTerm, hm]
  | vote c vacant fresh =>
    have hne : ∀ v T d, s.ballot v T = some d → ¬ (v = n ∧ T = s.term n) := by
      rintro v T d hd ⟨rfl, rfl⟩
      rw [fresh] at hd
      cases hd
    refine { Grows.refl s with ballot := fun v T d hd => ?_, ballotLog := fun v T d hd => ?_ }
    all_goals
      have := hne v T d hd
      by_cases hv : v = n
      · subst hv
        simp_all [State.castBallot]
      · simp_all [State.castBallot]
  | elect voters vacant nonempty earlier quorum won =>
    have hne : ∀ T c, s.leader T = some c → T ≠ s.term n := by
      rintro T c hc rfl
      exact h.leaderLed _ c hc vacant
    refine { Grows.refl s with
      leader := fun T c hc => ?_
      leaderFixed := fun T hT => ?_
      electorate := fun T c hc => ?_
      startLog := fun T hT => ?_
      leaderLog := seat_grows vacant voters }
    · rw [seat_leader, if_neg (hne T c hc)]
      exact hc
    · rw [seat_leader, if_neg]
      rintro rfl
      exact hT vacant
    · rw [seat_electorate, if_neg (hne T c hc)]
    · rw [seat_startLog, if_neg]
      rintro rfl
      exact hT vacant
  | append e seated own =>
    exact { Grows.refl s with leaderLog := extend_grows (h.leaderHolds n seated) e }
  | adopt l led source keeps => exact { Grows.refl s with }
  | ack k led bound held =>
    refine { Grows.refl s with acked := fun v T => ?_ }
    rw [confirm_acked]
    split_ifs with heq
    · rw [heq.1, heq.2]
      exact le_max_left _ _
    · exact le_rfl

theorem Inv.grows (h : Inv Q termOf root s) (hst : Steps Q termOf n s t) : Grows s t := by
  induction hst with
  | refl => exact Grows.refl s
  | tail hsteps hstep ih => exact ih.trans ((h.steps hsteps).grows_step hstep)

theorem elsewhere_step (hst : Step Q termOf n s t) : Elsewhere n s t := by
  cases hst with
  | elect voters vacant nonempty earlier quorum won =>
    refine { Elsewhere.refl n s with leader := fun m hm T hT => ?_ }
    rw [seat_leader] at hT
    split_ifs at hT
    · exact absurd (Option.some.inj hT).symm hm
    · exact hT
  | _ =>
    constructor <;> intro m hm <;>
      simp_all [State.setTerm, State.castBallot, State.extend, State.setLog, State.confirm]

theorem elsewhere (hst : Steps Q termOf n s t) : Elsewhere n s t := by
  induction hst with
  | refl => exact Elsewhere.refl n s
  | tail _ hstep ih => exact ih.trans (elsewhere_step hstep)

/-- A node keeps what it holds of the committed entries, whoever moves. -/
theorem Inv.held_step [LocallyFiniteOrder Term] (h : Inv Q termOf root s)
    (hst : Step Q termOf n s t) {m : Node} {l : List Entry}
    (hl : Committed Q termOf s (s.term m) l) (hheld : l <+: s.log m) : l <+: t.log m := by
  by_cases hm : m = n
  · subst hm
    cases hst with
    | append e seated own => exact hheld.trans (by simp [State.extend])
    | adopt l' led source keeps =>
      have hled := h.committed_isPrefix hl le_rfl led
      simpa [State.setLog] using keeps l hheld hled
    | _ => simpa [State.setTerm, State.castBallot, State.seat, State.confirm] using hheld
  · rw [(elsewhere_step hst).log m hm]
    exact hheld

theorem Inv.held [LocallyFiniteOrder Term] (h : Inv Q termOf root s)
    (hst : Steps Q termOf n s t) {m : Node} {l : List Entry}
    (hl : Committed Q termOf s (s.term m) l) (hheld : l <+: s.log m) : l <+: t.log m := by
  induction hst with
  | refl => exact hheld
  | tail hsteps hstep ih =>
    have hgrow := h.grows hsteps
    exact (h.steps hsteps).held_step hstep (hl.mono hgrow (hgrow.term m)) ih

end AgentSystem.ReplicatedLog
