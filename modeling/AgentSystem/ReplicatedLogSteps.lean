import AgentSystem.ReplicatedLog

/-!
# Every move keeps the invariant of the replicated log

One lemma for each of the six moves, the growth of the recorded history along them, and what a
move of one node leaves unchanged at the others.
-/
namespace AgentSystem.ReplicatedLog
set_option linter.unusedSectionVars false

variable {Node Entry Term : Type*} [DecidableEq Node] [LinearOrder Term]
variable {Q : Quorums Node} {termOf : Entry → Term} {root : Term}
variable {s t : State Node Entry Term} {n : Node}

theorem Inv.termOf_le (h : Inv Q termOf root s) {T : Term} {e : Entry}
    (he : e ∈ s.leaderLog T) : termOf e ≤ T := by
  obtain ⟨own, hown, hterm⟩ := h.owned T
  rw [hown, List.mem_append] at he
  rcases he with he | he
  · exact (h.startBefore T e he).le
  · exact (hterm e he).le

theorem Inv.start_isPrefix (h : Inv Q termOf root s) (T : Term) :
    s.startLog T <+: s.leaderLog T := by
  obtain ⟨own, hown, _⟩ := h.owned T
  exact ⟨own, hown.symm⟩

theorem Inv.setTerm (h : Inv Q termOf root s) {T : Term} (later : s.term n ≤ T) :
    Inv Q termOf root (s.setTerm n T) := by
  have hle : ∀ m, s.term m ≤ (s.setTerm n T).term m := by
    intro m
    by_cases hm : m = n
    · subst hm
      simpa [State.setTerm] using later
    · simp [State.setTerm, hm]
  refine { h with
    logTerm := fun m e he => (h.logTerm m e he).trans (hle m)
    rootLe := fun m => (h.rootLe m).trans (hle m)
    leaderTerm := fun U c hc => (h.leaderTerm U c hc).trans (hle c)
    ballotTerm := fun v U c hc => (h.ballotTerm v U c hc).trans (hle v)
    ackedTerm := fun v U hv => (h.ackedTerm v U hv).trans (hle v)
    leaderHolds := ?_
    kept := ?_ }
  · intro m hm
    have hsame : (s.setTerm n T).term m = s.term m :=
      le_antisymm (h.leaderTerm _ m hm) (hle m)
    rw [hsame] at hm ⊢
    exact h.leaderHolds m hm
  · intro v U π hπ hlen hlater
    exact h.kept v U π hπ hlen fun T' hlt hT' hled =>
      hlater T' hlt (hT'.trans (hle v)) hled

theorem Inv.castBallot (h : Inv Q termOf root s) {c : Node}
    (vacant : s.leaderLog (s.term n) = []) (fresh : s.ballot n (s.term n) = none) :
    Inv Q termOf root (s.castBallot n c) := by
  -- a recorded ballot is either the new one or one that was there before
  have hcases : ∀ v T d, (s.castBallot n c).ballot v T = some d →
      (v = n ∧ T = s.term n ∧ (s.castBallot n c).ballotLog v T = s.log n) ∨
      (s.ballot v T = some d ∧ (s.castBallot n c).ballotLog v T = s.ballotLog v T) := by
    intro v T d hd
    by_cases hv : v = n
    · subst hv
      by_cases hT : T = s.term v
      · subst hT
        exact Or.inl ⟨rfl, rfl, by simp [State.castBallot]⟩
      · right
        simpa [State.castBallot, hT] using hd
    · right
      simpa [State.castBallot, hv] using hd
  -- and what was there before is not overwritten
  have hold : ∀ v T d, s.ballot v T = some d → (s.castBallot n c).ballot v T = some d ∧
      (s.castBallot n c).ballotLog v T = s.ballotLog v T := by
    intro v T d hd
    by_cases hv : v = n
    · subst hv
      have hT : T ≠ s.term v := by
        rintro rfl
        rw [fresh] at hd
        cases hd
      simpa [State.castBallot, hT] using hd
    · simpa [State.castBallot, hv] using hd
  refine { h with
    ballotLogSound := ?_
    ballotTerm := ?_
    elected := ?_
    ballotKept := ?_ }
  · intro v T d hd
    rcases hcases v T d hd with ⟨_, _, hlog⟩ | ⟨hd', hlog⟩
    · rw [hlog]
      exact h.logSound n
    · rw [hlog]
      exact h.ballotLogSound v T d hd'
  · intro v T d hd
    rcases hcases v T d hd with ⟨rfl, rfl, _⟩ | ⟨hd', _⟩
    · exact le_rfl
    · exact h.ballotTerm v T d hd'
  · intro T d hd
    obtain ⟨hq, hvotes⟩ := h.elected T d hd
    refine ⟨hq, fun v hv => ?_⟩
    obtain ⟨hb, hup⟩ := hvotes v hv
    obtain ⟨hb', hlog⟩ := hold v T d hb
    rw [hlog]
    exact ⟨hb', hup⟩
  · intro v T T' d π hd hπ hlen hlt hlater
    rcases hcases v T' d hd with ⟨rfl, rfl, hlog⟩ | ⟨hd', hlog⟩
    · -- the term of a new ballot has no leader yet, so the log kept what earlier terms require
      rw [hlog]
      refine h.kept v T π hπ hlen fun U hU hUle hled => ?_
      refine hlater U hU (lt_of_le_of_ne hUle ?_) hled
      rintro rfl
      exact hled vacant
    · rw [hlog]
      exact h.ballotKept v T T' d π hd' hπ hlen hlt hlater

theorem seat_leaderLog (s : State Node Entry Term) (n : Node) (voters : Set Node) (T : Term) :
    (s.seat n voters).leaderLog T = if T = s.term n then s.log n else s.leaderLog T := by
  simp [State.seat, Function.update_apply]

theorem seat_startLog (s : State Node Entry Term) (n : Node) (voters : Set Node) (T : Term) :
    (s.seat n voters).startLog T = if T = s.term n then s.log n else s.startLog T := by
  simp [State.seat, Function.update_apply]

theorem seat_leader (s : State Node Entry Term) (n : Node) (voters : Set Node) (T : Term) :
    (s.seat n voters).leader T = if T = s.term n then some n else s.leader T := by
  simp [State.seat, Function.update_apply]

theorem seat_electorate (s : State Node Entry Term) (n : Node) (voters : Set Node) (T : Term) :
    (s.seat n voters).electorate T = if T = s.term n then voters else s.electorate T := by
  simp [State.seat, Function.update_apply]

theorem seat_grows (vacant : s.leaderLog (s.term n) = []) (voters : Set Node) (T : Term) :
    s.leaderLog T <+: (s.seat n voters).leaderLog T := by
  rw [seat_leaderLog]
  split_ifs with h
  · subst h
    rw [vacant]
    exact List.nil_prefix
  · exact List.prefix_rfl

theorem Inv.seat (h : Inv Q termOf root s) {voters : Set Node}
    (vacant : s.leaderLog (s.term n) = []) (nonempty : s.log n ≠ [])
    (earlier : ∀ e ∈ s.log n, termOf e < s.term n) (quorum : Q.IsQuorum voters)
    (won : ∀ v ∈ voters, s.ballot v (s.term n) = some n ∧
      UpToDate termOf (s.log n) (s.ballotLog v (s.term n))) :
    Inv Q termOf root (s.seat n voters) := by
  have hgrow := seat_grows (s := s) (n := n) vacant voters
  -- a term that already had a leader is another term, and its records are untouched
  have hother : ∀ T, s.leaderLog T ≠ [] → T ≠ s.term n := by
    rintro T hT rfl
    exact hT vacant
  have hstart : ∀ T, s.leaderLog T ≠ [] → (s.seat n voters).startLog T = s.startLog T := by
    intro T hT
    rw [seat_startLog, if_neg (hother T hT)]
  have hback : ∀ T π, π <+: (s.seat n voters).leaderLog T → ∀ v, π.length ≤ s.acked v T →
      π <+: s.leaderLog T := by
    intro T π hπ v hlen
    by_cases hT : T = s.term n
    · have hb := h.ackedBound v T
      rw [hT, vacant, List.length_nil] at hb
      rw [hT] at hlen
      have hnil : π = [] := List.length_eq_zero_iff.mp (by omega)
      rw [hnil]
      exact List.nil_prefix
    · rwa [seat_leaderLog, if_neg hT] at hπ
  constructor
  case logSound => exact fun m => (h.logSound m).mono hgrow
  case leaderLogSound =>
    intro T
    rw [seat_leaderLog]
    split_ifs
    · exact (h.logSound n).mono hgrow
    · exact (h.leaderLogSound T).mono hgrow
  case ballotLogSound => exact fun v T c hc => (h.ballotLogSound v T c hc).mono hgrow
  case owned =>
    intro T
    rw [seat_leaderLog, seat_startLog]
    split_ifs
    · exact ⟨[], by simp, by simp⟩
    · exact h.owned T
  case startBefore =>
    intro T e he
    rw [seat_startLog] at he
    split_ifs at he with hT
    · rw [hT]
      exact earlier e he
    · exact h.startBefore T e he
  case logTerm => exact h.logTerm
  case rootLe => exact h.rootLe
  case rootLeLed =>
    intro T hT
    rw [seat_leaderLog] at hT
    split_ifs at hT with heq
    · rw [heq]
      exact h.rootLe n
    · exact h.rootLeLed T hT
  case rooted =>
    rw [seat_leaderLog, if_neg (hother root h.rooted)]
    exact h.rooted
  case seated =>
    intro T hT
    rw [seat_leader]
    rw [seat_leaderLog] at hT
    split_ifs at hT ⊢ with heq
    · exact Or.inr ⟨n, rfl⟩
    · exact h.seated T hT
  case leaderLed =>
    intro T c hc
    rw [seat_leader] at hc
    rw [seat_leaderLog]
    split_ifs at hc ⊢ with heq
    · exact nonempty
    · exact h.leaderLed T c hc
  case leaderTerm =>
    intro T c hc
    rw [seat_leader] at hc
    split_ifs at hc with heq
    · cases hc
      exact heq.le
    · exact h.leaderTerm T c hc
  case leaderHolds =>
    intro m hm
    change (s.seat n voters).leader (s.term m) = some m at hm
    change s.log m = (s.seat n voters).leaderLog (s.term m)
    rw [seat_leader] at hm
    rw [seat_leaderLog]
    split_ifs at hm ⊢ with heq
    · cases hm
      rfl
    · exact h.leaderHolds m hm
  case ballotTerm => exact h.ballotTerm
  case elected =>
    intro T c hc
    rw [seat_leader] at hc
    rw [seat_electorate, seat_startLog]
    split_ifs at hc ⊢ with heq
    · cases hc
      rw [heq]
      exact ⟨quorum, won⟩
    · exact h.elected T c hc
  case ackedTerm => exact h.ackedTerm
  case ackedBound => exact fun v T => (h.ackedBound v T).trans (hgrow T).length_le
  case kept =>
    intro v T π hπ hlen hlater
    refine h.kept v T π (hback T π hπ v hlen) hlen fun T' hlt hT' hled => ?_
    rw [← hstart T' hled]
    refine hlater T' hlt hT' ?_
    rw [seat_leaderLog, if_neg (hother T' hled)]
    exact hled
  case ballotKept =>
    intro v T T' c π hc hπ hlen hlt hlater
    refine h.ballotKept v T T' c π hc (hback T π hπ v hlen) hlen hlt fun U hU hUlt hled => ?_
    rw [← hstart U hled]
    refine hlater U hU hUlt ?_
    rw [seat_leaderLog, if_neg (hother U hled)]
    exact hled

theorem extend_leaderLog (s : State Node Entry Term) (n : Node) (e : Entry) (T : Term) :
    (s.extend n e).leaderLog T = if T = s.term n then s.log n ++ [e] else s.leaderLog T := by
  simp [State.extend, Function.update_apply]

theorem extend_log (s : State Node Entry Term) (n : Node) (e : Entry) (m : Node) :
    (s.extend n e).log m = if m = n then s.log n ++ [e] else s.log m := by
  simp [State.extend, Function.update_apply]

theorem extend_grows (hlog : s.log n = s.leaderLog (s.term n)) (e : Entry) (T : Term) :
    s.leaderLog T <+: (s.extend n e).leaderLog T := by
  rw [extend_leaderLog]
  split_ifs with h
  · rw [h, hlog]
    exact List.prefix_append _ _
  · exact List.prefix_rfl

theorem Inv.extend (h : Inv Q termOf root s) {e : Entry}
    (seated : s.leader (s.term n) = some n) (own : termOf e = s.term n) :
    Inv Q termOf root (s.extend n e) := by
  have hlog := h.leaderHolds n seated
  have hgrow := extend_grows (s := s) (n := n) hlog e
  have hled : ∀ T, (s.extend n e).leaderLog T ≠ [] ↔ s.leaderLog T ≠ [] := by
    intro T
    rw [extend_leaderLog]
    split_ifs with hT
    · rw [hT]
      simp [h.leaderLed _ _ seated]
    · rfl
  -- the longer log is sound because the new entry ends the log of its own term
  have hsound : Sound termOf (s.extend n e) (s.log n ++ [e]) := by
    intro ρ x hx
    rcases List.prefix_concat_iff.mp hx with heq | hpre
    · have hxe : x = e := by simpa using (List.append_inj' heq rfl).2
      rw [heq, hxe, own, extend_leaderLog, if_pos rfl]
    · exact ((h.logSound n).mono hgrow) ρ x hpre
  have hback : ∀ T π, π <+: (s.extend n e).leaderLog T → ∀ v, π.length ≤ s.acked v T →
      π <+: s.leaderLog T := fun T π hπ v hlen =>
    List.prefix_of_prefix_length_le hπ (hgrow T) (hlen.trans (h.ackedBound v T))
  constructor
  case logSound =>
    intro m
    rw [extend_log]
    split_ifs
    · exact hsound
    · exact (h.logSound m).mono hgrow
  case leaderLogSound =>
    intro T
    rw [extend_leaderLog]
    split_ifs
    · exact hsound
    · exact (h.leaderLogSound T).mono hgrow
  case ballotLogSound => exact fun v T c hc => (h.ballotLogSound v T c hc).mono hgrow
  case owned =>
    intro T
    rw [extend_leaderLog]
    obtain ⟨l, hl, hterm⟩ := h.owned T
    split_ifs with hT
    · refine ⟨l ++ [e], ?_, ?_⟩
      · change s.log n ++ [e] = s.startLog T ++ (l ++ [e])
        rw [hlog, ← hT, hl, List.append_assoc]
      · intro x hx
        rcases List.mem_append.mp hx with hx | hx
        · exact hterm x hx
        · rw [List.mem_singleton.mp hx, hT, own]
    · exact ⟨l, hl, hterm⟩
  case startBefore => exact h.startBefore
  case logTerm =>
    intro m x hx
    rw [extend_log] at hx
    split_ifs at hx with hm
    · subst hm
      rcases List.mem_append.mp hx with hx | hx
      · exact h.logTerm m x hx
      · rw [List.mem_singleton.mp hx]
        exact own.le
    · exact h.logTerm m x hx
  case rootLe => exact h.rootLe
  case rootLeLed => exact fun T hT => h.rootLeLed T ((hled T).mp hT)
  case rooted => exact (hled root).mpr h.rooted
  case seated => exact fun T hT => h.seated T ((hled T).mp hT)
  case leaderLed => exact fun T c hc => (hled T).mpr (h.leaderLed T c hc)
  case leaderTerm => exact h.leaderTerm
  case leaderHolds =>
    intro m hm
    change s.leader (s.term m) = some m at hm
    change (s.extend n e).log m = (s.extend n e).leaderLog (s.term m)
    rw [extend_log, extend_leaderLog]
    by_cases hmn : m = n
    · subst hmn
      simp
    · have hT : s.term m ≠ s.term n := by
        intro heq
        rw [heq, seated] at hm
        exact hmn (Option.some.inj hm).symm
      rw [if_neg hmn, if_neg hT]
      exact h.leaderHolds m hm
  case ballotTerm => exact h.ballotTerm
  case elected => exact h.elected
  case ackedTerm => exact h.ackedTerm
  case ackedBound => exact fun v T => (h.ackedBound v T).trans (hgrow T).length_le
  case kept =>
    intro v T π hπ hlen hlater
    have hkept := h.kept v T π (hback T π hπ v hlen) hlen fun T' hlt hT' hl =>
      hlater T' hlt hT' ((hled T').mpr hl)
    rw [extend_log]
    split_ifs with hv
    · subst hv
      exact hkept.trans (List.prefix_append _ _)
    · exact hkept
  case ballotKept =>
    intro v T T' c π hc hπ hlen hlt hlater
    exact h.ballotKept v T T' c π hc (hback T π hπ v hlen) hlen hlt fun U hU hUlt hl =>
      hlater U hU hUlt ((hled U).mpr hl)

theorem setLog_log (s : State Node Entry Term) (n : Node) (l : List Entry) (m : Node) :
    (s.setLog n l).log m = if m = n then l else s.log m := by
  simp [State.setLog, Function.update_apply]

theorem Inv.setLog (h : Inv Q termOf root s) {l : List Entry}
    (led : s.leaderLog (s.term n) ≠ [])
    (source : l <+: s.log n ∨ l <+: s.leaderLog (s.term n))
    (keeps : ∀ ρ, ρ <+: s.log n → ρ <+: s.leaderLog (s.term n) → ρ <+: l) :
    Inv Q termOf root (s.setLog n l) := by
  refine { h with
    logSound := ?_
    logTerm := ?_
    leaderHolds := ?_
    kept := ?_ }
  · intro m
    rw [setLog_log]
    split_ifs with hm
    · rcases source with hl | hl
      · exact (h.logSound n).of_isPrefix hl
      · exact (h.leaderLogSound _).of_isPrefix hl
    · exact h.logSound m
  · intro m e he
    rw [setLog_log] at he
    split_ifs at he with hm
    · subst hm
      rcases source with hl | hl
      · exact h.logTerm m e (hl.subset he)
      · exact h.termOf_le (hl.subset he)
    · exact h.logTerm m e he
  · intro m hm
    change s.leader (s.term m) = some m at hm
    change (s.setLog n l).log m = s.leaderLog (s.term m)
    have hlog := h.leaderHolds m hm
    rw [setLog_log]
    split_ifs with hmn
    · -- the leader of a term shares all of that term's log with it
      subst hmn
      have hpre : s.leaderLog (s.term m) <+: l := keeps _ (by rw [hlog]) List.prefix_rfl
      rcases source with hl | hl
      · rw [hlog] at hl
        exact (hpre.eq_of_length (le_antisymm hpre.length_le hl.length_le)).symm
      · exact (hpre.eq_of_length (le_antisymm hpre.length_le hl.length_le)).symm
    · exact hlog
  · intro v T π hπ hlen hlater
    have hkept := h.kept v T π hπ hlen hlater
    rw [setLog_log]
    split_ifs with hv
    · subst hv
      rcases Nat.eq_zero_or_pos π.length with hzero | hpos
      · rw [List.length_eq_zero_iff.mp hzero]
        exact List.nil_prefix
      · have hT : T ≤ s.term v := h.ackedTerm v T (hpos.trans_le hlen)
        rcases hT.eq_or_lt with heq | hlt
        · exact keeps π hkept (heq ▸ hπ)
        · exact keeps π hkept ((hlater _ hlt le_rfl led).trans (h.start_isPrefix _))
    · exact hkept

theorem confirm_acked (s : State Node Entry Term) (n : Node) (k : ℕ) (v : Node) (T : Term) :
    (s.confirm n k).acked v T =
      if v = n ∧ T = s.term n then max (s.acked n (s.term n)) k else s.acked v T := by
  by_cases hv : v = n
  · subst hv
    by_cases hT : T = s.term v
    · subst hT
      simp [State.confirm]
    · simp [State.confirm, hT]
  · simp [State.confirm, hv]

theorem Inv.confirm (h : Inv Q termOf root s) {k : ℕ}
    (led : s.leaderLog (s.term n) ≠ []) (bound : k ≤ (s.leaderLog (s.term n)).length)
    (held : (s.leaderLog (s.term n)).take k <+: s.log n) :
    Inv Q termOf root (s.confirm n k) := by
  refine { h with
    ackedTerm := ?_
    ackedBound := ?_
    kept := ?_
    ballotKept := ?_ }
  · intro v T hv
    rw [confirm_acked] at hv
    split_ifs at hv with heq
    · obtain ⟨rfl, rfl⟩ := heq
      exact le_rfl
    · exact h.ackedTerm v T hv
  · intro v T
    rw [confirm_acked]
    split_ifs with heq
    · rw [heq.2]
      exact max_le (h.ackedBound n _) bound
    · exact h.ackedBound v T
  · intro v T π hπ hlen hlater
    rw [confirm_acked] at hlen
    split_ifs at hlen with heq
    · obtain ⟨rfl, rfl⟩ := heq
      rcases le_max_iff.mp hlen with hlen | hlen
      · exact h.kept v _ π hπ hlen hlater
      · exact (List.prefix_take_iff.mpr ⟨hπ, hlen⟩).trans held
    · exact h.kept v T π hπ hlen hlater
  · intro v T T' c π hc hπ hlen hlt hlater
    rw [confirm_acked] at hlen
    split_ifs at hlen with heq
    · obtain ⟨rfl, rfl⟩ := heq
      exact absurd (h.ballotTerm v T' c hc) (not_le.mpr hlt)
    · exact h.ballotKept v T T' c π hc hπ hlen hlt hlater

theorem Inv.step (h : Inv Q termOf root s) (hst : Step Q termOf n s t) :
    Inv Q termOf root t := by
  cases hst with
  | advance T later => exact h.setTerm later
  | vote c vacant fresh => exact h.castBallot vacant fresh
  | elect voters vacant nonempty earlier quorum won =>
    exact h.seat vacant nonempty earlier quorum won
  | append e seated own => exact h.extend seated own
  | adopt l led source keeps => exact h.setLog led source keeps
  | ack k led bound held => exact h.confirm led bound held

theorem Inv.steps (h : Inv Q termOf root s) (hst : Steps Q termOf n s t) :
    Inv Q termOf root t := by
  induction hst with
  | refl => exact h
  | tail _ hstep ih => exact ih.step hstep

end AgentSystem.ReplicatedLog
