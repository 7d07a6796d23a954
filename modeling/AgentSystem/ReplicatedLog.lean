import Mathlib

/-!
# Logs replicated under elected leaders

An abstract protocol over arbitrary nodes, entries and terms. A node votes at most once in a
term, a quorum of votes elects the leader of a term, only that leader extends the log of the
term, and every other node replaces its log by one that keeps all it shares with the leader.
The state carries the history that the safety argument needs: the ballots with the log held
when each was cast, the log a leader was elected with, and how much of it each node confirmed.
-/
namespace AgentSystem.ReplicatedLog

/-- A family of node sets any two of which meet. -/
structure Quorums (Node : Type*) where
  IsQuorum : Set Node → Prop
  meet : ∀ {P Q : Set Node}, IsQuorum P → IsQuorum Q → ∃ n, n ∈ P ∧ n ∈ Q

/-- The sets that contain a majority of the members. -/
def majority {Node : Type*} [DecidableEq Node] (members : List Node) : Quorums Node where
  IsQuorum S := ∃ l : List Node, l.Nodup ∧ l ⊆ members ∧ members.length / 2 + 1 ≤ l.length ∧
    ∀ n ∈ l, n ∈ S
  meet := by
    rintro P Q ⟨l, hl, hlm, hlen, hP⟩ ⟨m, hm, hmm, hmen, hQ⟩
    have hsub : ∀ {k : List Node}, k ⊆ members → k.toFinset ⊆ members.toFinset :=
      fun hk x hx => List.mem_toFinset.mpr (hk (List.mem_toFinset.mp hx))
    have hall := List.toFinset_card_le members
    obtain ⟨n, hn⟩ := Finset.inter_nonempty_of_card_lt_card_add_card (hsub hlm) (hsub hmm) (by
      rw [List.toFinset_card_of_nodup hl, List.toFinset_card_of_nodup hm]
      omega)
    obtain ⟨hnl, hnm⟩ := Finset.mem_inter.mp hn
    exact ⟨n, hP n (List.mem_toFinset.mp hnl), hQ n (List.mem_toFinset.mp hnm)⟩

structure State (Node Entry Term : Type*) where
  term : Node → Term
  log : Node → List Entry
  leader : Term → Option Node
  electorate : Term → Set Node
  startLog : Term → List Entry
  leaderLog : Term → List Entry
  ballot : Node → Term → Option Node
  ballotLog : Node → Term → List Entry
  acked : Node → Term → ℕ

variable {Node Entry Term : Type*}

/-- The comparison of last entries by which a voter accepts a candidate's log. -/
def UpToDate [LT Term] (termOf : Entry → Term) (a b : List Entry) : Prop :=
  ∃ x ∈ a.getLast?, ∃ y ∈ b.getLast?,
    termOf y < termOf x ∨ (termOf y = termOf x ∧ b.length ≤ a.length)

namespace State

/-- Every node starts in the root term with the same base log, confirmed by all. -/
def initial [DecidableEq Term] (root : Term) (base : List Entry) : State Node Entry Term where
  term := fun _ => root
  log := fun _ => base
  leader := fun _ => none
  electorate := fun _ => ∅
  startLog := fun _ => []
  leaderLog := Function.update (fun _ => []) root base
  ballot := fun _ _ => none
  ballotLog := fun _ _ => []
  acked := fun _ => Function.update (fun _ => 0) root base.length

variable [DecidableEq Node]

def setTerm (s : State Node Entry Term) (n : Node) (T : Term) : State Node Entry Term :=
  { s with term := Function.update s.term n T }

def setLog (s : State Node Entry Term) (n : Node) (l : List Entry) : State Node Entry Term :=
  { s with log := Function.update s.log n l }

variable [DecidableEq Term]

def castBallot (s : State Node Entry Term) (n c : Node) : State Node Entry Term :=
  { s with
    ballot := Function.update s.ballot n (Function.update (s.ballot n) (s.term n) (some c))
    ballotLog := Function.update s.ballotLog n
      (Function.update (s.ballotLog n) (s.term n) (s.log n)) }

def seat (s : State Node Entry Term) (n : Node) (voters : Set Node) : State Node Entry Term :=
  { s with
    leader := Function.update s.leader (s.term n) (some n)
    electorate := Function.update s.electorate (s.term n) voters
    startLog := Function.update s.startLog (s.term n) (s.log n)
    leaderLog := Function.update s.leaderLog (s.term n) (s.log n) }

def extend (s : State Node Entry Term) (n : Node) (e : Entry) : State Node Entry Term :=
  { s with
    log := Function.update s.log n (s.log n ++ [e])
    leaderLog := Function.update s.leaderLog (s.term n) (s.log n ++ [e]) }

def confirm (s : State Node Entry Term) (n : Node) (k : ℕ) : State Node Entry Term :=
  { s with
    acked := Function.update s.acked n
      (Function.update (s.acked n) (s.term n) (max (s.acked n (s.term n)) k)) }

end State

/-- A log each of whose entries heads a beginning of the log of that entry's term. -/
def Sound (termOf : Entry → Term) (s : State Node Entry Term) (l : List Entry) : Prop :=
  ∀ ρ e, ρ ++ [e] <+: l → ρ ++ [e] <+: s.leaderLog (termOf e)

section Sound

variable {termOf : Entry → Term}

theorem Sound.of_isPrefix {s : State Node Entry Term} {l m : List Entry}
    (hm : Sound termOf s m) (hl : l <+: m) : Sound termOf s l :=
  fun ρ e he => hm ρ e (he.trans hl)

/-- Soundness only refers to the leaders' logs, and survives their growth. -/
theorem Sound.mono {s t : State Node Entry Term} {l : List Entry} (hl : Sound termOf s l)
    (hgrow : ∀ T, s.leaderLog T <+: t.leaderLog T) : Sound termOf t l :=
  fun ρ e he => (hl ρ e he).trans (hgrow _)

/-- Log matching: two sound logs with equal terms at one place agree up to that place. -/
theorem Sound.matching {s : State Node Entry Term} {l m ρ σ : List Entry} {x y : Entry}
    (hl : Sound termOf s l) (hm : Sound termOf s m) (hx : ρ ++ [x] <+: l)
    (hy : σ ++ [y] <+: m) (hlen : ρ.length = σ.length) (hterm : termOf x = termOf y) :
    ρ ++ [x] = σ ++ [y] := by
  have hx' := hl ρ x hx
  have hy' := hm σ y hy
  rw [← hterm] at hy'
  have hle : (ρ ++ [x]).length ≤ (σ ++ [y]).length := by simp [hlen]
  have hpre := List.prefix_of_prefix_length_le hx' hy' hle
  exact hpre.eq_of_length (by simp [hlen])

/-- Log matching by position. -/
theorem Sound.take_eq {s : State Node Entry Term} {l m : List Entry} {k : ℕ} {x y : Entry}
    (hl : Sound termOf s l) (hm : Sound termOf s m) (hx : l[k]? = some x) (hy : m[k]? = some y)
    (hterm : termOf x = termOf y) : l.take (k + 1) = m.take (k + 1) := by
  obtain ⟨hk, rfl⟩ := List.getElem?_eq_some_iff.mp hx
  obtain ⟨hk', rfl⟩ := List.getElem?_eq_some_iff.mp hy
  rw [← List.take_concat_get' l k hk, ← List.take_concat_get' m k hk']
  refine hl.matching hm ?_ ?_ ?_ hterm
  · rw [List.take_concat_get']
    exact List.take_prefix _ _
  · rw [List.take_concat_get']
    exact List.take_prefix _ _
  · rw [List.length_take_of_le hk.le, List.length_take_of_le hk'.le]

end Sound

section Initial

variable [DecidableEq Term] {root : Term} {base : List Entry}

theorem initial_leaderLog (T : Term) :
    (State.initial root base : State Node Entry Term).leaderLog T =
      if T = root then base else [] := by
  simp [State.initial, Function.update_apply]

theorem initial_acked (v : Node) (T : Term) :
    (State.initial root base).acked v T = if T = root then base.length else 0 := by
  simp [State.initial, Function.update_apply]

end Initial

variable [DecidableEq Node] [LinearOrder Term] (Q : Quorums Node) (termOf : Entry → Term)

/-- One move of node `n`. Terms, votes and logs change only through these six moves. -/
inductive Step (n : Node) : State Node Entry Term → State Node Entry Term → Prop
  | advance {s : State Node Entry Term} (T : Term) (later : s.term n ≤ T) :
      Step n s (s.setTerm n T)
  | vote {s : State Node Entry Term} (c : Node) (vacant : s.leaderLog (s.term n) = [])
      (fresh : s.ballot n (s.term n) = none) : Step n s (s.castBallot n c)
  | elect {s : State Node Entry Term} (voters : Set Node)
      (vacant : s.leaderLog (s.term n) = []) (nonempty : s.log n ≠ [])
      (earlier : ∀ e ∈ s.log n, termOf e < s.term n) (quorum : Q.IsQuorum voters)
      (won : ∀ v ∈ voters, s.ballot v (s.term n) = some n ∧
        UpToDate termOf (s.log n) (s.ballotLog v (s.term n))) : Step n s (s.seat n voters)
  | append {s : State Node Entry Term} (e : Entry) (seated : s.leader (s.term n) = some n)
      (own : termOf e = s.term n) : Step n s (s.extend n e)
  | adopt {s : State Node Entry Term} (l : List Entry) (led : s.leaderLog (s.term n) ≠ [])
      (source : l <+: s.log n ∨ l <+: s.leaderLog (s.term n))
      (keeps : ∀ ρ, ρ <+: s.log n → ρ <+: s.leaderLog (s.term n) → ρ <+: l) :
      Step n s (s.setLog n l)
  | ack {s : State Node Entry Term} (k : ℕ) (led : s.leaderLog (s.term n) ≠ [])
      (bound : k ≤ (s.leaderLog (s.term n)).length)
      (held : (s.leaderLog (s.term n)).take k <+: s.log n) : Step n s (s.confirm n k)

/-- Any number of moves of one node. -/
abbrev Steps (n : Node) : State Node Entry Term → State Node Entry Term → Prop :=
  Relation.ReflTransGen (Step Q termOf n)

structure Inv (root : Term) (s : State Node Entry Term) : Prop where
  logSound : ∀ n, Sound termOf s (s.log n)
  leaderLogSound : ∀ T, Sound termOf s (s.leaderLog T)
  ballotLogSound : ∀ v T c, s.ballot v T = some c → Sound termOf s (s.ballotLog v T)
  owned : ∀ T, ∃ own, s.leaderLog T = s.startLog T ++ own ∧ ∀ e ∈ own, termOf e = T
  startBefore : ∀ T, ∀ e ∈ s.startLog T, termOf e < T
  logTerm : ∀ n, ∀ e ∈ s.log n, termOf e ≤ s.term n
  rootLe : ∀ n, root ≤ s.term n
  rootLeLed : ∀ T, s.leaderLog T ≠ [] → root ≤ T
  rooted : s.leaderLog root ≠ []
  seated : ∀ T, s.leaderLog T ≠ [] → T = root ∨ ∃ c, s.leader T = some c
  leaderLed : ∀ T c, s.leader T = some c → s.leaderLog T ≠ []
  leaderTerm : ∀ T c, s.leader T = some c → T ≤ s.term c
  leaderHolds : ∀ n, s.leader (s.term n) = some n → s.log n = s.leaderLog (s.term n)
  ballotTerm : ∀ v T c, s.ballot v T = some c → T ≤ s.term v
  elected : ∀ T c, s.leader T = some c → Q.IsQuorum (s.electorate T) ∧
    ∀ v ∈ s.electorate T, s.ballot v T = some c ∧
      UpToDate termOf (s.startLog T) (s.ballotLog v T)
  ackedTerm : ∀ v T, 0 < s.acked v T → T ≤ s.term v
  ackedBound : ∀ v T, s.acked v T ≤ (s.leaderLog T).length
  /-- What a node confirmed stays in its log as long as every later leader started with it. -/
  kept : ∀ v T π, π <+: s.leaderLog T → π.length ≤ s.acked v T →
    (∀ T', T < T' → T' ≤ s.term v → s.leaderLog T' ≠ [] → π <+: s.startLog T') →
    π <+: s.log v
  /-- The same of the log a node held when it cast a later ballot. -/
  ballotKept : ∀ v T T' c π, s.ballot v T' = some c → π <+: s.leaderLog T →
    π.length ≤ s.acked v T → T < T' →
    (∀ U, T < U → U < T' → s.leaderLog U ≠ [] → π <+: s.startLog U) →
    π <+: s.ballotLog v T'

omit [DecidableEq Node] in
theorem inv_initial {root : Term} {base : List Entry} (hbase : base ≠ [])
    (hroot : ∀ e ∈ base, termOf e = root) :
    Inv Q termOf root (State.initial root base : State Node Entry Term) := by
  have hsound : Sound termOf (State.initial root base : State Node Entry Term) base := by
    intro ρ e he
    have hmem : e ∈ base := he.subset (by simp)
    rw [initial_leaderLog, if_pos (hroot e hmem)]
    exact he
  constructor
  case logSound => exact fun _ => hsound
  case leaderLogSound =>
    intro T
    rw [initial_leaderLog]
    split_ifs
    · exact hsound
    · intro ρ e he
      simp at he
  case owned =>
    intro T
    refine ⟨if T = root then base else [], initial_leaderLog T, ?_⟩
    split_ifs with h
    · subst h
      exact hroot
    · simp
  case logTerm => exact fun _ e he => (hroot e he).le
  case rootLeLed =>
    intro T hT
    by_contra hlt
    exact hT (by rw [initial_leaderLog, if_neg (fun h => hlt h.ge)])
  case rooted => simpa [initial_leaderLog] using hbase
  case seated =>
    intro T hT
    by_contra hne
    exact hT (by rw [initial_leaderLog, if_neg (fun h => hne (Or.inl h))])
  case ackedTerm =>
    intro v T hT
    rw [initial_acked] at hT
    split_ifs at hT with h
    · exact h.le
    · exact absurd hT (lt_irrefl 0)
  case ackedBound =>
    intro v T
    rw [initial_acked, initial_leaderLog]
    split_ifs <;> simp
  case kept =>
    intro v T π hπ _ _
    rw [initial_leaderLog] at hπ
    split_ifs at hπ with h
    · exact hπ
    · rw [List.prefix_nil.mp hπ]
      exact List.nil_prefix
  all_goals simp [State.initial]

end AgentSystem.ReplicatedLog
