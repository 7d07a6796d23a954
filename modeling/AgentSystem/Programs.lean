import Mathlib

/-!
# Programs over a state

Programs that return a value or raise, leaving the state as it is then, and rules for what holds
after them.
-/
namespace AgentSystem.Programs

variable {σ ω ε α β : Type}

/-- A program over a state that returns or raises. -/
def Program (σ ε α : Type) : Type := σ → Except ε α × σ

namespace Program

instance : Monad (Program σ ε) where
  pure a := fun s => (.ok a, s)
  bind x f := fun s =>
    match x s with
    | (.ok a, s) => f a s
    | (.error e, s) => (.error e, s)

def raise (e : ε) : Program σ ε α := fun s => (.error e, s)

def read (f : σ → α) : Program σ ε α := fun s => (.ok (f s), s)

def update (f : σ → σ) : Program σ ε Unit := fun s => (.ok (), f s)

/-- `try … except`. -/
def handle (x : Program σ ε α) (handler : ε → Program σ ε α) : Program σ ε α := fun s =>
  match x s with
  | (.ok a, s) => (.ok a, s)
  | (.error e, s) => handler e s

/-- `try … finally`. -/
def cleanUp (x : Program σ ε α) (last : Program σ ε Unit) : Program σ ε α := fun s =>
  match x s with
  | (result, s) =>
      match last s with
      | (.ok _, s) => (result, s)
      | (.error e, s) => (.error e, s)

/-- The value, or `none` for an exception that goes no further. -/
def attempt (x : Program σ ε α) : Program σ ε (Option α) := fun s =>
  match x s with
  | (.ok a, s) => (.ok (some a), s)
  | (.error _, s) => (.ok none, s)

/-- A program on a part of the state. -/
def within (part : σ → ω) (put : ω → σ → σ) (x : Program ω ε α) : Program σ ε α := fun s =>
  match x (part s) with
  | (result, w) => (result, put w s)

/-- A program for each element, one after the other. -/
def collect (f : α → Program σ ε β) : List α → Program σ ε (List β)
  | [] => pure []
  | a :: as => do
      let b ← f a
      let bs ← collect f as
      pure (b :: bs)

@[simp] lemma pure_apply (a : α) (s : σ) : (pure a : Program σ ε α) s = (.ok a, s) := rfl

lemma bind_apply (x : Program σ ε α) (f : α → Program σ ε β) (s : σ) :
    (x >>= f) s =
      match x s with
      | (.ok a, s) => f a s
      | (.error e, s) => (.error e, s) := rfl

lemma bind_ok {x : Program σ ε α} {f : α → Program σ ε β} {s s' : σ} {a : α}
    (h : x s = (.ok a, s')) : (x >>= f) s = f a s' := by
  rw [bind_apply, h]

lemma bind_error {x : Program σ ε α} {f : α → Program σ ε β} {s s' : σ} {e : ε}
    (h : x s = (.error e, s')) : (x >>= f) s = (.error e, s') := by
  rw [bind_apply, h]

lemma bind_eq_ok {x : Program σ ε α} {f : α → Program σ ε β} {s s' : σ} {b : β}
    (h : (x >>= f) s = (.ok b, s')) : ∃ a s₁, x s = (.ok a, s₁) ∧ f a s₁ = (.ok b, s') := by
  rw [bind_apply] at h
  generalize x s = result at h
  obtain ⟨⟨e⟩ | ⟨a⟩, s₁⟩ := result
  · cases h
  · exact ⟨a, s₁, rfl, h⟩

instance : LawfulMonad (Program σ ε) :=
  LawfulMonad.mk' _
    (fun x => by
      funext s
      change (x >>= fun a => pure (id a)) s = x s
      rw [bind_apply]
      generalize x s = result
      obtain ⟨e | a, s'⟩ := result <;> rfl)
    (fun a f => rfl)
    (fun x f g => by
      funext s
      simp only [bind_apply]
      generalize x s = result
      obtain ⟨e | a, s'⟩ := result <;> rfl)

lemma handle_ok {x : Program σ ε α} {handler : ε → Program σ ε α} {s s' : σ} {a : α}
    (h : x s = (.ok a, s')) : x.handle handler s = (.ok a, s') := by
  unfold handle
  rw [h]

lemma handle_error {x : Program σ ε α} {handler : ε → Program σ ε α} {s s' : σ} {e : ε}
    (h : x s = (.error e, s')) : x.handle handler s = handler e s' := by
  unfold handle
  rw [h]

lemma handle_eq_ok {x : Program σ ε α} {handler : ε → Program σ ε α} {s s' : σ} {a : α}
    (h : x.handle handler s = (.ok a, s')) :
    x s = (.ok a, s') ∨ ∃ e s₁, x s = (.error e, s₁) ∧ handler e s₁ = (.ok a, s') := by
  unfold handle at h
  generalize x s = result at h
  obtain ⟨e | a', s₁⟩ := result
  · exact .inr ⟨e, s₁, rfl, h⟩
  · exact .inl h

lemma cleanUp_state (x : Program σ ε α) (last : Program σ ε Unit) (s : σ) :
    (x.cleanUp last s).2 = (last (x s).2).2 := by
  unfold cleanUp
  generalize x s = result
  obtain ⟨result, s'⟩ := result
  dsimp only
  generalize last s' = final
  obtain ⟨final, s''⟩ := final
  cases final <;> rfl

lemma collect_cons_ok {f : α → Program σ ε β} {a : α} {as : List α} {b : β} {bs : List β}
    {s s' s'' : σ} (h : f a s = (.ok b, s')) (hs : collect f as s' = (.ok bs, s'')) :
    collect f (a :: as) s = (.ok (b :: bs), s'') := by
  rw [collect, bind_ok h, bind_ok hs, pure_apply]

/-- The first exception ends a collection. -/
lemma collect_error {f : α → Program σ ε β} {before after : List α} {a : α} {bs : List β}
    {s s' s'' : σ} {e : ε} (hbefore : collect f before s = (.ok bs, s'))
    (h : f a s' = (.error e, s'')) : collect f (before ++ a :: after) s = (.error e, s'') := by
  induction before generalizing s bs with
  | nil =>
      cases hbefore
      rw [List.nil_append, collect, bind_error h]
  | cons first before ih =>
      rw [collect, bind_apply] at hbefore
      rw [List.cons_append, collect, bind_apply]
      generalize f first s = result at hbefore ⊢
      obtain ⟨⟨e⟩ | ⟨b⟩, s₁⟩ := result
      · cases hbefore
      · dsimp only at hbefore ⊢
        rw [bind_apply] at hbefore
        generalize hrest : collect f before s₁ = rest at hbefore
        obtain ⟨⟨e⟩ | ⟨bs⟩, s₂⟩ := rest
        · cases hbefore
        · cases hbefore
          exact bind_error (ih hrest)

/-- What each step keeps, in the states that the steps before it can leave, holds at the end. -/
lemma collect_induct {P : σ → Prop} {f : α → Program σ ε β} {as : List α} {s : σ} (hs : P s)
    (hstep : ∀ before a after bs s', as = before ++ a :: after →
      collect f before s = (.ok bs, s') → P s' → P (f a s').2) : P (collect f as s).2 := by
  induction as generalizing s with
  | nil => exact hs
  | cons a as ih =>
      have hfirst := hstep [] a as [] s rfl rfl hs
      rw [collect, bind_apply]
      generalize hresult : f a s = result at hfirst
      obtain ⟨⟨e⟩ | ⟨b⟩, s₁⟩ := result
      · exact hfirst
      · have hrest := ih hfirst fun before a' after bs s' heq hbefore hP =>
          hstep (a :: before) a' after (b :: bs) s' (by rw [heq, List.cons_append])
            (collect_cons_ok hresult hbefore) hP
        dsimp only
        rw [bind_apply]
        generalize collect f as s₁ = rest at hrest
        obtain ⟨⟨e⟩ | ⟨bs⟩, s₂⟩ := rest
        · exact hrest
        · exact hrest

end Program

/-! ## Pre- and postconditions -/

open Program

/-- The first holds of what a program returns, the second of what it raises. -/
def Ends (Q : α → σ → Prop) (E : ε → σ → Prop) : Except ε α × σ → Prop
  | (.ok a, s) => Q a s
  | (.error e, s) => E e s

/-- From a state with `P` a program returns with `Q` or raises with `E`. -/
def Triple (P : σ → Prop) (x : Program σ ε α) (Q : α → σ → Prop) (E : ε → σ → Prop) : Prop :=
  ∀ s, P s → Ends Q E (x s)

/-- Whatever a program does, `P` stays. -/
def Keeps (P : σ → Prop) (x : Program σ ε α) : Prop := Triple P x (fun _ => P) fun _ => P

namespace Triple

variable {P P' : σ → Prop} {x y : Program σ ε α} {Q Q' : α → σ → Prop} {E E' : ε → σ → Prop}

lemma weaken (h : Triple P x Q E) (hP : ∀ s, P' s → P s) (hQ : ∀ a s, Q a s → Q' a s)
    (hE : ∀ e s, E e s → E' e s) : Triple P' x Q' E' := by
  intro s hs
  have hends := h s (hP s hs)
  revert hends
  generalize x s = result
  obtain ⟨result, s'⟩ := result
  cases result with
  | ok a => exact hQ a s'
  | error e => exact hE e s'

lemma ret {a : α} (h : ∀ s, P s → Q a s) : Triple P (pure a : Program σ ε α) Q E := h

lemma raise {e : ε} (h : ∀ s, P s → E e s) : Triple P (raise e : Program σ ε α) Q E := h

lemma read {f : σ → α} (h : ∀ s, P s → Q (f s) s) : Triple P (read f : Program σ ε α) Q E := h

lemma update {f : σ → σ} {Q : Unit → σ → Prop} (h : ∀ s, P s → Q () (f s)) :
    Triple P (update f : Program σ ε Unit) Q E := h

lemma bind {f : α → Program σ ε β} {R : α → σ → Prop} {Q : β → σ → Prop} (hx : Triple P x R E)
    (hf : ∀ a, Triple (R a) (f a) Q E) : Triple P (x >>= f) Q E := by
  intro s hs
  have hends := hx s hs
  rw [bind_apply]
  revert hends
  generalize x s = result
  obtain ⟨result, s'⟩ := result
  cases result with
  | ok a => exact hf a s'
  | error e => exact id

lemma handle {handler : ε → Program σ ε α} {R : ε → σ → Prop} (hx : Triple P x Q R)
    (hh : ∀ e, Triple (R e) (handler e) Q E) : Triple P (x.handle handler) Q E := by
  intro s hs
  have hends := hx s hs
  unfold Program.handle
  revert hends
  generalize x s = result
  obtain ⟨result, s'⟩ := result
  cases result with
  | ok a => exact id
  | error e => exact hh e s'

lemma split {c : Prop} [Decidable c] (hx : c → Triple P x Q E) (hy : ¬c → Triple P y Q E) :
    Triple P (if c then x else y) Q E := by
  split_ifs with h
  · exact hx h
  · exact hy h

/-- What a program does from one state. -/
lemma exact (s : σ) : Triple (fun s' => s' = s) x (fun a s' => x s = (.ok a, s'))
    fun e s' => x s = (.error e, s') := by
  rintro s' rfl
  generalize x s' = result
  obtain ⟨result, s''⟩ := result
  cases result with
  | ok a => exact rfl
  | error e => exact rfl

lemma any : Triple P x (fun _ _ => True) fun _ _ => True := by
  intro s _
  generalize x s = result
  obtain ⟨result, s'⟩ := result
  cases result with
  | ok a => exact trivial
  | error e => exact trivial

/-- What a triple says of one run. -/
lemma returned (h : Triple P x Q E) {s s' : σ} {a : α} (hs : P s) (hx : x s = (.ok a, s')) :
    Q a s' := by
  have hends := h s hs
  rw [hx] at hends
  exact hends

/-- Where both postconditions agree, they hold of the state at the end. -/
lemma final {R : σ → Prop} (h : Triple P x (fun _ => R) fun _ => R) {s : σ} (hs : P s) :
    R (x s).2 := by
  have hends := h s hs
  revert hends
  generalize x s = result
  obtain ⟨result, s'⟩ := result
  cases result with
  | ok a => exact id
  | error e => exact id

/-- What each of the programs leaves as it is stays through all of them. -/
lemma collect {f : β → Program σ ε α} {bs : List β}
    (h : ∀ b ∈ bs, Triple P (f b) (fun _ => P) E) : Triple P (collect f bs) (fun _ => P) E := by
  induction bs with
  | nil => exact ret fun _ => id
  | cons b bs ih =>
      refine bind (h b List.mem_cons_self) fun a => bind ?_ fun as => ret fun _ => id
      exact ih fun b hb => h b (List.mem_cons_of_mem _ hb)

/-- A measure that each program raises by at most one rises by at most their number. -/
lemma collect_count {f : β → Program σ ε α} {view : σ → ℕ}
    (h : ∀ b k, Triple (fun s => view s ≤ k) (f b) (fun _ s => view s ≤ k + 1)
      fun _ s => view s ≤ k + 1) (bs : List β) (k : ℕ) :
    Triple (fun s => view s ≤ k) (Program.collect f bs) (fun _ s => view s ≤ k + bs.length)
      fun _ s => view s ≤ k + bs.length := by
  induction bs generalizing k with
  | nil => exact ret fun _ => id
  | cons b bs ih =>
      rw [List.length_cons]
      have hfirst : Triple (fun s => view s ≤ k) (f b) (fun _ s => view s ≤ k + 1)
          fun _ s => view s ≤ k + (bs.length + 1) :=
        weaken (h b k) (fun _ => id) (fun _ _ => id) fun _ _ hs => by omega
      have hrest : Triple (fun s => view s ≤ k + 1) (Program.collect f bs)
          (fun _ s => view s ≤ k + (bs.length + 1)) fun _ s => view s ≤ k + (bs.length + 1) :=
        weaken (ih (k + 1)) (fun _ => id) (fun _ _ hs => by omega) fun _ _ hs => by omega
      exact bind hfirst fun _ => bind hrest fun _ => ret fun _ => id

lemma cleanUp {last : Program σ ε Unit} (hx : Triple P x Q E)
    (hok : ∀ a, Triple (Q a) last (fun _ => Q a) E)
    (herror : ∀ e, Triple (E e) last (fun _ => E e) E) : Triple P (x.cleanUp last) Q E := by
  intro s hs
  have hends := hx s hs
  unfold Program.cleanUp
  revert hends
  generalize x s = result
  obtain ⟨result, s'⟩ := result
  cases result with
  | ok a =>
      intro hends
      have hlast := hok a s' hends
      revert hlast
      dsimp only
      generalize last s' = final
      obtain ⟨final, s''⟩ := final
      cases final <;> exact id
  | error e =>
      intro hends
      have hlast := herror e s' hends
      revert hlast
      dsimp only
      generalize last s' = final
      obtain ⟨final, s''⟩ := final
      cases final <;> exact id

/-- An attempt does not raise. -/
lemma attempt {R : σ → Prop} (hx : Triple P x (fun _ => R) fun _ => R) :
    Triple P x.attempt (fun _ => R) E' := by
  intro s hs
  have hends := hx s hs
  unfold Program.attempt
  revert hends
  generalize x s = result
  obtain ⟨result, s'⟩ := result
  cases result with
  | ok a => exact id
  | error e => exact id

/-- What holds of the result alone also holds of it on a part of a state. -/
lemma within {x : Program ω ε α} {Q : α → Prop} {E : ε → Prop}
    (h : Triple (fun _ => True) x (fun a _ => Q a) fun e _ => E e) (part : σ → ω)
    (put : ω → σ → σ) :
    Triple (fun _ => True) (within part put x) (fun a _ => Q a) fun e _ => E e := by
  intro s _
  have hends := h (part s) trivial
  unfold Program.within
  revert hends
  generalize x (part s) = result
  obtain ⟨result, w⟩ := result
  cases result with
  | ok a => exact id
  | error e => exact id

/-- A program on a part of the state, beside what does not depend on that part. -/
lemma lift {P : ω → Prop} {x : Program ω ε α} {Q : α → ω → Prop} {E : ε → ω → Prop}
    {F : σ → Prop} (part : σ → ω) (put : ω → σ → σ) (h : Triple P x Q E)
    (hpart : ∀ w s, part (put w s) = w) (hF : ∀ w s, F s → F (put w s)) :
    Triple (fun s => P (part s) ∧ F s) (Program.within part put x)
      (fun a s => Q a (part s) ∧ F s) fun e s => E e (part s) ∧ F s := by
  rintro s ⟨hs, hframe⟩
  have hends := h (part s) hs
  unfold Program.within
  revert hends
  generalize x (part s) = result
  obtain ⟨result, w⟩ := result
  have hput := hpart w s
  cases result with
  | ok a => exact fun hends => ⟨(congrArg (Q a) hput).mpr hends, hF w s hframe⟩
  | error e => exact fun hends => ⟨(congrArg (E e) hput).mpr hends, hF w s hframe⟩

/-- Two triples of one program hold together. -/
lemma both (h : Triple P x Q E) (h' : Triple P' x Q' E') :
    Triple (fun s => P s ∧ P' s) x (fun a s => Q a s ∧ Q' a s) fun e s => E e s ∧ E' e s := by
  intro s hs
  have hends := h s hs.1
  have hends' := h' s hs.2
  revert hends hends'
  generalize x s = result
  obtain ⟨result, s'⟩ := result
  cases result with
  | ok a => exact And.intro
  | error e => exact And.intro

/-- Two postconditions hold together, where the exceptions do not matter. -/
lemma conj (h : Triple P x Q fun _ _ => True) (h' : Triple P x Q' fun _ _ => True) :
    Triple P x (fun a s => Q a s ∧ Q' a s) fun _ _ => True :=
  weaken (both h h') (fun _ hs => ⟨hs, hs⟩) (fun _ _ => id) fun _ _ _ => trivial

lemma known {p : Prop} (h : p → Triple (fun _ => True) x Q E) : Triple (fun _ => p) x Q E :=
  fun s hs => h hs s trivial

/-- What does not depend on the state can be assumed from the start. -/
lemma assume {p : Prop} (h : p → Triple P x Q E) : Triple (fun s => p ∧ P s) x Q E :=
  fun s hs => h hs.1 s hs.2

end Triple

namespace Keeps

variable {P : σ → Prop} {x y : Program σ ε α}

lemma ret (a : α) : Keeps P (pure a : Program σ ε α) := fun _ h => h

lemma raise (e : ε) : Keeps P (raise e : Program σ ε α) := fun _ h => h

lemma read (f : σ → α) : Keeps P (read f : Program σ ε α) := fun _ h => h

lemma update {f : σ → σ} (h : ∀ s, P s → P (f s)) : Keeps P (update f : Program σ ε Unit) := h

lemma bind {f : α → Program σ ε β} (hx : Keeps P x) (hf : ∀ a, Keeps P (f a)) :
    Keeps P (x >>= f) := Triple.bind hx hf

lemma handle {handler : ε → Program σ ε α} (hx : Keeps P x) (hh : ∀ e, Keeps P (handler e)) :
    Keeps P (x.handle handler) := Triple.handle hx hh

lemma split {c : Prop} [Decidable c] (hx : Keeps P x) (hy : Keeps P y) :
    Keeps P (if c then x else y) := Triple.split (fun _ => hx) fun _ => hy

lemma attempt (hx : Keeps P x) : Keeps P x.attempt := Triple.attempt hx

lemma cleanUp {last : Program σ ε Unit} (hx : Keeps P x) (hlast : Keeps P last) :
    Keeps P (x.cleanUp last) := Triple.cleanUp hx (fun _ => hlast) fun _ => hlast

/-- A program on a part of the state keeps what does not depend on it. -/
lemma within {part : σ → ω} {put : ω → σ → σ} (h : ∀ w s, P s → P (put w s))
    (x : Program ω ε α) : Keeps P (within part put x) := by
  intro s hs
  unfold Program.within
  generalize x (part s) = result
  obtain ⟨result, w⟩ := result
  cases result with
  | ok a => exact h w s hs
  | error e => exact h w s hs

lemma collect {f : β → Program σ ε α} {bs : List β} (h : ∀ b ∈ bs, Keeps P (f b)) :
    Keeps P (collect f bs) := Triple.collect h

/-- The exceptions do not matter. -/
lemma triple (h : Keeps P x) : Triple P x (fun _ => P) fun _ _ => True :=
  Triple.weaken h (fun _ => id) (fun _ _ => id) fun _ _ _ => trivial

lemma final (h : Keeps P x) {s : σ} (hs : P s) : P (x s).2 := Triple.final h hs

end Keeps

/-- However a program ends, this view of the state is as it was. -/
def Leaves (view : σ → ω) (x : Program σ ε α) : Prop := ∀ v, Keeps (fun s => view s = v) x

lemma Leaves.keeps {view : σ → ω} {x : Program σ ε α} (h : Leaves view x) (R : ω → Prop) :
    Keeps (fun s => R (view s)) x := by
  intro s hs
  have hview : R (view s) := hs
  exact Triple.weaken (h (view s)) (fun _ => id) (fun _ _ h => h ▸ hview) (fun _ _ h => h ▸ hview)
    s rfl

lemma Leaves.triple {view : σ → ω} {x : Program σ ε α} (h : Leaves view x) (R : ω → Prop) :
    Triple (fun s => R (view s)) x (fun _ s => R (view s)) fun _ _ => True := (h.keeps R).triple

end AgentSystem.Programs
