import AgentSystem.StripeDeliveries

/-!
# Every event once

A delivery that stops after its claim leaves an event that every later delivery takes for a duplicate,
and one whose claim comes too late does not compare its body with that of the winner. In runs without
these the winner of the claim of an event is the one that applies it.
-/
namespace AgentSystem.Billing

open Interleaving

variable {β ι : Type} [DecidableEq ι] {reader : BodyReader β}

/-! ## Bodies -/

namespace BodyReader

variable (reader : BodyReader β)

/-- The event id of a body, also of one that fails the other checks. -/
def eventId (body : β) : Option String :=
  match reader.loads body with
  | .object payload =>
      match payload.id with
      | .str id => if id = "" then none else some id
      | _ => none
  | _ => none

/-- The body that the next transaction of the handler would refuse. -/
def refusedBody (rows : List StatusRow) : Phase β → Option β
  | .received body =>
      match reader.mapCustomer rows body with
      | .refused body _ => some body
      | _ => none
  | .mapped body event metadataTenant byCustomer =>
      match bindBody rows body event metadataTenant byCustomer with
      | .refused body _ => some body
      | _ => none
  | _ => none

end BodyReader

lemma eventId_of_read {body : β} {event : StripeEvent}
    (h : readEvent (reader.loads body) = .ok event) : reader.eventId body = some event.id := by
  rw [readEvent.eq_def] at h
  rw [BodyReader.eventId]
  split at h
  · cases h
  · cases h
  · split at h
    · split_ifs at h with hempty
      split at h
      · split at h
        · cases h
          rename_i hload _ _ hid _ _ _ _ _ _
          simp [hload, hid, hempty]
        · cases h
      · cases h
    · cases h

/-! ## Steps -/

/-- What one step of a delivery can do. -/
inductive Move (reader : BodyReader β) (input : Input β) (books : Books β) :
    Phase β → Books β → Phase β → Prop
  | receive {body : β} : Move reader input books .idle books (.received body)
  | map {body : β} {event : StripeEvent} {metadataTenant byCustomer : Option String}
      (read : readEvent (reader.loads body) = .ok event) :
      Move reader input books (.received body) books (.mapped body event metadataTenant byCustomer)
  | bind {body : β} {event : StripeEvent} {metadataTenant byCustomer : Option String}
      {tenantId : String} :
      Move reader input books (.mapped body event metadataTenant byCustomer) books
        (.filing .bound ⟨body, event, tenantId⟩)
  | refuse {body : β} {e : HttpException}
      (refused : reader.refusedBody books.store.statuses (.received body) = some body) :
      Move reader input books (.received body) books (.refused body e)
  | unbound {body : β} {event : StripeEvent} {metadataTenant byCustomer : Option String}
      {e : HttpException}
      (refused : reader.refusedBody books.store.statuses
        (.mapped body event metadataTenant byCustomer) = some body) :
      Move reader input books (.mapped body event metadataTenant byCustomer) books (.refused body e)
  | existing {f : Filing β} {found : String × String}
      (present : books.store.getStripeWebhookEvent f.event.id = some found) :
      Move reader input books (.filing .bound f) books
        (.answered f (answerExisting found (reader.payloadHash f.body) f.tenantId f.event))
  | unseen {f : Filing β} : Move reader input books (.filing .bound f) books (.filing .unseen f)
  | late {f : Filing β} (present : books.store.getStripeWebhookEvent f.event.id ≠ none) :
      Move reader input books (.filing .unseen f) books (.answered f (.duplicate f.event.type))
  | claim {f : Filing β} (absent : books.store.getStripeWebhookEvent f.event.id = none) :
      Move reader input books (.filing .unseen f)
        { store :=
            { books.store with webhookEvents := books.store.webhookEvents ++ [reader.row f] }
          claims := books.claims ++ [f]
          updates := books.updates }
        (.filing .claimed f)
  | audit {f : Filing β} : Move reader input books (.filing .claimed f) books (.filing .audited f)
  | apply {f : Filing β} {statuses : List StatusRow} {updates : List (Filing β)}
      (log : updates = if f.event.prescribed.isSome then books.updates ++ [f] else books.updates) :
      Move reader input books (.filing .audited f)
        { store := { books.store with statuses := statuses }
          claims := books.claims
          updates := updates }
        (.answered f (.success f.event.type))
  | raise {f : Filing β} (refused : applyStatus books.store.statuses f.event f.tenantId = none) :
      Move reader input books (.filing .audited f) books (.answered f .raised)
  | stop {p : Phase β} (stops : input = .stop) (unanswered : p.answer = none) :
      Move reader input books p books .stopped

lemma move_of_next {input : Input β} {books after : Books β} {p q : Phase β}
    (h : reader.next input books p = some (after, q)) : Move reader input books p after q := by
  rw [BodyReader.next.eq_def] at h
  split at h
  · cases h
    exact .receive
  · rename_i body
    cases h
    rw [BodyReader.mapCustomer]
    split
    · rename_i e hread
      exact .refuse (by simp [BodyReader.refusedBody, BodyReader.mapCustomer, hread])
    · rename_i event hread
      split
      · rename_i e hmetadata
        exact .refuse (by simp [BodyReader.refusedBody, BodyReader.mapCustomer, hread, hmetadata])
      · exact .map hread
  · cases h
    rw [BodyReader.bindBody]
    split
    · rename_i e hbind
      exact .unbound (by simp [BodyReader.refusedBody, BodyReader.bindBody, hbind])
    · exact .bind
  · rename_i stage f
    rw [Option.some.injEq] at h
    cases stage with
    | bound =>
        simp only [BodyReader.fileNext] at h
        split at h
        · rename_i found hfound
          cases h
          exact .existing hfound
        · cases h
          exact .unseen
    | unseen =>
        simp only [BodyReader.fileNext, Store.claimStripeWebhookEvent] at h
        by_cases hpresent : (books.store.getStripeWebhookEvent f.event.id).isSome
        · rw [if_pos hpresent] at h
          cases h
          exact .late (Option.isSome_iff_ne_none.mp hpresent)
        · rw [if_neg hpresent] at h
          cases h
          exact .claim (Option.not_isSome_iff_eq_none.mp hpresent)
    | claimed =>
        cases h
        exact .audit
    | audited =>
        simp only [BodyReader.fileNext, BodyReader.applyUpdate] at h
        split at h
        · rename_i hrefused
          cases h
          exact .raise hrefused
        · cases h
          exact .apply rfl
  · cases h
    exact .stop rfl rfl
  · cases h
    exact .stop rfl rfl
  · cases h
    exact .stop rfl rfl
  · cases h

/-! ## The condition -/

/-- The filing of a delivery between its claim and its status update. -/
def Phase.pending : Phase β → Option (Filing β)
  | .filing .claimed f => some f
  | .filing .audited f => some f
  | _ => none

/-- The filing of a delivery that won its claim. -/
def Phase.owned : Phase β → Option (Filing β)
  | .answered f (.success _) => some f
  | p => p.pending

namespace BodyReader

variable (reader : BodyReader β)

/-- A delivery does not stop between its claim and its update, whose ids can be stored; it agrees
with the winner when its claim comes too late; and it is not refused with an event id that was
claimed for another body. No other body has the digest of a claimed one. -/
structure Orderly (s : World ι (Books β) (Phase β)) (i : ι) (input : Input β) : Prop where
  finishes : input = .stop → (s.proc i).pending = none
  storable : ∀ f, s.proc i = .filing .audited f →
    applyStatus s.store.store.statuses f.event f.tenantId ≠ none
  agrees : ∀ f, s.proc i = .filing .unseen f → ∀ g ∈ s.store.claims, g.event.id = f.event.id →
    g.body = f.body ∧ g.tenantId = f.tenantId
  digests : ∀ f, s.proc i = .filing .bound f → ∀ g ∈ s.store.claims, g.event.id = f.event.id →
    reader.payloadHash g.body = reader.payloadHash f.body → g.body = f.body
  accepted : ∀ body, reader.refusedBody s.store.store.statuses (s.proc i) = some body →
    ∀ g ∈ s.store.claims, reader.eventId body = some g.event.id → g.body = body

/-- Everything that was decoded on the way comes from the body. -/
def Reads : Phase β → Prop
  | .mapped body event _ _ => readEvent (reader.loads body) = .ok event
  | .filing _ f => readEvent (reader.loads f.body) = .ok f.event
  | .answered f _ => readEvent (reader.loads f.body) = .ok f.event
  | _ => True

end BodyReader

/-! ## The invariant -/

/-- The winner of a claim is alone, and a known event is updated by its winner or waits for it. -/
structure Settled (reader : BodyReader β) (s : World ι (Books β) (Phase β)) : Prop where
  rows : s.store.store.webhookEvents = s.store.claims.map reader.row
  distinct : (s.store.claims.map fun f => f.event.id).Nodup
  claimsRead : ∀ f ∈ s.store.claims, readEvent (reader.loads f.body) = .ok f.event
  reads : ∀ i, reader.Reads (s.proc i)
  owned : ∀ i f, (s.proc i).owned = some f → f ∈ s.store.claims
  apart : ∀ i j f, (s.proc i).owned = some f → (s.proc j).owned = some f → i = j
  waiting : ∀ i f, (s.proc i).pending = some f → f ∉ s.store.updates
  claimed : ∀ f ∈ s.store.updates, f ∈ s.store.claims
  once : s.store.updates.Nodup
  done : ∀ f ∈ s.store.claims, f.event.Known →
    f ∈ s.store.updates ∨ ∃ i, (s.proc i).pending = some f
  success : ∀ i f event, s.proc i = .answered f (.success event) → f.event.Known →
    f ∈ s.store.updates
  duplicate : ∀ i f event, s.proc i = .answered f (.duplicate event) →
    ∃ g ∈ s.store.claims, g.event.id = f.event.id ∧ g.body = f.body ∧ g.tenantId = f.tenantId

variable {s s' : World ι (Books β) (Phase β)} {i : ι} {input : Input β}

lemma owned_of_pending {p : Phase β} {f : Filing β} (h : p.pending = some f) : p.owned = some f := by
  rw [Phase.owned.eq_def]
  split
  · cases h
  · exact h

/-- A step that leaves the books alone and wins nothing. -/
lemma Settled.moved (h : Settled reader s) {q : Phase β} (howned : q.owned = (s.proc i).owned)
    (hpending : q.pending = (s.proc i).pending) (hreads : reader.Reads q)
    (hsuccess : ∀ f event, q ≠ .answered f (.success event))
    (hduplicate : ∀ f event, q = .answered f (.duplicate event) →
      ∃ g ∈ s.store.claims, g.event.id = f.event.id ∧ g.body = f.body ∧ g.tenantId = f.tenantId) :
    Settled reader ⟨s.store, Function.update s.proc i q⟩ := by
  have howned' : ∀ j, (Function.update s.proc i q j).owned = (s.proc j).owned := fun j => by
    by_cases hj : j = i
    · rw [hj, Function.update_self, howned]
    · rw [Function.update_of_ne hj]
  have hpending' : ∀ j, (Function.update s.proc i q j).pending = (s.proc j).pending := fun j => by
    by_cases hj : j = i
    · rw [hj, Function.update_self, hpending]
    · rw [Function.update_of_ne hj]
  constructor
  · exact h.rows
  · exact h.distinct
  · exact h.claimsRead
  · intro j
    by_cases hj : j = i
    · simpa [hj] using hreads
    · simpa [hj] using h.reads j
  · intro j f
    simpa [howned'] using h.owned j f
  · intro j k f
    simpa [howned'] using h.apart j k f
  · intro j f
    simpa [hpending'] using h.waiting j f
  · exact h.claimed
  · exact h.once
  · simpa [hpending'] using h.done
  · intro j f event hanswer
    by_cases hj : j = i
    · simp only [hj, Function.update_self] at hanswer
      exact absurd hanswer (hsuccess f event)
    · simp only [Function.update_of_ne hj] at hanswer
      exact h.success j f event hanswer
  · intro j f event hanswer
    by_cases hj : j = i
    · simp only [hj, Function.update_self] at hanswer
      exact hduplicate f event hanswer
    · simp only [Function.update_of_ne hj] at hanswer
      exact h.duplicate j f event hanswer

omit [DecidableEq ι] in
/-- What a lookup finds is the row of a claim. -/
lemma Settled.find (h : Settled reader s) {id : String} {found : String × String}
    (hfound : s.store.store.getStripeWebhookEvent id = some found) :
    ∃ g ∈ s.store.claims, g.event.id = id ∧ found = (reader.payloadHash g.body, g.tenantId) := by
  obtain ⟨row, hrow, rfl⟩ := Option.map_eq_some_iff.mp hfound
  have hid : row.eventId = id := by simpa using List.find?_some hrow
  have hmem := List.mem_of_find?_eq_some hrow
  rw [h.rows] at hmem
  obtain ⟨g, hg, rfl⟩ := List.mem_map.mp hmem
  exact ⟨g, hg, hid, rfl⟩

omit [DecidableEq ι] in
lemma Settled.absent (h : Settled reader s) {id : String}
    (habsent : s.store.store.getStripeWebhookEvent id = none) :
    ∀ g ∈ s.store.claims, g.event.id ≠ id := by
  intro g hg heq
  rw [Store.getStripeWebhookEvent, Option.map_eq_none_iff, List.find?_eq_none, h.rows] at habsent
  exact habsent (reader.row g) (List.mem_map_of_mem hg) (decide_eq_true heq)

/-- The winner of a claim. -/
lemma Settled.claim (h : Settled reader s) {f : Filing β} (hproc : s.proc i = .filing .unseen f)
    (habsent : s.store.store.getStripeWebhookEvent f.event.id = none) :
    Settled reader
      ⟨{ store :=
          { s.store.store with webhookEvents := s.store.store.webhookEvents ++ [reader.row f] }
         claims := s.store.claims ++ [f]
         updates := s.store.updates },
        Function.update s.proc i (.filing .claimed f)⟩ := by
  have hnew := h.absent habsent
  have hnotMem : f ∉ s.store.claims := fun hmem => hnew f hmem rfl
  have hread : readEvent (reader.loads f.body) = .ok f.event := by
    have hreads := h.reads i
    rw [hproc] at hreads
    exact hreads
  constructor
  · simp [h.rows]
  · rw [List.map_append, List.nodup_append]
    refine ⟨h.distinct, List.nodup_singleton _, ?_⟩
    simpa using hnew
  · intro g hg
    rcases List.mem_append.mp hg with hold | hlast
    · exact h.claimsRead g hold
    · rwa [List.mem_singleton.mp hlast]
  · intro j
    by_cases hj : j = i
    · simp only [hj, Function.update_self]
      exact hread
    · simpa [hj] using h.reads j
  · intro j g howned
    by_cases hj : j = i
    · simp only [hj, Function.update_self] at howned
      cases howned
      simp
    · simp only [Function.update_of_ne hj] at howned
      exact List.mem_append_left _ (h.owned j g howned)
  · intro j k g hjg hkg
    by_cases hj : j = i
    · by_cases hk : k = i
      · rw [hj, hk]
      · simp only [hj, Function.update_self] at hjg
        simp only [Function.update_of_ne hk] at hkg
        cases hjg
        exact absurd (h.owned k f hkg) hnotMem
    · by_cases hk : k = i
      · simp only [hk, Function.update_self] at hkg
        simp only [Function.update_of_ne hj] at hjg
        cases hkg
        exact absurd (h.owned j f hjg) hnotMem
      · simp only [Function.update_of_ne hj] at hjg
        simp only [Function.update_of_ne hk] at hkg
        exact h.apart j k g hjg hkg
  · intro j g hpending
    by_cases hj : j = i
    · simp only [hj, Function.update_self] at hpending
      cases hpending
      exact fun hupdated => hnotMem (h.claimed f hupdated)
    · simp only [Function.update_of_ne hj] at hpending
      exact h.waiting j g hpending
  · exact fun g hg => List.mem_append_left _ (h.claimed g hg)
  · exact h.once
  · intro g hg hknown
    rcases List.mem_append.mp hg with hold | hlast
    · rcases h.done g hold hknown with hupdated | ⟨j, hpending⟩
      · exact .inl hupdated
      · right
        refine ⟨j, ?_⟩
        have hj : j ≠ i := by
          rintro rfl
          rw [hproc] at hpending
          cases hpending
        simpa only [Function.update_of_ne hj] using hpending
    · right
      refine ⟨i, ?_⟩
      simp only [Function.update_self, List.mem_singleton.mp hlast]
      rfl
  · intro j g event hanswer
    by_cases hj : j = i
    · simp [hj] at hanswer
    · simp only [Function.update_of_ne hj] at hanswer
      exact h.success j g event hanswer
  · intro j g event hanswer
    by_cases hj : j = i
    · simp [hj] at hanswer
    · simp only [Function.update_of_ne hj] at hanswer
      obtain ⟨k, hk, hsame⟩ := h.duplicate j g event hanswer
      exact ⟨k, List.mem_append_left _ hk, hsame⟩

/-- The update by the winner of a claim. -/
lemma Settled.apply (h : Settled reader s) {f : Filing β} (hproc : s.proc i = .filing .audited f)
    (statuses : List StatusRow) {updates : List (Filing β)}
    (hlog : updates = if f.event.prescribed.isSome then s.store.updates ++ [f] else s.store.updates) :
    Settled reader
      ⟨{ store := { s.store.store with statuses := statuses }
         claims := s.store.claims
         updates := updates },
        Function.update s.proc i (.answered f (.success f.event.type))⟩ := by
  have howner : (s.proc i).owned = some f := by rw [hproc]; rfl
  have hpending : (s.proc i).pending = some f := by rw [hproc]; rfl
  have hread : readEvent (reader.loads f.body) = .ok f.event := by
    have hreads := h.reads i
    rw [hproc] at hreads
    exact hreads
  have hmem : ∀ g, g ∈ updates ↔ g ∈ s.store.updates ∨ g = f ∧ f.event.Known := fun g => by
    rw [hlog, ← StripeEvent.prescribed_isSome]
    split_ifs with hsome
    · simp [hsome]
    · simp [hsome]
  constructor
  · exact h.rows
  · exact h.distinct
  · exact h.claimsRead
  · intro j
    by_cases hj : j = i
    · simp only [hj, Function.update_self]
      exact hread
    · simpa [hj] using h.reads j
  · intro j g howned
    by_cases hj : j = i
    · simp only [hj, Function.update_self] at howned
      cases howned
      exact h.owned i f howner
    · simp only [Function.update_of_ne hj] at howned
      exact h.owned j g howned
  · have hsame : ∀ j, (Function.update s.proc i (.answered f (.success f.event.type)) j).owned =
        (s.proc j).owned := fun j => by
      by_cases hj : j = i
      · rw [hj, Function.update_self, howner]
        rfl
      · rw [Function.update_of_ne hj]
    intro j k g
    simpa [hsame] using h.apart j k g
  · intro j g hwaits hupdated
    have hj : j ≠ i := by
      rintro rfl
      simp only [Function.update_self] at hwaits
      cases hwaits
    simp only [Function.update_of_ne hj] at hwaits
    rcases (hmem g).mp hupdated with hold | ⟨rfl, -⟩
    · exact h.waiting j g hwaits hold
    · exact hj (h.apart j i g (owned_of_pending hwaits) howner)
  · intro g hg
    rcases (hmem g).mp hg with hold | ⟨rfl, -⟩
    · exact h.claimed g hold
    · exact h.owned i g howner
  · rw [hlog]
    split_ifs
    · exact List.nodup_append.mpr ⟨h.once, List.nodup_singleton _, fun g hg k hk => by
        rw [List.mem_singleton.mp hk]
        rintro rfl
        exact h.waiting i g hpending hg⟩
    · exact h.once
  · intro g hg hknown
    rcases h.done g hg hknown with hupdated | ⟨j, hwaits⟩
    · exact .inl ((hmem g).mpr (.inl hupdated))
    · by_cases hj : j = i
      · rw [hj, hpending] at hwaits
        cases hwaits
        exact .inl ((hmem f).mpr (.inr ⟨rfl, hknown⟩))
      · exact .inr ⟨j, by simpa only [Function.update_of_ne hj] using hwaits⟩
  · intro j g event hanswer hknown
    by_cases hj : j = i
    · simp only [hj, Function.update_self] at hanswer
      cases hanswer
      exact (hmem f).mpr (.inr ⟨rfl, hknown⟩)
    · simp only [Function.update_of_ne hj] at hanswer
      exact (hmem g).mpr (.inl (h.success j g event hanswer hknown))
  · intro j g event hanswer
    by_cases hj : j = i
    · simp [hj] at hanswer
    · simp only [Function.update_of_ne hj] at hanswer
      exact h.duplicate j g event hanswer

/-- A delivery that finds the row of a claim is a duplicate of it or is answered 409. -/
lemma answerExisting_cases (existing : String × String) (payloadHash tenantId : String)
    (event : StripeEvent) :
    answerExisting existing payloadHash tenantId event =
        .error ⟨409, "Stripe event id was already used"⟩ ∨
      answerExisting existing payloadHash tenantId event = .duplicate event.type ∧
        existing = (payloadHash, tenantId) := by
  rw [answerExisting]
  split_ifs with hother
  · exact .inl rfl
  · rw [not_or, not_not, not_not] at hother
    exact .inr ⟨rfl, Prod.ext hother.1 hother.2⟩

lemma Settled.step (h : Settled reader s) (horderly : reader.Orderly s i input)
    (hstep : s.step reader.next i input = some s') : Settled reader s' := by
  obtain ⟨books, q, hnext, rfl⟩ := step_eq_some hstep
  have hmove := move_of_next hnext
  have hreads := h.reads i
  generalize hp : s.proc i = p at hmove hreads
  cases hmove with
  | receive => exact h.moved (by rw [hp]; rfl) (by rw [hp]; rfl) trivial (by simp) (by simp)
  | map hread => exact h.moved (by rw [hp]; rfl) (by rw [hp]; rfl) hread (by simp) (by simp)
  | bind => exact h.moved (by rw [hp]; rfl) (by rw [hp]; rfl) hreads (by simp) (by simp)
  | refuse refused => exact h.moved (by rw [hp]; rfl) (by rw [hp]; rfl) trivial (by simp) (by simp)
  | unbound refused => exact h.moved (by rw [hp]; rfl) (by rw [hp]; rfl) trivial (by simp) (by simp)
  | @existing f found present =>
      obtain ⟨g, hg, hid, rfl⟩ := h.find present
      rcases answerExisting_cases (reader.payloadHash g.body, g.tenantId)
        (reader.payloadHash f.body) f.tenantId f.event with hanswer | ⟨hanswer, hsame⟩
      · rw [hanswer]
        exact h.moved (by rw [hp]; rfl) (by rw [hp]; rfl) hreads (by simp) (by simp)
      · rw [hanswer]
        refine h.moved (by rw [hp]; rfl) (by rw [hp]; rfl) hreads (by simp) ?_
        intro k event hk
        cases hk
        have hbody := horderly.digests f hp g hg hid (congrArg Prod.fst hsame)
        exact ⟨g, hg, hid, hbody, congrArg Prod.snd hsame⟩
  | unseen => exact h.moved (by rw [hp]; rfl) (by rw [hp]; rfl) hreads (by simp) (by simp)
  | @late f present =>
      refine h.moved (by rw [hp]; rfl) (by rw [hp]; rfl) hreads (by simp) ?_
      intro k event hk
      cases hk
      obtain ⟨found, hfound⟩ := Option.ne_none_iff_exists'.mp present
      obtain ⟨g, hg, hid, -⟩ := h.find hfound
      exact ⟨g, hg, hid, horderly.agrees f hp g hg hid⟩
  | claim absent => exact h.claim hp absent
  | audit => exact h.moved (by rw [hp]; rfl) (by rw [hp]; rfl) hreads (by simp) (by simp)
  | @apply f statuses updates log => exact h.apply hp statuses log
  | @raise f refused => exact absurd refused (horderly.storable f hp)
  | stop stops unanswered =>
      have hpending := horderly.finishes stops
      have howned : (s.proc i).owned = none := by
        rw [Phase.owned.eq_def]
        split
        · rename_i hanswered
          rw [← hp, hanswered] at unanswered
          cases unanswered
        · exact hpending
      exact h.moved howned.symm hpending.symm trivial (by simp) (by simp)

/-- No delivery has come yet, and the database is empty. -/
def noDeliveries : World ι (Books β) (Phase β) where
  store := { store := ⟨[], []⟩, claims := [], updates := [] }
  proc _ := .idle

omit [DecidableEq ι] in
lemma settled_noDeliveries : Settled reader (noDeliveries : World ι (Books β) (Phase β)) := by
  constructor <;> simp [noDeliveries, Phase.owned, Phase.pending, BodyReader.Reads]

/-! ## Deliveries that reuse an event id -/

/-- The update of the event of a filing has been applied once, as its own. -/
def AppliedOnce (books : Books β) (f : Filing β) : Prop :=
  ∃ g, books.updates.filter (fun g => g.event.id = f.event.id) = [g] ∧ g.event = f.event ∧
    g.tenantId = f.tenantId

/-- The answer to a delivery, with its tenant where one was found. -/
def Phase.reply : Phase β → Option (β × Option String × Answer)
  | .refused body e => some (body, none, .error e)
  | .answered f answer => some (f.body, some f.tenantId, answer)
  | _ => none

/-- The event id of the body was claimed for another body or another tenant. -/
def BodyReader.Reuses (reader : BodyReader β) (claims : List (Filing β)) (body : β)
    (tenantId : Option String) : Prop :=
  ∃ g ∈ claims, reader.eventId body = some g.event.id ∧
    (g.body ≠ body ∨ ∃ tenant, tenantId = some tenant ∧ g.tenantId ≠ tenant)

lemma filter_eq_singleton {f : Filing β} {filings : List (Filing β)}
    (hdistinct : filings.Pairwise fun f g => f.event.id ≠ g.event.id) (hmem : f ∈ filings) :
    filings.filter (fun g => g.event.id = f.event.id) = [f] := by
  induction filings with
  | nil => cases hmem
  | cons g filings ih =>
      obtain ⟨hfirst, hrest⟩ := List.pairwise_cons.mp hdistinct
      rcases List.mem_cons.mp hmem with rfl | hmem
      · rw [List.filter_cons_of_pos (by simp)]
        congr 1
        rw [List.filter_eq_nil_iff]
        intro g hg
        simpa using (hfirst g hg).symm
      · rw [List.filter_cons_of_neg (by simpa using hfirst f hmem)]
        exact ih hrest hmem

omit [DecidableEq ι] in
/-- Two claims of one event id are the same. -/
lemma Settled.eq_of_id (h : Settled reader s) {f g : Filing β} (hf : f ∈ s.store.claims)
    (hg : g ∈ s.store.claims) (hid : f.event.id = g.event.id) : f = g :=
  List.inj_on_of_nodup_map h.distinct hf hg hid

omit [DecidableEq ι] in
/-- A known event that was answered, and none of whose deliveries is between claim and update, has
been applied once. -/
lemma Settled.appliedOnce (h : Settled reader s) {f : Filing β} (hknown : f.event.Known)
    {event : String} (hanswer : s.proc i = .answered f (.success event) ∨
      s.proc i = .answered f (.duplicate event))
    (hrest : ∀ j g, (s.proc j).pending = some g → g.event.id ≠ f.event.id) :
    AppliedOnce s.store f := by
  have hread : readEvent (reader.loads f.body) = .ok f.event := by
    have hreads := h.reads i
    rcases hanswer with hanswer | hanswer
    · rw [hanswer] at hreads
      exact hreads
    · rw [hanswer] at hreads
      exact hreads
  obtain ⟨g, hg, hid, hbody, htenant⟩ : ∃ g ∈ s.store.claims, g.event.id = f.event.id ∧
      g.body = f.body ∧ g.tenantId = f.tenantId := by
    rcases hanswer with hanswer | hanswer
    · exact ⟨f, h.owned i f (by rw [hanswer]; rfl), rfl, rfl, rfl⟩
    · exact h.duplicate i f event hanswer
  have hevent : g.event = f.event := by
    have hgread := h.claimsRead g hg
    rw [hbody, hread] at hgread
    exact (Except.ok.inj hgread).symm
  have hupdated : g ∈ s.store.updates := by
    rcases h.done g hg (hevent ▸ hknown) with hupdated | ⟨j, hpending⟩
    · exact hupdated
    · exact absurd hid (hrest j g hpending)
  have hdistinct : s.store.updates.Pairwise fun f g => f.event.id ≠ g.event.id :=
    h.once.imp_of_mem fun hf hg hne hid => hne (h.eq_of_id (h.claimed _ hf) (h.claimed _ hg) hid)
  refine ⟨g, ?_, hevent, htenant⟩
  rw [← hid]
  exact filter_eq_singleton hdistinct hupdated

/-- A delivery that reuses an event id is answered 409, and the database stays as it is. -/
lemma Settled.conflict (h : Settled reader s) (horderly : reader.Orderly s i input)
    (hstep : s.step reader.next i input = some s') {body : β}
    {tenantId : Option String} {answer : Answer}
    (hreply : (s'.proc i).reply = some (body, tenantId, answer))
    (hreuses : reader.Reuses s.store.claims body tenantId) :
    answer = .error ⟨409, "Stripe event id was already used"⟩ ∧ s'.store = s.store := by
  obtain ⟨books, q, hnext, rfl⟩ := step_eq_some hstep
  simp only [Function.update_self] at hreply
  have hmove := move_of_next hnext
  have hreads := h.reads i
  obtain ⟨g, hg, hid, hother⟩ := hreuses
  generalize hp : s.proc i = p at hmove hreads hnext
  cases hmove with
  | receive => cases hreply
  | map hread => cases hreply
  | bind => cases hreply
  | unseen => cases hreply
  | claim absent => cases hreply
  | audit => cases hreply
  | stop stops unanswered => cases hreply
  | @refuse body e refused =>
      cases hreply
      have hbody := horderly.accepted body (by rw [hp]; exact refused) g hg hid
      exact absurd hother (by simp [hbody])
  | @unbound body event metadataTenant byCustomer e refused =>
      cases hreply
      have hbody := horderly.accepted body (by rw [hp]; exact refused) g hg hid
      exact absurd hother (by simp [hbody])
  | @existing f found present =>
      cases hreply
      have hgid : g.event.id = f.event.id := by
        rw [eventId_of_read hreads] at hid
        exact (Option.some.inj hid).symm
      obtain ⟨g', hg', hid', rfl⟩ := h.find present
      rw [h.eq_of_id hg' hg (hid'.trans hgid.symm)]
      rcases answerExisting_cases (reader.payloadHash g.body, g.tenantId)
        (reader.payloadHash f.body) f.tenantId f.event with hanswer | ⟨-, hsame⟩
      · exact ⟨hanswer, rfl⟩
      · have hbody := horderly.digests f hp g hg hgid (congrArg Prod.fst hsame)
        have htenant : g.tenantId = f.tenantId := congrArg Prod.snd hsame
        exact absurd hother (by simp [hbody, htenant])
  | @late f present =>
      cases hreply
      have hgid : g.event.id = f.event.id := by
        rw [eventId_of_read hreads] at hid
        exact (Option.some.inj hid).symm
      obtain ⟨hbody, htenant⟩ := horderly.agrees f hp g hg hgid
      exact absurd hother (by simp [hbody, htenant])
  | @apply f statuses updates log =>
      cases hreply
      have hgid : g.event.id = f.event.id := by
        rw [eventId_of_read hreads] at hid
        exact (Option.some.inj hid).symm
      have hgf : g = f := h.eq_of_id hg (h.owned i f (by rw [hp]; rfl)) hgid
      exact absurd hother (by simp [hgf])
  | @raise f refused => exact absurd refused (horderly.storable f hp)

/-- In a run of orderly steps every known event that was answered success or duplicate is applied
once as soon as no delivery is between its claim and its update, and every delivery that reuses an
event id is answered 409. -/
theorem webhook_exactly_once {actions : List (ι × Input β)}
    (hrun : (noDeliveries : World ι (Books β) (Phase β)).run reader.next actions = some s)
    (horderly : noDeliveries.Throughout reader.next reader.Orderly actions) :
    (∀ i f event, f.event.Known → (s.proc i = .answered f (.success event) ∨
        s.proc i = .answered f (.duplicate event)) →
      (∀ j g, (s.proc j).pending = some g → g.event.id ≠ f.event.id) →
      AppliedOnce s.store f) ∧
    ∀ i input s', reader.Orderly s i input → s.step reader.next i input = some s' →
      ∀ body tenantId answer, (s'.proc i).reply = some (body, tenantId, answer) →
        reader.Reuses s.store.claims body tenantId →
        answer = .error ⟨409, "Stripe event id was already used"⟩ ∧ s'.store = s.store := by
  have hsettled : Settled reader s :=
    run_induction (fun s i input s' h horderly hstep => h.step horderly hstep) settled_noDeliveries
      hrun horderly
  constructor
  · intro i f event hknown hanswer hrest
    exact hsettled.appliedOnce hknown hanswer hrest
  · intro i input s' horderly hstep body tenantId answer hreply hreuses
    exact hsettled.conflict horderly hstep hreply hreuses

/-! ## A subscription that is created -/

section Orderly

omit [DecidableEq ι] in
variable (reader) in
/-- Without claims only an update can be out of order. -/
lemma orderly_of_unclaimed (hclaims : s.store.claims = []) (hpending : (s.proc i).pending = none) :
    reader.Orderly s i input where
  finishes _ := hpending
  storable f hproc := by
    rw [hproc] at hpending
    cases hpending
  agrees := by simp [hclaims]
  digests := by simp [hclaims]
  accepted := by simp [hclaims]

omit [DecidableEq ι] in
lemma orderly_of_pending {f : Filing β} (hpending : (s.proc i).pending = some f)
    (hstorable : applyStatus s.store.store.statuses f.event f.tenantId ≠ none) :
    reader.Orderly s i .advance := by
  have hstage : s.proc i = .filing .claimed f ∨ s.proc i = .filing .audited f := by
    rw [Phase.pending.eq_def] at hpending
    split at hpending
    · rename_i hproc
      cases hpending
      exact .inl hproc
    · rename_i hproc
      cases hpending
      exact .inr hproc
    · cases hpending
  rcases hstage with hproc | hproc
  · constructor <;> simp [hproc, BodyReader.refusedBody]
  · constructor <;> simp [hproc, BodyReader.refusedBody, hstorable]

omit [DecidableEq ι] in
lemma orderly_of_answer (hanswer : (s.proc i).answer.isSome) : reader.Orderly s i .advance := by
  have hphase : (∃ body e, s.proc i = .refused body e) ∨ ∃ f a, s.proc i = .answered f a := by
    cases hproc : s.proc i with
    | refused body e => exact .inl ⟨body, e, rfl⟩
    | answered f a => exact .inr ⟨f, a, rfl⟩
    | _ =>
        rw [hproc] at hanswer
        cases hanswer
  rcases hphase with ⟨body, e, hproc⟩ | ⟨f, a, hproc⟩
  · constructor <;> simp [hproc, BodyReader.refusedBody]
  · constructor <;> simp [hproc, BodyReader.refusedBody]

/-- A delivery that is alone meets the condition when the ids of its event can be stored. -/
lemma throughout_alone
    (hstorable : ∀ rows (f : Filing β), readEvent (reader.loads f.body) = .ok f.event →
      applyStatus rows f.event f.tenantId ≠ none) (count : ℕ) (hreads : reader.Reads (s.proc i))
    (h : s.store.claims = [] ∧ (s.proc i).pending = none ∨ (s.proc i).pending.isSome ∨
      (s.proc i).answer.isSome) :
    s.Throughout reader.next reader.Orderly (List.replicate count (i, .advance)) := by
  induction count generalizing s with
  | zero => trivial
  | succ count ih =>
      refine ⟨?_, fun s' hstep => ?_⟩
      · rcases h with ⟨hclaims, hpending⟩ | hpending | hanswer
        · exact orderly_of_unclaimed reader hclaims hpending
        · obtain ⟨f, hf⟩ := Option.isSome_iff_exists.mp hpending
          refine orderly_of_pending hf (hstorable _ f ?_)
          rw [Phase.pending.eq_def] at hf
          split at hf
          · rename_i hproc
            cases hf
            rw [hproc] at hreads
            exact hreads
          · rename_i hproc
            cases hf
            rw [hproc] at hreads
            exact hreads
          · cases hf
        · exact orderly_of_answer hanswer
      · obtain ⟨books, q, hnext, rfl⟩ := step_eq_some hstep
        have hmove := move_of_next hnext
        simp only at hmove hnext
        generalize hp : s.proc i = p at hmove hreads h
        cases hmove with
        | stop stops unanswered => cases stops
        | receive =>
            refine ih (by simp [BodyReader.Reads]) (.inl ⟨?_, by simp [Phase.pending]⟩)
            simpa [Phase.pending, Phase.answer] using h
        | map hread =>
            refine ih (by simpa [BodyReader.Reads] using hread) (.inl ⟨?_, by simp [Phase.pending]⟩)
            simpa [Phase.pending, Phase.answer] using h
        | bind =>
            refine ih (by simpa [BodyReader.Reads] using hreads) (.inl ⟨?_, by simp [Phase.pending]⟩)
            simpa [Phase.pending, Phase.answer] using h
        | unseen =>
            refine ih (by simpa [BodyReader.Reads] using hreads) (.inl ⟨?_, by simp [Phase.pending]⟩)
            simpa [Phase.pending, Phase.answer] using h
        | refuse refused =>
            exact ih (by simp [BodyReader.Reads]) (.inr (.inr (by simp [Phase.answer])))
        | unbound refused =>
            exact ih (by simp [BodyReader.Reads]) (.inr (.inr (by simp [Phase.answer])))
        | existing present =>
            exact ih (by simpa [BodyReader.Reads] using hreads) (.inr (.inr (by simp [Phase.answer])))
        | late present =>
            exact ih (by simpa [BodyReader.Reads] using hreads) (.inr (.inr (by simp [Phase.answer])))
        | apply log =>
            exact ih (by simpa [BodyReader.Reads] using hreads) (.inr (.inr (by simp [Phase.answer])))
        | raise refused =>
            exact ih (by simpa [BodyReader.Reads] using hreads) (.inr (.inr (by simp [Phase.answer])))
        | claim absent =>
            exact ih (by simpa [BodyReader.Reads] using hreads)
              (.inr (.inl (by simp [Phase.pending])))
        | audit =>
            exact ih (by simpa [BodyReader.Reads] using hreads)
              (.inr (.inl (by simp [Phase.pending])))

end Orderly

def createdBody : String :=
  "\x7b\"id\": \"evt_1\", \"type\": \"customer.subscription.created\", \"data\": \x7b\"object\": \x7b\"id\": \"sub_a\", \"customer\": \"cus_a\", \"metadata\": \x7b\"tenant_id\": \"tenant_a\"\x7d\x7d\x7d\x7d"

def createdFiling : Filing String where
  body := createdBody
  event :=
    { id := "evt_1"
      type := "customer.subscription.created"
      object :=
        { metadata := .object (.str "tenant_a")
          customer := .str "cus_a"
          id := .str "sub_a" } }
  tenantId := "tenant_a"

/-- The decoding and the digest of this one body. -/
def createdReader : BodyReader String where
  loads body :=
    if body = createdBody then
      .object
        { id := .str "evt_1"
          type := some (.str "customer.subscription.created")
          object := some createdFiling.event.object }
    else .invalid
  payloadHash body :=
    if body = createdBody then "d723d5489a54c5c51395bde286431b9f2b75d37e41ad5f53625cce5343053cb6" else ""

/-- The process of the first delivery stops after its claim, and Stripe delivers the event again. -/
def stoppedRun : List (Bool × Input String) :=
  [(false, .receive createdBody), (false, .advance), (false, .advance), (false, .advance),
    (false, .advance), (false, .stop), (true, .receive createdBody), (true, .advance),
    (true, .advance), (true, .advance)]

/-- The second delivery is answered as a duplicate of an event that nobody applies. -/
theorem stopped_event_lost : ∃ s : World Bool (Books String) (Phase String),
    noDeliveries.run createdReader.next stoppedRun = some s ∧
      s.proc true = .answered createdFiling (.duplicate "customer.subscription.created") ∧
      (∀ i, (s.proc i).pending = none) ∧ ¬AppliedOnce s.store createdFiling := by
  have hend : ((noDeliveries : World Bool (Books String) (Phase String)).run createdReader.next
      stoppedRun).map (fun s => (s.proc true, s.proc false, s.store.updates)) =
        some (.answered createdFiling (.duplicate "customer.subscription.created"), .stopped, []) := by
    decide +kernel
  obtain ⟨s, hrun, hs⟩ := Option.map_eq_some_iff.mp hend
  simp only [Prod.mk.injEq] at hs
  obtain ⟨hsecond, hfirst, hupdates⟩ := hs
  refine ⟨s, hrun, hsecond, fun i => ?_, ?_⟩
  · cases i with
    | false => rw [hfirst]; rfl
    | true => rw [hsecond]; rfl
  · rintro ⟨g, hfilter, -⟩
    rw [hupdates] at hfilter
    cases hfilter

/-- The world after so many transactions of the delivery. -/
def createdWorld (count : ℕ) : World Bool (Books String) (Phase String) :=
  (noDeliveries.run createdReader.next
    ((false, .receive createdBody) :: List.replicate count (false, .advance))).getD noDeliveries

lemma createdReader_storable (rows : List StatusRow) (f : Filing String)
    (hread : readEvent (createdReader.loads f.body) = .ok f.event) :
    applyStatus rows f.event f.tenantId ≠ none := by
  have hevent : f.event = createdFiling.event := by
    simp only [createdReader] at hread
    split_ifs at hread
    · exact (Except.ok.inj hread).symm
    · cases hread
  rw [hevent]
  simp [applyStatus, StripeEvent.prescribed, StripeEvent.subscriptionId, Field.stored,
    createdFiling]

/-- A delivery that nothing interrupts is applied once. -/
theorem created_applied_once : AppliedOnce (createdWorld 6).store createdFiling := by
  have hrun : noDeliveries.run createdReader.next
      ((false, .receive createdBody) :: List.replicate 6 (false, .advance)) =
        some (createdWorld 6) := by
    have hsome : ((noDeliveries : World Bool (Books String) (Phase String)).run createdReader.next
        ((false, .receive createdBody) :: List.replicate 6 (false, .advance))).isSome := by
      decide +kernel
    obtain ⟨s, hs⟩ := Option.isSome_iff_exists.mp hsome
    rw [createdWorld, hs, Option.getD_some]
  have hrest : ∀ j, ((createdWorld 6).proc j).pending = none := by decide +kernel
  refine (webhook_exactly_once hrun ⟨orderly_of_unclaimed _ rfl rfl, fun s' hstep => ?_⟩).1 false
    createdFiling "customer.subscription.created" (by decide) (.inl (by decide +kernel))
    fun j g hpending => ?_
  · obtain rfl := Option.some.inj hstep
    exact throughout_alone createdReader_storable 6 trivial (.inl ⟨rfl, rfl⟩)
  · rw [hrest j] at hpending
    cases hpending

end AgentSystem.Billing
