import Fanring.Yring.AsyncInv

/-!
# The polls and what they leave behind

Each operation of the asynchronous endpoints, from and back to an endpoint whose cursors are those
of the trace. A poll that answers `Pending` leaves its endpoint watched (`Fresh`); a poll that
answers the end of the stream has found the producer dropped and, in the window it loaded after
that, nothing.
-/

set_option autoImplicit false

namespace Fanring.Yring.Async

open Conc Cursor

variable {w : Nat} {V : Type} {start mask : BitVec w}

/-- An endpoint in an operation, not on its way to a wake. -/
abbrev Mode.live (q : Prop) (R : List V) (D : Option (List V)) : Mode V := ⟨false, .quiet, q, R, D⟩

/-- What a poll's answer leaves: a pending one, an endpoint that is watched. -/
def Answered {α : Type} (u : Side) (a : Poll α) (s : Async w V) : Prop :=
  match a with
  | .ready _ => True
  | .pending => Fresh u True true s

/-! ## The producer -/

section Producer

variable {q : Prop} {R : List V} {D : Option (List V)} {b : Prop}

theorem loadHead_fresh (pushing : Option V) (A F : List V) (p : Producer w) :
    Triple (contract start mask .producer)
      (fun s => Held lens (Own .producer (.live q R D)) (p.At start A F) s ∧
        Fresh .producer b false s)
      (lens.access (Ring.loadHead pushing)) fun head s =>
      Held lens (Own .producer (.live q R D))
        (({ p with cachedHead := head } : Producer w).At start A F) s ∧
        Fresh .producer b true s := by
  have hload :=
    loadHead_spec (endpoint start mask .producer (.live q R D) rfl) (.zero _ _ _) pushing
    A F p
  refine (Triple.atomic_gain (hload.pre fun _ _ h => h.1)
    ((held_stable (Producer.At.local start A F p)).and (Fresh.stable b false))
    (fun _ => Fresh.stable b true) fun s _ h => ?_).post
    fun _ _ _ h => ⟨h.1.imp fun t ht => ht.1, h.2⟩
  refine h.2.look (r := (s.ring.loadHead pushing).2) ⟨rfl, rfl, rfl, rfl⟩ ?_ ?_
  · simp [Ring.loadHead, Ring.log, offered, Tally.add]
  · simp [Ring.loadHead, Ring.log, offered, Tally.add, Tally.seen]

/-- A reload that leaves the ring full, after registering. -/
theorem refresh_fresh (pushing : Option V) (A F : List V) (p : Producer w) :
    Triple (contract start mask .producer)
      (fun s => Held lens (Own .producer (.live q R D)) (p.At start A F) s ∧
        Fresh .producer b false s)
      (p.refresh lens mask pushing) fun p' s =>
      Held lens (Own .producer (.live q R D)) (p'.At start A F) s ∧
        (p'.full mask = true → Fresh .producer b true s) := by
  unfold Producer.refresh
  split
  · exact Triple.map (loadHead_fresh pushing A F p) fun _ _ _ h => ⟨h.1, fun _ => h.2⟩
  · next hnot =>
    refine Triple.ret ((held_stable (Producer.At.local start A F p)).and
      fun s s' hs hs' hr h hfull => absurd hfull hnot) fun s _ h => ⟨h.1, fun hfull => ?_⟩
    exact absurd hfull hnot

/-- A push that finds the ring full, after registering. -/
theorem push_fresh (v : V) (A F : List V) (p : Producer w) :
    Triple (contract start mask .producer)
      (fun s => Held lens (Own .producer (.live q R D)) (p.At start A F) s ∧
        Fresh .producer b false s)
      (AsyncProducer.push mask v p) fun r s =>
      match r.1 with
      | .ok _ => Held lens (Own .producer (.live q R D)) (r.2.At start (A ++ [v]) F) s
      | .error v' => v' = v ∧ Held lens (Own .producer (.live q R D)) (r.2.At start A F) s ∧
          Fresh .producer b true s := by
  have E := endpoint start mask .producer (Mode.live q R D) rfl
  unfold AsyncProducer.push Ring.push
  refine Triple.bind (Q := fun r s =>
    if r.1 then Held lens (Own .producer (.live q R D)) (r.2.At start (A ++ [v]) F) s
    else Held lens (Own .producer (.live q R D)) (r.2.At start A F) s ∧
      Fresh .producer b true s) (Triple.bind (refresh_fresh (some v) A F p) fun p' => ?_)
    fun r => ?_
  · split
    · next hfull =>
      exact Triple.ret ((held_stable (Producer.At.local start A F p')).and (Fresh.stable b true))
        fun s _ h => ⟨h.1, h.2 hfull⟩
    · next hroom =>
      exact Triple.map ((write_spec E v A F p' hroom).pre fun s _ h => h.1) fun _ _ _ h => h
  · obtain ⟨ok, p'⟩ := r
    cases ok with
    | true =>
      exact Triple.ret (held_stable (Producer.At.local start (A ++ [v]) F p')) fun _ _ h => h
    | false =>
      exact Triple.ret
        ((Contract.Stable.pure _).and ((held_stable (Producer.At.local start A F p')).and
        (Fresh.stable b true))) fun _ _ h => ⟨rfl, h⟩

/-- An endpoint of the producer in an operation: the pushes before it answered `S`, and `A` is
    accepted. -/
def Sending (start : BitVec w) (q : Prop) (S A : List V) (p : Producer w) (s : Async w V) : Prop :=
  ∃ F, Held lens (Own .producer (.live q S none)) (p.At start A F) s

variable {S A : List V}

theorem Sending.stable (p : Producer w) :
    (contract start mask .producer).Stable (Sending start q S A p) :=
  fun s s' hs hs' hr ⟨F, h⟩ =>
    ⟨F, held_stable (Producer.At.local start A F p) s s' hs hs' hr h⟩

/-- **A push answers what it did.** -/
theorem push_spec (v : V) (p : Producer w) :
    Triple (contract start mask .producer) (Sending start q S A p) (AsyncProducer.push mask v p)
      fun r s => Sending start q S (A ++ (taken v r.1).toList) r.2 s ∧
        ∀ v', r.1 = .error v' → v' = v := by
  have hret : ∀ (answer : Except V Unit) (p' : Producer w), (∀ v', answer = .error v' → v' = v) →
      Triple (contract start mask .producer)
        (Sending start q S (A ++ (taken v answer).toList) p') (.ret (answer, p')) fun r s =>
        Sending start q S (A ++ (taken v r.1).toList) r.2 s ∧ ∀ v', r.1 = .error v' → v' = v :=
    fun answer p' hown => Triple.ret ((Sending.stable p').and (Contract.Stable.pure _))
      fun _ _ h => ⟨h, hown⟩
  rintro s hs ⟨F, h⟩
  refine Triple.bind (ringPush_spec (endpoint start mask .producer _ rfl) (.zero _ _ _) v A F p)
    (fun r => ?_) s hs h
  obtain ⟨ok, p'⟩ := r
  cases ok with
  | true => exact (hret (.ok ()) p' nofun).pre fun _ _ h => ⟨F, h⟩
  | false =>
    refine (hret (.error v) p' fun v' hv => ?_).pre fun _ _ h => ⟨F, h.imp fun t ht => ?_⟩
    · exact (Except.error.inj hv).symm
    · simpa [taken] using ht.1

/-- A flush publishes and wakes. -/
theorem flush_spec (A F : List V) (p : Producer w) :
    Triple (contract start mask .producer)
      (Held lens (Own .producer (.live q R D)) (p.At start A F)) (AsyncProducer.flush p) fun _ =>
      Held lens (Own .producer (.live q R D)) (p.At start A A) :=
  Triple.bind (storeTail_spec rfl A F p) fun _ =>
    wake_spec (v := .consumer) (Producer.At.local start A A p)

theorem pushAndFlush_spec (v : V) (p : Producer w) :
    Triple (contract start mask .producer) (Sending start q S A p)
      (AsyncProducer.pushAndFlush mask v p) fun r =>
      Sending start q S (A ++ (taken v r.1).toList) r.2 := by
  refine Triple.bind (push_spec v p) fun r => ?_
  obtain ⟨answer, p'⟩ := r
  cases answer with
  | ok _ =>
    rintro s hs ⟨⟨F, h⟩, -⟩
    exact Triple.map (flush_spec (A ++ [v]) F p') (fun _ _ _ h => ⟨_, h⟩) s hs h
  | error v' => exact (Triple.ret (Sending.stable p') fun _ _ h => h).pre fun _ _ h => h.1

theorem isDropped_sending (p : Producer w) :
    Triple (contract start mask .producer) (Sending start q S A p) (isDropped .consumer)
      fun _ => Sending start q S A p := by
  rintro s hs ⟨F, h⟩
  exact ((txRead_spec (endpoint start mask .producer _ rfl) A F p _).post
    fun _ _ _ h => ⟨F, h⟩) s hs h

/-- The values a poll says it has moved. -/
def Poll.moved {α : Type} (got : α → List V) : Poll α → List V
  | .ready a => got a
  | .pending => []

/-- What a poll leaves: what it answered was done, and a pending one is watched. -/
def Polls {α : Type} (start : BitVec w) (got : α → List V) (S : List V)
    (r : Poll α × Producer w) (s : Async w V) : Prop :=
  Sending start True S (S ++ Poll.moved got r.1) r.2 s ∧ Answered .producer r.1 s

theorem ready_spec {α : Type} {got : α → List V} {a : α} (p : Producer w)
    (ha : A = S ++ got a) :
    Triple (contract start mask .producer) (Sending start True S A p) (.ret (Poll.ready a, p))
      (Polls start got S) :=
  Triple.ret ((Sending.stable p).and (Contract.Stable.pure True)) fun _ _ h => ⟨ha ▸ h, trivial⟩

theorem pending_spec {α : Type} {got : α → List V} (F : List V) (p : Producer w) :
    Triple (contract start mask .producer)
      (fun s => Held lens (Own .producer (.live True S none)) (p.At start S F) s ∧
        Fresh .producer True true s)
      (.ret (Poll.pending (α := α), p)) (Polls start got S) :=
  (Triple.ret ((Sending.stable p).and (Fresh.stable True true)) fun _ _ h => h).pre
    fun _ _ h => ⟨⟨F, by simpa [Poll.moved] using h.1⟩, h.2⟩

/-- A poll of `push_async`. -/
theorem pollPush_spec (v : V) (p : Producer w) :
    Triple (contract start mask .producer) (Sending start True S S p)
      (AsyncProducer.pollPush mask v p) (Polls start (fun r => (taken v r).toList) S) := by
  refine Triple.bind (push_spec v p) fun r => ?_
  obtain ⟨answer, p₁⟩ := r
  cases answer with
  | ok _ => exact (ready_spec p₁ rfl).pre fun _ _ h => h.1
  | error v₁ =>
    refine Triple.given (φ := v₁ = v) (fun _ _ h => h.2 v₁ rfl) ?_
    rintro rfl
    refine Triple.bind ((isDropped_sending (q := True) (S := S) (A := S) p₁).pre fun _ _ h => ?_)
      fun gone => ?_
    · simpa [taken] using h.1
    cases gone with
    | true => exact ready_spec p₁ (by simp [taken])
    | false =>
      rintro s hs ⟨F, h⟩
      refine Triple.bind (registerSpaceWaker_spec trivial rfl (Producer.At.local start S F p₁))
        (fun _ => ?_) s hs h
      refine Triple.bind (push_fresh v₁ S F p₁) fun r => ?_
      obtain ⟨answer, p₂⟩ := r
      cases answer with
      | ok _ => exact (ready_spec p₂ rfl).pre fun _ _ h => ⟨F, h⟩
      | error v₂ =>
        refine Triple.bind ((isDropped_spec (Producer.At.local start S F p₂)).pre
          fun _ _ h => h.2) fun gone => ?_
        cases gone with
        | true => exact (ready_spec p₂ (by simp [taken])).pre fun _ _ h => ⟨F, h.1⟩
        | false => exact (pending_spec F p₂).pre fun _ _ h => ⟨h.1, h.2 rfl⟩

theorem isReady_spec (p : Producer w) :
    Triple (contract start mask .producer) (Sending start q S A p)
      (AsyncProducer.isReady mask p) fun r => Sending start q S A r.2 := by
  refine Triple.bind (isDropped_sending p) fun gone => ?_
  cases gone with
  | true => exact Triple.ret (Sending.stable p) fun _ _ h => h
  | false =>
    rintro s hs ⟨F, h⟩
    exact Triple.map (refresh_spec (endpoint start mask .producer _ rfl) (.zero _ _ _) none A F p)
      (fun _ _ _ h => ⟨F, h.imp fun t ht => ht.1⟩) s hs h

/-- What `poll_ready` asks once it has registered. -/
theorem isReady_fresh (A F : List V) (p : Producer w) :
    Triple (contract start mask .producer)
      (fun s => Held lens (Own .producer (.live q R D)) (p.At start A F) s ∧
        Fresh .producer b false s)
      (AsyncProducer.isReady mask p) fun r s =>
      Held lens (Own .producer (.live q R D)) (r.2.At start A F) s ∧
        (r.1 = false → Fresh .producer True true s) := by
  have hlocal := Producer.At.local start A F p
  refine Triple.bind (isDropped_spec hlocal) fun gone => ?_
  cases gone with
  | true =>
    exact Triple.ret ((held_stable hlocal).and fun _ _ _ _ _ _ h => nomatch h)
      fun s _ h => ⟨h.1, nofun⟩
  | false =>
    refine Triple.map ((refresh_fresh none A F p).pre fun _ _ h => ⟨h.1, h.2 rfl⟩)
      fun p' s _ h => ⟨h.1, fun hfull => h.2 ?_⟩
    simpa using hfull

theorem pollReady_spec (p : Producer w) :
    Triple (contract start mask .producer) (Sending start True S S p)
      (AsyncProducer.pollReady mask p) (Polls start (fun _ => []) S) := by
  refine Triple.bind (isReady_spec p) fun r => ?_
  obtain ⟨ready, p₁⟩ := r
  cases ready with
  | true => exact ready_spec p₁ (by simp)
  | false =>
    rintro s hs ⟨F, h⟩
    refine Triple.bind (registerSpaceWaker_spec trivial rfl (Producer.At.local start S F p₁))
      (fun _ => ?_) s hs h
    refine Triple.bind (isReady_fresh S F p₁) fun r => ?_
    obtain ⟨ready, p₂⟩ := r
    cases ready with
    | true => exact (ready_spec p₂ (by simp)).pre fun _ _ h => ⟨F, h.1⟩
    | false => exact (pending_spec F p₂).pre fun _ _ h => ⟨h.1, h.2 rfl⟩

/-- The drop flushes, then says so, and wakes after each. -/
theorem dropProducer_ends (p : Producer w) :
    Triple (contract start mask .producer) (Sending start q S A p) (AsyncProducer.drop p) fun _ =>
      Held lens (Own .producer { Mode.live q S none with dropped := true })
        fun t => (tally t).accepted = A := by
  rintro s hs ⟨F, h⟩
  refine Triple.bind (flush_spec A F p) (fun _ => ?_) s hs h
  refine Triple.bind (dropProducer_spec rfl A p) fun _ => ?_
  exact (wake_spec (v := .consumer) (Producer.At.local start A A p)).post
    fun _ _ _ h => h.imp fun _ ht => ht.accepted

end Producer

/-! ## The consumer -/

section Consumer

variable {q : Prop} {R : List V} {D : Option (List V)} {b : Prop}

/-- The consumer in an operation, the values `P` popped. -/
abbrev Receiving (start : BitVec w) (q : Prop) (R : List V) (D : Option (List V)) (P : List V)
    (c : AsyncConsumer w) : Async w V → Prop :=
  Held lens (Own .consumer (.live q R D)) (c.toConsumer.At start P)

theorem Receiving.stable (P : List V) (c : AsyncConsumer w) :
    (contract start mask .consumer).Stable (Receiving start q R D P c) :=
  held_stable (Consumer.At.local start P c.toConsumer)

/-- The store of the position, the exchange and the wake it calls for. -/
theorem release_spec (P : List V) (c : AsyncConsumer w) :
    Triple (contract start mask .consumer) (Receiving start q R D P c) c.release fun c' =>
      Receiving start q R D P c' := by
  unfold AsyncConsumer.release
  split
  · exact Triple.ret (Receiving.stable P c) fun _ _ h => h
  · refine Triple.bind (storeHead_spec rfl rfl P c.toConsumer) fun _ => ?_
    refine Triple.bind (swap_spec rfl rfl P c.toConsumer) fun waiting => ?_
    cases waiting with
    | true =>
      exact Triple.map (wake_spec (v := .producer) (Consumer.At.local start P c.toConsumer))
        fun _ _ _ h => h
    | false =>
      exact Triple.ret (Receiving.stable P { c with releasedHead := c.head }) fun _ _ h => h

theorem prefetch_spec (P : List V) (c : AsyncConsumer w) :
    Triple (contract start mask .consumer) (Receiving start q R D P c) c.prefetch fun r =>
      Receiving start q R D P r.2 :=
  Triple.map (loadTail_spec (endpoint start mask .consumer (.live q R D) rfl)
    (fun _ _ _ => Nat.zero_le _) P c.toConsumer) fun _ _ _ h => h.imp fun _ ht => ht.1

theorem refill_spec (P : List V) (c : AsyncConsumer w) :
    Triple (contract start mask .consumer) (Receiving start q R D P c) c.refill fun c' =>
      Receiving start q R D P c' := by
  unfold AsyncConsumer.refill
  split
  · exact Triple.map (prefetch_spec P c) fun _ _ _ h => h
  · exact Triple.ret (Receiving.stable P c) fun _ _ h => h

theorem pop_spec (P : List V) (c : AsyncConsumer w) :
    Triple (contract start mask .consumer) (Receiving start q R D P c) (c.pop mask) fun r =>
      Receiving start q R D (P ++ r.1.toList) r.2 := by
  intro s hs h
  have hpop := Yring.pop_spec (endpoint start mask .consumer (.live q R D) rfl) P
    (tally s.ring.trace).seenTail c.toConsumer
  refine Triple.map (R := fun r : Option V × AsyncConsumer w =>
    Receiving start q R D (P ++ r.1.toList) r.2) hpop (fun r _ _ h => ?_) s hs ⟨h.1, h.2, rfl⟩
  exact h.imp fun _ ht => ht.1

theorem prefetchAndPop_spec (P : List V) (c : AsyncConsumer w) :
    Triple (contract start mask .consumer) (Receiving start q R D P c) (c.prefetchAndPop mask)
      fun r => Receiving start q R D (P ++ r.1.toList) r.2 := by
  refine Triple.bind (refill_spec P c) fun c₁ => ?_
  refine Triple.bind (pop_spec P c₁) fun r => ?_
  obtain ⟨v, c₂⟩ := r
  cases v with
  | none => exact Triple.ret (Receiving.stable _ c₂) fun _ _ h => h
  | some v => exact Triple.map (release_spec (P ++ [v]) c₂) fun _ _ _ h => h

/-- The window is used up, after registering and loading it again. -/
theorem refill_fresh (P : List V) (c : AsyncConsumer w) :
    Triple (contract start mask .consumer)
      (fun s => Receiving start q R D P c s ∧ Fresh .consumer b false s) c.refill fun c' s =>
      Receiving start q R D P c' s ∧ (c'.head = c'.cachedTail → Fresh .consumer b true s) := by
  unfold AsyncConsumer.refill
  split
  · have hload := loadTail_spec (endpoint start mask .consumer (.live q R D) rfl)
      (fun _ _ _ => Nat.zero_le _) P c.toConsumer
    have hgain := Triple.atomic_gain (R := fun _ => Fresh .consumer b true)
      (hload.pre fun _ _ (h : Receiving start q R D P c _ ∧ Fresh .consumer b false _) => h.1)
      ((Receiving.stable P c).and (Fresh.stable b false))
      (fun _ => Fresh.stable b true) fun s _ h => h.2.look ⟨rfl, rfl, rfl, rfl⟩
        (by simp [lens, Ring.loadTail, Ring.log, offered, Tally.add])
        (by simp [lens, Ring.loadTail, Ring.log, offered, Tally.add, Tally.seen])
    have hprefetch : Triple (contract start mask .consumer)
        (fun s => Receiving start q R D P c s ∧ Fresh .consumer b false s) c.prefetch fun r s =>
        Receiving start q R D P r.2 s ∧ Fresh .consumer b true s :=
      Triple.map hgain fun _ _ _ h => ⟨h.1.imp fun _ ht => ht.1, h.2⟩
    exact Triple.map hprefetch fun _ _ _ h => ⟨h.1, fun _ => h.2⟩
  · next hne =>
    refine Triple.ret ((Receiving.stable P c).and fun _ _ _ _ _ _ he => absurd he hne)
      fun _ _ h => ⟨h.1, fun he => absurd he hne⟩

theorem pop_fresh (P : List V) (c : AsyncConsumer w) :
    Triple (contract start mask .consumer)
      (fun s => Receiving start q R D P c s ∧
        (c.head = c.cachedTail → Fresh .consumer b true s)) (c.pop mask) fun r s =>
      Receiving start q R D (P ++ r.1.toList) r.2 s ∧
        (r.1 = none → Fresh .consumer b true s) := by
  by_cases he : c.head = c.cachedTail
  · have hret : c.pop (V := V) mask = .ret (none, c) := by
      unfold AsyncConsumer.pop Consumer.pop
      rw [if_pos he]
      rfl
    rw [hret]
    refine Triple.ret ((Receiving.stable _ c).and fun s s' hs hs' hr h hn =>
      Fresh.stable b true s s' hs hs' hr (h hn)) fun s _ h => ⟨?_, fun _ => h.2 he⟩
    simpa using h.1
  · intro s hs h
    have hpop := Yring.pop_spec (endpoint start mask .consumer (.live q R D) rfl) P
      (tally s.ring.trace).seenTail c.toConsumer
    refine Triple.map (R := fun (r : Option V × AsyncConsumer w) s' =>
      Receiving start q R D (P ++ r.1.toList) r.2 s' ∧
        (r.1 = none → Fresh .consumer b true s')) hpop (fun r _ _ h' => ?_) s hs
      ⟨h.1.1, h.1.2, rfl⟩
    refine ⟨h'.imp fun _ ht => ht.1, fun hnone => ?_⟩
    exact absurd ((h.1.2.head_eq_iff hs.ok).mpr (h'.2.2.2 hnone)) he

/-- The producer is gone, and `P` is all it pushed. -/
def Over (P : List V) (s : Async w V) : Prop :=
  s.ring.producerDropped = true ∧ (tally s.ring.trace).accepted = P

/-- What `poll_next` leaves: watched, or with one value more, or at the end of the stream. -/
def Polled (start : BitVec w) (R P : List V) (r : Poll (Option V) × AsyncConsumer w)
    (s : Async w V) : Prop :=
  match r.1 with
  | .pending => Receiving start True R none P r.2 s ∧ Fresh .consumer True true s
  | .ready v => Receiving start True R none (P ++ v.toList) r.2 s ∧ (v = none → Over P s)

theorem popped_spec (P : List V) (v : V) (c : AsyncConsumer w) :
    Triple (contract start mask .consumer) (Receiving start True R none (P ++ [v]) c)
      (c.release.bind fun c => .ret (Poll.ready (some v), c)) (Polled start R P) :=
  Triple.map (release_spec (P ++ [v]) c) fun _ _ _ h => ⟨h, nofun⟩

/-- **The last look**: after the producer was found dropped, a window that is used up is the
    end. -/
theorem lastLook_spec (A P : List V) (c : AsyncConsumer w) :
    Triple (contract start mask .consumer) (Receiving start True R (some A) P c)
      (do
        let (_, c) ← c.prefetch
        let (v, c) ← c.pop mask
        let c ← c.release
        return (Poll.ready v, c)) (Polled start R P) := by
  have E := endpoint start mask .consumer (Mode.live True R (some A)) rfl
  have hflushed : ∀ s : Async w V, Inv start mask s →
      Own .consumer (Mode.live True R (some A)) s →
      A.length ≤ (tally s.ring.trace).flushed.length := by
    intro s hs ho
    obtain ⟨-, hd, ha⟩ := ho.final A rfl
    rw [hs.flushed hd, ha]
  have hprefetch : Triple (contract start mask .consumer) (Receiving start True R (some A) P c)
      c.prefetch fun r => Held lens (Own .consumer (.live True R (some A))) fun t =>
        r.2.toConsumer.At start P t ∧ A.length ≤ (tally t).seenTail :=
    Triple.map (loadTail_spec E hflushed P c.toConsumer) fun _ _ _ h => h
  refine Triple.bind hprefetch fun r => ?_
  obtain ⟨n, c₁⟩ := r
  have hpop : Triple (contract start mask .consumer)
      (Held lens (Own .consumer (.live True R (some A))) fun t =>
        c₁.toConsumer.At start P t ∧ A.length ≤ (tally t).seenTail) (c₁.pop mask) fun r s =>
      Receiving start True R (some A) (P ++ r.1.toList) r.2 s ∧
        (r.1 = none → A.length ≤ P.length) := by
    intro s hs h
    refine Triple.map (R := fun (r : Option V × AsyncConsumer w) s' =>
      Receiving start True R (some A) (P ++ r.1.toList) r.2 s' ∧
        (r.1 = none → A.length ≤ P.length)) (Yring.pop_spec E P _ c₁.toConsumer)
      (fun r _ _ h' => ?_) s hs ⟨h.1, h.2.1, rfl⟩
    exact ⟨h'.imp fun _ ht => ht.1, fun hnone => h'.2.2.2 hnone ▸ h.2.2⟩
  refine Triple.bind hpop fun r => ?_
  obtain ⟨v, c₂⟩ := r
  refine Triple.given (φ := v = none → A.length ≤ P.length) (fun _ _ h => h.2) fun hle => ?_
  refine Triple.map ((release_spec (P ++ v.toList) c₂).pre fun _ _ h => h.1)
    fun c₃ s hs h => ⟨⟨⟨h.1.dropped, h.1.phase, h.1.polling, h.1.answered, nofun⟩, h.2⟩,
      fun hnone => ?_⟩
  obtain ⟨-, hd, ha⟩ := h.1.final A rfl
  have hpre := hs.ok.fits.popped
  have hpopped : (tally s.ring.trace).popped = P ++ v.toList := h.2.popped
  rw [hpopped, hnone, Option.toList_none, List.append_nil, ha] at hpre
  exact ⟨hd, ha.trans (hpre.eq_of_length_le (hle hnone)).symm⟩

/-- The answer about the producer, from a consumer that has registered and found nothing. -/
theorem isDropped_receiving (P : List V) (c : AsyncConsumer w) :
    Triple (contract start mask .consumer)
      (fun s => Receiving start True R none P c s ∧ Fresh .consumer b true s)
      (isDropped .producer) fun gone s =>
      (Receiving start True R none P c s ∧ (gone = false → Fresh .consumer True true s)) ∧
        (gone = true → ∃ A, Receiving start True R (some A) P c s) := by
  have hlocal := Consumer.At.local start P c.toConsumer
  refine Triple.atomic_gain (isDropped_spec hlocal)
    ((held_stable hlocal).and (Fresh.stable b true)) (fun gone s s' hs hs' hr h hgone => ?_)
    fun s _ h hgone => ?_
  · obtain ⟨A, hA⟩ := h hgone
    exact ⟨A, Receiving.stable P c s s' hs hs' hr hA⟩
  · refine ⟨(tally s.ring.trace).accepted, ⟨h.1.1.dropped, h.1.1.phase, h.1.1.polling,
      h.1.1.answered, fun A hA => ?_⟩, h.1.2⟩
    simp only [Option.mem_def, Option.some.injEq] at hA
    exact ⟨rfl, hgone, hA⟩

theorem pollAgain_spec (P : List V) (c : AsyncConsumer w) :
    Triple (contract start mask .consumer) (Receiving start True R none P c) (c.pollAgain mask)
      (Polled start R P) := by
  have hlocal := Consumer.At.local start P c.toConsumer
  refine Triple.bind (register_spec (u := .consumer) trivial hlocal) fun _ => ?_
  refine Triple.bind ((refill_fresh (b := False) P c).pre fun s _ h => ⟨h.1, h.2.imp_right
    fun hr => ⟨hr, .inr ⟨trivial, False.elim, fun k hk => absurd hk (by simp)⟩⟩⟩) fun c₁ => ?_
  refine Triple.bind (pop_fresh P c₁) fun r => ?_
  obtain ⟨v, c₂⟩ := r
  cases v with
  | some v => exact (popped_spec P v c₂).pre fun _ _ h => h.1
  | none =>
    refine Triple.bind ((isDropped_receiving (b := False) P c₂).pre fun s _ h =>
      ⟨by simpa using h.1, h.2 rfl⟩) fun gone => ?_
    cases gone with
    | true =>
      intro s hs h
      obtain ⟨A, hA⟩ := h.2 rfl
      exact lastLook_spec A P c₂ s hs hA
    | false =>
      exact (Triple.ret ((Receiving.stable P c₂).and (Fresh.stable True true))
        fun _ _ h => h).pre fun _ _ h => ⟨h.1.1, h.1.2 rfl⟩

/-- **A poll of the stream.** -/
theorem pollNext_spec (P : List V) (c : AsyncConsumer w) :
    Triple (contract start mask .consumer) (Receiving start True R none P c) (c.pollNext mask)
      (Polled start R P) := by
  refine Triple.bind (refill_spec P c) fun c₁ => ?_
  refine Triple.bind (pop_spec P c₁) fun r => ?_
  obtain ⟨v, c₂⟩ := r
  cases v with
  | some v => exact popped_spec P v c₂
  | none =>
    refine Triple.bind ((release_spec P c₂).pre fun s _ h => by simpa using h) fun c₃ => ?_
    exact pollAgain_spec P c₃

theorem dropConsumer_ends (P : List V) (c : AsyncConsumer w) :
    Triple (contract start mask .consumer) (Receiving start q R none P c) c.drop fun _ =>
      Held lens (Own .consumer { Mode.live q R none with dropped := true })
        fun t => (tally t).popped = P := by
  refine Triple.bind (release_spec P c) fun c₁ => ?_
  refine Triple.bind (dropConsumer_spec rfl P c₁.toConsumer) fun _ => ?_
  exact (wake_spec (v := .producer) (Consumer.At.local start P c₁.toConsumer)).post
    fun _ _ _ h => h.imp fun _ ht => ht.popped

end Consumer

/-! ## The operations -/

/-- The cursors of an endpoint are those of the trace, and its calls answered what it did. -/
def Placed (start : BitVec w) : Side → Async w V → Prop
  | .producer, s => ∃ F, s.tx.At start s.sent F s.ring.trace
  | .consumer, s => s.rx.toConsumer.At start s.returned s.ring.trace

/-- An endpoint between its operations. -/
structure Idle (start : BitVec w) (u : Side) (s : Async w V) : Prop where
  phase : s.phase u = .quiet
  placed : s.ring.dropped u = false → Placed start u s
  told : s.answered u = (tally s.ring.trace).moved u

theorem Idle.leaves {u : Side} {s s' : Async w V} (h : Idle start u s) (hl : Leaves u s s') :
    Idle start u s' := by
  obtain ⟨es, ht, hes, -⟩ := hl.trace
  refine ⟨hl.phase.trans h.phase, fun hopen => ?_, ?_⟩
  · have hplaced := h.placed (hl.dropped.symm.trans hopen)
    cases u with
    | producer =>
      obtain ⟨F, hat⟩ := hplaced
      refine ⟨F, ?_⟩
      rw [(hl.tx rfl).1, (hl.tx rfl).2, ht]
      exact Producer.At.local start s.sent F s.tx _ es hes hat
    | consumer =>
      change s'.rx.toConsumer.At start s'.returned s'.ring.trace
      rw [(hl.rx rfl).1, (hl.rx rfl).2.1, ht]
      exact Consumer.At.local start s.returned s.rx.toConsumer _ es hes hplaced
  · rw [hl.answered, ht, moved_append hes]
    exact h.told

/-- An endpoint that may make a call. -/
structure Ready (start : BitVec w) (u : Side) (q : Prop) (s : Async w V) : Prop where
  idle : Idle start u s
  alive : s.ring.dropped u = false
  polling : q → s.pending u = none

theorem Ready.stable {u : Side} {q : Prop} :
    (contract start mask u).Stable (Ready (V := V) start u q) := by
  intro s s' _ _ hr h
  have hl := leaves_of_rely hr
  exact ⟨h.idle.leaves hl, hl.dropped.trans h.alive, fun hq => hl.pending.trans (h.polling hq)⟩

theorem Idle.stable {u : Side} : (contract start mask u).Stable (Idle (V := V) start u) :=
  fun _ _ _ _ hr h => h.leaves (leaves_of_rely hr)

/-- The end of a call of the producer. -/
theorem leaveTx {s : Async w V} {p : Producer w} {π : Side → Option Nat} {S : List V}
    (h : Inv start mask s) (hπ : π .consumer = s.pending .consumer)
    (hw : ∀ n, π .producer = some n → Watched .producer True (some n) s)
    (hS : S = (tally s.ring.trace).accepted) :
    Inv start mask { s with tx := p, pending := π, sent := S } ∧
      Guar .producer s { s with tx := p, pending := π, sent := S } := by
  have hg : Guar .producer s { s with tx := p, pending := π, sent := S } :=
    ⟨⟨[], (List.append_nil _).symm, By.nil _, fun _ => rfl⟩, id, rfl, hπ, rfl, nofun,
      fun _ => ⟨rfl, rfl, rfl⟩, id, fun _ _ => id⟩
  refine ⟨⟨h.ok, h.live, fun u n hu => ?_, h.flushed, fun u => ?_, h.ended⟩, hg⟩
  · cases u with
    | producer => exact hw n hu
    | consumer => exact h.watched .consumer n (hπ.symm.trans hu)
  · cases u with
    | producer => exact hS ▸ List.prefix_rfl
    | consumer => exact h.answered .consumer

/-- The end of a call of the consumer. -/
theorem leaveRx {s : Async w V} {c : AsyncConsumer w} {π : Side → Option Nat} {R : List V}
    {e : Bool} (h : Inv start mask s) (hπ : π .producer = s.pending .producer)
    (hw : ∀ n, π .consumer = some n → Watched .consumer True (some n) s)
    (hR : R = (tally s.ring.trace).popped)
    (he : e = true → s.ended = true ∨ Over (tally s.ring.trace).popped s) :
    Inv start mask { s with rx := c, pending := π, returned := R, ended := e } ∧
      Guar .consumer s { s with rx := c, pending := π, returned := R, ended := e } := by
  have hg : Guar .consumer s { s with rx := c, pending := π, returned := R, ended := e } :=
    ⟨⟨[], (List.append_nil _).symm, By.nil _, fun _ => rfl⟩, id, rfl, hπ, rfl,
      fun _ => ⟨rfl, rfl⟩, nofun, id, fun _ _ => id⟩
  refine ⟨⟨h.ok, h.live, fun u n hu => ?_, h.flushed, fun u => ?_, fun hend => ?_⟩, hg⟩
  · cases u with
    | producer => exact h.watched .producer n (hπ.symm.trans hu)
    | consumer => exact hw n hu
  · cases u with
    | producer => exact h.answered .producer
    | consumer => exact hR ▸ List.prefix_rfl
  · rcases he hend with hold | hover
    · exact ⟨(h.ended hold).1, (h.ended hold).2.1, hR⟩
    · exact ⟨hover.1, hover.2.symm, hR⟩

/-- A call of the producer: what its code ends in is what the record may say. -/
theorem callTx_spec {q : Prop} {α : Type} {f : Producer w → Prog (Async w V) (α × Producer w)}
    (leave : α → Async w V → Async w V) {Q : List V → α × Producer w → Async w V → Prop}
    (hf : ∀ S p, Triple (contract start mask .producer) (Sending start q S S p) (f p) (Q S))
    (hleave : ∀ S r s, Inv start mask s → Q S r s → s.phase .producer = .quiet ∧
      ∃ π S', leave r.1 (producer.set r.2 s) = { s with tx := r.2, pending := π, sent := S' } ∧
        π .consumer = s.pending .consumer ∧
        (∀ n, π .producer = some n → Watched .producer True (some n) s) ∧
        S' = (tally s.ring.trace).accepted ∧
        (s.ring.dropped .producer = false → ∃ F, r.2.At start S' F s.ring.trace)) :
    Triple (contract start mask .producer) (Ready start .producer q) (call producer f leave)
      fun _ => Idle start .producer := by
  refine Triple.bind (Q := fun p s => ∃ S, Sending start q S S p s) (Triple.read Ready.stable
    (fun p s s' hs hs' hr h => ?_) (Leaves.refl _) fun s _ _ h _ => ?_) fun p => ?_
  · obtain ⟨S, h⟩ := h
    exact ⟨S, Sending.stable p s s' hs hs' hr h⟩
  · obtain ⟨F, hat⟩ := h.idle.placed h.alive
    exact ⟨s.sent, F, ⟨h.alive, h.idle.phase, h.polling, rfl, nofun⟩, hat⟩
  · rintro s hs ⟨S, h⟩
    refine Triple.seq (hf S p) (fun r => Triple.atomic Contract.Lasting.stable
      (fun _ => Idle.stable) fun s _ hs h _ => ?_) s hs h
    obtain ⟨hphase, π, S', heq, hπ, hw, hS, hat⟩ := hleave S r s hs h.now
    dsimp only
    rw [heq]
    obtain ⟨hi, hg⟩ := leaveTx (p := r.2) hs hπ hw hS
    exact ⟨hi, hg, hphase, hat, hS⟩

theorem callRx_spec {q : Prop} {α : Type}
    {f : AsyncConsumer w → Prog (Async w V) (α × AsyncConsumer w)}
    (leave : α → Async w V → Async w V)
    {Q : List V → α × AsyncConsumer w → Async w V → Prop}
    (hf : ∀ R c, Triple (contract start mask .consumer) (Receiving start q R none R c) (f c) (Q R))
    (hleave : ∀ R r s, Inv start mask s → Q R r s → s.phase .consumer = .quiet ∧
      ∃ π R' e, leave r.1 (consumer.set r.2 s) =
        { s with rx := r.2, pending := π, returned := R', ended := e } ∧
        π .producer = s.pending .producer ∧
        (∀ n, π .consumer = some n → Watched .consumer True (some n) s) ∧
        R' = (tally s.ring.trace).popped ∧
        (e = true → s.ended = true ∨ Over (tally s.ring.trace).popped s) ∧
        (s.ring.dropped .consumer = false → r.2.toConsumer.At start R' s.ring.trace)) :
    Triple (contract start mask .consumer) (Ready start .consumer q) (call consumer f leave)
      fun _ => Idle start .consumer := by
  refine Triple.bind (Q := fun c s => ∃ R, Receiving start q R none R c s)
    (Triple.read Ready.stable (fun c s s' hs hs' hr h => ?_) (Leaves.refl _)
      fun s _ _ h _ => ?_) fun c => ?_
  · obtain ⟨R, h⟩ := h
    exact ⟨R, Receiving.stable R c s s' hs hs' hr h⟩
  · exact ⟨s.returned, ⟨h.alive, h.idle.phase, h.polling, rfl, nofun⟩, h.idle.placed h.alive⟩
  · rintro s hs ⟨R, h⟩
    refine Triple.seq (hf R c) (fun r => Triple.atomic Contract.Lasting.stable
      (fun _ => Idle.stable) fun s _ hs h _ => ?_) s hs h
    obtain ⟨hphase, π, R', e, heq, hπ, hw, hR, he, hat⟩ := hleave R r s hs h.now
    dsimp only
    rw [heq]
    obtain ⟨hi, hg⟩ := leaveRx (c := r.2) hs hπ hw hR he
    exact ⟨hi, hg, hphase, hat, hR⟩

/-- A poll starts: what the last one answered is forgotten. -/
theorem forget_spec {u : Side} :
    Triple (contract start mask u) (Ready (V := V) start u False)
      (Prog.write (setPending u none)) fun _ => Ready start u True := by
  refine Triple.atomic Ready.stable (fun _ => Ready.stable) fun s _ hs h _ => ?_
  have hmine : (Function.update s.pending u none) u = none := Function.update_self ..
  have hother : (Function.update s.pending u none) u.other = s.pending u.other :=
    Function.update_of_ne (Side.ne_other u).symm ..
  have hg : Guar u s (s.setPending u none) :=
    ⟨⟨[], (List.append_nil _).symm, By.nil _, fun _ => rfl⟩, id, rfl, hother, rfl,
      fun _ => ⟨rfl, rfl⟩, fun _ => ⟨rfl, rfl, rfl⟩, id, fun _ _ => id⟩
  refine ⟨hs.silent hg rfl (fun n hn => absurd (hmine.symm.trans hn) (by simp)) rfl rfl rfl, hg,
    ⟨h.idle.phase, fun ha => ?_, ?_⟩, h.alive, fun _ => hmine⟩
  · cases u with
    | producer => exact h.idle.placed ha
    | consumer => exact h.idle.placed ha
  · cases u with
    | producer => exact h.idle.told
    | consumer => exact h.idle.told

/-- A call of the producer that is no poll; `leave` says which values it had accepted. -/
theorem sending_spec {α : Type} {f : Producer w → Prog (Async w V) (α × Producer w)}
    (got : α → List V) (leave : α → Async w V → Async w V)
    (hf : ∀ S p, Triple (contract start mask .producer) (Sending start False S S p) (f p)
      fun r => Sending start False S (S ++ got r.1) r.2)
    (hleave : ∀ a s, leave a s = { s with sent := s.sent ++ got a }) :
    Triple (contract start mask .producer) (Ready start .producer False)
      (call producer f leave) fun _ => Idle start .producer := by
  refine callTx_spec leave hf fun S r s hs h => ?_
  obtain ⟨F, hown, hat⟩ := h
  refine ⟨hown.phase, s.pending, S ++ got r.1, ?_, rfl, fun n hn => hs.watched .producer n hn,
    hat.accepted.symm, fun _ => ⟨F, hat⟩⟩
  rw [hleave]
  have hsent : s.sent = S := hown.answered
  simp [producer, hsent]

/-- A poll of the producer. -/
theorem pollTx_spec {α : Type} {f : Producer w → Prog (Async w V) (Poll α × Producer w)}
    (got : α → List V) (leave : α → Async w V → Async w V)
    (hf : ∀ S p, Triple (contract start mask .producer) (Sending start True S S p) (f p)
      (Polls start got S))
    (hleave : ∀ a s, leave a s = { s with sent := s.sent ++ got a }) :
    Triple (contract start mask .producer) (Ready start .producer False)
      (poll .producer producer f leave) fun _ => Idle start .producer := by
  refine Triple.bind forget_spec fun _ => callTx_spec _ hf fun S r s hs h => ?_
  obtain ⟨a, p⟩ := r
  obtain ⟨⟨F, hown, hat⟩, hanswered⟩ := h
  have hsent : s.sent = S := hown.answered
  cases a with
  | ready a =>
    refine ⟨hown.phase, s.pending, S ++ got a, ?_, rfl,
      fun n hn => hs.watched .producer n hn, hat.accepted.symm, fun _ => ⟨F, hat⟩⟩
    dsimp only
    rw [hleave]
    simp [producer, hsent]
  | pending =>
    simp only [Poll.moved, List.append_nil] at hat
    refine ⟨hown.phase,
      Function.update s.pending .producer (some ((tally s.ring.trace).seen .producer)), S, ?_,
      rfl, fun n hn => ?_, hat.accepted.symm, fun _ => ⟨F, hat⟩⟩
    · simp [setPending, producer, hsent]
    · simp only [Function.update_self, Option.some.injEq] at hn
      subst hn
      exact hanswered

/-- A call of the consumer that is no poll; `leave` says which values it gave out. -/
theorem receiving_spec {α : Type} {f : AsyncConsumer w → Prog (Async w V) (α × AsyncConsumer w)}
    (got : α → List V) (leave : α → Async w V → Async w V)
    (hf : ∀ R c, Triple (contract start mask .consumer) (Receiving start False R none R c) (f c)
      fun r => Receiving start False R none (R ++ got r.1) r.2)
    (hleave : ∀ a s, leave a s = { s with returned := s.returned ++ got a }) :
    Triple (contract start mask .consumer) (Ready start .consumer False)
      (call consumer f leave) fun _ => Idle start .consumer := by
  refine callRx_spec leave hf fun R r s hs h =>
    ⟨h.1.phase, s.pending, R ++ got r.1, s.ended, ?_, rfl,
    fun n hn => hs.watched .consumer n hn, h.2.popped.symm, .inl, fun _ => h.2⟩
  rw [hleave]
  have hret : s.returned = R := h.1.answered
  simp [consumer, hret]

/-- A poll of the stream, as a call. -/
theorem pollRx_spec :
    Triple (contract start mask .consumer) (Ready (V := V) start .consumer False)
      (poll .consumer consumer (fun c => c.pollNext mask) yield) fun _ =>
      Idle start .consumer := by
  refine Triple.bind forget_spec fun _ => callRx_spec _ (fun R c => pollNext_spec R c)
    fun R r s hs h => ?_
  obtain ⟨a, c⟩ := r
  cases a with
  | ready v =>
    obtain ⟨⟨hown, hat⟩, hover⟩ := h
    have hret : s.returned = R := hown.answered
    refine ⟨hown.phase, s.pending, R ++ v.toList, s.ended || v.isNone, ?_, rfl,
      fun n hn => hs.watched .consumer n hn, hat.popped.symm, fun he => ?_, fun _ => hat⟩
    · simp [yield, give, consumer, hret]
    · rcases Bool.or_eq_true_iff.mp he with hold | hnone
      · exact .inl hold
      · obtain rfl := Option.isNone_iff_eq_none.mp hnone
        have hpopped : (tally s.ring.trace).popped = R :=
          hat.popped.trans (List.append_nil R)
        exact .inr (hpopped ▸ hover rfl)
  | pending =>
    obtain ⟨⟨hown, hat⟩, hfresh⟩ := h
    have hret : s.returned = R := hown.answered
    refine ⟨hown.phase, Function.update s.pending .consumer
      (some ((tally s.ring.trace).seen .consumer)), R, s.ended, ?_, rfl, fun n hn => ?_,
      hat.popped.symm, .inl, fun _ => hat⟩
    · simp [setPending, consumer, hret]
    · simp only [Function.update_self, Option.some.injEq] at hn
      subst hn
      exact hfresh

theorem code_spec (op : Op V) :
    Triple (contract start mask op.side) (Ready start op.side False) (code mask op) fun _ =>
      Idle start op.side := by
  cases op with
  | push v =>
    exact sending_spec (fun r => (taken v r).toList) (took v)
      (fun S p => (push_spec v p).post fun _ _ _ h => h.1) fun _ _ => rfl
  | flush =>
    refine sending_spec (fun _ => []) (fun _ s => s) (fun S p s hs h => ?_) fun _ s => by simp
    obtain ⟨F, h⟩ := h
    exact Triple.map (flush_spec S F p) (fun _ _ _ h => ⟨S, by simpa using h⟩) s hs h
  | pushAndFlush v =>
    exact sending_spec (fun r => (taken v r).toList) (took v)
      (fun S p => pushAndFlush_spec v p) fun _ _ => rfl
  | pollPush v =>
    exact pollTx_spec (fun r => (taken v r).toList) (took v) (fun S p => pollPush_spec v p)
      fun _ _ => rfl
  | pollReady =>
    exact pollTx_spec (fun _ => []) (fun _ s => s) (fun S p => pollReady_spec p)
      fun _ s => by simp
  | dropProducer =>
    refine callTx_spec (fun _ s => s) (q := False) (Q := fun S _ => Held lens (Own .producer
      { Mode.live False S none with dropped := true }) fun t => (tally t).accepted = S)
      (fun S p => Triple.map (dropProducer_ends p) fun _ _ _ h => h)
      fun S r s hs h => ⟨h.1.phase, s.pending, S, ?_, rfl,
        fun n hn => hs.watched .producer n hn, h.2.symm, fun ha => ?_⟩
    · have hsent : s.sent = S := h.1.answered
      simp [producer, hsent]
    · exact absurd (ha.symm.trans h.1.dropped) (by simp)
  | prefetch =>
    refine receiving_spec (fun _ => []) (fun _ s => s) (fun R c => (prefetch_spec R c).post
      fun _ _ _ h => ?_) fun _ s => ?_
    · simpa using h
    · simp
  | pop => exact receiving_spec Option.toList give (fun R c => pop_spec R c) fun _ _ => rfl
  | release =>
    refine receiving_spec (fun _ => []) (fun _ s => s) (fun R c => Triple.map (release_spec R c)
      fun _ _ _ h => ?_) fun _ s => ?_
    · simpa using h
    · simp
  | prefetchAndPop =>
    exact receiving_spec Option.toList give (fun R c => prefetchAndPop_spec R c) fun _ _ => rfl
  | pollNext => exact pollRx_spec
  | dropConsumer =>
    refine callRx_spec (fun _ s => s) (q := False) (Q := fun R _ => Held lens (Own .consumer
      { Mode.live False R none with dropped := true }) fun t => (tally t).popped = R)
      (fun R c => Triple.map (dropConsumer_ends R c) fun _ _ _ h => h)
      fun R r s hs h => ⟨h.1.phase, s.pending, R, s.ended, ?_, rfl,
        fun n hn => hs.watched .consumer n hn, h.2.symm, .inl, fun ha => ?_⟩
    · have hret : s.returned = R := h.1.answered
      simp [consumer, hret]
    · exact absurd (ha.symm.trans h.1.dropped) (by simp)

/-! ## No wake is lost -/

def outline (start mask : BitVec w) : Outline (system mask : System (Async w V) Side (Op V)) where
  inv := Inv start mask
  guar := Guar
  cond _ _ _ := True
  callable _ _ _ := True
  idle := Idle start
  guar_refl u := Leaves.refl u.other
  idle_stable t u s s' hu hs hs' hg h := by
    have hstable : (contract start mask t).Stable (Idle (V := V) start t) := Idle.stable
    exact hstable s s' hs hs' ⟨u, hu, hg⟩ h
  code_ok t op s hs hidle hmay _ := by
    simp only [system, Bool.and_eq_true, beq_iff_eq, Bool.not_eq_true'] at hmay
    obtain ⟨rfl, halive⟩ := hmay
    exact code_spec op s hs ⟨hidle, halive, False.elim⟩

theorem good_of_run (hmask : LowBits mask) {c : Config (Async w V) Side}
    (hrun : (system mask).Run System.always (initial start) c) : (outline start mask).Good c := by
  have htold : ∀ u, (Async.new start : Async w V).answered u = (tally []).moved u := by
    intro u
    cases u <;> rfl
  have hinv : Inv (V := V) start mask (.new start) :=
    ⟨.new hmask, rfl, fun _ _ h => absurd h (by simp [new]),
      fun h => absurd h (by simp [new, Ring.new]), fun u => htold u ▸ List.prefix_rfl,
      fun h => absurd h (by simp [new])⟩
  have hplaced : ∀ u, Placed (V := V) start u (.new start) := by
    intro u
    cases u with
    | producer => exact ⟨[], rfl, rfl, (count_zero start).symm, (count_zero start).symm⟩
    | consumer => exact ⟨rfl, (count_zero start).symm, (count_zero start).symm⟩
  have hgood : (outline (V := V) start mask).Good (initial start) :=
    ⟨hinv, fun u => ⟨rfl, fun _ => hplaced u, htold u⟩⟩
  refine Outline.good_run hgood (System.Run.mono (fun c l _ => ?_) hrun)
  cases l <;> trivial

/-- A watched endpoint whose peer is between its operations has been woken for all it missed. -/
theorem woken_of_idle {u : Side} {n : Nat} {s : Async w V} (h : Watched u True (some n) s)
    (hphase : s.phase u.other = .quiet)
    (hmissed : n < offered (tally s.ring.trace) u ∨ s.ring.dropped u.other = true) :
    (s.waker u).woken = true := by
  rcases h with hwoken | ⟨-, hwaking | ⟨-, halive, hseen⟩⟩
  · exact hwoken
  · exact absurd (hphase.symm.trans hwaking) (by simp)
  · rcases hmissed with hlt | hgone
    · rcases hseen n rfl with heq | hstored
      · exact absurd heq (Nat.ne_of_gt hlt)
      · exact absurd (hphase.symm.trans hstored) (by simp)
    · exact absurd ((halive trivial).symm.trans hgone) (by simp)

/-- **The asynchronous endpoints lose no wake and end exactly at the end of the stream.** An
    endpoint whose last poll answered `Pending`, having seen `n` values of the other, has been
    woken since it registered if the other endpoint is in no operation and has released or flushed
    more, or was dropped. A poll of the stream answers its end only when the producer was dropped
    and every value it pushed has been given out, and values are given out in the order of the
    pushes. Pushed are the values whose push answered `Ok`, but for one that has not returned
    yet. -/
theorem pending_polls_are_woken {k : Nat} (hmask : maskOf w k = some mask)
    {c : Config (Async w V) Side} (hrun : (system mask).Run System.always (initial start) c) :
    (∀ n, c.st.pending .producer = some n → c.pool .consumer = none →
        (n < (tally c.st.ring.trace).released.length ∨ c.st.ring.consumerDropped = true) →
          (c.st.waker .producer).woken = true) ∧
      (∀ n, c.st.pending .consumer = some n → c.pool .producer = none →
        (n < (tally c.st.ring.trace).flushed.length ∨ c.st.ring.producerDropped = true) →
          (c.st.waker .consumer).woken = true) ∧
      (c.st.ended = true → c.st.ring.producerDropped = true ∧
        c.st.returned = (tally c.st.ring.trace).accepted) ∧
      c.st.returned <+: (tally c.st.ring.trace).accepted ∧
      c.st.sent <+: (tally c.st.ring.trace).accepted ∧
      (c.pool .producer = none → c.st.sent = (tally c.st.ring.trace).accepted) := by
  obtain ⟨hinv, hthreads⟩ := good_of_run (.of_maskOf hmask) hrun
  have hinv : Inv start mask c.st := hinv
  have hidle : ∀ u, c.pool u = none → Idle start u c.st := by
    intro u hu
    have h := hthreads u
    rwa [hu] at h
  refine ⟨fun n hn hp hmissed => ?_, fun n hn hp hmissed => ?_, fun he => ?_, ?_,
    hinv.answered .producer, fun hp => (hidle .producer hp).told⟩
  · exact woken_of_idle (hinv.watched .producer n hn) (hidle .consumer hp).phase hmissed
  · exact woken_of_idle (hinv.watched .consumer n hn) (hidle .producer hp).phase hmissed
  · obtain ⟨hd, hp, hr⟩ := hinv.ended he
    exact ⟨hd, hr.trans hp⟩
  · exact (hinv.answered .consumer).trans hinv.ok.fits.popped

/-- A ring of one slot: the producer's poll is pending, the stream is polled, the producer is
    dropped, and a last poll finds the end. -/
def drained : Config (Async 3 Nat) Side :=
  (system 0#3).after (initial 7#3) (List.flatten [System.turn .producer (.pushAndFlush 10) 5,
    System.turn .producer (.pollPush 20) 9, System.turn .consumer .pollNext 8,
    System.turn .producer .dropProducer 6, System.turn .consumer .pollNext 8])

theorem drained_polls :
    drained.st.pending .producer = some 0 ∧ drained.st.ended = true ∧
      (drained.st.waker .producer).woken = true ∧
      drained.st.returned = (tally drained.st.ring.trace).accepted ∧
      drained.st.sent = (tally drained.st.ring.trace).accepted := by
  have hrun : (system 0#3).Run System.always (initial 7#3) drained :=
    System.run_after (by decide +kernel)
  obtain ⟨hspace, -, hend, -, -, hsent⟩ :=
    pending_polls_are_woken (k := 1) (by decide +kernel) hrun
  refine ⟨by decide +kernel, by decide +kernel, hspace 0 (by decide +kernel) ?_ ?_, ?_, hsent ?_⟩
  · have hidle : (drained.pool .consumer).isNone = true := by decide +kernel
    exact Option.isNone_iff_eq_none.mp hidle
  · exact .inl (by decide +kernel)
  · exact (hend (by decide +kernel)).2
  · have hidle : (drained.pool .producer).isNone = true := by decide +kernel
    exact Option.isNone_iff_eq_none.mp hidle

end Fanring.Yring.Async
