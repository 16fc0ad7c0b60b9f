import Fanring.Yring.System

/-!
# A bounded queue that loses nothing

The proof outline of the two threads of a ring, and the two theorems it pays for. The assertion of
a thread between its operations says only that its endpoint's cursors are the ones the trace
counts and that its calls answered what it did; everything else is in the invariant, so each
operation comes down to the specification of its code.
-/

set_option autoImplicit false

namespace Fanring.Yring

open Conc Cursor

variable {w : Nat} {V : Type} {start mask : BitVec w} {wrapped : Bool}

/-- An operation of the producer that is no push. -/
theorem borrowTx_spec {α : Type} {f : Producer w → Prog (Spsc w V) (α × Producer w)}
    (hf : ∀ A F p n, Triple (contract start mask wrapped .producer)
      (Held Spsc.lens (Owner .producer A n) (p.At start A F)) (f p) fun r =>
        Held Spsc.lens (Owner .producer A n) fun t => ∃ F', r.2.At start A F' t) :
    Triple (contract start mask wrapped .producer)
      (fun s => s.alive .producer = true ∧ Idle start .producer s)
      (borrow Spsc.producer f fun _ _ s => s) fun _ => Idle start .producer := by
  have hlocal : ∀ (A : List V) (p : Producer w), Local .producer fun t =>
    ∃ F, p.At start A F t := by
    rintro A p t es hes ⟨F, hA⟩
    exact ⟨F, Producer.At.local start A F p t es hes hA⟩
  refine borrow_spec (u := .producer) (H := Spsc.producer) hlocal (fun _ h => h)
    (Q := fun A _ r t => ∃ F, r.2.At start A F t) (fun A _ r => hlocal A r.2) (fun A n p => ?_)
    fun A n r s hs ho hq => ?_
  · rintro s hs ⟨ho, F, hA⟩
    exact hf A F p n s hs ⟨ho, hA⟩
  · obtain ⟨F, hA⟩ := hq
    refine ⟨rfl, rfl, rfl, rfl, ⟨rfl, rfl⟩, ⟨F, ?_⟩, hs.records.frame rfl rfl⟩
    rw [← ho.answered] at hA
    exact hA

/-- An operation that only reads the producer's cursors. -/
theorem borrowedTx_spec {α : Type} {f : Producer w → Prog (Spsc w V) α}
    (hf : ∀ A F p n, Triple (contract start mask wrapped .producer)
      (Held Spsc.lens (Owner .producer A n) (p.At start A F)) (f p) fun _ =>
        Held Spsc.lens (Owner .producer A n) (p.At start A A)) :
    Triple (contract start mask wrapped .producer)
      (fun s => s.alive .producer = true ∧ Idle start .producer s) (borrowed Spsc.producer f)
      fun _ => Idle start .producer :=
  borrowTx_spec fun A F p n => Triple.map (hf A F p n) fun _ _ _ h => h.imp fun _ ht => ⟨A, ht⟩

/-- **A push answers `Ok` if its value was written, and `Err` if the ring was full.** -/
theorem borrowPush_spec {v : V}
    {f : Producer w → Prog (Spsc w V) (Except V Unit × Producer w)}
    (hf : ∀ A F p n, ∃ G, Triple (contract start mask wrapped .producer)
      (Held Spsc.lens (Owner .producer A n) (p.At start A F)) (f p) fun r =>
        Held Spsc.lens (Owner .producer A n) (Pushed start mask A F v n G r.1 r.2)) :
    Triple (contract start mask wrapped .producer)
      (fun s => s.alive .producer = true ∧ Idle start .producer s)
      (borrow Spsc.producer f (Spsc.answer v)) fun _ => Idle start .producer := by
  refine borrow_spec (u := .producer) (H := Spsc.producer)
    (R := fun A p t => ∃ F, p.At start A F t) ?_ (fun _ h => h)
    (Q := fun A n r t => ∃ F G, Pushed start mask A F v n G r.1 r.2 t) ?_
    (fun A n p => ?_) fun A n r s hs ho hq => ?_
  · rintro A p t es hes ⟨F, hA⟩
    exact ⟨F, Producer.At.local start A F p t es hes hA⟩
  · rintro A n r t es hes ⟨F, G, h⟩
    exact ⟨F, G, Pushed.local start mask A F v n G r.1 r.2 t es hes h⟩
  · rintro s hs ⟨ho, F, hA⟩
    obtain ⟨G, hG⟩ := hf A F p n
    exact (hG.post fun r s _ h => h.imp fun t ht => ⟨F, G, ht⟩) s hs ⟨ho, hA⟩
  · obtain ⟨F, G, hq⟩ := hq
    obtain ⟨answer, p'⟩ := r
    have hans : ∀ p : Producer w, ((Spsc.producer.set p s).answer v n answer).answered .producer =
        A ++ (Sent.accepted ⟨v, answer, n, s.ring.trace.length⟩).toList := by
      intro p
      change (s.sent ++ [_]).filterMap Sent.accepted = _
      rw [List.filterMap_append, ← ho.answered]
      cases answer <;> rfl
    have hright : Sent.Right (capacity mask) s.ring.trace ⟨v, answer, n, s.ring.trace.length⟩ := by
      refine .now fun v' hv => ?_
      subst hv
      exact ⟨hq.1, hq.2.2⟩
    refine ⟨rfl, rfl, rfl, rfl, ⟨rfl, rfl⟩, ?_, fun x hx => ?_, hs.records.got⟩
    · change ∃ F', p'.At start (((Spsc.producer.set p' s).answer v n answer).answered .producer) F'
        s.ring.trace
      rw [hans]
      cases answer with
      | ok _ => exact ⟨G, hq⟩
      | error v' => exact ⟨F, by simpa [Sent.accepted, taken] using hq.2.1⟩
    · rcases List.mem_append.mp hx with hx | hx
      · exact hs.records.sent x hx
      · obtain rfl := List.mem_singleton.mp hx
        exact hright

/-- An operation of the consumer that moves no value. -/
theorem borrowRx_spec {α : Type} {f : Consumer w → Prog (Spsc w V) (α × Consumer w)}
    (hf : ∀ P c n, Triple (contract start mask wrapped .consumer)
      (Held Spsc.lens (Owner .consumer P n) (c.At start P)) (f c) fun r =>
        Held Spsc.lens (Owner .consumer P n) (r.2.At start P)) :
    Triple (contract start mask wrapped .consumer)
      (fun s => s.alive .consumer = true ∧ Idle start .consumer s)
      (borrow Spsc.consumer f fun _ _ s => s) fun _ => Idle start .consumer := by
  refine borrow_spec (H := Spsc.consumer) (R := fun P c t => c.At start P t)
    (fun P c => Consumer.At.local start P c) (fun _ h => h) (Q := fun P _ r t => r.2.At start P t)
    (fun P _ r => Consumer.At.local start P r.2) (fun P n c => hf P c n)
    fun P n r s hs ho hq => ?_
  refine ⟨rfl, rfl, rfl, rfl, ⟨rfl, rfl⟩, ?_, hs.records.frame rfl rfl⟩
  rw [← ho.answered] at hq
  exact hq

/-- An operation that only reads the consumer's cursors. -/
theorem borrowedRx_spec {α : Type} {f : Consumer w → Prog (Spsc w V) α}
    (hf : ∀ P c n, Triple (contract start mask wrapped .consumer)
      (Held Spsc.lens (Owner .consumer P n) (c.At start P)) (f c) fun _ =>
        Held Spsc.lens (Owner .consumer P n) (c.At start P)) :
    Triple (contract start mask wrapped .consumer)
      (fun s => s.alive .consumer = true ∧ Idle start .consumer s) (borrowed Spsc.consumer f)
      fun _ => Idle start .consumer :=
  borrowRx_spec fun P c n => Triple.map (hf P c n) fun _ _ _ h => h

/-- **A pop answers the values it took.** -/
theorem borrowPop_spec {α : Type} {f : Consumer w → Prog (Spsc w V) (α × Consumer w)}
    (got : α → Got V)
    (hf : ∀ P c n, Triple (contract start mask wrapped .consumer)
      (Held Spsc.lens (Owner .consumer P n) (c.At start P)) (f c) fun r =>
        Held Spsc.lens (Owner .consumer P n) fun t =>
          r.2.At start (P ++ (got r.1).values) t ∧ (got r.1).Counted) :
    Triple (contract start mask wrapped .consumer)
      (fun s => s.alive .consumer = true ∧ Idle start .consumer s)
      (borrow Spsc.consumer f fun _ a => Spsc.give (got a)) fun _ => Idle start .consumer := by
  refine borrow_spec (H := Spsc.consumer) (R := fun P c t => c.At start P t)
    (fun P c => Consumer.At.local start P c) (fun _ h => h)
    (Q := fun P _ r t => r.2.At start (P ++ (got r.1).values) t ∧ (got r.1).Counted)
    (fun P _ r => (Consumer.At.local start _ r.2).and (Local.pure _)) (fun P n c => hf P c n)
    fun P n r s hs ho hq => ?_
  refine ⟨rfl, rfl, rfl, rfl, ⟨rfl, rfl⟩, ?_, hs.records.sent, fun x hx => ?_⟩
  · have hans : (s.got ++ [got r.1]).flatMap Got.values = P ++ (got r.1).values := by
      rw [List.flatMap_append, ← ho.answered]
      simp [Spsc.answered]
    change r.2.At start ((s.got ++ [got r.1]).flatMap Got.values) s.ring.trace
    rw [hans]
    exact hq.1
  · rcases List.mem_append.mp hx with hx | hx
    · exact hs.records.got x hx
    · obtain rfl := List.mem_singleton.mp hx
      exact hq.2

/-- So does a bulk pop, and it answers their number. -/
theorem borrowBulk_spec {f : Consumer w → Prog (Spsc w V) (Nat × List V × Consumer w)}
    (hf : ∀ P c n, Triple (contract start mask wrapped .consumer)
      (Held Spsc.lens (Owner .consumer P n) (c.At start P)) (f c) fun r =>
        Held Spsc.lens (Owner .consumer P n) (Bulk start P [] r)) :
    Triple (contract start mask wrapped .consumer)
      (fun s => s.alive .consumer = true ∧ Idle start .consumer s)
      (borrow Spsc.consumer (fun c => do
        let (n, output, c) ← f c
        return ((n, output), c)) fun _ r => Spsc.give (.bulk r.1 r.2))
      fun _ => Idle start .consumer := by
  refine borrowPop_spec (fun r : Nat × List V => .bulk r.1 r.2) fun P c n =>
    Triple.map (hf P c n) fun r s _ h => h.imp fun t ht => ?_
  obtain ⟨vs, ho, hl, hat⟩ := ht
  rw [List.nil_append] at ho
  subst ho
  exact ⟨hat, hl.symm⟩

/-- The drop of an endpoint: its close, and its share of the ring. -/
theorem dropEnd_spec {τ : Type} {u : Side} {H : Lens (Spsc w V) τ}
    {R : List V → τ → List (Event V) → Prop} (hlocal : ∀ vs x, Local u (R vs x))
    (hpos : ∀ s, Positioned start u s → R (s.answered u) (H.get s) s.ring.trace)
    {close : τ → Prog (Spsc w V) Unit}
    (hclose : ∀ vs x, Triple (contract start mask wrapped u)
      (Held Spsc.lens (Owner u vs 0) (R vs x)) (close x) fun _ =>
        Held Spsc.lens (Owner u vs 0) fun t => Done u t ∧ (tally t).moved u = vs) :
    Triple (contract start mask wrapped u) (fun s => s.alive u = true ∧ Idle start u s)
      (do let x ← Prog.read H.get
          close x
          dropArc mask wrapped u) fun _ => Idle start u := by
  refine Triple.bind (Q := fun x s => ∃ vs, Held Spsc.lens (Owner u vs 0) (R vs x) s)
    (Triple.read ((alive_stable start mask wrapped u).and Idle.stable_in) (fun x => ?_) .stay
      fun s _ _ h _ => ⟨s.answered u, ⟨h.1, rfl, Nat.zero_le _⟩, hpos s (h.2.at_ h.1)⟩)
    fun x => ?_
  · rintro s s' hs hs' hr ⟨vs, h⟩
    exact ⟨vs, (endpoint start mask wrapped u vs 0).stable (hlocal vs x) s s' hs hs' hr h⟩
  · rintro s hs ⟨vs, h⟩
    exact Triple.bind (hclose vs x) (fun _ => dropArc_spec u vs) s hs h

/-- **Every operation keeps its thread's assertion.** -/
theorem code_spec (op : Op V) :
    Triple (contract start mask wrapped op.side)
      (fun s => s.alive op.side = true ∧ Idle start op.side s) (code mask wrapped op)
      fun _ => Idle start op.side := by
  have T := endpoint (V := V) start mask wrapped .producer
  have R := endpoint (V := V) start mask wrapped .consumer
  have S := Owner.since (V := V) start mask wrapped .producer
  cases op with
  | push v =>
    exact borrowPush_spec fun A F p n => ⟨F, push_spec (T A n) trivial (S A n) v A F p⟩
  | flush => exact borrowedTx_spec fun A F p n => flush_spec (T A n) trivial A F p
  | flushAndCheck =>
    exact borrowTx_spec fun A F p n => flushAndCheck_spec (T A n) trivial trivial A F p
  | pushAndFlush v =>
    exact borrowPush_spec fun A F p n =>
      ⟨A ++ [v], pushAndFlush_spec (T A n) trivial trivial (S A n) v A F p⟩
  | isFull =>
    exact borrowTx_spec fun A F p n => (isFull_spec (T A n) trivial A F p).post
      fun _ s _ h => h.imp fun t ht => ⟨F, ht⟩
  | closeProducer =>
    exact borrowedTx_spec fun A F p n => closeProducer_spec (T A n) trivial trivial A F p
  | dropProducer =>
    refine dropEnd_spec (u := .producer) (H := Spsc.producer)
      (R := fun A p t => ∃ F, p.At start A F t)
      (fun A p t es hes ⟨F, hA⟩ => ⟨F, Producer.At.local start A F p t es hes hA⟩)
      (fun _ h => h) fun A p s hs ⟨ho, F, hA⟩ => ?_
    refine ((closeProducer_spec (T A 0) trivial trivial A F p).post
      fun _ s _ h => h.imp fun t ht => ?_) s hs ⟨ho, hA⟩
    exact ⟨ht.flushed.trans ht.accepted.symm, ht.accepted⟩
  | prefetch =>
    exact borrowRx_spec fun P c n =>
      (prefetch_spec (R P n) trivial (fun _ _ _ => Nat.zero_le _) P c).post
        fun _ s _ h => h.imp fun t ht => ht.1
  | pop =>
    refine borrowPop_spec .pop fun P c n s hs h =>
      ((pop_spec (R P n) P _ c).post fun r s _ h => ?_) s hs ⟨h.1, h.2, rfl⟩
    exact h.imp fun t ht => ⟨ht.1, trivial⟩
  | popInto limit => exact borrowBulk_spec fun P c n => popInto_spec (R P n) limit [] P c
  | popIntoWhile accept limit =>
    exact borrowBulk_spec fun P c n => popIntoWhile_spec (R P n) accept limit [] P c
  | release =>
    exact borrowedRx_spec fun P c n => (release_spec (R P n) trivial P c).post
      fun _ s _ h => h.imp fun t ht => ht.1
  | releaseWithFull =>
    exact borrowedRx_spec fun P c n => releaseWithFull_spec (R P n) trivial trivial P c
  | closeConsumer =>
    exact borrowedRx_spec fun P c n => (closeConsumer_spec (R P n) trivial trivial P c).post
      fun _ s _ h => h.imp fun t ht => ht.1
  | dropConsumer =>
    refine dropEnd_spec (u := .consumer) (H := Spsc.consumer) (R := fun P c t => c.At start P t)
      (fun P c => Consumer.At.local start P c) (fun _ h => h) fun P c => ?_
    refine (closeConsumer_spec (R P 0) trivial trivial P c).post
      fun _ s _ h => h.imp fun t ht => ?_
    exact ⟨ht.2.trans ht.1.popped.symm, ht.1.popped⟩

/-! ## The outline -/

def outline (start mask : BitVec w) (wrapped : Bool) :
    Outline (system mask wrapped : System (Spsc w V) Side (Op V)) where
  inv := Inv start mask
  guar := Guar mask wrapped
  cond _ _ _ := True
  callable _ _ _ := True
  idle := Idle start
  guar_refl _ := .stay
  idle_stable t u s s' hu hs _ hg h := by
    obtain rfl := Side.eq_other hu
    exact h.stable hs hg
  code_ok t op s hs hidle hmay _ := by
    simp only [system, Bool.and_eq_true, beq_iff_eq] at hmay
    obtain ⟨rfl, ha⟩ := hmay
    exact code_spec op s hs ⟨ha, hidle⟩

theorem good_initial (hmask : LowBits mask) :
    (outline (V := V) start mask wrapped).Good (initial start) := by
  have hpos : ∀ u, Positioned start u (initial (V := V) start).st := by
    intro u
    cases u
    · exact ⟨[], rfl, rfl, (count_zero start).symm, (count_zero start).symm⟩
    · exact ⟨rfl, (count_zero start).symm, (count_zero start).symm⟩
  refine ⟨⟨.new hmask, fun _ => rfl, ?_, ?_, fun u => ?_, ?_⟩,
    fun u => ⟨fun _ => hpos u, (hpos u).told, fun h => ?_⟩⟩
  · refine ⟨fun h => absurd h (by simp [initial, Spsc.new]), fun h => ?_⟩
    exact absurd (h .producer) (by simp [initial, Spsc.new, Spsc.alive])
  · intro u hu
    cases u <;> exact absurd hu (by simp [initial, Spsc.new, Spsc.alive])
  · exact (hpos u).told ▸ List.prefix_refl _
  · exact ⟨fun _ h => absurd h (by simp [initial, Spsc.new]),
      fun _ h => absurd h (by simp [initial, Spsc.new])⟩
  · exact absurd h (by simp [initial, Spsc.new])

theorem good_of_run {asked : Nat} (hnew : maskOf w asked = some mask)
    {c : Config (Spsc w V) Side}
    (hrun : (system mask wrapped).Run System.always (initial start) c) :
    (outline start mask wrapped).Good c := by
  refine Outline.good_run (good_initial (.of_maskOf hnew)) (System.Run.mono (fun c l _ => ?_) hrun)
  cases l <;> trivial

/-- A thread between operations has answered all it did. -/
theorem told_of_idle {c : Config (Spsc w V) Side} (h : (outline start mask wrapped).Good c)
    {side : Side} (hidle : c.pool side = none) : Told side c.st := by
  have hthread := h.2 side
  rw [hidle] at hthread
  exact Idle.told hthread

/-- **The ring is a bounded FIFO queue under every schedule and across wraparound.** In every
    state any interleaving of the two threads reaches, whatever the word width, the accepted
    capacity and the starting cursor:
    what was popped is a prefix of what was flushed, and that of what was accepted;
    every access was lawful: no push wrote a slot whose value was not released, and no pop read a
    slot that was not written and flushed;
    the pushes that answered `Ok` are the values accepted, and the values the pops answered are
    the ones popped, but for those of a call that has not returned yet;
    a push that answered `Err` gave its own value back, and its last load of `head` found the whole
    capacity accepted and not released. -/
theorem bounded_fifo {asked : Nat} (hnew : maskOf w asked = some mask)
    {c : Config (Spsc w V) Side}
    (hrun : (system mask wrapped).Run System.always (initial start) c) :
    (tally c.st.ring.trace).popped <+: (tally c.st.ring.trace).flushed ∧
      (tally c.st.ring.trace).flushed <+: (tally c.st.ring.trace).accepted ∧
      AllLawful (capacity mask) c.st.ring.trace ∧
      c.st.ring.tail = count start (tally c.st.ring.trace).flushed.length ∧
      (c.st.last = none →
        c.st.ring.head = count start (tally c.st.ring.trace).released.length) ∧
      (c.st.sent.filterMap Sent.accepted <+: (tally c.st.ring.trace).accepted ∧
        (c.pool .producer = none →
          c.st.sent.filterMap Sent.accepted = (tally c.st.ring.trace).accepted)) ∧
      (c.st.got.flatMap Got.values <+: (tally c.st.ring.trace).popped ∧
        (c.pool .consumer = none →
          c.st.got.flatMap Got.values = (tally c.st.ring.trace).popped)) ∧
      (∀ x ∈ c.st.sent, ∀ v, x.answer = .error v →
        v = x.value ∧ Refused (capacity mask) v x.began (c.st.ring.trace.take x.ended)) ∧
      ∀ n output, .bulk n output ∈ c.st.got → n = output.length := by
  have hgood := good_of_run hnew hrun
  have hinv : Inv start mask c.st := hgood.1
  have hfits := hinv.ok.fits
  refine ⟨hfits.popped_flushed, hfits.flushed, hinv.ok.lawful, hfits.tail_eq, fun hlast => ?_,
    ⟨hinv.answered .producer, fun hidle => told_of_idle hgood hidle⟩,
    ⟨hinv.answered .consumer, fun hidle => told_of_idle hgood hidle⟩,
    fun x hx => (hinv.records.sent x hx).2, fun n output h => hinv.records.got _ h⟩
  rw [hfits.head_eq, hinv.live hlast, List.length_nil, Nat.add_zero]

/-- A ring of two slots whose three-bit cursors wrap: the third push is turned away once. -/
def wrapping : List (Label Side (Op Nat)) :=
  List.flatten [System.turn .producer (.push 10) 3, System.turn .producer (.push 20) 3,
    System.turn .producer .flush 3, System.turn .consumer .prefetch 3,
    System.turn .consumer .pop 3, System.turn .producer (.push 30) 4,
    System.turn .consumer .release 3, System.turn .producer (.push 30) 4]

def turned : Config (Spsc 3 Nat) Side := (system 1#3 false).after (initial 7#3) wrapping

theorem turned_bounded_fifo :
    (tally turned.st.ring.trace).accepted = [10, 20, 30] ∧
      (tally turned.st.ring.trace).popped = [10] ∧
      turned.st.sent.map (fun x => x.answer.toBool) = [true, true, false, true] ∧
      turned.st.got = [.pop (some 10)] ∧
      (tally turned.st.ring.trace).popped <+: (tally turned.st.ring.trace).flushed ∧
      AllLawful (capacity 1#3) turned.st.ring.trace ∧
      turned.st.sent.filterMap Sent.accepted = (tally turned.st.ring.trace).accepted ∧
      (∀ x ∈ turned.st.sent, ∀ v, x.answer = .error v →
        v = x.value ∧ Refused (capacity 1#3) v x.began (turned.st.ring.trace.take x.ended)) := by
  have hrun : (system 1#3 false).Run System.always (initial 7#3) turned :=
    System.run_after (by decide +kernel)
  have hidle : (turned.pool .producer).isNone = true := by decide +kernel
  obtain ⟨h₁, -, h₃, -, -, ⟨-, h₄⟩, -, h₅, -⟩ :=
    bounded_fifo (show maskOf 3 2 = some 1#3 by decide +kernel) hrun
  exact ⟨by decide +kernel, by decide +kernel, by decide +kernel, by decide +kernel, h₁, h₃,
    h₄ (Option.isNone_iff_eq_none.mp hidle), h₅⟩

/-- **Every accepted value is popped or destroyed, once.** When both endpoints have been dropped,
    in whatever order and at whatever cursors, the values popped and then the values the ring
    destroyed are the values accepted, in their order; and draining the ring again changes
    nothing. Accepted is what the pushes that answered `Ok` say, popped what the pops answered. -/
theorem disposed_once {asked : Nat} (hnew : maskOf w asked = some mask)
    {c : Config (Spsc w V) Side}
    (hrun : (system mask wrapped).Run System.always (initial start) c)
    (htx : c.st.txAlive = false) (hrx : c.st.rxAlive = false)
    (hidle : ∀ side, c.pool side = none) :
    (tally c.st.ring.trace).popped ++ (tally c.st.ring.trace).destroyed =
        (tally c.st.ring.trace).accepted ∧
      c.st.sent.filterMap Sent.accepted = (tally c.st.ring.trace).accepted ∧
      c.st.got.flatMap Got.values = (tally c.st.ring.trace).popped ∧
      c.st.got.flatMap Got.values ++ (tally c.st.ring.trace).destroyed =
        c.st.sent.filterMap Sent.accepted ∧
      c.st.ring.dropRemaining mask = c.st.ring := by
  have hgood := good_of_run hnew hrun
  have ⟨hinv, hthreads⟩ := hgood
  have hlast : c.st.last.isSome := hinv.last.mpr fun u => by cases u <;> assumption
  obtain ⟨u, hu⟩ := Option.isSome_iff_exists.mp hlast
  have hthread := hthreads u
  rw [hidle u] at hthread
  obtain ⟨hdone, hhead⟩ := Idle.disposed hthread hu
  have hsent : c.st.sent.filterMap Sent.accepted = (tally c.st.ring.trace).accepted :=
    told_of_idle hgood (hidle .producer)
  have hgot : c.st.got.flatMap Got.values = (tally c.st.ring.trace).popped :=
    told_of_idle hgood (hidle .consumer)
  exact ⟨hdone, hsent, hgot, hsent.symm ▸ hgot.symm ▸ hdone, dropRemaining_of_head_eq hhead⟩

/-- The same ring dropped by both endpoints, the consumer's last. -/
def drained : Config (Spsc 3 Nat) Side :=
  (system 1#3 true).after (initial 7#3) (List.flatten [wrapping,
    System.turn .producer .dropProducer 4, System.turn .consumer .dropConsumer 5])

theorem drained_disposed_once :
    drained.st.got.flatMap Got.values = [10] ∧
      (tally drained.st.ring.trace).destroyed = [20, 30] ∧
      drained.st.got.flatMap Got.values ++ (tally drained.st.ring.trace).destroyed =
        drained.st.sent.filterMap Sent.accepted ∧
      drained.st.ring.dropRemaining 1#3 = drained.st.ring := by
  have hrun : (system 1#3 true).Run System.always (initial 7#3) drained :=
    System.run_after (by decide +kernel)
  have hidle : ∀ side, (drained.pool side).isNone = true := by
    intro side
    cases side <;> decide +kernel
  obtain ⟨-, -, -, h₁, h₂⟩ := disposed_once (show maskOf 3 2 = some 1#3 by decide +kernel) hrun
    (by decide +kernel) (by decide +kernel) fun side => Option.isNone_iff_eq_none.mp (hidle side)
  exact ⟨by decide +kernel, by decide +kernel, h₁, h₂⟩

end Fanring.Yring
