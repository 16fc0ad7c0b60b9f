import Fanring.TeardownProof

/-!
# Closing a coordinated lane

The receiver's side of the teardown and the theorem about both. A close drains what it finds,
without giving slots back, and then either drains for the last time itself or leaves that to the
send in progress. **`coordinated_teardown`** is what comes of it: every send answered `Ok` if its
value was accepted and its own value if not; once close has returned and no send is in progress,
every accepted value was received or destroyed, none is left in the ring, the slot is empty, and
every later send gets its own value back; and a send that overlapped the close and succeeded used
no slot the close gave up.
-/

set_option autoImplicit false

namespace Fanring.Teardown

open Conc Yring Cursor

variable {w : Nat} {V : Type} {start mask : BitVec w}

/-- The receiver between its operations. -/
structure IdleRx (start : BitVec w) (s : Lane w V) : Prop where
  opened : ∀ c, s.inner = some c → Open s.received s ∧ c.At start s.received s.ring.trace
  shut : s.inner = none → s.owner ≠ .receiver

theorem IdleRx.stable : (contract (V := V) start mask .consumer).Stable (IdleRx start) := by
  intro s s' hs hs' hr h
  have hstep := rely_rx hr
  refine ⟨fun c hc => ?_, fun hn => ?_⟩
  · rw [hstep.inner] at hc
    obtain ⟨hopen, hat⟩ := h.opened c hc
    rw [hstep.received]
    exact (receiving s.received).stable (Consumer.At.local start _ c) s s' hs hs' hr ⟨hopen, hat⟩
  · rw [hstep.inner] at hn
    exact fun ho => h.shut hn (hstep.owner.mp ho)

/-- A step of the receiver that touches neither the ring nor the token. -/
theorem RxStep.receiver_own {s s' : Lane w V} (ho : s.owner = .receiver)
    (htrace : s'.ring.trace = s.ring.trace) (htx : s'.tx = s.tx) (hans : s'.sent = s.sent)
    (hact : s'.active = s.active) (hclosed : s.closed = true → s'.closed = true)
    (howner : s'.owner = s.owner) : RxStep s s' :=
  ⟨htx, hans, hact, hclosed, by rw [howner], fun _ h => howner ▸ h,
    fun _ => ⟨[], by simpa using htrace, By.nil _⟩, fun h => absurd ho h⟩

/-! ## Receives -/

/-- What the receiver finds in its hand: the consumer, or nothing to receive from. -/
def InHand (start : BitVec w) : Option (Consumer w) → Lane w V → Prop
  | some c, s => ∃ R, Held Lane.lens (Open R) (c.At start R) s
  | none, s => IdleRx start s

theorem receive_spec {f : Consumer w → Prog (Lane w V) (List V × Consumer w)}
    (hf : ∀ R c, Triple (contract start mask .consumer)
      (Held Lane.lens (Open R) (c.At start R)) (f c) fun r =>
        Held Lane.lens (Open R) (r.2.At start (R ++ r.1))) :
    Triple (contract start mask .consumer) (IdleRx start) (receive f) fun _ => IdleRx start := by
  refine Triple.bind (Q := InHand start)
    (Triple.read IdleRx.stable ?_ RxStep.refl ?_) fun inner => ?_
  · rintro (_ | c)
    · exact IdleRx.stable
    · rintro s s' hs hs' hr ⟨R, h⟩
      exact ⟨R, (receiving R).stable (Consumer.At.local start R c) s s' hs hs' hr h⟩
  · rintro s - hs h -
    rcases hinner : s.inner with _ | c
    · exact h
    · exact ⟨s.received, h.opened c hinner⟩
  · cases inner with
    | none => exact Triple.ret IdleRx.stable fun _ _ h => h
    | some c =>
      rintro s hs ⟨R, h⟩
      refine Triple.bind (hf R c) (fun r => ?_) s hs h
      obtain ⟨vs, c'⟩ := r
      refine Triple.atomic ((receiving R).stable (Consumer.At.local start _ c'))
        (fun _ => IdleRx.stable) fun s' _ hs' h' _ => ?_
      obtain ⟨hopen, hat⟩ := h'
      have ho := hopen.owner
      refine ⟨{ hs' with
        slot_some := fun hn => absurd (ho.symm.trans hn) (by simp)
        gone := fun hn => absurd (ho.symm.trans hn) (by simp) },
        RxStep.receiver_own ho rfl rfl rfl rfl id rfl, fun c'' hc'' => ?_,
        fun hn => absurd hn (by simp)⟩
      cases hc''
      refine ⟨{ hopen with received := rfl, inner := rfl }, ?_⟩
      change c'.At start (s'.received ++ vs) s'.ring.trace
      rw [hopen.received]
      exact hat

/-! ## The close -/

/-- The receiver has given the consumer up. -/
def Given (s : Lane w V) : Prop := s.inner = none ∧ s.owner ≠ .receiver

theorem Given.stable : (contract (V := V) start mask .consumer).Stable Given := by
  rintro s s' - - hr ⟨hi, ho⟩
  have hstep := rely_rx hr
  exact ⟨hstep.inner.trans hi, fun h => ho (hstep.owner.mp h)⟩

/-- The close takes the open consumer. -/
theorem takeInner_spec :
    Triple (contract start mask .consumer) (IdleRx start)
      (Prog.atomic fun s : Lane w V => (s.inner, { s with inner := none })) fun inner s =>
        match inner with
        | some c => ∃ R, Held Lane.lens (Closing R) (c.At start R) s
        | none => Given s := by
  refine Triple.atomic IdleRx.stable ?_ ?_
  · rintro (_ | c)
    · exact Given.stable
    · rintro s s' hs hs' hr ⟨R, h⟩
      exact ⟨R, (closing R).stable (Consumer.At.local start R c) s s' hs hs' hr h⟩
  · rintro s - hs h -
    rcases hinner : s.inner with _ | c
    · refine ⟨{ hs with }, ?_, rfl, h.shut hinner⟩
      have hsame : ({ s with inner := none } : Lane w V) = s := by rw [← hinner]
      rw [hsame]
      exact RxStep.refl s
    · obtain ⟨hopen, hat⟩ := h.opened c hinner
      refine ⟨{ hs with }, RxStep.receiver_own hopen.owner rfl rfl rfl rfl id rfl, s.received,
        ⟨hopen.owner, hopen.closed, ?_, rfl, hopen.closeReturned⟩, hat⟩
      change s.received ++ s.destroyed = s.received
      rw [hopen.destroyed, List.append_nil]

theorem teardown_spec (R : List V) (c : Consumer w) :
    Triple (contract start mask .consumer) (Held Lane.lens (Closing R) (c.At start R))
      (Lane.lens.access fun r => ((), r.log .teardown)) fun _ =>
        Held Lane.lens (Closing R) (c.At start R) := by
  have hstable : (contract start mask .consumer).Stable
      (Held Lane.lens (Closing R) (c.At start R)) :=
    (closing R).stable (Consumer.At.local start R c)
  refine Triple.atomic hstable (fun _ => hstable) ?_
  rintro s - hs ⟨h, hat⟩ -
  have hquiet : Quiet s.ring.trace := by
    rcases hs.quiet with ⟨hc, -⟩ | hq
    · exact absurd (h.closed.symm.trans hc) (by simp)
    · exact hq
  have hby : By .consumer [(.teardown : Event V)] := By.one rfl
  have hok : (s.ring.log .teardown).Ok start mask :=
    hs.ok.log (e := .teardown) rfl trivial { hs.ok.fits with }
  refine ⟨hs.rx (.inl h.owner) hok rfl hby (.inr (hquiet.concat nofun)),
    .access h.owner rfl hby, { h with }, ?_, hat.head, ?_⟩
  · simpa [Lane.lens, Yring.Ring.log, Tally.add] using hat.popped
  · simpa [Lane.lens, Yring.Ring.log, Tally.add] using hat.cachedTail

theorem firstDiscard_spec (R : List V) (c : Consumer w) :
    Triple (contract start mask .consumer) (Held Lane.lens (Closing R) (c.At start R))
      (discard mask c) fun c' s => ∃ P, Held Lane.lens (Closing P) (c'.At start P) s := by
  refine (discard_spec (n := 0) closing (fun _ => trivial) (fun D s v hs h => ?_)
    (fun _ _ _ _ => Nat.zero_le _) R c).post ?_
  · refine ⟨Inv.destroy hs (.inl h.owner) v,
      RxStep.receiver_own h.owner rfl rfl rfl rfl id rfl, { h with disposed := ?_ }⟩
    change s.received ++ (s.destroyed ++ [v]) = D ++ [v]
    rw [← List.append_assoc, h.disposed]
  · rintro c' s - ⟨P, h⟩
    exact ⟨P, h.imp fun t ht => ht.1⟩

/-- **The mutex section decides who drains last.** -/
theorem handOver_spec (P : List V) (c : Consumer w) :
    Triple (contract start mask .consumer) (Held Lane.lens (Closing P) (c.At start P))
      (handOver c) fun kept s => match kept with
        | some c' => ∃ A, Held Lane.lens (Final .receiver Shut A P) (c'.At start P) s
        | none => Given s := by
  refine Triple.atomic ((closing P).stable (Consumer.At.local start P c)) ?_ ?_
  · rintro (_ | c')
    · exact Given.stable
    · rintro s s' hs hs' hr ⟨A, h⟩
      exact ⟨A, (finalRx A P).stable (Consumer.At.local start P c') s s' hs hs' hr h⟩
  · rintro s - hs ⟨h, hat⟩ -
    have ho := h.owner
    have hquiet : Quiet s.ring.trace := by
      rcases hs.quiet with ⟨hc, -⟩ | hq
      · exact absurd (h.closed.symm.trans hc) (by simp)
      · exact hq
    split
    · next ha =>
      refine ⟨{ hs with
        quiet := .inr hquiet
        slot_some := fun _ => ⟨c, P, rfl, hat, h.disposed⟩
        slot_none := fun hn => absurd rfl hn
        closed := fun _ => rfl
        settled := fun hn => by simp at hn
        handed := fun _ _ => rfl
        gone := fun hn => absurd hn (by simp)
        returned := fun _ => by simp }, ?_, h.inner, by simp⟩
      refine ⟨rfl, rfl, rfl, fun _ => rfl, by simp [ho],
        fun hn => absurd (ha.symm.trans hn) (by simp), fun _ => ⟨[], by simp, By.nil _⟩,
        fun hn => absurd ho hn⟩
    · next hn =>
      have hn : s.active = false := by simpa using hn
      refine ⟨{ hs with
        quiet := .inr hquiet
        closed := fun _ => rfl
        handed := fun ha => absurd (hn.symm.trans ha) (by simp) },
        RxStep.receiver_own ho rfl rfl rfl rfl (fun _ => rfl) rfl,
        (tally s.ring.trace).accepted, ⟨ho, rfl, hn, rfl, h.disposed, h.inner, h.closeReturned⟩,
        hat⟩

theorem close_spec : Triple (contract start mask .consumer) (IdleRx start)
    (close mask : Prog (Lane w V) Unit) fun _ => Given := by
  refine Triple.bind takeInner_spec fun inner => ?_
  cases inner with
  | none => exact Triple.ret Given.stable fun _ _ h => h
  | some c =>
    rintro s hs ⟨R, h⟩
    refine Triple.bind (teardown_spec R c) (fun _ => ?_) s hs h
    refine Triple.bind (firstDiscard_spec R c) fun c' => ?_
    rintro s hs ⟨P, h⟩
    refine Triple.bind (handOver_spec P c') (fun kept => ?_) s hs h
    cases kept with
    | none => exact Triple.ret Given.stable fun _ _ h => h
    | some c'' =>
      rintro s hs ⟨A, h⟩
      refine dispose_spec (finalRx A) (.inl rfl) (fun _ _ h => h) (fun s v ho => ?_) Given.stable
        (fun s h => ⟨?_, h.keeps.1, by simp⟩) P c'' s hs h
      · exact RxStep.receiver_own ho rfl rfl rfl rfl id rfl
      · exact ⟨rfl, rfl, rfl, id, by simp [h.owner], fun _ hn => absurd hn (by simp),
          fun _ => ⟨[], by simp, By.nil _⟩, fun hn => absurd h.owner hn⟩

/-! ## The two threads -/

/-- What holds of a thread between its operations. -/
def Idle (start : BitVec w) : Side → Lane w V → Prop
  | .producer => IdleTx start
  | .consumer => IdleRx start

/-- What a send that returned added to the record. -/
def Returned (b : Prop) (v : V) (S : List (V × Except V Unit)) (s : Lane w V) : Prop :=
  ¬ b ∧ s.sent = S ++ [(v, .ok ())] ∨ s.sent = S ++ [(v, .error v)]

theorem Returned.stable (b : Prop) (v : V) (S : List (V × Except V Unit)) :
    (contract start mask .producer).Stable (Returned (w := w) b v S) := by
  intro s s' _ _ hr h
  rw [Returned, (rely_tx hr).sent]
  exact h

/-- The last step of a send: the endpoint goes back and the answer into the record. -/
theorem Ended.returns {A : List V} {S : List (V × Except V Unit)} {p : Producer w} {s : Lane w V}
    {v : V} {answer : Except V Unit} (h : Ended start A S p s)
    (hA : (S ++ [(v, answer)]).filterMap accepted = A) :
    IdleTx start { s with tx := p, sent := s.sent ++ [(v, answer)] } := by
  refine ⟨h.inactive, h.owner, ?_, rfl⟩
  dsimp only
  rw [h.sent, hA]
  exact h.at_

theorem send_spec (b : Prop) (v : V) (S : List (V × Except V Unit)) :
    Triple (contract start mask .producer)
      (fun s => (IdleTx start s ∧ s.sent = S) ∧ (b → s.closed = true))
      (code mask (.pushAndFlush v)) fun _ s => IdleTx start s ∧ Returned b v S s := by
  have hclosed : (contract (V := V) start mask .producer).Stable fun s => b → s.closed = true :=
    fun _ _ _ _ hr h hb => (rely_tx hr).closed (h hb)
  have hsent : (contract (V := V) start mask .producer).Stable fun s => s.sent = S :=
    fun _ _ _ _ hr h => (rely_tx hr).sent.trans h
  refine Triple.bind (Triple.read ((IdleTx.stable.and hsent).and hclosed)
    (fun p => (Ended.stable (S.filterMap accepted) S p).and hclosed) TxStep.refl
      fun s _ _ h _ => ⟨?_, h.2⟩) fun p => ?_
  · obtain ⟨⟨h, rfl⟩, -⟩ := h
    exact h
  refine Triple.bind (pushAndFlush_spec b v (S.filterMap accepted) S p) fun r => ?_
  refine Triple.atomic (Answers.stable b _ S v r)
    (fun _ => IdleTx.stable.and (Returned.stable b v S)) fun s _ hs h _ => ⟨{ hs with }, ?_, ?_⟩
  · exact ⟨rfl, rfl, rfl, rfl, fun _ hn => hn, .rfl,
      fun _ => ⟨rfl, [], by simp, By.nil _, fun _ _ => rfl⟩⟩
  · obtain ⟨answer, p'⟩ := r
    cases answer with
    | ok _ =>
      obtain ⟨hb, h⟩ := h
      exact ⟨h.returns List.filterMap_append, .inl ⟨hb, congrArg (· ++ [(v, .ok ())]) h.sent⟩⟩
    | error v' =>
      obtain ⟨rfl, h⟩ := h
      refine ⟨h.returns ?_, .inr (congrArg (· ++ [(v', .error v')]) h.sent)⟩
      exact List.filterMap_append.trans (List.append_nil _)

theorem closeOp_spec : Triple (contract start mask .consumer) (IdleRx start)
    (code mask .close : Prog (Lane w V) Unit) fun _ => IdleRx start := by
  refine Triple.bind close_spec fun _ => ?_
  refine Triple.atomic Given.stable (fun _ => IdleRx.stable) ?_
  rintro s - hs ⟨hi, ho⟩ -
  refine ⟨{ hs with returned := fun _ => ho }, ?_, fun c hc => ?_, fun _ => ho⟩
  · exact ⟨rfl, rfl, rfl, id, .rfl, fun _ h => h, fun h => absurd h ho,
      fun _ => ⟨rfl, rfl, rfl, rfl, rfl⟩⟩
  · exact absurd (hi.symm.trans hc) (by simp)

def outline (start mask : BitVec w) : Outline (system mask : System (Lane w V) Side (Op V)) where
  inv := Inv start mask
  guar := Guar
  cond _ _ _ := True
  callable _ _ _ := True
  idle := Idle start
  guar_refl t s := by
    cases t
    · exact TxStep.refl s
    · exact RxStep.refl s
  idle_stable t u s s' hu hs hs' hg h := by
    cases t
    · have hstable : (contract start mask .producer).Stable (IdleTx (V := V) start) := IdleTx.stable
      exact hstable s s' hs hs' ⟨u, hu, hg⟩ h
    · have hstable : (contract start mask .consumer).Stable (IdleRx (V := V) start) := IdleRx.stable
      exact hstable s s' hs hs' ⟨u, hu, hg⟩ h
  code_ok t op s hs hidle hmay _ := by
    have R : ∀ D : List V, Endpoint (contract start mask .consumer) Lane.lens start mask .consumer
      True True (Open D) := receiving
    cases t with
    | producer =>
      cases op with
      | pushAndFlush v =>
        exact ((send_spec False v s.sent).post fun _ _ _ h => h.1) s hs ⟨⟨hidle, rfl⟩, False.elim⟩
      | _ => exact absurd hmay (by simp [system])
    | consumer =>
      cases op with
      | pushAndFlush v => exact absurd hmay (by simp [system])
      | prefetch =>
        refine receive_spec (fun D c => Triple.map (prefetch_spec (R D) trivial
          (fun _ _ _ => Nat.zero_le _) D c) fun r s _ h => h.imp fun t ht => ?_) s hs hidle
        simpa using ht.1
      | pop =>
        refine receive_spec (fun D c s hs h => ?_) s hs hidle
        have hpop := pop_spec (R D) D (tally s.ring.trace).seenTail c
        refine Triple.map (R := fun r : List V × Consumer w =>
          Held Lane.lens (Open D) (r.2.At start (D ++ r.1))) hpop ?_ s hs ⟨h.1, h.2, rfl⟩
        exact fun r s _ h => h.imp fun t ht => ht.1
      | popInto limit =>
        refine receive_spec (fun D c => Triple.map (popInto_spec (R D) limit [] D c)
          fun r s _ h => h.imp fun t ht => ?_) s hs hidle
        obtain ⟨vs, ho, -, hat⟩ := ht
        rw [ho]
        exact hat
      | popIntoWhile accept limit =>
        refine receive_spec (fun D c => Triple.map (popIntoWhile_spec (R D) accept limit [] D c)
          fun r s _ h => h.imp fun t ht => ?_) s hs hidle
        obtain ⟨vs, ho, -, hat⟩ := ht
        rw [ho]
        exact hat
      | release =>
        refine receive_spec (fun D c => Triple.map (release_spec (R D) trivial D c)
          fun r s _ h => h.imp fun t ht => ?_) s hs hidle
        simpa using ht.1
      | close => exact closeOp_spec s hs hidle

theorem good_initial (hmask : LowBits mask) :
    (outline (V := V) start mask).Good (initial start) := by
  refine ⟨?_, fun u => ?_⟩
  · exact {
      ok := .new hmask
      undropped := rfl
      lending := fun _ _ _ _ _ h => absurd h (by simp [initial, Lane.new, Yring.Ring.new])
      quiet := .inr (.of_open (by simp [initial, Lane.new, Yring.Ring.new]))
      flushed := fun _ => rfl
      slot_some := fun h => absurd h (by simp [initial, Lane.new])
      slot_none := fun _ => rfl
      closed := fun h => absurd rfl h
      settled := fun h => by simp [initial, Lane.new] at h
      handed := fun h => absurd h (by simp [initial, Lane.new])
      gone := fun h => absurd h (by simp [initial, Lane.new])
      returned := fun h => absurd h (by simp [initial, Lane.new]) }
  · cases u
    · exact ⟨rfl, ⟨by simp [initial, Lane.new], by simp [initial, Lane.new]⟩, ⟨rfl, rfl,
        (count_zero start).symm, (count_zero start).symm⟩, rfl⟩
    · refine ⟨fun c hc => ?_, fun h => absurd h (by simp [initial, Lane.new])⟩
      simp only [initial, Lane.new, Option.some.injEq] at hc
      subst hc
      exact ⟨⟨rfl, rfl, by simp [initial, Lane.new, Yring.Ring.new], rfl, rfl, rfl, rfl⟩, rfl,
        (count_zero start).symm, (count_zero start).symm⟩

theorem good_of_run {asked : Nat} (hnew : maskOf w asked = some mask)
    {c : Config (Lane w V) Side} (hrun : (system mask).Run System.always (initial start) c) :
    (outline start mask).Good c := by
  refine Outline.good_run (good_initial (.of_maskOf hnew)) (System.Run.mono (fun c l _ => ?_) hrun)
  cases l <;> trivial

/-- A send, from its call to its return. -/
theorem send_returned (b : Prop) {c c₁ c₂ : Config (Lane w V) Side} {v : V}
    (hgood : (outline start mask).Good c) (hclosed : b → c.st.closed = true)
    (hcall : (system mask).exec c (.call .producer (.pushAndFlush v)) = some c₁)
    (hduring : (system mask).During System.always .producer c₁ c₂)
    (hdone : c₂.pool .producer = none) :
    Inv start mask c₂.st ∧ IdleTx start c₂.st ∧ Returned b v c.st.sent c₂.st := by
  have hcalling : (outline start mask).Calling .producer (fun _ => True)
      (fun s => IdleTx start s ∧ Returned b v c.st.sent s) c₁ := hgood.calling hcall fun hidle =>
    send_spec b v c.st.sent c.st hgood.1 ⟨⟨hidle, rfl⟩, hclosed⟩
  obtain ⟨⟨hinv, -⟩, hend⟩ := hcalling.during (hduring.mono fun c l _ => by cases l <;> trivial)
  rw [hdone] at hend
  exact ⟨hinv, hend⟩

/-- The write that accepted value number `n`. -/
theorem exists_write {t : List (Event V)} {n : Nat} (h : n < (tally t).accepted.length) :
    ∃ past slot v rest, t = past ++ .write slot v :: rest ∧
      (tally past).accepted.length = n := by
  induction t using List.reverseRecOn with
  | nil => exact absurd h (by simp [Tally.empty])
  | append_singleton t e ih =>
    by_cases hlt : n < (tally t).accepted.length
    · obtain ⟨past, slot, v, rest, rfl, hn⟩ := ih hlt
      exact ⟨past, slot, v, rest ++ [e], by simp, hn⟩
    · rw [tally_concat] at h
      cases e with
      | write slot v =>
        refine ⟨t, slot, v, [], rfl, ?_⟩
        simp only [Tally.add, List.length_append, List.length_singleton] at h
        omega
      | _ => exact absurd h hlt

/-- A write after the teardown began used no slot given back since. -/
theorem Inv.late_write {s : Lane w V} (h : Inv start mask s) {past mid rest : List (Event V)}
    {slot : Nat} {v : V}
    (ht : s.ring.trace = past ++ .teardown :: mid ++ .write slot v :: rest) :
    (tally (past ++ .teardown :: mid)).accepted.length <
      (tally past).released.length + capacity mask := by
  have hlaw := (h.ok.lawful _ _ _ ht).2
  have hrel : (tally (past ++ .teardown :: mid)).released = (tally past).released :=
    released_append (by simpa using h.lending past mid slot v rest ht)
  rwa [hrel] at hlaw

/-- **No accepted value used a slot given back after the teardown began**, whether it was written
    before or after. -/
theorem Inv.credit {s : Lane w V} (h : Inv start mask s) {past rest : List (Event V)} {n : Nat}
    (ht : s.ring.trace = past ++ .teardown :: rest)
    (hn : n < (tally s.ring.trace).accepted.length) :
    n < (tally past).released.length + capacity mask := by
  obtain ⟨p, slot, v, q, hw, rfl⟩ := exists_write hn
  rcases List.append_eq_append_iff.mp (ht.symm.trans hw) with ⟨mid, hp, hq⟩ | ⟨mid, hp, hq⟩
  · -- the write is not before the teardown
    cases mid with
    | nil => exact absurd hq (by simp)
    | cons e mid =>
      obtain ⟨rfl, rfl⟩ := List.cons.inj hq
      subst hp
      exact h.late_write hw
  · have hlaw := (h.ok.lawful _ _ _ hw).2
    have hle := (released_grows p mid).length_le
    rw [← hp] at hle
    omega

/-- **Coordinated teardown disposes of every value exactly once.** In every state any interleaving
    of sends with receives and a close reaches:
    the sends that answered `Ok` are the values accepted, but for one that has not returned yet;
    a value written after the teardown began went into a slot that was free by the credit given
    back before it;
    a send that returns has answered `Ok`, with exactly its value accepted, and if a teardown had
    begun by then, into a slot free by the credit given back before that; or it has answered its
    own value and nothing was accepted;
    and once close has returned and no send is in progress, the values received and then those
    destroyed are the values of the sends that answered `Ok`, the ring holds none that was not
    popped, the hand-off slot is empty, and every later send answers its own value. -/
theorem coordinated_teardown {asked : Nat} (hnew : maskOf w asked = some mask)
    {c : Config (Lane w V) Side} (hrun : (system mask).Run System.always (initial start) c) :
    (c.pool .producer = none →
        c.st.sent.filterMap accepted = (tally c.st.ring.trace).accepted) ∧
      (∀ past mid slot v rest,
        c.st.ring.trace = past ++ .teardown :: mid ++ .write slot v :: rest →
          (tally (past ++ .teardown :: mid)).accepted.length <
            (tally past).released.length + capacity mask) ∧
      (∀ v c₁ c₂, (system mask).exec c (.call .producer (.pushAndFlush v)) = some c₁ →
        (system mask).During System.always .producer c₁ c₂ → c₂.pool .producer = none →
        c₂.st.sent = c.st.sent ++ [(v, .ok ())] ∧
            (tally c₂.st.ring.trace).accepted = (tally c.st.ring.trace).accepted ++ [v] ∧
            (∀ past rest, c₂.st.ring.trace = past ++ .teardown :: rest →
              (tally c.st.ring.trace).accepted.length <
                (tally past).released.length + capacity mask) ∨
          c₂.st.sent = c.st.sent ++ [(v, .error v)] ∧
            (tally c₂.st.ring.trace).accepted = (tally c.st.ring.trace).accepted) ∧
      (c.st.closeReturned = true → c.pool .producer = none →
        c.st.received ++ c.st.destroyed = c.st.sent.filterMap accepted ∧
          c.st.received ++ c.st.destroyed = (tally c.st.ring.trace).accepted ∧
          (tally c.st.ring.trace).popped = (tally c.st.ring.trace).accepted ∧
          c.st.slot = none ∧
          ∀ v c₁ c₂, (system mask).exec c (.call .producer (.pushAndFlush v)) = some c₁ →
            (system mask).During System.always .producer c₁ c₂ → c₂.pool .producer = none →
            c₂.st.sent = c.st.sent ++ [(v, .error v)]) := by
  have hgood := good_of_run hnew hrun
  have hinv : Inv start mask c.st := hgood.1
  have hrest : c.pool .producer = none → IdleTx start c.st := fun hidle => by
    have htx := hgood.2 .producer
    rwa [hidle] at htx
  have htold : c.pool .producer = none →
      c.st.sent.filterMap accepted = (tally c.st.ring.trace).accepted :=
    fun hidle => (hrest hidle).at_.accepted.symm
  refine ⟨htold, fun past mid slot v rest ht => hinv.late_write ht,
    fun v c₁ c₂ hcall hduring hdone => ?_, fun hret hidle => ?_⟩
  · obtain ⟨hinv₂, hidle₂, hret⟩ := send_returned False hgood False.elim hcall hduring hdone
    have hacc : (tally c₂.st.ring.trace).accepted = c₂.st.sent.filterMap accepted :=
      hidle₂.at_.accepted
    have hbefore := htold (System.exec_call hcall).1
    rcases hret with ⟨-, hsent⟩ | hsent
    · have hgrown : (tally c₂.st.ring.trace).accepted =
          (tally c.st.ring.trace).accepted ++ [v] := by
        rw [hacc, hsent, List.filterMap_append, hbefore]
        rfl
      refine .inl ⟨hsent, hgrown, fun past rest ht => hinv₂.credit ht ?_⟩
      simp [hgrown]
    · refine .inr ⟨hsent, ?_⟩
      rw [hacc, hsent, List.filterMap_append, hbefore]
      exact List.append_nil _
  · have ho : c.st.owner = .nobody := by
      have h₁ := hinv.returned hret
      have h₂ := (hrest hidle).owner
      rcases howner : c.st.owner with _ | _ | _ | _
      · exact absurd howner h₁
      · exact absurd howner h₂.1
      · exact absurd howner h₂.2
      · rfl
    obtain ⟨hp, hd⟩ := hinv.gone ho
    refine ⟨(hd.trans hp).trans (htold hidle).symm, hd.trans hp, hp,
      hinv.slot_none (by simp [ho]), fun v c₁ c₂ hcall hduring hdone => ?_⟩
    obtain ⟨-, -, hret⟩ := send_returned True hgood (fun _ => hinv.closed (by simp [ho])) hcall
      hduring hdone
    rcases hret with ⟨hfalse, -⟩ | hsent
    · exact absurd trivial hfalse
    · exact hsent

/-- One send has returned. -/
def sentOnce : Config (Lane 3 Nat) Side :=
  (system 1#3).after (initial 7#3) (System.turn .producer (.pushAndFlush 10) 6)

def sendingAgain : Config (Lane 3 Nat) Side :=
  (system 1#3).after sentOnce [.call .producer (.pushAndFlush 20)]

/-- A close between the push and the flush of the second send, which then drains last. -/
def overlapped : Config (Lane 3 Nat) Side :=
  (system 1#3).after sendingAgain (List.flatten [List.replicate 3 (.step .producer 0),
    System.turn .consumer .close 9, List.replicate 12 (.step .producer 0)])

theorem overlapped_coordinated_teardown :
    ((tally overlapped.st.ring.trace).accepted = (tally sentOnce.st.ring.trace).accepted ++ [20] ∧
        .teardown ∈ overlapped.st.ring.trace ∧
        ∀ past rest, overlapped.st.ring.trace = past ++ .teardown :: rest →
          (tally sentOnce.st.ring.trace).accepted.length <
            (tally past).released.length + capacity 1#3) ∧
      overlapped.st.destroyed = [10, 20] ∧
      overlapped.st.received ++ overlapped.st.destroyed =
        overlapped.st.sent.filterMap accepted ∧ overlapped.st.slot = none := by
  have hnew : maskOf 3 2 = some 1#3 := by decide +kernel
  have hrun : (system 1#3).Run System.always (initial 7#3) sentOnce :=
    System.run_after (by decide +kernel)
  have hcall : (system 1#3).exec sentOnce (.call .producer (.pushAndFlush 20)) =
      some sendingAgain := System.exec_after (by decide +kernel)
  have hduring : (system 1#3).During System.always .producer sendingAgain overlapped :=
    System.during_after (by decide +kernel)
  have hidle : (overlapped.pool .producer).isNone = true := by decide +kernel
  have hidle := Option.isNone_iff_eq_none.mp hidle
  have hwhole : (system 1#3).Run System.always (initial 7#3) overlapped :=
    (hrun.tail ⟨_, trivial, hcall⟩).trans hduring.run
  have hsend := (coordinated_teardown hnew hrun).2.2.1 20 _ _ hcall hduring hidle
  obtain ⟨hdisposed, -, -, hslot, -⟩ :=
    (coordinated_teardown hnew hwhole).2.2.2 (by decide +kernel) hidle
  refine ⟨?_, by decide +kernel, hdisposed, hslot⟩
  rcases hsend with ⟨-, hgrown, hfree⟩ | ⟨hsent, -⟩
  · exact ⟨hgrown, by decide +kernel, hfree⟩
  · have hok : overlapped.st.sent.map (fun x => x.2.toBool) = [true, true] := by decide +kernel
    rw [hsent, List.map_append] at hok
    exact absurd (congrArg List.getLast? hok) (by simp [Except.toBool])

end Fanring.Teardown
