import Fanring.Yring.HintSpec

/-!
# No wakeup is lost to a hint

The proof outline of the hinted ring, and its two theorems: one for the consumer that waits for
values and one for the producer that waits for slots.
-/

set_option autoImplicit false

namespace Fanring.Yring.Hint

open Conc

variable {w : Nat} {V β : Type} {mask : BitVec w} {v : Side}

/-! ## Checks -/

theorem own_check (v : Side) (s : Hinted w V) :
    Own v ((s.check v).half v) (ends s v) (s.check v) :=
  ⟨rfl, by simp [Hinted.check]⟩

theorem resting_check (v : Side) (s : Hinted w V) : ((s.check v).half v).resting = false := by
  simp [Hinted.check]

theorem signalling_check {s : Hinted w V} (h : Idle v s) :
    ((s.check v).half v).signalling = false := by
  simpa [Hinted.check] using show (s.half v).signalling = false from h

/-- A check that the endpoint's own copy of the cursor answers makes no access. -/
theorem report_check (v : Side) (s : Hinted w V) : (s.check v).report v false = s.check v := by
  simp [Hinted.report, Hinted.check, Hinted.setHalf]

theorem unasked_step {s : Hinted w V} (hs : Inv mask s) (hidle : Idle v s) :
    Inv mask (s.check v) ∧ Guar mask v s (s.check v) ∧ Idle v (s.check v) :=
  ⟨(check_step v hs).1, (check_step v hs).2, signalling_check hidle⟩

/-- A check reports nothing at its last access. -/
theorem Rests.report {h : Half} {x : End w v} {s : Hinted w V} {r : Ring w V}
    (hrests : Rests mask v x s) (hs : Inv mask s) (hown : Own v h x s)
    (hh : h.signalling = false) (hq : Quiet s.ring r) (x' : End w v)
    (hkeeps : Stuck mask v x s.ring → Stuck mask v x' s.ring) (hdrained : Drained v x') :
    let s' := (setEnds { s with ring := r } v x').report v true
    Inv mask s' ∧ Guar mask v s s' ∧ Idle v s' :=
  report_step hs (hown.idle hh) hq fun _ =>
    ⟨hdrained, hrests.stuck.imp_right hkeeps, hrests.alert⟩

/-- A check finds something at its last access. -/
theorem found_step {h : Half} {x : End w v} {s : Hinted w V} {r : Ring w V} (hs : Inv mask s)
    (hown : Own v h x s) (hh : h.signalling = false) (hq : Quiet s.ring r) (x' : End w v) :
    let s' := (setEnds { s with ring := r } v x').report v false
    Inv mask s' ∧ Guar mask v s s' ∧ Idle v s' :=
  report_step hs (hown.idle hh) hq nofun

/-- A producer that reports full has not moved its cursor. -/
theorem Rests.full {h : Half} {p p' : Producer w} {s : Hinted w V} {r : Ring w V}
    (hrests : Rests mask .producer p s) (hs : Inv mask s) (hown : Own .producer h p s)
    (hh : h.signalling = false) (hq : Quiet s.ring r) (hcur : p'.cursor = p.cursor) :
    let s' := (setEnds { s with ring := r } .producer p').report .producer true
    Inv mask s' ∧ Guar mask .producer s s' ∧ Idle .producer s' := by
  refine hrests.report hs hown hh hq p' (fun h => ?_) trivial
  change capacity mask ≤ distance p'.cursor s.ring.head
  rw [hcur]
  exact h

/-- A consumer that reports empty has not moved its head, and has used up its window. -/
theorem Rests.empty {h : Half} {c c' : Consumer w} {s : Hinted w V} {r : Ring w V}
    (hrests : Rests mask .consumer c s) (hs : Inv mask s) (hown : Own .consumer h c s)
    (hh : h.signalling = false) (hq : Quiet s.ring r) (hhead : c'.head = c.head)
    (hdrained : c'.head = c'.cachedTail) :
    let s' := (setEnds { s with ring := r } .consumer c').report .consumer true
    Inv mask s' ∧ Guar mask .consumer s s' ∧ Idle .consumer s' :=
  hrests.report hs hown hh hq c' (fun h => Eq.trans h hhead.symm) hdrained

theorem isRet_push (a : V) (p : Producer w) :
    (p.push Hinted.lens mask a : Prog (Hinted w V) _).isRet = false := by
  rw [← Prog.bind_ret (p.push Hinted.lens mask a), push_bind, ringPush_bind, refresh_bind]
  split
  · rfl
  · rfl

theorem push_spec (a : V) :
    Triple (contract mask .producer) (Idle .producer) (code mask (.push a))
      fun _ => Idle .producer := by
  refine Triple.closing_atomic Idle.stable Idle.stable fun s _ hs hidle _ => ?_
  have hstep := check_step .producer hs
  have hsig := signalling_check hidle
  refine lands_of_wp (isRet_push a _) hstep ?_
  rw [← Prog.bind_ret (Producer.push ..)]
  refine push_closing (resting_check .producer s) a ?_ ?_ _ hstep.1 (own_check .producer s)
  · intro p' s₁ r₁ hs₁ hown₁ hq₁ hcur hrests
    exact lands_of_end rfl (hrests.full hs₁ hown₁ hsig hq₁ hcur)
  · intro p' s₁ r₁ hs₁ hown₁ hq₁
    exact lands_of_end rfl (found_step hs₁ hown₁ hsig hq₁ p')

theorem isFull_spec :
    Triple (contract mask .producer) (Idle .producer) (code (V := V) mask .isFull)
      fun _ => Idle .producer := by
  refine Triple.closing_atomic Idle.stable Idle.stable fun s _ hs hidle _ => ?_
  have hstep := check_step .producer hs
  have hsig := signalling_check hidle
  by_cases hp : s.tx.full mask = true
  · refine lands_of_wp ?_ hstep ?_
    · change (Producer.isFull Hinted.lens mask s.tx).isRet = false
      unfold Producer.isFull
      rw [Prog.bind_eq, refresh_bind, if_pos hp]
      rfl
    · refine isFull_closing (resting_check .producer s) ?_ ?_ hp _ hstep.1 (own_check .producer s)
      · intro p' s₁ r₁ hs₁ hown₁ hq₁ hcur hrests
        exact lands_of_end rfl (hrests.full hs₁ hown₁ hsig hq₁ hcur)
      · intro p' s₁ r₁ hs₁ hown₁ hq₁
        exact lands_of_end rfl (found_step hs₁ hown₁ hsig hq₁ p')
  · have hret : Producer.isFull Hinted.lens mask s.tx =
        (.ret (false, s.tx) : Prog (Hinted w V) _) := by
      unfold Producer.isFull
      rw [Prog.bind_eq, refresh_bind, if_neg hp, if_neg hp]
      rfl
    change Lands _ _ _ (Producer.isFull Hinted.lens mask s.tx) s _
    rw [hret]
    exact lands_of_end (report_check .producer s) (unasked_step hs hidle)

theorem prefetch_spec :
    Triple (contract mask .consumer) (Idle .consumer) (code (V := V) mask .prefetch)
      fun _ => Idle .consumer := by
  refine Triple.closing_atomic Idle.stable Idle.stable fun s _ hs hidle _ => ?_
  have hstep := check_step .consumer hs
  have hsig := signalling_check hidle
  refine lands_of_wp rfl hstep ?_
  change wp _ ((s.rx.prefetch Hinted.lens).closing _) _ _
  rw [← Prog.bind_ret (Consumer.prefetch ..)]
  refine prefetch_closing (Own.frame _ _) (resting_check .consumer s) ?_ ?_ _ hstep.1
    (own_check .consumer s)
  · intro n c' s₁ r₁ hs₁ hown₁ hq₁ hhead htail hrests
    have hd : c'.head = c'.cachedTail := hhead.trans htail.symm
    refine lands_of_end ?_ (hrests.empty hs₁ hown₁ hsig hq₁ hhead hd)
    simp only [hd, decide_true]
    rfl
  · intro n c' s₁ r₁ hs₁ hown₁ hq₁ hhead htail
    have hd : c'.head ≠ c'.cachedTail := fun h => htail (h.symm.trans hhead)
    refine lands_of_end ?_ (found_step hs₁ hown₁ hsig hq₁ c')
    simp only [hd, decide_false]
    rfl

theorem isEmpty_spec :
    Triple (contract mask .consumer) (Idle .consumer) (code (V := V) mask .isEmpty)
      fun _ => Idle .consumer := by
  refine Triple.closing_atomic Idle.stable Idle.stable fun s _ hs hidle _ => ?_
  have hstep := check_step .consumer hs
  have hsig := signalling_check hidle
  change Lands _ _ _ ((s.rx.isEmpty Hinted.lens).bind fun empty => .ret (empty, s.rx)) s _
  by_cases hc : s.rx.head = s.rx.cachedTail
  · refine lands_of_wp (by rw [isEmpty_bind, if_pos hc]; rfl) hstep ?_
    refine isEmpty_closing (resting_check .consumer s) ?_ ?_ hc _ hstep.1 (own_check .consumer s)
    · intro s₁ r₁ hd hs₁ hown₁ hq₁ hrests
      exact lands_of_end rfl (hrests.empty hs₁ hown₁ hsig hq₁ rfl hd)
    · intro s₁ r₁ hs₁ hown₁ hq₁
      exact lands_of_end rfl (found_step hs₁ hown₁ hsig hq₁ s.rx)
  · rw [isEmpty_bind, if_neg hc]
    exact lands_of_end (report_check .consumer s) (unasked_step hs hidle)

/-! ## Publications without a hint -/

theorem flush_spec :
    Triple (contract mask .producer) (Idle .producer) (code (V := V) mask .flush)
      fun _ => Idle .producer := by
  refine Triple.closing_atomic Idle.stable Idle.stable fun s _ hs hidle _ => ?_
  refine lands_of_wp rfl ⟨hs, .refl mask _ s⟩ ?_
  refine Triple.closing_atomic (P := Own .producer (s.half .producer) s.tx) Own.stable Idle.stable
    (fun s₁ _ hs₁ hown₁ _ => ?_) _ hs ⟨rfl, rfl⟩
  have hends : s₁.tx = s.tx := hown₁.ends
  refine lands_of_end rfl (published_step (v := .producer) (x := s.tx)
    (r := (s₁.ring.storeTail s.tx.cursor).2) hs₁ (hown₁.idle hidle) rfl
    (fun u => by cases u <;> rfl) fun _ => ?_)
  exact hends ▸ .refl _

theorem release_spec :
    Triple (contract mask .consumer) (Idle .consumer) (code (V := V) mask .release)
      fun _ => Idle .consumer := by
  refine Triple.closing_atomic Idle.stable Idle.stable fun s _ hs hidle _ => ?_
  refine lands_of_wp rfl ⟨hs, .refl mask _ s⟩ ?_
  refine Triple.closing_atomic (P := Own .consumer (s.half .consumer) s.rx) Own.stable Idle.stable
    (fun s₁ _ hs₁ hown₁ _ => ?_) _ hs ⟨rfl, rfl⟩
  have hends : s₁.rx = s.rx := hown₁.ends
  refine lands_of_end rfl (published_step (v := .consumer) (x := s.rx)
    (r := (s₁.ring.storeHead s.rx.head).2) hs₁ (hown₁.idle hidle) rfl
    (fun u => by cases u <;> rfl) fun _ => ?_)
  exact hends ▸ .refl _

theorem pushAndFlush_spec (a : V) :
    Triple (contract mask .producer) (Idle .producer) (code mask (.pushAndFlush a))
      fun _ => Idle .producer := by
  refine Triple.closing_atomic Idle.stable Idle.stable fun s _ hs hidle _ => ?_
  have hstep := check_step .producer hs
  have hsig := signalling_check hidle
  have hrest := resting_check .producer s
  refine lands_of_wp (?_ : ((Producer.push Hinted.lens mask a s.tx).bind _).isRet = false)
    hstep ?_
  · rw [push_bind, ringPush_bind, refresh_bind]
    split <;> rfl
  refine push_closing hrest a ?_ ?_ _ hstep.1 (own_check .producer s)
  · intro p' s₁ r₁ hs₁ hown₁ hq₁ hcur hrests
    exact lands_of_end rfl (hrests.full hs₁ hown₁ hsig hq₁ hcur)
  · intro p' s₁ r₁ hs₁ hown₁ hq₁
    have hstep₁ := quiet_step .producer hs₁ hq₁
    refine lands_of_wp rfl hstep₁ ?_
    refine Triple.closing_atomic (P := Own .producer ((s.check .producer).half .producer) s.tx)
      Own.stable Idle.stable (fun s₂ _ hs₂ hown₂ _ => ?_) _ hstep₁.1 (hown₁.ring r₁)
    refine lands_of_end rfl (published_step (v := .producer) (x := p')
      (r := (s₂.ring.storeTail p'.cursor).2) hs₂ (hown₂.idle hsig) rfl
      (fun u => by cases u <;> rfl) fun h => ?_)
    rw [hown₂.half, hrest] at h
    exact absurd h (by simp)

/-! ## Pops -/

/-- An access no waiter and no published cursor shows. -/
def Unseen (s s' : Hinted w V) : Prop := ∃ r, Quiet s.ring r ∧ s' = { s with ring := r }

theorem Unseen.refl (s : Hinted w V) : Unseen s s := ⟨s.ring, .refl _, rfl⟩

/-- Pops, one or many, take values out of the window and leave the rest as it is. -/
theorem popping_spec {α : Type} {f : Consumer w → Prog (Hinted w V) (α × Consumer w)}
    (hf : ∀ c, (f c).Straight Unseen)
    (hdrained : ∀ c, c.head = c.cachedTail → ∃ a, f c = .ret (a, c)) :
    Triple (contract mask .consumer) (Idle .consumer)
      (call Hinted.consumer (fun _ s => s) f fun _ _ s => s) fun _ => Idle .consumer := by
  refine Triple.closing_atomic Idle.stable Idle.stable fun s _ hs hidle _ => ?_
  by_cases hrest : (s.half .consumer).resting = true
  · -- a consumer that found nothing has nothing to pop
    obtain ⟨a, ha⟩ := hdrained s.rx ((hs .consumer).drained hrest)
    change Lands _ _ _ (f s.rx) s s
    rw [ha]
    exact lands_of_end rfl (plain_step (v := .consumer) (x := s.rx) hs hidle (.refl _)
      fun _ => .refl _)
  · refine Triple.lands_straight (P := Own .consumer (s.half .consumer) s.rx) (fun _ => trivial)
      (hf s.rx) Own.stable Idle.stable ?_ ?_ s s hs ⟨rfl, rfl⟩ (.refl s)
    · rintro s₁ - hs₁ hown ⟨r, hq, rfl⟩
      have hstep := quiet_step .consumer hs₁ hq
      exact ⟨hstep.1, hstep.2, hown.ring r⟩
    · rintro a s₁ - hs₁ hown ⟨r, hq, rfl⟩
      refine plain_step (v := .consumer) (x := a.2) hs₁ (hown.idle hidle) hq fun h => ?_
      rw [hown.half] at h
      exact absurd h hrest

theorem straight_take (i : Nat) :
    (Hinted.lens.access (Ring.take i) : Prog (Hinted w V) _).Straight Unseen :=
  .atomic fun s => ⟨_, quiet_log s.ring _, rfl⟩

theorem straight_peek (i : Nat) :
    (Hinted.lens.access (Ring.peek i) : Prog (Hinted w V) _).Straight Unseen :=
  .atomic fun s => ⟨_, quiet_log s.ring _, rfl⟩

theorem straight_moveSlots : ∀ (len i : Nat) (output : List V),
    (moveSlots Hinted.lens i len output : Prog (Hinted w V) _).Straight Unseen
  | 0, _, _ => trivial
  | len + 1, i, _ => (straight_take i).bind fun _ => straight_moveSlots len (i + 1) _

theorem straight_acceptedPrefix (accept : List V → V → Bool) (head : BitVec w) :
    ∀ (limit : Nat) (seen : List V),
      (acceptedPrefix Hinted.lens mask accept head limit seen).Straight Unseen
  | 0, _ => trivial
  | limit + 1, seen => by
    refine (straight_peek _).bind fun a => ?_
    cases a with
    | none => trivial
    | some x =>
      dsimp only
      split
      · exact straight_acceptedPrefix accept head limit _
      · trivial

theorem straight_ringPopInto (n : Nat) (output : List V) (c : Consumer w) :
    (Ring.popInto Hinted.lens mask n output c).Straight Unseen :=
  (straight_moveSlots ..).bind fun _ => (straight_moveSlots ..).bind fun _ => trivial

/-- The distance of a used-up window. -/
theorem distance_self (a : BitVec w) : distance a a = 0 := by
  simp [distance]

theorem pop_spec :
    Triple (contract mask .consumer) (Idle .consumer) (code (V := V) mask .pop)
      fun _ => Idle .consumer := by
  refine popping_spec (fun c => ?_) fun c hc => ⟨none, if_pos hc⟩
  unfold Consumer.pop
  split
  · trivial
  · exact (straight_take _).bind fun _ => trivial

theorem popInto_spec (limit : Nat) :
    Triple (contract mask .consumer) (Idle .consumer) (code (V := V) mask (.popInto limit))
      fun _ => Idle .consumer := by
  refine popping_spec (fun c => Prog.Straight.bind ?_ fun _ => trivial) fun c hc => ⟨0, ?_⟩
  · unfold Consumer.popInto
    dsimp only
    split
    · trivial
    · exact (straight_ringPopInto ..).bind fun _ => trivial
  · unfold Consumer.popInto
    simp [hc, distance_self]

theorem popIntoWhile_spec (accept : List V → V → Bool) (limit : Nat) :
    Triple (contract mask .consumer) (Idle .consumer) (code mask (.popIntoWhile accept limit))
      fun _ => Idle .consumer := by
  refine popping_spec (fun c => Prog.Straight.bind ?_ fun _ => trivial) fun c hc => ⟨0, ?_⟩
  · unfold Consumer.popIntoWhile
    dsimp only
    split
    · trivial
    · refine (straight_acceptedPrefix ..).bind fun n => ?_
      split
      · trivial
      · exact (straight_ringPopInto ..).bind fun _ => trivial
  · unfold Consumer.popIntoWhile
    simp [hc, distance_self]

/-! ## Publications with a hint -/

theorem Enabled.ring {h : Half} {x : End w v} {s : Hinted w V} (hp : Enabled mask v h x s)
    {r : Ring w V} (hq : Quiet s.ring r) : Enabled mask v h x { s with ring := r } := by
  refine ⟨hp.1.ring (hq.word v), ?_⟩
  change (r.waiter v.other).enabled = true
  rw [hq.waiter]
  exact hp.2

/-- A call starts to signal. -/
theorem signals_signal {s : Hinted w V} (hs : Inv mask s) (hidle : Idle v s) :
    Signals mask v ((s.signal v).half v) (ends s v) (s.signal v) := by
  refine ⟨⟨rfl, by simp [Hinted.signal]⟩, ?_⟩
  have hset : Settled mask v.other s := (hs v.other).settled (by rw [Side.other_other]; exact hidle)
  have := (signal_step v hs).2
  intro hrest
  rw [this.half] at hrest
  rw [this.ends]
  refine (hset hrest).imp_left fun h => ?_
  unfold Excused
  rw [Side.other_other, this.half]
  unfold Excused at h
  rw [Side.other_other] at h
  simpa [Hinted.signal] using h

theorem signalling_signal (v : Side) (s : Hinted w V) :
    ((s.signal v).half v).signalling = true := by
  simp [Hinted.signal]

/-- The store of a signalling call, and the take that ends it. -/
theorem publish_closing {α : Type} {h : Half} (x x' : End w v)
    (hsig : h.signalling = true) (hkeeps : h.resting = true → Keeps (V := V) mask v x x')
    {store : Ring w V → Unit × Ring w V}
    (hword : ∀ r, word v.other (store r).2 = word v.other r)
    (hwaiter : ∀ r u, (store r).2.waiter u = r.waiter u) {F : Bool → α}
    {g : α → Hinted w V → Hinted w V}
    (hg : ∀ b s, g (F b) s = (setEnds s v x').signalled v (some b)) (observed : Bool) :
    Triple (contract mask v) (Enabled mask v h x)
      (((Hinted.lens.access store).bind fun _ =>
        (Waiter.take Hinted.lens v.other observed).bind fun b => .ret (F b)).closing g)
      fun _ => Idle v := by
  refine Triple.closing_atomic Enabled.stable Idle.stable fun s _ hs hp _ => ?_
  have hstep := publish_step (r := (store s.ring).2) hs (by rw [hp.1.1.half]; exact hsig) hp.2
    (hword s.ring) (hwaiter s.ring)
  refine lands_of_wp ?_ hstep (take_closing hkeeps hg observed _ hstep.1 (hp.1.1.ring _))
  unfold Waiter.take
  cases observed <;> rfl

theorem flushAndCheck_spec :
    Triple (contract mask .producer) (Idle .producer) (code (V := V) mask .flushAndCheck)
      fun _ => Idle .producer := by
  refine Triple.closing_atomic Idle.stable Idle.stable fun s _ hs hidle _ => ?_
  have hstep := signal_step .producer hs
  have hsig := signalling_signal .producer s
  refine lands_of_wp rfl hstep ?_
  refine Triple.closing_bind (fun _ => rfl) (enabled_spec (v := .producer) _ s.tx)
    (fun _ => ?_) _ hstep.1
    (signals_signal hs hidle)
  -- nothing to flush, or a load of `head` for the answer
  refine Triple.closing_atomic Enabled.stable Idle.stable fun s₁ _ hs₁ hp₁ _ => ?_
  have hends : s₁.tx = s.tx := hp₁.1.1.ends
  change Lands _ _ _ (if s.tx.cursor = s₁.ring.tail then _ else _) s₁ s₁
  split
  · refine lands_of_end rfl (unsignalled_step (v := .producer) (x := s.tx) (r := s₁.ring) hs₁
      hp₁.1.2 (.refl _) none fun _ => ?_)
    exact hends ▸ .refl _
  · refine lands_of_wp rfl ⟨hs₁, .refl mask _ s₁⟩ ?_
    refine Triple.closing_atomic Enabled.stable Idle.stable (fun s₂ _ hs₂ hp₂ _ => ?_) _ hs₁ hp₁
    have hq₂ := quiet_log s₂.ring (.loadHead none : Event V)
    have hstep₂ := quiet_step .producer hs₂ hq₂
    refine lands_of_wp rfl hstep₂ ?_
    exact publish_closing (v := .producer) s.tx (⟨s.tx.cursor, s₂.ring.head⟩ : Producer w)
      hsig (fun _ => ⟨fun h => h, fun _ h => h⟩) (fun _ => rfl) (fun _ u => by cases u <;> rfl)
      (fun _ _ => rfl) _ _ hstep₂.1 (hp₂.ring hq₂)

theorem releaseWithFull_bind (c : Consumer w) (k : Bool → Prog (Hinted w V) β) :
    (c.releaseWithFull Hinted.lens mask).bind k =
      (Waiter.enable Hinted.lens .producer).bind fun _ =>
        (Hinted.lens.access fun r => (r.head, r)).bind fun publishedHead =>
          if c.head = publishedHead then k false
          else
            (Hinted.lens.access (Ring.storeHead c.head)).bind fun _ =>
              (Waiter.take Hinted.lens .producer
                (decide (capacity mask ≤ distance c.cachedTail publishedHead))).bind k := by
  unfold Consumer.releaseWithFull
  rw [Prog.bind_eq, Prog.bind_assoc]
  congr 1
  funext _
  rw [Prog.bind_eq, Prog.bind_assoc]
  congr 1
  funext publishedHead
  split
  · rfl
  · rw [Prog.bind_eq, Prog.bind_assoc]
    rfl

theorem releaseWithFull_spec :
    Triple (contract mask .consumer) (Idle .consumer) (code (V := V) mask .releaseWithFull)
      fun _ => Idle .consumer := by
  refine Triple.closing_atomic Idle.stable Idle.stable fun s _ hs hidle _ => ?_
  have hstep := signal_step .consumer hs
  have hsig := signalling_signal .consumer s
  change Lands _ _ _ ((s.rx.releaseWithFull Hinted.lens mask).bind fun wake => .ret (wake, s.rx))
    s _
  rw [releaseWithFull_bind]
  refine lands_of_wp rfl hstep ?_
  refine Triple.closing_bind (fun _ => rfl) (enabled_spec (v := .consumer) _ s.rx) (fun _ => ?_) _
    hstep.1 (signals_signal hs hidle)
  refine Triple.closing_atomic Enabled.stable Idle.stable fun s₁ _ hs₁ hp₁ _ => ?_
  have hends : s₁.rx = s.rx := hp₁.1.1.ends
  change Lands _ _ _ (if s.rx.head = s₁.ring.head then _ else _) s₁ s₁
  split
  · refine lands_of_end rfl (unsignalled_step (v := .consumer) (x := s.rx) (r := s₁.ring) hs₁
      hp₁.1.2 (.refl _) (some false) fun _ => ?_)
    exact hends ▸ .refl _
  · refine lands_of_wp rfl ⟨hs₁, .refl mask _ s₁⟩ ?_
    exact publish_closing (v := .consumer) s.rx s.rx hsig (fun _ => .refl _) (fun _ => rfl)
      (fun _ u => by cases u <;> rfl) (fun _ _ => rfl) _ _ hs₁ hp₁

/-! ## Prefetch, pop and release in one -/

/-- The rest of a `prefetch_and_pop` once it has a window. -/
def popAndRelease (mask : BitVec w) (c : Consumer w) :
    Prog (Hinted w V) (Option V × Consumer w) :=
  (c.pop Hinted.lens mask).bind fun r =>
    if r.1.isSome then (r.2.release Hinted.lens).bind fun _ => .ret r else .ret r

theorem prefetchAndPop_eq (c : Consumer w) :
    (c.prefetchAndPop Hinted.lens mask : Prog (Hinted w V) _) =
      if c.head = c.cachedTail then
        (c.prefetch Hinted.lens).bind fun r => popAndRelease mask r.2
      else popAndRelease mask c := by
  unfold Consumer.prefetchAndPop
  split
  · rw [Prog.bind_eq]
    congr 1
  · unfold popAndRelease
    congr 1

/-- A pop out of a window moves the head. -/
theorem succ_ne {a b : BitVec w} (h : b ≠ a) : a + 1 ≠ a := by
  intro he
  have := Cursor.toNat_sub_succ_lt h
  rw [he] at this
  exact absurd this (lt_irrefl _)

/-- A pop out of a window, a plain release of it, and the end of the call. -/
theorem popAndRelease_closing {α : Type} {h : Half} {x c : Consumer w}
    (hc : c.head ≠ c.cachedTail) (hrest : h.resting = false) (hsig : h.signalling = false)
    {F : Option V × Consumer w → α} {g : α → Hinted w V → Hinted w V}
    (hg : ∀ a s, g (F (a, { c with head := c.head + 1 })) s =
      (setEnds s .consumer ({ c with head := c.head + 1 } : Consumer w)).published .consumer) :
    Triple (contract mask .consumer) (Own .consumer h x)
      (((popAndRelease mask c).bind fun r => .ret (F r)).closing g) fun _ => Idle .consumer := by
  have hkeeps : ∀ {s : Hinted w V}, Own .consumer h x s → (s.half .consumer).resting = true →
      Keeps (V := V) mask .consumer (ends s .consumer)
        ({ c with head := c.head + 1 } : Consumer w) :=
    fun hown hr => absurd (hr.symm.trans ((congrArg Half.resting hown.half).trans hrest)) (by simp)
  unfold popAndRelease Consumer.pop
  rw [if_neg hc, Prog.bind_eq, Prog.bind_assoc, Prog.bind_assoc]
  refine Triple.closing_atomic Own.stable Idle.stable fun s _ hs hown _ => ?_
  have hq := quiet_log s.ring (.take (index mask c.head) (s.ring.buf (index mask c.head)) : Event V)
  change Lands _ _ _ ((if (s.ring.buf (index mask c.head)).isSome = true then _ else _ :
    Prog _ _).bind _) s { s with ring := s.ring.log (.take _ _) }
  split
  · have hstep := quiet_step .consumer hs hq
    refine lands_of_wp rfl hstep ?_
    rw [Prog.bind_assoc]
    refine Triple.closing_atomic (P := Own .consumer h x) Own.stable Idle.stable
      (fun s₁ _ hs₁ hown₁ _ => ?_) _ hstep.1 (hown.ring _)
    exact lands_of_end (hg _ _) (published_step (r := (s₁.ring.storeHead (c.head + 1)).2) hs₁
      (hown₁.idle hsig) rfl (fun u => by cases u <;> rfl) (hkeeps hown₁))
  · exact lands_of_end (hg _ _) (published_step (r := s.ring.log (.take _ _)) hs (hown.idle hsig)
      rfl (fun u => hq.waiter u) (hkeeps hown))

theorem stayed_succ {c c' : Consumer w} (hhead : c'.head = c.head)
    (hc : c'.head ≠ c'.cachedTail) : stayed c { c' with head := c'.head + 1 } = false :=
  decide_eq_false (by rw [← hhead]; exact succ_ne (Ne.symm hc))

theorem popAndRelease_drained {c : Consumer w} (hc : c.head = c.cachedTail) :
    (popAndRelease mask c : Prog (Hinted w V) _) = .ret (none, c) := by
  unfold popAndRelease Consumer.pop
  rw [if_pos hc]
  rfl

theorem isRet_popAndRelease {c : Consumer w} (hc : c.head ≠ c.cachedTail)
    (k : Option V × Consumer w → Prog (Hinted w V) β) :
    ((popAndRelease mask c).bind k).isRet = false := by
  unfold popAndRelease Consumer.pop
  rw [if_neg hc]
  rfl

theorem prefetchAndPop_spec :
    Triple (contract mask .consumer) (Idle .consumer) (code (V := V) mask .prefetchAndPop)
      fun _ => Idle .consumer := by
  refine Triple.closing_atomic Idle.stable Idle.stable fun s _ hs hidle _ => ?_
  change Lands _ _ _ ((s.rx.prefetchAndPop Hinted.lens mask).bind fun r =>
    .ret ((r.1, stayed s.rx r.2), r.2)) s (if s.rx.head = s.rx.cachedTail then _ else _)
  rw [prefetchAndPop_eq]
  by_cases hc : s.rx.head = s.rx.cachedTail
  · rw [if_pos hc, if_pos hc, Prog.bind_assoc]
    have hstep := check_step .consumer hs
    have hsig := signalling_check hidle
    have hrest := resting_check .consumer s
    refine lands_of_wp (by rw [prefetch_bind]; rfl) hstep ?_
    refine prefetch_closing (Own.frame _ _) hrest ?_ ?_ _ hstep.1 (own_check .consumer s)
    · intro n c' s₁ r₁ hs₁ hown₁ hq₁ hhead htail hrests
      have hd : c'.head = c'.cachedTail := hhead.trans htail.symm
      rw [popAndRelease_drained hd]
      refine lands_of_end ?_ (hrests.empty hs₁ hown₁ hsig hq₁ hhead hd)
      have hstayed : stayed s.rx c' = true := decide_eq_true hhead
      simp only [hstayed, if_true]
      rfl
    · intro n c' s₁ r₁ hs₁ hown₁ hq₁ hhead htail
      have hd : c'.head ≠ c'.cachedTail := fun h => htail (h.symm.trans hhead)
      have hstep₁ := quiet_step .consumer hs₁ hq₁
      refine lands_of_wp (isRet_popAndRelease hd _) hstep₁ ?_
      refine popAndRelease_closing hd hrest hsig (fun a s => ?_) _ hstep₁.1 (hown₁.ring _)
      simp only [stayed_succ hhead hd, Bool.false_eq_true, if_false]
      rfl
  · rw [if_neg hc, if_neg hc]
    -- a consumer with values in its window rests on no check
    have hrest : (s.half .consumer).resting = false := by
      by_contra h
      exact hc ((hs .consumer).drained (by simpa using h))
    refine lands_of_wp (isRet_popAndRelease hc _) ⟨hs, .refl mask _ s⟩ ?_
    refine popAndRelease_closing (x := s.rx) hc hrest hidle (fun a s => ?_) _ hs ⟨rfl, rfl⟩
    simp only [stayed_succ rfl hc, Bool.false_eq_true, if_false]
    rfl

/-- The rest of a `prefetch_and_pop_with_full` once it has a window. -/
def popAndTake (mask : BitVec w) (c : Consumer w) :
    Prog (Hinted w V) (Option (V × Bool) × Consumer w) :=
  (c.pop Hinted.lens mask).bind fun r =>
    match r.1 with
    | none => .ret (none, r.2)
    | some a =>
      (r.2.release Hinted.lens).bind fun _ =>
        (Waiter.take Hinted.lens .producer
          (decide (capacity mask ≤ distance c.cachedTail c.head))).bind fun wake =>
          .ret (some (a, wake), r.2)

theorem prefetchAndPopWithFull_eq (c : Consumer w) :
    (prefetchAndPopWithFull mask c : Prog (Hinted w V) _) =
      (Waiter.enable Hinted.lens .producer).bind fun _ =>
        if c.head = c.cachedTail then
          (Prog.write (Hinted.check .consumer)).bind fun _ =>
            (c.prefetch Hinted.lens).bind fun r => popAndTake mask r.2
        else popAndTake mask c := by
  unfold prefetchAndPopWithFull
  rw [Prog.bind_eq]
  congr 1

/-- A pop out of a window, a release of it with a hint, and the end of the call. -/
theorem popAndTake_closing {α : Type} {h : Half} {x c : Consumer w}
    (hc : c.head ≠ c.cachedTail) (hrest : h.resting = false) (hsig : h.signalling = true)
    {F : Option (V × Bool) × Consumer w → α} {g : α → Hinted w V → Hinted w V}
    (hg : ∀ a s, g (F (a, { c with head := c.head + 1 })) s =
      (setEnds s .consumer ({ c with head := c.head + 1 } : Consumer w)).signalled .consumer
        (a.map Prod.snd)) :
    Triple (contract mask .consumer) (Enabled mask .consumer h x)
      (((popAndTake mask c).bind fun r => .ret (F r)).closing g) fun _ => Idle .consumer := by
  have hkeeps : h.resting = true →
      Keeps (V := V) mask .consumer x ({ c with head := c.head + 1 } : Consumer w) :=
    fun hr => absurd (hr.symm.trans hrest) (by simp)
  unfold popAndTake Consumer.pop
  rw [if_neg hc, Prog.bind_eq, Prog.bind_assoc, Prog.bind_assoc]
  refine Triple.closing_atomic Enabled.stable Idle.stable fun s _ hs hp _ => ?_
  have hq := quiet_log s.ring (.take (index mask c.head) (s.ring.buf (index mask c.head)) : Event V)
  change Lands _ _ _ ((match s.ring.buf (index mask c.head) with
    | none => _
    | some a => _ : Prog _ _).bind _) s { s with ring := s.ring.log (.take _ _) }
  cases s.ring.buf (index mask c.head) with
  | none =>
    refine lands_of_end (hg none _) (unsignalled_step (r := s.ring.log (.take _ _)) hs
      hp.1.2 hq none fun hr => ?_)
    rw [hp.1.1.half] at hr
    exact absurd (hr.symm.trans hrest) (by simp)
  | some a =>
    have hstep := quiet_step .consumer hs hq
    refine lands_of_wp rfl hstep ?_
    dsimp only
    rw [Prog.bind_assoc]
    simp only [Prog.bind_assoc, Prog.ret_bind]
    exact publish_closing (v := .consumer) x ({ c with head := c.head + 1 } : Consumer w) hsig
      hkeeps (fun _ => rfl) (fun _ u => by cases u <;> rfl) (fun b s => hg (some (a, b)) s) _ _
      hstep.1 (hp.ring hq)

theorem popAndTake_drained {c : Consumer w} (hc : c.head = c.cachedTail) :
    (popAndTake mask c : Prog (Hinted w V) _) = .ret (none, c) := by
  unfold popAndTake Consumer.pop
  rw [if_pos hc]
  rfl

theorem isRet_popAndTake {c : Consumer w} (hc : c.head ≠ c.cachedTail)
    (k : Option (V × Bool) × Consumer w → Prog (Hinted w V) β) :
    ((popAndTake mask c).bind k).isRet = false := by
  unfold popAndTake Consumer.pop
  rw [if_neg hc]
  rfl

/-- The check inside a signalling call starts. -/
theorem Enabled.check {h : Half} {x : End w v} {s : Hinted w V} (hp : Enabled mask v h x s)
    (hg : Guar mask v s (s.check v)) : Enabled mask v ((s.check v).half v) x (s.check v) := by
  refine ⟨⟨⟨rfl, ?_⟩, fun hrest => ?_⟩, hp.2⟩
  · rw [← hp.1.1.ends]
    exact (own_check v s).ends
  · rw [hg.half] at hrest
    rw [hg.ends]
    refine (hp.1.2 hrest).imp_left fun h => ?_
    unfold Excused at h ⊢
    rw [Side.other_other] at h ⊢
    rw [hg.half]
    simpa [Hinted.check] using h

/-- A signalling call that published nothing ends with the report of its check. -/
theorem unsignalled_report (v : Side) (s : Hinted w V) :
    (s.signalled v none).report v true =
      s.setHalf v { s.half v with resting := true, signalling := false } := by
  simp [Hinted.signalled, Hinted.report, Hinted.setHalf]

theorem prefetchAndPopWithFull_spec :
    Triple (contract mask .consumer) (Idle .consumer) (code (V := V) mask .prefetchAndPopWithFull)
      fun _ => Idle .consumer := by
  refine Triple.closing_atomic Idle.stable Idle.stable fun s _ hs hidle _ => ?_
  have hstep := signal_step .consumer hs
  have hsig := signalling_signal .consumer s
  change Lands _ _ _ ((prefetchAndPopWithFull mask s.rx).bind fun r =>
    .ret ((r.1, stayed s.rx r.2), r.2)) s (s.signal .consumer)
  rw [prefetchAndPopWithFull_eq, Prog.bind_assoc]
  refine lands_of_wp rfl hstep ?_
  refine Triple.closing_bind (fun _ => ?_) (enabled_spec (v := .consumer) _ s.rx) (fun _ => ?_) _
    hstep.1 (signals_signal hs hidle)
  · split
    · rfl
    · next hc => exact isRet_popAndTake hc _
  split
  · next hc =>
    rw [Prog.bind_assoc]
    refine Triple.closing_atomic Enabled.stable Idle.stable fun s₁ _ hs₁ hp₁ _ => ?_
    have hstep₁ := check_step .consumer hs₁
    have hrest := resting_check .consumer s₁
    have hsig₁ : ((s₁.check .consumer).half .consumer).signalling = true := by
      have : (s₁.half .consumer).signalling = true := by
        rw [hp₁.1.1.half]
        exact hsig
      simpa [Hinted.check] using this
    rw [Prog.bind_assoc]
    refine lands_of_wp (by rw [prefetch_bind]; rfl) hstep₁ ?_
    refine prefetch_closing (Enabled.frame _ _) hrest ?_ ?_ _ hstep₁.1 (hp₁.check hstep₁.2)
    · intro n c' s₂ r₂ hs₂ hp₂ hq₂ hhead htail hrests
      have hd : c'.head = c'.cachedTail := hhead.trans htail.symm
      rw [popAndTake_drained hd]
      refine lands_of_end ?_ (rest_step (v := .consumer) (x := c') hs₂
        (fun _ => hp₂.1.2) hq₂ true fun _ => ⟨hd, ?_, hrests.alert⟩)
      · have hstayed : stayed s.rx c' = true := decide_eq_true hhead
        simp only [hstayed, if_true]
        exact unsignalled_report _ _
      · exact hrests.stuck.imp_right fun h => Eq.trans h hhead.symm
    · intro n c' s₂ r₂ hs₂ hp₂ hq₂ hhead htail
      have hd : c'.head ≠ c'.cachedTail := fun h => htail (h.symm.trans hhead)
      have hstep₂ := quiet_step .consumer hs₂ hq₂
      refine lands_of_wp (isRet_popAndTake hd _) hstep₂ ?_
      refine popAndTake_closing hd hrest hsig₁ (fun a s => ?_) _ hstep₂.1 (hp₂.ring hq₂)
      cases a with
      | some a => rfl
      | none =>
        simp only [stayed_succ hhead hd, Bool.false_eq_true, if_false]
        rfl
  · next hc =>
    have hrest : ((s.signal .consumer).half .consumer).resting = false := by
      have : (s.half .consumer).resting = false := by
        by_contra h
        exact hc ((hs .consumer).drained (by simpa using h))
      simpa [Hinted.signal] using this
    refine popAndTake_closing (x := s.rx) hc hrest hsig (fun a s => ?_)
    cases a with
    | some a => rfl
    | none =>
      simp only [stayed_succ rfl hc, Bool.false_eq_true, if_false]
      rfl

/-! ## The outline -/

theorem code_spec : ∀ op : Op V, Triple (contract mask op.side) (Idle op.side) (code mask op)
    fun _ => Idle op.side
  | .push a => push_spec a
  | .flush => flush_spec
  | .flushAndCheck => flushAndCheck_spec
  | .pushAndFlush a => pushAndFlush_spec a
  | .isFull => isFull_spec
  | .prefetch => prefetch_spec
  | .isEmpty => isEmpty_spec
  | .pop => pop_spec
  | .popInto limit => popInto_spec limit
  | .popIntoWhile accept limit => popIntoWhile_spec accept limit
  | .release => release_spec
  | .releaseWithFull => releaseWithFull_spec
  | .prefetchAndPop => prefetchAndPop_spec
  | .prefetchAndPopWithFull => prefetchAndPopWithFull_spec

def outline (mask : BitVec w) : Outline (system mask : System (Hinted w V) Side (Op V)) where
  inv := Inv mask
  guar := Guar mask
  cond _ _ _ := True
  callable _ _ _ := True
  idle := Idle
  guar_refl := Guar.refl mask
  idle_stable t u s s' hu hs hs' hg h := by
    have hstable : (contract (V := V) mask t).Stable (Idle t) := Idle.stable
    exact hstable s s' hs hs' ⟨u, hu, hg⟩ h
  code_ok t op s hs hidle hmay _ := by
    simp only [system, beq_iff_eq] at hmay
    subst hmay
    exact code_spec op s hs hidle

theorem good_of_run {start : BitVec w} {c : Config (Hinted w V) Side}
    (hrun : (system mask).Run System.always (initial start) c) : (outline mask).Good c := by
  have hgood : (outline (V := V) mask).Good (initial start) :=
    ⟨fun v => Waits.initial start v, fun _ => rfl⟩
  refine Outline.good_run hgood (System.Run.mono (fun c l _ => ?_) hrun)
  cases l <;> trivial

/-! ## No wakeup is lost -/

/-- **The hints for data lose no wakeup.** Whenever the consumer's last check found nothing and it
    has started none since, the producer is in no `flush_and_check`, and the published tail is past
    the consumer's head: unless the producer has published without asking for a hint since that
    check started, one of its `flush_and_check` calls whose take came after that has answered
    `was_empty`. -/
theorem data_hints_suffice {start : BitVec w} {c : Config (Hinted w V) Side}
    (hrun : (system mask).Run System.always (initial start) c)
    (hresting : (c.st.half .consumer).resting = true)
    (hdone : (c.st.half .producer).signalling = false)
    (hplain : (c.st.half .producer).plain = (c.st.half .consumer).seenPlain)
    (htail : c.st.ring.tail ≠ c.st.rx.head) :
    true ∈ (c.st.half .producer).signals.drop (c.st.half .consumer).seenSignals := by
  have hinv : Inv mask c.st := (good_of_run hrun).1
  rcases (hinv .consumer).settled hdone hresting with (h | h) | h
  · exact absurd hplain (Nat.ne_of_gt h)
  · exact h
  · exact absurd h htail

/-- A ring whose first value is popped and not released: the flush of the second does not see the
    ring empty, and answers by the consumer's registration alone. -/
def registered : Config (Hinted 3 Nat) Side :=
  (system 1#3).after (initial 7#3) (List.flatten [System.turn .producer (.push 10) 2,
    System.turn .producer .flushAndCheck 7, System.turn .consumer .prefetch 2,
    System.turn .consumer .pop 2, System.turn .consumer .prefetch 6,
    System.turn .producer (.push 20) 2, System.turn .producer .flushAndCheck 7])

theorem registered_data_hints :
    registered.st.ring.head ≠ registered.st.rx.head ∧
      true ∈ (registered.st.half .producer).signals.drop
        (registered.st.half .consumer).seenSignals := by
  have hrun : (system 1#3).Run System.always (initial 7#3) registered :=
    System.run_after (by decide +kernel)
  exact ⟨by decide +kernel, data_hints_suffice hrun (by decide +kernel) (by decide +kernel)
    (by decide +kernel) (by decide +kernel)⟩

/-- The consumer has nothing to release, and the producer is registered, if `p`. -/
def Unreleased (p : Prop) (s : Hinted w V) : Prop :=
  s.rx.head = s.ring.head ∧ (p → s.ring.producerWaiting.waiting = true)

theorem Unreleased.other {p : Prop} {s s' : Hinted w V} (hg : Guar mask .producer s s')
    (h : Unreleased p s) : Unreleased p s' := by
  have hrx : s'.rx = s.rx := hg.ends
  have hhead : s'.ring.head = s.ring.head := hg.word_other
  refine ⟨?_, fun hp => hg.waiting_own (h.2 hp)⟩
  rw [hrx, hhead]
  exact h.1

/-- **A release of nothing** answers that nobody is to be woken, and takes no registration. -/
theorem releaseNothing_spec (signals : List Bool) (p : Prop) :
    Triple (contract mask .consumer)
      (fun s => (Idle .consumer s ∧ (s.half .consumer).signals = signals) ∧ Unreleased p s)
      (code (V := V) mask .releaseWithFull) fun _ s =>
        (s.half .consumer).signals = signals ++ [false] ∧
          (p → s.ring.producerWaiting.waiting = true) := by
  have hstable : (contract mask .consumer).Stable (Unreleased (w := w) (V := V) p) :=
    stable_of_other fun _ _ _ hg h => h.other hg
  have hdone : (contract mask .consumer).Stable fun s : Hinted w V =>
      (s.half .consumer).signals = signals ++ [false] ∧
        (p → s.ring.producerWaiting.waiting = true) :=
    stable_of_other fun s s' _ hg h => by
      rw [show s'.half .consumer = s.half .consumer from hg.half]
      exact ⟨h.1, fun hp => hg.waiting_own (h.2 hp)⟩
  have hstart : (contract mask .consumer).Stable fun s : Hinted w V =>
      Idle .consumer s ∧ (s.half .consumer).signals = signals :=
    stable_of_other fun s s' _ hg h => by
      unfold Idle
      rw [show s'.half .consumer = s.half .consumer from hg.half]
      exact h
  refine Triple.closing_atomic (hstart.and hstable) hdone fun s _ hs hp _ => ?_
  obtain ⟨⟨hidle, hsignals⟩, hun⟩ := hp
  have hstep := signal_step .consumer hs
  change Lands _ _ _ ((s.rx.releaseWithFull Hinted.lens mask).bind fun wake => .ret (wake, s.rx))
    s _
  rw [releaseWithFull_bind]
  refine lands_of_wp rfl hstep ?_
  refine Triple.closing_bind (fun _ => rfl) (enable_spec (v := .consumer) (R := Unreleased p) _
    s.rx (fun s s' hg h => h.other hg) fun s r h hword hwaiting => ?_) (fun _ => ?_) _ hstep.1
    ⟨signals_signal hs hidle, hun⟩
  · refine ⟨?_, fun hp => Eq.trans hwaiting (h.2 hp)⟩
    rw [show r.head = s.ring.head from hword .consumer]
    exact h.1
  · refine Triple.closing_atomic (Enabled.stable.and hstable) hdone fun s₁ _ hs₁ hp₁ _ => ?_
    have hrx : s₁.rx = s.rx := hp₁.1.1.1.ends
    have hhalf : s₁.half .consumer = (s.signal .consumer).half .consumer := hp₁.1.1.1.half
    change Lands _ _ _ (if s.rx.head = s₁.ring.head then _ else _) s₁ s₁
    rw [if_pos (hrx ▸ hp₁.2.1)]
    have hend := unsignalled_step (v := .consumer) (x := s.rx) (r := s₁.ring) hs₁ hp₁.1.1.2
      (.refl _) (some false) fun _ => hrx ▸ .refl _
    refine lands_of_end rfl ⟨hend.1, hend.2.1, ?_, hp₁.2.2⟩
    have hs' : (s₁.half .consumer).signals = signals := by
      rw [hhalf]
      simpa [Hinted.signal] using hsignals
    change (s₁.half .consumer).signals ++ [false] = signals ++ [false]
    rw [hs']

/-- **The hints for space lose no wakeup.** Whenever the producer's last check found the ring full
    and it has started none since, the consumer is in no releasing call that answers a hint, and
    the published head leaves it a slot: unless the consumer has released without asking for a hint
    since that check started, one of its releasing calls whose take came after that has answered
    wake. And a `release_with_full` with nothing to release answers no, whatever the producer does
    meanwhile, and leaves a registration where it is. -/
theorem space_hints_suffice {start : BitVec w} {c : Config (Hinted w V) Side}
    (hrun : (system mask).Run System.always (initial start) c) :
    ((c.st.half .producer).resting = true → (c.st.half .consumer).signalling = false →
      (c.st.half .consumer).plain = (c.st.half .producer).seenPlain →
      distance c.st.tx.cursor c.st.ring.head < capacity mask →
      true ∈ (c.st.half .consumer).signals.drop (c.st.half .producer).seenSignals) ∧
    ∀ c₁ c₂, c.st.rx.head = c.st.ring.head →
      (system mask).exec c (.call .consumer .releaseWithFull) = some c₁ →
      (system mask).During System.always .consumer c₁ c₂ → c₂.pool .consumer = none →
      (c₂.st.half .consumer).signals = (c.st.half .consumer).signals ++ [false] ∧
        (c.st.ring.producerWaiting.waiting = true →
          c₂.st.ring.producerWaiting.waiting = true) := by
  have hgood := good_of_run hrun
  have hinv : Inv mask c.st := hgood.1
  refine ⟨fun hresting hdone hplain hroom => ?_, fun c₁ c₂ hnothing hcall hduring hreturned => ?_⟩
  · rcases (hinv .producer).settled hdone hresting with (h | h) | h
    · exact absurd hplain (Nat.ne_of_gt h)
    · exact h
    · exact absurd hroom (Nat.not_lt.mpr h)
  · have hcalling : (outline mask).Calling .consumer (fun _ => True) (fun s =>
        (s.half .consumer).signals = (c.st.half .consumer).signals ++ [false] ∧
          (c.st.ring.producerWaiting.waiting = true → s.ring.producerWaiting.waiting = true)) c₁ :=
      hgood.calling hcall fun hidle =>
        releaseNothing_spec _ _ c.st hinv ⟨⟨hidle, rfl⟩, hnothing, id⟩
    have hend := (hcalling.during (hduring.mono fun c l _ => by cases l <;> trivial)).2
    rw [hreturned] at hend
    exact hend

/-- A ring filled past the consumer's window: the release does not see it full, and answers by the
    registration of the push that was turned away. -/
def turnedAway : Config (Hinted 3 Nat) Side :=
  (system 1#3).after (initial 7#3) (List.flatten [System.turn .consumer .releaseWithFull 4,
    System.turn .producer (.push 10) 2, System.turn .producer .flush 2,
    System.turn .consumer .prefetch 2, System.turn .producer (.push 20) 2,
    System.turn .producer (.push 30) 6, System.turn .consumer .pop 2,
    System.turn .consumer .releaseWithFull 6])

theorem turnedAway_space_hints :
    (turnedAway.st.half .consumer).signals = [false, true] ∧
      true ∈ (turnedAway.st.half .consumer).signals.drop
        (turnedAway.st.half .producer).seenSignals := by
  have hrun : (system 1#3).Run System.always (initial 7#3) turnedAway :=
    System.run_after (by decide +kernel)
  exact ⟨by decide +kernel, (space_hints_suffice hrun).1 (by decide +kernel) (by decide +kernel)
    (by decide +kernel) (by decide +kernel)⟩

end Fanring.Yring.Hint
