import Fanring.Conc.System
import Fanring.Yring.HintStep

/-!
# What the hinted calls do

Each operation of the two endpoints, from its call to the access that ends it. The pieces that
recur are specified once, with what follows them left open: switching hints on, a registration and
the check around it, the take that ends a signalling call.
-/

set_option autoImplicit false

namespace Fanring.Yring.Hint

open Conc

variable {w : Nat} {V α β : Type} {mask : BitVec w} {v : Side}

/-- The contract of one of the two threads. -/
def contract (mask : BitVec w) (v : Side) : Contract (Hinted w V) where
  inv := Inv mask
  rely s s' := ∃ u, u ≠ v ∧ Guar mask u s s'
  guar := Guar mask v
  cond _ _ := True
  goal _ := True

theorem stable_of_other {P : Hinted w V → Prop}
    (h : ∀ s s', Waits mask v s → Guar mask v.other s s' → P s → P s') :
    (contract mask v).Stable P := by
  rintro s s' hs - ⟨u, hu, hg⟩ hp
  obtain rfl := Side.eq_other hu
  exact h s s' (hs v) hg hp

/-- The endpoint's cursors and its part of the record, which only its own thread changes. -/
structure Own (v : Side) (h : Half) (x : End w v) (s : Hinted w V) : Prop where
  half : s.half v = h
  ends : ends s v = x

theorem Own.other {h : Half} {x : End w v} {s s' : Hinted w V} (hg : Guar mask v.other s s')
    (hown : Own v h x s) : Own v h x s' := by
  have hhalf := hg.half
  have hends := hg.ends
  rw [Side.other_other] at hhalf hends
  exact ⟨hhalf.trans hown.half, hends.trans hown.ends⟩

theorem Own.stable {h : Half} {x : End w v} : (contract (V := V) mask v).Stable (Own v h x) :=
  stable_of_other fun _ _ _ hg hown => hown.other hg

theorem Own.ring {h : Half} {x : End w v} {s : Hinted w V} (hown : Own v h x s) (r : Ring w V) :
    Own v h x { s with ring := r } :=
  ⟨hown.half, (ends_ring r v).trans hown.ends⟩

theorem Idle.stable : (contract (V := V) mask v).Stable (Idle v) :=
  stable_of_other fun s s' _ hg h => by
    have hhalf := hg.half
    rw [Side.other_other] at hhalf
    unfold Idle
    rw [hhalf]
    exact h

theorem Own.idle {h : Half} {x : End w v} {s : Hinted w V} (hown : Own v h x s)
    (hh : h.signalling = false) : Idle v s := by
  unfold Idle
  rw [hown.half]
  exact hh

/-- The rest of the code, where it makes at least one more access. -/
theorem lands_of_wp {C : Contract (Hinted w V)} {g : α → Hinted w V → Hinted w V}
    {Q : Hinted w V → Prop} {p : Prog (Hinted w V) α} {s s' : Hinted w V} (hp : p.isRet = false)
    (h : C.inv s' ∧ C.guar s s') (hw : wp C (p.closing g) (fun _ => Q) s') :
    Lands C g Q p s s' := by
  cases p with
  | ret a => exact absurd hp (by simp [Prog.isRet])
  | act f k => exact ⟨h.1, h.2, hw⟩
  | loop body b k => exact ⟨h.1, h.2, hw⟩

/-- The code has come to its end, and the answer is recorded. -/
theorem lands_of_end {C : Contract (Hinted w V)} {g : α → Hinted w V → Hinted w V}
    {Q : Hinted w V → Prop} {a : α} {s s' s₁ : Hinted w V} (heq : g a s' = s₁)
    (h : C.inv s₁ ∧ C.guar s s₁ ∧ Q s₁) : Lands C g Q (.ret a) s s' := by
  subst heq
  exact h

/-! ## What a thread knows in the middle of a call -/

/-- After a check's first load found nothing: the cursor it saw is published still, unless the
    other has switched hints on. -/
def Loaded (mask : BitVec w) (v : Side) (s : Hinted w V) : Prop :=
  Excused v s ∨ (s.ring.waiter v).enabled = true ∨ Stuck mask v (ends s v) s.ring

/-- After the first half of a registration: it stands, unless it was answered. -/
def Registered (v : Side) (s : Hinted w V) : Prop :=
  Excused v s ∨ (s.ring.waiter v).waiting = true

theorem Loaded.other {s s' : Hinted w V} (hs : Waits mask v s) (hg : Guar mask v.other s s')
    (h : Loaded mask v s) : Loaded mask v s' := by
  have hends := hg.ends
  have henabled := hg.enabled_other
  rw [Side.other_other] at hends henabled
  rcases h with h | h | h
  · exact .inl (h.other hg)
  · exact .inr (.inl (henabled h))
  · rcases hg.word_own with hw | hplain | ⟨hon, -⟩
    · refine .inr (.inr ?_)
      rw [hends]
      exact h.congr hw
    · exact .inl (.of_plain hs hg hplain)
    · rw [Side.other_other] at hon
      exact .inr (.inl (henabled hon))

theorem Registered.other {s s' : Hinted w V} (hs : Waits mask v s)
    (hg : Guar mask v.other s s') (h : Registered v s) : Registered v s' := by
  have hwaiting := hg.waiting_other
  rw [Side.other_other] at hwaiting
  rcases h with h | h
  · exact .inl (h.other hg)
  · rcases hwaiting h with h | h
    · exact .inr h
    · exact .inl (.of_signal hs hg h)

theorem enabled_other {s s' : Hinted w V} (hg : Guar mask v.other s s')
    (h : (s.ring.waiter v).enabled = true) : (s'.ring.waiter v).enabled = true := by
  have henabled := hg.enabled_other
  rw [Side.other_other] at henabled
  exact henabled h

/-! ## Switching hints on and taking a registration -/

/-- In the middle of a signalling call that has not published yet. -/
def Signals (mask : BitVec w) (v : Side) (h : Half) (x : End w v) (s : Hinted w V) : Prop :=
  Own v h x s ∧ Settled mask v.other s

theorem Signals.stable {h : Half} {x : End w v} :
    (contract (V := V) mask v).Stable (Signals mask v h x) :=
  stable_of_other fun _ _ _ hg hp => ⟨hp.1.other hg, hg.settled hp.2⟩

theorem Signals.ring {h : Half} {x : End w v} {s : Hinted w V} (hp : Signals mask v h x s)
    {r : Ring w V} (hword : word v r = word v s.ring) :
    Signals mask v h x { s with ring := r } := by
  refine ⟨hp.1.ring r, fun hrest => ?_⟩
  rw [ends_ring]
  refine (hp.2 hrest).imp_right (Stuck.congr ?_)
  rwa [Side.other_other]

/-- The other's hints are switched on. -/
def Enabled (mask : BitVec w) (v : Side) (h : Half) (x : End w v) (s : Hinted w V) : Prop :=
  Signals mask v h x s ∧ (s.ring.waiter v.other).enabled = true

theorem Enabled.stable {h : Half} {x : End w v} :
    (contract (V := V) mask v).Stable (Enabled mask v h x) := by
  refine stable_of_other fun s s' _ hg hp => ⟨⟨hp.1.1.other hg, hg.settled hp.1.2⟩, ?_⟩
  rw [hg.enabled_own]
  exact hp.2

theorem enable_spec (h : Half) (x : End w v) {R : Hinted w V → Prop}
    (hother : ∀ s s', Guar mask v.other s s' → R s → R s')
    (hring : ∀ s r, R s → (∀ u, word u r = word u s.ring) →
      (r.waiter v.other).waiting = (s.ring.waiter v.other).waiting → R { s with ring := r }) :
    Triple (contract (V := V) mask v) (fun s => Signals mask v h x s ∧ R s)
      (Waiter.enable Hinted.lens v.other) fun _ s => Enabled mask v h x s ∧ R s := by
  have hstable : ∀ p : Prop, (contract mask v).Stable fun s : Hinted w V =>
      (Signals mask v h x s ∧ R s) ∧ (p → (s.ring.waiter v.other).enabled = true) := fun p =>
    stable_of_other fun s s' _ hg hp =>
      ⟨⟨⟨hp.1.1.1.other hg, hg.settled hp.1.1.2⟩, hother s s' hg hp.1.2⟩, by
        rw [hg.enabled_own]
        exact hp.2⟩
  have hdone : (contract mask v).Stable fun s : Hinted w V => Enabled mask v h x s ∧ R s :=
    Enabled.stable.and (stable_of_other fun s s' _ hg hp => hother s s' hg hp)
  refine Triple.bind (Q := fun on s => (Signals mask v h x s ∧ R s) ∧
      (on = true → (s.ring.waiter v.other).enabled = true))
    (Triple.atomic (Signals.stable.and (stable_of_other fun s s' _ hg hp => hother s s' hg hp))
      (fun on => hstable _) fun s _ hs hp _ => ?_) fun on => ?_
  · have hq : Quiet s.ring (s.ring.setWaiter (s.ring.waiter v.other) v.other) := by
      cases v <;> exact ⟨rfl, rfl, rfl, rfl⟩
    obtain ⟨hi, hg⟩ := quiet_step v hs hq
    refine ⟨hi, hg, ⟨hp.1.ring (hq.word v), hring s _ hp.2 hq.word ?_⟩, fun h => ?_⟩
    · exact congrArg Waiter.waiting (hq.waiter _)
    · exact (congrArg Waiter.enabled (hq.waiter _)).trans h
  · cases on with
    | true => exact Triple.ret hdone fun s _ hp => ⟨⟨hp.1.1, hp.2 rfl⟩, hp.1.2⟩
    | false =>
      refine Triple.atomic (hstable _) (fun _ => hdone) fun s _ hs hp _ => ?_
      obtain ⟨hi, hg⟩ := enable_step v hs
      refine ⟨hi, hg, ⟨hp.1.1.ring (word_setWaiter ..), ?_⟩, hring s _ hp.1.2 ?_ ?_⟩
      · exact congrArg Waiter.enabled (waiter_setWaiter_self ..)
      · exact fun u => word_setWaiter ..
      · have := waiter_setWaiter_self (v := v.other) s.ring
          { s.ring.waiter v.other with enabled := true }
        exact (congrArg Waiter.waiting this :)

theorem enabled_spec (h : Half) (x : End w v) :
    Triple (contract (V := V) mask v) (Signals mask v h x) (Waiter.enable Hinted.lens v.other)
      fun _ => Enabled mask v h x :=
  (enable_spec (R := fun _ => True) h x (fun _ _ _ _ => trivial) fun _ _ _ _ _ => trivial).conseq
    (fun _ _ hp => ⟨hp, trivial⟩) fun _ _ _ hp => hp.1

/-- **The take ends a signalling call with its answer.** -/
theorem take_closing {h : Half} {x x' : End w v}
    (hkeeps : h.resting = true → Keeps (V := V) mask v x x') {F : Bool → α}
    {g : α → Hinted w V → Hinted w V}
    (hg : ∀ b s, g (F b) s = (setEnds s v x').signalled v (some b)) (observed : Bool) :
    Triple (contract mask v) (Own v h x)
      (((Waiter.take Hinted.lens v.other observed).bind fun b => .ret (F b)).closing g)
      fun _ => Idle v := by
  have hclear : Triple (contract mask v) (Own v h x)
      (((Waiter.clear Hinted.lens v.other).bind fun b => .ret (F b)).closing g)
      fun _ => Idle v := by
    refine Triple.closing_atomic Own.stable Idle.stable fun s _ hs hown _ => ?_
    have := take_step (x := x') hs true nofun fun hr => by
      rw [hown.half] at hr
      exact hown.ends ▸ hkeeps hr
    exact lands_of_end (hg true _) this
  unfold Waiter.take
  cases observed with
  | true => exact hclear
  | false =>
    rw [if_neg Bool.false_ne_true, Prog.bind_eq, Prog.bind_assoc]
    refine Triple.closing_atomic Own.stable Idle.stable fun s _ hs hown _ => ?_
    have hq : Quiet s.ring (s.ring.setWaiter (s.ring.waiter v.other) v.other) := by
      cases v <;> exact ⟨rfl, rfl, rfl, rfl⟩
    obtain ⟨hi, hgu⟩ := quiet_step v hs hq
    -- the load decides whether the take may answer no
    change Lands _ _ _ ((if (s.ring.waiter v.other).armed then Waiter.swap Hinted.lens v.other
      else Waiter.clear Hinted.lens v.other).bind fun b => .ret (F b)) _ _
    split
    · next harmed =>
      refine lands_of_wp rfl ⟨hi, hgu⟩ ?_
      refine Triple.closing_atomic (P := fun s => Own v h x s ∧
          (s.ring.waiter v.other).armed = true) ?_ Idle.stable ?_ _ hi ⟨hown.ring _, ?_⟩
      · exact stable_of_other fun s s' _ hg hp => ⟨hp.1.other hg, hg.armed_own hp.2⟩
      · intro s _ hs hp _
        have := take_step (x := x') hs (s.ring.waiter v.other).waiting
          (fun h => ⟨hp.2, h⟩) fun hr => by
            rw [hp.1.half] at hr
            exact hp.1.ends ▸ hkeeps hr
        exact lands_of_end (hg _ _) this
      · change ((s.ring.setWaiter (s.ring.waiter v.other) v.other).waiter v.other).armed = true
        rw [hq.waiter]
        exact harmed
    · exact lands_of_wp rfl ⟨hi, hgu⟩ (hclear _ hi (hown.ring _))

/-! ## Checks -/

/-- What a check that reports nothing rests on: the cursor it saw is published still, and its
    registration stands or hints were not acknowledged; unless it was excused meanwhile. -/
structure Rests (mask : BitVec w) (v : Side) (x : End w v) (s : Hinted w V) : Prop where
  stuck : Excused v s ∨ Stuck mask v x s.ring
  alert : Excused v s ∨ (s.ring.waiter v).armed = false ∨ (s.ring.waiter v).waiting = true

theorem register_bind (k : Bool → Prog (Hinted w V) β) :
    (Waiter.register Hinted.lens v).bind k =
      (Waiter.access Hinted.lens v fun x => (x.enabled, x)).bind fun on =>
        if on then
          (Waiter.access Hinted.lens v fun x => ((), { x with waiting := true })).bind fun _ =>
            (Waiter.access Hinted.lens v fun x => ((), { x with armed := true })).bind fun _ =>
              k true
        else k false := by
  unfold Waiter.register
  rw [Prog.bind_eq, Prog.bind_assoc]
  congr 1
  funext on
  cases on <;> rfl

/-- What a thread keeps to itself during a check: the other's steps leave it, and so do the accesses
    of the check. -/
structure Frame (mask : BitVec w) (v : Side) (h : Half) (x : End w v) (P : Hinted w V → Prop) :
    Prop where
  own : ∀ s, P s → Own v h x s
  other : ∀ s s', Guar mask v.other s s' → P s → P s'
  ring : ∀ s r, P s → word v r = word v s.ring → r.waiter v.other = s.ring.waiter v.other →
    P { s with ring := r }

theorem Own.frame (h : Half) (x : End w v) : Frame (V := V) mask v h x (Own v h x) :=
  ⟨fun _ h => h, fun _ _ hg h => h.other hg, fun _ r h _ _ => h.ring r⟩

theorem Enabled.frame (h : Half) (x : End w v) :
    Frame (V := V) mask v h x (Enabled mask v h x) := by
  refine ⟨fun _ h => h.1.1, fun s s' hg hp => ?_, fun s r hp hword hwaiter => ?_⟩
  · refine ⟨⟨hp.1.1.other hg, hg.settled hp.1.2⟩, ?_⟩
    rw [hg.enabled_own]
    exact hp.2
  · refine ⟨hp.1.ring hword, ?_⟩
    change (r.waiter v.other).enabled = true
    rw [hwaiter]
    exact hp.2

theorem Frame.stable {h : Half} {x : End w v} {P : Hinted w V → Prop}
    (F : Frame mask v h x P) : (contract mask v).Stable P :=
  stable_of_other fun s s' _ hg hp => F.other s s' hg hp

theorem Frame.quiet {h : Half} {x : End w v} {P : Hinted w V → Prop} (F : Frame mask v h x P)
    {s : Hinted w V} (hp : P s) {r : Ring w V} (hq : Quiet s.ring r) : P { s with ring := r } :=
  F.ring s r hp (hq.word v) (hq.waiter _)

/-- **A registration.** With the hints switched off it ends the check; otherwise a second look
    follows, with the registration made. -/
theorem register_closing {h : Half} {x : End w v} {P : Hinted w V → Prop}
    (F : Frame mask v h x P) (hh : h.resting = false)
    {k : Bool → Prog (Hinted w V) β} {g : β → Hinted w V → Hinted w V}
    (hoff : ∀ s r, Inv mask s → P s → Quiet s.ring r → Rests mask v x s →
      Lands (contract mask v) g (Idle v) (k false) s { s with ring := r })
    (hon : Triple (contract mask v) (fun s => P s ∧ Registered v s)
      ((k true).closing g) fun _ => Idle v)
    (htrue : (k true).isRet = false) :
    Triple (contract mask v) (fun s => P s ∧ Loaded mask v s)
      (((Waiter.register Hinted.lens v).bind k).closing g) fun _ => Idle v := by
  rw [register_bind]
  refine Triple.closing_atomic
    (stable_of_other fun s s' hs hg hp => ⟨F.other s s' hg hp.1, hp.2.other hs hg⟩) Idle.stable
    fun s _ hs hp _ => ?_
  obtain ⟨hp, hloaded⟩ := hp
  have hq : Quiet s.ring (s.ring.setWaiter (s.ring.waiter v) v) := by
    cases v <;> exact ⟨rfl, rfl, rfl, rfl⟩
  obtain ⟨hi, hgu⟩ := quiet_step v hs hq
  change Lands _ _ _ (if (s.ring.waiter v).enabled then _ else _) s _
  split
  · next henabled =>
    refine lands_of_wp rfl ⟨hi, hgu⟩ ?_
    -- the first half of the registration, then the acknowledgement
    refine Triple.closing_atomic (P := fun s => P s ∧
        (s.ring.waiter v).enabled = true) ?_ Idle.stable ?_ _ hi ⟨F.quiet hp hq, ?_⟩
    · exact stable_of_other fun s s' _ hg hp => ⟨F.other s s' hg hp.1, enabled_other hg hp.2⟩
    · intro s _ hs hp _
      refine lands_of_wp rfl (waiting_step v hs) ?_
      refine Triple.closing_atomic (P := fun s => (P s ∧ Registered v s) ∧
          (s.ring.waiter v).enabled = true) ?_ Idle.stable ?_ _ (waiting_step v hs).1
        ⟨⟨F.ring _ _ hp.1 (word_setWaiter ..) (waiter_setWaiter_other ..), .inr ?_⟩, ?_⟩
      · exact stable_of_other fun s s' hs hg hp =>
          ⟨⟨F.other s s' hg hp.1.1, hp.1.2.other hs hg⟩, enabled_other hg hp.2⟩
      · intro s _ hs hp _
        have hstep := armed_step hs (by rw [(F.own s hp.1.1).half]; exact hh) hp.2
        refine lands_of_wp htrue hstep (hon _ hstep.1
          ⟨F.ring _ _ hp.1.1 (word_setWaiter ..) (waiter_setWaiter_other ..),
            hp.1.2.imp_right fun hr => ?_⟩)
        change ((s.ring.setWaiter _ v).waiter v).waiting = true
        rw [waiter_setWaiter_self]
        exact hr
      · exact congrArg Waiter.waiting (waiter_setWaiter_self ..)
      · change ((s.ring.setWaiter _ v).waiter v).enabled = true
        rw [waiter_setWaiter_self]
        exact hp.2
    · exact (congrArg Waiter.enabled (hq.waiter v)).trans henabled
  · next hoff' =>
    refine hoff s _ hs hp hq ⟨?_, .inr (.inl ?_)⟩
    · rcases hloaded with h | h | h
      · exact .inl h
      · exact absurd h hoff'
      · exact .inr ((F.own s hp).ends ▸ h)
    · by_contra harmed
      exact hoff' ((hs v).armed (by simpa using harmed))

/-- The second look of a check: what it sees, and that nothing happened since it was registered. -/
theorem Registered.rests {s : Hinted w V} {x : End w v} (h : Registered v s)
    (hstuck : Stuck mask v x s.ring) : Rests mask v x s :=
  ⟨.inr hstuck, h.imp_right .inr⟩

/-! ### The consumer's -/

theorem quiet_log (r : Ring w V) (e : Event V) : Quiet r (r.log e) := ⟨rfl, rfl, rfl, rfl⟩

theorem prefetch_bind (c : Consumer w) (k : Nat × Consumer w → Prog (Hinted w V) β) :
    (c.prefetch Hinted.lens).bind k =
      (Hinted.lens.access Ring.loadTail).bind fun tail =>
        if c.head = tail then
          (Waiter.register Hinted.lens .consumer).bind fun on =>
            if on then
              (Hinted.lens.access Ring.loadTail).bind fun again =>
                k (distance again tail, { c with cachedTail := again })
            else k (0, { c with cachedTail := tail })
        else k (distance tail c.cachedTail, { c with cachedTail := tail }) := by
  unfold Consumer.prefetch
  rw [Prog.bind_eq, Prog.bind_assoc]
  congr 1
  funext tail
  split
  · rw [Prog.bind_eq, Prog.bind_assoc]
    congr 1
    funext on
    cases on <;> rfl
  · rfl

/-- **A prefetch**, with what follows it: it comes to its end with the window used up and a reason
    to rest, or with values in the window. -/
theorem prefetch_closing {h : Half} {c : Consumer w} {P : Hinted w V → Prop}
    (F : Frame mask .consumer h c P) (hh : h.resting = false)
    {k : Nat × Consumer w → Prog (Hinted w V) β} {g : β → Hinted w V → Hinted w V}
    (hempty : ∀ n c' s r, Inv mask s → P s → Quiet s.ring r →
      c'.head = c.head → c'.cachedTail = c.head → Rests mask .consumer c s →
      Lands (contract mask .consumer) g (Idle .consumer) (k (n, c')) s { s with ring := r })
    (hfound : ∀ n c' s r, Inv mask s → P s → Quiet s.ring r →
      c'.head = c.head → c'.cachedTail ≠ c.head →
      Lands (contract mask .consumer) g (Idle .consumer) (k (n, c')) s { s with ring := r }) :
    Triple (contract mask .consumer) P
      (((c.prefetch Hinted.lens).bind k).closing g) fun _ => Idle .consumer := by
  rw [prefetch_bind]
  refine Triple.closing_atomic F.stable Idle.stable fun s _ hs hp _ => ?_
  have hq := quiet_log s.ring (.loadTail : Event V)
  change Lands _ _ _ (if c.head = s.ring.tail then _ else _) s
    { s with ring := s.ring.log .loadTail }
  split
  · next hnone =>
    have hstep := quiet_step .consumer hs hq
    refine lands_of_wp (by rw [register_bind]; rfl) hstep ?_
    refine register_closing F hh (fun s₁ r₁ hs₁ hp₁ hq₁ hrests => ?_) ?_ rfl _ hstep.1
      ⟨F.quiet hp hq, .inr (.inr ?_)⟩
    · exact hempty _ _ s₁ r₁ hs₁ hp₁ hq₁ rfl hnone.symm hrests
    · refine Triple.closing_atomic
        (stable_of_other fun s s' hs hg hp => ⟨F.other s s' hg hp.1, hp.2.other hs hg⟩) Idle.stable
        fun s₁ _ hs₁ hp _ => ?_
      have hq₁ := quiet_log s₁.ring (.loadTail : Event V)
      by_cases htail : s₁.ring.tail = c.head
      · exact hempty _ _ s₁ _ hs₁ hp.1 hq₁ rfl htail (hp.2.rests htail)
      · exact hfound _ _ s₁ _ hs₁ hp.1 hq₁ rfl htail
    · have hc : Hint.ends s .consumer = c := (F.own s hp).ends
      change s.ring.tail = Consumer.head (Hint.ends s .consumer)
      rw [hc, hnone]
  · next hsome => exact hfound _ _ s _ hs hp hq rfl (Ne.symm hsome)

theorem isEmpty_bind (c : Consumer w) (k : Bool → Prog (Hinted w V) β) :
    (c.isEmpty Hinted.lens).bind k =
      if c.head = c.cachedTail then
        (Hinted.lens.access fun r => (r.tail == c.head, r)).bind fun empty =>
          if empty then
            (Waiter.register Hinted.lens .consumer).bind fun on =>
              if on then (Hinted.lens.access fun r => (r.tail == c.head, r)).bind k else k true
          else k false
      else k false := by
  unfold Consumer.isEmpty Ring.consumerIsEmpty
  rw [Prog.bind_eq, Prog.bind_assoc]
  split
  · congr 1
    funext empty
    cases empty
    · rfl
    · change ((Waiter.register _ _).bind _).bind k = _
      rw [Prog.bind_assoc]
      congr 1
      funext on
      cases on <;> rfl
  · rfl

/-- **An emptiness check**, with what follows it. -/
theorem isEmpty_closing {h : Half} {c : Consumer w} (hh : h.resting = false)
    {k : Bool → Prog (Hinted w V) β} {g : β → Hinted w V → Hinted w V}
    (hempty : ∀ s r, c.head = c.cachedTail → Inv mask s → Own .consumer h c s → Quiet s.ring r →
      Rests mask .consumer c s →
      Lands (contract mask .consumer) g (Idle .consumer) (k true) s { s with ring := r })
    (hfound : ∀ s r, Inv mask s → Own .consumer h c s → Quiet s.ring r →
      Lands (contract mask .consumer) g (Idle .consumer) (k false) s { s with ring := r })
    (hc : c.head = c.cachedTail) :
    Triple (contract mask .consumer) (Own .consumer h c)
      (((c.isEmpty Hinted.lens).bind k).closing g) fun _ => Idle .consumer := by
  rw [isEmpty_bind, if_pos hc]
  refine Triple.closing_atomic Own.stable Idle.stable fun s _ hs hown _ => ?_
  change Lands _ _ _ (if s.ring.tail == c.head then _ else _) s s
  have hrefl : ∀ s : Hinted w V, Quiet s.ring s.ring := fun s => .refl _
  split
  · next htail =>
    refine lands_of_wp (by rw [register_bind]; rfl) ⟨hs, .refl mask _ s⟩ ?_
    refine register_closing (Own.frame h _) hh (fun s₁ r₁ hs₁ hown₁ hq₁ hrests => ?_) ?_ rfl _ hs
      ⟨hown, .inr (.inr ?_)⟩
    · exact hempty s₁ r₁ hc hs₁ hown₁ hq₁ hrests
    · refine Triple.closing_atomic
        (stable_of_other fun s s' hs hg hp => ⟨hp.1.other hg, hp.2.other hs hg⟩) Idle.stable
        fun s₁ _ hs₁ hp _ => ?_
      change Lands _ _ _ (k (s₁.ring.tail == c.head)) s₁ s₁
      by_cases htail : s₁.ring.tail = c.head
      · rw [beq_iff_eq.mpr htail]
        exact hempty s₁ _ hc hs₁ hp.1 (hrefl s₁) (hp.2.rests htail)
      · rw [beq_eq_false_iff_ne.mpr htail]
        exact hfound s₁ _ hs₁ hp.1 (hrefl s₁)
    · have hc' : Hint.ends s .consumer = c := hown.ends
      change s.ring.tail = Consumer.head (Hint.ends s .consumer)
      rw [hc']
      exact beq_iff_eq.mp htail
  · exact hfound s _ hs hown (hrefl s)

/-! ### The producer's -/

theorem refresh_bind (pushing : Option V) (p : Producer w)
    (k : Producer w → Prog (Hinted w V) β) :
    (p.refresh Hinted.lens mask pushing).bind k =
      if p.full mask then
        (Hinted.lens.access (Ring.loadHead pushing)).bind fun head =>
          k { p with cachedHead := head }
      else k p := by
  unfold Producer.refresh
  split <;> rfl

theorem ringPush_bind (a : V) (p : Producer w) (k : Bool × Producer w → Prog (Hinted w V) β) :
    (Ring.push Hinted.lens mask a p).bind k =
      (p.refresh Hinted.lens mask (some a)).bind fun p =>
        if p.full mask then k (false, p)
        else
          (Hinted.lens.access (Ring.write (index mask p.cursor) a)).bind fun _ =>
            k (true, { p with cursor := p.cursor + 1 }) := by
  unfold Ring.push
  rw [Prog.bind_eq, Prog.bind_assoc]
  congr 1
  funext p
  split <;> rfl

theorem push_bind (a : V) (p : Producer w)
    (k : Except V Unit × Producer w → Prog (Hinted w V) β) :
    (p.push Hinted.lens mask a).bind k =
      (Ring.push Hinted.lens mask a p).bind fun r =>
        if r.1 then k (.ok (), r.2)
        else
          (Waiter.register Hinted.lens .producer).bind fun on =>
            if on then
              (Ring.push Hinted.lens mask a r.2).bind fun r =>
                if r.1 then k (.ok (), r.2) else k (.error a, r.2)
            else k (.error a, r.2) := by
  unfold Producer.push
  rw [Prog.bind_eq, Prog.bind_assoc]
  congr 1
  funext r
  obtain ⟨ok, p⟩ := r
  cases ok
  · change ((Waiter.register _ _).bind _).bind k = _
    rw [Prog.bind_assoc]
    congr 1
    funext on
    cases on
    · rfl
    · change ((Ring.push _ _ _ _).bind _).bind k = _
      rw [Prog.bind_assoc]
      congr 1
      funext r
      obtain ⟨ok, p⟩ := r
      cases ok <;> rfl
  · rfl

/-- The write that a push ends with, or goes on from. -/
theorem write_closing {h : Half} {p : Producer w} (i : Nat) (a : V) {P : Hinted w V → Prop}
    (hP : (contract mask .producer).Stable P) (hown : ∀ s, P s → Own .producer h p s)
    {k : Unit → Prog (Hinted w V) β} {g : β → Hinted w V → Hinted w V}
    (hok : ∀ s r, Inv mask s → Own .producer h p s → Quiet s.ring r →
      Lands (contract mask .producer) g (Idle .producer) (k ()) s { s with ring := r }) :
    Triple (contract mask .producer) P
      (((Hinted.lens.access (Ring.write i a)).bind k).closing g) fun _ => Idle .producer :=
  Triple.closing_atomic hP Idle.stable fun s _ hs hp _ =>
    hok s _ hs (hown s hp) ⟨rfl, rfl, rfl, rfl⟩

/-- A copy of `head` that says full, just loaded. -/
theorem stuck_of_full {p : Producer w} {r : Ring w V}
    (h : (⟨p.cursor, r.head⟩ : Producer w).full mask = true) : Stuck mask .producer p r :=
  of_decide_eq_true (p := capacity mask ≤ distance p.cursor r.head) h

/-- A reload of `head`, with what follows it. -/
theorem refresh_closing {p : Producer w} (hp : p.full mask = true) (pushing : Option V)
    {P : Hinted w V → Prop} (hP : (contract mask .producer).Stable P)
    {k : Producer w → Prog (Hinted w V) β} {g : β → Hinted w V → Hinted w V}
    (h : ∀ s r, Inv mask s → P s → Quiet s.ring r →
      Lands (contract mask .producer) g (Idle .producer) (k ⟨p.cursor, s.ring.head⟩) s
        { s with ring := r }) :
    Triple (contract mask .producer) P
      (((p.refresh Hinted.lens mask pushing).bind k).closing g) fun _ => Idle .producer := by
  rw [refresh_bind, if_pos hp]
  exact Triple.closing_atomic hP Idle.stable fun s _ hs hp _ => h s _ hs hp (quiet_log ..)

/-- A push by a producer whose copy of `head` says full. -/
theorem loaded_closing {h : Half} {x p : Producer w} (a : V) {P : Hinted w V → Prop}
    (hP : (contract mask .producer).Stable P) (hown : ∀ s, P s → Own .producer h x s)
    (hp : p.full mask = true) {k : Bool × Producer w → Prog (Hinted w V) β}
    {g : β → Hinted w V → Hinted w V}
    (hfull : ∀ s r, Inv mask s → P s → Quiet s.ring r →
      capacity mask ≤ distance p.cursor s.ring.head →
      Lands (contract mask .producer) g (Idle .producer) (k (false, ⟨p.cursor, s.ring.head⟩)) s
        { s with ring := r })
    (hok : ∀ p' s r, Inv mask s → Own .producer h x s → Quiet s.ring r →
      Lands (contract mask .producer) g (Idle .producer) (k (true, p')) s { s with ring := r }) :
    Triple (contract mask .producer) P (((Ring.push Hinted.lens mask a p).bind k).closing g)
      fun _ => Idle .producer := by
  rw [ringPush_bind]
  refine refresh_closing hp _ hP fun s r hs hp hq => ?_
  have hstep := quiet_step .producer hs hq
  dsimp only
  split
  · next hnone => exact hfull s _ hs hp hq (of_decide_eq_true hnone)
  · refine lands_of_wp rfl hstep ?_
    exact write_closing _ a Own.stable (fun _ h => h) (fun s r => hok _ s r) _ hstep.1
      ((hown s hp).ring _)

/-- **A push**, with what follows it: it found no slot and has a reason to rest, or it wrote. -/
theorem push_closing {h : Half} {p : Producer w} (hh : h.resting = false) (a : V)
    {k : Except V Unit × Producer w → Prog (Hinted w V) β} {g : β → Hinted w V → Hinted w V}
    (hfull : ∀ p' s r, Inv mask s → Own .producer h p s → Quiet s.ring r →
      p'.cursor = p.cursor → Rests mask .producer p s →
      Lands (contract mask .producer) g (Idle .producer) (k (.error a, p')) s { s with ring := r })
    (hok : ∀ p' s r, Inv mask s → Own .producer h p s → Quiet s.ring r →
      Lands (contract mask .producer) g (Idle .producer) (k (.ok (), p')) s { s with ring := r }) :
    Triple (contract mask .producer) (Own .producer h p)
      (((p.push Hinted.lens mask a).bind k).closing g) fun _ => Idle .producer := by
  rw [push_bind]
  by_cases hp : p.full mask = true
  · refine loaded_closing a Own.stable (fun _ h => h) hp (fun s r hs hown hq hnone => ?_) hok
    have hstep := quiet_step .producer hs hq
    have hfull' : (⟨p.cursor, s.ring.head⟩ : Producer w).full mask = true := decide_eq_true hnone
    refine lands_of_wp (?_ : ((Waiter.register _ _).bind _).isRet = false) hstep ?_
    · rw [register_bind]
      rfl
    refine register_closing (Own.frame h _) hh
      (fun s₁ r₁ hs₁ hown₁ hq₁ hrests => ?_) ?_ ?_ _ hstep.1
      ⟨hown.ring _, .inr (.inr ?_)⟩
    · exact hfull _ s₁ r₁ hs₁ hown₁ hq₁ rfl hrests
    · -- the second look, with the registration made
      refine loaded_closing a
        (stable_of_other fun s s' hs hg hp => ⟨hp.1.other hg, hp.2.other hs hg⟩)
        (fun _ h => h.1) hfull' (fun s₁ r₁ hs₁ hp₁ hq₁ hnone₁ => ?_) fun p' s₁ r₁ => hok p' s₁ r₁
      exact hfull _ s₁ r₁ hs₁ hp₁.1 hq₁ rfl (hp₁.2.rests hnone₁)
    · rw [if_pos rfl, ringPush_bind, refresh_bind, if_pos hfull']
      rfl
    · refine Stuck.congr (hq.word _) ?_
      rw [ends_ring, hown.ends]
      exact hnone
  · rw [ringPush_bind, refresh_bind, if_neg hp, if_neg hp]
    exact write_closing _ a Own.stable (fun _ h => h) fun s r => hok _ s r

/-- **A fullness check**, with what follows it. -/
theorem isFull_closing {h : Half} {p : Producer w} (hh : h.resting = false)
    {g : Bool × Producer w → Hinted w V → Hinted w V}
    (hfull : ∀ p' s r, Inv mask s → Own .producer h p s → Quiet s.ring r →
      p'.cursor = p.cursor → Rests mask .producer p s →
      Lands (contract mask .producer) g (Idle .producer) (.ret (true, p')) s { s with ring := r })
    (hfree : ∀ p' s r, Inv mask s → Own .producer h p s → Quiet s.ring r →
      Lands (contract mask .producer) g (Idle .producer) (.ret (false, p')) s
        { s with ring := r })
    (hp : p.full mask = true) :
    Triple (contract mask .producer) (Own .producer h p)
      ((p.isFull Hinted.lens mask).closing g) fun _ => Idle .producer := by
  unfold Producer.isFull
  refine refresh_closing hp _ Own.stable fun s r hs hown hq => ?_
  have hstep := quiet_step .producer hs hq
  split
  · next hnone =>
    refine lands_of_wp (?_ : ((Waiter.register _ _).bind _).isRet = false) hstep ?_
    · rw [register_bind]
      rfl
    refine register_closing (Own.frame h _) hh
      (fun s₁ r₁ hs₁ hown₁ hq₁ hrests => ?_) ?_ ?_ _ hstep.1
      ⟨hown.ring _, .inr (.inr ?_)⟩
    · exact hfull _ s₁ r₁ hs₁ hown₁ hq₁ rfl hrests
    · refine refresh_closing hnone _
        (stable_of_other fun s s' hs hg hp => ⟨hp.1.other hg, hp.2.other hs hg⟩)
        fun s₁ r₁ hs₁ hp₁ hq₁ => ?_
      dsimp only
      cases hfull₁ : (⟨p.cursor, s₁.ring.head⟩ : Producer w).full mask with
      | true =>
        exact hfull _ s₁ _ hs₁ hp₁.1 hq₁ rfl (hp₁.2.rests (stuck_of_full hfull₁))
      | false => exact hfree _ s₁ _ hs₁ hp₁.1 hq₁
    · rw [if_pos rfl, Prog.bind_eq, refresh_bind, if_pos hnone]
      rfl
    · refine Stuck.congr (hq.word _) ?_
      rw [ends_ring, hown.ends]
      exact stuck_of_full hnone
  · exact hfree _ s _ hs hown hq

end Fanring.Yring.Hint
