import Fanring.Yring.Async
import Fanring.Yring.ConsumerSpec

/-!
# No wake is lost

An endpoint whose last poll was pending is *watched* (`Watched`): its waker has been woken, or it
is still registered and whatever the other endpoint did that the poll had not seen, the other
endpoint is on its way to wake it. The poll builds this up access by access (the registration, for
the producer the flag, then each thing it looks at again) and every access of the other endpoint
keeps it, so it holds at every later state. When the other endpoint is between its operations it is
on its way to nothing, which leaves the waker woken.
-/

set_option autoImplicit false

namespace Fanring.Yring

open Conc Cursor

variable {w : Nat} {V : Type}

theorem SameFlags.dropped {r r' : Ring w V} (h : SameFlags r r') (u : Side) :
    r'.dropped u = r.dropped u := by
  cases u with
  | producer => exact h.producerDropped
  | consumer => exact h.consumerDropped

namespace Async

/-! ## The invariant -/

/-- How many values the other endpoint has published for this one. -/
def offered (y : Tally V) : Side → Nat
  | .producer => y.released.length
  | .consumer => y.flushed.length

/-- The producer is woken only through its flag. -/
def Flagged (s : Async w V) : Side → Prop
  | .producer => s.ring.producerWaiting.waiting = true
  | .consumer => True

/-- The waker is registered, or has been taken and woken. -/
def Alert (u : Side) (s : Async w V) : Prop :=
  (s.waker u).woken = true ∨ (s.waker u).registered = true

/-- The endpoint has been woken or will be for everything the other does that it has not seen: of
    the drop if `b` holds, of the values past the first `n`. -/
def Watched (u : Side) (b : Prop) (n : Option Nat) (s : Async w V) : Prop :=
  (s.waker u).woken = true ∨ ((s.waker u).registered = true ∧
    (s.phase u.other = .waking ∨
      (Flagged s u ∧ (b → s.ring.dropped u.other = false) ∧
        ∀ k ∈ n, offered (tally s.ring.trace) u = k ∨ s.phase u.other = .stored)))

/-- The values the endpoint's calls say they have moved. -/
def answered (s : Async w V) : Side → List V
  | .producer => s.sent
  | .consumer => s.returned

structure Inv (start mask : BitVec w) (s : Async w V) : Prop where
  ok : s.ring.Ok start mask
  live : (tally s.ring.trace).destroyed = []
  watched : ∀ u n, s.pending u = some n → Watched u True (some n) s
  flushed : s.ring.producerDropped = true →
    (tally s.ring.trace).flushed = (tally s.ring.trace).accepted
  answered : ∀ u, s.answered u <+: (tally s.ring.trace).moved u
  ended : s.ended = true → s.ring.producerDropped = true ∧
    (tally s.ring.trace).popped = (tally s.ring.trace).accepted ∧
    s.returned = (tally s.ring.trace).popped

/-- What an access of the other endpoint leaves to the endpoint `u`. -/
structure Leaves (u : Side) (s s' : Async w V) : Prop where
  trace : ∃ es, s'.ring.trace = s.ring.trace ++ es ∧ By u.other es ∧
    (s.ring.dropped u.other = true → es = [])
  gone : s.ring.dropped u.other = true → s'.ring.dropped u.other = true
  dropped : s'.ring.dropped u = s.ring.dropped u
  pending : s'.pending u = s.pending u
  phase : s'.phase u = s.phase u
  tx : u = .producer → s'.tx = s.tx ∧ s'.sent = s.sent
  rx : u = .consumer → s'.rx = s.rx ∧ s'.returned = s.returned ∧ s'.ended = s.ended
  alert : Alert u s → Alert u s'
  watched : ∀ b n, Watched u b n s → Watched u b n s'

/-- What an access of the endpoint does. -/
def Guar (u : Side) : Async w V → Async w V → Prop := Leaves u.other

def contract (start mask : BitVec w) (u : Side) : Contract (Async w V) where
  inv := Inv start mask
  rely s s' := ∃ v, v ≠ u ∧ Guar v s s'
  guar := Guar u
  cond _ _ := True
  goal _ := True

theorem Leaves.refl (u : Side) (s : Async w V) : Leaves u s s where
  trace := ⟨[], by simp, By.nil _, fun _ => rfl⟩
  gone := id
  dropped := rfl
  pending := rfl
  phase := rfl
  tx _ := ⟨rfl, rfl⟩
  rx _ := ⟨rfl, rfl, rfl⟩
  alert := id
  watched _ _ := id

theorem Leaves.answered {u : Side} {s s' : Async w V} (h : Leaves u s s') :
    s'.answered u = s.answered u := by
  cases u with
  | producer => exact (h.tx rfl).2
  | consumer => exact (h.rx rfl).2.1

theorem leaves_of_rely {start mask : BitVec w} {u : Side} {s s' : Async w V}
    (h : (contract start mask u).rely s s') : Leaves u s s' := by
  obtain ⟨v, hv, hg⟩ := h
  obtain rfl := Side.eq_other hv
  simpa only [Guar, Side.other_other] using hg

/-! ## What a task knows of its endpoint -/

/-- The part of the state an operation keeps account of. -/
structure Mode (V : Type) where
  dropped : Bool
  phase : Phase
  /-- The operation is a poll. -/
  polling : Prop
  /-- What the calls before it answered. -/
  answered : List V
  /-- The producer is known to be dropped, after these values. -/
  final : Option (List V)

structure Own (u : Side) (m : Mode V) (s : Async w V) : Prop where
  dropped : s.ring.dropped u = m.dropped
  phase : s.phase u = m.phase
  polling : m.polling → s.pending u = none
  answered : s.answered u = m.answered
  final : ∀ A ∈ m.final, u = .consumer ∧ s.ring.producerDropped = true ∧
    (tally s.ring.trace).accepted = A

theorem Own.leaves {u : Side} {m : Mode V} {s s' : Async w V} (h : Own u m s)
    (hl : Leaves u s s') : Own u m s' where
  dropped := hl.dropped.trans h.dropped
  phase := hl.phase.trans h.phase
  polling hq := hl.pending.trans (h.polling hq)
  answered := hl.answered.trans h.answered
  final A hA := by
    obtain ⟨rfl, hd, ha⟩ := h.final A hA
    obtain ⟨es, ht, -, hnil⟩ := hl.trace
    refine ⟨rfl, hl.gone hd, ?_⟩
    rw [ht, hnil hd, List.append_nil]
    exact ha

/-- What an endpoint holds about itself survives the other's accesses. -/
theorem held_stable {start mask : BitVec w} {u : Side} {m : Mode V} {P : List (Event V) → Prop}
    (hP : Local u P) : (contract start mask u).Stable (Held lens (Own u m) P) := by
  intro s s' _ _ hr h
  have hl := leaves_of_rely hr
  obtain ⟨es, ht, hes, -⟩ := hl.trace
  refine ⟨h.1.leaves hl, ?_⟩
  change P s'.ring.trace
  rw [ht]
  exact hP _ es hes h.2

theorem Alert.stable {start mask : BitVec w} {u : Side} :
    (contract start mask u).Stable (Alert (V := V) u) :=
  fun _ _ _ _ hr h => (leaves_of_rely hr).alert h

/-! ## Accesses that publish nothing -/

theorem offered_append {t es : List (Event V)} (h : ∀ e ∈ es, e.publishes = false) (u : Side) :
    offered (tally (t ++ es)) u = offered (tally t) u := by
  induction es generalizing t with
  | nil => rw [List.append_nil]
  | cons e es ih =>
    have hstep : offered (tally (t ++ [e])) u = offered (tally t) u := by
      have he := h e (List.mem_cons_self ..)
      rw [tally_concat]
      cases u <;> cases e <;> first | rfl | exact absurd he (by simp [Event.publishes])
    have hrest := ih (t := t ++ [e]) fun e' he' => h e' (List.mem_cons_of_mem _ he')
    rw [List.append_assoc, List.singleton_append] at hrest
    exact hrest.trans hstep

/-- What an endpoint's calls answered stays within what it did. -/
theorem Inv.within {start mask : BitVec w} {u : Side} {s s' : Async w V} (h : Inv start mask s)
    (hg : Guar u s s') (hans : s'.answered u = s.answered u) (v : Side) :
    s'.answered v <+: (tally s'.ring.trace).moved v := by
  obtain ⟨es, ht, -, -⟩ := hg.trace
  have hsame : s'.answered v = s.answered v := by
    by_cases hv : v = u
    · exact hv ▸ hans
    · obtain rfl := Side.eq_other hv
      exact Leaves.answered hg
  rw [hsame, ht]
  exact (h.answered v).trans (moved_grows v s.ring.trace es)

/-- The invariant after an access of the producer. -/
theorem Inv.tx {start mask : BitVec w} {s s' : Async w V} (h : Inv start mask s)
    (hg : Guar .producer s s') (hok : s'.ring.Ok start mask) (hsent : s'.sent = s.sent)
    (hown : ∀ n, s'.pending .producer = some n → Watched .producer True (some n) s')
    (hfl : s'.ring.producerDropped = true →
      (tally s'.ring.trace).flushed = (tally s'.ring.trace).accepted) : Inv start mask s' := by
  obtain ⟨es, ht, hes, hnil⟩ := hg.trace
  obtain ⟨-, hret, hend⟩ := hg.rx rfl
  have hrx := SameRx.of_by (t := s.ring.trace) hes
  rw [← ht] at hrx
  refine ⟨hok, hrx.destroyed.trans h.live, fun u n hu => ?_, hfl, h.within hg hsent,
    fun he => ?_⟩
  · cases u with
    | producer => exact hown n hu
    | consumer => exact hg.watched _ _ (h.watched _ n (hg.pending.symm.trans hu))
  · obtain ⟨hd, hp, hr⟩ := h.ended (hend.symm.trans he)
    obtain rfl := hnil hd
    rw [List.append_nil] at ht
    rw [ht, hret]
    exact ⟨hg.gone hd, hp, hr⟩

/-- The invariant after an access of the consumer that gives nothing out. -/
theorem Inv.rx {start mask : BitVec w} {s s' : Async w V} (h : Inv start mask s)
    (hg : Guar .consumer s s') (hok : s'.ring.Ok start mask)
    (hown : ∀ n, s'.pending .consumer = some n → Watched .consumer True (some n) s')
    (hret : s'.returned = s.returned) (hend : s'.ended = s.ended) : Inv start mask s' := by
  obtain ⟨es, ht, hes, -⟩ := hg.trace
  have htx := SameTx.of_by (t := s.ring.trace) hes
  have hpopped : (tally s.ring.trace).popped <+: (tally s'.ring.trace).popped :=
    ht ▸ moved_grows .consumer s.ring.trace es
  rw [← ht] at htx
  have hdropped : s'.ring.producerDropped = s.ring.producerDropped := hg.dropped
  refine ⟨hok, htx.destroyed.trans h.live, fun u n hu => ?_, fun hd => ?_, h.within hg hret,
    fun he => ?_⟩
  · cases u with
    | producer => exact hg.watched _ _ (h.watched _ n (hg.pending.symm.trans hu))
    | consumer => exact hown n hu
  · rw [htx.flushed, htx.accepted]
    exact h.flushed (hdropped.symm.trans hd)
  · obtain ⟨hd, hp, hr⟩ := h.ended (hend.symm.trans he)
    -- nothing is left to pop
    have hlast : (tally s'.ring.trace).popped = (tally s.ring.trace).popped := by
      have hle := hok.fits.popped
      rw [htx.accepted, ← hp] at hle
      exact (hpopped.eq_of_length_le hle.length_le).symm
    refine ⟨hdropped.trans hd, ?_, ?_⟩
    · rw [hlast, hp, htx.accepted]
    · rw [hret, hr, hlast]

/-- What an endpoint is told depends on the cells the two share. -/
theorem Watched.congr {u : Side} {b : Prop} {n : Option Nat} {s s' : Async w V}
    (h : Watched u b n s) (hwaker : s'.waker u = s.waker u)
    (hphase : s'.phase u.other = s.phase u.other) (hflag : Flagged s u → Flagged s' u)
    (hdropped : s'.ring.dropped u.other = s.ring.dropped u.other)
    (hoffered : offered (tally s'.ring.trace) u = offered (tally s.ring.trace) u) :
    Watched u b n s' := by
  unfold Watched at h ⊢
  rw [hwaker, hphase, hdropped, hoffered]
  exact h.imp_right (And.imp_right (Or.imp_right (And.imp_left hflag)))

/-- What an endpoint is offered is published by the other. -/
theorem offered_own {u : Side} {t es : List (Event V)} (h : By u es) :
    offered (tally (t ++ es)) u = offered (tally t) u := by
  cases u with
  | producer => exact congrArg List.length (SameRx.of_by h).released
  | consumer => exact congrArg List.length (SameTx.of_by h).flushed

/-- **One access of an endpoint to the ring**, with the next phase of its wake: the other endpoint
    stays watched. -/
theorem access_step {start mask : BitVec w} {u : Side} {m : Mode V} {s : Async w V}
    {r : Ring w V} {φ : Side → Phase} {x : Phase} {d : Bool} {es : List (Event V)}
    (h : Inv start mask s) (hown : Own u m s) (hopen : m.dropped = false)
    (hok : r.Ok start mask) (ht : r.trace = s.ring.trace ++ es) (hes : By u es)
    (hother : r.dropped u.other = s.ring.dropped u.other) (hd : r.dropped u = d)
    (hφ : φ u.other = s.phase u.other) (hx : φ u = x)
    (hflag : u = .producer → s.ring.producerWaiting.waiting = true →
      r.producerWaiting.waiting = true)
    (hw : ∀ b n, Watched u.other b n s → Watched u.other b n { s with ring := r, phase := φ })
    (hfl : u = .producer → r.producerDropped = true →
      (tally r.trace).flushed = (tally r.trace).accepted) :
    Inv start mask { s with ring := r, phase := φ } ∧ Guar u s { s with ring := r, phase := φ } ∧
      Own u { m with phase := x, dropped := d } { s with ring := r, phase := φ } := by
  have hopen' : s.ring.dropped u = false := hown.dropped.trans hopen
  have hg : Guar u s { s with ring := r, phase := φ } := by
    refine ⟨⟨es, ht, ?_, fun hd => ?_⟩, fun hd => ?_, hother, rfl, hφ, fun _ => ⟨rfl, rfl⟩,
      fun _ => ⟨rfl, rfl, rfl⟩, id, hw⟩
    · rw [Side.other_other]
      exact hes
    · rw [Side.other_other, hopen'] at hd
      exact absurd hd (by simp)
    · rw [Side.other_other, hopen'] at hd
      exact absurd hd (by simp)
  have hmine : ∀ n, s.pending u = some n →
      Watched u True (some n) { s with ring := r, phase := φ } := by
    intro n hn
    refine (h.watched u n hn).congr rfl hφ ?_ hother ?_
    · cases u with
      | producer => exact hflag rfl
      | consumer => exact id
    · change offered (tally r.trace) u = _
      rw [ht]
      exact offered_own hes
  have hans : ({ s with ring := r, phase := φ } : Async w V).answered u = s.answered u := by
    cases u <;> rfl
  refine ⟨?_, hg, hd, hx, hown.polling, hans.trans hown.answered, fun A hA => ?_⟩
  · cases u with
    | producer => exact h.tx hg hok rfl hmine (hfl rfl)
    | consumer => exact h.rx hg hok hmine rfl rfl
  · obtain ⟨rfl, hgone, ha⟩ := hown.final A hA
    refine ⟨rfl, hother.trans hgone, ?_⟩
    change (tally r.trace).accepted = A
    rw [ht]
    exact (SameTx.of_by hes).accepted.trans ha

/-- The ring of a live endpoint, for the accesses that publish nothing. -/
theorem endpoint (start mask : BitVec w) (u : Side) (m : Mode V) (hopen : m.dropped = false) :
    Endpoint (contract start mask u) lens start mask u False False (Own u m) where
  get_set _ _ := rfl
  ok _ hs := hs.ok
  live _ hs _ := hs.live
  rely s s' _ _ hr h := by
    have hl := leaves_of_rely hr
    obtain ⟨es, ht, hes, -⟩ := hl.trace
    exact ⟨h.leaves hl, es, ht, hes⟩
  keep s r es hs h hok ht hcan hflags := by
    have hflags : SameFlags s.ring r := hflags.resolve_left id
    have hes : By u es := fun e he => (hcan e he).1
    have hquiet : ∀ e ∈ es, e.publishes = false := fun e he =>
      Bool.eq_false_iff.mpr (hcan e he).2.2
    have hoffered : ∀ v, offered (tally r.trace) v = offered (tally s.ring.trace) v := fun v => by
      rw [ht]
      exact offered_append hquiet v
    have hflag : ∀ v, Flagged s v → Flagged { s with ring := r } v := by
      intro v hv
      cases v with
      | producer => exact (congrArg Waiter.waiting hflags.producerWaiting).trans hv
      | consumer => trivial
    refine access_step (φ := s.phase) hs h hopen hok ht hes (hflags.dropped _)
      ((hflags.dropped u).trans h.dropped) rfl h.phase (fun _ => hflag .producer)
      (fun b n hw => hw.congr rfl rfl (hflag _) (hflags.dropped _) (hoffered _))
      fun hu hd => ?_
    subst hu
    have : s.ring.producerDropped = true := hflags.producerDropped.symm.trans hd
    exact absurd (this.symm.trans (h.dropped.trans hopen)) (by simp)

/-! ## Publishing and waking -/

theorem Watched.waking {u : Side} {b : Prop} {n : Option Nat} {s s' : Async w V}
    (h : Watched u b n s) (hwaker : s'.waker u = s.waker u)
    (hphase : s'.phase u.other = .waking) : Watched u b n s' := by
  unfold Watched at h ⊢
  rw [hwaker]
  exact h.imp_right fun h => ⟨h.1, .inl hphase⟩

theorem Watched.alert {u : Side} {b : Prop} {n : Option Nat} {s : Async w V}
    (h : Watched u b n s) : Alert u s :=
  h.imp_right And.left

theorem Side.ne_other (u : Side) : u ≠ u.other := by cases u <;> exact nofun

/-- A step of an endpoint that leaves the ring alone. -/
theorem Inv.silent {start mask : BitVec w} {u : Side} {s s' : Async w V} (h : Inv start mask s)
    (hg : Guar u s s') (hring : s'.ring = s.ring)
    (hown : ∀ n, s'.pending u = some n → Watched u True (some n) s')
    (hsent : s'.sent = s.sent) (hret : s'.returned = s.returned) (hend : s'.ended = s.ended) :
    Inv start mask s' := by
  refine ⟨hring ▸ h.ok, hring ▸ h.live, fun v n hv => ?_, hring ▸ h.flushed, h.within hg ?_, ?_⟩
  · by_cases huv : v = u
    · subst huv
      exact hown n hv
    · obtain rfl := Side.eq_other huv
      exact hg.watched _ _ (h.watched _ n (hg.pending.symm.trans hv))
  · cases u with
    | producer => exact hsent
    | consumer => exact hret
  · rw [hring, hret, hend]
    exact h.ended

section Steps

variable {start mask : BitVec w} {m : Mode V}

/-- A flush stores the cursor and is then bound to wake. -/
theorem storeTail_spec (hopen : m.dropped = false) (A F : List V) (p : Producer w) :
    Triple (contract start mask .producer) (Held lens (Own .producer m) (p.At start A F))
      (lens.accessWith (fun _ => setPhase .producer .waking) (Ring.storeTail p.cursor)) fun _ =>
      Held lens (Own .producer { m with phase := .waking }) (p.At start A A) := by
  refine Triple.atomic (held_stable (Producer.At.local start A F p))
    (fun _ => held_stable (Producer.At.local start A A p)) fun s _ hs h _ => ?_
  obtain ⟨hown, hat⟩ := h
  have hok : (s.ring.storeTail p.cursor).2.Ok start mask :=
    hs.ok.log (e := .flush) rfl trivial (hat.storeTail hs.ok)
  obtain ⟨hi, hg, ho⟩ := access_step (r := (s.ring.storeTail p.cursor).2)
    (φ := Function.update s.phase .producer .waking) hs hown hopen hok rfl (By.one rfl) rfl
    hown.dropped rfl rfl (fun _ => id) (fun b n hw => hw.waking rfl rfl) fun _ hd =>
      absurd (hd.symm.trans (hown.dropped.trans hopen)) (by simp)
  exact ⟨hi, hg, ho, hat.flush⟩

theorem storeHead_spec (hopen : m.dropped = false) (hquiet : m.phase = .quiet) (P : List V)
    (c : Consumer w) :
    Triple (contract start mask .consumer) (Held lens (Own .consumer m) (c.At start P))
      (lens.accessWith (fun _ => setPhase .consumer .stored) (Ring.storeHead c.head)) fun _ =>
      Held lens (Own .consumer { m with phase := .stored }) (c.At start P) := by
  refine Triple.atomic (held_stable (Consumer.At.local start P c))
    (fun _ => held_stable (Consumer.At.local start P c)) fun s _ hs h _ => ?_
  obtain ⟨hown, hat⟩ := h
  have hok : (s.ring.storeHead c.head).2.Ok start mask :=
    hs.ok.log (e := .release) rfl trivial (hat.storeHead hs.ok hs.live)
  have hphase : s.phase .consumer = .quiet := hown.phase.trans hquiet
  have hw : ∀ b n, Watched .producer b n s → Watched .producer b n { s with
      ring := (s.ring.storeHead c.head).2
      phase := Function.update s.phase .consumer .stored } := by
    -- the producer has not seen these values, and the exchange is still to come
    refine fun b n hw => hw.imp_right fun h => ⟨h.1, .inr ?_⟩
    rcases h.2 with hwaking | ⟨hflag, hb, -⟩
    · exact absurd (hphase.symm.trans hwaking) (by simp)
    · exact ⟨hflag, hb, fun k _ => .inr rfl⟩
  obtain ⟨hi, hg, ho⟩ := access_step (φ := Function.update s.phase .consumer .stored) hs hown
    hopen hok rfl (By.one rfl) rfl hown.dropped rfl rfl nofun hw nofun
  exact ⟨hi, hg, ho, hat.release⟩

/-- **The exchange finds the flag of every producer that is watched.** -/
theorem swap_spec (hopen : m.dropped = false) (hstored : m.phase = .stored) (P : List V)
    (c : Consumer w) :
    Triple (contract start mask .consumer) (Held lens (Own .consumer m) (c.At start P))
      (lens.accessWith
        (fun waiting => setPhase .consumer (if waiting then .waking else .quiet))
        fun r => (r.producerWaiting.waiting,
          r.setWaiter { r.producerWaiting with waiting := false } .producer)) fun waiting =>
      Held lens (Own .consumer { m with phase := if waiting then .waking else .quiet })
        (c.At start P) := by
  refine Triple.atomic (held_stable (Consumer.At.local start P c))
    (fun _ => held_stable (Consumer.At.local start P c)) fun s _ hs h _ => ?_
  obtain ⟨hown, hat⟩ := h
  have hphase : s.phase .consumer = .stored := hown.phase.trans hstored
  have hok : (s.ring.setWaiter { s.ring.producerWaiting with waiting := false }
      .producer).Ok start mask := hs.ok.silent rfl rfl rfl rfl
  have hw : ∀ b n, Watched .producer b n s → Watched .producer b n { s with
      ring := s.ring.setWaiter { s.ring.producerWaiting with waiting := false } .producer
      phase := Function.update s.phase .consumer
        (if s.ring.producerWaiting.waiting then .waking else .quiet) } := by
    refine fun b n hw => hw.imp_right fun h => ⟨h.1, .inl ?_⟩
    rcases h.2 with hwaking | ⟨hflag, -, -⟩
    · exact absurd (hphase.symm.trans hwaking) (by simp)
    · have hflag : s.ring.producerWaiting.waiting = true := hflag
      simp [hflag, Side.other]
  obtain ⟨hi, hg, ho⟩ := access_step (φ := Function.update s.phase .consumer
      (if s.ring.producerWaiting.waiting then .waking else .quiet)) hs hown hopen hok
    (List.append_nil _).symm (By.nil _) rfl hown.dropped rfl rfl nofun hw nofun
  exact ⟨hi, hg, ho, hat⟩

/-- A wake takes the waker that is registered. -/
theorem wake_spec {v : Side} {P : List (Event V) → Prop} (hP : Local v.other P) :
    Triple (contract start mask v.other) (Held lens (Own v.other m) P) (wake v) fun _ =>
      Held lens (Own v.other { m with phase := .quiet }) P := by
  refine Triple.atomic (held_stable hP) (fun _ => held_stable hP) fun s _ hs h _ => ?_
  obtain ⟨hown, hp⟩ := h
  have hwaker : (Function.update s.waker v (s.waker v).wake) v = (s.waker v).wake :=
    Function.update_self ..
  have hmine : (Function.update s.waker v (s.waker v).wake) v.other = s.waker v.other :=
    Function.update_of_ne (Side.ne_other v).symm ..
  have hphase : (Function.update s.phase v.other Phase.quiet) v = s.phase v :=
    Function.update_of_ne (Side.ne_other v) ..
  have hwoken : Alert v s → (Function.update s.waker v (s.waker v).wake v).woken = true := by
    rw [hwaker]
    intro h
    simpa [AtomicWaker.wake, Alert] using h
  have hg : Guar v.other s ((s.setWaker v (s.waker v).wake).setPhase v.other .quiet) := by
    rw [Guar, Side.other_other]
    exact ⟨⟨[], (List.append_nil _).symm, By.nil _, fun _ => rfl⟩, id, rfl, rfl, hphase,
      fun _ => ⟨rfl, rfl⟩, fun _ => ⟨rfl, rfl, rfl⟩, fun h => .inl (hwoken h),
      fun b n h => .inl (hwoken h.alert)⟩
  have hans : ∀ u, ((s.setWaker v (s.waker v).wake).setPhase v.other .quiet).answered u =
      s.answered u := fun u => by cases u <;> rfl
  refine ⟨hs.silent hg rfl (fun n hn => ?_) rfl rfl rfl, hg, ⟨hown.dropped, ?_, hown.polling,
    (hans _).trans hown.answered, hown.final⟩, hp⟩
  · refine (hs.watched v.other n hn).congr hmine ?_ id rfl rfl
    rw [Side.other_other]
    exact hphase
  · exact Function.update_self ..

/-- The drop of the producer, everything it pushed being flushed. -/
theorem dropProducer_spec (hopen : m.dropped = false) (A : List V) (p : Producer w) :
    Triple (contract start mask .producer) (Held lens (Own .producer m) (p.At start A A))
      (lens.accessWith (fun _ => setPhase .producer .waking) Ring.dropProducer) fun _ =>
      Held lens (Own .producer { m with phase := .waking, dropped := true })
        (p.At start A A) := by
  have hlocal := Producer.At.local start A A p
  refine Triple.atomic (held_stable hlocal) (fun _ => held_stable hlocal) fun s _ hs h _ => ?_
  obtain ⟨hown, hat⟩ := h
  have hok : (s.ring.dropProducer).2.Ok start mask := hs.ok.silent rfl rfl rfl rfl
  obtain ⟨hi, hg, ho⟩ := access_step (φ := Function.update s.phase .producer .waking) hs hown hopen
    hok (List.append_nil _).symm (By.nil _) rfl rfl rfl rfl (fun _ => id)
    (fun b n hw => hw.waking rfl rfl) fun _ _ => hat.flushed.trans hat.accepted.symm
  exact ⟨hi, hg, ho, hat⟩

theorem dropConsumer_spec (hopen : m.dropped = false) (P : List V) (c : Consumer w) :
    Triple (contract start mask .consumer) (Held lens (Own .consumer m) (c.At start P))
      (lens.accessWith (fun _ => setPhase .consumer .waking) Ring.dropConsumer) fun _ =>
      Held lens (Own .consumer { m with phase := .waking, dropped := true })
        (c.At start P) := by
  have hlocal := Consumer.At.local start P c
  refine Triple.atomic (held_stable hlocal) (fun _ => held_stable hlocal) fun s _ hs h _ => ?_
  obtain ⟨hown, hat⟩ := h
  have hok : (s.ring.dropConsumer).2.Ok start mask := hs.ok.silent rfl rfl rfl rfl
  obtain ⟨hi, hg, ho⟩ := access_step (φ := Function.update s.phase .consumer .waking) hs hown hopen
    hok (List.append_nil _).symm (By.nil _) rfl rfl rfl rfl nofun
    (fun b n hw => hw.waking rfl rfl) nofun
  exact ⟨hi, hg, ho, hat⟩

/-! ## Registering and looking again -/

/-- The endpoint has registered; if `b`, it has then found the other alive, and if `on`, it has
    then looked what is published. -/
def Fresh (u : Side) (b : Prop) (on : Bool) (s : Async w V) : Prop :=
  Watched u b (if on then some ((tally s.ring.trace).seen u) else none) s

theorem seen_other {u : Side} {t es : List (Event V)} (h : By u.other es) :
    (tally (t ++ es)).seen u = (tally t).seen u := by
  cases u with
  | producer => exact (SameTx.of_by h).seenHead
  | consumer => exact (SameRx.of_by h).seenTail

theorem Fresh.stable {u : Side} (b : Prop) (on : Bool) :
    (contract start mask u).Stable (Fresh (V := V) u b on) := by
  intro s s' _ _ hr h
  have hl := leaves_of_rely hr
  obtain ⟨es, ht, hes, -⟩ := hl.trace
  unfold Fresh
  rw [ht, seen_other hes]
  exact hl.watched _ _ h

theorem register_spec {u : Side} {P : List (Event V) → Prop} (hpoll : m.polling)
    (hP : Local u P) :
    Triple (contract start mask u) (Held lens (Own u m) P) (register u) fun _ s =>
      Held lens (Own u m) P s ∧ Alert u s := by
  refine Triple.atomic (held_stable hP) (fun _ => (held_stable hP).and Alert.stable)
    fun s _ hs h _ => ?_
  obtain ⟨hown, hp⟩ := h
  have hother : (Function.update s.waker u (s.waker u).register) u.other = s.waker u.other :=
    Function.update_of_ne (Side.ne_other u).symm ..
  have hg : Guar u s (s.setWaker u (s.waker u).register) := by
    refine ⟨⟨[], (List.append_nil _).symm, By.nil _, fun _ => rfl⟩, id, rfl, rfl, rfl,
      fun _ => ⟨rfl, rfl⟩, fun _ => ⟨rfl, rfl, rfl⟩, fun h => ?_, fun b n h => ?_⟩
    · unfold Alert at h ⊢
      dsimp only [setWaker]
      rwa [hother]
    · exact h.congr hother rfl id rfl rfl
  have hans : (s.setWaker u (s.waker u).register).answered u = s.answered u := by cases u <;> rfl
  refine ⟨hs.silent hg rfl (fun n hn => ?_) rfl rfl rfl, hg, ⟨⟨hown.dropped, hown.phase,
    hown.polling, hans.trans hown.answered, hown.final⟩, hp⟩, .inr ?_⟩
  · exact absurd ((hown.polling hpoll).symm.trans hn) (by simp)
  · exact congrArg AtomicWaker.registered (Function.update_self u (s.waker u).register s.waker)

/-- `register_space_waker`: the flag is set once the waker is registered. -/
theorem registerSpaceWaker_spec {P : List (Event V) → Prop} (hpoll : m.polling)
    (hopen : m.dropped = false) (hP : Local .producer P) :
    Triple (contract start mask .producer) (Held lens (Own .producer m) P)
      AsyncProducer.registerSpaceWaker fun _ s =>
      Held lens (Own .producer m) P s ∧ Fresh .producer False false s := by
  refine Triple.bind (register_spec hpoll hP) fun _ => ?_
  refine Triple.atomic ((held_stable hP).and Alert.stable)
    (fun _ => (held_stable hP).and (Fresh.stable _ _)) fun s _ hs h _ => ?_
  obtain ⟨⟨hown, hp⟩, halert⟩ := h
  have hok : (s.ring.setWaiter { s.ring.producerWaiting with waiting := true }
      .producer).Ok start mask := hs.ok.silent rfl rfl rfl rfl
  obtain ⟨hi, hg, ho⟩ := access_step (φ := s.phase) hs hown hopen hok (List.append_nil _).symm
    (By.nil _) rfl hown.dropped rfl hown.phase (fun _ _ => rfl)
    (fun b n hw => hw.congr rfl rfl (fun _ => trivial) rfl rfl)
    fun _ hd => absurd (hd.symm.trans (hown.dropped.trans hopen)) (by simp)
  refine ⟨hi, hg, ⟨ho, hp⟩, halert.imp_right fun hr => ⟨hr, .inr ⟨rfl, False.elim, ?_⟩⟩⟩
  exact fun k hk => absurd hk (by simp)

/-- Finding the other endpoint alive after registering. -/
theorem isDropped_spec {u : Side} {P : List (Event V) → Prop} (hP : Local u P) {b : Prop}
    {on : Bool} :
    Triple (contract start mask u) (fun s => Held lens (Own u m) P s ∧ Fresh u b on s)
      (isDropped u.other) fun gone s =>
      Held lens (Own u m) P s ∧ (gone = false → Fresh u True on s) := by
  have hstable : ∀ gone : Bool, (contract start mask u).Stable fun s : Async w V =>
      gone = false → Fresh u True on s :=
    fun _ s s' hs hs' hr h hgone => Fresh.stable True on s s' hs hs' hr (h hgone)
  refine Triple.read (f := fun s : Async w V => s.ring.dropped u.other)
    ((held_stable hP).and (Fresh.stable b on)) (fun gone => (held_stable hP).and (hstable gone))
    (Leaves.refl _) fun s _ _ h _ => ⟨h.1, fun hgone => ?_⟩
  exact h.2.imp_right (And.imp_right (Or.imp_right (And.imp_right fun h => ⟨fun _ => hgone, h.2⟩)))

/-- Looking at what is published, after registering. -/
theorem Fresh.look {u : Side} {b : Prop} {on : Bool} {s : Async w V} {r : Ring w V}
    (h : Fresh u b on s) (hflags : SameFlags s.ring r)
    (hoffered : offered (tally r.trace) u = offered (tally s.ring.trace) u)
    (hseen : (tally r.trace).seen u = offered (tally r.trace) u) :
    Fresh u b true { s with ring := r } := by
  have hflag : Flagged s u → Flagged { s with ring := r } u := by
    cases u with
    | producer => exact (congrArg Waiter.waiting hflags.producerWaiting).trans
    | consumer => exact id
  rcases h with hwoken | ⟨hreg, hwaking | ⟨hf, hb, -⟩⟩
  · exact .inl hwoken
  · exact .inr ⟨hreg, .inl hwaking⟩
  · refine .inr ⟨hreg, .inr ⟨hflag hf, fun h => (hflags.dropped _).trans (hb h), ?_⟩⟩
    intro k hk
    simp only [if_true, Option.mem_def, Option.some.injEq] at hk
    exact .inl (hseen.symm.trans hk)

end Steps

end Async

end Fanring.Yring
