import Fanring.Mpsc.Found

/-!
# Waiting for a turn

The receiver serves its lanes in rotation, in turns of at most `PREFETCH_LIMIT` values. A turn is
counted across the ways to receive: a value popped from a fast window, by a poll, by a fair receive
or in bulk is charged to the same burst, and a window that is opened or closed moves what is charged
ahead without changing what was spent (`Lane.spent`). Lanes that become ready go to the end, and a
lane that is found empty leaves or goes to the end. So nobody gets ahead of a lane that waits, and
what is received before its next value is what the lanes ahead of it may still give in their turns
(`Turns.Before`).

The bound holds for every mix of ordinary receives, whatever the senders do meanwhile. That a value
is received at all is what `Found` says: a lane in the rotation with an unread value is in reach.
-/

set_option autoImplicit false

namespace Fanring.Mpsc

open Conc Chan

variable {V : Type} {P : Params} {s s' : Chan V} {ℓ n : Nat} {k : Terms}
  {c c' : Config (Chan V) Tid}

/-! ## Rounds of the receiver -/

/-- The receiver's operations of a kind. -/
def Op.Receives (kind : RecvOp V → Prop) : Op V → Prop
  | .recv op => kind op
  | .send _ => False

theorem Reaches.rounds {kind : Op V → Prop} (h : Reaches V P c)
    (hrun : (system V P).Rounds .rx kind n c c') : Reaches V P c' :=
  Relation.ReflTransGen.trans h hrun.run

/-- A receiver at rest stays so while the others go on. -/
theorem Resting.other {l : Label Tid (Op V)} (hr : Resting false k c.st) (h : Reaches V P c)
    (ht : l.thread ≠ .rx) (hl : (system V P).exec c l = some c') : Resting false k c'.st := by
  cases l with
  | call t op =>
    obtain ⟨-, -, rfl⟩ := System.exec_call hl
    exact hr
  | step t m =>
    have hg := h.good.guarantee (ok_always _ _) hl
    cases t with
    | rx => exact absurd rfl ht
    | tx ℓ =>
      rcases hg with heq | ⟨hlt, ha⟩
      · rwa [heq]
      · exact hr.sender h.good.1.core hlt ha

/-- **The terms a receiver is run under hold after every round of operations they admit.** -/
theorem Resting.rounds {kind : RecvOp V → Prop}
    (hkind : ∀ op, kind op → op.Admits k ∧ op ≠ .drop) (h : Reaches V P c)
    (hr : Resting false k c.st)
    (hrun : (system V P).Rounds .rx (Op.Receives kind) n c c') : Resting false k c'.st := by
  induction hrun with
  | start c => exact hr
  | other hrun ht hl ih => exact (ih h hr).other (h.rounds hrun) ht hl
  | @call n c c₁ c₂ c₃ op hrun hop hcall hduring hback ih =>
    cases op with
    | send op => exact hop.elim
    | recv op =>
      obtain ⟨hadmits, hdrop⟩ := hkind op hop
      obtain ⟨-, hend⟩ := (h.rounds hrun).returned (S := .watching false k .none) rfl hcall hduring
        hback fun hi _ => RecvOp.code_spec op hadmits c₁.st hi ⟨ih h hr, fun hb => by cases hb⟩
      exact (hend.returns hdrop).1

/-! ## A lane that waits -/

/-- On the terms that this lane waits for its turn. -/
def Terms.waiting (w : Wait) : Terms := { wait := some w }

theorem RecvOp.not_targeted {op : RecvOp V} (hop : op.ordinary = true) : op.targeted = false := by
  cases op <;> first | rfl | cases hop

theorem RecvOp.Admits.of_ordinary {op : RecvOp V} (hop : op.ordinary = true)
    (hsingle : k.single = none) : op.Admits k ∧ op ≠ .drop := by
  refine ⟨⟨fun h => ?_, fun _ => hsingle⟩, ?_⟩
  · exact absurd (h.symm.trans (RecvOp.not_targeted hop)) (by simp)
  · rintro rfl
    cases hop

/-- The lane of a key of the rotation starts to wait: so many keys are ahead of it. -/
def Chan.waitOf (s : Chan V) (key : LaneKey) (lane : Lane) (ahead : Nat) : Wait :=
  ⟨lane.ix, key, (popped s.trace).length, prefetchLimit * ahead, fun _ => False⟩

/-- What those ahead of a key may give at most. -/
theorem sum_allowance_le {hot : Option Nat} {taken : Nat} {lanes : Nat → Option Lane}
    (ahead : List LaneKey) :
    (ahead.map (allowance hot taken lanes)).sum ≤ prefetchLimit * ahead.length := by
  induction ahead with
  | nil => exact le_rfl
  | cons key ahead ih =>
    have hle : allowance hot taken lanes key ≤ prefetchLimit := by
      unfold allowance
      split
      · exact Nat.zero_le _
      · exact Nat.sub_le ..
    rw [List.map_cons, List.sum_cons, List.length_cons, Nat.mul_succ]
    omega

theorem Between.waiting {key : LaneKey} {lane : Lane} {ahead behind : List LaneKey}
    (hb : Between false s) (hlane : s.rx.lane? key = some lane)
    (hrot : s.rx.active = ahead ++ key :: behind)
    (hunread : (s.ring lane.ix).head < (s.ring lane.ix).tail) :
    Resting false (.waiting (s.waitOf key lane ahead.length)) s := by
  obtain ⟨hl, hkey⟩ := lane?_some hlane
  refine ⟨{ hb.view with wait := fun w hw => ?_ }, hb.active⟩
  cases hw
  exact ⟨le_rfl, .inr
    { held := ⟨lane, hl, hkey, rfl⟩
      unread := hunread
      others := by simp [Chan.waitOf]
      fresh := fun h => by cases h
      place := ⟨prefetchLimit * ahead.length, by simp [Chan.waitOf], ahead, behind, hrot,
        sum_allowance_le ahead, by simp [Wait.Late, Chan.waitOf]⟩ }⟩

/-- A lane that waits is in reach. -/
theorem Resting.inReach {w : Wait} {t : List (Nat × V)} (hr : Resting false (.waiting w) s)
    (hq : Queued w none none 0 s.rx.lanes s.rx.active t (s.ring w.lane).head (s.ring w.lane).tail) :
    s.InReach w.lane := by
  obtain ⟨l, hl, hkey, hix⟩ := hq.held
  obtain ⟨m, -, hbefore⟩ := hq.place
  have hv := hr.view
  have hcopy : CopyOf s.rx l := (hv.copyOf_lane hl).2
  obtain ⟨hk, hlt, hst, hsh⟩ := hv.held hcopy
  obtain ⟨l', hl', -, hqueued, hunpaused⟩ := hv.queued_lane (.inl hbefore.mem)
  cases hl.symm.trans hl'
  have hslot : (s.key w.lane).slot = w.key.slot := by rw [← hix, ← hk, hkey]
  have hlisted : Listed s.rx.book (s.key w.lane).slot :=
    ⟨l.skel, by rw [hslot]; exact Receiver.skel_lane hl, hqueued⟩
  rw [← hix] at hlisted hslot ⊢
  exact
    { lt := hlt
      key := rfl
      stage := by simp [hst]
      shut := hsh
      pending := .inr hlisted
      unread := hix.symm ▸ hq.unread
      unpaused := fun _ => by rw [hslot]; exact hunpaused
      covered := .inl hlisted }

/-! ## What is received meanwhile -/

/-- What was returned since. -/
def Chan.since (s s' : Chan V) : List (Item V) := s'.returned.drop s.returned.length

theorem InLine.bound {w : Wait} {out : Option LaneKey} {hot : Option Nat} {taken head tail : Nat}
    {lanes : Nat → Option Lane} {active : List LaneKey} {t : List (Nat × V)}
    (h : InLine w out hot taken lanes active t head tail) :
    ((t.drop w.start).takeWhile (·.1 ≠ w.lane)).length ≤ w.most := by
  rcases h.2 with ⟨first, v, later, heq, hle, hfirst⟩ | hq
  · have hall : ∀ a ∈ first, decide (a.1 ≠ w.lane) = true := fun a ha =>
      decide_eq_true (hfirst a ha).1
    rw [heq, List.takeWhile_append_of_pos hall, List.takeWhile_cons_of_neg (by simp),
      List.append_nil]
    exact hle
  · obtain ⟨n, hn, -⟩ := hq.place
    have := (List.takeWhile_sublist (fun a : Nat × V => decide (a.1 ≠ w.lane))
      (l := t.drop w.start)).length_le
    omega

/-- What no step takes back: the trace, the lanes' keys, and what the lanes accepted. -/
structure Grows (s s' : Chan V) : Prop where
  trace : s.trace <+: s'.trace
  count : s.count ≤ s'.count
  key : ∀ ℓ < s.count, s'.key ℓ = s.key ℓ
  log : ∀ ℓ < s.count, (s.ring ℓ).log <+: (s'.ring ℓ).log

theorem Grows.refl (s : Chan V) : Grows s s :=
  ⟨List.prefix_rfl, le_rfl, fun _ _ => rfl, fun _ _ => List.prefix_rfl⟩

theorem Grows.trans {s₁ : Chan V} (h : Grows s s₁) (h' : Grows s₁ s') : Grows s s' where
  trace := h.trace.trans h'.trace
  count := h.count.trans h'.count
  key ℓ hlt := (h'.key ℓ (lt_of_lt_of_le hlt h.count)).trans (h.key ℓ hlt)
  log ℓ hlt := (h.log ℓ hlt).trans (h'.log ℓ (lt_of_lt_of_le hlt h.count))

theorem guar.grows {u : Tid} (hg : guar P u s s') (hc : Core P s) : Grows s s' := by
  cases u with
  | rx =>
    obtain ⟨es, hes, -⟩ := hg.recorded
    refine ⟨hes ▸ List.prefix_append .., hg.count.ge, fun ℓ _ => congrFun hg.key ℓ, fun ℓ hlt => ?_⟩
    rw [(guar.leaves (u := .rx) (ℓ := ℓ) (by simp) hg hlt).log]
  | tx ℓ' =>
    rcases hg with rfl | ⟨hlt', ha⟩
    · exact .refl _
    have hf := ha.frame hc hlt'
    exact ⟨hf.trace ▸ List.prefix_rfl, hf.count, hf.key, fun ℓ hlt => (ha.grows hlt).1⟩

/-- Neither does a run. -/
theorem Reaches.grows (h : Reaches V P c) (hrun : (system V P).Run System.always c c') :
    Grows c.st c'.st :=
  h.good.kept (φ := Grows c.st) (fun _ _ _ hs _ hg hφ => hφ.trans (guar.grows hg hs.core))
    (hrun.mono fun c l _ => ok_always c l) (.refl _)

theorem popped_mono {t t' : List (Event V)} (h : t <+: t') : popped t <+: popped t' := by
  obtain ⟨es, rfl⟩ := h
  rw [popped_append]
  exact List.prefix_append ..

theorem Served.mono {w : Wait} {t t' : List (Nat × V)} (h : Served w t) (ht : t <+: t') :
    Served w t' := by
  obtain ⟨more, rfl⟩ := ht
  exact h.append more

theorem RecvOp.Takes.ordinary {op : RecvOp V} {must : Bool} (h : op.Takes must) :
    op.ordinary = true := by
  cases h with
  | recv tagged spins => rfl
  | tries h => cases h <;> rfl

/-- Every receive gets a value until the lane that waits is served. -/
theorem Resting.gains {w : Wait} (h : Reaches V P c) (hr : Resting false (.waiting w) c.st)
    (hstart : w.start = (popped c.st.trace).length)
    (hrun : (system V P).Rounds .rx (Op.Receives fun op => ∃ must, op.Takes must) n c c') :
    Served w (popped c'.st.trace) ∨ w.start + n ≤ (popped c'.st.trace).length := by
  induction hrun with
  | start c => exact .inr hstart.le
  | other hrun ht hl ih =>
    have htrace := ((h.rounds hrun).grows (.single ⟨_, trivial, hl⟩)).trace
    refine (ih h hr hstart).imp (·.mono (popped_mono htrace)) fun hle => hle.trans ?_
    exact (popped_mono htrace).length_le
  | @call n c c₁ c₂ c₃ op hrun hop hcall hduring hback ih =>
    cases op with
    | send op => exact hop.elim
    | recv op =>
      obtain ⟨must, hop⟩ := hop
      have hreach := h.rounds hrun
      have htrace := (hreach.grows (.head ⟨_, trivial, hcall⟩ hduring.run)).trace
      have hrest : Resting false (.waiting w) c₁.st :=
        hr.rounds (fun op hop => RecvOp.Admits.of_ordinary hop.choose_spec.ordinary rfl) h hrun
      rcases ih h hr hstart with hserved | hle
      · exact .inl (hserved.mono (popped_mono htrace))
      rcases (hrest.view.wait w rfl).2 with hserved | hq
      · exact .inl (hserved.mono (popped_mono htrace))
      have hgained := ((received_of_call hreach hop (hrest.inReach hq) hcall).1 c₃ hduring hback).2
      exact .inr (by omega)

/-- So after more receives than can come before it, the lane was served. -/
theorem Resting.served {w : Wait} (h : Reaches V P c) (hr : Resting false (.waiting w) c.st)
    (hstart : w.start = (popped c.st.trace).length)
    (hrun : (system V P).Rounds .rx (Op.Receives fun op => ∃ must, op.Takes must) n c c')
    (hn : w.most < n) : Served w (popped c'.st.trace) := by
  have hr' :=
    hr.rounds (fun op hop => RecvOp.Admits.of_ordinary hop.choose_spec.ordinary rfl) h hrun
  rcases hr.gains h hstart hrun with hserved | hle
  · exact hserved
  refine (hr'.view.wait w rfl).2.resolve_right fun hq => ?_
  obtain ⟨m, hm, -⟩ := hq.place
  rw [List.length_drop] at hm
  omega

/-- The first value of a lane that is received from now on is the oldest it holds. -/
theorem Reaches.next_value {first later : List (Nat × V)} {v : V} (h : Reaches V P c)
    (hlt : ℓ < c.st.count) (hshut : c.st.shut ℓ = false)
    (hrun : (system V P).Run System.always c c')
    (hunread : (c.st.ring ℓ).head < (c.st.ring ℓ).tail)
    (heq : (popped c'.st.trace).drop (popped c.st.trace).length = first ++ (ℓ, v) :: later)
    (hfirst : ∀ a ∈ first, a.1 ≠ ℓ) : (c.st.ring ℓ).log[(c.st.ring ℓ).head]? = some v := by
  have hgrows := h.grows hrun
  have hreach' : Reaches V P c' := Relation.ReflTransGen.trans h hrun
  have hlane := h.good.1.core.lane ℓ
  have hnone : ofLane ℓ first = [] := by
    simp only [ofLane, List.map_eq_nil_iff, List.filter_eq_nil_iff, decide_eq_true_eq]
    exact hfirst
  obtain ⟨more, hmore⟩ := popped_mono hgrows.trace
  rw [← hmore, List.drop_left] at heq
  -- what was popped by now is what was popped before, and then this value
  have hpopped : ofLane ℓ (popped c'.st.trace) =
      (c.st.ring ℓ).log.take (c.st.ring ℓ).head ++ v :: ofLane ℓ later := by
    rw [← hmore, heq, ofLane_append, ofLane_append, hlane.popped_eq hshut, hnone]
    simp [ofLane]
  have hle := (hreach'.good.1.core.lane ℓ).popped_le
  rw [hpopped] at hle
  have hhead : (c.st.ring ℓ).head < (c.st.ring ℓ).log.length :=
    lt_of_lt_of_le hunread hlane.ok.tail_le
  obtain ⟨rest, hrest⟩ := hle
  obtain ⟨grown, hgrown⟩ := hgrows.log ℓ hlt
  have hlen : ((c.st.ring ℓ).log.take (c.st.ring ℓ).head).length = (c.st.ring ℓ).head := by
    rw [List.length_take, min_eq_left hhead.le]
  have hget : (c'.st.ring ℓ).log[(c.st.ring ℓ).head]? = some v := by
    rw [← hrest, List.append_assoc, List.getElem?_append_right hlen.le, hlen]
    simp
  rwa [← hgrown, List.getElem?_append_left hhead] at hget

/-- What was popped since is what was returned since, between two operations of the receiver. -/
theorem Resting.since {k' : Terms} (hr : Resting false k s) (hr' : Resting false k' s') :
    (popped s'.trace).drop (popped s.trace).length = (s.since s').map Item.pair := by
  rw [hr.returned, hr'.returned, List.length_map, Chan.since, List.map_drop]

/-- **A lane in the rotation is served after at most 64 values of each lane ahead of it.** The
    receiver is between two operations, and a lane with an unread value has `ahead` before it in the
    rotation. Then, in every run in which the receiver makes ordinary receives only:
    - at most 64 values for each lane ahead are received before the next value of this one;
    - as long as that was not received, a receive answers a value, and it returns if it goes on
      being scheduled, or it has popped a value in bulk;
    - so after more receives than that it was received, and it is the oldest value the lane held. -/
theorem rotation_bounds_waiting {key : LaneKey} {lane : Lane} {ahead behind : List LaneKey}
    (h : Reaches V P c) (hidle : c.pool .rx = none) (halive : c.st.receiverAlive = true)
    (hlane : c.st.rx.lane? key = some lane) (hrot : c.st.rx.active = ahead ++ key :: behind)
    (hunread : (c.st.ring lane.ix).head < (c.st.ring lane.ix).tail) :
    (∀ n c', (system V P).Rounds .rx (Op.Receives fun op => op.ordinary = true) n c c' →
      ((c.st.since c'.st).takeWhile (·.lane ≠ lane.ix)).length ≤ 64 * ahead.length ∧
      ((∀ i ∈ c.st.since c'.st, i.lane ≠ lane.ix) → ∀ op must c₁, op.Takes must →
        (system V P).exec c' (.call .rx (.recv op)) = some c₁ →
        (∀ c₂, (system V P).During System.always .rx c₁ c₂ → c₂.pool .rx = none →
          ∃ r, c₂.st.history.getLast? = some r ∧ r.Delivers) ∧
        ∀ r : (system V P).Forever System.always c₁, Goes r →
          ∃ i, (system V P).During System.always .rx c₁ (r.at_ i) ∧
            ((r.at_ i).pool .rx = none ∨ must = false ∧
              (popped c'.st.trace).length < (popped (r.at_ i).st.trace).length))) ∧
    ∀ n c', (system V P).Rounds .rx (Op.Receives fun op => ∃ must, op.Takes must) n c c' →
      64 * ahead.length < n →
      ∃ first item later, c.st.since c'.st = first ++ item :: later ∧ item.lane = lane.ix ∧
        (∀ i ∈ first, i.lane ≠ lane.ix) ∧ first.length ≤ 64 * ahead.length ∧
        (c.st.ring lane.ix).log[(c.st.ring lane.ix).head]? = some item.value := by
  have hb : Between false c.st := h.between hidle halive
  have hr := hb.waiting hlane hrot hunread
  obtain ⟨-, hlt, -, hshut⟩ := hb.view.held (hb.view.copyOf_lane (lane?_some hlane).1).2
  refine ⟨fun n c' hrun => ?_, fun n c' hrun hn => ?_⟩
  · have hr' := hr.rounds (fun op hop => RecvOp.Admits.of_ordinary hop rfl) h hrun
    have hline := hr'.view.wait _ rfl
    refine ⟨?_, fun hnone op must c₁ hop hcall => ?_⟩
    · have hbound := hline.bound
      simp only [Chan.waitOf] at hbound
      rwa [hr.since hr', List.takeWhile_map, List.length_map] at hbound
    · -- the lane still waits, so it is in reach
      have hq := hline.2.resolve_left fun hserved => ?_
      · obtain ⟨hreturned, hreturns⟩ :=
          received_of_call (h.rounds hrun) hop (hr'.inReach hq) hcall
        exact ⟨fun c₂ hduring hback => (hreturned c₂ hduring hback).1, hreturns⟩
      · obtain ⟨first, v, later, heq, -⟩ := hserved
        simp only [Chan.waitOf] at heq
        rw [hr.since hr'] at heq
        obtain ⟨l₁, l₂, hl, -, hl₂⟩ := List.map_eq_append_iff.mp heq
        obtain ⟨item, l₃, rfl, hitem, -⟩ := List.map_eq_cons_iff.mp hl₂
        exact hnone item (by simp [hl]) (congrArg Prod.fst hitem)
  · have hr' :=
      hr.rounds (fun op hop => RecvOp.Admits.of_ordinary hop.choose_spec.ordinary rfl) h hrun
    obtain ⟨first, v, later, heq, hle, hfirst⟩ := hr.served h rfl hrun hn
    simp only [Chan.waitOf] at heq hle hfirst
    have hnext := h.next_value hlt hshut hrun.run hunread heq fun a ha => (hfirst a ha).1
    rw [hr.since hr'] at heq
    obtain ⟨l₁, l₂, hl, rfl, hl₂⟩ := List.map_eq_append_iff.mp heq
    obtain ⟨item, l₃, rfl, hitem, -⟩ := List.map_eq_cons_iff.mp hl₂
    refine ⟨l₁, item, l₃, hl, congrArg Prod.fst hitem, fun i hi => ?_, ?_, ?_⟩
    · exact (hfirst i.pair (List.mem_map_of_mem hi)).1
    · rwa [List.length_map] at hle
    · rw [hnext, ← show item.value = v from congrArg Prod.snd hitem]

/-- Two lanes with values are in the rotation, and the turn is lane 0's. -/
def oneAhead : Config (Chan Nat) Tid :=
  (system Nat ⟨false, 0, 4⟩).after (start Nat ⟨false, 0, 4⟩) (List.flatten [
    System.turn (.tx 0) (.send (.register 100 4)) 4, System.turn (.tx 0) (.send (.trySend 7)) 11,
    System.turn (.tx 0) (.send (.trySend 8)) 7, System.turn (.tx 1) (.send (.trySend 9)) 10,
    System.turn .rx (.recv (.tryRecv false)) 17])

/-- However many values lane 0 gets, 65 receives bring the one of lane 1. -/
theorem rotation_bounds_waiting_one_ahead :
    oneAhead.st.rx.active.map LaneKey.slot = [0, 1] ∧
      ∀ c', (system Nat ⟨false, 0, 4⟩).Rounds .rx (Op.Receives fun op => ∃ must, op.Takes must) 65
          oneAhead c' →
        ∃ first item later, oneAhead.st.since c'.st = first ++ item :: later ∧ item.lane = 1 ∧
          item.value = 9 ∧ first.length ≤ 64 := by
  refine ⟨by decide +kernel, fun c' hrun => ?_⟩
  have hreach : Reaches Nat ⟨false, 0, 4⟩ oneAhead := System.run_after (by decide +kernel)
  have hsome : (oneAhead.st.rx.lane? ⟨1, 0⟩).map (·.ix) = some 1 := by decide +kernel
  obtain ⟨lane, hlane, hix⟩ := Option.map_eq_some_iff.mp hsome
  obtain ⟨first, item, later, heq, hitem, -, hle, hvalue⟩ :=
    (rotation_bounds_waiting hreach (Option.isNone_iff_eq_none.mp (by decide +kernel))
      (by decide +kernel) hlane
      (show oneAhead.st.rx.active = [⟨0, 0⟩] ++ ⟨1, 0⟩ :: [] by decide +kernel)
      (by rw [hix]; decide +kernel)).2 65 c' hrun (by decide)
  refine ⟨first, item, later, heq, hitem.trans hix, ?_, hle⟩
  rw [hix] at hvalue
  have hnine : (oneAhead.st.ring 1).log[(oneAhead.st.ring 1).head]? = some 9 := by decide +kernel
  exact (Option.some.inj (hnine.symm.trans hvalue)).symm

end Fanring.Mpsc
