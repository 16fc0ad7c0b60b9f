import Fanring.Mpsc.Credit

/-!
# The MPSC channel: scans leave nothing behind

`try_recv_scan_into_while` puts every lane into the rotation before it drains, so it does not depend
on the readiness index: a value that was published and not signaled is found as well. A lane leaves
the rotation only when it was seen to be empty. A scan that ends for lack of values has therefore
seen every lane empty, and has delivered what was on it when the scan began.
-/

set_option autoImplicit false

namespace Fanring.Mpsc

open Conc Chan

variable {V : Type} {P : Params} {S : Setting} {s s' : Chan V} {ℓ ℓ' t : Nat} {x : Ctx V}
  {rx rx' : Receiver} {lane : Lane} {h : List (Nat × V)} {c : Bool} {n : Nat}

/-! ## Queueing every lane -/

/-- The lane is in the rotation. -/
def Receiver.Queues (rx : Receiver) (ℓ : Nat) : Prop :=
  ∃ slot e, rx.book.lane slot = some e ∧ e.ix = ℓ ∧ e.queued = true

theorem enqueueAll_lane (slots : List Nat) {slot : Nat}
    (hkeys : ∀ slot l, rx.lanes slot = some l → l.key.slot = slot)
    (hl : rx.lanes slot = some lane) (hp : rx.paused slot = false)
    (hm : slot ∈ slots ∨ lane.queued = true) :
    ∃ l, (Receiver.enqueueAll slots rx).lanes slot = some l ∧ l.ix = lane.ix ∧ l.queued = true := by
  induction slots generalizing rx lane with
  | nil => exact ⟨lane, hl, rfl, hm.resolve_left (by simp)⟩
  | cons slot₀ slots ih =>
    rw [Receiver.enqueueAll]
    split
    · next lane₀ hl₀ =>
      split
      · next hq =>
        have hslot : lane₀.key.slot = slot₀ := hkeys slot₀ lane₀ hl₀
        have hkeys' : ∀ slot l, (rx.enqueue lane₀).lanes slot = some l → l.key.slot = slot := by
          intro slot l hl
          by_cases hs : slot = lane₀.key.slot
          · subst hs
            cases (Function.update_self ..).symm.trans hl
            rfl
          · exact hkeys slot l ((Function.update_of_ne hs ..).symm.trans hl)
        by_cases hs : slot = lane₀.key.slot
        · -- this is the lane that was queued
          have heq : lane = lane₀ := by
            rw [hs, hslot, hl₀] at hl
            exact (Option.some.inj hl).symm
          subst heq
          have hl' : (rx.enqueue lane).lanes slot = some { lane with queued := true } := by
            rw [hs]
            exact Function.update_self ..
          obtain ⟨l, hlast, hix, hq⟩ := ih hkeys' hl' hp (.inr rfl)
          exact ⟨l, hlast, hix, hq⟩
        · refine ih hkeys' ((Function.update_of_ne hs ..).trans hl) hp (hm.imp_left fun hm => ?_)
          exact (List.mem_cons.mp hm).resolve_left fun h => hs (h.trans hslot.symm)
      · next hq =>
        refine ih hkeys hl hp ?_
        by_cases hs : slot = slot₀
        · subst hs
          cases hl₀.symm.trans hl
          exact .inr (by simpa [hp] using hq)
        · exact hm.imp_left fun hm => (List.mem_cons.mp hm).resolve_left hs
    · next hnone =>
      refine ih hkeys hl hp (hm.imp_left fun hm => (List.mem_cons.mp hm).resolve_left ?_)
      rintro rfl
      cases hl.symm.trans hnone

/-- The lane is registered, and not one that the receiver holds and has paused. -/
structure Expected (rx : Receiver) (ℓ t : Nat) (s : Chan V) : Prop where
  le : t ≤ s.trace.length
  lt : ℓ < s.count
  stage : s.stage ℓ ≠ .retired
  shut : s.shut ℓ = false
  free : ∀ lane, rx.lanes (s.key ℓ).slot = some lane → lane.ix = ℓ →
    rx.paused (s.key ℓ).slot = false

theorem Expected.kept : Kept P S x rx' (Expected (V := V) rx ℓ t) :=
  fun s s' _ hc hℓ ha _ h => by
    have hf := ha.frame hc hℓ
    refine ⟨hf.trace ▸ h.le, lt_of_lt_of_le h.lt hf.count, ?_, ?_, ?_⟩
    · rw [hf.stage ℓ h.lt]
      exact h.stage
    · rw [hf.shut ℓ h.lt]
      exact h.shut
    · rw [hf.key ℓ h.lt]
      exact h.free

theorem Expected.takePending (h : Expected rx ℓ t s) :
    Expected rx ℓ t (Receiver.takePending s).2 := by
  refine { h with stage := ?_ }
  simp only [Receiver.takePending]
  split
  · simp
  · exact h.stage

/-- Once the registry was read, the receiver holds the lane. -/
theorem View.expected (hv : View S x rx' s) (hc : Core P s) (hA : Adopts rx rx')
    (hgen : rx'.seenRegistryGeneration = s.registryGeneration) (h : Expected rx ℓ t s) :
    ∃ slot lane, rx'.lanes slot = some lane ∧ lane.ix = ℓ ∧ rx'.paused slot = false := by
  have hpending : s.registry.pending = [] := (hv.roster.seen_eq hgen).1
  have hst : s.stage ℓ = .adopted := by
    cases hst : s.stage ℓ with
    | adopted => rfl
    | retired => exact absurd hst h.stage
    | pending =>
      have := (hc.mem_pending ℓ).mpr ⟨h.lt, hst⟩
      simp [hpending] at this
  obtain ⟨e, he, hix⟩ := hv.roster.adopted ℓ h.lt hst h.shut
  obtain ⟨lane, hl, rfl⟩ := Option.map_eq_some_iff.mp he
  refine ⟨_, lane, hl, hix, ?_⟩
  rcases hA.fresh _ lane hl with hold | hp
  · exact (hA.lanes _ lane hold).2.trans (h.free lane hold hix)
  · exact hp

theorem pollAllLanes_queues :
    Triple (recvC P S) (fun s => View S (.holding h c n) rx s ∧ Expected rx ℓ t s) rx.pollAllLanes
      fun rx' s => rx.active <+: rx'.active ∧ rx'.Queues ℓ ∧ View S (.holding h c n) rx' s ∧
        t ≤ s.trace.length := by
  have hcalm : (Ctx.holding h c n).Calm := Ctx.holding_calm
  have hle : ∀ rx', Kept P S (.holding h c n) rx' fun s : Chan V => t ≤ s.trace.length :=
    fun rx' s s' _ hc hℓ ha _ h => by
      show t ≤ s'.trace.length
      rwa [(ha.frame hc hℓ).trace]
  refine Triple.seq (refreshRegistry_adopts (b := false) (R := Expected rx ℓ t)
    (Y := fun rx₁ s => (Adopts rx rx₁ ∧
      ∃ slot lane, rx₁.lanes slot = some lane ∧ lane.ix = ℓ ∧ rx₁.paused slot = false) ∧
      View S (.holding h c n) rx₁ s ∧ t ≤ s.trace.length) hcalm (List.Subset.refl _) (by simp)
    Expected.kept (fun s _ h => h.takePending)
    (fun rx₁ => (Contract.Stable.pure _).and (hle rx₁).stable)
    fun s rx₁ hc hA hgen hv hr => ⟨⟨hA, hv.expected hc hA hgen hr⟩, hv, hr.le⟩) fun rx₁ => ?_
  -- what is queued is known before the rotation is written down
  refine Triple.given
    (φ := rx.active <+: (Receiver.enqueueAll (List.range rx₁.lanesLen) rx₁).active ∧
    (Receiver.enqueueAll (List.range rx₁.lanesLen) rx₁).Queues ℓ) (fun s _ hr => ?_) fun hq => ?_
  · obtain ⟨⟨hA, slot, lane, hl, hix, hp⟩, hv, -⟩ := hr.now
    have hlt := (hv.roster.slot_lt slot _ (Receiver.skel_lane hl)).1
    obtain ⟨l, hl', hix', hq⟩ := enqueueAll_lane (List.range rx₁.lanesLen)
      (fun slot l hl => (hv.copyOf_lane hl).1) hl hp (.inl (List.mem_range.mpr hlt))
    exact ⟨hA.active ▸ (enqueueAll_grown _).active,
      slot, l.skel, Receiver.skel_lane hl', hix'.trans hix, hq⟩
  · exact Triple.map ((queueAll_spec _ hcalm (hle _) fun s e h =>
      h.trans (by simp [Chan.record])).pre fun s _ hr => hr.now.2)
      fun _ s _ hr => ⟨hq.1, hq.2, hr⟩

/-! ## One scan -/

/-- The terms of a call that is to see the lane empty. -/
def Terms.seeing (ℓ t : Nat) : Terms := { scan := some (ℓ, t) }

theorem View.seek {b : Bool} (hv : View (.watching b .none .none) x rx s) (hx : x.refused = false)
    (ht : t ≤ s.trace.length) (hq : rx.Queues ℓ) :
    View (.watching b (.seeing ℓ t) .none) x rx s :=
  { hv with
    scan := fun ℓ' t' h => by
      cases h
      exact ⟨ht, .inr hq⟩
    refused := fun h => absurd (hx.symm.trans h) (by simp) }

/-- The call was stopped by its limit or its predicate, or it saw the lane empty. -/
def Saw (ℓ t limit : Nat) (output : List (Item V)) (s : Chan V) : Prop :=
  output.length = limit ∨ Refused t s.trace ∨ .seenEmpty ℓ ∈ s.trace.drop t

theorem Saw.undisturbed {limit : Nat} {output : List (Item V)} :
    Undisturbed P (Saw ℓ t limit output) := fun s s' _ hc hℓ ha h => by
  rwa [Saw, (ha.frame hc hℓ).trace]

/-- With nothing left in the rotation, the lane was seen empty. -/
theorem View.saw_of_nil {b : Bool} (hv : View (.watching b (.seeing ℓ t) .none) x rx s)
    (hx : x.out = none) (hact : rx.active = []) : .seenEmpty ℓ ∈ s.trace.drop t := by
  rcases (hv.scan ℓ t rfl).seen with hseen | ⟨slot, e, he, hix, hq⟩
  · exact hseen
  · have hkey := (hv.roster.held slot e he).2.1
    have := (hv.roster.queued e.key).mpr ⟨e, by rw [hkey]; exact he, rfl, hq⟩
    rw [hx] at this
    have hact : rx.skel.active = [] := hact
    simp [hact] at this

/-- With no lane registered, the lane was seen empty. -/
theorem View.saw_of_over {b : Bool} (hv : View (.watching b (.seeing ℓ t) .none) x rx s)
    (hc : Core P s) (ho : Over s) : .seenEmpty ℓ ∈ s.trace.drop t := by
  rcases (hv.scan ℓ t rfl).seen with hseen | ⟨slot, e, he, -, -⟩
  · exact hseen
  · obtain ⟨-, -, hlt, hst, -⟩ := hv.roster.held slot e he
    have hpos : 0 < Mpsc.laneCount s.count s.stage :=
      Finset.card_pos.mpr ⟨e.ix, by simp [hlt, hst]⟩
    have := hc.registered.symm.trans ho.2
    omega

theorem BatchReturned.saw {b : Bool} {limit : Nat} {accept : Option (List V → V → Bool)}
    {r : List (Item V) × Except RecvError Nat} (hc : Core P s)
    (hr : BatchReturned (.watching b (.seeing ℓ t) .none) limit accept [] false rx s r) :
    Saw ℓ t limit r.1 s := by
  obtain ⟨output, result⟩ := r
  obtain ⟨-, n, hn⟩ := hr
  match result with
  | .ok m =>
    obtain ⟨-, -, refused, hend, hv⟩ := hn
    rcases hend with rfl | hlen | hact
    · exact .inr (.inl (hv.refused rfl ℓ t rfl))
    · exact .inl hlen
    · exact .inr (.inr (hv.saw_of_nil rfl hact))
  | .error .empty => exact .inr (.inr (hn.2.2.1.saw_of_nil rfl hn.2.2.2))
  | .error .disconnected => exact .inr (.inr (hn.2.2.1.saw_of_over hc hn.2.2.2))
  | .error .timeout => exact hn.2.2.elim

/-- What a scan leaves, and what it is known to have seen. -/
def Scanned.Ends (ℓ t limit : Nat) (s : Chan V) : Prop :=
  Resting false (.seeing ℓ t) s ∧ ∃ output result,
    s.history.getLast? = some (.batch output result) ∧ Saw ℓ t limit output s

theorem tryRecvScan_sees (limit : Nat) (accept : List V → V → Bool) :
    Triple (recvC P (.watching false .none .none))
      (fun s => View (.watching false .none .none) (.holding [] false 0) s.rx s ∧
        Expected s.rx ℓ t s)
      ((RecvOp.tryRecvScan limit accept).code P) fun _ => Scanned.Ends (V := V) ℓ t limit := by
  refine Triple.bind (readRx_spec (Q := fun rx s =>
    View (.watching false .none .none) (.holding [] false 0) rx s ∧ Expected rx ℓ t s)
    fun rx => Expected.kept.stable) fun rx => ?_
  refine Triple.bind
    (Q := fun r s => Answers P false (.seeing ℓ t) true (.batch r.1.1 r.1.2) r.2 s ∧
    Saw ℓ t limit r.1.1 s) ?_ fun ⟨r, rx₂⟩ => ?_
  · refine Triple.seq pollAllLanes_queues fun rx₁ => ?_
    refine Triple.given (fun s _ hr => hr.now.2.1) fun hq => ?_
    exact (tryRecvBatch_spec (S := .watching false (.seeing ℓ t) .none) limit (some accept)
      (by simp [Setting.watching]) Setting.urgent_watching rfl).conseq
      (fun s _ hr => hr.now.2.2.1.seek rfl hr.now.2.2.2 hq)
      fun r s hi hr => ⟨hr.answers hi.core, hr.saw hi.core⟩
  · exact (reply_with (k := .seeing ℓ t) (R := Saw ℓ t limit r.1) (by simp) Saw.undisturbed
      fun _ _ h => h).post fun _ s _ hr => ⟨hr.1.1, r.1, r.2, hr.2.1.2, hr.2.2⟩

/-- Whatever it has seen, a scan answers. -/
theorem tryRecvScan_answers (limit : Nat) (accept : List V → V → Bool) :
    Triple (recvC P (.watching false .none .none))
      (fun s => View (.watching false .none .none) (.holding [] false 0) s.rx s)
      ((RecvOp.tryRecvScan limit accept).code P) fun _ s => Resting false .none s ∧
        ∃ output result, (s : Chan V).history.getLast? = some (.batch output result) := by
  refine Triple.bind (readRx_spec (Q := View (.watching false .none .none) (.holding [] false 0))
    fun rx => View.stable) fun rx => ?_
  refine Triple.bind ((tryRecvScan_spec limit accept (by simp [Setting.watching])
    Setting.urgent_watching rfl).post
    fun r s hi hr => And.intro (hr.answers hi.core) trivial) fun ⟨r, rx₂⟩ => ?_
  exact (reply_with (R := fun _ => True) (by simp) (fun _ _ _ _ _ _ h => h) fun _ _ h => h).post
    fun _ s _ hr => ⟨hr.1.1, r.1, r.2, hr.2.1.2⟩

/-- The rotation goes on from where it was. -/
theorem pollAllLanes_prefix {rx₀ : Receiver} :
    Triple (recvC P (.watching false .none .none))
      (fun s => View (.watching false .none .none) (.holding [] false 0) s.rx s ∧ s.rx = rx₀)
      (RecvOp.pollAllLanes.code P) fun _ s => rx₀.active <+: (s : Chan V).rx.active := by
  refine Triple.bind (readRx_spec (Q := fun rx s =>
    View (.watching false .none .none) (.holding [] false 0) rx s ∧ rx = rx₀)
    fun rx => (Kept.pure _).stable) fun rx => ?_
  refine Triple.given (fun s _ hr => hr.2) ?_
  rintro rfl
  refine Triple.seq (pollAllLanes_spec.pre fun s _ hr => hr.1) fun rx₁ => ?_
  refine Triple.given (fun s _ hr => hr.now.1.active) fun hpre => ?_
  refine (reply_with (b := false) (k := .none) (o := false) (r := .control true)
    (R := fun _ => True) (by simp) (fun _ _ _ _ _ _ h => h) fun _ _ h => h).conseq
    (fun s _ hr => ⟨.of hr.now.2 (.nil rfl) rfl, trivial⟩) fun _ s _ hr => ?_
  rw [hr.2.1.1]
  exact hpre

/-! ## What was published is delivered -/

/-- No step of a sender takes back what was published. -/
theorem SenderAct.grows (ha : SenderAct P ℓ' s s') (hℓ : ℓ < s.count) :
    (s.ring ℓ).log <+: (s'.ring ℓ).log ∧ (s.ring ℓ).tail ≤ (s'.ring ℓ).tail := by
  cases ha with
  | ring r hr =>
    by_cases hne : ℓ = ℓ'
    · subst hne
      simpa [ringL] using ⟨hr.log, hr.tail⟩
    · simp [ringL, hne]
  | register capacity => simp [Sender.register, hℓ.ne]
  | _ => exact ⟨List.prefix_rfl, le_rfl⟩

/-- The first `m` values of the lane are `vs`, and they are popped by the time the lane was seen
    empty. -/
structure Due (ℓ t : Nat) (vs : List V) (s : Chan V) : Prop where
  lt : ℓ < s.count
  log : vs <+: (s.ring ℓ).log
  tail : vs.length ≤ (s.ring ℓ).tail
  le : t ≤ s.trace.length
  seen : .seenEmpty ℓ ∈ s.trace.drop t → vs.length ≤ (ofLane ℓ (popped s.trace)).length

theorem Due.guar {u : Tid} {vs : List V} (h : Due ℓ t vs s) (hc : Core P s) (hg : guar P u s s') :
    Due ℓ t vs s' := by
  cases u with
  | rx =>
    obtain ⟨es, hes, hseen, -⟩ := hg.recorded
    have hring := hg.ring ℓ
    refine ⟨hg.count ▸ h.lt, hring.log ▸ h.log, hring.tail ▸ h.tail, ?_, fun hm => ?_⟩
    · rw [hes, List.length_append]
      exact le_trans h.le (Nat.le_add_right ..)
    · rw [hes, List.drop_append_of_le_length h.le, List.mem_append] at hm
      rcases hm with hm | hm
      · rw [hes, popped_append, ofLane_append, List.length_append]
        exact le_trans (h.seen hm) (Nat.le_add_right ..)
      · exact le_trans (hring.tail ▸ h.tail) (hseen ℓ hm)
  | tx ℓ' =>
    rcases hg with rfl | ⟨hℓ', ha⟩
    · exact h
    · have hf := ha.frame hc hℓ'
      obtain ⟨hlog, htail⟩ := ha.grows h.lt
      exact ⟨lt_of_lt_of_le h.lt hf.count, h.log.trans hlog, le_trans h.tail htail,
        hf.trace ▸ h.le, hf.trace ▸ h.seen⟩

/-- What the ring holds as published when the call starts. -/
theorem Due.start (hℓ : ℓ < s.count) :
    Due ℓ s.trace.length ((s.ring ℓ).log.take (s.ring ℓ).tail) s :=
  ⟨hℓ, List.take_prefix .., List.length_take_le .., le_rfl, by simp⟩

theorem Due.delivered {vs : List V} (h : Due ℓ t vs s) (hc : Core P s)
    (hseen : .seenEmpty ℓ ∈ s.trace.drop t) : vs <+: ofLane ℓ (popped s.trace) :=
  List.prefix_of_prefix_length_le h.log (hc.lane ℓ).popped_le (h.seen hseen)

/-! ## Every run -/

/-- At rest, everything popped was returned. -/
theorem Resting.returned {b : Bool} {k : Terms} (h : Resting b k s) :
    popped s.trace = s.returned.map Item.pair := by
  have := h.view.hand
  simpa [Ctx.base] using this

theorem Between.expected (hb : Between false s) (hreg : s.Registered ℓ) (hp : ¬ s.Paused ℓ) :
    Expected s.rx ℓ s.trace.length s where
  le := le_rfl
  lt := hreg.1
  stage := hreg.2
  shut := by
    by_contra hsh
    have hsh : s.shut ℓ = true := by simpa using hsh
    cases hst : s.stage ℓ with
    | pending => exact absurd ((hb.view.roster.fresh ℓ hreg.1 hst).symm.trans hsh) (by simp)
    | adopted => exact absurd (hb.view.closing ℓ hreg.1 hst hsh) (by simp [Ctx.base])
    | retired => exact hreg.2 hst
  free lane hl hix := by
    obtain ⟨-, -, -, hst, -⟩ := hb.view.roster.held _ _ (Receiver.skel_lane hl)
    exact unpaused_slot hp (hix ▸ hst)

/-- No lane is twice in any rotation that lanes were put into. -/
def Unrepeated (s : Chan V) : Prop := ∀ keys, .queued keys ∈ s.trace → keys.Nodup

theorem Unrepeated.guar {u : Tid} (h : Unrepeated s) (hc : Core P s) (hg : guar P u s s') :
    Unrepeated s' := by
  intro keys hm
  cases u with
  | rx => exact (hg.rotation keys hm).elim (h keys) id
  | tx ℓ =>
    rcases hg with rfl | ⟨hℓ, ha⟩
    · exact h keys hm
    · exact h keys ((ha.frame hc hℓ).trace ▸ hm)

/-- **A scan leaves nothing behind.** In every run:
    - if a scan returns fewer values than its limit and its predicate refused none, then every lane
      that was registered and not paused when the scan was called was seen to be empty during it,
      and the receiver has returned every value that was published on the lane at the call;
    - queueing every lane keeps the order of those in the rotation;
    - no lane is in the rotation twice whenever the receiver is between operations or asleep, and
      inside its calls, whenever it has put a lane into the rotation. What else a call does to the
      rotation is to take lanes out and to put one it took out back. -/
theorem scan_complete {c : Config (Chan V) Tid} (h : Reaches V P c) :
    (∀ limit accept c₁ c₂,
      (system V P).exec c (.call .rx (.recv (.tryRecvScan limit accept))) = some c₁ →
      (system V P).During System.always .rx c₁ c₂ → c₂.pool .rx = none →
      ∃ output result, c₂.st.history.getLast? = some (.batch output result) ∧
        (output.length < limit → (∀ v, .asked v false ∉ c₂.st.trace.drop c.st.trace.length) →
          ∀ ℓ, c.st.Registered ℓ → ¬ c.st.Paused ℓ →
            .seenEmpty ℓ ∈ c₂.st.trace.drop c.st.trace.length ∧
            (c.st.ring ℓ).log.take (c.st.ring ℓ).tail <+:
              ofLane ℓ (c₂.st.returned.map Item.pair))) ∧
    (∀ c₁ c₂, (system V P).exec c (.call .rx (.recv .pollAllLanes)) = some c₁ →
      (system V P).During System.always .rx c₁ c₂ → c₂.pool .rx = none →
      c.st.rx.active <+: c₂.st.rx.active) ∧
    (c.pool .rx = none → c.st.receiverAlive = true →
      c.st.rx.active.Nodup ∧ ∀ slots, (Receiver.enqueueAll slots c.st.rx).active.Nodup) ∧
    (c.st.data.sleep = .asleep → c.st.rx.active.Nodup) ∧ Unrepeated c.st := by
  refine ⟨fun limit accept c₁ c₂ hcall hrun hback => ?_, fun c₁ c₂ hcall hrun hback => ?_,
    fun hrx halive => ?_, fun hasleep => (h.good.1.asleep hasleep).view.roster.nodup, ?_⟩
  · -- what is returned and what is seen are facts about one lane at a time
    have hends : ∀ ℓ, c.st.Registered ℓ → ¬ c.st.Paused ℓ →
        Inv P false c₂.st ∧ Scanned.Ends ℓ c.st.trace.length limit c₂.st := fun ℓ hreg hp =>
      h.returned (S := .watching false .none .none) rfl hcall hrun hback fun hi hb =>
        tryRecvScan_sees limit accept c.st hi ⟨hb.start, hb.expected hreg hp⟩
    obtain ⟨-, hrest, output, result, hlast⟩ := h.returned (S := .watching false .none .none) rfl
      hcall hrun hback fun hi hb => tryRecvScan_answers limit accept c.st hi hb.start
    refine ⟨output, result, hlast, fun hlt hasked ℓ hreg hp => ?_⟩
    obtain ⟨hinv, -, output', result', hlast', hsaw⟩ := hends ℓ hreg hp
    cases hlast.symm.trans hlast'
    have hseen : .seenEmpty ℓ ∈ c₂.st.trace.drop c.st.trace.length := by
      rcases hsaw with hlen | ⟨v, hv⟩ | hseen
      · exact absurd hlen hlt.ne
      · exact absurd hv (hasked v)
      · exact hseen
    have hrun' : (system V P).Run (outline V P false).ok c c₂ :=
      .head ⟨_, ok_always c _, hcall⟩
        (System.During.run (System.During.mono (fun c l _ => ok_always c l) hrun))
    have hdue := h.good.kept (fun u s s' hi _ hg hd => Due.guar hd hi.core hg) hrun'
      (Due.start hreg.1)
    refine ⟨hseen, ?_⟩
    rw [← hrest.returned]
    exact hdue.delivered hinv.core hseen
  · exact (h.returned (S := .watching false .none .none) rfl hcall hrun hback fun hi hb =>
      pollAllLanes_prefix c.st hi ⟨hb.start, rfl⟩).2
  · have hv := (h.between hrx halive).start
    exact ⟨hv.roster.nodup, fun slots =>
      (hv.enqueueAll slots Ctx.holding_calm).roster.nodup⟩
  · exact (good_start V P false).kept (fun u s s' hi _ hg hn => Unrepeated.guar hn hi.core hg)
      (System.Run.mono (fun c l _ => ok_always c l) h) (by simp [Unrepeated, start, Chan.initial])

/-- A value that was sent and not signaled: a scan puts its lane into the rotation, finds it, and
    sees the lane empty. -/
theorem scan_complete_unsignaled :
    let S := system Nat ⟨true, 0, 4⟩
    let c := S.after (start Nat ⟨true, 0, 4⟩)
      (System.turn (.tx 0) (.send (.trySendUnsignaled 7)) 7)
    let c₁ := S.after c [.call .rx (.recv (.tryRecvScan 4 fun _ _ => true))]
    let c' := S.after c₁ (List.replicate 20 (.step .rx 0))
    (.seenEmpty 0 ∈ c'.st.trace.drop c.st.trace.length ∧
      [7] <+: ofLane 0 (c'.st.returned.map Item.pair)) ∧
    Unrepeated c'.st ∧ .queued [⟨0, 0⟩] ∈ c'.st.trace := by
  intro S c c₁ c'
  have hreach : Reaches Nat ⟨true, 0, 4⟩ c := System.run_after (by decide +kernel)
  have hcall : S.exec c (.call .rx (.recv (.tryRecvScan 4 fun _ _ => true))) = some c₁ :=
    System.exec_after (by decide +kernel)
  have hduring : S.During System.always .rx c₁ c' := System.during_after (by decide +kernel)
  have hreach' : Reaches Nat ⟨true, 0, 4⟩ c' := (hreach.tail ⟨_, trivial, hcall⟩).trans hduring.run
  have hlog : (c.st.ring 0).log.take (c.st.ring 0).tail = [7] := by decide +kernel
  obtain ⟨output, result, hlast, hall⟩ := (scan_complete hreach).1 4 (fun _ _ => true) c₁ c' hcall
    hduring (by decide +kernel)
  have hlen : output.length < 4 := by
    have : c'.st.history.getLast?.any (fun r => decide (r.items.length < 4)) = true := by
      decide +kernel
    rw [hlast] at this
    exact of_decide_eq_true this
  have hasked : ∀ v, .asked v false ∉ c'.st.trace.drop c.st.trace.length := by
    intro v hm
    have : (c'.st.trace.drop c.st.trace.length).all
        (fun e => match e with | .asked _ b => b | _ => true) = true := by decide +kernel
    exact absurd (List.all_eq_true.mp this _ hm) (by simp)
  have hqueued : c'.st.trace.any (fun e => match e with
      | .queued keys => decide (keys = [⟨0, 0⟩])
      | _ => false) = true := by decide +kernel
  refine ⟨?_, (scan_complete hreach').2.2.2.2, ?_⟩
  rotate_left
  · obtain ⟨e, he, heq⟩ := List.any_eq_true.mp hqueued
    cases e with
    | queued keys => exact of_decide_eq_true heq ▸ he
    | _ => cases heq
  rw [← hlog]
  refine hall hlen hasked 0 ⟨by decide +kernel, by decide +kernel⟩ ?_
  rintro ⟨-, hpaused⟩
  revert hpaused
  decide +kernel

end Fanring.Mpsc
