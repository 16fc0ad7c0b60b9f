import Fanring.Mpsc.Waiting

/-!
# Pausing and resuming a lane

A paused lane is out of the rotation. Its readiness bits may be collected while it is, and then they
are dropped; its sender goes on, signaled or not, until the ring is full. So `resume` must not rely
on the bits: it marks the lane itself and puts it back into the rotation at once. From then on the
lane is in the rotation until it is seen empty (`Scanned`), and by that time everything that was in
its ring when `resume` was called has been received.
-/

set_option autoImplicit false

namespace Fanring.Mpsc

open Conc Chan

variable {V : Type} {P : Params} {s s' : Chan V} {ℓ n t : Nat} {k : Terms}
  {c c' : Config (Chan V) Tid}

/-! ## What the two operations leave -/

/-- The receiver is at rest, and if the last answer was that it succeeded, then this is so of its
    fields. -/
def Controlled (A : Receiver → Prop) (s : Chan V) : Prop :=
  Resting false .none s ∧ (s.history.getLast? = some (.control true) → A s.rx)

theorem reply_controlled {A : Receiver → Prop} {rx : Receiver} {b : Bool} (hA : b = true → A rx) :
    Triple (recvC P (.watching false .none .none))
      (fun s => View (.watching false .none .none) (.holding [] false 0) rx s)
      (rx.reply (.control b)) fun _ => Controlled (V := V) A := by
  refine (reply_with (o := false) (R := fun _ => True) (by simp) (fun _ _ _ _ _ _ h => h)
    fun _ _ h => h).conseq (fun s _ hv => ⟨.of hv (.nil rfl) rfl, trivial⟩) fun _ s _ h => ?_
  obtain ⟨hreturns, ⟨hrx, hlast⟩, -⟩ := h
  refine ⟨hreturns.1, fun htrue => ?_⟩
  rw [hrx]
  cases hlast.symm.trans htrue
  exact hA rfl

theorem pause_leaves (id : LaneId) :
    Triple (recvC P (.watching false .none .none)) (Between (V := V) false)
      ((RecvOp.pause id).code P) fun _ => Controlled (Paused id.key) := by
  refine Triple.bind ((readRx_spec (Q := View (.watching false .none .none) (.holding [] false 0))
    fun _ => View.stable).pre fun s _ h => h.start) fun rx => ?_
  refine Triple.seq (pause_spec (Setting.watching_plain ⟨rfl, rfl, rfl⟩) rfl id) fun r => ?_
  refine Triple.given (fun s _ hr => hr.now.1) fun hr => ?_
  refine (reply_controlled fun hb => ?_).pre fun s _ hr => hr.now.2
  rwa [if_pos hb] at hr

theorem resume_leaves (id : LaneId) (rx₀ : Receiver) :
    Triple (recvC P (.watching false .none .none))
      (fun s : Chan V => Between false s ∧ s.rx = rx₀) ((RecvOp.resume id).code P)
      fun _ => Controlled (Resumed id.key rx₀) := by
  refine Triple.bind ((readRx_spec (Q := fun rx s =>
    View (.watching false .none .none) (.holding [] false 0) rx s ∧ rx = rx₀)
    fun _ => (Kept.pure _).stable).pre fun s _ h => ⟨h.1.start, h.2⟩) fun rx => ?_
  refine Triple.given (fun s _ hr => hr.2) ?_
  rintro rfl
  refine Triple.seq ((resume_spec (Setting.watching_plain ⟨rfl, rfl, rfl⟩) id).pre
    fun s _ hr => hr.1) fun r => ?_
  refine Triple.given (fun s _ hr => hr.now.1) fun hr => ?_
  refine (reply_controlled fun hb => ?_).pre fun s _ hr => hr.now.2
  rwa [if_pos hb] at hr

/-! ## A lane that is kept back -/

/-- On the terms that no value of this lane is received. -/
def Terms.keeping (ℓ n : Nat) : Terms := { keep := some (ℓ, n) }

/-- A paused lane is one that the receiver holds. -/
theorem Between.paused (hb : Between false s) (hlt : ℓ < s.count) (hp : s.Paused ℓ) :
    s.shut ℓ = false ∧ ∃ lane, s.rx.lanes (s.key ℓ).slot = some lane ∧ lane.ix = ℓ := by
  have hshut : s.shut ℓ = false := by
    by_contra hshut
    exact absurd (hb.view.closing ℓ hlt hp.1 (by simpa using hshut)) (by simp [Ctx.base])
  obtain ⟨e, he, hix⟩ := hb.view.roster.adopted ℓ hlt hp.1 hshut
  obtain ⟨lane, hl, rfl⟩ := Option.map_eq_some_iff.mp he
  exact ⟨hshut, lane, hl, hix⟩

theorem Between.keeping (hb : Between false s) (hlt : ℓ < s.count) (hp : s.Paused ℓ) :
    Resting false (.keeping ℓ (ofLane ℓ (popped s.trace)).length) s := by
  refine ⟨{ hb.view with keep := fun ℓ' n hk => ?_ }, hb.active⟩
  cases hk
  exact ⟨hlt, (hb.paused hlt hp).1, by simp [hp.1], fun _ => hp.2, rfl⟩

/-- What was received of a lane between two rests. -/
theorem ofLane_since {k' : Terms} (hr : Resting false k s) (hr' : Resting false k' s')
    (hle : popped s.trace <+: popped s'.trace) :
    ofLane ℓ (popped s'.trace) =
      ofLane ℓ (popped s.trace) ++ ofLane ℓ ((s.since s').map Item.pair) := by
  rw [← hr.since hr', ← ofLane_append]
  congr 1
  obtain ⟨more, hmore⟩ := hle
  rw [← hmore, List.drop_left]

/-! ## A lane that is read to the end -/

theorem Between.seeing (hb : Between false s) (hq : s.rx.Queues ℓ) (ht : t ≤ s.trace.length) :
    Resting false (.seeing ℓ t) s := by
  refine ⟨{ hb.view with scan := fun ℓ' t hk => ?_, refused := fun h => by cases h }, hb.active⟩
  cases hk
  exact ⟨ht, .inr hq⟩

/-- A lane of the rotation has its place there. -/
theorem Resting.place (hr : Resting false k s) (hq : s.rx.Queues ℓ) :
    ∃ key lane ahead behind, s.rx.lane? key = some lane ∧ lane.ix = ℓ ∧
      s.rx.active = ahead ++ key :: behind := by
  obtain ⟨slot, e, he, hix, hqueued⟩ := hq
  have hslot := (hr.view.roster.held slot e he).2.1
  obtain ⟨lane, hl, rfl⟩ := Option.map_eq_some_iff.mp he
  have hmem : lane.key ∈ s.rx.active :=
    ((hr.view.roster.queued lane.key).mpr ⟨lane.skel, by rw [← hslot] at he; exact he, rfl,
      hqueued⟩).resolve_right (by simp [Ctx.base])
  obtain ⟨ahead, behind, hact⟩ := List.append_of_mem hmem
  refine ⟨lane.key, lane, ahead, behind, ?_, hix, hact⟩
  simp only [Receiver.lane?, Option.filter_eq_some_iff, decide_eq_true_eq, and_true]
  rw [← hslot] at hl
  exact hl

/-- A lane that was served has given one value more. -/
theorem Served.more {w : Wait} {u u' : List (Nat × V)} (h : Served w u')
    (hstart : w.start = u.length) (hle : u <+: u') :
    (ofLane w.lane u).length < (ofLane w.lane u').length := by
  obtain ⟨first, v, later, heq, -⟩ := h
  obtain ⟨more, rfl⟩ := hle
  rw [hstart, List.drop_left] at heq
  rw [heq, ofLane_append, ofLane_append, List.length_append, List.length_append]
  have : (ofLane w.lane ((w.lane, v) :: later)).length = (ofLane w.lane later).length + 1 := by
    simp [ofLane]
  omega

/-- Sooner or later a receiver that goes on receiving has got another value of a lane of the
    rotation that has one. -/
theorem Resting.receives {cs : Nat → Config (Chan V) Tid} (h : Reaches V P (cs 0))
    (hcs : ∀ i, (system V P).Rounds .rx (Op.Receives fun op => ∃ must, op.Takes must) 1
      (cs i) (cs (i + 1)))
    (hr : Resting false k (cs 0).st) (hq : (cs 0).st.rx.Queues ℓ)
    (hunread : (ofLane ℓ (popped (cs 0).st.trace)).length < ((cs 0).st.ring ℓ).tail) :
    ∃ i, (ofLane ℓ (popped (cs 0).st.trace)).length <
      (ofLane ℓ (popped (cs i).st.trace)).length := by
  obtain ⟨key, lane, ahead, behind, hlane, rfl, hact⟩ := hr.place hq
  have hshut := (hr.view.held (hr.view.copyOf_lane (lane?_some hlane).1).2).2.2.2
  have hlaneInv := h.good.1.core.lane lane.ix
  have hhead : ((cs 0).st.ring lane.ix).head < ((cs 0).st.ring lane.ix).tail := by
    rw [hlaneInv.popped_eq hshut, List.length_take, min_eq_left hlaneInv.ok.head_le_length]
      at hunread
    exact hunread
  have hwaiting := hr.between.waiting hlane hact hhead
  have hserved := hwaiting.served h rfl (.iterate hcs _) (Nat.lt_succ_self _)
  exact ⟨_, hserved.more rfl (popped_mono (h.grows (System.Rounds.iterate hcs _).run).trace)⟩

/-- **A lane of the rotation is read to the end** of what it held, by a receiver that goes on
    receiving. -/
theorem Due.comes {vs : List V} (d : Nat) {cs : Nat → Config (Chan V) Tid} (h : Reaches V P (cs 0))
    (hcs : ∀ i, (system V P).Rounds .rx (Op.Receives fun op => ∃ must, op.Takes must) 1
      (cs i) (cs (i + 1)))
    (hr : Resting false (.seeing ℓ t) (cs 0).st) (hdue : Due ℓ t vs (cs 0).st)
    (hd : vs.length ≤ (ofLane ℓ (popped (cs 0).st.trace)).length + d) :
    ∃ i, Resting false (.seeing ℓ t) (cs i).st ∧
      vs <+: ofLane ℓ (popped (cs i).st.trace) := by
  -- by how many values are still missing; each time the lane is in the rotation, or was seen empty
  induction d generalizing cs with
  | zero =>
    exact ⟨0, hr, List.prefix_of_prefix_length_le hdue.log (h.good.1.core.lane ℓ).popped_le hd⟩
  | succ d ih =>
    rcases (hr.view.scan ℓ t rfl).seen with hseen | hq
    · exact ⟨0, hr, hdue.delivered h.good.1.core hseen⟩
    by_cases hread : vs.length ≤ (ofLane ℓ (popped (cs 0).st.trace)).length
    · exact ⟨0, hr, List.prefix_of_prefix_length_le hdue.log (h.good.1.core.lane ℓ).popped_le hread⟩
    obtain ⟨j, hj⟩ := hr.receives h hcs hq (lt_of_lt_of_le (not_le.mp hread) hdue.tail)
    have hrounds := System.Rounds.iterate hcs j
    have hr' := hr.rounds (fun op hop => RecvOp.Admits.of_ordinary hop.choose_spec.ordinary rfl) h
      hrounds
    have hdue' := h.good.kept (fun u s s' hi _ hg hd => Due.guar hd hi.core hg)
      (hrounds.run.mono fun c l _ => ok_always c l) hdue
    have hreach : Reaches V P ((fun i => cs (j + i)) 0) := h.rounds hrounds
    obtain ⟨i, hi⟩ := ih hreach (fun i => hcs (j + i)) hr' hdue'
      (show _ ≤ (ofLane ℓ (popped (cs j).st.trace)).length + d by omega)
    exact ⟨j + i, hi⟩

/-- **A paused lane keeps its values, and gives all of them once it is resumed.** In every run, with
    any steps of the senders between and during the receiver's operations:
    - a `pause` that succeeds leaves the lane paused, with every consumed slot published;
    - as long as it is paused, no ordinary receive returns a value of it;
    - a `resume` that succeeds puts it into the rotation, and a receiver that goes on receiving gets
      all that was in its ring when `resume` was called, in order, whether it had been signaled or
      not. -/
theorem paused_lane_keeps_values (h : Reaches V P c) :
    (∀ id c₁ c₂, (system V P).exec c (.call .rx (.recv (.pause id))) = some c₁ →
      (system V P).During System.always .rx c₁ c₂ → c₂.pool .rx = none →
      c₂.st.history.getLast? = some (.control true) →
      ∃ ℓ < c₂.st.count, c₂.st.key ℓ = id.key ∧ c₂.st.Paused ℓ ∧
        (c₂.st.ring ℓ).released = (c₂.st.ring ℓ).head) ∧
    (c.pool .rx = none → c.st.receiverAlive = true → ∀ ℓ < c.st.count, c.st.Paused ℓ →
      ∀ n c', (system V P).Rounds .rx (Op.Receives fun op => op.ordinary = true) n c c' →
        (∀ i ∈ c.st.since c'.st, i.lane ≠ ℓ) ∧ (c'.st.stage ℓ = .adopted → c'.st.Paused ℓ)) ∧
    ∀ ℓ < c.st.count, c.st.Paused ℓ → ∀ id c₁, c.st.key ℓ = id.key →
      (system V P).exec c (.call .rx (.recv (.resume id))) = some c₁ →
      ∀ c₂, (system V P).During System.always .rx c₁ c₂ → c₂.pool .rx = none →
      c₂.st.history.getLast? = some (.control true) →
      c.st.key ℓ ∈ c₂.st.rx.active ∧
        ∀ cs : Nat → Config (Chan V) Tid, cs 0 = c₂ →
          (∀ i, (system V P).Rounds .rx (Op.Receives fun op => ∃ must, op.Takes must) 1
            (cs i) (cs (i + 1))) →
          ∃ i, ((c.st.ring ℓ).log.take (c.st.ring ℓ).tail).drop (c.st.ring ℓ).head <+:
            ofLane ℓ ((c.st.since (cs i).st).map Item.pair) := by
  refine ⟨fun id c₁ c₂ hcall hrun hback hlast => ?_, fun hidle halive ℓ hlt hp n c' hrun => ?_,
    fun ℓ hlt hp id c₁ hkey hcall c₂ hrun hback hlast => ?_⟩
  · obtain ⟨hinv, hrest, hpaused⟩ := h.returned (S := .watching false .none .none) rfl hcall hrun
      hback fun hi hb => pause_leaves id c.st hi hb
    obtain ⟨hp, lane, hl, hkey, hunreleased, hfast⟩ := hpaused hlast
    obtain ⟨hk, hlt, hst, -⟩ := hrest.view.held (hrest.view.copyOf_lane hl).2
    have hcredit := (hrest.view.counters _ lane hl (by simp [Ctx.base])).credit
    refine ⟨lane.ix, hlt, hk.symm.trans hkey, ⟨hst, ?_⟩, by omega⟩
    rw [← hk, hkey]
    exact hp
  · have hb := h.between hidle halive
    have hr := hb.keeping hlt hp
    have hr' := hr.rounds (fun op hop => RecvOp.Admits.of_ordinary hop rfl) h hrun
    obtain ⟨-, -, -, hpaused, hcount⟩ := hr'.view.keep ℓ _ rfl
    refine ⟨fun i hi heq => ?_, fun hst => ⟨hst, hpaused hst⟩⟩
    rw [ofLane_since hr hr' (popped_mono (h.grows hrun.run).trace), List.length_append] at hcount
    have hmem : i.value ∈ ofLane ℓ ((c.st.since c'.st).map Item.pair) := by
      simp only [ofLane, List.mem_map, List.mem_filter, decide_eq_true_eq]
      exact ⟨i.pair, ⟨⟨i, hi, rfl⟩, heq⟩, rfl⟩
    have := List.length_pos_of_mem hmem
    omega
  · obtain ⟨hidle, hmay, -⟩ := System.exec_call hcall
    have hb : Between false c.st := h.between hidle hmay
    obtain ⟨hshut, lane, hl, -⟩ := hb.paused hlt hp
    obtain ⟨hinv, hrest, hresumed⟩ := h.returned (S := .watching false .none .none) rfl hcall hrun
      hback fun hi hb => resume_leaves id c.st.rx c.st hi ⟨hb, rfl⟩
    have hmem : c.st.key ℓ ∈ c₂.st.rx.active := by
      rw [hkey] at hl ⊢
      exact (hresumed hlast).2 lane hl (hkey ▸ hp.2)
    refine ⟨hmem, fun cs hcs₀ hcs => ?_⟩
    have hrun₂ : (system V P).Run System.always c c₂ := .head ⟨_, trivial, hcall⟩ hrun.run
    have hgrows := h.grows hrun₂
    have hqueues : c₂.st.rx.Queues ℓ := by
      obtain ⟨e, he, hek, hq⟩ := (hrest.view.roster.queued _).mp (.inl hmem)
      obtain ⟨hheld, -, hlt', -⟩ := hrest.view.roster.held _ e he
      refine ⟨_, e, he, ?_, hq⟩
      exact hinv.core.keys.distinct _ hlt' _ (lt_of_lt_of_le hlt hgrows.count)
        (hheld.symm.trans (hek.trans (hgrows.key ℓ hlt).symm))
    have hdue := h.good.kept (fun u s s' hi _ hg hd => Due.guar hd hi.core hg)
      (hrun₂.mono fun c l _ => ok_always c l) (Due.start hlt)
    subst hcs₀
    have hreach : Reaches V P (cs 0) := Relation.ReflTransGen.trans h hrun₂
    obtain ⟨i, hr, hall⟩ :=
      Due.comes _ hreach hcs (Between.seeing hrest hqueues hgrows.trace.length_le)
      hdue (Nat.le_add_left ..)
    refine ⟨i, ?_⟩
    have hle : popped c.st.trace <+: popped (cs i).st.trace :=
      popped_mono (h.grows (hrun₂.trans (System.Rounds.iterate hcs i).run)).trace
    have hok := (h.good.1.core.lane ℓ).ok
    rw [ofLane_since hb hr hle, (h.good.1.core.lane ℓ).popped_eq hshut] at hall
    have hsplit := List.take_append_drop (c.st.ring ℓ).head
      ((c.st.ring ℓ).log.take (c.st.ring ℓ).tail)
    rw [List.take_take, min_eq_left (hok.head_le.trans hok.cachedTail_le)] at hsplit
    rw [← hsplit] at hall
    exact (List.prefix_append_right_inj _).mp hall

/-- Three values were sent, the last one unsignaled, one was received, and the lane is paused. -/
def backlogged : Config (Chan Nat) Tid :=
  (system Nat ⟨true, 0, 4⟩).after (start Nat ⟨true, 0, 4⟩) (List.flatten [
    System.turn (.tx 0) (.send (.trySend 6)) 13, System.turn (.tx 0) (.send (.trySend 7)) 9,
    System.turn (.tx 0) (.send (.trySendUnsignaled 8)) 7,
    System.turn .rx (.recv (.tryRecv false)) 15,
    System.turn .rx (.recv (.pause ⟨⟨0, 0⟩, 0⟩)) 6])

/-- The other two stay where they are until the lane is resumed, and then both are received. -/
theorem paused_lane_keeps_values_backlogged :
    let S := system Nat ⟨true, 0, 4⟩
    let c' := S.after (S.after backlogged [.call .rx (.recv (.resume ⟨⟨0, 0⟩, 0⟩))])
      (List.replicate 6 (.step .rx 0))
    (∀ n c, S.Rounds .rx (Op.Receives fun op => op.ordinary = true) n backlogged c →
      ∀ i ∈ backlogged.st.since c.st, i.lane ≠ 0) ∧
    c'.st.rx.active = [⟨0, 0⟩] ∧
    ∀ cs : Nat → Config (Chan Nat) Tid, cs 0 = c' →
      (∀ i, S.Rounds .rx (Op.Receives fun op => ∃ must, op.Takes must) 1 (cs i) (cs (i + 1))) →
      ∃ i, [7, 8] <+: ofLane 0 ((backlogged.st.since (cs i).st).map Item.pair) := by
  intro S c'
  have hreach : Reaches Nat ⟨true, 0, 4⟩ backlogged := System.run_after (by decide +kernel)
  have hpaused : backlogged.st.Paused 0 := ⟨by decide +kernel, by decide +kernel⟩
  have hlt : 0 < backlogged.st.count := by decide +kernel
  obtain ⟨-, hkept, hresumed⟩ := paused_lane_keeps_values hreach
  refine ⟨fun n c hrun => (hkept (Option.isNone_iff_eq_none.mp (by decide +kernel))
    (by decide +kernel) 0 hlt hpaused n c hrun).1, by decide +kernel, fun cs hcs₀ hcs => ?_⟩
  have hbacklog : ((backlogged.st.ring 0).log.take (backlogged.st.ring 0).tail).drop
      (backlogged.st.ring 0).head = [7, 8] := by decide +kernel
  have hlast : c'.st.history.getLast?.any (fun r => match r with
      | .control b => b
      | _ => false) = true := by decide +kernel
  obtain ⟨r, hr, htrue⟩ := (Option.any_eq_true _ _).mp hlast
  have hr : c'.st.history.getLast? = some (.control true) := by
    cases r with
    | control b => rw [hr, show b = true from htrue]
    | _ => cases htrue
  rw [← hbacklog]
  exact (hresumed 0 hlt hpaused ⟨⟨0, 0⟩, 0⟩ _ (by decide +kernel)
    (System.exec_after (by decide +kernel)) c' (System.during_after (by decide +kernel))
    (Option.isNone_iff_eq_none.mp (by decide +kernel)) hr).2 cs hcs₀ hcs

end Fanring.Mpsc
