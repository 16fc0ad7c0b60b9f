import Fanring.Mpsc.CollectSpec

/-!
# The MPSC channel: the end of lanes, and of the channel

Triples for `retire_lane`, for closing a lane, and for what a receive that found no value answers. A
lane is retired once its sender has left and everything in it was received; the channel is drained
once no sender and no lane is left.
-/

set_option autoImplicit false

namespace Fanring.Mpsc

open Conc Chan

variable {V : Type} {P : Params} {S : Setting} {s s' : Chan V} {ℓ : Nat} {x : Ctx V}
  {rx rx' : Receiver} {lane lane' : Lane} {key : LaneKey}

/-! ## Closing a ring -/

/-- Every step on the consumer's side of the ring leads from `I` to `J`. -/
def Begins (P : Params) (S : Setting) (ℓ : Nat) (ghost : Chan V → Chan V) (I J : Chan V → Prop) :
    Prop :=
  ∀ s r, Inv P S.strict s → I s → (s.ring ℓ).ConsumeStep r → r.Ok →
    RecvStep P S s (ghost ((ringL ℓ).set r s)) ∧ J (ghost ((ringL ℓ).set r s))

/-- The receiver's view does not depend on the bookkeeping of closes. -/
theorem View.setClosings (hv : View S x rx s) (closings : Nat → Nat) :
    View S x rx { s with closings := closings } :=
  { hv with
    roster := { hv.roster with }
    index := { hv.index with
      held := fun slot e he hx => { hv.index.held slot e he hx with }
      fresh := fun ℓ hℓ hst => { hv.index.fresh ℓ hℓ hst with } }
    counters := fun slot l hl hx => (hv.counters slot l hl hx).frame (.refl _)
    budget := fun hst => { hv.budget hst with }
    aim := hv.aim.step le_rfl rfl id (fun _ _ _ _ ht => { ht with }) fun _ hall => hall
    keep := fun ℓ n hk => { hv.keep ℓ n hk with } }

/-- What a teardown keeps. -/
def Teardown (P : Params) (S : Setting) (ℓ : Nat) (ghost : Chan V → Chan V) (J : Chan V → Prop) :
    Prop :=
  Begins P S ℓ ghost J J

/-- The lane is closed for its sender. -/
def Shut (P : Params) (ℓ : Nat) (s : Chan V) : Prop := (s.ring ℓ).isClosed P.coordinated = true

theorem Shut.sender (h : Shut P ℓ s) (hℓ : ℓ < s.count) {ℓ' : Nat} (ha : SenderAct P ℓ' s s') :
    Shut P ℓ s' := by
  cases ha with
  | ring r hr hopen _ =>
    by_cases hne : ℓ = ℓ'
    · subst hne
      simpa only [Shut, ringL, Function.update_self] using hr.isClosed h
    · simpa only [Shut, ringL, Function.update_of_ne hne] using h
  | register capacity halive hgone =>
    simpa only [Shut, Sender.register, Function.update_of_ne hℓ.ne] using h
  | space | swap | page | group | bump | wake | signal | reply | leave => exact h

theorem Shut.stable {J : Chan V → Prop} (hJ : (recvC P S).Stable J)
    (hlt : ∀ s, J s → ℓ < s.count) : (recvC P S).Stable fun s => J s ∧ Shut P ℓ s := by
  have h : (recvC P S).Stable fun s : Chan V => ℓ < s.count ∧ Shut P ℓ s :=
    recvC_stable fun s s' ℓ' hc hℓ ha h =>
      ⟨lt_of_lt_of_le h.1 (ha.frame hc hℓ).count, h.2.sender h.1 ha⟩
  exact fun s s' hs hs' hr hj =>
    ⟨hJ s s' hs hs' hr hj.1, (h s s' hs hs' hr ⟨hlt s hj.1, hj.2⟩).2⟩

section

variable {β : Type} {f : Ring V → β × Ring V} {first ghost : Chan V → Chan V} {I J : Chan V → Prop}

/-- One access of a teardown. -/
theorem closeStep_spec (hI : (recvC P S).Stable I) (hJ : (recvC P S).Stable J)
    (h : Begins P S ℓ ghost I J)
    (hf : ∀ r : Ring V, r.Ok → r.ConsumeStep (f r).2 ∧ (f r).2.Ok) :
    Triple (recvC P S) I ((ringL ℓ).accessWith (fun _ => ghost) f) fun _ => J :=
  recv_atomic hI (fun _ => hJ) fun s hi hj => by
    obtain ⟨h₁, h₂⟩ := hf (s.ring ℓ) (hi.core.lane ℓ).ok
    exact h s _ hi hj h₁ h₂

theorem consumeStep_discardAll {r : Ring V} (h : r.Ok) :
    r.ConsumeStep r.discardAll.2 ∧ r.discardAll.2.Ok :=
  ⟨{ Ring.ConsumeStep.refl r with head := le_trans h.head_le h.cachedTail_le }, h.discardAll⟩

theorem consumeStep_release {r : Ring V} (h : r.Ok) :
    r.ConsumeStep r.release.2 ∧ r.release.2.Ok := ⟨{ Ring.ConsumeStep.refl r with }, h.release⟩

theorem consumeStep_dropConsumer {r : Ring V} (h : r.Ok) :
    r.ConsumeStep r.dropConsumer.2 ∧ r.dropConsumer.2.Ok :=
  ⟨{ Ring.ConsumeStep.refl r with consumerDropped := fun _ => rfl }, { h with }⟩

theorem consumeStep_handOver {r : Ring V} (h : r.Ok) :
    r.ConsumeStep r.handOver.2 ∧ r.handOver.2.Ok := by
  simp only [Ring.handOver]
  split
  · exact ⟨{ Ring.ConsumeStep.refl r with closed := fun _ => rfl }, { h with }⟩
  · exact ⟨{ Ring.ConsumeStep.refl r with closed := fun _ => rfl }, { h with }⟩

/-- The access that closes the ring. -/
theorem closeLast_spec (hJ : (recvC P S).Stable J)
    (hJ' : (recvC P S).Stable fun s => J s ∧ Shut P ℓ s) (h : Teardown P S ℓ ghost J)
    (hghost : ∀ s, (ghost s).ring = s.ring)
    (hf : ∀ r : Ring V, r.Ok → r.ConsumeStep (f r).2 ∧ (f r).2.Ok)
    (hc : ∀ r : Ring V, (f r).2.isClosed P.coordinated = true) :
    Triple (recvC P S) J ((ringL ℓ).accessWith (fun _ => ghost) f) fun _ s => J s ∧ Shut P ℓ s :=
  recv_atomic hJ (fun _ => hJ') fun s hi hj => by
    obtain ⟨h₁, h₂⟩ := hf (s.ring ℓ) (hi.core.lane ℓ).ok
    obtain ⟨h₃, h₄⟩ := h s _ hi hj h₁ h₂
    refine ⟨h₃, h₄, ?_⟩
    simp only [Shut, hghost, ringL, Function.update_self]
    exact hc _

theorem closeConsumer_spec (hI : (recvC P S).Stable I) (hJ : (recvC P S).Stable J)
    (hJ' : (recvC P S).Stable fun s => J s ∧ Shut P ℓ s) (hfirst : Begins P S ℓ first I J)
    (h : Teardown P S ℓ ghost J) (hghost : ∀ s, (ghost s).ring = s.ring) :
    Triple (recvC P S) I (Ring.closeConsumer (ringL ℓ) first ghost P.coordinated) fun _ s =>
      J s ∧ Shut P ℓ s := by
  have h' : Teardown P S ℓ ghost fun s => J s ∧ Shut P ℓ s := fun s r hi hj hr hok => by
    refine ⟨(h s r hi hj.1 hr hok).1, (h s r hi hj.1 hr hok).2, ?_⟩
    simp only [Shut, hghost, ringL, Function.update_self]
    exact hr.isClosed hj.2
  rw [Ring.closeConsumer]
  split
  · next hc =>
    refine (closeStep_spec hI hJ hfirst fun _ => consumeStep_discardAll).bind fun _ => ?_
    refine (closeLast_spec hJ hJ' h hghost (fun _ => consumeStep_handOver) fun r => ?_).bind
      fun kept => ?_
    · simp only [hc, Ring.isClosed, Ring.handOver, if_true]
      split <;> rfl
    · split
      · refine (closeStep_spec hJ' hJ' h' fun _ => consumeStep_discardAll).bind fun _ => ?_
        refine (closeStep_spec hJ' hJ' h' fun _ => consumeStep_release).bind fun _ => ?_
        exact closeStep_spec hJ' hJ' h' fun _ => consumeStep_dropConsumer
      · exact Triple.ret hJ' fun _ _ h => h
  · next hc =>
    refine (closeStep_spec hI hJ hfirst fun _ => consumeStep_release).bind fun _ => ?_
    exact closeLast_spec hJ hJ' h hghost (fun _ => consumeStep_dropConsumer) fun r => by
      simp [Ring.isClosed, Ring.dropConsumer, hc]

end

/-! ## Retiring a lane -/

/-- The lane was retired, and its key is not given back yet. -/
structure Leaving (ℓ : Nat) (key : LaneKey) (s : Chan V) : Prop where
  lt : ℓ < s.count
  stage : s.stage ℓ = .retired
  shut : s.shut ℓ = false
  key : s.key ℓ = key
  top : Top ℓ s

theorem Leaving.kept : Kept P S x rx (Leaving ℓ key) := fun s s' ℓ' hc hℓ ha _ h => by
  have hf := ha.frame hc hℓ
  exact ⟨lt_of_lt_of_le h.lt hf.count, (hf.stage ℓ h.lt).trans h.stage,
    (hf.shut ℓ h.lt).trans h.shut, (hf.key ℓ h.lt).trans h.key, h.top.sender hc h.lt ha⟩

/-- The lane is retired. -/
def Left (ℓ : Nat) (s : Chan V) : Prop :=
  ℓ < s.count ∧ s.stage ℓ = .retired ∧ s.shut ℓ = false

theorem Left.kept : Kept P S x rx (Left ℓ) := fun s s' ℓ' hc hℓ ha _ h => by
  have hf := ha.frame hc hℓ
  exact ⟨lt_of_lt_of_le h.1 hf.count, (hf.stage ℓ h.1).trans h.2.1, (hf.shut ℓ h.1).trans h.2.2⟩

/-- Nobody has to be told about a lane whose sender has left. -/
theorem OwedOk.forgive {o : Option (Nat × Owed)} (h : OwedOk o s)
    (ho : o = none ∨ ∃ d, o = some (ℓ, d)) (hd : (s.ring ℓ).producerDropped = true) :
    OwedOk none s := by
  rcases ho with rfl | ⟨d, rfl⟩
  · exact h
  · intro ℓ' hlt hd'
    refine h.2.2 ℓ' hlt ?_ hd'
    rintro rfl
    simp [hd] at hd'

theorem View.retireKey (h : View S x rx s) (key : LaneKey) :
    View S x rx { s with registry := s.registry.retire key } := by
  have hreg : (s.registry.retire key).pending = s.registry.pending ∧
      (s.registry.retire key).pages = s.registry.pages ∧
      (s.registry.retire key).groups = s.registry.groups := by
    simp only [Registry.retire]
    split <;> exact ⟨rfl, rfl, rfl⟩
  exact
    { h with
      roster := { h.roster with
        seen_eq := fun hs => by
          simp only [hreg]
          exact h.roster.seen_eq hs }
      index := { h.index with
        held := fun slot e he hx => { h.index.held slot e he hx with }
        fresh := fun ℓ hℓ hst => { h.index.fresh ℓ hℓ hst with } }
      counters := fun slot l hl hx => (h.counters slot l hl hx).frame (.refl _)
      budget := fun hst => { h.budget hst with }
      aim := h.aim.step le_rfl rfl id (fun _ _ _ _ ht => { ht with }) fun _ hall => hall
      keep := fun ℓ n hk => { h.keep ℓ n hk with } }

/-- The context once a lane was given up. -/
def Ctx.dropped (x : Ctx V) : Ctx V :=
  { x with out := none, hot := none, taken := 0, exempt := none, owed := none, left := x.left - 1 }

/-- Something that concerns the senders alone, and that their steps keep. -/
structure Framed (P : Params) (S : Setting) (R : Chan V → Prop) : Prop where
  kept : ∀ x rx, Kept P S x rx R
  step : ∀ s s', s'.gone = s.gone → s'.count = s.count → s'.key = s.key → R s → R s'

theorem Framed.allGone : Framed P S (AllGone : Chan V → Prop) :=
  ⟨fun _ _ => AllGone.kept, fun s s' h₁ h₂ _ h => by rwa [AllGone, h₁, h₂]⟩

theorem Framed.true : Framed P S fun _ : Chan V => True :=
  ⟨fun _ _ => .pure _, fun _ _ _ _ _ h => h⟩

/-- The lane has this key. -/
def Named (ℓ : Nat) (key : LaneKey) (s : Chan V) : Prop := ℓ < s.count ∧ s.key ℓ = key

theorem Framed.named : Framed P S (Named ℓ key : Chan V → Prop) where
  kept _ _ _ _ _ hc hℓ ha _ h :=
    have hf := ha.frame hc hℓ
    ⟨lt_of_lt_of_le h.1 hf.count, (hf.key ℓ h.1).trans h.2⟩
  step _ _ _ h₁ h₂ h := by rwa [Named, h₁, h₂]

/-- The lane has ended, and is not owed a look any more. -/
def Finished (S : Setting) (lane : Lane) (s : Chan V) : Prop :=
  Ended lane.ix s ∧ (lane.queued = false ∨ Passed S lane.ix s.trace)

theorem Finished.kept (hl : CopyOf rx lane) : Kept P S x rx (Finished S lane) :=
  (Ended.kept hl).and ((Kept.pure _).or Passed.kept)

theorem unregister_spec {l₀ : Lane} {R : Chan V → Prop} (hx : x.asleep = false)
    (hl₀ : rx.lanes key.slot = some l₀) (hkey : l₀.key = key)
    (hout : ∀ k, x.out = some k → k = key)
    (hex : x.exempt = none ∨ x.exempt = some l₀.ix) (hhot : x.hot = none ∨ x.hot = some l₀.ix)
    (howed : x.owed = none ∨ ∃ d, x.owed = some (l₀.ix, d))
    (hquiet : x.quiet = false) (hmiss : Misses S.aim x.caught l₀.ix) (hR : Framed P S R) :
    Triple (recvC P S)
      (fun s => View S x rx s ∧ Finished S l₀ s ∧ R s)
      (Prog.write (Receiver.unregisterLane l₀.ix)) fun _ s =>
        View S x.dropped (rx.without key) s ∧ Leaving l₀.ix key s ∧
          (∀ dry, S.aim = .alone dry → 0 < x.left) ∧ R s := by
  have hstable : (recvC P S).Stable fun s => View S x rx s ∧ Finished S l₀ s ∧ R s := by
    intro s s' hs hs' hr h
    have hl : CopyOf rx l₀ := (h.1.copyOf_lane hl₀).2
    exact ((Finished.kept hl).and (hR.kept _ _)).stable s s' hs hs' hr h
  refine recv_atomic hstable (fun _ =>
    (Leaving.kept.and ((Kept.pure _).and (hR.kept _ _))).stable) fun s hi h => ?_
  obtain ⟨hv, ⟨hend, hpass⟩, hr⟩ := h
  obtain ⟨hk, hlt, hst, hsh⟩ := hv.held (hv.copyOf_lane hl₀).2
  have hpos : 0 < s.registeredLanes := by
    rw [hi.core.registered]
    exact Finset.card_pos.mpr ⟨l₀.ix, by simp [hlt, hst]⟩
  refine ⟨.of_view hi hv hx (hi.core.unregister hlt hst ?_)
      { RecvAct.refl P s with registered := Nat.sub_le .. } rfl rfl,
    ?_, ⟨hlt, Function.update_self .., hsh, hk.symm.trans hkey, ?_⟩,
    fun dry hd => lt_of_lt_of_le hpos (hv.left dry hd), hR.step s _ rfl rfl rfl hr⟩
  · simpa [hsh] using And.intro hend.1 hend.2
  · exact hv.without hi.core hl₀ hkey hout hex hhot hquiet hmiss (fun _ _ => rfl)
      (fun ℓ hne => Function.update_of_ne hne ..) (fun _ _ => rfl)
      (.inl (Function.update_self ..)) (fun ℓ hℓ hst' hsh' => by
        by_cases hne : ℓ = l₀.ix
        · subst hne
          simp at hst'
        · rw [Function.update_of_ne hne] at hst'
          exact hv.closing ℓ hℓ hst' hsh') (hv.owed.forgive howed hend.1)
      (fun _ _ => ⟨Function.update_self .., hsh⟩) hpass
      (.inr (hv.turned (hend.2.trans ((hi.core.lane l₀.ix).ok.dropped hend.1).symm)))
      fun dry hd => Nat.sub_le_sub_right (hv.left dry hd) 1
  · obtain ⟨h₁, h₂⟩ := hi.core.keys.top l₀.ix hlt (by simp [hst])
    refine ⟨fun ℓ hℓ hsl hne => ?_, h₂⟩
    simp only [Receiver.unregisterLane, Function.update_of_ne hne]
    exact h₁ ℓ hℓ hsl hne

theorem retireKey_spec {R : Chan V → Prop} (hx : x.asleep = false) (hR : Kept P S x rx R)
    (h : ∀ s, R s → R { s with registry := s.registry.retire key }) :
    Triple (recvC P S) (fun s => View S x rx s ∧ Leaving ℓ key s ∧ R s)
      (registryL.access fun r => ((), r.retire key)) fun _ s =>
        View S x rx s ∧ Left ℓ s ∧ R s := by
  refine recv_atomic (Leaving.kept.and hR).stable (fun _ => (Left.kept.and hR).stable)
    fun s hi h' => ?_
  obtain ⟨hv, hleave, hr⟩ := h'
  have hcore := hi.core.retireKey hleave.lt hleave.top hleave.stage
  rw [hleave.key] at hcore
  exact ⟨.of_view hi hv hx hcore { RecvAct.refl P s with } rfl rfl, hv.retireKey key,
    ⟨hleave.lt, hleave.stage, hleave.shut⟩, h s hr⟩

/-- Closing the ring of a lane that was retired. -/
theorem teardown_left {R : Chan V → Prop} (hx : x.asleep = false)
    (h : ∀ s r, R s → R ((ringL ℓ).set r s)) :
    Teardown P S ℓ id fun s => View S x rx s ∧ Left ℓ s ∧ R s := by
  rintro s r hi ⟨hv, ⟨hlt, hst, hsh⟩, hr'⟩ hr hok
  have hd : (s.ring ℓ).producerDropped = true := ((hi.core.lane ℓ).retired hst hsh).1
  refine ⟨.of_view hi hv hx (hi.core.close hst hsh hr hok) (.quiet hr (.inl hd)) rfl rfl,
    ?_, ⟨hlt, hst, hsh⟩, h s r hr'⟩
  exact hv.setRing (fun hst' => absurd hst hst') x.owed s.owed (hv.owed.setRing hr.producerDropped)

/-- **A lane that has ended is given up**: nothing else the receiver knows is lost by it. -/
theorem retireLane_spec {rx₁ : Receiver} {l₀ : Lane} {R : Chan V → Prop}
    (hx : x.asleep = false)
    (hl₀ : rx.lanes key.slot = some l₀) (hkey : l₀.key = key)
    (hout : ∀ k, x.out = some k → k = key)
    (hex : x.exempt = none ∨ x.exempt = some l₀.ix) (hhot : x.hot = none ∨ x.hot = some l₀.ix)
    (howed : x.owed = none ∨ ∃ d, x.owed = some (l₀.ix, d))
    (hquiet : x.quiet = false) (hmiss : Misses S.aim x.caught l₀.ix) (hR : Framed P S R)
    (hl : rx₁.lanes key.slot = some lane) (hix : lane.ix = l₀.ix)
    (hrx : { rx₁ with
      lanes := Function.update rx₁.lanes key.slot none
      paused := Function.update rx₁.paused key.slot false } = rx.without key) :
    Triple (recvC P S)
      (fun s => View S x rx s ∧ Finished S l₀ s ∧ R s) (rx₁.retireLane P key)
      fun rx' s => rx' = rx.without key ∧ View S x.dropped rx' s ∧
        (∀ dry, S.aim = .alone dry → 0 < x.left) ∧ R s := by
  rw [Receiver.retireLane, hl]
  dsimp only
  rw [hix]
  refine (unregister_spec hx hl₀ hkey hout hex hhot howed hquiet hmiss hR).bind fun _ => ?_
  have hkept : Kept P S x.dropped (rx.without key) fun s =>
      (∀ dry, S.aim = .alone dry → 0 < x.left) ∧ R s := (Kept.pure _).and (hR.kept _ _)
  refine (retireKey_spec (x := x.dropped) hx hkept fun s h =>
    ⟨h.1, hR.step s _ rfl rfl rfl h.2⟩).bind fun _ => ?_
  have hJ := (Left.kept (ℓ := l₀.ix)).and hkept
  split
  · have hleft : Teardown P S l₀.ix id fun s => View S x.dropped (rx.without key) s ∧
        Left l₀.ix s ∧ (∀ dry, S.aim = .alone dry → 0 < x.left) ∧ R s :=
      teardown_left hx fun s r h => ⟨h.1, hR.step s _ rfl rfl rfl h.2⟩
    exact Triple.map (closeConsumer_spec hJ.stable hJ.stable
      (Shut.stable hJ.stable fun s h => h.2.1.1) hleft hleft fun _ => rfl)
      fun _ s _ h => ⟨hrx, hrx ▸ h.1.1, h.1.2.2⟩
  · rw [hrx]
    exact Triple.ret ((Contract.Stable.pure _).and hkept.stable) fun s _ h => ⟨rfl, h.1, h.2.2⟩

/-! ## Paused lanes that have ended -/

theorem Ctx.Calm.dropped (hx : x.Calm) (hot : Option Nat) :
    ({ x with hot := hot } : Ctx V).dropped = { x with left := x.left - 1 } := by
  obtain ⟨-, h₁, h₂, h₃, h₄, h₅, -⟩ := hx
  cases x
  simp_all [Ctx.dropped]

/-- The number of lanes left may be known less precisely. -/
theorem View.relax {m : Nat} (hv : View S { x with left := m } rx s) (hm : m ≤ x.left) :
    View S x rx s :=
  { hv with
    budget := fun hst => { hv.budget hst with }
    left := fun dry hd => le_trans (hv.left dry hd) hm }

/-- A paused lane in this slot holds values. -/
def Unread (rx : Receiver) (slot : Nat) : Prop :=
  ∀ l, rx.lanes slot = some l → rx.paused slot = true → 0 < l.cachedAvailable

/-- What the sweep of the paused lanes keeps. -/
structure Swept (rx : Receiver) (slots : List Nat) (rx' : Receiver) : Prop where
  active : rx'.active = []
  lanesLen : rx'.lanesLen = rx.lanesLen
  items : rx'.itemsUntilReadyPoll = rx.itemsUntilReadyPoll
  unread : ∀ slot, Unread rx slot ∨ slot ∈ slots → Unread rx' slot

theorem Swept.cons {rx₁ : Receiver} {slot : Nat} {slots : List Nat} (h : Swept rx₁ slots rx')
    (hlen : rx₁.lanesLen = rx.lanesLen)
    (hitems : rx₁.itemsUntilReadyPoll = rx.itemsUntilReadyPoll) (hslot : Unread rx₁ slot)
    (hother : ∀ slot', slot' ≠ slot → Unread rx slot' → Unread rx₁ slot') :
    Swept rx (slot :: slots) rx' where
  active := h.active
  lanesLen := h.lanesLen.trans hlen
  items := h.items.trans hitems
  unread slot' hs := by
    by_cases heq : slot' = slot
    · exact heq ▸ h.unread slot (.inl hslot)
    · rcases hs with hs | hs
      · exact h.unread slot' (.inl (hother slot' heq hs))
      · exact h.unread slot' (.inr ((List.mem_cons.mp hs).resolve_left heq))

theorem without_setLane (hact : rx.active = []) :
    { rx.setLane lane with
      lanes := Function.update (rx.setLane lane).lanes lane.key.slot none
      paused := Function.update (rx.setLane lane).paused lane.key.slot false } =
      rx.without lane.key := by
  simp [Receiver.setLane, Receiver.without, hact]

theorem retireEmptyPaused_spec (slots : List Nat) (hx : x.Calm)
    (hact : rx.active = []) :
    Triple (recvC P S) (fun s => View S x rx s ∧ AllGone s)
      (Receiver.retireEmptyPaused P slots rx) fun rx' s => Swept rx slots rx' ∧
        View S x rx' s ∧ AllGone s := by
  induction slots generalizing rx with
  | nil =>
    exact Triple.ret ((Contract.Stable.pure _).and AllGone.kept.stable)
      fun s _ h => ⟨⟨hact, rfl, rfl, fun slot hs => hs.resolve_right (by simp)⟩, h⟩
  | cons slot slots ih =>
    rw [Receiver.retireEmptyPaused]
    split
    · next hl =>
      refine (ih hact).post fun rx' s _ h => ⟨h.1.cons rfl rfl ?_ fun _ _ h => h, h.2⟩
      simp [Unread, hl]
    · next lane hl =>
      split
      · next hp =>
        refine Triple.given (fun s _ h => h.1.copyOf_lane hl) fun ⟨hslot, hcopy⟩ => ?_
        subst hslot
        refine Triple.seq ((reloadIsEmpty_spec (x := { x with hot := some lane.ix })
          (R := fun _ => True) hx.asleep rfl hcopy (.pure _) fun s h => h).pre
          fun s _ h => ⟨⟨h.1.heat hx.hot hx.taken _,
            h.1.counters _ lane hl (by simp [hx.hot])⟩, h.2, trivial⟩) fun r => ?_
        obtain ⟨empty, lane₁⟩ := r
        refine Triple.given (φ := lane₁.skel = lane.skel ∧ lane₁.fastLeft = 0)
          (fun s _ h => ⟨h.now.1, h.now.2.1⟩) fun ⟨hsk, hf⟩ => ?_
        have hix : lane₁.ix = lane.ix := congrArg Held.ix hsk
        have hkey : lane₁.key = lane.key := congrArg Held.key hsk
        have hnext : ∀ rx₁ : Receiver, rx₁.active = [] → rx₁.lanesLen = rx.lanesLen →
            rx₁.itemsUntilReadyPoll = rx.itemsUntilReadyPoll → Unread rx₁ lane.key.slot →
            (∀ slot, slot ≠ lane.key.slot → Unread rx slot → Unread rx₁ slot) →
            Triple (recvC P S) (fun s => View S x rx₁ s ∧ AllGone s)
              (Receiver.retireEmptyPaused P slots rx₁) fun rx' s =>
              Swept rx (lane.key.slot :: slots) rx' ∧ View S x rx' s ∧ AllGone s :=
          fun rx₁ h₁ h₂ h₃ h₄ h₅ => (ih h₁).post fun rx' s _ h => ⟨h.1.cons h₂ h₃ h₄ h₅, h.2⟩
        cases empty with
        | true =>
          refine Triple.given (fun s _ h => h.now.2.2.2.2.2.1) fun hmiss => ?_
          refine Triple.seq ((retireLane_spec (x := { x with hot := some lane.ix })
            (R := AllGone) hx.asleep (hkey ▸ hl) hkey.symm
            (by simp [hx.out]) (.inl hx.exempt) (.inr rfl) (.inl hx.owed) hx.quiet hmiss .allGone
            (Function.update_self ..) hix (without_setLane hact)).pre fun s _ h => ?_) fun rx₁ => ?_
          · obtain ⟨-, -, -, hv, ⟨hg, -⟩, -, hend⟩ := h.now
            exact ⟨hv, ⟨hend, .inl (hv.roster.paused _ _ (Receiver.skel_lane hl) hp)⟩, hg⟩
          · refine Triple.given (fun s _ h => h.now.1) ?_
            rintro rfl
            refine (hnext (rx.without lane₁.key) (by simp [Receiver.without, hact]) rfl rfl ?_
              fun slot hs h => ?_).pre fun s _ h => ?_
            · simp [Unread, Receiver.without, hkey]
            · simpa [Unread, Receiver.without, hkey, hs] using h
            · obtain ⟨-, hv, -, hg⟩ := h.now
              rw [hx.dropped] at hv
              exact ⟨hv.relax (Nat.sub_le ..), hg⟩
        | false =>
          refine Triple.given (φ := 0 < lane₁.cachedAvailable) (fun s _ h => h.now.2.2.2.2.2)
            fun hpos => ?_
          refine (hnext (rx.setLane lane₁) hact rfl rfl ?_ fun slot hs h => ?_).pre fun s _ h => ?_
          · simp [Unread, Receiver.setLane, hkey, hpos]
          · simpa [Unread, Receiver.setLane, hkey, hs] using h
          · obtain ⟨-, -, hok, hv, ⟨hg, -⟩, -⟩ := h.now
            exact ⟨View.store (hix ▸ hv) hx.hot (hcopy.of_skel hsk) hok (by simp [hf])
              (.inl (by rw [hkey]; exact hp)) (.inr (.inl (by simp [hx.out, hact]))), hg⟩
      · next hp =>
        refine (ih hact).post fun rx' s _ h => ⟨h.1.cons rfl rfl ?_ fun _ _ h => h, h.2⟩
        exact fun l _ hp' => absurd hp' hp

/-! ## What a receive that found no value answers -/

theorem Core.live_zero (h : Core P s) (hg : AllGone s) : s.liveSenders = 0 := by
  rw [h.live, liveCount, Finset.card_eq_zero, Finset.filter_eq_empty_iff]
  intro ℓ hℓ
  simp [hg ℓ (Finset.mem_range.mp hℓ)]

theorem Core.allGone (h : Core P s) (hl : s.liveSenders = 0) : AllGone s := by
  intro ℓ hℓ
  by_contra hg
  have : 0 < s.liveSenders := by
    rw [h.live]
    exact Finset.card_pos.mpr ⟨ℓ, by simp [hℓ, hg]⟩
  omega

theorem Over.kept : Kept P S x rx Over := fun _ _ _ hc hℓ ha _ h => h.sender hc hℓ ha

/-- The context once a collection was used up. -/
def Ctx.rested (x : Ctx V) : Ctx V := { x with scan := .none, swept := false }

/-- A collection that found nothing leaves nothing to be found. -/
structure Barren (x : Ctx V) (rx : Receiver) : Prop extends x.Calm where
  scan : x.scan = ⟨[], [], [], some []⟩
  swept : x.swept = true
  closing : x.closing = none
  active : rx.active = []

theorem Barren.not_covered {slot : Nat} (hb : Barren x rx) (h : View S x rx s) :
    ¬ Covered rx.book x.scan s slot := by
  rw [hb.scan]
  rintro (⟨e, he, hq⟩ | hcl | ⟨-, hcp | ⟨-, hg⟩⟩)
  · obtain ⟨-, hs, -⟩ := h.roster.held slot e he
    have := (h.roster.queued e.key).mpr ⟨e, by rw [hs]; exact he, rfl, hq⟩
    simp [Receiver.skel, hb.active, hb.out] at this
  · simp at hcl
  · simp at hcp
  · simpa using hg [] rfl

/-- A receiver may answer that there is no value: if it looks for a lane it has popped one, and if
    nobody is left it does not say that there may be more. -/
structure Setting.Excuses (S : Setting) (caught : Bool) (e : RecvError) : Prop where
  target : ∀ ℓ q, S.aim = .target ℓ q → caught = true
  done : S.done = true → e = .disconnected

/-- The lane a receiver looks for is found before this. -/
theorem Barren.caught (hb : Barren x rx) (h : View S x rx s) :
    ∀ ℓ q, S.aim = .target ℓ q → x.caught = true := by
  intro ℓ n ha
  by_contra hc
  exact hb.not_covered h (h.target ha (by simpa using hc)).covered

theorem Barren.clear (hb : Barren x rx) (h : View S x rx s) :
    Told S.aim s ∨
      (∀ slot e, rx.book.lane slot = some e → rx.paused slot = false →
        s.ready.pending e.ix = false) ∧
      ∀ ℓ < s.count, s.stage ℓ = .pending → s.ready.pending ℓ = false := by
  refine (h.swept hb.swept).imp_right fun hcl => ⟨fun slot e he hp => ?_, hcl.1⟩
  by_contra hpe
  rcases hcl.2 slot e he (by simpa using hpe) with hpa | hcov
  · exact absurd (hpa.symm.trans hp) (by simp)
  · exact hb.not_covered h hcov

/-- A collection is used up. -/
theorem View.rest (h : View S x rx s) (hcp : x.scan.cp = []) (hcl : x.scan.cl = [])
    (hcu : x.scan.cu = []) : View S x.rested rx s := by
  have := h.forget (c := Scan.none) (by simp [hcp]) (by simp [hcl]) (by simp [hcu]) (.inl rfl)
  exact this.unsweep false

theorem View.quieten (h : View S x rx s) (hq : Told S.aim s ∨ Quiesced rx.book s) :
    View S { x with quiet := true } rx s :=
  { h with
    budget := fun hst => { h.budget hst with }
    quiet := fun _ => hq }

theorem View.unquiet (h : View S x rx s) : View S { x with quiet := false } rx s :=
  { h with
    budget := fun hst => { h.budget hst with }
    quiet := fun hq => by cases hq }

/-- With all senders gone, the lanes that are left are paused ones that hold values. -/
theorem Barren.quiesced (hb : Barren x rx) (h : View S x rx s) (hc : Core P s) (hg : AllGone s)
    (hreg : s.registeredLanes ≠ 0) (hunread : ∀ slot < rx.lanesLen, Unread rx slot) :
    Told S.aim s ∨ Quiesced rx.book s := by
  refine (hb.clear h).imp_right fun hcl => ⟨hcl.1, hcl.2, .inr ?_⟩
  rw [hc.registered] at hreg
  obtain ⟨ℓ, hm⟩ := Finset.card_pos.mp (Nat.pos_of_ne_zero hreg)
  obtain ⟨hlt, hst⟩ : ℓ < s.count ∧ s.stage ℓ ≠ .retired := by simpa using hm
  have hdrop := (hc.gone ℓ (hg ℓ hlt)).1
  cases hs : s.stage ℓ with
  | retired => exact absurd hs hst
  | pending =>
    -- its sender marked it when it left
    have := (h.index.fresh ℓ hlt hs).idle (hcl.2 ℓ hlt hs)
    simp [hdrop] at this
  | adopted =>
    have hsh : s.shut ℓ = false := by
      by_contra hsh
      have := h.closing ℓ hlt hs (by simpa using hsh)
      simp [hb.closing] at this
    obtain ⟨e, he, rfl⟩ := h.roster.adopted ℓ hlt hs hsh
    obtain ⟨l, hl, rfl⟩ := Option.map_eq_some_iff.mp he
    have hpa : rx.paused (s.key l.ix).slot = true := by
      by_contra hp
      have := (h.indexed hl hb.exempt).idle (hcl.1 _ _ he (Bool.eq_false_of_not_eq_true hp))
      exact absurd (hdrop.symm.trans this.2) (by simp)
    have hpos := hunread _ (h.roster.slot_lt _ _ he).1 l hl hpa
    have hn := h.counters _ l hl (by simp [hb.hot])
    refine ⟨l.ix, hlt, hst, hsh, ?_⟩
    have h₁ := hn.window
    have h₂ := (hc.lane l.ix).ok.cachedTail_le
    have h₃ := (hc.lane l.ix).ok.tail_le
    show (s.ring l.ix).head < (s.ring l.ix).log.length
    omega

/-- What is known once a receive has nothing to return. -/
def NoValue (S : Setting) (x : Ctx V) (rx : Receiver) (s : Chan V) : RecvError → Prop
  | .empty => View S { x.rested with quiet := true } rx s ∧ rx.active = []
  | .disconnected => View S x.rested rx s ∧ Over s
  | .timeout => False

theorem NoValue.stable {e : RecvError} : (recvC P S).Stable fun s => NoValue S x rx s e := by
  cases e with
  | empty => exact (Kept.pure _).stable
  | disconnected => exact Over.kept.stable
  | timeout => exact fun s s' _ _ _ h => h

theorem isDrained_spec (hb : Barren x rx) :
    Triple (recvC P S) (View S x rx) (rx.isDrained P) fun r s =>
      NoValue S x r.2 s (if r.1 then .disconnected else .empty) ∧ (S.done = true → r.1 = true) ∧
        r.2.active = [] ∧ r.2.itemsUntilReadyPoll = rx.itemsUntilReadyPoll := by
  have hrest : ∀ {rx' : Receiver} {s}, View S x rx' s → View S x.rested rx' s := fun h =>
    h.rest (by simp [hb.scan]) (by simp [hb.scan]) (by simp [hb.scan])
  -- the number of live senders
  refine Triple.bind (Q := fun live s => (live = 0 → View S x rx s ∧ AllGone s) ∧
      (live ≠ 0 → S.done = false ∧ View S { x.rested with quiet := true } rx s))
    (recv_read View.stable (fun live s s' hs hs' hr h => ?_)
      fun s hi h => ⟨fun hl => ⟨h, hi.core.allGone hl⟩, fun hl => ⟨?_, ?_⟩⟩) fun live => ?_
  · exact ⟨fun hl => AllGone.kept.stable s s' hs hs' hr (h.1 hl),
      fun hl => ⟨(h.2 hl).1, View.stable s s' hs hs' hr (h.2 hl).2⟩⟩
  · by_contra ho
    exact hl (hi.core.live_zero (h.done (by simpa using ho)).1)
  · exact (hrest h).quieten ((hb.clear h).imp_right fun hcl => ⟨hcl.1, hcl.2, .inl hl⟩)
  by_cases hlive : live = 0
  · -- nobody is left: what remains is to look at the paused lanes
    rw [if_neg (not_not.mpr hlive)]
    refine Triple.pre (P := fun s => View S x rx s ∧ AllGone s) ?_ fun s _ h => h.1 hlive
    have hdone : ∀ rx₁ : Receiver, rx₁.active = [] →
        rx₁.itemsUntilReadyPoll = rx.itemsUntilReadyPoll →
        Triple (recvC P S) (fun s => View S x rx₁ s ∧ AllGone s ∧
            (Over s ∨ ∀ slot < rx₁.lanesLen, Unread rx₁ slot))
          (Prog.bind (Prog.read (·.registeredLanes)) fun registered =>
            .ret (registered == 0, rx₁)) fun r s =>
          NoValue S x r.2 s (if r.1 then .disconnected else .empty) ∧
            (S.done = true → r.1 = true) ∧ r.2.active = [] ∧
            r.2.itemsUntilReadyPoll = rx.itemsUntilReadyPoll := by
      intro rx₁ hact hitems
      have hb₁ : Barren x rx₁ := { hb with active := hact }
      refine Triple.map (Q := fun n s => NoValue S x rx₁ s
          (if n == 0 then .disconnected else .empty) ∧ (S.done = true → (n == 0) = true))
        (recv_read (AllGone.kept.and (Over.kept.or (.pure _))).stable
          (fun n => NoValue.stable.and (Contract.Stable.pure _))
          fun s hi h => ⟨?_, fun ho => by simpa using (h.1.done ho).2⟩)
        fun n s _ h => ⟨h.1, h.2, hact, hitems⟩
      by_cases hreg : s.registeredLanes = 0
      · rw [hreg]
        exact ⟨hrest h.1, h.2.1, hreg⟩
      · simp only [beq_eq_false_iff_ne.mpr hreg, Bool.false_eq_true, if_false]
        refine ⟨(hrest h.1).quieten (hb₁.quiesced h.1 hi.core h.2.1 hreg ?_), hact⟩
        exact h.2.2.resolve_left fun ho => hreg ho.2
    refine Triple.bind (Q := fun n s => View S x rx s ∧ AllGone s ∧ (n = 0 → Over s))
      (recv_read AllGone.kept.stable (fun n => (AllGone.kept.and (.imp fun _ => Over.kept)).stable)
        fun s _ h => ⟨h.1, h.2, fun hn => ⟨h.2, hn⟩⟩) fun n => ?_
    split
    · next hn =>
      refine Triple.seq ((retireEmptyPaused_spec (List.range rx.lanesLen) hb.toCalm
        hb.active).pre fun s _ h => ⟨h.1, h.2.1⟩) fun rx₁ => ?_
      refine Triple.given (fun s _ h => h.now.1) fun hsw => ?_
      refine (hdone rx₁ hsw.active hsw.items).pre fun s _ h => ?_
      obtain ⟨-, hv, hg⟩ := h.now
      refine ⟨hv, hg, .inr fun slot hs => hsw.unread slot (.inr ?_)⟩
      rwa [List.mem_range, ← hsw.lanesLen]
    · next hn =>
      exact (hdone rx hb.active rfl).pre fun s _ h =>
        ⟨h.1, h.2.1, .inl (h.2.2 (not_not.mp hn))⟩
  · rw [if_pos hlive]
    exact Triple.ret (NoValue.stable.and (Contract.Stable.pure _))
      fun s _ h => ⟨⟨(h.2 hlive).2, hb.active⟩,
        fun ho => absurd ((h.2 hlive).1.symm.trans ho) (by simp), hb.active, rfl⟩

theorem noValue_spec (hb : Barren x rx) :
    Triple (recvC P S) (View S x rx) (rx.noValue P) fun r s =>
      NoValue S x r.2 s r.1 ∧ S.Excuses x.caught r.1 ∧ r.2.active = [] ∧
        r.2.itemsUntilReadyPoll = rx.itemsUntilReadyPoll := by
  refine Triple.given (fun s _ h => hb.caught h) fun hcaught => ?_
  refine Triple.map (isDrained_spec hb) fun r s _ h => ⟨h.1, ⟨hcaught, fun ho => ?_⟩, h.2.2⟩
  rw [h.2.1 ho]
  rfl

end Fanring.Mpsc
