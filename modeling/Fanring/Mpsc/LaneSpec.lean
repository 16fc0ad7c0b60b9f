import Fanring.Mpsc.Membership

/-!
# The MPSC channel: looking at a lane

Triples for the functions of `mpsc/receiver/lane.rs` that take no value. The code holds a copy of a
lane whose counters it changes; what it knows of it is `Work`. Everything else that is known between
two accesses has to survive the senders' steps, which is what `Kept` says.

A lane found empty is settled: its `PENDING` flag is cleared, and a second look at the ring decides
whether somebody published in between. That the second look is enough is the content of
`settleEmpty_spec`.
-/

set_option autoImplicit false

namespace Fanring.Mpsc

open Conc Chan

variable {V : Type} {P : Params} {S : Setting} {s s' : Chan V} {ℓ : Nat} {x : Ctx V}
  {rx rx' : Receiver} {lane lane' : Lane} {key : LaneKey}

/-! ## Steps of the receiver -/

/-- What the contract asks of a step of the receiver. -/
structure RecvStep (P : Params) (S : Setting) (s s' : Chan V) : Prop where
  core : Core P s'
  act : RecvAct P s s'
  awake : s'.data.sleep ≠ .asleep
  trace : S.strict = true → TraceOk s'.trace

theorem RecvAct.setReady {r : Ready} : RecvAct P s (readyL.set r s) := { RecvAct.refl P s with }

theorem RecvStep.inv (h : RecvStep P S s s') : Inv P S.strict s' :=
  ⟨h.core, fun hs => absurd hs h.awake, h.trace⟩

/-- A step that leaves the receiver's cell and the trace alone. -/
theorem RecvStep.of_view (hi : Inv P S.strict s) (hv : View S x rx s) (hx : x.asleep = false)
    (core : Core P s') (act : RecvAct P s s') (hdata : s'.data = s.data)
    (htrace : s'.trace = s.trace) : RecvStep P S s s' :=
  ⟨core, act, hdata ▸ hv.awake hx, htrace ▸ hi.trace⟩

/-- A step before which something was looked at. -/
theorem RecvStep.silent {es : List (Event V)} (hi : Inv P S.strict s) (hv : View S x rx s)
    (hx : x.asleep = false) (hes : ∀ e ∈ es, e.silent = true)
    (hno : ∀ e, (∃ ℓ, e = .seenEmpty ℓ) ∨ (∃ ℓ n m b f, e = .publish ℓ n m b f) ∨
      (∃ keys, e = .queued keys) → e ∉ es)
    (h : Inv P S.strict { s with trace := s.trace ++ es } →
      RecvStep P S { s with trace := s.trace ++ es } s') : RecvStep P S s s' := by
  have hstep := h ⟨hi.core.setTrace (popped_silent _ hes), fun hs => absurd hs (hv.awake hx),
    fun hst => (hi.trace hst).silent hes⟩
  obtain ⟨es', hes', hseen, hpub, hpop, hrel⟩ := hstep.act.recorded
  refine { hstep with act := { hstep.act with
    recorded := ⟨es ++ es', ?_, fun ℓ hm => ?_, fun ℓ n m b f hm => ?_, ?_, fun ℓ => ?_⟩
    rotation := fun keys hm => (hstep.act.rotation keys hm).elim
      (rotation_append (fun keys => hno _ (.inr (.inr ⟨keys, rfl⟩))) keys) .inr } }
  · rw [hes', List.append_assoc]
  · exact hseen ℓ ((List.mem_append.mp hm).resolve_left (hno _ (.inl ⟨ℓ, rfl⟩)))
  · exact hpub ℓ n m b f
      ((List.mem_append.mp hm).resolve_left (hno _ (.inr (.inl ⟨ℓ, n, m, b, f, rfl⟩))))
  · have hnil : popped es = [] := popped_silent [] hes
    rw [popped_append, hnil]
    exact hpop
  · refine (hrel ℓ).imp_right (Or.imp_left ?_)
    rintro ⟨n, m, b, f, hm⟩
    exact ⟨n, m, b, f, List.mem_append_right _ hm⟩

theorem RecvStep.seeEmpty (h : RecvStep P S s s') (ℓ : Nat)
    (hempty : (s'.ring ℓ).tail ≤ (ofLane ℓ (popped s'.trace)).length) :
    RecvStep P S s (s'.record (.seenEmpty ℓ)) where
  core := h.core.setTrace (popped_silent _ (by simp [Event.silent]))
  act := { h.act with
    recorded := by
      obtain ⟨es, hes, hseen, hpub, hpops, hrel⟩ := h.act.recorded
      have hpop : popped (s'.record (.seenEmpty ℓ)).trace = popped s'.trace :=
        popped_silent _ (by simp [Event.silent])
      refine ⟨es ++ [.seenEmpty ℓ], ?_, fun ℓ' hm => ?_, fun ℓ' n m b f hm => ?_, ?_, fun ℓ' => ?_⟩
      · rw [Chan.record, hes, List.append_assoc]
      · rw [hpop]
        rcases List.mem_append.mp hm with hm | hm
        · exact hseen ℓ' hm
        · cases List.mem_singleton.mp hm
          exact hempty
      · exact hpub ℓ' n m b f ((List.mem_append.mp hm).resolve_right (by simp))
      · have hnil : popped [Event.seenEmpty (V := V) ℓ] = [] := rfl
        rw [popped_append, hnil, List.append_nil]
        exact hpops
      · refine (hrel ℓ').imp_right (Or.imp_left ?_)
        rintro ⟨n, m, b, f, hm⟩
        exact ⟨n, m, b, f, List.mem_append_left _ hm⟩
    rotation := fun keys hm =>
      h.act.rotation keys ((List.mem_append.mp hm).resolve_right (by simp)) }
  awake := h.awake
  trace hst := (h.trace hst).silent (by simp [Event.silent])

theorem RecvStep.queued {keys : List LaneKey} (hi : Inv P S.strict s) (hv : View S x rx s)
    (hx : x.asleep = false) (hkeys : keys.Nodup) : RecvStep P S s (s.record (.queued keys)) where
  core := hi.core.setTrace (popped_silent _ (by simp [Event.silent]))
  act := { RecvAct.refl P s with
    recorded := .of rfl (by simp) (by simp) (by simp [popped]) fun _ => .inl rfl
    rotation := fun keys' hm => (List.mem_append.mp hm).imp_right fun hm => by
      cases List.mem_singleton.mp hm
      exact hkeys }
  awake := hv.awake hx
  trace hst := (hi.trace hst).silent (by simp [Event.silent])

theorem recv_atomic {α : Type} {f : Chan V → α × Chan V} {Q : Chan V → Prop}
    {R : α → Chan V → Prop} (hQ : (recvC P S).Stable Q) (hR : ∀ a, (recvC P S).Stable (R a))
    (h : ∀ s, Inv P S.strict s → Q s → RecvStep P S s (f s).2 ∧ R (f s).1 (f s).2) :
    Triple (recvC P S) Q (.atomic f) R :=
  Triple.atomic hQ hR fun s _ hi hq _ => ⟨(h s hi hq).1.inv, (h s hi hq).1.act, (h s hi hq).2⟩

theorem recv_read {α : Type} {f : Chan V → α} {Q : Chan V → Prop} {R : α → Chan V → Prop}
    (hQ : (recvC P S).Stable Q) (hR : ∀ a, (recvC P S).Stable (R a))
    (h : ∀ s, Inv P S.strict s → Q s → R (f s) s) : Triple (recvC P S) Q (.read f) R :=
  Triple.read hQ hR (RecvAct.refl P) fun s _ hi hq _ => h s hi hq

/-- Something more than the view that senders leave alone. -/
def Kept (P : Params) (S : Setting) (x : Ctx V) (rx : Receiver) (Q : Chan V → Prop) : Prop :=
  ∀ s s' ℓ, Core P s → ℓ < s.count → SenderAct P ℓ s s' → View S x rx s → Q s → Q s'

theorem Kept.stable {Q : Chan V → Prop} (h : Kept P S x rx Q) :
    (recvC P S).Stable fun s => View S x rx s ∧ Q s :=
  recvC_stable fun s s' ℓ hc hℓ ha hq =>
    ⟨hq.1.sender hc hℓ ha, h s s' ℓ hc hℓ ha hq.1 hq.2⟩

theorem Kept.and {Q R : Chan V → Prop} (hQ : Kept P S x rx Q) (hR : Kept P S x rx R) :
    Kept P S x rx fun s => Q s ∧ R s :=
  fun s s' ℓ hc hℓ ha hv h => ⟨hQ s s' ℓ hc hℓ ha hv h.1, hR s s' ℓ hc hℓ ha hv h.2⟩

theorem Kept.or {Q R : Chan V → Prop} (hQ : Kept P S x rx Q) (hR : Kept P S x rx R) :
    Kept P S x rx fun s => Q s ∨ R s :=
  fun s s' ℓ hc hℓ ha hv h => h.imp (hQ s s' ℓ hc hℓ ha hv) (hR s s' ℓ hc hℓ ha hv)

theorem Kept.imp {p : Prop} {Q : Chan V → Prop} (hQ : p → Kept P S x rx Q) :
    Kept P S x rx fun s => p → Q s :=
  fun s s' ℓ hc hℓ ha hv h hp => hQ hp s s' ℓ hc hℓ ha hv (h hp)

theorem Kept.pure (p : Prop) : Kept P S x rx fun _ => p := fun _ _ _ _ _ _ _ h => h

theorem View.ringFrame (h : View S x rx s) (hl : CopyOf rx lane) (hf : Frame s s') :
    RingFrame (s.ring lane.ix) (s'.ring lane.ix) := h.roster.ring hf hl.lane_skel

/-! ## Telling a sender -/

/-- The sender of a lane is told, step by step; `Q o` is what holds while `o` is left to do. -/
theorem telling_spec {Q : Owed → Chan V → Prop} (hQ : ∀ o, (recvC P S).Stable (Q o))
    (ho : ∀ o s, Q o s → s.owed ℓ = o) (hawake : ∀ o s, Q o s → s.data.sleep ≠ .asleep)
    (hstep : ∀ o o' s c, Q o s → Q o' (((spaceL ℓ).set c s).setOwed ℓ o')) :
    Triple (recvC P S) (Q .due) (notifySpace ℓ) fun _ => Q .settled := by
  have step : ∀ {β : Type} {f : WaitCell → β × WaitCell} {g : β → Chan V → Chan V} {o : Owed}
      {q : β → Owed}, (∀ b s, g b s = s.setOwed ℓ (q b)) →
      (∀ c, TellStep o c (q (f c).1) (f c).2) →
      Triple (recvC P S) (Q o) ((spaceL ℓ).accessWith g f) fun b => Q (q b) := by
    intro β f g o q hg ht
    refine recv_atomic (hQ _) (fun _ => hQ _) fun s hi hq => ?_
    simp only [hg]
    have htell : TellStep (s.owed ℓ) (s.space ℓ) (q (f (s.space ℓ)).1) (f (s.space ℓ)).2 := by
      rw [ho o s hq]
      exact ht _
    exact ⟨⟨hi.core.setSpace htell, .setSpace htell, hawake o s hq, hi.trace⟩, hstep _ _ _ _ hq⟩
  refine (step (q := fun more => .bumped more) (fun _ _ => rfl) .bump).bind fun waiting => ?_
  refine (step (q := fun _ => if waiting then .woken else .settled) (fun _ _ => rfl)
    (.wake waiting)).bind fun _ => ?_
  cases waiting with
  | true => exact step (q := fun _ => .settled) (fun _ _ => rfl) .signal
  | false => exact Triple.ret (hQ _) fun s _ h => h

/-- The sender of a lane is told; `R` is anything that does not concern the telling. -/
theorem notifySpace_spec {R : Chan V → Prop} (hx : x.asleep = false)
    (hR : ∀ o, Kept P S { x with owed := o } rx R)
    (hquiet : ∀ s c o, R s → R (((spaceL ℓ).set c s).setOwed ℓ o)) :
    Triple (recvC P S) (fun s => View S { x with owed := some (ℓ, .due) } rx s ∧ R s)
      (notifySpace ℓ) fun _ s => View S { x with owed := none } rx s ∧ R s :=
  (telling_spec (Q := fun o s => View S { x with owed := some (ℓ, o) } rx s ∧ R s)
    (fun _ => (hR _).stable) (fun _ _ h => h.1.owed.2.1) (fun _ _ h => h.1.awake hx)
    fun _ _ _ _ h => ⟨h.1.setSpace rfl, hquiet _ _ _ h.2⟩).post
      fun _ _ _ h => ⟨h.1.settle rfl, h.2⟩

/-- What a lane that gave its credit back owes its sender. -/
def Ctx.released (x : Ctx V) (ℓ : Nat) (b : Bool) : Ctx V :=
  { x with owed := if b then some (ℓ, .due) else none }

/-- The sender is told, if there is something to tell. -/
theorem tell_spec {α : Type} {R : Chan V → Prop} {k : Prog (Chan V) α} {T : α → Chan V → Prop}
    {b : Bool} (hx : x.asleep = false) (hR : ∀ o, Kept P S { x with owed := o } rx R)
    (hquiet : ∀ s c o, R s → R (((spaceL ℓ).set c s).setOwed ℓ o))
    (hk : Triple (recvC P S)
      ((recvC P S).Lasting fun s => View S { x with owed := none } rx s ∧ R s)
      k T) :
    Triple (recvC P S) (fun s => View S (x.released ℓ b) rx s ∧ R s)
      (if b then (notifySpace ℓ).bind fun _ => k else k) T := by
  cases b with
  | true => exact (notifySpace_spec hx hR hquiet).seq fun _ => hk
  | false => exact hk.pre fun s hi h s' he => (hR none).stable.env he hi h

/-! ## What is known of the lane in hand -/

theorem LaneCounts.kept (hl : CopyOf rx lane) (hix : lane'.ix = lane.ix) :
    Kept P S x rx fun s => LaneCounts s lane' := fun s s' ℓ hc hℓ ha hv h =>
  h.frame (by rw [hix]; exact hv.ringFrame hl (ha.frame hc hℓ))

theorem LaneOk.kept (hl : CopyOf rx lane) (hix : lane'.ix = lane.ix) :
    Kept P S x rx fun s => LaneOk s lane' := fun s s' ℓ hc hℓ ha hv h =>
  h.frame (by rw [hix]; exact hv.ringFrame hl (ha.frame hc hℓ))

/-- A receiver that is alone has taken everything out of the ring. -/
def Dry (a : Aim) (ℓ : Nat) (s : Chan V) : Prop :=
  ∀ dry, a = .alone dry → (s.ring ℓ).head = (s.ring ℓ).tail

theorem Dry.kept : Kept P S x rx (Dry S.aim ℓ) := fun s s' ℓ' hc hℓ ha hv h dry hd => by
  have haim := hv.aim
  rw [hd] at haim
  rw [(ha.alone hc haim.1 hℓ).2.2.1]
  exact h dry hd

/-- The sender has left, and everything it published was received. -/
def Ended (ℓ : Nat) (s : Chan V) : Prop :=
  (s.ring ℓ).producerDropped = true ∧ (s.ring ℓ).head = (s.ring ℓ).log.length

theorem Dropped.kept (hl : CopyOf rx lane) :
    Kept P S x rx fun s => (s.ring lane.ix).producerDropped = true :=
  fun _ _ _ _ _ ha hv h => (congrArg _ (ha.ring_eq (hv.held hl).2.1 h)).trans h

theorem Ended.kept (hl : CopyOf rx lane) : Kept P S x rx (Ended lane.ix) :=
  fun s s' ℓ _ _ ha hv h => by
    rw [Ended, ha.ring_eq (hv.held hl).2.1 h.1]
    exact h

theorem Indexed.kept (hl : CopyOf rx lane) {covered served : Prop} :
    Kept P S x rx fun s => Indexed s lane.ix lane.key.slot covered served :=
  fun s s' ℓ hc hℓ ha hv h => by
    obtain ⟨hk, hlt, hst, hsh⟩ := hv.held hl
    exact h.sender hc hℓ ha hlt hsh (by simp [hst]) (by rw [← hk])

theorem Pending.kept (hl : CopyOf rx lane) :
    Kept P S x rx fun s => s.ready.pending lane.ix = true :=
  fun _ _ _ _ _ ha hv h => ha.indexFrame.pending _ (hv.held hl).2.1 h

/-- Senders that mark the lane from now on can be found in the index. -/
def Watched (ℓ slot : Nat) (s : Chan V) : Prop :=
  s.ready.pending ℓ = true → s.ready.laneBit slot = true ∨ s.phase ℓ = .swapped

theorem SenderAct.swapped (ha : SenderAct P ℓ s s') {ℓ' : Nat} (hlt : ℓ' < s.count)
    (h : s.phase ℓ' = .swapped) :
    s'.phase ℓ' = .swapped ∨ s'.ready.laneBit (s.key ℓ').slot = true := by
  by_cases hne : ℓ' = ℓ
  · subst hne
    cases ha with
    | page hph => exact .inr ((Ready.laneBit_markPage ..).trans (by simp))
    | ring | space | swap | reply => first | exact .inl h | exact .inl (by simp_all)
    | register capacity halive hgone => exact .inl (by simpa [Sender.register, hlt.ne] using h)
    | group hph | bump hph | wake more hph | signal hph => simp [h] at hph
    | leave hd hq hgone => simp [h] at hq
  · exact .inl ((ha.phase_eq hlt hne).trans h)

theorem Watched.kept (hl : CopyOf rx lane) :
    Kept P S x rx (Watched lane.ix lane.key.slot) := fun s s' ℓ hc hℓ ha hv h hp => by
  obtain ⟨hk, hlt, -⟩ := hv.held hl
  rcases ha.indexFrame.marked _ hlt hp with hp | ⟨heq, hph, -⟩
  · rcases h hp with hb | hs
    · exact .inl (ha.indexFrame.laneBit _ hb)
    · have := ha.swapped hlt hs
      rw [← hk] at this
      exact this.symm
  · exact .inr (heq ▸ hph)

/-! ## Looking at the ring -/

/-- The lane in hand, and what its counters count. -/
def Work (S : Setting) (x : Ctx V) (rx : Receiver) (lane : Lane) (s : Chan V) : Prop :=
  View S x rx s ∧ LaneCounts s lane

theorem Work.stable (hl : CopyOf rx lane) (hix : lane'.ix = lane.ix) :
    (recvC P S).Stable (Work S x rx lane') := (LaneCounts.kept hl hix).stable

theorem Work.stable_and {Q : Chan V → Prop} (hl : CopyOf rx lane) (hix : lane'.ix = lane.ix)
    (hQ : Kept P S x rx Q) : (recvC P S).Stable fun s => Work S x rx lane' s ∧ Q s := by
  simpa only [Work, and_assoc] using ((LaneCounts.kept hl hix).and hQ).stable

theorem Turned.kept : Kept P S x rx fun s => Turned S ℓ (popped s.trace) :=
  fun _ _ _ hc hℓ ha _ h w hw hlane => by
    rw [(ha.frame hc hℓ).trace]
    exact h w hw hlane

theorem foundNothing_kept (hl : CopyOf rx lane) :
    Kept P S x rx fun s => (s.ring lane.ix).found = 0 :=
  fun _ _ _ hc hℓ ha hv h => (hv.ringFrame hl (ha.frame hc hℓ)).found.trans h

/-- The last look at the tail found nothing: nothing the receiver is after is in the ring, and
    nothing the lane could wait for. -/
def Drained (S : Setting) (caught : Bool) (ℓ : Nat) (s : Chan V) : Prop :=
  (Misses S.aim caught ℓ ∧ Dry S.aim ℓ s ∧ Turned S ℓ (popped s.trace)) ∧ (s.ring ℓ).found = 0

theorem Drained.kept (hl : CopyOf rx lane) : Kept P S x rx (Drained S x.caught lane.ix) :=
  ((Kept.pure _).and (Dry.kept.and Turned.kept)).and (foundNothing_kept hl)

theorem View.misses (h : View S x rx s) (hdry : (s.ring ℓ).head = (s.ring ℓ).tail) :
    Misses S.aim x.caught ℓ := by
  rintro ℓ' n ha hb rfl
  have := h.aim
  simp only [ha, hb, AimOk, Bool.false_eq_true, if_false] at this
  exact absurd this.2.unread (by omega)

/-- A lane with nothing to read does not wait. -/
theorem View.turned (h : View S x rx s) (hdry : (s.ring ℓ).head = (s.ring ℓ).tail) :
    Turned S ℓ (popped s.trace) := by
  rintro w hw rfl
  exact (h.wait w hw).2.resolve_right fun hq => absurd hq.unread (by omega)

theorem Work.prefetch {l : Lane} (hw : Work S x rx l s) (hi : Inv P S.strict s)
    (hx : x.asleep = false) (hhot : x.hot = some l.ix) (hl : CopyOf rx l)
    (h₀ : l.cachedAvailable = 0) (hf : l.fastLeft = 0) :
    RecvStep P S s ((ringL l.ix).set (s.ring l.ix).prefetch.2 s) ∧
      (s.ring l.ix).head = (s.ring l.ix).cachedTail ∧
      Work S x rx { l with cachedAvailable := (s.ring l.ix).prefetch.1 }
        ((ringL l.ix).set (s.ring l.ix).prefetch.2 s) := by
  obtain ⟨hv, hn⟩ := hw
  obtain ⟨-, hlt, hst, hsh⟩ := hv.held hl
  have hhead : (s.ring l.ix).head = (s.ring l.ix).cachedTail := by
    have := hn.window
    omega
  have hcore : Core P ((ringL l.ix).set (s.ring l.ix).prefetch.2 s) :=
    hi.core.pull hlt hst hsh (.prefetch _) (t := s.trace) (by simp)
  have hact : RecvAct P s ((ringL l.ix).set (s.ring l.ix).prefetch.2 s) :=
    .quiet (Pull.prefetch _).toConsumeStep (.inr ⟨rfl, (Pull.prefetch _).isClosed_eq _⟩)
  have hview : View S x rx ((ringL l.ix).set (s.ring l.ix).prefetch.2 s) :=
    hv.setRing (fun _ _ => ⟨hhot, (Pull.prefetch _).toConsumeStep, rfl⟩) x.owed s.owed
      (hv.owed.setRing rfl)
  refine ⟨.of_view hi hv hx hcore hact rfl rfl, hhead, hview, ?_⟩
  have hct := (hi.core.lane l.ix).ok.cachedTail_le
  refine { hn with window := ?_, credit := ?_, batch := ?_ }
  · simp only [ringL, Function.update_self, Ring.prefetch, hf]
    omega
  · simpa [ringL, Ring.prefetch] using hn.credit
  · simpa [ringL, Ring.prefetch] using hn.batch

theorem Passed.kept : Kept P S x rx fun s => Passed S ℓ s.trace :=
  fun _ _ _ hc hℓ ha _ h t ht => by
    rw [(ha.frame hc hℓ).trace]
    exact h t ht

/-- A look at the published tail; `E` is what is learned of the lane. -/
theorem prefetch_spec {l : Lane} {R : Chan V → Prop} {E : Nat → Chan V → Prop}
    (hx : x.asleep = false)
    (hhot : x.hot = some l.ix) (hl : CopyOf rx l) (h₀ : l.cachedAvailable = 0)
    (hf : l.fastLeft = 0) (hR : Kept P S x rx R) (hE : ∀ n, Kept P S x rx (E n))
    (h : ∀ s, Core P s → View S x rx s → (s.ring l.ix).head = (s.ring l.ix).cachedTail →
      R s → E (s.ring l.ix).prefetch.1
        ((ringL l.ix).set (s.ring l.ix).prefetch.2 s)) :
    Triple (recvC P S) (fun s => Work S x rx l s ∧ R s) (prefetch l.ix) fun n s =>
      Work S x rx { l with cachedAvailable := n } s ∧ E n s :=
  recv_atomic (Work.stable_and hl rfl hR) (fun n => Work.stable_and hl rfl (hE n)) fun s hi hw => by
    obtain ⟨hstep, hhead, hw'⟩ := hw.1.prefetch hi hx hhot hl h₀ hf
    exact ⟨hstep, hw', h s hi.core hw.1.1 hhead hw.2⟩

/-- The look that follows the clearing of the readiness: an empty lane was seen to be. -/
theorem prefetchCleared_spec {l : Lane} {R : Chan V → Prop} {E : Nat → Chan V → Prop}
    (hx : x.asleep = false) (hhot : x.hot = some l.ix) (hl : CopyOf rx l)
    (h₀ : l.cachedAvailable = 0) (hf : l.fastLeft = 0) (hR : Kept P S x rx R)
    (hE : ∀ n, Kept P S x rx (E n)) (hrecord : ∀ n s e, E n s → E n (s.record e))
    (h : ∀ s, Core P s → View S x rx s → (s.ring l.ix).head = (s.ring l.ix).cachedTail →
      R s → E (s.ring l.ix).prefetch.1
        ((ringL l.ix).set (s.ring l.ix).prefetch.2 s)) :
    Triple (recvC P S) (fun s => Work S x rx l s ∧ R s) (prefetchCleared l.ix) fun n s =>
      Work S x rx { l with cachedAvailable := n } s ∧ E n s ∧ (n = 0 → Passed S l.ix s.trace) := by
  refine recv_atomic (Work.stable_and hl rfl hR)
    (fun n => Work.stable_and hl rfl ((hE n).and (.imp fun _ => Passed.kept))) fun s hi hw => ?_
  obtain ⟨hstep, hhead, hv', hn'⟩ := hw.1.prefetch hi hx hhot hl h₀ hf
  have he := h s hi.core hw.1.1 hhead hw.2
  simp only
  split
  · next hn =>
    -- an empty window after a look at the tail means that everything published was popped
    have hempty : (s.ring l.ix).tail ≤ (ofLane l.ix (popped s.trace)).length := by
      have hlane := hi.core.lane l.ix
      obtain ⟨-, -, -, hsh⟩ := hw.1.1.held hl
      have h₁ : (s.ring l.ix).tail - (s.ring l.ix).cachedTail = 0 := hn
      have h₂ := hlane.ok.head_le_length
      rw [hlane.popped_eq hsh, List.length_take]
      omega
    exact ⟨hstep.seeEmpty _ (by simpa [ringL, Ring.prefetch] using hempty),
      ⟨hv'.seeEmpty _, { hn' with }⟩, hrecord _ _ _ he,
      fun _ => hv'.passed _⟩
  · next hne => exact ⟨hstep, ⟨hv', hn'⟩, he, fun h => absurd h hne⟩

/-- What an empty window says about the lane. -/
theorem drained_of_prefetch (hv : View S x rx s) (hc : Core P s)
    (hhead : (s.ring ℓ).head = (s.ring ℓ).cachedTail) (h₀ : (s.ring ℓ).prefetch.1 = 0) :
    Drained S x.caught ℓ ((ringL ℓ).set (s.ring ℓ).prefetch.2 s) := by
  have hct := (hc.lane ℓ).ok.cachedTail_le
  have heq : (s.ring ℓ).head = (s.ring ℓ).tail := by
    simp only [Ring.prefetch] at h₀
    omega
  exact ⟨⟨hv.misses heq, fun _ _ => (by simpa [ringL, Ring.prefetch] using heq), hv.turned heq⟩,
    by simpa [ringL, Ring.prefetch] using h₀⟩

/-- A reload; `E` is what is learned of a lane that is still empty, `R` what is kept. -/
theorem reload_spec {l : Lane} {R E : Chan V → Prop} (hx : x.asleep = false)
    (hhot : x.hot = some l.ix)
    (hl : CopyOf rx l) (hf : l.fastLeft = 0) (hR : Kept P S x rx R) (hE : Kept P S x rx E)
    (hstep : ∀ s, R s → R ((ringL l.ix).set (s.ring l.ix).prefetch.2 s))
    (h : ∀ s, Core P s → View S x rx s → (s.ring l.ix).head = (s.ring l.ix).cachedTail →
      (s.ring l.ix).prefetch.1 = 0 → R s →
      E ((ringL l.ix).set (s.ring l.ix).prefetch.2 s)) :
    Triple (recvC P S) (fun s => Work S x rx l s ∧ R s) l.reload fun lane' s =>
      (lane' = { l with cachedAvailable := lane'.cachedAvailable } ∧
        (lane'.cachedAvailable = 0 → l.cachedAvailable = 0)) ∧ Work S x rx lane' s ∧
        R s ∧ (lane'.cachedAvailable = 0 → E s) := by
  rw [Lane.reload]
  split
  · next h₀ =>
    exact Triple.map (prefetch_spec (E := fun n s => R s ∧ (n = 0 → E s)) hx hhot hl h₀ hf hR
      (fun _ => hR.and (.imp fun _ => hE))
      fun s hc hv hhead hr => ⟨hstep s hr, fun hn => h s hc hv hhead hn hr⟩)
      fun n s _ h => ⟨⟨rfl, fun _ => h₀⟩, h⟩
  · next h₀ =>
    exact Triple.ret ((Contract.Stable.pure _).and
      (Work.stable_and hl rfl (hR.and (.imp fun _ => hE))))
      fun s _ h => ⟨⟨rfl, id⟩, h.1, h.2, fun h => absurd h h₀⟩

theorem reload_drained {l : Lane} (hx : x.asleep = false) (hhot : x.hot = some l.ix)
    (hl : CopyOf rx l)
    (hf : l.fastLeft = 0) :
    Triple (recvC P S) (Work S x rx l) l.reload fun lane' s =>
      (lane' = { l with cachedAvailable := lane'.cachedAvailable } ∧
        (lane'.cachedAvailable = 0 → l.cachedAvailable = 0)) ∧ Work S x rx lane' s ∧
        (lane'.cachedAvailable = 0 → Drained S x.caught l.ix s) :=
  (reload_spec (R := fun _ => True) hx hhot hl hf (.pure _) (Drained.kept hl) (fun _ h => h)
    fun _ hc hv hhead hn _ => drained_of_prefetch hv hc hhead hn).conseq
    (fun _ _ hw => ⟨hw, trivial⟩) fun _ _ _ h => ⟨h.1, h.2.1, h.2.2.2⟩

/-! ## Giving slots back -/

theorem LaneCounts.closeFast (h : LaneCounts s lane) (hc : Core P s) :
    LaneCounts s lane.closeFast := by
  have h₁ := h.window
  have h₂ := h.credit
  have h₃ := h.unreleased_le
  have h₄ := h.burst_le
  have h₅ := (hc.lane lane.ix).ok.released_le
  refine { h with window := ?_, credit := ?_, unreleased_le := ?_, burst_le := ?_, fast_le := ?_ }
  all_goals simp only [Lane.closeFast]; omega

/-- A fast window was charged to the credit and to the burst when it was opened. -/
theorem LaneCounts.fast_refund (h : LaneCounts s lane) (hc : Core P s) :
    lane.fastLeft ≤ lane.unreleased ∧ lane.fastLeft ≤ lane.burst := by
  refine ⟨?_, h.fast_le⟩
  have hcredit := h.credit
  have hle := (hc.lane lane.ix).ok.released_le
  omega

theorem Triple.ensure {A : Type} {p : Prop} [Decidable p] {φ : Chan V → Prop}
    {f : Unit → Prog (Chan V) A} {Q : A → Chan V → Prop} (hp : p)
    (hf : Triple (recvC P S) φ (f ()) Q) : Triple (recvC P S) φ (Mpsc.ensure p >>= f) Q := by
  rw [Mpsc.ensure, if_pos hp]
  exact hf

/-- Closing the fast window of a lane whose counters are right does not underflow. -/
theorem Triple.closing {A : Type} {φ : Chan V → Prop} {f : Lane → Prog (Chan V) A}
    {Q : A → Chan V → Prop} (h : ∀ s, Inv P S.strict s → φ s → LaneCounts s lane)
    (hf : Triple (recvC P S) φ (f lane.closeFast) Q) :
    Triple (recvC P S) φ (lane.closing >>= f) Q := by
  refine Triple.given (φ := lane.fastLeft ≤ lane.unreleased ∧ lane.fastLeft ≤ lane.burst)
    (fun s hi hφ => (h s hi hφ).fast_refund hi.core) fun hguard => ?_
  rw [Lane.closing, Mpsc.ensure, if_pos hguard]
  exact hf

/-- The lane with all its credit given back. -/
def Lane.released (lane : Lane) : Lane := { lane.closeFast with unreleased := 0 }

/-- The step that publishes the slots of a lane. -/
def Lane.publish (lane : Lane) (s : Chan V) : Chan V :=
  let s' := (ringL lane.ix).set (s.ring lane.ix).release.2 s
  (setOwed lane.ix .due s').record (.publish lane.ix lane.closeFast.unreleased
    lane.closeFast.cachedAvailable lane.releaseBatch (s'.ring lane.ix).found)

theorem found_release :
    (((ringL ℓ).set (s.ring ℓ).release.2 s).ring ℓ).found = (s.ring ℓ).found := by
  simp [ringL, Ring.release]

theorem LaneCounts.released (h : LaneCounts s lane) (hc : Core P s) :
    LaneCounts (lane.publish s) lane.released := by
  have h' := h.closeFast hc
  refine { h' with window := ?_, credit := ?_, batch := ?_, unreleased_le := Nat.zero_le _ }
  · simpa [Lane.publish, Chan.record, setOwed, ringL, Ring.release, Lane.released, Lane.closeFast]
      using h'.window
  · simp [Lane.publish, Chan.record, setOwed, ringL, Ring.release, Lane.released, Lane.closeFast]
  · simpa [Lane.publish, Chan.record, setOwed, ringL, Ring.release, Lane.released, Lane.closeFast]
      using h.batch

theorem LaneCounts.published (h : LaneCounts s lane) (hc : Core P s) :
    Published (s.ring lane.ix) lane.closeFast.unreleased lane.closeFast.cachedAvailable
      lane.releaseBatch (s.ring lane.ix).found := by
  have h' := h.closeFast hc
  exact ⟨h'.credit, (Nat.add_comm ..).trans h'.window, h.batch, rfl⟩

theorem releaseStep (r : Ring V) : r.ConsumeStep r.release.2 := { Ring.ConsumeStep.refl r with }

theorem RecvStep.release (hi : Inv P S.strict s) (hv : View S x rx s) (hx : x.asleep = false)
    (hn : LaneCounts s lane) : RecvStep P S s (lane.publish s) := by
  have hsilent : ∀ found, ∀ e ∈ [Event.publish (V := V) lane.ix lane.closeFast.unreleased
      lane.closeFast.cachedAvailable lane.releaseBatch found], e.silent = true := by
    simp [Event.silent]
  refine
    { core := (hi.core.release).setTrace (popped_silent _ (hsilent _))
      act := .setRing_due (releaseStep _) s.shut s.closings (fun _ => .idle _ _) _ (by simp)
        (fun ℓ n m b f hm => ?_) (by simp) rfl (.inl ⟨_, _, _, _, List.mem_singleton.mpr rfl⟩)
      awake := hv.awake hx
      trace := fun hst => (hi.trace hst).silent (hsilent _) }
  cases List.mem_singleton.mp hm
  rw [found_release]
  exact hn.published hi.core

theorem View.release (hv : View S x rx s) (hhot : x.hot = some lane.ix) (howed : x.owed = none)
    (hl : CopyOf rx lane) (hspare : S.single = none ∨
      lane.closeFast.cachedAvailable = 0 ∧ (s.ring lane.ix).found = 0 ∨
      lane.closeFast.unreleased = lane.releaseBatch) :
    View S (x.released lane.ix true) rx (lane.publish s) := by
  obtain ⟨-, hlt, -, -⟩ := hv.held hl
  refine View.silent (hv.setRing (fun _ _ => ⟨hhot, releaseStep _, rfl⟩) _ _
    (hv.owed.due (.inl howed) hlt)) (by simp [Event.silent]) (hspare.imp_right fun h => ?_)
  simpa [Event.sparing, found_release] using h

theorem LaneOk.of_released (h : LaneCounts s lane) (hc : Core P s) (hu : lane.unreleased = 0)
    (hb : lane.burst < prefetchLimit) : LaneOk s lane := by
  refine ⟨h, ?_, hb⟩
  have hcap := (hc.lane lane.ix).ok.cap_pos
  have hbatch := h.batch
  simp only [minReleaseBatch] at hbatch
  omega

theorem prefetchLimit_pos : 0 < prefetchLimit := by decide

/-- A burst ends, with no fast window open. -/
theorem LaneCounts.endBurst (h : LaneCounts s lane) (hf : lane.fastLeft = 0) :
    LaneCounts s { lane with burst := 0 } :=
  { h with burst_le := Nat.zero_le _, fast_le := hf.le }

theorem releasePending_spec {R : Chan V → Prop} (hx : x.asleep = false)
    (hhot : x.hot = some lane.ix) (howed : x.owed = none) (hl : CopyOf rx lane)
    (hspare : S.single = none ∨
      (lane.closeFast.cachedAvailable = 0 ∧ ∀ s, R s → (s.ring lane.ix).found = 0) ∨
      lane.closeFast.unreleased = lane.releaseBatch)
    (hR : Kept P S x rx R) (hR' : ∀ b, Kept P S (x.released lane.ix b) rx R)
    (h : ∀ s e, R s →
      R ((setOwed lane.ix .due ((ringL lane.ix).set (s.ring lane.ix).release.2 s)).record e)) :
    Triple (recvC P S) (fun s => Work S x rx lane s ∧ R s) lane.releasePending fun r s =>
      r.2 = lane.released ∧ Work S (x.released lane.ix r.1) rx lane.released s ∧ R s := by
  have hx' : x.released lane.ix false = x := by rw [Ctx.released, ← howed]; rfl
  refine Triple.closing (fun s _ h => h.1.2) ?_
  split
  · next h₀ =>
    have heq : lane.closeFast = lane.released := by rw [Lane.released, ← h₀]
    refine Triple.ret ?_ fun s hi hw => ⟨heq, ?_⟩
    · exact (Contract.Stable.pure _).and (Work.stable_and hl rfl (hR' _))
    · refine ⟨⟨hx'.symm ▸ hw.1.1, ?_⟩, hw.2⟩
      have := hw.1.2.closeFast hi.core
      exact heq ▸ this
  · next h₀ =>
    refine Triple.map (Q := fun _ s => Work S (x.released lane.ix true) rx lane.released s ∧ R s)
      (recv_atomic (Work.stable_and hl rfl hR) (fun _ => Work.stable_and hl rfl (hR' _))
        fun s hi hw => ?_) fun _ s _ h => ⟨rfl, h⟩
    obtain ⟨⟨hv, hn⟩, hr⟩ := hw
    have hstep : RecvStep P S s (lane.publish s) := .release hi hv hx hn
    have hspare := hspare.imp_right (Or.imp_left fun hs => And.intro hs.1 (hs.2 s hr))
    exact ⟨hstep, ⟨hv.release hhot howed hl hspare, hn.released hi.core⟩, h s _ hr⟩

/-! ## A lane found empty -/

/-- What is known of a settled lane: it holds values again, or it can be left to the index, or it
    has ended. -/
def Verdict (l : Held) (lane' : Lane) (s : Chan V) : EmptyLane → Prop
  | .keep _ => lane'.queued = l.queued ∧ 0 < lane'.cachedAvailable ∧ s.ready.pending l.ix = true
  | .idle true _ => lane'.queued = false ∧ Ended l.ix s
  | .idle false _ => lane'.queued = false ∧ Indexed s l.ix l.key.slot False False

/-- A lane that was found empty is settled. -/
structure Settled (S : Setting) (x : Ctx V) (rx : Receiver) (l : Held) (e : EmptyLane)
    (lane' : Lane) (s : Chan V) : Prop where
  ix : lane'.ix = l.ix
  key : lane'.key = l.key
  fast : lane'.fastLeft = 0
  credit : lane'.unreleased = 0
  ok : LaneOk s lane'
  misses : Misses S.aim x.caught l.ix
  turned : Turned S l.ix (popped s.trace)
  passed : ∀ disconnected released, e = .idle disconnected released → Passed S l.ix s.trace
  view : View S { x.released l.ix e.released with exempt := some l.ix } rx s
  verdict : Verdict l lane' s e
  alone : ∀ dry, S.aim = .alone dry → ∃ released, e = .idle true released

/-- After the second look at an empty ring. -/
theorem settled_of_prefetch {slot : Nat} (hc : Core P s) (hw : Watched ℓ slot s)
    (hhead : (s.ring ℓ).head = (s.ring ℓ).cachedTail) (h₀ : (s.ring ℓ).prefetch.1 = 0) :
    Ended ℓ ((ringL ℓ).set (s.ring ℓ).prefetch.2 s) ∨
      Indexed ((ringL ℓ).set (s.ring ℓ).prefetch.2 s) ℓ slot False False := by
  have hct := (hc.lane ℓ).ok.cachedTail_le
  have heq : (s.ring ℓ).head = (s.ring ℓ).tail := by
    simp only [Ring.prefetch] at h₀
    omega
  have hsig := (hc.lane ℓ).signaled_le
  have hcomp := hc.completed_le ℓ
  cases hd : s.dropMarked ℓ with
  | true =>
    -- the sender dropped its half before it marked the lane for the last time
    have hdrop := (hc.lane ℓ).dropMarked hd
    refine .inl ⟨by simpa [ringL, Ring.prefetch] using hdrop, ?_⟩
    have := (hc.lane ℓ).ok.dropped hdrop
    simpa [ringL, Ring.prefetch, heq] using this
  | false =>
    refine .inr ⟨fun hp => .inr (hw hp), fun _ => ⟨?_, hd⟩, fun _ => .inr ?_, .inr ?_⟩
    · simpa [ringL, Ring.prefetch, heq] using hsig
    · simpa [ringL, Ring.prefetch, heq] using le_trans hcomp hsig
    · simpa [ringL, Ring.prefetch, heq] using hc.resumed_le ℓ

theorem View.dropped {dry : Option Bool} (h : View S x rx s) (hc : Core P s)
    (ha : S.aim = .alone dry) (hℓ : ℓ < s.count) : (s.ring ℓ).producerDropped = true := by
  have haim := h.aim
  rw [ha] at haim
  exact (hc.lane ℓ).dropMarked (hc.gone ℓ (haim.1 ℓ hℓ)).1

theorem isDisconnected_spec {l : Lane} {I R : Chan V → Prop} (hl : CopyOf rx l)
    (hI : Kept P S x rx I)
    (hR : Kept P S x rx R) :
    Triple (recvC P S)
      (fun s => View S x rx s ∧ R s ∧ (Ended l.ix s ∨ I s) ∧ Dry S.aim l.ix s)
      (Ring.isDisconnected (ringL l.ix))
      fun d s => View S x rx s ∧ R s ∧ (if d then Ended l.ix s else I s) ∧
        ∀ dry, S.aim = .alone dry → d = true := by
  have hpre : Kept P S x rx fun s => R s ∧ (Ended l.ix s ∨ I s) ∧ Dry S.aim l.ix s :=
    hR.and (((Ended.kept hl).or hI).and Dry.kept)
  have hpost : ∀ d : Bool, Kept P S x rx fun s => R s ∧ (if d then Ended l.ix s else I s) ∧
      ∀ dry, S.aim = .alone dry → d = true := by
    rintro (_ | _)
    · exact hR.and (.and (by simpa using hI) (.pure _))
    · exact hR.and (.and (by simpa using Ended.kept hl) (.pure _))
  refine Triple.bind (Q := fun b s => View S x rx s ∧ if b then
      (R s ∧ (Ended l.ix s ∨ I s) ∧ Dry S.aim l.ix s) ∧
        (s.ring l.ix).producerDropped = true
      else R s ∧ I s ∧ ∀ dry, S.aim ≠ .alone dry) (recv_read hpre.stable ?_ ?_) ?_
  · rintro (_ | _)
    · exact (hR.and (hI.and (.pure _))).stable
    · exact (hpre.and (Dropped.kept hl)).stable
  · rintro s hi ⟨hv, h⟩
    refine ⟨hv, ?_⟩
    cases hd : (s.ring l.ix).producerDropped with
    | true => simpa [ringL, hd] using h
    | false =>
      simp only [ringL, hd, Bool.false_eq_true, if_false]
      refine ⟨h.1, h.2.1.resolve_left fun he => by simp [he.1] at hd, fun dry ha => ?_⟩
      rw [hv.dropped hi.core ha (hv.held hl).2.1] at hd
      exact absurd hd (by simp)
  · rintro (_ | _)
    · exact Triple.ret (hpost false).stable fun s _ h =>
        ⟨h.1, h.2.1, h.2.2.1, fun dry ha => absurd ha (h.2.2.2 dry)⟩
    · refine recv_read (hpre.and (Dropped.kept hl)).stable (fun d => (hpost d).stable) ?_
      rintro s hi ⟨hv, ⟨hr, h, hdry⟩, hd⟩
      refine ⟨hv, hr, ?_, fun dry ha => decide_eq_true (hdry dry ha)⟩
      have hlog := (hi.core.lane l.ix).ok.dropped hd
      by_cases heq : (s.ring l.ix).head = (s.ring l.ix).tail
      · simp only [ringL, heq, decide_true, if_true]
        exact ⟨hd, heq.trans hlog⟩
      · simp only [ringL, heq, decide_false, Bool.false_eq_true, if_false]
        exact h.resolve_left fun he => heq (he.2.trans hlog.symm)

theorem settleEmpty_spec {l : Lane} (hx : x.asleep = false) (hhot : x.hot = some l.ix)
    (howed : x.owed = none) (hex : x.exempt = none) (hswept : x.swept = false)
    (hquiet : x.quiet = false) (hl : CopyOf rx l) (h₀ : l.cachedAvailable = 0)
    (hf : l.fastLeft = 0) :
    Triple (recvC P S) (fun s => Work S x rx l s ∧ Drained S x.caught l.ix s)
      l.settleEmpty fun r s => Settled S x rx l.skel r.1 r.2 s := by
  have hrl : CopyOf rx l.released := hl.of_skel rfl
  refine Triple.seq (releasePending_spec hx hhot howed hl (.inr (.inl ⟨?_, fun _ h => h.2⟩))
    (Drained.kept hl) (fun _ => Drained.kept hl)
    fun s e h => ⟨⟨h.1.1, fun dry ha => ?_, ?_⟩, ?_⟩) fun r => ?_
  · rw [Lane.closeFast, h₀, hf]
  · simpa [Chan.record, setOwed, ringL, Ring.release] using h.1.2.1 dry ha
  · rw [Chan.record, popped_append]
    exact h.1.2.2.append _
  · simpa [Chan.record, setOwed, ringL, Ring.release] using h.2
  obtain ⟨released, lane₁⟩ := r
  refine Triple.given (φ := lane₁ = l.released ∧ Misses S.aim x.caught l.ix)
    (fun s _ h => ⟨h.now.1, h.now.2.2.1.1⟩) ?_
  rintro ⟨rfl, hmiss⟩
  -- the flag is cleared: from here on a sender that publishes marks the l again
  let x₁ : Ctx V := { x.released l.ix released with exempt := some l.ix }
  refine Triple.bind (Q := fun _ s => Work S x₁ rx l.released s ∧
      Watched l.ix l.key.slot s ∧ Dry S.aim l.ix s ∧ Turned S l.ix (popped s.trace))
    (recv_atomic Contract.Lasting.stable
      (fun _ => Work.stable_and hl rfl ((Watched.kept hl).and (Dry.kept.and Turned.kept)))
      fun s hi h => ?_) fun _ => ?_
  · obtain ⟨-, ⟨hv, hn⟩, ⟨-, hdry⟩, -⟩ := h.now
    refine ⟨.of_view hi hv hx (hi.core.setReady fun _ hp => hp) .setReady rfl rfl,
      ⟨hv.finishDrain hl hex hswept hquiet hmiss, { hn with }⟩, fun hp => ?_, hdry⟩
    exact absurd ((Function.update_self ..).symm.trans hp) Bool.false_ne_true
  refine Triple.seq (prefetchCleared_spec (l := l.released) (x := x₁)
    (R := fun s => Watched l.ix l.key.slot s ∧ Dry S.aim l.ix s ∧ Turned S l.ix (popped s.trace))
    (E := fun n s => (n = 0 → (Ended l.ix s ∨ Indexed s l.ix l.key.slot False False) ∧
      Dry S.aim l.ix s) ∧ (n ≠ 0 → ∀ dry, S.aim ≠ .alone dry) ∧ Turned S l.ix (popped s.trace))
    hx hhot hrl (by simp [Lane.released, Lane.closeFast, h₀, hf]) rfl
    ((Watched.kept hl).and (Dry.kept.and Turned.kept))
    (fun n => (Kept.imp fun _ => ((Ended.kept hl).or (Indexed.kept hl)).and Dry.kept).and
      ((Kept.pure _).and Turned.kept)) (fun n s e h =>
        ⟨fun hn => ⟨(h.1 hn).1.imp_right fun hi => { hi with }, (h.1 hn).2⟩, h.2.1, ?_⟩)
    fun s hc hv hhead hr => ?_) fun n => ?_
  · rw [Chan.record, popped_append]
    exact h.2.2.append _
  · refine ⟨fun hn => ⟨settled_of_prefetch hc hr.1 hhead hn,
      (drained_of_prefetch hv hc hhead hn).1.2.1⟩, fun hn dry ha => hn ?_, hr.2.2⟩
    have hdry := hr.2.1 dry ha
    change (s.ring l.ix).head = (s.ring l.ix).cachedTail at hhead
    change (s.ring l.ix).tail - (s.ring l.ix).cachedTail = 0
    omega
  split
  · next hn =>
    -- somebody published in between: the l is claimed again
    refine Triple.map (Q := fun _ s => Work S x₁ rx { l.released with cachedAvailable := n } s ∧
        (∀ dry, S.aim ≠ .alone dry) ∧ s.ready.pending l.ix = true ∧ Turned S l.ix (popped s.trace))
      (recv_atomic Contract.Lasting.stable
        (fun _ => Work.stable_and hl rfl ((Kept.pure _).and ((Pending.kept hl).and Turned.kept)))
        fun s hi h => ?_) fun _ s hi h => ?_
    · obtain ⟨⟨hv, hc⟩, ⟨-, ha, ht⟩, -⟩ := h.now
      exact ⟨.of_view hi hv hx (hi.core.setReady fun _ hp => hp) .setReady rfl rfl,
        ⟨hv.claimAfterEmpty hl rfl hswept hquiet, { hc with }⟩, ha hn, Function.update_self .., ht⟩
    · obtain ⟨⟨hv, hc⟩, ha, hp, ht⟩ := h
      exact
        { ix := rfl, key := rfl, fast := rfl, credit := rfl
          ok := LaneOk.of_released (hc.endBurst rfl) hi.core rfl prefetchLimit_pos
          misses := hmiss
          turned := ht
          passed := fun _ _ h => by cases h
          view := hv
          verdict := ⟨rfl, Nat.pos_of_ne_zero hn, hp⟩
          alone := fun dry hd => absurd hd (ha dry) }
  · next hn =>
    obtain rfl : n = 0 := not_not.mp hn
    refine Triple.map ((isDisconnected_spec (x := x₁) (l := l.released)
      (I := fun s => Indexed s l.ix l.key.slot False False)
      (R := fun s => LaneCounts s { l.released with cachedAvailable := 0 } ∧
        Passed S l.ix s.trace ∧ Turned S l.ix (popped s.trace))
      hrl (Indexed.kept hl) (.and (LaneCounts.kept hl rfl) (Passed.kept.and Turned.kept))).pre
      fun s _ h => ?_) fun d s hi h => ?_
    · obtain ⟨⟨hv, hc⟩, ⟨he, -, ht⟩, hpass⟩ := h.now
      exact ⟨hv, ⟨hc, hpass rfl, ht⟩, he rfl⟩
    · obtain ⟨hv, ⟨hc, hpass, ht⟩, hd, ha⟩ := h
      exact
        { ix := rfl, key := rfl, fast := rfl, credit := rfl
          ok := (LaneOk.of_released (hc.endBurst rfl) hi.core rfl prefetchLimit_pos).of_queued false
          misses := hmiss
          turned := ht
          passed := fun _ _ _ => hpass
          view := hv
          verdict := by cases d <;> exact ⟨rfl, hd⟩
          alone := fun dry hdry => ⟨released, by rw [ha dry hdry]⟩ }

/-- What a refill leaves: a lane that holds values, or a settled one. -/
def Refilled (S : Setting) (x : Ctx V) (rx : Receiver) (lane : Lane) :
    Option EmptyLane × Lane → Chan V → Prop
  | (none, lane'), s => lane'.skel = lane.skel ∧ lane'.fastLeft = 0 ∧ 0 < lane'.cachedAvailable ∧
      LaneOk s lane' ∧ View S x rx s ∧ lane'.spent = lane.spent
  | (some e, lane'), s => lane.cachedAvailable + lane.fastLeft = 0 ∧
      Settled S x rx lane.skel e lane' s

theorem refill_spec (hx : x.asleep = false) (hhot : x.hot = some lane.ix)
    (howed : x.owed = none) (hex : x.exempt = none) (hswept : x.swept = false)
    (hquiet : x.quiet = false) (hl : CopyOf rx lane) :
    Triple (recvC P S) (fun s => View S x rx s ∧ LaneOk s lane) lane.refill
      (Refilled S x rx lane) := by
  refine Triple.given (φ := lane.unreleased < lane.releaseBatch ∧ lane.burst < prefetchLimit)
    (fun s _ h => ⟨h.2.unreleased_lt, h.2.burst_lt⟩) fun ⟨hu, hb⟩ => ?_
  refine Triple.closing (fun s _ h => h.2.toLaneCounts) ?_
  refine Triple.seq ((reload_drained (l := lane.closeFast) hx hhot (hl.of_skel rfl) rfl).pre
    fun s hi h => ⟨h.1, h.2.toLaneCounts.closeFast hi.core⟩) fun lane₁ => ?_
  refine Triple.given (fun s _ h => h.now.1) fun ⟨hlane, hempty⟩ => ?_
  have hsk : lane₁.skel = lane.skel := by rw [hlane]; rfl
  have hf₁ : lane₁.fastLeft = 0 := by rw [hlane]; rfl
  split
  · next h₀ =>
    refine Triple.map ((settleEmpty_spec (l := lane₁) hx ?_ howed hex hswept hquiet
      (hl.of_skel hsk) h₀ hf₁).pre fun s _ h => ?_) fun r s _ h => ?_
    · rw [hhot, hlane]
      rfl
    · exact ⟨h.now.2.1, by rw [hlane]; exact h.now.2.2 h₀⟩
    · exact ⟨hempty h₀, hsk ▸ h⟩
  · next h₀ =>
    refine Triple.done fun s hi h =>
      ⟨hsk, hf₁, Nat.pos_of_ne_zero h₀, ⟨h.2.1.2, ?_, ?_⟩, h.2.1.1, ?_⟩
    · rw [hlane]
      exact lt_of_le_of_lt (Nat.sub_le ..) hu
    · rw [hlane]
      exact lt_of_le_of_lt (Nat.sub_le ..) hb
    · rw [hlane]
      rfl

end Fanring.Mpsc
