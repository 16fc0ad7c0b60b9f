import Fanring.Mpsc.ControlSpec

/-!
# The MPSC channel: receives that wait

Triples for the blocking receives and for `poll_recv`. A receiver that registered to be notified
runs its second attempt under another aim (`Watch`): what it does not see it was told of, or is
going to be. When that attempt finds nothing, either somebody is on the way to it or there is
nothing to receive, and that is the reason the invariant asks of a sleeping receiver (`Sleeping`).

The contracts of all these aims are one and the same, since none of them obliges the code to return.
-/

set_option autoImplicit false

namespace Fanring.Mpsc

open Conc Chan

variable {V : Type} {P : Params} {s s' : Chan V} {ℓ : Nat} {x : Ctx V}
  {rx rx' : Receiver} {lane lane' : Lane} {key : LaneKey} {h : List (Nat × V)} {c : Bool} {n : Nat}
  {b : Bool}

/-- What a receive is run under besides its aim: the lane it is not to pop from, the lane it is to
    see empty, from where in the trace it publishes no part of a release batch, whether nobody is
    left to receive from, and the lane that waits for its turn. -/
structure Terms where
  keep : Option (Nat × Nat) := none
  scan : Option (Nat × Nat) := none
  single : Option Nat := none
  done : Bool := false
  wait : Option Wait := none

def Terms.none : Terms := {}

variable {k : Terms} {w w' : Watch} {S : Setting}

/-- The setting of a receiver that is to hear of things in this way. -/
def Setting.watching (strict : Bool) (k : Terms) (w : Watch) : Setting :=
  { strict := strict
    aim := .free w
    keep := k.keep
    scan := k.scan
    single := k.single
    done := k.done
    wait := k.wait }

theorem Setting.urgent_watching (c : Bool) : (Setting.watching b k w).Urgent c :=
  fun _ _ ha => by cases ha

theorem Setting.watching_plain (hk : k.keep = none ∧ k.scan = none ∧ k.wait = none) :
    (Setting.watching b k .none).Plain :=
  ⟨rfl, hk.1, hk.2.1, hk.2.2⟩

theorem View.freed (hv : View (.watching b k w) x rx s) : View (.watching b .none w) x rx s :=
  { hv with
    keep := fun ℓ n hk => by cases hk
    scan := fun ℓ t ht => by cases ht
    refused := fun _ ℓ t ht => by cases ht
    single := fun t ht => by cases ht
    done := fun ho => by cases ho
    wait := fun w hw => by cases hw }

/-- With nothing found or looked for, how the receiver is to hear of things can be changed. -/
theorem View.rewatch (hv : View (.watching b k w) x rx s) (hswept : x.swept = false)
    (haim : ∀ k c caught, AimOk (.free w') k c caught s) (c : Bool) (n : Nat) :
    View (.watching b k w') { x with quiet := false, caught := c, left := n } rx s :=
  { hv with
    budget := fun hst => { hv.budget hst with }
    swept := fun hx => absurd (hswept.symm.trans hx) (by simp)
    quiet := fun hx => absurd hx (by simp)
    aim := haim _ _ _
    left := fun dry hd => by cases hd }

/-- A receiver with a waker that found nothing. -/
theorem View.relabel
    (hv : View (.watching b k .async) { (Ctx.holding h c n).rested with quiet := true } rx s) :
    View (.watching b k .async) { Ctx.holding h false 0 with quiet := true } rx s :=
  { hv with
    budget := fun hst => { hv.budget hst with }
    left := fun dry hd => by cases hd }

theorem aimOk_none (k : Book) (c : Scan) (caught : Bool) : AimOk (.free .none) k c caught s :=
  trivial

theorem aimOk_async (k : Book) (c : Scan) (caught : Bool) : AimOk (.free .async) k c caught s :=
  trivial

/-- The receiver is about to wait or to try again. -/
theorem View.resting (hv : View (.watching b k w) (.holding h c n) rx s) :
    View (.watching b k .none) (.holding h false 0) rx s :=
  hv.rewatch rfl aimOk_none false 0

/-- What an attempt that found nothing leaves. -/
theorem NoValue.resting (hn : NoValue (.watching b k w) (.holding h c n) rx s .empty) :
    View (.watching b k .none) (.holding h false 0) rx s :=
  hn.1.rewatch rfl aimOk_none false 0

/-! ## Attempts -/

/-- What a receive that waited answers; only one with a deadline gives up. -/
def Waited (P : Params) (b : Bool) (k : Terms) (tagged deadline : Bool)
    (rx' : Receiver) (s : Chan V) : Except RecvError (Item V) → Prop
  | .ok item => View (.watching b k .none) (.holding [item.pair] false 0) rx' s ∧
      Genuine P tagged item s
  | .error .disconnected => View (.watching b k .none) (.holding [] false 0) rx' s ∧ Over s
  | .error .timeout => deadline = true ∧ View (.watching b k .none) (.holding [] false 0) rx' s
  | .error .empty => False

/-- The receiver may try again. -/
def Waiting (b : Bool) (k : Terms) (rx : Receiver) (s : Chan V) : Prop :=
  (b = true → rx.Solvent) ∧ View (.watching b k .none) (.holding [] false 0) rx s

theorem Waiting.stable : (recvC P (.watching b k .none)).Stable (Waiting (V := V) b k rx) :=
  (Contract.Stable.pure _).and View.stable

theorem Waited.stable {tagged deadline : Bool} {r : Except RecvError (Item V)} :
    (recvC P (.watching b k .none)).Stable fun s => Waited P b k tagged deadline rx s r := by
  match r with
  | .ok item => exact Genuine.kept.stable
  | .error .disconnected => exact Over.kept.stable
  | .error .timeout => exact (Contract.Stable.pure _).and View.stable
  | .error .empty => exact fun _ _ _ _ _ h => h

theorem Returned.waited {tagged : Bool} {r : Except RecvError (Item V)} (deadline : Bool)
    (hr : Returned P (.watching b k w) tagged [] c rx s r) :
    if r matches .error .empty then Waiting b k rx s
      else Waited P b k tagged deadline rx s r := by
  match r with
  | .ok item =>
    obtain ⟨n, hg, hv⟩ := hr
    exact ⟨hv.resting, hg⟩
  | .error .empty =>
    obtain ⟨n, hn, hsol⟩ := hr
    exact ⟨hsol.1, hn.resting⟩
  | .error .disconnected =>
    obtain ⟨n, hn, -⟩ := hr
    exact ⟨hn.1.resting, hn.2⟩
  | .error .timeout =>
    obtain ⟨n, hn, -⟩ := hr
    exact hn.elim

/-- What an attempt leaves. -/
def Attempted (P : Params) (b : Bool) (k : Terms) (tagged deadline : Bool)
    (rx' : Receiver) (s : Chan V) : Attempt Unit (Except RecvError (Item V)) → Prop
  | .done r => Waited P b k tagged deadline rx' s r
  | .pending _ => Waiting b k rx' s

theorem attempt_spec (tagged deadline : Bool) :
    Triple (recvC P (.watching b k .none)) (Waiting b k rx)
      ((Receiver.blocking P tagged).attempt rx ()) fun r s =>
        Attempted (V := V) P b k tagged deadline r.2 s r.1 := by
  refine Triple.given (φ := b = true → rx.Solvent) (fun s _ hw => hw.1) fun hsol => ?_
  refine Triple.seq ((tryRecvOutput_spec tagged (Setting.urgent_watching _) hsol).pre
    fun s _ hw => hw.2) fun r => ?_
  match r with
  | (.ok item, rx₁) => exact Triple.done fun s _ hr => hr.waited deadline
  | (.error .empty, rx₁) => exact Triple.done fun s _ hr => hr.waited deadline
  | (.error .disconnected, rx₁) => exact Triple.done fun s _ hr => hr.waited deadline
  | (.error .timeout, rx₁) => exact Triple.done fun s _ hr => hr.waited deadline

theorem spin_spec (tagged deadline : Bool) (spins : Nat) :
    Triple (recvC P (.watching b k .none)) (Waiting b k rx)
      ((Receiver.blocking P tagged).spin spins rx ()) fun r s =>
        Attempted (V := V) P b k tagged deadline r.2 s r.1 := by
  induction spins generalizing rx with
  | zero => exact Triple.ret Waiting.stable fun s _ hw => hw
  | succ spins ih =>
    refine Triple.seq (attempt_spec tagged deadline) fun r => ?_
    match r with
    | (.done r, rx₁) => exact Triple.done fun s _ hr => hr
    | (.pending _, rx₁) => exact ih.pre fun s _ hr => hr.now

/-! ## Registering -/

theorem register_spec :
    Triple (recvC P (.watching b k .none)) (Waiting b k rx) (dataL.access WaitCell.prepare)
      fun registration s => (b = true → rx.Solvent) ∧
        View (V := V) (.watching b k (.sync registration)) (.holding [] false 0) rx s := by
  have hstable : ∀ m, (recvC P (.watching b k .none)).Stable fun s : Chan V =>
      (b = true → rx.Solvent) ∧
        View (V := V) (.watching b k (.sync m)) (.holding [] false 0) rx s := fun m =>
    (Contract.Stable.pure _).and (View.stable (S := .watching b k (.sync m)))
  refine recv_atomic Waiting.stable hstable fun s hi hw => ?_
  have hc := hw.2.awake rfl
  have hv := hw.2.setData (c := s.data.prepare.2) rfl fun _ => hc
  exact ⟨⟨hi.core.setData _, { RecvAct.refl P s with }, hc, hi.trace⟩, hw.1,
    hv.rewatch rfl (fun _ _ _ => Nat.le_refl _) false 0⟩

theorem unregister_data_spec {R : Chan V → Prop} (hx : x.asleep = false)
    (hR : Kept P (.watching b k .none) x rx R) (hstep : ∀ s c, R s → R (dataL.set c s)) :
    Triple (recvC P (.watching b k .none)) (fun s => View (.watching b k .none) x rx s ∧ R s)
      (dataL.access WaitCell.unregister) fun _ s => View (.watching b k .none) x rx s ∧ R s :=
  dataStep_spec hx rfl (fun _ hc => hc) hR hstep

/-- A registered receiver that got somewhere: it is no longer registered, and tells the sender whose
    slots it gave back. -/
theorem deferred_spec {α : Type} {R : Chan V → Prop} {T : α → Chan V → Prop} {a : α}
    {released : Option LaneKey} {o : Option (Nat × Owed)} {registration : Nat}
    (hd : Debt rx released o) (hR : Framed P (.watching b k .none) R)
    (hT : (recvC P (.watching b k .none)).Stable (T a))
    (hpost : ∀ s, View (.watching b k .none) (.holding h false 0) rx s → R s → T a s) :
    Triple (recvC P (.watching b k .none)) (fun s =>
        View (.watching b k .none) { Ctx.holding h false 0 with owed := o } rx s ∧ R s)
      (((Receiver.blocking P c).unregister registration).bind fun _ =>
        ((Receiver.blocking P c).notify rx released).bind fun _ => .ret a) T := by
  refine (unregister_data_spec rfl (hR.kept _ _) fun s c hr => hR.step s _ rfl rfl rfl hr).bind
    fun _ => ?_
  refine Triple.bind (notifyReleased_spec (x := .holding h false 0) rfl hd
    (fun _ => hR.kept _ _) fun ℓ s c o hr => hR.step s _ rfl rfl rfl hr) fun _ => ?_
  exact Triple.ret hT fun s _ hv => hpost s hv.1 hv.2

/-! ## The attempt of a registered receiver -/

/-- What the attempt of a receiver registered in the way `w` leaves. -/
def Rechecked (P : Params) (b : Bool) (k : Terms) (w : Watch) (tagged : Bool)
    (rx' : Receiver) (s : Chan V) :
    Recheck Unit (Except RecvError (Item V)) (Option LaneKey) → Prop
  | .done (.ok item) released => ∃ o, Debt rx' released o ∧ Genuine P tagged item s ∧
      View (.watching b k .none) { Ctx.holding [item.pair] false 0 with owed := o } rx' s
  | .done (.error e) released => e = .disconnected ∧ released = none ∧
      View (.watching b k .none) (.holding [] false 0) rx' s ∧ Over s
  | .progressed _ released => (b = true → rx'.Solvent) ∧ ∃ o, Debt rx' released o ∧
      View (.watching b k .none) { Ctx.holding [] false 0 with owed := o } rx' s
  | .pending _ => (b = true → rx'.Solvent) ∧
      ∃ c n, NoValue (.watching b k w) (.holding [] c n) rx' s .empty

theorem recheck_spec (tagged : Bool) (hsol : b = true → rx.Solvent) :
    Triple (recvC P (.watching b k .none)) (View (.watching b k w) (.holding [] false 0) rx)
      ((Receiver.blocking P tagged).recheck rx ()) fun r s =>
        Rechecked (V := V) P b k w tagged r.2 s r.1 := by
  refine Triple.seq (tryRecvInner_spec (S := .watching b k w) false tagged
    (Setting.urgent_watching _) hsol) fun r => ?_
  match r with
  | ((.ok item, released), rx₁) =>
    refine Triple.done fun s _ hr => ?_
    obtain ⟨n, o, hd, hg, hv⟩ := hr
    exact ⟨o, hd, hg, hv.rewatch rfl aimOk_none false 0⟩
  | ((.error .empty, some key), rx₁) =>
    refine Triple.done fun s _ hr => ?_
    obtain ⟨-, n, o, -, hd, hsol, hv⟩ := hr
    exact ⟨hsol, o, hd, hv.rewatch rfl aimOk_none false 0⟩
  | ((.error .empty, none), rx₁) =>
    refine Triple.done fun s _ hr => ?_
    obtain ⟨n, hn, hsol⟩ := hr
    exact ⟨hsol.1, false, n, hn⟩
  | ((.error .disconnected, some key), rx₁) => exact Triple.done fun s _ hr => by cases hr.1
  | ((.error .timeout, some key), rx₁) => exact Triple.done fun s _ hr => by cases hr.1
  | ((.error .disconnected, none), rx₁) =>
    refine Triple.done fun s _ hr => ?_
    obtain ⟨n, hn, -⟩ := hr
    exact ⟨rfl, rfl, hn.1.resting, hn.2⟩
  | ((.error .timeout, none), rx₁) =>
    refine Triple.done fun s _ hr => ?_
    obtain ⟨n, hn, -⟩ := hr
    exact hn.elim

/-! ## Sleeping -/

theorem View.spill (hv : View (.watching b k w) x rx s) (rx₀ : Receiver) :
    View (.watching b k w) x rx { s with rx := rx₀ } :=
  { hv with
    roster := { hv.roster with }
    index := { hv.index with
      held := fun slot e he hx => { hv.index.held slot e he hx with }
      fresh := fun ℓ hℓ hst => { hv.index.fresh ℓ hℓ hst with } }
    counters := fun slot l hl hx => (hv.counters slot l hl hx).frame (.refl _)
    budget := fun hst => { hv.budget hst with }
    aim := hv.aim.step le_rfl rfl id (fun _ _ _ _ ht => { ht with }) fun _ hall => hall
    keep := fun ℓ n hk => { hv.keep ℓ n hk with } }

theorem Core.spill (hc : Core P s) (rx₀ : Receiver) : Core P { s with rx := rx₀ } :=
  { hc with keys := { hc.keys with } }

/-- The view of a receiver that may sleep, without what it is run for. -/
theorem View.demote (hv : View (.watching b k .none) (.holding [] false 0) rx s) :
    View (.watching false .none .none) { Ctx.base with asleep := true } rx s :=
  { hv with
    awake := fun hx => by cases hx
    budget := fun hst => by cases hst
    swept := fun hx => by cases hx
    quiet := fun hx => by cases hx
    keep := fun ℓ n hk => by cases hk
    scan := fun ℓ t ht => by cases ht
    refused := fun _ ℓ t ht => by cases ht
    single := fun t ht => by cases ht
    done := fun ho => by cases ho
    wait := fun w hw => by cases hw }

theorem View.doze {a : Bool} (hv : View S x rx s) (ha : a = false → s.data.sleep ≠ .asleep) :
    View S { x with asleep := a } rx s :=
  { hv with
    awake := ha
    budget := fun hst => { hv.budget hst with } }

/-- **A receiver that goes to sleep is right to**: with no notification since it registered, what it
    did not see is being announced, or there is nothing to see. -/
theorem sleepOn_spec {registration : Nat} :
    Triple (recvC P (.watching b k .none)) (fun s => ∃ c n,
        NoValue (.watching b k (.sync registration)) (.holding [] c n) rx s .empty)
      (dataL.accessWith (fun _ s => { s with rx := rx }) (WaitCell.sleepOn registration))
      fun slept s =>
        View (V := V)
          (.watching b k .none) { Ctx.holding [] false 0 with asleep := slept } rx s := by
  refine Triple.atomic (fun s s' hs hs' hr ⟨c, n, hn⟩ => ⟨c, n, NoValue.stable s s' hs hs' hr hn⟩)
    (fun _ => View.stable) fun s _ hi ⟨c, n, hn⟩ _ => ?_
  have hv := hn.resting
  have hact : RecvAct P s { dataL.set (s.data.sleepOn registration).2 s with rx := rx } :=
    { RecvAct.refl P s with }
  have hcore : Core P { dataL.set (s.data.sleepOn registration).2 s with rx := rx } :=
    (hi.core.setData _).spill rx
  refine ⟨⟨hcore, fun hs => ?_, hi.trace⟩, hact, ?_⟩
  · -- it sleeps now, so it was registered and nobody had notified it
    obtain ⟨hw, hnot⟩ := WaitCell.sleepOn_slept ((WaitCell.sleepOn_asleep (hv.awake rfl)).mp hs)
    refine ⟨(WaitCell.sleepOn_waiting _ _).trans hw,
      (hv.demote.setData rfl fun hx => by cases hx).spill rx,
      hn.2, ?_⟩
    rcases hn.1.quiet rfl with (hlt | ⟨ℓ, hℓ, ha⟩) | hq
    · exact absurd hnot hlt.ne'
    · exact .inl ⟨ℓ, hℓ, .inl ha⟩
    · exact .inr hq
  · refine ((hv.doze (a := (s.data.sleepOn registration).1) fun _ => hv.awake rfl).setData rfl
      fun hx hs => ?_).spill rx
    exact absurd ((WaitCell.sleepOn_asleep (hv.awake rfl)).mp hs) (by simpa using hx)

/-- The sleeper wakes, signalled or on its own. -/
theorem sleeping_spec (late : Nat) :
    Triple (recvC P (.watching b k .none))
      (View (V := V) (.watching b k .none) { Ctx.holding [] false 0 with asleep := true } rx)
      (WaitCell.sleeping dataL late) fun _ =>
      View (.watching b k .none) (.holding [] false 0) rx := by
  refine Triple.await (fun _ => trivial) View.stable (fun _ => View.stable)
    fun s n hi hv _ _ => ⟨⟨hi.core.setData _, fun hs => ?_, hi.trace⟩, ?_, ?_⟩
  · simp [dataL, WaitCell.resume] at hs
  · exact { RecvAct.refl P s with }
  · have hv' := hv.setData (c := s.data.resume) rfl fun hx => by cases hx
    exact hv'.doze (a := false) fun _ => by simp [dataL, WaitCell.resume]

theorem unregisterOnly_spec (hsol : b = true → rx.Solvent) :
    Triple (recvC P (.watching b k .none)) (View (.watching b k .none) (.holding [] false 0) rx)
      (dataL.access WaitCell.unregister) fun _ => Waiting (V := V) b k rx :=
  (unregister_data_spec rfl (R := fun _ => True) (.pure _) fun _ _ h => h).conseq
    (fun _ _ hv => ⟨hv, trivial⟩) fun _ _ _ hv => ⟨hsol, hv.1⟩

theorem wait_spec {registration : Nat} (hsol : b = true → rx.Solvent) :
    Triple (recvC P (.watching b k .none)) (fun s => ∃ c n,
        NoValue (.watching b k (.sync registration)) (.holding [] c n) rx s .empty)
      (WaitCell.wait dataL (fun s => { s with rx := rx }) registration)
      fun _ => Waiting (V := V) b k rx := by
  refine Triple.bind sleepOn_spec fun slept => ?_
  cases slept with
  | true => exact (sleeping_spec 1).bind fun _ => unregisterOnly_spec hsol
  | false => exact unregisterOnly_spec hsol

theorem waitTimeout_spec {registration : Nat} (hsol : b = true → rx.Solvent) :
    Triple (recvC P (.watching b k .none)) (fun s => ∃ c n,
        NoValue (.watching b k (.sync registration)) (.holding [] c n) rx s .empty)
      (WaitCell.waitTimeout dataL (fun s => { s with rx := rx }) registration)
      fun _ => Waiting (V := V) b k rx := by
  refine Triple.bind sleepOn_spec fun slept => ?_
  cases slept with
  | true =>
    refine (sleeping_spec 2).bind fun n => ?_
    exact (unregisterOnly_spec hsol).map fun _ _ _ h => h
  | false => exact (unregisterOnly_spec hsol).map fun _ _ _ h => h

/-! ## Rounds -/

/-- What a round leaves: the receiver may try again, or answers. -/
def Parked (P : Params) (b : Bool) (k : Terms) (tagged deadline : Bool)
    (s : Chan V) : (Receiver × Unit) ⊕ (Except Unit (Except RecvError (Item V)) × Receiver) → Prop
  | .inl (rx', _) => Waiting b k rx' s
  | .inr (.ok r, rx') => Waited P b k tagged deadline rx' s r
  | .inr (.error _, rx') => deadline = true ∧
      View (.watching b k .none) (.holding [] false 0) rx' s

theorem Parked.stable {tagged deadline : Bool}
    {r : (Receiver × Unit) ⊕ (Except Unit (Except RecvError (Item V)) × Receiver)} :
    (recvC P (.watching b k .none)).Stable fun s => Parked P b k tagged deadline s r := by
  match r with
  | .inl (rx', _) => exact Waiting.stable
  | .inr (.ok r, rx') => exact Waited.stable
  | .inr (.error _, rx') => exact (Contract.Stable.pure _).and View.stable

theorem park_spec {registration : Nat} (tagged deadline : Bool) (hsol : b = true → rx.Solvent) :
    Triple (recvC P (.watching b k .none)) (fun s => ∃ c n,
        NoValue (.watching b k (.sync registration)) (.holding [] c n) rx s .empty)
      ((Receiver.blocking P tagged).park deadline registration rx ()) fun r s =>
        Parked (V := V) P b k tagged deadline s r := by
  have hstable : (recvC P (.watching b k .none)).Stable fun s : Chan V => ∃ c n,
      NoValue (.watching b k (.sync registration)) (.holding [] c n) rx s .empty :=
    fun s s' hs hs' hr ⟨c, n, hn⟩ => ⟨c, n, NoValue.stable s s' hs hs' hr hn⟩
  cases deadline with
  | false => exact (wait_spec hsol).map fun _ _ _ h => h
  | true =>
    refine Triple.act hstable (fun _ _ _ _ => ⟨0, rfl⟩) fun s late s' hi hn hf _ => ?_
    cases hf
    refine ⟨hi, RecvAct.refl P s, ?_⟩
    show wp _ (if late ≠ 0 then _ else _) _ _
    split
    · obtain ⟨c, n, hn⟩ := hn
      exact Triple.map (unregisterOnly_spec hsol) (fun _ _ _ h => ⟨rfl, h.2⟩) s hi hn.resting
    · refine Triple.bind (waitTimeout_spec hsol) (fun elapsed => ?_) s hi hn
      cases elapsed with
      | false => exact Triple.ret Waiting.stable fun _ _ h => h
      | true =>
        refine Triple.seq (attempt_spec tagged true) fun r => ?_
        match r with
        | (.done r, rx₁) => exact Triple.done fun s _ hr => hr
        | (.pending _, rx₁) => exact Triple.done fun s _ hr => ⟨rfl, hr.2⟩

theorem round_spec (tagged deadline : Bool) :
    Triple (recvC P (.watching b k .none)) (Waiting b k rx)
      ((Receiver.blocking P tagged).round deadline (rx, ())) fun r s =>
        Parked (V := V) P b k tagged deadline s r := by
  refine Triple.seq (attempt_spec tagged deadline) fun r => ?_
  match r with
  | (.done r, rx₁) => exact Triple.done fun s _ hr => hr
  | (.pending _, rx₁) =>
    refine Triple.bind (register_spec.pre fun s _ hr => hr.now) fun registration => ?_
    refine Triple.given (φ := b = true → rx₁.Solvent) (fun s _ hw => hw.1) fun hsol => ?_
    refine Triple.seq ((recheck_spec tagged hsol).pre fun s _ hw => hw.2) fun r => ?_
    match r with
    | (.done (.ok item) released, rx₂) =>
      rintro s hi hr
      obtain ⟨o, hd, hg, hv⟩ := hr.now
      exact deferred_spec hd Framed.genuine Parked.stable (fun s hv hg => ⟨hv, hg⟩) s hi ⟨hv, hg⟩
    | (.done (.error e) released, rx₂) =>
      rintro s hi hr
      obtain ⟨rfl, rfl, hv, ho⟩ := hr.now
      refine Triple.bind (unregister_data_spec rfl Over.kept fun s c h => h) (fun _ => ?_) s hi
        ⟨hv, ho⟩
      exact Triple.ret Over.kept.stable fun s _ h => h
    | (.progressed _ released, rx₂) =>
      rintro s hi hr
      obtain ⟨hsol₂, o, hd, hv⟩ := hr.now
      exact deferred_spec hd Framed.true Parked.stable (fun s hv _ => ⟨hsol₂, hv⟩) s hi
        ⟨hv, trivial⟩
    | (.pending _, rx₂) =>
      rintro s hi hr
      exact park_spec tagged deadline hr.now.1 s hi hr.now.2

/-- What `blocking::run` leaves. -/
theorem run_spec (tagged deadline : Bool) (spins : Nat) :
    Triple (recvC P (.watching b k .none)) (Waiting b k rx)
      ((Receiver.blocking P tagged).run spins deadline rx ()) fun r s =>
        Parked (V := V) P b k tagged deadline s (.inr r) := by
  refine Triple.seq (spin_spec tagged deadline spins) fun r => ?_
  match r with
  | (.done r, rx₁) => exact Triple.done fun s _ hr => hr
  | (.pending _, rx₁) =>
    refine Triple.iterate_free (fun _ => trivial) (fun r => Waiting b k r.1) Waiting.stable
      (fun s _ hr => hr.now) (fun _ => Parked.stable) fun r => ?_
    refine (round_spec tagged deadline).post fun r s _ hr => ?_
    match r with
    | .inl (rx', _) => exact hr
    | .inr r => exact hr

theorem recvBlocking_spec (tagged deadline : Bool) (spins : Nat) :
    Triple (recvC P (.watching b k .none)) (Waiting b k rx)
      (rx.recvBlocking P tagged spins deadline) fun r s =>
        Waited (V := V) P b k tagged deadline r.2 s r.1 := by
  refine Triple.seq (run_spec tagged deadline spins) fun r => ?_
  match r with
  | (.ok r, rx₁) => exact Triple.done fun s _ hr => hr
  | (.error _, rx₁) => exact Triple.done fun s _ hr => hr

theorem recvOutput_spec (tagged : Bool) (spins : Nat) :
    Triple (recvC P (.watching b k .none)) (Waiting b k rx) (rx.recvOutput P tagged spins)
      fun r s => Waited (V := V) P b k tagged false r.2 s r.1 := by
  refine Triple.given (φ := b = true → rx.Solvent) (fun s _ hw => hw.1) fun hsol => ?_
  refine Triple.seq ((tryRecvLoop_spec 0 rx false tagged (Setting.urgent_watching _) hsol).pre
    fun s _ hw => hw.2) fun r => ?_
  match r with
  | (.error .empty, rx₁) =>
    exact (recvBlocking_spec tagged false spins).pre fun s _ hr => hr.now.waited false
  | (.ok item, rx₁) => exact Triple.done fun s _ hr => hr.waited false
  | (.error .disconnected, rx₁) => exact Triple.done fun s _ hr => hr.waited false
  | (.error .timeout, rx₁) => exact Triple.done fun s _ hr => hr.waited false

/-! ## Bulk receives that wait -/

/-- What a bulk receive that waits answers. -/
def BatchWaited (b : Bool) (k : Terms) (limit : Nat) (rx' : Receiver) (s : Chan V)
    (r : List (Item V) × Except RecvError Nat) : Prop :=
  Plain limit r.1 ∧ View (.watching b k .none) (.holding (r.1.map Item.pair) false 0) rx' s ∧
    match r.2 with
    | .ok m => m = r.1.length ∧ (r.1 = [] → limit = 0)
    | .error e => r.1 = [] ∧ e = .disconnected ∧ Over s

/-- Slots are given back at the end of a bulk receive. -/
theorem releaseBatch_spec {limit : Nat} {r : List (Item V) × Except RecvError Nat}
    (hsingle : k.single = none) :
    Triple (recvC P (.watching b k .none)) (fun s => BatchWaited b k limit rx s r)
      (rx.releaseConsumed.bind fun rx' => .ret (r, rx')) fun r' s =>
        BatchWaited b k limit r'.2 s r'.1 := by
  match r with
  | (_, .ok m) =>
    refine Triple.given (fun s _ hr => And.intro hr.1 hr.2.2) fun ⟨hplain, hm⟩ => ?_
    exact Triple.map ((releaseConsumed_spec rfl rfl rfl rfl hsingle Framed.true.steady).pre
      fun s _ hr => ⟨hr.2.1, trivial⟩) fun rx' s _ hr => ⟨hplain, hr.2.1, hm⟩
  | (_, .error e) =>
    refine Triple.given (fun s _ hr => And.intro hr.1 (And.intro hr.2.2.1 hr.2.2.2.1))
      fun ⟨hplain, hnil, he⟩ => ?_
    exact Triple.map ((releaseConsumed_spec rfl rfl rfl rfl hsingle Steady.over).pre
      fun s _ hr => ⟨hr.2.1, hr.2.2.2.2⟩) fun rx' s _ hr => ⟨hplain, hr.2.1, hnil, he, hr.2.2⟩

/-- What a drain left, whether or not it stopped early. -/
theorem DrainEnd.view {limit : Nat} {accept : Option (List V → V → Bool)} {σ : Prop}
    {r : Receiver.Drained V} (hd : DrainEnd S limit accept h c σ rx s r) :
    ∃ n, View S (.draining h c n r.output) rx s := by
  obtain ⟨-, -, n, ⟨-, hv⟩ | ⟨-, -, hv⟩⟩ := hd
  · exact ⟨n, hv.setRefused (x := { Ctx.draining h c n r.output with refused := _ }) false
      (by simp)⟩
  · exact ⟨n, hv.ofCollect⟩

theorem DrainEnd.resting {limit : Nat} {accept : Option (List V → V → Bool)} {σ : Prop}
    {r : Receiver.Drained V} (hd : DrainEnd (.watching b k .none) limit accept h c σ rx s r) :
    View (.watching b k .none) (.holding (h ++ r.output.map Item.pair) false 0) rx s := by
  obtain ⟨n, hv⟩ := hd.view
  exact hv.resting

/-- **`recv_batch_into`** waits for a first value only. -/
theorem recvBatch_spec (spins limit : Nat) (hsingle : k.single = none) :
    Triple (recvC P (.watching b k .none)) (Waiting b k rx) (rx.recvBatch P spins limit)
      fun r s => BatchWaited (V := V) b k limit r.2 s r.1 := by
  have hdry : (Setting.watching b k .none).aim ≠ .alone none := by simp [Setting.watching]
  unfold Receiver.recvBatch
  split
  · next h₀ =>
    refine (releaseBatch_spec hsingle).pre fun s _ hw =>
      ⟨⟨Nat.zero_le _, by simp⟩, hw.2, rfl, fun _ => h₀⟩
  · next h₀ =>
    refine Triple.given (φ := b = true → rx.Solvent) (fun s _ hw => hw.1) fun hsol => ?_
    refine Triple.bind
      ((drainInto_spec limit none hdry Setting.urgent_watching).pre fun s _ hw => hw.2) fun r => ?_
    obtain ⟨drained, rx₁⟩ := r
    dsimp only
    split
    · next hlen =>
      have hnil : drained.output = [] := List.length_eq_zero_iff.mp hlen
      refine Triple.seq ((recvOutput_spec false spins).pre fun s _ hd => ?_) fun r => ?_
      · have hv := hd.resting
        rw [hnil] at hv
        exact ⟨fun hb => hd.2.1 (hsol hb) hnil, hv⟩
      match r with
      | (.ok first, rx₂) =>
        refine Triple.given (φ := first.id = none)
          (fun s _ hr => congrArg Item.id hr.now.2.2) fun hid => ?_
        refine Triple.bind ((drainInto_spec (limit - 1) none hdry Setting.urgent_watching).pre
          fun s _ hr => hr.now.1)
          fun r => ?_
        obtain ⟨more, rx₃⟩ := r
        refine (releaseBatch_spec hsingle).pre fun s _ hd => ⟨⟨?_, ?_⟩, hd.resting, rfl, by simp⟩
        · have hle : more.output.length ≤ limit - 1 := hd.1.1
          simp only [List.length_cons]
          omega
        · intro item hm
          rcases List.mem_cons.mp hm with rfl | hm
          · exact hid
          · exact hd.1.2 item hm
      | (.error .disconnected, rx₂) =>
        exact (releaseBatch_spec hsingle).pre fun s _ hr =>
          ⟨⟨Nat.zero_le _, by simp⟩, hr.now.1, rfl, rfl, hr.now.2⟩
      | (.error .timeout, rx₂) =>
        exact Triple.given (φ := False) (fun s _ hr => by cases hr.now.1) False.elim
      | (.error .empty, rx₂) => exact Triple.given (φ := False) (fun s _ hr => hr.now) False.elim
    · next hlen =>
      refine (releaseBatch_spec hsingle).pre fun s _ hd => ⟨hd.1, hd.resting, rfl, fun hnil => ?_⟩
      exact absurd (congrArg List.length hnil) hlen

/-! ## Polls -/

/-- What the attempts of a poll leave: nothing, to a receiver whose waker is registered, or an
    answer. -/
def Attempts (P : Params) (b : Bool) (k : Terms) (tagged : Bool) (rx' : Receiver)
    (s : Chan V) : Except RecvError (Item V) → Prop
  | .error .empty => ∃ c n, NoValue (.watching b k .async) (.holding [] c n) rx' s .empty
  | .error e => Waited P b k tagged false rx' s (.error e)
  | .ok item => Waited P b k tagged false rx' s (.ok item)

/-- What `poll_recv` answers. A receiver that is told to wait knows why. -/
def PollReturned (P : Params) (b : Bool) (k : Terms) (tagged : Bool) (rx' : Receiver)
    (s : Chan V) : Option (Except RecvError (Item V)) → Prop
  | none => View (.watching b k .async) { Ctx.holding [] false 0 with quiet := true } rx' s ∧
      rx'.active = []
  | some r => Waited P b k tagged false rx' s r

theorem registerAsync_spec :
    Triple (recvC P (.watching b k .none))
      (View (V := V) (.watching b k .none) (.holding [] false 0) rx)
      (WaitCell.registerAsync dataL) fun _ => View (.watching b k .none) (.holding [] false 0) rx :=
  Triple.bind ((dataStep_spec (S := .watching b k .none) rfl rfl (fun _ hc => hc)
    (R := fun _ => True) (.pure _)
    fun _ _ h => h).pre fun _ _ hv => ⟨hv, trivial⟩) fun _ =>
    recv_read (Kept.pure _).stable (fun _ => View.stable) fun _ _ hv => hv.1

/-- The attempt of a receiver whose waker is registered. -/
theorem attemptAsync_spec {tagged : Bool} (hsol : b = true → rx.Solvent) :
    Triple (recvC P (.watching b k .none)) (View (.watching b k .none) (.holding [] false 0) rx)
      (rx.tryRecvOutput P tagged) fun r s => Attempts (V := V) P b k tagged r.2 s r.1 := by
  refine (tryRecvOutput_spec (S := .watching b k .async) (h := []) (c := false) (n := 0) tagged
    (Setting.urgent_watching _) hsol).conseq (fun s _ hv => hv.rewatch rfl aimOk_async false 0)
    fun r s _ hr => ?_
  match r with
  | (.ok item, rx₁) => exact hr.waited false
  | (.error .empty, rx₁) =>
    obtain ⟨n, hn, -⟩ := hr
    exact ⟨false, n, hn⟩
  | (.error .disconnected, rx₁) => exact hr.waited false
  | (.error .timeout, rx₁) => exact hr.waited false

/-- An answer is given: slots are given back, and nobody waits any more. -/
theorem pollDone_spec (rx : Receiver) (tagged : Bool) (r : Except RecvError (Item V))
    (hsingle : k.single = none) :
    Triple (recvC P (.watching b k .none)) (fun s => Waited P b k tagged false rx s r)
      (rx.releaseConsumed.bind fun rx' => Receiver.cancelRecvWait.bind fun _ =>
        .ret (some r, rx')) fun r' s => PollReturned P b k tagged r'.2 s r'.1 := by
  have hcancel : ∀ {x : Ctx V} {rx' : Receiver} {R : Chan V → Prop}, x.asleep = false →
      Kept P (.watching b k .none) x rx' R → (∀ s c, R s → R (dataL.set c s)) →
      Triple (recvC P (.watching b k .none)) (fun s => View (.watching b k .none) x rx' s ∧ R s)
        Receiver.cancelRecvWait fun _ s => View (.watching b k .none) x rx' s ∧ R s :=
    fun hx hR hstep => dataStep_spec hx rfl (fun _ hc => hc) hR hstep
  match r with
  | .ok item =>
    refine Triple.bind (releaseConsumed_spec rfl rfl rfl rfl hsingle Framed.genuine.steady)
      fun rx' => ?_
    exact Triple.map ((hcancel rfl Genuine.kept fun _ _ h => h).pre fun s _ hr => hr.2)
      fun _ s _ hr => hr
  | .error .disconnected =>
    refine Triple.bind (releaseConsumed_spec rfl rfl rfl rfl hsingle Steady.over) fun rx' => ?_
    exact Triple.map ((hcancel rfl Over.kept fun _ _ h => h).pre fun s _ hr => hr.2)
      fun _ s _ hr => hr
  | .error .timeout => exact Triple.given (φ := False) (fun s _ hr => by cases hr.1) False.elim
  | .error .empty => exact Triple.given (φ := False) (fun s _ hr => hr) False.elim

/-- What follows the attempts of a poll: the slots are given back, and an answer ends the wait. -/
theorem pollEnd_spec (tagged : Bool) (hsingle : k.single = none)
    (r : Except RecvError (Item V) × Receiver) :
    Triple (recvC P (.watching b k .none)) (fun s => Attempts P b k tagged r.2 s r.1)
      (r.2.releaseConsumed.bind fun rx' => match r.1 with
        | .error .empty => .ret (none, rx')
        | result => Receiver.cancelRecvWait.bind fun _ => .ret (some result, rx'))
      fun r s => PollReturned P b k tagged r.2 s r.1 := by
  obtain ⟨r, rx₁⟩ := r
  cases r with
  | ok item => exact pollDone_spec rx₁ tagged (.ok item) hsingle
  | error e =>
    cases e with
    | disconnected => exact pollDone_spec rx₁ tagged (.error .disconnected) hsingle
    | timeout => exact pollDone_spec rx₁ tagged (.error .timeout) hsingle
    | empty =>
      rintro s hi ⟨c, n, hv, hact⟩
      refine Triple.map ((releaseConsumed_spec (S := .watching b k .async) rfl rfl rfl rfl
        hsingle Framed.true.steady)) (fun rx₂ s _ hr => ?_) s hi ⟨hv, trivial⟩
      exact ⟨hr.2.1.relabel, hr.1.active.trans hact⟩

/-- **`poll_recv`**: an answer, or a receiver that is going to be woken. -/
theorem pollRecv_spec (tagged : Bool) (hsingle : k.single = none) :
    Triple (recvC P (.watching b k .none)) (Waiting b k rx) (rx.pollRecv P tagged) fun r s =>
      PollReturned (V := V) P b k tagged r.2 s r.1 := by
  refine Triple.given (φ := b = true → rx.Solvent) (fun s _ hw => hw.1) fun hsol => ?_
  refine Triple.seq ((tryRecvOutput_spec tagged (Setting.urgent_watching _) hsol).pre
    fun s _ hw => hw.2) fun r => ?_
  obtain ⟨r, rx₁⟩ := r
  have hend := pollEnd_spec (P := P) (b := b) tagged hsingle (r, rx₁)
  cases r with
  | ok item => exact hend.pre fun s _ hr => hr.now.waited false
  | error e =>
    cases e with
    | disconnected => exact hend.pre fun s _ hr => hr.now.waited false
    | timeout => exact hend.pre fun s _ hr => hr.now.waited false
    | empty =>
      have hrest : ∀ s : Chan V, Returned P (.watching b k .none) tagged [] false rx₁ s
          (.error .empty) → Waiting b k rx₁ s := fun s hr => hr.waited false
      refine Triple.given (φ := b = true → rx₁.Solvent) (fun s _ hr => (hrest s hr.now).1)
        fun hsol₁ => ?_
      refine Triple.bind ((releaseConsumed_spec rfl rfl rfl rfl hsingle Framed.true.steady).pre
        fun s _ hr => ⟨(hrest s hr.now).2, trivial⟩) fun rx₂ => ?_
      refine Triple.given (fun s _ hr => hr.1) fun hsame => ?_
      refine Triple.bind (registerAsync_spec.pre fun s _ hr => hr.2.1) fun _ => ?_
      exact Triple.bind (attemptAsync_spec fun hb => hsame.solvent (hsol₁ hb))
        (pollEnd_spec tagged hsingle)

end Fanring.Mpsc
