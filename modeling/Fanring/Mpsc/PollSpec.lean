import Fanring.Mpsc.RetireSpec
import Mathlib.Algebra.GroupWithZero.Nat

/-!
# The MPSC channel: polling the rotation

Triples for the budget of the readiness poll and for one poll of the front lane. A poll answers a
value, or it brings the receive loop closer to its end: a lane that holds nothing either leaves the
rotation or comes back to its end with values in its window, so that the next poll of it answers one
(`Receiver.weight`).
-/

set_option autoImplicit false

namespace Fanring.Mpsc

open Conc Chan

variable {V : Type} {P : Params} {S : Setting} {s s' : Chan V} {ℓ : Nat} {x : Ctx V}
  {rx rx' : Receiver} {lane lane' : Lane} {key : LaneKey} {h : List (Nat × V)} {c : Bool} {n : Nat}

/-! ## The budget -/

/-- Between the parts of a receive: these values were popped and not answered yet. -/
def Ctx.holding (h : List (Nat × V)) (c : Bool) (n : Nat) : Ctx V :=
  { (Ctx.base : Ctx V) with hand := h, caught := c, left := n }

theorem Ctx.holding_calm {h : List (Nat × V)} {c : Bool} {n : Nat} : (Ctx.holding h c n).Calm :=
  ⟨rfl, rfl, rfl, rfl, rfl, rfl, rfl⟩

theorem readyPollInterval_lt : readyPollInterval < usize := by
  simp [readyPollInterval, usize]

theorem readyPollInterval_pos : 0 < readyPollInterval := by decide

theorem View.stale (hv : View S x rx s) : View S { x with fresh := false } rx s :=
  { hv with budget := fun hst => { hv.budget hst with fresh := by simp } }

/-- The budget starts anew after a collection. -/
theorem View.reset (hv : View S x rx s) (hfresh : x.fresh = true) (hunc : x.unc = 0)
    (hhot : x.hot = none) :
    View S x { rx with itemsUntilReadyPoll := readyPollInterval } s := by
  have hlt : ∀ slot lane, rx.lanes slot = some lane → LaneOk s lane := fun slot lane hl =>
    hv.counters slot lane hl (by simp [hhot])
  refine hv.recount x.hot x.taken x.unc x.fresh rfl readyPollInterval_lt
    (fun slot lane hl hx => ⟨hlt slot lane hl, fun hpos => ⟨(hv.fast slot lane hl hx hpos).1,
      (hv.fast slot lane hl hx hpos).2.1, ?_⟩, hv.idle slot lane hl hx⟩)
    (fun hst => { hv.budget hst with items_le := le_rfl, since := ?_, unc_le := by simp [hunc] })
    (.inl ⟨rfl, rfl⟩) fun _ _ _ => le_rfl
  · have h₁ := (hlt slot lane hl).fast_le
    have h₂ := (hlt slot lane hl).burst_lt
    simp only [prefetchLimit, readyPollInterval] at h₂ ⊢
    omega
  · have := (hv.budget hst).fresh hfresh
    simp only
    omega

theorem ordinarySince_charge (t : List (Event V)) (b n : Nat) :
    ordinarySince (t ++ [.charge b n]) = ordinarySince t := by
  simp [ordinarySince]

theorem spend_lt (rx : Receiver) (n : Nat) : (rx.spend n).itemsUntilReadyPoll < usize :=
  Nat.mod_lt _ (lt_of_le_of_lt (Nat.zero_le _) readyPollInterval_lt)

-- The budgets before and after are not to be compared by evaluation, hence any budget `k`.

theorem skel_items (rx : Receiver) (k : Nat) :
    ({ rx with itemsUntilReadyPoll := k } : Receiver).skel = rx.skel := rfl

theorem spend_skel (rx : Receiver) (n : Nat) : (rx.spend n).skel = rx.skel := skel_items rx _

theorem spend_lanes (rx : Receiver) (n : Nat) : (rx.spend n).lanes = rx.lanes := by
  rw [Receiver.spend]

theorem spend_items {n : Nat} (hn : n ≤ rx.itemsUntilReadyPoll)
    (hlt : rx.itemsUntilReadyPoll < usize) :
    (rx.spend n).itemsUntilReadyPoll = rx.itemsUntilReadyPoll - n := by
  simp only [Receiver.spend]
  rw [show rx.itemsUntilReadyPoll + usize - n = rx.itemsUntilReadyPoll - n + usize by omega,
    Nat.add_mod_right, Nat.mod_eq_of_lt (by omega)]

/-- What was popped is charged to the budget. -/
theorem View.charge (hv : View S x rx s) :
    View S { x with unc := 0 } (rx.spend x.unc)
      (s.record (.charge rx.itemsUntilReadyPoll x.unc)) := by
  have hrec : View S x rx (s.record (.charge rx.itemsUntilReadyPoll x.unc)) :=
    hv.setTrace x.fresh (by simp [popped_append]) (.inr (by simp [Event.sparing])) fun hst =>
      { hv.budget hst with
        since := by
          have := (hv.budget hst).since
          rwa [ordinarySince_charge]
        fresh := fun hf => by
          rw [ordinarySince_charge]
          exact (hv.budget hst).fresh hf }
  refine hrec.recount x.hot x.taken 0 x.fresh (spend_skel _ _) (spend_lt _ _)
    (fun slot lane hl hx => ?_) (fun hst => ?_) (.inl ⟨rfl, rfl⟩)
    fun _ _ _ => (by rw [spend_lanes])
  · rw [spend_lanes] at hl
    refine ⟨hrec.counters slot lane hl hx, fun hpos => ?_, hv.idle slot lane hl hx⟩
    obtain ⟨h₁, hslot, h₂⟩ := hv.fast slot lane hl hx hpos
    rw [spend_items (by omega) hv.items_lt]
    exact ⟨h₁, by rw [Receiver.spend]; exact hslot, by omega⟩
  · have hb := hrec.budget hst
    have hspend := spend_items hb.unc_le hv.items_lt
    have := hb.since
    have := hb.items_le
    have := hb.unc_le
    exact
      { items_le := by omega
        since := by simp only; omega
        unc_le := Nat.zero_le _
        fresh := hb.fresh }

theorem charge_spec (rx : Receiver) (n : Nat) {R : Chan V → Prop} (hx : x.asleep = false)
    (hn : x.unc = n)
    (hR : Kept P S x rx R) (hR' : Kept P S { x with unc := 0 } (rx.spend n) R)
    (hstep : ∀ s t, R s → R { s with trace := s.trace ++ [t] }) :
    Triple (recvC P S) (fun s => View S x rx s ∧ R s) (rx.charge n) fun rx' s =>
      rx' = rx.spend n ∧ View S { x with unc := 0 } rx' s ∧ R s := by
  subst hn
  refine Triple.map (Q := fun _ s => View S { x with unc := 0 } (rx.spend x.unc) s ∧ R s)
    (recv_atomic hR.stable (fun _ => hR'.stable) fun s hi hv => ⟨?_, hv.1.charge,
      hstep s _ hv.2⟩) fun _ s _ hv => ⟨rfl, hv⟩
  refine
    { core := hi.core.setTrace (by simp [popped_append])
      act := { RecvAct.refl P s with
        recorded := .of rfl (by simp) (by simp) (by simp [popped]) fun _ => .inl rfl
        rotation := rotation_append (by simp) }
      awake := hv.1.awake hx
      trace := fun hst => (hi.trace hst).append _ ?_ ?_ }
  · rintro b n heq
    cases heq
    exact ⟨(hv.1.budget hst).unc_le, (hv.1.budget hst).items_le⟩
  · rw [ordinarySince_charge]
    exact (hi.trace hst).since s.trace [] (by simp)

/-! ## The rotation -/

/-- The lane a key of the rotation names. -/
theorem View.queued_lane (hv : View S x rx s) (hm : key ∈ rx.active ∨ x.out = some key) :
    ∃ l, rx.lanes key.slot = some l ∧ l.key = key ∧ l.queued = true ∧
      rx.paused key.slot = false := by
  obtain ⟨e, he, hk, hq⟩ := (hv.roster.queued key).mp hm
  obtain ⟨l, hl, rfl⟩ := Option.map_eq_some_iff.mp he
  refine ⟨l, hl, hk, hq, ?_⟩
  by_contra hp
  have := hv.roster.paused _ _ he (Bool.eq_true_of_not_eq_false hp)
  exact absurd (this.symm.trans hq) (by simp)

theorem lane?_eq (hl : rx.lanes key.slot = some lane) (hk : lane.key = key) :
    rx.lane? key = some lane := by
  simp [Receiver.lane?, hl, hk]

/-- Two keys of the rotation have different slots. -/
theorem View.slot_ne (hv : View S x rx s) {key' : LaneKey} (hm : key ∈ rx.active ∨ x.out = some key)
    (hm' : key' ∈ rx.active ∨ x.out = some key') (hne : key' ≠ key) : key'.slot ≠ key.slot := by
  intro heq
  obtain ⟨l, hl, hk, -⟩ := hv.queued_lane hm
  obtain ⟨l', hl', hk', -⟩ := hv.queued_lane hm'
  rw [heq, hl] at hl'
  cases hl'
  exact hne (hk'.symm.trans hk)

/-- What one lane of the rotation counts for: once, if a poll of it is going to answer a value. -/
def Lane.weight (lane : Lane) : Nat := if lane.cachedAvailable + lane.fastLeft = 0 then 2 else 1

def Receiver.weight (rx : Receiver) : Nat :=
  (rx.active.map fun key => ((rx.lane? key).map Lane.weight).getD 2).sum

theorem setLane_self : (rx.setLane lane).lanes lane.key.slot = some lane := Function.update_self ..

theorem setLane_other {slot : Nat} (hs : slot ≠ lane.key.slot) :
    (rx.setLane lane).lanes slot = rx.lanes slot := Function.update_of_ne hs ..

theorem weight_congr (h : ∀ key ∈ rx.active, rx'.lanes key.slot = rx.lanes key.slot)
    (hact : rx'.active = rx.active) : rx'.weight = rx.weight := by
  rw [Receiver.weight, Receiver.weight, hact]
  refine congrArg List.sum (List.map_congr_left fun key hm => ?_)
  rw [Receiver.lane?, Receiver.lane?, h key hm]

theorem weight_cons {rest : List LaneKey} (hact : rx.active = key :: rest)
    (hl : rx.lane? key = some lane) :
    rx.weight = lane.weight + ({ rx with active := rest } : Receiver).weight := by
  simp only [Receiver.weight, hact, List.map_cons, List.sum_cons, hl]
  rfl

theorem weight_append (rx : Receiver) (hl : rx.lane? key = some lane) :
    ({ rx with active := rx.active ++ [key] } : Receiver).weight = rx.weight + lane.weight := by
  simp only [Receiver.weight, List.map_append, List.sum_append, List.map_cons, List.map_nil,
    List.sum_cons, List.sum_nil, Nat.add_zero]
  rw [show Receiver.lane? { rx with active := rx.active ++ [key] } key = some lane from hl]
  rfl

/-! ## Polling the front lane -/

/-- The lane whose sender is still to be told of slots a receive gave back. -/
def Debt (rx : Receiver) : Option LaneKey → Option (Nat × Owed) → Prop
  | none, o => o = none
  | some key, o => ∃ l, rx.lane? key = some l ∧ o = some (l.ix, .due)

/-- The answer is a value of one of the channel's lanes, tagged with that lane's id if ids are
    asked for. -/
def Genuine (P : Params) (tagged : Bool) (item : Item V) (s : Chan V) : Prop :=
  item.lane < s.count ∧
    item = Receiver.output P tagged item.lane (s.key item.lane) item.value

/-- A poll that answered no value brought the receive closer to its end. -/
structure Closer (a : Aim) (c : Bool) (rx : Receiver) (n : Nat) (rx' : Receiver) (n' : Nat) :
    Prop where
  items : rx'.itemsUntilReadyPoll = rx.itemsUntilReadyPoll
  weight : rx'.weight < rx.weight
  target : ∀ ℓ q, a = .target ℓ q → c = false → q.key ∈ rx.active → q.key ∈ rx'.active
  left : n' ≤ n
  alone : ∀ dry, a = .alone dry → n' < n

/-- What polling the front lane leaves. -/
def Fronted (P : Params) (S : Setting) (tagged : Bool) (h : List (Nat × V)) (c : Bool) (n : Nat)
    (rx : Receiver) (s : Chan V) : Receiver ⊕ (Receiver.Received V × Receiver) → Prop
  | .inl rx' => ∃ n', Closer S.aim c rx n rx' n' ∧ View S (.holding h c n') rx' s
  | .inr ((.ok item, released), rx') => ∃ o, Debt rx' released o ∧ Genuine P tagged item s ∧
      View S { Ctx.holding (h ++ [item.pair]) true n with owed := o } rx' s
  | .inr ((.error e, released), rx') => ∃ o key, e = .empty ∧ released = some key ∧
      Debt rx' released o ∧ Closer S.aim c rx n rx' n ∧
      View S { Ctx.holding h c n with owed := o } rx' s

/-- A lane that was claimed again needs no exemption while it is paused or in the rotation. -/
theorem View.unexempt (hv : View S { x with exempt := some ℓ } rx s)
    (hq : ∀ slot e, rx.book.lane slot = some e → e.ix = ℓ →
      rx.paused slot = true ∨ e.queued = true)
    (hp : s.ready.pending ℓ = true) : View S x rx s :=
  { hv with
    index := { hv.index with
      held := fun slot e he _ => by
        by_cases hix : e.ix = ℓ
        · have hcov := hq slot e he hix
          exact ⟨fun _ => .inl (hcov.imp_right .inl), fun h => by simp [hix, hp] at h,
            fun _ => .inl hcov, .inl hcov⟩
        · exact hv.index.held slot e he fun heq => hix (Option.some.inj heq).symm }
    budget := fun hst => { hv.budget hst with } }

/-- The lane at the front of the rotation. -/
structure Front (rx : Receiver) (key : LaneKey) (rest : List LaneKey) (lane : Lane) : Prop where
  active : rx.active = key :: rest
  held : rx.lanes key.slot = some lane
  named : lane.key = key
  queued : lane.queued = true
  unpaused : rx.paused key.slot = false
  others : ∀ key' ∈ rest, key'.slot ≠ key.slot

section

variable {rest : List LaneKey}

theorem View.front (hv : View S x rx s) (hact : rx.active = key :: rest) :
    ∃ lane, Front rx key rest lane := by
  have hm : key ∈ rx.active := by simp [hact]
  obtain ⟨lane, hl, hk, hq, hp⟩ := hv.queued_lane (.inl hm)
  refine ⟨lane, hact, hl, hk, hq, hp, fun key' hm' => ?_⟩
  have hnodup := hv.roster.nodup
  simp only [Receiver.skel, hact, List.nodup_cons] at hnodup
  exact hv.slot_ne (.inl hm) (.inl (by simp [hact, hm'])) fun heq => hnodup.1 (heq ▸ hm')

theorem Front.copyOf (hf : Front rx key rest lane) : CopyOf { rx with active := rest } lane :=
  ⟨lane, by rw [hf.named]; exact hf.held, rfl⟩

theorem Front.filter (hf : Front rx key rest lane) : rest.filter (· ≠ key) = rest :=
  List.filter_eq_self.mpr fun key' hm => by
    simpa using fun heq => hf.others key' hm (congrArg LaneKey.slot heq)

/-- The weight of a rotation whose front lane was found empty goes down, whether the lane is
    dropped or comes back with values. -/
theorem Front.weight (hf : Front rx key rest lane)
    (hempty : lane.cachedAvailable + lane.fastLeft = 0)
    (hother : ∀ slot, slot ≠ key.slot → rx'.lanes slot = rx.lanes slot)
    (hact : rx'.active = rest ∨ rx'.active = rest ++ [key] ∧
      ∃ lane', rx'.lane? key = some lane' ∧ 0 < lane'.cachedAvailable) :
    rx'.weight < rx.weight := by
  have hrest : ({ rx' with active := rest } : Receiver).weight =
      ({ rx with active := rest } : Receiver).weight :=
    weight_congr (fun key' hm => hother _ (hf.others key' hm)) rfl
  have hw : lane.weight = 2 := if_pos hempty
  rw [weight_cons hf.active (lane?_eq hf.held hf.named), hw, ← hrest]
  rcases hact with hact | ⟨hact, lane', hl, hpos⟩
  · rw [← hact]
    exact Nat.lt_add_of_pos_left (by decide)
  · have := weight_append { rx' with active := rest } hl
    simp only [← hact] at this
    have hw' : lane'.weight = 1 := if_neg (by omega)
    rw [this, hw']
    omega

theorem Front.closer (n n' : Nat) (hf : Front rx key rest lane) (hc : Core P s)
    (hv : View S x rx' s) (hx : x.caught = c) (hnamed : Named lane.ix key s)
    (hmiss : Misses S.aim c lane.ix) (hsub : rest ⊆ rx'.active)
    (hitems : rx'.itemsUntilReadyPoll = rx.itemsUntilReadyPoll) (hweight : rx'.weight < rx.weight)
    (hleft : n' ≤ n) (halone : ∀ dry, S.aim = .alone dry → n' < n) :
    Closer S.aim c rx n rx' n' where
  items := hitems
  weight := hweight
  target ℓ q ha hb hm := by
    have ht := hv.target ha (hx.trans hb)
    rw [hf.active, List.mem_cons] at hm
    refine hsub (hm.resolve_left fun heq => hmiss ℓ q ha hb ?_)
    exact hc.keys.distinct ℓ ht.lt lane.ix hnamed.1 (ht.key.trans (heq.trans hnamed.2.symm))
  left := hleft
  alone := halone

/-- The front lane was taken out of the rotation, with its counters. -/
def Ctx.polling (h : List (Nat × V)) (c : Bool) (n : Nat) (lane : Lane) : Ctx V :=
  { Ctx.holding h c n with out := some lane.key, hot := some lane.ix }

theorem Front.take (hf : Front rx key rest lane) (hv : View S (.holding h c n) rx s) :
    View S (.polling h c n lane) { rx with active := rest } s := by
  have := (hv.takeFront rfl hf.active).heat rfl rfl lane.ix
  rwa [← hf.named] at this

theorem Front.pollLane {α : Type} {f : LanePoll V × Receiver → Prog (Chan V) α} (fair : Bool)
    (hf : Front rx key rest lane) :
    (Receiver.pollLane fair { rx with active := rest } key).bind f = (lane.poll fair).bind fun r =>
      f (r.1, ({ rx with active := rest } : Receiver).setLane r.2) := by
  unfold Receiver.pollLane
  rw [show Receiver.lane? { rx with active := rest } key = some lane from lane?_eq hf.held hf.named]
  exact Prog.bind_assoc ..

theorem Front.inTurn (hf : Front rx key rest lane) :
    InTurn S (some lane.key) 0 { rx with active := rest } lane := by
  refine .inr (.inr fun l₀ hl₀ => ?_)
  rw [hf.named, show Receiver.lanes { rx with active := rest } key.slot = some lane from hf.held]
    at hl₀
  exact (Option.some.inj hl₀) ▸ le_rfl

theorem Front.poll_spec (fair : Bool) (hf : Front rx key rest lane)
    (hbudget : S.strict = true → 0 < rx.itemsUntilReadyPoll) :
    Triple (recvC P S) (View S (.holding h c n) rx) (lane.poll fair) fun r s =>
      Polled S (.polling h c n lane) { rx with active := rest } lane r.2 s r.1 := by
  refine (Mpsc.poll_spec fair rfl rfl rfl rfl rfl rfl hf.copyOf (.inl ?_) rfl (fun hst => ?_)
    hf.inTurn).pre fun s _ hv =>
    ⟨hf.take hv, hv.counters key.slot lane hf.held (by simp [Ctx.holding, Ctx.base])⟩
  · rw [hf.named]
    exact hf.unpaused
  · exact le_of_eq_of_le (Nat.zero_add 1) (hbudget hst)

/-- The front lane gave a value and goes back into the rotation. -/
theorem Front.popped {v : V} {o : Option (Nat × Owed)} (hf : Front rx key rest lane)
    (rotate : Bool) (hsk : lane'.skel = lane.skel) (hfast : lane'.fastLeft = 0)
    (hspent : rotate = false → lane'.spent = lane.spent + 1) (hok : LaneOk s lane')
    (hv : View S { (Ctx.polling h c n lane).pulled lane.ix [v] false with owed := o }
      { rx with active := rest } s) :
    View S { Ctx.holding (h ++ [(lane.ix, v)]) true n with unc := 1, owed := o }
      { ({ rx with active := rest } : Receiver).setLane lane' with
        active := if rotate then rest ++ [key] else key :: rest } s := by
  have hix : lane'.ix = lane.ix := congrArg Held.ix hsk
  have hkey : lane'.key = key := (congrArg Held.key hsk).trans hf.named
  have hx : ({ (Ctx.polling h c n lane).pulled lane.ix [v] false with owed := o } : Ctx V) =
      { Ctx.holding (h ++ [(lane.ix, v)]) true n with
        unc := 1, owed := o, out := some key, hot := some lane'.ix, taken := 1 } := by
    simp [Ctx.polling, Ctx.pulled, Ctx.holding, hix, hf.named, Ctx.base]
  rw [hx] at hv
  have hq : lane'.queued = true := (congrArg Held.queued hsk).trans hf.queued
  cases rotate with
  | false =>
    have hst := View.store (x := { Ctx.holding (h ++ [(lane.ix, v)]) true n with
      unc := 1, owed := o, out := some key }) hv rfl (hf.copyOf.of_skel hsk) hok (by simp [hfast])
      (.inr (.inl hq)) (.inr (.inr fun l₀ hl₀ => ?_))
    · exact hst.putFront rfl
    · rw [hkey, show Receiver.lanes { rx with active := rest } key.slot = some lane from hf.held]
        at hl₀
      rw [hspent rfl, ← Option.some.inj hl₀]
  | true =>
    -- the turn is over, so the lane goes to the end before its counters are stored
    have hback := hv.putBack rfl (fun l hl => .inl ?_) fun l hl => ?_
    · have hl' : CopyOf { rx with active := rest ++ [key] } lane' := hf.copyOf.of_skel hsk
      exact View.store (x := { Ctx.holding (h ++ [(lane.ix, v)]) true n with unc := 1, owed := o })
        hback rfl hl' hok (by simp [hfast]) (.inr (.inl hq)) (.inr (.inl (by
          simpa [hkey, Ctx.holding, Ctx.base] using fun hm => hf.others key hm rfl)))
    · cases hl.symm.trans hf.held
      exact congrArg some hix
    · cases hl.symm.trans hf.held
      exact hv.turned_of_taken (congrArg some hix) Nat.one_pos

/-- The front lane was found empty and holds values again. -/
theorem Front.kept {released : Bool} (hf : Front rx key rest lane)
    (hst : Settled S (.polling h c n lane) { rx with active := rest } lane.skel (.keep released)
      lane' s) :
    View S ((Ctx.holding h c n).released lane.ix released)
      { ({ rx with active := rest } : Receiver).setLane lane' with active := rest ++ [key] } s := by
  have hix : lane'.ix = lane.ix := hst.ix
  have hkey : lane'.key = key := hst.key.trans hf.named
  have hsk : lane'.skel = lane.skel := by
    simp only [Lane.skel, Held.mk.injEq]
    exact ⟨hst.ix, hst.key, hst.verdict.1⟩
  have hv : View S
      ((Ctx.polling h c n lane).released lane.ix released) { rx with active := rest } s := by
    refine hst.view.unexempt (fun slot e he hei => ?_) hst.verdict.2.2
    obtain ⟨l, hl, rfl⟩ := Option.map_eq_some_iff.mp he
    obtain rfl := hst.view.held_unique hl hf.held hei
    cases hl.symm.trans hf.held
    exact .inr hf.queued
  have hhot : View S { (Ctx.holding h c n).released lane.ix released with
      out := some key, hot := some lane'.ix } { rx with active := rest } s := by
    rw [← hf.named, hix]
    exact hv
  have hback := hhot.putBack rfl (fun l hl => .inl ?_) fun l hl => ?_
  · have hl' : CopyOf { rx with active := rest ++ [key] } lane' := hf.copyOf.of_skel hsk
    exact View.store (x := (Ctx.holding h c n).released lane.ix released) hback rfl hl' hst.ok
      (by simp [hst.fast]) (.inr (.inr hst.credit)) (.inr (.inl (by
        simpa [hkey, Ctx.released, Ctx.holding, Ctx.base] using fun hm => hf.others key hm rfl)))
  · cases hl.symm.trans hf.held
    exact congrArg some hix
  · cases hl.symm.trans hf.held
    exact hst.turned

/-- The front lane was found empty and is left to the index. -/
theorem Front.left {released : Bool} (hf : Front rx key rest lane) (hc : Core P s)
    (hst : Settled S (.polling h c n lane) { rx with active := rest } lane.skel
      (.idle false released) lane' s) :
    View S ((Ctx.holding h c n).released lane.ix released)
      (({ rx with active := rest } : Receiver).setLane lane') s := by
  have hix : lane'.ix = lane.ix := hst.ix
  have hkey : lane'.key = key := hst.key.trans hf.named
  exact hst.view.dequeue hc (by rw [hkey]; exact hf.held) hix.symm (hf.named.trans hkey.symm)
    (by rw [hix]; rfl) (by rw [hix]; rfl) rfl rfl hst.verdict.1 hst.ok hst.fast hst.credit
    (by rw [hix, hkey, ← hf.named]; exact hst.verdict.2) (by rw [hix]; exact hst.misses)
    (by rw [hkey]; exact hf.filter.symm)
    (fun k hk => by
      rw [hkey, ← hf.named]
      exact (Option.some.inj hk).symm)
    (by rw [hix]; exact hst.passed _ _ rfl) (by rw [hix]; exact hst.turned)

theorem Front.without (hf : Front rx key rest lane) (hkey : lane'.key = key) :
    ({ ({ rx with active := rest } : Receiver).setLane lane' with
      lanes := Function.update (({ rx with active := rest } : Receiver).setLane lane').lanes
        key.slot none
      paused := Function.update rx.paused key.slot false } : Receiver) =
      Receiver.without { rx with active := rest } key := by
  simp only [Receiver.setLane, Receiver.without, hkey, Function.update_idem, hf.filter]

/-- **Polling the front lane answers a value of it, or leaves less to poll.** -/
theorem pollFront_spec (rx : Receiver) (fair tagged : Bool) (hact : rx.active ≠ [])
    (hbudget : S.strict = true → 0 < rx.itemsUntilReadyPoll) :
    Triple (recvC P S) (View S (.holding h c n) rx) (rx.pollFront P fair tagged)
      fun r s => Fronted P S tagged h c n rx s r := by
  obtain ⟨key, rest, hact⟩ := List.exists_cons_of_ne_nil hact
  refine Triple.given (fun s _ hv => hv.front hact) fun ⟨lane, hf⟩ => ?_
  unfold Receiver.pollFront
  simp only [hact, Prog.bind_eq, hf.pollLane]
  refine Triple.seq (hf.poll_spec fair hbudget) fun r => ?_
  have hnamed : ∀ {x : Ctx V} {s}, View S x { rx with active := rest } s → Named lane.ix key s :=
    fun hv => ⟨(hv.held hf.copyOf).2.1, (hv.held hf.copyOf).1.symm.trans hf.named⟩
  match r with
  | (.stale, lane') => exact Triple.given (φ := False) (fun s _ hl => hl.now) False.elim
  | (.item ℓ v rotate released, lane') =>
    refine Triple.given (fun s _ hl => And.intro hl.now.1 (And.intro hl.now.2.1
      (And.intro hl.now.2.2.1 hl.now.2.2.2.1))) ?_
    rintro ⟨rfl, hsk, hfast, hspent⟩
    have hkey : lane'.key = key := (congrArg Held.key hsk).trans hf.named
    have hix : lane'.ix = lane.ix := congrArg Held.ix hsk
    refine Triple.map ((charge_spec _ 1 (R := Named lane.ix key)
      (x := { Ctx.holding (h ++ [(lane.ix, v)]) true n with
        unc := 1, owed := if released then some (lane.ix, .due) else none })
      rfl rfl (Framed.named.kept _ _) (Framed.named.kept _ _) fun s t hn => hn).pre fun s _ hl =>
      ?_) fun rx' s _ hl => ?_
    · obtain ⟨-, -, -, -, hok, hv⟩ := hl.now
      exact ⟨hf.popped rotate hsk hfast hspent hok hv, hnamed hv⟩
    · obtain ⟨rfl, hv, hn⟩ := hl
      refine ⟨if released then some (lane.ix, .due) else none, ?_, ⟨hn.1, ?_⟩, hv⟩
      · cases released with
        | false => rfl
        | true =>
          refine ⟨lane', ?_, by rw [hix]; rfl⟩
          rw [Receiver.lane?, spend_lanes]
          exact lane?_eq (by rw [← hkey]; exact setLane_self) hkey
      · simp only [Receiver.output]
        rw [hn.2]
  | (.keep released, lane') =>
    refine Triple.done fun s hi hl => ?_
    obtain ⟨hempty, hst⟩ := hl
    have hkey : lane'.key = key := hst.key.trans hf.named
    have hv := hf.kept hst
    have hl' : Receiver.lane? { ({ rx with active := rest } : Receiver).setLane lane' with
        active := rest ++ [key] } key = some lane' :=
      lane?_eq (by rw [← hkey]; exact setLane_self) hkey
    have hcloser := hf.closer n n hi.core hv rfl (hnamed hst.view) hst.misses
      (List.subset_append_left ..) rfl
      (hf.weight hempty (fun slot hs => setLane_other (hkey.symm ▸ hs))
        (.inr ⟨rfl, lane', hl', hst.verdict.2.1⟩)) le_rfl fun dry ha => by
          obtain ⟨_, h⟩ := hst.alone dry ha
          cases h
    cases released with
    | false => exact ⟨n, hcloser, hv⟩
    | true => exact ⟨_, key, rfl, rfl, ⟨lane', hl', rfl⟩, hcloser, by rw [hst.ix]; exact hv⟩
  | (.idle false released, lane') =>
    refine Triple.done fun s hi hl => ?_
    obtain ⟨hempty, hst⟩ := hl
    have hkey : lane'.key = key := hst.key.trans hf.named
    have hv := hf.left hi.core hst
    have hcloser := hf.closer n n hi.core hv rfl (hnamed hst.view) hst.misses
      (List.Subset.refl _) rfl
      (hf.weight hempty (fun slot hs => setLane_other (hkey.symm ▸ hs)) (.inl rfl)) le_rfl
      fun dry ha => by
        obtain ⟨_, h⟩ := hst.alone dry ha
        cases h
    cases released with
    | false => exact ⟨n, hcloser, hv⟩
    | true =>
      refine ⟨_, key, rfl, rfl, ⟨lane', ?_, rfl⟩, hcloser, by rw [hst.ix]; exact hv⟩
      exact lane?_eq (by rw [← hkey]; exact setLane_self) hkey
  | (.idle true released, lane') =>
    refine Triple.given (fun s _ hl => And.intro hl.now.1 (And.intro hl.now.2.key
      (And.intro hl.now.2.ix hl.now.2.misses))) fun ⟨hempty, hkey, hix, hmiss⟩ => ?_
    have hkey' : lane'.key = key := hkey.trans hf.named
    have hheld : Receiver.lanes { rx with active := rest } key.slot = some lane := hf.held
    refine Triple.map ((retireLane_spec (R := Named lane.ix key)
      (x := { (Ctx.polling h c n lane).released lane.ix released with exempt := some lane.ix })
      rfl hheld hf.named
      (fun k hk => (Option.some.inj hk).symm.trans hf.named) (.inr rfl) (.inr rfl) ?_ rfl hmiss
      .named (by rw [← hkey']; exact setLane_self) hix (hf.without hkey')).pre
      fun s _ hl => ?_) fun rx' s hi hl => ?_
    · cases released with
      | false => exact .inl rfl
      | true => exact .inr ⟨_, rfl⟩
    · exact ⟨hl.now.2.view, ⟨hl.now.2.verdict.2, .inr (hl.now.2.passed _ _ rfl)⟩,
        hnamed hl.now.2.view⟩
    · obtain ⟨rfl, hv, halone, hn⟩ := hl
      refine ⟨n - 1,
        hf.closer n (n - 1) hi.core hv rfl hn hmiss ?_ rfl (hf.weight hempty ?_ (.inl ?_))
        (Nat.sub_le ..) fun dry ha => Nat.sub_lt (halone dry ha) Nat.one_pos, hv⟩
      · simp only [Receiver.without, hf.filter]
        exact List.Subset.refl _
      · exact fun slot hs => Function.update_of_ne hs ..
      · simp only [Receiver.without, hf.filter]

end

end Fanring.Mpsc
