import Fanring.Mpsc.LaneSpec

/-!
# The MPSC channel: taking values from a lane

Triples for the rest of `mpsc/receiver/lane.rs`: the pops, the fast window that is charged ahead of
them, bulk moves, and the slots that are given back once a release batch is complete.
-/

set_option autoImplicit false

namespace Fanring.Mpsc

open Conc Chan

variable {V : Type} {P : Params} {S : Setting} {s s' : Chan V} {ℓ : Nat} {x : Ctx V}
  {rx rx' : Receiver} {lane lane' : Lane} {key : LaneKey}

/-! ## One value -/

/-- The counters after `n` values were taken. -/
structure Lane.Takes (lane lane' : Lane) (n : Nat) : Prop where
  skel : lane'.skel = lane.skel
  isOpen : lane'.isOpen = lane.isOpen
  batch : lane'.releaseBatch = lane.releaseBatch
  window : lane'.cachedAvailable + lane'.fastLeft + n = lane.cachedAvailable + lane.fastLeft
  credit : lane'.unreleased + lane.fastLeft = lane.unreleased + n + lane'.fastLeft
  unreleased_le : lane'.unreleased ≤ lane'.releaseBatch
  burst_le : lane'.burst ≤ prefetchLimit
  fast_le : lane'.fastLeft ≤ lane'.burst

theorem Lane.Takes.ix {n : Nat} (h : lane.Takes lane' n) : lane'.ix = lane.ix :=
  congrArg Held.ix h.skel

theorem LaneCounts.take {r : Ring V} {vs : List V} {t : List (Event V)} (h : LaneCounts s lane)
    (hr : Pull (s.ring lane.ix) r vs) (hct : r.cachedTail = (s.ring lane.ix).cachedTail)
    (hl : lane.Takes lane' vs.length) :
    LaneCounts { (ringL lane.ix).set r s with trace := t } lane' := by
  have h₁ := h.window
  have h₂ := h.credit
  have h₃ := hl.window
  have h₄ := hl.credit
  have h₅ := hr.length
  have h₆ := hr.released
  refine ⟨hl.isOpen.trans h.isOpen, ?_, ?_, ?_, hl.unreleased_le, hl.burst_le, hl.fast_le⟩
  · simp only [ringL, hl.ix, Function.update_self, hct]
    omega
  · simp only [ringL, hl.ix, Function.update_self]
    omega
  · simpa only [ringL, hl.ix, Function.update_self, hl.batch, hr.cap] using h.batch

theorem pull_step {r : Ring V} {vs : List V} {targeted : Bool} (hi : Inv P S.strict s)
    (hv : View S x rx s) (hx : x.asleep = false) (hl : CopyOf rx lane)
    (hr : Pull (s.ring lane.ix) r vs)
    (hbudget : S.strict = true → targeted = false → x.unc + vs.length ≤ rx.itemsUntilReadyPoll) :
    RecvStep P S s
      { (ringL lane.ix).set r s with trace := s.trace ++ vs.map (.pop lane.ix · targeted) } where
  core := by
    obtain ⟨-, hlt, hst, hsh⟩ := hv.held hl
    exact hi.core.pull hlt hst hsh hr (by rw [popped_append, popped_pops])
  act := by
    refine .setRing hr.toConsumeStep _ (by simp) (by simp) (by simp) (fun a ha => ?_)
      (.inr ⟨hr.released, hr.isClosed_eq _⟩)
    obtain ⟨-, -, hst, -⟩ := hv.held hl
    rw [popped_pops] at ha
    obtain ⟨v, -, rfl⟩ := List.mem_map.mp ha
    exact hst
  awake := hv.awake hx
  trace hst := (hi.trace hst).pops _ _ _ fun ht => by
    have h₁ := (hv.budget hst).since
    have h₂ := hbudget hst ht
    omega

theorem popValue_spec {targeted : Bool} (hx : x.asleep = false) (hhot : x.hot = some lane.ix)
    (hquiet : x.quiet = false) (hl : CopyOf rx lane) (ht : lane.Takes lane' 1)
    (hfree : Free S rx lane)
    (hfront : targeted = false → x.out.or rx.active.head? = some lane.key)
    (hbudget : S.strict = true → targeted = false → x.unc + 1 ≤ rx.itemsUntilReadyPoll)
    (hmode : targeted = true → S.wait = none) (hallowed : Allowed S x.out x.taken rx lane 1) :
    Triple (recvC P S) (Work S x rx lane) (popValue lane.ix targeted) fun v s =>
      Work S (x.pulled lane.ix [v] targeted) rx lane' s := by
  refine Triple.seq (Q := fun found s => ∃ v, found = some v ∧
      Work S (x.pulled lane.ix [v] targeted) rx lane' s) (recv_atomic (Work.stable hl rfl) ?_ ?_)
    fun found => ?_
  · rintro found s s' hs hs' hrely ⟨v, hv, hw⟩
    exact ⟨v, hv, Work.stable hl ht.ix s s' hs hs' hrely hw⟩
  · rintro s hi ⟨hv, hn⟩
    have hne : (s.ring lane.ix).head < (s.ring lane.ix).cachedTail := by
      have := hn.window
      have := ht.window
      omega
    obtain ⟨v, hpop, hpull⟩ := Pull.pop (hi.core.lane lane.ix).ok hne
    have hct : ((s.ring lane.ix).pop).2.cachedTail = (s.ring lane.ix).cachedTail := by
      simp [Ring.pop, hne.ne]
    have hget : ((ringL lane.ix).get s).pop.1 = some v := hpop
    simp only [hget]
    exact ⟨pull_step hi hv hx hl hpull hbudget, v, rfl,
      hv.pull hi.core hl hhot hquiet hpull hfree hfront hbudget hmode hallowed,
      hn.take hpull hct ht⟩
  · cases found with
    | none => exact Triple.given (φ := False) (fun s _ h => by simpa using h.now) False.elim
    | some v =>
      refine Triple.done fun s _ h => ?_
      obtain ⟨v', hv, hw⟩ := h
      exact Option.some.inj hv ▸ hw

/-- The counters in hand are as far in the turn as what was taken says, or nobody in the rotation
    waits for the lane. -/
theorem InTurn.allowed {out : Option LaneKey} {taken n : Nat} (h : InTurn S out taken rx lane)
    (hn : lane.spent + n ≤ prefetchLimit) : Allowed S out taken rx lane n := by
  refine h.imp_right (Or.imp_right fun hspent l₀ hl₀ => ?_)
  have := hspent l₀ hl₀
  omega

/-- What a pop from the fast window leaves. -/
def FastPopped (S : Setting) (x : Ctx V) (rx : Receiver) (lane : Lane) :
    Option V × Lane → Chan V → Prop
  | (none, lane'), s => lane' = lane ∧ lane.fastLeft = 0 ∧ Work S x rx lane s
  | (some v, lane'), s => lane' = { lane with fastLeft := lane.fastLeft - 1 } ∧ 0 < lane.fastLeft ∧
      Work S (x.pulled lane.ix [v] false) rx lane' s

theorem popFast_spec (hx : x.asleep = false) (hhot : x.hot = some lane.ix)
    (hquiet : x.quiet = false) (hl : CopyOf rx lane) (hfree : 0 < lane.fastLeft → Free S rx lane)
    (hfast : 0 < lane.fastLeft → x.out.or rx.active.head? = some lane.key ∧
      lane.fastLeft + x.unc ≤ rx.itemsUntilReadyPoll) (hturn : InTurn S x.out x.taken rx lane) :
    Triple (recvC P S) (Work S x rx lane) lane.popFast (FastPopped S x rx lane) := by
  rw [Lane.popFast]
  split
  · next h₀ =>
    exact Triple.ret ((Contract.Stable.pure _).and ((Contract.Stable.pure _).and
      (Work.stable hl rfl))) fun s _ h => ⟨rfl, h₀, h⟩
  · next h₀ =>
    have hpos := Nat.pos_of_ne_zero h₀
    refine Triple.given (fun s _ h => And.intro h.2.unreleased_le (And.intro h.2.burst_le
      h.2.fast_le)) fun ⟨hu, hb, hle⟩ => ?_
    have ht : lane.Takes { lane with fastLeft := lane.fastLeft - 1 } 1 := by
      refine ⟨rfl, rfl, rfl, ?_, ?_, hu, hb, ?_⟩
      all_goals simp only; omega
    refine Triple.map (popValue_spec hx hhot hquiet hl ht (hfree hpos)
      (fun _ => (hfast hpos).1) (fun _ _ => ?_) (by simp) (hturn.allowed ?_))
      fun v s _ h => ⟨rfl, hpos, h⟩
    · have := (hfast hpos).2
      omega
    · simp only [Lane.spent]
      omega

theorem LaneCounts.openFast (h : LaneCounts s lane) (hf : lane.fastLeft = 0) {n : Nat}
    (hc : n ≤ lane.cachedAvailable) (hu : lane.unreleased + n < lane.releaseBatch)
    (hb : lane.burst + n < prefetchLimit) : LaneOk s (lane.openFast n) := by
  have h₁ := h.window
  have h₂ := h.credit
  refine ⟨⟨h.isOpen, ?_, ?_, h.batch, hu.le, hb.le, ?_⟩, hu, hb⟩
  all_goals simp only [Lane.openFast]; omega

theorem grantFast_spec {l : Lane} (hx : x.asleep = false) (hhot : x.hot = some l.ix)
    (hl : CopyOf rx l)
    (budget : Nat) :
    Triple (recvC P S) (fun s => View S x rx s ∧ LaneOk s l) (l.grantFast budget)
      fun lane' s => lane'.skel = l.skel ∧ lane'.fastLeft ≤ budget ∧ lane'.spent = l.spent ∧
        View S x rx s ∧ LaneOk s lane' := by
  refine Triple.given (φ := l.unreleased < l.releaseBatch ∧ l.burst < prefetchLimit)
    (fun s _ h => ⟨h.2.unreleased_lt, h.2.burst_lt⟩) fun ⟨hu, hb⟩ => ?_
  refine Triple.closing (fun s _ h => h.2.toLaneCounts) ?_
  refine Triple.map ((reload_drained (l := l.closeFast) hx hhot (hl.of_skel rfl) rfl).pre
    fun s hi h => ⟨h.1, h.2.toLaneCounts.closeFast hi.core⟩) fun lane₁ s _ h => ?_
  obtain ⟨⟨hlane, -⟩, hw, -⟩ := h
  have h₁ : lane₁.unreleased < lane₁.releaseBatch := by
    rw [hlane]
    exact lt_of_le_of_lt (Nat.sub_le ..) hu
  have h₂ : lane₁.burst < prefetchLimit := by
    rw [hlane]
    exact lt_of_le_of_lt (Nat.sub_le ..) hb
  refine ⟨by rw [hlane]; rfl, Nat.min_le_right .., ?_, hw.1,
    hw.2.openFast (by rw [hlane]; rfl) ?_ ?_ ?_⟩
  · have hspent : lane₁.burst = l.spent := by rw [hlane]; rfl
    simp only [Lane.openFast, Lane.spent] at hspent ⊢
    omega
  all_goals simp only [Lane.granted]; omega

theorem releaseBatchDone_spec {l : Lane} (hx : x.asleep = false) (hhot : x.hot = some l.ix)
    (howed : x.owed = none) (hl : CopyOf rx l) (hf : l.fastLeft = 0) :
    Triple (recvC P S) (Work S x rx l) l.releaseBatchDone fun r s =>
      r.2 = { l with unreleased := r.2.unreleased } ∧ r.2.unreleased < r.2.releaseBatch ∧
        Work S (x.released l.ix r.1) rx r.2 s := by
  rw [Lane.releaseBatchDone]
  split
  · next h₀ =>
    refine ((releasePending_spec (R := fun _ => True) hx hhot howed hl (.inr (.inr ?_)) (.pure _)
      (fun _ => .pure _) fun _ _ _ => trivial).conseq (fun s _ h => ⟨h, trivial⟩)
      fun r s hi h => ?_)
    · rw [Lane.closeFast, hf, ← h₀]
      rfl
    obtain ⟨hr, hw, -⟩ := h
    rw [hr]
    refine ⟨by simp [Lane.released, Lane.closeFast, hf], ?_, hw⟩
    have := (LaneOk.of_released (hw.2.endBurst rfl) hi.core rfl prefetchLimit_pos).unreleased_lt
    exact this
  · next h₀ =>
    refine Triple.given (fun s _ h => h.2.unreleased_le) fun hu => ?_
    refine Triple.ret ?_ fun s _ h => ⟨rfl, lt_of_le_of_ne hu h₀, ?_⟩
    · exact (Contract.Stable.pure _).and ((Contract.Stable.pure _).and (Work.stable hl rfl))
    · rwa [show x.released l.ix false = x by rw [Ctx.released, ← howed]; rfl]

/-- What a poll of a lane leaves. -/
def Polled (S : Setting) (x : Ctx V) (rx : Receiver) (lane : Lane) (lane' : Lane) (s : Chan V) :
    LanePoll V → Prop
  | .item ℓ v rotate released => ℓ = lane.ix ∧ lane'.skel = lane.skel ∧ lane'.fastLeft = 0 ∧
      (rotate = false → lane'.spent = lane.spent + 1) ∧ LaneOk s lane' ∧
      View S ((x.pulled lane.ix [v] false).released lane.ix released) rx s
  | .keep released => lane.cachedAvailable + lane.fastLeft = 0 ∧
      Settled S x rx lane.skel (.keep released) lane' s
  | .idle disconnected released => lane.cachedAvailable + lane.fastLeft = 0 ∧
      Settled S x rx lane.skel (.idle disconnected released) lane' s
  | .stale => False

theorem Lane.takes_charge (hf : lane.fastLeft = 0) (hc : 0 < lane.cachedAvailable)
    (hu : lane.unreleased < lane.releaseBatch) (b : Nat) (hb : lane.burst + b ≤ prefetchLimit) :
    lane.Takes (lane.charge b) 1 := by
  refine ⟨rfl, rfl, rfl, ?_, rfl, hu, hb, ?_⟩
  all_goals simp only [Lane.charge]; omega

theorem poll_spec (fair : Bool) (hx : x.asleep = false) (hhot : x.hot = some lane.ix)
    (howed : x.owed = none) (hex : x.exempt = none) (hswept : x.swept = false)
    (hquiet : x.quiet = false) (hl : CopyOf rx lane) (hfree : Free S rx lane)
    (hfront : x.out.or rx.active.head? = some lane.key)
    (hbudget : S.strict = true → x.unc + 1 ≤ rx.itemsUntilReadyPoll)
    (hturn : InTurn S x.out x.taken rx lane) :
    Triple (recvC P S) (fun s => View S x rx s ∧ LaneOk s lane) (lane.poll fair) fun r s =>
      Polled S x rx lane r.2 s r.1 := by
  refine Triple.seq (refill_spec hx hhot howed hex hswept hquiet hl) fun r => ?_
  match r with
  | (some (.keep released), lane₁) => exact Triple.done fun s _ h => h
  | (some (.idle disconnected released), lane₁) => exact Triple.done fun s _ h => h
  | (none, lane₁) =>
    refine Triple.given (fun s _ h => And.intro h.now.1 (And.intro h.now.2.1 (And.intro h.now.2.2.1
      (And.intro h.now.2.2.2.1.unreleased_lt (And.intro h.now.2.2.2.1.burst_lt h.now.2.2.2.2.2)))))
      fun ⟨hsk, hf, hpos, hu, hb, hspent⟩ => ?_
    have hspent₁ : lane₁.burst = lane.spent := by
      rw [← hspent, Lane.spent, hf]
      rfl
    have hix : lane₁.ix = lane.ix := congrArg Held.ix hsk
    have hkey : lane₁.key = lane.key := congrArg Held.key hsk
    have hl₁ : CopyOf rx lane₁ := hl.of_skel hsk
    refine Triple.bind ((popValue_spec hx (hhot.trans (by rw [hix])) hquiet hl₁
      (Lane.takes_charge hf hpos hu 1 hb) (by rwa [Free, hkey]) (fun _ => by rwa [hkey])
      (fun hst _ => hbudget hst) (by simp) (InTurn.allowed (by rwa [InTurn, hkey, hspent]) ?_)).pre
      fun s _ h => ⟨h.now.2.2.2.2.1, h.now.2.2.2.1.toLaneCounts⟩) fun v => ?_
    · rw [hspent, ← hspent₁]
      exact hb
    refine Triple.ensure hpos (Triple.map (releaseBatchDone_spec (l := lane₁.charge 1) hx
      (hhot.trans (by rw [← hix]; rfl)) howed (hl₁.of_skel rfl) hf) fun r s hi h => ?_)
    obtain ⟨released, lane₂⟩ := r
    obtain ⟨hlane, hu₂, hv, hn⟩ := h
    have hsk₂ : lane₂.skel = lane.skel := by
      rw [show lane₂ = _ from hlane]
      exact hsk
    have hf₂ : lane₂.fastLeft = 0 := by
      rw [show lane₂ = _ from hlane]
      exact hf
    rw [show (lane₁.charge 1).ix = lane.ix from hix, hix] at hv
    refine ⟨congrArg Held.ix hsk₂, ?_⟩
    simp only [Bool.or_eq_true, beq_iff_eq]
    split
    · next hrot =>
      refine ⟨hsk₂, hf₂, fun hno => ?_, ⟨hn.endBurst hf₂, hu₂, prefetchLimit_pos⟩, hv⟩
      simp only [Bool.or_eq_false_iff, beq_eq_false_iff_ne] at hno
      simp [hno.1, hno.2] at hrot
    · next hrot =>
      refine ⟨hsk₂, hf₂, fun _ => ?_,
        ⟨hn, hu₂, lt_of_le_of_ne hn.burst_le fun hb => hrot (.inr hb)⟩, hv⟩
      rw [Lane.spent, hf₂, show lane₂ = _ from hlane, ← hspent₁]
      rfl

/-- What a fair pop leaves. -/
def FairPopped (S : Setting) (x : Ctx V) (rx : Receiver) (lane : Lane) :
    Option V × Lane → Chan V → Prop
  | (none, lane'), s => lane'.skel = lane.skel ∧ lane'.fastLeft = 0 ∧ LaneOk s lane' ∧
      View S x rx s
  | (some v, lane'), s => lane'.skel = lane.skel ∧
      lane'.fastLeft + x.unc + 1 ≤ rx.itemsUntilReadyPoll ∧ LaneOk s lane' ∧
      View S (x.pulled lane.ix [v] false) rx s

theorem popFair_spec (budget : Nat) (hx : x.asleep = false) (hhot : x.hot = some lane.ix)
    (hquiet : x.quiet = false) (hl : CopyOf rx lane) (hfree : Free S rx lane)
    (hfront : x.out.or rx.active.head? = some lane.key)
    (hfast : 0 < lane.fastLeft → lane.fastLeft + x.unc ≤ rx.itemsUntilReadyPoll)
    (hbudget : budget + x.unc ≤ rx.itemsUntilReadyPoll)
    (hsole : lane.key ∉ (x.out.toList ++ rx.active).dropLast) :
    Triple (recvC P S) (fun s => View S x rx s ∧ LaneOk s lane) (lane.popFair budget)
      (FairPopped S x rx lane) := by
  unfold Lane.popFair
  extract_lets pop
  have hpop : ∀ lane₁ : Lane, Triple (recvC P S) (fun s => lane₁.skel = lane.skel ∧
      (0 < lane₁.fastLeft → lane₁.fastLeft + x.unc ≤ rx.itemsUntilReadyPoll) ∧
        View S x rx s ∧ LaneOk s lane₁)
      (pop lane₁) (FairPopped S x rx lane) := by
    intro lane₁
    refine Triple.given (fun s _ h => And.intro h.1 (And.intro h.2.1
      (And.intro h.2.2.2.unreleased_lt (And.intro h.2.2.2.burst_lt h.2.2.2.fast_le))))
      fun ⟨hsk, hfast₁, hu, hb, hle⟩ => ?_
    have hix : lane₁.ix = lane.ix := congrArg Held.ix hsk
    have hkey : lane₁.key = lane.key := congrArg Held.key hsk
    refine Triple.seq ((popFast_spec hx (hhot.trans (by rw [hix])) hquiet (hl.of_skel hsk)
      (fun _ => by rwa [Free, hkey]) (fun hpos => ?_) (.inr (.inl ?_))).pre
      fun s _ h => ⟨h.2.2.1, h.2.2.2.toLaneCounts⟩) fun r => ?_
    · exact ⟨by rw [hkey]; exact hfront, hfast₁ hpos⟩
    · rwa [hkey]
    match r with
    | (none, lane₂) =>
      refine Triple.done fun s _ h => ?_
      obtain ⟨rfl, h₀, hv, hn⟩ := h
      exact ⟨hsk, h₀, ⟨hn, hu, hb⟩, hv⟩
    | (some v, lane₂) =>
      refine Triple.done fun s _ h => ?_
      obtain ⟨rfl, hpos, hv, hn⟩ := h
      rw [hix] at hv
      refine ⟨hsk, ?_, ⟨{ hn with burst_le := ?_, fast_le := le_rfl }, hu, ?_⟩, hv⟩
      · have := hfast₁ hpos
        simp only
        omega
      all_goals simp only; omega
  split
  · next h₀ =>
    refine Triple.bind ((grantFast_spec (l := { lane with burst := 0 }) hx hhot (hl.of_skel rfl)
      budget).conseq (fun s _ h => ⟨h.1, ?_⟩) fun lane₁ s _ h => ⟨h.1, fun _ => ?_, h.2.2.2⟩)
      hpop
    · exact ⟨h.2.toLaneCounts.endBurst h₀, h.2.unreleased_lt, prefetchLimit_pos⟩
    · have := h.2.1
      omega
  · exact (hpop lane).pre fun s _ h => ⟨rfl, hfast, h⟩

theorem popTargeted_spec (hx : x.asleep = false) (hhot : x.hot = some lane.ix)
    (howed : x.owed = none) (hquiet : x.quiet = false) (hl : CopyOf rx lane)
    (hf : lane.fastLeft = 0) (hc : 0 < lane.cachedAvailable) (hfree : Free S rx lane)
    (hwait : S.wait = none) :
    Triple (recvC P S) (fun s => View S x rx s ∧ LaneOk s lane) lane.popTargeted fun r s =>
      r.2.skel = lane.skel ∧ r.2.fastLeft = 0 ∧ LaneOk s r.2 ∧
        View S ((x.pulled lane.ix [r.1.1] true).released lane.ix r.1.2) rx s := by
  refine Triple.given (φ := lane.unreleased < lane.releaseBatch ∧ lane.burst < prefetchLimit)
    (fun s _ h => ⟨h.2.unreleased_lt, h.2.burst_lt⟩) fun ⟨hu, hb⟩ => ?_
  refine Triple.bind ((popValue_spec hx hhot hquiet hl (Lane.takes_charge hf hc hu 0 hb.le)
    hfree (by simp) (by simp) (fun _ => hwait) (.inl hwait)).pre
    fun s _ h => ⟨h.1, h.2.toLaneCounts⟩) fun v => ?_
  refine Triple.ensure hc (Triple.map (releaseBatchDone_spec (l := lane.charge 0) hx hhot howed
    (hl.of_skel rfl) hf) fun r s hi h => ?_)
  obtain ⟨released, lane₂⟩ := r
  obtain ⟨hlane, hu₂, hv, hn⟩ := h
  have hlane' : lane₂ = _ := hlane
  refine ⟨by rw [hlane']; rfl, by rw [hlane']; exact hf, ⟨hn, hu₂, ?_⟩, hv⟩
  rw [hlane']
  exact hb

/-- What a bulk move leaves. -/
structure Moved (S : Setting) (x : Ctx V) (rx : Receiver) (lane : Lane)
    (accept : Option (List V → V → Bool)) (take : Nat) (vs : List V) (lane' : Lane) (s : Chan V) :
    Prop where
  le : vs.length ≤ take
  all : accept = none → vs.length = take
  skel : lane'.skel = lane.skel
  fast : lane'.fastLeft = 0
  spent : lane'.spent = lane.spent + vs.length
  unreleased_lt : lane'.unreleased < lane'.releaseBatch
  counts : LaneCounts s lane'
  view :
    View S { x.pulled lane.ix vs false with owed := none, refused := decide (vs.length < take) }
    rx s

theorem accepted_le (accept : List V → V → Bool) :
    ∀ vs offered : List V, accepted accept offered vs ≤ vs.length
  | [], _ => le_rfl
  | v :: vs, offered => by
    simp only [accepted]
    split
    · exact Nat.succ_le_succ (accepted_le accept vs _)
    · exact Nat.zero_le _

/-- A prefix that is not everything ends with a refused value. -/
theorem refused_mem_calls (accept : List V → V → Bool) :
    ∀ vs offered : List V, accepted accept offered vs < vs.length →
      ∃ v, (v, false) ∈ calls accept offered vs
  | [], _, h => absurd h (Nat.lt_irrefl 0)
  | v :: vs, offered, h => by
    simp only [accepted, calls] at h ⊢
    split at h
    · next hacc =>
      obtain ⟨w, hw⟩ := refused_mem_calls accept vs (offered ++ [v]) (Nat.succ_lt_succ_iff.mp h)
      exact ⟨w, by rw [if_pos hacc]; exact List.mem_cons_of_mem _ hw⟩
    · next hacc => exact ⟨v, by simp [hacc]⟩

/-- What is popped and what is left make up the window. -/
theorem popInto_window {r : Ring V} (h : r.Ok) {n limit : Nat} (hle : n ≤ limit) :
    (r.popInto n).1 ++ (r.popInto n).2.window (limit - (r.popInto n).1.length) =
      r.window limit := by
  have hlen := h.length_window n
  set k := (r.window n).length with hk
  have hwin : r.window n = (r.log.drop r.head).take k := by rw [hlen]; rfl
  change r.window n ++
    (r.log.drop (r.head + k)).take (min (r.cachedTail - (r.head + k)) (limit - k))
    = (r.log.drop r.head).take (min (r.cachedTail - r.head) limit)
  rw [hwin, ← List.drop_drop, ← List.take_add]
  congr 1
  omega

/-- A chunk that fell short was refused a value. -/
theorem Lane.asks_refused {r : Ring V} (h : r.Ok) {accept : Option (List V → V → Bool)}
    {offered : List V} {take : Nat} (hle : r.head + take ≤ r.cachedTail)
    (hlt : (r.popAdmitted accept offered take).1.length < take) :
    ∃ v, .asked v false ∈ Lane.asks accept offered ((r.popAdmitted accept offered take).1 ++
      (r.popAdmitted accept offered take).2.window
        (take - (r.popAdmitted accept offered take).1.length)) := by
  cases accept with
  | none =>
    have hall := h.length_window take
    simp only [Ring.popAdmitted, Ring.popInto] at hlt
    omega
  | some accept =>
    have hacc := accepted_le accept (r.window take) offered
    have hlen := h.length_window take
    have hle' : accepted accept offered (r.window take) ≤ take := by omega
    have hwin := popInto_window h hle'
    have hshort : accepted accept offered (r.window take) < (r.window take).length := by
      have := h.length_window (accepted accept offered (r.window take))
      simp only [Ring.popAdmitted, Ring.popInto] at hlt
      omega
    obtain ⟨v, hv⟩ := refused_mem_calls accept _ _ hshort
    refine ⟨v, List.mem_map.mpr ⟨(v, false), ?_, rfl⟩⟩
    simp only [Ring.popAdmitted]
    rwa [hwin]

theorem length_popAdmitted {r : Ring V} (h : r.Ok) (accept : Option (List V → V → Bool))
    (offered : List V) {take : Nat} (hle : r.head + take ≤ r.cachedTail) :
    (r.popAdmitted accept offered take).1.length ≤ take ∧
      (accept = none → (r.popAdmitted accept offered take).1.length = take) := by
  cases accept with
  | none =>
    have : (r.popInto take).1.length = take := (h.length_window take).trans (by omega)
    exact ⟨this.le, fun _ => this⟩
  | some accept =>
    refine ⟨?_, by simp⟩
    have h₁ := h.length_window (accepted accept offered (r.window take))
    have h₂ := accepted_le accept (r.window take) offered
    have h₃ := h.length_window take
    simp only [Ring.popAdmitted, Ring.popInto]
    omega

theorem Lane.takes_moved {n : Nat} (hf : lane.fastLeft = 0) (hn : n ≤ lane.chunkLimit)
    (hu : lane.unreleased < lane.releaseBatch) (hb : lane.burst < prefetchLimit) :
    lane.Takes (lane.moved n) n := by
  simp only [Lane.chunkLimit] at hn
  refine ⟨rfl, rfl, rfl, ?_, rfl, ?_, ?_, ?_⟩
  all_goals simp only [Lane.moved]; omega

theorem Lane.asks_silent (accept : Option (List V → V → Bool)) (offered window : List V) :
    ∀ e ∈ Lane.asks accept offered window, e.silent = true := by
  cases accept with
  | none => simp [Lane.asks]
  | some accept =>
    intro e he
    obtain ⟨c, -, rfl⟩ := List.mem_map.mp he
    rfl

theorem Lane.not_mem_asks (accept : Option (List V → V → Bool)) (offered window : List V)
    (e : Event V) (he : (∃ ℓ, e = .seenEmpty ℓ) ∨ (∃ ℓ n m b f, e = .publish ℓ n m b f) ∨
      ∃ keys, e = .queued keys) : e ∉ Lane.asks accept offered window := by
  rcases he with ⟨ℓ, rfl⟩ | ⟨ℓ, n, m, b, f, rfl⟩ | ⟨keys, rfl⟩ <;> cases accept <;>
    simp [Lane.asks]

theorem Lane.asks_sparing (accept : Option (List V → V → Bool)) (offered window : List V) :
    ∀ e ∈ Lane.asks accept offered window, e.sparing := by
  cases accept with
  | none => simp [Lane.asks]
  | some accept =>
    intro e he
    obtain ⟨c, -, rfl⟩ := List.mem_map.mp he
    trivial

theorem View.setRefused (h : View S x rx s) (b : Bool)
    (hb : b = true → ∀ ℓ t, S.scan = some (ℓ, t) → Refused t s.trace) :
    View S { x with refused := b } rx s :=
  { h with
    budget := fun hst => { h.budget hst with }
    refused := hb }

theorem moveChunk_spec {accept : Option (List V → V → Bool)} {offered : List V} {take : Nat}
    (hx : x.asleep = false) (hhot : x.hot = some lane.ix) (howed : x.owed = none)
    (hquiet : x.quiet = false) (hl : CopyOf rx lane) (hf : lane.fastLeft = 0)
    (htake : take ≤ lane.chunkLimit) (hfree : Free S rx lane)
    (hfront : x.out.or rx.active.head? = some lane.key)
    (hbudget : x.unc + take ≤ rx.itemsUntilReadyPoll) (hturn : InTurn S x.out x.taken rx lane) :
    Triple (recvC P S) (fun s => View S x rx s ∧ LaneOk s lane) (lane.moveChunk accept offered take)
      fun r s => Moved S x rx lane accept take r.1 r.2 s := by
  refine Triple.given (φ := lane.unreleased < lane.releaseBatch ∧ lane.burst < prefetchLimit)
    (fun s _ h => ⟨h.2.unreleased_lt, h.2.burst_lt⟩) ?_
  rintro ⟨hu, hb⟩
  refine Triple.bind (Q := fun vs s =>
      (vs.length ≤ take ∧ (accept = none → vs.length = take)) ∧
        Work S { x.pulled lane.ix vs false with refused := decide (vs.length < take) } rx
          (lane.moved vs.length) s)
    (recv_atomic (LaneOk.kept hl rfl).stable
      (fun _ => (Contract.Stable.pure _).and (Work.stable hl (by rfl))) fun s hi h => ?_)
    fun vs => ?_
  · obtain ⟨hv, hn⟩ := h
    have hle : (s.ring lane.ix).head + take ≤ (s.ring lane.ix).cachedTail := by
      have := hn.window
      simp only [Lane.chunkLimit] at htake
      omega
    have hlen := length_popAdmitted (hi.core.lane lane.ix).ok accept offered hle
    have hpull := Pull.popAdmitted (hi.core.lane lane.ix).ok accept offered take
    have hct : ((s.ring lane.ix).popAdmitted accept offered take).2.cachedTail =
        (s.ring lane.ix).cachedTail := by cases accept <;> rfl
    -- the calls of the predicate are recorded first
    set p := (s.ring lane.ix).popAdmitted accept offered take with hp
    have hasks := Lane.asks_silent accept offered
      (p.1 ++ (((ringL lane.ix).set p.2 s).ring lane.ix).window (take - p.1.length))
    have hstrict : S.strict = true → false = false → x.unc + p.1.length ≤ rx.itemsUntilReadyPoll :=
      fun _ _ => by omega
    have hv' := hv.silent hasks (.inr (Lane.asks_sparing _ _ _))
    refine ⟨.silent hi hv hx hasks (Lane.not_mem_asks _ _ _) fun hi' =>
      pull_step hi' hv' hx hl hpull hstrict, hlen, View.pull
        (x := { x with refused := decide (p.1.length < take) })
        (hv'.setRefused _ fun hlt ℓ t ht => ?_) (hi.core.setTrace (popped_silent _ hasks)) hl hhot
        hquiet hpull hfree (fun _ => hfront) hstrict (by simp) (hturn.allowed ?_),
      hn.toLaneCounts.take hpull hct (Lane.takes_moved hf (le_trans hlen.1 htake) hu hb)⟩
    · obtain ⟨v, hm⟩ := Lane.asks_refused (hi.core.lane lane.ix).ok hle (of_decide_eq_true hlt)
      refine ⟨v, ?_⟩
      rw [List.drop_append_of_le_length (hv.scan ℓ t ht).le]
      refine List.mem_append_right _ ?_
      simpa [ringL] using hm
    · have hroom : take ≤ prefetchLimit - lane.burst := by
        simp only [Lane.chunkLimit] at htake
        omega
      have hle₁ : p.1.length ≤ take := hlen.1
      change lane.spent + p.1.length ≤ prefetchLimit
      rw [Lane.spent]
      omega
  · refine Triple.given (fun s _ h => h.1) fun hlen => ?_
    refine Triple.ensure (by simp only [Lane.chunkLimit] at htake; omega) ?_
    refine Triple.seq ((releaseBatchDone_spec (l := lane.moved vs.length)
      (x := { x.pulled lane.ix vs false with refused := decide (vs.length < take) }) hx hhot howed
      (hl.of_skel rfl) hf).pre fun s _ h => h.2) fun r => ?_
    obtain ⟨released, lane₂⟩ := r
    refine Triple.given (fun s _ h => And.intro h.now.1 h.now.2.1) ?_
    rintro ⟨hlane, hu₂⟩
    have hlane' : lane₂ = _ := hlane
    have hix : lane₂.ix = lane.ix := by rw [hlane']; rfl
    refine (tell_spec (b := released)
      (x := { x.pulled lane.ix vs false with refused := decide (vs.length < take) })
      (R := fun s => LaneCounts s lane₂) hx (fun _ => LaneCounts.kept hl hix)
      (fun s c o h => { h with }) (Triple.done fun s _ h => ?_)).pre fun s _ h => ?_
    · exact
        { le := hlen.1, all := hlen.2
          skel := by rw [hlane']; rfl
          fast := by rw [hlane']; exact hf
          spent := by
            rw [hlane', Lane.spent, Lane.spent]
            simp only [Lane.moved, hf]
            omega
          unreleased_lt := hu₂
          counts := h.2
          view := h.1 }
    · exact ⟨by rw [hix]; exact h.now.2.2.1, h.now.2.2.2⟩

/-- The counters once a full burst was ended. -/
theorem LaneOk.endFullBurst (h : LaneCounts s lane) (hu : lane.unreleased < lane.releaseBatch)
    (hf : lane.fastLeft = 0) : LaneOk s lane.endFullBurst.2 ∧
      lane.endFullBurst.2.skel = lane.skel ∧ lane.endFullBurst.2.fastLeft = 0 := by
  simp only [Lane.endFullBurst]
  split
  · exact ⟨⟨h.endBurst hf, hu, prefetchLimit_pos⟩, rfl, hf⟩
  · next hb => exact ⟨⟨h, hu, lt_of_le_of_ne h.burst_le hb⟩, rfl, hf⟩

/-! ## Once all senders have left -/

theorem AllGone.kept : Kept P S x rx AllGone := fun s s' ℓ hc hℓ ha _ h => by
  obtain ⟨h₁, h₂, -⟩ := ha.alone hc h hℓ
  rw [AllGone, h₁, h₂]
  exact h

theorem reloadIsEmpty_spec {R : Chan V → Prop} (hx : x.asleep = false)
    (hhot : x.hot = some lane.ix) (hl : CopyOf rx lane) (hR : Kept P S x rx R)
    (hstep : ∀ s, R s → R ((ringL lane.ix).set (s.ring lane.ix).prefetch.2 s)) :
    Triple (recvC P S) (fun s => (View S x rx s ∧ LaneOk s lane) ∧ AllGone s ∧ R s)
      lane.reloadIsEmpty
      fun r s => r.2.skel = lane.skel ∧ r.2.fastLeft = 0 ∧ LaneOk s r.2 ∧ View S x rx s ∧
        (AllGone s ∧ R s) ∧ if r.1 then Misses S.aim x.caught lane.ix ∧ Ended lane.ix s
          else 0 < r.2.cachedAvailable := by
  refine Triple.given (φ := lane.unreleased < lane.releaseBatch ∧ lane.burst < prefetchLimit)
    (fun s _ h => ⟨h.1.2.unreleased_lt, h.1.2.burst_lt⟩) fun ⟨hu, hb⟩ => ?_
  refine Triple.closing (fun s _ h => h.1.2.toLaneCounts) ?_
  refine Triple.map ((reload_spec (l := lane.closeFast) (R := fun s => AllGone s ∧ R s)
    (E := fun s => Misses S.aim x.caught lane.ix ∧ Ended lane.ix s) hx hhot (hl.of_skel rfl) rfl
    (AllGone.kept.and hR) ((Kept.pure _).and (Ended.kept hl)) (fun s h => ⟨h.1, hstep s h.2⟩)
    fun s hc hv hhead hn hg => ?_).pre
    fun s hi h => ⟨⟨h.1.1, h.1.2.toLaneCounts.closeFast hi.core⟩, h.2⟩) fun lane₁ s _ h => ?_
  · have hdrop := (hc.lane lane.ix).dropMarked (hc.gone lane.ix (hg.1 _ (hv.held hl).2.1)).1
    have hct := (hc.lane lane.ix).ok.cachedTail_le
    have hlog := (hc.lane lane.ix).ok.dropped hdrop
    have heq : (s.ring lane.ix).head = (s.ring lane.ix).tail := by
      simp only [Ring.prefetch, Lane.closeFast] at hn hhead
      omega
    exact ⟨hv.misses heq, by simpa [ringL, Ring.prefetch, Lane.closeFast] using hdrop,
      by simpa [ringL, Ring.prefetch, Lane.closeFast] using heq.trans hlog⟩
  · obtain ⟨⟨hlane, -⟩, hw, hg, he⟩ := h
    refine ⟨by rw [hlane]; rfl, by rw [hlane]; rfl, ⟨hw.2, ?_, ?_⟩, hw.1, hg, ?_⟩
    · rw [hlane]
      exact lt_of_le_of_lt (Nat.sub_le ..) hu
    · rw [hlane]
      exact lt_of_le_of_lt (Nat.sub_le ..) hb
    · split
      · next h => exact he (by simpa using h)
      · next h => exact Nat.pos_of_ne_zero (by simpa using h)

end Fanring.Mpsc
