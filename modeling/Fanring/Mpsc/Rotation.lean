import Fanring.Mpsc.RecvCore

/-!
# The MPSC channel: the receiver's own fields

Between two accesses the receiver changes its own fields: it takes a lane's counters in its hands
and stores them again, takes the front key out of the rotation and puts it back, lets lanes enter
the rotation or leave it. Each change turns one `View` into another of the same state. All but a few
touch neither the lanes held nor which of them are queued, so the index is not concerned;
`View.requeue` is the general form of those that do.
-/

set_option autoImplicit false

namespace Fanring.Mpsc

open Conc Chan

variable {V : Type} {P : Params} {S : Setting} {s s' : Chan V} {ℓ : Nat} {x : Ctx V}
  {rx rx' : Receiver} {lane : Lane} {key : LaneKey}

/-! ## The lanes held -/

/-- The lane is a copy of one the receiver holds, with counters of its own. -/
def CopyOf (rx : Receiver) (lane : Lane) : Prop :=
  ∃ l₀, rx.lanes lane.key.slot = some l₀ ∧ l₀.skel = lane.skel

theorem CopyOf.skel (h : CopyOf rx lane) : (rx.setLane lane).skel = rx.skel := by
  obtain ⟨l₀, hl, hsk⟩ := h
  simp only [Receiver.skel, Receiver.book, Receiver.setLane, Skel.mk.injEq, Book.mk.injEq, and_true]
  funext slot
  by_cases hs : slot = lane.key.slot
  · subst hs
    simp [hl, hsk]
  · simp [hs]

theorem CopyOf.lane_skel (h : CopyOf rx lane) : rx.book.lane lane.key.slot = some lane.skel := by
  obtain ⟨l₀, hl, hsk⟩ := h
  simp [Receiver.book, hl, hsk]

theorem CopyOf.of_skel {lane' : Lane} (h : CopyOf rx lane) (hsk : lane'.skel = lane.skel) :
    CopyOf rx lane' := by
  obtain ⟨l₀, hl, h₀⟩ := h
  simp only [Lane.skel, Held.mk.injEq] at hsk h₀
  obtain ⟨h₁, h₂, h₃⟩ := hsk
  exact ⟨l₀, by rw [h₂]; exact hl, by simp [Lane.skel, h₀, h₁, h₂, h₃]⟩

/-- What is known of a lane the receiver holds. -/
theorem View.held (h : View S x rx s) (hl : CopyOf rx lane) :
    lane.key = s.key lane.ix ∧ lane.ix < s.count ∧ s.stage lane.ix = .adopted ∧
      s.shut lane.ix = false := by
  obtain ⟨h₁, -, h₃, h₄, h₅⟩ := h.roster.held _ _ hl.lane_skel
  exact ⟨h₁, h₃, h₄, h₅⟩

theorem View.copyOf_lane {slot : Nat} (h : View S x rx s) (hl : rx.lanes slot = some lane) :
    lane.key.slot = slot ∧ CopyOf rx lane := by
  have hsl := (h.roster.held slot lane.skel (Receiver.skel_lane hl)).2.1
  exact ⟨hsl, lane, by rwa [show lane.key.slot = slot from hsl], rfl⟩

/-- Two lanes the receiver holds under one number are one. -/
theorem View.held_unique {slot slot' : Nat} {l l' : Lane} (h : View S x rx s)
    (hl : rx.lanes slot = some l) (hl' : rx.lanes slot' = some l') (hix : l.ix = l'.ix) :
    slot = slot' := by
  obtain ⟨h₁, h₂, -⟩ := h.roster.held slot l.skel (Receiver.skel_lane hl)
  obtain ⟨h₃, h₄, -⟩ := h.roster.held slot' l'.skel (Receiver.skel_lane hl')
  simp only [Lane.skel] at h₁ h₂ h₃ h₄
  rw [← h₂, ← h₄, h₁, h₃, hix]

/-! ## The lane that waits -/

section

variable {w : Wait} {out out' : Option LaneKey} {hot hot' : Option Nat} {taken taken' : Nat}
  {lanes lanes' : Nat → Option Lane} {active active' : List LaneKey} {t : List (Nat × V)}
  {head tail : Nat}

/-- Nothing moved ahead of the lane that waits. -/
theorem Queued.move (h : Queued w out hot taken lanes active t head tail)
    (hheld : ∀ l, lanes w.key.slot = some l → l.key = w.key →
      ∃ l', lanes' w.key.slot = some l' ∧ l'.key = w.key ∧ l'.ix = l.ix)
    (hfresh : hot' = some w.lane → taken' = 0)
    (hplace : ∀ n, Turns.Before (out.toList ++ active) (allowance hot taken lanes)
      (w.Late lanes) w.key n →
      Turns.Before (out'.toList ++ active') (allowance hot' taken' lanes')
      (w.Late lanes') w.key n) :
    Queued w out' hot' taken' lanes' active' t head tail := by
  obtain ⟨l, hl, hk, hix⟩ := h.held
  obtain ⟨l', hl', hk', hix'⟩ := hheld l hl hk
  obtain ⟨n, hn, hbefore⟩ := h.place
  exact { h with
    held := ⟨l', hl', hk', hix'.trans hix⟩
    fresh := hfresh
    place := ⟨n, hn, hplace n hbefore⟩ }

/-- Only counters changed, and no lane of the rotation may give more. -/
theorem Queued.recount (h : Queued w out hot taken rx.lanes active t head tail)
    (hbk : rx'.book = rx.book) (hfresh : hot' = some w.lane → taken' = 0)
    (hle : ∀ key ∈ (out.toList ++ active).dropLast,
      allowance hot' taken' rx'.lanes key ≤ allowance hot taken rx.lanes key) :
    Queued w out hot' taken' rx'.lanes active t head tail := by
  have hlane : ∀ slot, (rx'.lanes slot).map Lane.skel = (rx.lanes slot).map Lane.skel :=
    fun slot => congrFun (congrArg Book.lane hbk) slot
  refine h.move (fun l hl hk => ?_) hfresh fun n hbefore => hbefore.mono hle ?_ le_rfl
  · have := hlane w.key.slot
    rw [hl, Option.map_some, Option.map_eq_some_iff] at this
    obtain ⟨l', hl', hsk⟩ := this
    exact ⟨l', hl', (congrArg Held.key hsk).trans hk, congrArg Held.ix hsk⟩
  · rintro key - ⟨l', hl', hlate⟩
    have := hlane key.slot
    rw [hl', Option.map_some, eq_comm, Option.map_eq_some_iff] at this
    obtain ⟨l, hl, hsk⟩ := this
    obtain hix : l.ix = l'.ix := congrArg Held.ix hsk
    exact ⟨l, hl, hix ▸ hlate⟩

end

/-! ## Changes the index does not see -/

/-- A receiver that differs in its counters and its budget only. -/
theorem View.recount (h : View S x rx s) (hot : Option Nat) (taken unc : Nat) (fresh : Bool)
    (hsk : rx'.skel = rx.skel) (hitems : rx'.itemsUntilReadyPoll < usize)
    (hcounters : ∀ slot lane, rx'.lanes slot = some lane → hot ≠ some lane.ix →
      LaneOk s lane ∧ (0 < lane.fastLeft → x.out.or rx.active.head? = some lane.key ∧
        slot = rx'.fastSlot ∧ lane.fastLeft + unc ≤ rx'.itemsUntilReadyPoll) ∧
        (rx.paused slot = false → lane.queued = false → lane.unreleased = 0))
    (hbudget : S.strict = true →
      Budget { x with hot := hot, taken := taken, unc := unc, fresh := fresh } rx' s)
    (hfresh : hot = x.hot ∧ taken = x.taken ∨ hot = none ∨ taken = 0)
    (hle : S.wait ≠ none → ∀ key ∈ (x.out.toList ++ rx.active).dropLast,
      allowance hot taken rx'.lanes key ≤ allowance x.hot x.taken rx.lanes key) :
    View S { x with hot := hot, taken := taken, unc := unc, fresh := fresh } rx' s := by
  have hbk : rx'.book = rx.book := congrArg Skel.toBook hsk
  have hact : rx'.active = rx.active := congrArg Skel.active hsk
  have hpa : rx'.paused = rx.paused := congrArg Book.paused hbk
  exact { h with
    roster := hsk ▸ h.roster
    index := hbk ▸ h.index
    counters := fun slot lane hl hx => (hcounters slot lane hl hx).1
    fast := fun slot lane hl hx => hact ▸ (hcounters slot lane hl hx).2.1
    idle := fun slot lane hl hx => hpa ▸ (hcounters slot lane hl hx).2.2
    items_lt := hitems
    budget := hbudget
    swept := hbk ▸ h.swept
    quiet := hbk ▸ h.quiet
    aim := hbk ▸ h.aim
    keep := hbk ▸ h.keep
    scan := hbk ▸ h.scan
    wait := fun w hw => hact ▸ (h.wait w hw).imp fun hq => by
      refine hq.recount hbk (fun hhot => ?_) (hle (by simp [hw]))
      rcases hfresh with ⟨h₁, h₂⟩ | h₁ | h₁
      · exact h₂.trans (hq.fresh (h₁ ▸ hhot))
      · exact absurd (h₁.symm.trans hhot) (by simp)
      · exact h₁ }

/-- The code takes a lane's counters into its hands. -/
theorem View.heat (h : View S x rx s) (hx : x.hot = none) (htaken : x.taken = 0) (ix : Nat) :
    View S { x with hot := some ix } rx s :=
  h.recount (some ix) x.taken x.unc x.fresh rfl h.items_lt (fun slot lane hl _ =>
      ⟨h.counters slot lane hl (by simp [hx]), h.fast slot lane hl (by simp [hx]),
        h.idle slot lane hl (by simp [hx])⟩) (fun hst => { h.budget hst with }) (.inr (.inr htaken))
    fun _ key _ => by
      unfold allowance
      split
      · exact le_rfl
      · simp [htaken]

theorem setLane_lanes {slot : Nat} {l : Lane} (h : (rx.setLane lane).lanes slot = some l) :
    slot = lane.key.slot ∧ l = lane ∨ slot ≠ lane.key.slot ∧ rx.lanes slot = some l := by
  simp only [Receiver.setLane] at h
  by_cases hs : slot = lane.key.slot
  · subst hs
    simp only [Function.update_self, Option.some.injEq] at h
    exact .inl ⟨rfl, h.symm⟩
  · rw [Function.update_of_ne hs] at h
    exact .inr ⟨hs, h⟩

/-- The other lanes are not the one in the code's hands. -/
theorem View.ne_hot {slot : Nat} {l : Lane} (h : View S x rx s) (hl : CopyOf rx lane)
    (hs : slot ≠ lane.key.slot) (hl' : rx.lanes slot = some l) : some lane.ix ≠ some l.ix := by
  obtain ⟨l₀, hl₀, hsk⟩ := hl
  intro heq
  refine hs (h.held_unique hl' hl₀ ?_)
  simp only [Lane.skel, Held.mk.injEq] at hsk
  simpa [hsk.1] using heq.symm

/-- The lane is in the rotation or paused, or holds no slots back. -/
def Thrifty (rx : Receiver) (lane : Lane) : Prop :=
  rx.paused lane.key.slot = true ∨ lane.queued = true ∨ lane.unreleased = 0

theorem View.thrifty {slot : Nat} (h : View S x rx s) (hl : rx.lanes slot = some lane)
    (hx : x.hot ≠ some lane.ix) : Thrifty rx lane := by
  have hsl := (h.copyOf_lane hl).1
  subst hsl
  cases hp : rx.paused lane.key.slot with
  | true => exact .inl hp
  | false =>
    cases hq : lane.queued with
    | true => exact .inr (.inl hq)
    | false => exact .inr (.inr (h.idle _ lane hl hx hp hq))

/-- What the lane in hand gave is in its counters, or nobody in the rotation waits for it. -/
def InTurn (S : Setting) (out : Option LaneKey) (taken : Nat) (rx : Receiver) (lane : Lane) :
    Prop :=
  S.wait = none ∨ lane.key ∉ (out.toList ++ rx.active).dropLast ∨
    ∀ l₀, rx.lanes lane.key.slot = some l₀ → l₀.spent + taken ≤ lane.spent

theorem allowance_setLane {hot : Option Nat} {taken : Nat} (h : key.slot ≠ lane.key.slot) :
    allowance hot taken (rx.setLane lane).lanes key = allowance hot taken rx.lanes key := by
  simp only [allowance, Receiver.setLane, Function.update_of_ne h]

/-- Only the lane in hand gives less than its counters say. -/
theorem allowance_cold {hot : Option Nat} {taken taken' : Nat}
    (h : ∀ l, rx.lanes key.slot = some l → hot ≠ some l.ix) :
    allowance none taken' rx.lanes key = allowance hot taken rx.lanes key := by
  unfold allowance
  split
  · rfl
  · next l hl => simp [h l hl]

/-- The lane of a key of the rotation. -/
theorem View.rotation_queued (h : View S x rx s) (hm : key ∈ x.out.toList ++ rx.active) :
    ∃ l, rx.lanes key.slot = some l ∧ l.queued = true := by
  have hm' : key ∈ rx.skel.active ∨ x.out = some key := by
    rcases List.mem_append.mp hm with hm | hm
    · exact .inr (by simpa using hm)
    · exact .inl hm
  obtain ⟨e, he, -, hq⟩ := (h.roster.queued key).mp hm'
  obtain ⟨l, hl, rfl⟩ := Option.map_eq_some_iff.mp he
  exact ⟨l, hl, hq⟩

/-- A key of the rotation is the one of the lane in its slot. -/
theorem View.key_eq {slot : Nat} {l : Lane} (h : View S x rx s)
    (hm : key ∈ x.out.toList ++ rx.active) (hs : key.slot = slot) (hl : rx.lanes slot = some l) :
    key = l.key := by
  have hm' : key ∈ rx.skel.active ∨ x.out = some key := by
    rcases List.mem_append.mp hm with hm | hm
    · exact .inr (by simpa using hm)
    · exact .inl hm
  obtain ⟨e, he, hk, -⟩ := (h.roster.queued key).mp hm'
  rw [hs] at he
  cases (Receiver.skel_lane hl).symm.trans he
  exact hk.symm

/-- The code stores a lane's counters. -/
theorem View.store {taken : Nat} (h : View S { x with hot := some lane.ix, taken := taken } rx s)
    (hx : x.hot = none) (hl : CopyOf rx lane) (hok : LaneOk s lane)
    (hfast : 0 < lane.fastLeft → x.out.or rx.active.head? = some lane.key ∧
      lane.key.slot = rx.fastSlot ∧ lane.fastLeft + x.unc ≤ rx.itemsUntilReadyPoll)
    (hidle : Thrifty rx lane) (hturn : InTurn S x.out taken rx lane) :
    View S x (rx.setLane lane) s := by
  have h' : View S { x with hot := none } (rx.setLane lane) s := by
    refine h.recount none x.taken x.unc x.fresh hl.skel h.items_lt (fun slot l hl' _ => ?_)
      (fun hst => { h.budget hst with }) (.inr (.inl rfl)) fun hw key hm => ?_
    · rcases setLane_lanes hl' with ⟨rfl, rfl⟩ | ⟨hs, hl'⟩
      · refine ⟨hok, hfast, fun hp hq => ?_⟩
        simpa [Thrifty, hp, hq] using hidle
      · have hne := h.ne_hot hl hs hl'
        exact ⟨h.counters slot l hl' hne, h.fast slot l hl' hne, h.idle slot l hl' hne⟩
    · obtain ⟨l₀, hl₀, hsk⟩ := id hl
      by_cases hs : key.slot = lane.key.slot
      · have hkey : key = lane.key := (h.key_eq (List.dropLast_subset _ hm) hs hl₀).trans
          (congrArg Held.key hsk)
        rcases hturn with hnone | hlast | hspent
        · exact absurd hnone hw
        · exact absurd (hkey ▸ hm) hlast
        · have hix : l₀.ix = lane.ix := congrArg Held.ix hsk
          have := hspent l₀ hl₀
          simp only [allowance, Receiver.setLane, hs, Function.update_self, hl₀, hix, if_true,
            reduceCtorEq, if_false]
          omega
      · rw [allowance_setLane hs]
        refine (allowance_cold fun l hl' => ?_).le
        exact h.ne_hot hl hs hl'
  rwa [show ({ x with hot := none } : Ctx V) = x by rw [← hx]] at h'

/-! ## The rotation -/

/-- A change of the rotation alone. -/
theorem View.reorder {out : Option LaneKey} {active : List LaneKey} (h : View S x rx s)
    (hnodup : active.Nodup)
    (hmem : ∀ key, key ∈ active ∨ out = some key ↔ key ∈ rx.active ∨ x.out = some key)
    (hout : ∀ key, out = some key → key ∉ active)
    (hfast : ∀ slot lane, rx.lanes slot = some lane → x.hot ≠ some lane.ix →
      0 < lane.fastLeft → x.out.or rx.active.head? = some lane.key →
      out.or active.head? = some lane.key)
    (hwait : ∀ w, S.wait = some w → Served w (popped s.trace) ∨
      ∀ cost late n, Turns.Before (x.out.toList ++ rx.active) cost late w.key n →
        Turns.Before (out.toList ++ active) cost late w.key n) :
    View S { x with out := out } { rx with active := active } s :=
  { h with
    roster := { h.roster with
      nodup := hnodup
      queued := fun key => (hmem key).trans (h.roster.queued key)
      out := hout }
    fast := fun slot lane hl hx hpos =>
      have := h.fast slot lane hl hx hpos
      ⟨hfast slot lane hl hx hpos this.1, this.2⟩
    budget := fun hst => { h.budget hst with }
    wait := fun w hw => ⟨(h.wait w hw).1, (hwait w hw).elim .inl fun hbefore =>
      (h.wait w hw).2.imp_right fun hq => hq.move (fun l hl hk => ⟨l, hl, hk, rfl⟩) hq.fresh
        (hbefore _ _)⟩ }

/-- The front lane is taken out of the rotation. -/
theorem View.takeFront {rest : List LaneKey} (h : View S x rx s) (hx : x.out = none)
    (hact : rx.active = key :: rest) :
    View S { x with out := some key } { rx with active := rest } s := by
  have hnodup := h.roster.nodup
  simp only [Receiver.skel, hact, List.nodup_cons] at hnodup
  refine h.reorder hnodup.2 (fun key' => ?_) ?_ (fun slot lane _ _ _ hf => ?_) fun w _ =>
    .inr fun cost late n hb => ?_
  · simp only [hact, List.mem_cons, hx, reduceCtorEq, or_false, Option.some.injEq]
    exact ⟨fun h => h.elim .inr fun h => .inl h.symm, fun h => h.elim (fun h => .inr h.symm) .inl⟩
  · intro key' hk
    cases hk
    exact hnodup.1
  · simpa [hx, hact] using hf
  · simpa [hx, hact] using hb

theorem View.slot_of_key {slot : Nat} {l : Lane} (h : View S x rx s)
    (hl : rx.lanes slot = some l) : l.key.slot = slot :=
  (h.roster.held slot l.skel (Receiver.skel_lane hl)).2.1

/-- It is put back at the front. -/
theorem View.putFront (h : View S x rx s) (hx : x.out = some key) :
    View S { x with out := none } { rx with active := key :: rx.active } s := by
  refine h.reorder (List.nodup_cons.mpr ⟨h.roster.out key hx, h.roster.nodup⟩) (fun key' => ?_)
    (by simp) (fun slot lane _ _ _ hf => ?_) fun w _ => .inr fun cost late n hb => ?_
  · simp only [List.mem_cons, hx, reduceCtorEq, or_false, Option.some.injEq]
    exact ⟨fun h => h.elim (fun h => .inr h.symm) .inl, fun h => h.elim .inr fun h => .inl h.symm⟩
  · simpa [hx] using hf
  · simpa [hx] using hb

/-- A lane whose values were taken since it is in the code's hands does not wait any more. -/
theorem View.turned_of_taken (h : View S x rx s) (hhot : x.hot = some ℓ) (ht : 0 < x.taken) :
    Turned S ℓ (popped s.trace) := by
  rintro w hw rfl
  exact (h.wait w hw).2.resolve_right fun hq => ht.ne' (hq.fresh hhot)

/-- It is put back at the end, its fast window closed. -/
theorem View.putBack (h : View S x rx s) (hx : x.out = some key)
    (hclosed : ∀ lane, rx.lanes key.slot = some lane → x.hot = some lane.ix ∨ lane.fastLeft = 0)
    (hturned : ∀ lane, rx.lanes key.slot = some lane → Turned S lane.ix (popped s.trace)) :
    View S { x with out := none } { rx with active := rx.active ++ [key] } s := by
  refine h.reorder ?_ (fun key' => ?_) (by simp) (fun slot lane hl hhot hpos hf => ?_)
    fun w hw => ?_
  · refine List.nodup_append.mpr ⟨h.roster.nodup, by simp, fun a ha b hb heq => ?_⟩
    rw [List.mem_singleton.mp hb] at heq
    exact h.roster.out key hx (heq ▸ ha)
  · simp only [List.mem_append, List.mem_singleton, hx, reduceCtorEq, or_false, Option.some.injEq]
    exact or_congr_right eq_comm
  · simp only [hx, Option.some_or, Option.some.injEq] at hf
    have := h.slot_of_key hl
    rw [← hf] at this
    exact absurd ((hclosed lane (this ▸ hl)).resolve_left hhot) hpos.ne'
  · rcases (h.wait w hw).2 with hs | hq
    · exact .inl hs
    obtain ⟨l, hl, -, hix⟩ := hq.held
    by_cases hkey : key = w.key
    · exact .inl (hturned l (hkey ▸ hl) w hw hix.symm)
    · refine .inr fun cost late n hb => ?_
      rw [hx] at hb
      exact hb.rotate hkey

/-- The front lane, its window closed, goes to the end. -/
theorem View.rotate (h : View S x rx s) (hx : x.out = none)
    (hclosed : ∀ key lane, rx.active.head? = some key → rx.lanes key.slot = some lane →
      (x.hot = some lane.ix ∨ lane.fastLeft = 0) ∧
      Turned S lane.ix (popped s.trace)) : View S { x with out := none } rx.rotate s := by
  cases hact : rx.active with
  | nil =>
    have hrot : rx.rotate = rx := by
      simp only [Receiver.rotate, hact, List.tail_nil, List.take_nil, List.append_nil]
      rw [← hact]
    rw [hrot, show ({ x with out := none } : Ctx V) = x by rw [← hx]]
    exact h
  | cons key rest =>
    have hrot : rx.rotate = { rx with active := rest ++ [key] } := by
      simp [Receiver.rotate, hact]
    rw [hrot]
    have hhead : rx.active.head? = some key := by rw [hact]; rfl
    exact (h.takeFront hx hact).putBack rfl (fun l hl => (hclosed key l hhead hl).1)
      fun l hl => (hclosed key l hhead hl).2

/-! ## Lanes that enter and leave the rotation -/

/-- The book with another entry for a slot. -/
def Book.set (k : Book) (slot : Nat) (e : Option Held) (paused : Nat → Bool) : Book :=
  ⟨Function.update k.lane slot e, paused⟩

theorem Book.set_self {k : Book} {slot : Nat} {e : Option Held} {paused : Nat → Bool} :
    (k.set slot e paused).lane slot = e := Function.update_self ..

theorem Book.set_of_ne {k : Book} {slot slot' : Nat} {e : Option Held} {paused : Nat → Bool}
    (h : slot' ≠ slot) : (k.set slot e paused).lane slot' = k.lane slot' :=
  Function.update_of_ne h ..

theorem Book.set_some {k : Book} {slot slot' : Nat} {e' : Held} {e : Option Held}
    {paused : Nat → Bool} (h : (k.set slot e paused).lane slot' = some e') :
    slot' = slot ∧ e = some e' ∨ slot' ≠ slot ∧ k.lane slot' = some e' := by
  by_cases hs : slot' = slot
  · subst hs
    exact .inl ⟨rfl, by rwa [Book.set_self] at h⟩
  · exact .inr ⟨hs, by rwa [Book.set_of_ne hs] at h⟩

theorem Scanned.rebook {k k' : Book} {t : Nat} {tr : List (Event V)} (h : Scanned k ℓ t tr)
    (hk : ∀ slot e, k.lane slot = some e → e.ix = ℓ → e.queued = true →
      .seenEmpty ℓ ∈ tr.drop t ∨ ∃ slot' e', k'.lane slot' = some e' ∧ e'.ix = ℓ ∧
      e'.queued = true) :
    Scanned k' ℓ t tr where
  le := h.le
  seen := h.seen.elim .inl fun ⟨slot, e, he, hix, hq⟩ => hk slot e he hix hq

/-- A change to one slot leaves the lane in the rotation, or it was seen to be empty. -/
theorem Scanned.set {k : Book} {slot t : Nat} {e : Option Held} {paused : Nat → Bool}
    {tr : List (Event V)} (h : Scanned k ℓ t tr)
    (he : ∀ e', k.lane slot = some e' → e'.ix = ℓ → .seenEmpty ℓ ∈ tr.drop t ∨
      ∃ e₁, e = some e₁ ∧ e₁.ix = ℓ ∧ e₁.queued = true) :
    Scanned (k.set slot e paused) ℓ t tr :=
  h.rebook fun slot' e' he' hix hq => by
    by_cases hs : slot' = slot
    · subst hs
      exact (he e' he' hix).imp_right fun ⟨e₁, h₁, h₂⟩ => ⟨slot', e₁, Book.set_self.trans h₁, h₂⟩
    · exact .inr ⟨slot', e', (Book.set_of_ne hs).trans he', hix, hq⟩

section

variable {k : Skel} {out out' : Option LaneKey} {slot : Nat} {e : Held} {q : Bool}
  {active : List LaneKey} {paused : Nat → Bool}

/-- Numbers of lanes differ from slot to slot. -/
theorem Roster.ix_ne (h : Roster k out s) (he : k.lane slot = some e) {slot' : Nat} {e' : Held}
    (hs : slot' ≠ slot) (he' : k.lane slot' = some e') : e'.ix ≠ e.ix := by
  obtain ⟨h₁, h₂, -⟩ := h.held slot e he
  obtain ⟨h₃, h₄, -⟩ := h.held slot' e' he'
  intro heq
  exact hs (by rw [← h₂, ← h₄, h₁, h₃, heq])

theorem Roster.requeue (h : Roster k out s) (he : k.lane slot = some e)
    (hpaused : ∀ slot', slot' ≠ slot → paused slot' = k.paused slot')
    (hpause : paused slot = true → q = false) (hnodup : active.Nodup)
    (hout : ∀ key, out' = some key → key ∉ active)
    (hown : e.key ∈ active ∨ out' = some e.key ↔ q = true)
    (hmem : ∀ key, key ≠ e.key →
      (key ∈ active ∨ out' = some key ↔ key ∈ k.active ∨ out = some key)) :
    Roster { k with
      toBook := k.toBook.set slot (some { e with queued := q }) paused
      active := active } out' s := by
  obtain ⟨h₁, h₂, h₃, h₄, h₅⟩ := h.held slot e he
  refine
    { h with
      held := fun slot' e' he' => ?_
      slot_lt := fun slot' e' he' => ?_
      adopted := fun ℓ hℓ hst hsh => ?_
      nodup := hnodup
      queued := fun key => ?_
      out := hout
      paused := fun slot' e' he' hp => ?_
      vacant := fun slot' he' => ?_ }
  · rcases Book.set_some he' with ⟨rfl, heq⟩ | ⟨hs, he'⟩
    · cases heq
      exact ⟨h₁, h₂, h₃, h₄, h₅⟩
    · exact h.held slot' e' he'
  · rcases Book.set_some he' with ⟨rfl, -⟩ | ⟨hs, he'⟩
    · exact h.slot_lt _ e he
    · exact h.slot_lt slot' e' he'
  · obtain ⟨e', he', hix⟩ := h.adopted ℓ hℓ hst hsh
    by_cases hs : (s.key ℓ).slot = slot
    · subst hs
      cases he.symm.trans he'
      exact ⟨_, Book.set_self, hix⟩
    · exact ⟨e', (Book.set_of_ne hs).trans he', hix⟩
  · by_cases hk : key = e.key
    · subst hk
      refine hown.trans ⟨fun hq =>
        ⟨{ e with queued := q }, by rw [h₂]; exact Book.set_self, rfl, hq⟩, ?_⟩
      rintro ⟨e', he', -, hq⟩
      rw [h₂, Book.set_self] at he'
      cases he'
      exact hq
    · refine (hmem key hk).trans ((h.queued key).trans ?_)
      have hiff : ∀ e', e'.key = key →
          (k.lane key.slot = some e' ↔
            (k.toBook.set slot (some { e with queued := q }) paused).lane key.slot = some e') := by
        intro e' hek
        by_cases hs : key.slot = slot
        · rw [hs, Book.set_self, he]
          constructor <;> intro heq <;> cases heq <;> exact absurd hek.symm hk
        · rw [Book.set_of_ne hs]
      constructor
      · rintro ⟨e', he', hek, hq⟩
        exact ⟨e', (hiff e' hek).mp he', hek, hq⟩
      · rintro ⟨e', he', hek, hq⟩
        exact ⟨e', (hiff e' hek).mpr he', hek, hq⟩
  · rcases Book.set_some he' with ⟨rfl, heq⟩ | ⟨hs, he'⟩
    · cases heq
      exact hpause hp
    · exact h.paused slot' e' he' (by rw [← hpaused slot' hs]; exact hp)
  · have hs : slot' ≠ slot := by
      rintro rfl
      exact absurd (Book.set_self.symm.trans he') (by simp)
    exact (hpaused slot' hs).trans (h.vacant slot' ((Book.set_of_ne hs).symm.trans he'))

theorem Index.requeue {exempt : Option Nat} {c : Scan} (h : Index k.toBook exempt c s)
    (paused : Nat → Bool) (hr : Roster k out s) (he : k.lane slot = some e)
    (hex : exempt = none ∨ exempt = some e.ix)
    (hpaused : ∀ slot', slot' ≠ slot → paused slot' = k.paused slot')
    (hidx : Indexed s e.ix slot (paused slot = true ∨ q = true ∨ slot ∈ c.cl)
      (paused slot = true ∨ q = true)) :
    Index (k.toBook.set slot (some { e with queued := q }) paused) none c s :=
  { h with
    held := fun slot' e' he' _ => by
      rcases Book.set_some he' with ⟨rfl, heq⟩ | ⟨hs, he'⟩
      · cases heq
        exact hidx
      · have hne := hr.ix_ne he hs he'
        have := h.held slot' e' he' (by
          rcases hex with hex | hex
          · simp [hex]
          · simpa [hex] using hne.symm)
        simpa only [Book.set, hpaused slot' hs] using this }

end

/-- One lane leaves its place in the rotation, for the end of it or for good, and it is not the one
    that waits. -/
theorem View.wait_leave {w : Wait} {l₀ : Lane} {lanes : Nat → Option Lane} {out : Option LaneKey}
    {active more : List LaneKey} {taken : Nat} (h : View S x rx s) (hw : S.wait = some w)
    (hl₀ : rx.lanes key.slot = some l₀) (hkey : l₀.key = key)
    (hhot : x.hot = none ∨ x.hot = some l₀.ix)
    (hother : ∀ slot, slot ≠ key.slot → lanes slot = rx.lanes slot)
    (hlist : out.toList ++ active = (x.out.toList ++ rx.active).filter (· ≠ key) ++ more)
    (hgone : key ∉ x.out.toList ++ rx.active ∨ Turned S l₀.ix (popped s.trace)) :
    InLine w out none taken lanes active (popped s.trace) (s.ring w.lane).head
      (s.ring w.lane).tail := by
  refine ⟨(h.wait w hw).1, (h.wait w hw).2.elim .inl fun hq => ?_⟩
  obtain ⟨l, hl, hk, hix⟩ := hq.held
  obtain ⟨n, -, hbefore⟩ := hq.place
  by_cases heq : w.key = key
  · refine .inl ((hgone.resolve_left fun hnot => hnot (heq ▸ hbefore.mem)) w hw ?_)
    rw [heq, hl₀] at hl
    rw [Option.some.inj hl, hix]
  -- the other lanes of the rotation are as they were
  have hslot : ∀ k ∈ (x.out.toList ++ rx.active).filter (· ≠ key),
      k ∈ x.out.toList ++ rx.active ∧ k.slot ≠ key.slot := fun k hm => by
    obtain ⟨hm, hne⟩ := List.mem_filter.mp hm
    refine ⟨hm, fun hs => of_decide_eq_true hne ?_⟩
    exact (h.key_eq hm hs hl₀).trans hkey
  refine .inr (hq.move (fun l hl hk => ⟨l, ?_, hk, rfl⟩) (fun hn => by cases hn) fun n hb => ?_)
  · rw [hother _ fun hs => heq ((h.key_eq hbefore.mem hs hl₀).trans hkey)]
    exact hl
  · rw [hlist]
    refine ((hb.leave (Ne.symm heq)).mono (fun k hm => ?_)
      (fun k hm hlate => ?_) le_rfl).append more
    · obtain ⟨hm, hs⟩ := hslot k (List.dropLast_subset _ hm)
      have hcold : allowance none taken lanes k = allowance none taken rx.lanes k := by
        simp only [allowance, hother _ hs]
      refine hcold.le.trans (allowance_cold fun l hl => ?_).le
      have hne := h.roster.ix_ne (Receiver.skel_lane hl₀) hs (Receiver.skel_lane hl)
      rcases hhot with hhot | hhot
      · simp [hhot]
      · simpa [hhot] using fun heq => hne heq.symm
    · obtain ⟨l, hl, hl'⟩ := hlate
      exact ⟨l, by rw [← hother _ (hslot k hm).2]; exact hl, hl'⟩

/-- A lane changes its place in the rotation, its fast window closed. -/
theorem View.requeue {l₀ : Lane} (h : View S x rx s) (lane : Lane) (out : Option LaneKey)
    (active : List LaneKey) (paused : Nat → Bool) (hl₀ : rx.lanes lane.key.slot = some l₀)
    (hix : l₀.ix = lane.ix) (hkey : l₀.key = lane.key)
    (hhot : x.hot = none ∨ x.hot = some lane.ix)
    (hex : x.exempt = none ∨ x.exempt = some lane.ix)
    (hpaused : ∀ slot, slot ≠ lane.key.slot → paused slot = rx.paused slot)
    (hpause : paused lane.key.slot = true → lane.queued = false) (hnodup : active.Nodup)
    (hout : ∀ key, out = some key → key ∉ active)
    (hown : lane.key ∈ active ∨ out = some lane.key ↔ lane.queued = true)
    (hmem : ∀ key, key ≠ lane.key →
      (key ∈ active ∨ out = some key ↔ key ∈ rx.active ∨ x.out = some key))
    (hok : LaneOk s lane) (hfast : lane.fastLeft = 0)
    (hidle : paused lane.key.slot = true ∨ lane.queued = true ∨ lane.unreleased = 0)
    (hfront : ∀ key, key ≠ lane.key → x.out.or rx.active.head? = some key →
      out.or active.head? = some key)
    (hidx : Indexed s lane.ix lane.key.slot
      (paused lane.key.slot = true ∨ lane.queued = true ∨ lane.key.slot ∈ x.scan.cl)
      (paused lane.key.slot = true ∨ lane.queued = true))
    (hswept : x.swept = true → Told S.aim s ∨
      Clear (rx.book.set lane.key.slot (some lane.skel) paused) x.scan s)
    (hquiet : x.quiet = true → Told S.aim s ∨
      Quiesced (rx.book.set lane.key.slot (some lane.skel) paused) s)
    (haim : AimOk S.aim (rx.book.set lane.key.slot (some lane.skel) paused) x.scan x.caught s)
    (hkeep : ∀ ℓ n, S.keep = some (ℓ, n) → s.stage ℓ = .adopted → paused (s.key ℓ).slot = true)
    (hscan : lane.queued = true ∨ Passed S lane.ix s.trace)
    (hwait : S.wait = none ∨
      (∃ more, out.toList ++ active = (x.out.toList ++ rx.active).filter (· ≠ lane.key) ++ more) ∧
        (lane.key ∉ x.out.toList ++ rx.active ∨ Turned S lane.ix (popped s.trace))) :
    View S { x with hot := none, taken := 0, exempt := none, out := out }
      { rx.setLane lane with active := active, paused := paused } s := by
  have he := Receiver.skel_lane hl₀
  have hsk : ({ l₀.skel with queued := lane.queued } : Held) = lane.skel := by
    simp [Lane.skel, hix, hkey]
  have hbook : ({ rx.setLane lane with active := active, paused := paused } : Receiver).book =
      rx.book.set lane.key.slot (some lane.skel) paused := by
    simp only [Receiver.book, Receiver.setLane, Book.set, Book.mk.injEq, and_true]
    funext slot
    by_cases hs : slot = lane.key.slot
    · subst hs
      simp
    · simp [hs]
  have hixne : ∀ slot l, slot ≠ lane.key.slot → rx.lanes slot = some l → x.hot ≠ some l.ix := by
    intro slot l hs hl
    have hne := h.roster.ix_ne he hs (Receiver.skel_lane hl)
    simp only [Lane.skel, hix] at hne
    rcases hhot with hhot | hhot
    · simp [hhot]
    · simpa [hhot] using hne.symm
  have hroster := h.roster.requeue (q := lane.queued) he hpaused hpause hnodup hout
    (by simpa only [Lane.skel, hkey] using hown) fun key hk => hmem key (hkey ▸ hk)
  have hindex := h.index.requeue (q := lane.queued) paused h.roster he
    (by simpa only [Lane.skel, hix] using hex) hpaused
    (by simpa only [Lane.skel, hix] using hidx)
  rw [hsk] at hroster hindex
  refine
    { h with
      roster := ?_
      index := hbook ▸ hindex
      counters := fun slot l hl _ => ?_
      fast := fun slot l hl _ hpos => ?_
      idle := fun slot l hl _ hp hq => ?_
      budget := fun hstrict => { h.budget hstrict with }
      swept := hbook ▸ hswept
      quiet := hbook ▸ hquiet
      aim := hbook ▸ haim
      keep := fun ℓ n hk => { h.keep ℓ n hk with paused := hkeep ℓ n hk }
      scan := hbook ▸ fun ℓ t ht => (h.scan ℓ t ht).set (fun e' he' hi => ?_)
      wait := fun w hw => ?_ }
  · rwa [Receiver.skel, hbook]
  · rcases setLane_lanes hl with ⟨-, rfl⟩ | ⟨hs, hl'⟩
    · exact hok
    · exact h.counters slot l hl' (hixne slot l hs hl')
  · rcases setLane_lanes hl with ⟨-, rfl⟩ | ⟨hs, hl'⟩
    · simp [hfast] at hpos
    · have hf := h.fast slot l hl' (hixne slot l hs hl') hpos
      exact ⟨hfront l.key (fun heq => hs (by rw [← h.slot_of_key hl', heq])) hf.1, hf.2⟩
  · have hp : paused slot = false := hp
    rcases setLane_lanes hl with ⟨rfl, rfl⟩ | ⟨hs, hl'⟩
    · simpa [hp, hq] using hidle
    · exact h.idle slot l hl' (hixne slot l hs hl') ((hpaused slot hs).symm.trans hp) hq
  · cases he.symm.trans he'
    obtain rfl : lane.ix = ℓ := hix.symm.trans hi
    exact hscan.elim (fun hq => .inr ⟨lane.skel, rfl, rfl, hq⟩) fun hpass => .inl (hpass t ht)
  · rcases hwait with hnone | ⟨⟨more, hlist⟩, hgone⟩
    · simp [hnone] at hw
    · refine h.wait_leave hw hl₀ hkey (by rwa [hix]) (fun slot hs => ?_) hlist (hix ▸ hgone)
      exact Function.update_of_ne hs ..

/-! ## Coverage under a change of the book -/

theorem Covered.rebook {k k' : Book} {c : Scan} {slot : Nat} (h : Covered k c s slot)
    (hk : Listed k slot → Listed k' slot) : Covered k' c s slot :=
  h.imp_left hk

theorem AimOk.rebook {a : Aim} {k k' : Book} {c : Scan} {b : Bool} (h : AimOk a k c b s)
    (hpaused : k'.paused = k.paused)
    (hlisted : ∀ ℓ q, a = .target ℓ q → b = false → Target k c ℓ q.key s →
      Listed k (s.key ℓ).slot → Listed k' (s.key ℓ).slot) : AimOk a k' c b s :=
  h.step le_rfl rfl id
    (fun ℓ n ha hb ht => { ht with
      unpaused := by rw [hpaused]; exact ht.unpaused
      pending := ht.pending.imp_right (hlisted ℓ n ha hb ht)
      covered := ht.covered.rebook (hlisted ℓ n ha hb ht) })
    fun all hr => by simpa only [AllRead, hpaused] using hr

/-- A slot belongs to one lane that is not retired. -/
theorem Core.slot_unique (h : Core P s) {ℓ₁ ℓ₂ : Nat} (h₁ : ℓ₁ < s.count) (h₂ : ℓ₂ < s.count)
    (hst₁ : s.stage ℓ₁ ≠ .retired) (hst₂ : s.stage ℓ₂ ≠ .retired)
    (hslot : (s.key ℓ₁).slot = (s.key ℓ₂).slot) : ℓ₁ = ℓ₂ := by
  by_contra hne
  exact hst₁ ((h.keys.top ℓ₂ h₂ hst₂).1 ℓ₁ h₁ hslot hne).2

/-- The lane the receiver looks for is not this one. -/
def Misses (a : Aim) (caught : Bool) (ix : Nat) : Prop :=
  ∀ ℓ q, a = .target ℓ q → caught = false → ℓ ≠ ix

/-- A change to another lane's slot does not concern the lane the receiver looks for. -/
theorem AimOk.set {a : Aim} {k : Book} {c : Scan} {b : Bool} {slot : Nat} {e : Option Held}
    (h : AimOk a k c b s) (hc : Core P s) (hℓ : ℓ < s.count) (hst : s.stage ℓ ≠ .retired)
    (hslot : (s.key ℓ).slot = slot) (hmiss : Misses a b ℓ) :
    AimOk a (k.set slot e k.paused) c b s := by
  refine h.rebook rfl fun ℓ' n ha hb ht hlisted => ?_
  obtain ⟨e', he', hq⟩ := hlisted
  refine ⟨e', ?_, hq⟩
  rw [Book.set_of_ne fun hs => ?_]
  · exact he'
  · exact hmiss ℓ' n ha hb (hc.slot_unique ht.lt hℓ ht.stage hst (hs.trans hslot.symm))

/-- A lane that was settled leaves the rotation. -/
theorem View.dequeue {active : List LaneKey} {l₀ : Lane} (h : View S x rx s) (hc : Core P s)
    (hl₀ : rx.lanes lane.key.slot = some l₀) (hix : l₀.ix = lane.ix) (hkey : l₀.key = lane.key)
    (hhot : x.hot = some lane.ix) (hex : x.exempt = some lane.ix)
    (hswept : x.swept = false) (hquiet : x.quiet = false)
    (hq : lane.queued = false) (hok : LaneOk s lane) (hfast : lane.fastLeft = 0)
    (hidle : lane.unreleased = 0) (hidx : Indexed s lane.ix lane.key.slot False False)
    (hmiss : Misses S.aim x.caught lane.ix)
    (hactive : active = (rx.active.filter (· ≠ lane.key)))
    (hout : ∀ key, x.out = some key → key = lane.key) (hscan : Passed S lane.ix s.trace)
    (hturned : Turned S lane.ix (popped s.trace)) :
    View S { x with hot := none, taken := 0, exempt := none, out := none }
      { rx.setLane lane with active := active } s := by
  obtain ⟨hk, -, hlt, hst, -⟩ := h.roster.held _ _ (Receiver.skel_lane hl₀)
  simp only [Lane.skel, hix, hkey] at hk hlt hst
  have himp : ∀ {p : Prop}, False → p := False.elim
  subst hactive
  refine h.requeue lane none _ rx.paused hl₀ hix hkey (.inr hhot) (.inr hex)
    (fun _ _ => rfl) (fun _ => hq) (h.roster.nodup.filter _) (by simp) (by simp [hq])
    (fun key hne => ?_) hok hfast (.inr (.inr hidle)) (fun key hne hf => ?_)
    (hidx.imp himp himp) (by simp [hswept]) (by simp [hquiet])
    (h.aim.set hc hlt (by simp [hst]) (by rw [← hk]) hmiss) (fun ℓ n hk => (h.keep ℓ n hk).paused)
    (.inr hscan) (.inr ⟨⟨[], ?_⟩, .inr hturned⟩)
  · simp only [List.mem_filter, decide_eq_true_eq, hne, ne_eq, not_false_eq_true, and_true,
      reduceCtorEq, or_false]
    exact ⟨.inl, fun h => h.elim id fun h => absurd (hout key h) hne⟩
  · cases hx : x.out with
    | some key' =>
      rw [hx] at hf
      exact absurd ((Option.some.inj hf).symm.trans (hout key' hx)) hne
    | none =>
      rw [hx] at hf
      cases hact : rx.active with
      | nil => simp [hact] at hf
      | cons key' rest =>
        obtain rfl : key' = key := by simpa [hact] using hf
        simp [hne]
  · cases hx : x.out with
    | none => simp
    | some key => simp [hout key hx]

theorem Clear.enqueue {k : Book} {c : Scan} {slot : Nat} {e : Held} (h : Clear k c s)
    (he : k.lane slot = some e) :
    Clear (k.set slot (some { e with queued := true }) k.paused) c s := by
  refine ⟨h.1, fun slot' e' he' hp => ?_⟩
  rcases Book.set_some he' with ⟨rfl, heq⟩ | ⟨hs, he'⟩
  · exact .inr (.inl ⟨_, Book.set_self, rfl⟩)
  · exact (h.2 slot' e' he' hp).imp_right fun hcov =>
      hcov.rebook fun ⟨e'', he'', hq⟩ => ⟨e'', by rw [Book.set_of_ne hs]; exact he'', hq⟩

/-- What is known of a lane the receiver holds, from the index. -/
theorem View.indexed {slot : Nat} (h : View S x rx s) (hl : rx.lanes slot = some lane)
    (hex : x.exempt = none) :
    Indexed s lane.ix slot (rx.paused slot = true ∨ lane.queued = true ∨ slot ∈ x.scan.cl)
      (rx.paused slot = true ∨ lane.queued = true) :=
  h.index.held slot lane.skel (Receiver.skel_lane hl) (by simp [hex])

theorem LaneOk.of_queued (h : LaneOk s lane) (q : Bool) : LaneOk s { lane with queued := q } :=
  ⟨⟨h.isOpen, h.window, h.credit, h.batch, h.unreleased_le, h.burst_le, h.fast_le⟩,
    h.unreleased_lt, h.burst_lt⟩

/-- A lane that is not in the rotation has no fast window. -/
theorem View.no_fast {slot : Nat} (h : View S x rx s) (hl : rx.lanes slot = some lane)
    (hq : lane.queued = false) (hhot : x.hot ≠ some lane.ix) : lane.fastLeft = 0 := by
  by_contra hne
  have hf := (h.fast slot lane hl hhot (Nat.pos_of_ne_zero hne)).1
  have hin : lane.key ∈ rx.skel.active ∨ x.out = some lane.key := by
    rcases ho : x.out with _ | k
    · rw [ho, Option.none_or] at hf
      exact .inl (List.mem_of_mem_head? hf)
    · rw [ho, Option.some_or] at hf
      exact .inr hf
  obtain ⟨e, he, -, hq'⟩ := (h.roster.queued lane.key).mp hin
  have hsl := h.slot_of_key hl
  cases (Receiver.skel_lane (hsl.symm ▸ hl)).symm.trans he
  simp [Lane.skel, hq] at hq'

/-- A lane joins the rotation at its end. -/
theorem View.enqueue {l₀ : Lane} (h : View S x rx s) (hl₀ : rx.lanes lane.key.slot = some l₀)
    (hix : l₀.ix = lane.ix) (hkey : l₀.key = lane.key) (hq₀ : l₀.queued = false)
    (hhot : x.hot = none ∨ x.hot = some lane.ix)
    (hex : x.exempt = none ∨ x.exempt = some lane.ix ∧ s.ready.pending lane.ix = true)
    (hout : x.out = none) (hquiet : x.quiet = false) (hunpaused : rx.paused lane.key.slot = false)
    (hok : LaneOk s lane) (hfast : lane.fastLeft = 0) :
    View S { x with hot := none, taken := 0, exempt := none, out := none } (rx.enqueue lane) s := by
  have he := Receiver.skel_lane hl₀
  have hnot : lane.key ∉ rx.active := fun hm => by
    obtain ⟨e, he', -, hq⟩ := (h.roster.queued lane.key).mp (.inl hm)
    cases he.symm.trans he'
    simp [Lane.skel, hq₀] at hq
  have hsk : ({ l₀.skel with queued := true } : Held) =
      ({ lane with queued := true } : Lane).skel := by
    simp [Lane.skel, hix, hkey]
  refine h.requeue { lane with queued := true } none (rx.active ++ [lane.key]) rx.paused hl₀ hix
    hkey hhot (hex.imp_right And.left) (fun _ _ => rfl) (by simp [hunpaused]) ?_ (by simp) (by simp)
    (fun key hne => ?_)
    (hok.of_queued true) hfast (.inr (.inl rfl))
    (fun key hne hf => ?_) ?_ (fun hx => ?_) (by simp [hquiet]) ?_
    (fun ℓ n hk => (h.keep ℓ n hk).paused) (.inl rfl) (.inr ⟨⟨[lane.key], ?_⟩, .inl ?_⟩)
  · refine List.nodup_append.mpr ⟨h.roster.nodup, by simp, fun a ha b hb heq => ?_⟩
    rw [List.mem_singleton.mp hb] at heq
    exact hnot (heq ▸ ha)
  · simp [hne, hout]
  · rw [hout] at hf
    cases hact : rx.active with
    | nil => simp [hact] at hf
    | cons key' rest => simpa [hact] using hf
  · -- in the rotation, only a lane that is not pending owes an explanation
    rcases hex with hex | ⟨-, hp⟩
    · have := h.indexed hl₀ hex
      rw [hix] at this
      exact ⟨fun _ => .inl (.inr (.inl rfl)), this.idle, fun _ => .inl (.inr rfl),
        .inl (.inr rfl)⟩
    · exact ⟨fun _ => .inl (.inr (.inl rfl)), fun hp' => by simp [hp] at hp',
        fun _ => .inl (.inr rfl), .inl (.inr rfl)⟩
  · rw [← hsk]
    exact (h.swept hx).imp_right fun hcl => hcl.enqueue he
  · refine h.aim.rebook rfl fun ℓ' n _ _ ht hlisted => ?_
    obtain ⟨e', he', hq⟩ := hlisted
    by_cases hs : (s.key ℓ').slot = lane.key.slot
    · rw [hs]
      exact ⟨_, Book.set_self, rfl⟩
    · exact ⟨e', (Book.set_of_ne hs).trans he', hq⟩
  · have hself : rx.active.filter (· ≠ lane.key) = rx.active :=
      List.filter_eq_self.mpr fun k hm => decide_eq_true fun heq => hnot (heq ▸ hm)
    simp only [hout, Option.toList_none, List.nil_append, hself]
  · simpa [hout] using hnot

end Fanring.Mpsc
