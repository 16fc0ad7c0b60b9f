import Fanring.Mpsc.Rotation

/-!
# The MPSC channel: the receiver's steps

What the receiver knows after a step of its own: it took values, published or prefetched cursors,
told a sender, took bits out of the index. Every lemma turns the `View` before the step into the one
after it. Steps that adopt lanes or give them up follow in the next module.
-/

set_option autoImplicit false

namespace Fanring.Mpsc

open Conc Chan

variable {V : Type} {P : Params} {S : Setting} {s s' : Chan V} {ℓ : Nat} {x : Ctx V}
  {rx rx' : Receiver} {lane : Lane} {key : LaneKey}

/-! ## Debts -/

theorem OwedOk.set {o d : Owed} {c : WaitCell} (h : OwedOk (some (ℓ, o)) s) :
    OwedOk (some (ℓ, d)) (setOwed ℓ d ((spaceL ℓ).set c s)) := by
  obtain ⟨hℓ, -, hrest⟩ := h
  exact ⟨hℓ, Function.update_self .., fun ℓ' hlt hne hd =>
    (Function.update_of_ne hne ..).trans (hrest ℓ' hlt hne hd)⟩

/-- A step on the ring of one lane, of which its sender is to be told. -/
theorem OwedOk.due {d : Owed} {r : Ring V} {o : Option (Nat × Owed)} (h : OwedOk o s)
    (ho : o = none ∨ ∃ d', o = some (ℓ, d')) (hℓ : ℓ < s.count) :
    OwedOk (some (ℓ, d)) (setOwed ℓ d ((ringL ℓ).set r s)) := by
  refine ⟨hℓ, Function.update_self .., fun ℓ' hlt hne hd => ?_⟩
  have hd' : (s.ring ℓ').producerDropped = false := by
    simpa only [setOwed, ringL, Function.update_of_ne hne] using hd
  refine (Function.update_of_ne hne ..).trans ?_
  rcases ho with rfl | ⟨d', rfl⟩
  · exact h ℓ' hlt hd'
  · exact h.2.2 ℓ' hlt hne hd'

/-- A step on a ring that leaves its sender where it is. -/
theorem OwedOk.setRing {r : Ring V} {o : Option (Nat × Owed)} (h : OwedOk o s)
    (hr : r.producerDropped = (s.ring ℓ).producerDropped) : OwedOk o ((ringL ℓ).set r s) := by
  have hd : ∀ ℓ', (((ringL ℓ).set r s).ring ℓ').producerDropped = (s.ring ℓ').producerDropped :=
    forall_update (p := fun ℓ' (r : Ring V) => r.producerDropped = (s.ring ℓ').producerDropped) hr
      fun _ _ => rfl
  match o with
  | none => exact fun ℓ' hlt hd' => h ℓ' hlt ((hd ℓ').symm.trans hd')
  | some (ℓ₀, d) => exact ⟨h.1, h.2.1, fun ℓ' hlt hne hd' =>
      h.2.2 ℓ' hlt hne ((hd ℓ').symm.trans hd')⟩

theorem OwedOk.settle (h : OwedOk (some (ℓ, .settled)) s) : OwedOk none s := by
  obtain ⟨hℓ, hd, hrest⟩ := h
  intro ℓ' hlt hd'
  by_cases hne : ℓ' = ℓ
  · exact hne ▸ hd
  · exact hrest ℓ' hlt hne hd'

/-! ## Taking values -/

theorem ordinarySince_append_pops (t : List (Event V)) (ℓ : Nat) (vs : List V) (targeted : Bool) :
    ordinarySince (t ++ vs.map (.pop ℓ · targeted)) =
      ordinarySince t + if targeted then 0 else vs.length := by
  induction vs using List.reverseRecOn with
  | nil => simp
  | append_singleton vs v ih =>
    rw [List.map_append, ← List.append_assoc]
    simp only [ordinarySince, List.foldl_append, List.map_cons, List.map_nil, List.foldl_cons,
      List.foldl_nil] at ih ⊢
    cases targeted
    · simp only [Bool.false_eq_true, if_false, List.length_append, List.length_singleton] at ih ⊢
      omega
    · simpa using ih

/-- The trace goes on with one more event. -/
theorem TraceOk.append {t : List (Event V)} (h : TraceOk t) (e : Event V)
    (hcharge : ∀ b n, e = .charge b n → n ≤ b ∧ b ≤ readyPollInterval)
    (hsince : ordinarySince (t ++ [e]) ≤ readyPollInterval) : TraceOk (t ++ [e]) where
  charge b n hm := by
    rcases List.mem_append.mp hm with hm | hm
    · exact h.charge b n hm
    · exact hcharge b n (List.mem_singleton.mp hm).symm
  since t₁ t₂ heq := by
    rcases List.eq_nil_or_concat t₂ with rfl | ⟨t₃, e', rfl⟩
    · rw [List.append_nil] at heq
      exact heq ▸ hsince
    · rw [List.concat_eq_append, ← List.append_assoc] at heq
      exact h.since t₁ t₃ (List.append_inj' heq rfl).1

theorem TraceOk.pops {t : List (Event V)} (h : TraceOk t) (ℓ : Nat) (vs : List V) (targeted : Bool)
    (hsince : targeted = false → ordinarySince t + vs.length ≤ readyPollInterval) :
    TraceOk (t ++ vs.map (.pop ℓ · targeted)) := by
  induction vs using List.reverseRecOn with
  | nil => simpa using h
  | append_singleton vs v ih =>
    rw [List.length_append] at hsince
    have h' := ih fun hf => by have := hsince hf; omega
    rw [List.map_append, ← List.append_assoc]
    refine h'.append (.pop ℓ v targeted) (by simp) ?_
    have hs := ordinarySince_append_pops (t ++ vs.map (.pop ℓ · targeted)) ℓ [v] targeted
    rw [List.map_cons, List.map_nil, ordinarySince_append_pops] at hs
    rw [hs]
    cases targeted
    · have := hsince rfl
      simpa [Nat.add_assoc] using this
    · have := h.since t [] (by simp)
      simpa using this

/-- The context after `vs` were popped. -/
def Ctx.pulled (x : Ctx V) (ℓ : Nat) (vs : List V) (targeted : Bool) : Ctx V :=
  { x with
    hand := x.hand ++ vs.map (ℓ, ·)
    unc := x.unc + if targeted then 0 else vs.length
    taken := x.taken + vs.length
    fresh := false
    caught := x.caught || !vs.isEmpty }

/-- Cursors that move on do not make a lane less well indexed. -/
theorem Index.heads {k : Book} {exempt : Option Nat} {c : Scan} {ring : Nat → Ring V}
    (h : Index k exempt c s) (t : List (Event V)) (owed : Nat → Owed)
    (hhead : ∀ slot e, k.lane slot = some e → (s.ring e.ix).head ≤ (ring e.ix).head)
    (hfresh : ∀ ℓ < s.count, s.stage ℓ = .pending → (s.ring ℓ).head ≤ (ring ℓ).head) :
    Index k exempt c { s with ring := ring, trace := t, owed := owed } :=
  { h with
    held := fun slot e he hx =>
      (h.held slot e he hx).mono rfl id Iff.rfl rfl rfl rfl rfl (hhead slot e he)
    fresh := fun ℓ hℓ hst =>
      (h.fresh ℓ hℓ hst).mono rfl id Iff.rfl rfl rfl rfl rfl (hfresh ℓ hℓ hst) }

theorem AllRead.heads {all : Bool} {k : Book} {ring : Nat → Ring V} (h : AllRead all k s)
    (t : List (Event V)) (owed : Nat → Owed) (hlog : ∀ ℓ, (ring ℓ).log = (s.ring ℓ).log)
    (hhead : ∀ ℓ, (s.ring ℓ).head ≤ (ring ℓ).head) (hok : ∀ ℓ, (ring ℓ).Ok) :
    AllRead all k { s with ring := ring, trace := t, owed := owed } := by
  intro ℓ hℓ hst hsh hp
  have hle := le_trans (hok ℓ).head_le (le_trans (hok ℓ).cachedTail_le (hok ℓ).tail_le)
  have := h ℓ hℓ hst hsh hp
  have h' := hhead ℓ
  simp only [hlog] at hle ⊢
  omega

theorem AimOk.pull {a : Aim} {k : Book} {c : Scan} {b : Bool} {r : Ring V} {vs : List V}
    (h : AimOk a k c b s) (hr : Pull (s.ring ℓ) r vs) (hok : ∀ ℓ, (s.ring ℓ).Ok)
    (hread : ∀ all, a = .alone (some all) → AllRead all k s → vs = [])
    {t : List (Event V)} (ht : popped t = popped s.trace ++ vs.map (ℓ, ·)) :
    AimOk a k c (b || !vs.isEmpty) { (ringL ℓ).set r s with trace := t } := by
  match a with
  | .free .none => trivial
  | .free (.sync n) => exact h
  | .free .async => trivial
  | .target ℓ' q =>
    simp only [AimOk, ht, List.length_append, List.length_map] at h ⊢
    cases vs with
    | cons v vs =>
      simp only [List.isEmpty_cons, Bool.not_false, Bool.or_true, if_true, List.length_cons]
      split at h
      · omega
      · have := h.1
        omega
    | nil =>
      simp only [List.isEmpty_nil, Bool.not_true, Bool.or_false, List.length_nil, Nat.add_zero]
      split at h
      · next hca => simpa [hca] using h
      · next hca =>
        simp only [hca, Bool.false_eq_true, if_false]
        refine ⟨h.1, { h.2 with unread := ?_ }⟩
        have := h.2.unread
        by_cases hne : ℓ' = ℓ
        · subst hne
          simpa [ringL, hr.length, hr.tail] using this
        · simpa [ringL, hne] using this
  | .alone dry =>
    refine ⟨h.1, fun all hall => ⟨?_, (h.2 all hall).2.heads t s.owed ?_ ?_ ?_⟩⟩
    · simp [(h.2 all hall).1, hread all (by rw [hall]) (h.2 all hall).2]
    · exact forall_update (p := fun ℓ' (r : Ring V) => r.log = (s.ring ℓ').log) hr.log
        fun _ _ => rfl
    · exact forall_update (p := fun ℓ' (r : Ring V) => (s.ring ℓ').head ≤ r.head) hr.head
        fun _ _ => le_rfl
    · exact forall_update (p := fun _ (r : Ring V) => r.Ok) (hr.ok (hok ℓ)) fun ℓ' _ => hok ℓ'

/-- Values may be taken from the lane: it is not paused, or nobody asks. -/
def Free (S : Setting) (rx : Receiver) (lane : Lane) : Prop :=
  rx.paused lane.key.slot = false ∨ S.keep = none ∧ ∀ dry, S.aim ≠ .alone dry

/-- The turn of the lane in hand allows `n` values more, or nobody in the rotation waits for it. -/
def Allowed (S : Setting) (out : Option LaneKey) (taken : Nat) (rx : Receiver) (lane : Lane)
    (n : Nat) : Prop :=
  S.wait = none ∨ lane.key ∉ (out.toList ++ rx.active).dropLast ∨
    ∀ l₀, rx.lanes lane.key.slot = some l₀ → l₀.spent + taken + n ≤ prefetchLimit

theorem Served.append {w : Wait} {t : List (Nat × V)} (h : Served w t) (u : List (Nat × V)) :
    Served w (t ++ u) := by
  obtain ⟨first, v, later, heq, hrest⟩ := h
  have hstart : w.start ≤ t.length := by
    have := congrArg List.length heq
    simp only [List.length_drop, List.length_append, List.length_cons] at this
    omega
  refine ⟨first, v, later ++ u, ?_, hrest⟩
  rw [List.drop_append_of_le_length hstart, heq, List.append_assoc, List.cons_append]

theorem Turned.append {t : List (Nat × V)} (h : Turned S ℓ t) (u : List (Nat × V)) :
    Turned S ℓ (t ++ u) := fun w hw hlane => (h w hw hlane).append u

/-- What stands at the front of the rotation. -/
theorem rotation_front {out : Option LaneKey} {active : List LaneKey}
    (h : out.or active.head? = some key) : ∃ rest, out.toList ++ active = key :: rest := by
  cases out with
  | some k => exact ⟨active, by rw [Option.some.inj h]; rfl⟩
  | none =>
    obtain ⟨rest, rfl⟩ := List.head?_eq_some_iff.mp h
    exact ⟨rest, rfl⟩

/-- Values of the lane at the front were popped: the lane that waits was served, or they count as
    received before it. -/
theorem Queued.pull {w : Wait} {r : Ring V} {vs : List V}
    (hq : Queued w x.out x.hot x.taken rx.lanes rx.active (popped s.trace) (s.ring w.lane).head
      (s.ring w.lane).tail) (hstart : w.start ≤ (popped s.trace).length) (hl : CopyOf rx lane)
    (hhot : x.hot = some lane.ix) (hr : Pull (s.ring lane.ix) r vs)
    (hfront : x.out.or rx.active.head? = some lane.key) (hw : S.wait = some w)
    (hallowed : Allowed S x.out x.taken rx lane vs.length) :
    Served w (popped s.trace ++ vs.map (lane.ix, ·)) ∨
      Queued w x.out x.hot (x.taken + vs.length) rx.lanes rx.active
        (popped s.trace ++ vs.map (lane.ix, ·)) (((ringL lane.ix).set r s).ring w.lane).head
        (((ringL lane.ix).set r s).ring w.lane).tail := by
  obtain ⟨n, hn, hbefore⟩ := hq.place
  obtain ⟨l₀, hl₀, hsk⟩ := hl
  have hix : l₀.ix = lane.ix := congrArg Held.ix hsk
  by_cases hlane : lane.ix = w.lane
  · cases vs with
    | nil =>
      right
      rw [List.map_nil, List.append_nil]
      refine { hq with unread := ?_ }
      have := hq.unread
      simpa [ringL, ← hlane, hr.length, hr.tail] using this
    | cons v vs =>
      refine .inl ⟨(popped s.trace).drop w.start, v, vs.map (lane.ix, ·), ?_, by omega, hq.others⟩
      rw [List.drop_append_of_le_length hstart, List.map_cons, hlane]
  · obtain ⟨rest, hrest⟩ := rotation_front hfront
    have hne : lane.key ≠ w.key := fun hk => by
      obtain ⟨l, hlw, -, hixw⟩ := hq.held
      rw [← hk, hl₀] at hlw
      cases hlw
      exact hlane (hix.symm.trans hixw)
    -- somebody waits for the lane at the front, so it has to keep to its turn
    have hroom : l₀.spent + x.taken + vs.length ≤ prefetchLimit := by
      rcases hallowed with hnone | hlast | hroom
      · simp [hnone] at hw
      · refine absurd ?_ hlast
        rw [hrest] at hbefore ⊢
        have hmem := (List.mem_cons.mp hbefore.mem).resolve_left hne.symm
        rw [List.dropLast_cons_of_ne_nil (List.ne_nil_of_mem hmem)]
        exact List.mem_cons_self
      · exact hroom l₀ hl₀
    rw [hrest] at hbefore
    have hserve : allowance x.hot (x.taken + vs.length) rx.lanes lane.key + vs.length ≤
        allowance x.hot x.taken rx.lanes lane.key := by
      simp only [allowance, hl₀, hhot, hix, if_true]
      omega
    have hrest' : ∀ key ∈ rest, allowance x.hot (x.taken + vs.length) rx.lanes key ≤
        allowance x.hot x.taken rx.lanes key := fun key _ => by
      unfold allowance
      split
      · exact le_rfl
      · split <;> omega
    obtain ⟨hle, hlate, hbefore⟩ := hbefore.serve hne hserve hrest'
    exact .inr
      { held := hq.held
        unread := by
          have := hq.unread
          simpa [ringL, Function.update_of_ne (Ne.symm hlane)] using this
        others := fun a ha => by
          rw [List.drop_append_of_le_length hstart] at ha
          rcases List.mem_append.mp ha with ha | ha
          · exact hq.others a ha
          · obtain ⟨v, -, rfl⟩ := List.mem_map.mp ha
            exact ⟨hlane, fun hl => hlate ⟨l₀, hl₀, by rw [hix]; exact hl⟩⟩
        fresh := fun hw' => absurd (Option.some.inj (hhot.symm.trans hw')) hlane
        place := by
          refine ⟨n - vs.length, ?_, by rw [hrest]; exact hbefore⟩
          rw [List.drop_append_of_le_length hstart, List.length_append, List.length_map]
          omega }

theorem View.pull {r : Ring V} {vs : List V} {targeted : Bool} (h : View S x rx s)
    (hc : Core P s) (hl : CopyOf rx lane) (hhot : x.hot = some lane.ix) (hquiet : x.quiet = false)
    (hr : Pull (s.ring lane.ix) r vs) (hfree : Free S rx lane)
    (hfront : targeted = false → x.out.or rx.active.head? = some lane.key)
    (hbudget : S.strict = true → targeted = false →
      x.unc + vs.length ≤ rx.itemsUntilReadyPoll)
    (hmode : targeted = true → S.wait = none)
    (hallowed : Allowed S x.out x.taken rx lane vs.length) :
    View S (x.pulled lane.ix vs targeted) rx
      { (ringL lane.ix).set r s with trace := s.trace ++ vs.map (.pop lane.ix · targeted) } := by
  have hpop : popped (s.trace ++ vs.map (.pop lane.ix · targeted)) =
      popped s.trace ++ vs.map (lane.ix, ·) := by rw [popped_append, popped_pops]
  have hhead : ∀ ℓ, (s.ring ℓ).head ≤ (((ringL lane.ix).set r s).ring ℓ).head :=
    forall_update (p := fun ℓ' (r : Ring V) => (s.ring ℓ').head ≤ r.head) hr.head fun _ _ => le_rfl
  obtain ⟨hk, hlt, hst, hsh⟩ := h.held hl
  exact
    { h with
      roster := { h.roster with }
      index := h.index.heads _ s.owed (fun _ e _ => hhead e.ix) fun ℓ _ _ => hhead ℓ
      counters := fun slot l hl' hx => by
        have hne : l.ix ≠ lane.ix := fun heq => hx (hhot.trans (by rw [heq]))
        refine (h.counters slot l hl' hx).frame ?_
        simp only [ringL, Function.update_of_ne hne]
        exact .refl _
      owed := h.owed.setRing hr.producerDropped
      hand := by
        simp only [Ctx.pulled]
        rw [hpop, h.hand, List.append_assoc]
        rfl
      budget := fun hst => by
        have hb := h.budget hst
        have hs := ordinarySince_append_pops s.trace lane.ix vs targeted
        refine
          { items_le := hb.items_le
            since := ?_
            unc_le := ?_
            fresh := by simp [Ctx.pulled] }
        · have := hb.since
          simp only [Ctx.pulled, hs]
          omega
        · cases targeted with
          | false => simpa [Ctx.pulled] using hbudget hst rfl
          | true => simpa [Ctx.pulled] using hb.unc_le
      fast := fun slot l hl' hx hpos => by
        have hf := h.fast slot l hl' hx hpos
        cases targeted with
        | true => simpa [Ctx.pulled] using hf
        | false =>
          -- the front lane is the one in hand
          have hkey : l.key = lane.key := Option.some.inj (hf.1.symm.trans (hfront rfl))
          obtain ⟨l₀, hl₀, hsk⟩ := hl
          have hslot := h.slot_of_key hl'
          rw [hkey] at hslot
          subst hslot
          cases hl₀.symm.trans hl'
          simp only [Lane.skel, Held.mk.injEq] at hsk
          exact absurd hhot (by simpa [Ctx.pulled, hsk.1] using hx)
      quiet := fun hx => by simp [Ctx.pulled, hquiet] at hx
      aim := h.aim.pull hr (fun ℓ => (hc.lane ℓ).ok) (fun all hall hread => by
        rcases hfree with hp | ⟨-, hno⟩
        · have := hread lane.ix hlt (by simp [hst]) hsh (.inr (.inr (hk ▸ hp)))
          have hle := (hr.ok (hc.lane lane.ix).ok).head_le_length
          rw [hr.length, hr.log] at hle
          exact List.length_eq_zero_iff.mp (by omega)
        · exact absurd hall (hno _)) hpop
      keep := fun ℓ n hkeep => by
        have hs := h.keep ℓ n hkeep
        have hne : lane.ix ≠ ℓ := by
          rintro rfl
          rcases hfree with hp | ⟨hno, -⟩
          · have := hs.paused hst
            rw [← hk] at this
            exact absurd (this.symm.trans hp) (by simp)
          · simp [hno] at hkeep
        exact { hs with
          popped := by
            rw [hpop, ofLane_append, ofLane_other hne, List.append_nil]
            exact hs.popped }
      scan := fun ℓ t ht => (h.scan ℓ t ht).grow (List.prefix_append ..)
      refused := fun hx ℓ t ht => (h.refused hx ℓ t ht).grow (List.prefix_append ..)
      single := fun t ht => (h.single t ht).grow fun e he => by
        obtain ⟨v, -, rfl⟩ := List.mem_map.mp he
        trivial
      wait := fun w hw => by
        obtain ⟨hstart, hs⟩ := h.wait w hw
        cases targeted with
        | true => simp [hmode rfl] at hw
        | false =>
          simp only [hpop]
          refine ⟨le_trans hstart (by simp), hs.elim (fun hs => .inl (hs.append _)) ?_⟩
          exact fun hq => hq.pull hstart hl hhot hr (hfront rfl) hw hallowed }

/-! ## Other steps on a ring -/

/-- A step on the ring of the lane in hand that takes nothing, or on one the receiver has given
    up. -/
theorem View.setRing {r : Ring V} (h : View S x rx s)
    (hr : s.stage ℓ ≠ .retired → s.shut ℓ = false →
      x.hot = some ℓ ∧ (s.ring ℓ).ConsumeStep r ∧ r.head = (s.ring ℓ).head)
    (o : Option (Nat × Owed)) (owed : Nat → Owed)
    (howed : OwedOk o { (ringL ℓ).set r s with owed := owed }) :
    View S { x with owed := o } rx { (ringL ℓ).set r s with owed := owed } := by
  -- the rings somebody still reads from
  have hlive : ∀ ℓ', s.stage ℓ' ≠ .retired → s.shut ℓ' = false →
      (((ringL ℓ).set r s).ring ℓ').head = (s.ring ℓ').head ∧
      (((ringL ℓ).set r s).ring ℓ').log = (s.ring ℓ').log ∧
      (((ringL ℓ).set r s).ring ℓ').tail = (s.ring ℓ').tail :=
    forall_update (p := fun ℓ' (r : Ring V) => s.stage ℓ' ≠ .retired → s.shut ℓ' = false →
        r.head = (s.ring ℓ').head ∧ r.log = (s.ring ℓ').log ∧ r.tail = (s.ring ℓ').tail)
      (fun hst hsh => ⟨(hr hst hsh).2.2, (hr hst hsh).2.1.log, (hr hst hsh).2.1.tail⟩)
      fun _ _ _ _ => ⟨rfl, rfl, rfl⟩
  have hheld : ∀ slot e, rx.book.lane slot = some e → s.stage e.ix ≠ .retired ∧
      s.shut e.ix = false := fun slot e he => by
    obtain ⟨-, -, -, hst, hsh⟩ := h.roster.held slot e he
    exact ⟨by simp [hst], hsh⟩
  refine
    { h with
      roster := { h.roster with }
      index := h.index.heads s.trace owed
        (fun slot e he => (hlive e.ix (hheld slot e he).1 (hheld slot e he).2).1.ge)
        fun ℓ' hℓ' hst => (hlive ℓ' (by simp [hst]) (h.roster.fresh ℓ' hℓ' hst)).1.ge
      counters := fun slot l hl hx => ?_
      owed := howed
      budget := fun hst => { h.budget hst with }
      quiet := fun hx => (h.quiet hx).imp_right fun hq => ⟨hq.1, hq.2.1, ?_⟩
      aim := ?_
      keep := fun ℓ n hk => { h.keep ℓ n hk with }
      wait := fun w hw => (h.wait w hw).imp fun hq => { hq with unread := ?_ } }
  · have hne : l.ix ≠ ℓ := by
      rintro rfl
      obtain ⟨hst, hsh⟩ := hheld slot l.skel (Receiver.skel_lane hl)
      exact hx (hr hst hsh).1
    refine (h.counters slot l hl hx).frame ?_
    simp only [ringL, Function.update_of_ne hne]
    exact .refl _
  · rcases hq.2.2 with hl | ⟨ℓ', hlt, hst, hsh, hun⟩
    · exact .inl hl
    · refine .inr ⟨ℓ', hlt, hst, hsh, ?_⟩
      obtain ⟨h₁, h₂, -⟩ := hlive ℓ' hst hsh
      exact h₁ ▸ h₂ ▸ hun
  · refine h.aim.step le_rfl rfl id (fun ℓ' n _ _ ht => ?_) fun all hall ℓ' hlt hst hsh hp => ?_
    · obtain ⟨h₁, -, h₃⟩ := hlive ℓ' ht.stage ht.shut
      exact { ht with unread := h₁ ▸ h₃ ▸ ht.unread }
    · obtain ⟨h₁, h₂, -⟩ := hlive ℓ' hst hsh
      exact h₁ ▸ h₂ ▸ hall ℓ' hlt hst hsh hp
  · obtain ⟨l, hl, -, hix⟩ := hq.held
    obtain ⟨hst, hsh⟩ := hheld _ l.skel (Receiver.skel_lane hl)
    obtain ⟨h₁, -, h₃⟩ := hlive l.ix hst hsh
    rw [hix] at h₁ h₃
    exact h₁ ▸ h₃ ▸ hq.unread

/-! ## Events -/

/-- The trace goes on, and nothing was popped. -/
theorem View.setTrace {es : List (Event V)} (h : View S x rx s) (fresh : Bool)
    (hpop : popped (s.trace ++ es) = popped s.trace)
    (hspare : S.single = none ∨ ∀ e ∈ es, e.sparing)
    (hbudget : S.strict = true →
      Budget { x with fresh := fresh } rx { s with trace := s.trace ++ es }) :
    View S { x with fresh := fresh } rx { s with trace := s.trace ++ es } :=
  { h with
    roster := { h.roster with }
    index := { h.index with
      held := fun slot e he hx => { h.index.held slot e he hx with }
      fresh := fun ℓ hℓ hst => { h.index.fresh ℓ hℓ hst with } }
    counters := fun slot l hl hx => (h.counters slot l hl hx).frame (.refl _)
    hand := hpop.trans h.hand
    budget := hbudget
    aim := h.aim.step le_rfl hpop id (fun _ _ _ _ ht => { ht with }) fun _ hall => hall
    keep := fun ℓ n hk => { h.keep ℓ n hk with popped := hpop ▸ (h.keep ℓ n hk).popped }
    scan := fun ℓ u hu => (h.scan ℓ u hu).grow (List.prefix_append ..)
    refused := fun hx ℓ u hu => (h.refused hx ℓ u hu).grow (List.prefix_append ..)
    single := fun u hu => (h.single u hu).grow
      (hspare.resolve_left fun hnone => by simp [hnone] at hu)
    wait := hpop ▸ h.wait }

/-- The event is about nothing but what was looked at. -/
def Event.silent : Event V → Bool
  | .seenEmpty _ | .asked _ _ | .publish _ _ _ _ _ | .queued _ => true
  | _ => false

theorem popped_silent (t : List (Event V)) {es : List (Event V)} (hes : ∀ e ∈ es, e.silent = true) :
    popped (t ++ es) = popped t := by
  rw [popped_append, List.append_right_eq_self]
  refine List.filterMap_eq_nil_iff.mpr fun e he => ?_
  cases e with
  | pop ℓ v targeted => cases hes _ he
  | _ => rfl

theorem ordinarySince_silent (t : List (Event V)) {es : List (Event V)}
    (hes : ∀ e ∈ es, e.silent = true) : ordinarySince (t ++ es) = ordinarySince t := by
  induction es generalizing t with
  | nil => rw [List.append_nil]
  | cons e es ih =>
    have hone : ordinarySince (t ++ [e]) = ordinarySince t := by
      have he := hes e List.mem_cons_self
      cases e <;> simp_all [ordinarySince, Event.silent]
    rw [List.append_cons, ih (t ++ [e]) fun e' he' => hes e' (List.mem_cons_of_mem _ he'), hone]

theorem TraceOk.silent {t es : List (Event V)} (h : TraceOk t)
    (hes : ∀ e ∈ es, e.silent = true) : TraceOk (t ++ es) := by
  induction es generalizing t with
  | nil => rwa [List.append_nil]
  | cons e es ih =>
    have he := hes e List.mem_cons_self
    rw [List.append_cons]
    refine ih (h.append e ?_ ?_) fun e' he' => hes e' (List.mem_cons_of_mem _ he')
    · rintro b n rfl
      cases he
    · rw [ordinarySince_silent t fun e' he' => List.mem_singleton.mp he' ▸ he]
      exact h.since t [] (List.append_nil t).symm

/-- Something was looked at. -/
theorem View.silent (h : View S x rx s) {es : List (Event V)} (hes : ∀ e ∈ es, e.silent = true)
    (hspare : S.single = none ∨ ∀ e ∈ es, e.sparing) :
    View S x rx { s with trace := s.trace ++ es } := by
  refine h.setTrace x.fresh (popped_silent _ hes) hspare fun hst => ?_
  have hb := h.budget hst
  exact
    { items_le := hb.items_le
      since := (ordinarySince_silent s.trace hes).symm ▸ hb.since
      unc_le := hb.unc_le
      fresh := fun hf => (ordinarySince_silent s.trace hes).trans (hb.fresh hf) }

/-- A lane was seen to be empty. -/
theorem View.seeEmpty (h : View S x rx s) (ℓ : Nat) : View S x rx (s.record (.seenEmpty ℓ)) :=
  h.silent (by simp [Event.silent]) (.inr (by simp [Event.sparing]))

/-- Lanes were put into the rotation. -/
theorem View.queued (h : View S x rx s) (keys : List LaneKey) :
    View S x rx (s.record (.queued keys)) :=
  h.silent (by simp [Event.silent]) (.inr (by simp [Event.sparing]))

theorem View.passed (h : View S x rx s) (ℓ : Nat) :
    Passed S ℓ (s.record (.seenEmpty ℓ)).trace := fun t ht => by
  rw [Chan.record, List.drop_append_of_le_length (h.scan ℓ t ht).le]
  simp

/-! ## Telling a sender -/

theorem View.setSpace {d o : Owed} {c : WaitCell} (h : View S x rx s)
    (hx : x.owed = some (ℓ, d)) :
    View S { x with owed := some (ℓ, o) } rx (setOwed ℓ o ((spaceL ℓ).set c s)) :=
  { h with
    roster := { h.roster with }
    index := { h.index with
      held := fun slot e he hx => { h.index.held slot e he hx with }
      fresh := fun ℓ hℓ hst => { h.index.fresh ℓ hℓ hst with } }
    counters := fun slot l hl hx => by
      have := h.counters slot l hl hx
      exact { { this.toLaneCounts with } with
        unreleased_lt := this.unreleased_lt, burst_lt := this.burst_lt }
    owed := (hx ▸ h.owed).set
    budget := fun hst => { h.budget hst with }
    aim := h.aim.step le_rfl rfl id (fun _ _ _ _ ht => { ht with }) fun _ hall => hall
    keep := fun ℓ n hk => { h.keep ℓ n hk with } }

/-- The sender was told. -/
theorem View.settle (h : View S x rx s) (hx : x.owed = some (ℓ, .settled)) :
    View S { x with owed := none } rx s :=
  { h with
    owed := (hx ▸ h.owed).settle
    budget := fun hst => { h.budget hst with } }

/-! ## The index -/

/-- A step on the index. -/
theorem View.setReady {r : Ready} {exempt : Option Nat} {c : Scan} (h : View S x rx s)
    (hindex : Index rx.book exempt c (readyL.set r s))
    (hswept : x.swept = true → Told S.aim s ∨ Clear rx.book c (readyL.set r s))
    (hquiet : x.quiet = true → Told S.aim s ∨ Quiesced rx.book (readyL.set r s))
    (htarget : ∀ ℓ q, S.aim = .target ℓ q → x.caught = false → Target rx.book x.scan ℓ q.key s →
      (r.pending ℓ = true ∨ Listed rx.book (s.key ℓ).slot) ∧
        Covered rx.book c (readyL.set r s) (s.key ℓ).slot) :
    View S { x with exempt := exempt, scan := c } rx (readyL.set r s) :=
  { h with
    roster := { h.roster with }
    index := hindex
    counters := fun slot l hl hx => by
      have := h.counters slot l hl hx
      exact { { this.toLaneCounts with } with
        unreleased_lt := this.unreleased_lt, burst_lt := this.burst_lt }
    budget := fun hst => { h.budget hst with }
    swept := hswept
    quiet := hquiet
    aim := h.aim.step le_rfl rfl id (fun ℓ n ha hb ht => { ht with
      pending := (htarget ℓ n ha hb ht).1
      covered := (htarget ℓ n ha hb ht).2 }) fun _ hall => hall
    keep := fun ℓ n hk => { h.keep ℓ n hk with } }

/-- The `PENDING` flag of the lane in hand is set or cleared. -/
theorem Index.setPending {k : Book} {exempt : Option Nat} {c : Scan} (h : Index k exempt c s)
    (hex : exempt = none ∨ exempt = some ℓ) (b : Bool) (hst : s.stage ℓ ≠ .pending) :
    Index k (some ℓ) c
      (readyL.set { s.ready with pending := Function.update s.ready.pending ℓ b } s) :=
  { h with
    held := fun slot e he hx => by
      have hne : e.ix ≠ ℓ := fun heq => hx (by rw [heq])
      have := h.held slot e he (by
        rcases hex with hex | hex
        · simp [hex]
        · simpa [hex] using hne.symm)
      exact this.mono (by simp [readyL, hne]) id Iff.rfl rfl rfl rfl rfl le_rfl
    fresh := fun ℓ' hlt hst' => by
      have hne : ℓ' ≠ ℓ := by
        rintro rfl
        exact hst hst'
      exact (h.fresh ℓ' hlt hst').mono (by simp [readyL, hne]) id Iff.rfl rfl rfl rfl rfl le_rfl }

theorem View.finishDrain (h : View S x rx s) (hl : CopyOf rx lane) (hex : x.exempt = none)
    (hswept : x.swept = false) (hquiet : x.quiet = false)
    (hmiss : Misses S.aim x.caught lane.ix) :
    View S { x with exempt := some lane.ix } rx
      (readyL.set (s.ready.finishDrain lane.ix).2 s) := by
  have hst := (h.held hl).2.2.1
  refine h.setReady (h.index.setPending (.inl hex) false (by simp [hst])) (by simp [hswept])
    (by simp [hquiet]) fun ℓ' n ha hb ht => ⟨?_, ht.covered⟩
  simp only [Ready.finishDrain, Function.update_of_ne (hmiss ℓ' n ha hb)]
  exact ht.pending

theorem View.claimAfterEmpty (h : View S x rx s) (hl : CopyOf rx lane)
    (hex : x.exempt = some lane.ix) (hswept : x.swept = false) (hquiet : x.quiet = false) :
    View S { x with exempt := some lane.ix } rx
      (readyL.set (s.ready.claimAfterEmpty lane.ix).2 s) := by
  have hst := (h.held hl).2.2.1
  refine h.setReady (h.index.setPending (.inr hex) true (by simp [hst])) (by simp [hswept])
    (by simp [hquiet]) fun ℓ' n ha hb ht => ⟨?_, ht.covered⟩
  by_cases hne : ℓ' = lane.ix
  · simp [Ready.claimAfterEmpty, hne]
  · simpa [Ready.claimAfterEmpty, hne] using ht.pending

/-- The slots of the bits of a page word. -/
def slotsOf (page : Nat) (w : Word) : List Nat := w.bits.map (page * lanesPerPage + ·)

/-- The pages of the bits of a group word. -/
def pagesOf (group : Nat) (w : Word) : List Nat := w.bits.map (group * pagesPerGroup + ·)

theorem mem_slotsOf {r : Ready} {slot : Nat} (h : r.laneBit slot = true) :
    slot ∈ slotsOf (slot / lanesPerPage) (r.page (slot / lanesPerPage)) := by
  refine List.mem_map.mpr ⟨slot % lanesPerPage, Word.mem_bits.mpr h, ?_⟩
  rw [Nat.mul_comm]
  exact Nat.div_add_mod ..

theorem mem_pagesOf {r : Ready} {page : Nat} (h : r.pageBit page = true) :
    page ∈ pagesOf (page / pagesPerGroup) (r.group (page / pagesPerGroup)) := by
  refine List.mem_map.mpr ⟨page % pagesPerGroup, Word.mem_bits.mpr h, ?_⟩
  rw [Nat.mul_comm]
  exact Nat.div_add_mod ..

section

variable {page group : Nat} {pages rest : List Nat} {todo : Option (List Nat)} {k : Book}

/-- The context once a page word was taken. -/
def Scan.tookPage (page : Nat) (w : Word) (pages : List Nat) (todo : Option (List Nat)) : Scan :=
  ⟨pages, slotsOf page w, slotsOf page w, todo⟩

theorem Covered.takePage {slot : Nat} (h : Covered k ⟨page :: pages, [], [], todo⟩ s slot) :
    Covered k (.tookPage page (s.ready.page page) pages todo)
      (readyL.set (s.ready.takePage page).2 s) slot := by
  rcases h with h | h | ⟨hb, h⟩
  · exact .inl h
  · simp at h
  · by_cases hp : slot / lanesPerPage = page
    · subst hp
      exact .inr (.inl (mem_slotsOf hb))
    · refine .inr
        (.inr ⟨(Ready.laneBit_takePage ..).trans (by simp [hb, hp]), h.imp_left fun h => ?_⟩)
      exact (List.mem_cons.mp h).resolve_left hp

theorem Indexed.takePage {slot : Nat} {covered served : Prop}
    (h : Indexed s ℓ slot covered served) (page : Nat) :
    Indexed (readyL.set (s.ready.takePage page).2 s) ℓ slot
      (covered ∨ slot ∈ slotsOf page (s.ready.page page)) served :=
  { h with
    marked := fun hp => by
      rcases h.marked hp with h | h | h
      · exact .inl (.inl h)
      · by_cases hpg : slot / lanesPerPage = page
        · subst hpg
          exact .inl (.inr (mem_slotsOf h))
        · exact .inr (.inl ((Ready.laneBit_takePage ..).trans (by simp [h, hpg])))
      · exact .inr (.inr h) }

theorem View.takePage (h : View S x rx s) (hscan : x.scan = ⟨page :: pages, [], [], todo⟩)
    (hquiet : x.quiet = false) :
    View S { x with scan := .tookPage page (s.ready.page page) pages todo } rx
      (readyL.set (s.ready.takePage page).2 s) := by
  have hi := hscan ▸ h.index
  refine h.setReady ⟨fun slot e he hx => ?_, fun ℓ hℓ hst => ?_, fun p hp => ?_⟩ (fun hx => ?_)
    (by simp [hquiet]) fun ℓ n _ _ ht => ⟨ht.pending, (hscan ▸ ht.covered).takePage⟩
  · refine ((hi.held slot e he hx).takePage page).imp ?_ id
    rintro ((h | h | h) | h)
    · exact .inl h
    · exact .inr (.inl h)
    · simp at h
    · exact .inr (.inr h)
  · refine ((hi.fresh ℓ hℓ hst).takePage page).imp ?_ id
    rintro (h | h)
    · simp at h
    · exact h
  · have hne : p ≠ page := by
      rintro rfl
      simp [readyL, Ready.takePage] at hp
    have hp' : s.ready.page p ≠ 0#64 := by simpa [readyL, Ready.takePage, hne] using hp
    exact (hi.page p hp').imp_left fun h => (List.mem_cons.mp h).resolve_left hne
  · refine (h.swept hx).imp_right fun hcl => ⟨hcl.1, fun slot e he hp => ?_⟩
    exact (hcl.2 slot e he hp).imp_right fun hcov => (hscan ▸ hcov).takePage

theorem Covered.takeGroup {slot : Nat} (h : Covered k ⟨[], [], [], some (group :: rest)⟩ s slot) :
    Covered k ⟨pagesOf group (s.ready.group group), [], [], some rest⟩
      (readyL.set (s.ready.takeAll group).2 s) slot := by
  rcases h with h | h | ⟨hb, h⟩
  · exact .inl h
  · simp at h
  · refine .inr (.inr ⟨hb, ?_⟩)
    rcases h with h | ⟨hpb, hg⟩
    · simp at h
    · by_cases hp : slot / lanesPerPage / pagesPerGroup = group
      · subst hp
        exact .inl (mem_pagesOf hpb)
      · refine .inr ⟨(Ready.pageBit_takeAll ..).trans (by simp [hpb, hp]), fun groups hgr => ?_⟩
        cases hgr
        exact (List.mem_cons.mp (hg _ rfl)).resolve_left hp

theorem View.takeGroup (h : View S x rx s)
    (hscan : x.scan = ⟨[], [], [], some (group :: rest)⟩) (hquiet : x.quiet = false) :
    View S { x with scan := ⟨pagesOf group (s.ready.group group), [], [], some rest⟩ } rx
      (readyL.set (s.ready.takeAll group).2 s) := by
  have hi := hscan ▸ h.index
  refine h.setReady ⟨fun slot e he hx => ?_, fun ℓ hℓ hst => ?_, fun p hp => ?_⟩ (fun hx => ?_)
    (by simp [hquiet]) fun ℓ n _ _ ht => ⟨ht.pending, (hscan ▸ ht.covered).takeGroup⟩
  · exact { hi.held slot e he hx with }
  · exact { hi.fresh ℓ hℓ hst with }
  · rcases hi.page p hp with h | h | h
    · simp at h
    · by_cases hpg : p / pagesPerGroup = group
      · subst hpg
        exact .inl (mem_pagesOf h)
      · exact .inr (.inl ((Ready.pageBit_takeAll ..).trans (by simp [h, hpg])))
    · exact .inr (.inr h)
  · refine (h.swept hx).imp_right fun hcl => ⟨hcl.1, fun slot e he hp => ?_⟩
    exact (hcl.2 slot e he hp).imp_right fun hcov => (hscan ▸ hcov).takeGroup

/-- A change of what is known to be taken out of the index. -/
theorem View.rescan {c : Scan} (h : View S x rx s) (hindex : Index rx.book x.exempt c s)
    (hcov : ∀ ℓ < s.count, s.stage ℓ ≠ .retired → Covered rx.book x.scan s (s.key ℓ).slot →
      Covered rx.book c s (s.key ℓ).slot) : View S { x with scan := c } rx s :=
  { h with
    index := hindex
    budget := fun hst => { h.budget hst with }
    swept := fun hx => (h.swept hx).imp_right fun hcl => ⟨hcl.1, fun slot e he hp =>
      (hcl.2 slot e he hp).imp_right fun hc => by
        obtain ⟨hk, hsl, hlt, hst, -⟩ := h.roster.held slot e he
        have := hcov e.ix hlt (by simp [hst])
        rw [← hk, hsl] at this
        exact this hc⟩
    aim := h.aim.step le_rfl rfl id (fun ℓ _ _ _ ht => { ht with
      covered := hcov ℓ ht.lt ht.stage ht.covered }) fun _ hall => hall }

/-- A group found empty need not be looked at. -/
theorem View.skipGroup (h : View S x rx s) (hscan : x.scan = ⟨[], [], [], some (group :: rest)⟩)
    (hempty : s.ready.group group = 0#64) :
    View S { x with scan := ⟨[], [], [], some rest⟩ } rx s := by
  have hi := hscan ▸ h.index
  refine h.rescan { hi with } fun ℓ _ _ hcov => ?_
  rcases hscan ▸ hcov with h | h | ⟨hb, h⟩
  · exact .inl h
  · simp at h
  · refine .inr (.inr ⟨hb, h.imp_right fun h => ⟨h.1, fun groups hgr => ?_⟩⟩)
    cases hgr
    refine (List.mem_cons.mp (h.2 _ rfl)).resolve_left fun heq => ?_
    rw [Ready.pageBit_of_group_eq_zero (heq ▸ hempty)] at h
    simp at h

/-- More is taken out of the index than the code remembers. -/
theorem View.forget {c : Scan} (h : View S x rx s) (hcp : x.scan.cp ⊆ c.cp) (hcl : x.scan.cl ⊆ c.cl)
    (hcu : x.scan.cu ⊆ c.cu) (htodo : c.todo = none ∨ c.todo = x.scan.todo) :
    View S { x with scan := c } rx s := by
  refine h.rescan ⟨fun slot e he hx => (h.index.held slot e he hx).imp ?_ id,
    fun ℓ hℓ hst => (h.index.fresh ℓ hℓ hst).imp (fun h => hcu h) id,
    fun p hp => (h.index.page p hp).imp_left fun h => hcp h⟩ fun ℓ _ _ hcov => ?_
  · exact Or.imp_right (Or.imp_right fun h => hcl h)
  · rcases hcov with h | h | ⟨hb, h⟩
    · exact .inl h
    · exact .inr (.inl (hcl h))
    · refine .inr (.inr ⟨hb, h.imp (fun h => hcp h) fun h => ⟨h.1, fun groups hgr => ?_⟩⟩)
      rcases htodo with ht | ht
      · simp [ht] at hgr
      · exact h.2 groups (ht ▸ hgr)

end

end Fanring.Mpsc
