import Fanring.Mpsc.TakeSpec

/-!
# The MPSC channel: collecting marked lanes

Triples for `collect_ready` and what it calls. The groups are looked at in turn; the pages of a
group word that was taken are looked at one by one, and so are the lanes of a page word. Before and
after a page word is taken the registry is refreshed, because a lane or a whole page may be new.
What was taken and not yet looked at stays in the context, so no marked lane is lost on the way.
-/

set_option autoImplicit false

namespace Fanring.Mpsc

open Conc Chan

variable {V : Type} {P : Params} {S : Setting} {s s' : Chan V} {ℓ : Nat} {x : Ctx V}
  {rx rx' : Receiver} {lane lane' : Lane} {key : LaneKey}

/-! ## The registry -/

/-- Nothing but the index is in the code's hands. -/
structure Ctx.Calm (x : Ctx V) : Prop where
  asleep : x.asleep = false
  out : x.out = none
  owed : x.owed = none
  exempt : x.exempt = none
  hot : x.hot = none
  taken : x.taken = 0
  quiet : x.quiet = false

theorem Ctx.Calm.clear (hx : x.Calm) :
    ({ x with hot := none, taken := 0, exempt := none, out := none } : Ctx V) = x := by
  obtain ⟨-, h₁, -, h₂, h₃, h₄, -⟩ := hx
  cases x
  simp_all

/-- The rotation and the budget survive, and more lanes may be queued. -/
structure Grown (rx rx' : Receiver) : Prop where
  active : rx.active <+: rx'.active
  items : rx'.itemsUntilReadyPoll = rx.itemsUntilReadyPoll

theorem Grown.refl (rx : Receiver) : Grown rx rx := ⟨List.prefix_rfl, rfl⟩

theorem Grown.trans {rx₁ rx₂ rx₃ : Receiver} (h₁ : Grown rx₁ rx₂) (h₂ : Grown rx₂ rx₃) :
    Grown rx₁ rx₃ := ⟨h₁.active.trans h₂.active, h₂.items.trans h₁.items⟩

/-- The lane the receiver looks for is one it has adopted. -/
def Found (a : Aim) (caught : Bool) (s : Chan V) : Prop :=
  ∀ ℓ q, a = .target ℓ q → caught = false → s.stage ℓ = .adopted

theorem View.target {q : Sought} (h : View S x rx s) (ha : S.aim = .target ℓ q)
    (hb : x.caught = false) : Target rx.book x.scan ℓ q.key s := by
  have haim := h.aim
  simp only [ha, AimOk, hb, Bool.false_eq_true, if_false] at haim
  exact haim.2

theorem Found.kept : Kept P S x rx (Found S.aim x.caught) :=
  fun _ _ _ hc hℓ ha hv h ℓ' n haim hb =>
    ((ha.frame hc hℓ).stage ℓ' (hv.target haim hb).lt).trans (h ℓ' n haim hb)

/-- Once the registry is refreshed, every lane is adopted. -/
theorem View.found (h : View S x rx s) (hc : Core P s)
    (hseen : rx.seenRegistryGeneration = s.registryGeneration) : Found S.aim x.caught s := by
  intro ℓ n ha hb
  have ht := h.target ha hb
  have hpe := (h.roster.seen_eq hseen).1
  have hst := ht.stage
  cases hs : s.stage ℓ with
  | adopted => rfl
  | retired => exact absurd hs hst
  | pending =>
    have := (hc.mem_pending ℓ).mpr ⟨ht.lt, hs⟩
    simp [hpe] at this

/-- Lanes may have been adopted; the rotation, the budget and the lanes held stay as they were. -/
structure Adopts (rx rx' : Receiver) : Prop where
  active : rx'.active = rx.active
  items : rx'.itemsUntilReadyPoll = rx.itemsUntilReadyPoll
  fastSlot : rx'.fastSlot = rx.fastSlot
  lanes : ∀ slot l, rx.lanes slot = some l →
    rx'.lanes slot = some l ∧ rx'.paused slot = rx.paused slot
  /-- A lane that was not held before is not paused. -/
  fresh : ∀ slot l, rx'.lanes slot = some l → rx.lanes slot = some l ∨ rx'.paused slot = false

theorem Adopts.refl (rx : Receiver) : Adopts rx rx :=
  ⟨rfl, rfl, rfl, fun _ _ h => ⟨h, rfl⟩, fun _ _ h => .inl h⟩

theorem Adopts.grown (h : Adopts rx rx') : Grown rx rx' := ⟨h.active ▸ List.prefix_rfl, h.items⟩

theorem View.adopts (h : View S x rx s) (hc : Core P s) : Adopts rx (rx.refreshed s) where
  active := (hc.adopted rx).active
  items := (hc.adopted rx).items
  fastSlot := (hc.adopted rx).fastSlot
  lanes _ _ hl := h.refreshed_old hc hl
  fresh _ _ hl := by
    rcases refreshed_lanes hc hl with ⟨-, -, -, -, hp⟩ | ⟨-, hl, -⟩
    · exact .inr hp
    · exact .inl hl

/-- A refresh; `Y` is what follows from it at the moment it takes effect. -/
theorem refreshRegistry_adopts {Y : Receiver → Chan V → Prop} {R : Chan V → Prop} {b : Bool}
    (hx : x.Calm) (hcu : x.scan.cu ⊆ x.scan.cl)
    (hb : b = true → x.swept = true ∨ x.scan.todo = none) (hR : Kept P S x rx R)
    (hstep : ∀ s, Core P s → R s → R (Receiver.takePending s).2)
    (hY : ∀ rx', (recvC P S).Stable (Y rx'))
    (h : ∀ s rx', Core P s → Adopts rx rx' → rx'.seenRegistryGeneration = s.registryGeneration →
      View S { x with scan := x.scan.refreshed rx'.pages, swept := b } rx' s → R s → Y rx' s) :
    Triple (recvC P S) (fun s => View S x rx s ∧ R s) (rx.refreshRegistry) Y := by
  refine Triple.bind (Q := fun generation s =>
      (View S x rx s ∧ R s) ∧ (generation = rx.seenRegistryGeneration → Y rx s))
    (recv_read hR.stable (fun _ => hR.stable.and ?_) fun s hi hv => ⟨hv, fun hseen => ?_⟩)
    fun generation => ?_
  · exact fun s s' hs hs' hr hY' hg => hY rx s s' hs hs' hr (hY' hg)
  · have := hv.1.uptodate hi.core hseen.symm hx.exempt hcu hx.quiet hb
    rw [← hx.exempt] at this
    exact h s rx hi.core (.refl rx) hseen.symm this hv.2
  split
  · next hg => exact Triple.ret (hY rx) fun s _ h => h.2 hg
  · refine Triple.seq (Q := fun r s => ((r.1.map (·.key.slot)).Nodup ∧
        ∀ lane ∈ r.1, rx.lanes lane.key.slot = none) ∧ Y { r.1.foldl Receiver.adopt rx with
        groups := r.2.1, pages := r.2.2.1, seenRegistryGeneration := r.2.2.2 } s)
      ((recv_atomic hR.stable (fun _ => (Contract.Stable.pure _).and (hY _)) fun s hi hv => ?_).pre
        fun s _ h => h.1)
      fun r => ?_
    · have hv' := hv.1.refresh hi.core hx.exempt hcu hx.quiet hb
      rw [← hx.exempt] at hv'
      refine ⟨.of_view hi hv.1 hx.asleep hi.core.takePending { RecvAct.refl P s with } rfl rfl, ?_⟩
      refine ⟨⟨hi.core.nodup_slots, fun lane hm => ?_⟩, h _ (rx.refreshed s) hi.core.takePending
        (hv.1.adopts hi.core) rfl hv' (hstep s hi.core hv.2)⟩
      obtain ⟨ℓ, hℓ, rfl⟩ := List.mem_map.mp hm
      exact hv.1.pending_slot hi.core hℓ
    · obtain ⟨pending, groups, pages, seen⟩ := r
      refine Triple.given (fun s _ h => h.now.1) fun hfree => ?_
      simp only [adoptAll_eq pending rx hfree.1 hfree.2]
      exact Triple.done fun s _ h => h.2

theorem refreshRegistry_spec {Y : Receiver → Chan V → Prop} {b : Bool} (hx : x.Calm)
    (hcu : x.scan.cu ⊆ x.scan.cl) (hb : b = true → x.swept = true ∨ x.scan.todo = none)
    (hY : ∀ rx', (recvC P S).Stable (Y rx'))
    (h : ∀ s rx', Core P s → Grown rx rx' → rx'.seenRegistryGeneration = s.registryGeneration →
      View S { x with scan := x.scan.refreshed rx'.pages, swept := b } rx' s → Y rx' s) :
    Triple (recvC P S) (View S x rx) (rx.refreshRegistry) Y :=
  (refreshRegistry_adopts (R := fun _ => True) hx hcu hb (.pure _) (fun _ _ h => h) hY
    fun s rx' hc ha hseen hv _ => h s rx' hc ha.grown hseen hv).pre fun _ _ hv => ⟨hv, trivial⟩

/-! ## Lanes -/

section

variable {page group slot : Nat} {slots pages : List Nat} {todo : Option (List Nat)}

/-- A lane of a taken page word was looked at. -/
theorem View.dropSlot (h : View S x rx s) (hscan : x.scan = ⟨pages, slot :: slots, [], todo⟩)
    (hf : Found S.aim x.caught s)
    (hown : ∀ l, rx.lanes slot = some l →
      rx.paused slot = true ∨ l.queued = true ∨ s.ready.pending l.ix = false) :
    View S { x with scan := ⟨pages, slots, [], todo⟩ } rx s := by
  have hown' : ∀ e, rx.book.lane slot = some e → s.ready.pending e.ix = true →
      rx.book.paused slot = true ∨ e.queued = true := by
    intro e he hp
    obtain ⟨l, hl, rfl⟩ := Option.map_eq_some_iff.mp he
    rcases hown l hl with h | h | h
    · exact .inl h
    · exact .inr h
    · rw [show s.ready.pending l.ix = true from hp] at h
      simp at h
  -- whoever was covered by the slot alone is queued, if it is pending and not paused
  have hcov : ∀ {slot' e}, rx.book.lane slot' = some e → s.ready.pending e.ix = true →
      rx.book.paused slot' = false → Covered rx.book x.scan s slot' →
      Covered rx.book ⟨pages, slots, [], todo⟩ s slot' := by
    intro slot' e he hp hpa hcov
    rw [hscan] at hcov
    rcases hcov with hq | hm | hb
    · exact .inl hq
    · rcases List.mem_cons.mp hm with rfl | hm
      · refine .inl ⟨e, he, (hown' e he hp).resolve_left ?_⟩
        simp [hpa]
      · exact .inr (.inl hm)
    · exact .inr (.inr hb)
  have hi := hscan ▸ h.index
  exact
    { h with
      index := { hi with
        held := fun slot' e he hx =>
          { hi.held slot' e he hx with
            marked := fun hp => by
              rcases (hi.held slot' e he hx).marked hp with (hm | hm | hm) | hm
              · exact .inl (.inl hm)
              · exact .inl (.inr (.inl hm))
              · rcases List.mem_cons.mp hm with rfl | hm
                · exact .inl ((hown' e he hp).imp_right .inl)
                · exact .inl (.inr (.inr hm))
              · exact .inr hm } }
      budget := fun hst => { h.budget hst with }
      swept := fun hx => (h.swept hx).imp_right fun hcl => ⟨hcl.1, fun slot' e he hp => by
        rcases hcl.2 slot' e he hp with hpa | hcov'
        · exact .inl hpa
        · cases hpa : rx.book.paused slot' with
          | true => exact .inl rfl
          | false => exact .inr (hcov he hp hpa hcov')⟩
      aim := h.aim.step le_rfl rfl id (fun ℓ n ha hb ht => { ht with
        covered := by
          have hst := hf ℓ n ha hb
          obtain ⟨e, he, hix⟩ := h.roster.adopted ℓ ht.lt hst ht.shut
          rcases ht.pending with hp | hlisted
          · exact hcov he (hix ▸ hp) (ht.unpaused hst) ht.covered
          · exact .inl hlisted }) fun _ hall => hall }

/-- A lane that was collected joins the rotation. -/
theorem View.joins (h : View S x rx s) (hx : x.Calm) (hl : rx.lanes slot = some lane)
    (hp : ¬ rx.paused slot = true) (hq : lane.queued = false) : View S x (rx.enqueue lane) s := by
  have hsl : lane.key.slot = slot := h.slot_of_key hl
  have hl' : rx.lanes lane.key.slot = some lane := by rw [hsl, hl]
  have hv := h.enqueue hl' rfl rfl hq (.inl hx.hot) (.inl hx.exempt) hx.out hx.quiet
    (by simpa [hsl] using hp) (h.counters _ _ hl (by simp [hx.hot]))
    (h.no_fast hl hq (by simp [hx.hot]))
  rwa [hx.clear] at hv

theorem collectLanes_spec {bits : List Nat} (hx : x.Calm)
    (hscan : x.scan = ⟨pages, bits.map (page * lanesPerPage + ·), [], todo⟩) :
    Triple (recvC P S) (fun s => View S x rx s ∧ Found S.aim x.caught s)
      (Receiver.collectLanes page bits rx) fun rx' s => Grown rx rx' ∧
        View S { x with scan := ⟨pages, [], [], todo⟩ } rx' s ∧ Found S.aim x.caught s := by
  induction bits generalizing rx x with
  | nil =>
    refine Triple.ret ((Contract.Stable.pure _).and Found.kept.stable) fun s _ h => ⟨.refl rx, ?_⟩
    rw [show (⟨pages, [], [], todo⟩ : Scan) = x.scan from hscan.symm]
    exact h
  | cons bit bits ih =>
    rw [Receiver.collectLanes]
    -- the lane was looked at, and the rest follows
    have rest : ∀ rx₁, Grown rx rx₁ → Triple (recvC P S) (fun s =>
        View S { x with scan := ⟨pages, bits.map (page * lanesPerPage + ·), [], todo⟩ } rx₁ s ∧
          Found S.aim x.caught s) (Receiver.collectLanes page bits rx₁) fun rx' s =>
        Grown rx rx' ∧ View S { x with scan := ⟨pages, [], [], todo⟩ } rx' s ∧
          Found S.aim x.caught s := fun rx₁ hg =>
      (ih (x := { x with scan := ⟨pages, bits.map (page * lanesPerPage + ·), [], todo⟩ })
        { hx with } rfl).post fun rx' s _ h => ⟨hg.trans h.1, h.2⟩
    split
    · next hl =>
      exact (rest rx (.refl rx)).pre fun s _ h =>
        ⟨h.1.dropSlot hscan h.2 (by simp [hl]), h.2⟩
    · next lane hl =>
      split
      · next hp =>
        exact (rest rx (.refl rx)).pre fun s _ h =>
          ⟨h.1.dropSlot hscan h.2 fun _ _ => .inl hp, h.2⟩
      · next hp =>
        refine Triple.bind (Q := fun b s => View S { x with
            scan := if b && !lane.queued then x.scan
              else ⟨pages, bits.map (page * lanesPerPage + ·), [], todo⟩ } rx s ∧
            Found S.aim x.caught s)
          (recv_atomic Found.kept.stable (fun _ => Found.kept.stable) fun s hi h => ?_) fun b => ?_
        · by_cases hb : (s.ready.pending lane.ix && !lane.queued) = true
          · have hq : lane.queued = false := by simpa using (Bool.and_eq_true_iff.mp hb).2
            simp only [readyL, Receiver.joinGhost, hb, if_true]
            exact ⟨.queued hi h.1 hx.asleep (h.1.joins hx hl hp hq).roster.nodup, h.1.queued _, h.2⟩
          · -- a lane that is not pending, or queued already, was looked at by this read
            simp only [readyL, Receiver.joinGhost, hb]
            refine ⟨.of_view hi h.1 hx.asleep hi.core (.refl P s) rfl rfl,
              h.1.dropSlot hscan h.2 fun l hl' => .inr ?_, h.2⟩
            cases hl.symm.trans hl'
            cases hq : lane.queued with
            | true => exact .inl rfl
            | false => exact .inr (by simpa [hq] using hb)
        · split
          · next hb =>
            obtain ⟨rfl, hq⟩ : b = true ∧ lane.queued = false := by simpa using hb
            refine (rest (rx.enqueue lane) ⟨List.prefix_append .., rfl⟩).pre fun s _ h => ?_
            have hsl : lane.key.slot = page * lanesPerPage + bit := h.1.slot_of_key hl
            refine ⟨(h.1.joins hx hl hp hq).dropSlot hscan h.2 fun l hl' => .inr (.inl ?_), h.2⟩
            change (rx.enqueue lane).lanes (page * lanesPerPage + bit) = some l at hl'
            rw [← hsl, Receiver.enqueue] at hl'
            rcases setLane_lanes hl' with ⟨-, rfl⟩ | ⟨hne, -⟩
            · rfl
            · exact absurd rfl hne
          · next hb =>
            exact rest rx (.refl rx)

/-! ## Pages -/

/-- A taken page word, and the refresh that follows. -/
theorem takePage_spec (hx : x.Calm) (hscan : x.scan = ⟨page :: pages, [], [], todo⟩) :
    Triple (recvC P S) (fun s => View S x rx s ∧ Found S.aim x.caught s)
      (readyL.access (Ready.takePage page)) fun word s =>
        View S { x with scan := .tookPage page word pages todo } rx s ∧
          Found S.aim x.caught s := by
  refine recv_atomic Found.kept.stable (fun _ => Found.kept.stable) fun s hi h => ?_
  refine ⟨.of_view hi h.1 hx.asleep (hi.core.setReady fun p hp => ?_) .setReady rfl rfl,
    h.1.takePage hscan hx.quiet, h.2⟩
  by_cases hpp : p = page
  · simp [Ready.takePage, readyL, hpp] at hp
  · simpa [Ready.takePage, readyL, hpp] using hp

theorem collectPages_spec {bits : List Nat} (hx : x.Calm)
    (hscan : x.scan = ⟨bits.map (group * pagesPerGroup + ·), [], [], todo⟩) :
    Triple (recvC P S) (fun s => View S x rx s ∧ Found S.aim x.caught s)
      (Receiver.collectPages group bits rx) fun rx' s => Grown rx rx' ∧
        View S { x with scan := ⟨[], [], [], todo⟩ } rx' s ∧ Found S.aim x.caught s := by
  induction bits generalizing rx x with
  | nil =>
    refine Triple.ret ((Contract.Stable.pure _).and Found.kept.stable) fun s _ h => ⟨.refl rx, ?_⟩
    rw [show (⟨[], [], [], todo⟩ : Scan) = x.scan from hscan.symm]
    exact h
  | cons bit bits ih =>
    -- the page was looked at, and the rest follows
    let x₁ : Ctx V := { x with scan := ⟨bits.map (group * pagesPerGroup + ·), [], [], todo⟩ }
    have rest : ∀ rx₁, Grown rx rx₁ → Triple (recvC P S) (fun s => View S x₁ rx₁ s ∧
          Found S.aim x.caught s) (Receiver.collectPages group bits rx₁) fun rx' s =>
        Grown rx rx' ∧ View S { x with scan := ⟨[], [], [], todo⟩ } rx' s ∧
          Found S.aim x.caught s := fun rx₁ hg =>
      (ih (x := x₁) { hx with } rfl).post fun rx' s _ h => ⟨hg.trans h.1, h.2⟩
    rw [Receiver.collectPages]
    refine Triple.seq ((refreshRegistry_spec (b := x.swept) (Y := fun rx₁ s => Grown rx rx₁ ∧
        View S { x with scan := x.scan.refreshed rx₁.pages } rx₁ s ∧ Found S.aim x.caught s)
      hx (by simp [hscan]) .inl (fun _ => (Contract.Stable.pure _).and Found.kept.stable)
      fun s rx₁ hc hg hseen hv => ⟨hg, hv, hv.found hc hseen⟩).pre fun s _ h => h.1)
      fun rx₁ => ?_
    refine Triple.given (fun s _ h => h.now.1) fun hg => ?_
    split
    · next hlt =>
      let cp := (bits.map (group * pagesPerGroup + ·)).filter (· < rx₁.pages)
      let x₂ : Ctx V := { x with scan := ⟨(group * pagesPerGroup + bit) :: cp, [], [], todo⟩ }
      have hx₂ : x.scan.refreshed rx₁.pages = x₂.scan := by
        simp [hscan, Scan.refreshed, hlt, x₂, cp]
      refine Triple.bind ((takePage_spec (x := x₂) { hx with } rfl).pre
        fun s _ h => ⟨hx₂ ▸ h.now.2.1, h.now.2.2⟩) fun word => ?_
      let x₃ : Ctx V :=
        { x with scan := .tookPage (group * pagesPerGroup + bit) word cp todo }
      refine Triple.seq ((refreshRegistry_spec (x := x₃) (b := x.swept)
        (Y := fun rx₂ s => Grown rx rx₂ ∧
          View S { x with scan := x₃.scan.refreshed rx₂.pages } rx₂ s ∧
          Found S.aim x.caught s) { hx with } (List.Subset.refl _) .inl
        (fun _ => (Contract.Stable.pure _).and Found.kept.stable)
        fun s rx₂ hc hg₂ hseen hv => ⟨hg.trans hg₂, hv, hv.found hc hseen⟩).pre fun s _ h => h.1)
        fun rx₂ => ?_
      refine Triple.given (fun s _ h => h.now.1) fun hg₂ => ?_
      refine Triple.seq ((collectLanes_spec
        (x := { x with scan := x₃.scan.refreshed rx₂.pages }) { hx with } rfl).pre
        fun s _ h => h.now.2) fun rx₃ => ?_
      refine Triple.given (fun s _ h => h.now.1) fun hg₃ => ?_
      refine (rest rx₃ (hg₂.trans hg₃)).pre
        fun s _ h => ⟨h.now.2.1.forget ?_ ?_ ?_ (.inr rfl), h.now.2.2⟩
      · exact fun p hp => List.mem_of_mem_filter (List.mem_of_mem_filter hp)
      all_goals exact List.Subset.refl _
    · next hlt =>
      refine (rest rx₁ hg).pre fun s _ h => ⟨h.now.2.1.forget ?_ ?_ ?_ ?_, h.now.2.2⟩
      · simp [hscan, Scan.refreshed, hlt]
      · simp [hscan, Scan.refreshed]
      · simp [hscan, Scan.refreshed]
      · simp [hscan, Scan.refreshed]

/-! ## Groups -/

/-- The groups a collection is going to look at. -/
def groupsFrom (groupCount : Nat) : Nat → Nat → List Nat
  | 0, _ => []
  | left + 1, next =>
    (if next < groupCount then next else 0) ::
      groupsFrom groupCount left ((if next < groupCount then next else 0) + 1)

theorem mem_groupsFrom_of_ge {n : Nat} (hg : group < n) : ∀ {left next : Nat},
    next ≤ group → group < next + left → group ∈ groupsFrom n left next
  | 0, next, h₁, h₂ => absurd h₂ (by omega)
  | left + 1, next, h₁, h₂ => by
    have hlt : next < n := lt_of_le_of_lt h₁ hg
    rw [groupsFrom, if_pos hlt, List.mem_cons]
    by_cases heq : group = next
    · exact .inl heq
    · exact .inr (mem_groupsFrom_of_ge hg (by omega) (by omega))

/-- The round goes on from the first group. -/
theorem mem_groupsFrom_of_lt {n : Nat} (hg : group < n) : ∀ {left next : Nat},
    next ≤ n → group + n < next + left → group ∈ groupsFrom n left next
  | 0, next, h₁, h₂ => absurd h₂ (by omega)
  | left + 1, next, h₁, h₂ => by
    by_cases hlt : next < n
    · rw [groupsFrom, if_pos hlt, List.mem_cons]
      exact .inr (mem_groupsFrom_of_lt hg (by omega) (by omega))
    · rw [groupsFrom, if_neg hlt, List.mem_cons]
      by_cases heq : group = 0
      · exact .inl heq
      · exact .inr (mem_groupsFrom_of_ge hg (by omega) (by omega))

/-- **A full round looks at every group.** -/
theorem mem_groupsFrom {n : Nat} (hg : group < n) (next : Nat) : group ∈ groupsFrom n n next := by
  obtain ⟨m, rfl⟩ : ∃ m, n = m + 1 := ⟨n - 1, by omega⟩
  by_cases hlt : next < m + 1
  · by_cases hle : next ≤ group
    · exact mem_groupsFrom_of_ge hg hle (by omega)
    · exact mem_groupsFrom_of_lt hg hlt.le (by omega)
  · rw [groupsFrom, if_neg hlt, List.mem_cons]
    by_cases heq : group = 0
    · exact .inl heq
    · exact .inr (mem_groupsFrom_of_ge hg (by omega) (by omega))

/-- What a collection leaves: everything was looked at, if it went all the way. -/
def Ctx.collected (x : Ctx V) (all : Bool) : Ctx V :=
  { x with scan := ⟨[], [], [], if all then some [] else none⟩, swept := all && x.swept }

/-- Where the next round starts is anybody's guess. -/
theorem View.recall (h : View S x rx s) (cursor : Nat) :
    View S x { rx with readyGroupCursor := cursor } s :=
  { h with budget := fun hst => { h.budget hst with } }

theorem View.unsweep (h : View S x rx s) (b : Bool) :
    View S { x with swept := b && x.swept } rx s :=
  { h with
    budget := fun hst => { h.budget hst with }
    swept := fun hb => h.swept (by simpa using (Bool.and_eq_true_iff.mp hb).2) }

/-- A collection that stops here. -/
theorem View.collected (h : View S x rx s) {b : Bool} (hscan : x.scan = ⟨[], [], [], todo⟩)
    (hall : b = true → todo = some []) : View S (x.collected b) rx s := by
  refine (h.forget (c := ⟨[], [], [], if b then some [] else none⟩) ?_ ?_ ?_ ?_).unsweep b
  · simp [hscan]
  · simp [hscan]
  · simp [hscan]
  · cases b with
    | true => exact .inr (by simp [hscan, hall])
    | false => exact .inl rfl

theorem takeAll_spec {rest : List Nat} (hx : x.Calm)
    (hscan : x.scan = ⟨[], [], [], some (group :: rest)⟩) :
    Triple (recvC P S) (fun s => View S x rx s ∧ Found S.aim x.caught s)
      (readyL.access (Ready.takeAll group)) fun word s =>
        View S { x with scan := ⟨pagesOf group word, [], [], some rest⟩ } rx s ∧
          Found S.aim x.caught s :=
  recv_atomic Found.kept.stable (fun _ => Found.kept.stable) fun _ hi h =>
    ⟨.of_view hi h.1 hx.asleep (hi.core.setReady fun _ hp => hp) .setReady rfl rfl,
      h.1.takeGroup hscan hx.quiet, h.2⟩

theorem collectGroups_spec {all : Bool} {n left next : Nat} (hx : x.Calm)
    (hscan : x.scan = ⟨[], [], [], some (groupsFrom n left next)⟩) :
    Triple (recvC P S) (fun s => View S x rx s ∧ Found S.aim x.caught s)
      (Receiver.collectGroups all n left next rx) fun rx' s => Grown rx rx' ∧
        View S (x.collected all) rx' s ∧ Found S.aim x.caught s := by
  induction left generalizing next rx x with
  | zero =>
    refine Triple.ret ((Contract.Stable.pure _).and Found.kept.stable) fun s _ h => ⟨.refl rx, ?_⟩
    exact ⟨h.1.collected hscan fun _ => rfl, h.2⟩
  | succ left ih =>
    rw [Receiver.collectGroups]
    rw [groupsFrom] at hscan
    dsimp only
    generalize (if next < n then next else 0) = g at hscan ⊢
    -- the group was looked at, and the rest follows
    let x₁ : Ctx V := { x with scan := ⟨[], [], [], some (groupsFrom n left (g + 1))⟩ }
    have rest : ∀ rx₁, Grown rx rx₁ → Triple (recvC P S)
        (fun s => View S x₁ rx₁ s ∧ Found S.aim x.caught s)
        (Receiver.collectGroups all n left (g + 1) rx₁) fun rx' s =>
        Grown rx rx' ∧ View S (x.collected all) rx' s ∧ Found S.aim x.caught s := fun rx₁ hg =>
      (ih (x := x₁) { hx with } rfl).post fun rx' s _ h => ⟨hg.trans h.1, h.2⟩
    refine Triple.bind (Q := fun b s => View S (if b then x else x₁) rx s ∧ Found S.aim x.caught s)
      (recv_read Found.kept.stable (fun b => ?_) fun s hi h => ⟨?_, h.2⟩) fun b => ?_
    · cases b <;> exact Found.kept.stable
    · split
      · exact h.1
      · next hb => exact h.1.skipGroup hscan (not_not.mp fun hne => hb (decide_eq_true hne))
    cases b with
    | false => exact rest rx (.refl rx)
    | true =>
      refine Triple.bind (takeAll_spec hx hscan) fun word => ?_
      simp only [if_true]
      split
      · next hw =>
        subst hw
        exact rest rx (.refl rx)
      · refine Triple.seq (collectPages_spec { hx with } rfl) fun rx₁ => ?_
        refine Triple.given (fun s _ h => h.now.1) fun hg => ?_
        have hg' : Grown rx { rx₁ with readyGroupCursor := g + 1 } := ⟨hg.active, hg.items⟩
        cases all with
        | true =>
          refine (rest { rx₁ with readyGroupCursor := g + 1 } hg').pre fun s _ h => ?_
          exact ⟨h.now.2.1.recall _, h.now.2.2⟩
        | false =>
          refine Triple.done fun s _ h => ⟨hg', ?_, h.2.2⟩
          exact (h.2.1.collected (b := false) rfl (by simp)).recall _

end

/-! ## A whole collection -/

theorem ordinarySince_collect (t : List (Event V)) : ordinarySince (t ++ [.collect]) = 0 := by
  simp [ordinarySince]

/-- A collection starts. -/
theorem View.startCollect (h : View S x rx s) :
    View S { x with fresh := true } rx (s.record .collect) := by
  have hsince : ordinarySince (s.record .collect).trace = 0 := ordinarySince_collect s.trace
  refine h.setTrace true (by simp [popped_append]) (.inr (by simp [Event.sparing])) fun hst =>
    { h.budget hst with since := ?_, fresh := fun _ => hsince }
  have := (h.budget hst).items_le
  rw [show ordinarySince (s.trace ++ [.collect]) = 0 from hsince]
  simp only
  omega

theorem record_collect_step (hi : Inv P S.strict s) (hv : View S x rx s) (hx : x.asleep = false) :
    RecvStep P S s (s.record .collect) where
  core := hi.core.setTrace (by simp [popped_append])
  act := { RecvAct.refl P s with
    recorded := .of rfl (by simp) (by simp) (by simp [popped]) fun _ => .inl rfl
    rotation := rotation_append (by simp) }
  awake := hv.awake hx
  trace hst := (hi.trace hst).append _ (by simp) (by simp [ordinarySince_collect])

/-- The todo list of a full round. -/
theorem View.startRound (h : View S x rx s) (hc : Core P s)
    (hseen : rx.seenRegistryGeneration = s.registryGeneration)
    (hscan : x.scan = ⟨[], [], [], none⟩) (next : Nat) :
    View S { x with scan := ⟨[], [], [], some (groupsFrom rx.groups rx.groups next)⟩ } rx s := by
  have hgroups : rx.groups = s.registry.groups := (h.roster.seen_eq hseen).2.2
  have hi := hscan ▸ h.index
  refine h.rescan { hi with } fun ℓ hℓ _ hcov => ?_
  rw [hscan] at hcov
  rcases hcov with hcov | hcov | ⟨hb, hcov⟩
  · exact .inl hcov
  · simp at hcov
  · refine .inr (.inr ⟨hb, hcov.imp_right fun hp => ⟨hp.1, fun groups hgr => ?_⟩⟩)
    cases hgr
    exact mem_groupsFrom (hgroups ▸ hc.group_lt _ (hc.page_lt ℓ hℓ)) next

/-- **A collection that goes all the way comes to every lane that is marked.** -/
theorem collectReady_spec (all : Bool) (hx : x.Calm) (hscan : x.scan = .none) :
    Triple (recvC P S) (View S x rx) (Receiver.collectReady all rx) fun rx' s => Grown rx rx' ∧
      View S ({ x with fresh := true, swept := true }.collected all) rx' s ∧
        Found S.aim x.caught s := by
  refine Triple.bind (Q := fun _ => View S { x with fresh := true } rx)
    (recv_atomic View.stable (fun _ => View.stable) fun s hi hv =>
      ⟨record_collect_step hi hv hx.asleep, hv.startCollect⟩) fun _ => ?_
  refine Triple.seq (refreshRegistry_spec (b := true) (x := { x with fresh := true })
    (Y := fun rx₁ s => Grown rx rx₁ ∧ View S { x with
        fresh := true, swept := true,
        scan := ⟨[], [], [], some (groupsFrom rx₁.groups rx₁.groups rx₁.readyGroupCursor)⟩ } rx₁ s ∧
      Found S.aim x.caught s) { hx with } (by simp [hscan, Scan.none])
    (fun _ => .inr (by simp [hscan, Scan.none]))
    (fun _ => (Contract.Stable.pure _).and Found.kept.stable) fun s rx₁ hc hg hseen hv => ?_)
    fun rx₁ => ?_
  · refine ⟨hg, hv.startRound hc hseen ?_ _, hv.found hc hseen⟩
    simp [hscan, Scan.none, Scan.refreshed]
  · refine Triple.given (fun s _ h => h.now.1) fun hg => ?_
    exact (collectGroups_spec (x := { x with
        fresh := true, swept := true,
        scan := ⟨[], [], [], some (groupsFrom rx₁.groups rx₁.groups rx₁.readyGroupCursor)⟩ })
      { hx with } rfl).conseq (fun s _ h => h.now.2) fun rx₂ s _ h => ⟨hg.trans h.1, h.2⟩

end Fanring.Mpsc
