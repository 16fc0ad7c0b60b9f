import Fanring.Mpsc.RecvStep

/-!
# The MPSC channel: lanes come and go

The receiver adopts the lanes that were registered, and gives up the lanes it retires or closes.
Both change what it holds and what the registry says in one step, so the `View` after the step is
the one of the receiver it is going to be.
-/

set_option autoImplicit false

namespace Fanring.Mpsc

open Conc Chan

variable {V : Type} {P : Params} {S : Setting} {s s' : Chan V} {ℓ : Nat} {x : Ctx V}
  {rx rx' : Receiver} {lane : Lane} {key : LaneKey}

/-! ## Adoption -/

/-- What adopting lanes of different slots does to the receiver. -/
structure Adopted (rx : Receiver) (l : List Lane) (rx' : Receiver) : Prop where
  mem : ∀ lane ∈ l, rx'.lanes lane.key.slot = some lane ∧ rx'.paused lane.key.slot = false ∧
    lane.key.slot < rx'.lanesLen
  other : ∀ slot, (∀ lane ∈ l, lane.key.slot ≠ slot) →
    rx'.lanes slot = rx.lanes slot ∧ rx'.paused slot = rx.paused slot
  lanesLen : rx.lanesLen ≤ rx'.lanesLen
  active : rx'.active = rx.active
  items : rx'.itemsUntilReadyPoll = rx.itemsUntilReadyPoll
  fastSlot : rx'.fastSlot = rx.fastSlot
  lens : rx.pausedLen = rx.lanesLen → rx'.pausedLen = rx'.lanesLen

theorem adopted_foldl (rx : Receiver) (l : List Lane) (hnd : (l.map (·.key.slot)).Nodup) :
    Adopted rx l (l.foldl Receiver.adopt rx) := by
  induction l generalizing rx with
  | nil => exact ⟨by simp, fun _ _ => ⟨rfl, rfl⟩, le_rfl, rfl, rfl, rfl, id⟩
  | cons lane l ih =>
    simp only [List.map_cons, List.nodup_cons, List.mem_map, not_exists, not_and] at hnd
    have h := ih (rx.adopt lane) hnd.2
    refine ⟨fun lane' hm => ?_, fun slot hs => ?_, ?_, h.active, h.items, h.fastSlot,
      fun hlens => h.lens ?_⟩
    · rcases List.mem_cons.mp hm with rfl | hm
      · obtain ⟨h₁, h₂⟩ := h.other lane'.key.slot fun l' hl' heq => hnd.1 l' hl' heq
        refine ⟨by rw [List.foldl_cons, h₁]; simp [Receiver.adopt],
          by rw [List.foldl_cons, h₂]; simp [Receiver.adopt], lt_of_lt_of_le ?_ h.lanesLen⟩
        simp [Receiver.adopt]
      · exact h.mem lane' hm
    · obtain ⟨h₁, h₂⟩ := h.other slot fun l' hl' => hs l' (List.mem_cons_of_mem _ hl')
      have hne := (hs lane List.mem_cons_self).symm
      exact ⟨by rw [List.foldl_cons, h₁]; simp [Receiver.adopt, hne],
        by rw [List.foldl_cons, h₂]; simp [Receiver.adopt, hne]⟩
    · exact le_trans (by simp [Receiver.adopt]) h.lanesLen
    · simp only [Receiver.adopt]
      split <;> omega

/-- Lanes whose slots are empty and different are adopted. -/
theorem adoptAll_eq (l : List Lane) (rx : Receiver) (hnd : (l.map (·.key.slot)).Nodup)
    (hnone : ∀ lane ∈ l, rx.lanes lane.key.slot = none) :
    (Receiver.adoptAll l rx : Prog (Chan V) Receiver) = pure (l.foldl Receiver.adopt rx) := by
  induction l generalizing rx with
  | nil => rfl
  | cons lane l ih =>
    simp only [List.map_cons, List.nodup_cons, List.mem_map, not_exists, not_and] at hnd
    rw [Receiver.adoptAll, hnone lane List.mem_cons_self]
    refine ih (rx.adopt lane) hnd.2 fun lane' hm => ?_
    have hne : lane'.key.slot ≠ lane.key.slot := hnd.1 lane' hm
    simpa [Receiver.adopt, hne] using hnone lane' (List.mem_cons_of_mem _ hm)

/-- The lane a pending registration becomes. -/
def newLane (s : Chan V) (ℓ : Nat) : Lane := Lane.new ℓ (s.key ℓ) (s.ring ℓ).cap

/-- The receiver after it took over the pending lanes and the topology. -/
def Receiver.refreshed (rx : Receiver) (s : Chan V) : Receiver :=
  { (s.registry.pending.map (newLane s)).foldl adopt rx with
    groups := s.registry.groups
    pages := s.registry.pages
    seenRegistryGeneration := s.registryGeneration }

theorem Core.nodup_slots (h : Core P s) :
    ((s.registry.pending.map (newLane s)).map (·.key.slot)).Nodup := by
  rw [List.map_map]
  refine (List.nodup_map_iff_inj_on h.pending_nodup).mpr fun ℓ₁ h₁ ℓ₂ h₂ heq => ?_
  obtain ⟨hlt₁, hst₁⟩ := (h.mem_pending ℓ₁).mp h₁
  obtain ⟨hlt₂, hst₂⟩ := (h.mem_pending ℓ₂).mp h₂
  exact h.slot_unique hlt₁ hlt₂ (by simp [hst₁]) (by simp [hst₂]) heq

theorem Core.adopted (h : Core P s) (rx : Receiver) :
    Adopted rx (s.registry.pending.map (newLane s)) (rx.refreshed s) :=
  { adopted_foldl rx _ h.nodup_slots with }

/-- What the receiver holds after a refresh: a pending lane, or what it held before. -/
theorem refreshed_lanes (h : Core P s) {slot : Nat} {l : Lane}
    (hl : (rx.refreshed s).lanes slot = some l) :
    (∃ ℓ ∈ s.registry.pending, l = newLane s ℓ ∧ (s.key ℓ).slot = slot ∧
      (rx.refreshed s).paused slot = false) ∨
    (∀ ℓ ∈ s.registry.pending, (s.key ℓ).slot ≠ slot) ∧ rx.lanes slot = some l ∧
      (rx.refreshed s).paused slot = rx.paused slot := by
  have ha := h.adopted rx
  by_cases hm : ∃ ℓ ∈ s.registry.pending, (s.key ℓ).slot = slot
  · obtain ⟨ℓ, hm, hs⟩ := hm
    obtain ⟨h₁, h₂, -⟩ := ha.mem _ (List.mem_map_of_mem (f := newLane s) hm)
    simp only [newLane, Lane.new, hs] at h₁ h₂
    exact .inl ⟨ℓ, hm, Option.some.inj (hl.symm.trans h₁), hs, h₂⟩
  · obtain ⟨h₁, h₂⟩ := ha.other slot fun l hl heq => by
      obtain ⟨ℓ, hm', rfl⟩ := List.mem_map.mp hl
      exact hm ⟨ℓ, hm', heq⟩
    exact .inr ⟨fun ℓ hm' heq => hm ⟨ℓ, hm', heq⟩, h₁ ▸ hl, h₂⟩

/-- No two lanes that are not retired share a slot, so the slot of a pending lane is free. -/
theorem View.pending_slot (h : View S x rx s) (hc : Core P s) (hm : ℓ ∈ s.registry.pending) :
    rx.lanes (s.key ℓ).slot = none := by
  obtain ⟨hlt, hst⟩ := (hc.mem_pending ℓ).mp hm
  by_contra hne
  obtain ⟨l, hl⟩ := Option.ne_none_iff_exists'.mp hne
  obtain ⟨hk, hsl, hlt', hst', -⟩ := h.roster.held _ _ (Receiver.skel_lane hl)
  have := hc.slot_unique hlt hlt' (by simp [hst]) (by simp [hst']) (by rw [← hk, hsl])
  rw [this, hst'] at hst
  simp at hst

/-- What the receiver held, it still holds after a refresh. -/
theorem View.refreshed_old {slot : Nat} {l : Lane} (h : View S x rx s) (hc : Core P s)
    (hl : rx.lanes slot = some l) : (rx.refreshed s).lanes slot = some l ∧
      (rx.refreshed s).paused slot = rx.paused slot := by
  have := (hc.adopted rx).other slot fun l' hl' heq => by
    obtain ⟨ℓ, hm, rfl⟩ := List.mem_map.mp hl'
    have hno := h.pending_slot hc hm
    rw [show (s.key ℓ).slot = slot from heq, hl] at hno
    simp at hno
  exact ⟨this.1.trans hl, this.2⟩

theorem takePending_stage (s : Chan V) (ℓ : Nat) :
    (Receiver.takePending s).2.stage ℓ = .adopted ↔
      s.stage ℓ = .adopted ∨ ℓ ∈ s.registry.pending := by
  simp only [Receiver.takePending]
  split
  · next hm => simp [hm]
  · next hm => simp [hm]

theorem takePending_stage_ne (hc : Core P s) (hℓ : ℓ < s.count) :
    (Receiver.takePending s).2.stage ℓ ≠ .pending := by
  simp only [Receiver.takePending]
  split
  · simp
  · next hm => exact fun hst => hm ((hc.mem_pending ℓ).mpr ⟨hℓ, hst⟩)

theorem Roster.refresh (h : View S x rx s) (hc : Core P s) :
    Roster (rx.refreshed s).skel x.out (Receiver.takePending s).2 := by
  have ha := hc.adopted rx
  have hget : ∀ {slot e}, (rx.refreshed s).book.lane slot = some e →
      ∃ l, (rx.refreshed s).lanes slot = some l ∧ e = l.skel := fun he => by
    obtain ⟨l, hl, rfl⟩ := Option.map_eq_some_iff.mp he
    exact ⟨l, hl, rfl⟩
  refine
    { held := fun slot e he => ?_
      slot_lt := fun slot e he => ?_
      adopted := fun ℓ hℓ hst hsh => ?_
      fresh := fun ℓ hℓ hst => absurd hst (takePending_stage_ne hc hℓ)
      nodup := (congrArg List.Nodup ha.active).mpr h.roster.nodup
      queued := fun key => ?_
      out := fun key hk hm => h.roster.out key hk ((congrArg (key ∈ ·) ha.active).mp hm)
      paused := fun slot e he hp => ?_
      vacant := fun slot hnone => ?_
      lens := ha.lens h.roster.lens
      seen_le := le_rfl
      seen_eq := fun _ => ⟨rfl, rfl, rfl⟩
      group_lt := hc.group_lt }
  · obtain ⟨l, hl, rfl⟩ := hget he
    rcases refreshed_lanes hc hl with ⟨ℓ, hm, rfl, hs, -⟩ | ⟨-, hl', -⟩
    · obtain ⟨hlt, hst⟩ := (hc.mem_pending ℓ).mp hm
      exact ⟨rfl, hs, hlt, (takePending_stage s ℓ).mpr (.inr hm), h.roster.fresh ℓ hlt hst⟩
    · obtain ⟨h₁, h₂, h₃, h₄, h₅⟩ := h.roster.held _ _ (Receiver.skel_lane hl')
      exact ⟨h₁, h₂, h₃, (takePending_stage s _).mpr (.inl h₄), h₅⟩
  · obtain ⟨l, hl, rfl⟩ := hget he
    rcases refreshed_lanes hc hl with ⟨ℓ, hm, rfl, hs, -⟩ | ⟨-, hl', -⟩
    · have := (ha.mem _ (List.mem_map_of_mem (f := newLane s) hm)).2.2
      simp only [newLane, Lane.new, hs] at this
      exact ⟨this, hs ▸ hc.page_lt ℓ ((hc.mem_pending ℓ).mp hm).1⟩
    · obtain ⟨h₁, h₂, h₃, -⟩ := h.roster.held _ _ (Receiver.skel_lane hl')
      refine ⟨lt_of_lt_of_le (h.roster.slot_lt _ _ (Receiver.skel_lane hl')).1 ha.lanesLen, ?_⟩
      rw [← h₂, h₁]
      exact hc.page_lt _ h₃
  · rcases (takePending_stage s ℓ).mp hst with hst | hm
    · obtain ⟨e, he, hix⟩ := h.roster.adopted ℓ hℓ hst hsh
      obtain ⟨l, hl, rfl⟩ := Option.map_eq_some_iff.mp he
      exact ⟨l.skel, Receiver.skel_lane (h.refreshed_old hc hl).1, hix⟩
    · have := (ha.mem _ (List.mem_map_of_mem (f := newLane s) hm)).1
      exact ⟨(newLane s ℓ).skel, Receiver.skel_lane this, rfl⟩
  · rw [show (rx.refreshed s).skel.active = rx.active from ha.active]
    refine (h.roster.queued key).trans ⟨?_, ?_⟩
    · rintro ⟨e, he, hk, hq⟩
      obtain ⟨l, hl, rfl⟩ := Option.map_eq_some_iff.mp he
      exact ⟨l.skel, Receiver.skel_lane (h.refreshed_old hc hl).1, hk, hq⟩
    · rintro ⟨e, he, hk, hq⟩
      obtain ⟨l, hl, rfl⟩ := hget he
      rcases refreshed_lanes hc hl with ⟨ℓ, hm, rfl, -⟩ | ⟨-, hl', -⟩
      · simp [newLane, Lane.new, Lane.skel] at hq
      · exact ⟨l.skel, Receiver.skel_lane hl', hk, hq⟩
  · obtain ⟨l, hl, rfl⟩ := hget he
    rcases refreshed_lanes hc hl with ⟨ℓ, hm, rfl, -, -⟩ | ⟨-, hl', hp'⟩
    · rfl
    · exact h.roster.paused slot _ (Receiver.skel_lane hl') (by rw [← hp]; exact hp'.symm)
  · have hnone : (rx.refreshed s).lanes slot = none := Option.map_eq_none_iff.mp hnone
    have hold : ∀ lane ∈ s.registry.pending.map (newLane s), lane.key.slot ≠ slot := by
      rintro lane hm rfl
      exact absurd (hnone.symm.trans (ha.mem lane hm).1) (by simp)
    obtain ⟨hl, hp⟩ := ha.other slot hold
    refine hp.trans (h.roster.vacant slot ?_)
    exact Option.map_eq_none_iff.mpr (hl.symm.trans hnone)

theorem LaneOk.new (hc : Core P s) (hst : s.stage ℓ = .pending) (hsh : s.shut ℓ = false) :
    LaneOk s (newLane s ℓ) := by
  obtain ⟨h₁, h₂, h₃⟩ := (hc.lane ℓ).fresh hst hsh
  have hcap := (hc.lane ℓ).ok.cap_pos
  refine ⟨⟨rfl, ?_, ?_, rfl, Nat.zero_le _, Nat.zero_le _, le_rfl⟩, ?_, Nat.zero_lt_succ _⟩
  · simp [newLane, Lane.new, h₁, h₂]
  · simp [newLane, Lane.new, h₁, h₃]
  · simp only [newLane, Lane.new, minReleaseBatch]
    omega

/-- What is taken out of the index, after a refresh. -/
def Scan.refreshed (c : Scan) (pages : Nat) : Scan := ⟨c.cp.filter (· < pages), c.cl, [], c.todo⟩

theorem View.listed_refreshed {slot : Nat} (h : View S x rx s) (hc : Core P s)
    (hlisted : Listed rx.book slot) : Listed (rx.refreshed s).book slot := by
  obtain ⟨e, he, hq⟩ := hlisted
  obtain ⟨l, hl, rfl⟩ := Option.map_eq_some_iff.mp he
  exact ⟨l.skel, Receiver.skel_lane (h.refreshed_old hc hl).1, hq⟩

theorem View.covered_refreshed {slot : Nat} (h : View S x rx s) (hc : Core P s)
    (hcov : Covered rx.book x.scan s slot) (hpage : slot / lanesPerPage < s.registry.pages) :
    Covered (rx.refreshed s).book (x.scan.refreshed s.registry.pages)
      (Receiver.takePending s).2 slot := by
  rcases hcov with hlisted | hcl | ⟨hb, hcov⟩
  · exact .inl (h.listed_refreshed hc hlisted)
  · exact .inr (.inl hcl)
  · exact .inr (.inr ⟨hb, hcov.imp_left fun hcp => List.mem_filter.mpr ⟨hcp, by simpa using hpage⟩⟩)

/-- Once every lane is adopted, the index says where each marked one is. -/
theorem Index.clear {k : Book} {c : Scan} {a : Aim} {b : Bool} (h : Index k none c s)
    (haim : AimOk a k c b s) (hc : Core P s) (htodo : c.todo = none)
    (hheld : ∀ slot e, k.lane slot = some e → e.ix < s.count)
    (hfresh : ∀ ℓ < s.count, s.stage ℓ ≠ .pending) : Told a s ∨ Clear k c s := by
  by_cases htold : Told a s
  · exact .inl htold
  have hno : ∀ ℓ < s.count, (s.phase ℓ = .swapped ∨ s.phase ℓ = .paged) → False := by
    intro ℓ hℓ hph
    have hgone : s.gone ℓ = false := by
      by_contra hg
      have := (hc.gone ℓ (by simpa using hg)).2
      rcases hph with hph | hph <;> simp [hph] at this
    refine htold (.of_announcing haim hgone hℓ le_rfl ?_)
    rcases hph with hph | hph <;> simp [hph, Phase.announcing]
  refine .inr ⟨fun ℓ hℓ hst => absurd hst (hfresh ℓ hℓ), fun slot e he hp => ?_⟩
  rcases (h.held slot e he (by simp)).marked hp with (hpa | hq | hcl) | hb | hsw
  · exact .inl hpa
  · exact .inr (.inl ⟨e, he, hq⟩)
  · exact .inr (.inr (.inl hcl))
  · refine .inr (.inr (.inr ⟨hb, ?_⟩))
    rcases h.page _ (Ready.page_ne_zero_of_laneBit hb) with hcp | hpb | ⟨ℓ, hℓ, hph, -⟩
    · exact .inl hcp
    · exact .inr ⟨hpb, by simp [htodo]⟩
    · exact absurd (hno ℓ hℓ (.inr hph)) id
  · exact absurd (hno e.ix (hheld slot e he) (.inl hsw)) id

theorem Index.refresh (h : View S x rx s) (hc : Core P s) (hex : x.exempt = none)
    (hcu : x.scan.cu ⊆ x.scan.cl) :
    Index (rx.refreshed s).book none (x.scan.refreshed s.registry.pages)
      (Receiver.takePending s).2 := by
  refine ⟨fun slot e he _ => ?_, fun ℓ hℓ hst => absurd hst (takePending_stage_ne hc hℓ),
    fun p hp => ?_⟩
  · obtain ⟨l, hl, rfl⟩ := Option.map_eq_some_iff.mp he
    rcases refreshed_lanes hc hl with ⟨ℓ, hm, rfl, hs, hp⟩ | ⟨-, hl', hp⟩
    · obtain ⟨hlt, hst⟩ := (hc.mem_pending ℓ).mp hm
      have := h.index.fresh ℓ hlt hst
      rw [hs] at this
      exact
        { marked := fun hp => (this.marked hp).imp_left fun h => .inr (.inr (hcu h))
          idle := this.idle
          swapped := fun hp => (this.swapped hp).imp_left False.elim
          resumed := this.resumed.imp_left False.elim }
    · have := h.indexed hl' hex
      rw [← hp] at this
      exact { this with }
  · refine (h.index.page p hp).imp_left fun hcp => List.mem_filter.mpr ⟨hcp, ?_⟩
    simpa using hc.word_lt p hp

theorem AimOk.refresh (h : View S x rx s) (hc : Core P s) :
    AimOk S.aim (rx.refreshed s).book (x.scan.refreshed s.registry.pages) x.caught
      (Receiver.takePending s).2 := by
  have hpaused : ∀ ℓ < s.count, s.stage ℓ ≠ .retired → s.shut ℓ = false →
      (rx.refreshed s).paused (s.key ℓ).slot = false ∧ s.stage ℓ = .pending ∨
      (rx.refreshed s).paused (s.key ℓ).slot = rx.paused (s.key ℓ).slot ∧
        s.stage ℓ = .adopted := by
    intro ℓ hℓ hst hsh
    cases hs : s.stage ℓ with
    | pending =>
      have hm := (hc.mem_pending ℓ).mpr ⟨hℓ, hs⟩
      exact .inl ⟨((hc.adopted rx).mem _ (List.mem_map_of_mem (f := newLane s) hm)).2.1, rfl⟩
    | adopted =>
      obtain ⟨e, he, -⟩ := h.roster.adopted ℓ hℓ hs hsh
      obtain ⟨l, hl, rfl⟩ := Option.map_eq_some_iff.mp he
      exact .inr ⟨(h.refreshed_old hc hl).2, rfl⟩
    | retired => exact absurd hs hst
  refine h.aim.step le_rfl rfl id (fun ℓ n _ _ ht => { ht with
      stage := ?_
      pending := ht.pending.imp_right (h.listed_refreshed hc)
      unpaused := fun _ => ?_
      covered := h.covered_refreshed hc ht.covered (hc.page_lt ℓ ht.lt) })
    fun all hall ℓ hℓ hst hsh hp => hall ℓ hℓ ?_ hsh ?_
  · simp only [Receiver.takePending]
    split
    · simp
    · exact ht.stage
  · rcases hpaused ℓ ht.lt ht.stage ht.shut with ⟨hp, -⟩ | ⟨hp, hst⟩
    · exact hp
    · exact hp.trans (ht.unpaused hst)
  · intro hr
    refine hst ?_
    simp only [Receiver.takePending]
    split
    · next hm => simp [((hc.mem_pending ℓ).mp hm).2] at hr
    · exact hr
  · have hst' : s.stage ℓ ≠ .retired := by
      intro hr
      refine hst ?_
      simp only [Receiver.takePending]
      split
      · next hm => simp [((hc.mem_pending ℓ).mp hm).2] at hr
      · exact hr
    rcases hpaused ℓ hℓ hst' hsh with ⟨-, hs⟩ | ⟨hpa, -⟩
    · exact .inr (.inl hs)
    · rcases hp with hp | hp | hp
      · exact .inl hp
      · exact absurd hp (takePending_stage_ne hc hℓ)
      · exact .inr (.inr (hpa.symm.trans hp))

theorem View.spared_refreshed {n : Nat} (h : View S x rx s) (hc : Core P s)
    (hs : Spared rx.book ℓ n s) :
    Spared (rx.refreshed s).book ℓ n (Receiver.takePending s).2 :=
  { hs with
    stage := takePending_stage_ne hc hs.lt
    paused := fun hst => by
      rcases (takePending_stage s ℓ).mp hst with hst | hm
      · obtain ⟨e, he, -⟩ := h.roster.adopted ℓ hs.lt hst hs.shut
        obtain ⟨l, hl, -⟩ := Option.map_eq_some_iff.mp he
        exact (h.refreshed_old hc hl).2.trans (hs.paused hst)
      · exact absurd ((hc.mem_pending ℓ).mp hm).2 hs.stage }

/-- **The receiver adopts every lane that was registered.** -/
theorem View.refresh (h : View S x rx s) (hc : Core P s) (hex : x.exempt = none)
    (hcu : x.scan.cu ⊆ x.scan.cl) (hquiet : x.quiet = false) {b : Bool}
    (hb : b = true → x.swept = true ∨ x.scan.todo = none) :
    View S { x with exempt := none, scan := x.scan.refreshed s.registry.pages, swept := b }
      (rx.refreshed s) (Receiver.takePending s).2 := by
  have ha := hc.adopted rx
  have hroster := Roster.refresh h hc
  have hindex := Index.refresh h hc hex hcu
  have haim := AimOk.refresh h hc
  refine
    { h with
      roster := hroster
      index := hindex
      counters := fun slot l hl hx => ?_
      fast := fun slot l hl hx hpos => by
        rcases refreshed_lanes hc hl with ⟨ℓ, hm, rfl, -⟩ | ⟨-, hl', -⟩
        · simp [newLane, Lane.new] at hpos
        · have := h.fast slot l hl' hx hpos
          rw [ha.active, ha.items, ha.fastSlot]
          exact this
      idle := fun slot l hl hx hp hq => by
        rcases refreshed_lanes hc hl with ⟨ℓ, hm, rfl, -⟩ | ⟨-, hl', hp'⟩
        · rfl
        · exact h.idle slot l hl' hx (hp'.symm.trans hp) hq
      items_lt := ha.items ▸ h.items_lt
      closing := fun ℓ hℓ hst hsh => by
        rcases (takePending_stage s ℓ).mp hst with hst | hm
        · exact h.closing ℓ hℓ hst hsh
        · have hf := h.roster.fresh ℓ hℓ ((hc.mem_pending ℓ).mp hm).2
          rw [show s.shut ℓ = true from hsh] at hf
          simp at hf
      budget := fun hst =>
        { items_le := ha.items ▸ (h.budget hst).items_le
          since := ha.items ▸ (h.budget hst).since
          unc_le := ha.items ▸ (h.budget hst).unc_le
          fresh := (h.budget hst).fresh }
      swept := fun hb' => ?_
      quiet := by simp [hquiet]
      aim := haim
      keep := fun ℓ n hk => h.spared_refreshed hc (h.keep ℓ n hk)
      scan := fun ℓ t ht => (h.scan ℓ t ht).rebook fun slot e he hix hq => by
        obtain ⟨l, hl, rfl⟩ := Option.map_eq_some_iff.mp he
        exact .inr ⟨slot, _, Receiver.skel_lane (h.refreshed_old hc hl).1, hix, hq⟩
      wait := fun w hw => (h.wait w hw).imp fun hq => ?_ }
  · rcases refreshed_lanes hc hl with ⟨ℓ, hm, rfl, -⟩ | ⟨-, hl', -⟩
    · obtain ⟨hlt, hst⟩ := (hc.mem_pending ℓ).mp hm
      have := LaneOk.new hc hst (h.roster.fresh ℓ hlt hst)
      exact this.frame (.refl _)
    · exact (h.counters slot l hl' hx).frame (.refl _)
  · rcases hb hb' with hsw | htodo
    · refine (h.swept hsw).imp_right fun hcl => ⟨fun ℓ hℓ hst =>
        absurd hst (takePending_stage_ne hc hℓ), fun slot e he hp => ?_⟩
      have hpage := (hroster.slot_lt slot e he).2
      obtain ⟨l, hl, rfl⟩ := Option.map_eq_some_iff.mp he
      rcases refreshed_lanes hc hl with ⟨ℓ, hm, rfl, -⟩ | ⟨-, hl', hpa⟩
      · obtain ⟨hlt, hst⟩ := (hc.mem_pending ℓ).mp hm
        have := hcl.1 ℓ hlt hst
        rw [show s.ready.pending ℓ = true from hp] at this
        simp at this
      · refine (hcl.2 slot _ (Receiver.skel_lane hl') hp).imp (fun h' => hpa.trans h')
          fun hcov => ?_
        exact h.covered_refreshed hc hcov hpage
    · exact hindex.clear haim hc.takePending htodo (fun slot e he => (hroster.held slot e he).2.2.1)
        fun ℓ hℓ => takePending_stage_ne hc hℓ
  · -- the lanes of the rotation are held already
    have hsame : ∀ key ∈ x.out.toList ++ rx.active,
        (rx.refreshed s).lanes key.slot = rx.lanes key.slot := fun key hm => by
      obtain ⟨l, hl, -⟩ := h.rotation_queued hm
      rw [(h.refreshed_old hc hl).1, hl]
    rw [ha.active]
    refine hq.move (fun l hl hk => ⟨l, (h.refreshed_old hc hl).1, hk, rfl⟩) hq.fresh fun n hb => ?_
    refine hb.mono (fun key hm => ?_) (fun key hm hlate => ?_) le_rfl
    · simp only [allowance, hsame key (List.dropLast_subset _ hm)]
      exact le_rfl
    · rwa [Wait.Late, hsame key hm] at hlate

/-- A receiver that finds the registry as it left it has adopted every lane. -/
theorem View.uptodate (h : View S x rx s) (hc : Core P s)
    (hseen : rx.seenRegistryGeneration = s.registryGeneration) (hex : x.exempt = none)
    (hcu : x.scan.cu ⊆ x.scan.cl) (hquiet : x.quiet = false) {b : Bool}
    (hb : b = true → x.swept = true ∨ x.scan.todo = none) :
    View S { x with exempt := none, scan := x.scan.refreshed rx.pages, swept := b } rx s := by
  obtain ⟨hpe, hpa, hgr⟩ := h.roster.seen_eq hseen
  have hs : (Receiver.takePending s).2 = s := by
    simp only [Receiver.takePending, hpe, List.not_mem_nil, if_false]
    rw [← hpe]
  have hrx : rx.refreshed s = rx := by
    simp only [Receiver.refreshed, hpe, List.map_nil, List.foldl_nil, ← hseen,
      ← show rx.pages = s.registry.pages from hpa, ← show rx.groups = s.registry.groups from hgr]
  have := h.refresh hc hex hcu hquiet hb
  rwa [hs, hrx, ← show rx.pages = s.registry.pages from hpa] at this

/-! ## Retirement -/

/-- The receiver without the lane in this slot. -/
def Receiver.without (rx : Receiver) (key : LaneKey) : Receiver :=
  { rx with
    lanes := Function.update rx.lanes key.slot none
    paused := Function.update rx.paused key.slot false
    active := rx.active.filter (· ≠ key) }

section

variable {l₀ : Lane} {n : Nat} {ring : Nat → Ring V} {stage : Nat → Stage} {shut : Nat → Bool}
  {owed : Nat → Owed}

theorem Roster.without (h : View S x rx s) (hl₀ : rx.lanes key.slot = some l₀)
    (hkey : l₀.key = key) (hout : ∀ k, x.out = some k → k = key)
    (hstage : ∀ ℓ, ℓ ≠ l₀.ix → stage ℓ = s.stage ℓ) (hshut : ∀ ℓ, ℓ ≠ l₀.ix → shut ℓ = s.shut ℓ)
    (hgone : stage l₀.ix = .retired ∨ stage l₀.ix = .adopted ∧ shut l₀.ix = true) :
    Roster (rx.without key).skel none
      { s with
        registeredLanes := n, ring := ring, stage := stage, shut := shut, owed := owed } := by
  have hr := h.roster
  have he := Receiver.skel_lane hl₀
  have hbook : (rx.without key).book =
      rx.book.set key.slot none (Function.update rx.paused key.slot false) := by
    simp only [Receiver.book, Receiver.without, Book.set, Book.mk.injEq, and_true]
    funext slot
    by_cases hs : slot = key.slot
    · subst hs
      simp
    · simp [hs]
  have hold : ∀ {slot e}, (rx.without key).skel.lane slot = some e → slot ≠ key.slot ∧
      rx.book.lane slot = some e := fun {slot e} h' => by
    have h' : (rx.without key).book.lane slot = some e := h'
    rw [hbook] at h'
    rcases Book.set_some h' with ⟨-, h'⟩ | h'
    · simp at h'
    · exact h'
  have hkeep : ∀ {slot}, slot ≠ key.slot →
      (rx.without key).skel.lane slot = rx.book.lane slot := fun {slot} hs => by
    show (rx.without key).book.lane slot = _
    rw [hbook, Book.set_of_ne hs]
  refine
    { held := fun slot e h' => ?_
      slot_lt := fun slot e h' => hr.slot_lt slot e (hold h').2
      adopted := fun ℓ hℓ hst hsh => ?_
      fresh := fun ℓ hℓ hst => ?_
      nodup := hr.nodup.filter _
      queued := fun k => ?_
      out := by simp
      paused := fun slot e h' hp => hr.paused slot e (hold h').2 ?_
      vacant := fun slot h' => ?_
      lens := hr.lens
      seen_le := hr.seen_le
      seen_eq := hr.seen_eq
      group_lt := hr.group_lt }
  · obtain ⟨hs, he'⟩ := hold h'
    have hne := hr.ix_ne he hs he'
    obtain ⟨h₁, h₂, h₃, h₄, h₅⟩ := hr.held slot e he'
    exact ⟨h₁, h₂, h₃, (hstage _ hne).trans h₄, (hshut _ hne).trans h₅⟩
  · have hne : ℓ ≠ l₀.ix := by
      rintro rfl
      rcases hgone with hg | ⟨-, hg⟩
      · exact absurd (hst.symm.trans hg) (by simp)
      · exact absurd (hsh.symm.trans hg) (by simp)
    obtain ⟨e, he', hix⟩ := hr.adopted ℓ hℓ ((hstage ℓ hne).symm.trans hst)
      ((hshut ℓ hne).symm.trans hsh)
    refine ⟨e, (hkeep fun hs => hne ?_).trans he', hix⟩
    rw [hs] at he'
    cases he.symm.trans he'
    exact hix.symm
  · have hne : ℓ ≠ l₀.ix := by
      rintro rfl
      rcases hgone with hg | ⟨hg, -⟩ <;> exact absurd (hst.symm.trans hg) (by simp)
    exact (hshut ℓ hne).trans (hr.fresh ℓ hℓ ((hstage ℓ hne).symm.trans hst))
  · show k ∈ rx.active.filter (· ≠ key) ∨ none = some k ↔ _
    simp only [List.mem_filter, decide_eq_true_eq, reduceCtorEq, or_false]
    constructor
    · rintro ⟨hm, hne⟩
      obtain ⟨e, he', hk, hq⟩ := (hr.queued k).mp (.inl hm)
      refine ⟨e, (hkeep fun hs => hne ?_).trans he', hk, hq⟩
      rw [hs] at he'
      cases he.symm.trans he'
      rw [← hk, ← hkey]
      rfl
    · rintro ⟨e, he', hk, hq⟩
      obtain ⟨hs, he'⟩ := hold he'
      have hne : k ≠ key := fun h => hs (by rw [h])
      exact ⟨((hr.queued k).mpr ⟨e, he', hk, hq⟩).resolve_right fun h' => hne (hout k h'), hne⟩
  · have hs := (hold h').1
    simpa [Receiver.skel, Receiver.book, Receiver.without, hs] using hp
  · by_cases hs : slot = key.slot
    · subst hs
      exact Function.update_self ..
    · exact (Function.update_of_ne hs ..).trans (hr.vacant slot ((hkeep hs).symm.trans h'))

theorem ne_some {o : Option Nat} {a b : Nat} (h : o = none ∨ o = some a) (hne : b ≠ a) :
    o ≠ some b := by
  rcases h with rfl | rfl
  · simp
  · simpa using hne.symm

theorem head?_filter_ne {l : List LaneKey} {k : LaneKey} (h : l.head? = some k) (hne : k ≠ key) :
    (l.filter (· ≠ key)).head? = some k := by
  cases l with
  | nil => simp at h
  | cons k' l =>
    obtain rfl : k' = k := by simpa using h
    simp [hne]

/-- A lane that is held is registered. -/
theorem View.not_over {slot : Nat} {l : Lane} (h : View S x rx s) (hc : Core P s)
    (hl : rx.lanes slot = some l) : S.done = false := by
  by_contra ho
  obtain ⟨-, -, hlt, hst, -⟩ := h.roster.held slot _ (Receiver.skel_lane hl)
  have hpos : 0 < Mpsc.laneCount s.count s.stage :=
    Finset.card_pos.mpr ⟨l.skel.ix, by simp [hlt, hst]⟩
  have := hc.registered.symm.trans (h.done (by simpa using ho)).2
  omega

/-- **The receiver gives a lane up**, in the step that retires it or starts to close it. -/
theorem View.without {o : Option (Nat × Owed)} {c : Option Nat} (h : View S x rx s) (hc : Core P s)
    (hl₀ : rx.lanes key.slot = some l₀) (hkey : l₀.key = key)
    (hout : ∀ k, x.out = some k → k = key)
    (hex : x.exempt = none ∨ x.exempt = some l₀.ix) (hhot : x.hot = none ∨ x.hot = some l₀.ix)
    (hquiet : x.quiet = false) (hmiss : Misses S.aim x.caught l₀.ix)
    (hring : ∀ ℓ, ℓ ≠ l₀.ix → ring ℓ = s.ring ℓ) (hstage : ∀ ℓ, ℓ ≠ l₀.ix → stage ℓ = s.stage ℓ)
    (hshut : ∀ ℓ, ℓ ≠ l₀.ix → shut ℓ = s.shut ℓ)
    (hgone : stage l₀.ix = .retired ∨ stage l₀.ix = .adopted ∧ shut l₀.ix = true)
    (hclosing : ∀ ℓ < s.count, stage ℓ = .adopted → shut ℓ = true → c = some ℓ)
    (howed : OwedOk o { s with ring := ring, owed := owed })
    (hspare : ∀ n, S.keep = some (l₀.ix, n) → stage l₀.ix = .retired ∧ shut l₀.ix = false)
    (hscan : l₀.queued = false ∨ Passed S l₀.ix s.trace)
    (hturned : l₀.queued = false ∨ Turned S l₀.ix (popped s.trace))
    {m : Nat} (hleft : ∀ dry, S.aim = .alone dry → n ≤ m) :
    View S { x with
        out := none, hot := none, taken := 0, exempt := none, owed := o, closing := c, left := m }
      (rx.without key)
      { s with
        registeredLanes := n, ring := ring, stage := stage, shut := shut, owed := owed } := by
  have he := Receiver.skel_lane hl₀
  obtain ⟨hk₀, hsl₀, hlt₀, hst₀, -⟩ := h.roster.held _ _ he
  have hold : ∀ {slot l}, (rx.without key).lanes slot = some l → slot ≠ key.slot ∧
      rx.lanes slot = some l := fun {slot l} hl => by
    by_cases hs : slot = key.slot
    · simp [Receiver.without, hs] at hl
    · exact ⟨hs, by simpa [Receiver.without, hs] using hl⟩
  have hold' : ∀ {slot e}, (rx.without key).book.lane slot = some e → slot ≠ key.slot ∧
      rx.book.lane slot = some e := fun {slot e} h' => by
    obtain ⟨l, hl, rfl⟩ := Option.map_eq_some_iff.mp h'
    exact ⟨(hold hl).1, Receiver.skel_lane (hold hl).2⟩
  have hkeep : ∀ {slot}, slot ≠ key.slot → (rx.without key).book.lane slot = rx.book.lane slot ∧
      (rx.without key).paused slot = rx.paused slot := fun {slot} hs => by
    simp [Receiver.book, Receiver.without, hs]
  have hixne : ∀ {slot l}, slot ≠ key.slot → rx.lanes slot = some l → l.ix ≠ l₀.ix :=
    fun hs hl => h.roster.ix_ne he hs (Receiver.skel_lane hl)
  have hlisted : ∀ {slot}, slot ≠ key.slot → Listed rx.book slot →
      Listed (rx.without key).book slot := by
    rintro slot hs ⟨e, he', hq⟩
    exact ⟨e, (hkeep hs).1.trans he', hq⟩
  have hcov : ∀ {slot}, slot ≠ key.slot → Covered rx.book x.scan s slot →
      Covered (rx.without key).book x.scan s slot := fun hs hcov => hcov.rebook (hlisted hs)
  -- the lanes that are left have slots of their own
  have hslot : ∀ ℓ < s.count, ℓ ≠ l₀.ix → s.stage ℓ ≠ .retired → (s.key ℓ).slot ≠ key.slot := by
    intro ℓ hℓ hne hst hs
    refine hne (hc.slot_unique hℓ hlt₀ hst ?_ ?_)
    · exact fun hr => absurd (hst₀.symm.trans hr) (by simp)
    · rw [hs, ← show l₀.key = s.key l₀.ix from hk₀]
      exact hsl₀.symm
  refine
    { h with
      roster := Roster.without h hl₀ hkey hout hstage hshut hgone
      index :=
        { held := fun slot e h' _ => ?_
          fresh := fun ℓ hℓ hst => ?_
          page := h.index.page }
      counters := fun slot l hl _ => ?_
      fast := fun slot l hl _ hpos => ?_
      idle := fun slot l hl _ hp => by
        obtain ⟨hs, hl'⟩ := hold hl
        exact h.idle slot l hl' (ne_some hhot (hixne hs hl')) ((hkeep hs).2.symm.trans hp)
      owed := howed
      closing := hclosing
      budget := fun hst => { h.budget hst with }
      swept := fun hx => (h.swept hx).imp_right fun hcl =>
        ⟨fun ℓ hℓ hst => ?_, fun slot e h' hp => ?_⟩
      quiet := by simp [hquiet]
      aim := h.aim.step le_rfl rfl id (fun ℓ m ha hb ht => ?_) fun all hall ℓ hℓ hst hsh hp => ?_
      keep := fun ℓ m hk => ?_
      scan := fun ℓ t ht => (h.scan ℓ t ht).rebook fun slot e he' hix hq => by
        by_cases hs : slot = key.slot
        · subst hs
          cases he.symm.trans he'
          cases hix
          rcases hscan with hno | hpass
          · exact absurd (hno.symm.trans hq) (by simp)
          · exact .inl (hpass t ht)
        · exact .inr ⟨slot, e, (hkeep hs).1.trans he', hix, hq⟩
      left := hleft
      done := fun ho => absurd ((h.not_over hc hl₀).symm.trans ho) (by simp)
      wait := fun w hw => ?_ }
  · obtain ⟨hs, he'⟩ := hold' h'
    have hne := h.roster.ix_ne he hs he'
    have := h.index.held slot e he' (ne_some hex hne)
    have hpa : (rx.without key).paused slot = rx.paused slot := (hkeep hs).2
    have hr := hring e.ix hne
    exact
      { marked := fun hp => by
          have := this.marked hp
          simpa only [Receiver.book, hpa] using this
        idle := fun hp => by
          show _ ≤ (ring e.ix).head ∧ _
          rw [hr]
          exact this.idle hp
        swapped := fun hp => by
          show _ ∨ _ ≤ (ring e.ix).head
          have := this.swapped hp
          simpa only [Receiver.book, hpa, hr] using this
        resumed := by
          show _ ∨ _ ≤ (ring e.ix).head
          have := this.resumed
          simpa only [Receiver.book, hpa, hr] using this }
  · have hne : ℓ ≠ l₀.ix := by
      rintro rfl
      rcases hgone with hg | ⟨hg, -⟩ <;> exact absurd (hst.symm.trans hg) (by simp)
    have := h.index.fresh ℓ hℓ ((hstage ℓ hne).symm.trans hst)
    have hr := hring ℓ hne
    exact
      { this with
        idle := fun hp => by
          show _ ≤ (ring ℓ).head ∧ _
          rw [hr]
          exact this.idle hp
        swapped := fun hp => by
          show _ ∨ _ ≤ (ring ℓ).head
          rw [hr]
          exact this.swapped hp
        resumed := by
          show _ ∨ _ ≤ (ring ℓ).head
          rw [hr]
          exact this.resumed }
  · obtain ⟨hs, hl'⟩ := hold hl
    have hne := hixne hs hl'
    have := h.counters slot l hl' (ne_some hhot hne)
    refine this.frame ?_
    show RingFrame (s.ring l.ix) (ring l.ix)
    rw [hring _ hne]
    exact .refl _
  · obtain ⟨hs, hl'⟩ := hold hl
    have hne := hixne hs hl'
    have hf := h.fast slot l hl' (ne_some hhot hne) hpos
    have hkne : l.key ≠ key := fun hk => hs (by rw [← h.slot_of_key hl', hk])
    refine ⟨?_, hf.2⟩
    have hf' := hf.1
    cases hx : x.out with
    | some k =>
      rw [hx] at hf'
      exact absurd ((Option.some.inj hf').symm.trans (hout k hx)) hkne
    | none =>
      rw [hx] at hf'
      exact head?_filter_ne hf' hkne
  · have hne : ℓ ≠ l₀.ix := by
      rintro rfl
      rcases hgone with hg | ⟨hg, -⟩ <;> exact absurd (hst.symm.trans hg) (by simp)
    exact hcl.1 ℓ hℓ ((hstage ℓ hne).symm.trans hst)
  · obtain ⟨hs, he'⟩ := hold' h'
    exact (hcl.2 slot e he' hp).imp (fun h' => (hkeep hs).2.trans h') (hcov hs)
  · have hne : ℓ ≠ l₀.ix := hmiss ℓ m ha hb
    have hs := hslot ℓ ht.lt hne ht.stage
    exact
      { lt := ht.lt
        key := ht.key
        stage := fun hr => ht.stage ((hstage ℓ hne).symm.trans hr)
        shut := (hshut ℓ hne).trans ht.shut
        pending := ht.pending.imp_right (hlisted hs)
        unread := by
          show (ring ℓ).head < (ring ℓ).tail
          rw [hring ℓ hne]
          exact ht.unread
        unpaused := fun hst => (hkeep hs).2.trans (ht.unpaused ((hstage ℓ hne).symm.trans hst))
        covered := hcov hs ht.covered }
  · have hne : ℓ ≠ l₀.ix := by
      rintro rfl
      rcases hgone with hg | ⟨-, hg⟩
      · exact hst hg
      · exact absurd (hsh.symm.trans hg) (by simp)
    have hst' : s.stage ℓ ≠ .retired := fun hr => hst ((hstage ℓ hne).trans hr)
    show (ring ℓ).head = (ring ℓ).log.length
    rw [hring ℓ hne]
    refine hall ℓ hℓ hst' ((hshut ℓ hne).symm.trans hsh) ?_
    rcases hp with hp | hp | hp
    · exact .inl hp
    · exact .inr (.inl ((hstage ℓ hne).symm.trans hp))
    · exact .inr (.inr ((hkeep (hslot ℓ hℓ hne hst')).2.symm.trans hp))
  · have hs := h.keep ℓ m hk
    by_cases hne : ℓ = l₀.ix
    · subst hne
      obtain ⟨h₁, h₂⟩ := hspare m hk
      exact { hs with
        shut := h₂
        stage := fun hst => absurd (hst.symm.trans h₁) (by simp)
        paused := fun hst => absurd (hst.symm.trans h₁) (by simp) }
    · exact { hs with
        shut := (hshut ℓ hne).trans hs.shut
        stage := fun hst => hs.stage ((hstage ℓ hne).symm.trans hst)
        paused := fun hst => by
          have hst' := (hstage ℓ hne).symm.trans hst
          exact (hkeep (hslot ℓ hs.lt hne (by simp [hst']))).2.trans (hs.paused hst') }
  · have hleave : InLine w none none 0 (rx.without key).lanes (rx.without key).active
        (popped s.trace)
        (s.ring w.lane).head (s.ring w.lane).tail := by
      have hlist : (none : Option LaneKey).toList ++ (rx.without key).active =
          (x.out.toList ++ rx.active).filter (· ≠ key) ++ [] := by
        cases hx : x.out with
        | none => simp [Receiver.without]
        | some k => simp [Receiver.without, hout k hx]
      refine h.wait_leave hw hl₀ hkey hhot (fun slot hs => ?_) hlist ?_
      · exact Function.update_of_ne hs ..
      · refine hturned.imp_left fun hq hm => ?_
        obtain ⟨l, hl, hq'⟩ := h.rotation_queued hm
        cases hl.symm.trans hl₀
        exact absurd (hq.symm.trans hq') (by simp)
    refine hleave.imp fun hq => { hq with unread := ?_ }
    obtain ⟨l, hl, -, hix⟩ := hq.held
    obtain ⟨hs, hl'⟩ := hold hl
    show (ring w.lane).head < (ring w.lane).tail
    rw [hring w.lane (hix ▸ hixne hs hl')]
    exact hq.unread

end

end Fanring.Mpsc
