import Fanring.Mpsc.View

/-!
# The MPSC channel: senders do not invalidate what the receiver knows

`View.sender`: the receiver's view of the channel survives every step of every sender. Most of it
only speaks of what senders do not touch (`Frame`). The index is the part they do touch: a lane they
mark has a bit set or is about to, a page they mark first is summarised or about to be, and a lane
that was idle until a sender marked it is one its sender goes on to tell the receiver of.
-/

set_option autoImplicit false

namespace Fanring.Mpsc

open Conc Chan

variable {V : Type} {P : Params} {S : Setting} {s s' : Chan V} {ℓ : Nat} {k : Skel} {x : Ctx V}
  {c : Scan} {rx : Receiver}

/-! ## What a sender's step leaves alone -/

/-- The consumer's side of a ring, and what only grows on the other. -/
structure RingFrame (r r' : Ring V) : Prop where
  cap : r'.cap = r.cap
  head : r'.head = r.head
  cachedTail : r'.cachedTail = r.cachedTail
  released : r'.released = r.released
  found : r'.found = r.found
  tail : r.tail ≤ r'.tail
  log : r.log <+: r'.log

theorem RingFrame.refl (r : Ring V) : RingFrame r r :=
  ⟨rfl, rfl, rfl, rfl, rfl, le_rfl, List.prefix_rfl⟩

/-- What no step of a sender changes. -/
structure Frame (s s' : Chan V) : Prop where
  alive : s'.receiverAlive = s.receiverAlive
  trace : s'.trace = s.trace
  history : s'.history = s.history
  rx : s'.rx = s.rx
  notified : s.data.notified ≤ s'.data.notified
  sleep : s'.data.sleep = s.data.sleep ∨ s'.data.sleep = .signaled
  waiting : s'.data.waiting = s.data.waiting
  count : s.count ≤ s'.count
  key : ∀ ℓ < s.count, s'.key ℓ = s.key ℓ
  stage : ∀ ℓ < s.count, s'.stage ℓ = s.stage ℓ
  shut : ∀ ℓ < s.count, s'.shut ℓ = s.shut ℓ
  owed : ∀ ℓ < s.count, s'.owed ℓ = s.owed ℓ
  ring : ∀ ℓ < s.count, s.shut ℓ = false → s.stage ℓ ≠ .retired → RingFrame (s.ring ℓ) (s'.ring ℓ)
  fresh : ∀ ℓ < s'.count, s.count ≤ ℓ → s'.stage ℓ = .pending ∧ s'.shut ℓ = false ∧
    s'.owed ℓ = .settled
  registry : s'.count = s.count ∧ s'.registry = s.registry ∧
    s'.registryGeneration = s.registryGeneration ∨
      s.registryGeneration < s'.registryGeneration

theorem Frame.refl (s : Chan V) : Frame s s where
  alive := rfl
  trace := rfl
  history := rfl
  rx := rfl
  notified := le_rfl
  sleep := .inl rfl
  waiting := rfl
  count := le_rfl
  key _ _ := rfl
  stage _ _ := rfl
  shut _ _ := rfl
  owed _ _ := rfl
  ring _ _ _ _ := .refl _
  fresh _ h h' := absurd h (Nat.not_lt.mpr h')
  registry := .inl ⟨rfl, rfl, rfl⟩

theorem Frame.register (s : Chan V) (capacity : Nat) : Frame s (Sender.register capacity s) where
  alive := rfl
  trace := rfl
  history := rfl
  rx := rfl
  notified := le_rfl
  sleep := .inl rfl
  waiting := rfl
  count := Nat.le_succ _
  key _ h := Function.update_of_ne h.ne ..
  stage _ h := Function.update_of_ne h.ne ..
  shut _ h := Function.update_of_ne h.ne ..
  owed _ h := Function.update_of_ne h.ne ..
  ring ℓ h _ _ := by
    have : (Sender.register capacity s).ring ℓ = s.ring ℓ := Function.update_of_ne h.ne ..
    rw [this]
    exact .refl _
  fresh ℓ h h' := by
    have : ℓ = s.count := Nat.le_antisymm (Nat.lt_succ_iff.mp h) h'
    subst this
    simp [Sender.register]
  registry := .inr (Nat.lt_succ_self _)

theorem SenderAct.frame (ha : SenderAct P ℓ s s') (h : Core P s) (hℓ : ℓ < s.count) :
    Frame s s' := by
  cases ha with
  | ring r hr hopen _ =>
    refine { Frame.refl s with ring := fun ℓ' hlt hsh _ => ?_ }
    by_cases hne : ℓ' = ℓ
    · subst hne
      obtain ⟨-, h₁, h₂, h₃, h₄⟩ := hr.consumer ((h.lane ℓ').not_closed hopen hsh).1
      have : ((ringL ℓ').set r s).ring ℓ' = r := Function.update_self ..
      rw [this]
      exact ⟨hr.cap, h₁, h₂, h₃, h₄, hr.tail, hr.log⟩
    · have : ((ringL ℓ).set r s).ring ℓ' = s.ring ℓ' := Function.update_of_ne hne ..
      rw [this]
      exact .refl _
  | bump _ => exact { Frame.refl s with notified := Nat.le_succ _ }
  | signal _ =>
    have hsig : s.data.signal.2.notified = s.data.notified ∧
        s.data.signal.2.waiting = s.data.waiting ∧
        (s.data.signal.2.sleep = s.data.sleep ∨ s.data.signal.2.sleep = .signaled) := by
      simp only [WaitCell.signal]
      split <;> simp
    exact { Frame.refl s with
      notified := hsig.1.ge
      waiting := hsig.2.1
      sleep := hsig.2.2 }
  | register capacity _ _ => exact .register s capacity
  | space | swap | page | group | wake | reply | leave => exact { Frame.refl s with }

/-! ## The parts that only need the frame -/

theorem Roster.frame {out : Option LaneKey} (h : Roster k out s) (hf : Frame s s') :
    Roster k out s' where
  held slot e he := by
    obtain ⟨h₁, h₂, h₃, h₄, h₅⟩ := h.held slot e he
    exact ⟨h₁.trans (hf.key _ h₃).symm, h₂, lt_of_lt_of_le h₃ hf.count,
      (hf.stage _ h₃).trans h₄, (hf.shut _ h₃).trans h₅⟩
  slot_lt := h.slot_lt
  adopted ℓ hℓ hst hsh := by
    by_cases hlt : ℓ < s.count
    · rw [hf.key ℓ hlt]
      exact h.adopted ℓ hlt (by rwa [← hf.stage ℓ hlt]) (by rwa [← hf.shut ℓ hlt])
    · rw [(hf.fresh ℓ hℓ (Nat.le_of_not_lt hlt)).1] at hst
      exact absurd hst (by simp)
  fresh ℓ hℓ hst := by
    by_cases hlt : ℓ < s.count
    · rw [hf.shut ℓ hlt]
      exact h.fresh ℓ hlt (by rwa [← hf.stage ℓ hlt])
    · exact (hf.fresh ℓ hℓ (Nat.le_of_not_lt hlt)).2.1
  nodup := h.nodup
  queued := h.queued
  out := h.out
  paused := h.paused
  vacant := h.vacant
  lens := h.lens
  seen_le := by
    rcases hf.registry with ⟨-, -, hg⟩ | hg
    · exact hg ▸ h.seen_le
    · exact le_trans h.seen_le hg.le
  seen_eq heq := by
    rcases hf.registry with ⟨-, hr, hg⟩ | hg
    · rw [hr]
      exact h.seen_eq (heq.trans hg)
    · have := h.seen_le
      omega
  group_lt := h.group_lt

theorem LaneCounts.frame {lane : Lane} (h : LaneCounts s lane)
    (hr : RingFrame (s.ring lane.ix) (s'.ring lane.ix)) : LaneCounts s' lane where
  isOpen := h.isOpen
  window := by rw [hr.head, hr.cachedTail, h.window]
  credit := by rw [hr.head, hr.released, h.credit]
  batch := by rw [hr.cap, h.batch]
  unreleased_le := h.unreleased_le
  burst_le := h.burst_le
  fast_le := h.fast_le

theorem LaneOk.frame {lane : Lane} (h : LaneOk s lane)
    (hr : RingFrame (s.ring lane.ix) (s'.ring lane.ix)) : LaneOk s' lane :=
  { h.toLaneCounts.frame hr, h with }

/-- A held lane's ring has its consumer. -/
theorem Roster.ring {out : Option LaneKey} (h : Roster k out s) (hf : Frame s s') {slot : Nat}
    {e : Held} (he : k.lane slot = some e) : RingFrame (s.ring e.ix) (s'.ring e.ix) := by
  obtain ⟨-, -, hlt, hst, hsh⟩ := h.held slot e he
  exact hf.ring _ hlt hsh (by simp [hst])

theorem Receiver.skel_lane {slot : Nat} {lane : Lane} (h : rx.lanes slot = some lane) :
    rx.book.lane slot = some lane.skel := by
  simp [Receiver.book, h]

theorem Budget.frame (h : Budget x rx s) (ht : s'.trace = s.trace) : Budget x rx s' :=
  { h with since := ht ▸ h.since, fresh := ht ▸ h.fresh }

/-! ## The index -/

/-- What a sender's step adds to the index and to the announcements. -/
structure IndexFrame (ℓ : Nat) (s s' : Chan V) : Prop where
  laneBit : ∀ slot, s.ready.laneBit slot = true → s'.ready.laneBit slot = true
  pageBit : ∀ p, s.ready.pageBit p = true → s'.ready.pageBit p = true
  pending : ∀ ℓ' < s.count, s.ready.pending ℓ' = true → s'.ready.pending ℓ' = true
  /-- A lane is marked by its sender, who goes on to announce it. -/
  marked : ∀ ℓ' < s.count, s'.ready.pending ℓ' = true → s.ready.pending ℓ' = true ∨
    ℓ' = ℓ ∧ s'.phase ℓ = .swapped ∧ s.gone ℓ = false
  live : s.liveSenders ≠ 0 → s'.liveSenders ≠ 0 ∨ s'.phase ℓ = .marked ∧ s.gone ℓ = false
  fresh : ∀ ℓ' < s'.count, s.count ≤ ℓ' → Indexed s' ℓ' (s'.key ℓ').slot False False ∧
    s'.ready.pending ℓ' = false

/-- A step that marks no lane, registers none and leaves the number of senders alone. -/
theorem IndexFrame.of_eq (hcount : s'.count = s.count)
    (hpending : s'.ready.pending = s.ready.pending) (hlive : s'.liveSenders = s.liveSenders)
    (laneBit : ∀ slot, s.ready.laneBit slot = true → s'.ready.laneBit slot = true)
    (pageBit : ∀ p, s.ready.pageBit p = true → s'.ready.pageBit p = true) :
    IndexFrame ℓ s s' where
  laneBit := laneBit
  pageBit := pageBit
  pending _ _ h := hpending ▸ h
  marked _ _ h := .inl (hpending ▸ h)
  live h := .inl (hlive ▸ h)
  fresh _ h h' := absurd h (Nat.not_lt.mpr (hcount ▸ h'))

theorem SenderAct.indexFrame (ha : SenderAct P ℓ s s') : IndexFrame ℓ s s' := by
  cases ha with
  | swap hp hgone =>
    refine
      { laneBit := fun _ h => h
        pageBit := fun _ h => h
        pending := fun ℓ' _ h => ?_
        marked := fun ℓ' _ h => ?_
        live := .inl
        fresh := fun ℓ' h h' => absurd h (Nat.not_lt.mpr h') }
    · by_cases hne : ℓ' = ℓ <;> simp [markGhost, readyL, Ready.swapPending, hne, h]
    · by_cases hne : ℓ' = ℓ
      · subst hne
        by_cases hpe : s.ready.pending ℓ' = true
        · exact .inl hpe
        · exact .inr ⟨rfl, by simp [markGhost, readyL, Ready.swapPending, hpe], hgone⟩
      · exact .inl (by simpa [markGhost, readyL, Ready.swapPending, hne] using h)
  | page hp =>
    refine .of_eq rfl rfl rfl (fun slot h => ?_) fun _ h => h
    exact (Ready.laneBit_markPage ..).trans (by rw [h, Bool.true_or])
  | group hp =>
    refine .of_eq rfl rfl rfl (fun _ h => h) fun p h => ?_
    exact (Ready.pageBit_markGroup ..).trans (by rw [h, Bool.true_or])
  | register capacity halive hgone =>
    refine
      { laneBit := fun _ h => h
        pageBit := fun _ h => h
        pending := fun ℓ' hlt h => ?_
        marked := fun ℓ' hlt h => .inl ?_
        live := fun _ => .inl (Nat.succ_ne_zero _)
        fresh := fun ℓ' h h' => ?_ }
    · simpa [Sender.register, hlt.ne] using h
    · simpa [Sender.register, hlt.ne] using h
    · have : ℓ' = s.count := Nat.le_antisymm (Nat.lt_succ_iff.mp h) h'
      subst this
      refine ⟨⟨?_, ?_, ?_, ?_⟩, ?_⟩ <;> simp [Sender.register]
  | leave hd hq hgone =>
    exact
      { laneBit := fun _ h => h
        pageBit := fun _ h => h
        pending := fun _ _ h => h
        marked := fun _ _ h => .inl h
        live := fun _ => .inr ⟨Function.update_self .., hgone⟩
        fresh := fun ℓ' h h' => absurd h (Nat.not_lt.mpr h') }
  | ring | space | bump | wake | signal | reply =>
    exact .of_eq rfl rfl rfl (fun _ h => h) fun _ h => h

theorem Covered.frame {b : Book} {slot : Nat} (h : Covered b c s slot) (hi : IndexFrame ℓ s s') :
    Covered b c s' slot := by
  rcases h with h | h | ⟨hb, h⟩
  · exact .inl h
  · exact .inr (.inl h)
  · exact .inr (.inr ⟨hi.laneBit _ hb, h.imp_right fun h => ⟨hi.pageBit _ h.1, h.2⟩⟩)

/-- A change that does not touch what is known of the lane. -/
theorem Indexed.mono {slot : Nat} {covered served : Prop} (h : Indexed s ℓ slot covered served)
    (hpending : s'.ready.pending ℓ = s.ready.pending ℓ)
    (hbit : s.ready.laneBit slot = true → s'.ready.laneBit slot = true)
    (hphase : s'.phase ℓ = .swapped ↔ s.phase ℓ = .swapped)
    (hsignaled : s'.signaled ℓ = s.signaled ℓ) (hcompleted : s'.completed ℓ = s.completed ℓ)
    (hdropMarked : s'.dropMarked ℓ = s.dropMarked ℓ) (hresumed : s'.resumed ℓ = s.resumed ℓ)
    (hhead : (s.ring ℓ).head ≤ (s'.ring ℓ).head) : Indexed s' ℓ slot covered served where
  marked hp := by
    rw [hphase]
    exact (h.marked (hpending ▸ hp)).imp_right fun h => h.imp_left hbit
  idle hp := by
    obtain ⟨h₁, h₂⟩ := h.idle (hpending ▸ hp)
    exact ⟨hsignaled ▸ le_trans h₁ hhead, hdropMarked ▸ h₂⟩
  swapped hp := (h.swapped (hphase.mp hp)).imp_right fun h => hcompleted ▸ le_trans h hhead
  resumed := h.resumed.imp_right fun h => hresumed ▸ le_trans h hhead

/-- What covers the lane may be known less precisely. -/
theorem Indexed.imp {slot : Nat} {covered served covered' served' : Prop}
    (h : Indexed s ℓ slot covered served) (hc : covered → covered') (hs : served → served') :
    Indexed s ℓ slot covered' served' :=
  { h with
    marked := fun hp => (h.marked hp).imp_left hc
    swapped := fun hp => (h.swapped hp).imp_left hs
    resumed := h.resumed.imp_left hs }

/-- The phase of one sender moves between phases that are not `swapped`. -/
theorem update_phase_iff {phase : Nat → Phase} {p q : Phase} (hp : p ≠ q) (ho : phase ℓ ≠ q)
    (ℓ' : Nat) : Function.update phase ℓ p ℓ' = q ↔ phase ℓ' = q := by
  by_cases hne : ℓ' = ℓ
  · subst hne
    simp [hp, ho]
  · simp [hne]

theorem Indexed.sender {slot ℓ' : Nat} {covered served : Prop}
    (h : Indexed s ℓ' slot covered served) (hc : Core P s) (hℓ : ℓ < s.count)
    (ha : SenderAct P ℓ s s') (hlt : ℓ' < s.count) (hshut : s.shut ℓ' = false)
    (hstage : s.stage ℓ' ≠ .retired) (hslot : (s.key ℓ').slot = slot) :
    Indexed s' ℓ' slot covered served := by
  have hhead : (s'.ring ℓ').head = (s.ring ℓ').head :=
    ((ha.frame hc hℓ).ring ℓ' hlt hshut hstage).head
  cases ha with
  | space => exact { h with }
  | ring r hr hopen _ => exact h.mono rfl id Iff.rfl rfl rfl rfl rfl hhead.ge
  | swap hp hgone =>
    by_cases hne : ℓ' = ℓ
    · subst hne
      by_cases hpe : s.ready.pending ℓ' = true
      · -- marked before: what covered the lane still does
        constructor
        · intro _
          simpa [markGhost, readyL, Ready.swapPending, hpe, hp, Ready.laneBit] using h.marked hpe
        · intro hf
          simp [markGhost, readyL, Ready.swapPending] at hf
        · simp [markGhost, readyL, Ready.swapPending, hpe, hp]
        · exact h.resumed
      · obtain ⟨h₁, -⟩ := h.idle (by simpa using hpe)
        constructor
        · intro _
          simp [markGhost, readyL, Ready.swapPending, hpe]
        · intro hf
          simp [markGhost, readyL, Ready.swapPending] at hf
        · intro _
          exact .inr (le_trans (hc.completed_le ℓ') h₁)
        · exact h.resumed
    · refine h.mono ?_ id ?_ ?_ rfl ?_ rfl le_rfl <;>
        simp [markGhost, readyL, Ready.swapPending, hne]
  | page hp =>
    by_cases hne : ℓ' = ℓ
    · subst hne
      have hbit : (s.ready.markPage (s.key ℓ').slot).2.laneBit slot = true := by simp [hslot]
      refine ⟨fun _ => .inr (.inl hbit), h.idle, fun hsw => ?_, h.resumed⟩
      simp only [markGhost, Chan.setPhase, Function.update_self] at hsw
      split at hsw <;> simp at hsw
    · refine h.mono rfl (fun hb => ?_) ?_ rfl rfl rfl rfl le_rfl
      · exact (Ready.laneBit_markPage ..).trans (by rw [hb, Bool.true_or])
      · simp [markGhost, Chan.setPhase, readyL, hne]
  | group hp =>
    exact h.mono rfl id (update_phase_iff (by simp) (by simp [readyL, hp]) _) rfl rfl rfl rfl le_rfl
  | bump hp =>
    exact h.mono rfl id (update_phase_iff (by simp) (by simp [dataL, hp]) _) rfl rfl rfl rfl le_rfl
  | wake more hp =>
    exact h.mono rfl id (update_phase_iff (by split <;> simp) (by simp [dataL, hp]) _) rfl rfl rfl
      rfl le_rfl
  | signal hp =>
    exact h.mono rfl id (update_phase_iff (by simp) (by simp [dataL, hp]) _) rfl rfl rfl rfl le_rfl
  | reply published r hp hquiet hgone =>
    refine ⟨h.marked, h.idle, fun hsw => ?_, h.resumed⟩
    have hne : ℓ' ≠ ℓ := by
      rintro rfl
      simp [hquiet] at hsw
    cases published <;> simpa [hne] using h.swapped hsw
  | register capacity halive hgone =>
    refine h.mono ?_ id ?_ ?_ ?_ ?_ ?_ hhead.ge <;> simp [Sender.register, hlt.ne]
  | leave hd hq hgone =>
    refine h.mono rfl id (update_phase_iff (by simp) ?_ _) rfl rfl rfl rfl le_rfl
    rcases hq with hq | hq <;> simp [hq]

/-- Every page with a bit set is summarised, or about to be. -/
theorem pageIndexed_sender (h : ∀ p, s.ready.page p ≠ 0#64 → p ∈ c.cp ∨ s.ready.pageBit p = true ∨
      ∃ ℓ < s.count, s.phase ℓ = .paged ∧ (s.key ℓ).slot / lanesPerPage = p)
    (hc : Core P s) (hℓ : ℓ < s.count) (ha : SenderAct P ℓ s s') (p : Nat)
    (hp : s'.ready.page p ≠ 0#64) : p ∈ c.cp ∨ s'.ready.pageBit p = true ∨
      ∃ ℓ < s'.count, s'.phase ℓ = .paged ∧ (s'.key ℓ).slot / lanesPerPage = p := by
  have hf := ha.frame hc hℓ
  have hi := ha.indexFrame
  -- a step that leaves the pages alone and does not end a `paged` phase
  have keep : s.ready.page p ≠ 0#64 →
      (∀ ℓ' < s.count, s.phase ℓ' = .paged → s'.phase ℓ' = .paged ∨ ℓ' = ℓ ∧
        s'.ready.pageBit ((s.key ℓ').slot / lanesPerPage) = true) →
      p ∈ c.cp ∨ s'.ready.pageBit p = true ∨
        ∃ ℓ < s'.count, s'.phase ℓ = .paged ∧ (s'.key ℓ).slot / lanesPerPage = p := by
    intro hp hph
    rcases h p hp with h | h | ⟨ℓ', hlt, hpg, hsl⟩
    · exact .inl h
    · exact .inr (.inl (hi.pageBit p h))
    · rcases hph ℓ' hlt hpg with h | ⟨-, h⟩
      · exact .inr (.inr ⟨ℓ', lt_of_lt_of_le hlt hf.count, h, by rw [hf.key ℓ' hlt, hsl]⟩)
      · exact .inr (.inl (hsl ▸ h))
  cases ha with
  | ring | space | reply => exact keep hp fun _ _ h => .inl h
  | swap hph hgone =>
    refine keep hp fun ℓ' _ h => .inl ?_
    have hne : ℓ' ≠ ℓ := by
      rintro rfl
      simp [hph] at h
    simpa [markGhost, readyL, hne] using h
  | page hph =>
    have hkeep : ∀ ℓ' < s.count, s.phase ℓ' = .paged →
        Function.update s.phase ℓ (if (s.ready.markPage (s.key ℓ).slot).1 then .paged
          else .marked) ℓ' = .paged := by
      intro ℓ' _ h
      have hne : ℓ' ≠ ℓ := by
        rintro rfl
        simp [hph] at h
      simpa [hne] using h
    by_cases hz : s.ready.page p = 0#64
    · -- the first bit of its page
      rcases (Ready.page_markPage_ne_zero _ _ _).mp hp with h' | rfl
      · exact absurd hz h'
      · refine .inr (.inr ⟨ℓ, hℓ, ?_, rfl⟩)
        simp [markGhost, Chan.setPhase, Ready.markPage, hz]
    · exact keep hz fun ℓ' hlt h => .inl (hkeep ℓ' hlt h)
  | group hph =>
    refine keep hp fun ℓ' _ h => ?_
    by_cases hne : ℓ' = ℓ
    · subst hne
      exact .inr ⟨rfl, (Ready.pageBit_markGroup ..).trans (by simp)⟩
    · exact .inl (by simpa [markGhost, Chan.setPhase, readyL, hne] using h)
  | bump hph =>
    exact keep hp fun ℓ' _ h =>
      .inl ((update_phase_iff (by simp) (by simp [dataL, hph]) _).mpr h)
  | wake more hph =>
    exact keep hp fun ℓ' _ h =>
      .inl ((update_phase_iff (by split <;> simp) (by simp [dataL, hph]) _).mpr h)
  | signal hph =>
    exact keep hp fun ℓ' _ h =>
      .inl ((update_phase_iff (by simp) (by simp [dataL, hph]) _).mpr h)
  | register capacity halive hgone =>
    refine keep hp fun ℓ' hlt h => .inl ?_
    simpa [Sender.register, hlt.ne] using h
  | leave hd hq hgone =>
    refine keep hp fun ℓ' _ h => .inl ?_
    have hne : ℓ' ≠ ℓ := by
      rintro rfl
      simp [h] at hq
    simpa [Sender.leave, hne] using h

theorem Index.sender {out : Option LaneKey} {exempt : Option Nat} (h : Index k.toBook exempt c s)
    (hr : Roster k out s)
    (hc : Core P s) (hℓ : ℓ < s.count) (ha : SenderAct P ℓ s s') : Index k.toBook exempt c s' where
  held slot e he hx := by
    obtain ⟨hk, hsl, hlt, hst, hsh⟩ := hr.held slot e he
    exact (h.held slot e he hx).sender hc hℓ ha hlt hsh (by simp [hst]) (by rw [← hk, hsl])
  fresh ℓ' hlt' hst := by
    have hf := ha.frame hc hℓ
    by_cases hlt : ℓ' < s.count
    · rw [hf.stage ℓ' hlt] at hst
      rw [hf.key ℓ' hlt]
      exact (h.fresh ℓ' hlt hst).sender hc hℓ ha hlt (hr.fresh ℓ' hlt hst) (by simp [hst]) rfl
    · have := (ha.indexFrame.fresh ℓ' hlt' (Nat.le_of_not_lt hlt)).1
      exact { this with
        marked := fun hp => (this.marked hp).imp_left False.elim }
  page := pageIndexed_sender h.page hc hℓ ha

/-! ## Aims -/

/-- A sender that is there and announces something tells every receiver but one that is alone. -/
theorem Told.of_announcing {a : Aim} {k : Book} {b : Bool} (haim : AimOk a k c b s)
    (hgone : s.gone ℓ = false)
    (hℓ : ℓ < s.count) (hcount : s.count ≤ s'.count) (hp : (s'.phase ℓ).announcing) :
    Told a s' := by
  match a with
  | .free .none => trivial
  | .free (.sync _) => exact .inr ⟨ℓ, lt_of_lt_of_le hℓ hcount, hp⟩
  | .free .async => exact .inr ⟨ℓ, lt_of_lt_of_le hℓ hcount, .inl hp⟩
  | .target _ _ => trivial
  | .alone _ =>
    have := haim.1 ℓ hℓ
    simp [hgone] at this

/-- How a sender's announcement goes on. -/
theorem SenderAct.announcing (ha : SenderAct P ℓ s s') {ℓ' : Nat} (hlt : ℓ' < s.count)
    (hp : (s.phase ℓ').announcing) : (s'.phase ℓ').announcing ∨
      s'.phase ℓ' = .bumped s.data.waiting ∧ s.data.notified < s'.data.notified := by
  cases ha with
  | ring | space | reply => exact .inl hp
  | swap hph hgone =>
    refine .inl ?_
    have hne : ℓ' ≠ ℓ := by
      rintro rfl
      simp [hph, Phase.announcing] at hp
    simpa [markGhost, readyL, hne] using hp
  | page hph =>
    refine .inl ?_
    by_cases hne : ℓ' = ℓ
    · subst hne
      simp only [markGhost, Chan.setPhase, Function.update_self]
      split <;> trivial
    · simpa [markGhost, Chan.setPhase, readyL, hne] using hp
  | group hph =>
    refine .inl ?_
    by_cases hne : ℓ' = ℓ
    · subst hne
      simp [markGhost, Chan.setPhase, Phase.announcing]
    · simpa [markGhost, Chan.setPhase, readyL, hne] using hp
  | bump hph =>
    by_cases hne : ℓ' = ℓ
    · subst hne
      exact .inr ⟨Function.update_self .., Nat.lt_succ_self _⟩
    · exact .inl (by simpa [notifyGhost, Chan.setPhase, dataL, hne] using hp)
  | wake more hph =>
    refine .inl ?_
    have hne : ℓ' ≠ ℓ := by
      rintro rfl
      simp [hph, Phase.announcing] at hp
    simpa [notifyGhost, Chan.setPhase, dataL, hne] using hp
  | signal hph =>
    refine .inl ?_
    have hne : ℓ' ≠ ℓ := by
      rintro rfl
      simp [hph, Phase.announcing] at hp
    simpa [notifyGhost, Chan.setPhase, dataL, hne] using hp
  | register capacity halive hgone => exact .inl (by simpa [Sender.register, hlt.ne] using hp)
  | leave hd hq hgone =>
    refine .inl ?_
    by_cases hne : ℓ' = ℓ
    · subst hne
      simp [Sender.leave, Phase.announcing]
    · simpa [Sender.leave, hne] using hp

/-- A phase only its own sender's next step ends. -/
theorem SenderAct.phase_eq (ha : SenderAct P ℓ s s') {ℓ' : Nat} (hlt : ℓ' < s.count)
    (hne : ℓ' ≠ ℓ) : s'.phase ℓ' = s.phase ℓ' := by
  cases ha with
  | ring | space | reply => rfl
  | register capacity halive hgone => simp [Sender.register, hlt.ne]
  | swap hph | page hph | group hph => simp [markGhost, Chan.setPhase, readyL, hne]
  | bump hph | wake more hph | signal hph => simp [notifyGhost, Chan.setPhase, dataL, hne]
  | leave hd hq hgone => simp [Sender.leave, hne]

/-- A notification under way wakes the waker, and goes on to the sleeper if there is one. -/
theorem SenderAct.bumped (ha : SenderAct P ℓ s s') {ℓ' : Nat} {more : Bool} (hlt : ℓ' < s.count)
    (hp : s.phase ℓ' = .bumped more) : s'.phase ℓ' = .bumped more ∨
      s'.data.waker = false ∧ s'.phase ℓ' = if more then .woken else .quiet := by
  by_cases hne : ℓ' = ℓ
  · subst hne
    cases ha with
    | ring | space | reply => exact .inl hp
    | register capacity halive hgone => exact .inl (by simpa [Sender.register, hlt.ne] using hp)
    | wake more hph =>
      cases hp.symm.trans hph
      exact .inr ⟨rfl, Function.update_self ..⟩
    | swap hph | page hph | group hph | bump hph | signal hph =>
      cases hp.symm.trans hph
    | leave hd hq hgone => simp [hp] at hq
  · exact .inl ((ha.phase_eq hlt hne).trans hp)

/-- A sender that has woken the waker signals the sleeper. -/
theorem SenderAct.woken (ha : SenderAct P ℓ s s') {ℓ' : Nat} (hlt : ℓ' < s.count)
    (hp : s.phase ℓ' = .woken) : s'.phase ℓ' = .woken ∨ s'.data = s.data.signal.2 := by
  by_cases hne : ℓ' = ℓ
  · subst hne
    cases ha with
    | ring | space | reply => exact .inl hp
    | register capacity halive hgone => exact .inl (by simpa [Sender.register, hlt.ne] using hp)
    | signal hph => exact .inr rfl
    | swap hph | page hph | group hph | bump hph | wake more hph =>
      cases hp.symm.trans hph
    | leave hd hq hgone => simp [hp] at hq
  · exact .inl ((ha.phase_eq hlt hne).trans hp)

theorem SenderAct.waker (ha : SenderAct P ℓ s s') (h : s.data.waker = false) :
    s'.data.waker = false := by
  cases ha with
  | signal hph =>
    simp only [notifyGhost, Chan.setPhase, dataL, WaitCell.signal]
    split <;> exact h
  | wake more hph => rfl
  | ring | space | reply | swap | page | group | bump | register | leave => exact h

theorem Told.sender {a : Aim} {k : Book} {b : Bool} (h : Told a s) (haim : AimOk a k c b s)
    (hc : Core P s)
    (hℓ : ℓ < s.count) (ha : SenderAct P ℓ s s') : Told a s' := by
  have hf := ha.frame hc hℓ
  match a, h with
  | .free .none, _ => trivial
  | .free (.sync n), .inl h => exact .inl (lt_of_lt_of_le h hf.notified)
  | .free (.sync n), .inr ⟨ℓ', hlt, hp⟩ =>
    rcases ha.announcing hlt hp with h | ⟨-, h⟩
    · exact .inr ⟨ℓ', lt_of_lt_of_le hlt hf.count, h⟩
    · exact .inl (lt_of_le_of_lt haim h)
  | .free .async, .inl h => exact .inl (ha.waker h)
  | .free .async, .inr ⟨ℓ', hlt, .inl hp⟩ =>
    rcases ha.announcing hlt hp with h | ⟨h, -⟩
    · exact .inr ⟨ℓ', lt_of_lt_of_le hlt hf.count, .inl h⟩
    · exact .inr ⟨ℓ', lt_of_lt_of_le hlt hf.count, .inr ⟨_, h⟩⟩
  | .free .async, .inr ⟨ℓ', hlt, .inr ⟨more, hp⟩⟩ =>
    rcases ha.bumped hlt hp with h | ⟨h, -⟩
    · exact .inr ⟨ℓ', lt_of_lt_of_le hlt hf.count, .inr ⟨more, h⟩⟩
    · exact .inl h
  | .target _ _, _ => trivial

/-- A lane marked by a sender's step is one the receiver is told of. -/
theorem Told.of_marked {a : Aim} {k : Book} {b : Bool} (haim : AimOk a k c b s) (hf : Frame s s')
    (hi : IndexFrame ℓ s s') (hℓ : ℓ < s.count) {ℓ' : Nat} (hlt : ℓ' < s'.count)
    (hold : ℓ' < s.count → s.ready.pending ℓ' = false) (hp : s'.ready.pending ℓ' = true) :
    Told a s' := by
  by_cases hlt' : ℓ' < s.count
  · rcases hi.marked ℓ' hlt' hp with h | ⟨-, hph, hgone⟩
    · rw [hold hlt'] at h
      exact absurd h (by simp)
    · exact .of_announcing haim hgone hℓ hf.count (by simp [hph, Phase.announcing])
  · rw [(hi.fresh ℓ' hlt (Nat.le_of_not_lt hlt')).2] at hp
    exact absurd hp (by simp)

theorem Clear.sender {a : Aim} {b : Bool} {out : Option LaneKey} (h : Clear k.toBook c s)
    (hr : Roster k out s) (haim : AimOk a k.toBook c b s) (hc : Core P s) (hℓ : ℓ < s.count)
    (ha : SenderAct P ℓ s s') :
    Told a s' ∨ Clear k.toBook c s' := by
  have hf := ha.frame hc hℓ
  have hi := ha.indexFrame
  by_cases htold : Told a s'
  · exact .inl htold
  refine .inr ⟨fun ℓ' hlt hst => ?_, fun slot e he hp => ?_⟩
  · by_contra hp
    refine htold (.of_marked haim hf hi hℓ hlt (fun hlt' => ?_) (by simpa using hp))
    exact h.1 ℓ' hlt' (by rwa [← hf.stage ℓ' hlt'])
  · obtain ⟨-, -, hlt, -, -⟩ := hr.held slot e he
    by_cases hp' : s.ready.pending e.ix = true
    · exact (h.2 slot e he hp').imp_right fun h => h.frame hi
    · exact absurd (.of_marked haim hf hi hℓ (lt_of_lt_of_le hlt hf.count)
        (fun _ => by simpa using hp') hp) htold

theorem Quiesced.sender {a : Aim} {b : Bool} {out : Option LaneKey} (h : Quiesced k.toBook s)
    (hr : Roster k out s) (haim : AimOk a k.toBook c b s) (hc : Core P s) (hℓ : ℓ < s.count)
    (ha : SenderAct P ℓ s s') :
    Told a s' ∨ Quiesced k.toBook s' := by
  have hf := ha.frame hc hℓ
  have hi := ha.indexFrame
  by_cases htold : Told a s'
  · exact .inl htold
  refine .inr ⟨fun slot e he hpa => ?_, fun ℓ' hlt hst => ?_, ?_⟩
  · obtain ⟨-, -, hlt, -, -⟩ := hr.held slot e he
    by_contra hp
    exact htold (.of_marked haim hf hi hℓ (lt_of_lt_of_le hlt hf.count)
      (fun _ => h.1 slot e he hpa) (by simpa using hp))
  · by_contra hp
    refine htold (.of_marked haim hf hi hℓ hlt (fun hlt' => ?_) (by simpa using hp))
    exact h.2.1 ℓ' hlt' (by rwa [← hf.stage ℓ' hlt'])
  · rcases h.2.2 with hl | ⟨ℓ', hlt, hst, hsh, hun⟩
    · rcases hi.live hl with hl | ⟨hph, hgone⟩
      · exact .inl hl
      · exact absurd (.of_announcing haim hgone hℓ hf.count (by simp [hph, Phase.announcing])) htold
    · have hring := hf.ring ℓ' hlt hsh hst
      exact .inr ⟨ℓ', lt_of_lt_of_le hlt hf.count, by rwa [hf.stage ℓ' hlt],
        by rwa [hf.shut ℓ' hlt], hring.head ▸ lt_of_lt_of_le hun hring.log.length_le⟩

theorem Target.sender {k : Book} {ℓ' : Nat} {key : LaneKey} (h : Target k c ℓ' key s)
    (hc : Core P s) (hℓ : ℓ < s.count) (ha : SenderAct P ℓ s s') : Target k c ℓ' key s' := by
  have hf := ha.frame hc hℓ
  have hi := ha.indexFrame
  have hring := hf.ring ℓ' h.lt h.shut h.stage
  exact
    { lt := lt_of_lt_of_le h.lt hf.count
      key := (hf.key ℓ' h.lt).trans h.key
      stage := by rw [hf.stage ℓ' h.lt]; exact h.stage
      shut := by rw [hf.shut ℓ' h.lt, h.shut]
      pending := by
        rw [hf.key ℓ' h.lt]
        exact h.pending.imp_left (hi.pending ℓ' h.lt)
      unread := hring.head ▸ lt_of_lt_of_le h.unread hring.tail
      unpaused := by
        rw [hf.stage ℓ' h.lt, hf.key ℓ' h.lt]
        exact h.unpaused
      covered := by
        rw [hf.key ℓ' h.lt]
        exact h.covered.frame hi }

/-- Nobody pushes any more once all senders have left. -/
theorem SenderAct.alone (ha : SenderAct P ℓ s s') (hc : Core P s)
    (h : ∀ ℓ < s.count, s.gone ℓ = true) (hℓ : ℓ < s.count) :
    s'.count = s.count ∧ s'.gone = s.gone ∧ s'.ring = s.ring ∧ s'.key = s.key ∧
      s'.stage = s.stage ∧ s'.shut = s.shut := by
  have hgone := h ℓ hℓ
  cases ha with
  | ring r hr hopen _ =>
    rw [hc.not_gone hopen] at hgone
    exact absurd hgone (by simp)
  | register capacity halive hg | leave hd hq hg =>
    rw [hg] at hgone
    exact absurd hgone (by simp)
  | space | swap | page | group | bump | wake | signal | reply =>
    exact ⟨rfl, rfl, rfl, rfl, rfl, rfl⟩

/-- A step that pops nothing, as far as the receiver's aim is concerned. -/
theorem AimOk.step {a : Aim} {k k' : Book} {c' : Scan} {b : Bool} (h : AimOk a k c b s)
    (hnotified : s.data.notified ≤ s'.data.notified) (htrace : popped s'.trace = popped s.trace)
    (hgone : (∀ ℓ < s.count, s.gone ℓ = true) → ∀ ℓ < s'.count, s'.gone ℓ = true)
    (htarget : ∀ ℓ q, a = .target ℓ q → b = false → Target k c ℓ q.key s → Target k' c' ℓ q.key s')
    (hread : ∀ all, AllRead all k s → AllRead all k' s') : AimOk a k' c' b s' := by
  match a with
  | .free .none => trivial
  | .free (.sync n) => exact le_trans h hnotified
  | .free .async => trivial
  | .target ℓ' q =>
    simp only [AimOk, htrace] at h ⊢
    split at h
    · next hca => rwa [if_pos hca]
    · next hca =>
      rw [if_neg hca]
      exact ⟨h.1, htarget ℓ' q rfl (by simpa using hca) h.2⟩
  | .alone dry => exact ⟨hgone h.1, fun all hall => ⟨(h.2 all hall).1, hread all (h.2 all hall).2⟩⟩

theorem AimOk.sender {a : Aim} {k : Book} {b : Bool} (h : AimOk a k c b s) (hc : Core P s)
    (hℓ : ℓ < s.count) (ha : SenderAct P ℓ s s') : AimOk a k c b s' := by
  have hf := ha.frame hc hℓ
  match a with
  | .free .none => trivial
  | .free (.sync n) => exact le_trans h hf.notified
  | .free .async => trivial
  | .target ℓ' q =>
    simp only [AimOk, hf.trace] at h ⊢
    split at h
    · next hca => simpa [hca] using h
    · next hca =>
      simp only [hca]
      exact ⟨h.1, h.2.sender hc hℓ ha⟩
  | .alone dry =>
    obtain ⟨h₁, h₂, h₃, h₄, h₅, h₆⟩ := ha.alone hc h.1 hℓ
    simpa only [AimOk, AllRead, h₁, h₂, h₃, h₄, h₅, h₆] using h

/-- A sender that has dropped its half does not touch the ring any more. -/
theorem SenderAct.ring_eq (ha : SenderAct P ℓ s s') {ℓ' : Nat} (hlt : ℓ' < s.count)
    (hd : (s.ring ℓ').producerDropped = true) : s'.ring ℓ' = s.ring ℓ' := by
  cases ha with
  | ring r hr hopen _ =>
    have hne : ℓ' ≠ ℓ := by
      rintro rfl
      simp [hd] at hopen
    exact Function.update_of_ne hne ..
  | register capacity halive hgone => exact Function.update_of_ne hlt.ne ..
  | space | swap | page | group | bump | wake | signal | reply | leave => rfl

theorem OwedOk.sender {o : Option (Nat × Owed)} (h : OwedOk o s) (ha : SenderAct P ℓ s s')
    (hf : Frame s s') : OwedOk o s' := by
  have hsettled : ∀ ℓ < s'.count, (ℓ < s.count → (s.ring ℓ).producerDropped = false →
      s.owed ℓ = .settled) → (s'.ring ℓ).producerDropped = false → s'.owed ℓ = .settled := by
    intro ℓ hℓ hs hd
    by_cases hlt : ℓ < s.count
    · refine (hf.owed ℓ hlt).trans (hs hlt ?_)
      by_contra hd'
      rw [ha.ring_eq hlt (by simpa using hd')] at hd
      exact hd' hd
    · exact (hf.fresh ℓ hℓ (Nat.le_of_not_lt hlt)).2.2
  match o with
  | none => exact fun ℓ hℓ => hsettled ℓ hℓ (h ℓ)
  | some (ℓ, d) =>
    obtain ⟨hℓ, hd, hrest⟩ := h
    exact ⟨lt_of_lt_of_le hℓ hf.count, (hf.owed ℓ hℓ).trans hd,
      fun ℓ' hℓ' hne => hsettled ℓ' hℓ' fun hlt => hrest ℓ' hlt hne⟩

theorem Spared.frame {k : Book} {ℓ' n : Nat} (h : Spared k ℓ' n s) (hf : Frame s s') :
    Spared k ℓ' n s' where
  lt := lt_of_lt_of_le h.lt hf.count
  shut := (hf.shut ℓ' h.lt).trans h.shut
  stage := by
    rw [hf.stage ℓ' h.lt]
    exact h.stage
  paused hst := by
    rw [hf.key ℓ' h.lt]
    exact h.paused ((hf.stage ℓ' h.lt).symm.trans hst)
  popped := hf.trace ▸ h.popped

theorem Scanned.grow {k : Book} {ℓ' t : Nat} {tr tr' : List (Event V)} (h : Scanned k ℓ' t tr)
    (ht : tr <+: tr') : Scanned k ℓ' t tr' where
  le := le_trans h.le ht.length_le
  seen := h.seen.imp_left fun hm => by
    obtain ⟨u, hu⟩ := ht
    rw [← hu, List.drop_append_of_le_length h.le]
    exact List.mem_append_left _ hm

theorem Refused.grow {t : Nat} {tr tr' : List (Event V)} (h : Refused t tr) (ht : tr <+: tr') :
    Refused t tr' := by
  obtain ⟨v, hv⟩ := h
  exact ⟨v, (ht.drop t).subset hv⟩

theorem Spare.grow {t : Nat} {tr es : List (Event V)} (h : Spare t tr)
    (hes : ∀ e ∈ es, e.sparing) : Spare t (tr ++ es) where
  le := le_trans h.le (by simp)
  sparing e he := by
    rw [List.drop_append_of_le_length h.le] at he
    rcases List.mem_append.mp he with he | he
    · exact h.sparing e he
    · exact hes e he

theorem Over.sender (h : Over s) (hc : Core P s) (hℓ : ℓ < s.count) (ha : SenderAct P ℓ s s') :
    Over s' := by
  obtain ⟨h₁, h₂, -, -, h₅, -⟩ := ha.alone hc h.1 hℓ
  refine ⟨?_, ?_⟩
  · rw [AllGone, h₁, h₂]
    exact h.1
  · rw [(hc.sender hℓ ha).registered, h₁, h₅, ← hc.registered]
    exact h.2

theorem InLine.imp {w : Wait} {out out' : Option LaneKey} {hot hot' : Option Nat}
    {taken taken' : Nat}
    {lanes lanes' : Nat → Option Lane} {active active' : List LaneKey} {t : List (Nat × V)}
    {head tail head' tail' : Nat} (h : InLine w out hot taken lanes active t head tail)
    (hq : Queued w out hot taken lanes active t head tail →
      Queued w out' hot' taken' lanes' active' t head' tail') :
    InLine w out' hot' taken' lanes' active' t head' tail' := ⟨h.1, h.2.imp_right hq⟩

/-- **No step of a sender makes the receiver's view of the channel wrong.** -/
theorem View.sender (h : View S x rx s) (hc : Core P s) (hℓ : ℓ < s.count)
    (ha : SenderAct P ℓ s s') : View S x rx s' := by
  have hf := ha.frame hc hℓ
  exact
    { alive := hf.alive.trans h.alive
      awake := fun hx => by
        rcases hf.sleep with hsl | hsl
        · rw [hsl]
          exact h.awake hx
        · simp [hsl]
      roster := h.roster.frame hf
      index := h.index.sender h.roster hc hℓ ha
      counters := fun slot lane hl hx =>
        (h.counters slot lane hl hx).frame (h.roster.ring hf (Receiver.skel_lane hl))
      fast := h.fast
      idle := h.idle
      items_lt := h.items_lt
      owed := h.owed.sender ha hf
      closing := fun ℓ' hlt hst hsh => by
        by_cases hold : ℓ' < s.count
        · exact h.closing ℓ' hold ((hf.stage ℓ' hold).symm.trans hst)
            ((hf.shut ℓ' hold).symm.trans hsh)
        · simp [(hf.fresh ℓ' hlt (Nat.le_of_not_lt hold)).1] at hst
      hand := by rw [hf.trace, Chan.returned, hf.history]; exact h.hand
      budget := fun hst => (h.budget hst).frame hf.trace
      swept := fun hx => (h.swept hx).elim (fun h' => .inl (h'.sender h.aim hc hℓ ha))
        fun h' => h'.sender h.roster h.aim hc hℓ ha
      quiet := fun hx => (h.quiet hx).elim (fun h' => .inl (h'.sender h.aim hc hℓ ha))
        fun h' => h'.sender h.roster h.aim hc hℓ ha
      aim := h.aim.sender hc hℓ ha
      keep := fun ℓ' n hk => (h.keep ℓ' n hk).frame hf
      scan := hf.trace ▸ h.scan
      refused := hf.trace ▸ h.refused
      single := hf.trace ▸ h.single
      left := fun dry hd => by
        have haim := h.aim
        rw [hd] at haim
        obtain ⟨h₁, -, -, -, h₅, -⟩ := ha.alone hc haim.1 hℓ
        rw [(hc.sender hℓ ha).registered, h₁, h₅, ← hc.registered]
        exact h.left dry hd
      done := fun ho => (h.done ho).sender hc hℓ ha
      wait := fun w hw => by
        rw [hf.trace]
        refine (h.wait w hw).imp fun hq => { hq with unread := ?_ }
        obtain ⟨l, hl, -, hix⟩ := hq.held
        have hring := h.roster.ring hf (Receiver.skel_lane hl)
        rw [show l.skel.ix = w.lane from hix] at hring
        exact lt_of_eq_of_lt hring.head (lt_of_lt_of_le hq.unread hring.tail) }

end Fanring.Mpsc
