import Fanring.Mpsc.Inv
import Mathlib.Tactic.Common

/-!
# The MPSC channel: senders keep the invariant

`Core.sender`: whatever step a sender takes, `Core` survives it. One lemma per kind of step. The one
with content is registration: the key handed out is new, because a free key is above every key its
slot had before, and an allocated slot is free no longer.
-/

set_option autoImplicit false

namespace Fanring.Mpsc

open Conc Chan

variable {V : Type} {P : Params} {s s' : Chan V} {ℓ : Nat}

/-! ### Updates and prefixes -/

/-- A property of every entry after one was replaced. -/
theorem forall_update {β : Type} {f : Nat → β} {a : Nat} {b : β} {p : Nat → β → Prop}
    (own : p a b) (other : ∀ x, x ≠ a → p x (f x)) : ∀ x, p x (Function.update f a b x) :=
  (Function.forall_update_iff f p).mpr ⟨own, other⟩

theorem take_of_isPrefix {l l' : List V} (h : l <+: l') {n : Nat} (hn : n ≤ l.length) :
    l'.take n = l.take n := by
  obtain ⟨t, rfl⟩ := h
  simp [List.take_append_of_le_length hn]

/-! ### Lanes with both ends -/

theorem Core.not_gone (h : Core P s) (hopen : (s.ring ℓ).producerDropped = false) :
    s.gone ℓ = false := by
  by_contra hg
  have := (h.lane ℓ).dropMarked (h.gone ℓ (by simpa using hg)).1
  simp [hopen] at this

variable {c d sh : Bool} {n : Nat} {st : Stage} {r r' : Ring V} {vs : List V}

theorem LaneInv.not_retired (h : LaneInv c r n d st sh vs) (hopen : r.producerDropped = false)
    (hshut : sh = false) : st ≠ .retired := by
  intro hr
  have := (h.retired hr hshut).1
  simp [hopen] at this

/-- A lane whose sender and receiver are both there is not closed. -/
theorem LaneInv.not_closed (h : LaneInv c r n d st sh vs) (hopen : r.producerDropped = false)
    (hshut : sh = false) : r.closed = false ∧ r.consumerDropped = false := by
  have hno : ¬ (r.closed = true ∨ r.consumerDropped = true) := fun hc => by
    rcases h.closed hc with h' | h'
    · simp [hshut] at h'
    · exact h.not_retired hopen hshut h'
  simpa using hno

theorem LaneInv.head_le (h : LaneInv c r n d st sh vs) : r.head ≤ r.log.length :=
  h.ok.head_le_length

/-! ### The steps -/

theorem LaneInv.own (h : LaneInv c r n d st sh vs) (hr : r.OwnStep r')
    (hopen : r.producerDropped = false) : LaneInv c r' n d st sh vs where
  ok := hr.ok h.ok
  signaled_le := le_trans h.signaled_le hr.tail
  dropMarked hd := by
    have := h.dropMarked hd
    simp [hopen] at this
  closed hc := by
    by_contra hno
    obtain ⟨h₁, h₂⟩ := h.not_closed hopen (by simpa using (not_or.mp hno).1)
    obtain ⟨h₃, -⟩ := hr.consumer h₁
    simp [hr.closed, h₁, h₂, h₃] at hc
  retired hst hsh := absurd hst (h.not_retired hopen hsh)
  sealed hst hsh := hr.isClosed (h.sealed hst hsh)
  fresh hst hsh := by
    obtain ⟨-, h₂, h₃, h₄, -⟩ := hr.consumer (h.not_closed hopen hsh).1
    rw [h₂, h₃, h₄]
    exact h.fresh hst hsh
  popped_le := h.popped_le.trans hr.log
  popped_eq hsh := by
    obtain ⟨-, h₂, -⟩ := hr.consumer (h.not_closed hopen hsh).1
    rw [h.popped_eq hsh, h₂, take_of_isPrefix hr.log h.head_le]

theorem Core.resumed_setRing (h : Core P s) {r : Ring V} (hr : (s.ring ℓ).tail ≤ r.tail) :
    ∀ ℓ', s.resumed ℓ' ≤ (Function.update s.ring ℓ r ℓ').tail :=
  forall_update (p := fun ℓ' (r : Ring V) => s.resumed ℓ' ≤ r.tail)
    (le_trans (h.resumed_le ℓ) hr) fun ℓ' _ => h.resumed_le ℓ'

theorem Core.ownRing (h : Core P s) {r : Ring V} (hr : (s.ring ℓ).OwnStep r)
    (hopen : (s.ring ℓ).producerDropped = false)
    (hawake : (s.space ℓ).sleep ≠ .asleep) : Core P ((ringL ℓ).set r s) :=
  { h with
    keys := { h.keys with }
    lane := forall_update (p := fun ℓ' (r : Ring V) => LaneInv P.coordinated r (s.signaled ℓ')
        (s.dropMarked ℓ') (s.stage ℓ') (s.shut ℓ') (ofLane ℓ' (popped s.trace)))
      ((h.lane ℓ).own hr hopen) fun ℓ' _ => h.lane ℓ'
    resumed_le := h.resumed_setRing hr.tail
    space := fun ℓ' hlt hsl => by
      have hne : ℓ' ≠ ℓ := by
        rintro rfl
        exact hawake hsl
      have := h.space ℓ' hlt hsl
      simpa [Stuck, ringL, Function.update_of_ne hne] using this }

theorem Core.ownSpace (h : Core P s) {c : WaitCell}
    (hc : c.sleep = .asleep → c.waiting = true ∧ (s.ring ℓ).producerDropped = false ∧
      ((s.owed ℓ).soon ∨ Stuck P ℓ s)) : Core P ((spaceL ℓ).set c s) :=
  { h with
    keys := { h.keys with }
    space := forall_update (p := fun ℓ' (c : WaitCell) => ℓ' < s.count → c.sleep = .asleep →
        c.waiting = true ∧ (s.ring ℓ').producerDropped = false ∧
          ((s.owed ℓ').soon ∨ Stuck P ℓ' s))
      (fun _ => hc) fun ℓ' _ => h.space ℓ' }

theorem Core.swap (h : Core P s) (hgone : s.gone ℓ = false) (b : Bool) :
    Core P (markGhost ℓ (.swapped b) (readyL.set (s.ready.swapPending ℓ).2 s)) :=
  { h with
    keys := { h.keys with }
    lane := fun ℓ' => by
      by_cases hne : ℓ' = ℓ
      · subst hne
        simp only [markGhost, readyL, Function.update_self]
        exact { h.lane ℓ' with signaled_le := le_rfl, dropMarked := id }
      · simpa only [markGhost, readyL, Function.update_of_ne hne] using h.lane ℓ'
    completed_le := forall_update (p := fun ℓ' (n : Nat) => s.completed ℓ' ≤ n)
      (le_trans (h.completed_le ℓ) (h.lane ℓ).signaled_le) fun ℓ' _ => h.completed_le ℓ'
    gone := fun ℓ' hg => by
      have hne : ℓ' ≠ ℓ := by
        rintro rfl
        simp [markGhost, readyL, hgone] at hg
      simpa [markGhost, readyL, Function.update_of_ne hne] using h.gone ℓ' hg }

/-- A step that only moves the sender on in its announcement. -/
theorem Core.setPhase (h : Core P s) {p : Phase} (hp : p ≠ .swapped ∧ p ≠ .paged) :
    Core P (s.setPhase ℓ p) :=
  { h with
    keys := { h.keys with }
    gone := fun ℓ' hg => ⟨(h.gone ℓ' hg).1,
      forall_update (p := fun ℓ' (q : Phase) => s.gone ℓ' = true → q ≠ .swapped ∧ q ≠ .paged)
        (fun _ => hp) (fun ℓ' _ hg => (h.gone ℓ' hg).2) ℓ' hg⟩ }

theorem Core.setData (h : Core P s) (c : WaitCell) : Core P (dataL.set c s) :=
  { h with keys := { h.keys with } }

theorem Core.setPaged (h : Core P s) (hgone : s.gone ℓ = false) : Core P (s.setPhase ℓ .paged) :=
  { h with
    keys := { h.keys with }
    gone := fun ℓ' hg => ⟨(h.gone ℓ' hg).1,
      forall_update (p := fun ℓ' (q : Phase) => s.gone ℓ' = true → q ≠ .swapped ∧ q ≠ .paged)
        (fun hg => absurd hg (by simp [hgone])) (fun ℓ' _ hg => (h.gone ℓ' hg).2) ℓ' hg⟩ }

theorem Core.markPage (h : Core P s) (hℓ : ℓ < s.count) :
    Core P (readyL.set (s.ready.markPage (s.key ℓ).slot).2 s) :=
  { h with
    keys := { h.keys with }
    word_lt := fun p hp => by
      rcases (Ready.page_markPage_ne_zero _ _ _).mp hp with hp | rfl
      · exact h.word_lt p hp
      · exact h.page_lt ℓ hℓ }

theorem Core.markGroup (h : Core P s) (p : Nat) :
    Core P (readyL.set (s.ready.markGroup p).2 s) :=
  { h with keys := { h.keys with } }

theorem Core.reply (h : Core P s) {published : Bool} (r : SendReply)
    (hp : published = true → s.signaled ℓ = (s.ring ℓ).log.length) :
    Core P { s with
        sent := Function.update s.sent ℓ (some r)
        completed :=
          if published then Function.update s.completed ℓ (s.ring ℓ).log.length
          else s.completed } :=
  { h with
    keys := { h.keys with }
    completed_le := by
      cases published with
      | false => exact h.completed_le
      | true =>
        exact forall_update (p := fun ℓ' (n : Nat) => n ≤ s.signaled ℓ') (le_of_eq (hp rfl).symm)
          fun ℓ' _ => h.completed_le ℓ' }

/-! ### Counting -/

theorem liveCount_leave {count : Nat} {gone : Nat → Bool} (hℓ : ℓ < count)
    (hg : gone ℓ = false) :
    liveCount count (Function.update gone ℓ true) = liveCount count gone - 1 := by
  have : (Finset.range count).filter (Function.update gone ℓ true · = false) =
      ((Finset.range count).filter (gone · = false)).erase ℓ := by
    ext x
    by_cases hx : x = ℓ <;> simp [hx]
  rw [liveCount, this, Finset.card_erase_of_mem (by simp [hℓ, hg]), liveCount]

theorem laneCount_retire {count : Nat} {stage : Nat → Stage} (hℓ : ℓ < count)
    (hs : stage ℓ ≠ .retired) :
    laneCount count (Function.update stage ℓ .retired) = laneCount count stage - 1 := by
  have : (Finset.range count).filter (Function.update stage ℓ .retired · ≠ .retired) =
      ((Finset.range count).filter (stage · ≠ .retired)).erase ℓ := by
    ext x
    by_cases hx : x = ℓ <;> simp [hx]
  rw [laneCount, this, Finset.card_erase_of_mem (by simp [hℓ, hs]), laneCount]

theorem filter_range_succ_update {β : Type} {f : Nat → β} {b : β} {q : β → Prop}
    [DecidablePred q] (n : Nat) (hb : q b) :
    ((Finset.range (n + 1)).filter (fun x => q (Function.update f n b x))).card =
      ((Finset.range n).filter (fun x => q (f x))).card + 1 := by
  rw [Finset.range_add_one, Finset.filter_insert, if_pos (by simpa using hb),
    Finset.card_insert_of_notMem (by simp)]
  congr 2
  refine Finset.filter_congr fun x hx => ?_
  rw [Function.update_of_ne (by simpa using (Finset.mem_range.mp hx).ne)]

theorem liveCount_register (count : Nat) (gone : Nat → Bool) :
    liveCount (count + 1) (Function.update gone count false) = liveCount count gone + 1 :=
  filter_range_succ_update (q := (· = false)) count rfl

theorem laneCount_register (count : Nat) (stage : Nat → Stage) :
    laneCount (count + 1) (Function.update stage count .pending) = laneCount count stage + 1 :=
  filter_range_succ_update (q := (· ≠ Stage.retired)) count (by simp)

theorem Core.leave (h : Core P s) (hℓ : ℓ < s.count) (hd : s.dropMarked ℓ = true)
    (hgone : s.gone ℓ = false) : Core P (Sender.leave ℓ s) :=
  { h with
    keys := { h.keys with }
    live := (congrArg (· - 1) h.live).trans (liveCount_leave hℓ hgone).symm
    gone := fun ℓ' hg => by
      by_cases hne : ℓ' = ℓ
      · subst hne
        simp [Sender.leave, hd]
      · simp only [Sender.leave, Function.update_of_ne hne] at hg ⊢
        exact h.gone ℓ' hg }

/-! ### Registration -/

/-- The key handed out is new, and above every earlier key of its slot. -/
theorem Keys.nextKey_fresh (h : Keys s) (hℓ : ℓ < s.count)
    (hslot : (s.key ℓ).slot = s.registry.nextKey.slot) :
    s.stage ℓ = .retired ∧ (s.key ℓ).generation < s.registry.nextKey.generation := by
  simp only [Registry.nextKey] at hslot ⊢
  cases hfree : s.registry.free with
  | nil =>
    rw [hfree] at hslot
    exact absurd hslot (h.slot_lt ℓ hℓ).ne
  | cons k ks =>
    rw [hfree] at hslot
    exact h.free_old k (by simp [hfree]) ℓ hℓ hslot

theorem Keys.nextKey_lt (h : Keys s) (ℓ : Nat) :
    s.registry.nextKey.slot < (s.registry.allocate ℓ).nextSlot := by
  simp only [Registry.nextKey, Registry.allocate]
  cases hfree : s.registry.free with
  | nil => simp
  | cons k ks => simpa using h.free_lt k (by simp [hfree])

theorem Keys.mem_free (h : Keys s) {ℓ : Nat} {k : LaneKey}
    (hk : k ∈ (s.registry.allocate ℓ).free) :
    k ∈ s.registry.free ∧ k.slot ≠ s.registry.nextKey.slot := by
  have hnodup := h.free_nodup
  simp only [Registry.allocate, Registry.nextKey] at hk ⊢
  cases hfree : s.registry.free with
  | nil => simp [hfree] at hk
  | cons k' ks =>
    simp only [hfree, List.tail_cons, List.map_cons, List.nodup_cons, List.mem_map,
      not_exists, not_and] at hk hnodup
    exact ⟨List.mem_cons_of_mem _ hk, hnodup.1 k hk⟩

theorem le_nextSlot_allocate (r : Registry) (ℓ : Nat) : r.nextSlot ≤ (r.allocate ℓ).nextSlot := by
  simp only [Registry.allocate]
  split <;> omega

theorem Keys.register (h : Keys s) (capacity : Nat) : Keys (Sender.register capacity s) := by
  have hold : ∀ {ℓ'}, ℓ' < s.count →
      (Sender.register capacity s).key ℓ' = s.key ℓ' ∧
        (Sender.register capacity s).stage ℓ' = s.stage ℓ' := fun hlt =>
    ⟨Function.update_of_ne hlt.ne .., Function.update_of_ne hlt.ne ..⟩
  have hkey : (Sender.register capacity s).key s.count = s.registry.nextKey :=
    Function.update_self ..
  have hstage : (Sender.register capacity s).stage s.count = .pending := Function.update_self ..
  have split : ∀ {ℓ'}, ℓ' < (Sender.register capacity s).count → ℓ' < s.count ∨ ℓ' = s.count :=
    fun hlt => Nat.lt_succ_iff_lt_or_eq.mp hlt
  refine ⟨?_, ?_, ?_, ?_, ?_, ?_⟩
  · intro ℓ' hlt
    rcases split hlt with hlt | rfl
    · rw [(hold hlt).1]
      exact lt_of_lt_of_le (h.slot_lt ℓ' hlt) (le_nextSlot_allocate _ _)
    · rw [hkey]
      exact h.nextKey_lt _
  · intro ℓ₁ h₁ ℓ₂ h₂ heq
    rcases split h₁ with h₁ | rfl <;> rcases split h₂ with h₂ | rfl
    · rw [(hold h₁).1, (hold h₂).1] at heq
      exact h.distinct ℓ₁ h₁ ℓ₂ h₂ heq
    · rw [(hold h₁).1, hkey] at heq
      have := (h.nextKey_fresh h₁ (by rw [heq])).2
      simp [heq] at this
    · rw [(hold h₂).1, hkey] at heq
      have := (h.nextKey_fresh h₂ (by rw [heq])).2
      simp [heq] at this
    · rfl
  · intro ℓ' hlt hst
    rcases split hlt with hlt | rfl
    · rw [(hold hlt).2] at hst
      have htop := h.top ℓ' hlt hst
      refine ⟨fun ℓ'' hlt'' hslot hne => ?_, fun k hk => ?_⟩
      · rcases split hlt'' with hlt'' | rfl
        · rw [(hold hlt'').1, (hold hlt).1] at hslot ⊢
          rw [(hold hlt'').2]
          exact htop.1 ℓ'' hlt'' hslot hne
        · rw [hkey, (hold hlt).1] at hslot
          exact absurd (h.nextKey_fresh hlt hslot.symm).1 hst
      · rw [(hold hlt).1]
        exact htop.2 k (h.mem_free hk).1
    · refine ⟨fun ℓ'' hlt'' hslot hne => ?_, fun k hk => ?_⟩
      · rcases split hlt'' with hlt'' | rfl
        · rw [hkey, (hold hlt'').1] at hslot ⊢
          rw [(hold hlt'').2]
          exact (h.nextKey_fresh hlt'' hslot).symm
        · exact absurd rfl hne
      · rw [hkey]
        exact (h.mem_free hk).2
  · intro k hk
    exact lt_of_lt_of_le (h.free_lt k (h.mem_free hk).1) (le_nextSlot_allocate _ _)
  · intro k hk ℓ' hlt hslot
    rcases split hlt with hlt | rfl
    · rw [(hold hlt).1] at hslot ⊢
      rw [(hold hlt).2]
      exact h.free_old k (h.mem_free hk).1 ℓ' hlt hslot
    · rw [hkey] at hslot
      exact absurd hslot.symm (h.mem_free hk).2
  · exact h.free_nodup.sublist ((List.tail_sublist _).map _)

/-- A property of every lane once a new one was registered. -/
theorem forall_lt_update {β : Type} {f : Nat → β} {b : β} {n : Nat} {p : Nat → β → Prop}
    (new : p n b) (old : ∀ x < n, p x (f x)) : ∀ x < n + 1, p x (Function.update f n b x) := by
  intro x hx
  rcases Nat.lt_succ_iff_lt_or_eq.mp hx with hx | rfl
  · rw [Function.update_of_ne hx.ne]
    exact old x hx
  · rw [Function.update_self]
    exact new

theorem ofLane_eq_nil {l : List (Nat × V)} {n : Nat} (h : ∀ e ∈ l, e.1 < n) : ofLane n l = [] := by
  simp only [ofLane, List.map_eq_nil_iff, List.filter_eq_nil_iff, decide_eq_true_eq]
  exact fun e he => (h e he).ne

theorem LaneInv.new (c : Bool) (capacity : Nat) :
    LaneInv c (Ring.new capacity : Ring V) 0 false .pending false [] where
  ok := .new capacity
  signaled_le := le_rfl
  dropMarked hd := absurd hd (by simp)
  closed hc := by simp [Ring.new] at hc
  retired hst := by simp at hst
  sealed hst := by simp at hst
  fresh _ _ := ⟨rfl, rfl, rfl⟩
  popped_le := List.nil_prefix
  popped_eq _ := rfl

theorem Core.register (h : Core P s) (capacity : Nat) : Core P (Sender.register capacity s) where
  noPanic := h.noPanic
  lane ℓ := by
    by_cases hne : ℓ = s.count
    · subst hne
      simp only [Sender.register, Function.update_self, ofLane_eq_nil h.popped_lt]
      exact .new _ capacity
    · simpa only [Sender.register, Function.update_of_ne hne] using h.lane ℓ
  completed_le ℓ := by
    by_cases hne : ℓ = s.count
    · simp [Sender.register, hne]
    · simpa [Sender.register, hne] using h.completed_le ℓ
  resumed_le ℓ := by
    by_cases hne : ℓ = s.count
    · simp [Sender.register, hne]
    · simpa [Sender.register, hne] using h.resumed_le ℓ
  live := (congrArg (· + 1) h.live).trans (liveCount_register _ _).symm
  registered := (congrArg (· + 1) h.registered).trans (laneCount_register _ _).symm
  pending_nodup := by
    refine List.nodup_append.mpr ⟨h.pending_nodup, by simp, fun a ha b hb => ?_⟩
    rw [List.mem_singleton.mp hb]
    exact ((h.mem_pending a).mp ha).1.ne
  mem_pending ℓ := by
    by_cases hne : ℓ = s.count
    · simp [Sender.register, Registry.allocate, hne]
    · have hlt : ℓ < s.count + 1 ↔ ℓ < s.count := by omega
      simp [Sender.register, Registry.allocate, hne, h.mem_pending ℓ, hlt]
  page_lt := forall_lt_update
    (p := fun _ (k : LaneKey) => k.slot / lanesPerPage < (s.registry.allocate s.count).pages)
    (Nat.lt_of_lt_of_le (Nat.lt_succ_self _) (le_max_right _ _))
    fun ℓ hℓ => lt_of_lt_of_le (h.page_lt ℓ hℓ) (le_max_left _ _)
  group_lt p hp := by
    rcases lt_max_iff.mp hp with hp | hp
    · exact lt_of_lt_of_le (h.group_lt p hp) (le_max_left _ _)
    · have hle : p / pagesPerGroup ≤ s.registry.nextKey.slot / lanesPerPage / pagesPerGroup :=
        Nat.div_le_div_right (Nat.lt_succ_iff.mp hp)
      exact lt_of_lt_of_le (Nat.lt_succ_of_le hle) (le_max_right _ _)
  word_lt p hp := lt_of_lt_of_le (h.word_lt p hp) (le_max_left _ _)
  keys := h.keys.register capacity
  gone ℓ hg := by
    by_cases hne : ℓ = s.count
    · simp [Sender.register, hne] at hg
    · simp only [Sender.register, Function.update_of_ne hne] at hg ⊢
      exact h.gone ℓ hg
  popped_lt e he := Nat.lt_succ_of_lt (h.popped_lt e he)
  returned := h.returned
  ids i hi id hid := by
    have hlt : i.lane < s.count :=
      h.popped_lt _ (h.returned.subset (List.mem_map_of_mem (f := Item.pair) hi))
    simpa [Sender.register, Function.update_of_ne hlt.ne] using h.ids i hi id hid
  space ℓ hℓ hsl := by
    rcases Nat.lt_succ_iff_lt_or_eq.mp hℓ with hℓ | rfl
    · simp only [Sender.register, Stuck, Function.update_of_ne hℓ.ne] at hsl ⊢
      exact h.space ℓ hℓ hsl
    · simp [Sender.register, WaitCell.new] at hsl

/-- **A sender's step keeps the invariant of the channel.** -/
theorem Core.sender (h : Core P s) (hℓ : ℓ < s.count) (ha : SenderAct P ℓ s s') : Core P s' := by
  cases ha with
  | ring r hr hopen hawake => exact h.ownRing hr hopen hawake
  | space c hc hgone => exact h.ownSpace hc
  | swap hp hgone => exact h.swap hgone _
  | page hp =>
    have hgone : s.gone ℓ = false := by
      by_contra hg
      exact (h.gone ℓ (by simpa using hg)).2.1 hp
    simp only [markGhost]
    split
    · exact (h.markPage hℓ).setPaged hgone
    · exact (h.markPage hℓ).setPhase (by simp)
  | group hp => exact (h.markGroup _).setPhase (by simp)
  | bump hp => exact (h.setData _).setPhase (by simp)
  | wake more hp => exact (h.setData _).setPhase (by split <;> simp)
  | signal hp => exact (h.setData _).setPhase (by simp)
  | reply published r hp hquiet hgone => exact h.reply r hp
  | register capacity halive hgone => exact h.register capacity
  | leave hd hq hgone => exact h.leave hℓ hd hgone

end Fanring.Mpsc
