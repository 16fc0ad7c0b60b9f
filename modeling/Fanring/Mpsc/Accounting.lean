import Fanring.Mpsc.Outline

/-!
# The MPSC channel: the books the receiver keeps

Between two operations the receiver's own fields describe what it holds: which lanes there are,
which of them wait their turn, and what the counters of a lane stand for. The code relies on all of
it and checks none, apart from the assertion that an adopted lane finds its slot empty.
-/

set_option autoImplicit false

namespace Fanring.Mpsc

open Conc Chan

variable {V : Type} {P : Params} {S : Setting} {s : Chan V} {ℓ : Nat} {x : Ctx V}

/-! ## The rotation -/

/-- **The structure of the rotation.** In every run no assertion fails, so a lane that is adopted
    finds its slot empty; and between two operations of the receiver the rotation has no duplicates
    and holds exactly the keys of the lanes that are flagged as queued, none of them paused, a slot
    without a lane is not paused, the vectors of lanes and of pause flags have one length, and the
    slot of every pending lane is empty. -/
theorem rotation_structure {c : Config (Chan V) Tid} (h : Reaches V P c) :
    c.st.panicked = false ∧
    (c.pool .rx = none → c.st.receiverAlive = true →
      c.st.rx.active.Nodup ∧
      (∀ key, key ∈ c.st.rx.active ↔
        ∃ lane, c.st.rx.lanes key.slot = some lane ∧ lane.key = key ∧ lane.queued = true) ∧
      (∀ slot lane, c.st.rx.lanes slot = some lane → lane.queued = true →
        c.st.rx.paused slot = false) ∧
      (∀ slot, c.st.rx.lanes slot = none → c.st.rx.paused slot = false) ∧
      c.st.rx.pausedLen = c.st.rx.lanesLen ∧
      ∀ ℓ ∈ c.st.registry.pending, c.st.rx.lanes (c.st.key ℓ).slot = none) := by
  have hcore : Core P c.st := h.good.1.core
  refine ⟨hcore.noPanic, fun hrx halive => ?_⟩
  have hv := (h.between hrx halive).view
  have hr : Roster c.st.rx.skel none c.st := hv.roster
  refine ⟨hr.nodup, fun key => ?_, fun slot lane hl hq => ?_, fun slot hl => ?_, hr.lens,
    fun ℓ hm => hv.pending_slot hcore hm⟩
  · have hout : key ∈ c.st.rx.active ↔ key ∈ c.st.rx.skel.active ∨ none = some key := by
      simp [Receiver.skel]
    refine hout.trans ((hr.queued key).trans ⟨?_, ?_⟩)
    · rintro ⟨e, he, hk, hq⟩
      obtain ⟨lane, hl, rfl⟩ := Option.map_eq_some_iff.mp he
      exact ⟨lane, hl, hk, hq⟩
    · rintro ⟨lane, hl, hk, hq⟩
      exact ⟨lane.skel, Receiver.skel_lane hl, hk, hq⟩
  · by_contra hp
    have hp : c.st.rx.paused slot = true := by simpa using hp
    have := hr.paused slot _ (Receiver.skel_lane hl) hp
    exact absurd (hq.symm.trans this) (by simp)
  · exact hr.vacant slot (Option.map_eq_none_iff.mpr hl)

/-- A second lane waits to be adopted; its slot is empty. -/
theorem rotation_structure_pending :
    let c := (system Nat ⟨true, 0, 4⟩).after (start Nat ⟨true, 0, 4⟩)
      (System.turn (.tx 0) (.send (.register 2 4)) 4)
    c.st.registry.pending = [1] ∧ c.st.rx.lanes (c.st.key 1).slot = none := by
  intro c
  obtain ⟨-, hbooks⟩ := rotation_structure (V := Nat) (P := ⟨true, 0, 4⟩) (c := c)
    (System.run_after (by decide +kernel))
  have hpending : c.st.registry.pending = [1] := by decide +kernel
  obtain ⟨-, -, -, -, -, hfree⟩ := hbooks (by decide +kernel) (by decide +kernel)
  exact ⟨hpending, hfree 1 (by rw [hpending]; exact List.mem_singleton_self 1)⟩

/-! ## The counters of a lane -/

/-- What the counters of a lane stand for: the first two say how far the receiver has read and
    published the ring, the others keep them within their limits. -/
structure Accounts (s : Chan V) (slot : Nat) (lane : Lane) : Prop where
  window : (s.ring lane.ix).head + (lane.cachedAvailable + lane.fastLeft) =
    (s.ring lane.ix).cachedTail
  credit : (s.ring lane.ix).released + lane.unreleased = (s.ring lane.ix).head + lane.fastLeft
  fast_le : lane.fastLeft ≤ lane.burst
  burst_lt : lane.burst < prefetchLimit
  unreleased_lt : lane.unreleased < lane.releaseBatch
  batch_le : lane.releaseBatch ≤ (s.ring lane.ix).cap
  fast : 0 < lane.fastLeft → slot = s.rx.fastSlot ∧ s.rx.active.head? = some lane.key ∧
    lane.fastLeft ≤ s.rx.itemsUntilReadyPoll

theorem View.accounts (hv : View S x s.rx s) (hhot : x.hot = none) (hout : x.out = none)
    {slot : Nat} {lane : Lane} (hl : s.rx.lanes slot = some lane) : Accounts s slot lane := by
  have hok := hv.counters slot lane hl (by simp [hhot])
  have hwindow := hok.window
  refine ⟨by omega, hok.credit, hok.fast_le, hok.burst_lt, hok.unreleased_lt, ?_, fun hpos => ?_⟩
  · rw [hok.batch]
    exact Nat.min_le_right ..
  · obtain ⟨hfront, hslot, hitems⟩ := hv.fast slot lane hl (by simp [hhot]) hpos
    rw [hout] at hfront
    exact ⟨hslot, hfront, by omega⟩

/-- A transition publishes slots to a sender that is there only with a record of it. -/
theorem guar.published {t : Tid} {s' : Chan V} {b : Bool} (hg : guar P t s s') (hi : Inv P b s)
    (hreg : ℓ < s.count ∧ s.stage ℓ ≠ .retired) (hshut : s'.shut ℓ = false)
    (hthere : (s.ring ℓ).producerDropped = false)
    (hne : (s'.ring ℓ).released ≠ (s.ring ℓ).released) :
    ∃ n m b f, .publish ℓ n m b f ∈ s'.trace.drop s.trace.length ∧
      Published (s.ring ℓ) n m b f := by
  cases t with
  | rx =>
    obtain ⟨es, hes, -, hpub, -, hrel⟩ := hg.recorded
    rcases hrel ℓ with h | ⟨n, m, b, f, hm⟩ | h | h
    · exact absurd h hne
    · refine ⟨n, m, b, f, ?_, hpub ℓ n m b f hm⟩
      rw [hes, List.drop_left]
      exact hm
    · exact absurd (hshut.symm.trans h) (by simp)
    · exact absurd (hthere.symm.trans h) (by simp)
  | tx ℓ' =>
    rcases hg with rfl | ⟨hℓ', ha⟩
    · exact absurd rfl hne
    · have hf := ha.frame hi.core hℓ'
      have hopen : s.shut ℓ = false := (hf.shut ℓ hreg.1).symm.trans hshut
      exact absurd (hf.ring ℓ hreg.1 hopen hreg.2).released hne

/-- The terms of a call that receives a single value. -/
def Terms.singly (t : Nat) : Terms := { single := some t }

theorem Between.single (h : Between false s) : Resting false (.singly s.trace.length) s :=
  ⟨{ h.view with
      single := fun t ht => by
        cases ht
        exact ⟨le_rfl, by simp⟩ }, h.active⟩

/-- **The accounts of a lane.** In every run:
    - no subtraction underflows and no pop that is expected to find a value fails;
    - between two operations of the receiver the counters of every lane stand for what the receiver
      has read and not published, and at most the lane in `fast_slot` has a fast window, which is
      then at the front of the rotation and within the budget;
    - slots are published to a sender that is there with a record of how many were consumed since
      the last publication, what is left of the window, and what the last look at the tail found;
    - a receive of one value publishes them when a release batch is complete, or when nothing is
      left of the window and the last look at the tail found the ring empty, and at no other
      time. -/
theorem lane_accounting {c : Config (Chan V) Tid} (h : Reaches V P c) :
    c.st.panicked = false ∧
    (c.pool .rx = none → c.st.receiverAlive = true →
      ∀ slot lane, c.st.rx.lanes slot = some lane → Accounts c.st slot lane) ∧
    (∀ l c', (system V P).exec c l = some c' → ∀ ℓ < c.st.count, c.st.stage ℓ ≠ .retired →
      c'.st.shut ℓ = false → (c.st.ring ℓ).producerDropped = false →
      (c'.st.ring ℓ).released ≠ (c.st.ring ℓ).released →
      ∃ slots left batch found,
        .publish ℓ slots left batch found ∈ c'.st.trace.drop c.st.trace.length ∧
        Published (c.st.ring ℓ) slots left batch found) ∧
    ∀ (op : RecvOp V) c₁ c₂, op.single = true →
      (system V P).exec c (.call .rx (.recv op)) = some c₁ →
      (system V P).During System.always .rx c₁ c₂ → c₂.pool .rx = none →
      ∀ ℓ slots left batch found,
        .publish ℓ slots left batch found ∈ c₂.st.trace.drop c.st.trace.length →
        left = 0 ∧ found = 0 ∨ slots = batch := by
  refine ⟨h.good.1.core.noPanic, fun hrx halive slot lane hl => ?_,
    fun l c' hl ℓ hlt hst hsh hthere hne => ?_,
    fun op c₁ c₂ hop hcall hrun hback ℓ n m b f hm => ?_⟩
  · exact (h.between hrx halive).view.accounts rfl rfl hl
  · obtain ⟨t, hg⟩ := h.good.guarantees (ok_always c l) hl
    exact guar.published hg h.good.1 ⟨hlt, hst⟩ hsh hthere hne
  · have hadmits : op.Admits (.singly c.st.trace.length) :=
      ⟨fun _ => ⟨rfl, rfl, rfl⟩, fun hno => absurd (hno.symm.trans hop) (by simp)⟩
    obtain ⟨-, hend⟩ := h.returned (S := .watching false (.singly _) .none) rfl hcall hrun hback
      fun hi hb => RecvOp.code_spec op hadmits c.st hi ⟨hb.single, fun hb => by cases hb⟩
    have hspare := (hend.returns (by rintro rfl; cases hop)).1.view.single _ rfl
    exact hspare.sparing _ hm

/-- Three values are sent and two received; the second receive leaves a fast window of one value,
    and no slot is published before the batch of eight is complete. -/
theorem lane_accounting_window :
    let S := system Nat ⟨true, 0, 8⟩
    let c := S.after (start Nat ⟨true, 0, 8⟩)
      (System.turn (.tx 0) (.send (.trySend 7)) 13 ++ System.turn (.tx 0) (.send (.trySend 8)) 9 ++
        System.turn (.tx 0) (.send (.trySend 9)) 9 ++ System.turn .rx (.recv (.tryRecv false)) 15)
    let c' := S.after (S.after c [.call .rx (.recv (.tryRecv false))])
      (List.replicate 4 (.step .rx 0))
    (∀ lane, c'.st.rx.lanes 0 = some lane → Accounts c'.st 0 lane) ∧
      (c'.st.rx.lanes 0).map (·.fastLeft) = some 1 ∧
      ∀ ℓ slots left batch found,
        .publish ℓ slots left batch found ∈ c'.st.trace.drop c.st.trace.length →
        left = 0 ∧ found = 0 ∨ slots = batch := by
  intro S c c'
  have hcall : S.exec c (.call .rx (.recv (.tryRecv false))) = some _ :=
    System.exec_after (by decide +kernel)
  have hrun : S.Run System.always c c' :=
    .head ⟨_, trivial, hcall⟩ (System.run_after (by decide +kernel))
  have hreach : Reaches Nat ⟨true, 0, 8⟩ c := System.run_after (by decide +kernel)
  obtain ⟨-, hbooks, -⟩ := lane_accounting (hreach.trans hrun)
  obtain ⟨-, -, -, hsingle⟩ := lane_accounting hreach
  exact ⟨hbooks (by decide +kernel) (by decide +kernel) 0, by decide +kernel,
    hsingle (.tryRecv false) _ c' rfl hcall (System.during_after (by decide +kernel))
      (by decide +kernel)⟩

/-- A receive of one value that finds its lane empty publishes the one slot it has consumed,
    although the release batch is eight. -/
theorem partial_batch_published :
    let S := system Nat ⟨true, 0, 8⟩
    let c := S.after (start Nat ⟨true, 0, 8⟩)
      (System.turn (.tx 0) (.send (.trySend 7)) 13 ++ System.turn .rx (.recv (.tryRecv false)) 15)
    let c₁ := S.after c [.call .rx (.recv (.tryRecv false))]
    let c₂ := S.after c₁ (List.replicate 18 (.step .rx 0))
    Reaches Nat ⟨true, 0, 8⟩ c ∧ S.exec c (.call .rx (.recv (.tryRecv false))) = some c₁ ∧
      S.During System.always .rx c₁ c₂ ∧ c₂.pool .rx = none ∧
      (c.st.ring 0).released = 0 ∧ (c₂.st.ring 0).released = 1 ∧
      (c₂.st.rx.lanes 0).map (·.releaseBatch) = some 8 := by
  intro S c c₁ c₂
  exact ⟨System.run_after (by decide +kernel), System.exec_after (by decide +kernel),
    System.during_after (by decide +kernel), Option.isNone_iff_eq_none.mp (by decide +kernel),
    by decide +kernel, by decide +kernel, by decide +kernel⟩

end Fanring.Mpsc
