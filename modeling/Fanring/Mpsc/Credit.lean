import Fanring.Mpsc.Outline

/-!
# The MPSC channel: who withholds credit

The receiver publishes the slots it has consumed in batches, so a sender may find its ring full of
slots that were read. The receiver keeps such slots only on lanes it will come back to: those in its
rotation, and those it has paused. What it says when it finds nothing therefore costs no sender
anything, and neither does its sleep.
-/

set_option autoImplicit false

namespace Fanring.Mpsc

open Conc Chan

variable {V : Type} {P : Params} {S : Setting} {s : Chan V} {ℓ : Nat} {x : Ctx V} {rx : Receiver}

/-- The lane counts as registered. -/
def Chan.Registered (s : Chan V) (ℓ : Nat) : Prop := ℓ < s.count ∧ s.stage ℓ ≠ .retired

/-- The receiver has adopted the lane and paused it. -/
def Chan.Paused (s : Chan V) (ℓ : Nat) : Prop :=
  s.stage ℓ = .adopted ∧ s.rx.paused (s.key ℓ).slot = true

/-- Slots of the lane were consumed, and its sender does not know. -/
def Chan.Withheld (s : Chan V) (ℓ : Nat) : Prop := (s.ring ℓ).released ≠ (s.ring ℓ).head

theorem unpaused_slot (h : ¬ s.Paused ℓ) (hst : s.stage ℓ = .adopted) :
    s.rx.paused (s.key ℓ).slot = false := by
  simpa [Chan.Paused, hst] using h

/-- A lane that is neither in the rotation nor paused has all its credit. -/
theorem View.released (hv : View S x rx s) (hc : Core P s) (hout : x.out = none)
    (hhot : x.hot = none) (hclosing : x.closing = none) (hreg : s.Registered ℓ)
    (hactive : s.key ℓ ∉ rx.active)
    (hpaused : s.stage ℓ = .adopted → rx.paused (s.key ℓ).slot = false) :
    (s.ring ℓ).released = (s.ring ℓ).head := by
  obtain ⟨hlt, hst⟩ := hreg
  have hshut : s.stage ℓ = .adopted → s.shut ℓ = false := by
    intro hst
    by_contra hsh
    have := hv.closing ℓ hlt hst (by simpa using hsh)
    exact absurd (hclosing.symm.trans this) (by simp)
  cases hstage : s.stage ℓ with
  | retired => exact absurd hstage hst
  | pending =>
    have hfresh := (hc.lane ℓ).fresh hstage (hv.roster.fresh ℓ hlt hstage)
    rw [hfresh.1, hfresh.2.2]
  | adopted =>
    obtain ⟨e, he, rfl⟩ := hv.roster.adopted ℓ hlt hstage (hshut hstage)
    obtain ⟨lane, hl, rfl⟩ := Option.map_eq_some_iff.mp he
    have hkey : lane.key = s.key lane.ix := (hv.roster.held _ _ he).1
    have hfree : x.hot ≠ some lane.ix := by simp [hhot]
    have hqueued : lane.queued = false := by
      by_contra hq
      have hin := (hv.roster.queued lane.key).mpr
        ⟨lane.skel, by rw [hkey]; exact he, rfl, by simpa [Lane.skel] using hq⟩
      rcases hin with hin | hin
      · exact hactive (hkey ▸ hin)
      · exact absurd (hout.symm.trans hin) (by simp)
    have hcredit := (hv.counters _ lane hl hfree).credit
    have hidle := hv.idle _ lane hl hfree (hpaused hstage) hqueued
    have hfast := hv.no_fast hl hqueued hfree
    show (s.ring lane.ix).released = (s.ring lane.ix).head
    omega

/-- **A receiver that finds nothing withholds no credit.** In every run:
    - whenever the receiver is between operations, or asleep in one, a slot that was consumed and
      not published is on a lane that is in the rotation or paused;
    - when an ordinary receive has answered that there is nothing, every lane that is not paused has
      all its consumed slots published;
    - so has it while the receiver sleeps in a blocking receive. -/
theorem empty_withholds_nothing {c : Config (Chan V) Tid} (h : Reaches V P c) :
    (c.pool .rx = none ∧ c.st.receiverAlive = true ∨ c.st.data.sleep = .asleep →
      ∀ ℓ, c.st.Registered ℓ → c.st.Withheld ℓ →
        c.st.key ℓ ∈ c.st.rx.active ∨ c.st.Paused ℓ) ∧
    (∀ (op : RecvOp V) c₁ c₂, op.ordinary = true →
      (system V P).exec c (.call .rx (.recv op)) = some c₁ →
      (system V P).During System.always .rx c₁ c₂ → c₂.pool .rx = none →
      c₂.st.history.getLast?.any Reply.foundNothing = true →
      ∀ ℓ, c₂.st.Registered ℓ → ¬ c₂.st.Paused ℓ → ¬ c₂.st.Withheld ℓ) ∧
    (c.st.data.sleep = .asleep → ∀ ℓ, c.st.Registered ℓ → ¬ c.st.Paused ℓ → ¬ c.st.Withheld ℓ) := by
  have hgood := h.good
  have hcore : Core P c.st := hgood.1.core
  -- at rest and asleep the receiver has stored its fields, so its view speaks of them
  have hview : c.pool .rx = none ∧ c.st.receiverAlive = true ∨ c.st.data.sleep = .asleep →
      ∃ S x, View S x c.st.rx c.st ∧ x.out = none ∧ x.hot = none ∧ x.closing = none := by
    rintro (⟨hrx, halive⟩ | hasleep)
    · have hidle := hgood.2 .rx
      rw [hrx] at hidle
      exact ⟨_, _, (Rests.between hidle halive).view, rfl, rfl, rfl⟩
    · exact ⟨_, _, (hgood.1.asleep hasleep).view, rfl, rfl, rfl⟩
  refine ⟨fun hrest ℓ hreg hheld => ?_, fun op c₁ c₂ hop hcall hrun hback hlast => ?_,
    fun hasleep ℓ hreg hpaused hheld => ?_⟩
  · obtain ⟨S, x, hv, hout, hhot, hclosing⟩ := hview hrest
    by_contra hne
    obtain ⟨hactive, hpaused⟩ := not_or.mp hne
    exact hheld (hv.released hcore hout hhot hclosing hreg hactive (unpaused_slot hpaused))
  · obtain ⟨hinv, hend⟩ := h.returned (S := .watching false .none .none) rfl hcall hrun
      hback fun hi hb => RecvOp.code_spec op op.admits_none c.st hi ⟨hb, fun hb => by cases hb⟩
    have hend := hend.returns (by rintro rfl; cases hop)
    obtain ⟨r, hr, hnone⟩ := (Option.any_eq_true _ _).mp hlast
    intro ℓ hreg hpaused hheld
    have hout : c₂.st.key ℓ ∉ c₂.st.rx.active := by simp [hend.2 hop r hr hnone]
    exact hheld (hend.1.view.released hinv.core rfl rfl rfl hreg hout
      (unpaused_slot hpaused))
  · have hs := hgood.1.asleep hasleep
    have hout : c.st.key ℓ ∉ c.st.rx.active := by simp [hs.active]
    exact hheld (hs.view.released hcore rfl rfl rfl hreg hout (unpaused_slot hpaused))

/-- One value is sent and received; the next receive finds nothing and gives the slot back. -/
theorem empty_withholds_nothing_one :
    let S := system Nat ⟨true, 0, 4⟩
    let c := S.after (start Nat ⟨true, 0, 4⟩)
      (System.turn (.tx 0) (.send (.trySend 7)) 13 ++ System.turn .rx (.recv (.tryRecv false)) 15)
    let c' := S.after (S.after c [.call .rx (.recv (.tryRecv false))])
      (List.replicate 18 (.step .rx 0))
    (c.st.Withheld 0 ∧ (c.st.key 0 ∈ c.st.rx.active ∨ c.st.Paused 0)) ∧
      (c'.st.ring 0).head = 1 ∧ ¬ c'.st.Withheld 0 := by
  intro S c c'
  obtain ⟨hrest, hempty, -⟩ := empty_withholds_nothing (V := Nat) (P := ⟨true, 0, 4⟩) (c := c)
    (System.run_after (by decide +kernel))
  have hheld : c.st.Withheld 0 := by
    show (c.st.ring 0).released ≠ (c.st.ring 0).head
    decide +kernel
  refine ⟨⟨hheld, ?_⟩, by decide +kernel, ?_⟩
  · exact hrest (.inl (by decide +kernel)) 0 ⟨by decide +kernel, by decide +kernel⟩ hheld
  · refine hempty (.tryRecv false) _ c' rfl
      (System.exec_after (by decide +kernel)) (System.during_after (by decide +kernel))
      (by decide +kernel) (by decide +kernel) 0 ⟨by decide +kernel, by decide +kernel⟩ ?_
    rintro ⟨-, hpaused⟩
    revert hpaused
    decide +kernel

end Fanring.Mpsc
