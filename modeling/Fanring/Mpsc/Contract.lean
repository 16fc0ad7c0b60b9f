import Fanring.Mpsc.Stable

/-!
# The MPSC channel: the contracts of its threads

The invariant of the channel is `Core`, and what makes it right for the receiver to sleep: as long
as it does, its fields are as it left them (`Chan.rx`), and either somebody is on the way to wake
it, or there is nothing to receive.

`recvC` and `sendC` are the contracts of the two kinds of thread. The receiver relies on the senders
doing nothing but `SenderAct`s and owes them `RecvAct`s, and the other way round.
-/

set_option autoImplicit false

namespace Fanring.Mpsc

open Conc Chan

variable {V : Type} {P : Params} {S : Setting} {s s' : Chan V} {ℓ : Nat} {x : Ctx V}
  {rx : Receiver}

/-! ## The invariant -/

/-- Somebody is on the way to the sleeper. -/
def Announced (s : Chan V) : Prop :=
  ∃ ℓ < s.count, (s.phase ℓ).announcing ∨ s.phase ℓ = .bumped true ∨ s.phase ℓ = .woken

/-- The receiver is right to sleep. -/
structure Sleeping (s : Chan V) : Prop where
  waiting : s.data.waiting = true
  view : View {} { Ctx.base with asleep := true } s.rx s
  active : s.rx.active = []
  reason : Announced s ∨ Quiesced s.rx.book s

structure Inv (P : Params) (strict : Bool) (s : Chan V) : Prop where
  core : Core P s
  asleep : s.data.sleep = .asleep → Sleeping s
  trace : strict = true → TraceOk s.trace

theorem Announced.sender (h : Announced s) (hw : s.data.waiting = true)
    (hs : s.data.sleep = .asleep) (hc : Core P s) (hℓ : ℓ < s.count) (ha : SenderAct P ℓ s s')
    (hs' : s'.data.sleep = .asleep) : Announced s' := by
  obtain ⟨ℓ', hlt, h⟩ := h
  have hlt' : ℓ' < s'.count := lt_of_lt_of_le hlt (ha.frame hc hℓ).count
  rcases h with h | h | h
  · rcases ha.announcing hlt h with h | ⟨h, -⟩
    · exact ⟨ℓ', hlt', .inl h⟩
    · exact ⟨ℓ', hlt', .inr (.inl (hw ▸ h))⟩
  · rcases ha.bumped hlt h with h | ⟨-, h⟩
    · exact ⟨ℓ', hlt', .inr (.inl h)⟩
    · exact ⟨ℓ', hlt', .inr (.inr h)⟩
  · rcases ha.woken hlt h with h | h
    · exact ⟨ℓ', hlt', .inr (.inr h)⟩
    · -- the signal reaches a sleeper
      simp [h, WaitCell.signal, hw, hs] at hs'

/-- The notification of a sender that found the receiver registered goes on to wake it. -/
theorem SenderAct.notified (ha : SenderAct P ℓ s s') (h : s.data.notified < s'.data.notified) :
    s'.phase ℓ = .bumped s.data.waiting := by
  cases ha with
  | bump hph => exact Function.update_self ..
  | signal hph =>
    simp only [notifyGhost, Chan.setPhase, dataL, WaitCell.signal] at h
    split at h <;> exact absurd h (lt_irrefl _)
  | ring | space | reply | swap | page | group | wake | register | leave =>
    exact absurd h (lt_irrefl _)

theorem Sleeping.sender (h : Sleeping s) (hs : s.data.sleep = .asleep) (hc : Core P s)
    (hℓ : ℓ < s.count) (ha : SenderAct P ℓ s s') (hs' : s'.data.sleep = .asleep) :
    Sleeping s' := by
  have hf := ha.frame hc hℓ
  refine ⟨hf.waiting.trans h.waiting, hf.rx ▸ h.view.sender hc hℓ ha,
    (congrArg Receiver.active hf.rx).trans h.active, ?_⟩
  rcases h.reason with hr | hr
  · exact .inl (hr.sender h.waiting hs hc hℓ ha hs')
  · rw [hf.rx]
    -- what a receiver registered at the present count would be told of is announced
    rcases hr.sender (a := .free (.sync s.data.notified)) (c := .none) (b := false)
      h.view.roster le_rfl hc hℓ ha
      with (hr | ⟨ℓ', hlt, hr⟩) | hr
    · exact .inl ⟨ℓ, lt_of_lt_of_le hℓ hf.count, .inr (.inl (h.waiting ▸ ha.notified hr))⟩
    · exact .inl ⟨ℓ', hlt, .inl hr⟩
    · exact .inr hr

theorem Inv.sender {strict : Bool} (h : Inv P strict s) (hℓ : ℓ < s.count)
    (ha : SenderAct P ℓ s s') : Inv P strict s' := by
  have hf := ha.frame h.core hℓ
  refine ⟨h.core.sender hℓ ha, fun hs' => ?_, hf.trace ▸ h.trace⟩
  have hs : s.data.sleep = .asleep := by
    rcases hf.sleep with hsl | hsl
    · exact hsl ▸ hs'
    · simp [hsl] at hs'
  exact (h.asleep hs).sender hs h.core hℓ ha hs'

/-! ## The contracts -/

/-- What a thread's step does. -/
def guar (P : Params) : Tid → Chan V → Chan V → Prop
  | .rx => RecvAct P
  | .tx ℓ => fun s s' => s' = s ∨ ℓ < s.count ∧ SenderAct P ℓ s s'

def recvC (P : Params) (S : Setting) : Contract (Chan V) where
  inv := Inv P S.strict
  rely s s' := ∃ u, u ≠ .rx ∧ guar P u s s'
  guar := guar P .rx
  cond _ _ := True
  goal := S.aim.goal

def sendC (P : Params) (strict : Bool) (ℓ : Nat) : Contract (Chan V) where
  inv := Inv P strict
  rely s s' := ∃ u, u ≠ .tx ℓ ∧ guar P u s s'
  guar := guar P (.tx ℓ)
  cond _ _ := True
  goal _ := True

/-- Whatever every sender's step keeps, the receiver may rely on. -/
theorem recvC_stable {Q : Chan V → Prop}
    (h : ∀ s s' ℓ, Core P s → ℓ < s.count → SenderAct P ℓ s s' → Q s → Q s') :
    (recvC P S).Stable Q := by
  rintro s s' hs - ⟨u, hu, hg⟩ hq
  cases u with
  | rx => exact absurd rfl hu
  | tx ℓ =>
    rcases hg with rfl | ⟨hℓ, ha⟩
    · exact hq
    · exact h s s' ℓ hs.core hℓ ha hq

theorem View.stable : (recvC P S).Stable (View S x rx) :=
  recvC_stable fun _ _ _ hc hℓ ha h => h.sender hc hℓ ha

end Fanring.Mpsc
