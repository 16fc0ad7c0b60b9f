import Fanring.Mpsc.Delivery

/-!
# The receiver is dropped

What `Receiver::drop` leaves behind, whatever senders and registrations do meanwhile. `Torn` is what
its code leads to: nothing is pending, and every lane that is not retired is closed for its sender.
Two things are added here. A lane's consumer is closed once: the closes of each lane are counted
(`Chan.closings`), and a step of the receiver can begin one only on a lane it has not closed. And a
sender that calls after the drop finds its own lane closed at the first look: its send answers
`Disconnected` and adds nothing to the lane (`Deserted`), without waiting for anybody.
-/

set_option autoImplicit false

namespace Fanring.Mpsc

open Conc Chan

variable {V : Type} {P : Params} {s s' : Chan V} {ℓ : Nat} {l : List V} {v : V}

/-! ## A lane is closed once -/

theorem CloseStep.once {b b' : Bool} {n n' : Nat} (h : CloseStep b n b' n')
    (hn : n = if b then 1 else 0) : n' = if b' then 1 else 0 := by
  cases h with
  | idle => exact hn
  | begin => simp [hn]

/-- Nobody receives any more, the sender's lane is closed, and holds what it held. -/
structure Deserted (P : Params) (ℓ : Nat) (l : List V) (s : Chan V) : Prop where
  lt : ℓ < s.count
  dead : s.receiverAlive = false
  closed : (s.ring ℓ).isClosed P.coordinated = true
  log : (s.ring ℓ).log = l

/-- The sender's contract as far as its producer goes; it has to return. -/
def endC (P : Params) (ℓ : Nat) : Contract (Chan V) :=
  .besides (fun s s' => ℓ < s.count → Leaves P ℓ s s') fun _ => False

theorem Deserted.stable : (endC P ℓ).Stable (Deserted (V := V) P ℓ l) := fun _ _ _ _ hr h =>
  have hl := hr h.lt
  ⟨hl.lt, hl.alive h.dead, hl.closed h.closed, hl.log.trans h.log⟩

/-- The operation found out. -/
def TurnedAway (P : Params) (ℓ : Nat) (l : List V) (r : SendReply) (s : Chan V) : Prop :=
  r = .disconnected ∧ Deserted P ℓ l s

theorem TurnedAway.stable {r : SendReply} : (endC P ℓ).Stable (TurnedAway (V := V) P ℓ l r) :=
  (Contract.Stable.pure _).and Deserted.stable

theorem end_read {f : Chan V → Bool} {b : Bool} (h : ∀ s, Deserted P ℓ l s → f s = b) :
    Triple (endC P ℓ) (Deserted P ℓ l) (.read f) fun r s => r = b ∧ Deserted P ℓ l s :=
  Triple.besides_atomic Deserted.stable (fun _ => (Contract.Stable.pure _).and Deserted.stable)
    fun s hs => ⟨h s hs, hs⟩

/-- What follows a look that can come out in one way only. -/
theorem end_look {α : Type} {f : Chan V → Bool} {b : Bool} {k : Bool → Prog (Chan V) α}
    {Q : α → Chan V → Prop} (h : ∀ s, Deserted P ℓ l s → f s = b)
    (hk : Triple (endC P ℓ) (Deserted P ℓ l) (k b) Q) :
    Triple (endC P ℓ) (Deserted P ℓ l) ((Prog.read f).bind k) Q :=
  (end_read h).bind_known hk

theorem end_refused :
    Triple (endC P ℓ) (Deserted P ℓ l) (.ret .disconnected) (TurnedAway (V := V) P ℓ l) :=
  Triple.ret TurnedAway.stable fun _ _ h => ⟨rfl, h⟩

theorem end_trySendInner :
    Triple (endC P ℓ) (Deserted P ℓ l) (Sender.trySendInner P ℓ v) fun r s =>
      r = (.disconnected, false) ∧ Deserted P ℓ l s :=
  end_look (fun _ h => h.closed) (Triple.ret ((Contract.Stable.pure _).and Deserted.stable)
    fun _ _ h => ⟨rfl, h⟩)

theorem end_trySend :
    Triple (endC P ℓ) (Deserted P ℓ l) (Sender.trySend P ℓ v) (TurnedAway P ℓ l) :=
  end_trySendInner.bind_known end_refused

theorem end_isDisconnected :
    Triple (endC P ℓ) (Deserted P ℓ l) (Sender.isDisconnected P ℓ) fun b s =>
      b = true ∧ Deserted (V := V) P ℓ l s :=
  end_look (fun _ h => h.dead) (Triple.ret ((Contract.Stable.pure _).and Deserted.stable)
    fun _ _ h => ⟨rfl, h⟩)

/-- A blocking send does not block: its first attempt answers. -/
theorem end_sendDeadline (spins : Nat) (deadline : Bool) :
    Triple (endC P ℓ) (Deserted P ℓ l) (Sender.sendDeadline P ℓ spins deadline v)
      (TurnedAway P ℓ l) := by
  have hattempt : Triple (endC P ℓ) (Deserted P ℓ l) ((Sender.blocking P ℓ v).attempt () ())
      fun r s => ∃ o, r.1 = .done o ∧ o = false ∧ Deserted P ℓ l s :=
    end_trySend.bind_known (Triple.ret
      (fun s s' hs hs' hr ⟨o, h, ho, hd⟩ => ⟨o, h, ho, Deserted.stable s s' hs hs' hr hd⟩)
      fun _ _ h => ⟨false, rfl, rfl, h⟩)
  refine (Blocking.run_at_once Deserted.stable
    (fun _ _ => (Contract.Stable.pure _).and Deserted.stable) hattempt spins deadline).bind
    fun r => ?_
  refine Triple.given (φ := r.1 = .ok false) (fun _ _ hs => ?_) fun hr => ?_
  · obtain ⟨o, h, rfl, -⟩ := hs
    exact h
  · obtain ⟨a, e⟩ := r
    obtain rfl : a = .ok false := hr
    refine end_refused.pre fun _ _ hs => ?_
    obtain ⟨-, -, -, hd⟩ := hs
    exact hd

theorem end_mustWait :
    Triple (endC P ℓ) (Deserted P ℓ l) (Sender.mustWait P ℓ) fun b s =>
      b = false ∧ Deserted (V := V) P ℓ l s :=
  end_isDisconnected.bind_known (Triple.ret ((Contract.Stable.pure _).and Deserted.stable)
    fun _ _ hs => ⟨rfl, hs⟩)

theorem end_pollSend :
    Triple (endC P ℓ) (Deserted P ℓ l) (Sender.pollSend P ℓ v) (TurnedAway P ℓ l) := by
  have hcancel : Triple (endC P ℓ) (Deserted P ℓ l) (Sender.cancelSendWait (V := V) ℓ)
      fun _ => Deserted P ℓ l :=
    Triple.besides_atomic Deserted.stable (fun _ => Deserted.stable)
      fun s h => ⟨h.lt, h.dead, h.closed, h.log⟩
  have hready : Triple (endC P ℓ) (Deserted P ℓ l) (Sender.pollReady P ℓ) (TurnedAway P ℓ l) := by
    refine end_mustWait.bind_known ?_
    exact hcancel.bind fun _ => end_isDisconnected.bind_known end_refused
  exact hready.bind_known end_trySend

/-- The operation has answered `Disconnected`, and the lane holds what it held. -/
def Rejected (P : Params) (ℓ : Nat) (l : List V) (s : Chan V) : Prop :=
  s.sent ℓ = some .disconnected ∧ Deserted P ℓ l s

theorem Rejected.stable : (endC P ℓ).Stable (Rejected (V := V) P ℓ l) := fun s s' hs hs' hr h =>
  ⟨(hr h.2.lt).sent.trans h.1, Deserted.stable s s' hs hs' hr h.2⟩

theorem end_reply {p : Prog (Chan V) SendReply} {q : SendReply → Bool}
    (hp : Triple (endC P ℓ) (Deserted P ℓ l) p (TurnedAway P ℓ l)) :
    Triple (endC P ℓ) (Deserted P ℓ l) (p.bind fun r => Sender.reply ℓ (q r) r)
      fun _ => Rejected P ℓ l := by
  refine hp.bind_known ?_
  refine Triple.besides_atomic Deserted.stable (fun _ => Rejected.stable) fun s hs => ?_
  exact ⟨Function.update_self .., hs.lt, hs.dead, hs.closed, hs.log⟩

/-- A send or a registration. -/
def SendOp.enters : SendOp V → Bool
  | .register _ _ => true
  | op => op.value?.isSome

/-- **A send or a registration that starts after the drop answers `Disconnected`.** -/
theorem SendOp.end_spec (op : SendOp V) (hop : op.enters = true) :
    Triple (endC P ℓ) (Deserted P ℓ l) (op.code P ℓ) fun _ => Rejected P ℓ l := by
  cases op with
  | trySend v => exact end_reply end_trySend
  | trySendUnsignaled v =>
    exact end_reply (q := fun _ => false) (end_look (fun _ h => h.closed) end_refused)
  | trySendDeferred v => exact end_reply (end_look (fun _ h => h.closed) end_refused)
  | send v spins =>
    exact end_reply (end_trySend.bind_known end_refused)
  | sendDeadline v spins => exact end_reply (end_sendDeadline spins true)
  | pollSend v => exact end_reply end_pollSend
  | register maxLanes capacity =>
    exact end_reply (q := fun _ => false) (end_look (fun _ h => h.dead) end_refused)
  | flush | pollReady | cancelSendWait | drop =>
    exact absurd hop (by simp [SendOp.enters, SendOp.value?])

/-! ## Runs -/

/-- The drop of the receiver has returned. -/
structure Dropped (c : Config (Chan V) Tid) : Prop where
  dead : c.st.receiverAlive = false
  idle : c.pool .rx = none

theorem guar.dead {t : Tid} (hg : guar P t s s') (h : s.receiverAlive = false) :
    s'.receiverAlive = false := by
  cases t with
  | rx =>
    by_contra hne
    exact absurd (h.symm.trans (RecvAct.alive hg (by simpa using hne))) (by simp)
  | tx ℓ =>
    rcases hg with rfl | ⟨-, ha⟩
    · exact h
    · exact ha.alive.trans h

theorem Dropped.exec {c c' : Config (Chan V) Tid} {label : Label Tid (Op V)} (h : Dropped c)
    (hgood : (outline V P false).Good c) (hexec : (system V P).exec c label = some c') :
    Dropped c' := by
  refine ⟨?_, ?_⟩
  · obtain ⟨t, hg⟩ := hgood.guarantees (ok_always c label) hexec
    exact guar.dead hg h.dead
  · cases label with
    | call t op =>
      obtain ⟨-, hmay, rfl⟩ := System.exec_call hexec
      have hne : t ≠ .rx := by
        rintro rfl
        cases op with
        | recv op => exact absurd (h.dead.symm.trans hmay) (by simp)
        | send op => exact absurd hmay (by simp [system])
      simp only [Function.update_of_ne hne.symm]
      exact h.idle
    | step t n =>
      obtain ⟨p, p', s', hp, -, rfl⟩ := System.exec_step hexec
      have hne : t ≠ .rx := by
        rintro rfl
        exact absurd (h.idle.symm.trans hp) (by simp)
      simp only [Function.update_of_ne hne.symm]
      exact h.idle

theorem Dropped.run {c c' : Config (Chan V) Tid} (h : Dropped c) (hreach : Reaches V P c)
    (hrun : (system V P).Run System.always c c') : Reaches V P c' ∧ Dropped c' := by
  induction hrun with
  | refl => exact ⟨hreach, h⟩
  | tail _ hstep ih =>
    obtain ⟨label, -, hexec⟩ := hstep
    exact ⟨ih.1.tail ⟨label, trivial, hexec⟩, ih.2.exec ih.1.good hexec⟩

theorem Dropped.torn {c : Config (Chan V) Tid} (h : Dropped c) (hreach : Reaches V P c) :
    Torn P c.st := by
  have hidle := hreach.good.2 .rx
  rw [h.idle] at hidle
  rcases hidle with ht | hb
  · exact ht
  · exact absurd (h.dead.symm.trans hb.view.alive) (by simp)

/-- The lane of a sender that calls is closed: it was not retired and the drop reached it, or it was
    retired and its sender is still there. -/
theorem Dropped.deserted {c c₁ : Config (Chan V) Tid} {op : SendOp V} (h : Dropped c)
    (hreach : Reaches V P c)
    (hcall : (system V P).exec c (.call (.tx ℓ) (.send op)) = some c₁) :
    Deserted P ℓ (c.st.ring ℓ).log c.st := by
  have hst := stands_idle hreach.good hcall
  refine ⟨hst.lt, h.dead, ?_, rfl⟩
  by_cases hretired : c.st.stage ℓ = .retired
  · rcases hreach.good.1.core.retired_news hretired with hd | hc
    · exact absurd (hst.there.symm.trans hd) (by simp)
    · exact hc
  · exact ((h.torn hreach).closed ℓ hst.lt hretired).2

theorem Dropped.calling {c c₁ : Config (Chan V) Tid} {op : SendOp V} (h : Dropped c)
    (hreach : Reaches V P c) (hop : op.enters = true)
    (hcall : (system V P).exec c (.call (.tx ℓ) (.send op)) = some c₁) :
    (outline V P false).Calling (.tx ℓ) (fun _ => False)
      (Rested P ℓ (Rejected P ℓ (c.st.ring ℓ).log)) c₁ := by
  obtain ⟨-, hmay, -⟩ := System.exec_call hcall
  refine hreach.good.calling hcall fun hidle => ?_
  exact wp.besides (C := sendC P false ℓ) (fun s s' _ hr hlt => ownC_rely hr hlt)
    ((outline V P false).code_ok (.tx ℓ) (.send op) c.st hreach.good.1 hidle hmay trivial)
    hreach.good.1 (op.end_spec hop c.st trivial (h.deserted hreach hcall))

/-- A registration is between its first look at the receiver and the registry lock. -/
def registering : Config (Chan Nat) Tid :=
  (system Nat ⟨true, 0, 4⟩).after (start Nat ⟨true, 0, 4⟩) (List.flatten [
    System.turn (.tx 0) (.send (.trySend 7)) 13,
    [.call (.tx 0) (.send (.register 8 4)), .step (.tx 0) 0]])

end Fanring.Mpsc
