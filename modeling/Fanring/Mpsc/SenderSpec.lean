import Fanring.Mpsc.RecvCore

/-!
# The MPSC channel: senders

Triples for the code of a sender. What it knows between two accesses is an assertion about its own
lane (`Sends`): how far it is in announcing a publication, and, once it has registered to be told of
room, what it has found in its way since (`Blocked`). Nothing the others do takes that away: a lane
that gets room or is closed comes with a debt to tell its sender, and the debt is paid by a
notification the sender is going to see.
-/

set_option autoImplicit false

namespace Fanring.Mpsc

open Conc Chan

variable {V : Type} {P : Params} {strict : Bool} {s s' : Chan V} {ℓ : Nat}

/-! ## What the others do to a lane -/

/-- What the sender of a lane sees of a step of somebody else. -/
structure Others (P : Params) (ℓ : Nat) (s s' : Chan V) : Prop where
  count : s.count ≤ s'.count
  key : s'.key ℓ = s.key ℓ
  phase : s'.phase ℓ = s.phase ℓ
  signaled : s'.signaled ℓ = s.signaled ℓ
  dropMarked : s'.dropMarked ℓ = s.dropMarked ℓ
  gone : s'.gone ℓ = s.gone ℓ
  sent : s'.sent ℓ = s.sent ℓ
  ring : (s.ring ℓ).ConsumeStep (s'.ring ℓ)
  news : ((s.ring ℓ).producerDropped = true ∨ (s.ring ℓ).isClosed P.coordinated = true) ∨
    s'.owed ℓ = .due ∨ ((s'.ring ℓ).released = (s.ring ℓ).released ∧
      (s'.ring ℓ).isClosed P.coordinated = (s.ring ℓ).isClosed P.coordinated ∧
      s'.receiverAlive = s.receiverAlive)
  tell : TellStep (s.owed ℓ) (s.space ℓ) (s'.owed ℓ) (s'.space ℓ)

theorem RecvAct.others (ha : RecvAct P s s') (ℓ : Nat) : Others P ℓ s s' where
  count := ha.count.ge
  key := congrFun ha.key ℓ
  phase := congrFun ha.phase ℓ
  signaled := congrFun ha.signaled ℓ
  dropMarked := congrFun ha.dropMarked ℓ
  gone := congrFun ha.gone ℓ
  sent := congrFun ha.sent ℓ
  ring := ha.ring ℓ
  news := ha.news ℓ
  tell := ha.tell ℓ

/-- A step that leaves everything of the lane as it is. -/
theorem Others.of_eq (hcount : s.count ≤ s'.count) (hkey : s'.key ℓ = s.key ℓ)
    (hphase : s'.phase ℓ = s.phase ℓ) (hsignaled : s'.signaled ℓ = s.signaled ℓ)
    (hdrop : s'.dropMarked ℓ = s.dropMarked ℓ) (hgone : s'.gone ℓ = s.gone ℓ)
    (hsent : s'.sent ℓ = s.sent ℓ) (hring : s'.ring ℓ = s.ring ℓ)
    (halive : s'.receiverAlive = s.receiverAlive) (howed : s'.owed ℓ = s.owed ℓ)
    (hspace : s'.space ℓ = s.space ℓ) : Others P ℓ s s' where
  count := hcount
  key := hkey
  phase := hphase
  signaled := hsignaled
  dropMarked := hdrop
  gone := hgone
  sent := hsent
  ring := hring ▸ .refl _
  news := .inr (.inr ⟨by rw [hring], by rw [hring], halive⟩)
  tell := by
    rw [howed, hspace]
    exact .idle _ _

theorem SenderAct.others {ℓ' : Nat} (ha : SenderAct P ℓ' s s') (hne : ℓ ≠ ℓ')
    (hℓ : ℓ < s.count) : Others P ℓ s s' := by
  cases ha with
  | register capacity _ _ =>
    exact .of_eq (Nat.le_succ _) (Function.update_of_ne hℓ.ne ..) (Function.update_of_ne hℓ.ne ..)
      (Function.update_of_ne hℓ.ne ..) (Function.update_of_ne hℓ.ne ..)
      (Function.update_of_ne hℓ.ne ..) (Function.update_of_ne hℓ.ne ..)
      (Function.update_of_ne hℓ.ne ..) rfl (Function.update_of_ne hℓ.ne ..)
      (Function.update_of_ne hℓ.ne ..)
  | ring r _ _ _ =>
    exact .of_eq le_rfl rfl rfl rfl rfl rfl rfl (Function.update_of_ne hne ..) rfl rfl rfl
  | space c _ _ =>
    exact .of_eq le_rfl rfl rfl rfl rfl rfl rfl rfl rfl rfl (Function.update_of_ne hne ..)
  | swap _ _ =>
    exact .of_eq le_rfl rfl (Function.update_of_ne hne ..) (Function.update_of_ne hne ..)
      (Function.update_of_ne hne ..) rfl rfl rfl rfl rfl rfl
  | page _ | group _ | bump _ | wake _ _ | signal _ =>
    exact .of_eq le_rfl rfl (Function.update_of_ne hne ..) rfl rfl rfl rfl rfl rfl rfl rfl
  | reply _ _ _ _ _ =>
    exact .of_eq le_rfl rfl rfl rfl rfl rfl (Function.update_of_ne hne ..) rfl rfl rfl rfl
  | leave _ _ _ =>
    exact .of_eq le_rfl rfl (Function.update_of_ne hne ..) rfl rfl (Function.update_of_ne hne ..)
      rfl rfl rfl rfl rfl

/-- Whatever a step of somebody else keeps, the sender may rely on. -/
theorem sendC_stable {Q : Chan V → Prop} (hlt : ∀ s, Q s → ℓ < s.count)
    (h : ∀ s s', Others P ℓ s s' → Q s → Q s') : (sendC P strict ℓ).Stable Q := by
  rintro s s' hs - ⟨u, hu, hg⟩ hq
  cases u with
  | rx => exact h s s' (RecvAct.others hg ℓ) hq
  | tx ℓ' =>
    rcases hg with rfl | ⟨-, ha⟩
    · exact hq
    · exact h s s' (ha.others (fun heq => hu (by rw [heq])) (hlt s hq)) hq

/-! ## What a sender knows -/

/-- How far a sender is in its operation. -/
structure Task where
  phase : Phase
  /-- It has claimed its ring for a send. -/
  active : Bool
  /-- It has closed its ring. -/
  dropped : Bool
  /-- It no longer counts as live. -/
  gone : Bool
  /-- What it has published was signaled. -/
  marked : Bool
  /-- What it has pushed was published. -/
  flushed : Bool
  /-- There is room for a value. -/
  room : Bool
  /-- How it is going to hear of room or of the end of the lane. -/
  watch : Watch
  /-- What it has found in its way since it watches. -/
  full : Bool
  alive : Bool
  opened : Bool

/-- Nothing is under way. -/
def Task.base : Task where
  phase := .quiet
  active := false
  dropped := false
  gone := false
  marked := false
  flushed := false
  room := false
  watch := .none
  full := false
  alive := false
  opened := false

/-- A sender that watches in this way was told of something, or is going to be. -/
def Heard (w : Watch) (ℓ : Nat) (s : Chan V) : Prop :=
  match w with
  | .none => True
  | .sync n => n < (s.space ℓ).notified ∨ s.owed ℓ = .due
  | .async => (s.space ℓ).waker = false ∨ (s.owed ℓ).waking

/-- What the sender has found in its way is still there, or it is going to hear of it. -/
def Blocked (P : Params) (k : Task) (ℓ : Nat) (s : Chan V) : Prop :=
  Heard k.watch ℓ s ∨ k.opened = false ∧ (s.ring ℓ).isClosed P.coordinated = true ∨
    (k.full = true → (s.ring ℓ).cap ≤ (s.ring ℓ).log.length - (s.ring ℓ).released) ∧
    (k.alive = true → s.receiverAlive = true) ∧
    (k.opened = true → (s.ring ℓ).isClosed P.coordinated = false)

structure Sends (P : Params) (ℓ : Nat) (k : Task) (s : Chan V) : Prop where
  lt : ℓ < s.count
  phase : s.phase ℓ = k.phase
  active : (s.ring ℓ).active = k.active
  dropped : (s.ring ℓ).producerDropped = k.dropped
  gone : s.gone ℓ = k.gone
  marked : k.marked = true → s.signaled ℓ = (s.ring ℓ).tail ∧
    s.dropMarked ℓ = (s.ring ℓ).producerDropped
  flushed : k.flushed = true → (s.ring ℓ).tail = (s.ring ℓ).log.length
  room : k.room = true → (s.ring ℓ).log.length < (s.ring ℓ).cachedHead + (s.ring ℓ).cap
  awake : (s.space ℓ).sleep ≠ .asleep
  since : ∀ n, k.watch = .sync n → n ≤ (s.space ℓ).notified
  blocked : k.dropped = false → Blocked P k ℓ s

/-! ## Stability -/

section

variable {o o' : Owed} {c c' : WaitCell}

theorem TellStep.awake (h : TellStep o c o' c') (hc : c.sleep ≠ .asleep) : c'.sleep ≠ .asleep := by
  cases h with
  | idle | due | bump | wake => exact hc
  | signal =>
    simp only [WaitCell.signal]
    split
    · simp
    · exact hc

theorem TellStep.notified (h : TellStep o c o' c') : c.notified ≤ c'.notified := by
  cases h with
  | idle | due | wake => exact le_rfl
  | bump => exact Nat.le_succ _
  | signal =>
    simp only [WaitCell.signal]
    split <;> exact le_rfl

/-- A debt is paid by a notification. -/
theorem TellStep.due_paid (h : TellStep o c o' c') (ho : o = .due) :
    o' = .due ∨ c.notified < c'.notified := by
  cases h with
  | idle | due => first | exact .inl ho | exact .inl rfl
  | bump => exact .inr (Nat.lt_succ_self _)
  | wake | signal => cases ho

theorem TellStep.waker (h : TellStep o c o' c') (hc : c.waker = false) : c'.waker = false := by
  cases h with
  | idle | due | bump => exact hc
  | wake => rfl
  | signal =>
    simp only [WaitCell.signal]
    split <;> exact hc

theorem TellStep.waking (h : TellStep o c o' c') (ho : o.waking) :
    c'.waker = false ∨ o'.waking := by
  cases h with
  | idle => exact .inr ho
  | due | bump => exact .inr trivial
  | wake => exact .inl rfl
  | signal => exact ho.elim

end

theorem Heard.others {w : Watch} (ho : Others P ℓ s s')
    (hsince : ∀ n, w = .sync n → n ≤ (s.space ℓ).notified) (h : Heard w ℓ s) : Heard w ℓ s' := by
  cases w with
  | none => trivial
  | sync n =>
    rcases h with h | h
    · exact .inl (lt_of_lt_of_le h ho.tell.notified)
    · rcases ho.tell.due_paid h with h | h
      · exact .inr h
      · exact .inl (lt_of_le_of_lt (hsince n rfl) h)
  | async =>
    rcases h with h | h
    · exact .inl (ho.tell.waker h)
    · exact ho.tell.waking h

theorem Heard.of_due (w : Watch) (h : s.owed ℓ = .due) : Heard w ℓ s := by
  cases w with
  | none => trivial
  | sync n => exact .inr h
  | async => exact .inr (by rw [h]; trivial)

/-- **What is in a sender's way does not go away unnoticed.** -/
theorem Blocked.others {k : Task} (ho : Others P ℓ s s')
    (hsince : ∀ n, k.watch = .sync n → n ≤ (s.space ℓ).notified)
    (hopen : (s.ring ℓ).producerDropped = false) (h : Blocked P k ℓ s) : Blocked P k ℓ s' := by
  rcases h with h | ⟨h, hc⟩ | ⟨hfull, halive, hopened⟩
  · exact .inl (h.others ho hsince)
  · exact .inr (.inl ⟨h, ho.ring.isClosed hc⟩)
  · rcases ho.news with (hd | hc) | hdue | ⟨hr, hc, ha⟩
    · exact absurd (hopen.symm.trans hd) (by simp)
    · cases hk : k.opened with
      | false => exact .inr (.inl ⟨hk, ho.ring.isClosed hc⟩)
      | true => exact absurd ((hopened hk).symm.trans hc) (by simp)
    · exact .inl (.of_due _ hdue)
    · refine .inr (.inr ⟨fun hk => ?_, fun hk => ha.trans (halive hk), fun hk =>
        hc.trans (hopened hk)⟩)
      rw [ho.ring.cap, ho.ring.log, hr]
      exact hfull hk

theorem Sends.others {k : Task} (ho : Others P ℓ s s') (h : Sends P ℓ k s) : Sends P ℓ k s' where
  lt := lt_of_lt_of_le h.lt ho.count
  phase := ho.phase.trans h.phase
  active := ho.ring.active.trans h.active
  dropped := ho.ring.producerDropped.trans h.dropped
  gone := ho.gone.trans h.gone
  marked hk := by
    rw [ho.signaled, ho.ring.tail, ho.dropMarked, ho.ring.producerDropped]
    exact h.marked hk
  flushed hk := by
    rw [ho.ring.tail, ho.ring.log]
    exact h.flushed hk
  room hk := by
    rw [ho.ring.log, ho.ring.cachedHead, ho.ring.cap]
    exact h.room hk
  awake := ho.tell.awake h.awake
  since n hk := le_trans (h.since n hk) ho.tell.notified
  blocked hk := (h.blocked hk).others ho h.since (h.dropped.trans hk)

theorem Sends.stable {k : Task} : (sendC P strict ℓ).Stable (Sends (V := V) P ℓ k) :=
  sendC_stable (fun _ h => h.lt) fun _ _ ho h => h.others ho

/-! ## One access -/

theorem send_atomic {α : Type} {f : Chan V → α × Chan V} {Q : Chan V → Prop}
    {R : α → Chan V → Prop} (hQ : (sendC P strict ℓ).Stable Q)
    (hR : ∀ a, (sendC P strict ℓ).Stable (R a))
    (h : ∀ s, Core P s → Q s → ((f s).2 = s ∨ ℓ < s.count ∧ SenderAct P ℓ s (f s).2) ∧
      R (f s).1 (f s).2) : Triple (sendC P strict ℓ) Q (.atomic f) R := by
  refine Triple.atomic hQ hR fun s _ hi hq _ => ?_
  obtain ⟨hg, hr⟩ := h s hi.core hq
  refine ⟨?_, hg, hr⟩
  rcases hg with heq | ⟨hℓ, ha⟩
  · rw [heq]
    exact hi
  · exact hi.sender hℓ ha

theorem send_read {α : Type} {f : Chan V → α} {Q : Chan V → Prop} {R : α → Chan V → Prop}
    (hQ : (sendC P strict ℓ).Stable Q) (hR : ∀ a, (sendC P strict ℓ).Stable (R a))
    (h : ∀ s, Core P s → Q s → R (f s) s) : Triple (sendC P strict ℓ) Q (.read f) R :=
  send_atomic hQ hR fun s hc hq => ⟨.inl rfl, h s hc hq⟩

/-! ## Steps on the sender's own ring -/

section

variable {r : Ring V} {k k' : Task} {w : Watch}

theorem Blocked.of_closed (hk : k.opened = false)
    (hc : (s.ring ℓ).isClosed P.coordinated = true) : Blocked P k ℓ s := .inr (.inl ⟨hk, hc⟩)

theorem Blocked.setRing (h : Blocked P k ℓ s) (hcap : r.cap = (s.ring ℓ).cap)
    (hlog : (s.ring ℓ).log.length ≤ r.log.length) (hrel : r.released = (s.ring ℓ).released)
    (hcl : r.isClosed P.coordinated = (s.ring ℓ).isClosed P.coordinated) :
    Blocked P k ℓ ((ringL ℓ).set r s) := by
  have hr : ((ringL ℓ).set r s).ring ℓ = r := Function.update_self ..
  rcases h with h | ⟨h, hc⟩ | ⟨hfull, halive, hopened⟩
  · exact .inl h
  · exact .inr (.inl ⟨h, by rw [hr, hcl, hc]⟩)
  · refine .inr (.inr ⟨fun hk => ?_, halive, fun hk => by rw [hr, hcl, hopened hk]⟩)
    have := hfull hk
    rw [hr, hcap, hrel]
    omega

/-- What the sender knows after a step on its ring. -/
theorem Sends.setRing (h : Sends P ℓ k s) (k' : Task) (hphase : k'.phase = k.phase)
    (hgone : k'.gone = k.gone) (hwatch : k'.watch = k.watch) (hactive : r.active = k'.active)
    (hdropped : r.producerDropped = k'.dropped)
    (hmarked : k'.marked = true → s.signaled ℓ = r.tail ∧ s.dropMarked ℓ = r.producerDropped)
    (hflushed : k'.flushed = true → r.tail = r.log.length)
    (hroom : k'.room = true → r.log.length < r.cachedHead + r.cap)
    (hblocked : k'.dropped = false → Blocked P k' ℓ ((ringL ℓ).set r s)) :
    Sends P ℓ k' ((ringL ℓ).set r s) := by
  have hr : ((ringL ℓ).set r s).ring ℓ = r := Function.update_self ..
  exact
    { lt := h.lt
      phase := h.phase.trans hphase.symm
      active := hr.symm ▸ hactive
      dropped := hr.symm ▸ hdropped
      gone := h.gone.trans hgone.symm
      marked := hr.symm ▸ hmarked
      flushed := hr.symm ▸ hflushed
      room := hr.symm ▸ hroom
      awake := h.awake
      since := fun n hk => h.since n (hwatch.symm.trans hk)
      blocked := hblocked }

/-- One access to the sender's own ring. -/
theorem ringStep_spec {β : Type} {f : Ring V → β × Ring V} {t : β → Task}
    (hk : k.dropped = false)
    (h : ∀ s, Core P s → Sends P ℓ k s → (s.ring ℓ).OwnStep (f (s.ring ℓ)).2 ∧
      Sends P ℓ (t (f (s.ring ℓ)).1) ((ringL ℓ).set (f (s.ring ℓ)).2 s)) :
    Triple (sendC P strict ℓ) (Sends P ℓ k) ((ringL ℓ).access f) fun b => Sends P ℓ (t b) :=
  send_atomic Sends.stable (fun _ => Sends.stable) fun s hc hs =>
    ⟨.inr ⟨hs.lt, .ring s _ (h s hc hs).1 (hs.dropped.trans hk) hs.awake⟩, (h s hc hs).2⟩

/-- A sender at the start of a send, watching in this way. -/
def Task.watching (w : Watch) (active full : Bool) (flushed : Bool := false) : Task :=
  { Task.base with watch := w, active := active, full := full, flushed := flushed }

theorem checkFull_full {r : Ring V} (h : r.checkFull.1 = true) :
    r.cap ≤ r.log.length - r.released := by
  have h : r.cap ≤ r.log.length - r.reload := of_decide_eq_true h
  rw [Ring.reload] at h
  split at h
  · exact h
  · next hno => exact absurd h hno

/-- The producer's look at its ring. -/
theorem checkFull_spec (hk : k.dropped = false) :
    Triple (sendC P strict ℓ) (Sends P ℓ k) ((ringL ℓ).access Ring.checkFull)
      fun full => Sends (V := V) P ℓ { k with full := full, room := !full, marked := false } := by
  refine ringStep_spec hk fun s hc hs => ⟨?_, ?_⟩
  · exact ⟨fun hok => hok.checkFull, rfl, List.prefix_rfl, le_rfl, rfl, id, fun _ =>
      ⟨rfl, rfl, rfl, rfl, rfl⟩⟩
  · refine hs.setRing _ rfl rfl rfl hs.active hs.dropped (fun hm => by cases hm) hs.flushed
      (fun hroom => ?_) fun _ => ?_
    · exact Ring.room_of_checkFull (by simpa using hroom)
    · rcases (hs.blocked hk).setRing (r := (s.ring ℓ).checkFull.2) rfl le_rfl rfl rfl with h | h | h
      · exact .inl h
      · exact .inr (.inl h)
      · refine .inr (.inr ⟨fun hf => ?_, h.2⟩)
        have hr : ((ringL ℓ).set (s.ring ℓ).checkFull.2 s).ring ℓ = (s.ring ℓ).checkFull.2 :=
          Function.update_self ..
        rw [hr]
        exact checkFull_full (r := s.ring ℓ) hf

theorem push_spec (a : Bool) (v : V) :
    Triple (sendC P strict ℓ) (Sends P ℓ (.watching w a false)) (Ring.push (ringL ℓ) v)
      fun pushed => Sends P ℓ (.watching w a !pushed) := by
  refine (checkFull_spec rfl).bind fun full => ?_
  cases full with
  | true => exact Triple.ret Sends.stable fun s _ hs => { hs with room := fun h => by cases h }
  | false =>
    refine Triple.map (ringStep_spec (t := fun _ => .watching w a false) rfl
      fun s hc hs => ⟨?_, ?_⟩) fun _ s _ hs => hs
    · exact ⟨fun hok => hok.write v (hs.room rfl) hs.dropped, rfl, List.prefix_append .., le_rfl,
        rfl, id, fun _ => ⟨rfl, rfl, rfl, rfl, rfl⟩⟩
    · refine hs.setRing _ rfl rfl rfl hs.active hs.dropped (fun hm => by cases hm)
        (fun hm => by cases hm) (fun hm => by cases hm) fun _ => ?_
      exact (hs.blocked rfl).setRing
        (r := ((s.ring ℓ).write v).2) rfl (by simp [Ring.write]) rfl rfl

theorem ringFlush_spec (a : Bool) :
    Triple (sendC P strict ℓ) (Sends P ℓ (.watching w a false)) (Ring.flush (ringL ℓ))
      fun _ => Sends (V := V) P ℓ (.watching w a false true) :=
  ringStep_spec (t := fun _ => .watching w a false true) rfl fun s hc hs => by
    refine ⟨⟨fun hok => hok.publish, rfl, List.prefix_rfl, (hc.lane ℓ).ok.tail_le, rfl, id, fun _ =>
      ⟨rfl, rfl, rfl, rfl, rfl⟩⟩, ?_⟩
    exact hs.setRing _ rfl rfl rfl hs.active hs.dropped (fun hm => by cases hm) (fun _ => rfl)
      (fun hm => by cases hm) fun _ => (hs.blocked rfl).setRing (r := (s.ring ℓ).publish.2)
        rfl le_rfl rfl rfl

/-- The ring was closed, and the sender knows. -/
def Closed (P : Params) (ℓ : Nat) (k : Task) (s : Chan V) : Prop :=
  Sends P ℓ k s ∧ (s.ring ℓ).closed = true

theorem Closed.stable : (sendC P strict ℓ).Stable (Closed (V := V) P ℓ k) :=
  sendC_stable (fun _ h => h.1.lt) fun _ _ ho h => ⟨h.1.others ho, ho.ring.closed h.2⟩

theorem isClosed_of_closed {r : Ring V} (hc : P.coordinated = true) (h : r.closed = true) :
    r.isClosed P.coordinated = true := by
  simp [Ring.isClosed, hc, h]

/-- A step on a consumer the sender took over. -/
theorem closedStep_spec {β : Type} {f : Ring V → β × Ring V} {b p : Bool}
    (hc : P.coordinated = true)
    (hf : ∀ r : Ring V, r.Ok → r.closed = true → (f r).2.Ok)
    (hsame : ∀ r : Ring V, (f r).2 = { r with
      head := (f r).2.head, cachedTail := (f r).2.cachedTail, released := (f r).2.released
      consumerDropped := (f r).2.consumerDropped, handed := (f r).2.handed })
    (hdrop : ∀ r : Ring V, r.consumerDropped = true → (f r).2.consumerDropped = true) :
    Triple (sendC P strict ℓ) (Closed P ℓ (.watching w false b p))
      ((ringL ℓ).access f) fun _ => Closed P ℓ (.watching w false b p) := by
  refine send_atomic Closed.stable (fun _ => Closed.stable) fun s hcore hs => ?_
  have heq := hsame (s.ring ℓ)
  have hcl : (f (s.ring ℓ)).2.closed = true := by
    rw [heq]
    exact hs.2
  have hset : ((ringL ℓ).set (f (s.ring ℓ)).2 s).ring ℓ = (f (s.ring ℓ)).2 :=
    Function.update_self ..
  have hown : (s.ring ℓ).OwnStep (f (s.ring ℓ)).2 :=
    { ok := fun hok => hf _ hok hs.2
      cap := by rw [heq]
      log := by rw [heq]
      tail := by rw [heq]
      closed := hcl.trans hs.2.symm
      consumerDropped := hdrop _
      consumer := fun h => absurd (h.symm.trans hs.2) (by simp) }
  have hsends : Sends P ℓ (.watching w false b p) ((ringL ℓ).set (f (s.ring ℓ)).2 s) := by
    refine hs.1.setRing _ rfl rfl rfl (by rw [heq]; exact hs.1.active)
      (by rw [heq]; exact hs.1.dropped) (fun hm => by cases hm) (by rw [heq]; exact hs.1.flushed)
      (fun hm => by cases hm) fun _ => ?_
    exact .of_closed rfl (hset.symm ▸ isClosed_of_closed hc hcl)
  exact ⟨.inr ⟨hs.1.lt, .ring s _ hown hs.1.dropped hs.1.awake⟩, hsends, hset.symm ▸ hcl⟩

theorem endSend_spec (hc : P.coordinated = true) (b p : Bool) :
    Triple (sendC P strict ℓ) (Sends P ℓ (.watching w true b p)) (Ring.endSend (ringL ℓ))
      fun _ => Sends (V := V) P ℓ (.watching w false b p) := by
  refine Triple.bind (Q := fun closed s => Sends P ℓ (.watching w false b p) s ∧
      (closed = true → (s.ring ℓ).closed = true)) (send_atomic Sends.stable (fun closed => ?_)
      fun s hcore hs => ⟨.inr ⟨hs.lt, .ring s _ ?_ hs.dropped hs.awake⟩, ?_, ?_⟩) fun closed => ?_
  · exact sendC_stable (fun _ h => h.1.lt) fun _ _ ho h =>
      ⟨h.1.others ho, fun hcl => ho.ring.closed (h.2 hcl)⟩
  · exact ⟨fun ⟨h₁, h₂, h₃, h₄, h₅, h₆, h₇, h₈⟩ => ⟨h₁, h₂, h₃, h₄, h₅, h₆, h₇, h₈⟩, rfl,
      List.prefix_rfl, le_rfl, rfl, id, fun _ => ⟨rfl, rfl, rfl, rfl, rfl⟩⟩
  · refine hs.setRing _ rfl rfl rfl rfl hs.dropped (fun hm => by cases hm) hs.flushed
      (fun hm => by cases hm) fun _ => ?_
    exact (hs.blocked rfl).setRing (r := (s.ring ℓ).finish.2) rfl le_rfl rfl rfl
  · intro hcl
    have hr : ((ringL ℓ).set (s.ring ℓ).finish.2 s).ring ℓ = (s.ring ℓ).finish.2 :=
      Function.update_self ..
    exact (congrArg Ring.closed hr).trans hcl
  · cases closed with
    | false => exact Triple.ret Sends.stable fun s _ hs => hs.1
    | true =>
      refine Triple.bind ((closedStep_spec (b := b) (p := p) hc (fun r hok _ => ?_) (fun _ => rfl)
        fun _ h => h).pre fun s _ hs => ⟨hs.1, hs.2 rfl⟩) fun handed => ?_
      · exact ⟨hok.1, hok.2, hok.3, hok.4, hok.5, hok.6, hok.7, hok.8⟩
      · cases handed with
        | false => exact Triple.ret Sends.stable fun s _ hs => hs.1
        | true =>
          refine (closedStep_spec (b := b) (p := p) hc (fun r hok _ => hok.discardAll)
            (fun _ => rfl)
            fun _ h => h).bind fun _ => ?_
          refine (closedStep_spec (b := b) (p := p) hc (fun r hok _ => hok.release) (fun _ => rfl)
            fun _ h => h).bind fun _ => ?_
          refine (closedStep_spec (b := b) (p := p) hc (fun r hok _ => ?_) (fun _ => rfl)
            fun _ _ => rfl).post fun _ s _ hs => hs.1
          exact ⟨hok.1, hok.2, hok.3, hok.4, hok.5, hok.6, hok.7, hok.8⟩

theorem pushAndFlush_spec (v : V) :
    Triple (sendC P strict ℓ) (Sends P ℓ (.watching w false false))
      (Ring.pushAndFlush (ringL ℓ) P.coordinated v)
      fun pushed => Sends P ℓ (.watching w false (!pushed) pushed) := by
  unfold Ring.pushAndFlush
  split
  · next hc =>
    refine (ringStep_spec (t := fun claimed => .watching w claimed !claimed) rfl
      fun s hcore hs => ?_).bind fun claimed => ?_
    · -- the claim fails only on a closed ring
      have hact : (s.ring ℓ).active = false := hs.active
      cases hcl : (s.ring ℓ).closed with
      | true =>
        have hb : (s.ring ℓ).begin = (false, s.ring ℓ) := by simp [Ring.begin, hcl]
        rw [hb]
        refine ⟨⟨id, rfl, List.prefix_rfl, le_rfl, rfl, id, fun _ => ⟨rfl, rfl, rfl, rfl, rfl⟩⟩, ?_⟩
        refine hs.setRing _ rfl rfl rfl hs.active hs.dropped (fun hm => by cases hm)
          (fun hm => by cases hm) (fun hm => by cases hm) fun _ => .of_closed rfl ?_
        rw [show ((ringL ℓ).set (s.ring ℓ) s).ring ℓ = s.ring ℓ from Function.update_self ..]
        exact isClosed_of_closed hc hcl
      | false =>
        have hb : (s.ring ℓ).begin = (true, { s.ring ℓ with active := true }) := by
          simp [Ring.begin, hcl, hact]
        rw [hb]
        refine ⟨⟨fun hok => ⟨hok.1, hok.2, hok.3, hok.4, hok.5, hok.6, hok.7, hok.8⟩, rfl,
          List.prefix_rfl, le_rfl, rfl, id, fun _ => ⟨rfl, rfl, rfl, rfl, rfl⟩⟩, ?_⟩
        exact hs.setRing _ rfl rfl rfl rfl hs.dropped (fun hm => by cases hm)
          (fun hm => by cases hm) (fun hm => by cases hm) fun _ => (hs.blocked rfl).setRing
            (r := { s.ring ℓ with active := true }) rfl le_rfl rfl rfl
    · cases claimed with
      | false => exact Triple.ret Sends.stable fun s _ hs => hs
      | true =>
        refine (push_spec true v).bind fun pushed => ?_
        cases pushed with
        | true =>
          refine (ringFlush_spec true).bind fun _ => ?_
          exact Triple.map (endSend_spec hc false true) fun _ s _ hs => hs
        | false => exact Triple.map (endSend_spec hc true false) fun _ s _ hs => hs
  · refine (push_spec false v).bind fun pushed => ?_
    cases pushed with
    | true => exact Triple.map (ringFlush_spec false) fun _ s _ hs => hs
    | false => exact Triple.ret Sends.stable fun s _ hs => hs

/-! ## Announcing -/

/-- The sender has marked its lane and has to notify if the lane was idle. -/
def Task.announced (k : Task) (first : Bool) : Task :=
  { k with phase := if first then .marked else .quiet, marked := true }

theorem Sender.markReady_spec (hk : k.phase = .quiet) (hg : k.gone = false) :
    Triple (sendC P strict ℓ) (Sends P ℓ k) (Sender.markReady ℓ)
      fun first => Sends (V := V) P ℓ (k.announced first) := by
  refine Triple.bind (Q := fun key s => Sends P ℓ k s ∧ s.key ℓ = key)
    (send_read Sends.stable (fun _ => ?_) fun s _ hs => ⟨hs, rfl⟩) fun key => ?_
  · exact sendC_stable (fun _ h => h.1.lt) fun _ _ ho h => ⟨h.1.others ho, ho.key.trans h.2⟩
  -- where the sender is after each access
  have stable : ∀ k', (sendC P strict ℓ).Stable fun s : Chan V => Sends P ℓ k' s ∧ s.key ℓ = key :=
    fun _ => sendC_stable (fun _ h => h.1.lt) fun _ _ ho h => ⟨h.1.others ho, ho.key.trans h.2⟩
  refine Triple.bind (Q := fun first s =>
      Sends P ℓ { k with phase := if first then .swapped else .quiet, marked := true } s ∧
        s.key ℓ = key)
    (send_atomic (stable _) (fun _ => stable _) fun s _ hs => ?_) fun first => ?_
  · refine ⟨.inr ⟨hs.1.lt, .swap s (hs.1.phase.trans hk) (hs.1.gone.trans hg)⟩,
      { hs.1 with phase := ?_, marked := fun _ => ⟨?_, ?_⟩ }, hs.2⟩
    · exact (Function.update_self ..).trans (congrArg
        (fun p => if (s.ready.swapPending ℓ).1 = true then Phase.swapped else p)
        (hs.1.phase.trans hk))
    · exact Function.update_self ..
    · exact Function.update_self ..
  cases first with
  | false => exact Triple.ret Sends.stable fun s _ hs => hs.1
  | true =>
    refine Triple.bind (Q := fun first s =>
        Sends P ℓ { k with phase := if first then .paged else .marked, marked := true } s ∧
          s.key ℓ = key)
      (send_atomic (stable _) (fun _ => stable _) fun s _ hs => ?_) fun first => ?_
    · obtain ⟨hs, rfl⟩ := hs
      exact ⟨.inr ⟨hs.lt, .page s hs.phase⟩, { hs with phase := Function.update_self .. }, rfl⟩
    · cases first with
      | false => exact Triple.ret Sends.stable fun s _ hs => hs.1
      | true =>
        refine Triple.map (Q := fun _ => Sends P ℓ (k.announced true))
          (send_atomic (stable _) (fun _ => Sends.stable) fun s _ hs => ?_) fun _ s _ hs => hs
        obtain ⟨hs, rfl⟩ := hs
        exact ⟨.inr ⟨hs.lt, .group s hs.phase⟩, { hs with phase := Function.update_self .. }⟩

theorem Sender.notifyData_spec (hk : k.phase = .marked) :
    Triple (sendC P strict ℓ) (Sends P ℓ k) (Sender.notifyData ℓ)
      fun _ => Sends (V := V) P ℓ { k with phase := .quiet } := by
  refine Triple.bind (Q := fun more => Sends P ℓ { k with phase := .bumped more })
    (send_atomic Sends.stable (fun _ => Sends.stable) fun s _ hs => ?_) fun more => ?_
  · exact ⟨.inr ⟨hs.lt, .bump s (hs.phase.trans hk)⟩, { hs with phase := Function.update_self .. }⟩
  refine Triple.bind (Q := fun _ => Sends P ℓ { k with phase := if more then .woken else .quiet })
    (send_atomic Sends.stable (fun _ => Sends.stable) fun s _ hs => ?_) fun _ => ?_
  · exact ⟨.inr ⟨hs.lt, .wake s more hs.phase⟩, { hs with phase := Function.update_self .. }⟩
  cases more with
  | false => exact Triple.ret Sends.stable fun s _ hs => hs
  | true =>
    refine send_atomic Sends.stable (fun _ => Sends.stable) fun s _ hs => ?_
    exact ⟨.inr ⟨hs.lt, .signal s hs.phase⟩, { hs with phase := Function.update_self .. }⟩

/-- The receiver is notified if the lane was idle. -/
theorem Sender.notified_spec (first : Bool) :
    Triple (sendC P strict ℓ) (Sends P ℓ (k.announced first))
      (if first then Sender.notifyData ℓ else .ret ())
      fun _ => Sends (V := V) P ℓ { k with phase := .quiet, marked := true } := by
  cases first with
  | true => exact notifyData_spec rfl
  | false => exact Triple.ret Sends.stable fun s _ hs => hs

/-! ## Sends -/

/-- The lane had no room, the receiver was there and the lane open, each at some time since the
    sender watches. -/
def Task.refused (w : Watch) : Task :=
  { Task.base with watch := w, full := true, alive := true, opened := true }

theorem Blocked.weaken (h : Blocked P k ℓ s) (hw : k'.watch = k.watch)
    (hfull : k'.full = true → k.full = true) (halive : k'.alive = true → k.alive = true)
    (hopened : k'.opened = true → k.opened = true) : Blocked P k' ℓ s := by
  rcases h with h | ⟨h, hc⟩ | ⟨h₁, h₂, h₃⟩
  · exact .inl (hw ▸ h)
  · refine .inr (.inl ⟨?_, hc⟩)
    cases hk : k'.opened with
    | false => rfl
    | true => exact (hopened hk).symm.trans h
  · exact .inr (.inr ⟨fun hk => h₁ (hfull hk), fun hk => h₂ (halive hk), fun hk => h₃ (hopened hk)⟩)

/-- What the sender found in its way no longer matters. -/
theorem Sends.forget (h : Sends P ℓ k s) (w : Watch) (hw : w = k.watch ∨ w = .none) :
    Sends P ℓ { k with watch := w, full := false, alive := false, opened := false } s :=
  { h with
    since := fun n hn => by
      rcases hw with rfl | rfl
      · exact h.since n hn
      · cases hn
    blocked := fun hk => by
      rcases hw with rfl | rfl
      · exact (h.blocked hk).weaken rfl (fun h => by cases h) (fun h => by cases h)
          fun h => by cases h
      · exact .inl trivial }

/-- Reading that the receiver is there. -/
theorem Sender.readAlive_spec :
    Triple (sendC P strict ℓ) (Sends P ℓ k) (Prog.read (·.receiverAlive))
      fun alive => Sends (V := V) P ℓ { k with alive := alive || k.alive } := by
  refine send_read Sends.stable (fun _ => Sends.stable) fun s _ hs => ?_
  refine { hs with blocked := fun hk => ?_ }
  rcases hs.blocked hk with h | h | ⟨h₁, h₂, h₃⟩
  · exact .inl h
  · exact .inr (.inl h)
  · refine .inr (.inr ⟨h₁, fun ha => ?_, h₃⟩)
    rcases Bool.or_eq_true_iff.mp ha with ha | ha
    · exact ha
    · exact h₂ ha

/-- Reading whether the lane is closed. -/
theorem Sender.readClosed_spec :
    Triple (sendC P strict ℓ) (Sends P ℓ k) (Ring.isConsumerDropped (ringL ℓ) P.coordinated)
      fun closed => Sends (V := V) P ℓ { k with opened := !closed || k.opened } := by
  refine send_read Sends.stable (fun _ => Sends.stable) fun s _ hs => ?_
  refine { hs with blocked := fun hk => ?_ }
  rcases hs.blocked hk with h | ⟨h, hc⟩ | ⟨h₁, h₂, h₃⟩
  · exact .inl h
  · refine .inr (.inl ⟨?_, hc⟩)
    show (!(s.ring ℓ).isClosed P.coordinated || k.opened) = false
    rw [hc, h]
    rfl
  · refine .inr (.inr ⟨h₁, h₂, fun ho => ?_⟩)
    rcases Bool.or_eq_true_iff.mp ho with ho | ho
    · exact (Bool.not_eq_true' _).mp ho
    · exact h₃ ho

theorem Sender.pushError_spec :
    Triple (sendC P strict ℓ) (Sends P ℓ (.watching w false true)) (Sender.pushError P ℓ)
      fun r s => r = .full ∧ Sends (V := V) P ℓ (.refused w) s ∨
        r = .disconnected ∧ Sends P ℓ (.watching w false false) s := by
  have stable : ∀ r : SendReply, (sendC P strict ℓ).Stable fun s : Chan V =>
      r = .full ∧ Sends (V := V) P ℓ (.refused w) s ∨
        r = .disconnected ∧ Sends P ℓ (.watching w false false) s :=
    fun r s s' hi hi' hr h => h.imp (fun h => ⟨h.1, Sends.stable s s' hi hi' hr h.2⟩)
      fun h => ⟨h.1, Sends.stable s s' hi hi' hr h.2⟩
  refine readAlive_spec.bind fun alive => ?_
  cases alive with
  | false => exact Triple.ret (stable _) fun s _ hs => .inr ⟨rfl, hs.forget w (.inl rfl)⟩
  | true =>
    refine readClosed_spec.bind fun closed => ?_
    cases closed with
    | true => exact Triple.ret (stable _) fun s _ hs => .inr ⟨rfl, hs.forget w (.inl rfl)⟩
    | false => exact Triple.ret (stable _) fun s _ hs => .inl ⟨rfl, hs⟩

/-- What an attempt to send answered, and what the sender knows then. -/
def Tried (P : Params) (ℓ : Nat) (w : Watch) (r : SendReply × Bool) (s : Chan V) : Prop :=
  r.1 = .ok ∧ Sends P ℓ ((Task.watching w false false true).announced r.2) s ∨
    r = (.full, false) ∧ Sends P ℓ (.refused w) s ∨
    r = (.disconnected, false) ∧ Sends P ℓ (.watching w false false) s

theorem Tried.stable {r : SendReply × Bool} : (sendC P strict ℓ).Stable (Tried (V := V) P ℓ w r) :=
  fun s s' hi hi' hr h =>
    h.imp (fun h => ⟨h.1, Sends.stable s s' hi hi' hr h.2⟩) (Or.imp
      (fun h => ⟨h.1, Sends.stable s s' hi hi' hr h.2⟩)
      fun h => ⟨h.1, Sends.stable s s' hi hi' hr h.2⟩)

/-- The first look at the lane, after which nothing is kept of it. -/
theorem Sender.lookClosed_spec :
    Triple (sendC P strict ℓ) (Sends P ℓ (.watching w false false))
      (Ring.isConsumerDropped (ringL ℓ) P.coordinated)
      fun _ => Sends (V := V) P ℓ (.watching w false false) :=
  readClosed_spec.post fun _ _ _ hs => hs.forget w (.inl rfl)

theorem Sender.trySendInner_spec (v : V) :
    Triple (sendC P strict ℓ) (Sends P ℓ (.watching w false false)) (Sender.trySendInner P ℓ v)
      (Tried P ℓ w) := by
  refine lookClosed_spec.bind fun closed => ?_
  cases closed with
  | true => exact Triple.ret Tried.stable fun s _ hs => .inr (.inr ⟨rfl, hs⟩)
  | false =>
    refine (pushAndFlush_spec v).bind fun pushed => ?_
    cases pushed with
    | true => exact Triple.map (markReady_spec rfl rfl) fun first s _ hs => .inl ⟨rfl, hs⟩
    | false =>
      refine Triple.map pushError_spec fun r s _ hs => ?_
      rcases hs with ⟨rfl, hs⟩ | ⟨rfl, hs⟩
      · exact .inr (.inl ⟨rfl, hs⟩)
      · exact .inr (.inr ⟨rfl, hs⟩)

/-- An operation is over; whether it has signaled everything pushed before. -/
def Task.over (published : Bool) : Task :=
  { Task.base with marked := published, flushed := published }

/-- What an operation answered, and what the sender knows when it is over: a pending poll has left
    its waker. -/
def Sent (P : Params) (ℓ : Nat) (published : SendReply → Bool) (r : SendReply) (s : Chan V) :
    Prop :=
  Sends P ℓ (if r = .pending then .refused .async else .over (published r)) s

theorem Sent.stable {published : SendReply → Bool} {r : SendReply} :
    (sendC P strict ℓ).Stable (Sent (V := V) P ℓ published r) := Sends.stable

/-- What was published and signaled no longer matters. -/
theorem Sends.unmark (h : Sends P ℓ k s) :
    Sends P ℓ { k with marked := false, flushed := false } s :=
  { h with marked := nofun, flushed := nofun }

theorem Sender.trySend_spec (v : V) :
    Triple (sendC P strict ℓ) (Sends P ℓ .base) (Sender.trySend P ℓ v)
      (Sent P ℓ (· == .ok)) := by
  refine (trySendInner_spec (w := .none) v).bind fun r => ?_
  obtain ⟨result, first⟩ := r
  cases first with
  | true =>
    refine Triple.given (φ := result = .ok) (fun s _ hs => ?_) fun hok => ?_
    · rcases hs with ⟨hok, -⟩ | ⟨heq, -⟩ | ⟨heq, -⟩
      · exact hok
      · cases heq
      · cases heq
    · subst hok
      refine Triple.map
        ((notifyData_spec (k := (Task.watching .none false false true).announced true) rfl).pre
          fun s _ hs => ?_)
        fun _ s _ hs => hs
      rcases hs with ⟨-, hs⟩ | ⟨heq, -⟩ | ⟨heq, -⟩
      · exact hs
      · cases heq
      · cases heq
  | false =>
    refine Triple.ret Sent.stable fun s _ hs => ?_
    rcases hs with ⟨rfl, hs⟩ | ⟨heq, hs⟩ | ⟨heq, hs⟩
    · exact hs
    · cases heq
      exact hs.forget .none (.inr rfl)
    · cases heq
      exact hs

theorem Sender.trySendUnsignaled_spec (v : V) :
    Triple (sendC P strict ℓ) (Sends P ℓ .base) (Sender.trySendUnsignaled P ℓ v)
      (Sent P ℓ fun _ => false) := by
  refine (lookClosed_spec (w := .none)).bind fun closed => ?_
  cases closed with
  | true => exact Triple.ret Sent.stable fun s _ hs => hs
  | false =>
    refine (pushAndFlush_spec v).bind fun pushed => ?_
    cases pushed with
    | true => exact Triple.ret Sent.stable fun s _ hs => hs.unmark
    | false =>
      refine pushError_spec.post fun r s _ hs => ?_
      rcases hs with ⟨rfl, hs⟩ | ⟨rfl, hs⟩
      · exact hs.forget .none (.inr rfl)
      · exact hs

theorem Sender.flush_spec :
    Triple (sendC P strict ℓ) (Sends P ℓ .base) (Sender.flush ℓ)
      fun _ => Sends (V := V) P ℓ (.over true) := by
  refine (ringFlush_spec (w := .none) false).bind fun _ => ?_
  refine (markReady_spec rfl rfl).bind fun first => ?_
  cases first with
  | true => exact notifyData_spec rfl
  | false => exact Triple.ret Sends.stable fun s _ hs => hs

theorem Sender.isDisconnected_spec :
    Triple (sendC P strict ℓ) (Sends P ℓ k) (Sender.isDisconnected P ℓ)
      fun gone => Sends (V := V) P ℓ
        { k with alive := !gone || k.alive, opened := !gone || k.opened } := by
  refine readAlive_spec.bind fun alive => ?_
  cases alive with
  | false => exact Triple.ret Sends.stable fun s _ hs => hs
  | true =>
    refine readClosed_spec.post fun closed s _ hs => ?_
    cases closed with
    | false => exact hs
    | true =>
      exact { hs with blocked := fun hk => (hs.blocked hk).weaken rfl id (fun _ => rfl) id }

theorem Sender.trySendDeferred_spec (v : V) :
    Triple (sendC P strict ℓ) (Sends P ℓ .base) (Sender.trySendDeferred P ℓ v)
      (Sent P ℓ (· == .full)) := by
  refine (lookClosed_spec (w := .none)).bind fun closed => ?_
  cases closed with
  | true => exact Triple.ret Sent.stable fun s _ hs => hs
  | false =>
    refine (push_spec false v).bind fun pushed => ?_
    cases pushed with
    | true => exact Triple.ret Sent.stable fun s _ hs => hs
    | false =>
      refine (Sender.flush_spec.pre fun s _ hs => hs.forget .none (.inr rfl)).bind fun _ => ?_
      refine isDisconnected_spec.bind fun gone => ?_
      cases gone with
      | true => exact Triple.ret Sent.stable fun s _ hs => hs.unmark
      | false => exact Triple.ret Sent.stable fun s _ hs => hs.forget .none (.inr rfl)

/-! ## Steps on the sender's own wait cell -/

/-- One access to the sender's own wait cell that does not put it to sleep. -/
theorem Sender.spaceStep_spec {β : Type} {f : WaitCell → β × WaitCell} {t : β → Task}
    (hk : k.gone = false)
    (hsleep : ∀ c : WaitCell, c.sleep ≠ .asleep → (f c).2.sleep ≠ .asleep)
    (h : ∀ s : Chan V, Core P s → Sends P ℓ k s →
      Sends P ℓ (t (f (s.space ℓ)).1) ((spaceL ℓ).set (f (s.space ℓ)).2 s)) :
    Triple (sendC P strict ℓ) (Sends P ℓ k) ((spaceL ℓ).access f)
      fun b => Sends (V := V) P ℓ (t b) :=
  send_atomic Sends.stable (fun _ => Sends.stable) fun s hc hs =>
    ⟨.inr ⟨hs.lt, .space s _ (fun hsl => absurd hsl (hsleep _ hs.awake)) (hs.gone.trans hk)⟩,
      h s hc hs⟩

/-- What the sender knows after a step on its wait cell that starts or ends a watch. -/
theorem Sends.setSpace {c : WaitCell} (h : Sends P ℓ k s) (w : Watch)
    (hsleep : c.sleep = (s.space ℓ).sleep)
    (hw : w = .none ∨ w = .async ∨ w = .sync c.notified) (hk : k.full = false)
    (ha : k.alive = false) (ho : k.opened = false) :
    Sends P ℓ { k with watch := w } ((spaceL ℓ).set c s) := by
  have hc : ((spaceL ℓ).set c s).space ℓ = c := Function.update_self ..
  refine { h with
    awake := ?_
    since := fun n hn => ?_
    blocked := fun _ => .inr (.inr ⟨?_, ?_, ?_⟩) }
  · rw [hc, hsleep]
    exact h.awake
  · rcases hw with rfl | rfl | rfl
    · cases hn
    · cases hn
    · cases hn
      rw [hc]
  · exact fun hf => absurd (hk.symm.trans hf) (by simp)
  · exact fun hf => absurd (ha.symm.trans hf) (by simp)
  · exact fun hf => absurd (ho.symm.trans hf) (by simp)

theorem Sender.prepare_spec :
    Triple (sendC P strict ℓ) (Sends P ℓ .base) ((spaceL ℓ).access WaitCell.prepare)
      fun n => Sends (V := V) P ℓ (.watching (.sync n) false false) :=
  spaceStep_spec (t := fun n => .watching (.sync n) false false) rfl (fun _ h => h)
    fun _ _ hs => hs.setSpace _ rfl (.inr (.inr rfl)) rfl rfl rfl

theorem Sender.registerAsync_spec :
    Triple (sendC P strict ℓ) (Sends P ℓ .base) (WaitCell.registerAsync (spaceL ℓ))
      fun _ => Sends (V := V) P ℓ (.watching .async false false) := by
  refine Triple.bind (spaceStep_spec (t := fun _ => .watching .async false false) rfl
    (fun _ h => h) fun _ _ hs => hs.setSpace _ rfl (.inr (.inl rfl)) rfl rfl rfl) fun _ => ?_
  exact send_read Sends.stable (fun _ => Sends.stable) fun s _ hs => hs

/-- An access that ends a watch. -/
theorem Sender.unwatch_spec {β : Type} {f : WaitCell → β × WaitCell} (hk : k.gone = false)
    (hf : ∀ c : WaitCell, (f c).2.sleep = c.sleep) :
    Triple (sendC P strict ℓ) (Sends P ℓ k) ((spaceL ℓ).access f)
      fun _ => Sends (V := V) P ℓ
        { k with watch := .none, full := false, alive := false, opened := false } :=
  spaceStep_spec
    (t := fun _ => { k with watch := .none, full := false, alive := false, opened := false }) hk
    (fun c h => (hf c).symm ▸ h) fun _ _ hs =>
      (hs.forget .none (.inr rfl)).setSpace .none (hf _) (.inl rfl) rfl rfl rfl

/-! ## Sleeping -/

/-- The sender sleeps, or has just been woken. -/
structure Dozes (ℓ : Nat) (s : Chan V) : Prop where
  lt : ℓ < s.count
  phase : s.phase ℓ = .quiet
  active : (s.ring ℓ).active = false
  dropped : (s.ring ℓ).producerDropped = false
  gone : s.gone ℓ = false

theorem Dozes.stable : (sendC P strict ℓ).Stable (Dozes (V := V) ℓ) :=
  sendC_stable (fun _ h => h.lt) fun _ _ ho h =>
    ⟨lt_of_lt_of_le h.lt ho.count, ho.phase.trans h.phase, ho.ring.active.trans h.active,
      ho.ring.producerDropped.trans h.dropped, ho.gone.trans h.gone⟩

/-- **A sender goes to sleep only if it is going to be told, or is right to wait.** -/
theorem Sender.sleepOn_spec (n : Nat) :
    Triple (sendC P strict ℓ) (Sends P ℓ (.refused (.sync n)))
      ((spaceL ℓ).accessWith (fun _ => id) (WaitCell.sleepOn n))
      fun slept s => if slept then Dozes (V := V) ℓ s else Sends P ℓ .base s := by
  refine send_atomic Sends.stable (fun slept => ?_) fun s _ hs => ?_
  · cases slept with
    | true => exact Dozes.stable
    | false => exact Sends.stable
  · refine ⟨.inr ⟨hs.lt, .space s _ (fun hsl => ?_) hs.gone⟩, ?_⟩
    · obtain ⟨hw, hn⟩ := WaitCell.sleepOn_slept ((WaitCell.sleepOn_asleep hs.awake).mp hsl)
      refine ⟨(WaitCell.sleepOn_waiting _ _).trans hw, hs.dropped, ?_⟩
      rcases hs.blocked rfl with (h | h) | ⟨h, -⟩ | ⟨h₁, h₂, h₃⟩
      · exact absurd hn h.ne'
      · exact .inl (by rw [h]; trivial)
      · cases h
      · exact .inr ⟨h₂ rfl, h₃ rfl, h₁ rfl⟩
    · by_cases hsl : ((s.space ℓ).sleepOn n).1 = true
      · show if ((s.space ℓ).sleepOn n).1 = true then _ else _
        rw [if_pos hsl]
        exact ⟨hs.lt, hs.phase, hs.active, hs.dropped, hs.gone⟩
      · show if ((s.space ℓ).sleepOn n).1 = true then _ else _
        rw [if_neg hsl]
        have hbase := hs.forget .none (.inr rfl)
        refine { hbase with awake := ?_, since := fun n hn => by cases hn }
        refine fun hx => hsl ((WaitCell.sleepOn_asleep hs.awake).mp ?_)
        exact (congrArg WaitCell.sleep (Function.update_self ..)).symm.trans hx

/-- The sleeper wakes, signalled or on its own. -/
theorem Sender.sleeping_spec (late : Nat) :
    Triple (sendC P strict ℓ) (Dozes ℓ) (WaitCell.sleeping (spaceL ℓ) late)
      fun _ => Sends (V := V) P ℓ .base := by
  refine Triple.await (fun _ => trivial) Dozes.stable (fun _ => Sends.stable)
    fun s n hi hs _ _ => ?_
  have hset : ((spaceL ℓ).set (s.space ℓ).resume s).space ℓ = (s.space ℓ).resume :=
    Function.update_self ..
  have hact : SenderAct P ℓ s ((spaceL ℓ).set (s.space ℓ).resume s) :=
    .space s _ (fun hsl => by cases hsl) hs.gone
  refine ⟨hi.sender hs.lt hact, .inr ⟨hs.lt, hact⟩, ?_⟩
  exact
    { lt := hs.lt
      phase := hs.phase
      active := hs.active
      dropped := hs.dropped
      gone := hs.gone
      marked := fun h => by cases h
      flushed := fun h => by cases h
      room := fun h => by cases h
      awake := fun h => by
        have := (congrArg WaitCell.sleep hset).symm.trans h
        cases this
      since := fun n h => by cases h
      blocked := fun _ => .inl trivial }

theorem Sender.unregister_spec :
    Triple (sendC P strict ℓ) (Sends P ℓ .base) ((spaceL ℓ).access WaitCell.unregister)
      fun _ => Sends (V := V) P ℓ .base := Sender.unwatch_spec rfl fun _ => rfl

theorem Sender.wait_spec (n : Nat) :
    Triple (sendC P strict ℓ) (Sends P ℓ (.refused (.sync n))) (WaitCell.wait (spaceL ℓ) id n)
      fun _ => Sends (V := V) P ℓ .base := by
  refine Triple.bind (Sender.sleepOn_spec n) fun slept => ?_
  cases slept with
  | true => exact (Sender.sleeping_spec 1).bind fun _ => Sender.unregister_spec
  | false => exact Sender.unregister_spec

theorem Sender.waitTimeout_spec (n : Nat) :
    Triple (sendC P strict ℓ) (Sends P ℓ (.refused (.sync n)))
      (WaitCell.waitTimeout (spaceL ℓ) id n) fun _ => Sends (V := V) P ℓ .base := by
  refine Triple.bind (Sender.sleepOn_spec n) fun slept => ?_
  cases slept with
  | true =>
    refine (Sender.sleeping_spec 2).bind fun late => ?_
    exact Triple.map Sender.unregister_spec fun _ s _ hs => hs
  | false => exact Triple.map Sender.unregister_spec fun _ s _ hs => hs

/-! ## The blocking loop -/

/-- What a blocking send has come to: sent, refused, or neither yet. -/
def Attempting (P : Params) (ℓ : Nat) (a : Attempt Unit Bool) (s : Chan V) : Prop :=
  match a with
  | .done sent => Sends P ℓ (.over sent) s
  | .pending _ => Sends P ℓ .base s

theorem Attempting.stable {a : Attempt Unit Bool} :
    (sendC P strict ℓ).Stable (Attempting (V := V) P ℓ a) := by
  cases a with
  | done sent => exact Sends.stable
  | pending => exact Sends.stable

theorem Sender.attempt_spec (v : V) :
    Triple (sendC P strict ℓ) (Sends P ℓ .base) ((Sender.blocking P ℓ v).attempt () ())
      fun r => Attempting P ℓ r.1 := by
  refine (Sender.trySend_spec v).bind fun r => ?_
  cases r with
  | pending => exact Triple.ret Attempting.stable fun s _ hs => hs.forget .none (.inr rfl)
  | _ => exact Triple.ret Attempting.stable fun s _ hs => hs

theorem Sender.spin_spec (v : V) (spins : Nat) :
    Triple (sendC P strict ℓ) (Sends P ℓ .base) ((Sender.blocking P ℓ v).spin spins () ())
      fun r => Attempting P ℓ r.1 := by
  induction spins with
  | zero => exact Triple.ret Attempting.stable fun s _ hs => hs
  | succ spins ih =>
    refine (Sender.attempt_spec v).bind fun r => ?_
    obtain ⟨a, _⟩ := r
    cases a with
    | done sent => exact Triple.ret Attempting.stable fun s _ hs => hs
    | pending => exact ih

/-- What the loop goes on with, or ends with. -/
def Rounds (P : Params) (ℓ : Nat) (r : (Unit × Unit) ⊕ (Except Unit Bool × Unit)) (s : Chan V) :
    Prop :=
  match r with
  | .inl _ => Sends P ℓ .base s
  | .inr (.ok sent, _) => Sends P ℓ (.over sent) s
  | .inr (.error _, _) => Sends P ℓ .base s

theorem Rounds.stable {r : (Unit × Unit) ⊕ (Except Unit Bool × Unit)} :
    (sendC P strict ℓ).Stable (Rounds (V := V) P ℓ r) := by
  match r with
  | .inl _ => exact Sends.stable
  | .inr (.ok _, _) => exact Sends.stable
  | .inr (.error _, _) => exact Sends.stable

theorem Sender.park_spec (v : V) (deadline : Bool) (n : Nat) :
    Triple (sendC P strict ℓ) (Sends P ℓ (.refused (.sync n)))
      ((Sender.blocking P ℓ v).park deadline n () ()) (Rounds P ℓ) := by
  cases deadline with
  | false => exact Triple.map (Sender.wait_spec n) fun _ s _ hs => hs
  | true =>
    refine Triple.bind (Q := fun _ => Sends P ℓ (.refused (.sync n))) ?_ fun late => ?_
    · refine Triple.act Sends.stable (fun _ _ _ _ => ⟨0, rfl⟩) fun s n s' hi hs hf _ => ?_
      obtain rfl := Option.some.inj hf
      exact ⟨hi, .inl rfl, fun s' he => Sends.stable.env he hi hs⟩
    · show Triple _ _ (if late ≠ 0 then _ else _) _
      split
      · exact Triple.map (Sender.unwatch_spec rfl fun _ => rfl) fun _ s _ hs => hs
      · refine (Sender.waitTimeout_spec n).bind fun expired => ?_
        cases expired with
        | false => exact Triple.ret Rounds.stable fun s _ hs => hs
        | true =>
          refine (Sender.attempt_spec v).bind fun r => ?_
          obtain ⟨a, _⟩ := r
          cases a with
          | done sent => exact Triple.ret Rounds.stable fun s _ hs => hs
          | pending => exact Triple.ret Rounds.stable fun s _ hs => hs

/-- What the look after the registration found. -/
def Rechecking (P : Params) (ℓ : Nat) (n : Nat) (a : Recheck Unit Bool Bool) (s : Chan V) : Prop :=
  match a with
  | .done sent first => if sent then
      Sends P ℓ ((Task.watching (.sync n) false false true).announced first) s
    else first = false ∧ Sends P ℓ (.watching (.sync n) false false) s
  | .progressed _ _ => False
  | .pending _ => Sends P ℓ (.refused (.sync n)) s

theorem Rechecking.stable {n : Nat} {a : Recheck Unit Bool Bool} :
    (sendC P strict ℓ).Stable (Rechecking (V := V) P ℓ n a) := by
  match a with
  | .done true _ => exact Sends.stable
  | .done false _ => exact (Contract.Stable.pure _).and Sends.stable
  | .progressed _ _ => exact Contract.Stable.pure _
  | .pending _ => exact Sends.stable

theorem Sender.recheck_spec (v : V) (n : Nat) :
    Triple (sendC P strict ℓ) (Sends P ℓ (.watching (.sync n) false false))
      ((Sender.blocking P ℓ v).recheck () ()) fun r => Rechecking P ℓ n r.1 := by
  refine (Sender.trySendInner_spec v).bind fun r => ?_
  obtain ⟨r, first⟩ := r
  cases r with
  | ok =>
    refine Triple.ret Rechecking.stable fun s _ hs => ?_
    rcases hs with ⟨-, hs⟩ | ⟨heq, -⟩ | ⟨heq, -⟩
    · exact hs
    · cases heq
    · cases heq
  | full =>
    refine Triple.ret Rechecking.stable fun s _ hs => ?_
    rcases hs with ⟨heq, -⟩ | ⟨-, hs⟩ | ⟨heq, -⟩
    · cases heq
    · exact hs
    · cases heq
  | _ =>
    refine Triple.ret Rechecking.stable fun s _ hs => ?_
    rcases hs with ⟨heq, -⟩ | ⟨heq, -⟩ | ⟨-, hs⟩
    · cases heq
    · cases heq
    · exact ⟨rfl, hs⟩

theorem Sender.round_spec (v : V) (deadline : Bool) :
    Triple (sendC P strict ℓ) (Sends P ℓ .base) ((Sender.blocking P ℓ v).round deadline ((), ()))
      (Rounds P ℓ) := by
  refine (Sender.attempt_spec v).bind fun r => ?_
  obtain ⟨a, _⟩ := r
  cases a with
  | done sent => exact Triple.ret Rounds.stable fun s _ hs => hs
  | pending =>
    refine Sender.prepare_spec.bind fun n => ?_
    refine (Sender.recheck_spec v n).bind fun r => ?_
    obtain ⟨a, _⟩ := r
    match a with
    | .done true first =>
      refine Triple.bind (Sender.unwatch_spec rfl fun _ => rfl) fun _ => ?_
      exact Triple.map (Sender.notified_spec (k := .watching .none false false true) first)
        fun _ s _ hs => hs
    | .done false first =>
      refine Triple.given (φ := first = false) (fun s _ hs => hs.1) fun hfirst => ?_
      subst hfirst
      refine Triple.bind ((Sender.unwatch_spec (k := .watching (.sync n) false false) rfl
        fun _ => rfl).pre fun s _ hs => hs.2) fun _ => ?_
      exact Triple.ret Rounds.stable fun s _ hs => hs
    | .progressed _ _ => exact fun s _ hs => hs.elim
    | .pending _ => exact Sender.park_spec v deadline n

theorem Sender.run_spec (v : V) (spins : Nat) (deadline : Bool) :
    Triple (sendC P strict ℓ) (Sends P ℓ .base)
      ((Sender.blocking P ℓ v).run spins deadline () ()) fun r => Rounds P ℓ (.inr r) := by
  refine (Sender.spin_spec v spins).bind fun r => ?_
  obtain ⟨a, _⟩ := r
  cases a with
  | done sent => exact Triple.ret Rounds.stable fun s _ hs => hs
  | pending =>
    refine Triple.iterate_free (fun _ => trivial) (fun _ => Sends P ℓ .base) Sends.stable
      (fun _ _ hs => hs) (fun _ => Rounds.stable) fun b => ?_
    refine (Sender.round_spec v deadline).post fun r s _ hr => ?_
    cases r with
    | inl b' => exact hr
    | inr c => exact hr

theorem Sender.sendDeadline_spec (v : V) (spins : Nat) (deadline : Bool) :
    Triple (sendC P strict ℓ) (Sends P ℓ .base) (Sender.sendDeadline P ℓ spins deadline v)
      (Sent P ℓ (· == .ok)) := by
  refine (Sender.run_spec v spins deadline).bind fun r => ?_
  match r with
  | (.ok true, _) => exact Triple.ret Sent.stable fun s _ hs => hs
  | (.ok false, _) => exact Triple.ret Sent.stable fun s _ hs => hs
  | (.error _, _) => exact Triple.ret Sent.stable fun s _ hs => hs

theorem Sender.send_spec (v : V) (spins : Nat) :
    Triple (sendC P strict ℓ) (Sends P ℓ .base) (Sender.send P ℓ spins v)
      (Sent P ℓ (· == .ok)) := by
  refine (Sender.trySend_spec v).bind fun r => ?_
  cases r with
  | full => exact Sender.sendDeadline_spec v spins false
  | _ => exact Triple.ret Sent.stable fun s _ hs => hs

/-! ## Asynchronous sends -/

theorem Sender.isFull_spec :
    Triple (sendC P strict ℓ) (Sends P ℓ { Task.refused w with full := false })
      (Sender.isFull ℓ) fun full => Sends (V := V) P ℓ { Task.refused w with full := full } :=
  (checkFull_spec rfl).post fun _ _ _ hs => { hs with room := fun h => by cases h }

/-- A sender that has to wait found its lane open and full and the receiver there. -/
theorem Sender.mustWait_spec :
    Triple (sendC P strict ℓ) (Sends P ℓ (.watching w false false)) (Sender.mustWait P ℓ)
      fun wait => Sends (V := V) P ℓ (if wait then .refused w else .watching w false false) := by
  refine Sender.isDisconnected_spec.bind fun gone => ?_
  cases gone with
  | true => exact Triple.ret Sends.stable fun s _ hs => hs
  | false =>
    refine Sender.isFull_spec.post fun full s _ hs => ?_
    cases full with
    | true => exact hs
    | false => exact hs.forget w (.inl rfl)

theorem Sender.cancelSendWait_spec (hk : k.gone = false) :
    Triple (sendC P strict ℓ) (Sends P ℓ k) (Sender.cancelSendWait ℓ)
      fun _ => Sends (V := V) P ℓ
        { k with watch := .none, full := false, alive := false, opened := false } :=
  Sender.unwatch_spec hk fun _ => rfl

theorem Sender.pollReady_spec :
    Triple (sendC P strict ℓ) (Sends P ℓ .base) (Sender.pollReady P ℓ)
      (Sent (V := V) P ℓ fun _ => false) := by
  -- nobody has to wait
  have hend : Triple (sendC P strict ℓ) (Sends P ℓ .base)
      ((Sender.cancelSendWait ℓ).bind fun _ => (Sender.isDisconnected P ℓ).bind fun gone =>
        if gone then .ret .disconnected else .ret .ok) (Sent (V := V) P ℓ fun _ => false) := by
    refine (Sender.cancelSendWait_spec rfl).bind fun _ => ?_
    refine Sender.isDisconnected_spec.bind fun gone => ?_
    cases gone with
    | true => exact Triple.ret Sends.stable fun s _ hs => hs
    | false => exact Triple.ret Sends.stable fun s _ hs => hs.forget .none (.inl rfl)
  refine (Sender.mustWait_spec (w := .none)).bind fun wait => ?_
  cases wait with
  | false => exact hend
  | true =>
    refine (Sender.registerAsync_spec.pre fun s _ hs => hs.forget .none (.inl rfl)).bind
      fun _ => ?_
    refine Sender.mustWait_spec.bind fun wait => ?_
    cases wait with
    | true => exact Triple.ret Sends.stable fun s _ hs => hs
    | false => exact hend.pre fun s _ hs => hs.forget .none (.inr rfl)

theorem Sender.pollSend_spec (v : V) :
    Triple (sendC P strict ℓ) (Sends P ℓ .base) (Sender.pollSend P ℓ v) (Sent P ℓ (· == .ok)) := by
  refine Sender.pollReady_spec.bind fun r => ?_
  cases r with
  | pending => exact Triple.ret Sent.stable fun s _ hs => hs
  | _ => exact Sender.trySend_spec v

/-! ## Registration and drop -/

theorem Others.register (hℓ : ℓ < s.count) (capacity : Nat) :
    Others P ℓ s (Sender.register capacity s) :=
  .of_eq (Nat.le_succ _) (Function.update_of_ne hℓ.ne ..) (Function.update_of_ne hℓ.ne ..)
    (Function.update_of_ne hℓ.ne ..) (Function.update_of_ne hℓ.ne ..)
    (Function.update_of_ne hℓ.ne ..) (Function.update_of_ne hℓ.ne ..)
    (Function.update_of_ne hℓ.ne ..) rfl (Function.update_of_ne hℓ.ne ..)
    (Function.update_of_ne hℓ.ne ..)

theorem Sender.registerSender_spec (maxLanes capacity : Nat) :
    Triple (sendC P strict ℓ) (Sends P ℓ .base) (Sender.registerSender maxLanes capacity)
      (Sent (V := V) P ℓ fun _ => false) := by
  refine Triple.bind (Q := fun _ => Sends P ℓ .base)
    (send_read Sends.stable (fun _ => Sends.stable) fun s _ hs => hs) fun alive => ?_
  cases alive with
  | false => exact Triple.ret Sent.stable fun s _ hs => hs
  | true =>
    refine Triple.bind (Q := fun _ => Sends P ℓ .base)
      (send_read Sends.stable (fun _ => Sends.stable) fun s _ hs => hs) fun registered => ?_
    show Triple _ _ (if maxLanes ≤ registered then _ else _) _
    split
    · exact Triple.ret Sent.stable fun s _ hs => hs
    · refine send_atomic Sends.stable (fun _ => Sent.stable) fun s _ hs => ?_
      unfold Sender.registerLocked
      split
      · exact ⟨.inl rfl, hs⟩
      · next halive =>
        split
        · exact ⟨.inl rfl, hs⟩
        · exact ⟨.inr ⟨hs.lt, .register s capacity (by simpa using halive) hs.gone⟩,
            hs.others (.register hs.lt capacity)⟩

/-- Nothing is left of the sender. -/
def Task.finished : Task := { Task.base with dropped := true, gone := true, marked := true }

theorem closeProducer_spec :
    Triple (sendC P strict ℓ) (Sends P ℓ .base) (Ring.closeProducer (ringL ℓ))
      fun _ => Sends (V := V) P ℓ { Task.base with dropped := true } := by
  -- everything pushed is published before the ring is closed
  refine (ringFlush_spec (w := .none) false).bind fun _ => ?_
  refine send_atomic Sends.stable (fun _ => Sends.stable) fun s _ hs => ?_
  refine ⟨.inr ⟨hs.lt, .ring s _ ?_ hs.dropped hs.awake⟩, ?_⟩
  · exact ⟨fun hok => ⟨hok.1, hok.2, hok.3, hok.4, hok.5, hok.6, hok.7, fun _ => hs.flushed rfl⟩,
      rfl, List.prefix_rfl, le_rfl, rfl, id, fun _ => ⟨rfl, rfl, rfl, rfl, rfl⟩⟩
  · exact hs.setRing _ rfl rfl rfl hs.active rfl (fun hm => by cases hm) (fun hm => by cases hm)
      (fun hm => by cases hm) fun hd => by cases hd

theorem Sender.drop_spec :
    Triple (sendC P strict ℓ) (Sends P ℓ .base) (Sender.drop ℓ)
      fun _ => Sends (V := V) P ℓ .finished := by
  refine (Sender.cancelSendWait_spec rfl).bind fun _ => ?_
  refine closeProducer_spec.bind fun _ => ?_
  refine (Sender.markReady_spec rfl rfl).bind fun first => ?_
  refine Triple.bind (Q := fun _ => Sends P ℓ { Task.finished with phase := .marked })
    (send_atomic Sends.stable (fun _ => Sends.stable) fun s _ hs => ?_) fun _ => ?_
  · refine ⟨.inr ⟨hs.lt, .leave s ((hs.marked rfl).2.trans hs.dropped) ?_ hs.gone⟩,
      { hs with phase := Function.update_self .., gone := Function.update_self .. }⟩
    cases first with
    | true => exact .inr hs.phase
    | false => exact .inl hs.phase
  · exact Sender.notifyData_spec rfl

/-! ## The answer -/

/-- What a sender knows between its operations. -/
structure Idles (P : Params) (ℓ : Nat) (s : Chan V) : Prop where
  phase : s.phase ℓ = .quiet
  awake : (s.space ℓ).sleep ≠ .asleep
  sends : s.gone ℓ = false → Sends P ℓ .base s
  /-- A poll that is pending has left its waker, which is going to be woken if anything changes. -/
  pending : s.gone ℓ = false → s.sent ℓ = some .pending → Sends P ℓ (.refused .async) s

theorem Idles.others (ho : Others P ℓ s s') (h : Idles P ℓ s) : Idles P ℓ s' where
  phase := ho.phase.trans h.phase
  awake := ho.tell.awake h.awake
  sends hg := (h.sends (ho.gone.symm.trans hg)).others ho
  pending hg hp := (h.pending (ho.gone.symm.trans hg) (ho.sent.symm.trans hp)).others ho

/-- A lane that was just registered. -/
theorem Idles.new (capacity : Nat) : Idles P s.count (Sender.register capacity s) := by
  have hspace : (Sender.register capacity s).space s.count = .new := Function.update_self ..
  have hring : (Sender.register capacity s).ring s.count = .new capacity := Function.update_self ..
  refine ⟨Function.update_self .., by rw [hspace]; simp [WaitCell.new], fun hg => ?_,
    fun _ hp => ?_⟩
  · exact
      { lt := Nat.lt_succ_self _
        phase := Function.update_self ..
        active := by rw [hring]; rfl
        dropped := by rw [hring]; rfl
        gone := hg
        marked := fun h => by cases h
        flushed := fun h => by cases h
        room := fun h => by cases h
        awake := by rw [hspace]; simp [WaitCell.new]
        since := fun n h => by cases h
        blocked := fun _ => .inl trivial }
  · have : (Sender.register capacity s).sent s.count = none := Function.update_self ..
    rw [this] at hp
    cases hp

/-- **Nothing the other threads do disturbs a sender between its operations.** -/
theorem Idles.guar {u : Tid} (hu : u ≠ .tx ℓ) (hg : guar P u s s') (h : ℓ < s.count → Idles P ℓ s)
    (hlt : ℓ < s'.count) : Idles P ℓ s' := by
  cases u with
  | rx => exact (h (hg.count ▸ hlt)).others (RecvAct.others hg ℓ)
  | tx ℓ' =>
    rcases hg with rfl | ⟨-, ha⟩
    · exact h hlt
    · by_cases hold : ℓ < s.count
      · exact (h hold).others (ha.others (fun heq => hu (by rw [heq])) hold)
      · -- the lane is one that was registered by this step
        cases ha with
        | register capacity _ _ =>
          obtain rfl : ℓ = s.count := le_antisymm (Nat.lt_succ_iff.mp hlt) (not_lt.mp hold)
          exact .new capacity
        | _ => exact absurd hlt hold

theorem Idles.stable : (sendC P strict ℓ).Stable fun s : Chan V => ℓ < s.count → Idles P ℓ s := by
  rintro s s' - - ⟨u, hu, hg⟩ h
  exact Idles.guar hu hg h

theorem Sender.reply_spec {p : SendReply → Bool} {r : SendReply} (hpub : p .pending = false) :
    Triple (sendC P strict ℓ) (Sent P ℓ p r) (Sender.reply ℓ (p r) r)
      fun _ s => ℓ < s.count → Idles (V := V) P ℓ s := by
  refine send_atomic Sent.stable (fun _ => Idles.stable) fun s _ hs => ?_
  have hsent : Sends P ℓ (if r = .pending then .refused .async else .over (p r)) s := hs
  by_cases hr : r = .pending
  · subst hr
    refine ⟨.inr ⟨hs.lt, .reply s _ .pending (fun h => absurd (hpub.symm.trans h) (by simp))
      hs.phase hs.gone⟩, fun _ => ⟨hs.phase, hs.awake, fun _ => ?_, fun _ _ => ?_⟩⟩
    · exact { hs.forget .none (.inr rfl) with }
    · exact { hs with }
  · rw [if_neg hr] at hsent
    refine ⟨.inr ⟨hsent.lt, .reply s _ r (fun h => (hsent.marked h).1.trans (hsent.flushed h))
      hsent.phase hsent.gone⟩, fun _ => ⟨hsent.phase, hsent.awake, fun _ => ?_, fun _ hp => ?_⟩⟩
    · exact { hsent.unmark with }
    · have hset : Function.update s.sent ℓ (some r) ℓ = some r := Function.update_self ..
      exact absurd (Option.some.inj (hset.symm.trans hp)) hr

/-- **Every operation of a sender keeps its contract**, and leaves it as it is between
    operations. -/
theorem SendOp.code_spec (op : SendOp V) :
    Triple (sendC P strict ℓ) (Sends P ℓ .base) (op.code P ℓ)
      fun _ s => ℓ < s.count → Idles (V := V) P ℓ s := by
  cases op with
  | trySend v => exact (Sender.trySend_spec v).bind fun r => Sender.reply_spec rfl
  | trySendUnsignaled v =>
    exact (Sender.trySendUnsignaled_spec v).bind fun r =>
      Sender.reply_spec (p := fun _ => false) rfl
  | trySendDeferred v => exact (Sender.trySendDeferred_spec v).bind fun r => Sender.reply_spec rfl
  | flush =>
    exact Sender.flush_spec.bind fun _ =>
      Sender.reply_spec (p := fun r => r == .ok) (r := .ok) rfl
  | send v spins => exact (Sender.send_spec v spins).bind fun r => Sender.reply_spec rfl
  | sendDeadline v spins =>
    exact (Sender.sendDeadline_spec v spins true).bind fun r => Sender.reply_spec rfl
  | pollReady => exact Sender.pollReady_spec.bind fun r => Sender.reply_spec rfl
  | pollSend v => exact (Sender.pollSend_spec v).bind fun r => Sender.reply_spec rfl
  | cancelSendWait =>
    exact (Sender.cancelSendWait_spec rfl).bind fun _ =>
      Sender.reply_spec (p := fun _ => false) (r := .ok) rfl
  | register maxLanes capacity =>
    exact (Sender.registerSender_spec maxLanes capacity).bind fun r =>
      Sender.reply_spec (p := fun _ => false) rfl
  | drop =>
    refine Sender.drop_spec.post fun _ s _ hs _ => ⟨hs.phase, hs.awake, fun hg => ?_, fun hg => ?_⟩
    · exact absurd (hs.gone.symm.trans hg) (by simp [Task.finished])
    · exact absurd (hs.gone.symm.trans hg) (by simp [Task.finished])

end

end Fanring.Mpsc
