import Fanring.Conc.Return
import Fanring.Mpsc.Outline

/-!
# Asynchronous sends

A `SendFuture` polls for room and then sends, and turns every failure of `try_send` into a
`SendError`; that is right only if the ring is never full by then. What carries the argument is the
producer's own copy of the head: nobody else writes it, so room found by one access is still there
at the next one of the same producer. The assertions below speak of what the other threads leave to
the sender of a lane, its log and that copy, so they are triples aside from the sender's contract
(`Contract.aside`); `SendOp.code_spec` adds the contract.

A failed send hands back the value it was called with, so an answer other than `ok` and `pending` is
the value and an error (`SendReply.output`).
-/

set_option autoImplicit false

namespace Fanring.Mpsc

open Conc Chan

variable {V : Type} {P : Params} {s s' : Chan V} {ℓ : Nat} {l : List V}

/-- What a poll of a `SendFuture` with value `v` answers: `map_err` drops the kind of the error. -/
def SendReply.output (v : V) : SendReply → Option (Except V Unit)
  | .pending => none
  | .ok => some (.ok ())
  | _ => some (.error v)

/-! ## What the others leave -/

/-- The receiver was dropped or the lane was closed. -/
def Dead (P : Params) (ℓ : Nat) (s : Chan V) : Prop :=
  s.receiverAlive = false ∨ (s.ring ℓ).isClosed P.coordinated = true

/-- What a step of another thread leaves to the sender of a lane. -/
structure Leaves (P : Params) (ℓ : Nat) (s s' : Chan V) : Prop where
  lt : ℓ < s'.count
  log : (s'.ring ℓ).log = (s.ring ℓ).log
  cap : (s'.ring ℓ).cap = (s.ring ℓ).cap
  cachedHead : (s'.ring ℓ).cachedHead = (s.ring ℓ).cachedHead
  active : (s'.ring ℓ).active = (s.ring ℓ).active
  there : (s'.ring ℓ).producerDropped = (s.ring ℓ).producerDropped
  alive : s.receiverAlive = false → s'.receiverAlive = false
  closed : (s.ring ℓ).isClosed P.coordinated = true → (s'.ring ℓ).isClosed P.coordinated = true
  sent : s'.sent ℓ = s.sent ℓ

theorem Leaves.dead (h : Leaves P ℓ s s') (hd : Dead P ℓ s) : Dead P ℓ s' :=
  hd.imp h.alive h.closed

theorem SenderAct.alive {ℓ' : Nat} (ha : SenderAct P ℓ' s s') :
    s'.receiverAlive = s.receiverAlive := by
  cases ha <;> rfl

theorem Others.leaves (ho : Others P ℓ s s') (hlt : ℓ < s.count)
    (halive : s.receiverAlive = false → s'.receiverAlive = false) : Leaves P ℓ s s' where
  lt := hlt.trans_le ho.count
  log := ho.ring.log
  cap := ho.ring.cap
  cachedHead := ho.ring.cachedHead
  active := ho.ring.active
  there := ho.ring.producerDropped
  alive := halive
  closed := ho.ring.isClosed
  sent := ho.sent

/-- **No other thread touches what a sender's producer owns.** -/
theorem guar.leaves {u : Tid} (hu : u ≠ .tx ℓ) (hg : guar P u s s') (hlt : ℓ < s.count) :
    Leaves P ℓ s s' := by
  cases u with
  | rx =>
    refine (RecvAct.others hg ℓ).leaves hlt fun h => ?_
    by_contra hne
    exact absurd (h.symm.trans (hg.alive (by simpa using hne))) (by simp)
  | tx ℓ' =>
    rcases hg with rfl | ⟨-, ha⟩
    · exact ⟨hlt, rfl, rfl, rfl, rfl, rfl, id, id, rfl⟩
    · exact (ha.others (fun heq => hu (by rw [heq])) hlt).leaves hlt fun h => ha.alive.trans h

/-- The sender's contract, as far as its producer goes. -/
def ownC (P : Params) (ℓ : Nat) : Contract (Chan V) :=
  .aside fun s s' => ℓ < s.count → Leaves P ℓ s s'

/-- Where a sender is: what its lane has accepted, whether it is inside `push_and_flush`, whether it
    knows of a free slot, whether it knows that nobody receives. -/
structure Stands (P : Params) (ℓ : Nat) (l : List V) (active room dead : Bool) (s : Chan V) :
    Prop where
  lt : ℓ < s.count
  log : (s.ring ℓ).log = l
  active : (s.ring ℓ).active = active
  there : (s.ring ℓ).producerDropped = false
  room : room = true → (s.ring ℓ).log.length - (s.ring ℓ).cachedHead < (s.ring ℓ).cap
  dead : dead = true → Dead P ℓ s

variable {a room dead : Bool}

theorem Stands.leaves (h : Stands P ℓ l a room dead s) (hl : Leaves P ℓ s s') :
    Stands P ℓ l a room dead s' where
  lt := hl.lt
  log := hl.log.trans h.log
  active := hl.active.trans h.active
  there := hl.there.trans h.there
  room hr := by
    rw [hl.log, hl.cachedHead, hl.cap]
    exact h.room hr
  dead hd := hl.dead (h.dead hd)

theorem Stands.stable : (ownC P ℓ).Stable (Stands (V := V) P ℓ l a room dead) :=
  fun _ _ _ _ hr h => h.leaves (hr h.lt)

theorem Stands.weaken (h : Stands P ℓ l a room dead s) : Stands P ℓ l a false false s :=
  { h with
    room := fun h => by cases h
    dead := fun h => by cases h }

theorem Stands.setRing (h : Stands P ℓ l a room dead s) {r : Ring V} {l' : List V}
    {a' room' dead' : Bool} (hlog : r.log = l') (hactive : r.active = a')
    (hthere : r.producerDropped = false)
    (hroom : room' = true → r.log.length - r.cachedHead < r.cap)
    (hdead : dead' = true → s.receiverAlive = false ∨ r.isClosed P.coordinated = true) :
    Stands P ℓ l' a' room' dead' ((ringL ℓ).set r s) := by
  have hring : ((ringL ℓ).set r s).ring ℓ = r := Function.update_self ..
  refine ⟨h.lt, by rw [hring, hlog], by rw [hring, hactive], by rw [hring, hthere], fun hr => ?_,
    fun hd => ?_⟩
  · rw [hring]
    exact hroom hr
  · rw [Dead, hring]
    exact hdead hd

/-- A step that leaves the lane's ring and the receiver alone. -/
def Elsewhere (ℓ : Nat) (s s' : Chan V) : Prop :=
  s'.ring ℓ = s.ring ℓ ∧ s'.count = s.count ∧ s'.receiverAlive = s.receiverAlive

/-- What an answer says: `l` was accepted before the operation, `l'` is if it succeeded, and then
    whether there is room for another value. No other answer is given. -/
def Yielded (P : Params) (ℓ : Nat) (l l' : List V) (room : Bool) : SendReply → Chan V → Prop
  | .pending => Stands P ℓ l false false false
  | .ok => Stands P ℓ l' false room false
  | .disconnected => Stands P ℓ l false false true
  | _ => fun _ => False

variable {l' : List V} {r : SendReply}

theorem Yielded.stable : (ownC P ℓ).Stable (Yielded (V := V) P ℓ l l' room r) := by
  cases r with
  | pending => exact Stands.stable
  | ok => exact Stands.stable
  | disconnected => exact Stands.stable
  | _ => exact Contract.Stable.pure _

theorem markReady_elsewhere : (Sender.markReady (V := V) ℓ).Straight (Elsewhere ℓ) := by
  refine Prog.Straight.bind (.atomic fun s => ⟨rfl, rfl, rfl⟩) fun key => ?_
  refine Prog.Straight.bind (.atomic fun s => ⟨rfl, rfl, rfl⟩) fun first => ?_
  cases first with
  | false => exact trivial
  | true =>
    refine Prog.Straight.bind (.atomic fun s => ⟨rfl, rfl, rfl⟩) fun first => ?_
    cases first with
    | false => exact trivial
    | true => exact Prog.Straight.bind (.atomic fun s => ⟨rfl, rfl, rfl⟩) fun _ => trivial

theorem notifyData_elsewhere : (Sender.notifyData (V := V) ℓ).Straight (Elsewhere ℓ) := by
  refine Prog.Straight.bind (.atomic fun s => ⟨rfl, rfl, rfl⟩) fun waiting => ?_
  refine Prog.Straight.bind (.atomic fun s => ⟨rfl, rfl, rfl⟩) fun _ => ?_
  cases waiting with
  | false => exact trivial
  | true => exact .atomic fun s => ⟨rfl, rfl, rfl⟩

/-- The sender knows of a slot, or that nobody receives. -/
def Knows (P : Params) (ℓ : Nat) (l : List V) (s : Chan V) : Prop :=
  Stands P ℓ l false true false s ∨ Stands P ℓ l false false true s

theorem Knows.stable : (ownC P ℓ).Stable (Knows (V := V) P ℓ l) :=
  fun s s' hs hs' hr h => h.imp (Stands.stable s s' hs hs' hr) (Stands.stable s s' hs hs' hr)

theorem registerAsync_elsewhere :
    (WaitCell.registerAsync (spaceL (V := V) ℓ)).Straight (Elsewhere ℓ) :=
  Prog.Straight.bind (.atomic fun _ => ⟨rfl, rfl, rfl⟩) fun _ => .atomic fun _ => ⟨rfl, rfl, rfl⟩

/-- The last answer of the sender, and what it says. -/
def Replied (P : Params) (ℓ : Nat) (l l' : List V) (room : Bool) (s : Chan V) : Prop :=
  ℓ < s.count ∧ ∃ r, s.sent ℓ = some r ∧ Yielded P ℓ l l' room r s

theorem Replied.stable : (ownC P ℓ).Stable (Replied (V := V) P ℓ l l' room) := by
  rintro s s' hs hs' hr ⟨hlt, r, hsent, hy⟩
  exact ⟨(hr hlt).lt, r, (hr hlt).sent.trans hsent, Yielded.stable s s' hs hs' hr hy⟩

theorem Yielded.lt (h : Yielded P ℓ l l' room r s) : ℓ < s.count := by
  cases r with
  | pending => exact Stands.lt h
  | ok => exact Stands.lt h
  | disconnected => exact Stands.lt h
  | _ => exact h.elim

/-- What the sender rests in after an operation that ended in `R`. -/
def Rested (P : Params) (ℓ : Nat) (R : Chan V → Prop) (s : Chan V) : Prop :=
  (ℓ < s.count → Idles P ℓ s) ∧ R s

theorem ownC_rely {s s' : Chan V} (h : (sendC P false ℓ).rely s s') (hlt : ℓ < s.count) :
    Leaves P ℓ s s' := by
  obtain ⟨u, hu, hg⟩ := h
  exact hg.leaves hu hlt

theorem Rested.stable {R : Chan V → Prop} (hR : (ownC P ℓ).Stable R) :
    (sendC P false ℓ).Stable (Rested P ℓ R) :=
  Idles.stable.and fun s s' _ _ hr h => hR s s' trivial trivial (ownC_rely hr) h

/-- A call of the sender in a run, with what it ends in aside from its contract. -/
theorem sending {c c₁ : Config (Chan V) Tid} {op : SendOp V} {A R : Chan V → Prop}
    (hgood : (outline V P false).Good c)
    (hcall : (system V P).exec c (.call (.tx ℓ) (.send op)) = some c₁) (hA : A c.st)
    (hop : Triple (ownC P ℓ) A (op.code P ℓ) fun _ => R) :
    (outline V P false).Calling (.tx ℓ) (fun _ => True) (Rested P ℓ R) c₁ := by
  obtain ⟨-, hmay, -⟩ := System.exec_call hcall
  refine hgood.calling hcall fun hidle => ?_
  refine wp.aside (C := sendC P false ℓ) (fun s s' _ hr hlt => ownC_rely hr hlt) ?_ hgood.1
    (hop c.st trivial hA)
  exact (outline V P false).code_ok (.tx ℓ) (.send op) c.st hgood.1 hidle hmay trivial

/-- A sender between operations. -/
theorem stands_idle {c c₁ : Config (Chan V) Tid} {op : SendOp V}
    (hgood : (outline V P false).Good c)
    (hcall : (system V P).exec c (.call (.tx ℓ) (.send op)) = some c₁) :
    Stands P ℓ (c.st.ring ℓ).log false false false c.st := by
  obtain ⟨hpool, hmay, -⟩ := System.exec_call hcall
  simp only [system, Bool.and_eq_true, decide_eq_true_eq, Bool.not_eq_true'] at hmay
  have hidle := hgood.2 (.tx ℓ)
  rw [hpool] at hidle
  have hsends := (hidle hmay.1.1).sends hmay.1.2
  refine ⟨hsends.lt, rfl, hsends.active, hsends.dropped, ?_, ?_⟩
  · intro h
    cases h
  · intro h
    cases h

/-- The sender of the lane is lent to a future with value `v`: all it does is to poll that, again
    only if the last poll was pending. -/
def Polls (ℓ : Nat) (v : V) (c : Config (Chan V) Tid) : Label Tid (Op V) → Prop
  | .call t op => t = .tx ℓ → op = .send (.pollSend v) ∧ c.st.sent ℓ = some .pending
  | .step _ _ => True

theorem Calling.replied {c : Config (Chan V) Tid} {R : Chan V → Prop}
    (h : (outline V P false).Calling (.tx ℓ) (fun _ => True) (Rested P ℓ R) c)
    (hidle : c.pool (.tx ℓ) = none) : R c.st := by
  have hrest := h.2
  rw [hidle] at hrest
  exact hrest.2

/-- The lane is dead only because the receiver was dropped or closed it. -/
theorem Stands.shut (h : Stands P ℓ l a room true s) (hi : Core P s) :
    s.receiverAlive = false ∨ s.shut ℓ = true := by
  refine (h.dead rfl).imp id fun hclosed => ?_
  by_contra hshut
  obtain ⟨h₁, h₂⟩ := (hi.lane ℓ).not_closed h.there (by simpa using hshut)
  rw [Ring.isClosed] at hclosed
  split at hclosed
  · exact absurd (h₁.symm.trans hclosed) (by simp)
  · exact absurd (h₂.symm.trans hclosed) (by simp)

/-- No step of a sender frees a slot of a lane that is open, or reads a value of it. -/
theorem SenderAct.credit (ha : SenderAct P ℓ s s') (hi : Core P s) (hlt : ℓ < s.count)
    (hshut : s'.shut ℓ = false) :
    (s'.ring ℓ).cap = (s.ring ℓ).cap ∧ (s'.ring ℓ).released = (s.ring ℓ).released ∧
      (s'.ring ℓ).head = (s.ring ℓ).head := by
  cases ha with
  | ring r hr hopen _ =>
    have hring : ((ringL ℓ).set r s).ring ℓ = r := Function.update_self ..
    obtain ⟨-, hhead, -, hreleased, -⟩ := hr.consumer ((hi.lane ℓ).not_closed hopen hshut).1
    rw [hring]
    exact ⟨hr.cap, hreleased, hhead⟩
  | register capacity _ _ =>
    have hring : (Sender.register capacity s).ring ℓ = s.ring ℓ := Function.update_of_ne hlt.ne ..
    rw [hring]
    exact ⟨rfl, rfl, rfl⟩
  | _ => exact ⟨rfl, rfl, rfl⟩

end Fanring.Mpsc
