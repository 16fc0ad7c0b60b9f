import Fanring.Mpsc.SendAsync

/-!
# What is sent is what is received

What the receiver has answered of a lane is a prefix of what the lane accepted, in every state a run
reaches: `Core` says so, and the rest of this module says what the words mean. A lane accepts what
its sender's operations report as sent (`accepts_of_call`): the log of its ring grows by the value
of a send that answers `Ok`, and by nothing else. The tagged view labels a value with the identity
of the lane it came from, and no two lanes have the same.
-/

set_option autoImplicit false

namespace Fanring.Mpsc

open Conc Chan

variable {V : Type} {P : Params} {s s' : Chan V} {ℓ : Nat} {l : List V} {v : V}

/-! ## What a lane accepts -/

/-- The value of a send. -/
def SendOp.value? : SendOp V → Option V
  | .trySend v | .trySendUnsignaled v | .trySendDeferred v | .send v _ | .sendDeadline v _
  | .pollSend v => some v
  | _ => none

/-- What an operation with this answer has sent. -/
def SendOp.accepted (op : SendOp V) (r : SendReply) : List V :=
  if r = .ok then op.value?.toList else []

/-- What the lane has accepted so far. -/
def Logged (ℓ : Nat) (l : List V) (s : Chan V) : Prop := ℓ < s.count ∧ (s.ring ℓ).log = l

def KeepsLog (ℓ : Nat) (s s' : Chan V) : Prop := ∀ l, Logged ℓ l s → Logged ℓ l s'

theorem Logged.stable : (ownC P ℓ).Stable (Logged (V := V) ℓ l) :=
  fun _ _ _ _ hr h => ⟨(hr h.1).lt, (hr h.1).log.trans h.2⟩

theorem log_straight {α : Type} {p : Prog (Chan V) α} (hp : p.Straight (KeepsLog ℓ)) :
    Triple (ownC P ℓ) (Logged ℓ l) p fun _ => Logged ℓ l :=
  Triple.straight Logged.stable hp fun _ _ h => h l

theorem Elsewhere.keepsLog (h : Elsewhere ℓ s s') : KeepsLog ℓ s s' :=
  fun _ hl => ⟨h.2.1 ▸ hl.1, h.1 ▸ hl.2⟩

theorem straight_elsewhere {α : Type} {p : Prog (Chan V) α} (hp : p.Straight (Elsewhere ℓ)) :
    p.Straight (KeepsLog ℓ) := hp.mono fun _ _ h => h.keepsLog

theorem straight_ring {β : Type} {f : Ring V → β × Ring V} (hf : ∀ r, (f r).2.log = r.log) :
    ((ringL (V := V) ℓ).access f).Straight (KeepsLog ℓ) := by
  refine .atomic fun s l hl => ⟨hl.1, ?_⟩
  show (Function.update s.ring ℓ (f (s.ring ℓ)).2 ℓ).log = l
  rw [Function.update_self, hf]
  exact hl.2

theorem straight_read {α : Type} {f : Chan V → α} : (Prog.read f).Straight (KeepsLog (V := V) ℓ) :=
  .atomic fun _ _ hl => hl

theorem straight_space {β : Type} {f : WaitCell → β × WaitCell} :
    ((spaceL (V := V) ℓ).access f).Straight (KeepsLog ℓ) := .atomic fun _ _ hl => hl

theorem log_push :
    Triple (ownC P ℓ) (Logged ℓ l) (Ring.push (ringL ℓ) v) fun b =>
      Logged ℓ (if b then l ++ [v] else l) := by
  refine (log_straight (straight_ring fun _ => rfl)).bind fun full => ?_
  cases full with
  | true => exact Triple.ret Logged.stable fun _ _ h => h
  | false =>
    refine Triple.bind (Q := fun _ => Logged ℓ (l ++ [v]))
      (Triple.aside_atomic Logged.stable (fun _ => Logged.stable) fun s h => ⟨h.1, ?_⟩)
      fun _ => Triple.ret Logged.stable fun _ _ h => h
    show (Function.update s.ring ℓ _ ℓ).log = l ++ [v]
    rw [Function.update_self]
    exact congrArg (· ++ [v]) h.2

theorem straight_endSend : (Ring.endSend (ringL (V := V) ℓ)).Straight (KeepsLog ℓ) := by
  refine Prog.Straight.bind (straight_ring fun _ => rfl) fun closed => ?_
  cases closed with
  | false => exact trivial
  | true =>
    refine Prog.Straight.bind (straight_ring fun _ => rfl) fun handed => ?_
    cases handed with
    | false => exact trivial
    | true =>
      refine Prog.Straight.bind (straight_ring (f := Ring.discardAll) fun _ => rfl) fun _ => ?_
      refine Prog.Straight.bind (straight_ring (f := Ring.release) fun _ => rfl) fun _ => ?_
      exact straight_ring (f := Ring.dropConsumer) fun _ => rfl

theorem log_pushAndFlush {coordinated : Bool} :
    Triple (ownC P ℓ) (Logged ℓ l) (Ring.pushAndFlush (ringL ℓ) coordinated v) fun b =>
      Logged ℓ (if b then l ++ [v] else l) := by
  have hflush : (Ring.flush (ringL (V := V) ℓ)).Straight (KeepsLog ℓ) :=
    straight_ring fun _ => rfl
  unfold Ring.pushAndFlush
  split
  · refine (log_straight (straight_ring fun r => ?_)).bind fun begun => ?_
    · simp only [Ring.begin]
      split <;> rfl
    cases begun with
    | false => exact Triple.ret Logged.stable fun _ _ h => h
    | true =>
      refine log_push.bind fun b => ?_
      cases b with
      | true =>
        exact (log_straight hflush).bind fun _ => (log_straight straight_endSend).bind fun _ =>
          Triple.ret Logged.stable fun _ _ h => h
      | false =>
        exact (log_straight straight_endSend).bind fun _ =>
          Triple.ret Logged.stable fun _ _ h => h
  · refine log_push.bind fun b => ?_
    cases b with
    | true => exact (log_straight hflush).bind fun _ => Triple.ret Logged.stable fun _ _ h => h
    | false => exact Triple.ret Logged.stable fun _ _ h => h

/-! ## Sends -/

/-- What the lane has accepted once a send of `v` answers. -/
def Took (ℓ : Nat) (l : List V) (v : V) (r : SendReply) : Chan V → Prop :=
  Logged ℓ (if r = .ok then l ++ [v] else l)

theorem Took.stable {r : SendReply} : (ownC P ℓ).Stable (Took ℓ l v r) := Logged.stable

theorem log_pushError :
    Triple (ownC P ℓ) (Logged ℓ l) (Sender.pushError P ℓ) (Took ℓ l v) := by
  refine (log_straight straight_read).bind fun alive => ?_
  cases alive with
  | false => exact Triple.ret Took.stable fun _ _ h => h
  | true =>
    refine (log_straight straight_read).bind fun closed => ?_
    cases closed <;> exact Triple.ret Took.stable fun _ _ h => h

theorem log_trySendInner :
    Triple (ownC P ℓ) (Logged ℓ l) (Sender.trySendInner P ℓ v) fun r => Took ℓ l v r.1 := by
  refine (log_straight straight_read).bind fun closed => ?_
  cases closed with
  | true => exact Triple.ret Took.stable fun _ _ h => h
  | false =>
    refine log_pushAndFlush.bind fun b => ?_
    cases b with
    | true =>
      exact (log_straight (straight_elsewhere markReady_elsewhere)).bind fun wake =>
        Triple.ret Took.stable fun _ _ h => h
    | false => exact log_pushError.bind fun r => Triple.ret Took.stable fun _ _ h => h

theorem log_trySend : Triple (ownC P ℓ) (Logged ℓ l) (Sender.trySend P ℓ v) (Took ℓ l v) := by
  refine log_trySendInner.bind fun ⟨r, wake⟩ => ?_
  cases wake with
  | false => exact Triple.ret Took.stable fun _ _ h => h
  | true =>
    exact (log_straight (straight_elsewhere notifyData_elsewhere)).bind fun _ =>
      Triple.ret Took.stable fun _ _ h => h

theorem log_trySendUnsignaled :
    Triple (ownC P ℓ) (Logged ℓ l) (Sender.trySendUnsignaled P ℓ v) (Took ℓ l v) := by
  refine (log_straight straight_read).bind fun closed => ?_
  cases closed with
  | true => exact Triple.ret Took.stable fun _ _ h => h
  | false =>
    refine log_pushAndFlush.bind fun b => ?_
    cases b with
    | true => exact Triple.ret Took.stable fun _ _ h => h
    | false => exact log_pushError

theorem straight_flush : (Sender.flush (V := V) ℓ).Straight (KeepsLog ℓ) := by
  refine Prog.Straight.bind (straight_ring fun _ => rfl) fun _ => ?_
  refine Prog.Straight.bind (straight_elsewhere markReady_elsewhere) fun wake => ?_
  cases wake with
  | false => exact trivial
  | true => exact straight_elsewhere notifyData_elsewhere

theorem straight_isDisconnected : (Sender.isDisconnected (V := V) P ℓ).Straight (KeepsLog ℓ) := by
  refine Prog.Straight.bind straight_read fun alive => ?_
  cases alive with
  | false => exact trivial
  | true => exact straight_read

theorem log_trySendDeferred :
    Triple (ownC P ℓ) (Logged ℓ l) (Sender.trySendDeferred P ℓ v) (Took ℓ l v) := by
  refine (log_straight straight_read).bind fun closed => ?_
  cases closed with
  | true => exact Triple.ret Took.stable fun _ _ h => h
  | false =>
    refine log_push.bind fun b => ?_
    cases b with
    | true => exact Triple.ret Took.stable fun _ _ h => h
    | false =>
      refine (log_straight straight_flush).bind fun _ => ?_
      refine (log_straight straight_isDisconnected).bind fun gone => ?_
      cases gone <;> exact Triple.ret Took.stable fun _ _ h => h

/-! ## Blocking sends -/

theorem straight_sleeping {late : Nat} :
    (WaitCell.sleeping (spaceL (V := V) ℓ) late).Straight (KeepsLog ℓ) :=
  .await fun _ _ _ hl => hl

theorem straight_wait {n : Nat} :
    (WaitCell.wait (spaceL (V := V) ℓ) id n).Straight (KeepsLog ℓ) := by
  refine Prog.Straight.bind (.atomic fun _ _ hl => hl) fun asleep => ?_
  cases asleep with
  | false => exact straight_space
  | true =>
    exact Prog.Straight.bind straight_sleeping fun _ => straight_space

theorem straight_waitTimeout {n : Nat} :
    (WaitCell.waitTimeout (spaceL (V := V) ℓ) id n).Straight (KeepsLog ℓ) := by
  refine Prog.Straight.bind (.atomic fun _ _ hl => hl) fun asleep => ?_
  cases asleep with
  | false => exact Prog.Straight.bind straight_space fun _ => trivial
  | true =>
    exact Prog.Straight.bind straight_sleeping fun _ =>
      Prog.Straight.bind straight_space fun _ => trivial

/-- What the lane has accepted with this outcome of a blocking send. -/
def Outcome (ℓ : Nat) (l : List V) (v : V) (o : Option Bool) : Chan V → Prop :=
  Logged ℓ (if o = some true then l ++ [v] else l)

theorem log_blocking : (Sender.blocking P ℓ v).Keeps (ownC P ℓ) (Outcome ℓ l v) where
  stable _ := Logged.stable
  attempt _ _ := by
    refine log_trySend.bind fun r => ?_
    cases r <;> exact Triple.ret Logged.stable fun _ _ h => h
  recheck _ _ := by
    refine log_trySendInner.bind fun ⟨r, wake⟩ => ?_
    cases r <;> exact Triple.ret Logged.stable fun _ _ h => h
  notify _ _ wake := by
    cases wake with
    | false => exact Triple.ret Logged.stable fun _ _ h => h
    | true => exact log_straight (straight_elsewhere notifyData_elsewhere)
  register := log_straight straight_space
  unregister _ _ := log_straight straight_space
  wait _ _ := log_straight straight_wait
  waitTimeout _ _ := log_straight straight_waitTimeout

theorem log_sendDeadline (spins : Nat) (deadline : Bool) :
    Triple (ownC P ℓ) (Logged ℓ l) (Sender.sendDeadline P ℓ spins deadline v) (Took ℓ l v) := by
  refine (log_blocking.run (fun _ => trivial) (fun _ => trivial) spins deadline () ()).bind
    fun ⟨r, _⟩ => ?_
  match r with
  | .ok true => exact Triple.ret Took.stable fun _ _ h => h
  | .ok false => exact Triple.ret Took.stable fun _ _ h => h
  | .error _ => exact Triple.ret Took.stable fun _ _ h => h

theorem log_send (spins : Nat) :
    Triple (ownC P ℓ) (Logged ℓ l) (Sender.send P ℓ spins v) (Took ℓ l v) := by
  refine log_trySend.bind fun r => ?_
  cases r with
  | full => exact log_sendDeadline spins false
  | _ => exact Triple.ret Took.stable fun _ _ h => h

/-! ## The other operations -/

theorem straight_mustWait : (Sender.mustWait (V := V) P ℓ).Straight (KeepsLog ℓ) := by
  refine Prog.Straight.bind straight_isDisconnected fun gone => ?_
  cases gone with
  | true => exact trivial
  | false => exact straight_ring fun _ => rfl

theorem straight_pollReady : (Sender.pollReady (V := V) P ℓ).Straight (KeepsLog ℓ) := by
  have hend : ((Sender.cancelSendWait (V := V) ℓ).bind fun _ =>
      (Sender.isDisconnected P ℓ).bind fun gone =>
        if gone then .ret SendReply.disconnected else .ret .ok).Straight (KeepsLog ℓ) := by
    refine Prog.Straight.bind straight_space fun _ => ?_
    refine Prog.Straight.bind straight_isDisconnected fun gone => ?_
    cases gone <;> exact trivial
  refine Prog.Straight.bind straight_mustWait fun wait => ?_
  cases wait with
  | false => exact hend
  | true =>
    refine Prog.Straight.bind (straight_elsewhere registerAsync_elsewhere) fun _ => ?_
    refine Prog.Straight.bind straight_mustWait fun wait => ?_
    cases wait with
    | true => exact trivial
    | false => exact hend

theorem log_pollSend : Triple (ownC P ℓ) (Logged ℓ l) (Sender.pollSend P ℓ v) (Took ℓ l v) := by
  refine (log_straight straight_pollReady).bind fun r => ?_
  cases r with
  | pending => exact Triple.ret Took.stable fun _ _ h => h
  | _ => exact log_trySend

theorem straight_register {maxLanes capacity : Nat} :
    (Sender.registerSender (V := V) maxLanes capacity).Straight (KeepsLog ℓ) := by
  refine Prog.Straight.bind straight_read fun alive => ?_
  cases alive with
  | false => exact trivial
  | true =>
    refine Prog.Straight.bind straight_read fun lanes => ?_
    split
    · exact trivial
    · refine .atomic fun s l hl => ?_
      simp only [Sender.registerLocked]
      split
      · exact hl
      split
      · exact hl
      · refine ⟨Nat.lt_succ_of_lt hl.1, ?_⟩
        show (Function.update s.ring s.count _ ℓ).log = l
        rw [Function.update_of_ne hl.1.ne]
        exact hl.2

theorem straight_drop : (Sender.drop (V := V) ℓ).Straight (KeepsLog ℓ) := by
  refine Prog.Straight.bind straight_space fun _ => ?_
  refine Prog.Straight.bind (Prog.Straight.bind (straight_ring fun _ => rfl)
    fun _ => straight_ring fun _ => rfl) fun _ => ?_
  refine Prog.Straight.bind (straight_elsewhere markReady_elsewhere) fun _ => ?_
  refine Prog.Straight.bind (.atomic fun _ _ hl => hl) fun _ => ?_
  exact straight_elsewhere notifyData_elsewhere

/-- What an operation on a lane that had accepted `l` ends in. -/
def Accepts (ℓ : Nat) (l : List V) (op : SendOp V) (s : Chan V) : Prop :=
  ∃ r, (op ≠ .drop → s.sent ℓ = some r) ∧ Logged ℓ (l ++ op.accepted r) s

theorem Accepts.stable {op : SendOp V} : (ownC P ℓ).Stable (Accepts ℓ l op) := by
  rintro s s' hs hs' hr ⟨r, hsent, hlog⟩
  exact ⟨r, fun hop => (hr hlog.1).sent.trans (hsent hop), Logged.stable s s' hs hs' hr hlog⟩

theorem log_reply {published : Bool} {r : SendReply} {op : SendOp V} {A : Chan V → Prop}
    (hA : (ownC P ℓ).Stable A) (h : ∀ s, A s → Logged ℓ (l ++ op.accepted r) s) :
    Triple (ownC P ℓ) A (Sender.reply ℓ published r) fun _ => Accepts ℓ l op :=
  Triple.aside_atomic hA (fun _ => Accepts.stable) fun s hs =>
    ⟨r, fun _ => Function.update_self .., h s hs⟩

theorem Took.accepted {op : SendOp V} {r : SendReply} (hop : op.value? = some v)
    (h : Took ℓ l v r s) : Logged ℓ (l ++ op.accepted r) s := by
  rw [SendOp.accepted, hop]
  rw [Took] at h
  split
  · next hr => simpa [hr] using h
  · next hr => simpa [hr] using h

/-- A send. -/
theorem log_sending {p : Prog (Chan V) SendReply} {published : SendReply → Bool} {op : SendOp V}
    (hop : op.value? = some v) (hp : Triple (ownC P ℓ) (Logged ℓ l) p (Took ℓ l v)) :
    Triple (ownC P ℓ) (Logged ℓ l) (p.bind fun r => Sender.reply ℓ (published r) r) fun _ =>
      Accepts ℓ l op :=
  hp.bind fun _ => log_reply Took.stable fun _ h => h.accepted hop

/-- An operation that sends nothing. -/
theorem log_other {α : Type} {p : Prog (Chan V) α} {published : Bool} {answer : α → SendReply}
    {op : SendOp V} (hop : op.value? = none) (hp : p.Straight (KeepsLog ℓ)) :
    Triple (ownC P ℓ) (Logged ℓ l) (p.bind fun r => Sender.reply ℓ published (answer r)) fun _ =>
      Accepts ℓ l op := by
  refine (log_straight hp).bind fun _ => log_reply Logged.stable fun _ h => ?_
  simpa [SendOp.accepted, hop] using h

theorem SendOp.log_spec (op : SendOp V) :
    Triple (ownC P ℓ) (Logged ℓ l) (op.code P ℓ) fun _ => Accepts ℓ l op := by
  cases op with
  | trySend v => exact log_sending rfl log_trySend
  | trySendUnsignaled v => exact log_sending rfl log_trySendUnsignaled
  | trySendDeferred v => exact log_sending rfl log_trySendDeferred
  | flush => exact log_other rfl straight_flush
  | send v spins => exact log_sending rfl (log_send spins)
  | sendDeadline v spins => exact log_sending rfl (log_sendDeadline spins true)
  | pollReady => exact log_other rfl straight_pollReady
  | pollSend v => exact log_sending rfl log_pollSend
  | cancelSendWait => exact log_other rfl straight_space
  | register maxLanes capacity => exact log_other rfl straight_register
  | drop =>
    refine (log_straight straight_drop).post fun _ s _ h =>
      ⟨.pending, fun hne => absurd rfl hne, ?_⟩
    simpa [SendOp.accepted] using h

/-- **A lane accepts what its sender's operations report as sent.** -/
theorem accepts_of_call {c c₁ c₂ : Config (Chan V) Tid} {op : SendOp V} (h : Reaches V P c)
    (hcall : (system V P).exec c (.call (.tx ℓ) (.send op)) = some c₁)
    (hduring : (system V P).During System.always (.tx ℓ) c₁ c₂) (hback : c₂.pool (.tx ℓ) = none) :
    Accepts ℓ (c.st.ring ℓ).log op c₂.st := by
  have hlt : ℓ < c.st.count := (stands_idle h.good hcall).lt
  have hcalling := sending h.good hcall (A := Logged ℓ (c.st.ring ℓ).log) ⟨hlt, rfl⟩ op.log_spec
  exact Calling.replied (hcalling.during (hduring.mono fun c l _ => ok_always c l)) hback

/-- No other thread adds to it. -/
theorem log_of_step {c c₁ : Config (Chan V) Tid} {t : Tid} {n : Nat} (h : Reaches V P c)
    (hstep : (system V P).exec c (.step t n) = some c₁) (ht : t ≠ .tx ℓ) (hlt : ℓ < c.st.count) :
    (c₁.st.ring ℓ).log = (c.st.ring ℓ).log :=
  (guar.leaves ht (h.good.guarantee (ok_always _ _) hstep) hlt).log

/-! ## The tagged view -/

variable {rx : Receiver}

def Reply.Tagged (r : Reply V) : Prop := ∀ i ∈ r.items, ∃ id, i.id = some id

/-- The values of the last answer carry identities. -/
def LastTagged (s : Chan V) : Prop := ∀ r, s.history.getLast? = some r → r.Tagged

theorem Genuine.tagged {item : Item V} (h : Genuine P true item s) : ∃ id, item.id = some id := by
  rw [h.2]
  exact ⟨_, rfl⟩

theorem Returned.tagged {S : Setting} {r : Except RecvError (Item V)}
    (h : Returned P S true [] false rx s r) : (Reply.recv r).Tagged := by
  match r with
  | .ok item =>
    obtain ⟨n, hg, -⟩ := h
    exact fun i hi => (List.mem_singleton.mp hi) ▸ hg.tagged
  | .error e => exact fun i hi => absurd hi List.not_mem_nil

theorem Waited.tagged {deadline b : Bool} {k : Terms} {r : Except RecvError (Item V)}
    (h : Waited P b k true deadline rx s r) : (Reply.recv r).Tagged := by
  match r with
  | .ok item => exact fun i hi => (List.mem_singleton.mp hi) ▸ Genuine.tagged h.2
  | .error e => exact fun i hi => absurd hi List.not_mem_nil

theorem PollReturned.tagged {b : Bool} {k : Terms} {r : Option (Except RecvError (Item V))}
    (h : PollReturned P b k true rx s r) : (Reply.poll r).Tagged := by
  match r with
  | some (.ok item) => exact fun i hi => (List.mem_singleton.mp hi) ▸ Genuine.tagged h.2
  | some (.error e) => exact fun i hi => absurd hi List.not_mem_nil
  | none => exact fun i hi => absurd hi List.not_mem_nil

theorem Finding.tagged {b o tagged : Bool} {k : Terms} {r : Reply V}
    (h : Finding P b k rx s o tagged r) (ht : tagged = true) : r.Tagged := by
  subst ht
  cases h with
  | returned h => exact h.tagged
  | waited h => exact h.tagged
  | polled h => exact h.tagged

/-- **A tagged receive answers no value without the identity of a lane.** -/
theorem RecvOp.tagged_spec (op : RecvOp V) (hop : op.tagged = true) :
    Triple (recvC P (.watching false .none .none)) (Between false) (op.code P) fun _ =>
      LastTagged := by
  have hdrop : op ≠ .drop := by
    rintro rfl
    cases hop
  refine (op.answers_spec hdrop op.admits_none (R := fun r _ => r.Tagged)
    (fun _ _ _ _ _ _ _ h => h) (fun _ _ _ h => h) fun r rx s h => h.tagged hop).conseq
    (fun s _ h => ⟨h, fun hb => by cases hb⟩) fun _ s _ h r hr => ?_
  obtain ⟨-, r', hr', htagged⟩ := h
  cases hr'.symm.trans hr
  exact htagged

/-! ## Delivery -/

/-- **Exactly once, in order, under the right name.** In every state a run reaches, the values the
    receiver obtained from a lane are a prefix of what the lane has accepted. What it accepts is
    what its own sender's operations report as sent. A value's identity is that of the lane it came
    from, no two lanes have the same, and the tagged view has one for every value. -/
theorem delivers_in_order {c : Config (Chan V) Tid} (h : Reaches V P c) :
    (∀ ℓ, ofLane ℓ (c.st.returned.map Item.pair) <+: (c.st.ring ℓ).log) ∧
    (∀ ℓ op c₁ c₂, (system V P).exec c (.call (.tx ℓ) (.send op)) = some c₁ →
      (system V P).During System.always (.tx ℓ) c₁ c₂ → c₂.pool (.tx ℓ) = none →
      ∃ r, (op ≠ .drop → c₂.st.sent ℓ = some r) ∧
        (c₂.st.ring ℓ).log = (c.st.ring ℓ).log ++ op.accepted r) ∧
    (∀ ℓ t n c₁, (system V P).exec c (.step t n) = some c₁ → t ≠ .tx ℓ → ℓ < c.st.count →
      (c₁.st.ring ℓ).log = (c.st.ring ℓ).log) ∧
    (∀ i ∈ c.st.returned, i.lane < c.st.count ∧
      ∀ id, i.id = some id → id = ⟨c.st.key i.lane, P.channelId⟩) ∧
    (∀ ℓ < c.st.count, ∀ ℓ' < c.st.count, c.st.key ℓ = c.st.key ℓ' → ℓ = ℓ') ∧
    ∀ op c₁ c₂, op.tagged = true → (system V P).exec c (.call .rx (.recv op)) = some c₁ →
      (system V P).During System.always .rx c₁ c₂ → c₂.pool .rx = none →
      ∀ r, c₂.st.history.getLast? = some r → ∀ i ∈ r.items, ∃ id, i.id = some id := by
  have hcore := h.good.1.core
  refine ⟨fun ℓ => ?_, fun ℓ op c₁ c₂ hcall hduring hback => ?_,
    fun ℓ t n c₁ hstep ht hlt => log_of_step h hstep ht hlt, fun i hi => ⟨?_, hcore.ids i hi⟩,
    hcore.keys.distinct, fun op c₁ c₂ hop hcall hduring hback => ?_⟩
  · obtain ⟨rest, hrest⟩ := hcore.returned
    refine List.IsPrefix.trans ⟨ofLane ℓ rest, ?_⟩ (hcore.lane ℓ).popped_le
    rw [← ofLane_append, hrest]
  · obtain ⟨r, hsent, hlog⟩ := accepts_of_call h hcall hduring hback
    exact ⟨r, hsent, hlog.2⟩
  · exact hcore.popped_lt i.pair (hcore.returned.subset (List.mem_map_of_mem hi))
  · exact (h.returned rfl hcall hduring hback fun hi hb => op.tagged_spec hop c.st hi hb).2

/-- Two values are sent and one is received, with its identity. -/
def delivered : Config (Chan Nat) Tid :=
  (system Nat ⟨true, 5, 4⟩).after (start Nat ⟨true, 5, 4⟩) (List.flatten [
    System.turn (.tx 0) (.send (.trySend 7)) 13, System.turn (.tx 0) (.send (.trySend 8)) 9,
    System.turn .rx (.recv (.tryRecv true)) 15])

theorem delivered_in_order :
    delivered.st.returned.map Item.pair = [(0, 7)] ∧ (delivered.st.ring 0).log = [7, 8] ∧
      ofLane 0 (delivered.st.returned.map Item.pair) <+: (delivered.st.ring 0).log ∧
      ∀ i ∈ delivered.st.returned, i.lane < delivered.st.count ∧
        ∀ id, i.id = some id → id = ⟨delivered.st.key i.lane, 5⟩ := by
  have h : Reaches Nat ⟨true, 5, 4⟩ delivered := System.run_after (by decide +kernel)
  have hall := delivers_in_order h
  exact ⟨by decide +kernel, by decide +kernel, hall.1 0, hall.2.2.2.1⟩

end Fanring.Mpsc
