import Fanring.Mpsc.DropSpec
import Fanring.Mpsc.SenderSpec

/-!
# The MPSC channel: every run keeps the invariant

The proof outline of the whole system. Between its operations a sender is as `Idles` says, and the
receiver either was dropped and has closed every lane, or knows what `View` says of its own fields.
Every operation starts from there and leads back to it, so `Inv` and all of this hold in every state
a run reaches.

The outline comes in two forms. The strict one also follows the budget of the readiness poll, and
speaks of the runs in which no receive starts with the budget used up and nothing in the rotation.
-/

set_option autoImplicit false

namespace Fanring.Mpsc

open Conc Chan

variable {V : Type} {P : Params} {S : Setting} {s s' : Chan V} {ℓ : Nat} {x : Ctx V}
  {rx rx' : Receiver} {b : Bool} {k : Terms} {w : Watch}

/-! ## The receiver between its operations -/

/-- The last answer was `Pending`. -/
def Chan.polling (s : Chan V) : Bool :=
  match s.history.getLast? with
  | some (.poll none) => true
  | _ => false

/-- The receiver is there, and at the end of an operation under these terms. -/
structure Resting (b : Bool) (k : Terms) (s : Chan V) : Prop where
  view : View (.watching b k .async) { Ctx.base with quiet := s.polling } s.rx s
  active : s.polling = true → s.rx.active = []

/-- The receiver is there, and between two operations. -/
abbrev Between (b : Bool) (s : Chan V) : Prop := Resting b .none s

/-- What the receiver knows between its operations. -/
def Rests (P : Params) (b : Bool) (s : Chan V) : Prop := Torn P s ∨ Between b s

theorem Resting.between (h : Resting b k s) : Between b s := ⟨h.view.freed, h.active⟩

theorem Resting.sender (h : Resting b k s) (hc : Core P s) (hℓ : ℓ < s.count)
    (ha : SenderAct P ℓ s s') : Resting b k s' := by
  have hf := ha.frame hc hℓ
  have hp : s'.polling = s.polling := by rw [Chan.polling, hf.history, Chan.polling]
  refine ⟨?_, fun hq => ?_⟩
  · rw [hp, hf.rx]
    exact h.view.sender hc hℓ ha
  · rw [hf.rx]
    exact h.active (hp ▸ hq)

theorem Rests.sender (h : Rests P b s) (hc : Core P s) (hℓ : ℓ < s.count)
    (ha : SenderAct P ℓ s s') : Rests P b s' :=
  h.imp (fun h => h.sender hc hℓ ha) fun h => h.sender hc hℓ ha

theorem Rests.stable : (recvC P S).Stable (Rests (V := V) P b) :=
  recvC_stable fun _ _ _ hc hℓ ha h => h.sender hc hℓ ha

/-- A receiver that may be called. -/
theorem Rests.between (h : Rests P b s) (ha : s.receiverAlive = true) : Between b s := by
  rcases h with h | h
  · exact absurd (h.dead.symm.trans ha) (by simp)
  · exact h

/-- What an operation starts from. -/
theorem Resting.start (h : Resting b k s) :
    View (.watching b k .none) (.holding [] false 0) s.rx s :=
  h.view.rewatch rfl aimOk_none false 0

/-! ## The answer -/

theorem returned_reply (s : Chan V) (rx : Receiver) (r : Reply V) :
    Chan.returned { s with rx := rx, history := s.history ++ [r] } = s.returned ++ r.items := by
  simp [Chan.returned]

/-- The answer carries what was in the receiver's hands. -/
theorem View.reply {r : Reply V} (hv : View S x rx s) (hhand : x.hand = r.items.map Item.pair)
    (rx' : Receiver) :
    View S { x with hand := [] } rx { s with rx := rx', history := s.history ++ [r] } :=
  { hv with
    roster := { hv.roster with }
    index := { hv.index with
      held := fun slot e he hx => { hv.index.held slot e he hx with }
      fresh := fun ℓ hℓ hst => { hv.index.fresh ℓ hℓ hst with } }
    counters := fun slot l hl hx => (hv.counters slot l hl hx).frame (.refl _)
    hand := by
      rw [returned_reply, List.map_append, List.append_nil, ← hhand]
      exact hv.hand
    budget := fun hst => { hv.budget hst with }
    aim := hv.aim.step le_rfl rfl id (fun _ _ _ _ ht => { ht with }) fun _ hall => hall
    keep := fun ℓ n hk => { hv.keep ℓ n hk with } }

theorem Core.replied {r : Reply V} (hc : Core P s) (hv : View S x rx s)
    (hhand : x.hand = r.items.map Item.pair)
    (hids : ∀ i ∈ r.items, ∀ id, i.id = some id → id = ⟨s.key i.lane, P.channelId⟩)
    (rx' : Receiver) : Core P { s with rx := rx', history := s.history ++ [r] } :=
  { hc with
    keys := { hc.keys with }
    returned := by
      rw [returned_reply, List.map_append, ← hhand, ← hv.hand]
    ids := fun i hi id hid => by
      rw [returned_reply, List.mem_append] at hi
      rcases hi with hi | hi
      · exact hc.ids i hi id hid
      · exact hids i hi id hid }

/-- **An operation returns.** -/
theorem reply_spec {R Q : Chan V → Prop} {r : Reply V} (hx : x.asleep = false)
    (hhand : x.hand = r.items.map Item.pair) (hR : Kept P S x rx R) (hQ : (recvC P S).Stable Q)
    (hids : ∀ s, R s → ∀ i ∈ r.items, ∀ id, i.id = some id → id = ⟨s.key i.lane, P.channelId⟩)
    (hend : ∀ s, Inv P S.strict s → View S x rx s → R s →
      Q { s with rx := rx, history := s.history ++ [r] }) :
    Triple (recvC P S) (fun s => View S x rx s ∧ R s) (rx.reply r) fun _ => Q :=
  recv_atomic hR.stable (fun _ => hQ) fun s hi ⟨hv, hr⟩ =>
    ⟨⟨hi.core.replied hv hhand (hids s hr) rx, { RecvAct.refl P s with }, hv.awake hx, hi.trace⟩,
      hend s hi hv hr⟩

/-! ## What the operations answer -/

theorem Genuine.ids {tagged : Bool} {item : Item V} (h : Genuine P tagged item s) :
    ∀ id, item.id = some id → id = ⟨s.key item.lane, P.channelId⟩ := by
  intro id hid
  rw [h.2] at hid
  simp only [Receiver.output] at hid
  split at hid
  · exact (Option.some.inj hid).symm
  · cases hid

theorem polling_reply (s : Chan V) (rx : Receiver) (r : Reply V) :
    Chan.polling { s with rx := rx, history := s.history ++ [r] } =
      (match r with | .poll none => true | _ => false) := by
  simp only [Chan.polling, List.getLast?_append, List.getLast?_singleton, Option.some_or]
  cases r with
  | poll r => cases r <;> rfl
  | _ => rfl

/-- The values of an answer that carries ids carry the ids of their lanes. -/
def Labelled (P : Params) (r : Reply V) (s : Chan V) : Prop :=
  ∀ i ∈ r.items, i.lane < s.count ∧ ∀ id, i.id = some id → id = ⟨s.key i.lane, P.channelId⟩

theorem Labelled.kept {r : Reply V} : Kept P S x rx (Labelled P r) :=
  fun s s' ℓ hc hℓ ha _ h i hi => by
    have hf := ha.frame hc hℓ
    obtain ⟨hlt, hid⟩ := h i hi
    refine ⟨lt_of_lt_of_le hlt hf.count, ?_⟩
    rw [hf.key i.lane hlt]
    exact hid

theorem Labelled.nil {r : Reply V} (h : r.items = []) : Labelled P r s := by
  simp [Labelled, h]

theorem Labelled.one {r : Reply V} {tagged : Bool} {item : Item V} (h : r.items = [item])
    (hg : Genuine P tagged item s) : Labelled P r s := by
  intro i hi
  rw [h, List.mem_singleton] at hi
  rw [hi]
  exact ⟨hg.1, hg.ids⟩

/-- The answer says that there was nothing to receive. -/
def Reply.foundNothing : Reply V → Bool
  | .recv (.error .empty) => true
  | .batch _ (.error .empty) => true
  | .poll none => true
  | _ => false

/-- The receiver is at rest, on the terms of the operation; if the answer of an ordinary receive was
    that there was nothing then no lane is in the rotation. -/
def Returns (b : Bool) (k : Terms) (o : Bool) (s : Chan V) : Prop :=
  Resting b k s ∧ (o = true → ∀ r, s.history.getLast? = some r → r.foundNothing = true →
    s.rx.active = [])

theorem Returns.stable {o : Bool} : (recvC P S).Stable (Returns (V := V) b k o) :=
  recvC_stable fun s s' ℓ hc hℓ ha h => by
    have hf := ha.frame hc hℓ
    refine ⟨h.1.sender hc hℓ ha, ?_⟩
    rw [hf.history, hf.rx]
    exact h.2

/-- What an operation has when it is about to answer. -/
def Answers (P : Params) (b : Bool) (k : Terms) (o : Bool) (r : Reply V) (rx : Receiver)
    (s : Chan V) : Prop :=
  ∃ c n, View (.watching b k .none) (.holding (r.items.map Item.pair) c n) rx s ∧
    Labelled P r s ∧ (o = true → r.foundNothing = true → rx.active = [])

/-- What no step of a sender undoes. -/
def Undisturbed (P : Params) (R : Chan V → Prop) : Prop :=
  ∀ s s' ℓ, Core P s → ℓ < s.count → SenderAct P ℓ s s' → R s → R s'

/-- An operation that was not a pending poll leaves the receiver at rest; `R` is what else is
    known. -/
theorem reply_with {o : Bool} {r : Reply V} {R : Chan V → Prop} (hr : r ≠ .poll none)
    (hR : Undisturbed P R)
    (hstep : ∀ s rx, R s → R { s with rx := rx, history := s.history ++ [r] }) :
    Triple (recvC P (.watching b k .none)) (fun s => Answers P b k o r rx s ∧ R s) (rx.reply r)
      fun _ s => Returns b k o s ∧ (s.rx = rx ∧ s.history.getLast? = some r) ∧ R s := by
  rintro s hs ⟨⟨c, n, hv, hl, hact⟩, hR₀⟩
  have hstable : (recvC P (.watching b k .none)).Stable fun s : Chan V =>
      Returns b k o s ∧ (s.rx = rx ∧ s.history.getLast? = some r) ∧ R s :=
    Returns.stable.and (recvC_stable fun s s' ℓ hc hℓ ha h =>
      have hf := ha.frame hc hℓ
      ⟨⟨hf.rx.trans h.1.1, hf.history ▸ h.1.2⟩, hR s s' ℓ hc hℓ ha h.2⟩)
  refine reply_spec (R := fun s => Labelled P r s ∧ R s) rfl rfl
    (Labelled.kept.and fun s s' ℓ hc hℓ ha _ => hR s s' ℓ hc hℓ ha) hstable
    (fun s hl i hi => (hl.1 i hi).2) (fun s hi hv hr₀ =>
      ⟨⟨?_, fun ho r' hr' hnone => ?_⟩, ⟨rfl, List.getLast?_concat ..⟩, hstep s rx hr₀.2⟩) s hs
    ⟨hv, hl, hR₀⟩
  swap
  · rw [List.getLast?_concat] at hr'
    cases hr'
    exact hact ho hnone
  have hp : Chan.polling { s with rx := rx, history := s.history ++ [r] } = false := by
    rw [polling_reply]
    cases r with
    | poll q =>
      cases q with
      | none => exact absurd rfl hr
      | some q => rfl
    | _ => rfl
  refine ⟨?_, fun hq => absurd (hp.symm.trans hq) (by simp)⟩
  rw [hp]
  exact (hv.reply rfl rx).rewatch rfl aimOk_async false 0

/-! ## The receiver's operations -/

/-- The operations that spend the budget of the readiness poll without looking at it first. -/
def RecvOp.spends : RecvOp V → Bool
  | .tryRecv _ | .recv _ _ | .recvDeadline _ _ | .recvBatch _ _ | .pollRecv _ => true
  | _ => false

/-- The budget is not used up with nothing in the rotation when such an operation starts. -/
def Prudent (op : RecvOp V) (s : Chan V) : Prop := op.spends = true → s.rx.Solvent

/-- Reading the receiver's own fields. -/
theorem readRx_spec {Q : Receiver → Chan V → Prop} (hQ : ∀ rx, (recvC P S).Stable (Q rx)) :
    Triple (recvC P S) (fun s => Q s.rx s) (Prog.read (·.rx)) Q := by
  refine recv_read ?_ hQ fun s _ h => h
  rintro s s' hs hs' ⟨u, hu, hg⟩ hq
  have hrx : s'.rx = s.rx := by
    cases u with
    | rx => exact absurd rfl hu
    | tx ℓ =>
      rcases hg with rfl | ⟨hℓ, ha⟩
      · rfl
      · exact (ha.frame hs.core hℓ).rx
  rw [hrx]
  exact hQ s.rx s s' hs hs' ⟨u, hu, hg⟩ hq

/-- Nothing is said of an answer that is not about emptiness. -/
theorem Answers.of {o : Bool} {r : Reply V} {c : Bool} {n : Nat}
    (hv : View (.watching b k .none) (.holding (r.items.map Item.pair) c n) rx s)
    (hl : Labelled P r s) (hr : r.foundNothing = false) : Answers P b k o r rx s :=
  ⟨c, n, hv, hl, fun _ h => absurd (hr.symm.trans h) (by simp)⟩

theorem Returned.answers {tagged : Bool} {r : Except RecvError (Item V)}
    (h : Returned P (.watching b k .none) tagged [] false rx s r) :
    Answers P b k true (.recv r) rx s := by
  match r with
  | .ok item =>
    obtain ⟨n, hg, hv⟩ := h
    exact .of hv (.one rfl hg) rfl
  | .error .empty =>
    obtain ⟨n, hn, -⟩ := h
    exact ⟨false, 0, hn.resting, .nil rfl, fun _ _ => hn.2⟩
  | .error .disconnected =>
    obtain ⟨n, hn, -⟩ := h
    exact .of hn.1.resting (.nil rfl) rfl
  | .error .timeout =>
    obtain ⟨n, hn, -⟩ := h
    exact hn.elim

theorem Waited.answers {tagged deadline : Bool} {r : Except RecvError (Item V)}
    (h : Waited P b k tagged deadline rx s r) : Answers P b k true (.recv r) rx s := by
  match r with
  | .ok item => exact .of h.1 (.one rfl h.2) rfl
  | .error .empty => exact h.elim
  | .error .disconnected => exact .of h.1 (.nil rfl) rfl
  | .error .timeout => exact .of h.2 (.nil rfl) rfl

theorem Targeted.answers {r : Except RecvError (Item V)}
    (h : Targeted P (.watching b k .none) [] false rx s r) :
    Answers P b k false (.recv r) rx s := by
  match r with
  | .ok item =>
    obtain ⟨n, hg, hv⟩ := h
    exact .of hv (.one rfl hg) rfl
  | .error e =>
    obtain ⟨n, hv⟩ := h
    exact ⟨false, n, hv, .nil rfl, fun ho => by cases ho⟩

/-- Values that carry no id are rightly labelled. -/
theorem Plain.answers {limit : Nat} {c : Bool} {n : Nat} {output : List (Item V)}
    {r : Except RecvError Nat} (h : Plain limit output) (hc : Core P s)
    (hv : View (.watching b k .none) (.holding (output.map Item.pair) c n) rx s)
    (hact : r = .error .empty → rx.active = []) : Answers P b k true (.batch output r) rx s := by
  refine ⟨c, n, hv, fun i hi => ⟨?_, fun id hid => ?_⟩, fun _ hr => ?_⟩
  · refine hc.popped_lt i.pair ?_
    rw [hv.hand]
    exact List.mem_append_right _ (List.mem_map_of_mem hi)
  · rw [h.2 i hi] at hid
    cases hid
  · match r with
    | .ok m => cases hr
    | .error .empty => exact hact rfl
    | .error .disconnected => cases hr
    | .error .timeout => cases hr

theorem BatchReturned.answers {limit : Nat} {accept : Option (List V → V → Bool)}
    {r : List (Item V) × Except RecvError Nat} (hc : Core P s)
    (h : BatchReturned (.watching b k .none) limit accept [] false rx s r) :
    Answers P b k true (.batch r.1 r.2) rx s := by
  obtain ⟨output, result⟩ := r
  obtain ⟨hplain, n, hn⟩ := h
  match result with
  | .ok m =>
    obtain ⟨-, -, _, -, hv⟩ := hn
    exact hplain.answers hc (hv.setRefused (x := { Ctx.draining [] false n output with
      refused := _ }) false (by simp)) fun hr => by cases hr
  | .error e =>
    obtain ⟨rfl, -, hn⟩ := hn
    match e with
    | .empty => exact hplain.answers hc hn.resting fun _ => hn.2
    | .disconnected => exact hplain.answers hc hn.1.resting fun hr => by cases hr
    | .timeout => exact hn.elim

theorem BatchWaited.answers {limit : Nat} {r : List (Item V) × Except RecvError Nat}
    (hc : Core P s) (h : BatchWaited b k limit rx s r) :
    Answers P b k true (.batch r.1 r.2) rx s := by
  refine h.1.answers hc h.2.1 fun hr => ?_
  obtain ⟨output, result⟩ := r
  subst hr
  exact absurd h.2.2.2.1 (by simp)

/-- What the operations start from. -/
def Starts (b : Bool) (k : Terms) (op : RecvOp V) (rx : Receiver) (s : Chan V) : Prop :=
  (b = true → op.spends = true → rx.Solvent) ∧
    View (.watching b k .none) (.holding [] false 0) rx s

theorem Starts.stable {op : RecvOp V} :
    (recvC P (.watching b k .none)).Stable (Starts b k op rx) :=
  (Contract.Stable.pure _).and View.stable

theorem Starts.waiting {op : RecvOp V} (hop : op.spends = true) (h : Starts b k op rx s) :
    Waiting b k rx s := ⟨fun hb => h.1 hb hop, h.2⟩

/-- A pending poll leaves the receiver at rest, and the waker registered. -/
theorem reply_pending {tagged : Bool} {R : Chan V → Prop} (hR : Undisturbed P R)
    (hstep : ∀ s rx, R s → R { s with rx := rx, history := s.history ++ [.poll none] }) :
    Triple (recvC P (.watching b k .none)) (fun s => PollReturned P b k tagged rx s none ∧ R s)
      (rx.reply (.poll none)) fun _ s =>
        Returns b k true s ∧ s.history.getLast? = some (.poll none) ∧ R s := by
  have hbefore : (recvC P (.watching b k .async)).Stable fun s : Chan V =>
      PollReturned P b k tagged rx s none ∧ R s :=
    (View.stable.and (Contract.Stable.pure _)).and (recvC_stable hR)
  have hafter : (recvC P (.watching b k .async)).Stable fun s : Chan V =>
      s.history.getLast? = some (.poll none) ∧ R s :=
    recvC_stable fun s s' ℓ hc hℓ ha h =>
      ⟨(ha.frame hc hℓ).history ▸ h.1, hR s s' ℓ hc hℓ ha h.2⟩
  refine recv_atomic hbefore (fun _ => Returns.stable.and hafter) fun s hi ⟨⟨hv, hact⟩, hr⟩ => ?_
  refine ⟨⟨hi.core.replied (r := .poll none) hv rfl (by simp [Reply.items]) rx,
    { RecvAct.refl P s with }, hv.awake rfl, hi.trace⟩, ⟨⟨?_, fun _ => hact⟩,
    fun _ _ _ _ => hact⟩, List.getLast?_concat .., hstep s rx hr⟩
  rw [polling_reply]
  exact hv.reply (r := .poll none) rfl rx

/-- The ordinary receives: those that look at every lane that is not paused. -/
def RecvOp.ordinary : RecvOp V → Bool
  | .tryRecv _ | .tryRecvFair _ | .recv _ _ | .recvDeadline _ _ | .tryRecvBatch _
  | .tryRecvBatchWhile _ _ | .tryRecvScan _ _ | .recvBatch _ _ | .pollRecv _ => true
  | _ => false

/-- The receives that report the lane of each value. -/
def RecvOp.tagged : RecvOp V → Bool
  | .tryRecv tagged | .tryRecvFair tagged | .recv tagged _ | .recvDeadline tagged _
  | .pollRecv tagged => tagged
  | _ => false

/-- The receives of one value that do not give slots back besides. -/
def RecvOp.single : RecvOp V → Bool
  | .tryRecv _ | .tryRecvFair _ | .recv _ _ | .recvDeadline _ _ | .tryRecvFrom _ => true
  | _ => false

/-- The operations on a given lane. -/
def RecvOp.targeted : RecvOp V → Bool
  | .pause _ | .resume _ | .tryRecvFrom _ | .closeLane _ => true
  | _ => false

/-- The operation can be run under these terms. -/
structure RecvOp.Admits (op : RecvOp V) (k : Terms) : Prop where
  plain : op.targeted = true → k.keep = none ∧ k.scan = none ∧ k.wait = none
  single : op.single = false → k.single = none

theorem RecvOp.admits_none (op : RecvOp V) : op.Admits .none :=
  ⟨fun _ => ⟨rfl, rfl, rfl⟩, fun _ => rfl⟩

/-- What an operation leaves. -/
def RecvOp.Ends (P : Params) (b : Bool) (k : Terms) : RecvOp V → Chan V → Prop
  | .drop, s => Torn P s
  | op, s => Returns b k op.ordinary s

theorem RecvOp.Ends.returns {op : RecvOp V} (h : op.Ends P b k s) (hop : op ≠ .drop) :
    Returns b k op.ordinary s := by
  cases op with
  | drop => exact absurd rfl hop
  | _ => exact h

theorem RecvOp.Ends.rests {op : RecvOp V} (h : op.Ends P b k s) : Rests P b s := by
  cases op with
  | drop => exact .inl h
  | _ => exact .inr h.1.between

/-- What an operation has found when it answers, by what it is: an ordinary receive or not, one that
    reports the lane of each value or not. -/
inductive Finding (P : Params) (b : Bool) (k : Terms) (rx : Receiver) (s : Chan V) :
    Bool → Bool → Reply V → Prop
  | returned {tagged : Bool} {r : Except RecvError (Item V)}
      (h : Returned P (.watching b k .none) tagged [] false rx s r) :
      Finding P b k rx s true tagged (.recv r)
  | waited {tagged deadline : Bool} {r : Except RecvError (Item V)}
      (h : Waited P b k tagged deadline rx s r) : Finding P b k rx s true tagged (.recv r)
  | drained {limit : Nat} {accept : Option (List V → V → Bool)}
      {r : List (Item V) × Except RecvError Nat}
      (h : BatchReturned (.watching b k .none) limit accept [] false rx s r) :
      Finding P b k rx s true false (.batch r.1 r.2)
  | gathered {limit : Nat} {r : List (Item V) × Except RecvError Nat}
      (h : BatchWaited b k limit rx s r) : Finding P b k rx s true false (.batch r.1 r.2)
  | polled {tagged : Bool} {r : Option (Except RecvError (Item V))}
      (h : PollReturned P b k tagged rx s r) : Finding P b k rx s true tagged (.poll r)
  | other {r : Reply V} (hr : r ≠ .poll none) (h : Answers P b k false r rx s) :
      Finding P b k rx s false false r

theorem Finding.answers {o tagged : Bool} {r : Reply V} (h : Finding P b k rx s o tagged r)
    (hc : Core P s) (hr : r ≠ .poll none) : Answers P b k o r rx s := by
  cases h with
  | returned h => exact h.answers
  | waited h => exact h.answers
  | drained h => exact h.answers hc
  | gathered h => exact h.answers hc
  | other _ h => exact h
  | @polled _ r h =>
    cases r with
    | none => exact absurd rfl hr
    | some r =>
      obtain ⟨c, n, hv, hl, -⟩ := Waited.answers h
      cases r with
      | ok item => exact .of hv hl rfl
      | error e => exact .of hv hl rfl

/-- The answer of an operation; `R` is what else is known. -/
theorem reply_finding {o tagged : Bool} {r : Reply V} {R : Chan V → Prop} (hR : Undisturbed P R)
    (hstep : ∀ s rx, R s → R { s with rx := rx, history := s.history ++ [r] }) :
    Triple (recvC P (.watching b k .none)) (fun s => Finding P b k rx s o tagged r ∧ R s)
      (rx.reply r) fun _ s => Returns b k o s ∧ s.history.getLast? = some r ∧ R s := by
  by_cases hr : r = .poll none
  · subst hr
    rintro s hs ⟨h, hr₀⟩
    cases h with
    | polled h => exact reply_pending hR hstep s hs ⟨h, hr₀⟩
    | other hr _ => exact absurd rfl hr
  · exact (reply_with hr hR hstep).conseq (fun s hi h => ⟨h.1.answers hi.core hr, h.2⟩)
      fun _ s _ h => ⟨h.1, h.2.1.2, h.2.2⟩

/-- **Every operation of the receiver that returns** answers, with `R` if `R` follows from what it
    has found, and leaves the receiver at rest on the terms it was run under. -/
theorem RecvOp.answers_spec (op : RecvOp V) (hop : op ≠ .drop) (hk : op.Admits k)
    {R : Reply V → Chan V → Prop} (hR : ∀ r, Undisturbed P (R r))
    (hstep : ∀ r s rx, R r s → R r { s with rx := rx, history := s.history ++ [r] })
    (hfound : ∀ r rx s, Finding P b k rx s op.ordinary op.tagged r → R r s) :
    Triple (recvC P (.watching b k .none)) (fun s => Resting b k s ∧ (b = true → Prudent op s))
      (op.code P) fun _ s => Returns b k op.ordinary s ∧
        ∃ r, s.history.getLast? = some r ∧ R r s := by
  -- whatever the operation does before it answers, it answers in the same way
  have answer : ∀ r rx, Triple (recvC P (.watching b k .none))
      (fun s => Finding P b k rx s op.ordinary op.tagged r) (rx.reply r) fun _ s =>
        Returns b k op.ordinary s ∧ ∃ r, s.history.getLast? = some r ∧ R r s := fun r rx =>
    (reply_finding (hR r) (hstep r)).conseq (fun s _ h => ⟨h, hfound r rx s h⟩)
      fun _ s _ h => ⟨h.1, r, h.2⟩
  refine Triple.bind (Q := Starts b k op) ((readRx_spec fun _ => Starts.stable).pre
    fun s _ h => ⟨h.2, h.1.start⟩) fun rx => ?_
  have hu : ∀ c, (Setting.watching b k .none).Urgent c := Setting.urgent_watching
  cases op with
  | tryRecv tagged =>
    refine Triple.given (φ := b = true → rx.Solvent) (fun s _ h hb => h.1 hb rfl) fun hsol => ?_
    exact Triple.bind ((tryRecvOutput_spec tagged (hu _) hsol).conseq (fun s _ h => h.2)
      fun r s _ h => .returned h) fun r => answer _ _
  | tryRecvFair tagged =>
    exact Triple.bind ((tryRecvFairOutput_spec tagged (hu _)).conseq (fun s _ h => h.2)
      fun r s _ h => .returned h) fun r => answer _ _
  | recv tagged spins =>
    exact Triple.bind ((recvOutput_spec tagged spins).conseq (fun s _ h => h.waiting rfl)
      fun r s _ h => .waited h) fun r => answer _ _
  | recvDeadline tagged spins =>
    exact Triple.bind ((recvBlocking_spec tagged true spins).conseq (fun s _ h => h.waiting rfl)
      fun r s _ h => .waited h) fun r => answer _ _
  | tryRecvBatch limit =>
    exact Triple.bind ((tryRecvBatch_spec limit none (by simp [Setting.watching]) hu
      (hk.single rfl)).conseq (fun s _ h => h.2) fun r s _ h => .drained h) fun r => answer _ _
  | tryRecvBatchWhile limit accept =>
    exact Triple.bind ((tryRecvBatch_spec limit (some accept) (by simp [Setting.watching]) hu
      (hk.single rfl)).conseq (fun s _ h => h.2) fun r s _ h => .drained h) fun r => answer _ _
  | tryRecvScan limit accept =>
    exact Triple.bind ((tryRecvScan_spec limit accept (by simp [Setting.watching]) hu
      (hk.single rfl)).conseq (fun s _ h => h.2) fun r s _ h => .drained h) fun r => answer _ _
  | recvBatch limit spins =>
    exact Triple.bind ((recvBatch_spec spins limit (hk.single rfl)).conseq
      (fun s _ h => h.waiting rfl) fun r s _ h => .gathered h) fun r => answer _ _
  | pollRecv tagged =>
    exact Triple.bind ((pollRecv_spec tagged (hk.single rfl)).conseq (fun s _ h => h.waiting rfl)
      fun r s _ h => .polled h) fun r => answer _ _
  | cancelRecvWait =>
    exact Triple.bind ((dataStep_spec (S := .watching b k .none) (R := fun _ => True) rfl rfl
      (fun _ hc => hc) (Kept.pure _) fun _ _ h => h).conseq (fun s _ h => ⟨h.2, trivial⟩)
        fun _ s _ h => .other (by simp) (.of h.1 (.nil rfl) rfl)) fun _ => answer _ _
  | releaseConsumed =>
    exact Triple.bind ((releaseConsumed_spec rfl rfl rfl rfl (hk.single rfl)
      Framed.true.steady).conseq (fun s _ h => ⟨h.2, trivial⟩)
        fun rx' s _ h => .other (by simp) (.of h.2.1 (.nil rfl) rfl)) fun rx' => answer _ _
  | pollAllLanes =>
    exact Triple.bind (pollAllLanes_spec.conseq (fun s _ h => h.2)
      fun rx' s _ h => .other (by simp) (.of h.2 (.nil rfl) rfl)) fun rx' => answer _ _
  | pause id =>
    exact Triple.bind ((pause_spec (Setting.watching_plain (hk.plain rfl)) (hk.single rfl)
      id).conseq (fun s _ h => h.2) fun r s _ h => .other (by simp) (.of h.2 (.nil rfl) rfl))
        fun r => answer _ _
  | resume id =>
    exact Triple.bind ((resume_spec (Setting.watching_plain (hk.plain rfl)) id).conseq
      (fun s _ h => h.2) fun r s _ h => .other (by simp) (.of h.2 (.nil rfl) rfl))
        fun r => answer _ _
  | tryRecvFrom id =>
    exact Triple.bind ((tryRecvFrom_spec (Setting.watching_plain (hk.plain rfl)) id).conseq
      (fun s _ h => h.2) fun r s _ h => .other (by simp) h.answers) fun r => answer _ _
  | closeLane id =>
    exact Triple.bind ((closeLane_spec (Setting.watching_plain (hk.plain rfl)) id).conseq
      (fun s _ h => h.2) fun r s _ h => .other (by simp) (.of h.2 (.nil rfl) rfl))
        fun r => answer _ _
  | drop => exact absurd rfl hop

/-- **Every operation of the receiver keeps its contract**, and leaves it at rest on the terms it
    was run under. -/
theorem RecvOp.code_spec (op : RecvOp V) (hk : op.Admits k) :
    Triple (recvC P (.watching b k .none)) (fun s => Resting b k s ∧ (b = true → Prudent op s))
      (op.code P) fun _ => op.Ends P b k := by
  by_cases hop : op = .drop
  · subst hop
    refine Triple.bind (Q := Starts b k .drop) ((readRx_spec fun _ => Starts.stable).pre
      fun s _ h => ⟨h.2, h.1.start⟩) fun rx => ?_
    exact (drop_spec (S := .watching b .none .none) rfl).conseq (fun s _ h => h.2.freed)
      fun _ s _ h => h
  · refine (op.answers_spec hop hk (R := fun _ _ => True) (fun _ _ _ _ _ _ _ h => h)
      (fun _ _ _ h => h) fun _ _ _ _ => trivial).post fun _ s _ h => ?_
    cases op with
    | drop => exact absurd rfl hop
    | _ => exact h.1

/-! ## The outline -/

/-- The condition on the runs of the strict outline. -/
def Prudently (b : Bool) : Tid → Op V → Chan V → Prop
  | .rx, .recv op, s => b = true → Prudent op s
  | _, _, _ => True

/-- **Every operation of the channel leads from what its thread knows between operations back to
    it.** -/
def outline (V : Type) (P : Params) (b : Bool) : Outline (system V P) where
  inv := Inv P b
  guar := guar P
  cond _ _ _ := True
  callable := Prudently b
  idle
    | .rx => Rests P b
    | .tx ℓ => fun s => ℓ < s.count → Idles P ℓ s
  guar_refl t s := by
    cases t with
    | rx => exact RecvAct.refl P s
    | tx ℓ => exact .inl rfl
  idle_stable t u s s' hne hs hs' hg h := by
    cases t with
    | rx => exact Rests.stable (S := .watching b .none .none) s s' hs hs' ⟨u, hne, hg⟩ h
    | tx ℓ => exact Idles.guar hne hg h
  code_ok t op s hs h hmay hcall := by
    match t, op with
    | .rx, .recv op =>
      exact ((RecvOp.code_spec op op.admits_none).post fun _ _ _ h => h.rests) s hs
        ⟨h.between hmay, hcall⟩
    | .tx ℓ, .send op =>
      simp only [system, Bool.and_eq_true, decide_eq_true_eq, Bool.not_eq_true'] at hmay
      exact SendOp.code_spec op s hs ((h hmay.1.1).sends hmay.1.2)
    | .rx, .send op => simp [system] at hmay
    | .tx ℓ, .recv op => simp [system] at hmay

/-! ## The beginning -/

theorem LaneInv.initial (c : Bool) (capacity : Nat) :
    LaneInv c (Ring.new capacity : Ring V) 0 false .adopted false [] :=
  { LaneInv.new c capacity with
    closed := fun hc => by simp [Ring.new] at hc
    retired := fun h => by cases h
    sealed := fun h => by cases h
    fresh := fun h => by cases h }

theorem Keys.initial : Keys (Chan.initial P : Chan V) where
  slot_lt _ _ := Nat.one_pos
  distinct ℓ hℓ ℓ' hℓ' _ := by
    have hℓ : ℓ < 1 := hℓ
    have hℓ' : ℓ' < 1 := hℓ'
    omega
  top ℓ hℓ _ := by
    refine ⟨fun ℓ' hℓ' _ hne => ?_, fun k hk => by cases hk⟩
    have hℓ : ℓ < 1 := hℓ
    have hℓ' : ℓ' < 1 := hℓ'
    omega
  free_lt k hk := by cases hk
  free_old k hk := by cases hk
  free_nodup := List.nodup_nil

theorem Core.initial : Core P (Chan.initial P : Chan V) where
  noPanic := rfl
  lane _ := .initial _ _
  completed_le _ := le_rfl
  resumed_le _ := le_rfl
  live := rfl
  registered := rfl
  pending_nodup := List.nodup_nil
  mem_pending ℓ := by simp [Chan.initial]
  page_lt _ _ := by simp [Chan.initial, lanesPerPage]
  group_lt p hp := by
    have hp : p < 1 := hp
    simp only [Chan.initial, pagesPerGroup]
    omega
  word_lt p hp := absurd rfl hp
  keys := .initial
  gone ℓ hg := by cases hg
  popped_lt e he := by cases he
  returned := List.nil_prefix
  ids i hi := by cases hi
  space ℓ _ hsl := by cases hsl

theorem lanes_initial {slot : Nat} {lane : Lane}
    (h : (Chan.initial P : Chan V).rx.lanes slot = some lane) :
    slot = 0 ∧ lane = Lane.new 0 ⟨0, 0⟩ (Ring.capacityOf P.capacityPerSender) := by
  have h : (if slot = 0 then some (Lane.new 0 ⟨0, 0⟩ (Ring.capacityOf P.capacityPerSender))
    else none) = some lane := h
  split at h
  · next h₀ => exact ⟨h₀, (Option.some.inj h).symm⟩
  · cases h

theorem held_initial {slot : Nat} {e : Held}
    (h : (Chan.initial P : Chan V).rx.skel.lane slot = some e) :
    slot = 0 ∧ e = ⟨0, ⟨0, 0⟩, false⟩ := by
  obtain ⟨lane, hl, rfl⟩ := Option.map_eq_some_iff.mp h
  obtain ⟨h₀, rfl⟩ := lanes_initial hl
  exact ⟨h₀, rfl⟩

theorem Roster.initial :
    Roster (Chan.initial P : Chan V).rx.skel none (Chan.initial P : Chan V) where
  held slot e he := by
    obtain ⟨rfl, rfl⟩ := held_initial he
    exact ⟨rfl, rfl, Nat.one_pos, rfl, rfl⟩
  slot_lt slot e he := by
    obtain ⟨rfl, rfl⟩ := held_initial he
    exact ⟨Nat.one_pos, Nat.one_pos⟩
  adopted ℓ hℓ _ _ := by
    obtain rfl : ℓ = 0 := Nat.lt_one_iff.mp hℓ
    exact ⟨⟨0, ⟨0, 0⟩, false⟩, rfl, rfl⟩
  fresh ℓ _ hst := by cases hst
  nodup := List.nodup_nil
  queued key := by
    constructor
    · rintro (h | h)
      · cases h
      · cases h
    · rintro ⟨e, he, -, hq⟩
      obtain ⟨-, rfl⟩ := held_initial he
      cases hq
  out key h := by cases h
  paused slot e he hp := by cases hp
  vacant _ _ := rfl
  lens := rfl
  seen_le := le_rfl
  seen_eq _ := ⟨rfl, rfl, rfl⟩
  group_lt p hp := by
    obtain rfl : p = 0 := Nat.lt_one_iff.mp hp
    exact Nat.one_pos

theorem Index.initial :
    Index (Chan.initial P : Chan V).rx.book none .none (Chan.initial P : Chan V) where
  held slot e he _ := by
    obtain ⟨-, rfl⟩ := held_initial he
    exact ⟨fun h => (by cases h), fun _ => ⟨le_rfl, rfl⟩, fun h => (by cases h), .inr le_rfl⟩
  fresh ℓ _ hst := by cases hst
  page p hp := absurd rfl hp

theorem capacityOf_pos (n : Nat) : 0 < Ring.capacityOf n := Ring.le_roundUp n 64 1

theorem LaneOk.initial : LaneOk (Chan.initial P : Chan V)
    (Lane.new 0 ⟨0, 0⟩ (Ring.capacityOf P.capacityPerSender)) where
  isOpen := rfl
  window := rfl
  credit := rfl
  batch := rfl
  unreleased_le := Nat.zero_le _
  burst_le := Nat.zero_le _
  fast_le := le_rfl
  unreleased_lt := by
    have := capacityOf_pos P.capacityPerSender
    simp only [Lane.new, minReleaseBatch]
    omega
  burst_lt := readyPollInterval_pos

theorem View.initial : View (.watching b .none .async) .base (Chan.initial P : Chan V).rx
    (Chan.initial P : Chan V) where
  alive := rfl
  awake _ h := by cases h
  roster := .initial
  index := .initial
  counters slot lane hl _ := by
    obtain ⟨-, rfl⟩ := lanes_initial hl
    exact .initial
  fast slot lane hl _ hf := by
    obtain ⟨-, rfl⟩ := lanes_initial hl
    cases hf
  idle slot lane hl _ _ _ := by
    obtain ⟨-, rfl⟩ := lanes_initial hl
    rfl
  items_lt := readyPollInterval_lt
  owed _ _ _ := rfl
  closing ℓ _ _ hsh := by cases hsh
  hand := rfl
  budget _ := ⟨le_rfl, le_rfl, Nat.zero_le _, fun h => by cases h⟩
  swept h := by cases h
  quiet h := by cases h
  aim := trivial
  keep ℓ n h := by cases h
  scan ℓ t h := by cases h
  refused h := by cases h
  single t h := by cases h
  left dry h := by cases h
  done h := by cases h
  wait w h := by cases h

theorem Inv.initial : Inv P b (Chan.initial P : Chan V) where
  core := .initial
  asleep h := by cases h
  trace _ := by
    refine ⟨fun b n h => (by cases h), fun t₁ t₂ h => ?_⟩
    obtain ⟨rfl, -⟩ := List.append_eq_nil_iff.mp h.symm
    exact Nat.zero_le _

theorem Idles.initial (ℓ : Nat) (hℓ : ℓ < (Chan.initial P : Chan V).count) :
    Idles P ℓ (Chan.initial P : Chan V) := by
  refine ⟨rfl, fun h => (by cases h), fun _ => ?_, fun _ h => (by cases h)⟩
  exact
    { lt := hℓ
      phase := rfl
      active := rfl
      dropped := rfl
      gone := rfl
      marked := fun h => by cases h
      flushed := fun h => by cases h
      room := fun h => by cases h
      awake := fun h => by cases h
      since := fun n h => by cases h
      blocked := fun _ => .inl trivial }

theorem good_start (V : Type) (P : Params) (b : Bool) : (outline V P b).Good (start V P) := by
  refine ⟨Inv.initial, fun u => ?_⟩
  cases u with
  | rx => exact .inr ⟨View.initial, fun h => by cases h⟩
  | tx ℓ => exact Idles.initial ℓ

/-! ## Every run -/

/-- A run of the channel. -/
def Reaches (V : Type) (P : Params) (c : Config (Chan V) Tid) : Prop :=
  (system V P).Run System.always (start V P) c

/-- Without the budget there is no condition on the runs. -/
theorem ok_always (c : Config (Chan V) Tid) (l : Label Tid (Op V)) :
    (outline V P false).ok c l := by
  match l with
  | .call .rx (.recv op) => exact fun h => by cases h
  | .call .rx (.send op) => trivial
  | .call (.tx ℓ) op => trivial
  | .step t n => trivial

theorem Forever.ok {c : Config (Chan V) Tid} (r : (system V P).Forever System.always c) :
    ∃ r' : (system V P).Forever (outline V P false).ok c,
      (∀ i, r'.at_ i = r.at_ i) ∧ ∀ i, r'.label i = r.label i :=
  ⟨⟨r.at_, r.label, r.start, fun _ => ok_always _ _, r.next⟩, fun _ => rfl, fun _ => rfl⟩

/-- **In every configuration a run reaches, the invariant holds and every thread keeps its
    contract.** -/
theorem Reaches.good {c : Config (Chan V) Tid} (h : Reaches V P c) : (outline V P false).Good c :=
  Outline.good_run (good_start V P false) (System.Run.mono (fun c l _ => ok_always c l) h)

/-- What the receiver knows between two operations. -/
theorem Reaches.between {c : Config (Chan V) Tid} (h : Reaches V P c) (hrx : c.pool .rx = none)
    (halive : c.st.receiverAlive = true) : Between false c.st := by
  have hidle := h.good.2 .rx
  rw [hrx] at hidle
  exact Rests.between hidle halive

/-- **A call of the receiver in a run**: when it has returned, what its code leads to holds. -/
theorem Reaches.returned {c c₁ c₂ : Config (Chan V) Tid} {op : RecvOp V} {Q : Chan V → Prop}
    (h : Reaches V P c) (hS : S.strict = false)
    (hcall : (system V P).exec c (.call .rx (.recv op)) = some c₁)
    (hrun : (system V P).During System.always .rx c₁ c₂) (hback : c₂.pool .rx = none)
    (hop : Inv P false c.st → Between false c.st → wp (recvC P S) (op.code P) (fun _ => Q) c.st) :
    Inv P false c₂.st ∧ Q c₂.st := by
  obtain ⟨-, hmay, -⟩ := System.exec_call hcall
  have hcalling : (outline V P false).Calling .rx S.aim.goal Q c₁ := by
    refine h.good.calling hcall fun hidle => ?_
    have hw := hop h.good.1 (Rests.between hidle hmay)
    simp only [recvC, hS] at hw
    exact hw
  obtain ⟨⟨hinv, -⟩, hthread⟩ := hcalling.during
    (System.During.mono (fun c l _ => ok_always c l) hrun)
  rw [hback] at hthread
  exact ⟨hinv, hthread⟩

end Fanring.Mpsc
