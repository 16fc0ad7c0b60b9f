import Fanring.Mpsc.Found

/-!
# The end of a channel

`Disconnected` is what a receive answers when there is nothing left to wait for. It is right when it
is answered: every sender was dropped, no lane is registered any more, and a lane is retired only
when it was read to its end or the receiver closed it (`Over`). It stays right, since nothing makes
a sender out of no sender: in a state that is `Over` the receiver is alone, holds no lane, and every
receive that asks for a value comes to the same answer without waiting.

And it is reached. Once all senders were dropped the receiver is alone with what they left, so a
`try_recv` returns: with a value if an unpaused lane holds one, because the drop of its sender has
marked the lane; with `Empty` if only paused lanes hold values; and with `Disconnected` if none
does, because the lanes that were read are retired on the way.
-/

set_option autoImplicit false

namespace Fanring.Mpsc

open Conc Chan

variable {V : Type} {P : Params} {S : Setting} {s s' : Chan V} {ℓ : Nat} {rx : Receiver}

/-- The answer is `Disconnected`. -/
def Reply.disconnects : Reply V → Bool
  | .recv (.error .disconnected) => true
  | .batch _ (.error .disconnected) => true
  | .poll (some (.error .disconnected)) => true
  | _ => false

theorem Reply.disconnects_recv {r : Except RecvError (Item V)}
    (h : (Reply.recv r).disconnects = true) : r = .error .disconnected := by
  match r with
  | .error .disconnected => rfl
  | .ok item => cases h
  | .error .empty => cases h
  | .error .timeout => cases h

/-- The receive asks for a value. -/
def RecvOp.wants : RecvOp V → Bool
  | .tryRecvBatch limit => decide (limit ≠ 0)
  | .tryRecvBatchWhile limit _ => decide (limit ≠ 0)
  | .tryRecvScan limit _ => decide (limit ≠ 0)
  | .recvBatch limit _ => decide (limit ≠ 0)
  | op => op.ordinary

/-! ## Soundness -/

/-- If the last answer is `Disconnected` then the channel is at its end. -/
def Honest (s : Chan V) : Prop := ∀ r, s.history.getLast? = some r → r.disconnects = true → Over s

theorem Returned.honest {tagged : Bool} {r : Except RecvError (Item V)}
    (h : Returned P S tagged [] false rx s r) (hr : (Reply.recv r).disconnects = true) :
    Over s := by
  obtain rfl := Reply.disconnects_recv hr
  obtain ⟨n, hn, -⟩ := h
  exact hn.2

theorem Waited.honest {b : Bool} {k : Terms} {tagged deadline : Bool}
    {r : Except RecvError (Item V)} (h : Waited P b k tagged deadline rx s r)
    (hr : (Reply.recv r).disconnects = true) : Over s := by
  obtain rfl := Reply.disconnects_recv hr
  exact h.2

theorem BatchReturned.honest {limit : Nat} {accept : Option (List V → V → Bool)}
    {r : List (Item V) × Except RecvError Nat} (h : BatchReturned S limit accept [] false rx s r)
    (hr : (Reply.batch r.1 r.2).disconnects = true) : Over s := by
  obtain ⟨output, result⟩ := r
  obtain ⟨-, n, hn⟩ := h
  match result with
  | .ok m => cases hr
  | .error .disconnected => exact hn.2.2.2
  | .error .empty => cases hr
  | .error .timeout => cases hr

theorem BatchWaited.honest {b : Bool} {k : Terms} {limit : Nat}
    {r : List (Item V) × Except RecvError Nat} (h : BatchWaited b k limit rx s r)
    (hr : (Reply.batch r.1 r.2).disconnects = true) : Over s := by
  obtain ⟨output, result⟩ := r
  obtain ⟨-, -, hn⟩ := h
  match result with
  | .ok m => cases hr
  | .error e => exact hn.2.2

theorem Finding.honest {b o tagged : Bool} {k : Terms} {r : Reply V}
    (h : Finding P b k rx s o tagged r) (ho : o = true) (hr : r.disconnects = true) : Over s := by
  cases h with
  | returned h => exact h.honest hr
  | waited h => exact h.honest hr
  | drained h => exact h.honest hr
  | gathered h => exact h.honest hr
  | other => cases ho
  | @polled _ r h =>
    match r with
    | some (.error .disconnected) => exact h.2
    | some (.ok item) => cases hr
    | some (.error .empty) => cases hr
    | some (.error .timeout) => cases hr
    | none => cases hr

/-- **`Disconnected` is answered at the end of the channel only.** -/
theorem RecvOp.honest_spec (op : RecvOp V) (hop : op.ordinary = true) :
    Triple (recvC P (.watching false .none .none)) (Between false) (op.code P)
      fun _ => Honest := by
  have hdrop : op ≠ .drop := by
    rintro rfl
    cases hop
  refine (op.answers_spec hdrop op.admits_none (R := fun r s => r.disconnects = true → Over s)
    (fun r s s' ℓ hc hℓ ha h hd => (h hd).sender hc hℓ ha) (fun _ _ _ h => h)
    fun r rx s h => h.honest hop).conseq (fun s _ h => ⟨h, fun hb => by cases hb⟩)
    fun _ s _ h r hr => ?_
  obtain ⟨-, r', hr', hover⟩ := h
  cases hr'.symm.trans hr
  exact hover

/-! ## What there is at the end -/

theorem Core.retired (hc : Core P s) (h : s.registeredLanes = 0) (hlt : ℓ < s.count) :
    s.stage ℓ = .retired := by
  by_contra hne
  have hpos : 0 < laneCount s.count s.stage := Finset.card_pos.mpr ⟨ℓ, by simp [hlt, hne]⟩
  have := hc.registered
  omega

/-- Every value of a lane that was not closed was popped. -/
theorem Over.popped (h : Over s) (hc : Core P s) (hlt : ℓ < s.count) (hshut : s.shut ℓ = false) :
    ofLane ℓ (popped s.trace) = (s.ring ℓ).log := by
  have hhead := ((hc.lane ℓ).retired (hc.retired h.2 hlt) hshut).2
  rw [(hc.lane ℓ).popped_eq hshut, hhead, List.take_length]

theorem guar.over {t : Tid} (hg : guar P t s s') (hc : Core P s) (h : Over s) : Over s' := by
  cases t with
  | rx =>
    have ha : RecvAct P s s' := hg
    refine ⟨fun ℓ hlt => ?_, Nat.le_zero.mp (h.2 ▸ ha.registered)⟩
    rw [ha.gone]
    exact h.1 ℓ (ha.count ▸ hlt)
  | tx ℓ =>
    rcases hg with rfl | ⟨hlt, ha⟩
    · exact h
    · exact h.sender hc hlt ha

/-- **The end of a channel lasts.** -/
theorem Over.run {c c' : Config (Chan V) Tid} (hreach : Reaches V P c) (h : Over c.st)
    (hrun : (system V P).Run System.always c c') : Reaches V P c' ∧ Over c'.st := by
  induction hrun with
  | refl => exact ⟨hreach, h⟩
  | tail _ hstep ih =>
    obtain ⟨label, -, hexec⟩ := hstep
    obtain ⟨t, hg⟩ := ih.1.good.guarantees (ok_always _ label) hexec
    exact ⟨ih.1.tail ⟨label, trivial, hexec⟩, hg.over ih.1.good.1.core ih.2⟩

/-! ## Finality -/

/-- To return, at the end of the channel. -/
def Setting.ending : Setting := { aim := .alone (some true), done := true }

theorem Setting.urgent_ending (c : Bool) : Setting.ending.Urgent c := fun _ _ h => by cases h

/-- The receiver is at the end of the channel, and nothing is in its hands. -/
def AtEnd (rx : Receiver) (s : Chan V) : Prop := ∃ n, View .ending (.holding [] false n) rx s

theorem AtEnd.stable : (recvC P .ending).Stable (AtEnd (V := V) rx) := by
  rintro s s' hs hs' hr ⟨n, hv⟩
  exact ⟨n, View.stable s s' hs hs' hr hv⟩

theorem Between.atEnd (hb : Between false s) (hc : Core P s) (ho : Over s) : AtEnd s.rx s :=
  ⟨0, { hb.start with
    budget := fun h => by cases h
    swept := fun h => by cases h
    quiet := fun h => by cases h
    aim := ⟨ho.1, fun _ _ => ⟨rfl, fun ℓ hlt hst => absurd (hc.retired ho.2 hlt) hst⟩⟩
    left := fun _ _ => ho.2.le
    done := fun _ => ho }⟩

/-- Nothing was popped. -/
theorem View.ending_caught {x : Ctx V} (hv : View .ending x rx s) : x.caught = false :=
  (hv.aim.2 true rfl).1

theorem Returned.atEnd {tagged : Bool} {r : Except RecvError (Item V)}
    (h : Returned P .ending tagged [] false rx s r) : r = .error .disconnected ∧ AtEnd rx s := by
  match r with
  | .ok item =>
    obtain ⟨n, -, hv⟩ := h
    exact absurd hv.ending_caught (by simp [Ctx.holding])
  | .error e =>
    obtain ⟨n, hn, -, hex⟩ := h
    obtain rfl := hex.done rfl
    exact ⟨rfl, n, hn.1⟩

theorem BatchReturned.atEnd {limit : Nat} {accept : Option (List V → V → Bool)}
    {r : List (Item V) × Except RecvError Nat} (hlimit : limit ≠ 0)
    (h : BatchReturned .ending limit accept [] false rx s r) :
    r = ([], .error .disconnected) ∧ AtEnd rx s := by
  obtain ⟨output, result⟩ := r
  obtain ⟨-, n, hn⟩ := h
  match result with
  | .ok m =>
    obtain ⟨-, hnil, b, -, hv⟩ := hn
    have hnone : output = [] := by simpa [Ctx.draining, Ctx.holding] using hv.ending_caught
    rcases hnil hnone with h₀ | ⟨-, halone⟩
    · exact absurd h₀ hlimit
    · exact absurd rfl (halone (some true))
  | .error e =>
    obtain ⟨hnone, ⟨-, hex⟩, hn⟩ := hn
    obtain rfl := hex.done rfl
    obtain rfl : output = [] := hnone
    exact ⟨rfl, n, hn.1⟩

theorem tryRecvOutput_ending (tagged : Bool) :
    Triple (recvC P .ending) (AtEnd (V := V) rx) (rx.tryRecvOutput P tagged) fun r s =>
      r.1 = .error .disconnected ∧ AtEnd r.2 s := by
  rintro s hs ⟨n, hv⟩
  exact ((tryRecvOutput_spec tagged (Setting.urgent_ending _) (fun h => by cases h)).post
    fun r s _ hr => hr.atEnd) s hs hv

theorem tryRecvFairOutput_ending (tagged : Bool) :
    Triple (recvC P .ending) (AtEnd (V := V) rx) (rx.tryRecvFairOutput P tagged) fun r s =>
      r.1 = .error .disconnected ∧ AtEnd r.2 s := by
  rintro s hs ⟨n, hv⟩
  exact ((tryRecvFairOutput_spec tagged (Setting.urgent_ending _)).post
    fun r s _ hr => hr.atEnd) s hs hv

theorem recvOutput_ending (tagged : Bool) (spins : Nat) :
    Triple (recvC P .ending) (AtEnd (V := V) rx) (rx.recvOutput P tagged spins) fun r s =>
      r.1 = .error .disconnected ∧ AtEnd r.2 s := by
  have hloop : Triple (recvC P .ending) (AtEnd (V := V) rx) (rx.tryRecvLoop P false tagged)
      fun r s => r.1 = .error .disconnected ∧ AtEnd r.2 s := by
    rintro s hs ⟨n, hv⟩
    exact ((tryRecvLoop_spec n rx false tagged (Setting.urgent_ending _)
      (fun h => by cases h)).post fun r s _ hr => hr.atEnd) s hs hv
  refine hloop.bind fun r => ?_
  obtain ⟨r, rx'⟩ := r
  refine Triple.given (φ := r = .error .disconnected) (fun _ _ h => h.1) fun hr => ?_
  subst hr
  exact Triple.ret ((Contract.Stable.pure _).and AtEnd.stable) fun _ _ h => h

/-- A blocking receive does not block: its first attempt answers. -/
theorem recvBlocking_ending (tagged deadline : Bool) (spins : Nat) :
    Triple (recvC P .ending) (AtEnd (V := V) rx) (rx.recvBlocking P tagged spins deadline)
      fun r s => r.1 = .error .disconnected ∧ AtEnd r.2 s := by
  have hstable : ∀ (o : Except RecvError (Item V)) (rx : Receiver), (recvC P .ending).Stable
      fun s : Chan V => o = .error .disconnected ∧ AtEnd rx s :=
    fun o rx => (Contract.Stable.pure _).and AtEnd.stable
  have hattempt : Triple (recvC P .ending) (AtEnd (V := V) rx)
      ((Receiver.blocking P tagged).attempt rx ()) fun r s =>
        ∃ o, r.1 = .done o ∧ o = .error .disconnected ∧ AtEnd r.2 s := by
    refine (tryRecvOutput_ending tagged).bind fun r => ?_
    obtain ⟨r, rx'⟩ := r
    refine Triple.given (φ := r = .error .disconnected) (fun _ _ h => h.1) fun hr => ?_
    subst hr
    intro s hs h s' he
    exact ⟨_, rfl, (hstable _ rx').env he hs h⟩
  refine (Blocking.run_at_once AtEnd.stable hstable hattempt spins deadline).bind fun r => ?_
  obtain ⟨r, rx'⟩ := r
  cases r with
  | ok o =>
    intro s hs h s' he
    obtain ⟨o', ho, h⟩ := h
    cases ho
    exact (hstable o rx').env he hs h
  | error _ =>
    intro s hs h
    obtain ⟨o', ho, -⟩ := h
    cases ho

theorem releaseConsumed_ending :
    Triple (recvC P .ending) (AtEnd (V := V) rx) rx.releaseConsumed fun rx' => AtEnd rx' := by
  rintro s hs ⟨n, hv⟩
  exact ((releaseConsumed_spec rfl rfl rfl rfl rfl Framed.true.steady).post fun rx' s _ h =>
    ⟨n, h.2.1⟩) s hs ⟨hv, trivial⟩

/-- The last answer is `Disconnected`. -/
abbrev Disconnects (s : Chan V) : Prop := LastReply (·.disconnects = true) s

theorem reply_ending {r : Reply V} (hitems : r.items = []) (hr : r.disconnects = true) :
    Triple (recvC P .ending) (AtEnd rx) (rx.reply r) fun _ => Disconnects := by
  rintro s hs ⟨n, hv⟩
  exact reply_last (x := .holding [] false n) rfl (by rw [hitems]; rfl) hr s hs ⟨hv, .nil hitems⟩

/-- The same for what a receive is known to have come to. -/
theorem reply_known_ending {α : Type} {a a₀ : α} (f : α → Reply V) (hitems : (f a₀).items = [])
    (hr : (f a₀).disconnects = true) :
    Triple (recvC P .ending) (fun s => a = a₀ ∧ AtEnd rx s) (rx.reply (f a))
      fun _ => Disconnects := by
  refine Triple.given (φ := a = a₀) (fun _ _ h => h.1) fun ha => ?_
  subst ha
  exact (reply_ending hitems hr).pre fun _ _ h => h.2

theorem tryRecvBatch_ending {limit : Nat} (hlimit : limit ≠ 0)
    (accept : Option (List V → V → Bool)) :
    Triple (recvC P .ending) (AtEnd rx) (rx.tryRecvBatch P limit accept) fun r s =>
      r.1 = ([], .error .disconnected) ∧ AtEnd r.2 s := by
  rintro s hs ⟨n, hv⟩
  exact ((tryRecvBatch_spec limit accept (by simp [Setting.ending]) Setting.urgent_ending rfl).post
    fun r s _ hr => hr.atEnd hlimit) s hs hv

theorem tryRecvScan_ending {limit : Nat} (hlimit : limit ≠ 0) (accept : List V → V → Bool) :
    Triple (recvC P .ending) (AtEnd rx) (rx.tryRecvScan P limit accept) fun r s =>
      r.1 = ([], .error .disconnected) ∧ AtEnd r.2 s := by
  rintro s hs ⟨n, hv⟩
  exact ((tryRecvScan_spec limit accept (by simp [Setting.ending]) Setting.urgent_ending rfl).post
    fun r s _ hr => hr.atEnd hlimit) s hs hv

theorem drainInto_ending (limit : Nat) :
    Triple (recvC P .ending) (AtEnd (V := V) rx) (rx.drainInto P limit none) fun r s =>
      r.1.output = [] ∧ AtEnd r.2 s := by
  rintro s hs ⟨n, hv⟩
  refine ((drainInto_spec limit none (by simp [Setting.ending]) Setting.urgent_ending).post
    fun r s _ hr => ?_) s hs hv
  obtain ⟨m, hv⟩ := hr.view
  have hnone : r.1.output = [] := by simpa [Ctx.draining, Ctx.holding] using hv.ending_caught
  rw [hnone, Ctx.draining_nil] at hv
  exact ⟨hnone, m, hv⟩

theorem recvBatch_ending {limit : Nat} (hlimit : limit ≠ 0) (spins : Nat) :
    Triple (recvC P .ending) (AtEnd (V := V) rx) (rx.recvBatch P spins limit) fun r s =>
      r.1 = ([], .error .disconnected) ∧ AtEnd r.2 s := by
  unfold Receiver.recvBatch
  rw [if_neg hlimit]
  refine (drainInto_ending limit).bind fun r => ?_
  obtain ⟨drained, rx₁⟩ := r
  refine Triple.given (φ := drained.output = []) (fun _ _ h => h.1) fun hnone => ?_
  simp only [hnone, List.length_nil, if_true]
  refine Triple.bind ((recvOutput_ending false spins).pre fun _ _ h => h.2) fun r => ?_
  obtain ⟨r, rx₂⟩ := r
  refine Triple.given (φ := r = .error .disconnected) (fun _ _ h => h.1) fun hr => ?_
  subst hr
  exact Triple.bind (releaseConsumed_ending.pre fun _ _ h => h.2) fun rx₃ =>
    Triple.ret ((Contract.Stable.pure _).and AtEnd.stable) fun _ _ h => ⟨rfl, h⟩

theorem pollRecv_ending (tagged : Bool) :
    Triple (recvC P .ending) (AtEnd (V := V) rx) (rx.pollRecv P tagged) fun r s =>
      r.1 = some (.error .disconnected) ∧ AtEnd r.2 s := by
  refine (tryRecvOutput_ending tagged).bind fun r => ?_
  obtain ⟨r, rx₁⟩ := r
  refine Triple.given (φ := r = .error .disconnected) (fun _ _ h => h.1) fun hr => ?_
  subst hr
  simp only [Prog.pure_eq, Prog.bind_eq, Prog.ret_bind]
  refine Triple.bind (releaseConsumed_ending.pre fun _ _ h => h.2) fun rx₂ => ?_
  have hcancel : Triple (recvC P .ending) (AtEnd (V := V) rx₂) Receiver.cancelRecvWait
      fun _ => AtEnd rx₂ := by
    rintro s hs ⟨n, hv⟩
    exact ((dataStep_spec (S := .ending) (R := fun _ => True) rfl trivial (fun _ hc => hc)
      (Kept.pure _) fun _ _ h => h).post fun _ s _ h => ⟨n, h.1⟩) s hs ⟨hv, trivial⟩
  exact hcancel.bind fun _ =>
    Triple.ret ((Contract.Stable.pure _).and AtEnd.stable) fun _ _ h => ⟨rfl, h⟩

/-- **A receive at the end of the channel returns, and answers `Disconnected`.** -/
theorem RecvOp.ending_spec (op : RecvOp V) (hop : op.wants = true) :
    Triple (recvC P .ending) (fun s => AtEnd s.rx s) (op.code P) fun _ => Disconnects := by
  refine Triple.bind (readRx_spec fun _ => AtEnd.stable) fun rx => ?_
  have recv : ∀ {r rx}, Triple (recvC P .ending)
      (fun s : Chan V => r = .error .disconnected ∧ AtEnd rx s) (rx.reply (.recv r))
      fun _ => Disconnects := reply_known_ending .recv rfl rfl
  have batch : ∀ {r : List (Item V) × Except RecvError Nat} {rx}, Triple (recvC P .ending)
      (fun s => r = ([], .error .disconnected) ∧ AtEnd rx s) (rx.reply (.batch r.1 r.2))
      fun _ => Disconnects :=
    reply_known_ending (fun r : List (Item V) × Except RecvError Nat => .batch r.1 r.2) rfl rfl
  cases op with
  | tryRecv tagged => exact Triple.bind (tryRecvOutput_ending tagged) fun _ => recv
  | tryRecvFair tagged => exact Triple.bind (tryRecvFairOutput_ending tagged) fun _ => recv
  | recv tagged spins => exact Triple.bind (recvOutput_ending tagged spins) fun _ => recv
  | recvDeadline tagged spins =>
    exact Triple.bind (recvBlocking_ending tagged true spins) fun _ => recv
  | tryRecvBatch limit =>
    exact Triple.bind (tryRecvBatch_ending (of_decide_eq_true hop) none) fun _ => batch
  | tryRecvBatchWhile limit accept =>
    exact Triple.bind (tryRecvBatch_ending (of_decide_eq_true hop) (some accept)) fun _ => batch
  | tryRecvScan limit accept =>
    exact Triple.bind (tryRecvScan_ending (of_decide_eq_true hop) accept) fun _ => batch
  | recvBatch limit spins =>
    exact Triple.bind (recvBatch_ending (of_decide_eq_true hop) spins) fun _ => batch
  | pollRecv tagged =>
    exact Triple.bind (pollRecv_ending tagged) fun _ => reply_known_ending .poll rfl rfl
  | _ => cases hop

/-! ## Alone with what the senders left -/

/-- To return, with all senders gone; the unpaused lanes, or all of them, were read. -/
def Setting.leftAlone (all : Bool) (keep : Option (Nat × Nat)) : Setting :=
  { aim := .alone (some all), keep := keep }

variable {all : Bool} {keep : Option (Nat × Nat)}

theorem Between.leftAlone (hb : Between false s) (hg : AllGone s) (hread : AllRead all s.rx.book s)
    (hkeep : ∀ ℓ n, keep = some (ℓ, n) → Spared s.rx.book ℓ n s) :
    View (.leftAlone all keep) (.holding [] false s.registeredLanes) s.rx s :=
  { hb.start with
    budget := fun h => by cases h
    swept := fun h => by cases h
    quiet := fun h => by cases h
    aim := ⟨hg, fun all' h => by
      cases h
      exact ⟨rfl, hread⟩⟩
    keep := hkeep
    left := fun _ _ => le_rfl
    done := fun h => by cases h }

/-- What a receiver that is alone answers when it has no value: it is at the end if all lanes were
    read, and only if the lane it keeps was. -/
structure Concludes (all : Bool) (keep : Option (Nat × Nat)) (e : RecvError) (s : Chan V) :
    Prop where
  gone : AllGone s
  waited : e ≠ .timeout
  read : all = true → e = .disconnected
  kept : e = .disconnected → ∀ ℓ n, keep = some (ℓ, n) → (s.ring ℓ).log.length = n

theorem Concludes.sender {e : RecvError} (h : Concludes all keep e s) (hc : Core P s)
    (hℓ : ℓ < s.count) (ha : SenderAct P ℓ s s') : Concludes all keep e s' := by
  obtain ⟨h₁, h₂, h₃, -⟩ := ha.alone hc h.gone hℓ
  refine ⟨?_, h.waited, h.read, fun he ℓ' n hk => ?_⟩
  · rw [AllGone, h₁, h₂]
    exact h.gone
  · rw [h₃]
    exact h.kept he ℓ' n hk

theorem Returned.concludes {tagged : Bool} {r : Except RecvError (Item V)} (hc : Core P s)
    (h : Returned P (.leftAlone all keep) tagged [] false rx s r) :
    ∃ e n, r = .error e ∧ View (.leftAlone all keep) (.holding [] false n) rx s ∧
      Concludes all keep e s := by
  match r with
  | .ok item =>
    obtain ⟨n, -, hv⟩ := h
    exact absurd (hv.aim.2 all rfl).1 (by simp [Ctx.holding])
  | .error .timeout =>
    obtain ⟨n, hn, -⟩ := h
    exact hn.elim
  | .error .disconnected =>
    obtain ⟨n, hn, -⟩ := h
    refine ⟨_, n, rfl, hn.1, hn.2.1, by simp, fun _ => rfl, fun _ ℓ m hk => ?_⟩
    have hs := hn.1.keep ℓ m hk
    rw [← hn.2.popped hc hs.lt hs.shut]
    exact hs.popped
  | .error .empty =>
    obtain ⟨n, hn, -⟩ := h
    have hgone : AllGone s := hn.1.aim.1
    refine ⟨_, n, rfl, hn.1.unquiet, hgone, by simp, fun hall => ?_, fun h => by cases h⟩
    -- something is left to be read
    subst hall
    rcases hn.1.quiet rfl with htold | ⟨-, -, hlive | ⟨ℓ, hlt, hst, hsh, hne⟩⟩
    · exact htold.elim
    · exact absurd (hc.live_zero hgone) hlive
    · have := (hn.1.aim.2 true rfl).2 ℓ hlt hst hsh (.inl rfl)
      omega

/-- **A `try_recv` of a receiver that is alone, and has read what it may read, returns.** -/
theorem tryRecv_leftAlone (tagged : Bool) :
    Triple (recvC P (.leftAlone all keep))
      (fun s => ∃ n, View (.leftAlone all keep) (.holding [] false n) s.rx s)
      (RecvOp.code P (.tryRecv tagged)) fun _ s => ∃ e,
        s.history.getLast? = some (.recv (.error e)) ∧ Concludes (V := V) all keep e s := by
  have hstable : (recvC P (.leftAlone all keep)).Stable fun s : Chan V => ∃ e,
      s.history.getLast? = some (.recv (.error e)) ∧ Concludes all keep e s :=
    recvC_stable fun s s' ℓ hc hℓ ha h => by
      obtain ⟨e, hlast, hcon⟩ := h
      exact ⟨e, (ha.frame hc hℓ).history ▸ hlast, hcon.sender hc hℓ ha⟩
  refine Triple.bind (readRx_spec (Q := fun rx s => ∃ n,
    View (.leftAlone all keep) (.holding [] false n) rx s) fun rx => ?_) fun rx => ?_
  · rintro s s' hs hs' hr ⟨n, hv⟩
    exact ⟨n, View.stable s s' hs hs' hr hv⟩
  · rintro s hs ⟨n, hv⟩
    refine Triple.bind (tryRecvOutput_spec tagged (fun _ _ h => by cases h) (fun h => by cases h))
      (fun r => ?_) s hs hv
    obtain ⟨r, rx'⟩ := r
    intro s hs hr
    obtain ⟨e, m, rfl, hv, hcon⟩ := Returned.concludes hs.core hr
    exact reply_spec (R := Concludes all keep e) (x := .holding [] false m) rfl rfl
      (fun s s' ℓ hc hℓ ha _ h => h.sender hc hℓ ha) hstable (fun _ _ i hi => by cases hi)
      (fun s _ _ h => ⟨e, List.getLast?_concat .., { h with }⟩) s hs ⟨hv, hcon⟩

/-! ## Runs -/

/-- The receiver's call, started in this configuration, answers one of these: whenever it has
    returned, and it does return if the receiver goes on taking steps. -/
def Answering (A : Reply V → Prop) (c : Config (Chan V) Tid) : Prop :=
  (∀ c', (system V P).During System.always .rx c c' → c'.pool .rx = none →
    ∃ r, c'.st.history.getLast? = some r ∧ A r) ∧
  ∀ r : (system V P).Forever System.always c, Goes r →
    ∃ i, (system V P).During System.always .rx c (r.at_ i) ∧ (r.at_ i).pool .rx = none

theorem answering_of_calling {A : Reply V → Prop} {c : Config (Chan V) Tid} {Q : Chan V → Prop}
    (h : (outline V P false).Calling .rx (fun _ => False) Q c)
    (hQ : ∀ c', (system V P).During System.always .rx c c' → Q c'.st → LastReply A c'.st) :
    Answering (P := P) A c := by
  refine ⟨fun c' hduring hback => hQ c' hduring ?_, fun r hgoes => ?_⟩
  · have hend := (h.during (hduring.mono fun c l _ => ok_always c l)).2
    rw [hback] at hend
    exact hend
  · obtain ⟨r', hat, hlabel⟩ := Forever.ok r
    obtain ⟨i, hduring, hend⟩ := h.returns_during r' fun i => by
      obtain ⟨j, hij, n, hn⟩ := hgoes i
      exact ⟨j, hij, n, (hlabel j).trans hn⟩
    rw [hat] at hduring hend
    exact ⟨i, hduring.mono fun _ _ _ => trivial, hend.resolve_right id⟩

/-- With all senders gone nothing is added to a lane. -/
theorem guar.alone {t : Tid} (hg : guar P t s s') (hc : Core P s) (h : AllGone s) :
    AllGone s' ∧ ∀ ℓ, (s'.ring ℓ).log = (s.ring ℓ).log := by
  cases t with
  | rx =>
    have ha : RecvAct P s s' := hg
    refine ⟨fun ℓ hlt => ?_, fun ℓ => (ha.ring ℓ).log⟩
    rw [ha.gone]
    exact h ℓ (ha.count ▸ hlt)
  | tx ℓ =>
    rcases hg with rfl | ⟨hlt, ha⟩
    · exact ⟨h, fun _ => rfl⟩
    · obtain ⟨h₁, h₂, h₃, -⟩ := ha.alone hc h hlt
      refine ⟨?_, fun ℓ => by rw [h₃]⟩
      rw [AllGone, h₁, h₂]
      exact h

theorem log_of_run {c c' : Config (Chan V) Tid} (hreach : Reaches V P c) (h : AllGone c.st)
    (hrun : (system V P).Run System.always c c') :
    Reaches V P c' ∧ AllGone c'.st ∧ ∀ ℓ, (c'.st.ring ℓ).log = (c.st.ring ℓ).log := by
  induction hrun with
  | refl => exact ⟨hreach, h, fun _ => rfl⟩
  | tail _ hstep ih =>
    obtain ⟨label, -, hexec⟩ := hstep
    obtain ⟨hr, hgone, hlog⟩ := ih
    obtain ⟨t, hg⟩ := hr.good.guarantees (ok_always _ label) hexec
    obtain ⟨hgone', hlog'⟩ := hg.alone hr.good.1.core hgone
    exact ⟨hr.tail ⟨label, trivial, hexec⟩, hgone', fun ℓ => (hlog' ℓ).trans (hlog ℓ)⟩

/-- The lane was not closed, and holds a value that was not read. -/
def Chan.HoldsUnread (s : Chan V) (ℓ : Nat) : Prop :=
  ℓ < s.count ∧ s.shut ℓ = false ∧ (s.ring ℓ).head < (s.ring ℓ).log.length

/-- All senders were dropped, and nobody is in an operation. -/
structure Abandoned (c : Config (Chan V) Tid) : Prop where
  gone : AllGone c.st
  idle : ∀ t, c.pool t = none

/-- A sender that is gone has published and marked what it left. -/
theorem Abandoned.inReach {c : Config (Chan V) Tid} (h : Abandoned c) (hreach : Reaches V P c)
    (hb : Between false c.st) (hholds : c.st.HoldsUnread ℓ) (hpaused : ¬ c.st.Paused ℓ) :
    c.st.InReach ℓ := by
  obtain ⟨hlt, hshut, hunread⟩ := hholds
  have hcore := hreach.good.1.core
  obtain ⟨hmarked, hswapped, -⟩ := hcore.gone ℓ (h.gone ℓ hlt)
  have htail := (hcore.lane ℓ).ok.dropped ((hcore.lane ℓ).dropMarked hmarked)
  refine hb.inReach_of hcore hlt hshut hpaused (by omega) (fun ℓ' hlt' hph => ?_)
    fun hi => ⟨?_, fun hph => absurd hph hswapped⟩
  · exact absurd hph (hcore.gone ℓ' (h.gone ℓ' hlt')).2.2
  · by_contra hp
    exact absurd (hmarked.symm.trans (hi.idle (by simpa using hp)).2) (by simp)

theorem Abandoned.concludes {c c₁ : Config (Chan V) Tid} {tagged : Bool} (h : Abandoned c)
    (hreach : Reaches V P c) (hread : AllRead all c.st.rx.book c.st)
    (hkeep : ∀ ℓ n, keep = some (ℓ, n) → Spared c.st.rx.book ℓ n c.st)
    (hcall : (system V P).exec c (.call .rx (.recv (.tryRecv tagged))) = some c₁) :
    (outline V P false).Calling .rx (fun _ => False) (fun s => ∃ e,
      s.history.getLast? = some (.recv (.error e)) ∧ Concludes all keep e s) c₁ := by
  obtain ⟨-, hmay, -⟩ := System.exec_call hcall
  refine hreach.good.calling hcall fun hidle => ?_
  have hb : Between false c.st := Rests.between hidle hmay
  exact tryRecv_leftAlone tagged c.st hreach.good.1 ⟨_, hb.leftAlone h.gone hread hkeep⟩

/-- A value is there and no unpaused lane holds one: `Empty`. -/
theorem Abandoned.empty {c c₁ : Config (Chan V) Tid} {tagged : Bool} (h : Abandoned c)
    (hreach : Reaches V P c) (hpaused : ∀ ℓ, c.st.HoldsUnread ℓ → c.st.Paused ℓ)
    (hholds : c.st.HoldsUnread ℓ)
    (hcall : (system V P).exec c (.call .rx (.recv (.tryRecv tagged))) = some c₁) :
    Answering (P := P) (· = .recv (.error .empty)) c₁ := by
  have hcore := hreach.good.1.core
  have hread : AllRead false c.st.rx.book c.st := by
    intro ℓ' hlt hst hsh hfree
    by_contra hne
    have hle := (hcore.lane ℓ').ok.head_le_length
    obtain ⟨hadopted, hp⟩ := hpaused ℓ' ⟨hlt, hsh, by omega⟩
    rcases hfree with hf | hf | hf
    · cases hf
    · cases hadopted.symm.trans hf
    · exact absurd (hp.symm.trans hf) (by simp)
  have hkeep : ∀ ℓ' n, some (ℓ, (c.st.ring ℓ).head) = some (ℓ', n) →
      Spared c.st.rx.book ℓ' n c.st := by
    intro ℓ' n hk
    cases hk
    obtain ⟨hadopted, hp⟩ := hpaused ℓ hholds
    refine ⟨hholds.1, hholds.2.1, by simp [hadopted], fun _ => hp, ?_⟩
    rw [(hcore.lane ℓ).popped_eq hholds.2.1, List.length_take]
    exact min_eq_left (hcore.lane ℓ).ok.head_le_length
  refine answering_of_calling (h.concludes hreach hread hkeep hcall) fun c' hduring hend => ?_
  obtain ⟨e, hlast, hcon⟩ := hend
  refine ⟨_, hlast, ?_⟩
  have hlog := (log_of_run hreach h.gone (.head ⟨_, trivial, hcall⟩ hduring.run)).2.2 ℓ
  have hunread := hholds.2.2
  cases e with
  | empty => rfl
  | timeout => exact absurd rfl hcon.waited
  | disconnected =>
    have := hcon.kept rfl ℓ _ rfl
    rw [hlog] at this
    omega

/-- No lane holds a value: `Disconnected`. -/
theorem Abandoned.disconnected {c c₁ : Config (Chan V) Tid} {tagged : Bool} (h : Abandoned c)
    (hreach : Reaches V P c) (hnone : ∀ ℓ, ¬ c.st.HoldsUnread ℓ)
    (hcall : (system V P).exec c (.call .rx (.recv (.tryRecv tagged))) = some c₁) :
    Answering (P := P) (· = .recv (.error .disconnected)) c₁ := by
  have hread : AllRead true c.st.rx.book c.st := by
    intro ℓ hlt _ hsh _
    by_contra hne
    have hle := (hreach.good.1.core.lane ℓ).ok.head_le_length
    exact hnone ℓ ⟨hlt, hsh, by omega⟩
  have hkeep : ∀ ℓ n, (none : Option (Nat × Nat)) = some (ℓ, n) →
      Spared c.st.rx.book ℓ n c.st := fun _ _ h => by cases h
  refine answering_of_calling (h.concludes hreach hread hkeep hcall) fun c' _ hend => ?_
  obtain ⟨e, hlast, hcon⟩ := hend
  exact ⟨_, hlast, by rw [hcon.read rfl]⟩

/-- **`Disconnected` is sound, final and reached.** When an ordinary receive answers it then all
    senders were dropped, every value of a lane that was not closed has been received, and every
    later ordinary receive that asks for a value returns with the same answer. And with all senders
    dropped a `try_recv` returns with a value if an unpaused lane holds one, with `Empty` if only
    paused ones do, and with `Disconnected` if none does. -/
theorem disconnected_sound_final_reached {c : Config (Chan V) Tid} (h : Reaches V P c) :
    (∀ op c₁ c₂, RecvOp.ordinary op = true →
      (system V P).exec c (.call .rx (.recv op)) = some c₁ →
      (system V P).During System.always .rx c₁ c₂ → c₂.pool .rx = none → Disconnects c₂.st →
      (∀ ℓ < c₂.st.count, c₂.st.gone ℓ = true) ∧
      (∀ ℓ < c₂.st.count, c₂.st.shut ℓ = false →
        ofLane ℓ (c₂.st.returned.map Item.pair) = (c₂.st.ring ℓ).log) ∧
      ∀ c₃ op' c₄, (system V P).Run System.always c₂ c₃ → RecvOp.wants op' = true →
        (system V P).exec c₃ (.call .rx (.recv op')) = some c₄ →
        Answering (P := P) (·.disconnects = true) c₄) ∧
    (Abandoned c → ∀ tagged c₁,
      (system V P).exec c (.call .rx (.recv (.tryRecv tagged))) = some c₁ →
      ((∃ ℓ, c.st.HoldsUnread ℓ ∧ ¬ c.st.Paused ℓ) → Answering (P := P) Reply.Delivers c₁) ∧
      ((∀ ℓ, c.st.HoldsUnread ℓ → c.st.Paused ℓ) → (∃ ℓ, c.st.HoldsUnread ℓ) →
        Answering (P := P) (· = .recv (.error .empty)) c₁) ∧
      ((∀ ℓ, ¬ c.st.HoldsUnread ℓ) →
        Answering (P := P) (· = .recv (.error .disconnected)) c₁)) := by
  refine ⟨fun op c₁ c₂ hop hcall hduring hback hdisc => ?_, fun habandoned tagged c₁ hcall =>
    ⟨fun hex => ?_, fun hpaused hex => ?_, fun hnone => habandoned.disconnected h hnone hcall⟩⟩
  · have hreach₂ : Reaches V P c₂ := (h.tail ⟨_, trivial, hcall⟩).trans hduring.run
    obtain ⟨hinv, hhonest⟩ := h.returned (S := .watching false .none .none) rfl hcall hduring hback
      fun hi hb => op.honest_spec hop c.st hi hb
    obtain ⟨r, hlast, hr⟩ := hdisc
    have hover : Over c₂.st := hhonest r hlast hr
    have hb : Between false c₂.st := by
      have hends := (h.returned (S := .watching false .none .none) rfl hcall hduring hback
        fun hi hb => RecvOp.code_spec op op.admits_none c.st hi ⟨hb, fun h => by cases h⟩).2
      refine (RecvOp.Ends.returns hends ?_).1.between
      rintro rfl
      cases hop
    refine ⟨hover.1, fun ℓ hlt hshut => ?_, fun c₃ op' c₄ hrun hwants hcall' => ?_⟩
    · rw [← hb.returned]
      exact hover.popped hinv.core hlt hshut
    · obtain ⟨hreach₃, hover₃⟩ := hover.run hreach₂ hrun
      obtain ⟨-, hmay, -⟩ := System.exec_call hcall'
      refine answering_of_calling (Q := Disconnects) (hreach₃.good.calling hcall' fun hidle => ?_)
        fun _ _ hend => hend
      have hb₃ : Between false c₃.st := Rests.between hidle hmay
      exact op'.ending_spec hwants c₃.st hreach₃.good.1 (hb₃.atEnd hreach₃.good.1.core hover₃)
  · obtain ⟨ℓ, hholds, hpaused⟩ := hex
    obtain ⟨-, hmay, -⟩ := System.exec_call hcall
    have hb : Between false c.st := h.between (habandoned.idle .rx) hmay
    obtain ⟨hanswer, hreturn⟩ := received_of_call h (.tries (.tryRecv tagged))
      (habandoned.inReach h hb hholds hpaused) hcall
    refine ⟨fun c₂ hrun hback => (hanswer c₂ hrun hback).1, fun r hgoes => ?_⟩
    obtain ⟨i, hduring, hend⟩ := hreturn r hgoes
    exact ⟨i, hduring, hend.resolve_right fun h => by cases h.1⟩
  · obtain ⟨ℓ, hholds⟩ := hex
    exact habandoned.empty h hpaused hholds hcall

/-- A value was sent, and the only sender was dropped. -/
def bequeathed : Config (Chan Nat) Tid :=
  (system Nat ⟨true, 0, 4⟩).after (start Nat ⟨true, 0, 4⟩) (List.flatten [
    System.turn (.tx 0) (.send (.trySend 7)) 13, System.turn (.tx 0) (.send .drop) 8])

/-- The value was received. -/
def inherited : Config (Chan Nat) Tid :=
  (system Nat ⟨true, 0, 4⟩).after bequeathed (System.turn .rx (.recv (.tryRecv false)) 15)

/-- Another receive has started. -/
def asking : Config (Chan Nat) Tid :=
  (system Nat ⟨true, 0, 4⟩).after inherited [.call .rx (.recv (.tryRecv false))]

/-- It has answered `Disconnected`. -/
def concluded : Config (Chan Nat) Tid :=
  (system Nat ⟨true, 0, 4⟩).after asking (List.replicate 25 (.step .rx 0))

theorem reaches_bequeathed : Reaches Nat ⟨true, 0, 4⟩ bequeathed :=
  System.run_after (by decide +kernel)

theorem reaches_inherited : Reaches Nat ⟨true, 0, 4⟩ inherited :=
  Relation.ReflTransGen.trans reaches_bequeathed (System.run_after (by decide +kernel))

theorem asking_concluded :
    (system Nat ⟨true, 0, 4⟩).exec inherited (.call .rx (.recv (.tryRecv false))) = some asking ∧
      (system Nat ⟨true, 0, 4⟩).During System.always .rx asking concluded ∧
      concluded.pool .rx = none ∧ Disconnects concluded.st :=
  ⟨System.exec_after (by decide +kernel), System.during_after (by decide +kernel),
    Option.isNone_iff_eq_none.mp (by decide +kernel), _, rfl, rfl⟩

/-- **A bulk receive of no values answers `Ok(0)`**, also after `Disconnected`. -/
theorem empty_bulk_receive_is_ok :
    let c := (system Nat ⟨true, 0, 4⟩).after concluded [.call .rx (.recv (.tryRecvBatch 0))]
    let c' := (system Nat ⟨true, 0, 4⟩).after c (List.replicate 3 (.step .rx 0))
    Reaches Nat ⟨true, 0, 4⟩ concluded ∧ Disconnects concluded.st ∧
      (system Nat ⟨true, 0, 4⟩).exec concluded (.call .rx (.recv (.tryRecvBatch 0))) = some c ∧
      (system Nat ⟨true, 0, 4⟩).During System.always .rx c c' ∧ c'.pool .rx = none ∧
      ∃ r, c'.st.history.getLast? = some r ∧ r.disconnects = false := by
  intro c c'
  obtain ⟨hcall, hduring, -, hdisc⟩ := asking_concluded
  exact ⟨(reaches_inherited.tail ⟨_, trivial, hcall⟩).trans hduring.run, hdisc,
    System.exec_after (by decide +kernel), System.during_after (by decide +kernel),
    Option.isNone_iff_eq_none.mp (by decide +kernel), _, rfl, rfl⟩

theorem bequeathed_abandoned : Abandoned bequeathed := by
  refine ⟨fun ℓ hlt => ?_, fun t => ?_⟩
  · have hcount : bequeathed.st.count = 1 := by decide +kernel
    obtain rfl : ℓ = 0 := by omega
    decide +kernel
  · cases t with
    | rx => exact Option.isNone_iff_eq_none.mp (by decide +kernel)
    | tx ℓ =>
      by_cases hℓ : ℓ = 0
      · subst hℓ
        exact Option.isNone_iff_eq_none.mp (by decide +kernel)
      · refine System.pool_after fun l hl => ?_
        have hthread : l.thread = .tx 0 := by
          simp only [List.flatten_cons, List.flatten_nil, System.turn, List.mem_append,
            List.mem_cons, List.mem_replicate, List.not_mem_nil, or_false] at hl
          rcases hl with (rfl | ⟨-, rfl⟩) | (rfl | ⟨-, rfl⟩) <;> rfl
        rw [hthread]
        exact fun h => hℓ (Tid.tx.inj h).symm

theorem concluded_at_the_end :
    (Answering (P := ⟨true, 0, 4⟩) Reply.Delivers ((system Nat ⟨true, 0, 4⟩).after bequeathed
      [.call .rx (.recv (.tryRecv false))])) ∧
    (∀ ℓ < concluded.st.count, concluded.st.gone ℓ = true) ∧
      Answering (P := ⟨true, 0, 4⟩) (·.disconnects = true)
        ((system Nat ⟨true, 0, 4⟩).after concluded
        [.call .rx (.recv (.recv false 3))]) := by
  obtain ⟨hcall, hduring, hback, hdisc⟩ := asking_concluded
  obtain ⟨hgone, -, hlater⟩ :=
    (disconnected_sound_final_reached reaches_inherited).1 _ _ _ rfl hcall
    hduring hback hdisc
  have hreached :=
    (disconnected_sound_final_reached reaches_bequeathed).2 bequeathed_abandoned false
    _ (System.exec_after (by decide +kernel))
  refine ⟨hreached.1 ⟨0, ⟨by decide +kernel, by decide +kernel, by decide +kernel⟩, ?_⟩, hgone,
    hlater concluded _ _ .refl rfl (System.exec_after (by decide +kernel))⟩
  rintro ⟨-, hp⟩
  exact absurd hp (by decide +kernel)

end Fanring.Mpsc
