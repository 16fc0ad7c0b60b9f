import Fanring.Mpsc.Scan
import Fanring.Mpsc.Delivery

/-!
# A receive finds what is there

A lane with an unread value whose readiness is in reach of a collection: its bit is set, and the bit
of its page is, or it is in the rotation (`Target`). A receive that starts then comes to a value, of
this lane or of another one; it does not answer that there is none. A receive of one value returns
with it, whatever the senders do meanwhile. A bulk receive goes on as long as they keep it busy, so
what is said of it is that it receives something.

A signaled send that has returned leaves its lane in such a state, unless another sender of the same
page stands between the two marks of its own announcement: it has put its bit into a page that was
empty and has not put the page's bit into the group yet, and whoever comes second takes the page for
announced.
-/

set_option autoImplicit false

namespace Fanring.Mpsc

open Conc Chan

variable {V : Type} {P : Params} {s s' : Chan V} {ℓ : Nat} {rx : Receiver}

/-! ## Looking for a lane -/

/-- To receive something, given that this lane can be received from. -/
def Setting.seeking (ℓ : Nat) (q : Sought) : Setting := { aim := .target ℓ q }

/-- The receives that look once: those of one value, and the bulk receive. -/
inductive RecvOp.Tries : RecvOp V → Bool → Prop
  | tryRecv (tagged : Bool) : Tries (.tryRecv tagged) true
  | tryRecvFair (tagged : Bool) : Tries (.tryRecvFair tagged) true
  | tryRecvBatch (limit : Nat) (h : 0 < limit) : Tries (.tryRecvBatch limit) false

/-- The receives that take a value if there is one: besides those, the one that waits for it. -/
inductive RecvOp.Takes : RecvOp V → Bool → Prop
  | tries {op : RecvOp V} {must : Bool} (h : op.Tries must) : Takes op must
  | recv (tagged : Bool) (spins : Nat) : Takes (.recv tagged spins) true

/-- The answer carries a value. -/
def Reply.Delivers : Reply V → Prop
  | .recv (.ok _) => True
  | .batch output (.ok n) => 0 < n ∧ n = output.length
  | _ => False

/-- The receiver can find the lane when its next operation starts. -/
def Chan.InReach (s : Chan V) (ℓ : Nat) : Prop := Target s.rx.book .none ℓ (s.key ℓ) s

/-- What a receive that looks for the lane starts from. -/
def sought (s : Chan V) (ℓ : Nat) (must : Bool) : Sought :=
  ⟨s.key ℓ, (popped s.trace).length, must⟩

theorem Between.seeking (hb : Between false s) (ht : s.InReach ℓ) (must : Bool) :
    View (.seeking ℓ (sought s ℓ must)) (.holding [] false 0) s.rx s :=
  { hb.start with
    budget := fun h => by cases h
    swept := fun h => by cases h
    quiet := fun h => by cases h
    aim := ⟨le_rfl, ht⟩
    left := fun dry h => by cases h }

variable {q : Sought}

/-- The last answer is one of these. -/
def LastReply (A : Reply V → Prop) (s : Chan V) : Prop :=
  ∃ r, s.history.getLast? = some r ∧ A r

theorem LastReply.stable {S : Setting} {A : Reply V → Prop} :
    (recvC P S).Stable (LastReply A) :=
  recvC_stable fun _ _ _ hc hℓ ha h => by
    rw [LastReply, (ha.frame hc hℓ).history]
    exact h

theorem reply_last {S : Setting} {x : Ctx V} {r : Reply V} {A : Reply V → Prop}
    (hx : x.asleep = false) (hhand : x.hand = r.items.map Item.pair) (hr : A r) :
    Triple (recvC P S) (fun s => View S x rx s ∧ Labelled P r s) (rx.reply r)
      fun _ => LastReply A :=
  reply_spec hx hhand Labelled.kept LastReply.stable (fun _ hl i hi => (hl i hi).2)
    fun _ _ _ _ => ⟨r, List.getLast?_concat .., hr⟩

/-- The last answer carries a value. -/
def Received (s : Chan V) : Prop := ∃ r, s.history.getLast? = some r ∧ r.Delivers

/-- So it does, and more than `n` values were popped by now. -/
def Gained (n : Nat) (s : Chan V) : Prop := Received s ∧ n < (popped s.trace).length

theorem Gained.stable {S : Setting} {n : Nat} : (recvC P S).Stable (Gained (V := V) n) :=
  LastReply.stable.and (recvC_stable fun _ _ _ hc hℓ ha h => (ha.frame hc hℓ).trace ▸ h)

theorem reply_received {x : Ctx V} {r : Reply V} (hx : x.asleep = false) (hcaught : x.caught = true)
    (hhand : x.hand = r.items.map Item.pair) (hr : r.Delivers) :
    Triple (recvC P (.seeking ℓ q)) (fun s => View (.seeking ℓ q) x rx s ∧ Labelled P r s)
      (rx.reply r) fun _ => Gained q.popped := by
  refine reply_spec hx hhand Labelled.kept Gained.stable (fun _ hl i hi => (hl i hi).2)
    fun s _ hv _ => ⟨⟨r, List.getLast?_concat .., hr⟩, ?_⟩
  have haim := hv.aim
  simp only [Setting.seeking, AimOk, hcaught, if_true] at haim
  exact haim

/-- An attempt that looks for the lane answers a value. -/
theorem Returned.found {tagged : Bool} {r : Except RecvError (Item V)}
    (h : Returned P (.seeking ℓ q) tagged [] false rx s r) :
    ∃ item n, r = .ok item ∧ Genuine P tagged item s ∧
      View (.seeking ℓ q) (.holding [item.pair] true n) rx s := by
  match r with
  | .ok item =>
    obtain ⟨n, hg, hv⟩ := h
    exact ⟨item, n, rfl, hg, hv⟩
  | .error e =>
    obtain ⟨n, -, -, hex⟩ := h
    exact absurd (hex.target ℓ q rfl) (by simp)

theorem reply_found {tagged : Bool} {r : Except RecvError (Item V)} :
    Triple (recvC P (.seeking ℓ q)) (fun s => Returned P (.seeking ℓ q) tagged [] false rx s r)
      (rx.reply (.recv r)) fun _ => Gained q.popped := by
  intro s hs hr
  obtain ⟨item, n, rfl, hg, hv⟩ := hr.found
  exact reply_received (x := .holding [item.pair] true n)
    (r := .recv (.ok item)) rfl rfl rfl trivial
    s hs ⟨hv, .one rfl hg⟩

theorem reply_drained {limit : Nat} (hlimit : 0 < limit)
    {r : List (Item V) × Except RecvError Nat} :
    Triple (recvC P (.seeking ℓ q))
      (fun s => BatchReturned (.seeking ℓ q) limit none [] false rx s r)
      (rx.reply (.batch r.1 r.2)) fun _ => Gained q.popped := by
  rintro s hs ⟨hplain, n, hr⟩
  obtain ⟨output, result⟩ := r
  match result with
  | .error e =>
    obtain ⟨-, ⟨-, hex⟩, -⟩ := hr
    exact absurd (hex.target ℓ q rfl) (by simp)
  | .ok m =>
    obtain ⟨hm, hsome, b, -, hv⟩ := hr
    have hne : output ≠ [] := fun hnil => by
      rcases hsome hnil with h | h
      · omega
      · exact h.1 rfl
    refine reply_received (x := { Ctx.draining [] false n output with refused := b }) rfl
      (by simpa [Ctx.draining, Ctx.holding] using hne) rfl
      (r := .batch output (.ok m)) ⟨?_, hm⟩ s hs ⟨hv, fun i hi => ⟨?_, fun id hid => ?_⟩⟩
    · rw [hm]
      exact List.length_pos_iff.mpr hne
    · refine hs.core.popped_lt i.pair ?_
      rw [hv.hand]
      exact List.mem_append_right _ (List.mem_map_of_mem hi)
    · rw [hplain.2 i hi] at hid
      cases hid

theorem Setting.urgent_seeking {must : Bool} (hq : q.must = must) (c : Bool)
    (h : must = true → c = false) : (Setting.seeking ℓ q).Urgent c := by
  intro ℓ' q' ha hm
  cases ha
  exact h (hq ▸ hm)

/-- The first attempt of a receive that waits finds it. -/
theorem recvOutput_found (tagged : Bool) (spins : Nat) (hq : q.must = true) :
    Triple (recvC P (.seeking ℓ q)) (View (V := V) (.seeking ℓ q) (.holding [] false 0) rx)
      (rx.recvOutput P tagged spins) fun r s =>
        Returned P (.seeking ℓ q) tagged [] false r.2 s r.1 := by
  refine Triple.seq (tryRecvLoop_spec 0 rx false tagged
    (Setting.urgent_seeking hq false fun _ => rfl) fun h => by cases h) fun r => ?_
  obtain ⟨r, rx₁⟩ := r
  refine Triple.given (φ := ∃ item, r = .ok item) (fun s _ hr => ?_) ?_
  · obtain ⟨item, -, hok, -⟩ := hr.now.found
    exact ⟨item, hok⟩
  · rintro ⟨item, rfl⟩
    exact Triple.done fun s _ hr => hr

/-- **A receive that looks for a lane in reach answers a value.** -/
theorem RecvOp.Takes.spec {op : RecvOp V} {must : Bool} (hop : op.Takes must) (hq : q.must = must) :
    Triple (recvC P (.seeking ℓ q))
      (fun s => View (.seeking ℓ q) (.holding [] false 0) s.rx s) (op.code P) fun _ =>
        Gained q.popped := by
  refine Triple.bind (readRx_spec fun _ => View.stable) fun rx => ?_
  cases hop with
  | recv tagged spins => exact Triple.bind (recvOutput_found tagged spins hq) fun r => reply_found
  | tries hop =>
    cases hop with
    | tryRecv tagged =>
      exact Triple.bind (tryRecvOutput_spec tagged (Setting.urgent_seeking hq false fun _ => rfl)
        fun h => by cases h) fun r => reply_found
    | tryRecvFair tagged =>
      exact Triple.bind (tryRecvFairOutput_spec tagged
        (Setting.urgent_seeking hq false fun _ => rfl)) fun r => reply_found
    | tryRecvBatch limit hlimit =>
      refine Triple.bind (tryRecvBatch_spec limit none (fun h => by cases h) (fun c => ?_) rfl)
        fun r => reply_drained hlimit
      exact Setting.urgent_seeking hq c fun h => by cases h

/-- The call of such a receive in a run. -/
theorem seeking_call {c c₁ : Config (Chan V) Tid} {op : RecvOp V} {must : Bool} (h : Reaches V P c)
    (hop : op.Takes must) (hreach : c.st.InReach ℓ)
    (hcall : (system V P).exec c (.call .rx (.recv op)) = some c₁) :
    (outline V P false).Calling .rx (Setting.seeking ℓ (sought c.st ℓ must)).aim.goal
      (Gained (popped c.st.trace).length) c₁ := by
  obtain ⟨-, hmay, -⟩ := System.exec_call hcall
  refine h.good.calling hcall fun hidle => ?_
  have hb : Between false c.st := Rests.between hidle hmay
  exact hop.spec (q := sought c.st ℓ must) rfl c.st h.good.1 (hb.seeking hreach must)

/-- The receiver goes on taking steps. -/
def Goes {c : Config (Chan V) Tid} (r : (system V P).Forever System.always c) : Prop :=
  ∀ i, ∃ j, i ≤ j ∧ ∃ n, r.label j = .step .rx n

/-- **A receive with a lane in reach.** When it returns it has a value. If it is for one value it
    returns, and if not it receives something, however the others are scheduled. -/
theorem received_of_call {c c₁ : Config (Chan V) Tid} {op : RecvOp V} {must : Bool}
    (h : Reaches V P c) (hop : op.Takes must) (hreach : c.st.InReach ℓ)
    (hcall : (system V P).exec c (.call .rx (.recv op)) = some c₁) :
    (∀ c₂, (system V P).During System.always .rx c₁ c₂ → c₂.pool .rx = none →
      Gained (popped c.st.trace).length c₂.st) ∧
    ∀ r : (system V P).Forever System.always c₁, Goes r →
      ∃ i, (system V P).During System.always .rx c₁ (r.at_ i) ∧
        ((r.at_ i).pool .rx = none ∨
          must = false ∧ (popped c.st.trace).length < (popped (r.at_ i).st.trace).length) := by
  have hcalling := seeking_call h hop hreach hcall
  refine ⟨fun c₂ hduring hback => ?_, fun r hgoes => ?_⟩
  · have hend := (hcalling.during (hduring.mono fun c l _ => ok_always c l)).2
    rw [hback] at hend
    exact hend
  · obtain ⟨r', hat, hlabel⟩ := Forever.ok r
    obtain ⟨i, hduring, hend⟩ := hcalling.returns_during r' fun i => by
      obtain ⟨j, hij, n, hn⟩ := hgoes i
      exact ⟨j, hij, n, (hlabel j).trans hn⟩
    rw [hat] at hduring hend
    exact ⟨i, hduring.mono fun _ _ _ => trivial, hend⟩

/-! ## Signaled sends that have returned -/

/-- The lane holds a value that was pushed when a signaled send or a flush, which has returned,
    published. -/
def Chan.Unreceived (s : Chan V) (ℓ : Nat) : Prop :=
  (ofLane ℓ (s.returned.map Item.pair)).length < s.completed ℓ

/-- No sender of the lane's page stands between the two marks of an announcement. -/
def Chan.PageSettled (s : Chan V) (ℓ : Nat) : Prop :=
  ∀ ℓ' < s.count, s.phase ℓ' = .paged →
    (s.key ℓ').slot / lanesPerPage ≠ (s.key ℓ).slot / lanesPerPage

/-- A lane whose bit is set is covered, unless its page is being announced. -/
theorem Index.covered {k : Book} {exempt : Option Nat} (h : Index k exempt .none s)
    (hpage : s.PageSettled ℓ) (hbit : s.ready.laneBit (s.key ℓ).slot = true) :
    Covered k .none s (s.key ℓ).slot := by
  refine .inr (.inr ⟨hbit, .inr ⟨?_, fun _ h => by cases h⟩⟩)
  rcases h.page _ (Ready.page_ne_zero_of_laneBit hbit) with hcp | hbit | ⟨ℓ', hlt, hph, heq⟩
  · cases hcp
  · exact hbit
  · exact absurd heq (hpage ℓ' hlt hph)

/-- A lane that is registered and not paused is in the index, in the rotation if it is covered or
    served. -/
theorem Between.indexed (hb : Between false s) (hlt : ℓ < s.count) (hshut : s.shut ℓ = false)
    (hstage : s.stage ℓ ≠ .retired) (hpaused : ¬ s.Paused ℓ) :
    ∃ covered served, Indexed s ℓ (s.key ℓ).slot covered served ∧
      (covered → Covered s.rx.book .none s (s.key ℓ).slot) ∧
      (served → Covered s.rx.book .none s (s.key ℓ).slot) := by
  cases hst : s.stage ℓ with
  | retired => exact absurd hst hstage
  | pending =>
    exact ⟨_, _, hb.view.index.fresh ℓ hlt hst, fun h => (by cases h), False.elim⟩
  | adopted =>
    obtain ⟨e, he, rfl⟩ := hb.view.roster.adopted ℓ hlt hst hshut
    have hfree : s.rx.book.paused (s.key e.ix).slot = false := by
      by_contra hp
      exact hpaused ⟨hst, (Bool.not_eq_false _).mp hp⟩
    have hqueued : s.rx.book.paused (s.key e.ix).slot = true ∨ e.queued = true →
        Covered s.rx.book .none s (s.key e.ix).slot := fun h =>
      .inl ⟨e, he, h.resolve_left (by simp [hfree])⟩
    refine ⟨_, _, hb.view.index.held _ e he (by simp [Ctx.base]), fun h => hqueued ?_, hqueued⟩
    exact h.imp_right fun h => h.resolve_right (fun h => by cases h)

/-- Such a lane is in reach if it is marked, and if it is served once it was swapped. -/
theorem Between.inReach_of (hb : Between false s) (hc : Core P s) (hlt : ℓ < s.count)
    (hshut : s.shut ℓ = false) (hpaused : ¬ s.Paused ℓ)
    (hunread : (s.ring ℓ).head < (s.ring ℓ).tail) (hpage : s.PageSettled ℓ)
    (hmarked : ∀ {covered served : Prop}, Indexed s ℓ (s.key ℓ).slot covered served →
      s.ready.pending ℓ = true ∧ (s.phase ℓ = .swapped → served)) : s.InReach ℓ := by
  have hstage : s.stage ℓ ≠ .retired := fun hr => by
    have := ((hc.lane ℓ).retired hr hshut).2
    have := (hc.lane ℓ).ok.tail_le
    omega
  obtain ⟨covered, served, hi, hcov, hserved⟩ := hb.indexed hlt hshut hstage hpaused
  obtain ⟨hpending, hswapped⟩ := hmarked hi
  refine ⟨hlt, rfl, hstage, hshut, .inl hpending, hunread, fun hst => ?_, ?_⟩
  · by_contra hp
    exact hpaused ⟨hst, (Bool.not_eq_false _).mp hp⟩
  · rcases hi.marked hpending with h | h | h
    · exact hcov h
    · exact hb.view.index.covered hpage h
    · exact hserved (hswapped h)

theorem Between.inReach (hb : Between false s) (hc : Core P s) (hlt : ℓ < s.count)
    (hshut : s.shut ℓ = false) (hpaused : ¬ s.Paused ℓ) (hsent : s.Unreceived ℓ)
    (hpage : s.PageSettled ℓ) : s.InReach ℓ := by
  have hlane := hc.lane ℓ
  have hhead : (s.ring ℓ).head < s.completed ℓ := by
    have hpopped := hlane.popped_eq hshut
    have hlen : (ofLane ℓ (popped s.trace)).length < s.completed ℓ := by
      rw [hb.returned]
      exact hsent
    rw [hpopped, List.length_take, min_eq_left hlane.ok.head_le_length] at hlen
    exact hlen
  have hsignaled := hc.completed_le ℓ
  have htail := hlane.signaled_le
  -- the lane is marked, since what was signaled is not read
  refine hb.inReach_of hc hlt hshut hpaused (by omega) hpage fun hi => ⟨?_, fun hph => ?_⟩
  · by_contra hp
    have := (hi.idle (by simpa using hp)).1
    omega
  · exact (hi.swapped hph).resolve_right (by omega)

/-- **No false `Empty`.** If a signaled send or a flush on a lane that is neither paused nor closed
    has returned, with a value that was not received yet, then a `try_recv`, `try_recv_fair` or
    `try_recv_batch_into` that starts now answers a value and no error, provided that no sender of
    the lane's page is in the middle of announcing it. -/
theorem no_false_empty {c c₁ : Config (Chan V) Tid} {op : RecvOp V} {must : Bool}
    (h : Reaches V P c) (hop : op.Tries must)
    (hcall : (system V P).exec c (.call .rx (.recv op)) = some c₁)
    (hlt : ℓ < c.st.count) (hshut : c.st.shut ℓ = false) (hpaused : ¬ c.st.Paused ℓ)
    (hsent : c.st.Unreceived ℓ) (hpage : c.st.PageSettled ℓ) :
    (∀ c₂, (system V P).During System.always .rx c₁ c₂ → c₂.pool .rx = none →
      ∃ r, c₂.st.history.getLast? = some r ∧ r.Delivers) ∧
    ∀ r : (system V P).Forever System.always c₁, Goes r →
      ∃ i, (system V P).During System.always .rx c₁ (r.at_ i) ∧
        ((r.at_ i).pool .rx = none ∨
          must = false ∧ (popped c.st.trace).length < (popped (r.at_ i).st.trace).length) := by
  obtain ⟨hidle, hmay, -⟩ := System.exec_call hcall
  have hb : Between false c.st := h.between hidle hmay
  have hreach := hb.inReach h.good.1.core hlt hshut hpaused hsent hpage
  obtain ⟨hreturned, hreturns⟩ := received_of_call h (.tries hop) hreach hcall
  exact ⟨fun c₂ hrun hback => (hreturned c₂ hrun hback).1, hreturns⟩

/-- One value is sent, and a receive starts. -/
theorem no_false_empty_one :
    let S := system Nat ⟨false, 0, 4⟩
    let c := S.after (start Nat ⟨false, 0, 4⟩) (System.turn (.tx 0) (.send (.trySend 7)) 11)
    let c₁ := S.after c [.call .rx (.recv (.tryRecv false))]
    ∀ c₂, S.During System.always .rx c₁ c₂ → c₂.pool .rx = none →
      ∃ r, c₂.st.history.getLast? = some r ∧ r.Delivers := by
  intro S c c₁
  have hreach : Reaches Nat ⟨false, 0, 4⟩ c := System.run_after (by decide +kernel)
  have hcount : c.st.count = 1 := by decide +kernel
  refine (no_false_empty hreach (.tryRecv false) (System.exec_after (by decide +kernel)) (ℓ := 0)
    (by decide +kernel) (by decide +kernel) ?_ ?_ ?_).1
  · rintro ⟨-, hp⟩
    exact absurd hp (by decide +kernel)
  · show (ofLane 0 (c.st.returned.map Item.pair)).length < c.st.completed 0
    decide +kernel
  · intro ℓ' hlt hph
    obtain rfl : ℓ' = 0 := by omega
    exact absurd hph (by decide +kernel)

/-- The sender of lane 0 stands between its two marks when the sender of lane 1 sends. -/
def halfMarked : Config (Chan Nat) Tid :=
  (system Nat ⟨false, 0, 4⟩).after (start Nat ⟨false, 0, 4⟩) (List.flatten [
    System.turn (.tx 0) (.send (.register 100 4)) 4, System.turn (.tx 0) (.send (.trySend 7)) 7,
    System.turn (.tx 1) (.send (.trySend 9)) 10])

/-- **A sender in the middle of an announcement hides the values of its page.** The send on lane 1
    has returned, its value is not received, the lane is neither paused nor closed; and `try_recv`
    answers `Empty`. -/
theorem half_marked_page_hides_value :
    let S := system Nat ⟨false, 0, 4⟩
    let c₁ := S.after halfMarked [.call .rx (.recv (.tryRecv false))]
    let c₂ := S.after c₁ (List.replicate 9 (.step .rx 0))
    Reaches Nat ⟨false, 0, 4⟩ halfMarked ∧ halfMarked.pool (.tx 1) = none ∧
      halfMarked.st.sent 1 = some .ok ∧ halfMarked.st.Unreceived 1 ∧ ¬ halfMarked.st.Paused 1 ∧
      halfMarked.st.shut 1 = false ∧
      S.exec halfMarked (.call .rx (.recv (.tryRecv false))) = some c₁ ∧
      S.During System.always .rx c₁ c₂ ∧ c₂.pool .rx = none ∧
      ∃ r, c₂.st.history.getLast? = some (.recv (.error r)) ∧ r = .empty := by
  intro S c₁ c₂
  refine ⟨System.run_after (by decide +kernel), Option.isNone_iff_eq_none.mp (by decide +kernel),
    by decide +kernel, ?_, ?_, by decide +kernel, System.exec_after (by decide +kernel),
    System.during_after (by decide +kernel), Option.isNone_iff_eq_none.mp (by decide +kernel),
    .empty, rfl, rfl⟩
  · show (ofLane 1 (halfMarked.st.returned.map Item.pair)).length < halfMarked.st.completed 1
    decide +kernel
  · rintro ⟨-, hp⟩
    exact absurd hp (by decide +kernel)

end Fanring.Mpsc
