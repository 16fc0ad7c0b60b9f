import Fanring.Conc.Return
import Fanring.Conc.Steps
import Fanring.Mpsc.Outline

/-!
# The MPSC channel: how many lanes, how many senders

What the two counters of the channel count. `registered_lanes` is checked against the bound of a
registration in the same locked section that registers the lane, so a registration never exceeds its
own bound, whatever the others do, and what it answers is what it did there. Between the receiver's
operations a lane that counts as registered is one the receiver holds or one that waits to be
adopted.
-/

set_option autoImplicit false

namespace Fanring.Mpsc

open Conc Chan

variable {V : Type} {P : Params} {S : Setting} {s s' : Chan V} {ℓ : Nat} {x : Ctx V}
  {rx : Receiver}

/-! ## The bound of a registration -/

/-- A step that registers no lane, or leaves at most `m` of them. -/
def Within (m : Nat) (s s' : Chan V) : Prop :=
  s'.count = s.count ∨ s'.count = s.count + 1 ∧ s'.registeredLanes ≤ m

theorem registerLocked_within (m capacity : Nat) (s : Chan V) :
    Within m s (Sender.registerLocked m capacity s).2 := by
  unfold Sender.registerLocked
  split
  · exact .inl rfl
  · split
    · exact .inl rfl
    · next hm => exact .inr ⟨rfl, Nat.lt_of_not_le hm⟩

/-- **Every step of a registration keeps to its bound.** -/
theorem register_straight (m capacity : Nat) :
    ((SendOp.register m capacity : SendOp V).code P ℓ).Straight (Within m) := by
  refine Prog.Straight.bind (Prog.Straight.bind (.atomic fun s => .inl rfl) fun alive => ?_)
    fun r => .atomic fun s => .inl rfl
  cases alive with
  | false => trivial
  | true =>
    refine Prog.Straight.bind (.atomic fun s => .inl rfl) fun registered => ?_
    show Prog.Straight _ (if m ≤ registered then _ else _)
    split
    · trivial
    · exact .atomic fun s => registerLocked_within m capacity s

/-- The steps leave the number of lanes alone. -/
def Idling (hs : List (Chan V × Chan V)) : Prop := ∀ h ∈ hs, h.2.count = h.1.count

/-- What a registration with bound `m` did in its steps, by its answer. -/
def Registers (m : Nat) (hs : List (Chan V × Chan V)) : SendReply → Prop
  | .registered k => ∃ before d d' after, hs = before ++ (d, d') :: after ∧
      d.receiverAlive = true ∧ d.count = k ∧ d'.count = k + 1 ∧
      d'.registeredLanes = d.registeredLanes + 1 ∧ d'.registeredLanes ≤ m ∧
      Idling before ∧ Idling after
  | .atCapacity => Idling hs ∧ ∃ h ∈ hs, m ≤ h.1.registeredLanes
  | .disconnected => Idling hs ∧ ∃ h ∈ hs, h.1.receiverAlive = false
  | _ => False

theorem Idling.append {hs hs' : List (Chan V × Chan V)} (h : Idling hs) (h' : Idling hs') :
    Idling (hs ++ hs') := by
  intro x hx
  rcases List.mem_append.mp hx with hx | hx
  · exact h x hx
  · exact h' x hx

theorem Idling.nil : Idling ([] : List (Chan V × Chan V)) := fun _ h => absurd h List.not_mem_nil

theorem Idling.one {s s' : Chan V} (h : s'.count = s.count) : Idling [(s, s')] := by
  simpa [Idling] using h

theorem Idling.same (s : Chan V) : Idling [(s, s)] := .one rfl

/-- Steps before and after that register nothing change nothing about what a registration did. -/
theorem Registers.surround {m : Nat} {hs b a : List (Chan V × Chan V)} {r : SendReply}
    (h : Registers m hs r) (hb : Idling b) (ha : Idling a) : Registers m (b ++ hs ++ a) r := by
  have hmem : ∀ x ∈ hs, x ∈ b ++ hs ++ a := fun x hx =>
    List.mem_append_left _ (List.mem_append_right _ hx)
  cases r with
  | registered k =>
    obtain ⟨before, d, d', after, rfl, halive, hk, hk', hone, hle, hbefore, hafter⟩ := h
    exact ⟨b ++ before, d, d', after ++ a, by simp, halive, hk, hk', hone, hle, hb.append hbefore,
      hafter.append ha⟩
  | atCapacity =>
    obtain ⟨hidle, x, hx, hle⟩ := h
    exact ⟨(hb.append hidle).append ha, x, hmem x hx, hle⟩
  | disconnected =>
    obtain ⟨hidle, x, hx, hdead⟩ := h
    exact ⟨(hb.append hidle).append ha, x, hmem x hx, hdead⟩
  | _ => exact h.elim

theorem registerLocked_registers (m capacity : Nat) (s : Chan V) :
    Registers m [(s, (Sender.registerLocked m capacity s).2)]
      (Sender.registerLocked m capacity s).1 := by
  unfold Sender.registerLocked
  split
  · next hdead => exact ⟨.one rfl, _, List.mem_singleton_self _, by simpa using hdead⟩
  · next halive =>
    split
    · next hm => exact ⟨.one rfl, _, List.mem_singleton_self _, hm⟩
    · next hm =>
      exact ⟨[], s, Sender.register capacity s, [], rfl, by simpa using halive, rfl, rfl, rfl,
        Nat.lt_of_not_le hm, .nil, .nil⟩

theorem registerSender_accounts (m capacity : Nat) :
    (Sender.registerSender m capacity : Prog (Chan V) SendReply).Accounts (Registers m) := by
  refine Prog.Accounts.bind (φ := fun hs alive => ∃ s, hs = [(s, s)] ∧ alive = s.receiverAlive)
    (.atomic fun s => ⟨s, rfl, rfl⟩) ?_
  rintro - alive ⟨s, rfl, rfl⟩
  split
  · refine Prog.Accounts.bind (φ := fun hs n => ∃ s, hs = [(s, s)] ∧ n = s.registeredLanes)
      (.atomic fun s => ⟨s, rfl, rfl⟩) ?_
    rintro - n ⟨s', rfl, rfl⟩
    split
    · next hm =>
      exact .ret ⟨(Idling.same s).append (.same s'), (s', s'), by simp, hm⟩
    · refine .atomic fun s₂ => ?_
      have h := (registerLocked_registers m capacity s₂).surround
        ((Idling.same s).append (.same s')) (a := []) .nil
      rw [List.append_nil] at h
      exact h
  · next hdead => exact .ret ⟨.same s, (s, s), by simp, by simpa using hdead⟩

/-- **A registration answers what it did.** -/
theorem register_accounts (m capacity : Nat) :
    ((SendOp.register m capacity : SendOp V).code P ℓ).Accounts fun hs _ =>
      ∃ before d d' r, hs = before ++ [(d, d')] ∧ d'.sent ℓ = some r ∧ Registers m hs r := by
  refine Prog.Accounts.bind (registerSender_accounts m capacity) fun hs r h => ?_
  refine .atomic fun s => ⟨hs, s, _, r, rfl, Function.update_self .., ?_⟩
  exact h.surround (b := []) .nil (.one rfl)

/-! ## Counting lanes -/

/-- The receiver holds exactly the lanes it has adopted. -/
theorem View.mem_held (hv : View S x rx s) (hclosing : x.closing = none) :
    ℓ ∈ rx.held.map (·.ix) ↔ ℓ < s.count ∧ s.stage ℓ = .adopted := by
  constructor
  · intro hm
    obtain ⟨lane, hl, rfl⟩ := List.mem_map.mp hm
    obtain ⟨slot, -, hl⟩ := Receiver.mem_held.mp hl
    obtain ⟨-, -, hlt, hst, -⟩ := hv.roster.held slot _ (Receiver.skel_lane hl)
    exact ⟨hlt, hst⟩
  · rintro ⟨hlt, hst⟩
    have hsh : s.shut ℓ = false := by
      by_contra hsh
      have := hv.closing ℓ hlt hst (by simpa using hsh)
      exact absurd (hclosing.symm.trans this) (by simp)
    obtain ⟨e, he, hix⟩ := hv.roster.adopted ℓ hlt hst hsh
    obtain ⟨lane, hl, rfl⟩ := Option.map_eq_some_iff.mp he
    exact List.mem_map.mpr
      ⟨lane, Receiver.mem_held.mpr ⟨_, (hv.roster.slot_lt _ _ he).1, hl⟩, hix⟩

/-- The lanes that are registered are the ones the receiver holds and the pending ones. -/
theorem View.laneCount (hv : View S x rx s) (hclosing : x.closing = none) (hc : Core P s) :
    laneCount s.count s.stage = rx.held.length + s.registry.pending.length := by
  have hnodup : (rx.held.map (·.ix) ++ s.registry.pending).Nodup := by
    refine List.nodup_append.mpr ⟨hv.held_nodup, hc.pending_nodup, fun a ha b hb heq => ?_⟩
    subst heq
    have hst := ((hv.mem_held hclosing).mp ha).2
    cases hst.symm.trans ((hc.mem_pending a).mp hb).2
  have heq : (Finset.range s.count).filter (s.stage · ≠ .retired) =
      (rx.held.map (·.ix) ++ s.registry.pending).toFinset := by
    ext ℓ
    simp only [Finset.mem_filter, Finset.mem_range, List.mem_toFinset, List.mem_append,
      hv.mem_held hclosing, hc.mem_pending]
    cases s.stage ℓ <;> simp
  rw [Mpsc.laneCount, heq, List.toFinset_card_of_nodup hnodup, List.length_append, List.length_map]

/-! ## Every run -/

/-- The senders that have not been dropped. -/
def undropped (s : Chan V) : Finset Nat := (Finset.range s.count).filter (s.gone · = false)

/-- A sender between its operations has been dropped when its end of the ring was closed. -/
theorem Idles.gone (h : Idles P ℓ s) (hc : Core P s) :
    s.gone ℓ = (s.ring ℓ).producerDropped := by
  cases hg : s.gone ℓ with
  | false => exact (h.sends hg).dropped.symm
  | true => exact ((hc.lane ℓ).dropMarked (hc.gone ℓ hg).1).symm

/-- **Registrations keep to their bounds, and the counters count.** In every run: a registration
    with bound `m` that has returned answered that it registered lane `k`, and did so in one of its
    steps and left at most `m` registered lanes there, or it answered that it did not, and none of
    its steps did; a step of a registration that registers a lane leaves at most `m` registered
    lanes whether the call has returned or not; and whenever the receiver is there and between
    operations, the registered lanes are the ones it holds and the pending ones, and the live
    senders are those that have not been dropped. -/
theorem registration_counts {c : Config (Chan V) Tid} (h : Reaches V P c) :
    (∀ ℓ m capacity c₁ c₂ hs,
      (system V P).exec c (.call (.tx ℓ) (.send (.register m capacity))) = some c₁ →
      (system V P).Takes (.tx ℓ) c₁ hs c₂ → c₂.pool (.tx ℓ) = none →
      ∃ r, c₂.st.sent ℓ = some r ∧ Registers m hs r) ∧
    (∀ ℓ m capacity c₁ c₂ c₃ n,
      (system V P).exec c (.call (.tx ℓ) (.send (.register m capacity))) = some c₁ →
      (system V P).During System.always (.tx ℓ) c₁ c₂ →
      (system V P).exec c₂ (.step (.tx ℓ) n) = some c₃ →
      c₃.st.count ≠ c₂.st.count → c₃.st.registeredLanes ≤ m) ∧
    (c.pool .rx = none → c.st.receiverAlive = true →
      c.st.registeredLanes = c.st.rx.held.length + c.st.registry.pending.length ∧
      c.st.liveSenders = (undropped c.st).card ∧
      ∀ ℓ < c.st.count, c.pool (.tx ℓ) = none →
        (ℓ ∈ undropped c.st ↔ (c.st.ring ℓ).producerDropped = false)) := by
  refine ⟨?_, ?_, ?_⟩
  · intro ℓ m capacity c₁ c₂ hs hcall htakes hback
    obtain ⟨before, d, d', r, rfl, hsent, hr⟩ :=
      htakes.of_call (register_accounts (P := P) m capacity) hcall hback
    exact ⟨r, htakes.last hback ▸ hsent, hr⟩
  · intro ℓ m capacity c₁ c₂ c₃ n hcall hduring hstep hne
    obtain ⟨-, -, rfl⟩ := System.exec_call hcall
    have hstraight : ∀ p, (Function.update c.pool (.tx ℓ)
        ((SendOp.register m capacity : SendOp V).code P ℓ).settle) (.tx ℓ) = some p →
        p.Straight (Within m) := by
      intro p hp
      rw [Function.update_self] at hp
      cases hp
      exact register_straight m capacity
    obtain ⟨p, p', s', hp, hs, rfl⟩ := System.exec_step hstep
    rcases ((hduring.straight hstraight p hp).step hs).1 with hsame | ⟨-, hle⟩
    · exact absurd hsame hne
    · exact hle
  · intro hrx halive
    have hgood := h.good
    have hcore : Core P c.st := hgood.1.core
    have hidle := hgood.2 .rx
    rw [hrx] at hidle
    have hview := (Rests.between hidle halive).view
    refine ⟨hcore.registered.trans (hview.laneCount rfl hcore), hcore.live, fun ℓ hℓ hpool => ?_⟩
    have htx := hgood.2 (.tx ℓ)
    rw [hpool] at htx
    rw [← Idles.gone (htx hℓ) hcore, undropped, Finset.mem_filter, Finset.mem_range]
    exact ⟨fun h => h.2, fun h => ⟨hℓ, h⟩⟩

/-- A second sender is registered and adopted, dropped again, and its lane retired. -/
def outlived : Config (Chan Nat) Tid :=
  (system Nat ⟨true, 0, 4⟩).after (start Nat ⟨true, 0, 4⟩) (List.flatten [
    System.turn (.tx 0) (.send (.register 2 4)) 4, System.turn .rx (.recv (.tryRecv false)) 9,
    System.turn (.tx 1) (.send .drop) 10, System.turn .rx (.recv (.tryRecv false)) 29])

/-- The bound of two then lets one more sender in, and the counters have come down. -/
theorem registration_counts_outlived :
    let S := system Nat ⟨true, 0, 4⟩
    let c₁ := S.after outlived [.call (.tx 0) (.send (.register 2 4))]
    let c₂ := S.after c₁ (List.replicate 4 (.step (.tx 0) 0))
    c₂.st.sent 0 = some (.registered 2) ∧ (∃ hs, Registers 2 hs (.registered 2) ∧
      S.Takes (.tx 0) c₁ hs c₂) ∧
    outlived.st.count = 2 ∧ outlived.st.registeredLanes = 1 ∧
    outlived.st.registeredLanes = outlived.st.rx.held.length +
      outlived.st.registry.pending.length ∧
    outlived.st.liveSenders = (undropped outlived.st).card := by
  intro S c₁ c₂
  have hreach : Reaches Nat ⟨true, 0, 4⟩ outlived := System.run_after (by decide +kernel)
  obtain ⟨hanswer, -, hcount⟩ := registration_counts hreach
  have hduring : S.During System.always (.tx 0) c₁ c₂ := System.during_after (by decide +kernel)
  obtain ⟨hs, htakes⟩ := hduring.takes
  have hsent : c₂.st.sent 0 = some (.registered 2) := by decide +kernel
  obtain ⟨r, hr, hregisters⟩ := hanswer 0 2 4 c₁ c₂ hs (System.exec_after (by decide +kernel))
    htakes (Option.isNone_iff_eq_none.mp (by decide +kernel))
  cases hsent.symm.trans hr
  obtain ⟨hlanes, hsenders, -⟩ := hcount (Option.isNone_iff_eq_none.mp (by decide +kernel))
    (by decide +kernel)
  exact ⟨hsent, ⟨hs, hregisters, htakes⟩, by decide +kernel, by decide +kernel, hlanes, hsenders⟩

end Fanring.Mpsc
