import Fanring.Mpsc.Found

/-!
# Nobody sleeps through what it waits for

Whoever is asleep, or has left a waker, either is going to be woken by somebody who has not finished
yet, or has nothing to be woken for: the invariants of both sides say so (`Sleeping.reason`,
`Core.space`, and what `Resting` and `Idles` say of a pending poll). So where the other side is in
no operation, the second holds.
-/

set_option autoImplicit false

namespace Fanring.Mpsc

open Conc Chan

variable {V : Type} {P : Params} {s : Chan V} {ℓ : Nat}

/-! ## The receiver -/

/-- The receiver waits: it sleeps in a blocking receive, or its last operation was a poll that is
    pending, and its waker was not woken. -/
def Waits (c : Config (Chan V) Tid) : Prop :=
  c.st.data.sleep = .asleep ∨
    c.pool .rx = none ∧ c.st.receiverAlive = true ∧ c.st.history.getLast? = some (.poll none) ∧
      c.st.data.waker = true

/-- All senders have been dropped, and every remaining lane is empty. -/
def Chan.RanDry (s : Chan V) : Prop :=
  (∀ ℓ < s.count, s.gone ℓ = true) ∧
    ∀ ℓ, s.Registered ℓ → (s.ring ℓ).head = (s.ring ℓ).log.length

theorem Sleeping.returned (h : Sleeping s) : popped s.trace = s.returned.map Item.pair := by
  simpa [Ctx.base] using h.view.hand

/-- Nothing was signaled on a lane that is not marked and not read. -/
theorem Indexed.received {slot : Nat} {covered served : Prop} (h : Indexed s ℓ slot covered served)
    (hc : Core P s) (hshut : s.shut ℓ = false) (hret : popped s.trace = s.returned.map Item.pair)
    (hidle : s.ready.pending ℓ = false) : ¬ s.Unreceived ℓ := by
  intro hun
  have hlane := hc.lane ℓ
  have hlen : (ofLane ℓ (popped s.trace)).length < s.completed ℓ := by
    rw [hret]
    exact hun
  rw [hlane.popped_eq hshut, List.length_take, min_eq_left hlane.ok.head_le_length] at hlen
  have := (h.idle hidle).1
  have := hc.completed_le ℓ
  omega

/-- **Where there is nothing to receive, nothing is waiting to be received.** -/
theorem Quiesced.nothing {S : Setting} {x : Ctx V} (hq : Quiesced s.rx.book s)
    (hv : View S x s.rx s) (hx : x.closing = none ∧ x.exempt = none) (hc : Core P s)
    (hret : popped s.trace = s.returned.map Item.pair) :
    (∀ ℓ, s.Registered ℓ → ¬ s.Paused ℓ → ¬ s.Unreceived ℓ) ∧ ¬ s.RanDry := by
  refine ⟨fun ℓ hreg hp => ?_, fun ⟨hgone, hempty⟩ => ?_⟩
  · cases hst : s.stage ℓ with
    | retired => exact absurd hst hreg.2
    | pending =>
      exact (hv.index.fresh ℓ hreg.1 hst).received hc (hv.roster.fresh ℓ hreg.1 hst) hret
        (hq.2.1 ℓ hreg.1 hst)
    | adopted =>
      have hshut : s.shut ℓ = false := by
        by_contra hsh
        exact absurd (hv.closing ℓ hreg.1 hst (by simpa using hsh)) (by simp [hx.1])
      obtain ⟨e, he, rfl⟩ := hv.roster.adopted ℓ hreg.1 hst hshut
      have hunpaused : s.rx.book.paused (s.key e.ix).slot = false := by
        by_contra hpd
        exact hp ⟨hst, (Bool.not_eq_false _).mp hpd⟩
      exact (hv.index.held _ e he (by simp [hx.2])).received hc hshut hret
        (hq.1 _ e he hunpaused)
  · rcases hq.2.2 with hlive | ⟨ℓ, hlt, hst, -, hunread⟩
    · refine hlive ?_
      rw [hc.live, liveCount, Finset.card_eq_zero, Finset.filter_eq_empty_iff]
      intro ℓ hℓ
      simp [hgone ℓ (Finset.mem_range.mp hℓ)]
    · exact absurd (hempty ℓ ⟨hlt, hst⟩) hunread.ne

theorem Stuck.full (h : Stuck P ℓ s) (hc : Core P s) :
    (s.ring ℓ).log.length - (s.ring ℓ).released = (s.ring ℓ).cap := by
  have hok := (hc.lane ℓ).ok
  have := hok.log_le
  have := hok.cachedHead_le
  have := h.2.2
  omega

end Fanring.Mpsc
