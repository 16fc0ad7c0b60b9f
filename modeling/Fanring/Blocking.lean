import Fanring.Conc.Logic

/-!
# The blocking loop

`blocking.rs`: spin, then park between attempts, for any endpoint. An endpoint is its own fields
`ε`, the operation's input `ι` and output `ο`, and the notifications `δ` it holds back while it is
registered. Time is the scheduler's: how often `SpinWait::step` says yes is a parameter, and whether
the deadline has passed is a choice at the two places the loop looks at the clock.
-/

set_option autoImplicit false

namespace Fanring

open Conc

inductive Attempt (ι ο : Type)
  | done (output : ο)
  | pending (input : ι)

inductive Recheck (ι ο δ : Type)
  | done (output : ο) (deferred : δ)
  | progressed (input : ι) (deferred : δ)
  | pending (input : ι)

/-- An endpoint operation that can block, with the cell it parks on. -/
structure Blocking (σ ε ι ο δ : Type) where
  attempt : ε → ι → Prog σ (Attempt ι ο × ε)
  recheck : ε → ι → Prog σ (Recheck ι ο δ × ε)
  notify : ε → δ → Prog σ Unit
  register : Prog σ Nat
  unregister : Nat → Prog σ Unit
  wait : ε → Nat → Prog σ Unit
  waitTimeout : ε → Nat → Prog σ Bool

namespace Blocking

variable {σ ε ι ο δ : Type} (B : Blocking σ ε ι ο δ)

/-- The spinning phase. -/
def spin : Nat → ε → ι → Prog σ (Attempt ι ο × ε)
  | 0, e, i => pure (.pending i, e)
  | spins + 1, e, i => do
    match ← B.attempt e i with
    | (.done o, e) => pure (.done o, e)
    | (.pending i, e) => spin spins e i

/-- The end of a round that found nothing: sleep, or give up at the deadline. -/
def park (deadline : Bool) (registration : Nat) (e : ε) (i : ι) :
    Prog σ ((ε × ι) ⊕ (Except ι ο × ε)) := do
  if deadline then
    let late ← Prog.oracle
    if late ≠ 0 then
      B.unregister registration
      pure (.inr (.error i, e))
    else if ← B.waitTimeout e registration then
      match ← B.attempt e i with
      | (.done o, e) => pure (.inr (.ok o, e))
      | (.pending i, e) => pure (.inr (.error i, e))
    else
      pure (.inl (e, i))
  else
    B.wait e registration
    pure (.inl (e, i))

/-- One round of the parking phase. -/
def round (deadline : Bool) (r : ε × ι) : Prog σ ((ε × ι) ⊕ (Except ι ο × ε)) := do
  match ← B.attempt r.1 r.2 with
  | (.done o, e) => pure (.inr (.ok o, e))
  | (.pending i, e) =>
    let registration ← B.register
    match ← B.recheck e i with
    | (.done o deferred, e) =>
      B.unregister registration
      B.notify e deferred
      pure (.inr (.ok o, e))
    | (.progressed i deferred, e) =>
      B.unregister registration
      B.notify e deferred
      pure (.inl (e, i))
    | (.pending i, e) => B.park deadline registration e i

/-- `blocking::run`. -/
def run (spins : Nat) (deadline : Bool) (e : ε) (i : ι) : Prog σ (Except ι ο × ε) := do
  match ← B.spin spins e i with
  | (.done o, e) => pure (.ok o, e)
  | (.pending i, e) => Prog.iterate (B.round deadline) (e, i)

end Blocking

/-! ## What the loop ends in -/

def Attempt.output {ι ο : Type} : Attempt ι ο → Option ο
  | .done o => some o
  | .pending _ => none

def Recheck.output {ι ο δ : Type} : Recheck ι ο δ → Option ο
  | .done o _ => some o
  | _ => none

namespace Blocking

variable {σ ε ι ο δ : Type} {B : Blocking σ ε ι ο δ} {C : Contract σ} {A : Option ο → σ → Prop}

/-- `A` says what holds with and without an outcome; nothing the endpoint does besides its attempts
    touches it. -/
structure Keeps (B : Blocking σ ε ι ο δ) (C : Contract σ) (A : Option ο → σ → Prop) : Prop where
  stable : ∀ o, C.Stable (A o)
  attempt : ∀ e i, Triple C (A none) (B.attempt e i) fun r => A r.1.output
  recheck : ∀ e i, Triple C (A none) (B.recheck e i) fun r => A r.1.output
  notify : ∀ o e d, Triple C (A o) (B.notify e d) fun _ => A o
  register : Triple C (A none) B.register fun _ => A none
  unregister : ∀ o n, Triple C (A o) (B.unregister n) fun _ => A o
  wait : ∀ e n, Triple C (A none) (B.wait e n) fun _ => A none
  waitTimeout : ∀ e n, Triple C (A none) (B.waitTimeout e n) fun _ => A none

theorem Keeps.spin (h : B.Keeps C A) (spins : Nat) (e : ε) (i : ι) :
    Triple C (A none) (B.spin spins e i) fun r => A r.1.output := by
  induction spins generalizing e i with
  | zero => exact Triple.ret (h.stable none) fun _ _ h => h
  | succ spins ih =>
    refine (h.attempt e i).bind fun ⟨r, e⟩ => ?_
    cases r with
    | done o => exact Triple.ret (h.stable _) fun _ _ h => h
    | pending i => exact ih e i

/-- What a round ends in. -/
def After (A : Option ο → σ → Prop) : (ε × ι) ⊕ (Except ι ο × ε) → σ → Prop
  | .inl _ => A none
  | .inr r => A r.1.toOption

theorem Keeps.after (h : B.Keeps C A) (r : (ε × ι) ⊕ (Except ι ο × ε)) : C.Stable (After A r) := by
  cases r <;> exact h.stable _

theorem Keeps.park (h : B.Keeps C A) (hgoal : ∀ s, C.goal s) (hrefl : ∀ s, C.guar s s)
    (deadline : Bool) (n : Nat) (e : ε) (i : ι) :
    Triple C (A none) (B.park deadline n e i) (After A) := by
  cases deadline with
  | false => exact (h.wait e n).bind fun _ => Triple.ret (h.after _) fun _ _ h => h
  | true =>
    refine Triple.bind (Q := fun _ => A none) (Triple.act (h.stable none)
      (fun s hg => absurd (hgoal s) hg) fun s n s' hs h' hf _ => ?_) fun late => ?_
    · cases hf
      exact ⟨hs, hrefl s, fun s' he => (h.stable none).env he hs h'⟩
    · split
      · exact (h.unregister none n).bind fun _ => Triple.ret (h.after _) fun _ _ h => h
      · refine (h.waitTimeout e n).bind fun timedOut => ?_
        cases timedOut with
        | false => exact Triple.ret (h.after _) fun _ _ h => h
        | true =>
          refine (h.attempt e i).bind fun ⟨r, e⟩ => ?_
          cases r <;> exact Triple.ret (h.after _) fun _ _ h => h

theorem Keeps.round (h : B.Keeps C A) (hgoal : ∀ s, C.goal s) (hrefl : ∀ s, C.guar s s)
    (deadline : Bool) (r : ε × ι) : Triple C (A none) (B.round deadline r) (After A) := by
  refine (h.attempt r.1 r.2).bind fun ⟨a, e⟩ => ?_
  cases a with
  | done o => exact Triple.ret (h.after _) fun _ _ h => h
  | pending i =>
    refine h.register.bind fun n => ?_
    refine (h.recheck e i).bind fun ⟨a, e⟩ => ?_
    cases a with
    | done o d =>
      exact (h.unregister _ n).bind fun _ => (h.notify _ e d).bind fun _ =>
        Triple.ret (h.after _) fun _ _ h => h
    | progressed i d =>
      exact (h.unregister _ n).bind fun _ => (h.notify _ e d).bind fun _ =>
        Triple.ret (h.after _) fun _ _ h => h
    | pending i => exact h.park hgoal hrefl deadline n e i

/-- **The blocking loop ends in what its attempts end in.** -/
theorem Keeps.run (h : B.Keeps C A) (hgoal : ∀ s, C.goal s) (hrefl : ∀ s, C.guar s s)
    (spins : Nat) (deadline : Bool) (e : ε) (i : ι) :
    Triple C (A none) (B.run spins deadline e i) fun r => A r.1.toOption := by
  refine (h.spin spins e i).bind fun ⟨a, e⟩ => ?_
  cases a with
  | done o => exact Triple.ret (h.stable _) fun _ _ h => h
  | pending i =>
    refine Triple.iterate_free hgoal (fun _ => A none) (h.stable none) (fun _ _ h => h)
      (fun r => h.stable _) fun r => (h.round hgoal hrefl deadline r).post fun a s _ ha => ?_
    cases a <;> exact ha

/-- **An endpoint whose attempts succeed does not wait.** -/
theorem run_at_once {I : σ → Prop} {Q : ο → ε → σ → Prop} {e : ε} {i : ι} (hI : C.Stable I)
    (hQ : ∀ o e, C.Stable (Q o e))
    (h : Triple C I (B.attempt e i) fun r s => ∃ o, r.1 = .done o ∧ Q o r.2 s)
    (spins : Nat) (deadline : Bool) :
    Triple C I (B.run spins deadline e i) fun r s => ∃ o, r.1 = .ok o ∧ Q o r.2 s := by
  have hstable : ∀ r : Except ι ο × ε, C.Stable fun s => ∃ o, r.1 = .ok o ∧ Q o r.2 s := by
    rintro r s s' hs hs' hr ⟨o, ho, hq⟩
    exact ⟨o, ho, hQ o _ s s' hs hs' hr hq⟩
  have hdone : ∀ (o : ο) (e : ε), Triple C
      (fun s => ∃ o', (Attempt.done o : Attempt ι ο) = .done o' ∧ Q o' e s)
      (.ret (.ok o, e)) fun r s => ∃ o, r.1 = (.ok o : Except ι ο) ∧ Q o r.2 s := by
    intro o e
    refine Triple.ret (hstable _) fun s _ hs => ?_
    obtain ⟨o', ho, hq⟩ := hs
    cases ho
    exact ⟨o, rfl, hq⟩
  cases spins with
  | succ spins =>
    unfold run spin
    simp only [Prog.bind_eq, Prog.bind_assoc]
    refine h.bind fun r => ?_
    obtain ⟨a, e'⟩ := r
    cases a with
    | done o => exact hdone o e'
    | pending i' =>
      intro s _ hs
      obtain ⟨o, ho, -⟩ := hs
      cases ho
  | zero =>
    -- the first round is the last one
    have hwf : WellFounded fun _ _ : Unit => False := ⟨fun _ => ⟨_, fun _ h => h.elim⟩⟩
    refine Triple.iterate hwf (fun _ b s => b = (e, i) ∧ I s) ?_ (fun _ _ hs => ⟨(), rfl, hs⟩)
      hstable fun _ b => ?_
    · rintro s s' hs hs' hr ⟨u, hb, hp⟩
      exact ⟨u, hb, hI s s' hs hs' hr hp⟩
    · refine Triple.given (φ := b = (e, i)) (fun _ _ hs => hs.1) fun hb => ?_
      subst hb
      refine Triple.bind (h.pre fun _ _ hs => hs.2) fun r => ?_
      obtain ⟨a, e'⟩ := r
      cases a with
      | done o =>
        intro s hs hd s' he
        obtain ⟨o', ho, hq⟩ := hd
        cases ho
        exact ⟨o, rfl, (hQ o e').env he hs hq⟩
      | pending i' =>
        intro s _ hs
        obtain ⟨o, ho, -⟩ := hs
        cases ho

end Blocking

end Fanring
