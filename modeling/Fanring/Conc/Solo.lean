import Fanring.Conc.Prog
import Mathlib.Tactic.Common

/-!
# Code run alone

What code does when no other thread takes a step while it runs. `Alone Q p s` says that `p`, run
from `s` under any choices of the scheduler, is never stuck, comes to an end, and ends in `Q`.
`p.Yields s a s'` is the case of one outcome. Both follow the code: `Alone.bind` and
`Yields.bind` for what comes after what, `Yields.atomic` for one access.
-/

set_option autoImplicit false

namespace Fanring.Conc

variable {σ α β : Type}

/-- Run alone from the state, the code comes to an end, and ends in `Q`. -/
inductive Alone (Q : α → σ → Prop) : Prog σ α → σ → Prop
  | ret (a : α) (s : σ) (holds : Q a s) : Alone Q (.ret a) s
  | step (p : Prog σ α) (s : σ) (enabled : ∃ n, (p.step n s).isSome)
      (next : ∀ n p' s', p.step n s = some (p', s') → Alone Q p' s') : Alone Q p s

/-- A step of code is a step of it with what comes after. -/
theorem Prog.step_bind {p : Prog σ α} {f : α → Prog σ β} {n : Nat} {s : σ}
    (hp : ∀ a, p ≠ .ret a) :
    (p.bind f).step n s = (p.step n s).map fun r => (r.1.bind f, r.2) := by
  cases p with
  | ret a => exact absurd rfl (hp a)
  | act g k => simp [Prog.bind, Prog.step, Function.comp_def]
  | loop body b k =>
    simp only [Prog.bind, Prog.step, Option.map_some, bind_assoc]
    congr 3
    funext r
    cases r <;> rfl

theorem Alone.bind {p : Prog σ α} {f : α → Prog σ β} {Q : α → σ → Prop} {R : β → σ → Prop}
    {s : σ} (h : Alone Q p s) (hf : ∀ a s, Q a s → Alone R (f a) s) :
    Alone R (p.bind f) s := by
  induction h with
  | ret a s hQ => exact hf a s hQ
  | step p s enabled _ ih =>
    have hp : ∀ a, p ≠ .ret a := by
      rintro a rfl
      obtain ⟨n, hn⟩ := enabled
      exact absurd hn (by simp [Prog.step])
    refine .step _ s ?_ fun n p' s' hstep => ?_
    · obtain ⟨n, hn⟩ := enabled
      exact ⟨n, by simpa [Prog.step_bind hp] using hn⟩
    · simp only [Prog.step_bind hp, Option.map_eq_some_iff, Prod.mk.injEq] at hstep
      obtain ⟨⟨p₁, s₁⟩, hstep, rfl, rfl⟩ := hstep
      exact ih n p₁ s₁ hstep

/-- Run alone from `s`, the code answers `a` and leaves `s'`, whatever the scheduler chooses. -/
def Prog.Yields (p : Prog σ α) (s : σ) (a : α) (s' : σ) : Prop :=
  Alone (fun a' s'' => a' = a ∧ s'' = s') p s

namespace Prog.Yields

theorem ret (a : α) (s : σ) : (Prog.ret a).Yields s a s := Alone.ret a s ⟨rfl, rfl⟩

theorem bind {p : Prog σ α} {f : α → Prog σ β} {s s₁ s₂ : σ} {a : α} {b : β}
    (hp : p.Yields s a s₁) (hf : (f a).Yields s₁ b s₂) : (p.bind f).Yields s b s₂ :=
  Alone.bind hp fun a' s' h => by
    obtain ⟨rfl, rfl⟩ := h
    exact hf

theorem atomic (f : σ → α × σ) (s : σ) : (Prog.atomic f).Yields s (f s).1 (f s).2 := by
  refine Alone.step _ s ⟨0, rfl⟩ fun n p' s' hstep => ?_
  simp only [Prog.atomic, Prog.step, Option.map_some, Option.some.injEq, Prod.mk.injEq] at hstep
  obtain ⟨rfl, rfl⟩ := hstep
  exact ret _ _

end Prog.Yields

end Fanring.Conc
