import Fanring.Conc.System

/-!
# What a call answered, and when

Everything a thread does between two accesses is its own, so a call has returned as soon as it has
made its last access. `p.closing g` is the code `p` with its answer recorded at that moment: the
step that makes the last access also applies `g`, with the answer, to the state. Statements about
what calls have answered then have no gap in which a call has done all it will do and nobody
knows.

Code that makes no access at all records its answer in a step of its own. The rules below are for
the two ways code is put together: a block that is not the end of it (`Triple.closing_bind`), and
one access, which may be (`Triple.closing_atomic`).
-/

set_option autoImplicit false

namespace Fanring.Conc

namespace Prog

variable {σ α β : Type}

def isRet : Prog σ α → Bool
  | .ret _ => true
  | _ => false

/-- The state an access leaves, with the answer recorded if the code that is left is only that. -/
def land (g : α → σ → σ) : Prog σ α → σ → σ
  | .ret a, s => g a s
  | .act _ _, s => s
  | .loop _ _ _, s => s

/-- The code, with its answer recorded by its last access. -/
def closing : {α : Type} → (α → σ → σ) → Prog σ α → Prog σ Unit
  | _, g, .ret a => .act (fun _ s => some (g a s)) fun _ _ => .ret ()
  | _, g, .act f k =>
    .act (fun n s => (f n s).map ((k n s).land g)) fun n s =>
      if (k n s).isRet then .ret () else (k n s).closing g
  | _, g, .loop body b k => .loop body b fun c => (k c).closing g

theorem isRet_bind {p : Prog σ α} {k : α → Prog σ β} (hk : ∀ a, (k a).isRet = false) :
    (p.bind k).isRet = false := by
  cases p with
  | ret a => exact hk a
  | act f k' => rfl
  | loop body b k' => rfl

theorem land_of_isRet {g : α → σ → σ} {p : Prog σ α} (h : p.isRet = false) (s : σ) :
    p.land g s = s := by
  cases p with
  | ret a => exact absurd h (by simp [isRet])
  | act f k => rfl
  | loop body b k => rfl

/-- A block the code does not end with is not touched. -/
theorem closing_bind {g : β → σ → σ} {p : Prog σ α} {k : α → Prog σ β}
    (hk : ∀ a, (k a).isRet = false) :
    (p.bind k).closing g = p.bind fun a => (k a).closing g := by
  induction p with
  | ret a => rfl
  | act f k' ih =>
    simp only [bind, closing]
    congr 1
    · funext n s
      cases f n s with
      | none => rfl
      | some s' => exact congrArg some (land_of_isRet (isRet_bind hk) s')
    · funext n s
      rw [isRet_bind hk]
      exact ih n s hk
  | loop body b k' _ ih =>
    simp only [bind, closing]
    congr 1
    funext c
    exact ih c hk

/-- Code without loops, each of whose accesses changes the state as `φ` says. -/
def Straight (φ : σ → σ → Prop) : {α : Type} → Prog σ α → Prop
  | _, .ret _ => True
  | _, .act f k => (∀ n s s', f n s = some s' → φ s s') ∧ ∀ n s, (k n s).Straight φ
  | _, .loop _ _ _ => False

theorem Straight.bind {φ : σ → σ → Prop} {p : Prog σ α} {k : α → Prog σ β} (hp : p.Straight φ)
    (hk : ∀ a, (k a).Straight φ) : (p.bind k).Straight φ := by
  induction p with
  | ret a => exact hk a
  | act f k' ih => exact ⟨hp.1, fun n s => ih n s (hp.2 n s) hk⟩
  | loop body b k' => exact hp.elim

theorem Straight.atomic {φ : σ → σ → Prop} {f : σ → α × σ} (h : ∀ s, φ s (f s).2) :
    (Prog.atomic f).Straight φ :=
  ⟨fun _ s _ hs => Option.some.inj hs ▸ h s, fun _ _ => trivial⟩

theorem Straight.mono {φ ψ : σ → σ → Prop} {p : Prog σ α} (hp : p.Straight φ)
    (h : ∀ s s', φ s s' → ψ s s') : p.Straight ψ := by
  induction p with
  | ret a => trivial
  | act f k ih => exact ⟨fun n s s' hs => h s s' (hp.1 n s s' hs), fun n s => ih n s (hp.2 n s)⟩
  | loop body b k => exact hp.elim

theorem Straight.await {φ : σ → σ → Prop} {en : Nat → σ → Bool} {f : Nat → σ → α × σ}
    (h : ∀ n s, φ s (f n s).2) : (Prog.await en f).Straight φ := by
  refine ⟨fun n s s' hs => ?_, fun _ _ => trivial⟩
  obtain ⟨-, hs⟩ := Option.ite_none_right_eq_some.mp hs
  cases hs
  exact h n s

/-- What is left after one step is straight again. -/
theorem Straight.step {φ : σ → σ → Prop} {p p' : Prog σ α} {n : Nat} {s s' : σ}
    (h : p.Straight φ) (hs : p.step n s = some (p', s')) : φ s s' ∧ p'.Straight φ := by
  cases p with
  | ret a => cases hs
  | loop body b k => exact h.elim
  | act f k =>
    obtain ⟨s₂, hf, heq⟩ := Option.map_eq_some_iff.mp hs
    cases heq
    exact ⟨h.1 n s _ hf, h.2 n s⟩

/-- Code without loops, none of whose accesses ever has to wait; it may also come to a bad state. -/
def Prompt (bad : σ → Prop) : {α : Type} → Prog σ α → Prop
  | _, .ret _ => True
  | _, .act f k => (∀ s, ∃ n, (f n s).isSome) ∧
      ∀ n s s', f n s = some s' → bad s' ∨ (k n s).Prompt bad
  | _, .loop _ _ _ => False

namespace Prompt

variable {bad : σ → Prop}

theorem ret (a : α) : (Prog.ret a : Prog σ α).Prompt bad := trivial

theorem bind {p : Prog σ α} {k : α → Prog σ β} (hp : p.Prompt bad) (hk : ∀ a, (k a).Prompt bad) :
    (p.bind k).Prompt bad := by
  induction p with
  | ret a => exact hk a
  | act f k' ih =>
    exact ⟨hp.1, fun n s s' hs => (hp.2 n s s' hs).imp_right fun h => ih n s h hk⟩
  | loop body b k' => exact hp.elim

theorem atomic (f : σ → α × σ) : (Prog.atomic f).Prompt bad :=
  ⟨fun _ => ⟨0, rfl⟩, fun _ _ _ _ => .inr trivial⟩

/-- Code that ends in a bad state. -/
theorem fail {f : σ → σ} (hf : ∀ s, bad (f s)) (k : Unit → Prog σ α) :
    ((Prog.write f).bind k).Prompt bad :=
  ⟨fun _ => ⟨0, rfl⟩, fun _ s _ hs => .inl (Option.some.inj hs ▸ hf s)⟩

end Prompt

end Prog

/-- **Prompt code that keeps its contract returns**, if the invariant keeps it out of the bad
    states. -/
theorem wp.prompt {σ α : Type} {bad : σ → Prop} {C : Contract σ} {p : Prog σ α}
    {Q : α → σ → Prop} {s : σ} (hbad : ∀ s, C.inv s → ¬ bad s) (hp : p.Prompt bad)
    (h : wp C p Q s) : wp { C with goal := fun _ => False } p Q s := by
  induction p generalizing s with
  | ret a => exact h
  | act f k ih =>
    intro s₁ he
    refine ⟨fun _ => hp.1 s₁, fun n s₂ hf hc => ?_⟩
    obtain ⟨hi, hg, hw⟩ := (h s₁ he).2 n s₂ hf hc
    exact ⟨hi, hg, ih n s₁ ((hp.2 n s₁ s₂ hf).resolve_left (hbad s₂ hi)) hw⟩
  | loop body b k => exact hp.elim

/-- What every access of straight code keeps, the code keeps. -/
theorem Triple.straight {σ α : Type} {rely φ : σ → σ → Prop} {P : σ → Prop} {p : Prog σ α}
    (hP : (Contract.aside rely).Stable P) (hp : p.Straight φ)
    (hφ : ∀ s s', φ s s' → P s → P s') : Triple (.aside rely) P p fun _ => P := by
  induction p with
  | ret a => exact Triple.ret hP fun _ _ h => h
  | act f k ih =>
    exact Triple.act hP (fun s hg => absurd trivial hg) fun s n s' _ h hf _ =>
      ⟨trivial, trivial, ih n s (hp.2 n s) s' trivial (hφ s s' (hp.1 n s s' hf) h)⟩
  | loop body b k => exact hp.elim

/-- As long as a thread is in an operation whose code is straight, what is left of it is. -/
theorem System.During.straight {σ T Op : Type} [DecidableEq T] {S : System σ T Op}
    {ok : Config σ T → Label T Op → Prop} {t : T} {φ : σ → σ → Prop} {c c' : Config σ T}
    (h : S.During ok t c c') (hc : ∀ p, c.pool t = some p → p.Straight φ) :
    ∀ p, c'.pool t = some p → p.Straight φ := by
  induction h with
  | refl => exact hc
  | tail _ h' ih =>
    obtain ⟨hbusy, l, -, hl⟩ := h'
    intro p hp
    cases l with
    | call u op =>
      obtain ⟨hnone, -, rfl⟩ := System.exec_call hl
      have hne : t ≠ u := by
        rintro rfl
        simp [hnone] at hbusy
      simp only [Function.update_of_ne hne] at hp
      exact ih p hp
    | step u n =>
      obtain ⟨q, q', s', hq, hs, rfl⟩ := System.exec_step hl
      by_cases hne : t = u
      · subst hne
        simp only [Function.update_self] at hp
        have hq' := ((ih q hq).step hs).2
        cases q' with
        | ret a => cases hp
        | act f k =>
          cases hp
          exact hq'
        | loop body b k => exact hq'.elim
      · simp only [Function.update_of_ne hne] at hp
        exact ih p hp

variable {σ α β : Type}

/-- After an access from `s` to `s'` with `p` left to run: if that is only the answer, it is
    recorded in the same step and `Q` holds; otherwise the rest of the code ends in `Q`. -/
def Lands (C : Contract σ) (g : α → σ → σ) (Q : σ → Prop) : Prog σ α → σ → σ → Prop
  | .ret a, s, s' => C.inv (g a s') ∧ C.guar s (g a s') ∧ Q (g a s')
  | .act f k, s, s' =>
    C.inv s' ∧ C.guar s s' ∧ wp C ((Prog.act f k).closing g) (fun _ => Q) s'
  | .loop body b k, s, s' =>
    C.inv s' ∧ C.guar s s' ∧ wp C ((Prog.loop body b k).closing g) (fun _ => Q) s'

namespace Triple

variable {C : Contract σ} {P Q : σ → Prop}

theorem closing_bind {p : Prog σ α} {k : α → Prog σ β} {g : β → σ → σ} {R : α → σ → Prop}
    (hk : ∀ a, (k a).isRet = false) (hp : Triple C P p R)
    (hrest : ∀ a, Triple C (R a) ((k a).closing g) fun _ => Q) :
    Triple C P ((p.bind k).closing g) fun _ => Q := by
  rw [Prog.closing_bind hk]
  exact Triple.bind hp hrest

/-- One access, and what comes of it. -/
theorem closing_atomic {f : σ → α × σ} {k : α → Prog σ β} {g : β → σ → σ} (hP : C.Stable P)
    (hQ : C.Stable Q)
    (h : ∀ s n, C.inv s → P s → C.cond n s → Lands C g Q (k (f s).1) s (f s).2) :
    Triple C P (((Prog.atomic f).bind k).closing g) fun _ => Q := by
  refine act hP (fun _ _ _ _ => ⟨0, rfl⟩) fun s n s' hs hp hf hc => ?_
  have hlands := h s n hs hp hc
  have hf : (k (f s).1).land g (f s).2 = s' := Option.some.inj hf
  subst hf
  change C.inv ((k (f s).1).land g (f s).2) ∧ C.guar s ((k (f s).1).land g (f s).2) ∧
    wp C (if (k (f s).1).isRet then .ret () else (k (f s).1).closing g) (fun _ => Q)
      ((k (f s).1).land g (f s).2)
  generalize k (f s).1 = rest at hlands ⊢
  cases rest with
  | ret a =>
    obtain ⟨hi, hg, hq⟩ := hlands
    exact ⟨hi, hg, fun s' he => hQ.env he hi hq⟩
  | act f k => exact hlands
  | loop body b k => exact hlands

/-- Straight code that changes the state in one way only, whatever it answers. -/
theorem lands_straight {p : Prog σ α} {g : α → σ → σ} {φ : σ → σ → Prop}
    (hgoal : ∀ s, C.goal s) (hp : p.Straight φ) (hP : C.Stable P) (hQ : C.Stable Q)
    (hstep : ∀ s s', C.inv s → P s → φ s s' → C.inv s' ∧ C.guar s s' ∧ P s')
    (hend : ∀ a s s', C.inv s → P s → φ s s' → C.inv (g a s') ∧ C.guar s (g a s') ∧ Q (g a s')) :
    ∀ s s', C.inv s → P s → φ s s' → Lands C g Q p s s' := by
  induction p with
  | ret a => exact fun s s' hs h hφ => hend a s s' hs h hφ
  | act f k ih =>
    intro s s' hs h hφ
    obtain ⟨hi, hg, h'⟩ := hstep s s' hs h hφ
    refine ⟨hi, hg, ?_⟩
    refine act (P := P) hP (fun s hg => absurd (hgoal s) hg) (fun s n s₁ hs h hf _ => ?_) _ hi h'
    obtain ⟨s₂, hf', rfl⟩ := Option.map_eq_some_iff.mp hf
    have hlands := ih n s (hp.2 n s) hend s s₂ hs h (hp.1 n s s₂ hf')
    generalize k n s = rest at hlands ⊢
    cases rest with
    | ret a =>
      obtain ⟨hi, hg, hq⟩ := hlands
      exact ⟨hi, hg, fun s' he => hQ.env he hi hq⟩
    | act f k => exact hlands
    | loop body b k => exact hlands
  | loop body b k => exact hp.elim

end Triple

end Fanring.Conc
