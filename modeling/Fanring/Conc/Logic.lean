import Fanring.Conc.Prog
import Mathlib.Logic.Relation
import Mathlib.Order.WellFounded

/-!
# Rely and guarantee

The weakest precondition of a thread's code among other threads. A `Contract` says what the
thread may count on: an invariant `inv` of every state, what the others' steps do (`rely`), the
condition its own steps are taken under (`cond`); and what it owes them: `guar` of each step it
takes. `wp C p Q s` says that from `s` every step of `p`, with any number of the others' steps
in between, keeps the invariant and the guarantee, and that `Q` holds of the answer when `p`
returns and stays true under the others' steps.

As long as `C.goal` is false the code also goes on: each loop carries a variant in a well-founded
order and no access on the way blocks. So code under a goal that is never true returns, and code
under one that always is need not. `wp.terminates` is what that buys.

A `Triple` is the same judgement over every state an assertion holds of. Its rules follow the
nodes of `Prog`; the assertions in between have to be stable (`Stable`), which is where the
others' steps are paid for, once per assertion.
-/

set_option autoImplicit false

namespace Fanring.Conc

variable {σ α β γ : Type}

/-- What one thread relies on and what it owes. -/
structure Contract (σ : Type) where
  inv : σ → Prop
  rely : σ → σ → Prop
  guar : σ → σ → Prop
  /-- The condition on the scheduler's choice and the state before each of its steps. -/
  cond : Nat → σ → Prop
  /-- Once this holds, the code no longer has to return. -/
  goal : σ → Prop

namespace Contract

/-- What any number of the others' steps do. -/
def Env (C : Contract σ) : σ → σ → Prop :=
  Relation.ReflTransGen fun s s' => C.rely s s' ∧ C.inv s'

/-- An assertion no step of the others can make false. -/
def Stable (C : Contract σ) (P : σ → Prop) : Prop :=
  ∀ s s', C.inv s → C.inv s' → C.rely s s' → P s → P s'

theorem Env.refl {C : Contract σ} (s : σ) : C.Env s s := Relation.ReflTransGen.refl

theorem Env.trans {C : Contract σ} {s₁ s₂ s₃ : σ} (h₁ : C.Env s₁ s₂) (h₂ : C.Env s₂ s₃) :
    C.Env s₁ s₃ := Relation.ReflTransGen.trans h₁ h₂

theorem Env.inv {C : Contract σ} {s s' : σ} (h : C.Env s s') (hs : C.inv s) : C.inv s' := by
  induction h with
  | refl => exact hs
  | tail _ h _ => exact h.2

theorem Stable.env {C : Contract σ} {P : σ → Prop} (hP : C.Stable P) {s s' : σ}
    (h : C.Env s s') (hs : C.inv s) (hp : P s) : P s' := by
  induction h with
  | refl => exact hp
  | tail h' h ih => exact hP _ _ (Env.inv h' hs) h.2 h.1 ih

/-- The assertion holds, and goes on to hold whatever the others do. -/
def Lasting (C : Contract σ) (P : σ → Prop) (s : σ) : Prop := ∀ s', C.Env s s' → P s'

theorem Lasting.now {C : Contract σ} {P : σ → Prop} {s : σ} (h : C.Lasting P s) : P s :=
  h s (.refl s)

theorem Lasting.stable {C : Contract σ} {P : σ → Prop} : C.Stable (C.Lasting P) :=
  fun _ _ _ hs' hr h s₂ h₂ => h s₂ (.head ⟨hr, hs'⟩ h₂)

theorem Stable.and {C : Contract σ} {P Q : σ → Prop} (hP : C.Stable P) (hQ : C.Stable Q) :
    C.Stable fun s => P s ∧ Q s :=
  fun s s' hs hs' hr h => ⟨hP s s' hs hs' hr h.1, hQ s s' hs hs' hr h.2⟩

theorem Stable.pure {C : Contract σ} (p : Prop) : C.Stable fun _ => p :=
  fun _ _ _ _ _ h => h

end Contract

open Contract

/-! ## Weakest preconditions -/

/-- From `s`, `p` keeps the contract and ends in `Q`. -/
def wp (C : Contract σ) : {α : Type} → Prog σ α → (α → σ → Prop) → σ → Prop
  | _, .ret a, Q, s => ∀ s', C.Env s s' → Q a s'
  | _, .act f k, Q, s => ∀ s₁, C.Env s s₁ →
      (¬ C.goal s₁ → ∃ n, (f n s₁).isSome) ∧
      ∀ n s₂, f n s₁ = some s₂ → C.cond n s₁ →
        C.inv s₂ ∧ C.guar s₁ s₂ ∧ wp C (k n s₁) Q s₂
  | _, @Prog.loop _ _ β γ body b k, Q, s =>
      -- `ι` orders the rounds; code that need not return may take one point for it
      ∃ (ι : Type) (lt : ι → ι → Prop) (I : ι → β → σ → Prop) (J : γ → σ → Prop),
        WellFounded lt ∧
        (∀ s', C.Env s s' → ∃ i, I i b s') ∧
        (∀ i b s, C.inv s → I i b s →
          wp C (body b) (fun r s => match r with
            | .inl b' => ∃ i', (¬ C.goal s → lt i' i) ∧ I i' b' s
            | .inr c => J c s) s) ∧
        ∀ c s, C.inv s → J c s → wp C (k c) Q s

theorem wp.env {C : Contract σ} {p : Prog σ α} {Q : α → σ → Prop} {s s' : σ}
    (h : wp C p Q s) (he : C.Env s s') : wp C p Q s' := by
  cases p with
  | ret a => exact fun s₁ h₁ => h s₁ (he.trans h₁)
  | act f k => exact fun s₁ h₁ => h s₁ (he.trans h₁)
  | loop body b k =>
    obtain ⟨ι, lt, I, J, hwf, hb, hbody, hk⟩ := h
    exact ⟨ι, lt, I, J, hwf, fun s₁ h₁ => hb s₁ (he.trans h₁), hbody, hk⟩

theorem wp.mono {C : Contract σ} {p : Prog σ α} {Q Q' : α → σ → Prop} {s : σ}
    (h : wp C p Q s) (hs : C.inv s) (hQ : ∀ a s, C.inv s → Q a s → Q' a s) :
    wp C p Q' s := by
  induction p generalizing s with
  | ret a => exact fun s' he => hQ a s' (he.inv hs) (h s' he)
  | act f k ih =>
    intro s₁ he
    refine ⟨(h s₁ he).1, fun n s₂ hf hc => ?_⟩
    obtain ⟨hi, hg, hw⟩ := (h s₁ he).2 n s₂ hf hc
    exact ⟨hi, hg, ih n s₁ hw hi hQ⟩
  | loop body b k _ ih =>
    obtain ⟨ι, lt, I, J, hwf, hb, hbody, hk⟩ := h
    exact ⟨ι, lt, I, J, hwf, hb, hbody, fun c s hs hJ => ih c (hk c s hs hJ) hs hQ⟩

theorem wp.bind {C : Contract σ} {p : Prog σ α} {f : α → Prog σ β} {Q : β → σ → Prop} {s : σ}
    (hs : C.inv s) (h : wp C p (fun a s => wp C (f a) Q s) s) : wp C (p.bind f) Q s := by
  induction p generalizing s with
  | ret a => exact h s (.refl s)
  | act g k ih =>
    intro s₁ he
    refine ⟨(h s₁ he).1, fun n s₂ hf hc => ?_⟩
    obtain ⟨hi, hg, hw⟩ := (h s₁ he).2 n s₂ hf hc
    exact ⟨hi, hg, ih n s₁ hi hw⟩
  | loop body b k _ ih =>
    obtain ⟨ι, lt, I, J, hwf, hb, hbody, hk⟩ := h
    exact ⟨ι, lt, I, J, hwf, hb, hbody, fun c s hs hJ => ih c hs (hk c s hs hJ)⟩

/-- What holds when the code returns lasts. -/
theorem wp.lasting {C : Contract σ} {p : Prog σ α} {Q : α → σ → Prop} {s : σ}
    (h : wp C p Q s) : wp C p (fun a => C.Lasting (Q a)) s := by
  induction p generalizing s with
  | ret a => exact fun s' he s₂ h₂ => h s₂ (he.trans h₂)
  | act f k ih =>
    intro s₁ he
    refine ⟨(h s₁ he).1, fun n s₂ hf hc => ?_⟩
    obtain ⟨hi, hg, hw⟩ := (h s₁ he).2 n s₂ hf hc
    exact ⟨hi, hg, ih n s₁ hw⟩
  | loop body b k _ ih =>
    obtain ⟨ι, lt, I, J, hwf, hb, hbody, hk⟩ := h
    exact ⟨ι, lt, I, J, hwf, hb, hbody, fun c s hs hJ => ih c (hk c s hs hJ)⟩

/-- The contract of a thread that only looks at what the others leave it: it owes nothing and need
    not return. -/
def Contract.aside (rely : σ → σ → Prop) : Contract σ :=
  ⟨fun _ => True, rely, fun _ _ => True, fun _ _ => True, fun _ => True⟩

/-- **What code ends in by its contract, and what it ends in aside from it**, it ends in both. -/
theorem wp.aside {C : Contract σ} {rely : σ → σ → Prop} {p : Prog σ α} {Q R : α → σ → Prop} {s : σ}
    (hrely : ∀ s s', C.inv s → C.rely s s' → rely s s') (h : wp C p Q s) (hs : C.inv s)
    (h' : wp (.aside rely) p R s) : wp C p (fun a s => Q a s ∧ R a s) s := by
  have henv : ∀ {s s'}, C.inv s → C.Env s s' → (Contract.aside rely).Env s s' := by
    intro s s' hs he
    induction he with
    | refl => exact .refl s
    | tail he' h ih => exact .tail ih ⟨hrely _ _ (Env.inv he' hs) h.1, trivial⟩
  induction p generalizing s with
  | ret a => exact fun s' he => ⟨h s' he, h' s' (henv hs he)⟩
  | act f k ih =>
    intro s₁ he
    refine ⟨(h s₁ he).1, fun n s₂ hf hc => ?_⟩
    obtain ⟨hi, hg, hw⟩ := (h s₁ he).2 n s₂ hf hc
    obtain ⟨-, -, hw'⟩ := (h' s₁ (henv hs he)).2 n s₂ hf trivial
    exact ⟨hi, hg, ih n s₁ hw hi hw'⟩
  | loop body b k ihb ihk =>
    obtain ⟨ι, lt, I, J, hwf, hb, hbody, hk⟩ := h
    obtain ⟨ι', lt', I', J', -, hb', hbody', hk'⟩ := h'
    -- the rounds are counted by the first judgement, the second only comes along
    refine ⟨ι, lt, fun i b s => I i b s ∧ ∃ i', I' i' b s, fun c s => J c s ∧ J' c s, hwf,
      fun s' he => ?_, fun i b s hs hI => ?_,
      fun c s hs hJ => ihk c (hk c s hs hJ.1) hs (hk' c s trivial hJ.2)⟩
    · obtain ⟨i, hi⟩ := hb s' he
      exact ⟨i, hi, hb' s' (henv hs he)⟩
    · obtain ⟨hI, i', hI'⟩ := hI
      refine (ihb b (hbody i b s hs hI) hs (hbody' i' b s trivial hI')).mono hs fun r s _ hr => ?_
      cases r with
      | inl b' =>
        obtain ⟨⟨i₁, hlt, h₁⟩, i₂, -, h₂⟩ := hr
        exact ⟨i₁, hlt, h₁, i₂, h₂⟩
      | inr c => exact hr

/-- The contract of a thread that only looks at what the others leave it, and has to return unless
    the goal is reached. -/
def Contract.besides (rely : σ → σ → Prop) (goal : σ → Prop) : Contract σ :=
  ⟨fun _ => True, rely, fun _ _ => True, fun _ _ => True, goal⟩

/-- **Code that keeps its contract, and returns for a reason aside from it**, keeps its contract and
    returns. -/
theorem wp.besides {C : Contract σ} {rely : σ → σ → Prop} {goal : σ → Prop} {p : Prog σ α}
    {Q R : α → σ → Prop} {s : σ} (hrely : ∀ s s', C.inv s → C.rely s s' → rely s s')
    (h : wp C p Q s) (hs : C.inv s) (h' : wp (.besides rely goal) p R s) :
    wp { C with goal := goal } p (fun a s => Q a s ∧ R a s) s := by
  have henv : ∀ {s s'}, C.inv s → C.Env s s' → (Contract.besides rely goal).Env s s' := by
    intro s s' hs he
    induction he with
    | refl => exact .refl s
    | tail he' h ih => exact .tail ih ⟨hrely _ _ (Env.inv he' hs) h.1, trivial⟩
  induction p generalizing s with
  | ret a => exact fun s' he => ⟨h s' he, h' s' (henv hs he)⟩
  | act f k ih =>
    intro s₁ he
    refine ⟨(h' s₁ (henv hs he)).1, fun n s₂ hf hc => ?_⟩
    obtain ⟨hi, hg, hw⟩ := (h s₁ he).2 n s₂ hf hc
    obtain ⟨-, -, hw'⟩ := (h' s₁ (henv hs he)).2 n s₂ hf trivial
    exact ⟨hi, hg, ih n s₁ hw hi hw'⟩
  | loop body b k ihb ihk =>
    obtain ⟨ι, lt, I, J, -, hb, hbody, hk⟩ := h
    obtain ⟨ι', lt', I', J', hwf, hb', hbody', hk'⟩ := h'
    -- here the rounds are counted by the second judgement
    refine ⟨ι', lt', fun i b s => I' i b s ∧ ∃ i', I i' b s, fun c s => J c s ∧ J' c s, hwf,
      fun s' he => ?_, fun i b s hs hI => ?_,
      fun c s hs hJ => ihk c (hk c s hs hJ.1) hs (hk' c s trivial hJ.2)⟩
    · obtain ⟨i, hi⟩ := hb' s' (henv hs he)
      exact ⟨i, hi, hb s' he⟩
    · obtain ⟨hI', i', hI⟩ := hI
      refine (ihb b (hbody i' b s hs hI) hs (hbody' i b s trivial hI')).mono hs fun r s _ hr => ?_
      cases r with
      | inl b' =>
        obtain ⟨⟨i₁, -, h₁⟩, i₂, hlt, h₂⟩ := hr
        exact ⟨i₂, hlt, h₂, i₁, h₁⟩
      | inr c => exact hr

/-- **One step of the code keeps the contract**, and what is left still meets it. -/
theorem wp.step {C : Contract σ} {p p' : Prog σ α} {Q : α → σ → Prop} {s s' : σ} {n : Nat}
    (h : wp C p Q s) (hs : C.inv s) (hstep : p.step n s = some (p', s')) (hc : C.cond n s)
    (hrefl : ∀ s, C.guar s s) : C.inv s' ∧ C.guar s s' ∧ wp C p' Q s' := by
  cases p with
  | ret a => exact absurd hstep (by simp [Prog.step])
  | act f k =>
    simp only [Prog.step, Option.map_eq_some_iff, Prod.mk.injEq] at hstep
    obtain ⟨s₂, hf, rfl, rfl⟩ := hstep
    exact (h s (.refl s)).2 n s₂ hf hc
  | loop body b k =>
    simp only [Prog.step, Option.some.injEq, Prod.mk.injEq] at hstep
    obtain ⟨rfl, rfl⟩ := hstep
    refine ⟨hs, hrefl s, ?_⟩
    obtain ⟨ι, lt, I, J, hwf, hb, hbody, hk⟩ := h
    obtain ⟨i, hi⟩ := hb s (.refl s)
    refine wp.bind hs ((hbody i b s hs hi).mono hs fun r s₁ hs₁ hr => ?_)
    cases r with
    | inl b' =>
      obtain ⟨i', -, hi'⟩ := hr
      -- the rounds that follow start wherever the invariant still holds
      refine ⟨ι, lt, fun i b s => ∃ s₀, C.inv s₀ ∧ I i b s₀ ∧ C.Env s₀ s, J, hwf,
        fun s' he => ⟨i', s₁, hs₁, hi', he⟩, ?_, hk⟩
      rintro i b s hs ⟨s₀, hs₀, hI, he⟩
      refine ((hbody i b s₀ hs₀ hI).env he).mono hs fun r s₂ hs₂ hr => ?_
      cases r with
      | inl b' =>
        obtain ⟨i'', hlt, hi''⟩ := hr
        exact ⟨i'', hlt, s₂, hs₂, hi'', .refl s₂⟩
      | inr c => exact hr
    | inr c => exact hk c s₁ hs₁ hr

/-! ## Termination -/

/-- Every run of `p` from `s` among the others' steps reaches the goal, or is finite and never
    stuck. -/
inductive Terminates (C : Contract σ) : Prog σ α → σ → Prop
  | ret (a : α) (s : σ) : Terminates C (.ret a) s
  | step (p : Prog σ α) (s : σ)
      (enabled : ∀ s₁, C.Env s s₁ → ¬ C.goal s₁ → ∃ n, (p.step n s₁).isSome)
      (next : ∀ s₁ n p' s₂, C.Env s s₁ → p.step n s₁ = some (p', s₂) → C.cond n s₁ →
        ¬ C.goal s₂ → Terminates C p' s₂) : Terminates C p s

theorem Terminates.env {C : Contract σ} {p : Prog σ α} {s s' : σ} (h : Terminates C p s)
    (he : C.Env s s') : Terminates C p s' := by
  cases h with
  | ret a => exact .ret a s'
  | step _ _ enabled next =>
    exact .step p s' (fun s₁ h₁ => enabled s₁ (he.trans h₁))
      fun s₁ n p' s₂ h₁ => next s₁ n p' s₂ (he.trans h₁)

/-- Code that ends in `Q` and then goes on with what terminates from `Q`, terminates. -/
theorem wp.bind_terminates {C : Contract σ} {p : Prog σ α} {Q : α → σ → Prop}
    {f : α → Prog σ β} {s : σ} (hs : C.inv s) (hg : ¬ C.goal s) (h : wp C p Q s)
    (hf : ∀ a s, C.inv s → ¬ C.goal s → Q a s → Terminates C (f a) s) :
    Terminates C (p.bind f) s := by
  induction p generalizing s with
  | ret a => exact hf a s hs hg (h s (.refl s))
  | act g k ih =>
    refine .step _ s (fun s₁ he hg₁ => ?_) fun s₁ n p' s₂ he hstep hc hg₂ => ?_
    · obtain ⟨n, hn⟩ := (h s₁ he).1 hg₁
      exact ⟨n, by simpa [Prog.bind, Prog.step] using hn⟩
    · simp only [Prog.bind, Prog.step, Option.map_eq_some_iff, Prod.mk.injEq] at hstep
      obtain ⟨s₂, hgs, rfl, rfl⟩ := hstep
      obtain ⟨hi, -, hw⟩ := (h s₁ he).2 n s₂ hgs hc
      exact ih n s₁ hi hg₂ hw hf
  | loop body b k ihb ihk =>
    obtain ⟨ι, lt, I, J, hwf, hb, hbody, hk⟩ := h
    -- by induction on the variant, every round and what follows it terminates
    have rounds : ∀ i b s, C.inv s → ¬ C.goal s → I i b s → Terminates C
        ((body b).bind (Sum.elim (fun b' => .loop body b' fun c => (k c).bind f)
          fun c => (k c).bind f)) s := by
      intro i
      induction i using hwf.induction with
      | _ i ih =>
        intro b s hs hg hI
        refine ihb b hs hg (hbody i b s hs hI) fun r s₁ hs₁ hg₁ hr => ?_
        cases r with
        | inl b' =>
          obtain ⟨i', hlt, hI'⟩ := hr
          have hround := ih i' (hlt hg₁) b' s₁ hs₁ hg₁ hI'
          refine .step _ s₁ (fun s₂ _ _ => ⟨0, rfl⟩) fun s₂ n p' s₃ he hstep _ _ => ?_
          simp only [Sum.elim_inl, Prog.step, Option.some.injEq, Prod.mk.injEq] at hstep
          obtain ⟨rfl, rfl⟩ := hstep
          exact hround.env he
        | inr c => exact ihk c hs₁ hg₁ (hk c s₁ hs₁ hr) hf
    refine .step _ s (fun s₁ _ _ => ⟨0, rfl⟩) fun s₁ n p' s₂ he hstep _ hg₂ => ?_
    simp only [Prog.bind, Prog.step, Option.some.injEq, Prod.mk.injEq] at hstep
    obtain ⟨rfl, rfl⟩ := hstep
    obtain ⟨i, hi⟩ := hb s₁ he
    exact rounds i b s₁ (he.inv hs) hg₂ hi

/-- **Code that meets its contract returns, unless the goal is reached first.** -/
theorem wp.terminates {C : Contract σ} {p : Prog σ α} {Q : α → σ → Prop} {s : σ}
    (hs : C.inv s) (hg : ¬ C.goal s) (h : wp C p Q s) : Terminates C p s := by
  rw [← p.bind_ret]
  exact h.bind_terminates hs hg fun a s _ _ _ => .ret a s

/-! ## Triples -/

/-- From every state `P` holds of, `p` keeps the contract and ends in `Q`. -/
def Triple (C : Contract σ) (P : σ → Prop) (p : Prog σ α) (Q : α → σ → Prop) : Prop :=
  ∀ s, C.inv s → P s → wp C p Q s

namespace Triple

variable {C : Contract σ} {P P' : σ → Prop} {Q Q' : α → σ → Prop}

theorem conseq {p : Prog σ α} (h : Triple C P p Q) (hP : ∀ s, C.inv s → P' s → P s)
    (hQ : ∀ a s, C.inv s → Q a s → Q' a s) : Triple C P' p Q' :=
  fun s hs hp => (h s hs (hP s hs hp)).mono hs hQ

theorem pre {p : Prog σ α} (h : Triple C P p Q) (hP : ∀ s, C.inv s → P' s → P s) :
    Triple C P' p Q :=
  h.conseq hP fun _ _ _ hq => hq

theorem post {p : Prog σ α} (h : Triple C P p Q) (hQ : ∀ a s, C.inv s → Q a s → Q' a s) :
    Triple C P p Q' :=
  h.conseq (fun _ _ hp => hp) hQ

theorem ret {a : α} (hQ : C.Stable (Q a)) (h : ∀ s, C.inv s → P s → Q a s) :
    Triple C P (.ret a) Q :=
  fun s hs hp _ he => hQ.env he hs (h s hs hp)

theorem bind {p : Prog σ α} {f : α → Prog σ β} {R : β → σ → Prop} (hp : Triple C P p Q)
    (hf : ∀ a, Triple C (Q a) (f a) R) : Triple C P (p.bind f) R :=
  fun s hs h => wp.bind hs ((hp s hs h).mono hs fun a s hs hq => hf a s hs hq)

/-- What the first part ends in lasts until the second takes its first step. -/
theorem seq {p : Prog σ α} {f : α → Prog σ β} {R : β → σ → Prop} (hp : Triple C P p Q)
    (hf : ∀ a, Triple C (C.Lasting (Q a)) (f a) R) : Triple C P (p.bind f) R :=
  bind (fun s hs h => (hp s hs h).lasting) hf

/-- Code that only returns, from an assertion that lasts. -/
theorem done {a : α} (h : ∀ s, C.inv s → P s → Q a s) :
    Triple C (C.Lasting P) (.ret a) Q :=
  fun _ hs hp s' he => h s' (he.inv hs) (hp s' he)

/-- Code that ends by answering something else. -/
theorem map {p : Prog σ α} {g : α → β} {R : β → σ → Prop} (hp : Triple C P p Q)
    (h : ∀ a s, C.inv s → Q a s → R (g a) s) : Triple C P (p.bind fun a => .ret (g a)) R :=
  seq hp fun a => done (h a)

/-- What the assertion says about the values alone can be used to choose a rule. -/
theorem given {p : Prog σ α} {φ : Prop} (hφ : ∀ s, C.inv s → P s → φ) (h : φ → Triple C P p Q) :
    Triple C P p Q :=
  fun s hs hp => h (hφ s hs hp) s hs hp

/-- Code that goes on from an answer that is known. -/
theorem bind_known {p : Prog σ α} {f : α → Prog σ β} {a : α} {I : σ → Prop} {R : β → σ → Prop}
    (hp : Triple C P p fun r s => r = a ∧ I s) (hf : Triple C I (f a) R) :
    Triple C P (p.bind f) R := by
  refine bind hp fun r => ?_
  refine given (φ := r = a) (fun _ _ h => h.1) fun hr => ?_
  subst hr
  exact hf.pre fun _ _ h => h.2

/-- One access: the assertion before it is stable, and from it the access keeps the invariant and
    the guarantee and leads to what the rest of the code starts from. -/
theorem act {f : Nat → σ → Option σ} {k : Nat → σ → Prog σ α} (hP : C.Stable P)
    (henabled : ∀ s, ¬ C.goal s → C.inv s → P s → ∃ n, (f n s).isSome)
    (h : ∀ s n s', C.inv s → P s → f n s = some s' → C.cond n s →
      C.inv s' ∧ C.guar s s' ∧ wp C (k n s) Q s') : Triple C P (.act f k) Q := by
  intro s hs hp s₁ he
  have hs₁ := he.inv hs
  have hp₁ := hP.env he hs hp
  exact ⟨fun hg => henabled s₁ hg hs₁ hp₁, fun n s₂ hf hc => h s₁ n s₂ hs₁ hp₁ hf hc⟩

theorem atomic {f : σ → α × σ} (hP : C.Stable P) (hQ : ∀ a, C.Stable (Q a))
    (h : ∀ s n, C.inv s → P s → C.cond n s →
      C.inv (f s).2 ∧ C.guar s (f s).2 ∧ Q (f s).1 (f s).2) : Triple C P (.atomic f) Q := by
  refine act hP (fun _ _ _ _ => ⟨0, rfl⟩) fun s n s' hs hp hf hc => ?_
  simp only [Option.some.injEq] at hf
  subst hf
  obtain ⟨hi, hg, hq⟩ := h s n hs hp hc
  exact ⟨hi, hg, fun s' he => (hQ _).env he hi hq⟩

/-- What else one access brings about. -/
theorem atomic_gain {f : σ → α × σ} {R : α → σ → Prop} (h : Triple C P (.atomic f) Q)
    (hP : C.Stable P) (hR : ∀ a, C.Stable (R a))
    (hgain : ∀ s, C.inv s → P s → R (f s).1 (f s).2) :
    Triple C P (.atomic f) fun a s => Q a s ∧ R a s := by
  intro s hs hp s₁ he
  obtain ⟨hen, hstep⟩ := h s hs hp s₁ he
  refine ⟨hen, fun n s₂ hf hc => ?_⟩
  obtain ⟨hi, hg, hw⟩ := hstep n s₂ hf hc
  have hr := hgain s₁ (he.inv hs) (hP.env he hs hp)
  simp only [Option.some.injEq] at hf
  subst hf
  exact ⟨hi, hg, fun s' he' => ⟨hw s' he', (hR _).env he' hi hr⟩⟩

theorem read {f : σ → α} (hP : C.Stable P) (hQ : ∀ a, C.Stable (Q a))
    (hrefl : ∀ s, C.guar s s)
    (h : ∀ s n, C.inv s → P s → C.cond n s → Q (f s) s) : Triple C P (.read f) Q :=
  atomic hP hQ fun s n hs hp hc => ⟨hs, hrefl s, h s n hs hp hc⟩

theorem aside_atomic {rely : σ → σ → Prop} {f : σ → α × σ} (hP : (Contract.aside rely).Stable P)
    (hQ : ∀ a, (Contract.aside rely).Stable (Q a)) (h : ∀ s, P s → Q (f s).1 (f s).2) :
    Triple (.aside rely) P (.atomic f) Q :=
  atomic hP hQ fun s _ _ hp _ => ⟨trivial, trivial, h s hp⟩

theorem besides_atomic {rely : σ → σ → Prop} {goal : σ → Prop} {f : σ → α × σ}
    (hP : (Contract.besides rely goal).Stable P)
    (hQ : ∀ a, (Contract.besides rely goal).Stable (Q a))
    (h : ∀ s, P s → Q (f s).1 (f s).2) : Triple (.besides rely goal) P (.atomic f) Q :=
  atomic hP hQ fun s _ _ hp _ => ⟨trivial, trivial, h s hp⟩

/-- An access that may have to wait, in code that need not return. -/
theorem await {en : Nat → σ → Bool} {f : Nat → σ → α × σ} (hgoal : ∀ s, C.goal s)
    (hP : C.Stable P) (hQ : ∀ a, C.Stable (Q a))
    (h : ∀ s n, C.inv s → P s → en n s = true → C.cond n s →
      C.inv (f n s).2 ∧ C.guar s (f n s).2 ∧ Q (f n s).1 (f n s).2) :
    Triple C P (.await en f) Q := by
  refine act hP (fun s hg => absurd (hgoal s) hg) fun s n s' hs hp hf hc => ?_
  simp only [Option.ite_none_right_eq_some, Option.some.injEq] at hf
  obtain ⟨hen, rfl⟩ := hf
  obtain ⟨hi, hg, hq⟩ := h s n hs hp hen hc
  exact ⟨hi, hg, fun s' he => (hQ _).env he hi hq⟩

/-- A loop: an invariant of its rounds, which go down in a well-founded order until the goal is
    reached. -/
theorem iterate {body : β → Prog σ (β ⊕ γ)} {b : β} {Q : γ → σ → Prop} {ι : Type}
    {lt : ι → ι → Prop} (hwf : WellFounded lt) (I : ι → β → σ → Prop)
    (hI : C.Stable fun s => ∃ i, I i b s) (hP : ∀ s, C.inv s → P s → ∃ i, I i b s)
    (hQ : ∀ c, C.Stable (Q c))
    (hbody : ∀ i b, Triple C (I i b) (body b) fun r s => match r with
      | .inl b' => ∃ i', (¬ C.goal s → lt i' i) ∧ I i' b' s
      | .inr c => Q c s) : Triple C P (.iterate body b) Q := by
  intro s hs hp
  exact ⟨ι, lt, I, Q, hwf, fun s' he => hI.env he hs (hP s hs hp),
    fun i b s hs hI => hbody i b s hs hI, fun c s hs hq s' he => (hQ c).env he hs hq⟩

/-- A loop that need not end: an invariant of its rounds. -/
theorem iterate_free {body : β → Prog σ (β ⊕ γ)} {b : β} {Q : γ → σ → Prop}
    (hgoal : ∀ s, C.goal s) (I : β → σ → Prop) (hI : C.Stable (I b))
    (hP : ∀ s, C.inv s → P s → I b s) (hQ : ∀ c, C.Stable (Q c))
    (hbody : ∀ b, Triple C (I b) (body b) fun r s => match r with
      | .inl b' => I b' s
      | .inr c => Q c s) : Triple C P (.iterate body b) Q := by
  have hwf : WellFounded fun _ _ : Unit => False := ⟨fun _ => ⟨_, fun _ h => h.elim⟩⟩
  refine iterate hwf (fun _ => I) (fun s s' hs hs' hr ⟨_, h⟩ => ⟨(), hI s s' hs hs' hr h⟩)
    (fun s hs hp => ⟨(), hP s hs hp⟩) hQ fun _ b => (hbody b).post fun r s _ hr => ?_
  cases r with
  | inl b' => exact ⟨(), fun hg => absurd (hgoal s) hg, hr⟩
  | inr c => exact hr

/-- Code that does not go on ends in nothing. -/
theorem diverge (hgoal : ∀ s, C.goal s) : Triple C P (.diverge : Prog σ α) Q := by
  intro s _ _
  refine ⟨Unit, fun _ _ => False, fun _ _ _ => True,
    fun e => e.elim, ⟨fun _ => ⟨_, fun _ h => h.elim⟩⟩,
    fun _ _ => ⟨(), trivial⟩, fun _ _ _ _ _ s _ => ⟨(), fun hg => absurd (hgoal s) hg, trivial⟩,
    fun e => e.elim⟩

end Triple

end Fanring.Conc
