import Fanring.Conc.Logic
import Mathlib.Data.List.Induction

/-!
# Recorded calls

What a piece of code does to a component is a sequence of calls and answers. `Prog.traced` runs a
call of any component and writes down that it is made and what it answers, in a log that nobody
else touches; the component's own state stays open to every other thread, so nothing is assumed
about what happens to it in between.

A protocol is then a relation `step` between phases, one for each event, and a log follows the
protocol if there is a `Path` through the phases along it. `Triple.traced` is the rule for one call:
it moves the code from phase to phase, whatever the component is. What the log says at every moment
of a run, not only at its end, comes out of `wp.among`.
-/

set_option autoImplicit false

namespace Fanring.Conc

variable {σ α β η φ : Type}

/-! ## Runs of one thread among others -/

/-- What is left of `p`, and the state, after any number of its own steps and of the others'. -/
inductive Among (rely : σ → σ → Prop) (p : Prog σ α) (s : σ) : Prog σ α → σ → Prop
  | refl : Among rely p s p s
  | own {p₁ p₂ : Prog σ α} {s₁ s₂ : σ} (n : Nat) (h : Among rely p s p₁ s₁)
      (step : p₁.step n s₁ = some (p₂, s₂)) : Among rely p s p₂ s₂
  | other {p₁ : Prog σ α} {s₁ s₂ : σ} (h : Among rely p s p₁ s₁) (step : rely s₁ s₂) :
      Among rely p s p₁ s₂

/-- **Code that meets its contract meets it at every moment of its runs.** -/
theorem wp.among {C : Contract σ} {rely : σ → σ → Prop} {p p' : Prog σ α} {Q : α → σ → Prop}
    {s s' : σ} (h : wp C p Q s) (hs : C.inv s)
    (hrely : ∀ s s', C.inv s → rely s s' → C.rely s s' ∧ C.inv s') (hcond : ∀ n s, C.cond n s)
    (hrefl : ∀ s, C.guar s s) (hrun : Among rely p s p' s') : C.inv s' ∧ wp C p' Q s' := by
  induction hrun with
  | refl => exact ⟨hs, h⟩
  | own n _ hstep ih =>
    obtain ⟨hi, -, hw⟩ := ih.2.step ih.1 hstep (hcond n _) hrefl
    exact ⟨hi, hw⟩
  | other _ hstep ih =>
    have hr := hrely _ _ ih.1 hstep
    exact ⟨hr.2, ih.2.env (.single hr)⟩

/-- The scheduler's choices drive the code alone. -/
def Prog.drive (p : Prog σ α) (s : σ) : List Nat → Option (Prog σ α × σ)
  | [] => some (p, s)
  | n :: ns => (p.step n s).bind fun r => r.1.drive r.2 ns

/-- What the code has answered, if it has. -/
def Prog.answer : {α : Type} → Prog σ α → Option α
  | _, .ret a => some a
  | _, _ => none

theorem Among.trans {rely : σ → σ → Prop} {p p₁ p₂ : Prog σ α} {s s₁ s₂ : σ}
    (h : Among rely p s p₁ s₁) (h' : Among rely p₁ s₁ p₂ s₂) : Among rely p s p₂ s₂ := by
  induction h' with
  | refl => exact h
  | own n _ hstep ih => exact .own n ih hstep
  | other _ hstep ih => exact .other ih hstep

theorem Among.of_drive {rely : σ → σ → Prop} {p p' : Prog σ α} {s s' : σ} {ns : List Nat}
    (h : p.drive s ns = some (p', s')) : Among rely p s p' s' := by
  induction ns generalizing p s with
  | nil =>
    cases h
    exact .refl
  | cons n ns ih =>
    obtain ⟨⟨p₁, s₁⟩, hstep, h⟩ := Option.bind_eq_some_iff.mp h
    exact (Among.own n .refl hstep).trans (ih h)

/-! ## A log beside the state -/

/-- The code on the first half of a pair. -/
def Prog.alongside : {α : Type} → Prog σ α → Prog (σ × η) α
  | _, .ret a => .ret a
  | _, .act f k => .act (fun n s => (f n s.1).map (·, s.2)) fun n s => (k n s.1).alongside
  | _, .loop body b k => .loop (fun b => (body b).alongside) b fun c => (k c).alongside

def record (e : η) : Prog (σ × List η) Unit := .write fun s => (s.1, s.2 ++ [e])

/-- A call of `p`, with the call and its answer in the log. -/
def Prog.traced (call : η) (answer : α → η) (p : Prog σ α) : Prog (σ × List η) α := do
  record call
  let a ← p.alongside
  record (answer a)
  pure a

/-- `p'` is `p` with entries into the log in between. -/
inductive Tracks : {α : Type} → Prog σ α → Prog (σ × List η) α → Prop
  | ret {α : Type} (a : α) : Tracks (.ret a) (.ret a)
  | act {α : Type} {f : Nat → σ → Option σ} {k : Nat → σ → Prog σ α}
      {k' : Nat → σ × List η → Prog (σ × List η) α} (h : ∀ n s l, Tracks (k n s) (k' n (s, l))) :
      Tracks (.act f k) (.act (fun n s => (f n s.1).map (·, s.2)) k')
  | loop {α β γ : Type} {body : β → Prog σ (β ⊕ γ)} {b : β} {k : γ → Prog σ α}
      {body' : β → Prog (σ × List η) (β ⊕ γ)} {k' : γ → Prog (σ × List η) α}
      (hbody : ∀ b, Tracks (body b) (body' b)) (hk : ∀ c, Tracks (k c) (k' c)) :
      Tracks (.loop body b k) (.loop body' b k')
  | record {α : Type} {p : Prog σ α} {p' : Prog (σ × List η) α} (e : η) (h : Tracks p p') :
      Tracks p ((Conc.record e).bind fun _ => p')

namespace Tracks

variable {p : Prog σ α} {p' : Prog (σ × List η) α}

theorem bind {f : α → Prog σ β} {f' : α → Prog (σ × List η) β} (h : Tracks p p')
    (hf : ∀ a, Tracks (f a) (f' a)) : Tracks (p.bind f) (p'.bind f') := by
  induction h with
  | ret a => exact hf a
  | act _ ih => exact .act fun n s l => ih n s l hf
  | loop hbody _ _ ih => exact .loop hbody fun c => ih c hf
  | record e _ ih => exact .record e (ih hf)

theorem alongside (p : Prog σ α) : Tracks (η := η) p p.alongside := by
  induction p with
  | ret a => exact .ret a
  | act f k ih => exact .act fun n s _ => ih n s
  | loop body b k ihb ihk => exact .loop ihb ihk

theorem traced (call : η) (answer : α → η) (p : Prog σ α) : Tracks p (p.traced call answer) := by
  have hanswer : ∀ a, Tracks (Prog.ret (σ := σ) a)
      ((Conc.record (answer a)).bind fun _ => .ret a) :=
    fun a => .record (answer a) (.ret a)
  have h := (alongside p).bind hanswer
  rw [p.bind_ret] at h
  exact .record call h

theorem oracle : Tracks (Prog.oracle (σ := σ)) (Prog.oracle (σ := σ × List η)) :=
  .act (f := fun _ s => some s) fun n _ _ => .ret n

theorem iterate {γ : Type} {body : β → Prog σ (β ⊕ γ)} {body' : β → Prog (σ × List η) (β ⊕ γ)}
    (h : ∀ b, Tracks (body b) (body' b)) (b : β) :
    Tracks (Prog.iterate body b) (Prog.iterate body' b) :=
  .loop h .ret

/-- A step of the code is a step of the code with its log. -/
theorem step {rely : σ × List η → σ × List η → Prop} {p₁ : Prog σ α} {s s₁ : σ} {n : Nat}
    (h : Tracks p p') (hstep : p.step n s = some (p₁, s₁)) (l : List η) :
    ∃ p₁' l', Among rely p' (s, l) p₁' (s₁, l') ∧ Tracks p₁ p₁' := by
  induction h generalizing l with
  | ret a => exact absurd hstep (by simp [Prog.step])
  | act h =>
    simp only [Prog.step, Option.map_eq_some_iff, Prod.mk.injEq] at hstep
    obtain ⟨s₂, hf, rfl, rfl⟩ := hstep
    exact ⟨_, l, .own n .refl (by simp [Prog.step, hf]), h n s l⟩
  | loop hbody hk =>
    simp only [Prog.step, Option.some.injEq, Prod.mk.injEq] at hstep
    obtain ⟨rfl, rfl⟩ := hstep
    refine ⟨_, l, .own n .refl rfl, (hbody _).bind fun r => ?_⟩
    cases r with
    | inl b => exact .loop hbody hk
    | inr c => exact hk c
  | record e _ ih =>
    obtain ⟨p₁', l', hrun, h'⟩ := ih hstep (l ++ [e])
    exact ⟨p₁', l', (Among.own 0 .refl rfl).trans hrun, h'⟩

/-- **The log changes nothing**: what the code does on its own, it does with its log. -/
theorem among {p₁ : Prog σ α} {s s₁ : σ} (h : Tracks p p')
    (hrun : Among (fun _ _ => True) p s p₁ s₁) (l : List η) :
    ∃ p₁' l', Among (fun s s' => s'.2 = s.2) p' (s, l) p₁' (s₁, l') ∧ Tracks p₁ p₁' := by
  induction hrun with
  | refl => exact ⟨p', l, .refl, h⟩
  | own n _ hstep ih =>
    obtain ⟨p₁', l₁, hrun, h₁⟩ := ih
    obtain ⟨p₂', l₂, hrun', h₂⟩ := h₁.step hstep l₁
    exact ⟨p₂', l₂, hrun.trans hrun', h₂⟩
  | other _ _ ih =>
    obtain ⟨p₁', l₁, hrun, h₁⟩ := ih
    exact ⟨p₁', l₁, .other hrun rfl, h₁⟩

/-- Code that has answered has at most entries left to make. -/
theorem answered {a : α} {rely : σ × List η → σ × List η → Prop} (h : Tracks (.ret a) p') (s : σ)
    (l : List η) : ∃ l', Among rely p' (s, l) (.ret a) (s, l') := by
  generalize hp : Prog.ret a = p at h
  induction h generalizing l with
  | ret b =>
    cases hp
    exact ⟨l, .refl⟩
  | act _ => cases hp
  | loop _ _ => cases hp
  | record e _ ih =>
    obtain ⟨l', hrun⟩ := ih (l ++ [e]) hp
    exact ⟨l', (Among.own 0 .refl rfl).trans hrun⟩

end Tracks

/-! ## Protocols -/

/-- The log leads from one phase to another, event by event. -/
inductive Path (step : φ → η → φ → Prop) (start : φ) : List η → φ → Prop
  | nil : Path step start [] start
  | snoc {l : List η} {a b : φ} {e : η} (h : Path step start l a) (next : step a e b) :
      Path step start (l ++ [e]) b

namespace Path

variable {step : φ → η → φ → Prop} {a b c : φ} {l l' : List η} {e : η}

/-- Where a log that follows the protocol came from. -/
theorem last (h : Path step a l c) :
    (l = [] ∧ c = a) ∨ ∃ l₁ b e, l = l₁ ++ [e] ∧ Path step a l₁ b ∧ step b e c := by
  cases h with
  | nil => exact .inl ⟨rfl, rfl⟩
  | snoc h next => exact .inr ⟨_, _, _, rfl, h, next⟩

theorem snoc_iff : Path step a (l ++ [e]) c ↔ ∃ b, Path step a l b ∧ step b e c := by
  refine ⟨fun h => ?_, fun ⟨b, h, next⟩ => .snoc h next⟩
  rcases h.last with ⟨hl, -⟩ | ⟨l₁, b, e', hl, h, next⟩
  · exact absurd hl (by simp)
  · obtain ⟨rfl, he⟩ := List.append_inj' hl rfl
    cases he
    exact ⟨b, h, next⟩

theorem append_iff : Path step a (l ++ l') c ↔ ∃ b, Path step a l b ∧ Path step b l' c := by
  induction l' using List.reverseRecOn generalizing c with
  | nil =>
    refine ⟨fun h => ⟨c, by simpa using h, .nil⟩, fun ⟨b, h, h'⟩ => ?_⟩
    rcases h'.last with ⟨-, rfl⟩ | ⟨l₁, d, e, hl, -⟩
    · simpa using h
    · exact absurd hl (by simp)
  | append_singleton l' e ih =>
    simp only [← List.append_assoc, snoc_iff, ih]
    exact ⟨fun ⟨d, ⟨b, h, h'⟩, next⟩ => ⟨b, h, d, h', next⟩,
      fun ⟨b, h, d, h', next⟩ => ⟨d, ⟨b, h, h'⟩, next⟩⟩

/-- Every event of the log was allowed when it came. -/
theorem allowed (h : Path step a l c) (hl : l' ++ [e] <+: l) :
    ∃ b d, Path step a l' b ∧ step b e d := by
  obtain ⟨rest, rfl⟩ := hl
  obtain ⟨d, h, -⟩ := append_iff.mp h
  obtain ⟨b, h, next⟩ := snoc_iff.mp h
  exact ⟨b, d, h, next⟩

end Path

/-- The contract of code whose log follows a protocol: others leave the log alone. -/
def Contract.following (step : φ → η → φ → Prop) (start : φ) : Contract (σ × List η) where
  inv s := ∃ a, Path step start s.2 a
  rely s s' := s'.2 = s.2
  guar _ _ := True
  cond _ _ := True
  goal _ := True

/-- The log says that the code is in phase `a`. -/
def In (step : φ → η → φ → Prop) (start a : φ) (s : σ × List η) : Prop := Path step start s.2 a

namespace Triple

variable {step : φ → η → φ → Prop} {start a : φ}

theorem stable_log (P : List η → Prop) :
    (Contract.following (σ := σ) step start).Stable fun s => P s.2 := by
  intro s s' _ _ hr h
  rwa [show s'.2 = s.2 from hr]

theorem stable_in (a : φ) :
    (Contract.following (σ := σ) step start).Stable (In step start a) :=
  stable_log (Path step start · a)

/-- The component's own steps say nothing. -/
theorem alongside (P : List η → Prop) (p : Prog σ α) :
    Triple (.following step start) (fun s => P s.2) p.alongside fun _ s => P s.2 := by
  induction p with
  | ret a => exact Triple.ret (stable_log P) fun _ _ h => h
  | act f k ih =>
    refine Triple.act (stable_log P) (fun _ hg => absurd trivial hg) fun s n s' hs hp hf _ => ?_
    obtain ⟨s₁, -, rfl⟩ := Option.map_eq_some_iff.mp hf
    exact ⟨hs, trivial, ih n s.1 _ hs hp⟩
  | loop body b k ihb ihk =>
    refine fun s hs hp => ⟨Unit, fun _ _ => False, fun _ _ s => P s.2, fun _ s => P s.2,
      ⟨fun _ => ⟨_, fun _ h => h.elim⟩⟩, fun s' he => ⟨(), (stable_log P).env he hs hp⟩,
      fun _ b s hs hp => (ihb b s hs hp).mono hs fun r s _ hr => ?_, fun c s hs hp => ihk c s hs hp⟩
    cases r with
    | inl b => exact ⟨(), fun hg => absurd trivial hg, hr⟩
    | inr c => exact hr

theorem record {e : η} {b : φ} (next : step a e b) :
    Triple (.following step start) (In step start a) (record (σ := σ) e)
      fun _ => In step start b :=
  Triple.atomic (stable_in a) (fun _ => stable_in b) fun _ _ _ h _ =>
    ⟨⟨b, .snoc h next⟩, trivial, .snoc h next⟩

/-- **One call**: the phase before it allows it, and every answer leads to a phase. -/
theorem traced {call : η} {answer : α → η} {b : φ} {c : α → φ} {p : Prog σ α}
    (hcall : step a call b) (hanswer : ∀ x, step b (answer x) (c x)) :
    Triple (.following step start) (In step start a) (p.traced call answer)
      fun x => In step start (c x) := by
  refine (record hcall).bind fun _ => ?_
  refine (alongside (Path step start · b) p).bind fun x => ?_
  exact (record (hanswer x)).bind fun _ => Triple.ret (stable_in (c x)) fun _ _ h => h

end Triple

/-- **Every moment of a run follows the protocol**, and what code with a log ends in holds when it
    has answered. -/
theorem Triple.among {step : φ → η → φ → Prop} {start : φ} {p p' : Prog (σ × List η) α}
    {Q : α → σ × List η → Prop} {s : σ} {s' : σ × List η}
    (h : Triple (.following step start) (In step start start) p Q)
    (hrun : Among (fun s s' => s'.2 = s.2) p (s, []) p' s') :
    (∃ a, Path step start s'.2 a) ∧ ∀ x, p' = .ret x → Q x s' := by
  have hs : (Contract.following step start).inv (s, ([] : List η)) := ⟨start, .nil⟩
  have hkept : ∀ s s' : σ × List η, (∃ a, Path step start s.2 a) → s'.2 = s.2 →
      s'.2 = s.2 ∧ ∃ a, Path step start s'.2 a := by
    intro s s' hs hr
    rw [hr]
    exact ⟨rfl, hs⟩
  obtain ⟨hi, hw⟩ := (h (s, []) hs .nil).among hs hkept (fun _ _ => trivial) (fun _ => trivial) hrun
  refine ⟨hi, fun x hx => ?_⟩
  subst hx
  exact hw s' (.refl s')

end Fanring.Conc
