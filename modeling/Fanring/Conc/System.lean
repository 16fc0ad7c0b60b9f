import Fanring.Conc.Logic
import Mathlib.Logic.Function.Basic
import Mathlib.Data.Nat.Find

/-!
# Threads that share a state

A `System` is a set of threads that call operations on one shared state. A configuration is the
state and, for each thread, what is left of the operation it is in. One label is one transition:
a thread calls an operation, or the scheduler picks a thread and lets it take one step.

`exec` runs a schedule, so a concrete run is checked by evaluation. An `Outline` is a proof about
every run: an invariant, what each thread's steps guarantee the others, and for each operation a
triple from and back to what holds of a thread between operations. `Outline.good_run` is the
theorem that pays for it. The outline may restrict the runs it speaks of: `callable` and `cond`
are conditions on the state a call or a step is taken in.
-/

set_option autoImplicit false

namespace Fanring.Conc

variable {σ T Op : Type}

/-- The operations threads may call. -/
structure System (σ T Op : Type) where
  /-- Whether the thread may call the operation in this state. -/
  may : T → Op → σ → Bool
  code : T → Op → Prog σ Unit

structure Config (σ T : Type) where
  st : σ
  /-- What is left of the operation a thread is in; `none` between operations. -/
  pool : T → Option (Prog σ Unit)

inductive Label (T Op : Type)
  | call (t : T) (op : Op)
  | step (t : T) (n : Nat)

/-- The thread a transition is of. -/
def Label.thread {T Op : Type} : Label T Op → T
  | .call t _ => t
  | .step t _ => t

/-- A thread whose code has come to its end is between operations. -/
def Prog.settle : Prog σ Unit → Option (Prog σ Unit)
  | .ret _ => none
  | p => some p

namespace System

variable [DecidableEq T]

/-- The configuration after one transition, if it can be taken. -/
def exec (S : System σ T Op) (c : Config σ T) : Label T Op → Option (Config σ T)
  | .call t op =>
    match c.pool t with
    | none =>
      if S.may t op c.st then
        some ⟨c.st, Function.update c.pool t (S.code t op).settle⟩
      else none
    | some _ => none
  | .step t n =>
    match c.pool t with
    | none => none
    | some p => (p.step n c.st).map fun r => ⟨r.2, Function.update c.pool t r.1.settle⟩

/-- The configuration after a whole schedule. -/
def execAll (S : System σ T Op) : Config σ T → List (Label T Op) → Option (Config σ T)
  | c, [] => some c
  | c, l :: ls => (S.exec c l).bind fun c' => S.execAll c' ls

/-- Where a schedule leads; `c` itself if it cannot be run. -/
def after (S : System σ T Op) (c : Config σ T) (ls : List (Label T Op)) : Config σ T :=
  (S.execAll c ls).getD c

/-- `c'` is reached from `c` by transitions that each meet `ok`. -/
def Run (S : System σ T Op) (ok : Config σ T → Label T Op → Prop) :
    Config σ T → Config σ T → Prop :=
  Relation.ReflTransGen fun c c' => ∃ l, ok c l ∧ S.exec c l = some c'

/-- `c'` is reached from `c` while thread `t` is still in the operation it is in at `c`, or has
    returned from it by the last transition. -/
def During (S : System σ T Op) (ok : Config σ T → Label T Op → Prop) (t : T) :
    Config σ T → Config σ T → Prop :=
  Relation.ReflTransGen fun c c' => (c.pool t).isSome ∧ ∃ l, ok c l ∧ S.exec c l = some c'

/-- Every run is one that meets no condition. -/
def always (_ : Config σ T) (_ : Label T Op) : Prop := True

/-- `n` operations of thread `t`, all of one kind; before, between and during them the other threads
    take any transitions. -/
inductive Rounds (S : System σ T Op) (t : T) (kind : Op → Prop) :
    Nat → Config σ T → Config σ T → Prop
  | start (c : Config σ T) : S.Rounds t kind 0 c c
  | other {n : Nat} {c c₁ c₂ : Config σ T} {l : Label T Op} (h : S.Rounds t kind n c c₁)
      (ht : l.thread ≠ t) (hl : S.exec c₁ l = some c₂) : S.Rounds t kind n c c₂
  | call {n : Nat} {c c₁ c₂ c₃ : Config σ T} {op : Op} (h : S.Rounds t kind n c c₁) (hop : kind op)
      (hcall : S.exec c₁ (.call t op) = some c₂)
      (hrun : S.During always t c₂ c₃) (hback : c₃.pool t = none) :
      S.Rounds t kind (n + 1) c c₃

/-- A run without end: its configurations and the labels between them. -/
structure Forever (S : System σ T Op) (ok : Config σ T → Label T Op → Prop)
    (c : Config σ T) where
  at_ : Nat → Config σ T
  label : Nat → Label T Op
  start : at_ 0 = c
  met : ∀ i, ok (at_ i) (label i)
  next : ∀ i, S.exec (at_ i) (label i) = some (at_ (i + 1))

/-- A call and the first `n` steps of it, with nothing in between. -/
def turn (t : T) (op : Op) (n : Nat) : List (Label T Op) :=
  .call t op :: List.replicate n (.step t 0)

theorem Run.mono {S : System σ T Op} {ok ok' : Config σ T → Label T Op → Prop}
    (hok : ∀ c l, ok c l → ok' c l) {c c' : Config σ T} (h : S.Run ok c c') : S.Run ok' c c' := by
  induction h with
  | refl => exact .refl
  | tail _ h ih =>
    obtain ⟨l, hl, he⟩ := h
    exact .tail ih ⟨l, hok _ l hl, he⟩

theorem During.mono {S : System σ T Op} {ok ok' : Config σ T → Label T Op → Prop} {t : T}
    (hok : ∀ c l, ok c l → ok' c l) {c c' : Config σ T} (h : S.During ok t c c') :
    S.During ok' t c c' := by
  induction h with
  | refl => exact .refl
  | tail _ h ih =>
    obtain ⟨hbusy, l, hl, he⟩ := h
    exact .tail ih ⟨hbusy, l, hok _ l hl, he⟩

theorem During.run {S : System σ T Op} {ok : Config σ T → Label T Op → Prop} {t : T}
    {c c' : Config σ T} (h : S.During ok t c c') : S.Run ok c c' := by
  induction h with
  | refl => exact .refl
  | tail _ h ih => exact .tail ih h.2

theorem run_of_execAll {S : System σ T Op} {ok : Config σ T → Label T Op → Prop}
    {ls : List (Label T Op)} {c c' : Config σ T} (hok : ∀ l ∈ ls, ∀ c, ok c l)
    (h : S.execAll c ls = some c') : S.Run ok c c' := by
  induction ls generalizing c with
  | nil =>
    simp only [execAll, Option.some.injEq] at h
    subst h
    exact .refl
  | cons l ls ih =>
    simp only [execAll, Option.bind_eq_some_iff] at h
    obtain ⟨c₁, h₁, h₂⟩ := h
    exact .head ⟨l, hok l List.mem_cons_self c, h₁⟩
      (ih (fun l hl => hok l (List.mem_cons_of_mem _ hl)) h₂)

theorem run_after_of {S : System σ T Op} {ok : Config σ T → Label T Op → Prop}
    {ls : List (Label T Op)} {c : Config σ T} (hok : ∀ l ∈ ls, ∀ c, ok c l)
    (h : (S.execAll c ls).isSome = true) : S.Run ok c (S.after c ls) := by
  obtain ⟨c', hc'⟩ := Option.isSome_iff_exists.mp h
  rw [after, hc', Option.getD_some]
  exact run_of_execAll hok hc'

theorem run_after {S : System σ T Op} {ls : List (Label T Op)} {c : Config σ T}
    (h : (S.execAll c ls).isSome = true) : S.Run always c (S.after c ls) :=
  run_after_of (fun _ _ _ => trivial) h

theorem exec_after {S : System σ T Op} {l : Label T Op} {c : Config σ T}
    (h : (S.exec c l).isSome = true) : S.exec c l = some (S.after c [l]) := by
  obtain ⟨c', hc'⟩ := Option.isSome_iff_exists.mp h
  simp [after, execAll, hc']

/-- A schedule can be run, and the thread is in its operation before each transition of it. -/
def staying (S : System σ T Op) (t : T) : Config σ T → List (Label T Op) → Bool
  | _, [] => true
  | c, l :: ls =>
    (c.pool t).isSome && match S.exec c l with
      | some c' => S.staying t c' ls
      | none => false

theorem during_of_staying {S : System σ T Op} {t : T} {ls : List (Label T Op)}
    {c : Config σ T} (h : S.staying t c ls = true) :
    ∃ c', S.execAll c ls = some c' ∧ S.During always t c c' := by
  induction ls generalizing c with
  | nil => exact ⟨c, rfl, .refl⟩
  | cons l ls ih =>
    simp only [staying, Bool.and_eq_true] at h
    obtain ⟨hbusy, h⟩ := h
    split at h
    · next c₁ hc₁ =>
      obtain ⟨c', hc', hd⟩ := ih h
      exact ⟨c', by simp [execAll, hc₁, hc'], .head ⟨hbusy, l, trivial, hc₁⟩ hd⟩
    · cases h

theorem during_after {S : System σ T Op} {t : T} {ls : List (Label T Op)} {c : Config σ T}
    (h : S.staying t c ls = true) : S.During always t c (S.after c ls) := by
  obtain ⟨c', hc', hd⟩ := during_of_staying h
  rw [after, hc', Option.getD_some]
  exact hd

theorem exec_call {S : System σ T Op} {c c' : Config σ T} {t : T} {op : Op}
    (h : S.exec c (.call t op) = some c') :
    c.pool t = none ∧ S.may t op c.st = true ∧
      c' = ⟨c.st, Function.update c.pool t (S.code t op).settle⟩ := by
  simp only [exec] at h
  split at h
  · next hp =>
    simp only [Option.ite_none_right_eq_some, Option.some.injEq] at h
    exact ⟨hp, h.1, h.2.symm⟩
  · exact absurd h (by simp)

theorem exec_step {S : System σ T Op} {c c' : Config σ T} {t : T} {n : Nat}
    (h : S.exec c (.step t n) = some c') :
    ∃ p p' s', c.pool t = some p ∧ p.step n c.st = some (p', s') ∧
      c' = ⟨s', Function.update c.pool t p'.settle⟩ := by
  simp only [exec] at h
  split at h
  · exact absurd h (by simp)
  · next p hp =>
    simp only [Option.map_eq_some_iff, Prod.exists] at h
    obtain ⟨p', s', hs, rfl⟩ := h
    exact ⟨p, p', s', hp, hs, rfl⟩

/-- A transition leaves the other threads where they are. -/
theorem exec_pool {S : System σ T Op} {c c' : Config σ T} {l : Label T Op} {t : T}
    (h : S.exec c l = some c') (ht : l.thread ≠ t) : c'.pool t = c.pool t := by
  cases l with
  | call u op =>
    obtain ⟨-, -, rfl⟩ := exec_call h
    exact Function.update_of_ne ht.symm ..
  | step u n =>
    obtain ⟨p, p', s', -, -, rfl⟩ := exec_step h
    exact Function.update_of_ne ht.symm ..

theorem Rounds.trans {S : System σ T Op} {t : T} {kind : Op → Prop} {n m : Nat}
    {c c₁ c₂ : Config σ T} (h : S.Rounds t kind n c c₁) (h' : S.Rounds t kind m c₁ c₂) :
    S.Rounds t kind (n + m) c c₂ := by
  induction h' with
  | start _ => exact h
  | other _ ht hl ih => exact (ih h).other ht hl
  | call _ hop hcall hrun hback ih => exact (ih h).call hop hcall hrun hback

/-- Round by round. -/
theorem Rounds.iterate {S : System σ T Op} {t : T} {kind : Op → Prop} {cs : Nat → Config σ T}
    (h : ∀ i, S.Rounds t kind 1 (cs i) (cs (i + 1))) (n : Nat) :
    S.Rounds t kind n (cs 0) (cs n) := by
  induction n with
  | zero => exact .start _
  | succ n ih => exact ih.trans (h n)

theorem Rounds.run {S : System σ T Op} {t : T} {kind : Op → Prop} {n : Nat} {c c' : Config σ T}
    (h : S.Rounds t kind n c c') : S.Run always c c' := by
  induction h with
  | start c => exact .refl
  | other _ _ hl ih => exact ih.tail ⟨_, trivial, hl⟩
  | call _ _ hcall hrun _ ih =>
    exact (ih.tail ⟨_, trivial, hcall⟩).trans hrun.run

theorem pool_of_execAll {S : System σ T Op} {ls : List (Label T Op)} {c c' : Config σ T} {t : T}
    (h : S.execAll c ls = some c') (ht : ∀ l ∈ ls, l.thread ≠ t) : c'.pool t = c.pool t := by
  induction ls generalizing c with
  | nil =>
    cases h
    rfl
  | cons l ls ih =>
    simp only [execAll, Option.bind_eq_some_iff] at h
    obtain ⟨c₁, h₁, h₂⟩ := h
    exact (ih h₂ fun l hl => ht l (List.mem_cons_of_mem _ hl)).trans
      (exec_pool h₁ (ht l List.mem_cons_self))

/-- A thread that does not appear in a schedule is where it was. -/
theorem pool_after {S : System σ T Op} {ls : List (Label T Op)} {c : Config σ T} {t : T}
    (ht : ∀ l ∈ ls, l.thread ≠ t) : (S.after c ls).pool t = c.pool t := by
  rw [after]
  cases h : S.execAll c ls with
  | none => rfl
  | some c' => exact pool_of_execAll h ht

end System

/-! ## Proof outlines -/

/-- What the threads of a system keep, between and during their operations. -/
structure Outline (S : System σ T Op) where
  inv : σ → Prop
  /-- What a step of the thread does to the state. -/
  guar : T → σ → σ → Prop
  /-- The condition on the scheduler's choice and the state before a step. -/
  cond : T → Nat → σ → Prop
  /-- The condition on the state before a call. -/
  callable : T → Op → σ → Prop
  /-- What holds of a thread between its operations. -/
  idle : T → σ → Prop
  guar_refl : ∀ t s, guar t s s
  idle_stable : ∀ t u s s', u ≠ t → inv s → inv s' → guar u s s' → idle t s → idle t s'
  code_ok : ∀ t op s, inv s → idle t s → S.may t op s = true → callable t op s →
    wp ⟨inv, fun s s' => ∃ u, u ≠ t ∧ guar u s s', guar t, cond t,
      fun _ => True⟩ (S.code t op)
      (fun _ => idle t) s

namespace Outline

variable {S : System σ T Op}

/-- The contract of a thread whose code must return unless `goal` is reached. -/
def contract (o : Outline S) (t : T) (goal : σ → Prop) : Contract σ where
  inv := o.inv
  rely s s' := ∃ u, u ≠ t ∧ o.guar u s s'
  guar := o.guar t
  cond := o.cond t
  goal := goal

/-- The runs the outline speaks of. -/
def ok (o : Outline S) (c : Config σ T) : Label T Op → Prop
  | .call t op => o.callable t op c.st
  | .step t n => o.cond t n c.st

/-- The thread, in `p` or between operations, keeps its contract and ends in `Q`. -/
def Thread (o : Outline S) (t : T) (goal : σ → Prop) (Q : σ → Prop) (s : σ) :
    Option (Prog σ Unit) → Prop
  | none => Q s
  | some p => wp (o.contract t goal) p (fun _ => Q) s

/-- The invariant holds, and every thread but `t` keeps its contract. -/
def GoodBut (o : Outline S) (t : T) (c : Config σ T) : Prop :=
  o.inv c.st ∧ ∀ u, u ≠ t → o.Thread u (fun _ => True) (o.idle u) c.st (c.pool u)

/-- The invariant holds, and every thread keeps its contract. -/
def Good (o : Outline S) (c : Config σ T) : Prop :=
  o.inv c.st ∧ ∀ u, o.Thread u (fun _ => True) (o.idle u) c.st (c.pool u)

theorem Thread.settle {o : Outline S} {t : T} {goal Q : σ → Prop} {s : σ}
    {p : Prog σ Unit} (h : wp (o.contract t goal) p (fun _ => Q) s) :
    o.Thread t goal Q s p.settle := by
  cases p with
  | ret a => exact h s (.refl s)
  | act f k => exact h
  | loop body b k => exact h

/-- The step of another thread. -/
theorem Thread.other {o : Outline S} {t u : T} {goal Q : σ → Prop} {s s' : σ}
    {p : Option (Prog σ Unit)} (h : o.Thread t goal Q s p) (hu : u ≠ t) (hs' : o.inv s')
    (hg : o.guar u s s') (hQ : p = none → Q s → Q s') : o.Thread t goal Q s' p := by
  cases p with
  | none => exact hQ rfl h
  | some p => exact wp.env h (.single ⟨⟨u, hu, hg⟩, hs'⟩)

variable [DecidableEq T]

theorem Good.step {o : Outline S} {c c' : Config σ T} {l : Label T Op} (h : o.Good c)
    (hok : o.ok c l) (hl : S.exec c l = some c') : o.Good c' := by
  cases l with
  | call t op =>
    obtain ⟨hp, hmay, rfl⟩ := System.exec_call hl
    refine ⟨h.1, fun u => ?_⟩
    by_cases hu : u = t
    · subst hu
      have hidle := h.2 u
      rw [hp] at hidle
      simp only [Function.update_self]
      exact .settle (o.code_ok u op c.st h.1 hidle hmay hok)
    · simp only [Function.update_of_ne hu]
      exact h.2 u
  | step t n =>
    obtain ⟨p, p', s', hp, hs, rfl⟩ := System.exec_step hl
    have ht := h.2 t
    rw [hp] at ht
    obtain ⟨hi, hg, hw⟩ := wp.step ht h.1 hs hok (o.guar_refl t)
    refine ⟨hi, fun u => ?_⟩
    by_cases hu : u = t
    · subst hu
      simp only [Function.update_self]
      exact .settle hw
    · simp only [Function.update_of_ne hu]
      exact (h.2 u).other (Ne.symm hu) hi hg
        fun _ => o.idle_stable u t _ _ (Ne.symm hu) h.1 hi hg

/-- **In every configuration a run reaches, the invariant holds and every thread keeps its
    contract.** -/
theorem good_run {o : Outline S} {c c' : Config σ T} (h : o.Good c) (hrun : S.Run o.ok c c') :
    o.Good c' := by
  induction hrun with
  | refl => exact h
  | tail _ h' ih =>
    obtain ⟨l, hok, hl⟩ := h'
    exact ih.step hok hl

/-- Every transition is one that some thread guarantees. -/
theorem Good.guarantee {o : Outline S} {c c' : Config σ T} {t : T} {n : Nat} (h : o.Good c)
    (hok : o.ok c (.step t n)) (hl : S.exec c (.step t n) = some c') : o.guar t c.st c'.st := by
  obtain ⟨p, p', s', hp, hs, rfl⟩ := System.exec_step hl
  have ht := h.2 t
  rw [hp] at ht
  exact (wp.step ht h.1 hs hok (o.guar_refl t)).2.1

theorem Good.guarantees {o : Outline S} {c c' : Config σ T} {l : Label T Op} (h : o.Good c)
    (hok : o.ok c l) (hl : S.exec c l = some c') : ∃ t, o.guar t c.st c'.st := by
  cases l with
  | call t op =>
    obtain ⟨-, -, rfl⟩ := System.exec_call hl
    exact ⟨t, o.guar_refl t c.st⟩
  | step t n => exact ⟨t, h.guarantee hok hl⟩

/-- What every guaranteed step keeps, every run keeps. -/
theorem Good.kept {o : Outline S} {c c' : Config σ T} {φ : σ → Prop} (h : o.Good c)
    (hstep : ∀ t s s', o.inv s → o.inv s' → o.guar t s s' → φ s → φ s')
    (hrun : S.Run o.ok c c') (hφ : φ c.st) : φ c'.st := by
  induction hrun with
  | refl => exact hφ
  | tail hrun h' ih =>
    obtain ⟨l, hok, hl⟩ := h'
    have hgood := good_run h hrun
    obtain ⟨t, hg⟩ := hgood.guarantees hok hl
    exact hstep t _ _ hgood.1 (hgood.step hok hl).1 hg ih

/-! ## One call among the others -/

/-- The invariant holds, thread `t` is in code that ends in `Q`, the others keep theirs. -/
def Calling (o : Outline S) (t : T) (goal Q : σ → Prop) (c : Config σ T) : Prop :=
  o.GoodBut t c ∧ o.Thread t goal Q c.st (c.pool t)

/-- A thread between operations calls one. -/
theorem Good.calling {o : Outline S} {c c₁ : Config σ T} {t : T} {op : Op} {goal Q : σ → Prop}
    (h : o.Good c) (hcall : S.exec c (.call t op) = some c₁)
    (hw : o.idle t c.st → wp (o.contract t goal) (S.code t op) (fun _ => Q) c.st) :
    o.Calling t goal Q c₁ := by
  obtain ⟨hpool, -, rfl⟩ := System.exec_call hcall
  have hidle := h.2 t
  rw [hpool] at hidle
  refine ⟨⟨h.1, fun u hu => ?_⟩, ?_⟩
  · simp only [Function.update_of_ne hu]
    exact h.2 u
  · simp only [Function.update_self]
    exact .settle (hw hidle)

theorem Calling.step {o : Outline S} {c c' : Config σ T} {l : Label T Op} {t : T}
    {goal Q : σ → Prop} (h : o.Calling t goal Q c) (hbusy : (c.pool t).isSome) (hok : o.ok c l)
    (hl : S.exec c l = some c') : o.Calling t goal Q c' := by
  obtain ⟨⟨hi, hothers⟩, ht⟩ := h
  cases l with
  | call u op =>
    obtain ⟨hp, hmay, rfl⟩ := System.exec_call hl
    have hut : u ≠ t := by
      rintro rfl
      simp [hp] at hbusy
    refine ⟨⟨hi, fun v hv => ?_⟩, by simpa only [Function.update_of_ne (Ne.symm hut)] using ht⟩
    by_cases hvu : v = u
    · subst hvu
      have hidle := hothers v hv
      rw [hp] at hidle
      simp only [Function.update_self]
      exact .settle (o.code_ok v op c.st hi hidle hmay hok)
    · simp only [Function.update_of_ne hvu]
      exact hothers v hv
  | step u n =>
    obtain ⟨p, p', s', hp, hs, rfl⟩ := System.exec_step hl
    by_cases hut : u = t
    · subst hut
      rw [hp] at ht
      obtain ⟨hi', hg, hw⟩ := wp.step ht hi hs hok (o.guar_refl u)
      refine ⟨⟨hi', fun v hv => ?_⟩, ?_⟩
      · simp only [Function.update_of_ne hv]
        exact (hothers v hv).other (Ne.symm hv) hi' hg
          fun _ => o.idle_stable v u _ _ (Ne.symm hv) hi hi' hg
      · simp only [Function.update_self]
        exact .settle hw
    · have hu := hothers u hut
      rw [hp] at hu
      obtain ⟨hi', hg, hw⟩ := wp.step hu hi hs hok (o.guar_refl u)
      refine ⟨⟨hi', fun v hv => ?_⟩, ?_⟩
      · by_cases hvu : v = u
        · subst hvu
          simp only [Function.update_self]
          exact .settle hw
        · simp only [Function.update_of_ne hvu]
          exact (hothers v hv).other (Ne.symm hvu) hi' hg
            fun _ => o.idle_stable v u _ _ (Ne.symm hvu) hi hi' hg
      · simp only [Function.update_of_ne (Ne.symm hut)]
        refine ht.other hut hi' hg fun hnone => ?_
        simp [hnone] at hbusy

theorem Calling.during {o : Outline S} {c c' : Config σ T} {t : T}
    {goal Q : σ → Prop} (h : o.Calling t goal Q c) (hrun : S.During o.ok t c c') :
    o.Calling t goal Q c' := by
  induction hrun with
  | refl => exact h
  | tail _ h' ih =>
    obtain ⟨hbusy, l, hok, hl⟩ := h'
    exact ih.step hbusy hok hl

/-- What a thread ended in lasts until it calls the next operation. -/
theorem Calling.rests {o : Outline S} {c c' : Config σ T} {l : Label T Op} {t : T}
    {goal Q : σ → Prop} (h : o.Calling t goal Q c) (hidle : c.pool t = none)
    (hQ : (o.contract t goal).Stable Q) (hok : o.ok c l) (hl : S.exec c l = some c')
    (hcall : ∀ op, l ≠ .call t op) : o.Calling t goal Q c' ∧ c'.pool t = none := by
  obtain ⟨⟨hi, hothers⟩, ht⟩ := h
  rw [hidle] at ht
  cases l with
  | call u op =>
    obtain ⟨hp, hmay, rfl⟩ := System.exec_call hl
    have htu : t ≠ u := by
      rintro rfl
      exact hcall op rfl
    refine ⟨⟨⟨hi, fun v hv => ?_⟩, ?_⟩, by simpa only [Function.update_of_ne htu] using hidle⟩
    · by_cases hvu : v = u
      · subst hvu
        have hv := hothers v hv
        rw [hp] at hv
        simp only [Function.update_self]
        exact .settle (o.code_ok v op c.st hi hv hmay hok)
      · simp only [Function.update_of_ne hvu]
        exact hothers v hv
    · simp only [Function.update_of_ne htu, hidle]
      exact ht
  | step u n =>
    obtain ⟨p, p', s', hp, hs, rfl⟩ := System.exec_step hl
    have hut : u ≠ t := by
      rintro rfl
      simp [hidle] at hp
    have hu := hothers u hut
    rw [hp] at hu
    obtain ⟨hi', hg, hw⟩ := wp.step hu hi hs hok (o.guar_refl u)
    refine ⟨⟨⟨hi', fun v hv => ?_⟩, ?_⟩,
      by simpa only [Function.update_of_ne (Ne.symm hut)] using hidle⟩
    · by_cases hvu : v = u
      · subst hvu
        simp only [Function.update_self]
        exact .settle hw
      · simp only [Function.update_of_ne hvu]
        exact (hothers v hv).other (Ne.symm hvu) hi' hg
          fun _ => o.idle_stable v u _ _ (Ne.symm hvu) hi hi' hg
    · simp only [Function.update_of_ne (Ne.symm hut), hidle]
      exact hQ _ _ hi hi' ⟨u, hut, hg⟩ ht

/-- A thread whose call ended in what it rests in is like any other. -/
theorem Calling.good {o : Outline S} {c : Config σ T} {t : T} {goal Q : σ → Prop}
    (h : o.Calling t goal Q c) (hidle : c.pool t = none) (hQ : ∀ s, Q s → o.idle t s) :
    o.Good c := by
  obtain ⟨⟨hi, hothers⟩, ht⟩ := h
  refine ⟨hi, fun u => ?_⟩
  by_cases hut : u = t
  · subst hut
    rw [hidle] at ht ⊢
    exact hQ _ ht
  · exact hothers u hut

theorem Calling.guarantees {o : Outline S} {c c' : Config σ T} {l : Label T Op} {t : T}
    {goal Q : σ → Prop} (h : o.Calling t goal Q c) (hok : o.ok c l) (hl : S.exec c l = some c') :
    ∃ u, o.guar u c.st c'.st := by
  obtain ⟨⟨hi, hothers⟩, ht⟩ := h
  cases l with
  | call u op =>
    obtain ⟨-, -, rfl⟩ := System.exec_call hl
    exact ⟨u, o.guar_refl u c.st⟩
  | step u n =>
    obtain ⟨p, p', s', hp, hs, rfl⟩ := System.exec_step hl
    refine ⟨u, ?_⟩
    by_cases hut : u = t
    · subst hut
      rw [hp] at ht
      exact (wp.step ht hi hs hok (o.guar_refl u)).2.1
    · have hu := hothers u hut
      rw [hp] at hu
      exact (wp.step hu hi hs hok (o.guar_refl u)).2.1

/-- A transition that is not a step of `t` leaves it where it is, among the others' steps. -/
theorem Calling.others {o : Outline S} {c c' : Config σ T} {l : Label T Op} {t : T}
    {goal Q : σ → Prop} (h : o.Calling t goal Q c) (hbusy : (c.pool t).isSome)
    (hok : o.ok c l) (hl : S.exec c l = some c') (ht : ∀ n, l ≠ .step t n) :
    c'.pool t = c.pool t ∧ (o.contract t goal).Env c.st c'.st := by
  cases l with
  | call u op =>
    obtain ⟨hp, -, rfl⟩ := System.exec_call hl
    have hut : t ≠ u := by
      rintro rfl
      simp [hp] at hbusy
    exact ⟨Function.update_of_ne hut .., .refl _⟩
  | step u n =>
    obtain ⟨p, p', s', hp, hs, rfl⟩ := System.exec_step hl
    have hut : u ≠ t := by
      rintro rfl
      exact ht n rfl
    have hu := h.1.2 u hut
    rw [hp] at hu
    obtain ⟨hi', hg, -⟩ := wp.step hu h.1.1 hs hok (o.guar_refl u)
    exact ⟨Function.update_of_ne (Ne.symm hut) .., .single ⟨⟨u, hut, hg⟩, hi'⟩⟩

/-- The next step of a thread that is scheduled again. -/
theorem next_step {c : Config σ T} {ok : Config σ T → Label T Op → Prop} {t : T}
    {r : S.Forever ok c} (hfair : ∀ i, ∃ j, i ≤ j ∧ ∃ n, r.label j = .step t n) (i : Nat) :
    ∃ d n, r.label (i + d) = .step t n ∧
      ∀ j, i ≤ j → j < i + d → ∀ n, r.label j ≠ .step t n := by
  classical
  have hex : ∃ d n, r.label (i + d) = .step t n := by
    obtain ⟨j, hij, n, hj⟩ := hfair i
    exact ⟨j - i, n, by rwa [show i + (j - i) = j by omega]⟩
  obtain ⟨n, hn⟩ := Nat.find_spec hex
  refine ⟨Nat.find hex, n, hn, fun j h₁ h₂ m hm => ?_⟩
  refine Nat.find_min hex (m := j - i) (by omega) ⟨m, ?_⟩
  rwa [show i + (j - i) = j by omega]

/-- Between two of its own steps, `t` stays where it is, among the others' steps. -/
theorem Calling.until {o : Outline S} {c : Config σ T} {t : T} {goal Q : σ → Prop}
    {r : S.Forever o.ok c} (hc : ∀ i, o.Calling t goal Q (r.at_ i))
    (hbusy : ∀ i, ((r.at_ i).pool t).isSome) (i d : Nat)
    (hnot : ∀ j, i ≤ j → j < i + d → ∀ n, r.label j ≠ .step t n) :
    (r.at_ (i + d)).pool t = (r.at_ i).pool t ∧
      (o.contract t goal).Env (r.at_ i).st (r.at_ (i + d)).st := by
  induction d with
  | zero => exact ⟨rfl, .refl _⟩
  | succ d ih =>
    obtain ⟨hp, he⟩ := ih fun j h₁ h₂ => hnot j h₁ (by omega)
    obtain ⟨hp', he'⟩ := (hc (i + d)).others (hbusy (i + d)) (r.met (i + d)) (r.next (i + d))
      (hnot (i + d) (by omega) (by omega))
    exact ⟨hp'.trans hp, he.trans he'⟩

/-- **A call returns, or its goal is reached, in every run that keeps scheduling it.** -/
theorem Calling.returns {o : Outline S} {c : Config σ T} {t : T} {goal Q : σ → Prop}
    (h : o.Calling t goal Q c) (r : S.Forever o.ok c)
    (hfair : ∀ i, ∃ j, i ≤ j ∧ ∃ n, r.label j = .step t n) :
    ∃ i, (r.at_ i).pool t = none ∨ goal (r.at_ i).st := by
  by_contra hno
  have hbusy : ∀ i, ((r.at_ i).pool t).isSome := fun i =>
    Option.ne_none_iff_isSome.mp fun hn => hno ⟨i, .inl hn⟩
  have hgoal : ∀ i, ¬ goal (r.at_ i).st := fun i hg => hno ⟨i, .inr hg⟩
  have hcalling : ∀ i, o.Calling t goal Q (r.at_ i) := by
    intro i
    induction i with
    | zero => exact r.start.symm ▸ h
    | succ i ih => exact ih.step (hbusy i) (r.met i) (r.next i)
  have main : ∀ p s, Terminates (o.contract t goal) p s →
      ∀ i, (r.at_ i).pool t = some p → (o.contract t goal).Env s (r.at_ i).st → False := by
    intro p s hterm
    induction hterm with
    | ret a s =>
      intro i hp he
      -- the next step of `t` would be one of code that has come to its end
      obtain ⟨d, n, hd, hmin⟩ := next_step hfair i
      obtain ⟨hpool, -⟩ := Calling.until hcalling hbusy i d hmin
      have hnext := r.next (i + d)
      rw [hd] at hnext
      obtain ⟨p, p', s', hp', hs, -⟩ := System.exec_step hnext
      rw [hp, hp'] at hpool
      cases hpool
      exact absurd hs (by simp [Prog.step])
    | step p s _ _ ih =>
      intro i hp he
      obtain ⟨d, n, hd, hmin⟩ := next_step hfair i
      obtain ⟨hpool, henv⟩ := Calling.until hcalling hbusy i d hmin
      have hnext := r.next (i + d)
      have hmet := r.met (i + d)
      rw [hd] at hnext hmet
      obtain ⟨p₁, p', s', hp₁, hs, hc'⟩ := System.exec_step hnext
      rw [hp, hp₁] at hpool
      cases hpool
      have hpool' : (r.at_ (i + d + 1)).pool t = p'.settle := by simp [hc']
      have hst : (r.at_ (i + d + 1)).st = s' := by simp [hc']
      refine ih _ n p' s' (he.trans henv) hs hmet (hst ▸ hgoal (i + d + 1)) (i + d + 1) ?_
        (hst ▸ .refl _)
      cases p' with
      | ret a => exact absurd (hbusy (i + d + 1)) (by simp [hpool', Prog.settle])
      | act f k => exact hpool'
      | loop body b k => exact hpool'
  obtain ⟨p, hp⟩ := Option.isSome_iff_exists.mp (hbusy 0)
  have hw := (hcalling 0).2
  rw [hp] at hw
  exact main p _ (wp.terminates (hcalling 0).1.1 (hgoal 0) hw) 0 hp (.refl _)

/-- The first such moment is one of the call. -/
theorem Calling.returns_during {o : Outline S} {c : Config σ T} {t : T} {goal Q : σ → Prop}
    (h : o.Calling t goal Q c) (r : S.Forever o.ok c)
    (hfair : ∀ i, ∃ j, i ≤ j ∧ ∃ n, r.label j = .step t n) :
    ∃ i, S.During o.ok t c (r.at_ i) ∧ ((r.at_ i).pool t = none ∨ goal (r.at_ i).st) := by
  classical
  have hex := h.returns r hfair
  refine ⟨Nat.find hex, ?_, Nat.find_spec hex⟩
  have hbusy : ∀ i < Nat.find hex, ((r.at_ i).pool t).isSome := fun i hi =>
    Option.ne_none_iff_isSome.mp fun hn => Nat.find_min hex hi (.inl hn)
  have hduring : ∀ i ≤ Nat.find hex, S.During o.ok t c (r.at_ i) := by
    intro i
    induction i with
    | zero =>
      intro _
      rw [r.start]
      exact .refl
    | succ i ih =>
      exact fun hi => (ih (by omega)).tail ⟨hbusy i (by omega), r.label i, r.met i, r.next i⟩
  exact hduring _ le_rfl

end Outline

end Fanring.Conc
