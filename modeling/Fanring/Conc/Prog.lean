import Mathlib.Logic.Function.Basic

/-!
# Programs of atomic steps

A thread's code is a tree of atomic steps over a state `σ` that every thread shares. A node
`act f k` is one indivisible access: `f n s` is the state it leaves, or `none` while the
access is not enabled (a sleeper nobody has woken), and `k n s` is the code that runs next,
which may depend on the state the access read. The number `n` is the scheduler's choice: which
sleeper a notification wakes, whether a clock has passed a deadline. Most accesses ignore it.

Everything between two accesses is ordinary Lean, so the code of an operation is written in
`do` notation over functions on the thread's own data. Unbounded loops are the third node:
`loop body b k` runs `body` until it answers `inr`.
-/

set_option autoImplicit false

namespace Fanring.Conc

/-- Code over the shared state `σ` that answers an `α`. -/
inductive Prog (σ : Type) : Type → Type 1
  | ret {α : Type} (a : α) : Prog σ α
  | act {α : Type} (f : Nat → σ → Option σ) (k : Nat → σ → Prog σ α) : Prog σ α
  | loop {α β γ : Type} (body : β → Prog σ (β ⊕ γ)) (b : β) (k : γ → Prog σ α) : Prog σ α

namespace Prog

variable {σ α β γ : Type}

def bind : {α : Type} → Prog σ α → (α → Prog σ β) → Prog σ β
  | _, .ret a, f => f a
  | _, .act g k, f => .act g fun n s => (k n s).bind f
  | _, .loop body b k, f => .loop body b fun c => (k c).bind f

instance : Monad (Prog σ) where
  pure := .ret
  bind := .bind

@[simp] theorem pure_eq (a : α) : (pure a : Prog σ α) = .ret a := rfl

@[simp] theorem bind_eq (p : Prog σ α) (f : α → Prog σ β) : (p >>= f) = p.bind f := rfl

@[simp] theorem ret_bind (a : α) (f : α → Prog σ β) : (Prog.ret a).bind f = f a := rfl

@[simp] theorem map_eq (f : α → β) (p : Prog σ α) : (f <$> p) = p.bind fun a => .ret (f a) := rfl

@[simp] theorem act_bind (g : Nat → σ → Option σ) (k : Nat → σ → Prog σ α)
    (f : α → Prog σ β) : (Prog.act g k).bind f = .act g fun n s => (k n s).bind f := rfl

theorem bind_assoc {δ : Type} (p : Prog σ α) (f : α → Prog σ β) (g : β → Prog σ δ) :
    (p.bind f).bind g = p.bind fun a => (f a).bind g := by
  induction p with
  | ret a => rfl
  | act h k ih =>
    simp only [bind]
    congr 1
    funext n s
    exact ih n s f
  | loop body b k _ ih =>
    simp only [bind]
    congr 1
    funext c
    exact ih c f

theorem bind_ret (p : Prog σ α) : p.bind .ret = p := by
  induction p with
  | ret a => rfl
  | act f k ih =>
    simp only [bind]
    congr 1
    funext n s
    exact ih n s
  | loop body b k _ ih =>
    simp only [bind]
    congr 1
    funext c
    exact ih c

/-! ## The atomic accesses code is built from -/

/-- One enabled access: read the state, replace it, answer what was read. -/
def atomic (f : σ → β × σ) : Prog σ β :=
  .act (fun _ s => some (f s).2) fun _ s => .ret (f s).1

/-- An access that changes nothing. -/
def read (f : σ → β) : Prog σ β := atomic fun s => (f s, s)

/-- An access whose answer nobody reads. -/
def write (f : σ → σ) : Prog σ Unit := atomic fun s => ((), f s)

/-- An access that waits until `en` allows it, at a choice the scheduler makes. -/
def await (en : Nat → σ → Bool) (f : Nat → σ → β × σ) : Prog σ β :=
  .act (fun n s => if en n s then some (f n s).2 else none) fun n s => .ret (f n s).1

/-- Run `body` until it answers `inr`. -/
def iterate (body : β → Prog σ (β ⊕ γ)) (b : β) : Prog σ γ := .loop body b .ret

/-- Code that does nothing any more and never returns. -/
def diverge : Prog σ α := .loop (fun _ : Unit => .ret (.inl ())) () fun e : Empty => e.elim

/-- The scheduler's choice alone: what a clock says, how a race outside the model went. -/
def oracle : Prog σ Nat := .act (fun _ s => some s) fun n _ => .ret n

/-! ## One step of a program -/

/-- What is left to run, and the state, after one step. Unfolding a loop is a step of its own
    that leaves the state alone. -/
def step (n : Nat) : {α : Type} → Prog σ α → σ → Option (Prog σ α × σ)
  | _, .ret _, _ => none
  | _, .act f k, s => (f n s).map fun s' => (k n s, s')
  | _, .loop body b k, s =>
    some ((body b).bind (Sum.elim (fun b' => .loop body b' k) k), s)

end Prog

/-! ## Accesses to a component -/

/-- A component of the state: a cell, a word, a queue. -/
structure Lens (σ τ : Type) where
  get : σ → τ
  set : τ → σ → σ

namespace Lens

variable {σ τ β : Type}

/-- One access to a component. `ghost` is what the access adds to the bookkeeping of the proof: it
    sees the answer and changes nothing the code reads. -/
def accessWith (L : Lens σ τ) (ghost : β → σ → σ) (f : τ → β × τ) : Prog σ β :=
  .atomic fun s => ((f (L.get s)).1, ghost (f (L.get s)).1 (L.set (f (L.get s)).2 s))

def access (L : Lens σ τ) (f : τ → β × τ) : Prog σ β := L.accessWith (fun _ s => s) f

end Lens

end Fanring.Conc
