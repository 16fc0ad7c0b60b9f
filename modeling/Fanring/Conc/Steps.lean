import Fanring.Conc.System

/-!
# The steps of a call

`During` says that a thread is in one call from one configuration to another, and forgets how it
got there. `Takes` keeps the thread's own steps, each as the state it found and the state it left;
what the other threads did in between is not in the list. `Accounts φ p` says of code without loops
that its steps and its answer are together as `φ` asks, whatever the others do between two of them.
It follows the code, and `Takes.of_call` carries it to every call of a system that returned.
-/

set_option autoImplicit false

namespace Fanring.Conc

variable {σ α β T Op : Type}

namespace Prog

/-- Code without loops, whose steps and whose answer are as `φ` says. -/
def Accounts : {α : Type} → (List (σ × σ) → α → Prop) → Prog σ α → Prop
  | _, φ, .ret a => φ [] a
  | _, φ, .act f k =>
    ∀ n s s', f n s = some s' → (k n s).Accounts fun hs a => φ ((s, s') :: hs) a
  | _, _, .loop _ _ _ => False

namespace Accounts

variable {φ : List (σ × σ) → α → Prop} {ψ : List (σ × σ) → β → Prop}

theorem ret {a : α} (h : φ [] a) : (Prog.ret a).Accounts φ := h

theorem bind {p : Prog σ α} {k : α → Prog σ β} (hp : p.Accounts φ)
    (hk : ∀ hs a, φ hs a → (k a).Accounts fun hs' b => ψ (hs ++ hs') b) :
    (p.bind k).Accounts ψ := by
  induction p generalizing ψ with
  | ret a => exact hk [] a hp
  | act f k' ih =>
    intro n s s' hs
    exact ih n s (ψ := fun hs' b => ψ ((s, s') :: hs') b) (hp n s s' hs)
      fun hs' a h => hk ((s, s') :: hs') a h
  | loop body b k' => exact hp.elim

theorem atomic {f : σ → α × σ} (h : ∀ s, φ [(s, (f s).2)] (f s).1) : (Prog.atomic f).Accounts φ :=
  fun _ s _ hs => Option.some.inj hs ▸ h s

theorem await {en : Nat → σ → Bool} {f : Nat → σ → α × σ}
    (h : ∀ n s, φ [(s, (f n s).2)] (f n s).1) : (Prog.await en f).Accounts φ := by
  intro n s s' hs
  obtain ⟨-, hs⟩ := Option.ite_none_right_eq_some.mp hs
  cases hs
  exact h n s

end Accounts

/-- What is left of a call, if anything, accounts for the steps to come. -/
def Owes (φ : List (σ × σ) → Unit → Prop) : Option (Prog σ Unit) → Prop
  | none => φ [] ()
  | some p => p.Accounts φ

theorem owes_settle {φ : List (σ × σ) → Unit → Prop} {p : Prog σ Unit} (h : p.Accounts φ) :
    Owes φ p.settle := by
  cases p with
  | ret a => exact h
  | act f k => exact h
  | loop body b k => exact h

end Prog

variable [DecidableEq T] {S : System σ T Op} {t : T} {c c₁ c₂ : Config σ T} {hs : List (σ × σ)}

/-- As `During`, with the steps thread `t` takes. -/
inductive System.Takes (S : System σ T Op) (t : T) :
    Config σ T → List (σ × σ) → Config σ T → Prop
  | refl (c : Config σ T) : S.Takes t c [] c
  | other {c c₁ c₂ : Config σ T} {hs : List (σ × σ)} {l : Label T Op}
      (hbusy : (c.pool t).isSome) (ht : l.thread ≠ t) (hl : S.exec c l = some c₁)
      (hrest : S.Takes t c₁ hs c₂) : S.Takes t c hs c₂
  | own {c c₁ c₂ : Config σ T} {hs : List (σ × σ)} {n : Nat}
      (hl : S.exec c (.step t n) = some c₁) (hrest : S.Takes t c₁ hs c₂) :
      S.Takes t c ((c.st, c₁.st) :: hs) c₂

namespace System

theorem busy_of_step {n : Nat} (h : S.exec c (.step t n) = some c₁) : (c.pool t).isSome := by
  obtain ⟨p, -, -, hp, -⟩ := exec_step h
  rw [hp]
  rfl

/-- Every run of a call takes some steps. -/
theorem During.takes (h : S.During always t c c₁) : ∃ hs, S.Takes t c hs c₁ := by
  induction h using Relation.ReflTransGen.head_induction_on with
  | refl => exact ⟨[], .refl _⟩
  | head hstep _ ih =>
    obtain ⟨hbusy, l, -, hl⟩ := hstep
    obtain ⟨hs, hrest⟩ := ih
    by_cases ht : l.thread = t
    · cases l with
      | call u op =>
        cases ht
        exact absurd hbusy (by simp [Label.thread, (exec_call hl).1])
      | step u n =>
        cases ht
        exact ⟨_, .own hl hrest⟩
    · exact ⟨hs, .other hbusy ht hl hrest⟩

namespace Takes

theorem during (h : S.Takes t c hs c₁) : S.During always t c c₁ := by
  induction h with
  | refl c => exact .refl
  | other hbusy _ hl _ ih => exact .head ⟨hbusy, _, trivial, hl⟩ ih
  | own hl _ ih => exact .head ⟨busy_of_step hl, _, trivial, hl⟩ ih

/-- A step of the list is one the thread took in the run. -/
theorem mem {d d' : σ} (h : S.Takes t c hs c₁) (hd : (d, d') ∈ hs) :
    ∃ e e' n, S.During always t c e ∧ S.exec e (.step t n) = some e' ∧
      S.During always t e' c₁ ∧ e.st = d ∧ e'.st = d' := by
  induction h with
  | refl c => cases hd
  | other hbusy _ hl _ ih =>
    obtain ⟨e, e', n, hbefore, hstep, hafter, heq⟩ := ih hd
    exact ⟨e, e', n, .head ⟨hbusy, _, trivial, hl⟩ hbefore, hstep, hafter, heq⟩
  | own hl hrest ih =>
    rcases List.mem_cons.mp hd with heq | hd
    · cases heq
      exact ⟨_, _, _, .refl, hl, hrest.during, rfl, rfl⟩
    · obtain ⟨e, e', n, hbefore, hstep, hafter, heq⟩ := ih hd
      exact ⟨e, e', n, .head ⟨busy_of_step hl, _, trivial, hl⟩ hbefore, hstep, hafter, heq⟩

/-- Nothing happens after the last step of a call. -/
theorem settled (h : S.Takes t c [] c₁) (hback : c₁.pool t = none) : c₁ = c := by
  generalize hnil : ([] : List (σ × σ)) = hs at h
  induction h with
  | refl c => rfl
  | other hbusy ht hl hrest ih =>
    obtain rfl := ih hback hnil
    rw [← exec_pool hl ht, hback] at hbusy
    cases hbusy
  | own hl _ _ => cases hnil

/-- The last step of a call leaves the state it returns in. -/
theorem last {before : List (σ × σ)} {d d' : σ} (h : S.Takes t c (before ++ [(d, d')]) c₁)
    (hback : c₁.pool t = none) : d' = c₁.st := by
  generalize hall : before ++ [(d, d')] = hs at h
  induction h generalizing before with
  | refl c => simp at hall
  | other _ _ _ _ ih => exact ih hback hall
  | own _ hrest ih =>
    cases before with
    | nil =>
      cases hall
      rw [hrest.settled hback]
    | cons x before =>
      cases hall
      exact ih hback rfl

theorem accounts {φ : List (σ × σ) → Unit → Prop} (h : S.Takes t c hs c₁)
    (hback : c₁.pool t = none) (hφ : Prog.Owes φ (c.pool t)) : φ hs () := by
  induction h generalizing φ with
  | refl c =>
    rw [hback] at hφ
    exact hφ
  | other _ ht hl _ ih => exact ih hback (exec_pool hl ht ▸ hφ)
  | own hl _ ih =>
    obtain ⟨p, p', s', hp, hs, rfl⟩ := exec_step hl
    rw [hp] at hφ
    refine ih (φ := fun hs a => φ ((_, s') :: hs) a) hback ?_
    dsimp only
    rw [Function.update_self]
    cases p with
    | ret a => cases hs
    | loop body b k => exact hφ.elim
    | act f k =>
      obtain ⟨s₂, hf, heq⟩ := Option.map_eq_some_iff.mp hs
      cases heq
      exact Prog.owes_settle (hφ _ _ _ hf)

/-- **A call that returned has taken steps its code accounts for.** -/
theorem of_call {φ : List (σ × σ) → Unit → Prop} {op : Op} (hcode : (S.code t op).Accounts φ)
    (hcall : S.exec c (.call t op) = some c₁) (h : S.Takes t c₁ hs c₂)
    (hback : c₂.pool t = none) : φ hs () := by
  obtain ⟨-, -, rfl⟩ := exec_call hcall
  refine h.accounts hback ?_
  dsimp only
  rw [Function.update_self]
  exact Prog.owes_settle hcode

end Takes

end System

end Fanring.Conc
