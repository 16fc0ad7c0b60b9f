import Fanring.Conc.Solo
import Fanring.Conc.System
import Fanring.Conc.Trace

/-!
# Code that does what other code does

A model in which several accesses are one step is right if every run of the code access by access
is a run of it. `Follows` compares the two codes along a function `view` from the state of the finer
one to the state of the coarser one: each step of the finer code, whatever other threads do between
two of them, is matched by steps of the coarser code on the view of the state, none of them
included, taken without interruption. What the finer code knows of the state on its way is what its
contract lets it know, so a rule for an access starts from the triple of that access.

A `Refinement` does so for every operation of a system. `Refinement.run` is the theorem it pays for:
every run of the finer system has a run of the coarser one with the same calls in the same order,
the state of which is the view of the finer state, and in which whoever has returned in the finer
one has returned. The finer runs may be restricted to states that are `fair`.
-/

set_option autoImplicit false

namespace Fanring.Conc

variable {σ τ α β γ δ : Type}

/-! ## Code driven alone -/

theorem Prog.drive_bind {q q' : Prog σ α} {f : α → Prog σ β} {s s' : σ} {ns : List Nat}
    (h : q.drive s ns = some (q', s')) : (q.bind f).drive s ns = some (q'.bind f, s') := by
  induction ns generalizing q s with
  | nil =>
    cases h
    rfl
  | cons n ns ih =>
    obtain ⟨⟨q₁, s₁⟩, hstep, h⟩ := Option.bind_eq_some_iff.mp h
    have hq : ∀ a, q ≠ .ret a := by
      rintro a rfl
      cases hstep
    simp only [drive, step_bind hq, hstep, Option.map_some, Option.bind_some]
    exact ih h

/-! ## One code against another -/

/-- From `s`, among the others' steps, each step of `p` is matched by steps of `q` on the view of
    the state; when `p` has answered, so has `q`, and the answers and the state are in `Q`. -/
def Follows (C : Contract σ) (fair : σ → Prop) (view : σ → τ) :
    {α : Type} → Prog σ α → Prog τ β → (α → β → σ → Prop) → σ → Prop
  | _, .ret a, q, Q, s => ∃ b, q = .ret b ∧ ∀ s', C.Env s s' → Q a b s'
  | _, .act f k, q, Q, s => ∀ s₁, C.Env s s₁ → ∀ n s₂, f n s₁ = some s₂ → C.cond n s₁ → fair s₁ →
      C.inv s₂ ∧ ∃ ns q', q.drive (view s₁) ns = some (q', view s₂) ∧
        Follows C fair view (k n s₁) q' Q s₂
  | _, .loop _ _ _, _, _, _ => False

section Rules

variable {C : Contract σ} {fair : σ → Prop} {view : σ → τ} {P : σ → Prop}

theorem Follows.env {p : Prog σ α} {q : Prog τ β} {Q : α → β → σ → Prop} {s s' : σ}
    (h : Follows C fair view p q Q s) (he : C.Env s s') : Follows C fair view p q Q s' := by
  cases p with
  | ret a =>
    obtain ⟨b, hb, hQ⟩ := h
    exact ⟨b, hb, fun s₁ h₁ => hQ s₁ (he.trans h₁)⟩
  | act f k => exact fun s₁ h₁ => h s₁ (he.trans h₁)
  | loop body b k => exact h.elim

theorem Follows.bind {p : Prog σ α} {q : Prog τ β} {f : α → Prog σ γ} {g : β → Prog τ δ}
    {Q : α → β → σ → Prop} {R : γ → δ → σ → Prop} {s : σ} (hs : C.inv s)
    (h : Follows C fair view p q Q s)
    (hf : ∀ a b s, C.inv s → Q a b s → Follows C fair view (f a) (g b) R s) :
    Follows C fair view (p.bind f) (q.bind g) R s := by
  induction p generalizing q s with
  | ret a =>
    obtain ⟨b, rfl, hQ⟩ := h
    exact hf a b s hs (hQ s (.refl s))
  | act f' k ih =>
    intro s₁ he n s₂ hs₂ hc hfair
    obtain ⟨hi, ns, q', hdrive, h'⟩ := h s₁ he n s₂ hs₂ hc hfair
    exact ⟨hi, ns, q'.bind g, Prog.drive_bind hdrive, ih n s₁ hi h' hf⟩
  | loop body b k => exact h.elim

/-- From every state `P` holds of, `q` does what `p` does, and they end in `Q`. -/
def Matches (C : Contract σ) (fair : σ → Prop) (view : σ → τ) (P : σ → Prop) (p : Prog σ α)
    (q : Prog τ β) (Q : α → β → σ → Prop) : Prop :=
  ∀ s, C.inv s → P s → Follows C fair view p q Q s

namespace Matches

theorem ret {a : α} {b : β} {Q : α → β → σ → Prop} (hQ : C.Stable (Q a b))
    (h : ∀ s, C.inv s → P s → Q a b s) : Matches C fair view P (.ret a) (.ret b) Q :=
  fun s hs hp => ⟨b, rfl, fun _ he => hQ.env he hs (h s hs hp)⟩

theorem pre {P' : σ → Prop} {p : Prog σ α} {q : Prog τ β} {Q : α → β → σ → Prop}
    (h : Matches C fair view P p q Q) (hP : ∀ s, C.inv s → P' s → P s) :
    Matches C fair view P' p q Q :=
  fun s hs hp => h s hs (hP s hs hp)

theorem bind {p : Prog σ α} {q : Prog τ β} {f : α → Prog σ γ} {g : β → Prog τ δ}
    {Q : α → β → σ → Prop} {R : γ → δ → σ → Prop} (hp : Matches C fair view P p q Q)
    (hf : ∀ a b, Matches C fair view (Q a b) (f a) (g b) R) :
    Matches C fair view P (p.bind f) (q.bind g) R :=
  fun s hs h => (hp s hs h).bind hs fun a b s hs hq => hf a b s hs hq

/-- Code that is matched by nothing, and what comes after it. -/
theorem skip {p : Prog σ α} {f : α → Prog σ γ} {q : Prog τ δ} {Q : α → Unit → σ → Prop}
    {R : γ → δ → σ → Prop} (hp : Matches C fair view P p (.ret ()) Q)
    (hf : ∀ a, Matches C fair view (Q a ()) (f a) q R) : Matches C fair view P (p.bind f) q R :=
  hp.bind (g := fun _ => q) fun a _ => hf a

/-- Answers that are the same. -/
theorem bind_same {p : Prog σ α} {q : Prog τ α} {f : α → Prog σ γ} {g : α → Prog τ δ}
    {Q : α → σ → Prop} {R : γ → δ → σ → Prop}
    (hp : Matches C fair view P p q fun a b s => a = b ∧ Q a s)
    (hf : ∀ a, Matches C fair view (Q a) (f a) (g a) R) :
    Matches C fair view P (p.bind f) (q.bind g) R := by
  refine hp.bind fun a b s hs h => ?_
  obtain ⟨rfl, hq⟩ := h
  exact hf a s hs hq

/-- One access, whatever its triple: the coarser code goes on to where the rest of the finer code
    is matched. -/
theorem access {f : Nat → σ → Option σ} {g : Nat → σ → α} {k : α → Prog σ γ} {q : Prog τ δ}
    {Q : α → σ → Prop} {R : γ → δ → σ → Prop} (hP : C.Stable P)
    (h : Triple C P (.act f fun n s => .ret (g n s)) Q)
    (hmatch : ∀ s n s', C.inv s → P s → fair s → f n s = some s' → ∃ ns q',
      q.drive (view s) ns = some (q', view s') ∧
        Matches C fair view (fun s₁ => s₁ = s' ∧ Q (g n s) s₁) (k (g n s)) q' R) :
    Matches C fair view P ((Prog.act f fun n s => .ret (g n s)).bind k) q R := by
  intro s hs hp s₁ he n s₂ hf hc hfair
  obtain ⟨hi, -, hq⟩ := (h s hs hp s₁ he).2 n s₂ hf hc
  obtain ⟨ns, q', hdrive, hk⟩ := hmatch s₁ n s₂ (he.inv hs) (hP.env he hs hp) hfair hf
  exact ⟨hi, ns, q', hdrive, hk s₂ hi ⟨rfl, hq s₂ (.refl s₂)⟩⟩

/-- An access the view does not show. -/
theorem silent {f : Nat → σ → Option σ} {g : Nat → σ → α} {Q R : α → σ → Prop} (hP : C.Stable P)
    (hR : ∀ a, C.Stable (R a)) (h : Triple C P (.act f fun n s => .ret (g n s)) Q)
    (hview : ∀ s n s', C.inv s → P s → f n s = some s' → view s' = view s)
    (hQ : ∀ s n s', C.inv s → P s → f n s = some s' → Q (g n s) s' → R (g n s) s') :
    Matches C fair view P (.act f fun n s => .ret (g n s)) (.ret ()) fun a _ => R a := by
  refine access (k := .ret) hP h fun s n s' hs hp _ hf => ⟨[], .ret (), ?_, ?_⟩
  · rw [hview s n s' hs hp hf]
    rfl
  · refine .ret (hR _) fun s₁ _ h => ?_
    obtain ⟨rfl, hq⟩ := h
    exact hQ s n s₁ hs hp hf hq

/-- One access against one. -/
theorem atomic {f : σ → α × σ} {f' : τ → β × τ} {Q : α → σ → Prop} {R : α → β → σ → Prop}
    (hP : C.Stable P) (hR : ∀ a b, C.Stable (R a b)) (h : Triple C P (.atomic f) Q)
    (hview : ∀ s, C.inv s → P s → fair s → view (f s).2 = (f' (view s)).2)
    (hQ : ∀ s, C.inv s → P s → fair s → Q (f s).1 (f s).2 →
      R (f s).1 (f' (view s)).1 (f s).2) :
    Matches C fair view P (.atomic f) (.atomic f') R := by
  refine access (k := .ret) hP h fun s n s' hs hp hfair hf => ?_
  cases hf
  refine ⟨[0], .ret (f' (view s)).1, ?_, .ret (hR _ _) fun s₁ _ h => ?_⟩
  · rw [hview s hs hp hfair]
    rfl
  · obtain ⟨rfl, hq⟩ := h
    exact hQ s hs hp hfair hq

/-- Two accesses that wait for the same. -/
theorem await {en : Nat → σ → Bool} {f : Nat → σ → α × σ} {en' : Nat → τ → Bool}
    {f' : Nat → τ → β × τ} {Q : α → σ → Prop} {R : α → β → σ → Prop} (hP : C.Stable P)
    (hR : ∀ a b, C.Stable (R a b)) (h : Triple C P (.await en f) Q)
    (hen : ∀ s n, C.inv s → P s → en n s = true → en' n (view s) = true)
    (hview : ∀ s n, C.inv s → P s → view (f n s).2 = (f' n (view s)).2)
    (hQ : ∀ s n, C.inv s → P s → Q (f n s).1 (f n s).2 → R (f n s).1 (f' n (view s)).1 (f n s).2) :
    Matches C fair view P (.await en f) (.await en' f') R := by
  refine access (k := .ret) hP h fun s n s' hs hp hfair hf => ?_
  obtain ⟨hn, hf⟩ := Option.ite_none_right_eq_some.mp hf
  cases hf
  refine ⟨[n], .ret (f' n (view s)).1, ?_, .ret (hR _ _) fun s₁ _ h => ?_⟩
  · rw [hview s n hs hp]
    simp [Prog.drive, Prog.await, Prog.step, hen s n hs hp hn]
  · obtain ⟨rfl, hq⟩ := h
    exact hQ s n hs hp hq

end Matches

end Rules

/-! ## One system against another -/

variable {T Op : Type}

/-- The operations of `A` do what those of `S` do, on the view of the state. -/
structure Refinement {S : System σ T Op} (o : Outline S) (A : System τ T Op) where
  view : σ → τ
  /-- What the finer runs are restricted to. -/
  fair : σ → Prop
  may_ok : ∀ t op s, S.may t op s = true → A.may t op (view s) = true
  code_ok : ∀ t op s, o.inv s → o.idle t s → S.may t op s = true → o.callable t op s →
    Follows (o.contract t fun _ => True) fair view (S.code t op) (A.code t op)
      (fun _ _ _ => True) s

namespace Refinement

variable {S : System σ T Op} {o : Outline S} {A : System τ T Op}

/-- What is left of the operation the thread is in is matched. -/
def Thread (r : Refinement o A) (t : T) (s : σ) : Option (Prog σ Unit) → Prog τ Unit → Prop
  | none, q => q = .ret ()
  | some p, q => Follows (o.contract t fun _ => True) r.fair r.view p q (fun _ _ _ => True) s

/-- The coarser system is where the finer one is. -/
structure Shows (r : Refinement o A) (c : Config σ T) (d : Config τ T) : Prop where
  state : d.st = r.view c.st
  threads : ∀ t, ∃ q, d.pool t = q.settle ∧ r.Thread t c.st (c.pool t) q

/-- Whoever has returned in the finer system has returned in the coarser one. -/
theorem Shows.idle {r : Refinement o A} {c : Config σ T} {d : Config τ T} (h : r.Shows c d) {t : T}
    (ht : c.pool t = none) : d.pool t = none := by
  obtain ⟨q, hq, hthread⟩ := h.threads t
  rw [ht] at hthread
  cases hthread
  exact hq

theorem Thread.settle {r : Refinement o A} {t : T} {s : σ} {p : Prog σ Unit} {q : Prog τ Unit}
    (h : Follows (o.contract t fun _ => True) r.fair r.view p q (fun _ _ _ => True) s) :
    r.Thread t s p.settle q := by
  cases p with
  | ret a =>
    obtain ⟨b, hb, -⟩ := h
    exact hb
  | act f k => exact h
  | loop body b k => exact h

/-- The step of another thread. -/
theorem Thread.other {r : Refinement o A} {t u : T} {s s' : σ} {p : Option (Prog σ Unit)}
    {q : Prog τ Unit} (h : r.Thread t s p q) (hu : u ≠ t) (hs' : o.inv s')
    (hg : o.guar u s s') : r.Thread t s' p q := by
  cases p with
  | none => exact h
  | some p => exact Follows.env h (.single ⟨⟨u, hu, hg⟩, hs'⟩)

end Refinement

variable [DecidableEq T]

/-- A run, with the calls it makes. -/
inductive System.Makes (S : System σ T Op) (ok : Config σ T → Label T Op → Prop)
    (c : Config σ T) : List (T × Op) → Config σ T → Prop
  | start : S.Makes ok c [] c
  | call {cs : List (T × Op)} {c₁ c₂ : Config σ T} {t : T} {op : Op} (h : S.Makes ok c cs c₁)
      (hok : ok c₁ (.call t op)) (hl : S.exec c₁ (.call t op) = some c₂) :
      S.Makes ok c (cs ++ [(t, op)]) c₂
  | step {cs : List (T × Op)} {c₁ c₂ : Config σ T} {t : T} {n : Nat} (h : S.Makes ok c cs c₁)
      (hok : ok c₁ (.step t n)) (hl : S.exec c₁ (.step t n) = some c₂) : S.Makes ok c cs c₂

theorem System.Makes.mono {S : System σ T Op} {ok ok' : Config σ T → Label T Op → Prop}
    (hok : ∀ c l, ok c l → ok' c l) {c c' : Config σ T} {cs : List (T × Op)}
    (h : S.Makes ok c cs c') : S.Makes ok' c cs c' := by
  induction h with
  | start => exact .start
  | call _ h hl ih => exact ih.call (hok _ _ h) hl
  | step _ h hl ih => exact ih.step (hok _ _ h) hl

/-- Code that a thread runs alone is a run of the system. -/
theorem System.Makes.drive {S : System σ T Op} {c c₁ : Config σ T} {cs : List (T × Op)} {t : T}
    {q q' : Prog σ Unit} {s' : σ} {ns : List Nat} (h : S.Makes always c cs c₁)
    (hq : c₁.pool t = q.settle) (hdrive : q.drive c₁.st ns = some (q', s')) :
    S.Makes always c cs ⟨s', Function.update c₁.pool t q'.settle⟩ := by
  induction ns generalizing c₁ q with
  | nil =>
    cases hdrive
    rwa [← hq, Function.update_eq_self]
  | cons n ns ih =>
    obtain ⟨⟨q₁, s₁⟩, hstep, hdrive⟩ := Option.bind_eq_some_iff.mp hdrive
    have hsome : q.settle = some q := by
      cases q with
      | ret a => cases hstep
      | act f k => rfl
      | loop body b k => rfl
    have hl : S.exec c₁ (.step t n) = some ⟨s₁, Function.update c₁.pool t q₁.settle⟩ := by
      simp only [exec, hq, hsome, hstep, Option.map_some]
    have hrest := ih (h.step trivial hl) (Function.update_self ..) hdrive
    simpa only [Function.update_idem] using hrest

namespace Refinement

variable {S : System σ T Op} {o : Outline S} {A : System τ T Op}

theorem Shows.call {r : Refinement o A} {c c' : Config σ T} {d : Config τ T} {t : T} {op : Op}
    (h : r.Shows c d) (hgood : o.Good c) (hok : o.ok c (.call t op))
    (hl : S.exec c (.call t op) = some c') :
    ∃ d', A.exec d (.call t op) = some d' ∧ r.Shows c' d' := by
  obtain ⟨hp, hmay, rfl⟩ := System.exec_call hl
  have hidle := hgood.2 t
  rw [hp] at hidle
  refine ⟨⟨d.st, Function.update d.pool t (A.code t op).settle⟩, ?_, h.state, fun u => ?_⟩
  · simp only [System.exec, h.idle hp, h.state, r.may_ok t op c.st hmay, if_true]
  · by_cases hu : u = t
    · subst hu
      refine ⟨A.code u op, Function.update_self .., ?_⟩
      simp only [Function.update_self]
      exact .settle (r.code_ok u op c.st hgood.1 hidle hmay hok)
    · simp only [Function.update_of_ne hu]
      exact h.threads u

theorem Shows.step {r : Refinement o A} {c c' : Config σ T} {d₀ d : Config τ T} {t : T} {n : Nat}
    {cs : List (T × Op)} (h : r.Shows c d) (hgood : o.Good c) (hok : o.ok c (.step t n))
    (hfair : r.fair c.st) (hl : S.exec c (.step t n) = some c')
    (hrun : A.Makes System.always d₀ cs d) :
    ∃ d', A.Makes System.always d₀ cs d' ∧ r.Shows c' d' := by
  have hi := (hgood.step hok hl).1
  have hg := hgood.guarantee hok hl
  obtain ⟨p, p', s', hp, hstep, rfl⟩ := System.exec_step hl
  obtain ⟨q, hq, hthread⟩ := h.threads t
  rw [hp] at hthread
  cases p with
  | ret a => cases hstep
  | loop body b k => exact hthread.elim
  | act f k =>
    obtain ⟨s₂, hf, heq⟩ := Option.map_eq_some_iff.mp hstep
    cases heq
    obtain ⟨-, ns, q', hdrive, hrest⟩ := hthread c.st (.refl _) n s' hf hok hfair
    rw [← h.state] at hdrive
    refine ⟨_, hrun.drive hq hdrive, rfl, fun u => ?_⟩
    by_cases hu : u = t
    · subst hu
      refine ⟨q', Function.update_self .., ?_⟩
      simp only [Function.update_self]
      exact .settle hrest
    · simp only [Function.update_of_ne hu]
      obtain ⟨q₁, hq₁, hthread₁⟩ := h.threads u
      exact ⟨q₁, hq₁, hthread₁.other (Ne.symm hu) hi hg⟩

/-- **Every run of the finer system is one of the coarser**, with the same calls. -/
theorem run (r : Refinement o A) {c c' : Config σ T} {d : Config τ T} {cs : List (T × Op)}
    (hgood : o.Good c) (h : r.Shows c d)
    (hrun : S.Makes (fun c l => o.ok c l ∧ r.fair c.st) c cs c') :
    ∃ d', A.Makes System.always d cs d' ∧ r.Shows c' d' := by
  suffices o.Good c' ∧ ∃ d', A.Makes System.always d cs d' ∧ r.Shows c' d' from this.2
  induction hrun with
  | start => exact ⟨hgood, d, .start, h⟩
  | call _ hok hl ih =>
    obtain ⟨hgood₁, d₁, hrun₁, h₁⟩ := ih
    obtain ⟨d₂, hl', h₂⟩ := h₁.call hgood₁ hok.1 hl
    exact ⟨hgood₁.step hok.1 hl, d₂, hrun₁.call trivial hl', h₂⟩
  | step _ hok hl ih =>
    obtain ⟨hgood₁, d₁, hrun₁, h₁⟩ := ih
    exact ⟨hgood₁.step hok.1 hl, h₁.step hgood₁ hok.1 hok.2 hl hrun₁⟩

end Refinement

end Fanring.Conc
