import Fanring.Blocking
import Fanring.Conc.Trace

/-!
# The park protocol

`blocking::run` over an endpoint nobody knows anything about. What the loop does to an endpoint is
the sequence of its calls (try, register, recheck, drop the registration, send what was held back,
sleep) and of their answers. `Blocking.traced` is any endpoint with that sequence written down, and
`Blocking.tracks` says that the writing down changes nothing: every run of the loop is a run of the
loop with its log. The endpoint's answers are its own: any code over any state, which any other
thread may change between two steps.

`Step` is the protocol: which call may be made in which phase, and which phase each answer leads to.
The loop refines it (`run_follows`), and everything said about runs is read off the phases.
-/

set_option autoImplicit false

namespace Fanring

open Conc

/-- What a recheck made under the registration holds back. -/
def Recheck.deferred {ι ο δ : Type} : Recheck ι ο δ → Option δ
  | .done _ d | .progressed _ d => some d
  | .pending _ => none

namespace Blocking

variable {σ ε ι ο δ : Type}

/-! ## The log -/

/-- A call of the loop, or the answer to one. -/
inductive Event (ι ο δ : Type)
  | attempt (input : ι)
  | attempted (result : Attempt ι ο)
  | register
  | registered (registration : Nat)
  | recheck (input : ι)
  | rechecked (result : Recheck ι ο δ)
  | unregister (registration : Nat)
  | unregistered (registration : Nat)
  | notify (deferred : δ)
  | notified
  | wait (registration : Nat)
  | waited (registration : Nat)
  | waitTimeout (registration : Nat)
  | timedOut (registration : Nat) (late : Bool)

/-- The endpoint, with its calls written down. -/
def traced (B : Blocking σ ε ι ο δ) : Blocking (σ × List (Event ι ο δ)) ε ι ο δ where
  attempt e i := (B.attempt e i).traced (.attempt i) fun r => .attempted r.1
  recheck e i := (B.recheck e i).traced (.recheck i) fun r => .rechecked r.1
  notify e d := (B.notify e d).traced (.notify d) fun _ => .notified
  register := B.register.traced .register .registered
  unregister n := (B.unregister n).traced (.unregister n) fun _ => .unregistered n
  wait e n := (B.wait e n).traced (.wait n) fun _ => .waited n
  waitTimeout e n := (B.waitTimeout e n).traced (.waitTimeout n) (.timedOut n)

section Tracks

variable (B : Blocking σ ε ι ο δ)

theorem tracks_spin (spins : Nat) (e : ε) (i : ι) :
    Tracks (B.spin spins e i) (B.traced.spin spins e i) := by
  induction spins generalizing e i with
  | zero => exact .ret _
  | succ spins ih =>
    refine (Tracks.traced _ _ (B.attempt e i)).bind fun ⟨r, e⟩ => ?_
    cases r with
    | done o => exact .ret _
    | pending i => exact ih e i

theorem tracks_park (deadline : Bool) (n : Nat) (e : ε) (i : ι) :
    Tracks (B.park deadline n e i) (B.traced.park deadline n e i) := by
  cases deadline with
  | false => exact (Tracks.traced _ _ (B.wait e n)).bind fun _ => .ret _
  | true =>
    refine Tracks.oracle.bind fun late => ?_
    split
    · exact (Tracks.traced _ _ (B.unregister n)).bind fun _ => .ret _
    · refine (Tracks.traced _ _ (B.waitTimeout e n)).bind fun timedOut => ?_
      cases timedOut with
      | false => exact .ret _
      | true =>
        refine (Tracks.traced _ _ (B.attempt e i)).bind fun ⟨r, e⟩ => ?_
        cases r <;> exact .ret _

theorem tracks_round (deadline : Bool) (r : ε × ι) :
    Tracks (B.round deadline r) (B.traced.round deadline r) := by
  refine (Tracks.traced _ _ (B.attempt r.1 r.2)).bind fun ⟨a, e⟩ => ?_
  cases a with
  | done o => exact .ret _
  | pending i =>
    refine (Tracks.traced _ _ B.register).bind fun n => ?_
    refine (Tracks.traced _ _ (B.recheck e i)).bind fun ⟨a, e⟩ => ?_
    cases a with
    | done o d =>
      exact (Tracks.traced _ _ (B.unregister n)).bind fun _ =>
        (Tracks.traced _ _ (B.notify e d)).bind fun _ => .ret _
    | progressed i d =>
      exact (Tracks.traced _ _ (B.unregister n)).bind fun _ =>
        (Tracks.traced _ _ (B.notify e d)).bind fun _ => .ret _
    | pending i => exact B.tracks_park deadline n e i

/-- **Every run of the loop is a run of the loop with its log.** -/
theorem tracks (spins : Nat) (deadline : Bool) (e : ε) (i : ι) :
    Tracks (B.run spins deadline e i) (B.traced.run spins deadline e i) := by
  refine (B.tracks_spin spins e i).bind fun ⟨a, e⟩ => ?_
  cases a with
  | done o => exact .ret _
  | pending i => exact Tracks.iterate (B.tracks_round deadline) (e, i)

end Tracks

/-! ## The phases -/

/-- Where the loop is in the protocol. `next` is what it does once what was held back is sent:
    return an output, or go on with an input. -/
inductive Phase (ι ο δ : Type)
  | ready (input : ι)
  | attempting
  | tried (input : ι)
  | registering (input : ι)
  | registered (registration : Nat) (input : ι)
  | rechecking (registration : Nat)
  | due (registration : Nat) (deferred : δ) (next : ο ⊕ ι)
  | dropping (registration : Nat) (deferred : δ) (next : ο ⊕ ι)
  | owing (deferred : δ) (next : ο ⊕ ι)
  | notifying (next : ο ⊕ ι)
  | held (registration : Nat) (input : ι)
  | waiting (registration : Nat) (input : ι)
  | leaving (registration : Nat) (input : ι)
  | over (result : Except ι ο)

namespace Phase

/-- After an attempt. -/
def attempted : Attempt ι ο → Phase ι ο δ
  | .done o => .over (.ok o)
  | .pending i => .tried i

/-- After the recheck under a registration. -/
def rechecked (n : Nat) : Recheck ι ο δ → Phase ι ο δ
  | .done o d => .due n d (.inl o)
  | .progressed i d => .due n d (.inr i)
  | .pending i => .held n i

/-- After the notification. -/
def settled : ο ⊕ ι → Phase ι ο δ
  | .inl o => .over (.ok o)
  | .inr i => .ready i

/-- The registration that is live. -/
def live : Phase ι ο δ → List Nat
  | .registered n _ | .rechecking n | .due n _ _ | .dropping n _ _ | .held n _ | .waiting n _
  | .leaving n _ => [n]
  | _ => []

end Phase

/-- The protocol. -/
inductive Step : Phase ι ο δ → Event ι ο δ → Phase ι ο δ → Prop
  | attempt (i : ι) : Step (.ready i) (.attempt i) .attempting
  | retry (i : ι) : Step (.tried i) (.attempt i) .attempting
  | attempted (r : Attempt ι ο) : Step .attempting (.attempted r) (.attempted r)
  | register (i : ι) : Step (.tried i) .register (.registering i)
  | registered (n : Nat) (i : ι) : Step (.registering i) (.registered n) (.registered n i)
  | recheck (n : Nat) (i : ι) : Step (.registered n i) (.recheck i) (.rechecking n)
  | rechecked (n : Nat) (r : Recheck ι ο δ) :
      Step (.rechecking n) (.rechecked r) (.rechecked n r)
  | drop (n : Nat) (d : δ) (x : ο ⊕ ι) : Step (.due n d x) (.unregister n) (.dropping n d x)
  | dropped (n : Nat) (d : δ) (x : ο ⊕ ι) : Step (.dropping n d x) (.unregistered n) (.owing d x)
  | notify (d : δ) (x : ο ⊕ ι) : Step (.owing d x) (.notify d) (.notifying x)
  | notified (x : ο ⊕ ι) : Step (.notifying x) .notified (.settled x)
  | wait (n : Nat) (i : ι) : Step (.held n i) (.wait n) (.waiting n i)
  | waited (n : Nat) (i : ι) : Step (.waiting n i) (.waited n) (.ready i)
  | waitTimeout (n : Nat) (i : ι) : Step (.held n i) (.waitTimeout n) (.waiting n i)
  | timedOut (n : Nat) (i : ι) (late : Bool) : Step (.waiting n i) (.timedOut n late) (.ready i)
  | leave (n : Nat) (i : ι) : Step (.held n i) (.unregister n) (.leaving n i)
  | left (n : Nat) (i : ι) : Step (.leaving n i) (.unregistered n) (.over (.error i))

/-! ## The loop follows it -/

section Follows

variable (B : Blocking σ ε ι ο δ) {start : Phase ι ο δ}

/-- The contract of a loop that started in phase `start`. -/
abbrev C (start : Phase ι ο δ) : Contract (σ × List (Event ι ο δ)) := .following Step start

/-- Between two tries: an attempt with this input comes next. -/
def Rest (start : Phase ι ο δ) (i : ι) (s : σ × List (Event ι ο δ)) : Prop :=
  In Step start (.ready i) s ∨ In Step start (.tried i) s

/-- What the loop returns with. -/
def Ends (start : Phase ι ο δ) (deadline : Bool) : Except ι ο → σ × List (Event ι ο δ) → Prop
  | .ok o, s => In Step start (.over (.ok o)) s
  | .error i, s => deadline = true ∧
      (In Step start (.tried i) s ∨ In Step start (.over (.error i)) s)

/-- What a round ends in. -/
def Turns (start : Phase ι ο δ) (deadline : Bool) :
    (ε × ι) ⊕ (Except ι ο × ε) → σ × List (Event ι ο δ) → Prop
  | .inl r => Rest start r.2
  | .inr r => Ends start deadline r.1

theorem stable_rest (i : ι) : (C (σ := σ) start).Stable (Rest start i) :=
  Triple.stable_log fun l => Path Step start l (.ready i) ∨ Path Step start l (.tried i)

theorem stable_ends (deadline : Bool) (r : Except ι ο) :
    (C (σ := σ) start).Stable (Ends start deadline r) := by
  cases r with
  | ok o => exact Triple.stable_in _
  | error i =>
    exact (Contract.Stable.pure _).and (Triple.stable_log fun l =>
      Path Step start l (.tried i) ∨ Path Step start l (.over (.error i)))

theorem stable_turns (deadline : Bool) (r : (ε × ι) ⊕ (Except ι ο × ε)) :
    (C (σ := σ) start).Stable (Turns start deadline r) := by
  cases r with
  | inl r => exact stable_rest r.2
  | inr r => exact stable_ends deadline r.1

theorem attempt_follows (e : ε) (i : ι) :
    Triple (C start) (Rest start i) (B.traced.attempt e i) fun r =>
      In Step start (.attempted r.1) := by
  rintro s hs (h | h)
  · exact Triple.traced (.attempt i) (fun r => .attempted r.1) s hs h
  · exact Triple.traced (.retry i) (fun r => .attempted r.1) s hs h

theorem spin_follows (spins : Nat) (e : ε) (i : ι) :
    Triple (C start) (Rest start i) (B.traced.spin spins e i) fun r s => match r.1 with
      | .done o => In Step start (.over (.ok o)) s
      | .pending i => Rest start i s := by
  induction spins generalizing e i with
  | zero => exact Triple.ret (stable_rest i) fun _ _ h => h
  | succ spins ih =>
    refine (B.attempt_follows e i).bind fun ⟨r, e⟩ => ?_
    cases r with
    | done o => exact Triple.ret (Triple.stable_in _) fun _ _ h => h
    | pending i => exact (ih e i).pre fun _ _ h => .inr h

theorem park_follows (deadline : Bool) (n : Nat) (e : ε) (i : ι) :
    Triple (C start) (In Step start (.held n i)) (B.traced.park deadline n e i)
      (Turns start deadline) := by
  cases deadline with
  | false =>
    refine (Triple.traced (.wait n i) fun _ => .waited n i).bind fun _ => ?_
    exact Triple.ret (stable_turns _ _) fun _ _ h => .inl h
  | true =>
    -- whether the deadline has passed is not the endpoint's to say
    have hclock : Triple (C start) (In Step start (.held n i)) (Prog.oracle (σ := σ × _))
        fun _ => In Step start (.held n i) := by
      refine Triple.act (Triple.stable_in _) (fun _ hg => absurd trivial hg)
        fun s k s' hs h hf _ => ?_
      cases hf
      exact ⟨hs, trivial, fun s' he => (Triple.stable_in _).env he hs h⟩
    refine hclock.bind fun late => ?_
    split
    · refine (Triple.traced (.leave n i) fun _ => .left n i).bind fun _ => ?_
      exact Triple.ret (stable_turns _ _) fun _ _ h => ⟨rfl, .inr h⟩
    · refine (Triple.traced (.waitTimeout n i) fun b => .timedOut n i b).bind fun timedOut => ?_
      cases timedOut with
      | false => exact Triple.ret (stable_turns _ _) fun _ _ h => .inl h
      | true =>
        refine ((B.attempt_follows e i).pre fun _ _ h => .inl h).bind fun ⟨r, e⟩ => ?_
        cases r with
        | done o => exact Triple.ret (stable_turns _ _) fun _ _ h => h
        | pending i => exact Triple.ret (stable_turns _ _) fun _ _ h => ⟨rfl, .inl h⟩

/-- What the recheck held back is sent after the registration is gone. -/
theorem settle_follows {e : ε} {n : Nat} {d : δ} {x : ο ⊕ ι}
    {r : (ε × ι) ⊕ (Except ι ο × ε)} {deadline : Bool}
    (h : ∀ s : σ × List (Event ι ο δ), In Step start (.settled x) s → Turns start deadline r s) :
    Triple (C start) (In Step start (.due n d x))
      ((B.traced.unregister n).bind fun _ => (B.traced.notify e d).bind fun _ => .ret r)
      (Turns start deadline) := by
  refine (Triple.traced (.drop n d x) fun _ => .dropped n d x).bind fun _ => ?_
  refine (Triple.traced (.notify d x) fun _ => .notified x).bind fun _ => ?_
  exact Triple.ret (stable_turns _ _) fun s _ => h s

theorem round_follows (deadline : Bool) (r : ε × ι) :
    Triple (C start) (Rest start r.2) (B.traced.round deadline r) (Turns start deadline) := by
  refine (B.attempt_follows r.1 r.2).bind fun ⟨a, e⟩ => ?_
  cases a with
  | done o => exact Triple.ret (stable_turns _ _) fun _ _ h => h
  | pending i =>
    refine (Triple.traced (.register i) fun n => .registered n i).bind fun n => ?_
    refine (Triple.traced (.recheck n i) fun r => .rechecked n r.1).bind fun ⟨a, e⟩ => ?_
    cases a with
    | done o d => exact B.settle_follows fun _ h => h
    | progressed i d => exact B.settle_follows fun _ h => .inl h
    | pending i => exact B.park_follows deadline n e i

/-- **The loop refines the protocol**, over any endpoint. -/
theorem run_follows (spins : Nat) (deadline : Bool) (e : ε) (i : ι) :
    Triple (C start) (Rest start i) (B.traced.run spins deadline e i) fun r =>
      Ends start deadline r.1 := by
  refine (B.spin_follows spins e i).bind fun ⟨a, e⟩ => ?_
  cases a with
  | done o => exact Triple.ret (stable_ends _ _) fun _ _ h => h
  | pending i =>
    refine Triple.iterate_free (fun _ => trivial) (fun r => Rest start r.2) (stable_rest i)
      (fun _ _ h => h) (fun r => stable_ends _ _) fun r =>
        (B.round_follows deadline r).post fun a s _ h => ?_
    cases a <;> exact h

end Follows

/-! ## What a log says -/

namespace Event

/-- A registration is live from the answer that made it until its drop is done, or the sleep that
    used it up is. -/
def live : List Nat → Event ι ο δ → List Nat
  | regs, .registered n => n :: regs
  | regs, .unregistered n | regs, .waited n | regs, .timedOut n _ => regs.erase n
  | regs, _ => regs

/-- The registration a sleep is entered with. -/
def sleeps : Event ι ο δ → Option Nat
  | .wait n | .waitTimeout n => some n
  | _ => none

def isAttempt : Event ι ο δ → Bool
  | .attempt _ => true
  | _ => false

/-- The answer to a try, an attempt or a recheck. -/
def isTry : Event ι ο δ → Bool
  | .attempted _ | .rechecked _ => true
  | _ => false

/-- The input a try that was not ready handed back. -/
def notReady : Event ι ο δ → Option ι
  | .attempted (.pending i) | .rechecked (.pending i) => some i
  | _ => none

/-- The output of a try that was done. -/
def output : Event ι ο δ → Option ο
  | .attempted r => r.output
  | .rechecked r => r.output
  | _ => none

def notice : Event ι ο δ → Option δ
  | .notify d => some d
  | _ => none

end Event

/-- The registrations live at the end of a log. -/
def live (log : List (Event ι ο δ)) : List Nat := log.foldl Event.live []

/-- The notifications sent, in order. -/
def notices (log : List (Event ι ο δ)) : List δ := log.filterMap Event.notice

/-- The last try of the log. -/
def LastTry (log : List (Event ι ο δ)) (e : Event ι ο δ) : Prop :=
  ∃ l m, log = l ++ e :: m ∧ e.isTry = true ∧ ∀ e' ∈ m, e'.isTry = false

/-- The log after the recheck that held back `d`, up to the next attempt. -/
def Since (d : δ) (log m : List (Event ι ο δ)) : Prop :=
  ∃ l r, log = l ++ .rechecked r :: m ∧ r.deferred = some d ∧ ∀ e ∈ m, e.isAttempt = false

/-- The park protocol, as said of a log. -/
structure Parks (log : List (Event ι ο δ)) : Prop where
  /-- A sleep is entered with a live registration, under which one recheck was made, and that
      answered `Pending`. -/
  waits : ∀ l e n, l ++ [e] <+: log → e.sleeps = some n → live l = [n] ∧
    ∃ l₀ i j, l = l₀ ++ [.registered n, .recheck i, .rechecked (.pending j)]
  /-- Nothing held back is sent under a registration. -/
  quiet : ∀ l d, l ++ [.notify d] <+: log → live l = []
  /-- What a recheck held back is sent at most once before the next attempt. -/
  once : ∀ l d m, l <+: log → Since d l m → notices m <+: [d]
  /-- It has been sent when the next attempt is made. -/
  paid : ∀ l i d m, l ++ [.attempt i] <+: log → Since d l m → notices m = [d]
  /-- At most one registration is live. -/
  single : ∀ l, l <+: log → (live l).length ≤ 1

/-- The log of a loop that has returned. -/
structure Returned (deadline : Bool) (log : List (Event ι ο δ)) (r : Except ι ο) : Prop where
  unregistered : live log = []
  paid : ∀ d m, Since d log m → notices m = [d]
  /-- An input is given back at a deadline, by the last try, which was not ready. -/
  error : ∀ i, r = .error i → deadline = true ∧ ∃ e, LastTry log e ∧ e.notReady = some i
  /-- An output is the last try's. -/
  ok : ∀ o, r = .ok o → ∃ e, LastTry log e ∧ e.output = some o

/-! ## Read off the phases -/

section Path

variable {start φ : Phase ι ο δ} {i : ι} {l m : List (Event ι ο δ)}

theorem live_snoc (l : List (Event ι ο δ)) (e : Event ι ο δ) :
    live (l ++ [e]) = e.live (live l) := by
  simp [live]

/-- The phase knows which registration is live. -/
theorem live_of_path (h : Path Step (.ready i) l φ) : live l = φ.live := by
  induction h with
  | nil => rfl
  | snoc _ next ih =>
    rw [live_snoc, ih]
    cases next with
    | attempted r => cases r <;> rfl
    | rechecked n r => cases r <;> rfl
    | notified x => cases x <;> rfl
    | _ => simp [Event.live, Phase.live]

theorem live_le_one (φ : Phase ι ο δ) : φ.live.length ≤ 1 := by
  cases φ <;> simp [Phase.live]

/-- Which step leads into a phase: one case for each phase the results are read off. -/
def Entered (b : Phase ι ο δ) (e : Event ι ο δ) : Phase ι ο δ → Prop
  | .tried j => e = .attempted (.pending j)
  | .registered n _ => e = .registered n
  | .rechecking n => ∃ j, e = .recheck j ∧ b = .registered n j
  | .held n j => e = .rechecked (.pending j) ∧ b = .rechecking n
  | .leaving n j => e = .unregister n ∧ b = .held n j
  | .over (.error j) => ∃ n, e = .unregistered n ∧ b = .leaving n j
  | .over (.ok o) => e = .attempted (.done o) ∨ e = .notified ∧ b = .notifying (.inl o)
  | .notifying x => ∃ d, e = .notify d ∧ b = .owing d x
  | .owing d x => ∃ n, e = .unregistered n ∧ b = .dropping n d x
  | .dropping n d x => e = .unregister n ∧ b = .due n d x
  | .due _ d (.inl o) => e = .rechecked (.done o d)
  | .due _ d (.inr j) => e = .rechecked (.progressed j d)
  | _ => True

theorem Step.entered {b : Phase ι ο δ} {e : Event ι ο δ} (h : Step b e φ) : Entered b e φ := by
  cases h with
  | attempted r => cases r <;> simp [Entered, Phase.attempted]
  | rechecked n r => cases r <;> simp [Entered, Phase.rechecked]
  | notified x => cases x <;> simp [Entered, Phase.settled]
  | _ => simp [Entered]

/-- The last event of a log that has left the phase it started in. -/
theorem entered_of_path (h : Path Step start l φ) (hφ : φ ≠ start) :
    ∃ l₁ b e, l = l₁ ++ [e] ∧ Path Step start l₁ b ∧ Entered b e φ := by
  rcases h.last with ⟨-, rfl⟩ | ⟨l₁, b, e, rfl, h, next⟩
  · exact absurd rfl hφ
  · exact ⟨l₁, b, e, rfl, h, next.entered⟩

theorem ends_of_tried {j : ι} (h : Path Step (.ready i) l (.tried j)) :
    ∃ l₀, l = l₀ ++ [.attempted (.pending j)] := by
  obtain ⟨l₁, b, e, rfl, -, rfl⟩ := entered_of_path h nofun
  exact ⟨l₁, rfl⟩

/-- A registration under which one recheck was made, and that answered `Pending`. -/
theorem ends_of_held {n : Nat} {j : ι} (h : Path Step (.ready i) l (.held n j)) :
    ∃ l₀ k, l = l₀ ++ [.registered n, .recheck k, .rechecked (.pending j)] := by
  obtain ⟨l₁, b, e, rfl, h, rfl, rfl⟩ := entered_of_path h nofun
  obtain ⟨l₂, b, e, rfl, h, k, rfl, rfl⟩ := entered_of_path h nofun
  obtain ⟨l₃, b, e, rfl, -, rfl⟩ := entered_of_path h nofun
  exact ⟨l₃, k, by simp⟩

theorem ends_of_error {j : ι} (h : Path Step (.ready i) l (.over (.error j))) :
    ∃ l₀ n, l = l₀ ++ [.rechecked (.pending j), .unregister n, .unregistered n] := by
  obtain ⟨l₁, b, e, rfl, h, n, rfl, rfl⟩ := entered_of_path h nofun
  obtain ⟨l₂, b, e, rfl, h, rfl, rfl⟩ := entered_of_path h nofun
  obtain ⟨l₀, k, rfl⟩ := ends_of_held h
  exact ⟨l₀ ++ [.registered n, .recheck k], n, by simp⟩

theorem ends_of_ok {o : ο} (h : Path Step (.ready i) l (.over (.ok o))) :
    (∃ l₀, l = l₀ ++ [.attempted (.done o)]) ∨ ∃ l₀ n d, l = l₀ ++
      [.rechecked (.done o d), .unregister n, .unregistered n, .notify d, .notified] := by
  obtain ⟨l₁, b, e, rfl, h, rfl | ⟨rfl, rfl⟩⟩ := entered_of_path h nofun
  · exact .inl ⟨l₁, rfl⟩
  · obtain ⟨l₂, b, e, rfl, h, d, rfl, rfl⟩ := entered_of_path h nofun
    obtain ⟨l₃, b, e, rfl, h, n, rfl, rfl⟩ := entered_of_path h nofun
    obtain ⟨l₄, b, e, rfl, h, rfl, rfl⟩ := entered_of_path h nofun
    obtain ⟨l₅, b, e, rfl, -, rfl⟩ := entered_of_path h nofun
    exact .inr ⟨l₅, n, d, by simp⟩

/-- From the recheck that held something back to the next attempt: nothing is sent until the
    registration is gone, and then it is sent once. -/
theorem settling {n : Nat} {d : δ} {x : ο ⊕ ι} (h : Path Step (.due n d x) m φ)
    (hm : ∀ e ∈ m, e.isAttempt = false) :
    (notices m = [] ∧ (φ = .due n d x ∨ φ = .dropping n d x ∨ φ = .owing d x)) ∨
      (notices m = [d] ∧ (φ = .notifying x ∨ φ = .settled x)) := by
  induction h with
  | nil => exact .inl ⟨rfl, .inl rfl⟩
  | snoc _ next ih =>
    rename_i l a b e _
    have he : e.isAttempt = false := hm e (by simp)
    have hl : notices (l ++ [e]) = notices l ++ e.notice.toList := by
      cases h : e.notice <;> simp [notices, h]
    rw [hl]
    rcases ih fun e he => hm e (by simp [he]) with ⟨hn, rfl | rfl | rfl⟩ | ⟨hn, rfl | rfl⟩
    · cases next
      exact .inl ⟨by simp [hn, Event.notice], .inr (.inl rfl)⟩
    · cases next
      exact .inl ⟨by simp [hn, Event.notice], .inr (.inr rfl)⟩
    · cases next
      exact .inr ⟨by simp [hn, Event.notice], .inl rfl⟩
    · cases next
      exact .inr ⟨by simp [hn, Event.notice], .inr rfl⟩
    · -- settled, the loop returns or makes its next attempt
      cases x with
      | inl o => cases next
      | inr j =>
        cases next
        cases he

/-- The phase in which a recheck that held something back leaves the loop. -/
theorem since_path {d : δ} (h : Path Step start l φ) (hs : Since d l m) :
    ∃ n x, Path Step (.due n d x) m φ ∧ ∀ e ∈ m, e.isAttempt = false := by
  obtain ⟨l₀, r, rfl, hr, hm⟩ := hs
  rw [List.append_cons] at h
  obtain ⟨b, h₀, h⟩ := Path.append_iff.mp h
  obtain ⟨a, -, next⟩ := Path.snoc_iff.mp h₀
  cases next with
  | rechecked n r =>
    cases r with
    | done o d' =>
      cases hr
      exact ⟨n, .inl o, h, hm⟩
    | progressed j d' =>
      cases hr
      exact ⟨n, .inr j, h, hm⟩
    | pending j => cases hr

/-- What was held back is sent at most once before the next attempt, and has been sent in every
    phase that does not owe it. -/
theorem notices_since {d : δ} (h : Path Step start l φ) (hs : Since d l m) :
    notices m = [d] ∨ notices m = [] ∧
      ∃ n x, φ = .due n d x ∨ φ = .dropping n d x ∨ φ = .owing d x := by
  obtain ⟨n, x, h, hm⟩ := since_path h hs
  rcases settling h hm with ⟨hn, hφ⟩ | ⟨hn, -⟩
  · exact .inr ⟨hn, n, x, hφ⟩
  · exact .inl hn

/-- **A log that follows the protocol keeps it.** -/
theorem parks_of_path (h : Path Step (.ready i) l φ) : Parks l where
  waits l₁ e n hl he := by
    obtain ⟨b, c, h₁, next⟩ := h.allowed hl
    have hb : ∃ j, b = .held n j := by
      cases next <;> simp_all [Event.sleeps]
    obtain ⟨j, rfl⟩ := hb
    obtain ⟨l₀, k, hends⟩ := ends_of_held h₁
    exact ⟨live_of_path h₁, l₀, k, j, hends⟩
  quiet l₁ d hl := by
    obtain ⟨b, c, h₁, next⟩ := h.allowed hl
    rw [live_of_path h₁]
    cases next
    rfl
  once l₁ d m hl hs := by
    obtain ⟨rest, rfl⟩ := hl
    obtain ⟨b, h₁, -⟩ := Path.append_iff.mp h
    rcases notices_since h₁ hs with hn | ⟨hn, -⟩ <;> simp [hn]
  paid l₁ j d m hl hs := by
    obtain ⟨b, c, h₁, next⟩ := h.allowed hl
    rcases notices_since h₁ hs with hn | ⟨-, n, x, hb⟩
    · exact hn
    · cases next <;> simp_all
  single l₁ hl := by
    obtain ⟨rest, rfl⟩ := hl
    obtain ⟨b, h₁, -⟩ := Path.append_iff.mp h
    rw [live_of_path h₁]
    exact live_le_one b

theorem returned_of_ends {deadline : Bool} {r : Except ι ο} {s : σ × List (Event ι ο δ)}
    (h : Ends (.ready i) deadline r s) : Returned deadline s.2 r := by
  cases r with
  | ok o =>
    have h : Path Step (.ready i) s.2 (.over (.ok o)) := h
    refine ⟨live_of_path h, fun d m hs => ?_, nofun, fun o' ho => ?_⟩
    · exact (notices_since h hs).resolve_right (by simp)
    · cases ho
      rcases ends_of_ok h with ⟨l₀, hl⟩ | ⟨l₀, n, d, hl⟩
      · exact ⟨_, ⟨l₀, [], hl, rfl, nofun⟩, rfl⟩
      · exact ⟨_, ⟨l₀, _, hl, rfl, by simp [Event.isTry]⟩, rfl⟩
  | error j =>
    obtain ⟨hdeadline, h | h⟩ := h
    · refine ⟨live_of_path h, fun d m hs => ?_, fun j' hj => ?_, nofun⟩
      · exact (notices_since h hs).resolve_right (by simp)
      · cases hj
        obtain ⟨l₀, hl⟩ := ends_of_tried h
        exact ⟨hdeadline, _, ⟨l₀, [], hl, rfl, nofun⟩, rfl⟩
    · refine ⟨live_of_path h, fun d m hs => ?_, fun j' hj => ?_, nofun⟩
      · exact (notices_since h hs).resolve_right (by simp)
      · cases hj
        obtain ⟨l₀, n, hl⟩ := ends_of_error h
        exact ⟨hdeadline, _, ⟨l₀, _, hl, rfl, by simp [Event.isTry]⟩, rfl⟩

end Path

/-! ## Every run -/

/-- The loop on its own, with no log: its runs are the runs with a log. -/
theorem run_logged (B : Blocking σ ε ι ο δ) (spins : Nat) (deadline : Bool) (e : ε) (i : ι)
    {s s' : σ} {p : Prog σ (Except ι ο × ε)}
    (hrun : Among (fun _ _ => True) (B.run spins deadline e i) s p s') :
    ∃ p' log, Tracks p p' ∧
      Among (fun s s' => s'.2 = s.2) (B.traced.run spins deadline e i) (s, []) p' (s', log) ∧
      ∀ r, p = .ret r → ∃ log', Among (fun s s' => s'.2 = s.2) (B.traced.run spins deadline e i)
        (s, []) (.ret r) (s', log') := by
  obtain ⟨p', log, hrun', h⟩ := (B.tracks spins deadline e i).among hrun []
  refine ⟨p', log, h, hrun', fun r hr => ?_⟩
  subst hr
  obtain ⟨log', hrest⟩ := h.answered s' log
  exact ⟨log', hrun'.trans hrest⟩

/-- **The blocking loop keeps the park protocol, whatever it blocks on.** `B` is any endpoint: its
    tries answer what they like, its sleeps end when they like, and others change its state at any
    moment. At every moment of every run the calls so far keep the protocol, and a run that has
    returned left nothing behind it: no registration, nothing unsent, and an input only at a
    deadline, from a last try that was not ready. -/
theorem run_parks (B : Blocking σ ε ι ο δ) (spins : Nat) (deadline : Bool) (e : ε) (i : ι) {s : σ}
    {p : Prog (σ × List (Event ι ο δ)) (Except ι ο × ε)} {s' : σ × List (Event ι ο δ)}
    (hrun : Among (fun s s' => s'.2 = s.2) (B.traced.run spins deadline e i) (s, []) p s') :
    Parks s'.2 ∧ ∀ r, p = .ret r → Returned deadline s'.2 r.1 := by
  have h : Triple (C (.ready i)) (In Step (.ready i) (.ready i)) (B.traced.run spins deadline e i)
      fun r => Ends (.ready i) deadline r.1 :=
    (B.run_follows spins deadline e i).pre fun _ _ h => .inl h
  obtain ⟨⟨φ, hpath⟩, hends⟩ := h.among hrun
  exact ⟨parks_of_path hpath, fun r hr => returned_of_ends (hends r hr)⟩

/-- An endpoint that is never ready and makes progress the first `n` times it is rechecked. -/
def countdown : Blocking Nat Unit Nat Nat Nat where
  attempt _ i := pure (.pending i, ())
  recheck _ i := .atomic fun n => match n with
    | 0 => ((.pending i, ()), 0)
    | n + 1 => ((.progressed i n, ()), n)
  notify _ _ := pure ()
  register := pure 4
  unregister _ := pure ()
  wait _ _ := pure ()
  waitTimeout _ _ := pure true

/-- The log of a run over it, with one spin and a deadline that its only sleep runs into. -/
def countdownLog : List (Event Nat Nat Nat) :=
  [.attempt 7, .attempted (.pending 7),
    .attempt 7, .attempted (.pending 7), .register, .registered 4, .recheck 7,
    .rechecked (.progressed 7 0), .unregister 4, .unregistered 4, .notify 0, .notified,
    .attempt 7, .attempted (.pending 7), .register, .registered 4, .recheck 7,
    .rechecked (.pending 7), .waitTimeout 4, .timedOut 4 true,
    .attempt 7, .attempted (.pending 7)]

theorem countdown_parks : Parks countdownLog ∧ Returned true countdownLog (.error 7) := by
  have hdrive : (countdown.traced.run 1 true () 7).drive (1, []) (List.replicate 27 0) =
      some (.ret (.error 7, ()), (0, countdownLog)) := rfl
  have h := run_parks countdown 1 true () 7 (Among.of_drive hdrive)
  exact ⟨h.1, h.2 _ rfl⟩

end Blocking

end Fanring
