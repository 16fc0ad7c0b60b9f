import Fanring.Conc.Steps
import Fanring.Flagged
import Fanring.Wait

/-!
# A wait cell, access by access

`WaitCell` of `wait.rs` with nothing put together: the state word is the word the source has, with
its flag and its count that wraps, the mutex is taken and given back in steps of their own, and so
are the accesses under it. `Fanring.WaitCell`, which the channels are built on, has the mutex
sections as single steps and a count that does not wrap; that every run of the cell here is a run of
that one is proved in `Fanring.Parking.Refined`.

One waiter registers, rechecks a condition and then drops its registration or sleeps on it, over and
over. Any number of notifiers make the condition true and notify. The condition is what the
notifiers have published so far (`effects`), so that what a recheck saw can be compared with what
was there.

A notifier that found the waiter registered goes on to the mutex. A waiter that found its snapshot
unchanged holds the mutex until it sleeps. So a notification either changes the snapshot before the
check or is still on its way to the condition variable when the waiter sleeps: `Standing.checked` is
that argument, and the rest of the invariant serves it.
-/

set_option autoImplicit false

namespace Fanring.Parking.Single

open Conc

inductive Tid
  | waiter
  | notifier (n : Nat)
  deriving DecidableEq

/-- What the proofs keep of a registration: the notifications issued when it was made and what they
    told of, what the recheck saw, and how many notifications had been issued when the snapshot was
    found unchanged, as long as the waiter relies on that. -/
structure Registration where
  since : Nat
  before : List Nat
  seen : Option (List Nat)
  checked : Option Nat

structure Cell (w : Nat) where
  state : BitVec w
  /-- Who holds the mutex. -/
  mutex : Option Tid
  /-- What the waiter does in the condition variable. -/
  sleep : Sleep
  /-- What the notifiers published. -/
  effects : List Nat
  ------------------------------------------------------------------------------------------------
  /-- The increments of the state so far. -/
  issued : Nat
  /-- What was published by notifiers that have issued a notification since. -/
  told : List Nat
  made : Nat → List Nat
  registration : Option Registration
  /-- The notifier has found the waiter registered and has not signalled yet. -/
  notifying : Nat → Bool

/-- The waiter relies on a check of its snapshot. -/
def Cell.relies {w : Nat} (c : Cell w) : Bool := c.registration.any (·.checked.isSome)

/-- What a waiter does with its registration after the recheck. -/
inductive Park
  | drop
  | wait
  | waitTimeout

inductive Op
  /-- One round of the waiter; what it does may depend on what the recheck saw. -/
  | round (park : List Nat → Park)
  | publish (effect : Nat)
  | notify

variable {w : Nat}

def Cell.new : Cell w := ⟨0#w, none, .awake, [], 0, [], fun _ => [], none, fun _ => false⟩

/-! ## The waiter -/

/-- `WaitCell::prepare`. -/
def prepare : Prog (Cell w) (BitVec w) :=
  .atomic fun c => (c.state ||| 1#w,
    { c with
      state := c.state ||| 1#w
      registration := some ⟨c.issued, c.told, none, none⟩ })

def recheck : Prog (Cell w) (List Nat) :=
  .atomic fun c => (c.effects,
    { c with registration := c.registration.map fun x => { x with seen := some c.effects } })

def lock (t : Tid) : Prog (Cell w) Unit :=
  .await (fun _ c => c.mutex.isNone) fun _ c => ((), { c with mutex := some t })

def unlock : Prog (Cell w) Unit := .write fun c => { c with mutex := none }

/-- `WaitRegistration::is_current`. -/
def isCurrent (snapshot : BitVec w) : Prog (Cell w) Bool :=
  .atomic fun c => (decide (c.state = snapshot),
    if c.state = snapshot then
      { c with registration := c.registration.map fun x => { x with checked := some c.issued } }
    else c)

/-- `Condvar::wait`, until it is signalled or the scheduler wakes it: of its own accord (`1`) or
    because the time is up (`2`). -/
def waitOn (late : Nat) : Prog (Cell w) Bool := do
  Prog.write fun c => { c with mutex := none, sleep := .asleep }
  let n ← Prog.await (fun n c => c.sleep == .signaled || (0 < n && n ≤ late)) fun n c => (n,
    { c with
      sleep := .awake
      registration := c.registration.map fun x => { x with checked := none } })
  lock .waiter
  return n == 2

/-- `Drop for WaitRegistration`. -/
def dropRegistration : Prog (Cell w) Unit :=
  .write fun c => { c with state := c.state &&& ~~~ 1#w, registration := none }

def waitTimeout (late : Nat) (snapshot : BitVec w) : Prog (Cell w) Bool := do
  lock .waiter
  if ← isCurrent snapshot then
    let timedOut ← waitOn late
    unlock
    dropRegistration
    return timedOut
  else
    unlock
    dropRegistration
    return false

def wait (snapshot : BitVec w) : Prog (Cell w) Unit := do
  let _ ← waitTimeout 1 snapshot

def round (park : List Nat → Park) : Prog (Cell w) Unit := do
  let snapshot ← prepare
  let seen ← recheck
  match park seen with
  | .drop => dropRegistration
  | .wait => wait snapshot
  | .waitTimeout =>
    let _ ← waitTimeout 2 snapshot

/-! ## The notifiers -/

def publish (n effect : Nat) : Prog (Cell w) Unit :=
  .write fun c =>
    { c with
      effects := c.effects ++ [effect]
      made := Function.update c.made n (c.made n ++ [effect]) }

/-- `Condvar::notify_one`. -/
def notifyOne (n : Nat) : Prog (Cell w) Unit :=
  .write fun c =>
    { c with
      sleep := if c.sleep = .asleep then .signaled else c.sleep
      notifying := Function.update c.notifying n false }

/-- `WaitCell::notify_waiter`. -/
def notifyWaiter (n : Nat) : Prog (Cell w) Unit := do
  lock (.notifier n)
  if ← Prog.atomic fun c => (decide (c.state &&& 1#w ≠ 0#w),
      if c.state &&& 1#w ≠ 0#w then c
      else { c with notifying := Function.update c.notifying n false }) then
    notifyOne n
  unlock

/-- `WaitCell::notify`. -/
def notify (n : Nat) : Prog (Cell w) Unit := do
  let previous ← Prog.atomic fun c => (c.state,
    { c with
      state := c.state + 2#w
      issued := c.issued + 1
      told := c.told ++ c.made n
      notifying := Function.update c.notifying n (decide (c.state &&& 1#w ≠ 0#w)) })
  if previous &&& 1#w ≠ 0#w then
    notifyWaiter n

def system (w : Nat) : System (Cell w) Tid Op where
  may
    | .waiter, .round _, _ => true
    | .notifier _, .publish _, _ => true
    | .notifier _, .notify, _ => true
    | _, _, _ => false
  code
    | .waiter, .round park => round park
    | .notifier n, .publish effect => publish n effect
    | .notifier n, .notify => notify n
    | _, _ => .ret ()

def start (w : Nat) : Config (Cell w) Tid := ⟨.new, fun _ => none⟩

/-! ## The invariant -/

/-- What holds of a registration as long as it stands. -/
structure Standing (s : Cell w) (x : Registration) : Prop where
  since_le : x.since ≤ s.issued
  before : s.issued = x.since → s.told = x.before
  published : ∀ e ∈ x.before, e ∈ s.effects
  seen : ∀ l, x.seen = some l → ∀ e ∈ x.before, e ∈ l
  /-- A notification after the check is on its way as long as the waiter relies on the check. -/
  checked : ∀ k, x.checked = some k → x.since ≤ k ∧ k ≤ s.issued ∧
    flagged w k true = flagged w x.since true ∧
    (s.mutex = some .waiter ∨ s.sleep = .asleep → s.issued = k ∨ ∃ n, s.notifying n = true)

structure Inv (s : Cell w) : Prop where
  word : s.state = flagged w s.issued s.registration.isSome
  made : ∀ n, ∀ e ∈ s.made n, e ∈ s.effects
  told : ∀ e ∈ s.told, e ∈ s.effects
  standing : ∀ x, s.registration = some x → Standing s x
  asleep : s.sleep = .asleep → s.mutex ≠ some .waiter ∧
    ∃ x, s.registration = some x ∧ x.seen.isSome ∧ x.checked.isSome
  /-- From the check until it sleeps the waiter holds the mutex. -/
  relied : s.sleep = .awake → s.relies = true → s.mutex = some .waiter

/-- Nothing that was published or issued is taken back. -/
structure Grows (s s' : Cell w) : Prop where
  issued : s.issued ≤ s'.issued
  told : ∀ e ∈ s.told, e ∈ s'.told
  made : ∀ n, ∀ e ∈ s.made n, e ∈ s'.made n

theorem Grows.same {s s' : Cell w} (hissued : s'.issued = s.issued) (htold : s'.told = s.told)
    (hmade : s'.made = s.made) : Grows s s' :=
  ⟨hissued.ge, fun _ he => htold ▸ he, fun _ _ he => hmade ▸ he⟩

theorem Grows.trans {s s' s'' : Cell w} (h : Grows s s') (h' : Grows s' s'') : Grows s s'' :=
  ⟨h.issued.trans h'.issued, fun e he => h'.told e (h.told e he),
    fun n e he => h'.made n e (h.made n e he)⟩

/-- What a step of one thread leaves to the others. -/
structure Guar (t : Tid) (s s' : Cell w) : Prop where
  mutex : ∀ u, u ≠ t → (s'.mutex = some u ↔ s.mutex = some u)
  waiter : t ≠ .waiter → s'.registration = s.registration ∧
    (s'.sleep = s.sleep ∨ s.sleep = .asleep ∧ s'.sleep = .signaled)
  notifier : ∀ n, t ≠ .notifier n → s'.notifying n = s.notifying n
  grows : Grows s s'

theorem Guar.refl (t : Tid) (s : Cell w) : Guar t s s :=
  ⟨fun _ _ => Iff.rfl, fun _ => ⟨rfl, .inl rfl⟩, fun _ _ => rfl, .same rfl rfl rfl⟩

def contract (w : Nat) (t : Tid) : Contract (Cell w) where
  inv := Inv
  rely s s' := ∃ u, u ≠ t ∧ Guar u s s'
  guar := Guar t
  cond _ _ := True
  goal _ := True

/-! ## Where the threads are -/

/-- Whether a thread holds the mutex. -/
def Holds (t : Tid) (mine : Bool) (s : Cell w) : Prop := s.mutex = some t ↔ mine = true

/-- The waiter, awake. -/
structure Waits (φ : Option Registration → Prop) (mine : Bool) (s : Cell w) : Prop where
  registration : φ s.registration
  holds : Holds .waiter mine s
  awake : s.sleep = .awake

/-- The waiter, in the condition variable. -/
structure Dozes (φ : Option Registration → Prop) (s : Cell w) : Prop where
  registration : φ s.registration
  holds : Holds .waiter false s
  sleep : s.sleep ≠ .awake

/-- A notifier; whether it is to signal, and whether it holds the mutex. -/
structure Notifies (n : Nat) (due mine : Bool) (s : Cell w) : Prop where
  due : s.notifying n = due
  holds : Holds (.notifier n) mine s

variable {t : Tid} {s s' : Cell w} {φ : Option Registration → Prop} {mine due : Bool} {n : Nat}

theorem Holds.other {u : Tid} (hg : Guar u s s') (hu : u ≠ t) (h : Holds t mine s) :
    Holds t mine s' := (hg.mutex t hu.symm).trans h

theorem Waits.stable : (contract w .waiter).Stable (Waits φ mine) := by
  rintro s s' - - ⟨u, hu, hg⟩ h
  obtain ⟨hreg, hsleep⟩ := hg.waiter hu
  refine ⟨hreg ▸ h.registration, h.holds.other hg hu, ?_⟩
  rcases hsleep with hs | ⟨hs, -⟩
  · exact hs.trans h.awake
  · exact absurd (hs.symm.trans h.awake) (by simp)

theorem Dozes.stable : (contract w .waiter).Stable (Dozes φ) := by
  rintro s s' - - ⟨u, hu, hg⟩ h
  obtain ⟨hreg, hsleep⟩ := hg.waiter hu
  refine ⟨hreg ▸ h.registration, h.holds.other hg hu, ?_⟩
  rcases hsleep with hs | ⟨-, hs⟩
  · exact fun heq => h.sleep (hs.symm.trans heq)
  · simp [hs]

theorem Notifies.stable : (contract w (.notifier n)).Stable (Notifies n due mine) := by
  rintro s s' - - ⟨u, hu, hg⟩ h
  exact ⟨(hg.notifier n hu).trans h.due, h.holds.other hg hu⟩

/-! ## The mutex -/

/-- The mutex may change hands whenever the waiter does not rely on a check without it. -/
theorem Inv.setMutex (h : Inv s) {m : Option Tid}
    (hm : m = some .waiter → s.sleep ≠ .asleep ∧ ∀ x, s.registration = some x → x.checked = none)
    (hrelied : s.sleep = .awake → s.relies = true → m = some .waiter) :
    Inv { s with mutex := m } where
  word := h.word
  made := h.made
  told := h.told
  standing x hx :=
    { h.standing x hx with
      checked := fun k hk => by
        obtain ⟨h₁, h₂, h₃, h₄⟩ := (h.standing x hx).checked k hk
        refine ⟨h₁, h₂, h₃, fun hor => ?_⟩
        rcases hor with hw | hs
        · exact absurd (((hm hw).2 x hx).symm.trans hk) (by simp)
        · exact h₄ (.inr hs) }
  asleep hs := ⟨fun hw => (hm hw).1 hs, (h.asleep hs).2⟩
  relied := hrelied

/-- Whoever else has the mutex, the waiter does not rely on a check. -/
theorem Inv.unrelied (h : Inv s) (hm : s.mutex ≠ some .waiter) {p : Prop} :
    s.sleep = .awake → s.relies = true → p :=
  fun hs hr => absurd (h.relied hs hr) hm

/-- A registration without a check is relied on by nobody. -/
theorem Cell.not_relies (hφ : ∀ x, φ (some x) → x.checked = none) (h : φ s.registration) :
    s.relies = false := by
  unfold Cell.relies
  cases hr : s.registration with
  | none => rfl
  | some x => simp [hφ x (hr ▸ h)]

theorem Guar.setMutex {m : Option Tid} (hm : ∀ u, u ≠ t → (m = some u ↔ s.mutex = some u)) :
    Guar t s { s with mutex := m } :=
  ⟨hm, fun _ => ⟨rfl, .inl rfl⟩, fun _ _ => rfl, .same rfl rfl rfl⟩

theorem mutex_free (h : s.mutex.isNone = true) : s.mutex = none := Option.isNone_iff_eq_none.mp h

theorem Guar.lock (h : s.mutex.isNone = true) : Guar t s { s with mutex := some t } := by
  refine .setMutex fun u hu => ?_
  rw [mutex_free h]
  simp [hu.symm]

theorem Guar.unlock (h : s.mutex = some t) : Guar t s { s with mutex := none } := by
  refine .setMutex fun u hu => ?_
  rw [h]
  simp [hu.symm]

theorem waiter_lock_spec (hφ : ∀ x, φ (some x) → x.checked = none) :
    Triple (contract w .waiter) (Waits φ false) (lock .waiter) fun _ => Waits φ true :=
  Triple.await (fun _ => trivial) Waits.stable (fun _ => Waits.stable) fun s _ hi h hfree _ =>
    ⟨hi.setMutex (fun _ => ⟨by simp [h.awake], fun x hx => hφ x (hx ▸ h.registration)⟩)
      fun _ _ => rfl, .lock hfree, h.registration, by simp [Holds], h.awake⟩

theorem waiter_unlock_spec (hφ : ∀ x, φ (some x) → x.checked = none) :
    Triple (contract w .waiter) (Waits φ true) unlock fun _ => Waits φ false :=
  Triple.atomic Waits.stable (fun _ => Waits.stable) fun _ _ hi h _ =>
    ⟨hi.setMutex nofun (by simp [Cell.not_relies hφ h.registration]), .unlock (h.holds.mpr rfl),
      h.registration, by simp [Holds], h.awake⟩

theorem notifier_lock_spec :
    Triple (contract w (.notifier n)) (Notifies n due false) (lock (.notifier n)) fun _ =>
      Notifies n due true :=
  Triple.await (fun _ => trivial) Notifies.stable (fun _ => Notifies.stable)
    fun s _ hi h hfree _ => ⟨hi.setMutex nofun (hi.unrelied (by simp [mutex_free hfree])),
      .lock hfree, h.due, by simp [Holds]⟩

theorem notifier_unlock_spec :
    Triple (contract w (.notifier n)) (Notifies n due true) unlock fun _ =>
      Notifies n due false :=
  Triple.atomic Notifies.stable (fun _ => Notifies.stable) fun _ _ hi h _ =>
    ⟨hi.setMutex nofun (hi.unrelied (by simp [h.holds.mpr rfl])), .unlock (h.holds.mpr rfl),
      h.due, by simp [Holds]⟩

/-! ## The waiter -/

/-- No registration. -/
def Out (r : Option Registration) : Prop := r = none

/-- A registration with this snapshot; whether it was rechecked and whether the waiter relies on a
    check of the snapshot. -/
def In (snapshot : BitVec w) (seen checked : Bool) (r : Option Registration) : Prop :=
  ∃ x, r = some x ∧ snapshot = flagged w x.since true ∧ x.seen.isSome = seen ∧
    x.checked.isSome = checked

variable {snapshot : BitVec w} {seen checked : Bool}

theorem In.unchecked (x : Registration) (h : In snapshot seen false (some x)) :
    x.checked = none := by
  obtain ⟨y, hy, -, -, hc⟩ := h
  cases hy
  simpa using hc

/-- The waiter's own steps that leave the mutex alone. -/
theorem Guar.own (hm : s'.mutex = s.mutex) (hn : s'.notifying = s.notifying) (hg : Grows s s') :
    Guar .waiter s s' :=
  ⟨fun u _ => by rw [hm], fun h => absurd rfl h, fun _ _ => by rw [hn], hg⟩

theorem prepare_spec :
    Triple (contract w .waiter) (Waits Out false) prepare fun snapshot =>
      Waits (In snapshot false false) false := by
  refine Triple.atomic Waits.stable (fun _ => Waits.stable) fun s _ hi h _ => ?_
  have hword : s.state ||| 1#w = flagged w s.issued true := by
    rw [hi.word]
    exact Flagged.or_one
  refine ⟨⟨hword, hi.made, hi.told, fun x hx => ?_, fun hs => ?_, nofun⟩,
    .own rfl rfl (.same rfl rfl rfl), ⟨_, rfl, hword, rfl, rfl⟩, h.holds, h.awake⟩
  · cases hx
    exact ⟨le_rfl, fun _ => rfl, hi.told, nofun, nofun⟩
  · exact absurd (hs.symm.trans h.awake) (by simp)

theorem recheck_spec :
    Triple (contract w .waiter) (Waits (In snapshot false false) false) recheck fun _ =>
      Waits (In snapshot true false) false := by
  refine Triple.atomic Waits.stable (fun _ => Waits.stable) fun s _ hi h _ => ?_
  obtain ⟨x, hx, hsnap, -, hc⟩ := h.registration
  have hstand := hi.standing x hx
  have hin : In snapshot true false
      (s.registration.map fun x => { x with seen := some s.effects }) :=
    ⟨{ x with seen := some s.effects }, by rw [hx]; rfl, hsnap, rfl, hc⟩
  refine ⟨⟨?_, hi.made, hi.told, fun y hy => ?_, fun hs => ?_, fun _ hr => ?_⟩,
    .own rfl rfl (.same rfl rfl rfl), hin, h.holds, h.awake⟩
  · rw [hi.word, hx]
    rfl
  · rw [hx] at hy
    cases hy
    refine { hstand with seen := fun l hl => ?_, checked := fun k hk => ?_ }
    · cases hl
      exact hstand.published
    · exact hstand.checked k hk
  · exact absurd (hs.symm.trans h.awake) (by simp)
  · exact absurd (hr.symm.trans (Cell.not_relies In.unchecked hin)) (by simp)

theorem isCurrent_spec :
    Triple (contract w .waiter) (Waits (In snapshot true false) true) (isCurrent snapshot)
      fun current => Waits (In snapshot true current) true := by
  refine Triple.atomic Waits.stable (fun _ => Waits.stable) fun s _ hi h _ => ?_
  by_cases hcur : s.state = snapshot
  · simp only [hcur, decide_true, if_true]
    obtain ⟨x, hx, hsnap, hseen, -⟩ := h.registration
    have hstand := hi.standing x hx
    refine ⟨⟨?_, hi.made, hi.told, fun y hy => ?_, fun hs => ?_, fun _ _ => h.holds.mpr rfl⟩,
      .own rfl rfl (.same rfl rfl rfl),
      ⟨{ x with checked := some s.issued }, by rw [hx]; rfl, hsnap, hseen, rfl⟩, h.holds, h.awake⟩
    · rw [← hcur, hi.word, hx]
      rfl
    · rw [hx] at hy
      cases hy
      refine { hstand with checked := fun k hk => ?_ }
      cases hk
      refine ⟨hstand.since_le, le_rfl, ?_, fun _ => .inl rfl⟩
      rw [← hsnap, ← hcur, hi.word, hx]
      rfl
    · exact absurd (hs.symm.trans h.awake) (by simp)
  · simp only [hcur, decide_false, if_false]
    exact ⟨hi, .refl _ s, h⟩

/-- The waiter gives the mutex back and sleeps in one step. -/
theorem sleep_spec :
    Triple (contract w .waiter) (Waits (In snapshot true true) true)
      (Prog.write fun c => { c with mutex := none, sleep := .asleep }) fun _ =>
        Dozes (In snapshot true true) := by
  refine Triple.atomic Waits.stable (fun _ => Dozes.stable) fun s _ hi h _ => ?_
  have hmine : s.mutex = some .waiter := h.holds.mpr rfl
  obtain ⟨x, hx, hsnap, hseen, hc⟩ := h.registration
  refine ⟨⟨hi.word, hi.made, hi.told, fun y hy => ?_,
    fun _ => ⟨by simp, x, hx, hseen, hc⟩, nofun⟩, ?_,
    ⟨x, hx, hsnap, hseen, hc⟩, by simp [Holds], by simp⟩
  · refine { hi.standing y hy with checked := fun k hk => ?_ }
    obtain ⟨h₁, h₂, h₃, h₄⟩ := (hi.standing y hy).checked k hk
    exact ⟨h₁, h₂, h₃, fun _ => h₄ (.inl hmine)⟩
  · refine ⟨fun u hu => ?_, fun h => absurd rfl h, fun _ _ => rfl, .same rfl rfl rfl⟩
    rw [hmine]
    simp [hu.symm]

theorem resume_spec (late : Nat) :
    Triple (contract w .waiter) (Dozes (In snapshot true true))
      (Prog.await (fun n c => c.sleep == .signaled || (0 < n && n ≤ late)) fun n c => (n,
        { c with
          sleep := .awake
          registration := c.registration.map fun x => { x with checked := none } })) fun _ =>
        Waits (In snapshot true false) false := by
  refine Triple.await (fun _ => trivial) Dozes.stable (fun _ => Waits.stable)
    fun s _ hi h _ _ => ?_
  obtain ⟨x, hx, hsnap, hseen, -⟩ := h.registration
  have hin : In snapshot true false
      (s.registration.map fun x => { x with checked := none }) :=
    ⟨{ x with checked := none }, by rw [hx]; rfl, hsnap, hseen, rfl⟩
  refine ⟨⟨?_, hi.made, hi.told, fun y hy => ?_, nofun, fun _ hr => ?_⟩,
    .own rfl rfl (.same rfl rfl rfl), hin, h.holds, rfl⟩
  · rw [hi.word, hx]
    rfl
  · rw [hx] at hy
    cases hy
    exact { hi.standing x hx with checked := fun k hk => by cases hk }
  · exact absurd (hr.symm.trans (Cell.not_relies In.unchecked hin)) (by simp)

theorem waitOn_spec (late : Nat) :
    Triple (contract w .waiter) (Waits (In snapshot true true) true) (waitOn late) fun _ =>
      Waits (In snapshot true false) true :=
  sleep_spec.bind fun _ => (resume_spec late).bind fun _ =>
    (waiter_lock_spec In.unchecked).bind fun _ => Triple.ret Waits.stable fun _ _ h => h

theorem dropRegistration_spec :
    Triple (contract w .waiter) (Waits (In snapshot seen checked) false) dropRegistration fun _ =>
      Waits Out false := by
  refine Triple.atomic Waits.stable (fun _ => Waits.stable) fun s _ hi h _ => ?_
  refine ⟨⟨?_, hi.made, hi.told, nofun, fun hs => ?_, nofun⟩, .own rfl rfl (.same rfl rfl rfl), rfl,
    h.holds, h.awake⟩
  · show s.state &&& ~~~ 1#w = flagged w s.issued false
    rw [hi.word]
    exact Flagged.and_not_one
  · exact absurd (hs.symm.trans h.awake) (by simp)

theorem waitTimeout_spec (late : Nat) :
    Triple (contract w .waiter) (Waits (In snapshot true false) false)
      (waitTimeout late snapshot) fun _ => Waits Out false := by
  refine (waiter_lock_spec In.unchecked).bind fun _ => ?_
  refine isCurrent_spec.bind fun current => ?_
  cases current with
  | true =>
    refine (waitOn_spec late).bind fun timedOut => ?_
    exact (waiter_unlock_spec In.unchecked).bind fun _ => dropRegistration_spec.bind fun _ =>
      Triple.ret Waits.stable fun _ _ h => h
  | false =>
    exact (waiter_unlock_spec In.unchecked).bind fun _ => dropRegistration_spec.bind fun _ =>
      Triple.ret Waits.stable fun _ _ h => h

theorem round_spec (park : List Nat → Park) :
    Triple (contract w .waiter) (Waits Out false) (round park) fun _ => Waits Out false := by
  refine prepare_spec.bind fun snapshot => ?_
  refine recheck_spec.bind fun seen => ?_
  cases park seen with
  | drop => exact dropRegistration_spec
  | wait =>
    exact (waitTimeout_spec 1).bind fun _ => Triple.ret Waits.stable fun _ _ h => h
  | waitTimeout =>
    exact (waitTimeout_spec 2).bind fun _ => Triple.ret Waits.stable fun _ _ h => h

/-! ## The notifiers -/

/-- A notifier's steps that leave the mutex and the condition variable alone. -/
theorem Guar.notifying (hm : s'.mutex = s.mutex) (hr : s'.registration = s.registration)
    (hs : s'.sleep = s.sleep) (hn : ∀ m, m ≠ n → s'.notifying m = s.notifying m)
    (hg : Grows s s') : Guar (.notifier n) s s' :=
  ⟨fun u _ => by rw [hm], fun _ => ⟨hr, .inl hs⟩, fun m hm => hn m fun heq => hm (by rw [heq]), hg⟩

theorem publish_spec (effect : Nat) :
    Triple (contract w (.notifier n)) (Notifies n false false) (publish n effect) fun _ =>
      Notifies n false false := by
  refine Triple.atomic Notifies.stable (fun _ => Notifies.stable) fun s _ hi h _ => ?_
  have hmem : ∀ e ∈ s.effects, e ∈ s.effects ++ [effect] := fun e he => List.mem_append_left _ he
  have hmade : ∀ m, ∀ e ∈ s.made m, e ∈ Function.update s.made n (s.made n ++ [effect]) m := by
    intro m e he
    by_cases hmn : m = n
    · subst hmn
      rw [Function.update_self]
      exact List.mem_append_left _ he
    · rwa [Function.update_of_ne hmn]
  refine ⟨⟨hi.word, fun m e he => ?_, fun e he => hmem e (hi.told e he), fun x hx => ?_, hi.asleep,
      hi.relied⟩, .notifying rfl rfl rfl (fun _ _ => rfl) ⟨le_rfl, fun _ he => he, hmade⟩,
    h.due, h.holds⟩
  · by_cases hmn : m = n
    · subst hmn
      simp only [Function.update_self, List.mem_append] at he
      rcases he with he | he
      · exact hmem e (hi.made m e he)
      · exact List.mem_append_right _ he
    · simp only [Function.update_of_ne hmn] at he
      exact hmem e (hi.made m e he)
  · exact { hi.standing x hx with
      published := fun e he => hmem e ((hi.standing x hx).published e he) }

/-- **A notification that finds the waiter registered is on its way to it.** -/
theorem bump_spec (hw : 0 < w) :
    Triple (contract w (.notifier n)) (Notifies n false false)
      (Prog.atomic fun c => (c.state,
        { c with
          state := c.state + 2#w
          issued := c.issued + 1
          told := c.told ++ c.made n
          notifying := Function.update c.notifying n (decide (c.state &&& 1#w ≠ 0#w)) }))
      fun previous => Notifies n (decide (previous &&& 1#w ≠ 0#w)) false := by
  refine Triple.atomic Notifies.stable (fun _ => Notifies.stable) fun s _ hi h _ => ?_
  refine ⟨⟨?_, hi.made, fun e he => ?_, fun x hx => ?_, hi.asleep, hi.relied⟩,
    .notifying rfl rfl rfl (fun m hm => Function.update_of_ne hm ..)
      ⟨Nat.le_succ _, fun _ he => List.mem_append_left _ he, fun _ _ he => he⟩,
    Function.update_self .., h.holds⟩
  · rw [hi.word]
    exact Flagged.add_two
  · rcases List.mem_append.mp he with he | he
    · exact hi.told e he
    · exact hi.made n e he
  · have hstand := hi.standing x hx
    have hset : s.state &&& 1#w ≠ 0#w := by
      rw [hi.word, hx]
      exact (Flagged.and_one hw).mpr rfl
    refine ⟨Nat.le_succ_of_le hstand.since_le, fun heq => ?_, hstand.published, hstand.seen,
      fun k hk => ?_⟩
    · have := hstand.since_le
      have heq : s.issued + 1 = x.since := heq
      omega
    · obtain ⟨h₁, h₂, h₃, -⟩ := hstand.checked k hk
      refine ⟨h₁, Nat.le_succ_of_le h₂, h₃, fun _ => .inr ⟨n, ?_⟩⟩
      exact (Function.update_self ..).trans (decide_eq_true hset)

theorem load_spec (hw : 0 < w) :
    Triple (contract w (.notifier n)) (Notifies n true true)
      (Prog.atomic fun c => (decide (c.state &&& 1#w ≠ 0#w),
        if c.state &&& 1#w ≠ 0#w then c
        else { c with notifying := Function.update c.notifying n false }))
      fun found => Notifies n found true := by
  refine Triple.atomic Notifies.stable (fun _ => Notifies.stable) fun s _ hi h _ => ?_
  by_cases hset : s.state &&& 1#w ≠ 0#w
  · simp only [if_pos hset, decide_eq_true hset]
    exact ⟨hi, .refl _ s, h⟩
  · simp only [if_neg hset, decide_eq_false hset]
    -- nobody is registered any more
    have hnone : s.registration = none := by
      rw [hi.word, Flagged.and_one hw] at hset
      simpa using hset
    refine ⟨{ hi with standing := fun x hx => ?_ },
      .notifying rfl rfl rfl (fun m hm => Function.update_of_ne hm ..) (.same rfl rfl rfl),
      Function.update_self .., h.holds⟩
    exact absurd (hnone.symm.trans hx) (by simp)

theorem notifyOne_spec :
    Triple (contract w (.notifier n)) (Notifies n true true) (notifyOne n) fun _ =>
      Notifies n false true := by
  refine Triple.atomic Notifies.stable (fun _ => Notifies.stable) fun s _ hi h _ => ?_
  have hmine : s.mutex = some (.notifier n) := h.holds.mpr rfl
  have hawake : (if s.sleep = .asleep then Sleep.signaled else s.sleep) ≠ .asleep := by
    split
    · simp
    · assumption
  refine ⟨⟨hi.word, hi.made, hi.told, fun x hx => ?_, fun hs => absurd hs hawake, fun hs hr => ?_⟩,
    ⟨fun _ _ => Iff.rfl, fun _ => ⟨rfl, ?_⟩, fun m hm => ?_, .same rfl rfl rfl⟩,
    Function.update_self .., h.holds⟩
  · refine { hi.standing x hx with checked := fun k hk => ?_ }
    obtain ⟨h₁, h₂, h₃, -⟩ := (hi.standing x hx).checked k hk
    refine ⟨h₁, h₂, h₃, fun hor => ?_⟩
    rcases hor with hm | hs
    · exact absurd (hmine.symm.trans hm) (by simp)
    · exact absurd hs hawake
  · refine hi.unrelied (by simp [hmine]) ?_ hr
    by_contra hne
    simp only at hs
    split at hs
    · cases hs
    · exact hne hs
  · by_cases hs : s.sleep = .asleep
    · exact .inr ⟨hs, if_pos hs⟩
    · exact .inl (if_neg hs)
  · exact Function.update_of_ne (fun heq => hm (by rw [heq])) ..

theorem notify_spec (hw : 0 < w) :
    Triple (contract w (.notifier n)) (Notifies n false false) (notify n) fun _ =>
      Notifies n false false := by
  refine (bump_spec hw).bind fun previous => ?_
  split
  · next hset =>
    rw [decide_eq_true hset]
    refine notifier_lock_spec.bind fun _ => ?_
    refine (load_spec hw).bind fun found => ?_
    cases found with
    | true => exact notifyOne_spec.bind fun _ => notifier_unlock_spec
    | false => exact notifier_unlock_spec
  · next hset =>
    rw [decide_eq_false hset]
    exact Triple.ret Notifies.stable fun _ _ h => h

/-! ## What a call of a notifier did -/

/-- A step that published the effect. -/
def Publishes (n effect : Nat) (h : Cell w × Cell w) : Prop :=
  effect ∈ h.2.effects ∧ effect ∈ h.2.made n

/-- A step that issued a notification, of all the notifier had published. -/
def Issues (n : Nat) (h : Cell w × Cell w) : Prop :=
  h.2.issued = h.1.issued + 1 ∧ ∀ e ∈ h.1.made n, e ∈ h.2.told

theorem publish_accounts (effect : Nat) :
    (publish n effect : Prog (Cell w) Unit).Accounts fun hs _ => ∃ h ∈ hs, Publishes n effect h :=
  .atomic fun s => ⟨_, List.mem_singleton_self _, by simp, by simp⟩

theorem notify_accounts :
    (notify n : Prog (Cell w) Unit).Accounts fun hs _ => ∃ h ∈ hs, Issues n h := by
  refine Prog.Accounts.bind (φ := fun hs _ => ∃ h ∈ hs, Issues n h) (.atomic fun s => ?_)
    fun hs previous h => ?_
  · exact ⟨_, List.mem_singleton_self _, rfl, fun e he => List.mem_append_right _ he⟩
  · obtain ⟨x, hx, h⟩ := h
    have hkeep : ∀ hs', ∃ y ∈ hs ++ hs', Issues n y := fun _ => ⟨x, List.mem_append_left _ hx, h⟩
    split
    · refine Prog.Accounts.bind (φ := fun _ _ => True) (.await fun _ _ => trivial) fun _ _ _ => ?_
      refine Prog.Accounts.bind (φ := fun _ _ => True) (.atomic fun _ => trivial)
        fun _ found _ => ?_
      cases found with
      | true =>
        exact Prog.Accounts.bind (φ := fun _ _ => True) (.atomic fun _ => trivial)
          fun _ _ _ => .atomic fun _ => hkeep _
      | false => exact .atomic fun _ => hkeep _
    · exact hkeep []

/-! ## Every run -/

/-- What holds of a thread between its operations. -/
def Idle : Tid → Cell w → Prop
  | .waiter => Waits Out false
  | .notifier n => Notifies n false false

def outline (hw : 0 < w) : Outline (system w) where
  inv := Inv
  guar := Guar
  cond _ _ _ := True
  callable _ _ _ := True
  idle := Idle
  guar_refl := Guar.refl
  idle_stable t u s s' hu hs hs' hg h := by
    cases t with
    | waiter => exact Waits.stable s s' hs hs' ⟨u, hu, hg⟩ h
    | notifier n => exact Notifies.stable s s' hs hs' ⟨u, hu, hg⟩ h
  code_ok t op s hs hidle hmay _ := by
    match t, op with
    | .waiter, .round park => exact round_spec park s hs hidle
    | .notifier n, .publish effect => exact publish_spec effect s hs hidle
    | .notifier n, .notify => exact notify_spec hw s hs hidle

theorem good_of_run (hw : 0 < w) {c : Config (Cell w) Tid}
    (hrun : (system w).Run System.always (start w) c) : (outline hw).Good c := by
  refine Outline.good_run ⟨?_, fun u => ?_⟩ (System.Run.mono (fun c l _ => ?_) hrun)
  · exact ⟨rfl, nofun, nofun, nofun, nofun, nofun⟩
  · cases u with
    | waiter => exact ⟨rfl, by simp [Holds, start, Cell.new], rfl⟩
    | notifier n => exact ⟨rfl, by simp [Holds, start, Cell.new]⟩
  · cases l <;> trivial

/-- Every run is one the outline speaks of. -/
theorem ok_run (hw : 0 < w) {c c' : Config (Cell w) Tid} (h : (system w).Run System.always c c') :
    (system w).Run (outline hw).ok c c' :=
  System.Run.mono (fun _ l _ => by cases l <;> trivial) h

theorem grows_of_run (hw : 0 < w) {c c' : Config (Cell w) Tid}
    (hrun : (system w).Run System.always (start w) c) (h : (system w).Run System.always c c') :
    Grows c.st c'.st :=
  (good_of_run hw hrun).kept (φ := Grows c.st) (fun _ _ _ _ _ hg hgrows => hgrows.trans hg.grows)
    (ok_run hw h) (.same rfl rfl rfl)

/-- A call that returned took the step its code accounts for, after what was there when it was made
    and before what is there now. -/
theorem step_of_call (hw : 0 < w) {c c₁ c₂ c₃ : Config (Cell w) Tid} {op : Op}
    {φ : Cell w × Cell w → Prop} (hrun : (system w).Run System.always (start w) c)
    (hcode : ((system w).code t op).Accounts fun hs _ => ∃ h ∈ hs, φ h)
    (hcall : (system w).exec c (.call t op) = some c₁)
    (hduring : (system w).During System.always t c₁ c₂) (hback : c₂.pool t = none)
    (hafter : (system w).Run System.always c₂ c₃) :
    ∃ d d', φ (d, d') ∧ Grows c.st d ∧ Grows d' c₃.st := by
  obtain ⟨hs, htakes⟩ := hduring.takes
  obtain ⟨⟨d, d'⟩, hd, hφ⟩ := htakes.of_call hcode hcall hback
  obtain ⟨e, e', n, hbefore, hstep, hrest, rfl, rfl⟩ := htakes.mem hd
  have hto : (system w).Run System.always c e := .head ⟨_, trivial, hcall⟩ hbefore.run
  have hrun' : (system w).Run System.always (start w) e' :=
    (hrun.trans hto).tail ⟨_, trivial, hstep⟩
  exact ⟨e.st, e'.st, hφ, grows_of_run hw hrun hto, grows_of_run hw hrun' (hrest.run.trans hafter)⟩

/-- **A wait cell loses no notification.** In every state a run reaches in which the waiter is
    asleep and no notify call is on its way, unless the counter went round since the registration:
    no notification was issued since then, and the recheck saw whatever was told of by the ones
    before. Whenever the waiter is between rounds the flag is clear and the count is the number of
    notifications issued. And the calls of the notifiers are what is counted and told of: from the
    return of a publication on, the effect is among those its notifier made, and from the return of
    a notify call on, one more notification has been issued and all its notifier had made before the
    call has been told of. -/
theorem wait_cell_loses_nothing (hw : 0 < w) {c : Config (Cell w) Tid}
    (hrun : (system w).Run System.always (start w) c) :
    (c.st.sleep = .asleep →
      (∀ n, c.pool (.notifier n) = none ∨ c.st.notifying n = false) →
      ∃ x l, c.st.registration = some x ∧ x.seen = some l ∧
        (c.st.issued - x.since < 2 ^ (w - 1) →
          c.st.issued = x.since ∧ ∀ e ∈ c.st.told, e ∈ l)) ∧
      (c.pool .waiter = none → c.st.state = flagged w c.st.issued false) ∧
      (∀ n effect c₁ c₂ c₃,
        (system w).exec c (.call (.notifier n) (.publish effect)) = some c₁ →
        (system w).During System.always (.notifier n) c₁ c₂ → c₂.pool (.notifier n) = none →
        (system w).Run System.always c₂ c₃ → effect ∈ c₃.st.effects ∧ effect ∈ c₃.st.made n) ∧
      (∀ n c₁ c₂ c₃, (system w).exec c (.call (.notifier n) .notify) = some c₁ →
        (system w).During System.always (.notifier n) c₁ c₂ → c₂.pool (.notifier n) = none →
        (system w).Run System.always c₂ c₃ →
        c.st.issued < c₃.st.issued ∧ ∀ e ∈ c.st.made n, e ∈ c₃.st.told) := by
  obtain ⟨hinv, hthreads⟩ := good_of_run hw hrun
  refine ⟨fun hasleep hquiet => ?_, fun hidle => ?_,
    fun n effect c₁ c₂ c₃ hcall hduring hback hafter => ?_,
    fun n c₁ c₂ c₃ hcall hduring hback hafter => ?_⟩
  · obtain ⟨-, x, hx, hseen, hchecked⟩ := hinv.asleep hasleep
    obtain ⟨l, hl⟩ := Option.isSome_iff_exists.mp hseen
    obtain ⟨k, hk⟩ := Option.isSome_iff_exists.mp hchecked
    have hstand := hinv.standing x hx
    obtain ⟨hle, hle', hword, hway⟩ := hstand.checked k hk
    refine ⟨x, l, hx, hl, fun hfew => ?_⟩
    -- the snapshot was unchanged when it was checked, so nothing had been issued by then
    have hnone : k = x.since := Flagged.inj hword hle (by omega)
    have hissued : c.st.issued = x.since := by
      rcases hway (.inr hasleep) with heq | ⟨n, hn⟩
      · exact heq.trans hnone
      · rcases hquiet n with hpool | hquiet
        · have hthread := hthreads (.notifier n)
          rw [hpool] at hthread
          exact absurd (hthread.due.symm.trans hn) (by simp)
        · exact absurd (hquiet.symm.trans hn) (by simp)
    refine ⟨hissued, fun e he => hstand.seen l hl e ?_⟩
    rwa [← hstand.before hissued]
  · have hthread := hthreads .waiter
    rw [hidle] at hthread
    rw [hinv.word, show c.st.registration = none from hthread.registration]
    rfl
  · obtain ⟨d, d', ⟨-, hmade⟩, -, hgrows⟩ :=
      step_of_call hw hrun (publish_accounts effect) hcall hduring hback hafter
    have hmem := hgrows.made n effect hmade
    exact ⟨(good_of_run hw (hrun.trans (.head ⟨_, trivial, hcall⟩
      (hduring.run.trans hafter)))).1.made n effect hmem, hmem⟩
  · obtain ⟨d, d', ⟨hissued, htold⟩, hbefore, hgrows⟩ :=
      step_of_call hw hrun notify_accounts hcall hduring hback hafter
    refine ⟨?_, fun e he => hgrows.told e (htold e (hbefore.made n e he))⟩
    have := hbefore.issued
    have := hgrows.issued
    simp only at hissued
    omega

/-- A notifier publishes. -/
def published : Config (Cell 3) Tid :=
  (system 3).after (start 3) (System.turn (.notifier 0) (.publish 5) 1)

/-- It notifies. -/
def notifying : Config (Cell 3) Tid := (system 3).after published [.call (.notifier 0) .notify]

def notified : Config (Cell 3) Tid := (system 3).after notifying [.step (.notifier 0) 0]

/-- Then the waiter registers, sees it and sleeps. -/
def asleep : Config (Cell 3) Tid :=
  (system 3).after notified (System.turn .waiter (.round fun _ => .wait) 5)

theorem asleep_loses_nothing :
    asleep.st.sleep = .asleep ∧ published.st.made 0 = [5] ∧
      published.st.issued < asleep.st.issued ∧ 5 ∈ asleep.st.told ∧
      ∃ x l, asleep.st.registration = some x ∧ x.seen = some l ∧
        (asleep.st.issued - x.since < 2 ^ (3 - 1) →
          asleep.st.issued = x.since ∧ ∀ e ∈ asleep.st.told, e ∈ l) := by
  have hrun : (system 3).Run System.always (start 3) published :=
    System.run_after (by decide +kernel)
  have hcall : (system 3).exec published (.call (.notifier 0) .notify) = some notifying :=
    System.exec_after (by decide +kernel)
  have hduring : (system 3).During System.always (.notifier 0) notifying notified :=
    System.during_after (by decide +kernel)
  have hafter : (system 3).Run System.always notified asleep := System.run_after (by decide +kernel)
  have hmade : published.st.made 0 = [5] := by decide +kernel
  obtain ⟨hissued, htold⟩ := (wait_cell_loses_nothing (by decide) hrun).2.2.2 0 _ _ _ hcall hduring
    (Option.isNone_iff_eq_none.mp (by decide +kernel)) hafter
  have hrun' : (system 3).Run System.always (start 3) asleep :=
    hrun.trans (.head ⟨_, trivial, hcall⟩ (hduring.run.trans hafter))
  have hsleep : asleep.st.sleep = .asleep := by decide +kernel
  refine ⟨hsleep, hmade, hissued, htold 5 (by simp [hmade]),
    (wait_cell_loses_nothing (by decide) hrun').1 hsleep fun n => .inr ?_⟩
  cases n <;> rfl

end Fanring.Parking.Single
