import Fanring.Conc.Steps
import Fanring.Flagged
import Mathlib.Data.Set.Card

/-!
# A wait cell for many waiters, access by access

`MultiWaitCell` of `wait.rs`. The number of waiters stands under the mutex, the flag in the state
word says whether there are any, and both change only under the mutex; a notifier that finds the
flag set goes on to the mutex and signals one waiter or all of them. Which sleeper the condition
variable wakes is the scheduler's choice.

As for the cell with one waiter, a registration is checked under the mutex before the waiter sleeps,
so a notification issued after the check signals after the waiter sleeps. What a notify call did
when it signalled is kept in `notices`; `Inv.notices` says what each of them means for the waiters
that are asleep now.
-/

set_option autoImplicit false

namespace Fanring.Parking.Multi

open Conc

inductive Tid
  | waiter (i : Nat)
  | notifier (n : Nat)
  deriving DecidableEq

/-- What the proofs keep of a registration: its number among those of its waiter, the notifications
    issued when it was made, whether its flag is set, and how many notifications had been issued
    when the snapshot was found unchanged, as long as the waiter relies on that. -/
structure Registration where
  number : Nat
  since : Nat
  entered : Bool
  checked : Option Nat
  deriving DecidableEq

/-- What a notify call did: whose it was, whether it was for all waiters, the number of its
    notification, and the waiter it woke. -/
structure Notice where
  notifier : Nat
  all : Bool
  index : Nat
  woke : Option Nat

structure Cell (w : Nat) where
  state : BitVec w
  /-- Who holds the mutex. -/
  mutex : Option Tid
  /-- The number the mutex protects. -/
  waiters : Nat
  /-- Who is asleep in the condition variable. -/
  queue : List Nat
  ------------------------------------------------------------------------------------------------
  /-- The increments of the state so far, and its flag. -/
  issued : Nat
  flag : Bool
  registration : Nat → Option Registration
  /-- How often a waiter has registered. -/
  made : Nat → Nat
  notices : List Notice

inductive Park
  | drop
  | wait
  | waitTimeout

inductive Op
  /-- One round of a waiter, whatever its recheck comes to. -/
  | round (park : Park)
  | notifyOne
  | notifyAll

variable {w : Nat}

def Cell.new : Cell w := ⟨0#w, none, 0, [], 0, false, fun _ => none, fun _ => 0, []⟩

def Cell.setRegistration (c : Cell w) (i : Nat) (r : Option Registration) : Cell w :=
  { c with registration := Function.update c.registration i r }

def Cell.editRegistration (c : Cell w) (i : Nat) (f : Registration → Registration) : Cell w :=
  c.setRegistration i ((c.registration i).map f)

/-! ## The waiters -/

def lock (t : Tid) : Prog (Cell w) Unit :=
  .await (fun _ c => c.mutex.isNone) fun _ c => ((), { c with mutex := some t })

def unlock : Prog (Cell w) Unit := .write fun c => { c with mutex := none }

/-- `checked_add` of one waiter. -/
def addWaiter (i : Nat) : Prog (Cell w) Bool :=
  .atomic fun c =>
    if c.waiters + 1 < 2 ^ w then
      (true,
        { c with
          waiters := c.waiters + 1
          made := Function.update c.made i (c.made i + 1) }.setRegistration i
            (some ⟨c.made i + 1, c.issued, false, none⟩))
    else (false, c)

/-- The `fetch_or` of `prepare`. -/
def raiseFlag (i : Nat) : Prog (Cell w) (BitVec w) :=
  .atomic fun c => (c.state ||| 1#w,
    { c with state := c.state ||| 1#w, flag := true }.editRegistration i fun x =>
      { x with since := c.issued, entered := true })

/-- `MultiWaitCell::prepare`; an overflow is a panic. -/
def prepare (i : Nat) : Prog (Cell w) (BitVec w) := do
  lock (.waiter i)
  if ← addWaiter i then
    let snapshot ← raiseFlag i
    unlock
    return snapshot
  else
    unlock
    Prog.diverge

/-- `MultiWaitRegistration::is_current`. -/
def isCurrent (i : Nat) (snapshot : BitVec w) : Prog (Cell w) Bool :=
  .atomic fun c => (decide (c.state = snapshot),
    if c.state = snapshot then c.editRegistration i fun x => { x with checked := some c.issued }
    else c)

/-- `Condvar::wait`, until it is signalled or the scheduler wakes it: of its own accord (`1`) or
    because the time is up (`2`). -/
def waitOn (i late : Nat) : Prog (Cell w) Bool := do
  Prog.write fun c => { c with mutex := none, queue := i :: c.queue }
  let n ← Prog.await (fun n c => !c.queue.contains i || (0 < n && n ≤ late)) fun n c => (n,
    { c with queue := c.queue.filter (· ≠ i) }.editRegistration i fun x =>
      { x with checked := none })
  lock (.waiter i)
  return n == 2

/-- `checked_sub` of one waiter. -/
def subWaiter (i : Nat) : Prog (Cell w) (Option Nat) :=
  .atomic fun c =>
    if c.waiters = 0 then (none, c)
    else (some (c.waiters - 1), { c with waiters := c.waiters - 1 }.setRegistration i none)

def lowerFlag : Prog (Cell w) Unit :=
  .write fun c => { c with state := c.state &&& ~~~ 1#w, flag := false }

/-- `MultiWaitCell::remove_waiter`; an underflow is a panic. -/
def removeWaiter (i : Nat) : Prog (Cell w) Unit := do
  match ← subWaiter i with
  | some left =>
    if left = 0 then
      lowerFlag
  | none => Prog.diverge

/-- `MultiWaitRegistration::wait_timeout`, and `wait` if no time is up. -/
def waitTimeout (i late : Nat) (snapshot : BitVec w) : Prog (Cell w) Bool := do
  lock (.waiter i)
  if ← isCurrent i snapshot then
    let timedOut ← waitOn i late
    removeWaiter i
    unlock
    return timedOut
  else
    removeWaiter i
    unlock
    return false

/-- `Drop for MultiWaitRegistration`. -/
def dropRegistration (i : Nat) : Prog (Cell w) Unit := do
  lock (.waiter i)
  removeWaiter i
  unlock

def round (i : Nat) (park : Park) : Prog (Cell w) Unit := do
  let snapshot ← prepare i
  match park with
  | .drop => dropRegistration i
  | .wait =>
    let _ ← waitTimeout i 1 snapshot
  | .waitTimeout =>
    let _ ← waitTimeout i 2 snapshot

/-! ## The notifiers -/

/-- The `fetch_add` of a notification, with its number; one that finds no flag is over. -/
def bump (n : Nat) (all : Bool) : Prog (Cell w) (BitVec w × Nat) :=
  .atomic fun c => ((c.state, c.issued + 1),
    { c with
      state := c.state + 2#w
      issued := c.issued + 1
      notices :=
        if c.state &&& 1#w = 0#w then c.notices ++ [⟨n, all, c.issued + 1, none⟩] else c.notices })

/-- The sleeper the condition variable wakes, by the scheduler's choice. -/
def pick (choice : Nat) (queue : List Nat) : Option Nat := queue[choice % queue.length]?

/-- What a signal leaves in the condition variable. -/
def signalled (all : Bool) (woke : Option Nat) (queue : List Nat) : List Nat :=
  if all then [] else queue.filter fun i => some i ≠ woke

/-- `Condvar::notify_one` or `Condvar::notify_all`. -/
def signal (n : Nat) (all : Bool) (index : Nat) : Prog (Cell w) Unit :=
  .await (fun _ _ => true) fun choice c => ((),
    { c with
      queue := signalled all (pick choice c.queue) c.queue
      notices := c.notices ++ [⟨n, all, index, pick choice c.queue⟩] })

def notify (n : Nat) (all : Bool) : Prog (Cell w) Unit := do
  let (previous, index) ← bump n all
  if previous &&& 1#w = 0#w then
    return ()
  else
    lock (.notifier n)
    if ← Prog.atomic fun c => (decide (c.waiters ≠ 0),
        if c.waiters ≠ 0 then c
        else { c with notices := c.notices ++ [⟨n, all, index, none⟩] }) then
      signal n all index
    unlock

def notifyOne (n : Nat) : Prog (Cell w) Unit := notify n false

def notifyAll (n : Nat) : Prog (Cell w) Unit := notify n true

def system (w : Nat) : System (Cell w) Tid Op where
  may
    | .waiter _, .round _, _ => true
    | .notifier _, .notifyOne, _ => true
    | .notifier _, .notifyAll, _ => true
    | _, _, _ => false
  code
    | .waiter i, .round park => round i park
    | .notifier n, .notifyOne => notifyOne n
    | .notifier n, .notifyAll => notifyAll n
    | _, _ => .ret ()

def start (w : Nat) : Config (Cell w) Tid := ⟨.new, fun _ => none⟩

/-! ## The invariant -/

/-- What holds of a registration as long as it stands. -/
structure Standing (s : Cell w) (i : Nat) (x : Registration) : Prop where
  since_le : x.since ≤ s.issued
  number_le : x.number ≤ s.made i
  flag : x.entered = true → s.flag = true
  entering : x.entered = false → s.mutex = some (.waiter i)
  checked : ∀ k, x.checked = some k → x.entered = true ∧ x.since ≤ k ∧ k ≤ s.issued ∧
    flagged w k true = flagged w x.since true

/-- What a notify call that has signalled means for a waiter that relies on its check, before it
    sleeps or asleep: the check came after it, or it woke somebody else. -/
def Minded (s : Cell w) (r : Notice) : Prop :=
  r.index ≤ s.issued ∧ ∀ i x k, s.registration i = some x → x.checked = some k →
    (s.mutex = some (.waiter i) ∨ i ∈ s.queue) → k < r.index →
      r.all = false ∧ ∃ j, j ≠ i ∧ r.woke = some j

structure Inv (s : Cell w) : Prop where
  word : s.state = flagged w s.issued s.flag
  live : ∃ S : Finset Nat, (∀ i, i ∈ S ↔ (s.registration i).isSome) ∧ s.waiters = S.card
  lowered : s.waiters = 0 → (∀ i, s.mutex ≠ some (.waiter i)) → s.flag = false
  standing : ∀ i x, s.registration i = some x → Standing s i x
  asleep : ∀ i ∈ s.queue, s.mutex ≠ some (.waiter i) ∧
    ∃ x, s.registration i = some x ∧ x.checked.isSome
  notices : ∀ r ∈ s.notices, Minded s r

/-- If this registration still stands, it was made when `z` notifications had been issued. -/
def Same (i number z : Nat) (s : Cell w) : Prop :=
  number ≤ s.made i ∧ ∀ x, s.registration i = some x → x.number = number →
    x.entered = true ∧ x.since = z

/-- What a step of one thread leaves to the others. -/
structure Guar (t : Tid) (s s' : Cell w) : Prop where
  mutex : ∀ u, u ≠ t → (s'.mutex = some u ↔ s.mutex = some u)
  waiter : ∀ i, t ≠ .waiter i → s'.registration i = s.registration i ∧
    (i ∈ s'.queue → i ∈ s.queue)
  held : ∀ u, u ≠ t → s.mutex = some u → s'.waiters = s.waiters ∧ s'.flag = s.flag
  issued : s.issued ≤ s'.issued
  notices : s.notices ⊆ s'.notices
  history : ∀ i number z, Same i number z s → Same i number z s'

theorem Guar.refl (t : Tid) (s : Cell w) : Guar t s s :=
  ⟨fun _ _ => Iff.rfl, fun _ _ => ⟨rfl, id⟩, fun _ _ _ => ⟨rfl, rfl⟩, le_rfl,
    List.Subset.refl _, fun _ _ _ => id⟩

def contract (w : Nat) (t : Tid) : Contract (Cell w) where
  inv := Inv
  rely s s' := ∃ u, u ≠ t ∧ Guar u s s'
  guar := Guar t
  cond _ _ := True
  goal _ := True

/-! ## Where the threads are -/

def Holds (t : Tid) (mine : Bool) (s : Cell w) : Prop := s.mutex = some t ↔ mine = true

/-- A waiter, awake; as long as it holds the mutex, it knows what is under it. -/
structure Waits (i : Nat) (φ : Option Registration → Prop) (mine : Bool) (K : Nat → Bool → Prop)
    (s : Cell w) : Prop where
  registration : φ (s.registration i)
  holds : Holds (.waiter i) mine s
  knows : mine = true → K s.waiters s.flag
  awake : i ∉ s.queue

/-- A waiter in the condition variable. -/
structure Dozes (i : Nat) (φ : Option Registration → Prop) (s : Cell w) : Prop where
  registration : φ (s.registration i)
  holds : Holds (.waiter i) false s

/-- A notifier. -/
structure Notifies (n : Nat) (mine : Bool) (R : Cell w → Prop) (s : Cell w) : Prop where
  holds : Holds (.notifier n) mine s
  also : R s

variable {t : Tid} {s s' : Cell w} {φ : Option Registration → Prop} {mine : Bool} {i n : Nat}
  {R : Cell w → Prop} {K : Nat → Bool → Prop}

theorem Holds.other {u : Tid} (hg : Guar u s s') (hu : u ≠ t) (h : Holds t mine s) :
    Holds t mine s' := (hg.mutex t hu.symm).trans h

theorem Waits.stable : (contract w (.waiter i)).Stable (Waits i φ mine K) := by
  rintro s s' - - ⟨u, hu, hg⟩ h
  obtain ⟨hreg, hqueue⟩ := hg.waiter i hu
  refine ⟨hreg ▸ h.registration, h.holds.other hg hu, fun hm => ?_, fun hm => h.awake (hqueue hm)⟩
  obtain ⟨hwaiters, hflag⟩ := hg.held _ hu.symm (h.holds.mpr hm)
  rw [hwaiters, hflag]
  exact h.knows hm

theorem Dozes.stable : (contract w (.waiter i)).Stable (Dozes i φ) := by
  rintro s s' - - ⟨u, hu, hg⟩ h
  exact ⟨(hg.waiter i hu).1 ▸ h.registration, h.holds.other hg hu⟩

/-- What later notifications leave true. -/
def Grows (R : Cell w → Prop) : Prop :=
  ∀ s s' : Cell w, s.issued ≤ s'.issued → R s → R s'

theorem Notifies.stable (hR : Grows R) : (contract w (.notifier n)).Stable (Notifies n mine R) := by
  rintro s s' - - ⟨u, hu, hg⟩ h
  exact ⟨h.holds.other hg hu, hR s s' hg.issued h.also⟩

/-! ## The mutex -/

/-- The flag is down if there are no waiters. -/
def Tidy (waiters : Nat) (flag : Bool) : Prop := waiters = 0 → flag = false

theorem Inv.setMutex (h : Inv s) {m : Option Tid}
    (hw : ∀ i, m = some (.waiter i) →
      i ∉ s.queue ∧ ∀ x, s.registration i = some x → x.checked = none)
    (hlow : (∀ i, m ≠ some (.waiter i)) → Tidy s.waiters s.flag)
    (hent : ∀ i x, s.registration i = some x → x.entered = false → m = some (.waiter i)) :
    Inv { s with mutex := m } where
  word := h.word
  live := h.live
  lowered hz hm := hlow hm hz
  standing i x hx := { h.standing i x hx with entering := hent i x hx }
  asleep i hi := ⟨fun hm => (hw i hm).1 hi, (h.asleep i hi).2⟩
  notices r hr := by
    refine ⟨(h.notices r hr).1, fun i x k hx hk hor => ?_⟩
    rcases hor with hm | hq
    · exact absurd (((hw i hm).2 x hx).symm.trans hk) (by simp)
    · exact (h.notices r hr).2 i x k hx hk (.inr hq)

theorem Guar.setMutex {m : Option Tid} (hm : ∀ u, u ≠ t → (m = some u ↔ s.mutex = some u)) :
    Guar t s { s with mutex := m } :=
  { Guar.refl t s with mutex := hm }

theorem Guar.lock (h : s.mutex = none) : Guar t s { s with mutex := some t } := by
  refine .setMutex fun u hu => ?_
  rw [h]
  simp [hu.symm]

theorem Guar.unlock (h : s.mutex = some t) : Guar t s { s with mutex := none } := by
  refine .setMutex fun u hu => ?_
  rw [h]
  simp [hu.symm]

/-- Nobody is in the middle of a registration while the mutex is free. -/
theorem Inv.entered_of_free (h : Inv s) (hfree : s.mutex = none) {x : Registration}
    (hx : s.registration i = some x) : x.entered = true := by
  by_contra hne
  exact absurd (hfree.symm.trans ((h.standing i x hx).entering (by simpa using hne))) (by simp)

theorem waiter_lock_spec (hφ : ∀ x, φ (some x) → x.checked = none) :
    Triple (contract w (.waiter i)) (Waits i φ false K) (lock (.waiter i)) fun _ =>
      Waits i φ true Tidy := by
  refine Triple.await (fun _ => trivial) Waits.stable (fun _ => Waits.stable)
    fun s _ hi h hfree _ => ?_
  have hnone : s.mutex = none := Option.isNone_iff_eq_none.mp hfree
  have htidy : Tidy s.waiters s.flag := fun hz => hi.lowered hz (by simp [hnone])
  refine ⟨hi.setMutex (fun j hj => ?_) (fun _ => htidy) (fun j x hx he => ?_), .lock hnone,
    h.registration, by simp [Holds], fun _ => htidy, h.awake⟩
  · cases hj
    exact ⟨h.awake, fun x hx => hφ x (hx ▸ h.registration)⟩
  · exact absurd ((hi.entered_of_free hnone hx).symm.trans he) (by simp)

theorem waiter_unlock_spec (hφ : ∀ x, φ (some x) → x.entered = true)
    (hK : ∀ n b, K n b → Tidy n b) :
    Triple (contract w (.waiter i)) (Waits i φ true K) unlock fun _ => Waits i φ false K := by
  refine Triple.atomic Waits.stable (fun _ => Waits.stable) fun s _ hi h _ => ?_
  have hmine : s.mutex = some (.waiter i) := h.holds.mpr rfl
  refine ⟨hi.setMutex nofun (fun _ => hK _ _ (h.knows rfl)) (fun j x hx he => ?_),
    .unlock hmine, h.registration, by simp [Holds], nofun, h.awake⟩
  have hj : Tid.waiter i = .waiter j :=
    Option.some.inj (hmine.symm.trans ((hi.standing j x hx).entering he))
  cases hj
  exact absurd ((hφ x (hx ▸ h.registration)).symm.trans he) (by simp)

theorem notifier_lock_spec (hR : Grows R) :
    Triple (contract w (.notifier n)) (Notifies n false R) (lock (.notifier n)) fun _ =>
      Notifies n true R := by
  refine Triple.await (fun _ => trivial) (Notifies.stable hR) (fun _ => Notifies.stable hR)
    fun s _ hi h hfree _ => ?_
  have hnone : s.mutex = none := Option.isNone_iff_eq_none.mp hfree
  refine ⟨hi.setMutex nofun (fun _ hz => hi.lowered hz (by simp [hnone])) (fun j x hx he => ?_),
    .lock hnone, by simp [Holds], hR s _ le_rfl h.also⟩
  exact absurd ((hi.entered_of_free hnone hx).symm.trans he) (by simp)

theorem notifier_unlock_spec (hR : Grows R) :
    Triple (contract w (.notifier n)) (Notifies n true R) unlock fun _ => Notifies n false R := by
  refine Triple.atomic (Notifies.stable hR) (fun _ => Notifies.stable hR) fun s _ hi h _ => ?_
  have hmine : s.mutex = some (.notifier n) := h.holds.mpr rfl
  refine ⟨hi.setMutex nofun (fun _ hz => hi.lowered hz (by simp [hmine])) (fun j x hx he => ?_),
    .unlock hmine, by simp [Holds], hR s _ le_rfl h.also⟩
  exact absurd (hmine.symm.trans ((hi.standing j x hx).entering he)) (by simp)

/-! ## The waiters -/

/-- No registration. -/
def Out (r : Option Registration) : Prop := r = none

/-- A registration that is being made. -/
def Entering (r : Option Registration) : Prop :=
  ∃ x, r = some x ∧ x.entered = false ∧ x.checked = none

/-- A registration with this snapshot, and whether the waiter relies on a check of it. -/
def In (snapshot : BitVec w) (checked : Bool) (r : Option Registration) : Prop :=
  ∃ x, r = some x ∧ x.entered = true ∧ snapshot = flagged w x.since true ∧
    x.checked.isSome = checked

variable {snapshot : BitVec w} {checked : Bool}

theorem In.entered (x : Registration) (h : In snapshot checked (some x)) : x.entered = true := by
  obtain ⟨y, hy, he, -⟩ := h
  cases hy
  exact he

theorem In.unchecked (x : Registration) (h : In snapshot false (some x)) : x.checked = none := by
  obtain ⟨y, hy, -, -, hc⟩ := h
  cases hy
  simpa using hc

/-- A step of a waiter on its own registration. -/
structure Own (i : Nat) (s s' : Cell w) : Prop where
  mutex : s'.mutex = s.mutex
  queue : s'.queue = s.queue
  issued : s'.issued = s.issued
  notices : s'.notices = s.notices
  registration : ∀ j, j ≠ i → s'.registration j = s.registration j
  made : ∀ j, j ≠ i → s'.made j = s.made j

/-- Under the mutex a waiter may do to its registration what keeps the count, the flag and what it
    says of itself. -/
theorem Inv.own (h : Inv s) (ho : Own i s s') (hmine : s.mutex = some (.waiter i))
    (hword : s'.state = flagged w s'.issued s'.flag)
    (hlive : ∃ S : Finset Nat, (∀ j, j ∈ S ↔ (s'.registration j).isSome) ∧ s'.waiters = S.card)
    (hflag : ∀ j x, j ≠ i → s.registration j = some x → s.flag = true → s'.flag = true)
    (hstand : ∀ x, s'.registration i = some x → Standing s' i x ∧
      ∀ k, x.checked = some k → s.issued ≤ k) : Inv s' where
  word := hword
  live := hlive
  lowered _ hm := absurd (ho.mutex.trans hmine) (hm i)
  standing j x hx := by
    by_cases hj : j = i
    · subst hj
      exact (hstand x hx).1
    · rw [ho.registration j hj] at hx
      have hold := h.standing j x hx
      exact
        { since_le := ho.issued ▸ hold.since_le
          number_le := ho.made j hj ▸ hold.number_le
          flag := fun he => hflag j x hj hx (hold.flag he)
          entering := fun he => ho.mutex ▸ hold.entering he
          checked := fun k hk => ho.issued ▸ hold.checked k hk }
  asleep j hj := by
    rw [ho.queue] at hj
    obtain ⟨hm, x, hx, hc⟩ := h.asleep j hj
    have hne : j ≠ i := by
      rintro rfl
      exact hm hmine
    exact ⟨ho.mutex ▸ hm, x, (ho.registration j hne).trans hx, hc⟩
  notices r hr := by
    rw [ho.notices] at hr
    obtain ⟨hle, hmind⟩ := h.notices r hr
    refine ⟨ho.issued ▸ hle, fun j x k hx hk hor hlt => ?_⟩
    by_cases hj : j = i
    · subst hj
      have := (hstand x hx).2 k hk
      omega
    · rw [ho.registration j hj] at hx
      rw [ho.mutex, ho.queue] at hor
      exact hmind j x k hx hk hor hlt

theorem Guar.own (ho : Own i s s') (hmine : s.mutex = some (.waiter i))
    (hhist : ∀ number z, Same i number z s → Same i number z s') : Guar (.waiter i) s s' where
  mutex u _ := by rw [ho.mutex]
  waiter j hj := by
    have hne : j ≠ i := fun heq => hj (by rw [heq])
    exact ⟨ho.registration j hne, fun hm => ho.queue ▸ hm⟩
  held u hu hm := absurd (Option.some.inj (hm.symm.trans hmine)) hu
  issued := ho.issued.ge
  notices := by rw [ho.notices]; exact List.Subset.refl _
  history j number z hs := by
    by_cases hj : j = i
    · subst hj
      exact hhist number z hs
    · simp only [Same, ho.registration j hj, ho.made j hj]
      exact hs

@[simp] theorem setRegistration_self {r : Option Registration} :
    (s.setRegistration i r).registration i = r := Function.update_self ..

theorem setRegistration_of_ne {r : Option Registration} {j : Nat} (hj : j ≠ i) :
    (s.setRegistration i r).registration j = s.registration j := Function.update_of_ne hj ..

/-- There is a waiter as long as somebody is registered. -/
theorem Inv.waiters_pos (h : Inv s) {x : Registration} (hx : s.registration i = some x) :
    0 < s.waiters := by
  obtain ⟨S, hS, hcard⟩ := h.live
  rw [hcard]
  exact Finset.card_pos.mpr ⟨i, (hS i).mpr (by rw [hx]; rfl)⟩

theorem Inv.nobody (h : Inv s) (hz : s.waiters = 0) : s.registration i = none := by
  by_contra hne
  obtain ⟨x, hx⟩ := Option.ne_none_iff_exists'.mp hne
  have := h.waiters_pos hx
  omega

/-- The registration keeps its waiter among the live ones. -/
theorem Inv.live_edit (h : Inv s) {x y : Registration} (hx : s.registration i = some x)
    (hy : s'.registration i = some y) (hreg : ∀ j, j ≠ i → s'.registration j = s.registration j)
    (hw : s'.waiters = s.waiters) :
    ∃ S : Finset Nat, (∀ j, j ∈ S ↔ (s'.registration j).isSome) ∧ s'.waiters = S.card := by
  obtain ⟨S, hS, hcard⟩ := h.live
  refine ⟨S, fun j => ?_, hw.trans hcard⟩
  by_cases hj : j = i
  · subst hj
    simp [hS, hx, hy]
  · rw [hS, hreg j hj]

theorem addWaiter_spec :
    Triple (contract w (.waiter i)) (Waits i Out true Tidy) (addWaiter i) fun done s =>
      match done with
      | true => Waits i Entering true (fun n _ => 0 < n) s
      | false => Waits i Out true Tidy s := by
  refine Triple.atomic Waits.stable (fun done => ?_) fun s _ hi h _ => ?_
  · cases done <;> exact Waits.stable
  have hmine : s.mutex = some (.waiter i) := h.holds.mpr rfl
  have hout : s.registration i = none := h.registration
  by_cases hroom : s.waiters + 1 < 2 ^ w
  · simp only [if_pos hroom]
    have hmade : Function.update s.made i (s.made i + 1) i = s.made i + 1 := Function.update_self ..
    have ho : Own i s ({ s with
        waiters := s.waiters + 1
        made := Function.update s.made i (s.made i + 1) }.setRegistration i
          (some ⟨s.made i + 1, s.issued, false, none⟩)) :=
      ⟨rfl, rfl, rfl, rfl, fun j hj => setRegistration_of_ne hj,
        fun j hj => Function.update_of_ne hj ..⟩
    refine ⟨hi.own ho hmine hi.word ?_ (fun _ _ _ _ hf => hf) fun x hx => ?_,
      .own ho hmine fun number z hs => ?_, ⟨_, setRegistration_self, rfl, rfl⟩, h.holds,
      fun _ => Nat.succ_pos _, h.awake⟩
    · obtain ⟨S, hS, hcard⟩ := hi.live
      have hnew : i ∉ S := by simp [hS, hout]
      refine ⟨insert i S, fun j => ?_, by rw [Finset.card_insert_of_notMem hnew, ← hcard]; rfl⟩
      by_cases hj : j = i
      · subst hj
        simp
      · rw [setRegistration_of_ne hj, Finset.mem_insert, hS]
        simp [hj]
    · rw [setRegistration_self] at hx
      cases hx
      exact ⟨⟨le_rfl, hmade.ge, nofun, fun _ => hmine, nofun⟩, nofun⟩
    · -- the registration is a new one
      have hle : number ≤ s.made i := hs.1
      refine ⟨hle.trans ((Nat.le_succ _).trans hmade.ge), fun x hx heq => ?_⟩
      rw [setRegistration_self] at hx
      cases hx
      simp only at heq
      omega
  · simp only [if_neg hroom]
    exact ⟨hi, .refl _ s, h⟩

theorem raiseFlag_spec :
    Triple (contract w (.waiter i)) (Waits i Entering true fun n _ => 0 < n) (raiseFlag i)
      fun snapshot => Waits i (In snapshot false) true fun n _ => 0 < n := by
  refine Triple.atomic Waits.stable (fun _ => Waits.stable) fun s _ hi h _ => ?_
  have hmine : s.mutex = some (.waiter i) := h.holds.mpr rfl
  obtain ⟨x, hx, hent, hc⟩ := h.registration
  have hword : s.state ||| 1#w = flagged w s.issued true := by
    rw [hi.word]
    exact Flagged.or_one
  simp only [Cell.editRegistration, hx, Option.map_some]
  have ho : Own i s ({ s with state := s.state ||| 1#w, flag := true }.setRegistration i
      (some { x with since := s.issued, entered := true })) :=
    ⟨rfl, rfl, rfl, rfl, fun j hj => setRegistration_of_ne hj, fun _ _ => rfl⟩
  refine ⟨hi.own ho hmine hword (hi.live_edit hx setRegistration_self ho.registration rfl)
    (fun _ _ _ _ _ => rfl) fun y hy => ?_, .own ho hmine fun number z hs => ?_,
    ⟨_, setRegistration_self, rfl, hword, by simp [hc]⟩, h.holds, fun _ => h.knows rfl, h.awake⟩
  · rw [setRegistration_self] at hy
    cases hy
    exact ⟨⟨le_rfl, (hi.standing i x hx).number_le, fun _ => rfl, nofun,
      fun k hk => absurd (hc.symm.trans hk) (by simp)⟩,
      fun k hk => absurd (hc.symm.trans hk) (by simp)⟩
  · refine ⟨hs.1, fun y hy heq => ?_⟩
    rw [setRegistration_self] at hy
    cases hy
    exact absurd (hent.symm.trans (hs.2 x hx heq).1) (by simp)

theorem prepare_spec :
    Triple (contract w (.waiter i)) (Waits i Out false Tidy) (prepare i) fun snapshot =>
      Waits i (In snapshot false) false fun n _ => 0 < n := by
  refine (waiter_lock_spec nofun).bind fun _ => ?_
  refine addWaiter_spec.bind fun done => ?_
  cases done with
  | true =>
    refine raiseFlag_spec.bind fun snapshot => ?_
    exact (waiter_unlock_spec In.entered fun n b hpos hz => absurd hz hpos.ne').bind fun _ =>
      Triple.ret Waits.stable fun _ _ h => h
  | false =>
    exact (waiter_unlock_spec nofun fun _ _ h => h).bind fun _ => Triple.diverge fun _ => trivial

theorem isCurrent_spec :
    Triple (contract w (.waiter i)) (Waits i (In snapshot false) true Tidy) (isCurrent i snapshot)
      fun current => Waits i (In snapshot current) true Tidy := by
  refine Triple.atomic Waits.stable (fun _ => Waits.stable) fun s _ hi h _ => ?_
  by_cases hcur : s.state = snapshot
  · simp only [hcur, decide_true, if_true]
    have hmine : s.mutex = some (.waiter i) := h.holds.mpr rfl
    obtain ⟨x, hx, hent, hsnap, -⟩ := h.registration
    have hstand := hi.standing i x hx
    simp only [Cell.editRegistration, hx, Option.map_some]
    have ho : Own i s (s.setRegistration i (some { x with checked := some s.issued })) :=
      ⟨rfl, rfl, rfl, rfl, fun j hj => setRegistration_of_ne hj, fun _ _ => rfl⟩
    refine ⟨hi.own ho hmine hi.word (hi.live_edit hx setRegistration_self ho.registration rfl)
      (fun _ _ _ _ hf => hf) fun y hy => ?_, .own ho hmine fun number z hs => ?_,
      ⟨_, setRegistration_self, hent, hsnap, rfl⟩, h.holds, h.knows, h.awake⟩
    · rw [setRegistration_self] at hy
      cases hy
      refine ⟨⟨hstand.since_le, hstand.number_le, hstand.flag, hstand.entering, fun k hk => ?_⟩,
        fun k hk => ?_⟩
      · cases hk
        refine ⟨hent, hstand.since_le, le_rfl, ?_⟩
        rw [← hsnap, ← hcur, hi.word, hstand.flag hent]
      · cases hk
        exact le_rfl
    · refine ⟨hs.1, fun y hy heq => ?_⟩
      rw [setRegistration_self] at hy
      cases hy
      exact hs.2 x hx heq
  · simp only [hcur, decide_false, if_false]
    exact ⟨hi, .refl _ s, h⟩

/-- A waiter gives the mutex back and sleeps in one step. -/
theorem sleep_spec :
    Triple (contract w (.waiter i)) (Waits i (In snapshot true) true K)
      (Prog.write fun c => { c with mutex := none, queue := i :: c.queue }) fun _ =>
        Dozes i (In snapshot true) := by
  refine Triple.atomic Waits.stable (fun _ => Dozes.stable) fun s _ hi h _ => ?_
  have hmine : s.mutex = some (.waiter i) := h.holds.mpr rfl
  obtain ⟨x, hx, hent, hsnap, hc⟩ := h.registration
  have hother : ∀ j, s.mutex = some (.waiter j) → j = i := fun j hj => by
    cases hmine.symm.trans hj
    rfl
  refine ⟨⟨hi.word, hi.live, fun hz _ => ?_, fun j y hy => ?_, fun j hj => ⟨by simp, ?_⟩,
    fun r hr => ?_⟩, ?_, ⟨x, hx, hent, hsnap, hc⟩, by simp [Holds]⟩
  · exact absurd hz (hi.waiters_pos hx).ne'
  · refine { hi.standing j y hy with entering := fun he => ?_ }
    obtain rfl := hother j ((hi.standing j y hy).entering he)
    cases hx.symm.trans hy
    exact absurd (hent.symm.trans he) (by simp)
  · rcases List.mem_cons.mp hj with rfl | hj
    · exact ⟨x, hx, hc⟩
    · exact (hi.asleep j hj).2
  · refine ⟨(hi.notices r hr).1, fun j y k hy hk hor hlt => (hi.notices r hr).2 j y k hy hk ?_ hlt⟩
    rcases hor with hor | hor
    · exact absurd hor (by simp)
    · rcases List.mem_cons.mp hor with rfl | hor
      · exact .inl hmine
      · exact .inr hor
  · refine { Guar.refl _ s with mutex := fun u hu => ?_, waiter := fun j hj => ⟨rfl, fun hm => ?_⟩ }
    · rw [hmine]
      simp [hu.symm]
    · rcases List.mem_cons.mp hm with rfl | hm
      · exact absurd rfl hj
      · exact hm

theorem resume_spec (late : Nat) :
    Triple (contract w (.waiter i)) (Dozes i (In snapshot true))
      (Prog.await (fun n c => !c.queue.contains i || (0 < n && n ≤ late)) fun n c => (n,
        { c with queue := c.queue.filter (· ≠ i) }.editRegistration i fun x =>
          { x with checked := none })) fun _ => Waits i (In snapshot false) false Tidy := by
  refine Triple.await (fun _ => trivial) Dozes.stable (fun _ => Waits.stable)
    fun s _ hi h _ _ => ?_
  obtain ⟨x, hx, hent, hsnap, -⟩ := h.registration
  have hstand := hi.standing i x hx
  simp only [Cell.editRegistration, hx, Option.map_some]
  refine ⟨⟨hi.word, hi.live_edit hx setRegistration_self (fun j hj => setRegistration_of_ne hj) rfl,
    hi.lowered, fun j y hy => ?_, fun j hj => ?_, fun r hr => ?_⟩, ?_,
    ⟨_, setRegistration_self, hent, hsnap, rfl⟩, h.holds, nofun, by simp [Cell.setRegistration]⟩
  · by_cases hj : j = i
    · subst hj
      rw [setRegistration_self] at hy
      cases hy
      exact { hstand with checked := nofun }
    · rw [setRegistration_of_ne hj] at hy
      exact { hi.standing j y hy with }
  · simp only [Cell.setRegistration, List.mem_filter, decide_eq_true_eq] at hj
    obtain ⟨hm, y, hy, hc⟩ := hi.asleep j hj.1
    exact ⟨hm, y, (setRegistration_of_ne hj.2).trans hy, hc⟩
  · refine ⟨(hi.notices r hr).1, fun j y k hy hk hor hlt => ?_⟩
    by_cases hj : j = i
    · subst hj
      rw [setRegistration_self] at hy
      cases hy
      cases hk
    · rw [setRegistration_of_ne hj] at hy
      refine (hi.notices r hr).2 j y k hy hk (hor.imp_right fun hq => ?_) hlt
      exact (List.mem_filter.mp hq).1
  · refine ⟨fun _ _ => Iff.rfl, fun j hj => ?_, fun _ _ _ => ⟨rfl, rfl⟩, le_rfl, List.Subset.refl _,
      fun j number z hs => ⟨hs.1, fun y hy heq => ?_⟩⟩
    · have hne : j ≠ i := fun heq => hj (by rw [heq])
      exact ⟨setRegistration_of_ne hne, fun hm => (List.mem_filter.mp hm).1⟩
    · by_cases hj : j = i
      · subst hj
        rw [setRegistration_self] at hy
        cases hy
        exact hs.2 x hx heq
      · rw [setRegistration_of_ne hj] at hy
        exact hs.2 y hy heq

theorem waitOn_spec (late : Nat) :
    Triple (contract w (.waiter i)) (Waits i (In snapshot true) true K) (waitOn i late) fun _ =>
      Waits i (In snapshot false) true Tidy :=
  sleep_spec.bind fun _ => (resume_spec late).bind fun _ =>
    (waiter_lock_spec In.unchecked).bind fun _ => Triple.ret Waits.stable fun _ _ h => h

/-- The registration ends with the waiter's part of the count. -/
theorem subWaiter_spec :
    Triple (contract w (.waiter i)) (Waits i (In snapshot false) true K) (subWaiter i)
      fun left s => ∃ n, left = some n ∧ Waits i Out true (fun m _ => m = n) s := by
  refine Triple.atomic Waits.stable (fun left => ?_) fun s _ hi h _ => ?_
  · rintro s s' hs hs' hr ⟨n, hn, h⟩
    exact ⟨n, hn, Waits.stable s s' hs hs' hr h⟩
  have hmine : s.mutex = some (.waiter i) := h.holds.mpr rfl
  obtain ⟨x, hx, hent, -, -⟩ := h.registration
  simp only [if_neg (hi.waiters_pos hx).ne']
  have ho : Own i s ({ s with waiters := s.waiters - 1 }.setRegistration i none) :=
    ⟨rfl, rfl, rfl, rfl, fun j hj => setRegistration_of_ne hj, fun _ _ => rfl⟩
  refine ⟨hi.own ho hmine hi.word ?_ (fun _ _ _ _ hf => hf) fun y hy => ?_,
    .own ho hmine fun number z hs => ⟨hs.1, fun y hy => ?_⟩,
    _, rfl, setRegistration_self, h.holds, fun _ => rfl, h.awake⟩
  · obtain ⟨S, hS, hcard⟩ := hi.live
    have hmem : i ∈ S := (hS i).mpr (by rw [hx]; rfl)
    refine ⟨S.erase i, fun j => ?_, by rw [Finset.card_erase_of_mem hmem, ← hcard]; rfl⟩
    by_cases hj : j = i
    · subst hj
      simp
    · rw [setRegistration_of_ne hj, Finset.mem_erase, hS]
      simp [hj]
  · exact absurd (setRegistration_self.symm.trans hy) (by simp)
  · exact absurd (setRegistration_self.symm.trans hy) (by simp)

theorem lowerFlag_spec :
    Triple (contract w (.waiter i)) (Waits i Out true fun n _ => n = 0) lowerFlag fun _ =>
      Waits i Out true Tidy := by
  refine Triple.atomic Waits.stable (fun _ => Waits.stable) fun s _ hi h _ => ?_
  have hmine : s.mutex = some (.waiter i) := h.holds.mpr rfl
  have hnobody : ∀ j, s.registration j = none := fun _ => hi.nobody (h.knows rfl)
  have ho : Own i s { s with state := s.state &&& ~~~ 1#w, flag := false } :=
    ⟨rfl, rfl, rfl, rfl, fun _ _ => rfl, fun _ _ => rfl⟩
  refine ⟨hi.own ho hmine ?_ hi.live (fun j x _ hx => ?_) fun x hx => ?_,
    .own ho hmine fun _ _ hs => hs, h.registration, h.holds, fun _ _ => rfl, h.awake⟩
  · show s.state &&& ~~~ 1#w = flagged w s.issued false
    rw [hi.word]
    exact Flagged.and_not_one
  · exact absurd ((hnobody j).symm.trans hx) (by simp)
  · exact absurd ((hnobody i).symm.trans hx) (by simp)

theorem removeWaiter_spec :
    Triple (contract w (.waiter i)) (Waits i (In snapshot false) true K) (removeWaiter i) fun _ =>
      Waits i Out true Tidy := by
  refine subWaiter_spec.bind fun left => ?_
  cases left with
  | some left =>
    dsimp only
    split
    · next hz =>
      subst hz
      refine lowerFlag_spec.pre fun s _ => ?_
      rintro ⟨n, hn, h⟩
      cases hn
      exact h
    · next hne =>
      refine Triple.ret Waits.stable fun s _ => ?_
      rintro ⟨n, hn, h⟩
      cases hn
      exact ⟨h.registration, h.holds, fun hm hz => absurd ((h.knows hm).symm.trans hz) hne, h.awake⟩
  | none =>
    refine Triple.diverge fun _ => trivial

theorem waitTimeout_spec (late : Nat) :
    Triple (contract w (.waiter i)) (Waits i (In snapshot false) false K)
      (waitTimeout i late snapshot) fun _ => Waits i Out false Tidy := by
  refine (waiter_lock_spec In.unchecked).bind fun _ => ?_
  refine isCurrent_spec.bind fun current => ?_
  cases current with
  | true =>
    refine (waitOn_spec late).bind fun timedOut => ?_
    exact removeWaiter_spec.bind fun _ => (waiter_unlock_spec nofun fun _ _ h => h).bind fun _ =>
      Triple.ret Waits.stable fun _ _ h => h
  | false =>
    exact removeWaiter_spec.bind fun _ => (waiter_unlock_spec nofun fun _ _ h => h).bind fun _ =>
      Triple.ret Waits.stable fun _ _ h => h

theorem dropRegistration_spec :
    Triple (contract w (.waiter i)) (Waits i (In snapshot false) false K) (dropRegistration i)
      fun _ => Waits i Out false Tidy :=
  (waiter_lock_spec In.unchecked).bind fun _ => removeWaiter_spec.bind fun _ =>
    waiter_unlock_spec nofun fun _ _ h => h

theorem round_spec (park : Park) :
    Triple (contract w (.waiter i)) (Waits i Out false Tidy) (round i park) fun _ =>
      Waits i Out false Tidy := by
  refine prepare_spec.bind fun snapshot => ?_
  cases park with
  | drop => exact dropRegistration_spec
  | wait =>
    exact (waitTimeout_spec 1).bind fun _ => Triple.ret Waits.stable fun _ _ h => h
  | waitTimeout =>
    exact (waitTimeout_spec 2).bind fun _ => Triple.ret Waits.stable fun _ _ h => h

/-! ## The notifiers -/

/-- The notification with this number has been issued. -/
def Issued (index : Nat) (s : Cell w) : Prop := index ≤ s.issued

variable {all : Bool} {index : Nat}

theorem Issued.grows : Grows (Issued index : Cell w → Prop) := fun _ _ hi h => h.trans hi

theorem Grows.true : Grows fun _ : Cell w => True := fun _ _ _ _ => trivial

/-- What a notifier may do: issue notifications, take sleepers out of the condition variable and
    note what it did. -/
theorem Guar.tells {state : BitVec w} {queue : List Nat} {issued : Nat} {notices : List Notice}
    (hqueue : ∀ i ∈ queue, i ∈ s.queue) (hissued : s.issued ≤ issued)
    (hnotices : s.notices ⊆ notices) :
    Guar (.notifier n) s
      { s with state := state, queue := queue, issued := issued, notices := notices } :=
  ⟨fun _ _ => Iff.rfl, fun i _ => ⟨rfl, hqueue i⟩, fun _ _ _ => ⟨rfl, rfl⟩, hissued, hnotices,
    fun _ _ _ hs => hs⟩

theorem Minded.fewer {r : Notice} {queue : List Nat} (h : Minded s r)
    (hqueue : ∀ i ∈ queue, i ∈ s.queue) : Minded { s with queue := queue } r :=
  ⟨h.1, fun i x k hx hk hor => h.2 i x k hx hk (hor.imp_right (hqueue i))⟩

theorem Inv.fewer {queue : List Nat} (h : Inv s) (hqueue : ∀ i ∈ queue, i ∈ s.queue) :
    Inv { s with queue := queue } :=
  { h with
    standing := fun i x hx => { h.standing i x hx with }
    asleep := fun i hi => h.asleep i (hqueue i hi)
    notices := fun r hr => (h.notices r hr).fewer hqueue }

theorem Inv.note {r : Notice} (h : Inv s) (hr : Minded s r) :
    Inv { s with notices := s.notices ++ [r] } :=
  { h with
    standing := fun i x hx => { h.standing i x hx with }
    notices := fun r' hr' => by
      rcases List.mem_append.mp hr' with hr' | hr'
      · exact h.notices r' hr'
      · obtain rfl := List.mem_singleton.mp hr'
        exact hr }

theorem Inv.issue (h : Inv s) :
    Inv { s with state := s.state + 2#w, issued := s.issued + 1 } where
  word := by
    show s.state + 2#w = flagged w (s.issued + 1) s.flag
    rw [h.word]
    exact Flagged.add_two
  live := h.live
  lowered := h.lowered
  standing i x hx :=
    { h.standing i x hx with
      since_le := Nat.le_succ_of_le (h.standing i x hx).since_le
      checked := fun k hk => by
        obtain ⟨he, hle, hle', hword⟩ := (h.standing i x hx).checked k hk
        exact ⟨he, hle, Nat.le_succ_of_le hle', hword⟩ }
  asleep := h.asleep
  notices r hr := ⟨Nat.le_succ_of_le (h.notices r hr).1, (h.notices r hr).2⟩

theorem pick_isSome {queue : List Nat} (h : queue ≠ []) (choice : Nat) :
    (pick choice queue).isSome = true := by
  have hlt : choice % queue.length < queue.length :=
    Nat.mod_lt _ (List.length_pos_iff.mpr h)
  simp [pick, hlt]

theorem mem_signalled {choice : Nat} {queue : List Nat}
    (h : i ∈ signalled all (pick choice queue) queue) :
    i ∈ queue ∧ all = false ∧ ∃ j, j ≠ i ∧ pick choice queue = some j := by
  cases all with
  | true => exact absurd h List.not_mem_nil
  | false =>
    simp only [signalled, Bool.false_eq_true, if_false, List.mem_filter, decide_eq_true_eq] at h
    obtain ⟨hmem, hne⟩ := h
    obtain ⟨j, hj⟩ := Option.isSome_iff_exists.mp (pick_isSome (List.ne_nil_of_mem hmem) choice)
    exact ⟨hmem, rfl, j, fun heq => hne (by rw [hj, heq]), hj⟩

/-- **A notification that finds no flag has nobody to wake.** -/
theorem bump_spec (hw : 0 < w) :
    Triple (contract w (.notifier n)) (Notifies n false fun _ => True) (bump n all)
      fun r => Notifies n false (Issued r.2) := by
  refine Triple.atomic (Notifies.stable Grows.true) (fun r => Notifies.stable Issued.grows)
    fun s _ hi h _ => ?_
  by_cases hset : s.state &&& 1#w = 0#w
  · simp only [if_pos hset]
    have hclear : s.flag = false := by
      rw [hi.word] at hset
      by_contra hne
      exact (Flagged.and_one hw).mpr (by simpa using hne) hset
    refine ⟨hi.issue.note ⟨le_rfl, fun i x k hx hk _ _ => ?_⟩,
      .tells (fun _ hq => hq) (Nat.le_succ _) (List.subset_append_left ..), h.holds, le_rfl⟩
    -- nobody is registered
    have hstand := hi.standing i x hx
    exact absurd (hclear.symm.trans (hstand.flag (hstand.checked k hk).1)) (by simp)
  · simp only [if_neg hset]
    exact ⟨hi.issue, .tells (fun _ hq => hq) (Nat.le_succ _) (List.Subset.refl _), h.holds, le_rfl⟩

theorem count_spec :
    Triple (contract w (.notifier n)) (Notifies n true (Issued index))
      (Prog.atomic fun c => (decide (c.waiters ≠ 0),
        if c.waiters ≠ 0 then c
        else { c with notices := c.notices ++ [⟨n, all, index, none⟩] }))
      fun _ => Notifies n true (Issued index) := by
  refine Triple.atomic (Notifies.stable Issued.grows) (fun _ => Notifies.stable Issued.grows)
    fun s _ hi h _ => ?_
  by_cases hsome : s.waiters ≠ 0
  · simp only [if_pos hsome]
    exact ⟨hi, .refl _ s, h⟩
  · simp only [if_neg hsome]
    refine ⟨hi.note ⟨h.also, fun i x k hx _ _ _ => ?_⟩,
      .tells (fun _ hq => hq) le_rfl (List.subset_append_left ..), h.holds, h.also⟩
    exact absurd ((hi.nobody (not_not.mp hsome)).symm.trans hx) (by simp)

/-- **A signal reaches whoever sleeps then: all of them, or one of them.** -/
theorem signal_spec :
    Triple (contract w (.notifier n)) (Notifies n true (Issued index)) (signal n all index)
      fun _ => Notifies n true (Issued index) := by
  refine Triple.await (fun _ => trivial) (Notifies.stable Issued.grows)
    (fun _ => Notifies.stable Issued.grows) fun s choice hi h _ _ => ?_
  have hmine : s.mutex = some (.notifier n) := h.holds.mpr rfl
  have hfewer : ∀ i ∈ signalled all (pick choice s.queue) s.queue, i ∈ s.queue :=
    fun i hq => (mem_signalled hq).1
  refine ⟨(hi.fewer hfewer).note ⟨h.also, fun i x k _ _ hor _ => ?_⟩,
    .tells hfewer le_rfl (List.subset_append_left ..), h.holds, h.also⟩
  rcases hor with hm | hq
  · exact absurd (hmine.symm.trans hm) (by simp)
  · exact (mem_signalled hq).2

theorem notify_spec (hw : 0 < w) :
    Triple (contract w (.notifier n)) (Notifies n false fun _ => True) (notify n all)
      fun _ => Notifies n false fun _ => True := by
  refine (bump_spec hw).bind fun r => ?_
  obtain ⟨previous, index⟩ := r
  have hunlock : Triple (contract w (.notifier n)) (Notifies n true (Issued index)) unlock
      fun _ => Notifies n false fun _ => True :=
    (notifier_unlock_spec Issued.grows).post fun _ _ _ h => ⟨h.holds, trivial⟩
  dsimp only
  split
  · exact Triple.ret (Notifies.stable Grows.true) fun _ _ h => ⟨h.holds, trivial⟩
  · refine (notifier_lock_spec Issued.grows).bind fun _ => ?_
    refine count_spec.bind fun found => ?_
    cases found with
    | true => exact signal_spec.bind fun _ => hunlock
    | false => exact hunlock

/-! ## What a notification did -/

/-- The steps of a notify call: one of them leaves a notice with the number the call took, and a
    waiter the notice names was asleep before that step and is not after it. -/
def Signals (n : Nat) (all : Bool) (hs : List (Cell w × Cell w)) : Prop :=
  ∃ bump ∈ hs, ∃ h ∈ hs, ∃ r ∈ h.2.notices,
    r.notifier = n ∧ r.all = all ∧ r.index = bump.1.issued + 1 ∧
      ∀ j, r.woke = some j → j ∈ h.1.queue ∧ j ∉ h.2.queue

theorem pick_mem {choice j : Nat} {queue : List Nat} (h : pick choice queue = some j) :
    j ∈ queue ∧ j ∉ signalled all (pick choice queue) queue := by
  refine ⟨List.mem_of_getElem? h, fun hm => ?_⟩
  obtain ⟨-, -, k, hne, hk⟩ := mem_signalled hm
  exact hne (Option.some.inj (hk.symm.trans h))

theorem notify_accounts :
    (notify n all : Prog (Cell w) Unit).Accounts fun hs _ => Signals n all hs := by
  refine Prog.Accounts.bind (φ := fun hs r => ∃ s s', hs = [(s, s')] ∧ r = (s.state, s.issued + 1) ∧
    (s.state &&& 1#w = 0#w → ⟨n, all, s.issued + 1, none⟩ ∈ s'.notices))
    (.atomic fun s => ⟨s, _, rfl, rfl, fun hset => ?_⟩) ?_
  · simp [hset]
  rintro - - ⟨s, s', rfl, rfl, hclear⟩
  -- a notice of the call left by a later step of it
  have hlater : ∀ {x : Cell w × Cell w} {hs : List (Cell w × Cell w)} {woke : Option Nat},
      x ∈ hs → ⟨n, all, s.issued + 1, woke⟩ ∈ x.2.notices →
      (∀ j, woke = some j → j ∈ x.1.queue ∧ j ∉ x.2.queue) → Signals n all ((s, s') :: hs) :=
    fun hx hr hwoke => ⟨(s, s'), List.mem_cons_self, _, List.mem_cons_of_mem _ hx, _, hr, rfl, rfl,
      rfl, hwoke⟩
  dsimp only
  split
  · next hset =>
    exact .ret ⟨(s, s'), by simp, (s, s'), by simp, _, hclear hset, rfl, rfl, rfl, nofun⟩
  · refine Prog.Accounts.bind (φ := fun _ _ => True) (.await fun _ _ => trivial) fun hs₁ _ _ => ?_
    refine Prog.Accounts.bind (φ := fun hs found => found = false →
        ∃ x ∈ hs, ⟨n, all, s.issued + 1, none⟩ ∈ x.2.notices)
      (.atomic fun s₂ hnone => ⟨_, List.mem_singleton_self _, ?_⟩) fun hs₂ found hfound => ?_
    · simp at hnone
      simp [hnone]
    · cases found with
      | true =>
        refine Prog.Accounts.bind (φ := fun hs _ => ∃ x ∈ hs, ∃ woke,
            ⟨n, all, s.issued + 1, woke⟩ ∈ x.2.notices ∧
              ∀ j, woke = some j → j ∈ x.1.queue ∧ j ∉ x.2.queue)
          (.await fun choice s₃ => ?_) fun hs₃ _ h => ?_
        · exact ⟨_, List.mem_singleton_self _, _,
            List.mem_append_right _ (List.mem_singleton_self _), fun j hj => pick_mem hj⟩
        · obtain ⟨x, hx, woke, hr, hwoke⟩ := h
          exact .atomic fun s₄ => hlater (by simp [hx]) hr hwoke
      | false =>
        obtain ⟨x, hx, hr⟩ := hfound rfl
        exact .atomic fun s₄ => hlater (by simp [hx]) hr nofun

/-! ## Every run -/

/-- What holds of a thread between its operations. -/
def Idle : Tid → Cell w → Prop
  | .waiter i => Waits i Out false Tidy
  | .notifier n => Notifies n false fun _ => True

def outline (hw : 0 < w) : Outline (system w) where
  inv := Inv
  guar := Guar
  cond _ _ _ := True
  callable _ _ _ := True
  idle := Idle
  guar_refl := Guar.refl
  idle_stable t u s s' hu hs hs' hg h := by
    cases t with
    | waiter i => exact Waits.stable s s' hs hs' ⟨u, hu, hg⟩ h
    | notifier n => exact Notifies.stable Grows.true s s' hs hs' ⟨u, hu, hg⟩ h
  code_ok t op s hs hidle hmay _ := by
    match t, op with
    | .waiter i, .round park => exact round_spec park s hs hidle
    | .notifier n, .notifyOne => exact notify_spec hw s hs hidle
    | .notifier n, .notifyAll => exact notify_spec hw s hs hidle

theorem good_of_run (hw : 0 < w) {c : Config (Cell w) Tid}
    (hrun : (system w).Run System.always (start w) c) : (outline hw).Good c := by
  refine Outline.good_run ⟨?_, fun u => ?_⟩ (System.Run.mono (fun c l _ => ?_) hrun)
  · exact ⟨rfl, ⟨∅, by simp [start, Cell.new], rfl⟩, fun _ _ => rfl, nofun, nofun, nofun⟩
  · cases u with
    | waiter i => exact ⟨rfl, by simp [Holds, start, Cell.new], nofun, List.not_mem_nil⟩
    | notifier n => exact ⟨by simp [Holds, start, Cell.new], trivial⟩
  · cases l <;> trivial

/-- Every run is one the outline speaks of. -/
theorem ok_run (hw : 0 < w) {c c' : Config (Cell w) Tid} (h : (system w).Run System.always c c') :
    (system w).Run (outline hw).ok c c' :=
  System.Run.mono (fun _ l _ => by cases l <;> trivial) h

/-- A registration keeps when it was made as long as it stands. -/
theorem Standing.same {x : Registration} (h : Standing s i x) (hx : s.registration i = some x)
    (hent : x.entered = true) : Same i x.number x.since s := by
  refine ⟨h.number_le, fun y hy _ => ?_⟩
  cases hx.symm.trans hy
  exact ⟨hent, rfl⟩

/-- A registration that stands is the one it was before the run. -/
theorem since_of_run (hw : 0 < w) {c c' : Config (Cell w) Tid} (hgood : (outline hw).Good c)
    (hrun : (system w).Run System.always c c') {x y : Registration}
    (hx : c.st.registration i = some x) (hent : x.entered = true)
    (hy : c'.st.registration i = some y) (hnumber : y.number = x.number) : y.since = x.since := by
  have hsame : Same i x.number x.since c'.st :=
    hgood.kept (fun _ _ _ _ _ hg hs => hg.history i x.number x.since hs) (ok_run hw hrun)
      ((hgood.1.standing i x hx).same hx hent)
  exact (hsame.2 y hy hnumber).2

theorem call_run {c c₁ c₂ : Config (Cell w) Tid} {op : Op}
    (hcall : (system w).exec c (.call t op) = some c₁)
    (hduring : (system w).During System.always t c₁ c₂) : (system w).Run System.always c c₂ :=
  .head ⟨_, trivial, hcall⟩ hduring.run

/-- Notifications are only issued and notices only left. -/
theorem grows_of_run (hw : 0 < w) {c c' : Config (Cell w) Tid} (hgood : (outline hw).Good c)
    (hrun : (system w).Run System.always c c') :
    c.st.issued ≤ c'.st.issued ∧ c.st.notices ⊆ c'.st.notices :=
  hgood.kept (φ := fun s => c.st.issued ≤ s.issued ∧ c.st.notices ⊆ s.notices)
    (fun _ _ _ _ _ hg h => ⟨h.1.trans hg.issued, List.Subset.trans h.2 hg.notices⟩) (ok_run hw hrun)
    ⟨le_rfl, List.Subset.refl _⟩

/-- A step of the call of a notifier takes the waiter out of the condition variable. -/
def WokenIn (n j : Nat) (c₁ c₂ : Config (Cell w) Tid) : Prop :=
  ∃ e e' choice, (system w).During System.always (.notifier n) c₁ e ∧
    (system w).exec e (.step (.notifier n) choice) = some e' ∧
    (system w).During System.always (.notifier n) e' c₂ ∧ j ∈ e.st.queue ∧ j ∉ e'.st.queue

/-- **A call that returned has left a notice of its own**, and woke whom the notice names. -/
theorem notice_of_call (hw : 0 < w) {c c₁ c₂ : Config (Cell w) Tid} {op : Op}
    (hop : (system w).code (.notifier n) op = notify n all) (hgood : (outline hw).Good c)
    (hcall : (system w).exec c (.call (.notifier n) op) = some c₁)
    (hduring : (system w).During System.always (.notifier n) c₁ c₂)
    (hback : c₂.pool (.notifier n) = none) :
    ∃ r ∈ c₂.st.notices, r.notifier = n ∧ r.all = all ∧ c.st.issued < r.index ∧
      ∀ j, r.woke = some j → WokenIn n j c₁ c₂ := by
  obtain ⟨hs, htakes⟩ := hduring.takes
  obtain ⟨⟨b, b'⟩, hbump, ⟨d, d'⟩, hd, r, hr, hnotifier, hall, hindex, hwoke⟩ :=
    htakes.of_call (hop ▸ notify_accounts) hcall hback
  obtain ⟨f, -, -, hbefore, -, -, rfl, -⟩ := htakes.mem hbump
  obtain ⟨e, e', choice, hto, hstep, hfrom, rfl, rfl⟩ := htakes.mem hd
  have hgood' : (outline hw).Good e' := Outline.good_run hgood
    (ok_run hw ((call_run hcall hto).tail ⟨_, trivial, hstep⟩))
  have hissued := (grows_of_run hw hgood (call_run hcall hbefore)).1
  simp only at hindex
  exact ⟨r, (grows_of_run hw hgood' hfrom.run).2 hr, hnotifier, hall, by omega,
    fun j hj => ⟨e, e', choice, hto, hstep, hfrom, hwoke j hj⟩⟩

theorem Inv.count (h : Inv s) : s.waiters = {i | (s.registration i).isSome}.ncard := by
  obtain ⟨S, hS, hcard⟩ := h.live
  have hset : {i | (s.registration i).isSome} = (S : Set Nat) := by
    ext i
    simp [hS]
  rw [hset, Set.ncard_coe_finset, hcard]

theorem Inv.flag_iff (h : Inv s) (hw : 0 < w) (hfree : s.mutex = none) :
    s.state &&& 1#w ≠ 0#w ↔ s.waiters ≠ 0 := by
  rw [h.word, Flagged.and_one hw]
  constructor
  · intro hset hz
    exact absurd (hset.symm.trans (h.lowered hz (by simp [hfree]))) (by simp)
  · intro hne
    obtain ⟨S, hS, hcard⟩ := h.live
    obtain ⟨i, hi⟩ := Finset.card_pos.mp (Nat.pos_of_ne_zero (hcard ▸ hne))
    obtain ⟨x, hx⟩ := Option.isSome_iff_exists.mp ((hS i).mp hi)
    exact (h.standing i x hx).flag (h.entered_of_free hfree hx)

/-- Whoever is asleep is registered, counted and announced by the flag. -/
theorem Inv.sleeper (h : Inv s) (hw : 0 < w) (hq : i ∈ s.queue) :
    (∃ x, s.registration i = some x ∧ x.entered = true) ∧ s.waiters ≠ 0 ∧
      s.state &&& 1#w ≠ 0#w := by
  obtain ⟨-, x, hx, hc⟩ := h.asleep i hq
  obtain ⟨k, hk⟩ := Option.isSome_iff_exists.mp hc
  have hent : x.entered = true := ((h.standing i x hx).checked k hk).1
  refine ⟨⟨x, hx, hent⟩, (h.waiters_pos hx).ne', ?_⟩
  rw [h.word, Flagged.and_one hw]
  exact (h.standing i x hx).flag hent

/-- A waiter that is asleep under a registration from before a notice: the notice woke another
    one. -/
theorem Inv.passed_over (h : Inv s) {x : Registration} {r : Notice} (hq : i ∈ s.queue)
    (hx : s.registration i = some x) (hfew : s.issued - x.since < 2 ^ (w - 1)) (hr : r ∈ s.notices)
    (hlt : x.since < r.index) : r.all = false ∧ ∃ j, j ≠ i ∧ r.woke = some j := by
  obtain ⟨-, y, hy, hc⟩ := h.asleep i hq
  cases hx.symm.trans hy
  obtain ⟨k, hk⟩ := Option.isSome_iff_exists.mp hc
  obtain ⟨-, hle, hle', hword⟩ := (h.standing i x hx).checked k hk
  -- the snapshot was unchanged when it was checked, so nothing had been issued by then
  have hsince : k = x.since := Flagged.inj hword hle (by omega)
  exact (h.notices r hr).2 i x k hx hk (.inr hq) (hsince ▸ hlt)

/-- **A cell for many waiters loses no notification.** In every state a run reaches, the count is
    the number of registrations, no waiter between rounds has one, whoever is asleep has one and the
    flag is set for it, and the flag is set just when there are any, unless somebody holds the
    mutex. From a state with a registration, unless the counter goes round: once a call for all
    waiters made then has returned, the waiter is not asleep under that registration, ever; and if
    it is asleep under it when a call for one waiter made then returns, a step of that call woke
    another one, which was asleep until then. -/
theorem multi_wait_cell_loses_nothing (hw : 0 < w) {c : Config (Cell w) Tid}
    (hrun : (system w).Run System.always (start w) c) :
    c.st.waiters = {i | (c.st.registration i).isSome}.ncard ∧
    (∀ i, c.pool (.waiter i) = none → c.st.registration i = none) ∧
    (∀ i ∈ c.st.queue, (∃ x, c.st.registration i = some x ∧ x.entered = true) ∧
      c.st.waiters ≠ 0 ∧ c.st.state &&& 1#w ≠ 0#w) ∧
    (c.st.mutex = none → (c.st.state &&& 1#w ≠ 0#w ↔ c.st.waiters ≠ 0)) ∧
    ∀ i x n, c.st.registration i = some x → x.entered = true →
      (∀ c₁ c₂ c₃ y, (system w).exec c (.call (.notifier n) .notifyAll) = some c₁ →
        (system w).During System.always (.notifier n) c₁ c₂ → c₂.pool (.notifier n) = none →
        (system w).Run System.always c₂ c₃ →
        c₃.st.registration i = some y → y.number = x.number →
        c₃.st.issued - x.since < 2 ^ (w - 1) → i ∉ c₃.st.queue) ∧
      (∀ c₁ c₂ y, (system w).exec c (.call (.notifier n) .notifyOne) = some c₁ →
        (system w).During System.always (.notifier n) c₁ c₂ → c₂.pool (.notifier n) = none →
        c₂.st.registration i = some y → y.number = x.number →
        c₂.st.issued - x.since < 2 ^ (w - 1) → i ∈ c₂.st.queue →
        ∃ r ∈ c₂.st.notices, r ∉ c.st.notices ∧ r.notifier = n ∧
          ∃ j, j ≠ i ∧ r.woke = some j ∧ WokenIn n j c₁ c₂) := by
  have hgood := good_of_run hw hrun
  refine ⟨hgood.1.count, fun i hidle => ?_, fun i => hgood.1.sleeper hw, hgood.1.flag_iff hw,
    fun i x n hx hent => ?_⟩
  · have hthread := hgood.2 (.waiter i)
    rw [hidle] at hthread
    exact hthread.registration
  have hsince : x.since ≤ c.st.issued := (hgood.1.standing i x hx).since_le
  refine ⟨fun c₁ c₂ c₃ y hcall hduring hback hafter hy hnumber hfew hq => ?_,
    fun c₁ c₂ y hcall hduring hback hy hnumber hfew hq => ?_⟩
  · have hrun₂ := call_run hcall hduring
    have hgood₂ := good_of_run hw (hrun.trans hrun₂)
    have hgood₃ := good_of_run hw (hrun.trans (hrun₂.trans hafter))
    have heq := since_of_run hw hgood (hrun₂.trans hafter) hx hent hy hnumber
    obtain ⟨r, hr, -, hall, hlt, -⟩ := notice_of_call hw rfl hgood hcall hduring hback
    have hpassed := hgood₃.1.passed_over hq hy (heq ▸ hfew)
      ((grows_of_run hw hgood₂ hafter).2 hr) (by omega)
    exact absurd (hall.symm.trans hpassed.1) (by simp)
  · have hrun₂ := call_run hcall hduring
    have hgood₂ := good_of_run hw (hrun.trans hrun₂)
    have heq := since_of_run hw hgood hrun₂ hx hent hy hnumber
    obtain ⟨r, hr, hnotifier, -, hlt, hwoken⟩ := notice_of_call hw rfl hgood hcall hduring hback
    obtain ⟨-, j, hne, hj⟩ := hgood₂.1.passed_over hq hy (heq ▸ hfew) hr (by omega)
    refine ⟨r, hr, fun hold => ?_, hnotifier, j, hne, hj, hwoken j hj⟩
    have := (hgood.1.notices r hold).1
    omega

/-- Two waiters are asleep. -/
def two : Config (Cell 3) Tid :=
  (system 3).after (start 3) (List.flatten [System.turn (.waiter 0) (.round .wait) 7,
    System.turn (.waiter 1) (.round .wait) 7])

def called : Config (Cell 3) Tid := (system 3).after two [.call (.notifier 0) .notifyOne]

/-- One of them is woken. -/
def woken : Config (Cell 3) Tid :=
  (system 3).after called (List.replicate 5 (.step (.notifier 0) 0))

theorem two_lose_nothing :
    two.st.queue = [1, 0] ∧ woken.st.queue = [0] ∧
      (∃ x, two.st.registration 1 = some x ∧ x.entered = true) ∧
      ∃ r ∈ woken.st.notices, r ∉ two.st.notices ∧ r.notifier = 0 ∧
        ∃ j, j ≠ 0 ∧ r.woke = some j ∧ WokenIn 0 j called woken := by
  have hrun : (system 3).Run System.always (start 3) two := System.run_after (by decide +kernel)
  have hreg : two.st.registration 0 = some ⟨1, 0, true, some 0⟩ := by decide +kernel
  have hreg' : woken.st.registration 0 = some ⟨1, 0, true, some 0⟩ := by decide +kernel
  have hcall : (system 3).exec two (.call (.notifier 0) .notifyOne) = some called :=
    System.exec_after (by decide +kernel)
  have hduring : (system 3).During System.always (.notifier 0) called woken :=
    System.during_after (by decide +kernel)
  have hback : woken.pool (.notifier 0) = none :=
    Option.isNone_iff_eq_none.mp (by decide +kernel)
  obtain ⟨-, -, hsleepers, -, hcalls⟩ := multi_wait_cell_loses_nothing (by decide) hrun
  exact ⟨by decide +kernel, by decide +kernel, (hsleepers 1 (by decide +kernel)).1,
    (hcalls 0 _ 0 hreg rfl).2 called woken _ hcall hduring hback hreg' rfl (by decide +kernel)
      (by decide +kernel)⟩

end Fanring.Parking.Multi
