import Fanring.Conc.Refine
import Fanring.Parking.Single

/-!
# The wait cell the channels are built on

`Fanring.WaitCell` has a mutex section as one step, and a count that does not wrap. `Shared` is such
a cell with the condition beside it, under the same operations as the cell access by access; their
code is that of `Fanring.WaitCell`. Every run of the finer cell is a run of it
(`wait_cell_refined`), unless the count goes round within one registration. No task registers a
waker here, so `wake` finds none.

The two cells differ in when the waiter sleeps: in `Shared` from the check of its snapshot on, in
the source not before `Condvar::wait` gives the mutex back. It holds the mutex in between, so
whoever would signal it comes later.
-/

set_option autoImplicit false

namespace Fanring.Parking.Single

open Conc

variable {w : Nat}

/-! ## The coarser cell -/

structure Shared where
  cell : WaitCell
  effects : List Nat

namespace Shared

def lens : Lens Shared WaitCell where
  get s := s.cell
  set c s := { s with cell := c }

def round (park : List Nat → Park) : Prog Shared Unit := do
  let snapshot ← lens.access WaitCell.prepare
  let seen ← Prog.read (·.effects)
  match park seen with
  | .drop => lens.access WaitCell.unregister
  | .wait => WaitCell.wait lens id snapshot
  | .waitTimeout =>
    let _ ← WaitCell.waitTimeout lens id snapshot

def publish (effect : Nat) : Prog Shared Unit :=
  .write fun s => { s with effects := s.effects ++ [effect] }

def notify : Prog Shared Unit := WaitCell.notify lens fun _ => id

def system : System Shared Tid Op where
  may
    | .waiter, .round _, _ => true
    | .notifier _, .publish _, _ => true
    | .notifier _, .notify, _ => true
    | _, _, _ => false
  code
    | .waiter, .round park => round park
    | .notifier _, .publish effect => publish effect
    | .notifier _, .notify => notify
    | _, _ => .ret ()

def start : Config Shared Tid := ⟨⟨.new, []⟩, fun _ => none⟩

/-- `Condvar::wait`; answers whether the time was up. -/
def sleep (late : Nat) : Prog Shared Bool := do
  let n ← WaitCell.sleeping lens late
  return n == 2

/-- Both ways to wait on a registration; `late` says what may wake the sleeper. -/
def park (late snapshot : Nat) : Prog Shared Bool := do
  if ← lens.accessWith (fun _ => id) (WaitCell.sleepOn snapshot) then
    let timedOut ← sleep late
    lens.access WaitCell.unregister
    return timedOut
  else
    lens.access WaitCell.unregister
    return false

theorem waitTimeout_eq (snapshot : Nat) :
    WaitCell.waitTimeout lens id snapshot = park 2 snapshot := rfl

theorem wait_eq (snapshot : Nat) :
    WaitCell.wait lens id snapshot = (park 1 snapshot).bind fun _ => .ret () := by
  unfold WaitCell.wait park sleep
  simp only [Prog.bind_eq, Prog.bind_assoc]
  congr 1
  funext slept
  cases slept <;> rfl

end Shared

/-! ## The view of the finer cell -/

/-- The waiter sleeps from the check on. -/
def Cell.rest (c : Cell w) : Sleep := if c.relies && c.sleep == .awake then .asleep else c.sleep

def view (c : Cell w) : Shared where
  cell := ⟨c.issued, c.registration.isSome, c.rest, false⟩
  effects := c.effects

/-- The count has not gone round since the registration. -/
def Few (c : Cell w) : Prop :=
  ∀ x, c.registration = some x → c.issued - x.since < 2 ^ (w - 1)

theorem Cell.rest_of_not_relies {s : Cell w} (h : s.relies = false) : s.rest = s.sleep := by
  simp [Cell.rest, h]

theorem Cell.rest_of_ne_awake {s : Cell w} (h : s.sleep ≠ .awake) : s.rest = s.sleep := by
  simp [Cell.rest, h]

variable {s : Cell w} {snapshot : BitVec w} {seen checked mine : Bool} {k n : Nat}

theorem view_of_rest {r : Sleep} (h : s.rest = r) :
    view s = ⟨⟨s.issued, s.registration.isSome, r, false⟩, s.effects⟩ := by
  rw [view, h]

/-! ## The waiter -/

/-- The registration was made after `k` notifications. -/
def Since (k : Nat) (r : Option Registration) : Prop := ∀ x, r = some x → x.since = k

theorem Since.map {r : Option Registration} (h : Since k r) {f : Registration → Registration}
    (hf : ∀ x, (f x).since = x.since) : Since k (r.map f) := by
  intro x hx
  obtain ⟨y, rfl, rfl⟩ := Option.map_eq_some_iff.mp hx
  exact (hf y).trans (h y rfl)

theorem Since.stable : (contract w .waiter).Stable fun s => Since k s.registration := by
  rintro s s' - - ⟨u, hu, hg⟩ h
  rwa [(hg.waiter hu).1]

/-- The waiter, awake, with a registration made after `k` notifications. -/
def Registered (k : Nat) (snapshot : BitVec w) (seen checked mine : Bool) (s : Cell w) : Prop :=
  Waits (In snapshot seen checked) mine s ∧ Since k s.registration

theorem Registered.stable :
    (contract w .waiter).Stable (Registered k snapshot seen checked mine) :=
  Waits.stable.and Since.stable

theorem Registered.rest (h : Registered k snapshot seen false mine s) : s.rest = .awake :=
  (Cell.rest_of_not_relies (Cell.not_relies In.unchecked h.1.registration)).trans h.1.awake

/-- The word is unchanged just if the count is. -/
theorem Registered.current (h : Registered k snapshot seen checked mine s) (hi : Inv s)
    (hfew : Few s) : s.state = snapshot ↔ s.issued = k := by
  obtain ⟨x, hx, rfl, -⟩ := h.1.registration
  rw [hi.word, hx, ← h.2 x hx]
  refine ⟨fun heq => ?_, fun heq => by rw [heq]; rfl⟩
  exact Flagged.inj heq (hi.standing x hx).since_le (hfew x hx)

theorem prepare_matches :
    Matches (contract w .waiter) Few view (Waits Out false) prepare
      (Shared.lens.access WaitCell.prepare) fun snapshot k =>
        Registered k snapshot false false false := by
  refine .atomic Waits.stable (fun _ _ => Registered.stable) prepare_spec (fun s hi h _ => ?_)
    fun s hi h _ hq => ⟨hq, fun x hx => ?_⟩
  · have hout : s.registration = none := h.registration
    have hrest : s.rest = s.sleep := Cell.rest_of_not_relies (by rw [Cell.relies, hout]; rfl)
    rw [view_of_rest (Cell.rest_of_not_relies rfl), view_of_rest hrest]
    rfl
  · cases hx
    rfl

theorem recheck_matches :
    Matches (contract w .waiter) Few view (Registered k snapshot false false false) recheck
      (Prog.read (·.effects)) fun seen seen' s =>
        seen = seen' ∧ Registered k snapshot true false false s := by
  refine .atomic Registered.stable (fun _ _ => (Contract.Stable.pure _).and Registered.stable)
    (recheck_spec.pre fun _ _ h => h.1) (fun s _ _ _ => ?_)
    fun s _ h _ hq => ⟨rfl, hq, h.2.map fun _ => rfl⟩
  simp [view, Cell.rest, Cell.relies, Option.any_map]

theorem lock_matches :
    Matches (contract w .waiter) Few view (Registered k snapshot seen false false)
      (lock .waiter) (.ret ()) fun _ _ => Registered k snapshot seen false true := by
  refine .silent Registered.stable (fun _ => Registered.stable)
    ((waiter_lock_spec In.unchecked).pre fun _ _ h => h.1) (fun s n s' _ _ hf => ?_)
    fun s n s' _ h hf hq => ?_
  · cases (Option.ite_none_right_eq_some.mp hf).2
    rfl
  · cases (Option.ite_none_right_eq_some.mp hf).2
    exact ⟨hq, h.2⟩

theorem unlock_matches :
    Matches (contract w .waiter) Few view (Registered k snapshot seen false true)
      unlock (.ret ()) fun _ _ => Registered k snapshot seen false false := by
  refine .silent Registered.stable (fun _ => Registered.stable)
    ((waiter_unlock_spec In.unchecked).pre fun _ _ h => h.1) (fun s n s' _ _ hf => ?_)
    fun s n s' _ h hf hq => ?_
  · cases hf
    rfl
  · cases hf
    exact ⟨hq, h.2⟩

theorem Registered.sleepOn (h : Registered k snapshot seen checked mine s) :
    (view s).cell.sleepOn k =
      if s.issued = k then (true, { (view s).cell with sleep := .asleep })
      else (false, (view s).cell) := by
  obtain ⟨x, hx, -⟩ := h.1.registration
  by_cases hk : s.issued = k <;> simp [WaitCell.sleepOn, view, hx, hk]

/-- The check of the snapshot, and with it the sleep. -/
theorem isCurrent_matches :
    Matches (contract w .waiter) Few view (Registered k snapshot true false true)
      (isCurrent snapshot) (Shared.lens.accessWith (fun _ => id) (WaitCell.sleepOn k))
      fun current slept s => current = slept ∧ Registered k snapshot true current true s := by
  refine .atomic Registered.stable (fun _ _ => (Contract.Stable.pure _).and Registered.stable)
    (isCurrent_spec.pre fun _ _ h => h.1) (fun s hi h hfew => ?_) fun s hi h hfew hq => ?_
  · obtain ⟨x, hx, -⟩ := h.1.registration
    simp only [Shared.lens, h.sleepOn, h.current hi hfew]
    split
    · simp [view, Cell.rest, Cell.relies, hx, h.1.awake]
    · rfl
  · refine ⟨?_, hq, ?_⟩
    · simp only [Shared.lens, h.sleepOn, h.current hi hfew]
      split <;> simp [*]
    · dsimp only
      split
      · exact h.2.map fun _ => rfl
      · exact h.2

/-- The waiter, in the condition variable, with a registration made after `k` notifications. -/
def Dozing (k : Nat) (snapshot : BitVec w) (s : Cell w) : Prop :=
  Dozes (In snapshot true true) s ∧ Since k s.registration

theorem Dozing.stable : (contract w .waiter).Stable (Dozing k snapshot) :=
  Dozes.stable.and Since.stable

theorem sleep_matches :
    Matches (contract w .waiter) Few view (Registered k snapshot true true true)
      (Prog.write fun c => { c with mutex := none, sleep := .asleep }) (.ret ())
      fun _ _ => Dozing k snapshot := by
  refine .silent Registered.stable (fun _ => Dozing.stable) (sleep_spec.pre fun _ _ h => h.1)
    (fun s n s' _ h hf => ?_) fun s n s' _ h hf hq => ?_
  · cases hf
    obtain ⟨x, hx, -, -, hc⟩ := h.1.registration
    simp [view, Cell.rest, Cell.relies, hx, hc, h.1.awake]
  · cases hf
    exact ⟨hq, h.2⟩

theorem resume_matches (late : Nat) :
    Matches (contract w .waiter) Few view (Dozing k snapshot)
      (Prog.await (fun n c => c.sleep == .signaled || (0 < n && n ≤ late)) fun n c => (n,
        { c with
          sleep := .awake
          registration := c.registration.map fun x => { x with checked := none } }))
      (WaitCell.sleeping Shared.lens late)
      fun n n' s => n = n' ∧ Registered k snapshot true false false s := by
  refine .await Dozing.stable (fun _ _ => (Contract.Stable.pure _).and Registered.stable)
    ((resume_spec late).pre fun _ _ h => h.1) (fun s n _ h hen => ?_) (fun s n _ h => ?_)
    fun s n _ h hq => ⟨rfl, hq, h.2.map fun _ => rfl⟩
  · rwa [show (Shared.lens.get (view s)).sleep = s.sleep from Cell.rest_of_ne_awake h.1.sleep]
  · obtain ⟨x, hx, -⟩ := h.1.registration
    simp [view, Shared.lens, WaitCell.resume, Cell.rest, Cell.relies, hx]

theorem waitOn_matches (late : Nat) :
    Matches (contract w .waiter) Few view (Registered k snapshot true true true) (waitOn late)
      (Shared.sleep late) fun timedOut timedOut' s =>
        timedOut = timedOut' ∧ Registered k snapshot true false true s := by
  refine sleep_matches.skip fun _ => ?_
  refine (resume_matches late).bind_same fun n => ?_
  refine lock_matches.skip fun _ => ?_
  exact .ret ((Contract.Stable.pure _).and Registered.stable) fun _ _ h => ⟨rfl, h⟩

theorem dropRegistration_matches :
    Matches (contract w .waiter) Few view (Registered k snapshot seen false false)
      dropRegistration (Shared.lens.access WaitCell.unregister) fun _ _ _ => True := by
  refine .atomic Registered.stable (fun _ _ => .pure _) (dropRegistration_spec.pre fun _ _ h => h.1)
    (fun s _ h _ => ?_) fun _ _ _ _ _ => trivial
  refine (view_of_rest (Cell.rest_of_not_relies rfl)).trans ?_
  rw [view_of_rest h.rest, ← h.1.awake]
  rfl

theorem leave_matches (timedOut : Bool) :
    Matches (contract w .waiter) Few view (Registered k snapshot true false true)
      (unlock.bind fun _ => dropRegistration.bind fun _ => .ret timedOut)
      ((Shared.lens.access WaitCell.unregister).bind fun _ => .ret timedOut) fun _ _ _ => True := by
  refine unlock_matches.skip fun _ => ?_
  exact dropRegistration_matches.bind fun _ _ => .ret (.pure _) fun _ _ _ => trivial

theorem waitTimeout_matches (late : Nat) :
    Matches (contract w .waiter) Few view (Registered k snapshot true false false)
      (waitTimeout late snapshot) (Shared.park late k) fun _ _ _ => True := by
  refine lock_matches.skip fun _ => ?_
  refine isCurrent_matches.bind_same fun current => ?_
  cases current with
  | true =>
    exact (waitOn_matches late).bind_same leave_matches
  | false => exact leave_matches false

theorem round_matches (park : List Nat → Park) :
    Matches (contract w .waiter) Few view (Waits Out false) (round park) (Shared.round park)
      fun _ _ _ => True := by
  refine prepare_matches.bind fun snapshot k => ?_
  refine recheck_matches.bind_same fun seen => ?_
  cases park seen with
  | drop => exact dropRegistration_matches
  | wait =>
    rw [Shared.wait_eq]
    exact (waitTimeout_matches 1).bind fun _ _ => .ret (.pure _) fun _ _ _ => trivial
  | waitTimeout =>
    rw [Shared.waitTimeout_eq]
    exact (waitTimeout_matches 2).bind fun _ _ => .ret (.pure _) fun _ _ _ => trivial

/-! ## The notifiers -/

variable {due : Bool}

theorem publish_matches (effect : Nat) :
    Matches (contract w (.notifier n)) Few view (Notifies n false false) (publish n effect)
      (Shared.publish effect) fun _ _ _ => True :=
  .atomic Notifies.stable (fun _ _ => .pure _) (publish_spec effect) (fun _ _ _ _ => rfl)
    fun _ _ _ _ _ => trivial

theorem notifier_lock_matches :
    Matches (contract w (.notifier n)) Few view (Notifies n due false) (lock (.notifier n))
      (.ret ()) fun _ _ => Notifies n due true := by
  refine .silent Notifies.stable (fun _ => Notifies.stable) notifier_lock_spec
    (fun s _ s' _ _ hf => ?_) fun _ _ _ _ _ _ hq => hq
  cases (Option.ite_none_right_eq_some.mp hf).2
  rfl

theorem notifier_unlock_matches :
    Matches (contract w (.notifier n)) Few view (Notifies n due true) unlock (.ret ())
      fun _ _ _ => True := by
  refine .silent Notifies.stable (fun _ => .pure _) notifier_unlock_spec
    (fun s _ s' _ _ hf => ?_) fun _ _ _ _ _ _ _ => trivial
  cases hf
  rfl

/-- Without the mutex the waiter is not between its check and its sleep. -/
theorem Cell.rest_of_inv (hi : Inv s) (hm : s.mutex ≠ some .waiter) : s.rest = s.sleep := by
  by_cases hs : s.sleep = .awake
  · exact Cell.rest_of_not_relies (Bool.eq_false_iff.mpr fun hr => hm (hi.relied hs hr))
  · exact Cell.rest_of_ne_awake hs

theorem notifyOne_matches :
    Matches (contract w (.notifier n)) Few view (Notifies n true true) (notifyOne n)
      (Shared.lens.accessWith (fun _ => id) WaitCell.signal) fun _ _ => Notifies n false true := by
  refine .atomic Notifies.stable (fun _ _ => Notifies.stable) notifyOne_spec (fun s hi h _ => ?_)
    fun _ _ _ _ hq => hq
  have hmine : s.mutex ≠ some .waiter := by simp [h.holds.mpr rfl]
  by_cases hs : s.sleep = .asleep
  · obtain ⟨-, x, hx, -⟩ := hi.asleep hs
    simp [view, Shared.lens, WaitCell.signal, Cell.rest, hs, hx]
  · have hrest : s.rest ≠ .asleep := by rwa [Cell.rest_of_inv hi hmine]
    have hsignal : (view s).cell.signal = ((), (view s).cell) := by
      simp [WaitCell.signal, view, hrest]
    simp only [Shared.lens, hsignal, if_neg hs]
    rfl

theorem notifyWaiter_matches (hw : 0 < w) :
    Matches (contract w (.notifier n)) Few view (Notifies n true false) (notifyWaiter n)
      (Shared.lens.accessWith (fun _ => id) WaitCell.signal) fun _ _ _ => True := by
  refine notifier_lock_matches.skip fun _ => ?_
  refine .access Notifies.stable (load_spec hw) fun s m s' hi h _ hf => ?_
  cases hf
  by_cases hset : s.state &&& 1#w ≠ 0#w
  · simp only [decide_eq_true hset, if_pos hset]
    exact ⟨[], _, rfl, (notifyOne_matches.bind (g := .ret) fun _ _ => notifier_unlock_matches).pre
      fun _ _ h => h.2⟩
  · -- nobody is registered any more, so there is nobody to signal
    have hnone : s.registration = none := by
      rw [hi.word, Flagged.and_one hw] at hset
      simpa using hset
    simp only [decide_eq_false hset, if_neg hset]
    refine ⟨[0], .ret (), ?_, notifier_unlock_matches.pre fun _ _ h => h.2⟩
    have hsignal : (view s).cell.signal = ((), (view s).cell) := by
      simp [WaitCell.signal, view, hnone]
    simp only [Prog.drive, Prog.step, Lens.accessWith, Prog.atomic, Shared.lens, hsignal,
      Option.map_some, Option.bind_some]
    rfl

theorem notify_matches (hw : 0 < w) :
    Matches (contract w (.notifier n)) Few view (Notifies n false false) (notify n) Shared.notify
      fun _ _ _ => True := by
  refine .access Notifies.stable (bump_spec hw) fun s m s' hi h _ hf => ?_
  cases hf
  refine ⟨[0, 0], if s.registration.isSome then
    Shared.lens.accessWith (fun _ => id) WaitCell.signal else .ret (), rfl, ?_⟩
  have hset : s.state &&& 1#w ≠ 0#w ↔ s.registration.isSome = true := by
    rw [hi.word]
    exact Flagged.and_one hw
  by_cases hreg : s.registration.isSome = true
  · rw [if_pos hreg, if_pos (hset.mpr hreg), decide_eq_true (hset.mpr hreg)]
    exact (notifyWaiter_matches hw).pre fun _ _ h => h.2
  · rw [if_neg hreg, if_neg (mt hset.mp hreg)]
    exact .ret (.pure _) fun _ _ _ => trivial

/-! ## Every run -/

def refinement (hw : 0 < w) : Refinement (outline (w := w) hw) Shared.system where
  view := view
  fair := Few
  may_ok t op _ h := by
    match t, op with
    | .waiter, .round _ => rfl
    | .notifier _, .publish _ => rfl
    | .notifier _, .notify => rfl
  code_ok t op s hs hidle hmay _ := by
    match t, op with
    | .waiter, .round park => exact round_matches park s hs hidle
    | .notifier n, .publish effect => exact publish_matches effect s hs hidle
    | .notifier n, .notify => exact notify_matches hw s hs hidle

/-- **The wait cell the channels are built on is the one of the source.** Every run of the cell
    access by access, as long as the count does not go round within one registration, is a run of
    `Fanring.WaitCell`: with the same calls in the same order, the same notifications issued, the
    same published, and whoever has returned has returned. -/
theorem wait_cell_refined (hw : 0 < w) {cs : List (Tid × Op)} {c : Config (Cell w) Tid}
    (hrun : (system w).Makes (fun c _ => Few c.st) (start w) cs c) :
    ∃ d, Shared.system.Makes System.always Shared.start cs d ∧ d.st = view c.st ∧
      ∀ t, c.pool t = none → d.pool t = none := by
  have hstart : (refinement hw).Shows (start w) Shared.start :=
    ⟨rfl, fun _ => ⟨.ret (), rfl, rfl⟩⟩
  obtain ⟨d, hmakes, hshows⟩ := (refinement hw).run (good_of_run hw .refl) hstart
    (hrun.mono fun _ l hfew => ⟨by cases l <;> trivial, hfew⟩)
  exact ⟨d, hmakes, hshows.state, fun _ => hshows.idle⟩

end Fanring.Parking.Single
