import Fanring.Yring.HintInv

/-!
# One step of a call that checks or signals

Each kind of access the hinted operations make, and each way a call ends, keeps the invariant and
the guarantee. The lemmas are about the side `v` that takes the step: an access that no waiter and
no published cursor shows (`Quiet`), switching hints on, the two halves of a registration, a
publication with a hint and one without, the take that ends a signalling call, and a check's
report.
-/

set_option autoImplicit false

namespace Fanring.Yring.Hint

open Conc

variable {w : Nat} {V : Type} {mask : BitVec w} {v : Side} {s s' : Hinted w V}

theorem Side.other_ne (v : Side) : v.other ≠ v := by cases v <;> nofun

@[simp] theorem half_setHalf_self (h : Half) : (s.setHalf v h).half v = h :=
  Function.update_self ..

@[simp] theorem half_setHalf_other (h : Half) : (s.setHalf v h).half v.other = s.half v.other :=
  Function.update_of_ne (Side.other_ne v) ..

@[simp] theorem ring_setHalf (h : Half) : (s.setHalf v h).ring = s.ring := rfl

@[simp] theorem ends_setHalf (h : Half) (u : Side) : ends (s.setHalf v h) u = ends s u := by
  cases u <;> rfl

@[simp] theorem ring_setEnds (x : End w v) : (setEnds s v x).ring = s.ring := by cases v <;> rfl

@[simp] theorem half_setEnds (x : End w v) : (setEnds s v x).half = s.half := by cases v <;> rfl

@[simp] theorem ends_setEnds_self (x : End w v) : ends (setEnds s v x) v = x := by
  cases v <;> rfl

@[simp] theorem ends_setEnds_other (x : End w v) : ends (setEnds s v x) v.other =
    ends s v.other := by
  cases v <;> rfl

@[simp] theorem ends_ring (r : Ring w V) (u : Side) : ends { s with ring := r } u = ends s u := by
  cases u <;> rfl

/-- The other side's waiter and what the side itself does not publish are as they were. -/
theorem waiter_setWaiter_self (r : Ring w V) (x : Waiter) : (r.setWaiter x v).waiter v = x := by
  cases v <;> rfl

theorem waiter_setWaiter_other (r : Ring w V) (x : Waiter) :
    (r.setWaiter x v).waiter v.other = r.waiter v.other := by
  cases v <;> rfl

theorem waiter_setWaiter_of_other (r : Ring w V) (x : Waiter) :
    (r.setWaiter x v.other).waiter v = r.waiter v := by
  cases v <;> rfl

theorem word_setWaiter (r : Ring w V) (x : Waiter) (u t : Side) :
    word u (r.setWaiter x t) = word u r := by
  cases u <;> cases t <;> rfl

/-! ## Putting a step together -/

/-- **A step that keeps its guarantee, its own endpoint's part and, if it ends a signalling call,
    leaves the other settled, keeps the invariant.** -/
theorem Inv.step (hs : Inv mask s) (hg : Guar mask v s s') (hown : Waits mask v s')
    (hend : (s.half v).signalling = true → (s'.half v).signalling = false →
      Settled mask v.other s') : Inv mask s' := by
  intro u
  by_cases hu : u = v
  · exact hu ▸ hown
  · obtain rfl := Side.eq_other hu
    refine (hs v.other).other ?_ ?_
    · rwa [Side.other_other]
    · rwa [Side.other_other]

/-- The endpoint's own part, when the step does not touch its last check. -/
theorem Waits.own (hs : Waits mask v s) (hg : Guar mask v s s')
    (hrest : (s'.half v).resting = (s.half v).resting)
    (hseen : (s'.half v).seenSignals = (s.half v).seenSignals)
    (hplain : (s'.half v).seenPlain = (s.half v).seenPlain)
    (hdrained : (s.half v).resting = true → Drained v (Hint.ends s v) → Drained v (Hint.ends s' v))
    (harmed : (s'.ring.waiter v).armed = (s.ring.waiter v).armed) : Waits mask v s' := by
  have hexc : Excused v s → Excused v s' := by
    unfold Excused
    rw [hg.half, hseen, hplain]
    exact id
  refine ⟨?_, ?_, ?_, ?_, ?_, ?_⟩
  · rw [harmed, hg.enabled_own]
    exact hs.armed
  · rw [hseen, hg.half]
    exact hs.signals
  · rw [hplain, hg.half]
    exact hs.plain
  · rw [hrest]
    exact fun h => hdrained h (hs.drained h)
  · rw [hrest, harmed]
    exact fun h => (hs.alert h).imp hexc (Or.imp_right hg.waiting_own)
  · rw [hg.half]
    exact fun h => hg.settled (hs.settled h)

/-- The endpoint's own part while it rests on no check. -/
theorem Waits.busy (h : (s'.half v).resting = false)
    (harmed : (s'.ring.waiter v).armed = true → (s'.ring.waiter v).enabled = true)
    (hseen : (s'.half v).seenSignals ≤ (s'.half v.other).signals.length)
    (hplain : (s'.half v).seenPlain ≤ (s'.half v.other).plain) : Waits mask v s' := by
  refine ⟨harmed, hseen, hplain, ?_, ?_, ?_⟩
  · rw [h]
    nofun
  · rw [h]
    nofun
  · intro _
    unfold Settled
    rw [h]
    nofun

theorem Settled.busy (h : (s'.half v).resting = false) : Settled mask v s' := by
  unfold Settled
  rw [h]
  nofun

/-! ## Accesses no waiter and no published cursor shows -/

structure Quiet (r r' : Ring w V) : Prop where
  head : r'.head = r.head
  tail : r'.tail = r.tail
  producerWaiting : r'.producerWaiting = r.producerWaiting
  consumerWaiting : r'.consumerWaiting = r.consumerWaiting

theorem Quiet.refl (r : Ring w V) : Quiet r r := ⟨rfl, rfl, rfl, rfl⟩

theorem Quiet.word {r r' : Ring w V} (q : Quiet r r') (u : Side) : word u r' = word u r := by
  cases u with
  | producer => exact q.tail
  | consumer => exact q.head

theorem Quiet.waiter {r r' : Ring w V} (q : Quiet r r') (u : Side) : r'.waiter u = r.waiter u := by
  cases u with
  | producer => exact q.producerWaiting
  | consumer => exact q.consumerWaiting

/-- What a call's thread may record, and change of its own endpoint, in a quiet step. -/
theorem Quiet.guar {r : Ring w V} (q : Quiet s.ring r) {x : End w v} {h : Half}
    (hsignals : (s.half v).signals <+: h.signals) (hplain : (s.half v).plain ≤ h.plain)
    (hsettled : Settled mask v s →
      Settled mask v ((setEnds { s with ring := r } v x).setHalf v h)) :
    Guar mask v s ((setEnds { s with ring := r } v x).setHalf v h) where
  half := by simp
  ends := by simp
  word_other := by simpa using q.word v.other
  enabled_other := by simp [q.waiter]
  armed_other := by simp [q.waiter]
  waiting_other h := .inl (by simpa [q.waiter] using h)
  enabled_own := by simp [q.waiter]
  armed_own := by simp [q.waiter]
  waiting_own := by simp [q.waiter]
  signals := by simpa using hsignals
  plain := by simpa using hplain
  word_own := .inl (by simpa using q.word v)
  settled := hsettled

/-! ## Steps in the middle of a call -/

/-- The ring changed and the record did not. -/
theorem Guar.ofRing {r : Ring w V} (hword : word v.other r = word v.other s.ring)
    (henabled : (s.ring.waiter v.other).enabled = true → (r.waiter v.other).enabled = true)
    (harmed : (r.waiter v.other).armed = (s.ring.waiter v.other).armed)
    (hwaiting : (r.waiter v.other).waiting = (s.ring.waiter v.other).waiting)
    (henabled_own : (r.waiter v).enabled = (s.ring.waiter v).enabled)
    (harmed_own : (s.ring.waiter v).armed = true → (r.waiter v).armed = true)
    (hwaiting_own : (s.ring.waiter v).waiting = true → (r.waiter v).waiting = true)
    (hword_own : word v r = word v s.ring ∨
      (s.ring.waiter v.other).enabled = true ∧ (s.half v).signalling = true) :
    Guar mask v s { s with ring := r } where
  half := rfl
  ends := ends_ring r v.other
  word_other := hword
  enabled_other := henabled
  armed_other := harmed
  waiting_other h := .inl (hwaiting.trans h)
  enabled_own := henabled_own
  armed_own := harmed_own
  waiting_own := hwaiting_own
  signals := List.prefix_rfl
  plain := le_rfl
  word_own := hword_own.imp_right .inr
  settled h hrest := by
    rw [ends_ring]
    exact (h hrest).imp_right (Stuck.congr hword)

/-- A step in the middle of a call keeps the invariant if it leaves the endpoint's own waiter
    acknowledged as it was. -/
theorem Inv.ofRing (hs : Inv mask s) {r : Ring w V} (hg : Guar mask v s { s with ring := r })
    (harmed : (r.waiter v).armed = (s.ring.waiter v).armed) : Inv mask { s with ring := r } := by
  refine hs.step hg ((hs v).own hg rfl rfl rfl (fun _ h => ?_) harmed) fun h h' => ?_
  · rwa [ends_ring]
  · exact absurd (h.symm.trans h') (by simp)

theorem quiet_step (v : Side) (hs : Inv mask s) {r : Ring w V} (q : Quiet s.ring r) :
    Inv mask { s with ring := r } ∧ Guar mask v s { s with ring := r } := by
  have hg : Guar mask v s { s with ring := r } := by
    refine .ofRing (q.word _) ?_ ?_ ?_ ?_ ?_ ?_ (.inl (q.word v)) <;> simp [q.waiter]
  exact ⟨hs.ofRing hg (by rw [q.waiter]), hg⟩

/-- Switching the other's hints on. -/
theorem enable_step (v : Side) (hs : Inv mask s) :
    let r := s.ring.setWaiter { s.ring.waiter v.other with enabled := true } v.other
    Inv mask { s with ring := r } ∧ Guar mask v s { s with ring := r } := by
  intro r
  have hother : r.waiter v.other = { s.ring.waiter v.other with enabled := true } :=
    waiter_setWaiter_self ..
  have hown : r.waiter v = s.ring.waiter v := waiter_setWaiter_of_other ..
  have hg : Guar mask v s { s with ring := r } := by
    refine .ofRing (word_setWaiter ..) ?_ ?_ ?_ ?_ ?_ ?_ (.inl (word_setWaiter ..)) <;>
      simp [hother, hown]
  exact ⟨hs.ofRing hg (by rw [hown]), hg⟩

/-- The first half of a registration. -/
theorem waiting_step (v : Side) (hs : Inv mask s) :
    let r := s.ring.setWaiter { s.ring.waiter v with waiting := true } v
    Inv mask { s with ring := r } ∧ Guar mask v s { s with ring := r } := by
  intro r
  have hown : r.waiter v = { s.ring.waiter v with waiting := true } := waiter_setWaiter_self ..
  have hother : r.waiter v.other = s.ring.waiter v.other := waiter_setWaiter_other ..
  have hg : Guar mask v s { s with ring := r } := by
    refine .ofRing (word_setWaiter ..) ?_ ?_ ?_ ?_ ?_ ?_ (.inl (word_setWaiter ..)) <;>
      simp [hother, hown]
  exact ⟨hs.ofRing hg (by rw [hown]), hg⟩

/-- The second half of a registration, made with the hints switched on. -/
theorem armed_step (hs : Inv mask s) (hrest : (s.half v).resting = false)
    (henabled : (s.ring.waiter v).enabled = true) :
    let r := s.ring.setWaiter { s.ring.waiter v with armed := true } v
    Inv mask { s with ring := r } ∧ Guar mask v s { s with ring := r } := by
  intro r
  have hown : r.waiter v = { s.ring.waiter v with armed := true } := waiter_setWaiter_self ..
  have hother : r.waiter v.other = s.ring.waiter v.other := waiter_setWaiter_other ..
  have hg : Guar mask v s { s with ring := r } := by
    refine .ofRing (word_setWaiter ..) ?_ ?_ ?_ ?_ ?_ ?_ (.inl (word_setWaiter ..)) <;>
      simp [hother, hown]
  refine ⟨hs.step hg (.busy hrest ?_ (hs v).signals (hs v).plain) ?_, hg⟩
  · intro _
    change (r.waiter v).enabled = true
    rw [hown]
    exact henabled
  · exact fun h h' => absurd (h.symm.trans h') (by simp)

/-- A publication in the middle of a signalling call. -/
theorem publish_step (hs : Inv mask s) {r : Ring w V} (hsig : (s.half v).signalling = true)
    (henabled : (s.ring.waiter v.other).enabled = true)
    (hword : word v.other r = word v.other s.ring) (hwaiter : ∀ u, r.waiter u = s.ring.waiter u) :
    Inv mask { s with ring := r } ∧ Guar mask v s { s with ring := r } := by
  have hg : Guar mask v s { s with ring := r } := by
    refine .ofRing hword ?_ ?_ ?_ ?_ ?_ ?_ (.inr ⟨henabled, hsig⟩) <;> simp [hwaiter]
  exact ⟨hs.ofRing hg (by rw [hwaiter]), hg⟩

/-! ## Steps that start or end a call -/

/-- The endpoint's new cursors leave it as stuck, and its window as used up, as it was. -/
structure Keeps (mask : BitVec w) (v : Side) (x x' : End w v) : Prop where
  drained : Drained v x → Drained v x'
  stuck : ∀ r : Ring w V, Stuck mask v x r → Stuck mask v x' r

theorem Keeps.refl (x : End w v) : Keeps (V := V) mask v x x := ⟨id, fun _ => id⟩

/-- The thread is between calls. -/
def Idle (v : Side) (s : Hinted w V) : Prop := (s.half v).signalling = false

/-- A call that signals nothing and checked nothing ends, or starts. -/
theorem plain_step (hs : Inv mask s) (hidle : Idle v s) {r : Ring w V} (q : Quiet s.ring r)
    {x : End w v} (hkeeps : (s.half v).resting = true → Keeps (V := V) mask v (ends s v) x) :
    let s' := setEnds { s with ring := r } v x
    Inv mask s' ∧ Guar mask v s s' ∧ Idle v s' := by
  intro s'
  have heq : s'.setHalf v (s.half v) = s' := by
    have : Function.update s'.half v (s.half v) = s'.half := by simp [s']
    rw [Hinted.setHalf, this]
  have hg : Guar mask v s s' := by
    rw [← heq]
    refine q.guar List.prefix_rfl le_rfl fun h hrest => ?_
    rw [half_setHalf_self] at hrest
    refine (h hrest).imp (fun h => ?_) fun h => ?_
    · simpa [Excused, s'] using h
    · rw [ends_setHalf, ends_setEnds_self, ring_setHalf, ring_setEnds]
      exact ((hkeeps hrest).stuck _ h).congr (q.word _)
  have hhalf : s'.half v = s.half v := by simp [s']
  refine ⟨hs.step hg ((hs v).own hg (by rw [hhalf]) (by rw [hhalf]) (by rw [hhalf]) ?_ ?_) ?_,
    hg, ?_⟩
  · intro hrest hd
    rw [ends_setEnds_self]
    exact (hkeeps hrest).drained hd
  · simp [s', q.waiter]
  · intro h
    exact absurd (hidle.symm.trans h) (by simp)
  · exact (congrArg Half.signalling hhalf).trans hidle

/-- A check starts. -/
theorem check_step (v : Side) (hs : Inv mask s) :
    Inv mask (s.check v) ∧ Guar mask v s (s.check v) := by
  have hrest : ((s.check v).half v).resting = false := by simp [Hinted.check]
  have hsig : ((s.check v).half v).signalling = (s.half v).signalling := by simp [Hinted.check]
  have hg : Guar mask v s (s.check v) :=
    { Guar.refl mask v s with
      half := by simp [Hinted.check]
      ends := by simp [Hinted.check]
      waiting_other := .inl
      signals := by simp [Hinted.check]
      plain := by simp [Hinted.check]
      word_own := .inl rfl
      settled := fun _ => .busy hrest }
  refine ⟨hs.step hg (.busy hrest (hs v).armed ?_ ?_) fun h h' => ?_, hg⟩
  · simp [Hinted.check]
  · simp [Hinted.check]
  · rw [hsig] at h'
    exact absurd (h.symm.trans h') (by simp)

/-- A signalling call starts. -/
theorem signal_step (v : Side) (hs : Inv mask s) :
    Inv mask (s.signal v) ∧ Guar mask v s (s.signal v) := by
  have hg : Guar mask v s (s.signal v) :=
    { Guar.refl mask v s with
      half := by simp [Hinted.signal]
      ends := by simp [Hinted.signal]
      waiting_other := .inl
      signals := by simp [Hinted.signal]
      plain := by simp [Hinted.signal]
      word_own := .inl rfl
      settled := fun h => by simpa [Settled, Excused, Hinted.signal] using h }
  refine ⟨hs.step hg ((hs v).own hg ?_ ?_ ?_ ?_ rfl) ?_, hg⟩ <;> simp [Hinted.signal]

/-- **A check reports.** If it reports nothing, its window is used up and either it has been
    excused meanwhile, or the cursor it saw is still published and its registration stands or was
    not asked for. A signalling call it may have been part of ends with it, unsignalled. -/
theorem rest_step (hs : Inv mask s)
    (hsettled : (s.half v).signalling = true → Settled mask v.other s)
    {r : Ring w V} (q : Quiet s.ring r) {x : End w v} (nothing : Bool)
    (hnothing : nothing = true → Drained v x ∧ (Excused v s ∨ Stuck mask v x s.ring) ∧
      (Excused v s ∨ (s.ring.waiter v).armed = false ∨ (s.ring.waiter v).waiting = true)) :
    let s' := (setEnds { s with ring := r } v x).setHalf v
      { s.half v with resting := nothing, signalling := false }
    Inv mask s' ∧ Guar mask v s s' ∧ Idle v s' := by
  intro s'
  have hhalf : s'.half v = { s.half v with resting := nothing, signalling := false } := by
    simp [s']
  have hother : s'.half v.other = s.half v.other := by simp [s']
  have hends : ends s' v = x := by simp [s']
  have hring : s'.ring = r := by simp [s']
  have hexc : Excused v s → Excused v s' := fun h => by
    unfold Excused
    rw [hhalf, hother]
    exact h
  have hset : Settled mask v s' := by
    intro h
    rw [hhalf] at h
    obtain ⟨-, h, -⟩ := hnothing h
    refine h.imp hexc fun h => ?_
    rw [hends, hring]
    exact h.congr (q.word _)
  have hg : Guar mask v s s' := by
    refine q.guar ?_ ?_ fun _ => hset <;> simp
  have hsig : Idle v s' := by
    unfold Idle
    rw [hhalf]
  refine ⟨hs.step hg ⟨?_, ?_, ?_, fun h => ?_, fun h => ?_, fun _ => hset⟩ fun h h' => ?_, hg, hsig⟩
  · rw [hring, q.waiter]
    exact (hs v).armed
  · rw [hhalf, hother]
    exact (hs v).signals
  · rw [hhalf, hother]
    exact (hs v).plain
  · rw [hhalf] at h
    rw [hends]
    exact (hnothing h).1
  · rw [hhalf] at h
    rw [hring, q.waiter]
    exact (hnothing h).2.2.imp_left hexc
  · refine (hsettled h).other (hs v.other) ?_ ?_
    · rwa [Side.other_other]
    · rwa [Side.other_other]

theorem report_step (hs : Inv mask s) (hidle : Idle v s)
    {r : Ring w V} (q : Quiet s.ring r) {x : End w v} {nothing : Bool}
    (hnothing : nothing = true → Drained v x ∧ (Excused v s ∨ Stuck mask v x s.ring) ∧
      (Excused v s ∨ (s.ring.waiter v).armed = false ∨ (s.ring.waiter v).waiting = true)) :
    let s' := (setEnds { s with ring := r } v x).report v nothing
    Inv mask s' ∧ Guar mask v s s' ∧ Idle v s' := by
  have heq : { s.half v with resting := nothing, signalling := false } =
      { s.half v with resting := nothing } := by
    rw [Half.mk.injEq]
    exact ⟨rfl, rfl, Eq.symm hidle, rfl, rfl, rfl⟩
  have := rest_step (x := x) hs (fun h => absurd (hidle.symm.trans h) (by simp)) q nothing hnothing
  rw [heq] at this
  simpa [Hinted.report] using this

/-- A call publishes without a hint and ends. -/
theorem published_step (hs : Inv mask s) (hidle : Idle v s) {r : Ring w V}
    (hword : word v.other r = word v.other s.ring) (hwaiter : ∀ u, r.waiter u = s.ring.waiter u)
    {x : End w v} (hkeeps : (s.half v).resting = true → Keeps (V := V) mask v (ends s v) x) :
    let s' := (setEnds { s with ring := r } v x).published v
    Inv mask s' ∧ Guar mask v s s' ∧ Idle v s' := by
  intro s'
  have hhalf : s'.half v = { s.half v with plain := (s.half v).plain + 1 } := by
    simp [s', Hinted.published]
  have hg : Guar mask v s s' := by
    refine ⟨?_, ?_, ?_, ?_, ?_, fun h => .inl ?_, ?_, ?_, ?_, ?_, ?_, .inr (.inl ?_), ?_⟩
    · simp [s', Hinted.published]
    · simp [s', Hinted.published]
    · simpa [s', Hinted.published] using hword
    · simp [s', Hinted.published, hwaiter]
    · simp [s', Hinted.published, hwaiter]
    · simpa [s', Hinted.published, hwaiter] using h
    · simp [s', Hinted.published, hwaiter]
    · simp [s', Hinted.published, hwaiter]
    · simp [s', Hinted.published, hwaiter]
    · simp [hhalf]
    · simp [hhalf]
    · simp [hhalf]
    · intro h hrest
      rw [hhalf] at hrest
      refine (h hrest).imp (fun h => ?_) fun h => ?_
      · simpa [Excused, s', Hinted.published] using h
      · simp only [s', Hinted.published, ends_setHalf, ends_setEnds_self, ring_setHalf,
          ring_setEnds]
        exact ((hkeeps hrest).stuck _ h).congr hword
  refine ⟨hs.step hg ((hs v).own hg (by rw [hhalf]) (by rw [hhalf]) (by rw [hhalf]) ?_ ?_) ?_,
    hg, ?_⟩
  · intro hrest hd
    have : ends s' v = x := by simp [s', Hinted.published]
    rw [this]
    exact (hkeeps hrest).drained hd
  · simp [s', Hinted.published, hwaiter]
  · intro h
    exact absurd (hidle.symm.trans h) (by simp)
  · exact (congrArg Half.signalling hhalf).trans hidle

/-- **The take that ends a signalling call.** It clears the other's registration; it answers wake
    unless the other acknowledged the hints and had no registration to clear. -/
theorem take_step (hs : Inv mask s) (answer : Bool)
    (hanswer : answer = false → (s.ring.waiter v.other).armed = true ∧
      (s.ring.waiter v.other).waiting = false)
    {x : End w v} (hkeeps : (s.half v).resting = true → Keeps (V := V) mask v (ends s v) x) :
    let r := s.ring.setWaiter { s.ring.waiter v.other with waiting := false } v.other
    let s' := (setEnds { s with ring := r } v x).signalled v (some answer)
    Inv mask s' ∧ Guar mask v s s' ∧ Idle v s' := by
  intro r s'
  have hother : r.waiter v.other = { s.ring.waiter v.other with waiting := false } :=
    waiter_setWaiter_self ..
  have hown : r.waiter v = s.ring.waiter v := waiter_setWaiter_of_other ..
  have hring : s'.ring = r := by simp [s', Hinted.signalled]
  have hhalf : s'.half v =
      { s.half v with signalling := false, signals := (s.half v).signals ++ [answer] } := by
    simp [s', Hinted.signalled]
  have hhalf' : s'.half v.other = s.half v.other := by simp [s', Hinted.signalled]
  have hends : ends s' v = x := by simp [s', Hinted.signalled]
  have hg : Guar mask v s s' := by
    refine ⟨hhalf', ?_, ?_, ?_, ?_, fun h => .inr ?_, ?_, ?_, ?_, ?_, ?_, .inl ?_, ?_⟩
    · simp [s', Hinted.signalled]
    · rw [hring]
      exact word_setWaiter ..
    · simp [hring, hother]
    · simp [hring, hother]
    · rw [hhalf]
      cases answer with
      | true => rfl
      | false => exact absurd (h.symm.trans (hanswer rfl).2) (by simp)
    · rw [hring, hown]
    · rw [hring, hown]
      exact id
    · rw [hring, hown]
      exact id
    · rw [hhalf]
      exact List.prefix_append ..
    · rw [hhalf]
    · rw [hring]
      exact word_setWaiter ..
    · intro h hrest
      rw [hhalf] at hrest
      refine (h hrest).imp (fun h => ?_) fun h => ?_
      · unfold Excused
        rw [hhalf, hhalf']
        exact h
      · rw [hends, hring]
        exact ((hkeeps hrest).stuck _ h).congr (word_setWaiter ..)
  have hback : Guar mask v.other.other s s' := by rwa [Side.other_other]
  refine ⟨hs.step hg ((hs v).own hg ?_ ?_ ?_ ?_ ?_) fun _ _ hrest => .inl ?_, hg, ?_⟩
  · rw [hhalf]
  · rw [hhalf]
  · rw [hhalf]
  · intro hrest hd
    rw [hends]
    exact (hkeeps hrest).drained hd
  · rw [hring, hown]
  · rw [hhalf'] at hrest
    cases answer with
    | true =>
      refine .of_signal (hs v.other) hback ?_
      rw [Side.other_other, hhalf]
    | false =>
      obtain ⟨harmed, hwaiting⟩ := hanswer rfl
      rcases (hs v.other).alert hrest with h | h | h
      · exact h.other hback
      · exact absurd (harmed.symm.trans h) (by simp)
      · exact absurd (hwaiting.symm.trans h) (by simp)
  · unfold Idle
    rw [hhalf]

/-- A signalling call ends without having published. -/
theorem unsignalled_step (hs : Inv mask s) (hsettled : Settled mask v.other s) {r : Ring w V}
    (q : Quiet s.ring r) {x : End w v} (answer : Option Bool)
    (hkeeps : (s.half v).resting = true → Keeps (V := V) mask v (ends s v) x) :
    let s' := (setEnds { s with ring := r } v x).signalled v answer
    Inv mask s' ∧ Guar mask v s s' ∧ Idle v s' := by
  intro s'
  have hhalf : s'.half v = { s.half v with
      signalling := false, signals := (s.half v).signals ++ answer.toList } := by
    simp [s', Hinted.signalled]
  have hhalf' : s'.half v.other = s.half v.other := by simp [s', Hinted.signalled]
  have hends : ends s' v = x := by simp [s', Hinted.signalled]
  have hring : s'.ring = r := by simp [s', Hinted.signalled]
  have hg : Guar mask v s s' := by
    refine q.guar ?_ ?_ fun h hrest => ?_
    · simp
    · simp
    · rw [half_setHalf_self] at hrest
      refine (h (by simpa using hrest)).imp (fun h => ?_) fun h => ?_
      · simpa [Excused] using h
      · rw [ends_setHalf, ends_setEnds_self, ring_setHalf, ring_setEnds]
        exact ((hkeeps (by simpa using hrest)).stuck _ h).congr (q.word _)
  have hback : Guar mask v.other.other s s' := by rwa [Side.other_other]
  refine ⟨hs.step hg ((hs v).own hg ?_ ?_ ?_ ?_ ?_) fun _ h => ?_, hg, ?_⟩
  · rw [hhalf]
  · rw [hhalf]
  · rw [hhalf]
  · intro hrest hd
    rw [hends]
    exact (hkeeps hrest).drained hd
  · rw [hring, q.waiter]
  · refine hsettled.other (hs v.other) hback ?_
    rwa [Side.other_other]
  · unfold Idle
    rw [hhalf]

end Fanring.Yring.Hint
