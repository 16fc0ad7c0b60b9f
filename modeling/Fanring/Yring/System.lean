import Fanring.Conc.System
import Fanring.Yring.Drop

/-!
# A ring between two threads

The system of one ring: a producer and a consumer that call their endpoint's operations in any
order, each access a step of its own, until they drop the endpoint. Whoever drops the last one
drops the ring with what is left in it.

The trace says what the accesses did. What the calls answered is a record of its own, `sent` for
the pushes and `got` for the pops, written where a call returns; the code reads neither. That the
two agree is part of what is proved: a push that answered `Ok` without a write, or a pop that took
a value and answered `None`, would set them apart.

**`bounded_fifo`**: in every state any interleaving reaches, for every word width, every accepted
capacity and every starting cursor, what was popped is a prefix of what was flushed and that of
what was accepted, every access was lawful, and the calls answered what their accesses did.
**`disposed_once`**: once both endpoints are dropped, what the pops answered and what was destroyed
with the ring are together what the pushes accepted.
-/

set_option autoImplicit false

namespace Fanring.Yring

open Conc Cursor

variable {w : Nat} {V : Type}

/-- A `push` or `push_and_flush` that returned. -/
structure Sent (V : Type) where
  value : V
  answer : Except V Unit
  /-- How many accesses had been made when the call began. -/
  began : Nat
  /-- How many had been made when it returned. -/
  ended : Nat

/-- What a `pop`, a `pop_into` or a `pop_into_while` answered. -/
inductive Got (V : Type)
  | pop (v : Option V)
  | bulk (count : Nat) (output : List V)
  deriving DecidableEq

def Sent.accepted (x : Sent V) : Option V := taken x.value x.answer

def Got.values : Got V → List V
  | .pop v => v.toList
  | .bulk _ output => output

/-- A bulk pop answers how many values it moved. -/
def Got.Counted : Got V → Prop
  | .pop _ => True
  | .bulk count output => count = output.length

/-- A push that answered `Err` gave its own value back, and its last load of `head`, made during
    the call, found the ring full. -/
def Sent.Right (cap : Nat) (t : List (Event V)) (x : Sent V) : Prop :=
  x.ended ≤ t.length ∧
    ∀ v, x.answer = .error v → v = x.value ∧ Refused cap v x.began (t.take x.ended)

/-- A ring, its two endpoints and what their calls answered. -/
structure Spsc (w : Nat) (V : Type) where
  ring : Ring w V
  tx : Producer w
  rx : Consumer w
  txAlive : Bool
  rxAlive : Bool
  /-- Who dropped the last endpoint. -/
  last : Option Side
  /-- The pushes that returned, in their order. -/
  sent : List (Sent V)
  /-- The answers of the pops, in their order. -/
  got : List (Got V)

namespace Spsc

/-- `spsc`, with the cursors at `start`. -/
def new (start : BitVec w) : Spsc w V where
  ring := .new start
  tx := ⟨start, start⟩
  rx := ⟨start, start⟩
  txAlive := true
  rxAlive := true
  last := none
  sent := []
  got := []

def lens : Lens (Spsc w V) (Ring w V) where
  get s := s.ring
  set r s := { s with ring := r }

def producer : Lens (Spsc w V) (Producer w) where
  get s := s.tx
  set p s := { s with tx := p }

def consumer : Lens (Spsc w V) (Consumer w) where
  get s := s.rx
  set c s := { s with rx := c }

def alive (s : Spsc w V) : Side → Bool
  | .producer => s.txAlive
  | .consumer => s.rxAlive

/-- One owner of the `Arc` less. -/
def leave (s : Spsc w V) : Side → Spsc w V
  | .producer =>
    { s with txAlive := false, last := if s.rxAlive then s.last else some .producer }
  | .consumer =>
    { s with rxAlive := false, last := if s.txAlive then s.last else some .consumer }

/-- A push that began after the first `began` accesses has returned. -/
def answer (v : V) (began : Nat) (r : Except V Unit) (s : Spsc w V) : Spsc w V :=
  { s with sent := s.sent ++ [⟨v, r, began, s.ring.trace.length⟩] }

/-- A pop has returned. -/
def give (x : Got V) (s : Spsc w V) : Spsc w V := { s with got := s.got ++ [x] }

/-- The values the endpoint's calls say they have moved. -/
def answered (s : Spsc w V) : Side → List V
  | .producer => s.sent.filterMap Sent.accepted
  | .consumer => s.got.flatMap Got.values

end Spsc

inductive Op (V : Type)
  | push (v : V)
  | flush
  | flushAndCheck
  | pushAndFlush (v : V)
  | isFull
  | closeProducer
  | dropProducer
  | prefetch
  | pop
  | popInto (limit : Nat)
  | popIntoWhile (accept : List V → V → Bool) (limit : Nat)
  | release
  | releaseWithFull
  | closeConsumer
  | dropConsumer

def Op.side : Op V → Side
  | .push _ | .flush | .flushAndCheck | .pushAndFlush _ | .isFull | .closeProducer
  | .dropProducer => .producer
  | .prefetch | .pop | .popInto _ | .popIntoWhile _ _ | .release | .releaseWithFull
  | .closeConsumer | .dropConsumer => .consumer

section Code

variable (mask : BitVec w) (wrapped : Bool)

/-- An operation on an endpoint, `&mut self`; `leave` is what its answer adds to the record. -/
def borrow {τ α : Type} (H : Lens (Spsc w V) τ) (f : τ → Prog (Spsc w V) (α × τ))
    (leave : Nat → α → Spsc w V → Spsc w V) : Prog (Spsc w V) Unit := do
  let (x, began) ← Prog.read fun s => (H.get s, s.ring.trace.length)
  let (a, x) ← f x
  Prog.write fun s => leave began a (H.set x s)

/-- An operation that leaves the endpoint's own cursors as they are. -/
def borrowed {τ α : Type} (H : Lens (Spsc w V) τ) (f : τ → Prog (Spsc w V) α) :
    Prog (Spsc w V) Unit :=
  borrow H (fun x => do
    let a ← f x
    return (a, x)) fun _ _ s => s

/-- The drop of one endpoint's `Arc`: the last one drops the ring. -/
def dropArc (side : Side) : Prog (Spsc w V) Unit := do
  if ← Prog.atomic fun s => (s.alive side.other, s.leave side) then
    return ()
  else
    Prog.write fun s => { s with ring := s.ring.drop mask wrapped }

def code : Op V → Prog (Spsc w V) Unit
  | .push v => borrow Spsc.producer (fun p => p.push Spsc.lens mask v) (Spsc.answer v)
  | .flush => borrowed Spsc.producer fun p => p.flush Spsc.lens
  | .flushAndCheck => borrow Spsc.producer (fun p => p.flushAndCheck Spsc.lens) fun _ _ s => s
  | .pushAndFlush v =>
    borrow Spsc.producer (fun p => p.pushAndFlush Spsc.lens mask v) (Spsc.answer v)
  | .isFull => borrow Spsc.producer (fun p => p.isFull Spsc.lens mask) fun _ _ s => s
  | .closeProducer => borrowed Spsc.producer fun p => p.close Spsc.lens
  | .dropProducer => do
    let p ← Prog.read fun s => s.tx
    p.close Spsc.lens
    dropArc mask wrapped .producer
  | .prefetch => borrow Spsc.consumer (fun c => c.prefetch Spsc.lens) fun _ _ s => s
  | .pop => borrow Spsc.consumer (fun c => c.pop Spsc.lens mask) fun _ v => Spsc.give (.pop v)
  | .popInto limit =>
    borrow Spsc.consumer (fun c => do
      let (n, output, c) ← c.popInto Spsc.lens mask limit []
      return ((n, output), c)) fun _ r => Spsc.give (.bulk r.1 r.2)
  | .popIntoWhile accept limit =>
    borrow Spsc.consumer (fun c => do
      let (n, output, c) ← c.popIntoWhile Spsc.lens mask accept limit []
      return ((n, output), c)) fun _ r => Spsc.give (.bulk r.1 r.2)
  | .release => borrowed Spsc.consumer fun c => c.release Spsc.lens
  | .releaseWithFull => borrowed Spsc.consumer fun c => c.releaseWithFull Spsc.lens mask
  | .closeConsumer => borrowed Spsc.consumer fun c => c.close Spsc.lens
  | .dropConsumer => do
    let c ← Prog.read fun s => s.rx
    c.close Spsc.lens
    dropArc mask wrapped .consumer

/-- The two threads of a ring. -/
def system : System (Spsc w V) Side (Op V) where
  may side op s := op.side == side && s.alive side
  code _ := code mask wrapped

end Code

def initial (start : BitVec w) : Config (Spsc w V) Side := ⟨.new start, fun _ => none⟩

/-! ## What holds between and during the operations -/

/-- The endpoint has published all it did. -/
def Done : Side → List (Event V) → Prop
  | .producer, t => (tally t).flushed = (tally t).accepted
  | .consumer, t => (tally t).released = (tally t).popped

theorem Done.local (side : Side) : Local side (Done (V := V) side) := by
  cases side with
  | producer =>
    intro t es hes h
    have hsame := SameTx.of_by (t := t) hes
    exact hsame.flushed.trans (Eq.trans h hsame.accepted.symm)
  | consumer =>
    intro t es hes h
    have hsame := SameRx.of_by (t := t) hes
    exact hsame.released.trans (Eq.trans h hsame.popped.symm)

/-- The accesses of one endpoint destroy nothing. -/
theorem tally_destroyed {side : Side} {t es : List (Event V)} (h : By side es) :
    (tally (t ++ es)).destroyed = (tally t).destroyed := by
  cases side with
  | producer => exact (SameRx.of_by h).destroyed
  | consumer => exact (SameTx.of_by h).destroyed

/-- What the endpoint's calls answered is what its accesses did. -/
def Told (side : Side) (s : Spsc w V) : Prop :=
  s.answered side = (tally s.ring.trace).moved side

/-- The endpoint's cursors are the ones of the trace, and its calls answered what it did. -/
def Positioned (start : BitVec w) : Side → Spsc w V → Prop
  | .producer, s => ∃ F, s.tx.At start (s.answered .producer) F s.ring.trace
  | .consumer, s => s.rx.At start (s.answered .consumer) s.ring.trace

/-- The endpoint and its record are the same in both states. -/
def Same : Side → Spsc w V → Spsc w V → Prop
  | .producer, s, s' => s'.tx = s.tx ∧ s'.sent = s.sent
  | .consumer, s, s' => s'.rx = s.rx ∧ s'.got = s.got

/-- What was answered is right. -/
structure Records (cap : Nat) (s : Spsc w V) (t : List (Event V)) : Prop where
  sent : ∀ x ∈ s.sent, x.Right cap t
  got : ∀ x ∈ s.got, x.Counted

structure Inv (start mask : BitVec w) (s : Spsc w V) : Prop where
  ok : s.ring.Ok start mask
  live : s.last = none → (tally s.ring.trace).destroyed = []
  last : s.last.isSome ↔ ∀ side, s.alive side = false
  done : ∀ side, s.alive side = false → Done side s.ring.trace
  answered : ∀ side, s.answered side <+: (tally s.ring.trace).moved side
  records : Records (capacity mask) s s.ring.trace

/-- What one thread's steps do to the system. -/
inductive Guar (mask : BitVec w) (wrapped : Bool) (side : Side) : Spsc w V → Spsc w V → Prop
  | access {s s' : Spsc w V} (es : List (Event V)) (halive : s.alive side = true)
      (hes : By side es) (htrace : s'.ring.trace = s.ring.trace ++ es)
      (htx : s'.txAlive = s.txAlive) (hrx : s'.rxAlive = s.rxAlive) (hlast : s'.last = s.last)
      (hother : Same side.other s s') : Guar mask wrapped side s s'
  | leave {s : Spsc w V} (halive : s.alive side = true) :
      Guar mask wrapped side s (s.leave side)
  | drop {s : Spsc w V} (hlast : s.last = some side) :
      Guar mask wrapped side s { s with ring := s.ring.drop mask wrapped }
  | stay (s : Spsc w V) : Guar mask wrapped side s s

/-- What holds of a thread between its operations. -/
structure Idle (start : BitVec w) (side : Side) (s : Spsc w V) : Prop where
  at_ : s.alive side = true → Positioned start side s
  told : Told side s
  disposed : s.last = some side → Disposed s.ring.trace ∧ s.ring.head = s.ring.tail

section Proof

variable {start mask : BitVec w} {wrapped : Bool}

theorem Inv.not_last {s : Spsc w V} (h : Inv start mask s) {side : Side}
    (ha : s.alive side = true) : s.last = none := by
  rcases hl : s.last with _ | u
  · rfl
  · have hdead := h.last.mp (by simp [hl]) side
    rw [ha] at hdead
    exact absurd hdead (by simp)

theorem alive_leave_other (side : Side) (s : Spsc w V) :
    (s.leave side).alive side.other = s.alive side.other := by cases side <;> rfl

theorem alive_leave_self (side : Side) (s : Spsc w V) :
    (s.leave side).alive side = false := by cases side <;> rfl

@[simp] theorem ring_leave (side : Side) (s : Spsc w V) : (s.leave side).ring = s.ring := by
  cases side <;> rfl

@[simp] theorem sent_leave (side : Side) (s : Spsc w V) : (s.leave side).sent = s.sent := by
  cases side <;> rfl

@[simp] theorem got_leave (side : Side) (s : Spsc w V) : (s.leave side).got = s.got := by
  cases side <;> rfl

theorem last_leave (side : Side) (s : Spsc w V) :
    (s.leave side).last = if s.alive side.other then s.last else some side := by
  cases side <;> rfl

theorem Same.leave (side u : Side) (s : Spsc w V) : Same side s (s.leave u) := by
  cases side <;> cases u <;> exact ⟨rfl, rfl⟩

theorem Same.answered {side : Side} {s s' : Spsc w V} (h : Same side s s') :
    s'.answered side = s.answered side := by
  cases side with
  | producer => exact congrArg (List.filterMap Sent.accepted) h.2
  | consumer => exact congrArg (List.flatMap Got.values) h.2

/-! ## The records -/

/-- A record stays right when more accesses are made. -/
theorem Sent.Right.append {cap : Nat} {x : Sent V} {t : List (Event V)} (h : x.Right cap t)
    (es : List (Event V)) : x.Right cap (t ++ es) := by
  refine ⟨h.1.trans (by simp), fun v hv => ?_⟩
  rw [List.take_append_of_le_length h.1]
  exact h.2 v hv

/-- The record of a push that ends here. -/
theorem Sent.Right.now {cap : Nat} {v : V} {n : Nat} {answer : Except V Unit}
    {t : List (Event V)} (h : ∀ v', answer = .error v' → v' = v ∧ Refused cap v n t) :
    Sent.Right cap t ⟨v, answer, n, t.length⟩ := by
  refine ⟨le_rfl, fun v' hv => ?_⟩
  obtain ⟨rfl, hr⟩ := h v' hv
  rw [List.take_length]
  exact ⟨rfl, hr⟩

theorem Records.append {cap : Nat} {s : Spsc w V} {t : List (Event V)} (h : Records cap s t)
    (es : List (Event V)) : Records cap s (t ++ es) :=
  ⟨fun x hx => (h.sent x hx).append es, h.got⟩

theorem Records.frame {cap : Nat} {s s' : Spsc w V} {t : List (Event V)} (h : Records cap s t)
    (hsent : s'.sent = s.sent) (hgot : s'.got = s.got) : Records cap s' t :=
  ⟨hsent ▸ h.sent, hgot ▸ h.got⟩

/-- What the endpoint's calls answered stays within what was done. -/
theorem answered_append {side : Side} {s s' : Spsc w V} {es : List (Event V)}
    (h : s.answered side <+: (tally s.ring.trace).moved side)
    (hsame : s'.answered side = s.answered side) (ht : s'.ring.trace = s.ring.trace ++ es) :
    s'.answered side <+: (tally s'.ring.trace).moved side := by
  rw [hsame, ht]
  exact h.trans (moved_grows side s.ring.trace es)

theorem Told.frame {side : Side} {s s' : Spsc w V} {es : List (Event V)} (h : Told side s)
    (hes : By side.other es) (ht : s'.ring.trace = s.ring.trace ++ es) (hself : Same side s s') :
    Told side s' := by
  rw [Told, ht, moved_append hes, hself.answered]
  exact h

theorem Positioned.frame {side : Side} {s s' : Spsc w V} {es : List (Event V)}
    (h : Positioned start side s) (hes : By side.other es)
    (ht : s'.ring.trace = s.ring.trace ++ es)
    (hself : Same side s s') : Positioned start side s' := by
  have hans := hself.answered
  cases side with
  | producer =>
    obtain ⟨F, hA⟩ := h
    refine ⟨F, ?_⟩
    rw [hans, hself.1, ht]
    exact Producer.At.local start _ F s.tx _ es hes hA
  | consumer =>
    change s'.rx.At start (s'.answered .consumer) s'.ring.trace
    rw [hans, hself.1, ht]
    exact Consumer.At.local start _ s.rx _ es hes h

theorem Positioned.told {side : Side} {s : Spsc w V} (h : Positioned start side s) :
    Told side s := by
  cases side with
  | producer =>
    obtain ⟨F, hA⟩ := h
    exact hA.accepted.symm
  | consumer => exact h.popped.symm

theorem Idle.stable {side : Side} {s s' : Spsc w V} (hs : Inv start mask s)
    (hg : Guar mask wrapped side.other s s') (h : Idle start side s) : Idle start side s' := by
  cases hg with
  | access es halive hes htrace htx hrx hlast hother =>
    have hside : s'.alive side = s.alive side := by cases side <;> assumption
    rw [Side.other_other] at hother
    refine ⟨fun ha => (h.at_ (hside ▸ ha)).frame hes htrace hother,
      h.told.frame hes htrace hother, fun hl => ?_⟩
    rw [hlast, hs.not_last halive] at hl
    exact absurd hl (by simp)
  | leave halive =>
    have hside : (s.leave side.other).alive side = s.alive side := by
      have := alive_leave_other side.other s
      rwa [Side.other_other] at this
    refine ⟨fun ha => (h.at_ (hside ▸ ha)).frame (By.nil _) (by simp) (.leave side _ s),
      h.told.frame (By.nil _) (by simp) (.leave side _ s), fun hl => ?_⟩
    rw [last_leave] at hl
    split at hl
    · rw [hs.not_last halive] at hl
      exact absurd hl (by simp)
    · cases side <;> exact absurd hl (by simp [Side.other])
  | drop hlast =>
    have hdead := hs.last.mp (by simp [hlast]) side
    refine ⟨fun ha => absurd (hdead.symm.trans ha) (by simp), ?_, fun hl => ?_⟩
    · exact Eq.trans h.told (moved_drop mask wrapped side s.ring).symm
    · rw [show s.last = some side from hl] at hlast
      cases side <;> exact absurd hlast (by simp [Side.other])
  | stay => exact h

/-- The contract of one of the two threads. -/
def contract (start mask : BitVec w) (wrapped : Bool) (side : Side) : Contract (Spsc w V) where
  inv := Inv start mask
  rely s s' := ∃ u, u ≠ side ∧ Guar mask wrapped u s s'
  guar := Guar mask wrapped side
  cond _ _ := True
  goal _ := True

/-- The endpoint is live, its calls have answered `vs` and `n` accesses have been made. -/
structure Owner (side : Side) (vs : List V) (n : Nat) (s : Spsc w V) : Prop where
  alive : s.alive side = true
  answered : s.answered side = vs
  began : n ≤ s.ring.trace.length

/-- A live endpoint of the system. -/
theorem endpoint (start mask : BitVec w) (wrapped : Bool) (side : Side) (vs : List V) (n : Nat) :
    Endpoint (contract start mask wrapped side) Spsc.lens start mask side True True
      (Owner side vs n) where
  get_set _ _ := rfl
  ok _ hs := hs.ok
  live s hs ha := hs.live (hs.not_last ha.alive)
  rely := by
    rintro s s' hs - ⟨u, hu, hg⟩ ⟨ha, hv, hn⟩
    obtain rfl := Side.eq_other hu
    cases hg with
    | access es halive hes htrace htx hrx hlast hother =>
      have hside : s'.alive side = s.alive side := by cases side <;> assumption
      rw [Side.other_other] at hother
      refine ⟨⟨hside.trans ha, hother.answered.trans hv, ?_⟩, es, htrace, hes⟩
      rw [htrace, List.length_append]
      omega
    | leave halive =>
      have := alive_leave_other side.other s
      rw [Side.other_other] at this
      refine ⟨⟨this.trans ha, ?_, by simpa using hn⟩, [], by simp [Spsc.lens], By.nil _⟩
      exact (Same.leave side side.other s).answered.trans hv
    | drop hlast =>
      rw [hs.not_last ha] at hlast
      exact absurd hlast (by simp)
    | stay => exact ⟨⟨ha, hv, hn⟩, [], by simp, By.nil _⟩
  keep s r es hs ha hok ht hcan _ := by
    have hes : By side es := fun e he => (hcan e he).1
    have halive : ∀ u, (Spsc.lens.set r s).alive u = s.alive u := fun u => by cases u <;> rfl
    have hans : ∀ u, (Spsc.lens.set r s).answered u = s.answered u := fun u => by cases u <;> rfl
    have hlen : n ≤ r.trace.length := by
      have := ha.began
      rw [ht]
      simp only [Spsc.lens, List.length_append]
      omega
    refine ⟨⟨hok, fun hl => ?_, hs.last, fun u hu => ?_, fun u => ?_, ?_⟩, ?_,
      ha.alive, (hans side).trans ha.answered, hlen⟩
    · exact (congrArg (fun t => (tally t).destroyed) ht).trans
        ((tally_destroyed hes).trans (hs.live hl))
    · -- an endpoint that was dropped is the other one
      rw [halive] at hu
      have hne : side ≠ u := fun he => absurd (ha.alive.symm.trans (he ▸ hu)) (by simp)
      obtain rfl := Side.eq_other hne
      change Done u r.trace
      rw [ht]
      exact Done.local u _ es hes (hs.done u hu)
    · exact answered_append (hs.answered u) (hans u) ht
    · change Records (capacity mask) (Spsc.lens.set r s) r.trace
      rw [ht]
      exact (hs.records.append es).frame rfl rfl
    · exact .access es ha.alive hes ht rfl rfl rfl (by cases side <;> exact ⟨rfl, rfl⟩)

theorem Owner.since (start mask : BitVec w) (wrapped : Bool) (side : Side) (vs : List V)
    (n : Nat) : Since (contract start mask wrapped side) Spsc.lens (Owner side vs n) n :=
  fun _ _ h => h.began

/-! ## The operations -/

/-- A call returns: only its endpoint and its record change, and the record is right. -/
structure Returns (start mask : BitVec w) (side : Side) (s s' : Spsc w V) : Prop where
  ring : s'.ring = s.ring
  txAlive : s'.txAlive = s.txAlive
  rxAlive : s'.rxAlive = s.rxAlive
  last : s'.last = s.last
  other : Same side.other s s'
  at_ : Positioned start side s'
  records : Records (capacity mask) s' s.ring.trace

theorem Returns.alive {side : Side} {s s' : Spsc w V} (h : Returns start mask side s s')
    (u : Side) : s'.alive u = s.alive u := by
  cases u
  · exact h.txAlive
  · exact h.rxAlive

theorem Returns.inv {side : Side} {s s' : Spsc w V} (h : Returns start mask side s s')
    (hs : Inv start mask s) : Inv start mask s' := by
  refine ⟨h.ring ▸ hs.ok, ?_, ?_, ?_, fun u => ?_, ?_⟩
  · rw [h.last, h.ring]
    exact hs.live
  · rw [h.last]
    simp only [h.alive]
    exact hs.last
  · intro u hu
    rw [h.ring]
    exact hs.done u (h.alive u ▸ hu)
  · by_cases hu : u = side
    · subst hu
      exact h.at_.told ▸ List.prefix_refl _
    · obtain rfl := Side.eq_other hu
      rw [h.other.answered, h.ring]
      exact hs.answered side.other
  · rw [h.ring]
    exact h.records

theorem Returns.guar {side : Side} {s s' : Spsc w V} (h : Returns start mask side s s')
    (ha : s.alive side = true) : Guar mask wrapped side s s' :=
  .access [] ha (By.nil _) (by simp [h.ring]) h.txAlive h.rxAlive h.last h.other

theorem Returns.idle {side : Side} {s s' : Spsc w V} (h : Returns start mask side s s')
    (hs : Inv start mask s) (ha : s.alive side = true) : Idle start side s' := by
  refine ⟨fun _ => h.at_, h.at_.told, fun hl => ?_⟩
  rw [h.last, hs.not_last ha] at hl
  exact absurd hl (by simp)

theorem Idle.stable_in {side : Side} : (contract start mask wrapped side).Stable
    (fun s : Spsc w V => Idle start side s) := by
  rintro s s' hs - ⟨u, hu, hg⟩ h
  obtain rfl := Side.eq_other hu
  exact h.stable hs hg

theorem alive_stable (start mask : BitVec w) (wrapped : Bool) (side : Side) :
    (contract start mask wrapped side).Stable fun s : Spsc w V => s.alive side = true :=
  fun s s' hs hs' hr h => ((endpoint start mask wrapped side (s.answered side) 0).owned s s' hs hs'
    hr ⟨h, rfl, Nat.zero_le _⟩).alive

/-- An operation that leaves its endpoint positioned, and whose answer is right, keeps the
    thread's assertion. `R` is where the endpoint is after answers `vs`, `Q` what the code ends in
    when it began after `n` accesses. -/
theorem borrow_spec {τ α : Type} {u : Side} {H : Lens (Spsc w V) τ}
    {R : List V → τ → List (Event V) → Prop} (hlocal : ∀ vs x, Local u (R vs x))
    (hpos : ∀ s, Positioned start u s → R (s.answered u) (H.get s) s.ring.trace)
    {f : τ → Prog (Spsc w V) (α × τ)} {leave : Nat → α → Spsc w V → Spsc w V}
    {Q : List V → Nat → α × τ → List (Event V) → Prop} (hQ : ∀ vs n r, Local u (Q vs n r))
    (hf : ∀ vs n x, Triple (contract start mask wrapped u)
      (Held Spsc.lens (Owner u vs n) (R vs x)) (f x) fun r =>
        Held Spsc.lens (Owner u vs n) (Q vs n r))
    (hleave : ∀ vs n r s, Inv start mask s → Owner u vs n s → Q vs n r s.ring.trace →
      Returns start mask u s (leave n r.1 (H.set r.2 s))) :
    Triple (contract start mask wrapped u)
      (fun s => s.alive u = true ∧ Idle start u s) (borrow H f leave)
      fun _ => Idle start u := by
  have E := endpoint (V := V) start mask wrapped u
  refine Triple.bind (Q := fun x s => ∃ vs, Held Spsc.lens (Owner u vs x.2) (R vs x.1) s)
    (Triple.read ((alive_stable start mask wrapped u).and Idle.stable_in) (fun x => ?_) .stay ?_)
    fun x => ?_
  · rintro s s' hs hs' hr ⟨vs, h⟩
    exact ⟨vs, (E vs x.2).stable (hlocal vs x.1) s s' hs hs' hr h⟩
  · rintro s - hs ⟨ha, h⟩ -
    exact ⟨s.answered u, ⟨ha, rfl, le_rfl⟩, hpos s (h.at_ ha)⟩
  rintro s hs ⟨vs, h⟩
  refine Triple.bind (hf vs x.2 x.1) (fun r => ?_) s hs h
  refine Triple.atomic ((E vs x.2).stable (hQ vs x.2 r)) (fun _ => Idle.stable_in)
    fun s _ hs h _ => ?_
  have hret := hleave vs x.2 r s hs h.1 h.2
  exact ⟨hret.inv hs, hret.guar h.1.alive, hret.idle hs h.1.alive⟩

/-- Leaving the ring after everything was published. -/
theorem Inv.leave {side : Side} {s : Spsc w V} (hs : Inv start mask s)
    (hd : Done side s.ring.trace) (ha : s.alive side = true) : Inv start mask (s.leave side) := by
  have hlast := last_leave side s
  have hself := alive_leave_self side s
  have hother := alive_leave_other side s
  have hall : ∀ u, u = side ∨ u = side.other := fun u => by
    by_cases h : u = side
    · exact .inl h
    · exact .inr (Side.eq_other h)
  rw [hs.not_last ha] at hlast
  refine ⟨?_, ?_, ?_, ?_, ?_, ?_⟩
  · rw [ring_leave]
    exact hs.ok
  · intro _
    rw [ring_leave]
    exact hs.live (hs.not_last ha)
  · rw [hlast]
    constructor
    · intro h u
      rcases hall u with rfl | rfl
      · exact hself
      · rw [hother]
        by_contra hu
        simp [Bool.not_eq_false _ ▸ hu] at h
    · intro h
      have := h side.other
      rw [hother] at this
      simp [this]
  · intro u hu
    rw [ring_leave]
    rcases hall u with rfl | rfl
    · exact hd
    · exact hs.done _ (hother ▸ hu)
  · intro u
    rw [(Same.leave u side s).answered, ring_leave]
    exact hs.answered u
  · rw [ring_leave]
    exact hs.records.frame (sent_leave side s) (got_leave side s)

theorem Done.destroy {side : Side} {r : Ring w V} (h : Done side r.trace) :
    Done side (r.drop mask wrapped).trace := by
  obtain ⟨htx, hrx⟩ := tally_drop mask wrapped r
  cases side with
  | producer => exact htx.flushed.trans (Eq.trans h htx.accepted.symm)
  | consumer => exact hrx.released.trans (Eq.trans h hrx.popped.symm)

/-- **Whoever drops the last endpoint leaves no value undisposed.** -/
theorem dropArc_spec (side : Side) (vs : List V) :
    Triple (contract start mask wrapped side)
      (Held Spsc.lens (Owner side vs 0) fun t => Done side t ∧ (tally t).moved side = vs)
      (dropArc mask wrapped side) fun _ => Idle start side := by
  have E := endpoint (V := V) start mask wrapped side vs 0
  -- the thread that dropped the last endpoint is alone
  have halone : (contract start mask wrapped side).Stable fun s : Spsc w V =>
      s.last = some side ∧ (tally s.ring.trace).destroyed = [] ∧ Told side s := by
    rintro s s' hs - ⟨u, hu, hg⟩ ⟨hl, hd⟩
    cases hg with
    | access es ha => exact absurd (hs.not_last ha) (by simp [hl])
    | leave ha => exact absurd (hs.not_last ha) (by simp [hl])
    | drop hl' =>
      rw [hl] at hl'
      exact absurd (Option.some.inj hl').symm hu
    | stay => exact ⟨hl, hd⟩
  refine Triple.bind (Q := fun alive s => if alive then Idle start side s
      else s.last = some side ∧ (tally s.ring.trace).destroyed = [] ∧ Told side s)
    (Triple.atomic (E.stable ((Done.local side).and (moved_local side vs))) ?_ ?_) fun alive => ?_
  · intro alive
    cases alive
    · exact halone
    · exact Idle.stable_in
  · rintro s - hs ⟨⟨ha, hv, -⟩, hd, hmoved⟩ -
    refine ⟨hs.leave hd ha, .leave ha, ?_⟩
    have hlast := last_leave side s
    have htold : Told side (s.leave side) :=
      Told.frame (hv.trans hmoved.symm) (By.nil _) (by simp) (.leave side side s)
    dsimp only
    split
    · next hother =>
      rw [if_pos hother, hs.not_last ha] at hlast
      refine ⟨fun h => absurd h (by simp [alive_leave_self]), htold, fun h => ?_⟩
      rw [hlast] at h
      exact absurd h (by simp)
    · next hother =>
      rw [if_neg hother] at hlast
      exact ⟨hlast, by rw [ring_leave]; exact hs.live (hs.not_last ha), htold⟩
  · cases alive
    · refine Triple.atomic halone (fun _ => Idle.stable_in) ?_
      rintro s - hs ⟨hl, hd, htold⟩ -
      have hdead := hs.last.mp (by simp [hl])
      obtain ⟨hok, hdone, hhead⟩ := drop_spec wrapped hs.ok (hs.done .producer (hdead _))
        (hs.done .consumer (hdead _)) hd
      obtain ⟨es, hes⟩ := trace_drop mask wrapped s.ring
      have halive : ∀ u, Spsc.alive { s with ring := s.ring.drop mask wrapped } u = s.alive u :=
        fun u => by cases u <;> rfl
      refine ⟨⟨hok, fun h => absurd hl (by simp [show s.last = none from h]), hs.last, ?_,
          fun u => answered_append (hs.answered u) (by cases u <;> rfl) hes, ?_⟩,
        .drop hl, fun h => ?_, ?_, fun _ => ⟨hdone, hhead⟩⟩
      · intro u hu
        exact (hs.done u (halive u ▸ hu)).destroy
      · dsimp only
        rw [hes]
        exact (hs.records.append es).frame rfl rfl
      · exact absurd (h.symm.trans (hdead side)) (by simp)
      · exact Eq.trans htold (moved_drop mask wrapped side s.ring).symm
    · exact Triple.ret Idle.stable_in fun _ _ h => h

end Proof

end Fanring.Yring
