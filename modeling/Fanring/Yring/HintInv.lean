import Fanring.Yring.Hint

/-!
# Why no hint is lost

For each of the two waiters of a ring there is an endpoint that checks and registers, `v`, and one
that publishes and takes the registration, `v.other`. The argument is the same both ways, so it is
made once, over the side.

A check that found nothing leaves one of three things true (`Settled`, `Waits.alert`): the other
endpoint has since signalled, or published without a hint (`Excused`); or the published cursor is
still the one the check saw (`Stuck`), and then either the registration stands or hints were never
acknowledged, so that whoever publishes next answers wake. A publication with a hint breaks
`Stuck` between its store and its take, which is why `data_hints_suffice` and
`space_hints_suffice` speak of states in which no such call is under way.
-/

set_option autoImplicit false

namespace Fanring.Yring.Hint

open Conc

variable {w : Nat} {V : Type}

/-- The cursor an endpoint publishes. -/
def word : Side → Ring w V → BitVec w
  | .producer, r => r.tail
  | .consumer, r => r.head

/-- An endpoint's own cursors. -/
def End (w : Nat) : Side → Type
  | .producer => Producer w
  | .consumer => Consumer w

def ends (s : Hinted w V) : (v : Side) → End w v
  | .producer => s.tx
  | .consumer => s.rx

def setEnds (s : Hinted w V) : (v : Side) → End w v → Hinted w V
  | .producer, p => { s with tx := p }
  | .consumer, c => { s with rx := c }

/-- The published cursor gives the endpoint nothing to do. -/
def Stuck (mask : BitVec w) : (v : Side) → End w v → Ring w V → Prop
  | .producer, p, r => capacity mask ≤ distance (Producer.cursor p) r.head
  | .consumer, c, r => r.tail = Consumer.head c

/-- The consumer has used up its window. -/
def Drained : (v : Side) → End w v → Prop
  | .producer, _ => True
  | .consumer, c => Consumer.head c = Consumer.cachedTail c

/-- Since the endpoint's last check started, the other has signalled it or has published without a
    hint. -/
def Excused (v : Side) (s : Hinted w V) : Prop :=
  (s.half v).seenPlain < (s.half v.other).plain ∨
    true ∈ (s.half v.other).signals.drop (s.half v).seenSignals

/-- A check that found nothing would find nothing still, or was answered. -/
def Settled (mask : BitVec w) (v : Side) (s : Hinted w V) : Prop :=
  (s.half v).resting = true → Excused v s ∨ Stuck mask v (ends s v) s.ring

/-- What holds of one endpoint and its waiter. -/
structure Waits (mask : BitVec w) (v : Side) (s : Hinted w V) : Prop where
  armed : (s.ring.waiter v).armed = true → (s.ring.waiter v).enabled = true
  signals : (s.half v).seenSignals ≤ (s.half v.other).signals.length
  plain : (s.half v).seenPlain ≤ (s.half v.other).plain
  drained : (s.half v).resting = true → Drained v (ends s v)
  alert : (s.half v).resting = true →
    Excused v s ∨ (s.ring.waiter v).armed = false ∨ (s.ring.waiter v).waiting = true
  settled : (s.half v.other).signalling = false → Settled mask v s

def Inv (mask : BitVec w) (s : Hinted w V) : Prop := ∀ v, Waits mask v s

/-- What a step of the endpoint's thread does. -/
structure Guar (mask : BitVec w) (v : Side) (s s' : Hinted w V) : Prop where
  half : s'.half v.other = s.half v.other
  ends : ends s' v.other = ends s v.other
  word_other : word v.other s'.ring = word v.other s.ring
  enabled_other : (s.ring.waiter v.other).enabled = true →
    (s'.ring.waiter v.other).enabled = true
  armed_other : (s'.ring.waiter v.other).armed = (s.ring.waiter v.other).armed
  /-- Only a call that answers wake takes a registration. -/
  waiting_other : (s.ring.waiter v.other).waiting = true →
    (s'.ring.waiter v.other).waiting = true ∨
      (s'.half v).signals = (s.half v).signals ++ [true]
  enabled_own : (s'.ring.waiter v).enabled = (s.ring.waiter v).enabled
  armed_own : (s.ring.waiter v).armed = true → (s'.ring.waiter v).armed = true
  waiting_own : (s.ring.waiter v).waiting = true → (s'.ring.waiter v).waiting = true
  signals : (s.half v).signals <+: (s'.half v).signals
  plain : (s.half v).plain ≤ (s'.half v).plain
  /-- A publication with a hint is made with the hints switched on. -/
  word_own : word v s'.ring = word v s.ring ∨ (s.half v).plain < (s'.half v).plain ∨
    (s.ring.waiter v.other).enabled = true ∧ (s'.half v).signalling = true
  settled : Settled mask v s → Settled mask v s'

theorem Guar.refl (mask : BitVec w) (v : Side) (s : Hinted w V) : Guar mask v s s where
  half := rfl
  ends := rfl
  word_other := rfl
  enabled_other h := h
  armed_other := rfl
  waiting_other h := .inl h
  enabled_own := rfl
  armed_own h := h
  waiting_own h := h
  signals := List.prefix_rfl
  plain := le_rfl
  word_own := .inl rfl
  settled h := h

variable {mask : BitVec w}

theorem Waits.initial (start : BitVec w) (v : Side) :
    Waits mask v (Hinted.new start : Hinted w V) := by
  cases v <;> exact ⟨nofun, le_rfl, le_rfl, nofun, nofun, fun _ => nofun⟩

/-! ## What the other thread's steps leave -/

theorem mem_drop_of_prefix {l l' : List Bool} {n : Nat} (h : true ∈ l.drop n) (hl : l <+: l') :
    true ∈ l'.drop n := by
  obtain ⟨t, rfl⟩ := hl
  rw [List.drop_append]
  exact List.mem_append_left _ h

theorem Excused.other {v : Side} {s s' : Hinted w V} (hg : Guar mask v.other s s')
    (h : Excused v s) : Excused v s' := by
  have hhalf := hg.half
  rw [Side.other_other] at hhalf
  unfold Excused
  rw [hhalf]
  exact h.imp (fun h => h.trans_le hg.plain) fun h => mem_drop_of_prefix h hg.signals

/-- The other's publication or its taking of a registration excuse the endpoint. -/
theorem Excused.of_signal {v : Side} {s s' : Hinted w V} (hs : Waits mask v s)
    (hg : Guar mask v.other s s')
    (h : (s'.half v.other).signals = (s.half v.other).signals ++ [true]) : Excused v s' := by
  have hhalf := hg.half
  rw [Side.other_other] at hhalf
  refine .inr ?_
  rw [hhalf, h, List.drop_append_of_le_length hs.signals]
  simp

theorem Excused.of_plain {v : Side} {s s' : Hinted w V} (hs : Waits mask v s)
    (hg : Guar mask v.other s s') (h : (s.half v.other).plain < (s'.half v.other).plain) :
    Excused v s' := by
  have hhalf := hg.half
  rw [Side.other_other] at hhalf
  refine .inl ?_
  rw [hhalf]
  exact hs.plain.trans_lt h

theorem Stuck.congr {v : Side} {x : End w v} {r r' : Ring w V}
    (hw : word v.other r' = word v.other r) (h : Stuck mask v x r) : Stuck mask v x r' := by
  cases v with
  | producer => simpa only [Stuck, show r'.head = r.head from hw] using h
  | consumer => exact Eq.trans (show r'.tail = r.tail from hw) h

/-- As long as the other has not published, the endpoint is as settled as it was. -/
theorem Settled.other {v : Side} {s s' : Hinted w V} (hs : Waits mask v s)
    (hg : Guar mask v.other s s') (hsig : (s'.half v.other).signalling = false)
    (h : Settled mask v s) : Settled mask v s' := by
  have hhalf := hg.half
  have hends := hg.ends
  rw [Side.other_other] at hhalf hends
  intro hrest
  rw [hhalf] at hrest
  rcases hg.word_own with hw | hplain | ⟨-, hsig'⟩
  · refine (h hrest).imp (Excused.other hg) fun hstuck => ?_
    rw [hends]
    exact hstuck.congr hw
  · exact .inl (.of_plain hs hg hplain)
  · exact absurd (hsig.symm.trans hsig') (by simp)

/-- **The other thread's step keeps what holds of an endpoint**, if the call it may end has left it
    settled. -/
theorem Waits.other {v : Side} {s s' : Hinted w V} (hs : Waits mask v s)
    (hg : Guar mask v.other s s')
    (hend : (s.half v.other).signalling = true → (s'.half v.other).signalling = false →
      Settled mask v s') : Waits mask v s' := by
  have hhalf := hg.half
  have hends := hg.ends
  have henabled := hg.enabled_other
  have harmed := hg.armed_other
  have hwaiting := hg.waiting_other
  rw [Side.other_other] at hhalf hends henabled harmed hwaiting
  refine ⟨?_, ?_, ?_, ?_, ?_, ?_⟩
  · intro h
    exact henabled (hs.armed (harmed ▸ h))
  · rw [hhalf]
    exact hs.signals.trans hg.signals.length_le
  · rw [hhalf]
    exact hs.plain.trans hg.plain
  · rw [hhalf, hends]
    exact hs.drained
  · rw [hhalf]
    intro hrest
    rcases hs.alert hrest with h | h | h
    · exact .inl (h.other hg)
    · exact .inr (.inl (harmed.trans h))
    · rcases hwaiting h with h | h
      · exact .inr (.inr h)
      · exact .inl (.of_signal hs hg h)
  · intro hsig
    by_cases hbefore : (s.half v.other).signalling = true
    · exact hend hbefore hsig
    · exact (hs.settled (by simpa using hbefore)).other hs hg hsig

end Fanring.Yring.Hint
