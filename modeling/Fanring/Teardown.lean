import Fanring.Conc.System
import Fanring.Yring.ConsumerSpec

/-!
# Coordinated teardown of a lane

`crate::ring` under the `Coordinated` policy. A send brackets its push with the `ACTIVE` bit of
`Cleanup::state`; the receiver's close drains the ring, puts the consumer into the hand-off slot
and sets `CLOSED`, all under the slot's mutex. If no send was active it takes the consumer back and
finishes; otherwise the send does when it ends. Whoever is left with the consumer drains once more,
returns the credit and drops it.

The state carries what the proof and the statements need and the code never reads: the values
received and the values destroyed, who holds the consumer, what the sends answered, whether close
has returned.
-/

set_option autoImplicit false

namespace Fanring.Teardown

open Conc Yring

variable {w : Nat} {V : Type}

/-- Where the consumer is. -/
inductive Owner
  | receiver
  | slot
  | sender
  | nobody
  deriving DecidableEq

/-- A ring, its two endpoints and `Cleanup`. -/
structure Lane (w : Nat) (V : Type) where
  ring : Yring.Ring w V
  tx : Producer w
  /-- `Consumer::inner`. -/
  inner : Option (Consumer w)
  /-- The two bits of `Cleanup::state`. -/
  active : Bool
  closed : Bool
  /-- `Cleanup::consumer`. -/
  slot : Option (Consumer w)
  owner : Owner
  received : List V
  destroyed : List V
  /-- The sends that returned, in their order: each value and the answer. -/
  sent : List (V × Except V Unit)
  closeReturned : Bool

def Lane.new (start : BitVec w) : Lane w V where
  ring := .new start
  tx := ⟨start, start⟩
  inner := some ⟨start, start⟩
  active := false
  closed := false
  slot := none
  owner := .receiver
  received := []
  destroyed := []
  sent := []
  closeReturned := false

/-- The value of a send that answered `Ok`. -/
def accepted (x : V × Except V Unit) : Option V := taken x.1 x.2

def Lane.lens : Lens (Lane w V) (Yring.Ring w V) where
  get s := s.ring
  set r s := { s with ring := r }

section Code

variable (mask : BitVec w)

/-- `Cleanup::begin`. -/
def begin : Prog (Lane w V) Bool :=
  .atomic fun s => if s.active || s.closed then (false, s) else (true, { s with active := true })

/-- One round of `discard`: the next value of the window is popped and dropped. -/
def discardNext (c : Consumer w) : Prog (Lane w V) (Consumer w ⊕ Consumer w) := do
  match ← c.pop Lane.lens mask with
  | (some v, c) =>
    Prog.write fun s => { s with destroyed := s.destroyed ++ [v] }
    return .inl c
  | (none, c) => return .inr c

/-- `discard`. -/
def discard (c : Consumer w) : Prog (Lane w V) (Consumer w) := do
  let (_, c) ← c.prefetch Lane.lens
  Prog.iterate (discardNext mask) c

/-- The final owner's part: what is left is discarded, then the consumer itself is dropped. -/
def dispose (c : Consumer w) : Prog (Lane w V) Unit := do
  let c ← discard mask c
  c.close Lane.lens
  Prog.write fun s => { s with owner := .nobody }

/-- `SendGuard::drop`. -/
def endSend : Prog (Lane w V) Unit := do
  if ← Prog.atomic fun s => (s.closed, { s with active := false }) then
    match ← Prog.atomic fun s => (s.slot, match s.slot with
        | some _ => { s with slot := none, owner := .sender }
        | none => s) with
    | some c => dispose mask c
    | none => return ()
  else
    return ()

/-- `Producer::push_and_flush`. -/
def pushAndFlush (v : V) (p : Producer w) : Prog (Lane w V) (Except V Unit × Producer w) := do
  if ← begin then
    match ← p.push Lane.lens mask v with
    | (.ok _, p) =>
      p.flush Lane.lens
      endSend mask
      return (.ok (), p)
    | (.error v, p) =>
      endSend mask
      return (.error v, p)
  else
    return (.error v, p)

/-- The mutex section of `Cleanup::close`: the consumer goes into the slot, and comes back out if no
    send was active. -/
def handOver (c : Consumer w) : Prog (Lane w V) (Option (Consumer w)) :=
  .atomic fun s =>
    if s.active then (none, { s with closed := true, slot := some c, owner := .slot })
    else (some c, { s with closed := true })

/-- `Consumer::close`. -/
def close : Prog (Lane w V) Unit := do
  match ← Prog.atomic fun s => (s.inner, { s with inner := none }) with
  | some c =>
    Lane.lens.access fun r => ((), r.log .teardown)
    let c ← discard mask c
    match ← handOver c with
    | some c => dispose mask c
    | none => return ()
  | none => return ()

/-! ## The two threads -/

inductive Op (V : Type)
  | pushAndFlush (v : V)
  | prefetch
  | pop
  | popInto (limit : Nat)
  | popIntoWhile (accept : List V → V → Bool) (limit : Nat)
  | release
  | close

/-- A receive on the open consumer, and the values it answers. -/
def receive (f : Consumer w → Prog (Lane w V) (List V × Consumer w)) : Prog (Lane w V) Unit := do
  match ← Prog.read fun s => s.inner with
  | some c =>
    let (vs, c) ← f c
    Prog.write fun s => { s with inner := some c, received := s.received ++ vs }
  | none => return ()

def code : Op V → Prog (Lane w V) Unit
  | .pushAndFlush v => do
    let p ← Prog.read fun s => s.tx
    let (answer, p) ← pushAndFlush mask v p
    Prog.write fun s => { s with tx := p, sent := s.sent ++ [(v, answer)] }
  | .prefetch => receive fun c => do
    let (_, c) ← c.prefetch Lane.lens
    return ([], c)
  | .pop => receive fun c => do
    let (v, c) ← c.pop Lane.lens mask
    return (v.toList, c)
  | .popInto limit => receive fun c => do
    let (_, vs, c) ← c.popInto Lane.lens mask limit []
    return (vs, c)
  | .popIntoWhile accept limit => receive fun c => do
    let (_, vs, c) ← c.popIntoWhile Lane.lens mask accept limit []
    return (vs, c)
  | .release => receive fun c => do
    c.release Lane.lens
    return ([], c)
  | .close => do
    close mask
    Prog.write fun s => { s with closeReturned := true }

/-- The sender calls `push_and_flush`; the receiver receives while the consumer is open, and may
    close it. -/
def system : System (Lane w V) Side (Op V) where
  may side op s :=
    match op with
    | .pushAndFlush _ => side == .producer
    | .close => side == .consumer
    | _ => side == .consumer && s.inner.isSome
  code _ := code mask

end Code

def initial (start : BitVec w) : Config (Lane w V) Side := ⟨.new start, fun _ => none⟩

end Fanring.Teardown
