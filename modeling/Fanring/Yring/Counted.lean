import Fanring.Conc.Trace
import Fanring.Ring
import Fanring.Yring.Trace

/-!
# The accesses of a ring with counted cursors

`Fanring.Ring`, which the channels are built on, counts its cursors from the ring's creation, and
the log of everything pushed stands for its slots. `Replay` says which access to such a ring an
access of `yring` is: what has to hold there for the access to be made, what it answers and what it
leaves. The accesses answer a number or a value, so a replay that goes through has found the same
room, and has read the same values, as the words and the slots have.

`Counted` ties the counted ring to the tally of a trace.
-/

set_option autoImplicit false

namespace Fanring.Yring

variable {V : Type}

/-- An access, made to a ring with counted cursors. -/
inductive Replay : Fanring.Ring V → Event V → Fanring.Ring V → Prop
  /-- What `checkFull` does when the producer's copy says full. -/
  | loadHead (r : Fanring.Ring V) (pushing : Option V) :
      Replay r (.loadHead pushing) { r with cachedHead := r.released }
  /-- A push writes if its copy of the head leaves it room, without a reload. -/
  | write (r : Fanring.Ring V) (slot : Nat) (v : V) (hroom : r.checkFull = (false, r)) :
      Replay r (.write slot v) (r.write v).2
  | flush (r : Fanring.Ring V) : Replay r .flush r.publish.2
  | loadTail (r : Fanring.Ring V) : Replay r .loadTail r.prefetch.2
  | peek (r : Fanring.Ring V) (slot : Nat) (contents : Option V) {i : Nat} (hi : i < r.tail)
      (hcontents : contents = r.log[i]?) : Replay r (.peek slot contents) r
  | take (r : Fanring.Ring V) (slot : Nat) (v : V) (hpop : r.pop.1 = some v) :
      Replay r (.take slot (some v)) r.pop.2
  | release (r : Fanring.Ring V) : Replay r .release r.release.2
  | teardown (r : Fanring.Ring V) : Replay r .teardown r
  /-- The last owner of the ring drops a value of the log; the counts end with the owners. -/
  | destroy (r : Fanring.Ring V) (slot : Nat) (contents : Option V) {i : Nat}
      (hcontents : contents = r.log[i]?) : Replay r (.destroy slot contents) r

/-- A new ring of a given capacity. -/
def fresh (cap : Nat) : Fanring.Ring V := { Fanring.Ring.new 0 with cap := cap }

/-- The counts of the ring are those of the accesses. -/
structure Counted (cap : Nat) (y : Tally V) (r : Fanring.Ring V) : Prop where
  cap : r.cap = cap
  log : r.log = y.accepted
  tail : r.tail = y.flushed.length
  released : r.released = y.released.length
  cachedHead : r.cachedHead = y.seenHead
  head : r.head = y.popped.length
  cachedTail : r.cachedTail = y.seenTail
  there : r.producerDropped = false

theorem Counted.fresh (cap : Nat) : Counted cap .empty (fresh cap : Fanring.Ring V) :=
  ⟨rfl, rfl, rfl, rfl, rfl, rfl, rfl, rfl⟩

/-- The trace is a run of a ring with counted cursors. -/
def Replayed (cap : Nat) (t : List (Event V)) : Prop :=
  ∃ r, Conc.Path Replay (fresh cap) t r ∧ Counted cap (tally t) r

theorem Replayed.nil (cap : Nat) : Replayed cap ([] : List (Event V)) :=
  ⟨_, .nil, .fresh cap⟩

end Fanring.Yring
