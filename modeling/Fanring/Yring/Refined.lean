import Fanring.Yring.Bulk
import Fanring.Yring.Fifo

/-!
# The ring the channels are built on

Every run of `yring`, whatever the width of its words and wherever its cursors start, makes the
accesses of a ring with counted cursors: `ring_refined` says so of `Fanring.Ring`, with the answers
the accesses had, and that the words, the slots and the endpoints' copies are what the counts say.
So are the tests the endpoints make on their copies. `Fanring.Ring.popInto` makes many of the
accesses in one step; `popInto_replays` says which.
-/

set_option autoImplicit false

namespace Fanring.Yring

open Conc Cursor

variable {w : Nat} {V : Type}

/-! ## Many pops in one step -/

theorem takes_replay (vs : List V) (f : Nat → Nat) (R : Fanring.Ring V)
    (hlog : vs <+: R.log.drop R.head) (hle : R.head + vs.length ≤ R.cachedTail) :
    Path Replay R (takes f vs) { R with head := R.head + vs.length } := by
  induction vs generalizing f R with
  | nil => exact .nil
  | cons v vs ih =>
    obtain ⟨rest, hrest⟩ := hlog
    have hnext : R.log[R.head]? = some v := by
      rw [← List.head?_drop, ← hrest]
      rfl
    have htail : R.log.drop (R.head + 1) = vs ++ rest := by
      rw [← List.drop_drop, ← hrest]
      rfl
    rw [List.length_cons] at hle
    have hpop : R.pop = (some v, { R with head := R.head + 1 }) := by
      rw [Fanring.Ring.pop, if_neg (by omega), hnext]
    have hfirst : Replay R (.take (f 0) (some v)) { R with head := R.head + 1 } := by
      have h := Replay.take R (f 0) v (by rw [hpop])
      rwa [hpop] at h
    have hothers := ih (fun j => f (j + 1)) { R with head := R.head + 1 } ⟨rest, htail.symm⟩
      (by dsimp only; omega)
    rw [List.length_cons, Nat.add_comm vs.length, ← Nat.add_assoc]
    exact Path.append_iff.mpr ⟨_, Path.snoc .nil hfirst, hothers⟩

/-- A bulk pop of the counted ring is the pops of the values it answers. -/
theorem popInto_replays {R : Fanring.Ring V} (h : R.Ok) (limit : Nat) (f : Nat → Nat) :
    Path Replay R (takes f (R.popInto limit).1) (R.popInto limit).2 := by
  have hlen := h.length_window limit
  have hle := h.head_le
  exact takes_replay (R.window limit) f R (List.take_prefix ..) (by omega)

/-! ## Every run -/

theorem Counted.ok {start mask : BitVec w} {r : Ring w V} {y : Tally V} {R : Fanring.Ring V}
    (h : Counted (capacity mask) y R) (hf : Fits start mask r y) : R.Ok where
  cap_pos := h.cap ▸ capacity_pos mask
  cachedHead_le := by rw [h.cachedHead, h.released]; exact hf.seenHead_le
  released_le := by rw [h.released, h.head]; exact hf.released_le
  head_le := by rw [h.head, h.cachedTail]; exact hf.popped_le
  cachedTail_le := by rw [h.cachedTail, h.tail]; exact hf.seenTail_le
  tail_le := by rw [h.tail, h.log]; exact hf.flushed_le
  log_le := by rw [h.log, h.cachedHead, h.cap]; exact hf.room
  dropped hd := absurd (h.there.symm.trans hd) (by simp)

/-- **A ring of words is a ring of counts.** In every state any interleaving reaches, the accesses
    made so far, with their answers, are those of a ring with counted cursors. The two published
    cursors are its counts, modulo the word, and every slot that was not released holds the value of
    its log. So do the copies of an endpoint that is between operations: the test for a full ring
    and the length of the window come out as they do on the counts. -/
theorem ring_refined {start mask : BitVec w} {wrapped : Bool} {asked : Nat}
    (hnew : maskOf w asked = some mask) {c : Config (Spsc w V) Side}
    (hrun : (system mask wrapped).Run System.always (initial start) c) :
    ∃ R : Fanring.Ring V, Path Replay (fresh (capacity mask)) c.st.ring.trace R ∧ R.Ok ∧
      c.st.ring.tail = count start R.tail ∧
      (c.st.last = none → c.st.ring.head = count start R.released) ∧
      (∀ i, R.released ≤ i → i < R.log.length →
        c.st.ring.buf (slot start R.cap i) = R.log[i]?) ∧
      (c.pool .producer = none → c.st.txAlive = true →
        c.st.tx.cursor = count start R.log.length ∧ c.st.tx.cachedHead = count start R.cachedHead ∧
        (c.st.tx.full mask = true ↔ R.cap ≤ R.log.length - R.cachedHead)) ∧
      (c.pool .consumer = none → c.st.rxAlive = true →
        c.st.rx.head = count start R.head ∧ c.st.rx.cachedTail = count start R.cachedTail ∧
        distance c.st.rx.cachedTail c.st.rx.head = R.cachedTail - R.head) := by
  have hgood := good_of_run hnew hrun
  have hinv : Inv start mask c.st := hgood.1
  have hfits := hinv.ok.fits
  obtain ⟨R, hpath, hc⟩ := hinv.ok.replayed
  refine ⟨R, hpath, hc.ok hfits, ?_, fun hlast => ?_, fun i hi hlt => ?_, fun hidle ha => ?_,
    fun hidle ha => ?_⟩
  · rw [hfits.tail_eq, hc.tail]
  · rw [hfits.head_eq, hinv.live hlast, hc.released]
    rfl
  · have hroom := hfits.room
    have hseen := hfits.seenHead_le
    rw [hc.released] at hi
    rw [hc.log] at hlt ⊢
    rw [hc.cap]
    exact (hfits.slots i hlt (by omega)).1
  · have hthread := hgood.2 .producer
    rw [hidle] at hthread
    obtain ⟨F, hat⟩ := Idle.at_ hthread ha
    refine ⟨?_, ?_, ?_⟩
    · rw [hat.cursor, hc.log, hat.accepted]
    · rw [hat.cachedHead, hc.cachedHead]
    · rw [hat.full_iff hinv.ok, hc.cap, hc.log, hc.cachedHead, hat.accepted]
      have hpos := capacity_pos mask
      omega
  · have hthread := hgood.2 .consumer
    rw [hidle] at hthread
    have hat : c.st.rx.At start (c.st.answered .consumer) c.st.ring.trace := Idle.at_ hthread ha
    refine ⟨?_, ?_, ?_⟩
    · rw [hat.head, hc.head, hat.popped]
    · rw [hat.cachedTail, hc.cachedTail]
    · rw [hat.distance_eq hinv.ok, hc.cachedTail, hc.head, hat.popped]

end Fanring.Yring
