import Fanring.Yring.Counted
import Mathlib.Data.List.Infix

/-!
# The order of the cursors

`Ring.Ok` ties the words a ring keeps to the numbers its trace counts, and states the one order
everything rests on: what the producer has seen released, what is released, popped, seen
published, published, accepted, and accepted at most a capacity past what the producer has seen.
Between the last two ends fewer than `2 ^ w` counts fit, so every wrapped distance the code takes
is a true one. The last `capacity` accepted values are in their slots; that is all a slot is ever
asked for.

Each access of the code has one lemma here that says when it keeps `Ring.Ok`.
-/

set_option autoImplicit false

namespace Fanring.Yring

open Cursor

variable {w : Nat} {V : Type}

/-- The words and slots of a ring are those of a ring with this tally. -/
structure Fits (start mask : BitVec w) (r : Ring w V) (y : Tally V) : Prop where
  bits : ∃ k, k < w ∧ capacity mask = 2 ^ k
  tail_eq : r.tail = count start y.flushed.length
  -- `drop_remaining` counts what it destroys as released
  head_eq : r.head = count start (y.released.length + y.destroyed.length)
  seenHead_le : y.seenHead ≤ y.released.length
  released_le : y.released.length ≤ y.popped.length
  popped_le : y.popped.length ≤ y.seenTail
  seenTail_le : y.seenTail ≤ y.flushed.length
  room : y.accepted.length ≤ y.seenHead + capacity mask
  flushed : y.flushed <+: y.accepted
  popped : y.popped <+: y.accepted
  slots : ∀ k < y.accepted.length, y.accepted.length ≤ k + capacity mask →
    r.buf (slot start (capacity mask) k) = y.accepted[k]? ∧
      y.holder (slot start (capacity mask) k) = some k
  holder : ∀ i k, y.holder i = some k →
    k < y.accepted.length ∧ slot start (capacity mask) k = i

/-- A ring whose words and slots agree with its trace, all of whose accesses were lawful, and were
    those of a ring with counted cursors. -/
structure Ring.Ok (start mask : BitVec w) (r : Ring w V) : Prop where
  fits : Fits start mask r (tally r.trace)
  lawful : AllLawful (capacity mask) r.trace
  replayed : Replayed (capacity mask) r.trace

theorem capacity_pos (mask : BitVec w) : 0 < capacity mask := Nat.succ_pos _

/-- A mask of low bits, as every ring has one. -/
def LowBits (mask : BitVec w) : Prop := ∃ k, k < w ∧ capacity mask = 2 ^ k

theorem LowBits.lt {mask : BitVec w} (h : LowBits mask) : capacity mask < 2 ^ w := by
  obtain ⟨k, hk, hcap⟩ := h
  exact hcap ▸ Nat.pow_lt_pow_right (by decide) hk

theorem LowBits.index {mask : BitVec w} (h : LowBits mask) (start : BitVec w) (n : Nat) :
    index mask (count start n) = slot start (capacity mask) n := by
  obtain ⟨k, hk, hcap⟩ := h
  rw [hcap]
  exact toNat_count_and start mask hk.le hcap n

theorem isPowerOfTwo_nextPowerOfTwo (n : Nat) : ∃ k, n.nextPowerOfTwo = 2 ^ k :=
  Nat.isPowerOfTwo_nextPowerOfTwo n

/-- **Every capacity `Ring::new` accepts gives a mask of low bits.** -/
theorem LowBits.of_maskOf {n : Nat} {mask : BitVec w} (h : maskOf w n = some mask) :
    LowBits mask := by
  obtain ⟨k, hk⟩ := isPowerOfTwo_nextPowerOfTwo n
  simp only [maskOf, checkedNextPowerOfTwo, hk] at h
  split_ifs at h with _ hfit
  dsimp only at h
  split_ifs at h
  simp only [Option.some.injEq] at h
  subst h
  have hkw : k < w := (Nat.pow_lt_pow_iff_right (by decide)).mp hfit
  refine ⟨k, hkw, ?_⟩
  have hone := Nat.one_le_two_pow (n := k)
  rw [capacity, BitVec.toNat_ofNat, Nat.mod_eq_of_lt (by omega)]
  omega

namespace Fits

variable {start mask : BitVec w} {r : Ring w V} {y : Tally V}

theorem new (h : LowBits mask) : Fits start mask (Ring.new start : Ring w V) .empty where
  bits := h
  tail_eq := (count_zero start).symm
  head_eq := (count_zero start).symm
  seenHead_le := le_rfl
  released_le := le_rfl
  popped_le := le_rfl
  seenTail_le := le_rfl
  room := Nat.zero_le _
  flushed := List.prefix_rfl
  popped := List.prefix_rfl
  slots := fun _ hk => absurd hk (Nat.not_lt_zero _)
  holder := fun _ _ h => absurd h (by simp [Tally.empty])

theorem cap_lt (h : Fits start mask r y) : capacity mask < 2 ^ w := LowBits.lt h.bits

theorem index_eq (h : Fits start mask r y) (n : Nat) :
    index mask (count start n) = slot start (capacity mask) n := LowBits.index h.bits start n

theorem flushed_le (h : Fits start mask r y) : y.flushed.length ≤ y.accepted.length :=
  h.flushed.length_le

theorem popped_flushed (h : Fits start mask r y) : y.popped <+: y.flushed :=
  List.prefix_of_prefix_length_le h.popped h.flushed (h.popped_le.trans h.seenTail_le)

/-- The contents of a slot the consumer may look at. -/
theorem holds (h : Fits start mask r y) {k : Nat} (hk : k < y.accepted.length)
    (hcap : y.accepted.length ≤ k + capacity mask) :
    Holds y (slot start (capacity mask) k) (r.buf (slot start (capacity mask) k)) k := by
  obtain ⟨hbuf, hholder⟩ := h.slots k hk hcap
  exact ⟨hholder, by simp [hbuf, hk], hbuf⟩

/-! ## The accesses of the producer -/

theorem loadHead (h : Fits start mask r y) (pushing : Option V) :
    Fits start mask (r.loadHead pushing).2 (y.add (.loadHead pushing)) :=
  { h with
    seenHead_le := le_rfl
    room := h.room.trans (Nat.add_le_add_right h.seenHead_le _) }

/-- The slot a push writes to holds no value that is still needed. -/
theorem write_lawful (h : Fits start mask r y)
    (hroom : y.accepted.length < y.seenHead + capacity mask) {k : Nat}
    (hk : y.holder (slot start (capacity mask) y.accepted.length) = some k) :
    k < y.released.length := by
  obtain ⟨hlt, hslot⟩ := h.holder _ k hk
  have hdvd := (slot_eq_iff start (capacity mask) hlt.le).mp hslot.symm
  have hle := Nat.le_of_dvd (by omega) hdvd
  have hseen := h.seenHead_le
  omega

theorem write (h : Fits start mask r y) (v : V)
    (hroom : y.accepted.length < y.seenHead + capacity mask) :
    Fits start mask (r.write (slot start (capacity mask) y.accepted.length) v).2
      (y.add (.write (slot start (capacity mask) y.accepted.length) v)) := by
  have hcap := capacity_pos mask
  refine { h with room := ?_, flushed := ?_, popped := ?_, slots := ?_, holder := ?_ }
  · simpa [Tally.add] using Nat.succ_le_of_lt hroom
  · exact h.flushed.trans (List.prefix_append ..)
  · exact h.popped.trans (List.prefix_append ..)
  · intro k hk hkcap
    simp only [Tally.add, List.length_append, List.length_singleton] at hk hkcap
    simp only [Ring.write, Ring.log, Tally.add]
    rcases Nat.lt_succ_iff_lt_or_eq.mp hk with hlt | rfl
    · -- an older value keeps its slot: it is less than a round behind
      have hne : slot start (capacity mask) k ≠ slot start (capacity mask) y.accepted.length := by
        intro he
        have := (slot_inj start (capacity mask) hlt.le (by omega)).mp he.symm
        omega
      rw [Function.update_of_ne hne, Function.update_of_ne hne,
        List.getElem?_append_left hlt]
      exact h.slots k hlt (by omega)
    · simp
  · intro i k hik
    simp only [Tally.add, List.length_append, List.length_singleton] at hik ⊢
    by_cases hi : i = slot start (capacity mask) y.accepted.length
    · subst hi
      simp only [Function.update_self, Option.some.injEq] at hik
      subst hik
      exact ⟨Nat.lt_succ_self _, rfl⟩
    · rw [Function.update_of_ne hi] at hik
      exact (h.holder i k hik).imp_left (Nat.lt_succ_of_lt)

theorem storeTail (h : Fits start mask r y) :
    Fits start mask (r.storeTail (count start y.accepted.length)).2 (y.add .flush) :=
  { h with
    tail_eq := rfl
    seenTail_le := h.seenTail_le.trans h.flushed_le
    flushed := List.prefix_rfl }

/-! ## The accesses of the consumer -/

theorem loadTail (h : Fits start mask r y) : Fits start mask (r.loadTail).2 (y.add .loadTail) :=
  { h with
    popped_le := h.popped_le.trans h.seenTail_le
    seenTail_le := le_rfl }

/-- A value of the window is in its slot. -/
theorem window (h : Fits start mask r y) {k : Nat} (hpopped : y.popped.length ≤ k)
    (hk : k < y.seenTail) :
    ∃ j, Holds y (slot start (capacity mask) k) (r.buf (slot start (capacity mask) k)) j ∧
      j < y.flushed.length := by
  have h₁ := h.seenTail_le
  have h₂ := h.flushed_le
  have h₃ := h.room
  have h₄ := h.seenHead_le
  have h₅ := h.released_le
  exact ⟨k, h.holds (by omega) (by omega), by omega⟩

theorem take (h : Fits start mask r y) (hk : y.popped.length < y.seenTail) :
    Fits start mask (r.take (slot start (capacity mask) y.popped.length)).2
      (y.add (.take (slot start (capacity mask) y.popped.length)
        (r.buf (slot start (capacity mask) y.popped.length)))) := by
  have h₁ := h.seenTail_le
  have h₂ := h.flushed_le
  have h₃ := h.room
  have h₄ := h.seenHead_le
  have h₅ := h.released_le
  have hlt : y.popped.length < y.accepted.length := by omega
  obtain ⟨hbuf, -⟩ := h.slots y.popped.length hlt (by omega)
  have hval : y.accepted[y.popped.length]? = some y.accepted[y.popped.length] :=
    List.getElem?_eq_getElem hlt
  rw [hval] at hbuf
  refine { h with released_le := ?_, popped_le := ?_, popped := ?_ }
  · simp only [Tally.add, List.length_append]
    omega
  · simp only [Tally.add, hbuf, Option.toList_some, List.length_append, List.length_singleton]
    omega
  · simp only [Tally.add, hbuf, Option.toList_some]
    simpa only [List.get_eq_getElem] using List.concat_get_prefix h.popped hlt

theorem storeHead (h : Fits start mask r y) (hd : y.destroyed = []) :
    Fits start mask (r.storeHead (count start y.popped.length)).2 (y.add .release) :=
  { h with
    head_eq := by simp [Ring.storeHead, Ring.log, Tally.add, hd]
    seenHead_le := h.seenHead_le.trans h.released_le
    released_le := le_rfl }

/-! ## Counted cursors -/

/-- What the consumer moves out of its slot is the next value of the log. -/
theorem popped_next {i : Nat} {v : V} (h : Fits start mask r (y.add (.take i (some v)))) :
    y.accepted[y.popped.length]? = some v ∧ y.popped.length < y.seenTail := by
  have hprefix : y.popped ++ [v] <+: y.accepted := h.popped
  have hle : (y.popped ++ [v]).length ≤ y.seenTail := h.popped_le
  refine ⟨?_, by simpa [Nat.succ_le_iff] using hle⟩
  obtain ⟨rest, hrest⟩ := hprefix
  rw [← hrest]
  simp

/-- **An access to the words and slots is one to the counted ring**, with the same answer. -/
theorem replay {r' : Ring w V} {t : List (Event V)} {e : Event V} {R : Fanring.Ring V}
    (hlaw : Lawful (capacity mask) t e) (h : Fits start mask r' ((tally t).add e))
    (hc : Counted (capacity mask) (tally t) R) :
    ∃ R', Replay R e R' ∧ Counted (capacity mask) ((tally t).add e) R' := by
  cases e with
  | loadHead pushing => exact ⟨_, .loadHead R pushing, { hc with cachedHead := hc.released }⟩
  | write i v =>
    have hroom : (tally t).accepted.length + 1 ≤ (tally t).seenHead + capacity mask := by
      simpa [Tally.add] using h.room
    refine ⟨_, .write R i v ?_, { hc with log := by rw [Fanring.Ring.write, hc.log]; rfl }⟩
    have hnot : ¬ R.cap ≤ R.log.length - R.cachedHead := by
      have hpos := capacity_pos mask
      rw [hc.cap, hc.log, hc.cachedHead]
      omega
    simp [Fanring.Ring.checkFull, Fanring.Ring.reload, hnot]
  | flush => exact ⟨_, .flush R, { hc with tail := congrArg List.length hc.log }⟩
  | loadTail => exact ⟨_, .loadTail R, { hc with cachedTail := hc.tail }⟩
  | peek i contents =>
    obtain ⟨k, ⟨-, -, hcontents⟩, hk⟩ := hlaw
    exact ⟨R, .peek R i contents (hc.tail ▸ hk) (hc.log ▸ hcontents), hc⟩
  | take i contents =>
    obtain ⟨k, ⟨-, hsome, -⟩, -⟩ := hlaw
    obtain ⟨v, rfl⟩ := Option.isSome_iff_exists.mp hsome
    obtain ⟨hnext, hlt⟩ := popped_next h
    have hpop : R.pop = (some v, { R with head := R.head + 1 }) := by
      rw [Fanring.Ring.pop, if_neg (by rw [hc.head, hc.cachedTail]; omega), hc.log, hc.head, hnext]
    refine ⟨R.pop.2, .take R i v (by rw [hpop]), ?_⟩
    rw [hpop]
    exact { hc with head := by simp [Tally.add, hc.head] }
  | release => exact ⟨_, .release R, { hc with released := hc.head }⟩
  | teardown => exact ⟨R, .teardown R, hc⟩
  | destroy i contents =>
    obtain ⟨k, -, -, hcontents⟩ := hlaw
    exact ⟨R, .destroy R i contents (hc.log ▸ hcontents), { hc with }⟩

end Fits

namespace Ring.Ok

variable {start mask : BitVec w} {r r' : Ring w V}

theorem new (h : LowBits mask) : (Ring.new start : Ring w V).Ok start mask :=
  ⟨Fits.new h, AllLawful.nil _, Replayed.nil _⟩

/-- One more access. -/
theorem log (h : r.Ok start mask) {e : Event V} (ht : r'.trace = r.trace ++ [e])
    (hlaw : Lawful (capacity mask) r.trace e)
    (hfits : Fits start mask r' ((tally r.trace).add e)) : r'.Ok start mask := by
  obtain ⟨R, hpath, hc⟩ := h.replayed
  obtain ⟨R', hstep, hc'⟩ := Fits.replay hlaw hfits hc
  rw [← tally_concat] at hfits hc'
  rw [← ht] at hfits hc'
  exact ⟨hfits, ht ▸ h.lawful.concat hlaw, R', ht ▸ hpath.snoc hstep, hc'⟩

/-- An access that neither the words and slots nor the trace show. -/
theorem silent (h : r.Ok start mask) (ht : r'.trace = r.trace) (hb : r'.buf = r.buf)
    (hhead : r'.head = r.head) (htail : r'.tail = r.tail) : r'.Ok start mask := by
  obtain ⟨hfits, hlaw, hreplayed⟩ := h
  rw [← ht] at hfits hlaw hreplayed
  exact ⟨{ hfits with
    tail_eq := htail.trans hfits.tail_eq
    head_eq := hhead.trans hfits.head_eq
    slots := fun k hk hcap => hb ▸ hfits.slots k hk hcap }, hlaw, hreplayed⟩

end Ring.Ok

end Fanring.Yring
