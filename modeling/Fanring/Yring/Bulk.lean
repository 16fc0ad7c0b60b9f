import Fanring.Conc.Solo
import Fanring.Yring.Fifo

/-!
# Bulk moves are repeated pops

`pop_into` copies its values in two contiguous runs of slots, `pop_into_while` first counts the
values the predicate accepts and then moves them the same way; `pop` takes one slot at a time. All
of them read the same slots in the same order, and the comparison is of what each does to a ring
of which the consumer has the window to itself: `Yields` gives the answer and the ring it leaves.
The slots read are in the ring's trace, so rings that are equal were read the same way.
-/

set_option autoImplicit false

namespace Fanring.Yring

open Conc Cursor

variable {w : Nat} {V : Type} {mask : BitVec w} {r : Ring w V} {f : Nat → Nat} {vs : List V}
  {c : Consumer w}

/-- The whole state is the ring. -/
def Ring.self : Lens (Ring w V) (Ring w V) := ⟨id, fun r _ => r⟩

/-- So many calls of `pop`, one after the other. -/
def Consumer.pops (mask : BitVec w) :
    Nat → Consumer w → Prog (Ring w V) (List (Option V) × Consumer w)
  | 0, c => return ([], c)
  | n + 1, c => do
    let (v, c) ← c.pop Ring.self mask
    let (vs, c) ← Consumer.pops mask n c
    return (v :: vs, c)

/-- The values of the window are there, and they fit the ring. -/
structure Consumer.Prefetched (mask : BitVec w) (c : Consumer w) (r : Ring w V) : Prop where
  fits : distance c.cachedTail c.head ≤ capacity mask
  stored : ∀ j < distance c.cachedTail c.head,
    (r.buf (index mask (c.head + BitVec.ofNat w j))).isSome

/-! ## Slots read in a row -/

/-- The slot of the `j`-th value is `f j`. -/
def Reads (r : Ring w V) (f : Nat → Nat) (vs : List V) : Prop :=
  ∀ j v, vs[j]? = some v → r.buf (f j) = some v

theorem Reads.cons {v : V} (h : Reads r f (v :: vs)) :
    r.buf (f 0) = some v ∧ Reads r (fun j => f (j + 1)) vs :=
  ⟨h 0 v rfl, fun j u hj => h (j + 1) u (by simpa using hj)⟩

theorem Reads.take (h : Reads r f vs) (n : Nat) : Reads r f (vs.take n) := by
  intro j v hj
  rw [List.getElem?_take] at hj
  split at hj
  · exact h j v hj
  · cases hj

theorem Reads.drop {us : List V} (h : Reads r f (us ++ vs)) :
    Reads r (fun j => f (us.length + j)) vs :=
  fun j v hj => h _ v (by simpa [List.getElem?_append_right] using hj)

/-- The accesses that move values out of the slots. -/
def takes : (Nat → Nat) → List V → List (Event V)
  | _, [] => []
  | f, v :: vs => .take (f 0) (some v) :: takes (fun j => f (j + 1)) vs

theorem takes_append (f : Nat → Nat) (us vs : List V) :
    takes f (us ++ vs) = takes f us ++ takes (fun j => f (us.length + j)) vs := by
  induction us generalizing f with
  | nil => simp [takes]
  | cons u us ih => simp [takes, ih, Nat.add_assoc, Nat.add_comm 1]

theorem takes_congr {f g : Nat → Nat} (h : ∀ j < vs.length, f j = g j) :
    takes f vs = takes g vs := by
  induction vs generalizing f g with
  | nil => rfl
  | cons v vs ih =>
    simp only [takes]
    rw [h 0 (by simp), ih fun j hj => h (j + 1) (by simpa using hj)]

def Ring.logAll (r : Ring w V) (es : List (Event V)) : Ring w V :=
  { r with trace := r.trace ++ es }

@[simp] theorem Ring.logAll_nil (r : Ring w V) : r.logAll [] = r := by
  simp [Ring.logAll]

theorem Ring.logAll_log (r : Ring w V) (e : Event V) (es : List (Event V)) :
    (r.log e).logAll es = r.logAll (e :: es) := by
  simp [Ring.logAll, Ring.log]

theorem Ring.logAll_logAll (r : Ring w V) (es es' : List (Event V)) :
    (r.logAll es).logAll es' = r.logAll (es ++ es') := by
  simp [Ring.logAll]

theorem Reads.log (h : Reads r f vs) (e : Event V) : Reads (r.log e) f vs := h

theorem Reads.logAll (h : Reads r f vs) (es : List (Event V)) : Reads (r.logAll es) f vs := h

/-! ## What each move does -/

theorem take_yields {i : Nat} {v : V} (h : r.buf i = some v) :
    (Ring.self.access (Ring.take i)).Yields r (some v) (r.log (.take i (some v))) := by
  have := Prog.Yields.atomic (fun r : Ring w V => ((Ring.take i r).1, (Ring.take i r).2)) r
  simp only [Ring.take, h] at this
  exact this

theorem peek_yields {i : Nat} {v : V} (h : r.buf i = some v) :
    (Ring.self.access (Ring.peek i)).Yields r (some v) (r.log (.peek i (some v))) := by
  have := Prog.Yields.atomic (fun r : Ring w V => ((Ring.peek i r).1, (Ring.peek i r).2)) r
  simp only [Ring.peek, h] at this
  exact this

/-- The cursor `j` values further on. -/
def Consumer.slotAt (mask : BitVec w) (c : Consumer w) (j : Nat) : Nat :=
  index mask (c.head + BitVec.ofNat w j)

/-- The consumer with `n` values of its window behind it. -/
def Consumer.ahead (c : Consumer w) (n : Nat) : Consumer w :=
  { c with head := c.head + BitVec.ofNat w n }

theorem Consumer.ahead_ahead (c : Consumer w) (n m : Nat) :
    (c.ahead n).ahead m = c.ahead (n + m) := by
  simp [Consumer.ahead, BitVec.add_assoc, BitVec.ofNat_add]

theorem Consumer.slotAt_ahead (c : Consumer w) (n j : Nat) :
    (c.ahead n).slotAt mask j = c.slotAt mask (n + j) := by
  simp [Consumer.slotAt, Consumer.ahead, BitVec.add_assoc, BitVec.ofNat_add]

theorem Consumer.distance_ahead (c : Consumer w) {n : Nat}
    (h : n ≤ distance c.cachedTail c.head) :
    distance (c.ahead n).cachedTail (c.ahead n).head = distance c.cachedTail c.head - n := by
  have hlt : distance c.cachedTail c.head < 2 ^ w := (c.cachedTail - c.head).isLt
  have hn : BitVec.ofNat w n ≤ c.cachedTail - c.head := by
    rw [BitVec.le_def, BitVec.toNat_ofNat, Nat.mod_eq_of_lt (by omega)]
    exact h
  simp only [distance, Consumer.ahead] at h ⊢
  rw [← sub_sub, BitVec.toNat_sub_of_le hn, BitVec.toNat_ofNat, Nat.mod_eq_of_lt]
  exact lt_of_le_of_lt h hlt

theorem pop_yields {v : V} (hpos : 0 < distance c.cachedTail c.head)
    (h : r.buf (c.slotAt mask 0) = some v) :
    (c.pop Ring.self mask).Yields r (some v, c.ahead 1)
      (r.log (.take (c.slotAt mask 0) (some v))) := by
  have hne : c.head ≠ c.cachedTail := by
    intro he
    simp [distance, he] at hpos
  have hslot : index mask c.head = c.slotAt mask 0 := by simp [Consumer.slotAt]
  unfold Consumer.pop
  rw [if_neg hne, hslot]
  exact (take_yields h).bind (.ret _ _)

/-- **Pops take the slots of the window in order.** -/
theorem pops_yields (hle : vs.length ≤ distance c.cachedTail c.head)
    (h : Reads r (c.slotAt mask) vs) :
    (c.pops mask vs.length).Yields r (vs.map some, c.ahead vs.length)
      (r.logAll (takes (c.slotAt mask) vs)) := by
  induction vs generalizing c r with
  | nil => simpa [Consumer.pops, Consumer.ahead, takes] using Prog.Yields.ret _ _
  | cons v vs ih =>
    simp only [List.length_cons] at hle
    obtain ⟨hv, hvs⟩ := h.cons
    have hslots : (fun j => c.slotAt mask (j + 1)) = (c.ahead 1).slotAt mask := by
      funext j
      rw [Consumer.slotAt_ahead, Nat.add_comm]
    rw [hslots] at hvs
    have hrest := ih (by rw [Consumer.distance_ahead c (by omega)]; omega)
      (hvs.log (.take (c.slotAt mask 0) (some v)))
    rw [Consumer.ahead_ahead, Nat.add_comm, Ring.logAll_log] at hrest
    have hpop := pop_yields (by omega) hv
    rw [takes, hslots]
    exact hpop.bind (hrest.bind (.ret _ _))

theorem moveSlots_yields {i : Nat} (output : List V) (h : Reads r (i + ·) vs) :
    (moveSlots Ring.self i vs.length output).Yields r (output ++ vs)
      (r.logAll (takes (i + ·) vs)) := by
  induction vs generalizing r i output with
  | nil => simpa [moveSlots, takes] using Prog.Yields.ret _ _
  | cons v vs ih =>
    obtain ⟨hv, hvs⟩ := h.cons
    have hslots : (fun j => i + (j + 1)) = (i + 1 + ·) := by
      funext j
      omega
    rw [hslots] at hvs
    have hrest := ih (output ++ [v]) (hvs.log (.take i (some v)))
    rw [Ring.logAll_log, List.append_assoc] at hrest
    rw [takes, hslots]
    exact (take_yields hv).bind hrest

/-- **The two runs of a bulk move take the slots pops take.** -/
theorem ringPopInto_yields (output : List V) (hmask : LowBits mask)
    (hfit : vs.length ≤ capacity mask) (h : Reads r (c.slotAt mask) vs) :
    (Ring.popInto Ring.self mask vs.length output c).Yields r (output ++ vs, c.ahead vs.length)
      (r.logAll (takes (c.slotAt mask) vs)) := by
  have hslot : ∀ n, slot c.head (capacity mask) n = c.slotAt mask n :=
    fun n => (hmask.index c.head n).symm
  have hix : slot c.head (capacity mask) 0 = index mask c.head := by
    rw [hslot]
    simp [Consumer.slotAt]
  obtain ⟨hone, htwo⟩ := runs c.head (n := 0) (capacity_pos mask) hfit
  simp only [hix, hslot, Nat.zero_add] at hone htwo
  -- the values of the two runs
  let first := min vs.length (capacity mask - index mask c.head)
  have hlen₁ : (vs.take first).length = first := by simp [first]
  have hlen₂ : (vs.drop first).length = vs.length - first := List.length_drop
  have hreads₁ : Reads r (index mask c.head + ·) (vs.take first) := by
    intro j v hj
    have hlt := (List.getElem?_eq_some_iff.mp hj).1
    show r.buf (index mask c.head + j) = some v
    rw [hone j (by omega)]
    exact h.take first j v hj
  have hreads₂ : Reads r (0 + ·) (vs.drop first) := by
    intro j v hj
    have hlt := (List.getElem?_eq_some_iff.mp hj).1
    show r.buf (0 + j) = some v
    rw [Nat.zero_add, htwo j (by omega)]
    have hall : Reads r (c.slotAt mask) (vs.take first ++ vs.drop first) := by
      rwa [List.take_append_drop]
    have := hall.drop j v hj
    rwa [hlen₁] at this
  have htakes : takes (index mask c.head + ·) (vs.take first) ++ takes (0 + ·) (vs.drop first) =
      takes (c.slotAt mask) vs := by
    conv_rhs => rw [← List.take_append_drop first vs, takes_append]
    rw [hlen₁]
    refine congrArg₂ _ (takes_congr fun j hj => ?_) (takes_congr fun j hj => ?_)
    · exact hone j (by omega)
    · show 0 + j = _
      rw [Nat.zero_add]
      exact htwo j (by omega)
  have hfirst := moveSlots_yields output hreads₁
  have hsecond := moveSlots_yields (output ++ vs.take first)
    (hreads₂.logAll (takes (index mask c.head + ·) (vs.take first)))
  rw [hlen₁] at hfirst
  rw [hlen₂, Ring.logAll_logAll, htakes, List.append_assoc, List.take_append_drop] at hsecond
  exact hfirst.bind (hsecond.bind (.ret _ _))

/-! ## What the predicate accepts -/

/-- How many values the predicate accepts, having seen some before. -/
def admitted (accept : List V → V → Bool) : List V → List V → Nat
  | _, [] => 0
  | seen, v :: vs => if accept seen v then admitted accept (seen ++ [v]) vs + 1 else 0

section Admitted

variable {accept : List V → V → Bool} {seen : List V}

theorem admitted_le : admitted accept seen vs ≤ vs.length := by
  induction vs generalizing seen with
  | nil => exact le_rfl
  | cons v vs ih =>
    unfold admitted
    split
    · exact Nat.succ_le_succ ih
    · exact Nat.zero_le _

theorem accept_of_lt_admitted {i : Nat} {v : V} (hi : i < admitted accept seen vs)
    (hv : vs[i]? = some v) : accept (seen ++ vs.take i) v = true := by
  induction vs generalizing seen i with
  | nil => exact absurd hi (by simp [admitted])
  | cons u vs ih =>
    unfold admitted at hi
    split at hi
    · next hu =>
      cases i with
      | zero =>
        cases hv
        simpa using hu
      | succ i =>
        have hi' : i < admitted accept (seen ++ [u]) vs := Nat.lt_of_succ_lt_succ hi
        simpa using ih hi' (by simpa using hv)
    · omega

theorem accept_admitted {v : V} (hv : vs[admitted accept seen vs]? = some v) :
    accept (seen ++ vs.take (admitted accept seen vs)) v = false := by
  induction vs generalizing seen with
  | nil => cases hv
  | cons u vs ih =>
    unfold admitted at hv ⊢
    split
    · next hu =>
      rw [if_pos hu] at hv
      have hv' : vs[admitted accept (seen ++ [u]) vs]? = some v := by simpa using hv
      simpa using ih hv'
    · next hu =>
      rw [if_neg hu] at hv
      cases hv
      simpa using hu

/-- The accesses that show values to the predicate. -/
def peeks : (Nat → Nat) → List V → List (Event V)
  | _, [] => []
  | f, v :: vs => .peek (f 0) (some v) :: peeks (fun j => f (j + 1)) vs

/-- The values the predicate was asked about, in order. -/
def asked (t : List (Event V)) : List V :=
  t.filterMap fun
    | .peek _ contents => contents
    | _ => none

theorem asked_peeks (f : Nat → Nat) (vs : List V) : asked (peeks f vs) = vs := by
  induction vs generalizing f with
  | nil => rfl
  | cons v vs ih => simpa [asked, peeks] using ih _

theorem asked_takes (f : Nat → Nat) (vs : List V) : asked (takes f vs) = [] := by
  induction vs generalizing f with
  | nil => rfl
  | cons v vs ih => simpa [asked, takes] using ih _

/-- **The predicate is asked about the values it accepts and the first it rejects.** -/
theorem acceptedPrefix_yields (accept : List V → V → Bool)
    (h : Reads r (fun j => c.slotAt mask (seen.length + j)) vs) :
    (acceptedPrefix Ring.self mask accept c.head vs.length seen).Yields r
      (seen.length + admitted accept seen vs)
      (r.logAll (peeks (fun j => c.slotAt mask (seen.length + j))
        (vs.take (admitted accept seen vs + 1)))) := by
  induction vs generalizing r seen with
  | nil => simpa [acceptedPrefix, admitted, peeks] using Prog.Yields.ret _ _
  | cons v vs ih =>
    obtain ⟨hv, hvs⟩ := h.cons
    refine (peek_yields hv).bind ?_
    simp only [admitted]
    split
    · next hacc =>
      have hslots : (fun j => c.slotAt mask (seen.length + (j + 1))) =
          fun j => c.slotAt mask ((seen ++ [v]).length + j) := by
        funext j
        rw [List.length_append, List.length_singleton, Nat.add_assoc, Nat.add_comm 1]
      rw [hslots] at hvs
      have hrest := ih (hvs.log (.peek (c.slotAt mask seen.length) (some v)))
      rw [Ring.logAll_log] at hrest
      have hsum : seen.length + (admitted accept (seen ++ [v]) vs + 1) =
          (seen ++ [v]).length + admitted accept (seen ++ [v]) vs := by
        rw [List.length_append, List.length_singleton]
        omega
      rw [List.take_succ_cons, peeks, hslots, hsum]
      exact hrest
    · simpa [peeks, Ring.logAll, Ring.log] using Prog.Yields.ret seen.length
        (r.log (.peek (c.slotAt mask seen.length) (some v)))

end Admitted

/-! ## The comparison -/

/-- The values of a window of the asked length. -/
theorem Consumer.Prefetched.values (h : c.Prefetched mask r) {n : Nat}
    (hn : n ≤ distance c.cachedTail c.head) :
    ∃ vs : List V, vs.length = n ∧ Reads r (c.slotAt mask) vs := by
  induction n with
  | zero => exact ⟨[], rfl, fun j v hj => by cases hj⟩
  | succ n ih =>
    obtain ⟨vs, hlen, hreads⟩ := ih (by omega)
    obtain ⟨v, hv⟩ := Option.isSome_iff_exists.mp (h.stored n (by omega))
    refine ⟨vs ++ [v], by simp [hlen], fun j u hj => ?_⟩
    rcases Nat.lt_trichotomy j n with hlt | rfl | hgt
    · exact hreads j u (by rwa [List.getElem?_append_left (by omega)] at hj)
    · rw [List.getElem?_append_right (by omega), hlen, Nat.sub_self] at hj
      cases hj
      exact hv
    · rw [List.getElem?_eq_none (by simp; omega)] at hj
      cases hj

theorem popInto_yields (hmask : LowBits mask) (hwin : c.Prefetched mask r) (limit : Nat)
    (output : List V) (hlen : vs.length = min limit (distance c.cachedTail c.head))
    (h : Reads r (c.slotAt mask) vs) :
    (c.popInto Ring.self mask limit output).Yields r (vs.length, output ++ vs, c.ahead vs.length)
      (r.logAll (takes (c.slotAt mask) vs)) := by
  have hfit : vs.length ≤ capacity mask := by
    have := hwin.fits
    omega
  unfold Consumer.popInto
  rw [Nat.min_comm, ← hlen]
  dsimp only
  split
  · next h₀ =>
    obtain rfl := List.length_eq_zero_iff.mp h₀
    simpa [takes, Consumer.ahead] using Prog.Yields.ret (0, output, c) r
  · exact (ringPopInto_yields output hmask hfit h).bind (.ret _ _)

theorem popIntoWhile_yields (hmask : LowBits mask) (hwin : c.Prefetched mask r)
    (accept : List V → V → Bool) (limit : Nat) (output : List V)
    (hlen : vs.length = min limit (distance c.cachedTail c.head))
    (h : Reads r (c.slotAt mask) vs) :
    (c.popIntoWhile Ring.self mask accept limit output).Yields r
      (admitted accept [] vs, output ++ vs.take (admitted accept [] vs),
        c.ahead (admitted accept [] vs))
      (r.logAll (peeks (c.slotAt mask) (vs.take (admitted accept [] vs + 1)) ++
        takes (c.slotAt mask) (vs.take (admitted accept [] vs)))) := by
  have hfit : vs.length ≤ capacity mask := by
    have := hwin.fits
    omega
  have hle : admitted accept [] vs ≤ vs.length := admitted_le
  have hmoved : (vs.take (admitted accept [] vs)).length = admitted accept [] vs := by simp [hle]
  unfold Consumer.popIntoWhile
  rw [Nat.min_comm, ← hlen]
  dsimp only
  split
  · next h₀ =>
    obtain rfl := List.length_eq_zero_iff.mp h₀
    simpa [admitted, takes, peeks, Consumer.ahead] using Prog.Yields.ret (0, output, c) r
  · have hseen : Reads r (fun j => c.slotAt mask (([] : List V).length + j)) vs := by simpa using h
    have hcount := acceptedPrefix_yields accept hseen
    simp only [List.length_nil, Nat.zero_add] at hcount
    refine hcount.bind ?_
    split
    · next h₀ =>
      rw [h₀]
      simpa [takes, Consumer.ahead] using Prog.Yields.ret (0, output, c) _
    · have hmove := ringPopInto_yields output hmask (by omega)
        ((h.take (admitted accept [] vs)).logAll
          (peeks (c.slotAt mask) (vs.take (admitted accept [] vs + 1))))
      rw [hmoved, Ring.logAll_logAll] at hmove
      exact hmove.bind (.ret _ _)

/-- **In every state the two threads of a ring reach, the window of an idle consumer is there.** -/
theorem prefetched_of_run {start : BitVec w} {wrapped : Bool} {size : Nat}
    (hnew : maskOf w size = some mask) {c : Config (Spsc w V) Side}
    (hrun : (system mask wrapped).Run System.always (initial start) c)
    (hidle : c.pool .consumer = none) (halive : c.st.rxAlive = true) :
    c.st.rx.Prefetched mask c.st.ring := by
  obtain ⟨hinv, hthreads⟩ := good_of_run hnew hrun
  have hthread := hthreads .consumer
  rw [hidle] at hthread
  have hat : c.st.rx.At start (c.st.answered .consumer) c.st.ring.trace := hthread.at_ halive
  have hd := hat.distance_eq hinv.ok
  have hle := hat.window_le hinv.ok
  refine ⟨by omega, fun j hj => ?_⟩
  rw [hat.head, count_add, hinv.ok.fits.index_eq]
  obtain ⟨k, hk, -⟩ := hinv.ok.fits.window
    (k := (c.st.answered .consumer).length + j) (by rw [hat.popped]; omega) (by omega)
  exact hk.2.1

/-- **Bulk moves equal repeated pops**, whatever the word width, the capacity, the cursors, the
    window, the limit and the predicate. `pop_into` answers with the values that many pops answer,
    after what was in the output, and leaves the same consumer and the same ring. `pop_into_while`
    does that with the longest prefix of those values the predicate accepts; it asks about each of
    them once, in order, then about the first one it rejects, which the next pop answers. -/
theorem bulk_moves_are_pops {size : Nat} (hnew : maskOf w size = some mask) (c : Consumer w)
    (r : Ring w V) (hwin : c.Prefetched mask r) (limit : Nat) (output : List V)
    (accept : List V → V → Bool) :
    ∃ (vs : List V) (c' : Consumer w) (r' : Ring w V),
      vs.length = min limit (distance c.cachedTail c.head) ∧
      (c.pops mask vs.length).Yields r (vs.map some, c') r' ∧
      (c.popInto Ring.self mask limit output).Yields r (vs.length, output ++ vs, c') r' ∧
      ∃ (n : Nat) (c₁ : Consumer w) (r₁ : Ring w V) (t : List (Event V)), n ≤ vs.length ∧
        (∀ i v, i < n → vs[i]? = some v → accept (vs.take i) v = true) ∧
        (∀ v, vs[n]? = some v → accept (vs.take n) v = false) ∧
        (c.pops mask n).Yields r ((vs.take n).map some, c₁) r₁ ∧
        (c.popIntoWhile Ring.self mask accept limit output).Yields r
          (n, output ++ vs.take n, c₁) { r₁ with trace := r.trace ++ t } ∧
        asked t = vs.take (n + 1) ∧
        ∀ v, vs[n]? = some v → ∃ c₂ r₂,
          (c₁.pop Ring.self mask).Yields { r₁ with trace := r.trace ++ t } (some v, c₂) r₂ := by
  have hmask := LowBits.of_maskOf hnew
  obtain ⟨vs, hlen, hreads⟩ := hwin.values (Nat.min_le_right limit _)
  have hle : vs.length ≤ distance c.cachedTail c.head := by omega
  refine ⟨vs, c.ahead vs.length, r.logAll (takes (c.slotAt mask) vs), hlen,
    pops_yields hle hreads, popInto_yields hmask hwin limit output hlen hreads,
    admitted accept [] vs, c.ahead (admitted accept [] vs),
    r.logAll (takes (c.slotAt mask) (vs.take (admitted accept [] vs))),
    peeks (c.slotAt mask) (vs.take (admitted accept [] vs + 1)) ++
      takes (c.slotAt mask) (vs.take (admitted accept [] vs)),
    admitted_le, fun i v hi hv => ?_, fun v hv => ?_, ?_,
    popIntoWhile_yields hmask hwin accept limit output hlen hreads, ?_, fun v hv => ?_⟩
  · simpa using accept_of_lt_admitted hi hv
  · simpa using accept_admitted hv
  · have hmoved : (vs.take (admitted accept [] vs)).length = admitted accept [] vs := by
      simp [admitted_le]
    have := pops_yields (hmoved.le.trans (admitted_le.trans hle))
      (hreads.take (admitted accept [] vs))
    rwa [hmoved] at this
  · rw [asked, List.filterMap_append, ← asked, ← asked, asked_peeks, asked_takes, List.append_nil]
  · have hlt := (List.getElem?_eq_some_iff.mp hv).1
    refine ⟨_, _, pop_yields ?_ ?_⟩
    · rw [Consumer.distance_ahead c (by omega)]
      omega
    · rw [Consumer.slotAt_ahead]
      exact hreads _ v hv

/-- A full window of two slots whose three-bit cursors are about to wrap. -/
def wrappingConsumer : Consumer 3 := ⟨7#3, 1#3⟩

def wrappingRing : Ring 3 Nat := { Ring.new 7#3 with buf := fun i => some (10 + i), tail := 1#3 }

theorem wrapping_bulk_moves_are_pops :
    wrappingConsumer.Prefetched 1#3 wrappingRing ∧
      ∃ (vs : List Nat) (c' : Consumer 3) (r' : Ring 3 Nat), vs.length = 2 ∧
        (wrappingConsumer.pops 1#3 vs.length).Yields wrappingRing (vs.map some, c') r' ∧
        (wrappingConsumer.popInto Ring.self 1#3 5 [9]).Yields wrappingRing
          (vs.length, [9] ++ vs, c') r' := by
  have hwin : wrappingConsumer.Prefetched 1#3 wrappingRing :=
    ⟨by decide, fun j _ => by simp [wrappingRing]⟩
  obtain ⟨vs, c', r', hlen, hpops, hinto, -⟩ := bulk_moves_are_pops
    (show maskOf 3 2 = some 1#3 by decide +kernel) wrappingConsumer wrappingRing hwin 5 [9]
    fun _ _ => true
  exact ⟨hwin, vs, c', r', hlen, hpops, hinto⟩

end Fanring.Yring
