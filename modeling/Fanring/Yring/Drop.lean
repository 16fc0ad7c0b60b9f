import Fanring.Yring.ConsumerSpec

/-!
# The end of a ring

`drop_remaining` walks from the published head to the published tail and drops what it finds. When
both endpoints have flushed and released, the walk meets exactly the values nobody popped
(`dropFrom_spec`), at whatever cursor values the words have come to; and since the head is advanced
first, draining again finds nothing (`dropRemaining_of_head_eq`).
-/

set_option autoImplicit false

namespace Fanring.Yring

open Cursor

variable {w : Nat} {V : Type}

/-- Everything flushed and released, and what is popped or destroyed so far. -/
structure Closed (t : List (Event V)) : Prop where
  flushed : (tally t).flushed = (tally t).accepted
  released : (tally t).released = (tally t).popped
  done : (tally t).popped ++ (tally t).destroyed <+: (tally t).accepted

/-- Every accepted value was popped or destroyed. -/
def Disposed (t : List (Event V)) : Prop :=
  (tally t).popped ++ (tally t).destroyed = (tally t).accepted

section Drop

variable {start mask : BitVec w}

theorem Ring.with_head {r : Ring w V} {b : BitVec w} (h : r.head = b) :
    { r with head := b } = r := by
  subst h
  rfl

@[simp] theorem Ring.dropFrom_head (tail i : BitVec w) (r : Ring w V) :
    (r.dropFrom mask tail i).head = r.head := by
  fun_induction Ring.dropFrom mask tail i r with
  | case1 => rfl
  | case2 _ _ _ ih => exact ih

/-- One value dropped in place: the walk stands at the first value not disposed of yet. -/
theorem destroy_step {k : Nat} {r : Ring w V}
    (hok : ({ r with head := count start k } : Ring w V).Ok start mask) (hc : Closed r.trace)
    (hk : (tally r.trace).popped.length + (tally r.trace).destroyed.length = k)
    (hlt : k < (tally r.trace).accepted.length) :
    ({ r.destroy (index mask (count start k)) with head := count start (k + 1) } :
        Ring w V).Ok start mask ∧
      Closed (r.destroy (index mask (count start k))).trace ∧
      (tally (r.destroy (index mask (count start k))).trace).popped.length +
        (tally (r.destroy (index mask (count start k))).trace).destroyed.length = k + 1 ∧
      (tally (r.destroy (index mask (count start k))).trace).accepted =
        (tally r.trace).accepted := by
  have h₁ := hok.fits.room
  have h₂ := hok.fits.seenHead_le
  have h₃ := hok.fits.released_le
  dsimp only at h₁ h₂ h₃
  have hholds := hok.fits.holds hlt (by dsimp only; omega)
  rw [hok.fits.index_eq]
  dsimp only at hholds
  have hbuf : r.buf (slot start (capacity mask) k) = some (tally r.trace).accepted[k] := by
    rw [hholds.2.2, List.getElem?_eq_getElem hlt]
  have hprefix : (tally r.trace).popped ++ ((tally r.trace).destroyed ++
      [(tally r.trace).accepted[k]]) <+: (tally r.trace).accepted := by
    have hlen : ((tally r.trace).popped ++ (tally r.trace).destroyed).length = k := by
      rw [List.length_append]
      exact hk
    have hnext := List.concat_get_prefix hc.done (by omega)
    simpa only [hlen, List.get_eq_getElem, List.append_assoc] using hnext
  refine ⟨?_, ⟨?_, ?_, ?_⟩, ?_, ?_⟩
  · refine hok.log (e := .destroy _ (r.buf _)) rfl ⟨k, hholds⟩ { hok.fits with head_eq := ?_ }
    simp only [Tally.add, hbuf, Option.toList_some, List.length_append, List.length_singleton,
      hc.released]
    congr 1
    omega
  · simpa [Ring.destroy, Ring.log, Tally.add] using hc.flushed
  · simpa [Ring.destroy, Ring.log, Tally.add] using hc.released
  · simpa [Ring.destroy, Ring.log, Tally.add, hbuf] using hprefix
  · simp only [Ring.destroy, Ring.log, tally_concat, Tally.add, hbuf, Option.toList_some,
      List.length_append, List.length_singleton]
    omega
  · simp [Ring.destroy, Ring.log, Tally.add]

/-- **The walk of `drop_remaining` disposes of everything from `k` on.** -/
theorem dropFrom_spec (start mask : BitVec w) (n : Nat) :
    ∀ (k : Nat) (r : Ring w V), ({ r with head := count start k } : Ring w V).Ok start mask →
      Closed r.trace → (tally r.trace).popped.length + (tally r.trace).destroyed.length = k →
      k + n = (tally r.trace).accepted.length →
      ({ r.dropFrom mask (count start (k + n)) (count start k) with
          head := count start (k + n) } : Ring w V).Ok start mask ∧
        Disposed (r.dropFrom mask (count start (k + n)) (count start k)).trace := by
  induction n with
  | zero =>
    intro k r hok hc hk hn
    rw [Nat.add_zero, Ring.dropFrom, if_pos rfl]
    refine ⟨hok, hc.done.eq_of_length ?_⟩
    rw [List.length_append]
    omega
  | succ n ih =>
    intro k r hok hc hk hn
    have hfit : k + (n + 1) < k + 2 ^ w := by
      have h₁ := hok.fits.room
      have h₂ := hok.fits.seenHead_le
      have h₃ := hok.fits.cap_lt
      have h₄ := hc.released
      dsimp only at h₁ h₂
      rw [h₄] at h₂
      omega
    have hne : count start k ≠ count start (k + (n + 1)) := fun he => by
      have := (count_inj start (by omega) hfit).mp he.symm
      omega
    rw [Ring.dropFrom, if_neg hne, count_succ]
    obtain ⟨hok', hc', hk', ha⟩ := destroy_step hok hc hk (by omega)
    have hlen : k + (n + 1) = k + 1 + n := by omega
    rw [hlen]
    exact ih (k + 1) _ hok' hc' hk' (by rw [ha]; omega)

theorem dropRemaining_spec {r : Ring w V} (hok : r.Ok start mask)
    (hf : (tally r.trace).flushed = (tally r.trace).accepted)
    (hr : (tally r.trace).released = (tally r.trace).popped)
    (hd : (tally r.trace).destroyed = []) :
    (r.dropRemaining mask).Ok start mask ∧ Disposed (r.dropRemaining mask).trace ∧
      (r.dropRemaining mask).head = r.tail := by
  obtain ⟨n, hn⟩ := Nat.exists_eq_add_of_le hok.fits.popped.length_le
  have htail : r.tail = count start ((tally r.trace).popped.length + n) := by
    rw [hok.fits.tail_eq, hf, hn]
  have hhead : r.head = count start (tally r.trace).popped.length := by
    rw [hok.fits.head_eq, hr, hd, List.length_nil, Nat.add_zero]
  have hclosed : Closed r.trace := ⟨hf, hr, by simpa [hd] using hok.fits.popped⟩
  have hstart : ({ r with head := count start (tally r.trace).popped.length } :
      Ring w V).Ok start mask := by
    rw [← hhead]
    exact hok
  obtain ⟨hok', hdone⟩ := dropFrom_spec start mask n (tally r.trace).popped.length
    { r with head := r.tail } hstart hclosed (by simp [hd]) hn.symm
  simp only [Ring.dropRemaining]
  rw [hhead]
  rw [← htail] at hok' hdone
  refine ⟨?_, hdone, by simp⟩
  rwa [Ring.with_head (by simp)] at hok'

@[simp] theorem Ring.dropFrom_tail (tail i : BitVec w) (r : Ring w V) :
    (r.dropFrom mask tail i).tail = r.tail := by
  fun_induction Ring.dropFrom mask tail i r with
  | case1 => rfl
  | case2 _ _ _ ih => exact ih

/-- A ring that was drained stays as it is when it is drained again. -/
theorem dropRemaining_of_head_eq {r : Ring w V} (h : r.head = r.tail) :
    r.dropRemaining mask = r := by
  rw [Ring.dropRemaining, Ring.dropFrom, if_pos h, Ring.with_head h]

/-- The drop of the ring, with or without the drain of a wrapper before it. -/
theorem drop_spec (wrapped : Bool) {r : Ring w V} (hok : r.Ok start mask)
    (hf : (tally r.trace).flushed = (tally r.trace).accepted)
    (hr : (tally r.trace).released = (tally r.trace).popped)
    (hd : (tally r.trace).destroyed = []) :
    (r.drop mask wrapped).Ok start mask ∧ Disposed (r.drop mask wrapped).trace ∧
      (r.drop mask wrapped).head = (r.drop mask wrapped).tail := by
  obtain ⟨hok', hdone, hhead⟩ := dropRemaining_spec hok hf hr hd
  have htail : (r.dropRemaining mask).tail = r.tail := by simp [Ring.dropRemaining]
  rw [← htail] at hhead
  have hdrop : r.drop mask wrapped = r.dropRemaining mask := by
    unfold Ring.drop
    split
    · exact dropRemaining_of_head_eq hhead
    · rfl
  rw [hdrop]
  exact ⟨hok', hdone, hhead⟩

/-- The walk changes no count but that of the destroyed values. -/
theorem tally_dropFrom (mask tail i : BitVec w) (r : Ring w V) :
    SameTx { tally r.trace with destroyed := (tally (r.dropFrom mask tail i).trace).destroyed }
        (tally (r.dropFrom mask tail i).trace) ∧
      SameRx { tally r.trace with destroyed := (tally (r.dropFrom mask tail i).trace).destroyed }
        (tally (r.dropFrom mask tail i).trace) := by
  fun_induction Ring.dropFrom mask tail i r with
  | case1 => exact ⟨⟨rfl, rfl, rfl, rfl, rfl⟩, rfl, rfl, rfl, rfl⟩
  | case2 _ r _ ih =>
    simp only [Ring.destroy, Ring.log, tally_concat, Tally.add] at ih ⊢
    exact ih

/-- So does the drop of the ring. -/
theorem tally_drop (mask : BitVec w) (wrapped : Bool) (r : Ring w V) :
    SameTx { tally r.trace with destroyed := (tally (r.drop mask wrapped).trace).destroyed }
        (tally (r.drop mask wrapped).trace) ∧
      SameRx { tally r.trace with destroyed := (tally (r.drop mask wrapped).trace).destroyed }
        (tally (r.drop mask wrapped).trace) := by
  have hstep : ∀ r : Ring w V, _ := fun r =>
    tally_dropFrom mask r.tail r.head { r with head := r.tail }
  unfold Ring.drop
  split
  · obtain ⟨htx, hrx⟩ := hstep r
    obtain ⟨htx', hrx'⟩ := hstep (r.dropRemaining mask)
    exact ⟨⟨htx'.accepted.trans htx.accepted, htx'.flushed.trans htx.flushed,
        htx'.seenHead.trans htx.seenHead, htx'.holder.trans htx.holder, rfl⟩,
      hrx'.popped.trans hrx.popped, hrx'.released.trans hrx.released,
      hrx'.seenTail.trans hrx.seenTail, rfl⟩
  · exact hstep r

theorem moved_drop (mask : BitVec w) (wrapped : Bool) (side : Side) (r : Ring w V) :
    (tally (r.drop mask wrapped).trace).moved side = (tally r.trace).moved side := by
  obtain ⟨htx, hrx⟩ := tally_drop mask wrapped r
  cases side with
  | producer => exact htx.accepted
  | consumer => exact hrx.popped

theorem trace_dropFrom (mask tail i : BitVec w) (r : Ring w V) :
    ∃ es, (r.dropFrom mask tail i).trace = r.trace ++ es := by
  fun_induction Ring.dropFrom mask tail i r with
  | case1 => exact ⟨[], by simp⟩
  | case2 _ r _ ih =>
    obtain ⟨es, hes⟩ := ih
    exact ⟨_, hes.trans (List.append_assoc ..)⟩

theorem trace_drop (mask : BitVec w) (wrapped : Bool) (r : Ring w V) :
    ∃ es, (r.drop mask wrapped).trace = r.trace ++ es := by
  have hstep : ∀ r : Ring w V, ∃ es, (r.dropRemaining mask).trace = r.trace ++ es := fun r =>
    trace_dropFrom mask r.tail r.head { r with head := r.tail }
  unfold Ring.drop
  split
  · obtain ⟨es, hes⟩ := hstep r
    obtain ⟨es', hes'⟩ := hstep (r.dropRemaining mask)
    exact ⟨es ++ es', by rw [hes', hes, List.append_assoc]⟩
  · exact hstep r

end Drop

end Fanring.Yring
