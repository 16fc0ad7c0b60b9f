import Fanring.Yring.Spec

/-!
# What the consumer's code does

The counterpart of the producer's specifications. The consumer's distance to the tail it has seen
is a true one, so every slot a pop or a bulk move reaches lies in the window: popped up to, and
below what was seen published. A bulk move is two contiguous runs of slots (`moveSlots_spec`), the
second from slot zero, and `runs` is why those are the slots of consecutive cursors.
-/

set_option autoImplicit false

namespace Fanring.Yring

open Conc Cursor

variable {w : Nat} {V σ α : Type}

/-- The values `P` were popped, out of a window up to `T`. -/
def Window (P : List V) (T : Nat) (t : List (Event V)) : Prop :=
  (tally t).popped = P ∧ (tally t).seenTail = T

theorem Window.local (P : List V) (T : Nat) : Local .consumer (Window P T) := by
  rintro t es hes ⟨hp, ht⟩
  have hsame := SameRx.of_by (t := t) hes
  exact ⟨hsame.popped ▸ hp, hsame.seenTail ▸ ht⟩

/-- The producer's accesses do not move the consumer's window. -/
theorem local_seenTail (p : Nat → Prop) :
    Local .consumer fun t : List (Event V) => p (tally t).seenTail := by
  intro t es hes h
  rw [(SameRx.of_by (t := t) hes).seenTail]
  exact h

/-- The values `P` were popped, and the consumer's two cursors are the ones of the trace. -/
structure Consumer.At (start : BitVec w) (P : List V) (c : Consumer w) (t : List (Event V)) :
    Prop where
  popped : (tally t).popped = P
  head : c.head = count start P.length
  cachedTail : c.cachedTail = count start (tally t).seenTail

theorem Consumer.At.local (start : BitVec w) (P : List V) (c : Consumer w) :
    Local .consumer (c.At start P) := by
  rintro t es hes ⟨hp, hh, ht⟩
  have hsame := SameRx.of_by (t := t) hes
  exact ⟨hsame.popped ▸ hp, hh, hsame.seenTail ▸ ht⟩

theorem Consumer.At.popped_le {start mask : BitVec w} {P : List V} {c : Consumer w}
    {r : Ring w V} (h : c.At start P r.trace) (hok : r.Ok start mask) :
    P.length ≤ (tally r.trace).seenTail := by
  have := hok.fits.popped_le
  rwa [h.popped] at this

/-- The window is never longer than the ring. -/
theorem Consumer.At.window_le {start mask : BitVec w} {P : List V} {c : Consumer w}
    {r : Ring w V} (h : c.At start P r.trace) (hok : r.Ok start mask) :
    (tally r.trace).seenTail ≤ P.length + capacity mask := by
  have h₁ := hok.fits.room
  have h₂ := hok.fits.seenHead_le
  have h₃ := hok.fits.released_le
  have h₄ := hok.fits.seenTail_le
  have h₅ := hok.fits.flushed_le
  rw [h.popped] at h₃
  omega

/-- The consumer's distance to the tail it has seen is a true one. -/
theorem Consumer.At.distance_eq {start mask : BitVec w} {P : List V} {c : Consumer w}
    {r : Ring w V} (h : c.At start P r.trace) (hok : r.Ok start mask) :
    distance c.cachedTail c.head = (tally r.trace).seenTail - P.length := by
  have h₁ := h.window_le hok
  have h₂ := hok.fits.cap_lt
  rw [distance, h.head, h.cachedTail]
  exact toNat_count_sub start (h.popped_le hok) (by omega)

theorem Consumer.At.head_eq_iff {start mask : BitVec w} {P : List V} {c : Consumer w}
    {r : Ring w V} (h : c.At start P r.trace) (hok : r.Ok start mask) :
    c.head = c.cachedTail ↔ (tally r.trace).seenTail = P.length := by
  have h₁ := h.window_le hok
  have h₂ := hok.fits.cap_lt
  rw [h.head, h.cachedTail, eq_comm]
  exact count_inj start (h.popped_le hok) (by omega)

/-- A store of the position to `head` releases everything popped. -/
theorem Consumer.At.release {start : BitVec w} {P : List V} {c : Consumer w}
    {t : List (Event V)} (h : c.At start P t) : c.At start P (t ++ [.release]) where
  popped := by simpa [Tally.add] using h.popped
  head := h.head
  cachedTail := by simpa [Tally.add] using h.cachedTail

theorem Consumer.At.storeHead {start mask : BitVec w} {P : List V} {c : Consumer w}
    {r : Ring w V} (h : c.At start P r.trace) (hok : r.Ok start mask)
    (hd : (tally r.trace).destroyed = []) :
    Fits start mask (r.storeHead c.head).2 ((tally r.trace).add .release) := by
  have := hok.fits.storeHead hd
  rwa [h.popped, ← h.head] at this

section Consumer

variable {C : Contract σ} {L : Lens σ (Ring w V)} {start mask : BitVec w} {free signs : Prop}
  {own : σ → Prop}

/-- Moving the next value of the window out of its slot. -/
theorem take_spec (E : Endpoint C L start mask .consumer free signs own) {P : List V} {T i : Nat}
    (hT : P.length < T) (hi : i = slot start (capacity mask) P.length) :
    Triple C (Held L own (Window P T)) (L.access (Ring.take i)) fun a =>
      Held L own fun t => ∃ v, a = some v ∧ Window (P ++ [v]) T t := by
  refine E.logged (e := fun r => .take i (r.buf i)) (Window.local P T) (fun a => ?_)
    (fun _ => ⟨rfl, ⟨rfl, rfl, rfl, rfl⟩, rfl, nofun, nofun⟩) fun r hok _ _ hp => ?_
  · rintro t es hes ⟨v, ha, hv⟩
    exact ⟨v, ha, Window.local _ T t es hes hv⟩
  · obtain ⟨hpopped, hseen⟩ := hp
    have hlt : (tally r.trace).popped.length < (tally r.trace).seenTail := by
      rw [hpopped, hseen]
      exact hT
    rw [← hpopped] at hi
    subst hi
    have hlaw := hok.fits.window le_rfl hlt
    obtain ⟨k, ⟨-, hsome, -⟩, -⟩ := hlaw
    obtain ⟨v, hv⟩ := Option.isSome_iff_exists.mp hsome
    refine ⟨hok.fits.window le_rfl hlt, hok.fits.take hlt, v, hv, ?_, ?_⟩
    · simp only [tally_concat, Tally.add, hv, Option.toList_some]
      rw [hpopped]
    · simp [Tally.add, hseen]

/-- **A pop answers the next published value**, or nothing when the window is used up. -/
theorem pop_spec (E : Endpoint C L start mask .consumer free signs own) (P : List V) (T : Nat)
    (c : Consumer w) :
    Triple C (Held L own fun t => c.At start P t ∧ (tally t).seenTail = T) (c.pop L mask) fun r =>
      Held L own fun t => r.2.At start (P ++ r.1.toList) t ∧ (tally t).seenTail = T ∧
        (r.1 = none → T = P.length) := by
  unfold Consumer.pop
  split
  · next hempty =>
    refine Triple.ret (E.stable ((Consumer.At.local start _ c).and
      ((local_seenTail (· = T)).and (Local.pure _)))) fun s hs h => ⟨h.1, ?_, h.2.2, fun _ => ?_⟩
    · simpa using h.2.1
    · exact h.2.2.symm.trans ((h.2.1.head_eq_iff (E.ok s hs)).mp hempty)
  · next hne =>
    rintro s hs ⟨hown, hat, hT⟩
    have hok := E.ok s hs
    have hlt : P.length < T := by
      have hle := hat.popped_le hok
      have hd := mt (hat.head_eq_iff hok).mpr hne
      omega
    have hix : index mask c.head = slot start (capacity mask) P.length := by
      rw [hat.head, hok.fits.index_eq]
    refine Triple.map (take_spec E hlt hix) ?_ s hs ⟨hown, hat.popped, hT⟩
    rintro a s' - ⟨hown', v, rfl, hpopped, hseen'⟩
    refine ⟨hown', ⟨hpopped, ?_, ?_⟩, hseen', fun hnone => absurd hnone (by simp)⟩
    · rw [hat.head, count_succ]
      simp
    · rw [hseen', ← hT]
      exact hat.cachedTail

/-! ## Bulk moves -/

/-- A run of slots that do not wrap. -/
theorem moveSlots_spec (E : Endpoint C L start mask .consumer free signs own) (T : Nat) :
    ∀ (len i : Nat) (P output : List V), P.length + len ≤ T →
      (∀ j < len, i + j = slot start (capacity mask) (P.length + j)) →
      Triple C (Held L own (Window P T)) (moveSlots L i len output) fun output' =>
        Held L own fun t => ∃ vs, output' = output ++ vs ∧ vs.length = len ∧
          Window (P ++ vs) T t
  | 0, i, P, output, _, _ => by
    refine Triple.ret (E.stable ?_) fun s _ h => h.imp fun t ht =>
      ⟨[], by simp, rfl, by simpa using ht⟩
    rintro t es hes ⟨vs, ho, hl, hw⟩
    exact ⟨vs, ho, hl, Window.local _ T t es hes hw⟩
  | len + 1, i, P, output, hT, hslots => by
    have hi : i = slot start (capacity mask) P.length := by simpa using hslots 0 (by omega)
    refine Triple.bind (take_spec E (by omega) hi) fun a => ?_
    refine Triple.given (φ := ∃ v, a = some v) (fun s _ h => ?_) ?_
    · obtain ⟨-, v, ha, -⟩ := h
      exact ⟨v, ha⟩
    rintro ⟨v, rfl⟩
    have hslots' : ∀ j < len, i + 1 + j = slot start (capacity mask) ((P ++ [v]).length + j) := by
      intro j hj
      have := hslots (j + 1) (by omega)
      rw [List.length_append, List.length_singleton, Nat.add_assoc, Nat.add_assoc,
        Nat.add_comm 1 j]
      exact this
    have ih := moveSlots_spec E T len (i + 1) (P ++ [v]) (output ++ [v]) (by simp; omega) hslots'
    refine ih.conseq (fun s _ h => h.imp ?_) fun output' s _ h => h.imp ?_
    · rintro t ⟨v', hv, hw⟩
      cases hv
      exact hw
    · rintro t ⟨vs, rfl, rfl, hw⟩
      exact ⟨v :: vs, by simp, by simp, by simpa using hw⟩

/-- The two runs of a bulk move are the slots of consecutive cursors. -/
theorem runs (start : BitVec w) {cap n count : Nat} (hcap : 0 < cap) (hcount : count ≤ cap) :
    let i := slot start cap n
    let first := min count (cap - i)
    (∀ j < first, i + j = slot start cap (n + j)) ∧
      ∀ j < count - first, 0 + j = slot start cap (n + first + j) := by
  have hi := slot_lt start hcap n
  refine ⟨fun j hj => ?_, fun j hj => ?_⟩
  · rw [slot_add, Nat.mod_eq_of_lt (by omega)]
  · have hfirst : min count (cap - slot start cap n) = cap - slot start cap n := by omega
    rw [hfirst] at hj ⊢
    rw [Nat.add_assoc, slot_add,
      show slot start cap n + (cap - slot start cap n + j) = cap + j by omega, Nat.add_mod_left,
      Nat.mod_eq_of_lt (by omega), Nat.zero_add]

theorem ringPopInto_spec (E : Endpoint C L start mask .consumer free signs own) (n : Nat)
    (output P : List V) (c : Consumer w) :
    Triple C (Held L own fun t => c.At start P t ∧ P.length + n ≤ (tally t).seenTail)
      (Ring.popInto L mask n output c) fun r => Held L own fun t =>
        ∃ vs, r.1 = output ++ vs ∧ vs.length = n ∧ r.2.At start (P ++ vs) t := by
  rintro s hs ⟨hown, hat, hn⟩
  have hok := E.ok s hs
  have hcount : n ≤ capacity mask := by
    have := hat.window_le hok
    omega
  have hix : index mask c.head = slot start (capacity mask) P.length := by
    rw [hat.head, hok.fits.index_eq]
  obtain ⟨hfirst, hsecond⟩ := runs start (n := P.length) (capacity_pos mask) hcount
  simp only [← hix] at hfirst hsecond
  refine Triple.bind (moveSlots_spec E (tally (L.get s).trace).seenTail _ _ P output (by omega)
    hfirst) (fun out₁ => ?_) s hs ⟨hown, hat.popped, rfl⟩
  -- the values of the first run fix where the second starts
  refine Triple.given (φ := ∃ vs, out₁ = output ++ vs ∧
    vs.length = min n (capacity mask - index mask c.head)) (fun s _ h => ?_) ?_
  · obtain ⟨-, vs, ho, hl, -⟩ := h
    exact ⟨vs, ho, hl⟩
  rintro ⟨vs, rfl, hvs⟩
  refine Triple.map ((moveSlots_spec E (tally (L.get s).trace).seenTail _ 0 (P ++ vs)
    (output ++ vs) (by rw [List.length_append]; omega) (fun j hj => ?_)).pre ?_) ?_
  · rw [List.length_append, hvs]
    exact hsecond j hj
  · rintro s' - ⟨hown', vs', ho, -, hw⟩
    rw [List.append_cancel_left ho] at *
    exact ⟨hown', hw⟩
  · rintro out₂ s' - ⟨hown', vs', ho, hl, hpopped, hseen⟩
    have hlen : (vs ++ vs').length = n := by
      rw [List.length_append]
      omega
    refine ⟨hown', vs ++ vs', by simpa using ho, hlen, ?_, ?_, ?_⟩
    · simpa using hpopped
    · rw [hat.head, count_add, List.length_append, hlen]
    · rw [hseen]
      exact hat.cachedTail

/-- What a bulk pop moved: the next values, and their number. -/
def Bulk (start : BitVec w) (P output : List V) (r : Nat × List V × Consumer w)
    (t : List (Event V)) : Prop :=
  ∃ vs, r.2.1 = output ++ vs ∧ vs.length = r.1 ∧ r.2.2.At start (P ++ vs) t

theorem Bulk.local (start : BitVec w) (P output : List V) (r : Nat × List V × Consumer w) :
    Local .consumer (Bulk start P output r) := by
  rintro t es hes ⟨vs, ho, hl, hat⟩
  exact ⟨vs, ho, hl, Consumer.At.local start _ _ t es hes hat⟩

theorem Bulk.none_spec (E : Endpoint C L start mask .consumer free signs own) (output P : List V)
    (c : Consumer w) : Triple C (Held L own (c.At start P)) (.ret (0, output, c)) fun r =>
      Held L own (Bulk start P output r) :=
  Triple.ret (E.stable (Bulk.local start P output _)) fun s _ h =>
    h.imp fun t ht => ⟨[], by simp, rfl, by simpa using ht⟩

theorem popInto_spec (E : Endpoint C L start mask .consumer free signs own) (limit : Nat)
    (output P : List V) (c : Consumer w) :
    Triple C (Held L own (c.At start P)) (c.popInto L mask limit output) fun r =>
      Held L own (Bulk start P output r) := by
  unfold Consumer.popInto
  dsimp only
  split
  · exact Bulk.none_spec E output P c
  · refine Triple.map ((ringPopInto_spec E _ output P c).pre fun s hs h => ⟨h.1, h.2, ?_⟩) ?_
    · have hd := h.2.distance_eq (E.ok s hs)
      have hle := h.2.popped_le (E.ok s hs)
      omega
    · rintro r s - ⟨hown, vs, ho, hl, hat⟩
      exact ⟨hown, vs, ho, hl, hat⟩

theorem peek_spec (E : Endpoint C L start mask .consumer free signs own) {P : List V} {T k : Nat}
    (hpopped : P.length ≤ k) (hk : k < T) :
    Triple C (Held L own (Window P T)) (L.access (Ring.peek (slot start (capacity mask) k)))
      fun _ => Held L own (Window P T) := by
  refine E.logged (e := fun r => .peek _ (r.buf _)) (Window.local P T) (fun _ => Window.local P T)
    (fun _ => ⟨rfl, ⟨rfl, rfl, rfl, rfl⟩, rfl, nofun, nofun⟩) fun r hok _ _ hp => ?_
  obtain ⟨hp, ht⟩ := hp
  refine ⟨hok.fits.window (by rwa [hp]) (by rwa [ht]), { hok.fits with }, ?_⟩
  simpa [Window, Tally.add] using ⟨hp, ht⟩

theorem acceptedPrefix_spec (E : Endpoint C L start mask .consumer free signs own)
    (hmask : LowBits mask) (accept : List V → V → Bool) (P : List V) (T : Nat) :
    ∀ (limit : Nat) (seen : List V), P.length + (seen.length + limit) ≤ T →
      Triple C (Held L own (Window P T))
        (acceptedPrefix L mask accept (count start P.length) limit seen) fun n =>
        Held L own fun t => n ≤ seen.length + limit ∧ Window P T t
  | 0, seen, _ => Triple.ret (E.stable ((Local.pure _).and (Window.local P T)))
      fun s _ h => h.imp fun t ht => ⟨le_rfl, ht⟩
  | limit + 1, seen, hT => by
    have hstop : Triple C (Held L own (Window P T)) (.ret seen.length) fun n =>
        Held L own fun t => n ≤ seen.length + (limit + 1) ∧ Window P T t :=
      Triple.ret (E.stable ((Local.pure _).and (Window.local P T)))
        fun s _ h => h.imp fun t ht => ⟨Nat.le_add_right _ _, ht⟩
    unfold acceptedPrefix
    rw [count_add, hmask.index]
    refine Triple.bind (peek_spec E (by omega) (by omega)) fun a => ?_
    cases a with
    | none => exact hstop
    | some v =>
      dsimp only
      split
      · have ih := acceptedPrefix_spec E hmask accept P T limit (seen ++ [v]) (by simp; omega)
        refine ih.post fun n s _ h => h.imp fun t ht => ⟨?_, ht.2⟩
        have := ht.1
        rw [List.length_append, List.length_singleton] at this
        omega
      · exact hstop

theorem popIntoWhile_spec (E : Endpoint C L start mask .consumer free signs own)
    (accept : List V → V → Bool) (limit : Nat) (output P : List V) (c : Consumer w) :
    Triple C (Held L own (c.At start P)) (c.popIntoWhile L mask accept limit output) fun r =>
      Held L own (Bulk start P output r) := by
  unfold Consumer.popIntoWhile
  dsimp only
  split
  · exact Bulk.none_spec E output P c
  · rintro s hs ⟨hown, hat⟩
    have hok := E.ok s hs
    have hd := hat.distance_eq hok
    have hle := hat.popped_le hok
    have hacc := acceptedPrefix_spec E hok.fits.bits accept P (tally (L.get s).trace).seenTail
      (min (distance c.cachedTail c.head) limit) [] (by simp; omega)
    rw [← hat.head] at hacc
    have hback : ∀ s', Held L own (Window P (tally (L.get s).trace).seenTail) s' →
        Held L own (c.At start P) s' := fun s' h =>
      h.imp fun t ht => ⟨ht.1, hat.head, ht.2 ▸ hat.cachedTail⟩
    refine Triple.bind hacc (fun n => ?_) s hs ⟨hown, hat.popped, rfl⟩
    split
    · exact (Bulk.none_spec E output P c).pre fun s' _ h => hback s' (h.imp fun t ht => ht.2)
    · refine Triple.map ((ringPopInto_spec E n output P c).pre fun s' _ h => ?_) ?_
      · obtain ⟨hown', hn, hw⟩ := h
        refine ⟨hown', (hback s' ⟨hown', hw⟩).2, ?_⟩
        rw [hw.2]
        simp only [List.length_nil, Nat.zero_add] at hn
        omega
      · rintro r s' - ⟨hown', vs, ho, hl, hat'⟩
        exact ⟨hown', vs, ho, hl, hat'⟩

/-! ## The window and the credit -/

/-- A load of `tail` sees everything the owner of the consumer knows to be published. -/
theorem loadTail_spec (E : Endpoint C L start mask .consumer free signs own) {n : Nat}
    (hn : ∀ s, C.inv s → own s → n ≤ (tally (L.get s).trace).flushed.length) (P : List V)
    (c : Consumer w) :
    Triple C (Held L own (c.At start P)) (L.access Ring.loadTail) fun tail =>
      Held L own fun t => ({ c with cachedTail := tail } : Consumer w).At start P t ∧
        n ≤ (tally t).seenTail := by
  refine E.logged (e := fun _ => .loadTail) (Consumer.At.local start P c)
    (fun _ => (Consumer.At.local start P _).and (local_seenTail (n ≤ ·)))
    (fun _ => ⟨rfl, ⟨rfl, rfl, rfl, rfl⟩, rfl, nofun, nofun⟩) fun r hok _ hown hp => ?_
  obtain ⟨s, hs, hown, rfl⟩ := hown
  refine ⟨trivial, hok.fits.loadTail, ⟨?_, hp.head, ?_⟩, ?_⟩
  · simpa [Tally.add] using hp.popped
  · simp [Tally.add, Ring.loadTail, hok.fits.tail_eq]
  · simpa [Tally.add] using hn s hs hown

theorem prefetch_spec (E : Endpoint C L start mask .consumer free signs own)
    (hsigns : signs) {n : Nat}
    (hn : ∀ s, C.inv s → own s → n ≤ (tally (L.get s).trace).flushed.length) (P : List V)
    (c : Consumer w) :
    Triple C (Held L own (c.At start P)) (c.prefetch L) fun r =>
      Held L own fun t => r.2.At start P t ∧ n ≤ (tally t).seenTail := by
  have hlocal : ∀ c' : Consumer w, Local .consumer fun t : List (Event V) =>
      c'.At start P t ∧ n ≤ (tally t).seenTail := fun c' =>
    (Consumer.At.local start P c').and (local_seenTail (n ≤ ·))
  have hret : ∀ (m : Nat) (c' : Consumer w), Triple C
      (Held L own fun t => c'.At start P t ∧ n ≤ (tally t).seenTail) (.ret (m, c')) fun r =>
        Held L own fun t => r.2.At start P t ∧ n ≤ (tally t).seenTail := fun m c' =>
    Triple.ret (E.stable (hlocal c')) fun _ _ h => h
  refine Triple.bind (loadTail_spec E hn P c) fun tail => ?_
  split
  · refine Triple.bind (E.register hsigns (hlocal _) .consumer) fun registered => ?_
    split
    · refine Triple.bind ((loadTail_spec E hn P { c with cachedTail := tail }).pre
        fun s _ h => h.imp fun t ht => ht.1) fun again => hret _ _
    · exact hret _ _
  · exact hret _ _

theorem release_spec (E : Endpoint C L start mask .consumer free signs own) (hfree : free)
    (P : List V) (c : Consumer w) :
    Triple C (Held L own (c.At start P)) (c.release L) fun _ => Held L own fun t =>
      c.At start P t ∧ (tally t).released = P := by
  refine E.logged (e := fun _ => .release) (Consumer.At.local start P c)
    (fun _ => (Consumer.At.local start P c).and fun t es hes h => ?_)
    (fun _ => ⟨rfl, ⟨rfl, rfl, rfl, rfl⟩, rfl, nofun, fun _ => hfree⟩) fun r hok hd _ hp => ?_
  · rw [(SameRx.of_by (t := t) hes).released, h]
  · refine ⟨trivial, hp.storeHead hok hd, hp.release, ?_⟩
    simpa [Tally.add] using hp.popped

theorem releaseWithFull_spec (E : Endpoint C L start mask .consumer free signs own)
    (hsigns : signs) (hfree : free) (P : List V)
    (c : Consumer w) :
    Triple C (Held L own (c.At start P)) (c.releaseWithFull L mask) fun _ =>
      Held L own (c.At start P) := by
  have hlocal := Consumer.At.local start P c
  refine Triple.bind (E.enable hsigns hlocal .producer) fun _ => ?_
  refine Triple.bind (E.silent hlocal (fun _ => ⟨rfl, rfl, rfl, rfl⟩)
    fun _ => .inr ⟨rfl, rfl, rfl, rfl⟩) fun publishedHead => ?_
  split
  · exact Triple.ret (E.stable hlocal) fun _ _ h => h
  · refine Triple.bind ((release_spec E hfree P c).post fun _ s _ h => h.imp fun t ht => ht.1)
      fun _ => ?_
    exact E.waiterTake hsigns hlocal .producer _

theorem closeConsumer_spec (E : Endpoint C L start mask .consumer free signs own)
    (hsigns : signs) (hfree : free) (P : List V)
    (c : Consumer w) :
    Triple C (Held L own (c.At start P)) (c.close L) fun _ => Held L own fun t =>
      c.At start P t ∧ (tally t).released = P := by
  refine Triple.bind (release_spec E hfree P c) fun _ => ?_
  refine E.silent ((Consumer.At.local start P c).and fun t es hes h => ?_)
    (fun _ => ⟨rfl, rfl, rfl, rfl⟩) fun _ => .inl hsigns
  rw [(SameRx.of_by (t := t) hes).released, h]

end Consumer

end Fanring.Yring
