import Fanring.Conc.Logic
import Fanring.Yring.Inv

/-!
# What the endpoints' code does

One specification for each function of the two endpoints, stated over the trace. The functions run
among other code in more than one system, so nothing here says which: an `Endpoint` is a contract
under which a ring keeps `Ring.Ok`, whatever owns the endpoint may make its accesses, and in the
meantime only the other endpoint makes any. `Held own P` is then the whole of an assertion: the
endpoint is owned and the trace satisfies `P`, where `P` survives the other endpoint's accesses
(`Local`).
-/

set_option autoImplicit false

namespace Fanring.Yring

open Conc Cursor

variable {w : Nat} {V σ α : Type}

/-- The accesses that publish a cursor. -/
def Event.publishes : Event V → Bool
  | .flush | .release => true
  | _ => false

/-- The accesses of one endpoint, those that publish only where they are `free` to. -/
def Allowed (side : Side) (free : Prop) (e : Event V) : Prop :=
  e.side = some side ∧ e ≠ .teardown ∧ (e.publishes = true → free)

/-- The waiters and the flags of a ring are as they were. -/
structure SameFlags (r r' : Ring w V) : Prop where
  producerWaiting : r'.producerWaiting = r.producerWaiting
  consumerWaiting : r'.consumerWaiting = r.consumerWaiting
  producerDropped : r'.producerDropped = r.producerDropped
  consumerDropped : r'.consumerDropped = r.consumerDropped

/-- The code that owns one endpoint of the ring may make its accesses under the contract, and set
    waiters and flags if it `signs`. -/
structure Endpoint (C : Contract σ) (L : Lens σ (Ring w V)) (start mask : BitVec w) (side : Side)
    (free signs : Prop) (own : σ → Prop) : Prop where
  get_set : ∀ r s, L.get (L.set r s) = r
  ok : ∀ s, C.inv s → (L.get s).Ok start mask
  /-- The ring is not dropped while an endpoint is owned. -/
  live : ∀ s, C.inv s → own s → (tally (L.get s).trace).destroyed = []
  rely : ∀ s s', C.inv s → C.inv s' → C.rely s s' → own s →
    own s' ∧ ∃ es, (L.get s').trace = (L.get s).trace ++ es ∧ By side.other es
  keep : ∀ s r es, C.inv s → own s → r.Ok start mask → r.trace = (L.get s).trace ++ es →
    (∀ e ∈ es, Allowed side free e) → signs ∨ SameFlags (L.get s) r →
    C.inv (L.set r s) ∧ C.guar s (L.set r s) ∧ own (L.set r s)

/-- The other endpoint's accesses do not make it false. -/
def Local (side : Side) (P : List (Event V) → Prop) : Prop :=
  ∀ t es, By side.other es → P t → P (t ++ es)

theorem Local.and {side : Side} {P Q : List (Event V) → Prop} (hP : Local side P)
    (hQ : Local side Q) : Local side fun t => P t ∧ Q t :=
  fun t es hes h => ⟨hP t es hes h.1, hQ t es hes h.2⟩

theorem Local.imp {side : Side} {p : Prop} {P : List (Event V) → Prop} (hP : Local side P) :
    Local side fun t => p → P t :=
  fun t es hes h hp => hP t es hes (h hp)

theorem Local.pure {side : Side} (p : Prop) : Local side fun _ : List (Event V) => p :=
  fun _ _ _ h => h

theorem moved_local (side : Side) (vs : List V) :
    Local side fun t => (tally t).moved side = vs :=
  fun _ _ hes h => (moved_append hes).trans h

/-- The endpoint is owned, and the trace is as `P` says. -/
def Held (L : Lens σ (Ring w V)) (own : σ → Prop) (P : List (Event V) → Prop) (s : σ) : Prop :=
  own s ∧ P (L.get s).trace

section Rules

variable {C : Contract σ} {L : Lens σ (Ring w V)} {start mask : BitVec w} {side : Side}
  {free signs : Prop} {own : σ → Prop}

theorem Held.imp {P Q : List (Event V) → Prop} {s : σ} (h : Held L own P s)
    (hPQ : ∀ t, P t → Q t) : Held L own Q s :=
  ⟨h.1, hPQ _ h.2⟩

namespace Endpoint

theorem owned (E : Endpoint C L start mask side free signs own) : C.Stable own :=
  fun s s' hs hs' hr h => (E.rely s s' hs hs' hr h).1

theorem stable (E : Endpoint C L start mask side free signs own) {P : List (Event V) → Prop}
    (hP : Local side P) : C.Stable (Held L own P) := by
  rintro s s' hs hs' hr ⟨hown, hp⟩
  obtain ⟨hown', es, ht, hes⟩ := E.rely s s' hs hs' hr hown
  exact ⟨hown', ht ▸ hP _ es hes hp⟩

/-- One access of the endpoint. -/
theorem access (E : Endpoint C L start mask side free signs own) {f : Ring w V → α × Ring w V}
    {P : List (Event V) → Prop} {Q : α → List (Event V) → Prop} (hP : Local side P)
    (hQ : ∀ a, Local side (Q a))
    (h : ∀ r, r.Ok start mask → (tally r.trace).destroyed = [] →
      (∃ s, C.inv s ∧ own s ∧ L.get s = r) → P r.trace → (f r).2.Ok start mask ∧
        (signs ∨ SameFlags r (f r).2) ∧
        (∃ es, (f r).2.trace = r.trace ++ es ∧ ∀ e ∈ es, Allowed side free e) ∧
        Q (f r).1 (f r).2.trace) :
    Triple C (Held L own P) (L.access f) fun a => Held L own (Q a) := by
  refine Triple.atomic (E.stable hP) (fun a => E.stable (hQ a)) fun s _ hs hp _ => ?_
  obtain ⟨hown, hp⟩ := hp
  obtain ⟨hok, hflags, ⟨es, ht, hes⟩, hq⟩ := h (L.get s) (E.ok s hs) (E.live s hs hown)
    ⟨s, hs, hown, rfl⟩ hp
  obtain ⟨hi, hg, hown'⟩ := E.keep s _ es hs hown hok ht hes hflags
  refine ⟨hi, hg, hown', ?_⟩
  rw [E.get_set]
  exact hq

/-- An access that leaves no trace, in the words and slots or in the order of the accesses. -/
theorem silent (E : Endpoint C L start mask side free signs own) {f : Ring w V → α × Ring w V}
    {P : List (Event V) → Prop} (hP : Local side P)
    (hf : ∀ r, (f r).2.trace = r.trace ∧ (f r).2.buf = r.buf ∧ (f r).2.head = r.head ∧
      (f r).2.tail = r.tail) (hflags : ∀ r, signs ∨ SameFlags r (f r).2) :
    Triple C (Held L own P) (L.access f) fun _ => Held L own P := by
  refine E.access hP (fun _ => hP) fun r hok _ _ hp => ?_
  obtain ⟨ht, hb, hh, htl⟩ := hf r
  exact ⟨hok.silent ht hb hh htl, hflags r, ⟨[], by simp [ht], fun _ h => absurd h (by simp)⟩,
    ht ▸ hp⟩

/-- One access that the trace records. -/
theorem logged (E : Endpoint C L start mask side free signs own) {f : Ring w V → α × Ring w V}
    {e : Ring w V → Event V} {P : List (Event V) → Prop} {Q : α → List (Event V) → Prop}
    (hP : Local side P) (hQ : ∀ a, Local side (Q a))
    (hf : ∀ r, (f r).2.trace = r.trace ++ [e r] ∧ SameFlags r (f r).2 ∧ Allowed side free (e r))
    (h : ∀ r, r.Ok start mask → (tally r.trace).destroyed = [] →
      (∃ s, C.inv s ∧ own s ∧ L.get s = r) → P r.trace →
      Lawful (capacity mask) r.trace (e r) ∧ Fits start mask (f r).2 ((tally r.trace).add (e r)) ∧
        Q (f r).1 (r.trace ++ [e r])) :
    Triple C (Held L own P) (L.access f) fun a => Held L own (Q a) := by
  refine E.access hP hQ fun r hok hd hown hp => ?_
  obtain ⟨ht, hflags, hcan⟩ := hf r
  obtain ⟨hlaw, hfits, hq⟩ := h r hok hd hown hp
  exact ⟨hok.log ht hlaw hfits, .inr hflags, ⟨[e r], ht, by simpa using hcan⟩, ht ▸ hq⟩

/-! ## Wake hints leave no trace -/

theorem waiter (E : Endpoint C L start mask side free signs own) (hsigns : signs)
    {P : List (Event V) → Prop} (hP : Local side P) (side' : Side) (f : Waiter → α × Waiter) :
    Triple C (Held L own P) (Waiter.access L side' f) fun _ => Held L own P :=
  E.silent hP (fun r => by cases side' <;> exact ⟨rfl, rfl, rfl, rfl⟩) fun _ => .inl hsigns

theorem done (E : Endpoint C L start mask side free signs own) {P : List (Event V) → Prop}
    (hP : Local side P) (a : α) : Triple C (Held L own P) (.ret a) fun _ => Held L own P :=
  Triple.ret (E.stable hP) fun _ _ h => h

theorem enable (E : Endpoint C L start mask side free signs own) (hsigns : signs)
    {P : List (Event V) → Prop} (hP : Local side P) (side' : Side) :
    Triple C (Held L own P) (Waiter.enable L side') fun _ => Held L own P := by
  refine Triple.bind (E.waiter hsigns hP side' _) fun enabled => ?_
  split
  · exact E.done hP ()
  · exact E.waiter hsigns hP side' _

theorem register (E : Endpoint C L start mask side free signs own) (hsigns : signs)
    {P : List (Event V) → Prop} (hP : Local side P) (side' : Side) :
    Triple C (Held L own P) (Waiter.register L side') fun _ => Held L own P := by
  refine Triple.bind (E.waiter hsigns hP side' _) fun enabled => ?_
  split
  · refine Triple.bind (E.waiter hsigns hP side' _) fun _ => ?_
    exact Triple.bind (E.waiter hsigns hP side' _) fun _ => E.done hP true
  · exact E.done hP false

theorem waiterTake (E : Endpoint C L start mask side free signs own) (hsigns : signs)
    {P : List (Event V) → Prop} (hP : Local side P) (side' : Side) (observed : Bool) :
    Triple C (Held L own P) (Waiter.take L side' observed) fun _ => Held L own P := by
  unfold Waiter.take
  split
  · exact E.waiter hsigns hP side' _
  · refine Triple.bind (E.waiter hsigns hP side' _) fun armed => ?_
    split <;> exact E.waiter hsigns hP side' _

end Endpoint

end Rules

/-! ## The producer -/

/-- The values `A` were accepted and the values `F` flushed, and the producer's two cursors are the
    ones of the trace. -/
structure Producer.At (start : BitVec w) (A F : List V) (p : Producer w) (t : List (Event V)) :
    Prop where
  accepted : (tally t).accepted = A
  flushed : (tally t).flushed = F
  cursor : p.cursor = count start A.length
  cachedHead : p.cachedHead = count start (tally t).seenHead

theorem Producer.At.local (start : BitVec w) (A F : List V) (p : Producer w) :
    Local .producer (p.At start A F) := by
  rintro t es hes ⟨ha, hf, hc, hh⟩
  have hsame := SameTx.of_by (t := t) hes
  exact ⟨hsame.accepted ▸ ha, hsame.flushed ▸ hf, hc, hsame.seenHead ▸ hh⟩

/-- A store of the cursor to `tail` publishes everything accepted. -/
theorem Producer.At.flush {start : BitVec w} {A F : List V} {p : Producer w} {t : List (Event V)}
    (h : p.At start A F t) : p.At start A A (t ++ [.flush]) where
  accepted := by simpa [Tally.add] using h.accepted
  flushed := by simpa [Tally.add] using h.accepted
  cursor := h.cursor
  cachedHead := by simpa [Tally.add] using h.cachedHead

theorem Producer.At.storeTail {start mask : BitVec w} {A F : List V} {p : Producer w}
    {r : Ring w V} (h : p.At start A F r.trace) (hok : r.Ok start mask) :
    Fits start mask (r.storeTail p.cursor).2 ((tally r.trace).add .flush) := by
  have := hok.fits.storeTail
  rwa [h.accepted, ← h.cursor] at this

theorem Refused.local (cap : Nat) (v : V) (n : Nat) : Local .producer (Refused cap v n) :=
  fun _ _ hes h => h.append hes

/-- The producer's distance to the head it has seen is a true one. -/
theorem Producer.At.full_iff {start mask : BitVec w} {A F : List V} {p : Producer w} {r : Ring w V}
    (h : p.At start A F r.trace) (hok : r.Ok start mask) :
    p.full mask = true ↔ (tally r.trace).seenHead + capacity mask ≤ A.length := by
  have h₁ := hok.fits.room
  have h₂ := hok.fits.cap_lt
  have h₃ := hok.fits.seenHead_le
  have h₄ := hok.fits.released_le
  have h₅ := hok.fits.popped.length_le
  rw [h.accepted] at h₁ h₅
  have hd : distance p.cursor p.cachedHead = A.length - (tally r.trace).seenHead := by
    rw [distance, h.cursor, h.cachedHead]
    exact toNat_count_sub start (by omega) (by omega)
  simp only [Producer.full, hd, decide_eq_true_eq]
  have := capacity_pos mask
  omega

section Producer

variable {C : Contract σ} {L : Lens σ (Ring w V)} {start mask : BitVec w} {free signs : Prop}
  {own : σ → Prop}

/-- The code that owns the endpoint runs after the first `n` accesses. -/
def Since (C : Contract σ) (L : Lens σ (Ring w V)) (own : σ → Prop) (n : Nat) : Prop :=
  ∀ s, C.inv s → own s → n ≤ (L.get s).trace.length

theorem Since.zero (C : Contract σ) (L : Lens σ (Ring w V)) (own : σ → Prop) :
    Since C L own 0 :=
  fun _ _ _ => Nat.zero_le _

theorem loadHead_spec (E : Endpoint C L start mask .producer free signs own) {n : Nat}
    (hn : Since C L own n) (pushing : Option V) (A F : List V) (p : Producer w) :
    Triple C (Held L own (p.At start A F)) (L.access (Ring.loadHead pushing)) fun head =>
      Held L own fun t => ({ p with cachedHead := head } : Producer w).At start A F t ∧
        (({ p with cachedHead := head } : Producer w).full mask = true →
          ∀ v, pushing = some v → Refused (capacity mask) v n t) := by
  refine E.logged (e := fun _ => .loadHead pushing) (Producer.At.local start A F p)
    (fun head => (Producer.At.local start A F _).and
      (Local.imp fun t es hes h v hv => (h v hv).append hes))
    (fun _ => ⟨rfl, ⟨rfl, rfl, rfl, rfl⟩, rfl, nofun, nofun⟩) fun r hok hd hown hp => ?_
  have hat : ({ p with cachedHead := r.head } : Producer w).At start A F
      (r.trace ++ [.loadHead pushing]) := by
    refine ⟨?_, ?_, hp.cursor, ?_⟩
    · simpa [Tally.add] using hp.accepted
    · simpa [Tally.add] using hp.flushed
    · simp [Tally.add, hok.fits.head_eq, hd]
  refine ⟨trivial, hok.fits.loadHead pushing, hat, fun hfull v hv => ?_⟩
  have hok' : (r.loadHead pushing).2.Ok start mask :=
    hok.log (e := .loadHead pushing) rfl trivial (hok.fits.loadHead pushing)
  have hle := (Producer.At.full_iff (r := (r.loadHead pushing).2) hat hok').mp hfull
  have hroom := hok.fits.room
  have hseen := hok.fits.seenHead_le
  rw [hp.accepted] at hroom
  simp only [Ring.loadHead, Ring.log, tally_concat, Tally.add] at hle
  obtain ⟨s, hs, hown, rfl⟩ := hown
  refine ⟨(L.get s).trace, [], by rw [hv], hn s hs hown, fun e he => absurd he (by simp), ?_⟩
  rw [hp.accepted]
  omega

/-- After a reload that leaves it full, the ring was full at the load. -/
theorem refresh_spec (E : Endpoint C L start mask .producer free signs own) {n : Nat}
    (hn : Since C L own n) (pushing : Option V) (A F : List V) (p : Producer w) :
    Triple C (Held L own (p.At start A F)) (p.refresh L mask pushing) fun p' =>
      Held L own fun t => p'.At start A F t ∧
        (p'.full mask = true → ∀ v, pushing = some v → Refused (capacity mask) v n t) := by
  unfold Producer.refresh
  split
  · exact Triple.map (loadHead_spec E hn pushing A F p) fun _ _ _ h => h
  · next hnot =>
    refine Triple.ret (E.stable ((Producer.At.local start A F p).and
      (Local.imp fun t es hes h v hv => (h v hv).append hes))) fun s _ h => ?_
    exact h.imp fun t ht => ⟨ht, fun hfull => absurd hfull hnot⟩

theorem write_spec (E : Endpoint C L start mask .producer free signs own) (v : V) (A F : List V)
    (p : Producer w) (hroom : ¬ p.full mask = true) :
    Triple C (Held L own (p.At start A F)) (L.access (Ring.write (index mask p.cursor) v)) fun _ =>
      Held L own (({ p with cursor := p.cursor + 1 } : Producer w).At start (A ++ [v]) F) := by
  refine E.logged (e := fun _ => .write (index mask p.cursor) v) (Producer.At.local start A F p)
    (fun _ => Producer.At.local start _ _ _)
    (fun _ => ⟨rfl, ⟨rfl, rfl, rfl, rfl⟩, rfl, nofun, nofun⟩) fun r hok _ _ hp => ?_
  have hlt : (tally r.trace).accepted.length < (tally r.trace).seenHead + capacity mask := by
    by_contra hle
    rw [hp.accepted] at hle
    exact hroom ((hp.full_iff hok).mpr (by omega))
  have hix : index mask p.cursor = slot start (capacity mask) (tally r.trace).accepted.length := by
    rw [hp.cursor, hp.accepted, hok.fits.index_eq]
  refine ⟨?_, ?_, ?_, ?_, ?_, ?_⟩
  · refine ⟨fun k hk => ?_, hlt.trans_le (Nat.add_le_add_right hok.fits.seenHead_le _)⟩
    rw [hix] at hk
    exact hok.fits.write_lawful hlt hk
  · rw [hix]
    exact hok.fits.write v hlt
  · simp [Tally.add, hp.accepted]
  · simp [Tally.add, hp.flushed]
  · rw [hp.cursor, count_succ, List.length_append, List.length_singleton]
  · simp [Tally.add, hp.cachedHead]

/-- **A push writes at its cursor, or found the ring full.** -/
theorem ringPush_spec (E : Endpoint C L start mask .producer free signs own) {n : Nat}
    (hn : Since C L own n) (v : V) (A F : List V) (p : Producer w) :
    Triple C (Held L own (p.At start A F)) (Ring.push L mask v p) fun r => Held L own fun t =>
      if r.1 then r.2.At start (A ++ [v]) F t
      else r.2.At start A F t ∧ Refused (capacity mask) v n t := by
  refine Triple.bind (refresh_spec E hn (some v) A F p) fun p' => ?_
  split
  · next hfull =>
    refine Triple.ret (E.stable ((Producer.At.local start A F p').and (Refused.local _ v n)))
      fun s _ h => h.imp fun t ht => ⟨ht.1, ht.2 hfull v rfl⟩
  · next hroom =>
    exact Triple.map ((write_spec E v A F p' hroom).pre fun s _ h => h.imp fun t ht => ht.1)
      fun _ _ _ h => h

/-- The answer of a push, and where it leaves the producer: the value is accepted, or it comes back
    and the ring was full at a load of `head` made since access number `n`. -/
def Pushed (start mask : BitVec w) (A F : List V) (v : V) (n : Nat) (G : List V)
    (answer : Except V Unit) (p : Producer w) (t : List (Event V)) : Prop :=
  match answer with
  | .ok _ => p.At start (A ++ [v]) G t
  | .error v' => v' = v ∧ p.At start A F t ∧ Refused (capacity mask) v n t

theorem Pushed.local (start mask : BitVec w) (A F : List V) (v : V) (n : Nat) (G : List V)
    (answer : Except V Unit) (p : Producer w) :
    Local .producer (Pushed start mask A F v n G answer p) := by
  cases answer with
  | ok _ => exact Producer.At.local start _ G p
  | error v' =>
    exact (Local.pure _).and ((Producer.At.local start A F p).and (Refused.local _ v n))

theorem push_spec (E : Endpoint C L start mask .producer free signs own) (hsigns : signs)
    {n : Nat} (hn : Since C L own n) (v : V) (A F : List V) (p : Producer w) :
    Triple C (Held L own (p.At start A F)) (p.push L mask v) fun r =>
      Held L own (Pushed start mask A F v n F r.1 r.2) := by
  have hok : ∀ p' : Producer w, Triple C (Held L own (p'.At start (A ++ [v]) F))
      (.ret (.ok (), p')) fun r => Held L own (Pushed start mask A F v n F r.1 r.2) := fun p' =>
    Triple.ret (E.stable (Pushed.local start mask A F v n F (.ok ()) p')) fun s _ h => h
  have herror : ∀ p' : Producer w,
      Triple C (Held L own fun t => p'.At start A F t ∧ Refused (capacity mask) v n t)
        (.ret (.error v, p')) fun r => Held L own (Pushed start mask A F v n F r.1 r.2) :=
    fun p' => Triple.ret (E.stable (Pushed.local start mask A F v n F (.error v) p'))
      fun s _ h => h.imp fun t ht => ⟨rfl, ht⟩
  refine Triple.bind (ringPush_spec E hn v A F p) fun r => ?_
  obtain ⟨ok, p'⟩ := r
  cases ok
  · refine Triple.bind (E.register hsigns
      ((Producer.At.local start A F p').and (Refused.local _ v n)) .producer) fun registered => ?_
    cases registered
    · exact herror p'
    · refine Triple.bind ((ringPush_spec E hn v A F p').pre fun s _ h => h.imp fun t ht => ht.1)
        fun r => ?_
      obtain ⟨ok, p''⟩ := r
      cases ok
      · exact herror p''
      · exact hok p''
  · exact hok p'

theorem flush_spec (E : Endpoint C L start mask .producer free signs own) (hfree : free)
    (A F : List V) (p : Producer w) :
    Triple C (Held L own (p.At start A F)) (p.flush L) fun _ => Held L own (p.At start A A) :=
  E.logged (e := fun _ => .flush) (Producer.At.local start A F p)
    (fun _ => Producer.At.local start A A p)
    (fun _ => ⟨rfl, ⟨rfl, rfl, rfl, rfl⟩, rfl, nofun, fun _ => hfree⟩)
    fun _ hok _ _ hp => ⟨trivial, hp.storeTail hok, hp.flush⟩

/-- A load of the producer's own `tail` or of a flag. -/
theorem txRead_spec (E : Endpoint C L start mask .producer free signs own) (A F : List V)
    (p : Producer w)
    (f : Ring w V → α) :
    Triple C (Held L own (p.At start A F)) (L.access fun r => (f r, r)) fun _ =>
      Held L own (p.At start A F) :=
  E.silent (Producer.At.local start A F p) (fun _ => ⟨rfl, rfl, rfl, rfl⟩)
    fun _ => .inr ⟨rfl, rfl, rfl, rfl⟩

theorem flushAndCheck_spec (E : Endpoint C L start mask .producer free signs own)
    (hsigns : signs) (hfree : free) (A F : List V)
    (p : Producer w) :
    Triple C (Held L own (p.At start A F)) (p.flushAndCheck L) fun r =>
      Held L own fun t => ∃ F', r.2.At start A F' t := by
  refine Triple.bind (E.enable hsigns (Producer.At.local start A F p) .consumer) fun _ => ?_
  refine Triple.bind (txRead_spec E A F p _) fun prevTail => ?_
  split
  · refine Triple.ret (E.stable fun t es hes ⟨F', h⟩ =>
      ⟨F', Producer.At.local start A F' p t es hes h⟩)
      fun _ _ h => h.imp fun t ht => ⟨F, ht⟩
  · refine Triple.bind (loadHead_spec E (.zero C L own) none A F p) fun head => ?_
    refine Triple.bind ((flush_spec E hfree A F { p with cachedHead := head }).pre
      fun s _ h => h.imp fun t ht => ht.1) fun _ => ?_
    exact Triple.map (E.waiterTake hsigns (Producer.At.local start A A _) .consumer _)
      fun _ _ _ h => h.imp fun t ht => ⟨A, ht⟩

theorem isFull_spec (E : Endpoint C L start mask .producer free signs own)
    (hsigns : signs) (A F : List V) (p : Producer w) :
    Triple C (Held L own (p.At start A F)) (p.isFull L mask) fun r =>
      Held L own (r.2.At start A F) := by
  have hret : ∀ (b : Bool) (p' : Producer w), Triple C (Held L own (p'.At start A F))
      (.ret (b, p')) fun r => Held L own (r.2.At start A F) := fun b p' =>
    Triple.ret (E.stable (Producer.At.local start A F p')) fun _ _ h => h
  have hfresh : ∀ p' : Producer w, Triple C (Held L own (p'.At start A F))
      (p'.refresh L mask none) fun p'' => Held L own (p''.At start A F) := fun p' =>
    (refresh_spec E (.zero C L own) none A F p').post fun _ s _ h => h.imp fun t ht => ht.1
  refine Triple.bind (hfresh p) fun p' => ?_
  split
  · refine Triple.bind (E.register hsigns (Producer.At.local start A F p') .producer)
      fun registered => ?_
    split
    · exact Triple.bind (hfresh p') fun p'' => hret _ p''
    · exact hret true p'
  · exact hret false p'

theorem pushAndFlush_spec (E : Endpoint C L start mask .producer free signs own)
    (hsigns : signs) (hfree : free) {n : Nat} (hn : Since C L own n) (v : V) (A F : List V)
    (p : Producer w) :
    Triple C (Held L own (p.At start A F)) (p.pushAndFlush L mask v) fun r =>
      Held L own (Pushed start mask A F v n (A ++ [v]) r.1 r.2) := by
  refine Triple.bind (push_spec E hsigns hn v A F p) fun r => ?_
  obtain ⟨answer, p'⟩ := r
  cases answer with
  | ok _ => exact Triple.map (flush_spec E hfree (A ++ [v]) F p') fun _ s _ h => h
  | error v' =>
    exact Triple.ret (E.stable (Pushed.local start mask A F v n (A ++ [v]) (.error v') p'))
      fun _ _ h => h

theorem closeProducer_spec (E : Endpoint C L start mask .producer free signs own)
    (hsigns : signs) (hfree : free) (A F : List V)
    (p : Producer w) :
    Triple C (Held L own (p.At start A F)) (p.close L) fun _ => Held L own (p.At start A A) := by
  refine Triple.bind (flush_spec E hfree A F p) fun _ => ?_
  exact E.silent (Producer.At.local start A A p) (fun _ => ⟨rfl, rfl, rfl, rfl⟩)
    fun _ => .inl hsigns

end Producer

end Fanring.Yring
