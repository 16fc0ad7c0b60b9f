import Fanring.Work
import Mathlib.Algebra.BigOperators.Group.Finset.Piecewise
import Mathlib.Algebra.Order.BigOperators.Group.Finset
import Mathlib.Algebra.Order.Group.Multiset
import Mathlib.Data.Fintype.BigOperators

/-!
# Work on its way between receivers: nothing is lost, and no empty scan misses a batch

Every step leaves the values that came in accounted for: answered, in a queue, in some thread's
hands, or dropped by a panic (`Inv.balance`). A thread that carries a batch is counted (`Inv.loads`,
`Inv.inFlight`), and it raises the generation before it is not. So between two reads of the same
generation, the first before a scan and the second after `inFlight` was zero, no batch moved at all:
queues found empty stayed empty (`Scan`).
-/

set_option autoImplicit false

namespace Fanring.Work

open Conc Pool

/-- A sum after one of its terms changed. -/
theorem sum_update {I A M : Type} [Fintype I] [DecidableEq I] [AddCommMonoid M] (g : A → M)
    (f : I → A) (i : I) (a : A) :
    ∑ j, g (Function.update f i a j) + g (f i) = ∑ j, g (f j) + g a := by
  have hcomp :
      (fun j => g (Function.update f i a j)) = Function.update (fun j => g (f j)) i (g a) := by
    funext j
    exact Function.apply_update (fun _ => g) f i a j
  have hrest := Finset.sum_update_of_mem (Finset.mem_univ i) (fun j => g (f j)) (g a)
  have hall := Finset.sum_eq_sum_sdiff_singleton_add (Finset.mem_univ i) fun j => g (f j)
  rw [hcomp, hrest, hall, add_comm (g a), add_right_comm]

theorem count_sum_update {I V : Type} [Fintype I] [DecidableEq I] [DecidableEq V] (f : I → List V)
    (i : I) (l : List V) (v : V) :
    (∑ j, (Function.update f i l j : Multiset V)).count v + (f i).count v =
      (∑ j, (f j : Multiset V)).count v + l.count v := by
  have h := congrArg (Multiset.count v) (sum_update (fun l : List V => (l : Multiset V)) f i l)
  simpa only [Multiset.count_add, Multiset.coe_count] using h

section

variable {T Q V : Type} {s s' : Pool T Q V} {t : T} {F F' : Pool T Q V → Prop}

/-! ## A scan of the queues -/

/-- Queues found empty since the generation was `g` are empty, unless it changed or a batch
    moves. -/
def Scan (g : Nat) (looked : List Q) (s : Pool T Q V) : Prop :=
  g ≤ s.generation ∧
    (s.generation = g → (∃ u, s.phase u = .moving) ∨ ∀ q ∈ looked, s.values q = [])

theorem Scan.look {g : Nat} {looked : List Q} {q : Q} (h : Scan g looked s) (hq : s.values q = []) :
    Scan g (looked ++ [q]) s := by
  refine ⟨h.1, fun hgen => (h.2 hgen).imp_right fun hempty q' hq' => ?_⟩
  rcases List.mem_append.mp hq' with hq' | hq'
  · exact hempty q' hq'
  · rw [List.mem_singleton.mp hq', hq]

theorem Scan.of_past {g : Nat} {looked : List Q} (h : g < s.generation) : Scan g looked s :=
  ⟨h.le, fun hgen => absurd hgen h.ne'⟩

/-- What the thread recorded after `old`. -/
def Since (t : T) (old : List (List Q)) (s : Pool T Q V) : Prop := ∃ new, s.cleared t = old ++ new

/-- One of the reads recorded after `old` found the queues clear. -/
def Found (t : T) (old : List (List Q)) (looked : List Q) (s : Pool T Q V) : Prop :=
  ∃ new, s.cleared t = old ++ new ∧ looked ∈ new

/-- A scan that is believed was recorded. -/
def Believed (t : T) (old : List (List Q)) (looked : List Q) (r : Reply V) (s : Pool T Q V) :
    Prop :=
  r = .drained → Found t old looked s

/-! ## The guarantee -/

variable [Fintype T]

theorem isClear_iff {looked : List Q} :
    s.isClear looked = true ↔ (∀ q ∈ looked, s.values q = []) ∧ ∀ u, s.load u = [] := by
  simp only [isClear, Bool.and_eq_true, List.all_eq_true, List.isEmpty_iff, decide_eq_true_eq]

/-- What a step of thread `t` does, as far as others can tell. -/
structure Guar (t : T) (s s' : Pool T Q V) : Prop where
  other : ∀ u, u ≠ t → s'.phase u = s.phase u ∧ s'.load u = s.load u ∧ s'.hand u = s.hand u ∧
    s'.reply u = s.reply u
  generation : s.generation ≤ s'.generation
  moving : s.phase t = .moving → s'.phase t = .moving ∨ s.generation < s'.generation
  empty : s'.phase t = .moving ∨ ∀ q, s.values q = [] → s'.values q = []
  /-- What is recorded as clear is so in the state it is read from. -/
  cleared : ∀ u, ∃ new, s'.cleared u = s.cleared u ++ new ∧ ∀ looked ∈ new, s.isClear looked = true

theorem Guar.refl (t : T) (s : Pool T Q V) : Guar t s s :=
  ⟨fun _ _ => ⟨rfl, rfl, rfl, rfl⟩, le_rfl, fun h => .inl h, .inr fun _ h => h,
    fun _ => ⟨[], by simp, by simp⟩⟩

/-- A step that changes neither the phases nor the tracker. -/
theorem guar_of (hphase : s'.phase = s.phase) (hgen : s'.generation = s.generation)
    (hload : ∀ u, u ≠ t → s'.load u = s.load u) (hhand : ∀ u, u ≠ t → s'.hand u = s.hand u)
    (hreply : ∀ u, u ≠ t → s'.reply u = s.reply u) (hcleared : s'.cleared = s.cleared)
    (hempty : s.phase t = .moving ∨ ∀ q, s.values q = [] → s'.values q = []) : Guar t s s' where
  other u hu := ⟨congrFun hphase u, hload u hu, hhand u hu, hreply u hu⟩
  generation := hgen.ge
  moving h := .inl ((congrFun hphase t).trans h)
  empty := hempty.imp_left (congrFun hphase t).trans
  cleared u := ⟨[], by rw [hcleared, List.append_nil], by simp⟩

/-- No step makes it false. -/
def Lasts (F : Pool T Q V → Prop) : Prop := ∀ u s s', Guar u s s' → F s → F s'

theorem lasts_true : Lasts (fun _ : Pool T Q V => True) := fun _ _ _ _ _ => trivial

theorem Lasts.and (hF : Lasts F) (hF' : Lasts F') : Lasts fun s => F s ∧ F' s :=
  fun u s s' hg h => ⟨hF u s s' hg h.1, hF' u s s' hg h.2⟩

theorem Lasts.imp (p : Prop) (hF : Lasts F) : Lasts fun s => p → F s :=
  fun u s s' hg h hp => hF u s s' hg (h hp)

theorem Lasts.or (hF : Lasts F) (hF' : Lasts F') : Lasts fun s => F s ∨ F' s :=
  fun u s s' hg h => h.imp (hF u s s' hg) (hF' u s s' hg)

/-- The generation is past `g`: a scan that began with it will not be believed. -/
theorem past_lasts (g : Nat) : Lasts (T := T) (Q := Q) (V := V) fun s => g < s.generation :=
  fun _ _ _ hg h => lt_of_lt_of_le h hg.generation

theorem Since.lasts (t : T) (old : List (List Q)) : Lasts (V := V) (Since t old) := by
  rintro u s s' hg ⟨new, hnew⟩
  obtain ⟨more, hmore, -⟩ := hg.cleared t
  exact ⟨new ++ more, by rw [hmore, hnew, List.append_assoc]⟩

theorem Found.lasts (t : T) (old : List (List Q)) (looked : List Q) :
    Lasts (V := V) (Found t old looked) := by
  rintro u s s' hg ⟨new, hnew, hmem⟩
  obtain ⟨more, hmore, -⟩ := hg.cleared t
  exact ⟨new ++ more, by rw [hmore, hnew, List.append_assoc], List.mem_append_left _ hmem⟩

theorem Believed.lasts (t : T) (old : List (List Q)) (looked : List Q) (r : Reply V) :
    Lasts (Believed t old looked r) :=
  (Found.lasts t old looked).imp _

section

variable [DecidableEq T]

/-- A step of a publication that moves nothing. -/
theorem guar_turn {generation inFlight : Nat} {phase : Phase} (hgen : s.generation ≤ generation)
    (hphase : s.phase t = .moving → phase = .moving ∨ s.generation < generation) :
    Guar t s { s with
      generation := generation
      inFlight := inFlight
      phase := Function.update s.phase t phase } where
  other u hu := ⟨Function.update_of_ne hu .., rfl, rfl, rfl⟩
  generation := hgen
  moving h := (hphase h).imp_left (Function.update_self ..).trans
  empty := .inr fun _ h => h
  cleared u := ⟨[], by simp, by simp⟩

theorem guar_isInFlight (looked : List Q) : Guar t s (s.isInFlight t looked).2 where
  other u hu := ⟨rfl, rfl, rfl, rfl⟩
  generation := le_rfl
  moving h := .inl h
  empty := .inr fun _ h => h
  cleared u := by
    by_cases hut : u = t
    · subst hut
      refine ⟨_, Function.update_self .., fun l hl => ?_⟩
      split at hl
      · next hclear =>
        rw [List.mem_singleton.mp hl]
        exact hclear
      · cases hl
    · exact ⟨[], (Function.update_of_ne hut ..).trans (List.append_nil _).symm, by simp⟩

theorem Scan.lasts (g : Nat) (looked : List Q) : Lasts (T := T) (V := V) (Scan g looked) := by
  intro t s s' hg h
  refine ⟨h.1.trans hg.generation, fun hgen => ?_⟩
  have hle := hg.generation
  have hge := h.1
  rcases h.2 (by omega) with ⟨u, hu⟩ | hempty
  · left
    by_cases hut : u = t
    · subst hut
      rcases hg.moving hu with hm | hlt
      · exact ⟨u, hm⟩
      · omega
    · exact ⟨u, (hg.other u hut).1.trans hu⟩
  · rcases hg.empty with hm | hkeep
    · exact .inl ⟨t, hm⟩
    · exact .inr fun q hq => hkeep q (hempty q hq)

end

/-! ## The contract -/

def Phase.weight : Phase → Nat
  | .idle => 0
  | .moving | .bumped => 1

variable [Fintype Q] (capacity : Q → Option Nat)

/-- All that is somewhere. -/
def Pool.total (s : Pool T Q V) : Multiset V :=
  s.answered + s.destroyed + ∑ t, (s.hand t : Multiset V) + ∑ t, (s.load t : Multiset V) +
    ∑ q, (s.values q : Multiset V)

structure Inv (s : Pool T Q V) : Prop where
  balance : s.entered = s.total
  bounded : ∀ q n, capacity q = some n → (s.values q).length ≤ n
  inFlight : s.inFlight = ∑ t, (s.phase t).weight
  loads : ∀ t, s.load t ≠ [] → s.phase t = .moving
  harmless : s.panicked = false → s.destroyed = 0

def contract (t : T) : Contract (Pool T Q V) where
  inv := Inv capacity
  rely s s' := ∃ u, u ≠ t ∧ Guar u s s'
  guar := Guar t
  cond _ _ := True
  goal _ := True

/-- Where a thread is and what it holds. -/
structure Has (t : T) (phase : Phase) (load hand : List V) (F : Pool T Q V → Prop)
    (s : Pool T Q V) :
    Prop where
  phase : s.phase t = phase
  load : s.load t = load
  hand : s.hand t = hand
  rest : F s

variable {capacity} {phase : Phase} {load hand : List V}

theorem Has.stable (hF : ∀ u s s', u ≠ t → Guar u s s' → F s → F s') :
    (contract capacity t).Stable (Has t phase load hand F) := by
  rintro s s' - - ⟨u, hu, hg⟩ h
  obtain ⟨hphase, hload, hhand, -⟩ := hg.other t hu.symm
  exact ⟨hphase.trans h.phase, hload.trans h.load, hhand.trans h.hand, hF u s s' hu hg h.rest⟩

theorem Has.lasting (hF : Lasts F) : (contract capacity t).Stable (Has t phase load hand F) :=
  Has.stable fun u s s' _ => hF u s s'

theorem has_atomic {α : Type} {f : Pool T Q V → α × Pool T Q V} {R : α → Pool T Q V → Prop}
    (hF : Lasts F) (hR : ∀ a, (contract capacity t).Stable (R a))
    (h : ∀ s, Inv capacity s → Has t phase load hand F s →
      Inv capacity (f s).2 ∧ Guar t s (f s).2 ∧ R (f s).1 (f s).2) :
    Triple (contract capacity t) (Has t phase load hand F) (.atomic f) R :=
  Triple.atomic (Has.lasting hF) hR fun s _ hi hp _ => h s hi hp

theorem read_spec {α : Type} (f : Pool T Q V → α) {F' : α → Pool T Q V → Prop} (hF : Lasts F)
    (hF' : ∀ a, Lasts (F' a)) (h : ∀ s, F s → F' (f s) s) :
    Triple (contract capacity t) (Has t phase load hand F) (.read f)
      fun a => Has t phase load hand (F' a) :=
  Triple.read (Has.lasting hF) (fun a => Has.lasting (hF' a)) (Guar.refl t)
    fun s _ _ hp _ => { hp with rest := h s hp.rest }

theorem oracle_spec (hF : Lasts F) :
    Triple (contract capacity t) (Has t phase load hand F) .oracle
      fun _ => Has t phase load hand F := by
  refine Triple.act (Has.lasting hF) (fun _ _ _ _ => ⟨0, rfl⟩) fun s n s' hi h hs _ => ?_
  cases hs
  exact ⟨hi, Guar.refl t s, Triple.ret (Has.lasting hF) (fun _ _ h => h) s hi h⟩

theorem believed_ret (r : Reply V) {old : List (List Q)} {looked : List Q} (hr : r ≠ .drained) :
    Triple (contract capacity t) (Has t .idle [] r.items F) (.ret r)
      fun r => Has t .idle [] r.items (Believed t old looked r) :=
  Triple.ret (Has.lasting (Believed.lasts t old looked r)) fun _ _ h =>
    { h with rest := fun heq => absurd heq hr }

/-! ## The invariant, access by access -/

theorem Inv.count [DecidableEq V] (hi : Inv capacity s) (v : V) :
    s.entered.count v = s.answered.count v + s.destroyed.count v +
      (∑ t, (s.hand t : Multiset V)).count v + (∑ t, (s.load t : Multiset V)).count v +
      (∑ q, (s.values q : Multiset V)).count v := by
  rw [hi.balance]
  simp only [total, Multiset.count_add]

/-- A queue that did not grow is within its capacity. -/
theorem Inv.bounded_update [DecidableEq Q] (hi : Inv capacity s) {q : Q} {queue : List V}
    (hle : queue.length ≤ (s.values q).length) (q' : Q) (n : Nat) (hn : capacity q' = some n) :
    (Function.update s.values q queue q').length ≤ n := by
  have hbound := hi.bounded q' n hn
  by_cases hqq : q' = q
  · subst hqq
    rw [Function.update_self]
    exact hle.trans hbound
  · rwa [Function.update_of_ne hqq]

variable [DecidableEq T]

/-- A step of a publication that moves nothing. -/
theorem Inv.turn (hi : Inv capacity s) {generation inFlight : Nat} {phase : Phase}
    (hweight : inFlight + (s.phase t).weight = s.inFlight + phase.weight)
    (hload : s.load t ≠ [] → phase = .moving) :
    Inv capacity { s with
      generation := generation
      inFlight := inFlight
      phase := Function.update s.phase t phase } := by
  refine { hi with inFlight := ?_, loads := fun u hu => ?_ }
  · have hsum := sum_update Phase.weight s.phase t phase
    have hcount := hi.inFlight
    change inFlight = ∑ u, (Function.update s.phase t phase u).weight
    omega
  · by_cases hut : u = t
    · subst hut
      exact (Function.update_self ..).trans (hload hu)
    · exact (Function.update_of_ne hut ..).trans (hi.loads u hu)

/-- A thread in a publication may carry a batch. -/
theorem Inv.loads_update (hi : Inv capacity s) (hphase : s.phase t = .moving) {batch : List V}
    (u : T)
    (hu : Function.update s.load t batch u ≠ []) : s.phase u = .moving := by
  by_cases hut : u = t
  · exact hut ▸ hphase
  · rw [Function.update_of_ne hut] at hu
    exact hi.loads u hu

theorem Inv.isInFlight (hi : Inv capacity s) (looked : List Q) :
    Inv capacity (s.isInFlight t looked).2 := { hi with }

theorem Inv.bring (hi : Inv capacity s) (batch : List V) (hphase : s.phase t = .moving)
    (hload : s.load t = []) : Inv capacity (s.bring t batch) := by
  classical
  unfold Pool.bring
  refine { hi with balance := ?_, loads := hi.loads_update hphase }
  ext w
  have hcount := hi.count w
  have hloads := count_sum_update s.load t batch w
  rw [hload, List.count_nil] at hloads
  simp only [total, Multiset.count_add, Multiset.coe_count]
  omega

theorem Inv.discard (hi : Inv capacity s) {v : V} (hhand : s.hand t = [v]) :
    Inv capacity (s.discard t v) := by
  classical
  unfold Pool.discard
  refine { hi with balance := ?_, harmless := fun h => ?_ }
  · ext w
    have hcount := hi.count w
    have hhands := count_sum_update s.hand t [] w
    rw [hhand, List.count_nil] at hhands
    simp only [total, Multiset.count_add, Multiset.coe_count]
    omega
  · cases h

theorem Inv.answer (hi : Inv capacity s) {r : Reply V} (hhand : s.hand t = r.items) :
    Inv capacity (s.answer t r) := by
  classical
  unfold Pool.answer
  refine { hi with balance := ?_ }
  ext w
  have hcount := hi.count w
  have hhands := count_sum_update s.hand t [] w
  rw [hhand, List.count_nil] at hhands
  simp only [total, Multiset.count_add, Multiset.coe_count]
  omega

/-! ## Publications -/

theorem begin_spec (hF : Lasts F) :
    Triple (contract capacity t) (Has t .idle [] hand F) (Prog.write (Pool.begin t))
      fun _ => Has t .moving [] hand F := by
  refine has_atomic hF (fun _ => Has.lasting hF) fun s hi h => ?_
  have hg : Guar t s (s.begin t) := guar_turn le_rfl fun _ => .inl rfl
  refine ⟨hi.turn ?_ fun _ => rfl, hg,
    ⟨Function.update_self .., h.load, h.hand, hF _ _ _ hg h.rest⟩⟩
  rw [h.phase]
  rfl

theorem bump_spec (hF : Lasts F) (hF' : Lasts F') (hbump : ∀ s, F s → F' (Pool.bump t s)) :
    Triple (contract capacity t) (Has t .moving [] hand F) (Prog.write (Pool.bump t))
      fun _ => Has t .bumped [] hand F' := by
  refine has_atomic hF (fun _ => Has.lasting hF') fun s hi h => ?_
  refine ⟨hi.turn ?_ fun hne => absurd h.load hne, guar_turn (Nat.le_succ _) fun _ =>
    .inr (Nat.lt_succ_self _), ⟨Function.update_self .., h.load, h.hand, hbump s h.rest⟩⟩
  rw [h.phase]
  rfl

theorem leave_spec (hF : Lasts F) :
    Triple (contract capacity t) (Has t .bumped [] hand F) (Prog.write (Pool.leave t))
      fun _ => Has t .idle [] hand F := by
  refine has_atomic hF (fun _ => Has.lasting hF) fun s hi h => ?_
  have hg : Guar t s (s.leave t) := guar_turn le_rfl fun hm => by
    rw [h.phase] at hm
    cases hm
  refine ⟨hi.turn ?_ fun hne => absurd h.load hne, hg,
    ⟨Function.update_self .., h.load, h.hand, hF _ _ _ hg h.rest⟩⟩
  -- the thread itself is counted
  have hle : (s.phase t).weight ≤ ∑ u, (s.phase u).weight :=
    Finset.single_le_sum (f := fun u => (s.phase u).weight) (fun _ _ => Nat.zero_le _)
      (Finset.mem_univ t)
  rw [← hi.inFlight, h.phase] at hle
  rw [h.phase]
  change s.inFlight - 1 + 1 = s.inFlight + 0
  have hone : 1 ≤ s.inFlight := hle
  omega

/-- Code under a publication. -/
theorem publishing_spec {α : Type} {p : Prog (Pool T Q V) α} {hand' : α → List V} (hF : Lasts F)
    (hF' : Lasts F') (hbump : ∀ s, F s → F' (Pool.bump t s))
    (hp : Triple (contract capacity t) (Has t .moving [] hand F) p
      fun a => Has t .moving [] (hand' a) F) :
    Triple (contract capacity t) (Has t .idle [] hand F) (publishing t p)
      fun a => Has t .idle [] (hand' a) F' := by
  refine (begin_spec hF).bind fun _ => hp.bind fun a => ?_
  refine (bump_spec hF hF' hbump).bind fun _ => (leave_spec hF').bind fun _ => ?_
  exact Triple.ret (Has.lasting hF') fun _ _ h => h

theorem bring_spec (batch : List V) (hF : Lasts F) :
    Triple (contract capacity t) (Has t .moving [] hand F) (Prog.write (Pool.bring t batch))
      fun _ => Has t .moving batch hand F := by
  refine has_atomic hF (fun _ => Has.lasting hF) fun s hi h => ?_
  have hg : Guar t s (s.bring t batch) :=
    guar_of rfl rfl (fun u hu => Function.update_of_ne hu ..) (fun _ _ => rfl) (fun _ _ => rfl) rfl
      (.inl h.phase)
  exact ⟨hi.bring batch h.phase h.load, hg,
    ⟨h.phase, Function.update_self .., h.hand, hF _ _ _ hg h.rest⟩⟩

theorem answer_spec {r : Reply V} {G : Pool T Q V → Prop} (hF : Lasts F)
    (hG : ∀ u s s', u ≠ t → Guar u s s' → G s → G s')
    (h : ∀ s, F s → G (Pool.answer t r s)) :
    Triple (contract capacity t) (Has t .idle [] r.items F) (Prog.write (Pool.answer t r))
      fun _ => Has t .idle [] [] G := by
  refine has_atomic hF (fun _ => Has.stable hG) fun s hi hp => ?_
  have hg : Guar t s (s.answer t r) :=
    guar_of rfl rfl (fun _ _ => rfl) (fun u hu => Function.update_of_ne hu ..)
      (fun u hu => Function.update_of_ne hu ..) rfl (.inr fun _ h => h)
  exact ⟨hi.answer hp.hand, hg, ⟨hp.phase, hp.load, Function.update_self .., h s hp.rest⟩⟩

/-- A read of `inFlight` that finds nobody: if the generation is still that of the scan, the queues
    are clear. -/
theorem isInFlight_spec {g : Nat} {old : List (List Q)} (looked : List Q) :
    Triple (contract capacity t) (Has t .idle [] [] fun s : Pool T Q V => Scan g looked s ∧
      Since t old s)
      (.atomic (Pool.isInFlight t looked)) fun busy => Has t .idle [] [] fun s =>
        (Scan g looked s ∧ Since t old s) ∧
          (busy = false → g < s.generation ∨ Found t old looked s) := by
  have hscan := (Scan.lasts (V := V) g looked).and (Since.lasts t old)
  have hend := (past_lasts (V := V) g).or (Found.lasts t old looked)
  refine has_atomic hscan (fun busy => Has.lasting (hscan.and (hend.imp _))) fun s hi h => ?_
  have hg : Guar t s (s.isInFlight t looked).2 := guar_isInFlight looked
  refine ⟨hi.isInFlight looked, hg, ⟨h.phase, h.load, h.hand, hscan _ _ _ hg h.rest, fun hb => ?_⟩⟩
  obtain ⟨⟨hge, hempty⟩, new, hnew⟩ := h.rest
  rcases Nat.lt_or_eq_of_le hge with hlt | hgen
  · exact .inl hlt
  right
  -- nobody is counted, so nobody moves anything
  have hzero : ∑ u, (s.phase u).weight = 0 := by
    rw [← hi.inFlight]
    simpa [Pool.isInFlight] using hb
  have hidle : ∀ u, s.phase u ≠ .moving := by
    intro u hu
    have hu' := Finset.sum_eq_zero_iff.mp hzero u (Finset.mem_univ u)
    rw [hu] at hu'
    cases hu'
  have hclear : s.isClear looked = true := by
    refine isClear_iff.mpr ⟨?_, fun u => ?_⟩
    · rcases hempty hgen.symm with ⟨u, hu⟩ | hempty
      · exact absurd hu (hidle u)
      · exact hempty
    · by_contra hload
      exact hidle u (hi.loads u hload)
  refine ⟨new ++ [looked], ?_, List.mem_append_right _ (List.mem_singleton_self _)⟩
  refine (Function.update_self ..).trans ?_
  rw [hclear, if_pos rfl, hnew, List.append_assoc]

theorem emptyScanState_spec {g : Nat} {old : List (List Q)} (looked : List Q) :
    Triple (contract capacity t) (Has t .idle [] [] fun s : Pool T Q V => Scan g looked s ∧
      Since t old s)
      (emptyScanState t looked g) fun r => Has t .idle [] r.items (Believed t old looked r) := by
  have hscan := (Scan.lasts (V := V) g looked).and (Since.lasts t old)
  unfold emptyScanState
  refine Triple.bind (read_spec (·.generation) hscan (fun _ => hscan) fun _ h => h)
    fun generation => ?_
  split
  · exact believed_ret .changed (by simp)
  refine (isInFlight_spec looked).bind fun busy => ?_
  cases busy with
  | true => exact believed_ret .publishing (by simp)
  | false =>
    refine ((oracle_spec hscan).pre fun _ _ h => { h with rest := h.rest.1 }).bind fun n => ?_
    split
    · exact believed_ret .opened (by simp)
    refine (isInFlight_spec looked).bind fun busy => ?_
    cases busy with
    | true => exact believed_ret .publishing (by simp)
    | false =>
      have hend := (past_lasts (V := V) g).or (Found.lasts t old looked)
      have hread : Triple (contract capacity t)
          (Has t .idle [] [] fun s : Pool T Q V => g < s.generation ∨ Found t old looked s)
          (.read (·.generation)) fun a => Has t .idle [] [] fun s => a = g → Found t old looked s :=
        read_spec _ hend (fun a => (Found.lasts t old looked).imp _) fun s h hgen =>
          h.resolve_left fun hlt => absurd hgen hlt.ne'
      refine (hread.pre fun _ _ h => { h with rest := h.rest.2 rfl }).bind fun a => ?_
      split
      · exact believed_ret .changed (by simp)
      · next hgen =>
        exact Triple.ret (Has.lasting (Believed.lasts t old looked _)) fun _ _ h =>
          { h with rest := fun _ => h.rest (not_not.mp hgen) }

/-! ## Queues -/

variable [DecidableEq Q]

theorem Inv.pop (hi : Inv capacity s) (q : Q) (hhand : s.hand t = []) :
    Inv capacity (s.pop t q).2 := by
  classical
  unfold Pool.pop
  split
  · exact hi
  · next v rest hq =>
    refine { hi with balance := ?_, bounded := hi.bounded_update ?_ }
    · ext w
      have hcount := hi.count w
      have hvalues := count_sum_update s.values q rest w
      have hhands := count_sum_update s.hand t [v] w
      rw [hq, List.count_cons] at hvalues
      rw [hhand, List.count_cons, List.count_nil] at hhands
      simp only [total, Multiset.count_add]
      omega
    · rw [hq, List.length_cons]
      exact Nat.le_succ _

theorem Inv.grab (hi : Inv capacity s) (q : Q) (hphase : s.phase t = .moving)
    (hload : s.load t = [])
    (hhand : s.hand t = []) : Inv capacity (s.grab t q).2 := by
  classical
  unfold Pool.grab
  split
  · exact hi
  · next v moved rest hsteal =>
    have hq := stealBatch_append hsteal
    refine { hi with
      balance := ?_, bounded := hi.bounded_update ?_, loads := hi.loads_update hphase }
    · ext w
      have hcount := hi.count w
      have hvalues := count_sum_update s.values q rest w
      have hhands := count_sum_update s.hand t [v] w
      have hloads := count_sum_update s.load t moved w
      rw [hq, List.count_cons, List.count_append] at hvalues
      rw [hhand, List.count_cons, List.count_nil] at hhands
      rw [hload, List.count_nil] at hloads
      simp only [total, Multiset.count_add]
      omega
    · rw [hq, List.length_cons, List.length_append]
      omega

theorem Inv.takeAll (hi : Inv capacity s) (q : Q) (hphase : s.phase t = .moving)
    (hload : s.load t = []) : Inv capacity (s.takeAll t q).2 := by
  classical
  unfold Pool.takeAll
  refine { hi with
    balance := ?_, bounded := hi.bounded_update (Nat.zero_le _), loads := hi.loads_update hphase }
  ext w
  have hcount := hi.count w
  have hvalues := count_sum_update s.values q [] w
  have hloads := count_sum_update s.load t (s.values q) w
  rw [List.count_nil] at hvalues
  rw [hload, List.count_nil] at hloads
  simp only [total, Multiset.count_add]
  omega

theorem Inv.pushBatch (hi : Inv capacity s) (q : Q) {batch : List V} (hload : s.load t = batch) :
    Inv capacity (s.pushBatch capacity t q batch).2 := by
  classical
  have happend := pushAll_append (capacity q) (s.values q) batch
  unfold Pool.pushBatch
  refine { hi with
    balance := ?_, bounded := fun q' n hn => ?_, loads := fun u hu => ?_, harmless := fun h => ?_ }
  · ext w
    have hcount := hi.count w
    have hvalues := count_sum_update s.values q (pushAll (capacity q) (s.values q) batch).1 w
    have hloads := count_sum_update s.load t [] w
    have hboth := congrArg (List.count w) happend
    rw [List.count_append, List.count_append] at hboth
    rw [hload, List.count_nil] at hloads
    simp only [total, Multiset.count_add, Multiset.coe_count]
    omega
  · by_cases hqq : q' = q
    · subst hqq
      simp only [Function.update_self, hn]
      exact length_pushAll _ _ (hi.bounded q' n hn)
    · simpa only [Function.update_of_ne hqq] using hi.bounded q' n hn
  · by_cases hut : u = t
    · subst hut
      exact absurd (Function.update_self ..) hu
    · exact hi.loads u (by simpa only [Function.update_of_ne hut] using hu)
  · simp only [Bool.or_eq_false_iff, Bool.not_eq_false', List.isEmpty_iff] at h
    simp only [hi.harmless h.1, h.2, Multiset.coe_nil, add_zero]

theorem pop_spec (q : Q) (hF : Lasts F) (hF' : Lasts F')
    (hnone : ∀ s, F s → s.values q = [] → F' s) :
    Triple (contract capacity t) (Has t .idle [] [] F) (.atomic (Pool.pop t q))
      fun a => Has t .idle [] a.toList (a.elim F' fun _ => F) := by
  refine has_atomic hF (fun a => ?_) fun s hi h => ⟨hi.pop q h.hand, ?_⟩
  · cases a with
    | none => exact Has.lasting hF'
    | some v => exact Has.lasting hF
  · unfold Pool.pop
    split
    · next hq => exact ⟨Guar.refl t s, ⟨h.phase, h.load, h.hand, hnone s h.rest hq⟩⟩
    · next v rest hq =>
      have hg : Guar t s { s with
          values := Function.update s.values q rest
          hand := Function.update s.hand t [v] } := by
        refine guar_of rfl rfl (fun _ _ => rfl) (fun u hu => Function.update_of_ne hu ..)
          (fun _ _ => rfl) rfl (.inr fun q' hq' => ?_)
        have hne : q' ≠ q := by
          rintro rfl
          rw [hq] at hq'
          cases hq'
        exact (Function.update_of_ne hne ..).trans hq'
      exact ⟨hg, ⟨h.phase, h.load, Function.update_self .., hF _ _ _ hg h.rest⟩⟩

theorem pushBatch_spec (q : Q) (batch : List V) (hF : Lasts F) :
    Triple (contract capacity t) (Has t .moving batch hand F)
      (.atomic (Pool.pushBatch capacity t q batch)) fun _ => Has t .moving [] hand F := by
  refine has_atomic hF (fun _ => Has.lasting hF) fun s hi h => ?_
  have hg : Guar t s (s.pushBatch capacity t q batch).2 :=
    guar_of rfl rfl (fun u hu => Function.update_of_ne hu ..) (fun _ _ => rfl) (fun _ _ => rfl) rfl
      (.inl h.phase)
  exact ⟨hi.pushBatch q h.load, hg, ⟨h.phase, Function.update_self .., h.hand, hF _ _ _ hg h.rest⟩⟩

theorem stealBatchInto_spec (source destination : Q) (hF : Lasts F) :
    Triple (contract capacity t) (Has t .moving [] [] F)
      (stealBatchInto capacity t source destination)
      fun a => Has t .moving [] (a.getD none).toList F := by
  have hgrab : Triple (contract capacity t) (Has t .moving [] [] F) (.atomic (Pool.grab t source))
      fun a => Has t .moving (a.elim [] Prod.snd) (a.map Prod.fst).toList F := by
    refine has_atomic hF (fun _ => Has.lasting hF) fun s hi h =>
      ⟨hi.grab source h.phase h.load h.hand, ?_⟩
    unfold Pool.grab
    split
    · exact ⟨Guar.refl t s, h⟩
    · next v moved rest _ =>
      have hg : Guar t s { s with
          values := Function.update s.values source rest
          hand := Function.update s.hand t [v]
          load := Function.update s.load t moved } :=
        guar_of rfl rfl (fun u hu => Function.update_of_ne hu ..)
          (fun u hu => Function.update_of_ne hu ..)
          (fun _ _ => rfl) rfl (.inl h.phase)
      exact ⟨hg, ⟨h.phase, Function.update_self .., Function.update_self .., hF _ _ _ hg h.rest⟩⟩
  refine hgrab.bind fun a => ?_
  cases a with
  | none => exact Triple.ret (Has.lasting hF) fun _ _ h => h
  | some taken =>
    obtain ⟨v, moved⟩ := taken
    refine (pushBatch_spec destination moved hF).bind fun ok => ?_
    cases ok with
    | true => exact Triple.ret (Has.lasting hF) fun _ _ h => h
    | false =>
      refine Triple.bind (Q := fun _ => Has t .moving [] [] F) ?_ fun _ =>
        Triple.ret (Has.lasting hF) fun _ _ h => h
      refine has_atomic hF (fun _ => Has.lasting hF) fun s hi h => ?_
      have hg : Guar t s (s.discard t v) :=
        guar_of rfl rfl (fun _ _ => rfl) (fun u hu => Function.update_of_ne hu ..)
          (fun _ _ => rfl) rfl
          (.inl h.phase)
      exact ⟨hi.discard h.hand, hg, ⟨h.phase, h.load, Function.update_self .., hF _ _ _ hg h.rest⟩⟩

theorem drainInto_spec (source destination : Q) (hF : Lasts F) :
    Triple (contract capacity t) (Has t .moving [] hand F) (drainInto capacity t source destination)
      fun _ => Has t .moving [] hand F := by
  have htake : Triple (contract capacity t) (Has t .moving [] hand F)
      (.atomic (Pool.takeAll t source))
      fun drained => Has t .moving drained hand F := by
    refine has_atomic hF (fun _ => Has.lasting hF) fun s hi h => ?_
    have hg : Guar t s (s.takeAll t source).2 :=
      guar_of rfl rfl (fun u hu => Function.update_of_ne hu ..) (fun _ _ => rfl)
        (fun _ _ => rfl) rfl
        (.inl h.phase)
    exact ⟨hi.takeAll source h.phase h.load, hg,
      ⟨h.phase, Function.update_self .., h.hand, hF _ _ _ hg h.rest⟩⟩
  exact htake.bind fun drained => pushBatch_spec destination drained hF

/-! ## Receives -/

/-- **The queues a receiver found nothing in**, one after the other. -/
theorem stealFrom_spec (own : Q) {g : Nat} {old : List (List Q)} (queues looked : List Q) :
    Triple (contract capacity t) (Has t .idle [] [] fun s : Pool T Q V => Scan g looked s ∧
      Since t old s)
      (stealFrom capacity t own queues) fun a =>
        Has t .idle [] (a.getD none).toList fun s => Scan g (looked ++ queues) s ∧
          Since t old s := by
  have hsince := Since.lasts (V := V) t old
  induction queues generalizing looked with
  | nil =>
    rw [List.append_nil]
    exact Triple.ret (Has.lasting ((Scan.lasts g looked).and hsince)) fun _ _ h => h
  | cons q queues ih =>
    have hlooked : looked ++ [q] ++ queues = looked ++ q :: queues := by
      rw [List.append_assoc, List.singleton_append]
    have hmore := ih (looked ++ [q])
    rw [hlooked] at hmore
    have hread : Triple (contract capacity t)
        (Has t .idle [] [] fun s : Pool T Q V => Scan g looked s ∧ Since t old s)
        (.read fun s => (s.values q).length == 0) fun a => Has t .idle [] [] fun s =>
          (Scan g looked s ∧ (a = true → Scan g (looked ++ [q]) s)) ∧ Since t old s := by
      refine read_spec _ ((Scan.lasts g looked).and hsince)
        (fun a => ((Scan.lasts g looked).and ((Scan.lasts g _).imp _)).and hsince) fun s h => ?_
      refine ⟨⟨h.1, fun hempty => h.1.look ?_⟩, h.2⟩
      exact List.length_eq_zero_iff.mp (beq_iff_eq.mp hempty)
    refine hread.bind fun a => ?_
    cases a with
    | true => exact hmore.pre fun _ _ h => { h with rest := ⟨h.rest.1.2 rfl, h.rest.2⟩ }
    | false =>
      have hsteal : Triple (contract capacity t)
          (Has t .idle [] [] fun s : Pool T Q V => Scan g looked s ∧ Since t old s)
          (publishing t (stealBatchInto capacity t q own)) fun a =>
            Has t .idle [] (a.getD none).toList fun s => g < s.generation ∧ Since t old s :=
        publishing_spec ((Scan.lasts g looked).and hsince) ((past_lasts g).and hsince)
          (fun s h => ⟨Nat.lt_succ_of_le h.1.1, h.2⟩)
          (stealBatchInto_spec q own ((Scan.lasts g looked).and hsince))
      refine (hsteal.pre fun _ _ h => { h with rest := ⟨h.rest.1.1, h.rest.2⟩ }).bind fun r => ?_
      have hback : Triple (contract capacity t)
          (Has t .idle [] (r.getD none).toList fun s => g < s.generation ∧ Since t old s) (.ret r)
          fun a => Has t .idle [] (a.getD none).toList fun s =>
            Scan g (looked ++ q :: queues) s ∧ Since t old s :=
        Triple.ret (Has.lasting ((Scan.lasts g _).and hsince)) fun _ _ h =>
          { h with rest := ⟨Scan.of_past h.rest.1, h.rest.2⟩ }
      rcases r with _ | _ | v
      · exact hback
      · exact hmore.pre fun _ _ h => { h with rest := ⟨Scan.of_past h.rest.1, h.rest.2⟩ }
      · exact hback

theorem receive_spec (own orphaned : Q) (queues : List Q) (old : List (List Q)) :
    Triple (contract capacity t) (Has t .idle [] [] (Since (V := V) t old))
      (receive capacity t own orphaned queues)
      fun r => Has t .idle [] r.items (Believed t old (orphaned :: queues) r) := by
  have hsince := Since.lasts (V := V) t old
  unfold receive
  refine (pop_spec own hsince hsince fun _ h _ => h).bind fun a => ?_
  cases a with
  | some v => exact believed_ret (.item v) (by simp)
  | none =>
    have hread : Triple (contract capacity t) (Has t .idle [] [] (Since (V := V) t old))
        (.read (·.generation)) fun g => Has t .idle [] [] fun s => Scan g [] s ∧ Since t old s :=
      read_spec _ hsince (fun g => (Scan.lasts g []).and hsince) fun s h =>
        ⟨⟨le_rfl, fun _ => .inr fun q hq => absurd hq (List.not_mem_nil)⟩, h⟩
    refine hread.bind fun g => ?_
    refine (pop_spec orphaned ((Scan.lasts g []).and hsince) ((Scan.lasts g [orphaned]).and hsince)
      fun s h hq => ⟨h.1.look hq, h.2⟩).bind fun a => ?_
    cases a with
    | some v => exact believed_ret (.item v) (by simp)
    | none =>
      refine (oracle_spec ((Scan.lasts g [orphaned]).and hsince)).bind fun n => ?_
      split
      · exact believed_ret .lanes (by simp)
      refine (stealFrom_spec own queues [orphaned]).bind fun r => ?_
      rcases r with _ | _ | v
      · exact believed_ret .panicked (by simp)
      · exact emptyScanState_spec (orphaned :: queues)
      · exact believed_ret (.item v) (by simp)

/-! ## The operations -/

theorem items_returned (ok : Bool) : (Reply.returned ok : Reply V).items = [] := by
  cases ok <;> rfl

/-- What a thread knows between its operations. -/
abbrev Idle (t : T) : Pool T Q V → Prop := Has t .idle [] [] fun _ => True

/-- A call of `receive`, with what its answer means. -/
theorem receive_code_spec (own orphaned : Q) (queues : List Q) (old : List (List Q)) :
    Triple (contract capacity t) (Has t .idle [] [] (Since (V := V) t old))
      (code capacity t (.receive own orphaned queues)) fun _ => Has t .idle [] [] fun s =>
        s.reply t = some .drained → Found t old (orphaned :: queues) s := by
  refine (receive_spec own orphaned queues old).bind fun r => ?_
  refine answer_spec (Believed.lasts _ _ _ _) (fun u s s' hu hg h hr => ?_) fun s h hr => ?_
  · rw [(hg.other t hu.symm).2.2.2] at hr
    exact Found.lasts t old _ u s s' hg (h hr)
  · exact h (by simpa [Pool.answer] using hr)

theorem code_spec (op : Op Q V) :
    Triple (contract capacity t) (Idle t) (code capacity t op) fun _ => Idle t := by
  have htrue := lasts_true (T := T) (Q := Q) (V := V)
  have hreturn : ∀ ok : Bool, Triple (contract capacity t)
      (Has t .idle [] [] fun _ : Pool T Q V => True)
      (Prog.write (Pool.answer t (.returned ok))) fun _ => Idle t := by
    intro ok
    have h : Triple (contract capacity t)
        (Has t .idle [] (Reply.returned ok : Reply V).items fun _ : Pool T Q V => True)
        (Prog.write (Pool.answer t (.returned ok))) fun _ => Idle t :=
      answer_spec htrue (fun _ _ _ _ _ _ => trivial) fun _ _ => trivial
    rwa [items_returned] at h
  have hpublish : ∀ p : Prog (Pool T Q V) Bool,
      Triple (contract capacity t) (Has t .moving [] [] fun _ => True) p
        (fun _ => Has t .moving [] [] fun _ => True) →
      Triple (contract capacity t) (Idle t) (publishing t p) fun _ => Idle t :=
    fun p hp => publishing_spec htrue htrue (fun _ _ => trivial) hp
  cases op with
  | stage q batch =>
    refine (hpublish _ ?_).bind hreturn
    exact (bring_spec batch htrue).bind fun _ => pushBatch_spec q batch htrue
  | drain source destination =>
    refine (hpublish _ ?_).bind hreturn
    exact drainInto_spec source destination htrue
  | receive own orphaned queues =>
    intro s hi h
    have hold : Has t .idle [] [] (Since t (s.cleared t)) s :=
      { h with rest := ⟨[], (List.append_nil _).symm⟩ }
    exact (receive_code_spec own orphaned queues (s.cleared t) s hi hold).mono hi
      fun _ _ _ h => { h with rest := trivial }

end

section

variable {T Q V : Type} [DecidableEq T] [DecidableEq Q] [Fintype T] [Fintype Q]
  {capacity : Q → Option Nat} {t : T}

def outline (capacity : Q → Option Nat) :
    Outline (system capacity : System (Pool T Q V) T (Op Q V)) where
  inv := Inv capacity
  guar := Guar
  cond _ _ _ := True
  callable _ _ _ := True
  idle := Idle
  guar_refl := Guar.refl
  idle_stable t u s s' hu hi hi' hg h := by
    have hstable : (contract capacity t).Stable (Idle (V := V) t) := Has.lasting lasts_true
    exact hstable s s' hi hi' ⟨u, hu, hg⟩ h
  code_ok t op s hi h _ _ := code_spec op s hi h

theorem ok_always {c : Config (Pool T Q V) T} (l : Label T (Op Q V)) (_ : System.always c l) :
    (outline capacity).ok c l := by
  cases l <;> trivial

theorem good_initial : (outline (T := T) (V := V) capacity).Good initial := by
  refine ⟨⟨?_, fun _ _ _ => Nat.zero_le _, ?_, fun _ h => absurd rfl h, fun _ => rfl⟩,
    fun _ => ⟨rfl, rfl, rfl, trivial⟩⟩
  · simp [initial, total]
  · simp [initial, Phase.weight]

theorem good_of_run {c : Config (Pool T Q V) T}
    (hrun : (system capacity).Run System.always initial c) : (outline capacity).Good c :=
  Outline.good_run good_initial (hrun.mono fun _ => ok_always)

/-- **No value is lost or doubled on its way.** In every state any interleaving reaches, the values
    that came out of the lanes are those answered, those in the queues and those in some thread's
    hands; a value was destroyed only if a capacity check failed, no queue is longer than its
    capacity, and a thread between two operations has nothing in its hands. -/
theorem work_conserved {c : Config (Pool T Q V) T}
    (hrun : (system capacity).Run System.always initial c) :
    c.st.entered = c.st.answered + c.st.destroyed + ∑ t, (c.st.hand t : Multiset V) +
        ∑ t, (c.st.load t : Multiset V) + ∑ q, (c.st.values q : Multiset V) ∧
      (c.st.panicked = false → c.st.destroyed = 0) ∧
      (∀ q n, capacity q = some n → (c.st.values q).length ≤ n) ∧
      ∀ t, c.pool t = none → c.st.hand t = [] ∧ c.st.load t = [] := by
  obtain ⟨hi, hrests⟩ := good_of_run hrun
  refine ⟨hi.balance, hi.harmless, hi.bounded, fun t hidle => ?_⟩
  have hrest := hrests t
  rw [hidle] at hrest
  exact ⟨hrest.hand, hrest.load⟩

/-- Two receivers' queues that hold a batch each, and the queue of orphaned work. -/
def batches (q : Fin 3) : Option Nat := if q = 2 then none else some 63

/-- A receiver stages three values and another one steals two of them, one to answer. -/
def stolen : Config (Pool (Fin 2) (Fin 3) Nat) (Fin 2) :=
  (system batches).after initial (List.flatten [System.turn 0 (.stage 0 [10, 20, 30]) 6,
    System.turn 1 (.receive 1 2 [0]) 11])

theorem work_conserved_stolen :
    stolen.st.entered = {10, 20, 30} ∧ stolen.st.answered = {10} ∧ stolen.st.values 1 = [20] ∧
      stolen.st.entered = stolen.st.answered + stolen.st.destroyed +
        ∑ t, (stolen.st.hand t : Multiset Nat) + ∑ t, (stolen.st.load t : Multiset Nat) +
        ∑ q, (stolen.st.values q : Multiset Nat) ∧
      ∀ t, stolen.st.hand t = [] ∧ stolen.st.load t = [] := by
  have hrun : (system batches).Run System.always initial stolen :=
    System.run_after (by decide +kernel)
  obtain ⟨hbalance, -, -, hhands⟩ := work_conserved hrun
  have hidle : ∀ t, (stolen.pool t).isNone = true := by decide +kernel
  exact ⟨by decide +kernel, by decide +kernel, by decide +kernel, hbalance,
    fun t => hhands t (Option.isNone_iff_eq_none.mp (hidle t))⟩

/-! ## A scan that is believed -/

/-- What a thread recorded during its operation was so at some moment of it. -/
theorem clear_of_during {c₁ c₂ : Config (Pool T Q V) T} {Z : Pool T Q V → Prop}
    (hcall : (outline capacity).Calling t (fun _ => True) Z c₁)
    (hduring : (system capacity).During System.always t c₁ c₂) :
    ∃ new, c₂.st.cleared t = c₁.st.cleared t ++ new ∧ ∀ looked ∈ new,
      ∃ c, (system capacity).During System.always t c₁ c ∧
        (system capacity).During System.always t c c₂ ∧ c.st.isClear looked = true := by
  induction hduring with
  | refl => exact ⟨[], (List.append_nil _).symm, by simp⟩
  | tail hrun hstep ih =>
    next c c' =>
    obtain ⟨new, hnew, hold⟩ := ih
    obtain ⟨hbusy, l, hok, hl⟩ := hstep
    have hlast : (system capacity).During System.always t c c' := .single ⟨hbusy, l, hok, hl⟩
    have hcalling := hcall.during (System.During.mono (fun _ => ok_always) hrun)
    obtain ⟨u, hg⟩ := hcalling.guarantees (ok_always l hok) hl
    change Guar u c.st c'.st at hg
    obtain ⟨more, hmore, hclear⟩ := hg.cleared t
    refine ⟨new ++ more, by rw [hmore, hnew, List.append_assoc], fun looked hmem => ?_⟩
    rcases List.mem_append.mp hmem with hmem | hmem
    · obtain ⟨d, hd, hd', hcd⟩ := hold looked hmem
      exact ⟨d, hd, hd'.trans hlast, hcd⟩
    · exact ⟨c, hrun, hlast, hclear looked hmem⟩

/-- **An empty scan that is believed missed nothing.** A receive that answers `drained` had a moment
    at which the orphaned queue and every queue it went through were empty and no thread carried a
    batch from one queue to another, however the others' moves overlapped it. -/
theorem drained_scan_clear {c c₁ c₂ : Config (Pool T Q V) T} {own orphaned : Q} {queues : List Q}
    (hrun : (system capacity).Run System.always initial c)
    (hcall : (system capacity).exec c (.call t (.receive own orphaned queues)) = some c₁)
    (hduring : (system capacity).During System.always t c₁ c₂) (hdone : c₂.pool t = none)
    (hreply : c₂.st.reply t = some .drained) :
    ∃ c', (system capacity).During System.always t c₁ c' ∧
      (system capacity).During System.always t c' c₂ ∧
      (∀ q ∈ orphaned :: queues, c'.st.values q = []) ∧ ∀ u, c'.st.load u = [] := by
  have hgood := good_of_run hrun
  have hst : c₁.st = c.st := by
    obtain ⟨-, -, rfl⟩ := System.exec_call hcall
    rfl
  have hcalling : (outline capacity).Calling t (fun _ => True) (Has t .idle [] [] fun s =>
      s.reply t = some .drained → Found t (c.st.cleared t) (orphaned :: queues) s) c₁ := by
    refine hgood.calling hcall fun hidle => ?_
    exact receive_code_spec own orphaned queues _ c.st hgood.1
      { hidle with rest := ⟨[], (List.append_nil _).symm⟩ }
  have hend := (hcalling.during (System.During.mono (fun _ => ok_always) hduring)).2
  rw [hdone] at hend
  obtain ⟨found, hfound, hmem⟩ := hend.rest hreply
  obtain ⟨new, hnew, hclear⟩ := clear_of_during hcalling hduring
  have heq : found = new := by
    rw [hfound, hst] at hnew
    exact List.append_cancel_left hnew
  subst heq
  obtain ⟨c', h₁, h₂, hc'⟩ := hclear _ hmem
  exact ⟨c', h₁, h₂, isClear_iff.mp hc'⟩

/-- A receiver staged a value and took it back. -/
def emptied : Config (Pool (Fin 2) (Fin 3) Nat) (Fin 2) :=
  (system batches).after initial (List.flatten [System.turn 0 (.stage 0 [10]) 6,
    System.turn 0 (.receive 0 2 [1]) 2])

/-- Another one is about to look for it, -/
def looking : Config (Pool (Fin 2) (Fin 3) Nat) (Fin 2) :=
  (system batches).after emptied [.call 1 (.receive 1 2 [0])]

/-- and has looked. -/
def looked : Config (Pool (Fin 2) (Fin 3) Nat) (Fin 2) :=
  (system batches).after looking (List.replicate 11 (.step 1 0))

theorem drained_scan_clear_looked :
    looked.st.reply 1 = some .drained ∧
      ∃ c, (system batches).During System.always 1 looking c ∧
        (system batches).During System.always 1 c looked ∧
        (∀ q ∈ [(2 : Fin 3), 0], c.st.values q = []) ∧ ∀ u, c.st.load u = [] := by
  have hrun : (system batches).Run System.always initial emptied :=
    System.run_after (by decide +kernel)
  have hcall := System.exec_after (S := system batches) (c := emptied)
    (l := .call 1 (.receive 1 2 [0])) (by decide +kernel)
  have hduring : (system batches).During System.always 1 looking looked :=
    System.during_after (by decide +kernel)
  have hidle : (looked.pool 1).isNone = true := by decide +kernel
  have hreply : looked.st.reply 1 = some .drained := by decide +kernel
  exact ⟨hreply, drained_scan_clear hrun hcall hduring (Option.isNone_iff_eq_none.mp hidle) hreply⟩

end

end Fanring.Work
