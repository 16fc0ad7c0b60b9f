import Fanring.Conc.Prog
import Fanring.Word
import Mathlib.Logic.Function.Basic

/-!
# The readiness index

`ready.rs`: a lane that holds data is `PENDING`, its bit is set in the word of its page, and the
page's bit is set in the word of its group. The three levels are set by one party and cleared by
another, each in an access of its own. A lane is named by the number of its registration; its slot
decides its page and its bits.
-/

set_option autoImplicit false

namespace Fanring

open Conc

/-- Lanes in a page, and pages in a group. -/
def lanesPerPage : Nat := 64
def pagesPerGroup : Nat := 64

structure Ready where
  /-- `LaneSignal::state` is `PENDING`. -/
  pending : Nat → Bool
  page : Nat → Word
  group : Nat → Word

/-- Where a publisher stands, for the bookkeeping of the proofs. -/
inductive MarkStep
  | swapped (first : Bool)
  | paged (first : Bool)
  | grouped

namespace Ready

variable {σ : Type}

def new : Ready := ⟨fun _ => false, fun _ => 0#64, fun _ => 0#64⟩

/-- `state.swap(PENDING)`; answers whether the lane was idle. -/
def swapPending (lane : Nat) (r : Ready) : Bool × Ready :=
  (!r.pending lane, { r with pending := Function.update r.pending lane true })

/-- A lane's bit set in the word of its page. -/
def withLane (slot : Nat) (r : Ready) : Nat → Word :=
  Function.update r.page (slot / lanesPerPage)
    ((r.page (slot / lanesPerPage)).mark (slot % lanesPerPage))

/-- A page's bit set in the word of its group. -/
def withPage (page : Nat) (r : Ready) : Nat → Word :=
  Function.update r.group (page / pagesPerGroup)
    ((r.group (page / pagesPerGroup)).mark (page % pagesPerGroup))

/-- The `fetch_or` of a lane's bit into its page; answers whether the page was empty. -/
def markPage (slot : Nat) (r : Ready) : Bool × Ready :=
  (decide (r.page (slot / lanesPerPage) = 0#64), { r with page := r.withLane slot })

/-- The `fetch_or` of a page's bit into its group. -/
def markGroup (page : Nat) (r : Ready) : Unit × Ready := ((), { r with group := r.withPage page })

def finishDrain (lane : Nat) (r : Ready) : Unit × Ready :=
  ((), { r with pending := Function.update r.pending lane false })

/-- The compare-exchange of `IDLE` for `PENDING`; the callers ignore its answer. -/
def claimAfterEmpty (lane : Nat) (r : Ready) : Unit × Ready :=
  ((), { r with pending := Function.update r.pending lane true })

def takeAll (group : Nat) (r : Ready) : Word × Ready :=
  (r.group group, { r with group := Function.update r.group group 0#64 })

def takePage (page : Nat) (r : Ready) : Word × Ready :=
  (r.page page, { r with page := Function.update r.page page 0#64 })

/-- The compare-exchange of `take_one_from`, which may fail for no reason; answers the word it
    found. -/
def takeBit (group bit : Nat) (expected : Word) (weak : Bool) (r : Ready) : Option Word × Ready :=
  if r.group group = expected ∧ weak = false then
    (none, { r with group := Function.update r.group group (expected.clear bit) })
  else
    (some (r.group group), r)

/-! ## Reading the index -/

/-- The bit of a slot is set in its page. -/
def laneBit (r : Ready) (slot : Nat) : Bool :=
  (r.page (slot / lanesPerPage)).getLsbD (slot % lanesPerPage)

/-- The bit of a page is set in its group. -/
def pageBit (r : Ready) (page : Nat) : Bool :=
  (r.group (page / pagesPerGroup)).getLsbD (page % pagesPerGroup)

theorem slot_eq_iff {a b : Nat} :
    a = b ↔ a / lanesPerPage = b / lanesPerPage ∧ a % lanesPerPage = b % lanesPerPage := by
  simp only [lanesPerPage]
  omega

theorem page_eq_iff {a b : Nat} :
    a = b ↔ a / pagesPerGroup = b / pagesPerGroup ∧ a % pagesPerGroup = b % pagesPerGroup := by
  simp only [pagesPerGroup]
  omega

theorem page_ne_zero_of_laneBit {r : Ready} {slot : Nat} (h : r.laneBit slot = true) :
    r.page (slot / lanesPerPage) ≠ 0#64 := Word.ne_zero h

@[simp] theorem laneBit_swapPending (r : Ready) (ℓ slot : Nat) :
    (r.swapPending ℓ).2.laneBit slot = r.laneBit slot := rfl

@[simp] theorem laneBit_markPage (r : Ready) (slot slot' : Nat) :
    (r.markPage slot).2.laneBit slot' = (r.laneBit slot' || decide (slot = slot')) := by
  by_cases hp : slot' / lanesPerPage = slot / lanesPerPage
  · have hb : slot % lanesPerPage < 64 := Nat.mod_lt _ (by decide)
    have hiff : slot = slot' ↔ slot % lanesPerPage = slot' % lanesPerPage := by
      rw [slot_eq_iff]
      simp [hp]
    simp [laneBit, markPage, withLane, hp, Word.getLsbD_mark hb, hiff]
  · have hne : slot ≠ slot' := fun h => hp (h ▸ rfl)
    simp [laneBit, markPage, withLane, Function.update_of_ne hp, hne]

theorem page_markPage_ne_zero (r : Ready) (slot p : Nat) :
    (r.markPage slot).2.page p ≠ 0#64 ↔ r.page p ≠ 0#64 ∨ p = slot / lanesPerPage := by
  by_cases hp : p = slot / lanesPerPage
  · subst hp
    have hb : (r.markPage slot).2.laneBit slot = true := by simp
    simp only [or_true, iff_true]
    exact page_ne_zero_of_laneBit hb
  · simp [markPage, withLane, hp]

@[simp] theorem pageBit_markGroup (r : Ready) (page page' : Nat) :
    (r.markGroup page).2.pageBit page' = (r.pageBit page' || decide (page = page')) := by
  by_cases hp : page' / pagesPerGroup = page / pagesPerGroup
  · have hb : page % pagesPerGroup < 64 := Nat.mod_lt _ (by decide)
    have hiff : page = page' ↔ page % pagesPerGroup = page' % pagesPerGroup := by
      rw [page_eq_iff]
      simp [hp]
    simp [pageBit, markGroup, withPage, hp, Word.getLsbD_mark hb, hiff]
  · have hne : page ≠ page' := fun h => hp (h ▸ rfl)
    simp [pageBit, markGroup, withPage, Function.update_of_ne hp, hne]

@[simp] theorem laneBit_takePage (r : Ready) (page slot : Nat) :
    (r.takePage page).2.laneBit slot =
      (r.laneBit slot && decide (slot / lanesPerPage ≠ page)) := by
  by_cases hp : slot / lanesPerPage = page
  · simp [laneBit, takePage, hp]
  · simp [laneBit, takePage, hp]

@[simp] theorem pageBit_takeAll (r : Ready) (group page : Nat) :
    (r.takeAll group).2.pageBit page =
      (r.pageBit page && decide (page / pagesPerGroup ≠ group)) := by
  by_cases hp : page / pagesPerGroup = group
  · simp [pageBit, takeAll, hp]
  · simp [pageBit, takeAll, hp]

/-- A group with no bit set summarises none of its pages. -/
theorem pageBit_of_group_eq_zero {r : Ready} {page : Nat}
    (h : r.group (page / pagesPerGroup) = 0#64) : r.pageBit page = false := by
  simp [pageBit, h]

section Code

variable (L : Lens σ Ready)

/-- `LaneSignal::mark`; answers whether the lane was idle, so that the caller notifies. -/
def mark (ghost : MarkStep → σ → σ) (lane slot : Nat) : Prog σ Bool := do
  if ← L.accessWith (fun first => ghost (.swapped first)) (swapPending lane) then
    if ← L.accessWith (fun first => ghost (.paged first)) (markPage slot) then
      L.accessWith (fun _ => ghost .grouped) (markGroup (slot / lanesPerPage))
    return true
  else
    return false

def isPending (ghost : Bool → σ → σ) (lane : Nat) : Prog σ Bool :=
  L.accessWith ghost fun r => (r.pending lane, r)

def hasReady (group : Nat) : Prog σ Bool := .read fun s => decide ((L.get s).group group ≠ 0#64)

/-- `ReadyGroup::take_one_from`. -/
def takeOneFrom (group start : Nat) : Prog σ (Option Nat) := do
  let found ← Prog.read fun s => (L.get s).group group
  Prog.iterate (fun bits =>
    match bits.firstFrom start with
    | none => pure (.inr none)
    | some bit =>
      .act (fun n s => some (L.set (takeBit group bit bits (n != 0) (L.get s)).2 s)) fun n s =>
        match (takeBit group bit bits (n != 0) (L.get s)).1 with
        | none => .ret (.inr (some bit))
        | some observed => .ret (.inl observed)) found

end Code

end Ready

end Fanring
