import Fanring.Conc.Return
import Fanring.Mpsc.Disconnect

/-!
# Lane identities

A `LaneId` outlives the lane and even the channel it was made for, so it must name nothing else,
ever. It consists of a slot, the generation of the slot and the identity of the channel. The
registry gives a slot to the next lane under the next generation, and not at all once the
generations are used up (`Keys`); the channels' identities come from one counter, `NEXT_CHANNEL_ID`,
which is raised by `compare_exchange` and never wraps: a program that asks for one more is stopped.

The counter is shared by everything that builds channels, so it is a system of its own. A `World` is
that system and the channels built so far, each in a state of its own run; channels that were
dropped stay in the list, since their identities stay in people's hands. A channel is built with the
identity its call of `allocate_channel_id` answered.

The second half is what this is for: `pause`, `resume`, `try_recv_from` and `close_lane`, called
with an identity that is stale, return an error and touch nothing.
-/

set_option autoImplicit false

namespace Fanring.Mpsc

open Conc Chan

variable {V : Type} {P : Params} {S : Setting} {s s' s₀ : Chan V} {ℓ : Nat} {rx : Receiver}

/-! ## The identities of channels -/

/-- `u64` values. -/
def u64 : Nat := 2 ^ 64

/-- `NEXT_CHANNEL_ID`, and what the calls of `allocate_channel_id` have answered. -/
structure Ids where
  counter : Nat
  answers : List Nat
  ------------------------------------------------------------------------------------------------
  /-- The identity a thread has taken from the counter and not answered yet. -/
  taken : Nat → Option Nat

/-- `compare_exchange_weak`, which may fail for no reason: `none` if it succeeds, what it observed
    if not. -/
def Ids.exchange (t current : Nat) (spurious : Bool) (s : Ids) : Option Nat × Ids :=
  if s.counter = current ∧ spurious = false then
    (none, { s with counter := current + 1, taken := Function.update s.taken t (some current) })
  else (some s.counter, s)

/-- The call returns; after a failed `expect` there is nothing it answers. -/
def Ids.answer (t : Nat) (id : Option Nat) (s : Ids) : Ids :=
  { s with answers := s.answers ++ id.toList, taken := Function.update s.taken t none }

/-- One round of the loop of `allocate_channel_id`; `none` is a failed `expect`. -/
def allocateRound (t current : Nat) : Prog Ids (Nat ⊕ Option Nat) := do
  if current + 1 < u64 then
    let spurious ← Prog.oracle
    match ← Prog.atomic (Ids.exchange t current (spurious ≠ 0)) with
    | none => return .inr (some current)
    | some observed => return .inl observed
  else
    return .inr none

def allocateChannelId (t : Nat) : Prog Ids (Option Nat) := do
  let current ← Prog.read (·.counter)
  Prog.iterate (allocateRound t) current

/-- Any number of threads that build channels. -/
def idSystem : System Ids Nat Unit where
  may _ _ _ := true
  code t _ := do
    let id ← allocateChannelId t
    Prog.write (Ids.answer t id)

def idStart : Config Ids Nat := ⟨⟨0, [], fun _ => none⟩, fun _ => none⟩

/-- What was answered and what is taken is all different, and below the counter. -/
structure Ids.Ok (s : Ids) : Prop where
  counter_lt : s.counter < u64
  nodup : s.answers.Nodup
  answers_lt : ∀ id ∈ s.answers, id < s.counter
  taken : ∀ t id, s.taken t = some id → id < s.counter ∧ id ∉ s.answers
  apart : ∀ t u id, s.taken t = some id → s.taken u = some id → t = u

theorem Ids.Ok.exchange {s : Ids} (h : s.Ok) {t current : Nat} (hlt : current + 1 < u64)
    (spurious : Bool) : (s.exchange t current spurious).2.Ok := by
  unfold Ids.exchange
  split
  · next heq =>
    obtain ⟨rfl, -⟩ := heq
    have hnew : ∀ u id, Function.update s.taken t (some s.counter) u = some id →
        u = t ∧ id = s.counter ∨ s.taken u = some id := by
      intro u id hu
      by_cases hut : u = t
      · subst hut
        rw [Function.update_self] at hu
        exact .inl ⟨rfl, (Option.some.inj hu).symm⟩
      · rw [Function.update_of_ne hut] at hu
        exact .inr hu
    refine ⟨hlt, h.nodup, fun id hid => Nat.lt_succ_of_lt (h.answers_lt id hid),
      fun u id hu => ?_, fun u u' id hu hu' => ?_⟩
    · rcases hnew u id hu with ⟨-, rfl⟩ | hu
      · exact ⟨Nat.lt_succ_self _, fun hid => absurd (h.answers_lt _ hid) (Nat.lt_irrefl _)⟩
      · exact ⟨Nat.lt_succ_of_lt (h.taken u id hu).1, (h.taken u id hu).2⟩
    · rcases hnew u id hu with ⟨hut, hid⟩ | hold <;> rcases hnew u' id hu' with ⟨hut', hid'⟩ | hold'
      · rw [hut, hut']
      · exact absurd (hid ▸ (h.taken u' id hold').1) (Nat.lt_irrefl _)
      · exact absurd (hid' ▸ (h.taken u id hold).1) (Nat.lt_irrefl _)
      · exact h.apart u u' id hold hold'
  · exact h

theorem Ids.Ok.answer {s : Ids} (h : s.Ok) {t : Nat} {id : Option Nat} (ht : s.taken t = id) :
    (s.answer t id).Ok := by
  have hold : ∀ u k, (s.answer t id).taken u = some k → u ≠ t ∧ s.taken u = some k := by
    intro u k hu
    by_cases hut : u = t
    · subst hut
      exact absurd ((Function.update_self ..).symm.trans hu) (by simp)
    · exact ⟨hut, (Function.update_of_ne hut ..).symm.trans hu⟩
  have hmine : ∀ k ∈ id.toList, s.taken t = some k := fun k hk =>
    ht.trans (Option.mem_toList.mp hk)
  refine ⟨h.counter_lt, ?_, fun k hk => ?_, fun u k hu => ?_, fun u u' k hu hu' => ?_⟩
  · refine List.nodup_append.mpr ⟨h.nodup, by cases id <;> simp, fun a ha b hb heq => ?_⟩
    exact (h.taken t b (hmine b hb)).2 (heq ▸ ha)
  · rcases List.mem_append.mp hk with hk | hk
    · exact h.answers_lt k hk
    · exact (h.taken t k (hmine k hk)).1
  · obtain ⟨hne, hu⟩ := hold u k hu
    refine ⟨(h.taken u k hu).1, fun hk => ?_⟩
    rcases List.mem_append.mp hk with hk | hk
    · exact (h.taken u k hu).2 hk
    · exact hne (h.apart u t k hu (hmine k hk))
  · exact h.apart u u' k (hold u k hu).2 (hold u' k hu').2

/-- A step of one thread leaves alone what the others have taken. -/
def idGuar (t : Nat) (s s' : Ids) : Prop := ∀ u, u ≠ t → s'.taken u = s.taken u

/-- The contract of one thread that builds channels among the others. -/
def idC (t : Nat) : Contract Ids :=
  ⟨Ids.Ok, fun s s' => ∃ u, u ≠ t ∧ idGuar u s s', idGuar t, fun _ _ => True, fun _ => True⟩

theorem taken_stable (t : Nat) (id : Option Nat) : (idC t).Stable fun s => s.taken t = id := by
  rintro s s' - - ⟨u, hu, hg⟩ h
  exact (hg t hu.symm).trans h

theorem allocateRound_spec (t current : Nat) :
    Triple (idC t) (fun s => s.taken t = none) (allocateRound t current) fun r s =>
      s.taken t = r.elim (fun _ => none) id := by
  unfold allocateRound
  split
  · next hlt =>
    refine Triple.bind (Q := fun _ s => s.taken t = none) (Triple.act (taken_stable t none)
      (fun s hg => absurd trivial hg) fun s n s' hs h hf _ => ?_) fun spurious => ?_
    · cases hf
      exact ⟨hs, fun _ _ => rfl, fun s' he => (taken_stable t none).env he hs h⟩
    · refine Triple.bind (Q := fun r s => s.taken t = if r = none then some current else none)
        (Triple.atomic (taken_stable t none) (fun _ => taken_stable t _) fun s _ hs h _ => ?_)
        fun r => ?_
      · refine ⟨hs.exchange hlt _, fun u hu => ?_, ?_⟩ <;> unfold Ids.exchange <;> split
        · exact Function.update_of_ne hu ..
        · rfl
        · exact Function.update_self ..
        · exact h
      · cases r with
        | none => exact Triple.ret (taken_stable t _) fun _ _ h => h
        | some observed => exact Triple.ret (taken_stable t _) fun _ _ h => h
  · exact Triple.ret (taken_stable t _) fun _ _ h => h

/-- **A call answers the identity it took from the counter.** -/
theorem allocateChannelId_spec (t : Nat) :
    Triple (idC t) (fun s => s.taken t = none) (allocateChannelId t) fun id s =>
      s.taken t = id := by
  refine Triple.bind (Q := fun _ s => s.taken t = none) (Triple.read (taken_stable t none)
    (fun _ => taken_stable t none) (fun _ _ _ => rfl) fun _ _ _ h _ => h) fun current => ?_
  refine Triple.iterate_free (fun _ => trivial) (fun _ s => s.taken t = none) (taken_stable t none)
    (fun _ _ h => h) (fun id => taken_stable t id) fun b => (allocateRound_spec t b).post
      fun r _ _ h => ?_
  cases r <;> exact h

def idOutline : Outline idSystem where
  inv := Ids.Ok
  guar := idGuar
  cond _ _ _ := True
  callable _ _ _ := True
  idle t s := s.taken t = none
  guar_refl _ _ _ _ := rfl
  idle_stable t u s s' hu hs hs' hg h := taken_stable t none s s' hs hs' ⟨u, hu, hg⟩ h
  code_ok t _ s hs hidle _ _ := by
    refine (allocateChannelId_spec t).bind (fun id => ?_) s hs hidle
    exact Triple.atomic (taken_stable t id) (fun _ => taken_stable t none) fun s _ hs h _ =>
      ⟨hs.answer h, fun u hu => Function.update_of_ne hu .., Function.update_self ..⟩

theorem ids_ok {c : Config Ids Nat} (h : idSystem.Run System.always idStart c) : c.st.Ok := by
  have hstart : idStart.st.Ok := ⟨by simp [idStart, u64], List.nodup_nil, nofun, nofun, nofun⟩
  have hgood : idOutline.Good idStart := ⟨hstart, fun _ => rfl⟩
  refine (Outline.good_run hgood (h.mono fun c l _ => ?_)).1
  cases l <;> trivial

/-! ## Channels that come and go -/

/-- A channel that was built, in some state of its run. -/
structure Channel (V : Type) where
  params : Params
  config : Config (Chan V) Tid

/-- The identity of a lane. -/
def Channel.laneId (ch : Channel V) (ℓ : Nat) : LaneId := ⟨ch.config.st.key ℓ, ch.params.channelId⟩

structure World (V : Type) where
  ids : Config Ids Nat
  channels : List (Channel V)

/-- What can happen next. -/
inductive World.Step : World V → World V → Prop
  /-- Somebody who builds a channel takes a step and was not answered an identity for it. -/
  | ids {w : World V} {l : Label Nat Unit} {ids' : Config Ids Nat}
      (hexec : idSystem.exec w.ids l = some ids')
      (hsame : ids'.st.answers = w.ids.st.answers) : Step w { w with ids := ids' }
  /-- A call is answered: the channel is built with the identity that was answered. -/
  | build {w : World V} {l : Label Nat Unit} {ids' : Config Ids Nat} {P : Params}
      (hexec : idSystem.exec w.ids l = some ids')
      (hnew : ids'.st.answers = w.ids.st.answers ++ [P.channelId]) :
      Step w ⟨ids', w.channels ++ [⟨P, start V P⟩]⟩
  /-- A transition of a channel. -/
  | act {w : World V} {i : Nat} {ch : Channel V} {l : Label Tid (Op V)}
      {c : Config (Chan V) Tid} (hi : w.channels[i]? = some ch)
      (hexec : (system V ch.params).exec ch.config l = some c) :
      Step w { w with channels := w.channels.set i { ch with config := c } }

/-- Every history of channels being built and used. -/
def World.Reached (w : World V) : Prop := Relation.ReflTransGen World.Step ⟨idStart, []⟩ w

/-- The channels have the identities that were answered, in order, and are in runs of their own. -/
structure World.Ok (w : World V) : Prop where
  ids : idSystem.Run System.always idStart w.ids
  answers : w.channels.map (·.params.channelId) = w.ids.st.answers
  reaches : ∀ ch ∈ w.channels, Reaches V ch.params ch.config

theorem World.Ok.step {w w' : World V} (h : w.Ok) (hstep : World.Step w w') : w'.Ok := by
  cases hstep with
  | ids hexec hsame =>
    exact ⟨h.ids.tail ⟨_, trivial, hexec⟩, h.answers.trans hsame.symm, h.reaches⟩
  | build hexec hnew =>
    refine ⟨h.ids.tail ⟨_, trivial, hexec⟩, ?_, fun ch hch => ?_⟩
    · rw [List.map_append, h.answers, hnew]
      rfl
    · rcases List.mem_append.mp hch with hch | hch
      · exact h.reaches ch hch
      · rw [List.mem_singleton.mp hch]
        exact .refl
  | @act i ch _ c hi hexec =>
    have hmem := List.mem_of_getElem? hi
    refine ⟨h.ids, ?_, fun ch' hch' => ?_⟩
    · obtain ⟨hlt, rfl⟩ := List.getElem?_eq_some_iff.mp hi
      rw [← h.answers]
      refine List.ext_getElem? fun j => ?_
      by_cases hij : i = j
      · subst hij
        simp [hlt]
      · simp [List.getElem?_set_ne hij]
    · rcases List.mem_or_eq_of_mem_set hch' with hch' | rfl
      · exact h.reaches ch' hch'
      · exact (h.reaches ch hmem).tail ⟨_, trivial, hexec⟩

theorem World.Reached.ok {w : World V} (h : w.Reached) : w.Ok := by
  induction h with
  | refl => exact ⟨.refl, rfl, fun ch hch => by cases hch⟩
  | tail _ hstep ih => exact ih.step hstep

/-- No identity of a channel is given out twice. -/
theorem World.Ok.channel_unique {w : World V} (h : w.Ok) {i j : Nat} {ch ch' : Channel V}
    (hi : w.channels[i]? = some ch) (hj : w.channels[j]? = some ch')
    (heq : ch.params.channelId = ch'.params.channelId) : i = j := by
  have hnodup : (w.channels.map (·.params.channelId)).Nodup := h.answers ▸ (ids_ok h.ids).nodup
  have hlt := (List.getElem?_eq_some_iff.mp hi).1
  refine (List.getElem?_inj (by simpa using hlt) hnodup).mp ?_
  rw [List.getElem?_map, List.getElem?_map, hi, hj, Option.map_some, Option.map_some, heq]

/-- **No two registrations have the same identity**, in one channel or in two. -/
theorem World.Ok.lane_unique {w : World V} (h : w.Ok) {i j ℓ ℓ' : Nat} {ch ch' : Channel V}
    (hi : w.channels[i]? = some ch) (hj : w.channels[j]? = some ch')
    (hℓ : ℓ < ch.config.st.count) (hℓ' : ℓ' < ch'.config.st.count)
    (heq : ch.laneId ℓ = ch'.laneId ℓ') : i = j ∧ ℓ = ℓ' := by
  obtain ⟨hkey, hid⟩ := LaneId.mk.inj heq
  obtain rfl := h.channel_unique hi hj hid
  obtain rfl : ch = ch' := Option.some.inj (hi.symm.trans hj)
  have hkeys := (h.reaches ch (List.mem_of_getElem? hi)).good.1.core.keys
  exact ⟨rfl, hkeys.distinct ℓ hℓ ℓ' hℓ' hkey⟩

/-! ## Operations that return without waiting for anybody -/

/-- Code that always returns, unless an `expect` in it fails. -/
abbrev Prompt {α : Type} (p : Prog (Chan V) α) : Prop := p.Prompt (·.panicked = true)

theorem prompt_panic {α : Type} : Prompt (panic : Prog (Chan V) α) :=
  .fail (f := fun s : Chan V => { s with panicked := true }) (fun _ => rfl) _

theorem prompt_ensure (p : Prop) [Decidable p] : Prompt (ensure p : Prog (Chan V) Unit) := by
  unfold ensure
  split
  · exact .ret _
  · exact prompt_panic

theorem prompt_popValue (ℓ : Nat) (targeted : Bool) :
    Prompt (popValue ℓ targeted : Prog (Chan V) V) := by
  refine .bind (.atomic _) fun found => ?_
  cases found with
  | none => exact prompt_panic
  | some v => exact .ret v

theorem prompt_notify {L : Lens (Chan V) WaitCell} {ghost : NotifyStep → Chan V → Chan V} :
    Prompt (WaitCell.notify L ghost) := by
  refine .bind (.atomic _) fun waiting => .bind (.atomic _) fun _ => ?_
  split
  · exact .atomic _
  · exact .ret _

theorem prompt_closing (lane : Lane) : Prompt (lane.closing : Prog (Chan V) Lane) :=
  .bind (prompt_ensure _) fun _ => .ret _

theorem prompt_reload (lane : Lane) : Prompt (lane.reload : Prog (Chan V) Lane) := by
  unfold Lane.reload
  split
  · exact .bind (.atomic _) fun _ => .ret _
  · exact .ret _

theorem prompt_releasePending (lane : Lane) :
    Prompt (lane.releasePending : Prog (Chan V) (Bool × Lane)) := by
  refine .bind (prompt_closing lane) fun lane => ?_
  split
  · exact .ret _
  · exact .bind (.atomic _) fun _ => .ret _

theorem prompt_settleEmpty (lane : Lane) :
    Prompt (lane.settleEmpty : Prog (Chan V) (EmptyLane × Lane)) := by
  refine .bind (prompt_releasePending lane) fun r => .bind (.atomic _) fun _ =>
    .bind (.atomic _) fun n => ?_
  split
  · exact .bind (.atomic _) fun _ => .ret _
  · refine .bind (.bind (.atomic _) fun dropped => ?_) fun _ => .ret _
    split
    · exact .atomic _
    · exact .ret _

theorem prompt_refill (lane : Lane) :
    Prompt (lane.refill : Prog (Chan V) (Option EmptyLane × Lane)) := by
  refine .bind (prompt_closing lane) fun lane => .bind (prompt_reload lane) fun lane => ?_
  split
  · exact .bind (prompt_settleEmpty lane) fun _ => .ret _
  · exact .ret _

theorem prompt_popTargeted (lane : Lane) :
    Prompt (lane.popTargeted : Prog (Chan V) ((V × Bool) × Lane)) := by
  refine .bind (prompt_popValue _ _) fun v => .bind (prompt_ensure _) fun _ => .bind ?_
    fun _ => .ret _
  unfold Lane.releaseBatchDone
  split
  · exact prompt_releasePending _
  · exact .ret _

theorem prompt_adoptAll (lanes : List Lane) (rx : Receiver) :
    Prompt (Receiver.adoptAll lanes rx : Prog (Chan V) Receiver) := by
  induction lanes generalizing rx with
  | nil => exact .ret _
  | cons lane lanes ih =>
    unfold Receiver.adoptAll
    split
    · exact ih _
    · exact prompt_panic

theorem prompt_laneMut (rx : Receiver) (id : LaneId) :
    Prompt (rx.laneMut P id : Prog (Chan V) (Option Lane × Receiver)) := by
  unfold Receiver.laneMut
  split
  · exact .ret _
  · refine .bind (.bind (.atomic _) fun generation => ?_) fun _ => .ret _
    split
    · exact .ret _
    · exact .bind (.atomic _) fun r => .bind (prompt_adoptAll _ _) fun _ => .ret _

theorem prompt_mark (lane : Lane) : Prompt (Receiver.markLane lane : Prog (Chan V) Unit) := by
  refine .bind (.bind (.atomic _) fun first => ?_) fun _ => .ret _
  split
  · refine .bind (.atomic _) fun first => ?_
    split
    · exact .bind (.atomic _) fun _ => .ret _
    · exact .ret _
  · exact .ret _

theorem prompt_closeConsumer (L : Lens (Chan V) (Ring V)) (first ghost : Chan V → Chan V)
    (c : Bool) :
    Prompt (Ring.closeConsumer L first ghost c) := by
  unfold Ring.closeConsumer
  split
  · refine .bind (.atomic _) fun _ => .bind (.atomic _) fun last => ?_
    split
    · exact .bind (.atomic _) fun _ => .bind (.atomic _) fun _ => .atomic _
    · exact .ret _
  · exact .bind (.atomic _) fun _ => .atomic _

theorem prompt_retireLane (rx : Receiver) (key : LaneKey) :
    Prompt (rx.retireLane P key : Prog (Chan V) Receiver) := by
  unfold Receiver.retireLane
  split
  · exact .ret _
  · refine .bind (.atomic _) fun _ => .bind (.atomic _) fun _ => ?_
    split
    · exact .bind (prompt_closeConsumer _ _ _ _) fun _ => .ret _
    · exact .ret _

theorem prompt_reply (r : Reply V) (rx : Receiver) : Prompt (rx.reply r) := .atomic _

theorem prompt_pause (rx : Receiver) (id : LaneId) :
    Prompt (rx.pause P id : Prog (Chan V) (Bool × Receiver)) := by
  refine .bind (prompt_laneMut rx id) fun r => ?_
  obtain ⟨lane, rx⟩ := r
  cases lane with
  | none => exact .ret _
  | some lane =>
    refine .bind (prompt_releasePending _) fun r => ?_
    have hend : ∀ rx : Receiver, Prompt (if rx.paused id.key.slot then (pure (true, rx))
        else pure (true, ({ rx with
          paused := Function.update rx.paused id.key.slot true }).unlist id.key) :
        Prog (Chan V) (Bool × Receiver)) := by
      intro rx
      split
      · exact .ret _
      · exact .ret _
    obtain ⟨released, lane⟩ := r
    cases released with
    | false => exact hend _
    | true => exact .bind prompt_notify fun _ => hend _

theorem prompt_resume (rx : Receiver) (id : LaneId) :
    Prompt (rx.resume P id : Prog (Chan V) (Bool × Receiver)) := by
  refine .bind (prompt_laneMut rx id) fun r => ?_
  obtain ⟨lane, rx⟩ := r
  cases lane with
  | none => exact .ret _
  | some lane =>
    dsimp only
    split
    · exact .bind (prompt_mark lane) fun _ => .bind prompt_notify fun _ => .ret _
    · exact .ret _

theorem prompt_popFrom (rx : Receiver) (lane : Lane) :
    Prompt (rx.popFrom lane : Prog (Chan V) (V × Receiver)) := by
  refine .bind (prompt_popTargeted lane) fun r => ?_
  obtain ⟨⟨v, released⟩, lane⟩ := r
  have hend : Prompt (if !rx.paused lane.key.slot && !lane.queued then
      (Receiver.markLane lane).bind fun _ => .ret (v, rx.enqueue lane)
      else .ret (v, rx.setLane lane) : Prog (Chan V) (V × Receiver)) := by
    split
    · exact .bind (prompt_mark lane) fun _ => .ret _
    · exact .ret _
  cases released with
  | false => exact hend
  | true => exact .bind prompt_notify fun _ => hend

theorem prompt_tryRecvFrom (rx : Receiver) (id : LaneId) :
    Prompt (rx.tryRecvFrom P id : Prog (Chan V) (Except RecvError (Item V) × Receiver)) := by
  refine .bind (prompt_laneMut rx id) fun r => ?_
  obtain ⟨lane, rx⟩ := r
  cases lane with
  | none => exact .ret _
  | some lane =>
    refine .bind (prompt_refill lane) fun r => ?_
    have hpop : ∀ lane : Lane, Prompt ((rx.popFrom lane).bind fun r =>
        .ret (.ok ⟨lane.ix, none, r.1⟩, r.2) :
        Prog (Chan V) (Except RecvError (Item V) × Receiver)) :=
      fun lane => .bind (prompt_popFrom rx lane) fun _ => .ret _
    obtain ⟨empty, lane⟩ := r
    cases empty with
    | none => exact hpop lane
    | some empty =>
      cases empty with
      | keep released =>
        cases released with
        | false => exact hpop lane
        | true => exact .bind prompt_notify fun _ => hpop lane
      | idle disconnected released =>
        have hend : Prompt (if disconnected then
            (((rx.setLane lane).unlist id.key).retireLane P id.key).bind fun rx =>
              .ret (.error .disconnected, rx)
            else .ret (.error .empty, (rx.setLane lane).unlist id.key) :
            Prog (Chan V) (Except RecvError (Item V) × Receiver)) := by
          split
          · exact .bind (prompt_retireLane _ _) fun _ => .ret _
          · exact .ret _
        cases released with
        | false => exact hend
        | true => exact .bind prompt_notify fun _ => hend

theorem prompt_closeLane (rx : Receiver) (id : LaneId) :
    Prompt (rx.closeLane P id : Prog (Chan V) (Bool × Receiver)) := by
  refine .bind (prompt_laneMut rx id) fun r => ?_
  obtain ⟨lane, rx⟩ := r
  cases lane with
  | none => exact .ret _
  | some lane =>
    refine .bind ?_ fun _ => .bind (prompt_retireLane _ _) fun _ => .ret _
    unfold Receiver.shutLane
    dsimp only
    split
    · exact .bind (prompt_closeConsumer _ _ _ _) fun _ => prompt_notify
    · exact prompt_notify

/-- **The operations on a given lane return**, whatever the senders do. -/
theorem RecvOp.prompt (op : RecvOp V) (hop : op.targeted = true) : Prompt (op.code P) := by
  refine .bind (.atomic _) fun rx => ?_
  cases op with
  | pause id => exact .bind (prompt_pause rx id) fun _ => prompt_reply _ _
  | resume id => exact .bind (prompt_resume rx id) fun _ => prompt_reply _ _
  | tryRecvFrom id => exact .bind (prompt_tryRecvFrom rx id) fun _ => prompt_reply _ _
  | closeLane id => exact .bind (prompt_closeLane rx id) fun _ => prompt_reply _ _
  | _ => cases hop

/-! ## Stale identities -/

/-- The identity an operation is called with. -/
def RecvOp.laneId : RecvOp V → Option LaneId
  | .pause id => some id
  | .resume id => some id
  | .tryRecvFrom id => some id
  | .closeLane id => some id
  | _ => none

/-- The answer is an error. -/
def Reply.fails : Reply V → Bool
  | .control ok => !ok
  | .recv (.error _) => true
  | _ => false

/-- What the receiver has not touched since `s₀`, but for adopting the lanes that were pending. -/
structure Untouched (s₀ s : Chan V) : Prop where
  count : s₀.count ≤ s.count
  trace : s.trace = s₀.trace
  key : ∀ ℓ < s₀.count, s.key ℓ = s₀.key ℓ
  shut : ∀ ℓ < s₀.count, s.shut ℓ = s₀.shut ℓ
  stage : ∀ ℓ < s₀.count, s.stage ℓ = s₀.stage ℓ ∨ s₀.stage ℓ = .pending ∧ s.stage ℓ = .adopted
  ring : ∀ ℓ < s₀.count, s₀.shut ℓ = false → s₀.stage ℓ ≠ .retired →
    RingFrame (s₀.ring ℓ) (s.ring ℓ)

theorem Untouched.refl (s : Chan V) : Untouched s s :=
  ⟨le_rfl, rfl, fun _ _ => rfl, fun _ _ => rfl, fun _ _ => .inl rfl, fun _ _ _ _ => .refl _⟩

theorem RingFrame.trans {r₁ r₂ r₃ : Ring V} (h₁ : RingFrame r₁ r₂) (h₂ : RingFrame r₂ r₃) :
    RingFrame r₁ r₃ :=
  ⟨h₂.cap.trans h₁.cap, h₂.head.trans h₁.head, h₂.cachedTail.trans h₁.cachedTail,
    h₂.released.trans h₁.released, h₂.found.trans h₁.found, h₁.tail.trans h₂.tail,
    h₁.log.trans h₂.log⟩

theorem Untouched.sender (h : Untouched s₀ s) (hc : Core P s) (hℓ : ℓ < s.count)
    (ha : SenderAct P ℓ s s') : Untouched s₀ s' := by
  have hf := ha.frame hc hℓ
  have hlt : ∀ {ℓ'}, ℓ' < s₀.count → ℓ' < s.count := fun h' => lt_of_lt_of_le h' h.count
  refine ⟨h.count.trans hf.count, hf.trace.trans h.trace, fun ℓ' h' => ?_, fun ℓ' h' => ?_,
    fun ℓ' h' => ?_, fun ℓ' h' hsh hst => ?_⟩
  · exact (hf.key ℓ' (hlt h')).trans (h.key ℓ' h')
  · exact (hf.shut ℓ' (hlt h')).trans (h.shut ℓ' h')
  · rw [hf.stage ℓ' (hlt h')]
    exact h.stage ℓ' h'
  · refine (h.ring ℓ' h' hsh hst).trans (hf.ring ℓ' (hlt h') ((h.shut ℓ' h').trans hsh) ?_)
    rcases h.stage ℓ' h' with heq | ⟨-, heq⟩
    · rwa [heq]
    · simp [heq]

theorem Untouched.takePending (h : Untouched s₀ s) (hc : Core P s) :
    Untouched s₀ (Receiver.takePending s).2 := by
  refine ⟨h.count, h.trace, h.key, h.shut, fun ℓ hℓ => ?_, h.ring⟩
  simp only [Receiver.takePending]
  split
  · next hm =>
    have hp := ((hc.mem_pending ℓ).mp hm).2
    rcases h.stage ℓ hℓ with heq | ⟨-, heq⟩
    · exact .inr ⟨heq.symm.trans hp, rfl⟩
    · cases heq.symm.trans hp
  · exact h.stage ℓ hℓ

/-- The receiver has answered with an error, and has only adopted lanes. -/
structure Inert (s₀ s : Chan V) : Prop where
  fails : LastReply (·.fails = true) s
  adopts : Adopts s₀.rx s.rx
  untouched : Untouched s₀ s

/-- The look-up of a stale identity, and what follows if it finds nothing. -/
theorem stale_spec {α : Type} {id : LaneId} {f : Option Lane × Receiver → Prog (Chan V) α}
    {r : Reply V} {k : α → Prog (Chan V) Unit} (hitems : r.items = [])
    (hfails : r.fails = true) (hpoll : r ≠ .poll none)
    (hf : ∀ rx, ∃ a, f (none, rx) = .ret a ∧ k a = rx.reply r) :
    Triple (recvC P (.watching false .none .none))
      (fun s => rx = s₀.rx ∧ View (.watching false .none .none) (.holding [] false 0) rx s ∧
        Stale P id s ∧ Untouched s₀ s)
      (((rx.laneMut P id).bind f).bind k) fun _ => Inert s₀ := by
  have hkept : ∀ x rx, Kept P (.watching false .none .none) x rx (Untouched s₀) :=
    fun x rx s s' ℓ hc hℓ ha _ h => h.sender hc hℓ ha
  rw [Prog.bind_assoc]
  refine Triple.given (φ := rx = s₀.rx) (fun _ _ h => h.1) fun hrx => ?_
  refine Triple.bind ((laneMut_stale id hkept fun s hc h => h.takePending hc).pre
    fun s _ h => h.2) fun found => ?_
  obtain ⟨lane, rx'⟩ := found
  refine Triple.given (φ := lane = none ∧ Adopts rx rx') (fun _ _ h => ⟨h.1, h.2.1⟩) fun h => ?_
  obtain ⟨rfl, hadopts⟩ := h
  obtain ⟨a, ha, hk⟩ := hf rx'
  rw [ha, Prog.ret_bind, hk]
  refine (reply_with (o := false) (R := Untouched s₀) hpoll
    (fun s s' ℓ hc hℓ ha h => h.sender hc hℓ ha) fun s rx h => { h with }).conseq
    (fun s _ h => ⟨⟨false, 0, ?_, .nil hitems, fun h => by cases h⟩, h.2.2.2⟩)
    fun _ s _ h => ⟨⟨r, h.2.1.2, hfails⟩, ?_, h.2.2⟩
  · rw [hitems]
    exact h.2.2.1
  · rw [h.2.1.1, ← hrx]
    exact hadopts

/-- **An operation with a stale identity is inert.** -/
theorem RecvOp.stale_code (op : RecvOp V) {id : LaneId} (hop : op.laneId = some id)
    (hb : Between false s₀) (hi : Inv P false s₀) (hstale : Stale P id s₀) :
    wp (recvC P (.watching false .none .none)) (op.code P) (fun _ => Inert s₀) s₀ := by
  refine Triple.bind (readRx_spec (Q := fun rx s => rx = s₀.rx ∧
    View (.watching false .none .none) (.holding [] false 0) rx s ∧ Stale P id s ∧
      Untouched s₀ s) fun rx => ?_) (fun rx => ?_) s₀ hi ⟨rfl, hb.start, hstale, .refl s₀⟩
  · exact (Contract.Stable.pure _).and (Kept.stable (Kept.and Stale.kept
      fun s s' ℓ hc hℓ ha _ h => h.sender hc hℓ ha))
  · cases op with
    | pause id' =>
      cases hop
      exact stale_spec (r := .control false) rfl rfl (by simp) fun rx => ⟨_, rfl, rfl⟩
    | resume id' =>
      cases hop
      exact stale_spec (r := .control false) rfl rfl (by simp) fun rx => ⟨_, rfl, rfl⟩
    | tryRecvFrom id' =>
      cases hop
      exact stale_spec (r := .recv (.error .disconnected)) rfl rfl (by simp)
        fun rx => ⟨_, rfl, rfl⟩
    | closeLane id' =>
      cases hop
      exact stale_spec (r := .control false) rfl rfl (by simp) fun rx => ⟨_, rfl, rfl⟩
    | _ => cases hop

theorem RecvOp.targeted_of_laneId {op : RecvOp V} {id : LaneId} (h : op.laneId = some id) :
    op.targeted = true := by
  cases op with
  | pause | resume | tryRecvFrom | closeLane => rfl
  | _ => cases h

/-- The call of such an operation in a run. -/
theorem stale_call {c c₁ : Config (Chan V) Tid} {op : RecvOp V} {id : LaneId}
    (h : Reaches V P c) (hop : op.laneId = some id) (hstale : Stale P id c.st)
    (hcall : (system V P).exec c (.call .rx (.recv op)) = some c₁) :
    (outline V P false).Calling .rx (fun _ => False) (Inert c.st) c₁ := by
  obtain ⟨-, hmay, -⟩ := System.exec_call hcall
  refine h.good.calling hcall fun hidle => ?_
  have hb : Between false c.st := Rests.between hidle hmay
  have hpanic : ∀ s : Chan V, Inv P false s → ¬ s.panicked = true := fun s hs hp =>
    absurd (hs.core.noPanic.symm.trans hp) (by simp)
  exact wp.prompt (C := recvC P (.watching false .none .none)) hpanic
    (op.prompt (RecvOp.targeted_of_laneId hop)) (op.stale_code hop hb h.good.1 hstale)

/-- The identity is that of a retired lane of the channel, or of a lane of another one. -/
def World.Expired (w : World V) (i : Nat) (id : LaneId) : Prop :=
  ∃ j ch ℓ, w.channels[j]? = some ch ∧ ℓ < ch.config.st.count ∧ id = ch.laneId ℓ ∧
    (j = i → ch.config.st.stage ℓ = .retired)

theorem World.Ok.stale {w : World V} (h : w.Ok) {i : Nat} {ch : Channel V} {id : LaneId}
    (hi : w.channels[i]? = some ch) (hid : w.Expired i id) : Stale ch.params id ch.config.st := by
  obtain ⟨j, ch', ℓ, hj, hℓ, rfl, hst⟩ := hid
  by_cases hij : j = i
  · subst hij
    obtain rfl : ch' = ch := Option.some.inj (hj.symm.trans hi)
    exact .inr ⟨ℓ, hℓ, rfl, hst rfl⟩
  · exact .inl fun heq => hij (h.channel_unique hj hi heq)

/-- **Identities are never reused, and stale ones are inert.** Whatever channels were built and
    whatever was done to them, no two registrations have the same identity. And `pause`, `resume`,
    `try_recv_from` and `close_lane`, called on a channel with the identity of a lane that was
    retired or of a lane of another channel, return an error; until then the receiver has adopted
    pending lanes and has touched nothing else. -/
theorem lane_ids_unique_and_inert {w : World V} (h : w.Reached) :
    (∀ (i j : Nat) (ch ch' : Channel V) (ℓ ℓ' : Nat),
      w.channels[i]? = some ch → w.channels[j]? = some ch' →
      ℓ < ch.config.st.count → ℓ' < ch'.config.st.count → ch.laneId ℓ = ch'.laneId ℓ' →
      i = j ∧ ℓ = ℓ') ∧
    ∀ (i : Nat) (ch : Channel V) (id : LaneId) (op : RecvOp V) (c₁ : Config (Chan V) Tid),
      w.channels[i]? = some ch → w.Expired i id → op.laneId = some id →
      (system V ch.params).exec ch.config (.call .rx (.recv op)) = some c₁ →
      Answering (P := ch.params) (·.fails = true) c₁ ∧
      ∀ c₂, (system V ch.params).During System.always .rx c₁ c₂ → c₂.pool .rx = none →
        Adopts ch.config.st.rx c₂.st.rx ∧ Untouched ch.config.st c₂.st := by
  refine ⟨fun i j ch ch' ℓ ℓ' hi hj hℓ hℓ' heq => h.ok.lane_unique hi hj hℓ hℓ' heq,
    fun i ch id op c₁ hi hid hop hcall => ?_⟩
  have hcalling := stale_call (h.ok.reaches ch (List.mem_of_getElem? hi)) hop (h.ok.stale hi hid)
    hcall
  refine ⟨answering_of_calling hcalling fun _ _ hend => hend.fails, fun c₂ hduring hback => ?_⟩
  have hend := (hcalling.during (hduring.mono fun c l _ => ok_always c l)).2
  rw [hback] at hend
  have hend : Inert ch.config.st c₂.st := hend
  exact ⟨hend.adopts, hend.untouched⟩

theorem World.Reached.run {w : World V} {i : Nat} {ch : Channel V} {c : Config (Chan V) Tid}
    (h : w.Reached) (hi : w.channels[i]? = some ch)
    (hrun : (system V ch.params).Run System.always ch.config c) :
    World.Reached { w with channels := w.channels.set i { ch with config := c } } := by
  induction hrun with
  | refl =>
    obtain ⟨hlt, rfl⟩ := List.getElem?_eq_some_iff.mp hi
    rwa [List.set_getElem_self]
  | tail _ hstep ih =>
    obtain ⟨l, -, hexec⟩ := hstep
    have hlt := (List.getElem?_eq_some_iff.mp hi).1
    have := ih.tail (World.Step.act (List.getElem?_set_self hlt) hexec)
    rwa [List.set_set] at this

/-- One channel was built. -/
def oneBuilt : World Nat :=
  ⟨idSystem.after idStart (System.turn 0 () 5), [⟨⟨true, 0, 4⟩, start Nat ⟨true, 0, 4⟩⟩]⟩

theorem reached_oneBuilt : oneBuilt.Reached := by
  have h₁ : World.Reached ⟨idSystem.after idStart (System.turn 0 () 0),
      ([] : List (Channel Nat))⟩ :=
    .single (.ids (l := .call 0 ()) rfl rfl)
  have h₂ := h₁.tail (.ids (l := .step 0 0) rfl rfl)
  have h₃ := h₂.tail (.ids (l := .step 0 0) rfl rfl)
  have h₄ := h₃.tail (.ids (l := .step 0 0) rfl rfl)
  have h₅ := h₄.tail (.ids (l := .step 0 0) rfl rfl)
  exact h₅.tail (.build (l := .step 0 0) (P := ⟨true, 0, 4⟩) rfl rfl)

/-- The identity of a lane that is retired, on the channel it was made for. -/
theorem retired_id_is_inert :
    let ch : Channel Nat := ⟨⟨true, 0, 4⟩, concluded⟩
    let c₁ := (system Nat ⟨true, 0, 4⟩).after concluded [.call .rx (.recv (.pause (ch.laneId 0)))]
    Answering (P := ⟨true, 0, 4⟩) (·.fails = true) c₁ := by
  intro ch c₁
  obtain ⟨hcall, hduring, -, -⟩ := asking_concluded
  have hreached : World.Reached ⟨oneBuilt.ids, [ch]⟩ :=
    reached_oneBuilt.run
      (i := 0) rfl ((reaches_inherited.tail ⟨_, trivial, hcall⟩).trans hduring.run)
  refine ((lane_ids_unique_and_inert hreached).2 0 ch (ch.laneId 0) (.pause (ch.laneId 0)) c₁ rfl
    ⟨0, ch, 0, rfl, by decide +kernel, rfl, fun _ => ?_⟩ rfl
    (System.exec_after (by decide +kernel))).1
  decide +kernel

end Fanring.Mpsc
