import Fanring.Mpsc.PollSpec
import Mathlib.Data.Prod.Lex

/-!
# The MPSC channel: single-value receives

Triples for `try_recv` and its relatives. The receive loop polls the front lane until a poll answers
a value or the rotation is empty after a collection; then it reports why there is nothing. Senders
that keep publishing can keep it busy, so whether it returns depends on what it is run for: a
receiver that looks for a lane it can receive from comes to it, and one that is alone runs out of
lanes. `Rank` is the order its rounds go down in.
-/

set_option autoImplicit false

namespace Fanring.Mpsc

open Conc Chan

variable {V : Type} {P : Params} {S : Setting} {s s' : Chan V} {ℓ : Nat} {x : Ctx V}
  {rx rx' : Receiver} {lane lane' : Lane} {key : LaneKey} {h : List (Nat × V)} {c : Bool} {n : Nat}

/-! ## The order of the rounds -/

/-- How far a receive is from its end: whether the lane it looks for is still to be queued, whether
    a collection is due, and what is left to poll. For a receiver that is alone, the lanes left. -/
structure Rank where
  far : Nat
  due : Nat
  weight : Nat

def Rank.lt (i j : Rank) : Prop :=
  i.far < j.far ∨ i.far ≤ j.far ∧ (i.due < j.due ∨ i.due ≤ j.due ∧ i.weight < j.weight)

theorem Rank.lt_trans {i j k : Rank} (h₁ : i.lt j) (h₂ : j.lt k) : i.lt k := by
  simp only [Rank.lt] at *
  omega

theorem Rank.wf : WellFounded Rank.lt := by
  refine Subrelation.wf (r := InvImage (· < ·) fun i : Rank =>
    (toLex (i.far, toLex (i.due, i.weight)) : Nat ×ₗ Nat ×ₗ Nat)) ?_ (InvImage.wf _ wellFounded_lt)
  rintro i j h
  simp only [InvImage, Prod.Lex.toLex_lt_toLex]
  simp only [Rank.lt] at h
  omega

def rankOf (a : Aim) (n : Nat) (rx : Receiver) : Rank :=
  match a with
  | .free _ => ⟨0, 0, 0⟩
  | .target _ q => ⟨if q.key ∈ rx.active then 0 else 1,
      if rx.itemsUntilReadyPoll = 0 then 1 else 0, rx.weight⟩
  | .alone _ => ⟨n, 0, 0⟩

/-- The rank goes down, as long as the receive has to return. -/
def Nearer (a : Aim) (c : Bool) (i j : Rank) : Prop :=
  match a with
  | .free _ => True
  | .target _ _ => c = true ∨ i.lt j
  | .alone _ => i.lt j

theorem Nearer.trans {a : Aim} {i j k : Rank} (h₁ : Nearer a c i j) (h₂ : j = k ∨ Nearer a c j k) :
    Nearer a c i k := by
  rcases h₂ with rfl | h₂
  · exact h₁
  match a with
  | .free _ => trivial
  | .target _ _ =>
    rcases h₁ with h₁ | h₁
    · exact .inl h₁
    · exact h₂.imp_right fun h₂ => Rank.lt_trans h₁ h₂
  | .alone _ => exact Rank.lt_trans h₁ h₂

theorem Nearer.lt {i j : Rank} (h : Nearer S.aim c i j) (hu : S.Urgent c) (hv : View S x rx s)
    (hx : x.caught = c) (hg : ¬ S.aim.goal s) : i.lt j := by
  have haim := hv.aim
  match ha : S.aim with
  | .free _ => simp [ha, Aim.goal] at hg
  | .target _ q =>
    rw [ha] at h hg haim
    refine h.resolve_left fun hc => hg ⟨?_, ?_⟩
    · by_contra hm
      exact absurd (hc.symm.trans (hu _ _ ha (by simpa using hm))) (by simp)
    · simpa [AimOk, hx, hc] using haim
  | .alone _ =>
    rw [ha] at h
    exact h

/-- A poll that answers no value goes down, also after the collection before it. -/
theorem Closer.nearer {a : Aim} {rx₁ : Receiver} {n' : Nat} (hcl : Closer a c rx₁ n rx' n')
    (hkeep : rx.active ⊆ rx₁.active)
    (hstep : ∀ ℓ q, a = .target ℓ q → c = false → rx.active = [] ∧ q.key ∈ rx₁.active ∨
      rx.itemsUntilReadyPoll = 0 ∧ rx₁.itemsUntilReadyPoll ≠ 0 ∨ rx₁ = rx) :
    Nearer a c (rankOf a n' rx') (rankOf a n rx) := by
  match a with
  | .free _ => trivial
  | .alone dry => exact .inl (hcl.alone dry rfl)
  | .target ℓ q =>
    by_cases hc : c = true
    · exact .inl hc
    have hc' : c = false := by simpa using hc
    have hfar : q.key ∈ rx.active → q.key ∈ rx'.active := fun hm =>
      hcl.target ℓ q rfl hc' (hkeep hm)
    have hle : (rankOf (.target ℓ q) n' rx').far ≤ (rankOf (.target ℓ q) n rx).far := by
      simp only [rankOf]
      split
      · exact Nat.zero_le _
      · next hn => rw [if_neg fun hm => hn (hfar hm)]
    right
    rcases hstep ℓ q rfl hc' with ⟨hnil, hm⟩ | ⟨h₀, h₁⟩ | rfl
    · refine .inl ?_
      simp [rankOf, hnil, hcl.target ℓ q rfl hc' hm]
    · refine .inr ⟨hle, .inl ?_⟩
      simp [rankOf, hcl.items, h₀, h₁]
    · refine .inr ⟨hle, .inr ⟨?_, hcl.weight⟩⟩
      simp [rankOf, hcl.items]

/-! ## One round -/

/-- A collection is not put off to a rotation that may stay empty. -/
def Receiver.Solvent (rx : Receiver) : Prop := rx.itemsUntilReadyPoll = 0 → rx.active ≠ []

/-- What a receive attempt leaves; `i` is the rank it started from. -/
def Answered (P : Params) (S : Setting) (tagged : Bool) (h : List (Nat × V)) (c : Bool) (i : Rank)
    (rx' : Receiver) (s : Chan V) : Receiver.Received V → Prop
  | (.ok item, released) => ∃ n o, Debt rx' released o ∧ Genuine P tagged item s ∧
      View S { Ctx.holding (h ++ [item.pair]) true n with owed := o } rx' s
  | (.error e, some key) => e = .empty ∧ ∃ n o, Nearer S.aim c (rankOf S.aim n rx') i ∧
      Debt rx' (some key) o ∧ (S.strict = true → rx'.Solvent) ∧
      View S { Ctx.holding h c n with owed := o } rx' s
  | (.error e, none) => ∃ n, NoValue S (.holding h c n) rx' s e ∧
      (S.strict = true → rx'.Solvent) ∧ S.Excuses c e

/-- The receive loop between two rounds. -/
def Looping (S : Setting) (h : List (Nat × V)) (c : Bool) (i : Rank) (rx : Receiver)
    (s : Chan V) : Prop :=
  ∃ n, Nearer S.aim c (rankOf S.aim n rx) i ∧ (S.strict = true → rx.Solvent) ∧
    View S (.holding h c n) rx s

/-- What one round leaves. -/
def Rounded (P : Params) (S : Setting) (tagged : Bool) (h : List (Nat × V)) (c : Bool) (i : Rank)
    (s : Chan V) : Receiver ⊕ (Receiver.Received V × Receiver) → Prop
  | .inl rx' => Looping S h c i rx' s
  | .inr (r, rx') => Answered P S tagged h c i rx' s r

/-- The lane the receiver looks for is in the rotation after a full collection. -/
theorem View.queued_of_found {q : Sought} (hv : View S x rx s)
    (hscan : x.scan = ⟨[], [], [], some []⟩) (hout : x.out = none) (hf : Found S.aim x.caught s)
    (ha : S.aim = .target ℓ q) (hc : x.caught = false) : q.key ∈ rx.active := by
  have ht := hv.target ha hc
  have hcov := ht.covered
  rw [hscan] at hcov
  rcases hcov with ⟨e, he, hq⟩ | hcl | ⟨-, hcp | ⟨-, hg⟩⟩
  · obtain ⟨e', he', hix⟩ := hv.roster.adopted ℓ ht.lt (hf ℓ q ha hc) ht.shut
    cases he.symm.trans he'
    have hkey : e.key = q.key := by
      rw [(hv.roster.held _ e he).1, hix, ht.key]
    rw [ht.key] at he
    exact ((hv.roster.queued q.key).mpr ⟨e, he, hkey, hq⟩).resolve_right (by simp [hout])
  · simp at hcl
  · simp at hcp
  · simpa using hg [] rfl

/-- A round ends with a poll of the front lane. -/
theorem Fronted.rounded {rx₁ : Receiver} {tagged : Bool}
    {r : Receiver ⊕ (Receiver.Received V × Receiver)}
    (hfr : Fronted P S tagged h c n rx₁ s r) (hkeep : rx.active ⊆ rx₁.active)
    (hitems : S.strict = true → rx₁.itemsUntilReadyPoll ≠ 0)
    (hstep : ∀ ℓ q, S.aim = .target ℓ q → c = false → rx.active = [] ∧ q.key ∈ rx₁.active ∨
      rx.itemsUntilReadyPoll = 0 ∧ rx₁.itemsUntilReadyPoll ≠ 0 ∨ rx₁ = rx) :
    Rounded P S tagged h c (rankOf S.aim n rx) s r := by
  have hsolvent : ∀ {rx' n'}, Closer S.aim c rx₁ n rx' n' → S.strict = true → rx'.Solvent :=
    fun hcl hst h₀ => absurd (hcl.items.symm.trans h₀) (hitems hst)
  match r with
  | .inl rx' =>
    obtain ⟨n', hcl, hv⟩ := hfr
    exact ⟨n', hcl.nearer hkeep hstep, hsolvent hcl, hv⟩
  | .inr ((.ok item, released), rx') =>
    obtain ⟨o, hd, hg, hv⟩ := hfr
    exact ⟨n, o, hd, hg, hv⟩
  | .inr ((.error e, released), rx') =>
    obtain ⟨o, key, rfl, rfl, hd, hcl, hv⟩ := hfr
    exact ⟨rfl, n, o, hcl.nearer hkeep hstep, hd, hsolvent hcl, hv⟩

/-- The context right after a collection. -/
def Ctx.afterCollect (x : Ctx V) (all : Bool) : Ctx V :=
  ({ x with fresh := true, swept := true } : Ctx V).collected all

theorem View.ofCollect (hv : View S ((Ctx.holding h c n).afterCollect true) rx s) :
    View S (.holding h c n) rx s := (hv.rest rfl rfl rfl).stale

theorem NoValue.ofCollect {e : RecvError}
    (hn : NoValue S ((Ctx.holding h c n).afterCollect true) rx s e) :
    NoValue S (.holding h c n) rx s e := by
  cases e with
  | empty => exact ⟨View.stale hn.1, hn.2⟩
  | disconnected => exact ⟨hn.1.stale, hn.2⟩
  | timeout => exact hn

theorem tryRecvRound_spec (fair tagged : Bool) (hsolvent : S.strict = true → rx.Solvent) :
    Triple (recvC P S) (View S (.holding h c n) rx) (rx.tryRecvRound P fair tagged)
      fun r s => Rounded P S tagged h c (rankOf S.aim n rx) s r := by
  have hcalm : (Ctx.holding h c n).Calm := Ctx.holding_calm
  unfold Receiver.tryRecvRound
  split
  · next hnil =>
    have hitems : S.strict = true → rx.itemsUntilReadyPoll ≠ 0 := fun hst h₀ =>
      hsolvent hst h₀ hnil
    refine Triple.seq (collectReady_spec true hcalm rfl) fun rx₁ => ?_
    refine Triple.given (φ := Grown rx rx₁ ∧
      ∀ ℓ q, S.aim = .target ℓ q → c = false → q.key ∈ rx₁.active)
      (fun s _ hl => ⟨hl.now.1, fun ℓ q => hl.now.2.1.queued_of_found rfl rfl hl.now.2.2⟩)
      fun ⟨hg, hfound⟩ => ?_
    split
    · next hnil₁ =>
      have hb : Barren ((Ctx.holding h c n).afterCollect true) rx₁ :=
        { hcalm with scan := rfl, swept := rfl, closing := rfl, active := hnil₁ }
      refine Triple.map ((noValue_spec hb).pre fun s _ hl => hl.now.2.1) fun r s _ hr => ?_
      refine ⟨n, hr.1.ofCollect, fun hst h₀ => ?_, hr.2.1⟩
      exact absurd (hg.items.symm.trans (hr.2.2.2.symm.trans h₀)) (hitems hst)
    · next hne =>
      refine (pollFront_spec _ fair tagged hne fun hst => Nat.pos_of_ne_zero ?_).conseq
        (fun s _ hl => hl.now.2.1.ofCollect) fun r s _ hr => hr.rounded hg.active.subset ?_ ?_
      · exact hg.items ▸ hitems hst
      · exact fun hst => hg.items ▸ hitems hst
      · exact fun ℓ q ha hc => .inl ⟨hnil, hfound ℓ q ha hc⟩
  · next hne =>
    split
    · next h₀ =>
      refine Triple.seq (collectReady_spec false hcalm rfl) fun rx₁ => ?_
      refine Triple.given (fun s _ hl => hl.now.1) fun hg => ?_
      refine (pollFront_spec { rx₁ with itemsUntilReadyPoll := readyPollInterval } fair
        tagged ?_ fun _ => ?_).conseq (fun s _ hl => ?_)
        fun r s _ hr => hr.rounded hg.active.subset (fun _ => ?_) fun _ _ _ _ =>
        .inr (.inl ⟨h₀, ?_⟩)
      · exact fun hnil => hne (List.prefix_nil.mp (hnil ▸ hg.active))
      · exact readyPollInterval_pos
      · exact (hl.now.2.1.reset rfl rfl rfl).stale
      all_goals exact readyPollInterval_pos.ne'
    · next h₀ =>
      exact (pollFront_spec _ fair tagged hne fun _ => Nat.pos_of_ne_zero h₀).post
        fun r s _ hr => hr.rounded (List.Subset.refl _) (fun _ => h₀) fun _ _ _ _ => .inr (.inr rfl)

/-! ## The receive loop -/

theorem Genuine.kept {tagged : Bool} {item : Item V} : Kept P S x rx (Genuine P tagged item) :=
  fun s s' ℓ hc hℓ ha _ h => by
    have hf := ha.frame hc hℓ
    refine ⟨lt_of_lt_of_le h.1 hf.count, ?_⟩
    rw [hf.key _ h.1]
    exact h.2

theorem Answered.stable {tagged : Bool} {i : Rank} {r : Receiver.Received V} :
    (recvC P S).Stable fun s => Answered P S tagged h c i rx s r := by
  intro s s' hs hs' hr ha
  match r with
  | (.ok item, released) =>
    obtain ⟨n, o, hd, hgv⟩ := ha
    have := (Genuine.kept (x := { Ctx.holding (h ++ [item.pair]) true n with owed := o })).stable
      s s' hs hs' hr hgv.symm
    exact ⟨n, o, hd, this.symm⟩
  | (.error e, some key) =>
    obtain ⟨he, n, o, hn, hd, hsol, hv⟩ := ha
    exact ⟨he, n, o, hn, hd, hsol, View.stable s s' hs hs' hr hv⟩
  | (.error e, none) =>
    obtain ⟨n, hn, hsol⟩ := ha
    exact ⟨n, NoValue.stable s s' hs hs' hr hn, hsol⟩

theorem Answered.mono {tagged : Bool} {i j : Rank} {r : Receiver.Received V}
    (ha : Answered P S tagged h c i rx s r) (hij : i = j ∨ Nearer S.aim c i j) :
    Answered P S tagged h c j rx s r := by
  match r with
  | (.ok item, released) => exact ha
  | (.error e, some key) =>
    obtain ⟨he, n, o, hn, hrest⟩ := ha
    exact ⟨he, n, o, hn.trans hij, hrest⟩
  | (.error e, none) => exact ha

theorem tryRecvInner_spec (fair tagged : Bool) (hu : S.Urgent c)
    (hsolvent : S.strict = true → rx.Solvent) :
    Triple (recvC P S) (View S (.holding h c n) rx) (rx.tryRecvInner P fair tagged)
      fun r s => Answered P S tagged h c (rankOf S.aim n rx) r.2 s r.1 := by
  -- the rank of the round, and that it is not above the one the receive started from
  let I : Rank → Receiver → Chan V → Prop := fun i rx₁ s =>
    (i = rankOf S.aim n rx ∨ Nearer S.aim c i (rankOf S.aim n rx)) ∧
      ∃ n₁, i = rankOf S.aim n₁ rx₁ ∧ (S.strict = true → rx₁.Solvent) ∧
        View S (.holding h c n₁) rx₁ s
  refine Triple.iterate Rank.wf I ?_ (fun s _ hv => ⟨_, .inl rfl, n, rfl, hsolvent, hv⟩)
    (fun _ => Answered.stable) fun i rx₁ => ?_
  · rintro s s' hs hs' hr ⟨i, hi, n₁, hn₁, hsol, hv⟩
    exact ⟨i, hi, n₁, hn₁, hsol, View.stable s s' hs hs' hr hv⟩
  · rintro s hs ⟨hi, n₁, rfl, hsol, hv⟩
    refine ((tryRecvRound_spec fair tagged hsol).post fun r s hs hr => ?_) s hs hv
    match r with
    | .inl rx₂ =>
      obtain ⟨n₂, hn₂, hsol₂, hv₂⟩ := hr
      exact ⟨_, hn₂.lt hu hv₂ rfl, .inr (hn₂.trans hi), n₂, rfl, hsol₂, hv₂⟩
    | .inr (r, rx₂) => exact Answered.mono hr hi

theorem notifyReleased_spec {R : Chan V → Prop} {released : Option LaneKey}
    {o : Option (Nat × Owed)} (hx : x.asleep = false) (hd : Debt rx released o)
    (hR : ∀ o, Kept P S { x with owed := o } rx R)
    (hquiet : ∀ ℓ s c o, R s → R (((spaceL ℓ).set c s).setOwed ℓ o)) :
    Triple (recvC P S) (fun s => View S { x with owed := o } rx s ∧ R s)
      (rx.notifyReleased released) fun _ s => View S { x with owed := none } rx s ∧ R s := by
  cases released with
  | none =>
    obtain rfl : o = none := hd
    exact Triple.ret (hR none).stable fun s _ hv => hv
  | some key =>
    obtain ⟨l, hl, rfl⟩ := hd
    rw [Receiver.notifyReleased, Option.bind_some, hl]
    exact notifySpace_spec hx hR (hquiet l.ix)

/-- What a receive leaves when it returns. -/
def Returned (P : Params) (S : Setting) (tagged : Bool) (h : List (Nat × V)) (c : Bool)
    (rx' : Receiver) (s : Chan V) : Except RecvError (Item V) → Prop
  | .ok item => ∃ n, Genuine P tagged item s ∧ View S (.holding (h ++ [item.pair]) true n) rx' s
  | .error e => ∃ n, NoValue S (.holding h c n) rx' s e ∧ (S.strict = true → rx'.Solvent) ∧
      S.Excuses c e

theorem Returned.stable {tagged : Bool} {r : Except RecvError (Item V)} :
    (recvC P S).Stable fun s => Returned P S tagged h c rx s r := by
  intro s s' hs hs' hr ha
  match r with
  | .ok item =>
    obtain ⟨n, hgv⟩ := ha
    exact ⟨n, (Genuine.kept.stable s s' hs hs' hr hgv.symm).symm⟩
  | .error e =>
    obtain ⟨n, hn, hsol⟩ := ha
    exact ⟨n, NoValue.stable s s' hs hs' hr hn, hsol⟩

theorem tryRecvNotify_spec (fair tagged : Bool) (hu : S.Urgent c)
    (hsolvent : S.strict = true → rx.Solvent) :
    Triple (recvC P S) (View S (.holding h c n) rx) (rx.tryRecvNotify P fair tagged)
      fun r s => match r with
        | .inl rx' => Looping S h c (rankOf S.aim n rx) rx' s
        | .inr (r, rx') => Returned P S tagged h c rx' s r := by
  refine Triple.seq (tryRecvInner_spec fair tagged hu hsolvent) fun r => ?_
  match r with
  | ((.ok item, released), rx₁) =>
    -- the notification changes nothing the answer speaks of
    refine Triple.map (Q := fun _ s => Returned P S tagged h c rx₁ s (.ok item)) ?_
      fun _ s _ hr => hr
    intro s hs hl
    obtain ⟨n₁, o, hd, hg, hv⟩ := hl.now
    refine ((notifyReleased_spec (x := .holding (h ++ [item.pair]) true n₁)
      (R := Genuine P tagged item) rfl hd (fun _ => Genuine.kept) fun _ _ _ _ hg => hg).post
      fun _ s _ hr => ?_) s hs ⟨hv, hg⟩
    exact ⟨n₁, hr.2, hr.1⟩
  | ((.error e, some key), rx₁) =>
    refine Triple.given (fun s _ hl => hl.now.1) ?_
    rintro rfl
    refine Triple.map (Q := fun _ s => Looping S h c (rankOf S.aim n rx) rx₁ s) ?_
      fun _ s _ hr => hr
    intro s hs hl
    obtain ⟨-, n₁, o, hn, hd, hsol, hv⟩ := hl.now
    refine ((notifyReleased_spec (x := .holding h c n₁) (R := fun _ => True) rfl hd
      (fun _ => .pure _) fun _ _ _ _ hg => hg).post fun _ s _ hr => ?_) s hs ⟨hv, trivial⟩
    exact ⟨n₁, hn, hsol, hr.1⟩
  | ((.error e, none), rx₁) =>
    have hretry : Receiver.mustRetry ((.error e, none) : Receiver.Received V) = false := by
      cases e <;> rfl
    refine Triple.done fun s _ hr => ?_
    rw [hretry]
    exact hr

/-- **A receive that goes all the way** answers a value, or a reason why there is none. -/
theorem tryRecvLoop_spec (n : Nat) (rx : Receiver) (fair tagged : Bool) (hu : S.Urgent c)
    (hsolvent : S.strict = true → rx.Solvent) :
    Triple (recvC P S) (View S (.holding h c n) rx) (rx.tryRecvLoop P fair tagged)
      fun r s => Returned P S tagged h c r.2 s r.1 := by
  let I : Rank → Receiver → Chan V → Prop := fun i rx₁ s =>
    ∃ n₁, i = rankOf S.aim n₁ rx₁ ∧ (S.strict = true → rx₁.Solvent) ∧
      View S (.holding h c n₁) rx₁ s
  refine Triple.iterate Rank.wf I ?_ (fun s _ hv => ⟨_, n, rfl, hsolvent, hv⟩)
    (fun _ => Returned.stable) fun i rx₁ => ?_
  · rintro s s' hs hs' hr ⟨i, n₁, hn₁, hsol, hv⟩
    exact ⟨i, n₁, hn₁, hsol, View.stable s s' hs hs' hr hv⟩
  · rintro s hs ⟨n₁, rfl, hsol, hv⟩
    refine ((tryRecvNotify_spec fair tagged hu hsol).post fun r s _ hr => ?_) s hs hv
    match r with
    | .inl rx₂ =>
      obtain ⟨n₂, hn₂, hsol₂, hv₂⟩ := hr
      exact ⟨_, hn₂.lt hu hv₂ rfl, n₂, rfl, hsol₂, hv₂⟩
    | .inr (r, rx₂) => exact hr

/-! ## The short ways -/

theorem pollIfDue_spec :
    Triple (recvC P S) (View S (.holding h c n) rx) rx.pollIfDue fun rx' s =>
      (rx.Solvent → rx'.Solvent) ∧ View S (.holding h c n) rx' s := by
  have hcalm : (Ctx.holding h c n).Calm := Ctx.holding_calm
  unfold Receiver.pollIfDue
  split
  · refine Triple.map (collectReady_spec false hcalm rfl) fun rx₁ s _ hr => ⟨fun _ h₀ => ?_, ?_⟩
    · exact absurd h₀ readyPollInterval_pos.ne'
    · exact (hr.2.1.reset rfl rfl rfl).stale
  · exact Triple.ret ((Contract.Stable.pure _).and View.stable) fun s _ hv => ⟨id, hv⟩

/-- The value a window gave is charged, and the lane's counters are stored. -/
theorem served_spec {v : V} (n : Nat) (rx : Receiver) (lane : Lane) (tagged : Bool)
    (hl : CopyOf rx lane)
    (hfast : 0 < lane.fastLeft → rx.active.head? = some lane.key ∧ lane.key.slot = rx.fastSlot ∧
      lane.fastLeft + 1 ≤ rx.itemsUntilReadyPoll) (hidle : Thrifty rx lane)
    (hturn : InTurn S none 1 rx lane) :
    Triple (recvC P S) (fun s => View S { Ctx.holding (h ++ [(lane.ix, v)]) true n with
        unc := 1, hot := some lane.ix, taken := 1 } rx s ∧ LaneOk s lane)
          (rx.served P tagged lane v)
      fun r s => Returned P S tagged h c r.2 s r.1 := by
  refine Triple.map ((charge_spec (rx.setLane lane) 1 (R := Named lane.ix lane.key)
    (x := { Ctx.holding (h ++ [(lane.ix, v)]) true n with unc := 1 }) rfl rfl
    (Framed.named.kept _ _) (Framed.named.kept _ _) fun s t hn => hn).pre fun s _ hv => ?_)
    fun rx' s _ hr => ?_
  · refine ⟨View.store (x := { Ctx.holding (h ++ [(lane.ix, v)]) true n with unc := 1 }) hv.1 rfl hl
      hv.2 hfast hidle hturn, ?_⟩
    have hheld := hv.1.held hl
    exact ⟨hheld.2.1, hheld.1.symm⟩
  · obtain ⟨-, hv, hn⟩ := hr
    refine ⟨n, ⟨hn.1, ?_⟩, hv⟩
    simp only [Receiver.output]
    rw [hn.2]

theorem View.fast_free {slot : Nat} (hv : View S (.holding h c n) rx s)
    (hl : rx.lanes slot = some lane) (hpos : 0 < lane.fastLeft) : Free S rx lane := by
  have hf := (hv.fast slot lane hl (by simp [Ctx.holding, Ctx.base]) hpos).1
  obtain ⟨l, -, -, -, hp⟩ := hv.queued_lane (.inl (List.mem_of_mem_head? hf))
  exact .inl hp

/-- Next time the lane in hand, which is at the front, is looked at first. -/
theorem View.setFastSlot (hv : View S x rx s) (slot : Nat) (hhot : x.hot = some lane.ix)
    (hl : CopyOf rx lane) (hfront : x.out.or rx.active.head? = some lane.key) :
    View S x { rx with fastSlot := slot } s := by
  refine { hv with
    fast := fun slot' l hl' hx hpos => ?_
    budget := fun hst => { hv.budget hst with } }
  -- only the front lane can have a window, and that is the one in hand
  have hkey : l.key = lane.key :=
    Option.some.inj ((hv.fast slot' l hl' hx hpos).1.symm.trans hfront)
  obtain ⟨l₀, hl₀, hsk⟩ := hl
  have hslot := hv.slot_of_key hl'
  rw [hkey] at hslot
  subst hslot
  cases hl₀.symm.trans hl'
  exact absurd (hhot.trans (congrArg (some ·.ix) hsk.symm)) hx

/-- A pop from the fast window, and what follows if the window is closed. -/
theorem popFast_served {tagged : Bool}
    {k : Lane → Prog (Chan V) (Except RecvError (Item V) × Receiver)}
    (slot : Lane → Nat) (hslot : ∀ m, slot { lane with fastLeft := m } = lane.key.slot)
    (hl : CopyOf rx lane) (hfree : 0 < lane.fastLeft → Free S rx lane)
    (hfast : 0 < lane.fastLeft → rx.active.head? = some lane.key ∧
      lane.fastLeft ≤ rx.itemsUntilReadyPoll) (hidle : Thrifty rx lane)
    (hturn : InTurn S none 0 rx lane)
    (hk : Triple (recvC P S) (View S (.holding h c n) (rx.setLane lane)) (k lane)
      fun r s => Returned P S tagged h c r.2 s r.1) :
    Triple (recvC P S) (fun s => View S { Ctx.holding h c n with hot := some lane.ix } rx s ∧
        LaneOk s lane)
      (lane.popFast.bind fun r => match r with
        | (some v, lane) => Receiver.served P tagged { rx with fastSlot := slot lane } lane v
        | (none, lane) => k lane)
      fun r s => Returned P S tagged h c r.2 s r.1 := by
  refine Triple.given (φ := lane.unreleased < lane.releaseBatch ∧ lane.burst < prefetchLimit ∧
      lane.fastLeft ≤ lane.burst)
    (fun s _ hv => ⟨hv.2.unreleased_lt, hv.2.burst_lt, hv.2.fast_le⟩) fun ⟨hu, hb, hle⟩ => ?_
  refine Triple.seq ((popFast_spec (x := { Ctx.holding h c n with hot := some lane.ix }) rfl rfl rfl
    hl hfree hfast hturn).pre fun s _ hv => ⟨hv.1, hv.2.toLaneCounts⟩) fun r => ?_
  match r with
  | (none, lane₁) =>
    refine Triple.given (φ := lane₁ = lane ∧ lane.fastLeft = 0)
      (fun s _ hr => ⟨hr.now.1, hr.now.2.1⟩) ?_
    rintro ⟨rfl, h₀⟩
    refine hk.pre fun s _ hr => ?_
    obtain ⟨-, -, hv, hn⟩ := hr.now
    exact View.store (x := .holding h c n) hv rfl hl ⟨hn, hu, hb⟩ (by simp [h₀]) hidle hturn
  | (some v, lane₁) =>
    refine Triple.given (φ := lane₁ = { lane with fastLeft := lane.fastLeft - 1 } ∧
      0 < lane.fastLeft)
      (fun s _ hr => ⟨hr.now.1, hr.now.2.1⟩) ?_
    rintro ⟨rfl, hpos⟩
    refine (served_spec n { rx with fastSlot := slot _ }
      { lane with fastLeft := lane.fastLeft - 1 } tagged (hl.of_skel rfl)
      (fun hpos' => ?_) hidle ?_).pre fun s _ hr => ?_
    · have := (hfast hpos).2
      exact ⟨(hfast hpos).1, (hslot _).symm, by simp only; omega⟩
    · refine hturn.imp_right (Or.imp_right fun hspent l₀ hl₀ => ?_)
      have := hspent l₀ hl₀
      simp only [Lane.spent] at this ⊢
      omega
    · obtain ⟨-, -, hv, hn⟩ := hr.now
      refine ⟨?_, hn, hu, hb⟩
      have hx : ({ Ctx.holding h c n with hot := some lane.ix } : Ctx V).pulled lane.ix [v] false =
          { Ctx.holding (h ++ [(lane.ix, v)]) true n with
            unc := 1, hot := some lane.ix, taken := 1 } := by
        simp [Ctx.pulled, Ctx.holding, Ctx.base]
      rw [hx] at hv
      exact hv.setFastSlot _ rfl hl (hfast hpos).1

theorem tryRecvRefill_spec (n : Nat) (rx : Receiver) (tagged : Bool) (hu : S.Urgent c)
    (hsolvent : S.strict = true → rx.Solvent) :
    Triple (recvC P S) (View S (.holding h c n) rx) (rx.tryRecvRefill P tagged)
      fun r s => Returned P S tagged h c r.2 s r.1 := by
  refine Triple.seq pollIfDue_spec fun rx₁ => ?_
  refine Triple.given (fun s _ hl => hl.now.1) fun hsol => ?_
  have hsolvent₁ : S.strict = true → rx₁.Solvent := fun hst => hsol (hsolvent hst)
  refine Triple.pre (P := View S (.holding h c n) rx₁) ?_ fun s _ hl => hl.now.2
  by_cases hnil : rx₁.active = []
  · rw [show rx₁.active.head?.bind rx₁.lane? = none by simp [hnil]]
    exact tryRecvLoop_spec n rx₁ false tagged hu hsolvent₁
  · obtain ⟨key, rest, hact⟩ := List.exists_cons_of_ne_nil hnil
    refine Triple.given (fun s _ hv => hv.front hact) ?_
    rintro ⟨lane, hf⟩
    rw [show rx₁.active.head?.bind rx₁.lane? = some lane by
      simp [hact, lane?_eq hf.held hf.named]]
    have hl : CopyOf rx₁ lane := ⟨lane, by rw [hf.named]; exact hf.held, rfl⟩
    refine Triple.seq
      ((grantFast_spec (x := { Ctx.holding h c n with hot := some lane.ix }) rfl rfl hl
      rx₁.itemsUntilReadyPoll).pre fun s _ hv => ⟨hv.heat rfl rfl _, hv.counters _ lane hf.held
        (by simp [Ctx.holding, Ctx.base])⟩) fun lane₁ => ?_
    refine Triple.given (φ := lane₁.skel = lane.skel ∧ lane₁.fastLeft ≤ rx₁.itemsUntilReadyPoll ∧
      lane₁.spent = lane.spent) (fun s _ hr => ⟨hr.now.1, hr.now.2.1, hr.now.2.2.1⟩) ?_
    rintro ⟨hsk, hle, hspent⟩
    have hix : lane₁.ix = lane.ix := congrArg Held.ix hsk
    have hkey : lane₁.key = key := (congrArg Held.key hsk).trans hf.named
    refine (popFast_served (n := n)
      (k := fun lane => Receiver.tryRecvLoop P false tagged (rx₁.setLane lane))
      (fun lane => lane.key.slot) (fun _ => rfl) (hl.of_skel hsk)
      (fun _ => .inl (by rw [hkey]; exact hf.unpaused))
      (fun _ => ⟨by rw [hact, hkey]; rfl, hle⟩)
      (.inr (.inl ((congrArg Held.queued hsk).trans hf.queued))) (.inr (.inr fun l₀ hl₀ => ?_))
      (tryRecvLoop_spec n (rx₁.setLane lane₁) false tagged hu hsolvent₁)).pre fun s _ hr => ?_
    · rw [hkey, hf.held] at hl₀
      rw [hspent, ← Option.some.inj hl₀]
      exact le_rfl
    · rw [hix]
      exact hr.now.2.2.2

/-- **`try_recv`**: a value, or a reason why there is none. -/
theorem tryRecvOutput_spec (tagged : Bool) (hu : S.Urgent c)
    (hsolvent : S.strict = true → rx.Solvent) :
    Triple (recvC P S) (View S (.holding h c n) rx) (rx.tryRecvOutput P tagged)
      fun r s => Returned P S tagged h c r.2 s r.1 := by
  unfold Receiver.tryRecvOutput
  split
  · next lane hl =>
    refine Triple.given (φ := rx.fastSlot = lane.key.slot ∧ CopyOf rx lane ∧
        (0 < lane.fastLeft → Free S rx lane) ∧
        (0 < lane.fastLeft → rx.active.head? = some lane.key ∧ rx.fastSlot = rx.fastSlot ∧
          lane.fastLeft ≤ rx.itemsUntilReadyPoll) ∧ Thrifty rx lane)
      (fun s _ hv => ⟨(hv.slot_of_key hl).symm, (hv.copyOf_lane hl).2, hv.fast_free hl,
        hv.fast _ lane hl ?_, hv.thrifty hl ?_⟩) fun ⟨hslot, hcopy, hfree, hfast, hidle⟩ => ?_
    · simp [Ctx.holding, Ctx.base]
    · simp [Ctx.holding, Ctx.base]
    refine (popFast_served (n := n)
      (k := fun lane => Receiver.tryRecvRefill P tagged (rx.setLane lane))
      (fun _ => rx.fastSlot) (fun _ => hslot) hcopy hfree
      (fun hpos => ⟨(hfast hpos).1, (hfast hpos).2.2⟩) hidle (.inr (.inr fun l₀ hl₀ => ?_))
      (tryRecvRefill_spec n (rx.setLane lane) tagged hu hsolvent)).pre fun s _ hv => ?_
    · rw [← hslot, hl] at hl₀
      exact (Option.some.inj hl₀) ▸ le_rfl
    exact ⟨hv.heat rfl rfl _, hv.counters _ lane hl (by simp [Ctx.holding, Ctx.base])⟩
  · exact tryRecvRefill_spec n rx tagged hu hsolvent

/-! ## Fair receives -/

theorem anyReady_spec (groups left : Nat) :
    Triple (recvC P S) (View S x rx) (Receiver.anyReady groups left) fun _ => View S x rx := by
  induction left with
  | zero => exact Triple.ret View.stable fun s _ hv => hv
  | succ left ih =>
    refine Triple.bind (recv_read View.stable (fun _ => View.stable) fun s _ hv => hv) fun b => ?_
    cases b with
    | true => exact Triple.ret View.stable fun s _ hv => hv
    | false => exact ih

/-- The readiness check of a fair receive counts as a collection. -/
theorem checkReady_spec :
    Triple (recvC P S) (View S (.holding h c n) rx) rx.checkReady fun rx' =>
      View S { Ctx.holding h c n with fresh := true } rx' := by
  have hcalm : (Ctx.holding h c n).Calm := Ctx.holding_calm
  have hdue : ∀ due : Bool, Triple (recvC P S) (View S (.holding h c n) rx)
      (if due then rx.collectReady true
        else (Prog.write (record .collect)).bind fun _ => Prog.ret rx)
      fun rx' => View S { Ctx.holding h c n with fresh := true } rx' := by
    intro due
    cases due with
    | true => exact (collectReady_spec true hcalm rfl).post fun rx' s _ hr =>
        hr.2.1.rest rfl rfl rfl
    | false =>
      exact Triple.map (recv_atomic View.stable (fun _ => View.stable) fun s hi hv =>
        ⟨record_collect_step hi hv rfl, hv.startCollect⟩) fun _ s _ hv => hv
  unfold Receiver.checkReady
  refine Triple.bind (recv_read View.stable (fun _ => View.stable) fun s _ hv => hv)
    fun generation => ?_
  extract_lets jp
  split
  · exact hdue true
  · exact Triple.bind (anyReady_spec _ _) hdue

/-- **`try_recv_fair`**: a value, or a reason why there is none. -/
theorem tryRecvFairOutput_spec (tagged : Bool) (hu : S.Urgent c) :
    Triple (recvC P S) (View S (.holding h c n) rx) (rx.tryRecvFairOutput P tagged)
      fun r s => Returned P S tagged h c r.2 s r.1 := by
  refine Triple.seq checkReady_spec fun rx₀ => ?_
  extract_lets _ rx₁
  have hsolvent : ∀ rx' : Receiver, rx'.itemsUntilReadyPoll = readyPollInterval →
      S.strict = true → rx'.Solvent := fun rx' hi _ h₀ =>
    absurd (hi.symm.trans h₀) readyPollInterval_pos.ne'
  refine Triple.pre (P := View S (.holding h c n) rx₁) ?_
    fun s _ hl => (hl.now.reset rfl rfl rfl).stale
  split
  · next lane hlane =>
    obtain ⟨hlen, hlane⟩ : rx₁.active.length = 1 ∧ rx₁.active.head?.bind rx₁.lane? = some lane := by
      simpa using hlane
    obtain ⟨key, hact⟩ := List.length_eq_one_iff.mp hlen
    refine Triple.given (fun s _ hv => hv.front hact) ?_
    rintro ⟨lane', hf⟩
    obtain rfl : lane' = lane := by
      rw [hact, List.head?_cons, Option.bind_some, lane?_eq hf.held hf.named] at hlane
      exact Option.some.inj hlane
    have hl : CopyOf rx₁ lane' := ⟨lane', by rw [hf.named]; exact hf.held, rfl⟩
    have hsole : ∀ {k : LaneKey}, k ∉ ((none : Option LaneKey).toList ++ rx₁.active).dropLast := by
      simp [hact]
    refine Triple.given (φ := 0 < lane'.fastLeft → lane'.fastLeft ≤ rx₁.itemsUntilReadyPoll)
      (fun s _ hv hpos => (hv.fast _ lane' hf.held (by simp [Ctx.holding, Ctx.base]) hpos).2.2)
      fun hfast => ?_
    refine Triple.seq ((popFair_spec (x := { Ctx.holding h c n with hot := some lane'.ix })
      rx₁.itemsUntilReadyPoll rfl rfl rfl hl (.inl (by rw [hf.named]; exact hf.unpaused))
      (by rw [hact, hf.named]; rfl) hfast le_rfl hsole).pre fun s _ hv => ⟨hv.heat rfl rfl _,
        hv.counters _ lane' hf.held (by simp [Ctx.holding, Ctx.base])⟩) fun r => ?_
    obtain ⟨popped, lane₁⟩ := r
    cases popped with
    | none =>
      refine Triple.given (φ := lane₁.skel = lane'.skel ∧ lane₁.fastLeft = 0)
        (fun s _ hr => ⟨hr.now.1, hr.now.2.1⟩) ?_
      rintro ⟨hsk, h₀⟩
      have hix : lane₁.ix = lane'.ix := congrArg Held.ix hsk
      refine (tryRecvLoop_spec n (rx₁.setLane lane₁) true tagged hu (hsolvent _ rfl)).pre
        fun s _ hr => ?_
      obtain ⟨-, -, hok, hv⟩ := hr.now
      exact View.store (x := .holding h c n) (hix ▸ hv) rfl (hl.of_skel hsk) hok (by simp [h₀])
        (.inr (.inl ((congrArg Held.queued hsk).trans hf.queued))) (.inr (.inl hsole))
    | some v =>
      refine Triple.given (φ := lane₁.skel = lane'.skel ∧
          lane₁.fastLeft + 1 ≤ rx₁.itemsUntilReadyPoll)
        (fun s _ hr => ⟨hr.now.1, hr.now.2.1⟩) ?_
      rintro ⟨hsk, hle⟩
      have hix : lane₁.ix = lane'.ix := congrArg Held.ix hsk
      have hkey : lane₁.key = key := (congrArg Held.key hsk).trans hf.named
      have hfront : rx₁.active.head? = some lane₁.key := by rw [hact, hkey]; rfl
      refine (served_spec n { rx₁ with fastSlot := lane₁.key.slot } lane₁ tagged
        (hl.of_skel hsk) (fun _ => ⟨hfront, rfl, hle⟩)
        (.inr (.inl ((congrArg Held.queued hsk).trans hf.queued))) (.inr (.inl hsole))).pre
        fun s _ hr => ?_
      · obtain ⟨-, -, hok, hv⟩ := hr.now
        refine ⟨?_, hok⟩
        have hx :
            ({ Ctx.holding h c n with hot := some lane'.ix } : Ctx V).pulled lane'.ix [v] false =
            { Ctx.holding (h ++ [(lane₁.ix, v)]) true n with
              unc := 1, hot := some lane₁.ix, taken := 1 } := by
          simp [Ctx.pulled, Ctx.holding, Ctx.base, hix]
        rw [hx] at hv
        exact hv.setFastSlot _ rfl (hl.of_skel hsk) hfront
  · exact tryRecvLoop_spec n rx₁ true tagged hu (hsolvent _ rfl)

end Fanring.Mpsc
