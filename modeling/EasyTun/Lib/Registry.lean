import EasyTun.Lib.Machine
import EasyTun.Lib.Maps

/-!
# A directory of names

Owners have a name and a value each, and a directory maps names to values. A
writer registers in three steps: it looks at the directory, picks a name it did
not see there or takes over the one of another owner, and publishes the name it
picked. Between these steps others get in: they hand an owner's name on, or
withdraw an owner together with its name.

- `consistent`: **if every name that is picked is free at that moment**, then whenever no
  writer is under way, different owners have different names and the directory has the
  value of each owner under its name.
- `picksFree_of_oneAtATime`: a writer that looks while no other is under way picks
  a name that is free.

The first invariant also speaks about the writers under way: what a writer has picked is owned
by nobody with another value, so that publishing cannot hit a stranger's name. The second
one says that what the only writer saw covers every name that is owned.
-/

namespace EasyTun.Lib

/-- Where a writer is. -/
inductive Stage (ν α : Type) where
  | idle
  /-- It looked, and these names were taken. -/
  | looked (taken : ν → Bool)
  /-- It picked this name for this value. -/
  | picked (n : ν) (a : α)

/-- What each owner has, the directory, and where each writer is. -/
@[ext] structure Registry (ω π ν α : Type) where
  owned : ω → Option (ν × α)
  dir : ν → Option α
  stage : π → Stage ν α

namespace Registry

variable {ω π ν α : Type}

/-- The steps of writers and owners. A name goes to an owner, or to nobody who
counts as one. -/
inductive Act (ω π ν α : Type) where
  | look (p : π)
  /-- A writer finds no value to publish, and its owner loses what it had. -/
  | fail (p : π) (o : ω)
  /-- A writer picks a name that it did not see. -/
  | pick (p : π) (o : Option ω) (n : ν) (a : α)
  /-- A writer takes over what another owner has. -/
  | takeOver (p : π) (o : Option ω) (src : ω)
  | publish (p : π)
  | move (src dst : ω)
  /-- An owner and its name are withdrawn. -/
  | retire (o : ω)

/-! ## The invariant -/

/-- No writer is under way. -/
def Quiet (r : Registry ω π ν α) : Prop := ∀ p, r.stage p = .idle

/-- Names are unique, and no writer under way gets in anybody's way. -/
structure Consistent (r : Registry ω π ν α) : Prop where
  distinct : ∀ {o o' n a a'}, r.owned o = some (n, a) → r.owned o' = some (n, a') → o = o'
  listed : ∀ {o n a}, r.owned o = some (n, a) → r.dir n = some a ∨ ∃ p, r.stage p = .picked n a
  agrees : ∀ {p o n a a'}, r.stage p = .picked n a → r.owned o = some (n, a') → a' = a

/-- The name is nobody's, except perhaps that owner's: no other one has it, and no writer has
picked it that has not published it yet. -/
def Free (r : Registry ω π ν α) (o : Option ω) (n : ν) : Prop :=
  (∀ o' a, r.owned o' = some (n, a) → o = some o') ∧ ∀ p a, r.stage p ≠ .picked n a

/-- There is one writer under way at most, and it saw every name that is owned. -/
structure Alone (r : Registry ω π ν α) : Prop where
  single : ∀ {p q}, r.stage p ≠ .idle → r.stage q ≠ .idle → p = q
  covers : ∀ {p taken o n a}, r.stage p = .looked taken → r.owned o = some (n, a) →
    taken n = true

theorem stage_ne_idle {r : Registry ω π ν α} {p : π} {s : Stage ν α} (hp : r.stage p = s)
    (hs : s ≠ .idle) : r.stage p ≠ .idle := by
  rw [hp]
  exact hs

namespace Consistent

variable {r : Registry ω π ν α}

/-- Between registrations every owner is listed. -/
theorem listed_of_quiet (h : Consistent r) (hq : r.Quiet) {o : ω} {n : ν} {a : α}
    (ho : r.owned o = some (n, a)) : r.dir n = some a := by
  rcases h.listed ho with hdir | ⟨p, hp⟩
  · exact hdir
  · rw [hq p] at hp
    cases hp

/-- Owners may disappear or be replaced one for one. `origin` says whose name it
was. -/
theorem relabel (h : Consistent r) {owned : ω → Option (ν × α)} (origin : ω → ω)
    (hfrom : ∀ {o e}, owned o = some e → r.owned (origin o) = some e)
    (hinj : ∀ {o o' e e'}, owned o = some e → owned o' = some e' → origin o = origin o' →
      o = o') :
    Consistent { r with owned } where
  distinct ho ho' := hinj ho ho' (h.distinct (hfrom ho) (hfrom ho'))
  listed ho := h.listed (hfrom ho)
  agrees hp ho := h.agrees hp (hfrom ho)

end Consistent

namespace Alone

variable {r : Registry ω π ν α}

/-- What the only writer did not see is free. -/
theorem free (h : Alone r) {p : π} {taken : ν → Bool} (hp : r.stage p = .looked taken) {n : ν}
    (hn : taken n = false) (o : Option ω) : r.Free o n := by
  constructor
  · intro o' a ho'
    rw [h.covers hp ho'] at hn
    cases hn
  · intro q a hq
    have heq : q = p := h.single (stage_ne_idle hq nofun) (stage_ne_idle hp nofun)
    rw [heq, hp] at hq
    cases hq

/-- Names may disappear. -/
theorem mono (h : Alone r) {r' : Registry ω π ν α} (hstage : r'.stage = r.stage)
    (howned : ∀ {o n a}, r'.owned o = some (n, a) → ∃ o', r.owned o' = some (n, a)) :
    Alone r' where
  single := by
    rw [hstage]
    exact h.single
  covers := by
    intro p taken o n a hp ho
    obtain ⟨o', ho'⟩ := howned ho
    rw [hstage] at hp
    exact h.covers hp ho'

end Alone

/-! ## Changes to a registry -/

section Changes

variable {r : Registry ω π ν α}

/-- A name is listed, or no longer. -/
def setDir [DecidableEq ν] (r : Registry ω π ν α) (n : ν) (a : Option α) : Registry ω π ν α :=
  { r with dir := Function.update r.dir n a }

/-- What an owner has changes. -/
def setOwned [DecidableEq ω] (r : Registry ω π ν α) (o : ω) (e : Option (ν × α)) :
    Registry ω π ν α :=
  { r with owned := Function.update r.owned o e }

/-- The name goes to the owner, if there is one. -/
def give [DecidableEq ω] (r : Registry ω π ν α) (o : Option ω) (e : ν × α) : Registry ω π ν α :=
  o.elim r fun o => r.setOwned o (some e)

theorem owned_of_setOwned_none [DecidableEq ω] {o o' : ω} {e : ν × α}
    (he : (r.setOwned o none).owned o' = some e) : o' ≠ o ∧ r.owned o' = some e := by
  rcases update_cases he with ⟨-, hnone⟩ | ⟨hne, he⟩
  · cases hnone
  · exact ⟨hne, he⟩

theorem owned_of_give [DecidableEq ω] {o : Option ω} {o' : ω} {e e' : ν × α}
    (he : (r.give o e).owned o' = some e') :
    (o = some o' ∧ e = e') ∨ (o ≠ some o' ∧ r.owned o' = some e') := by
  cases o with
  | none => exact Or.inr ⟨nofun, he⟩
  | some o =>
    rcases update_cases he with ⟨heq, he⟩ | ⟨hne, he⟩
    · rw [heq]
      exact Or.inl ⟨rfl, Option.some.inj he⟩
    · exact Or.inr ⟨fun heq => hne (Option.some.inj heq).symm, he⟩

theorem stage_give [DecidableEq ω] (o : Option ω) (e : ν × α) : (r.give o e).stage = r.stage := by
  cases o <;> rfl

theorem dir_give [DecidableEq ω] (o : Option ω) (e : ν × α) : (r.give o e).dir = r.dir := by
  cases o <;> rfl

theorem Consistent.drop [DecidableEq ω] (h : Consistent r) (o : ω) :
    Consistent (r.setOwned o none) :=
  h.relabel id (fun he => (owned_of_setOwned_none he).2) fun _ _ heq => heq

/-- What `dst` has after a move was `src`'s, and `src` has nothing unless it is `dst`. -/
theorem owned_of_move [DecidableEq ω] {src dst o : ω} {e : ν × α}
    (he : ((r.setOwned src none).setOwned dst (r.owned src)).owned o = some e) :
    (o = dst ∧ r.owned src = some e) ∨ (o ≠ dst ∧ o ≠ src ∧ r.owned o = some e) := by
  rcases update_cases he with ⟨hdst, he⟩ | ⟨hne, he⟩
  · exact Or.inl ⟨hdst, he⟩
  · exact Or.inr ⟨hne, owned_of_setOwned_none he⟩

theorem Consistent.move [DecidableEq ω] (h : Consistent r) (src dst : ω) :
    Consistent ((r.setOwned src none).setOwned dst (r.owned src)) := by
  refine h.relabel (fun o => if o = dst then src else o) ?_ ?_
  · intro o e he
    rcases owned_of_move he with ⟨hdst, he⟩ | ⟨hne, -, he⟩
    · rw [if_pos hdst, he]
    · rw [if_neg hne, he]
  · intro o o' e e' he he' heq
    rcases owned_of_move he with ⟨hdst, -⟩ | ⟨hne, hsrc, -⟩ <;>
      rcases owned_of_move he' with ⟨hdst', -⟩ | ⟨hne', hsrc', -⟩
    · rw [hdst, hdst']
    · rw [if_pos hdst, if_neg hne'] at heq
      exact absurd heq.symm hsrc'
    · rw [if_neg hne, if_pos hdst'] at heq
      exact absurd heq hsrc
    · rwa [if_neg hne, if_neg hne'] at heq

/-- A process goes on. -/
def setStage [DecidableEq π] (r : Registry ω π ν α) (p : π) (s : Stage ν α) : Registry ω π ν α :=
  { r with stage := Function.update r.stage p s }

/-- A writer that has picked nothing goes on, and still has not. -/
theorem Consistent.move_on [DecidableEq π] (h : Consistent r) {p : π} (st : Stage ν α)
    (hp : ∀ n a, r.stage p ≠ .picked n a) (hst : ∀ n a, st ≠ .picked n a) :
    Consistent (r.setStage p st) where
  distinct := h.distinct
  listed ho := by
    refine (h.listed ho).imp_right fun ⟨q, hq⟩ => ⟨q, ?_⟩
    have hne : q ≠ p := by
      rintro rfl
      exact hp _ _ hq
    exact (Function.update_of_ne hne ..).trans hq
  agrees hq ho := by
    rcases update_cases hq with ⟨-, hq⟩ | ⟨-, hq⟩
    · exact absurd hq (hst _ _)
    · exact h.agrees hq ho

/-- A writer gets a name for an owner, and nobody else has got it with another value. -/
theorem Consistent.pick [DecidableEq ω] [DecidableEq π] (h : Consistent r) {p : π}
    {taken : ν → Bool} (hp : r.stage p = .looked taken) {o : Option ω} {n : ν} {a : α}
    (howned : ∀ o' a', r.owned o' = some (n, a') → o = some o')
    (hpicked : ∀ q a', r.stage q = .picked n a' → a' = a) :
    Consistent ((r.give o (n, a)).setStage p (.picked n a)) where
  distinct {o₁ o₂ n' a₁ a₂} h₁ h₂ := by
    rcases owned_of_give h₁ with ⟨heq₁, he₁⟩ | ⟨hne₁, h₁⟩ <;>
      rcases owned_of_give h₂ with ⟨heq₂, he₂⟩ | ⟨hne₂, h₂⟩
    · exact Option.some.inj (heq₁.symm.trans heq₂)
    · cases he₁
      exact absurd (howned _ _ h₂) hne₂
    · cases he₂
      exact absurd (howned _ _ h₁) hne₁
    · exact h.distinct h₁ h₂
  listed {o' n' a'} ho := by
    rcases owned_of_give ho with ⟨-, he⟩ | ⟨-, ho⟩
    · cases he
      exact Or.inr ⟨p, Function.update_self ..⟩
    · -- whoever else is to publish a name still is: `p` was not
      refine (h.listed ho).imp (fun hdir => ?_) fun ⟨q, hq⟩ => ⟨q, ?_⟩
      · show (r.give o (n, a)).dir n' = some a'
        rw [dir_give]
        exact hdir
      · have hne : q ≠ p := by
          rintro rfl
          rw [hp] at hq
          cases hq
        refine (Function.update_of_ne hne ..).trans ?_
        rw [stage_give]
        exact hq
  agrees {q o' n' a' a''} hq ho := by
    rcases update_cases hq with ⟨-, hq⟩ | ⟨-, hq⟩
    · cases hq
      rcases owned_of_give ho with ⟨-, he⟩ | ⟨hne, ho⟩
      · cases he
        rfl
      · exact absurd (howned _ _ ho) hne
    · rw [stage_give] at hq
      rcases owned_of_give ho with ⟨-, he⟩ | ⟨-, ho⟩
      · cases he
        exact (hpicked q a' hq).symm
      · exact h.agrees hq ho

/-- A writer publishes. Whoever owns the name has this value. -/
theorem Consistent.publish [DecidableEq π] [DecidableEq ν] (h : Consistent r) {p : π} {n : ν}
    {a : α} (hp : r.stage p = .picked n a) :
    Consistent ((r.setDir n (some a)).setStage p .idle) where
  distinct := h.distinct
  listed {o n' a'} ho := by
    by_cases hn : n' = n
    · subst hn
      refine Or.inl ((Function.update_self ..).trans ?_)
      rw [h.agrees hp ho]
    · refine (h.listed ho).imp (fun hdir => ?_) fun ⟨q, hq⟩ => ⟨q, ?_⟩
      · exact (Function.update_of_ne hn ..).trans hdir
      · have hne : q ≠ p := by
          rintro rfl
          rw [hp] at hq
          cases hq
          exact hn rfl
        exact (Function.update_of_ne hne ..).trans hq
  agrees hq ho := by
    rcases update_cases hq with ⟨-, hq⟩ | ⟨-, hq⟩
    · cases hq
    · exact h.agrees hq ho

/-- An owner is withdrawn. Nobody else had its name. -/
theorem Consistent.retire [DecidableEq ω] [DecidableEq ν] (h : Consistent r) {o : ω} {n : ν}
    {a : α} (ho : r.owned o = some (n, a)) :
    Consistent ((r.setOwned o none).setDir n none) := by
  have hdrop := h.drop o
  refine ⟨hdrop.distinct, fun {o' n' a'} ho' => ?_, hdrop.agrees⟩
  obtain ⟨hne, hold⟩ := owned_of_setOwned_none ho'
  have hn : n' ≠ n := by
    rintro rfl
    exact hne (h.distinct hold ho)
  refine (h.listed hold).imp_left fun hdir => ?_
  exact (Function.update_of_ne hn ..).trans hdir

/-- A writer looks, and no other is under way. -/
theorem Alone.look [DecidableEq π] (h : Consistent r) (hq : r.Quiet) (p : π) :
    Alone (r.setStage p (.looked fun n => (r.dir n).isSome)) := by
  have hstage : ∀ {q s}, (r.setStage p (.looked fun n => (r.dir n).isSome)).stage q = s →
      s ≠ .idle → q = p ∧ s = .looked fun n => (r.dir n).isSome := by
    intro q s hqs hs
    rcases update_cases hqs with ⟨hqp, hqs⟩ | ⟨-, hqs⟩
    · exact ⟨hqp, hqs.symm⟩
    · rw [hq q] at hqs
      exact absurd hqs.symm hs
  constructor
  · intro q q' hqi hqi'
    rw [(hstage rfl hqi).1, (hstage rfl hqi').1]
  · intro q taken o n a hqs ho
    cases (hstage hqs nofun).2
    show (r.dir n).isSome = true
    rw [h.listed_of_quiet hq ho]
    rfl

/-- The only writer goes on. Behind its look there is nobody who has only looked. -/
theorem Alone.go_on [DecidableEq π] (h : Alone r) {p : π} (hp : r.stage p ≠ .idle)
    (st : Stage ν α) (hst : ∀ taken, st ≠ .looked taken) {r' : Registry ω π ν α}
    (hstage : r'.stage = Function.update r.stage p st) : Alone r' := by
  have honly : ∀ {q}, r'.stage q ≠ .idle → q = p := by
    intro q hq
    by_contra hne
    rw [hstage, Function.update_of_ne hne] at hq
    exact hne (h.single hq hp)
  constructor
  · intro q q' hq hq'
    rw [honly hq, honly hq']
  · intro q taken o n a hq _
    obtain rfl := honly (stage_ne_idle hq nofun)
    rw [hstage, Function.update_self] at hq
    exact absurd hq (hst taken)

end Changes


/-! ## The machine -/

variable [DecidableEq ω] [DecidableEq π] [DecidableEq ν]

/-- One step of a process. -/
def step (r : Registry ω π ν α) : Act ω π ν α → Option (Registry ω π ν α)
  | .look p =>
    match r.stage p with
    | .idle => some (r.setStage p (.looked fun n => (r.dir n).isSome))
    | _ => none
  | .fail p o =>
    match r.stage p with
    | .looked _ => some ((r.setStage p .idle).setOwned o none)
    | _ => none
  | .pick p o n a =>
    match r.stage p with
    | .looked taken => guardTo (taken n = false) ((r.give o (n, a)).setStage p (.picked n a))
    | _ => none
  | .takeOver p o src =>
    match r.stage p, r.owned src with
    | .looked _, some (n, a) =>
      some (((r.setOwned src none).give o (n, a)).setStage p (.picked n a))
    | _, _ => none
  | .publish p =>
    match r.stage p with
    | .picked n a => some ((r.setDir n (some a)).setStage p .idle)
    | _ => none
  | .move src dst => some ((r.setOwned src none).setOwned dst (r.owned src))
  | .retire o =>
    match r.owned o with
    | some (n, _) => some ((r.setOwned o none).setDir n none)
    | none => none

/-- Nobody owns anything at first. -/
def machine : Machine (Registry ω π ν α) (Act ω π ν α) :=
  { init := { owned := fun _ => none, dir := fun _ => none, stage := fun _ => .idle }, step }

/-- **The condition**: a name is free when it is picked. -/
def PicksFree (r : Registry ω π ν α) : Act ω π ν α → Prop
  | .pick _ o n _ => r.Free o n
  | _ => True

/-- A writer looks only when no writer is under way. -/
def OneAtATime (r : Registry ω π ν α) : Act ω π ν α → Prop
  | .look _ => r.Quiet
  | _ => True

/-! ## Runs -/

variable {r : Registry ω π ν α}

/-- **One step**, if what it picks is free. -/
theorem Consistent.step {r' : Registry ω π ν α} {a : Act ω π ν α} (h : Consistent r)
    (hok : PicksFree r a) (hs : Registry.step r a = some r') : Consistent r' := by
  cases a with
  | look p =>
    simp only [Registry.step] at hs
    split at hs
    · next hp =>
      cases hs
      exact h.move_on (.looked _) (by rw [hp]; nofun) nofun
    · cases hs
  | fail p o =>
    simp only [Registry.step] at hs
    split at hs
    · next hp =>
      cases hs
      exact (h.move_on .idle (by rw [hp]; nofun) nofun).drop o
    · cases hs
  | pick p o n a =>
    simp only [Registry.step] at hs
    split at hs
    · next taken hp =>
      obtain ⟨-, rfl⟩ := guardTo_eq_some.mp hs
      exact h.pick hp hok.1 fun q a' hq => absurd hq (hok.2 q a')
    · cases hs
  | takeOver p o src =>
    simp only [Registry.step] at hs
    split at hs
    · next taken n a hp hsrc =>
      cases hs
      refine (h.drop src).pick hp (fun o' a' ho => ?_) fun q a' hq => (h.agrees hq hsrc).symm
      obtain ⟨hne, ho⟩ := owned_of_setOwned_none ho
      exact absurd (h.distinct ho hsrc) hne
    · cases hs
  | publish p =>
    simp only [Registry.step] at hs
    split at hs
    · next hp =>
      cases hs
      exact h.publish hp
    · cases hs
  | move src dst =>
    cases hs
    exact h.move src dst
  | retire o =>
    simp only [Registry.step] at hs
    split at hs
    · next ho =>
      cases hs
      exact h.retire ho
    · cases hs

/-- **The directory is consistent** in every run in which what is picked is free. -/
theorem consistent (h : machine.ReachVia PicksFree r) : Consistent r := by
  refine h.invariant ?_ fun _ hC hok hs => hC.step hok hs
  exact ⟨fun ho _ => (nomatch ho), fun ho => (nomatch ho), fun hp _ => (nomatch hp)⟩

/-- What the only writer picks is free. -/
theorem Alone.picksFree {r' : Registry ω π ν α} {a : Act ω π ν α} (h : Alone r)
    (hs : Registry.step r a = some r') : PicksFree r a := by
  cases a with
  | pick p o n a =>
    simp only [Registry.step] at hs
    split at hs
    · next taken hp => exact h.free hp (guardTo_eq_some.mp hs).1 o
    · cases hs
  | look _ | fail _ _ | takeOver _ _ _ | publish _ | move _ _ | retire _ => trivial

/-- **One step**, if nobody looks while a writer is under way. -/
theorem Alone.step {r' : Registry ω π ν α} {a : Act ω π ν α} (h : Alone r) (hC : Consistent r)
    (hok : OneAtATime r a) (hs : Registry.step r a = some r') : Alone r' := by
  cases a with
  | look p =>
    simp only [Registry.step] at hs
    split at hs
    · cases hs
      exact .look hC hok p
    · cases hs
  | fail p o =>
    simp only [Registry.step] at hs
    split at hs
    · next hp =>
      cases hs
      exact h.go_on (stage_ne_idle hp nofun) .idle nofun rfl
    · cases hs
  | pick p o n a =>
    simp only [Registry.step] at hs
    split at hs
    · next taken hp =>
      obtain ⟨-, rfl⟩ := guardTo_eq_some.mp hs
      refine h.go_on (stage_ne_idle hp nofun) (.picked n a) nofun ?_
      exact congrArg (Function.update · p (.picked n a)) (stage_give o (n, a))
    · cases hs
  | takeOver p o src =>
    simp only [Registry.step] at hs
    split at hs
    · next taken n a hp hsrc =>
      cases hs
      refine h.go_on (stage_ne_idle hp nofun) (.picked n a) nofun ?_
      exact congrArg (Function.update · p (.picked n a)) (stage_give o (n, a))
    · cases hs
  | publish p =>
    simp only [Registry.step] at hs
    split at hs
    · next hp =>
      cases hs
      exact h.go_on (stage_ne_idle hp nofun) .idle nofun rfl
    · cases hs
  | move src dst =>
    cases hs
    refine h.mono rfl fun {o n a} ho => ?_
    rcases owned_of_move ho with ⟨-, ho⟩ | ⟨-, -, ho⟩
    · exact ⟨src, ho⟩
    · exact ⟨o, ho⟩
  | retire o =>
    simp only [Registry.step] at hs
    split at hs
    · cases hs
      exact h.mono rfl fun {o' n a} ho => ⟨o', (owned_of_setOwned_none ho).2⟩
    · cases hs

/-- **Writers that work one at a time** pick names that are free. -/
theorem picksFree_of_oneAtATime (h : machine.ReachVia OneAtATime r) :
    machine.ReachVia PicksFree r ∧ Alone r := by
  refine h.invariant (P := fun r => machine.ReachVia PicksFree r ∧ Alone r) ⟨.init, ?_⟩ ?_
  · exact ⟨fun hp _ => absurd rfl hp, fun _ ho => (nomatch ho)⟩
  · intro r r' a _ hr hok hs
    exact ⟨.step hr.1 (hr.2.picksFree hs) hs, hr.2.step (consistent hr.1) hok hs⟩

end Registry

end EasyTun.Lib
