import Mathlib.Data.List.Nodup
import Mathlib.Logic.Function.Basic
import EasyTun.Lib.Machine
import EasyTun.Lib.Maps

/-!
# Tokens that are free or held

An allocator hands out tokens (addresses, ports, slots) from a fixed supply. A
token lies on the free stack or is held by one of any number of holders. It is
taken from the stack, moved from one holder to another, given back, or lost: a
holder may forget its token, and what it held before is lost when it gets
another one.

- `exclusive`: **no token is in two places**, in every run whatever is lost.
- `conserved`: **no token is lost**, in every run whose steps all meet `Saves`:
  nothing is forgotten and no token overwritten.

A program refines this machine when its tables can be read as the free stack and
the holders (`Machine.ReachVia.simulate`), and then inherits both.
-/

namespace EasyTun.Lib

/-- A free stack, its top at the end, and what each holder holds. -/
@[ext] structure Tokens (τ ι : Type) where
  free : List τ
  held : ι → Option τ

namespace Tokens

variable {τ ι : Type}

/-- What can happen to a token. -/
inductive Act (ι : Type) where
  /-- The top of the stack, if there is one, replaces what `i` holds. -/
  | take (i : ι)
  /-- What `i` holds replaces what `j` holds. -/
  | move (i j : ι)
  /-- `i` forgets what it holds. -/
  | drop (i : ι)
  /-- What `i` holds goes back on the stack. -/
  | giveBack (i : ι)
  /-- The top of the stack gets lost. -/
  | waste

/-! ## The allocator -/

section Machine

variable [DecidableEq ι]

/-- `i` holds `o` instead of what it held. -/
def put (t : Tokens τ ι) (i : ι) (o : Option τ) : Tokens τ ι :=
  { t with held := Function.update t.held i o }

/-- A table that differs from `t` at `i` only. -/
theorem eq_put {t t' : Tokens τ ι} {i : ι} {o : Option τ} (hfree : t'.free = t.free)
    (hi : t'.held i = o) (hother : ∀ j, j ≠ i → t'.held j = t.held j) : t' = t.put i o :=
  Tokens.ext hfree (Function.eq_update_iff.mpr ⟨hi, hother⟩)

/-- Nothing changes when `i` gets what it has. -/
theorem put_held {t : Tokens τ ι} {i : ι} {o : Option τ} (h : t.held i = o) : t.put i o = t := by
  subst h
  exact Tokens.ext rfl (Function.update_eq_self i t.held)

theorem put_comm (t : Tokens τ ι) {i j : ι} (hij : i ≠ j) (o o' : Option τ) :
    (t.put i o).put j o' = (t.put j o').put i o := by
  apply Tokens.ext
  · rfl
  · exact Function.update_comm hij o o' t.held

def apply (t : Tokens τ ι) : Act ι → Tokens τ ι
  | .take i => { t with free := t.free.dropLast }.put i t.free.getLast?
  | .move i j => (t.put i none).put j (t.held i)
  | .drop i => t.put i none
  | .giveBack i => { t.put i none with free := t.free ++ (t.held i).toList }
  | .waste => { t with free := t.free.dropLast }

/-- The allocator: everything is free at first, and every step is possible. -/
def machine (supply : List τ) : Machine (Tokens τ ι) (Act ι) :=
  { init := { free := supply, held := fun _ => none }, step := fun t a => some (t.apply a) }

end Machine

/-! ## No token is in two places -/

variable {supply : List τ} {t : Tokens τ ι}

theorem ne_some_of_eq_none {i : ι} (hi : t.held i = none) (x : τ) : t.held i ≠ some x := by
  rw [hi]
  exact (Option.some_ne_none x).symm

/-- Tokens come from the supply and are in one place each. -/
structure Exclusive (supply : List τ) (t : Tokens τ ι) : Prop where
  nodup : t.free.Nodup
  free_mem : ∀ x ∈ t.free, x ∈ supply
  held_mem : ∀ {i x}, t.held i = some x → x ∈ supply
  not_free : ∀ {i x}, t.held i = some x → x ∉ t.free
  inj : ∀ {i j x}, t.held i = some x → t.held j = some x → i = j

namespace Exclusive

theorem pop (h : Exclusive supply t) : Exclusive supply { t with free := t.free.dropLast } where
  nodup := h.nodup.sublist (List.dropLast_sublist _)
  free_mem x hx := h.free_mem x (List.dropLast_subset _ hx)
  held_mem := h.held_mem
  not_free hi hx := h.not_free hi (List.dropLast_subset _ hx)
  inj := h.inj

/-- A token that nobody holds any more may go back on the stack. -/
theorem push (h : Exclusive supply t) (o : Option τ)
    (ho : ∀ x, o = some x → x ∈ supply ∧ x ∉ t.free ∧ ∀ j, t.held j ≠ some x) :
    Exclusive supply { t with free := t.free ++ o.toList } where
  nodup := by
    refine List.nodup_append.mpr ⟨h.nodup, ?_, ?_⟩
    · cases o with
      | none => exact List.nodup_nil
      | some x => exact List.nodup_singleton x
    · rintro x hx y hy rfl
      exact (ho x (Option.mem_toList.mp hy)).2.1 hx
  free_mem x hx := by
    rcases List.mem_append.mp hx with hx | hx
    · exact h.free_mem x hx
    · exact (ho x (Option.mem_toList.mp hx)).1
  held_mem := h.held_mem
  not_free := by
    intro i x hi hx
    rcases List.mem_append.mp hx with hx | hx
    · exact h.not_free hi hx
    · exact (ho x (Option.mem_toList.mp hx)).2.2 i hi
  inj := h.inj

theorem not_mem_dropLast (h : Exclusive supply t) {x : τ} (hx : t.free.getLast? = some x) :
    x ∉ t.free.dropLast := by
  intro hmem
  obtain ⟨l, hl⟩ := List.getLast?_eq_some_iff.mp hx
  have hnodup := h.nodup
  rw [hl] at hnodup hmem
  rw [List.dropLast_concat] at hmem
  exact (List.nodup_append.mp hnodup).2.2 x hmem x (List.mem_singleton_self x) rfl

variable [DecidableEq ι]

/-- A holder may get a token of the supply that is nowhere else. -/
theorem put (h : Exclusive supply t) (i : ι) (o : Option τ)
    (ho : ∀ x, o = some x → x ∈ supply ∧ x ∉ t.free ∧ ∀ j, j ≠ i → t.held j ≠ some x) :
    Exclusive supply (t.put i o) where
  nodup := h.nodup
  free_mem := h.free_mem
  held_mem := by
    intro j x hj
    rcases update_cases hj with ⟨-, rfl⟩ | ⟨-, hj⟩
    · exact (ho x rfl).1
    · exact h.held_mem hj
  not_free := by
    intro j x hj
    rcases update_cases hj with ⟨-, rfl⟩ | ⟨-, hj⟩
    · exact (ho x rfl).2.1
    · exact h.not_free hj
  inj := by
    intro j k x hj hk
    rcases update_cases hj with ⟨rfl, rfl⟩ | ⟨hji, hj'⟩
    · rcases update_cases hk with ⟨rfl, -⟩ | ⟨hkj, hk'⟩
      · rfl
      · exact absurd hk' ((ho x rfl).2.2 k hkj)
    · rcases update_cases hk with ⟨rfl, rfl⟩ | ⟨-, hk'⟩
      · exact absurd hj' ((ho x rfl).2.2 j hji)
      · exact h.inj hj' hk'

theorem drop (h : Exclusive supply t) (i : ι) : Exclusive supply (t.put i none) :=
  h.put i none fun _ hx => by cases hx

/-- Every step keeps each token in one place. -/
theorem step (h : Exclusive supply t) (a : Act ι) : Exclusive supply (t.apply a) := by
  cases a with
  | take i =>
    refine h.pop.put i _ fun x hx => ?_
    have hmem : x ∈ t.free := List.mem_of_getLast? hx
    exact ⟨h.free_mem x hmem, h.not_mem_dropLast hx, fun j _ hj => h.not_free hj hmem⟩
  | move i j =>
    refine (h.drop i).put j _ fun x hx => ⟨h.held_mem hx, h.not_free hx, fun k _ hk => ?_⟩
    rcases update_cases hk with ⟨-, hno⟩ | ⟨hki, hk⟩
    · cases hno
    · exact hki (h.inj hk hx)
  | drop i => exact h.drop i
  | giveBack i =>
    refine (h.drop i).push _ fun x hx => ⟨h.held_mem hx, h.not_free hx, fun k hk => ?_⟩
    rcases update_cases hk with ⟨-, hno⟩ | ⟨hki, hk⟩
    · cases hno
    · exact hki (h.inj hk hx)
  | waste => exact h.pop

end Exclusive

variable [DecidableEq ι]

/-- **No token is ever in two places.** -/
theorem exclusive (hsupply : supply.Nodup) (h : (machine supply).Reach t) :
    Exclusive supply t := by
  refine h.invariant ?_ fun hE hs => ?_
  · exact
      { nodup := hsupply
        free_mem := fun _ hx => hx
        held_mem := fun hx => nomatch hx
        not_free := fun hx => nomatch hx
        inj := fun hx => nomatch hx }
  · cases hs
    exact hE.step _

/-! ## No token is lost -/

/-- Every token of the supply is free or held. -/
def Conserved (supply : List τ) (t : Tokens τ ι) : Prop :=
  ∀ x ∈ supply, x ∈ t.free ∨ ∃ i, t.held i = some x

/-- The steps that lose nothing. -/
def Saves (t : Tokens τ ι) : Act ι → Prop
  | .take i => t.held i = none
  | .move i j => i ≠ j ∧ t.held j = none
  | .drop i => t.held i = none
  | .giveBack _ => True
  | .waste => t.free = []

/-- A token that `i` does not hold is still where it was. -/
theorem held_put_of_held_ne {i j : ι} {x : τ} (o : Option τ) (hi : t.held i ≠ some x)
    (hj : t.held j = some x) : (t.put i o).held j = some x := by
  have hji : j ≠ i := by
    rintro rfl
    exact hi hj
  exact (Function.update_of_ne hji ..).trans hj

theorem Conserved.step (h : Conserved supply t) {a : Act ι} (ha : Saves t a) :
    Conserved supply (t.apply a) := by
  intro x hx
  cases a with
  | take i =>
    rcases h x hx with hfree | ⟨j, hj⟩
    · by_cases htop : t.free.getLast? = some x
      · exact Or.inr ⟨i, (Function.update_self ..).trans htop⟩
      · refine Or.inl ?_
        have hne : t.free ≠ [] := List.ne_nil_of_mem hfree
        rw [← List.dropLast_append_getLast hne] at hfree
        rcases List.mem_append.mp hfree with hmem | hmem
        · exact hmem
        · rw [List.mem_singleton.mp hmem] at htop
          exact absurd (List.getLast?_eq_some_getLast hne) htop
    · exact Or.inr ⟨j, held_put_of_held_ne _ (ne_some_of_eq_none ha x) hj⟩
  | move i j =>
    rcases h x hx with hfree | ⟨k, hk⟩
    · exact Or.inl hfree
    · by_cases hki : k = i
      · subst hki
        exact Or.inr ⟨j, (Function.update_self ..).trans hk⟩
      · have hkj : k ≠ j := by
          rintro rfl
          exact ne_some_of_eq_none ha.2 x hk
        refine Or.inr ⟨k, ?_⟩
        exact (Function.update_of_ne hkj ..).trans ((Function.update_of_ne hki ..).trans hk)
  | drop i =>
    rcases h x hx with hfree | ⟨j, hj⟩
    · exact Or.inl hfree
    · exact Or.inr ⟨j, held_put_of_held_ne _ (ne_some_of_eq_none ha x) hj⟩
  | giveBack i =>
    rcases h x hx with hfree | ⟨j, hj⟩
    · exact Or.inl (List.mem_append_left _ hfree)
    · by_cases hi : t.held i = some x
      · exact Or.inl (List.mem_append_right _ (Option.mem_toList.mpr hi))
      · exact Or.inr ⟨j, held_put_of_held_ne _ hi hj⟩
  | waste =>
    rcases h x hx with hfree | hheld
    · rw [show t.free = [] from ha] at hfree
      cases hfree
    · exact Or.inr hheld

/-- **No token is lost** in a run whose steps all save what is held. -/
theorem conserved (h : (machine supply).ReachVia Saves t) : Conserved supply t := by
  refine h.invariant (fun x hx => Or.inl hx) fun _ hC ha hs => ?_
  cases hs
  exact hC.step ha

end Tokens

end EasyTun.Lib
