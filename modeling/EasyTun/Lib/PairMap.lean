import Mathlib.Data.Sym.Sym2
import Mathlib.Data.Set.Finite.Basic
import Mathlib.Logic.Function.Basic

/-!
# Finite maps keyed by unordered pairs

What a table of links between two ends is for: at most one value for each pair, whichever
end is named first. A `PairMap` is a function on unordered pairs that is defined on
finitely many of them. Its operations are those of a finite map, and `eraseAll`, which
removes all pairs an end belongs to. Each of them is characterised by what `find` returns
afterwards.
-/

namespace EasyTun.Lib

/-- A finite map whose keys are unordered pairs. -/
structure PairMap (α β : Type) where
  find : Sym2 α → Option β
  finite : {p | find p ≠ none}.Finite

namespace PairMap

variable {α β : Type} [DecidableEq α]

/-- No pair has a value. -/
def empty : PairMap α β where
  find _ := none
  finite := by simp

/-- A pair gets a value. -/
def insert (m : PairMap α β) (p : Sym2 α) (b : β) : PairMap α β where
  find := Function.update m.find p (some b)
  finite := by
    refine (m.finite.insert p).subset ?_
    intro q hq
    by_cases hqp : q = p
    · exact Or.inl hqp
    · refine Or.inr ?_
      rwa [Set.mem_ofPred_eq, Function.update_of_ne hqp] at hq

/-- Only the pairs that pass `keep`. -/
def filter (m : PairMap α β) (keep : Sym2 α → Prop) [DecidablePred keep] : PairMap α β where
  find p := if keep p then m.find p else none
  finite := by
    refine m.finite.subset ?_
    intro p hp hnone
    refine hp ?_
    rw [hnone, ite_self]

/-- A pair loses its value. -/
def erase (m : PairMap α β) (p : Sym2 α) : PairMap α β := m.filter (· ≠ p)

/-- Removes the pairs that `x` belongs to. -/
def eraseAll (m : PairMap α β) (x : α) : PairMap α β := m.filter (x ∉ ·)

/-- The same pairs, with changed values. -/
def mapValues (m : PairMap α β) (f : β → β) : PairMap α β where
  find p := (m.find p).map f
  finite := by
    refine m.finite.subset ?_
    intro p hp hnone
    refine hp ?_
    rw [hnone, Option.map_none]

variable (m : PairMap α β) (p q : Sym2 α)

@[simp] theorem find_insert (b : β) :
    (m.insert p b).find q = if q = p then some b else m.find q :=
  Function.update_apply ..

@[simp] theorem find_erase : (m.erase p).find q = if q = p then none else m.find q :=
  ite_not ..

@[simp] theorem find_eraseAll (x : α) :
    (m.eraseAll x).find q = if x ∈ q then none else m.find q :=
  ite_not ..

omit [DecidableEq α] in
@[simp] theorem find_mapValues (f : β → β) : (m.mapValues f).find q = (m.find q).map f :=
  rfl

end PairMap

end EasyTun.Lib
