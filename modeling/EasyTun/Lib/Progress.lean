import Mathlib.Algebra.Order.BigOperators.Group.Finset
import Mathlib.Algebra.Ring.Nat
import Mathlib.Data.Fintype.Basic
import Mathlib.Tactic.Common
import EasyTun.Lib.Machine

/-!
# Runs that come to an end

A rank that every step of some kind lowers bounds the number of such steps. The rank of a
system of workers is a sum over the workers, of which a step changes one.
-/

namespace EasyTun.Lib

/-- The rank of a family of workers, each of its own type. -/
def total {ι : Type} [Fintype ι] {π : ι → Type} (rank : ∀ i, π i → Nat) (w : ∀ i, π i) : Nat :=
  ∑ i, rank i (w i)

section Total

variable {ι : Type} [Fintype ι] {π : ι → Type} {rank : ∀ i, π i → Nat} {w : ∀ i, π i}

/-- One worker has changed. -/
theorem total_update [DecidableEq ι] (rank : ∀ i, π i → Nat) (w : ∀ i, π i) (i : ι) (p : π i) :
    total rank (Function.update w i p) + rank i (w i) = total rank w + rank i p := by
  unfold total
  rw [← Finset.add_sum_erase _ (fun j => rank j (w j)) (Finset.mem_univ i),
    ← Finset.add_sum_erase _ (fun j => rank j (Function.update w i p j)) (Finset.mem_univ i),
    Function.update_self]
  have hrest : ∑ j ∈ Finset.univ.erase i, rank j (Function.update w i p j) =
      ∑ j ∈ Finset.univ.erase i, rank j (w j) := by
    refine Finset.sum_congr rfl fun j hj => ?_
    rw [Function.update_of_ne (Finset.ne_of_mem_erase hj)]
  rw [hrest]
  omega

/-- A worker's rank is part of the sum. -/
theorem rank_le_total (rank : ∀ i, π i → Nat) (w : ∀ i, π i) (i : ι) :
    rank i (w i) ≤ total rank w :=
  Finset.single_le_sum (f := fun j => rank j (w j)) (fun _ _ => Nat.zero_le _)
    (Finset.mem_univ i)

theorem total_eq_zero (h : ∀ i, rank i (w i) = 0) : total rank w = 0 :=
  Finset.sum_eq_zero fun i _ => h i

end Total

namespace Machine

variable {σ α : Type} {M : Machine σ α}

section Rank

variable {ok : σ → α → Prop} [∀ s a, Decidable (ok s a)] {I : σ → Prop} {r : σ → Nat}

/-- **A rank bounds how often the steps that lower it occur** in a run, if no other step raises
it. -/
theorem runVia_countP_le {p : α → Bool}
    (hstep : ∀ {s t a}, I s → ok s a → M.step s a = some t → I t)
    (hlower : ∀ {s t a}, I s → ok s a → M.step s a = some t → r t + (p a).toNat ≤ r s) :
    ∀ {as : List α} {s t : σ}, I s → M.runVia ok s as = some t →
      as.countP p + r t ≤ r s ∧ I t
  | [], s, t, hI, h => by
    cases h
    exact ⟨Nat.le_of_eq (Nat.zero_add _), hI⟩
  | a :: as, s, t, hI, h => by
    unfold Machine.runVia at h
    split at h
    · next hok =>
      obtain ⟨u, hu, hrest⟩ := Option.bind_eq_some_iff.mp h
      obtain ⟨hcount, hIt⟩ := runVia_countP_le hstep hlower (hstep hI hok hu) hrest
      have hrank := hlower hI hok hu
      refine ⟨?_, hIt⟩
      rw [List.countP_cons]
      cases hp : p a with
      | true =>
        rw [hp, Bool.toNat_true] at hrank
        rw [if_pos rfl]
        omega
      | false =>
        rw [hp, Bool.toNat_false] at hrank
        rw [if_neg Bool.false_ne_true]
        omega
    · cases h

/-- **A run of steps that lower a rank is no longer than the rank.** -/
theorem runVia_length_le (hstep : ∀ {s t a}, I s → ok s a → M.step s a = some t → I t)
    (hlower : ∀ {s t a}, I s → ok s a → M.step s a = some t → r t < r s) {as : List α} {s t : σ}
    (hI : I s) (h : M.runVia ok s as = some t) : as.length + r t ≤ r s ∧ I t := by
  have hcount := runVia_countP_le (p := fun _ => true) hstep hlower hI h
  rwa [List.countP_true] at hcount

end Rank

end Machine

end EasyTun.Lib
