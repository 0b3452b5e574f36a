import Mathlib.Algebra.BigOperators.Group.List.Basic
import Mathlib.Algebra.Order.Group.Multiset
import Mathlib.Data.Multiset.Count

/-!
# Who holds what

A system has places: pools, queues, the hands of a worker. A place holds items, an
item holds resources, and an item says something about the state that depends on
its own resources only. `Ledger` is such a system, over any types.

- `Sound`: **no resource is held twice**, in one place or in two, and every item is
  right in what it says.
- `Exchange`: what a step does that has two places exchange resources, one of which
  may write to what it holds before or after, and may make new ones.
- `Sound.exchange`: **an exchange keeps the ledger sound**. Nothing is said about the
  other places: nobody wrote to what they hold.
-/

namespace EasyTun.Lib

/-- Places `π` with items `ι` that hold resources `ρ`, in states `σ`. -/
structure Ledger (σ π ι ρ : Type) where
  items : σ → π → List ι
  res : ι → Multiset ρ
  /-- The resource has been made. -/
  Used : σ → ρ → Prop
  /-- What an item says. -/
  Ok : σ → ι → Prop
  /-- The resource is the same in both states. -/
  Same : σ → σ → ρ → Prop
  /-- What only grows has grown. -/
  Later : σ → σ → Prop
  /-- An item speaks of its own resources and of what only grows. -/
  frame : ∀ {s s' it}, Later s s' → (∀ r ∈ res it, Same s s' r) → Ok s it → Ok s' it

namespace Ledger

variable {σ π ι ρ : Type} (L : Ledger σ π ι ρ)

/-- The resources of a list of items. -/
def resOf (its : List ι) : Multiset ρ := (its.map L.res).sum

/-- What a place holds. -/
def holds (s : σ) (x : π) : Multiset ρ := L.resOf (L.items s x)

@[simp] theorem resOf_nil : L.resOf [] = 0 := rfl

@[simp] theorem resOf_cons (it : ι) (its : List ι) :
    L.resOf (it :: its) = L.res it + L.resOf its := by
  rw [resOf, List.map_cons, List.sum_cons, resOf]

@[simp] theorem resOf_append (its its' : List ι) :
    L.resOf (its ++ its') = L.resOf its + L.resOf its' := by
  rw [resOf, List.map_append, List.sum_append, resOf, resOf]

theorem resOf_perm {its its' : List ι} (h : its.Perm its') : L.resOf its = L.resOf its' :=
  (h.map L.res).sum_eq

variable {L} {s s' : σ} {p q x y : π} {it : ι} {r : ρ} {its : List ι}

theorem of_eq_or {P : π → Prop} (hx : x = p ∨ x = q) (h : P x) : P p ∨ P q := by
  rcases hx with rfl | rfl
  · exact Or.inl h
  · exact Or.inr h

theorem resOf_sublist {its' : List ι} (h : its.Sublist its') : L.resOf its ≤ L.resOf its' := by
  induction h with
  | slnil => exact le_rfl
  | cons it _ ih =>
    rw [resOf_cons]
    exact le_trans ih (Multiset.le_add_left ..)
  | cons_cons it _ ih =>
    rw [resOf_cons, resOf_cons]
    exact add_le_add le_rfl ih

theorem le_resOf (hit : it ∈ its) : L.res it ≤ L.resOf its := by
  have h := resOf_sublist (L := L) (List.singleton_sublist.mpr hit)
  rwa [resOf_cons, resOf_nil, add_zero] at h

theorem mem_resOf (hit : it ∈ its) (hr : r ∈ L.res it) : r ∈ L.resOf its :=
  Multiset.mem_of_le (le_resOf hit) hr

variable [DecidableEq ρ]

variable (L) in
/-- **Every resource is in one place**, and the items are right. -/
structure Sound (s : σ) : Prop where
  once : ∀ x r, (L.holds s x).count r ≤ 1
  apart : ∀ {x y r}, r ∈ L.holds s x → r ∈ L.holds s y → x = y
  used : ∀ {x r}, r ∈ L.holds s x → L.Used s r
  ok : ∀ {x it}, it ∈ L.items s x → L.Ok s it

variable (L) in
/-- **An exchange** between `p` and `q`. Only `p` writes, to what it holds before or
after, and `new` is made. -/
structure Exchange (s s' : σ) (p q : π) (new : Multiset ρ) : Prop where
  ne : p ≠ q
  others : ∀ x, x ≠ p → x ≠ q → L.items s' x = L.items s x
  count : ∀ r, (L.holds s' p).count r + (L.holds s' q).count r ≤
    (L.holds s p).count r + (L.holds s q).count r + new.count r
  fresh : ∀ r, new.count r ≤ 1 ∧ (r ∈ new → ¬L.Used s r ∧ L.Used s' r)
  used : ∀ r, L.Used s r → L.Used s' r
  same : ∀ r, L.Used s r → r ∉ L.holds s p → r ∉ L.holds s' p → L.Same s s' r
  later : L.Later s s'
  ok : ∀ it ∈ L.items s' p, L.Ok s' it
  kept : ∀ it ∈ L.items s' q, it ∈ L.items s q ∨ L.Ok s' it

/-- What the first item holds, the others do not. -/
theorem Sound.not_mem_tail (h : L.Sound s) (hx : L.items s x = it :: its) (hr : r ∈ L.res it) :
    r ∉ L.resOf its := by
  intro htail
  have honce := h.once x r
  rw [holds, hx, resOf_cons, Multiset.count_add] at honce
  rw [← Multiset.one_le_count_iff_mem] at hr htail
  omega

/-- Two places together hold a resource once. -/
theorem Sound.count_add_le_one (h : L.Sound s) (hne : p ≠ q) (r : ρ) :
    (L.holds s p).count r + (L.holds s q).count r ≤ 1 := by
  by_cases hp : r ∈ L.holds s p
  · have hq : r ∉ L.holds s q := fun hq => hne (h.apart hp hq)
    rw [Multiset.count_eq_zero.mpr hq]
    exact h.once p r
  · rw [Multiset.count_eq_zero.mpr hp, Nat.zero_add]
    exact h.once q r

namespace Exchange

variable {new : Multiset ρ} (he : L.Exchange s s' p q new) (h : L.Sound s)

include he h

/-- After an exchange too. -/
theorem count_add_le_one (r : ρ) : (L.holds s' p).count r + (L.holds s' q).count r ≤ 1 := by
  have hcount := he.count r
  have hold := h.count_add_le_one he.ne r
  obtain ⟨hone, hfresh⟩ := he.fresh r
  by_cases hnew : r ∈ new
  · -- new, so nobody held it
    have hunused := (hfresh hnew).1
    have hp : r ∉ L.holds s p := fun hp => hunused (h.used hp)
    have hq : r ∉ L.holds s q := fun hq => hunused (h.used hq)
    rw [Multiset.count_eq_zero.mpr hp, Multiset.count_eq_zero.mpr hq] at hcount
    omega
  · rw [Multiset.count_eq_zero.mpr hnew] at hcount
    omega

omit h in
/-- What one of the two holds afterwards was with one of them, or is new. -/
theorem origin (hr : r ∈ L.holds s' p ∨ r ∈ L.holds s' q) :
    r ∈ L.holds s p ∨ r ∈ L.holds s q ∨ r ∈ new := by
  have hcount := he.count r
  rw [← Multiset.one_le_count_iff_mem, ← Multiset.one_le_count_iff_mem,
    ← Multiset.one_le_count_iff_mem]
  rw [← Multiset.one_le_count_iff_mem, ← Multiset.one_le_count_iff_mem] at hr
  omega

omit h in
theorem holds_other (hp : x ≠ p) (hq : x ≠ q) : L.holds s' x = L.holds s x := by
  rw [holds, he.others x hp hq, holds]

/-- A third place has nothing of theirs. -/
theorem not_mem_other (hp : x ≠ p) (hq : x ≠ q) (hx : r ∈ L.holds s' x) :
    ¬(r ∈ L.holds s' p ∨ r ∈ L.holds s' q) := by
  intro hr
  rw [he.holds_other hp hq] at hx
  rcases he.origin hr with hr | hr | hr
  · exact hp (h.apart hx hr)
  · exact hq (h.apart hx hr)
  · exact ((he.fresh r).2 hr).1 (h.used hx)

/-- An item that stays in a place other than `p` is still right. -/
theorem ok_other (hp : x ≠ p) (hit : it ∈ L.items s x) (hit' : it ∈ L.items s' x) :
    L.Ok s' it := by
  refine L.frame he.later (fun r hr => ?_) (h.ok hit)
  have hmem : r ∈ L.holds s x := mem_resOf hit hr
  have hmem' : r ∈ L.holds s' x := mem_resOf hit' hr
  refine he.same r (h.used hmem) (fun hr => hp (h.apart hmem hr)) fun hr => ?_
  by_cases hq : x = q
  · -- both would have it now
    subst hq
    have hpq := he.count_add_le_one h r
    rw [← Multiset.one_le_count_iff_mem] at hmem' hr
    omega
  · exact he.not_mem_other h hp hq hmem' (Or.inl hr)

end Exchange

/-- **An exchange keeps the ledger sound.** -/
theorem Sound.exchange {new : Multiset ρ} (h : L.Sound s) (he : L.Exchange s s' p q new) :
    L.Sound s' where
  once x r := by
    have hpq := he.count_add_le_one h r
    by_cases hp : x = p
    · subst hp
      omega
    · by_cases hq : x = q
      · subst hq
        omega
      · rw [he.holds_other hp hq]
        exact h.once x r
  apart {x y r} hx hy := by
    have hpq := he.count_add_le_one h r
    -- in `p` and in `q` it cannot be
    have hnot : ¬(r ∈ L.holds s' p ∧ r ∈ L.holds s' q) := by
      rw [← Multiset.one_le_count_iff_mem, ← Multiset.one_le_count_iff_mem]
      omega
    by_cases hxpq : x = p ∨ x = q
    · by_cases hypq : y = p ∨ y = q
      · rcases hxpq with rfl | rfl <;> rcases hypq with rfl | rfl
        · rfl
        · exact absurd ⟨hx, hy⟩ hnot
        · exact absurd ⟨hy, hx⟩ hnot
        · rfl
      · obtain ⟨hyp, hyq⟩ := not_or.mp hypq
        exact absurd (of_eq_or (P := fun z => r ∈ L.holds s' z) hxpq hx)
          (he.not_mem_other h hyp hyq hy)
    · obtain ⟨hxp, hxq⟩ := not_or.mp hxpq
      have hxnot := he.not_mem_other h hxp hxq hx
      have hyp : y ≠ p := fun heq => hxnot (Or.inl (heq ▸ hy))
      have hyq : y ≠ q := fun heq => hxnot (Or.inr (heq ▸ hy))
      rw [he.holds_other hxp hxq] at hx
      rw [he.holds_other hyp hyq] at hy
      exact h.apart hx hy
  used {x r} hx := by
    by_cases hxpq : x = p ∨ x = q
    · rcases he.origin (of_eq_or (P := fun z => r ∈ L.holds s' z) hxpq hx) with hr | hr | hr
      · exact he.used r (h.used hr)
      · exact he.used r (h.used hr)
      · exact ((he.fresh r).2 hr).2
    · obtain ⟨hxp, hxq⟩ := not_or.mp hxpq
      rw [he.holds_other hxp hxq] at hx
      exact he.used r (h.used hx)
  ok {x it} hit := by
    by_cases hxp : x = p
    · subst hxp
      exact he.ok it hit
    · by_cases hxq : x = q
      · subst hxq
        rcases he.kept it hit with hold | hok
        · exact he.ok_other h hxp hold hit
        · exact hok
      · have hold := hit
        rw [he.others x hxp hxq] at hold
        exact he.ok_other h hxp hold hit

end Ledger

end EasyTun.Lib
