import Mathlib.Data.List.AList
import Mathlib.Logic.Function.Basic

/-!
# Finite maps

Go maps are association lists without duplicate keys, `AList` of Mathlib. The
programs also copy a map while leaving entries out, which is `keepIf` here,
characterised by what a lookup in the copy finds. Total tables are functions,
updated by `Function.update`, and by `set₂` where they have two indices.
-/

namespace EasyTun.Lib

/-- A map from `α` to `β`. -/
abbrev Map (α β : Type) := AList fun _ : α => β

namespace Map

variable {α β : Type} [DecidableEq α]

/-- The entries of `m` that pass `p`, as a loop that copies a map makes them. -/
def keepIf (p : α → β → Bool) (m : Map α β) : Map α β :=
  ⟨m.entries.filter fun e => p e.1 e.2, m.nodupKeys.sublist List.filter_sublist⟩

theorem lookup_eq_some {m : Map α β} {a : α} {b : β} :
    m.lookup a = some b ↔ (⟨a, b⟩ : Sigma fun _ : α => β) ∈ m.entries :=
  List.mem_dlookup_iff m.nodupKeys

/-- A lookup in the copy finds what was there, if it passed. -/
theorem lookup_keepIf (p : α → β → Bool) (m : Map α β) (a : α) :
    (m.keepIf p).lookup a = (m.lookup a).filter (p a) := by
  ext b
  rw [lookup_eq_some, Option.filter_eq_some_iff, lookup_eq_some]
  exact List.mem_filter

/-- A replacement adds no key. -/
theorem length_keys_insert {m : Map α β} {a : α} (h : a ∈ m) (b : β) :
    (m.insert a b).keys.length = m.keys.length := by
  have hpos : 0 < m.keys.length := List.length_pos_of_mem (AList.mem_keys.mp h)
  rw [AList.keys_insert, List.length_cons, List.length_erase_of_mem (AList.mem_keys.mp h)]
  omega

end Map

/-! ## Tables -/

section Table

/-- An entry of a changed table is the new one or an old one. -/
theorem update_cases {α γ : Type} [DecidableEq α] {f : α → γ} {a x : α} {c e : γ}
    (h : Function.update f a c x = e) : (x = a ∧ c = e) ∨ (x ≠ a ∧ f x = e) := by
  by_cases hx : x = a
  · subst hx
    exact Or.inl ⟨rfl, (Function.update_self ..).symm.trans h⟩
  · exact Or.inr ⟨hx, (Function.update_of_ne hx ..).symm.trans h⟩

variable {α β γ : Type} [DecidableEq α] [DecidableEq β]

/-- The table with one entry changed. -/
def set₂ (f : α → β → γ) (a : α) (b : β) (c : γ) : α → β → γ :=
  fun x y => if x = a ∧ y = b then c else f x y

@[simp] theorem set₂_self (f : α → β → γ) (a : α) (b : β) (c : γ) : set₂ f a b c a b = c :=
  if_pos ⟨rfl, rfl⟩

theorem set₂_of_ne (f : α → β → γ) {a x : α} {b y : β} (c : γ) (h : ¬(x = a ∧ y = b)) :
    set₂ f a b c x y = f x y :=
  if_neg h

/-- An entry of the changed table is the new one or an old one. -/
theorem set₂_cases {f : α → β → γ} {a x : α} {b y : β} {c e : γ} (h : set₂ f a b c x y = e) :
    (x = a ∧ y = b ∧ c = e) ∨ (¬(x = a ∧ y = b) ∧ f x y = e) := by
  by_cases hxy : x = a ∧ y = b
  · rw [hxy.1, hxy.2, set₂_self] at h
    exact Or.inl ⟨hxy.1, hxy.2, h⟩
  · rw [set₂_of_ne _ _ hxy] at h
    exact Or.inr ⟨hxy, h⟩

end Table

end EasyTun.Lib
