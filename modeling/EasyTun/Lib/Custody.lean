import Mathlib.Data.List.Perm.Basic
import Mathlib.Logic.Nontrivial.Basic
import Mathlib.Tactic.Common
import EasyTun.Lib.Ledger
import EasyTun.Lib.Machine

/-!
# Buffers and the places that hold them

Buffers are made, passed from place to place, written to and forgotten. A place is a pool, a
queue or a variable, and what it is for is a predicate on the contents of its buffers.
The operations on buffers are few, so a program that does nothing else with them is checked
operation by operation, like the assignments of a typed program.

- `exec`, `execs`: the operations, and a list of them. `share` is the one after which two places
  have the same buffer.
- `Legit`: what an operation must keep to, so that each place holds what it is for.
- `Sound.execs`: **then every buffer stays in one place, and has there what the place is for**.
  It is an instance of `Ledger`.
- `Confined.execs`: **a buffer of a place that nothing leaves gets nowhere else**, so that others
  may keep references to it.
- `exists_shared`: after a `share` a buffer is in two places.
-/

namespace EasyTun.Lib

/-- The buffers of the places `π`, by their numbers, and what is in them. -/
structure Custody (π β : Type) where
  hold : π → List Nat
  mem : Nat → β
  next : Nat

namespace Custody

variable {π β : Type}

/-- Operations on buffers. -/
inductive Op (π β : Type) where
  /-- The `i`-th buffer of a place is passed to another one. -/
  | move (p q : π) (i : Nat)
  /-- The first buffer of a place is passed on by a holder who has seen `b` in it. -/
  | pass (p q : π) (b : β)
  /-- The first buffer of a place is filled and passed on. -/
  | fill (p q : π) (b : β)
  /-- A buffer is made. -/
  | make (p : π) (b : β)
  /-- The first buffer of a place is filled. -/
  | write (p : π) (b : β)
  /-- It is forgotten. -/
  | drop (p : π)
  /-- It gets to another place too. -/
  | share (p q : π)

/-- No buffer has been made. -/
def empty [Inhabited β] : Custody π β := { hold := fun _ => [], mem := fun _ => default, next := 0 }

/-- What is in the first buffer of a place. -/
def content (s : Custody π β) (p : π) : Option β := (s.hold p).head?.map s.mem

/-! ## What the places are for -/

/-- The ledger of the places, where `role p` is what the place `p` is for. -/
def ledger (role : π → β → Prop) : Ledger (Custody π β) π (π × Nat) Nat where
  items s p := (s.hold p).map (p, ·)
  res it := {it.2}
  Used s id := id < s.next
  Ok s it := role it.1 (s.mem it.2)
  Same s t id := t.mem id = s.mem id
  Later _ _ := True
  frame {s t it} _ hsame hok := by
    rw [hsame it.2 (Multiset.mem_singleton_self _)]
    exact hok

/-- **Every buffer is in one place, and has there what the place is for.** -/
def Sound (role : π → β → Prop) (s : Custody π β) : Prop := (ledger role).Sound s

/-- What an operation must keep to. Buffers do not leave the places that are `fixed`, unless they
are forgotten. -/
def Legit (role : π → β → Prop) (fixed : π → Prop) : Op π β → Prop
  | .move p q _ => ¬fixed p ∧ p ≠ q ∧ ∀ b, role p b → role q b
  | .pass p q b | .fill p q b => ¬fixed p ∧ p ≠ q ∧ role q b
  | .make p b | .write p b => role p b
  | .drop _ => True
  | .share _ _ => False

/-- The buffer was made, and is in no other place than `p`. -/
structure Confined (s : Custody π β) (p : π) (id : Nat) : Prop where
  made : id < s.next
  only : ∀ q, id ∈ s.hold q → q = p

variable {role role' : π → β → Prop} {fixed : π → Prop} {s t : Custody π β} {p q : π} {id : Nat}
  {b : β}

variable (role) in
/-- What the ledger says of a place is what the place holds. -/
theorem holds_eq (s : Custody π β) (p : π) :
    (ledger role).holds s p = (s.hold p : Multiset Nat) := by
  show (ledger role).resOf ((s.hold p).map (p, ·)) = _
  induction s.hold p with
  | nil => rfl
  | cons id ids ih =>
    rw [List.map_cons, Ledger.resOf_cons, ih]
    rfl

variable (role) in
/-- How often a place holds a buffer. -/
theorem count_holds (s : Custody π β) (p : π) (id : Nat) :
    ((ledger role).holds s p).count id = (s.hold p).count id := by
  rw [holds_eq, Multiset.coe_count]

theorem mem_holds : id ∈ (ledger role).holds s p ↔ id ∈ s.hold p := by
  rw [holds_eq, Multiset.mem_coe]

namespace Sound

/-- No place holds a buffer twice. -/
theorem nodup (h : Sound role s) (p : π) : (s.hold p).Nodup := by
  refine List.nodup_iff_count_le_one.mpr fun id => ?_
  rw [← count_holds role]
  exact h.once p id

/-- **A buffer that is in two places is in one.** -/
theorem place_eq (h : Sound role s) (hp : id ∈ s.hold p) (hq : id ∈ s.hold q) : p = q :=
  h.apart (mem_holds.mpr hp) (mem_holds.mpr hq)

/-- Every buffer was made. -/
theorem lt_next (h : Sound role s) (hp : id ∈ s.hold p) : id < s.next := h.used (mem_holds.mpr hp)

/-- A buffer is in no other place than the one that holds it. -/
theorem confined (h : Sound role s) (hp : id ∈ s.hold p) : s.Confined p id :=
  ⟨h.lt_next hp, fun _ hq => h.place_eq hq hp⟩

/-- A buffer has what its place is for. -/
theorem role_of_mem (h : Sound role s) (hp : id ∈ s.hold p) : role p (s.mem id) :=
  h.ok (List.mem_map_of_mem (f := (p, ·)) hp)

theorem role_of_content (h : Sound role s) (hb : s.content p = some b) : role p b := by
  obtain ⟨id, hid, rfl⟩ := Option.map_eq_some_iff.mp hb
  exact h.role_of_mem (List.mem_of_mem_head? hid)

/-- Without buffers there is nothing to check. -/
theorem empty [Inhabited β] : Sound role (Custody.empty : Custody π β) where
  once _ _ := Nat.zero_le _
  apart hp := by cases mem_holds.mp hp
  used hp := by cases mem_holds.mp hp
  ok hit := by cases hit

/-- A place may be for more. -/
theorem mono (h : Sound role s) (himp : ∀ p b, role p b → role' p b) : Sound role' s where
  once p id := h.once p id
  apart hp hq := h.apart hp hq
  used hp := h.used hp
  ok hit := himp _ _ (h.ok hit)

/-- Two places exchange buffers, the first may write to its own, and one may be new. -/
theorem exchanged (h : Sound role s) (new : List Nat) (hne : p ≠ q)
    (hothers : ∀ x, x ≠ p → x ≠ q → t.hold x = s.hold x)
    (hcount : ∀ id, (t.hold p).count id + (t.hold q).count id ≤
      (s.hold p).count id + (s.hold q).count id + new.count id)
    (hnew : new = [] ∧ t.next = s.next ∨ new = [s.next] ∧ t.next = s.next + 1)
    (hsame : ∀ id, id < s.next → id ∉ s.hold p → t.mem id = s.mem id)
    (hp : ∀ id ∈ t.hold p, role p (t.mem id))
    (hq : ∀ id ∈ t.hold q, id ∈ s.hold q ∨ role q (t.mem id)) : Sound role t := by
  suffices hex : (ledger role).Exchange s t p q (new : Multiset Nat) from
    Ledger.Sound.exchange h hex
  refine ⟨hne, ?_, ?_, ?_, ?_, ?_, trivial, ?_, ?_⟩
  · intro x hxp hxq
    show (t.hold x).map (x, ·) = (s.hold x).map (x, ·)
    rw [hothers x hxp hxq]
  · intro id
    simp only [count_holds, Multiset.coe_count]
    exact hcount id
  · intro id
    rw [Multiset.coe_count, Multiset.mem_coe]
    rcases hnew with ⟨rfl, -⟩ | ⟨rfl, hnext⟩
    · exact ⟨Nat.zero_le _, fun hid => by cases hid⟩
    · refine ⟨?_, fun hid => ?_⟩
      · exact List.nodup_iff_count_le_one.mp (List.nodup_singleton _) id
      · obtain rfl := List.mem_singleton.mp hid
        exact ⟨Nat.lt_irrefl _, show s.next < t.next by omega⟩
  · intro id hid
    have hid : id < s.next := hid
    show id < t.next
    omega
  · intro id hid hsp _
    exact hsame id hid fun hmem => hsp (mem_holds.mpr hmem)
  · intro it hit
    obtain ⟨id, hid, rfl⟩ := List.mem_map.mp hit
    exact hp id hid
  · intro it hit
    obtain ⟨id, hid, rfl⟩ := List.mem_map.mp hit
    exact (hq id hid).imp_left fun hold => List.mem_map_of_mem (f := (q, ·)) hold

/-- A buffer may be filled with what its place is for. -/
theorem write [Nontrivial π] (h : Sound role s) (hid : id ∈ s.hold p) (hb : role p b) :
    Sound role { s with mem := Function.update s.mem id b } := by
  obtain ⟨q, hq⟩ := exists_ne p
  refine h.exchanged [] hq.symm (fun _ _ _ => rfl) (fun _ => Nat.le_refl _)
    (.inl ⟨rfl, rfl⟩) (fun r _ hr => ?_) (fun r hr => ?_) fun r hr => .inl hr
  · have hne : r ≠ id := by
      rintro rfl
      exact hr hid
    exact Function.update_of_ne hne ..
  · by_cases heq : r = id
    · subst heq
      show role p (Function.update s.mem r b r)
      rw [Function.update_self]
      exact hb
    · show role p (Function.update s.mem id b r)
      rw [Function.update_of_ne heq]
      exact h.role_of_mem hr

end Sound

/-! ## Operations -/

section Exec

variable [DecidableEq π]

/-- A place holds these buffers from now on. -/
def set (s : Custody π β) (p : π) (ids : List Nat) : Custody π β :=
  { s with hold := Function.update s.hold p ids }

/-- A place gets one more buffer. -/
def push (s : Custody π β) (p : π) (id : Nat) : Custody π β := s.set p (s.hold p ++ [id])

/-- The `i`-th buffer of `p` is passed to `q`. -/
def moved (s : Custody π β) (p q : π) (i : Nat) : Option (Custody π β) :=
  (s.hold p)[i]?.map fun id => (s.set p ((s.hold p).eraseIdx i)).push q id

variable [DecidableEq β]

/-- An operation; `none` when there is no buffer for it, or not the one that was seen. -/
def exec (s : Custody π β) : Op π β → Option (Custody π β)
  | .move p q i => s.moved p q i
  | .pass p q b => if s.content p = some b then s.moved p q 0 else none
  | .fill p q b =>
    (s.hold p).head?.map fun id =>
      { (s.set p (s.hold p).tail).push q id with mem := Function.update s.mem id b }
  | .make p b =>
    some { s.push p s.next with mem := Function.update s.mem s.next b, next := s.next + 1 }
  | .write p b => (s.hold p).head?.map fun id => { s with mem := Function.update s.mem id b }
  | .drop p => guardTo (s.hold p ≠ []) (s.set p (s.hold p).tail)
  | .share p q => (s.hold p).head?.map fun id => s.push q id

/-- A list of operations; `none` when one of them is not possible. -/
def execs (s : Custody π β) : List (Op π β) → Option (Custody π β)
  | [] => some s
  | op :: ops => (s.exec op).bind fun t => t.execs ops

namespace Sound

omit [DecidableEq β] in
/-- A buffer may go to a place that is for what is in it. -/
theorem moved {i : Nat} (h : Sound role s) (hne : p ≠ q)
    (himp : ∀ id, (s.hold p)[i]? = some id → role q (s.mem id)) (hs : s.moved p q i = some t) :
    Sound role t := by
  obtain ⟨id, hid, rfl⟩ := Option.map_eq_some_iff.mp hs
  obtain ⟨hi, hget⟩ := List.getElem?_eq_some_iff.mp hid
  have hp : ((s.set p ((s.hold p).eraseIdx i)).push q id).hold p = (s.hold p).eraseIdx i := by
    simp [push, set, Function.update_of_ne hne]
  have hq : ((s.set p ((s.hold p).eraseIdx i)).push q id).hold q = s.hold q ++ [id] := by
    simp [push, set, Function.update_of_ne hne.symm]
  refine h.exchanged [] hne (fun x hxp hxq => ?_) (fun r => ?_) (.inl ⟨rfl, rfl⟩)
    (fun _ _ _ => rfl) (fun r hr => ?_) fun r hr => ?_
  · simp [push, set, Function.update_of_ne hxp, Function.update_of_ne hxq]
  · have hperm := (List.getElem_cons_eraseIdx_perm hi).count_eq r
    rw [hget, List.count_cons] at hperm
    rw [hp, hq, List.count_append, List.count_singleton, List.count_nil]
    omega
  · rw [hp] at hr
    exact h.role_of_mem (List.mem_of_mem_eraseIdx hr)
  · rw [hq] at hr
    rcases List.mem_append.mp hr with hr | hr
    · exact .inl hr
    · obtain rfl := List.mem_singleton.mp hr
      exact .inr (himp _ hid)

omit [DecidableEq β] in
/-- A buffer may be filled for the place that it goes to. -/
theorem fill (h : Sound role s) (hne : p ≠ q) (hb : role q b)
    (hid : (s.hold p).head? = some id) :
    Sound role { (s.set p (s.hold p).tail).push q id with
      mem := Function.update s.mem id b } := by
  obtain ⟨rest, hhold⟩ : ∃ rest, s.hold p = id :: rest := ⟨_, List.eq_cons_of_mem_head? hid⟩
  have hp : ((s.set p (s.hold p).tail).push q id).hold p = rest := by
    simp [push, set, Function.update_of_ne hne, hhold]
  have hq : ((s.set p (s.hold p).tail).push q id).hold q = s.hold q ++ [id] := by
    simp [push, set, Function.update_of_ne hne.symm]
  have hnot : id ∉ rest := by
    have hnodup := h.nodup p
    rw [hhold] at hnodup
    exact (List.nodup_cons.mp hnodup).1
  refine h.exchanged [] hne (fun x hxp hxq => ?_) (fun r => ?_) (.inl ⟨rfl, rfl⟩)
    (fun r _ hr => ?_) (fun r hr => ?_) fun r hr => ?_
  · simp [push, set, Function.update_of_ne hxp, Function.update_of_ne hxq]
  · show (((s.set p (s.hold p).tail).push q id).hold p).count r +
      (((s.set p (s.hold p).tail).push q id).hold q).count r ≤ _
    rw [hp, hq, hhold, List.count_append]
    simp only [List.count_cons, List.count_nil]
    omega
  · have hne : r ≠ id := by
      rintro rfl
      rw [hhold] at hr
      exact hr List.mem_cons_self
    exact Function.update_of_ne hne ..
  · have hr : r ∈ rest := hp ▸ hr
    have hne : r ≠ id := fun heq => hnot (heq ▸ hr)
    show role p (Function.update s.mem id b r)
    rw [Function.update_of_ne hne]
    refine h.role_of_mem ?_
    rw [hhold]
    exact List.mem_cons_of_mem _ hr
  · rcases List.mem_append.mp (hq ▸ hr) with hr | hr
    · exact .inl hr
    · obtain rfl := List.mem_singleton.mp hr
      right
      show role q (Function.update s.mem r b r)
      rw [Function.update_self]
      exact hb

variable [Nontrivial π]

omit [DecidableEq β] in
/-- A buffer may be made with what its place is for. -/
theorem make (h : Sound role s) (hb : role p b) :
    Sound role { s.push p s.next with
      mem := Function.update s.mem s.next b, next := s.next + 1 } := by
  obtain ⟨q, hq⟩ := exists_ne p
  have hnot : ∀ {x id}, id ∈ s.hold x → id ≠ s.next := fun hid => (h.lt_next hid).ne
  have hp : (s.push p s.next).hold p = s.hold p ++ [s.next] := Function.update_self ..
  have hothers : ∀ x, x ≠ p → (s.push p s.next).hold x = s.hold x :=
    fun x hx => Function.update_of_ne hx ..
  refine h.exchanged [s.next] hq.symm (fun x hxp _ => hothers x hxp) (fun r => ?_)
    (.inr ⟨rfl, rfl⟩) (fun r hr _ => Function.update_of_ne (Nat.ne_of_lt hr) ..) (fun r hr => ?_)
    fun r hr => ?_
  · show ((s.push p s.next).hold p).count r + ((s.push p s.next).hold q).count r ≤ _
    rw [hp, hothers q hq, List.count_append]
    omega
  · rcases List.mem_append.mp (hp ▸ hr) with hr | hr
    · show role p (Function.update s.mem s.next b r)
      rw [Function.update_of_ne (hnot hr)]
      exact h.role_of_mem hr
    · obtain rfl := List.mem_singleton.mp hr
      show role p (Function.update s.mem s.next b s.next)
      rw [Function.update_self]
      exact hb
  · exact .inl (hothers q hq ▸ hr)

omit [DecidableEq β] in
/-- A buffer may be forgotten. -/
theorem drop (h : Sound role s) (p : π) : Sound role (s.set p (s.hold p).tail) := by
  obtain ⟨q, hq⟩ := exists_ne p
  have hp : (s.set p (s.hold p).tail).hold p = (s.hold p).tail := Function.update_self ..
  have hothers : ∀ x, x ≠ p → (s.set p (s.hold p).tail).hold x = s.hold x :=
    fun x hx => Function.update_of_ne hx ..
  refine h.exchanged [] hq.symm (fun x hxp _ => hothers x hxp) (fun r => ?_)
    (.inl ⟨rfl, rfl⟩) (fun _ _ _ => rfl) (fun r hr => ?_) fun r hr => .inl (hothers q hq ▸ hr)
  · have hle := (List.tail_sublist (s.hold p)).count_le r
    rw [hp, hothers q hq]
    omega
  · rw [hp] at hr
    exact h.role_of_mem (List.mem_of_mem_tail hr)

/-- **An operation that keeps to the rules.** -/
theorem exec {op : Op π β} (h : Sound role s) (hop : Legit role fixed op)
    (hs : s.exec op = some t) : Sound role t := by
  cases op with
  | move p q i =>
    obtain ⟨-, hne, himp⟩ := hop
    exact h.moved hne (fun id hid => himp _ (h.role_of_mem (List.mem_of_getElem? hid))) hs
  | pass p q b =>
    obtain ⟨hb, hmoved⟩ : s.content p = some b ∧ s.moved p q 0 = some t := by
      simp only [Custody.exec] at hs
      split at hs
      · next hb => exact ⟨hb, hs⟩
      · cases hs
    obtain ⟨id, hid, rfl⟩ := Option.map_eq_some_iff.mp hb
    obtain ⟨-, hne, hrole⟩ := hop
    refine h.moved hne (fun id' hid' => ?_) hmoved
    rw [List.head?_eq_getElem?, hid'] at hid
    rw [Option.some.inj hid]
    exact hrole
  | fill p q b =>
    obtain ⟨id, hid, rfl⟩ := Option.map_eq_some_iff.mp hs
    exact h.fill hop.2.1 hop.2.2 hid
  | make p b =>
    cases hs
    exact h.make hop
  | write p b =>
    obtain ⟨id, hid, rfl⟩ := Option.map_eq_some_iff.mp hs
    exact h.write (List.mem_of_mem_head? hid) hop
  | drop p =>
    obtain ⟨-, rfl⟩ := guardTo_eq_some.mp hs
    exact h.drop p
  | share p q => exact hop.elim

/-- **A list of them**, one after the other. -/
theorem execs {ops : List (Op π β)} (h : Sound role s) (hops : ∀ op ∈ ops, Legit role fixed op)
    (hs : s.execs ops = some t) : Sound role t := by
  induction ops generalizing s with
  | nil =>
    cases hs
    exact h
  | cons op ops ih =>
    obtain ⟨u, hu, hrest⟩ := Option.bind_eq_some_iff.mp hs
    obtain ⟨hop, hops⟩ := List.forall_mem_cons.mp hops
    exact ih (h.exec hop hu) hops hrest

end Sound

/-! ## Places that nothing leaves -/

omit [DecidableEq β] in
/-- Who holds less holds nothing new. -/
theorem mem_set {ids : List Nat} (hsub : ids ⊆ s.hold p) (hq : id ∈ (s.set p ids).hold q) :
    id ∈ s.hold q := by
  have hq : id ∈ Function.update s.hold p ids q := hq
  by_cases heq : q = p
  · subst heq
    rw [Function.update_self] at hq
    exact hsub hq
  · rwa [Function.update_of_ne heq] at hq

omit [DecidableEq β] in
/-- A place that gets a buffer holds nothing else that is new. -/
theorem mem_push {id' : Nat} (hq : id' ∈ (s.push p id).hold q) : id' ∈ s.hold q ∨ id' = id := by
  have hq : id' ∈ Function.update s.hold p (s.hold p ++ [id]) q := hq
  by_cases heq : q = p
  · subst heq
    rw [Function.update_self] at hq
    exact (List.mem_append.mp hq).imp_right List.mem_singleton.mp
  · rw [Function.update_of_ne heq] at hq
    exact .inl hq

omit [DecidableEq β] in
/-- Where a buffer comes from that is in a place after it was passed on. -/
theorem held_of_moved {i : Nat} (hp : ¬fixed p) (hs : s.moved p q i = some t) :
    s.next ≤ t.next ∧ ∀ x id, id ∈ t.hold x →
      id ∈ s.hold x ∨ id = s.next ∨ ∃ y, ¬fixed y ∧ id ∈ s.hold y := by
  obtain ⟨id, hid, rfl⟩ := Option.map_eq_some_iff.mp hs
  refine ⟨Nat.le_refl _, fun x id' hx => ?_⟩
  rcases mem_push hx with hx | rfl
  · exact .inl (mem_set (List.eraseIdx_subset ..) hx)
  · exact .inr (.inr ⟨p, hp, List.mem_of_getElem? hid⟩)

/-- Where a buffer comes from that is in a place after an operation. -/
theorem held_of_exec {op : Op π β} (hop : Legit role fixed op) (hs : s.exec op = some t) :
    s.next ≤ t.next ∧ ∀ x id, id ∈ t.hold x →
      id ∈ s.hold x ∨ id = s.next ∨ ∃ y, ¬fixed y ∧ id ∈ s.hold y := by
  cases op with
  | move p q i => exact held_of_moved hop.1 hs
  | pass p q b =>
    simp only [exec] at hs
    split at hs
    · exact held_of_moved hop.1 hs
    · cases hs
  | fill p q b =>
    obtain ⟨id, hid, rfl⟩ := Option.map_eq_some_iff.mp hs
    refine ⟨Nat.le_refl _, fun x id' hx => ?_⟩
    rcases mem_push (s := s.set p (s.hold p).tail) hx with hx | rfl
    · exact .inl (mem_set (List.tail_sublist _).subset hx)
    · exact .inr (.inr ⟨p, hop.1, List.mem_of_mem_head? hid⟩)
  | make p b =>
    cases hs
    exact ⟨Nat.le_succ _, fun x id hx => (mem_push hx).imp_right .inl⟩
  | write p b =>
    obtain ⟨id, -, rfl⟩ := Option.map_eq_some_iff.mp hs
    exact ⟨Nat.le_refl _, fun x id hx => .inl hx⟩
  | drop p =>
    obtain ⟨-, rfl⟩ := guardTo_eq_some.mp hs
    exact ⟨Nat.le_refl _, fun x id hx => .inl (mem_set (List.tail_sublist _).subset hx)⟩
  | share p q => exact hop.elim

/-- An operation lets nothing out of a fixed place. -/
theorem Confined.exec {op : Op π β} (h : s.Confined p id) (hp : fixed p)
    (hop : Legit role fixed op) (hs : s.exec op = some t) : t.Confined p id := by
  obtain ⟨hnext, hheld⟩ := held_of_exec hop hs
  refine ⟨Nat.lt_of_lt_of_le h.made hnext, fun x hx => ?_⟩
  rcases hheld x id hx with hold | rfl | ⟨y, hy, hold⟩
  · exact h.only x hold
  · exact absurd h.made (Nat.lt_irrefl _)
  · rw [h.only y hold] at hy
    exact absurd hp hy

/-- **A buffer of a fixed place gets nowhere else.** -/
theorem Confined.execs {ops : List (Op π β)} (h : s.Confined p id) (hp : fixed p)
    (hops : ∀ op ∈ ops, Legit role fixed op) (hs : s.execs ops = some t) : t.Confined p id := by
  induction ops generalizing s with
  | nil =>
    cases hs
    exact h
  | cons op ops ih =>
    obtain ⟨u, hu, hrest⟩ := Option.bind_eq_some_iff.mp hs
    obtain ⟨hop, hops⟩ := List.forall_mem_cons.mp hops
    exact ih (h.exec hp hop hu) hops hrest

/-! ## Sharing -/

/-- A list of operations in two parts. -/
theorem execs_append {ops ops' : List (Op π β)} (hs : s.execs (ops ++ ops') = some t) :
    ∃ u, s.execs ops = some u ∧ u.execs ops' = some t := by
  induction ops generalizing s with
  | nil => exact ⟨s, rfl, hs⟩
  | cons op ops ih =>
    obtain ⟨u, hu, hrest⟩ := Option.bind_eq_some_iff.mp hs
    obtain ⟨v, hv, hlast⟩ := ih hrest
    exact ⟨v, Option.bind_eq_some_iff.mpr ⟨u, hu, hv⟩, hlast⟩

/-- **Who shares breaks the rule**: afterwards a buffer is in two places. -/
theorem exists_shared {ops : List (Op π β)} (hne : p ≠ q)
    (hs : s.execs (ops ++ [.share p q]) = some t) : ∃ id, id ∈ t.hold p ∧ id ∈ t.hold q := by
  obtain ⟨u, -, hlast⟩ := execs_append hs
  obtain ⟨v, hv, hrest⟩ := Option.bind_eq_some_iff.mp hlast
  obtain rfl : v = t := Option.some.inj hrest
  obtain ⟨id, hid, rfl⟩ := Option.map_eq_some_iff.mp hv
  refine ⟨id, ?_, ?_⟩
  · have hhold : (u.push q id).hold p = u.hold p := Function.update_of_ne hne ..
    rw [hhold]
    exact List.mem_of_mem_head? hid
  · have hhold : (u.push q id).hold q = u.hold q ++ [id] := Function.update_self ..
    rw [hhold]
    exact List.mem_append_right _ (List.mem_singleton_self _)

end Exec

end Custody

end EasyTun.Lib
