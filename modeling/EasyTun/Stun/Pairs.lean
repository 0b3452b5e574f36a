import EasyTun.Lib.PairMap
import EasyTun.Stun.Tunnels

/-!
# Tunnels as a map on unordered pairs (`internal/stun/server.go`)

A tunnel belongs to two clients, and neither comes first. The manager gets there by a key
in which the smaller address stands first, while its records keep the addresses in the
order in which they were added, and `RemoveA` goes by the records. Here is the table it is
meant to be, `PairTable`: a finite map on unordered pairs, without keys and without a
heap. A record in it has an identity, since the manager hands out pointers.

- `makeKey_eq_iff`: **the keys are the unordered pairs.**
- `Refines.perform`: each operation of the manager is the operation on the table; what ties
  them is that every record is stored under the key of its own addresses.
- `run_refines`: so is every sequence of operations.
-/

namespace EasyTun.Stun

open EasyTun.Lib EasyTun.Util

/-! ## Keys -/

/-- The two orders of a pair have one key. -/
theorem makeKey_comm (a b : ByteArr 4) : makeKey a b = makeKey b a := by
  unfold makeKey
  split
  · next hab =>
    rw [if_neg (List.lt_asymm hab)]
  · next hab =>
    split
    · rfl
    · next hba =>
      -- neither is smaller
      have heq : a.1 = b.1 := List.le_antisymm (List.not_lt.mp hba) (List.not_lt.mp hab)
      rw [Subtype.ext heq]

/-- A key shows its two addresses. -/
theorem makeKey_cases (a b : ByteArr 4) :
    (makeKey a b).1 = a.1 ++ b.1 ∨ (makeKey a b).1 = b.1 ++ a.1 := by
  unfold makeKey
  split
  · exact Or.inl rfl
  · exact Or.inr rfl

theorem eq_of_append {a b c d : ByteArr 4} (h : a.1 ++ b.1 = c.1 ++ d.1) : a = c ∧ b = d := by
  obtain ⟨hac, hbd⟩ := List.append_inj h (a.2.trans c.2.symm)
  exact ⟨Subtype.ext hac, Subtype.ext hbd⟩

/-- **Keys are unordered pairs**: two pairs have the same key exactly if they are equal up
to order. -/
theorem makeKey_eq_iff {a b c d : ByteArr 4} : makeKey a b = makeKey c d ↔ s(a, b) = s(c, d) := by
  rw [Sym2.eq_iff]
  constructor
  · intro h
    have hkey := congrArg Subtype.val h
    rcases makeKey_cases a b with hab | hab <;> rcases makeKey_cases c d with hcd | hcd <;>
      rw [hab, hcd] at hkey
    · exact Or.inl (eq_of_append hkey)
    · exact Or.inr (eq_of_append hkey)
    · exact Or.inr (eq_of_append hkey).symm
    · exact Or.inl (eq_of_append hkey).symm
  · rintro (⟨rfl, rfl⟩ | ⟨rfl, rfl⟩)
    · rfl
    · exact makeKey_comm a b

/-! ## Operations -/

/-- The calls that change a manager. `ChangeStatus` and `AddRetryTimes` go through a
pointer, whose record may have been removed meanwhile. -/
inductive Op where
  | addTunnel (a b : ByteArr 4) (status : TunnelStatus)
  | removeTunnel (a b : ByteArr 4)
  | removeA (a : ByteArr 4)
  | changeStatus (t : TunnelId) (status : TunnelStatus)
  | addRetryTimes (t : TunnelId)

/-- A record with its identity. -/
structure Record where
  id : TunnelId
  tunnel : P2PTunnel

namespace Record

/-- A change of the record with the identity `t`. -/
def change (t : TunnelId) (f : P2PTunnel → P2PTunnel) (r : Record) : Record :=
  if r.id = t then { r with tunnel := f r.tunnel } else r

end Record

/-- What the manager is for: at most one record for each unordered pair. -/
structure PairTable where
  records : PairMap (ByteArr 4) Record
  next : TunnelId

namespace PairTable

/-- There are no tunnels. -/
def empty : PairTable := { records := .empty, next := 0 }

/-- A change through the pointer `t` reaches the record it leads to, if the table still has
it. -/
def change (m : PairTable) (t : TunnelId) (f : P2PTunnel → P2PTunnel) : PairTable :=
  { m with records := m.records.mapValues (Record.change t f) }

/-- What each operation is meant to do. -/
def perform (m : PairTable) : Op → PairTable
  | .addTunnel a b status =>
    if m.records.find s(a, b) = none then
      { records := m.records.insert s(a, b) ⟨m.next, { a, b, status, retryTimes := 0 }⟩
        next := m.next + 1 }
    else m
  | .removeTunnel a b => { m with records := m.records.erase s(a, b) }
  | .removeA a => { m with records := m.records.eraseAll a }
  | .changeStatus t status => m.change t fun r => { r with status }
  | .addRetryTimes t => m.change t fun r => { r with retryTimes := r.retryTimes + 1 }

/-- The table after a sequence of operations. -/
def run (ops : List Op) : PairTable := ops.foldl perform .empty

end PairTable

namespace TunnelManager

/-- An operation of the manager. -/
def perform (tm : TunnelManager) : Op → TunnelManager
  | .addTunnel a b status => tm.addTunnel a b status
  | .removeTunnel a b => tm.removeTunnel a b
  | .removeA a => tm.removeA a
  | .changeStatus t status => tm.changeStatus t status
  | .addRetryTimes t => tm.addRetryTimes t

/-- The manager after a sequence of operations. -/
def run (ops : List Op) : TunnelManager := ops.foldl perform .new

/-- What a caller of `Exist` sees: the pointer, and the record it leads to. -/
def record (tm : TunnelManager) (a b : ByteArr 4) : Option Record :=
  (tm.exist a b).map fun t => ⟨t, tm.heap t⟩

variable {tm : TunnelManager} {a b c d : ByteArr 4} {t : TunnelId}

theorem exist_comm (tm : TunnelManager) (a b : ByteArr 4) : tm.exist a b = tm.exist b a := by
  rw [exist, exist, makeKey_comm]

/-- A record is found under its own pair. -/
theorem Sound.ends (h : tm.Sound) (ht : tm.exist a b = some t) :
    s((tm.heap t).a, (tm.heap t).b) = s(a, b) :=
  makeKey_eq_iff.mp (h.entry ht).2

theorem Sound.removeTunnel (h : tm.Sound) (a b : ByteArr 4) : (tm.removeTunnel a b).Sound := by
  refine h.of_table rfl (fun _ => rfl) ?_
  intro key t ht
  have hne : key ≠ makeKey a b := by
    rintro rfl
    cases (AList.lookup_erase ..).symm.trans ht
  exact (AList.lookup_erase_ne hne).symm.trans ht

theorem Sound.perform (h : tm.Sound) (op : Op) : (tm.perform op).Sound := by
  cases op with
  | addTunnel a b status => exact h.addTunnel a b status
  | removeTunnel a b => exact h.removeTunnel a b
  | removeA a => exact h.removeA a
  | changeStatus t status => exact h.changeStatus t status
  | addRetryTimes t => exact h.addRetryTimes t

/-! ## What `Exist` finds after an operation -/

/-- The pair that is added gets the new record, the others keep theirs. -/
theorem record_create (h : tm.Sound) (a b c d : ByteArr 4) (status : TunnelStatus) :
    (tm.create a b status).record c d =
      if s(c, d) = s(a, b) then some ⟨tm.next, { a, b, status, retryTimes := 0 }⟩
      else tm.record c d := by
  split
  · next heq =>
    have hex : (tm.create a b status).exist c d = some tm.next := by
      rw [exist, makeKey_eq_iff.mpr heq]
      exact exist_create tm a b status
    rw [record, hex, Option.map_some, heap_create]
  · next hne =>
    have hex : (tm.create a b status).exist c d = tm.exist c d :=
      AList.lookup_insert_ne fun heq => hne (makeKey_eq_iff.mp heq)
    rw [record, record, hex]
    refine Option.map_congr ?_
    intro t ht
    rw [heap_create_of_ne _ _ _ _ (Nat.ne_of_lt (h.entry ht).1)]

theorem record_removeTunnel (tm : TunnelManager) (a b c d : ByteArr 4) :
    (tm.removeTunnel a b).record c d =
      if s(c, d) = s(a, b) then none else tm.record c d := by
  split
  · next heq =>
    have hex : (tm.removeTunnel a b).exist c d = none := by
      rw [exist, makeKey_eq_iff.mpr heq]
      exact AList.lookup_erase ..
    rw [record, hex, Option.map_none]
  · next hne =>
    have hex : (tm.removeTunnel a b).exist c d = tm.exist c d :=
      AList.lookup_erase_ne fun heq => hne (makeKey_eq_iff.mp heq)
    rw [record, hex]
    rfl

/-- `RemoveA` goes by the addresses in the records, which are those of the pair. -/
theorem record_removeA (h : tm.Sound) (a c d : ByteArr 4) :
    (tm.removeA a).record c d = if a ∈ s(c, d) then none else tm.record c d := by
  have hlookup : (tm.removeA a).exist c d = (tm.exist c d).filter
      fun t => !((tm.heap t).a == a || (tm.heap t).b == a) := Map.lookup_keepIf ..
  cases hex : tm.exist c d with
  | none =>
    rw [hex, Option.filter_none] at hlookup
    rw [record, hlookup, record, hex, Option.map_none, Option.map_none, ite_self]
  | some t =>
    have hmem : ((tm.heap t).a == a || (tm.heap t).b == a) = true ↔ a ∈ s(c, d) := by
      rw [← h.ends hex, Sym2.mem_iff, Bool.or_eq_true, beq_iff_eq, beq_iff_eq, eq_comm,
        @eq_comm _ a (tm.heap t).b]
    rw [hex] at hlookup
    by_cases ha : a ∈ s(c, d)
    · rw [Option.filter_some_neg (by rw [hmem.mpr ha]; decide)] at hlookup
      rw [if_pos ha, record, hlookup, Option.map_none]
    · rw [← hmem, Bool.not_eq_true] at ha
      rw [Option.filter_some_pos (by rw [ha]; rfl)] at hlookup
      rw [if_neg (by rw [← hmem, ha]; decide), record, hlookup, record, hex]
      rfl

/-- A change through a pointer shows in the record with that identity. -/
theorem record_update (f : P2PTunnel → P2PTunnel) (t : TunnelId) (c d : ByteArr 4) :
    { tm with heap := Function.update tm.heap t (f (tm.heap t)) }.record c d =
      (tm.record c d).map (Record.change t f) := by
  show (tm.exist c d).map _ = ((tm.exist c d).map _).map _
  rw [Option.map_map]
  refine Option.map_congr ?_
  intro i _
  show Record.mk i (Function.update tm.heap t (f (tm.heap t)) i) = Record.change t f ⟨i, tm.heap i⟩
  unfold Record.change
  by_cases hi : i = t
  · subst hi
    rw [Function.update_self, if_pos rfl]
  · rw [Function.update_of_ne hi, if_neg hi]

/-! ## Refinement -/

/-- The manager stands for the table: `Exist` finds what the table has for the pair. -/
structure Refines (tm : TunnelManager) (m : PairTable) : Prop where
  sound : tm.Sound
  next : tm.next = m.next
  record : ∀ a b, tm.record a b = m.records.find s(a, b)

theorem Refines.new : Refines .new .empty where
  sound := .new
  next := rfl
  record _ _ := rfl

variable {m : PairTable}

theorem Refines.addTunnel (h : Refines tm m) (a b : ByteArr 4) (status : TunnelStatus) :
    Refines (tm.addTunnel a b status) (m.perform (.addTunnel a b status)) := by
  have hfind := h.record a b
  cases hex : tm.exist a b with
  | some t =>
    -- the pair keeps its record
    rw [TunnelManager.record, hex, Option.map_some] at hfind
    rw [addTunnel_of_some hex, PairTable.perform, if_neg (by rw [← hfind]; nofun)]
    exact h
  | none =>
    rw [TunnelManager.record, hex, Option.map_none] at hfind
    have hsound := h.sound.addTunnel a b status
    rw [addTunnel_of_none hex] at hsound ⊢
    rw [PairTable.perform, if_pos hfind.symm]
    refine ⟨hsound, congrArg (· + 1) h.next, ?_⟩
    intro c d
    rw [record_create h.sound, PairMap.find_insert, h.next, h.record]

/-- A change through a pointer. -/
theorem Refines.record_change (h : Refines tm m) (t : TunnelId) (f : P2PTunnel → P2PTunnel)
    (c d : ByteArr 4) :
    { tm with heap := Function.update tm.heap t (f (tm.heap t)) }.record c d =
      (m.change t f).records.find s(c, d) := by
  rw [record_update, h.record, PairTable.change, PairMap.find_mapValues]

/-- **Each operation of the manager is the operation on the table.** -/
theorem Refines.perform (h : Refines tm m) (op : Op) : Refines (tm.perform op) (m.perform op) := by
  have hsound := h.sound.perform op
  cases op with
  | addTunnel a b status => exact h.addTunnel a b status
  | removeTunnel a b =>
    refine ⟨hsound, h.next, ?_⟩
    intro c d
    show (tm.removeTunnel a b).record c d = (m.records.erase s(a, b)).find s(c, d)
    rw [record_removeTunnel, PairMap.find_erase, h.record]
  | removeA a =>
    refine ⟨hsound, h.next, ?_⟩
    intro c d
    show (tm.removeA a).record c d = (m.records.eraseAll a).find s(c, d)
    rw [record_removeA h.sound, PairMap.find_eraseAll, h.record]
  | changeStatus t status =>
    exact ⟨hsound, h.next, h.record_change t fun r => { r with status }⟩
  | addRetryTimes t =>
    exact ⟨hsound, h.next, h.record_change t fun r => { r with retryTimes := r.retryTimes + 1 }⟩

theorem run_refines (ops : List Op) : Refines (run ops) (PairTable.run ops) := by
  have hfrom : ∀ (tm : TunnelManager) (m : PairTable), Refines tm m →
      Refines (ops.foldl TunnelManager.perform tm) (ops.foldl PairTable.perform m) := by
    induction ops with
    | nil =>
      intro tm m h
      exact h
    | cons op ops ih =>
      intro tm m h
      exact ih _ _ (h.perform op)
  exact hfrom _ _ .new

/-- **The manager is a map on unordered pairs.** After every sequence of operations,
`Exist` finds for a pair, in either order, what the table has for it. No two pairs have
one record, and every record is stored under the key of its own addresses. -/
theorem exist_eq_find (ops : List Op) :
    (∀ a b, (run ops).exist a b = (run ops).exist b a ∧
      (run ops).record a b = (PairTable.run ops).records.find s(a, b)) ∧
    (∀ a b c d t, (run ops).exist a b = some t → (run ops).exist c d = some t →
      s(a, b) = s(c, d)) ∧
    ∀ key t, (run ops).tunnels.lookup key = some t →
      key = makeKey ((run ops).heap t).a ((run ops).heap t).b := by
  have h := run_refines ops
  refine ⟨?_, ?_, ?_⟩
  · intro a b
    exact ⟨exist_comm _ a b, h.record a b⟩
  · intro a b c d t hab hcd
    exact (h.sound.ends hab).symm.trans (h.sound.ends hcd)
  · intro key t ht
    exact (h.sound.entry ht).2.symm

end TunnelManager

end EasyTun.Stun
