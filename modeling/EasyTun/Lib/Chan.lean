import Mathlib.Tactic.Common

/-!
# Buffered channels

A channel holds at most as many values as its capacity, which is part of its type. Sending
to a full channel and receiving from an empty one are not possible, which is `none`: who
does it waits. `trySend` is a send that does not wait and drops the value instead.
-/

namespace EasyTun.Lib

/-- A buffered channel: the values in it, the oldest first. -/
structure Chan (α : Type) (cap : Nat) where
  items : List α
  bounded : items.length ≤ cap

namespace Chan

variable {α : Type} {cap : Nat} {c c' : Chan α cap} {a : α}

/-- A new channel. -/
def empty : Chan α cap := ⟨[], Nat.zero_le _⟩

/-- How many values are in it. -/
def len (c : Chan α cap) : Nat := c.items.length

/-- `ch <- a`. -/
def send (c : Chan α cap) (a : α) : Option (Chan α cap) :=
  if h : c.items.length < cap then
    some ⟨c.items ++ [a], by rw [List.length_append]; exact h⟩
  else none

/-- `<-ch`: the oldest value. -/
def recv : Chan α cap → Option (α × Chan α cap)
  | ⟨[], _⟩ => none
  | ⟨a :: rest, h⟩ => some (a, ⟨rest, Nat.le_of_succ_le h⟩)

/-- A send in a `select` with an empty default: a full channel drops the value. -/
def trySend (c : Chan α cap) (a : α) : Chan α cap := (c.send a).getD c

theorem len_le (c : Chan α cap) : c.len ≤ cap := c.bounded

/-- A send that succeeds adds one value. -/
theorem len_send (h : c.send a = some c') : c'.len = c.len + 1 := by
  unfold send at h
  split at h
  · obtain rfl := Option.some.inj h
    exact List.length_append
  · cases h

/-- **A send waits exactly when the channel is full.** -/
theorem send_eq_none : c.send a = none ↔ c.len = cap := by
  have hle := c.bounded
  unfold send len
  split
  · simp only [reduceCtorEq, false_iff]
    omega
  · simp only [true_iff]
    omega

/-- A receive that succeeds removes one value. -/
theorem len_recv (h : c.recv = some (a, c')) : c.len = c'.len + 1 := by
  obtain ⟨items, hle⟩ := c
  cases items with
  | nil => cases h
  | cons b rest =>
    cases h
    rfl

/-- **A receive waits exactly when the channel is empty.** -/
theorem recv_eq_none : c.recv = none ↔ c.len = 0 := by
  obtain ⟨items, hle⟩ := c
  cases items with
  | nil => simp [recv, len]
  | cons b rest => simp [recv, len]

/-- Values come out in the order in which they went in. -/
theorem recv_eq_some {b : α} : c.recv = some (b, c') ↔ c.items = b :: c'.items := by
  obtain ⟨items, hle⟩ := c
  obtain ⟨items', hle'⟩ := c'
  cases items with
  | nil => simp [recv]
  | cons d rest => simp [recv]

/-- What a send that does not wait leaves in the channel. -/
theorem items_trySend (c : Chan α cap) (a : α) :
    (c.trySend a).items = if c.len < cap then c.items ++ [a] else c.items := by
  unfold trySend send len
  split
  · rfl
  · rfl

theorem len_le_trySend (c : Chan α cap) (a : α) : c.len ≤ (c.trySend a).len := by
  unfold trySend
  cases h : c.send a with
  | none => exact Nat.le_refl _
  | some c' => exact Nat.le_trans (Nat.le_succ _) (Nat.le_of_eq (len_send h).symm)

theorem len_trySend_le (c : Chan α cap) (a : α) : (c.trySend a).len ≤ c.len + 1 := by
  unfold trySend
  cases h : c.send a with
  | none => exact Nat.le_succ _
  | some c' => exact Nat.le_of_eq (len_send h)

end Chan

end EasyTun.Lib
