import EasyTun.Lib.Bytes

/-!
# Slices with a capacity, and buffer pools

`Slice` is a Go `[]byte` seen together with its backing array: `arr` holds the
bytes from the slice's first element to the end of its capacity, `len` says how
many of them the slice shows. Re-slicing past `len` uncovers whatever the array
held before, which is what recycled buffers do.

`Pool` is a `sync.Pool` of slices. Go promises nothing about which buffer `Get`
returns, so a pool is a **supply**: the slice the `n`-th `Get` will return is
arbitrary. A result proved for every supply holds for every pool contents and
every scheduling of other users of the pool.
-/

namespace EasyTun.Lib

/-- A `[]byte` with its backing array. -/
structure Slice where
  arr : Bytes
  len : Nat
  len_le : len ≤ arr.length

namespace Slice

/-- `cap(s)`. -/
def cap (s : Slice) : Nat := s.arr.length

/-- The bytes the slice shows. -/
def bytes (s : Slice) : Bytes := s.arr.take s.len

/-- `make([]byte, n)`. -/
def make (n : Nat) : Slice := ⟨List.replicate n 0, n, Nat.le_of_eq List.length_replicate.symm⟩

/-- `s[:n]`. Go panics past the capacity; every use is behind a check of it. -/
def upTo (s : Slice) (n : Nat) : Slice :=
  ⟨s.arr, min n s.arr.length, Nat.min_le_right ..⟩

/-- `copy(s[off:], bs)`. -/
def copyAt (s : Slice) (off : Nat) (bs : Bytes) : Slice :=
  if h : off ≤ s.arr.length then
    ⟨overwrite s.arr off (bs.take (s.len - off)), s.len, by
      rw [length_overwrite]; exact s.len_le⟩
  else s

@[simp] theorem length_bytes (s : Slice) : s.bytes.length = s.len := by
  rw [bytes, List.length_take, Nat.min_eq_left s.len_le]

@[simp] theorem make_len (n : Nat) : (make n).len = n := rfl

@[simp] theorem make_cap (n : Nat) : (make n).cap = n := List.length_replicate

theorem upTo_len {s : Slice} {n : Nat} (h : n ≤ s.cap) : (s.upTo n).len = n :=
  Nat.min_eq_left h

@[simp] theorem copyAt_len (s : Slice) (off : Nat) (bs : Bytes) :
    (s.copyAt off bs).len = s.len := by
  unfold copyAt
  split <;> rfl

/-- A copy that fits replaces the shown bytes from the offset on and keeps the
rest: the general fact every buffer update below is an instance of. -/
theorem bytes_copyAt {s : Slice} {off : Nat} {bs : Bytes}
    (h : off + bs.length ≤ s.len) :
    (s.copyAt off bs).bytes
      = s.bytes.take off ++ (bs ++ s.bytes.drop (off + bs.length)) := by
  have hlen := s.len_le
  have hoff : off ≤ s.arr.length := by omega
  have hsplit : s.arr = s.arr.take off ++ s.arr.drop off :=
    (List.take_append_drop off s.arr).symm
  have htl : (s.arr.take off).length = off := by
    rw [List.length_take]; omega
  unfold copyAt
  rw [dif_pos hoff]
  show (overwrite s.arr off (bs.take (s.len - off))).take s.len = _
  rw [List.take_of_length_le (by omega : bs.length ≤ s.len - off)]
  have hover : overwrite s.arr off bs
      = s.arr.take off ++ (bs ++ s.arr.drop (off + bs.length)) := by
    conv => lhs; rw [hsplit]
    have hcut := overwrite_append (s.arr.take off) bs (s.arr.drop off)
      (by rw [List.length_drop]; omega)
    rw [htl] at hcut
    rw [hcut, List.drop_drop]
  rw [hover]
  unfold bytes
  rw [List.take_append, htl, List.take_take, List.take_append, List.take_take]
  rw [List.take_of_length_le (by omega : bs.length ≤ s.len - off)]
  rw [List.drop_take]
  have h1 : min s.len off = off := by omega
  have h2 : min off s.len = off := by omega
  have h3 : s.len - off - bs.length = s.len - (off + bs.length) := by omega
  rw [h1, h2, h3]

/-- A copy over everything that is shown. -/
theorem bytes_copyAt_whole {s : Slice} {bs : Bytes} (h : s.len = bs.length) :
    (s.copyAt 0 bs).bytes = bs := by
  rw [bytes_copyAt (by omega), List.take_zero, List.nil_append, Nat.zero_add,
    List.drop_of_length_le (Nat.le_of_eq ((length_bytes _).trans h)), List.append_nil]

/-- Filling a re-sliced buffer: `s = s[:len(bs)]; copy(s, bs)`. -/
theorem bytes_fill {s : Slice} {bs : Bytes} (h : bs.length ≤ s.cap) :
    ((s.upTo bs.length).copyAt 0 bs).bytes = bs :=
  bytes_copyAt_whole (upTo_len h)

/-- Re-slicing within the shown bytes takes a prefix of them. -/
theorem bytes_upTo_take {s : Slice} {n m : Nat} (hnm : n ≤ m) (hm : m ≤ s.cap) :
    (s.upTo m).bytes.take n = s.arr.take n := by
  have hl : (s.upTo m).len = m := upTo_len hm
  show ((s.upTo m).arr.take (s.upTo m).len).take n = _
  rw [hl, List.take_take, Nat.min_eq_left hnm]
  rfl

end Slice

/-! ## Pools -/

/-- A `sync.Pool` of slices: what each coming `Get` returns, how many were
made, and what was `Put`. -/
structure Pool where
  supply : Nat → Slice
  taken : Nat
  returned : List Slice

namespace Pool

/-- A pool that has never been used: every `Get` makes a new buffer. -/
def fresh (n : Nat) : Pool := { supply := fun _ => Slice.make n, taken := 0, returned := [] }

/-- `pool.Get()`. -/
def get (p : Pool) : Slice × Pool :=
  (p.supply p.taken, { p with taken := p.taken + 1 })

/-- `pool.Put(s)`. -/
def put (p : Pool) (s : Slice) : Pool := { p with returned := p.returned ++ [s] }

/-- `b := pool.Get(); if cap(b) < n { pool.Put(trim(b)); b = make([]byte, n) }`:
the idiom every user of a buffer pool follows. The users differ in whether they
cut the rejected buffer to `b[:0]` before they put it back. -/
def getCap (p : Pool) (n : Nat) (trim : Slice → Slice) : Slice × Pool :=
  if p.get.1.cap < n then (Slice.make n, p.get.2.put (trim p.get.1)) else p.get

/-- The buffer the idiom yields has the capacity asked for. -/
theorem le_cap_getCap (p : Pool) (n : Nat) (trim : Slice → Slice) :
    n ≤ (p.getCap n trim).1.cap := by
  unfold getCap
  split
  · exact Nat.le_of_eq (Slice.make_cap n).symm
  · next h => exact Nat.le_of_not_lt h

end Pool

end EasyTun.Lib
