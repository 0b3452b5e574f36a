import Mathlib.Logic.Function.Basic
import EasyTun.Lib.Bytes

/-!
# Arrays with identities

Go slices that share arrays. `Memory` has the contents of every array ever made,
and an `ArrSlice` is a slice: an array, where the slice begins in it, how long it is and
how far it can be extended. Writing through one view changes what another view of
the same array shows.

- `append`: `append(v, bs...)`, in place while the capacity lasts, and into a new
  array otherwise.
- `Frame W m m'`: from `m` to `m'` only arrays in `W` were written to, and none was
  resized. The read of a valid view outside of `W` stays what it was.
- `append_spec`, `appendAll_spec`: what is read back after appending, and what is
  left alone.
-/

namespace EasyTun.Lib

/-- The identity of an array. -/
abbrev ArrId := Nat

/-- The arrays made so far are those below `next`. -/
structure Memory where
  arr : ArrId → Bytes
  next : ArrId

/-- A slice. -/
structure ArrSlice where
  id : ArrId
  off : Nat
  len : Nat
  cap : Nat
  deriving DecidableEq

namespace ArrSlice

/-- The slice lies in an array there is. -/
structure Valid (m : Memory) (v : ArrSlice) : Prop where
  id_lt : v.id < m.next
  bounds : v.off + v.cap ≤ (m.arr v.id).length
  len_le : v.len ≤ v.cap

/-- `v[:0]`. -/
def empty (v : ArrSlice) : ArrSlice := { v with len := 0 }

theorem Valid.empty {m : Memory} {v : ArrSlice} (h : v.Valid m) : v.empty.Valid m :=
  ⟨h.id_lt, h.bounds, Nat.zero_le _⟩

/-- `v[d:d]`. -/
def drop (v : ArrSlice) (d : Nat) : ArrSlice :=
  { v with off := v.off + d, len := 0, cap := v.cap - d }

theorem Valid.drop {m : Memory} {v : ArrSlice} (h : v.Valid m) {d : Nat} (hd : d ≤ v.cap) :
    (v.drop d).Valid m := by
  have hbounds := h.bounds
  refine ⟨h.id_lt, ?_, Nat.zero_le _⟩
  show v.off + d + (v.cap - d) ≤ (m.arr v.id).length
  omega

end ArrSlice

namespace Memory

/-! ## Operations -/

/-- The bytes the slice shows. -/
def read (m : Memory) (v : ArrSlice) : Bytes := window (m.arr v.id) v.off v.len

/-- A write into an array. -/
def store (m : Memory) (i : ArrId) (off : Nat) (bs : Bytes) : Memory :=
  { m with arr := Function.update m.arr i (overwrite (m.arr i) off bs) }

/-- `make([]byte, n)`, as the array `m.next`. -/
def alloc (m : Memory) (n : Nat) : Memory :=
  { arr := Function.update m.arr m.next (List.replicate n 0), next := m.next + 1 }

/-- The slice of all of a new array. -/
def fresh (m : Memory) (n : Nat) : ArrSlice := { id := m.next, off := 0, len := n, cap := n }

/-- `append(v, bs...)`. How much more than needed a new array has is up to the
runtime. -/
def append (m : Memory) (v : ArrSlice) (bs : Bytes) (slack : Nat) : Memory × ArrSlice :=
  if v.len + bs.length ≤ v.cap then
    (m.store v.id (v.off + v.len) bs, { v with len := v.len + bs.length })
  else
    ((m.alloc (v.len + bs.length + slack)).store m.next 0 (m.read v ++ bs),
      { id := m.next, off := 0, len := v.len + bs.length, cap := v.len + bs.length + slack })

/-- One `append` after the other. -/
def appendAll (m : Memory) (v : ArrSlice) : List Bytes → Memory × ArrSlice
  | [] => (m, v)
  | bs :: rest => (m.append v bs 0).1.appendAll (m.append v bs 0).2 rest

/-! ## Frames -/

variable {m m' m'' : Memory} {v w : ArrSlice}

/-- Only arrays in `W` were written to, and none was resized. -/
structure Frame (W : ArrId → Prop) (m m' : Memory) : Prop where
  next_le : m.next ≤ m'.next
  length : ∀ {i}, i < m.next → (m'.arr i).length = (m.arr i).length
  same : ∀ {i}, i < m.next → ¬W i → m'.arr i = m.arr i

namespace Frame

variable {W W' : ArrId → Prop}

theorem refl (W : ArrId → Prop) (m : Memory) : Frame W m m :=
  ⟨Nat.le_refl _, fun _ => rfl, fun _ _ => rfl⟩

theorem trans (h : Frame W m m') (h' : Frame W m' m'') : Frame W m m'' where
  next_le := Nat.le_trans h.next_le h'.next_le
  length hi := (h'.length (Nat.lt_of_lt_of_le hi h.next_le)).trans (h.length hi)
  same hi hW := (h'.same (Nat.lt_of_lt_of_le hi h.next_le) hW).trans (h.same hi hW)

theorem mono (h : Frame W m m') (himp : ∀ i, i < m.next → W i → W' i) : Frame W' m m' where
  next_le := h.next_le
  length := h.length
  same hi hW := h.same hi fun hw => hW (himp _ hi hw)

theorem valid (h : Frame W m m') (hv : v.Valid m) : v.Valid m' where
  id_lt := Nat.lt_of_lt_of_le hv.id_lt h.next_le
  bounds := by
    rw [h.length hv.id_lt]
    exact hv.bounds
  len_le := hv.len_le

/-- Reads elsewhere stay what they were. -/
theorem read (h : Frame W m m') (hv : v.Valid m) (hW : ¬W v.id) : m'.read v = m.read v := by
  rw [Memory.read, Memory.read, h.same hv.id_lt hW]

end Frame

theorem arr_store (m : Memory) (i : ArrId) (off : Nat) (bs : Bytes) :
    (m.store i off bs).arr i = overwrite (m.arr i) off bs :=
  Function.update_self ..

theorem frame_store (m : Memory) (i : ArrId) (off : Nat) (bs : Bytes) :
    Frame (· = i) m (m.store i off bs) where
  next_le := Nat.le_refl _
  length {j} _ := by
    by_cases hj : j = i
    · rw [hj, arr_store, length_overwrite]
    · exact congrArg List.length (Function.update_of_ne hj ..)
  same _ hj := Function.update_of_ne hj ..

theorem frame_alloc (W : ArrId → Prop) (m : Memory) (n : Nat) : Frame W m (m.alloc n) where
  next_le := Nat.le_succ _
  length hi := congrArg List.length (Function.update_of_ne (Nat.ne_of_lt hi) ..)
  same hi _ := Function.update_of_ne (Nat.ne_of_lt hi) ..

theorem length_arr_alloc (m : Memory) (n : Nat) : ((m.alloc n).arr m.next).length = n := by
  show (Function.update m.arr m.next (List.replicate n 0) m.next).length = n
  rw [Function.update_self, List.length_replicate]

theorem valid_fresh (m : Memory) (n : Nat) : (m.fresh n).Valid (m.alloc n) where
  id_lt := Nat.lt_succ_self _
  bounds := by
    have hlen := length_arr_alloc m n
    show 0 + n ≤ ((m.alloc n).arr m.next).length
    omega
  len_le := Nat.le_refl _

@[simp] theorem length_read (hv : v.Valid m) : (m.read v).length = v.len := by
  refine length_window ?_
  have hb := hv.bounds
  have hl := hv.len_le
  omega

/-- A write into a slice, seen through it. -/
theorem read_store (hv : v.Valid m) (k : Nat) (bs : Bytes) :
    (m.store v.id (v.off + k) bs).read v = overwrite (m.read v) k bs := by
  have hbounds := hv.bounds
  have hlen := hv.len_le
  have hread : (window (m.arr v.id) v.off v.len).length = v.len := length_window (by omega)
  rw [Memory.read, Memory.read, arr_store]
  apply List.ext_getElem?
  intro i
  rw [getElem?_window, getElem?_overwrite, getElem?_overwrite, getElem?_window, hread]
  by_cases hi : i < v.len
  · rw [if_pos hi, if_pos hi]
    by_cases hin : k ≤ i ∧ i < k + bs.length
    · rw [if_pos (by omega), if_pos (by omega)]
      congr 1
      omega
    · rw [if_neg (by omega), if_neg (by omega)]
  · rw [if_neg hi, if_neg hi, if_neg (by omega)]

@[simp] theorem read_empty (m : Memory) (v : ArrSlice) : m.read v.empty = [] := rfl

/-! ## Appending -/

/-- `v'` in `m'` is `v` in `m` with `bs` behind it, in the same array. -/
structure Extends (m : Memory) (v : ArrSlice) (bs : Bytes) (m' : Memory) (v' : ArrSlice) :
    Prop where
  valid : v'.Valid m'
  id : v'.id = v.id
  off : v'.off = v.off
  cap : v'.cap = v.cap
  len : v'.len = v.len + bs.length
  read : m'.read v' = m.read v ++ bs
  frame : Frame (· = v.id) m m'

/-- Within the capacity, `append` writes behind the slice. -/
theorem append_fits (hv : v.Valid m) (bs : Bytes) (hfits : v.len + bs.length ≤ v.cap)
    (slack : Nat) : Extends m v bs (m.append v bs slack).1 (m.append v bs slack).2 := by
  have happend : m.append v bs slack =
      (m.store v.id (v.off + v.len) bs, { v with len := v.len + bs.length }) := if_pos hfits
  have hbounds := hv.bounds
  rw [happend]
  refine ⟨⟨hv.id_lt, ?_, hfits⟩, rfl, rfl, rfl, rfl, ?_, frame_store ..⟩
  · show v.off + v.cap ≤ ((m.store v.id _ bs).arr v.id).length
    rw [arr_store, length_overwrite]
    exact hbounds
  · show window ((m.store v.id _ bs).arr v.id) v.off (v.len + bs.length) = _
    rw [arr_store, window_append, window_overwrite_disjoint (Or.inl (Nat.le_refl _)),
      window_overwrite_self rfl (by omega)]
    rfl

/-- No other array is written to. -/
theorem frame_append (m : Memory) (v : ArrSlice) (bs : Bytes) (slack : Nat) :
    Frame (· = v.id) m (m.append v bs slack).1 := by
  unfold append
  split
  · exact frame_store m v.id _ bs
  · -- the new array is none of the old ones
    have hstore := frame_store (m.alloc (v.len + bs.length + slack)) m.next 0 (m.read v ++ bs)
    refine ⟨Nat.le_succ _, fun {i} hi => ?_, fun {i} hi _ => ?_⟩
    · exact (hstore.length (Nat.lt_succ_of_lt hi)).trans ((frame_alloc (· = v.id) m _).length hi)
    · refine (hstore.same (Nat.lt_succ_of_lt hi) (Nat.ne_of_lt hi)).trans ?_
      exact Function.update_of_ne (Nat.ne_of_lt hi) ..

/-- The result is in the array of the slice, or in one that was made for it. -/
theorem id_append (m : Memory) (v : ArrSlice) (bs : Bytes) (slack : Nat) :
    (m.append v bs slack).2.id = v.id ∨
      (m.append v bs slack).2.id = m.next ∧ m.next < (m.append v bs slack).1.next := by
  unfold append
  split
  · exact Or.inl rfl
  · exact Or.inr ⟨rfl, Nat.lt_succ_self _⟩

/-- **What `append` does**: the bytes are behind what the slice showed, in its own
array or in a new one, and no other array is written to. -/
theorem append_spec (hv : v.Valid m) (bs : Bytes) (slack : Nat) :
    (m.append v bs slack).2.Valid (m.append v bs slack).1 ∧
      (m.append v bs slack).1.read (m.append v bs slack).2 = m.read v ++ bs ∧
      Frame (· = v.id) m (m.append v bs slack).1 := by
  by_cases hfits : v.len + bs.length ≤ v.cap
  · have hext := append_fits hv bs hfits slack
    exact ⟨hext.valid, hext.read, hext.frame⟩
  · have happend : m.append v bs slack =
        ((m.alloc (v.len + bs.length + slack)).store m.next 0 (m.read v ++ bs),
          { id := m.next, off := 0, len := v.len + bs.length
            cap := v.len + bs.length + slack }) := if_neg hfits
    have hlen : (m.read v ++ bs).length = v.len + bs.length := by
      rw [List.length_append, length_read hv]
    have harr : ((m.alloc (v.len + bs.length + slack)).arr m.next).length =
        v.len + bs.length + slack := by
      show (Function.update m.arr m.next _ m.next).length = _
      rw [Function.update_self, List.length_replicate]
    rw [happend]
    refine ⟨⟨Nat.lt_succ_self _, ?_, Nat.le_add_right ..⟩, ?_, ?_⟩
    · show 0 + (v.len + bs.length + slack) ≤ (((m.alloc _).store m.next 0 _).arr m.next).length
      rw [arr_store, length_overwrite, harr]
      omega
    · show window (((m.alloc _).store m.next 0 _).arr m.next) 0 (v.len + bs.length) = _
      rw [arr_store, window_overwrite_self hlen (by omega)]
    · rw [← happend]
      exact frame_append m v bs slack

/-- Within the capacity, many appends are one. -/
theorem appendAll_spec (pieces : List Bytes) (hv : v.Valid m)
    (hfits : v.len + pieces.flatten.length ≤ v.cap) :
    Extends m v pieces.flatten (m.appendAll v pieces).1 (m.appendAll v pieces).2 := by
  induction pieces generalizing m v with
  | nil =>
    refine ⟨hv, rfl, rfl, rfl, rfl, ?_, .refl _ _⟩
    exact (List.append_nil _).symm
  | cons bs rest ih =>
    rw [List.flatten_cons, List.length_append] at hfits
    have hfirst := append_fits hv bs (by omega) 0
    have hrest := ih hfirst.valid (by rw [hfirst.len, hfirst.cap]; omega)
    refine ⟨hrest.valid, hrest.id.trans hfirst.id, hrest.off.trans hfirst.off,
      hrest.cap.trans hfirst.cap, ?_, ?_, ?_⟩
    · rw [appendAll, hrest.len, hfirst.len, List.flatten_cons, List.length_append, Nat.add_assoc]
    · rw [appendAll, hrest.read, hfirst.read, List.flatten_cons, List.append_assoc]
    · exact hfirst.frame.trans (hrest.frame.mono fun i _ hi => hi.trans hfirst.id)

/-- Pieces and then a copy of another slice, which is read when the pieces are
written. In another array, it is still what it was. -/
theorem append_copy (pieces : List Bytes) (hv : v.Valid m) (hw : w.Valid m) (hne : w.id ≠ v.id)
    (hfits : v.len + (pieces.flatten.length + w.len) ≤ v.cap) :
    let r := m.appendAll v pieces
    Extends m v (pieces.flatten ++ m.read w) (r.1.append r.2 (r.1.read w) 0).1
      (r.1.append r.2 (r.1.read w) 0).2 := by
  intro r
  have hpieces : Extends m v pieces.flatten r.1 r.2 := appendAll_spec pieces hv (by omega)
  have hread : r.1.read w = m.read w := hpieces.frame.read hw hne
  have hlen := length_read hw
  have hcopy : Extends r.1 r.2 (r.1.read w) _ _ :=
    append_fits hpieces.valid _ (by rw [hread, hlen, hpieces.len, hpieces.cap]; omega) 0
  refine ⟨hcopy.valid, hcopy.id.trans hpieces.id, hcopy.off.trans hpieces.off,
    hcopy.cap.trans hpieces.cap, ?_, ?_, ?_⟩
  · rw [hcopy.len, hpieces.len, hread, List.length_append, Nat.add_assoc]
  · rw [hcopy.read, hpieces.read, hread, List.append_assoc]
  · exact hpieces.frame.trans (hcopy.frame.mono fun i _ hi => hi.trans hpieces.id)

end Memory

end EasyTun.Lib
