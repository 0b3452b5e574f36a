import Mathlib.Algebra.Group.Nat.Defs
import Mathlib.Data.List.Induction

/-!
# Byte strings, fixed-size arrays and big-endian integers

The Go data types the program's wire formats are made of.

- `Bytes`: a byte string (a `[]byte` seen as a value, or a `string`).
- `ByteArr n`: the array type `[n]byte`; the length is part of the type.
- `toBE` / `ofBE`: fixed-width big-endian integers (`encoding/binary`), with
  the round trips `ofBE_toBE` and `toBE_ofBE`.
- `overwrite`: storing a byte string into a longer one in place, as `copy` and
  in-place decryption do.
- `window`: the bytes from one position to another, with what `overwrite` does to
  them.
-/

namespace EasyTun.Lib

/-- A byte string. -/
abbrev Bytes := List UInt8

/-- `[n]byte`: a byte string of length exactly `n`. -/
abbrev ByteArr (n : Nat) := { l : Bytes // l.length = n }

namespace ByteArr

/-- The zero value of `[n]byte`. -/
def zero (n : Nat) : ByteArr n := ⟨List.replicate n 0, List.length_replicate⟩

instance (n : Nat) : Inhabited (ByteArr n) := ⟨zero n⟩

/-- The literal `[4]byte{a, b, c, d}`. -/
def four (a b c d : UInt8) : ByteArr 4 := ⟨[a, b, c, d], rfl⟩

/-- The conversion `[n]byte(l)` of a slice. Go panics on a slice shorter than
`n`; every use is behind a length check, so the padding is never seen. -/
def ofBytes (n : Nat) (l : Bytes) : ByteArr n :=
  ⟨l.take n ++ List.replicate (n - l.length) 0, by
    rw [List.length_append, List.length_take, List.length_replicate]
    omega⟩

/-- On a long enough slice the conversion takes the first `n` bytes. -/
theorem val_ofBytes {n : Nat} {l : Bytes} (h : n ≤ l.length) :
    (ofBytes n l).1 = l.take n := by
  show l.take n ++ List.replicate (n - l.length) 0 = l.take n
  rw [Nat.sub_eq_zero_of_le h]
  exact List.append_nil _

/-- Converting an array's own bytes, with anything after them, gives it back. -/
@[simp] theorem ofBytes_append {n : Nat} (a : ByteArr n) (l : Bytes) :
    ofBytes n (a.1 ++ l) = a := by
  obtain ⟨bs, rfl⟩ := a
  apply Subtype.ext
  rw [val_ofBytes (by rw [List.length_append]; exact Nat.le_add_right ..)]
  exact List.take_left

end ByteArr

/-- An address of a private network, for instances: 10.0.6.`host`. -/
def sampleIp (host : UInt8) : ByteArr 4 := .four 10 0 6 host

/-! ## Big-endian integers -/

/-- `n` as `w` big-endian bytes (the high part is cut off). -/
def toBE : Nat → Nat → Bytes
  | 0, _ => []
  | w + 1, n => toBE w (n / 256) ++ [UInt8.ofNat n]

/-- The integer a big-endian byte string denotes. -/
def ofBE (l : Bytes) : Nat := l.foldl (fun acc b => acc * 256 + b.toNat) 0

@[simp] theorem length_toBE (w n : Nat) : (toBE w n).length = w := by
  induction w generalizing n with
  | zero => rfl
  | succ w ih => rw [toBE, List.length_append, ih]; rfl

theorem ofBE_append_singleton (l : Bytes) (b : UInt8) :
    ofBE (l ++ [b]) = ofBE l * 256 + b.toNat := by
  rw [ofBE, List.foldl_append]
  rfl

theorem ofBE_lt (l : Bytes) : ofBE l < 256 ^ l.length := by
  induction l using List.reverseRecOn with
  | nil => decide
  | append_singleton l b ih =>
    rw [ofBE_append_singleton, List.length_append, List.length_singleton, Nat.pow_succ]
    have := b.toNat_lt
    omega

theorem ofBE_toBE (w n : Nat) : ofBE (toBE w n) = n % 256 ^ w := by
  induction w generalizing n with
  | zero => rw [Nat.pow_zero, Nat.mod_one]; rfl
  | succ w ih =>
    rw [toBE, ofBE_append_singleton, ih, Nat.pow_succ, Nat.mul_comm (256 ^ w) 256,
      Nat.mod_mul]
    have : (UInt8.ofNat n).toNat = n % 256 := by simp
    omega

/-- Reading back a number that fits. -/
theorem ofBE_toBE_of_lt {w n : Nat} (h : n < 256 ^ w) : ofBE (toBE w n) = n := by
  rw [ofBE_toBE, Nat.mod_eq_of_lt h]

/-- Writing back what was read. -/
theorem toBE_ofBE (l : Bytes) : toBE l.length (ofBE l) = l := by
  induction l using List.reverseRecOn with
  | nil => rfl
  | append_singleton l b ih =>
    rw [ofBE_append_singleton, List.length_append, List.length_singleton, toBE]
    have hb := b.toNat_lt
    have hdiv : (ofBE l * 256 + b.toNat) / 256 = ofBE l := by omega
    have hlast : UInt8.ofNat (ofBE l * 256 + b.toNat) = b := by
      apply UInt8.toNat_inj.mp
      rw [UInt8.toNat_ofNat']
      omega
    rw [hdiv, ih, hlast]

/-- Numbers that fit are determined by their bytes. -/
theorem toBE_inj {w n m : Nat} (hn : n < 256 ^ w) (hm : m < 256 ^ w)
    (h : toBE w n = toBE w m) : n = m := by
  rw [← ofBE_toBE_of_lt hn, h, ofBE_toBE_of_lt hm]

/-! ## Overwriting in place -/

/-- Store `bs` into `l` from offset `off` on; what does not fit is dropped. -/
def overwrite (l : Bytes) (off : Nat) (bs : Bytes) : Bytes :=
  l.take off ++ bs.take (l.length - off) ++ l.drop (off + bs.length)

/-- Overwriting a prefix of the second part of a split string. -/
theorem overwrite_append (h bs old : Bytes) (hle : bs.length ≤ old.length) :
    overwrite (h ++ old) h.length bs = h ++ (bs ++ old.drop bs.length) := by
  have hlen : (h ++ old).length - h.length = old.length := by
    rw [List.length_append]; omega
  rw [overwrite, hlen, List.take_left, List.take_of_length_le hle, List.append_assoc,
    List.drop_append]
  congr 2
  rw [List.drop_of_length_le (Nat.le_add_right ..), Nat.add_sub_cancel_left]
  rfl

@[simp] theorem length_overwrite (l : Bytes) (off : Nat) (bs : Bytes) :
    (overwrite l off bs).length = l.length := by
  simp only [overwrite, List.length_append, List.length_take, List.length_drop]
  omega

/-- What a position holds after overwriting: the new byte where there is one. -/
theorem getElem?_overwrite (l : Bytes) (off : Nat) (bs : Bytes) (i : Nat) :
    (overwrite l off bs)[i]? =
      if off ≤ i ∧ i < off + bs.length ∧ i < l.length then bs[i - off]? else l[i]? := by
  unfold overwrite
  rw [List.append_assoc, List.getElem?_append, List.length_take, List.getElem?_append,
    List.length_take, List.getElem?_take, List.getElem?_take, List.getElem?_drop]
  split
  · next h => rw [if_pos (by omega), if_neg (by omega)]
  · next h =>
    split
    · next h' =>
      rw [if_pos (by omega), if_pos (by omega)]
      congr 1
      omega
    · next h' =>
      rw [if_neg (by omega)]
      by_cases hi : i < l.length
      · congr 1
        omega
      · rw [List.getElem?_eq_none (by omega), List.getElem?_eq_none (by omega)]

/-! ## Windows -/

/-- `l[off : off+n]`. -/
def window (l : Bytes) (off n : Nat) : Bytes := (l.drop off).take n

theorem getElem?_window (l : Bytes) (off n i : Nat) :
    (window l off n)[i]? = if i < n then l[off + i]? else none := by
  rw [window, List.getElem?_take, List.getElem?_drop]

theorem length_window {l : Bytes} {off n : Nat} (h : off + n ≤ l.length) :
    (window l off n).length = n := by
  rw [window, List.length_take, List.length_drop]
  omega

theorem take_eq_window (l : Bytes) (n : Nat) : l.take n = window l 0 n := rfl

theorem drop_eq_window {l : Bytes} {off n : Nat} (h : l.length = off + n) :
    l.drop off = window l off n := by
  refine (List.take_of_length_le ?_).symm
  rw [List.length_drop]
  omega

/-- A window and the one behind it. -/
theorem window_append (l : Bytes) (off n k : Nat) :
    window l off (n + k) = window l off n ++ window l (off + n) k := by
  unfold window
  rw [← List.drop_drop, List.take_add]

/-- A window of a window. -/
theorem window_window {l : Bytes} {off n i k : Nat} (h : i + k ≤ n) :
    window (window l off n) i k = window l (off + i) k := by
  unfold window
  rw [List.drop_take, List.take_take, List.drop_drop, Nat.min_eq_left (by omega)]

/-- Reading back what was stored. -/
theorem window_overwrite_self {l : Bytes} {off n : Nat} {bs : Bytes} (hn : bs.length = n)
    (h : off + n ≤ l.length) : window (overwrite l off bs) off n = bs := by
  apply List.ext_getElem?
  intro i
  rw [getElem?_window, getElem?_overwrite]
  split
  · rw [if_pos (by omega), Nat.add_sub_cancel_left]
  · next hi => rw [List.getElem?_eq_none (by omega)]

/-- Reading elsewhere. -/
theorem window_overwrite_disjoint {l : Bytes} {off : Nat} {bs : Bytes} {i n : Nat}
    (h : i + n ≤ off ∨ off + bs.length ≤ i) :
    window (overwrite l off bs) i n = window l i n := by
  apply List.ext_getElem?
  intro j
  rw [getElem?_window, getElem?_window, getElem?_overwrite]
  split
  · rw [if_neg (by omega)]
  · rfl

/-- Reading a part of what was stored at the beginning. -/
theorem window_overwrite_head {l bs : Bytes} {i n : Nat} (h : i + n ≤ bs.length)
    (hl : bs.length ≤ l.length) : window (overwrite l 0 bs) i n = window bs i n := by
  apply List.ext_getElem?
  intro j
  rw [getElem?_window, getElem?_window, getElem?_overwrite]
  split
  · rw [if_pos (by omega), Nat.sub_zero]
  · rfl

/-- Storing at the beginning what is there already, as far as a window goes. -/
theorem window_overwrite_agree {l bs : Bytes} {i n : Nat}
    (h : window bs i n <+: window l i n) : window (overwrite l 0 bs) i n = window l i n := by
  obtain ⟨t, ht⟩ := h
  apply List.ext_getElem?
  intro j
  by_cases hj : j < n ∧ i + j < bs.length ∧ i + j < l.length
  · -- stored: there are the bytes of the window of `bs`, with which that of `l` begins
    have hlen : j < (window bs i n).length := by
      rw [window, List.length_take, List.length_drop]
      omega
    rw [← ht, List.getElem?_append_left hlen, getElem?_window, getElem?_window, getElem?_overwrite,
      if_pos hj.1, if_pos hj.1, if_pos (by omega), Nat.sub_zero]
  · rw [getElem?_window, getElem?_window, getElem?_overwrite]
    split
    · rw [if_neg (by omega)]
    · rfl

end EasyTun.Lib
