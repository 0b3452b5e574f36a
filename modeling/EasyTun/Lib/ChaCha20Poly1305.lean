import EasyTun.Lib.Aead

/-!
# ChaCha20-Poly1305

The AEAD the program instantiates (`golang.org/x/crypto/chacha20poly1305`),
written out as an executable `Aead`: the ChaCha20 block function, the Poly1305
one-time authenticator over `2^130 - 5`, and their combination with the
authenticator key taken from block 0 and the keystream from block 1 on.

The results about the program are proved for every lawful AEAD; this instance
shows that the laws are those of the real cipher (`chacha20Poly1305_correct`,
`chacha20Poly1305_tagged`) and is what their concrete cases run on.
-/

namespace EasyTun.Lib

namespace ChaCha20

/-- Little-endian bytes of the low `w` bytes of `n`. -/
def toLE : Nat → Nat → Bytes
  | 0, _ => []
  | w + 1, n => UInt8.ofNat n :: toLE w (n / 256)

/-- The number little-endian bytes denote. -/
def ofLE : Bytes → Nat
  | [] => 0
  | b :: bs => b.toNat + 256 * ofLE bs

/-- The 32-bit word at word index `i` of a byte string. -/
def word (bs : Bytes) (i : Nat) : UInt32 := UInt32.ofNat (ofLE ((bs.drop (4 * i)).take 4))

def rotl (x : UInt32) (n : UInt32) : UInt32 := (x <<< n) ||| (x >>> (32 - n))

/-- The quarter round on the state words at positions `a`, `b`, `c`, `d`. -/
def quarterRound (s : List UInt32) (a b c d : Nat) : List UInt32 :=
  let va := s.getD a 0 + s.getD b 0
  let vd := rotl (s.getD d 0 ^^^ va) 16
  let vc := s.getD c 0 + vd
  let vb := rotl (s.getD b 0 ^^^ vc) 12
  let va := va + vb
  let vd := rotl (vd ^^^ va) 8
  let vc := vc + vd
  let vb := rotl (vb ^^^ vc) 7
  (((s.set a va).set b vb).set c vc).set d vd

/-- One column round followed by one diagonal round. -/
def doubleRound (s : List UInt32) : List UInt32 :=
  let s := quarterRound s 0 4 8 12
  let s := quarterRound s 1 5 9 13
  let s := quarterRound s 2 6 10 14
  let s := quarterRound s 3 7 11 15
  let s := quarterRound s 0 5 10 15
  let s := quarterRound s 1 6 11 12
  let s := quarterRound s 2 7 8 13
  quarterRound s 3 4 9 14

def rounds : Nat → List UInt32 → List UInt32
  | 0, s => s
  | n + 1, s => rounds n (doubleRound s)

/-- The ChaCha20 block function: constants, key, counter, nonce; ten double
rounds; feed-forward; little-endian serialization. -/
def block (key nonce : Bytes) (counter : Nat) : Bytes :=
  let s : List UInt32 := [0x61707865, 0x3320646e, 0x79622d32, 0x6b206574]
    ++ (List.range 8).map (word key) ++ [UInt32.ofNat counter]
    ++ (List.range 3).map (word nonce)
  (List.zipWith (· + ·) s (rounds 10 s)).flatMap fun w => toLE 4 w.toNat

/-- The keystream byte at position `i`, from block 1 on. -/
def stream (key nonce : Bytes) (i : Nat) : UInt8 :=
  (block key nonce (1 + i / 64)).getD (i % 64) 0

/-- Encryption and decryption are the same xor with the keystream. -/
def xorStream (key nonce bs : Bytes) : Bytes :=
  bs.mapIdx fun i b => b ^^^ stream key nonce i

@[simp] theorem length_xorStream (key nonce bs : Bytes) :
    (xorStream key nonce bs).length = bs.length := List.length_mapIdx

theorem xorStream_xorStream (key nonce bs : Bytes) :
    xorStream key nonce (xorStream key nonce bs) = bs := by
  unfold xorStream
  rw [List.mapIdx_mapIdx]
  apply List.ext_getElem (by simp)
  intro i h₁ h₂
  rw [List.getElem_mapIdx]
  show (bs[i] ^^^ stream key nonce i) ^^^ stream key nonce i = bs[i]
  rw [UInt8.xor_assoc, UInt8.xor_self, UInt8.xor_zero]

end ChaCha20

open ChaCha20

/-- One Poly1305 pass: absorb 16-byte blocks, each with a leading one bit. -/
def poly1305Acc (r : Nat) : Nat → Bytes → Nat → Nat
  | 0, _, acc => acc
  | fuel + 1, msg, acc =>
    if msg.isEmpty then acc
    else
      let blk := msg.take 16
      poly1305Acc r fuel (msg.drop 16)
        ((acc + ofLE blk + 256 ^ blk.length) * r % (2 ^ 130 - 5))

/-- The Poly1305 tag of a message under a 32-byte one-time key. -/
def poly1305 (key msg : Bytes) : Bytes :=
  let r := ofLE (key.take 16) &&& 0x0ffffffc0ffffffc0ffffffc0fffffff
  let s := ofLE ((key.drop 16).take 16)
  toLE 16 (poly1305Acc r (msg.length + 1) msg 0 + s)

def pad16 (bs : Bytes) : Bytes := bs ++ List.replicate ((16 - bs.length % 16) % 16) 0

/-- The tag of a ciphertext: the authenticator over the padded associated data,
the padded ciphertext and their lengths. -/
def aeadTag (key nonce c ad : Bytes) : Bytes :=
  poly1305 ((block key nonce 0).take 32)
    (pad16 ad ++ pad16 c ++ toLE 8 ad.length ++ toLE 8 c.length)

/-- ChaCha20-Poly1305 as an AEAD over 32-byte keys. -/
def chacha20Poly1305 : Aead (ByteArr 32) where
  sealed k n p ad :=
    let c := xorStream k.1 n p
    c ++ aeadTag k.1 n c ad
  opened k n c ad :=
    let body := c.take (c.length - 16)
    if 16 ≤ c.length ∧ aeadTag k.1 n body ad = c.drop (c.length - 16) then
      some (xorStream k.1 n body)
    else none

theorem length_toLE (w n : Nat) : (toLE w n).length = w := by
  induction w generalizing n with
  | zero => rfl
  | succ w ih => rw [toLE, List.length_cons, ih]

@[simp] theorem length_aeadTag (key nonce c ad : Bytes) :
    (aeadTag key nonce c ad).length = 16 := length_toLE ..

theorem chacha20Poly1305_tagged : chacha20Poly1305.Tagged 16 := by
  intro k n p ad
  show (xorStream k.1 n p ++ aeadTag k.1 n _ ad).length = _
  rw [List.length_append, length_xorStream, length_aeadTag]

theorem chacha20Poly1305_correct : chacha20Poly1305.Correct := by
  intro k n p ad
  have hlen : (xorStream k.1 n p ++ aeadTag k.1 n (xorStream k.1 n p) ad).length
      = (xorStream k.1 n p).length + 16 := by
    rw [List.length_append, length_aeadTag]
  simp only [chacha20Poly1305, hlen, Nat.add_sub_cancel, List.take_left, List.drop_left]
  rw [if_pos ⟨Nat.le_add_left .., trivial⟩, xorStream_xorStream]

end EasyTun.Lib
