import EasyTun.Protocol.Codec

/-!
# What compression reads of a buffer pool (`internal/protocol/compress.go`)

`EncodePacket` takes up to three buffers from a pool: one for the probe, one for the
compressed block and one for the packet. Two runs with different pools can differ only in
what they read of these buffers. The second and the third are cut to a length of the
program's choice before they are used. The probe buffer is used as it comes: its capacity
is checked, but `CompressBlock` sees its length. New buffers have their full length, and
recycled ones have length zero.

- `compress_congr`, `encodePacket_congr`: the pool is read only through the length of the
  probe buffer.
- `SameVerdict`: the probe gives the same verdict for both lengths, or nothing depends on it.
- `encodePacket_pool`: **two pools give the same packet if and only if that is so**.
- `sameVerdict_forall_iff`: without knowing the compressor one can say so of buffers that are
  equally long, or long enough, and of no others.
- `encodePacket_recycled`: with a recycled buffer, a payload is compressed that is sent as it
  is with a new one.
-/

namespace EasyTun.Protocol

open EasyTun.Lib

variable {K : Type}

/-- `CompressBlock` gives the same result for every destination that is large enough. For a
shorter one nothing is assumed. -/
def Lz4.SameAbove (L : Lz4) : Prop :=
  ∀ src n m, L.compressBlockBound src.length ≤ n → L.compressBlockBound src.length ≤ m →
    L.compressBlock src n = L.compressBlock src m

namespace GamePacket

/-- The next buffer of the pool is as long as the probe needs, or so small that it is
replaced by a new one. -/
def ProbeFits (L : Lz4) (pool : Pool) : Prop :=
  pool.get.1.cap < L.probeLen ∨ L.probeLen ≤ pool.get.1.len

instance (L : Lz4) (pool : Pool) : Decidable (ProbeFits L pool) :=
  inferInstanceAs (Decidable (_ ∨ _))

/-- Then the probe buffer is long enough, and only then. -/
theorem probeFits_iff {L : Lz4} {pool : Pool} :
    ProbeFits L pool ↔ L.probeLen ≤ probeBufLen L pool := by
  unfold ProbeFits probeBufLen Pool.getCap
  split
  · next hcap => exact ⟨fun _ => Nat.le_of_eq (Slice.make_len _).symm, fun _ => Or.inl hcap⟩
  · next hcap => exact ⟨fun h => h.resolve_left hcap, Or.inr⟩

/-! ## The verdict of the probe -/

/-- The first 64 bytes fit 50 in a probe buffer of length `n`. -/
def ProbePasses (L : Lz4) (n : Nat) (p : Bytes) : Prop :=
  ∃ out, L.compressBlock (p.take 64) n = some out ∧ out.length ≤ 50

/-- The whole gets shorter, and not empty. -/
def Shrinks (L : Lz4) (p : Bytes) : Prop :=
  ∃ out, L.compressBlock p (L.compressBlockBound p.length) = some out ∧
    0 < out.length ∧ out.length < p.length ∧ out.length ≤ maxPayloadSize

/-- **The same verdict for two lengths of the probe buffer**, or nothing depends on it: the
payload is not probed, not sent, or not compressed in any case. -/
def SameVerdict (L : Lz4) (p : Bytes) (n m : Nat) : Prop :=
  p.length ≤ 128 ∨ maxPayloadSize < p.length ∨ ¬Shrinks L p ∨
    (ProbePasses L n p ↔ ProbePasses L m p)

section Verdict

variable {L : Lz4} {p : Bytes} {n m : Nat}

theorem compressible_iff :
    Compressible L n p ↔ 128 < p.length ∧ ProbePasses L n p ∧ Shrinks L p := Iff.rfl

/-- What the verdict is about. -/
theorem sameVerdict_iff :
    SameVerdict L p n m ↔
      (p.length ≤ maxPayloadSize → (Compressible L n p ↔ Compressible L m p)) := by
  rw [compressible_iff, compressible_iff]
  unfold SameVerdict
  by_cases hlong : 128 < p.length
  · by_cases hmax : p.length ≤ maxPayloadSize
    · by_cases hshrinks : Shrinks L p
      · simp [hlong, hmax, hshrinks, Nat.not_le.mpr hlong, Nat.not_lt.mpr hmax]
      · simp [hshrinks]
    · simp [hmax, Nat.lt_of_not_le hmax]
  · simp [hlong, Nat.le_of_not_lt hlong]

/-- Probe buffers that are long enough give the same verdict. -/
theorem sameVerdict_of_le (hL : L.SameAbove) (hn : L.probeLen ≤ n) (hm : L.probeLen ≤ m) :
    SameVerdict L p n m := by
  by_cases hlong : p.length ≤ 128
  · exact Or.inl hlong
  · have h64 : (p.take 64).length = 64 := by
      rw [List.length_take]
      omega
    have hprobe : L.compressBlock (p.take 64) n = L.compressBlock (p.take 64) m := by
      refine hL _ _ _ ?_ ?_
      · rw [h64]
        exact hn
      · rw [h64]
        exact hm
    refine Or.inr (Or.inr (Or.inr ?_))
    unfold ProbePasses
    rw [hprobe]

/-- A compressor that has a block of one byte for everything but sources of 64 bytes, for which
it reports `n = 0`, and refuses one length of the destination. -/
def refusing (bound : Nat → Nat) (n : Nat) : Lz4 where
  compressBlock src m :=
    if src.length = 64 then if m = n then none else some [] else some [1]
  uncompressBlock _ _ := none
  compressBlockBound := bound

theorem sameAbove_refusing {bound : Nat → Nat} (hn : n < bound 64) :
    (refusing bound n).SameAbove := by
  intro src i j hi hj
  have hbound : (refusing bound n).compressBlockBound = bound := rfl
  rw [hbound] at hi hj
  show ite _ _ _ = ite _ _ _
  split
  · next h64 =>
    rw [h64] at hi hj
    rw [if_neg (by omega), if_neg (by omega)]
  · rfl

/-- It gives different verdicts for the length that it refuses and for every other one. -/
theorem not_sameVerdict_refusing {bound : Nat → Nat} (hlong : 128 < p.length)
    (hmax : p.length ≤ maxPayloadSize) (hne : n ≠ m) :
    ¬SameVerdict (refusing bound n) p n m := by
  have h64 : (p.take 64).length = 64 := by
    rw [List.length_take]
    omega
  have hshrinks : Shrinks (refusing bound n) p :=
    ⟨[1], if_neg (by omega), Nat.zero_lt_one, show 1 < p.length by omega, by decide⟩
  have hpasses : ProbePasses (refusing bound n) m p :=
    ⟨[], (if_pos h64).trans (if_neg hne.symm), Nat.zero_le _⟩
  have hfails : ¬ProbePasses (refusing bound n) n p := by
    rintro ⟨out, hout, -⟩
    cases ((if_pos h64).trans (if_pos rfl)).symm.trans hout
  rintro (hshort | hlarge | hstays | hsame)
  · omega
  · omega
  · exact hstays hshrinks
  · exact hfails (hsame.mpr hpasses)

theorem SameVerdict.symm (h : SameVerdict L p n m) : SameVerdict L p m n :=
  h.imp_right (Or.imp_right (Or.imp_right Iff.symm))

/-- **What can be said without knowing the compressor**: the verdicts are the same under every
one that keeps to the law, if and only if the payload is not probed or not sent, the buffers are
equally long, or both are long enough. -/
theorem sameVerdict_forall_iff :
    (∀ L' : Lz4, L'.compressBlockBound = L.compressBlockBound → L'.SameAbove →
      SameVerdict L' p n m) ↔
    p.length ≤ 128 ∨ maxPayloadSize < p.length ∨ n = m ∨ (L.probeLen ≤ n ∧ L.probeLen ≤ m) := by
  constructor
  · intro hall
    by_contra hnot
    obtain ⟨hlong, hmax, hne, hfits⟩ : 128 < p.length ∧ p.length ≤ maxPayloadSize ∧ n ≠ m ∧
        (n < L.probeLen ∨ m < L.probeLen) := by omega
    rcases hfits with hn | hm
    · exact not_sameVerdict_refusing hlong hmax hne
        (hall (refusing L.compressBlockBound n) rfl (sameAbove_refusing hn))
    · exact not_sameVerdict_refusing hlong hmax hne.symm
        (hall (refusing L.compressBlockBound m) rfl (sameAbove_refusing hm)).symm
  · rintro (hshort | hlarge | rfl | ⟨hn, hm⟩) L' hbound hL
    · exact Or.inl hshort
    · exact Or.inr (Or.inl hlarge)
    · exact Or.inr (Or.inr (Or.inr Iff.rfl))
    · have hlen : L'.probeLen = L.probeLen := congrFun hbound 64
      rw [← hlen] at hn hm
      exact sameVerdict_of_le hL hn hm

end Verdict

/-! ## Two pools -/

section TwoPools

variable {L : Lz4} {g : GamePacket} {pool₁ pool₂ : Pool}

/-- **`compress` reads only the length of the probe buffer.** -/
theorem compress_congr
    (h : Compressible L (probeBufLen L pool₁) g.data ↔
      Compressible L (probeBufLen L pool₂) g.data) :
    (g.compress L pool₁).1 = (g.compress L pool₂).1 ∧
      (g.compress L pool₁).2.1 = (g.compress L pool₂).2.1 := by
  rcases compress_spec L g pool₁ with ⟨hr₁, hg₁, hn₁⟩ | ⟨hr₁, hc₁, out₁, hb₁, -, -, -, hg₁⟩ <;>
    rcases compress_spec L g pool₂ with ⟨hr₂, hg₂, hn₂⟩ | ⟨hr₂, hc₂, out₂, hb₂, -, -, -, hg₂⟩
  · exact ⟨hr₁.trans hr₂.symm, hg₁.trans hg₂.symm⟩
  · exact absurd (h.mpr hc₂) hn₁
  · exact absurd (h.mp hc₁) hn₂
  · -- both blocks come from the full pass, whose destination always has the same length
    cases hb₁.symm.trans hb₂
    exact ⟨hr₁.trans hr₂.symm, hg₁.trans hg₂.symm⟩

theorem compressStage_congr (compress : Bool)
    (h : Compressible L (probeBufLen L pool₁) g.data ↔
      Compressible L (probeBufLen L pool₂) g.data) :
    (g.compressStage L pool₁ compress).1 = (g.compressStage L pool₂ compress).1 := by
  obtain ⟨hresult, hpacket⟩ := compress_congr h
  unfold compressStage
  cases compress with
  | false => rfl
  | true =>
    simp only [hresult, hpacket, if_true]
    split
    · rfl
    · rfl

/-- The buffer for the packet is emptied before it is used, and a packet that is too large is
not even compressed. -/
theorem encodePacket_congr (A : Aead K) (control compress : Bool) (cipher : Option (CipherState K))
    (h : g.data.length ≤ maxPayloadSize →
      (g.compressStage L pool₁ compress).1 = (g.compressStage L pool₂ compress).1) :
    (g.encodePacket A L pool₁ control compress cipher).1 =
      (g.encodePacket A L pool₂ control compress cipher).1 := by
  have hempty : ∀ s : Slice, (s.upTo 0).bytes = [] := fun s => by
    show s.arr.take (min 0 s.arr.length) = []
    rw [Nat.zero_min, List.take_zero]
  unfold encodePacket
  cases hl : payloadLengthField g.data.length with
  | none => rfl
  | some _ =>
    simp only [h (le_maxPayloadSize_of_lengthField hl)]
    cases payloadLengthField (g.compressStage L pool₂ compress).1.data.length with
    | none => rfl
    | some length => simp only [hempty]

variable (L g pool₁) in
/-- The decision is in the flag of the packet type, whatever the flag was before. -/
theorem compressed_compressStage :
    compressed (g.compressStage L pool₁ true).1.pType = true ↔
      Compressible L (probeBufLen L pool₁) g.data := by
  rw [← compress_eq_true_iff]
  unfold compressStage
  rw [if_pos rfl]
  cases hresult : (g.compress L pool₁).1 with
  | false => simp [hresult]
  | true => simp [hresult]

variable (L pool₁) in
/-- A prepared packet has the payload of the compression stage. -/
theorem exists_prepare (hmax : g.data.length ≤ maxPayloadSize) :
    ∃ length, g.prepare L pool₁ true =
      some { (g.compressStage L pool₁ true).1 with length := length } := by
  obtain ⟨l₀, hl₀⟩ := payloadLengthField_isSome hmax
  have hdata : (g.compressStage L pool₁ true).1.data.length ≤ maxPayloadSize := by
    unfold compressStage
    rw [if_pos rfl]
    rcases compress_spec L g pool₁ with ⟨hr, hg, -⟩ | ⟨hr, -, out, -, -, -, hout, hg⟩
    · simp only [hr, hg]
      exact hmax
    · simp only [hr, hg]
      exact hout
  obtain ⟨l, hl⟩ := payloadLengthField_isSome hdata
  refine ⟨l, ?_⟩
  unfold prepare
  simp only [hl₀, hl, Option.map_some]

/-- The type byte of a packet is on the wire, and with it the decision. -/
theorem compressible_of_wire {A : Aead K} {cipher : Option (CipherState K)}
    (hmax : g.data.length ≤ maxPayloadSize)
    (h : (g.encodePacket A L pool₁ false true cipher).1.wire =
      (g.encodePacket A L pool₂ false true cipher).1.wire) :
    Compressible L (probeBufLen L pool₁) g.data ↔
      Compressible L (probeBufLen L pool₂) g.data := by
  obtain ⟨l₁, hg₁⟩ := exists_prepare L pool₁ hmax
  obtain ⟨l₂, hg₂⟩ := exists_prepare L pool₂ hmax
  rw [encodePacket_eq A L g pool₁ false true cipher hg₁,
    encodePacket_eq A L g pool₂ false true cipher hg₂, encodeAt_eq, encodeAt_eq] at h
  have htype := congrArg (fun w : Bytes => w.getD 2 0) (Option.some.inj h)
  dsimp only at htype
  rw [getD_two_wireAd, getD_two_wireAd] at htype
  rw [← compressed_compressStage, ← compressed_compressStage, htype]

end TwoPools

/-- **Compression depends only on the payload if and only if the probe gives the same verdict
with both pools**, or the payload is short, too long to be sent, or not compressed in any case.
Then both runs emit the same string, make the same `Seal` call and leave the same packet, with
the decision in its type, and the same cipher; else already the strings differ. For all
compressors at once it is so if and only if the payload is not probed or not sent, or the probe
buffers are equally long, or each is long enough or too small to be used. -/
theorem encodePacket_pool (A : Aead K) (L : Lz4) (g : GamePacket)
    (cipher : Option (CipherState K)) (pool₁ pool₂ : Pool) :
    let encode := fun (L : Lz4) pool => (g.encodePacket A L pool false true cipher).1
    let same := SameVerdict L g.data (probeBufLen L pool₁) (probeBufLen L pool₂)
    (encode L pool₁ = encode L pool₂ ↔ same) ∧
    ((encode L pool₁).wire = (encode L pool₂).wire ↔ same) ∧
    ((∀ L' : Lz4, L'.compressBlockBound = L.compressBlockBound → L'.SameAbove →
        (encode L' pool₁).wire = (encode L' pool₂).wire) ↔
      g.data.length ≤ 128 ∨ maxPayloadSize < g.data.length ∨
      probeBufLen L pool₁ = probeBufLen L pool₂ ∨ (ProbeFits L pool₁ ∧ ProbeFits L pool₂)) := by
  intro encode same
  have henough : ∀ L, SameVerdict L g.data (probeBufLen L pool₁) (probeBufLen L pool₂) →
      encode L pool₁ = encode L pool₂ := by
    intro L hsame
    refine encodePacket_congr A false true cipher fun hmax => ?_
    exact compressStage_congr true (sameVerdict_iff.mp hsame hmax)
  have hneeded : ∀ L, (encode L pool₁).wire = (encode L pool₂).wire →
      SameVerdict L g.data (probeBufLen L pool₁) (probeBufLen L pool₂) := by
    intro L hwire
    exact sameVerdict_iff.mpr fun hmax => compressible_of_wire hmax hwire
  have hwire : ∀ L, (encode L pool₁).wire = (encode L pool₂).wire ↔
      SameVerdict L g.data (probeBufLen L pool₁) (probeBufLen L pool₂) := fun L =>
    ⟨hneeded L, fun hsame => congrArg (·.wire) (henough L hsame)⟩
  refine ⟨⟨fun heq => hneeded L (congrArg (·.wire) heq), henough L⟩, hwire L, ?_⟩
  -- compressors of one bound have probe buffers of the same lengths
  have hlen : ∀ L' : Lz4, L'.compressBlockBound = L.compressBlockBound →
      ∀ pool, probeBufLen L' pool = probeBufLen L pool := by
    intro L' hbound pool
    have hprobe : L'.probeLen = L.probeLen := congrFun hbound 64
    unfold probeBufLen
    rw [hprobe]
  rw [probeFits_iff, probeFits_iff, ← sameVerdict_forall_iff]
  refine forall_congr' fun L' => forall_congr' fun hbound => imp_congr_right fun _ => ?_
  rw [hwire L', hlen L' hbound, hlen L' hbound]

/-! ## One payload -/

/-- A compressor that finds a repetition in one block only, and stores everything else. It
reports `n = 0` when the destination may be too short. -/
def oneBlock (block : Bytes) : Lz4 where
  compressBlock src n :=
    if n < src.length + 16 then some []
    else if src = block then some [1] else some (0 :: src)
  uncompressBlock out _ :=
    match out with
    | [] => none
    | b :: src => if b = 1 then some block else some src
  compressBlockBound n := n + 16

theorem sameAbove_oneBlock (block : Bytes) : (oneBlock block).SameAbove := by
  intro src n m hn hm
  exact (if_neg (Nat.not_lt.mpr hn)).trans (if_neg (Nat.not_lt.mpr hm)).symm

theorem lossless_oneBlock (block : Bytes) : (oneBlock block).Lossless := by
  intro src n out m hout hne _
  change ite _ _ _ = some out at hout
  split at hout
  · cases hout
    exact absurd rfl hne
  · split at hout
    · next hblock =>
      cases hout
      rw [hblock]
      rfl
    · cases hout
      rfl

/-- A payload of 130 bytes. -/
def caseBlock : Bytes := (List.range 130).map UInt8.ofNat

/-- A pool of recycled buffers: they are large, and empty. -/
def recycled : Pool :=
  { supply := fun _ => (Slice.make 2048).upTo 0, taken := 0, returned := [] }

/-- A new buffer and one that is too small give the same packet, and so do two recycled ones. -/
theorem encodePacket_pool_small :
    (ProbeFits (oneBlock caseBlock) (.fresh 2048) ∧ ProbeFits (oneBlock caseBlock) (.fresh 8) ∧
      ¬ProbeFits (oneBlock caseBlock) recycled) ∧
    ∀ (A : Aead Unit) (cipher : Option (CipherState Unit)),
      let gp := newGamePacket (.zero 4) (.zero 4) typeData (some caseBlock)
      let encode := fun pool => (gp.encodePacket A (oneBlock caseBlock) pool false true cipher).1
      encode (.fresh 2048) = encode (.fresh 8) ∧
        encode recycled = encode { recycled with taken := 7 } := by
  have hlong : ProbeFits (oneBlock caseBlock) (.fresh 2048) := Or.inr (by decide)
  have hsmall : ProbeFits (oneBlock caseBlock) (.fresh 8) := Or.inl (by decide)
  have hlength : probeBufLen (oneBlock caseBlock) recycled =
      probeBufLen (oneBlock caseBlock) { recycled with taken := 7 } := by decide +kernel
  refine ⟨⟨hlong, hsmall, by decide +kernel⟩, ?_⟩
  intro A cipher gp encode
  obtain ⟨hfits, -⟩ :=
    encodePacket_pool A (oneBlock caseBlock) gp cipher (.fresh 2048) (.fresh 8)
  obtain ⟨hrecycled, -⟩ :=
    encodePacket_pool A (oneBlock caseBlock) gp cipher recycled { recycled with taken := 7 }
  refine ⟨hfits.mpr ?_, hrecycled.mpr ?_⟩
  · exact sameVerdict_of_le (sameAbove_oneBlock _) (probeFits_iff.mp hlong)
      (probeFits_iff.mp hsmall)
  · rw [hlength]
    exact Or.inr (Or.inr (Or.inr Iff.rfl))

/-- **Compression depends on the history of the pool.** The first 64 bytes of the payload do
not compress, so with a new probe buffer it is sent as it is. A recycled buffer has no room
for the probe, the compressor reports `n = 0`, and the payload is compressed. -/
theorem encodePacket_recycled :
    ∃ (L : Lz4) (g : GamePacket), L.SameAbove ∧ L.Lossless ∧
      (g.compress L (.fresh 2048)).1 = false ∧ (g.compress L recycled).1 = true ∧
      ∀ (K : Type) (A : Aead K) (cipher : Option (CipherState K)),
        (g.encodePacket A L (.fresh 2048) false true cipher).1.wire ≠
          (g.encodePacket A L recycled false true cipher).1.wire := by
  refine ⟨oneBlock caseBlock, newGamePacket (.zero 4) (.zero 4) typeData (some caseBlock),
    sameAbove_oneBlock _, lossless_oneBlock _, by decide +kernel, by decide +kernel, ?_⟩
  intro K A cipher hwire
  have hsame := compressible_of_wire (by decide +kernel) hwire
  rw [← compress_eq_true_iff, ← compress_eq_true_iff] at hsame
  revert hsame
  decide +kernel

end GamePacket

end EasyTun.Protocol
