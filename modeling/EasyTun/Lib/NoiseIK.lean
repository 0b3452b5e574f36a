import EasyTun.Lib.Bytes

/-!
# An ideal Noise IK handshake

The two-message handshake `IK` of a Noise library, as a client of the library
sees it: an initiator that knows the responder's static key writes a first
message, a responder answers it, and both split the same pair of transport
keys.

`Ops D` lists the library's operations on wire messages of a type `D`. `ideal`
is the symbolic instance: a message *is* what it was made from, reading it
succeeds exactly for whom it was made, and the two keys of a handshake are
named by its transcript. Ephemeral keys are drawn from a counter, so that
different runs have different transcripts and with them different keys.
-/

namespace EasyTun.Lib.NoiseIK

/-- A static public key. -/
abbrev PublicKey := ByteArr 32

/-- The first message of a handshake: who made it, for whom, with which
ephemeral key. -/
structure First where
  initiator : PublicKey
  responder : PublicKey
  eph : Nat
  deriving DecidableEq

/-- A completed handshake: the first message and the responder's ephemeral
key. -/
structure Transcript where
  first : First
  eph : Nat
  deriving DecidableEq

/-- Two public keys, for instances. -/
def samplePub : PublicKey := ⟨List.replicate 32 1, rfl⟩

@[inherit_doc samplePub] def samplePub' : PublicKey := ⟨List.replicate 32 2, rfl⟩

/-- A completed handshake that the owner of the first one has begun. -/
def sampleTranscript : Transcript := ⟨⟨samplePub, samplePub', 0⟩, 1⟩

/-- The two cipher states of `Split`, in the order it returns them. -/
inductive Half where
  | cs1
  | cs2
  deriving DecidableEq

/-- A transport key. -/
structure Key where
  transcript : Transcript
  half : Half
  deriving DecidableEq

/-- The library on messages of type `D`. -/
structure Ops (D : Type) where
  len : D → Nat
  writeFirst : First → D
  /-- A responder's `ReadMessage` in a state with this static key. -/
  readFirst : PublicKey → D → Option First
  writeReply : Transcript → D
  /-- An initiator's `ReadMessage` in the state that wrote this first message. -/
  readReply : First → D → Option Transcript

/-- Symbolic messages: the two handshake messages, and any other byte string. -/
inductive Msg where
  | first (m : First)
  | reply (t : Transcript)
  | other (len : Nat)
  deriving DecidableEq

/-- Not a handshake message. -/
def Msg.isOther : Msg → Bool
  | .other _ => true
  | _ => false

/-- The ideal library: 96-byte first messages readable by their responder,
48-byte replies readable in the state they answer, and nothing else. -/
def ideal : Ops Msg where
  len
    | .first _ => 96
    | .reply _ => 48
    | .other n => n
  writeFirst := .first
  readFirst pk
    | .first m => if m.responder = pk then some m else none
    | _ => none
  writeReply := .reply
  readReply m
    | .reply t => if t.first = m then some t else none
    | _ => none

@[simp] theorem ideal_len_first (m : First) : ideal.len (.first m) = 96 := rfl

@[simp] theorem ideal_len_reply (t : Transcript) : ideal.len (.reply t) = 48 := rfl

/-- A responder reads exactly the first messages made for its key. -/
theorem ideal_readFirst_eq_some {pk : PublicKey} {d : Msg} {m : First} :
    ideal.readFirst pk d = some m ↔ d = .first m ∧ m.responder = pk := by
  cases d with
  | first m' =>
    show (if m'.responder = pk then some m' else none) = some m ↔ _
    constructor
    · intro h
      split at h
      · next hr =>
        cases h
        exact ⟨rfl, hr⟩
      · cases h
    · rintro ⟨h, hr⟩
      cases h
      rw [if_pos hr]
  | reply t => exact ⟨fun h => (nomatch h), fun h => (nomatch h.1)⟩
  | other n => exact ⟨fun h => (nomatch h), fun h => (nomatch h.1)⟩

/-- An initiator reads exactly the replies to its own first message. -/
theorem ideal_readReply_eq_some {m : First} {d : Msg} {t : Transcript} :
    ideal.readReply m d = some t ↔ d = .reply t ∧ t.first = m := by
  cases d with
  | reply t' =>
    show (if t'.first = m then some t' else none) = some t ↔ _
    constructor
    · intro h
      split at h
      · next hr =>
        cases h
        exact ⟨rfl, hr⟩
      · cases h
    · rintro ⟨h, hr⟩
      cases h
      rw [if_pos hr]
  | first m' => exact ⟨fun h => (nomatch h), fun h => (nomatch h.1)⟩
  | other n => exact ⟨fun h => (nomatch h), fun h => (nomatch h.1)⟩

end EasyTun.Lib.NoiseIK
