import EasyTun.Lib.Aead

/-!
# Cipher states (`internal/protocol/cipher.go`)

The direction keys of a session and their counters. The key type is a
parameter: the codec runs on 32-byte keys, the protocol model on the symbolic
keys of an ideal handshake.
-/

namespace EasyTun.Protocol

open EasyTun.Lib

/-- `CipherState`: the key the AEAD was made from, and the send counter. -/
structure CipherState (K : Type) where
  key : K
  nonce : UInt64

/-- `GetNonce` (cipher.go:65–68): one atomic fetch-and-add that hands out the
counter value before the increment. -/
def CipherState.getNonce {K : Type} (cs : CipherState K) : UInt64 × CipherState K :=
  (cs.nonce, { cs with nonce := cs.nonce + 1 })

/-- `CipherInit` / `CipherReady`. -/
inductive CipherStatus where
  | init
  | ready
  deriving DecidableEq, Repr

/-- `Cipher`: nil states until `Init` has run. -/
structure Cipher (K : Type) where
  recver : Option (CipherState K)
  sender : Option (CipherState K)
  status : CipherStatus

namespace Cipher

variable {K : Type}

/-- `NewChaCha` (cipher.go:27–31). -/
def newChaCha : Cipher K := { recver := none, sender := none, status := .init }

/-- `Init` (cipher.go:33–51): both counters start at 0 and the cipher is marked
ready. -/
def init (recvKey sendKey : K) : Cipher K :=
  { recver := some ⟨recvKey, 0⟩, sender := some ⟨sendKey, 0⟩, status := .ready }

/-- `IsReady` (cipher.go:53–59). -/
def isReady (c : Cipher K) : Bool := c.status == .ready

end Cipher

end EasyTun.Protocol
