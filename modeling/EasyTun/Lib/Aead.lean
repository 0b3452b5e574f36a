import EasyTun.Lib.Bytes

/-!
# Authenticated encryption with associated data

`Aead K` is the interface of Go's `cipher.AEAD` with the key made explicit: the
two methods `Seal` and `Open`. The development is parametric in it and uses it
only through these laws.

- `Aead.Correct`: `Open` undoes `Seal` for equal key, nonce and associated data.
- `Aead.Tagged t`: a ciphertext is `t` bytes longer than its plaintext.
- `Aead.Authentic k log`: the ideal integrity of one key: `Open` succeeds only
  on what was sealed, for the `log` of the `Seal` calls made under that key.
  `Aead.Ideal k log`: it succeeds exactly on that.

`Aead.restrict` cuts the `Open` of a cipher down to a log, which makes the key
ideal without touching `Seal`; `Aead.comap` names the keys of a cipher.
-/

namespace EasyTun.Lib

/-- `cipher.AEAD`, keyed: `sealed k nonce plaintext ad` and
`opened k nonce ciphertext ad`. -/
structure Aead (K : Type) where
  sealed : K → Bytes → Bytes → Bytes → Bytes
  opened : K → Bytes → Bytes → Bytes → Option Bytes

/-- The arguments of one `Seal` call under a known key. -/
structure SealArgs where
  nonce : Bytes
  plaintext : Bytes
  ad : Bytes
  deriving DecidableEq

namespace Aead

variable {K : Type} (A : Aead K)

/-- `Open` undoes `Seal`. -/
def Correct : Prop :=
  ∀ k n p ad, A.opened k n (A.sealed k n p ad) ad = some p

/-- Sealing adds a tag of `t` bytes. -/
def Tagged (t : Nat) : Prop :=
  ∀ k n p ad, (A.sealed k n p ad).length = p.length + t

/-- `Open` under `k` succeeds only on the ciphertexts of the logged calls, and
gives back what was sealed. -/
def Authentic (k : K) (log : List SealArgs) : Prop :=
  ∀ n c ad p, A.opened k n c ad = some p →
    ⟨n, p, ad⟩ ∈ log ∧ c = A.sealed k n p ad

/-- `Open` under `k` succeeds exactly on the ciphertexts of the logged calls. -/
def Ideal (k : K) (log : List SealArgs) : Prop :=
  ∀ n c ad p, A.opened k n c ad = some p ↔ ⟨n, p, ad⟩ ∈ log ∧ c = A.sealed k n p ad

theorem Ideal.authentic {A : Aead K} {k : K} {log : List SealArgs} (h : A.Ideal k log) :
    A.Authentic k log :=
  fun n c ad p => (h n c ad p).mp

/-- The cipher on keys that name keys of `A`. -/
def comap {J : Type} (f : J → K) : Aead J where
  sealed j := A.sealed (f j)
  opened j := A.opened (f j)

/-- The same cipher with `Open` limited to a log. -/
def restrict (log : List SealArgs) : Aead K where
  sealed := A.sealed
  opened k n c ad :=
    match log.find? fun e => e.nonce = n ∧ e.ad = ad ∧ A.sealed k n e.plaintext ad = c with
    | some e => some e.plaintext
    | none => none

/-- Restricting makes every key ideal for that log. -/
theorem restrict_authentic (k : K) (log : List SealArgs) :
    (A.restrict log).Authentic k log := by
  intro n c ad p h
  simp only [restrict] at h
  split at h
  · next e he =>
    cases h
    have hp := List.find?_some he
    simp only [decide_eq_true_eq] at hp
    obtain ⟨rfl, rfl, rfl⟩ := hp
    exact ⟨List.mem_of_find?_eq_some he, rfl⟩
  · cases h

end Aead

end EasyTun.Lib
