import Mathlib.Data.List.Basic
import Mathlib.Logic.Function.Basic
import EasyTun.Lib.Machine

/-!
# Nodes that exchange datagrams

Any number of nodes run a protocol and send each other datagrams through a network that
loses, repeats, delays and reorders them. A node is not told who sent what it gets. It sees
a source address, which address translation has chosen, possibly another one for every
destination; but what is sent to that address goes back to the same node.

- `Topology`: addresses and the nodes behind them.
- `Protocol`: what a node does by itself, what it does with a datagram, and what it has sent.
- `Network.machine`: **any datagram that was ever sent may arrive, any number of times**, at the
  node behind its destination, if there is one.
- `Network.nodes`: what every node keeps by itself holds everywhere.
- `Network.records`: what a node has noted when a datagram came in stays true, if it follows
  from what was sent.
-/

namespace EasyTun.Lib

/-- Addresses: the source that node `i` shows at a destination, and the node that gets what
is sent to an address. -/
structure Topology (ι κ : Type) where
  seen : ι → κ → κ
  owner : κ → Option ι
  owner_seen : ∀ i dst, owner (seen i dst) = some i

/-- What runs on every node. `sent` is everything a node has sent so far, with the
destinations. -/
structure Protocol (ι κ μ σ α : Type) where
  init : ι → σ
  step : ι → σ → α → Option σ
  receive : ι → σ → κ → μ → σ
  sent : ι → σ → List (κ × μ)

/-- What was sent stays sent. -/
structure Protocol.Monotone {ι κ μ σ α : Type} (P : Protocol ι κ μ σ α) : Prop where
  step : ∀ {i s s' a}, P.step i s a = some s' → P.sent i s ⊆ P.sent i s'
  receive : ∀ i s addr m, P.sent i s ⊆ P.sent i (P.receive i s addr m)

namespace Network

variable {ι κ μ σ α : Type} [DecidableEq ι]

/-- Every node has sent at least what it had sent before. -/
def SentLe {ι κ μ σ α : Type} (P : Protocol ι κ μ σ α) (w w' : ι → σ) : Prop :=
  ∀ i, P.sent i (w i) ⊆ P.sent i (w' i)

/-- A change of one node that adds to what it has sent. -/
theorem sentLe_update {P : Protocol ι κ μ σ α} {w : ι → σ} {i : ι} {s : σ}
    (h : P.sent i (w i) ⊆ P.sent i s) : SentLe P w (Function.update w i s) := by
  intro k
  by_cases hk : k = i
  · subst hk
    rwa [Function.update_self]
  · rw [Function.update_of_ne hk]
    exact List.Subset.refl _

variable [DecidableEq κ] [DecidableEq μ]

/-- The steps: messages are delivered in any order, any number of times, or never. -/
inductive Act (ι κ μ α : Type) where
  /-- A node makes a step of its own. -/
  | act (i : ι) (a : α)
  /-- What node `i` has sent to `dst` arrives at node `j`. -/
  | deliver (i j : ι) (dst : κ) (m : μ)

variable (P : Protocol ι κ μ σ α) (T : Topology ι κ)

/-- One node changes at a time. -/
def step (w : ι → σ) : Act ι κ μ α → Option (ι → σ)
  | .act i a => (P.step i (w i) a).map (Function.update w i)
  | .deliver i j dst m =>
    guardTo ((dst, m) ∈ P.sent i (w i) ∧ T.owner dst = some j)
      (Function.update w j (P.receive j (w j) (T.seen i dst) m))

/-- The protocol over the network. -/
def machine : Machine (ι → σ) (Act ι κ μ α) := { init := P.init, step := step P T }

/-- The steps, with what they need. -/
inductive Does (w : ι → σ) : Act ι κ μ α → (ι → σ) → Prop where
  | act {i : ι} {a : α} {s : σ} (hs : P.step i (w i) a = some s) :
      Does w (.act i a) (Function.update w i s)
  | deliver {i j : ι} {dst : κ} {m : μ} (hsent : (dst, m) ∈ P.sent i (w i))
      (howner : T.owner dst = some j) :
      Does w (.deliver i j dst m) (Function.update w j (P.receive j (w j) (T.seen i dst) m))

variable {P T} {w w' : ι → σ} {a : Act ι κ μ α}

theorem does_of_step (hs : step P T w a = some w') : Does P T w a w' := by
  cases a with
  | act i a =>
    obtain ⟨s, hact, rfl⟩ := Option.map_eq_some_iff.mp hs
    exact .act hact
  | deliver i j dst m =>
    obtain ⟨⟨hsent, howner⟩, rfl⟩ := guardTo_eq_some.mp hs
    exact .deliver hsent howner

/-- **What every node keeps by itself**, with whatever datagrams come in. -/
theorem nodes {I : ι → σ → Prop} (hr : (machine P T).Reach w) (hinit : ∀ i, I i (P.init i))
    (hstep : ∀ {i s s' a}, I i s → P.step i s a = some s' → I i s')
    (hreceive : ∀ {i s} addr m, I i s → I i (P.receive i s addr m)) (i : ι) : I i (w i) := by
  refine Machine.Reach.invariant (P := fun w => ∀ i, I i (w i)) hr hinit ?_ i
  intro w w' a hw hs k
  cases does_of_step hs with
  | @act i a s hact =>
    by_cases hk : k = i
    · subst hk
      rw [Function.update_self]
      exact hstep (hw k) hact
    · rw [Function.update_of_ne hk]
      exact hw k
  | @deliver i j dst m hsent howner =>
    by_cases hk : k = j
    · subst hk
      rw [Function.update_self]
      exact hreceive _ m (hw k)
    · rw [Function.update_of_ne hk]
      exact hw k

theorem sentLe_of_step (hP : P.Monotone) (hs : step P T w a = some w') : SentLe P w w' := by
  cases does_of_step hs with
  | act hact => exact sentLe_update (hP.step hact)
  | deliver => exact sentLe_update (hP.receive ..)

/-- **What the nodes have noted stays true.** `log` is what a node has noted, `R w j r` what the
note `r` of node `j` says about the network. A note is made when a datagram comes in, and says
something that follows from what was sent. -/
theorem records {ρ : Type} (hP : P.Monotone) (log : σ → List ρ) {R : (ι → σ) → ι → ρ → Prop}
    (hinit : ∀ i, log (P.init i) = [])
    (hmono : ∀ {w w' j r}, SentLe P w w' → R w j r → R w' j r)
    (hstep : ∀ {i s s' a}, P.step i s a = some s' → log s' ⊆ log s)
    (hreceive : ∀ {w i j dst m}, (machine P T).Reach w → (dst, m) ∈ P.sent i (w i) →
      T.owner dst = some j →
      ∀ r ∈ log (P.receive j (w j) (T.seen i dst) m), r ∈ log (w j) ∨ R w j r)
    (hr : (machine P T).Reach w) : ∀ j, ∀ r ∈ log (w j), R w j r := by
  refine Machine.ReachVia.invariant (P := fun w => ∀ j, ∀ r ∈ log (w j), R w j r) hr ?_ ?_
  · intro j r hmem
    rw [show log ((machine P T).init j) = [] from hinit j] at hmem
    cases hmem
  · intro w w' a hreach hw _ hs k r hmem
    have hle : SentLe P w w' := sentLe_of_step hP hs
    cases does_of_step hs with
    | @act i a s hact =>
      refine hmono hle (hw k r ?_)
      by_cases hk : k = i
      · subst hk
        rw [Function.update_self] at hmem
        exact hstep hact hmem
      · rwa [Function.update_of_ne hk] at hmem
    | @deliver i j dst m hsent howner =>
      by_cases hk : k = j
      · subst hk
        rw [Function.update_self] at hmem
        obtain hold | hnew := hreceive hreach hsent howner r hmem
        · exact hmono hle (hw k r hold)
        · exact hmono hle hnew
      · rw [Function.update_of_ne hk] at hmem
        exact hmono hle (hw k r hmem)

end Network

end EasyTun.Lib
