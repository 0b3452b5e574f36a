import Mathlib.Tactic.Common
import EasyTun.Transport.Binding

/-!
# One handshake on a connection

The client sends one handshake on a connection (`handshake` in `client_control.go`), with its
NAT type, its public key, its identity and the name it would like to have. The server takes
these into the fields of its `Client`, one after the other, and reads the fields from several
goroutines without a lock.

- `Conn.Enrolls`: what the server knows about a connection comes from its handshake.
- `client_of_step`: **from the moment a connection has an address, no step changes its
  `Client`**, if a connection that has one sends no further handshake.
- `Names`: a routing table, the current one or an older snapshot, leads to connections that
  have the address. It stays true of every snapshot.
-/

namespace EasyTun.Transport

open EasyTun.Lib EasyTun.Util

/-! ## What a connection has sent -/

/-- The client's fields are those of the payload. -/
structure Client.Presents (c : Client) (payload : Bytes) : Prop where
  natType : c.natType = payload.getD 0 0
  noisePublicKey : c.noisePublicKey = .ofBytes 32 (payload.drop 1)
  clientID : c.clientID = .ofBytes 16 (payload.drop 33)

namespace Conn

/-- The connection gets an address from the handshake it has sent. -/
structure Enrolls (hello : Option Bytes) (k : Conn) : Prop where
  loaded : ∀ payload dnsMap, k.pump = .loaded payload dnsMap →
    k.client.virtualIp = none ∧ hello = some payload
  identified : ∀ payload dnsMap, k.pump = .identified payload dnsMap →
    k.client.virtualIp = none ∧ hello = some payload ∧ k.client.Presents payload
  assigned : k.pump = .assigned ∨ k.pump = .routed → k.client.virtualIp ≠ none
  presents : k.client.virtualIp ≠ none → ∃ payload, hello = some payload ∧ k.client.Presents payload

variable {hello : Option Bytes} {k k' : Conn}

namespace Enrolls

/-- A connection that waits for its handshake. -/
theorem of_none (hpump : k.pump.isQuiet = true) (hvip : k.client.virtualIp = none) :
    k.Enrolls hello where
  loaded payload dnsMap heq := by
    rw [heq] at hpump
    cases hpump
  identified payload dnsMap heq := by
    rw [heq] at hpump
    cases hpump
  assigned heq := by
    rcases heq with heq | heq <;> (rw [heq] at hpump; cases hpump)
  presents hne := absurd hvip hne

/-- Outside of the first half of a handshake only the client counts. -/
theorem keep (hk : k.Enrolls hello) (hclient : k'.client = k.client)
    (hpump : k'.pump.isQuiet = true) : k'.Enrolls hello where
  loaded payload dnsMap heq := by
    rw [heq] at hpump
    cases hpump
  identified payload dnsMap heq := by
    rw [heq] at hpump
    cases hpump
  assigned heq := by
    rcases heq with heq | heq <;> (rw [heq] at hpump; cases hpump)
  presents hne := by
    rw [hclient] at hne ⊢
    exact hk.presents hne

theorem same (hk : k.Enrolls hello) (hclient : k'.client = k.client) (hpump : k'.pump = k.pump) :
    k'.Enrolls hello where
  loaded := by
    rw [hclient, hpump]
    exact hk.loaded
  identified := by
    rw [hclient, hpump]
    exact hk.identified
  assigned := by
    rw [hclient, hpump]
    exact hk.assigned
  presents := by
    rw [hclient]
    exact hk.presents

theorem load (payload : Bytes) (dnsMap : Map Bytes IP) (hvip : k.client.virtualIp = none)
    (hlen : ¬ payload.length < 49) : (k.load payload dnsMap).Enrolls (some payload) := by
  unfold Conn.load
  rw [if_neg hlen]
  constructor
  · intro payload' dnsMap' heq
    cases heq
    exact ⟨hvip, rfl⟩
  · intro payload' dnsMap' heq
    cases heq
  · intro heq
    rcases heq with heq | heq <;> cases heq
  · intro hne
    exact absurd hvip hne

theorem identify {payload : Bytes} {dnsMap : Map Bytes IP} (hk : k.Enrolls hello)
    (hpump : k.pump = .loaded payload dnsMap) : (k.identify payload dnsMap).Enrolls hello := by
  obtain ⟨hvip, hhello⟩ := hk.loaded payload dnsMap hpump
  constructor
  · intro payload' dnsMap' heq
    cases heq
  · intro payload' dnsMap' heq
    cases heq
    exact ⟨hvip, hhello, rfl, rfl, rfl⟩
  · intro heq
    rcases heq with heq | heq <;> cases heq
  · intro hne
    exact absurd hvip hne

theorem assign {payload : Bytes} {dnsMap : Map Bytes IP} (hk : k.Enrolls hello)
    (hpump : k.pump = .identified payload dnsMap) (virtualIp : IP) (hostname : Bytes) :
    (k.assign virtualIp hostname).Enrolls hello := by
  obtain ⟨-, hhello, hpresents⟩ := hk.identified payload dnsMap hpump
  unfold Conn.assign
  cases virtualIp with
  | none => exact of_none rfl rfl
  | some v =>
    constructor
    · intro payload' dnsMap' heq
      cases heq
    · intro payload' dnsMap' heq
      cases heq
    · intro _ hnone
      cases hnone
    · intro _
      exact ⟨payload, hhello, hpresents.natType, hpresents.noisePublicKey, hpresents.clientID⟩

theorem addClient (hk : k.Enrolls hello) (hpump : k.pump = .assigned) :
    { k with pump := .routed }.Enrolls hello := by
  constructor
  · intro payload' dnsMap' heq
    cases heq
  · intro payload' dnsMap' heq
    cases heq
  · intro _
    exact hk.assigned (Or.inl hpump)
  · exact hk.presents

end Enrolls

end Conn

namespace Hub

variable {retentionTime : Int} {h h' : Hub} {a : Act} {c : ConnId} {hello : ConnId → Option Bytes}

/-- A connection that has an address sends no further handshake. -/
def HelloOk (h : Hub) : Act → Prop
  | .load c _ => (h.client c).virtualIp = none
  | _ => True

instance (h : Hub) : (a : Act) → Decidable (HelloOk h a)
  | .load c _ => inferInstanceAs (Decidable ((h.client c).virtualIp = none))
  | .accept | .cancel _ | .quit _ | .identify _ | .assign _ | .addClient _ | .finish _
  | .disconnect _ | .retain _ | .removeClient _ | .tick _ | .wake | .lock | .sweep _ | .unlock =>
    inferInstanceAs (Decidable True)

/-- The handshakes after a step; one that is too short is refused. -/
def noteHello (hello : ConnId → Option Bytes) : Act → ConnId → Option Bytes
  | .load c payload => if payload.length < 49 then hello else Function.update hello c (some payload)
  | _ => hello

def Enrolling (h : Hub) (hello : ConnId → Option Bytes) : Prop :=
  ∀ c, (h.conn c).Enrolls (hello c)

theorem enrolling_newHub : newHub.Enrolling fun _ => none :=
  fun _ => .of_none rfl rfl

/-- A step that changes one connection. -/
theorem Enrolling.update (hE : h.Enrolling hello) {k : Conn}
    (hconn : h'.conn = Function.update h.conn c k) (hk : k.Enrolls (hello c)) :
    h'.Enrolling hello := by
  intro c'
  rw [hconn]
  by_cases hc : c' = c
  · subst hc
    rw [Function.update_self]
    exact hk
  · rw [Function.update_of_ne hc]
    exact hE c'

/-- A handshake begins. -/
theorem Enrolling.load (hE : h.Enrolling hello) (payload : Bytes) (dnsMap : Map Bytes IP)
    (hvip : (h.client c).virtualIp = none)
    (hconn : h'.conn = Function.update h.conn c ((h.conn c).load payload dnsMap)) :
    h'.Enrolling (noteHello hello (.load c payload)) := by
  by_cases hlen : payload.length < 49
  · simp only [noteHello, if_pos hlen]
    refine hE.update hconn (.of_none ?_ ?_)
    · unfold Conn.load
      rw [if_pos hlen]
      rfl
    · unfold Conn.load
      rw [if_pos hlen]
      exact hvip
  · simp only [noteHello, if_neg hlen]
    intro c'
    rw [hconn]
    by_cases hc : c' = c
    · subst hc
      rw [Function.update_self, Function.update_self]
      exact .load payload dnsMap hvip hlen
    · rw [Function.update_of_ne hc, Function.update_of_ne hc]
      exact hE c'

theorem enrolling_step (hE : h.Enrolling hello) (hok : HelloOk h a)
    (hs : step retentionTime h a = some h') : h'.Enrolling (noteHello hello a) := by
  cases does_of_step hs with
  | accept => exact hE.update rfl (.of_none rfl rfl)
  | @cancel c _ => exact hE.update rfl ((hE c).same rfl rfl)
  | @quit c _ => exact hE.update rfl ((hE c).keep rfl rfl)
  | load payload _ => exact hE.load payload h.dnsMap hok rfl
  | @identify c _ _ hpump => exact hE.update rfl ((hE c).identify hpump)
  | @assign c _ _ hpump _ =>
    obtain ⟨⟨hostname, hconn⟩, -, -⟩ := assign_frame _ _
    exact hE.update hconn ((hE c).assign hpump _ hostname)
  | @addClient c hpump => exact hE.update rfl ((hE c).addClient hpump)
  | @finish c _ =>
    refine hE.update rfl ((hE c).keep rfl ?_)
    show (if (h.conn c).cancelled then Pump.exited none else .idle).isQuiet = true
    split <;> rfl
  | @disconnect c _ _ => exact hE.update rfl ((hE c).same rfl rfl)
  | @retain c _ _ => exact hE.update rfl ((hE c).same rfl rfl)
  | @removeClient c _ => exact hE.update rfl ((hE c).same rfl rfl)
  | sweep _ _ =>
    obtain ⟨hconn, -, -⟩ := sweepEntry_frame _ _
    intro c
    rw [show _ = h.conn from hconn]
    exact hE c
  | tick _ | wake _ | lock _ | unlock _ => exact hE

/-! ## The client of a connection that has an address -/

/-- The two states agree on the clients that have an address. -/
def Settles (h h' : Hub) : Prop :=
  ∀ c v, (h.client c).virtualIp = some v → h'.client c = h.client c

theorem settles_update {k : Conn} (hconn : h'.conn = Function.update h.conn c k)
    (hk : (h.client c).virtualIp ≠ none → k.client = h.client c) : Settles h h' := by
  intro c' v hv
  unfold client at hv hk ⊢
  rw [hconn]
  by_cases hc : c' = c
  · subst hc
    rw [Function.update_self]
    exact hk (by rw [hv]; exact Option.some_ne_none v)
  · rw [Function.update_of_ne hc]

/-- **No step changes the client of a connection that has an address.** -/
theorem client_of_step (hE : h.Enrolling hello) (hf : h.Fresh)
    (hs : step retentionTime h a = some h') : Settles h h' := by
  cases does_of_step hs with
  | accept =>
    refine settles_update rfl fun hne => absurd ?_ hne
    show (h.conn h.next).client.virtualIp = none
    rw [hf _ (Nat.le_refl _)]
    rfl
  | cancel _ | quit _ | addClient _ | finish _ | disconnect _ _ | retain _ _ | removeClient _ =>
    exact settles_update rfl fun _ => rfl
  | @load c payload _ =>
    refine settles_update rfl fun _ => ?_
    show ((h.conn c).load payload h.dnsMap).client = (h.conn c).client
    unfold Conn.load
    split <;> rfl
  | @identify c payload dnsMap hpump =>
    exact settles_update rfl fun hne => absurd ((hE c).loaded _ _ hpump).1 hne
  | @assign c payload dnsMap hpump _ =>
    obtain ⟨⟨hostname, hconn⟩, -, -⟩ := assign_frame payload dnsMap
    exact settles_update hconn fun hne => absurd ((hE c).identified _ _ hpump).1 hne
  | sweep _ _ =>
    obtain ⟨hconn, -, -⟩ := sweepEntry_frame _ _
    intro c v _
    unfold client
    rw [show _ = h.conn from hconn]
  | tick _ | wake _ | lock _ | unlock _ => exact fun _ _ _ => rfl

/-! ## Routing tables -/

/-- The table leads to connections that have the address. -/
def Names (h : Hub) (clientMap : Map (ByteArr 4) ConnId) : Prop :=
  ∀ v c, clientMap.lookup v = some c → (h.client c).virtualIp = some v

theorem Names.mono {clientMap : Map (ByteArr 4) ConnId} (hN : h.Names clientMap)
    (hsettles : Settles h h') : h'.Names clientMap := by
  intro v c hc
  have hv := hN v c hc
  rw [hsettles c v hv]
  exact hv

theorem names_step (hE : h.Enrolling hello) (hf : h.Fresh) (hN : h.Names h.router.clientMap)
    (hs : step retentionTime h a = some h') : h'.Names h'.router.clientMap := by
  have hsettles := client_of_step hE hf hs
  rcases router_of_step hs with ⟨c, rfl, hrouter⟩ | ⟨c, -, hrouter⟩ | ⟨-, hrouter⟩
  · -- the new entry is under the address that the handshake has assigned
    intro v c' hc'
    rw [hrouter, RouterSnapshot.lookup_addClient] at hc'
    split at hc'
    · next hv =>
      cases hc'
      cases does_of_step hs with
      | addClient hpump =>
        obtain ⟨w, hw⟩ := Option.ne_none_iff_exists'.mp ((hE c).assigned (Or.inl hpump))
        rw [hw, ipToKey_some] at hv
        rw [hsettles c w hw, hv]
        exact hw
    · exact hN.mono hsettles v c' hc'
  · intro v c' hc'
    rw [hrouter, RouterSnapshot.lookup_removeClient] at hc'
    split at hc'
    · cases hc'
    · exact hN.mono hsettles v c' hc'
  · rw [hrouter]
    exact hN.mono hsettles

end Hub

end EasyTun.Transport
