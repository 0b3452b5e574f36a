import EasyTun.Transport.Addresses
import EasyTun.Transport.Buffers

/-!
# Whom a broadcast reaches (`server_hub.go`, `server_udp.go`)

A routing snapshot holds its clients twice: in a map, for packets to one address, and in
a slice, which the broadcast loop of `writeUdpPacket` runs through. `addClient` and
`removeClient` rebuild both from the map of the snapshot before. `removeClient` leaves
the same entry out of both. `addClient` replaces an entry in the map, but to the slice it
only appends: a client that is replaced stays there until the next change.

- `RouterSnapshot.addClient_perm_iff`: after `addClient` **the slice lists the values of
  the map exactly if the address was not mapped**.
- `RouterSnapshot.broadcast_reaches`: when addresses are mapped one client at a time, a
  broadcast goes once to each routed entry and to nobody else.
- `RouterSnapshot.broadcast_reaches_replaced`: a client that comes back between the two
  sections of its old connection's end maps an address that is mapped.
-/

namespace EasyTun.Transport

open EasyTun.Lib EasyTun.Util EasyTun.Protocol

namespace RouterSnapshot

/-! ## Sequences of calls -/

/-- The calls that change the router. -/
inductive Act where
  | addClient (virtualIp : IP) (client : ConnId)
  | removeClient (virtualIp : IP)

/-- The router after a call. -/
def step (r : RouterSnapshot) : Act → Option RouterSnapshot
  | .addClient virtualIp client => some (r.addClient virtualIp client)
  | .removeClient virtualIp => some (r.removeClient virtualIp)

/-- All sequences of calls, from the table of `NewHub` on. -/
def machine : Machine RouterSnapshot Act := { init := .empty, step := step }

/-- `addClient` is called for an address that is not mapped. -/
def Unmapped (r : RouterSnapshot) : Act → Prop
  | .addClient virtualIp _ => ipToKey virtualIp ∉ r.clientMap
  | .removeClient _ => True

instance (r : RouterSnapshot) : (a : Act) → Decidable (Unmapped r a)
  | .addClient virtualIp _ => inferInstanceAs (Decidable (ipToKey virtualIp ∉ r.clientMap))
  | .removeClient _ => inferInstanceAs (Decidable True)

/-- The table of the server is made by such a sequence. -/
theorem reach_of_hub {retentionTime : Int} {h : Hub} (hr : (Hub.machine retentionTime).Reach h) :
    machine.Reach h.router := by
  refine hr.invariant (P := fun h => machine.Reach h.router) ?_ ?_
  · exact Machine.ReachVia.init
  · intro h h' a hreach hs
    rcases Hub.router_of_step hs with ⟨c, -, hrouter⟩ | ⟨c, -, hrouter⟩ | ⟨-, hrouter⟩
    · rw [hrouter]
      exact Machine.Reach.step (a := Act.addClient (h.conn c).client.virtualIp c) hreach rfl
    · rw [hrouter]
      exact Machine.Reach.step (a := Act.removeClient (h.conn c).client.virtualIp) hreach rfl
    · rw [hrouter]
      exact hreach

/-! ## The slice and the map -/

theorem length_values (m : Map (ByteArr 4) ConnId) : (values m).length = m.keys.length := by
  rw [values, List.length_map, AList.keys, List.keys, List.length_map]

/-- A value is one that a lookup finds. -/
theorem mem_values {m : Map (ByteArr 4) ConnId} {c : ConnId} :
    c ∈ values m ↔ ∃ v, m.lookup v = some c := by
  constructor
  · intro hc
    obtain ⟨⟨v, c'⟩, hmem, rfl⟩ := List.mem_map.mp hc
    exact ⟨v, Map.lookup_eq_some.mpr hmem⟩
  · rintro ⟨v, hv⟩
    exact List.mem_map_of_mem (f := fun e => e.2) (Map.lookup_eq_some.mp hv)

variable {r : RouterSnapshot} {virtualIp : IP} {client : ConnId}

/-- **The slice after `addClient`**: it lists the values of the map exactly if nothing was
replaced there. -/
theorem addClient_perm_iff :
    (r.addClient virtualIp client).clientSlice.Perm
        (values (r.addClient virtualIp client).clientMap) ↔
      ipToKey virtualIp ∉ r.clientMap := by
  constructor
  · -- a replacement makes the slice one longer than the map
    intro hperm hmem
    have hlen : (values r.clientMap ++ [client]).length =
        (values (r.clientMap.insert (ipToKey virtualIp) client)).length := hperm.length_eq
    rw [List.length_append, length_values, length_values, Map.length_keys_insert hmem] at hlen
    exact Nat.succ_ne_self _ hlen
  · intro hnew
    have hvalues : values (r.clientMap.insert (ipToKey virtualIp) client) =
        client :: values r.clientMap := by
      rw [values, AList.entries_insert_of_notMem hnew]
      rfl
    show (values r.clientMap ++ [client]).Perm (values (r.clientMap.insert _ client))
    rw [hvalues]
    exact List.perm_append_singleton client _

/-- `removeClient` rebuilds the slice from the map, or leaves both alone. -/
theorem removeClient_perm (h : r.clientSlice.Perm (values r.clientMap)) :
    (r.removeClient virtualIp).clientSlice.Perm (values (r.removeClient virtualIp).clientMap) := by
  unfold removeClient
  split
  · exact h
  · exact List.Perm.refl _

theorem clientSlice_perm (hr : machine.ReachVia Unmapped r) :
    r.clientSlice.Perm (values r.clientMap) := by
  refine hr.invariant (P := fun r => r.clientSlice.Perm (values r.clientMap)) ?_ ?_
  · exact List.Perm.refl _
  · intro r r' a _ hperm hok hs
    cases a with
    | addClient virtualIp client =>
      cases hs
      exact addClient_perm_iff.mpr hok
    | removeClient virtualIp =>
      cases hs
      exact removeClient_perm hperm

/-! ## The broadcast loop -/

/-- What the loop makes of one client (server_udp.go:236–247): nothing, if it has no valid
address. -/
def toClient (s : Buffers.State) (p : Buffers.Parcel) (c : ConnId) : Option Buffers.Message :=
  if (s.clients.dataAddr c).isValid then
    some ⟨(s.packets p.packet).data, s.clients.dataAddr c, p.origin⟩
  else none

/-- The loop runs through the slice. -/
theorem messages_of_broadcast {s : Buffers.State} {p : Buffers.Parcel}
    (hb : (s.packets p.packet).broadcast = true) :
    Buffers.messages s p = s.clients.router.clientSlice.filterMap (toClient s p) :=
  if_pos hb

/-- **A broadcast reaches the routed clients**, when `addClient` is only called for
addresses that are not mapped: the slice is a permutation of the values of the map, so
the broadcast loop visits each entry once and no client without a route. -/
theorem broadcast_reaches (hr : machine.ReachVia Unmapped r) :
    r.clientSlice.Perm (values r.clientMap) ∧
    (∀ c, c ∈ r.clientSlice ↔ ∃ v, r.clientMap.lookup v = some c) ∧
    ∀ (s : Buffers.State) (p : Buffers.Parcel), s.clients.router = r →
      (s.packets p.packet).broadcast = true →
      (Buffers.messages s p).Perm
        (r.clientMap.entries.filterMap fun entry => toClient s p entry.2) := by
  have hperm := clientSlice_perm hr
  refine ⟨hperm, ?_, ?_⟩
  · intro c
    rw [hperm.mem_iff, mem_values]
  · rintro s p rfl hb
    rw [messages_of_broadcast hb]
    have hmap := hperm.filterMap (toClient s p)
    rw [values, List.filterMap_map] at hmap
    exact hmap

/-- Three clients get an address each and one of them leaves. -/
theorem broadcast_reaches_two :
    ∃ r, machine.ReachVia Unmapped r ∧ r.clientSlice.length = 2 ∧
      r.clientSlice.Perm (values r.clientMap) := by
  obtain ⟨r, hr, hlen⟩ : ∃ r, machine.ReachVia Unmapped r ∧ r.clientSlice.length = 2 :=
    Machine.exists_reachVia
      [.addClient (some (Hub.hostIp 2)) 0, .addClient (some (Hub.hostIp 3)) 1,
        .addClient (some (Hub.hostIp 4)) 2, .removeClient (some (Hub.hostIp 3))] (by decide)
  exact ⟨r, hr, hlen, (broadcast_reaches hr).1⟩

/-- **A broadcast can reach a client without a route.** The connection of a client ends.
Its address is retained, and before its route is removed the client comes back and gets
the address again. The old connection has no route any more and is still in the slice. -/
theorem broadcast_reaches_replaced :
    ∃ h, (Hub.machine 300).Reach h ∧ machine.Reach h.router ∧
      ¬h.router.clientSlice.Perm (values h.router.clientMap) ∧
      0 ∈ h.router.clientSlice ∧ ¬∃ v, h.router.clientMap.lookup v = some 0 := by
  obtain ⟨h, hr, hslice, hvalues⟩ : ∃ h, (Hub.machine 300).Reach h ∧
      (h.router.clientSlice = [0, 1] ∧ values h.router.clientMap = [1]) :=
    Machine.exists_reach
      ([.accept] ++ Hub.handshake 0 (Hub.hello 3 7) ++
        [.cancel 0, .disconnect 0, .retain 0, .accept] ++ Hub.handshake 1 (Hub.hello 3 7))
      (by decide +kernel)
  refine ⟨h, hr, reach_of_hub hr, ?_, ?_, ?_⟩
  · rw [hslice, hvalues]
    decide
  · rw [hslice]
    decide
  · rw [← mem_values, hvalues]
    decide

end RouterSnapshot

end EasyTun.Transport
