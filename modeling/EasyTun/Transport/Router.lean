import EasyTun.Lib.Maps
import EasyTun.Util.IpTransform

/-!
# The routing table of the server (`internal/transport/server_hub.go`)

The server looks clients up by virtual address. The table is a snapshot that
is replaced as a whole: `addClient` and `removeClient` copy it under a lock.
Clients are pointers; here a client is the number of its connection.
-/

namespace EasyTun.Transport

open EasyTun.Lib EasyTun.Util

/-- A connection to the server, and the `Client` object made for it. -/
abbrev ConnId := Nat

/-- `routerSnapshot` (server.go:65–68). -/
structure RouterSnapshot where
  clientMap : Map (ByteArr 4) ConnId
  clientSlice : List ConnId

namespace RouterSnapshot

/-- The empty table of `NewHub` (server_hub.go:48–51). -/
def empty : RouterSnapshot := { clientMap := ∅, clientSlice := [] }

/-- The clients in the order in which a loop over the map visits them. -/
def values (m : Map (ByteArr 4) ConnId) : List ConnId := m.entries.map (·.2)

/-- The snapshot `addClient` stores (server_hub.go:81–101). -/
def addClient (r : RouterSnapshot) (virtualIp : IP) (client : ConnId) : RouterSnapshot :=
  { clientMap := r.clientMap.insert (ipToKey virtualIp) client
    clientSlice := values r.clientMap ++ [client] }

/-- The snapshot after `removeClient` (server_hub.go:104–126). Nothing is stored
when the address has no entry. -/
def removeClient (r : RouterSnapshot) (virtualIp : IP) : RouterSnapshot :=
  if (r.clientMap.lookup (ipToKey virtualIp)).isNone then r
  else
    let newMap := r.clientMap.keepIf fun k _ => k != ipToKey virtualIp
    { clientMap := newMap, clientSlice := values newMap }

variable (r : RouterSnapshot) (virtualIp : IP)

theorem lookup_addClient (client : ConnId) (v : ByteArr 4) :
    (r.addClient virtualIp client).clientMap.lookup v =
      if v = ipToKey virtualIp then some client else r.clientMap.lookup v := by
  split
  · next h =>
    subst h
    exact AList.lookup_insert _
  · next h => exact AList.lookup_insert_ne h

/-- Afterwards the address has no entry, and the others are as before. -/
theorem lookup_removeClient (v : ByteArr 4) :
    (r.removeClient virtualIp).clientMap.lookup v =
      if v = ipToKey virtualIp then none else r.clientMap.lookup v := by
  unfold removeClient
  split
  · next hnone =>
    split
    · next h =>
      subst h
      exact Option.isNone_iff_eq_none.mp hnone
    · rfl
  · show (r.clientMap.keepIf _).lookup v = _
    rw [Map.lookup_keepIf]
    split
    · next h =>
      subst h
      cases r.clientMap.lookup (ipToKey virtualIp) with
      | none => rfl
      | some c => exact Option.filter_some_neg (by simp)
    · next h =>
      cases r.clientMap.lookup v with
      | none => rfl
      | some c => exact Option.filter_some_pos (by simpa using h)

end RouterSnapshot

end EasyTun.Transport
