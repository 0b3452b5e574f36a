import Mathlib.Logic.Function.Basic
import EasyTun.Lib.Bytes
import EasyTun.Lib.Maps
import EasyTun.Util.IpTransform

/-!
# Tunnels between clients (`internal/stun`)

The server keeps a record for each pair of clients that tries to reach each
other directly. A record is handed out as a pointer, and its status and its
counter are changed through it without the table's lock, even when the table has
dropped the record meanwhile. So the manager has a heap of records, and the table
maps the key of a pair to a record.

A client keeps a status for each peer that it may reach directly (`P2PStatus`).
-/

namespace EasyTun.Stun

open EasyTun.Lib EasyTun.Util

/-! ## Kinds of NAT -/

/-- The NAT types (p2p.go:9–14), but for the one that nothing asks for. A client reports its own as
a byte. -/
def typeUnknown : UInt8 := 2
def typeCone : UInt8 := 3
def typeSymmetric : UInt8 := 4

/-! ## Peers of a client -/

/-- `P2PStatus` (client.go:10–15). `α` is what stands for a `*net.UDPAddr`. -/
structure P2PStatus (α : Type) where
  dstNatType : UInt8
  dstAddr : α
  lastSeen : Int
  established : Bool
  deriving DecidableEq

/-- A status as `addP2P` makes it (client_p2p.go:100–101). -/
def P2PStatus.new {α : Type} (dstNatType : UInt8) (dstAddr : α) (now : Int) : P2PStatus α :=
  { dstNatType, dstAddr, lastSeen := now, established := false }

/-- `IsTimeout` (client.go:36–39), for a `LastSeen` that was loaded. -/
def isTimeout (timeout now last : Int) : Bool := now - last > timeout

/-! ## Records -/

/-- The states of a tunnel (server.go:12–16). -/
inductive TunnelStatus where
  | init
  | connected
  | failed
  deriving DecidableEq

/-- `P2PTask` (server.go:19–24). -/
structure P2PTask where
  dstVip : ByteArr 4
  dst : AddrPort
  srcVip : ByteArr 4
  src : AddrPort

/-- `P2PTunnel` (server.go:26–32). -/
structure P2PTunnel where
  a : ByteArr 4
  b : ByteArr 4
  status : TunnelStatus
  retryTimes : UInt32

/-- A pointer to a record. -/
abbrev TunnelId := Nat

/-- `TunnelManager` (server.go:47–50). The records made so far have the numbers
below `next`. -/
structure TunnelManager where
  tunnels : Map (ByteArr 8) TunnelId
  heap : TunnelId → P2PTunnel
  next : TunnelId

/-- `makeKey` (server.go:59–70): the smaller address comes first. -/
def makeKey (a b : ByteArr 4) : ByteArr 8 :=
  if a.1 < b.1 then ⟨a.1 ++ b.1, by rw [List.length_append, a.2, b.2]⟩
  else ⟨b.1 ++ a.1, by rw [List.length_append, a.2, b.2]⟩

/-- The pair of clients a task is for. -/
def P2PTask.pair (task : P2PTask) : ByteArr 8 := makeKey task.srcVip task.dstVip

namespace TunnelManager

/-- `NewTunnelManager` (server.go:52–56). -/
def new : TunnelManager :=
  { tunnels := ∅
    heap := fun _ => { a := .zero 4, b := .zero 4, status := .init, retryTimes := 0 }
    next := 0 }

/-- `Exist` (server.go:73–80). -/
def exist (tm : TunnelManager) (a b : ByteArr 4) : Option TunnelId :=
  tm.tunnels.lookup (makeKey a b)

/-- `AddTunnel` (server.go:83–95): a pair that has a record keeps it. -/
def addTunnel (tm : TunnelManager) (a b : ByteArr 4) (status : TunnelStatus) : TunnelManager :=
  if (tm.exist a b).isNone then
    { tunnels := tm.tunnels.insert (makeKey a b) tm.next
      heap := Function.update tm.heap tm.next { a, b, status, retryTimes := 0 }
      next := tm.next + 1 }
  else tm

/-- `RemoveTunnel` (server.go:98–104). -/
def removeTunnel (tm : TunnelManager) (a b : ByteArr 4) : TunnelManager :=
  { tm with tunnels := tm.tunnels.erase (makeKey a b) }

/-- `RemoveA` (server.go:107–117). -/
def removeA (tm : TunnelManager) (a : ByteArr 4) : TunnelManager :=
  { tm with tunnels := tm.tunnels.keepIf fun _ t => !((tm.heap t).a == a || (tm.heap t).b == a) }

/-- `ChangeStatus` (server.go:40–42) through a pointer. -/
def changeStatus (tm : TunnelManager) (t : TunnelId) (status : TunnelStatus) : TunnelManager :=
  { tm with heap := Function.update tm.heap t { tm.heap t with status } }

/-- `AddRetryTimes` (server.go:34–36) through a pointer. -/
def addRetryTimes (tm : TunnelManager) (t : TunnelId) : TunnelManager :=
  { tm with
    heap := Function.update tm.heap t { tm.heap t with retryTimes := (tm.heap t).retryTimes + 1 } }

/-! ## The table and the records -/

variable {tm tm' : TunnelManager} {a b : ByteArr 4} {t : TunnelId} {key : ByteArr 8}

theorem addTunnel_of_some (h : tm.exist a b = some t) (status : TunnelStatus) :
    tm.addTunnel a b status = tm := by
  rw [addTunnel, h]
  rfl

/-- A new record. -/
def create (tm : TunnelManager) (a b : ByteArr 4) (status : TunnelStatus) : TunnelManager :=
  { tunnels := tm.tunnels.insert (makeKey a b) tm.next
    heap := Function.update tm.heap tm.next { a, b, status, retryTimes := 0 }
    next := tm.next + 1 }

theorem addTunnel_of_none (h : tm.exist a b = none) (status : TunnelStatus) :
    tm.addTunnel a b status = tm.create a b status := by
  rw [addTunnel, h]
  rfl

@[simp] theorem heap_create (tm : TunnelManager) (a b : ByteArr 4) (status : TunnelStatus) :
    (tm.create a b status).heap tm.next = { a, b, status, retryTimes := 0 } :=
  Function.update_self ..

theorem heap_create_of_ne (tm : TunnelManager) (a b : ByteArr 4) (status : TunnelStatus)
    (ht : t ≠ tm.next) : (tm.create a b status).heap t = tm.heap t :=
  Function.update_of_ne ht ..

/-- An entry afterwards is the new one or an old one. -/
theorem lookup_create {status : TunnelStatus}
    (h : (tm.create a b status).tunnels.lookup key = some t) :
    (key = makeKey a b ∧ t = tm.next) ∨ tm.tunnels.lookup key = some t := by
  by_cases hkey : key = makeKey a b
  · subst hkey
    cases (AList.lookup_insert ..).symm.trans h
    exact Or.inl ⟨rfl, rfl⟩
  · exact Or.inr ((AList.lookup_insert_ne hkey).symm.trans h)

/-- `AddTunnel` does nothing, or makes a record. -/
theorem addTunnel_cases (tm : TunnelManager) (a b : ByteArr 4) (status : TunnelStatus) :
    tm.addTunnel a b status = tm ∨ tm.addTunnel a b status = tm.create a b status := by
  cases hex : tm.exist a b with
  | some t => exact Or.inl (addTunnel_of_some hex status)
  | none => exact Or.inr (addTunnel_of_none hex status)

theorem next_le_addTunnel (tm : TunnelManager) (a b : ByteArr 4) (status : TunnelStatus) :
    tm.next ≤ (tm.addTunnel a b status).next := by
  rcases tm.addTunnel_cases a b status with hsame | hnew
  · rw [hsame]
  · rw [hnew]
    exact Nat.le_succ _

/-- The records there are stay as they are. -/
theorem heap_addTunnel_of_lt (ht : t < tm.next) (a b : ByteArr 4) (status : TunnelStatus) :
    (tm.addTunnel a b status).heap t = tm.heap t := by
  rcases tm.addTunnel_cases a b status with hsame | hnew
  · rw [hsame]
  · rw [hnew, heap_create_of_ne _ _ _ _ (Nat.ne_of_lt ht)]

/-- An entry after `AddTunnel` is that of a record it has made, or an old one. -/
theorem lookup_addTunnel {status : TunnelStatus}
    (h : (tm.addTunnel a b status).tunnels.lookup key = some t) :
    (key = makeKey a b ∧ t = tm.next ∧ tm.addTunnel a b status = tm.create a b status) ∨
      tm.tunnels.lookup key = some t := by
  rcases tm.addTunnel_cases a b status with hsame | hnew
  · rw [hsame] at h
    exact Or.inr h
  · rw [hnew] at h
    exact (lookup_create h).imp_left fun ⟨hkey, ht⟩ => ⟨hkey, ht, hnew⟩

theorem exist_create (tm : TunnelManager) (a b : ByteArr 4) (status : TunnelStatus) :
    (tm.create a b status).exist a b = some tm.next :=
  AList.lookup_insert ..

/-- The key of a record's pair. -/
def pair (tm : TunnelManager) (t : TunnelId) : ByteArr 8 := makeKey (tm.heap t).a (tm.heap t).b

/-- The table leads to records that exist, each under the key of its pair. -/
structure Sound (tm : TunnelManager) : Prop where
  entry : ∀ {key t}, tm.tunnels.lookup key = some t → t < tm.next ∧ tm.pair t = key

theorem Sound.new : Sound .new where
  entry h := by cases h

/-- A change that at most removes entries, and no record changes its pair. -/
theorem Sound.of_table (h : tm.Sound) (hnext : tm'.next = tm.next)
    (hpair : ∀ t, tm'.pair t = tm.pair t)
    (htable : ∀ {key t}, tm'.tunnels.lookup key = some t → tm.tunnels.lookup key = some t) :
    tm'.Sound where
  entry ht := by
    rw [hnext, hpair]
    exact h.entry (htable ht)

theorem Sound.addTunnel (h : tm.Sound) (a b : ByteArr 4) (status : TunnelStatus) :
    (tm.addTunnel a b status).Sound where
  entry ht := by
    rcases lookup_addTunnel ht with ⟨rfl, rfl, hnew⟩ | hold
    · rw [hnew]
      refine ⟨Nat.lt_succ_self _, ?_⟩
      rw [pair, heap_create]
    · obtain ⟨hlt, hpair⟩ := h.entry hold
      refine ⟨Nat.lt_of_lt_of_le hlt (tm.next_le_addTunnel ..), ?_⟩
      rw [pair, heap_addTunnel_of_lt hlt]
      exact hpair

/-- A change of a record that leaves its addresses as they are. -/
theorem pair_update {r : P2PTunnel} (ha : r.a = (tm.heap t).a) (hb : r.b = (tm.heap t).b)
    (i : TunnelId) : { tm with heap := Function.update tm.heap t r }.pair i = tm.pair i := by
  show makeKey (Function.update tm.heap t r i).a (Function.update tm.heap t r i).b = _
  by_cases hi : i = t
  · subst hi
    rw [Function.update_self, ha, hb]
    rfl
  · rw [Function.update_of_ne hi]
    rfl

theorem pair_changeStatus (tm : TunnelManager) (t i : TunnelId) (status : TunnelStatus) :
    (tm.changeStatus t status).pair i = tm.pair i :=
  pair_update (r := { tm.heap t with status }) rfl rfl i

theorem pair_addRetryTimes (tm : TunnelManager) (t i : TunnelId) :
    (tm.addRetryTimes t).pair i = tm.pair i :=
  pair_update (r := { tm.heap t with retryTimes := (tm.heap t).retryTimes + 1 }) rfl rfl i

theorem Sound.changeStatus (h : tm.Sound) (t : TunnelId) (status : TunnelStatus) :
    (tm.changeStatus t status).Sound :=
  h.of_table rfl (fun i => tm.pair_changeStatus t i status) id

theorem Sound.addRetryTimes (h : tm.Sound) (t : TunnelId) : (tm.addRetryTimes t).Sound :=
  h.of_table rfl (tm.pair_addRetryTimes t) id

/-- What `RemoveA` leaves was there before, and does not name the address. -/
theorem lookup_removeA (h : (tm.removeA a).tunnels.lookup key = some t) :
    tm.tunnels.lookup key = some t ∧ (tm.heap t).a ≠ a ∧ (tm.heap t).b ≠ a := by
  have hfilter := Option.filter_eq_some_iff.mp ((Map.lookup_keepIf ..).symm.trans h)
  have hname : (!((tm.heap t).a == a || (tm.heap t).b == a)) = true := hfilter.2
  rw [Bool.not_eq_true', Bool.or_eq_false_iff, beq_eq_false_iff_ne, beq_eq_false_iff_ne] at hname
  exact ⟨hfilter.1, hname⟩

theorem Sound.removeA (h : tm.Sound) (a : ByteArr 4) : (tm.removeA a).Sound :=
  h.of_table rfl (fun _ => rfl) fun ht => (lookup_removeA ht).1

/-! ## The endpoints in the table -/

/-- Both endpoints of every record in the table pass `P`. -/
def Ends (tm : TunnelManager) (P : ByteArr 4 → Prop) : Prop :=
  ∀ key t, tm.tunnels.lookup key = some t → P (tm.heap t).a ∧ P (tm.heap t).b

variable {P Q : ByteArr 4 → Prop}

theorem Ends.mono (h : tm.Ends P) (himp : ∀ v, P v → Q v) : tm.Ends Q :=
  fun key t ht => ⟨himp _ (h key t ht).1, himp _ (h key t ht).2⟩

theorem Ends.new : TunnelManager.new.Ends P := fun _ _ h => by cases h

theorem Ends.addTunnel (h : tm.Ends P) (hs : tm.Sound) (ha : P a) (hb : P b)
    (status : TunnelStatus) : (tm.addTunnel a b status).Ends P := by
  intro key t ht
  rcases lookup_addTunnel ht with ⟨rfl, rfl, hnew⟩ | hold
  · rw [hnew, heap_create]
    exact ⟨ha, hb⟩
  · rw [heap_addTunnel_of_lt (hs.entry hold).1]
    exact h key t hold

/-- `RemoveA` removes an endpoint. -/
theorem Ends.removeA (h : tm.Ends fun v => P v ∨ v = a) : (tm.removeA a).Ends P := by
  intro key t ht
  obtain ⟨hold, hna, hnb⟩ := lookup_removeA ht
  obtain ⟨ha, hb⟩ := h key t hold
  exact ⟨ha.resolve_right hna, hb.resolve_right hnb⟩

/-- A change of a record that leaves its addresses as they are. -/
theorem Ends.update (h : tm.Ends P) {r : P2PTunnel} (ha : r.a = (tm.heap t).a)
    (hb : r.b = (tm.heap t).b) : { tm with heap := Function.update tm.heap t r }.Ends P := by
  intro key i hi
  show P (Function.update tm.heap t r i).a ∧ P (Function.update tm.heap t r i).b
  by_cases hit : i = t
  · subst hit
    rw [Function.update_self, ha, hb]
    exact h key i hi
  · rw [Function.update_of_ne hit]
    exact h key i hi

theorem Ends.changeStatus (h : tm.Ends P) (t : TunnelId) (status : TunnelStatus) :
    (tm.changeStatus t status).Ends P :=
  h.update rfl rfl

theorem Ends.addRetryTimes (h : tm.Ends P) (t : TunnelId) : (tm.addRetryTimes t).Ends P :=
  h.update rfl rfl

end TunnelManager

end EasyTun.Stun
