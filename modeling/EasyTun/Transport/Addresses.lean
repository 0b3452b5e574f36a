import EasyTun.Lib.Tokens
import EasyTun.Transport.Hub

/-!
# Virtual addresses of the server

An address is on the free stack, in the field `virtualIp` of an open connection,
or in an entry of `retentionMap`. Reading the three stores as a token table
(`Hub.tokens`), a handshake takes or moves a token, a disconnect moves one, and a
sweep gives one back: the hub refines the allocator of `Lib.Tokens`
(`tokens_step`).

- `addresses_exclusive`: **no address is assigned twice**, in any run.
- `no_address_lost`: no address is lost, if a handshake only assigns an address
  to an open connection without one, and a disconnect does not overwrite a
  retained entry.
- `address_lost`: the code does not check that. A second handshake on one
  connection overwrites its address.
-/

namespace EasyTun.Transport

open EasyTun.Lib EasyTun.Util

/-- The address an open connection has. -/
def Conn.held (k : Conn) : IP := if k.serve.isOpen then k.client.virtualIp else none

/-- The address an entry of `retentionMap` has, if there is one. -/
def keptIp (entry : Option OfflineClient) : IP := entry.bind (·.virtualIp)

namespace Hub

/-- Where an address that is not free can be. -/
inductive Holder where
  | conn (c : ConnId)
  | kept (id : ClientId)
  deriving DecidableEq

theorem Holder.conn_ne_kept (c : ConnId) (id : ClientId) : Holder.conn c ≠ .kept id := nofun

def heldBy (h : Hub) : Holder → IP
  | .conn c => (h.conn c).held
  | .kept id => keptIp (h.retentionMap.lookup id)

/-- The stores of the hub as a token table. -/
def tokens (h : Hub) : Tokens (ByteArr 4) Holder :=
  { free := h.freeIps.map hostIp, held := h.heldBy }

/-- The addresses there are. -/
def pool : List (ByteArr 4) := allIps.map hostIp

/-- The numbers the stack is made from fit into a byte. -/
theorem toNat_ofNat_of_mem {n : Nat} (hn : n ∈ (List.range' 2 253).reverse) :
    2 ≤ n ∧ n ≤ 254 ∧ (UInt8.ofNat n).toNat = n := by
  obtain ⟨h2, hlt⟩ := List.mem_range'_1.mp (List.mem_reverse.mp hn)
  have hsize : n < UInt8.size := by
    show n < 256
    omega
  exact ⟨h2, by omega, UInt8.toNat_ofNat_of_lt' hsize⟩

theorem allIps_nodup : allIps.Nodup := by
  refine List.Nodup.map_on ?_ (List.nodup_reverse.mpr List.nodup_range')
  intro m hm n hn heq
  rw [← (toNat_ofNat_of_mem hm).2.2, heq]
  exact (toNat_ofNat_of_mem hn).2.2

theorem pool_nodup : pool.Nodup := allIps_nodup.map fun _ _ => hostIp_inj

theorem mem_allIps {x : UInt8} : x ∈ allIps ↔ 2 ≤ x.toNat ∧ x.toNat ≤ 254 := by
  constructor
  · intro hx
    obtain ⟨n, hn, rfl⟩ := List.mem_map.mp hx
    obtain ⟨h2, h254, htoNat⟩ := toNat_ofNat_of_mem hn
    rw [htoNat]
    exact ⟨h2, h254⟩
  · rintro ⟨h2, h254⟩
    refine List.mem_map.mpr ⟨x.toNat, List.mem_reverse.mpr ?_, UInt8.ofNat_toNat⟩
    exact List.mem_range'_1.mpr ⟨h2, by omega⟩

theorem hostIp_hostNumber {v : ByteArr 4} (hv : v ∈ pool) : hostIp (hostNumber v) = v := by
  obtain ⟨x, -, rfl⟩ := List.mem_map.mp hv
  rfl

/-! ## The hub refines the allocator -/

variable (h : Hub)

theorem tokens_modify (c : ConnId) (f : Conn → Conn) :
    (h.modify c f).tokens = h.tokens.put (.conn c) (f (h.conn c)).held := by
  refine Tokens.eq_put rfl (congrArg Conn.held (Function.update_self ..)) ?_
  rintro (c' | id) hne
  · have hc : c' ≠ c := fun heq => hne (congrArg _ heq)
    exact congrArg Conn.held (Function.update_of_ne hc ..)
  · rfl

/-- A step that leaves the address of its connection in place. -/
theorem tokens_of_held {h' : Hub} {c : ConnId} {k : Conn}
    (hconn : h'.conn = Function.update h.conn c k) (hfree : h'.freeIps = h.freeIps)
    (hkept : h'.retentionMap = h.retentionMap) (hheld : k.held = (h.conn c).held) :
    h'.tokens = h.tokens := by
  have hlocal : h'.tokens = (h.modify c fun _ => k).tokens := by
    unfold tokens heldBy
    rw [hconn, hfree, hkept]
    rfl
  rw [hlocal, tokens_modify, hheld]
  exact Tokens.put_held rfl

theorem tokens_insert (id : ClientId) (oc : OfflineClient) :
    ({ h with retentionMap := h.retentionMap.insert id oc } : Hub).tokens =
      h.tokens.put (.kept id) oc.virtualIp := by
  have hid : keptIp ((h.retentionMap.insert id oc).lookup id) = oc.virtualIp := by
    rw [AList.lookup_insert]
    rfl
  refine Tokens.eq_put rfl hid ?_
  rintro (c | id') hne
  · rfl
  · have hid : id' ≠ id := fun heq => hne (congrArg _ heq)
    exact congrArg keptIp (AList.lookup_insert_ne hid)

theorem tokens_erase (id : ClientId) :
    ({ h with retentionMap := h.retentionMap.erase id } : Hub).tokens =
      h.tokens.put (.kept id) none := by
  have hid : keptIp ((h.retentionMap.erase id).lookup id) = none := by
    rw [AList.lookup_erase]
    rfl
  refine Tokens.eq_put rfl hid ?_
  rintro (c | id') hne
  · rfl
  · have hid : id' ≠ id := fun heq => hne (congrArg _ heq)
    exact congrArg keptIp (AList.lookup_erase_ne hid)

theorem held_assign (k : Conn) (virtualIp : IP) (hostname : Bytes) :
    (k.assign virtualIp hostname).held = if k.serve.isOpen then virtualIp else none := by
  cases virtualIp <;> rfl

/-- A connection that closes at once has no address. -/
theorem held_disconnect {k : Conn} (hserve : k.serve = .running) :
    { k with serve := if k.client.virtualIp.isSome then .closing else .closed }.held =
      k.held := by
  unfold Conn.held
  rw [hserve]
  cases hip : k.client.virtualIp with
  | none => rfl
  | some v => rfl

/-- What a handshake does to the addresses. -/
theorem tokens_assign (c : ConnId) (payload : Bytes) (dnsMap : Map Bytes IP) :
    ∃ b, (h.assign c payload dnsMap).tokens = h.tokens.apply b ∧
      ((h.conn c).serve.isOpen = true → (h.conn c).client.virtualIp = none →
        Tokens.Saves h.tokens b) := by
  have hnone : (h.conn c).client.virtualIp = none → h.tokens.held (.conn c) = none := by
    intro hvip
    show (if (h.conn c).serve.isOpen then (h.conn c).client.virtualIp else none) = none
    rw [hvip, ite_self]
  have hshut (hopen : ¬(h.conn c).serve.isOpen = true) : h.tokens.put (.conn c) none = h.tokens :=
    Tokens.put_held (if_neg hopen)
  unfold assign
  split
  · -- The address moves from the retained entry to the connection.
    next oc hoc =>
    have hkept : h.tokens.held (.kept (h.conn c).client.clientID) = oc.virtualIp := by
      show keptIp (h.retentionMap.lookup _) = _
      rw [hoc]
      rfl
    have heq := (tokens_erase (h.modify c _) (h.conn c).client.clientID).trans
      (congrArg (Tokens.put · _ none) (tokens_modify h c (·.assign oc.virtualIp oc.hostname)))
    rw [held_assign] at heq
    by_cases hopen : (h.conn c).serve.isOpen = true
    · refine ⟨.move (.kept (h.conn c).client.clientID) (.conn c), heq.trans ?_, fun _ hvip =>
        ⟨(Holder.conn_ne_kept c _).symm, hnone hvip⟩⟩
      rw [if_pos hopen, Tokens.put_comm _ (Holder.conn_ne_kept c _)]
      exact congrArg _ hkept.symm
    · refine ⟨.drop (.kept (h.conn c).client.clientID), heq.trans ?_, fun ho => absurd ho hopen⟩
      rw [if_neg hopen, hshut hopen]
      rfl
  · -- The address is taken from the stack.
    have heq := tokens_modify h.getIp.2 c
      (·.assign h.getIp.1 (uniqueHostName (payload.drop 49) dnsMap))
    have hfree : h.getIp.2.tokens = { h.tokens with free := h.tokens.free.dropLast } :=
      Tokens.ext List.map_dropLast rfl
    rw [held_assign, hfree] at heq
    by_cases hopen : (h.conn c).serve.isOpen = true
    · refine ⟨.take (.conn c), heq.trans ?_, fun _ => hnone⟩
      rw [if_pos (c := (h.getIp.2.conn c).serve.isOpen = true) hopen]
      exact congrArg (Tokens.put _ (Holder.conn c)) List.getLast?_map.symm
    · refine ⟨.waste, heq.trans ?_, fun ho => absurd ho hopen⟩
      rw [if_neg (c := (h.getIp.2.conn c).serve.isOpen = true) hopen]
      exact Tokens.put_held (if_neg hopen)

/-- A disconnect moves the address to the entry of the client. -/
theorem tokens_retain (retentionTime : Int) {c : ConnId} (hserve : (h.conn c).serve = .closing) :
    (h.retain retentionTime c).tokens =
      h.tokens.apply (.move (.conn c) (.kept (h.conn c).client.clientID)) := by
  have hheld : h.tokens.held (.conn c) = (h.conn c).client.virtualIp := by
    show (if (h.conn c).serve.isOpen then _ else none) = _
    rw [hserve]
    rfl
  refine (tokens_insert (h.modify c _) _ _).trans ?_
  rw [tokens_modify]
  exact congrArg (Tokens.put _ _) hheld.symm

/-- A sweep gives the address of an entry back, or leaves the entry. -/
theorem tokens_sweepEntry (hE : Tokens.Exclusive pool h.tokens) (now : Int) (id : ClientId) :
    (h.sweepEntry now id).tokens = h.tokens ∨
      (h.sweepEntry now id).tokens = h.tokens.apply (.giveBack (.kept id)) := by
  unfold sweepEntry
  split
  · exact Or.inl rfl
  · next oc hoc =>
    split
    · have hkept : h.tokens.held (.kept id) = oc.virtualIp := congrArg keptIp hoc
      right
      cases hip : oc.virtualIp with
      | none =>
        rw [hip] at hkept
        refine (tokens_erase (h.removeDns oc.hostname) id).trans (Tokens.ext ?_ rfl)
        show h.tokens.free = h.tokens.free ++ (h.tokens.held (.kept id)).toList
        rw [hkept]
        exact (List.append_nil _).symm
      | some v =>
        rw [hip] at hkept
        refine (tokens_erase ((h.releaseIp (some v)).removeDns oc.hostname) id).trans
          (Tokens.ext ?_ rfl)
        show (h.freeIps ++ [hostNumber v]).map hostIp =
          h.tokens.free ++ (h.tokens.held (.kept id)).toList
        rw [hkept, List.map_append, List.map_singleton, hostIp_hostNumber (hE.held_mem hkept)]
        rfl
    · exact Or.inl rfl

/-- A handshake assigns an address only to an open connection that has none, and
a disconnect finds no entry under its client's identity. -/
def KeepOk (h : Hub) : Act → Prop
  | .assign c => (h.conn c).serve.isOpen = true ∧ (h.conn c).client.virtualIp = none
  | .retain c => h.retentionMap.lookup (h.conn c).client.clientID = none
  | _ => True

variable {h} {h' : Hub} {retentionTime : Int} {a : Act}

/-- **Every step is a step of the allocator, or none**, and under the condition it
loses nothing. -/
theorem tokens_step (hE : Tokens.Exclusive pool h.tokens) (hf : h.Fresh)
    (hs : step retentionTime h a = some h') :
    h'.tokens = h.tokens ∨
      ∃ b, h'.tokens = h.tokens.apply b ∧ (KeepOk h a → Tokens.Saves h.tokens b) := by
  cases does_of_step hs with
  | assign _ _ =>
    obtain ⟨b, hb, hsaves⟩ := tokens_assign h _ _ _
    exact Or.inr ⟨b, hb, fun hok => hsaves hok.1 hok.2⟩
  | retain hserve _ =>
    refine Or.inr ⟨_, tokens_retain h retentionTime hserve, fun hok => ⟨?_, ?_⟩⟩
    · exact Holder.conn_ne_kept _ _
    · exact congrArg keptIp hok
  | sweep _ _ =>
    rcases tokens_sweepEntry h hE _ _ with heq | heq
    · exact Or.inl heq
    · exact Or.inr ⟨_, heq, fun _ => trivial⟩
  | accept =>
    refine Or.inl (tokens_of_held h rfl rfl rfl ?_)
    rw [hf h.next (Nat.le_refl _)]
    rfl
  | cancel _ => exact Or.inl (tokens_of_held h rfl rfl rfl rfl)
  | quit _ => exact Or.inl (tokens_of_held h rfl rfl rfl rfl)
  | load payload _ =>
    refine Or.inl (tokens_of_held h rfl rfl rfl ?_)
    unfold Conn.load
    split
    · rfl
    · rfl
  | identify _ => exact Or.inl (tokens_of_held h rfl rfl rfl rfl)
  | addClient _ => exact Or.inl (tokens_of_held h rfl rfl rfl rfl)
  | finish _ => exact Or.inl (tokens_of_held h rfl rfl rfl rfl)
  | disconnect hserve _ => exact Or.inl (tokens_of_held h rfl rfl rfl (held_disconnect hserve))
  | removeClient hserve =>
    refine Or.inl (tokens_of_held h rfl rfl rfl ?_)
    show none = if (h.conn _).serve.isOpen then _ else none
    rw [hserve]
    rfl
  | tick _ => exact Or.inl rfl
  | wake _ => exact Or.inl rfl
  | lock _ => exact Or.inl rfl
  | unlock _ => exact Or.inl rfl

theorem tokens_newHub : newHub.tokens = (Tokens.machine pool).init := by
  refine Tokens.ext rfl (funext fun i => ?_)
  cases i with
  | conn c => rfl
  | kept id => rfl

/-- **The hub refines the allocator.** -/
theorem tokens_reach {ok : Hub → Act → Prop} {ok' : Tokens (ByteArr 4) Holder → _ → Prop}
    (hok : ∀ h a b, ok h a → (KeepOk h a → Tokens.Saves h.tokens b) → ok' h.tokens b)
    (hr : (machine retentionTime).ReachVia ok h) :
    (Tokens.machine pool).ReachVia ok' h.tokens := by
  obtain ⟨t, ht, rfl, -⟩ := hr.simulate (fun h t => h.tokens = t ∧ h.Fresh)
    ⟨tokens_newHub, fun _ _ => rfl⟩ (by
      rintro h h' a t ht ⟨rfl, hf⟩ hok' hs
      have hf' := fresh_step hf hs
      rcases tokens_step (Tokens.exclusive pool_nodup ht.reach) hf hs with heq | ⟨b, heq, hb⟩
      · exact Or.inl ⟨heq, hf'⟩
      · exact Or.inr ⟨b, h'.tokens, hok h a b hok' hb, by rw [heq]; rfl, rfl, hf'⟩)
  exact ht

theorem exclusive (hr : (machine retentionTime).Reach h) : Tokens.Exclusive pool h.tokens :=
  Tokens.exclusive pool_nodup (tokens_reach (fun _ _ _ _ _ => trivial) hr)

/-! ## No address is assigned twice -/

/-- The connection is open and has the address. -/
def Holds (h : Hub) (c : ConnId) (v : ByteArr 4) : Prop :=
  (h.conn c).serve.isOpen = true ∧ (h.conn c).client.virtualIp = some v

instance (h : Hub) (c : ConnId) (v : ByteArr 4) : Decidable (h.Holds c v) :=
  inferInstanceAs (Decidable (_ ∧ _))

/-- The entry of `retentionMap` under this identity has the address. -/
def Keeps (h : Hub) (id : ClientId) (v : ByteArr 4) : Prop :=
  ∃ oc ∈ h.retentionMap.lookup id, oc.virtualIp = some v

instance (h : Hub) (id : ClientId) (v : ByteArr 4) : Decidable (h.Keeps id v) :=
  inferInstanceAs (Decidable (∃ _ ∈ _, _))

theorem heldBy_conn_iff {c : ConnId} {v : ByteArr 4} :
    h.tokens.held (.conn c) = some v ↔ h.Holds c v := by
  show (if (h.conn c).serve.isOpen then (h.conn c).client.virtualIp else none) = some v ↔ _
  split
  · next hopen => exact ⟨fun hv => ⟨hopen, hv⟩, fun hv => hv.2⟩
  · next hopen => exact ⟨fun hv => (nomatch hv), fun hv => absurd hv.1 hopen⟩

theorem heldBy_kept_iff {id : ClientId} {v : ByteArr 4} :
    h.tokens.held (.kept id) = some v ↔ h.Keeps id v :=
  Option.bind_eq_some_iff

/-- What a handshake is about to assign is not held by an open connection. -/
theorem not_holds_offer (hr : (machine retentionTime).Reach h) {c c' : ConnId} {v : ByteArr 4}
    (hoffer : h.offer c = some v) : ¬h.Holds c' v := by
  intro hv
  have hE := exclusive hr
  have hheld := heldBy_conn_iff.mpr hv
  unfold offer at hoffer
  split at hoffer
  · next oc hoc =>
    exact Holder.conn_ne_kept _ _ (hE.inj hheld (heldBy_kept_iff.mpr ⟨oc, hoc, hoffer⟩))
  · obtain ⟨x, hx, rfl⟩ := Option.map_eq_some_iff.mp hoffer
    exact hE.not_free hheld (List.mem_map_of_mem (List.mem_of_getLast? hx))

/-- **No address is assigned twice.** In every run, whatever its handshakes,
disconnects and sweeps: the free stack has no duplicates and only host numbers
from 2 to 254, what is free is held by nobody, and an address that is held is held
by one open connection or by one retained entry. -/
theorem addresses_exclusive (hr : (machine retentionTime).Reach h) :
    h.freeIps.Nodup ∧ (∀ x ∈ h.freeIps, 2 ≤ x.toNat ∧ x.toNat ≤ 254) ∧
    (∀ c v, h.Holds c v → hostNumber v ∉ h.freeIps) ∧
    (∀ id v, h.Keeps id v → hostNumber v ∉ h.freeIps) ∧
    (∀ c c' v, h.Holds c v → h.Holds c' v → c = c') ∧
    (∀ id id' v, h.Keeps id v → h.Keeps id' v → id = id') ∧
    (∀ c id v, h.Holds c v → ¬h.Keeps id v) := by
  have hE := exclusive hr
  have hfree : ∀ i v, h.tokens.held i = some v → hostNumber v ∉ h.freeIps := by
    intro i v hv hmem
    refine hE.not_free hv ?_
    rw [← hostIp_hostNumber (hE.held_mem hv)]
    exact List.mem_map_of_mem hmem
  refine ⟨List.Nodup.of_map hostIp hE.nodup, ?_, ?_, ?_, ?_, ?_, ?_⟩
  · intro x hx
    obtain ⟨y, hy, heq⟩ := List.mem_map.mp (hE.free_mem (hostIp x) (List.mem_map_of_mem hx))
    exact mem_allIps.mp (hostIp_inj heq ▸ hy)
  · exact fun c v hv => hfree _ v (heldBy_conn_iff.mpr hv)
  · exact fun id v hv => hfree _ v (heldBy_kept_iff.mpr hv)
  · intro c c' v hv hv'
    exact Holder.conn.inj (hE.inj (heldBy_conn_iff.mpr hv) (heldBy_conn_iff.mpr hv'))
  · intro id id' v hv hv'
    exact Holder.kept.inj (hE.inj (heldBy_kept_iff.mpr hv) (heldBy_kept_iff.mpr hv'))
  · intro c id v hv hk
    exact Holder.conn_ne_kept c id (hE.inj (heldBy_conn_iff.mpr hv) (heldBy_kept_iff.mpr hk))

/-- The identity made of sixteen times the same byte. -/
def idOf (b : UInt8) : ClientId := ⟨List.replicate 16 b, List.length_replicate⟩

/-- The payload of a client behind a NAT of this type with this identity and an
empty host name. -/
def hello (natType b : UInt8) : Bytes := natType :: List.replicate 32 1 ++ (idOf b).1

/-- A handshake that nobody gets in the way of. -/
def handshake (c : ConnId) (payload : Bytes) : List Act :=
  [.load c payload, .identify c, .assign c, .addClient c, .finish c]

/-- Two clients connect and the first one leaves: its address is kept, the other
one's is held, and neither is free. -/
theorem addresses_exclusive_after_leaving :
    ∃ h, (machine 300).Reach h ∧ (h.Keeps (idOf 7) (hostIp 2) ∧ h.Holds 1 (hostIp 3)) ∧
      2 ∉ h.freeIps ∧ ¬h.Holds 1 (hostIp 2) := by
  obtain ⟨h, hr, hk, hv⟩ : ∃ h, (machine 300).Reach h ∧
      (h.Keeps (idOf 7) (hostIp 2) ∧ h.Holds 1 (hostIp 3)) :=
    Machine.exists_reach
      ([.accept, .accept] ++ handshake 0 (hello 3 7) ++ handshake 1 (hello 3 8) ++
        [.cancel 0, .disconnect 0, .retain 0]) (by decide +kernel)
  obtain ⟨-, -, -, hkfree, -, -, hexcl⟩ := addresses_exclusive hr
  exact ⟨h, hr, ⟨hk, hv⟩, hkfree _ _ hk, fun hv' => hexcl _ _ _ hv' hk⟩

/-! ## No address is lost -/

instance (h : Hub) : (a : Act) → Decidable (KeepOk h a)
  | .assign c => inferInstanceAs
      (Decidable ((h.conn c).serve.isOpen = true ∧ (h.conn c).client.virtualIp = none))
  | .retain c => inferInstanceAs
      (Decidable (h.retentionMap.lookup (h.conn c).client.clientID = none))
  | .accept | .cancel _ | .quit _ | .load _ _ | .identify _ | .addClient _ | .finish _
  | .disconnect _ | .removeClient _ | .tick _ | .wake | .lock | .sweep _ | .unlock =>
    inferInstanceAs (Decidable True)

/-- An open connection or a retained entry has the address with this host
number. -/
def InUse (h : Hub) (x : UInt8) : Prop :=
  (∃ c v, h.Holds c v ∧ hostNumber v = x) ∨ ∃ id v, h.Keeps id v ∧ hostNumber v = x

theorem inUse_of_held {i : Holder} {v : ByteArr 4} (hv : h.tokens.held i = some v) :
    h.InUse (hostNumber v) := by
  cases i with
  | conn c => exact Or.inl ⟨c, v, heldBy_conn_iff.mp hv, rfl⟩
  | kept id => exact Or.inr ⟨id, v, heldBy_kept_iff.mp hv, rfl⟩

/-- **No address is lost**, in every run in which handshakes assign addresses only
to open connections without one and disconnects overwrite no entry: each host
number is free or in use. So `getIp` fails only when all of them are in use. -/
theorem no_address_lost (hr : (machine retentionTime).ReachVia KeepOk h) :
    (∀ x : UInt8, 2 ≤ x.toNat → x.toNat ≤ 254 → x ∈ h.freeIps ∨ h.InUse x) ∧
    (h.getIp.1 = none → ∀ x : UInt8, 2 ≤ x.toNat → x.toNat ≤ 254 → h.InUse x) := by
  have hC : Tokens.Conserved pool h.tokens :=
    Tokens.conserved (tokens_reach (fun _ _ _ hok hb => hb hok) hr)
  have hkept : ∀ x : UInt8, 2 ≤ x.toNat → x.toNat ≤ 254 → x ∈ h.freeIps ∨ h.InUse x := by
    intro x h2 h254
    rcases hC (hostIp x) (List.mem_map_of_mem (mem_allIps.mpr ⟨h2, h254⟩)) with hfree | ⟨i, hi⟩
    · obtain ⟨y, hy, heq⟩ := List.mem_map.mp hfree
      exact Or.inl (hostIp_inj heq ▸ hy)
    · exact Or.inr (inUse_of_held hi)
  refine ⟨hkept, fun hget x h2 h254 => ?_⟩
  have hempty : h.freeIps = [] := List.getLast?_eq_none_iff.mp (Option.map_eq_none_iff.mp hget)
  rcases hkept x h2 h254 with hfree | huse
  · rw [hempty] at hfree
    cases hfree
  · exact huse

/-- A client connects, leaves and comes back, and a second one connects. -/
theorem no_address_lost_reconnect :
    ∃ h, (machine 300).ReachVia KeepOk h ∧ (h.Holds 1 (hostIp 2) ∧ h.Holds 2 (hostIp 3)) ∧
      ∀ x : UInt8, 2 ≤ x.toNat → x.toNat ≤ 254 → x ∈ h.freeIps ∨ h.InUse x := by
  obtain ⟨h, hr, hv⟩ : ∃ h, (machine 300).ReachVia KeepOk h ∧
      (h.Holds 1 (hostIp 2) ∧ h.Holds 2 (hostIp 3)) :=
    Machine.exists_reachVia
      ([.accept] ++ handshake 0 (hello 3 7) ++
        [.cancel 0, .disconnect 0, .retain 0, .removeClient 0, .accept, .accept] ++
        handshake 1 (hello 3 7) ++ handshake 2 (hello 3 8)) (by decide +kernel)
  exact ⟨h, hr, hv, (no_address_lost hr).1⟩

/-- **An address can get lost.** After two handshakes on one connection 10.0.6.2 is
neither free nor in use. -/
theorem address_lost : ∃ h, (machine 300).Reach h ∧ 2 ∉ h.freeIps ∧ ¬h.InUse 2 := by
  obtain ⟨h, hr, hfree, hconn, hkept⟩ : ∃ h, (machine 300).Reach h ∧
      (2 ∉ h.freeIps ∧ (∀ c < h.next, (h.conn c).client.virtualIp.map hostNumber ≠ some 2) ∧
        h.retentionMap.keys = []) :=
    Machine.exists_reach
      ([.accept] ++ handshake 0 (hello 3 7) ++ handshake 0 (hello 3 7)) (by decide +kernel)
  refine ⟨h, hr, hfree, ?_⟩
  rintro (⟨c, v, hv, hx⟩ | ⟨id, v, ⟨oc, hoc, -⟩, -⟩)
  · have hc : c < h.next := (fresh hr).lt fun habs => by
      rw [Holds, habs] at hv
      cases hv.1
    refine hconn c hc ?_
    rw [hv.2, Option.map_some, hx]
  · have hmem : id ∈ h.retentionMap.keys :=
      AList.lookup_isSome.mp (Option.isSome_of_mem hoc)
    rw [hkept] at hmem
    cases hmem

end Hub

end EasyTun.Transport
