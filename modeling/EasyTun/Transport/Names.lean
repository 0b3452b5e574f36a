import EasyTun.Lib.Registry
import EasyTun.Transport.Addresses

/-!
# Host names of the server

A client gets a host name together with its address, and `dnsMap` resolves the
name to the address. `handleHandshake` works like a writer of a directory
(`Lib.Registry`): it loads the table of names before the lock, picks a name that
is not in it under the lock, and adds the name to the table after the lock. A
disconnect hands the name on to the retained entry, and a sweep withdraws entry
and name.

- `registry_step`: every step of the hub is a step of that directory, or none,
  provided that a disconnect puts aside a client that has an address;
- `hostnames_consistent`: **if the table that a handshake has loaded is not outdated about
  names like the requested one**, different holders have different names, and each name
  resolves to its holder's address;
- `namesOk_of_sequential`: it is not, if handshakes do not overlap;
- `hostnames_collide`: two handshakes that overlap can pick the same name.
-/

namespace EasyTun.Transport

open EasyTun.Lib EasyTun.Util

/-- `handleHandshake` has given the client a name, and has not added it yet. -/
def Pump.isGiven : Pump → Bool
  | .assigned | .routed => true
  | .idle | .loaded _ _ | .identified _ _ | .exited _ => false

namespace Conn

/-- The name and the address that an open connection has. -/
def record (k : Conn) : Option (Bytes × IP) :=
  if k.serve.isOpen && k.client.virtualIp.isSome then
    some (k.client.hostname, k.client.virtualIp)
  else none

/-- How far `handleHandshake` is with the client's name. -/
def stage (k : Conn) : Stage Bytes IP :=
  match k.pump with
  | .idle | .exited _ => .idle
  | .loaded _ dnsMap | .identified _ dnsMap => .looked fun name => (dnsMap.lookup name).isSome
  | .assigned | .routed => .picked k.client.hostname k.client.virtualIp

theorem record_of_shut {k : Conn} (h : k.serve.isOpen = false) : k.record = none := by
  rw [record, h]
  rfl

theorem record_of_some {k : Conn} (hopen : k.serve.isOpen = true) {v : ByteArr 4}
    (hip : k.client.virtualIp = some v) : k.record = some (k.client.hostname, some v) := by
  rw [record, hopen, hip]
  rfl

theorem record_of_none {k : Conn} (hip : k.client.virtualIp = none) : k.record = none := by
  rw [record, hip, Option.isSome_none, Bool.and_false]
  rfl

/-- A connection that closes at once has no address. -/
theorem record_leave {k : Conn} (hserve : k.serve = .running) :
    { k with serve := if k.client.virtualIp.isSome then .closing else .closed }.record =
      k.record := by
  cases hip : k.client.virtualIp with
  | none =>
    rw [record_of_none hip]
    exact record_of_none hip
  | some v =>
    have hopen : k.serve.isOpen = true := by
      rw [hserve]
      rfl
    rw [record_of_some hopen hip]
    exact record_of_some rfl hip

theorem stage_of_quiet {k : Conn} (h : k.pump.isQuiet = true) : k.stage = .idle := by
  unfold stage
  split
  · rfl
  · rfl
  · next hp => rw [hp] at h; cases h
  · next hp => rw [hp] at h; cases h
  · next hp => rw [hp] at h; cases h
  · next hp => rw [hp] at h; cases h

theorem load_of_short {k : Conn} {payload : Bytes} (h : payload.length < 49)
    (dnsMap : Map Bytes IP) : k.load payload dnsMap = k.fail .packetTooShort :=
  if_pos h

theorem load_of_long {k : Conn} {payload : Bytes} (h : ¬payload.length < 49)
    (dnsMap : Map Bytes IP) : k.load payload dnsMap = { k with pump := .loaded payload dnsMap } :=
  if_neg h

theorem stage_complete (k : Conn) : k.complete.stage = .idle := by
  refine stage_of_quiet ?_
  show Pump.isQuiet (if k.cancelled then .exited none else .idle) = true
  split
  · rfl
  · rfl

theorem stage_looked {k : Conn} {payload : Bytes} {dnsMap : Map Bytes IP}
    (h : k.pump = .identified payload dnsMap) :
    k.stage = .looked fun name => (dnsMap.lookup name).isSome := by
  rw [stage, h]

/-- The connection has a name: it is open and has an address, or its handshake has been given
the name and has not added it yet. -/
def isNamed (k : Conn) : Bool := k.record.isSome || k.pump.isGiven

theorem isNamed_of_record {k : Conn} {name : Bytes} {ip : IP} (h : k.record = some (name, ip)) :
    k.serve.isOpen = true ∧ k.client.hostname = name ∧ k.isNamed = true := by
  have hnamed : k.isNamed = true := by
    rw [isNamed, h]
    rfl
  unfold record at h
  split at h
  · next hopen =>
    cases h
    exact ⟨(Bool.and_eq_true_iff.mp hopen).1, rfl, hnamed⟩
  · cases h

theorem isNamed_of_picked {k : Conn} {name : Bytes} {ip : IP} (h : k.stage = .picked name ip) :
    k.client.hostname = name ∧ k.isNamed = true := by
  unfold stage at h
  split at h
  · cases h
  · cases h
  · cases h
  · cases h
  · next hp =>
    cases h
    exact ⟨rfl, by rw [isNamed, hp]; exact Bool.or_true _⟩
  · next hp =>
    cases h
    exact ⟨rfl, by rw [isNamed, hp]; exact Bool.or_true _⟩

theorem record_of_isSome {k : Conn} (h : k.record.isSome = true) :
    k.record = some (k.client.hostname, k.client.virtualIp) := by
  unfold record at h ⊢
  split at h
  · next hopen => rw [if_pos hopen]
  · cases h

theorem stage_of_given {k : Conn} (h : k.pump.isGiven = true) :
    k.stage = .picked k.client.hostname k.client.virtualIp := by
  unfold stage
  split
  · next hp => rw [hp] at h; cases h
  · next hp => rw [hp] at h; cases h
  · next hp => rw [hp] at h; cases h
  · next hp => rw [hp] at h; cases h
  · rfl
  · rfl

end Conn

namespace Hub

/-- The name and the address of a holder. -/
def record (h : Hub) : Holder → Option (Bytes × IP)
  | .conn c => (h.conn c).record
  | .kept id => (h.retentionMap.lookup id).map fun oc => (oc.hostname, oc.virtualIp)

/-- The host names as a directory. -/
def registry (h : Hub) : Registry Holder ConnId Bytes IP :=
  { owned := h.record, dir := fun name => h.dnsMap.lookup name, stage := fun c => (h.conn c).stage }

/-- No handshake is half-way. -/
def NoHandshake (h : Hub) : Prop := ∀ c < h.next, (h.conn c).pump.isQuiet = true

instance (h : Hub) : Decidable h.NoHandshake := inferInstanceAs (Decidable (∀ c < h.next, _))

/-- The name that a client asks for and the table that its handshake has loaded, before a name is
chosen. There is nothing to choose for a client that has a retained entry. -/
def request (h : Hub) (c : ConnId) : Option (Bytes × Map Bytes IP) :=
  match (h.conn c).pump, h.retentionMap.lookup (h.conn c).client.clientID with
  | .identified payload dnsMap, none => some (payload.drop 49, dnsMap)
  | _, _ => none

theorem identified_of_request {h : Hub} {c : ConnId} {q : Bytes × Map Bytes IP}
    (hq : h.request c = some q) : ∃ payload, (h.conn c).pump = .identified payload q.2 := by
  unfold request at hq
  split at hq
  · next payload dnsMap hpump _ =>
    cases hq
    exact ⟨payload, hpump⟩
  · cases hq

/-- If the name is like the one that is asked for, it is in the table. -/
def Lists (asked : Bytes) (dnsMap : Map Bytes IP) (name : Bytes) : Prop :=
  Alike asked name → (dnsMap.lookup name).isSome = true

instance (asked : Bytes) (dnsMap : Map Bytes IP) (name : Bytes) :
    Decidable (Lists asked dnsMap name) :=
  inferInstanceAs (Decidable (_ → _))

/-- **The table is not outdated about a request**: names like the requested one that another
connection or a retained entry has are in it. -/
def Covers (h : Hub) (c : ConnId) (asked : Bytes) (dnsMap : Map Bytes IP) : Prop :=
  (∀ c' < h.next, (h.conn c').isNamed = true →
    c' = c ∨ Lists asked dnsMap (h.conn c').client.hostname) ∧
  ∀ e ∈ h.retentionMap.entries, Lists asked dnsMap e.2.hostname

instance (h : Hub) (c : ConnId) (asked : Bytes) (dnsMap : Map Bytes IP) :
    Decidable (h.Covers c asked dnsMap) :=
  inferInstanceAs (Decidable (_ ∧ _))

/-- **The condition**: when a name is chosen, the table that the handshake has loaded is not
outdated about the request; and a disconnect puts a client aside that has an address. -/
def NamesOk (h : Hub) : Act → Prop
  | .assign c => ∀ q ∈ h.request c, h.Covers c q.1 q.2
  | .retain c => (h.conn c).client.virtualIp ≠ none
  | _ => True

instance (h : Hub) : (a : Act) → Decidable (NamesOk h a)
  | .assign c => inferInstanceAs (Decidable (∀ q ∈ h.request c, h.Covers c q.1 q.2))
  | .retain c => inferInstanceAs (Decidable ((h.conn c).client.virtualIp ≠ none))
  | .accept | .cancel _ | .quit _ | .load _ _ | .identify _ | .addClient _ | .finish _
  | .disconnect _ | .removeClient _ | .tick _ | .wake | .lock | .sweep _ | .unlock =>
    inferInstanceAs (Decidable True)

/-- Handshakes do not overlap, and a disconnect puts a client aside that has an
address. -/
def Sequential (h : Hub) : Act → Prop
  | .load _ _ => h.NoHandshake
  | .retain c => (h.conn c).client.virtualIp ≠ none
  | _ => True

/-- Every retained entry has an address. -/
def KeptSome (h : Hub) : Prop := ∀ id oc, h.retentionMap.lookup id = some oc → oc.virtualIp ≠ none

/-! ## The hub refines the directory -/

variable {h h' : Hub} {c : ConnId}

theorem record_update {k : Conn} (hconn : h'.conn = Function.update h.conn c k)
    (hkept : h'.retentionMap = h.retentionMap) :
    h'.record = Function.update h.record (.conn c) k.record := by
  funext o
  cases o with
  | conn c' =>
    by_cases hc : c' = c
    · subst hc
      rw [Function.update_self]
      exact congrArg Conn.record ((congrFun hconn c').trans (Function.update_self ..))
    · have hne : Holder.conn c' ≠ .conn c := fun heq => hc (Holder.conn.inj heq)
      rw [Function.update_of_ne hne]
      exact congrArg Conn.record ((congrFun hconn c').trans (Function.update_of_ne hc ..))
  | kept id =>
    rw [Function.update_of_ne (Holder.conn_ne_kept c id).symm]
    show (h'.retentionMap.lookup id).map _ = _
    rw [hkept]
    rfl

theorem stage_update {k : Conn} (hconn : h'.conn = Function.update h.conn c k) :
    (fun c => (h'.conn c).stage) = Function.update (fun c => (h.conn c).stage) c k.stage := by
  funext c'
  rw [hconn]
  exact Function.apply_update (fun _ => Conn.stage) h.conn c k c'

theorem quiet_registry (hf : h.Fresh) (hquiet : h.NoHandshake) : h.registry.Quiet := by
  intro c
  refine Conn.stage_of_quiet ?_
  by_cases hc : c < h.next
  · exact hquiet c hc
  · rw [hf c (Nat.le_of_not_lt hc)]
    rfl

/-- Who has the name that a handshake is given: a connection that is shut is no holder. -/
def target (h : Hub) (c : ConnId) : Option Holder :=
  if (h.conn c).serve.isOpen then some (.conn c) else none

/-- A name like the requested one is free in the directory, if it is not in a table that is not
outdated. -/
theorem free_of_covers (hf : h.Fresh) {payload : Bytes} {dnsMap : Map Bytes IP}
    (hpump : (h.conn c).pump = .identified payload dnsMap) {asked name : Bytes}
    (hcovers : h.Covers c asked dnsMap) (halike : Alike asked name)
    (hnone : dnsMap.lookup name = none) : h.registry.Free (h.target c) name := by
  obtain ⟨hconns, hkept⟩ := hcovers
  -- who has the name, or is about to add it, is the connection itself
  have hself : ∀ c', (h.conn c').client.hostname = name → (h.conn c').isNamed = true →
      h.conn c' ≠ .absent → c' = c := by
    rintro c' rfl hnamed hne
    refine (hconns c' (hf.lt hne) hnamed).resolve_right fun hlists => ?_
    have hsome := hlists halike
    rw [hnone] at hsome
    cases hsome
  constructor
  · rintro (c' | id) ip ho
    · obtain ⟨hopen, hname, hnamed⟩ := Conn.isNamed_of_record ho
      obtain rfl := hself c' hname hnamed fun habsent => by
        rw [habsent] at hopen
        cases hopen
      exact if_pos hopen
    · obtain ⟨oc, hoc, heq⟩ := Option.map_eq_some_iff.mp ho
      cases heq
      have hsome := hkept ⟨id, oc⟩ (AList.mem_lookup_iff.mp hoc) halike
      rw [hnone] at hsome
      cases hsome
  · intro c' ip hp
    obtain ⟨hname, hnamed⟩ := Conn.isNamed_of_picked hp
    have hpicked : (h.conn c').stage = .picked name ip := hp
    obtain rfl := hself c' hname hnamed fun habsent => by
      rw [habsent] at hpicked
      cases hpicked
    cases (Conn.stage_looked hpump).symm.trans hpicked

/-- The only handshake under way has loaded a table that is not outdated. -/
theorem covers_of_alone (halone : h.registry.Alone) {payload : Bytes} {dnsMap : Map Bytes IP}
    (hpump : (h.conn c).pump = .identified payload dnsMap) (asked : Bytes) :
    h.Covers c asked dnsMap := by
  have hstage : h.registry.stage c = .looked fun name => (dnsMap.lookup name).isSome :=
    Conn.stage_looked hpump
  constructor
  · intro c' _ hnamed
    rcases Bool.or_eq_true_iff.mp hnamed with hrecord | hgiven
    · have howned : h.registry.owned (.conn c') = _ := Conn.record_of_isSome hrecord
      exact Or.inr fun _ => halone.covers hstage howned
    · have hpicked : h.registry.stage c' = _ := Conn.stage_of_given hgiven
      exact Or.inl (halone.single (Registry.stage_ne_idle hpicked nofun)
        (Registry.stage_ne_idle hstage nofun))
  · intro e he _
    have hlookup : h.retentionMap.lookup e.1 = some e.2 := AList.mem_lookup_iff.mpr he
    have howned : h.registry.owned (.kept e.1) = some (e.2.hostname, e.2.virtualIp) := by
      show (h.retentionMap.lookup e.1).map _ = _
      rw [hlookup]
      rfl
    exact halone.covers hstage howned

/-- A step that changes one connection and the table of names. -/
theorem registry_update {k : Conn} (hconn : h'.conn = Function.update h.conn c k)
    (hkept : h'.retentionMap = h.retentionMap) :
    h'.registry = { (h.registry.setOwned (.conn c) k.record).setStage c k.stage with
      dir := fun name => h'.dnsMap.lookup name } :=
  Registry.ext (record_update hconn hkept) rfl (stage_update hconn)

theorem registry_modify (h : Hub) (c : ConnId) (f : Conn → Conn) :
    (h.modify c f).registry =
      (h.registry.setOwned (.conn c) (f (h.conn c)).record).setStage c (f (h.conn c)).stage :=
  registry_update rfl rfl

/-- A step that moves `handleHandshake` of one connection on. -/
theorem registry_stage {k : Conn} (hconn : h'.conn = Function.update h.conn c k)
    (hkept : h'.retentionMap = h.retentionMap) (hdns : h'.dnsMap = h.dnsMap)
    (hrecord : k.record = (h.conn c).record) :
    h'.registry = h.registry.setStage c k.stage := by
  rw [registry_update hconn hkept, hrecord, hdns]
  exact Registry.ext (Function.update_eq_self (Holder.conn c) h.record) rfl rfl

/-- A step that leaves name, address and stage of its connection in place. -/
theorem registry_same {k : Conn} (hconn : h'.conn = Function.update h.conn c k)
    (hkept : h'.retentionMap = h.retentionMap) (hdns : h'.dnsMap = h.dnsMap)
    (hrecord : k.record = (h.conn c).record) (hstage : k.stage = (h.conn c).stage) :
    h'.registry = h.registry := by
  rw [registry_stage hconn hkept hdns hrecord, hstage]
  exact Registry.ext rfl rfl (Function.update_eq_self c fun c => (h.conn c).stage)

theorem record_erase (h : Hub) (id : ClientId) :
    ({ h with retentionMap := h.retentionMap.erase id } : Hub).registry =
      h.registry.setOwned (.kept id) none := by
  refine Registry.ext (Function.eq_update_iff.mpr ⟨?_, ?_⟩) rfl rfl
  · show ((h.retentionMap.erase id).lookup id).map _ = none
    rw [AList.lookup_erase]
    rfl
  · rintro (c | id') hne
    · rfl
    · have hid : id' ≠ id := fun heq => hne (congrArg _ heq)
      exact congrArg (Option.map _) (AList.lookup_erase_ne hid)

theorem record_insert (h : Hub) (id : ClientId) (oc : OfflineClient) :
    ({ h with retentionMap := h.retentionMap.insert id oc } : Hub).registry =
      h.registry.setOwned (.kept id) (some (oc.hostname, oc.virtualIp)) := by
  refine Registry.ext (Function.eq_update_iff.mpr ⟨?_, ?_⟩) rfl rfl
  · show ((h.retentionMap.insert id oc).lookup id).map _ = _
    rw [AList.lookup_insert]
    rfl
  · rintro (c | id') hne
    · rfl
    · have hid : id' ≠ id := fun heq => hne (congrArg _ heq)
      exact congrArg (Option.map _) (AList.lookup_insert_ne hid)

/-- An assigned name belongs to the connection, unless it is shut. -/
theorem setOwned_assign {r : Registry Holder ConnId Bytes IP} (v : ByteArr 4) (hostname : Bytes)
    (hr : r.owned (.conn c) = h.registry.owned (.conn c)) :
    r.setOwned (.conn c) ((h.conn c).assign (some v) hostname).record =
      r.give (h.target c) (hostname, some v) := by
  unfold target
  cases hopen : (h.conn c).serve.isOpen with
  | true =>
    have hopen' : ((h.conn c).assign (some v) hostname).serve.isOpen = true := hopen
    rw [Conn.record_of_some hopen' rfl]
    rfl
  | false =>
    have hopen' : ((h.conn c).assign (some v) hostname).serve.isOpen = false := hopen
    have hnone : r.owned (.conn c) = none := hr.trans (Conn.record_of_shut hopen)
    rw [Conn.record_of_shut hopen', ← hnone]
    exact Registry.ext (Function.update_eq_self (Holder.conn c) r.owned) rfl rfl

section Assign

variable {payload : Bytes} {dnsMap : Map Bytes IP}
  (hpump : (h.conn c).pump = .identified payload dnsMap)

include hpump

/-- The identity has a retained entry: its name and address change hands. -/
theorem registry_takeOver {oc : OfflineClient}
    (hoc : h.retentionMap.lookup (h.conn c).client.clientID = some oc) {v : ByteArr 4}
    (hv : oc.virtualIp = some v) :
    Registry.step h.registry
        (.takeOver c (h.target c) (.kept (h.conn c).client.clientID)) =
      some (h.assign c payload dnsMap).registry := by
  have hstage : h.registry.stage c = .looked fun name => (dnsMap.lookup name).isSome :=
    Conn.stage_looked hpump
  have howned : h.registry.owned (.kept (h.conn c).client.clientID) =
      some (oc.hostname, some v) := by
    show (h.retentionMap.lookup _).map _ = _
    rw [hoc, ← hv]
    rfl
  let h₁ : Hub := { h with retentionMap := h.retentionMap.erase (h.conn c).client.clientID }
  have hassign : h.assign c payload dnsMap = h₁.modify c (·.assign (some v) oc.hostname) := by
    unfold assign
    rw [hoc]
    dsimp only
    rw [hv]
    rfl
  have hreg : (h.assign c payload dnsMap).registry =
      (h₁.registry.give (h.target c) (oc.hostname, some v)).setStage c
        (.picked oc.hostname (some v)) := by
    rw [hassign, ← setOwned_assign (h := h) (r := h₁.registry) v oc.hostname rfl]
    exact registry_modify h₁ c (·.assign (some v) oc.hostname)
  rw [hreg, record_erase]
  simp only [Registry.step, hstage, howned]

/-- A name is chosen, but without an address the connection owns nothing. -/
theorem registry_fail (hnone : h.retentionMap.lookup (h.conn c).client.clientID = none)
    (hip : h.getIp.1 = none) :
    Registry.step h.registry (.fail c (.conn c)) =
      some (h.assign c payload dnsMap).registry := by
  have hstage : h.registry.stage c = .looked fun name => (dnsMap.lookup name).isSome :=
    Conn.stage_looked hpump
  have hreg := registry_modify h.getIp.2 c
    (·.assign none (uniqueHostName (payload.drop 49) dnsMap))
  rw [Conn.record_of_none rfl] at hreg
  unfold assign
  rw [hnone]
  dsimp only
  rw [hip, hreg]
  simp only [Registry.step, hstage]
  rfl

/-- A name is chosen that is free in the copy of the table that the handshake loaded. -/
theorem registry_pick (hnone : h.retentionMap.lookup (h.conn c).client.clientID = none)
    {v : ByteArr 4} (hip : h.getIp.1 = some v) :
    Registry.step h.registry
        (.pick c (h.target c) (uniqueHostName (payload.drop 49) dnsMap) (some v)) =
      some (h.assign c payload dnsMap).registry := by
  have hstage : h.registry.stage c = .looked fun name => (dnsMap.lookup name).isSome :=
    Conn.stage_looked hpump
  have hfree : (dnsMap.lookup (uniqueHostName (payload.drop 49) dnsMap)).isSome = false := by
    rw [lookup_uniqueHostName]
    rfl
  have hassign : h.assign c payload dnsMap =
      h.getIp.2.modify c (·.assign (some v) (uniqueHostName (payload.drop 49) dnsMap)) := by
    unfold assign
    rw [hnone]
    dsimp only
    rw [hip]
  generalize uniqueHostName (payload.drop 49) dnsMap = name at hfree hassign ⊢
  have hreg : (h.assign c payload dnsMap).registry =
      (h.registry.give (h.target c) (name, some v)).setStage c (.picked name (some v)) := by
    rw [hassign, ← setOwned_assign v name rfl]
    exact registry_modify h.getIp.2 c (·.assign (some v) name)
  rw [hreg]
  simp only [Registry.step, hstage, hfree]
  rfl

/-- The section of `handleHandshake` under the lock: a name is picked or taken
over, or there is no address. -/
theorem registry_assign (hkept : h.KeptSome) (hf : h.Fresh) :
    ∃ b, Registry.OneAtATime h.registry b ∧
      (NamesOk h (.assign c) → Registry.PicksFree h.registry b) ∧
      Registry.step h.registry b = some (h.assign c payload dnsMap).registry := by
  cases hoc : h.retentionMap.lookup (h.conn c).client.clientID with
  | some oc =>
    obtain ⟨v, hv⟩ := Option.ne_none_iff_exists'.mp (hkept _ oc hoc)
    exact ⟨.takeOver _ _ _, trivial, fun _ => trivial, registry_takeOver hpump hoc hv⟩
  | none =>
    cases hip : h.getIp.1 with
    | none => exact ⟨.fail _ _, trivial, fun _ => trivial, registry_fail hpump hoc hip⟩
    | some v =>
      refine ⟨.pick _ _ _ _, trivial, fun hok => ?_, registry_pick hpump hoc hip⟩
      have hrequest : h.request c = some (payload.drop 49, dnsMap) := by
        simp only [request, hpump, hoc]
      exact free_of_covers hf hpump (hok _ hrequest) (alike_uniqueHostName ..)
        (lookup_uniqueHostName ..)

end Assign

/-- A disconnect hands the name on to the retained entry. -/
theorem registry_retain (retentionTime : Int) (hserve : (h.conn c).serve = .closing)
    (hip : (h.conn c).client.virtualIp ≠ none) :
    Registry.step h.registry (.move (.conn c) (.kept (h.conn c).client.clientID)) =
      some (h.retain retentionTime c).registry := by
  obtain ⟨v, hv⟩ := Option.ne_none_iff_exists'.mp hip
  have hrecord : (h.conn c).record = some ((h.conn c).client.hostname, some v) := by
    refine Conn.record_of_some ?_ hv
    rw [hserve]
    rfl
  have hreg : (h.retain retentionTime c).registry =
      (h.modify c fun k => { k with serve := .stored }).registry.setOwned
        (.kept (h.conn c).client.clientID)
        (some ((h.conn c).client.hostname, (h.conn c).client.virtualIp)) :=
    record_insert ..
  have hmod : (h.modify c fun k => { k with serve := .stored }).registry =
      h.registry.setOwned (.conn c) none := by
    rw [registry_modify]
    exact Registry.ext rfl rfl (Function.update_eq_self c fun c => (h.conn c).stage)
  rw [hreg, hmod, hv, ← hrecord]
  rfl

theorem registry_removeDns (h : Hub) (hostname : Bytes) :
    (h.removeDns hostname).registry = h.registry.setDir hostname none := by
  refine Registry.ext rfl (funext fun name => ?_) rfl
  show (h.dnsMap.keepIf _).lookup name =
    Function.update (fun name => h.dnsMap.lookup name) hostname none name
  rw [Map.lookup_keepIf]
  by_cases hname : name = hostname
  · subst hname
    rw [Function.update_self]
    exact Option.filter_eq_none_iff.mpr fun _ _ => by simp
  · rw [Function.update_of_ne hname]
    have hkeep : (!(hostname == name)) = true := by simp [Ne.symm hname]
    show (h.dnsMap.lookup name).filter (fun _ => !(hostname == name)) = h.dnsMap.lookup name
    rw [hkeep]
    cases h.dnsMap.lookup name with
    | none => rfl
    | some ip => rfl

theorem registry_addDns (h : Hub) (hostname : Bytes) (ip : IP) :
    (h.addDns hostname ip).registry = h.registry.setDir hostname (some ip) := by
  refine Registry.ext rfl (Function.eq_update_iff.mpr ⟨?_, ?_⟩) rfl
  · exact AList.lookup_insert ..
  · exact fun name hne => AList.lookup_insert_ne hne

/-- A sweep withdraws an expired entry with its name. -/
theorem registry_sweepEntry (now : Int) (id : ClientId) :
    (h.sweepEntry now id).registry = h.registry ∨
      Registry.step h.registry (.retire (.kept id)) = some (h.sweepEntry now id).registry := by
  unfold sweepEntry
  split
  · exact Or.inl rfl
  · next oc hoc =>
    split
    · right
      have howned : h.registry.owned (.kept id) = some (oc.hostname, oc.virtualIp) :=
        congrArg (Option.map _) hoc
      have hreg : ({ (h.releaseIp oc.virtualIp).removeDns oc.hostname with
          retentionMap := h.retentionMap.erase id } : Hub).registry =
          (h.registry.setOwned (.kept id) none).setDir oc.hostname none := by
        rw [← record_erase, ← registry_removeDns]
        cases oc.virtualIp with
        | none => rfl
        | some v => rfl
      rw [hreg]
      simp only [Registry.step, howned]
    · exact Or.inl rfl

/-- A handshake begins: it looks at the table, unless its payload is too short. -/
theorem registry_load (payload : Bytes) (hpump : (h.conn c).pump = .idle) :
    (h.modify c (·.load payload h.dnsMap)).registry = h.registry ∨
      Registry.step h.registry (.look c) =
        some (h.modify c (·.load payload h.dnsMap)).registry := by
  have hidle : (h.conn c).stage = .idle := by
    rw [Conn.stage, hpump]
  by_cases hlen : payload.length < 49
  · refine Or.inl (registry_same rfl rfl rfl ?_ ?_)
    · exact (congrArg Conn.record (Conn.load_of_short hlen _)).trans rfl
    · exact (congrArg Conn.stage (Conn.load_of_short hlen _)).trans hidle.symm
  · have hreg : (h.modify c (·.load payload h.dnsMap)).registry =
        h.registry.setStage c ((h.conn c).load payload h.dnsMap).stage :=
      registry_stage rfl rfl rfl (by rw [Conn.load_of_long hlen]; rfl)
    have hstage : h.registry.stage c = .idle := hidle
    right
    rw [hreg, Conn.load_of_long hlen]
    simp only [Registry.step, hstage]
    rfl

/-- A handshake ends: it adds the name. -/
theorem registry_finish (hpump : (h.conn c).pump = .routed) :
    Registry.step h.registry (.publish c) = some (h.finish c).registry := by
  have hstage : h.registry.stage c = .picked (h.conn c).client.hostname
      (h.conn c).client.virtualIp := by
    show (h.conn c).stage = _
    rw [Conn.stage, hpump]
  have hreg : (h.finish c).registry = (h.registry.setDir (h.conn c).client.hostname
      (some (h.conn c).client.virtualIp)).setStage c .idle := by
    rw [← registry_addDns, ← Conn.stage_complete (h.conn c)]
    exact registry_stage rfl rfl rfl rfl
  rw [hreg]
  simp only [Registry.step, hstage]

/-- **Every step is a step of the directory, or none**, and what the hub's conditions say about
it is what the directory's conditions say. -/
theorem registry_step {retentionTime : Int} {a : Act} (hf : h.Fresh) (hkept : h.KeptSome)
    (hip : ∀ c, a = .retain c → (h.conn c).client.virtualIp ≠ none)
    (hs : step retentionTime h a = some h') :
    h'.registry = h.registry ∨ ∃ b, (Sequential h a → Registry.OneAtATime h.registry b) ∧
      (NamesOk h a → Registry.PicksFree h.registry b) ∧
      Registry.step h.registry b = some h'.registry := by
  cases does_of_step hs with
  | @load c payload hpump =>
    rcases registry_load payload hpump with heq | hlook
    · exact Or.inl heq
    · exact Or.inr ⟨.look c, quiet_registry hf, fun _ => trivial, hlook⟩
  | assign hpump _ =>
    obtain ⟨b, hone, hfree, hb⟩ := registry_assign hpump hkept hf
    exact Or.inr ⟨b, fun _ => hone, hfree, hb⟩
  | finish hpump =>
    exact Or.inr ⟨.publish _, fun _ => trivial, fun _ => trivial, registry_finish hpump⟩
  | retain hserve _ =>
    exact Or.inr ⟨.move _ _, fun _ => trivial, fun _ => trivial,
      registry_retain retentionTime hserve (hip _ rfl)⟩
  | sweep _ _ =>
    rcases registry_sweepEntry _ _ with heq | heq
    · exact Or.inl heq
    · exact Or.inr ⟨.retire _, fun _ => trivial, fun _ => trivial, heq⟩
  | accept =>
    refine Or.inl (registry_same rfl rfl rfl ?_ ?_)
    · rw [hf h.next (Nat.le_refl _)]
      rfl
    · rw [hf h.next (Nat.le_refl _)]
      rfl
  | cancel _ => exact Or.inl (registry_same rfl rfl rfl rfl rfl)
  | quit hpump =>
    refine Or.inl (registry_same rfl rfl rfl rfl ?_)
    rw [Conn.stage, Conn.stage, hpump]
  | identify hpump =>
    refine Or.inl (registry_same rfl rfl rfl rfl ?_)
    rw [Conn.stage, Conn.stage, hpump]
    rfl
  | addClient hpump =>
    refine Or.inl (registry_same rfl rfl rfl rfl ?_)
    rw [Conn.stage, Conn.stage, hpump]
  | disconnect hserve _ => exact Or.inl (registry_same rfl rfl rfl (Conn.record_leave hserve) rfl)
  | removeClient hserve =>
    refine Or.inl (registry_same rfl rfl rfl ?_ rfl)
    rw [Conn.record_of_shut rfl, Conn.record_of_shut (k := h.conn _) (by rw [hserve]; rfl)]
  | tick _ => exact Or.inl rfl
  | wake _ => exact Or.inl rfl
  | lock _ => exact Or.inl rfl
  | unlock _ => exact Or.inl rfl

/-- Only a disconnect adds an entry. -/
theorem keptSome_step {retentionTime : Int} {a : Act} (hkept : h.KeptSome)
    (hip : ∀ c, a = .retain c → (h.conn c).client.virtualIp ≠ none)
    (hs : step retentionTime h a = some h') : h'.KeptSome := by
  have herase : ∀ id, ∀ id' oc, (h.retentionMap.erase id).lookup id' = some oc →
      oc.virtualIp ≠ none := by
    intro id id' oc hoc
    by_cases hid : id' = id
    · rw [hid, AList.lookup_erase] at hoc
      cases hoc
    · rw [AList.lookup_erase_ne hid] at hoc
      exact hkept id' oc hoc
  cases does_of_step hs with
  | @retain c hserve _ =>
    intro id oc hoc
    by_cases hid : id = (h.conn c).client.clientID
    · rw [hid] at hoc
      cases (AList.lookup_insert ..).symm.trans hoc
      exact hip c rfl
    · exact hkept id oc ((AList.lookup_insert_ne hid).symm.trans hoc)
  | @assign c _ _ _ _ =>
    show KeptSome (assign ..)
    unfold assign
    split
    · exact herase _
    · exact hkept
  | @sweep now ids id hsweep hid =>
    show KeptSome { h.sweepEntry now id with sweeper := _ }
    unfold sweepEntry
    split
    · exact hkept
    · split
      · exact herase _
      · exact hkept
  | accept => exact hkept
  | cancel _ => exact hkept
  | quit _ => exact hkept
  | load _ _ => exact hkept
  | identify _ => exact hkept
  | addClient _ => exact hkept
  | finish _ => exact hkept
  | disconnect _ _ => exact hkept
  | removeClient _ => exact hkept
  | tick _ => exact hkept
  | wake _ => exact hkept
  | lock _ => exact hkept
  | unlock _ => exact hkept

theorem registry_newHub : newHub.registry = Registry.machine.init := by
  refine Registry.ext (funext fun o => ?_) rfl rfl
  cases o with
  | conn c => rfl
  | kept id => rfl

/-- **The hub refines the directory**, under a condition that is about disconnects and implies
one of the directory's. -/
theorem registry_reach {retentionTime : Int} {ok : Hub → Act → Prop}
    {ok' : Registry Holder ConnId Bytes IP → Registry.Act Holder ConnId Bytes IP → Prop}
    (hip : ∀ h c, ok h (.retain c) → (h.conn c).client.virtualIp ≠ none)
    (himp : ∀ h a b, ok h a → (Sequential h a → Registry.OneAtATime h.registry b) →
      (NamesOk h a → Registry.PicksFree h.registry b) → ok' h.registry b)
    (hr : (machine retentionTime).ReachVia ok h) :
    Registry.machine.ReachVia ok' h.registry := by
  obtain ⟨r, hr', rfl, -, -⟩ := hr.simulate
    (fun h r => h.registry = r ∧ h.Fresh ∧ h.KeptSome)
    ⟨registry_newHub, fun _ _ => rfl, nofun⟩ (by
      rintro h h' a r - ⟨rfl, hf, hkept⟩ hok hs
      have hip' : ∀ c, a = .retain c → (h.conn c).client.virtualIp ≠ none :=
        fun c ha => hip h c (ha ▸ hok)
      have hf' := fresh_step hf hs
      have hkept' := keptSome_step hkept hip' hs
      rcases registry_step hf hkept hip' hs with heq | ⟨b, hone, hfree, hs'⟩
      · exact Or.inl ⟨heq, hf', hkept'⟩
      · exact Or.inr ⟨b, h'.registry, himp h a b hok hone hfree, hs', rfl, hf', hkept'⟩)
  exact hr'

/-- The names as a directory are consistent. -/
theorem registry_consistent {retentionTime : Int}
    (hr : (machine retentionTime).ReachVia NamesOk h) : h.registry.Consistent :=
  Registry.consistent
    (registry_reach (fun _ _ hip => hip) (fun _ _ _ hok _ himp => himp hok) hr)

/-! ## Names between handshakes -/

/-- Different holders have different names, and each name resolves to the address
of its holder. -/
def NamesUnique (h : Hub) : Prop :=
  (∀ o o' name ip ip', h.record o = some (name, ip) → h.record o' = some (name, ip') → o = o') ∧
    ∀ o name ip, h.record o = some (name, ip) → h.dnsMap.lookup name = some ip

/-- **Host names are consistent** between handshakes, in every run in which a name is chosen from
a table that is not outdated about the request, and a disconnect puts aside a client that has
an address. -/
theorem hostnames_consistent {retentionTime : Int}
    (hr : (machine retentionTime).ReachVia NamesOk h) (hquiet : h.NoHandshake) :
    h.NamesUnique := by
  have hC := registry_consistent hr
  constructor
  · exact fun o o' name ip ip' ho ho' => hC.distinct ho ho'
  · exact fun o name ip ho => hC.listed_of_quiet (quiet_registry (fresh hr.reach) hquiet) ho

/-- **Handshakes that do not overlap** meet the condition: the names that are in use are in the
table that was loaded. -/
theorem namesOk_of_sequential {retentionTime : Int}
    (hr : (machine retentionTime).ReachVia Sequential h) :
    (machine retentionTime).ReachVia NamesOk h := by
  refine hr.invariant .init fun {h h' a} hr hr' hok hs => .step hr' ?_ hs
  have hreg : Registry.machine.ReachVia Registry.OneAtATime h.registry :=
    registry_reach (fun _ _ hip => hip) (fun _ _ _ hok himp _ => himp hok) hr
  have halone := (Registry.picksFree_of_oneAtATime hreg).2
  cases a with
  | assign c =>
    intro q hq
    obtain ⟨payload, hpump⟩ := identified_of_request hq
    exact covers_of_alone halone hpump q.1
  | retain c => exact hok
  | accept | cancel _ | quit _ | load _ _ | identify _ | addClient _ | finish _ | disconnect _
  | removeClient _ | tick _ | wake | lock | sweep _ | unlock => trivial

/-- The payload of a client with this identity that asks for this host name. -/
def helloAs (b : UInt8) (name : Bytes) : Bytes := hello 3 b ++ name

/-- Two clients ask for the same name one after the other, and the first leaves:
its entry keeps the name, and the second one has another. -/
theorem hostnames_consistent_sequential :
    ∃ h, ((machine 300).ReachVia NamesOk h ∧ h.NoHandshake ∧
        h.record (.kept (idOf 7)) = some ([112, 99], some (hostIp 2)) ∧
        h.record (.conn 1) = some ([112, 99, 45, 49], some (hostIp 3))) ∧ h.NamesUnique := by
  obtain ⟨h, hr, hquiet, hkept, hconn⟩ : ∃ h, (machine 300).ReachVia NamesOk h ∧ h.NoHandshake ∧
      h.record (.kept (idOf 7)) = some ([112, 99], some (hostIp 2)) ∧
      h.record (.conn 1) = some ([112, 99, 45, 49], some (hostIp 3)) :=
    Machine.exists_reachVia
      ([.accept, .accept] ++ handshake 0 (helloAs 7 [112, 99]) ++
        handshake 1 (helloAs 8 [112, 99]) ++ [.cancel 0, .disconnect 0, .retain 0])
      (by decide +kernel)
  exact ⟨h, ⟨hr, hquiet, hkept, hconn⟩, hostnames_consistent hr hquiet⟩

-- Handshakes that overlap meet the condition as well, if the names they ask for are not alike.
example :
    ∃ h, (machine 300).ReachVia NamesOk h ∧ h.NoHandshake ∧
      h.record (.conn 0) = some ([112, 99], some (hostIp 2)) ∧
      h.record (.conn 1) = some ([116, 118], some (hostIp 3)) :=
  Machine.exists_reachVia
    [.accept, .accept, .load 0 (helloAs 7 [112, 99]), .load 1 (helloAs 8 [116, 118]), .identify 0,
      .identify 1, .assign 0, .assign 1, .addClient 0, .addClient 1, .finish 0, .finish 1]
    (by decide +kernel)

/-- **Two handshakes that overlap pick the same name.** Both load the table before
either adds a name. The name then resolves to the second client's address. -/
theorem hostnames_collide :
    ∃ h, (machine 300).Reach h ∧ h.NoHandshake ∧
      h.record (.conn 0) = some ([112, 99], some (hostIp 2)) ∧
      h.record (.conn 1) = some ([112, 99], some (hostIp 3)) ∧
      h.dnsMap.lookup [112, 99] = some (some (hostIp 3)) :=
  Machine.exists_reach
    [.accept, .accept, .load 0 (helloAs 7 [112, 99]), .load 1 (helloAs 8 [112, 99]), .identify 0,
      .identify 1, .assign 0, .assign 1, .addClient 0, .addClient 1, .finish 0, .finish 1]
    (by decide +kernel)

end Hub

end EasyTun.Transport
