import EasyTun.Transport.Addresses

/-!
# A client's address and name across reconnects

A client that comes back within the retention time gets the address and the host
name it had. It is recognised by the identity `clientID` that it presents in its
handshake.

The runs in question are those of one identity `X` whose connections follow one
another (`Alone`): a connection that presents `X` makes one handshake, and begins
it when every earlier connection of `X` is closed. The other clients do anything.

- `Conn.Tidy`: what can be said of a single connection. In particular, a
  connection that has not got an address yet cannot be cancelled, since nothing is
  written to it.
- `Orderly`: at most one connection that presents `X` is not closed.
- `Kept X v n`: the pair `(v, n)` is with the retained entry of `X` or with the
  open connection of `X`, until a sweep finds the entry expired.
- `identity_kept`: **every later handshake of `X` gets `(v, n)`, and no other
  connection gets `v`**.
-/

namespace EasyTun.Transport

open EasyTun.Lib EasyTun.Util

/-- The identity in the payload of a handshake (server_ws.go:150). -/
def identityOf (payload : Bytes) : ClientId := .ofBytes 16 (payload.drop 33)

namespace Pump

/-- A handshake has begun, and the client has no new address yet. -/
def isOffering : Pump → Bool
  | .loaded _ _ | .identified _ _ => true
  | .idle | .assigned | .routed | .exited _ => false

def isExited : Pump → Bool
  | .exited _ => true
  | .idle | .loaded _ _ | .identified _ _ | .assigned | .routed => false

theorem not_exited_of_offering {p : Pump} (h : p.isOffering = true) : p.isExited = false := by
  cases p with
  | exited err => cases h
  | _ => rfl

end Pump

/-- The time a sweep compares the entries with. -/
def Sweeper.sweepTime : Sweeper → Option Int
  | .sweeping now _ => some now
  | .idle | .woken _ => none

/-! ## One connection -/

namespace Conn

variable {k k' : Conn} {X : ClientId}

/-- The identity that a connection presents: its handshake has it in its payload,
or has given the connection an address under it. -/
def presented (k : Conn) : Option ClientId :=
  match k.pump with
  | .loaded payload _ => some (identityOf payload)
  | .identified _ _ => some k.client.clientID
  | .idle | .assigned | .routed | .exited _ => k.client.virtualIp.map fun _ => k.client.clientID

theorem presented_of_not_offering (h : k.pump.isOffering = false) :
    k.presented = k.client.virtualIp.map fun _ => k.client.clientID := by
  unfold presented
  split
  · next hp => rw [hp] at h; cases h
  · next hp => rw [hp] at h; cases h
  · rfl
  · rfl
  · rfl
  · rfl

theorem presented_of_identified {payload : Bytes} {dnsMap : Map Bytes IP}
    (h : k.pump = .identified payload dnsMap) : k.presented = some k.client.clientID := by
  rw [presented, h]

/-- Outside of the first half of a handshake, what is presented depends on the
client only. -/
theorem presented_eq (hclient : k'.client = k.client) (h : k.pump.isOffering = false)
    (h' : k'.pump.isOffering = false) : k'.presented = k.presented := by
  rw [presented_of_not_offering h, presented_of_not_offering h', hclient]

/-- What holds of every connection. -/
structure Tidy (X : ClientId) (k : Conn) : Prop where
  /-- Without an address, only the end of `readPump` cancels the context. -/
  calm : k.client.virtualIp = none → k.pump.isExited = false →
    k.serve = .running ∧ k.cancelled = false
  /-- A connection of `X` makes one handshake. -/
  once : k.presented = some X → k.pump.isOffering = true → k.client.virtualIp = none
  /-- A connection with the identity `X` that does not present it has no address. -/
  stranger : k.presented ≠ some X → k.client.clientID = X →
    k.client.virtualIp = none ∧ k.serve ≠ .closing

theorem tidy_absent : absent.Tidy X where
  calm _ h := by cases h
  once h := by cases h
  stranger _ _ := ⟨rfl, nofun⟩

theorem tidy_accepted : accepted.Tidy X where
  calm _ _ := ⟨rfl, rfl⟩
  once h := by cases h
  stranger _ _ := ⟨rfl, nofun⟩

namespace Tidy

/-- A change that touches neither the client nor what is presented. -/
theorem keep (hk : k.Tidy X) (hclient : k'.client = k.client) (hserve : k'.serve = k.serve)
    (hpresented : k'.presented = k.presented) (hoffering : k'.pump.isOffering = k.pump.isOffering)
    (hcalm : k.client.virtualIp = none → k'.pump.isExited = false →
      k.pump.isExited = false ∧ (k.cancelled = false → k'.cancelled = false)) : k'.Tidy X where
  calm hip hexit := by
    rw [hclient] at hip
    obtain ⟨hexit, hcancelled⟩ := hcalm hip hexit
    obtain ⟨hrunning, hfalse⟩ := hk.calm hip hexit
    exact ⟨hserve.trans hrunning, hcancelled hfalse⟩
  once hp hoff := by
    rw [hclient]
    exact hk.once (hpresented ▸ hp) (hoffering ▸ hoff)
  stranger hp hid := by
    rw [hclient] at hid ⊢
    rw [hserve]
    exact hk.stranger (hpresented ▸ hp) hid

/-- `serverWS` goes on, after the context was cancelled. -/
theorem leave (hk : k.Tidy X) {s : Serve} (hleft : ¬(k.serve = .running ∧ k.cancelled = false))
    (hs : k.client.virtualIp = none → s ≠ .closing) : ({ k with serve := s } : Conn).Tidy X where
  calm hip hexit := absurd (hk.calm hip hexit) hleft
  once := hk.once
  stranger hp hid := ⟨(hk.stranger hp hid).1, hs (hk.stranger hp hid).1⟩

/-- A handshake begins on a connection that does not present `X`. -/
theorem load (hk : k.Tidy X) (hpump : k.pump = .idle) {payload : Bytes} {dnsMap : Map Bytes IP}
    (hother : k.presented ≠ some X)
    (hfirst : identityOf payload = X → k.client.virtualIp = none) :
    ({ k with pump := .loaded payload dnsMap } : Conn).Tidy X where
  calm hip _ := hk.calm hip (by rw [hpump]; rfl)
  once hp _ := hfirst (Option.some.inj hp)
  stranger _ hid := hk.stranger hother hid

theorem identify (hk : k.Tidy X) {payload : Bytes} {dnsMap : Map Bytes IP}
    (hpump : k.pump = .loaded payload dnsMap) : (k.identify payload dnsMap).Tidy X where
  calm hip _ := hk.calm hip (by rw [hpump]; rfl)
  once hp _ := by
    refine hk.once ?_ (by rw [hpump]; rfl)
    rw [presented, hpump]
    exact hp
  stranger hp hid := absurd (congrArg some hid) hp

theorem assign (hk : k.Tidy X) {payload : Bytes} {dnsMap : Map Bytes IP}
    (hpump : k.pump = .identified payload dnsMap) (ip : IP) (hostname : Bytes) :
    (k.assign ip hostname).Tidy X := by
  have hoffering : k.pump.isOffering = true := by
    rw [hpump]
    rfl
  cases ip with
  | none =>
    refine ⟨fun _ h => ?_, fun h => ?_, fun _ hid => ⟨rfl, ?_⟩⟩
    · cases h
    · cases h
    · -- it presented `X`, so it had no address and was not cancelled
      have hp : k.presented = some X := (presented_of_identified hpump).trans (congrArg some hid)
      have hrunning := hk.calm (hk.once hp hoffering) (Pump.not_exited_of_offering hoffering)
      show k.serve ≠ .closing
      rw [hrunning.1]
      exact nofun
  | some v =>
    refine ⟨fun h => ?_, fun _ h => ?_, fun hp hid => ?_⟩
    · cases h
    · cases h
    · exact absurd (congrArg some hid) hp

end Tidy

/-- The connection presents `X` and is not closed. -/
def Active (k : Conn) (X : ClientId) : Prop := k.presented = some X ∧ k.serve ≠ .closed

/-- The connection is open under the identity `X` with this address and this name. -/
structure Has (k : Conn) (X : ClientId) (v : ByteArr 4) (n : Bytes) : Prop where
  presented : k.presented = some X
  isOpen : k.serve.isOpen = true
  virtualIp : k.client.virtualIp = some v
  hostname : k.client.hostname = n

theorem ne_closed_of_isOpen (h : k.serve.isOpen = true) : k.serve ≠ .closed := by
  intro hclosed
  rw [hclosed] at h
  cases h

variable {v : ByteArr 4} {n : Bytes}

theorem Has.active (hk : k.Has X v n) : k.Active X := ⟨hk.presented, ne_closed_of_isOpen hk.isOpen⟩

theorem Has.not_offering (hk : k.Has X v n) (ht : k.Tidy X) : k.pump.isOffering = false := by
  cases hoff : k.pump.isOffering with
  | false => rfl
  | true =>
    have hnone := ht.once hk.presented hoff
    rw [hk.virtualIp] at hnone
    cases hnone

theorem Has.clientID (hk : k.Has X v n) (ht : k.Tidy X) : k.client.clientID = X := by
  have hp := hk.presented
  rw [presented_of_not_offering (hk.not_offering ht), hk.virtualIp] at hp
  exact Option.some.inj hp

/-- A connection that presents `X` and has no address runs. -/
theorem Tidy.running (ht : k.Tidy X) (hp : k.presented = some X)
    (hip : k.client.virtualIp = none) : k.serve = .running := by
  cases hoff : k.pump.isOffering with
  | true => exact (ht.calm hip (Pump.not_exited_of_offering hoff)).1
  | false =>
    rw [presented_of_not_offering hoff, hip] at hp
    cases hp

end Conn

namespace Hub

variable {retentionTime : Int} {h h' : Hub} {a : Act} {c : ConnId} {X : ClientId}
variable {v : ByteArr 4} {n : Bytes}

/-! ## What a step does to one connection -/

/-- The changes of a connection from `k` to `k'`, as far as identities go. -/
inductive Turn (h : Hub) (a : Act) (c : ConnId) (k k' : Conn) : Prop where
  | keep (hclient : k'.client = k.client) (hpresented : k'.presented = k.presented)
      (hback : k'.serve.isOpen = true → k.serve.isOpen = true)
      (hclosed : k'.serve ≠ .closed → k.serve ≠ .closed)
      (hopen : k.serve.isOpen = true → k.client.virtualIp ≠ none →
        k'.serve.isOpen = true ∨ a = .retain c)
  | accept (hk : k = .absent) (hk' : k' = .accepted)
  | load (payload : Bytes) (ha : a = .load c payload) (hlen : 49 ≤ payload.length)
      (hclient : k'.client = k.client) (hserve : k'.serve = k.serve)
      (hpresented : k'.presented = some (identityOf payload))
  | identify (hvip : k'.client.virtualIp = k.client.virtualIp) (hserve : k'.serve = k.serve)
      (hpresented : k'.presented = k.presented) (hoffering : k.pump.isOffering = true)
  | assign (ha : a = .assign c) {payload : Bytes} {dnsMap : Map Bytes IP}
      (hpump : k.pump = .identified payload dnsMap) (hostname : Bytes)
      (hk' : k' = k.assign (h.offer c) hostname)

theorem Turn.refl (k : Conn) : Turn h a c k k :=
  .keep rfl rfl id id fun hopen _ => Or.inl hopen

/-- A step that leaves all connections but one alone. -/
theorem turn_update {i : ConnId} {k : Conn} (hconn : h'.conn = Function.update h.conn i k)
    (hk : Turn h a i (h.conn i) k) (c : ConnId) : Turn h a c (h.conn c) (h'.conn c) := by
  rw [hconn]
  by_cases hc : c = i
  · subst hc
    rw [Function.update_self]
    exact hk
  · rw [Function.update_of_ne hc]
    exact .refl _

/-- A change to the goroutines only, outside of the first half of a handshake. -/
theorem turn_pump {k k' : Conn} (hclient : k'.client = k.client) (hserve : k'.serve = k.serve)
    (hoff : k.pump.isOffering = false) (hoff' : k'.pump.isOffering = false) : Turn h a c k k' := by
  refine .keep hclient (Conn.presented_eq hclient hoff hoff') ?_ ?_ ?_
  · rw [hserve]
    exact id
  · rw [hserve]
    exact id
  · rw [hserve]
    exact fun hopen _ => Or.inl hopen

theorem isOffering_complete (k : Conn) : k.complete.pump.isOffering = false := by
  unfold Conn.complete
  cases k.cancelled with
  | true => rfl
  | false => rfl

theorem turn_of_step (hf : h.Fresh) (hs : step retentionTime h a = some h') (c : ConnId) :
    Turn h a c (h.conn c) (h'.conn c) := by
  cases does_of_step hs with
  | accept =>
    refine turn_update rfl ?_ c
    exact .accept (hf _ (Nat.le_refl _)) rfl
  | cancel _ =>
    refine turn_update rfl ?_ c
    exact .keep rfl rfl id id fun hopen _ => Or.inl hopen
  | quit hpump =>
    refine turn_update rfl ?_ c
    exact turn_pump rfl rfl (by rw [hpump]; rfl) rfl
  | @load i payload hpump =>
    refine turn_update rfl ?_ c
    beta_reduce
    unfold Conn.load
    split
    · exact turn_pump rfl rfl (by rw [hpump]; rfl) rfl
    · next hlen => exact .load payload rfl (Nat.not_lt.mp hlen) rfl rfl rfl
  | identify hpump =>
    refine turn_update rfl ?_ c
    refine .identify rfl rfl ?_ (by rw [hpump]; rfl)
    conv_rhs => rw [Conn.presented, hpump]
    rfl
  | assign hpump _ =>
    obtain ⟨⟨hostname, hconn⟩, -, -⟩ := assign_frame _ _
    refine turn_update hconn ?_ c
    exact .assign rfl hpump hostname rfl
  | addClient hpump =>
    refine turn_update rfl ?_ c
    exact turn_pump rfl rfl (by rw [hpump]; rfl) rfl
  | @finish i hpump =>
    refine turn_update rfl ?_ c
    refine turn_pump rfl rfl (by rw [hpump]; rfl) ?_
    exact isOffering_complete (h.conn i)
  | @disconnect i hserve _ =>
    refine turn_update rfl ?_ c
    refine .keep rfl rfl (fun _ => by rw [hserve]; rfl) (fun _ => by rw [hserve]; nofun)
      fun _ hip => Or.inl ?_
    show (if (h.conn i).client.virtualIp.isSome then Serve.closing else .closed).isOpen = true
    rw [if_pos (Option.isSome_iff_ne_none.mpr hip)]
    rfl
  | retain hserve _ =>
    refine turn_update rfl ?_ c
    exact .keep rfl rfl (fun hopen => by cases hopen) (fun _ => by rw [hserve]; nofun)
      fun _ _ => Or.inr rfl
  | removeClient hserve =>
    refine turn_update rfl ?_ c
    refine .keep rfl rfl (fun hopen => by cases hopen) (fun hc => absurd rfl hc) fun hopen _ => ?_
    rw [hserve] at hopen
    cases hopen
  | sweep _ _ =>
    obtain ⟨hconn, -, -⟩ := sweepEntry_frame _ _
    rw [show _ = h.conn from hconn]
    exact .refl _
  | tick _ => exact .refl _
  | wake _ => exact .refl _
  | lock _ => exact .refl _
  | unlock _ => exact .refl _

/-! ## The runs in question -/

/-- A connection of `X` makes one handshake, and begins it when every earlier
connection of `X` is closed. -/
def Alone (X : ClientId) (h : Hub) : Act → Prop
  | .load c payload =>
    (h.conn c).presented ≠ some X ∧
      (49 ≤ payload.length → identityOf payload = X → (h.conn c).client.virtualIp = none ∧
        ∀ c' < h.next, (h.conn c').presented = some X → (h.conn c').serve = .closed)
  | _ => True

instance (X : ClientId) (h : Hub) : (a : Act) → Decidable (Alone X h a)
  | .load c payload => inferInstanceAs (Decidable ((h.conn c).presented ≠ some X ∧
      (49 ≤ payload.length → identityOf payload = X → (h.conn c).client.virtualIp = none ∧
        ∀ c' < h.next, (h.conn c').presented = some X → (h.conn c').serve = .closed)))
  | .accept | .cancel _ | .quit _ | .identify _ | .assign _ | .addClient _ | .finish _
  | .disconnect _ | .retain _ | .removeClient _ | .tick _ | .wake | .lock | .sweep _ | .unlock =>
    inferInstanceAs (Decidable True)

/-- A sweep visits the entry of `X` and finds it expired. -/
def Expires (X : ClientId) (h : Hub) : Act → Prop
  | .sweep id =>
    id = X ∧ ∃ oc ∈ h.retentionMap.lookup X, ∃ now ∈ h.sweeper.sweepTime, oc.expiry < now
  | _ => False

instance (X : ClientId) (h : Hub) : (a : Act) → Decidable (Expires X h a)
  | .sweep id => inferInstanceAs (Decidable
      (id = X ∧ ∃ oc ∈ h.retentionMap.lookup X, ∃ now ∈ h.sweeper.sweepTime, oc.expiry < now))
  | .accept | .cancel _ | .quit _ | .load _ _ | .identify _ | .assign _ | .addClient _ | .finish _
  | .disconnect _ | .retain _ | .removeClient _ | .tick _ | .wake | .lock | .unlock =>
    inferInstanceAs (Decidable False)

/-! ## One connection of `X` at a time -/

theorem tidy_update {i : ConnId} {k : Conn} (ht : ∀ c, (h.conn c).Tidy X)
    (hconn : h'.conn = Function.update h.conn i k) (hk : k.Tidy X) : ∀ c, (h'.conn c).Tidy X := by
  intro c
  rw [hconn]
  by_cases hc : c = i
  · subst hc
    rw [Function.update_self]
    exact hk
  · rw [Function.update_of_ne hc]
    exact ht c

theorem tidy_step (ht : ∀ c, (h.conn c).Tidy X) (hok : Alone X h a)
    (hs : step retentionTime h a = some h') : ∀ c, (h'.conn c).Tidy X := by
  cases does_of_step hs with
  | accept =>
    refine tidy_update ht rfl ?_
    exact Conn.tidy_accepted
  | @cancel i hvip =>
    refine tidy_update ht rfl ?_
    exact (ht i).keep rfl rfl rfl rfl fun hip => absurd hip hvip
  | @quit i hpump =>
    refine tidy_update ht rfl ?_
    have hoff : (h.conn i).pump.isOffering = false := by rw [hpump]; rfl
    exact (ht i).keep rfl rfl (Conn.presented_eq rfl hoff rfl) hoff.symm fun _ hexit =>
      (by cases hexit)
  | @load i payload hpump =>
    refine tidy_update ht rfl ?_
    beta_reduce
    unfold Conn.load
    split
    · have hoff : (h.conn i).pump.isOffering = false := by rw [hpump]; rfl
      exact (ht i).keep rfl rfl (Conn.presented_eq rfl hoff rfl) hoff.symm fun _ hexit =>
        (by cases hexit)
    · next hlen =>
      exact (ht i).load hpump hok.1 fun hX => (hok.2 (Nat.not_lt.mp hlen) hX).1
  | @identify i _ _ hpump =>
    refine tidy_update ht rfl ?_
    exact (ht i).identify hpump
  | @assign i _ _ hpump _ =>
    obtain ⟨⟨hostname, hconn⟩, -, -⟩ := assign_frame _ _
    exact tidy_update ht hconn ((ht i).assign hpump _ hostname)
  | @addClient i hpump =>
    refine tidy_update ht rfl ?_
    have hoff : (h.conn i).pump.isOffering = false := by rw [hpump]; rfl
    exact (ht i).keep rfl rfl (Conn.presented_eq rfl hoff rfl) hoff.symm fun _ _ =>
      ⟨by rw [hpump]; rfl, id⟩
  | @finish i hpump =>
    refine tidy_update ht rfl ?_
    have hoff : (h.conn i).pump.isOffering = false := by rw [hpump]; rfl
    have hoff' := isOffering_complete (h.conn i)
    exact (ht i).keep rfl rfl (Conn.presented_eq rfl hoff hoff') (hoff'.trans hoff.symm)
      fun _ _ => ⟨by rw [hpump]; rfl, id⟩
  | @disconnect i _ hcancelled =>
    refine tidy_update ht rfl ?_
    refine (ht i).leave ?_ fun hip => ?_
    · rintro ⟨-, hfalse⟩
      rw [hcancelled] at hfalse
      cases hfalse
    · rw [hip]
      exact nofun
  | @retain i hserve _ =>
    refine tidy_update ht rfl ?_
    exact (ht i).leave (fun hr => by rw [hserve] at hr; cases hr.1) fun _ => nofun
  | @removeClient i hserve =>
    refine tidy_update ht rfl ?_
    exact (ht i).leave (fun hr => by rw [hserve] at hr; cases hr.1) fun _ => nofun
  | sweep _ _ =>
    obtain ⟨hconn, -, -⟩ := sweepEntry_frame _ _
    rw [show _ = h.conn from hconn]
    exact ht
  | tick _ => exact ht
  | wake _ => exact ht
  | lock _ => exact ht
  | unlock _ => exact ht

/-- A connection comes to present `X` by beginning a handshake. -/
theorem Turn.active {k k' : Conn} (ht : Turn h a c k k') (hk' : k'.Active X) :
    k.Active X ∨ ∃ payload, a = .load c payload ∧ 49 ≤ payload.length ∧ identityOf payload = X := by
  obtain ⟨hp, hserve⟩ := hk'
  cases ht with
  | keep _ hpresented _ hclosed _ => exact Or.inl ⟨hpresented ▸ hp, hclosed hserve⟩
  | accept _ hacc =>
    subst hacc
    cases hp
  | load payload ha hlen _ _ hpresented =>
    exact Or.inr ⟨payload, ha, hlen, Option.some.inj (hpresented.symm.trans hp)⟩
  | identify _ hs hpresented _ => exact Or.inl ⟨hpresented ▸ hp, hs ▸ hserve⟩
  | assign _ hpump hostname hassign =>
    subst hassign
    left
    cases hoffer : h.offer c with
    | none =>
      rw [hoffer] at hp
      cases hp
    | some v =>
      rw [hoffer] at hp hserve
      exact ⟨(Conn.presented_of_identified hpump).trans hp, hserve⟩

/-- At most one connection that presents `X` is not closed. -/
structure Orderly (X : ClientId) (h : Hub) : Prop where
  fresh : h.Fresh
  tidy : ∀ c, (h.conn c).Tidy X
  unique : ∀ c c', (h.conn c).Active X → (h.conn c').Active X → c = c'

/-- When a handshake of `X` begins, no other connection is active. -/
theorem Orderly.not_active_of_load (ho : h.Orderly X) {payload : Bytes}
    (hok : Alone X h (.load c payload)) (hlen : 49 ≤ payload.length)
    (hX : identityOf payload = X) (c' : ConnId) : ¬(h.conn c').Active X := by
  intro hact
  have hlt : c' < h.next := ho.fresh.lt fun habs => by
    rw [habs] at hact
    cases hact.1
  exact hact.2 ((hok.2 hlen hX).2 c' hlt hact.1)

theorem orderly_step (ho : h.Orderly X) (hok : Alone X h a)
    (hs : step retentionTime h a = some h') : h'.Orderly X := by
  refine ⟨fresh_step ho.fresh hs, tidy_step ho.tidy hok hs, fun c c' hc hc' => ?_⟩
  -- a connection that has just become active is the only one
  rcases (turn_of_step ho.fresh hs c).active hc with hc | ⟨payload, rfl, hlen, hX⟩
  · rcases (turn_of_step ho.fresh hs c').active hc' with hc' | ⟨payload, rfl, hlen, hX⟩
    · exact ho.unique c c' hc hc'
    · exact absurd hc (ho.not_active_of_load hok hlen hX c)
  · rcases (turn_of_step ho.fresh hs c').active hc' with hc' | ⟨payload', ha, -, -⟩
    · exact absurd hc' (ho.not_active_of_load hok hlen hX c')
    · cases ha
      rfl

theorem orderly (hr : (machine retentionTime).ReachVia (Alone X) h) : h.Orderly X := by
  refine hr.invariant ?_ fun _ ho hok hs => orderly_step ho hok hs
  refine ⟨fun _ _ => rfl, fun _ => Conn.tidy_absent, fun c c' hc => ?_⟩
  cases hc.1

/-! ## The pair of `X` -/

/-- The address `v` and the name `n` are with the entry of `X`, while no open
connection of `X` has an address, or with an open connection of `X`. -/
inductive Kept (X : ClientId) (v : ByteArr 4) (n : Bytes) (h : Hub) : Prop where
  | stored {oc : OfflineClient} (hlookup : h.retentionMap.lookup X = some oc)
      (hip : oc.virtualIp = some v) (hname : oc.hostname = n)
      (haway : ∀ c, (h.conn c).presented = some X → (h.conn c).serve.isOpen = true →
        (h.conn c).client.virtualIp = none)
  | live (hlookup : h.retentionMap.lookup X = none) (c : ConnId) (hc : (h.conn c).Has X v n)

/-- The connection with the pair keeps it until it is put aside. -/
theorem Turn.has {k k' : Conn} (ht : Turn h a c k k') (hk : k.Has X v n) (htidy : k.Tidy X)
    (hother : ∀ payload, a = .load c payload → k.presented ≠ some X) :
    k'.Has X v n ∨ a = .retain c := by
  have hsome : k.client.virtualIp ≠ none := by
    rw [hk.virtualIp]
    exact nofun
  have hoff := hk.not_offering htidy
  cases ht with
  | keep hclient hpresented _ _ hopen =>
    rcases hopen hk.isOpen hsome with hopen' | ha
    · left
      refine ⟨hpresented.trans hk.presented, hopen', ?_, ?_⟩
      · rw [hclient]
        exact hk.virtualIp
      · rw [hclient]
        exact hk.hostname
    · exact Or.inr ha
  | accept habs _ =>
    subst habs
    cases hk.virtualIp
  | load payload ha _ _ _ _ => exact absurd hk.presented (hother payload ha)
  | identify _ _ _ hoffering =>
    rw [hoff] at hoffering
    cases hoffering
  | assign _ hpump _ _ =>
    rw [hpump] at hoff
    cases hoff

/-- A connection of `X` gets an address from its handshake only. -/
theorem Turn.away {k k' : Conn} (ht : Turn h a c k k') (hp : k'.presented = some X)
    (hopen : k'.serve.isOpen = true) (hip : k'.client.virtualIp ≠ none)
    (hfirst : ∀ payload, a = .load c payload → 49 ≤ payload.length → identityOf payload = X →
      k.client.virtualIp = none) :
    (k.presented = some X ∧ k.serve.isOpen = true ∧ k.client.virtualIp ≠ none) ∨
      (a = .assign c ∧ k.client.clientID = X) := by
  cases ht with
  | keep hclient hpresented hback _ _ =>
    exact Or.inl ⟨hpresented ▸ hp, hback hopen, hclient ▸ hip⟩
  | accept _ hacc =>
    subst hacc
    cases hp
  | load payload ha hlen hclient _ hpresented =>
    have hX := Option.some.inj (hpresented.symm.trans hp)
    exact absurd (hfirst payload ha hlen hX) (hclient ▸ hip)
  | identify hvip hserve hpresented _ => exact Or.inl ⟨hpresented ▸ hp, hserve ▸ hopen, hvip ▸ hip⟩
  | assign ha _ _ hassign =>
    subst hassign
    cases hoffer : h.offer c with
    | none =>
      rw [hoffer] at hp
      cases hp
    | some v =>
      rw [hoffer] at hp
      exact Or.inr ⟨ha, Option.some.inj hp⟩

theorem lookup_assign_of_ne (hne : (h.conn c).client.clientID ≠ X) (payload : Bytes)
    (dnsMap : Map Bytes IP) :
    (h.assign c payload dnsMap).retentionMap.lookup X = h.retentionMap.lookup X := by
  unfold assign
  split
  · exact AList.lookup_erase_ne (Ne.symm hne)
  · rfl

/-- After a handshake there is no entry under its identity. -/
theorem lookup_assign (payload : Bytes) (dnsMap : Map Bytes IP) :
    (h.assign c payload dnsMap).retentionMap.lookup (h.conn c).client.clientID = none := by
  unfold assign
  split
  · exact AList.lookup_erase ..
  · next hnone => exact hnone

theorem lookup_sweepEntry {now : Int} {id : ClientId}
    (hexp : id = X → ∀ oc, h.retentionMap.lookup X = some oc → ¬oc.expiry < now) :
    (h.sweepEntry now id).retentionMap.lookup X = h.retentionMap.lookup X := by
  unfold sweepEntry
  split
  · rfl
  · next oc hoc =>
    split
    · next hlt =>
      have hne : X ≠ id := by
        rintro rfl
        exact hexp rfl oc hoc hlt
      exact AList.lookup_erase_ne hne
    · rfl

/-- The entry of `X` changes by a handshake or a disconnect of `X`, or when it is
found expired. -/
theorem lookup_step (hs : step retentionTime h a = some h')
    (hassign : ∀ c, a = .assign c → (h.conn c).client.clientID ≠ X)
    (hretain : ∀ c, a = .retain c → (h.conn c).client.clientID ≠ X) (hexp : ¬Expires X h a) :
    h'.retentionMap.lookup X = h.retentionMap.lookup X := by
  cases does_of_step hs with
  | assign _ _ => exact lookup_assign_of_ne (hassign _ rfl) _ _
  | retain _ _ => exact AList.lookup_insert_ne (Ne.symm (hretain _ rfl))
  | sweep hsweep _ =>
    refine lookup_sweepEntry fun hid oc hoc hlt => hexp ⟨hid, oc, hoc, ?_⟩
    rw [hsweep]
    exact ⟨_, rfl, hlt⟩
  | accept => rfl
  | cancel _ => rfl
  | quit _ => rfl
  | load _ _ => rfl
  | identify _ => rfl
  | addClient _ => rfl
  | finish _ => rfl
  | disconnect _ _ => rfl
  | removeClient _ => rfl
  | tick _ => rfl
  | wake _ => rfl
  | lock _ => rfl
  | unlock _ => rfl

/-- What a handshake of `X` leads to. -/
theorem assign_has (ho : h.Orderly X) (hid : (h.conn c).client.clientID = X)
    (hs : step retentionTime h (.assign c) = some h')
    (hip : (h'.conn c).client.virtualIp = some v) :
    (h'.conn c).Has X v (h'.conn c).client.hostname := by
  cases does_of_step hs with
  | assign hpump _ =>
    obtain ⟨⟨hostname, hconn⟩, -, -⟩ := assign_frame _ _
    rw [hconn, Function.update_self] at hip ⊢
    have hp := (Conn.presented_of_identified hpump).trans (congrArg some hid)
    have hnone := (ho.tidy c).once hp (by rw [hpump]; rfl)
    have hrunning := (ho.tidy c).running hp hnone
    cases hoffer : h.offer c with
    | none =>
      rw [hoffer] at hip
      cases hip
    | some w =>
      rw [hoffer] at hip
      refine ⟨congrArg some hid, ?_, hip, rfl⟩
      show (h.conn c).serve.isOpen = true
      rw [hrunning]
      rfl

/-- A connection with the identity `X` that is put aside or makes its handshake is
a connection of `X`. -/
theorem Orderly.active_of_closing (ho : h.Orderly X) (hserve : (h.conn c).serve = .closing)
    (hid : (h.conn c).client.clientID = X) :
    (h.conn c).Active X ∧ (h.conn c).client.virtualIp ≠ none := by
  have hp : (h.conn c).presented = some X := by
    by_contra hp
    exact ((ho.tidy c).stranger hp hid).2 hserve
  refine ⟨⟨hp, by rw [hserve]; nofun⟩, fun hip => ?_⟩
  have hrunning := (ho.tidy c).running hp hip
  rw [hserve] at hrunning
  cases hrunning

/-- A handshake of `X` finds the entry. -/
theorem Kept.assign (hk : Kept X v n h) (ho : h.Orderly X)
    (hid : (h.conn c).client.clientID = X) (hs : step retentionTime h (.assign c) = some h') :
    (h'.conn c).client.virtualIp = some v ∧ (h'.conn c).client.hostname = n := by
  cases does_of_step hs with
  | @assign _ payload dnsMap hpump _ =>
    cases hk with
    | @stored oc hlookup hip hname _ =>
      have hoc : h.retentionMap.lookup (h.conn c).client.clientID = some oc := hid ▸ hlookup
      unfold Hub.assign
      rw [hoc]
      show (Function.update h.conn c _ c).client.virtualIp = some v ∧
        (Function.update h.conn c _ c).client.hostname = n
      rw [Function.update_self, hip, hname]
      exact ⟨rfl, rfl⟩
    | live _ c' hc' =>
      -- the connection with the pair would be this one, which has no address yet
      have hp := (Conn.presented_of_identified hpump).trans (congrArg some hid)
      have hnone := (ho.tidy c).once hp (by rw [hpump]; rfl)
      have hact : (h.conn c).Active X := ⟨hp, by rw [(ho.tidy c).running hp hnone]; nofun⟩
      have heq := ho.unique c' c hc'.active hact
      subst heq
      rw [hc'.virtualIp] at hnone
      cases hnone

/-- The connection with the pair is put aside. -/
theorem Kept.retain (hk : Kept X v n h) (ho : h.Orderly X)
    (hid : (h.conn c).client.clientID = X) (hs : step retentionTime h (.retain c) = some h') :
    Kept X v n h' := by
  cases does_of_step hs with
  | retain hserve _ =>
    obtain ⟨hact, hip⟩ := ho.active_of_closing hserve hid
    cases hk with
    | stored _ _ _ haway =>
      exact absurd (haway c hact.1 (by rw [hserve]; rfl)) hip
    | live _ c' hc' =>
      have heq := ho.unique c' c hc'.active hact
      subst heq
      have hentry : (h.retain retentionTime c').retentionMap.lookup X =
          some ⟨(h.conn c').client.virtualIp, (h.conn c').client.hostname,
            h.now + retentionTime⟩ := by
        rw [← hid]
        exact AList.lookup_insert ..
      refine .stored hentry hc'.virtualIp hc'.hostname fun i hp hopen => ?_
      change (Function.update h.conn c' _ i).presented = some X at hp
      change (Function.update h.conn c' _ i).serve.isOpen = true at hopen
      by_cases hi : i = c'
      · subst hi
        rw [Function.update_self] at hopen
        cases hopen
      · rw [Function.update_of_ne hi] at hp hopen
        exact absurd (ho.unique i c' ⟨hp, Conn.ne_closed_of_isOpen hopen⟩ hact) hi

/-- **One step keeps the pair of `X`.** -/
theorem kept_step (hk : Kept X v n h) (ho : h.Orderly X) (hok : Alone X h a)
    (hexp : ¬Expires X h a) (hs : step retentionTime h a = some h') : Kept X v n h' := by
  by_cases hassign : ∃ c, a = .assign c ∧ (h.conn c).client.clientID = X
  · obtain ⟨c, rfl, hid⟩ := hassign
    obtain ⟨hip, hname⟩ := hk.assign ho hid hs
    refine .live ?_ c (hname ▸ assign_has ho hid hs hip)
    cases does_of_step hs with
    | assign _ _ => exact hid ▸ lookup_assign _ _
  by_cases hretain : ∃ c, a = .retain c ∧ (h.conn c).client.clientID = X
  · obtain ⟨c, rfl, hid⟩ := hretain
    exact hk.retain ho hid hs
  -- all other steps leave the entry alone
  have hassign' : ∀ c, a = .assign c → (h.conn c).client.clientID ≠ X :=
    fun c ha hid => hassign ⟨c, ha, hid⟩
  have hretain' : ∀ c, a = .retain c → (h.conn c).client.clientID ≠ X :=
    fun c ha hid => hretain ⟨c, ha, hid⟩
  have hlookup' := lookup_step hs hassign' hretain' hexp
  cases hk with
  | stored hlookup hip hname haway =>
    refine .stored (hlookup'.trans hlookup) hip hname fun c hp hopen => ?_
    by_contra hsome
    have hfirst : ∀ payload, a = .load c payload → 49 ≤ payload.length →
        identityOf payload = X → (h.conn c).client.virtualIp = none := by
      rintro payload rfl hlen hX
      exact (hok.2 hlen hX).1
    rcases (turn_of_step ho.fresh hs c).away hp hopen hsome hfirst with ⟨hp, hopen, hip⟩ | ⟨ha, hid⟩
    · exact hip (haway c hp hopen)
    · exact hassign' c ha hid
  | live hlookup c hc =>
    have hother : ∀ payload, a = .load c payload → (h.conn c).presented ≠ some X := by
      rintro payload rfl
      exact hok.1
    rcases (turn_of_step ho.fresh hs c).has hc (ho.tidy c) hother with hc' | ha
    · exact .live (hlookup'.trans hlookup) c hc'
    · exact absurd (hc.clientID (ho.tidy c)) (hretain' c ha)

/-- What is kept for `X` is assigned to no other connection. -/
theorem Kept.offer_ne (hk : Kept X v n h) (hr : (machine retentionTime).Reach h)
    (hid : (h.conn c).client.clientID ≠ X) : h.offer c ≠ some v := by
  intro hoffer
  cases hk with
  | stored hlookup hip _ _ =>
    have hE := exclusive hr
    have hkept := heldBy_kept_iff.mpr ⟨_, hlookup, hip⟩
    unfold offer at hoffer
    split at hoffer
    · next oc hoc =>
      exact hid (Holder.kept.inj (hE.inj (heldBy_kept_iff.mpr ⟨oc, hoc, hoffer⟩) hkept))
    · obtain ⟨x, hx, rfl⟩ := Option.map_eq_some_iff.mp hoffer
      exact hE.not_free hkept (List.mem_map_of_mem (List.mem_of_getLast? hx))
  | live _ c' hc' => exact not_holds_offer hr hoffer ⟨hc'.isOpen, hc'.virtualIp⟩

/-- **A client keeps its identity across reconnects.** In a run in which the
connections of `X` follow one another, let a handshake of `X` succeed. From then
on, as long as no sweep finds the entry of `X` expired, every handshake of `X`
assigns the address and the name of that one, and every handshake of another
client assigns another address. -/
theorem identity_kept {h₀ h₁ h₂ h₃ : Hub} {c₀ : ConnId}
    (hr : (machine retentionTime).ReachVia (Alone X) h₀) (hX : (h₀.conn c₀).client.clientID = X)
    (hfirst : (machine retentionTime).step h₀ (.assign c₀) = some h₁)
    (hip : (h₁.conn c₀).client.virtualIp = some v)
    (hpath : (machine retentionTime).PathVia (fun h a => Alone X h a ∧ ¬Expires X h a) h₁ h₂)
    (hnext : (machine retentionTime).step h₂ (.assign c) = some h₃) :
    ((h₂.conn c).client.clientID = X →
      (h₃.conn c).client.virtualIp = some v ∧
        (h₃.conn c).client.hostname = (h₁.conn c₀).client.hostname) ∧
    ((h₂.conn c).client.clientID ≠ X → (h₃.conn c).client.virtualIp ≠ some v) := by
  have hfirst' : step retentionTime h₀ (.assign c₀) = some h₁ := hfirst
  have hnext' : step retentionTime h₂ (.assign c) = some h₃ := hnext
  have hr₁ : (machine retentionTime).ReachVia (Alone X) h₁ :=
    .step (a := .assign c₀) hr trivial hfirst
  have hkept₁ : Kept X v (h₁.conn c₀).client.hostname h₁ := by
    refine .live ?_ c₀ (assign_has (orderly hr) hX hfirst' hip)
    cases does_of_step hfirst' with
    | assign _ _ => exact hX ▸ lookup_assign _ _
  have hkept₂ : Kept X v (h₁.conn c₀).client.hostname h₂ := by
    refine hpath.invariant hkept₁ fun hp hk hok hs => ?_
    exact kept_step hk (orderly (hr₁.path hp fun _ _ hok => hok.1)) hok.1 hok.2 hs
  have hr₂ := hr₁.path hpath fun _ _ hok => hok.1
  refine ⟨fun hid => hkept₂.assign (orderly hr₂) hid hnext', fun hid hv => ?_⟩
  cases does_of_step hnext' with
  | assign _ _ =>
    obtain ⟨⟨hostname, hconn⟩, -, -⟩ := assign_frame _ _
    rw [hconn, Function.update_self] at hv
    refine hkept₂.offer_ne hr₂.reach hid ?_
    cases hoffer : h₂.offer c with
    | none =>
      rw [hoffer] at hv
      cases hv
    | some w =>
      rw [hoffer] at hv
      exact hv

/-- A client connects and leaves, a second one connects, a sweep finds nothing
expired, and the first one comes back. -/
theorem identity_kept_reconnect :
    ∃ h₁ h₂ h₃ : Hub, (machine 300).step h₂ (.assign 2) = some h₃ ∧
      (h₁.conn 0).client.virtualIp = some (hostIp 2) ∧ (h₂.conn 2).client.clientID = idOf 7 ∧
      (h₃.conn 2).client.virtualIp = some (hostIp 2) ∧
      (h₃.conn 2).client.hostname = (h₁.conn 0).client.hostname := by
  let M := machine 300
  let before : List Act := [.accept, .load 0 (hello 3 7), .identify 0]
  let between : List Act :=
    [.addClient 0, .finish 0, .cancel 0, .disconnect 0, .retain 0, .removeClient 0, .accept] ++
      handshake 1 (hello 3 8) ++
      [.wake, .lock, .sweep (idOf 7), .unlock, .accept, .load 2 (hello 3 7), .identify 2]
  have hrun : (M.runVia (Alone (idOf 7)) M.init before).any (fun h₀ =>
      decide ((h₀.conn 0).client.clientID = idOf 7) && (M.step h₀ (.assign 0)).any fun h₁ =>
      decide ((h₁.conn 0).client.virtualIp = some (hostIp 2)) &&
      (M.runVia (fun h a => Alone (idOf 7) h a ∧ ¬Expires (idOf 7) h a) h₁ between).any fun h₂ =>
      decide ((h₂.conn 2).client.clientID = idOf 7) &&
      (M.step h₂ (.assign 2)).isSome) = true := by decide +kernel
  obtain ⟨h₀, hr₀, h⟩ := (Option.any_eq_true ..).mp hrun
  obtain ⟨hX, h⟩ := (Bool.and_eq_true ..).mp h
  obtain ⟨h₁, hfirst, h⟩ := (Option.any_eq_true ..).mp h
  obtain ⟨hip, h⟩ := (Bool.and_eq_true ..).mp h
  obtain ⟨h₂, hpath, h⟩ := (Option.any_eq_true ..).mp h
  obtain ⟨hid, h⟩ := (Bool.and_eq_true ..).mp h
  obtain ⟨h₃, hnext⟩ := Option.isSome_iff_exists.mp h
  have hkept := identity_kept (Machine.reachVia_of_runVia hr₀) (of_decide_eq_true hX) hfirst
    (of_decide_eq_true hip) (Machine.PathVia.refl.runVia hpath) hnext
  exact ⟨h₁, h₂, h₃, hnext, of_decide_eq_true hip, of_decide_eq_true hid,
    hkept.1 (of_decide_eq_true hid)⟩

end Hub

end EasyTun.Transport
