import EasyTun.Transport.Addresses

/-!
# Routes of the server

The routing table should map an address to the open connection that has it. The
entry is written by `addClient` at the end of a handshake and removed by
`removeClient` at the end of a disconnect, both under the address and not under
the client.

- `routes_exact`: where no handshake and no disconnect is half-way, **the table
  is exactly the open connections that have completed a handshake**, under three
  conditions: the address of a connection does not change, no route is added under an
  address for which another connection still has to remove its own, and no route is
  added for a connection that is closed.
- `route_removed`: the code does not ensure the second one. A client that
  reconnects between the two halves of its old connection's disconnect loses its
  route.
-/

namespace EasyTun.Transport

open EasyTun.Lib EasyTun.Util

/-! ## What a connection should find in the table -/

/-- The connection exists and has not yet removed its route. -/
def Serve.isPresent : Serve → Bool
  | .running | .closing | .stored => true
  | .absent | .closed => false

def Pump.isAssigned : Pump → Bool
  | .assigned => true
  | .idle | .loaded _ _ | .identified _ _ | .routed | .exited _ => false

/-- A handshake that is not half-way has not just assigned an address. -/
theorem Pump.isAssigned_of_isQuiet {p : Pump} (hp : p.isQuiet = true) :
    p.isAssigned = false := by
  cases p with
  | assigned => cases hp
  | idle | loaded _ _ | identified _ _ | routed | exited _ => rfl

namespace Conn

/-- The connection has the address and will remove its route. -/
def Claims (k : Conn) (v : ByteArr 4) : Prop :=
  k.serve.isPresent = true ∧ k.client.virtualIp = some v

/-- The connection should be routed: it is open, has the address, and is past
`addClient`. -/
def Routes (k : Conn) (v : ByteArr 4) : Prop :=
  k.serve.isOpen = true ∧ k.client.virtualIp = some v ∧ k.pump.isAssigned = false

/-- The connection has the address, is in `retentionMap`, and has not yet removed its route. -/
def Leaves (k : Conn) (v : ByteArr 4) : Prop :=
  k.serve = .stored ∧ k.client.virtualIp = some v

/-- A disconnect that is half-way has an address, a handshake that is half-way
has one from the lock on, and otherwise an address comes from a handshake that was
completed. -/
structure Sound (k : Conn) : Prop where
  leaving : k.serve = .closing ∨ k.serve = .stored → k.client.virtualIp ≠ none
  assigned : k.pump.isAssigned = true → k.client.virtualIp ≠ none
  completed : k.client.virtualIp ≠ none →
    k.pump.isAssigned = true ∨ k.pump = .routed ∨ k.completed = true

theorem absent_sound : absent.Sound where
  leaving := by
    rintro (h | h)
    · cases h
    · cases h
  assigned := nofun
  completed h := absurd rfl h

theorem not_claims_of_none {k : Conn} (hip : k.client.virtualIp = none) (v : ByteArr 4) :
    ¬k.Claims v := by
  rintro ⟨-, hv⟩
  rw [hip] at hv
  cases hv

/-- A routed connection is not about to remove its route. -/
theorem Routes.not_leaves {k : Conn} {v v' : ByteArr 4} (hv : k.Routes v) : ¬k.Leaves v' := by
  rintro ⟨hstored, -⟩
  have hopen := hv.1
  rw [hstored] at hopen
  cases hopen

/-- Who still has a route to remove is open, or has only to remove it. -/
theorem Claims.cases {k : Conn} {v : ByteArr 4} (hv : k.Claims v) :
    k.serve.isOpen = true ∨ k.Leaves v := by
  obtain ⟨hpresent, hip⟩ := hv
  cases hserve : k.serve with
  | running | closing => exact Or.inl rfl
  | stored => exact Or.inr ⟨hserve, hip⟩
  | absent | closed => rw [hserve] at hpresent; cases hpresent

/-- `readPump` goes from one point to another, outside of the assignment. -/
theorem Sound.move {k k' : Conn} (hk : k.Sound) (hserve : k'.serve = k.serve)
    (hip : k'.client.virtualIp = k.client.virtualIp) (hpump : k'.pump.isAssigned = false)
    (hcompleted : k.client.virtualIp ≠ none → k'.pump = .routed ∨ k'.completed = true) :
    k'.Sound where
  leaving h := hip ▸ hk.leaving (hserve ▸ h)
  assigned h := absurd h (Bool.eq_false_iff.mp hpump)
  completed h := Or.inr (hcompleted (hip ▸ h))

/-- Outside of a handshake's second half, an address comes from an earlier one. -/
theorem Sound.completed_of_pump {k : Conn} (hk : k.Sound) {p : Pump} (hpump : k.pump = p)
    (ha : p.isAssigned = false) (hr : p ≠ .routed) (hip : k.client.virtualIp ≠ none) :
    k.completed = true := by
  rcases hk.completed hip with h | h | h
  · rw [hpump, ha] at h
    cases h
  · exact absurd (hpump.symm.trans h) hr
  · exact h

theorem load_frame (k : Conn) (payload : Bytes) (dnsMap : Map Bytes IP) :
    (k.load payload dnsMap).client = k.client ∧ (k.load payload dnsMap).serve = k.serve ∧
      (k.load payload dnsMap).completed = k.completed ∧
      (k.load payload dnsMap).pump.isAssigned = false := by
  unfold load
  split
  · exact ⟨rfl, rfl, rfl, rfl⟩
  · exact ⟨rfl, rfl, rfl, rfl⟩

theorem isAssigned_complete (k : Conn) : k.complete.pump.isAssigned = false := by
  show Pump.isAssigned (if k.cancelled then .exited none else .idle) = false
  split
  · rfl
  · rfl

end Conn

namespace Hub

/-- The address of a connection does not change once it has one, and a route is added only while
its connection has not removed it, and while no other connection still has to remove the route
under this address. -/
def RouteOk (h : Hub) : Act → Prop
  | .assign c =>
    (h.conn c).client.virtualIp = none ∨ h.offer c = (h.conn c).client.virtualIp
  | .addClient c =>
    (h.conn c).serve.isPresent = true ∧
      ∀ c' < h.next, (h.conn c').serve = .stored →
        (h.conn c').client.virtualIp = (h.conn c).client.virtualIp → c' = c
  | _ => True

instance (h : Hub) : (a : Act) → Decidable (RouteOk h a)
  | .assign c => inferInstanceAs (Decidable ((h.conn c).client.virtualIp = none ∨
      h.offer c = (h.conn c).client.virtualIp))
  | .addClient c => inferInstanceAs (Decidable ((h.conn c).serve.isPresent = true ∧
      ∀ c' < h.next, (h.conn c').serve = .stored →
        (h.conn c').client.virtualIp = (h.conn c).client.virtualIp → c' = c))
  | .accept | .cancel _ | .quit _ | .load _ _ | .identify _ | .retain _ | .finish _
  | .disconnect _ | .removeClient _ | .tick _ | .wake | .lock | .sweep _ | .unlock =>
    inferInstanceAs (Decidable True)

/-- The table is what the connections say it should be: what is in it is right, what should be
in it is, and nobody is going to remove it. -/
structure Routed (h : Hub) : Prop where
  claims : ∀ {v c}, h.router.clientMap.lookup v = some c → (h.conn c).Claims v
  lookup : ∀ {v c}, (h.conn c).Routes v → h.router.clientMap.lookup v = some c
  stays : ∀ {v c c'}, (h.conn c).Routes v → ¬(h.conn c').Leaves v
  sound : ∀ c, (h.conn c).Sound

variable {h h' : Hub} {c : ConnId} {k : Conn} {retentionTime : Int} {a : Act}

theorem routed_newHub : newHub.Routed where
  claims h := nomatch h
  lookup := by
    rintro v c ⟨hopen, -⟩
    cases hopen
  stays := by
    rintro v c c' ⟨hopen, -⟩ -
    cases hopen
  sound _ := Conn.absent_sound

namespace Routed

/-- No other connection has to remove a route under the address of a routed one. -/
theorem only (hR : h.Routed) (hr : (machine retentionTime).Reach h) {c' : ConnId} {v : ByteArr 4}
    (hv : (h.conn c).Routes v) (hv' : (h.conn c').Claims v) : c' = c := by
  rcases hv'.cases with hopen | hleaves
  · have heq := (exclusive hr).inj (heldBy_conn_iff.mpr ⟨hopen, hv'.2⟩)
      (heldBy_conn_iff.mpr ⟨hv.1, hv.2.1⟩)
    exact Holder.conn.inj heq
  · exact absurd hleaves (hR.stays hv)

theorem sound_update (hR : h.Routed) (hconn : h'.conn = Function.update h.conn c k)
    (hk : k.Sound) (c' : ConnId) : (h'.conn c').Sound := by
  rw [hconn]
  by_cases hc : c' = c
  · subst hc
    rw [Function.update_self]
    exact hk
  · rw [Function.update_of_ne hc]
    exact hR.sound c'

/-- **What a step has to see to** that changes one connection, and perhaps the table: a new
entry is the connection's own and it claims the address; if it should be routed it is, and nobody
else is going to remove that; and the others' routes are where they were, and are not what it is
going to remove. -/
theorem change (hR : h.Routed) (hconn : h'.conn = Function.update h.conn c k)
    (hentry : ∀ {v c'}, h'.router.clientMap.lookup v = some c' →
      (c' = c ∧ k.Claims v) ∨ (c' ≠ c ∧ h.router.clientMap.lookup v = some c'))
    (hself : ∀ {v}, k.Routes v → h'.router.clientMap.lookup v = some c ∧
      ∀ c', c' ≠ c → ¬(h.conn c').Leaves v)
    (hothers : ∀ {v c'}, c' ≠ c → (h.conn c').Routes v →
      h'.router.clientMap.lookup v = some c' ∧ ¬k.Leaves v) (hk : k.Sound) : h'.Routed := by
  have hnew : h'.conn c = k := by rw [hconn, Function.update_self]
  have hold {c' : ConnId} (hc : c' ≠ c) : h'.conn c' = h.conn c' := by
    rw [hconn, Function.update_of_ne hc]
  refine ⟨fun {v c'} hl => ?_, fun {v c'} hv => ?_, fun {v c₁ c₂} hv hleave => ?_,
    hR.sound_update hconn hk⟩
  · rcases hentry hl with ⟨rfl, hclaims⟩ | ⟨hc, hl⟩
    · rwa [hnew]
    · rw [hold hc]
      exact hR.claims hl
  · by_cases hc : c' = c
    · subst hc
      rw [hnew] at hv
      exact (hself hv).1
    · rw [hold hc] at hv
      exact (hothers hc hv).1
  · by_cases hc₁ : c₁ = c
    · subst hc₁
      by_cases hc₂ : c₂ = c₁
      · exact (hc₂ ▸ hv).not_leaves hleave
      · rw [hnew] at hv
        rw [hold hc₂] at hleave
        exact (hself hv).2 c₂ hc₂ hleave
    · rw [hold hc₁] at hv
      by_cases hc₂ : c₂ = c
      · subst hc₂
        rw [hnew] at hleave
        exact (hothers hc₁ hv).2 hleave
      · rw [hold hc₂] at hleave
        exact hR.stays hv hleave

/-- A step that changes one connection, and no route. -/
theorem update (hR : h.Routed) (hr : (machine retentionTime).Reach h)
    (hconn : h'.conn = Function.update h.conn c k) (hrouter : h'.router = h.router)
    (hclaims : ∀ v, (h.conn c).Claims v → k.Claims v)
    (hroutes : ∀ v, k.Routes v → (h.conn c).Routes v)
    (hleaves : ∀ v, k.Leaves v → (h.conn c).Claims v) (hk : k.Sound) : h'.Routed := by
  refine hR.change hconn (fun {v c'} hl => ?_) (fun {v} hv => ?_) (fun {v c'} hc hv => ?_) hk
  · rw [hrouter] at hl
    by_cases hc : c' = c
    · subst hc
      exact Or.inl ⟨rfl, hclaims v (hR.claims hl)⟩
    · exact Or.inr ⟨hc, hl⟩
  · rw [hrouter]
    exact ⟨hR.lookup (hroutes v hv), fun c' _ => hR.stays (hroutes v hv)⟩
  · rw [hrouter]
    -- it claimed the address before, so it would have to be the routed one itself
    exact ⟨hR.lookup hv, fun hleave => hc (hR.only hr hv (hleaves v hleave)).symm⟩

/-- A step after which the connection has the same address, and is not open anew. -/
theorem keep (hR : h.Routed) (hr : (machine retentionTime).Reach h)
    (hconn : h'.conn = Function.update h.conn c k) (hrouter : h'.router = h.router)
    (hpresent : k.serve.isPresent = (h.conn c).serve.isPresent)
    (hopen : k.serve.isOpen = true → (h.conn c).serve.isOpen = true)
    (hip : k.client.virtualIp = (h.conn c).client.virtualIp)
    (hpump : k.pump.isAssigned = (h.conn c).pump.isAssigned) (hk : k.Sound) : h'.Routed := by
  refine hR.update hr hconn hrouter (fun v hv => ?_) (fun v hv => ?_) (fun v hv => ?_) hk
  · exact ⟨hpresent.trans hv.1, hip.trans hv.2⟩
  · exact ⟨hopen hv.1, hip.symm.trans hv.2.1, hpump.symm.trans hv.2.2⟩
  · refine ⟨hpresent.symm.trans ?_, hip.symm.trans hv.2⟩
    rw [hv.1]
    rfl

/-- A step that changes neither the connections nor the table. -/
theorem congr (hR : h.Routed) (hconn : h'.conn = h.conn) (hrouter : h'.router = h.router) :
    h'.Routed where
  claims := by
    rw [hconn, hrouter]
    exact hR.claims
  lookup := by
    rw [hconn, hrouter]
    exact hR.lookup
  stays := by
    rw [hconn]
    exact hR.stays
  sound := by
    rw [hconn]
    exact hR.sound

end Routed

/-! ## The steps -/

/-- A handshake assigns an address: its connection has none before, or has this one. -/
theorem routed_assign (hr : (machine retentionTime).Reach h) (hR : h.Routed)
    (hok : RouteOk h (.assign c)) (payload : Bytes) (dnsMap : Map Bytes IP) :
    (h.assign c payload dnsMap).Routed := by
  obtain ⟨⟨hostname, hconn⟩, -, hrouter⟩ := assign_frame (h := h) (c := c) payload dnsMap
  have hsame : ∀ v, (h.conn c).client.virtualIp = some v → h.offer c = some v := by
    intro v hv
    rcases hok with hnone | hsame
    · cases hnone.symm.trans hv
    · exact hsame.trans hv
  have hleaving (hserve : (h.conn c).serve = .closing ∨ (h.conn c).serve = .stored) :
      ∃ v, (h.conn c).client.virtualIp = some v :=
    Option.ne_none_iff_exists'.mp ((hR.sound c).leaving hserve)
  cases hoffer : h.offer c with
  | none =>
    have hnone : (h.conn c).client.virtualIp = none := by
      refine Option.eq_none_iff_forall_ne_some.mpr fun v hv => ?_
      cases hoffer.symm.trans (hsame v hv)
    rw [hoffer] at hconn
    refine hR.update hr hconn hrouter (fun v hv => ?_) (fun v hv => nomatch hv.2.1)
      (fun v hv => nomatch hv.2) ⟨fun hserve => ?_, nofun, fun hip => absurd rfl hip⟩
    · exact absurd hv (Conn.not_claims_of_none hnone v)
    · obtain ⟨v, hv⟩ := hleaving hserve
      cases hnone.symm.trans hv
  | some w =>
    rw [hoffer] at hconn hsame
    refine hR.update hr hconn hrouter (fun v hv => ⟨hv.1, hsame v hv.2⟩)
      (fun v hv => nomatch hv.2.2) (fun v hv => ?_)
      ⟨fun _ => Option.some_ne_none w, fun _ => Option.some_ne_none w, fun _ => Or.inl rfl⟩
    -- A connection that is about to remove its route had the address before.
    have hstored : (h.conn c).serve = .stored := hv.1
    obtain ⟨v', hv'⟩ := hleaving (Or.inr hstored)
    have hip : some w = some v := hv.2
    refine ⟨by rw [hstored]; rfl, ?_⟩
    rw [hv', ← hsame v' hv', hip]

/-- A route is added: nobody else should have one under the address, and nobody else is going
to remove it. -/
theorem routed_addClient (hr : (machine retentionTime).Reach h) (hR : h.Routed)
    (hpump : (h.conn c).pump = .assigned) (hok : RouteOk h (.addClient c)) :
    (h.addClient c).Routed := by
  obtain ⟨hpresent, hothers⟩ := hok
  obtain ⟨w, hw⟩ := Option.ne_none_iff_exists'.mp ((hR.sound c).assigned (hpump ▸ rfl))
  have hlookup (v : ByteArr 4) : (h.addClient c).router.clientMap.lookup v =
      if v = w then some c else h.router.clientMap.lookup v := by
    refine (RouterSnapshot.lookup_addClient _ _ c v).trans ?_
    rw [hw, ipToKey_some]
  refine hR.change (k := { h.conn c with pump := .routed }) rfl (fun {v c'} hl => ?_)
    (fun {v} hv => ?_) (fun {v c'} hc hv => ?_)
    ((hR.sound c).move rfl rfl rfl fun _ => Or.inl rfl)
  · rw [hlookup] at hl
    by_cases hv : v = w
    · rw [if_pos hv] at hl
      exact Or.inl ⟨(Option.some.inj hl).symm, hpresent, hv ▸ hw⟩
    · rw [if_neg hv] at hl
      by_cases hc : c' = c
      · exact Or.inl ⟨hc, hR.claims (hc ▸ hl)⟩
      · exact Or.inr ⟨hc, hl⟩
  · have hvw : v = w := Option.some.inj (hv.2.1.symm.trans hw)
    refine ⟨by rw [hlookup, if_pos hvw], fun c' hc hleave => hc ?_⟩
    have hlt := (fresh hr).lt (conn_ne_absent_of_serve hleave.1 nofun)
    exact hothers c' hlt hleave.1 (hleave.2.trans hv.2.1.symm)
  · have hne : v ≠ w := by
      rintro rfl
      exact hc (hR.only hr hv ⟨hpresent, hw⟩).symm
    rw [hlookup, if_neg hne]
    exact ⟨hR.lookup hv, hR.stays hv⟩

/-- A route is removed: no routed connection has the address. -/
theorem routed_removeClient (hR : h.Routed) (hserve : (h.conn c).serve = .stored) :
    (h.removeClient c).Routed := by
  obtain ⟨w, hw⟩ := Option.ne_none_iff_exists'.mp ((hR.sound c).leaving (Or.inr hserve))
  have hlookup (v : ByteArr 4) : (h.removeClient c).router.clientMap.lookup v =
      if v = w then none else h.router.clientMap.lookup v := by
    refine (RouterSnapshot.lookup_removeClient _ _ v).trans ?_
    rw [hw, ipToKey_some]
  refine hR.change (k := { h.conn c with serve := .closed }) rfl (fun {v c'} hl => ?_)
    (fun {v} hv => by cases hv.1) (fun {v c'} hc hv => ?_)
    ⟨?_, (hR.sound c).assigned, (hR.sound c).completed⟩
  · rw [hlookup] at hl
    by_cases hv : v = w
    · rw [if_pos hv] at hl
      cases hl
    · rw [if_neg hv] at hl
      refine Or.inr ⟨?_, hl⟩
      rintro rfl
      exact hv (Option.some.inj ((hR.claims hl).2.symm.trans hw))
  · have hne : v ≠ w := by
      rintro rfl
      exact hR.stays hv ⟨hserve, hw⟩
    rw [hlookup, if_neg hne]
    exact ⟨hR.lookup hv, fun hleave => by cases hleave.1⟩
  · rintro (heq | heq)
    · cases heq
    · cases heq

/-- A connection that has no address is closed at once. -/
theorem routed_disconnect (hr : (machine retentionTime).Reach h) (hR : h.Routed)
    (hserve : (h.conn c).serve = .running) : (h.disconnect c).Routed := by
  have hk := hR.sound c
  cases hip : (h.conn c).client.virtualIp with
  | none =>
    have hconn : (h.disconnect c).conn =
        Function.update h.conn c { h.conn c with serve := .closed } := by
      show Function.update h.conn c { h.conn c with serve := _ } = _
      rw [hip]
      rfl
    refine hR.update hr hconn rfl (fun v hv => ?_) (fun v hv => by cases hv.1)
      (fun v hv => by cases hv.1) ⟨?_, hk.assigned, hk.completed⟩
    · exact absurd hv (Conn.not_claims_of_none hip v)
    · rintro (heq | heq)
      · cases heq
      · cases heq
  | some v =>
    have hconn : (h.disconnect c).conn =
        Function.update h.conn c { h.conn c with serve := .closing } := by
      show Function.update h.conn c { h.conn c with serve := _ } = _
      rw [hip]
      rfl
    refine hR.keep hr hconn rfl (by rw [hserve]; rfl) (fun _ => by rw [hserve]; rfl) rfl rfl
      ⟨fun _ => ?_, hk.assigned, hk.completed⟩
    exact hip ▸ Option.some_ne_none v

/-- **Every step that meets the condition keeps the table right.** -/
theorem routed_step (hr : (machine retentionTime).Reach h) (hR : h.Routed) (hok : RouteOk h a)
    (hs : step retentionTime h a = some h') : h'.Routed := by
  cases does_of_step hs with
  | accept =>
    have habsent := fresh hr h.next (Nat.le_refl _)
    refine hR.update hr rfl rfl (fun v hv => ?_) (fun v hv => nomatch hv.2.1)
      (fun v hv => nomatch hv.2) ⟨?_, nofun, fun hip => absurd rfl hip⟩
    · rw [habsent] at hv
      cases hv.1
    · rintro (heq | heq) <;> cases heq
  | cancel _ =>
    have hk := hR.sound
    exact hR.keep hr rfl rfl rfl id rfl rfl ⟨(hk _).leaving, (hk _).assigned, (hk _).completed⟩
  | quit hpump =>
    have hdone := (hR.sound _).completed_of_pump hpump rfl nofun
    exact hR.keep hr rfl rfl rfl id rfl (hpump ▸ rfl)
      ((hR.sound _).move rfl rfl rfl fun hip => Or.inr (hdone hip))
  | @load c payload hpump =>
    have hdone := (hR.sound c).completed_of_pump hpump rfl nofun
    obtain ⟨hclient, hserve, hcompleted, hp⟩ := (h.conn c).load_frame payload h.dnsMap
    refine hR.keep hr rfl rfl (congrArg _ hserve) (fun hopen => hserve ▸ hopen)
      (congrArg _ hclient) (hp.trans (hpump ▸ rfl)) ?_
    exact (hR.sound c).move hserve (congrArg _ hclient) hp
      fun hip => Or.inr (hcompleted.trans (hdone hip))
  | identify hpump =>
    have hdone := (hR.sound _).completed_of_pump hpump rfl nofun
    exact hR.keep hr rfl rfl rfl id rfl (hpump ▸ rfl)
      ((hR.sound _).move rfl rfl rfl fun hip => Or.inr (hdone hip))
  | assign _ _ => exact routed_assign hr hR hok _ _
  | addClient hpump => exact routed_addClient hr hR hpump hok
  | finish hpump =>
    exact hR.keep hr rfl rfl rfl id rfl ((Conn.isAssigned_complete _).trans (hpump ▸ rfl))
      ((hR.sound _).move rfl rfl (Conn.isAssigned_complete _) fun _ => Or.inr rfl)
  | disconnect hserve _ => exact routed_disconnect hr hR hserve
  | retain hserve _ =>
    refine hR.keep hr rfl rfl (by rw [hserve]; rfl) nofun rfl rfl ⟨fun _ => ?_, ?_, ?_⟩
    · exact (hR.sound _).leaving (Or.inl hserve)
    · exact (hR.sound _).assigned
    · exact (hR.sound _).completed
  | removeClient hserve => exact routed_removeClient hR hserve
  | sweep _ _ =>
    obtain ⟨hconn, -, hrouter⟩ := sweepEntry_frame _ _
    exact hR.congr hconn hrouter
  | tick _ => exact hR.congr rfl rfl
  | wake _ => exact hR.congr rfl rfl
  | lock _ => exact hR.congr rfl rfl
  | unlock _ => exact hR.congr rfl rfl

theorem routed (hr : (machine retentionTime).ReachVia RouteOk h) : h.Routed :=
  hr.invariant routed_newHub fun hr hR hok hs => routed_step hr.reach hR hok hs

/-! ## The table is exact -/

/-- No handshake and no disconnect is half-way. -/
def Quiescent (h : Hub) : Prop :=
  ∀ c < h.next, (h.conn c).pump.isQuiet = true ∧
    (h.conn c).serve ≠ .closing ∧ (h.conn c).serve ≠ .stored

instance (h : Hub) : Decidable h.Quiescent := inferInstanceAs (Decidable (∀ _ < _, _))

/-- The connection is open, has completed a handshake, and has the address. -/
def Serves (h : Hub) (c : ConnId) (v : ByteArr 4) : Prop :=
  (h.conn c).serve = .running ∧ (h.conn c).completed = true ∧
    (h.conn c).client.virtualIp = some v

instance (h : Hub) (c : ConnId) (v : ByteArr 4) : Decidable (h.Serves c v) :=
  inferInstanceAs (Decidable (_ ∧ _))

/-- Between handshakes and disconnects, a connection that still has a route to remove is open and
has completed a handshake. -/
theorem serves_of_claims (hf : h.Fresh) (hk : (h.conn c).Sound) (hq : h.Quiescent)
    {v : ByteArr 4} (hv : (h.conn c).Claims v) : h.Serves c v := by
  obtain ⟨hpresent, hip⟩ := hv
  have hlt : c < h.next := by
    refine Nat.lt_of_not_le fun hle => ?_
    rw [hf c hle] at hpresent
    cases hpresent
  obtain ⟨hquiet, hclosing, hstored⟩ := hq c hlt
  refine ⟨?_, hk.completed_of_pump rfl ?_ ?_ (hip ▸ Option.some_ne_none v), hip⟩
  · cases hserve : (h.conn c).serve with
    | running => rfl
    | closing => exact absurd hserve hclosing
    | stored => exact absurd hserve hstored
    | absent => rw [hserve] at hpresent; cases hpresent
    | closed => rw [hserve] at hpresent; cases hpresent
  · exact Pump.isAssigned_of_isQuiet hquiet
  · intro hpump
    rw [hpump] at hquiet
    cases hquiet

theorem routes_of_serves (hf : h.Fresh) (hq : h.Quiescent) {v : ByteArr 4} (hv : h.Serves c v) :
    (h.conn c).Routes v := by
  obtain ⟨hserve, -, hip⟩ := hv
  have hlt := hf.lt (conn_ne_absent_of_serve hserve nofun)
  exact ⟨hserve ▸ rfl, hip, Pump.isAssigned_of_isQuiet (hq c hlt).1⟩

/-- **The routing table is exact.** In every run whose steps all meet the
condition, wherever no handshake and no disconnect is half-way, an address is
mapped to a connection if and only if the connection is open, has completed a
handshake, and has the address. -/
theorem routes_exact (hr : (machine retentionTime).ReachVia RouteOk h) (hq : h.Quiescent)
    (v : ByteArr 4) (c : ConnId) :
    h.router.clientMap.lookup v = some c ↔ h.Serves c v := by
  have hR := routed hr
  have hf := fresh hr.reach
  constructor
  · exact fun hl => serves_of_claims hf (hR.sound c) hq (hR.claims hl)
  · exact fun hv => hR.lookup (routes_of_serves hf hq hv)

/-- A client leaves and comes back under its address: the table has the new
connection. -/
theorem routes_exact_reconnect :
    ∃ h, (machine 300).ReachVia RouteOk h ∧
      (h.Quiescent ∧ (h.conn 0).serve = .closed ∧ h.Serves 1 (hostIp 2)) ∧
      h.router.clientMap.lookup (hostIp 2) = some 1 := by
  obtain ⟨h, hr, hq, hclosed, hserves⟩ : ∃ h, (machine 300).ReachVia RouteOk h ∧
      (h.Quiescent ∧ (h.conn 0).serve = .closed ∧ h.Serves 1 (hostIp 2)) :=
    Machine.exists_reachVia
      ([.accept] ++ handshake 0 (hello 3 7) ++
        [.cancel 0, .disconnect 0, .retain 0, .removeClient 0, .accept] ++
        handshake 1 (hello 3 7)) (by decide +kernel)
  exact ⟨h, hr, ⟨hq, hclosed, hserves⟩, (routes_exact hr hq (hostIp 2) 1).mpr hserves⟩

/-- **A disconnect can remove another connection's route.** The client of
connection 0 reconnects as connection 1, between the moment when connection 0 is
put aside and the moment when it removes its route: that is the route connection 1
has just added. -/
theorem route_removed :
    ∃ h, (machine 300).Reach h ∧ h.Quiescent ∧ h.Serves 1 (hostIp 2) ∧
      h.router.clientMap.lookup (hostIp 2) = none :=
  Machine.exists_reach
    ([.accept] ++ handshake 0 (hello 3 7) ++ [.cancel 0, .disconnect 0, .retain 0, .accept] ++
      handshake 1 (hello 3 7) ++ [.removeClient 0]) (by decide +kernel)

end Hub

end EasyTun.Transport
