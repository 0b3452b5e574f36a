import EasyTun.Transport.Commands
import EasyTun.Transport.TunnelMoves

/-!
# Tunnels belong to registered clients

A tunnel record names two addresses. When a client leaves, `removeClient` takes its
address out of the routing table and then removes the tunnels that name it. The four
places that call `AddTunnel` do not look at the routing table at that moment: two of
them have looked at an older snapshot, one has a queued task, and one takes the
address from a message.

- `Owned`: an address that is routed, or whose tunnels are just being removed;
- `owned_moves`, `owned_hub`: what the steps of the data plane and of the control plane
  do to it;
- `tunnels_registered`: if a tunnel is only added while both of its addresses are
  owned, then **the endpoints of every tunnel are registered**, unless a removal is
  half-way;
- `tunnel_of_nobody`: a client makes a tunnel to an address that nobody has.
-/

namespace EasyTun.Transport

open EasyTun.Lib EasyTun.Util EasyTun.Protocol EasyTun.Stun

namespace Hub

/-- The address is a key of the current routing table. -/
def Registered (h : Hub) (v : ByteArr 4) : Prop := (h.router.clientMap.lookup v).isSome = true

instance (h : Hub) (v : ByteArr 4) : Decidable (h.Registered v) :=
  inferInstanceAs (Decidable (_ = _))

/-- The address is registered, or `removeClient` is about to remove its tunnels. -/
def Owned (h : Hub) (removing : Option ConnId) (v : ByteArr 4) : Prop :=
  h.Registered v ∨ ∃ c ∈ removing, v = ipToKey (h.client c).virtualIp

instance (h : Hub) (removing : Option ConnId) (v : ByteArr 4) : Decidable (h.Owned removing v) :=
  inferInstanceAs (Decidable (_ ∨ _))

/-- The address of a connection behind the section of `handleHandshake` under the lock. -/
theorem virtualIp_of_assign {h h' : Hub} {c : ConnId} {retentionTime : Int}
    (hs : h.step retentionTime (.assign c) = some h') : (h'.client c).virtualIp = h.offer c := by
  cases does_of_step hs with
  | @assign _ payload dnsMap _ _ =>
    obtain ⟨⟨hostname, hconn⟩, -, -⟩ := assign_frame (h := h) (c := c) payload dnsMap
    have hself : (h.assign c payload dnsMap).conn c = (h.conn c).assign (h.offer c) hostname := by
      rw [hconn, Function.update_self]
    refine (congrArg (·.client.virtualIp) hself).trans ?_
    cases h.offer c with
    | none => rfl
    | some v => rfl

theorem registered_addClient {h h' : Hub} {ip : IP} {c : ConnId}
    (hrouter : h'.router = h.router.addClient ip c) {v : ByteArr 4} (hv : h.Registered v) :
    h'.Registered v := by
  unfold Registered
  rw [hrouter, RouterSnapshot.lookup_addClient]
  split
  · rfl
  · exact hv

theorem registered_removeClient {h h' : Hub} {ip : IP}
    (hrouter : h'.router = h.router.removeClient ip) {v : ByteArr 4} (hv : h.Registered v)
    (hne : v ≠ ipToKey ip) : h'.Registered v := by
  unfold Registered
  rw [hrouter, RouterSnapshot.lookup_removeClient, if_neg hne]
  exact hv

end Hub

namespace Punching

/-- The pair for which a step calls `AddTunnel`. -/
def adds (s : Punching) : Server.Act → Option (ByteArr 4 × ByteArr 4)
  | .transfer w =>
    match s.transfer w with
    | .relaying r .add => some (r.packet.src, r.packet.dst)
    | _ => none
  | .p2p =>
    match s.p2p with
    | .looked task _ none => some (task.srcVip, task.dstVip)
    | _ => none
  | .wsNext c =>
    match s.ws c with
    | .adding a b => some (a, b)
    | _ => none
  | _ => none

variable {h : Hub} {s s' : Punching} {a : Server.Act}

/-- **A step of the data plane** keeps the endpoints owned, if it only adds tunnels between
owned addresses. -/
theorem owned_moves (hends : s.tm.Ends (h.Owned s.removing)) (hsound : s.tm.Sound)
    (hadds : ∀ p ∈ s.adds a, h.Owned s.removing p.1 ∧ h.Owned s.removing p.2)
    (ha : ∀ b, a ≠ .hub b) (hm : Moves h s a s') : s'.tm.Ends (h.Owned s'.removing) := by
  -- `AddTunnel` for an owned pair
  have hadd : ∀ (x y : ByteArr 4) (status : TunnelStatus), s.adds a = some (x, y) →
      (s.tm.addTunnel x y status).Ends (h.Owned s.removing) := by
    intro x y status hxy
    obtain ⟨hx, hy⟩ := hadds (x, y) hxy
    exact hends.addTunnel hsound hx hy status
  -- what `handleP2PTask` does to the record of its task
  have hrecord : ∀ (task : P2PTask) (clientMap : Map (ByteArr 4) ConnId) (t : Option TunnelId),
      s.p2p = .looked task clientMap t → a = .p2p →
      (recordTask s.tm task t).Ends (h.Owned s.removing) := by
    rintro task clientMap t hp rfl
    cases t with
    | none => exact hadd _ _ .init (by simp only [adds, hp])
    | some t => exact hends.addRetryTimes t
  cases hm with
  | hub => exact absurd rfl (ha _)
  | removeRoute => exact absurd rfl (ha _)
  | removeNothing => exact absurd rfl (ha _)
  | aside | pass | absent | present | failed | retry | enqueue | drop | take | advance | finish
  | wsPass => exact hends
  | removeA hc =>
    refine TunnelManager.Ends.removeA (hends.mono fun v hv => ?_)
    rcases hv with hreg | ⟨c', hc', rfl⟩
    · exact Or.inl (Or.inl hreg)
    · obtain rfl := Option.some.inj (hc.symm.trans hc')
      exact Or.inr rfl
  | add hw => exact hadd _ _ .init (by simp only [adds, hw])
  | reopen hw => exact hends.changeStatus _ _
  | record hp => exact hrecord _ _ _ hp rfl
  | lost hp _ => exact hrecord _ _ _ hp rfl
  | wsAdd hws => exact hadd _ _ .connected (by simp only [adds, hws])
  | wsConnect hws => exact hends.changeStatus _ _
  | wsFail hws => exact hends.changeStatus _ _
  | wsCount hws => exact hends.addRetryTimes _

/-- A step of the data plane begins no removal. -/
theorem removing_of_moves (ha : ∀ b, a ≠ .hub b) (hm : Moves h s a s') {c : ConnId}
    (hc : s'.removing = some c) : s.removing = some c := by
  cases hm with
  | hub => exact absurd rfl (ha _)
  | removeRoute => exact absurd rfl (ha _)
  | removeNothing => exact absurd rfl (ha _)
  | removeA _ => cases hc
  | aside | pass | absent | present | failed | retry | add | reopen | enqueue | drop | take
  | advance | record | lost | finish | wsPass | wsAdd | wsConnect | wsFail | wsCount => exact hc

end Punching

namespace Server

variable {retentionTime : Int} {dnsReply : Hub → Header → Bytes → Option Bytes} {s s' : Server}
  {a : Act}

/-- A tunnel is added only while each of its addresses is registered or about to lose its tunnels,
and a connection gets no other address while the tunnels of its own are being removed. -/
def OwnersOk (s : Server) : Act → Prop
  | .hub (.assign c) =>
    s.plane.removing = some c → s.hub.offer c = (s.hub.conn c).client.virtualIp
  | a => ∀ p ∈ s.plane.punching.adds a,
    s.hub.Owned s.plane.removing p.1 ∧ s.hub.Owned s.plane.removing p.2

instance (s : Server) : (a : Act) → Decidable (OwnersOk s a)
  | .hub (.assign c) => inferInstanceAs (Decidable (s.plane.removing = some c →
      s.hub.offer c = (s.hub.conn c).client.virtualIp))
  | .transfer w => inferInstanceAs (Decidable (∀ p ∈ s.plane.punching.adds (.transfer w), _))
  | .p2p => inferInstanceAs (Decidable (∀ p ∈ s.plane.punching.adds .p2p, _))
  | .wsNext c => inferInstanceAs (Decidable (∀ p ∈ s.plane.punching.adds (.wsNext c), _))
  | .hub .accept | .hub (.cancel _) | .hub (.quit _) | .hub (.load _ _) | .hub (.identify _)
  | .hub (.addClient _) | .hub (.finish _) | .hub (.disconnect _) | .hub (.retain _)
  | .hub (.removeClient _) | .hub (.tick _) | .hub .wake | .hub .lock | .hub (.sweep _)
  | .hub .unlock | .removeA | .udp _ _ | .check _ _ | .checkNext | .ws _ _ | .wsDone _ | .ping _
  | .writePump _ | .writeUdp => .isTrue (fun _ h => by cases h)

theorem OwnersOk.adds (hok : OwnersOk s a) (ha : ∀ b, a ≠ .hub b) :
    ∀ p ∈ s.plane.punching.adds a,
      s.hub.Owned s.plane.removing p.1 ∧ s.hub.Owned s.plane.removing p.2 := by
  cases a with
  | hub b => exact absurd rfl (ha b)
  | removeA | udp _ _ | check _ _ | checkNext | transfer _ | p2p | ws _ _ | wsNext _ | wsDone _
  | ping _ | writePump _ | writeUdp => exact hok

/-- The endpoints in the table are owned. -/
structure Owners (s : Server) : Prop where
  sound : s.plane.tm.Sound
  ends : s.plane.tm.Ends (s.hub.Owned s.plane.removing)
  removing : ∀ c, s.plane.removing = some c → c < s.hub.next

/-- **A step of the control plane** keeps owned addresses owned. -/
theorem owned_hub {b : Hub.Act} {h' : Hub}
    (hremoving : ∀ c, s.plane.removing = some c → c < s.hub.next)
    (hlock : ∀ c, b = .addClient c ∨ b = .removeClient c → s.plane.removing = none)
    (hassign : ∀ c, b = .assign c → s.plane.removing = some c →
      s.hub.offer c = (s.hub.conn c).client.virtualIp)
    (hs : s.hub.step retentionTime b = some h') {v : ByteArr 4}
    (hv : s.hub.Owned s.plane.removing v) :
    h'.Owned (s.plane.follow s.hub b).removing v := by
  rcases Hub.router_of_step hs with ⟨c, rfl, hrouter⟩ | ⟨c, rfl, hrouter⟩ | ⟨hne, hrouter⟩
  · -- no removal is half-way while a route is added
    have hnone := hlock c (Or.inl rfl)
    rcases hv with hreg | ⟨c', hc', -⟩
    · exact Or.inl (Hub.registered_addClient hrouter hreg)
    · rw [hnone] at hc'
      cases hc'
  · have hnone := hlock c (Or.inr rfl)
    have hreg : s.hub.Registered v := by
      rcases hv with hreg | ⟨c', hc', -⟩
      · exact hreg
      · rw [hnone] at hc'
        cases hc'
    by_cases hvip : v = ipToKey (s.hub.client c).virtualIp
    · -- the address that loses its route, and had one
      subst hvip
      refine Or.inr ⟨c, ?_, ?_⟩
      · unfold Hub.Registered at hreg
        show (s.plane.follow s.hub (.removeClient c)).removing = some c
        simp only [Plane.follow, hreg, if_true]
      · have hstored := Hub.does_of_step hs
        cases hstored with
        | removeClient hserve =>
          have hip : ((s.hub.removeClient c).client c).virtualIp = (s.hub.client c).virtualIp :=
            Hub.virtualIp_update rfl rfl
          exact congrArg ipToKey hip.symm
    · exact Or.inl (Hub.registered_removeClient hrouter hreg hvip)
  · have hfollow : (s.plane.follow s.hub b).removing = s.plane.removing :=
      congrArg (·.removing) (Plane.punching_follow hne)
    rw [hfollow]
    rcases hv with hreg | ⟨c, hc, rfl⟩
    · refine Or.inl ?_
      unfold Hub.Registered
      rw [hrouter]
      exact hreg
    · refine Or.inr ⟨c, hc, congrArg ipToKey (Eq.symm ?_)⟩
      by_cases hb : b = .assign c
      · exact (Hub.virtualIp_of_assign (hb ▸ hs)).trans (hassign c hb hc)
      · exact Hub.virtualIp_of_step (hremoving c hc) hb hs

/-- Nothing is removed but by `removeClient`, of a connection there is. -/
theorem removing_follow {b : Hub.Act} {h' : Hub} (hf : s.hub.Fresh)
    (hremoving : ∀ c, s.plane.removing = some c → c < s.hub.next)
    (hs : s.hub.step retentionTime b = some h') {c : ConnId}
    (hc : (s.plane.follow s.hub b).removing = some c) : c < h'.next := by
  refine Nat.lt_of_lt_of_le ?_ (Hub.next_le_of_step hs)
  by_cases hb : ∀ c, b ≠ .removeClient c
  · exact hremoving c ((congrArg (·.removing) (Plane.punching_follow hb)).symm.trans hc)
  · obtain ⟨c', rfl⟩ := not_forall_not.mp hb
    simp only [Plane.follow] at hc
    split at hc
    · cases hc
      cases Hub.does_of_step hs with
      | removeClient hserve => exact hf.lt (Hub.conn_ne_absent_of_serve hserve (by decide))
    · exact hremoving c hc

theorem tm_follow (h : Hub) (b : Hub.Act) : (s.plane.follow h b).tm = s.plane.tm := by
  by_cases hb : ∀ c, b ≠ .removeClient c
  · exact congrArg (·.tm) (Plane.punching_follow hb)
  · obtain ⟨c, rfl⟩ := not_forall_not.mp hb
    simp only [Plane.follow]
    split
    · rfl
    · rfl

theorem owners_step (h : Owners s) (hf : s.hub.Fresh) (hok : OwnersOk s a)
    (hs : step retentionTime dnsReply s a = some s') : Owners s' := by
  have hmoves := moves_of_step hs
  have hsound : s'.plane.tm.Sound := Punching.sound_of_moves h.sound hmoves
  cases (does_of_step hs).2 with
  | @hub b h' hh =>
    have hassign : ∀ c, b = .assign c → s.plane.removing = some c →
        s.hub.offer c = (s.hub.conn c).client.virtualIp := by
      rintro c rfl
      exact hok
    refine ⟨hsound, ?_, fun c hc => removing_follow hf h.removing hh hc⟩
    show (s.plane.follow s.hub b).tm.Ends _
    rw [tm_follow]
    have hlock : ∀ c, b = .addClient c ∨ b = .removeClient c → s.plane.removing = none := by
      rintro c (rfl | rfl)
      · exact Option.isNone_iff_eq_none.mp (admits_of_step hs)
      · exact Option.isNone_iff_eq_none.mp (admits_of_step hs)
    exact h.ends.mono fun v hv => owned_hub h.removing hlock hassign hh hv
  | @quit c h' hh =>
    -- the end of a connection's `readPump` changes no route and no address
    refine ⟨hsound, h.ends.mono fun v hv => ?_, fun c' hc' =>
      Nat.lt_of_lt_of_le (h.removing c' hc') (Hub.next_le_of_step hh)⟩
    exact owned_hub (b := .quit c) h.removing nofun nofun hh hv
  | back => exact ⟨hsound, h.ends, h.removing⟩
  | plane hp =>
    have hne : ∀ b, a ≠ .hub b := by
      rintro b rfl
      cases hp
    refine ⟨hsound, Punching.owned_moves h.ends h.sound (hok.adds hne) hne hmoves, fun c hc => ?_⟩
    exact h.removing c (Punching.removing_of_moves hne hmoves hc)

/-- **Tunnels belong to registered clients**, in every run in which a tunnel is added only
while both of its addresses are owned: unless a removal is half-way, both
endpoints of every tunnel are keys of the current routing table. So an address that
lost its route is named by no tunnel until it is registered again. -/
theorem tunnels_registered (hr : (machine retentionTime dnsReply).ReachVia OwnersOk s)
    (hremoving : s.plane.removing = none) :
    s.plane.tm.Ends s.hub.Registered ∧
      ∀ v, ¬s.hub.Registered v → s.plane.tm.Ends fun x => x ≠ v := by
  have howners : Owners s := by
    refine hr.invariant (P := Owners) ⟨.new, .new, nofun⟩ fun hr' h hok hs => ?_
    exact owners_step h (Hub.fresh (hub_reach hr'.reach)) hok hs
  have hends : s.plane.tm.Ends s.hub.Registered := by
    refine howners.ends.mono fun v hv => ?_
    rcases hv with hreg | ⟨c, hc, -⟩
    · exact hreg
    · rw [hremoving] at hc
      cases hc
  exact ⟨hends, fun v hv => hends.mono fun x hx heq => hv (heq ▸ hx)⟩

/-- A control message of 10.0.6.2 about a tunnel to the host `x`. -/
def tunnelMessage (pType : UInt8) (x : UInt8) : Bytes :=
  wireAd pType (Hub.hostIp x) 0 ++ wireNonce (Hub.hostIp 2) 0

/-- A data packet opens a tunnel, and when one of its clients leaves it is gone. -/
theorem tunnels_registered_after_leaving :
    ∃ s, (machine 300 fun _ _ _ => none).ReachVia OwnersOk s ∧ s.plane.removing = none ∧
      s.plane.tm.next = 1 ∧ ¬s.hub.Registered (Hub.hostIp 3) ∧
      s.plane.tm.Ends fun x => x ≠ Hub.hostIp 3 := by
  obtain ⟨s, hr, hremoving, hnext, hgone⟩ : ∃ s,
      (machine 300 fun _ _ _ => none).ReachVia OwnersOk s ∧ s.plane.removing = none ∧
        s.plane.tm.next = 1 ∧ ¬s.hub.Registered (Hub.hostIp 3) :=
    Machine.exists_reachVia
      (connectTwo ++ punch 0 ++
        [.hub (.cancel 1), .hub (.disconnect 1), .hub (.retain 1), .hub (.removeClient 1),
          .removeA])
      (by decide +kernel)
  exact ⟨s, hr, hremoving, hnext, hgone, (tunnels_registered hr hremoving).2 _ hgone⟩

/-- **A tunnel to an address that nobody has.** A client reports a direct path to 10.0.6.99,
and the server records it: no handler is half-way, and the endpoint is not registered. -/
theorem tunnel_of_nobody :
    ∃ s, (machine 300 fun _ _ _ => none).Reach s ∧ s.Quiet ∧
      ¬s.hub.Registered (Hub.hostIp 99) ∧
      (s.plane.tm.exist (Hub.hostIp 2) (Hub.hostIp 99)).any
        (fun t => (s.plane.tm.heap t).b == Hub.hostIp 99) = true :=
  Machine.exists_reach
    (connectTwo ++ [.ws 0 (tunnelMessage typeP2PEstablished 99), .wsNext 0, .wsDone 0])
    (by decide +kernel)

end Server

end EasyTun.Transport
