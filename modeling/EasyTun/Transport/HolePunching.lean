import Mathlib.Tactic.Common
import EasyTun.Lib.Network
import EasyTun.Transport.DirectPath

/-!
# Direct paths between clients

Any number of clients, each as in `EasyTun.Transport.DirectPath`, behind NATs that translate
their addresses, possibly into another one for every destination. They send each other
pings, pongs and data, through a network that loses, repeats, delays and reorders. What the
server tells a client about another one is left open: an address in a command may be anybody's.

A status is established by a pong. The pong of a client goes to the address that a ping came
from, and what is sent there goes back to the client that sent the ping. So a pong says two
things: who it is from, which the address of the status then shows, and that this client got a
ping from the one that the pong arrives at.

- `direct_reaches_peer`: **what a client sends directly goes to the client it is for.**
- `established_both_ways`: **an established route works in both directions**: a ping was
  received at one end and its pong at the other.

No client sends in the name of another here. That the addresses of the clients do not move
to others is part of `Topology`.
-/

namespace EasyTun.Transport.HolePunching

open EasyTun.Lib EasyTun.Protocol EasyTun.Stun
open DirectPath
open P2PRoutes hiding Act step machine start Inv

/-! ## The clients -/

/-- What a client has sent to addresses other than the server's. -/
def sentBy (localIp : ByteArr 4) (n : Node) : List (Addr × Bytes) :=
  n.routes.sent.map (·, pingData localIp) ++ n.pongs.map (·, pongBytes localIp) ++
    n.sent.filterMap fun m =>
      match m.target with
      | .server => none
      | .direct addr => some (addr, m.data)

theorem mem_sentBy {localIp : ByteArr 4} {n : Node} {dst : Addr} {d : Bytes} :
    (dst, d) ∈ sentBy localIp n ↔ (dst ∈ n.routes.sent ∧ d = pingData localIp) ∨
      (dst ∈ n.pongs ∧ d = pongBytes localIp) ∨
      ∃ m ∈ n.sent, m.target = .direct dst ∧ d = m.data := by
  have hdata : ∀ m : Sent, (match m.target with
      | .server => none
      | .direct addr => some (addr, m.data)) = some (dst, d) ↔
      m.target = .direct dst ∧ d = m.data := by
    intro m
    cases m.target with
    | server => simp
    | direct addr => simp [eq_comm]
  simp only [sentBy, List.mem_append, List.mem_map, List.mem_filterMap, hdata, Prod.mk.injEq]
  grind

/-- What is taken for a ping or a pong is one, and is in the sender's own name. -/
theorem probe_of_sentBy {localIp src : ByteArr 4} {n : Node} {dst : Addr} {d : Bytes} {pong : Bool}
    (hd : (dst, d) ∈ sentBy localIp n) (hprobe : probe d = some (pong, src)) :
    src = localIp ∧ dst ∈ if pong then n.pongs else n.routes.sent := by
  obtain ⟨hdst, rfl⟩ | ⟨hdst, rfl⟩ | ⟨m, -, -, rfl⟩ := mem_sentBy.mp hd
  · rw [probe_pingData] at hprobe
    cases hprobe
    exact ⟨rfl, hdst⟩
  · rw [probe_pongBytes] at hprobe
    cases hprobe
    exact ⟨rfl, hdst⟩
  · rw [m.encoded.plain] at hprobe
    cases hprobe

theorem mem_pings {localIp : ByteArr 4} {n : Node} {dst : Addr} :
    (dst, pingData localIp) ∈ sentBy localIp n ↔ dst ∈ n.routes.sent := by
  constructor
  · intro h
    exact (probe_of_sentBy h (probe_pingData localIp)).2
  · intro h
    exact mem_sentBy.mpr (.inl ⟨h, rfl⟩)

theorem mem_pongs {localIp : ByteArr 4} {n : Node} {dst : Addr} :
    (dst, pongBytes localIp) ∈ sentBy localIp n ↔ dst ∈ n.pongs := by
  constructor
  · intro h
    exact (probe_of_sentBy h (probe_pongBytes localIp)).2
  · intro h
    exact mem_sentBy.mpr (.inr (.inl ⟨h, rfl⟩))

/-- The clients of a network, with their virtual addresses. -/
structure Peers (ι : Type) extends Topology ι Addr where
  vip : ι → ByteArr 4
  vip_injective : Function.Injective vip

/-- A step of a client that is not about a datagram. -/
def localStep (n : Node) : Act → Option Node
  | .datagram .. => none
  | a => step n a

/-- The clients as nodes of a network: what each does, and what it has sent. -/
def protocol {ι : Type} (N : Peers ι) : Protocol ι Addr Bytes Node Act where
  init _ := DirectPath.start
  step _ := localStep
  receive _ := datagram
  sent i := sentBy (N.vip i)

theorem step_of_localStep {n n' : Node} {a : Act} (hs : localStep n a = some n') :
    step n a = some n' ∧ ∀ addr d, a ≠ .datagram addr d := by
  cases a with
  | datagram addr d => cases hs
  | _ => exact ⟨hs, fun _ _ h => nomatch h⟩

/-! ### What a client has sent stays sent -/

theorem pings_of_step {s t : Client} {a : P2PRoutes.Act} (hs : P2PRoutes.step s a = some t) :
    s.sent ⊆ t.sent := by
  cases a with
  | clock seconds =>
    obtain rfl := Option.some.inj hs
    exact List.Subset.refl _
  | addP2P vIp addr natType =>
    obtain rfl := Option.some.inj hs
    exact List.Subset.refl _
  | receive pong srcVIp addr =>
    obtain rfl := Option.some.inj hs
    unfold receive
    split <;> exact List.Subset.refl _
  | work k room =>
    obtain ⟨task, -, rfl⟩ := Option.map_eq_some_iff.mp hs
    have hsent : (perform s room task).1.sent = s.sent := by
      cases task with
      | storeEstablished vIp status => cases room <;> rfl
      | _ => rfl
    show s.sent ⊆ (perform s room task).1.sent
    rw [hsent]
    exact List.Subset.refl _
  | tick =>
    obtain rfl := tick_eq hs
    exact List.Subset.refl _
  | visit vIp =>
    obtain ⟨rest, status, st, -, -, -, rfl⟩ := visit_eq hs
    exact List.Subset.refl _
  | body ok =>
    have hs : P2PRoutes.body s ok = some t := hs
    unfold P2PRoutes.body at hs
    split at hs
    · cases hs
    · cases hs
    · obtain rfl := Option.some.inj hs
      exact List.Subset.refl _
    · obtain rfl := Option.some.inj hs
      cases ok <;> exact List.Subset.refl _
    · obtain ⟨st, -, rfl⟩ := Option.map_eq_some_iff.mp hs
      exact List.Subset.refl _
    · obtain ⟨st, -, rfl⟩ := Option.map_eq_some_iff.mp hs
      exact List.subset_cons_self _ _
    · obtain ⟨st, -, rfl⟩ := Option.map_eq_some_iff.mp hs
      unfold punch
      split
      · exact List.subset_cons_self _ _
      · split <;> exact List.Subset.refl _
    · obtain rfl := Option.some.inj hs
      exact List.subset_cons_self _ _
  | finish =>
    obtain rfl := finish_eq hs
    exact List.Subset.refl _

/-- What a client has sent, part by part. -/
theorem sentBy_subset {localIp : ByteArr 4} {n n' : Node} (hping : n.routes.sent ⊆ n'.routes.sent)
    (hpong : n.pongs ⊆ n'.pongs) (hsent : n.sent ⊆ n'.sent) :
    sentBy localIp n ⊆ sentBy localIp n' := by
  rintro ⟨dst, d⟩ hd
  obtain ⟨hdst, rfl⟩ | ⟨hdst, rfl⟩ | ⟨m, hm, htarget, rfl⟩ := mem_sentBy.mp hd
  · exact mem_sentBy.mpr (.inl ⟨hping hdst, rfl⟩)
  · exact mem_sentBy.mpr (.inr (.inl ⟨hpong hdst, rfl⟩))
  · exact mem_sentBy.mpr (.inr (.inr ⟨m, hsent hm, htarget, rfl⟩))

theorem sentBy_of_step {localIp : ByteArr 4} {n n' : Node} {a : Act} (hs : step n a = some n') :
    sentBy localIp n ⊆ sentBy localIp n' := by
  cases does_of_step hs with
  | routes ha hr =>
    exact sentBy_subset (pings_of_step hr) (List.Subset.refl _) (List.Subset.refl _)
  | ignored => exact List.Subset.refl _
  | @heard addr d pong srcVIp hd =>
    refine sentBy_subset ?_ ?_ (List.Subset.refl _)
    · exact pings_of_step (a := .receive pong srcVIp addr) rfl
    · show n.pongs ⊆ if pong = true then n.pongs else n.pongs ++ [addr]
      split
      · exact List.Subset.refl _
      · exact List.subset_append_left _ _
  | unrouted | relayed | direct =>
    exact sentBy_subset (List.Subset.refl _) (List.Subset.refl _) (List.subset_append_left _ _)
  | batch | done | routed | established =>
    exact sentBy_subset (List.Subset.refl _) (List.Subset.refl _) (List.Subset.refl _)

theorem protocol_monotone {ι : Type} (N : Peers ι) : (protocol N).Monotone where
  step hs := sentBy_of_step (step_of_localStep hs).1
  receive _ _ addr d := sentBy_of_step (a := .datagram addr d) rfl

/-- A client's own steps leave alone what it has heard and answered. -/
theorem log_of_localStep {n n' : Node} {a : Act} (hs : localStep n a = some n') :
    n'.pongs = n.pongs ∧ n'.heard = n.heard := by
  obtain ⟨hs, hne⟩ := step_of_localStep hs
  cases does_of_step hs with
  | @heard addr d => exact absurd rfl (hne addr d)
  | _ => exact ⟨rfl, rfl⟩

/-! ## The network -/

variable {ι : Type} {N : Peers ι} {w w' : ι → Node}

/-- Node `i` has sent a ping that can reach node `j`. -/
def Pinged (N : Peers ι) (w : ι → Node) (i j : ι) : Prop :=
  ∃ dst ∈ (w i).routes.sent, N.owner dst = some j

/-- Node `i` has sent a pong that can reach node `j` and shows the source `addr` there. -/
def Answered (N : Peers ι) (w : ι → Node) (i j : ι) (addr : Addr) : Prop :=
  ∃ dst ∈ (w i).pongs, N.owner dst = some j ∧ addr = N.seen i dst

/-- **A ping of node `i` and the pong of node `j` to it have gone through.** `i` has sent the ping,
`j` has received it with the source `dst` and has sent the pong there, and `i` has received that. -/
structure RoundTrip (N : Peers ι) (w : ι → Node) (i j : ι) (dst : Addr) : Prop where
  pinged : Pinged N w i j
  ping : { pong := false, vIp := N.vip i, addr := dst } ∈ (w j).heard
  answered : dst ∈ (w j).pongs ∧ N.owner dst = some i
  pong : { pong := true, vIp := N.vip j, addr := N.seen j dst } ∈ (w i).heard

theorem Pinged.mono {i j : ι} (h : Pinged N w i j) (hle : Network.SentLe (protocol N) w w') :
    Pinged N w' i j := by
  obtain ⟨dst, hdst, howner⟩ := h
  exact ⟨dst, mem_pings.mp (hle i (mem_pings.mpr hdst)), howner⟩

theorem Answered.mono {i j : ι} {addr : Addr} (h : Answered N w i j addr)
    (hle : Network.SentLe (protocol N) w w') : Answered N w' i j addr := by
  obtain ⟨dst, hdst, hseen⟩ := h
  exact ⟨dst, mem_pongs.mp (hle i (mem_pongs.mpr hdst)), hseen⟩

variable [DecidableEq ι]

/-- The clients, and the network between them. -/
def machine (N : Peers ι) : Machine (ι → Node) (Network.Act ι Addr Bytes Act) :=
  Network.machine (protocol N) N.toTopology

/-- Every client is one of `DirectPath`, with what holds there. -/
theorem inv_of_reach (hr : (machine N).Reach w) (i : ι) : DirectPath.Inv (w i) :=
  Network.nodes (I := fun _ n => DirectPath.Inv n) hr (fun _ => inv_start)
    (fun h hs => h.step (step_of_localStep hs).1)
    (fun addr d h => h.step (a := .datagram addr d) rfl) i

/-- A client answers the pings that it has heard. -/
theorem heard_of_pongs (hr : (machine N).Reach w) (j : ι) :
    ∀ addr ∈ (w j).pongs, ∃ v, { pong := false, vIp := v, addr } ∈ (w j).heard := by
  refine Network.nodes
    (I := fun _ n => ∀ addr ∈ n.pongs, ∃ v, { pong := false, vIp := v, addr } ∈ n.heard)
    hr ?_ ?_ ?_ j
  · intro i addr haddr
    cases haddr
  · intro i n n' a h hs
    obtain ⟨hpongs, hheard⟩ := log_of_localStep hs
    rw [hpongs, hheard]
    exact h
  · intro i n src d h addr haddr
    have haddr : addr ∈ (datagram n src d).pongs := haddr
    show ∃ v, _ ∈ (datagram n src d).heard
    unfold datagram at haddr ⊢
    split at haddr
    · exact h addr haddr
    · next pong v hprobe =>
      have hold : addr ∈ n.pongs → ∃ v', { pong := false, vIp := v', addr } ∈
          n.heard ++ [{ pong, vIp := v, addr := src }] := by
        intro haddr
        obtain ⟨v', hv'⟩ := h addr haddr
        exact ⟨v', List.mem_append_left _ hv'⟩
      cases pong with
      | true => exact hold haddr
      | false =>
        obtain haddr | hnew := List.mem_append.mp haddr
        · exact hold haddr
        · obtain rfl := List.mem_singleton.mp hnew
          exact ⟨v, List.mem_append_right _ (List.mem_singleton_self _)⟩

/-- **A pong answers a ping**: whoever is behind the address it goes to has sent one. -/
theorem pong_answers (hr : (machine N).Reach w) :
    ∀ i, ∀ addr ∈ (w i).pongs, ∃ k, N.owner addr = some k ∧ Pinged N w k i := by
  refine Network.records (protocol_monotone N) Node.pongs
    (R := fun w i addr => ∃ k, N.owner addr = some k ∧ Pinged N w k i) (fun _ => rfl) ?_ ?_ ?_ hr
  · rintro w w' i addr hle ⟨k, howner, hpinged⟩
    exact ⟨k, howner, hpinged.mono hle⟩
  · intro i n n' a hs
    rw [(log_of_localStep hs).1]
    exact List.Subset.refl _
  · intro w k i dst d _ hsent howner addr haddr
    have haddr : addr ∈ (datagram (w i) (N.seen k dst) d).pongs := haddr
    unfold datagram at haddr
    split at haddr
    · exact .inl haddr
    · next pong src hprobe =>
      obtain ⟨-, hdst⟩ := probe_of_sentBy hsent hprobe
      cases pong with
      | true => exact .inl haddr
      | false =>
        -- the address is the one that the ping of `k` shows
        obtain hold | hnew := List.mem_append.mp haddr
        · exact .inl hold
        · obtain rfl := List.mem_singleton.mp hnew
          exact .inr ⟨k, N.owner_seen k dst, dst, hdst, howner⟩

/-- What a ping or a pong says about the network when node `j` has heard it. -/
def Origin (N : Peers ι) (w : ι → Node) (j : ι) (h : Heard) : Prop :=
  ∃ i, N.vip i = h.vIp ∧ N.owner h.addr = some i ∧
    (h.pong = true → Pinged N w j i ∧ Answered N w i j h.addr)

/-- **Whatever is heard comes from the client whose address it gives**, and a pong from one
that has got a ping. -/
theorem heard_origin (hr : (machine N).Reach w) : ∀ j, ∀ h ∈ (w j).heard, Origin N w j h := by
  refine Network.records (protocol_monotone N) Node.heard (R := Origin N) (fun _ => rfl) ?_ ?_ ?_ hr
  · rintro w w' j h hle ⟨i, hvip, howner, hpong⟩
    refine ⟨i, hvip, howner, fun hp => ?_⟩
    exact ⟨(hpong hp).1.mono hle, (hpong hp).2.mono hle⟩
  · intro j n n' a hs
    rw [(log_of_localStep hs).2]
    exact List.Subset.refl _
  · intro w i j dst d hr hsent howner h hh
    have hh : h ∈ (datagram (w j) (N.seen i dst) d).heard := hh
    unfold datagram at hh
    split at hh
    · exact .inl hh
    · next pong src hprobe =>
      obtain ⟨rfl, hdst⟩ := probe_of_sentBy hsent hprobe
      obtain hold | hnew := List.mem_append.mp hh
      · exact .inl hold
      · obtain rfl := List.mem_singleton.mp hnew
        refine .inr ⟨i, rfl, N.owner_seen i dst, ?_⟩
        rintro rfl
        obtain ⟨k, hk, hpinged⟩ := pong_answers hr i dst hdst
        -- the pong went to the address of the client that it arrives at
        obtain rfl : k = j := Option.some.inj (hk.symm.trans howner)
        exact ⟨hpinged, dst, hdst, howner, rfl⟩

/-- **A pong that was heard completes a round trip.** -/
theorem roundTrip_of_pong (hr : (machine N).Reach w) {i : ι} {v : ByteArr 4} {addr : Addr}
    (hpong : { pong := true, vIp := v, addr } ∈ (w i).heard) :
    ∃ j dst, N.vip j = v ∧ RoundTrip N w i j dst := by
  obtain ⟨j, hvip, -, horigin⟩ := heard_origin hr i _ hpong
  obtain ⟨hpinged, dst, hdst, howner, hseen⟩ := horigin rfl
  -- the ping that the pong answers was heard in the name of the owner of `dst`
  obtain ⟨v', hping⟩ := heard_of_pongs hr j dst hdst
  obtain ⟨k, hvip', howner', -⟩ := heard_origin hr j _ hping
  obtain rfl : k = i := Option.some.inj (howner'.symm.trans howner)
  refine ⟨j, dst, hvip, hpinged, ?_, ⟨hdst, howner⟩, ?_⟩
  · exact hvip' ▸ hping
  · have hseen : addr = N.seen j dst := hseen
    rw [hvip, ← hseen]
    exact hpong

/-! ## Direct paths -/

/-- **What a client sends directly goes to the client it is for**, in every run of the
network: the address it is sent to is one of a client with the destination's virtual
address, whatever the server has said about addresses. -/
theorem direct_reaches_peer (hr : (machine N).Reach w) (i : ι) {m : Sent} (hm : m ∈ (w i).sent)
    {addr : Addr} (htarget : m.target = .direct addr) :
    ∃ j, N.vip j = m.dstIp ∧ N.owner addr = some j := by
  obtain ⟨⟨pong, hheard⟩, -⟩ := (inv_of_reach hr i).sent m hm addr htarget
  obtain ⟨j, hvip, howner, -⟩ := heard_origin hr i _ hheard
  exact ⟨j, hvip, howner⟩

/-- **An established route works in both directions**, in every run of the network: its
address belongs to the client that it is a route to, a ping was received there, and its pong was
received here. -/
theorem established_both_ways (hr : (machine N).Reach w) (i : ι) {v : ByteArr 4} {status : Id}
    {st : P2PStatus Addr} (hlook : (w i).routes.p2pRouter.lookup v = some status)
    (hst : (w i).routes.objects[status]? = some st) (hest : st.established = true) :
    ∃ j dst, N.vip j = v ∧ N.owner st.dstAddr = some j ∧ RoundTrip N w i j dst := by
  have hinv := inv_of_reach hr i
  obtain ⟨v', st', hv', hst', ⟨pong, hat⟩, addr, hponged⟩ := hinv.settled status st hst hest
  obtain rfl : v' = v := Option.some.inj (hv'.symm.trans (hinv.router v status hlook))
  obtain rfl : st' = st := Option.some.inj (hst'.symm.trans hst)
  obtain ⟨j, hvip, howner, -⟩ := heard_origin hr i _ hat
  obtain ⟨k, dst, hvip', htrip⟩ := roundTrip_of_pong hr hponged
  obtain rfl : k = j := N.vip_injective (hvip'.trans hvip.symm)
  exact ⟨k, dst, hvip, howner, htrip⟩

section TwoClients

/-- Two clients behind NATs that give each of them one address. -/
def casePeers : Peers Bool where
  seen i _ := cond i caseAddr caseAddr'
  owner addr := if addr = caseAddr then some true else if addr = caseAddr' then some false else none
  owner_seen i _ := by cases i <;> rfl
  vip i := cond i (sampleIp 3) (sampleIp 4)
  vip_injective := by
    unfold Function.Injective
    decide

/-- The server announces the one client to the other, which punches a hole, gets a pong, and
sends a packet. -/
def caseRun : List (Network.Act Bool Addr Bytes Act) :=
  [.act false (.routes (.addP2P (sampleIp 3) caseAddr typeCone)), .act false (.routes .tick),
    .act false (.routes (.visit (sampleIp 3))), .act false (.routes (.body true)),
    .act false (.routes (.body true)), .act false (.routes (.body true)),
    .deliver false true caseAddr (pingData (sampleIp 4)),
    .deliver true false caseAddr' (pongBytes (sampleIp 3)), .act false (.routes (.work 0 true)),
    .act false (.routes (.work 0 true)), .act false (.routes (.work 0 true)),
    .act false (.routes (.work 0 true)), .act false (.batch 0 [caseOutgoing]),
    .act false (.next 0), .act false (.load 0), .act false (.write 0)]

theorem direct_reaches_peer_two :
    ∃ w, (machine casePeers).Reach w ∧ ∃ m ∈ (w false).sent, m.target = .direct caseAddr ∧
      ∃ j, casePeers.vip j = m.dstIp ∧ casePeers.owner caseAddr = some j := by
  obtain ⟨w, hr, m, hm, htarget⟩ : ∃ w, (machine casePeers).Reach w ∧
      ∃ m ∈ (w false).sent, m.target = .direct caseAddr :=
    Machine.exists_reach caseRun (by decide +kernel)
  exact ⟨w, hr, m, hm, htarget, direct_reaches_peer hr false hm htarget⟩

theorem established_both_ways_two :
    ∃ w, (machine casePeers).Reach w ∧
      ∃ st, (w false).routes.p2pRouter.lookup (sampleIp 3) = some 0 ∧
      (w false).routes.objects[0]? = some st ∧ st.established = true ∧
      ∃ j dst, casePeers.vip j = sampleIp 3 ∧ casePeers.owner st.dstAddr = some j ∧
        RoundTrip casePeers w false j dst := by
  obtain ⟨w, hr, hlook, hany⟩ : ∃ w, (machine casePeers).Reach w ∧
      (w false).routes.p2pRouter.lookup (sampleIp 3) = some 0 ∧
      (w false).routes.objects[0]?.any (·.established) = true :=
    Machine.exists_reach caseRun (by decide +kernel)
  obtain ⟨st, hst, hest⟩ := Option.any_eq_true _ _ |>.mp hany
  exact ⟨w, hr, st, hlook, hst, hest, established_both_ways hr false hlook hst hest⟩

end TwoClients

end EasyTun.Transport.HolePunching
