import Mathlib.Tactic.Common
import EasyTun.Lib.ChaCha20Poly1305
import EasyTun.Transport.Commands
import EasyTun.Transport.ControlRecv
import EasyTun.Transport.Enrollment

/-!
# What the server tells a client

Five places of the server put messages into the `controlChan` of a connection: the ping handler,
`handleHandshake`, `handleNoiseHandshake`, `handleP2PCommand` and `listenCheck`. Some of them
have looked the connection up in a snapshot of the routing table that is older than the message,
and the addresses they send come from datagrams that other goroutines have received.

An observer beside the server remembers who was heard from where, what was written to each
connection, and the handshake that each connection has sent.

- `Mail`: the messages there are. `mail_only`: **nothing else is written to a connection**.
- `enrolled_address`: `handshake` of the client does not look at the type of the message that it
  reads first. **Its destination is the address that the server has given to the connection,
  whatever message it is**, and the server has the fields that the client has sent.
- `reply_late`: it need not be the reply, since the connection is in the routing table before
  the reply is sent.
- `punches_where_heard`: **a command makes the client punch at an address from which the server
  has heard the peer**, for the NAT type that the peer has sent.
-/

namespace EasyTun.Transport

open EasyTun.Lib EasyTun.Util EasyTun.Protocol EasyTun.Stun

/-! ## Messages -/

/-- Virtual addresses and where datagrams came from that had them as their source. -/
abbrev Sightings := List (ByteArr 4 × Endpoint)

/-- The client with the address `v` was heard there, or not at all. -/
def HeardAt (heard : Sightings) (v : ByteArr 4) (addr : AddrPort) : Prop :=
  addr = .zero ∨ ∃ e, (v, e) ∈ heard ∧ addr = e.addrPort

/-- **The messages the server writes to a connection.** -/
inductive Mail (h : Hub) (heard : Sightings) (c : ConnId) : GamePacket → Prop where
  | pong : Mail h heard c (newGamePacket (.zero 4) (.zero 4) typePong none)
  | reply {v : ByteArr 4} (hv : (h.client c).virtualIp = some v) :
      Mail h heard c
        (newGamePacket (.zero 4) v typeHandshake (some (h.client c).hostname))
  | response {v w : ByteArr 4} {c' : ConnId} {payload : Bytes}
      (hv : (h.client c).virtualIp = some v) (hw : (h.client c').virtualIp = some w) :
      Mail h heard c (newGamePacket w v typeNoiseResponse
        (some ((h.client c').noisePublicKey.1 ++ payload)))
  | check {v w : ByteArr 4} (hv : (h.client c).virtualIp = some v) :
      Mail h heard c (newGamePacket w v typeP2PCheck none)
  | command {v w : ByteArr 4} {c' : ConnId} {e : Endpoint} {payload : Bytes}
      (hv : (h.client c).virtualIp = some v) (hw : (h.client c').virtualIp = some w)
      (he : (w, e) ∈ heard)
      (hpayload : udpAddrPortToBytes e.addrPort (h.client c').natType = some payload) :
      Mail h heard c (newGamePacket w v typeP2PCommand (some payload))

section Mono

variable {h h' : Hub} {heard heard' : Sightings}

theorem HeardAt.mono {v : ByteArr 4} {addr : AddrPort} (hA : HeardAt heard v addr)
    (hsub : heard ⊆ heard') : HeardAt heard' v addr := by
  refine hA.imp_right ?_
  rintro ⟨e, he, haddr⟩
  exact ⟨e, hsub he, haddr⟩

/-- Mail stays what it was: the clients it is about do not change. -/
theorem Mail.mono {c : ConnId} {gp : GamePacket} (hm : Mail h heard c gp)
    (hsettles : Hub.Settles h h') (hsub : heard ⊆ heard') : Mail h' heard' c gp := by
  cases hm with
  | pong => exact .pong
  | @reply v hv =>
    have hclient := hsettles c v hv
    rw [← hclient] at hv ⊢
    exact .reply hv
  | @response v w c' payload hv hw =>
    have hclient := hsettles c' w hw
    rw [← hclient] at hw ⊢
    exact .response (hsettles c v hv ▸ hv) hw
  | @check v w hv => exact .check (hsettles c v hv ▸ hv)
  | @command v w c' e payload hv hw he hpayload =>
    have hclient := hsettles c' w hw
    rw [← hclient] at hw hpayload
    exact .command (hsettles c v hv ▸ hv) hw (hsub he) hpayload

end Mono

namespace Mail

variable {h : Hub} {heard : Sightings} {c : ConnId} {gp : GamePacket}

/-- Only pongs are not for the address of the connection. -/
theorem dst_eq (hm : Mail h heard c gp) (hpong : gp.pType ≠ typePong) :
    (h.client c).virtualIp = some gp.dst := by
  cases hm with
  | pong => exact absurd rfl hpong
  | reply hv | response hv _ | check hv | command hv _ _ _ => exact hv

theorem not_compressed (hm : Mail h heard c gp) : compressed gp.pType = false := by
  cases hm <;> exact compressed_clearCompress _

end Mail

/-! ## What the goroutines hold -/

/-- The worker has a packet whose source was heard, and a table of connections. -/
def Transfer.Posted (h : Hub) (heard : Sightings) : Transfer → Prop
  | .taken p => (p.src, p.srcAddr) ∈ heard
  | .loaded p clientMap => (p.src, p.srcAddr) ∈ heard ∧ h.Names clientMap
  | .idle | .found _ _ _ | .relaying _ _ => True

/-- `handleP2PTask` has found the clients of its task, and where they were heard. -/
def P2P.Posted (h : Hub) (heard : Sightings) : P2P → Prop
  | .idle | .taken _ => True
  | .loaded _ clientMap | .looked _ clientMap _ => h.Names clientMap
  | .found task src dst =>
    (h.client src).virtualIp = some task.srcVip ∧ (h.client dst).virtualIp = some task.dstVip
  | .loadedSrc task src dst srcAddr =>
    (h.client src).virtualIp = some task.srcVip ∧
      (h.client dst).virtualIp = some task.dstVip ∧ HeardAt heard task.srcVip srcAddr
  | .commanding cmd _ =>
    (h.client cmd.src).virtualIp = some cmd.task.srcVip ∧
      (h.client cmd.dst).virtualIp = some cmd.task.dstVip ∧
      HeardAt heard cmd.task.srcVip cmd.srcAddr ∧ HeardAt heard cmd.task.dstVip cmd.dstAddr

def Check.Posted (heard : Sightings) : Check → Prop
  | .idle => True
  | .seen e src _ => (src, e) ∈ heard

/-- **The data plane speaks of clients as it has heard of them.** -/
structure Plane.Posted (h : Hub) (heard : Sightings) (s : Plane) : Prop where
  dataAddr : ∀ c, s.dataAddr c = .zero ∨
    ∃ v, (h.client c).virtualIp = some v ∧ HeardAt heard v (s.dataAddr c)
  controlChan : ∀ c, ∀ gp ∈ s.controlChan c, Mail h heard c gp
  transferChan : ∀ p ∈ s.transferChan, (p.src, p.srcAddr) ∈ heard
  transfer : ∀ w, (s.transfer w).Posted h heard
  p2p : s.p2p.Posted h heard
  check : s.check.Posted heard

section Mono

variable {h h' : Hub} {heard heard' : Sightings}

theorem Transfer.Posted.mono {t : Transfer} (ht : t.Posted h heard)
    (hsettles : Hub.Settles h h') (hsub : heard ⊆ heard') : t.Posted h' heard' := by
  cases t with
  | taken p => exact hsub ht
  | loaded p clientMap => exact ⟨hsub ht.1, ht.2.mono hsettles⟩
  | idle | found _ _ _ | relaying _ _ => trivial

theorem P2P.Posted.mono {p : P2P} (hp : p.Posted h heard)
    (hsettles : Hub.Settles h h') (hsub : heard ⊆ heard') : p.Posted h' heard' := by
  have hkeep : ∀ {c v}, (h.client c).virtualIp = some v → (h'.client c).virtualIp = some v :=
    fun {c v} hv => hsettles c v hv ▸ hv
  cases p with
  | idle | taken _ => trivial
  | loaded _ _ | looked _ _ _ => exact Hub.Names.mono hp hsettles
  | found _ _ _ => exact ⟨hkeep hp.1, hkeep hp.2⟩
  | loadedSrc _ _ _ _ => exact ⟨hkeep hp.1, hkeep hp.2.1, hp.2.2.mono hsub⟩
  | commanding _ _ =>
    exact ⟨hkeep hp.1, hkeep hp.2.1, hp.2.2.1.mono hsub, hp.2.2.2.mono hsub⟩

theorem Check.Posted.mono {k : Check} (hk : k.Posted heard) (hsub : heard ⊆ heard') :
    k.Posted heard' := by
  cases k with
  | idle => trivial
  | seen _ _ _ => exact hsub hk

theorem Plane.Posted.mono {s : Plane} (hs : s.Posted h heard) (hsettles : Hub.Settles h h')
    (hsub : heard ⊆ heard') : s.Posted h' heard' where
  dataAddr c := by
    refine (hs.dataAddr c).imp_right ?_
    rintro ⟨v, hv, hA⟩
    exact ⟨v, hsettles c v hv ▸ hv, hA.mono hsub⟩
  controlChan c gp hgp := (hs.controlChan c gp hgp).mono hsettles hsub
  transferChan p hp := hsub (hs.transferChan p hp)
  transfer w := (hs.transfer w).mono hsettles hsub
  p2p := hs.p2p.mono hsettles hsub
  check := hs.check.mono hsub

end Mono

/-! ## The steps of the data plane -/

namespace Plane.Posted

variable {h : Hub} {heard : Sightings} {s s' : Plane} {c : ConnId}

theorem new : Plane.new.Posted h heard where
  dataAddr _ := Or.inl rfl
  controlChan _ _ hgp := by cases hgp
  transferChan _ hp := by cases hp
  transfer _ := trivial
  p2p := trivial
  check := trivial

/-- A step that touches none of this. -/
theorem congr (hs : s.Posted h heard) (hdata : s'.dataAddr = s.dataAddr)
    (hchan : s'.controlChan = s.controlChan) (hqueue : s'.transferChan = s.transferChan)
    (htransfer : s'.transfer = s.transfer) (hp2p : s'.p2p = s.p2p)
    (hcheck : s'.check = s.check) : s'.Posted h heard where
  dataAddr := by
    rw [hdata]
    exact hs.dataAddr
  controlChan := by
    rw [hchan]
    exact hs.controlChan
  transferChan := by
    rw [hqueue]
    exact hs.transferChan
  transfer := by
    rw [htransfer]
    exact hs.transfer
  p2p := by
    rw [hp2p]
    exact hs.p2p
  check := by
    rw [hcheck]
    exact hs.check

theorem setTransfer (hs : s.Posted h heard) {w : Fin 2} {t : Transfer} (ht : t.Posted h heard) :
    (s.setTransfer w t).Posted h heard := by
  refine ⟨hs.dataAddr, hs.controlChan, hs.transferChan, fun w' => ?_, hs.p2p, hs.check⟩
  show (Function.update s.transfer w t w').Posted h heard
  by_cases hw : w' = w
  · subst hw
    rw [Function.update_self]
    exact ht
  · rw [Function.update_of_ne hw]
    exact hs.transfer w'

theorem setP2P (hs : s.Posted h heard) {p : P2P} (hp : p.Posted h heard) :
    { s with p2p := p }.Posted h heard :=
  ⟨hs.dataAddr, hs.controlChan, hs.transferChan, hs.transfer, hp, hs.check⟩

theorem trySendControl (hs : s.Posted h heard) {gp : GamePacket} (hm : Mail h heard c gp) :
    (s.trySendControl c gp).Posted h heard := by
  unfold Plane.trySendControl
  split
  · refine ⟨hs.dataAddr, fun c' gp' hgp' => ?_, hs.transferChan, hs.transfer, hs.p2p, hs.check⟩
    simp only at hgp'
    by_cases hc : c' = c
    · subst hc
      rw [Function.update_self, List.mem_append, List.mem_singleton] at hgp'
      rcases hgp' with hold | rfl
      · exact hs.controlChan _ gp' hold
      · exact hm
    · rw [Function.update_of_ne hc] at hgp'
      exact hs.controlChan c' gp' hgp'
  · exact hs

theorem updateAddrCheck (hs : s.Posted h heard) {v : ByteArr 4} {e : Endpoint}
    (hv : (h.client c).virtualIp = some v) (he : (v, e) ∈ heard) :
    (s.updateAddrCheck c e.addrPort).Posted h heard := by
  unfold Plane.updateAddrCheck
  split
  · exact hs
  · refine ⟨fun c' => ?_, hs.controlChan, hs.transferChan, hs.transfer, hs.p2p, hs.check⟩
    simp only
    by_cases hc : c' = c
    · subst hc
      rw [Function.update_self]
      exact Or.inr ⟨v, hv, Or.inr ⟨e, he, rfl⟩⟩
    · rw [Function.update_of_ne hc]
      exact hs.dataAddr c'

/-- What a client is reached by is where it was heard. -/
theorem heardAt (hs : s.Posted h heard) {v : ByteArr 4} (hv : (h.client c).virtualIp = some v) :
    HeardAt heard v (s.dataAddr c) := by
  rcases hs.dataAddr c with hzero | ⟨v', hv', hA⟩
  · exact Or.inl hzero
  · cases hv.symm.trans hv'
    exact hA

/-- A command names an address that was heard. With the zero address there is none. -/
theorem sendCommand (hs : s.Posted h heard) {v w : ByteArr 4} {c' : ConnId} {addr : AddrPort}
    (hv : (h.client c).virtualIp = some v) (hw : (h.client c').virtualIp = some w)
    (hA : HeardAt heard w addr) :
    (s.sendCommand c w v addr (h.client c').natType).Posted h heard := by
  have hcalls : { s with calls := s.calls ++ [addr] }.Posted h heard :=
    hs.congr rfl rfl rfl rfl rfl rfl
  unfold Plane.sendCommand
  cases hpayload : udpAddrPortToBytes addr (h.client c').natType with
  | none => exact hcalls.congr rfl rfl rfl rfl rfl rfl
  | some payload =>
    obtain rfl | ⟨e, he, rfl⟩ := hA
    · cases hpayload
    · exact hcalls.trySendControl (.command hv hw he hpayload)

theorem listenUdp (hs : s.Posted h heard) (hN : h.Names h.router.clientMap)
    (dnsReply : Hub → Header → Bytes → Option Bytes) {e : Endpoint} {d : Bytes}
    (he : ∀ hd, parseHeader d (parseMode d false) = .ok hd → (hd.src, e) ∈ heard) :
    (s.listenUdp dnsReply h e d).Posted h heard := by
  unfold Plane.listenUdp
  cases hparse : parseHeader d (parseMode d false) with
  | error err => exact hs
  | ok hd =>
    have he := he hd hparse
    simp only
    split
    · -- a ping tells where the client is
      cases hlook : h.router.clientMap.lookup hd.src with
      | none => exact hs
      | some c => exact hs.updateAddrCheck (hN _ _ hlook) he
    · split
      · split
        · split
          · exact hs.congr rfl rfl rfl rfl rfl rfl
          · exact hs
        · exact hs
      · split
        · split
          · refine ⟨hs.dataAddr, hs.controlChan, fun p hp => ?_, hs.transfer, hs.p2p, hs.check⟩
            rcases List.mem_append.mp hp with hp | hp
            · exact hs.transferChan p hp
            · rw [List.mem_singleton.mp hp]
              exact he
          · exact hs
        · exact hs

theorem listenCheck (hs : s.Posted h heard) {e : Endpoint} {d : Bytes}
    (he : ∀ hd, parseHeader d .plaintext = .ok hd → (hd.src, e) ∈ heard) :
    (s.listenCheck e d).Posted h heard := by
  unfold Plane.listenCheck
  cases hparse : parseHeader d .plaintext with
  | error err => exact hs
  | ok hd =>
    simp only
    split
    · exact ⟨hs.dataAddr, hs.controlChan, hs.transferChan, hs.transfer, hs.p2p, he hd hparse⟩
    · exact hs

theorem listenCheckNext (hs : s.Posted h heard) (hN : h.Names h.router.clientMap)
    {e : Endpoint} {src dst : ByteArr 4} (he : (src, e) ∈ heard) :
    (s.listenCheckNext h e src dst).Posted h heard := by
  have hidle : { s with check := .idle }.Posted h heard :=
    ⟨hs.dataAddr, hs.controlChan, hs.transferChan, hs.transfer, hs.p2p, trivial⟩
  unfold Plane.listenCheckNext
  simp only
  split
  · next srcClient dstClient hsrc hdst =>
    exact hidle.sendCommand (hN _ _ hdst) (hN _ _ hsrc) (Or.inr ⟨e, he, rfl⟩)
  · exact hidle

theorem relayNext (hs : s.Posted h heard) (w : Fin 2) (r : Relay) (next : Establish) :
    (s.relayNext h w r next).Posted h heard := by
  have hother : ∀ {s' : Plane}, s'.Posted h heard → ∀ next' : Establish,
      (s'.setTransfer w (.relaying r next')).Posted h heard :=
    fun hs' _ => hs'.setTransfer trivial
  cases next with
  | natTypes | exist | status t | retries t =>
    simp only [Plane.relayNext]
    split
    · exact hother hs _
    · exact hother hs _
  | add | reopen t =>
    refine hother ?_ _
    exact hs.congr rfl rfl rfl rfl rfl rfl
  | task =>
    refine hother ?_ _
    unfold Plane.newP2PTask
    split
    · exact hs.congr rfl rfl rfl rfl rfl rfl
    · exact hs
  | relay =>
    simp only [Plane.relayNext]
    split
    · refine Posted.setTransfer ?_ ?_
      · exact hs.congr rfl rfl rfl rfl rfl rfl
      · trivial
    · exact hs.setTransfer trivial

theorem transferNext (hs : s.Posted h heard) (hN : h.Names h.router.clientMap) {w : Fin 2}
    (ht : s.transferNext h w = some s') : s'.Posted h heard := by
  have hw := hs.transfer w
  unfold Plane.transferNext at ht
  split at ht
  · split at ht
    · cases ht
    · next p rest hchan =>
      cases ht
      have hp : ∀ q ∈ p :: rest, (q.src, q.srcAddr) ∈ heard := hchan ▸ hs.transferChan
      refine Posted.setTransfer ?_ (hp p (List.mem_cons_self ..))
      exact ⟨hs.dataAddr, hs.controlChan, fun q hq => hp q (List.mem_cons_of_mem _ hq),
        hs.transfer, hs.p2p, hs.check⟩
  · next p heq =>
    cases ht
    rw [heq] at hw
    exact hs.setTransfer ⟨hw, hN⟩
  · next p clientMap heq =>
    rw [heq] at hw
    split at ht
    · cases ht
      exact hs.setTransfer trivial
    · next src hsrc =>
      have hs := hs.updateAddrCheck (hw.2 _ _ hsrc) hw.1
      simp only at ht
      split at ht
      · split at ht
        · cases ht
          exact hs.setTransfer trivial
        · cases ht
          exact hs.setTransfer trivial
      · cases ht
        exact hs.setTransfer trivial
  · cases ht
    exact hs.setTransfer trivial
  · cases ht
    exact hs.relayNext ..

/-- Each test sends to the clients of the task what was loaded. -/
theorem commandNext (hs : s.Posted h heard) {cmd : Command} {test : Test}
    (hp : (P2P.commanding cmd test).Posted h heard) :
    (s.commandNext h cmd test).Posted h heard := by
  obtain ⟨hsrc, hdst, hsrcAddr, hdstAddr⟩ := hp
  cases test with
  | srcSymmetric =>
    simp only [Plane.commandNext]
    split
    · exact (hs.trySendControl (.check hsrc)).sendCommand hdst hsrc hsrcAddr
    · exact hs
  | dstSymmetric =>
    simp only [Plane.commandNext]
    split
    · exact (hs.trySendControl (.check hdst)).sendCommand hsrc hdst hdstAddr
    · exact hs
  | dstCone =>
    simp only [Plane.commandNext]
    split
    · exact hs.sendCommand hsrc hdst hdstAddr
    · exact hs
  | srcCone =>
    simp only [Plane.commandNext]
    split
    · exact hs.sendCommand hdst hsrc hsrcAddr
    · exact hs

theorem p2pNext (hs : s.Posted h heard) (hN : h.Names h.router.clientMap)
    (ht : s.p2pNext h = some s') : s'.Posted h heard := by
  have hp := hs.p2p
  unfold Plane.p2pNext at ht
  split at ht
  · split at ht
    · cases ht
    · cases ht
      exact ⟨hs.dataAddr, hs.controlChan, hs.transferChan, hs.transfer, trivial, hs.check⟩
  · cases ht
    exact hs.setP2P hN
  · next task clientMap heq =>
    cases ht
    rw [heq] at hp
    exact hs.setP2P hp
  · next task clientMap t heq =>
    rw [heq] at hp
    simp only at ht
    split at ht
    · next src dst hsrc hdst =>
      cases ht
      exact ⟨hs.dataAddr, hs.controlChan, hs.transferChan, hs.transfer,
        ⟨hp _ _ hsrc, hp _ _ hdst⟩, hs.check⟩
    · cases ht
      exact ⟨hs.dataAddr, hs.controlChan, hs.transferChan, hs.transfer, trivial, hs.check⟩
  · next task src dst heq =>
    cases ht
    rw [heq] at hp
    exact hs.setP2P ⟨hp.1, hp.2, hs.heardAt hp.1⟩
  · next task src dst srcAddr heq =>
    cases ht
    rw [heq] at hp
    exact hs.setP2P ⟨hp.1, hp.2.1, hp.2.2, hs.heardAt hp.2.1⟩
  · next cmd test heq =>
    cases ht
    rw [heq] at hp
    refine (hs.commandNext hp).setP2P ?_
    cases test with
    | srcSymmetric | dstSymmetric | dstCone => exact hp
    | srcCone => trivial

theorem wsMessage (hs : s.Posted h heard) (hN : h.Names h.router.clientMap) (c : ConnId)
    (d : Bytes) : (s.wsMessage h c d).Posted h heard := by
  have hws : ∀ {s' : Plane}, s'.Posted h heard → ∀ w, (s'.setWs c w).Posted h heard :=
    fun hs' _ => hs'.congr rfl rfl rfl rfl rfl rfl
  unfold Plane.wsMessage
  split
  · next hd vip hparse hvip =>
    split
    · split
      · next dst hdst => exact hws (hs.trySendControl (.response hvip (hN _ _ hdst))) _
      · exact hws hs _
    · split
      · split
        · exact hws hs _
        · exact hws hs _
      · split
        · split
          · exact hws hs _
          · exact hws hs _
        · exact hws hs _
  · exact hws hs _

theorem wsNext (hs : s.Posted h heard) (ht : s.wsNext c = some s') : s'.Posted h heard := by
  unfold Plane.wsNext at ht
  split at ht
  case h_4 =>
    split at ht
    · cases ht
      exact hs.congr rfl rfl rfl rfl rfl rfl
    · cases ht
      exact hs.congr rfl rfl rfl rfl rfl rfl
  all_goals first
    | cases ht
      exact hs.congr rfl rfl rfl rfl rfl rfl
    | cases ht

/-- The reply to a handshake has the address and the name that it has assigned. -/
theorem follow (hs : s.Posted h heard) {hello : ConnId → Option Bytes} (hE : h.Enrolling hello)
    {retentionTime : Int} {h' : Hub} {b : Hub.Act} (hstep : h.step retentionTime b = some h') :
    (s.follow h b).Posted h heard := by
  cases b with
  | finish c =>
    cases Hub.does_of_step hstep with
    | finish hpump =>
      obtain ⟨v, hv⟩ := Option.ne_none_iff_exists'.mp ((hE c).assigned (Or.inr hpump))
      have hmail : Mail h heard c (newGamePacket (.zero 4) (ipToKey (h.client c).virtualIp)
          typeHandshake (some (h.client c).hostname)) := by
        rw [show (h.client c).virtualIp = some v from hv, ipToKey_some]
        exact .reply hv
      exact hs.trySendControl hmail
  | removeClient c =>
    simp only [Plane.follow]
    split
    · exact hs.congr rfl rfl rfl rfl rfl rfl
    · exact hs
  | accept | cancel _ | quit _ | load _ _ | identify _ | assign _ | addClient _ | disconnect _
  | retain _ | tick _ | wake | lock | sweep _ | unlock => exact hs

end Plane.Posted

/-! ## The server and its observer -/

namespace Server

variable {retentionTime : Int} {dnsReply : Hub → Header → Bytes → Option Bytes} {s s' : Server}
  {a : Act}

/-- What the observer remembers. -/
structure Post where
  heard : Sightings
  written : ConnId → List GamePacket
  hello : ConnId → Option Bytes

/-- The source of a datagram that the server can parse. -/
def hear (o : Post) (e : Endpoint) : Except ErrorCode Header → Post
  | .ok hd => { o with heard := (hd.src, e) :: o.heard }
  | .error _ => o

/-- What the observer makes of a step from `s`. -/
def Post.note (o : Post) (s : Server) : Act → Post
  | .hub b => { o with hello := Hub.noteHello o.hello b }
  | .udp e d => hear o e (parseHeader d (parseMode d false))
  | .check e d => hear o e (parseHeader d .plaintext)
  | .writePump c =>
    match s.plane.controlChan c with
    | gp :: _ => { o with written := Function.update o.written c (o.written c ++ [gp]) }
    | [] => o
  | _ => o

variable (retentionTime dnsReply) in
/-- The server and the observer. -/
def posting : Machine (Server × Post) Act :=
  (machine retentionTime dnsReply).observe ⟨[], fun _ => [], fun _ => none⟩
    fun o s a _ => o.note s a

/-- A connection that has an address sends no further handshake. -/
def PostOk (p : Server × Post) : Act → Prop
  | .hub b => Hub.HelloOk p.1.hub b
  | _ => True

instance (p : Server × Post) : (a : Act) → Decidable (PostOk p a)
  | .hub b => inferInstanceAs (Decidable (Hub.HelloOk p.1.hub b))
  | .removeA | .udp _ _ | .check _ _ | .checkNext | .transfer _ | .p2p | .ws _ _ | .wsNext _
  | .wsDone _ | .ping _ | .writePump _ | .writeUdp => inferInstanceAs (Decidable True)

/-- **The invariant.** -/
structure Posted (s : Server) (o : Post) : Prop where
  enrolling : s.hub.Enrolling o.hello
  fresh : s.hub.Fresh
  names : s.hub.Names s.hub.router.clientMap
  plane : s.plane.Posted s.hub o.heard
  written : ∀ c, ∀ gp ∈ o.written c, Mail s.hub o.heard c gp

theorem heard_hear {o : Post} {e : Endpoint} (r : Except ErrorCode Header) :
    o.heard ⊆ (hear o e r).heard ∧ (hear o e r).written = o.written ∧
      (hear o e r).hello = o.hello ∧ ∀ hd, r = .ok hd → (hd.src, e) ∈ (hear o e r).heard := by
  cases r with
  | ok hd =>
    refine ⟨List.subset_cons_self _ _, rfl, rfl, ?_⟩
    intro hd' heq
    cases heq
    exact List.mem_cons_self
  | error err =>
    refine ⟨List.Subset.refl _, rfl, rfl, ?_⟩
    intro hd' heq
    cases heq

namespace Posted

variable {o : Post}

/-- A step of the data plane that the observer does not see. -/
theorem ofPlane (hP : s.Posted o) {p : Plane} (hp : p.Posted s.hub o.heard) :
    Posted { s with plane := p } o :=
  ⟨hP.enrolling, hP.fresh, hP.names, hp, hP.written⟩

/-- A datagram arrives. -/
theorem hears (hP : s.Posted o) (e : Endpoint) (r : Except ErrorCode Header) {p : Plane}
    (hp : s.plane.Posted s.hub (hear o e r).heard →
      (∀ hd, r = .ok hd → (hd.src, e) ∈ (hear o e r).heard) →
      p.Posted s.hub (hear o e r).heard) :
    Posted { s with plane := p } (hear o e r) := by
  obtain ⟨hsub, hwritten, hhello, hmem⟩ := heard_hear (o := o) (e := e) r
  have hsame : Hub.Settles s.hub s.hub := fun _ _ _ => rfl
  refine ⟨?_, hP.fresh, hP.names, hp (hP.plane.mono hsame hsub) hmem, ?_⟩
  · rw [hhello]
    exact hP.enrolling
  · rw [hwritten]
    exact fun c gp hgp => (hP.written c gp hgp).mono hsame hsub

/-- A message is written. -/
theorem writes (hP : s.Posted o) {c : ConnId} {gp : GamePacket} {rest : List GamePacket}
    (hchan : s.plane.controlChan c = gp :: rest) :
    Posted { s with plane :=
        { s.plane with controlChan := Function.update s.plane.controlChan c rest } }
      { o with written := Function.update o.written c (o.written c ++ [gp]) } := by
  have hmail : ∀ gp' ∈ gp :: rest, Mail s.hub o.heard c gp' := hchan ▸ hP.plane.controlChan c
  refine ⟨hP.enrolling, hP.fresh, hP.names, ⟨hP.plane.dataAddr, fun c' gp' hgp' => ?_,
    hP.plane.transferChan, hP.plane.transfer, hP.plane.p2p, hP.plane.check⟩, fun c' gp' hgp' => ?_⟩
  · simp only at hgp'
    by_cases hc : c' = c
    · subst hc
      rw [Function.update_self] at hgp'
      exact hmail gp' (List.mem_cons_of_mem _ hgp')
    · rw [Function.update_of_ne hc] at hgp'
      exact hP.plane.controlChan c' gp' hgp'
  · simp only at hgp'
    by_cases hc : c' = c
    · subst hc
      rw [Function.update_self, List.mem_append, List.mem_singleton] at hgp'
      rcases hgp' with hold | rfl
      · exact hP.written _ gp' hold
      · exact hmail gp' List.mem_cons_self
    · rw [Function.update_of_ne hc] at hgp'
      exact hP.written c' gp' hgp'

theorem planeStep (hP : s.Posted o) {p : Plane}
    (hp : Server.planeStep dnsReply s.hub s.plane a = some p) :
    Posted { s with plane := p } (o.note s a) := by
  have hN := hP.names
  cases a with
  | removeA =>
    simp only [Server.planeStep] at hp
    split at hp
    · cases hp
      exact hP.ofPlane (hP.plane.congr rfl rfl rfl rfl rfl rfl)
    · cases hp
  | udp e d =>
    cases hp
    exact hP.hears e _ fun hplane hmem => hplane.listenUdp hN dnsReply hmem
  | check e d =>
    simp only [Server.planeStep] at hp
    split at hp
    · cases hp
      exact hP.hears e _ fun hplane hmem => hplane.listenCheck hmem
    · cases hp
  | checkNext =>
    simp only [Server.planeStep] at hp
    have hcheck := hP.plane.check
    split at hp
    · cases hp
    · next heq =>
      cases hp
      rw [heq] at hcheck
      exact hP.ofPlane (hP.plane.listenCheckNext hN hcheck)
  | transfer w => exact hP.ofPlane (hP.plane.transferNext hN hp)
  | p2p => exact hP.ofPlane (hP.plane.p2pNext hN hp)
  | ws c d =>
    obtain ⟨-, rfl⟩ := guardTo_eq_some.mp hp
    exact hP.ofPlane (hP.plane.wsMessage hN c d)
  | wsNext c => exact hP.ofPlane (hP.plane.wsNext hp)
  | ping c =>
    obtain ⟨-, rfl⟩ := guardTo_eq_some.mp hp
    exact hP.ofPlane (hP.plane.trySendControl .pong)
  | writePump c =>
    simp only [Server.planeStep] at hp
    split at hp
    · cases hp
    · next gp rest hchan =>
      cases hp
      simp only [Post.note, hchan]
      exact hP.writes hchan
  | writeUdp =>
    simp only [Server.planeStep] at hp
    split at hp
    · cases hp
    · cases hp
      exact hP.ofPlane (hP.plane.congr rfl rfl rfl rfl rfl rfl)
  | hub b | wsDone c => cases hp

/-- A step of the control plane: the clients that were spoken of stay as they are. -/
theorem hubStep (hP : s.Posted o) {b : Hub.Act} {h' : Hub} (hok : Hub.HelloOk s.hub b)
    (hstep : s.hub.step retentionTime b = some h') {p : Plane}
    (hp : p.Posted s.hub o.heard) :
    Posted { hub := h', plane := p } { o with hello := Hub.noteHello o.hello b } := by
  have hsettles := Hub.client_of_step hP.enrolling hP.fresh hstep
  have hsub : o.heard ⊆ o.heard := List.Subset.refl _
  exact ⟨Hub.enrolling_step hP.enrolling hok hstep, Hub.fresh_step hP.fresh hstep,
    Hub.names_step hP.enrolling hP.fresh hP.names hstep, hp.mono hsettles hsub,
    fun c gp hgp => (hP.written c gp hgp).mono hsettles hsub⟩

theorem step (hP : s.Posted o) (hok : PostOk (s, o) a)
    (hs : Server.step retentionTime dnsReply s a = some s') : s'.Posted (o.note s a) := by
  cases (does_of_step hs).2 with
  | hub hstep => exact hP.hubStep hok hstep (hP.plane.follow hP.enrolling hstep)
  | @quit c h' hstep =>
    have hplane : (s.plane.setWs c .idle).Posted s.hub o.heard :=
      hP.plane.congr rfl rfl rfl rfl rfl rfl
    exact hP.hubStep (b := .quit c) trivial hstep hplane
  | back => exact hP.ofPlane (hP.plane.congr rfl rfl rfl rfl rfl rfl)
  | plane hp => exact hP.planeStep hp

end Posted

theorem posted_of_reach {p : Server × Post}
    (hr : (posting retentionTime dnsReply).ReachVia PostOk p) : p.1.Posted p.2 := by
  refine hr.invariant (P := fun p => p.1.Posted p.2) ?_ ?_
  · refine ⟨Hub.enrolling_newHub, fun _ _ => rfl, ?_, .new, ?_⟩
    · intro v c hc
      cases hc
    · intro c gp hgp
      cases hgp
  · intro p q a _ hP hok hs
    obtain ⟨hstep, hnote⟩ := Machine.step_of_observe hs
    rw [hnote]
    exact hP.step hok hstep

/-! ## What the client makes of it -/

/-- `handshake` with the first message it reads (client_control.go:56–64), and what
`ListenAndServe` takes from it (client.go:171, 180): an address and a host name. The client
parses into the packet that it has sent, and does not look at the type. -/
def takeHandshake {K : Type} (A : Aead K) (g : GamePacket) (pool : Pool) (content : Bytes) :
    Option (ByteArr 4 × Bytes) :=
  match g.parsePacket A pool content true (none : Option (CipherState K)) with
  | (none, gp, _) => some (gp.dst, gp.data)
  | (some _, _, _) => none

section Client

variable {K : Type} {A : Aead K} {L : Lz4} {pool : Pool} {gp : GamePacket} {wire : Bytes}
  {p : Server × Post} {c : ConnId}

/-- What `writePump` writes of a packet (server_ws.go:58–59). -/
theorem wire_of_encode
    (hwire : (gp.encodePacket A L pool true false (none : Option (CipherState K))).1.wire =
      some wire) :
    wire = GamePacket.clearWire gp.src gp.dst gp.pType gp.data ∧
      gp.data.length ≤ maxPayloadSize := by
  have hmax := GamePacket.le_maxPayloadSize_of_wire hwire
  rw [GamePacket.encodePacket_plain, GamePacket.encode_clear A gp true hmax] at hwire
  exact ⟨(Option.some.inj hwire).symm, hmax⟩

/-- **The server writes nothing to a connection but its own mail**: replies, keys of clients,
checks and commands for the address of the connection. -/
theorem mail_only (hr : (posting retentionTime dnsReply).ReachVia PostOk p)
    (hgp : gp ∈ p.2.written c) : Mail p.1.hub p.2.heard c gp :=
  (posted_of_reach hr).written c gp hgp

/-- **A client takes the address that the server has given to it**, whichever message it reads
first, and the server has the fields of its handshake. The host name is right if the message is
the reply. -/
theorem enrolled_address (hr : (posting retentionTime dnsReply).ReachVia PostOk p)
    (hgp : gp ∈ p.2.written c) (hpong : gp.pType ≠ typePong)
    (hwire : (gp.encodePacket A L pool true false (none : Option (CipherState K))).1.wire =
      some wire) (g : GamePacket) (pool' : Pool) :
    ∃ v payload, (p.1.hub.client c).virtualIp = some v ∧
      takeHandshake A g pool' wire = some (v, gp.data) ∧
      (gp.pType = typeHandshake → gp.data = (p.1.hub.client c).hostname) ∧
      p.2.hello c = some payload ∧ (p.1.hub.client c).Presents payload := by
  have hP := posted_of_reach hr
  have hmail := hP.written c gp hgp
  have hv := hmail.dst_eq hpong
  obtain ⟨rfl, hmax⟩ := wire_of_encode hwire
  obtain ⟨raw, pool'', hparse⟩ := GamePacket.parsePacket_clear A g pool' gp.src gp.dst gp.pType
    hmail.not_compressed hmax
  obtain ⟨payload, hhello, hpresents⟩ :=
    (hP.enrolling c).presents (Option.ne_none_iff_exists'.mpr ⟨gp.dst, hv⟩)
  refine ⟨gp.dst, payload, hv, ?_, ?_, hhello, hpresents⟩
  · unfold takeHandshake
    rw [hparse]
    rfl
  · intro htype
    cases hmail with
    | reply _ => rfl
    | pong | response _ _ | check _ | command _ _ _ _ => cases htype

/-- What a command with an IPv4 address does to the routes of a client. -/
theorem status_of_command {D : Type} (N : NoiseIK.Ops D) (eph : Nat) (now : Int)
    {s : ControlRecv.Client} {frame : Bytes} {ip : ByteArr 4} {port : UInt16} {natType : UInt8}
    (hacc : ControlRecv.accept frame = some gp) (hcommand : gp.pType = typeP2PCommand)
    (hdata : gp.data = ip.1 ++ toBE 2 port.toNat ++ [natType])
    (hfits : frame.length ≤ s.buf.length) :
    ∃ status, (ControlRecv.handle N s frame eph now).p2pRouter.lookup gp.src = some status ∧
      ControlRecv.getDstAddr (ControlRecv.handle N s frame eph now) status =
        (ip.1, port.toNat) ∧ status.dstNatType = natType := by
  obtain ⟨hlen, hdrop⟩ := ControlRecv.data_of_accept hacc
  have hseven : gp.data.length = 7 := by
    rw [hdata, List.length_append, List.length_append, ip.2, length_toBE]
    rfl
  have hpart : ControlRecv.payloadOf frame = ⟨headerLength, 7⟩ := by
    rw [← hseven, hdrop, List.length_drop]
    rfl
  have hbytes : ∀ {i n}, i + n ≤ 7 →
      window (overwrite s.buf 0 frame) (headerLength + i) n = window gp.data i n :=
    fun hle => ControlRecv.bytes_payload hacc hfits (hseven ▸ hle)
  -- the three fields of the payload
  have hip : window gp.data 0 4 = ip.1 := by
    rw [hdata, List.append_assoc]
    exact List.take_left' ip.2
  have hport : window gp.data 4 2 = toBE 2 port.toNat := by
    rw [hdata, List.append_assoc, window, List.drop_left' ip.2]
    exact List.take_left' (length_toBE ..)
  have hnat : (window gp.data 0 7).getD 6 0 = natType := by
    have hlast : gp.data.drop 6 = [natType] := by
      rw [hdata]
      refine List.drop_left' ?_
      rw [List.length_append, ip.2, length_toBE]
    rw [window, List.drop_zero, List.take_of_length_le (Nat.le_of_eq hseven),
      List.getD_eq_getElem?_getD, ← List.getElem?_drop (i := 6) (j := 0), hlast]
    rfl
  refine ⟨{ dstNatType := ((ControlRecv.payloadOf frame).bytes (overwrite s.buf 0 frame)).getD 6 0
            dstAddr := ControlRecv.bytesToIP (overwrite s.buf 0 frame)
              ((ControlRecv.payloadOf frame).upTo 6)
            lastSeen := now, established := false }, ?_, ?_, ?_⟩
  · have hnoise : ¬gp.pType = typeNoiseResponse := by
      rw [hcommand]
      decide
    have hlong : ¬(ControlRecv.payloadOf frame).len < 7 := by
      rw [hpart]
      exact Nat.lt_irrefl 7
    unfold ControlRecv.handle
    rw [hacc]
    show (ControlRecv.dispatch N _ gp _ eph now).p2pRouter.lookup gp.src = _
    rw [ControlRecv.dispatch, if_neg hnoise, if_pos hcommand, if_neg hlong]
    exact AList.lookup_insert ..
  · rw [ControlRecv.getDstAddr, (ControlRecv.buf_handle N s frame eph now).1, hpart]
    refine Prod.ext ?_ ?_
    · exact (hbytes (i := 0) (n := 4) (by decide)).trans hip
    · show ofBE (window (window (overwrite s.buf 0 frame) headerLength 6) 4 2) = port.toNat
      rw [window_window (by decide), hbytes (by decide), hport]
      exact ofBE_toBE_of_lt port.toNat_lt
  · rw [hpart]
    exact (congrArg (·.getD 6 0) (hbytes (i := 0) (Nat.le_refl 7))).trans hnat

/-- **A command makes the client punch where the server has heard the peer**: `controlRecv`
installs a status for the peer with an address from which a datagram of the peer came, and
with the NAT type of the peer's handshake. -/
theorem punches_where_heard (hr : (posting retentionTime dnsReply).ReachVia PostOk p)
    (hgp : gp ∈ p.2.written c) (hcommand : gp.pType = typeP2PCommand)
    (hwire : (gp.encodePacket A L pool true false (none : Option (CipherState K))).1.wire =
      some wire) {D : Type} (N : NoiseIK.Ops D) (s : ControlRecv.Client)
    (hfits : wire.length ≤ s.buf.length) (eph : Nat) (now : Int) :
    ∃ e c' status, (gp.src, e) ∈ p.2.heard ∧
      (p.1.hub.client c').virtualIp = some gp.src ∧
      (ControlRecv.handle N s wire eph now).p2pRouter.lookup gp.src = some status ∧
      ControlRecv.getDstAddr (ControlRecv.handle N s wire eph now) status =
        (e.ip.1, e.port.toNat) ∧
      status.dstNatType = (p.1.hub.client c').natType := by
  have hmail := (posted_of_reach hr).written c gp hgp
  obtain ⟨rfl, hmax⟩ := wire_of_encode hwire
  have hacc : ControlRecv.accept (GamePacket.clearWire gp.src gp.dst gp.pType gp.data) =
      some { GamePacket.empty with
        src := gp.src, dst := gp.dst, pType := gp.pType, payload := some gp.data
        length := GamePacket.lengthFieldOf gp.data } := by
    unfold ControlRecv.accept
    rw [GamePacket.parseControl_clear _ _ _ _ hmail.not_compressed hmax]
  cases hmail with
  | @command v w c' e payload hv hw he hpayload =>
    have hdata : payload = e.ip.1 ++ toBE 2 e.port.toNat ++ [(p.1.hub.client c').natType] := by
      unfold udpAddrPortToBytes at hpayload
      rw [e.as4_addrPort] at hpayload
      exact (Option.some.inj hpayload).symm
    obtain ⟨status, hlook, haddr, hnat⟩ :=
      status_of_command N eph now hacc hcommand hdata hfits
    exact ⟨e, c', status, he, hw, hlook, haddr, hnat⟩
  | pong | reply _ | response _ _ | check _ => cases hcommand

end Client

/-! ## A late reply -/

/-- A data packet of 10.0.6.2 for 10.0.6.3, whose handshake has not been answered yet, makes the
server send a command to each of them. Both have been heard, since 10.0.6.3 has had its address
before. -/
def lateReply : List Act :=
  ([Hub.Act.accept, .accept] ++ Hub.handshake 0 (Hub.hello typeCone 7) ++
      (Hub.handshake 1 (Hub.hello typeCone 8)).take 4).map Act.hub ++
    .udp (endpoint 2) pingPacket :: punch 10 ++ [.writePump 1]

/-- **The first message to 10.0.6.3 is the command**, and the client would take its payload for
its host name. -/
theorem reply_late :
    ∃ p gp, (posting 300 fun _ _ _ => none).ReachVia PostOk p ∧ p.2.written 1 = [gp] ∧
      gp.pType = typeP2PCommand ∧ gp.data = [192, 0, 2, 1, 0, 1, typeCone] ∧
      (p.1.hub.client 1).hostname = [45, 49] := by
  obtain ⟨p, hr, hwritten, hname⟩ : ∃ p, (posting 300 fun _ _ _ => none).ReachVia PostOk p ∧
      (p.2.written 1).map (fun gp => (gp.pType, gp.data)) =
        [(typeP2PCommand, [192, 0, 2, 1, 0, 1, typeCone])] ∧
      (p.1.hub.client 1).hostname = [45, 49] :=
    Machine.exists_reachVia lateReply (by decide +kernel)
  obtain ⟨gp, hgp, heq⟩ := List.map_eq_singleton_iff.mp hwritten
  obtain ⟨htype, hdata⟩ := Prod.mk.inj heq
  exact ⟨p, gp, hr, hgp, htype, hdata, hname⟩

/-- A short packet is encoded. -/
theorem encode_short {gp : GamePacket} {payload : Bytes} (hdata : gp.data = payload)
    (hlen : payload.length ≤ maxPayloadSize) :
    (gp.encodePacket chacha20Poly1305 Lz4.stored (.fresh 0) true false none).1.wire =
      some (GamePacket.clearWire gp.src gp.dst gp.pType gp.data) := by
  subst hdata
  rw [GamePacket.encodePacket_plain, GamePacket.encode_clear _ gp true hlen]

theorem mail_only_command :
    ∃ p gp, (posting 300 fun _ _ _ => none).ReachVia PostOk p ∧ gp ∈ p.2.written 1 ∧
      Mail p.1.hub p.2.heard 1 gp := by
  obtain ⟨p, gp, hr, hwritten, -⟩ := reply_late
  have hgp : gp ∈ p.2.written 1 := hwritten ▸ List.mem_singleton_self gp
  exact ⟨p, gp, hr, hgp, mail_only hr hgp⟩

/-- The address is right although the message is not the reply. -/
theorem enrolled_address_command :
    ∃ p v wire payload, (posting 300 fun _ _ _ => none).ReachVia PostOk p ∧
      (p.1.hub.client 1).virtualIp = some v ∧
      takeHandshake chacha20Poly1305 .empty (.fresh 0) wire =
        some (v, [192, 0, 2, 1, 0, 1, typeCone]) ∧
      p.2.hello 1 = some payload ∧ (p.1.hub.client 1).Presents payload := by
  obtain ⟨p, gp, hr, hwritten, htype, hdata, -⟩ := reply_late
  have hgp : gp ∈ p.2.written 1 := hwritten ▸ List.mem_singleton_self gp
  have hpong : gp.pType ≠ typePong := by
    rw [htype]
    decide
  obtain ⟨v, payload, hv, htake, -, hhello, hpresents⟩ :=
    enrolled_address hr hgp hpong (encode_short hdata (by decide)) .empty (.fresh 0)
  rw [hdata] at htake
  exact ⟨p, v, _, payload, hr, hv, htake, hhello, hpresents⟩

theorem punches_where_heard_command :
    ∃ p e, (posting 300 fun _ _ _ => none).ReachVia PostOk p ∧
      ∃ src status wire, (src, e) ∈ p.2.heard ∧
        ControlRecv.getDstAddr (ControlRecv.handle NoiseIK.ideal (ControlRecv.start
          NoiseIK.samplePub (Hub.hostIp 3) (List.replicate 1024 0)) wire 0 0) status =
          (e.ip.1, e.port.toNat) := by
  obtain ⟨p, gp, hr, hwritten, htype, hdata, -⟩ := reply_late
  have hgp : gp ∈ p.2.written 1 := hwritten ▸ List.mem_singleton_self gp
  have hfits : (GamePacket.clearWire gp.src gp.dst gp.pType gp.data).length ≤
      (ControlRecv.start NoiseIK.samplePub (Hub.hostIp 3) (List.replicate 1024 0)).buf.length := by
    rw [GamePacket.length_clearWire, hdata]
    show _ ≤ (List.replicate 1024 0).length
    rw [List.length_replicate]
    decide
  obtain ⟨e, c', status, he, -, -, haddr, -⟩ := punches_where_heard hr hgp htype
    (encode_short hdata (by decide)) NoiseIK.ideal _ hfits 0 0
  exact ⟨p, e, hr, gp.src, status, _, he, haddr⟩

end Server

end EasyTun.Transport
