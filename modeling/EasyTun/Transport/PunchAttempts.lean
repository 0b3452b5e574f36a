import EasyTun.Transport.TunnelOwners

/-!
# How often a direct path is tried

`ifEstablish` says whether to try a direct path between two clients. It says yes when
there is no record of the pair, and when the record is marked as failed and its counter
is below six. The counter grows elsewhere: `handleP2PClosed` marks the record and then
counts, and `handleP2PTask` counts too. Looking a record up, reading it, marking it and
counting are separate steps of several goroutines.

- `attempts`: the server with an observer that counts, for each record, how often
  `ifEstablish` has said yes while it was the pair's record;
- `Within`: the bound that the state of a record puts on that number;
- `bounded_step`: what the steps do to it;
- `attempts_bounded`: **at most six times**, if what `ifEstablish` has read still holds
  when it writes, no failure is half-counted then, and the counter does not wrap;
- `seventh_attempt`: two workers find no record at the same time, and both say yes.
-/

namespace EasyTun.Transport

open EasyTun.Lib EasyTun.Util EasyTun.Protocol EasyTun.Stun

/-! ## Counting -/

/-- The packet for which the worker's next step ends `ifEstablish` with `true`. -/
def Transfer.attempt : Transfer → Option Relay
  | .relaying r .add | .relaying r (.reopen _) => some r
  | _ => none

theorem Transfer.attempt_of_commits {t : Transfer} (ht : t.commits = false) : t.attempt = none := by
  unfold commits at ht
  unfold attempt
  split
  · cases ht
  · cases ht
  · rfl

/-- The record `handleP2PTask` is about to count for. -/
def P2P.counts : P2P → Option TunnelId
  | .looked _ _ t => t
  | .idle | .taken _ | .loaded _ _ | .found _ _ _ | .loadedSrc _ _ _ _ | .commanding _ _ => none

namespace Punching

/-- The packet for which a step ends `ifEstablish` with `true`. -/
def attempt (s : Punching) : Server.Act → Option Relay
  | .transfer w => (s.transfer w).attempt
  | _ => none

/-- The observer: a `true` counts for the record the pair then has. -/
def note (n : TunnelId → Nat) (s : Punching) (a : Server.Act) (s' : Punching) : TunnelId → Nat :=
  match s.attempt a with
  | none => n
  | some r =>
    match s'.tm.exist r.packet.src r.packet.dst with
    | none => n
    | some t => Function.update n t (n t + 1)

theorem note_of_none {n : TunnelId → Nat} {s s' : Punching} {a : Server.Act}
    (h : s.attempt a = none) : note n s a s' = n := by
  rw [note, h]

theorem note_of_some {n : TunnelId → Nat} {s s' : Punching} {a : Server.Act} {r : Relay}
    {t : TunnelId} (h : s.attempt a = some r)
    (ht : s'.tm.exist r.packet.src r.packet.dst = some t) :
    note n s a s' = Function.update n t (n t + 1) := by
  rw [note, h]
  simp only [ht]

end Punching

namespace Server

variable (retentionTime : Int) (dnsReply : Hub → Header → Bytes → Option Bytes)

/-- **The server with the number of attempts** for each record. -/
def attempts : Machine (Server × (TunnelId → Nat)) Act :=
  (machine retentionTime dnsReply).observe (fun _ => 0) fun n s a s' =>
    Punching.note n s.plane.punching a s'.plane.punching

end Server

/-! ## The bound of a record -/

/-- What the state of a record says about the number of attempts: each was followed by a
failure that was counted, but for the last one. `counting`: a failure is marked and not
counted yet. -/
structure Within (r : P2PTunnel) (counting : Prop) (n : Nat) : Prop where
  le_six : n ≤ 6
  le_succ : n ≤ r.retryTimes.toNat + 1
  failed : r.status = .failed → n ≤ r.retryTimes.toNat ∨ counting

namespace Within

variable {r : P2PTunnel} {counting counting' : Prop} {n : Nat}

theorem mono (h : Within r counting n) (himp : counting → counting') : Within r counting' n :=
  ⟨h.le_six, h.le_succ, fun hf => (h.failed hf).imp_right himp⟩

/-- A new record has no attempts, or the one that made it. -/
theorem new (a b : ByteArr 4) {status : TunnelStatus} (hstatus : status ≠ .failed) (hn : n ≤ 1) :
    Within { a, b, status, retryTimes := 0 } counting n where
  le_six := Nat.le_trans hn (by decide)
  le_succ := hn
  failed hf := absurd hf hstatus

/-- The record is marked, but not as failed. -/
theorem marked (h : Within r counting n) {status : TunnelStatus} (hstatus : status ≠ .failed) :
    Within { r with status } counting' n where
  le_six := h.le_six
  le_succ := h.le_succ
  failed hf := absurd hf hstatus

/-- The record is marked as failed, and somebody will count it. -/
theorem markedFailed (h : Within r counting n) (hcounting : counting') :
    Within { r with status := .failed } counting' n where
  le_six := h.le_six
  le_succ := h.le_succ
  failed _ := Or.inr hcounting

/-- A failure is counted. -/
theorem counted (h : Within r counting n) (hmax : r.retryTimes ≠ 4294967295) :
    Within { r with retryTimes := r.retryTimes + 1 } counting' n := by
  have hsucc : (r.retryTimes + 1).toNat = r.retryTimes.toNat + 1 := by
    have hlt := r.retryTimes.toNat_lt
    have hne : r.retryTimes.toNat ≠ 4294967295 := fun heq =>
      hmax (UInt32.toNat_inj.mp heq)
    rw [UInt32.toNat_add]
    show (r.retryTimes.toNat + 1) % 4294967296 = _
    omega
  refine ⟨h.le_six, ?_, fun _ => Or.inl ?_⟩
  · show n ≤ (r.retryTimes + 1).toNat + 1
    rw [hsucc]
    exact Nat.le_succ_of_le h.le_succ
  · show n ≤ (r.retryTimes + 1).toNat
    rw [hsucc]
    exact h.le_succ

/-- **Another attempt**: all failures are counted, and they are fewer than six. -/
theorem again (h : Within r counting n) (hfailed : r.status = .failed) (hcounted : ¬counting)
    (hlt : r.retryTimes < 6) : Within { r with status := .init } counting' (n + 1) := by
  have hle : n ≤ r.retryTimes.toNat := (h.failed hfailed).resolve_right hcounted
  have hsix : r.retryTimes.toNat < 6 := UInt32.lt_iff_toNat_lt.mp hlt
  exact ⟨by omega, Nat.succ_le_succ hle, nofun⟩

end Within

/-! ## The steps -/

namespace Punching

/-- Somebody has marked the record as failed and will count it. -/
def Counting (s : Punching) (t : TunnelId) : Prop := ∃ c, (s.ws c).counts = some t

/-- When `ifEstablish` writes, what it has read still holds and no failure is half-counted. -/
def StartOk (h : Hub) (s : Punching) : Transfer → Prop
  | .relaying r .add => s.tm.exist r.packet.src r.packet.dst = none
  | .relaying r (.reopen t) =>
    s.tm.exist r.packet.src r.packet.dst = some t ∧ (s.tm.heap t).status = .failed ∧
      (s.tm.heap t).retryTimes < 6 ∧ ∀ c < h.next, (s.ws c).counts ≠ some t
  | _ => True

instance (h : Hub) (s : Punching) : (t : Transfer) → Decidable (StartOk h s t)
  | .relaying r .add =>
    inferInstanceAs (Decidable (s.tm.exist r.packet.src r.packet.dst = none))
  | .relaying _ (.reopen _) => inferInstanceAs (Decidable (_ ∧ _ ∧ _ ∧ ∀ c < h.next, _))
  | .idle | .taken _ | .loaded _ _ | .found _ _ _ | .relaying _ .natTypes | .relaying _ .exist
  | .relaying _ (.status _) | .relaying _ (.retries _) | .relaying _ .task
  | .relaying _ .relay => inferInstanceAs (Decidable True)

/-- A record's counter that is incremented is not at its greatest value. -/
def CountOk (s : Punching) (t : Option TunnelId) : Prop :=
  ∀ i ∈ t, (s.tm.heap i).retryTimes ≠ 4294967295

instance (s : Punching) (t : Option TunnelId) : Decidable (CountOk s t) :=
  inferInstanceAs (Decidable (∀ i ∈ t, _))

/-- The condition on a step. -/
def AttemptOk (h : Hub) (s : Punching) : Server.Act → Prop
  | .transfer w => StartOk h s (s.transfer w)
  | .p2p => CountOk s s.p2p.counts
  | .wsNext c => CountOk s (s.ws c).counts
  | _ => True

instance (h : Hub) (s : Punching) : (a : Server.Act) → Decidable (AttemptOk h s a)
  | .transfer w => inferInstanceAs (Decidable (StartOk h s (s.transfer w)))
  | .p2p => inferInstanceAs (Decidable (CountOk s s.p2p.counts))
  | .wsNext c => inferInstanceAs (Decidable (CountOk s (s.ws c).counts))
  | .hub _ | .removeA | .udp _ _ | .check _ _ | .checkNext | .ws _ _ | .wsDone _ | .ping _
  | .writePump _ | .writeUdp => inferInstanceAs (Decidable True)

/-- The invariant. -/
structure Bounded (h : Hub) (s : Punching) (n : TunnelId → Nat) : Prop where
  sound : s.tm.Sound
  unused : ∀ t, s.tm.next ≤ t → n t = 0
  conn : ∀ c, (s.ws c).isIdle = false → c < h.next
  within : ∀ t, Within (s.tm.heap t) (s.Counting t) (n t)

variable {h h' : Hub} {s s' : Punching} {a : Server.Act} {n : TunnelId → Nat}

theorem counting_setWs {c : ConnId} {w : Ws} {t : TunnelId} (hc : (s.ws c).counts ≠ some t)
    (ht : s.Counting t) : (s.setWs c w).Counting t := by
  obtain ⟨c', hc'⟩ := ht
  have hne : c' ≠ c := fun heq => hc (heq ▸ hc')
  refine ⟨c', ?_⟩
  show (Function.update s.ws c w c').counts = some t
  rw [Function.update_of_ne hne]
  exact hc'

namespace Bounded

/-- A step that touches neither a record nor a control message. -/
theorem keep (hB : Bounded h s n) (hnext : h.next ≤ h'.next) (htm : s'.tm = s.tm)
    (hws : s'.ws = s.ws) : Bounded h' s' n where
  sound := htm ▸ hB.sound
  unused := htm ▸ hB.unused
  conn c hc := Nat.lt_of_lt_of_le (hB.conn c (hws ▸ hc)) hnext
  within t := by
    rw [htm]
    refine (hB.within t).mono fun ⟨c, hc⟩ => ⟨c, ?_⟩
    rw [hws]
    exact hc

/-- `AddTunnel` by a handler that does not count. -/
theorem addTunnel (hB : Bounded h s n) (x y : ByteArr 4) {status : TunnelStatus}
    (hstatus : status ≠ .failed) : Bounded h { s with tm := s.tm.addTunnel x y status } n := by
  have hsound := hB.sound.addTunnel x y status
  rcases s.tm.addTunnel_cases x y status with hsame | hnew
  · rw [hsame]
    exact hB
  · rw [hnew] at hsound ⊢
    refine ⟨hsound, fun t ht => hB.unused t (Nat.le_of_succ_le ht), hB.conn, fun t => ?_⟩
    show Within ((s.tm.create x y status).heap t) _ _
    by_cases ht : t = s.tm.next
    · subst ht
      rw [TunnelManager.heap_create, hB.unused _ (Nat.le_refl _)]
      exact .new x y hstatus (Nat.zero_le _)
    · rw [TunnelManager.heap_create_of_ne _ _ _ _ ht]
      exact hB.within t

/-- A change to one record. -/
theorem update (hB : Bounded h s n) (t : TunnelId) {tm : TunnelManager} {r : P2PTunnel}
    (hsound : tm.Sound) (hnext : tm.next = s.tm.next)
    (hheap : tm.heap = Function.update s.tm.heap t r) (hr : Within r (s.Counting t) (n t)) :
    Bounded h { s with tm := tm } n where
  sound := hsound
  unused i hi := hB.unused i (hnext ▸ hi)
  conn := hB.conn
  within i := by
    show Within (tm.heap i) (s.Counting i) (n i)
    rw [hheap]
    by_cases hi : i = t
    · subst hi
      rw [Function.update_self]
      exact hr
    · rw [Function.update_of_ne hi]
      exact hB.within i

/-- A control message moves on, of a connection there is, and not out of the counting. -/
theorem setWs (hB : Bounded h s n) {c : ConnId} (hc : c < h.next) (hfrom : (s.ws c).counts = none)
    (w : Ws) : Bounded h (s.setWs c w) n where
  sound := hB.sound
  unused := hB.unused
  conn c' hc' := by
    by_cases heq : c' = c
    · subst heq
      exact hc
    · have hother : (s.setWs c w).ws c' = s.ws c' := Function.update_of_ne heq ..
      rw [hother] at hc'
      exact hB.conn c' hc'
  within t := by
    refine (hB.within t).mono (counting_setWs ?_)
    rw [hfrom]
    exact nofun

/-- The other workers. -/
theorem setTransfer (hB : Bounded h s n) (w : Fin 2) (t : Transfer) :
    Bounded h (s.setTransfer w t) n :=
  hB.keep (Nat.le_refl _) rfl rfl

end Bounded

/-- `ifEstablish` makes a record. -/
theorem bounded_add (hB : Bounded h s n) {w : Fin 2} {r : Relay}
    (hw : s.transfer w = .relaying r .add) (hnone : s.tm.exist r.packet.src r.packet.dst = none) :
    Bounded h { s with tm := s.tm.addTunnel r.packet.src r.packet.dst .init }
      (note n s (.transfer w) { s with tm := s.tm.addTunnel r.packet.src r.packet.dst .init }) := by
  have hattempt : s.attempt (.transfer w) = some r := by
    show (s.transfer w).attempt = some r
    rw [hw]
    rfl
  have hsound := hB.sound.addTunnel r.packet.src r.packet.dst .init
  rw [TunnelManager.addTunnel_of_none hnone] at hsound ⊢
  rw [note_of_some hattempt (s.tm.exist_create ..), hB.unused _ (Nat.le_refl _)]
  refine ⟨hsound, fun t ht => ?_, hB.conn, fun t => ?_⟩
  · have hlt : s.tm.next < t := ht
    rw [Function.update_of_ne (Nat.ne_of_gt hlt)]
    exact hB.unused t (Nat.le_of_lt hlt)
  · show Within ((s.tm.create _ _ .init).heap t) _ _
    by_cases ht : t = s.tm.next
    · subst ht
      rw [TunnelManager.heap_create, Function.update_self]
      exact .new _ _ nofun (Nat.le_refl _)
    · rw [TunnelManager.heap_create_of_ne _ _ _ _ ht, Function.update_of_ne ht]
      exact hB.within t

/-- `ifEstablish` opens a record again. -/
theorem bounded_reopen (hB : Bounded h s n) {w : Fin 2} {r : Relay} {t : TunnelId}
    (hw : s.transfer w = .relaying r (.reopen t))
    (hsome : s.tm.exist r.packet.src r.packet.dst = some t)
    (hfailed : (s.tm.heap t).status = .failed) (hlt : (s.tm.heap t).retryTimes < 6)
    (hcounted : ∀ c < h.next, (s.ws c).counts ≠ some t) :
    Bounded h { s with tm := s.tm.changeStatus t .init }
      (note n s (.transfer w) { s with tm := s.tm.changeStatus t .init }) := by
  have hattempt : s.attempt (.transfer w) = some r := by
    show (s.transfer w).attempt = some r
    rw [hw]
    rfl
  have hnot : ¬s.Counting t := by
    rintro ⟨c, hc⟩
    refine hcounted c (hB.conn c ?_) hc
    cases hws : s.ws c with
    | counting _ => rfl
    | idle | adding _ _ | status _ | connecting _ | failing _ | done =>
      rw [hws] at hc
      cases hc
  have hnote : note n s (.transfer w) { s with tm := s.tm.changeStatus t .init } =
      Function.update n t (n t + 1) := note_of_some hattempt hsome
  rw [hnote]
  have hlt_next : t < s.tm.next := (hB.sound.entry hsome).1
  refine ⟨hB.sound.changeStatus t .init, fun i hi => ?_, hB.conn, fun i => ?_⟩
  · have hne : i ≠ t := Nat.ne_of_gt (Nat.lt_of_lt_of_le hlt_next hi)
    rw [Function.update_of_ne hne]
    exact hB.unused i hi
  · show Within (Function.update s.tm.heap t { s.tm.heap t with status := .init } i) _ _
    by_cases hi : i = t
    · subst hi
      rw [Function.update_self, Function.update_self]
      exact (hB.within i).again hfailed hnot hlt
    · rw [Function.update_of_ne hi, Function.update_of_ne hi]
      exact hB.within i

/-- `handleP2PTask` counts, or makes a record. -/
theorem bounded_recordTask (hB : Bounded h s n) (task : P2PTask) {t : Option TunnelId}
    (hmax : CountOk s t) :
    Bounded h { s with tm := recordTask s.tm task t } n := by
  cases t with
  | none => exact hB.addTunnel _ _ nofun
  | some i =>
    exact hB.update i (hB.sound.addRetryTimes i) rfl rfl ((hB.within i).counted (hmax i rfl))

/-- A failure is marked. -/
theorem bounded_fail (hB : Bounded h s n) {c : ConnId} {t : TunnelId}
    (hws : s.ws c = .failing t) :
    Bounded h ({ s with tm := s.tm.changeStatus t .failed }.setWs c (.counting t)) n := by
  have hc : c < h.next := hB.conn c (by rw [hws]; rfl)
  have hset := hB.setWs hc (by rw [hws]; rfl) (.counting t)
  have hcounting : (s.setWs c (.counting t)).Counting t := by
    refine ⟨c, ?_⟩
    show (Function.update s.ws c (.counting t) c).counts = some t
    rw [Function.update_self]
    rfl
  exact hset.update t (hB.sound.changeStatus t .failed) rfl rfl
    ((hB.within t).markedFailed hcounting)

/-- A failure is counted. -/
theorem bounded_count (hB : Bounded h s n) {c : ConnId} {t : TunnelId}
    (hws : s.ws c = .counting t) (hmax : (s.tm.heap t).retryTimes ≠ 4294967295) :
    Bounded h ({ s with tm := s.tm.addRetryTimes t }.setWs c .done) n where
  sound := hB.sound.addRetryTimes t
  unused := hB.unused
  conn c' hc' := by
    by_cases heq : c' = c
    · subst heq
      exact hB.conn c' (by rw [hws]; rfl)
    · have hother : Function.update s.ws c .done c' = s.ws c' := Function.update_of_ne heq ..
      exact hB.conn c' (hother ▸ hc')
  within i := by
    show Within (Function.update s.tm.heap t _ i) _ _
    by_cases hi : i = t
    · subst hi
      rw [Function.update_self]
      exact (hB.within i).counted hmax
    · rw [Function.update_of_ne hi]
      refine (hB.within i).mono (counting_setWs (s := s) ?_)
      rw [hws]
      exact fun heq => hi (Option.some.inj heq).symm

/-- **What a step does.** -/
theorem bounded_step (hB : Bounded h s n) (hf : h.Fresh) (hok : AttemptOk h s a)
    (hm : Moves h s a s') : Bounded h s' (note n s a s') := by
  -- outside of `ifEstablish` nothing is counted
  have hnone : ∀ {w : Fin 2} {t : Transfer}, s.transfer w = t → t.attempt = none →
      note n s (.transfer w) s' = n := by
    intro w t hw ht
    refine note_of_none ?_
    show (s.transfer w).attempt = none
    rw [hw]
    exact ht
  cases hm with
  | aside ha =>
    have hattempt : s.attempt a = none := by
      cases a with
      | transfer w => cases ha
      | _ => rfl
    rw [note_of_none hattempt]
    exact hB
  | hub | removeNothing => exact hB
  | removeRoute => exact hB.keep (Nat.le_refl _) rfl rfl
  | removeA hc =>
    exact ⟨hB.sound.removeA _, hB.unused, hB.conn, hB.within⟩
  | pass hfrom hto =>
    rw [hnone rfl (Transfer.attempt_of_commits hfrom)]
    exact hB.setTransfer ..
  | absent hw _ | present hw _ | failed hw | retry hw =>
    rw [hnone hw rfl]
    exact hB.setTransfer ..
  | enqueue hw _ | drop hw _ =>
    rw [hnone hw rfl]
    exact hB.keep (Nat.le_refl _) rfl rfl
  | @add w r hw =>
    have hstart : StartOk h s (s.transfer w) := hok
    rw [hw] at hstart
    exact (bounded_add hB hw hstart).setTransfer ..
  | @reopen w r t hw =>
    have hstart : StartOk h s (s.transfer w) := hok
    rw [hw] at hstart
    obtain ⟨hsome, hfailed, hlt, hcounted⟩ := hstart
    exact (bounded_reopen hB hw hsome hfailed hlt hcounted).setTransfer ..
  | take | advance | finish => exact hB.keep (Nat.le_refl _) rfl rfl
  | @record task clientMap t src dst hp | @lost task clientMap t hp _ =>
    have hmax : CountOk s s.p2p.counts := hok
    rw [hp] at hmax
    exact (bounded_recordTask hB task hmax).keep (Nat.le_refl _) rfl rfl
  | @wsPass _ c w ha hconn hfrom hto =>
    have hattempt : s.attempt a = none := by
      cases a with
      | transfer w => cases ha
      | _ => rfl
    rw [note_of_none hattempt]
    have hc : c < h.next := by
      rcases hconn with hpump | hbusy
      · exact hf.lt (Hub.conn_ne_absent_of_pump hpump nofun)
      · exact hB.conn c hbusy
    exact hB.setWs hc hfrom w
  | @wsAdd c x y hws =>
    have hc : c < h.next := hB.conn c (by rw [hws]; rfl)
    have hadded : Bounded h { s with tm := s.tm.addTunnel x y .connected } n :=
      hB.addTunnel x y nofun
    exact hadded.setWs hc (by rw [hws]; rfl) .done
  | @wsConnect c t hws =>
    have hc : c < h.next := hB.conn c (by rw [hws]; rfl)
    have hmarked := hB.update t (hB.sound.changeStatus t .connected) rfl rfl
      ((hB.within t).marked nofun)
    exact hmarked.setWs hc (by rw [hws]; rfl) .done
  | wsFail hws => exact bounded_fail hB hws
  | @wsCount c t hws =>
    have hmax : CountOk s (s.ws c).counts := hok
    rw [hws] at hmax
    exact bounded_count hB hws (hmax t rfl)

end Punching

/-! ## Runs -/

namespace Server

variable {retentionTime : Int} {dnsReply : Hub → Header → Bytes → Option Bytes}
  {p : Server × (TunnelId → Nat)}

open Punching (AttemptOk Bounded)

/-- **At most six attempts for a record**, from its creation to its removal, in every run in
which `ifEstablish` writes only while what it has read still holds and no failure is
half-counted, and no counter wraps. -/
theorem attempts_bounded
    (hr : (attempts retentionTime dnsReply).ReachVia
      (fun p a => AttemptOk p.1.hub p.1.plane.punching a) p) (t : TunnelId) : p.2 t ≤ 6 := by
  have hB : Bounded p.1.hub p.1.plane.punching p.2 := by
    refine hr.invariant (P := fun p => Bounded p.1.hub p.1.plane.punching p.2)
      ⟨.new, fun _ _ => rfl, nofun, fun _ => ?_⟩ fun {p q a} hr' hB hok hs => ?_
    · exact .new _ _ nofun (Nat.zero_le _)
    · obtain ⟨hstep, hnote⟩ := Machine.step_of_observe hs
      have hreach : (machine retentionTime dnsReply).Reach p.1 :=
        hr'.unobserved fun _ _ _ => trivial
      rw [hnote]
      have hB' := Punching.bounded_step hB (Hub.fresh (hub_reach hreach)) hok
        (moves_of_step hstep)
      exact hB'.keep (next_le_of_step hstep) rfl rfl
  exact (hB.within t).le_six

/-- A data packet goes through the worker `w`. -/
def relay (w : Fin 2) (n : Nat) : List Act :=
  .udp (endpoint 1) dataPacket :: List.replicate n (.transfer w)

/-- The client 10.0.6.2 reports that the tunnel to 10.0.6.3 is closed. -/
def closed : List Act :=
  [.ws 0 (tunnelMessage typeP2PClosed 3), .wsNext 0, .wsNext 0, .wsDone 0]

/-- A tunnel is closed five times and tried again each time. -/
theorem attempts_bounded_six :
    ∃ p, (attempts 300 fun _ _ _ => none).ReachVia
        (fun p a => AttemptOk p.1.hub p.1.plane.punching a) p ∧
      p.2 0 = 6 ∧ ∀ t, p.2 t ≤ 6 := by
  obtain ⟨p, hr, hsix⟩ : ∃ p, (attempts 300 fun _ _ _ => none).ReachVia
      (fun p a => AttemptOk p.1.hub p.1.plane.punching a) p ∧ p.2 0 = 6 :=
    Machine.exists_reachVia
      (connectTwo ++ relay 0 9 ++ (List.replicate 5 (closed ++ relay 0 11)).flatten)
      (by decide +kernel)
  exact ⟨p, hr, hsix, attempts_bounded hr⟩

/-- **A seventh attempt.** Both workers find no record of the pair and go on to make one;
then the tunnel is closed and tried again five times. It is still the first record. -/
theorem seventh_attempt :
    ∃ p, (attempts 300 fun _ _ _ => none).Reach p ∧ p.2 0 = 7 ∧
      p.1.plane.tm.exist (Hub.hostIp 2) (Hub.hostIp 3) = some 0 :=
  Machine.exists_reach
    (connectTwo ++ relay 0 6 ++ relay 1 6 ++ List.replicate 3 (.transfer 0) ++
      List.replicate 3 (.transfer 1) ++ (List.replicate 5 (closed ++ relay 0 11)).flatten)
    (by decide +kernel)

end Server

end EasyTun.Transport
