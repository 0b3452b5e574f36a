import Mathlib.Data.Fintype.Sum
import Mathlib.Tactic.Common
import Mathlib.Tactic.DeriveFintype
import EasyTun.Lib.Progress
import EasyTun.Transport.Goroutines

/-!
# The end of a client session (`client.go`)

The first goroutine of a session that returns an error cancels the context, and so does the
end of the program. The client connects again when all of them have returned
(`sessionGroup.Wait`), so every goroutine has to notice the cancellation wherever it is. Most
waits are `select`s with a case for the context, and reads end when the connections are
closed, one second after the cancellation. Two sends are plain: `SendAllPendingData` and
`testBroadCast` put packets into `FromTun`, which the workers of `packetSend` empty, and these
are the first to leave. The TUN device goes on filling `FromTun` meanwhile, since it does not
belong to the session.

- `session_winds_down`: after the cancellation **every run without new input is finite, and
  where it ends all goroutines have returned, or the session is doomed**.
- `doomed_forever`: a session is doomed when the workers of `packetSend` are gone and there is
  no room for what the others have to put into `FromTun`. **It then never ends, whatever
  happens**, and the client does not connect again.
-/

namespace EasyTun.Transport.Session

open EasyTun.Lib EasyTun.Protocol

/-! ## The session -/

/-- The goroutines of a session with `R` receive and `S` send workers (client.go:195–219). -/
inductive Goroutine (R S : Nat) where
  | controlRecv
  | controlSend
  | heartbeat
  | packetRecv (i : Fin R)
  | packetSend (i : Fin S)
  | handleP2P
  | testBroadCast
  | closer
  deriving DecidableEq, Fintype

variable {R S : Nat}

namespace Goroutine

/-- Where a goroutine can be. -/
abbrev Counter : Goroutine R S → Type
  | .controlRecv => ControlRecv
  | .controlSend => ControlSend
  | .heartbeat => Heartbeat
  | .packetRecv _ => PacketRecv
  | .packetSend _ => PacketSend
  | .handleP2P => HandleP2P
  | .testBroadCast => TestBroadCast
  | .closer => Closer

/-- What a goroutine can do. -/
abbrev Act : Goroutine R S → Type
  | .controlRecv => ControlRecv.Act
  | .controlSend => ControlSend.Act
  | .heartbeat => Heartbeat.Act
  | .packetRecv _ => PacketRecv.Act
  | .packetSend _ => PacketSend.Act
  | .handleP2P => HandleP2P.Act
  | .testBroadCast => TestBroadCast.Act
  | .closer => Closer.Act

/-- The number of packets that it has to put into `FromTun`. -/
def pushes : (g : Goroutine R S) → g.Counter → Nat
  | .packetRecv _ => PacketRecv.pushes
  | .testBroadCast => TestBroadCast.pushes
  | _ => fun _ => 0

end Goroutine

/-- The address of the client, the header that `testBroadCast` sends, and the two options. -/
structure Config where
  localIp : ByteArr 4
  bch : Bytes
  enableP2P : Bool
  testFlag : Bool

variable (c : Config)

/-- What the goroutines run. -/
def routine : (g : Goroutine R S) → Routine g.Counter g.Act
  | .controlRecv => controlRecv
  | .controlSend => controlSend
  | .heartbeat => heartbeat c.localIp
  | .packetRecv _ => packetRecv
  | .packetSend _ => packetSend
  | .handleP2P => handleP2P
  | .testBroadCast => testBroadCast c.bch
  | .closer => closer

/-- Where the goroutines start. -/
def start : (g : Goroutine R S) → g.Counter
  | .controlRecv => ControlRecv.loop
  | .controlSend => ControlSend.select
  | .heartbeat => Heartbeat.select
  | .packetRecv _ => PacketRecv.loop
  | .packetSend _ => PacketSend.select
  | .handleP2P => if c.enableP2P then HandleP2P.select else HandleP2P.returned
  | .testBroadCast => if c.testFlag then TestBroadCast.select else TestBroadCast.returned
  | .closer => Closer.waiting

/-- What the goroutines share, and where each of them is. -/
structure State (R S : Nat) where
  shared : Shared
  counter : (g : Goroutine R S) → g.Counter

/-- Nobody holds the lock that the worker waits for. -/
def State.lockFree (s : State R S) : PacketRecv → Bool
  | .locking sid => (List.finRange R).all fun j => !(s.counter (.packetRecv j)).holds sid
  | _ => true

/-- The goroutine does not wait for a lock. -/
def State.free (s : State R S) : Goroutine R S → Bool
  | .packetRecv i => s.lockFree (s.counter (.packetRecv i))
  | _ => true

inductive Act (R S : Nat) where
  /-- The program is told to stop. -/
  | cancel
  /-- The TUN device has read a packet, which is dropped when `FromTun` is full. -/
  | tun (p : Bytes)
  | go (g : Goroutine R S) (a : g.Act)

/-- One step of the session. -/
def step (s : State R S) : Act R S → Option (State R S)
  | .cancel => some { s with shared.cancelled := true }
  | .tun p => some { s with shared.fromTun := s.shared.fromTun.trySend p }
  | .go g a =>
    if s.free g then
      ((routine c g).advance s.shared (s.counter g) a).map fun r =>
        { shared := r.1, counter := Function.update s.counter g r.2 }
    else none

/-- What is queued in the channels is left from the session before. -/
def machine (R S : Nat) (fromTun : Chan Bytes 256) (controlSendChan : Chan GamePacket 16) :
    Machine (State R S) (Act R S) where
  init :=
    { shared := { cancelled := false, wsClosed := false, udpClosed := false, fromTun,
                  controlSendChan }
      counter := start c }
  step := step c

/-- The step is due to the user, the TUN device, the network or the clock. -/
def Act.input : Act R S → Bool
  | .cancel | .tun _ => true
  | .go g a => (routine c g).input a

/-- Every goroutine waits, or has returned. -/
def State.Quiet (s : State R S) : Prop :=
  ∀ g a, (routine c g).owed a = true → step c s (.go g a) = none

/-- All goroutines have returned. -/
def State.Over (s : State R S) : Prop := ∀ g, s.counter g = (routine c g).returned

/-- The packets in `FromTun`, and those that goroutines have to put there. -/
def State.load (s : State R S) : Nat :=
  s.shared.fromTun.len + total Goroutine.pushes s.counter

/-- Nobody takes packets from `FromTun` any more, and there are too many for it. -/
structure State.Doomed (s : State R S) : Prop where
  gone : ∀ i, s.counter (.packetSend i) = .returned
  full : 256 < s.load

/-- How many steps are left, once the context is cancelled. -/
def State.rank (s : State R S) : Nat :=
  s.shared.rank + total (fun g => (routine c g).rank) s.counter

variable {c} {s t : State R S}

/-- What a step of a goroutine is. -/
theorem step_go {g : Goroutine R S} {a : g.Act} (h : step c s (.go g a) = some t) :
    ∃ op k, (routine c g).next (s.counter g) a = some op ∧
      perform s.shared op = some (t.shared, k) ∧
      t.counter = Function.update s.counter g k := by
  simp only [step] at h
  split at h
  · obtain ⟨⟨sh, k⟩, hadv, rfl⟩ := Option.map_eq_some_iff.mp h
    obtain ⟨op, hop, hperform⟩ := Routine.advance_eq_some.mp hadv
    exact ⟨op, k, hop, hperform, rfl⟩
  · cases h

/-! ### The rank -/

theorem cancelled_step {a : Act R S} (hc : s.shared.cancelled = true)
    (h : step c s a = some t) : t.shared.cancelled = true := by
  cases a with
  | cancel =>
    cases h
    rfl
  | tun p =>
    cases h
    exact hc
  | go g a =>
    obtain ⟨op, k, -, hperform, -⟩ := step_go h
    exact (flags_perform hperform).1 hc

theorem rank_step {a : Act R S} (hc : s.shared.cancelled = true) (ha : a.input c = false)
    (h : step c s a = some t) : t.rank c < s.rank c := by
  cases a with
  | cancel | tun p => cases ha
  | go g a =>
    obtain ⟨op, k, hop, hperform, hcounter⟩ := step_go h
    have hlt := rank_lt hc ((routine c g).lowers hop ha) hperform
    have htotal := total_update (fun g => (routine c g).rank) s.counter g k
    unfold State.rank
    rw [hcounter]
    omega

/-! ### Who is left -/

/-- Of the goroutines only the workers of `packetSend` take from `FromTun`. -/
theorem feeds {g : Goroutine R S} (hg : ∀ i, g ≠ .packetSend i) {p : g.Counter} {a : g.Act}
    {op : Op g.Counter} (h : (routine c g).next p a = some op) :
    op.Feeds g.pushes (g.pushes p) := by
  cases g with
  | controlRecv => exact ControlRecv.feeds h
  | controlSend => exact ControlSend.feeds h
  | heartbeat => exact Heartbeat.feeds h
  | packetRecv i => exact PacketRecv.feeds h
  | packetSend i => exact absurd rfl (hg i)
  | handleP2P => exact HandleP2P.feeds h
  | testBroadCast => exact TestBroadCast.feeds h
  | closer => exact Closer.feeds h

theorem State.Doomed.step {a : Act R S} (hs : s.Doomed) (h : step c s a = some t) : t.Doomed := by
  obtain ⟨hgone, hfull⟩ := hs
  cases a with
  | cancel =>
    cases h
    exact ⟨hgone, hfull⟩
  | tun p =>
    cases h
    refine ⟨hgone, Nat.lt_of_lt_of_le hfull (Nat.add_le_add_right ?_ _)⟩
    exact s.shared.fromTun.len_le_trySend p
  | go g a =>
    obtain ⟨op, k, hop, hperform, hcounter⟩ := step_go h
    -- the workers of `packetSend` make no steps
    have hg : ∀ i, g ≠ .packetSend i := by
      rintro i rfl
      rw [hgone i] at hop
      cases (packetSend.ends a).symm.trans hop
    constructor
    · intro i
      rw [hcounter, Function.update_of_ne (fun heq => hg i heq.symm)]
      exact hgone i
    · have hle := load_le (feeds hg hop) hperform
      have htotal := total_update Goroutine.pushes s.counter g k
      unfold State.load at hfull ⊢
      rw [hcounter]
      omega

/-- Only who has returned has no steps left. -/
theorem over_of_rank (h : s.rank c = 0) : s.Over c := by
  intro g
  have hle := rank_le_total (fun g => (routine c g).rank) s.counter g
  unfold State.rank at h
  exact (routine c g).eq_returned (by omega)

/-- A session that is over is quiet. -/
theorem State.Over.quiet (h : s.Over c) : s.Quiet c := by
  intro g a _
  have hnone : (routine c g).advance s.shared (s.counter g) a = none := by
    rw [Routine.advance, h g, (routine c g).ends]
    rfl
  simp only [step, hnone, Option.map_none, ite_self]

/-- A doomed session is not over. -/
theorem State.Doomed.not_over (hs : s.Doomed) : ¬ s.Over c := by
  intro hover
  have hzero : total Goroutine.pushes s.counter = 0 := by
    refine total_eq_zero fun g => ?_
    rw [hover g]
    cases g <;> rfl
  have hfull := hs.full
  have hle := s.shared.fromTun.len_le
  unfold State.load at hfull
  omega

/-! ### Quiet sessions -/

/-- The goroutine that closes the connections has not returned before. -/
def Closing (s : State R S) : Prop :=
  s.counter .closer = .returned → s.shared.wsClosed = true ∧ s.shared.udpClosed = true

theorem closing_step {a : Act R S} (hs : Closing s) (h : step c s a = some t) : Closing t := by
  cases a with
  | cancel | tun p =>
    cases h
    exact hs
  | go g a =>
    obtain ⟨op, k, hop, hperform, hcounter⟩ := step_go h
    unfold Closing at hs ⊢
    rw [hcounter]
    by_cases hg : g = .closer
    · subst hg
      rw [Function.update_self]
      rintro rfl
      exact Closer.closed_of_returned hop hperform
    · rw [Function.update_of_ne (Ne.symm hg)]
      intro hret
      obtain ⟨hws, hudp⟩ := hs hret
      obtain ⟨-, hws', hudp'⟩ := flags_perform hperform
      exact ⟨hws' hws, hudp' hudp⟩

theorem waits_of_quiet {g : Goroutine R S} (hs : s.Quiet c) (hfree : s.free g = true) :
    (routine c g).Waits s.shared (s.counter g) := by
  intro a ha
  have hnone := hs g a ha
  simp only [step, hfree, if_true] at hnone
  exact Option.map_eq_none_iff.mp hnone

/-- A quiet session has closed its connections. -/
theorem shut_of_quiet (hc : s.shared.cancelled = true) (hclosing : Closing s)
    (hs : s.Quiet c) : s.shared.Shut := by
  have hret : s.counter .closer = .returned :=
    Closer.returned_of_waits hc (waits_of_quiet (g := .closer) hs rfl)
  obtain ⟨hws, hudp⟩ := hclosing hret
  exact ⟨hc, hws, hudp⟩

theorem holder_of_lockFree {p : PacketRecv} (h : s.lockFree p ≠ true) :
    ∃ sid j, (s.counter (.packetRecv j)).holds sid = true := by
  cases p with
  | locking sid =>
    simp only [State.lockFree, ne_eq, List.all_eq_true, not_forall, Bool.not_eq_true,
      Bool.not_eq_false'] at h
    obtain ⟨j, -, hj⟩ := h
    exact ⟨sid, j, hj⟩
  | _ => exact absurd rfl h

/-- A worker of `packetRecv` that waits for a lock waits for another one, which waits for room
in `FromTun`. -/
theorem packetRecv_quiet (hshut : s.shared.Shut) (hs : s.Quiet c) (i : Fin R) :
    s.counter (.packetRecv i) = .returned ∨
      s.shared.fromTun.len = 256 ∧ ∃ j, 0 < (s.counter (.packetRecv j)).pushes := by
  have hblocked : ∀ j, s.free (.packetRecv j) = true →
      s.counter (.packetRecv j) = .returned ∨
        s.shared.fromTun.len = 256 ∧ 0 < (s.counter (.packetRecv j)).pushes :=
    fun j hfree => PacketRecv.blocked_of_waits hshut (waits_of_quiet hs hfree)
  by_cases hfree : s.free (.packetRecv i) = true
  · refine (hblocked i hfree).imp_right ?_
    rintro ⟨hfull, hpos⟩
    exact ⟨hfull, i, hpos⟩
  · -- somebody holds the lock, and who holds it does not wait for one
    obtain ⟨sid, j, hholds⟩ := holder_of_lockFree hfree
    cases hj : s.counter (.packetRecv j) with
    | draining sid' rest =>
      have hfreej : s.free (.packetRecv j) = true := by
        show s.lockFree (s.counter (.packetRecv j)) = true
        rw [hj]
        rfl
      obtain hret | ⟨hfull, hpos⟩ := hblocked j hfreej
      · rw [hj] at hret
        cases hret
      · exact Or.inr ⟨hfull, j, hpos⟩
    | _ =>
      rw [hj] at hholds
      cases hholds

/-- **A quiet session is over or doomed.** -/
theorem over_or_doomed (hc : s.shared.cancelled = true) (hclosing : Closing s)
    (hs : s.Quiet c) : s.Over c ∨ s.Doomed := by
  have hshut := shut_of_quiet hc hclosing hs
  have hsend : ∀ i, s.counter (.packetSend i) = .returned :=
    fun i => PacketSend.returned_of_waits hshut (waits_of_quiet (g := .packetSend i) hs rfl)
  -- a goroutine that waits for room dooms the session
  have hdoom : ∀ g : Goroutine R S, s.shared.fromTun.len = 256 →
      0 < g.pushes (s.counter g) → s.Doomed := by
    intro g hfull hpos
    have hle := rank_le_total Goroutine.pushes s.counter g
    refine ⟨hsend, ?_⟩
    unfold State.load
    omega
  by_cases hdoomed : s.Doomed
  · exact Or.inr hdoomed
  refine Or.inl fun g => ?_
  cases g with
  | controlRecv =>
    exact ControlRecv.returned_of_waits hshut (waits_of_quiet (g := .controlRecv) hs rfl)
  | controlSend =>
    exact ControlSend.returned_of_waits hshut (waits_of_quiet (g := .controlSend) hs rfl)
  | heartbeat => exact Heartbeat.returned_of_waits hshut (waits_of_quiet (g := .heartbeat) hs rfl)
  | packetRecv i =>
    obtain hret | ⟨hfull, j, hpos⟩ := packetRecv_quiet hshut hs i
    · exact hret
    · exact absurd (hdoom (.packetRecv j) hfull hpos) hdoomed
  | packetSend i => exact hsend i
  | handleP2P => exact HandleP2P.returned_of_waits hshut (waits_of_quiet (g := .handleP2P) hs rfl)
  | testBroadCast =>
    obtain hret | ⟨hfull, hpos⟩ := TestBroadCast.blocked_of_waits hshut
      (waits_of_quiet (g := .testBroadCast) hs rfl)
    · exact hret
    · exact absurd (hdoom .testBroadCast hfull hpos) hdoomed
  | closer => exact Closer.returned_of_waits hc (waits_of_quiet (g := .closer) hs rfl)

/-! ### Main results -/

/-- **A cancelled session winds down**: without new input it makes at most `rank` steps, and
when nobody has a step left to make, all goroutines have returned or it is doomed. -/
theorem session_winds_down {fromTun : Chan Bytes 256} {controlSendChan : Chan GamePacket 16}
    (hs : (machine c R S fromTun controlSendChan).Reach s) (hc : s.shared.cancelled = true)
    {as : List (Act R S)}
    (hrun : (machine c R S fromTun controlSendChan).runVia (fun _ a => a.input c = false) s as =
      some t) :
    as.length ≤ s.rank c ∧ (t.Quiet c → t.Over c ∨ t.Doomed) := by
  have hclosing : Closing s := by
    refine hs.invariant ?_ fun hP hstep => closing_step hP hstep
    intro hret
    cases hret
  obtain ⟨hlen, hct, hclosingt⟩ := Machine.runVia_length_le
    (I := fun s => s.shared.cancelled = true ∧ Closing s) (r := fun s => s.rank c)
    (fun hI _ hstep => ⟨cancelled_step hI.1 hstep, closing_step hI.2 hstep⟩)
    (fun hI hok hstep => rank_step hI.1 hok hstep) ⟨hc, hclosing⟩ hrun
  exact ⟨Nat.le_trans (Nat.le_add_right _ _) hlen, over_or_doomed hct hclosingt⟩

section Instances

/-- A client without P2P that does not send test broadcasts. -/
def plainConfig : Config :=
  { localIp := .four 10 10 0 2, bch := [], enableP2P := false, testFlag := false }

/-- The goroutines of a session with one worker of each kind, in the order in which they leave
after the cancellation. -/
def leaving : List (Act 1 1) :=
  [.go .controlRecv .exit, .go .controlSend .exit, .go .heartbeat .exit,
    .go (.packetRecv (Fin.last 0)) .exit, .go (.packetSend (Fin.last 0)) .exit, .go .closer .wake,
    .go .controlRecv .close, .go .controlRecv .leave, .go .closer .close]

/-- All goroutines of a session without traffic leave, and then it is quiet. -/
theorem session_winds_down_idle : ∃ s t : State 1 1,
    (machine plainConfig 1 1 .empty .empty).Reach s ∧ s.shared.cancelled = true ∧
    (machine plainConfig 1 1 .empty .empty).runVia (fun _ a => a.input plainConfig = false) s
      leaving = some t ∧
    leaving.length ≤ s.rank plainConfig ∧
    t.Quiet plainConfig ∧ (t.Over plainConfig ∨ t.Doomed) := by
  obtain ⟨s, hs, hc, hrun⟩ : ∃ s, (machine plainConfig 1 1 .empty .empty).Reach s ∧
      s.shared.cancelled = true ∧ (((machine plainConfig 1 1 .empty .empty).runVia
        (fun _ a => a.input plainConfig = false) s leaving).any
          fun t => t.rank plainConfig == 0) = true :=
    Machine.exists_reach [.cancel] (by decide +kernel)
  obtain ⟨t, ht, hrank⟩ := (Option.any_eq_true _ _).mp hrun
  have hquiet : t.Quiet plainConfig := (over_of_rank (beq_iff_eq.mp hrank)).quiet
  obtain ⟨hlen, hend⟩ := session_winds_down hs hc ht
  exact ⟨s, t, hs, hc, ht, hlen, hquiet, hend hquiet⟩

end Instances

/-- **A doomed session never ends**, whatever the network, the clock, the TUN device and the
user do. -/
theorem doomed_forever {fromTun : Chan Bytes 256} {controlSendChan : Chan GamePacket 16}
    (hs : s.Doomed)
    (hpath : (machine c R S fromTun controlSendChan).PathVia (fun _ _ => True) s t) :
    t.Doomed ∧ ¬ t.Over c := by
  have ht : t.Doomed := hpath.invariant hs fun _ hP _ hstep => hP.step hstep
  exact ⟨ht, ht.not_over⟩

/-- `FromTun` is full when a handshake completes, with one packet waiting. The context is
cancelled and the worker of `packetSend` leaves. -/
def overfull : List (Act 1 1) :=
  List.replicate 256 (.tun (List.replicate 20 0)) ++
    [.go (.packetRecv (Fin.last 0)) .enter, .go (.packetRecv (Fin.last 0)) (.datagram (.waits 0)),
      .go (.packetRecv (Fin.last 0)) (.lock (.completes [List.replicate 20 0])), .cancel,
      .go (.packetSend (Fin.last 0)) .exit]

theorem doomed_forever_overfull : ∃ s : State 1 1,
    (machine plainConfig 1 1 .empty .empty).Reach s ∧ s.Doomed ∧
    ∀ t, (machine plainConfig 1 1 .empty .empty).PathVia (fun _ _ => True) s t →
      t.Doomed ∧ ¬ t.Over plainConfig := by
  obtain ⟨s, hs, hgone, hfull⟩ : ∃ s, (machine plainConfig 1 1 .empty .empty).Reach s ∧
      (∀ i, (s.counter (.packetSend i)).rank = 0) ∧ 256 < s.load :=
    Machine.exists_reach overfull (by decide +kernel)
  have hdoomed : s.Doomed := ⟨fun i => packetSend.eq_returned (hgone i), hfull⟩
  exact ⟨s, hs, hdoomed, fun t hpath => doomed_forever hdoomed hpath⟩

end EasyTun.Transport.Session
