import EasyTun.Lib.Machine
import EasyTun.Protocol.Noise

/-!
# Packets that wait for a handshake

A packet for a peer without keys waits in the pending queue of a session object
and is put back on `tunChan` when that object becomes ready. The queue belongs to
the object, not to the table entry, and nothing moves packets from one object to
another. So whether a packet survives depends on whether its object is the one
that completes.

The machine has one manager and one peer. Its steps are whole calls:
`HandshakeInit`, `AddPendingData` on any session object ever made (the caller of
`GetSession` may hold one the table no longer has), and `HandleNoisePacket`.
`accepted` is the list of everything that entered a queue, in that order.

- `Inv`: an object that is not ready is the table's own, and `tunChan` followed
  by what waits in it is `accepted`;
- `Calm`: the steps that do not replace an object that still waits;
- `delivered_when_ready`: in calm runs, `tunChan` is `accepted` whenever the
  entry is ready;
- `yield_loses`: the larger address yields, and the queued packet is gone.

The Noise library is any implementation `N : Ops D`.
-/

namespace EasyTun.Protocol

open EasyTun.Lib
open EasyTun.Lib.NoiseIK

namespace NoiseSession

variable {α : Type}

/-- `AddPendingData` would take another packet: the queue is open and not full. -/
def accepts (s : NoiseSession α) : Bool :=
  !s.pendingClosed && decide (s.pendingChan.length < pendingCap)

/-- What the session has queued, as long as it waits. -/
def waiting (s : NoiseSession α) : List α := if s.isReady then [] else s.pendingChan

theorem addPendingData_of_accepts {s : NoiseSession α} (h : s.accepts = true) (data : α) :
    s.addPendingData data = { s with pendingChan := s.pendingChan ++ [data] } := by
  rw [accepts, Bool.and_eq_true, Bool.not_eq_true', decide_eq_true_eq] at h
  rw [addPendingData, h.1, if_neg Bool.false_ne_true, if_pos h.2]

theorem addPendingData_of_not_accepts {s : NoiseSession α} (h : s.accepts = false) (data : α) :
    s.addPendingData data = s := by
  rw [accepts, Bool.and_eq_false_iff, Bool.not_eq_false', decide_eq_false_iff_not] at h
  unfold addPendingData
  rcases h with hclosed | hfull
  · rw [if_pos hclosed]
  · rw [if_neg hfull, ite_self]

/-- Queueing does not touch the cipher. -/
theorem isReady_addPendingData (s : NoiseSession α) (data : α) :
    (s.addPendingData data).isReady = s.isReady := by
  cases hacc : s.accepts with
  | true => rw [addPendingData_of_accepts hacc]; rfl
  | false => rw [addPendingData_of_not_accepts hacc]

theorem waiting_of_not_ready {s : NoiseSession α} (h : s.isReady = false) :
    s.waiting = s.pendingChan :=
  if_neg (by rw [h]; exact Bool.false_ne_true)

/-- What an unready session accepts waits behind the rest. -/
theorem waiting_addPendingData {s : NoiseSession α} (hready : s.isReady = false)
    (hacc : s.accepts = true) (data : α) :
    (s.addPendingData data).waiting = s.waiting ++ [data] := by
  have hready' : (s.addPendingData data).isReady = false := by
    rw [isReady_addPendingData, hready]
  rw [waiting_of_not_ready hready', waiting_of_not_ready hready, addPendingData_of_accepts hacc]

/-- A session is settled when it is ready, closed and drained. -/
structure Settled (s : NoiseSession α) : Prop where
  ready : s.isReady = true
  closed : s.pendingClosed = true
  drained : s.pendingChan = []

theorem Settled.waiting {s : NoiseSession α} (h : s.Settled) : s.waiting = [] :=
  if_pos h.ready

theorem Settled.accepts {s : NoiseSession α} (h : s.Settled) : s.accepts = false := by
  rw [NoiseSession.accepts, h.closed]
  rfl

end NoiseSession

/-! ## The machine -/

/-- One manager and everything its sessions with the peer ever queued. -/
structure Pending (α : Type) where
  mgr : NoiseManager α
  accepted : List α

namespace Pending

variable {α D : Type}

/-- The calls, with what they draw from the environment. -/
inductive Act (α D : Type) where
  | handshakeInit (remotePub : PublicKey) (payload : α) (eph : Nat) (now : Int)
  | addPendingData (sid : SessionId) (data : α)
  | handleNoisePacket (data : D) (eph : Nat) (now : Int)

/-- A manager that has not met the peer. -/
def start (staticPub : PublicKey) (myVip : ByteArr 4) : Pending α where
  mgr := .new staticPub myVip
  accepted := []

/-- One call about the peer. -/
def step (N : Ops D) (peer : ByteArr 4) (s : Pending α) : Act α D → Option (Pending α)
  | .handshakeInit remotePub payload eph now =>
    -- a fresh queue has room for the payload
    some { mgr := (s.mgr.handshakeInit N peer remotePub payload eph now).2
           accepted := s.accepted ++ [payload] }
  | .addPendingData sid data =>
    guardTo (sid < s.mgr.next)
      { mgr := s.mgr.modify sid (·.addPendingData data)
        accepted := if (s.mgr.heap sid).accepts then s.accepted ++ [data] else s.accepted }
  | .handleNoisePacket data eph now =>
    some { s with mgr := (s.mgr.handleNoisePacket N peer data eph now).1 }

/-- One manager with one peer. -/
def machine (N : Ops D) (staticPub : PublicKey) (myVip peer : ByteArr 4) :
    Machine (Pending α) (Act α D) where
  init := start staticPub myVip
  step := step N peer

/-- The entry for the peer is a session that still waits for its reply. -/
def Waits (peer : ByteArr 4) (s : Pending α) : Prop :=
  (s.mgr.getSession peer).any (fun sid => !(s.mgr.heap sid).isReady) = true

instance (peer : ByteArr 4) (s : Pending α) : Decidable (s.Waits peer) :=
  inferInstanceAs (Decidable (_ = true))

/-- The call makes the manager yield: a readable first message comes from a
smaller address while its own session waits. -/
def Yields (N : Ops D) (peer : ByteArr 4) (s : Pending α) (data : D) : Prop :=
  s.Waits peer ∧ peer.1 < s.mgr.myVip.1 ∧ 64 ≤ N.len data ∧
    (N.readFirst s.mgr.staticPub data).isSome = true

instance (N : Ops D) (peer : ByteArr 4) (s : Pending α) (data : D) :
    Decidable (s.Yields N peer data) :=
  inferInstanceAs (Decidable (_ ∧ _))

/-- **The condition**: no call replaces a session that still waits. `HandshakeInit`
comes when there is no entry or a ready one, and the manager never yields. -/
def Calm (N : Ops D) (peer : ByteArr 4) (s : Pending α) : Act α D → Prop
  | .handshakeInit .. => ¬ s.Waits peer
  | .addPendingData .. => True
  | .handleNoisePacket data _ _ => ¬ s.Yields N peer data

instance (N : Ops D) (peer : ByteArr 4) (s : Pending α) (a : Act α D) :
    Decidable (Calm N peer s a) :=
  match a with
  | .handshakeInit .. => inferInstanceAs (Decidable (¬ _))
  | .addPendingData .. => instDecidableTrue
  | .handleNoisePacket .. => inferInstanceAs (Decidable (¬ _))

/-! ## The invariant -/

/-- What waits in the entry's session. -/
def waiting (peer : ByteArr 4) (m : NoiseManager α) : List α :=
  (m.getSession peer).elim [] fun sid => (m.heap sid).waiting

/-- Nothing is lost and nothing is sent twice: every object is settled unless it
is the entry's, and `tunChan` and the entry's queue together are `accepted`. -/
structure Inv (peer : ByteArr 4) (m : NoiseManager α) (accepted : List α) : Prop where
  entry_lt : ∀ sid, m.getSession peer = some sid → sid < m.next
  settled : ∀ sid, sid < m.next → (m.heap sid).Settled ∨
    m.getSession peer = some sid ∧ (m.heap sid).isReady = false
  conserved : m.tunChan ++ waiting peer m = accepted

section Step

variable {peer : ByteArr 4} {m : NoiseManager α} {accepted : List α}

open NoiseManager (getSession_install heap_install heap_install_of_lt heap_modify
  heap_modify_of_ne heap_sendAllPendingData heap_sendAllPendingData_of_ne)

theorem waiting_eq {sid : SessionId} (hent : m.getSession peer = some sid) :
    waiting peer m = (m.heap sid).waiting := by
  rw [waiting, hent]
  rfl

/-- Where no entry waits, every object is settled. -/
theorem Inv.all_settled (h : Inv peer m accepted)
    (hcalm : ∀ sid, m.getSession peer = some sid → (m.heap sid).isReady = true)
    {sid : SessionId} (hlt : sid < m.next) : (m.heap sid).Settled := by
  rcases h.settled sid hlt with hs | ⟨hent, hready⟩
  · exact hs
  · rw [hcalm sid hent] at hready
    cases hready

/-- Where no entry waits, everything accepted is on `tunChan`. -/
theorem Inv.tunChan_eq (h : Inv peer m accepted)
    (hcalm : ∀ sid, m.getSession peer = some sid → (m.heap sid).isReady = true) :
    m.tunChan = accepted := by
  have hnone : waiting peer m = [] := by
    unfold waiting
    cases hent : m.getSession peer with
    | none => rfl
    | some sid => exact (h.all_settled hcalm (h.entry_lt sid hent)).waiting
  have hcons := h.conserved
  rwa [hnone, List.append_nil] at hcons

/-- A new session may take the place of a settled one: its queue is what waits. -/
theorem Inv.install (h : Inv peer m accepted)
    (hcalm : ∀ sid, m.getSession peer = some sid → (m.heap sid).isReady = true)
    {s : NoiseSession α} (hs : s.Settled ∨ s.isReady = false) :
    Inv peer (m.install peer s) (accepted ++ s.waiting) where
  entry_lt := by
    intro sid hent
    rw [getSession_install] at hent
    cases hent
    exact Nat.lt_succ_self _
  settled := by
    intro sid hlt
    rcases Nat.lt_succ_iff_lt_or_eq.mp hlt with hold | hnew
    · rw [heap_install_of_lt m peer s hold]
      exact Or.inl (h.all_settled hcalm hold)
    · rw [hnew, heap_install, getSession_install]
      exact hs.imp id fun hready => ⟨rfl, hready⟩
  conserved := by
    rw [waiting_eq (getSession_install m peer s), heap_install, ← h.tunChan_eq hcalm]
    rfl

/-- The entry's session takes another packet. -/
theorem Inv.push (h : Inv peer m accepted) {sid : SessionId} (hlt : sid < m.next)
    (hacc : (m.heap sid).accepts = true) (data : α) :
    Inv peer (m.modify sid (·.addPendingData data)) (accepted ++ [data]) := by
  -- a settled session accepts nothing, so this is the entry's
  obtain ⟨hent, hready⟩ : m.getSession peer = some sid ∧ (m.heap sid).isReady = false := by
    rcases h.settled sid hlt with hs | hcur
    · rw [hs.accepts] at hacc
      cases hacc
    · exact hcur
  have hself : (m.modify sid (·.addPendingData data)).heap sid
      = (m.heap sid).addPendingData data :=
    heap_modify m sid _
  have hent' : (m.modify sid (·.addPendingData data)).getSession peer = some sid := hent
  constructor
  · exact h.entry_lt
  · intro i hi
    by_cases heq : i = sid
    · subst heq
      refine Or.inr ⟨hent', ?_⟩
      rw [hself, NoiseSession.isReady_addPendingData]
      exact hready
    · rw [heap_modify_of_ne m heq]
      exact h.settled i hi
  · have hcons := h.conserved
    rw [waiting_eq hent] at hcons
    rw [waiting_eq hent', hself, NoiseSession.waiting_addPendingData hready hacc, ← hcons,
      List.append_assoc]
    rfl

/-- The entry's session reads its reply: its queue goes to `tunChan`. -/
theorem Inv.complete (h : Inv peer m accepted) {sid : SessionId}
    (hent : m.getSession peer = some sid) (hready : (m.heap sid).isReady = false)
    (t : Transcript) :
    Inv peer ((m.modify sid (·.complete t)).sendAllPendingData sid) accepted := by
  let m' := (m.modify sid (·.complete t)).sendAllPendingData sid
  have hmid : (m.modify sid (·.complete t)).heap sid = (m.heap sid).complete t :=
    heap_modify m sid _
  have hsettled : (m'.heap sid).Settled := by
    rw [heap_sendAllPendingData, hmid]
    exact ⟨rfl, rfl, rfl⟩
  have hent' : m'.getSession peer = some sid := hent
  have htun : m'.tunChan = m.tunChan ++ (m.heap sid).pendingChan := by
    show m.tunChan ++ ((m.modify sid (·.complete t)).heap sid).pendingChan = _
    rw [hmid]
    rfl
  constructor
  · exact h.entry_lt
  · intro i hi
    by_cases heq : i = sid
    · subst heq
      exact Or.inl hsettled
    · have hother : m'.heap i = m.heap i := by
        rw [heap_sendAllPendingData_of_ne _ heq, heap_modify_of_ne m heq]
      rcases h.settled i hi with hs | ⟨hcur, -⟩
      · exact Or.inl (hother ▸ hs)
      · rw [hent] at hcur
        cases hcur
        exact absurd rfl heq
  · have hcons := h.conserved
    rw [waiting_eq hent, NoiseSession.waiting_of_not_ready hready] at hcons
    show m'.tunChan ++ waiting peer m' = accepted
    rw [waiting_eq hent', hsettled.waiting, List.append_nil, htun, hcons]

/-- A responder has nothing queued. -/
theorem Inv.handleResponderFirst (h : Inv peer m accepted) (N : Ops D) (data : D) (eph : Nat)
    (now : Int)
    (hcalm : ∀ sid, m.getSession peer = some sid →
      (N.readFirst m.staticPub data).isSome = true → (m.heap sid).isReady = true) :
    Inv peer (m.handleResponderFirst N peer data eph now).1 accepted := by
  unfold NoiseManager.handleResponderFirst
  cases hread : N.readFirst m.staticPub data with
  | none => exact h
  | some first =>
    rw [hread] at hcalm
    let s : NoiseSession α := .responder peer ⟨first, eph⟩ now
    have hinst : Inv peer (m.install peer s) accepted := by
      have hs := h.install (fun sid hent => hcalm sid hent rfl)
        (Or.inl ⟨rfl, rfl, rfl⟩ : s.Settled ∨ s.isReady = false)
      rwa [show s.waiting = [] from rfl, List.append_nil] at hs
    -- its own queue is empty, so `SendAllPendingData` does nothing
    have hsame : (m.install peer s).sendAllPendingData m.next = m.install peer s := by
      unfold NoiseManager.sendAllPendingData NoiseManager.modify
      rw [heap_install, show s.pendingChan = [] from rfl, List.append_nil]
      have hheap : Function.update (m.install peer s).heap m.next { s with pendingChan := [] }
          = (m.install peer s).heap := by
        rw [Function.update_eq_self_iff, heap_install]
        rfl
      rw [hheap]
    show Inv peer ((m.install peer s).sendAllPendingData m.next) accepted
    rw [hsame]
    exact hinst

/-- **`HandleNoisePacket` loses nothing**, unless it yields. -/
theorem Inv.handleNoisePacket (h : Inv peer m accepted) (N : Ops D) (data : D) (eph : Nat)
    (now : Int)
    (hcalm : ∀ sid, m.getSession peer = some sid → (m.heap sid).isReady = false →
      peer.1 < m.myVip.1 → 64 ≤ N.len data → (N.readFirst m.staticPub data).isSome = false) :
    Inv peer (m.handleNoisePacket N peer data eph now).1 accepted := by
  unfold NoiseManager.handleNoisePacket
  cases hent : m.getSession peer with
  | none =>
    refine h.handleResponderFirst N data eph now fun sid hsid => ?_
    rw [hent] at hsid
    cases hsid
  | some sid =>
    simp only
    by_cases hready : (m.heap sid).isReady = true
    · rw [if_pos hready]
      exact h
    rw [if_neg hready]
    rw [Bool.not_eq_true] at hready
    simp only [NoiseManager.lockedBody, hready, Bool.false_eq_true, if_false]
    split
    · next hlong =>
      split
      · -- the larger address would yield, but the message is not a first message
        next hlt =>
        have hnone := hcalm sid hent hready hlt hlong.2
        refine h.handleResponderFirst N data eph now fun i _ hsome => ?_
        rw [hnone] at hsome
        cases hsome
      · exact h
    · split
      · split
        · exact h
        · next t _ => exact h.complete hent hready t
      · exact h

/-- One calm call keeps the invariant. -/
theorem Inv.step {N : Ops D} {s t : Pending α} {a : Act α D}
    (h : Inv peer s.mgr s.accepted) (hok : Calm N peer s a) (hs : step N peer s a = some t) :
    Inv peer t.mgr t.accepted := by
  have hready : ¬ s.Waits peer → ∀ sid, s.mgr.getSession peer = some sid →
      (s.mgr.heap sid).isReady = true := by
    intro hw sid hent
    rw [Waits, hent, Option.any_some, Bool.not_eq_true', Bool.not_eq_false] at hw
    exact hw
  cases a with
  | handshakeInit remotePub payload eph now =>
    cases hs
    let hs : First := { initiator := s.mgr.staticPub, responder := remotePub, eph }
    let session : NoiseSession α :=
      (NoiseSession.new peer true (some hs) now).addPendingData payload
    have hinst : Inv peer (s.mgr.install peer session) (s.accepted ++ session.waiting) :=
      h.install (hready hok) (Or.inr rfl)
    exact hinst
  | addPendingData sid data =>
    obtain ⟨hlt, rfl⟩ := guardTo_eq_some.mp hs
    cases hacc : (s.mgr.heap sid).accepts with
    | true =>
      simp only [if_true]
      exact h.push hlt hacc data
    | false =>
      simp only [Bool.false_eq_true, if_false]
      have hsame : s.mgr.modify sid (·.addPendingData data) = s.mgr := by
        unfold NoiseManager.modify
        beta_reduce
        rw [NoiseSession.addPendingData_of_not_accepts hacc, Function.update_eq_self]
      rw [hsame]
      exact h
  | handleNoisePacket data eph now =>
    cases hs
    refine h.handleNoisePacket N data eph now fun sid hent hwait hlt hlen => ?_
    rw [← Bool.not_eq_true]
    intro hread
    refine hok ⟨?_, hlt, hlen, hread⟩
    rw [Waits, hent, Option.any_some, hwait]
    rfl

end Step

/-! ## Runs -/

variable {N : Ops D} {staticPub : PublicKey} {myVip peer : ByteArr 4} {s : Pending α}

theorem inv (h : (machine N staticPub myVip peer).ReachVia (Calm N peer) s) :
    Inv peer s.mgr s.accepted := by
  refine h.invariant (P := fun s => Inv peer s.mgr s.accepted) ?_
    fun _ hinv hok hs => hinv.step hok hs
  constructor
  · intro sid hent
    cases hent
  · intro sid hlt
    exact absurd hlt (Nat.not_lt_zero _)
  · rfl

/-- **Queued packets survive calm handshakes**: whenever the entry for the peer is
ready, what was put on `tunChan` is exactly what was accepted, in that order. -/
theorem delivered_when_ready (N : Ops D) (staticPub : PublicKey) (myVip peer : ByteArr 4)
    (s : Pending α) (h : (machine N staticPub myVip peer).ReachVia (Calm N peer) s)
    (sid : SessionId) (hent : s.mgr.getSession peer = some sid)
    (hready : (s.mgr.heap sid).isReady = true) : s.mgr.tunChan = s.accepted := by
  refine (inv h).tunChan_eq fun i hi => ?_
  rw [hent] at hi
  cases hi
  exact hready

/-- A handshake that completes: one packet comes with it, a second is queued. -/
theorem delivered_when_ready_two :
    ∃ s : Pending Bytes,
      ((machine ideal (.ofBytes 32 [1]) (.ofBytes 4 [10, 0, 6, 3])
          (.ofBytes 4 [10, 0, 6, 2])).ReachVia (Calm ideal (.ofBytes 4 [10, 0, 6, 2])) s ∧
        s.mgr.getSession (.ofBytes 4 [10, 0, 6, 2]) = some 0 ∧
        (s.mgr.heap 0).isReady = true ∧ s.accepted = [[69, 1], [69, 2]]) ∧
      s.mgr.tunChan = s.accepted := by
  let first : First := ⟨.ofBytes 32 [1], .ofBytes 32 [2], 7⟩
  obtain ⟨s, hreach, hent, hready, hacc⟩ :
      ∃ s : Pending Bytes,
        (machine ideal (.ofBytes 32 [1]) (.ofBytes 4 [10, 0, 6, 3])
          (.ofBytes 4 [10, 0, 6, 2])).ReachVia (Calm ideal (.ofBytes 4 [10, 0, 6, 2])) s ∧
        s.mgr.getSession (.ofBytes 4 [10, 0, 6, 2]) = some 0 ∧
        (s.mgr.heap 0).isReady = true ∧ s.accepted = [[69, 1], [69, 2]] :=
    Machine.exists_reachVia [.handshakeInit (.ofBytes 32 [2]) [69, 1] 7 0,
      .addPendingData 0 [69, 2], .handleNoisePacket (.reply ⟨first, 8⟩) 0 0] (by decide +kernel)
  exact ⟨s, ⟨hreach, hent, hready, hacc⟩, delivered_when_ready ideal (.ofBytes 32 [1])
    (.ofBytes 4 [10, 0, 6, 3]) (.ofBytes 4 [10, 0, 6, 2]) s hreach 0 hent hready⟩

/-- **The larger address loses what it queued**: it opens a handshake with a
packet, the first messages cross, it yields and is ready as responder, and the
packet was sent to nobody. -/
theorem yield_loses :
    ∃ s : Pending Bytes,
      (machine ideal (.ofBytes 32 [1]) (.ofBytes 4 [10, 0, 6, 3])
        (.ofBytes 4 [10, 0, 6, 2])).Reach s ∧
      s.mgr.getSession (.ofBytes 4 [10, 0, 6, 2]) = some 1 ∧ (s.mgr.heap 1).isReady = true ∧
      s.accepted = [[69, 1]] ∧ s.mgr.tunChan = [] :=
  Machine.exists_reach [.handshakeInit (.ofBytes 32 [2]) [69, 1] 7 0,
    .handleNoisePacket (.first ⟨.ofBytes 32 [2], .ofBytes 32 [1], 8⟩) 9 0] (by decide +kernel)

end Pending

end EasyTun.Protocol
