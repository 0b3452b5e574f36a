import Mathlib.Algebra.BigOperators.Fin
import Mathlib.Algebra.Order.Group.Multiset
import Mathlib.Tactic.Abel
import EasyTun.Lib.Machine
import EasyTun.Protocol.Noise

/-!
# Closing the pending queue (`internal/protocol/noise.go`)

While a handshake is under way the send workers put their packets into the session's
`pendingChan`. The receive worker that completes the handshake marks the cipher ready,
sets `pendingClosed`, closes the channel and empties it into `tunChan`. Cipher, flag and
channel are three objects, and between looking at one and touching the next a worker
can be overtaken. Here each access is a step of its own.

- `added_alone`, `completed_alone`: run without interruption, the steps are
  `addPendingData`, `complete` and `sendAllPendingData` of the session model.
- `account`: **every packet is somewhere**: dropped at a full queue, ignored because the
  flag was set, on `tunChan`, in the queue, or in the hands of a worker.
- `nothing_lost_to_close`: if the flag is set only while no worker is between its test
  of the cipher and its load of the flag, and the channel closed only while none is between
  that load and its send, **no send meets a closed channel, and nothing is lost but at a
  full queue**.
- `close_races`: nothing in the code ensures that, and otherwise both happen.
-/

namespace EasyTun.Protocol

open EasyTun.Lib
open EasyTun.Lib.NoiseIK

/-! ## The model -/

namespace ClosingQueue

/-- Where a `packetSend` worker is with a packet (client_udp.go:77–79, noise.go:87–96). -/
inductive Worker (α : Type) where
  | idle
  /-- `IsReady` was false, and it calls `AddPendingData`. -/
  | unready (data : α)
  /-- `pendingClosed` was false, and it sends. -/
  | sending (data : α)

/-- The worker is between its test of the cipher and its load of `pendingClosed`. -/
def Worker.isUnready {α : Type} : Worker α → Bool
  | .unready _ => true
  | .idle | .sending _ => false

/-- The worker is between its load of `pendingClosed` and its send. -/
def Worker.isSending {α : Type} : Worker α → Bool
  | .sending _ => true
  | .idle | .unready _ => false

/-- Where the worker is that completes the handshake (noise.go:184–193). -/
inductive Phase (α : Type) where
  | waiting
  /-- `Init` has marked the cipher ready. -/
  | ready
  /-- `pendingClosed` is set. -/
  | flagged
  /-- The channel is closed, and `SendAllPendingData` runs; it may have received a packet
  that `tunChan` has no room for yet. -/
  | draining (held : Option α)
  | done

/-- `pendingClosed` has been set. -/
def Phase.isFlagged {α : Type} : Phase α → Bool
  | .waiting | .ready => false
  | .flagged | .draining _ | .done => true

/-- The channel has been closed. -/
def Phase.isClosed {α : Type} : Phase α → Bool
  | .waiting | .ready | .flagged => false
  | .draining _ | .done => true

/-- `SendAllPendingData` has returned. -/
def Phase.isDone {α : Type} : Phase α → Bool
  | .done => true
  | _ => false

end ClosingQueue

/-- A session, its channel, and the workers that use it. -/
structure ClosingQueue (n : Nat) (α : Type) where
  session : NoiseSession α
  chanClosed : Bool
  phase : ClosingQueue.Phase α
  worker : Fin n → ClosingQueue.Worker α
  /-- Everything that was put on `tunChan`. -/
  tunChan : List α
  /-- Everything that was handed to `AddPendingData`. -/
  handed : List α
  /-- What was dropped while the queue was full. -/
  full : List α
  /-- What was dropped because the flag was set. -/
  ignored : List α
  panicked : Bool

namespace ClosingQueue

variable {α : Type} {n : Nat}

/-- What the workers do, and the one that completes the handshake. -/
inductive Act (n : Nat) (α : Type) where
  /-- A worker finds the session not ready. -/
  | see (k : Fin n) (data : α)
  /-- It loads `pendingClosed`. -/
  | load (k : Fin n)
  /-- It sends, or finds the channel full. -/
  | send (k : Fin n)
  | init (t : Transcript)
  | flag
  | close
  | receive
  | forward
  | finish

/-- A worker goes on. -/
def setWorker (s : ClosingQueue n α) (k : Fin n) (w : Worker α) : ClosingQueue n α :=
  { s with worker := Function.update s.worker k w }

/-- `session.pendingChan <- data` in a `select` with a default. -/
def trySend (s : ClosingQueue n α) (data : α) : ClosingQueue n α :=
  -- on a closed channel it panics, with or without a default
  if s.chanClosed then { s with panicked := true }
  else if s.session.pendingChan.length < pendingCap then
    { s with session := { s.session with pendingChan := s.session.pendingChan ++ [data] } }
  else { s with full := s.full ++ [data] }

/-- The steps of a client that has not panicked. -/
def live (s : ClosingQueue n α) : Act n α → Option (ClosingQueue n α)
  | .see k data =>
    match s.worker k with
    | .idle => guardTo (s.session.isReady = false)
        { s.setWorker k (.unready data) with handed := s.handed ++ [data] }
    | _ => none
  | .load k =>
    match s.worker k with
    | .unready data =>
      if s.session.pendingClosed then
        some { s.setWorker k .idle with ignored := s.ignored ++ [data] }
      else some (s.setWorker k (.sending data))
    | _ => none
  | .send k =>
    match s.worker k with
    | .sending data => some ((s.trySend data).setWorker k .idle)
    | _ => none
  | .init t =>
    match s.phase with
    | .waiting => some { s with
        session := { s.session with cipher := .init ⟨t, .cs1⟩ ⟨t, .cs2⟩, hs := none }
        phase := .ready }
    | _ => none
  | .flag =>
    match s.phase with
    | .ready => some { s with session := s.session.closePending, phase := .flagged }
    | _ => none
  | .close =>
    match s.phase with
    | .flagged => some { s with chanClosed := true, phase := .draining none }
    | _ => none
  | .receive =>
    match s.phase, s.session.pendingChan with
    | .draining none, data :: rest => some { s with
        session := { s.session with pendingChan := rest }, phase := .draining (some data) }
    | _, _ => none
  | .forward =>
    match s.phase with
    | .draining (some data) =>
      some { s with tunChan := s.tunChan ++ [data], phase := .draining none }
    | _ => none
  | .finish =>
    match s.phase, s.session.pendingChan with
    | .draining none, [] => some { s with phase := .done }
    | _, _ => none

/-- One step. After a panic there is none. -/
def step (s : ClosingQueue n α) (a : Act n α) : Option (ClosingQueue n α) :=
  if s.panicked then none else s.live a

/-- A session that waits for its reply, with what `HandshakeInit` has queued. -/
def start (n : Nat) (session : NoiseSession α) : ClosingQueue n α :=
  { session, chanClosed := false, phase := .waiting, worker := fun _ => .idle, tunChan := []
    handed := session.pendingChan, full := [], ignored := [], panicked := false }

/-- A session that is not ready, with `n` workers. -/
def machine (n : Nat) (session : NoiseSession α) : Machine (ClosingQueue n α) (Act n α) :=
  { init := start n session, step := step }

/-! ## The steps -/

/-- What a step does. -/
inductive Does (s : ClosingQueue n α) : Act n α → ClosingQueue n α → Prop where
  | see {k : Fin n} {data : α} (hk : s.worker k = .idle) (hready : s.session.isReady = false) :
      Does s (.see k data) { s.setWorker k (.unready data) with handed := s.handed ++ [data] }
  | ignore {k : Fin n} {data : α} (hk : s.worker k = .unready data)
      (hclosed : s.session.pendingClosed = true) :
      Does s (.load k) { s.setWorker k .idle with ignored := s.ignored ++ [data] }
  | pass {k : Fin n} {data : α} (hk : s.worker k = .unready data)
      (hopen : s.session.pendingClosed = false) : Does s (.load k) (s.setWorker k (.sending data))
  | panic {k : Fin n} {data : α} (hk : s.worker k = .sending data) (hclosed : s.chanClosed = true) :
      Does s (.send k) ({ s with panicked := true }.setWorker k .idle)
  | queue {k : Fin n} {data : α} (hk : s.worker k = .sending data) (hopen : s.chanClosed = false)
      (hroom : s.session.pendingChan.length < pendingCap) :
      Does s (.send k) ({ s with session := { s.session with
        pendingChan := s.session.pendingChan ++ [data] } }.setWorker k .idle)
  | drop {k : Fin n} {data : α} (hk : s.worker k = .sending data) (hopen : s.chanClosed = false)
      (hfull : pendingCap ≤ s.session.pendingChan.length) :
      Does s (.send k) ({ s with full := s.full ++ [data] }.setWorker k .idle)
  | init {t : Transcript} (hphase : s.phase = .waiting) :
      Does s (.init t) { s with
        session := { s.session with cipher := .init ⟨t, .cs1⟩ ⟨t, .cs2⟩, hs := none }
        phase := .ready }
  | flag (hphase : s.phase = .ready) :
      Does s .flag { s with session := s.session.closePending, phase := .flagged }
  | close (hphase : s.phase = .flagged) :
      Does s .close { s with chanClosed := true, phase := .draining none }
  | receive {data : α} {rest : List α} (hphase : s.phase = .draining none)
      (hqueue : s.session.pendingChan = data :: rest) :
      Does s .receive { s with
        session := { s.session with pendingChan := rest }, phase := .draining (some data) }
  | forward {data : α} (hphase : s.phase = .draining (some data)) :
      Does s .forward { s with tunChan := s.tunChan ++ [data], phase := .draining none }
  | finish (hphase : s.phase = .draining none) (hqueue : s.session.pendingChan = []) :
      Does s .finish { s with phase := .done }

variable {s s' : ClosingQueue n α} {a : Act n α}

/-- A send ends in one of three ways. -/
theorem does_send {k : Fin n} {data : α} (hk : s.worker k = .sending data) :
    Does s (.send k) ((s.trySend data).setWorker k .idle) := by
  unfold trySend
  split
  · next hclosed => exact .panic hk hclosed
  · next hopen =>
    split
    · next hroom => exact .queue hk (Bool.eq_false_iff.mpr hopen) hroom
    · next hfull => exact .drop hk (Bool.eq_false_iff.mpr hopen) (Nat.le_of_not_lt hfull)

/-- **Inversion.** -/
theorem does_of_step (h : step s a = some s') : s.panicked = false ∧ Does s a s' := by
  unfold step at h
  split at h
  · cases h
  · next hpanic =>
    refine ⟨Bool.eq_false_iff.mpr hpanic, ?_⟩
    cases a with
    | see k data =>
      simp only [live] at h
      split at h
      · next hk =>
        obtain ⟨hready, rfl⟩ := guardTo_eq_some.mp h
        exact .see hk hready
      · cases h
    | load k =>
      simp only [live] at h
      split at h
      · next data hk =>
        split at h
        · next hclosed =>
          cases h
          exact .ignore hk hclosed
        · next hopen =>
          cases h
          exact .pass hk (Bool.eq_false_iff.mpr hopen)
      · cases h
    | send k =>
      simp only [live] at h
      split at h
      · next data hk =>
        cases h
        exact does_send hk
      · cases h
    | init t =>
      simp only [live] at h
      split at h
      · next hphase =>
        cases h
        exact .init hphase
      · cases h
    | flag =>
      simp only [live] at h
      split at h
      · next hphase =>
        cases h
        exact .flag hphase
      · cases h
    | close =>
      simp only [live] at h
      split at h
      · next hphase =>
        cases h
        exact .close hphase
      · cases h
    | receive =>
      simp only [live] at h
      split at h
      · next data rest hphase hqueue =>
        cases h
        exact .receive hphase hqueue
      · cases h
    | forward =>
      simp only [live] at h
      split at h
      · next data hphase =>
        cases h
        exact .forward hphase
      · cases h
    | finish =>
      simp only [live] at h
      split at h
      · next hphase hqueue =>
        cases h
        exact .finish hphase hqueue
      · cases h

/-! ## Every packet is somewhere -/

/-- The packet a worker has. -/
def Worker.packets : Worker α → Multiset α
  | .idle => 0
  | .unready data | .sending data => {data}

/-- The packet between the two channels. -/
def Phase.packets : Phase α → Multiset α
  | .draining (some data) => {data}
  | _ => 0

/-- The packets in the hands of the workers. -/
def inHands (s : ClosingQueue n α) : Multiset α := ∑ k, (s.worker k).packets

/-- Where packets are, and where they ended. -/
def places (s : ClosingQueue n α) : Multiset α :=
  s.full + s.ignored + s.tunChan + s.phase.packets + s.session.pendingChan + s.inHands

theorem inHands_setWorker (s : ClosingQueue n α) (k : Fin n) (w : Worker α) :
    (s.setWorker k w).inHands + (s.worker k).packets = s.inHands + w.packets := by
  have hupdate : (fun j => (Function.update s.worker k w j).packets) =
      Function.update (fun j => (s.worker j).packets) k w.packets :=
    funext fun j => Function.apply_update (fun _ => Worker.packets) s.worker k w j
  have hsum : (s.setWorker k w).inHands =
      w.packets + ∑ j ∈ Finset.univ \ {k}, (s.worker j).packets := by
    show ∑ j, (Function.update s.worker k w j).packets = _
    rw [hupdate]
    exact Finset.sum_update_of_mem (Finset.mem_univ k) ..
  have hold : s.inHands = (s.worker k).packets + ∑ j ∈ Finset.univ \ {k}, (s.worker j).packets :=
    Finset.sum_eq_add_sum_sdiff_singleton_of_mem (Finset.mem_univ k) _
  rw [hsum, hold]
  abel

/-- A worker takes a packet up. -/
theorem inHands_take {k : Fin n} {data : α} (hk : s.worker k = .idle) :
    (s.setWorker k (.unready data)).inHands = s.inHands + {data} := by
  have h := s.inHands_setWorker k (.unready data)
  rw [hk] at h
  exact (add_zero _).symm.trans h

/-- A worker is done with its packet. -/
theorem inHands_release {k : Fin n} {data : α} (hk : (s.worker k).packets = {data}) :
    s.inHands = (s.setWorker k .idle).inHands + {data} := by
  have h := s.inHands_setWorker k .idle
  rw [hk] at h
  exact ((add_zero _).symm.trans h.symm)

/-- **A step loses no packet**, if the client survives it. -/
theorem account_step (h : (s.handed : Multiset α) = s.places) (hs : Does s a s')
    (halive : s'.panicked = false) : (s'.handed : Multiset α) = s'.places := by
  cases hs with
  | @see k data hk hready =>
    show ((s.handed ++ [data] : List α) : Multiset α) = _ + (s.setWorker k (.unready data)).inHands
    rw [inHands_take hk, ← Multiset.coe_add, h, places, ← add_assoc]
    rfl
  | @ignore k data hk hclosed =>
    have hhands : s.inHands = (s.setWorker k .idle).inHands + {data} :=
      inHands_release (by rw [hk]; rfl)
    show (s.handed : Multiset α) = s.full + ((s.ignored ++ [data] : List α) : Multiset α) +
      s.tunChan + s.phase.packets + s.session.pendingChan + (s.setWorker k .idle).inHands
    rw [h, places, hhands, ← Multiset.coe_add, Multiset.coe_singleton]
    abel
  | @pass k data hk hopen =>
    have hhands := s.inHands_setWorker k (.sending data)
    rw [hk] at hhands
    have hsame : (s.setWorker k (.sending data)).inHands = s.inHands := add_right_cancel hhands
    show (s.handed : Multiset α) = _ + (s.setWorker k (.sending data)).inHands
    rw [hsame]
    exact h
  | panic hk hclosed => cases halive
  | @queue k data hk hopen hroom =>
    have hhands : s.inHands = (s.setWorker k .idle).inHands + {data} :=
      inHands_release (by rw [hk]; rfl)
    show (s.handed : Multiset α) = s.full + s.ignored + s.tunChan + s.phase.packets +
      ((s.session.pendingChan ++ [data] : List α) : Multiset α) + (s.setWorker k .idle).inHands
    rw [h, places, hhands, ← Multiset.coe_add, Multiset.coe_singleton]
    abel
  | @drop k data hk hopen hfull =>
    have hhands : s.inHands = (s.setWorker k .idle).inHands + {data} :=
      inHands_release (by rw [hk]; rfl)
    show (s.handed : Multiset α) = ((s.full ++ [data] : List α) : Multiset α) + s.ignored +
      s.tunChan + s.phase.packets + s.session.pendingChan + (s.setWorker k .idle).inHands
    rw [h, places, hhands, ← Multiset.coe_add, Multiset.coe_singleton]
    abel
  | init hphase | flag hphase | close hphase | finish hphase _ =>
    -- none of these phases has a packet
    rw [places, hphase] at h
    exact h
  | @receive data rest hphase hqueue =>
    rw [places, hphase, hqueue] at h
    show (s.handed : Multiset α) = s.full + s.ignored + s.tunChan + {data} + rest + s.inHands
    rw [h, ← Multiset.cons_coe, ← Multiset.singleton_add]
    show _ + 0 + _ + _ = _
    abel
  | @forward data hphase =>
    rw [places, hphase] at h
    show (s.handed : Multiset α) = s.full + s.ignored +
      ((s.tunChan ++ [data] : List α) : Multiset α) + 0 + s.session.pendingChan + s.inHands
    rw [h, ← Multiset.coe_add, Multiset.coe_singleton]
    show _ + {data} + _ + _ = _
    abel

/-- **Every packet is somewhere**, in every run. -/
theorem account {session : NoiseSession α} (hr : (machine n session).Reach s)
    (halive : s.panicked = false) : (s.handed : Multiset α) = s.places := by
  have hinv : s.panicked = true ∨ (s.handed : Multiset α) = s.places := by
    refine hr.invariant (P := fun s => s.panicked = true ∨ (s.handed : Multiset α) = s.places)
      (Or.inr ?_) fun {s s' a} hi hs => ?_
    · show (session.pendingChan : Multiset α) = 0 + 0 + 0 + 0 + session.pendingChan +
        ∑ _k : Fin n, (0 : Multiset α)
      rw [Finset.sum_const_zero]
      abel
    · obtain ⟨halive, hdoes⟩ := does_of_step hs
      rcases hi with hpanic | hi
      · rw [halive] at hpanic
        cases hpanic
      · by_cases hpanic : s'.panicked = true
        · exact Or.inl hpanic
        · exact Or.inr (account_step hi hdoes (Bool.eq_false_iff.mpr hpanic))
  rcases hinv with hpanic | h
  · rw [halive] at hpanic
    cases hpanic
  · exact h

/-! ## Without interruption -/

section Alone

variable {session : NoiseSession α}

/-- A step of a client that has not panicked, as a run. -/
theorem path_step {u v : ClosingQueue n α} (hp : (machine n session).PathVia (fun _ _ => True) s u)
    (a : Act n α) (halive : u.panicked = false) (hlive : u.live a = some v) :
    (machine n session).PathVia (fun _ _ => True) s v := by
  refine hp.step (a := a) trivial ?_
  show u.step a = some v
  rw [step, halive]
  exact hlive

/-- **A worker alone adds to the queue** as `AddPendingData` does. -/
theorem added_alone {k : Fin n} {data : α} (halive : s.panicked = false)
    (hk : s.worker k = .idle) (hready : s.session.isReady = false)
    (hopen : s.session.pendingClosed = false) (hchan : s.chanClosed = false) :
    ∃ u, (machine n session).PathVia (fun _ _ => True) s u ∧
      u.session = s.session.addPendingData data := by
  let s₁ : ClosingQueue n α :=
    { s.setWorker k (.unready data) with handed := s.handed ++ [data] }
  let s₂ : ClosingQueue n α := s₁.setWorker k (.sending data)
  have h₁ : s.live (.see k data) = some s₁ := by
    simp only [live, hk]
    exact guardTo_eq_some.mpr ⟨hready, rfl⟩
  have hk₁ : s₁.worker k = .unready data := Function.update_self ..
  have h₂ : s₁.live (.load k) = some s₂ := by
    simp only [live, hk₁]
    exact if_neg (Bool.eq_false_iff.mp hopen)
  have hk₂ : s₂.worker k = .sending data := Function.update_self ..
  have h₃ : s₂.live (.send k) = some ((s₂.trySend data).setWorker k .idle) := by
    simp only [live, hk₂]
  refine ⟨_, path_step (path_step (path_step .refl _ halive h₁) _ halive h₂) _ halive h₃, ?_⟩
  have hopen₂ : s₂.session.pendingClosed = false := hopen
  have hchan₂ : s₂.chanClosed = false := hchan
  show (s₂.trySend data).session = s₂.session.addPendingData data
  simp only [trySend, NoiseSession.addPendingData, hchan₂, hopen₂, Bool.false_eq_true, if_false]
  split
  · rfl
  · rfl

/-- `SendAllPendingData` alone empties the queue into `tunChan`. -/
theorem drained_alone (q : List α) :
    ∀ {u : ClosingQueue n α}, (machine n session).PathVia (fun _ _ => True) s u →
      u.panicked = false → u.phase = .draining none → u.session.pendingChan = q →
      (machine n session).PathVia (fun _ _ => True) s
        { u with
          session := { u.session with pendingChan := [] }
          tunChan := u.tunChan ++ q, phase := .done } := by
  induction q with
  | nil =>
    intro u hp halive hphase hqueue
    have hfinish : u.live .finish = some { u with phase := .done } := by
      simp only [live, hphase, hqueue]
    rw [List.append_nil, ← hqueue]
    exact path_step hp _ halive hfinish
  | cons data rest ih =>
    intro u hp halive hphase hqueue
    let u₁ : ClosingQueue n α := { u with
      session := { u.session with pendingChan := rest }, phase := .draining (some data) }
    let u₂ : ClosingQueue n α := { u₁ with
      tunChan := u.tunChan ++ [data], phase := .draining none }
    have h₁ : u.live .receive = some u₁ := by simp only [live, hphase, hqueue, u₁]
    have h₂ : u₁.live .forward = some u₂ := rfl
    have hrest := ih (path_step (path_step hp _ halive h₁) _ halive h₂) halive rfl rfl
    rw [List.append_cons]
    exact hrest

/-- **The completion alone** is `complete` and `sendAllPendingData`. -/
theorem completed_alone (t : Transcript) (halive : s.panicked = false)
    (hphase : s.phase = .waiting) :
    ∃ u, (machine n session).PathVia (fun _ _ => True) s u ∧ u.phase = .done ∧
      u.session = { s.session.complete t with pendingChan := [] } ∧
      u.tunChan = s.tunChan ++ s.session.pendingChan := by
  let s₁ : ClosingQueue n α := { s with
    session := { s.session with cipher := .init ⟨t, .cs1⟩ ⟨t, .cs2⟩, hs := none }
    phase := .ready }
  let s₂ : ClosingQueue n α := { s₁ with session := s₁.session.closePending, phase := .flagged }
  let s₃ : ClosingQueue n α := { s₂ with chanClosed := true, phase := .draining none }
  have h₁ : s.live (.init t) = some s₁ := by simp only [live, hphase, s₁]
  have hpath : (machine n session).PathVia (fun _ _ => True) s s₃ :=
    path_step (path_step (path_step .refl _ halive h₁) .flag halive rfl) .close halive rfl
  exact ⟨_, drained_alone s.session.pendingChan hpath halive rfl rfl, rfl, rfl, rfl⟩

end Alone

/-! ## What a quiet close gives -/

/-- **The condition**: `pendingClosed` is set while no worker is between its test of the cipher
and its load of the flag, and the channel is closed while none is between that load and its
send. -/
def FlagOk (s : ClosingQueue n α) : Act n α → Prop
  | .flag => ∀ k, (s.worker k).isUnready = false
  | .close => ∀ k, (s.worker k).isSending = false
  | _ => True

instance (s : ClosingQueue n α) : (a : Act n α) → Decidable (FlagOk s a)
  | .flag => inferInstanceAs (Decidable (∀ k, (s.worker k).isUnready = false))
  | .close => inferInstanceAs (Decidable (∀ k, (s.worker k).isSending = false))
  | .see _ _ | .load _ | .send _ | .init _ | .receive | .forward | .finish =>
    inferInstanceAs (Decidable True)

/-- The flag and the close come when nobody is on the way to them: once the flag is set nobody
is about to load it, and once the channel is closed nobody is about to send. -/
structure Apart (s : ClosingQueue n α) : Prop where
  ready : s.phase = .waiting ∨ s.session.isReady = true
  unflagged : s.phase.isFlagged = false → s.session.pendingClosed = false
  opened : s.phase.isClosed = false → s.chanClosed = false
  loaded : s.phase.isFlagged = true → ∀ k, (s.worker k).isUnready = false
  sent : s.phase.isClosed = true → ∀ k, (s.worker k).isSending = false
  drained : s.phase.isDone = true → s.session.pendingChan = []
  alive : s.panicked = false
  kept : s.ignored = []

namespace Apart

/-- While a worker is about to load the flag, it is not set. -/
theorem unflagged_of_unready (h : Apart s) {k : Fin n} (hk : (s.worker k).isUnready = true) :
    s.phase.isFlagged = false := by
  cases hphase : s.phase.isFlagged with
  | false => rfl
  | true =>
    rw [h.loaded hphase k] at hk
    cases hk

/-- While a worker is about to send, the channel is open. -/
theorem open_of_sending (h : Apart s) {k : Fin n} (hk : (s.worker k).isSending = true) :
    s.phase.isClosed = false := by
  cases hphase : s.phase.isClosed with
  | false => rfl
  | true =>
    rw [h.sent hphase k] at hk
    cases hk

theorem start {session : NoiseSession α} (hopen : session.pendingClosed = false) :
    Apart (start n session) where
  ready := Or.inl rfl
  unflagged _ := hopen
  opened _ := rfl
  loaded h := by cases h
  sent h := by cases h
  drained h := by cases h
  alive := rfl
  kept := rfl

theorem isClosed_of_isDone {p : Phase α} (h : p.isDone = true) : p.isClosed = true := by
  cases p with
  | done => rfl
  | _ => cases h

theorem isClosed_of_unflagged {p : Phase α} (h : p.isFlagged = false) : p.isClosed = false := by
  cases p with
  | waiting | ready => rfl
  | _ => cases h

/-- A step of a worker before the channel is closed. -/
theorem worker_step (h : Apart s) {k : Fin n} {w : Worker α} (hopen : s.phase.isClosed = false)
    (hw : s.phase.isFlagged = true → w.isUnready = false)
    (hworker : s'.worker = Function.update s.worker k w) (hphase : s'.phase = s.phase)
    (hready : s'.session.isReady = s.session.isReady)
    (hclosed : s'.session.pendingClosed = s.session.pendingClosed)
    (hchan : s'.chanClosed = s.chanClosed) (halive : s'.panicked = s.panicked)
    (hkept : s'.ignored = s.ignored) : Apart s' where
  ready := by rw [hphase, hready]; exact h.ready
  unflagged hf := by rw [hclosed]; exact h.unflagged (hphase ▸ hf)
  opened _ := by rw [hchan]; exact h.opened hopen
  loaded hf j := by
    rw [hphase] at hf
    rw [hworker]
    by_cases hj : j = k
    · subst hj
      rw [Function.update_self]
      exact hw hf
    · rw [Function.update_of_ne hj]
      exact h.loaded hf j
  sent hc := by
    rw [hphase, hopen] at hc
    cases hc
  drained hd := by
    -- the last phase is a closed one
    have hc := isClosed_of_isDone hd
    rw [hphase, hopen] at hc
    cases hc
  alive := halive.trans h.alive
  kept := hkept.trans h.kept

/-- A step of the completion after the channel is closed. -/
theorem close_step (h : Apart s) (hclosed : s.phase.isClosed = true)
    (hclosed' : s'.phase.isClosed = true) (hworker : s'.worker = s.worker)
    (hready : s'.session.isReady = s.session.isReady)
    (hdrained : s'.phase.isDone = true → s'.session.pendingChan = [])
    (halive : s'.panicked = s.panicked) (hkept : s'.ignored = s.ignored) : Apart s' where
  ready := by
    refine Or.inr (hready.trans (h.ready.resolve_left fun hwaiting => ?_))
    rw [hwaiting] at hclosed
    cases hclosed
  unflagged hf := by
    rw [isClosed_of_unflagged hf] at hclosed'
    cases hclosed'
  opened hf := by
    rw [hclosed'] at hf
    cases hf
  loaded _ := by
    rw [hworker]
    refine h.loaded ?_
    cases hf : s.phase.isFlagged with
    | true => rfl
    | false =>
      rw [isClosed_of_unflagged hf] at hclosed
      cases hclosed
  sent _ := by rw [hworker]; exact h.sent hclosed
  drained := hdrained
  alive := halive.trans h.alive
  kept := hkept.trans h.kept

/-- One step. After a panic there is none. -/
theorem step (h : Apart s) (hok : FlagOk s a) (hs : Does s a s') : Apart s' := by
  cases hs with
  | see hk hready =>
    have hwaiting : s.phase = .waiting := h.ready.resolve_right (by rw [hready]; decide)
    refine h.worker_step (by rw [hwaiting]; rfl) (fun hf => ?_) rfl rfl rfl rfl rfl rfl rfl
    rw [hwaiting] at hf
    cases hf
  | @ignore k data hk hclosed =>
    have hflag := h.unflagged_of_unready (k := k) (by rw [hk]; rfl)
    rw [h.unflagged hflag] at hclosed
    cases hclosed
  | @panic k data hk hclosed =>
    have hopen := h.open_of_sending (k := k) (by rw [hk]; rfl)
    rw [h.opened hopen] at hclosed
    cases hclosed
  | @pass k data hk hopen =>
    have hflag := h.unflagged_of_unready (k := k) (by rw [hk]; rfl)
    exact h.worker_step (isClosed_of_unflagged hflag) (fun _ => rfl) rfl rfl rfl rfl rfl rfl rfl
  | @queue k data hk hopen hroom | @drop k data hk hopen hfull =>
    have hopen := h.open_of_sending (k := k) (by rw [hk]; rfl)
    exact h.worker_step hopen (fun _ => rfl) rfl rfl rfl rfl rfl rfl rfl
  | init hphase =>
    have hopened := h.opened (by rw [hphase]; rfl)
    have hunflagged := h.unflagged (by rw [hphase]; rfl)
    exact ⟨Or.inr rfl, fun _ => hunflagged, fun _ => hopened, nofun, nofun, nofun, h.alive, h.kept⟩
  | flag hphase =>
    have hready := h.ready.resolve_left (by rw [hphase]; exact nofun)
    have hopened := h.opened (by rw [hphase]; rfl)
    exact ⟨Or.inr hready, nofun, fun _ => hopened, fun _ => hok, nofun, nofun, h.alive, h.kept⟩
  | close hphase =>
    have hready := h.ready.resolve_left (by rw [hphase]; exact nofun)
    have hloaded := h.loaded (by rw [hphase]; rfl)
    exact ⟨Or.inr hready, nofun, nofun, fun _ => hloaded, fun _ => hok, nofun, h.alive, h.kept⟩
  | receive hphase hqueue | forward hphase =>
    exact h.close_step (by rw [hphase]; rfl) rfl rfl rfl nofun rfl rfl
  | finish hphase hqueue =>
    exact h.close_step (by rw [hphase]; rfl) rfl rfl rfl (fun _ => hqueue) rfl rfl

end Apart

/-- **No send meets a closed channel and nothing is lost to the close**, in every run in
which the flag is set while no worker is about to load it and the channel closed while none is
about to send: the client does not panic, no packet is ignored, and when the queue has been
emptied everything that was handed to `AddPendingData` was dropped at a full queue or is on
`tunChan`. -/
theorem nothing_lost_to_close (session : NoiseSession α)
    (hopen : session.pendingClosed = false) (hr : (machine n session).ReachVia FlagOk s) :
    s.panicked = false ∧ s.ignored = [] ∧
      (s.phase.isDone = true → s.handed.Perm (s.full ++ s.tunChan)) := by
  have hapart : Apart s :=
    hr.invariant (.start hopen) fun _ h hok hs => h.step hok (does_of_step hs).2
  refine ⟨hapart.alive, hapart.kept, fun hdone => ?_⟩
  have hphase : s.phase = .done := by
    cases hp : s.phase with
    | done => rfl
    | waiting | ready | flagged | draining _ =>
      rw [hp] at hdone
      cases hdone
  have hhands : s.inHands = 0 := by
    refine Finset.sum_eq_zero fun k _ => ?_
    have hloaded := hapart.loaded (by rw [hphase]; rfl) k
    have hsent := hapart.sent (by rw [hphase]; rfl) k
    cases hk : s.worker k with
    | idle => rfl
    | unready _ =>
      rw [hk] at hloaded
      cases hloaded
    | sending _ =>
      rw [hk] at hsent
      cases hsent
  have haccount := account hr.reach hapart.alive
  rw [places, hphase, hapart.kept, hapart.drained hdone, hhands] at haccount
  refine Multiset.coe_eq_coe.mp (haccount.trans ?_)
  rw [← Multiset.coe_add]
  show _ + 0 + _ + 0 + 0 + 0 = _
  abel

section OnePacket

/-- A session that waits for its reply. -/
def caseSession : NoiseSession :=
  .new (.four 10 0 6 3) true (some sampleTranscript.first) 0

/-- The packet is queued between the flag and the close, and forwarded. -/
theorem nothing_lost_to_close_one :
    ∃ s, (machine 1 caseSession).ReachVia FlagOk s ∧ s.phase.isDone = true ∧ s.handed = [[69]] ∧
      s.handed.Perm (s.full ++ s.tunChan) := by
  obtain ⟨s, hr, hdone, hhanded⟩ : ∃ s, (machine 1 caseSession).ReachVia FlagOk s ∧
      s.phase.isDone = true ∧ s.handed = [[69]] :=
    Machine.exists_reachVia
      [.see 0 [69], .load 0, .init sampleTranscript, .flag, .send 0, .close, .receive, .forward,
        .finish]
      (by decide +kernel)
  exact ⟨s, hr, hdone, hhanded, (nothing_lost_to_close caseSession rfl hr).2.2 hdone⟩

/-- **The close races with the workers.** A worker that has seen the flag unset sends on
the closed channel, which ends the client; and a packet that comes between the flag and
the test of the cipher is neither queued nor dropped at a full queue, but lost. -/
theorem close_races :
    (∃ s, (machine 1 caseSession).Reach s ∧ s.panicked = true) ∧
      ∃ s, (machine 1 caseSession).Reach s ∧ s.phase.isDone = true ∧ s.handed = [[69]] ∧
        s.full = [] ∧ s.tunChan = [] :=
  ⟨Machine.exists_reach
      [.see 0 [69], .load 0, .init sampleTranscript, .flag, .close, .send 0] (by decide +kernel),
    Machine.exists_reach
      [.see 0 [69], .init sampleTranscript, .flag, .load 0, .close, .finish] (by decide +kernel)⟩

end OnePacket

end ClosingQueue

end EasyTun.Protocol
