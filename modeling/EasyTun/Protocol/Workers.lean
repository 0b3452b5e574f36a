import EasyTun.Protocol.Pairing

/-!
# Two managers and their receive workers

The pair of clients as the code runs it: on each side any number of
`packetRecv` workers call `HandleNoisePacket` at the same time, a timer sweeps
the session table, and the control plane calls `HandshakeInit`. A call of
`HandleNoisePacket` is three steps, `lookup`, `lock` and `respond`; other
workers may run between them. A worker may be given any message that was ever
sent to its side, any number of times, or any other byte string.

- `refines`: every run is a run of the abstract pair (`Pairing`).
- `ready_sessions_match`: **ready sessions match**, in every run in which a
  first message is answered only while the peer still waits for its answer.
- `ready_sessions_differ`: without that condition they need not: one first
  message that is delivered twice is answered twice.
-/

namespace EasyTun.Protocol

open EasyTun.Lib
open EasyTun.Lib.NoiseIK

/-! ## The model -/

/-- Where a worker is in `HandleNoisePacket`. -/
inductive Worker where
  | idle
  /-- It found an unready session and waits for the session's lock. -/
  | waiting (sid : SessionId) (d : Msg)
  /-- It is on its way into `handleResponderFirst`, with the lock it holds. -/
  | responding (d : Msg) (held : Option SessionId)
  deriving DecidableEq

/-- What a worker refers to exists: the session it waits for was made, and the
message it holds was sent. -/
def Worker.Valid (s : Pairing) (x : Side) : Worker → Prop
  | .idle => True
  | .waiting sid d => sid < (s.party x).next ∧ (d ∈ s.inbox x ∨ d.isOther = true)
  | .responding d _ => d ∈ s.inbox x ∨ d.isOther = true

theorem Worker.Valid.mono {s s' : Pairing} {x : Side} {v : Worker} (h : Valid s x v)
    (hnext : (s.party x).next ≤ (s'.party x).next) (hin : ∀ d ∈ s.inbox x, d ∈ s'.inbox x) :
    Valid s' x v := by
  cases v with
  | idle => exact h
  | waiting sid d => exact ⟨Nat.lt_of_lt_of_le h.1 hnext, h.2.imp_left (hin d)⟩
  | responding d held => exact Or.imp_left (hin d) h

/-- Both clients, what was ever sent to each, the next ephemeral key and the
clock. -/
structure World where
  mgr : Side → NoiseManager
  worker : Side → Nat → Worker
  inbox : Side → List Msg
  eph : Nat
  now : Int

namespace World

/-- The steps. -/
inductive Act where
  /-- `HandshakeInit`. -/
  | initiate (x : Side) (payload : Bytes)
  /-- `GetSession` at the start of `HandleNoisePacket`. -/
  | lookup (x : Side) (k : Nat) (d : Msg)
  /-- The body under the session's lock. -/
  | lock (x : Side) (k : Nat)
  /-- `handleResponderFirst`, up to its `SetSession`. -/
  | respond (x : Side) (k : Nat)
  | sweep (x : Side) (timeout : Int)
  /-- `UpdateLastSeen` by a sender or a receiver. -/
  | touch (x : Side) (sid : SessionId)
  | tick (d : Nat)

/-- The sessions of a side change. -/
def setMgr (w : World) (x : Side) (m : NoiseManager) : World :=
  { w with mgr := Function.update w.mgr x m }

/-- A worker of a side goes on. -/
def setWorker (w : World) (x : Side) (k : Nat) (v : Worker) : World :=
  { w with worker := set₂ w.worker x k v }

/-- A message with a new ephemeral key goes to the other side. -/
def send (w : World) (x : Side) (d : Msg) : World :=
  { w with inbox := Function.update w.inbox x.other (d :: w.inbox x.other), eph := w.eph + 1 }

/-- `session.mtx.Unlock()` on the way out. -/
def unlock (m : NoiseManager) : Option SessionId → NoiseManager
  | some sid => m.modify sid fun s => { s with mtx := false }
  | none => m

variable (P : Peers)

/-- One step of a side, or of one of its workers. -/
def step (w : World) : Act → Option World
  | .initiate x payload =>
    let r := (w.mgr x).handshakeInit ideal (P.vip x.other) (P.static x.other) payload w.eph w.now
    some ((w.setMgr x r.2).send x r.1)
  | .lookup x k d =>
    guardTo (w.worker x k = .idle ∧ (d ∈ w.inbox x ∨ d.isOther = true))
      (w.setWorker x k <|
        match (w.mgr x).getSession (P.vip x.other) with
        | none => .responding d none
        | some sid => if ((w.mgr x).heap sid).isReady then .idle else .waiting sid d)
  | .lock x k =>
    match w.worker x k with
    | .waiting sid d =>
      if ((w.mgr x).heap sid).mtx then none
      else match (w.mgr x).lockedBody ideal sid (P.vip x.other) d with
        | some r => some ((w.setMgr x r.1).setWorker x k .idle)
        | none =>
          some ((w.setMgr x ((w.mgr x).modify sid fun s => { s with mtx := true })).setWorker x k
            (.responding d (some sid)))
    | _ => none
  | .respond x k =>
    match w.worker x k with
    | .responding d held =>
      let r := (w.mgr x).handleResponderFirst ideal (P.vip x.other) d w.eph w.now
      let w := (w.setMgr x (unlock r.1 held)).setWorker x k .idle
      match r.2 with
      | .ok (_, some reply) => some (w.send x reply)
      | _ => some w
    | _ => none
  | .sweep x timeout => some (w.setMgr x ((w.mgr x).sweepSessions timeout w.now))
  | .touch x sid => some (w.setMgr x ((w.mgr x).modify sid (·.updateLastSeen w.now)))
  | .tick d => some { w with now := w.now + d }

/-- Two new clients. -/
def start : World :=
  { mgr := fun x => .new (P.static x) (P.vip x)
    worker := fun _ _ => .idle
    inbox := fun _ => []
    eph := 0
    now := 0 }

/-- Two sides without sessions. -/
def machine : Machine World Act := { init := start P, step := step P }

/-- The worker is about to answer a first message made for its side. -/
def answering (w : World) (x : Side) (k : Nat) : Bool :=
  match w.worker x k with
  | .responding d _ => (ideal.readFirst (w.mgr x).staticPub d).isSome
  | _ => false

/-- The side has no session for its peer, or an unready one that could not read
any message sent to it so far as its reply. -/
def stillWaits (w : World) (y : Side) : Bool :=
  match (w.mgr y).getSession (P.vip y.other) with
  | none => true
  | some sid =>
    !((w.mgr y).heap sid).isReady &&
      match ((w.mgr y).heap sid).hs with
      | none => true
      | some f => (w.inbox y).all fun d => (ideal.readReply f d).isNone

/-- An answer is given only while the peer still waits for its first one. -/
def RespondOk (w : World) : Act → Prop
  | .respond x k => w.answering x k = true → w.stillWaits P x.other = true
  | _ => True

instance (w : World) : (a : Act) → Decidable (RespondOk P w a)
  | .respond x k =>
    inferInstanceAs (Decidable (w.answering x k = true → w.stillWaits P x.other = true))
  | .initiate _ _ | .lookup _ _ _ | .lock _ _ | .sweep _ _ | .touch _ _ | .tick _ =>
    inferInstanceAs (Decidable True)

/-! ## The pair refines the abstract pair -/

/-- The managers are the parties, and the workers refer to what exists. -/
structure Refines (w : World) (s : Pairing) : Prop where
  mgr : ∀ x, Represents (w.mgr x) (P.vip x.other) (s.party x)
  static : ∀ x, (s.party x).static = P.static x
  inbox : w.inbox = s.inbox
  eph : w.eph = s.eph
  worker : ∀ x k, (w.worker x k).Valid s x

namespace Refines

variable {P} {w : World} {s : Pairing} {x : Side}

/-- A change of one party and its manager. -/
theorem becomes (h : Refines P w s) {m : NoiseManager} {p : Party}
    (hm : Represents m (P.vip x.other) p) (hstatic : p.static = (s.party x).static)
    (hnext : (s.party x).next ≤ p.next) : Refines P (w.setMgr x m) (s.becomes x p) where
  mgr := by
    intro z
    show Represents (Function.update w.mgr x m z) _ (Function.update s.party x p z)
    by_cases hz : z = x
    · subst hz
      rw [Function.update_self, Function.update_self]
      exact hm
    · rw [Function.update_of_ne hz, Function.update_of_ne hz]
      exact h.mgr z
  static := by
    intro z
    show (Function.update s.party x p z).static = _
    by_cases hz : z = x
    · subst hz
      rw [Function.update_self, hstatic]
      exact h.static z
    · rw [Function.update_of_ne hz]
      exact h.static z
  inbox := h.inbox
  eph := h.eph
  worker := by
    intro z k
    refine (h.worker z k).mono ?_ fun _ hd => hd
    show (s.party z).next ≤ (Function.update s.party x p z).next
    by_cases hz : z = x
    · subst hz
      rw [Function.update_self]
      exact hnext
    · rw [Function.update_of_ne hz]

/-- A change of a manager that its party does not see. -/
theorem setMgr (h : Refines P w s) {m : NoiseManager}
    (hm : Represents m (P.vip x.other) (s.party x)) : Refines P (w.setMgr x m) s := by
  have hb := h.becomes hm rfl (Nat.le_refl _)
  have hs : s.becomes x (s.party x) = s := by
    show { s with party := Function.update s.party x (s.party x) } = s
    rw [Function.update_eq_self]
  rw [hs] at hb
  exact hb

/-- A worker of a side goes on. -/
theorem setWorker (h : Refines P w s) {k : Nat} {v : Worker} (hv : v.Valid s x) :
    Refines P (w.setWorker x k v) s where
  mgr := h.mgr
  static := h.static
  inbox := h.inbox
  eph := h.eph
  worker := by
    intro z j
    show (set₂ w.worker x k v z j).Valid s z
    by_cases hz : z = x ∧ j = k
    · rw [hz.1, hz.2, set₂_self]
      exact hv
    · rw [set₂_of_ne _ _ hz]
      exact h.worker z j

/-- A change of one party that sends a message. -/
theorem sends (h : Refines P w s) {m : NoiseManager} {p : Party} (d : Msg)
    (hm : Represents m (P.vip x.other) p) (hstatic : p.static = (s.party x).static)
    (hnext : (s.party x).next ≤ p.next) :
    Refines P ((w.setMgr x m).send x d) (s.sends x p d) where
  mgr := (h.becomes hm hstatic hnext).mgr
  static := (h.becomes hm hstatic hnext).static
  inbox := by
    show Function.update w.inbox x.other (d :: w.inbox x.other) = _
    rw [h.inbox]
    rfl
  eph := congrArg (· + 1) h.eph
  worker := by
    intro z k
    refine ((h.becomes hm hstatic hnext).worker z k).mono (Nat.le_refl _) ?_
    intro e he
    show e ∈ Function.update s.inbox x.other (d :: s.inbox x.other) z
    by_cases hz : z = x.other
    · subst hz
      rw [Function.update_self]
      exact List.mem_cons_of_mem _ he
    · rw [Function.update_of_ne hz]
      exact he

end Refines

/-! ### The steps, one by one -/

section Steps

variable {P} {w w' : World} {s : Pairing}

theorem refines_initiate (h : Refines P w s) (x : Side) (payload : Bytes)
    (hs : step P w (.initiate x payload) = some w') :
    ∃ s', Pairing.step P s (.initiate x) = some s' ∧ Refines P w' s' := by
  cases hs
  obtain ⟨hmsg, hm⟩ := handshakeInit_represents (h.mgr x) (P.static x.other) payload w.eph w.now
  rw [h.static x, h.eph] at hmsg hm
  refine ⟨_, rfl, ?_⟩
  rw [h.eph, hmsg]
  exact h.sends _ hm rfl (Nat.le_succ _)

theorem refines_lookup (h : Refines P w s) (x : Side) (k : Nat) (d : Msg)
    (hs : step P w (.lookup x k d) = some w') : Refines P w' s := by
  obtain ⟨⟨-, hd⟩, rfl⟩ := guardTo_eq_some.mp hs
  rw [h.inbox] at hd
  refine h.setWorker ?_
  rw [(h.mgr x).cur]
  cases hcur : (s.party x).cur with
  | none => exact hd
  | some sid =>
    simp only
    split
    · exact trivial
    · exact ⟨(h.mgr x).cur_lt sid hcur, hd⟩

/-- A worker runs the body under the lock, and is done or goes on to answer. -/
theorem lock_inv {x : Side} {k : Nat} (hs : step P w (.lock x k) = some w') :
    ∃ sid d, w.worker x k = .waiting sid d ∧
      ((∃ r, (w.mgr x).lockedBody ideal sid (P.vip x.other) d = some r ∧
          w' = (w.setMgr x r.1).setWorker x k .idle) ∨
        ((w.mgr x).lockedBody ideal sid (P.vip x.other) d = none ∧
          w' = (w.setMgr x ((w.mgr x).modify sid fun s => { s with mtx := true })).setWorker x k
            (.responding d (some sid)))) := by
  simp only [step] at hs
  split at hs
  · next sid d hwk =>
    refine ⟨sid, d, hwk, ?_⟩
    split at hs
    · cases hs
    · split at hs
      · next r hr =>
        cases hs
        exact Or.inl ⟨r, hr, rfl⟩
      · next hr =>
        cases hs
        exact Or.inr ⟨hr, rfl⟩
  · cases hs

/-- A worker runs `handleResponderFirst`, and its response is sent if it has one. -/
theorem respond_inv {x : Side} {k : Nat} (hs : step P w (.respond x k) = some w') :
    ∃ d held, w.worker x k = .responding d held ∧
      let r := (w.mgr x).handleResponderFirst ideal (P.vip x.other) d w.eph w.now
      let v := (w.setMgr x (unlock r.1 held)).setWorker x k .idle
      (∃ reply, responseOf r.2 = some reply ∧ w' = v.send x reply) ∨
        (responseOf r.2 = none ∧ w' = v) := by
  simp only [step] at hs
  split at hs
  · next d held hwk =>
    refine ⟨d, held, hwk, ?_⟩
    split at hs
    · next reply hr =>
      cases hs
      exact Or.inl ⟨reply, by rw [hr]; rfl, rfl⟩
    · next hr =>
      cases hs
      refine Or.inr ⟨?_, rfl⟩
      unfold responseOf
      split
      · next i response hok =>
        cases response with
        | none => rfl
        | some reply => exact absurd hok (hr i reply)
      · rfl
  · cases hs

theorem refines_lock (h : Refines P w s) (x : Side) (k : Nat)
    (hs : step P w (.lock x k) = some w') :
    Refines P w' s ∨
      ∃ i t s', Pairing.step P s (.complete x i t) = some s' ∧ Refines P w' s' := by
  have hw := h.worker x k
  obtain ⟨sid, d, hwk, hbody⟩ := lock_inv hs
  rw [hwk] at hw
  obtain ⟨hsid, hd⟩ := hw
  -- a body that changes nothing
  have hdone : ∀ {r : HandleResult Msg}, (w.mgr x).lockedBody ideal sid (P.vip x.other) d =
      some (w.mgr x, r) → Refines P w' s := by
    intro r hb
    rcases hbody with ⟨r', hr', rfl⟩ | ⟨hnone, -⟩
    · cases hb.symm.trans hr'
      exact (h.setMgr (h.mgr x)).setWorker trivial
    · cases hb.symm.trans hnone
  rcases lockedBody_cases (h.mgr x) hsid (P.vip x.other) d with ⟨-, hb⟩ | ⟨f, hv, hb⟩
  · exact Or.inl (hdone hb)
  · rcases hb with ⟨-, -, hb⟩ | ⟨-, -, hb⟩ | ⟨t, m', rfl, rfl, hb, hm'⟩ | ⟨-, -, hb⟩
    · -- this side yields
      rcases hbody with ⟨r, hr, -⟩ | ⟨-, rfl⟩
      · cases hb.symm.trans hr
      · refine Or.inl ((h.setMgr ?_).setWorker hd)
        exact (h.mgr x).modify sid fun _ _ hm => hm.congr rfl rfl rfl
    · exact Or.inl (hdone hb)
    · -- the initiator reads a reply that was sent to it
      rcases hbody with ⟨r, hr, rfl⟩ | ⟨hnone, -⟩
      · cases hb.symm.trans hr
        have hreply : Msg.reply t ∈ s.inbox x := hd.resolve_right fun ho => nomatch ho
        refine Or.inr ⟨sid, t, _, guardTo_eq_some.mpr ⟨⟨hsid, hv, hreply⟩, rfl⟩, ?_⟩
        exact (h.becomes hm' rfl (Nat.le_refl _)).setWorker trivial
      · cases hb.symm.trans hnone
    · exact Or.inl (hdone hb)

theorem represents_unlock {m : NoiseManager} {key : ByteArr 4} {p : Party}
    (h : Represents m key p) (held : Option SessionId) : Represents (unlock m held) key p := by
  cases held with
  | none => exact h
  | some sid =>
    show Represents (m.modify sid fun s => { s with mtx := false }) key p
    exact h.modify sid fun _ _ hm => hm.congr rfl rfl rfl

/-- The condition on answers, seen by the abstract pair. -/
theorem answerOk_of_stillWaits (h : Refines P w s) {x : Side} (f : First)
    (hwait : w.stillWaits P x.other = true) : Pairing.AnswerOk s (.answer x f) := by
  intro v hv
  have hrep := h.mgr x.other
  unfold stillWaits at hwait
  rw [hrep.cur, h.inbox] at hwait
  unfold Party.view at hv
  cases hcur : (s.party x.other).cur with
  | none =>
    rw [hcur] at hv
    cases hv
  | some sid =>
    rw [hcur, Option.map_some] at hv
    have hobj := hrep.obj sid (hrep.cur_lt sid hcur)
    rw [Option.some.inj hv] at hobj
    rw [hcur] at hwait
    simp only [hobj.ready, hobj.hs, Bool.and_eq_true, Bool.not_eq_true'] at hwait
    cases v with
    | initiator t => exact nomatch hwait.1
    | responder t => exact nomatch hwait.1
    | unready g =>
      refine ⟨g, rfl, ?_⟩
      rintro ⟨t, ht, htf⟩
      have hnone := List.all_eq_true.mp hwait.2 _ ht
      rw [ideal_readReply_eq_some.mpr ⟨rfl, htf⟩] at hnone
      cases hnone

theorem refines_respond (h : Refines P w s) (x : Side) (k : Nat)
    (hs : step P w (.respond x k) = some w') :
    Refines P w' s ∨ ∃ f s', (RespondOk P w (.respond x k) → Pairing.AnswerOk s (.answer x f)) ∧
      Pairing.step P s (.answer x f) = some s' ∧ Refines P w' s' := by
  have hw := h.worker x k
  obtain ⟨d, held, hwk, hcall⟩ := respond_inv hs
  rw [hwk] at hw
  rcases handleResponderFirst_cases (h.mgr x) d w.eph w.now with
    ⟨-, hr⟩ | ⟨f, m', rfl, hf, hr, hm'⟩
  · rw [hr] at hcall
    rcases hcall with ⟨reply, hreply, -⟩ | ⟨-, rfl⟩
    · cases hreply
    · exact Or.inl ((h.setMgr (represents_unlock (h.mgr x) held)).setWorker trivial)
  · rw [hr] at hcall
    rcases hcall with ⟨reply, hreply, rfl⟩ | ⟨hnone, -⟩
    · cases hreply
      have hans : w.answering x k = true := by
        unfold answering
        rw [hwk]
        simp only
        rw [ideal_readFirst_eq_some.mpr ⟨rfl, hf.trans (h.mgr x).static.symm⟩]
        rfl
      have hmem : Msg.first f ∈ s.inbox x := Or.resolve_right hw fun ho => nomatch ho
      refine Or.inr ⟨f, _, fun hok => answerOk_of_stillWaits h f (hok hans),
        guardTo_eq_some.mpr ⟨hmem, rfl⟩, ?_⟩
      rw [h.eph] at hm' ⊢
      exact (h.sends (.reply ⟨f, s.eph⟩) (represents_unlock hm' held) rfl
        (Nat.le_succ _)).setWorker trivial
    · cases hnone

theorem refines_sweep (h : Refines P w s) (x : Side) (timeout : Int)
    (hs : step P w (.sweep x timeout) = some w') :
    Refines P w' s ∨ ∃ s', Pairing.step P s (.drop x) = some s' ∧ Refines P w' s' := by
  cases hs
  rcases (h.mgr x).sweep timeout w.now with hsame | hdrop
  · exact Or.inl (h.setMgr hsame)
  · exact Or.inr ⟨_, rfl, h.becomes hdrop rfl (Nat.le_refl _)⟩

/-- **Every step is a step of the abstract pair, or none**, and an answer that
meets the condition is one that meets it there. -/
theorem refines_step (h : Refines P w s) {a : Act} (hs : step P w a = some w') :
    Refines P w' s ∨ ∃ b s', (RespondOk P w a → Pairing.AnswerOk s b) ∧
      Pairing.step P s b = some s' ∧ Refines P w' s' := by
  cases a with
  | initiate x payload =>
    obtain ⟨s', hs', hR'⟩ := refines_initiate h x payload hs
    exact Or.inr ⟨.initiate x, s', fun _ => trivial, hs', hR'⟩
  | lookup x k d => exact Or.inl (refines_lookup h x k d hs)
  | lock x k =>
    rcases refines_lock h x k hs with hR' | ⟨i, t, s', hs', hR'⟩
    · exact Or.inl hR'
    · exact Or.inr ⟨.complete x i t, s', fun _ => trivial, hs', hR'⟩
  | respond x k =>
    rcases refines_respond h x k hs with hR' | ⟨f, s', hok, hs', hR'⟩
    · exact Or.inl hR'
    · exact Or.inr ⟨.answer x f, s', hok, hs', hR'⟩
  | sweep x timeout =>
    rcases refines_sweep h x timeout hs with hR' | ⟨s', hs', hR'⟩
    · exact Or.inl hR'
    · exact Or.inr ⟨.drop x, s', fun _ => trivial, hs', hR'⟩
  | touch x sid =>
    cases hs
    exact Or.inl (h.setMgr ((h.mgr x).modify sid fun _ _ hm => hm.congr rfl rfl rfl))
  | tick d =>
    cases hs
    exact Or.inl ⟨h.mgr, h.static, h.inbox, h.eph, h.worker⟩

end Steps

theorem refines_start (P : Peers) : Refines P (start P) (Pairing.start P) :=
  ⟨fun _ => .new .., fun _ => rfl, rfl, rfl, fun _ _ => trivial⟩

/-- **Every run that meets the condition on answers is a run of the abstract pair
that meets it there.** -/
theorem refines {P : Peers} {w : World} (h : (machine P).ReachVia (RespondOk P) w) :
    ∃ s, (Pairing.machine P).ReachVia Pairing.AnswerOk s ∧ Refines P w s := by
  refine h.simulate (Refines P) (refines_start P) ?_
  intro w w' a s _ hR hok hs
  rcases refines_step hR hs with hR' | ⟨b, s', hok', hs', hR'⟩
  · exact Or.inl hR'
  · exact Or.inr ⟨b, s', hok' hok, hs', hR'⟩

/-! ## Ready sessions match -/

/-- When both sides hold a ready session for each other, what one sends under
is what the other receives under. -/
def Agree (P : Peers) (w : World) : Prop :=
  ∀ sa ∈ (w.mgr .a).getSession (P.vip .b), ∀ sb ∈ (w.mgr .b).getSession (P.vip .a),
    ((w.mgr .a).heap sa).isReady = true → ((w.mgr .b).heap sb).isReady = true →
    ((w.mgr .a).heap sa).KeysMatch ((w.mgr .b).heap sb)

instance (P : Peers) (w : World) : Decidable (Agree P w) :=
  inferInstanceAs (Decidable (∀ _ ∈ _, _))

/-- Both sides hold a ready session for each other. -/
def BothReady (P : Peers) (w : World) : Prop :=
  (∃ sa ∈ (w.mgr .a).getSession (P.vip .b), ((w.mgr .a).heap sa).isReady = true) ∧
    ∃ sb ∈ (w.mgr .b).getSession (P.vip .a), ((w.mgr .b).heap sb).isReady = true

instance (P : Peers) (w : World) : Decidable (BothReady P w) :=
  inferInstanceAs (Decidable (_ ∧ _))

/-- **Ready sessions match** in every run in which each answer is given while the
peer still waits for its first one. -/
theorem ready_sessions_match (P : Peers) (w : World)
    (h : (machine P).ReachVia (RespondOk P) w) : Agree P w := by
  intro sa ha sb hb hra hrb
  obtain ⟨s, hs, hR⟩ := refines h
  have hA := hR.mgr .a
  have hB := hR.mgr .b
  have hcura : (s.party .a).cur = some sa := hA.cur.symm.trans ha
  have hcurb : (s.party .b).cur = some sb := hB.cur.symm.trans hb
  have hobja := hA.obj sa (hA.cur_lt sa hcura)
  have hobjb := hB.obj sb (hB.cur_lt sb hcurb)
  have hva : (s.party .a).view = some ((s.party .a).obj sa) := by
    rw [Party.view, hcura]
    rfl
  have hvb : (s.party .b).view = some ((s.party .b).obj sb) := by
    rw [Party.view, hcurb]
    rfl
  have hreadya := hobja.ready.symm.trans hra
  have hreadyb := hobjb.ready.symm.trans hrb
  obtain ⟨hab, hba⟩ := (Pairing.matching hs).keys .a hva hvb hreadya hreadyb
  refine ⟨hobja.isSome_sendKey hreadya, hobjb.isSome_sendKey hreadyb, ?_, ?_⟩
  · rw [hobja.send, hobjb.recv, hab]
  · rw [hobjb.send, hobja.recv, hba]

/-- A handshake without interference. -/
theorem ready_sessions_match_handshake :
    ∃ w, (machine Peers.sample).ReachVia (RespondOk Peers.sample) w ∧ BothReady Peers.sample w ∧
      Agree Peers.sample w := by
  obtain ⟨w, hreach, hready⟩ : ∃ w, (machine Peers.sample).ReachVia (RespondOk Peers.sample) w ∧
      BothReady Peers.sample w := by
    refine Machine.exists_reachVia [.initiate .a [], .lookup .b 0 (.first (Peers.sampleFirst 0)),
      .respond .b 0, .lookup .a 0 (.reply ⟨Peers.sampleFirst 0, 1⟩), .lock .a 0] ?_
    decide +kernel
  exact ⟨w, hreach, hready, ready_sessions_match Peers.sample w hreach⟩

/-- Ready sessions need not match: a first message that arrives twice is answered
by two workers, and the table keeps the second answer while the initiator reads
the first. -/
theorem ready_sessions_differ :
    ¬ ∀ (P : Peers) (w : World), (machine P).Reach w → Agree P w := by
  intro h
  obtain ⟨w, hreach, hdiffer⟩ : ∃ w, (machine Peers.sample).Reach w ∧ ¬ Agree Peers.sample w := by
    refine Machine.exists_reach [.initiate .a [], .lookup .b 0 (.first (Peers.sampleFirst 0)),
      .lookup .b 1 (.first (Peers.sampleFirst 0)), .respond .b 0, .respond .b 1,
      .lookup .a 0 (.reply ⟨Peers.sampleFirst 0, 1⟩), .lock .a 0] ?_
    decide +kernel
  exact hdiffer (h Peers.sample w hreach)

end World

end EasyTun.Protocol
