import EasyTun.Protocol.Workers

/-!
# Renewing a lost session

The two ends of a session can lose it at different times: a sweep looks at the
local clock only, sending alone keeps an entry alive, and a client that restarts
comes back with an empty table and a new static key. This module adds the restart
to the pair of managers and asks what a new handshake of the side without a
session achieves.

- `renew`: `HandshakeInit` on one side, its first message handed to the other,
  and the response, if there is one, handed back;
- `Answers`: the other side has no entry either, or it waits for an answer to its
  own handshake and has the larger address;
- `renewed_iff`: **then both end ready with matching keys, and only then**. Where the
  other side still has a ready entry, the first message is taken for ciphertext of
  the old session and is not answered;
- `restarted_peer_stays_out`: such a state is reached by one restart.
-/

namespace EasyTun.Protocol

open EasyTun.Lib
open EasyTun.Lib.NoiseIK

/-! ## One handshake, call by call -/

section Calls

variable {m : NoiseManager} {key : ByteArr 4}

/-- `HandshakeInit` makes the entry an initiator that waits. -/
theorem handshakeInit_entry (m : NoiseManager) (key : ByteArr 4) (pub : PublicKey)
    (payload : Bytes) (eph : Nat) (now : Int) :
    (m.handshakeInit ideal key pub payload eph now).2.getSession key = some m.next ∧
      ((m.handshakeInit ideal key pub payload eph now).2.heap m.next).Matches
        (.unready ⟨m.staticPub, pub, eph⟩) := by
  constructor
  · exact NoiseManager.getSession_install ..
  · show (NoiseManager.heap (m.install key _) m.next).Matches _
    rw [NoiseManager.heap_install]
    exact NoiseSession.addPendingData_matches (NoiseSession.new_matches key _ now) payload

/-- A side answers a first message: it has no entry for the sender, or it yields. -/
def NoiseManager.Answers (m : NoiseManager) (key : ByteArr 4) : Prop :=
  match m.getSession key with
  | none => True
  | some sid => (m.heap sid).isReady = false ∧ (m.heap sid).isInitiator = true ∧ key.1 < m.myVip.1

/-- Then the message goes to `handleResponderFirst`. -/
theorem handleNoisePacket_answers (h : m.Answers key) (f : First) (eph : Nat) (now : Int) :
    m.handleNoisePacket ideal key (.first f) eph now =
      m.handleResponderFirst ideal key (.first f) eph now := by
  unfold NoiseManager.Answers at h
  unfold NoiseManager.handleNoisePacket
  cases hent : m.getSession key with
  | none => rfl
  | some sid =>
    rw [hent] at h
    obtain ⟨hready, hrole, hyields⟩ := h
    have hlen : 64 ≤ ideal.len (.first f) := by
      rw [ideal_len_first]
      decide
    simp only [hready, NoiseManager.lockedBody, hrole, hlen, hyields, and_self, if_true,
      Bool.false_eq_true, if_false, Option.getD_none]

/-- A first message made for this side is then answered. -/
theorem handleNoisePacket_first (h : m.Answers key) {f : First}
    (hf : f.responder = m.staticPub) (eph : Nat) (now : Int) :
    ∃ m', m.handleNoisePacket ideal key (.first f) eph now
        = (m', .ok (some m.next, some (.reply ⟨f, eph⟩))) ∧
      m'.getSession key = some m.next ∧ (m'.heap m.next).Matches (.responder ⟨f, eph⟩) := by
  have hread : ideal.readFirst m.staticPub (.first f) = some f :=
    ideal_readFirst_eq_some.mpr ⟨rfl, hf⟩
  let s : NoiseSession := .responder key ⟨f, eph⟩ now
  refine ⟨(m.install key s).sendAllPendingData m.next, ?_, ?_, ?_⟩
  · rw [handleNoisePacket_answers h]
    simp only [NoiseManager.handleResponderFirst, hread]
    rfl
  · exact NoiseManager.getSession_install m key s
  · rw [NoiseManager.heap_sendAllPendingData, NoiseManager.heap_install]
    exact (NoiseSession.responder_matches key _ now).congr rfl rfl rfl

/-- A waiting initiator completes with the reply to its first message. -/
theorem handleNoisePacket_reply {sid : SessionId} (hent : m.getSession key = some sid)
    {t : Transcript} (hv : (m.heap sid).Matches (.unready t.first)) (eph : Nat) (now : Int) :
    (m.handleNoisePacket ideal key (.reply t) eph now).1.getSession key = some sid ∧
      ((m.handleNoisePacket ideal key (.reply t) eph now).1.heap sid).Matches
        (.initiator t) := by
  have hread : ideal.readReply t.first (.reply t) = some t :=
    ideal_readReply_eq_some.mpr ⟨rfl, rfl⟩
  have hcall : (m.handleNoisePacket ideal key (.reply t) eph now).1
      = (m.modify sid (·.complete t)).sendAllPendingData sid := by
    have hready : (m.heap sid).isReady = false := hv.ready
    have hrole : (m.heap sid).isInitiator = true := hv.role
    have hhs : (m.heap sid).hs = some t.first := hv.hs
    simp [NoiseManager.handleNoisePacket, hent, NoiseManager.lockedBody, hready, hrole, hhs, hread]
  rw [hcall]
  refine ⟨hent, ?_⟩
  rw [NoiseManager.heap_sendAllPendingData, NoiseManager.heap_modify]
  exact (NoiseSession.complete_matches hv t).congr rfl rfl rfl

/-- A ready entry answers nothing and stays as it is. -/
theorem handleNoisePacket_ready {sid : SessionId} (hent : m.getSession key = some sid)
    (hready : (m.heap sid).isReady = true) (d : Msg) (eph : Nat) (now : Int) :
    m.handleNoisePacket ideal key d eph now = (m, .ok (some sid, none)) := by
  simp only [NoiseManager.handleNoisePacket, hent, hready, if_true]

/-- Otherwise nothing is sent back, and the table stays as it is. -/
theorem handleNoisePacket_silent (h : ¬m.Answers key) (f : First) (eph : Nat) (now : Int) :
    ∃ r, m.handleNoisePacket ideal key (.first f) eph now = (m, r) ∧ responseOf r = none := by
  unfold NoiseManager.Answers at h
  cases hent : m.getSession key with
  | none =>
    rw [hent] at h
    exact absurd trivial h
  | some sid =>
    rw [hent] at h
    cases hready : (m.heap sid).isReady with
    | true => exact ⟨_, handleNoisePacket_ready hent hready _ _ _, rfl⟩
    | false =>
      cases hrole : (m.heap sid).isInitiator with
      | false =>
        refine ⟨.error .invalidState, ?_, rfl⟩
        simp [NoiseManager.handleNoisePacket, hent, hready, NoiseManager.lockedBody, hrole]
      | true =>
        -- the smaller address waits for the answer to its own handshake
        have hwaits : ¬key.1 < m.myVip.1 := fun hlt => h ⟨hready, hrole, hlt⟩
        refine ⟨.error .collision, ?_, rfl⟩
        simp [NoiseManager.handleNoisePacket, hent, hready, NoiseManager.lockedBody, hrole, hwaits]

end Calls

/-! ## Two managers that may restart -/

namespace Renewal

/-- The steps: those of the two managers and their workers, and a restart of one
client with a new static key. -/
inductive Act where
  | run (a : World.Act)
  | restart (x : Side) (staticPub : PublicKey)

/-- The clients as they are now: a restart changed the key. -/
def peers (P : Peers) (w : World) : Peers :=
  { P with static := fun x => (w.mgr x).staticPub }

/-- A restarted client has a new manager and idle workers. What was sent to the
old one can still arrive. -/
def restarted (P : Peers) (w : World) (x : Side) (staticPub : PublicKey) : World :=
  { w.setMgr x (.new staticPub (P.vip x)) with
    worker := Function.update w.worker x fun _ => .idle }

/-- A step of the handshakes, or a client that starts again with another key. -/
def step (P : Peers) (w : World) : Act → Option World
  | .run a => World.step (peers P w) w a
  | .restart x staticPub => some (restarted P w x staticPub)

/-- Two clients without sessions. -/
def machine (P : Peers) : Machine World Act := { init := World.start P, step := step P }

/-- `x` calls `HandshakeInit` with the peer's public key and sends the first
message. -/
def ask (P : Peers) (w : World) (x : Side) (payload : Bytes) : Msg × World :=
  let r := (w.mgr x).handshakeInit ideal (P.vip x.other) (w.mgr x.other).staticPub payload
    w.eph w.now
  (r.1, (w.setMgr x r.2).send x r.1)

/-- `x` hands a message to `HandleNoisePacket` and sends the response, if any. -/
def hear (P : Peers) (w : World) (x : Side) (d : Msg) : Option Msg × World :=
  let r := (w.mgr x).handleNoisePacket ideal (P.vip x.other) d w.eph w.now
  let w := w.setMgr x r.1
  match responseOf r.2 with
  | none => (none, w)
  | some reply => (some reply, w.send x reply)

/-- **The attempt of `x`**: it asks, the peer hears the first message, and `x`
hears the response, if there is one. -/
def renew (P : Peers) (w : World) (x : Side) (payload : Bytes) : World :=
  let (first, w) := ask P w x payload
  match hear P w x.other first with
  | (none, w) => w
  | (some reply, w) => (hear P w x reply).2

/-- Both sides hold ready sessions for each other, and each sends under the key
the other receives under. -/
def Agreed (P : Peers) (w : World) (x : Side) : Prop :=
  ∃ i j, (w.mgr x).getSession (P.vip x.other) = some i ∧
    (w.mgr x.other).getSession (P.vip x) = some j ∧
    ((w.mgr x).heap i).isReady = true ∧ ((w.mgr x.other).heap j).isReady = true ∧
    ((w.mgr x).heap i).KeysMatch ((w.mgr x.other).heap j)

section

variable {P : Peers} {w : World} {x : Side}

theorem mgr_ask_other (payload : Bytes) :
    (ask P w x payload).2.mgr x.other = w.mgr x.other :=
  Function.update_of_ne (Side.other_ne x) ..

/-- After asking, the entry of `x` waits for the reply to its first message. -/
theorem ask_entry (payload : Bytes) :
    ((ask P w x payload).2.mgr x).getSession (P.vip x.other) = some (w.mgr x).next ∧
      (((ask P w x payload).2.mgr x).heap (w.mgr x).next).Matches
        (.unready ⟨(w.mgr x).staticPub, (w.mgr x.other).staticPub, w.eph⟩) := by
  have hself : (ask P w x payload).2.mgr x = ((w.mgr x).handshakeInit ideal (P.vip x.other)
      (w.mgr x.other).staticPub payload w.eph w.now).2 :=
    Function.update_self ..
  rw [hself]
  exact handshakeInit_entry ..

/-- A side that answers, with a first message made for it. -/
theorem hear_first (hanswers : (w.mgr x).Answers (P.vip x.other)) {f : First}
    (hf : f.responder = (w.mgr x).staticPub) :
    ∃ w', hear P w x (.first f) = (some (.reply ⟨f, w.eph⟩), w') ∧
      w'.mgr x.other = w.mgr x.other ∧
      (w'.mgr x).getSession (P.vip x.other) = some (w.mgr x).next ∧
      ((w'.mgr x).heap (w.mgr x).next).Matches (.responder ⟨f, w.eph⟩) := by
  obtain ⟨m', hcall, hent, hresp⟩ := handleNoisePacket_first hanswers hf w.eph w.now
  have hself : (w.setMgr x m').mgr x = m' := Function.update_self ..
  refine ⟨(w.setMgr x m').send x (.reply ⟨f, w.eph⟩), ?_, ?_, ?_, ?_⟩
  · simp only [hear, hcall, responseOf]
  · exact Function.update_of_ne (Side.other_ne x) ..
  · show ((w.setMgr x m').mgr x).getSession _ = _
    rw [hself]
    exact hent
  · show (((w.setMgr x m').mgr x).heap _).Matches _
    rw [hself]
    exact hresp

/-- A side that waits completes with the reply to its first message. -/
theorem hear_reply {sid : SessionId} (hent : (w.mgr x).getSession (P.vip x.other) = some sid)
    {t : Transcript} (hv : ((w.mgr x).heap sid).Matches (.unready t.first)) :
    (hear P w x (.reply t)).2.mgr x.other = w.mgr x.other ∧
      ((hear P w x (.reply t)).2.mgr x).getSession (P.vip x.other) = some sid ∧
      (((hear P w x (.reply t)).2.mgr x).heap sid).Matches (.initiator t) := by
  have hmgr : (hear P w x (.reply t)).2.mgr = Function.update w.mgr x
      ((w.mgr x).handleNoisePacket ideal (P.vip x.other) (.reply t) w.eph w.now).1 := by
    unfold hear
    simp only
    split <;> rfl
  obtain ⟨hent', hinit⟩ := handleNoisePacket_reply hent hv w.eph w.now
  rw [hmgr, Function.update_self]
  exact ⟨Function.update_of_ne (Side.other_ne x) .., hent', hinit⟩

/-- A side that does not answer does not react. -/
theorem hear_silent (hsilent : ¬(w.mgr x).Answers (P.vip x.other)) (f : First) :
    hear P w x (.first f) = (none, w) := by
  obtain ⟨r, hcall, hnone⟩ := handleNoisePacket_silent hsilent f w.eph w.now
  have hsame : w.setMgr x (w.mgr x) = w := by
    unfold World.setMgr
    rw [Function.update_eq_self]
  simp only [hear, hcall, hnone, hsame]

/-- **A lost session is renewed** from every state in which the peer answers the side that asks. -/
theorem agreed_of_answers (payload : Bytes) (hpeer : (w.mgr x.other).Answers (P.vip x)) :
    Agreed P (renew P w x payload) x := by
  let f : First := ⟨(w.mgr x).staticPub, (w.mgr x.other).staticPub, w.eph⟩
  let w₁ := (ask P w x payload).2
  have hother : w₁.mgr x.other = w.mgr x.other := mgr_ask_other payload
  obtain ⟨hent, hwait⟩ : (w₁.mgr x).getSession (P.vip x.other) = some (w.mgr x).next ∧
      ((w₁.mgr x).heap (w.mgr x).next).Matches (.unready f) := ask_entry payload
  -- the peer answers
  obtain ⟨w₂, hhear, hkeep, hpent, hresp⟩ := hear_first (P := P) (w := w₁) (x := x.other) (f := f)
    (by rw [hother, Side.other_other]; exact hpeer) (by rw [hother])
  rw [Side.other_other] at hkeep hpent
  -- and `x` completes
  obtain ⟨hkeep', hent', hinit⟩ := hear_reply (P := P) (w := w₂) (x := x)
    (t := ⟨f, w₁.eph⟩) (by rw [hkeep]; exact hent) (by rw [hkeep]; exact hwait)
  have hrenew : renew P w x payload = (hear P w₂ x (.reply ⟨f, w₁.eph⟩)).2 := by
    show (match hear P w₁ x.other (.first f) with
      | (none, w) => w
      | (some reply, w) => (hear P w x reply).2) = _
    rw [hhear]
  rw [hrenew]
  refine ⟨(w.mgr x).next, (w₁.mgr x.other).next, hent', ?_, hinit.ready, ?_, ?_⟩
  · rw [hkeep']
    exact hpent
  · rw [hkeep']
    exact hresp.ready
  · rw [hkeep']
    exact (hinit.keysMatch hresp).1

/-- **A peer that does not answer keeps the other side out**: whatever its session is, the
attempt leaves the side that asked waiting. -/
theorem not_agreed_of_silent (payload : Bytes) (hpeer : ¬(w.mgr x.other).Answers (P.vip x)) :
    ¬Agreed P (renew P w x payload) x := by
  let w₁ := (ask P w x payload).2
  have hother : w₁.mgr x.other = w.mgr x.other := mgr_ask_other payload
  have hsilent : hear P w₁ x.other (ask P w x payload).1 = (none, w₁) := by
    refine hear_silent ?_ _
    rw [hother, Side.other_other]
    exact hpeer
  have hrenew : renew P w x payload = w₁ := by
    show (match hear P w₁ x.other (ask P w x payload).1 with
      | (none, w) => w
      | (some reply, w) => (hear P w x reply).2) = _
    rw [hsilent]
  obtain ⟨hown, hwait⟩ := ask_entry (P := P) (w := w) (x := x) payload
  rw [hrenew]
  rintro ⟨i, j, hi, -, hiready, -⟩
  rw [hown] at hi
  cases hi
  rw [hwait.ready] at hiready
  cases hiready

end

/-- **A lost session is renewed if and only if the peer answers**, from every state of the two
managers: it has no entry for the side that asks, or it waits as an initiator and has the larger
address. -/
theorem renewed_iff (P : Peers) (w : World) (x : Side) (payload : Bytes) :
    Agreed P (renew P w x payload) x ↔
      ∀ sid, (w.mgr x.other).getSession (P.vip x) = some sid →
        ((w.mgr x.other).heap sid).isReady = false ∧
          ((w.mgr x.other).heap sid).isInitiator = true ∧
          (P.vip x).1 < (w.mgr x.other).myVip.1 := by
  have hanswers : (w.mgr x.other).Answers (P.vip x) ↔
      ∀ sid, (w.mgr x.other).getSession (P.vip x) = some sid →
        ((w.mgr x.other).heap sid).isReady = false ∧
          ((w.mgr x.other).heap sid).isInitiator = true ∧
          (P.vip x).1 < (w.mgr x.other).myVip.1 := by
    unfold NoiseManager.Answers
    cases (w.mgr x.other).getSession (P.vip x) with
    | none => simp
    | some sid => simp
  rw [← hanswers]
  constructor
  · intro hagreed
    by_contra hsilent
    exact not_agreed_of_silent payload hsilent hagreed
  · exact agreed_of_answers payload

/-- One handshake from `a` to `b`, worker by worker. -/
def handshake : List Act :=
  [.run (.initiate .a []), .run (.lookup .b 0 (.first (Peers.sampleFirst 0))),
    .run (.respond .b 0), .run (.lookup .a 0 (.reply ⟨Peers.sampleFirst 0, 1⟩)),
    .run (.lock .a 0)]

/-- Both sides swept their session, and the next handshake succeeds. -/
theorem renewed_iff_swept :
    ∃ w, ((machine .sample).Reach w ∧ (w.mgr .a).next = 1 ∧
        (w.mgr .b).getSession (Peers.sample.vip .a) = none ∧
        (w.mgr .a).getSession (Peers.sample.vip .b) = none) ∧
      Agreed .sample (renew .sample w .b [69]) .b := by
  obtain ⟨w, hreach, hnext, hb, ha⟩ : ∃ w, (machine .sample).Reach w ∧ (w.mgr .a).next = 1 ∧
      (w.mgr .b).getSession (Peers.sample.vip .a) = none ∧
      (w.mgr .a).getSession (Peers.sample.vip .b) = none :=
    Machine.exists_reach
      (handshake ++ [.run (.tick 11), .run (.sweep .a 10), .run (.sweep .b 10)])
      (by decide +kernel)
  refine ⟨w, ⟨hreach, hnext, hb, ha⟩, (renewed_iff .sample w .b [69]).mpr fun sid hsid => ?_⟩
  cases ha.symm.trans hsid

/-- **A restart locks a client out**: the two have a session, `b` restarts with a
new key, and `a`, whose entry is ready, does not answer its handshake. -/
theorem restarted_peer_stays_out :
    ∃ w, (machine .sample).Reach w ∧
      (w.mgr .b).getSession (Peers.sample.vip .a) = none ∧
      (w.mgr .a).getSession (Peers.sample.vip .b) = some 0 ∧
      ((w.mgr .a).heap 0).isReady = true ∧ ¬ Agreed .sample (renew .sample w .b [69]) .b := by
  obtain ⟨w, hreach, hb, ha, hready⟩ : ∃ w, (machine .sample).Reach w ∧
      (w.mgr .b).getSession (Peers.sample.vip .a) = none ∧
      (w.mgr .a).getSession (Peers.sample.vip .b) = some 0 ∧
      ((w.mgr .a).heap 0).isReady = true :=
    Machine.exists_reach (handshake ++ [.restart .b (.ofBytes 32 [3])]) (by decide +kernel)
  refine ⟨w, hreach, hb, ha, hready, not_agreed_of_silent [69] ?_⟩
  show ¬(w.mgr .a).Answers (Peers.sample.vip .b)
  unfold NoiseManager.Answers
  rw [ha]
  rintro ⟨hwaits, -⟩
  cases hready.symm.trans hwaits

end Renewal

end EasyTun.Protocol
