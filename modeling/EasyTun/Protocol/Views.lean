import EasyTun.Protocol.Noise

/-!
# Views of a session table

What two clients must agree on is little: which handshake a session belongs to
and in which role. A `View` is that part of a session object, a `Party` the part
of a manager that concerns one peer, made of views. Counters, pending packets,
time stamps and locks are not in it.

`Represents m key p` says that the manager `m` is the party `p` towards the peer
`key`. The lemmas below say what each function of the manager does to the party:

- `Represents.install`: a new session, in either role, replaces the current one;
- `Represents.modify`: what leaves role and keys alone leaves the party alone;
- `Represents.complete`: an initiator reads its reply;
- `Represents.sweep`: a sweep may drop the current session;
- `handleResponderFirst_cases`, `lockedBody_cases`: the two halves of
  `HandleNoisePacket`, over the ideal handshake.
-/

namespace EasyTun.Protocol

open EasyTun.Lib
open EasyTun.Lib.NoiseIK

/-! ## Views -/

/-- A session, up to what a peer can notice. -/
inductive View where
  /-- An initiator that waits for the reply to `f`. -/
  | unready (f : First)
  /-- An initiator that has read the reply of `t`. -/
  | initiator (t : Transcript)
  /-- The responder of `t`. -/
  | responder (t : Transcript)
  deriving DecidableEq

namespace View

/-- The keys are there. -/
def isReady : View → Bool
  | .unready _ => false
  | _ => true

/-- The handshake was begun here. -/
def isInitiator : View → Bool
  | .responder _ => false
  | _ => true

/-- The first message an initiator session asked with. -/
def asked : View → Option First
  | .unready f => some f
  | .initiator t => some t.first
  | .responder _ => none

/-- The handshake state that waits for a reply. -/
def hs : View → Option First
  | .unready f => some f
  | _ => none

/-- The key of `Cipher.Sender`. -/
def sendKey : View → Option Key
  | .unready _ => none
  | .initiator t => some ⟨t, .cs2⟩
  | .responder t => some ⟨t, .cs1⟩

/-- The key of `Cipher.Recver`. -/
def recvKey : View → Option Key
  | .unready _ => none
  | .initiator t => some ⟨t, .cs1⟩
  | .responder t => some ⟨t, .cs2⟩

end View

/-- The session object looks like the view. -/
structure NoiseSession.Matches (s : NoiseSession) (v : View) : Prop where
  ready : s.isReady = v.isReady
  role : s.isInitiator = v.isInitiator
  hs : s.hs = v.hs
  recv : s.recvKey = v.recvKey
  send : s.sendKey = v.sendKey

namespace NoiseSession

/-- The fields outside the view do not matter. -/
theorem Matches.congr {s s' : NoiseSession} {v : View} (h : s.Matches v)
    (hc : s'.cipher = s.cipher) (hi : s'.isInitiator = s.isInitiator) (hh : s'.hs = s.hs) :
    s'.Matches v where
  ready := by rw [isReady, hc]; exact h.ready
  role := hi.trans h.role
  hs := hh.trans h.hs
  recv := by rw [recvKey, hc]; exact h.recv
  send := by rw [sendKey, hc]; exact h.send

theorem addPendingData_matches {s : NoiseSession} {v : View} (h : s.Matches v) (data : Bytes) :
    (s.addPendingData data).Matches v := by
  unfold addPendingData
  split
  · exact h
  · split
    · exact h.congr rfl rfl rfl
    · exact h

theorem drawNonce_matches {s : NoiseSession} {v : View} (h : s.Matches v) :
    s.drawNonce.Matches v where
  ready := h.ready
  role := h.role
  hs := h.hs
  recv := h.recv
  send := by
    rw [← h.send]
    show (s.cipher.sender.map (·.getNonce.2)).map (·.key) = s.cipher.sender.map (·.key)
    rw [Option.map_map]
    rfl

theorem new_matches (vip : ByteArr 4) (f : First) (now : Int) :
    (new vip true (some f) now).Matches (.unready f) :=
  ⟨rfl, rfl, rfl, rfl, rfl⟩

theorem responder_matches (vip : ByteArr 4) (t : Transcript) (now : Int) :
    (responder vip t now).Matches (.responder t) :=
  ⟨rfl, rfl, rfl, rfl, rfl⟩

/-- A ready view has keys. -/
theorem Matches.isSome_sendKey {s : NoiseSession} {v : View} (h : s.Matches v)
    (hr : v.isReady = true) : s.sendKey.isSome = true := by
  rw [h.send]
  cases v with
  | unready f => cases hr
  | initiator t => rfl
  | responder t => rfl

theorem complete_matches {s : NoiseSession} {f : First} (h : s.Matches (.unready f))
    (t : Transcript) : (s.complete t).Matches (.initiator t) :=
  ⟨rfl, h.role, rfl, rfl, rfl⟩

/-- An initiator and the responder it was answered by have matching keys. -/
theorem Matches.keysMatch {s s' : NoiseSession} {t : Transcript}
    (h : s.Matches (.initiator t)) (h' : s'.Matches (.responder t)) :
    s.KeysMatch s' ∧ s'.KeysMatch s := by
  have h1 : s.sendKey = s'.recvKey := h.send.trans h'.recv.symm
  have h2 : s'.sendKey = s.recvKey := h'.send.trans h.recv.symm
  have h3 := h.isSome_sendKey rfl
  have h4 := h'.isSome_sendKey rfl
  exact ⟨⟨h3, h4, h1, h2⟩, ⟨h4, h3, h2, h1⟩⟩

end NoiseSession

/-! ## Parties -/

/-- One side of a handshake: who it is, the sessions it ever made with the peer,
and the one its table holds. -/
structure Party where
  vip : ByteArr 4
  static : PublicKey
  obj : SessionId → View
  next : SessionId
  cur : Option SessionId

namespace Party

/-- A party that has never met its peer. -/
def new (static : PublicKey) (vip : ByteArr 4) : Party :=
  { vip, static, obj := fun _ => .unready ⟨.zero 32, .zero 32, 0⟩, next := 0, cur := none }

/-- A new session replaces the current one. -/
def install (p : Party) (v : View) : Party :=
  { p with obj := Function.update p.obj p.next v, next := p.next + 1, cur := some p.next }

/-- An initiator session becomes ready. -/
def complete (p : Party) (i : SessionId) (t : Transcript) : Party :=
  { p with obj := Function.update p.obj i (.initiator t) }

/-- The current session expires. -/
def drop (p : Party) : Party := { p with cur := none }

/-- The view of the current session. -/
def view (p : Party) : Option View := p.cur.map p.obj

@[simp] theorem view_install (p : Party) (v : View) : (p.install v).view = some v := by
  show some (Function.update p.obj p.next v p.next) = some v
  rw [Function.update_self]

/-- Completing the current session shows. -/
theorem view_complete_cur {p : Party} {i : SessionId} (hi : p.cur = some i) (t : Transcript) :
    (p.complete i t).view = some (.initiator t) := by
  show p.cur.map (Function.update p.obj i (.initiator t)) = _
  rw [hi, Option.map_some, Function.update_self]

/-- Completing a waiting session shows only if it is the current one. -/
theorem view_complete {p : Party} {i : SessionId} {t : Transcript}
    (hi : p.obj i = .unready t.first) :
    (p.complete i t).view = p.view ∨
      p.view = some (.unready t.first) ∧ (p.complete i t).view = some (.initiator t) := by
  show p.cur.map (Function.update p.obj i (.initiator t)) = p.cur.map p.obj ∨ _
  cases hcur : p.cur with
  | none => exact Or.inl rfl
  | some j =>
    by_cases heq : j = i
    · subst heq
      refine Or.inr ⟨?_, view_complete_cur hcur t⟩
      rw [view, hcur, Option.map_some, hi]
    · refine Or.inl ?_
      rw [Option.map_some, Option.map_some, Function.update_of_ne heq]

end Party

/-- The manager `m` is the party `p` towards the peer `key`. -/
structure Represents (m : NoiseManager) (key : ByteArr 4) (p : Party) : Prop where
  vip : m.myVip = p.vip
  static : m.staticPub = p.static
  next : m.next = p.next
  cur : m.getSession key = p.cur
  cur_lt : ∀ i, p.cur = some i → i < p.next
  obj : ∀ i, i < p.next → (m.heap i).Matches (p.obj i)

namespace Represents

variable {m : NoiseManager} {key : ByteArr 4} {p : Party}

theorem new (static : PublicKey) (vip key : ByteArr 4) :
    Represents (.new static vip) key (.new static vip) where
  vip := rfl
  static := rfl
  next := rfl
  cur := rfl
  cur_lt := fun _ h => (nomatch h)
  obj := fun _ h => absurd h (Nat.not_lt_zero _)

/-- A new session object replaces the current one. -/
theorem install (h : Represents m key p) {s : NoiseSession} {v : View} (hs : s.Matches v) :
    Represents (m.install key s) key (p.install v) where
  vip := h.vip
  static := h.static
  next := congrArg (· + 1) h.next
  cur := by
    show (m.sessions.insert key m.next).lookup key = some p.next
    rw [AList.lookup_insert, h.next]
  cur_lt := by
    intro i hi
    cases hi
    exact Nat.lt_succ_self _
  obj := by
    intro i hi
    show (Function.update m.heap m.next s i).Matches (Function.update p.obj p.next v i)
    rw [h.next]
    by_cases heq : i = p.next
    · subst heq
      rw [Function.update_self, Function.update_self]
      exact hs
    · rw [Function.update_of_ne heq, Function.update_of_ne heq]
      exact h.obj i (Nat.lt_of_le_of_ne (Nat.le_of_lt_succ hi) heq)

/-- An assignment that keeps role and keys is not visible. -/
theorem modify (h : Represents m key p) (sid : SessionId) {f : NoiseSession → NoiseSession}
    (hf : ∀ s v, s.Matches v → (f s).Matches v) : Represents (m.modify sid f) key p where
  vip := h.vip
  static := h.static
  next := h.next
  cur := h.cur
  cur_lt := h.cur_lt
  obj := by
    intro i hi
    show (Function.update m.heap sid (f (m.heap sid)) i).Matches (p.obj i)
    by_cases heq : i = sid
    · subst heq
      rw [Function.update_self]
      exact hf _ _ (h.obj i hi)
    · rw [Function.update_of_ne heq]
      exact h.obj i hi

theorem sendAllPendingData (h : Represents m key p) (sid : SessionId) :
    Represents (m.sendAllPendingData sid) key p := by
  have hmod : Represents (m.modify sid fun s => { s with pendingChan := [] }) key p :=
    h.modify sid fun _ _ hm => hm.congr rfl rfl rfl
  exact ⟨hmod.vip, hmod.static, hmod.next, hmod.cur, hmod.cur_lt, hmod.obj⟩

/-- An initiator reads a reply. -/
theorem complete (h : Represents m key p) {i : SessionId} (hi : i < p.next) {f : First}
    (hv : p.obj i = .unready f) (t : Transcript) :
    Represents (m.modify i (·.complete t)) key (p.complete i t) where
  vip := h.vip
  static := h.static
  next := h.next
  cur := h.cur
  cur_lt := h.cur_lt
  obj := by
    intro j hj
    show (Function.update m.heap i ((m.heap i).complete t) j).Matches
      (Function.update p.obj i (.initiator t) j)
    by_cases heq : j = i
    · subst heq
      rw [Function.update_self, Function.update_self]
      exact NoiseSession.complete_matches (hv ▸ h.obj j hi) t
    · rw [Function.update_of_ne heq, Function.update_of_ne heq]
      exact h.obj j hj

/-- A sweep leaves the current session or drops it. -/
theorem sweep (h : Represents m key p) (timeout now : Int) :
    Represents (m.sweepSessions timeout now) key p ∨
      Represents (m.sweepSessions timeout now) key p.drop := by
  have hcur : (m.sweepSessions timeout now).getSession key
      = p.cur.filter fun sid => !(m.heap sid).isTimeout timeout now := by
    rw [← h.cur]
    exact Map.lookup_keepIf ..
  cases hp : p.cur with
  | none =>
    rw [hp] at hcur
    exact Or.inl ⟨h.vip, h.static, h.next, hcur.trans hp.symm, h.cur_lt, h.obj⟩
  | some sid =>
    rw [hp, Option.filter_some] at hcur
    by_cases hexp : (!(m.heap sid).isTimeout timeout now) = true
    · rw [if_pos hexp] at hcur
      exact Or.inl ⟨h.vip, h.static, h.next, hcur.trans hp.symm, h.cur_lt, h.obj⟩
    · rw [if_neg hexp] at hcur
      exact Or.inr ⟨h.vip, h.static, h.next, hcur, fun _ hn => (nomatch hn), h.obj⟩

end Represents

/-! ## The manager's functions, over the ideal handshake -/

section Ideal

variable {m : NoiseManager} {key : ByteArr 4} {p : Party}

/-- `HandshakeInit` installs an initiator session for a new first message. -/
theorem handshakeInit_represents (h : Represents m key p) (pub : PublicKey) (payload : Bytes)
    (eph : Nat) (now : Int) :
    (m.handshakeInit ideal key pub payload eph now).1 = .first ⟨p.static, pub, eph⟩ ∧
      Represents (m.handshakeInit ideal key pub payload eph now).2 key
        (p.install (.unready ⟨p.static, pub, eph⟩)) := by
  rw [← h.static]
  exact ⟨rfl, h.install
    (NoiseSession.addPendingData_matches (NoiseSession.new_matches key _ now) payload)⟩

/-- `handleResponderFirst` answers a first message made for this party and
refuses everything else. -/
theorem handleResponderFirst_cases (h : Represents m key p) (d : Msg) (eph : Nat) (now : Int) :
    ((∀ f, d = .first f → f.responder ≠ p.static) ∧
      m.handleResponderFirst ideal key d eph now = (m, .error .readMessage)) ∨
    ∃ f m', d = .first f ∧ f.responder = p.static ∧
      m.handleResponderFirst ideal key d eph now
        = (m', .ok (some m.next, some (.reply ⟨f, eph⟩))) ∧
      Represents m' key (p.install (.responder ⟨f, eph⟩)) := by
  unfold NoiseManager.handleResponderFirst
  cases hread : ideal.readFirst m.staticPub d with
  | none =>
    refine Or.inl ⟨?_, rfl⟩
    rintro f rfl hf
    rw [ideal_readFirst_eq_some.mpr ⟨rfl, hf.trans h.static.symm⟩] at hread
    cases hread
  | some f =>
    obtain ⟨hd, hf⟩ := ideal_readFirst_eq_some.mp hread
    exact Or.inr ⟨f, _, hd, hf.trans h.static, rfl,
      (h.install (NoiseSession.responder_matches key _ now)).sendAllPendingData _⟩

/-- The body under the session's lock, case by case: a ready session is handed
out; an initiator yields to or rejects a message of 64 bytes or more, and tries
to read a shorter one as its reply. -/
theorem lockedBody_cases (h : Represents m key p) {sid : SessionId} (hsid : sid < p.next)
    (src : ByteArr 4) (d : Msg) :
    ((p.obj sid).isReady = true ∧
      m.lockedBody ideal sid src d = some (m, .ok (some sid, none))) ∨
    ∃ f, p.obj sid = .unready f ∧
      ((64 ≤ ideal.len d ∧ src.1 < p.vip.1 ∧ m.lockedBody ideal sid src d = none) ∨
       (64 ≤ ideal.len d ∧ ¬ src.1 < p.vip.1 ∧
          m.lockedBody ideal sid src d = some (m, .error .collision)) ∨
       (∃ t m', d = .reply t ∧ t.first = f ∧
          m.lockedBody ideal sid src d = some (m', .ok (none, none)) ∧
          Represents m' key (p.complete sid t)) ∨
       (¬ 64 ≤ ideal.len d ∧ (∀ t, d = .reply t → t.first ≠ f) ∧
          m.lockedBody ideal sid src d = some (m, .error .readMessage))) := by
  have hobj := h.obj sid hsid
  unfold NoiseManager.lockedBody
  simp only [hobj.ready, hobj.role, hobj.hs, h.vip]
  cases hv : p.obj sid with
  | initiator t => exact Or.inl ⟨rfl, rfl⟩
  | responder t => exact Or.inl ⟨rfl, rfl⟩
  | unready f =>
    refine Or.inr ⟨f, rfl, ?_⟩
    simp only [View.isReady, View.isInitiator, View.hs, Option.bind_some, true_and,
      Bool.false_eq_true, if_false, if_true]
    by_cases hlen : 64 ≤ ideal.len d
    · rw [if_pos hlen]
      by_cases hlt : src.1 < p.vip.1
      · exact Or.inl ⟨hlen, hlt, if_pos hlt⟩
      · exact Or.inr (Or.inl ⟨hlen, hlt, if_neg hlt⟩)
    · rw [if_neg hlen]
      cases hread : ideal.readReply f d with
      | none =>
        refine Or.inr (Or.inr (Or.inr ⟨hlen, ?_, rfl⟩))
        rintro t rfl ht
        rw [ideal_readReply_eq_some.mpr ⟨rfl, ht⟩] at hread
        cases hread
      | some t =>
        obtain ⟨hd, ht⟩ := ideal_readReply_eq_some.mp hread
        exact Or.inr (Or.inr (Or.inl ⟨t, _, hd, ht, rfl,
          (h.complete hsid hv t).sendAllPendingData sid⟩))

/-- The party answers this message: a first message for it, when it has no
session, or waits itself and has the larger address. -/
def Answers (p : Party) (src : ByteArr 4) (d : Msg) : Prop :=
  ∃ f, d = .first f ∧ f.responder = p.static ∧
    (p.view = none ∨ ∃ g, p.view = some (.unready g) ∧ src.1 < p.vip.1)

/-- The party completes its session with this message. -/
def Completes (p : Party) (d : Msg) : Prop := ∃ t, d = .reply t ∧ p.view = some (.unready t.first)

/-- What a run of `HandleNoisePacket` with this outcome did to the party: it
answered, completed, or left the party as it is and sent nothing. -/
def Handled (p : Party) (key : ByteArr 4) (d : Msg) (eph : Nat)
    (r : NoiseManager × HandleResult Msg) : Prop :=
  (∃ f, d = .first f ∧ Answers p key d ∧ responseOf r.2 = some (.reply ⟨f, eph⟩) ∧
    Represents r.1 key (p.install (.responder ⟨f, eph⟩))) ∨
  (∃ i t, d = .reply t ∧ p.cur = some i ∧ p.obj i = .unready t.first ∧
    responseOf r.2 = none ∧ Represents r.1 key (p.complete i t)) ∨
  (¬ Answers p key d ∧ ¬ Completes p d ∧ responseOf r.2 = none ∧ Represents r.1 key p)

/-- A reply is too short to be taken for a first message. -/
theorem not_completes_of_long {d : Msg} (hlen : 64 ≤ ideal.len d) : ¬ Completes p d := by
  rintro ⟨t, rfl, -⟩
  rw [ideal_len_reply] at hlen
  omega

/-- A first message is too long to be taken for a reply. -/
theorem not_answers_of_short {d : Msg} (hlen : ¬ 64 ≤ ideal.len d) : ¬ Answers p key d := by
  rintro ⟨f, rfl, -⟩
  rw [ideal_len_first] at hlen
  omega

/-- A ready session takes no part in a handshake. -/
theorem idle_of_ready {v : View} (hview : p.view = some v) (hready : v.isReady = true)
    (d : Msg) : ¬ Answers p key d ∧ ¬ Completes p d := by
  have hne : ∀ g, p.view ≠ some (.unready g) := by
    intro g hg
    rw [hview] at hg
    cases hg
    cases hready
  constructor
  · rintro ⟨f, -, -, hnone | ⟨g, hg, -⟩⟩
    · rw [hview] at hnone
      cases hnone
    · exact hne g hg
  · rintro ⟨t, -, ht⟩
    exact hne _ ht

/-- `handleResponderFirst`, where the party is one that answers. -/
theorem handled_responderFirst (h : Represents m key p) {d : Msg} (eph : Nat) (now : Int)
    (hfree : p.view = none ∨ ∃ g, p.view = some (.unready g) ∧ key.1 < p.vip.1)
    (hcom : ¬ Completes p d) :
    Handled p key d eph (m.handleResponderFirst ideal key d eph now) := by
  rcases handleResponderFirst_cases h d eph now with ⟨hno, hr⟩ | ⟨f, m', hd, hf, hr, hm'⟩
  · rw [hr]
    refine Or.inr (Or.inr ⟨?_, hcom, rfl, h⟩)
    rintro ⟨f, hd, hf, -⟩
    exact hno f hd hf
  · rw [hr]
    exact Or.inl ⟨f, hd, ⟨f, hd, hf, hfree⟩, rfl, hm'⟩

/-- The locked part, for a current session that waits. -/
theorem handled_lockedBody (h : Represents m key p) {sid : SessionId} (hcur : p.cur = some sid)
    (hready : ¬ (p.obj sid).isReady = true) (d : Msg) (eph : Nat) (now : Int) :
    Handled p key d eph ((m.lockedBody ideal sid key d).getD
      (m.handleResponderFirst ideal key d eph now)) := by
  rcases lockedBody_cases h (h.cur_lt sid hcur) key d with ⟨hr, -⟩ | ⟨g, hv, hb⟩
  · exact absurd hr hready
  · have hview : p.view = some (.unready g) := by
      rw [Party.view, hcur, Option.map_some, hv]
    rcases hb with ⟨hlen, hlt, hb⟩ | ⟨hlen, hlt, hb⟩ | ⟨t, m', hd, ht, hb, hm'⟩ |
      ⟨hlen, hno, hb⟩
    · -- it yields to the peer
      rw [hb, Option.getD_none]
      exact handled_responderFirst h eph now (Or.inr ⟨g, hview, hlt⟩)
        (not_completes_of_long hlen)
    · -- it insists on its own first message
      rw [hb, Option.getD_some]
      refine Or.inr (Or.inr ⟨?_, not_completes_of_long hlen, rfl, h⟩)
      rintro ⟨f, -, -, hnone | ⟨g', -, hlt'⟩⟩
      · rw [hview] at hnone
        cases hnone
      · exact hlt hlt'
    · rw [hb, Option.getD_some]
      exact Or.inr (Or.inl ⟨sid, t, hd, hcur, ht ▸ hv, rfl, hm'⟩)
    · rw [hb, Option.getD_some]
      refine Or.inr (Or.inr ⟨not_answers_of_short hlen, ?_, rfl, h⟩)
      rintro ⟨t, hd, ht⟩
      rw [hview] at ht
      cases ht
      exact hno t hd rfl

/-- **`HandleNoisePacket`, run without interruption**: it answers, completes, or
leaves the party as it is and sends nothing. -/
theorem handleNoisePacket_cases (h : Represents m key p) (d : Msg) (eph : Nat) (now : Int) :
    Handled p key d eph (m.handleNoisePacket ideal key d eph now) := by
  unfold NoiseManager.handleNoisePacket
  rw [h.cur]
  cases hcur : p.cur with
  | none =>
    have hview : p.view = none := by
      rw [Party.view, hcur]
      rfl
    refine handled_responderFirst h eph now (Or.inl hview) ?_
    rintro ⟨t, -, ht⟩
    rw [hview] at ht
    cases ht
  | some sid =>
    simp only
    rw [(h.obj sid (h.cur_lt sid hcur)).ready]
    by_cases hready : (p.obj sid).isReady = true
    · rw [if_pos hready]
      have hview : p.view = some (p.obj sid) := by
        rw [Party.view, hcur]
        rfl
      obtain ⟨hans, hcom⟩ := idle_of_ready hview hready d
      exact Or.inr (Or.inr ⟨hans, hcom, rfl, h⟩)
    · rw [if_neg hready]
      exact handled_lockedBody h hcur hready d eph now

end Ideal

end EasyTun.Protocol
