import EasyTun.Lib.ChaCha20Poly1305
import EasyTun.Protocol.Codec
import EasyTun.Protocol.Workers

/-!
# Nonces

Any number of send workers call `EncodePacket` on the sessions of the pair of
clients, while sessions are made, replaced and swept. A worker keeps the session
it looked up, so it may go on sending on one that the table no longer holds. An
`EncodePacket` is two steps here: `draw` takes a counter value from the session's
`Sender`, which is one atomic addition, and `encrypt` runs the rest of the call with
the value that was drawn.

`seals_nodup`: **no two `Seal` calls of a run use the same key together with the
same nonce**, and the nonce of each is the one in its packet's header. A counter
value is used at most once because it is drawn once, and no two sessions of the
pair send under the same key.
-/

namespace EasyTun.Protocol

open EasyTun.Lib
open EasyTun.Lib.NoiseIK

/-! ## The model -/

/-- Which counter value a worker drew: the session, and how many were drawn from
it before. For the proofs only. -/
structure Token where
  side : Side
  sid : SessionId
  index : Nat
  deriving DecidableEq

/-- A worker between `GetNonce` and `Seal`. -/
structure Drawn where
  key : Key
  nonce : UInt64
  packet : GamePacket
  control : Bool
  token : Token

/-- One `Seal` call, with the packet it was made for. -/
structure SealRecord where
  call : SealCall Key
  wire : Bytes
  token : Token

/-- The pair, its send workers, how many counter values were drawn from each
session, and every `Seal` call so far. -/
structure Traffic where
  world : World
  sender : Side → Nat → Option Drawn
  draws : Side → SessionId → Nat
  seals : List SealRecord

namespace Traffic

/-- The steps. -/
inductive Act where
  | noise (a : World.Act)
  /-- `EncodePacket` on a session, up to its `GetNonce`. -/
  | draw (x : Side) (k : Nat) (sid : SessionId) (g : GamePacket) (pool : Pool)
      (control compress : Bool)
  /-- The rest of the call, with its `Seal`. -/
  | encrypt (x : Side) (k : Nat)

/-- A worker takes the next counter value of a session's `Sender`. -/
def drawAt (t : Traffic) (x : Side) (k : Nat) (sid : SessionId) (cs : CipherState Key)
    (packet : GamePacket) (control : Bool) : Traffic :=
  { t with
    world := t.world.setMgr x ((t.world.mgr x).modify sid (·.drawNonce))
    sender := set₂ t.sender x k (some
      { key := cs.key, nonce := cs.getNonce.1, packet, control
        token := ⟨x, sid, t.draws x sid⟩ })
    draws := set₂ t.draws x sid (t.draws x sid + 1) }

/-- The `Seal` calls of the body of `encode` for what a worker drew. -/
def sealsOf (A : Aead Key) (d : Drawn) : List SealRecord :=
  let r := d.packet.encodeAt A [] d.control (some d.key) d.nonce
  r.2.map fun call => { call, wire := r.1, token := d.token }

variable (P : Peers) (A : Aead Key) (L : Lz4)

/-- A step of the handshakes, or of a goroutine that seals a packet. -/
def step (t : Traffic) : Act → Option Traffic
  | .noise a => (World.step P t.world a).map fun w => { t with world := w }
  | .draw x k sid g pool control compress =>
    match t.sender x k, ((t.world.mgr x).heap sid).cipher.sender, g.prepare L pool compress with
    | none, some cs, some packet => some (t.drawAt x k sid cs packet control)
    | _, _, _ => none
  | .encrypt x k =>
    match t.sender x k with
    | some d =>
      some { t with sender := set₂ t.sender x k none, seals := t.seals ++ sealsOf A d }
    | none => none

/-- Nobody has a session, and nothing was sealed. -/
def start : Traffic :=
  { world := World.start P, sender := fun _ _ => none, draws := fun _ _ => 0, seals := [] }

/-- The traffic of two clients from its start. -/
def machine : Machine Traffic Act := { init := start P, step := step P A L }

end Traffic

/-! ## How senders come to be -/

namespace NoiseManager

/-- The `Sender` of a session object. -/
def senderOf (m : NoiseManager) (sid : SessionId) : Option (CipherState Key) :=
  (m.heap sid).cipher.sender

theorem sendKey_heap (m : NoiseManager) (sid : SessionId) :
    (m.heap sid).sendKey = (m.senderOf sid).map (·.key) := rfl

/-- Objects that were not made yet have no `Sender`. -/
def Fresh (m : NoiseManager) : Prop := ∀ sid, m.next ≤ sid → m.senderOf sid = none

/-- From one state of a manager to a later one a `Sender` never changes; it may
only come to be, with its counter at 0. -/
structure SenderStep (m m' : NoiseManager) : Prop where
  fresh : m.Fresh → m'.Fresh
  sender : m.Fresh → ∀ sid, m'.senderOf sid = m.senderOf sid ∨
    m.senderOf sid = none ∧ ∃ k, m'.senderOf sid = some ⟨k, 0⟩

namespace SenderStep

variable {m m' m'' : NoiseManager}

theorem refl (m : NoiseManager) : SenderStep m m := ⟨id, fun _ _ => Or.inl rfl⟩

theorem trans (h : SenderStep m m') (h' : SenderStep m' m'') : SenderStep m m'' where
  fresh := h'.fresh ∘ h.fresh
  sender := by
    intro hf sid
    rcases h.sender hf sid with heq | ⟨hnone, k, hk⟩
    · rw [← heq]
      exact h'.sender (h.fresh hf) sid
    · rcases h'.sender (h.fresh hf) sid with heq' | ⟨hnone', -⟩
      · exact Or.inr ⟨hnone, k, heq'.trans hk⟩
      · rw [hk] at hnone'
        cases hnone'

/-- A change of the table, the queue or other fields. -/
theorem of_heap (hheap : m'.heap = m.heap) (hnext : m'.next = m.next) : SenderStep m m' where
  fresh := by
    intro hf sid hsid
    rw [senderOf, hheap]
    exact hf sid (hnext ▸ hsid)
  sender := fun _ sid => Or.inl (by rw [senderOf, hheap, senderOf])

/-- An assignment to a session that keeps its `Sender`. -/
theorem modify (m : NoiseManager) (sid : SessionId) {f : NoiseSession → NoiseSession}
    (hf : (f (m.heap sid)).cipher.sender = (m.heap sid).cipher.sender) :
    SenderStep m (m.modify sid f) := by
  have hall : ∀ i, (m.modify sid f).senderOf i = m.senderOf i := by
    intro i
    show (Function.update m.heap sid (f (m.heap sid)) i).cipher.sender = (m.heap i).cipher.sender
    by_cases heq : i = sid
    · rw [heq, Function.update_self, hf]
    · rw [Function.update_of_ne heq]
  exact ⟨fun hfr i hi => (hall i).trans (hfr i hi), fun _ i => Or.inl (hall i)⟩

theorem sendAllPendingData (m : NoiseManager) (sid : SessionId) :
    SenderStep m (m.sendAllPendingData sid) := by
  have hmod : SenderStep m (m.modify sid fun s => { s with pendingChan := [] }) :=
    modify m sid rfl
  exact hmod.trans (of_heap rfl rfl)

/-- An initiator session completes. -/
theorem complete (m : NoiseManager) {sid : SessionId} (hnone : m.senderOf sid = none)
    (hsid : sid < m.next) (t : Transcript) : SenderStep m (m.modify sid (·.complete t)) where
  fresh := by
    intro hf i hi
    have hne : i ≠ sid := Nat.ne_of_gt (Nat.lt_of_lt_of_le hsid hi)
    show (Function.update m.heap sid _ i).cipher.sender = none
    rw [Function.update_of_ne hne]
    exact hf i hi
  sender := by
    intro _ i
    show (Function.update m.heap sid _ i).cipher.sender = _ ∨ _ ∧
      ∃ k, (Function.update m.heap sid _ i).cipher.sender = _
    by_cases heq : i = sid
    · subst heq
      rw [Function.update_self]
      exact Or.inr ⟨hnone, _, rfl⟩
    · rw [Function.update_of_ne heq]
      exact Or.inl rfl

/-- A new session, without a `Sender` or with a new one. -/
theorem install (m : NoiseManager) (key : ByteArr 4) {s : NoiseSession}
    (hs : s.cipher.sender = none ∨ ∃ k, s.cipher.sender = some ⟨k, 0⟩) :
    SenderStep m (m.install key s) where
  fresh := by
    intro hf i hi
    have hne : i ≠ m.next := Nat.ne_of_gt hi
    show (Function.update m.heap m.next s i).cipher.sender = none
    rw [Function.update_of_ne hne]
    exact hf i (Nat.le_of_succ_le hi)
  sender := by
    intro hf i
    show (Function.update m.heap m.next s i).cipher.sender = m.senderOf i ∨ _ ∧
      ∃ k, (Function.update m.heap m.next s i).cipher.sender = _
    by_cases heq : i = m.next
    · subst heq
      rw [Function.update_self, hf m.next (Nat.le_refl _)]
      rcases hs with hnone | hnew
      · exact Or.inl hnone
      · exact Or.inr ⟨rfl, hnew⟩
    · rw [Function.update_of_ne heq]
      exact Or.inl rfl

/-- `handleResponderFirst` makes at most one new `Sender`. -/
theorem handleResponderFirst {D : Type} (N : Ops D) (m : NoiseManager) (srcVip : ByteArr 4)
    (data : D) (eph : Nat) (now : Int) :
    SenderStep m (m.handleResponderFirst N srcVip data eph now).1 := by
  unfold NoiseManager.handleResponderFirst
  split
  · exact .refl m
  · exact (install m srcVip (Or.inr ⟨_, rfl⟩)).trans (sendAllPendingData ..)

/-- The body under the lock changes a `Sender` only by completing a session that
had none. -/
theorem lockedBody {D : Type} {N : Ops D} {m : NoiseManager} {sid : SessionId}
    {srcVip : ByteArr 4} {data : D} {r : NoiseManager × HandleResult D}
    (hun : (m.heap sid).isReady = false → m.senderOf sid = none) (hsid : sid < m.next)
    (h : m.lockedBody N sid srcVip data = some r) : SenderStep m r.1 := by
  unfold NoiseManager.lockedBody at h
  simp only at h
  split at h
  · cases h
    exact .refl m
  · next hready =>
    split at h
    · split at h
      · cases h
      · cases h
        exact .refl m
    · split at h
      · split at h
        · cases h
          exact .refl m
        · cases h
          exact (complete m (hun (Bool.eq_false_iff.mpr hready)) hsid _).trans
            (sendAllPendingData ..)
      · cases h
        exact .refl m

end SenderStep

end NoiseManager

theorem NoiseSession.addPendingData_cipher (s : NoiseSession) (data : Bytes) :
    (s.addPendingData data).cipher = s.cipher := by
  unfold addPendingData
  split
  · rfl
  · split <;> rfl

namespace World

open NoiseManager (SenderStep)

variable {P : Peers} {w w' : World} {s : Pairing}

theorem senderStep_setMgr {x : Side} {m : NoiseManager} (hm : SenderStep (w.mgr x) m)
    (z : Side) : SenderStep (w.mgr z) ((w.setMgr x m).mgr z) := by
  show SenderStep (w.mgr z) (Function.update w.mgr x m z)
  by_cases hz : z = x
  · rw [hz, Function.update_self]
    exact hm
  · rw [Function.update_of_ne hz]
    exact .refl _

/-- An unready session has no `Sender`. -/
theorem Refines.senderOf_eq_none (h : Refines P w s) {x : Side} {sid : SessionId}
    (hsid : sid < (s.party x).next) (hr : ((w.mgr x).heap sid).isReady = false) :
    (w.mgr x).senderOf sid = none := by
  have hobj := (h.mgr x).obj sid hsid
  have hsend := hobj.send
  rw [hobj.ready] at hr
  cases hv : (s.party x).obj sid with
  | unready f =>
    rw [hv] at hsend
    exact Option.map_eq_none_iff.mp hsend
  | initiator t => rw [hv] at hr; cases hr
  | responder t => rw [hv] at hr; cases hr

/-- **Every step of the pair** leaves the `Sender`s there are and starts new ones
at 0. -/
theorem senderStep (h : Refines P w s) {a : Act} (hs : step P w a = some w') (z : Side) :
    SenderStep (w.mgr z) (w'.mgr z) := by
  cases a with
  | initiate x payload =>
    cases hs
    refine senderStep_setMgr (.install (w.mgr x) _ (Or.inl ?_)) z
    rw [NoiseSession.addPendingData_cipher]
    rfl
  | lookup x k d =>
    obtain ⟨-, rfl⟩ := guardTo_eq_some.mp hs
    exact .refl _
  | lock x k =>
    have hw := h.worker x k
    obtain ⟨sid, d, hwk, hbody⟩ := lock_inv hs
    rw [hwk] at hw
    rcases hbody with ⟨r, hr, rfl⟩ | ⟨-, rfl⟩
    · exact senderStep_setMgr (.lockedBody (h.senderOf_eq_none hw.1)
        ((h.mgr x).next.symm ▸ hw.1) hr) z
    · exact senderStep_setMgr (.modify (w.mgr x) sid rfl) z
  | respond x k =>
    obtain ⟨d, held, -, hcall⟩ := respond_inv hs
    have hfirst := SenderStep.handleResponderFirst ideal (w.mgr x) (P.vip x.other) d w.eph w.now
    have hunlock : SenderStep (w.mgr x) (unlock ((w.mgr x).handleResponderFirst ideal
        (P.vip x.other) d w.eph w.now).1 held) := by
      cases held with
      | none => exact hfirst
      | some sid =>
        refine hfirst.trans ?_
        show SenderStep _ (NoiseManager.modify _ sid fun s => { s with mtx := false })
        exact .modify _ sid rfl
    rcases hcall with ⟨reply, -, rfl⟩ | ⟨-, rfl⟩
    · exact senderStep_setMgr hunlock z
    · exact senderStep_setMgr hunlock z
  | sweep x timeout =>
    cases hs
    have hsweep : SenderStep (w.mgr x) ((w.mgr x).sweepSessions timeout w.now) :=
      .of_heap rfl rfl
    exact senderStep_setMgr hsweep z
  | touch x sid =>
    cases hs
    exact senderStep_setMgr (.modify (w.mgr x) sid rfl) z
  | tick d =>
    cases hs
    exact .refl _

end World

/-! ## Counter values are drawn once -/

namespace Traffic

variable {P : Peers} {A : Aead Key} {L : Lz4}

/-- A token is that of a counter value which was drawn: the session has a
`Sender` with the key, and the value is below its counter. -/
def Used (t : Traffic) (token : Token) (key : Key) : Prop :=
  token.index < t.draws token.side token.sid ∧
    ((t.world.mgr token.side).heap token.sid).sendKey = some key

/-- The bookkeeping of counter values. -/
structure Counted (t : Traffic) : Prop where
  fresh : ∀ x, (t.world.mgr x).Fresh
  /-- A `Sender`'s counter is the number of values drawn from it. -/
  count : ∀ x sid, ((t.world.mgr x).senderOf sid = none ∧ t.draws x sid = 0) ∨
    ∃ k, (t.world.mgr x).senderOf sid = some ⟨k, UInt64.ofNat (t.draws x sid)⟩
  /-- What a worker holds was drawn, by nobody else, and is not used up. -/
  drawn : ∀ x k d, t.sender x k = some d → d.token.side = x ∧ t.Used d.token d.key ∧
    d.nonce = UInt64.ofNat d.token.index
  drawn_inj : ∀ x k k' d d', t.sender x k = some d → t.sender x k' = some d' →
    d.token = d'.token → k = k'
  drawn_new : ∀ x k d, t.sender x k = some d → ∀ r ∈ t.seals, r.token ≠ d.token
  /-- What was sealed was drawn. -/
  used : ∀ r ∈ t.seals, t.Used r.token r.call.key
  nonce : ∀ r ∈ t.seals, ∃ src, r.call.args.nonce = wireNonce src (UInt64.ofNat r.token.index)
  header : ∀ r ∈ t.seals, (r.wire.drop 9).take nonceLength = r.call.args.nonce
  /-- No counter value was used twice. -/
  nodup : (t.seals.map (·.token)).Nodup

theorem counted_start : Counted (start P) where
  fresh := fun _ _ _ => rfl
  count := fun _ _ => Or.inl ⟨rfl, rfl⟩
  drawn := fun _ _ _ h => nomatch h
  drawn_inj := fun _ _ _ _ _ h => nomatch h
  drawn_new := fun _ _ _ h => nomatch h
  used := fun _ h => nomatch h
  nonce := fun _ h => nomatch h
  header := fun _ h => nomatch h
  nodup := List.nodup_nil

/-- A step of the pair draws and seals nothing. -/
theorem counted_noise {t : Traffic} {s : Pairing} {a : World.Act} {w : World}
    (hR : World.Refines P t.world s) (h : Counted t) (hs : World.step P t.world a = some w) :
    Counted { t with world := w } := by
  have hstep := World.senderStep hR hs
  have hused : ∀ token key, t.Used token key → Used { t with world := w } token key := by
    rintro token key ⟨hlt, hkey⟩
    refine ⟨hlt, ?_⟩
    rw [NoiseManager.sendKey_heap] at hkey ⊢
    rcases (hstep token.side).sender (h.fresh _) token.sid with heq | ⟨hnone, -⟩
    · rw [heq]
      exact hkey
    · rw [hnone] at hkey
      cases hkey
  exact
    { fresh := fun x => (hstep x).fresh (h.fresh x)
      count := by
        intro x sid
        rcases (hstep x).sender (h.fresh x) sid with heq | ⟨hnone, k, hk⟩
        · show ((w.mgr x).senderOf sid = none ∧ _) ∨ ∃ k, (w.mgr x).senderOf sid = _
          rw [heq]
          exact h.count x sid
        · -- a new counter, from which nothing was drawn
          rcases h.count x sid with ⟨-, hzero⟩ | ⟨k', hk'⟩
          · exact Or.inr ⟨k, by rw [hk, hzero]; rfl⟩
          · rw [hnone] at hk'
            cases hk'
      drawn := fun x k d hd =>
        ⟨(h.drawn x k d hd).1, hused _ _ (h.drawn x k d hd).2.1, (h.drawn x k d hd).2.2⟩
      drawn_inj := h.drawn_inj
      drawn_new := h.drawn_new
      used := fun r hr => hused _ _ (h.used r hr)
      nonce := h.nonce
      header := h.header
      nodup := h.nodup }

/-- Drawing a value moves one counter. -/
theorem senderOf_drawAt {t : Traffic} {x : Side} {sid : SessionId} {cs : CipherState Key}
    (hcs : (t.world.mgr x).senderOf sid = some cs) (k : Nat) (packet : GamePacket)
    (control : Bool) (z : Side) (i : SessionId) :
    ((t.drawAt x k sid cs packet control).world.mgr z).senderOf i
      = if z = x ∧ i = sid then some ⟨cs.key, cs.nonce + 1⟩ else (t.world.mgr z).senderOf i := by
  show ((Function.update t.world.mgr x _ z).heap i).cipher.sender = _
  by_cases hz : z = x
  · subst hz
    rw [Function.update_self]
    show (Function.update (t.world.mgr z).heap sid _ i).cipher.sender = _
    by_cases hi : i = sid
    · subst hi
      rw [Function.update_self, if_pos ⟨rfl, rfl⟩]
      show ((t.world.mgr z).senderOf i).map (·.getNonce.2) = _
      rw [hcs]
      rfl
    · rw [Function.update_of_ne hi, if_neg fun h => hi h.2]
      rfl
  · rw [Function.update_of_ne hz, if_neg fun h => hz h.1]
    rfl

theorem next_drawAt (t : Traffic) (x : Side) (k : Nat) (sid : SessionId) (cs : CipherState Key)
    (packet : GamePacket) (control : Bool) (z : Side) :
    ((t.drawAt x k sid cs packet control).world.mgr z).next = (t.world.mgr z).next := by
  show (Function.update t.world.mgr x _ z).next = _
  by_cases hz : z = x
  · subst hz
    rw [Function.update_self]
    rfl
  · rw [Function.update_of_ne hz]

/-- What was drawn before stays drawn: keys stay and counters only grow. -/
theorem Used.drawAt {t : Traffic} {x : Side} {k : Nat} {sid : SessionId} {cs : CipherState Key}
    {packet : GamePacket} {control : Bool} (hcs : (t.world.mgr x).senderOf sid = some cs)
    {token : Token} {key : Key} (h : t.Used token key) :
    (t.drawAt x k sid cs packet control).Used token key := by
  obtain ⟨hlt, hkey⟩ := h
  constructor
  · show token.index < set₂ t.draws x sid (t.draws x sid + 1) token.side token.sid
    by_cases hts : token.side = x ∧ token.sid = sid
    · rw [hts.1, hts.2] at hlt ⊢
      rw [set₂_self]
      exact Nat.lt_succ_of_lt hlt
    · rw [set₂_of_ne _ _ hts]
      exact hlt
  · rw [NoiseManager.sendKey_heap] at hkey ⊢
    rw [senderOf_drawAt hcs]
    by_cases hts : token.side = x ∧ token.sid = sid
    · rw [if_pos hts, ← hkey, hts.1, hts.2, hcs]
      rfl
    · rw [if_neg hts]
      exact hkey

/-- The counter of a session is the number of draws from it. -/
theorem Counted.nonce_of_sender {t : Traffic} (h : Counted t) {x : Side} {sid : SessionId}
    {cs : CipherState Key} (hcs : (t.world.mgr x).senderOf sid = some cs) :
    cs.nonce = UInt64.ofNat (t.draws x sid) := by
  rcases h.count x sid with ⟨hnone, -⟩ | ⟨k', hk'⟩
  · rw [hcs] at hnone
    cases hnone
  · rw [hcs] at hk'
    cases hk'
    rfl

theorem counted_draw {t : Traffic} (h : Counted t) {x : Side} {k : Nat} {sid : SessionId}
    {cs : CipherState Key} (hcs : (t.world.mgr x).senderOf sid = some cs) (packet : GamePacket)
    (control : Bool) : Counted (t.drawAt x k sid cs packet control) := by
  have hsend := senderOf_drawAt hcs k packet control
  have hcount := h.nonce_of_sender hcs
  -- the new token is above everything drawn from this session before
  have hnew : ∀ token key, t.Used token key → token ≠ ⟨x, sid, t.draws x sid⟩ := by
    rintro token key ⟨hlt, -⟩ rfl
    exact Nat.lt_irrefl _ hlt
  refine
    { fresh := ?_, count := ?_, drawn := ?_, drawn_inj := ?_, drawn_new := ?_,
      used := fun r hr => (h.used r hr).drawAt hcs
      nonce := h.nonce, header := h.header, nodup := h.nodup }
  · intro z i hi
    rw [next_drawAt] at hi
    rw [hsend, if_neg]
    · exact h.fresh z i hi
    · rintro ⟨rfl, rfl⟩
      rw [h.fresh z i hi] at hcs
      cases hcs
  · intro z i
    rw [hsend]
    show _ ∨ ∃ k, _ = some (⟨k, UInt64.ofNat (set₂ t.draws x sid (t.draws x sid + 1) z i)⟩ :
      CipherState Key)
    by_cases hzi : z = x ∧ i = sid
    · refine Or.inr ⟨cs.key, ?_⟩
      rw [if_pos hzi, hzi.1, hzi.2, set₂_self, hcount, UInt64.ofNat_add]
      rfl
    · show (_ ∧ set₂ t.draws x sid (t.draws x sid + 1) z i = 0) ∨ _
      rw [if_neg hzi, set₂_of_ne _ _ hzi]
      exact h.count z i
  · intro z j d hd
    rcases set₂_cases hd with ⟨rfl, rfl, heq⟩ | ⟨-, hold⟩
    · cases heq
      refine ⟨rfl, ⟨?_, ?_⟩, hcount⟩
      · show t.draws z sid < set₂ t.draws z sid (t.draws z sid + 1) z sid
        rw [set₂_self]
        exact Nat.lt_succ_self _
      · rw [NoiseManager.sendKey_heap, hsend, if_pos ⟨rfl, rfl⟩]
        rfl
    · obtain ⟨hside, hused, hn⟩ := h.drawn z j d hold
      exact ⟨hside, hused.drawAt hcs, hn⟩
  · intro z j j' d d' hd hd' heq
    rcases set₂_cases hd with ⟨-, rfl, hdnew⟩ | ⟨-, hold⟩
    · rcases set₂_cases hd' with ⟨-, rfl, -⟩ | ⟨-, hold'⟩
      · rfl
      · cases hdnew
        exact absurd heq.symm (hnew _ _ (h.drawn z j' d' hold').2.1)
    · rcases set₂_cases hd' with ⟨-, -, hdnew'⟩ | ⟨-, hold'⟩
      · cases hdnew'
        exact absurd heq (hnew _ _ (h.drawn z j d hold).2.1)
      · exact h.drawn_inj z j j' d d' hold hold' heq
  · intro z j d hd r hr
    rcases set₂_cases hd with ⟨-, -, hdnew⟩ | ⟨-, hold⟩
    · cases hdnew
      exact hnew _ _ (h.used r hr)
    · exact h.drawn_new z j d hold r hr

/-- **The `Seal` calls of one `encode`** are at most one, under the key and the
counter value that were drawn, with the nonce that is in the packet. -/
theorem sealsOf_cases (A : Aead Key) (d : Drawn) :
    sealsOf A d = [] ∨ ∃ r, sealsOf A d = [r] ∧ r.token = d.token ∧ r.call.key = d.key ∧
      r.call.args.nonce = wireNonce d.packet.src d.nonce ∧
      (r.wire.drop 9).take nonceLength = r.call.args.nonce := by
  unfold sealsOf
  rw [encodeAt_eq]
  cases hdata : decide (0 < d.packet.data.length) <;> cases hctl : d.control <;> simp only
  · exact Or.inl rfl
  · exact Or.inl rfl
  · exact Or.inr ⟨_, rfl, rfl, rfl, rfl, (wire_cuts _ _ _ (length_wireAd ..)
      (length_wireNonce ..)).2.1⟩
  · exact Or.inl rfl

/-- A `Seal` call after an `encode` was made before, or is the one of the draw. -/
theorem mem_append_sealsOf {l : List SealRecord} {d : Drawn} {r : SealRecord}
    (hr : r ∈ l ++ sealsOf A d) : r ∈ l ∨ (r.token = d.token ∧
      r.call.key = d.key ∧ r.call.args.nonce = wireNonce d.packet.src d.nonce ∧
      (r.wire.drop 9).take nonceLength = r.call.args.nonce) := by
  rcases List.mem_append.mp hr with hold | hnew
  · exact Or.inl hold
  · rcases sealsOf_cases A d with hnil | ⟨r', hr', hfacts⟩
    · rw [hnil] at hnew
      cases hnew
    · rw [hr'] at hnew
      rw [List.mem_singleton.mp hnew]
      exact Or.inr hfacts

/-- When a worker has given its draw away, the others hold what they held, under
other tokens. -/
theorem Counted.others {t : Traffic} (h : Counted t) {x : Side} {k : Nat} {d : Drawn}
    (hd : t.sender x k = some d) {z : Side} {j : Nat} {d' : Drawn}
    (hd' : set₂ t.sender x k none z j = some d') :
    t.sender z j = some d' ∧ d'.token ≠ d.token := by
  rcases set₂_cases hd' with ⟨-, -, heq⟩ | ⟨hne, hold⟩
  · cases heq
  · refine ⟨hold, fun htok => hne ?_⟩
    have hz : z = x := by
      rw [← (h.drawn x k d hd).1, ← htok]
      exact (h.drawn z j d' hold).1.symm
    subst hz
    exact ⟨rfl, h.drawn_inj z j k d' d hold hd htok⟩

theorem counted_seal {t : Traffic} (h : Counted t) {x : Side} {k : Nat} {d : Drawn}
    (hd : t.sender x k = some d) :
    Counted { t with sender := set₂ t.sender x k none, seals := t.seals ++ sealsOf A d } := by
  obtain ⟨-, hused, hn⟩ := h.drawn x k d hd
  refine
    { fresh := h.fresh
      count := h.count
      drawn := fun z j d' hd' => h.drawn z j d' (h.others hd hd').1
      drawn_inj := fun z j j' d' d'' hd' hd'' =>
        h.drawn_inj z j j' d' d'' (h.others hd hd').1 (h.others hd hd'').1
      drawn_new := ?_, used := ?_, nonce := ?_, header := ?_, nodup := ?_ }
  · intro z j d' hd' r hr
    obtain ⟨hold, hne⟩ := h.others hd hd'
    rcases mem_append_sealsOf hr with hr' | ⟨htok, -⟩
    · exact h.drawn_new z j d' hold r hr'
    · rw [htok]
      exact hne.symm
  · intro r hr
    rcases mem_append_sealsOf hr with hr' | ⟨htok, hkey, -⟩
    · exact h.used r hr'
    · rw [htok, hkey]
      exact hused
  · intro r hr
    rcases mem_append_sealsOf hr with hr' | ⟨htok, -, hnonce, -⟩
    · exact h.nonce r hr'
    · exact ⟨d.packet.src, by rw [hnonce, htok, hn]⟩
  · intro r hr
    rcases mem_append_sealsOf hr with hr' | ⟨-, -, -, hhead⟩
    · exact h.header r hr'
    · exact hhead
  · show ((t.seals ++ sealsOf A d).map (·.token)).Nodup
    rcases sealsOf_cases A d with hnil | ⟨r', hr', htok, -⟩
    · rw [hnil, List.append_nil]
      exact h.nodup
    · rw [hr', List.map_append, List.map_singleton, htok]
      refine List.nodup_append.mpr ⟨h.nodup, List.nodup_singleton _, ?_⟩
      intro tok htok' tok' htok'' heq
      obtain ⟨r, hr, rfl⟩ := List.mem_map.mp htok'
      rw [List.mem_singleton.mp htok''] at heq
      exact h.drawn_new x k d hd r hr heq

/-- A draw and its seal together are one `EncodePacket`. -/
theorem encodePacket_draw_seal (g : GamePacket) (pool : Pool) (control compress : Bool)
    (cs : CipherState Key) {packet : GamePacket}
    (hp : g.prepare L pool compress = some packet) (token : Token) :
    (sealsOf A { key := cs.key, nonce := cs.getNonce.1, packet, control, token }).map
        (fun r => (r.call, some r.wire))
      = (g.encodePacket A L pool control compress (some cs)).1.seals.map
          fun call => (call, (g.encodePacket A L pool control compress (some cs)).1.wire) := by
  rw [GamePacket.encodePacket_eq A L g pool control compress (some cs) hp]
  unfold sealsOf
  rw [List.map_map]
  rfl

/-! ## No nonce is used twice -/

/-- Every run keeps the books, over a run of the abstract pair. -/
theorem counted {t : Traffic} (h : (machine P A L).Reach t) :
    ∃ s, (Pairing.machine P).Reach s ∧ World.Refines P t.world s ∧ Counted t := by
  show ∃ s, (Pairing.machine P).ReachVia (fun _ _ => True) s ∧ _
  refine Machine.ReachVia.simulate (N := Pairing.machine P)
    (fun t s => World.Refines P t.world s ∧ Counted t)
    ⟨World.refines_start P, counted_start⟩ ?_ h
  rintro t t' a s - ⟨hR, hc⟩ - hs
  cases a with
  | noise a =>
    obtain ⟨w, hw, rfl⟩ := Option.map_eq_some_iff.mp hs
    have hc' := counted_noise hR hc hw
    rcases World.refines_step hR hw with hR' | ⟨b, s', -, hs', hR'⟩
    · exact Or.inl ⟨hR', hc'⟩
    · exact Or.inr ⟨b, s', trivial, hs', hR', hc'⟩
  | draw x k sid g pool control compress =>
    simp only [machine, step] at hs
    split at hs
    · next cs packet _ hcs _ =>
      cases hs
      refine Or.inl ⟨hR.setMgr ?_, counted_draw hc hcs packet control⟩
      exact (hR.mgr x).modify sid fun _ _ hm => NoiseSession.drawNonce_matches hm
    · cases hs
  | encrypt x k =>
    simp only [machine, step] at hs
    split at hs
    · next d hd =>
      cases hs
      exact Or.inl ⟨hR, counted_seal hc hd⟩
    · cases hs

/-- Two records with one key and one nonce are of the same counter value. -/
theorem Counted.token_inj {t : Traffic} {s : Pairing} (h : Counted t)
    (hR : World.Refines P t.world s) (hst : Pairing.Stamps s)
    (hdraws : ∀ x sid, t.draws x sid < 2 ^ 64) {r r' : SealRecord} (hr : r ∈ t.seals)
    (hr' : r' ∈ t.seals) (hkey : r.call.key = r'.call.key)
    (hnonce : r.call.args.nonce = r'.call.args.nonce) : r.token = r'.token := by
  -- one key: one session
  have hobj : ∀ r ∈ t.seals, r.token.sid < (s.party r.token.side).next ∧
      ((s.party r.token.side).obj r.token.sid).sendKey = some r.call.key := by
    intro r hr
    have hsome := (h.used r hr).2
    have hlt : r.token.sid < (s.party r.token.side).next := by
      rw [← (hR.mgr r.token.side).next]
      by_contra hge
      have hnone := h.fresh r.token.side r.token.sid (Nat.le_of_not_lt hge)
      rw [NoiseManager.sendKey_heap, hnone] at hsome
      cases hsome
    exact ⟨hlt, ((hR.mgr r.token.side).obj r.token.sid hlt).send.symm.trans hsome⟩
  obtain ⟨hi, hk⟩ := hobj r hr
  obtain ⟨hj, hk'⟩ := hobj r' hr'
  obtain ⟨hside, hsid⟩ := hst.sendKey_inj hi hj hk (hkey ▸ hk')
  -- one nonce: one counter value, as none has wrapped
  obtain ⟨src, hn⟩ := h.nonce r hr
  obtain ⟨src', hn'⟩ := h.nonce r' hr'
  have hcounter : toBE 8 (UInt64.ofNat r.token.index).toNat
      = toBE 8 (UInt64.ofNat r'.token.index).toNat := by
    rw [hn, hn'] at hnonce
    exact (List.append_inj hnonce (src.2.trans src'.2.symm)).2
  have hbound : r.token.index < 2 ^ 64 := Nat.lt_trans (h.used r hr).1 (hdraws _ _)
  have hbound' : r'.token.index < 2 ^ 64 := Nat.lt_trans (h.used r' hr').1 (hdraws _ _)
  have hindex := toBE_inj (UInt64.toNat_lt _) (UInt64.toNat_lt _) hcounter
  rw [UInt64.toNat_ofNat_of_lt' hbound, UInt64.toNat_ofNat_of_lt' hbound'] at hindex
  cases htok : r.token
  cases htok' : r'.token
  rw [htok, htok'] at hside hsid hindex
  simp only at hside hsid hindex
  rw [hside, hsid, hindex]

/-- **No nonce reuse.** In every run with fewer than 2^64 draws from each session,
no two `Seal` calls use the same key together with the same nonce, and the nonce
of each is the one at bytes 9..20 of its packet. -/
theorem seals_nodup (P : Peers) (A : Aead Key) (L : Lz4) (t : Traffic)
    (h : (machine P A L).Reach t) (hdraws : ∀ x sid, t.draws x sid < 2 ^ 64) :
    (t.seals.map fun r => (r.call.key, r.call.args.nonce)).Nodup ∧
      ∀ r ∈ t.seals, (r.wire.drop 9).take nonceLength = r.call.args.nonce := by
  obtain ⟨s, hs, hR, hc⟩ := counted h
  refine ⟨?_, hc.header⟩
  refine List.Nodup.map_on ?_ (List.Nodup.of_map _ hc.nodup)
  intro r hr r' hr' heq
  obtain ⟨hkey, hnonce⟩ := Prod.mk.inj heq
  have htok := hc.token_inj hR (Pairing.stamps hs) hdraws hr hr' hkey hnonce
  exact List.inj_on_of_nodup_map hc.nodup hr hr' htok

/-- One handshake, then two workers of the responder that send at the same time. -/
theorem seals_nodup_two_workers :
    ∃ t, (machine Peers.sample (chacha20Poly1305.comap fun _ => .zero 32) Lz4.stored).Reach t ∧
      t.seals.length = 2 ∧
      (t.seals.map fun r => (r.call.key, r.call.args.nonce)).Nodup ∧
      ∀ r ∈ t.seals, (r.wire.drop 9).take nonceLength = r.call.args.nonce := by
  let packet := newGamePacket (.zero 4) (.zero 4) typeData (some [1, 2, 3])
  obtain ⟨t, hreach, hlen, hsmall⟩ : ∃ t, (machine Peers.sample
      (chacha20Poly1305.comap fun _ => .zero 32) Lz4.stored).Reach t ∧ t.seals.length = 2 ∧
      ∀ x ∈ [Side.a, Side.b], ∀ sid < (t.world.mgr x).next, t.draws x sid < 2 ^ 64 := by
    refine Machine.exists_reach [.noise (.initiate .a []),
      .noise (.lookup .b 0 (.first (Peers.sampleFirst 0))), .noise (.respond .b 0),
      .draw .b 0 0 packet (.fresh 2048) false false, .draw .b 1 0 packet (.fresh 2048) false true,
      .encrypt .b 1, .encrypt .b 0] ?_
    decide +kernel
  refine ⟨t, hreach, hlen, seals_nodup _ _ _ t hreach ?_⟩
  -- nothing is drawn from sessions that were never made
  obtain ⟨-, -, -, hc⟩ := counted hreach
  intro x sid
  by_cases hsid : sid < (t.world.mgr x).next
  · exact hsmall x (by cases x <;> decide) sid hsid
  · rcases hc.count x sid with ⟨-, hzero⟩ | ⟨k, hk⟩
    · rw [hzero]
      decide
    · rw [hc.fresh x sid (Nat.le_of_not_lt hsid)] at hk
      cases hk

end Traffic

end EasyTun.Protocol
