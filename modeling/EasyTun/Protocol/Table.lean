import EasyTun.Protocol.Noise

/-!
# The session table under all of its callers

Several goroutines of a client call the session manager at once, and each may
hold a session object the table no longer has. What a caller can rely on is what
no call takes back:

- `Sound`: an entry of the table leads to a session with that address, and a ready
  session has a `Sender`;
- `Evolves m m'`: from `m` to `m'` an object keeps its address, and a ready one
  stays ready under the same key;
- `evolves_call`: every call evolves the manager, whatever it is called with;
- `waited_call`: what a session has queued while it waits stays queued until it
  completes, and is then put on `tunChan`.

Nothing is assumed of the Noise library.
-/

namespace EasyTun.Protocol

open EasyTun.Lib
open EasyTun.Lib.NoiseIK

variable {α D : Type}

namespace NoiseSession

/-- What a change of a session object leaves in place. -/
structure Grows (s s' : NoiseSession α) : Prop where
  vip : s'.remoteVip = s.remoteVip
  ready : s.isReady = true → s'.isReady = true ∧ s'.sendKey = s.sendKey
  keyed : (s.isReady = true → s.sendKey.isSome = true) →
    s'.isReady = true → s'.sendKey.isSome = true

/-- A change outside of the cipher. -/
theorem Grows.of_cipher {s s' : NoiseSession α} (hvip : s'.remoteVip = s.remoteVip)
    (hcipher : s'.cipher = s.cipher) : s.Grows s' where
  vip := hvip
  ready hready := by
    rw [isReady, sendKey, hcipher]
    exact ⟨hready, rfl⟩
  keyed hkeyed hready := by
    rw [isReady, hcipher] at hready
    rw [sendKey, hcipher]
    exact hkeyed hready

/-- The session with its `Sender` as an `EncodePacket` leaves it. -/
def setSender (s : NoiseSession α) (sender : Option (CipherState Key)) : NoiseSession α :=
  { s with cipher := { s.cipher with sender } }

/-- A change of the `Sender`'s counter. -/
theorem grows_setSender {s : NoiseSession α} {sender : Option (CipherState Key)}
    (hkey : sender.map (·.key) = s.sendKey) : s.Grows (s.setSender sender) where
  vip := rfl
  ready hready := ⟨hready, hkey⟩
  keyed hkeyed hready := by
    have hkeyed' := hkeyed hready
    rw [← hkey] at hkeyed'
    exact hkeyed'

theorem addPendingData_cases (s : NoiseSession α) (data : α) :
    s.addPendingData data = s ∨
      s.addPendingData data = { s with pendingChan := s.pendingChan ++ [data] } := by
  unfold addPendingData
  split
  · exact Or.inl rfl
  · split
    · exact Or.inr rfl
    · exact Or.inl rfl

theorem grows_addPendingData (s : NoiseSession α) (data : α) : s.Grows (s.addPendingData data) := by
  rcases s.addPendingData_cases data with hsame | hadded
  · rw [hsame]
    exact .of_cipher rfl rfl
  · rw [hadded]
    exact .of_cipher rfl rfl

/-- Only a session that is not ready is completed. -/
theorem grows_complete {s : NoiseSession α} (hready : s.isReady = false) (t : Transcript) :
    s.Grows (s.complete t) where
  vip := rfl
  ready h := by
    rw [hready] at h
    cases h
  keyed _ _ := rfl

end NoiseSession

namespace NoiseManager

/-- The table and the objects fit together. -/
structure Sound (m : NoiseManager α) : Prop where
  entry : ∀ {key sid}, m.getSession key = some sid →
    sid < m.next ∧ (m.heap sid).remoteVip = key
  keyed : ∀ {sid}, (m.heap sid).isReady = true → (m.heap sid).sendKey.isSome = true

theorem sound_new (staticPub : PublicKey) (myVip : ByteArr 4) :
    (new staticPub myVip : NoiseManager α).Sound where
  entry h := by cases h
  keyed h := by cases h

/-- What the calls between two states of a manager leave in place. -/
structure Evolves (m m' : NoiseManager α) : Prop where
  next_le : m.next ≤ m'.next
  vip : ∀ {sid}, sid < m.next → (m'.heap sid).remoteVip = (m.heap sid).remoteVip
  ready : ∀ {sid}, sid < m.next → (m.heap sid).isReady = true →
    (m'.heap sid).isReady = true ∧ (m'.heap sid).sendKey = (m.heap sid).sendKey
  sound : m.Sound → m'.Sound

namespace Evolves

variable {m m' m'' : NoiseManager α}

theorem refl (m : NoiseManager α) : Evolves m m where
  next_le := Nat.le_refl _
  vip _ := rfl
  ready _ hready := ⟨hready, rfl⟩
  sound := id

theorem trans (h : Evolves m m') (h' : Evolves m' m'') : Evolves m m'' where
  next_le := Nat.le_trans h.next_le h'.next_le
  vip hsid := (h'.vip (Nat.lt_of_lt_of_le hsid h.next_le)).trans (h.vip hsid)
  ready hsid hready := by
    obtain ⟨hready', hkey⟩ := h.ready hsid hready
    obtain ⟨hready'', hkey'⟩ := h'.ready (Nat.lt_of_lt_of_le hsid h.next_le) hready'
    exact ⟨hready'', hkey'.trans hkey⟩
  sound := h'.sound ∘ h.sound

/-- An assignment to the fields of one object. -/
theorem modify (m : NoiseManager α) (sid : SessionId) {f : NoiseSession α → NoiseSession α}
    (hf : (m.heap sid).Grows (f (m.heap sid))) : Evolves m (m.modify sid f) := by
  have hall : ∀ i, (m.heap i).Grows ((m.modify sid f).heap i) := by
    intro i
    by_cases hi : i = sid
    · subst hi
      rw [heap_modify]
      exact hf
    · rw [heap_modify_of_ne m hi]
      exact .of_cipher rfl rfl
  refine ⟨Nat.le_refl _, fun _ => (hall _).vip, fun _ => (hall _).ready, fun hs => ⟨?_, ?_⟩⟩
  · intro key i hi
    obtain ⟨hlt, hvip⟩ := hs.entry hi
    exact ⟨hlt, (hall i).vip.trans hvip⟩
  · intro i
    exact (hall i).keyed hs.keyed

/-- A change that at most removes entries of the table. -/
theorem of_table (hheap : m'.heap = m.heap) (hnext : m'.next = m.next)
    (htable : ∀ {key sid}, m'.getSession key = some sid → m.getSession key = some sid) :
    Evolves m m' := by
  refine ⟨Nat.le_of_eq hnext.symm, fun _ => by rw [hheap], fun _ hready => ?_, fun hs => ⟨?_, ?_⟩⟩
  · rw [hheap]
    exact ⟨hready, rfl⟩
  · intro key sid hsid
    rw [hheap, hnext]
    exact hs.entry (htable hsid)
  · intro sid
    rw [hheap]
    exact hs.keyed

/-- A new session under its own address. -/
theorem install (m : NoiseManager α) {key : ByteArr 4} {s : NoiseSession α}
    (hvip : s.remoteVip = key) (hkeyed : s.isReady = true → s.sendKey.isSome = true) :
    Evolves m (m.install key s) := by
  have hold {sid : SessionId} (hsid : sid < m.next) : (m.install key s).heap sid = m.heap sid :=
    heap_install_of_lt m key s hsid
  refine ⟨Nat.le_succ _, fun hsid => by rw [hold hsid], fun hsid hready => ?_, fun hs => ⟨?_, ?_⟩⟩
  · rw [hold hsid]
    exact ⟨hready, rfl⟩
  · intro key' sid hsid
    by_cases hk : key' = key
    · -- the new entry
      subst hk
      rw [getSession_install] at hsid
      cases hsid
      rw [heap_install]
      exact ⟨Nat.lt_succ_self _, hvip⟩
    · have hsid' : m.getSession key' = some sid := by
        rw [← hsid]
        exact (AList.lookup_insert_ne hk).symm
      obtain ⟨hlt, hv⟩ := hs.entry hsid'
      rw [hold hlt]
      exact ⟨Nat.lt_succ_of_lt hlt, hv⟩
  · intro sid hready
    by_cases hsid : sid = m.next
    · subst hsid
      rw [heap_install] at hready ⊢
      exact hkeyed hready
    · have hother : (m.install key s).heap sid = m.heap sid := Function.update_of_ne hsid ..
      rw [hother] at hready ⊢
      exact hs.keyed hready

theorem sendAllPendingData (m : NoiseManager α) (sid : SessionId) :
    Evolves m (m.sendAllPendingData sid) := by
  have hmod : Evolves m (m.modify sid fun s => { s with pendingChan := [] }) :=
    modify m sid (.of_cipher rfl rfl)
  exact hmod.trans (of_table rfl rfl id)

end Evolves

/-! ## The calls -/

/-- What a goroutine does to a manager without interruption. -/
inductive Call (α D : Type) where
  | handshakeInit (remoteVip : ByteArr 4) (remotePub : PublicKey) (payload : α) (eph : Nat)
      (now : Int)
  /-- `HandleNoisePacket` under the lock of a session it looked up before. -/
  | lockedBody (sid : SessionId) (srcVip : ByteArr 4) (data : D)
  | handleResponderFirst (srcVip : ByteArr 4) (data : D) (eph : Nat) (now : Int)
  | addPendingData (sid : SessionId) (data : α)
  | updateLastSeen (sid : SessionId) (now : Int)
  | deleteSession (key : ByteArr 4)
  | sweepSessions (timeout now : Int)

/-- The manager after a call. -/
def call (N : Ops D) (m : NoiseManager α) : Call α D → NoiseManager α
  | .handshakeInit remoteVip remotePub payload eph now =>
    (m.handshakeInit N remoteVip remotePub payload eph now).2
  | .lockedBody sid srcVip data => ((m.lockedBody N sid srcVip data).map (·.1)).getD m
  | .handleResponderFirst srcVip data eph now => (m.handleResponderFirst N srcVip data eph now).1
  | .addPendingData sid data => m.modify sid (·.addPendingData data)
  | .updateLastSeen sid now => m.modify sid (·.updateLastSeen now)
  | .deleteSession key => m.deleteSession key
  | .sweepSessions timeout now => m.sweepSessions timeout now

theorem evolves_handshakeInit (N : Ops D) (m : NoiseManager α) (remoteVip : ByteArr 4)
    (remotePub : PublicKey) (payload : α) (eph : Nat) (now : Int) :
    Evolves m (m.handshakeInit N remoteVip remotePub payload eph now).2 := by
  have hgrows := NoiseSession.grows_addPendingData
    (.new remoteVip true (some ⟨m.staticPub, remotePub, eph⟩) now) payload
  refine .install m hgrows.vip (hgrows.keyed ?_)
  exact fun h => by cases h

theorem evolves_handleResponderFirst (N : Ops D) (m : NoiseManager α) (srcVip : ByteArr 4)
    (data : D) (eph : Nat) (now : Int) :
    Evolves m (m.handleResponderFirst N srcVip data eph now).1 := by
  unfold handleResponderFirst
  split
  · exact .refl m
  · exact (Evolves.install m rfl fun _ => rfl).trans (.sendAllPendingData ..)

/-- `HandleNoisePacket` under the lock leaves everything as it is, or completes the
session it has locked. -/
theorem lockedBody_inv {N : Ops D} {m : NoiseManager α} {sid : SessionId} {srcVip : ByteArr 4}
    {data : D} {r : NoiseManager α × HandleResult D} (h : m.lockedBody N sid srcVip data = some r) :
    r.1 = m ∨ ((m.heap sid).isReady = false ∧
      ∃ t, r = ((m.modify sid (·.complete t)).sendAllPendingData sid, .ok (none, none))) := by
  unfold lockedBody at h
  simp only at h
  split at h
  · cases h
    exact Or.inl rfl
  · next hready =>
    split at h
    · -- a first message while ours is out: the smaller address reports the collision
      split at h
      · cases h
      · cases h
        exact Or.inl rfl
    · split at h
      · split at h
        · cases h
          exact Or.inl rfl
        · next t _ =>
          cases h
          exact Or.inr ⟨Bool.eq_false_iff.mpr hready, t, rfl⟩
      · cases h
        exact Or.inl rfl

/-- Under the lock only a ready session is handed out, and it is the one that is locked. -/
theorem lockedBody_session {N : Ops D} {m m' : NoiseManager α} {sid i : SessionId}
    {srcVip : ByteArr 4} {data : D}
    (h : m.lockedBody N sid srcVip data = some (m', .ok (some i, none))) :
    m' = m ∧ i = sid ∧ (m.heap sid).isReady = true := by
  unfold lockedBody at h
  simp only at h
  split at h
  · next hready =>
    cases h
    exact ⟨rfl, rfl, hready⟩
  · split at h
    · split at h
      · cases h
      · cases h
    · split at h
      · split at h
        · cases h
        · cases h
      · cases h

theorem evolves_lockedBody {N : Ops D} {m : NoiseManager α} {sid : SessionId}
    {srcVip : ByteArr 4} {data : D} {r : NoiseManager α × HandleResult D}
    (h : m.lockedBody N sid srcVip data = some r) : Evolves m r.1 := by
  rcases lockedBody_inv h with hsame | ⟨hready, t, hcomplete⟩
  · rw [hsame]
    exact .refl m
  · rw [hcomplete]
    exact (Evolves.modify m sid (NoiseSession.grows_complete hready t)).trans
      (.sendAllPendingData ..)

/-- An entry that is left after a `DeleteSession` was there before. -/
theorem getSession_of_deleteSession {m : NoiseManager α} {key key' : ByteArr 4} {sid : SessionId}
    (h : (m.deleteSession key).getSession key' = some sid) : m.getSession key' = some sid := by
  by_cases hk : key' = key
  · subst hk
    cases (AList.lookup_erase ..).symm.trans h
  · exact (AList.lookup_erase_ne hk).symm.trans h

/-- An entry that is left after a sweep was there before, and its session is not too old. -/
theorem getSession_of_sweepSessions {m : NoiseManager α} {timeout now : Int} {key : ByteArr 4}
    {sid : SessionId} (h : (m.sweepSessions timeout now).getSession key = some sid) :
    m.getSession key = some sid ∧ (m.heap sid).isTimeout timeout now = false := by
  have hfilter := Option.filter_eq_some_iff.mp ((Map.lookup_keepIf ..).symm.trans h)
  exact ⟨hfilter.1, by simpa using hfilter.2⟩

/-- **Every call evolves the manager.** -/
theorem evolves_call (N : Ops D) (m : NoiseManager α) (c : Call α D) : Evolves m (m.call N c) := by
  cases c with
  | handshakeInit remoteVip remotePub payload eph now => exact evolves_handshakeInit ..
  | lockedBody sid srcVip data =>
    show Evolves m (((m.lockedBody N sid srcVip data).map (·.1)).getD m)
    cases h : m.lockedBody N sid srcVip data with
    | none => exact .refl m
    | some r => exact evolves_lockedBody h
  | handleResponderFirst srcVip data eph now => exact evolves_handleResponderFirst ..
  | addPendingData sid data =>
    show Evolves m (m.modify sid (·.addPendingData data))
    exact .modify m sid (NoiseSession.grows_addPendingData (m.heap sid) data)
  | updateLastSeen sid now =>
    show Evolves m (m.modify sid (·.updateLastSeen now))
    exact .modify m sid (.of_cipher rfl rfl)
  | deleteSession key => exact .of_table rfl rfl getSession_of_deleteSession
  | sweepSessions timeout now =>
    exact .of_table rfl rfl fun h => (getSession_of_sweepSessions h).1

/-! ## What a session has queued -/

/-- What becomes of a session that waits for its reply: **it goes on waiting**, with
what it had queued first in its queue, **or it completes**, and all of that goes to
`tunChan`. -/
def Waited (m m' : NoiseManager α) (sid : SessionId) : Prop :=
  ((m'.heap sid).isReady = false ∧ (m.heap sid).pendingChan <+: (m'.heap sid).pendingChan) ∨
    ((m'.heap sid).isReady = true ∧ m'.tunChan = m.tunChan ++ (m.heap sid).pendingChan)

/-- An object that nobody touched. -/
theorem Waited.of_heap {m m' : NoiseManager α} {sid : SessionId}
    (hwait : (m.heap sid).isReady = false) (hheap : m'.heap sid = m.heap sid) :
    m.Waited m' sid := by
  refine Or.inl ?_
  rw [hheap]
  exact ⟨hwait, List.prefix_rfl⟩

/-- A change of some object that at most adds to its queue. -/
theorem Waited.modify {m : NoiseManager α} {sid : SessionId} (hwait : (m.heap sid).isReady = false)
    (i : SessionId) {f : NoiseSession α → NoiseSession α}
    (hready : (f (m.heap sid)).isReady = (m.heap sid).isReady)
    (hqueue : (m.heap sid).pendingChan <+: (f (m.heap sid)).pendingChan) :
    m.Waited (m.modify i f) sid := by
  by_cases hi : sid = i
  · subst hi
    refine Or.inl ?_
    rw [heap_modify, hready]
    exact ⟨hwait, hqueue⟩
  · exact .of_heap hwait (heap_modify_of_ne m hi f)

theorem waited_lockedBody {N : Ops D} {m : NoiseManager α} {sid i : SessionId}
    {srcVip : ByteArr 4} {data : D} {r : NoiseManager α × HandleResult D}
    (hwait : (m.heap sid).isReady = false) (h : m.lockedBody N i srcVip data = some r) :
    m.Waited r.1 sid := by
  rcases lockedBody_inv h with hsame | ⟨-, t, hcomplete⟩
  · exact .of_heap hwait (by rw [hsame])
  · rw [hcomplete]
    by_cases hi : sid = i
    · -- its own reply: the queue is put on `tunChan` as it was
      subst hi
      refine Or.inr ⟨?_, ?_⟩
      · rw [heap_sendAllPendingData, heap_modify]
        rfl
      · show m.tunChan ++ ((m.modify sid (·.complete t)).heap sid).pendingChan = _
        rw [heap_modify]
        rfl
    · exact .of_heap hwait (by rw [heap_sendAllPendingData_of_ne _ hi, heap_modify_of_ne m hi])

/-- **What a call does to a session that waits.** -/
theorem waited_call (N : Ops D) {m : NoiseManager α} (c : Call α D) {sid : SessionId}
    (hlt : sid < m.next) (hwait : (m.heap sid).isReady = false) : m.Waited (m.call N c) sid := by
  cases c with
  | handshakeInit remoteVip remotePub payload eph now =>
    exact .of_heap hwait (heap_install_of_lt m remoteVip _ hlt)
  | lockedBody i srcVip data =>
    show m.Waited (((m.lockedBody N i srcVip data).map (·.1)).getD m) sid
    cases h : m.lockedBody N i srcVip data with
    | none => exact .of_heap hwait rfl
    | some r => exact waited_lockedBody hwait h
  | handleResponderFirst srcVip data eph now =>
    show m.Waited (m.handleResponderFirst N srcVip data eph now).1 sid
    unfold handleResponderFirst
    split
    · exact .of_heap hwait rfl
    · -- the responder's session is a new object, and so is the queue that is emptied
      refine .of_heap hwait ?_
      rw [heap_sendAllPendingData_of_ne _ (Nat.ne_of_lt hlt), heap_install_of_lt m srcVip _ hlt]
  | addPendingData i data =>
    show m.Waited (m.modify i (·.addPendingData data)) sid
    refine .modify hwait i ?_ ?_
    · rcases (m.heap sid).addPendingData_cases data with hsame | hadded
      · rw [hsame]
      · rw [hadded]
        rfl
    · rcases (m.heap sid).addPendingData_cases data with hsame | hadded
      · have hqueue := congrArg (·.pendingChan) hsame
        exact hqueue ▸ List.prefix_rfl
      · rw [hadded]
        exact List.prefix_append ..
  | updateLastSeen i now =>
    show m.Waited (m.modify i (·.updateLastSeen now)) sid
    exact .modify hwait i rfl List.prefix_rfl
  | deleteSession key => exact .of_heap hwait rfl
  | sweepSessions timeout now => exact .of_heap hwait rfl

end NoiseManager

end EasyTun.Protocol
