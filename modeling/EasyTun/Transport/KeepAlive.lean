import EasyTun.Lib.Machine
import EasyTun.Protocol.Received
import EasyTun.Transport.ClientRecv

/-!
# What keeps a session alive

`sweepSessions` removes a session whose `lastSeen` is too old. Two things renew it:
a packet that is sent, and a datagram for which `DecryptParse` reports no error. The
second is meant to be a datagram that the peer has sealed.

The machine is one client with any number of `packetRecv` workers. A worker looks the
session up, tests it, possibly waits for its lock, decrypts and stores the time, and
between any two of these the other goroutines do anything. `touches` is the list of
the times stored by the receive workers.

- `received_alone`: run without interruption, a worker does what `packetRecv` does;
- `Keeps`: what the steps leave in place, in particular the `Recver` of a ready session;
- `authentic_of_decryptParse`: `DecryptParse` has opened what it accepts, **if the length
  field is not zero**;
- `kept_alive_by_authentic`: without such datagrams **every touch is due to a datagram
  that `Open` accepted, and a session that gets none is swept**;
- `header_keeps_alive`: a bare header, which anybody can send, keeps a session alive.
-/

namespace EasyTun.Transport

open EasyTun.Lib EasyTun.Protocol EasyTun.Protocol.GamePacket
open EasyTun.Lib.NoiseIK

/-- The length field of a datagram. -/
def lengthField (d : Bytes) : Nat := ofBE ((d.drop 7).take 2)

/-- `Open` accepts the body of a datagram under the given `Recver`. -/
def authentic (A : Aead Key) (recver : Option (CipherState Key)) (d : Bytes) : Bool :=
  recver.any fun cs => (A.opened cs.key ((d.drop 9).take nonceLength) (d.drop headerLength)
    (d.take (headerLength - nonceLength))).isSome

/-- The parse without a cipher made `gp` of the datagram `d`. -/
def ParsedFrom (A : Aead Key) (d : Bytes) (gp : GamePacket) : Prop :=
  ∃ pool pool', GamePacket.empty.parsePacket A pool d true none = (none, gp, pool')

/-- **What `DecryptParse` accepts was opened**, unless the length field is zero. -/
theorem authentic_of_decryptParse {A : Aead Key} {L : Lz4} {d : Bytes} {gp g : GamePacket}
    {pool pool' : Pool} {recver : Option (CipherState Key)} (hparse : ParsedFrom A d gp)
    (hfield : lengthField d ≠ 0) (hrecver : recver.isSome = true)
    (h : gp.decryptParse A L pool recver = (none, g, pool')) : authentic A recver d = true := by
  obtain ⟨cs, rfl⟩ := Option.isSome_iff_exists.mp hrecver
  obtain ⟨pool₁, pool₂, hparse⟩ := hparse
  obtain ⟨-, raw, hbytes, hgp⟩ := parsePacket_ok hparse
  have hpos : 0 < gp.length.toNat := by
    rw [length_of_parsePacket hparse]
    exact Nat.pos_of_ne_zero hfield
  obtain ⟨gd, hraw⟩ := decryptRaw_of_decryptParse h
  obtain ⟨q, -, hopen, -, -⟩ := decryptRaw_ok (by rw [hgp]) hpos hraw
  rw [hbytes] at hopen
  show Option.isSome _ = true
  rw [hopen]
  rfl

/-! ## The model -/

namespace KeepAlive

/-- Where a `packetRecv` worker is with a datagram (client_udp.go:142–168). -/
inductive Worker where
  | idle
  /-- `GetSession` has found a session. -/
  | looked (d : Bytes) (gp : GamePacket) (sid : SessionId)
  /-- The session was not ready, and it waits for the lock. -/
  | locking (d : Bytes) (gp : GamePacket) (sid : SessionId)
  /-- It is on its way into `handleResponderFirst`. -/
  | responding (d : Bytes) (gp : GamePacket)
  /-- `HandleNoisePacket` has returned the session. -/
  | holding (d : Bytes) (gp : GamePacket) (sid : SessionId)
  /-- `DecryptParse` has reported no error. -/
  | parsed (d : Bytes) (sid : SessionId)

/-- An `UpdateLastSeen` of a receive worker: the session, its `Recver` at that time, and
the datagram. -/
structure Touch where
  sid : SessionId
  recver : Option (CipherState Key)
  datagram : Bytes

end KeepAlive

/-- A client. -/
structure KeepAlive (n : Nat) where
  mgr : NoiseManager
  worker : Fin n → KeepAlive.Worker
  now : Int
  touches : List KeepAlive.Touch

namespace KeepAlive

variable {n : Nat}

/-- What the workers of `packetRecv` do, and what others do to the sessions. -/
inductive Act (n : Nat) where
  /-- A worker takes a datagram, parses it and calls `GetSession`. -/
  | look (k : Fin n) (d : Bytes) (pool : Pool)
  /-- It calls `IsReady`. -/
  | check (k : Fin n)
  /-- `HandleNoisePacket` under the session's lock. -/
  | lock (k : Fin n)
  | respond (k : Fin n) (eph : Nat)
  | decrypt (k : Fin n) (pool : Pool)
  | touch (k : Fin n)
  /-- `HandshakeInit`. -/
  | initiate (remoteVip : ByteArr 4) (remotePub : PublicKey) (payload : Bytes) (eph : Nat)
  /-- `AddPendingData` of a send worker. -/
  | queue (sid : SessionId) (data : Bytes)
  /-- `UpdateLastSeen` and `GetNonce` of a send worker. -/
  | send (sid : SessionId)
  | delete (key : ByteArr 4)
  | sweep (timeout : Int)
  | tick (d : Nat)

/-- A worker goes on. -/
def setWorker (s : KeepAlive n) (k : Fin n) (w : Worker) : KeepAlive n :=
  { s with worker := Function.update s.worker k w }

/-- The sessions change. -/
def setMgr (s : KeepAlive n) (m : NoiseManager) : KeepAlive n := { s with mgr := m }

/-- Where `HandleNoisePacket` returns to: only a session without a response is decrypted
with. -/
def returned (d : Bytes) (gp : GamePacket) : HandleResult Bytes → Worker
  | .ok (some sid, none) => .holding d gp sid
  | _ => .idle

/-- After `HandleNoisePacket`. -/
def handled (s : KeepAlive n) (k : Fin n) (d : Bytes) (gp : GamePacket)
    (r : NoiseManager × HandleResult Bytes) : KeepAlive n :=
  (s.setMgr r.1).setWorker k (returned d gp r.2)

section Machine

variable (N : Ops Bytes) (A : Aead Key) (L : Lz4)

/-- One step of one of them. -/
def step (s : KeepAlive n) : Act n → Option (KeepAlive n)
  | .look k d pool =>
    match s.worker k with
    | .idle =>
      match GamePacket.empty.parsePacket A pool d true (none : Option (CipherState Key)) with
      | (some _, _, _) => some s
      | (none, gp, _) =>
        if clearCompress gp.pType = typeData then
          some (s.setWorker k
            (match s.mgr.getSession gp.src with
            | some sid => .looked d gp sid
            | none => .responding d gp))
        else some s
    | _ => none
  | .check k =>
    match s.worker k with
    | .looked d gp sid =>
      some (s.setWorker k
        (if (s.mgr.heap sid).isReady then .holding d gp sid else .locking d gp sid))
    | _ => none
  | .lock k =>
    match s.worker k with
    | .locking d gp sid =>
      match s.mgr.lockedBody N sid gp.src gp.data with
      | some r => some (s.handled k d gp r)
      | none => some (s.setWorker k (.responding d gp))
    | _ => none
  | .respond k eph =>
    match s.worker k with
    | .responding d gp =>
      some (s.handled k d gp (s.mgr.handleResponderFirst N gp.src gp.data eph s.now))
    | _ => none
  | .decrypt k pool =>
    match s.worker k with
    | .holding d gp sid =>
      match gp.decryptParse A L pool (s.mgr.heap sid).cipher.recver with
      | (some _, _, _) => some (s.setWorker k .idle)
      | (none, _, _) => some (s.setWorker k (.parsed d sid))
    | _ => none
  | .touch k =>
    match s.worker k with
    | .parsed d sid =>
      some { (s.setMgr (s.mgr.modify sid (·.updateLastSeen s.now))).setWorker k .idle with
        touches := s.touches ++ [⟨sid, (s.mgr.heap sid).cipher.recver, d⟩] }
    | _ => none
  | .initiate remoteVip remotePub payload eph =>
    some (s.setMgr (s.mgr.handshakeInit N remoteVip remotePub payload eph s.now).2)
  | .queue sid data => some (s.setMgr (s.mgr.modify sid (·.addPendingData data)))
  | .send sid => some (s.setMgr (s.mgr.modify sid fun x => (x.updateLastSeen s.now).drawNonce))
  | .delete key => some (s.setMgr (s.mgr.deleteSession key))
  | .sweep timeout => some (s.setMgr (s.mgr.sweepSessions timeout s.now))
  | .tick d => some { s with now := s.now + d }

/-- A client that has just been given its address. -/
def start (n : Nat) (staticPub : PublicKey) (myVip : ByteArr 4) : KeepAlive n :=
  { mgr := .new staticPub myVip, worker := fun _ => .idle, now := 0, touches := [] }

/-- A client without sessions, with `n` workers. -/
def machine (n : Nat) (staticPub : PublicKey) (myVip : ByteArr 4) :
    Machine (KeepAlive n) (Act n) :=
  { init := start n staticPub myVip, step := step N A L }

end Machine

variable {N : Ops Bytes} {A : Aead Key} {L : Lz4} {staticPub : PublicKey} {myVip : ByteArr 4}
  {s s' : KeepAlive n} {a : Act n}

/-! ## Without interruption -/

section Alone

/-- One more step of a run. -/
theorem path_step {u v : KeepAlive n}
    (hp : (machine N A L n staticPub myVip).PathVia (fun _ _ => True) s u)
    (h : step N A L u a = some v) :
    (machine N A L n staticPub myVip).PathVia (fun _ _ => True) s v :=
  hp.step (a := a) trivial h

theorem setWorker_setWorker (s : KeepAlive n) (k : Fin n) (v w : Worker) :
    (s.setWorker k v).setWorker k w = s.setWorker k w := by
  unfold setWorker
  rw [Function.update_idem]

theorem worker_setWorker (s : KeepAlive n) (k : Fin n) (w : Worker) :
    (s.setWorker k w).worker k = w :=
  Function.update_self ..

/-- The end of `HandleNoisePacket`, for a worker that is on its way into it. -/
theorem handled_setWorker (s : KeepAlive n) (k : Fin n) (w : Worker) (d : Bytes) (gp : GamePacket)
    (r : NoiseManager × HandleResult Bytes) :
    (s.setWorker k w).handled k d gp r = s.handled k d gp r :=
  setWorker_setWorker (s.setMgr r.1) k w _

/-- **A worker alone in `HandleNoisePacket`**. -/
theorem handled_alone {k : Fin n} {d : Bytes} {gp : GamePacket} {pool pool' : Pool}
    (hk : s.worker k = .idle)
    (hparse : GamePacket.empty.parsePacket A pool d true none = (none, gp, pool'))
    (htype : clearCompress gp.pType = typeData) (eph : Nat) :
    (machine N A L n staticPub myVip).PathVia (fun _ _ => True) s
      (s.handled k d gp (s.mgr.handleNoisePacket N gp.src gp.data eph s.now)) := by
  have hlook : step N A L s (.look k d pool) = some (s.setWorker k
      (match s.mgr.getSession gp.src with
      | some sid => .looked d gp sid
      | none => .responding d gp)) := by
    simp only [step, hk, hparse, htype, if_true]
  -- on the way into `handleResponderFirst` it does the rest in one step
  have hrespond : ∀ {u : KeepAlive n},
      (machine N A L n staticPub myVip).PathVia (fun _ _ => True) s u →
      u = s.setWorker k (.responding d gp) →
      (machine N A L n staticPub myVip).PathVia (fun _ _ => True) s
        (s.handled k d gp (s.mgr.handleResponderFirst N gp.src gp.data eph s.now)) := by
    rintro u hp rfl
    rw [← handled_setWorker s k (.responding d gp)]
    have hresp : step N A L (s.setWorker k (.responding d gp)) (.respond k eph)
        = some ((s.setWorker k (.responding d gp)).handled k d gp
          (s.mgr.handleResponderFirst N gp.src gp.data eph s.now)) := by
      simp only [step, worker_setWorker]
      rfl
    exact path_step hp hresp
  unfold NoiseManager.handleNoisePacket
  cases hent : s.mgr.getSession gp.src with
  | none =>
    rw [hent] at hlook
    exact hrespond (path_step .refl hlook) rfl
  | some sid =>
    rw [hent] at hlook
    have hlooked : (machine N A L n staticPub myVip).PathVia (fun _ _ => True) s
        (s.setWorker k (.looked d gp sid)) := path_step .refl hlook
    by_cases hready : (s.mgr.heap sid).isReady = true
    · simp only [hready, if_true]
      have hcheck : step N A L (s.setWorker k (.looked d gp sid)) (.check k)
          = some (s.handled k d gp (s.mgr, .ok (some sid, none))) := by
        simp only [step, worker_setWorker]
        rw [setWorker_setWorker]
        show some (s.setWorker k (if (s.mgr.heap sid).isReady then _ else _)) = _
        rw [hready]
        rfl
      exact path_step hlooked hcheck
    · have hcheck : step N A L (s.setWorker k (.looked d gp sid)) (.check k)
          = some (s.setWorker k (.locking d gp sid)) := by
        simp only [step, worker_setWorker]
        rw [setWorker_setWorker]
        show some (s.setWorker k (if (s.mgr.heap sid).isReady then _ else _)) = _
        rw [if_neg hready]
      have hlocking := path_step hlooked hcheck
      simp only [hready, if_false, Bool.false_eq_true]
      cases hbody : s.mgr.lockedBody N sid gp.src gp.data with
      | none =>
        have hyield : step N A L (s.setWorker k (.locking d gp sid)) (.lock k)
            = some (s.setWorker k (.responding d gp)) := by
          simp only [step, worker_setWorker]
          show (match s.mgr.lockedBody N sid gp.src gp.data with | some r => _ | none => _) = _
          rw [hbody]
          simp only
          rw [setWorker_setWorker]
        exact hrespond (path_step hlocking hyield) rfl
      | some r =>
        have hlock : step N A L (s.setWorker k (.locking d gp sid)) (.lock k)
            = some (s.handled k d gp r) := by
          simp only [step, worker_setWorker]
          show (match s.mgr.lockedBody N sid gp.src gp.data with | some r => _ | none => _) = _
          rw [hbody]
          simp only
          rw [handled_setWorker]
        exact path_step hlocking hlock

/-- **A worker alone from `DecryptParse` on**. -/
theorem decrypted_alone {u : KeepAlive n} {k : Fin n} {d : Bytes} {gp : GamePacket}
    {sid : SessionId} (hp : (machine N A L n staticPub myVip).PathVia (fun _ _ => True) s u)
    (hk : u.worker k = .holding d gp sid) (pool : Pool) :
    ∃ v, (machine N A L n staticPub myVip).PathVia (fun _ _ => True) s v ∧ v.worker k = .idle ∧
      v.mgr = match gp.decryptParse A L pool (u.mgr.heap sid).cipher.recver with
        | (some _, _, _) => u.mgr
        | (none, _, _) => u.mgr.modify sid (·.updateLastSeen u.now) := by
  cases hdec : gp.decryptParse A L pool (u.mgr.heap sid).cipher.recver with
  | mk err rest =>
    obtain ⟨g, pool'⟩ := rest
    cases err with
    | some e =>
      have hfail : step N A L u (.decrypt k pool) = some (u.setWorker k .idle) := by
        simp only [step, hk, hdec]
      exact ⟨_, path_step hp hfail, worker_setWorker .., rfl⟩
    | none =>
      have hopen : step N A L u (.decrypt k pool) = some (u.setWorker k (.parsed d sid)) := by
        simp only [step, hk, hdec]
      obtain ⟨v, htouch, hidle, hmgr⟩ : ∃ v,
          step N A L (u.setWorker k (.parsed d sid)) (.touch k) = some v ∧ v.worker k = .idle ∧
            v.mgr = u.mgr.modify sid (·.updateLastSeen u.now) := by
        simp only [step, worker_setWorker]
        exact ⟨_, rfl, worker_setWorker .., rfl⟩
      exact ⟨v, path_step (path_step hp hopen) htouch, hidle, hmgr⟩

/-- **A worker alone is `packetRecv`**: it does to the sessions what `packetRecv` does, and
is then ready for the next datagram. -/
theorem received_alone {k : Fin n} (hk : s.worker k = .idle) (pool : Pool) (localIp : ByteArr 4)
    (d : Bytes) (eph : Nat) (room : Bool) :
    ∃ u, (machine N A L n staticPub myVip).PathVia (fun _ _ => True) s u ∧ u.worker k = .idle ∧
      u.mgr = (packetRecv N A L s.mgr pool localIp d eph s.now room).1 := by
  unfold packetRecv
  cases hparse : GamePacket.empty.parsePacket A pool d true (none : Option (CipherState Key)) with
  | mk err rest =>
    obtain ⟨gp, pool₁⟩ := rest
    cases err with
    | some e => exact ⟨s, .refl, hk, rfl⟩
    | none =>
      simp only
      split
      · next htype =>
        have hpath : (machine N A L n staticPub myVip).PathVia (fun _ _ => True) s
            (s.handled k d gp (s.mgr.handleNoisePacket N gp.src gp.data eph s.now)) :=
          handled_alone hk hparse htype eph
        unfold recvData
        simp only
        cases hcall : s.mgr.handleNoisePacket N gp.src gp.data eph s.now with
        | mk m result =>
          rw [hcall] at hpath
          match result with
          | .error e => exact ⟨_, hpath, worker_setWorker .., rfl⟩
          | .ok (none, some response) => exact ⟨_, hpath, worker_setWorker .., rfl⟩
          | .ok (some sid, some response) => exact ⟨_, hpath, worker_setWorker .., rfl⟩
          | .ok (none, none) => exact ⟨_, hpath, worker_setWorker .., rfl⟩
          | .ok (some sid, none) =>
            obtain ⟨v, hpath', hidle, hmgr⟩ := decrypted_alone hpath (worker_setWorker ..) pool₁
            refine ⟨v, hpath', hidle, hmgr.trans ?_⟩
            show (match gp.decryptParse A L pool₁ (m.heap sid).cipher.recver with
              | (some _, _, _) => m
              | (none, _, _) => m.modify sid (·.updateLastSeen s.now)) = _
            simp only
            cases hdec : gp.decryptParse A L pool₁ (m.heap sid).cipher.recver with
            | mk err rest =>
              obtain ⟨g, pool₂⟩ := rest
              cases err with
              | some e => rfl
              | none =>
                -- whether `FromNet` has room does not matter here
                cases room with
                | true => rfl
                | false => rfl
      · exact ⟨s, .refl, hk, rfl⟩

end Alone

/-! ## The steps -/

/-- What `HandleNoisePacket` under the lock leaves behind, if it does not yield: nothing new,
or the session completed. -/
def Locked (m m' : NoiseManager) (sid : SessionId) : Prop :=
  m' = m ∨ (m.heap sid).isReady = false ∧
    ∃ t, m' = (m.modify sid (·.complete t)).sendAllPendingData sid

variable (N A L) in
/-- What a step does. -/
inductive Does (s : KeepAlive n) : Act n → KeepAlive n → Prop where
  | skip {k : Fin n} {d : Bytes} {pool : Pool} : Does s (.look k d pool) s
  | found {k : Fin n} {d : Bytes} {pool : Pool} {gp : GamePacket} {sid : SessionId}
      (hparse : ParsedFrom A d gp) (hent : s.mgr.getSession gp.src = some sid) :
      Does s (.look k d pool) (s.setWorker k (.looked d gp sid))
  | missing {k : Fin n} {d : Bytes} {pool : Pool} {gp : GamePacket}
      (hparse : ParsedFrom A d gp) : Does s (.look k d pool) (s.setWorker k (.responding d gp))
  | ready {k : Fin n} {d : Bytes} {gp : GamePacket} {sid : SessionId}
      (hk : s.worker k = .looked d gp sid) (hready : (s.mgr.heap sid).isReady = true) :
      Does s (.check k) (s.setWorker k (.holding d gp sid))
  | unready {k : Fin n} {d : Bytes} {gp : GamePacket} {sid : SessionId}
      (hk : s.worker k = .looked d gp sid) :
      Does s (.check k) (s.setWorker k (.locking d gp sid))
  | readyLocked {k : Fin n} {d : Bytes} {gp : GamePacket} {sid : SessionId}
      (hk : s.worker k = .locking d gp sid) (hready : (s.mgr.heap sid).isReady = true) :
      Does s (.lock k) (s.setWorker k (.holding d gp sid))
  | locked {k : Fin n} {d : Bytes} {gp : GamePacket} {sid : SessionId} {m : NoiseManager}
      (hk : s.worker k = .locking d gp sid) (hm : Locked s.mgr m sid) :
      Does s (.lock k) ((s.setMgr m).setWorker k .idle)
  | yield {k : Fin n} {d : Bytes} {gp : GamePacket} {sid : SessionId}
      (hk : s.worker k = .locking d gp sid) :
      Does s (.lock k) (s.setWorker k (.responding d gp))
  | respond {k : Fin n} {d : Bytes} {gp : GamePacket} {eph : Nat}
      (hk : s.worker k = .responding d gp) :
      Does s (.respond k eph)
        ((s.setMgr (s.mgr.handleResponderFirst N gp.src gp.data eph s.now).1).setWorker k .idle)
  | reject {k : Fin n} {pool : Pool} : Does s (.decrypt k pool) (s.setWorker k .idle)
  | accept {k : Fin n} {d : Bytes} {gp g : GamePacket} {sid : SessionId} {pool pool' : Pool}
      (hk : s.worker k = .holding d gp sid)
      (hdec : gp.decryptParse A L pool (s.mgr.heap sid).cipher.recver = (none, g, pool')) :
      Does s (.decrypt k pool) (s.setWorker k (.parsed d sid))
  | touch {k : Fin n} {d : Bytes} {sid : SessionId} (hk : s.worker k = .parsed d sid) :
      Does s (.touch k)
        { (s.setMgr (s.mgr.modify sid (·.updateLastSeen s.now))).setWorker k .idle with
          touches := s.touches ++ [⟨sid, (s.mgr.heap sid).cipher.recver, d⟩] }
  | initiate {remoteVip : ByteArr 4} {remotePub : PublicKey} {payload : Bytes} {eph : Nat} :
      Does s (.initiate remoteVip remotePub payload eph)
        (s.setMgr (s.mgr.handshakeInit N remoteVip remotePub payload eph s.now).2)
  | queue {sid : SessionId} {data : Bytes} :
      Does s (.queue sid data) (s.setMgr (s.mgr.modify sid (·.addPendingData data)))
  | send {sid : SessionId} :
      Does s (.send sid)
        (s.setMgr (s.mgr.modify sid fun x => (x.updateLastSeen s.now).drawNonce))
  | delete {key : ByteArr 4} : Does s (.delete key) (s.setMgr (s.mgr.deleteSession key))
  | sweep {timeout : Int} :
      Does s (.sweep timeout) (s.setMgr (s.mgr.sweepSessions timeout s.now))
  | tick {d : Nat} : Does s (.tick d) { s with now := s.now + d }

theorem does_look {k : Fin n} {d : Bytes} {pool : Pool}
    (h : step N A L s (.look k d pool) = some s') : Does N A L s (.look k d pool) s' := by
  simp only [step] at h
  split at h
  · cases hparse : GamePacket.empty.parsePacket A pool d true (none : Option (CipherState Key)) with
    | mk err rest =>
      obtain ⟨gp, pool'⟩ := rest
      rw [hparse] at h
      cases err with
      | some e =>
        cases h
        exact .skip
      | none =>
        simp only at h
        split at h
        · cases h
          cases hent : s.mgr.getSession gp.src with
          | none => exact .missing ⟨pool, pool', hparse⟩
          | some sid => exact .found ⟨pool, pool', hparse⟩ hent
        · cases h
          exact .skip
  · cases h

theorem does_lock {k : Fin n} (h : step N A L s (.lock k) = some s') :
    Does N A L s (.lock k) s' := by
  simp only [step] at h
  split at h
  · next d gp sid hk =>
    cases hbody : s.mgr.lockedBody N sid gp.src gp.data with
    | none =>
      rw [hbody] at h
      cases h
      exact .yield hk
    | some r =>
      obtain ⟨m, result⟩ := r
      rw [hbody] at h
      cases h
      have hm : Locked s.mgr m sid :=
        (NoiseManager.lockedBody_inv hbody).imp_right fun ⟨hready, t, hr⟩ =>
          ⟨hready, t, congrArg Prod.fst hr⟩
      match result with
      | .ok (some i, none) =>
        obtain ⟨rfl, rfl, hready⟩ := NoiseManager.lockedBody_session hbody
        exact .readyLocked hk hready
      | .ok (none, none) => exact .locked hk hm
      | .ok (none, some response) => exact .locked hk hm
      | .ok (some i, some response) => exact .locked hk hm
      | .error e => exact .locked hk hm
  · cases h

theorem does_respond {k : Fin n} {eph : Nat} (h : step N A L s (.respond k eph) = some s') :
    Does N A L s (.respond k eph) s' := by
  simp only [step] at h
  split at h
  · next d gp hk =>
    cases h
    -- it returns an error or a response
    have hidle : returned d gp (s.mgr.handleResponderFirst N gp.src gp.data eph s.now).2
        = .idle := by
      rcases s.mgr.handleResponderFirst_inv N gp.src gp.data eph s.now with hfail | ⟨t, hok⟩
      · rw [hfail]
        rfl
      · rw [hok]
        rfl
    rw [handled, hidle]
    exact .respond hk
  · cases h

theorem does_decrypt {k : Fin n} {pool : Pool} (h : step N A L s (.decrypt k pool) = some s') :
    Does N A L s (.decrypt k pool) s' := by
  simp only [step] at h
  split at h
  · next d gp sid hk =>
    cases hdec : gp.decryptParse A L pool (s.mgr.heap sid).cipher.recver with
    | mk err rest =>
      obtain ⟨g, pool'⟩ := rest
      rw [hdec] at h
      cases err with
      | some e =>
        cases h
        exact .reject
      | none =>
        cases h
        exact .accept hk hdec
  · cases h

theorem does_of_step (h : step N A L s a = some s') : Does N A L s a s' := by
  cases a with
  | look k d pool => exact does_look h
  | lock k => exact does_lock h
  | respond k eph => exact does_respond h
  | decrypt k pool => exact does_decrypt h
  | check k =>
    simp only [step] at h
    split at h
    · next d gp sid hk =>
      cases h
      split
      · next hready => exact .ready hk hready
      · exact .unready hk
    · cases h
  | touch k =>
    simp only [step] at h
    split at h
    · next d sid hk =>
      cases h
      exact .touch hk
    · cases h
  | initiate remoteVip remotePub payload eph =>
    cases h
    exact .initiate
  | queue sid data =>
    cases h
    exact .queue
  | send sid =>
    cases h
    exact .send
  | delete key =>
    cases h
    exact .delete
  | sweep timeout =>
    cases h
    exact .sweep
  | tick d =>
    cases h
    exact .tick

/-! ## What the steps leave in place -/

/-- A ready session has a `Recver`. -/
def Keyed (m : NoiseManager) : Prop :=
  ∀ {sid}, (m.heap sid).isReady = true → (m.heap sid).cipher.recver.isSome = true

/-- What a change of the manager leaves in place. `seen` is the session whose `lastSeen`
it may renew. -/
structure Keeps (seen : Option SessionId) (m m' : NoiseManager) : Prop where
  next_le : m.next ≤ m'.next
  ready : ∀ {sid}, sid < m.next → (m.heap sid).isReady = true →
    (m'.heap sid).isReady = true ∧ (m'.heap sid).cipher.recver = (m.heap sid).cipher.recver
  lastSeen : ∀ {sid}, sid < m.next → seen ≠ some sid →
    (m'.heap sid).lastSeen = (m.heap sid).lastSeen
  allocated : m.Allocated → m'.Allocated
  keyed : Keyed m → Keyed m'

namespace Keeps

variable {m m' m'' : NoiseManager} {seen : Option SessionId}

theorem refl (m : NoiseManager) : Keeps seen m m where
  next_le := Nat.le_refl _
  ready _ hready := ⟨hready, rfl⟩
  lastSeen _ _ := rfl
  allocated := id
  keyed := id

theorem trans (h : Keeps seen m m') (h' : Keeps seen m' m'') : Keeps seen m m'' where
  next_le := Nat.le_trans h.next_le h'.next_le
  ready hsid hready := by
    obtain ⟨hready', hkey⟩ := h.ready hsid hready
    obtain ⟨hready'', hkey'⟩ := h'.ready (Nat.lt_of_lt_of_le hsid h.next_le) hready'
    exact ⟨hready'', hkey'.trans hkey⟩
  lastSeen hsid hne :=
    (h'.lastSeen (Nat.lt_of_lt_of_le hsid h.next_le) hne).trans (h.lastSeen hsid hne)
  allocated := h'.allocated ∘ h.allocated
  keyed := h'.keyed ∘ h.keyed

/-- A change of one session object. -/
theorem modify_of (m : NoiseManager) (sid : SessionId) {f : NoiseSession → NoiseSession}
    (hready : (m.heap sid).isReady = true → (f (m.heap sid)).isReady = true ∧
      (f (m.heap sid)).cipher.recver = (m.heap sid).cipher.recver)
    (hkeyed : ((m.heap sid).isReady = true → (m.heap sid).cipher.recver.isSome = true) →
      (f (m.heap sid)).isReady = true → (f (m.heap sid)).cipher.recver.isSome = true)
    (hseen : seen = some sid ∨ (f (m.heap sid)).lastSeen = (m.heap sid).lastSeen) :
    Keeps seen m (m.modify sid f) where
  next_le := Nat.le_refl _
  ready {i} _ hi := by
    by_cases his : i = sid
    · subst his
      rw [NoiseManager.heap_modify]
      exact hready hi
    · rw [NoiseManager.heap_modify_of_ne m his]
      exact ⟨hi, rfl⟩
  lastSeen {i} _ hne := by
    by_cases his : i = sid
    · subst his
      rw [NoiseManager.heap_modify]
      exact hseen.resolve_left hne
    · rw [NoiseManager.heap_modify_of_ne m his]
  allocated := id
  keyed hm := by
    intro i hi
    by_cases his : i = sid
    · subst his
      rw [NoiseManager.heap_modify] at hi ⊢
      exact hkeyed hm hi
    · rw [NoiseManager.heap_modify_of_ne m his] at hi ⊢
      exact hm hi

/-- A change of one session object outside of its status and its `Recver`. -/
theorem modify (m : NoiseManager) (sid : SessionId) {f : NoiseSession → NoiseSession}
    (hready : (f (m.heap sid)).isReady = (m.heap sid).isReady)
    (hrecver : (f (m.heap sid)).cipher.recver = (m.heap sid).cipher.recver)
    (hseen : seen = some sid ∨ (f (m.heap sid)).lastSeen = (m.heap sid).lastSeen) :
    Keeps seen m (m.modify sid f) :=
  modify_of m sid (fun h => ⟨hready.trans h, hrecver⟩)
    (fun hm h => by rw [hrecver]; exact hm (hready.symm.trans h)) hseen

theorem sendAllPendingData (m : NoiseManager) (sid : SessionId) :
    Keeps seen m (m.sendAllPendingData sid) := by
  have hmod : Keeps seen m (m.modify sid fun s => { s with pendingChan := [] }) :=
    modify m sid rfl rfl (Or.inr rfl)
  exact hmod.trans ⟨Nat.le_refl _, fun _ h => ⟨h, rfl⟩, fun _ _ => rfl, id, id⟩

/-- A new session under some address. -/
theorem install (m : NoiseManager) (key : ByteArr 4) {x : NoiseSession}
    (hkeyed : x.isReady = true → x.cipher.recver.isSome = true) :
    Keeps seen m (m.install key x) where
  next_le := Nat.le_succ _
  ready hsid hready := by
    rw [NoiseManager.heap_install_of_lt m key x hsid]
    exact ⟨hready, rfl⟩
  lastSeen hsid _ := by rw [NoiseManager.heap_install_of_lt m key x hsid]
  allocated hm := by
    intro key' sid hsid
    by_cases hk : key' = key
    · subst hk
      rw [NoiseManager.getSession_install] at hsid
      cases hsid
      exact Nat.lt_succ_self _
    · exact Nat.lt_succ_of_lt (hm ((AList.lookup_insert_ne hk).symm.trans hsid))
  keyed hm := by
    intro sid hready
    by_cases hsid : sid = m.next
    · subst hsid
      rw [NoiseManager.heap_install] at hready ⊢
      exact hkeyed hready
    · have hother : (m.install key x).heap sid = m.heap sid := Function.update_of_ne hsid ..
      rw [hother] at hready ⊢
      exact hm hready

/-- A change that at most removes entries of the table. -/
theorem of_table (hheap : m'.heap = m.heap) (hnext : m'.next = m.next)
    (htable : ∀ {key sid}, m'.getSession key = some sid → m.getSession key = some sid) :
    Keeps seen m m' where
  next_le := Nat.le_of_eq hnext.symm
  ready _ hready := by
    rw [hheap]
    exact ⟨hready, rfl⟩
  lastSeen _ _ := by rw [hheap]
  allocated hm := by
    intro key sid hsid
    rw [hnext]
    exact hm (htable hsid)
  keyed hm := by
    intro sid
    rw [hheap]
    exact hm

theorem locked {sid : SessionId} (h : Locked m m' sid) : Keeps seen m m' := by
  rcases h with rfl | ⟨hready, t, rfl⟩
  · exact .refl _
  · have hcomplete : Keeps seen m (m.modify sid (·.complete t)) := by
      refine modify_of m sid (fun h => ?_) (fun _ _ => rfl) (Or.inr rfl)
      rw [hready] at h
      cases h
    exact hcomplete.trans (.sendAllPendingData ..)

theorem handleResponderFirst (N : Ops Bytes) (m : NoiseManager) (srcVip : ByteArr 4)
    (data : Bytes) (eph : Nat) (now : Int) :
    Keeps seen m (m.handleResponderFirst N srcVip data eph now).1 := by
  rcases m.handleResponderFirst_inv N srcVip data eph now with hfail | ⟨t, hok⟩
  · rw [hfail]
    exact .refl m
  · rw [hok]
    exact (Keeps.install m srcVip fun _ => rfl).trans (.sendAllPendingData ..)

theorem handshakeInit (N : Ops Bytes) (m : NoiseManager) (remoteVip : ByteArr 4)
    (remotePub : PublicKey) (payload : Bytes) (eph : Nat) (now : Int) :
    Keeps seen m (m.handshakeInit N remoteVip remotePub payload eph now).2 := by
  refine .install m remoteVip fun hready => ?_
  -- the new session is not ready, with or without its first packet
  rcases NoiseSession.addPendingData_cases
    (.new remoteVip true (some ⟨m.staticPub, remotePub, eph⟩) now) payload with hsame | hadded
  · rw [hsame] at hready
    cases hready
  · rw [hadded] at hready
    cases hready

theorem addPendingData (m : NoiseManager) (sid : SessionId) (data : Bytes) :
    Keeps seen m (m.modify sid (·.addPendingData data)) := by
  rcases (m.heap sid).addPendingData_cases data with hsame | hadded
  · exact modify m sid (by rw [hsame]) (by rw [hsame]) (Or.inr (by rw [hsame]))
  · exact modify m sid (by rw [hadded]; rfl) (by rw [hadded]) (Or.inr (by rw [hadded]))

end Keeps

/-- The session whose `lastSeen` a step renews. -/
def seenBy (s : KeepAlive n) : Act n → Option SessionId
  | .touch k =>
    match s.worker k with
    | .parsed _ sid => some sid
    | _ => none
  | .send sid => some sid
  | _ => none

/-- **What a step leaves in place.** -/
theorem keeps_of_does (hs : Does N A L s a s') : Keeps (s.seenBy a) s.mgr s'.mgr := by
  cases hs with
  | skip | found | missing | ready | unready | readyLocked | yield | reject | accept | tick =>
    exact .refl _
  | locked hk hm => exact .locked hm
  | respond hk => exact .handleResponderFirst ..
  | @touch k d sid hk =>
    have hseen : s.seenBy (.touch k) = some sid := by simp only [seenBy, hk]
    exact .modify (f := (·.updateLastSeen s.now)) s.mgr sid rfl rfl (Or.inl hseen)
  | initiate => exact .handshakeInit N ..
  | queue => exact .addPendingData ..
  | send =>
    exact .modify (f := fun x => (x.updateLastSeen s.now).drawNonce) s.mgr _ rfl rfl (Or.inl rfl)
  | delete => exact .of_table rfl rfl NoiseManager.getSession_of_deleteSession
  | sweep => exact .of_table rfl rfl fun h => (NoiseManager.getSession_of_sweepSessions h).1

/-! ## Datagrams with a body -/

variable (L) in
/-- The datagram that the worker is about to decrypt has a length field, or it is marked as
compressed and the library makes nothing of its body, so that it is refused in any case. -/
def Worker.hasField : Worker → Bool
  | .holding d gp _ =>
    lengthField d != 0 ||
      (compressed gp.pType && (L.uncompressBlock gp.data maxPayloadSize).all List.isEmpty)
  | _ => true

variable (L) in
/-- `DecryptParse` gets no datagram whose length field is zero, but for those that it cannot
decompress. -/
def FieldOk (s : KeepAlive n) : Act n → Prop
  | .decrypt k _ => (s.worker k).hasField L = true
  | _ => True

instance (s : KeepAlive n) : (a : Act n) → Decidable (FieldOk L s a)
  | .decrypt k _ => inferInstanceAs (Decidable ((s.worker k).hasField L = true))
  | .look _ _ _ | .check _ | .lock _ | .respond _ _ | .touch _ | .initiate _ _ _ _ | .queue _ _
  | .send _ | .delete _ | .sweep _ | .tick _ => inferInstanceAs (Decidable True)

/-- What a worker accepts then has a length field. -/
theorem FieldOk.ne_zero {k : Fin n} {d : Bytes} {gp g : GamePacket} {sid : SessionId}
    {pool pool' : Pool} {recver : Option (CipherState Key)}
    (hok : FieldOk L s (.decrypt k pool)) (hk : s.worker k = .holding d gp sid)
    (hparse : ParsedFrom A d gp) (hdec : gp.decryptParse A L pool recver = (none, g, pool')) :
    lengthField d ≠ 0 := by
  have hfield : (s.worker k).hasField L = true := hok
  rw [hk, Worker.hasField, Bool.or_eq_true, Bool.and_eq_true] at hfield
  rcases hfield with hne | ⟨hcompressed, hnothing⟩
  · exact bne_iff_ne.mp hne
  · intro hzero
    obtain ⟨pool₁, pool₂, hparse⟩ := hparse
    have hlength : gp.length.toNat = 0 := (length_of_parsePacket hparse).trans hzero
    -- nothing is decrypted, and `decompress` fails
    unfold GamePacket.decryptParse at hdec
    rw [GamePacket.decryptRaw_of_length_eq_zero hlength] at hdec
    simp only [hcompressed, if_true] at hdec
    exact GamePacket.decompress_nothing pool hnothing (congrArg Prod.fst hdec)

/-- What is true of a worker: its packet was parsed from its datagram, its session exists, and
a datagram that it has accepted was opened. -/
def Worker.Valid (A : Aead Key) (m : NoiseManager) : Worker → Prop
  | .idle | .responding _ _ => True
  | .looked d gp sid | .locking d gp sid => ParsedFrom A d gp ∧ sid < m.next
  | .holding d gp sid => ParsedFrom A d gp ∧ sid < m.next ∧ (m.heap sid).isReady = true
  | .parsed d sid =>
    sid < m.next ∧ (m.heap sid).isReady = true ∧ authentic A (m.heap sid).cipher.recver d = true

theorem Worker.Valid.keeps {m m' : NoiseManager} {seen : Option SessionId} {w : Worker}
    (h : w.Valid A m) (hm : Keeps seen m m') : w.Valid A m' := by
  cases w with
  | idle | responding d gp => trivial
  | looked d gp sid | locking d gp sid => exact ⟨h.1, Nat.lt_of_lt_of_le h.2 hm.next_le⟩
  | holding d gp sid =>
    obtain ⟨hparse, hsid, hready⟩ := h
    exact ⟨hparse, Nat.lt_of_lt_of_le hsid hm.next_le, (hm.ready hsid hready).1⟩
  | parsed d sid =>
    obtain ⟨hsid, hready, hopened⟩ := h
    obtain ⟨hready', hrecver⟩ := hm.ready hsid hready
    refine ⟨Nat.lt_of_lt_of_le hsid hm.next_le, hready', ?_⟩
    rw [hrecver]
    exact hopened

variable (A) in
/-- The invariant of the runs without empty datagrams. -/
structure Inv (s : KeepAlive n) : Prop where
  allocated : s.mgr.Allocated
  keyed : Keyed s.mgr
  worker : ∀ k, (s.worker k).Valid A s.mgr
  touches : ∀ t ∈ s.touches, authentic A t.recver t.datagram = true

namespace Inv

theorem start (n : Nat) (staticPub : PublicKey) (myVip : ByteArr 4) :
    Inv A (start n staticPub myVip) where
  allocated h := by cases h
  keyed h := by cases h
  worker _ := trivial
  touches _ h := by cases h

/-- A change of one worker. -/
theorem setWorker (h : Inv A s) {k : Fin n} {w : Worker} (hw : w.Valid A s.mgr) :
    Inv A (s.setWorker k w) where
  allocated := h.allocated
  keyed := h.keyed
  worker j := by
    show (Function.update s.worker k w j).Valid A s.mgr
    by_cases hj : j = k
    · subst hj
      rw [Function.update_self]
      exact hw
    · rw [Function.update_of_ne hj]
      exact h.worker j
  touches := h.touches

/-- A change of the manager. -/
theorem setMgr (h : Inv A s) {m : NoiseManager} {seen : Option SessionId}
    (hm : Keeps seen s.mgr m) : Inv A (s.setMgr m) where
  allocated := hm.allocated h.allocated
  keyed := hm.keyed h.keyed
  worker k := (h.worker k).keeps hm
  touches := h.touches

/-- One more touch, for a datagram that was opened. -/
theorem touch (h : Inv A s) {t : Touch} (ht : authentic A t.recver t.datagram = true) :
    Inv A { s with touches := s.touches ++ [t] } where
  allocated := h.allocated
  keyed := h.keyed
  worker := h.worker
  touches u hu := by
    rcases List.mem_append.mp hu with hold | hnew
    · exact h.touches u hold
    · rw [List.mem_singleton.mp hnew]
      exact ht

/-- One step of one of them. -/
theorem step (h : Inv A s) (hok : FieldOk L s a) (hs : Does N A L s a s') : Inv A s' := by
  have hkeeps := keeps_of_does hs
  cases hs with
  | skip => exact h
  | tick => exact ⟨h.allocated, h.keyed, h.worker, h.touches⟩
  | found hparse hent => exact h.setWorker ⟨hparse, h.allocated hent⟩
  | missing hparse => exact h.setWorker trivial
  | @ready k d gp sid hk hready | @readyLocked k d gp sid hk hready =>
    have hw := h.worker k
    rw [hk] at hw
    exact h.setWorker ⟨hw.1, hw.2, hready⟩
  | @unready k d gp sid hk =>
    have hw := h.worker k
    rw [hk] at hw
    exact h.setWorker hw
  | locked hk hm => exact (h.setMgr hkeeps).setWorker trivial
  | yield hk => exact h.setWorker trivial
  | respond hk => exact (h.setMgr hkeeps).setWorker trivial
  | reject => exact h.setWorker trivial
  | @accept k d gp g sid pool pool' hk hdec =>
    have hw := h.worker k
    rw [hk] at hw
    obtain ⟨hparse, hsid, hready⟩ := hw
    have hopened : authentic A (s.mgr.heap sid).cipher.recver d = true :=
      authentic_of_decryptParse hparse (hok.ne_zero hk hparse hdec) (h.keyed hready) hdec
    exact h.setWorker ⟨hsid, hready, hopened⟩
  | @touch k d sid hk =>
    have hw := h.worker k
    rw [hk] at hw
    have hidle := (h.setMgr hkeeps).setWorker (k := k) (w := .idle) trivial
    exact hidle.touch hw.2.2
  | initiate | queue | send | delete | sweep => exact h.setMgr hkeeps

theorem reach (hr : (machine N A L n staticPub myVip).ReachVia (FieldOk L) s) : Inv A s :=
  hr.invariant (.start n staticPub myVip) fun _ h hok hs => h.step hok (does_of_step hs)

end Inv

/-! ## A session without authentic traffic -/

/-- The worker has accepted a datagram for the session. -/
def Worker.accepted (sid : SessionId) : Worker → Bool
  | .parsed _ i => i == sid
  | _ => false

/-- The worker is not about to decrypt an authentic datagram for the session. -/
def Worker.quiet (A : Aead Key) (m : NoiseManager) (sid : SessionId) : Worker → Bool
  | .holding d _ i => i != sid || !authentic A (m.heap i).cipher.recver d
  | _ => true

variable (A L) in
/-- **Nothing authentic for the session**: nothing is sent in it, and no datagram that is
received for it is authentic. -/
def Silent (sid : SessionId) (s : KeepAlive n) (a : Act n) : Prop :=
  FieldOk L s a ∧
    match a with
    | .send i => i ≠ sid
    | .decrypt k _ => (s.worker k).quiet A s.mgr sid = true
    | _ => True

/-- The session is as old as it was, and nobody is about to renew it. -/
structure Aging (sid : SessionId) (lastSeen : Int) (s : KeepAlive n) : Prop where
  lt : sid < s.mgr.next
  lastSeen : (s.mgr.heap sid).lastSeen = lastSeen
  worker : ∀ k, (s.worker k).accepted sid = false

namespace Aging

variable {sid : SessionId} {lastSeen : Int}

/-- A step that does not renew the session, and whose worker has not accepted a datagram
for it. -/
theorem keeps (h : Aging sid lastSeen s) {seen : Option SessionId}
    (hm : Keeps seen s.mgr s'.mgr) (hseen : seen ≠ some sid)
    (hworker : ∀ k, (s'.worker k).accepted sid = false) : Aging sid lastSeen s' where
  lt := Nat.lt_of_lt_of_le h.lt hm.next_le
  lastSeen := (hm.lastSeen h.lt hseen).trans h.lastSeen
  worker := hworker

theorem worker_update (h : Aging sid lastSeen s) (k : Fin n) {w : Worker}
    (hw : w.accepted sid = false) (j : Fin n) :
    (Function.update s.worker k w j).accepted sid = false := by
  by_cases hj : j = k
  · subst hj
    rw [Function.update_self]
    exact hw
  · rw [Function.update_of_ne hj]
    exact h.worker j

/-- One step of one of them. -/
theorem step (h : Aging sid lastSeen s) (hinv : Inv A s) (hok : Silent A L sid s a)
    (hs : Does N A L s a s') : Aging sid lastSeen s' := by
  have hkeeps := keeps_of_does hs
  cases hs with
  | skip => exact h
  | tick => exact ⟨h.lt, h.lastSeen, h.worker⟩
  | @found k | @missing k | @ready k | @unready k | @readyLocked k | @locked k | @yield k
  | @respond k | @reject k =>
    exact h.keeps hkeeps nofun (h.worker_update k rfl)
  | @accept k d gp g i pool pool' hk hdec =>
    refine h.keeps hkeeps nofun (h.worker_update k (beq_eq_false_iff_ne.mpr ?_))
    rintro rfl
    -- what it accepts was opened, and nothing authentic is received
    have hw := hinv.worker k
    have hquiet : (s.worker k).quiet A s.mgr i = true := hok.2
    rw [hk] at hw hquiet
    obtain ⟨hparse, -, hready⟩ := hw
    have hopened : authentic A (s.mgr.heap i).cipher.recver d = true :=
      authentic_of_decryptParse hparse (hok.1.ne_zero hk hparse hdec) (hinv.keyed hready) hdec
    simp [Worker.quiet, hopened] at hquiet
  | @touch k d i hk =>
    have hw := h.worker k
    rw [hk] at hw
    have hseen : s.seenBy (.touch k) = some i := by simp only [seenBy, hk]
    rw [hseen] at hkeeps
    have hne : i ≠ sid := beq_eq_false_iff_ne.mp hw
    exact h.keeps hkeeps (fun hi => hne (Option.some.inj hi)) (h.worker_update k rfl)
  | @send i =>
    have hne : i ≠ sid := hok.2
    exact h.keeps hkeeps (fun hi => hne (Option.some.inj hi)) h.worker
  | initiate | queue | delete | sweep => exact h.keeps hkeeps nofun h.worker

end Aging

/-- **Only authentic traffic keeps a session alive**, in every run in which `DecryptParse`
accepts no datagram with a zero length field: each time a receive worker renews a session,
`Open` has accepted its datagram under the session's `Recver`; and a session for which
nothing authentic arrives and in which nothing is sent is gone after the first sweep
that is more than its timeout later, whatever else arrives. -/
theorem kept_alive_by_authentic (N : Ops Bytes) (A : Aead Key) (L : Lz4) (staticPub : PublicKey)
    (myVip : ByteArr 4) (hr : (machine N A L n staticPub myVip).ReachVia (FieldOk L) s) :
    (∀ t ∈ s.touches, authentic A t.recver t.datagram = true) ∧
      ∀ sid < s.mgr.next, (∀ k, (s.worker k).accepted sid = false) →
        ∀ u, (machine N A L n staticPub myVip).PathVia (Silent A L sid) s u →
          ∀ timeout, timeout < u.now - (s.mgr.heap sid).lastSeen →
            ∀ key, (u.mgr.sweepSessions timeout u.now).getSession key ≠ some sid := by
  refine ⟨(Inv.reach hr).touches, fun sid hsid hworker u hp timeout hold key hent => ?_⟩
  have haging : Aging sid (s.mgr.heap sid).lastSeen u := by
    refine hp.invariant ⟨hsid, rfl, hworker⟩ fun hp' h hok hs => ?_
    exact h.step (Inv.reach (hr.path hp' fun _ _ hsilent => hsilent.1)) hok (does_of_step hs)
  have hyoung := (NoiseManager.getSession_of_sweepSessions hent).2
  rw [NoiseSession.isTimeout, haging.lastSeen] at hyoung
  exact of_decide_eq_false hyoung hold

section OneSession

/-- A first message: an ephemeral key, a sealed static key and the tag of an empty payload. -/
def firstMessage : Bytes := List.replicate 96 77

/-- A Noise library that reads this first message, and no other. -/
def answering : Ops Bytes where
  len := List.length
  writeFirst _ := firstMessage
  readFirst pk d := if d = firstMessage ∧ pk = samplePub' then some sampleTranscript.first else none
  writeReply _ := List.replicate 48 77
  readReply _ _ := none

/-- The datagram with the first message. -/
def firstWire : Bytes := clearWire (.zero 4) (.zero 4) typeData firstMessage

/-- A datagram that was not sealed by the peer. -/
def forgedWire : Bytes := caseWire.take 39 ++ [175]

/-- A bare header. -/
def headerWire : Bytes := [218, 170, 8, 0, 0, 0, 0, 0, 0, 0, 0, 0, 0, 0, 0, 0, 0, 0, 0, 0, 0]

/-- A cipher that opens nothing. -/
def closedAead : Aead Key := caseCipher.restrict []

instance (sid : SessionId) (s : KeepAlive n) : (a : Act n) → Decidable (Silent A L sid s a)
  | .send i => inferInstanceAs (Decidable (FieldOk L s (.send i) ∧ i ≠ sid))
  | .decrypt k pool => inferInstanceAs
      (Decidable (FieldOk L s (.decrypt k pool) ∧ (s.worker k).quiet A s.mgr sid = true))
  | .look _ _ _ | .check _ | .lock _ | .respond _ _ | .touch _ | .initiate _ _ _ _ | .queue _ _
  | .delete _ | .sweep _ | .tick _ => inferInstanceAs (Decidable (True ∧ True))

/-- A sealed datagram renews the session; a forged one does not, and a sweep ends it. -/
theorem kept_alive_by_authentic_one :
    ∃ s, (machine answering caseAead Lz4.stored 1 samplePub' (.zero 4)).ReachVia
        (FieldOk Lz4.stored) s ∧
      s.touches.length = 1 ∧ (∀ t ∈ s.touches, authentic caseAead t.recver t.datagram = true) ∧
      s.mgr.getSession (.zero 4) = some 0 ∧
      ∃ u, (machine answering caseAead Lz4.stored 1 samplePub' (.zero 4)).PathVia
          (Silent caseAead Lz4.stored 0) s u ∧
        (u.mgr.sweepSessions 10 u.now).getSession (.zero 4) ≠ some 0 := by
  let M := machine answering caseAead Lz4.stored 1 samplePub' (.zero 4)
  obtain ⟨s, hr, hs⟩ : ∃ s, M.ReachVia (FieldOk Lz4.stored) s ∧
      (s.touches.length = 1 ∧ s.mgr.getSession (.zero 4) = some 0 ∧ 0 < s.mgr.next ∧
        (∀ k, (s.worker k).accepted 0 = false) ∧
        (M.runVia (Silent caseAead Lz4.stored 0) s
          [.look 0 forgedWire (.fresh 2048), .check 0, .decrypt 0 (.fresh 2048), .tick 20]).any
          (fun u => decide (10 < u.now - (s.mgr.heap 0).lastSeen)) = true) :=
    Machine.exists_reachVia
      [.look 0 firstWire (.fresh 2048), .respond 0 1, .tick 5, .look 0 caseWire (.fresh 2048),
        .check 0, .decrypt 0 (.fresh 2048), .touch 0]
      (by decide +kernel)
  obtain ⟨htouches, hent, hnext, hworker, hrun⟩ := hs
  obtain ⟨u, hu, hold⟩ := (Option.any_eq_true ..).mp hrun
  have hp : M.PathVia (Silent caseAead Lz4.stored 0) s u := Machine.PathVia.refl.runVia hu
  have hmain := kept_alive_by_authentic answering caseAead Lz4.stored samplePub' (.zero 4) hr
  exact ⟨s, hr, htouches, hmain.1, hent, u, hp,
    hmain.2 0 hnext hworker u hp 10 (of_decide_eq_true hold) (.zero 4)⟩

/-- **A bare header keeps a session alive.** Under a cipher that opens nothing the session is
still there when it is swept 20 seconds after its last packet, because a header without a
body came in between. -/
theorem header_keeps_alive :
    (∀ recver d, authentic closedAead recver d = false) ∧
      ∃ s, (machine answering closedAead Lz4.stored 1 samplePub' (.zero 4)).Reach s ∧
        s.touches.map (·.datagram) = [headerWire] ∧ s.now = 20 ∧
        (s.mgr.sweepSessions 10 s.now).getSession (.zero 4) = some 0 := by
  refine ⟨fun recver d => ?_, ?_⟩
  · cases recver with
    | none => rfl
    | some cs => rfl
  · exact Machine.exists_reach
      [.look 0 firstWire (.fresh 2048), .respond 0 1, .tick 20, .look 0 headerWire (.fresh 2048),
        .check 0, .decrypt 0 (.fresh 2048), .touch 0]
      (by decide +kernel)

end OneSession

end KeepAlive

end EasyTun.Transport
