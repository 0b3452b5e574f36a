import EasyTun.Protocol.Table

/-!
# Received datagrams and the session table

Anybody can send a client a datagram with any source address and any bytes, and
each one with a `TypeData` header ends in a `HandleNoisePacket`. This module asks
what a sequence of such calls can do to the sessions that are there.

- `receive_cases`: a call does nothing, completes the waiting session of its
  source address, or replaces an entry that is not ready by a responder session;
- `sessions_undisturbed`: **a ready session stays as it is, and where it is**, under
  every sequence of calls; a call that fails changes nothing; and no call touches the
  entry of another address.

Nothing is assumed of the Noise library, and nothing of the manager but that its
table points to sessions that exist.
-/

namespace EasyTun.Protocol

open EasyTun.Lib
open EasyTun.Lib.NoiseIK

variable {α D : Type}

/-- The arguments of a `HandleNoisePacket` call, with what it draws from its
environment: an ephemeral key, and the time. -/
structure Received (D : Type) where
  srcVip : ByteArr 4
  data : D
  eph : Nat
  now : Int

namespace NoiseManager

/-- The call. -/
def receive (N : Ops D) (m : NoiseManager α) (d : Received D) : NoiseManager α × HandleResult D :=
  m.handleNoisePacket N d.srcVip d.data d.eph d.now

/-- The manager after a sequence of calls. -/
def receiveAll (N : Ops D) (m : NoiseManager α) (ds : List (Received D)) : NoiseManager α :=
  ds.foldl (fun m d => (m.receive N d).1) m

/-- The table points to sessions that exist. -/
def Allocated (m : NoiseManager α) : Prop :=
  ∀ {key sid}, m.getSession key = some sid → sid < m.next

theorem Sound.allocated {m : NoiseManager α} (h : m.Sound) : m.Allocated :=
  fun hsid => (h.entry hsid).1

/-- The entry of an address is not ready. -/
def NotReady (m : NoiseManager α) (key : ByteArr 4) : Prop :=
  ∀ sid, m.getSession key = some sid → (m.heap sid).isReady = false

variable {N : Ops D} {m : NoiseManager α} {d : Received D}

/-- `handleResponderFirst` fails and changes nothing, or installs a responder. -/
theorem handleResponderFirst_inv (N : Ops D) (m : NoiseManager α) (srcVip : ByteArr 4) (data : D)
    (eph : Nat) (now : Int) :
    m.handleResponderFirst N srcVip data eph now = (m, .error .readMessage) ∨
      ∃ t, m.handleResponderFirst N srcVip data eph now =
        ((m.install srcVip (.responder srcVip t now)).sendAllPendingData m.next,
          .ok (some m.next, some (N.writeReply t))) := by
  unfold handleResponderFirst
  split
  · exact Or.inl rfl
  · exact Or.inr ⟨_, rfl⟩

/-- What a call does: **nothing**, it **completes** the session of its source address,
which was waiting, or it **installs a responder** where no ready session was. -/
theorem receive_cases (N : Ops D) (m : NoiseManager α) (d : Received D) :
    (m.receive N d).1 = m ∨
    (∃ sid t, m.getSession d.srcVip = some sid ∧ (m.heap sid).isReady = false ∧
      m.receive N d = ((m.modify sid (·.complete t)).sendAllPendingData sid, .ok (none, none))) ∨
    (∃ t, m.NotReady d.srcVip ∧ m.receive N d =
      ((m.install d.srcVip (.responder d.srcVip t d.now)).sendAllPendingData m.next,
        .ok (some m.next, some (N.writeReply t)))) := by
  have hresponder : m.NotReady d.srcVip →
      m.receive N d = m.handleResponderFirst N d.srcVip d.data d.eph d.now →
      (m.receive N d).1 = m ∨ ∃ t, m.NotReady d.srcVip ∧ m.receive N d =
        ((m.install d.srcVip (.responder d.srcVip t d.now)).sendAllPendingData m.next,
          .ok (some m.next, some (N.writeReply t))) := by
    intro hnot heq
    rw [heq]
    rcases m.handleResponderFirst_inv N d.srcVip d.data d.eph d.now with hfail | ⟨t, hok⟩
    · exact Or.inl (by rw [hfail])
    · exact Or.inr ⟨t, hnot, hok⟩
  cases hent : m.getSession d.srcVip with
  | none =>
    have hcall : m.receive N d = m.handleResponderFirst N d.srcVip d.data d.eph d.now := by
      simp only [receive, handleNoisePacket, hent]
    have hnot : m.NotReady d.srcVip := fun sid hsid => by rw [hent] at hsid; cases hsid
    exact (hresponder hnot hcall).imp_right Or.inr
  | some sid =>
    by_cases hready : (m.heap sid).isReady = true
    · -- the datagram is ciphertext of the session, and the caller decrypts it
      have hcall : m.receive N d = (m, .ok (some sid, none)) := by
        simp only [receive, handleNoisePacket, hent, hready, if_true]
      exact Or.inl (by rw [hcall])
    · have hcall : m.receive N d = (m.lockedBody N sid d.srcVip d.data).getD
          (m.handleResponderFirst N d.srcVip d.data d.eph d.now) := by
        simp only [receive, handleNoisePacket, hent, hready, if_false, Bool.false_eq_true]
      cases hlocked : m.lockedBody N sid d.srcVip d.data with
      | none =>
        -- this side yields
        rw [hlocked, Option.getD_none] at hcall
        have hnot : m.NotReady d.srcVip := by
          intro sid' hsid'
          rw [hent] at hsid'
          cases hsid'
          exact Bool.eq_false_iff.mpr hready
        exact (hresponder hnot hcall).imp_right Or.inr
      | some r =>
        rw [hlocked, Option.getD_some] at hcall
        rw [hcall]
        rcases lockedBody_inv hlocked with hsame | ⟨hunready, t, hcomplete⟩
        · exact Or.inl hsame
        · exact Or.inr (Or.inl ⟨sid, t, rfl, hunready, hcomplete⟩)

/-! ## What a call leaves in place -/

/-- What a call for `key` leaves in place: the ready sessions, as they are and where they
are, the entries of other addresses, and every session but the one under `key`. -/
structure Undisturbed (m m' : NoiseManager α) (key : ByteArr 4) : Prop where
  next_le : m.next ≤ m'.next
  allocated : m'.Allocated
  entry : ∀ {k sid}, m.getSession k = some sid → (m.heap sid).isReady = true →
    m'.getSession k = some sid
  ready : ∀ {sid}, sid < m.next → (m.heap sid).isReady = true → m'.heap sid = m.heap sid
  other : ∀ {k}, k ≠ key → m'.getSession k = m.getSession k
  session : ∀ {sid}, sid < m.next → m.getSession key ≠ some sid → m'.heap sid = m.heap sid

namespace Undisturbed

theorem refl (hm : m.Allocated) (key : ByteArr 4) : Undisturbed m m key where
  next_le := Nat.le_refl _
  allocated := hm
  entry hsid _ := hsid
  ready _ _ := rfl
  other _ := rfl
  session _ _ := rfl

/-- The waiting session of the address completes. -/
theorem complete (hm : m.Allocated) {key : ByteArr 4} {sid : SessionId}
    (hent : m.getSession key = some sid) (hready : (m.heap sid).isReady = false)
    (t : Transcript) :
    Undisturbed m ((m.modify sid (·.complete t)).sendAllPendingData sid) key := by
  have hheap : ∀ {i}, i ≠ sid →
      ((m.modify sid (·.complete t)).sendAllPendingData sid).heap i = m.heap i := by
    intro i hi
    rw [heap_sendAllPendingData_of_ne _ hi, heap_modify_of_ne m hi]
  refine ⟨Nat.le_refl _, hm, fun hk _ => hk, fun {i} _ hi => hheap ?_, fun _ => rfl,
    fun {i} _ hi => hheap ?_⟩
  · rintro rfl
    rw [hready] at hi
    cases hi
  · rintro rfl
    exact hi hent

/-- A responder takes the place of an entry that is not ready. -/
theorem install (hm : m.Allocated) {key : ByteArr 4} (hnot : m.NotReady key)
    (s : NoiseSession α) :
    Undisturbed m ((m.install key s).sendAllPendingData m.next) key := by
  have hheap : ∀ {i}, i < m.next →
      ((m.install key s).sendAllPendingData m.next).heap i = m.heap i := by
    intro i hi
    rw [heap_sendAllPendingData_of_ne _ (Nat.ne_of_lt hi), heap_install_of_lt m key s hi]
  have hother : ∀ {k}, k ≠ key →
      ((m.install key s).sendAllPendingData m.next).getSession k = m.getSession k :=
    fun hk => AList.lookup_insert_ne hk
  have hself : ((m.install key s).sendAllPendingData m.next).getSession key = some m.next :=
    getSession_install m key s
  refine ⟨Nat.le_succ _, ?_, fun {k sid} hsid hready => ?_, fun hi _ => hheap hi, hother,
    fun hi _ => hheap hi⟩
  · intro k sid hsid
    by_cases hk : k = key
    · subst hk
      rw [hself] at hsid
      cases hsid
      exact Nat.lt_succ_self _
    · rw [hother hk] at hsid
      exact Nat.lt_succ_of_lt (hm hsid)
  · -- a ready entry is not the one that is replaced
    have hk : k ≠ key := by
      rintro rfl
      rw [hnot sid hsid] at hready
      cases hready
    rw [hother hk]
    exact hsid

end Undisturbed

/-- **What one call leaves in place.** -/
theorem undisturbed_receive (N : Ops D) (hm : m.Allocated) (d : Received D) :
    Undisturbed m (m.receive N d).1 d.srcVip := by
  rcases m.receive_cases N d with hsame | ⟨sid, t, hent, hready, hcall⟩ | ⟨t, hnot, hcall⟩
  · rw [hsame]
    exact .refl hm _
  · rw [hcall]
    exact .complete hm hent hready t
  · rw [hcall]
    exact .install hm hnot _

/-- A call that fails changes nothing. -/
theorem receive_error {e : NoiseError} (h : (m.receive N d).2 = .error e) :
    (m.receive N d).1 = m := by
  rcases m.receive_cases N d with hsame | ⟨sid, t, -, -, hcall⟩ | ⟨t, -, hcall⟩
  · exact hsame
  · rw [hcall] at h
    cases h
  · rw [hcall] at h
    cases h

/-! ## Sequences of calls -/

theorem receiveAll_append (N : Ops D) (m : NoiseManager α) (ds ds' : List (Received D)) :
    m.receiveAll N (ds ++ ds') = (m.receiveAll N ds).receiveAll N ds' :=
  List.foldl_append

theorem receiveAll_snoc (N : Ops D) (m : NoiseManager α) (ds : List (Received D))
    (d : Received D) : m.receiveAll N (ds ++ [d]) = ((m.receiveAll N ds).receive N d).1 :=
  receiveAll_append N m ds [d]

/-- What a sequence of calls leaves in place. -/
theorem ready_receiveAll (N : Ops D) (hm : m.Allocated) (ds : List (Received D)) :
    (m.receiveAll N ds).Allocated ∧ m.next ≤ (m.receiveAll N ds).next ∧
      (∀ {sid}, sid < m.next → (m.heap sid).isReady = true →
        (m.receiveAll N ds).heap sid = m.heap sid) ∧
      ∀ {key sid}, m.getSession key = some sid → (m.heap sid).isReady = true →
        (m.receiveAll N ds).getSession key = some sid := by
  -- by induction on the calls, the last one last: what it leaves in place is still ready
  induction ds using List.reverseRecOn with
  | nil => exact ⟨hm, Nat.le_refl _, fun _ _ => rfl, fun hsid _ => hsid⟩
  | append_singleton ds d ih =>
    obtain ⟨halloc, hle, hheap, hentry⟩ := ih
    have hstep := undisturbed_receive N halloc d
    rw [receiveAll_snoc]
    refine ⟨hstep.allocated, Nat.le_trans hle hstep.next_le, fun {sid} hlt hready => ?_,
      fun {key sid} hsid hready => ?_⟩
    · have hsame := hheap hlt hready
      rw [hstep.ready (Nat.lt_of_lt_of_le hlt hle) (by rw [hsame]; exact hready), hsame]
    · exact hstep.entry (hentry hsid hready) (by rw [hheap (hm hsid) hready]; exact hready)

/-- **Received datagrams cannot disturb established sessions.** For every manager whose
table points to sessions that exist, and every sequence of calls:

1. a ready session stays as it is, with its keys and counters, and under the addresses
   it is found by;
2. a call that fails leaves the manager as it is;
3. a call leaves the entry of every other address in place, and every session that is
   not the entry of its own address as it is. -/
theorem sessions_undisturbed (N : Ops D) (m : NoiseManager α) (hm : m.Allocated)
    (ds : List (Received D)) :
    (∀ sid, sid < m.next → (m.heap sid).isReady = true →
      (m.receiveAll N ds).heap sid = m.heap sid ∧
        ∀ key, m.getSession key = some sid → (m.receiveAll N ds).getSession key = some sid) ∧
    ∀ d, let m₁ := m.receiveAll N ds
      let m₂ := m.receiveAll N (ds ++ [d])
      (∀ e, (m₁.receive N d).2 = .error e → m₂ = m₁) ∧
        ∀ key, key ≠ d.srcVip → m₂.getSession key = m₁.getSession key ∧
          ∀ sid, m₁.getSession key = some sid → m₁.getSession d.srcVip ≠ some sid →
            m₂.heap sid = m₁.heap sid := by
  obtain ⟨halloc, -, hheap, hentry⟩ := ready_receiveAll N hm ds
  refine ⟨fun sid hlt hready => ⟨hheap hlt hready, fun key hsid => hentry hsid hready⟩, fun d => ?_⟩
  have hstep := undisturbed_receive N halloc d
  simp only [receiveAll_snoc]
  refine ⟨fun e herr => receive_error herr, fun key hkey => ⟨hstep.other hkey, ?_⟩⟩
  intro sid hsid hne
  exact hstep.session (halloc hsid) hne

/-! ### A forged first message -/

section Forged

/-- A first message for the client, from whoever holds this key. -/
def caseFirst (key : UInt8) : First := ⟨.ofBytes 32 [key], samplePub, 0⟩

/-- The client has a ready session with 10.0.6.3. -/
def caseTable : NoiseManager :=
  (NoiseManager.new samplePub (sampleIp 2)).install (sampleIp 3)
    (.responder (sampleIp 3) ⟨caseFirst 3, 1⟩ 0)

/-- A first message in the name of 10.0.6.3, and one of 10.0.6.4. -/
def caseDatagrams : List (Received Msg) :=
  [⟨sampleIp 3, .first (caseFirst 4), 2, 5⟩, ⟨sampleIp 4, .first (caseFirst 4), 3, 5⟩]

theorem caseTable_allocated : caseTable.Allocated :=
  ((Evolves.install _ rfl fun _ => rfl).sound (sound_new ..)).allocated

/-- The second one makes a session, the first one does not replace the one that is
there. -/
theorem sessions_undisturbed_forged :
    (caseTable.receiveAll ideal caseDatagrams).next = 2 ∧
      (caseTable.receiveAll ideal caseDatagrams).getSession (sampleIp 3) = some 0 ∧
      (caseTable.receiveAll ideal caseDatagrams).heap 0 = caseTable.heap 0 := by
  have hkept := (sessions_undisturbed ideal caseTable caseTable_allocated caseDatagrams).1 0
    (by decide) (by decide +kernel)
  exact ⟨by decide +kernel, hkept.2 (sampleIp 3) (by decide +kernel), hkept.1⟩

end Forged

end NoiseManager

end EasyTun.Protocol
