import EasyTun.Protocol.Pairing

/-!
# Setting up a session through the server

How two clients come to a session: a packet for a peer without a session makes
`packetSend` ask the server for the peer's key (`TypeNoiseHandshake`), the server
answers (`TypeNoiseResponse`), the answer makes `controlRecv` start a handshake
(`initiateNoise`), and `packetRecv` feeds what the peer sends to
`HandleNoisePacket`. Messages are delivered in any order, each exactly once; a
handler runs without interruption.

- `agreement_at_quiescence`: if `HandshakeInit` only runs where there is no
  session for the peer, then **once nothing is in flight both sides hold ready
  sessions with matching keys**.
- `no_agreement`: the code does not check that. Two packets that are offered
  before the first answer arrives make two answers, the second one replaces the
  session of the first, and the pair never recovers.
-/

namespace EasyTun.Transport

open EasyTun.Lib EasyTun.Protocol
open EasyTun.Lib.NoiseIK

/-! ## The model -/

/-- What travels between two clients and the server. -/
inductive Wire where
  /-- `TypeNoiseHandshake` from `src`, about the other client. -/
  | query (src : Side) (payload : Bytes)
  /-- `TypeNoiseResponse` to `dst`: the other client's key. -/
  | response (dst : Side) (pub : PublicKey) (payload : Bytes)
  /-- `TypeData` to `dst` from the other client. -/
  | data (dst : Side) (d : Msg)
  deriving DecidableEq

/-- A data packet that is no handshake message. -/
def Wire.isPlain : Wire → Bool
  | .data _ d => d.isOther
  | _ => false

/-- Both clients, what is in flight, the next ephemeral key, the clock, and how
often `HandshakeInit` ran. -/
structure Exchange where
  mgr : Side → NoiseManager
  flight : List Wire
  eph : Nat
  now : Int
  inits : Nat

namespace Exchange

/-- The steps: a packet for the peer is read from the TUN device, or a message
is delivered. `sealedLen` is the length of the packet's ciphertext. -/
inductive Act where
  | offer (x : Side) (p : Bytes) (sealedLen : Nat)
  | deliver (m : Wire)
  | tick (d : Nat)

/-- The sessions of a client change. -/
def setMgr (s : Exchange) (x : Side) (m : NoiseManager) : Exchange :=
  { s with mgr := Function.update s.mgr x m }

/-- A message is on its way. -/
def push (s : Exchange) (m : Wire) : Exchange := { s with flight := s.flight ++ [m] }

variable (P : Peers)

/-- `packetSend` on one packet whose destination is the peer
(client_udp.go:29–41, 66–83). -/
def packetSend (s : Exchange) (x : Side) (p : Bytes) (sealedLen : Nat) : Exchange :=
  if p.length < 20 then s
  else match (s.mgr x).getSession (P.vip x.other) with
    | none => s.push (.query x p)
    | some sid =>
      if ((s.mgr x).heap sid).isReady then
        (s.setMgr x ((s.mgr x).modify sid fun n => (n.updateLastSeen s.now).drawNonce)).push
          (.data x.other (.other sealedLen))
      else s.setMgr x ((s.mgr x).modify sid (·.addPendingData p))

/-- `handleNoiseHandshake` of the server (server_ws.go:184–202). -/
def serverReply (s : Exchange) (src : Side) (payload : Bytes) : Exchange :=
  s.push (.response src (P.static src.other) payload)

/-- `initiateNoise` (client_udp.go:228–239), from `controlRecv`. -/
def initiateNoise (s : Exchange) (dst : Side) (pub : PublicKey) (payload : Bytes) : Exchange :=
  let r := (s.mgr dst).handshakeInit ideal (P.vip dst.other) pub payload s.eph s.now
  { (s.setMgr dst r.2).push (.data dst.other r.1) with eph := s.eph + 1, inits := s.inits + 1 }

/-- The `TypeData` branch of `packetRecv`, as far as the session manager is
concerned (client_udp.go:146–161). -/
def recvData (s : Exchange) (dst : Side) (d : Msg) : Exchange :=
  let r := (s.mgr dst).handleNoisePacket ideal (P.vip dst.other) d s.eph s.now
  match responseOf r.2 with
  | some response =>
    { (s.setMgr dst r.1).push (.data dst.other response) with eph := s.eph + 1 }
  | none => s.setMgr dst r.1

/-- What a message does when it arrives. -/
def handle (s : Exchange) : Wire → Exchange
  | .query src payload => s.serverReply P src payload
  | .response dst pub payload => s.initiateNoise P dst pub payload
  | .data dst d => s.recvData P dst d

/-- A packet of the user, the delivery of a message, or the clock. -/
def step (s : Exchange) : Act → Option Exchange
  | .offer x p sealedLen => some (s.packetSend P x p sealedLen)
  | .deliver m =>
    guardTo (m ∈ s.flight) (({ s with flight := s.flight.erase m } : Exchange).handle P m)
  | .tick d => some { s with now := s.now + d }

/-- Nobody has a session, and nothing is on its way. -/
def start : Exchange :=
  { mgr := fun x => .new (P.static x) (P.vip x), flight := [], eph := 0, now := 0, inits := 0 }

/-- The exchange from its start. -/
def machine : Machine Exchange Act := { init := start P, step := step P }

/-- No query, response or handshake message is in flight. -/
def Quiescent (s : Exchange) : Prop := ∀ m ∈ s.flight, m.isPlain = true

instance (s : Exchange) : Decidable s.Quiescent := inferInstanceAs (Decidable (∀ _ ∈ _, _))

/-- Both sides hold a ready session for each other, and the keys match. -/
def Agreed (s : Exchange) : Prop :=
  ∃ sa ∈ (s.mgr .a).getSession (P.vip .b), ∃ sb ∈ (s.mgr .b).getSession (P.vip .a),
    ((s.mgr .a).heap sa).isReady = true ∧ ((s.mgr .b).heap sb).isReady = true ∧
    ((s.mgr .a).heap sa).KeysMatch ((s.mgr .b).heap sb)

instance (s : Exchange) : Decidable (s.Agreed P) := inferInstanceAs (Decidable (∃ _ ∈ _, _))

/-- `HandshakeInit` runs only where there is no session for the peer. -/
def InitOk (s : Exchange) : Act → Prop
  | .deliver (.response dst _ _) => (s.mgr dst).getSession (P.vip dst.other) = none
  | _ => True

instance (s : Exchange) : (a : Act) → Decidable (InitOk P s a)
  | .deliver (.response dst _ _) =>
    inferInstanceAs (Decidable ((s.mgr dst).getSession (P.vip dst.other) = none))
  | .deliver (.query _ _) | .deliver (.data _ _) | .offer _ _ _ | .tick _ =>
    inferInstanceAs (Decidable True)

/-! ## The phases of a set-up -/

/-- Every handshake message on its way to `x` passes `Q`. -/
def Only (flight : List Wire) (x : Side) (Q : Msg → Prop) : Prop :=
  ∀ d, Wire.data x d ∈ flight → d.isOther = false → Q d

/-- How far the pair has come: the current sessions of both sides, what must
still be in flight and what else may be. -/
inductive Phase (v : Side → Option View) (flight : List Wire) (inits : Nat) : Prop where
  /-- Nobody has started. -/
  | start (hv : ∀ x, v x = none) (honly : ∀ x, Only flight x fun _ => False)
      (hinits : inits = 0)
  /-- `x` has started, and its first message is on its way. -/
  | waiting (x : Side) (f : First) (hx : v x = some (.unready f)) (hy : v x.other = none)
      (hf : f.responder = P.static x.other) (hmem : Wire.data x.other (.first f) ∈ flight)
      (honly : Only flight x.other (· = .first f)) (hnone : Only flight x fun _ => False)
  /-- Both have started. The smaller address `x` will be answered. -/
  | crossed (x : Side) (f g : First) (hlt : (P.vip x).1 < (P.vip x.other).1)
      (hx : v x = some (.unready f)) (hy : v x.other = some (.unready g))
      (hf : f.responder = P.static x.other) (hmem : Wire.data x.other (.first f) ∈ flight)
      (honly : Only flight x.other (· = .first f))
      (hfirst : Only flight x fun d => ∃ h, d = .first h)
  /-- `x` has been answered, and the reply is on its way. -/
  | answered (x : Side) (t : Transcript) (hx : v x = some (.unready t.first))
      (hy : v x.other = some (.responder t)) (hmem : Wire.data x (.reply t) ∈ flight)
      (honly : Only flight x fun d =>
        d = .reply t ∨ (P.vip x).1 < (P.vip x.other).1 ∧ ∃ h, d = .first h)
  /-- Both are ready, and nothing that is in flight can change it. -/
  | done (x : Side) (t : Transcript) (hx : v x = some (.initiator t))
      (hy : v x.other = some (.responder t))

variable {P}

theorem Only.mono {flight flight' : List Wire} {x : Side} {Q Q' : Msg → Prop}
    (h : Only flight x Q)
    (hsub : ∀ d, Wire.data x d ∈ flight' → d.isOther = false → Wire.data x d ∈ flight)
    (himp : ∀ d, Q d → Q' d) : Only flight' x Q' :=
  fun d hd ho => himp d (h d (hsub d hd ho) ho)

/-- Only the handshake messages in flight matter. -/
theorem Phase.congr {v v' : Side → Option View} {flight flight' : List Wire} {inits : Nat}
    (h : Phase P v flight inits) (hv : ∀ x, v' x = v x)
    (hf : ∀ x d, d.isOther = false → (Wire.data x d ∈ flight' ↔ Wire.data x d ∈ flight)) :
    Phase P v' flight' inits := by
  have hsub : ∀ x d, Wire.data x d ∈ flight' → d.isOther = false → Wire.data x d ∈ flight :=
    fun x d hd ho => (hf x d ho).mp hd
  cases h with
  | start h0 honly hinits =>
    exact .start (fun x => (hv x).trans (h0 x)) (fun x => (honly x).mono (hsub x) fun _ => id)
      hinits
  | waiting x f hx hy hf' hmem honly hnone =>
    exact .waiting x f ((hv x).trans hx) ((hv _).trans hy) hf' ((hf _ _ rfl).mpr hmem)
      (honly.mono (hsub _) fun _ => id) (hnone.mono (hsub x) fun _ => id)
  | crossed x f g hlt hx hy hf' hmem honly hfirst =>
    exact .crossed x f g hlt ((hv x).trans hx) ((hv _).trans hy) hf' ((hf _ _ rfl).mpr hmem)
      (honly.mono (hsub _) fun _ => id) (hfirst.mono (hsub x) fun _ => id)
  | answered x t hx hy hmem honly =>
    exact .answered x t ((hv x).trans hx) ((hv _).trans hy) ((hf _ _ rfl).mpr hmem)
      (honly.mono (hsub x) fun _ => id)
  | done x t hx hy => exact .done x t ((hv x).trans hx) ((hv _).trans hy)

/-! ### How the phases follow each other -/

section Moves

variable {v : Side → Option View} {flight : List Wire} {inits eph : Nat} {dst : Side}

/-- After one side has changed: its own view. -/
theorem update_self_view (o : Option View) : Function.update v dst o dst = o :=
  Function.update_self ..

theorem update_other_view (o : Option View) : Function.update v dst o dst.other = v dst.other :=
  Function.update_of_ne (Side.other_ne dst) ..

theorem only_erase {x : Side} {Q : Msg → Prop} (h : Only flight x Q) (m : Wire) :
    Only (flight.erase m) x Q :=
  h.mono (fun _ hd _ => List.mem_of_mem_erase hd) fun _ => id

theorem only_push {x y : Side} {Q : Msg → Prop} {d : Msg} (h : Only flight x Q)
    (hnew : y = x → Q d) : Only (flight ++ [.data y d]) x Q := by
  intro e he ho
  rcases List.mem_append.mp he with hold | hlast
  · exact h e hold ho
  · cases List.mem_singleton.mp hlast
    exact hnew rfl

theorem view_ne_none {x : Side} {u u' : View} (hx : v x = some u) (hy : v x.other = some u') :
    v dst ≠ none := by
  rcases x.eq_or_eq_other dst with rfl | rfl
  · rw [hx]
    exact Option.some_ne_none _
  · rw [hy]
    exact Option.some_ne_none _

/-- `HandshakeInit` where there is no session starts a set-up or crosses one. -/
theorem phase_init (h : Phase P v flight inits) (hnone : v dst = none) {f : First}
    (hf : f.responder = P.static dst.other) :
    Phase P (Function.update v dst (some (.unready f)))
      (flight ++ [.data dst.other (.first f)]) (inits + 1) := by
  have hmem : Wire.data dst.other (.first f) ∈ flight ++ [.data dst.other (.first f)] :=
    List.mem_append_right _ (List.mem_singleton.mpr rfl)
  cases h with
  | start h0 honly _ =>
    refine .waiting dst f (update_self_view _) ((update_other_view _).trans (h0 _)) hf hmem ?_ ?_
    · exact only_push ((honly _).mono (fun _ hd _ => hd) fun _ hF => hF.elim) fun _ => rfl
    · exact only_push (honly _) fun heq => absurd heq (Side.other_ne dst)
  | waiting x g hx hy hg hmemg honly hnonex =>
    rcases x.eq_or_eq_other dst with rfl | rfl
    · rw [hx] at hnone
      cases hnone
    · -- both have started: the smaller address goes on
      rw [Side.other_other] at hf hmem ⊢
      have hvx : Function.update v x.other (some (.unready f)) x = some (.unready g) := by
        rw [← hx]
        exact Function.update_of_ne (Side.ne_other x) ..
      by_cases hlt : (P.vip x).1 < (P.vip x.other).1
      · refine .crossed x g f hlt hvx (update_self_view _) hg
          (List.mem_append_left _ hmemg) ?_ ?_
        · exact only_push honly fun heq => absurd heq (Side.ne_other x)
        · exact only_push (hnonex.mono (fun _ hd _ => hd) fun _ hF => hF.elim) fun _ => ⟨f, rfl⟩
      · have hne : (P.vip x.other).1 ≠ (P.vip x).1 := by
          intro heq
          have hv := Subtype.ext heq
          cases x with
          | a => exact P.vip_ne hv.symm
          | b => exact P.vip_ne hv
        have hlt' : (P.vip x.other).1 < (P.vip x.other.other).1 := by
          rw [Side.other_other]
          exact Std.lt_of_le_of_ne (List.not_lt.mp hlt) hne
        refine .crossed x.other f g hlt' (update_self_view _) ?_ ?_ ?_ ?_ ?_
        · rw [Side.other_other]
          exact hvx
        · rw [Side.other_other]
          exact hf
        · rw [Side.other_other]
          exact hmem
        · rw [Side.other_other]
          exact only_push (hnonex.mono (fun _ hd _ => hd) fun _ hF => hF.elim) fun _ => rfl
        · exact only_push (honly.mono (fun _ hd _ => hd) fun _ he => ⟨g, he⟩)
            fun heq => absurd heq (Side.ne_other x)
  | crossed x g g' _ hx hy => exact absurd hnone (view_ne_none hx hy)
  | answered x t hx hy => exact absurd hnone (view_ne_none hx hy)
  | done x t hx hy => exact absurd hnone (view_ne_none hx hy)

/-- The side answers this message. -/
def AnswersIn (P : Peers) (v : Side → Option View) (dst : Side) (d : Msg) : Prop :=
  ∃ f, d = .first f ∧ f.responder = P.static dst ∧
    (v dst = none ∨ ∃ g, v dst = some (.unready g) ∧ (P.vip dst.other).1 < (P.vip dst).1)

/-- The side completes its session with this message. -/
def CompletesIn (v : Side → Option View) (dst : Side) (d : Msg) : Prop :=
  ∃ t, d = .reply t ∧ v dst = some (.unready t.first)

/-- A side with a ready session does not answer. -/
theorem AnswersIn.not_ready {d : Msg} (hans : AnswersIn P v dst d) {u : View}
    (hv : v dst = some u) : u.isReady = false := by
  obtain ⟨_, -, -, hno | ⟨g, hun, -⟩⟩ := hans
  · rw [hv] at hno
    cases hno
  · rw [hv] at hun
    cases hun
    rfl

/-- A side with a session that answers has the larger address. -/
theorem AnswersIn.vip_lt {d : Msg} (hans : AnswersIn P v dst d) {u : View}
    (hv : v dst = some u) : (P.vip dst.other).1 < (P.vip dst).1 := by
  obtain ⟨_, -, -, hno | ⟨_, -, hlt⟩⟩ := hans
  · rw [hv] at hno
    cases hno
  · exact hlt

/-- A side that answers was asked by the one that goes on. -/
theorem phase_answer (h : Phase P v flight inits) {f : First}
    (hmem : Wire.data dst (.first f) ∈ flight) (hans : AnswersIn P v dst (.first f)) :
    Phase P (Function.update v dst (some (.responder ⟨f, eph⟩)))
      (flight.erase (.data dst (.first f)) ++ [.data dst.other (.reply ⟨f, eph⟩)]) inits := by
  -- the reply is the only new message
  have hnew : ∀ x, dst = x.other → Wire.data x (.reply ⟨f, eph⟩) ∈
      flight.erase (.data dst (.first f)) ++ [.data dst.other (.reply ⟨f, eph⟩)] := by
    rintro x rfl
    rw [Side.other_other]
    exact List.mem_append_right _ (List.mem_singleton.mpr rfl)
  have hview : ∀ x o, dst = x.other → v x = o →
      Function.update v dst (some (.responder ⟨f, eph⟩)) x = o := by
    rintro x o rfl hx
    rw [← hx]
    exact Function.update_of_ne (Side.ne_other x) ..
  cases h with
  | start _ honly _ => exact (honly dst _ hmem rfl).elim
  | waiting x g hx _ _ _ honly hnone =>
    rcases x.eq_or_eq_other dst with rfl | rfl
    · exact (hnone _ hmem rfl).elim
    · cases honly _ hmem rfl
      refine .answered x ⟨f, eph⟩ (hview x _ rfl hx) (update_self_view _) (hnew x rfl) ?_
      refine only_push ?_ fun _ => Or.inl rfl
      exact (only_erase hnone _).mono (fun _ hd _ => hd) fun _ hF => hF.elim
  | crossed x g g' hlt hx hy _ _ honly hfirst =>
    rcases x.eq_or_eq_other dst with rfl | rfl
    · exact absurd (hans.vip_lt hx) (List.lt_asymm hlt)
    · cases honly _ hmem rfl
      refine .answered x ⟨f, eph⟩ (hview x _ rfl hx) (update_self_view _) (hnew x rfl) ?_
      refine only_push ?_ fun _ => Or.inl rfl
      exact (only_erase hfirst _).mono (fun _ hd _ => hd) fun _ he => Or.inr ⟨hlt, he⟩
  | answered x t hx hy _ honly =>
    rcases x.eq_or_eq_other dst with rfl | rfl
    · rcases honly _ hmem rfl with heq | ⟨hlt, -⟩
      · cases heq
      · exact absurd (hans.vip_lt hx) (List.lt_asymm hlt)
    · cases hans.not_ready hy
  | done x t hx hy =>
    rcases x.eq_or_eq_other dst with rfl | rfl
    · cases hans.not_ready hx
    · cases hans.not_ready hy

/-- A side that completes was the one that goes on. -/
theorem phase_complete (h : Phase P v flight inits) {t : Transcript}
    (hmem : Wire.data dst (.reply t) ∈ flight) (hun : v dst = some (.unready t.first)) :
    Phase P (Function.update v dst (some (.initiator t)))
      (flight.erase (.data dst (.reply t))) inits := by
  cases h with
  | start _ honly _ => exact (honly dst _ hmem rfl).elim
  | waiting x g _ _ _ _ honly hnone =>
    rcases x.eq_or_eq_other dst with rfl | rfl
    · exact (hnone _ hmem rfl).elim
    · cases honly _ hmem rfl
  | crossed x g g' _ _ _ _ _ honly hfirst =>
    rcases x.eq_or_eq_other dst with rfl | rfl
    · obtain ⟨_, heq⟩ := hfirst _ hmem rfl
      cases heq
    · cases honly _ hmem rfl
  | answered x t' hx hy _ honly =>
    rcases x.eq_or_eq_other dst with rfl | rfl
    · rcases honly _ hmem rfl with heq | ⟨-, _, heq⟩
      · cases heq
        exact .done dst t (update_self_view _) ((update_other_view _).trans hy)
      · cases heq
    · rw [hy] at hun
      cases hun
  | done x t' hx hy =>
    rcases x.eq_or_eq_other dst with rfl | rfl
    · rw [hx] at hun
      cases hun
    · rw [hy] at hun
      cases hun

/-- What is neither answered nor completes anything was not the message the
phase waits for. -/
theorem phase_ignore (h : Phase P v flight inits) {d : Msg} (hmem : Wire.data dst d ∈ flight)
    (ho : d.isOther = false) (hans : ¬ AnswersIn P v dst d) (hcom : ¬ CompletesIn v dst d) :
    Phase P v (flight.erase (.data dst d)) inits := by
  cases h with
  | start _ honly _ => exact (honly dst _ hmem ho).elim
  | waiting x g hx hy hg _ honly hnone =>
    rcases x.eq_or_eq_other dst with rfl | rfl
    · exact (hnone _ hmem ho).elim
    · cases honly _ hmem ho
      exact absurd ⟨g, rfl, hg, Or.inl hy⟩ hans
  | crossed x g g' hlt hx hy hg hmemg honly hfirst =>
    rcases x.eq_or_eq_other dst with rfl | rfl
    · refine .crossed dst g g' hlt hx hy hg ?_ (only_erase honly _) (only_erase hfirst _)
      refine (List.mem_erase_of_ne fun heq => ?_).mpr hmemg
      exact absurd (Wire.data.inj heq).1 (Side.other_ne dst)
    · cases honly _ hmem ho
      refine absurd ⟨g, rfl, hg, Or.inr ⟨g', hy, ?_⟩⟩ hans
      rw [Side.other_other]
      exact hlt
  | answered x t hx hy hmemt honly =>
    rcases x.eq_or_eq_other dst with rfl | rfl
    · refine .answered dst t hx hy ?_ (only_erase honly _)
      refine (List.mem_erase_of_ne fun heq => ?_).mpr hmemt
      cases heq
      exact hcom ⟨t, rfl, hx⟩
    · refine .answered x t hx hy ?_ (only_erase honly _)
      refine (List.mem_erase_of_ne fun heq => ?_).mpr hmemt
      exact absurd (Wire.data.inj heq).1 (Side.ne_other x)
  | done x t hx hy => exact .done x t hx hy

end Moves

/-- The invariant: the managers are parties in one of the phases, and the server
has told the truth. -/
structure Inv (P : Peers) (s : Exchange) (p : Side → Party) : Prop where
  mgr : ∀ x, Represents (s.mgr x) (P.vip x.other) (p x)
  vip : ∀ x, (p x).vip = P.vip x
  static : ∀ x, (p x).static = P.static x
  keys : ∀ dst pub payload, Wire.response dst pub payload ∈ s.flight → pub = P.static dst.other
  phase : Phase P (fun x => (p x).view) s.flight s.inits

namespace Inv

variable {s : Exchange} {p : Side → Party}

/-- One side changes. -/
theorem setMgr (h : Inv P s p) {x : Side} {m : NoiseManager} {q : Party}
    (hm : Represents m (P.vip x.other) q) (hvip : q.vip = (p x).vip)
    (hstatic : q.static = (p x).static) {s' : Exchange} (hs' : s'.mgr = Function.update s.mgr x m)
    (hkeys : ∀ dst pub payload, Wire.response dst pub payload ∈ s'.flight →
      Wire.response dst pub payload ∈ s.flight)
    (hphase : Phase P (Function.update (fun x => (p x).view) x q.view) s'.flight s'.inits) :
    Inv P s' (Function.update p x q) where
  mgr := by
    intro z
    rw [hs']
    by_cases hz : z = x
    · subst hz
      rw [Function.update_self, Function.update_self]
      exact hm
    · rw [Function.update_of_ne hz, Function.update_of_ne hz]
      exact h.mgr z
  vip := by
    intro z
    by_cases hz : z = x
    · subst hz
      rw [Function.update_self, hvip]
      exact h.vip z
    · rw [Function.update_of_ne hz]
      exact h.vip z
  static := by
    intro z
    by_cases hz : z = x
    · subst hz
      rw [Function.update_self, hstatic]
      exact h.static z
    · rw [Function.update_of_ne hz]
      exact h.static z
  keys := fun dst pub payload hmem => h.keys dst pub payload (hkeys dst pub payload hmem)
  phase := by
    refine hphase.congr (fun z => ?_) fun _ _ _ => Iff.rfl
    by_cases hz : z = x
    · subst hz
      rw [Function.update_self, Function.update_self]
    · rw [Function.update_of_ne hz, Function.update_of_ne hz]

/-- A change that neither the parties nor the handshake messages show. -/
theorem same (h : Inv P s p) {s' : Exchange}
    (hm : ∀ x, Represents (s'.mgr x) (P.vip x.other) (p x))
    (hkeys : ∀ dst pub payload, Wire.response dst pub payload ∈ s'.flight →
      pub = P.static dst.other)
    (hf : ∀ x d, d.isOther = false → (Wire.data x d ∈ s'.flight ↔ Wire.data x d ∈ s.flight))
    (hinits : s'.inits = s.inits) : Inv P s' p :=
  ⟨hm, h.vip, h.static, hkeys, hinits ▸ h.phase.congr (fun _ => rfl) hf⟩

theorem represents_update (h : Inv P s p) {x : Side} {m : NoiseManager}
    (hm : Represents m (P.vip x.other) (p x)) (z : Side) :
    Represents (Function.update s.mgr x m z) (P.vip z.other) (p z) := by
  by_cases hz : z = x
  · subst hz
    rw [Function.update_self]
    exact hm
  · rw [Function.update_of_ne hz]
    exact h.mgr z

/-- A truthful response or a data packet enters the network. -/
theorem push (h : Inv P s p) {s' : Exchange} {m : Wire}
    (hm : ∀ x, Represents (s'.mgr x) (P.vip x.other) (p x)) (hflight : s'.flight = s.flight ++ [m])
    (hresp : ∀ dst pub payload, m = .response dst pub payload → pub = P.static dst.other)
    (hdata : ∀ x d, m = .data x d → d.isOther = true) (hinits : s'.inits = s.inits) :
    Inv P s' p := by
  refine h.same hm ?_ ?_ hinits
  · intro dst pub payload hmem
    rw [hflight] at hmem
    rcases List.mem_append.mp hmem with hold | hnew
    · exact h.keys dst pub payload hold
    · exact hresp dst pub payload (List.mem_singleton.mp hnew).symm
  · intro x d ho
    rw [hflight]
    refine ⟨fun hmem => ?_, List.mem_append_left _⟩
    rcases List.mem_append.mp hmem with hold | hnew
    · exact hold
    · rw [hdata x d (List.mem_singleton.mp hnew).symm] at ho
      cases ho

/-- A message that is no handshake message leaves the network. -/
theorem take (h : Inv P s p) {m : Wire} (hdata : ∀ x d, m = .data x d → d.isOther = true) :
    Inv P { s with flight := s.flight.erase m } p := by
  refine h.same h.mgr (fun dst pub payload hmem => h.keys dst pub payload
    (List.mem_of_mem_erase hmem)) ?_ rfl
  intro x d ho
  refine List.mem_erase_of_ne fun heq => ?_
  rw [hdata x d heq.symm] at ho
  cases ho

theorem offer (h : Inv P s p) (x : Side) (payload : Bytes) (sealedLen : Nat) :
    Inv P (s.packetSend P x payload sealedLen) p := by
  unfold packetSend
  split
  · exact h
  · split
    · exact h.push h.mgr rfl (fun _ _ _ heq => nomatch heq) (fun _ _ heq => nomatch heq) rfl
    · split
      · refine h.push (h.represents_update ?_) rfl (fun _ _ _ heq => nomatch heq) ?_ rfl
        · exact (h.mgr x).modify _ fun _ _ hm =>
            NoiseSession.drawNonce_matches (hm.congr rfl rfl rfl)
        · intro z d heq
          cases heq
          rfl
      · refine h.same (h.represents_update ?_) h.keys (fun _ _ _ => Iff.rfl) rfl
        exact (h.mgr x).modify _ fun _ _ hm => NoiseSession.addPendingData_matches hm payload

theorem deliver_query (h : Inv P s p) (src : Side) (payload : Bytes) :
    Inv P (({ s with flight := s.flight.erase (.query src payload) } : Exchange).handle P
      (.query src payload)) p := by
  have htake := h.take (m := .query src payload) fun _ _ heq => nomatch heq
  refine htake.push htake.mgr rfl ?_ (fun _ _ heq => nomatch heq) rfl
  intro dst pub pl heq
  cases heq
  rfl

/-- `HandshakeInit`, where there is no session. -/
theorem deliver_response (h : Inv P s p) {dst : Side} {pub : PublicKey} {payload : Bytes}
    (hmem : Wire.response dst pub payload ∈ s.flight)
    (hok : InitOk P s (.deliver (.response dst pub payload))) :
    ∃ p', Inv P (({ s with flight := s.flight.erase (.response dst pub payload) } :
      Exchange).handle P (.response dst pub payload)) p' := by
  have htake := h.take (m := .response dst pub payload) fun _ _ heq => nomatch heq
  have hview : (p dst).view = none := by
    have hcur := (h.mgr dst).cur
    rw [show _ = none from hok] at hcur
    rw [Party.view, ← hcur]
    rfl
  obtain ⟨hmsg, hm⟩ := handshakeInit_represents (h.mgr dst) pub payload s.eph s.now
  refine ⟨_, htake.setMgr hm rfl rfl rfl ?_ ?_⟩
  · intro dst' pub' payload' hmem'
    rcases List.mem_append.mp hmem' with hold | hnew
    · exact hold
    · cases List.mem_singleton.mp hnew
  · rw [Party.view_install]
    show Phase P _ (s.flight.erase (.response dst pub payload) ++ [.data dst.other
      ((s.mgr dst).handshakeInit ideal (P.vip dst.other) pub payload s.eph s.now).1]) (s.inits + 1)
    rw [hmsg]
    exact phase_init htake.phase hview (h.keys dst pub payload hmem)

/-- `HandleNoisePacket` on a data packet or a handshake message. -/
theorem deliver_data (h : Inv P s p) {dst : Side} {d : Msg}
    (hmem : Wire.data dst d ∈ s.flight) :
    ∃ p', Inv P (({ s with flight := s.flight.erase (.data dst d) } : Exchange).handle P
      (.data dst d)) p' := by
  have hkeys : ∀ dst' pub payload, Wire.response dst' pub payload ∈ s.flight.erase (.data dst d) →
      Wire.response dst' pub payload ∈ s.flight := fun _ _ _ => List.mem_of_mem_erase
  show ∃ p', Inv P (recvData P _ dst d) p'
  unfold recvData
  rcases handleNoisePacket_cases (h.mgr dst) d s.eph s.now with
    ⟨f, rfl, ⟨f', hf', hstatic, hans⟩, hresp, hm⟩ | ⟨i, t, rfl, hcur, hobj, hresp, hm⟩ |
      ⟨hans, hcom, hresp, hm⟩
  · simp only [hresp]
    refine ⟨_, h.setMgr hm rfl rfl rfl ?_ ?_⟩
    · intro dst' pub payload hmem'
      rcases List.mem_append.mp hmem' with hold | hnew
      · exact hkeys dst' pub payload hold
      · cases List.mem_singleton.mp hnew
    · rw [Party.view_install]
      refine phase_answer h.phase hmem ⟨f', hf', hstatic.trans (h.static dst), ?_⟩
      rw [h.vip dst] at hans
      exact hans
  · simp only [hresp]
    refine ⟨_, h.setMgr hm rfl rfl rfl hkeys ?_⟩
    rw [Party.view_complete_cur hcur]
    refine phase_complete h.phase hmem ?_
    show (p dst).view = _
    rw [Party.view, hcur, Option.map_some, hobj]
  · simp only [hresp]
    refine ⟨p, ?_⟩
    cases ho : d.isOther with
    | true =>
      have htake := h.take (m := .data dst d) fun x d' heq => by
        cases heq
        exact ho
      exact htake.same (htake.represents_update hm) htake.keys (fun _ _ _ => Iff.rfl) rfl
    | false =>
      refine ⟨h.represents_update hm, h.vip, h.static,
        fun dst' pub payload hmem' => h.keys dst' pub payload (hkeys dst' pub payload hmem'), ?_⟩
      refine phase_ignore h.phase hmem ho ?_ hcom
      rintro ⟨f, hf, hstatic, hview⟩
      refine hans ⟨f, hf, hstatic.trans (h.static dst).symm, ?_⟩
      rw [h.vip dst]
      exact hview

end Inv

theorem inv_step {s s' : Exchange} {a : Act} (h : ∃ p, Inv P s p) (hok : InitOk P s a)
    (hs : step P s a = some s') : ∃ p, Inv P s' p := by
  obtain ⟨p, h⟩ := h
  cases a with
  | offer x payload sealedLen =>
    cases hs
    exact ⟨p, h.offer x payload sealedLen⟩
  | deliver m =>
    obtain ⟨hmem, rfl⟩ := guardTo_eq_some.mp hs
    cases m with
    | query src payload => exact ⟨p, h.deliver_query src payload⟩
    | response dst pub payload => exact h.deliver_response hmem hok
    | data dst d => exact h.deliver_data hmem
  | tick d =>
    cases hs
    exact ⟨p, h.mgr, h.vip, h.static, h.keys, h.phase⟩

theorem inv_start (P : Peers) : Inv P (start P) fun x => .new (P.static x) (P.vip x) where
  mgr := fun _ => .new ..
  vip := fun _ => rfl
  static := fun _ => rfl
  keys := fun _ _ _ h => nomatch h
  phase := .start (fun _ => rfl) (fun _ _ h => nomatch h) rfl

/-! ## Agreement -/

/-- Nothing the phases wait for is in flight, so only the last one is left. -/
theorem Phase.of_quiescent {s : Exchange} {v : Side → Option View}
    (h : Phase P v s.flight s.inits) (hq : s.Quiescent) (hinits : 0 < s.inits) :
    ∃ x t, v x = some (.initiator t) ∧ v x.other = some (.responder t) := by
  cases h with
  | start _ _ h0 =>
    rw [h0] at hinits
    cases hinits
  | waiting x f _ _ _ hmem => exact nomatch hq _ hmem
  | crossed x f g _ _ _ _ hmem => exact nomatch hq _ hmem
  | answered x t _ _ hmem => exact nomatch hq _ hmem
  | done x t hx hy => exact ⟨x, t, hx, hy⟩

/-- The session a party's current view stands for. -/
theorem exists_session {m : NoiseManager} {key : ByteArr 4} {q : Party} {u : View}
    (h : Represents m key q) (hu : q.view = some u) :
    ∃ sid, m.getSession key = some sid ∧ (m.heap sid).Matches u := by
  cases hcur : q.cur with
  | none =>
    rw [Party.view, hcur] at hu
    cases hu
  | some sid =>
    rw [Party.view, hcur] at hu
    have hobj := h.obj sid (h.cur_lt sid hcur)
    rw [Option.some.inj hu] at hobj
    exact ⟨sid, h.cur.trans hcur, hobj⟩

/-- **Agreement at quiescence**, in every run in which `HandshakeInit` only runs
where there is no session for the peer. -/
theorem agreement_at_quiescence (P : Peers) (s : Exchange)
    (h : (machine P).ReachVia (InitOk P) s) (hq : s.Quiescent) (hinits : 0 < s.inits) :
    s.Agreed P := by
  obtain ⟨p, hinv⟩ : ∃ p, Inv P s p :=
    h.invariant ⟨_, inv_start P⟩ fun _ hp hok hs => inv_step hp hok hs
  obtain ⟨x, t, hx, hy⟩ := hinv.phase.of_quiescent hq hinits
  obtain ⟨sx, hsx, hmx⟩ := exists_session (hinv.mgr x) hx
  obtain ⟨sy, hsy, hmy⟩ := exists_session (hinv.mgr x.other) hy
  obtain ⟨hkeys, hkeys'⟩ := hmx.keysMatch hmy
  cases x with
  | a => exact ⟨sx, hsx, sy, hsy, hmx.ready, hmy.ready, hkeys⟩
  | b => exact ⟨sy, hsy, sx, hsx, hmy.ready, hmx.ready, hkeys'⟩

/-- A packet of 20 equal bytes. -/
def packet (b : UInt8) : Bytes := List.replicate 20 b

/-- Both sides start at the same time, and agree. -/
theorem agreement_at_quiescence_crossed :
    ∃ s, (machine .sample).ReachVia (InitOk .sample) s ∧ s.Quiescent ∧ 0 < s.inits ∧
      s.Agreed .sample := by
  obtain ⟨s, hreach, hq, hinits⟩ : ∃ s, (machine .sample).ReachVia (InitOk .sample) s ∧
      s.Quiescent ∧ 0 < s.inits := by
    refine Machine.exists_reachVia
      [.offer .a (packet 1) 36, .offer .b (packet 2) 36, .deliver (.query .a (packet 1)),
        .deliver (.query .b (packet 2)),
        .deliver (.response .a (Peers.sample.static .b) (packet 1)),
        .deliver (.response .b (Peers.sample.static .a) (packet 2)),
        .deliver (.data .a (.first ⟨Peers.sample.static .b, Peers.sample.static .a, 1⟩)),
        .deliver (.data .b (.first (Peers.sampleFirst 0))),
        .deliver (.data .a (.reply ⟨Peers.sampleFirst 0, 2⟩))] ?_
    decide +kernel
  exact ⟨s, hreach, hq, hinits, agreement_at_quiescence .sample s hreach hq hinits⟩

/-- The pair need not agree: two packets offered before the first answer make two
initiator sessions, and the reply to the first message finds the second one. -/
theorem no_agreement :
    ¬ ∀ (P : Peers) (s : Exchange), (machine P).Reach s → s.Quiescent → 0 < s.inits →
      s.Agreed P := by
  intro h
  obtain ⟨s, hreach, hq, hinits, hno⟩ : ∃ s, (machine .sample).Reach s ∧
      s.Quiescent ∧ 0 < s.inits ∧ ¬ s.Agreed .sample := by
    refine Machine.exists_reach
      [.offer .a (packet 1) 36, .offer .a (packet 2) 36, .deliver (.query .a (packet 1)),
        .deliver (.query .a (packet 2)),
        .deliver (.response .a (Peers.sample.static .b) (packet 1)),
        .deliver (.response .a (Peers.sample.static .b) (packet 2)),
        .deliver (.data .b (.first (Peers.sampleFirst 0))),
        .deliver (.data .b (.first (Peers.sampleFirst 1))),
        .deliver (.data .a (.reply ⟨Peers.sampleFirst 0, 2⟩))] ?_
    decide +kernel
  exact hno (h .sample s hreach hq hinits)

end Exchange

end EasyTun.Transport
