import EasyTun.Protocol.Renewal

/-!
# Handshakes that cross

Two clients ask each other at the same time: each has an initiator session that
waits, and both first messages are under way. The side with the larger address
gives its own attempt up and answers; the other one ignores the first message it
gets and waits for the answer. Each side decides by itself, from the length of the
message, the state of its session and the two addresses.

The network here loses and duplicates nothing, and delivers in any order: a first
message may arrive when its receiver is already done.

- `Stage`: the three stages a crossing goes through, whichever order the messages
  arrive in;
- `crossing_resolved`: **exactly the larger side answers, and when nothing is under way
  any more both sides are ready with matching keys.**
-/

namespace EasyTun.Protocol

open EasyTun.Lib
open EasyTun.Lib.NoiseIK

/-! ## A first message while one's own is under way -/

section Calls

variable {m : NoiseManager} {key : ByteArr 4} {sid : SessionId} {f g : First}

/-- The side with the larger address yields and answers. -/
theorem handleNoisePacket_yield (hent : m.getSession key = some sid)
    (hwait : (m.heap sid).Matches (.unready g)) (hlt : key.1 < m.myVip.1)
    (hf : f.responder = m.staticPub) (eph : Nat) (now : Int) :
    ∃ m', m.handleNoisePacket ideal key (.first f) eph now
        = (m', .ok (some m.next, some (.reply ⟨f, eph⟩))) ∧
      m'.getSession key = some m.next ∧ (m'.heap m.next).Matches (.responder ⟨f, eph⟩) := by
  have hready : (m.heap sid).isReady = false := hwait.ready
  have hrole : (m.heap sid).isInitiator = true := hwait.role
  have hread : ideal.readFirst m.staticPub (.first f) = some f :=
    ideal_readFirst_eq_some.mpr ⟨rfl, hf⟩
  have hlocked : m.lockedBody ideal sid key (.first f) = none := by
    simp [NoiseManager.lockedBody, hready, hrole, hlt]
  let s : NoiseSession := .responder key ⟨f, eph⟩ now
  refine ⟨(m.install key s).sendAllPendingData m.next, ?_, ?_, ?_⟩
  · simp only [NoiseManager.handleNoisePacket, hent, hready, hlocked, Option.getD_none,
      NoiseManager.handleResponderFirst, hread]
    rfl
  · exact NoiseManager.getSession_install m key s
  · rw [NoiseManager.heap_sendAllPendingData, NoiseManager.heap_install]
    exact (NoiseSession.responder_matches key _ now).congr rfl rfl rfl

/-- The side with the smaller address goes on waiting. -/
theorem handleNoisePacket_collision (hent : m.getSession key = some sid)
    (hwait : (m.heap sid).Matches (.unready g)) (hnlt : ¬ key.1 < m.myVip.1) (eph : Nat)
    (now : Int) :
    m.handleNoisePacket ideal key (.first f) eph now = (m, .error .collision) := by
  have hready : (m.heap sid).isReady = false := hwait.ready
  have hrole : (m.heap sid).isInitiator = true := hwait.role
  have hlocked : m.lockedBody ideal sid key (.first f) = some (m, .error .collision) := by
    simp [NoiseManager.lockedBody, hready, hrole, hnlt]
  simp [NoiseManager.handleNoisePacket, hent, hready, hlocked]

end Calls

/-! ## The larger address -/

/-- The side with the larger address. -/
def Peers.larger (P : Peers) : Side := if (P.vip .b).1 < (P.vip .a).1 then .a else .b

theorem Peers.larger_lt (P : Peers) : (P.vip P.larger.other).1 < (P.vip P.larger).1 := by
  unfold larger
  split
  · next h => exact h
  · next h =>
    refine Decidable.byContradiction fun h' => P.vip_ne ?_
    exact Subtype.ext (List.le_antisymm (List.not_lt.mp h) (List.not_lt.mp h'))

/-! ## The model -/

/-- Both managers, the messages under way and whom they are for, and who has sent a
response. -/
structure Crossing where
  mgr : Side → NoiseManager
  flight : List (Side × Msg)
  responses : List Side

namespace Crossing

/-- A message arrives. Its receiver draws an ephemeral key and reads the clock. -/
structure Act where
  side : Side
  msg : Msg
  eph : Nat
  now : Int

/-- The message is handed to `HandleNoisePacket`, and a response goes on its way. -/
def deliver (P : Peers) (s : Crossing) (a : Act) : Crossing :=
  let r := (s.mgr a.side).handleNoisePacket ideal (P.vip a.side.other) a.msg a.eph a.now
  let mgr := Function.update s.mgr a.side r.1
  let flight := s.flight.erase (a.side, a.msg)
  match responseOf r.2 with
  | none => { s with mgr, flight }
  | some reply =>
    { mgr, flight := (a.side.other, reply) :: flight, responses := a.side :: s.responses }

def step (P : Peers) (s : Crossing) (a : Act) : Option Crossing :=
  guardTo ((a.side, a.msg) ∈ s.flight) (deliver P s a)

def machine (P : Peers) (s₀ : Crossing) : Machine Crossing Act := { init := s₀, step := step P }

/-- The first message of a side. -/
def firstOf (P : Peers) (eph : Side → Nat) (x : Side) : First :=
  ⟨P.static x, P.static x.other, eph x⟩

/-- **Both have asked**: each side waits for the reply to its first message, and both
first messages are under way. -/
structure Crossed (P : Peers) (eph : Side → Nat) (s : Crossing) : Prop where
  vip : ∀ x, (s.mgr x).myVip = P.vip x
  static : ∀ x, (s.mgr x).staticPub = P.static x
  waiting : ∀ x, ∃ sid, (s.mgr x).getSession (P.vip x.other) = some sid ∧
    ((s.mgr x).heap sid).Matches (.unready (firstOf P eph x))
  flight : s.flight.Perm
    [(.a, .first (firstOf P eph .b)), (.b, .first (firstOf P eph .a))]
  responses : s.responses = []

/-- The entry for the peer looks like this. -/
def Entry (P : Peers) (s : Crossing) (x : Side) (v : View) : Prop :=
  ∃ sid, (s.mgr x).getSession (P.vip x.other) = some sid ∧ ((s.mgr x).heap sid).Matches v

/-- Both sides hold ready sessions for each other, and each sends under the key the
other receives under. -/
def Agreed (P : Peers) (s : Crossing) : Prop :=
  ∃ i j, (s.mgr .a).getSession (P.vip .b) = some i ∧ (s.mgr .b).getSession (P.vip .a) = some j ∧
    ((s.mgr .a).heap i).isReady = true ∧ ((s.mgr .b).heap j).isReady = true ∧
    ((s.mgr .a).heap i).KeysMatch ((s.mgr .b).heap j)

/-- A responder and the initiator it answered agree. -/
theorem agreed_of_entries {P : Peers} {s : Crossing} {y : Side} {t : Transcript}
    (hy : s.Entry P y (.responder t)) (hz : s.Entry P y.other (.initiator t)) :
    s.Agreed P := by
  obtain ⟨j, hj, hresp⟩ := hy
  obtain ⟨i, hi, hinit⟩ := hz
  rw [Side.other_other] at hi
  obtain ⟨hmatch, hmatch'⟩ := hinit.keysMatch hresp
  cases y with
  | a => exact ⟨j, i, hj, hi, hresp.ready, hinit.ready, hmatch'⟩
  | b => exact ⟨i, j, hi, hj, hinit.ready, hresp.ready, hmatch⟩

/-! ## The stages -/

variable {P : Peers} {eph : Side → Nat} {s₀ s s' : Crossing} {a : Act}

/-- The first message of the larger side has arrived, or it is still under way: it
matters at no stage. -/
def Rest (P : Peers) (eph : Side → Nat) (rest : List (Side × Msg)) : Prop :=
  rest = [] ∨ rest = [(P.larger.other, .first (firstOf P eph P.larger))]

variable (P eph s₀) in
/-- **The stages of a crossing.** -/
inductive Stage (s : Crossing) : Prop where
  /-- The first message of the smaller side is under way. -/
  | asked {rest : List (Side × Msg)} (hrest : Rest P eph rest)
      (hflight : s.flight.Perm
        ((P.larger, .first (firstOf P eph P.larger.other)) :: rest))
      (hmgr : s.mgr = s₀.mgr) (hresponses : s.responses = [])
  /-- The larger side has answered, and the reply is under way. -/
  | answered {rest : List (Side × Msg)} {t : Transcript} (hrest : Rest P eph rest)
      (hflight : s.flight.Perm ((P.larger.other, .reply t) :: rest))
      (hfirst : t.first = firstOf P eph P.larger.other)
      (hlarger : s.Entry P P.larger (.responder t))
      (hsmaller : s.mgr P.larger.other = s₀.mgr P.larger.other)
      (hresponses : s.responses = [P.larger])
  /-- The smaller side has read the reply. -/
  | agreed {rest : List (Side × Msg)} {t : Transcript} (hrest : Rest P eph rest)
      (hflight : s.flight.Perm rest)
      (hlarger : s.Entry P P.larger (.responder t))
      (hsmaller : s.Entry P P.larger.other (.initiator t))
      (hresponses : s.responses = [P.larger])

theorem stage_start (h : Crossed P eph s₀) : Stage P eph s₀ s₀ := by
  refine .asked (Or.inr rfl) (h.flight.trans ?_) rfl h.responses
  cases P.larger with
  | a => exact .refl _
  | b => exact .swap ..

/-- A delivery without a response. -/
theorem deliver_silent {r : HandleResult Msg} {m : NoiseManager}
    (hcall : (s.mgr a.side).handleNoisePacket ideal (P.vip a.side.other) a.msg a.eph a.now = (m, r))
    (hsilent : responseOf r = none) :
    deliver P s a = { s with
      mgr := Function.update s.mgr a.side m, flight := s.flight.erase (a.side, a.msg) } := by
  simp only [deliver, hcall, hsilent]

/-- The smaller side ignores the first message of the larger one while it waits. -/
theorem deliver_ignored (h : Crossed P eph s₀) (hside : a.side = P.larger.other)
    (hmsg : a.msg = .first (firstOf P eph P.larger)) (hmgr : s.mgr a.side = s₀.mgr a.side) :
    deliver P s a = { s with flight := s.flight.erase (a.side, a.msg) } := by
  obtain ⟨sid, hent, hwait⟩ := h.waiting a.side
  have hnlt : ¬ (P.vip a.side.other).1 < (s₀.mgr a.side).myVip.1 := by
    rw [h.vip, hside, Side.other_other]
    exact List.lt_asymm P.larger_lt
  have hcall := handleNoisePacket_collision (f := firstOf P eph P.larger) hent hwait hnlt a.eph
    a.now
  rw [← hmgr, ← hmsg] at hcall
  rw [deliver_silent hcall rfl, Function.update_eq_self]

/-- So does a side that is ready. -/
theorem deliver_ready {v : View} (hent : s.Entry P a.side v) (hready : v.isReady = true) :
    deliver P s a = { s with flight := s.flight.erase (a.side, a.msg) } := by
  obtain ⟨sid, hent, hmatch⟩ := hent
  have hcall := handleNoisePacket_ready hent (hmatch.ready.trans hready) a.msg a.eph a.now
  rw [deliver_silent hcall rfl, Function.update_eq_self]

/-- The larger side answers the first message of the smaller one. -/
theorem deliver_answered (h : Crossed P eph s₀) (hside : a.side = P.larger)
    (hmsg : a.msg = .first (firstOf P eph P.larger.other)) (hmgr : s.mgr = s₀.mgr) :
    let t : Transcript := ⟨firstOf P eph P.larger.other, a.eph⟩
    (deliver P s a).flight = (P.larger.other, .reply t) :: s.flight.erase (a.side, a.msg) ∧
      (deliver P s a).Entry P P.larger (.responder t) ∧
      (deliver P s a).mgr P.larger.other = s₀.mgr P.larger.other ∧
      (deliver P s a).responses = P.larger :: s.responses := by
  obtain ⟨sid, hent, hwait⟩ := h.waiting P.larger
  have hlt : (P.vip P.larger.other).1 < (s₀.mgr P.larger).myVip.1 := by
    rw [h.vip]
    exact P.larger_lt
  have hresponder : (firstOf P eph P.larger.other).responder = (s₀.mgr P.larger).staticPub := by
    rw [h.static, firstOf, Side.other_other]
  obtain ⟨m', hcall, hent', hresp⟩ :=
    handleNoisePacket_yield hent hwait hlt hresponder a.eph a.now
  have hcall' : (s.mgr a.side).handleNoisePacket ideal (P.vip a.side.other) a.msg a.eph a.now =
      (m', .ok (some (s₀.mgr P.larger).next,
        some (.reply ⟨firstOf P eph P.larger.other, a.eph⟩))) := by
    rw [hside, hmgr, hmsg]
    exact hcall
  have hdeliver : deliver P s a =
      { mgr := Function.update s.mgr a.side m'
        flight := (a.side.other, .reply ⟨firstOf P eph P.larger.other, a.eph⟩) ::
          s.flight.erase (a.side, a.msg)
        responses := a.side :: s.responses } := by
    simp only [deliver, hcall', responseOf]
  rw [hdeliver, hside]
  refine ⟨rfl, ⟨(s₀.mgr P.larger).next, ?_, ?_⟩, ?_, rfl⟩
  · show (Function.update s.mgr P.larger m' P.larger).getSession _ = _
    rw [Function.update_self]
    exact hent'
  · show ((Function.update s.mgr P.larger m' P.larger).heap _).Matches _
    rw [Function.update_self]
    exact hresp
  · show Function.update s.mgr P.larger m' P.larger.other = _
    rw [Function.update_of_ne (Side.other_ne _), hmgr]

/-- The smaller side completes with the reply to its first message. -/
theorem deliver_completed (h : Crossed P eph s₀) {t : Transcript}
    (hfirst : t.first = firstOf P eph P.larger.other) (hside : a.side = P.larger.other)
    (hmsg : a.msg = .reply t) (hmgr : s.mgr P.larger.other = s₀.mgr P.larger.other) :
    (deliver P s a).flight = s.flight.erase (a.side, a.msg) ∧
      (deliver P s a).Entry P P.larger.other (.initiator t) ∧
      (deliver P s a).mgr P.larger = s.mgr P.larger ∧
      (deliver P s a).responses = s.responses := by
  obtain ⟨sid, hent, hwait⟩ := h.waiting P.larger.other
  rw [← hmgr, ← hside] at hent hwait
  rw [hside, ← hfirst, ← hside] at hwait
  have hsilent : responseOf ((s.mgr a.side).handleNoisePacket ideal (P.vip a.side.other) a.msg a.eph
      a.now).2 = none := by
    have hread : ideal.readReply t.first (.reply t) = some t :=
      ideal_readReply_eq_some.mpr ⟨rfl, rfl⟩
    have hready : ((s.mgr a.side).heap sid).isReady = false := hwait.ready
    have hrole : ((s.mgr a.side).heap sid).isInitiator = true := hwait.role
    have hhs : ((s.mgr a.side).heap sid).hs = some t.first := hwait.hs
    simp [hmsg, NoiseManager.handleNoisePacket, hent, NoiseManager.lockedBody, hready, hrole, hhs,
      hread, responseOf]
  obtain ⟨hent', hinit⟩ := handleNoisePacket_reply hent hwait a.eph a.now
  rw [← hmsg] at hent' hinit
  rw [deliver_silent rfl hsilent, hside]
  rw [hside] at hent' hinit
  refine ⟨rfl, ⟨sid, ?_, ?_⟩, Function.update_of_ne (Side.ne_other _) .., rfl⟩
  · show (Function.update s.mgr P.larger.other _ P.larger.other).getSession _ = _
    rw [Function.update_self]
    exact hent'
  · show ((Function.update s.mgr P.larger.other _ P.larger.other).heap _).Matches _
    rw [Function.update_self]
    exact hinit

/-- **A message that arrives leads from stage to stage.** -/
theorem stage_step (h : Crossed P eph s₀) (hstage : Stage P eph s₀ s)
    (hs : step P s a = some s') : Stage P eph s₀ s' := by
  obtain ⟨hmem, rfl⟩ := guardTo_eq_some.mp hs
  cases hstage with
  | @asked rest hrest hflight hmgr hresponses =>
    rcases List.mem_cons.mp (hflight.mem_iff.mp hmem) with heq | hmem'
    · obtain ⟨hside, hmsg⟩ := Prod.mk.inj heq
      obtain ⟨hflight', hlarger, hsmaller, hresponses'⟩ := deliver_answered h hside hmsg hmgr
      have hperm := hflight.erase (a.side, a.msg)
      rw [heq, List.erase_cons_head, ← heq] at hperm
      refine .answered hrest ?_ rfl hlarger hsmaller (by rw [hresponses', hresponses])
      rw [hflight']
      exact hperm.cons _
    · rcases hrest with rfl | rfl
      · cases hmem'
      obtain ⟨hside, hmsg⟩ := Prod.mk.inj (List.mem_singleton.mp hmem')
      rw [deliver_ignored h hside hmsg (by rw [hmgr])]
      refine .asked (Or.inl rfl) ?_ hmgr hresponses
      have hperm := hflight.erase (a.side, a.msg)
      rw [hside, hmsg, List.erase_cons_tail (by simp), List.erase_cons_head] at hperm
      rw [hside, hmsg]
      exact hperm
  | @answered rest t hrest hflight hfirst hlarger hsmaller hresponses =>
    rcases List.mem_cons.mp (hflight.mem_iff.mp hmem) with heq | hmem'
    · obtain ⟨hside, hmsg⟩ := Prod.mk.inj heq
      obtain ⟨hflight', hinit, hkeep, hresponses'⟩ :=
        deliver_completed h hfirst hside hmsg hsmaller
      have hperm := hflight.erase (a.side, a.msg)
      rw [heq, List.erase_cons_head, ← heq] at hperm
      refine .agreed hrest ?_ ?_ hinit (by rw [hresponses', hresponses])
      · rw [hflight']
        exact hperm
      · unfold Entry
        rw [hkeep]
        exact hlarger
    · rcases hrest with rfl | rfl
      · cases hmem'
      obtain ⟨hside, hmsg⟩ := Prod.mk.inj (List.mem_singleton.mp hmem')
      rw [deliver_ignored h hside hmsg (by rw [hside, hsmaller])]
      refine .answered (Or.inl rfl) ?_ hfirst hlarger hsmaller hresponses
      have hperm := hflight.erase (a.side, a.msg)
      rw [hside, hmsg, List.erase_cons_tail (by simp), List.erase_cons_head] at hperm
      rw [hside, hmsg]
      exact hperm
  | @agreed rest t hrest hflight hlarger hsmaller hresponses =>
    -- only the first message of the larger side can still arrive
    have hmem' := hflight.mem_iff.mp hmem
    rcases hrest with rfl | rfl
    · cases hmem'
    obtain ⟨hside, hmsg⟩ := Prod.mk.inj (List.mem_singleton.mp hmem')
    rw [deliver_ready (by rw [hside]; exact hsmaller) rfl]
    refine .agreed (Or.inl rfl) ?_ hlarger hsmaller hresponses
    have hperm := hflight.erase (a.side, a.msg)
    rw [hside, hmsg, List.erase_cons_head] at hperm
    rw [hside, hmsg]
    exact hperm

/-- **A crossing is resolved.** Both sides have asked, and the two first messages and
what they cause are delivered once each, in any order. Nobody but the side with the
larger address answers, and when nothing is under way any more it has answered once,
and both sides are ready with matching keys. -/
theorem crossing_resolved (P : Peers) (eph : Side → Nat) {s₀ s : Crossing}
    (h : Crossed P eph s₀) (hr : (machine P s₀).Reach s) :
    (s.responses = [] ∨ s.responses = [P.larger]) ∧
      (s.flight = [] → s.responses = [P.larger] ∧ s.Agreed P) := by
  have hstage : Stage P eph s₀ s := hr.invariant (stage_start h) fun hst hs => stage_step h hst hs
  cases hstage with
  | asked hrest hflight hmgr hresponses =>
    refine ⟨Or.inl hresponses, fun hnil => ?_⟩
    rw [hnil] at hflight
    exact absurd hflight.length_eq (by simp)
  | answered hrest hflight hfirst hlarger hsmaller hresponses =>
    refine ⟨Or.inr hresponses, fun hnil => ?_⟩
    rw [hnil] at hflight
    exact absurd hflight.length_eq (by simp)
  | agreed hrest hflight hlarger hsmaller hresponses =>
    exact ⟨Or.inr hresponses, fun _ => ⟨hresponses, agreed_of_entries hlarger hsmaller⟩⟩

/-! ### One order -/

section OneOrder

/-- Each side draws its own ephemeral key. -/
def caseEph : Side → Nat
  | .a => 0
  | .b => 1

/-- Both sample clients have called `HandshakeInit` and sent their first messages. -/
def caseAsked : Crossing where
  mgr x := ((NoiseManager.new (Peers.sample.static x) (Peers.sample.vip x)).handshakeInit ideal
    (Peers.sample.vip x.other) (Peers.sample.static x.other) [] (caseEph x) 0).2
  flight := [(.a, .first (firstOf .sample caseEph .b)), (.b, .first (firstOf .sample caseEph .a))]
  responses := []

theorem caseAsked_crossed : Crossed .sample caseEph caseAsked where
  vip _ := rfl
  static _ := rfl
  waiting _ := ⟨0, handshakeInit_entry ..⟩
  flight := .refl _
  responses := rfl

/-- The first message of the larger side arrives last, when its receiver is ready. -/
def caseOrder : List Act :=
  [⟨.b, .first (firstOf .sample caseEph .a), 2, 0⟩,
    ⟨.a, .reply ⟨firstOf .sample caseEph .a, 2⟩, 3, 0⟩,
    ⟨.a, .first (firstOf .sample caseEph .b), 4, 0⟩]

theorem crossing_resolved_late :
    ∃ s, (machine .sample caseAsked).Reach s ∧ s.flight = [] ∧ s.responses = [.b] ∧
      s.Agreed .sample := by
  obtain ⟨s, hr, hflight⟩ : ∃ s, (machine .sample caseAsked).Reach s ∧ s.flight = [] :=
    Machine.exists_reach caseOrder (by decide +kernel)
  exact ⟨s, hr, hflight, (crossing_resolved .sample caseEph caseAsked_crossed hr).2 hflight⟩

end OneOrder

end Crossing

end EasyTun.Protocol
