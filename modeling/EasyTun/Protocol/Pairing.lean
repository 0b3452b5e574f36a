import EasyTun.Lib.Machine
import EasyTun.Protocol.Views

/-!
# Two parties and a network

The abstract model of a pair of clients that make sessions with each other. A
side can make an initiator session at any time, answer any first message that
was ever sent to it, complete a waiting session with any reply that was ever
sent to it, and lose its current session. The network is the list of everything
ever sent, so delay, reordering, loss and duplication are all in the choice of
the steps.

- `stamps`: every session ever made carries its own ephemeral key, so that **no
  two sessions of the pair send under the same key** (`sendKey_inj`).
- `matching`: if an answer is only given while the peer still waits for its
  first answer (`AnswerOk`), then **two ready sessions always hold matching
  keys**. Without that condition they need not.
-/

namespace EasyTun.Protocol

open EasyTun.Lib
open EasyTun.Lib.NoiseIK

/-! ## The model -/

/-- The two clients. -/
inductive Side where
  | a
  | b
  deriving DecidableEq

namespace Side

/-- The peer. -/
def other : Side → Side
  | .a => .b
  | .b => .a

@[simp] theorem other_other (x : Side) : x.other.other = x := by cases x <;> rfl

@[simp] theorem other_ne (x : Side) : x.other ≠ x := by cases x <;> decide

@[simp] theorem ne_other (x : Side) : x ≠ x.other := by cases x <;> decide

theorem eq_or_eq_other (x y : Side) : y = x ∨ y = x.other := by
  cases x <;> cases y <;> decide

end Side

/-- Who the two clients are. -/
structure Peers where
  vip : Side → ByteArr 4
  static : Side → PublicKey
  vip_ne : vip .a ≠ vip .b

/-- Two clients with distinct addresses and keys. -/
def Peers.sample : Peers where
  vip
    | .a => sampleIp 2
    | .b => sampleIp 3
  static
    | .a => samplePub
    | .b => samplePub'
  vip_ne := by decide

/-- The first message that `a` makes with an ephemeral key. -/
def Peers.sampleFirst (eph : Nat) : First := ⟨sample.static .a, sample.static .b, eph⟩

/-- The state: both parties, everything ever sent to each, and the next
ephemeral key. -/
structure Pairing where
  party : Side → Party
  inbox : Side → List Msg
  eph : Nat

namespace Pairing

/-- The steps of the pair. -/
inductive Act where
  | initiate (x : Side)
  | answer (x : Side) (f : First)
  | complete (x : Side) (i : SessionId) (t : Transcript)
  | drop (x : Side)

/-- One side changes and a message goes to the other one. -/
def sends (s : Pairing) (x : Side) (p : Party) (msg : Msg) : Pairing :=
  { party := Function.update s.party x p
    inbox := Function.update s.inbox x.other (msg :: s.inbox x.other)
    eph := s.eph + 1 }

/-- One side changes. -/
def becomes (s : Pairing) (x : Side) (p : Party) : Pairing :=
  { s with party := Function.update s.party x p }

/-- One side begins, answers, completes or drops a handshake. -/
def step (P : Peers) (s : Pairing) : Act → Option Pairing
  | .initiate x =>
    let f : First := ⟨P.static x, P.static x.other, s.eph⟩
    some (s.sends x ((s.party x).install (.unready f)) (.first f))
  | .answer x f =>
    guardTo (Msg.first f ∈ s.inbox x)
      (s.sends x ((s.party x).install (.responder ⟨f, s.eph⟩)) (.reply ⟨f, s.eph⟩))
  | .complete x i t =>
    guardTo (i < (s.party x).next ∧ (s.party x).obj i = .unready t.first ∧
        Msg.reply t ∈ s.inbox x)
      (s.becomes x ((s.party x).complete i t))
  | .drop x => some (s.becomes x (s.party x).drop)

/-- The pair before anything happened. -/
def start (P : Peers) : Pairing :=
  { party := fun x => .new (P.static x) (P.vip x), inbox := fun _ => [], eph := 0 }

/-- Two sides without handshakes. -/
def machine (P : Peers) : Machine Pairing Act := { init := start P, step := step P }

/-- The side `y` has been answered: a reply to `f` was sent to it. -/
def Answered (s : Pairing) (y : Side) (f : First) : Prop :=
  ∃ t, Msg.reply t ∈ s.inbox y ∧ t.first = f

/-- An answer is given only while the peer has no session, or still waits for
the first answer to the first message of its current one. -/
def AnswerOk (s : Pairing) : Act → Prop
  | .answer x _ =>
    ∀ v, (s.party x.other).view = some v → ∃ f, v = .unready f ∧ ¬ s.Answered x.other f
  | _ => True

/-! ## What a step changes -/

section Fields

variable (s : Pairing) (x : Side) (p : Party) (msg : Msg)

@[simp] theorem sends_party_self : (s.sends x p msg).party x = p := Function.update_self ..

@[simp] theorem sends_party_other : (s.sends x p msg).party x.other = s.party x.other :=
  Function.update_of_ne (Side.other_ne x) ..

@[simp] theorem sends_inbox_self : (s.sends x p msg).inbox x = s.inbox x :=
  Function.update_of_ne (Side.ne_other x) ..

@[simp] theorem sends_inbox_other :
    (s.sends x p msg).inbox x.other = msg :: s.inbox x.other := Function.update_self ..

@[simp] theorem sends_eph : (s.sends x p msg).eph = s.eph + 1 := rfl

@[simp] theorem becomes_party_self : (s.becomes x p).party x = p := Function.update_self ..

@[simp] theorem becomes_party_other : (s.becomes x p).party x.other = s.party x.other :=
  Function.update_of_ne (Side.other_ne x) ..

end Fields

/-- **The steps of the pair**, with everything that enables them. -/
theorem step_cases {P : Peers} {s s' : Pairing} {a : Act} (h : step P s a = some s') :
    (∃ x, a = .initiate x ∧
      s' = s.sends x ((s.party x).install (.unready ⟨P.static x, P.static x.other, s.eph⟩))
        (.first ⟨P.static x, P.static x.other, s.eph⟩)) ∨
    (∃ x f, a = .answer x f ∧ Msg.first f ∈ s.inbox x ∧
      s' = s.sends x ((s.party x).install (.responder ⟨f, s.eph⟩)) (.reply ⟨f, s.eph⟩)) ∨
    (∃ x i t, a = .complete x i t ∧ i < (s.party x).next ∧
      (s.party x).obj i = .unready t.first ∧ Msg.reply t ∈ s.inbox x ∧
      s' = s.becomes x ((s.party x).complete i t)) ∨
    (∃ x, a = .drop x ∧ s' = s.becomes x (s.party x).drop) := by
  cases a with
  | initiate x => exact Or.inl ⟨x, rfl, (Option.some.inj h).symm⟩
  | answer x f =>
    obtain ⟨hf, rfl⟩ := guardTo_eq_some.mp h
    exact Or.inr (Or.inl ⟨x, f, rfl, hf, rfl⟩)
  | complete x i t =>
    obtain ⟨⟨hi, hv, ht⟩, rfl⟩ := guardTo_eq_some.mp h
    exact Or.inr (Or.inr (Or.inl ⟨x, i, t, rfl, hi, hv, ht, rfl⟩))
  | drop x => exact Or.inr (Or.inr (Or.inr ⟨x, rfl, (Option.some.inj h).symm⟩))

/-! ## Every session has its own ephemeral key -/

end Pairing

/-- The ephemeral key a session brought in. -/
def View.stamp : View → Nat
  | .unready f => f.eph
  | .initiator t => t.first.eph
  | .responder t => t.eph

namespace Pairing

/-- The freshness of ephemeral keys, in every run. -/
structure Stamps (s : Pairing) : Prop where
  obj_lt : ∀ x i, i < (s.party x).next → ((s.party x).obj i).stamp < s.eph
  obj_inj : ∀ x y i j, i < (s.party x).next → j < (s.party y).next →
    ((s.party x).obj i).stamp = ((s.party y).obj j).stamp → x = y ∧ i = j
  first_lt : ∀ x f, Msg.first f ∈ s.inbox x → f.eph < s.eph
  reply_lt : ∀ x t, Msg.reply t ∈ s.inbox x → t.first.eph < s.eph

/-- A session after an installation is the new one or an old one. -/
theorem sends_obj {s : Pairing} {x z : Side} {v : View} {msg : Msg} {j : SessionId}
    (hj : j < ((s.sends x ((s.party x).install v) msg).party z).next) :
    (z = x ∧ j = (s.party x).next ∧
      ((s.sends x ((s.party x).install v) msg).party z).obj j = v) ∨
    (j < (s.party z).next ∧
      ((s.sends x ((s.party x).install v) msg).party z).obj j = (s.party z).obj j) := by
  rcases x.eq_or_eq_other z with rfl | rfl
  · rw [sends_party_self] at hj ⊢
    show _ ∨ (_ ∧ Function.update _ _ _ _ = _)
    by_cases heq : j = (s.party z).next
    · exact Or.inl ⟨rfl, heq, by rw [heq]; exact Function.update_self ..⟩
    · exact Or.inr ⟨Nat.lt_of_le_of_ne (Nat.le_of_lt_succ hj) heq, Function.update_of_ne heq ..⟩
  · rw [sends_party_other] at hj ⊢
    exact Or.inr ⟨hj, rfl⟩

/-- Installing a session stamped with the next key keeps the stamps fresh. -/
theorem Stamps.sends {s : Pairing} (h : Stamps s) {x : Side} {v : View} {msg : Msg}
    (hv : v.stamp = s.eph) (hfirst : ∀ f, msg = .first f → f.eph ≤ s.eph)
    (hreply : ∀ t, msg = .reply t → t.first.eph ≤ s.eph) :
    Stamps (s.sends x ((s.party x).install v) msg) where
  obj_lt := by
    intro z j hj
    rw [sends_eph]
    rcases sends_obj hj with ⟨-, -, hobj⟩ | ⟨hold, hobj⟩
    · rw [hobj, hv]
      exact Nat.lt_succ_self _
    · rw [hobj]
      exact Nat.lt_succ_of_lt (h.obj_lt z j hold)
  obj_inj := by
    intro y z i j hi hj heq
    -- the new stamp is above all old ones
    rcases sends_obj hi with ⟨hy, hinew, hobj⟩ | ⟨hiold, hobj⟩
    · rcases sends_obj hj with ⟨hz, hjnew, -⟩ | ⟨hjold, hobj'⟩
      · exact ⟨hy.trans hz.symm, hinew.trans hjnew.symm⟩
      · rw [hobj, hobj'] at heq
        exact absurd (hv.symm.trans heq) (Nat.ne_of_gt (h.obj_lt z j hjold))
    · rcases sends_obj hj with ⟨-, -, hobj'⟩ | ⟨hjold, hobj'⟩
      · rw [hobj, hobj'] at heq
        exact absurd (heq.trans hv) (Nat.ne_of_lt (h.obj_lt y i hiold))
      · rw [hobj, hobj'] at heq
        exact h.obj_inj y z i j hiold hjold heq
  first_lt := by
    intro z f hf
    rw [sends_eph]
    rcases x.eq_or_eq_other z with rfl | rfl
    · rw [sends_inbox_self] at hf
      exact Nat.lt_succ_of_lt (h.first_lt z f hf)
    · rw [sends_inbox_other] at hf
      rcases List.mem_cons.mp hf with hnew | hold
      · exact Nat.lt_succ_of_le (hfirst f hnew.symm)
      · exact Nat.lt_succ_of_lt (h.first_lt _ f hold)
  reply_lt := by
    intro z t ht
    rw [sends_eph]
    rcases x.eq_or_eq_other z with rfl | rfl
    · rw [sends_inbox_self] at ht
      exact Nat.lt_succ_of_lt (h.reply_lt z t ht)
    · rw [sends_inbox_other] at ht
      rcases List.mem_cons.mp ht with hnew | hold
      · exact Nat.lt_succ_of_le (hreply t hnew.symm)
      · exact Nat.lt_succ_of_lt (h.reply_lt _ t hold)

/-- A change of one party that makes no session and keeps all stamps. -/
theorem Stamps.becomes {s : Pairing} (h : Stamps s) {x : Side} {p : Party}
    (hnext : p.next = (s.party x).next)
    (hobj : ∀ j, (p.obj j).stamp = ((s.party x).obj j).stamp) : Stamps (s.becomes x p) := by
  have hn : ∀ z, ((s.becomes x p).party z).next = (s.party z).next := by
    intro z
    rcases x.eq_or_eq_other z with rfl | rfl
    · rw [becomes_party_self, hnext]
    · rw [becomes_party_other]
  have ho : ∀ z j, (((s.becomes x p).party z).obj j).stamp = ((s.party z).obj j).stamp := by
    intro z j
    rcases x.eq_or_eq_other z with rfl | rfl
    · rw [becomes_party_self, hobj]
    · rw [becomes_party_other]
  refine ⟨?_, ?_, h.first_lt, h.reply_lt⟩
  · intro z j hj
    rw [ho]
    exact h.obj_lt z j (hn z ▸ hj)
  · intro y z i j hi hj heq
    rw [ho, ho] at heq
    exact h.obj_inj y z i j (hn y ▸ hi) (hn z ▸ hj) heq

theorem stamps_step {P : Peers} {s s' : Pairing} {a : Act} (h : Stamps s)
    (hs : step P s a = some s') : Stamps s' := by
  rcases step_cases hs with ⟨x, -, rfl⟩ | ⟨x, f, -, hf, rfl⟩ | ⟨x, i, t, -, -, hv, -, rfl⟩ |
    ⟨x, -, rfl⟩
  · refine h.sends rfl ?_ ?_
    · rintro f hf
      cases hf
      exact Nat.le_refl _
    · rintro t ht
      cases ht
  · refine h.sends rfl ?_ ?_
    · rintro f' hf'
      cases hf'
    · rintro t ht
      cases ht
      exact Nat.le_of_lt (h.first_lt x f hf)
  · refine h.becomes rfl fun j => ?_
    show (Function.update (s.party x).obj i (.initiator t) j).stamp = _
    by_cases heq : j = i
    · rw [heq, Function.update_self, hv]
      rfl
    · rw [Function.update_of_ne heq]
  · exact h.becomes rfl fun _ => rfl

/-- **Ephemeral keys are fresh in every run.** -/
theorem stamps {P : Peers} {ok : Pairing → Act → Prop} {s : Pairing}
    (h : (machine P).ReachVia ok s) : Stamps s := by
  refine h.invariant ?_ fun _ hst _ hs => stamps_step hst hs
  exact ⟨fun _ _ hi => absurd hi (Nat.not_lt_zero _),
    fun _ _ _ _ hi => absurd hi (Nat.not_lt_zero _),
    fun _ _ hf => (nomatch hf), fun _ _ ht => (nomatch ht)⟩

/-- **No two sessions of the pair send under the same key**: the transcript names
the session that brought in its ephemeral key, and the half names the role. -/
theorem Stamps.sendKey_inj {s : Pairing} (h : Stamps s) {x y : Side} {i j : SessionId} {k : Key}
    (hi : i < (s.party x).next) (hj : j < (s.party y).next)
    (hk : ((s.party x).obj i).sendKey = some k) (hk' : ((s.party y).obj j).sendKey = some k) :
    x = y ∧ i = j := by
  refine h.obj_inj x y i j hi hj ?_
  generalize (s.party x).obj i = v at hk
  generalize (s.party y).obj j = v' at hk'
  cases v <;> cases v' <;> cases hk <;> cases hk' <;> rfl

/-! ## Ready sessions match -/

/-- What holds of the current sessions as long as every answer met `AnswerOk`. -/
structure Matching (s : Pairing) : Prop where
  /-- A completed initiator read a reply that was sent to it. -/
  replied : ∀ x t, (s.party x).view = some (.initiator t) → Msg.reply t ∈ s.inbox x
  /-- The current sessions do not both ask with answered first messages. -/
  not_crossed : ∀ x v v' f f', (s.party x).view = some v → v.asked = some f →
    s.Answered x f → (s.party x.other).view = some v' → v'.asked = some f' →
    ¬ s.Answered x.other f'
  /-- A ready peer of an answered initiator is the responder of that answer. -/
  answered : ∀ x v t v', (s.party x).view = some v → v.asked = some t.first →
    Msg.reply t ∈ s.inbox x → (s.party x.other).view = some v' → v'.isReady = true →
    v' = .responder t
  /-- The current sessions are not both responders. -/
  not_responders : ∀ x t t', (s.party x).view = some (.responder t) →
    (s.party x.other).view ≠ some (.responder t')

/-- A new session that is no completed initiator, and a message for the other side. -/
theorem replied_sends {s : Pairing} (h : Matching s) {x z : Side} {v : View} {d : Msg}
    {t : Transcript}
    (hv : ((s.sends x ((s.party x).install v) d).party z).view = some (.initiator t))
    (hnew : ∀ t, v ≠ .initiator t) :
    Msg.reply t ∈ (s.sends x ((s.party x).install v) d).inbox z := by
  rcases x.eq_or_eq_other z with rfl | rfl
  · rw [sends_party_self, Party.view_install] at hv
    exact absurd (Option.some.inj hv) (hnew t)
  · rw [sends_party_other] at hv
    rw [sends_inbox_other]
    exact List.mem_cons_of_mem _ (h.replied _ t hv)

theorem matching_initiate {P : Peers} {s : Pairing} (hst : Stamps s) (h : Matching s)
    (x : Side) :
    Matching (s.sends x ((s.party x).install
      (.unready ⟨P.static x, P.static x.other, s.eph⟩))
      (.first ⟨P.static x, P.static x.other, s.eph⟩)) := by
  -- the new first message has not been answered
  have hfresh : ∀ t, Msg.reply t ∈ s.inbox x →
      t.first ≠ ⟨P.static x, P.static x.other, s.eph⟩ := by
    intro t ht heq
    have hlt := hst.reply_lt x t ht
    rw [heq] at hlt
    exact Nat.lt_irrefl _ hlt
  refine ⟨fun z t hv => replied_sends h hv nofun, ?_, ?_, ?_⟩
  · rintro z v v' f f' hv hf ⟨t, ht, htf⟩ hv' hf' ⟨t', ht', htf'⟩
    rcases x.eq_or_eq_other z with rfl | rfl
    · rw [sends_party_self, Party.view_install] at hv
      cases hv
      cases hf
      rw [sends_inbox_self] at ht
      exact hfresh t ht htf
    · rw [Side.other_other, sends_party_self, Party.view_install] at hv'
      cases hv'
      cases hf'
      rw [Side.other_other, sends_inbox_self] at ht'
      exact hfresh t' ht' htf'
  · intro z v t v' hv hf ht hv' hr
    rcases x.eq_or_eq_other z with rfl | rfl
    · rw [sends_party_self, Party.view_install] at hv
      cases hv
      rw [sends_inbox_self] at ht
      exact absurd (Option.some.inj hf).symm (hfresh t ht)
    · rw [Side.other_other, sends_party_self, Party.view_install] at hv'
      cases hv'
      cases hr
  · intro z t t' hv hv'
    rcases x.eq_or_eq_other z with rfl | rfl
    · rw [sends_party_self, Party.view_install] at hv
      cases hv
    · rw [Side.other_other, sends_party_self, Party.view_install] at hv'
      cases hv'

theorem matching_answer {s : Pairing} (h : Matching s) {x : Side} {f : First}
    (hok : AnswerOk s (.answer x f)) :
    Matching (s.sends x ((s.party x).install (.responder ⟨f, s.eph⟩)) (.reply ⟨f, s.eph⟩)) := by
  refine ⟨fun z t hv => replied_sends h hv nofun, ?_, ?_, ?_⟩
  · intro z v v' g g' hv hg _ hv' hg' _
    rcases x.eq_or_eq_other z with rfl | rfl
    · rw [sends_party_self, Party.view_install] at hv
      cases hv
      cases hg
    · rw [Side.other_other, sends_party_self, Party.view_install] at hv'
      cases hv'
      cases hg'
  · intro z v t v' hv hg ht hv' hr
    rcases x.eq_or_eq_other z with rfl | rfl
    · rw [sends_party_self, Party.view_install] at hv
      cases hv
      cases hg
    · -- the peer waited without an answer, so the only one is the new one
      rw [Side.other_other, sends_party_self, Party.view_install] at hv'
      cases hv'
      rw [sends_party_other] at hv
      obtain ⟨g, rfl, hna⟩ := hok v hv
      rw [sends_inbox_other] at ht
      rcases List.mem_cons.mp ht with hnew | hold
      · cases hnew
        rfl
      · exact absurd ⟨t, hold, (Option.some.inj hg).symm⟩ hna
  · intro z t t' hv hv'
    rcases x.eq_or_eq_other z with rfl | rfl
    · rw [sends_party_other] at hv'
      obtain ⟨g, hg, -⟩ := hok _ hv'
      cases hg
    · rw [sends_party_other] at hv
      obtain ⟨g, hg, -⟩ := hok _ hv
      cases hg

/-- The party's current session is the one `x` has, or is gone, or is ready now by
a reply to the first message that one asked with. -/
def Follows (s : Pairing) (x : Side) (p : Party) : Prop :=
  p.view = (s.party x).view ∨ p.view = none ∨
    ∃ t, (s.party x).view = some (.unready t.first) ∧ p.view = some (.initiator t) ∧
      Msg.reply t ∈ s.inbox x

namespace Follows

variable {s : Pairing} {x : Side} {p : Party}

/-- What the new current session asked with, the old one asked with. -/
theorem asked (hp : s.Follows x p) {v : View} {f : First} (hv : p.view = some v)
    (hf : v.asked = some f) : ∃ v₀, (s.party x).view = some v₀ ∧ v₀.asked = some f := by
  rcases hp with heq | hnone | ⟨t, hold, hnew, -⟩
  · exact ⟨v, heq ▸ hv, hf⟩
  · rw [hnone] at hv
    cases hv
  · rw [hnew] at hv
    cases hv
    exact ⟨_, hold, hf⟩

theorem responder (hp : s.Follows x p) {t : Transcript} (hv : p.view = some (.responder t)) :
    (s.party x).view = some (.responder t) := by
  rcases hp with heq | hnone | ⟨t', -, hnew, -⟩
  · exact heq ▸ hv
  · rw [hnone] at hv
    cases hv
  · rw [hnew] at hv
    cases hv

theorem replied (hp : s.Follows x p) (h : Matching s) {t : Transcript}
    (hv : p.view = some (.initiator t)) : Msg.reply t ∈ s.inbox x := by
  rcases hp with heq | hnone | ⟨t', -, hnew, ht'⟩
  · exact h.replied x t (heq ▸ hv)
  · rw [hnone] at hv
    cases hv
  · rw [hnew] at hv
    cases hv
    exact ht'

end Follows

/-- A step that sends nothing and lets the current session of `x` keep what it
asked with, become ready by a reply, or go away. -/
theorem matching_becomes {s : Pairing} (h : Matching s) {x : Side} {p : Party}
    (hp : s.Follows x p) : Matching (s.becomes x p) := by
  refine ⟨?_, ?_, ?_, ?_⟩
  · intro z t hv
    rcases x.eq_or_eq_other z with rfl | rfl
    · rw [becomes_party_self] at hv
      exact hp.replied h hv
    · rw [becomes_party_other] at hv
      exact h.replied _ t hv
  · intro z v v' f f' hv hf hans hv' hf'
    rcases x.eq_or_eq_other z with rfl | rfl
    · rw [becomes_party_self] at hv
      rw [becomes_party_other] at hv'
      obtain ⟨v₀, hv₀, hf₀⟩ := hp.asked hv hf
      exact h.not_crossed z v₀ v' f f' hv₀ hf₀ hans hv' hf'
    · rw [becomes_party_other] at hv
      rw [Side.other_other, becomes_party_self] at hv'
      obtain ⟨v₀, hv₀, hf₀⟩ := hp.asked hv' hf'
      exact h.not_crossed _ v v₀ f f' hv hf hans (by rw [Side.other_other]; exact hv₀) hf₀
  · intro z v t v' hv hf ht hv' hr
    rcases x.eq_or_eq_other z with rfl | rfl
    · rw [becomes_party_self] at hv
      rw [becomes_party_other] at hv'
      obtain ⟨v₀, hv₀, hf₀⟩ := hp.asked hv hf
      exact h.answered z v₀ t v' hv₀ hf₀ ht hv' hr
    · rw [becomes_party_other] at hv
      rw [Side.other_other, becomes_party_self] at hv'
      rcases hp with heq | hnone | ⟨t', hold, hnew, ht'⟩
      · exact h.answered _ v t v' hv hf ht (by rw [Side.other_other, ← heq]; exact hv') hr
      · rw [hnone] at hv'
        cases hv'
      · -- both sides would be initiators with answered first messages
        refine absurd ⟨t', ?_, rfl⟩ (h.not_crossed x.other v _ t.first t'.first hv hf ⟨t, ht, rfl⟩
          (by rw [Side.other_other]; exact hold) rfl)
        rw [Side.other_other]
        exact ht'
  · intro z t t' hv hv'
    rcases x.eq_or_eq_other z with rfl | rfl
    · rw [becomes_party_self] at hv
      rw [becomes_party_other] at hv'
      exact h.not_responders z t t' (hp.responder hv) hv'
    · rw [becomes_party_other] at hv
      rw [Side.other_other, becomes_party_self] at hv'
      exact h.not_responders _ t t' hv (by rw [Side.other_other]; exact hp.responder hv')

theorem matching_step {P : Peers} {s s' : Pairing} {a : Act} (hst : Stamps s) (h : Matching s)
    (hok : AnswerOk s a) (hs : step P s a = some s') : Matching s' := by
  rcases step_cases hs with ⟨x, -, rfl⟩ | ⟨x, f, rfl, -, rfl⟩ | ⟨x, i, t, -, -, hv, ht, rfl⟩ |
    ⟨x, -, rfl⟩
  · exact matching_initiate hst h x
  · exact matching_answer h hok
  · refine matching_becomes h ?_
    rcases Party.view_complete hv with hsame | ⟨hold, hnew⟩
    · exact Or.inl hsame
    · exact Or.inr (Or.inr ⟨t, hold, hnew, ht⟩)
  · exact matching_becomes h (Or.inr (Or.inl rfl))

/-- The invariant holds in every run whose answers all met `AnswerOk`. -/
theorem matching {P : Peers} {s : Pairing} (h : (machine P).ReachVia AnswerOk s) :
    Matching s := by
  refine h.invariant ?_ fun hr hm hok hs => matching_step (stamps hr) hm hok hs
  exact ⟨fun _ _ hv => (nomatch hv), fun _ _ _ _ _ hv => (nomatch hv),
    fun _ _ _ _ hv => (nomatch hv), fun _ _ _ hv => (nomatch hv)⟩

/-- **Two ready current sessions hold matching keys.** -/
theorem Matching.keys {s : Pairing} (h : Matching s) (x : Side) {v v' : View}
    (hv : (s.party x).view = some v) (hv' : (s.party x.other).view = some v')
    (hr : v.isReady = true) (hr' : v'.isReady = true) :
    v.sendKey = v'.recvKey ∧ v'.sendKey = v.recvKey := by
  cases v with
  | unready f => cases hr
  | initiator t =>
    rw [h.answered x _ t v' hv rfl (h.replied x t hv) hv' hr']
    exact ⟨rfl, rfl⟩
  | responder t =>
    cases v' with
    | unready f => cases hr'
    | responder t' => exact absurd hv' (h.not_responders x t t' hv)
    | initiator t' =>
      have hback := h.answered x.other _ t' (.responder t) hv' rfl (h.replied _ t' hv')
        (by rw [Side.other_other]; exact hv) rfl
      cases hback
      exact ⟨rfl, rfl⟩

end Pairing

end EasyTun.Protocol
