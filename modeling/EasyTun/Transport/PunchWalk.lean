import Mathlib.Tactic.Common
import EasyTun.Transport.DirectPath

/-!
# How long a walk through the P2P routes takes (`client_p2p.go`)

`handleP2P` goes through its snapshot in one goroutine. A peer behind a symmetric NAT costs 300
datagrams with a pause of ten milliseconds behind each, so three seconds, in which no other peer
gets a ping. And a peer is kept only if a pong of it came in the last ten seconds, which nobody
sends who gets no ping.

The steps are those of `EasyTun.Transport.P2PRoutes`. A stopwatch notes when the walk began, when
the ports of a peer began to be tried, and of how many peers all ports were tried.

- `Paced`: the pauses take their time, and **no peer that the walk has yet to come to answers
  meanwhile**.
- `four_sprays`: then **a walk tries the ports of four peers at most, and every peer that it comes
  to after the fourth is removed**, also one to which there is a direct path.
-/

namespace EasyTun.Transport.PunchWalk

open EasyTun.Lib EasyTun.Protocol EasyTun.Stun P2PRoutes

/-! ## The stopwatch -/

/-- What the walk has not come to yet. -/
def remaining : Phase → Map (ByteArr 4) Id
  | .select => ∅
  | .range rest | .testing _ _ _ rest | .removing _ _ rest | .alive _ rest | .heartbeat _ rest
  | .punch _ rest | .spray _ _ rest => rest

/-- The statuses of these peers. -/
def waiting (phase : Phase) : List Id := (remaining phase).entries.map (·.2)

/-- `began` is when the ticker fired, `since` when the ports of a peer began to be tried, and
`sprays` of how many peers of this walk all ports were tried. -/
structure Stopwatch where
  began : Int
  since : Int
  sprays : Nat

/-- What the stopwatch makes of a step from `s` to `t`. -/
def Stopwatch.note (o : Stopwatch) (s : Client) (a : Act) (t : Client) : Stopwatch :=
  match a, s.phase, t.phase with
  | .tick, _, _ => { o with began := s.now, sprays := 0 }
  | .body _, .punch .., .spray .. => { o with since := s.now }
  | .body ok, .spray _ i _, _ =>
    if ok = true ∧ i = 199 then { o with sprays := o.sprays + 1 } else o
  | _, _, _ => o

def machine : Machine (Client × Stopwatch) Act :=
  P2PRoutes.machine.observe ⟨0, 0, 0⟩ Stopwatch.note

/-- Which port is tried next. -/
def port : Phase → Option Int
  | .spray _ i _ => some i
  | _ => none

/-- What a worker is about to store as the time at which a peer was seen. -/
def stores : Task → Option (Id × Int)
  | .storeLastSeen _ status t => some (status, t)
  | _ => none

/-- **The condition.** Behind each of the 300 datagrams there is a pause of ten milliseconds,
which `Sleep` does not cut short; the last datagram counts when the pause behind it is over. And
no peer that waits is seen: what is stored for it is from before the walk. -/
def Paced (p : Client × Stopwatch) : Act → Prop
  | .body ok => ∀ i ∈ port p.1.phase, ok = true ∧ i = 199 → p.2.since + 3 ≤ p.1.now
  | .work k _ =>
    ∀ task ∈ p.1.tasks[k]?, ∀ e ∈ stores task, e.1 ∈ waiting p.1.phase → e.2 ≤ p.2.began
  | _ => True

instance (p : Client × Stopwatch) : (a : Act) → Decidable (Paced p a)
  | .body _ => inferInstanceAs (Decidable (∀ i ∈ port p.1.phase, _))
  | .work k _ => inferInstanceAs (Decidable (∀ task ∈ p.1.tasks[k]?, ∀ e ∈ stores task, _))
  | .clock _ | .addP2P .. | .receive .. | .tick | .visit _ | .finish =>
    inferInstanceAs (Decidable True)

/-! ## What a step does -/

/-- **The steps of the walk**, by where they lead. -/
inductive Walks (s : Client) : Act → Phase → Prop where
  | tick : Walks s .tick (.range s.p2pRouter)
  | visit {vIp : ByteArr 4} {status : Id} {st : P2PStatus Addr} {rest : Map (ByteArr 4) Id}
      (hp : s.phase = .range rest) (hlook : rest.lookup vIp = some status)
      (hst : s.objects[status]? = some st) :
      Walks s (.visit vIp) (.testing vIp status st.lastSeen (rest.erase vIp))
  /-- `IsTimeout` says so. -/
  | timedOut {ok : Bool} {vIp : ByteArr 4} {status : Id} {last : Int} {rest : Map (ByteArr 4) Id}
      (hp : s.phase = .testing vIp status last rest) :
      Walks s (.body ok) (.removing vIp status rest)
  | stays {ok : Bool} {vIp : ByteArr 4} {status : Id} {last : Int} {rest : Map (ByteArr 4) Id}
      (hp : s.phase = .testing vIp status last rest) (hin : isTimeout 10 s.now last = false) :
      Walks s (.body ok) (.alive status rest)
  | removed {ok : Bool} {vIp : ByteArr 4} {status : Id} {rest : Map (ByteArr 4) Id}
      (hp : s.phase = .removing vIp status rest) : Walks s (.body ok) (.range rest)
  | established {ok : Bool} {status : Id} {rest : Map (ByteArr 4) Id}
      (hp : s.phase = .alive status rest) : Walks s (.body ok) (.heartbeat status rest)
  | unestablished {ok : Bool} {status : Id} {rest : Map (ByteArr 4) Id}
      (hp : s.phase = .alive status rest) : Walks s (.body ok) (.punch status rest)
  | pinged {ok : Bool} {status : Id} {rest : Map (ByteArr 4) Id}
      (hp : s.phase = .heartbeat status rest) : Walks s (.body ok) (.range rest)
  | punched {ok : Bool} {status : Id} {rest : Map (ByteArr 4) Id}
      (hp : s.phase = .punch status rest) : Walks s (.body ok) (.range rest)
  | symmetric {ok : Bool} {status : Id} {dst : Addr} {rest : Map (ByteArr 4) Id}
      (hp : s.phase = .punch status rest) : Walks s (.body ok) (.spray dst (-100) rest)
  | port {ok : Bool} {dst : Addr} {i : Int} {rest : Map (ByteArr 4) Id}
      (hp : s.phase = .spray dst i rest) (hi : i + 1 < 200) :
      Walks s (.body ok) (.spray dst (i + 1) rest)
  | sprayed {ok : Bool} {dst : Addr} {i : Int} {rest : Map (ByteArr 4) Id}
      (hp : s.phase = .spray dst i rest) : Walks s (.body ok) (.range rest)
  | finish : Walks s .finish .select

variable {s t : Client} {o : Stopwatch} {a : Act}

theorem walks_of_body {ok : Bool} (hs : body s ok = some t) :
    Walks s (.body ok) t.phase ∧ t.objects = s.objects ∧ t.tasks = s.tasks ∧ t.now = s.now := by
  unfold body at hs
  split at hs
  · cases hs
  · cases hs
  · next vIp status last rest hp =>
    obtain rfl := Option.some.inj hs
    refine ⟨?_, rfl, rfl, rfl⟩
    cases hout : isTimeout 10 s.now last with
    | true => exact .timedOut hp
    | false => exact .stays hp hout
  · next vIp status rest hp =>
    obtain rfl := Option.some.inj hs
    refine ⟨.removed hp, ?_⟩
    cases ok <;> exact ⟨rfl, rfl, rfl⟩
  · next status rest hp =>
    obtain ⟨st, -, rfl⟩ := Option.map_eq_some_iff.mp hs
    refine ⟨?_, rfl, rfl, rfl⟩
    cases st.established with
    | true => exact .established hp
    | false => exact .unestablished hp
  · next status rest hp =>
    obtain ⟨st, -, rfl⟩ := Option.map_eq_some_iff.mp hs
    exact ⟨.pinged hp, rfl, rfl, rfl⟩
  · next status rest hp =>
    obtain ⟨st, -, rfl⟩ := Option.map_eq_some_iff.mp hs
    unfold punch
    split
    · exact ⟨.punched hp, rfl, rfl, rfl⟩
    · split
      · exact ⟨.symmetric hp, rfl, rfl, rfl⟩
      · exact ⟨.punched hp, rfl, rfl, rfl⟩
  · next dst i rest hp =>
    obtain rfl := Option.some.inj hs
    refine ⟨?_, rfl, rfl, rfl⟩
    dsimp only
    split
    · next hgo => exact .port hp hgo.2
    · exact .sprayed hp

/-- **Inversion.** A step of the walk leaves the statuses, the workers and the clock alone. -/
theorem walks_of_step (ha : a.ofWalk = true) (hs : step s a = some t) :
    Walks s a t.phase ∧ t.objects = s.objects ∧ t.tasks = s.tasks ∧ t.now = s.now := by
  cases a with
  | tick =>
    rw [tick_eq hs]
    exact ⟨.tick, rfl, rfl, rfl⟩
  | visit vIp =>
    obtain ⟨rest, status, st, hp, hlook, hst, rfl⟩ := visit_eq hs
    exact ⟨.visit hp hlook hst, rfl, rfl, rfl⟩
  | finish =>
    rw [finish_eq hs]
    exact ⟨.finish, rfl, rfl, rfl⟩
  | body ok => exact walks_of_body hs
  | clock | addP2P | receive | work => cases ha

/-! ## Nothing is seen in the future -/

/-- What is stored as the time at which a peer was seen is not in the future. -/
structure Past (s : Client) : Prop where
  objects : ∀ (status : Id) (st : P2PStatus Addr), s.objects[status]? = some st →
    st.lastSeen ≤ s.now
  tasks : ∀ v status last, .storeLastSeen v status last ∈ s.tasks → last ≤ s.now

/-- A worker that is about to store a time has read it from the clock. -/
theorem now_of_perform {room : Bool} {task : Task} {v : ByteArr 4} {status : Id} {last : Int}
    (h : .storeLastSeen v status last ∈ (perform s room task).2.toList) : last = s.now := by
  cases task with
  | setDstAddr v status addr pong =>
    obtain ⟨-, heq⟩ := guardTo_eq_some.mp (Option.mem_toList.mp h)
    cases heq
  | timeNow v status =>
    obtain heq := Option.mem_toList.mp h
    cases heq
    rfl
  | storeLastSeen | storeEstablished => cases Option.mem_toList.mp h

theorem now_perform (room : Bool) (task : Task) : (perform s room task).1.now = s.now := by
  cases task with
  | storeEstablished => cases room <;> rfl
  | setDstAddr | timeNow | storeLastSeen => rfl

/-- The only task that changes the time at which a peer was seen. -/
theorem lastSeen_effect (task : Task) (st : P2PStatus Addr) :
    (DirectPath.effect task st).lastSeen = st.lastSeen ∨
      ∃ v last, task = .storeLastSeen v (DirectPath.taskStatus task) last ∧
        (DirectPath.effect task st).lastSeen = last := by
  cases task with
  | storeLastSeen v status last => exact .inr ⟨v, last, rfl, rfl⟩
  | setDstAddr | timeNow | storeEstablished => exact .inl rfl

/-- **What a worker does to a status**, if it is the one of its task. -/
theorem lastSeen_work {task : Task} {room : Bool} {status : Id} {st : P2PStatus Addr}
    (hst : (perform s room task).1.objects[status]? = some st) :
    ∃ st₀, s.objects[status]? = some st₀ ∧
      (st.lastSeen = st₀.lastSeen ∨ ∃ v last, task = .storeLastSeen v status last ∧
        st.lastSeen = last) := by
  rw [DirectPath.perform_objects, List.getElem?_modify] at hst
  obtain ⟨st₀, hst₀, rfl⟩ := Option.map_eq_some_iff.mp hst
  refine ⟨st₀, hst₀, ?_⟩
  split
  · next heq => exact heq ▸ lastSeen_effect task st₀
  · exact .inl rfl

theorem Past.step (h : Past s) (hs : step s a = some t) : Past t := by
  cases a with
  | clock seconds =>
    obtain rfl := Option.some.inj hs
    refine ⟨fun status st hst => ?_, fun v status last hlast => ?_⟩
    · exact Int.le_trans (h.objects status st hst) (Int.le_add_of_nonneg_right (by omega))
    · exact Int.le_trans (h.tasks v status last hlast) (Int.le_add_of_nonneg_right (by omega))
  | addP2P vIp addr natType =>
    obtain rfl := Option.some.inj hs
    refine ⟨fun status st hst => ?_, h.tasks⟩
    rcases List.mem_append.mp (List.mem_of_getElem? hst) with hmem | hmem
    · obtain ⟨i, hi⟩ := List.getElem?_of_mem hmem
      exact h.objects i st hi
    · rw [List.mem_singleton.mp hmem]
      exact Int.le_refl _
  | receive pong srcVIp addr =>
    obtain rfl := Option.some.inj hs
    unfold receive
    split
    · exact h
    · refine ⟨h.objects, fun v status last hlast => ?_⟩
      rcases List.mem_append.mp hlast with hmem | hmem
      · exact h.tasks v status last hmem
      · cases List.mem_singleton.mp hmem
  | work k room =>
    obtain ⟨task, htask, rfl⟩ := Option.map_eq_some_iff.mp hs
    have hnow := now_perform (s := s) room task
    refine ⟨fun status st hst => ?_, fun v status last hlast => ?_⟩
    · show st.lastSeen ≤ (perform s room task).1.now
      rw [hnow]
      obtain ⟨st₀, hst₀, hsame | ⟨v, last, rfl, hlast⟩⟩ := lastSeen_work hst
      · rw [hsame]
        exact h.objects status st₀ hst₀
      · rw [hlast]
        exact h.tasks v status last (List.mem_of_getElem? htask)
    · show last ≤ (perform s room task).1.now
      rw [hnow]
      rcases List.mem_append.mp hlast with hmem | hmem
      · exact h.tasks v status last (List.mem_of_mem_eraseIdx hmem)
      · exact Int.le_of_eq (now_of_perform hmem)
  | tick | visit | body | finish =>
    obtain ⟨-, hobjects, htasks, hnow⟩ := walks_of_step rfl hs
    refine ⟨fun status st hst => ?_, fun v status last hlast => ?_⟩
    · rw [hnow]
      exact h.objects status st (hobjects ▸ hst)
    · rw [hnow]
      exact h.tasks v status last (htasks ▸ hlast)

/-! ## The invariant -/

/-- What the stopwatch says, by where the walk is. -/
def Stopwatch.Ok (o : Stopwatch) (now : Int) : Phase → Prop
  | .select => o.sprays ≤ 4
  | .range _ | .removing .. => o.began + 3 * o.sprays ≤ now ∧ o.sprays ≤ 4
  | .testing _ _ last _ => o.began + 3 * o.sprays ≤ now ∧ o.sprays ≤ 4 ∧ last ≤ o.began
  -- the peer was not timed out, so the walk began ten seconds ago or later
  | .alive .. | .heartbeat .. | .punch .. => o.began + 3 * o.sprays ≤ now ∧ o.sprays ≤ 3
  | .spray .. => o.began + 3 * o.sprays ≤ o.since ∧ o.since ≤ now ∧ o.sprays ≤ 3

theorem Stopwatch.Ok.mono {now now' : Int} {phase : Phase} (h : o.Ok now phase)
    (hle : now ≤ now') : o.Ok now' phase := by
  cases phase <;> simp only [Stopwatch.Ok] at h ⊢ <;> omega

structure Inv (s : Client) (o : Stopwatch) : Prop where
  allocated : Allocated s
  past : Past s
  /-- No peer that waits was seen since the walk began. -/
  seen : ∀ status ∈ waiting s.phase, ∀ st : P2PStatus Addr, s.objects[status]? = some st →
    st.lastSeen ≤ o.began
  clock : o.Ok s.now s.phase

/-- What waits was there when the walk began, so a status that is made meanwhile is another. -/
theorem waiting_lt (h : Allocated s) {status : Id} (hw : status ∈ waiting s.phase) :
    status < s.objects.length := by
  obtain ⟨⟨v, id⟩, hmem, rfl⟩ := List.mem_map.mp hw
  have hlook : id ∈ ((remaining s.phase).lookup v).toList :=
    Option.mem_toList.mpr (AList.mem_lookup_iff.mpr hmem)
  refine h.due v id ?_
  cases hp : s.phase with
  | select =>
    rw [hp] at hlook
    cases hlook
  | testing vIp status last rest =>
    rw [hp] at hlook
    exact mem_due_testing hlook
  | removing vIp status rest =>
    rw [hp] at hlook
    exact mem_due_removing hlook
  | range | alive | heartbeat | punch | spray =>
    rw [hp] at hlook
    exact hlook

/-- Steps of the others: the walk is where it was. -/
theorem Inv.others (h : Inv s o) (hok : Paced (s, o) a) (ha : a.ofWalk = false)
    (hs : step s a = some t) : Inv t (o.note s a t) := by
  have hallocated := h.allocated.step hs
  have hpast := h.past.step hs
  cases a with
  | clock seconds =>
    obtain rfl := Option.some.inj hs
    exact ⟨hallocated, hpast, h.seen, h.clock.mono (Int.le_add_of_nonneg_right (by omega))⟩
  | addP2P vIp addr natType =>
    obtain rfl := Option.some.inj hs
    refine ⟨hallocated, hpast, fun status hw st hst => ?_, h.clock⟩
    have hlt := waiting_lt h.allocated hw
    exact h.seen status hw st ((List.getElem?_append_left hlt).symm.trans hst)
  | receive pong srcVIp addr =>
    obtain rfl := Option.some.inj hs
    -- a worker more, and nothing else
    have hsame : (receive s pong srcVIp addr).objects = s.objects ∧
        (receive s pong srcVIp addr).phase = s.phase ∧
        (receive s pong srcVIp addr).now = s.now := by
      unfold receive
      split <;> exact ⟨rfl, rfl, rfl⟩
    obtain ⟨hobjects, hphase, hnow⟩ := hsame
    refine ⟨hallocated, hpast, ?_, ?_⟩
    · rw [hobjects, hphase]
      exact h.seen
    · rw [hnow, hphase]
      exact h.clock
  | work k room =>
    obtain ⟨task, htask, rfl⟩ := Option.map_eq_some_iff.mp hs
    have hphase := phase_perform (s := s) room task
    refine ⟨hallocated, hpast, fun status hw st hst => ?_, ?_⟩
    · have hw : status ∈ waiting s.phase := hphase ▸ hw
      obtain ⟨st₀, hst₀, hsame | ⟨v, last, rfl, hlast⟩⟩ := lastSeen_work hst
      · rw [hsame]
        exact h.seen status hw st₀ hst₀
      · rw [hlast]
        exact hok _ htask (status, last) rfl hw
    · show o.Ok (perform s room task).1.now (perform s room task).1.phase
      rw [hphase, now_perform]
      exact h.clock
  | tick | visit | body | finish => cases ha

theorem waiting_walks {phase : Phase} (hw : Walks s a phase) (ha : a ≠ .tick) :
    waiting phase ⊆ waiting s.phase := by
  cases hw with
  | tick => exact absurd rfl ha
  | finish => exact List.nil_subset _
  | visit hp =>
    rw [hp]
    exact List.map_subset _ (List.Sublist.subset (List.kerase_sublist _ _))
  | timedOut hp | stays hp | removed hp | established hp | unestablished hp | pinged hp
  | punched hp | symmetric hp | port hp | sprayed hp =>
    rw [hp]
    exact List.Subset.refl _

theorem began_note (ha : a ≠ .tick) : (o.note s a t).began = o.began := by
  unfold Stopwatch.note
  split
  · exact absurd rfl ha
  · rfl
  · split <;> rfl
  · rfl

/-- **The stopwatch along the walk.** -/
theorem clock_walks (h : Inv s o) (hok : Paced (s, o) a) (hw : Walks s a t.phase) :
    (o.note s a t).Ok s.now t.phase := by
  have hclock := h.clock
  obtain ⟨phase, hphase⟩ : ∃ phase, phase = t.phase := ⟨_, rfl⟩
  rw [← hphase] at hw
  unfold Stopwatch.note
  rw [← hphase]
  cases hw with
  | tick =>
    simp only [Stopwatch.Ok]
    omega
  | finish =>
    cases hp : s.phase <;> rw [hp] at hclock <;> simp only [Stopwatch.Ok] at hclock ⊢ <;> omega
  | @visit vIp status st rest hp hlook hst =>
    have hwaits : status ∈ waiting s.phase := by
      rw [hp]
      exact List.mem_map_of_mem (AList.mem_lookup_iff.mp hlook)
    have hlast := h.seen status hwaits st hst
    rw [hp] at hclock ⊢
    exact ⟨hclock.1, hclock.2, hlast⟩
  | timedOut hp =>
    rw [hp] at hclock ⊢
    exact ⟨hclock.1, hclock.2.1⟩
  | @stays ok vIp status last rest hp hin =>
    rw [hp] at hclock ⊢
    obtain ⟨hbegan, -, hlast⟩ := hclock
    rw [isTimeout, decide_eq_false_iff_not] at hin
    have hle : o.sprays ≤ 3 := by omega
    exact ⟨hbegan, hle⟩
  | removed hp =>
    rw [hp] at hclock ⊢
    exact hclock
  | established hp | unestablished hp =>
    rw [hp] at hclock ⊢
    exact hclock
  | pinged hp | punched hp =>
    rw [hp] at hclock ⊢
    exact ⟨hclock.1, Nat.le_succ_of_le hclock.2⟩
  | symmetric hp =>
    rw [hp] at hclock ⊢
    exact ⟨hclock.1, Int.le_refl _, hclock.2⟩
  | @port ok dst i rest hp hi =>
    have hnot : ¬(ok = true ∧ i = 199) := by omega
    rw [hp] at hclock
    simp only [hp, if_neg hnot]
    exact hclock
  | @sprayed ok dst i rest hp =>
    obtain ⟨hbegan, hsince, hle⟩ : o.began + 3 * o.sprays ≤ o.since ∧ o.since ≤ s.now ∧
        o.sprays ≤ 3 := by
      rw [hp] at hclock
      exact hclock
    have hport : i ∈ port s.phase := by rw [hp]; rfl
    simp only [hp]
    split
    · next hlast =>
      have hpaused : o.since + 3 ≤ s.now := hok i hport hlast
      refine ⟨?_, Nat.succ_le_succ hle⟩
      push_cast
      omega
    · exact ⟨Int.le_trans hbegan hsince, Nat.le_succ_of_le hle⟩

theorem Inv.walk (h : Inv s o) (hok : Paced (s, o) a) (ha : a.ofWalk = true)
    (hs : step s a = some t) : Inv t (o.note s a t) := by
  obtain ⟨hwalks, hobjects, -, hnow⟩ := walks_of_step ha hs
  refine ⟨h.allocated.step hs, h.past.step hs, fun status hw st hst => ?_, ?_⟩
  · rw [hobjects] at hst
    by_cases htick : a = .tick
    · -- a new walk begins
      subst htick
      exact h.past.objects status st hst
    · rw [began_note htick]
      exact h.seen status (waiting_walks hwalks htick hw) st hst
  · rw [hnow]
    exact clock_walks h hok hwalks

theorem inv_of_reach {p : Client × Stopwatch} (hr : machine.ReachVia Paced p) : Inv p.1 p.2 := by
  refine hr.invariant (P := fun p => Inv p.1 p.2) ?_ ?_
  · refine ⟨⟨?_, ?_, ?_⟩, ⟨?_, ?_⟩, ?_, Nat.zero_le _⟩
    all_goals
      intros
      contradiction
  · rintro ⟨s, o⟩ ⟨t, o'⟩ a - hI hok hstep
    obtain ⟨hs, ho⟩ := Machine.step_of_observe hstep
    have ho : o' = o.note s a t := ho
    rw [ho]
    cases ha : a.ofWalk with
    | true => exact hI.walk hok ha hs
    | false => exact hI.others hok ha hs

/-! ## Four peers at most -/

/-- The walk is about to send a ping to a peer, or is doing it. -/
def pings : Phase → Bool
  | .alive .. | .heartbeat .. | .punch .. | .spray .. => true
  | .select | .range _ | .testing .. | .removing .. => false

/-- **A walk tries the ports of four peers at most.** And after the fourth it removes every peer
that it comes to: it sends no ping any more, also not to a peer to which there is a direct path. -/
theorem four_sprays {p : Client × Stopwatch} (hr : machine.ReachVia Paced p) :
    p.2.sprays ≤ 4 ∧ (p.2.sprays = 4 → pings p.1.phase = false) := by
  have hclock := (inv_of_reach hr).clock
  cases hp : p.1.phase with
  | select =>
    rw [hp] at hclock
    exact ⟨hclock, fun _ => rfl⟩
  | range | removing =>
    rw [hp] at hclock
    exact ⟨hclock.2, fun _ => rfl⟩
  | testing =>
    rw [hp] at hclock
    exact ⟨hclock.2.1, fun _ => rfl⟩
  | alive | heartbeat | punch =>
    rw [hp] at hclock
    have hle := hclock.2
    exact ⟨by omega, fun _ => by omega⟩
  | spray =>
    rw [hp] at hclock
    have hle := hclock.2.2
    exact ⟨by omega, fun _ => by omega⟩

section Walks

/-- Peers behind symmetric NATs. -/
def symmetricPeers : List (ByteArr 4) :=
  [.four 10 0 6 4, .four 10 0 6 5, .four 10 0 6 6, .four 10 0 6 7]

/-- The walk comes to a peer, tries its 300 ports, and three seconds are over. -/
def spray (v : ByteArr 4) : List Act :=
  [.visit v, .body true, .body true, .body true] ++ List.replicate 299 (.body true) ++
    [.clock 3, .body true]

/-- There is a direct path to a peer, when the server names four others. The walk comes to them
first, and then to the peer: it is removed. -/
theorem four_sprays_removes :
    ∃ p, machine.ReachVia Paced p ∧ p.2.sprays = 4 ∧ p.1.p2pRouter.lookup (sampleIp 3) = none ∧
      (p.1.objects[0]?.map (·.established)) = some true ∧ pings p.1.phase = false := by
  obtain ⟨p, hr, hfour, hgone, hest⟩ : ∃ p, machine.ReachVia Paced p ∧ p.2.sprays = 4 ∧
      p.1.p2pRouter.lookup (sampleIp 3) = none ∧
      (p.1.objects[0]?.map (·.established)) = some true :=
    Machine.exists_reachVia
      ([.addP2P (sampleIp 3) caseAddr typeCone, .receive true (sampleIp 3) caseAddr, .work 0 true,
        .work 0 true, .work 0 true, .work 0 true] ++
      symmetricPeers.map (.addP2P · caseAddr' typeSymmetric) ++ [.tick] ++
      symmetricPeers.flatMap spray ++ [.visit (sampleIp 3), .body true, .body true])
      (by decide +kernel)
  exact ⟨p, hr, hfour, hgone, hest, (four_sprays hr).2 hfour⟩

end Walks

end EasyTun.Transport.PunchWalk
