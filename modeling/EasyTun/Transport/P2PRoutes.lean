import Mathlib.Tactic.Common
import EasyTun.Lib.Machine
import EasyTun.Lib.Maps
import EasyTun.Protocol.Packet
import EasyTun.Stun.Tunnels

/-!
# The P2P routes of a client

`p2pRouter` is a copy-on-write map from virtual addresses to statuses. Every three
seconds `handleP2P` loads it once and walks through what it loaded: a status that was
not seen for ten seconds is removed by its address, one that is established gets a
ping, and for any other a hole is punched, which takes three seconds when the peer is
behind a symmetric NAT. Meanwhile `controlRecv` installs statuses with `addP2P`, and
the workers of `packetRecv` write to statuses they looked up before.

Statuses are objects with an identity, so that a route can be told from the one that
replaced it. The order of the walk, the outcome of a write and the time that goes by
are chosen by the environment. `routerMtx` is held over all of `addP2P` and of
`removeP2P`, which are one step each.

- `removed_is_timed_out`: **a route that is removed was not seen for ten seconds**, if
  a status that the walk finds timed out has neither been replaced nor seen meanwhile, and is
  neither until it is removed.
- `removed_fresh`: a route installed during a punch is removed for the age of the one
  it replaced.
- `removed_seen`: a route is removed after a pong that came behind the test.
- `walk_goes_on`: the walk always has a next step, so it follows no pointer to nowhere.
-/

namespace EasyTun.Transport.P2PRoutes

open EasyTun.Lib EasyTun.Protocol EasyTun.Stun

/-! ## The client -/

/-- `net.UDPAddr`. A guessed port may leave the range. -/
structure Addr where
  ip : Bytes
  port : Int
  deriving DecidableEq

/-- A pointer to a status. -/
abbrev Id := Nat

/-- Where `handleP2P` is, and what is left of its snapshot. -/
inductive Phase where
  /-- It waits for the ticker. -/
  | select
  /-- It takes the next entry. -/
  | range (rest : Map (ByteArr 4) Id)
  /-- It has loaded `LastSeen` in `IsTimeout`. -/
  | testing (vIp : ByteArr 4) (status : Id) (last : Int) (rest : Map (ByteArr 4) Id)
  /-- The status is timed out, and `removeP2P` is next. -/
  | removing (vIp : ByteArr 4) (status : Id) (rest : Map (ByteArr 4) Id)
  /-- The status is not, and `Established` is loaded next. -/
  | alive (status : Id) (rest : Map (ByteArr 4) Id)
  | heartbeat (status : Id) (rest : Map (ByteArr 4) Id)
  | punch (status : Id) (rest : Map (ByteArr 4) Id)
  /-- It tries the ports around the one of a symmetric NAT, `i` next. -/
  | spray (dst : Addr) (i : Int) (rest : Map (ByteArr 4) Id)

/-- What a worker of `packetRecv` does next to the status it looked up. -/
inductive Task where
  /-- `SetDstAddr`, for a ping or for a pong. -/
  | setDstAddr (vIp : ByteArr 4) (status : Id) (addr : Addr) (pong : Bool)
  /-- `time.Now()` in `UpdateLastSeen`. -/
  | timeNow (vIp : ByteArr 4) (status : Id)
  | storeLastSeen (vIp : ByteArr 4) (status : Id) (t : Int)
  | storeEstablished (vIp : ByteArr 4) (status : Id)

/-- What the goroutines share about direct paths, and where each of them is. -/
structure Client where
  now : Int
  /-- The statuses there are, each at its pointer. -/
  objects : List (P2PStatus Addr)
  p2pRouter : Map (ByteArr 4) Id
  phase : Phase
  tasks : List Task
  /-- Where pings were sent, the last one first. -/
  sent : List Addr
  /-- Type and destination of what was queued for the server, the last one first. -/
  control : List (UInt8 × ByteArr 4)

/-- A client without direct paths. -/
def start : Client :=
  { now := 0, objects := [], p2pRouter := ∅, phase := .select, tasks := [], sent := [],
    control := [] }

/-- `addP2P` (client_p2p.go:94–108). -/
def addP2P (s : Client) (vIp : ByteArr 4) (addr : Addr) (natType : UInt8) : Client :=
  { s with
    objects := s.objects ++ [.new natType addr s.now]
    p2pRouter := s.p2pRouter.insert vIp s.objects.length }

/-- A packet for the server, dropped if `ControlSendChan` is full. -/
def notify (s : Client) (room : Bool) (pType : UInt8) (vIp : ByteArr 4) : Client :=
  if room then { s with control := (pType, vIp) :: s.control } else s

/-- `removeP2P` (client_p2p.go:111–129). -/
def removeP2P (s : Client) (vIp : ByteArr 4) (room : Bool) : Client :=
  notify { s with p2pRouter := s.p2pRouter.erase vIp } room typeP2PClosed vIp

/-- A ping or a pong of a peer: the worker looks its status up (client_udp.go:177–200). -/
def receive (s : Client) (pong : Bool) (srcVIp : ByteArr 4) (addr : Addr) : Client :=
  match s.p2pRouter.lookup srcVIp with
  | none => s
  | some status => { s with tasks := s.tasks ++ [.setDstAddr srcVIp status addr pong] }

/-- The status behind a pointer changes, for everybody who has the pointer. -/
def modify (s : Client) (status : Id) (f : P2PStatus Addr → P2PStatus Addr) : Client :=
  { s with objects := s.objects.modify status f }

/-- One step of a worker, and what it does after it. -/
def perform (s : Client) (room : Bool) : Task → Client × Option Task
  | .setDstAddr vIp status addr pong =>
    (modify s status ({ · with dstAddr := addr }), guardTo pong (.timeNow vIp status))
  | .timeNow vIp status => (s, some (.storeLastSeen vIp status s.now))
  | .storeLastSeen vIp status t =>
    (modify s status ({ · with lastSeen := t }), some (.storeEstablished vIp status))
  | .storeEstablished vIp status =>
    (notify (modify s status ({ · with established := true })) room typeP2PEstablished vIp, none)

/-- `punch` (client_p2p.go:51–73), up to the first port of a symmetric NAT. -/
def punch (s : Client) (status : P2PStatus Addr) (rest : Map (ByteArr 4) Id) : Client :=
  if status.dstNatType = typeCone then
    { s with sent := status.dstAddr :: s.sent, phase := .range rest }
  else if status.dstNatType = typeSymmetric then
    { s with phase := .spray status.dstAddr (-100) rest }
  else { s with phase := .range rest }

/-- One step of the body of the walk (client_p2p.go:26–43). `ok`: the write succeeds,
or `ControlSendChan` has room. -/
def body (s : Client) (ok : Bool) : Option Client :=
  match s.phase with
  | .select | .range _ => none
  | .testing vIp status last rest =>
    some { s with
      phase := if isTimeout 10 s.now last then .removing vIp status rest else .alive status rest }
  | .removing vIp _ rest => some { removeP2P s vIp ok with phase := .range rest }
  | .alive status rest =>
    s.objects[status]?.map fun st =>
      { s with phase := if st.established then .heartbeat status rest else .punch status rest }
  | .heartbeat status rest =>
    s.objects[status]?.map fun st =>
      { s with sent := st.dstAddr :: s.sent, phase := .range rest }
  | .punch status rest => s.objects[status]?.map fun st => punch s st rest
  | .spray dst i rest =>
    some { s with
      sent := { dst with port := dst.port + i } :: s.sent
      phase := if ok = true ∧ i + 1 < 200 then .spray dst (i + 1) rest else .range rest }

/-- What the server, the network, the clock and the goroutines do. -/
inductive Act where
  /-- Time goes by. -/
  | clock (seconds : Nat)
  /-- `controlRecv` gets a command of the server. -/
  | addP2P (vIp : ByteArr 4) (addr : Addr) (natType : UInt8)
  | receive (pong : Bool) (srcVIp : ByteArr 4) (addr : Addr)
  /-- A worker makes a step. -/
  | work (k : Nat) (room : Bool)
  /-- The ticker fires, and the table is loaded. -/
  | tick
  /-- The walk comes to a peer: a map is walked in any order. -/
  | visit (vIp : ByteArr 4)
  | body (ok : Bool)
  /-- The walk is over. -/
  | finish

/-- One step of one of them. -/
def step (s : Client) : Act → Option Client
  | .clock seconds => some { s with now := s.now + seconds }
  | .addP2P vIp addr natType => some (addP2P s vIp addr natType)
  | .receive pong srcVIp addr => some (receive s pong srcVIp addr)
  | .work k room =>
    s.tasks[k]?.map fun task =>
      let (s', next) := perform s room task
      { s' with tasks := s.tasks.eraseIdx k ++ next.toList }
  | .tick =>
    match s.phase with
    | .select => some { s with phase := .range s.p2pRouter }
    | _ => none
  | .visit vIp =>
    match s.phase with
    | .range rest =>
      (rest.lookup vIp).bind fun status =>
        s.objects[status]?.map fun st =>
          { s with phase := .testing vIp status st.lastSeen (rest.erase vIp) }
    | _ => none
  | .body ok => body s ok
  | .finish =>
    match s.phase with
    | .range rest => guardTo (rest.keys = []) { s with phase := .select }
    | _ => none

/-- A client from its start. -/
def machine : Machine Client Act := { init := start, step }

/-! ## The walk and the others -/

/-- What the walk has for a peer that it may still remove. -/
def Phase.due : Phase → ByteArr 4 → List Id
  | .select, _ => []
  | .range rest, v | .alive _ rest, v | .heartbeat _ rest, v | .punch _ rest, v
  | .spray _ _ rest, v => (rest.lookup v).toList
  | .testing vIp status _ rest, v | .removing vIp status rest, v =>
    if v = vIp then status :: (rest.lookup v).toList else (rest.lookup v).toList

/-- The peer that the walk is about to remove, and the status that it has found timed out. -/
def Phase.condemned : Phase → Option (ByteArr 4 × Id)
  | .removing vIp status _ => some (vIp, status)
  | _ => none

/-- The status that the walk reads next, when it will not remove it. -/
def Phase.reads : Phase → Option Id
  | .alive status _ | .heartbeat status _ | .punch status _ => some status
  | _ => none

/-- The status whose `LastSeen` a task is about to set. -/
def Task.sees : Task → Option Id
  | .storeLastSeen _ status _ => some status
  | _ => none

/-- `LastSeen` of a status. -/
def Client.lastSeen (s : Client) (status : Id) : Option Int :=
  s.objects[status]?.map P2PStatus.lastSeen

/-- The status is timed out at this moment. -/
def Client.TimedOut (s : Client) (status : Id) : Prop :=
  ∃ last, s.lastSeen status = some last ∧ isTimeout 10 s.now last = true

/-- If the walk is about to find a status timed out, the table has no other one for the peer, and
`LastSeen` was not stored since it was loaded. -/
def Client.UpToDate (s : Client) : Prop :=
  match s.phase with
  | .testing vIp status last _ => isTimeout 10 s.now last = true →
      (∀ current ∈ s.p2pRouter.lookup vIp, current = status) ∧ s.lastSeen status = some last
  | _ => True

instance (s : Client) : Decidable s.UpToDate := by
  unfold Client.UpToDate
  split <;> infer_instance

/-- **The condition**: a status that the walk finds timed out has neither been replaced in the
table nor seen meanwhile, and until the walk has acted no route is installed for its peer and
the status is not seen. -/
def Orderly (s : Client) : Act → Prop
  | .body _ => s.UpToDate
  | .addP2P vIp _ _ => ∀ c ∈ s.phase.condemned, c.1 ≠ vIp
  | .work k _ => ∀ task ∈ s.tasks[k]?, ∀ status ∈ task.sees, ∀ c ∈ s.phase.condemned, c.2 ≠ status
  | _ => True

instance (s : Client) : (a : Act) → Decidable (Orderly s a)
  | .body _ => inferInstanceAs (Decidable s.UpToDate)
  | .addP2P vIp _ _ => inferInstanceAs (Decidable (∀ c ∈ s.phase.condemned, c.1 ≠ vIp))
  | .work k _ => inferInstanceAs (Decidable (∀ task ∈ s.tasks[k]?, ∀ status ∈ task.sees,
      ∀ c ∈ s.phase.condemned, c.2 ≠ status))
  | .clock _ | .receive .. | .tick | .visit _ | .finish => inferInstanceAs (Decidable True)

/-- The walk is right about what it is about to remove: it is what the table has, if anything, and
it is timed out. -/
def Inv (s : Client) : Prop :=
  ∀ vIp status, s.phase.condemned = some (vIp, status) →
    (∀ current, s.p2pRouter.lookup vIp = some current → current = status) ∧ s.TimedOut status

variable {s t : Client}

theorem Client.TimedOut.mono {status : Id} (h : s.TimedOut status) (hnow : s.now ≤ t.now)
    (hseen : ∀ last, s.lastSeen status = some last → t.lastSeen status = some last) :
    t.TimedOut status := by
  obtain ⟨last, hlast, hout⟩ := h
  refine ⟨last, hseen last hlast, ?_⟩
  rw [isTimeout, decide_eq_true_eq] at hout ⊢
  omega

/-- **What the others may do while the walk is where it is.** -/
structure Around (s t : Client) : Prop where
  phase : t.phase = s.phase
  now : s.now ≤ t.now
  router : ∀ c ∈ s.phase.condemned, t.p2pRouter.lookup c.1 = s.p2pRouter.lookup c.1
  seen : ∀ c ∈ s.phase.condemned, ∀ last, s.lastSeen c.2 = some last → t.lastSeen c.2 = some last

theorem Inv.around (h : Inv s) (ha : Around s t) : Inv t := by
  intro vIp status hc
  rw [ha.phase] at hc
  obtain ⟨hcurrent, hout⟩ := h vIp status hc
  have hrouter : t.p2pRouter.lookup vIp = s.p2pRouter.lookup vIp := ha.router _ hc
  rw [hrouter]
  exact ⟨hcurrent, hout.mono ha.now (ha.seen _ hc)⟩

/-! ## Steps of the others -/

theorem lastSeen_modify (status : Id) (f : P2PStatus Addr → P2PStatus Addr) (id : Id)
    (h : status = id → ∀ st, (f st).lastSeen = st.lastSeen) :
    (modify s status f).lastSeen id = s.lastSeen id := by
  unfold Client.lastSeen modify
  rw [List.getElem?_modify]
  cases hst : s.objects[id]? with
  | none => rfl
  | some st =>
    by_cases heq : status = id
    · simpa [heq] using h heq st
    · simp [heq]

theorem around_addP2P {vIp : ByteArr 4} (addr : Addr) (natType : UInt8)
    (hne : ∀ c ∈ s.phase.condemned, c.1 ≠ vIp) : Around s (addP2P s vIp addr natType) where
  phase := rfl
  now := Int.le_refl _
  router c hc := AList.lookup_insert_ne (hne c hc)
  seen c _ last hlast := by
    obtain ⟨st, hst, rfl⟩ := Option.map_eq_some_iff.mp hlast
    have hlt : c.2 < s.objects.length := (List.getElem?_eq_some_iff.mp hst).1
    unfold Client.lastSeen addP2P
    rw [List.getElem?_append_left hlt, hst]
    rfl

theorem around_modify {status : Id} {f : P2PStatus Addr → P2PStatus Addr}
    (h : ∀ c ∈ s.phase.condemned, status = c.2 → ∀ st, (f st).lastSeen = st.lastSeen) :
    Around s (modify s status f) where
  phase := rfl
  now := Int.le_refl _
  router _ _ := rfl
  seen c hc last hlast := by
    rw [← hlast]
    exact lastSeen_modify status f c.2 (h c hc)

theorem Around.notify (h : Around s t) (room : Bool) (pType : UInt8) (vIp : ByteArr 4) :
    Around s (notify t room pType vIp) := by
  cases room <;> exact ⟨h.phase, h.now, h.router, h.seen⟩

theorem around_perform (room : Bool) {task : Task}
    (hsees : ∀ status ∈ task.sees, ∀ c ∈ s.phase.condemned, c.2 ≠ status) :
    Around s (perform s room task).1 := by
  cases task with
  | setDstAddr vIp status addr pong => exact around_modify fun _ _ _ _ => rfl
  | timeNow vIp status => exact ⟨rfl, Int.le_refl _, fun _ _ => rfl, fun _ _ _ hlast => hlast⟩
  | storeLastSeen vIp status t =>
    -- the one write that matters to the walk
    exact around_modify fun c hc heq => absurd heq.symm (hsees status rfl c hc)
  | storeEstablished vIp status =>
    have hmodify : Around s (modify s status ({ · with established := true })) :=
      around_modify fun _ _ _ _ => rfl
    exact hmodify.notify room typeP2PEstablished vIp

theorem around_receive (pong : Bool) (srcVIp : ByteArr 4) (addr : Addr) :
    Around s (receive s pong srcVIp addr) := by
  unfold receive
  split <;> exact ⟨rfl, Int.le_refl _, fun _ _ => rfl, fun _ _ _ hlast => hlast⟩

/-! ## Steps of the walk -/

/-- Taking an entry out of what is left does not change what is due. -/
theorem due_testing {vIp v : ByteArr 4} {status : Id} {last : Int} {rest : Map (ByteArr 4) Id}
    (hlook : rest.lookup vIp = some status) :
    (Phase.testing vIp status last (rest.erase vIp)).due v = (Phase.range rest).due v := by
  dsimp only [Phase.due]
  by_cases hv : v = vIp
  · rw [if_pos hv, hv, hlook, AList.lookup_erase]
    rfl
  · rw [if_neg hv, AList.lookup_erase_ne hv]

theorem mem_due_testing {vIp v : ByteArr 4} {status id : Id} {last : Int}
    {rest : Map (ByteArr 4) Id} (h : id ∈ (rest.lookup v).toList) :
    id ∈ (Phase.testing vIp status last rest).due v := by
  dsimp only [Phase.due]
  split
  · exact List.mem_cons_of_mem _ h
  · exact h

theorem mem_due_self {vIp : ByteArr 4} {status : Id} (last : Int) {rest : Map (ByteArr 4) Id} :
    status ∈ (Phase.testing vIp status last rest).due vIp := by
  dsimp only [Phase.due]
  rw [if_pos rfl]
  exact List.mem_cons_self

theorem mem_due_removing {vIp v : ByteArr 4} {status id : Id} {rest : Map (ByteArr 4) Id}
    (h : id ∈ (rest.lookup v).toList) : id ∈ (Phase.removing vIp status rest).due v := by
  show id ∈ (Phase.testing vIp status 0 rest).due v
  exact mem_due_testing h

/-- In its other phases the walk is about to remove nothing. -/
theorem inv_of_condemned (h : s.phase.condemned = none) : Inv s := by
  intro vIp status hc
  cases h.symm.trans hc

/-- **What the body of the walk does.** -/
inductive BodyMoves (s : Client) : Client → Prop where
  /-- The status is timed out. -/
  | found {vIp : ByteArr 4} {status : Id} {last : Int} {rest : Map (ByteArr 4) Id}
      (hp : s.phase = .testing vIp status last rest) (hout : isTimeout 10 s.now last = true) :
      BodyMoves s { s with phase := .removing vIp status rest }
  | removed {vIp : ByteArr 4} {status : Id} {rest : Map (ByteArr 4) Id} (room : Bool)
      (hp : s.phase = .removing vIp status rest) :
      BodyMoves s { removeP2P s vIp room with phase := .range rest }
  /-- The walk goes on with an entry it will not remove, or behind one. -/
  | passed {t : Client} (hrouter : t.p2pRouter = s.p2pRouter) (hobjects : t.objects = s.objects)
      (hcondemned : t.phase.condemned = none) (hdue : ∀ v, t.phase.due v ⊆ s.phase.due v)
      (hreads : ∀ status ∈ t.phase.reads, status ∈ s.phase.reads ∨ ∃ v, status ∈ s.phase.due v) :
      BodyMoves s t

theorem BodyMoves.onward (hrouter : t.p2pRouter = s.p2pRouter) (hobjects : t.objects = s.objects)
    (hcondemned : t.phase.condemned = none) (hdue : t.phase.due = s.phase.due)
    (hreads : ∀ status ∈ t.phase.reads, status ∈ s.phase.reads) : BodyMoves s t := by
  refine .passed hrouter hobjects hcondemned ?_ fun status h => .inl (hreads status h)
  intro v
  rw [hdue]
  exact List.Subset.refl _

theorem body_moves {ok : Bool} (hs : body s ok = some t) : BodyMoves s t := by
  unfold body at hs
  cases hp : s.phase with
  | select | range rest =>
    rw [hp] at hs
    cases hs
  | testing vIp status last rest =>
    rw [hp] at hs
    obtain rfl := Option.some.inj hs
    cases hout : isTimeout 10 s.now last with
    | true => exact .found hp hout
    | false =>
      refine .passed rfl rfl rfl (fun v id hid => ?_) ?_
      · rw [hp]
        exact mem_due_testing hid
      · intro id hid
        obtain rfl := Option.some.inj hid
        rw [hp]
        exact .inr ⟨vIp, mem_due_self last⟩
  | removing vIp status rest =>
    rw [hp] at hs
    obtain rfl := Option.some.inj hs
    exact .removed ok hp
  | alive status rest =>
    rw [hp] at hs
    obtain ⟨st, -, rfl⟩ := Option.map_eq_some_iff.mp hs
    have hreads : s.phase.reads = some status := by rw [hp]; rfl
    cases st.established <;>
      exact .onward rfl rfl rfl (by rw [hp]; rfl) fun id hid => hreads.trans hid
  | heartbeat status rest =>
    rw [hp] at hs
    obtain ⟨st, -, rfl⟩ := Option.map_eq_some_iff.mp hs
    exact .onward rfl rfl rfl (by rw [hp]; rfl) nofun
  | punch status rest =>
    rw [hp] at hs
    obtain ⟨st, -, rfl⟩ := Option.map_eq_some_iff.mp hs
    unfold punch
    split_ifs <;> exact .onward rfl rfl rfl (by rw [hp]; rfl) nofun
  | spray dst i rest =>
    rw [hp] at hs
    obtain rfl := Option.some.inj hs
    split_ifs <;> exact .onward rfl rfl rfl (by rw [hp]; rfl) nofun

theorem lookup_removeP2P {vIp v : ByteArr 4} {room : Bool} {status : Id} :
    (removeP2P s vIp room).p2pRouter.lookup v = some status ↔
      v ≠ vIp ∧ s.p2pRouter.lookup v = some status := by
  have hrouter : (removeP2P s vIp room).p2pRouter = s.p2pRouter.erase vIp := by
    cases room <;> rfl
  rw [hrouter]
  by_cases hv : v = vIp
  · rw [hv, AList.lookup_erase]
    exact iff_of_false nofun fun h => h.1 rfl
  · rw [AList.lookup_erase_ne hv]
    exact ⟨fun h => ⟨hv, h⟩, fun h => h.2⟩

theorem inv_body {ok : Bool} (hok : s.UpToDate) (hs : body s ok = some t) : Inv t := by
  cases body_moves hs with
  | @found vIp status last rest hp hout =>
    unfold Client.UpToDate at hok
    rw [hp] at hok
    obtain ⟨hcurrent, hlast⟩ := hok hout
    intro vIp' status' hc
    cases hc
    exact ⟨hcurrent, last, hlast, hout⟩
  | removed hp => exact inv_of_condemned rfl
  | passed hrouter hobjects hcondemned hdue hreads => exact inv_of_condemned hcondemned

theorem tick_eq (hs : step s .tick = some t) : t = { s with phase := .range s.p2pRouter } := by
  dsimp only [step] at hs
  split at hs
  · exact (Option.some.inj hs).symm
  · cases hs

theorem visit_eq {vIp : ByteArr 4} (hs : step s (.visit vIp) = some t) :
    ∃ rest status st, s.phase = .range rest ∧ rest.lookup vIp = some status ∧
      s.objects[status]? = some st ∧
      t = { s with phase := .testing vIp status st.lastSeen (rest.erase vIp) } := by
  dsimp only [step] at hs
  split at hs
  · next rest hp =>
    obtain ⟨status, hlook, hs⟩ := Option.bind_eq_some_iff.mp hs
    obtain ⟨st, hst, rfl⟩ := Option.map_eq_some_iff.mp hs
    exact ⟨rest, status, st, hp, hlook, hst, rfl⟩
  · cases hs

theorem finish_eq (hs : step s .finish = some t) : t = { s with phase := .select } := by
  dsimp only [step] at hs
  split at hs
  · exact (guardTo_eq_some.mp hs).2.symm
  · cases hs

theorem Inv.step {a : Act} (h : Inv s) (hok : Orderly s a) (hs : step s a = some t) : Inv t := by
  cases a with
  | clock seconds =>
    obtain rfl := Option.some.inj hs
    have hnow : s.now ≤ s.now + seconds := by omega
    exact h.around ⟨rfl, hnow, fun _ _ => rfl, fun _ _ _ hlast => hlast⟩
  | addP2P vIp addr natType =>
    obtain rfl := Option.some.inj hs
    exact h.around (around_addP2P addr natType hok)
  | receive pong srcVIp addr =>
    obtain rfl := Option.some.inj hs
    exact h.around (around_receive pong srcVIp addr)
  | work k room =>
    obtain ⟨task, htask, rfl⟩ := Option.map_eq_some_iff.mp hs
    have ha := around_perform room (hok task htask)
    exact h.around ⟨ha.phase, ha.now, ha.router, ha.seen⟩
  | tick =>
    rw [tick_eq hs]
    exact inv_of_condemned rfl
  | visit vIp =>
    obtain ⟨rest, status, st, -, -, -, rfl⟩ := visit_eq hs
    exact inv_of_condemned rfl
  | body ok => exact inv_body hok hs
  | finish =>
    rw [finish_eq hs]
    exact inv_of_condemned rfl

theorem inv_of_reachVia (h : machine.ReachVia Orderly s) : Inv s :=
  h.invariant (inv_of_condemned rfl) fun _ hi hok hs => hi.step hok hs

/-! ## What is removed -/

theorem router_perform (room : Bool) (task : Task) :
    (perform s room task).1.p2pRouter = s.p2pRouter := by
  cases task with
  | storeEstablished vIp status => cases room <;> rfl
  | _ => rfl

/-- **What a step does to the table**: nothing, or it installs a route, or the walk is
where it removes one. -/
theorem router_of_step {a : Act} (hs : step s a = some t) :
    t.p2pRouter = s.p2pRouter ∨ (∃ vIp status, t.p2pRouter = s.p2pRouter.insert vIp status) ∨
      ∃ vIp judged rest room, s.phase = .removing vIp judged rest ∧
        t.p2pRouter = (removeP2P s vIp room).p2pRouter := by
  cases a with
  | clock seconds =>
    obtain rfl := Option.some.inj hs
    exact .inl rfl
  | addP2P vIp addr natType =>
    obtain rfl := Option.some.inj hs
    exact .inr (.inl ⟨vIp, s.objects.length, rfl⟩)
  | receive pong srcVIp addr =>
    obtain rfl := Option.some.inj hs
    left
    unfold receive
    split <;> rfl
  | work k room =>
    obtain ⟨task, -, rfl⟩ := Option.map_eq_some_iff.mp hs
    exact .inl (router_perform room task)
  | tick =>
    rw [tick_eq hs]
    exact .inl rfl
  | visit vIp =>
    obtain ⟨rest, status, st, -, -, -, rfl⟩ := visit_eq hs
    exact .inl rfl
  | body ok =>
    cases body_moves hs with
    | found hp hout => exact .inl rfl
    | @removed vIp judged rest room hp => exact .inr (.inr ⟨vIp, judged, rest, room, hp, rfl⟩)
    | passed hrouter hobjects hcondemned hdue hreads => exact .inl hrouter
  | finish =>
    rw [finish_eq hs]
    exact .inl rfl

/-- **Only `removeP2P` takes a route out of the table**, and only the one of the peer
it is called for. -/
theorem removing_of_dropped {a : Act} {v : ByteArr 4} {status : Id} (hs : step s a = some t)
    (hlook : s.p2pRouter.lookup v = some status) (hgone : t.p2pRouter.lookup v = none) :
    ∃ judged rest, s.phase = .removing v judged rest := by
  obtain hsame | ⟨vIp, new, hins⟩ | ⟨vIp, judged, rest, room, hp, hrem⟩ := router_of_step hs
  · rw [hsame, hlook] at hgone
    cases hgone
  · rw [hins] at hgone
    by_cases hv : v = vIp
    · rw [hv, AList.lookup_insert] at hgone
      cases hgone
    · rw [AList.lookup_insert_ne hv, hlook] at hgone
      cases hgone
  · have hv : v = vIp := by
      by_contra hne
      rw [hrem, lookup_removeP2P.mpr ⟨hne, hlook⟩] at hgone
      cases hgone
    exact ⟨judged, rest, by rw [hp, hv]⟩

/-- **A route is removed only for its own age**, in every run in which a status that the walk
finds timed out has neither been replaced nor seen meanwhile, and is neither until it is removed:
whatever step takes a status out of the table, the status is timed out at that moment. -/
theorem removed_is_timed_out {a : Act} {v : ByteArr 4} {status : Id}
    (hr : machine.ReachVia Orderly s) (hs : machine.step s a = some t)
    (hlook : s.p2pRouter.lookup v = some status) (hgone : t.p2pRouter.lookup v = none) :
    s.TimedOut status := by
  obtain ⟨judged, rest, hp⟩ := removing_of_dropped hs hlook hgone
  have hc : s.phase.condemned = some (v, judged) := by
    rw [hp]
    rfl
  obtain ⟨hcurrent, hout⟩ := inv_of_reachVia hr v judged hc
  rw [hcurrent status hlook]
  exact hout

/-! ## The walk goes on -/

/-- Every pointer in the table and in the walk leads to a status. -/
structure Allocated (s : Client) : Prop where
  router : ∀ v status, s.p2pRouter.lookup v = some status → status < s.objects.length
  due : ∀ v, ∀ status ∈ s.phase.due v, status < s.objects.length
  reads : ∀ status ∈ s.phase.reads, status < s.objects.length

/-- A step that is not one of the walk, after which there are no fewer statuses. -/
theorem Allocated.grow (h : Allocated s) (hphase : t.phase = s.phase)
    (hlen : s.objects.length ≤ t.objects.length)
    (hrouter : ∀ v status, t.p2pRouter.lookup v = some status →
      s.p2pRouter.lookup v = some status ∨ status < t.objects.length) : Allocated t := by
  refine ⟨?_, ?_, ?_⟩
  · intro v status hlook
    obtain hold | hnew := hrouter v status hlook
    · exact Nat.lt_of_lt_of_le (h.router v status hold) hlen
    · exact hnew
  · intro v status hdue
    rw [hphase] at hdue
    exact Nat.lt_of_lt_of_le (h.due v status hdue) hlen
  · intro status hreads
    rw [hphase] at hreads
    exact Nat.lt_of_lt_of_le (h.reads status hreads) hlen

theorem allocated_addP2P (h : Allocated s) (vIp : ByteArr 4) (addr : Addr) (natType : UInt8) :
    Allocated (addP2P s vIp addr natType) := by
  have hlen : (addP2P s vIp addr natType).objects.length = s.objects.length + 1 :=
    List.length_append
  refine h.grow rfl (by omega) ?_
  intro v status hlook
  by_cases hv : v = vIp
  · -- the pointer to the status that was made
    subst hv
    rw [addP2P, AList.lookup_insert] at hlook
    right
    rw [hlen, ← Option.some.inj hlook]
    exact Nat.lt_succ_self _
  · rw [addP2P, AList.lookup_insert_ne hv] at hlook
    exact .inl hlook

theorem phase_perform (room : Bool) (task : Task) : (perform s room task).1.phase = s.phase := by
  cases task with
  | storeEstablished vIp status => cases room <;> rfl
  | _ => rfl

theorem objects_perform (room : Bool) (task : Task) :
    (perform s room task).1.objects.length = s.objects.length := by
  cases task with
  | timeNow vIp status => rfl
  | storeEstablished vIp status => cases room <;> exact List.length_modify ..
  | _ => exact List.length_modify ..

theorem Allocated.body {ok : Bool} (h : Allocated s) (hs : P2PRoutes.body s ok = some t) :
    Allocated t := by
  cases body_moves hs with
  | @found vIp status last rest hp hout =>
    refine ⟨h.router, fun v id hid => h.due v id ?_, nofun⟩
    rw [hp]
    exact hid
  | @removed vIp status rest room hp =>
    have hobjects : (removeP2P s vIp room).objects = s.objects := by cases room <;> rfl
    refine ⟨?_, ?_, nofun⟩
    · intro v id hlook
      rw [hobjects]
      exact h.router v id (lookup_removeP2P.mp hlook).2
    · intro v id hid
      rw [hobjects]
      refine h.due v id ?_
      rw [hp]
      exact mem_due_removing hid
  | passed hrouter hobjects hcondemned hdue hreads =>
    refine ⟨?_, ?_, ?_⟩
    · rw [hrouter, hobjects]
      exact h.router
    · intro v id hid
      rw [hobjects]
      exact h.due v id (hdue v hid)
    · intro id hid
      rw [hobjects]
      obtain hsame | ⟨v, hv⟩ := hreads id hid
      · exact h.reads id hsame
      · exact h.due v id hv

theorem Allocated.step {a : Act} (h : Allocated s) (hs : P2PRoutes.step s a = some t) :
    Allocated t := by
  cases a with
  | clock seconds =>
    obtain rfl := Option.some.inj hs
    exact ⟨h.router, h.due, h.reads⟩
  | addP2P vIp addr natType =>
    obtain rfl := Option.some.inj hs
    exact allocated_addP2P h vIp addr natType
  | receive pong srcVIp addr =>
    obtain rfl := Option.some.inj hs
    unfold receive
    split <;> exact ⟨h.router, h.due, h.reads⟩
  | work k room =>
    obtain ⟨task, -, rfl⟩ := Option.map_eq_some_iff.mp hs
    refine h.grow (phase_perform room task) (Nat.le_of_eq (objects_perform room task).symm) ?_
    intro v status hlook
    have hlook : (perform s room task).1.p2pRouter.lookup v = some status := hlook
    rw [router_perform] at hlook
    exact .inl hlook
  | tick =>
    rw [tick_eq hs]
    exact ⟨h.router, fun v status hdue => h.router v status (Option.mem_toList.mp hdue), nofun⟩
  | visit vIp =>
    obtain ⟨rest, status, st, hp, hlook, -, rfl⟩ := visit_eq hs
    refine ⟨h.router, fun v id hid => ?_, nofun⟩
    rw [due_testing hlook, ← hp] at hid
    exact h.due v id hid
  | body ok => exact h.body hs
  | finish =>
    rw [finish_eq hs]
    exact ⟨h.router, nofun, nofun⟩

/-- A step of `handleP2P`. -/
def Act.ofWalk : Act → Bool
  | .tick | .visit _ | .body _ | .finish => true
  | _ => false

theorem exists_status {status : Id} (h : status < s.objects.length) :
    ∃ st, s.objects[status]? = some st :=
  ⟨s.objects[status], List.getElem?_eq_getElem h⟩

/-- **The walk never follows a pointer to nowhere**, in any run: wherever it is, there is
a step for it. -/
theorem walk_goes_on (hr : machine.Reach s) :
    ∃ a t, a.ofWalk = true ∧ machine.step s a = some t := by
  have h : Allocated s := hr.invariant ⟨nofun, nofun, nofun⟩ Allocated.step
  -- the phases of the body read at most one status
  have hbody : ∀ t, body s true = some t → ∃ a t, a.ofWalk = true ∧ machine.step s a = some t :=
    fun t ht => ⟨.body true, t, rfl, ht⟩
  have hstatus : ∀ status ∈ s.phase.reads, ∃ st, s.objects[status]? = some st :=
    fun status hreads => exists_status (h.reads status hreads)
  unfold body at hbody
  cases hp : s.phase with
  | select =>
    refine ⟨.tick, { s with phase := .range s.p2pRouter }, rfl, ?_⟩
    dsimp only [machine, step]
    rw [hp]
  | range rest =>
    cases hkeys : rest.keys with
    | nil =>
      refine ⟨.finish, { s with phase := .select }, rfl, ?_⟩
      dsimp only [machine, step]
      rw [hp]
      exact guardTo_eq_some.mpr ⟨hkeys, rfl⟩
    | cons v keys =>
      have hmem : v ∈ rest.keys := by rw [hkeys]; exact List.mem_cons_self
      obtain ⟨status, hlook⟩ := Option.isSome_iff_exists.mp (AList.lookup_isSome.mpr hmem)
      have hdue : status ∈ s.phase.due v := by
        rw [hp]
        exact Option.mem_toList.mpr hlook
      obtain ⟨st, hst⟩ := exists_status (h.due v status hdue)
      refine ⟨.visit v, { s with phase := .testing v status st.lastSeen (rest.erase v) }, rfl, ?_⟩
      dsimp only [machine, step]
      rw [hp]
      dsimp only
      rw [hlook, Option.bind_some, hst, Option.map_some]
  | testing | removing | spray =>
    rw [hp] at hbody
    exact hbody _ rfl
  | alive status rest | heartbeat status rest | punch status rest =>
    obtain ⟨st, hst⟩ := hstatus status (by rw [hp]; rfl)
    rw [hp] at hbody
    dsimp only at hbody
    rw [hst] at hbody
    exact hbody _ rfl

section Walks

/-- Addresses of peers. -/
def caseAddr : Addr := ⟨[203, 0, 113, 5], 40000⟩

@[inherit_doc caseAddr] def caseAddr' : Addr := ⟨[203, 0, 113, 6], 40000⟩

/-- A route that nobody answered on for eleven seconds. -/
theorem removed_is_timed_out_silent :
    ∃ s t, machine.ReachVia Orderly s ∧ machine.step s (.body true) = some t ∧
      s.p2pRouter.lookup (sampleIp 3) = some 0 ∧ t.p2pRouter.lookup (sampleIp 3) = none ∧
      s.TimedOut 0 := by
  obtain ⟨s, hr, hlook, hgone⟩ : ∃ s, machine.ReachVia Orderly s ∧
      s.p2pRouter.lookup (sampleIp 3) = some 0 ∧
      (machine.step s (.body true)).map (·.p2pRouter.lookup (sampleIp 3)) = some none :=
    Machine.exists_reachVia
      [.addP2P (sampleIp 3) caseAddr typeCone, .clock 11, .tick, .visit (sampleIp 3), .body true]
      (by decide +kernel)
  obtain ⟨t, hs, ht⟩ := Option.map_eq_some_iff.mp hgone
  exact ⟨s, t, hr, hs, hlook, ht, removed_is_timed_out hr hs hlook ht⟩

/-- A status seen ten seconds ago or later is not timed out. -/
theorem not_timedOut {status : Id} {age : Nat} (hage : age ≤ 10)
    (hseen : s.lastSeen status = some (s.now - age)) : ¬ s.TimedOut status := by
  rintro ⟨last, hlast, hout⟩
  obtain rfl := Option.some.inj (hseen.symm.trans hlast)
  rw [isTimeout, decide_eq_true_eq] at hout
  omega

/-- The walk is about to remove the route of a peer, `status`, seen `age` seconds ago. -/
def AboutToRemove (v : ByteArr 4) (status : Id) (age : Nat) (s : Client) : Prop :=
  s.p2pRouter.lookup v = some status ∧ s.lastSeen status = some (s.now - age) ∧
    (machine.step s (.body true)).map (·.p2pRouter.lookup v) = some none

instance (v : ByteArr 4) (status : Id) (age : Nat) : DecidablePred (AboutToRemove v status age) :=
  fun _ => inferInstanceAs (Decidable (_ ∧ _ ∧ _))

/-- **A fresh route is removed for the age of the one it replaced.** One peer is behind
a symmetric NAT and was added late; the other was not seen for twelve seconds. While
ports of the first are tried, the server asks again for the second, and the status it
then has is two seconds old when the walk comes to the one before. -/
theorem removed_fresh :
    ∃ s t status, machine.Reach s ∧ machine.step s (.body true) = some t ∧
      s.p2pRouter.lookup (sampleIp 4) = some status ∧ t.p2pRouter.lookup (sampleIp 4) = none ∧
      ¬ s.TimedOut status := by
  obtain ⟨s, hr, hlook, hseen, hgone⟩ : ∃ s, machine.Reach s ∧ AboutToRemove (sampleIp 4) 2 2 s :=
    Machine.exists_reach
      ([.addP2P (sampleIp 4) caseAddr' typeCone, .clock 9,
        .addP2P (sampleIp 3) caseAddr typeSymmetric, .clock 3, .tick, .visit (sampleIp 3),
        .body true, .body true, .body true] ++
      -- three hundred ports, in three seconds
      List.replicate 100 (.body true) ++ [.clock 1, .addP2P (sampleIp 4) caseAddr' typeCone] ++
      List.replicate 100 (.body true) ++ [.clock 1] ++ List.replicate 100 (.body true) ++
      [.clock 1, .visit (sampleIp 4), .body true])
      (by decide +kernel)
  obtain ⟨t, hs, ht⟩ := Option.map_eq_some_iff.mp hgone
  exact ⟨s, t, 2, hr, hs, hlook, ht, not_timedOut (by decide) hseen⟩

/-- **A pong behind the test does not save the route.** A peer answers after eleven
seconds, when the walk has loaded `LastSeen` and not yet removed the route. -/
theorem removed_seen :
    ∃ s t status, machine.Reach s ∧ machine.step s (.body true) = some t ∧
      s.p2pRouter.lookup (sampleIp 3) = some status ∧ t.p2pRouter.lookup (sampleIp 3) = none ∧
      ¬ s.TimedOut status := by
  obtain ⟨s, hr, hlook, hseen, hgone⟩ : ∃ s, machine.Reach s ∧ AboutToRemove (sampleIp 3) 0 0 s :=
    Machine.exists_reach
      [.addP2P (sampleIp 3) caseAddr typeCone, .clock 11, .tick, .visit (sampleIp 3),
        .receive true (sampleIp 3) caseAddr, .work 0 true, .work 0 true, .work 0 true, .body true]
      (by decide +kernel)
  obtain ⟨t, hs, ht⟩ := Option.map_eq_some_iff.mp hgone
  exact ⟨s, t, 0, hr, hs, hlook, ht, not_timedOut (by decide) hseen⟩

end Walks

end EasyTun.Transport.P2PRoutes
