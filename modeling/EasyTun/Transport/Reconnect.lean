import Mathlib.Algebra.Group.Nat.Defs
import Mathlib.Tactic.Common
import EasyTun.Lib.Machine

/-!
# The pause between two connection attempts

The main loop of the client connects, shakes hands and runs a session. After an
attempt that failed it calls `backoffWait`, which counts the failure and waits for
`1 << retryCount` seconds, thirty at most. The counter is a signed word of 64 bits,
and it is shifted by before the pause is capped.

A word is a `BitVec 64`, and so is a `time.Duration`, in nanoseconds. What an attempt
ends with is chosen by the environment.

- `backoff_waits`: **the n-th failure in a row waits for `min (2 ^ n) 30` seconds**, no
  less than the failures before it, **if and only if n is at most 62**, or the counter has
  gone round and is between 5 and 62 again.
- `backoff_gone`: from the 63rd failure on the client does not wait at all.
-/

namespace EasyTun.Transport.Reconnect

open EasyTun.Lib

/-! ## The loop -/

/-- `time.Second`, in nanoseconds. -/
def second : Nat := 1000000000

/-- `1 << uint(n)` as an `int`: the whole word is shifted out from 64 on. -/
def shiftOne (n : BitVec 64) : BitVec 64 := 1#64 <<< n.toNat

/-- `if waitSec > 30 { waitSec = 30 }`, a comparison of signed words. -/
def capped (waitSec : BitVec 64) : BitVec 64 :=
  if 30 < waitSec.toInt then 30#64 else waitSec

/-- For how long a timer of a duration runs: one that is not positive fires at once. -/
def newTimer (d : BitVec 64) : Nat := d.toInt.toNat

/-- `backoffWait` (client.go:245–264): the counter after it, and how long its timer
runs. -/
def backoffWait (retryCount : BitVec 64) : BitVec 64 × Nat :=
  let retryCount := retryCount + 1
  let waitSec := capped (shiftOne retryCount)
  (retryCount, newTimer (waitSec * BitVec.ofNat 64 second))

/-- A pass of the loop, by what it ends with, and whether `pCtx` is done when the loop
asks for it next. -/
inductive Attempt where
  | connectError (done : Bool)
  | handshakeError (done : Bool)
  | session (done : Bool)
  deriving DecidableEq

/-- The attempt failed, so it ended in a call of `backoffWait`. -/
def Attempt.failed : Attempt → Bool
  | .connectError _ | .handshakeError _ => true
  | .session _ => false

structure Loop where
  retryCount : BitVec 64
  /-- The timers of `backoffWait` so far, the last one first. -/
  waits : List Nat
  returned : Bool

/-- `backoffWait` in the loop. Its error ends the loop. -/
def Loop.retry (s : Loop) (done : Bool) : Loop :=
  let (retryCount, wait) := backoffWait s.retryCount
  { retryCount, waits := wait :: s.waits, returned := done }

/-- One pass (client.go:136–236). -/
def step (s : Loop) (a : Attempt) : Option Loop :=
  if s.returned then none
  else match a with
    | .connectError done | .handshakeError done => some (s.retry done)
    | .session done => some { s with retryCount := 0, returned := done }

/-- The loop, with the number of attempts that have failed in a row. -/
def machine : Machine (Loop × Nat) Attempt :=
  Machine.observe { init := ⟨0, [], false⟩, step } 0 fun n _ a _ => if a.failed then n + 1 else 0

/-! ## The n-th pause -/

/-- The pause of `backoffWait` when `n` attempts have failed in a row with this one. -/
def pause (n : Nat) : Nat :=
  newTimer (capped (shiftOne (BitVec.ofNat 64 n)) * BitVec.ofNat 64 second)

theorem backoffWait_ofNat (n : Nat) :
    backoffWait (BitVec.ofNat 64 n) = (BitVec.ofNat 64 (n + 1), pause (n + 1)) := by
  have hsucc : BitVec.ofNat 64 n + 1 = BitVec.ofNat 64 (n + 1) := BitVec.ofNat_add_ofNat n 1
  unfold backoffWait pause
  rw [hsucc]

theorem toInt_ofNat_of_lt {x : Nat} (hx : x < 2 ^ 63) : (BitVec.ofNat 64 x).toInt = x := by
  have hnat : (BitVec.ofNat 64 x).toNat = x := by
    rw [BitVec.toNat_ofNat, Nat.mod_eq_of_lt (by omega)]
  rw [BitVec.toInt_eq_toNat_of_lt (by omega), hnat]

theorem shiftOne_ofNat {n : Nat} (hn : n < 2 ^ 64) :
    shiftOne (BitVec.ofNat 64 n) = BitVec.ofNat 64 (2 ^ n) := by
  unfold shiftOne
  apply BitVec.eq_of_toNat_eq
  rw [BitVec.toNat_shiftLeft, BitVec.toNat_ofNat, BitVec.toNat_ofNat, BitVec.toNat_ofNat,
    Nat.mod_eq_of_lt hn, Nat.shiftLeft_eq, Nat.one_mod_two_pow (by decide), Nat.one_mul]

theorem capped_ofNat {x : Nat} (hx : x < 2 ^ 63) :
    capped (BitVec.ofNat 64 x) = BitVec.ofNat 64 (min x 30) := by
  unfold capped
  rw [toInt_ofNat_of_lt hx]
  split
  · next h => rw [Nat.min_eq_right (by omega)]
  · next h => rw [Nat.min_eq_left (by omega)]

/-- **Up to 62 the shift stays in the word**, and thirty seconds fit in a duration. -/
theorem pause_eq {n : Nat} (hn : n ≤ 62) : pause n = min (2 ^ n) 30 * second := by
  have hpow : 2 ^ n ≤ 2 ^ 62 := Nat.pow_le_pow_right (by decide) hn
  have hnanos : min (2 ^ n) 30 * second ≤ 30 * second :=
    Nat.mul_le_mul_right _ (Nat.min_le_right ..)
  have hfits : 30 * second < 2 ^ 63 := by decide
  unfold pause newTimer
  rw [shiftOne_ofNat (by omega), capped_ofNat (by omega), ← BitVec.ofNat_mul,
    toInt_ofNat_of_lt (by omega), Int.toNat_natCast]

/-- **From 63 on nothing is left of it**: the shift gives the least word, whose
nanoseconds are a multiple of `2 ^ 64`, and then zero. -/
theorem pause_eq_zero {n : Nat} (hn : 63 ≤ n) (hword : n < 2 ^ 64) : pause n = 0 := by
  obtain rfl | hlt := Nat.eq_or_lt_of_le hn
  · decide
  · have hshift : shiftOne (BitVec.ofNat 64 n) = 0#64 := by
      unfold shiftOne
      rw [BitVec.toNat_ofNat, Nat.mod_eq_of_lt hword]
      exact BitVec.shiftLeft_eq_zero hlt
    unfold pause
    rw [hshift]
    decide

theorem pause_mod (n : Nat) : pause (n % 2 ^ 64) = pause n := by
  have hword : BitVec.ofNat 64 (n % 2 ^ 64) = BitVec.ofNat 64 n := by
    apply BitVec.eq_of_toNat_eq
    rw [BitVec.toNat_ofNat, BitVec.toNat_ofNat, Nat.mod_mod]
  unfold pause
  rw [hword]

theorem min_pow_eq {n : Nat} (hn : 5 ≤ n) : min (2 ^ n) 30 = 30 := by
  have hpow : 2 ^ 5 ≤ 2 ^ n := Nat.pow_le_pow_right (by decide) hn
  exact Nat.min_eq_right (Nat.le_trans (by decide) hpow)

/-- No pause is longer than thirty seconds. -/
theorem pause_le (n : Nat) : pause n ≤ 30 * second := by
  rw [← pause_mod]
  by_cases hn : n % 2 ^ 64 ≤ 62
  · rw [pause_eq hn]
    exact Nat.mul_le_mul_right _ (Nat.min_le_right ..)
  · rw [pause_eq_zero (by omega) (Nat.mod_lt n (by decide))]
    exact Nat.zero_le _

/-- **When a pause is as long as it should be**: when the shift stays in the word. A counter
that has gone round is a small number again, and from 5 on the pause is capped as it would be
for the number of failures. -/
theorem pause_eq_iff (n : Nat) :
    pause n = min (2 ^ n) 30 * second ↔
      n ≤ 62 ∨ (5 ≤ n % 2 ^ 64 ∧ n % 2 ^ 64 ≤ 62) := by
  by_cases hn : n ≤ 62
  · exact iff_of_true (pause_eq hn) (.inl hn)
  · rw [← pause_mod, min_pow_eq (by omega), or_iff_right hn]
    by_cases hmod : n % 2 ^ 64 ≤ 62
    · have hmul := Nat.mul_left_inj (a := second) (b := min (2 ^ (n % 2 ^ 64)) 30) (c := 30)
        (by decide)
      rw [pause_eq hmod, hmul, and_iff_left hmod]
      by_cases hfive : 5 ≤ n % 2 ^ 64
      · exact iff_of_true (min_pow_eq hfive) hfive
      · -- below 5 the power itself is the smaller one
        have hpow : 2 ^ (n % 2 ^ 64) ≤ 2 ^ 4 := Nat.pow_le_pow_right (by decide) (by omega)
        refine iff_of_false (fun h => ?_) hfive
        omega
    · rw [pause_eq_zero (by omega) (Nat.mod_lt n (by decide))]
      exact iff_of_false (by decide) fun h => hmod h.2

theorem two_le_min_pow {n : Nat} (hn : 1 ≤ n) : 2 ≤ min (2 ^ n) 30 :=
  Nat.le_min.mpr ⟨Nat.le_self_pow (by omega) 2, by decide⟩

/-! ## Runs of the loop -/

/-- The pauses of `n` failures in a row, the last one first. -/
def series : Nat → List Nat
  | 0 => []
  | n + 1 => pause (n + 1) :: series n

theorem length_series (n : Nat) : (series n).length = n := by
  induction n with
  | zero => rfl
  | succ n ih => rw [series, List.length_cons, ih]

theorem mem_series {n w : Nat} (h : w ∈ series n) : ∃ m, 1 ≤ m ∧ m ≤ n ∧ w = pause m := by
  induction n with
  | zero => cases h
  | succ n ih =>
    obtain rfl | h := List.mem_cons.mp h
    · exact ⟨n + 1, by omega, Nat.le_refl _, rfl⟩
    · obtain ⟨m, h1, hm, rfl⟩ := ih h
      exact ⟨m, h1, by omega, rfl⟩

/-- The counter is the number of failures in a row, as a word, and the last timers
were the pauses of these. -/
structure Counts (p : Loop × Nat) : Prop where
  retryCount : p.1.retryCount = BitVec.ofNat 64 p.2
  waits : ∃ before, p.1.waits = series p.2 ++ before

/-- **What a pass does**: an attempt that failed adds to the row and waits, and a
session ends the row. -/
theorem step_cases {p q : Loop × Nat} {a : Attempt} (hs : machine.step p a = some q) :
    (a.failed = true ∧ q.2 = p.2 + 1 ∧ ∃ done, q.1 = p.1.retry done) ∨
      (a.failed = false ∧ q.2 = 0 ∧ q.1.retryCount = 0 ∧ q.1.waits = p.1.waits) := by
  obtain ⟨hstep, hcount⟩ := Machine.step_of_observe hs
  dsimp only [step] at hstep
  cases hret : p.1.returned with
  | true =>
    rw [hret] at hstep
    cases hstep
  | false =>
    rw [hret] at hstep
    cases a with
    | connectError done => exact .inl ⟨rfl, hcount, done, (Option.some.inj hstep).symm⟩
    | handshakeError done => exact .inl ⟨rfl, hcount, done, (Option.some.inj hstep).symm⟩
    | session done =>
      obtain hq := Option.some.inj hstep
      refine .inr ⟨rfl, hcount, ?_, ?_⟩ <;> rw [← hq]

theorem Counts.retry {p : Loop × Nat} (h : Counts p) (done : Bool) :
    p.1.retry done =
      { retryCount := BitVec.ofNat 64 (p.2 + 1), waits := pause (p.2 + 1) :: p.1.waits,
        returned := done } := by
  unfold Loop.retry
  rw [h.retryCount, backoffWait_ofNat]

theorem Counts.step {p q : Loop × Nat} {a : Attempt} (h : Counts p)
    (hs : machine.step p a = some q) : Counts q := by
  obtain ⟨-, hcount, done, hq⟩ | ⟨-, hcount, hzero, -⟩ := step_cases hs
  · rw [h.retry] at hq
    obtain ⟨before, hbefore⟩ := h.waits
    refine ⟨by rw [hq, hcount], before, ?_⟩
    rw [hq, hcount, hbefore]
    rfl
  · refine ⟨?_, q.1.waits, ?_⟩
    · rw [hzero, hcount]
      rfl
    · rw [hcount]
      rfl

theorem counts_of_reach {p : Loop × Nat} (h : machine.Reach p) : Counts p :=
  h.invariant ⟨rfl, [], rfl⟩ Counts.step

/-- A failure waits for the pause of the row it is the last of. -/
theorem waits_of_failed {p q : Loop × Nat} {a : Attempt} (hr : machine.Reach p)
    (hs : machine.step p a = some q) (hf : a.failed = true) :
    q.2 = p.2 + 1 ∧ q.1.waits = pause q.2 :: p.1.waits := by
  obtain ⟨-, hcount, done, hq⟩ | ⟨hsession, -⟩ := step_cases hs
  · rw [(counts_of_reach hr).retry] at hq
    exact ⟨hcount, by rw [hq, hcount]⟩
  · rw [hf] at hsession
    cases hsession

/-- What the pauses should be grows with the row, and bounds every pause of it. -/
theorem pause_le_of_le {m n : Nat} (h : m ≤ n) : pause m ≤ min (2 ^ n) 30 * second := by
  by_cases hn : n ≤ 62
  · have hpow : 2 ^ m ≤ 2 ^ n := Nat.pow_le_pow_right (by decide) h
    have hmin : min (2 ^ m) 30 ≤ min (2 ^ n) 30 := by omega
    rw [pause_eq (by omega)]
    exact Nat.mul_le_mul_right _ hmin
  · rw [min_pow_eq (by omega)]
    exact pause_le m

/-- **The pauses grow to thirty seconds and stay there**, in every run: the n-th
attempt in a row that fails waits for `min (2 ^ n) 30` seconds if and only if n is at most 62,
or the counter has gone round to a number from 5 to 62. This is two seconds or more, and no less
than the pauses of the row before it. -/
theorem backoff_waits {p q : Loop × Nat} {a : Attempt} (hr : machine.Reach p)
    (hs : machine.step p a = some q) (hf : a.failed = true) :
    1 ≤ q.2 ∧
      (q.1.waits = min (2 ^ q.2) 30 * second :: p.1.waits ↔
        q.2 ≤ 62 ∨ (5 ≤ q.2 % 2 ^ 64 ∧ q.2 % 2 ^ 64 ≤ 62)) ∧
      2 * second ≤ min (2 ^ q.2) 30 * second ∧
      ∀ w ∈ p.1.waits.take p.2, w ≤ min (2 ^ q.2) 30 * second := by
  obtain ⟨hcount, hwaits⟩ := waits_of_failed hr hs hf
  have hpos : 1 ≤ q.2 := by omega
  refine ⟨hpos, ?_, Nat.mul_le_mul_right _ (two_le_min_pow hpos), ?_⟩
  · rw [hwaits, List.cons_eq_cons, and_iff_left rfl, pause_eq_iff]
  · intro w hw
    obtain ⟨before, hbefore⟩ := (counts_of_reach hr).waits
    rw [hbefore, List.take_left' (length_series p.2)] at hw
    obtain ⟨m, -, hm, rfl⟩ := mem_series hw
    exact pause_le_of_le (by omega)

/-- **After 62 failures in a row there is no pause**, in every run, until a word has
counted round. -/
theorem backoff_gone {p q : Loop × Nat} {a : Attempt} (hr : machine.Reach p)
    (hs : machine.step p a = some q) (hf : a.failed = true) (hn : 63 ≤ q.2) (hword : q.2 < 2 ^ 64) :
    q.1.waits = 0 :: p.1.waits := by
  rw [(waits_of_failed hr hs hf).2, pause_eq_zero hn hword]

section Rows

/-- The handshake fails after a connection error and a session that broke. -/
theorem backoff_waits_second :
    ∃ p q, machine.Reach p ∧ machine.step p (.handshakeError false) = some q ∧ q.2 = 2 ∧
      q.1.waits = 4 * second :: p.1.waits := by
  obtain ⟨p, hr, hp⟩ : ∃ p, machine.Reach p ∧ p.2 = 1 ∧ p.1.returned = false :=
    Machine.exists_reach [.connectError false, .session false, .connectError false]
      (by decide +kernel)
  obtain ⟨q, hs, hq⟩ : ∃ q, machine.step p (.handshakeError false) = some q ∧ q.2 = 2 := by
    obtain ⟨⟨retryCount, waits, returned⟩, n⟩ := p
    obtain ⟨rfl, rfl⟩ := hp
    exact ⟨_, rfl, rfl⟩
  refine ⟨p, q, hr, hs, hq, ?_⟩
  have h := (backoff_waits hr hs rfl).2.1.mpr (.inl (by rw [hq]; decide))
  rw [hq] at h
  exact h

/-- **A server that is down for long is no longer waited for.** After 62 pauses the
63rd connection error is followed by the next attempt at once. -/
theorem backoff_waits_long :
    ∃ p q, machine.Reach p ∧ machine.step p (.connectError false) = some q ∧ q.2 = 63 ∧
      p.1.waits.head? = some (30 * second) ∧ q.1.waits = 0 :: p.1.waits := by
  obtain ⟨p, hr, hcount, hlast, hret⟩ : ∃ p, machine.Reach p ∧ p.2 = 62 ∧
      p.1.waits.head? = some (30 * second) ∧ p.1.returned = false :=
    Machine.exists_reach (List.replicate 62 (.connectError false)) (by decide +kernel)
  obtain ⟨q, hs, hq⟩ : ∃ q, machine.step p (.connectError false) = some q ∧ q.2 = 63 := by
    obtain ⟨⟨retryCount, waits, returned⟩, n⟩ := p
    obtain rfl : n = 62 := hcount
    obtain rfl : returned = false := hret
    exact ⟨_, rfl, rfl⟩
  exact ⟨p, q, hr, hs, hq, hlast, backoff_gone hr hs rfl (by omega) (by omega)⟩

end Rows

end EasyTun.Transport.Reconnect
