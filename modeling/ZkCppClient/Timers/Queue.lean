import Mathlib.Data.Prod.Lex
import Mathlib.Logic.Function.Basic
import ZkCppClient.Lib.Checked
import ZkCppClient.Lib.OrdSet

/-!
# The timer queue

A `ZkTimerQueue` with the timers it points to: `heap x` is the timer at the
address `x`, `none` where there is none or it has been deleted. An assertion
that fails, a dereference of a timer that is gone and a second delete are
faults. Timestamps are microseconds since 1970.

The clock stands still while a function runs its own statements, but for the
time between the two readings of it that go into the descriptor: the delay is
counted from `Timestamp::now()`, and it starts when the descriptor is set.
-/

namespace ZkCppClient.Timers

open Checked

def valid (microSecondsSinceEpoch : Int) : Bool := 0 < microSecondsSinceEpoch

def kMicroSecondsPerSecond : Int := 1000 * 1000

abbrev Addr := Nat

def UINTPTR_MAX : Addr := 0xffffffffffffffff

/-- `interval` is what `addTime` adds for `interval_`; there is none if that is not positive. -/
structure Timer where
  expiration : Int
  interval : Option Nat
  sequence : Nat
  deriving DecidableEq, Repr

def Timer.repeat_ (timer : Timer) : Bool := timer.interval.isSome

def Timer.restart (timer : Timer) (now : Int) : Timer :=
  match timer.interval with
  | some delta => { timer with expiration := now + delta }
  | none => { timer with expiration := 0 }

/-! ## The two orders -/

structure Entry where
  when : Int
  timer : Addr
  deriving DecidableEq, Repr

structure ActiveTimer where
  timer : Addr
  sequence : Nat
  deriving DecidableEq, Repr

abbrev TimerId := ActiveTimer

instance entryOrder : LinearOrder Entry :=
  LinearOrder.lift' (fun e => toLex (e.when, e.timer)) fun a b h => by
    cases a
    cases b
    simpa using h

instance activeTimerOrder : LinearOrder ActiveTimer :=
  LinearOrder.lift' (fun a => toLex (a.timer, a.sequence)) fun a b h => by
    cases a
    cases b
    simpa using h

theorem Entry.lt_iff {a b : Entry} : a < b ↔ a.when < b.when ∨ a.when = b.when ∧ a.timer < b.timer := Prod.Lex.lt_iff

theorem Entry.when_le {a b : Entry} (h : a ≤ b) : a.when ≤ b.when := by
  rcases h.lt_or_eq with h | rfl
  · rcases lt_iff.mp h with h | h
    · exact h.le
    · exact h.1.le
  · exact le_rfl

/-! ## The timer descriptor -/

structure Timespec where
  tv_sec : Int
  tv_nsec : Int

/-- When the delay was computed, when the descriptor was set to it, and when it becomes readable. -/
structure Alarm where
  measuredAt : Int
  armedAt : Int
  deadline : Int
  deriving DecidableEq, Repr

def howMuchTimeFromNow (when now : Int) : Timespec :=
  let microseconds := if when - now < 100 then 100 else when - now
  { tv_sec := microseconds / kMicroSecondsPerSecond, tv_nsec := microseconds % kMicroSecondsPerSecond * 1000 }

def timerfd_settime (it_value : Timespec) (measuredAt now : Int) : Option Alarm :=
  if it_value.tv_sec = 0 ∧ it_value.tv_nsec = 0 then none
  else some ⟨measuredAt, now, now + (it_value.tv_sec * kMicroSecondsPerSecond + it_value.tv_nsec / 1000)⟩

/-- `howMuchTimeFromNow` reads the clock at `now`, and the descriptor is set at `setAt`. -/
def resetTimerfd (expiration now setAt : Int) : Option Alarm :=
  timerfd_settime (howMuchTimeFromNow expiration now) now setAt

/-- How much later than its expiration the alarm is for the time that passed between the two readings. -/
def Alarm.lag (alarm : Alarm) : Int := alarm.armedAt - alarm.measuredAt

def Alarm.readable (alarm : Alarm) (now : Int) : Prop := alarm.deadline ≤ now

instance Alarm.readable_decidable (alarm : Alarm) (now : Int) : Decidable (alarm.readable now) :=
  inferInstanceAs (Decidable (alarm.deadline ≤ now))

def readTimerfd (timerfd : Option Alarm) (now : Int) : Option Alarm :=
  timerfd.filter fun alarm => ¬ alarm.readable now

theorem resetTimerfd_eq (expiration now setAt : Int) :
    resetTimerfd expiration now setAt = some ⟨now, setAt, max (expiration + (setAt - now)) (setAt + 100)⟩ := by
  unfold resetTimerfd timerfd_settime howMuchTimeFromNow kMicroSecondsPerSecond
  have hdelay : (if expiration - now < 100 then 100 else expiration - now) =
      max (expiration + (setAt - now)) (setAt + 100) - setAt := by
    split <;> omega
  have hpos : 100 ≤ max (expiration + (setAt - now)) (setAt + 100) - setAt := by omega
  dsimp only
  rw [hdelay]
  generalize max (expiration + (setAt - now)) (setAt + 100) = deadline at hpos ⊢
  rw [if_neg (by omega)]
  congr 2
  -- whole microseconds lose nothing in `tv_sec` and `tv_nsec`
  omega

/-! ## The queue -/

inductive Fault
  | assertion
  | gone (x : Addr)
  | deleted (x : Addr)
  deriving DecidableEq, Repr

structure ZkTimerQueue where
  timerfd : Option Alarm
  timers : OrdSet Entry
  activeTimers : OrdSet ActiveTimer
  callingExpiredTimers : Bool
  cancelingTimers : OrdSet ActiveTimer
  heap : Addr → Option Timer

namespace ZkTimerQueue

def create : ZkTimerQueue where
  timerfd := none
  timers := .empty
  activeTimers := .empty
  callingExpiredTimers := false
  cancelingTimers := .empty
  heap _ := none

def deref (q : ZkTimerQueue) (x : Addr) : Except Fault Timer :=
  match q.heap x with
  | some timer => .ok timer
  | none => .error (.gone x)

def store (q : ZkTimerQueue) (x : Addr) (timer : Option Timer) : ZkTimerQueue :=
  { q with heap := Function.update q.heap x timer }

def delete (q : ZkTimerQueue) (x : Addr) : Except Fault ZkTimerQueue :=
  match q.heap x with
  | some _ => .ok (q.store x none)
  | none => .error (.deleted x)

def SameSize (q : ZkTimerQueue) : Prop := q.timers.size = q.activeTimers.size

instance decidableSameSize (q : ZkTimerQueue) : Decidable q.SameSize :=
  inferInstanceAs (Decidable (q.timers.size = q.activeTimers.size))

/-- Whether `timers_` is empty or `when` comes before its first entry. -/
def earliest (q : ZkTimerQueue) (when : Int) : Bool :=
  match q.timers.first? with
  | none => true
  | some first => when < first.when

def insert (q : ZkTimerQueue) (x : Addr) : Except Fault (Bool × ZkTimerQueue) := do
  check .assertion q.SameSize
  let timer ← q.deref x
  let earliestChanged := q.earliest timer.expiration
  let result := q.timers.insert ⟨timer.expiration, x⟩
  check .assertion result.2
  let result' := q.activeTimers.insert ⟨x, timer.sequence⟩
  check .assertion result'.2
  let q := { q with timers := result.1, activeTimers := result'.1 }
  check .assertion q.SameSize
  return (earliestChanged, q)

def addTimerInLoop (q : ZkTimerQueue) (x : Addr) (now setAt : Int) : Except Fault ZkTimerQueue := do
  let (earliestChanged, q) ← q.insert x
  if earliestChanged then
    let timer ← q.deref x
    return { q with timerfd := resetTimerfd timer.expiration now setAt }
  return q

def cancelInLoop (q : ZkTimerQueue) (timerId : TimerId) : Except Fault ZkTimerQueue := do
  check .assertion q.SameSize
  if timerId ∈ q.activeTimers then
    let timer ← q.deref timerId.timer
    let result := q.timers.erase ⟨timer.expiration, timerId.timer⟩
    check .assertion (result.2 = 1)
    let q ← { q with timers := result.1 }.delete timerId.timer
    let q := { q with activeTimers := (q.activeTimers.erase timerId).1 }
    check .assertion q.SameSize
    return q
  else if q.callingExpiredTimers then
    let q := { q with cancelingTimers := (q.cancelingTimers.insert timerId).1 }
    check .assertion q.SameSize
    return q
  else
    check .assertion q.SameSize
    return q

def eraseActive (q : ZkTimerQueue) (e : Entry) : Except Fault ZkTimerQueue := do
  let timer ← q.deref e.timer
  let result := q.activeTimers.erase ⟨e.timer, timer.sequence⟩
  check .assertion (result.2 = 1)
  return { q with activeTimers := result.1 }

def getExpired (q : ZkTimerQueue) (now : Int) : Except Fault (List Entry × ZkTimerQueue) := do
  check .assertion q.SameSize
  let sentry : Entry := ⟨now, UINTPTR_MAX⟩
  let rest := q.timers.onward sentry
  check .assertion (∀ e ∈ rest.first?, now < e.when)
  let expired := q.timers.before sentry
  let q ← expired.foldlM eraseActive { q with timers := rest }
  check .assertion q.SameSize
  return (expired, q)

/-- `handleRead` up to the first callback. -/
def beginRead (q : ZkTimerQueue) (now : Int) : Except Fault (List Entry × ZkTimerQueue) := do
  let (expired, q) ← { q with timerfd := readTimerfd q.timerfd now }.getExpired now
  return (expired, { q with callingExpiredTimers := true, cancelingTimers := .empty })

def resetOne (now : Int) (q : ZkTimerQueue) (e : Entry) : Except Fault ZkTimerQueue := do
  let timer ← q.deref e.timer
  if timer.repeat_ ∧ ⟨e.timer, timer.sequence⟩ ∉ q.cancelingTimers then
    let (_, q) ← (q.store e.timer (some (timer.restart now))).insert e.timer
    return q
  else
    q.delete e.timer

/-- `now` is what `handleRead` has read; `resetTimerfd` reads the clock at `clock`. -/
def reset (q : ZkTimerQueue) (expired : List Entry) (now clock setAt : Int) : Except Fault ZkTimerQueue := do
  let q ← expired.foldlM (resetOne now) q
  let nextExpire ←
    match q.timers.first? with
    | none => pure (0 : Int)
    | some first => do
      let timer ← q.deref first.timer
      pure timer.expiration
  if valid nextExpire then
    return { q with timerfd := resetTimerfd nextExpire clock setAt }
  return q

end ZkTimerQueue

/-! ## The loop -/

/-- `calling`: in `handleRead`, with what `getExpired` returned and what of it has still to be run. -/
inductive Pc
  | idle
  | calling (now : Int) (expired rest : List Entry)
  deriving DecidableEq, Repr

structure St where
  queue : ZkTimerQueue
  pending : List Addr  -- handed to `runInThread` by `addTimer`
  numCreated : Nat
  clock : Int
  pc : Pc
  fault : Option Fault

def St.initial (clock : Int) : St where
  queue := .create
  pending := []
  numCreated := 0
  clock := clock
  pc := .idle
  fault := none

/-- `lag` is what passes between the two readings of the clock. -/
inductive Act
  | tick (d : Nat)
  | addTimer (x : Addr) (when : Int) (interval : Option Nat)
  | addTimerInLoop (x : Addr) (lag : Nat)
  | cancelInLoop (timerId : TimerId)
  | handleRead
  | run  -- the next of the batch
  | reset (lag : Nat)
  deriving DecidableEq, Repr

/-- The loop runs functors outside `handleRead`, and in a callback once the first has begun. -/
def Pc.inLoop : Pc → Bool
  | .idle => true
  | .calling _ expired rest => rest.length < expired.length

def St.set (s : St) (result : Except Fault ZkTimerQueue) : St :=
  match result with
  | .ok q => { s with queue := q }
  | .error fault => { s with fault := some fault }

def St.handleRead (s : St) : St :=
  match s.queue.beginRead s.clock with
  | .ok (expired, q) => { s with queue := q, pc := .calling s.clock expired expired }
  | .error fault => { s with fault := some fault }

def St.runNext (s : St) : Option St :=
  match s.pc with
  | .calling now expired (e :: rest) =>
    match s.queue.deref e.timer with
    | .ok _ => some { s with pc := .calling now expired rest }
    | .error fault => some { s with fault := some fault }
  | _ => none

def St.resetBatch (s : St) (lag : Nat) : Option St :=
  match s.pc with
  | .calling now expired [] =>
    some ({ s with pc := .idle, clock := s.clock + lag }.set
      ({ s.queue with callingExpiredTimers := false }.reset expired now s.clock (s.clock + lag)))
  | _ => none

def perform (s : St) (a : Act) : Option St :=
  match a with
  | .tick d => some { s with clock := s.clock + d }
  | .addTimer x when interval =>
    if s.queue.heap x = none ∧ x < UINTPTR_MAX then
      some { s with
        queue := s.queue.store x (some ⟨when, interval, s.numCreated + 1⟩)
        numCreated := s.numCreated + 1
        pending := x :: s.pending }
    else none
  | .addTimerInLoop x lag =>
    if x ∈ s.pending ∧ s.pc.inLoop then
      some ({ s with pending := s.pending.erase x, clock := s.clock + lag }.set
        (s.queue.addTimerInLoop x s.clock (s.clock + lag)))
    else none
  | .cancelInLoop timerId => if s.pc.inLoop then some (s.set (s.queue.cancelInLoop timerId)) else none
  | .handleRead => if s.pc = .idle then some s.handleRead else none
  | .run => s.runNext
  | .reset lag => s.resetBatch lag

def step (s : St) (a : Act) : Option St := if s.fault = none then perform s a else none

end ZkCppClient.Timers
