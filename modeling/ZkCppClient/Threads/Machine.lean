import Mathlib.Logic.Function.Basic
import ZkCppClient.Lib.Run

/-!
# The worker threads and their queues

Worker threads in `LoopFun`, from the `start` in the constructor of the manager
on, and any number of other threads. Everything that a thread runs for the user
(a functor of its batch, the callback of a timer, its own code if it is not a
worker) may call `runInThread` and `runAfter`, for every thread. Each section
under `funsMutex_` or `dataMutex_` is a step; `timeMutex_` only keeps calls of
`runAt` apart. A worker is known by its thread id.
-/

namespace ZkCppClient.Threads

abbrev ThreadId := Nat

/-- What is queued: a callback of `runInThread`, or `addTimerInLoop` for a timer's. -/
inductive Functor (φ : Type)
  | fn (cb : φ)
  | addTimerInLoop (cb : φ)
  deriving DecidableEq, Repr

/-- `eventfd` is the counter of the eventfd. -/
structure ThreadData where
  eventfd : Nat
  callingPendingFunctors : Bool
  deriving DecidableEq, Repr

inductive LoopPc (φ : Type)
  | created  -- its thread id not yet published
  | published
  | registered  -- with `CbFunManager`
  | inserted  -- its timer queue
  | blocked  -- in `epoll_wait`
  | handling (readable : Bool)  -- the events, the eventfd's among them or not
  | calling  -- the queue to be swapped out
  | running (functors : List (Functor φ))
  | inFunctor (functors : List (Functor φ))
  deriving DecidableEq, Repr

inductive SubmitPc (φ : Type)
  | idle
  | runInThread (thread_id : ThreadId) (cb : Functor φ)
  | runAt (thread_id : ThreadId) (cb : φ)
  | wakeup (thread_id : ThreadId)
  | write (thread_id : ThreadId)
  deriving DecidableEq, Repr

structure St (φ : Type) where
  pendingFunctors : ThreadId → Option (List (Functor φ))
  threadDatas : ThreadId → Option ThreadData
  timerQueues : ThreadId → Bool
  loop : ThreadId → Option (LoopPc φ)
  submit : ThreadId → SubmitPc φ

inductive Act (φ : Type)
  | loop (t : ThreadId)
  | runInThread (x thread_id : ThreadId) (cb : φ)
  | runAfter (x thread_id : ThreadId) (cb : φ)
  | toWorker (x w : ThreadId) (timer : Bool) (cb : φ)  -- with `getFirstThreadId` or `getSecondThreadId`
  | submit (x : ThreadId)
  deriving DecidableEq, Repr

section
variable {φ : Type}

def St.constructed (workers : ThreadId → Bool) : St φ where
  pendingFunctors _ := none
  threadDatas _ := none
  timerQueues _ := false
  loop t := if workers t then some .created else none
  submit _ := .idle

def St.looping (workers : ThreadId → Bool) : St φ where
  pendingFunctors _ := none
  threadDatas t := if workers t then some ⟨0, false⟩ else none
  timerQueues := workers
  loop t := if workers t then some .blocked else none
  submit _ := .idle

def St.tid (s : St φ) (w : ThreadId) : ThreadId :=
  match s.loop w with
  | none | some .created => 0
  | some _ => w

def St.pending (s : St φ) (t : ThreadId) : List (Functor φ) := (s.pendingFunctors t).getD []

def St.readable (s : St φ) (t : ThreadId) : Bool := (s.threadDatas t).any fun data => 0 < data.eventfd

def St.setLoop (s : St φ) (t : ThreadId) (pc : LoopPc φ) : St φ := { s with loop := Function.update s.loop t (some pc) }

def St.setSubmit (s : St φ) (x : ThreadId) (pc : SubmitPc φ) : St φ :=
  { s with submit := Function.update s.submit x pc }

def St.setData (s : St φ) (t : ThreadId) (f : ThreadData → ThreadData) : St φ :=
  { s with threadDatas := Function.update s.threadDatas t ((s.threadDatas t).map f) }

def ThreadData.written (data : ThreadData) : ThreadData :=
  -- a write to a counter at its maximum fails
  { data with eventfd := if data.eventfd < 0xfffffffffffffffe then data.eventfd + 1 else data.eventfd }

/-- `push_back` under `funsMutex_`, for a thread id that need not be known. -/
def St.push (s : St φ) (thread_id : ThreadId) (cb : Functor φ) : St φ :=
  { s with pendingFunctors := Function.update s.pendingFunctors thread_id (some (s.pending thread_id ++ [cb])) }

def St.swap (s : St φ) (t : ThreadId) : St φ :=
  { s with pendingFunctors := Function.update s.pendingFunctors t ((s.pendingFunctors t).map fun _ => []) }

def St.loopStep (s : St φ) (t : ThreadId) : LoopPc φ → St φ
  | .created => s.setLoop t .published
  | .published =>
    { s with threadDatas := Function.update s.threadDatas t (some ⟨0, false⟩) }.setLoop t .registered
  | .registered => { s with timerQueues := Function.update s.timerQueues t true }.setLoop t .inserted
  | .inserted => s.setLoop t .blocked
  | .blocked => s.setLoop t (.handling (s.readable t))  -- or a timer's, or none in time
  | .handling true => (s.setData t fun data => { data with eventfd := 0 }).setLoop t (.handling false)
  | .handling false => (s.setData t fun data => { data with callingPendingFunctors := true }).setLoop t .calling
  | .calling => (s.swap t).setLoop t (.running (s.pending t))
  | .running (_ :: functors) => s.setLoop t (.inFunctor functors)
  | .inFunctor functors => s.setLoop t (.running functors)
  | .running [] => (s.setData t fun data => { data with callingPendingFunctors := false }).setLoop t .blocked

/-- The next step of a call by `x`. A thread runs what is for itself at once. -/
def St.submitStep (s : St φ) (x : ThreadId) : SubmitPc φ → Option (St φ)
  | .idle => none
  | .runAt thread_id cb =>
    some (s.setSubmit x (if s.timerQueues thread_id then .runInThread thread_id (.addTimerInLoop cb) else .idle))
  | .runInThread thread_id cb =>
    some (if x = thread_id then s.setSubmit x .idle else (s.push thread_id cb).setSubmit x (.wakeup thread_id))
  | .wakeup thread_id =>
    some (s.setSubmit x (match s.threadDatas thread_id with
      | none => .idle
      | some data => if x ≠ thread_id ∨ data.callingPendingFunctors then .write thread_id else .idle))
  | .write thread_id => some ((s.setData thread_id ThreadData.written).setSubmit x .idle)

/-- The thread is in code that may call `runInThread` or `runAfter`. -/
def St.mayCall (s : St φ) (x : ThreadId) : Bool :=
  match s.submit x, s.loop x with
  | .idle, none | .idle, some (.handling _) | .idle, some (.inFunctor _) => true
  | _, _ => false

def St.call (s : St φ) (x : ThreadId) (pc : SubmitPc φ) : Option (St φ) :=
  if s.mayCall x then some (s.setSubmit x pc) else none

def step (s : St φ) : Act φ → Option (St φ)
  | .loop t =>
    match s.submit t with
    | .idle => (s.loop t).map (s.loopStep t)
    | _ => none
  | .runInThread x thread_id cb => s.call x (.runInThread thread_id (.fn cb))
  | .runAfter x thread_id cb => s.call x (.runAt thread_id cb)
  | .toWorker x w timer cb =>
    if (s.loop w).isSome then s.call x (if timer then .runAt (s.tid w) cb else .runInThread (s.tid w) (.fn cb)) else none
  | .submit x => s.submitStep x (s.submit x)

/-! ## What a step can do -/

inductive Step (s : St φ) : Act φ → St φ → Prop
  | loop {t pc} : s.submit t = .idle → s.loop t = some pc → Step s (.loop t) (s.loopStep t pc)
  | runInThread {x thread_id cb} : s.mayCall x = true →
      Step s (.runInThread x thread_id cb) (s.setSubmit x (.runInThread thread_id (.fn cb)))
  | runAfter {x thread_id cb} : s.mayCall x = true →
      Step s (.runAfter x thread_id cb) (s.setSubmit x (.runAt thread_id cb))
  | toWorker {x w timer cb} : (s.loop w).isSome → s.mayCall x = true → Step s (.toWorker x w timer cb)
      (s.setSubmit x (if timer then .runAt (s.tid w) cb else .runInThread (s.tid w) (.fn cb)))
  | own {x cb} : s.submit x = .runInThread x cb → Step s (.submit x) (s.setSubmit x .idle)
  | push {x thread_id cb} : s.submit x = .runInThread thread_id cb → x ≠ thread_id →
      Step s (.submit x) ((s.push thread_id cb).setSubmit x (.wakeup thread_id))
  | addTimer {x thread_id cb} : s.submit x = .runAt thread_id cb → s.timerQueues thread_id = true →
      Step s (.submit x) (s.setSubmit x (.runInThread thread_id (.addTimerInLoop cb)))
  | dropped {x thread_id cb} : s.submit x = .runAt thread_id cb → s.timerQueues thread_id = false →
      Step s (.submit x) (s.setSubmit x .idle)
  | toWrite {x thread_id} : s.submit x = .wakeup thread_id → Step s (.submit x) (s.setSubmit x (.write thread_id))
  | unwritten {x thread_id} : s.submit x = .wakeup thread_id →
      ((s.threadDatas thread_id).isSome → x = thread_id) → Step s (.submit x) (s.setSubmit x .idle)
  | write {x thread_id} : s.submit x = .write thread_id →
      Step s (.submit x) ((s.setData thread_id ThreadData.written).setSubmit x .idle)

theorem idle_of_mayCall {s : St φ} {x : ThreadId} (h : s.mayCall x = true) : s.submit x = .idle := by
  simp only [St.mayCall] at h
  split at h <;> simp_all

theorem call_some {s s' : St φ} {x : ThreadId} {pc : SubmitPc φ} (h : s.call x pc = some s') :
    s.mayCall x = true ∧ s' = s.setSubmit x pc := by
  simp only [St.call] at h
  split at h
  case isTrue hmay => exact ⟨hmay, (Option.some.inj h).symm⟩
  case isFalse => cases h

theorem submitStep_inv {s s' : St φ} {x : ThreadId} (h : s.submitStep x (s.submit x) = some s') :
    Step s (.submit x) s' := by
  cases hpc : s.submit x with
  | idle => rw [hpc] at h; cases h
  | runInThread thread_id cb =>
    rw [hpc] at h
    obtain rfl := Option.some.inj h
    -- a thread runs what is for itself at once
    by_cases hx : x = thread_id
    · subst hx
      rw [if_pos rfl]
      exact .own hpc
    · rw [if_neg hx]
      exact .push hpc hx
  | runAt thread_id cb =>
    rw [hpc] at h
    obtain rfl := Option.some.inj h
    -- a timer for a thread without a timer queue is dropped
    cases hq : s.timerQueues thread_id with
    | true => exact .addTimer hpc hq
    | false => exact .dropped hpc hq
  | wakeup thread_id =>
    rw [hpc] at h
    obtain rfl := Option.some.inj h
    cases hd : s.threadDatas thread_id with
    | none => exact .unwritten hpc (by simp [hd])
    | some data =>
      simp only
      split
      case isTrue => exact .toWrite hpc
      case isFalse hno => exact .unwritten hpc fun _ => Classical.byContradiction fun hx => hno (.inl hx)
  | write thread_id =>
    rw [hpc] at h
    obtain rfl := Option.some.inj h
    exact .write hpc

theorem step_inv {s s' : St φ} {a : Act φ} (h : step s a = some s') : Step s a s' := by
  cases a with
  | loop t =>
    simp only [step] at h
    cases hidle : s.submit t <;> simp only [hidle, reduceCtorEq] at h
    obtain ⟨pc, hpc, rfl⟩ := Option.map_eq_some_iff.mp h
    exact .loop hidle hpc
  | runInThread x thread_id cb =>
    obtain ⟨hmay, rfl⟩ := call_some h
    exact .runInThread hmay
  | runAfter x thread_id cb =>
    obtain ⟨hmay, rfl⟩ := call_some h
    exact .runAfter hmay
  | toWorker x w timer cb =>
    simp only [step] at h
    split at h
    case isTrue hw =>
      obtain ⟨hmay, rfl⟩ := call_some h
      exact .toWorker hw hmay
    case isFalse => cases h
  | submit x => exact submitStep_inv h

end

end ZkCppClient.Threads
