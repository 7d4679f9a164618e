import Mathlib.Logic.Function.Basic
import ZkCppClient.Session.Retrying

/-!
# The tasks that supervise the sessions

`Session.step` runs the ends of `init`, `retry` and `checkSessionState` in one
step each. Here each read and each write of the flags, and each `runAfter`, is a
step, so that the first thread, the second thread and the creator of the client
may interleave anywhere. All clients of the process share the two threads. A
handle is given to one client only.
-/

namespace ZkCppClient.Session

/-- Scheduling a retry, in `checkSessionState` and in `retry`. -/
inductive SchedulePc
  | getRetryDelay
  | runAfter (delay : Nat)
  | getRetryDelayAgain
  | setRetryDelay (delay : Nat)
  | setIsRetrying
  deriving DecidableEq, Repr

inductive ExpiredPc
  | start  -- `hasCallTimeoutFun` to be read
  | handler  -- in the user's handler
  | isRetrying
  | isSupportReconnect
  | schedule (pc : SchedulePc)
  deriving DecidableEq, Repr

/-- `init` after its wait, or `retry` after `reconnect`. -/
inductive FinishPc
  | start
  | setIsRetrying
  | setHasCallTimeoutFun
  | runAfter
  | schedule (pc : SchedulePc)
  deriving DecidableEq, Repr

/-- `created` is what `createZkClient` has returned, success or not. -/
structure Supervised where
  session : St
  expired : ExpiredPc
  finish : FinishPc
  created : Option Bool

def Supervised.initial (timeout : Int) (expiredHandler : Bool) (now : Int) : Supervised where
  session := St.initial timeout expiredHandler now
  expired := .start
  finish := .start
  created := none

/-- The second component is where the scheduling goes on, if it does. -/
def scheduleStep (s : St) : SchedulePc → St × Option SchedulePc
  | .getRetryDelay => (s, some (.runAfter s.client.retryDelay))
  | .runAfter delay => ({ s with retryTimers := delay :: s.retryTimers }, some .getRetryDelayAgain)
  | .getRetryDelayAgain => (s, some (.setRetryDelay (min (s.client.retryDelay * 2) kMaxRetryDelay)))
  | .setRetryDelay delay => ({ s with client := { s.client with retryDelay := delay } }, some .setIsRetrying)
  | .setIsRetrying => ({ s with client := { s.client with isRetrying := true } }, none)

def expiredStep (x : Supervised) : Supervised :=
  let s := x.session
  match x.expired with
  | .start => { x with expired := if !s.client.hasCallTimeoutFun && s.client.expiredHandler then .handler else .isRetrying }
  | .handler =>
    { x with
      session := { s with handlerCalls := s.handlerCalls + 1, client := { s.client with hasCallTimeoutFun := true } }
      expired := .isRetrying }
  | .isRetrying =>
    if s.client.isRetrying then { x with session := { s with check := .again } }
    else { x with expired := .isSupportReconnect }
  | .isSupportReconnect =>
    if s.client.isSupportReconnect then { x with expired := .schedule .getRetryDelay }
    else { x with session := { s with check := .again } }
  | .schedule pc =>
    match scheduleStep s pc with
    | (s, some pc) => { x with session := s, expired := .schedule pc }
    | (s, none) => { x with session := { s with check := .again } }

def initStep (x : Supervised) : Bool → FinishPc → Option Supervised
  | false, _ => some { x with session := { x.session with waiter := none }, created := some false }
  | true, .start =>
    some { x with
      session := { x.session with client := { x.session.client with isInitialized := true } }
      finish := .setIsRetrying }
  | true, .setIsRetrying =>
    some { x with
      session := { x.session with client := { x.session.client with isRetrying := false } }
      finish := .setHasCallTimeoutFun }
  | true, .setHasCallTimeoutFun =>
    some { x with
      session := { x.session with client := { x.session.client with hasCallTimeoutFun := false } }
      finish := .runAfter }
  | true, .runAfter =>
    some { x with
      session := { x.session with waiter := none, checkTimers := x.session.checkTimers + 1 }
      created := some true }
  | true, .schedule _ => none

def retryStep (x : Supervised) : Bool → FinishPc → Option Supervised
  | true, .start =>
    some { x with
      session := { x.session with client := { x.session.client with retryDelay := kInitRetryDelay } }
      finish := .setIsRetrying }
  | true, .setIsRetrying =>
    some { x with
      session := { x.session with client := { x.session.client with isRetrying := false } }
      finish := .setHasCallTimeoutFun }
  | true, .setHasCallTimeoutFun =>
    some { x with
      session := { x.session with waiter := none, client := { x.session.client with hasCallTimeoutFun := false } } }
  | false, .start =>
    if x.session.client.isSupportReconnect then some { x with finish := .schedule .getRetryDelay }
    else some { x with session := { x.session with waiter := none } }
  | false, .schedule pc =>
    match scheduleStep x.session pc with
    | (s, some pc) => some { x with session := s, finish := .schedule pc }
    | (s, none) => some { x with session := { s with waiter := none } }
  | _, _ => none

def supervisedStep (x : Supervised) : Act → Option Supervised
  | .finish =>
    match x.session.waiter with
    | some ⟨.creator, .done ok⟩ => initStep x ok x.finish
    | some ⟨.second, .done ok⟩ => retryStep x ok x.finish
    | _ => none
  | .check =>
    match x.session.check with
    | .expired => some (expiredStep x)
    | .setExpired => (checkStep x.session).map fun s => { x with session := s, expired := .start }
    | _ => (checkStep x.session).map fun s => { x with session := s }
  | .leaveWait => (step x.session .leaveWait).map fun s => { x with session := s, finish := .start }
  | .zookeeperInitReturn => (step x.session .zookeeperInitReturn).map fun s => { x with session := s, finish := .start }
  | a => (step x.session a).map fun s => { x with session := s }

/-- `first` and `second` are the clients that the two threads are in `checkSessionState` and in `retry` for. -/
structure Supervision where
  now : Int
  clients : Nat → Option Supervised
  first : Option Nat
  second : Option Nat

def Supervision.initial (now : Int) : Supervision := ⟨now, fun _ => none, none, none⟩

inductive SupervisionAct
  | tick (d : Nat)
  | createZkClient (handle : Nat) (timeout : Int) (expiredHandler : Bool)
  | client (handle : Nat) (a : Act)
  deriving DecidableEq, Repr

/-- The thread that the action is for is at work for some client. Time passes for all clients at once. -/
def Supervision.blocked (p : Supervision) : Act → Bool
  | .checkSessionState => p.first.isSome
  | .retry _ => p.second.isSome
  | .tick _ => true
  | _ => false

def Supervision.put (p : Supervision) (handle : Nat) (x : Supervised) : Supervision :=
  { p with
    clients := Function.update p.clients handle (some x)
    first := if x.session.check ≠ .idle then some handle else if p.first = some handle then none else p.first
    second := if x.session.inRetry then some handle else if p.second = some handle then none else p.second }

def supervisionStep (p : Supervision) : SupervisionAct → Option Supervision
  | .tick d =>
    some { p with
      now := p.now + d
      clients := fun handle => (p.clients handle).bind fun x => supervisedStep x (.tick d) }
  | .createZkClient handle timeout expiredHandler =>
    if handle = 0 ∨ (p.clients handle).isSome then none
    else some (p.put handle (.initial timeout expiredHandler p.now))
  | .client handle a =>
    if p.blocked a then none else ((p.clients handle).bind fun x => supervisedStep x a).map (p.put handle)

def WaitPc.result : WaitPc → Option Bool
  | .done ok => some ok
  | _ => none

/-! ## Without interruption -/

structure Settled (x : Supervised) : Prop where
  finish : ∀ w ok, x.session.waiter = some w → w.pc = .done ok → x.finish = .start
  expired : x.session.check = .expired → x.expired = .start

section
variable {x : Supervised} {t : St}

def Alone (x : Supervised) (t : St) : Prop :=
  ∃ as y, Lts.run supervisedStep x as = some y ∧ y.session = t ∧ Settled y

theorem finish_alone (hx : Settled x) (h : step x.session .finish = some t) : Alone x t := by
  have hsettled : ∀ y : Supervised, y.session.waiter = none → y.session.check = x.session.check →
      y.expired = x.expired → Settled y := by
    intro y hw hcheck hexpired
    constructor
    · simp [hw]
    · rw [hcheck, hexpired]; exact hx.expired
  cases step_inv h with
  | @finishInit ok hw =>
    have hf := hx.finish _ ok hw rfl
    cases ok with
    | false =>
      refine ⟨[.finish], { x with session := finishInit x.session false, created := some false }, ?_, rfl, ?_⟩
      · simp [Lts.run, supervisedStep, hw, initStep, finishInit]
      · exact hsettled _ rfl rfl rfl
    | true =>
      refine ⟨[.finish, .finish, .finish, .finish],
        ⟨finishInit x.session true, x.expired, .runAfter, some true⟩, ?_, rfl, ?_⟩
      · simp [Lts.run, supervisedStep, hw, hf, initStep, finishInit]
      · exact hsettled _ rfl rfl rfl
  | @finishRetry ok hw =>
    have hf := hx.finish _ ok hw rfl
    cases ok with
    | true =>
      refine ⟨[.finish, .finish, .finish],
        { x with session := finishRetry x.session true, finish := .setHasCallTimeoutFun }, ?_, rfl, ?_⟩
      · simp [Lts.run, supervisedStep, hw, hf, retryStep, finishRetry]
      · exact hsettled _ rfl rfl rfl
    | false =>
      by_cases hs : x.session.client.isSupportReconnect = true
      · refine ⟨[.finish, .finish, .finish, .finish, .finish, .finish],
          { x with session := finishRetry x.session false, finish := .schedule .setIsRetrying }, ?_, rfl, ?_⟩
        · simp [Lts.run, supervisedStep, hw, hf, hs, retryStep, scheduleStep, finishRetry, scheduleRetry]
        · apply hsettled <;> simp [finishRetry, scheduleRetry, hs]
      · refine ⟨[.finish], { x with session := finishRetry x.session false }, ?_, rfl, ?_⟩
        · simp [Lts.run, supervisedStep, hw, hf, hs, retryStep, finishRetry]
        · apply hsettled <;> simp [finishRetry, hs]

theorem alone_of_step {y : Supervised} {a : Act} (h : supervisedStep x a = some y) (hy : Alone y t) : Alone x t := by
  obtain ⟨as, z, hr, hz⟩ := hy
  exact ⟨a :: as, z, by rw [Lts.run_cons, h]; exact hr, hz⟩

theorem isRetrying_alone (hsettled : ∀ y : Supervised, y.session.check = .again →
      y.session.waiter = x.session.waiter → y.finish = x.finish → Settled y)
    (hc : x.session.check = .expired) (he : x.expired = .isRetrying) :
    Alone x { (if !x.session.client.isRetrying && x.session.client.isSupportReconnect then scheduleRetry x.session
      else x.session) with check := .again } := by
  by_cases hretrying : x.session.client.isRetrying = true
  · refine ⟨[.check], { x with session := { x.session with check := .again } }, ?_, ?_, hsettled _ rfl rfl rfl⟩
    · simp [Lts.run, supervisedStep, hc, expiredStep, he, hretrying]
    · simp [hretrying]
  · by_cases hsupport : x.session.client.isSupportReconnect = true
    · refine ⟨[.check, .check, .check, .check, .check, .check, .check],
        { x with
          session := { scheduleRetry x.session with check := .again }
          expired := .schedule .setIsRetrying }, ?_, ?_, hsettled _ rfl rfl rfl⟩
      · simp [Lts.run, supervisedStep, hc, expiredStep, he, hretrying, hsupport, scheduleStep, scheduleRetry]
      · simp [hretrying, hsupport]
    · refine ⟨[.check, .check],
        { x with session := { x.session with check := .again }, expired := .isSupportReconnect }, ?_, ?_,
        hsettled _ rfl rfl rfl⟩
      · simp [Lts.run, supervisedStep, hc, expiredStep, he, hretrying, hsupport]
      · simp [hsupport]

theorem expired_alone (hx : Settled x) (hc : x.session.check = .expired) :
    Alone x { sessionExpired x.session with check := .again } := by
  have he := hx.expired hc
  have hsettled : ∀ y : Supervised, y.session.check = .again → y.session.waiter = x.session.waiter →
      y.finish = x.finish → Settled y := by
    intro y hcheck hw hfinish
    constructor
    · rw [hw, hfinish]; exact hx.finish
    · simp [hcheck]
  by_cases hcall : (!x.session.client.hasCallTimeoutFun && x.session.client.expiredHandler) = true
  · have hstart : supervisedStep x .check = some { x with expired := .handler } := by
      simp only [supervisedStep, hc, expiredStep, he, hcall, if_true]
    refine alone_of_step hstart (alone_of_step (a := .check)
      (y := { x with session := callExpiredHandler x.session, expired := .isRetrying }) ?_ ?_)
    · simp [supervisedStep, hc, expiredStep, callExpiredHandler, hcall]
    · have hflags := isRetrying_alone (x := { x with session := callExpiredHandler x.session, expired := .isRetrying })
      simp only [callExpiredHandler, hcall, if_true] at hflags
      simp only [sessionExpired, callExpiredHandler, hcall, if_true]
      exact hflags (fun y hcheck hw hfinish => hsettled y hcheck hw hfinish) hc trivial
  · have hstart : supervisedStep x .check = some { x with expired := .isRetrying } := by
      simp only [supervisedStep, hc, expiredStep, he, hcall]
      rfl
    refine alone_of_step hstart ?_
    have hflags := isRetrying_alone (x := { x with expired := .isRetrying })
      (fun y hcheck hw hfinish => hsettled y hcheck hw hfinish) hc rfl
    simp only [sessionExpired, callExpiredHandler, hcall]
    exact hflags

theorem step_alone {a : Act} (hx : Settled x) (h : step x.session a = some t) : Alone x t := by
  have hsame : supervisedStep x a = some { x with session := t } →
      (∀ w ok, t.waiter = some w → w.pc = .done ok → ∃ w', x.session.waiter = some w' ∧ w'.pc = .done ok) →
      (t.check = .expired → x.session.check = .expired) → Alone x t := by
    intro hs hwaiter hcheck
    refine ⟨[a], { x with session := t }, by rw [Lts.run_cons, hs]; rfl, rfl, ?_, fun hc => hx.expired (hcheck hc)⟩
    intro w ok hw hpc
    obtain ⟨w', hw', hpc'⟩ := hwaiter w ok hw hpc
    exact hx.finish w' ok hw' hpc'
  have hkept : t.waiter = x.session.waiter → ∀ w ok, t.waiter = some w → w.pc = .done ok →
      ∃ w', x.session.waiter = some w' ∧ w'.pc = .done ok := fun hw w ok h hpc => ⟨w, hw ▸ h, hpc⟩
  have hdone : ∀ who pc, t.waiter = some ⟨who, pc⟩ → pc.result = none → ∀ w ok, t.waiter = some w → w.pc = .done ok →
      ∃ w', x.session.waiter = some w' ∧ w'.pc = .done ok := by
    intro who pc hw hr w ok h hpc
    rw [hw] at h
    obtain rfl := Option.some.inj h
    simp only at hpc
    subst hpc
    cases hr
  have hreturned : supervisedStep x a = some { x with session := t, finish := .start } →
      t.check = x.session.check → Alone x t := fun hs hcheck =>
    ⟨[a], { x with session := t, finish := .start }, by rw [Lts.run_cons, hs]; rfl, rfl, fun _ _ _ _ => rfl,
      fun hc => hx.expired (hcheck ▸ hc)⟩
  cases step_inv h with
  | tick d => exact hsame rfl (hkept rfl) id
  | dropped hreg => exact hsame (by simp [supervisedStep, h]) (hkept rfl) id
  | delivered hlive hmutex hreg => exact hsame (by simp [supervisedStep, h]) (hkept rfl) id
  | @watcher w hw =>
    have hs : supervisedStep x .watcher = some { x with session := sessionWatcher x.session w } := by
      simp [supervisedStep, h]
    have hnotified : ∀ w₀ ok, notify x.session.waiter = some w₀ → w₀.pc = .done ok → x.session.waiter = some w₀ := by
      intro w₀ ok hw hpc
      unfold notify at hw
      split at hw
      · obtain rfl := Option.some.inj hw
        cases hpc
      · exact hw
    obtain ⟨_, _, _, _, _, heq⟩ := sessionWatcher_eq x.session w
    refine hsame hs (fun w₀ ok hw hpc => ?_) (by rw [heq]; exact id)
    rw [heq] at hw
    simp only at hw
    split at hw
    · exact ⟨w₀, hnotified w₀ ok hw hpc, hpc⟩
    · exact ⟨w₀, hw, hpc⟩
  | callOk hw => exact hsame (by simp [supervisedStep, h]) (hdone _ _ rfl rfl) id
  | callFail hw => exact hsame (by simp [supervisedStep, h]) (hdone _ _ rfl rfl) id
  | testLeave hw => exact hsame (by simp [supervisedStep, h]) (hdone _ _ rfl rfl) id
  | testHold hw => exact hsame (by simp [supervisedStep, h]) (hdone _ _ rfl rfl) id
  | park hw => exact hsame (by simp [supervisedStep, h]) (hdone _ _ rfl rfl) id
  | wakeUp hw => exact hsame (by simp [supervisedStep, h]) (hdone _ _ rfl rfl) id
  | returnOk hw => exact hreturned (by simp [supervisedStep, h]) rfl
  | returnFail hw => exact hreturned (by simp [supervisedStep, h]) rfl
  | leaveInit hw => exact hreturned (by simp [supervisedStep, h]) rfl
  | leaveReconnect hw => exact hreturned (by simp [supervisedStep, h]) rfl
  | finishInit hw => exact finish_alone hx h
  | finishRetry hw => exact finish_alone hx h
  | retryGone hw hf => exact hsame (by simp [supervisedStep, h]) (by simp) id
  | retry hw hf => exact hsame (by simp [supervisedStep, h]) (hdone _ _ rfl rfl) id
  | checkGone hc => exact hsame (by simp [supervisedStep, h]) (hkept rfl) (by simp)
  | check hc hf => exact hsame (by simp [supervisedStep, h]) (hkept rfl) (by simp)
  | isExpired hc hpc =>
    refine hsame ?_ (hkept rfl) (by rw [hpc]; split <;> simp)
    simp [supervisedStep, hc, show checkStep x.session = some _ from h]
  | isConnected hc hpc =>
    refine hsame ?_ (hkept rfl) (by rw [hpc]; split <;> simp)
    simp [supervisedStep, hc, show checkStep x.session = some _ from h]
  | compare hc hpc =>
    refine hsame ?_ (hkept rfl) (by rw [hpc]; split <;> simp)
    simp [supervisedStep, hc, show checkStep x.session = some _ from h]
  | setExpired hc =>
    refine ⟨[.check], ⟨_, .start, x.finish, x.created⟩, ?_, rfl, hx.finish, fun _ => rfl⟩
    simp [Lts.run, supervisedStep, hc, show checkStep x.session = some _ from h]
  | expired hc => exact expired_alone hx hc
  | again hc =>
    refine hsame ?_ (hkept rfl) (by simp)
    simp [supervisedStep, hc, show checkStep x.session = some _ from h]
  | readCurrentMs hc => exact hsame (by simp [supervisedStep, h]) (hkept rfl) (by simp)
  | readSessDisconn hc => exact hsame (by simp [supervisedStep, h]) (hkept rfl) (by simp)
  | readSessTimeout hc => exact hsame (by simp [supervisedStep, h]) (hkept rfl) (by simp)
  | setIsSupportReconnect isReconn => exact hsame rfl (hkept rfl) id
  | destroyClient => exact hsame rfl (hkept rfl) id
  | destruct hreg hd hw hmutex hc => exact hsame (by simp [supervisedStep, h]) (hkept rfl) id

end

/-- Every run of `Session.step` is one of this machine, in which the ends run without interruption. -/
theorem run_alone : ∀ {as : List Act} {x : Supervised} {t : St}, Settled x → Lts.run step x.session as = some t →
    Alone x t
  | [], x, t, hx, hr => by
    obtain rfl := Option.some.inj hr
    exact ⟨[], x, rfl, rfl, hx⟩
  | a :: as, x, t, hx, hr => by
    obtain ⟨s, hs, hr⟩ := Lts.run_cons_some hr
    obtain ⟨bs, y, hy, rfl, hsettled⟩ := step_alone hx hs
    obtain ⟨cs, z, hz, hend⟩ := run_alone hsettled hr
    exact ⟨bs ++ cs, z, by rw [Lts.run_append, hy]; exact hz, hend⟩

theorem initial_alone {timeout : Int} {expiredHandler : Bool} {now : Int} {as : List Act} {t : St}
    (hr : Lts.run step (.initial timeout expiredHandler now) as = some t) :
    Alone (.initial timeout expiredHandler now) t :=
  run_alone (x := .initial timeout expiredHandler now) ⟨fun _ _ _ _ => rfl, fun _ => rfl⟩ hr

end ZkCppClient.Session
