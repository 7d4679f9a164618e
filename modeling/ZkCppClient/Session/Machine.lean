import ZkCppClient.Basic
import ZkCppClient.Lib.Run

/-!
# The session of one client

One `ZkClient` with the threads that work on its session: the creator of the
client in `init`, the second thread in `retry` and `reconnect`, the first
thread in `checkSessionState`, and the library threads of the client's
ZooKeeper handles in `sessionWatcher`. The accesses to the session's data are
steps of their own, and whoever holds `stateMutex_` keeps it over several of
them; the lookup in the registry is one step with the lock of `stateMutex_`, and
the two reads of a loop's condition are one. Closing is left to the destructor,
so the library may deliver session events of every handle that was ever opened.
-/

namespace ZkCppClient.Session

abbrev Handle := Nat

def kInitRetryDelay : Nat := 5
def kMaxRetryDelay : Nat := 10 * 60

structure ZkClient where
  isInitialized : Bool := false
  isSupportReconnect : Bool := true
  retryDelay : Nat := kInitRetryDelay
  isRetrying : Bool := false
  hasCallTimeoutFun : Bool := false
  zhandle : Option Handle := none
  expiredHandler : Bool
  sessionState : SessState := .connecting
  sessionTimeout : Int
  sessionDisconnectMs : Int := 0
  deriving DecidableEq, Repr

structure SessionEvent where
  zh : Handle
  state : SessState
  arrival : Int
  recvTimeout : Int
  deriving DecidableEq, Repr

inductive WatcherPc
  | setState
  | setTime
  | unlock
  deriving DecidableEq, Repr

/-- The call of `sessionWatcher` that holds `stateMutex_`. -/
structure Watcher where
  zh : Handle
  state : SessState
  recvTimeout : Int
  pc : WatcherPc
  deriving DecidableEq, Repr

inductive Who
  | creator
  | second
  deriving DecidableEq, Repr

/-- The common part of `init` and `reconnect`: `zookeeper_init` (which gives a
handle, or none on failure) and the wait for the session. -/
inductive WaitPc
  | start
  | calling (zh : Option Handle)
  | waiting (zh : Handle)  -- to test the loop's condition, under `stateMutex_`
  | tested (zh : Handle)  -- to call `stateCondition_.wait()`, with `stateMutex_` held since the test
  | parked (zh : Handle)  -- in `stateCondition_.wait()`
  | leaving (zh : Handle)  -- out of the loop, the second `getSessStat` to come
  | done (ok : Bool)
  deriving DecidableEq, Repr

structure Waiter where
  who : Who
  pc : WaitPc
  deriving DecidableEq, Repr

/-- Where `checkSessionState` is. The order in which the operands of its
comparison are read is not fixed by the language. -/
inductive CheckPc
  | idle
  | isExpired
  | isConnected
  | compare (currentMs sessDisconn sessTimeout : Option Int)
  | setExpired
  | expired
  | again
  deriving DecidableEq, Repr

/-- `init` and `reconnect` of one client never overlap (`retry` finds the
client only once `init` has set `isInitialized_`), so one `waiter` stands for
both. `log` is every recorded session event, the newest first; `results` what
`reconnect` returned for the handles it opened. -/
structure St where
  client : ZkClient
  registered : Bool
  destroyed : Bool
  opened : List Handle
  nextZh : Handle
  watcher : Option Watcher
  waiter : Option Waiter
  check : CheckPc
  checkTimers : Nat
  retryTimers : List Nat
  handlerCalls : Nat
  now : Int
  log : List SessionEvent
  results : List (Handle × Bool)

/-- `createZkClient` has registered the client and `init` has stored its
arguments. -/
def St.initial (timeout : Int) (expiredHandler : Bool) (now : Int) : St where
  client := { expiredHandler, sessionTimeout := timeout }
  registered := true
  destroyed := false
  opened := []
  nextZh := 0
  watcher := none
  waiter := some ⟨.creator, .start⟩
  check := .idle
  checkTimers := 0
  retryTimers := []
  handlerCalls := 0
  now := now
  log := []
  results := []

inductive Act
  | tick (d : Nat)
  | zookeeperInit (ok : Bool)  -- called by `init` or `reconnect`, with this success to come
  | zookeeperInitReturn
  | testState
  | park
  | wakeUp  -- spurious
  | leaveWait
  | finish
  | retry (i : Nat)  -- the retry timer at this place fires
  | deliver (zh : Handle) (state : SessState) (recvTimeout : Int)
  | watcher
  | checkSessionState
  | check
  | readCurrentMs
  | readSessDisconn
  | readSessTimeout
  | setIsSupportReconnect (isReconn : Bool)
  | destroyClient
  | destruct
  deriving DecidableEq, Repr

def St.found (s : St) : Bool := s.registered && s.client.isInitialized

def St.setSessStat (s : St) (state : SessState) : St :=
  { s with client := { s.client with sessionState := state } }

def notify : Option Waiter → Option Waiter
  | some ⟨who, .parked zh⟩ => some ⟨who, .waiting zh⟩
  | w => w

/-- The waiting thread holds `stateMutex_` between two steps. -/
def Waiter.holds : Option Waiter → Bool
  | some ⟨_, .tested _⟩ => true
  | _ => false

def initCall : Option Waiter → Option (Option Handle)
  | some ⟨_, .calling zh⟩ => some zh
  | _ => none

def St.live (s : St) (zh : Handle) : Bool :=
  zh ∈ s.opened || initCall s.waiter = some (some zh)

def sessionWatcher (s : St) (w : Watcher) : St :=
  match w.pc with
  | .setState =>
    { s.setSessStat w.state with
      watcher := some { w with pc := .setTime }
      log := ⟨w.zh, w.state, s.now, w.recvTimeout⟩ :: s.log }
  | .setTime =>
    match w.state with
    | .connected =>
      { s with
        watcher := some { w with pc := .unlock }
        client := { s.client with sessionTimeout := w.recvTimeout } }
    | .expired => { s with watcher := some { w with pc := .unlock } }
    | _ =>
      { s with
        watcher := some { w with pc := .unlock }
        client := { s.client with sessionDisconnectMs := s.now } }
  | .unlock => { s with watcher := none, waiter := if w.state.final then notify s.waiter else s.waiter }

def scheduleRetry (s : St) : St :=
  { s with
    retryTimers := s.client.retryDelay :: s.retryTimers
    client := { s.client with retryDelay := min (s.client.retryDelay * 2) kMaxRetryDelay, isRetrying := true } }

def finishInit (s : St) (ok : Bool) : St :=
  if ok then
    { s with
      waiter := none
      client := { s.client with isInitialized := true, isRetrying := false, hasCallTimeoutFun := false }
      checkTimers := s.checkTimers + 1 }
  else { s with waiter := none }

def finishRetry (s : St) (ok : Bool) : St :=
  if ok then
    { s with
      waiter := none
      client := { s.client with retryDelay := kInitRetryDelay, isRetrying := false, hasCallTimeoutFun := false } }
  else if s.client.isSupportReconnect then scheduleRetry { s with waiter := none }
  else { s with waiter := none }

def callExpiredHandler (s : St) : St :=
  if !s.client.hasCallTimeoutFun && s.client.expiredHandler then
    { s with handlerCalls := s.handlerCalls + 1, client := { s.client with hasCallTimeoutFun := true } }
  else s

def sessionExpired (s : St) : St :=
  if !s.client.isRetrying && s.client.isSupportReconnect then scheduleRetry (callExpiredHandler s)
  else callExpiredHandler s

def checkStep (s : St) : Option St :=
  match s.check with
  | .idle => none
  | .isExpired => some { s with check := if s.client.sessionState = .expired then .setExpired else .isConnected }
  | .isConnected =>
    some { s with check := if s.client.sessionState = .connected then .again else .compare none none none }
  | .compare (some currentMs) (some sessDisconn) (some sessTimeout) =>
    some { s with check := if currentMs - sessDisconn > sessTimeout then .setExpired else .again }
  | .compare _ _ _ => none
  | .setExpired => some { s.setSessStat .expired with check := .expired }
  | .expired => some { sessionExpired s with check := .again }
  | .again => some { s with check := .idle, checkTimers := s.checkTimers + 1 }

def waitStep (s : St) (who : Who) : WaitPc → Act → Option St
  | .start, .zookeeperInit true =>
    some { s with waiter := some ⟨who, .calling (some s.nextZh)⟩, nextZh := s.nextZh + 1 }
  | .start, .zookeeperInit false => some { s with waiter := some ⟨who, .calling none⟩ }
  | .calling (some zh), .zookeeperInitReturn =>
    some { s with
      waiter := some ⟨who, .waiting zh⟩
      opened := zh :: s.opened
      client := { s.client with zhandle := some zh } }
  | .calling none, .zookeeperInitReturn =>
    some { s with waiter := some ⟨who, .done false⟩, client := { s.client with zhandle := none } }
  | .waiting zh, .testState =>
    -- needs `stateMutex_`
    if s.watcher.isSome then none
    else some { s with waiter := some ⟨who, if s.client.sessionState.final then .leaving zh else .tested zh⟩ }
  | .tested zh, .park => some { s with waiter := some ⟨who, .parked zh⟩ }
  | .parked zh, .wakeUp => some { s with waiter := some ⟨who, .waiting zh⟩ }
  | .leaving zh, .leaveWait =>
    let ok := decide (s.client.sessionState ≠ .expired)
    some { s with
      waiter := some ⟨who, .done ok⟩
      results := match who with
        | .creator => s.results
        | .second => (zh, ok) :: s.results }
  | .done ok, .finish =>
    some (match who with
      | .creator => finishInit s ok
      | .second => finishRetry s ok)
  | _, _ => none

def step (s : St) : Act → Option St
  | .tick d => some { s with now := s.now + d }
  | .deliver zh state recvTimeout =>
    if !s.live zh || s.watcher.isSome || Waiter.holds s.waiter then none
    else if s.registered then some { s with watcher := some ⟨zh, state, recvTimeout, .setState⟩ }
    else some s
  | .watcher => s.watcher.map (sessionWatcher s)
  | .retry i =>
    if i < s.retryTimers.length ∧ s.waiter = none then
      some { s with
        retryTimers := s.retryTimers.eraseIdx i
        waiter := if s.found then some ⟨.second, .start⟩ else none }
    else none
  | .checkSessionState =>
    if s.check = .idle ∧ 0 < s.checkTimers then
      some { s with checkTimers := s.checkTimers - 1, check := if s.found then .isExpired else .idle }
    else none
  | .check => checkStep s
  | .readCurrentMs =>
    match s.check with
    | .compare none d t => some { s with check := .compare (some s.now) d t }
    | _ => none
  | .readSessDisconn =>
    match s.check with
    | .compare c none t => some { s with check := .compare c (some s.client.sessionDisconnectMs) t }
    | _ => none
  | .readSessTimeout =>
    match s.check with
    | .compare c d none => some { s with check := .compare c d (some s.client.sessionTimeout) }
    | _ => none
  | .setIsSupportReconnect isReconn =>
    some { s with client := { s.client with isSupportReconnect := isReconn } }
  | .destroyClient => some { s with registered := false }
  | .destruct =>
    -- no thread holds a reference any more
    if s.registered || s.destroyed || s.waiter.isSome || s.watcher.isSome || s.check != .idle then none
    else some { s with
      destroyed := true
      opened := match s.client.zhandle with
        | none => s.opened
        | some zh => s.opened.erase zh
      client := { s.client with isSupportReconnect := false } }
  | a => s.waiter.bind fun w => waitStep s w.who w.pc a

/-! ## Pieces of runs -/

def recordEvent (zh : Handle) (state : SessState) (recvTimeout : Int) : List Act :=
  [.deliver zh state recvTimeout, .watcher, .watcher, .watcher]

def initConnects : List Act :=
  [.zookeeperInit true, .zookeeperInitReturn, .testState, .park] ++ recordEvent 0 .connected 4000 ++
    [.testState, .leaveWait, .finish]

def localExpiry : List Act :=
  recordEvent 0 .connecting 4000 ++ [.tick 5000, .checkSessionState, .check, .check, .readCurrentMs, .readSessDisconn,
    .readSessTimeout, .check, .check, .check, .check]

def reopen : List Act := [.retry 0, .zookeeperInit true, .zookeeperInitReturn]

/-! ## What a step can do -/

theorem initCall_notify (w : Option Waiter) : initCall (notify w) = initCall w := by
  unfold notify; split <;> rfl

theorem who_notify (w : Option Waiter) : (notify w).map (·.who) = w.map (·.who) := by
  unfold notify
  split <;> rfl

theorem sessionWatcher_eq (s : St) (w : Watcher) : ∃ w' l st tm dm, sessionWatcher s w = { s with
    watcher := w'
    log := l
    client := { s.client with sessionState := st, sessionTimeout := tm, sessionDisconnectMs := dm }
    waiter := if w.pc = .unlock ∧ w.state.final = true then notify s.waiter else s.waiter } := by
  obtain ⟨zh, state, recvTimeout, pc⟩ := w
  cases pc with
  | setState => exact ⟨_, _, _, _, _, rfl⟩
  | setTime => cases state <;> exact ⟨_, _, _, _, _, rfl⟩
  | unlock =>
    refine ⟨none, s.log, s.client.sessionState, s.client.sessionTimeout, s.client.sessionDisconnectMs, ?_⟩
    simp only [sessionWatcher, true_and]

theorem who_sessionWatcher (s : St) (w : Watcher) :
    (sessionWatcher s w).waiter.map (·.who) = s.waiter.map (·.who) := by
  obtain ⟨_, _, _, _, _, heq⟩ := sessionWatcher_eq s w
  rw [heq]
  simp only
  split
  · exact who_notify _
  · rfl

theorem sessionExpired_eq (s : St) : ∃ d r h n ts, sessionExpired s = { s with
    client := { s.client with retryDelay := d, isRetrying := r, hasCallTimeoutFun := h }
    handlerCalls := n
    retryTimers := ts } := by
  unfold sessionExpired scheduleRetry callExpiredHandler
  split <;> split <;> exact ⟨_, _, _, _, _, rfl⟩

theorem finishRetry_eq (s : St) (ok : Bool) : ∃ d r h ts, finishRetry s ok = { s with
    waiter := none
    client := { s.client with retryDelay := d, isRetrying := r, hasCallTimeoutFun := h }
    retryTimers := ts } := by
  unfold finishRetry scheduleRetry
  split
  · exact ⟨_, _, _, _, rfl⟩
  · split <;> exact ⟨_, _, _, _, rfl⟩

inductive Step (s : St) : Act → St → Prop
  | tick (d : Nat) : Step s (.tick d) { s with now := s.now + d }
  | dropped {zh state recvTimeout} : s.registered = false → Step s (.deliver zh state recvTimeout) s
  | delivered {zh state recvTimeout} : s.live zh = true → s.watcher = none → s.registered = true →
      Waiter.holds s.waiter = false → Step s (.deliver zh state recvTimeout) { s with watcher := some ⟨zh, state, recvTimeout, .setState⟩ }
  | watcher {w} : s.watcher = some w → Step s .watcher (sessionWatcher s w)
  | callOk {who} : s.waiter = some ⟨who, .start⟩ → Step s (.zookeeperInit true)
      { s with waiter := some ⟨who, .calling (some s.nextZh)⟩, nextZh := s.nextZh + 1 }
  | callFail {who} : s.waiter = some ⟨who, .start⟩ → Step s (.zookeeperInit false)
      { s with waiter := some ⟨who, .calling none⟩ }
  | returnOk {who zh} : s.waiter = some ⟨who, .calling (some zh)⟩ → Step s .zookeeperInitReturn
      { s with
        waiter := some ⟨who, .waiting zh⟩
        opened := zh :: s.opened
        client := { s.client with zhandle := some zh } }
  | returnFail {who} : s.waiter = some ⟨who, .calling none⟩ → Step s .zookeeperInitReturn
      { s with waiter := some ⟨who, .done false⟩, client := { s.client with zhandle := none } }
  | testLeave {who zh} : s.waiter = some ⟨who, .waiting zh⟩ → s.watcher = none →
      s.client.sessionState.final = true → Step s .testState { s with waiter := some ⟨who, .leaving zh⟩ }
  | testHold {who zh} : s.waiter = some ⟨who, .waiting zh⟩ → s.watcher = none →
      s.client.sessionState.final = false → Step s .testState { s with waiter := some ⟨who, .tested zh⟩ }
  | park {who zh} : s.waiter = some ⟨who, .tested zh⟩ → Step s .park { s with waiter := some ⟨who, .parked zh⟩ }
  | wakeUp {who zh} : s.waiter = some ⟨who, .parked zh⟩ → Step s .wakeUp { s with waiter := some ⟨who, .waiting zh⟩ }
  | leaveInit {zh} : s.waiter = some ⟨.creator, .leaving zh⟩ → Step s .leaveWait
      { s with waiter := some ⟨.creator, .done (s.client.sessionState ≠ .expired)⟩ }
  | leaveReconnect {zh} : s.waiter = some ⟨.second, .leaving zh⟩ → Step s .leaveWait
      { s with
        waiter := some ⟨.second, .done (s.client.sessionState ≠ .expired)⟩
        results := (zh, decide (s.client.sessionState ≠ .expired)) :: s.results }
  | finishInit {ok} : s.waiter = some ⟨.creator, .done ok⟩ → Step s .finish (finishInit s ok)
  | finishRetry {ok} : s.waiter = some ⟨.second, .done ok⟩ → Step s .finish (finishRetry s ok)
  | retryGone {i} : s.waiter = none → s.found = false → Step s (.retry i)
      { s with retryTimers := s.retryTimers.eraseIdx i, waiter := none }
  | retry {i} : s.waiter = none → s.found = true → Step s (.retry i)
      { s with retryTimers := s.retryTimers.eraseIdx i, waiter := some ⟨.second, .start⟩ }
  | checkGone : s.check = .idle → Step s .checkSessionState
      { s with checkTimers := s.checkTimers - 1, check := .idle }
  | check : s.check = .idle → s.found = true → Step s .checkSessionState
      { s with checkTimers := s.checkTimers - 1, check := .isExpired }
  | isExpired {pc} : s.check = .isExpired →
      pc = (if s.client.sessionState = .expired then .setExpired else .isConnected) →
      Step s .check { s with check := pc }
  | isConnected {pc} : s.check = .isConnected →
      pc = (if s.client.sessionState = .connected then .again else .compare none none none) →
      Step s .check { s with check := pc }
  | compare {c d t pc} : s.check = .compare (some c) (some d) (some t) →
      pc = (if c - d > t then .setExpired else .again) → Step s .check { s with check := pc }
  | setExpired : s.check = .setExpired → Step s .check { s.setSessStat .expired with check := .expired }
  | expired : s.check = .expired → Step s .check { sessionExpired s with check := .again }
  | again : s.check = .again → Step s .check { s with check := .idle, checkTimers := s.checkTimers + 1 }
  | readCurrentMs {d t} : s.check = .compare none d t → Step s .readCurrentMs
      { s with check := .compare (some s.now) d t }
  | readSessDisconn {c t} : s.check = .compare c none t → Step s .readSessDisconn
      { s with check := .compare c (some s.client.sessionDisconnectMs) t }
  | readSessTimeout {c d} : s.check = .compare c d none → Step s .readSessTimeout
      { s with check := .compare c d (some s.client.sessionTimeout) }
  | setIsSupportReconnect (isReconn : Bool) : Step s (.setIsSupportReconnect isReconn)
      { s with client := { s.client with isSupportReconnect := isReconn } }
  | destroyClient : Step s .destroyClient { s with registered := false }
  | destruct {opened} : s.registered = false → s.destroyed = false → s.waiter = none → s.watcher = none →
      s.check = .idle → opened = (match s.client.zhandle with
        | none => s.opened
        | some zh => s.opened.erase zh) →
      Step s .destruct { s with
        destroyed := true
        opened := opened
        client := { s.client with isSupportReconnect := false } }

theorem checkStep_inv {s t : St} (h : checkStep s = some t) : Step s .check t := by
  unfold checkStep at h
  split at h
  · cases h
  · rename_i hc; cases h; exact .isExpired hc rfl
  · rename_i hc; cases h; exact .isConnected hc rfl
  · rename_i hc; cases h; exact .compare hc rfl
  · cases h
  · rename_i hc; cases h; exact .setExpired hc
  · rename_i hc; cases h; exact .expired hc
  · rename_i hc; cases h; exact .again hc

theorem waitStep_inv {s t : St} {who : Who} {pc : WaitPc} {a : Act} (hw : s.waiter = some ⟨who, pc⟩)
    (h : waitStep s who pc a = some t) : Step s a t := by
  unfold waitStep at h
  split at h
  · cases h; exact .callOk hw
  · cases h; exact .callFail hw
  · cases h; exact .returnOk hw
  · cases h; exact .returnFail hw
  · split at h
    · cases h
    · rename_i hmutex
      have hmutex : s.watcher = none := by simpa using hmutex
      cases h
      cases hf : s.client.sessionState.final with
      | false => exact .testHold hw hmutex hf
      | true => exact .testLeave hw hmutex hf
  · cases h; exact .park hw
  · cases h; exact .wakeUp hw
  · cases h
    cases who with
    | creator => exact .leaveInit hw
    | second => exact .leaveReconnect hw
  · cases h
    cases who with
    | creator => exact .finishInit hw
    | second => exact .finishRetry hw
  · cases h

theorem step_inv {s t : St} {a : Act} (h : step s a = some t) : Step s a t := by
  -- the actions of `init` and `reconnect` go to the thread that waits
  have hwait : (s.waiter.bind fun w => waitStep s w.who w.pc a) = some t → Step s a t := by
    intro h
    obtain ⟨⟨who, pc⟩, hw, h⟩ := Option.bind_eq_some_iff.mp h
    exact waitStep_inv hw h
  cases a with
  | tick d => cases h; exact .tick d
  | deliver zh state recvTimeout =>
    simp only [step] at h
    split at h
    · cases h
    · rename_i hg
      simp only [Bool.or_eq_true, Bool.not_eq_true', not_or, Bool.not_eq_false, Bool.not_eq_true,
        Option.isSome_eq_false_iff, Option.isNone_iff_eq_none] at hg
      split at h
      · rename_i hr; cases h; exact .delivered hg.1.1 hg.1.2 hr hg.2
      · rename_i hr; cases h; exact .dropped (by simpa using hr)
  | watcher =>
    obtain ⟨w, hw, rfl⟩ := Option.map_eq_some_iff.mp h
    exact .watcher hw
  | retry i =>
    simp only [step] at h
    split at h
    · rename_i hg
      cases hf : s.found with
      | false => rw [hf] at h; cases h; exact .retryGone hg.2 hf
      | true => rw [hf] at h; cases h; exact .retry hg.2 hf
    · cases h
  | checkSessionState =>
    simp only [step] at h
    split at h
    · rename_i hg
      cases hf : s.found with
      | false => rw [hf] at h; cases h; exact .checkGone hg.1
      | true => rw [hf] at h; cases h; exact .check hg.1 hf
    · cases h
  | check => exact checkStep_inv h
  | readCurrentMs =>
    simp only [step] at h
    split at h
    · rename_i hc; cases h; exact .readCurrentMs hc
    · cases h
  | readSessDisconn =>
    simp only [step] at h
    split at h
    · rename_i hc; cases h; exact .readSessDisconn hc
    · cases h
  | readSessTimeout =>
    simp only [step] at h
    split at h
    · rename_i hc; cases h; exact .readSessTimeout hc
    · cases h
  | setIsSupportReconnect isReconn => cases h; exact .setIsSupportReconnect isReconn
  | destroyClient => cases h; exact .destroyClient
  | destruct =>
    simp only [step] at h
    split at h
    · cases h
    · rename_i hg
      simp only [Bool.or_eq_true, not_or, bne_iff_ne, ne_eq, Decidable.not_not, Bool.not_eq_true,
        Option.isSome_eq_false_iff, Option.isNone_iff_eq_none] at hg
      obtain ⟨⟨⟨⟨hr, hd⟩, hidle⟩, hwatch⟩, hcheck⟩ := hg
      cases h
      exact .destruct hr hd hidle hwatch hcheck rfl
  | zookeeperInit ok => exact hwait h
  | zookeeperInitReturn => exact hwait h
  | testState => exact hwait h
  | park => exact hwait h
  | wakeUp => exact hwait h
  | leaveWait => exact hwait h
  | finish => exact hwait h

theorem registered_of_step {s t : St} {a : Act} (h : step s a = some t) (ha : a ≠ .destroyClient) :
    t.registered = s.registered := by
  cases step_inv h with
  | @watcher w hw =>
    obtain ⟨_, _, _, _, _, heq⟩ := sessionWatcher_eq s w
    rw [heq]
  | @finishInit ok hw => cases ok <;> rfl
  | @finishRetry ok hw =>
    obtain ⟨_, _, _, _, heq⟩ := finishRetry_eq s ok
    rw [heq]
  | expired hc =>
    obtain ⟨_, _, _, _, _, heq⟩ := sessionExpired_eq s
    rw [heq]
  | destroyClient => exact absurd rfl ha
  | _ => rfl

end ZkCppClient.Session
