import ZkCppClient.Session.Machine

/-!
# Whole handlers

The session of one client with each call of `sessionWatcher`, each
`checkSessionState` and, where wanted, `retry` up to its `zookeeper_init` as one
step. Between two steps no handler is under way.
-/

namespace ZkCppClient.Session

inductive Handler
  | sessionWatcher (zh : Handle) (state : SessState) (recvTimeout : Int)
  | checkSessionState
  | retry (i : Nat) (ok : Bool)  -- `ok` where `zookeeper_init` gives a handle
  | step (a : Act)
  deriving DecidableEq, Repr

def Act.inHandler : Act → Bool
  | .deliver _ _ _ | .watcher | .checkSessionState | .check | .readCurrentMs | .readSessDisconn | .readSessTimeout => true
  | _ => false

def St.findsExpired (s : St) : Bool :=
  s.client.sessionState = .expired ||
    s.client.sessionState ≠ .connected && s.now - s.client.sessionDisconnectMs > s.client.sessionTimeout

def tickActs (s : St) : List Act :=
  if !s.found then [.checkSessionState]
  else if s.client.sessionState = .expired then [.checkSessionState, .check, .check, .check, .check]
  else if s.client.sessionState = .connected then [.checkSessionState, .check, .check, .check]
  else .checkSessionState :: .check :: .check :: .readCurrentMs :: .readSessDisconn :: .readSessTimeout :: .check ::
    if s.findsExpired then [.check, .check, .check] else [.check]

def expand (s : St) : Handler → Option (List Act)
  | .sessionWatcher zh state recvTimeout =>
    some (if s.registered then recordEvent zh state recvTimeout else [.deliver zh state recvTimeout])
  | .checkSessionState => some (tickActs s)
  | .retry i ok => some (if s.found then [.retry i, .zookeeperInit ok] else [.retry i])
  | .step a => if a.inHandler then none else some [a]

def atomicStep : St → Handler → Option St := Lts.grouped step expand

def connects : List Handler :=
  [.step (.zookeeperInit true), .step .zookeeperInitReturn, .step .testState, .step .park,
    .sessionWatcher 0 .connected 4000, .step .testState, .step .leaveWait, .step .finish]

/-- Between two handlers the state is CONNECTED just when the latest event is. -/
structure Between (s : St) : Prop where
  watcher : s.watcher = none
  check : s.check = .idle
  connected : s.client.sessionState = .connected ↔ ∃ e ∈ s.log.head?, e.state = .connected

/-! ## What a handler does -/

def St.received (s : St) (zh : Handle) (state : SessState) (recvTimeout : Int) : St :=
  { s with
    client := { s.client with
      sessionState := state
      sessionTimeout := if state = .connected then recvTimeout else s.client.sessionTimeout
      sessionDisconnectMs := if state.final then s.client.sessionDisconnectMs else s.now }
    waiter := if state.final then notify s.waiter else s.waiter
    log := ⟨zh, state, s.now, recvTimeout⟩ :: s.log }

def St.expiredTick (s : St) : St := sessionExpired (s.setSessStat .expired)

inductive AtomicStep (s : St) : Handler → St → Prop
  | dropped {zh state recvTimeout} : s.registered = false → AtomicStep s (.sessionWatcher zh state recvTimeout) s
  | received {zh state recvTimeout} : s.registered = true →
      AtomicStep s (.sessionWatcher zh state recvTimeout) (s.received zh state recvTimeout)
  | tickGone : s.found = false → AtomicStep s .checkSessionState { s with checkTimers := s.checkTimers - 1 }
  | tickFine : s.found = true → s.findsExpired = false → AtomicStep s .checkSessionState s
  | tickExpired : s.found = true → s.findsExpired = true → AtomicStep s .checkSessionState s.expiredTick
  | retryGone {i ok} : s.waiter = none → s.found = false → AtomicStep s (.retry i ok)
      { s with retryTimers := s.retryTimers.eraseIdx i }
  | retryOk {i} : s.waiter = none → s.found = true → AtomicStep s (.retry i true)
      { s with
        retryTimers := s.retryTimers.eraseIdx i
        waiter := some ⟨.second, .calling (some s.nextZh)⟩
        nextZh := s.nextZh + 1 }
  | retryFail {i} : s.waiter = none → s.found = true → AtomicStep s (.retry i false)
      { s with retryTimers := s.retryTimers.eraseIdx i, waiter := some ⟨.second, .calling none⟩ }
  | step {a t} : a.inHandler = false → step s a = some t → AtomicStep s (.step a) t

section
variable {s t : St}

theorem received_run (hb : Between s) (hreg : s.registered = true) {zh : Handle} {state : SessState} {recvTimeout : Int}
    (h : Lts.run step s (recordEvent zh state recvTimeout) = some t) : t = s.received zh state recvTimeout := by
  obtain ⟨s₁, h₁, h⟩ := Lts.run_cons_some h
  have hs₁ : s₁ = { s with watcher := some ⟨zh, state, recvTimeout, .setState⟩ } := by
    cases step_inv h₁ with
    | dropped hgone =>
      rw [hreg] at hgone
      cases hgone
    | delivered _ _ _ => rfl
  subst hs₁
  have hw := hb.watcher
  cases state <;>
    simp only [Lts.run, step, Option.map_some, Option.bind_some, sessionWatcher, St.setSessStat, Option.some.injEq] at h <;>
    subst h <;> simp [St.received, SessState.final, hw]

theorem dropped_run (hreg : s.registered = false) {zh : Handle} {state : SessState} {recvTimeout : Int}
    (h : Lts.run step s [.deliver zh state recvTimeout] = some t) : t = s := by
  obtain ⟨s₁, h₁, hend⟩ := Lts.run_cons_some h
  cases hend
  cases step_inv h₁ with
  | dropped _ => rfl
  | delivered _ _ hfound =>
    rw [hreg] at hfound
    cases hfound

theorem tick_starts (hf : s.found = true) (h : step s .checkSessionState = some t) :
    0 < s.checkTimers ∧ t = { s with checkTimers := s.checkTimers - 1, check := .isExpired } := by
  simp only [step, hf, if_true] at h
  split at h
  · rename_i hg
    exact ⟨hg.2, (Option.some.inj h).symm⟩
  · cases h

theorem sessionExpired_check (s : St) (pc : CheckPc) (n : Nat) :
    sessionExpired { s with check := pc, checkTimers := n } = { sessionExpired s with check := pc, checkTimers := n } := by
  unfold sessionExpired scheduleRetry callExpiredHandler
  split <;> split <;> rfl

theorem tick_ends (hb : Between s) (htimers : 0 < s.checkTimers)
    (h : Lts.run step { s with checkTimers := s.checkTimers - 1, check := .again } [.check] = some t) : t = s := by
  have hn : s.checkTimers - 1 + 1 = s.checkTimers := Nat.sub_add_cancel htimers
  have hcheck := hb.check
  cases h
  obtain ⟨_, _, _, _, _, _, _, _, _, _, _, _, _, _⟩ := s
  simp_all

theorem tick_expires (hb : Between s) (htimers : 0 < s.checkTimers)
    (h : Lts.run step { s with checkTimers := s.checkTimers - 1, check := .setExpired } [.check, .check, .check] =
      some t) : t = s.expiredTick := by
  have hn : s.checkTimers - 1 + 1 = s.checkTimers := Nat.sub_add_cancel htimers
  have ht : t = { sessionExpired { s.setSessStat .expired with check := .expired, checkTimers := s.checkTimers - 1 } with
      check := .idle
      checkTimers := (sessionExpired { s.setSessStat .expired with
        check := .expired, checkTimers := s.checkTimers - 1 }).checkTimers + 1 } := (Option.some.inj h).symm
  obtain ⟨d, r, c, n, ts, hframe⟩ := sessionExpired_eq (s.setSessStat .expired)
  rw [ht, sessionExpired_check, St.expiredTick, hframe]
  simp only [hn, ← hb.check]
  rfl

theorem tick_compares (hb : Between s) (htimers : 0 < s.checkTimers) (hexpired : s.client.sessionState ≠ .expired)
    (hconnected : s.client.sessionState ≠ .connected) (hf : s.found = true)
    (h : Lts.run step { s with
      checkTimers := s.checkTimers - 1
      check := .compare (some s.now) (some s.client.sessionDisconnectMs) (some s.client.sessionTimeout) }
      (.check :: if s.findsExpired then [.check, .check, .check] else [.check]) = some t) :
    AtomicStep s .checkSessionState t := by
  have hfinds : s.findsExpired = true ↔ s.now - s.client.sessionDisconnectMs > s.client.sessionTimeout := by
    simp [St.findsExpired, hexpired, hconnected]
  rw [Lts.run_cons] at h
  simp only [step, checkStep, Option.bind_some] at h
  split at h
  · rename_i hlate
    have hlate := hfinds.mpr hlate
    rw [if_pos hlate] at h
    rw [tick_expires hb htimers h]
    exact .tickExpired hf hlate
  · rename_i hlate
    have hlate := fun he => hlate (hfinds.mp he)
    rw [if_neg hlate] at h
    rw [tick_ends hb htimers h]
    exact .tickFine hf (by simpa using hlate)

theorem tick_alive (hf : s.found = true) (hexpired : s.client.sessionState ≠ .expired) {as : List Act}
    (h : Lts.run step s (.checkSessionState :: .check :: as) = some t) :
    0 < s.checkTimers ∧ Lts.run step { s with checkTimers := s.checkTimers - 1, check := .isConnected } as = some t := by
  obtain ⟨s₁, h₁, h⟩ := Lts.run_cons_some h
  obtain ⟨htimers, rfl⟩ := tick_starts hf h₁
  rw [Lts.run_cons] at h
  simp only [step, checkStep, hexpired, if_false, Option.bind_some] at h
  exact ⟨htimers, h⟩

theorem tick_run (hb : Between s) (h : Lts.run step s (tickActs s) = some t) : AtomicStep s .checkSessionState t := by
  unfold tickActs at h
  split at h
  · rename_i hf
    have hf : s.found = false := by simpa using hf
    obtain ⟨s₁, h₁, h⟩ := Lts.run_cons_some h
    cases h
    cases step_inv h₁ with
    | checkGone _ =>
      rw [← hb.check]
      exact .tickGone hf
    | check _ hfound =>
      rw [hf] at hfound
      cases hfound
  · rename_i hf
    have hf : s.found = true := by simpa using hf
    split at h
    · rename_i hexpired
      obtain ⟨s₁, h₁, h⟩ := Lts.run_cons_some h
      obtain ⟨htimers, rfl⟩ := tick_starts hf h₁
      rw [Lts.run_cons] at h
      simp only [step, checkStep, hexpired, if_true, Option.bind_some] at h
      rw [tick_expires hb htimers h]
      exact .tickExpired hf (by simp [St.findsExpired, hexpired])
    · rename_i hexpired
      split at h
      · rename_i hconnected
        obtain ⟨htimers, h⟩ := tick_alive hf hexpired h
        rw [Lts.run_cons] at h
        simp only [step, checkStep, hconnected, if_true, Option.bind_some] at h
        rw [tick_ends hb htimers h]
        exact .tickFine hf (by simp [St.findsExpired, hconnected])
      · rename_i hconnected
        obtain ⟨htimers, h⟩ := tick_alive hf hexpired h
        rw [Lts.run_cons] at h
        simp only [step, checkStep, hconnected, if_false, Option.bind_some] at h
        exact tick_compares hb htimers hexpired hconnected hf h

theorem retry_run {i : Nat} {ok : Bool}
    (h : Lts.run step s (if s.found then [.retry i, .zookeeperInit ok] else [.retry i]) = some t) :
    AtomicStep s (.retry i ok) t := by
  split at h
  · rename_i hf
    obtain ⟨s₁, h₁, h⟩ := Lts.run_cons_some h
    cases step_inv h₁ with
    | retryGone _ hgone =>
      rw [hf] at hgone
      cases hgone
    | retry hw _ =>
      cases ok <;> cases h
      · exact .retryFail hw hf
      · exact .retryOk hw hf
  · rename_i hf
    obtain ⟨s₁, h₁, h⟩ := Lts.run_cons_some h
    cases h
    cases step_inv h₁ with
    | retryGone hw hgone =>
      refine (?_ : AtomicStep s (.retry i ok) { s with retryTimers := s.retryTimers.eraseIdx i, waiter := none })
      rw [← hw]
      exact .retryGone hw hgone
    | retry _ hfound => exact absurd hfound hf

theorem atomicStep_inv {a : Handler} (hb : Between s) (h : atomicStep s a = some t) : AtomicStep s a t := by
  obtain ⟨as, has, hr⟩ := Lts.grouped_some h
  cases a with
  | sessionWatcher zh state recvTimeout =>
    cases has
    split at hr
    · rename_i hreg
      rw [received_run hb hreg hr]
      exact .received hreg
    · rename_i hreg
      have hreg : s.registered = false := by simpa using hreg
      rw [dropped_run hreg hr]
      exact .dropped hreg
  | checkSessionState =>
    cases has
    exact tick_run hb hr
  | retry i ok =>
    cases has
    exact retry_run hr
  | step a =>
    simp only [expand] at has
    split at has
    · cases has
    · rename_i ha
      cases has
      obtain ⟨s₁, h₁, hr⟩ := Lts.run_cons_some hr
      cases hr
      exact .step (by simpa using ha) h₁

/-! ## No handler is stuck before its end -/

theorem sessionWatcher_enabled (hb : Between s) {zh : Handle} (hlive : s.live zh = true)
    (hfree : Waiter.holds s.waiter = false) (state : SessState) (recvTimeout : Int) : (atomicStep s (.sessionWatcher zh state recvTimeout)).isSome := by
  have hw := hb.watcher
  cases hreg : s.registered with
  | false => simp [atomicStep, Lts.grouped, expand, Lts.run, step, hreg, hlive, hw, hfree]
  | true =>
    cases state <;> simp [atomicStep, Lts.grouped, expand, recordEvent, Lts.run, step, sessionWatcher, hreg, hlive, hw, hfree]

theorem checkSessionState_enabled (hb : Between s) (htimers : 0 < s.checkTimers) :
    (atomicStep s .checkSessionState).isSome := by
  have hc := hb.check
  cases hf : s.found with
  | false => simp [atomicStep, Lts.grouped, expand, tickActs, Lts.run, step, hf, hc, htimers]
  | true =>
    by_cases hexpired : s.client.sessionState = .expired
    · simp [atomicStep, Lts.grouped, expand, tickActs, Lts.run, step, checkStep, hf, hc, htimers, hexpired]
    · by_cases hconnected : s.client.sessionState = .connected
      · simp [atomicStep, Lts.grouped, expand, tickActs, Lts.run, step, checkStep, hf, hc, htimers, hconnected]
      · by_cases hlate : s.now - s.client.sessionDisconnectMs > s.client.sessionTimeout <;>
          simp [atomicStep, Lts.grouped, expand, tickActs, Lts.run, step, checkStep, St.findsExpired, hf, hc, htimers,
            hexpired, hconnected, hlate]

theorem retry_enabled {i : Nat} (hi : i < s.retryTimers.length) (hw : s.waiter = none) (ok : Bool) :
    (atomicStep s (.retry i ok)).isSome := by
  cases hf : s.found with
  | false => simp [atomicStep, Lts.grouped, expand, Lts.run, step, hf, hi, hw]
  | true => cases ok <;> simp [atomicStep, Lts.grouped, expand, Lts.run, step, waitStep, hf, hi, hw]

/-- What a step outside the handlers leaves as it was. -/
structure Undisturbed (s t : St) : Prop where
  log : t.log = s.log
  sessionState : t.client.sessionState = s.client.sessionState
  sessionDisconnectMs : t.client.sessionDisconnectMs = s.client.sessionDisconnectMs
  handlerCalls : t.handlerCalls = s.handlerCalls
  watcher : t.watcher = s.watcher
  check : t.check = s.check

theorem undisturbed_step {a : Act} (ha : a.inHandler = false) (h : step s a = some t) : Undisturbed s t := by
  cases step_inv h with
  | dropped _ | delivered _ _ _ | watcher _ | checkGone _ | check _ _ | isExpired _ _ | isConnected _ _ | compare _ _
  | setExpired _ | expired _ | again _ | readCurrentMs _ | readSessDisconn _ | readSessTimeout _ => cases ha
  | @finishInit ok _ => cases ok <;> exact ⟨rfl, rfl, rfl, rfl, rfl, rfl⟩
  | @finishRetry ok _ =>
    obtain ⟨_, _, _, _, he⟩ := finishRetry_eq s ok
    rw [he]
    exact ⟨rfl, rfl, rfl, rfl, rfl, rfl⟩
  | _ => exact ⟨rfl, rfl, rfl, rfl, rfl, rfl⟩

theorem expiredTick_eq (s : St) : ∃ d r h n ts, s.expiredTick = { s with
    client := { s.client with sessionState := .expired, retryDelay := d, isRetrying := r, hasCallTimeoutFun := h }
    handlerCalls := n
    retryTimers := ts } := sessionExpired_eq (s.setSessStat .expired)

theorem not_connected_of_findsExpired (h : s.findsExpired = true) : s.client.sessionState ≠ .connected := by
  intro hc
  simp [St.findsExpired, hc] at h

theorem between_initial (timeout : Int) (expiredHandler : Bool) (now : Int) :
    Between (St.initial timeout expiredHandler now) where
  watcher := rfl
  check := rfl
  connected := ⟨nofun, fun ⟨_, h, _⟩ => nomatch h⟩

theorem between_step {a : Handler} (hb : Between s) (h : atomicStep s a = some t) : Between t := by
  cases atomicStep_inv hb h with
  | @received zh state recvTimeout _ =>
    refine ⟨hb.watcher, hb.check, fun hc => ⟨_, rfl, hc⟩, ?_⟩
    rintro ⟨e, he, hc⟩
    cases he
    exact hc
  | tickExpired _ hfinds =>
    have hnot := fun he => not_connected_of_findsExpired hfinds (hb.connected.mpr he)
    obtain ⟨_, _, _, _, _, he⟩ := expiredTick_eq s
    rw [he]
    exact ⟨hb.watcher, hb.check, nofun, fun he => absurd he hnot⟩
  | step ha h =>
    have hkept := undisturbed_step ha h
    refine ⟨hkept.watcher.trans hb.watcher, hkept.check.trans hb.check, ?_⟩
    rw [hkept.log, hkept.sessionState]
    exact hb.connected
  | _ => exact ⟨hb.watcher, hb.check, hb.connected⟩

end

end ZkCppClient.Session
