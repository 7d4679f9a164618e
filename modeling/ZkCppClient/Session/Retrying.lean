import ZkCppClient.Session.Machine

/-!
# The flag of the retries

`isRetrying_` keeps `checkSessionState` from scheduling a second retry. It is set
with every retry that is scheduled, and cleared when a retry succeeds. A retry
that fails while the user has switched reconnection off schedules nothing, and
leaves the flag as it is.
-/

namespace ZkCppClient.Session

def St.inRetry (s : St) : Bool := s.waiter.map (·.who) = some .second

def St.retries (s : St) : Nat := s.retryTimers.length + s.inRetry.toNat

def St.retryPending (s : St) : Prop := 0 < s.retries

instance (s : St) : Decidable s.retryPending := inferInstanceAs (Decidable (_ < _))

/-- A tick of `checkSessionState` that finds the session expired, alone. -/
def expiredTick : List Act := [.checkSessionState, .check, .check, .check, .check]

/-- While the client is registered, the flag tells of a pending retry, and with
the session expired and reconnection switched on one is pending after the next tick. -/
structure NotSwitchedOff (s : St) : Prop where
  flag : s.registered = true → s.client.isRetrying = true → s.retryPending
  tick : s.registered = true → s.client.sessionState = .expired → s.client.isSupportReconnect = true →
    ∀ t, Lts.run step s expiredTick = some t → t.retryPending

/-- The condition: no retry of a registered client fails while reconnection is switched off. -/
def FailsSwitchedOn (s : St) : Act → Prop
  | .finish => s.waiter = some ⟨.second, .done false⟩ → s.registered = true → s.client.isSupportReconnect = true
  | _ => True

instance (s : St) : ∀ a, Decidable (FailsSwitchedOn s a)
  | .finish => inferInstanceAs (Decidable (_ → _ → _))
  | .tick _ | .zookeeperInit _ | .zookeeperInitReturn | .testState | .park | .wakeUp | .leaveWait | .retry _ | .check
  | .deliver _ _ _ | .watcher | .checkSessionState | .readCurrentMs | .readSessDisconn | .readSessTimeout
  | .setIsSupportReconnect _ | .destroyClient | .destruct => isTrue trivial

structure RetryInv (s : St) : Prop where
  creator : s.waiter.map (·.who) = some .creator → s.client.isInitialized = false
  early : s.client.isInitialized = false → s.retries = 0 ∧ s.check = .idle
  one : s.retries ≤ 1
  clear : s.client.isRetrying = false → s.retries = 0
  flag : s.registered = true → s.client.isRetrying = true → s.retries = 1

section
variable {s t : St}

theorem retries_eq (h : s.waiter.map (·.who) = some .second) : s.retries = s.retryTimers.length + 1 := by
  simp [St.retries, St.inRetry, h]

theorem retries_of_not (h : s.waiter.map (·.who) ≠ some .second) : s.retries = s.retryTimers.length := by
  simp [St.retries, St.inRetry, h]

theorem callExpiredHandler_eq (s : St) : ∃ h n, callExpiredHandler s =
    { s with client := { s.client with hasCallTimeoutFun := h }, handlerCalls := n } := by
  unfold callExpiredHandler
  split <;> exact ⟨_, _, rfl⟩

theorem sessionExpired_schedules (hclear : s.client.isRetrying = false) (hsupport : s.client.isSupportReconnect = true) :
    sessionExpired s = scheduleRetry (callExpiredHandler s) := by simp [sessionExpired, hclear, hsupport]

theorem sessionExpired_calls (h : ¬ (s.client.isRetrying = false ∧ s.client.isSupportReconnect = true)) :
    sessionExpired s = callExpiredHandler s := by simp [sessionExpired, h]

theorem finishRetry_switchedOn (hsupport : s.client.isSupportReconnect = true) :
    finishRetry s false = scheduleRetry { s with waiter := none } := by simp [finishRetry, hsupport]

theorem finishRetry_switchedOff (hsupport : s.client.isSupportReconnect = false) :
    finishRetry s false = { s with waiter := none } := by simp [finishRetry, hsupport]

theorem retryInv_initial (timeout : Int) (expiredHandler : Bool) (now : Int) :
    RetryInv (St.initial timeout expiredHandler now) where
  creator _ := rfl
  early _ := ⟨rfl, rfl⟩
  one := Nat.zero_le 1
  clear _ := rfl
  flag _ h := by cases h

theorem retryInv_congr (hi : RetryInv s) (hinit : t.client.isInitialized = s.client.isInitialized)
    (hflag : t.client.isRetrying = s.client.isRetrying) (htimers : t.retryTimers = s.retryTimers)
    (hwho : t.waiter.map (·.who) = s.waiter.map (·.who)) (hreg : s.registered = false → t.registered = false)
    (hcheck : s.client.isInitialized = false → s.check = .idle → t.check = .idle) : RetryInv t := by
  have hretries : t.retries = s.retries := by unfold St.retries St.inRetry; rw [htimers, hwho]
  constructor
  · rw [hwho, hinit]
    exact hi.creator
  · rw [hinit, hretries]
    exact fun h => ⟨(hi.early h).1, hcheck h (hi.early h).2⟩
  · rw [hretries]
    exact hi.one
  · rw [hflag, hretries]
    exact hi.clear
  · intro h
    rw [hflag, hretries]
    refine hi.flag ?_
    cases hr : s.registered with
    | true => rfl
    | false =>
      rw [hreg hr] at h
      cases h

theorem retryInv_sessionWatcher (hi : RetryInv s) (w : Watcher) : RetryInv (sessionWatcher s w) := by
  have hwho := who_sessionWatcher s w
  obtain ⟨_, _, _, _, _, heq⟩ := sessionWatcher_eq s w
  rw [heq] at hwho ⊢
  exact retryInv_congr hi rfl rfl rfl hwho id fun _ h => h

theorem retryInv_idle (hw : t.waiter = none) (hinit : t.client.isInitialized = true) (hlen : t.retryTimers.length ≤ 1)
    (hclear : t.client.isRetrying = false → t.retryTimers.length = 0)
    (hflag : t.registered = true → t.client.isRetrying = true → t.retryTimers.length = 1) : RetryInv t := by
  have hretries : t.retries = t.retryTimers.length := retries_of_not (by simp [hw])
  constructor
  · intro h
    rw [hw] at h
    cases h
  · intro h
    rw [hinit] at h
    cases h
  · rwa [hretries]
  · rwa [hretries]
  · rwa [hretries]

theorem retryInv_finishInit (hi : RetryInv s) {ok : Bool} (hw : s.waiter = some ⟨.creator, .done ok⟩) :
    RetryInv (finishInit s ok) := by
  have hcreator : s.waiter.map (·.who) = some .creator := by rw [hw]; rfl
  have hearly := hi.early (hi.creator hcreator)
  have hnone : s.retryTimers.length = 0 := by
    rw [← hearly.1, retries_of_not (by simp [hcreator])]
  cases ok with
  | true =>
    have hlen : (finishInit s true).retryTimers.length = 0 := hnone
    refine retryInv_idle rfl rfl ?_ (fun _ => hlen) fun _ h => ?_
    · rw [hlen]
      exact Nat.zero_le 1
    · cases h
  | false =>
    have hretries : (finishInit s false).retries = s.retries := by
      rw [hearly.1]
      exact hnone
    refine ⟨fun h => ?_, fun _ => ⟨hretries.trans hearly.1, hearly.2⟩, ?_, fun _ => ?_, fun h hr => ?_⟩
    · cases h
    · rw [hretries]
      exact hi.one
    · rw [hretries]
      exact hearly.1
    · rw [hretries]
      exact hi.flag h hr

theorem RetryInv.initialized (hi : RetryInv s) (h : s.retries ≠ 0 ∨ s.check ≠ .idle) : s.client.isInitialized = true := by
  cases hinit : s.client.isInitialized with
  | true => rfl
  | false =>
    obtain ⟨hnone, hidle⟩ := hi.early hinit
    rcases h with h | h
    · exact absurd hnone h
    · exact absurd hidle h

theorem RetryInv.alone (hi : RetryInv s) {pc : WaitPc} (hw : s.waiter = some ⟨.second, pc⟩) :
    s.retryTimers = [] ∧ s.client.isInitialized = true := by
  have hone := hi.one
  have heq : s.retries = s.retryTimers.length + 1 := retries_eq (by rw [hw]; rfl)
  exact ⟨List.length_eq_zero_iff.mp (by omega), hi.initialized (.inl (by omega))⟩

theorem retryInv_finishRetry (hi : RetryInv s) {ok : Bool} (hw : s.waiter = some ⟨.second, .done ok⟩)
    (hg : FailsSwitchedOn s .finish) : RetryInv (finishRetry s ok) := by
  obtain ⟨htimers, hinit⟩ := hi.alone hw
  cases ok with
  | true =>
    apply retryInv_idle
    · rfl
    · exact hinit
    · simp [finishRetry, htimers]
    · simp [finishRetry, htimers]
    · simp [finishRetry]
  | false =>
    by_cases hsupport : s.client.isSupportReconnect = true
    · rw [finishRetry_switchedOn hsupport]
      apply retryInv_idle
      · rfl
      · exact hinit
      · simp [scheduleRetry, htimers]
      · simp [scheduleRetry]
      · simp [scheduleRetry, htimers]
    · rw [finishRetry_switchedOff (by simpa using hsupport)]
      apply retryInv_idle
      · rfl
      · exact hinit
      · simp [htimers]
      · simp [htimers]
      · exact fun hreg => absurd (hg hw hreg) hsupport

theorem retry_lt {i : Nat} (h : step s (.retry i) = some t) : i < s.retryTimers.length := by
  simp only [step] at h
  split at h
  · rename_i hg
    exact hg.1
  · cases h

theorem retryInv_retry (hi : RetryInv s) {i : Nat} (hlt : i < s.retryTimers.length) (hw : s.waiter = none)
    {waiter : Option Waiter} (hwaiter : waiter = if s.found then some ⟨.second, .start⟩ else none) :
    RetryInv { s with retryTimers := s.retryTimers.eraseIdx i, waiter := waiter } := by
  have hretries : s.retries = s.retryTimers.length := retries_of_not (by simp [hw])
  have hone := hi.one
  have hinit := hi.initialized (.inl (by omega))
  have hlen : (s.retryTimers.eraseIdx i).length = 0 := by
    rw [List.length_eraseIdx_of_lt hlt]
    omega
  subst hwaiter
  cases hf : s.found with
  | false =>
    refine retryInv_idle rfl hinit (by rw [hlen]; exact Nat.zero_le 1) (fun _ => hlen) fun hreg => ?_
    have hreg : s.registered = true := hreg
    simp [St.found, hreg, hinit] at hf
  | true =>
    simp only [if_true]
    have hcount : St.retries { s with
        retryTimers := s.retryTimers.eraseIdx i
        waiter := some ⟨.second, .start⟩ } = s.retries := by
      rw [retries_eq rfl, hlen]
      omega
    refine ⟨fun h => ?_, fun h => ?_, ?_, fun h => ?_, fun hreg => ?_⟩
    · cases h
    · have h : s.client.isInitialized = false := h
      rw [hinit] at h
      cases h
    · rw [hcount]
      exact hone
    · rw [hcount]
      exact hi.clear h
    · rw [hcount]
      exact hi.flag hreg

theorem retryInv_sessionExpired (hi : RetryInv s) (hc : s.check = .expired) :
    RetryInv { sessionExpired s with check := .again } := by
  have hinit := hi.initialized (.inr (by rw [hc]; nofun))
  obtain ⟨h, n, hcalled⟩ := callExpiredHandler_eq s
  by_cases hschedule : s.client.isRetrying = false ∧ s.client.isSupportReconnect = true
  · have hnone := hi.clear hschedule.1
    have hmore : St.retries { scheduleRetry (callExpiredHandler s) with check := .again } = s.retries + 1 := by
      rw [hcalled]
      exact Nat.succ_add s.retryTimers.length s.inRetry.toNat
    rw [sessionExpired_schedules hschedule.1 hschedule.2]
    refine ⟨fun hw => ?_, fun hni => ?_, ?_, fun hr => ?_, fun _ _ => ?_⟩
    · rw [hcalled] at hw
      have hearly := hi.creator hw
      rw [hinit] at hearly
      cases hearly
    · rw [hcalled] at hni
      have hni : s.client.isInitialized = false := hni
      rw [hinit] at hni
      cases hni
    · omega
    · cases hr
    · omega
  · rw [sessionExpired_calls hschedule, hcalled]
    refine retryInv_congr hi rfl rfl rfl rfl id fun hni => ?_
    rw [hinit] at hni
    cases hni

theorem retryInv_step {a : Act} (hi : RetryInv s) (hg : FailsSwitchedOn s a) (h : step s a = some t) : RetryInv t := by
  have hchecked : ∀ pc, s.check ≠ .idle → RetryInv { s with check := pc } := fun pc hpc =>
    retryInv_congr hi rfl rfl rfl rfl id fun _ hidle => absurd hidle hpc
  cases hstep : step_inv h with
  | tick _ => exact retryInv_congr hi rfl rfl rfl rfl id fun _ h => h
  | dropped _ => exact hi
  | delivered _ _ _ => exact retryInv_congr hi rfl rfl rfl rfl id fun _ h => h
  | watcher hw => exact retryInv_sessionWatcher hi _
  | callOk hw | callFail hw | returnOk hw | returnFail hw | testLeave hw _ _ | testHold hw _ _ | park hw | wakeUp hw
  | leaveInit hw | leaveReconnect hw =>
    exact retryInv_congr hi rfl rfl rfl (by rw [hw]; rfl) id fun _ h => h
  | finishInit hw => exact retryInv_finishInit hi hw
  | finishRetry hw => exact retryInv_finishRetry hi hw hg
  | retryGone hw hf => exact retryInv_retry hi (retry_lt h) hw (by rw [hf]; rfl)
  | retry hw hf => exact retryInv_retry hi (retry_lt h) hw (by rw [hf]; rfl)
  | checkGone hc => exact retryInv_congr hi rfl rfl rfl rfl id fun _ _ => rfl
  | check hc hf =>
    refine retryInv_congr hi rfl rfl rfl rfl id fun hni => ?_
    simp [St.found, hni] at hf
  | isExpired hc _ | isConnected hc _ | compare hc _ | readCurrentMs hc | readSessDisconn hc | readSessTimeout hc =>
    exact hchecked _ (by rw [hc]; exact CheckPc.noConfusion)
  | setExpired hc => exact retryInv_congr hi rfl rfl rfl rfl id fun _ hidle => by rw [hc] at hidle; cases hidle
  | expired hc => exact retryInv_sessionExpired hi hc
  | again hc => exact retryInv_congr hi rfl rfl rfl rfl id fun _ _ => rfl
  | setIsSupportReconnect _ => exact retryInv_congr hi rfl rfl rfl rfl id fun _ h => h
  | destroyClient => exact retryInv_congr hi rfl rfl rfl rfl (fun _ => rfl) fun _ h => h
  | destruct _ _ _ _ _ _ => exact retryInv_congr hi rfl rfl rfl rfl id fun _ h => h

/-! ## What the flag promises -/

theorem expiredTick_run (hexpired : s.client.sessionState = .expired) (h : Lts.run step s expiredTick = some t) :
    s.client.isInitialized = true ∧ t.retries = (sessionExpired { s.setSessStat .expired with
      check := .expired, checkTimers := s.checkTimers - 1 }).retries := by
  -- the tick passes through `sessionExpired`, which sees the flag
  obtain ⟨s₁, h₁, h⟩ := Lts.run_cons_some h
  simp only [step] at h₁
  split at h₁
  · cases hf : s.found with
    | false =>
      rw [hf] at h₁
      cases h₁
      cases h
    | true =>
      rw [hf] at h₁
      cases h₁
      simp only [Lts.run, step, checkStep, Option.bind_some, hexpired, if_true] at h
      cases h
      exact ⟨(Bool.and_eq_true_iff.mp hf).2, rfl⟩
  · cases h₁

theorem sessionExpired_pending (hi : RetryInv s) (hreg : s.registered = true)
    (hsupport : s.client.isSupportReconnect = true) : (sessionExpired s).retryPending := by
  cases hflag : s.client.isRetrying with
  | true =>
    have hone := hi.flag hreg hflag
    obtain ⟨h, n, hcalled⟩ := callExpiredHandler_eq s
    rw [sessionExpired_calls (by simp [hflag]), hcalled]
    exact Nat.lt_of_lt_of_eq Nat.one_pos hone.symm
  | false =>
    rw [St.retryPending, sessionExpired_schedules hflag hsupport]
    exact Nat.lt_of_lt_of_le (Nat.succ_pos _) (Nat.le_add_right _ _)

theorem notSwitchedOff_of_inv (hi : RetryInv s) : NotSwitchedOff s := by
  refine ⟨fun hreg hflag => ?_, fun hreg hexpired hsupport t hrun => ?_⟩
  · rw [St.retryPending, hi.flag hreg hflag]
    exact Nat.one_pos
  · obtain ⟨hinit, hretries⟩ := expiredTick_run hexpired hrun
    rw [St.retryPending, hretries]
    refine sessionExpired_pending ?_ hreg hsupport
    exact retryInv_congr hi rfl rfl rfl rfl id fun hni => by rw [hinit] at hni; cases hni

theorem not_notSwitchedOff {a : Act} (hi : RetryInv s) (hg : ¬ FailsSwitchedOn s a) (h : step s a = some t) :
    ¬ NotSwitchedOff t := by
  cases a with
  | finish =>
    simp only [FailsSwitchedOn, Classical.not_imp] at hg
    obtain ⟨hw, hreg, hoff⟩ := hg
    obtain ⟨htimers, -⟩ := hi.alone hw
    have hflag : s.client.isRetrying = true := by
      cases hflag : s.client.isRetrying with
      | true => rfl
      | false =>
        have hnone := hi.clear hflag
        rw [retries_eq (by rw [hw]; rfl)] at hnone
        cases hnone
    have ht : t = { s with waiter := none } := by
      simp only [step, hw, Option.bind_some, waitStep, finishRetry, hoff] at h
      simpa using h.symm
    subst ht
    intro hok
    have hpending := hok.flag hreg hflag
    rw [St.retryPending, retries_of_not (by simp)] at hpending
    simp [htimers] at hpending
  | _ => exact absurd trivial hg

end

/-- **The flag of the retries.** In every run, reconnection is never switched off
by accident just when no retry of a registered client fails while the user has
switched it off. -/
theorem notSwitchedOff_iff {timeout : Int} {expiredHandler : Bool} {now : Int} {acts : List Act} {s : St}
    (h : Lts.run step (St.initial timeout expiredHandler now) acts = some s) :
    Lts.Throughout step NotSwitchedOff (St.initial timeout expiredHandler now) acts ↔
      Lts.Along step FailsSwitchedOn (St.initial timeout expiredHandler now) acts :=
  Lts.throughout_iff_along (fun _ _ _ hi hg h => retryInv_step hi hg h) (fun _ hi => notSwitchedOff_of_inv hi)
    (fun _ _ _ hi hg h => not_notSwitchedOff hi hg h) (retryInv_initial timeout expiredHandler now) h

def failedRetry (isReconn : Bool) : List Act :=
  initConnects ++ localExpiry ++ [.setIsSupportReconnect isReconn, .retry 0, .zookeeperInit false, .zookeeperInitReturn,
    .finish, .setIsSupportReconnect true]

theorem notSwitchedOff_on : Lts.Throughout step NotSwitchedOff (St.initial 4000 true 0) (failedRetry true) :=
  (notSwitchedOff_iff (s := (Lts.run step (St.initial 4000 true 0) (failedRetry true)).get rfl) (Option.some_get _).symm).mpr
    (by decide)

/-- Reconnection is on again, and the tick finds the flag set, though no retry is pending. -/
theorem not_notSwitchedOff_off : ¬ Lts.Throughout step NotSwitchedOff (St.initial 4000 true 0) (failedRetry false) := by
  refine Lts.not_throughout ⟨_, rfl, fun h => ?_⟩
  have hpending := h.tick rfl rfl rfl _ rfl
  revert hpending
  decide

end ZkCppClient.Session
