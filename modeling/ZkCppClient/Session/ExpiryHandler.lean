import ZkCppClient.Session.Atomic

/-!
# The calls of the expiry handler

`checkSessionState` calls the handler and sets a flag against further calls,
which `init` and a retry that succeeds clear. The ticks in a row that find the
session expired are an episode; it may also end because the library connects
again by itself, and the flag stays.
-/

namespace ZkCppClient.Session

/-- `inEpisode` where the latest tick found the session expired; `cleared` where no tick has since
`init` or the latest retry that succeeded. -/
structure Episodes where
  inEpisode : Bool := false
  cleared : Bool := true
  deriving DecidableEq

def recordEpisode (w : Episodes) (s : St) : Handler → Episodes
  | .checkSessionState =>
    if s.found = false then w
    else if s.findsExpired then ⟨true, false⟩
    else { w with inEpisode := false }
  | .step .finish => { w with cleared := w.cleared || s.waiter.any (·.pc = .done true) }
  | _ => w

def episodeStep : St × Episodes → Handler → Option (St × Episodes) := Lts.withHistory atomicStep recordEpisode

def FindsExpired (s : St) (a : Handler) : Prop := a = .checkSessionState ∧ s.found = true ∧ s.findsExpired = true

instance (s : St) (a : Handler) : Decidable (FindsExpired s a) := inferInstanceAs (Decidable (_ ∧ _))

/-- The handler is called once by the first tick of an episode and not by any other step. -/
def CalledOnce (x : St × Episodes) (a : Handler) : Prop :=
  ∀ y, episodeStep x a = some y → y.1.handlerCalls =
    x.1.handlerCalls + if FindsExpired x.1 a ∧ x.2.inEpisode = false then 1 else 0

/-- Before every further episode a retry has succeeded, and none within one. -/
def RetriedBetween (x : St × Episodes) (a : Handler) : Prop :=
  FindsExpired x.1 a → (x.2.cleared = true ↔ x.2.inEpisode = false)

instance (x : St × Episodes) (a : Handler) : Decidable (RetriedBetween x a) := inferInstanceAs (Decidable (_ → _))

structure FlagInv (x : St × Episodes) : Prop where
  between : Between x.1
  handler : x.1.client.expiredHandler = true
  flag : x.1.client.hasCallTimeoutFun = !x.2.cleared

section
variable {s t : St} {x y : St × Episodes}

theorem expiredTick_calls (hh : s.client.expiredHandler = true) :
    s.expiredTick.handlerCalls = s.handlerCalls + (if s.client.hasCallTimeoutFun then 0 else 1) ∧
      s.expiredTick.client.expiredHandler = true ∧ s.expiredTick.client.hasCallTimeoutFun = true := by
  have hcalled : (callExpiredHandler (s.setSessStat .expired)).handlerCalls =
        s.handlerCalls + (if s.client.hasCallTimeoutFun then 0 else 1) ∧
      (callExpiredHandler (s.setSessStat .expired)).client.expiredHandler = true ∧
      (callExpiredHandler (s.setSessStat .expired)).client.hasCallTimeoutFun = true := by
    cases hflag : s.client.hasCallTimeoutFun <;> simp [callExpiredHandler, St.setSessStat, hflag, hh]
  unfold St.expiredTick sessionExpired
  split
  · exact hcalled
  · exact hcalled

theorem finishRetry_flag (s : St) (ok : Bool) : (finishRetry s ok).client.expiredHandler = s.client.expiredHandler ∧
    (finishRetry s ok).client.hasCallTimeoutFun = (s.client.hasCallTimeoutFun && !ok) := by
  cases ok with
  | true => simp [finishRetry]
  | false => by_cases hs : s.client.isSupportReconnect = true <;> simp [finishRetry, scheduleRetry, hs]

theorem flag_step {a : Act} (ha : a.inHandler = false) (h : step s a = some t) :
    t.client.expiredHandler = s.client.expiredHandler ∧ t.client.hasCallTimeoutFun =
      (s.client.hasCallTimeoutFun && !(a = .finish && s.waiter.any (·.pc = .done true))) := by
  cases step_inv h with
  | dropped _ | delivered _ _ _ | watcher _ | checkGone _ | check _ _ | isExpired _ _ | isConnected _ _ | compare _ _
  | setExpired _ | expired _ | again _ | readCurrentMs _ | readSessDisconn _ | readSessTimeout _ => cases ha
  | @finishInit ok hw => cases ok <;> simp [finishInit, hw]
  | @finishRetry ok hw =>
    have hflag := finishRetry_flag s ok
    cases ok <;> simpa [hw] using hflag
  | _ => simp

theorem cleared_step (w : Episodes) (s : St) (a : Act) : (recordEpisode w s (.step a)).cleared =
    (w.cleared || (a = .finish && s.waiter.any (·.pc = .done true))) := by
  cases a with
  | finish => simp [recordEpisode]
  | _ => simp [recordEpisode]

theorem flagInv_step {a : Handler} (hi : FlagInv x) (h : episodeStep x a = some y) : FlagInv y := by
  obtain ⟨s, w⟩ := x
  obtain ⟨t, w'⟩ := y
  obtain ⟨hstep, hrecord⟩ := Lts.withHistory_some h
  have hb := between_step hi.between hstep
  dsimp only at hstep hrecord
  subst hrecord
  cases atomicStep_inv hi.between hstep with
  | dropped _ | received _ | retryGone _ _ | retryOk _ _ | retryFail _ _ => exact ⟨hb, hi.handler, hi.flag⟩
  | tickGone hf => exact ⟨hb, hi.handler, by simp only [recordEpisode, hf, if_true]; exact hi.flag⟩
  | tickFine hf hfine => exact ⟨hb, hi.handler, by simp only [recordEpisode, hf, hfine]; exact hi.flag⟩
  | tickExpired hf hfinds =>
    obtain ⟨-, hhandler, hflag⟩ := expiredTick_calls hi.handler
    exact ⟨hb, hhandler, by simp only [recordEpisode, hf, hfinds]; exact hflag⟩
  | @step a t ha h =>
    obtain ⟨hhandler, hflag⟩ := flag_step ha h
    refine ⟨hb, hhandler.trans hi.handler, hflag.trans ?_⟩
    rw [hi.flag, cleared_step, Bool.not_or]

theorem calls_step {a : Handler} (hi : FlagInv x) (h : episodeStep x a = some y) : y.1.handlerCalls =
    x.1.handlerCalls + if FindsExpired x.1 a ∧ x.2.cleared = true then 1 else 0 := by
  obtain ⟨s, w⟩ := x
  obtain ⟨t, w'⟩ := y
  obtain ⟨hstep, -⟩ := Lts.withHistory_some h
  dsimp only at hstep ⊢
  have hkept : t.handlerCalls = s.handlerCalls → ¬ FindsExpired s a →
      t.handlerCalls = s.handlerCalls + if FindsExpired s a ∧ w.cleared = true then 1 else 0 :=
    fun heq hno => by rw [heq, if_neg fun hand => hno hand.1, Nat.add_zero]
  cases atomicStep_inv hi.between hstep with
  | dropped _ | received _ | retryGone _ _ | retryOk _ _ | retryFail _ _ => exact hkept rfl fun hf => nomatch hf.1
  | tickGone hgone => exact hkept rfl fun hf => nomatch hgone.symm.trans hf.2.1
  | tickFine _ hfine => exact hkept rfl fun hf => nomatch hfine.symm.trans hf.2.2
  | tickExpired hf hfinds =>
    rw [(expiredTick_calls hi.handler).1, hi.flag]
    cases w.cleared <;> simp [FindsExpired, hf, hfinds]
  | step ha h => exact hkept (undisturbed_step ha h).handlerCalls fun hf => nomatch hf.1

theorem calledOnce_step {a : Handler} (hi : FlagInv x) (h : episodeStep x a = some y) :
    CalledOnce x a ↔ RetriedBetween x a := by
  have hcalls := calls_step hi h
  have honce : CalledOnce x a ↔ y.1.handlerCalls =
      x.1.handlerCalls + if FindsExpired x.1 a ∧ x.2.inEpisode = false then 1 else 0 := by
    refine ⟨fun hall => hall y h, fun heq y' hy' => ?_⟩
    rw [h] at hy'
    cases hy'
    exact heq
  rw [honce, hcalls, RetriedBetween]
  by_cases hfinds : FindsExpired x.1 a
  · cases x.2.cleared <;> cases x.2.inEpisode <;> simp [hfinds]
  · simp [hfinds]

end

/-- **The expiry handler.** In every run of a client with a handler, it is called exactly once in every
episode, by its first tick, just when a retry has succeeded before every further episode and none
succeeds within one. -/
theorem calledOnce_iff {timeout now : Int} {acts : List Handler} {x : St × Episodes}
    (h : Lts.run episodeStep (St.initial timeout true now, {}) acts = some x) :
    Lts.Along episodeStep CalledOnce (St.initial timeout true now, {}) acts ↔
      Lts.Along episodeStep RetriedBetween (St.initial timeout true now, {}) acts :=
  Lts.along_iff_along (fun _ _ _ hi h => flagInv_step hi h) (fun _ _ _ hi h => calledOnce_step hi h)
    ⟨between_initial timeout true now, rfl, rfl⟩ h

/-- Two outages are found by a tick each. What happens between them is `events`, and the session is back. -/
def twoOutages (events : List Handler) : List Handler :=
  connects ++ [.sessionWatcher 0 .connecting 4000, .step (.tick 5000), .checkSessionState] ++ events ++
    [.checkSessionState, .sessionWatcher 0 .connecting 4000, .step (.tick 5000), .checkSessionState]

def retried : List Handler :=
  [.retry 0 true, .step .zookeeperInitReturn, .sessionWatcher 1 .connected 4000, .step .testState, .step .leaveWait,
    .step .finish]

theorem calledOnce_retried : Lts.Along episodeStep CalledOnce (St.initial 4000 true 0, {}) (twoOutages retried) :=
  (calledOnce_iff (x := (Lts.run episodeStep (St.initial 4000 true 0, {}) (twoOutages retried)).get rfl)
    (Option.some_get _).symm).mpr (by decide)

/-- The library connects again by itself, and the second expiry goes without a call. -/
theorem not_calledOnce_back : ¬ Lts.Along episodeStep CalledOnce (St.initial 4000 true 0, {})
    (twoOutages [.sessionWatcher 0 .connected 4000]) := by
  intro h
  have hrest := h.append.2 _ rfl
  have hlast := ((hrest.2 _ rfl).2 _ rfl).2 _ rfl
  have hcalls := hlast.1 _ rfl
  revert hcalls
  decide

end ZkCppClient.Session
