import ZkCppClient.Session.Machine

/-!
# The wait for the session

`init` and `reconnect` wait on `stateCondition_` until the state is CONNECTED or
EXPIRED. `sessionWatcher` notifies them after it has recorded such a state.
`checkSessionState` writes EXPIRED too, without `stateMutex_` and without a
notification, so a thread that is parked then does not learn of it.
-/

namespace ZkCppClient.Session

def Waiter.parked : Option Waiter → Bool
  | some ⟨_, .parked _⟩ => true
  | _ => false

def St.notifying (s : St) : Bool := s.watcher.any fun w => w.pc != .setState && w.state.final

/-- A parked thread has nothing to wake up for, or is about to be notified. -/
def NoLostWakeUp (s : St) : Prop :=
  Waiter.parked s.waiter = true → s.notifying = true ∨ s.client.sessionState.final = false

/-- `checkSessionState` writes EXPIRED while no thread is parked, or while the notification is to come, and has not
written it between the test and the wait of a thread that parks. -/
def ExpiresAwake (s : St) : Act → Prop
  | .check => s.check = .setExpired → Waiter.parked s.waiter = true → s.notifying = true
  | .park => s.client.sessionState ≠ .expired
  | _ => True

instance (s : St) : Decidable (NoLostWakeUp s) := inferInstanceAs (Decidable (_ → _))

instance (s : St) : ∀ a, Decidable (ExpiresAwake s a)
  | .check => inferInstanceAs (Decidable (_ → _ → _))
  | .park => inferInstanceAs (Decidable (_ ≠ _))
  | .tick _ | .zookeeperInit _ | .zookeeperInitReturn | .testState | .wakeUp | .leaveWait | .finish | .retry _
  | .deliver _ _ _ | .watcher | .checkSessionState | .readCurrentMs | .readSessDisconn | .readSessTimeout
  | .setIsSupportReconnect _ | .destroyClient | .destruct => isTrue trivial

section
variable {s t : St}

/-- Between the test and the wait `sessionWatcher` cannot write, so the state is final only if it has expired. -/
def HoldsTest (s : St) : Prop :=
  Waiter.holds s.waiter = true → s.watcher = none ∧ (s.client.sessionState.final = true → s.client.sessionState = .expired)

structure WakeInv (s : St) : Prop where
  wakeUp : NoLostWakeUp s
  test : HoldsTest s

theorem noLostWakeUp_congr (hi : NoLostWakeUp s) (hwaiter : t.waiter = s.waiter) (hwatcher : t.watcher = s.watcher)
    (hstate : t.client.sessionState = s.client.sessionState) : NoLostWakeUp t := by
  intro hp
  rw [hwaiter] at hp
  unfold St.notifying
  rw [hwatcher, hstate]
  exact hi hp

theorem noLostWakeUp_awake (h : Waiter.parked t.waiter = false) : NoLostWakeUp t := by
  intro hp
  rw [h] at hp
  cases hp

theorem parked_notify (w : Option Waiter) : Waiter.parked (notify w) = false := by
  unfold notify
  split
  · rfl
  · rename_i hno
    unfold Waiter.parked
    split
    · exact absurd rfl (hno _ _)
    · rfl

theorem noLostWakeUp_watcher (hi : NoLostWakeUp s) {w : Watcher} (hw : s.watcher = some w) :
    NoLostWakeUp (sessionWatcher s w) := by
  obtain ⟨zh, state, recvTimeout, pc⟩ := w
  cases pc with
  | setState =>
    intro _
    cases hf : state.final with
    | true => exact .inl (by simp [St.notifying, sessionWatcher, hf])
    | false => exact .inr hf
  | setTime =>
    have hsame : NoLostWakeUp { s with watcher := some ⟨zh, state, recvTimeout, .unlock⟩ } := by
      intro hp
      have hold := hi hp
      unfold St.notifying at hold ⊢
      rw [hw] at hold
      exact hold
    cases state <;> exact noLostWakeUp_congr hsame rfl rfl rfl
  | unlock =>
    cases hf : state.final with
    | true =>
      apply noLostWakeUp_awake
      show Waiter.parked (if state.final = true then notify s.waiter else s.waiter) = false
      rw [if_pos hf]
      exact parked_notify s.waiter
    | false =>
      intro hp
      have hwaiter : (sessionWatcher s ⟨zh, state, recvTimeout, .unlock⟩).waiter = s.waiter := by
        show (if state.final = true then notify s.waiter else s.waiter) = s.waiter
        rw [hf]
        rfl
      rw [hwaiter] at hp
      -- the call that ends has no notification to give
      rcases hi hp with hnot | hfinal
      · unfold St.notifying at hnot
        rw [hw] at hnot
        simp [hf] at hnot
      · exact .inr hfinal

theorem noLostWakeUp_step {a : Act} (hi : WakeInv s) (hg : ExpiresAwake s a) (h : step s a = some t) :
    NoLostWakeUp t := by
  have hwake := hi.wakeUp
  cases step_inv h with
  | delivered _ hfree _ _ =>
    intro hp
    rcases hwake hp with hnot | hfinal
    · unfold St.notifying at hnot
      rw [hfree] at hnot
      cases hnot
    · exact .inr hfinal
  | watcher hw => exact noLostWakeUp_watcher hwake hw
  | callOk _ | callFail _ | returnOk _ | returnFail _ | testLeave _ _ _ | testHold _ _ _ | wakeUp _ | leaveInit _
  | leaveReconnect _ | retryGone _ _ | retry _ _ => exact noLostWakeUp_awake rfl
  | park hw =>
    -- the state was not final at the test, and only the check has been able to write since
    obtain ⟨-, hexpired⟩ := hi.test (by rw [hw]; rfl)
    refine fun _ => .inr ?_
    cases hf : s.client.sessionState.final with
    | false => rfl
    | true => exact absurd (hexpired hf) hg
  | @finishInit ok _ => cases ok <;> exact noLostWakeUp_awake rfl
  | @finishRetry ok _ =>
    obtain ⟨_, _, _, _, he⟩ := finishRetry_eq s ok
    rw [he]
    exact noLostWakeUp_awake rfl
  | setExpired hc => exact fun hp => .inl (hg hc hp)
  | expired _ =>
    obtain ⟨_, _, _, _, _, he⟩ := sessionExpired_eq s
    rw [he]
    exact noLostWakeUp_congr hwake rfl rfl rfl
  | dropped _ => exact hwake
  | _ => exact noLostWakeUp_congr hwake rfl rfl rfl

theorem holdsTest_free (h : Waiter.holds t.waiter = false) : HoldsTest t := by
  intro hp
  rw [h] at hp
  cases hp

theorem holdsTest_congr (hi : HoldsTest s) (hwaiter : t.waiter = s.waiter) (hwatcher : t.watcher = s.watcher)
    (hstate : t.client.sessionState = s.client.sessionState) : HoldsTest t := by
  intro hp
  rw [hwaiter] at hp
  rw [hwatcher, hstate]
  exact hi hp

theorem holds_notify (w : Option Waiter) : Waiter.holds (notify w) = Waiter.holds w := by
  unfold notify
  split <;> rfl

theorem holdsTest_step {a : Act} (hi : HoldsTest s) (h : step s a = some t) : HoldsTest t := by
  cases step_inv h with
  | delivered _ _ _ hfree => exact holdsTest_free hfree
  | @watcher w hw =>
    apply holdsTest_free
    obtain ⟨_, _, _, _, _, he⟩ := sessionWatcher_eq s w
    -- `sessionWatcher` has the mutex, so the thread that waits has not
    have hfree : Waiter.holds s.waiter = false := by
      cases hheld : Waiter.holds s.waiter with
      | false => rfl
      | true =>
        rw [(hi hheld).1] at hw
        cases hw
    rw [he]
    simp only
    split
    · rw [holds_notify, hfree]
    · exact hfree
  | callOk _ | callFail _ | returnOk _ | returnFail _ | testLeave _ _ _ | park _ | wakeUp _ | leaveInit _
  | leaveReconnect _ | retryGone _ _ | retry _ _ => exact holdsTest_free rfl
  | testHold _ hfree hf =>
    refine fun _ => ⟨hfree, fun hfinal => ?_⟩
    have hfinal : s.client.sessionState.final = true := hfinal
    rw [hf] at hfinal
    cases hfinal
  | @finishInit ok _ => cases ok <;> exact holdsTest_free rfl
  | @finishRetry ok _ =>
    obtain ⟨_, _, _, _, he⟩ := finishRetry_eq s ok
    rw [he]
    exact holdsTest_free rfl
  | setExpired _ => exact fun hp => ⟨(hi hp).1, fun _ => rfl⟩  -- written without the mutex, between the test and the wait
  | expired _ =>
    obtain ⟨_, _, _, _, _, he⟩ := sessionExpired_eq s
    rw [he]
    exact holdsTest_congr hi rfl rfl rfl
  | dropped _ => exact hi
  | _ => exact holdsTest_congr hi rfl rfl rfl

theorem lostWakeUp_of_expires {a : Act} (hi : WakeInv s) (hg : ¬ ExpiresAwake s a) (h : step s a = some t) :
    ¬ NoLostWakeUp t := by
  cases a with
  | check =>
    simp only [ExpiresAwake, Classical.not_imp] at hg
    obtain ⟨hc, hp, hnot⟩ := hg
    simp only [step, checkStep, hc] at h
    cases h
    intro hn
    rcases hn hp with h | h
    · exact hnot h
    · cases h
  | park =>
    have hexpired : s.client.sessionState = .expired := Classical.not_not.mp hg
    cases step_inv h with
    | park hw =>
      obtain ⟨hfree, -⟩ := hi.test (by rw [hw]; rfl)
      intro hn
      rcases hn rfl with hnot | hfinal
      · simp [St.notifying, hfree] at hnot
      · simp [hexpired, SessState.final] at hfinal
  | _ => exact absurd trivial hg

/-- **No lost wake-up.** In every run, no thread is left parked on a final state
just when `checkSessionState` writes EXPIRED behind no parked thread's back, and
not between the test and the wait of a thread that then parks. -/
theorem noLostWakeUp_iff {timeout : Int} {expiredHandler : Bool} {now : Int} {acts : List Act}
    (hrun : Lts.run step (St.initial timeout expiredHandler now) acts = some t) :
    Lts.Throughout step NoLostWakeUp (St.initial timeout expiredHandler now) acts ↔
      Lts.Along step ExpiresAwake (St.initial timeout expiredHandler now) acts :=
  Lts.throughout_iff_along (I := WakeInv)
    (fun _ _ _ hi hg h => ⟨noLostWakeUp_step hi hg h, holdsTest_step hi.test h⟩) (fun _ hi => hi.wakeUp)
    (fun _ _ _ hi hg h => lostWakeUp_of_expires hi hg h) ⟨noLostWakeUp_awake rfl, holdsTest_free rfl⟩ hrun

end

theorem noLostWakeUp_reconnected : Lts.Throughout step NoLostWakeUp (St.initial 4000 true 0)
    (initConnects ++ localExpiry ++ reopen ++ recordEvent 1 .connecting 4000 ++ [.testState, .park] ++
      recordEvent 1 .connected 4000) :=
  (noLostWakeUp_iff (t := (Lts.run step (St.initial 4000 true 0)
    (initConnects ++ localExpiry ++ reopen ++ recordEvent 1 .connecting 4000 ++ [.testState, .park] ++
      recordEvent 1 .connected 4000)).get (by decide)) (by simp)).mpr (by decide)

/-- The connection of handle 1 stays away for longer than the session's timeout
while `reconnect` is parked. -/
theorem not_noLostWakeUp_expiry : ¬ Lts.Throughout step NoLostWakeUp (St.initial 4000 true 0)
    (initConnects ++ localExpiry ++ reopen ++ recordEvent 1 .connecting 4000 ++ [.testState, .park, .tick 5000,
      .checkSessionState, .check, .check, .readCurrentMs, .readSessDisconn, .readSessTimeout, .check, .check]) := by
  apply Lts.not_throughout
  decide

/-- Nobody is parked when EXPIRED is written, but the test has been made. -/
theorem not_noLostWakeUp_tested : ¬ Lts.Throughout step NoLostWakeUp (St.initial 4000 true 0)
    (initConnects ++ localExpiry ++ reopen ++ recordEvent 1 .connecting 4000 ++ [.tick 5000, .checkSessionState, .check,
      .check, .readCurrentMs, .readSessDisconn, .readSessTimeout, .check, .testState, .check, .park]) := by
  apply Lts.not_throughout
  decide

end ZkCppClient.Session
