import Mathlib.Algebra.Group.Nat.Defs
import ZkCppClient.Session.Retrying

/-!
# The delays of the retries

`retryDelay_` is read, doubled and reset where a retry is scheduled or succeeds:
in `checkSessionState` and in `retry`. Each of these places is one step here,
and everything else may come between them.
-/

namespace ZkCppClient.Session

def scheduled (s t : St) : Option Nat :=
  if s.retryTimers.length < t.retryTimers.length then t.retryTimers.head? else none

def succeeds (s : St) (a : Act) : Bool := a = .finish ∧ s.waiter = some ⟨.second, .done true⟩

/-- The delays of the retries scheduled since creation or since the last successful retry, the newest first. -/
def recordDelay (delays : List Nat) (s : St) (a : Act) : List Nat :=
  if succeeds s a then []
  else match step s a with
    | some t => (scheduled s t).toList ++ delays
    | none => delays

def delaying : St × List Nat → Act → Option (St × List Nat) := Lts.withHistory step recordDelay

structure BackOff (x : St × List Nat) : Prop where
  delays : ∀ n d, x.2.reverse[n]? = some d → d = min (5 * 2 ^ n) 600
  lower : 5 ≤ x.1.client.retryDelay
  upper : x.1.client.retryDelay ≤ 600

/-- The next delay is tied to the number of attempts. -/
structure DelayInv (x : St × List Nat) : Prop where
  delays : ∀ n d, x.2.reverse[n]? = some d → d = min (5 * 2 ^ n) 600
  next : x.1.client.retryDelay = min (5 * 2 ^ x.2.length) 600

section
variable {s t : St} {delays : List Nat}

theorem delayInv_initial (timeout : Int) (expiredHandler : Bool) (now : Int) :
    DelayInv (St.initial timeout expiredHandler now, []) where
  delays n d h := by cases h
  next := rfl

theorem delayInv_congr (hi : DelayInv (s, delays)) (hdelay : t.client.retryDelay = s.client.retryDelay) :
    DelayInv (t, delays) := ⟨hi.delays, hdelay.trans hi.next⟩

theorem delayInv_scheduled (hi : DelayInv (s, delays))
    (hdelay : t.client.retryDelay = min (s.client.retryDelay * 2) kMaxRetryDelay) :
    DelayInv (t, s.client.retryDelay :: delays) := by
  have hnext := hi.next
  constructor
  · intro n d h
    rw [List.reverse_cons] at h
    by_cases hn : n < delays.length
    · rw [List.getElem?_append_left (by simpa using hn)] at h
      exact hi.delays n d h
    · rw [List.getElem?_append_right (by simpa using hn), List.length_reverse] at h
      obtain ⟨hlast, hd⟩ := List.getElem?_eq_some_iff.mp h
      have hlen : n = delays.length := by
        simp only [List.length_singleton] at hlast
        omega
      subst hlen
      rw [← hnext, ← hd]
      simp
  · show t.client.retryDelay = min (5 * 2 ^ (delays.length + 1)) 600
    rw [hdelay, hnext, Nat.pow_succ, kMaxRetryDelay]
    show min (min (5 * 2 ^ delays.length) 600 * 2) (10 * 60) = min (5 * (2 ^ delays.length * 2)) 600
    omega

theorem scheduled_of_eq (h : t.retryTimers = s.retryTimers) : scheduled s t = none := by simp [scheduled, h]

theorem scheduled_eraseIdx {i : Nat} (h : t.retryTimers = s.retryTimers.eraseIdx i) : scheduled s t = none := by
  have hle := List.length_eraseIdx_le s.retryTimers i
  rw [← h] at hle
  exact if_neg (Nat.not_lt.mpr hle)

theorem scheduled_cons {d : Nat} (h : t.retryTimers = d :: s.retryTimers) : scheduled s t = some d := by
  simp [scheduled, h]

theorem delay_step {a : Act} (h : step s a = some t) :
    (succeeds s a = true ∧ t.client.retryDelay = kInitRetryDelay) ∨
    (succeeds s a = false ∧ scheduled s t = none ∧ t.client.retryDelay = s.client.retryDelay) ∨
    (succeeds s a = false ∧ scheduled s t = some s.client.retryDelay ∧
      t.client.retryDelay = min (s.client.retryDelay * 2) kMaxRetryDelay) := by
  cases step_inv h with
  | @watcher w hw =>
    obtain ⟨_, _, _, _, _, heq⟩ := sessionWatcher_eq s w
    rw [heq]
    exact .inr (.inl ⟨rfl, scheduled_of_eq rfl, rfl⟩)
  | @finishInit ok hw =>
    have hno : succeeds s .finish = false := by simp [succeeds, hw]
    cases ok <;> exact .inr (.inl ⟨hno, scheduled_of_eq rfl, rfl⟩)
  | @finishRetry ok hw =>
    cases ok with
    | true => exact .inl ⟨by simp [succeeds, hw], rfl⟩
    | false =>
      have hno : succeeds s .finish = false := by simp [succeeds, hw]
      cases hsupport : s.client.isSupportReconnect with
      | true =>
        rw [finishRetry_switchedOn hsupport]
        exact .inr (.inr ⟨hno, scheduled_cons rfl, rfl⟩)
      | false =>
        rw [finishRetry_switchedOff hsupport]
        exact .inr (.inl ⟨hno, scheduled_of_eq rfl, rfl⟩)
  | expired hc =>
    obtain ⟨_, _, hcalled⟩ := callExpiredHandler_eq s
    by_cases hschedule : s.client.isRetrying = false ∧ s.client.isSupportReconnect = true
    · rw [sessionExpired_schedules hschedule.1 hschedule.2, hcalled]
      exact .inr (.inr ⟨rfl, scheduled_cons rfl, rfl⟩)
    · rw [sessionExpired_calls hschedule, hcalled]
      exact .inr (.inl ⟨rfl, scheduled_of_eq rfl, rfl⟩)
  | retryGone _ _ | retry _ _ => exact .inr (.inl ⟨rfl, scheduled_eraseIdx rfl, rfl⟩)
  | _ => exact .inr (.inl ⟨rfl, scheduled_of_eq rfl, rfl⟩)

theorem delayInv_step {x y : St × List Nat} {a : Act} (hi : DelayInv x) (h : delaying x a = some y) : DelayInv y := by
  obtain ⟨s, delays⟩ := x
  obtain ⟨t, delays'⟩ := y
  obtain ⟨hstep, hdelays⟩ := Lts.withHistory_some h
  simp only [recordDelay, hstep] at hdelays
  subst hdelays
  rcases delay_step hstep with ⟨hok, hdelay⟩ | ⟨hno, hnone, hdelay⟩ | ⟨hno, hsome, hdelay⟩
  · rw [hok]
    exact ⟨nofun, hdelay⟩
  · rw [hno, hnone]
    exact delayInv_congr hi hdelay
  · rw [hno, hsome]
    exact delayInv_scheduled hi hdelay

theorem backOff_of_delayInv {x : St × List Nat} (hi : DelayInv x) : BackOff x := by
  have hpos : 1 ≤ 2 ^ x.2.length := Nat.one_le_two_pow
  have hnext := hi.next
  exact ⟨hi.delays, by omega, by omega⟩

end

/-- **Back-off.** In every run, whatever the user switches and whichever retries succeed, the delays
between two successes are 5 seconds doubled up to 600. -/
theorem backOff_throughout (timeout : Int) (expiredHandler : Bool) (now : Int) (acts : List Act) :
    Lts.Throughout delaying BackOff (St.initial timeout expiredHandler now, []) acts :=
  Lts.throughout_of_along (G := fun _ _ => True) (fun _ _ _ hi _ h => delayInv_step hi h)
    (fun _ hi => backOff_of_delayInv hi) (delayInv_initial timeout expiredHandler now) (Lts.along_true acts _)

/-- The retry of an outage fails, and the next one waits twice as long. -/
example : ((Lts.run delaying (St.initial 4000 true 0, []) (failedRetry true)).map (·.2)) = some [10, 5] := by decide

end ZkCppClient.Session
