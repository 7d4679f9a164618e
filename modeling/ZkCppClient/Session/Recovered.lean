import ZkCppClient.Session.Atomic

/-!
# A session that comes back

A retry is scheduled when the session is found expired, and fires up to ten
minutes later. `retry` reconnects without a look at the state, so a session that
has come back in the meantime is given up for a new one.
-/

namespace ZkCppClient.Session

/-- A retry of a session that is connected again ends as one that has succeeded, with the handle as it was. -/
def KeepsRecovered (s : St) : Handler → Prop
  | .retry i ok => s.found = true → s.client.sessionState = .connected → ∀ t, atomicStep s (.retry i ok) = some t →
      t = finishRetry { s with retryTimers := s.retryTimers.eraseIdx i } true
  | _ => True

/-- A retry that finds its client fires while the latest event is not CONNECTED. -/
def FiresDisconnected (s : St) : Handler → Prop
  | .retry _ _ => s.found = true → ∀ e ∈ s.log.head?, e.state ≠ .connected
  | _ => True

instance (s : St) : ∀ a, Decidable (FiresDisconnected s a)
  | .retry _ _ => inferInstanceAs (Decidable (_ → _))
  | .sessionWatcher _ _ _ | .checkSessionState | .step _ => isTrue trivial

section
variable {s t : St}

theorem retry_waits {i : Nat} {ok : Bool} (hb : Between s) (hf : s.found = true)
    (h : atomicStep s (.retry i ok) = some t) : t.waiter.isSome := by
  cases atomicStep_inv hb h with
  | retryGone _ hgone =>
    rw [hf] at hgone
    cases hgone
  | retryOk _ _ | retryFail _ _ => rfl

theorem keepsRecovered_step {a : Handler} (hb : Between s) (h : atomicStep s a = some t) :
    KeepsRecovered s a ↔ FiresDisconnected s a := by
  cases a with
  | retry i ok =>
    constructor
    · intro hkeeps hf e he hconnected
      have ht := hkeeps hf (hb.connected.mpr ⟨e, he, hconnected⟩) t h
      have hwaits := retry_waits hb hf h
      rw [ht] at hwaits
      cases hwaits
    · intro hg hf hconnected
      obtain ⟨e, he, hc⟩ := hb.connected.mp hconnected
      exact absurd hc (hg hf e he)
  | _ => exact Iff.rfl

end

/-- **A recovered session.** In every run of whole handlers, no session that has come back is thrown
away just when no retry fires after it has. -/
theorem keepsRecovered_iff {timeout : Int} {expiredHandler : Bool} {now : Int} {acts : List Handler} {s : St}
    (h : Lts.run atomicStep (St.initial timeout expiredHandler now) acts = some s) :
    Lts.Along atomicStep KeepsRecovered (St.initial timeout expiredHandler now) acts ↔
      Lts.Along atomicStep FiresDisconnected (St.initial timeout expiredHandler now) acts :=
  Lts.along_iff_along (fun _ _ _ hb h => between_step hb h) (fun _ _ _ hb h => keepsRecovered_step hb h)
    (between_initial timeout expiredHandler now) h

def retriedAfter (events : List Handler) : List Handler :=
  connects ++ [.sessionWatcher 0 .connecting 4000, .step (.tick 5000), .checkSessionState] ++ events ++ [.retry 0 true]

theorem keepsRecovered_lost : Lts.Along atomicStep KeepsRecovered (St.initial 4000 true 0) (retriedAfter []) :=
  (keepsRecovered_iff (s := (Lts.run atomicStep (St.initial 4000 true 0) (retriedAfter [])).get rfl)
    (Option.some_get _).symm).mpr (by decide)

theorem not_keepsRecovered_back : ¬ Lts.Along atomicStep KeepsRecovered (St.initial 4000 true 0)
    (retriedAfter [.sessionWatcher 0 .connected 4000]) := by
  intro h
  have hfires := (h.append.2 _ rfl).1
  have hkept := hfires rfl rfl _ rfl
  cases congrArg St.waiter hkept

end ZkCppClient.Session
