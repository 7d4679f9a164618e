import ZkCppClient.Session.Atomic

/-!
# The clock of an outage

`sessionWatcher` writes the time of every event that is neither CONNECTED nor
EXPIRED over the time of the one before, so an outage of more than one such
event is measured from the last.
-/

namespace ZkCppClient.Session

/-- The run of non-final events that the log ends with, the newest first. -/
def disconnection (log : List SessionEvent) : List SessionEvent := log.takeWhile (!·.state.final)

/-- The clock runs from the first event of the outage, and a tick more than one timeout later finds
the session expired. -/
structure OutageClock (s : St) : Prop where
  start : ∀ first ∈ (disconnection s.log).getLast?, s.client.sessionDisconnectMs = first.arrival
  expiry : ∀ first ∈ (disconnection s.log).getLast?, s.now - first.arrival > s.client.sessionTimeout →
    s.found = true → ∀ t, atomicStep s .checkSessionState = some t → t.client.sessionState = .expired

/-- A further event of an outage arrives in the same millisecond as its first. -/
def OneInstant (s : St) : Handler → Prop
  | .sessionWatcher _ state _ => s.registered = true → state.final = false →
      ∀ first ∈ (disconnection s.log).getLast?, s.now = first.arrival
  | _ => True

instance (s : St) : ∀ a, Decidable (OneInstant s a)
  | .sessionWatcher _ _ _ => inferInstanceAs (Decidable (_ → _ → _))
  | .checkSessionState | .retry _ _ | .step _ => isTrue trivial

/-! ## The log -/

section
variable {e : SessionEvent} {log : List SessionEvent}

theorem disconnection_final (h : e.state.final = true) : disconnection (e :: log) = [] := by simp [disconnection, h]

theorem disconnection_other (h : e.state.final = false) : disconnection (e :: log) = e :: disconnection log := by
  simp [disconnection, h]

theorem getLast_disconnection (h : e.state.final = false) : (disconnection (e :: log)).getLast? =
    some ((disconnection log).getLast?.getD e) := by
  rw [disconnection_other h, List.getLast?_cons]

theorem head_of_disconnection (h : disconnection log ≠ []) : ∃ e ∈ log.head?, e.state.final = false := by
  cases log with
  | nil => exact absurd rfl h
  | cons e l =>
    refine ⟨e, rfl, ?_⟩
    cases hf : e.state.final with
    | false => rfl
    | true => exact absurd (disconnection_final hf) h

end

/-! ## The invariant -/

def Started (s : St) : Prop :=
  ∀ first ∈ (disconnection s.log).getLast?, s.client.sessionDisconnectMs = first.arrival

section
variable {s t : St}

theorem started_congr (hi : Started s) (hlog : t.log = s.log)
    (hdisconn : t.client.sessionDisconnectMs = s.client.sessionDisconnectMs) : Started t := by
  rw [Started, hlog, hdisconn]
  exact hi

theorem started_received {zh : Handle} {state : SessState} {recvTimeout : Int} (hreg : s.registered = true)
    (hg : OneInstant s (.sessionWatcher zh state recvTimeout)) : Started (s.received zh state recvTimeout) := by
  unfold Started
  cases hf : state.final with
  | true =>
    have hnone : disconnection (s.received zh state recvTimeout).log = [] := disconnection_final hf
    rw [hnone]
    nofun
  | false =>
    have hlast : (disconnection (s.received zh state recvTimeout).log).getLast? =
        some ((disconnection s.log).getLast?.getD ⟨zh, state, s.now, recvTimeout⟩) := getLast_disconnection hf
    have hnow : (s.received zh state recvTimeout).client.sessionDisconnectMs = s.now := by
      simp [St.received, hf]
    rw [hlast, hnow]
    intro first hfirst
    cases hfirst
    cases hprev : (disconnection s.log).getLast? with
    | none => rfl
    | some first => exact hg hreg hf first hprev

theorem started_step {a : Handler} (hb : Between s) (hi : Started s) (hg : OneInstant s a)
    (h : atomicStep s a = some t) : Started t := by
  cases atomicStep_inv hb h with
  | received hreg => exact started_received hreg hg
  | tickExpired _ _ =>
    obtain ⟨_, _, _, _, _, he⟩ := expiredTick_eq s
    rw [he]
    exact hi
  | step ha h =>
    have hkept := undisturbed_step ha h
    exact started_congr hi hkept.log hkept.sessionDisconnectMs
  | _ => exact hi

theorem outageClock_of_started (hb : Between s) (hi : Started s) : OutageClock s := by
  refine ⟨hi, fun first hfirst hlate hf t ht => ?_⟩
  have hne : disconnection s.log ≠ [] := by
    intro hnil
    rw [hnil] at hfirst
    cases hfirst
  obtain ⟨e, he, hfinal⟩ := head_of_disconnection hne
  -- an outage has begun, so the latest event is not CONNECTED and the state follows it
  have hnot : s.client.sessionState ≠ .connected := by
    intro hc
    obtain ⟨e', he', hc'⟩ := hb.connected.mp hc
    cases Option.mem_unique he he'
    rw [hc'] at hfinal
    cases hfinal
  have hfinds : s.findsExpired = true := by
    have hstart := hi first hfirst
    have hlate : s.now - s.client.sessionDisconnectMs > s.client.sessionTimeout := by rwa [hstart]
    simp [St.findsExpired, hnot, hlate]
  cases atomicStep_inv hb ht with
  | tickGone hgone =>
    rw [hf] at hgone
    cases hgone
  | tickFine _ hfine =>
    rw [hfinds] at hfine
    cases hfine
  | tickExpired _ _ =>
    obtain ⟨_, _, _, _, _, he⟩ := expiredTick_eq s
    rw [he]

theorem not_outageClock {a : Handler} (hb : Between s) (hg : ¬ OneInstant s a) (h : atomicStep s a = some t) :
    ¬ OutageClock t := by
  cases a with
  | sessionWatcher zh state recvTimeout =>
    simp only [OneInstant, Classical.not_imp, Classical.not_forall] at hg
    obtain ⟨hreg, hf, first, hfirst, hne⟩ := hg
    cases atomicStep_inv hb h with
    | dropped hgone =>
      rw [hreg] at hgone
      cases hgone
    | received _ =>
      have hlast : (disconnection (s.received zh state recvTimeout).log).getLast? =
          some ((disconnection s.log).getLast?.getD ⟨zh, state, s.now, recvTimeout⟩) := getLast_disconnection hf
      rw [hfirst] at hlast
      intro hclock
      have hstart := hclock.start first hlast
      simp only [St.received, hf] at hstart
      exact hne hstart
  | _ => exact absurd trivial hg

end

/-- **The clock of an outage.** In every run of whole handlers, it runs from the first event of each
outage just when all further events of the outage arrive in the same millisecond. -/
theorem outageClock_iff {timeout : Int} {expiredHandler : Bool} {now : Int} {acts : List Handler} {s : St}
    (h : Lts.run atomicStep (St.initial timeout expiredHandler now) acts = some s) :
    Lts.Throughout atomicStep OutageClock (St.initial timeout expiredHandler now) acts ↔
      Lts.Along atomicStep OneInstant (St.initial timeout expiredHandler now) acts :=
  Lts.throughout_iff_along (I := fun s => Between s ∧ Started s)
    (fun _ _ _ hi hg h => ⟨between_step hi.1 h, started_step hi.1 hi.2 hg h⟩)
    (fun _ hi => outageClock_of_started hi.1 hi.2) (fun _ _ _ hi hg h => not_outageClock hi.1 hg h)
    ⟨between_initial timeout expiredHandler now, nofun⟩ h

def twoEvents (d : Nat) : List Handler :=
  connects ++ [.sessionWatcher 0 .connecting 4000, .step (.tick d), .sessionWatcher 0 .associating 4000]

theorem outageClock_once : Lts.Throughout atomicStep OutageClock (St.initial 4000 true 0) (twoEvents 0) :=
  (outageClock_iff (s := (Lts.run atomicStep (St.initial 4000 true 0) (twoEvents 0)).get rfl) (Option.some_get _).symm).mpr
    (by decide)

/-- The second event sets the clock forward. -/
theorem not_outageClock_twice : ¬ Lts.Throughout atomicStep OutageClock (St.initial 4000 true 0) (twoEvents 3000) := by
  refine Lts.not_throughout ⟨_, rfl, fun h => ?_⟩
  have hstart := h.start _ rfl
  revert hstart
  decide

end ZkCppClient.Session
