import ZkCppClient.Session.Machine

/-!
# What `reconnect` reports

The wait of `reconnect` tests the one session state of the client, which may
still be the former session's or be written for another handle. `reconnect`
reports the fate of the handle it opened when the tests of a final state come
after an event of that handle, and nothing but that handle's events has made
the state final since.
-/

namespace ZkCppClient.Session

/-- The handle that `reconnect` has made and has not reported on yet. -/
def reconnecting : Option Waiter → Option Handle
  | some ⟨.second, .calling zh⟩ => zh
  | some ⟨.second, .waiting zh⟩ => some zh
  | some ⟨.second, .tested zh⟩ => some zh
  | some ⟨.second, .parked zh⟩ => some zh
  | some ⟨.second, .leaving zh⟩ => some zh
  | _ => none

def HasEvent (log : List SessionEvent) (zh : Handle) : Prop := ∃ e ∈ log, e.zh = zh

def Recorded (log : List SessionEvent) (zh : Handle) (state : SessState) : Prop :=
  ∃ e ∈ log, e.zh = zh ∧ e.state = state

instance (log : List SessionEvent) (zh : Handle) : Decidable (HasEvent log zh) :=
  inferInstanceAs (Decidable (∃ e ∈ log, _))

instance (log : List SessionEvent) (zh : Handle) (state : SessState) : Decidable (Recorded log zh state) :=
  inferInstanceAs (Decidable (∃ e ∈ log, _))

/-- `reconnect` has returned true only for handles with a CONNECTED event, and
false only for handles with an EXPIRED event. -/
def FateReported (s : St) : Prop :=
  ∀ r ∈ s.results, Recorded s.log r.1 (if r.2 = true then .connected else .expired)

/-- The wait of `reconnect` sees no final state before the handle's first event.
From then on the final events are the handle's own, the check does not expire
the session, and no event revives one found expired. -/
def FreshFate (s : St) : Act → Prop
  | .testState => s.client.sessionState.final = true → ∀ zh ∈ reconnecting s.waiter, HasEvent s.log zh
  | .watcher => ∀ w ∈ s.watcher, w.pc = .setState → ∀ zh ∈ reconnecting s.waiter, HasEvent s.log zh →
      (w.state.final = true → w.zh = zh) ∧
      (s.waiter = some ⟨.second, .leaving zh⟩ → s.client.sessionState = .expired → w.state.final = true)
  | .check => s.check = .setExpired → ∀ zh ∈ reconnecting s.waiter, HasEvent s.log zh →
      s.client.sessionState = .expired
  | _ => True

instance (s : St) (a : Act) : Decidable (FreshFate s a) := by
  unfold FreshFate; split <;> infer_instance

structure HandlesMade (s : St) : Prop where
  opened : ∀ zh ∈ s.opened, zh < s.nextZh
  call : ∀ zh, initCall s.waiter = some (some zh) → zh < s.nextZh
  watcher : ∀ w ∈ s.watcher, w.zh < s.nextZh
  log : ∀ e ∈ s.log, e.zh < s.nextZh

structure FateInv (s : St) : Prop where
  made : HandlesMade s
  results : FateReported s
  state : ∀ zh ∈ reconnecting s.waiter, HasEvent s.log zh → s.client.sessionState.final = true →
    Recorded s.log zh s.client.sessionState
  leaving : ∀ zh, s.waiter = some ⟨.second, .leaving zh⟩ →
    HasEvent s.log zh ∧ (s.client.sessionState ≠ .expired → Recorded s.log zh .connected)

theorem Recorded.cons {log : List SessionEvent} {zh : Handle} {state : SessState} (h : Recorded log zh state)
    (e : SessionEvent) : Recorded (e :: log) zh state := by
  obtain ⟨e', hm, he⟩ := h
  exact ⟨e', List.mem_cons_of_mem _ hm, he⟩

theorem SessState.eq_connected {state : SessState} (hf : state.final = true) (hne : state ≠ .expired) :
    state = .connected := by
  cases state with
  | connected => rfl
  | expired => exact absurd rfl hne
  | _ => cases hf

/-! ## Handles -/

theorem handlesMade_initial (timeout : Int) (expiredHandler : Bool) (now : Int) :
    HandlesMade (St.initial timeout expiredHandler now) where
  opened _ h := by cases h
  call _ h := by cases h
  watcher _ h := by cases h
  log _ h := by cases h

theorem handlesMade_congr {s t : St} (hi : HandlesMade s) (hopened : ∀ zh ∈ t.opened, zh ∈ s.opened)
    (hnext : t.nextZh = s.nextZh) (hcall : ∀ zh, initCall t.waiter = some (some zh) → initCall s.waiter = some (some zh))
    (hwatcher : ∀ w ∈ t.watcher, ∃ w' ∈ s.watcher, w'.zh = w.zh)
    (hlog : ∀ e ∈ t.log, e ∈ s.log ∨ ∃ w ∈ s.watcher, w.zh = e.zh) : HandlesMade t := by
  refine ⟨fun zh h => ?_, fun zh h => ?_, fun w h => ?_, fun e h => ?_⟩
  · rw [hnext]; exact hi.opened zh (hopened zh h)
  · rw [hnext]; exact hi.call zh (hcall zh h)
  · rw [hnext]
    obtain ⟨w', hw', hz⟩ := hwatcher w h
    rw [← hz]; exact hi.watcher w' hw'
  · rw [hnext]
    rcases hlog e h with h | ⟨w, hw, hz⟩
    · exact hi.log e h
    · rw [← hz]; exact hi.watcher w hw

theorem handlesMade_sessionWatcher {s : St} (hi : HandlesMade s) {w : Watcher} (hw : s.watcher = some w) :
    HandlesMade (sessionWatcher s w) := by
  obtain ⟨zh, state, recvTimeout, pc⟩ := w
  have hself : ∀ pc', ∀ w ∈ some (⟨zh, state, recvTimeout, pc'⟩ : Watcher), ∃ w' ∈ s.watcher, w'.zh = w.zh := by
    intro pc' w h
    cases h; exact ⟨_, hw, rfl⟩
  cases pc with
  | setState =>
    refine handlesMade_congr hi (fun _ => id) rfl (fun _ => id) (hself _) fun e he => ?_
    rcases List.mem_cons.mp he with rfl | he
    · exact .inr ⟨_, hw, rfl⟩
    · exact .inl he
  | setTime =>
    cases state <;> exact handlesMade_congr hi (fun _ => id) rfl (fun _ => id) (hself _) fun _ => .inl
  | unlock =>
    refine handlesMade_congr hi (fun _ => id) rfl (fun zh' h => ?_) nofun fun _ => .inl
    have h : initCall (if state.final = true then notify s.waiter else s.waiter) = some (some zh') := h
    split at h
    · rwa [initCall_notify] at h
    · exact h

theorem handlesMade_step {s t : St} {a : Act} (hi : HandlesMade s) (h : step s a = some t) : HandlesMade t := by
  have hsame : ∀ w ∈ s.watcher, ∃ w' ∈ s.watcher, w'.zh = w.zh := fun w hw => ⟨w, hw, rfl⟩
  cases step_inv h with
  | @delivered zh _ _ hlive _ _ =>
    refine ⟨hi.opened, hi.call, fun w hw => ?_, hi.log⟩
    cases hw
    simp only [St.live, Bool.or_eq_true, decide_eq_true_eq] at hlive
    exact hlive.elim (hi.opened zh) (hi.call zh)
  | watcher hw => exact handlesMade_sessionWatcher hi hw
  | callOk _ =>  -- the new handle has the next number, and none was higher
    refine ⟨fun zh h => Nat.lt_succ_of_lt (hi.opened zh h), fun zh h => ?_,
      fun w h => Nat.lt_succ_of_lt (hi.watcher w h), fun e h => Nat.lt_succ_of_lt (hi.log e h)⟩
    cases h; exact Nat.lt_succ_self _
  | returnOk hw =>
    refine ⟨fun zh h => ?_, nofun, hi.watcher, hi.log⟩
    rcases List.mem_cons.mp h with rfl | h
    · exact hi.call zh (congrArg initCall hw)
    · exact hi.opened zh h
  | @finishInit ok _ => cases ok <;> exact handlesMade_congr hi (fun _ => id) rfl nofun hsame fun _ => .inl
  | @finishRetry ok _ =>
    obtain ⟨_, _, _, _, he⟩ := finishRetry_eq s ok
    rw [he]
    exact handlesMade_congr hi (fun _ => id) rfl nofun hsame fun _ => .inl
  | expired _ =>
    obtain ⟨_, _, _, _, _, he⟩ := sessionExpired_eq s
    rw [he]
    exact handlesMade_congr hi (fun _ => id) rfl (fun _ => id) hsame fun _ => .inl
  | destruct _ _ _ _ _ ho =>
    refine handlesMade_congr hi (fun zh h => ?_) rfl (fun _ => id) hsame fun _ => .inl
    rw [ho] at h
    split at h
    · exact h
    · exact List.mem_of_mem_erase h
  | callFail _ | returnFail _ | testLeave _ _ _ | testHold _ _ _ | park _ | wakeUp _ | leaveInit _ | leaveReconnect _
  | retryGone _ _ | retry _ _ =>
    exact handlesMade_congr hi (fun _ => id) rfl nofun hsame fun _ => .inl
  | _ => exact handlesMade_congr hi (fun _ => id) rfl (fun _ => id) hsame fun _ => .inl

/-! ## The fate of the handle -/

theorem fateInv_initial (timeout : Int) (expiredHandler : Bool) (now : Int) :
    FateInv (St.initial timeout expiredHandler now) where
  made := handlesMade_initial timeout expiredHandler now
  results _ h := by cases h
  state _ h := by cases h
  leaving _ h := by cases h

theorem fateInv_congr {s t : St} (hi : FateInv s) (hmade : HandlesMade t)
    (hresults : t.results = s.results) (hlog : t.log = s.log)
    (hstate : t.client.sessionState = s.client.sessionState)
    (hrec : ∀ zh ∈ reconnecting t.waiter, zh ∈ reconnecting s.waiter)
    (hleaving : ∀ zh, t.waiter = some ⟨.second, .leaving zh⟩ → s.waiter = some ⟨.second, .leaving zh⟩) : FateInv t := by
  refine ⟨hmade, fun r hr => ?_, fun zh hz => ?_, fun zh hz => ?_⟩
  · rw [hlog]; exact hi.results r (hresults ▸ hr)
  · rw [hlog, hstate]; exact hi.state zh (hrec zh hz)
  · rw [hlog, hstate]; exact hi.leaving zh (hleaving zh hz)

theorem reconnecting_notify (w : Option Waiter) : reconnecting (notify w) = reconnecting w := by
  unfold notify
  split
  · rename_i who zh
    cases who <;> rfl
  · rfl

theorem leaving_notify {w : Option Waiter} {zh : Handle} (h : notify w = some ⟨.second, .leaving zh⟩) :
    w = some ⟨.second, .leaving zh⟩ := by
  unfold notify at h
  split at h
  · cases h
  · exact h

theorem fateInv_setState {s t : St} (hi : FateInv s) {w : Watcher} (hw : s.watcher = some w) (hpc : w.pc = .setState)
    (hg : FreshFate s .watcher) (hmade : HandlesMade t) (hresults : t.results = s.results)
    (hwaiter : t.waiter = s.waiter) {e : SessionEvent} (hlog : t.log = e :: s.log) (hzh : e.zh = w.zh)
    (hst : e.state = w.state) (hstate : t.client.sessionState = w.state) : FateInv t := by
  have hother : ∀ zh, HasEvent t.log zh → e.zh = zh ∨ HasEvent s.log zh := by
    rintro zh ⟨e', hm, hz⟩
    rw [hlog] at hm
    rcases List.mem_cons.mp hm with rfl | hm
    · exact .inl hz
    · exact .inr ⟨e', hm, hz⟩
  have hhead : Recorded t.log w.zh w.state := ⟨e, by rw [hlog]; exact List.mem_cons_self, hzh, hst⟩
  have hkept : ∀ zh state, Recorded s.log zh state → Recorded t.log zh state := fun zh state h => by
    rw [hlog]; exact h.cons e
  refine ⟨hmade, fun r hr => hkept _ _ (hi.results r (hresults ▸ hr)), fun zh hz hev hf => ?_, fun zh hz => ?_⟩
  · rw [hwaiter] at hz
    rw [hstate] at hf ⊢
    -- a final state is of the handle itself, since the first event on
    have hw' : w.zh = zh := (hother zh hev).elim (fun h => hzh ▸ h) fun h => (hg w hw hpc zh hz h).1 hf
    exact hw' ▸ hhead
  · rw [hwaiter] at hz
    obtain ⟨hev, hconn⟩ := hi.leaving zh hz
    refine ⟨?_, fun hne => ?_⟩
    · obtain ⟨e', hm, hz'⟩ := hev
      exact ⟨e', by rw [hlog]; exact List.mem_cons_of_mem _ hm, hz'⟩
    · rw [hstate] at hne
      -- what ended the wait is on record, and an event cannot revive an expired session
      by_cases hexp : s.client.sessionState = .expired
      · obtain ⟨hown, hfinal⟩ := hg w hw hpc zh (by rw [hz]; rfl) hev
        have hf := hfinal hz hexp
        rw [← hown hf, ← SessState.eq_connected hf hne]
        exact hhead
      · exact hkept _ _ (hconn hexp)

theorem fateInv_sessionWatcher {s : St} (hi : FateInv s) {w : Watcher} (hw : s.watcher = some w)
    (hg : FreshFate s .watcher) : FateInv (sessionWatcher s w) := by
  have hmade := handlesMade_sessionWatcher hi.made hw
  obtain ⟨zh, state, recvTimeout, pc⟩ := w
  cases pc with
  | setState => exact fateInv_setState hi hw rfl hg hmade rfl rfl rfl rfl rfl rfl
  | setTime => cases state <;> exact fateInv_congr hi hmade rfl rfl rfl (fun _ => id) (fun _ => id)
  | unlock =>
    have hwaiter : (sessionWatcher s ⟨zh, state, recvTimeout, .unlock⟩).waiter =
        if state.final = true then notify s.waiter else s.waiter := rfl
    refine fateInv_congr hi hmade rfl rfl rfl (fun zh' h => ?_) (fun zh' h => ?_)
    · rw [hwaiter] at h
      split at h
      · rwa [reconnecting_notify] at h
      · exact h
    · rw [hwaiter] at h
      split at h
      · exact leaving_notify h
      · exact h

theorem fateInv_testLeave {s : St} (hi : FateInv s) {who : Who} {zh : Handle} (hw : s.waiter = some ⟨who, .waiting zh⟩)
    (hf : s.client.sessionState.final = true) (hg : FreshFate s .testState)
    (hmade : HandlesMade { s with waiter := some ⟨who, .leaving zh⟩ }) :
    FateInv { s with waiter := some ⟨who, .leaving zh⟩ } := by
  cases who with
  | creator => exact fateInv_congr hi hmade rfl rfl rfl nofun nofun
  | second =>
    have hrec : zh ∈ reconnecting s.waiter := by rw [hw]; rfl
    refine ⟨hmade, hi.results, fun zh' h => ?_, fun zh' h => ?_⟩
    · cases h; exact hi.state zh hrec
    · cases h
      refine ⟨hg hf zh hrec, fun hne => ?_⟩
      rw [← SessState.eq_connected hf hne]
      exact hi.state zh hrec (hg hf zh hrec) hf

theorem fateReported_leave {s : St} (hi : FateInv s) {zh : Handle} (hw : s.waiter = some ⟨.second, .leaving zh⟩) :
    ∀ r ∈ (zh, decide (s.client.sessionState ≠ .expired)) :: s.results,
      Recorded s.log r.1 (if r.2 = true then .connected else .expired) := by
  intro r hr
  obtain ⟨hev, hconn⟩ := hi.leaving zh hw
  rcases List.mem_cons.mp hr with rfl | hr
  · by_cases hexp : s.client.sessionState = .expired
    · have hrec := hi.state zh (by rw [hw]; rfl) hev (by rw [hexp]; rfl)
      simpa [hexp] using hrec
    · simpa [hexp] using hconn hexp
  · exact hi.results r hr

theorem fateInv_step {s t : St} {a : Act} (hi : FateInv s) (hg : FreshFate s a) (h : step s a = some t) : FateInv t := by
  have hmade := handlesMade_step hi.made h
  cases step_inv h with
  | watcher hw => exact fateInv_sessionWatcher hi hw hg
  | @callOk who _ =>
    cases who with
    | creator => exact fateInv_congr hi hmade rfl rfl rfl nofun nofun
    | second =>
      refine ⟨hmade, hi.results, fun zh hz hev => ?_, nofun⟩
      cases hz
      obtain ⟨e, hm, hz⟩ := hev
      exact absurd (hi.made.log e hm) (by rw [hz]; exact Nat.lt_irrefl _)
  | @callFail who _ => cases who <;> exact fateInv_congr hi hmade rfl rfl rfl nofun nofun
  | @returnOk who _ hw | @testHold who _ hw _ _ | @park who _ hw | @wakeUp who _ hw =>
    cases who with
    | creator => exact fateInv_congr hi hmade rfl rfl rfl nofun nofun
    | second => exact fateInv_congr hi hmade rfl rfl rfl (fun zh h => by rw [hw]; exact h) nofun
  | @returnFail who _ => cases who <;> exact fateInv_congr hi hmade rfl rfl rfl nofun nofun
  | testLeave hw _ hf => exact fateInv_testLeave hi hw hf hg hmade
  | leaveReconnect hw => exact ⟨hmade, fateReported_leave hi hw, nofun, nofun⟩
  | @finishInit ok _ => cases ok <;> exact fateInv_congr hi hmade rfl rfl rfl nofun nofun
  | @finishRetry ok _ =>
    obtain ⟨_, _, _, _, he⟩ := finishRetry_eq s ok
    rw [he] at hmade ⊢
    exact fateInv_congr hi hmade rfl rfl rfl nofun nofun
  | leaveInit _ | retryGone _ _ | retry _ _ => exact fateInv_congr hi hmade rfl rfl rfl nofun nofun
  | setExpired hc =>
    refine ⟨hmade, hi.results, fun zh hz hev _ => ?_, fun zh hz => ⟨(hi.leaving zh hz).1, fun hne => absurd rfl hne⟩⟩
    -- the condition: EXPIRED is written only where it is the state already
    have hexp := hg hc zh hz hev
    have hrec := hi.state zh hz hev (by rw [hexp]; rfl)
    rw [hexp] at hrec
    exact hrec
  | expired _ =>
    obtain ⟨_, _, _, _, _, he⟩ := sessionExpired_eq s
    rw [he] at hmade ⊢
    exact fateInv_congr hi hmade rfl rfl rfl (fun _ => id) (fun _ => id)
  | _ => exact fateInv_congr hi hmade rfl rfl rfl (fun _ => id) (fun _ => id)

/-- **The reported fate.** In the runs of `FreshFate`, whatever the state in
which `retry` calls and whatever events follow. -/
theorem fateReported_of_freshFate {timeout : Int} {expiredHandler : Bool} {now : Int} {acts : List Act}
    (hg : Lts.Along step FreshFate (St.initial timeout expiredHandler now) acts) :
    Lts.Throughout step FateReported (St.initial timeout expiredHandler now) acts :=
  Lts.throughout_of_along (fun _ _ _ hi hg h => fateInv_step hi hg h) (fun _ hi => hi.results)
    (fateInv_initial timeout expiredHandler now) hg

def reopenConnects : List Act :=
  [.retry 0, .zookeeperInit true] ++ recordEvent 1 .connected 4000 ++ [.zookeeperInitReturn, .testState, .leaveWait]

theorem fateReported_connected : Lts.Throughout step FateReported (St.initial 4000 true 0)
    (initConnects ++ localExpiry ++ reopenConnects) :=
  fateReported_of_freshFate (by decide)

/-- The state is still the EXPIRED of the former session, and `reconnect` gives
the new handle up before it has had any event. -/
theorem not_fateReported_stale : ¬ Lts.Throughout step FateReported (St.initial 4000 true 0)
    (initConnects ++ localExpiry ++ reopen ++ [.testState, .leaveWait]) := by
  intro h
  have hrec := h _ _ (List.prefix_refl _) rfl (1, false) List.mem_cons_self
  exact absurd hrec (by decide)

end ZkCppClient.Session
