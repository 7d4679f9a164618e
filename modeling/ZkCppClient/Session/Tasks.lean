import ZkCppClient.Session.Supervision

/-!
# Supervision tasks are unique and die with the client

`Tasks` is what counts of a client's state: the retries pending, where the
second thread is in `retry`, where the first thread is in `checkSessionState`,
and `isRetrying_`. `Tasks.One` is the invariant of the four, with a lemma for
each kind of step that changes them.
-/

namespace ZkCppClient.Session

/-! ## The retry task and the flag -/

/-- Where the second thread is: in `reconnect`, or after it, with a retry or `setIsRetrying(false)` to come. -/
inductive RetryPlace
  | out
  | inside
  | failed
  | succeeded
  deriving DecidableEq, Repr

/-- Where `checkSessionState` is: it has found `isRetrying_` clear and is to schedule, or it has scheduled and is
to set `isRetrying_`. -/
inductive CheckPlace
  | out
  | decided
  | scheduled
  deriving DecidableEq, Repr

structure Tasks where
  timers : Nat
  retry : RetryPlace
  check : CheckPlace
  isRetrying : Bool

def RetryPlace.alive : RetryPlace → Nat
  | .inside | .failed => 1
  | .out | .succeeded => 0

structure Tasks.One (t : Tasks) : Prop where
  one : t.timers + t.retry.alive ≤ 1
  decided : t.check = .decided → t.timers + t.retry.alive = 0 ∧ t.retry ≠ .succeeded
  clear : t.isRetrying = false → t.check ≠ .scheduled → t.timers + t.retry.alive = 0 ∧ t.retry ≠ .succeeded
  succeeded : t.retry = .succeeded → t.timers = 0

section
variable {t : Tasks} (h : t.One)
include h

theorem Tasks.One.fires (ht : 0 < t.timers) (hr : t.retry = .out) :
    Tasks.One { t with timers := t.timers - 1, retry := .inside } := by
  have hone := h.one
  simp only [hr, RetryPlace.alive] at hone
  refine ⟨by simp only [RetryPlace.alive]; omega, fun hc => ?_, fun hf hc => ?_, fun hs => by cases hs⟩
  · have := (h.decided hc).1
    omega
  · have := (h.clear hf hc).1
    omega

theorem Tasks.One.drops : Tasks.One { t with timers := t.timers - 1 } := by
  have hone := h.one
  refine ⟨?_, fun hc => ?_, fun hf hc => ?_, fun hs => ?_⟩
  · simp only
    omega
  · have := h.decided hc
    exact ⟨by simp only; omega, this.2⟩
  · have := h.clear hf hc
    exact ⟨by simp only; omega, this.2⟩
  · have := h.succeeded hs
    simp only
    omega

theorem Tasks.One.fails (hr : t.retry = .inside) : Tasks.One { t with retry := .failed } := by
  have hone := h.one
  have hdecided := h.decided
  have hclear := h.clear
  simp only [hr, RetryPlace.alive] at hone hdecided hclear
  exact ⟨hone, fun hc => absurd (hdecided hc).1 (by simp), fun hf hc => absurd (hclear hf hc).1 (by simp),
    fun hs => by cases hs⟩

theorem Tasks.One.succeeds (hr : t.retry = .inside) : Tasks.One { t with retry := .succeeded } := by
  -- where the retry at work succeeds, it was the only one, and the check knows of it
  have hone := h.one
  have hdecided := h.decided
  have hclear := h.clear
  simp only [hr, RetryPlace.alive] at hone hdecided hclear
  refine ⟨?_, fun hc => absurd (hdecided hc).1 (by simp), fun hf hc => absurd (hclear hf hc).1 (by simp), fun _ => ?_⟩
  · simp only [RetryPlace.alive]
    omega
  · simp only
    omega

theorem Tasks.One.leaves : Tasks.One { t with retry := .out } := by
  have hone := h.one
  refine ⟨?_, fun hc => ⟨?_, by simp⟩, fun hf hc => ⟨?_, by simp⟩, fun hs => by cases hs⟩
  · simp only [RetryPlace.alive]
    omega
  · have := (h.decided hc).1
    simp only [RetryPlace.alive]
    omega
  · have := (h.clear hf hc).1
    simp only [RetryPlace.alive]
    omega

theorem Tasks.One.reschedules (hr : t.retry = .failed) : Tasks.One { t with timers := t.timers + 1, retry := .out } := by
  have hone := h.one
  have hdecided := h.decided
  have hclear := h.clear
  simp only [hr, RetryPlace.alive] at hone hdecided hclear
  exact ⟨hone, fun hc => absurd (hdecided hc).1 (by simp), fun hf hc => absurd (hclear hf hc).1 (by simp),
    fun hs => by cases hs⟩

theorem Tasks.One.clears (hr : t.retry = .succeeded) : Tasks.One { t with retry := .out, isRetrying := false } := by
  have hnone := h.succeeded hr
  exact ⟨by simp [hnone, RetryPlace.alive], fun _ => by simp [hnone, RetryPlace.alive],
    fun _ _ => by simp [hnone, RetryPlace.alive], fun hs => by cases hs⟩

theorem Tasks.One.sets : Tasks.One { t with isRetrying := true } :=
  ⟨h.one, h.decided, fun hf => (by cases hf), h.succeeded⟩

theorem Tasks.One.checkSets : Tasks.One { t with check := .out, isRetrying := true } :=
  ⟨h.one, fun hc => (by cases hc), fun hf => (by cases hf), h.succeeded⟩

theorem Tasks.One.decides (hf : t.isRetrying = false) (hc : t.check = .out) : Tasks.One { t with check := .decided } := by
  have hclear := h.clear hf (by simp [hc])
  exact ⟨h.one, fun _ => hclear, fun _ _ => hclear, h.succeeded⟩

theorem Tasks.One.checkLeaves (hc : t.check ≠ .scheduled) : Tasks.One { t with check := .out } :=
  ⟨h.one, fun hc => (by cases hc), fun hf _ => h.clear hf hc, h.succeeded⟩

theorem Tasks.One.schedules (hc : t.check = .decided) : Tasks.One { t with timers := t.timers + 1, check := .scheduled } := by
  obtain ⟨hnone, hr⟩ := h.decided hc
  refine ⟨?_, fun hc => (by cases hc), fun _ hc => absurd rfl hc, fun hs => absurd hs hr⟩
  simp only
  omega

end

/-! ## One client -/

def SchedulePc.scheduled : SchedulePc → Bool
  | .getRetryDelay | .runAfter _ => false
  | .getRetryDelayAgain | .setRetryDelay _ | .setIsRetrying => true

def FinishPc.place : Bool → FinishPc → RetryPlace
  | true, .start | true, .setIsRetrying => .succeeded
  | false, .start => .failed
  | false, .schedule pc => if pc.scheduled then .out else .failed
  | _, _ => .out

def St.waiting (s : St) : Option (Who × Option Bool) := s.waiter.map fun w => (w.who, w.pc.result)

def Supervised.retryPlace (x : Supervised) : RetryPlace :=
  match x.session.waiting with
  | some (.second, some ok) => x.finish.place ok
  | some (.second, none) => .inside
  | _ => .out

def ExpiredPc.place : ExpiredPc → CheckPlace
  | .isSupportReconnect => .decided
  | .schedule pc => if pc.scheduled then .scheduled else .decided
  | _ => .out

def Supervised.checkPlace (x : Supervised) : CheckPlace :=
  match x.session.check with
  | .expired => x.expired.place
  | _ => .out

def Supervised.tasks (x : Supervised) : Tasks where
  timers := x.session.retryTimers.length
  retry := x.retryPlace
  check := x.checkPlace
  isRetrying := x.session.client.isRetrying

/-- The checks pending, and the one at work until it has scheduled the next. -/
def Supervised.checkTasks (x : Supervised) : Nat := x.session.checkTimers + if x.session.check = .idle then 0 else 1

def Supervised.retryTasks (x : Supervised) : Nat :=
  x.session.retryTimers.length + if x.session.waiting = some (.second, none) then 1 else 0

structure TasksInv (x : Supervised) : Prop where
  one : x.tasks.One
  creator : ∀ r, x.session.waiting = some (.creator, r) → x.created = none
  second : ∀ r, x.session.waiting = some (.second, r) → x.created = some true
  early : x.created ≠ some true → x.session.retryTimers = [] ∧ x.session.checkTimers = 0 ∧ x.session.check = .idle
  initialized : x.created = some true → x.session.client.isInitialized = true
  initializing : x.session.waiting = some (.creator, some true) → x.finish ≠ .start →
    x.session.client.isInitialized = true
  check : x.created = some true → x.session.registered = true → x.checkTasks = 1

theorem retryTasks_le {x : Supervised} (h : x.tasks.One) : x.retryTasks ≤ 1 := by
  have hone := h.one
  simp only [Supervised.tasks, Supervised.retryPlace] at hone
  unfold Supervised.retryTasks
  by_cases hin : x.session.waiting = some (.second, none)
  · simpa [hin, RetryPlace.alive] using hone
  · rw [if_neg hin]
    omega

theorem waiting_notify (w : Option Waiter) :
    (notify w).map (fun w => (w.who, w.pc.result)) = w.map fun w => (w.who, w.pc.result) := by
  unfold notify
  split <;> rfl

theorem waiting_sessionWatcher (s : St) (w : Watcher) : (sessionWatcher s w).waiting = s.waiting := by
  obtain ⟨_, _, _, _, _, heq⟩ := sessionWatcher_eq s w
  rw [heq]
  simp only [St.waiting]
  split
  · exact waiting_notify _
  · rfl

theorem waiting_eq {s : St} {who : Who} {pc : WaitPc} (h : s.waiter = some ⟨who, pc⟩) :
    s.waiting = some (who, pc.result) := by
  simp [St.waiting, h]

section
variable {x y : Supervised}

theorem tasksInv_session (hi : TasksInv x) {s : St} (hwaiting : s.waiting = x.session.waiting)
    (hretry : s.retryTimers = x.session.retryTimers) (hchecks : s.checkTimers = x.session.checkTimers)
    (hcheck : s.check = x.session.check) (hreg : s.registered = true → x.session.registered = true)
    (hinit : s.client.isInitialized = x.session.client.isInitialized)
    (hflag : s.client.isRetrying = x.session.client.isRetrying) : TasksInv { x with session := s } := by
  have htasks : Supervised.tasks { x with session := s } = x.tasks := by
    simp [Supervised.tasks, Supervised.retryPlace, Supervised.checkPlace, hretry, hcheck, hflag, hwaiting]
  constructor
  · rw [htasks]; exact hi.one
  · rw [hwaiting]; exact hi.creator
  · rw [hwaiting]; exact hi.second
  · rw [hretry, hchecks, hcheck]; exact hi.early
  · rw [hinit]; exact hi.initialized
  · rw [hwaiting, hinit]; exact hi.initializing
  · have hsame : Supervised.checkTasks { x with session := s } = x.checkTasks := by
      simp [Supervised.checkTasks, hchecks, hcheck]
    rw [hsame]
    exact fun h hr => hi.check h (hreg hr)

theorem one_none (flag : Bool) : Tasks.One ⟨0, .out, .out, flag⟩ := by
  constructor <;> simp [RetryPlace.alive]

theorem tasksInv_creating (hcreated : y.created ≠ some true) (hsecond : ∀ r, y.session.waiting ≠ some (.second, r))
    (hcreator : ∀ r, y.session.waiting = some (.creator, r) → y.created = none)
    (hnone : y.session.retryTimers = [] ∧ y.session.checkTimers = 0 ∧ y.session.check = .idle)
    (hinit : y.session.waiting = some (.creator, some true) → y.finish ≠ .start →
      y.session.client.isInitialized = true) : TasksInv y := by
  have hout : y.retryPlace = .out := by
    unfold Supervised.retryPlace
    split
    case h_1 ok hw => exact absurd hw (hsecond _)
    case h_2 hw => exact absurd hw (hsecond _)
    case h_3 => rfl
  have hplaces : y.tasks = ⟨0, .out, .out, y.session.client.isRetrying⟩ := by
    simp [Supervised.tasks, Supervised.checkPlace, hout, hnone]
  exact {
    one := by rw [hplaces]; exact one_none _
    creator := hcreator
    second := fun r h => absurd h (hsecond r)
    early := fun _ => hnone
    initialized := fun h => absurd h hcreated
    initializing := hinit
    check := fun h => absurd h hcreated }

theorem tasksInv_created (hcreated : y.created = some true) (hone : y.tasks.One)
    (hwaiting : ∀ r, y.session.waiting ≠ some (.creator, r)) (hinit : y.session.client.isInitialized = true)
    (hcheck : y.session.registered = true → y.checkTasks = 1) : TasksInv y where
  one := hone
  creator r h := absurd h (hwaiting r)
  second _ _ := hcreated
  early h := absurd hcreated h
  initialized _ := hinit
  initializing h := absurd h (hwaiting _)
  check _ := hcheck

theorem TasksInv.not_creator (hi : TasksInv x) (hcreated : x.created = some true) (r : Option Bool) :
    x.session.waiting ≠ some (.creator, r) := by
  intro h
  rw [hi.creator r h] at hcreated
  cases hcreated

theorem TasksInv.created (hi : TasksInv x)
    (h : x.session.check ≠ .idle ∨ 0 < x.session.checkTimers ∨ 0 < x.session.retryTimers.length) :
    x.created = some true := by
  by_contra hn
  obtain ⟨hretry, hchecks, hidle⟩ := hi.early hn
  simp [hretry, hchecks, hidle] at h

theorem tasksInv_check (hi : TasksInv x) (hbusy : x.session.check ≠ .idle) (hcreated : y.created = x.created)
    (hone : y.tasks.One) (hwaiting : y.session.waiting = x.session.waiting)
    (hinit : y.session.client.isInitialized = x.session.client.isInitialized)
    (hreg : y.session.registered = x.session.registered) (hchecks : y.session.checkTimers = x.session.checkTimers)
    (hpc : y.session.check ≠ .idle) : TasksInv y := by
  have hc := hi.created (.inl hbusy)
  refine tasksInv_created (hcreated.trans hc) hone ?_ ?_ ?_
  · rw [hwaiting]; exact hi.not_creator hc
  · rw [hinit]; exact hi.initialized hc
  · have hsame : y.checkTasks = x.checkTasks := by simp [Supervised.checkTasks, hchecks, hpc, hbusy]
    rw [hreg, hsame]
    exact hi.check hc

theorem tasksInv_retry (hi : TasksInv x) {r : Option Bool} (hw : x.session.waiting = some (.second, r))
    (hcreated : y.created = x.created) (hone : y.tasks.One) (hwaiting : ∀ r, y.session.waiting ≠ some (.creator, r))
    (hinit : y.session.client.isInitialized = x.session.client.isInitialized)
    (hreg : y.session.registered = x.session.registered) (hchecks : y.session.checkTimers = x.session.checkTimers)
    (hcheck : y.session.check = x.session.check) : TasksInv y := by
  have hc := hi.second r hw
  refine tasksInv_created (hcreated.trans hc) hone hwaiting ?_ ?_
  · rw [hinit]; exact hi.initialized hc
  · have hsame : y.checkTasks = x.checkTasks := by simp [Supervised.checkTasks, hchecks, hcheck]
    rw [hreg, hsame]
    exact hi.check hc

theorem tasksInv_expired (hi : TasksInv x) (hexpired : x.session.check = .expired) {s : St} {pc : ExpiredPc}
    {place : CheckPlace} (hplace : s.check = .expired ∧ pc.place = place ∨ s.check = .again ∧ .out = place)
    (hone : Tasks.One ⟨s.retryTimers.length, x.retryPlace, place, s.client.isRetrying⟩)
    (hwaiting : s.waiting = x.session.waiting) (hinit : s.client.isInitialized = x.session.client.isInitialized)
    (hreg : s.registered = x.session.registered) (hchecks : s.checkTimers = x.session.checkTimers) :
    TasksInv { x with session := s, expired := pc } := by
  have hretry : Supervised.retryPlace { x with session := s, expired := pc } = x.retryPlace := by
    simp [Supervised.retryPlace, hwaiting]
  have hcheck : Supervised.checkPlace { x with session := s, expired := pc } = place ∧ s.check ≠ .idle := by
    obtain ⟨hs, rfl⟩ | ⟨hs, rfl⟩ := hplace <;> simp [Supervised.checkPlace, hs]
  refine tasksInv_check hi (by simp [hexpired]) rfl ?_ hwaiting hinit hreg hchecks hcheck.2
  rw [Supervised.tasks, hretry, hcheck.1]
  exact hone

theorem expired_tasksInv (hi : TasksInv x) (hexpired : x.session.check = .expired) : TasksInv (expiredStep x) := by
  have hone := hi.one
  simp only [Supervised.tasks, Supervised.checkPlace, hexpired] at hone
  have hin : ∀ {s : St} {pc : ExpiredPc}, s.check = .expired → s.check = .expired ∧ pc.place = pc.place ∨
      s.check = .again ∧ .out = pc.place := fun hs => .inl ⟨hs, rfl⟩
  have hout : ∀ {s : St} {pc : ExpiredPc}, s.check = .again → s.check = .expired ∧ pc.place = .out ∨
      s.check = .again ∧ CheckPlace.out = .out := fun hs => .inr ⟨hs, rfl⟩
  cases hpc : x.expired with
  | start =>
    rw [hpc] at hone
    simp only [expiredStep, hpc]
    split
    · exact tasksInv_expired hi hexpired (hin hexpired) hone rfl rfl rfl rfl
    · exact tasksInv_expired hi hexpired (hin hexpired) hone rfl rfl rfl rfl
  | handler =>
    rw [hpc] at hone
    simp only [expiredStep, hpc]
    exact tasksInv_expired hi hexpired (hin hexpired) hone rfl rfl rfl rfl
  | isRetrying =>
    rw [hpc] at hone
    simp only [expiredStep, hpc]
    by_cases hf : x.session.client.isRetrying = true
    · rw [if_pos hf]
      exact tasksInv_expired hi hexpired (hout rfl) (hone.checkLeaves (by simp [ExpiredPc.place])) rfl rfl rfl rfl
    · rw [if_neg hf]
      -- the flag is clear: no retry is there, and none can come but from here
      exact tasksInv_expired hi hexpired (hin hexpired) (hone.decides (by simpa using hf) rfl) rfl rfl rfl rfl
  | isSupportReconnect =>
    rw [hpc] at hone
    simp only [expiredStep, hpc]
    by_cases hs : x.session.client.isSupportReconnect = true
    · rw [if_pos hs]
      exact tasksInv_expired hi hexpired (hin hexpired) hone rfl rfl rfl rfl
    · rw [if_neg hs]
      exact tasksInv_expired hi hexpired (hout rfl) (hone.checkLeaves (by simp [ExpiredPc.place])) rfl rfl rfl rfl
  | schedule pc =>
    rw [hpc] at hone
    cases pc with
    | getRetryDelay | getRetryDelayAgain | setRetryDelay delay =>
      simp only [expiredStep, hpc, scheduleStep]
      exact tasksInv_expired hi hexpired (hin hexpired) hone rfl rfl rfl rfl
    | runAfter delay =>
      simp only [expiredStep, hpc, scheduleStep]
      exact tasksInv_expired hi hexpired (hin hexpired) (hone.schedules rfl) rfl rfl rfl rfl
    | setIsRetrying =>
      simp only [expiredStep, hpc, scheduleStep]
      exact tasksInv_expired hi hexpired (hout rfl) hone.checkSets rfl rfl rfl rfl

theorem init_tasksInv (hi : TasksInv x) {ok : Bool} (hw : x.session.waiter = some ⟨.creator, .done ok⟩)
    (h : initStep x ok x.finish = some y) : TasksInv y := by
  have hwaiting : x.session.waiting = some (.creator, some ok) := waiting_eq hw
  have hcreated := hi.creator _ hwaiting
  have hnot : x.created ≠ some true := by simp [hcreated]
  have hsecond : ∀ r, x.session.waiting ≠ some (.second, r) := by simp [hwaiting]
  have hnone := hi.early hnot
  cases ok with
  | false =>
    obtain rfl := Option.some.inj h
    exact tasksInv_creating (by simp) (by simp [St.waiting]) (by simp [St.waiting]) hnone (by simp [St.waiting])
  | true =>
    cases hf : x.finish with
    | start =>
      rw [hf] at h
      obtain rfl := Option.some.inj h
      exact tasksInv_creating hnot hsecond hi.creator hnone fun _ _ => rfl
    | setIsRetrying | setHasCallTimeoutFun =>
      rw [hf] at h
      obtain rfl := Option.some.inj h
      exact tasksInv_creating hnot hsecond hi.creator hnone fun _ _ => hi.initializing hwaiting (by simp [hf])
    | runAfter =>
      rw [hf] at h
      obtain rfl := Option.some.inj h
      apply tasksInv_created
      · rfl
      · simp [Supervised.tasks, Supervised.retryPlace, Supervised.checkPlace, St.waiting, hnone, one_none]
      · simp [St.waiting]
      · exact hi.initializing hwaiting (by simp [hf])
      · simp [Supervised.checkTasks, hnone]
    | schedule pc =>
      rw [hf] at h
      cases h

theorem retry_tasksInv (hi : TasksInv x) {ok : Bool} (hw : x.session.waiter = some ⟨.second, .done ok⟩)
    (h : retryStep x ok x.finish = some y) : TasksInv y := by
  have hwaiting : x.session.waiting = some (.second, some ok) := waiting_eq hw
  have hstays : ∀ r, x.session.waiting ≠ some (.creator, r) := by simp [hwaiting]
  have hone := hi.one
  simp only [Supervised.tasks, Supervised.retryPlace, hwaiting] at hone
  have hgoes : ∀ (s : St) (f : FinishPc), s.waiter = x.session.waiter →
      s.client.isInitialized = x.session.client.isInitialized → s.registered = x.session.registered →
      s.checkTimers = x.session.checkTimers → s.check = x.session.check →
      Tasks.One ⟨s.retryTimers.length, f.place ok, x.checkPlace, s.client.isRetrying⟩ →
      TasksInv { x with session := s, finish := f } := by
    intro s f hsame hinit hreg hchecks hcheck hs
    have hwaiting' : s.waiting = some (.second, some ok) := by rw [← hwaiting, St.waiting, hsame]; rfl
    refine tasksInv_retry hi hwaiting rfl ?_ (by simp [hwaiting']) hinit hreg hchecks hcheck
    simpa [Supervised.tasks, Supervised.retryPlace, Supervised.checkPlace, hwaiting', hcheck] using hs
  have hover : ∀ s : St, s.waiter = none → s.client.isInitialized = x.session.client.isInitialized →
      s.registered = x.session.registered → s.checkTimers = x.session.checkTimers → s.check = x.session.check →
      Tasks.One ⟨s.retryTimers.length, .out, x.checkPlace, s.client.isRetrying⟩ → TasksInv { x with session := s } := by
    intro s hnone hinit hreg hchecks hcheck hs
    have hgone : s.waiting = none := by simp [St.waiting, hnone]
    refine tasksInv_retry hi hwaiting rfl ?_ (by simp [hgone]) hinit hreg hchecks hcheck
    simpa [Supervised.tasks, Supervised.retryPlace, Supervised.checkPlace, hgone, hcheck] using hs
  cases ok with
  | true =>  -- it succeeded, so it was the only one, and it clears the flag
    cases hf : x.finish with
    | start =>
      rw [hf] at h hone
      obtain rfl := Option.some.inj h
      exact hgoes _ _ rfl rfl rfl rfl rfl hone
    | setIsRetrying =>
      rw [hf] at h hone
      obtain rfl := Option.some.inj h
      exact hgoes _ _ rfl rfl rfl rfl rfl (hone.clears rfl)
    | setHasCallTimeoutFun =>
      rw [hf] at h hone
      obtain rfl := Option.some.inj h
      exact hover _ rfl rfl rfl rfl rfl hone
    | runAfter | schedule pc =>
      rw [hf] at h
      cases h
  | false =>
    cases hf : x.finish with
    | start =>
      rw [hf] at h hone
      simp only [retryStep] at h
      by_cases hs : x.session.client.isSupportReconnect = true
      · rw [if_pos hs] at h
        obtain rfl := Option.some.inj h
        exact hgoes _ _ rfl rfl rfl rfl rfl hone
      · rw [if_neg hs] at h
        obtain rfl := Option.some.inj h
        exact hover _ rfl rfl rfl rfl rfl hone.leaves
    | schedule pc =>
      rw [hf] at h hone
      cases pc with
      | getRetryDelay | getRetryDelayAgain | setRetryDelay delay =>
        obtain rfl := Option.some.inj h
        exact hgoes _ _ rfl rfl rfl rfl rfl hone
      | runAfter delay =>  -- the next retry is there before the flag is set again
        obtain rfl := Option.some.inj h
        exact hgoes _ _ rfl rfl rfl rfl rfl (hone.reschedules rfl)
      | setIsRetrying =>
        obtain rfl := Option.some.inj h
        exact hover _ rfl rfl rfl rfl rfl hone.sets
    | setIsRetrying | setHasCallTimeoutFun | runAfter =>
      rw [hf] at h
      cases h

theorem tasksInv_checkPc (hi : TasksInv x) {pc : CheckPc} (hc : x.session.check ≠ .idle)
    (hx : x.session.check ≠ .expired) (hidle : pc ≠ .idle) (hpc : pc ≠ .expired) :
    TasksInv { x with session := { x.session with check := pc } } := by
  have hout : ∀ {z : Supervised}, z.session.check ≠ .expired → z.checkPlace = .out := by
    intro z hz
    unfold Supervised.checkPlace
    split
    case h_1 h => exact absurd h hz
    case h_2 => rfl
  have hone := hi.one
  simp only [Supervised.tasks, hout hx] at hone
  refine tasksInv_check hi hc rfl ?_ rfl rfl rfl rfl hidle
  rw [Supervised.tasks, hout hpc]
  exact hone

theorem check_tasksInv (hi : TasksInv x) (h : supervisedStep x .check = some y) : TasksInv y := by
  simp only [supervisedStep] at h
  split at h
  case h_1 hexpired =>
    obtain rfl := Option.some.inj h
    exact expired_tasksInv hi hexpired
  case h_2 hset =>
    obtain ⟨s, hs, rfl⟩ := Option.map_eq_some_iff.mp h
    simp only [checkStep, hset] at hs
    obtain rfl := Option.some.inj hs
    have hone := hi.one
    simp only [Supervised.tasks, Supervised.checkPlace, hset] at hone
    exact tasksInv_check hi (by simp [hset]) rfl hone rfl rfl rfl rfl (by simp)
  case h_3 hexpired hset =>
    obtain ⟨s, hs, rfl⟩ := Option.map_eq_some_iff.mp h
    cases checkStep_inv hs with
    | isExpired hc hpc | isConnected hc hpc | compare hc hpc =>
      refine tasksInv_checkPc hi (by simp [hc]) (by simp [hc]) ?_ ?_ <;> (rw [hpc]; split <;> simp)
    | setExpired hc => exact absurd hc hset
    | expired hc => exact absurd hc hexpired
    | again hc =>
      have hcreated := hi.created (.inl (by simp [hc]))
      have hone := hi.one
      simp only [Supervised.tasks, Supervised.checkPlace, hc] at hone
      refine tasksInv_created hcreated hone (hi.not_creator hcreated) (hi.initialized hcreated) fun hreg => ?_
      have hbefore := hi.check hcreated hreg
      simpa [Supervised.checkTasks, hc] using hbefore

theorem found_iff (hi : TasksInv x) (hcreated : x.created = some true) :
    x.session.found = x.session.registered := by
  simp [St.found, hi.initialized hcreated]

theorem checkTimer_tasksInv (hi : TasksInv x) (h : supervisedStep x .checkSessionState = some y) : TasksInv y := by
  obtain ⟨s, hs, rfl⟩ := Option.map_eq_some_iff.mp h
  simp only [step] at hs
  split at hs
  case isFalse => cases hs
  case isTrue hg =>
    obtain ⟨hidle, htimers⟩ := hg
    obtain rfl := Option.some.inj hs
    have hcreated := hi.created (.inr (.inl htimers))
    have hone := hi.one
    simp only [Supervised.tasks, Supervised.checkPlace, hidle] at hone
    apply tasksInv_created
    · exact hcreated
    · rw [found_iff hi hcreated]
      cases x.session.registered <;> exact hone
    · exact hi.not_creator hcreated
    · exact hi.initialized hcreated
    · intro hreg
      have hreg : x.session.registered = true := hreg
      have hbefore := hi.check hcreated hreg
      simp only [Supervised.checkTasks, hidle] at hbefore
      simp only [Supervised.checkTasks, found_iff hi hcreated, hreg, if_true, reduceCtorEq, if_false] at hbefore ⊢
      omega

theorem retryTimer_tasksInv (hi : TasksInv x) {i : Nat} (h : supervisedStep x (.retry i) = some y) : TasksInv y := by
  obtain ⟨s, hs, rfl⟩ := Option.map_eq_some_iff.mp h
  simp only [step] at hs
  split at hs
  case isFalse => cases hs
  case isTrue hg =>
    obtain ⟨hlt, hw⟩ := hg
    obtain rfl := Option.some.inj hs
    have hcreated := hi.created (.inr (.inr (by omega)))
    have hone := hi.one
    simp only [Supervised.tasks, Supervised.retryPlace, Supervised.checkPlace, St.waiting, hw] at hone
    apply tasksInv_created
    · exact hcreated
    · simp only [Supervised.tasks, Supervised.retryPlace, Supervised.checkPlace, St.waiting, found_iff hi hcreated,
        List.length_eraseIdx_of_lt hlt]
      cases x.session.registered with
      | true => exact hone.fires (by simp only; omega) rfl
      | false => exact hone.drops
    · cases x.session.found <;> simp [St.waiting]
    · exact hi.initialized hcreated
    · exact hi.check hcreated

theorem waitReturn_tasksInv (hi : TasksInv x) {who : Who} {pc : WaitPc} {r : Option Bool} {s : St}
    (hw : x.session.waiter = some ⟨who, pc⟩) (hpc : pc.result = none) (hafter : s.waiting = some (who, r))
    (hretry : s.retryTimers = x.session.retryTimers) (hchecks : s.checkTimers = x.session.checkTimers)
    (hcheck : s.check = x.session.check) (hreg : s.registered = x.session.registered)
    (hinit : s.client.isInitialized = x.session.client.isInitialized)
    (hflag : s.client.isRetrying = x.session.client.isRetrying) :
    TasksInv { x with session := s, finish := .start } := by
  have hbefore : x.session.waiting = some (who, none) := by rw [waiting_eq hw, hpc]
  cases who with
  | creator =>
    have hcreated := hi.creator _ hbefore
    refine tasksInv_creating (by simp [hcreated]) (by simp [hafter]) (fun _ _ => hcreated) ?_ (by simp)
    rw [hretry, hchecks, hcheck]
    exact hi.early (by simp [hcreated])
  | second =>
    refine tasksInv_retry hi hbefore rfl ?_ (by simp [hafter]) hinit hreg hchecks hcheck
    have hone := hi.one
    simp only [Supervised.tasks, Supervised.retryPlace, hbefore] at hone
    simp only [Supervised.tasks, Supervised.retryPlace, Supervised.checkPlace, hafter, hretry, hcheck, hflag]
    cases r with
    | none => exact hone
    | some ok =>
      cases ok with
      | true => exact hone.succeeds rfl
      | false => exact hone.fails rfl

theorem watcher_tasksInv (hi : TasksInv x) (w : Watcher) : TasksInv { x with session := sessionWatcher x.session w } := by
  have hwaiting := waiting_sessionWatcher x.session w
  obtain ⟨_, _, _, _, _, heq⟩ := sessionWatcher_eq x.session w
  rw [heq] at hwaiting ⊢
  exact tasksInv_session hi hwaiting rfl rfl rfl id rfl rfl

theorem supervised_tasksInv {a : Act} (hi : TasksInv x) (h : supervisedStep x a = some y) : TasksInv y := by
  cases a with
  | check => exact check_tasksInv hi h
  | checkSessionState => exact checkTimer_tasksInv hi h
  | retry i => exact retryTimer_tasksInv hi h
  | finish =>
    simp only [supervisedStep] at h
    split at h
    case h_1 hw => exact init_tasksInv hi hw h
    case h_2 hw => exact retry_tasksInv hi hw h
    case h_3 => cases h
  | leaveWait =>
    obtain ⟨s, hs, rfl⟩ := Option.map_eq_some_iff.mp h
    cases step_inv hs with
    | leaveInit hw => exact waitReturn_tasksInv hi hw rfl rfl rfl rfl rfl rfl rfl rfl
    | leaveReconnect hw => exact waitReturn_tasksInv hi hw rfl rfl rfl rfl rfl rfl rfl rfl
  | zookeeperInitReturn =>
    obtain ⟨s, hs, rfl⟩ := Option.map_eq_some_iff.mp h
    cases step_inv hs with
    | returnOk hw => exact waitReturn_tasksInv hi hw rfl rfl rfl rfl rfl rfl rfl rfl
    | returnFail hw => exact waitReturn_tasksInv hi hw rfl rfl rfl rfl rfl rfl rfl rfl
  | tick d =>
    obtain rfl := Option.some.inj h
    exact tasksInv_session hi rfl rfl rfl rfl id rfl rfl
  | deliver zh state recvTimeout =>
    obtain ⟨s, hs, rfl⟩ := Option.map_eq_some_iff.mp h
    cases step_inv hs with
    | dropped hreg => exact hi
    | delivered hlive hmutex hreg => exact tasksInv_session hi rfl rfl rfl rfl id rfl rfl
  | watcher =>
    obtain ⟨s, hs, rfl⟩ := Option.map_eq_some_iff.mp h
    cases step_inv hs with
    | watcher hw => exact watcher_tasksInv hi _
  | zookeeperInit ok =>
    obtain ⟨s, hs, rfl⟩ := Option.map_eq_some_iff.mp h
    cases step_inv hs with
    | callOk hw => exact tasksInv_session hi (waiting_eq hw).symm rfl rfl rfl id rfl rfl
    | callFail hw => exact tasksInv_session hi (waiting_eq hw).symm rfl rfl rfl id rfl rfl
  | testState =>
    obtain ⟨s, hs, rfl⟩ := Option.map_eq_some_iff.mp h
    cases step_inv hs with
    | testLeave hw => exact tasksInv_session hi (waiting_eq hw).symm rfl rfl rfl id rfl rfl
    | testHold hw => exact tasksInv_session hi (waiting_eq hw).symm rfl rfl rfl id rfl rfl
  | park =>
    obtain ⟨s, hs, rfl⟩ := Option.map_eq_some_iff.mp h
    cases step_inv hs with
    | park hw => exact tasksInv_session hi (waiting_eq hw).symm rfl rfl rfl id rfl rfl
  | wakeUp =>
    obtain ⟨s, hs, rfl⟩ := Option.map_eq_some_iff.mp h
    cases step_inv hs with
    | wakeUp hw => exact tasksInv_session hi (waiting_eq hw).symm rfl rfl rfl id rfl rfl
  | readCurrentMs =>
    obtain ⟨s, hs, rfl⟩ := Option.map_eq_some_iff.mp h
    cases step_inv hs with
    | readCurrentMs hc => exact tasksInv_checkPc hi (by simp [hc]) (by simp [hc]) (by simp) (by simp)
  | readSessDisconn =>
    obtain ⟨s, hs, rfl⟩ := Option.map_eq_some_iff.mp h
    cases step_inv hs with
    | readSessDisconn hc => exact tasksInv_checkPc hi (by simp [hc]) (by simp [hc]) (by simp) (by simp)
  | readSessTimeout =>
    obtain ⟨s, hs, rfl⟩ := Option.map_eq_some_iff.mp h
    cases step_inv hs with
    | readSessTimeout hc => exact tasksInv_checkPc hi (by simp [hc]) (by simp [hc]) (by simp) (by simp)
  | setIsSupportReconnect isReconn =>
    obtain rfl := Option.some.inj h
    exact tasksInv_session hi rfl rfl rfl rfl id rfl rfl
  | destroyClient =>
    obtain rfl := Option.some.inj h
    exact tasksInv_session hi rfl rfl rfl rfl (by simp) rfl rfl
  | destruct =>
    obtain ⟨s, hs, rfl⟩ := Option.map_eq_some_iff.mp h
    cases step_inv hs
    exact tasksInv_session hi rfl rfl rfl rfl id rfl rfl

/-! ## A client that has been destroyed -/

theorem step_registered {s t : St} {a : Act} (h : step s a = some t) (hreg : s.registered = false) :
    t.registered = false := by
  by_cases ha : a = .destroyClient
  · subst ha
    obtain rfl := Option.some.inj h
    rfl
  · rw [registered_of_step h ha, hreg]

theorem expired_registered (x : Supervised) : (expiredStep x).session.registered = x.session.registered := by
  unfold expiredStep
  cases hpc : x.expired with
  | start | handler => rfl
  | isRetrying | isSupportReconnect => simp only; split <;> rfl
  | schedule pc => cases pc <;> rfl

theorem init_registered {ok : Bool} {pc : FinishPc} (h : initStep x ok pc = some y) :
    y.session.registered = x.session.registered := by
  cases ok with
  | false =>
    obtain rfl := Option.some.inj h
    rfl
  | true =>
    cases pc with
    | start | setIsRetrying | setHasCallTimeoutFun | runAfter =>
      obtain rfl := Option.some.inj h
      rfl
    | schedule pc => cases h

theorem retry_registered {ok : Bool} {pc : FinishPc} (h : retryStep x ok pc = some y) :
    y.session.registered = x.session.registered := by
  cases ok with
  | true =>
    cases pc with
    | start | setIsRetrying | setHasCallTimeoutFun =>
      obtain rfl := Option.some.inj h
      rfl
    | runAfter | schedule pc => cases h
  | false =>
    cases pc with
    | start =>
      simp only [retryStep] at h
      split at h
      all_goals
        obtain rfl := Option.some.inj h
        rfl
    | schedule pc =>
      cases pc with
      | getRetryDelay | runAfter delay | getRetryDelayAgain | setRetryDelay delay | setIsRetrying =>
        obtain rfl := Option.some.inj h
        rfl
    | setIsRetrying | setHasCallTimeoutFun | runAfter => cases h

theorem supervised_registered {a : Act} (h : supervisedStep x a = some y) (hreg : x.session.registered = false) :
    y.session.registered = false := by
  have hmap : ∀ {a : Act} {f : St → Supervised}, (∀ s, (f s).session = s) → (step x.session a).map f = some y →
      y.session.registered = false := by
    intro a f hf h
    obtain ⟨s, hs, rfl⟩ := Option.map_eq_some_iff.mp h
    rw [hf]
    exact step_registered hs hreg
  cases a with
  | finish =>
    simp only [supervisedStep] at h
    split at h
    case h_1 => rw [init_registered h, hreg]
    case h_2 => rw [retry_registered h, hreg]
    case h_3 => cases h
  | check =>
    simp only [supervisedStep] at h
    split at h
    case h_1 =>
      obtain rfl := Option.some.inj h
      rw [expired_registered, hreg]
    case h_2 => exact hmap (a := .check) (fun _ => rfl) h
    case h_3 => exact hmap (a := .check) (fun _ => rfl) h
  | leaveWait => exact hmap (a := .leaveWait) (fun _ => rfl) h
  | zookeeperInitReturn => exact hmap (a := .zookeeperInitReturn) (fun _ => rfl) h
  | destroyClient =>
    obtain rfl := Option.some.inj h
    rfl
  | tick d | setIsSupportReconnect isReconn =>
    obtain rfl := Option.some.inj h
    exact hreg
  | zookeeperInit _ | testState | park | wakeUp | retry _ | deliver _ _ _ | watcher | checkSessionState | readCurrentMs
  | readSessDisconn | readSessTimeout | destruct => exact hmap (fun _ => rfl) h

theorem destroyed_timer (hreg : x.session.registered = false) :
    (supervisedStep x .checkSessionState = some y →
      y = { x with session := { x.session with checkTimers := x.session.checkTimers - 1 } }) ∧
    ∀ i, supervisedStep x (.retry i) = some y →
      y = { x with session := { x.session with retryTimers := x.session.retryTimers.eraseIdx i } } := by
  have hfound : x.session.found = false := by simp [St.found, hreg]
  constructor
  · intro h
    obtain ⟨s, hs, rfl⟩ := Option.map_eq_some_iff.mp h
    simp only [step, hfound] at hs
    split at hs
    case isTrue hg =>
      obtain rfl := Option.some.inj hs
      simp [hg.1]
    case isFalse => cases hs
  · intro i h
    obtain ⟨s, hs, rfl⟩ := Option.map_eq_some_iff.mp h
    simp only [step, hfound] at hs
    split at hs
    case isTrue hg =>
      obtain rfl := Option.some.inj hs
      simp [hg.2]
    case isFalse => cases hs

end

/-! ## All clients -/

section
variable {p q : Supervision}

theorem put_clients (p : Supervision) (handle h : Nat) (x : Supervised) :
    (p.put handle x).clients h = if h = handle then some x else p.clients h := by
  by_cases hh : h = handle
  · subst hh; simp [Supervision.put]
  · simp [Supervision.put, hh]

theorem client_some {handle : Nat} {a : Act} (h : supervisionStep p (.client handle a) = some q) :
    ∃ x y, p.clients handle = some x ∧ supervisedStep x a = some y ∧ q = p.put handle y ∧ p.blocked a = false := by
  simp only [supervisionStep] at h
  split at h
  case isTrue => cases h
  case isFalse hfree =>
    obtain ⟨y, hy, rfl⟩ := Option.map_eq_some_iff.mp h
    obtain ⟨x, hx, hy⟩ := Option.bind_eq_some_iff.mp hy
    exact ⟨x, y, hx, hy, rfl, by simpa using hfree⟩

theorem clients_step {P : Supervised → Prop} {a : SupervisionAct} (h : supervisionStep p a = some q)
    (hnew : ∀ timeout expiredHandler now, P (.initial timeout expiredHandler now))
    (hstep : ∀ x b y, P x → supervisedStep x b = some y → P y) (hp : ∀ handle x, p.clients handle = some x → P x) :
    ∀ handle x, q.clients handle = some x → P x := by
  intro handle x hx
  cases a with
  | tick d =>
    obtain rfl := Option.some.inj h
    obtain ⟨z, hz, hx⟩ := Option.bind_eq_some_iff.mp hx
    exact hstep z _ x (hp handle z hz) hx
  | createZkClient new timeout expiredHandler =>
    simp only [supervisionStep] at h
    split at h
    case isTrue => cases h
    case isFalse =>
      obtain rfl := Option.some.inj h
      rw [put_clients] at hx
      split at hx
      case isTrue =>
        obtain rfl := Option.some.inj hx
        exact hnew _ _ _
      case isFalse => exact hp handle x hx
  | client new b =>
    obtain ⟨z, y, hz, hy, rfl, -⟩ := client_some h
    rw [put_clients] at hx
    split at hx
    case isTrue =>
      obtain rfl := Option.some.inj hx
      exact hstep z b _ (hp new z hz) hy
    case isFalse => exact hp handle x hx

theorem tasksInv_initial (timeout : Int) (expiredHandler : Bool) (now : Int) :
    TasksInv (.initial timeout expiredHandler now) :=
  tasksInv_creating (by simp [Supervised.initial]) (fun _ => by simp [Supervised.initial, St.initial, St.waiting])
    (fun _ _ => rfl) ⟨rfl, rfl, rfl⟩ (by simp [Supervised.initial, St.initial, St.waiting, WaitPc.result])

def Supervision.Gone (handle : Nat) (p : Supervision) : Prop :=
  ∃ x, p.clients handle = some x ∧ x.session.registered = false

theorem gone_step {handle : Nat} {a : SupervisionAct} (hgone : p.Gone handle) (h : supervisionStep p a = some q) :
    q.Gone handle := by
  obtain ⟨x, hx, hreg⟩ := hgone
  cases a with
  | tick d =>
    obtain rfl := Option.some.inj h
    exact ⟨{ x with session := { x.session with now := x.session.now + d } }, by simp only [hx]; rfl, hreg⟩
  | createZkClient new timeout expiredHandler =>
    simp only [supervisionStep] at h
    split at h
    case isTrue => cases h
    case isFalse hnew =>
      obtain rfl := Option.some.inj h
      have hne : handle ≠ new := by
        rintro rfl
        simp [hx] at hnew
      exact ⟨x, by rw [put_clients, if_neg hne, hx], hreg⟩
  | client new b =>
    obtain ⟨z, y, hz, hy, rfl, -⟩ := client_some h
    by_cases hne : handle = new
    · subst hne
      obtain rfl : x = z := Option.some.inj (hx.symm.trans hz)
      exact ⟨y, by rw [put_clients, if_pos rfl], supervised_registered hy hreg⟩
    · exact ⟨x, by rw [put_clients, if_neg hne, hx], hreg⟩

theorem destroyed_gone {handle : Nat} (h : supervisionStep p (.client handle .destroyClient) = some q) :
    q.Gone handle := by
  obtain ⟨x, y, -, hy, rfl, -⟩ := client_some h
  obtain rfl := Option.some.inj hy
  exact ⟨_, by rw [put_clients, if_pos rfl], rfl⟩

theorem runs_tasksInv {now : Int} {as : List SupervisionAct} (hr : Lts.run supervisionStep (.initial now) as = some p) :
    ∀ handle x, p.clients handle = some x → TasksInv x := by
  refine Lts.inv_of_run (I := fun p => ∀ handle x, p.clients handle = some x → TasksInv x) (fun p a q hi h => ?_)
    (fun _ _ h => by cases h) hr
  exact clients_step h tasksInv_initial (fun x b y hi h => supervised_tasksInv hi h) hi

/-- A client in the registry is supervised by one task of each kind at most, and by one check once it has been
created; a task that starts after `destroyClient` takes itself away and does nothing else. -/
theorem tasks_unique {now : Int} {as : List SupervisionAct} (hr : Lts.run supervisionStep (.initial now) as = some p)
    {handle : Nat} {x : Supervised} (hx : p.clients handle = some x) :
    (x.session.registered = true → x.created = some true → x.checkTasks = 1 ∧ x.retryTasks ≤ 1) ∧
      (.client handle .destroyClient ∈ as → ∀ q,
        (supervisionStep p (.client handle .checkSessionState) = some q → q.clients = Function.update p.clients handle
          (some { x with session := { x.session with checkTimers := x.session.checkTimers - 1 } })) ∧
        ∀ i, supervisionStep p (.client handle (.retry i)) = some q → q.clients = Function.update p.clients handle
          (some { x with session := { x.session with retryTimers := x.session.retryTimers.eraseIdx i } })) := by
  have hi := runs_tasksInv hr handle x hx
  refine ⟨fun hreg hcreated => ⟨hi.check hcreated hreg, retryTasks_le hi.one⟩, fun hmem q => ?_⟩
  obtain ⟨z, hz, hreg⟩ := Lts.inv_of_mem (J := Supervision.Gone handle) (fun _ _ h => destroyed_gone h)
    (fun _ _ _ hgone h => gone_step hgone h) hmem hr
  obtain rfl : x = z := Option.some.inj (hx.symm.trans hz)
  constructor
  · intro h
    obtain ⟨z, y, hz, hy, rfl, -⟩ := client_some h
    obtain rfl : x = z := Option.some.inj (hx.symm.trans hz)
    rw [(destroyed_timer hreg).1 hy]
    rfl
  · intro i h
    obtain ⟨z, y, hz, hy, rfl, -⟩ := client_some h
    obtain rfl : x = z := Option.some.inj (hx.symm.trans hz)
    rw [(destroyed_timer hreg).2 i hy]
    rfl

end

/-- The session has expired, the check has given a retry to the second thread and has not set `isRetrying_`, and
the retry is in `reconnect`. -/
def twoTasks : List SupervisionAct :=
  .createZkClient 2 4000 true :: [.zookeeperInit true, .zookeeperInitReturn, .deliver 0 .connected 4000, .watcher,
    .watcher, .watcher, .testState, .leaveWait, .finish, .finish, .finish, .finish, .deliver 0 .expired 0, .watcher,
    .checkSessionState, .check, .check, .check, .check, .check, .check, .check, .check, .retry 0,
    .zookeeperInit true].map (.client 2)

theorem tasks_unique_destroyed :
    (∃ p x, Lts.run supervisionStep (.initial 0) twoTasks = some p ∧ p.clients 2 = some x ∧
      x.checkTasks = 1 ∧ x.retryTasks ≤ 1) ∧
    ∃ p x, Lts.run supervisionStep (.initial 0)
        (twoTasks ++ [.destroyClient, .check, .check, .check, .check].map (.client 2)) = some p ∧
      p.clients 2 = some x ∧ ∀ q, supervisionStep p (.client 2 .checkSessionState) = some q →
        q.clients = Function.update p.clients 2
          (some { x with session := { x.session with checkTimers := x.session.checkTimers - 1 } }) := by
  constructor
  · obtain ⟨x, hx⟩ := Option.isSome_iff_exists.mp (show ((Lts.run supervisionStep (.initial 0) twoTasks).bind
      fun p => (p.clients 2).filter fun x => x.session.registered && x.created == some true).isSome by decide)
    obtain ⟨p, hr, hx⟩ := Option.bind_eq_some_iff.mp hx
    obtain ⟨hx, hcreated⟩ := Option.filter_eq_some_iff.mp hx
    simp only [Bool.and_eq_true, beq_iff_eq] at hcreated
    exact ⟨p, x, hr, hx, (tasks_unique hr hx).1 hcreated.1 hcreated.2⟩
  · obtain ⟨x, hx⟩ := Option.isSome_iff_exists.mp (show ((Lts.run supervisionStep (.initial 0)
      (twoTasks ++ [.destroyClient, .check, .check, .check, .check].map (.client 2))).bind
        fun p => p.clients 2).isSome by decide)
    obtain ⟨p, hr, hx⟩ := Option.bind_eq_some_iff.mp hx
    exact ⟨p, x, hr, hx, fun q => ((tasks_unique hr hx).2 (by decide) q).1⟩

end ZkCppClient.Session
