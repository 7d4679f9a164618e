import ZkCppClient.Threads.Machine

/-!
# Queued functors are run in order, and wake their thread

The record keeps, for each thread, what other threads have queued for it and
what it has taken from its batches. `InOrder` ties the two to the rest of the
batch and to `pendingFunctors_`. `Awake` ties the queue of a thread in its loop
to its eventfd and to the calls that have pushed and not yet written.
-/

namespace ZkCppClient.Threads

open Lts

section
variable {φ : Type}

/-- What has been queued to each thread by others, and what each has run of it. -/
structure Log (φ : Type) where
  queued : ThreadId → List (Functor φ)
  executed : ThreadId → List (Functor φ)

def Log.empty : Log φ := ⟨fun _ => [], fun _ => []⟩

def Log.record (log : Log φ) (s : St φ) : Act φ → Log φ
  | .loop t =>
    match s.loop t with
    | some (.running (cb :: _)) => { log with executed := Function.update log.executed t (log.executed t ++ [cb]) }
    | _ => log
  | .submit x =>
    match s.submit x with
    | .runInThread t cb =>
      if x = t then log else { log with queued := Function.update log.queued t (log.queued t ++ [cb]) }
    | _ => log
  | _ => log

def LoopPc.rest : LoopPc φ → List (Functor φ)
  | .running functors | .inFunctor functors => functors
  | _ => []

def St.rest (s : St φ) (t : ThreadId) : List (Functor φ) := (s.loop t).elim [] LoopPc.rest

structure St.Waiting (s : St φ) (t : ThreadId) : Prop where
  registered : (s.threadDatas t).isSome
  loop : s.loop t = some .blocked
  queue : s.pending t = []
  idle : s.submit t = .idle

theorem looping_waiting {workers : ThreadId → Bool} {t : ThreadId} (h : workers t = true) :
    (St.looping workers : St φ).Waiting t := by
  constructor <;> simp [St.looping, St.pending, h]

/-! ## What the operations leave alone -/

@[simp] theorem pending_setLoop (s : St φ) (t : ThreadId) (pc) : (s.setLoop t pc).pending = s.pending := rfl

@[simp] theorem rest_setSubmit (s : St φ) (x : ThreadId) (pc) : (s.setSubmit x pc).rest = s.rest := rfl

@[simp] theorem pending_setSubmit (s : St φ) (x : ThreadId) (pc) : (s.setSubmit x pc).pending = s.pending := rfl

@[simp] theorem rest_setData (s : St φ) (t : ThreadId) (f) : (s.setData t f).rest = s.rest := rfl

@[simp] theorem pending_setData (s : St φ) (t : ThreadId) (f) : (s.setData t f).pending = s.pending := rfl

@[simp] theorem rest_threadDatas (s : St φ) (threadDatas) : ({ s with threadDatas } : St φ).rest = s.rest := rfl

@[simp] theorem pending_threadDatas (s : St φ) (threadDatas) : ({ s with threadDatas } : St φ).pending = s.pending := rfl

@[simp] theorem rest_timerQueues (s : St φ) (timerQueues) : ({ s with timerQueues } : St φ).rest = s.rest := rfl

@[simp] theorem pending_timerQueues (s : St φ) (timerQueues) : ({ s with timerQueues } : St φ).pending = s.pending := rfl

@[simp] theorem rest_swap (s : St φ) (t : ThreadId) : (s.swap t).rest = s.rest := rfl

@[simp] theorem rest_push (s : St φ) (t : ThreadId) (cb) : (s.push t cb).rest = s.rest := rfl

theorem rest_setLoop (s : St φ) (t u : ThreadId) (pc : LoopPc φ) :
    (s.setLoop t pc).rest u = if u = t then pc.rest else s.rest u := by
  by_cases h : u = t
  · subst h; simp [St.rest, St.setLoop]
  · simp [St.rest, St.setLoop, h]

theorem pending_push (s : St φ) (t u : ThreadId) (cb : Functor φ) :
    (s.push t cb).pending u = if u = t then s.pending t ++ [cb] else s.pending u := by
  by_cases h : u = t
  · subst h; simp [St.pending, St.push]
  · simp [St.pending, St.push, h]

theorem pending_swap (s : St φ) (t u : ThreadId) : (s.swap t).pending u = if u = t then [] else s.pending u := by
  by_cases h : u = t
  · subst h
    cases hp : s.pendingFunctors u <;> simp [St.pending, St.swap, hp]
  · simp [St.pending, St.swap, h]

/-! ## Order -/

/-- What `t` has run, the rest of its batch and its queue are what others have queued. -/
def InOrder (t : ThreadId) (x : St φ × Log φ) : Prop := x.2.executed t ++ x.1.rest t ++ x.1.pending t = x.2.queued t

theorem loopStep_other {s : St φ} {t u : ThreadId} (h : t ≠ u) (pc : LoopPc φ) :
    (s.loopStep u pc).rest t = s.rest t ∧ (s.loopStep u pc).pending t = s.pending t := by
  cases pc with
  | handling readable => cases readable <;> simp [St.loopStep, rest_setLoop, h]
  | running functors => cases functors <;> simp [St.loopStep, rest_setLoop, h]
  | created | published | registered | inserted | blocked | calling | inFunctor _ =>
    simp [St.loopStep, rest_setLoop, pending_swap, h]

theorem loopStep_own {s : St φ} {t : ThreadId} {pc : LoopPc φ} (hpc : s.loop t = some pc) (log : Log φ) :
    (log.record s (.loop t)).executed t ++ (s.loopStep t pc).rest t ++ (s.loopStep t pc).pending t =
      log.executed t ++ pc.rest ++ s.pending t := by
  cases pc with
  | handling readable => cases readable <;> simp [St.loopStep, Log.record, hpc, rest_setLoop, LoopPc.rest]
  | running functors => cases functors <;> simp [St.loopStep, Log.record, hpc, rest_setLoop, LoopPc.rest]
  | created | published | registered | inserted | blocked | calling | inFunctor _ =>
    simp [St.loopStep, Log.record, hpc, rest_setLoop, pending_swap, LoopPc.rest]

theorem record_loop_queued (log : Log φ) (s : St φ) (t : ThreadId) : (log.record s (.loop t)).queued = log.queued := by
  simp only [Log.record]
  split <;> rfl

theorem record_loop_other {t u : ThreadId} (h : t ≠ u) (log : Log φ) (s : St φ) :
    (log.record s (.loop u)).executed t = log.executed t := by
  simp only [Log.record]
  split <;> simp [h]

theorem loopStep_inOrder {s : St φ} {log : Log φ} {t u : ThreadId} {pc : LoopPc φ} (hi : InOrder t (s, log))
    (hpc : s.loop u = some pc) : InOrder t (s.loopStep u pc, log.record s (.loop u)) := by
  unfold InOrder at hi ⊢
  rw [record_loop_queued, ← hi]
  by_cases h : t = u
  · subst h
    have hrest : s.rest t = pc.rest := by simp [St.rest, hpc]
    rw [loopStep_own hpc, hrest]
  · obtain ⟨hrest, hpending⟩ := loopStep_other h pc (s := s)
    rw [record_loop_other h, hrest, hpending]

theorem push_inOrder {s : St φ} {log : Log φ} {t x thread_id : ThreadId} {cb : Functor φ} (hi : InOrder t (s, log))
    (hpc : s.submit x = .runInThread thread_id cb) (hx : x ≠ thread_id) :
    InOrder t ((s.push thread_id cb).setSubmit x (.wakeup thread_id), log.record s (.submit x)) := by
  unfold InOrder at hi ⊢
  by_cases ht : t = thread_id
  · subst ht
    simp only [List.append_assoc] at hi
    simp [Log.record, hpc, hx, pending_push, ← hi]
  · simpa [Log.record, hpc, hx, pending_push, ht] using hi

theorem step_inOrder {s s' : St φ} {log : Log φ} {t : ThreadId} {a : Act φ} (hi : InOrder t (s, log))
    (hs : step s a = some s') : InOrder t (s', log.record s a) := by
  cases step_inv hs with
  | loop hidle hpc => exact loopStep_inOrder hi hpc
  | runInThread hmay | runAfter hmay | toWorker hw hmay => exact hi
  | push hpc hx => exact push_inOrder hi hpc hx
  | own hpc | addTimer hpc hq | dropped hpc hq | toWrite hpc | unwritten hpc hd | write hpc =>
    unfold InOrder at hi ⊢
    simpa [Log.record, hpc] using hi

theorem runs_inOrder {s : St φ} {t : ThreadId} {x : St φ × Log φ} {as : List (Act φ)} (hrest : s.rest t = [])
    (hqueue : s.pending t = []) (hr : run (withHistory step Log.record) (s, .empty) as = some x) : InOrder t x := by
  have hinit : InOrder t (s, Log.empty) := by simp [InOrder, Log.empty, hrest, hqueue]
  refine inv_of_run (fun x a y hi h => ?_) hinit hr
  obtain ⟨s', log'⟩ := y
  obtain ⟨hs, rfl⟩ := withHistory_some h
  exact step_inOrder hi hs

/-! ## Wake-up -/

def LoopPc.toWait : LoopPc φ → Bool
  | .blocked | .running _ | .inFunctor _ => true
  | _ => false

def LoopPc.looping : LoopPc φ → Bool
  | .blocked | .handling _ | .calling | .running _ | .inFunctor _ => true
  | _ => false

def SubmitPc.pushed (t : ThreadId) : SubmitPc φ → Bool
  | .wakeup thread_id | .write thread_id => thread_id = t
  | _ => false

/-- The thread is registered and in its loop, no call of its own is one to wake it, and if it comes to
`epoll_wait` with functors in its queue, something is there or under way to wake it. -/
structure Awake (t : ThreadId) (s : St φ) : Prop where
  registered : (s.threadDatas t).isSome
  looping : ∃ pc, s.loop t = some pc ∧ pc.looping
  other : (s.submit t).pushed t = false
  awake : (∃ pc, s.loop t = some pc ∧ pc.toWait) → s.pending t ≠ [] →
    s.readable t = true ∨ ∃ y, (s.submit y).pushed t

theorem Awake.congr {t : ThreadId} {s s' : St φ} (h : Awake t s) (hdata : s'.threadDatas t = s.threadDatas t)
    (hloop : s'.loop t = s.loop t) (hpending : s'.pending t = s.pending t)
    (hpushed : ∀ y, (s'.submit y).pushed t = (s.submit y).pushed t) : Awake t s' := by
  have hread : s'.readable t = s.readable t := by simp [St.readable, hdata]
  constructor
  · rw [hdata]; exact h.registered
  · rw [hloop]; exact h.looping
  · rw [hpushed]; exact h.other
  · simp only [hloop, hpending, hread, hpushed]
    exact h.awake

theorem waiting_awake {t : ThreadId} {s : St φ} (h : s.Waiting t) : Awake t s := by
  constructor
  · exact h.registered
  · exact ⟨.blocked, h.loop, rfl⟩
  · simp [h.idle, SubmitPc.pushed]
  · exact fun _ hne => absurd h.queue hne

theorem pushed_setSubmit {t x : ThreadId} {s : St φ} {pc : SubmitPc φ} (h : pc.pushed t = (s.submit x).pushed t)
    (y : ThreadId) : ((s.setSubmit x pc).submit y).pushed t = (s.submit y).pushed t := by
  by_cases hy : y = x
  · subst hy; simp [St.setSubmit, h]
  · simp [St.setSubmit, hy]

theorem readable_setData {s : St φ} {t : ThreadId} {f : ThreadData → ThreadData} (h : ∀ d, (f d).eventfd = d.eventfd) :
    (s.setData t f).readable t = s.readable t := by
  cases hd : s.threadDatas t <;> simp [St.readable, St.setData, hd, h]

theorem readable_written {s : St φ} {t : ThreadId} (h : (s.threadDatas t).isSome) :
    (s.setData t ThreadData.written).readable t = true := by
  obtain ⟨data, hd⟩ := Option.isSome_iff_exists.mp h
  have hpos : 0 < data.written.eventfd := by
    unfold ThreadData.written
    split <;> simp; omega
  simp [St.readable, St.setData, hd, hpos]

theorem registered_setData {s : St φ} {t : ThreadId} (f : ThreadData → ThreadData) (h : (s.threadDatas t).isSome) :
    ((s.setData t f).threadDatas t).isSome := by
  simpa [St.setData] using h

theorem loopStep_submit (s : St φ) (t : ThreadId) (pc : LoopPc φ) : (s.loopStep t pc).submit = s.submit := by
  cases pc with
  | handling readable => cases readable <;> rfl
  | running functors => cases functors <;> rfl
  | created | published | registered | inserted | blocked | calling | inFunctor _ => rfl

theorem loopStep_frame {s : St φ} {t u : ThreadId} (h : t ≠ u) (pc : LoopPc φ) :
    (s.loopStep u pc).threadDatas t = s.threadDatas t ∧ (s.loopStep u pc).loop t = s.loop t := by
  cases pc with
  | handling readable => cases readable <;> simp [St.loopStep, St.setLoop, St.setData, h]
  | running functors => cases functors <;> simp [St.loopStep, St.setLoop, St.setData, h]
  | created | published | registered | inserted | blocked | calling | inFunctor _ =>
    simp [St.loopStep, St.setLoop, St.swap, h]

theorem Awake.moved {t : ThreadId} {s s' : St φ} (h : Awake t s) {pc : LoopPc φ} (hloop : s'.loop t = some pc)
    (hpc : pc.looping) (hdata : (s'.threadDatas t).isSome) (hsubmit : s'.submit = s.submit)
    (hawake : pc.toWait → s'.pending t ≠ [] → s'.readable t = true ∨ ∃ y, (s.submit y).pushed t) : Awake t s' := by
  constructor
  · exact hdata
  · exact ⟨pc, hloop, hpc⟩
  · rw [hsubmit]; exact h.other
  · rintro ⟨pc', hpc', hwait⟩ hne
    rw [hloop] at hpc'
    obtain rfl := Option.some.inj hpc'
    rw [hsubmit]
    exact hawake hwait hne

theorem loopStep_awake_own {s : St φ} {t : ThreadId} {pc : LoopPc φ} (hi : Awake t s) (hpc : s.loop t = some pc) :
    Awake t (s.loopStep t pc) := by
  have hdata := hi.registered
  have hsame : pc.toWait → s.pending t ≠ [] → s.readable t = true ∨ ∃ y, (s.submit y).pushed t :=
    fun hwait => hi.awake ⟨pc, hpc, hwait⟩
  have hloop : ∀ (s₁ : St φ) pc₁, (s₁.setLoop t pc₁).loop t = some pc₁ := by simp [St.setLoop]
  cases pc with
  | created | published | registered | inserted =>
    obtain ⟨pc', hpc', hl⟩ := hi.looping
    simp only [hpc, Option.some.injEq] at hpc'
    subst hpc'
    simp [LoopPc.looping] at hl
  | blocked => exact hi.moved (hloop _ _) rfl hdata rfl (by simp [LoopPc.toWait])  -- these steps lead away from `epoll_wait`
  | handling readable =>
    cases readable with
    | true => exact hi.moved (hloop _ _) rfl (registered_setData _ hdata) rfl (by simp [LoopPc.toWait])
    | false => exact hi.moved (hloop _ _) rfl (registered_setData _ hdata) rfl (by simp [LoopPc.toWait])
  | calling =>  -- the batch takes all that is queued
    refine hi.moved (hloop _ _) rfl hdata rfl fun _ hne => ?_
    simp [St.loopStep, pending_swap] at hne
  | running functors =>
    cases functors with
    | nil =>
      -- the batch is over, and what has been queued meanwhile has woken the thread already
      refine hi.moved (hloop _ _) rfl (registered_setData _ hdata) rfl fun _ hne => ?_
      rw [← readable_setData (s := s) (t := t) (f := fun data => { data with callingPendingFunctors := false })
        fun _ => rfl] at hsame
      exact hsame rfl hne
    | cons cb functors => exact hi.moved (hloop _ _) rfl hdata rfl fun _ hne => hsame rfl hne
  | inFunctor functors => exact hi.moved (hloop _ _) rfl hdata rfl fun _ hne => hsame rfl hne

theorem loopStep_awake {s : St φ} {t u : ThreadId} {pc : LoopPc φ} (hi : Awake t s) (hpc : s.loop u = some pc) :
    Awake t (s.loopStep u pc) := by
  by_cases h : t = u
  · subst h
    exact loopStep_awake_own hi hpc
  · obtain ⟨hdata, hloop⟩ := loopStep_frame h pc (s := s)
    refine hi.congr hdata hloop (loopStep_other h pc).2 fun y => ?_
    rw [loopStep_submit]

theorem setSubmit_awake {s : St φ} {t x : ThreadId} {pc : SubmitPc φ} (hi : Awake t s)
    (h : pc.pushed t = (s.submit x).pushed t) : Awake t (s.setSubmit x pc) :=
  hi.congr rfl rfl rfl (pushed_setSubmit h)

theorem push_awake {s : St φ} {t x thread_id : ThreadId} {cb : Functor φ} (hi : Awake t s)
    (hpc : s.submit x = .runInThread thread_id cb) (hx : x ≠ thread_id) :
    Awake t ((s.push thread_id cb).setSubmit x (.wakeup thread_id)) := by
  by_cases ht : t = thread_id
  · subst ht
    constructor
    · exact hi.registered
    · exact hi.looping
    · have hne : t ≠ x := fun h => hx h.symm
      simpa [St.setSubmit, St.push, hne] using hi.other
    · exact fun _ _ => .inr ⟨x, by simp [St.setSubmit, SubmitPc.pushed]⟩
  · have hne : thread_id ≠ t := fun h => ht h.symm
    refine hi.congr rfl rfl (by simp [pending_push, ht]) (pushed_setSubmit ?_)
    simp [SubmitPc.pushed, St.push, hpc, hne]

theorem write_awake {s : St φ} {t x thread_id : ThreadId} (hi : Awake t s) (hpc : s.submit x = .write thread_id) :
    Awake t ((s.setData thread_id ThreadData.written).setSubmit x .idle) := by
  by_cases ht : t = thread_id
  · subst ht
    constructor
    · exact registered_setData _ hi.registered
    · exact hi.looping
    · by_cases hx : t = x
      · subst hx; simp [St.setSubmit, SubmitPc.pushed]
      · simpa [St.setSubmit, St.setData, hx] using hi.other
    · exact fun _ _ => .inl (readable_written hi.registered)
  · have hne : thread_id ≠ t := fun h => ht h.symm
    refine hi.congr (by simp [St.setSubmit, St.setData, ht]) rfl rfl (pushed_setSubmit ?_)
    simp [SubmitPc.pushed, St.setData, hpc, hne]

theorem unwritten_awake {s : St φ} {t x thread_id : ThreadId} (hi : Awake t s) (hpc : s.submit x = .wakeup thread_id)
    (hd : (s.threadDatas thread_id).isSome → x = thread_id) : Awake t (s.setSubmit x .idle) := by
  have hne : thread_id ≠ t := by
    rintro rfl
    obtain rfl := hd hi.registered
    have hother := hi.other
    simp [hpc, SubmitPc.pushed] at hother
  exact setSubmit_awake hi (by simp [hpc, SubmitPc.pushed, hne])

theorem step_awake {t : ThreadId} (s : St φ) (a : Act φ) (s' : St φ) (hi : Awake t s) (hs : step s a = some s') :
    Awake t s' := by
  cases step_inv hs with
  | loop hidle hpc => exact loopStep_awake hi hpc
  | runInThread hmay | runAfter hmay => exact setSubmit_awake hi (by rw [idle_of_mayCall hmay]; rfl)
  | @toWorker x w timer cb hw hmay => exact setSubmit_awake hi (by rw [idle_of_mayCall hmay]; cases timer <;> rfl)
  | push hpc hx => exact push_awake hi hpc hx
  | own hpc | addTimer hpc hq | dropped hpc hq | toWrite hpc => exact setSubmit_awake hi (by rw [hpc]; rfl)
  | unwritten hpc hd => exact unwritten_awake hi hpc hd
  | write hpc => exact write_awake hi hpc

theorem runs_awake {s s' : St φ} {t : ThreadId} {as : List (Act φ)} (h : s.Waiting t) (hr : run step s as = some s') :
    Awake t s' :=
  inv_of_run step_awake (waiting_awake h) hr

/-- Whatever other threads queue for a thread in its loop is run by it once, in their order, and never waits
in the queue while nothing is there or under way to wake the thread. -/
theorem queued_in_order_and_woken {s : St φ} {t : ThreadId} {x : St φ × Log φ} {as : List (Act φ)} (h : s.Waiting t)
    (hr : run (withHistory step Log.record) (s, .empty) as = some x) :
    x.2.executed t ++ x.1.rest t ++ x.1.pending t = x.2.queued t ∧
      (x.1.pending t ≠ [] → x.1.loop t = some .blocked →
        x.1.readable t = true ∨ ∃ y, y ≠ t ∧ (x.1.submit y = .wakeup t ∨ x.1.submit y = .write t)) := by
  have hrest : s.rest t = [] := by simp [St.rest, h.loop, LoopPc.rest]
  refine ⟨runs_inOrder hrest h.queue hr, fun hne hblocked => ?_⟩
  have hawake := runs_awake h (run_of_withHistory hr)
  obtain hread | ⟨y, hy⟩ := hawake.awake ⟨.blocked, hblocked, rfl⟩ hne
  · exact .inl hread
  · refine .inr ⟨y, ?_, ?_⟩
    · rintro rfl
      rw [hawake.other] at hy
      cases hy
    · cases hpc : x.1.submit y <;> simp_all [SubmitPc.pushed]

end

/-- Thread 7 has pushed a functor for thread 1 and not yet written, as thread 1 waits. -/
theorem queued_in_order_and_woken_once :
    ∃ x, run (withHistory step Log.record) (St.looping (· == 1), .empty)
        [.runInThread 7 1 (), .submit 7, .submit 7, .loop 1, .loop 1, .loop 1, .loop 1, .loop 1, .loop 1,
          .runInThread 8 1 (), .submit 8] = some x ∧
      x.2.executed 1 ++ x.1.rest 1 ++ x.1.pending 1 = x.2.queued 1 ∧
        (x.1.pending 1 ≠ [] → x.1.loop 1 = some .blocked →
          x.1.readable 1 = true ∨ ∃ y, y ≠ 1 ∧ (x.1.submit y = .wakeup 1 ∨ x.1.submit y = .write 1)) :=
  Exists.imp (fun _ hr => ⟨hr, queued_in_order_and_woken (looping_waiting rfl) hr⟩)
    (Option.isSome_iff_exists.mp (by decide))

end ZkCppClient.Threads
