import ZkCppClient.Threads.Functors

/-!
# What is given to a worker that is still starting

Other threads give functors and timers to the workers from the moment the
manager is constructed. A call reads the id of the worker first, which is 0
until the worker has published it, and `runAt` drops a timer for a thread id
without a timer queue. Neither tells the caller.
-/

namespace ZkCppClient.Threads

open Lts

/-! ## A worker on its own -/

section
variable {φ : Type} {s : St φ} {t : ThreadId}

def Drains (t : ThreadId) (s : St φ) : Prop :=
  ∃ n s', run step s (List.replicate n (.loop t)) = some s' ∧ s'.rest t = [] ∧ s'.pending t = []

theorem step_of_idle {pc : LoopPc φ} (hidle : s.submit t = .idle) (hpc : s.loop t = some pc) :
    step s (.loop t) = some (s.loopStep t pc) := by
  simp [step, hidle, hpc]

theorem drains_of_step (pc : LoopPc φ) (hidle : s.submit t = .idle) (hpc : s.loop t = some pc)
    (h : Drains t (s.loopStep t pc)) : Drains t s := by
  obtain ⟨n, s', hr, hend⟩ := h
  refine ⟨n + 1, s', ?_, hend⟩
  rw [List.replicate_succ, run_cons, step_of_idle hidle hpc]
  exact hr

theorem loop_setLoop (s : St φ) (t : ThreadId) (pc : LoopPc φ) : (s.setLoop t pc).loop t = some pc := by
  simp [St.setLoop]

theorem drains_of_batch {functors : List (Functor φ)} (hidle : s.submit t = .idle)
    (hpc : s.loop t = some (.running functors))
    (h : ∀ s' : St φ, s'.submit t = .idle → s'.loop t = some (.running []) → s'.pending t = s.pending t → Drains t s') :
    Drains t s := by
  induction functors generalizing s with
  | nil => exact h s hidle hpc rfl
  | cons cb functors ih =>
    refine drains_of_step _ hidle hpc (drains_of_step (.inFunctor functors) hidle (loop_setLoop _ _ _) ?_)
    exact ih hidle (loop_setLoop _ _ _) h

theorem drains_of_calling (hidle : s.submit t = .idle) (hpc : s.loop t = some .calling) : Drains t s := by
  refine drains_of_step _ hidle hpc (drains_of_batch hidle (loop_setLoop _ _ _) fun s' _ hloop hpending => ?_)
  refine ⟨0, s', rfl, by simp [St.rest, hloop, LoopPc.rest], ?_⟩
  rw [hpending]
  simp [St.loopStep, pending_swap]

theorem drains_of_blocked (hidle : s.submit t = .idle) (hpc : s.loop t = some .blocked) : Drains t s := by
  have hhandled : ∀ s₁ : St φ, s₁.submit t = .idle → s₁.loop t = some (.handling false) → Drains t s₁ :=
    fun s₁ hidle hpc => drains_of_step _ hidle hpc (drains_of_calling hidle (loop_setLoop _ _ _))
  refine drains_of_step _ hidle hpc ?_
  cases hread : s.readable t with
  | false => exact hhandled _ hidle (by simp [St.loopStep, loop_setLoop, hread])
  | true =>
    refine drains_of_step (.handling true) hidle (by simp [St.loopStep, loop_setLoop, hread]) ?_
    exact hhandled _ hidle (loop_setLoop _ _ _)

theorem drains {pc : LoopPc φ} (hidle : s.submit t = .idle) (hpc : s.loop t = some pc) : Drains t s := by
  have hrun : ∀ (s₁ : St φ) functors, s₁.submit t = .idle → s₁.loop t = some (.running functors) → Drains t s₁ := by
    intro s₁ functors hidle hpc
    refine drains_of_batch hidle hpc fun s₂ hidle hpc _ => ?_
    exact drains_of_step _ hidle hpc (drains_of_blocked hidle (loop_setLoop _ _ _))
  have hinserted : ∀ s₁ : St φ, s₁.submit t = .idle → s₁.loop t = some .inserted → Drains t s₁ :=
    fun s₁ hidle hpc => drains_of_step _ hidle hpc (drains_of_blocked hidle (loop_setLoop _ _ _))
  have hregistered : ∀ s₁ : St φ, s₁.submit t = .idle → s₁.loop t = some .registered → Drains t s₁ :=
    fun s₁ hidle hpc => drains_of_step _ hidle hpc (hinserted _ hidle (loop_setLoop _ _ _))
  have hpublished : ∀ s₁ : St φ, s₁.submit t = .idle → s₁.loop t = some .published → Drains t s₁ :=
    fun s₁ hidle hpc => drains_of_step _ hidle hpc (hregistered _ hidle (loop_setLoop _ _ _))
  have hhandled : ∀ s₁ : St φ, s₁.submit t = .idle → s₁.loop t = some (.handling false) → Drains t s₁ :=
    fun s₁ hidle hpc => drains_of_step _ hidle hpc (drains_of_calling hidle (loop_setLoop _ _ _))
  cases pc with
  | created => exact drains_of_step _ hidle hpc (hpublished _ hidle (loop_setLoop _ _ _))
  | published => exact hpublished s hidle hpc
  | registered => exact hregistered s hidle hpc
  | inserted => exact hinserted s hidle hpc
  | blocked => exact drains_of_blocked hidle hpc
  | handling readable =>
    cases readable with
    | true => exact drains_of_step _ hidle hpc (hhandled _ hidle (loop_setLoop _ _ _))
    | false => exact hhandled s hidle hpc
  | calling => exact drains_of_calling hidle hpc
  | running functors => exact hrun s functors hidle hpc
  | inFunctor functors => exact drains_of_step _ hidle hpc (hrun _ functors hidle (loop_setLoop _ _ _))

end

/-! ## What has been given -/

section
variable {φ : Type}

/-- The calls of each thread with the id of a worker other than itself: whether the one under way is such a
call, what each was to put into which worker's queue, and what has been put into which queue. -/
structure Calls (φ : Type) where
  toWorker : ThreadId → Bool
  given : ThreadId → List (ThreadId × Functor φ)
  arrived : ThreadId → List (ThreadId × Functor φ)

def Calls.none : Calls φ := ⟨fun _ => false, fun _ => [], fun _ => []⟩

def Calls.record (calls : Calls φ) (s : St φ) : Act φ → Calls φ
  | .toWorker x w timer cb =>
    if x = w then { calls with toWorker := Function.update calls.toWorker x false }
    else { calls with
      toWorker := Function.update calls.toWorker x true
      given := Function.update calls.given x (calls.given x ++ [(w, if timer then .addTimerInLoop cb else .fn cb)]) }
  | .runInThread x _ _ | .runAfter x _ _ => { calls with toWorker := Function.update calls.toWorker x false }
  | .submit x =>
    match s.submit x with
    | .runInThread thread_id cb =>
      if x ≠ thread_id ∧ calls.toWorker x then
        { calls with arrived := Function.update calls.arrived x (calls.arrived x ++ [(thread_id, cb)]) }
      else calls
    | _ => calls
  | .loop _ => calls

def SubmitPc.onWay : SubmitPc φ → List (ThreadId × Functor φ)
  | .runInThread thread_id cb => [(thread_id, cb)]
  | .runAt thread_id cb => [(thread_id, .addTimerInLoop cb)]
  | _ => []

abbrev History (φ : Type) := Calls φ × Log φ

def record (h : History φ) (s : St φ) (a : Act φ) : History φ := (h.1.record s a, h.2.record s a)

/-- What `c` has given to workers has come into their queues, the last of it being perhaps on the way there. -/
def Arrives (c : ThreadId) (s : St φ) (calls : Calls φ) : Prop :=
  calls.given c = calls.arrived c ++ if calls.toWorker c then (s.submit c).onWay else []

/-- What has been given to a worker comes into its queue, has been run or is still there, and the worker's own
steps run all that is there. -/
structure Kept (x : St φ × History φ) : Prop where
  arrives : ∀ c, Arrives c x.1 x.2.1
  queued : ∀ c w cb, (w, cb) ∈ x.2.1.arrived c → cb ∈ x.2.2.executed w ++ x.1.rest w ++ x.1.pending w
  runs : ∀ w, (x.1.loop w).isSome → x.1.submit w = .idle → ∃ n y,
    run (withHistory step record) x (List.replicate n (.loop w)) = some y ∧
      y.2.2.executed w = x.2.2.executed w ++ x.1.rest w ++ x.1.pending w

def LoopPc.hasTid : LoopPc φ → Bool
  | .created => false
  | _ => true

def SubmitPc.lookup : SubmitPc φ → Option ThreadId
  | .runAt thread_id _ => some thread_id
  | _ => none

/-- The id of the worker is read once it has been published, and a timer for it is looked up once its timer
queue has been inserted. -/
def Started (s : St φ) (calls : Calls φ) : Act φ → Prop
  | .toWorker c w _ _ => c ≠ w → (s.loop w).all LoopPc.hasTid
  | .submit c => calls.toWorker c → (s.submit c).lookup.all s.timerQueues
  | _ => True

instance (s : St φ) (calls : Calls φ) : ∀ a, Decidable (Started s calls a)
  | .toWorker _ _ _ _ | .submit _ => inferInstanceAs (Decidable (_ → _))
  | .loop _ | .runInThread _ _ _ | .runAfter _ _ _ => isTrue trivial

/-! ## Where it runs -/

theorem step_order {x y : St φ × History φ} {a : Act φ} (hi : ∀ t, InOrder t (x.1, x.2.2))
    (h : withHistory step record x a = some y) : ∀ t, InOrder t (y.1, y.2.2) := by
  obtain ⟨s', h'⟩ := y
  obtain ⟨hs, rfl⟩ := withHistory_some h
  exact fun t => step_inOrder (hi t) hs

theorem runs_of_order {x : St φ × History φ} {w : ThreadId} (hi : ∀ t, InOrder t (x.1, x.2.2))
    (hloop : (x.1.loop w).isSome) (hidle : x.1.submit w = .idle) : ∃ n y,
    run (withHistory step record) x (List.replicate n (.loop w)) = some y ∧
      y.2.2.executed w = x.2.2.executed w ++ x.1.rest w ++ x.1.pending w := by
  obtain ⟨pc, hpc⟩ := Option.isSome_iff_exists.mp hloop
  obtain ⟨n, s', hr, hrest, hpending⟩ := drains hidle hpc
  obtain ⟨h', hh⟩ := run_withHistory record x.2 hr
  refine ⟨n, _, hh, ?_⟩
  have hkeep : (∀ t, InOrder t (s', h'.2)) ∧ h'.2.queued = x.2.2.queued := by
    have hown : Along (withHistory step record) (fun _ a => a = .loop w) x (List.replicate n (.loop w)) :=
      along_of_forall fun a ha _ => List.eq_of_mem_replicate ha
    refine inv_of_along (I := fun y => (∀ t, InOrder t (y.1, y.2.2)) ∧ y.2.2.queued = x.2.2.queued) ?_ ⟨hi, rfl⟩ hown hh
    rintro y a z ⟨hy, hq⟩ rfl hz
    obtain ⟨-, hrec⟩ := withHistory_some hz
    refine ⟨step_order hy hz, ?_⟩
    rw [hrec, ← hq]
    exact record_loop_queued _ _ _
  have hbefore := hi w
  have hafter := hkeep.1 w
  simp only [InOrder, hrest, hpending, List.append_nil] at hbefore hafter
  rw [hafter, hbefore, hkeep.2]

/-! ## Whether it arrives -/

structure Sound (x : St φ × History φ) : Prop where
  order : ∀ t, InOrder t (x.1, x.2.2)
  zero : x.1.loop 0 = none
  other : ∀ c, ∀ p ∈ x.2.1.given c, p.1 ≠ c
  queued : ∀ c, ∀ p ∈ x.2.1.arrived c, p.2 ∈ x.2.2.queued p.1

theorem given_record {calls : Calls φ} {s : St φ} {a : Act φ} {c : ThreadId} (h : ∀ p ∈ calls.given c, p.1 ≠ c) :
    ∀ p ∈ (calls.record s a).given c, p.1 ≠ c := by
  cases a with
  | toWorker x w timer cb =>
    simp only [Calls.record]
    by_cases hw : x = w
    · simpa [hw] using h
    · by_cases hc : c = x
      · subst hc
        rw [if_neg hw]
        simp only [Function.update_self, List.mem_append, List.mem_singleton]
        rintro p (hp | rfl)
        · exact h p hp
        · exact fun h => hw h.symm
      · simpa [hw, hc] using h
  | submit x =>
    have hsame : (calls.record s (.submit x)).given = calls.given := by
      simp only [Calls.record]
      cases s.submit x <;> simp only
      split <;> rfl
    rwa [hsame]
  | loop t | runInThread x thread_id cb | runAfter x thread_id cb => exact h

theorem queued_record {log : Log φ} {s : St φ} {a : Act φ} {t : ThreadId} {cb : Functor φ} (h : cb ∈ log.queued t) :
    cb ∈ (log.record s a).queued t := by
  cases a with
  | loop u => rwa [record_loop_queued]
  | submit x =>
    cases hpc : s.submit x with
    | runInThread thread_id f =>
      by_cases hx : x = thread_id
      · subst hx; simpa [Log.record, hpc] using h
      · by_cases ht : t = thread_id
        · subst ht; simp [Log.record, hpc, hx, h]
        · simpa [Log.record, hpc, hx, ht] using h
    | idle | runAt thread_id f | wakeup thread_id | write thread_id => simpa [Log.record, hpc] using h
  | runInThread x thread_id f | runAfter x thread_id f | toWorker x w timer f => exact h

theorem arrived_record {calls : Calls φ} {log : Log φ} {s : St φ} {a : Act φ} {c : ThreadId}
    (h : ∀ p ∈ calls.arrived c, p.2 ∈ log.queued p.1) :
    ∀ p ∈ (calls.record s a).arrived c, p.2 ∈ (log.record s a).queued p.1 := by
  have hold : ∀ p ∈ calls.arrived c, p.2 ∈ (log.record s a).queued p.1 := fun p hp => queued_record (h p hp)
  cases a with
  | submit x =>
    cases hpc : s.submit x with
    | runInThread thread_id cb =>
      by_cases hx : x ≠ thread_id ∧ calls.toWorker x
      · by_cases hc : c = x
        · subst hc
          simp only [Calls.record, hpc, if_pos hx, Function.update_self, List.mem_append, List.mem_singleton]
          rintro p (hp | rfl)
          · exact hold p hp
          · simp [Log.record, hpc, hx.1]
        · simpa [Calls.record, hpc, hx, hc] using hold
      · simpa only [Calls.record, hpc, if_neg hx] using hold
    | idle | runAt thread_id cb | wakeup thread_id | write thread_id => simpa only [Calls.record, hpc] using hold
  | toWorker x w timer cb =>
    have hsame : (calls.record s (.toWorker x w timer cb)).arrived = calls.arrived := by
      simp only [Calls.record]
      split <;> rfl
    rwa [hsame]
  | loop t | runInThread x thread_id cb | runAfter x thread_id cb => exact hold

theorem loop_zero {s s' : St φ} {a : Act φ} (h : s.loop 0 = none) (hs : step s a = some s') : s'.loop 0 = none := by
  cases step_inv hs with
  | @loop t pc hidle hpc =>
    have ht : 0 ≠ t := by
      rintro rfl
      rw [h] at hpc
      cases hpc
    rw [(loopStep_frame ht pc).2, h]
  | runInThread | runAfter | toWorker | own | push | addTimer | dropped | toWrite | unwritten | write => exact h

theorem step_sound {x y : St φ × History φ} {a : Act φ} (hi : Sound x) (h : withHistory step record x a = some y) :
    Sound y := by
  have horder := step_order hi.order h
  obtain ⟨s', h'⟩ := y
  obtain ⟨hs, rfl⟩ := withHistory_some h
  constructor
  · exact horder
  · exact loop_zero hi.zero hs
  · exact fun c => given_record (hi.other c)
  · exact fun c => arrived_record (hi.queued c)

theorem sound_kept {x : St φ × History φ} (hi : Sound x) (harrives : ∀ c, Arrives c x.1 x.2.1) : Kept x := by
  constructor
  · exact harrives
  · intro c w cb hcb
    have horder := hi.order w
    unfold InOrder at horder
    rw [horder]
    exact hi.queued c _ hcb
  · exact fun w hloop hidle => runs_of_order hi.order hloop hidle

def Act.caller : Act φ → Option ThreadId
  | .loop _ => none
  | .runInThread x _ _ | .runAfter x _ _ | .toWorker x _ _ _ | .submit x => some x

theorem arrives_other {s s' : St φ} {calls : Calls φ} {a : Act φ} {c : ThreadId} (hc : a.caller ≠ some c)
    (hs : step s a = some s') : Arrives c s' (calls.record s a) ↔ Arrives c s calls := by
  have hx : ∀ x, a.caller = some x → c ≠ x := by
    rintro x hx rfl
    exact hc hx
  cases step_inv hs with
  | loop => simp [Arrives, Calls.record, loopStep_submit]
  | runInThread | runAfter => simp [Arrives, Calls.record, St.setSubmit, hx _ rfl]
  | @toWorker x w =>
    by_cases hw : x = w
    · subst hw; simp [Arrives, Calls.record, St.setSubmit, hx _ rfl]
    · simp [Arrives, Calls.record, St.setSubmit, hx _ rfl, hw]
  | @push x thread_id cb hpc hne =>
    cases hto : calls.toWorker x <;> simp [Arrives, Calls.record, St.setSubmit, St.push, hx _ rfl, hpc, hne, hto]
  | own hpc | addTimer hpc | dropped hpc | toWrite hpc | unwritten hpc | write hpc =>
    simp [Arrives, Calls.record, St.setSubmit, St.setData, hx _ rfl, hpc]

theorem toWorker_arrives {s : St φ} {calls : Calls φ} {c w : ThreadId} {timer : Bool} {cb : φ} (hi : Arrives c s calls)
    (hzero : s.loop 0 = none) (hw : (s.loop w).isSome) (hidle : s.submit c = .idle) :
    Arrives c (s.setSubmit c (if timer then .runAt (s.tid w) cb else .runInThread (s.tid w) (.fn cb)))
      (calls.record s (.toWorker c w timer cb)) ↔ Started s calls (.toWorker c w timer cb) := by
  have hbefore : calls.given c = calls.arrived c := by simpa [Arrives, hidle, SubmitPc.onWay] using hi
  by_cases hcw : c = w
  · subst hcw
    simpa [Arrives, Started, Calls.record] using hbefore
  · have htid : w = s.tid w ↔ (s.loop w).all LoopPc.hasTid := by
      obtain ⟨pc, hpc⟩ := Option.isSome_iff_exists.mp hw
      have hne : w ≠ 0 := by
        rintro rfl
        rw [hzero] at hpc
        cases hpc
      cases pc <;> simp [St.tid, LoopPc.hasTid, hpc, hne]
    cases timer <;> simp [Arrives, Started, Calls.record, St.setSubmit, SubmitPc.onWay, hcw, hbefore, htid]

theorem caller_arrives {s s' : St φ} {calls : Calls φ} {a : Act φ} {c : ThreadId} (ha : a.caller = some c)
    (hi : Arrives c s calls) (hzero : s.loop 0 = none) (hother : ∀ p ∈ calls.given c, p.1 ≠ c)
    (hs : step s a = some s') : Arrives c s' (calls.record s a) ↔ Started s calls a := by
  -- only the step that drops a timer loses what was on its way
  cases step_inv hs with
  | loop => cases ha
  | runInThread hmay | runAfter hmay =>
    obtain rfl := Option.some.inj ha
    simp only [Arrives, idle_of_mayCall hmay, SubmitPc.onWay, ite_self] at hi
    simpa [Arrives, Started, Calls.record] using hi
  | toWorker hw hmay =>
    obtain rfl := Option.some.inj ha
    exact toWorker_arrives hi hzero hw (idle_of_mayCall hmay)
  | @own x cb hpc =>
    obtain rfl := Option.some.inj ha
    simp only [Arrives, hpc, SubmitPc.onWay] at hi
    have hto : calls.toWorker x = false := by
      by_contra hto
      simp only [Bool.not_eq_false] at hto
      refine hother (x, cb) ?_ rfl
      rw [hi]
      simp [hto]
    simpa [Arrives, Started, Calls.record, hpc, hto] using hi
  | @push x thread_id cb hpc hne =>
    obtain rfl := Option.some.inj ha
    simp only [Arrives, hpc, SubmitPc.onWay] at hi
    cases hto : calls.toWorker x <;>
      simpa [Arrives, Started, Calls.record, St.setSubmit, SubmitPc.onWay, SubmitPc.lookup, hpc, hne, hto] using hi
  | addTimer hpc hq =>
    obtain rfl := Option.some.inj ha
    simp only [Arrives, hpc, SubmitPc.onWay] at hi
    simpa [Arrives, Started, Calls.record, St.setSubmit, SubmitPc.onWay, SubmitPc.lookup, hpc, hq] using hi
  | @dropped x thread_id cb hpc hq =>
    obtain rfl := Option.some.inj ha
    simp only [Arrives, hpc, SubmitPc.onWay] at hi
    cases hto : calls.toWorker x <;>
      simp [Arrives, Started, Calls.record, St.setSubmit, SubmitPc.onWay, SubmitPc.lookup, hpc, hq, hto, hi]
  | toWrite hpc | unwritten hpc | write hpc =>
    obtain rfl := Option.some.inj ha
    simp only [Arrives, hpc, SubmitPc.onWay, ite_self] at hi
    simpa [Arrives, Started, Calls.record, St.setSubmit, SubmitPc.onWay, SubmitPc.lookup, hpc] using hi

theorem step_arrives {s s' : St φ} {calls : Calls φ} {a : Act φ} (hi : ∀ c, Arrives c s calls) (hzero : s.loop 0 = none)
    (hother : ∀ c, ∀ p ∈ calls.given c, p.1 ≠ c) (hs : step s a = some s') :
    (∀ c, Arrives c s' (calls.record s a)) ↔ Started s calls a := by
  have hothers : ∀ c, a.caller ≠ some c → Arrives c s' (calls.record s a) :=
    fun c hc => (arrives_other hc hs).mpr (hi c)
  cases ha : a.caller with
  | none =>
    have hstarted : Started s calls a := by
      cases a with
      | loop t => trivial
      | runInThread | runAfter | toWorker | submit => cases ha
    exact iff_of_true (fun c => hothers c (by simp [ha])) hstarted
  | some x =>
    have hiff := caller_arrives ha (hi x) hzero (hother x) hs
    refine ⟨fun h => hiff.mp (h x), fun h c => ?_⟩
    by_cases hc : c = x
    · subst hc; exact hiff.mpr h
    · refine hothers c fun h' => hc ?_
      rw [ha] at h'
      exact (Option.some.inj h').symm

/-! ## The whole run -/

def constructed (workers : ThreadId → Bool) : St φ × History φ := (.constructed workers, (.none, .empty))

theorem constructed_sound {workers : ThreadId → Bool} (hzero : workers 0 = false) :
    Sound (constructed workers : St φ × History φ) := by
  constructor
  · intro t
    cases ht : workers t <;>
      simp [InOrder, constructed, St.constructed, Log.empty, St.rest, St.pending, ht, LoopPc.rest]
  · simp [constructed, St.constructed, hzero]
  · simp [constructed, Calls.none]
  · simp [constructed, Calls.none]

/-- From the construction of the manager on, all that is given to the workers is kept just when no id is read
before its worker has published it and no timer is looked up before the timer queue is there. -/
theorem kept_iff {workers : ThreadId → Bool} (hzero : workers 0 = false) {as : List (Act φ)} {x : St φ × History φ}
    (hr : run (withHistory step record) (constructed workers) as = some x) :
    Throughout (withHistory step record) Kept (constructed workers) as ↔
      Along (withHistory step record) (fun x => Started x.1 x.2.1) (constructed workers) as := by
  refine throughout_iff_along (I := fun x => Sound x ∧ ∀ c, Arrives c x.1 x.2.1) ?_ ?_ ?_ ?_ hr
  · rintro x a y ⟨hi, harrives⟩ hg h
    refine ⟨step_sound hi h, ?_⟩
    obtain ⟨s', h'⟩ := y
    obtain ⟨hs, rfl⟩ := withHistory_some h
    exact (step_arrives harrives hi.zero hi.other hs).mpr hg
  · exact fun x hi => sound_kept hi.1 hi.2
  · rintro x a y ⟨hi, harrives⟩ hg h hkept
    obtain ⟨s', h'⟩ := y
    obtain ⟨hs, rfl⟩ := withHistory_some h
    exact hg ((step_arrives harrives hi.zero hi.other hs).mp hkept.arrives)
  · exact ⟨constructed_sound hzero, fun c => by simp [Arrives, constructed, Calls.none]⟩

end

theorem kept_iff_started : Throughout (withHistory step record) Kept (constructed fun t => t == 1 || t == 2)
    [.loop 1, .loop 1, .loop 1, .toWorker 7 1 true (), .loop 2, .toWorker 8 2 false (), .submit 7, .submit 8] :=
  have hr := Exists.choose_spec (Option.isSome_iff_exists.mp (show (run (withHistory step record)
    (constructed fun t => t == 1 || t == 2) [.loop 1, .loop 1, .loop 1, .toWorker 7 1 true (), .loop 2,
      .toWorker 8 2 false (), .submit 7, .submit 8]).isSome by decide))
  (kept_iff rfl hr).mpr (by decide)

/-- The timer of the first `checkSessionState` is given to a thread that has not published its id. -/
theorem not_kept_unpublished : ∃ x, run (withHistory step record) (constructed fun t => t == 1 || t == 2)
    [.toWorker 7 1 true (), .submit 7] = some x ∧ x.1.submit 7 = .idle ∧
      x.2.1.given 7 = [(1, .addTimerInLoop ())] ∧ x.2.1.arrived 7 = [] ∧ ¬ Kept x :=
  ⟨_, rfl, rfl, rfl, rfl, fun h => absurd (h.arrives 7) (by unfold Arrives; decide)⟩

end ZkCppClient.Threads
