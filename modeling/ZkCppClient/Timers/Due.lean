import ZkCppClient.Timers.Bookkeeping

/-!
# Timers fire when due and only then

The record keeps what has been added, cancelled and run. A one-shot timer goes
from `timers_` to the batch of the first read that is not before its expiration,
and from there it is deleted.
-/

namespace ZkCppClient.Timers

open Lts

/-- A `handleRead`, with the expiration and the sequence number of each timer it has run. -/
structure Read where
  now : Int
  ran : List (Int × Nat)
  deriving DecidableEq, Repr

/-- `reads` is newest first, and `added` has the number of reads that had begun. -/
structure Log where
  added : List (Timer × Nat)
  removed : List Nat  -- cancelled while in `timers_`
  cancelled : List TimerId  -- since the last read began
  reads : List Read

def Log.empty : Log := ⟨[], [], [], []⟩

def ZkTimerQueue.Holds (q : ZkTimerQueue) (timerId : TimerId) : Prop :=
  ∃ timer ∈ q.heap timerId.timer, timer.sequence = timerId.sequence ∧ ⟨timer.expiration, timerId.timer⟩ ∈ q.timers

instance decidableHolds (q : ZkTimerQueue) (timerId : TimerId) : Decidable (q.Holds timerId) :=
  inferInstanceAs (Decidable (∃ timer ∈ q.heap timerId.timer, _))

def Read.add (timer : Timer) (r : Read) : Read := { r with ran := r.ran ++ [(timer.expiration, timer.sequence)] }

def Log.record (log : Log) (s : St) : Act → Log
  | .addTimerInLoop x _ =>
    match s.queue.heap x with
    | some timer => { log with added := (timer, log.reads.length) :: log.added }
    | none => log
  | .cancelInLoop timerId =>
    { log with
      removed := if s.queue.Holds timerId then timerId.sequence :: log.removed else log.removed
      cancelled := timerId :: log.cancelled }
  | .handleRead => { log with cancelled := [], reads := ⟨s.clock, []⟩ :: log.reads }
  | .run =>
    match s.pc.rest.head?.bind fun e => s.queue.heap e.timer with
    | some timer => { log with reads := log.reads.modifyHead (Read.add timer) }
    | none => log
  | _ => log

def firing : St × Log → Act → Option (St × Log) := withHistory step Log.record

def since (k : Nat) (reads : List Read) : List Int := (reads.take (reads.length - k)).map Read.now

/-- A read at `now` is the first after the first `k` at or after the expiration. -/
def Due (timer : Timer) (k : Nat) (older : List Read) (now : Int) : Prop :=
  k ≤ older.length ∧ timer.expiration ≤ now ∧ ∀ past ∈ since k older, past < timer.expiration

instance decidableDue (timer : Timer) (k : Nat) (older : List Read) (now : Int) : Decidable (Due timer k older now) :=
  inferInstanceAs (Decidable (_ ∧ _ ∧ _))

/-- The timer has been run once in the read that it was due in, and in no other. -/
def RunsOnce (timer : Timer) (k : Nat) : List Read → Prop
  | [] => True
  | r :: older =>
    (r.ran.map Prod.snd).count timer.sequence = (if Due timer k older r.now then 1 else 0) ∧ RunsOnce timer k older

structure Read.Proper (r : Read) : Prop where
  ordered : (r.ran.map Prod.fst).Pairwise (· ≤ ·)
  atMostOnce : (r.ran.map Prod.snd).Nodup
  due : ∀ p ∈ r.ran, p.1 ≤ r.now

/-- A read can always begin, and the one that has begun runs the rest of its batch and ends. -/
structure GoesOn (s : St) : Prop where
  begins : s.pc = .idle → ∃ expired t, step s .handleRead = some t ∧ t.pc = .calling s.clock expired expired
  ends : ∀ now expired rest, s.pc = .calling now expired rest → ∀ lag,
    ∃ t, run step s (List.replicate rest.length .run ++ [.reset lag]) = some t ∧ t.pc = .idle

structure FiresWhenDue (x : St × Log) : Prop where
  once : x.1.pc = .idle → ∀ timer k, (timer, k) ∈ x.2.added → timer.repeat_ = false → timer.sequence ∉ x.2.removed →
    RunsOnce timer k x.2.reads
  reads : ∀ r ∈ x.2.reads, r.Proper
  goesOn : GoesOn x.1

def PutBack (now : Int) (e : Entry) (timer : Timer) (delta : Nat) (cancelled : List TimerId) (q : ZkTimerQueue) : Prop :=
  if ⟨e.timer, timer.sequence⟩ ∈ cancelled then
    q.heap e.timer = none ∧ ∀ when, ⟨when, e.timer⟩ ∉ q.timers
  else
    q.heap e.timer = some { timer with expiration := now + delta } ∧ ⟨now + delta, e.timer⟩ ∈ q.timers

/-- No timer is run that was cancelled in `timers_`, and a repeating timer goes on unless it has been cancelled. -/
def KeepsTo (x : St × Log) : Act → Prop
  | .run => ∀ e ∈ x.1.pc.rest.head?, ∀ timer ∈ x.1.queue.heap e.timer, timer.sequence ∉ x.2.removed
  | .reset lag => ∀ t ∈ step x.1 (.reset lag), ∀ now expired, x.1.pc = .calling now expired [] → ∀ e ∈ expired,
      ∀ timer ∈ x.1.queue.heap e.timer, ∀ delta ∈ timer.interval, PutBack now e timer delta x.2.cancelled t.queue
  | _ => True

/-! ## The reads -/

section
variable {timer : Timer} {k : Nat} {r : Read} {older reads : List Read}

theorem since_cons (hk : k ≤ older.length) : since k (r :: older) = r.now :: since k older := by
  unfold since
  rw [List.length_cons, Nat.sub_add_comm hk, List.take_succ_cons, List.map_cons]

theorem since_length (reads : List Read) : since reads.length reads = [] := by
  unfold since
  rw [Nat.sub_self, List.take_zero, List.map_nil]

theorem since_add (other : Timer) : since k (r.add other :: older) = since k (r :: older) := by
  unfold since
  rw [List.map_take, List.map_take]
  rfl

theorem runsOnce_of_not_ran : ∀ {reads : List Read}, reads.length ≤ k →
    (∀ r ∈ reads, timer.sequence ∉ r.ran.map Prod.snd) → RunsOnce timer k reads
  | [], _, _ => trivial
  | r :: older, hk, hnot => by
    rw [List.length_cons] at hk
    refine ⟨?_, runsOnce_of_not_ran (Nat.le_of_succ_le hk) fun r hr => hnot r (List.mem_cons_of_mem _ hr)⟩
    rw [List.count_eq_zero.mpr (hnot r List.mem_cons_self), if_neg fun h => ?_]
    exact absurd h.1 (Nat.not_le.mpr hk)

theorem runsOnce_idle {now : Int} (h : RunsOnce timer k reads) (hnot : ¬ Due timer k reads now) :
    RunsOnce timer k (⟨now, []⟩ :: reads) := ⟨(if_neg hnot).symm, h⟩

theorem runsOnce_add {other : Timer} (h : RunsOnce timer k (r :: older)) (hne : other.sequence ≠ timer.sequence) :
    RunsOnce timer k (r.add other :: older) := by
  refine ⟨?_, h.2⟩
  rw [← show _ = (if Due timer k older (r.add other).now then 1 else 0) from h.1]
  simp [Read.add, List.count_append, hne]

end

/-! ## What a step does to the heap -/

structure Gone (s : St) (n : Nat) : Prop where
  bound : n ≤ s.numCreated
  dead : ∀ x timer, s.queue.heap x = some timer → timer.sequence ≠ n

section
variable {s t : St} {a : Act} {log : Log}

theorem step_live (h : Step s a t) : s.numCreated ≤ t.numCreated ∧ ∀ x timer', t.queue.heap x = some timer' →
    (∃ timer, s.queue.heap x = some timer ∧ timer.sequence = timer'.sequence) ∨ timer'.sequence = s.numCreated + 1 := by
  cases h with
  | @addTimer x when interval hx haddr =>
    refine ⟨Nat.le_succ _, fun y timer' hy => ?_⟩
    by_cases heq : y = x
    · subst heq
      simp only [ZkTimerQueue.store, Function.update_self, Option.some.injEq] at hy
      subst hy
      exact .inr rfl
    · exact .inl ⟨timer', by rwa [store_heap heq] at hy, rfl⟩
  | cancel hloop hs hseq => exact ⟨le_rfl, fun y timer' hy => .inl ⟨timer', store_none_le hy, rfl⟩⟩
  | reset hpc hput hlinked hapart => exact ⟨le_rfl, fun y timer' hy => .inl (hput.le hy)⟩
  | _ => exact ⟨le_rfl, fun y timer' hy => .inl ⟨timer', hy, rfl⟩⟩

theorem Gone.step {n : Nat} (hg : Gone s n) (h : Step s a t) : Gone t n := by
  obtain ⟨hle, hlive⟩ := step_live h
  refine ⟨hg.bound.trans hle, fun x timer' hx heq => ?_⟩
  rcases hlive x timer' hx with ⟨timer, hx, hseq⟩ | hseq
  · exact hg.dead x timer hx (hseq.trans heq)
  · have hbound := hg.bound
    omega

theorem step_batch (hi : Inv s) (h : Step s a t) (ha : ∀ lag, a ≠ .reset lag) {e : Entry} (he : e ∈ s.pc.expired) :
    t.queue.heap e.timer = s.queue.heap e.timer := by
  cases h with
  | addTimer hx haddr =>
    obtain ⟨timer, hsome, -⟩ := hi.batch e he
    refine store_heap fun heq => ?_
    rw [heq, hx] at hsome
    cases hsome
  | @cancel timerId timer hloop hs hseq =>
    refine store_heap fun heq => ?_
    have hfree := hi.batch_apart he
    rw [heq] at hfree
    exact hfree _ hs.2
  | reset hpc hput hlinked hapart => exact absurd rfl (ha _)
  | _ => rfl

theorem holds_iff (hi : Inv s) {timerId : TimerId} : s.queue.Holds timerId ↔ timerId ∈ s.queue.activeTimers := by
  constructor
  · rintro ⟨timer, hx, hseq, hmem⟩
    obtain ⟨timer', hs, -⟩ := hi.linked.mem_iff.mp hmem
    have hmem := hs.2
    rw [scheduled_unique hs hx, hseq] at hmem
    exact hmem
  · intro hid
    obtain ⟨timer, hs, hseq⟩ := hi.linked.live timerId hid
    exact ⟨timer, hs.1, hseq, hi.linked.mem_iff.mpr ⟨timer, hs, rfl⟩⟩

/-! ## What a step adds to the record -/

theorem record_addTimerInLoop {x : Addr} {timer : Timer} {lag : Nat} (hx : s.queue.heap x = some timer) :
    log.record s (.addTimerInLoop x lag) = { log with added := (timer, log.reads.length) :: log.added } := by
  simp only [Log.record, hx]

theorem record_run {now : Int} {expired rest : List Entry} {e : Entry} (hpc : s.pc = .calling now expired (e :: rest))
    {timer : Timer} (hx : s.queue.heap e.timer = some timer) :
    log.record s .run = { log with reads := log.reads.modifyHead (Read.add timer) } := by
  have hnext : (s.pc.rest.head?.bind fun e => s.queue.heap e.timer) = some timer := by
    rw [hpc]
    exact hx
  simp only [Log.record, hnext]

theorem record_cancel (hi : Inv s) {timerId : TimerId} (hid : timerId ∈ s.queue.activeTimers) :
    log.record s (.cancelInLoop timerId) =
      { log with removed := timerId.sequence :: log.removed, cancelled := timerId :: log.cancelled } := by
  simp only [Log.record, if_pos ((holds_iff hi).mpr hid)]

theorem record_note (hi : Inv s) {timerId : TimerId} (hid : timerId ∉ s.queue.activeTimers) :
    log.record s (.cancelInLoop timerId) = { log with cancelled := timerId :: log.cancelled } := by
  simp only [Log.record, if_neg fun h => hid ((holds_iff hi).mp h)]

/-! ## The running read -/

def ZkTimerQueue.ident (q : ZkTimerQueue) (e : Entry) : Int × Nat :=
  match q.heap e.timer with
  | some timer => (timer.expiration, timer.sequence)
  | none => (e.when, 0)

theorem ident_eq {q : ZkTimerQueue} {e : Entry} {timer : Timer} (hx : q.heap e.timer = some timer) :
    q.ident e = (timer.expiration, timer.sequence) := by rw [ZkTimerQueue.ident, hx]

structure Running (s : St) (log : Log) (now : Int) (expired rest : List Entry) : Prop where
  read : ∃ r older done, log.reads = r :: older ∧ r.now = now ∧ done ++ rest = expired ∧ r.ran = done.map s.queue.ident
  ordered : expired.Pairwise fun e e' => e.when ≤ e'.when
  due : ∀ e ∈ expired, e.when ≤ now
  cancelled : ∀ e ∈ expired, ∀ n, ⟨e.timer, n⟩ ∈ log.cancelled ↔ ⟨e.timer, n⟩ ∈ s.queue.cancelingTimers

theorem Running.congr {log' : Log} {now : Int} {expired rest : List Entry} (h : Running s log now expired rest)
    (hheap : ∀ e ∈ expired, t.queue.heap e.timer = s.queue.heap e.timer) (hreads : log'.reads = log.reads)
    (hcancelled : ∀ e ∈ expired, ∀ n, ⟨e.timer, n⟩ ∈ log'.cancelled ↔ ⟨e.timer, n⟩ ∈ t.queue.cancelingTimers) :
    Running t log' now expired rest := by
  refine ⟨?_, h.ordered, h.due, hcancelled⟩
  obtain ⟨r, older, done, hr, hnow, happ, hran⟩ := h.read
  refine ⟨r, older, done, hreads.trans hr, hnow, happ, ?_⟩
  rw [hran]
  refine List.map_congr_left fun e he => ?_
  have hmem : e ∈ expired := happ ▸ List.mem_append_left rest he
  rw [ZkTimerQueue.ident, ZkTimerQueue.ident, hheap e hmem]

theorem Inv.ident_inj (hi : Inv s) {e e' : Entry} (he : e ∈ s.pc.expired) (he' : e' ∈ s.pc.expired)
    (heq : (s.queue.ident e).2 = (s.queue.ident e').2) : e = e' := by
  obtain ⟨timer, hx, -⟩ := hi.batch e he
  obtain ⟨timer', hx', -⟩ := hi.batch e' he'
  rw [ident_eq hx, ident_eq hx'] at heq
  have hnodup := (List.nodup_append.mp hi.apart.nodup).1
  exact List.inj_on_of_nodup_map hnodup he he' (hi.numbered.inj _ _ _ _ hx hx' heq)

theorem Inv.batch_nodup (hi : Inv s) : s.pc.expired.Nodup := ((List.nodup_append.mp hi.apart.nodup).1).of_map _

theorem Running.proper {now : Int} {expired rest done : List Entry} (hi : Inv s) (hpc : s.pc.expired = expired)
    (h : Running s log now expired rest) (hdone : done <+: expired) {r : Read} (hnow : r.now = now)
    (hran : r.ran = done.map s.queue.ident) : r.Proper := by
  have hmem : ∀ e ∈ done, e ∈ s.pc.expired := fun e he => hpc ▸ hdone.subset he
  have hwhen : ∀ e ∈ done, (s.queue.ident e).1 = e.when := by
    intro e he
    obtain ⟨timer, hx, hwhen⟩ := hi.batch e (hmem e he)
    rw [ident_eq hx]
    exact hwhen
  constructor
  · rw [hran, List.map_map, List.pairwise_map]
    refine (h.ordered.sublist hdone.sublist).imp_of_mem fun {e e'} he he' hle => ?_
    show (s.queue.ident e).1 ≤ (s.queue.ident e').1
    rwa [hwhen e he, hwhen e' he']
  · rw [hran, List.map_map]
    have hnodup : done.Nodup := (hpc ▸ hi.batch_nodup).sublist hdone.sublist
    exact hnodup.map_on fun e he e' he' heq => hi.ident_inj (hmem e he) (hmem e' he') heq
  · intro p hp
    rw [hran] at hp
    obtain ⟨e, he, rfl⟩ := List.mem_map.mp hp
    rw [hwhen e he, hnow]
    exact h.due e (hdone.subset he)

/-! ## The reads are proper -/

/-- `fresh`: what is pending has not been run. -/
structure ReadsInv (s : St) (log : Log) : Prop where
  running : ∀ now expired rest, s.pc = .calling now expired rest → Running s log now expired rest
  proper : ∀ r ∈ log.reads, r.Proper
  bounded : ∀ r ∈ log.reads, ∀ p ∈ r.ran, p.2 ≤ s.numCreated
  fresh : ∀ x ∈ s.pending, ∀ timer, s.queue.heap x = some timer → ∀ r ∈ log.reads, timer.sequence ∉ r.ran.map Prod.snd

theorem ReadsInv.kept {log' : Log} (hr : ReadsInv s log)
    (hrunning : ∀ now expired rest, t.pc = .calling now expired rest → Running t log' now expired rest)
    (hreads : log'.reads = log.reads) (hnum : s.numCreated ≤ t.numCreated)
    (hpending : ∀ x ∈ t.pending, ∀ timer, t.queue.heap x = some timer →
      (x ∈ s.pending ∧ s.queue.heap x = some timer) ∨ s.numCreated < timer.sequence) : ReadsInv t log' := by
  refine ⟨hrunning, ?_, ?_, ?_⟩
  · rw [hreads]
    exact hr.proper
  · rw [hreads]
    exact fun r hmem p hp => (hr.bounded r hmem p hp).trans hnum
  · rw [hreads]
    intro x hx timer hsome r hmem hran
    rcases hpending x hx timer hsome with ⟨hx, hsome⟩ | hlt
    · exact hr.fresh x hx timer hsome r hmem hran
    · obtain ⟨p, hp, heq⟩ := List.mem_map.mp hran
      exact absurd (hr.bounded r hmem p hp) (by omega)

theorem readsInv_handleRead (hi : Inv s) (hr : ReadsInv s log) {activeTimers : OrdSet ActiveTimer} :
    ReadsInv { s with
      queue := s.queue.began s.clock activeTimers
      pc := .calling s.clock (s.queue.due s.clock) (s.queue.due s.clock) } (log.record s .handleRead) := by
  refine ⟨fun now expired rest hpc => ?_, fun r hmem => ?_, fun r hmem p hp => ?_, fun x hx timer hsome r hmem hran => ?_⟩
  · cases hpc
    refine ⟨⟨⟨s.clock, []⟩, log.reads, [], rfl, rfl, rfl, rfl⟩, ?_, ?_, ?_⟩
    · exact (s.queue.timers.before_sorted _).imp fun hlt => Entry.when_le (le_of_lt hlt)
    · exact fun e he => ((hi.linked.mem_due hi.numbered.addr).mp he).2
    · exact fun e _ n => iff_of_false List.not_mem_nil OrdSet.not_mem_empty
  · rcases List.mem_cons.mp hmem with rfl | hmem
    · exact ⟨List.Pairwise.nil, List.nodup_nil, fun _ h => absurd h List.not_mem_nil⟩
    · exact hr.proper r hmem
  · rcases List.mem_cons.mp hmem with rfl | hmem
    · exact absurd hp List.not_mem_nil
    · exact hr.bounded r hmem p hp
  · rcases List.mem_cons.mp hmem with rfl | hmem
    · exact absurd hran List.not_mem_nil
    · exact hr.fresh x hx timer hsome r hmem hran

theorem readsInv_run (hi : Inv s) (hr : ReadsInv s log) {now : Int} {expired rest : List Entry} {e : Entry}
    (hpc : s.pc = .calling now expired (e :: rest)) :
    ReadsInv { s with pc := .calling now expired rest } (log.record s .run) := by
  have hexpired : s.pc.expired = expired := by rw [hpc]; rfl
  have hrunning := hr.running _ _ _ hpc
  obtain ⟨r, older, done, hreads, hnow, happ, hran⟩ := hrunning.read
  obtain ⟨he, timer, hx⟩ := hi.next hpc
  have hnext : (r.add timer).ran = (done ++ [e]).map s.queue.ident := by
    rw [List.map_append, ← hran]
    show r.ran ++ [(timer.expiration, timer.sequence)] = r.ran ++ [s.queue.ident e]
    rw [ident_eq hx]
  have happ' : (done ++ [e]) ++ rest = expired := by rw [List.append_assoc]; exact happ
  rw [record_run hpc hx, hreads]
  refine ⟨fun now' expired' rest' hpc' => ?_, fun r' hmem => ?_, fun r' hmem p hp => ?_, fun x hx' other hsome r' hmem => ?_⟩
  · cases hpc'
    exact ⟨⟨r.add timer, older, done ++ [e], rfl, hnow, happ', hnext⟩, hrunning.ordered, hrunning.due, hrunning.cancelled⟩
  · rcases List.mem_cons.mp hmem with rfl | hmem
    · exact hrunning.proper hi hexpired ⟨rest, happ'⟩ hnow hnext
    · exact hr.proper r' (hreads ▸ List.mem_cons_of_mem r hmem)
  · rcases List.mem_cons.mp hmem with rfl | hmem
    · rcases List.mem_append.mp hp with hp | hp
      · exact hr.bounded r (hreads ▸ List.mem_cons_self) p hp
      · cases List.mem_singleton.mp hp
        exact hi.numbered.bound _ _ hx
    · exact hr.bounded r' (hreads ▸ List.mem_cons_of_mem r hmem) p hp
  · -- a pending timer is not the one that is run
    have hne : other.sequence ≠ timer.sequence := by
      intro heq
      have hsame := hi.numbered.inj _ _ _ _ hsome hx heq
      exact (List.nodup_append.mp hi.apart.nodup).2.2 _ (List.mem_map_of_mem he) _ hx' hsame.symm
    rcases List.mem_cons.mp hmem with rfl | hmem
    · have hold := hr.fresh x hx' other hsome r (hreads ▸ List.mem_cons_self)
      simp only [Read.add, List.map_append, List.map_cons, List.map_nil, List.mem_append, List.mem_singleton, not_or]
      exact ⟨hold, hne⟩
    · exact hr.fresh x hx' other hsome r' (hreads ▸ List.mem_cons_of_mem r hmem)

theorem ReadsInv.same_batch (hi : Inv s) (hr : ReadsInv s log) (h : Step s a t) (ha : ∀ lag, a ≠ .reset lag) (hpc : t.pc = s.pc)
    {log' : Log} (hreads : log'.reads = log.reads)
    (hcancelled : ∀ e ∈ s.pc.expired, ∀ n, (⟨e.timer, n⟩ ∈ log.cancelled ↔ ⟨e.timer, n⟩ ∈ s.queue.cancelingTimers) →
      (⟨e.timer, n⟩ ∈ log'.cancelled ↔ ⟨e.timer, n⟩ ∈ t.queue.cancelingTimers)) :
    ∀ now expired rest, t.pc = .calling now expired rest → Running t log' now expired rest := by
  intro now expired rest hcalling
  rw [hpc] at hcalling
  have hexpired : s.pc.expired = expired := by rw [hcalling]; rfl
  have hrunning := hr.running now expired rest hcalling
  subst hexpired
  exact hrunning.congr (fun e he => step_batch hi h ha he) hreads fun e he n =>
    hcancelled e he n (hrunning.cancelled e he n)

theorem readsInv_step (hi : Inv s) (hr : ReadsInv s log) (h : Step s a t) : ReadsInv t (log.record s a) := by
  have hstep := h
  cases h with
  | tick d =>  -- only a read, a run and `reset` change what has been run
    exact hr.kept (hr.same_batch hi hstep (fun _ => Act.noConfusion) rfl rfl fun _ _ _ h => h) rfl le_rfl
      fun x hx timer hsome => .inl ⟨hx, hsome⟩
  | @addTimer x when interval hx haddr =>
    refine hr.kept (hr.same_batch hi hstep (fun _ => Act.noConfusion) rfl rfl fun _ _ _ h => h) rfl (Nat.le_succ _)
      fun y hy timer hsome => ?_
    by_cases heq : y = x
    · subst heq
      simp only [ZkTimerQueue.store, Function.update_self, Option.some.injEq] at hsome
      subst hsome
      exact .inr (Nat.lt_succ_self _)
    · rw [store_heap heq] at hsome
      exact .inl ⟨(List.mem_cons.mp hy).resolve_left heq, hsome⟩
  | addTimerInLoop hmem hloop hx hfree =>
    rw [record_addTimerInLoop hx]
    exact hr.kept (hr.same_batch hi hstep (fun _ => Act.noConfusion) rfl rfl fun _ _ _ h => h) rfl le_rfl
      fun y hy timer hsome => .inl ⟨List.mem_of_mem_erase hy, hsome⟩
  | @cancel timerId timer hloop hs hseq =>
    have hid := mem_of_scheduled hs hseq
    rw [record_cancel hi hid]
    refine hr.kept (hr.same_batch hi hstep (fun _ => Act.noConfusion) rfl rfl fun e he n hiff => ?_) rfl le_rfl
      fun y hy timer hsome => .inl ⟨hy, store_none_le hsome⟩
    -- a timer that can be erased is in `timers_`, so it is not in the batch
    have hne : ⟨e.timer, n⟩ ≠ timerId := fun heq => hi.batch_apart he n (heq ▸ hid)
    rw [List.mem_cons, or_iff_right hne]
    exact hiff
  | @note timerId hloop hid =>
    rw [record_note hi hid]
    refine hr.kept (hr.same_batch hi hstep (fun _ => Act.noConfusion) rfl rfl fun e he n hiff => ?_) rfl le_rfl
      fun y hy timer hsome => .inl ⟨hy, hsome⟩
    -- only callbacks cancel what is in the batch
    have hcalling : s.queue.callingExpiredTimers = true := by
      refine hi.calling.mpr fun hidle => ?_
      rw [hidle] at he
      cases he
    show _ ↔ _ ∈ (if s.queue.callingExpiredTimers then _ else _ : OrdSet ActiveTimer)
    rw [if_pos hcalling, OrdSet.mem_insert, List.mem_cons, hiff]
  | handleRead hpc hcut => exact readsInv_handleRead hi hr
  | run hpc => exact readsInv_run hi hr hpc
  | @reset now expired q lag hpc hput hlinked hapart =>
    have hidle : ∀ now' expired' rest', Pc.idle = .calling now' expired' rest' →
        Running { s with
          pc := .idle
          clock := s.clock + lag
          queue := { q with timerfd := q.rearmed s.clock (s.clock + lag) } } log now' expired' rest' := by
      intro _ _ _ h
      cases h
    refine hr.kept hidle rfl le_rfl fun x hx timer hsome => .inl ⟨hx, ?_⟩
    have hout : x ∉ expired.map Entry.timer := by
      have hnodup := hi.apart.nodup
      rw [hpc] at hnodup
      exact fun hmem => (List.nodup_append.mp hnodup).2.2 x hmem x hx rfl
    have hheap := hput.heap x
    rw [if_neg hout] at hheap
    exact hheap.symm.trans hsome

/-! ## Where a one-shot timer is -/

theorem removed_step (hi : Inv s) (hg : ∀ n ∈ log.removed, Gone s n) (h : Step s a t) :
    ∀ n ∈ (log.record s a).removed, Gone t n := by
  have hold : ∀ n ∈ log.removed, Gone t n := fun n hn => (hg n hn).step h
  cases h with
  | addTimerInLoop hmem hloop hx hfree =>
    rw [record_addTimerInLoop hx]
    exact hold
  | @cancel timerId timer hloop hs hseq =>  -- its number is not given again
    have hid := mem_of_scheduled hs hseq
    rw [record_cancel hi hid]
    intro n hn
    rcases List.mem_cons.mp hn with rfl | hn
    · refine ⟨hseq ▸ hi.numbered.bound _ _ hs.1, fun x other hx heq => ?_⟩
      have hsame := hi.numbered.inj _ _ _ _ (store_none_le hx) hs.1 (heq.trans hseq.symm)
      subst hsame
      simp [ZkTimerQueue.cancelled, ZkTimerQueue.store] at hx
    · exact hold n hn
  | note hloop hid =>
    rw [record_note hi hid]
    exact hold
  | @run now expired rest e hpc =>
    obtain ⟨-, timer, hx⟩ := hi.next hpc
    rw [record_run hpc hx]
    exact hold
  | _ => exact hold

/-- In `timers_`, in the running batch, or deleted after it was run. -/
inductive Fate (s : St) (reads : List Read) (timer : Timer) (k : Nat) : Prop
  | waiting {x : Addr} (hs : s.queue.Scheduled x timer) (hk : k ≤ reads.length)
      (hearly : ∀ past ∈ since k reads, past < timer.expiration) (hruns : RunsOnce timer k reads)
  | batch {now : Int} {expired rest : List Entry} {e : Entry} {r : Read} {older : List Read}
      (hpc : s.pc = .calling now expired rest) (he : e ∈ expired) (hx : s.queue.heap e.timer = some timer)
      (hreads : reads = r :: older) (hdue : Due timer k older r.now) (hruns : RunsOnce timer k older)
  | done (hgone : Gone s timer.sequence) (hk : k ≤ reads.length) (hpast : ∃ past ∈ since k reads, timer.expiration ≤ past)
      (hruns : RunsOnce timer k reads)

variable {reads : List Read} {timer : Timer} {k : Nat}

theorem Fate.runsOnce (hf : Fate s reads timer k) (hidle : s.pc = .idle) : RunsOnce timer k reads := by
  cases hf with
  | waiting _ _ _ hruns => exact hruns
  | batch hpc => rw [hidle] at hpc; cases hpc
  | done _ _ _ hruns => exact hruns

theorem Fate.kept (hi : Inv s) (hf : Fate s reads timer k) (h : Step s a t) (ha : ∀ lag, a ≠ .reset lag) (hpc : t.pc = s.pc)
    (hscheduled : ∀ x, s.queue.Scheduled x timer → t.queue.Scheduled x timer) : Fate t reads timer k := by
  cases hf with
  | waiting hs hk hearly hruns => exact .waiting (hscheduled _ hs) hk hearly hruns
  | batch hcalling he hx hreads hdue hruns =>
    refine .batch (hpc.trans hcalling) he ?_ hreads hdue hruns
    rw [step_batch hi h ha (by rwa [hcalling])]
    exact hx
  | done hgone hk hpast hruns => exact .done (hgone.step h) hk hpast hruns

theorem fate_added {x : Addr} (hr : ReadsInv s log) (hmem : x ∈ s.pending) (hx : s.queue.heap x = some timer)
    (hs : t.queue.Scheduled x timer) : Fate t log.reads timer log.reads.length := by
  refine .waiting hs le_rfl ?_ (runsOnce_of_not_ran le_rfl (hr.fresh x hmem timer hx))
  rw [since_length]
  exact fun r h => absurd h List.not_mem_nil

theorem fate_handleRead (hi : Inv s) (hpc : s.pc = .idle) {activeTimers : OrdSet ActiveTimer}
    (hcut : Linked (s.queue.expiredCut s.clock activeTimers) []) (hf : Fate s reads timer k) :
    Fate { s with
      queue := s.queue.began s.clock activeTimers
      pc := .calling s.clock (s.queue.due s.clock) (s.queue.due s.clock) } (⟨s.clock, []⟩ :: reads) timer k := by
  cases hf with
  | @waiting x hs hk hearly hruns =>
    have hentry : ⟨timer.expiration, x⟩ ∈ s.queue.timers := hi.linked.mem_iff.mpr ⟨timer, hs, rfl⟩
    by_cases hdue : timer.expiration ≤ s.clock
    -- due: in the batch of this read, which is the first at or after its expiration
    · have hmem : ⟨timer.expiration, x⟩ ∈ s.queue.due s.clock := (hi.linked.mem_due hi.numbered.addr).mpr ⟨hentry, hdue⟩
      exact .batch rfl hmem hs.1 rfl ⟨hk, hdue, hearly⟩ hruns
    · have hlater : ⟨timer.expiration, x⟩ ∈ (s.queue.expiredCut s.clock activeTimers).timers :=
        (hi.linked.mem_later hi.numbered.addr).mpr ⟨hentry, not_le.mp hdue⟩
      obtain ⟨timer', hs', -⟩ := hcut.mem_iff.mp hlater
      have hsame : timer' = timer := scheduled_unique hs' hs.1
      subst hsame
      refine .waiting hs' (hk.trans (Nat.le_succ _)) ?_ (runsOnce_idle hruns fun h => hdue h.2.1)
      rw [since_cons hk]
      exact List.forall_mem_cons.mpr ⟨not_le.mp hdue, hearly⟩
  | batch hcalling => rw [hpc] at hcalling; cases hcalling
  | done hgone hk hpast hruns =>
    obtain ⟨past, hmem, hle⟩ := hpast
    refine .done ⟨hgone.bound, hgone.dead⟩ (hk.trans (Nat.le_succ _)) ⟨past, ?_, hle⟩ (runsOnce_idle hruns fun h => ?_)
    · rw [since_cons hk]
      exact List.mem_cons_of_mem _ hmem
    · exact absurd (h.2.2 past hmem) (not_lt_of_ge hle)

theorem fate_run (hi : Inv s) (hr : ReadsInv s log) {now : Int} {expired rest : List Entry} {e : Entry}
    (hpc : s.pc = .calling now expired (e :: rest)) (hf : Fate s log.reads timer k) :
    Fate { s with pc := .calling now expired rest } (log.record s .run).reads timer k := by
  obtain ⟨r, older, -, hreads, -, -, -⟩ := (hr.running _ _ _ hpc).read
  obtain ⟨he, other, hx⟩ := hi.next hpc
  have hnext : (log.record s .run).reads = r.add other :: older := by
    rw [record_run hpc hx, hreads]
    rfl
  rw [hnext]
  rw [hreads] at hf
  cases hf with
  | @waiting x hs hk hearly hruns =>
    have hne : other.sequence ≠ timer.sequence := by
      intro heq
      have hsame := hi.numbered.inj _ _ _ _ hx hs.1 heq
      exact hi.batch_apart he _ (hsame ▸ hs.2)
    exact .waiting hs hk (by rwa [since_add]) (runsOnce_add hruns hne)
  | batch hcalling hmem hx' heq hdue hruns =>
    cases heq
    rw [hpc] at hcalling
    cases hcalling
    exact .batch rfl hmem hx' rfl hdue hruns
  | done hgone hk hpast hruns =>
    exact .done ⟨hgone.bound, hgone.dead⟩ hk (by rwa [since_add]) (runsOnce_add hruns (hgone.dead _ _ hx))

theorem fate_reset (hi : Inv s) (hr : ReadsInv s log) {now : Int} {expired : List Entry} {q : ZkTimerQueue} {lag : Nat}
    (hpc : s.pc = .calling now expired [])
    (hput : Put { s.queue with callingExpiredTimers := false } now (expired.map Entry.timer) q) (hone : timer.repeat_ = false) (hf : Fate s log.reads timer k)
    (hstep : Step s (.reset lag) { s with
      pc := .idle
      clock := s.clock + lag
      queue := { q with timerfd := q.rearmed s.clock (s.clock + lag) } }) : Fate { s with
      pc := .idle
      clock := s.clock + lag
      queue := { q with timerfd := q.rearmed s.clock (s.clock + lag) } } log.reads timer k := by
  cases hf with
  | @waiting x hs hk hearly hruns =>
    have hout : x ∉ expired.map Entry.timer := by
      intro hmem
      obtain ⟨e, he, rfl⟩ := List.mem_map.mp hmem
      exact hi.batch_apart (by rwa [hpc]) _ hs.2
    have hs' := (hput.scheduled x timer).mpr (by rw [if_neg hout]; exact hs)
    exact .waiting hs' hk hearly hruns
  | @batch now' expired' rest e r older hcalling he hx hreads hdue hruns =>
    rw [hpc] at hcalling
    cases hcalling
    have hmem : e ∈ s.pc.expired := by rwa [hpc]
    obtain ⟨r', older', done, hreads', -, happ, hran⟩ := (hr.running _ _ _ hpc).read
    rw [hreads] at hreads' ⊢
    cases hreads'
    rw [List.append_nil] at happ
    subst happ
    -- it is in the batch once, so it has been run once
    have hnodup : (r.ran.map Prod.snd).Nodup := (hr.proper r (hreads ▸ List.mem_cons_self)).atMostOnce
    have hcount : (r.ran.map Prod.snd).count timer.sequence = 1 := by
      refine List.count_eq_one_of_mem hnodup ?_
      rw [hran, List.map_map]
      refine List.mem_map.mpr ⟨e, he, ?_⟩
      show (s.queue.ident e).2 = timer.sequence
      rw [ident_eq hx]
    refine .done ⟨hi.numbered.bound _ _ hx, fun y other hy heq => ?_⟩ (hdue.1.trans (Nat.le_succ _))
      ⟨r.now, ?_, hdue.2.1⟩ ⟨?_, hruns⟩
    · obtain ⟨u, hu, hseq⟩ := hput.le hy
      have hsame := hi.numbered.inj _ _ _ _ hu hx (hseq.trans heq)
      subst hsame
      have hkept : ({ s.queue with callingExpiredTimers := false } : ZkTimerQueue).kept now e.timer = none := by
        refine kept_none hx fun h => ?_
        rw [hone] at h
        cases h.1
      have hheap := hput.heap e.timer
      rw [if_pos (List.mem_map_of_mem he), hkept] at hheap
      rw [show q.heap e.timer = some other from hy] at hheap
      cases hheap
    · rw [since_cons hdue.1]
      exact List.mem_cons_self
    · rw [hcount, if_pos hdue]
  | done hgone hk hpast hruns => exact .done (hgone.step hstep) hk hpast hruns

structure LogInv (x : St × Log) : Prop where
  inv : Inv x.1
  reads : ReadsInv x.1 x.2
  removed : ∀ n ∈ x.2.removed, Gone x.1 n
  fates : ∀ timer k, (timer, k) ∈ x.2.added → timer.repeat_ = false → timer.sequence ∉ x.2.removed →
    Fate x.1 x.2.reads timer k

theorem fates_step (hi : LogInv (s, log)) (h : Step s a t) : ∀ timer k, (timer, k) ∈ (log.record s a).added →
    timer.repeat_ = false → timer.sequence ∉ (log.record s a).removed → Fate t (log.record s a).reads timer k := by
  intro timer k hadded hone hnot
  have hinv := hi.inv
  have hstep := h
  cases h with
  | tick d => exact (hi.fates timer k hadded hone hnot).kept hinv hstep (fun _ => Act.noConfusion) rfl fun _ hs => hs
  | @addTimer x when interval hx haddr =>  -- a new timer has a new address, so the timer is where it was
    refine (hi.fates timer k hadded hone hnot).kept hinv hstep (fun _ => Act.noConfusion) rfl fun y hs => ⟨?_, hs.2⟩
    have hne : y ≠ x := fun heq => by rw [heq] at hs; exact Option.some_ne_none _ (hs.1.symm.trans hx)
    rw [← hs.1]
    exact store_heap hne
  | @addTimerInLoop x new lag hmem hloop hx hfree =>
    rw [record_addTimerInLoop hx] at hadded hnot ⊢
    rcases List.mem_cons.mp hadded with heq | hadded
    · cases heq
      show Fate _ log.reads timer log.reads.length
      exact fate_added hi.reads hmem hx ⟨hx, OrdSet.mem_insert.mpr (.inl rfl)⟩
    · exact (hi.fates timer k hadded hone hnot).kept hinv hstep (fun _ => Act.noConfusion) rfl fun y hs =>
        ⟨hs.1, OrdSet.mem_insert.mpr (.inr hs.2)⟩
  | @cancel timerId old hloop hs hseq =>
    have hid := mem_of_scheduled hs hseq
    rw [record_cancel hinv hid] at hadded hnot ⊢
    obtain ⟨hother, hnot⟩ := not_or.mp (mt List.mem_cons.mpr hnot)
    refine (hi.fates timer k hadded hone hnot).kept hinv hstep (fun _ => Act.noConfusion) rfl fun y hy => ?_
    have hne : y ≠ timerId.timer := by
      intro heq
      subst heq
      rw [scheduled_unique hs hy.1] at hseq
      exact hother hseq
    refine ⟨(store_heap hne).trans hy.1, OrdSet.mem_erase.mpr ⟨fun heq => ?_, hy.2⟩⟩
    exact hne (congrArg ActiveTimer.timer heq)
  | note hloop hid =>
    rw [record_note hinv hid] at hadded hnot ⊢
    exact (hi.fates timer k hadded hone hnot).kept hinv hstep (fun _ => Act.noConfusion) rfl fun _ hs => hs
  | handleRead hpc hcut => exact fate_handleRead hinv hpc hcut (hi.fates timer k hadded hone hnot)
  | @run now expired rest e hpc =>
    obtain ⟨-, next, hx⟩ := hinv.next hpc
    refine fate_run hinv hi.reads hpc (hi.fates timer k ?_ hone ?_)
    · rwa [record_run hpc hx] at hadded
    · rwa [record_run hpc hx] at hnot
  | reset hpc hput _ _ =>
    exact fate_reset hinv hi.reads hpc hput hone (hi.fates timer k hadded hone hnot) hstep

theorem logInv_initial (clock : Int) : LogInv (St.initial clock, .empty) where
  inv := inv_initial clock
  reads := by constructor <;> intros <;> contradiction
  removed _ h := absurd h List.not_mem_nil
  fates _ _ h := absurd h List.not_mem_nil

theorem logInv_step {x y : St × Log} {a : Act} (hi : LogInv x) (h : firing x a = some y) : LogInv y := by
  obtain ⟨s, log⟩ := x
  obtain ⟨t, log'⟩ := y
  obtain ⟨h, rfl⟩ := withHistory_some h
  have hstep := step_inv hi.inv h
  exact ⟨inv_step hi.inv hstep, readsInv_step hi.inv hi.reads hstep, removed_step hi.inv hi.removed hstep,
    fates_step hi hstep⟩

/-! ## A read goes on to its end -/

theorem handleRead_enabled (hi : Inv s) (hpc : s.pc = .idle) :
    ∃ expired t, step s .handleRead = some t ∧ t.pc = .calling s.clock expired expired := by
  obtain ⟨t, ht⟩ : ∃ t, step s .handleRead = some t := by
    refine ⟨s.handleRead, ?_⟩
    unfold step
    rw [if_pos hi.clean, perform, if_pos hpc]
  refine ⟨s.queue.due s.clock, t, ht, ?_⟩
  cases step_inv hi ht with
  | handleRead _ _ => rfl

theorem run_enabled (hi : Inv s) {now : Int} {expired rest : List Entry} {e : Entry}
    (hpc : s.pc = .calling now expired (e :: rest)) : step s .run = some { s with pc := .calling now expired rest } := by
  obtain ⟨-, timer, hx⟩ := hi.next hpc
  unfold step
  rw [if_pos hi.clean, perform, St.runNext, hpc]
  dsimp only
  rw [deref_eq hx]

theorem reset_enabled (hi : Inv s) {now : Int} {expired : List Entry} (hpc : s.pc = .calling now expired []) (lag : Nat) :
    ∃ t, step s (.reset lag) = some t ∧ t.pc = .idle := by
  have hsome : (step s (.reset lag)).isSome = true := by
    unfold step
    rw [if_pos hi.clean, perform, St.resetBatch, hpc]
    rfl
  obtain ⟨t, ht⟩ := Option.isSome_iff_exists.mp hsome
  refine ⟨t, ht, ?_⟩
  cases step_inv hi ht with
  | reset _ _ _ _ => rfl

theorem read_ends {now : Int} {expired : List Entry} (lag : Nat) : ∀ {rest : List Entry} {s : St}, Inv s →
    s.pc = .calling now expired rest →
    ∃ t, Lts.run step s (List.replicate rest.length .run ++ [.reset lag]) = some t ∧ t.pc = .idle
  | [], s, hi, hpc => by
    -- by induction on what is left of the batch: `run` takes its first entry, and at the end `reset` is
  -- next
    obtain ⟨t, ht, hidle⟩ := reset_enabled hi hpc lag
    refine ⟨t, ?_, hidle⟩
    show Lts.run step s [.reset lag] = some t
    rw [run_cons, ht]
    rfl
  | e :: rest, s, hi, hpc => by
    have hrun := run_enabled hi hpc
    have hnext : Inv { s with pc := .calling now expired rest } := inv_step hi (step_inv hi hrun)
    obtain ⟨t, ht, hidle⟩ := read_ends lag hnext rfl
    refine ⟨t, ?_, hidle⟩
    rw [List.length_cons, List.replicate_succ, List.cons_append, run_cons, hrun]
    exact ht

theorem goesOn_of_inv (hi : Inv s) : GoesOn s where
  begins hpc := handleRead_enabled hi hpc
  ends _ _ _ hpc lag := read_ends lag hi hpc

/-! ## Every run -/

theorem firesWhenDue_of_inv {x : St × Log} (hi : LogInv x) : FiresWhenDue x where
  once hidle timer k hadded hone hnot := (hi.fates timer k hadded hone hnot).runsOnce hidle
  reads := hi.reads.proper
  goesOn := goesOn_of_inv hi.inv

theorem putBack_reset {now : Int} {expired : List Entry} (hi : LogInv (s, log)) (hpc : s.pc = .calling now expired [])
    {lag : Nat} (h : step s (.reset lag) = some t) {e : Entry} (he : e ∈ expired) (hx : s.queue.heap e.timer = some timer) {delta : Nat}
    (hdelta : timer.interval = some delta) : PutBack now e timer delta log.cancelled t.queue := by
  have hcancelled := ((hi.reads.running _ _ _ hpc).cancelled e he timer.sequence)
  cases step_inv hi.inv h with
  | @reset now' expired' q lag hpc' hput hlinked hapart =>
    cases hpc.symm.trans hpc'
    have hmem : e.timer ∈ expired.map Entry.timer := List.mem_map_of_mem he
    have hheap := hput.heap e.timer
    rw [if_pos hmem] at hheap
    unfold PutBack
    -- `cancelingTimers_` has what was cancelled while the batch ran
    by_cases hoff : ⟨e.timer, timer.sequence⟩ ∈ log.cancelled
    · have hkept : ({ s.queue with callingExpiredTimers := false } : ZkTimerQueue).kept now e.timer = none :=
        kept_none hx fun h => h.2 (hcancelled.mp hoff)
      rw [if_pos hoff]
      refine ⟨hheap.trans hkept, fun when hentry => ?_⟩
      obtain ⟨timer', hs, -⟩ := hlinked.mem_iff.mp hentry
      have hnone := hs.1
      rw [hheap, hkept] at hnone
      cases hnone
    · have hkept : ({ s.queue with callingExpiredTimers := false } : ZkTimerQueue).kept now e.timer =
          some { timer with expiration := now + delta } := by
        have hon : timer.repeat_ ∧ ⟨e.timer, timer.sequence⟩ ∉ s.queue.cancelingTimers :=
          ⟨by rw [Timer.repeat_, hdelta]; rfl, fun h => hoff (hcancelled.mpr h)⟩
        show s.queue.kept now e.timer = _
        rw [kept_some hx hon, Timer.restart, hdelta]
      rw [if_neg hoff]
      have hsome := hheap.trans hkept
      refine ⟨hsome, hlinked.mem_iff.mpr ⟨{ timer with expiration := now + delta }, (hput.scheduled _ _).mpr ?_, rfl⟩⟩
      rw [if_pos hmem]
      exact hsome

theorem keepsTo_of_inv {x : St × Log} (hi : LogInv x) (a : Act) : KeepsTo x a := by
  obtain ⟨s, log⟩ := x
  cases a with
  | run =>
    intro e he timer hx hmem
    exact (hi.removed _ hmem).dead _ _ hx rfl
  | reset lag =>
    intro t ht now expired hpc e he timer hx delta hdelta
    exact putBack_reset hi hpc ht he hx hdelta
  | _ => trivial

/-- In every state a read can go on to its end, and by then each timer that was due has been run. -/
theorem fires_when_due (clock : Int) (acts : List Act) :
    Throughout firing FiresWhenDue (St.initial clock, .empty) acts ∧
      Along firing KeepsTo (St.initial clock, .empty) acts := by
  constructor
  · intro pre x _ hr
    exact firesWhenDue_of_inv (inv_of_run (fun _ _ _ hi h => logInv_step hi h) (logInv_initial clock) hr)
  · exact along_of_along (fun _ _ _ hi _ h => logInv_step hi h) (fun _ a hi _ => keepsTo_of_inv hi a)
      (logInv_initial clock) (along_true acts _)

/-- A one-shot timer, one that repeats, and one that is cancelled; a callback cancels the one that repeats. -/
def threeTimers : List Act :=
  [.addTimer 8 1500 none, .addTimer 16 1200 (some 300), .addTimer 24 1400 none, .addTimerInLoop 8 10,
    .addTimerInLoop 16 0, .addTimerInLoop 24 0, .cancelInLoop ⟨24, 3⟩, .tick 300, .handleRead, .run, .reset 5,
    .tick 400, .handleRead, .run, .cancelInLoop ⟨16, 2⟩, .run, .reset 0, .tick 500, .handleRead, .reset 0]

theorem fires_when_due_threeTimers :
    (Throughout firing FiresWhenDue (St.initial 1000, .empty) threeTimers ∧
        Along firing KeepsTo (St.initial 1000, .empty) threeTimers) ∧
      ∃ x ∈ run firing (St.initial 1000, .empty) threeTimers,
        x.2.reads = [⟨2215, []⟩, ⟨1715, [(1500, 1), (1610, 2)]⟩, ⟨1310, [(1200, 2)]⟩] :=
  ⟨fires_when_due 1000 threeTimers, _, rfl, by decide⟩

end

end ZkCppClient.Timers
