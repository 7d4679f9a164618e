import ZkCppClient.Lib.Run
import ZkCppClient.Timers.Linked

/-!
# The bookkeeping of the timers

In every state of the loop a timer is in one place: handed over and pending, in
both sets, or in the running batch. `Step` says what a step does where this
holds: no assertion fails, and nothing is touched that has been deleted.
-/

namespace ZkCppClient.Timers

open Checked

def Pc.expired : Pc → List Entry
  | .idle => []
  | .calling _ expired _ => expired

def Pc.rest : Pc → List Entry
  | .idle => []
  | .calling _ _ rest => rest

structure Numbered (heap : Addr → Option Timer) (numCreated : Nat) : Prop where
  addr : ∀ x timer, heap x = some timer → x < UINTPTR_MAX
  bound : ∀ x timer, heap x = some timer → timer.sequence ≤ numCreated
  inj : ∀ x y timer timer', heap x = some timer → heap y = some timer' → timer.sequence = timer'.sequence → x = y

structure Inv (s : St) : Prop where
  clean : s.fault = none
  linked : Linked s.queue []
  apart : Apart s.queue (s.pc.expired.map Entry.timer ++ s.pending)
  numbered : Numbered s.queue.heap s.numCreated
  calling : s.queue.callingExpiredTimers = true ↔ s.pc ≠ .idle
  batch : ∀ e ∈ s.pc.expired, ∃ timer, s.queue.heap e.timer = some timer ∧ timer.expiration = e.when
  rest : s.pc.rest <:+ s.pc.expired

def ZkTimerQueue.began (q : ZkTimerQueue) (now : Int) (activeTimers : OrdSet ActiveTimer) : ZkTimerQueue :=
  { q.expiredCut now activeTimers with
    timerfd := readTimerfd q.timerfd now
    callingExpiredTimers := true
    cancelingTimers := .empty }

inductive Step (s : St) : Act → St → Prop
  | tick (d : Nat) : Step s (.tick d) { s with clock := s.clock + d }
  | addTimer {x : Addr} {when : Int} {interval : Option Nat} (hx : s.queue.heap x = none) (haddr : x < UINTPTR_MAX) :
      Step s (.addTimer x when interval) { s with
        queue := s.queue.store x (some ⟨when, interval, s.numCreated + 1⟩)
        numCreated := s.numCreated + 1
        pending := x :: s.pending }
  | addTimerInLoop {x : Addr} {timer : Timer} {lag : Nat} (hmem : x ∈ s.pending) (hloop : s.pc.inLoop = true)
      (hx : s.queue.heap x = some timer) (hfree : s.queue.Free x) :
      Step s (.addTimerInLoop x lag) { s with
        pending := s.pending.erase x
        clock := s.clock + lag
        queue := s.queue.added x timer s.clock (s.clock + lag) }
  | cancel {timerId : TimerId} {timer : Timer} (hloop : s.pc.inLoop = true) (hs : s.queue.Scheduled timerId.timer timer)
      (hseq : timer.sequence = timerId.sequence) :
      Step s (.cancelInLoop timerId) { s with queue := s.queue.cancelled timerId timer }
  | note {timerId : TimerId} (hloop : s.pc.inLoop = true) (hid : timerId ∉ s.queue.activeTimers) :
      Step s (.cancelInLoop timerId) { s with queue := s.queue.noted timerId }
  | handleRead {activeTimers : OrdSet ActiveTimer} (hpc : s.pc = .idle)
      (hcut : Linked (s.queue.expiredCut s.clock activeTimers) []) :
      Step s .handleRead { s with
        queue := s.queue.began s.clock activeTimers
        pc := .calling s.clock (s.queue.due s.clock) (s.queue.due s.clock) }
  | run {now : Int} {expired rest : List Entry} {e : Entry} (hpc : s.pc = .calling now expired (e :: rest)) :
      Step s .run { s with pc := .calling now expired rest }
  | reset {now : Int} {expired : List Entry} {q : ZkTimerQueue} {lag : Nat} (hpc : s.pc = .calling now expired [])
      (hput : Put { s.queue with callingExpiredTimers := false } now (expired.map Entry.timer) q)
      (hlinked : Linked q []) (hapart : Apart q s.pending) :
      Step s (.reset lag) { s with
        pc := .idle
        clock := s.clock + lag
        queue := { q with timerfd := q.rearmed s.clock (s.clock + lag) } }

section
variable {s t : St} {a : Act}

theorem Inv.next (hi : Inv s) {now : Int} {expired rest : List Entry} {e : Entry}
    (hpc : s.pc = .calling now expired (e :: rest)) : e ∈ s.pc.expired ∧ ∃ timer, s.queue.heap e.timer = some timer := by
  have hmem : e ∈ s.pc.expired := by
    apply hi.rest.subset
    rw [hpc]
    exact List.mem_cons_self
  obtain ⟨timer, hx, -⟩ := hi.batch e hmem
  exact ⟨hmem, timer, hx⟩

theorem Inv.scheduled (hi : Inv s) {timerId : TimerId} (hid : timerId ∈ s.queue.activeTimers) :
    ∃ timer, s.queue.Scheduled timerId.timer timer ∧ timer.sequence = timerId.sequence := hi.linked.live timerId hid

theorem handleRead_inv (hi : Inv s) (hpc : s.pc = .idle) : Step s .handleRead s.handleRead := by
  have hlinked : Linked { s.queue with timerfd := readTimerfd s.queue.timerfd s.clock } [] :=
    ⟨hi.linked.entries, hi.linked.live⟩
  obtain ⟨activeTimers, heq, hcut⟩ := getExpired_eq hlinked hi.numbered.addr s.clock
  have hbegin : s.queue.beginRead s.clock = .ok (s.queue.due s.clock, s.queue.began s.clock activeTimers) := by
    unfold ZkTimerQueue.beginRead
    rw [heq]
    rfl
  unfold St.handleRead
  rw [hbegin]
  exact .handleRead hpc ⟨hcut.entries, hcut.live⟩

theorem runNext_inv (hi : Inv s) (h : s.runNext = some t) : Step s .run t := by
  unfold St.runNext at h
  split at h
  · rename_i now expired e rest hpc
    obtain ⟨-, timer, hx⟩ := hi.next hpc
    rw [deref_eq hx] at h
    cases h
    exact .run hpc
  · cases h

theorem resetBatch_inv (hi : Inv s) {lag : Nat} (h : s.resetBatch lag = some t) : Step s (.reset lag) t := by
  unfold St.resetBatch at h
  split at h
  · rename_i now expired hpc
    have hlinked : Linked { s.queue with callingExpiredTimers := false } [] := ⟨hi.linked.entries, hi.linked.live⟩
    have hapart : Apart { s.queue with callingExpiredTimers := false } (expired.map Entry.timer ++ s.pending) := by
      have h := hi.apart
      rw [hpc] at h
      exact ⟨h.nodup, h.free, h.live⟩
    obtain ⟨q, heq, hput, hlinked, hapart⟩ := reset_eq now hlinked hapart s.clock (s.clock + lag)
    rw [heq] at h
    cases h
    exact .reset hpc hput hlinked hapart
  · cases h

theorem step_inv (hi : Inv s) (h : step s a = some t) : Step s a t := by
  unfold step at h
  rw [if_pos hi.clean] at h
  cases a with
  | tick d => cases h; exact .tick d
  | addTimer x when interval =>
    simp only [perform] at h
    split at h
    · rename_i hg
      cases h
      exact .addTimer hg.1 hg.2
    · cases h
  | addTimerInLoop x lag =>
    simp only [perform] at h
    split at h
    · rename_i hg
      have hmem := List.mem_append_right (s.pc.expired.map Entry.timer) hg.1
      have hfree := hi.apart.free x hmem
      obtain ⟨timer, hx⟩ := hi.apart.live x hmem
      rw [addTimerInLoop_eq hi.linked hx hfree] at h
      cases h
      exact .addTimerInLoop hg.1 hg.2 hx hfree
    · cases h
  | cancelInLoop timerId =>
    simp only [perform] at h
    split at h
    · rename_i hloop
      by_cases hid : timerId ∈ s.queue.activeTimers
      · obtain ⟨timer, hs, hseq⟩ := hi.scheduled hid
        rw [cancelInLoop_scheduled hi.linked hs hseq] at h
        cases h
        exact .cancel hloop hs hseq
      · rw [cancelInLoop_noted hi.linked hid] at h
        cases h
        exact .note hloop hid
    · cases h
  | handleRead =>
    simp only [perform] at h
    split at h
    · rename_i hpc
      cases h
      exact handleRead_inv hi hpc
    · cases h
  | run => exact runNext_inv hi h
  | reset lag => exact resetBatch_inv hi h

/-! ## Every step keeps it -/

theorem Numbered.of_le {heap heap' : Addr → Option Timer} {n : Nat} (h : Numbered heap n)
    (hle : ∀ x timer', heap' x = some timer' → ∃ timer, heap x = some timer ∧ timer.sequence = timer'.sequence) :
    Numbered heap' n where
  addr x timer' hx := by
    obtain ⟨timer, hx, -⟩ := hle x timer' hx
    exact h.addr x timer hx
  bound x timer' hx := by
    obtain ⟨timer, hx, hseq⟩ := hle x timer' hx
    rw [← hseq]
    exact h.bound x timer hx
  inj x y timer timer' hx hy heq := by
    obtain ⟨u, hx, hu⟩ := hle x timer hx
    obtain ⟨v, hy, hv⟩ := hle y timer' hy
    exact h.inj x y u v hx hy (hu.trans (heq.trans hv.symm))

theorem Numbered.created {heap : Addr → Option Timer} {n : Nat} (h : Numbered heap n) {x : Addr} (haddr : x < UINTPTR_MAX)
    {timer : Timer} (hseq : timer.sequence = n + 1) : Numbered (Function.update heap x (some timer)) (n + 1) := by
  have hcases : ∀ y u, Function.update heap x (some timer) y = some u →
      (y = x ∧ u.sequence = n + 1) ∨ (heap y = some u ∧ u.sequence ≤ n) := by
    intro y u hy
    by_cases heq : y = x
    · subst heq
      rw [Function.update_self] at hy
      cases hy
      exact .inl ⟨rfl, hseq⟩
    · rw [Function.update_of_ne heq] at hy
      exact .inr ⟨hy, h.bound y u hy⟩
  constructor
  · intro y u hy
    rcases hcases y u hy with ⟨rfl, -⟩ | ⟨hy, -⟩
    · exact haddr
    · exact h.addr y u hy
  · intro y u hy
    rcases hcases y u hy with ⟨-, hu⟩ | ⟨-, hu⟩ <;> omega
  · intro y z u v hy hz heq
    rcases hcases y u hy with ⟨rfl, hu⟩ | ⟨hy, hu⟩ <;> rcases hcases z v hz with ⟨rfl, hv⟩ | ⟨hz, hv⟩
    · rfl
    · omega
    · omega
    · exact h.inj y z u v hy hz heq

theorem Inv.batch_apart (hi : Inv s) {e : Entry} (he : e ∈ s.pc.expired) : s.queue.Free e.timer :=
  hi.apart.free e.timer (List.mem_append_left _ (List.mem_map_of_mem he))

theorem batch_congr {heap heap' : Addr → Option Timer} {batch : List Entry}
    (h : ∀ e ∈ batch, ∃ timer, heap e.timer = some timer ∧ timer.expiration = e.when)
    (hsame : ∀ e ∈ batch, heap' e.timer = heap e.timer) :
    ∀ e ∈ batch, ∃ timer, heap' e.timer = some timer ∧ timer.expiration = e.when := by
  intro e he
  rw [hsame e he]
  exact h e he

theorem store_heap {q : ZkTimerQueue} {x y : Addr} {value : Option Timer} (hne : y ≠ x) :
    (q.store x value).heap y = q.heap y := Function.update_of_ne hne _ _

theorem store_none_le {q : ZkTimerQueue} {x y : Addr} {timer : Timer} (h : (q.store x none).heap y = some timer) :
    q.heap y = some timer := by
  by_cases heq : y = x
  · subst heq
    simp [ZkTimerQueue.store] at h
  · rwa [store_heap heq] at h

theorem restart_sequence (timer : Timer) (now : Int) : (timer.restart now).sequence = timer.sequence := by
  unfold Timer.restart
  split <;> rfl

theorem kept_le {q : ZkTimerQueue} {now : Int} {x : Addr} {timer' : Timer} (h : q.kept now x = some timer') :
    ∃ timer, q.heap x = some timer ∧ timer.sequence = timer'.sequence := by
  obtain ⟨timer, hx, h⟩ := Option.bind_eq_some_iff.mp h
  split at h
  · cases h
    exact ⟨timer, hx, (restart_sequence timer now).symm⟩
  · cases h

theorem Put.le {q q' : ZkTimerQueue} {now : Int} {xs : List Addr} (h : Put q now xs q') {x : Addr} {timer' : Timer}
    (hx : q'.heap x = some timer') : ∃ timer, q.heap x = some timer ∧ timer.sequence = timer'.sequence := by
  rw [h.heap x] at hx
  split at hx
  · exact kept_le hx
  · exact ⟨timer', hx, rfl⟩

theorem inv_initial (clock : Int) : Inv (St.initial clock) where
  clean := rfl
  linked := linked_create
  apart := ⟨List.nodup_nil, fun _ h => absurd h List.not_mem_nil, fun _ h => absurd h List.not_mem_nil⟩
  numbered := ⟨fun _ _ h => (nomatch h), fun _ _ h => (nomatch h), fun _ _ _ _ h => (nomatch h)⟩
  calling := iff_of_false Bool.false_ne_true fun h => h rfl
  batch _ h := absurd h List.not_mem_nil
  rest := List.suffix_refl _

theorem Inv.addTimer (hi : Inv s) {x : Addr} {when : Int} {interval : Option Nat} (hx : s.queue.heap x = none)
    (haddr : x < UINTPTR_MAX) : Inv { s with
      queue := s.queue.store x (some ⟨when, interval, s.numCreated + 1⟩)
      numCreated := s.numCreated + 1
      pending := x :: s.pending } := by
  -- the address is free, so no entry and no timer on the way has it, although one may have had it before
  have hnew : x ∉ s.pc.expired.map Entry.timer ++ s.pending := by
    intro hmem
    obtain ⟨timer, hsome⟩ := hi.apart.live x hmem
    rw [hx] at hsome
    cases hsome
  have hfree : s.queue.Free x := by
    intro n hmem
    obtain ⟨timer, hs, -⟩ := hi.linked.live _ hmem
    rw [hs.1] at hx
    cases hx
  have hapart : Apart (s.queue.store x (some ⟨when, interval, s.numCreated + 1⟩)) _ := hi.apart.store_some
  constructor
  · exact hi.clean
  · exact hi.linked.store hfree _
  · refine Apart.perm ?_ List.perm_middle.symm
    refine ⟨List.nodup_cons.mpr ⟨hnew, hapart.nodup⟩, ?_, ?_⟩
    · intro y hy
      rcases List.mem_cons.mp hy with rfl | hy
      · exact hfree
      · exact hapart.free y hy
    · intro y hy
      rcases List.mem_cons.mp hy with rfl | hy
      · exact ⟨_, Function.update_self ..⟩
      · exact hapart.live y hy
  · exact hi.numbered.created haddr rfl
  · exact hi.calling
  · refine batch_congr hi.batch fun e he => store_heap fun heq => hnew ?_
    rw [← heq]
    exact List.mem_append_left _ (List.mem_map_of_mem he)
  · exact hi.rest

theorem Inv.addTimerInLoop (hi : Inv s) {x : Addr} {timer : Timer} (hmem : x ∈ s.pending)
    (hx : s.queue.heap x = some timer) (lag : Nat) : Inv { s with
      pending := s.pending.erase x
      clock := s.clock + lag
      queue := s.queue.added x timer s.clock (s.clock + lag) } := by
  have hperm : (s.pc.expired.map Entry.timer ++ s.pending).Perm (x :: (s.pc.expired.map Entry.timer ++ s.pending.erase x)) :=
    ((List.perm_cons_erase hmem).append_left _).trans List.perm_middle
  have hapart := hi.apart.perm hperm
  have hlinked := hi.linked.inserted hx
  have hinserted : Apart (s.queue.inserted x timer) _ := hapart.tail.inserted (List.nodup_cons.mp hapart.nodup).1
  constructor
  · exact hi.clean
  · exact ⟨hlinked.entries, hlinked.live⟩
  · exact ⟨hinserted.nodup, hinserted.free, hinserted.live⟩
  · exact hi.numbered
  · exact hi.calling
  · exact hi.batch
  · exact hi.rest

theorem Inv.cancel (hi : Inv s) {timerId : TimerId} {timer : Timer} (hs : s.queue.Scheduled timerId.timer timer)
    (hseq : timer.sequence = timerId.sequence) : Inv { s with queue := s.queue.cancelled timerId timer } := by
  have hid := mem_of_scheduled hs hseq
  constructor
  · exact hi.clean
  · exact hi.linked.cancelled hs hseq
  · exact hi.apart.cancelled hid
  · exact hi.numbered.of_le fun y timer' hy => ⟨timer', store_none_le hy, rfl⟩
  · exact hi.calling
  · refine batch_congr hi.batch fun e he => store_heap fun heq => ?_
    have hfree := hi.batch_apart he
    rw [heq] at hfree
    exact hfree _ hid
  · exact hi.rest

theorem Inv.note (hi : Inv s) (timerId : TimerId) : Inv { s with queue := s.queue.noted timerId } := by
  constructor
  · exact hi.clean
  · exact ⟨hi.linked.entries, hi.linked.live⟩
  · exact ⟨hi.apart.nodup, hi.apart.free, hi.apart.live⟩
  · exact hi.numbered
  · exact hi.calling
  · exact hi.batch
  · exact hi.rest

theorem Inv.handleRead (hi : Inv s) (hpc : s.pc = .idle) {activeTimers : OrdSet ActiveTimer}
    (hcut : Linked (s.queue.expiredCut s.clock activeTimers) []) : Inv { s with
      queue := s.queue.began s.clock activeTimers
      pc := .calling s.clock (s.queue.due s.clock) (s.queue.due s.clock) } := by
  -- the batch is what was in `timers_` and due, and it is taken out of both sets
  have hdue : ∀ e ∈ s.queue.due s.clock, ∃ timer, s.queue.heap e.timer = some timer ∧ timer.expiration = e.when := by
    intro e he
    obtain ⟨timer, hs, hwhen⟩ := hi.linked.mem_iff.mp ((hi.linked.mem_due hi.numbered.addr).mp he).1
    exact ⟨timer, hs.1, hwhen⟩
  have hfree : ∀ e ∈ s.queue.due s.clock, (s.queue.expiredCut s.clock activeTimers).Free e.timer := fun e he =>
    hi.linked.due_free hi.numbered.addr hcut he
  have hpending := hi.apart
  rw [hpc] at hpending
  constructor
  · exact hi.clean
  · exact ⟨hcut.entries, hcut.live⟩
  · constructor
    -- no two entries of the batch are of one timer, and none is of a timer still to be added
    · refine List.nodup_append.mpr ⟨?_, hpending.nodup, ?_⟩
      · refine List.Nodup.map_on (fun e he e' he' => ?_) ((s.queue.timers.before_sorted _).imp ne_of_lt)
        exact hi.linked.entry_inj (.inl (OrdSet.mem_before.mp he).1) (.inl (OrdSet.mem_before.mp he').1)
      · rintro x hx y hy rfl
        obtain ⟨e, he, rfl⟩ := List.mem_map.mp hx
        exact hi.linked.not_free ((OrdSet.mem_before.mp he).1) (hpending.free _ hy)
    · intro x hx
      rcases List.mem_append.mp hx with hx | hx
      · obtain ⟨e, he, rfl⟩ := List.mem_map.mp hx
        exact hfree e he
      · intro n hmem
        obtain ⟨timer, hs, -⟩ := hcut.live _ hmem
        have hlater : ⟨timer.expiration, x⟩ ∈ (s.queue.expiredCut s.clock activeTimers).timers :=
          hcut.mem_iff.mpr ⟨timer, hs, rfl⟩
        exact hi.linked.not_free ((OrdSet.mem_onward.mp hlater).1) (hpending.free x hx)
    · intro x hx
      rcases List.mem_append.mp hx with hx | hx
      · obtain ⟨e, he, rfl⟩ := List.mem_map.mp hx
        obtain ⟨timer, hx, -⟩ := hdue e he
        exact ⟨timer, hx⟩
      · exact hpending.live x hx
  · exact hi.numbered
  · exact iff_of_true rfl fun h => by cases h
  · exact hdue
  · exact List.suffix_refl _

theorem Inv.run (hi : Inv s) {now : Int} {expired rest : List Entry} {e : Entry}
    (hpc : s.pc = .calling now expired (e :: rest)) : Inv { s with pc := .calling now expired rest } := by
  obtain ⟨clean, linked, apart, numbered, calling, batch, hrest⟩ := hi
  rw [hpc] at apart calling batch hrest
  constructor
  · exact clean
  · exact linked
  · exact apart
  · exact numbered
  · exact iff_of_true (calling.mpr fun h => by cases h) fun h => by cases h
  · exact batch
  · exact (List.suffix_cons e rest).trans hrest

theorem Inv.reset (hi : Inv s) {now : Int} {expired : List Entry} {q : ZkTimerQueue}
    (hput : Put { s.queue with callingExpiredTimers := false } now (expired.map Entry.timer) q) (hlinked : Linked q [])
    (hapart : Apart q s.pending) (lag : Nat) : Inv { s with
      pc := .idle
      clock := s.clock + lag
      queue := { q with timerfd := q.rearmed s.clock (s.clock + lag) } } := by
  constructor
  · exact hi.clean
  · exact ⟨hlinked.entries, hlinked.live⟩
  · exact ⟨hapart.nodup, hapart.free, hapart.live⟩
  · exact hi.numbered.of_le fun x timer' hx => hput.le hx
  · refine iff_of_false (fun h => ?_) fun h => h rfl
    have hcalling : q.callingExpiredTimers = false := by rw [hput.frame]
    exact Bool.false_ne_true (hcalling.symm.trans h)
  · exact fun _ h => absurd h List.not_mem_nil
  · exact List.suffix_refl _

theorem inv_step (hi : Inv s) (h : Step s a t) : Inv t := by
  cases h with
  | tick d => exact ⟨hi.clean, hi.linked, hi.apart, hi.numbered, hi.calling, hi.batch, hi.rest⟩
  | addTimer hx haddr => exact hi.addTimer hx haddr
  | addTimerInLoop hmem _ hx _ => exact hi.addTimerInLoop hmem hx _
  | cancel _ hs hseq => exact hi.cancel hs hseq
  | note _ _ => exact hi.note _
  | handleRead hpc hcut => exact hi.handleRead hpc hcut
  | run hpc => exact hi.run hpc
  | reset _ hput hlinked hapart => exact hi.reset hput hlinked hapart _

theorem inv_run {acts : List Act} {clock : Int} (h : Lts.run step (St.initial clock) acts = some t) : Inv t :=
  Lts.inv_of_run (fun _ _ _ hi h => inv_step hi (step_inv hi h)) (inv_initial clock) h

end

/-! ## Every run -/

/-- `held`: what the loop still points to has not been deleted. -/
structure Consistent (s : St) : Prop where
  clean : s.fault = none
  paired : ∀ when x, ⟨when, x⟩ ∈ s.queue.timers ↔
    ∃ timer, s.queue.heap x = some timer ∧ ⟨x, timer.sequence⟩ ∈ s.queue.activeTimers ∧ when = timer.expiration
  live : ∀ a ∈ s.queue.activeTimers, ∃ timer, s.queue.heap a.timer = some timer ∧ timer.sequence = a.sequence
  held : ∀ x, x ∈ s.pending ∨ x ∈ s.pc.expired.map Entry.timer → (s.queue.heap x).isSome = true

theorem consistent_of_inv {s : St} (hi : Inv s) : Consistent s where
  clean := hi.clean
  paired when x := by
    refine hi.linked.mem_iff.trans ?_
    constructor
    · rintro ⟨timer, hs, hwhen⟩
      exact ⟨timer, hs.1, hs.2, hwhen.symm⟩
    · rintro ⟨timer, hx, hmem, hwhen⟩
      exact ⟨timer, ⟨hx, hmem⟩, hwhen.symm⟩
  live a ha := by
    obtain ⟨timer, hs, hseq⟩ := hi.linked.live a ha
    exact ⟨timer, hs.1, hseq⟩
  held x hx := by
    obtain ⟨timer, hx⟩ := hi.apart.live x (List.mem_append.mpr hx.symm)
    rw [hx]
    rfl

theorem consistent_throughout (clock : Int) (acts : List Act) :
    Lts.Throughout step Consistent (St.initial clock) acts := by
  intro pre t _ hr
  exact consistent_of_inv (inv_run hr)

end ZkCppClient.Timers
