import Mathlib.Data.List.Perm.Basic
import ZkCppClient.Timers.Queue

/-!
# The two sets of a timer queue

`Linked` ties `timers_` to `activeTimers_` and both to the heap. While an
operation has taken entries out of the one set and not yet out of the other,
these entries are listed in `cut`. `Apart` is about the timers that are in
neither set: handed to the loop and not yet added, or in the running batch.
-/

namespace ZkCppClient.Timers

open Checked

def ZkTimerQueue.Scheduled (q : ZkTimerQueue) (x : Addr) (timer : Timer) : Prop :=
  q.heap x = some timer ∧ ⟨x, timer.sequence⟩ ∈ q.activeTimers

structure Linked (q : ZkTimerQueue) (cut : List Entry) : Prop where
  entries : ∀ e, e ∈ q.timers ∨ e ∈ cut ↔ ∃ timer, q.Scheduled e.timer timer ∧ timer.expiration = e.when
  live : ∀ a ∈ q.activeTimers, ∃ timer, q.Scheduled a.timer timer ∧ timer.sequence = a.sequence

def ZkTimerQueue.Free (q : ZkTimerQueue) (x : Addr) : Prop := ∀ n, ⟨x, n⟩ ∉ q.activeTimers

structure Apart (q : ZkTimerQueue) (xs : List Addr) : Prop where
  nodup : xs.Nodup
  free : ∀ x ∈ xs, q.Free x
  live : ∀ x ∈ xs, ∃ timer, q.heap x = some timer

section
variable {q q' : ZkTimerQueue} {cut : List Entry} {x : Addr} {timer timer' : Timer} {e : Entry} {xs : List Addr}

theorem scheduled_unique (h : q.Scheduled x timer) (h' : q.heap x = some timer') : timer = timer' :=
  Option.some.inj (h.1.symm.trans h')

theorem mem_of_scheduled {timerId : TimerId} (hs : q.Scheduled timerId.timer timer)
    (hseq : timer.sequence = timerId.sequence) : timerId ∈ q.activeTimers := by
  have hmem := hs.2
  rwa [hseq] at hmem

/-! ## `Linked` -/

theorem linked_create : Linked .create [] where
  entries e := by
    constructor
    · rintro (he | he)
      · exact absurd he OrdSet.not_mem_empty
      · cases he
    · rintro ⟨timer, h, -⟩
      exact absurd h.2 OrdSet.not_mem_empty
  live a ha := absurd ha OrdSet.not_mem_empty

theorem Linked.mem_iff (h : Linked q []) : e ∈ q.timers ↔ ∃ timer, q.Scheduled e.timer timer ∧ timer.expiration = e.when := by
  rw [← h.entries e]
  simp

theorem Linked.not_free (h : Linked q []) (he : e ∈ q.timers) : ¬ q.Free e.timer := by
  obtain ⟨timer, hs, -⟩ := h.mem_iff.mp he
  exact fun hfree => hfree _ hs.2

theorem Linked.entry_inj (h : Linked q cut) {e' : Entry} (he : e ∈ q.timers ∨ e ∈ cut) (he' : e' ∈ q.timers ∨ e' ∈ cut)
    (hx : e.timer = e'.timer) : e = e' := by
  obtain ⟨timer, hs, hwhen⟩ := (h.entries e).mp he
  obtain ⟨timer', hs', hwhen'⟩ := (h.entries e').mp he'
  obtain ⟨when, x⟩ := e
  obtain ⟨when', x'⟩ := e'
  cases hx
  rw [scheduled_unique hs hs'.1] at hwhen
  exact congrArg (Entry.mk · x) (hwhen.symm.trans hwhen')

theorem Linked.active_inj (h : Linked q cut) {a a' : ActiveTimer} (ha : a ∈ q.activeTimers) (ha' : a' ∈ q.activeTimers)
    (hx : a.timer = a'.timer) : a = a' := by
  obtain ⟨timer, hs, hseq⟩ := h.live a ha
  obtain ⟨timer', hs', hseq'⟩ := h.live a' ha'
  obtain ⟨x, n⟩ := a
  obtain ⟨x', n'⟩ := a'
  cases hx
  rw [scheduled_unique hs hs'.1] at hseq
  exact congrArg (ActiveTimer.mk x) (hseq.symm.trans hseq')

theorem Linked.sameSize (h : Linked q []) : q.SameSize := by
  have hentries : (q.timers.elems.map Entry.timer).Nodup :=
    q.timers.nodup.map_on fun e he e' he' => h.entry_inj (.inl he) (.inl he')
  have hactive : (q.activeTimers.elems.map ActiveTimer.timer).Nodup :=
    q.activeTimers.nodup.map_on fun a ha a' ha' => h.active_inj ha ha'
  have hperm : (q.timers.elems.map Entry.timer).Perm (q.activeTimers.elems.map ActiveTimer.timer) := by
    refine (List.perm_ext_iff_of_nodup hentries hactive).mpr fun x => ?_
    rw [List.mem_map, List.mem_map]
    constructor
    · rintro ⟨e, he, rfl⟩
      obtain ⟨timer, hs, -⟩ := h.mem_iff.mp he
      exact ⟨_, hs.2, rfl⟩
    · rintro ⟨a, ha, rfl⟩
      obtain ⟨timer, hs, -⟩ := h.live a ha
      exact ⟨⟨timer.expiration, a.timer⟩, h.mem_iff.mpr ⟨timer, hs, rfl⟩, rfl⟩
  have hlen := hperm.length_eq
  rwa [List.length_map, List.length_map] at hlen

theorem Linked.store (h : Linked q cut) (hfree : q.Free x) (value : Option Timer) : Linked (q.store x value) cut := by
  have hkept : ∀ y timer, (q.store x value).Scheduled y timer ↔ q.Scheduled y timer := by
    intro y timer
    by_cases hy : y = x
    · subst hy
      exact iff_of_false (fun hs => hfree _ hs.2) fun hs => hfree _ hs.2
    · simp [ZkTimerQueue.Scheduled, ZkTimerQueue.store, hy]
  constructor
  · intro e
    simp only [hkept]
    exact h.entries e
  · intro a ha
    simp only [hkept]
    exact h.live a ha

theorem Linked.cutEntry (h : Linked q cut) (he : e ∈ q.timers) : Linked { q with timers := (q.timers.erase e).1 } (e :: cut) where
  entries e' := by
    rw [OrdSet.mem_erase, List.mem_cons]
    refine Iff.trans ?_ (h.entries e')
    by_cases heq : e' = e
    · subst heq
      simp [he]
    · simp [heq]
  live := h.live

theorem Linked.cutBefore (h : Linked q []) (sentry : Entry) :
    Linked { q with timers := q.timers.onward sentry } (q.timers.before sentry) where
  entries e := by
    rw [OrdSet.mem_onward, OrdSet.mem_before, ← and_or_left]
    refine Iff.trans ?_ h.mem_iff
    exact and_iff_left (le_or_gt _ _)
  live := h.live

theorem Linked.erased (h : Linked q (e :: cut)) (hs : q.Scheduled e.timer timer) (hcut : e ∉ cut) (htimers : e ∉ q.timers) :
    Linked { q with activeTimers := (q.activeTimers.erase ⟨e.timer, timer.sequence⟩).1 } cut := by
  have hwhen : timer.expiration = e.when := by
    obtain ⟨timer', hs', hwhen⟩ := (h.entries e).mp (.inr List.mem_cons_self)
    rwa [scheduled_unique hs hs'.1]
  constructor
  · intro e'
    constructor
    · intro he
      obtain ⟨timer', hs', hwhen'⟩ := (h.entries e').mp (he.imp_right (List.mem_cons_of_mem e))
      refine ⟨timer', ⟨hs'.1, OrdSet.mem_erase.mpr ⟨fun heq => ?_, hs'.2⟩⟩, hwhen'⟩
      have hee : e' = e := h.entry_inj (he.imp_right (List.mem_cons_of_mem e)) (.inr List.mem_cons_self)
        (congrArg ActiveTimer.timer heq)
      subst hee
      exact he.elim htimers hcut
    · rintro ⟨timer', ⟨hx, hmem⟩, hwhen'⟩
      obtain ⟨hne, hmem⟩ := OrdSet.mem_erase.mp hmem
      rcases (h.entries e').mpr ⟨timer', ⟨hx, hmem⟩, hwhen'⟩ with he | he
      · exact .inl he
      · rcases List.mem_cons.mp he with rfl | he
        · exact absurd (by rw [scheduled_unique hs hx]) hne
        · exact .inr he
  · intro a ha
    obtain ⟨hne, ha⟩ := OrdSet.mem_erase.mp ha
    obtain ⟨timer', hs', hseq⟩ := h.live a ha
    refine ⟨timer', ⟨hs'.1, OrdSet.mem_erase.mpr ⟨?_, hs'.2⟩⟩, hseq⟩
    rwa [hseq]

/-! ## `insert` and `addTimerInLoop` -/

def ZkTimerQueue.inserted (q : ZkTimerQueue) (x : Addr) (timer : Timer) : ZkTimerQueue :=
  { q with
    timers := (q.timers.insert ⟨timer.expiration, x⟩).1
    activeTimers := (q.activeTimers.insert ⟨x, timer.sequence⟩).1 }

theorem Linked.inserted (h : Linked q cut) (hx : q.heap x = some timer) : Linked (q.inserted x timer) cut where
  entries e := by
    unfold ZkTimerQueue.inserted ZkTimerQueue.Scheduled
    simp only [OrdSet.mem_insert]
    constructor
    · rintro ((rfl | he) | he)
      · exact ⟨timer, ⟨hx, .inl rfl⟩, rfl⟩
      · obtain ⟨timer', hs, hwhen⟩ := (h.entries e).mp (.inl he)
        exact ⟨timer', ⟨hs.1, .inr hs.2⟩, hwhen⟩
      · obtain ⟨timer', hs, hwhen⟩ := (h.entries e).mp (.inr he)
        exact ⟨timer', ⟨hs.1, .inr hs.2⟩, hwhen⟩
    · rintro ⟨timer', ⟨hx', heq | hmem⟩, hwhen⟩
      · obtain ⟨when, y⟩ := e
        cases congrArg ActiveTimer.timer heq
        cases Option.some.inj (hx.symm.trans hx')
        exact .inl (.inl (congrArg (Entry.mk · x) hwhen.symm))
      · rcases (h.entries e).mpr ⟨timer', ⟨hx', hmem⟩, hwhen⟩ with he | he
        · exact .inl (.inr he)
        · exact .inr he
  live a ha := by
    unfold ZkTimerQueue.inserted ZkTimerQueue.Scheduled
    simp only [OrdSet.mem_insert]
    rcases OrdSet.mem_insert.mp ha with rfl | ha
    · exact ⟨timer, ⟨hx, .inl rfl⟩, rfl⟩
    · obtain ⟨timer', hs, hseq⟩ := h.live a ha
      exact ⟨timer', ⟨hs.1, .inr hs.2⟩, hseq⟩

theorem deref_eq (hx : q.heap x = some timer) : q.deref x = .ok timer := by rw [ZkTimerQueue.deref, hx]

theorem delete_eq (hx : q.heap x = some timer) : q.delete x = .ok (q.store x none) := by rw [ZkTimerQueue.delete, hx]

theorem insert_eq (h : Linked q []) (hx : q.heap x = some timer) (hfree : q.Free x) :
    q.insert x = .ok (q.earliest timer.expiration, q.inserted x timer) := by
  have hentry : ⟨timer.expiration, x⟩ ∉ q.timers := fun he => h.not_free he hfree
  have hnew : (q.timers.insert ⟨timer.expiration, x⟩).2 = true := (OrdSet.insert_new hentry).1
  have hnew' : (q.activeTimers.insert ⟨x, timer.sequence⟩).2 = true := (OrdSet.insert_new (hfree _)).1
  have hsize : (q.inserted x timer).SameSize := (h.inserted hx).sameSize
  unfold ZkTimerQueue.insert
  rw [check_bind h.sameSize, deref_eq hx, ok_bind]
  dsimp only
  rw [check_bind hnew, check_bind hnew']
  exact check_bind hsize _

def ZkTimerQueue.added (q : ZkTimerQueue) (x : Addr) (timer : Timer) (now setAt : Int) : ZkTimerQueue :=
  { q.inserted x timer with
    timerfd := if q.earliest timer.expiration then resetTimerfd timer.expiration now setAt else q.timerfd }

theorem addTimerInLoop_eq (h : Linked q []) (hx : q.heap x = some timer) (hfree : q.Free x) (now setAt : Int) :
    q.addTimerInLoop x now setAt = .ok (q.added x timer now setAt) := by
  have hx' : (q.inserted x timer).deref x = .ok timer := deref_eq hx
  unfold ZkTimerQueue.addTimerInLoop ZkTimerQueue.added
  rw [insert_eq h hx hfree, ok_bind]
  dsimp only
  by_cases hearliest : q.earliest timer.expiration = true
  · rw [if_pos hearliest, if_pos hearliest, hx']
    rfl
  · rw [if_neg hearliest, if_neg hearliest]
    rfl

/-! ## `cancelInLoop` -/

def ZkTimerQueue.cancelled (q : ZkTimerQueue) (timerId : TimerId) (timer : Timer) : ZkTimerQueue :=
  { q.store timerId.timer none with
    timers := (q.timers.erase ⟨timer.expiration, timerId.timer⟩).1
    activeTimers := (q.activeTimers.erase timerId).1 }

theorem Linked.free_erased (h : Linked q cut) {a : ActiveTimer} (ha : a ∈ q.activeTimers) :
    ({ q with activeTimers := (q.activeTimers.erase a).1 } : ZkTimerQueue).Free a.timer := by
  intro n hmem
  obtain ⟨hne, hmem⟩ := OrdSet.mem_erase.mp hmem
  exact hne (h.active_inj hmem ha rfl)

theorem Linked.cancelled {timerId : TimerId} (h : Linked q []) (hs : q.Scheduled timerId.timer timer)
    (hseq : timer.sequence = timerId.sequence) : Linked (q.cancelled timerId timer) [] := by
  obtain ⟨x, n⟩ := timerId
  cases hseq
  have hentry : ⟨timer.expiration, x⟩ ∈ q.timers := h.mem_iff.mpr ⟨timer, hs, rfl⟩
  have hcut := (h.cutEntry hentry).erased hs List.not_mem_nil fun he => (OrdSet.mem_erase.mp he).1 rfl
  exact hcut.store (h.free_erased hs.2) none

theorem cancelInLoop_scheduled {timerId : TimerId} (h : Linked q []) (hs : q.Scheduled timerId.timer timer)
    (hseq : timer.sequence = timerId.sequence) : q.cancelInLoop timerId = .ok (q.cancelled timerId timer) := by
  have hid := mem_of_scheduled hs hseq
  have hone : (q.timers.erase ⟨timer.expiration, timerId.timer⟩).2 = 1 :=
    OrdSet.erase_mem (h.mem_iff.mpr ⟨timer, hs, rfl⟩)
  have hdelete : ({ q with timers := (q.timers.erase ⟨timer.expiration, timerId.timer⟩).1 } : ZkTimerQueue).delete
      timerId.timer = .ok { q.store timerId.timer none with
        timers := (q.timers.erase ⟨timer.expiration, timerId.timer⟩).1 } := delete_eq hs.1
  have hsize : (q.cancelled timerId timer).SameSize := (h.cancelled hs hseq).sameSize
  unfold ZkTimerQueue.cancelInLoop
  rw [check_bind h.sameSize, if_pos hid, deref_eq hs.1, ok_bind]
  dsimp only
  rw [check_bind hone, hdelete, ok_bind]
  exact check_bind hsize _

/-- The identifier of a timer that is not in `timers_`. -/
def ZkTimerQueue.noted (q : ZkTimerQueue) (timerId : TimerId) : ZkTimerQueue :=
  { q with
    cancelingTimers := if q.callingExpiredTimers then (q.cancelingTimers.insert timerId).1 else q.cancelingTimers }

theorem cancelInLoop_noted {timerId : TimerId} (h : Linked q []) (hid : timerId ∉ q.activeTimers) :
    q.cancelInLoop timerId = .ok (q.noted timerId) := by
  unfold ZkTimerQueue.cancelInLoop ZkTimerQueue.noted
  rw [check_bind h.sameSize, if_neg hid]
  by_cases hcalling : q.callingExpiredTimers = true
  · rw [if_pos hcalling, if_pos hcalling]
    exact check_bind h.sameSize _
  · rw [if_neg hcalling, if_neg hcalling]
    exact check_bind h.sameSize _

/-! ## `getExpired` -/

def ZkTimerQueue.due (q : ZkTimerQueue) (now : Int) : List Entry := q.timers.before ⟨now, UINTPTR_MAX⟩

def ZkTimerQueue.expiredCut (q : ZkTimerQueue) (now : Int) (activeTimers : OrdSet ActiveTimer) : ZkTimerQueue :=
  { q with timers := q.timers.onward ⟨now, UINTPTR_MAX⟩, activeTimers := activeTimers }

theorem Linked.addr (h : Linked q []) (haddr : ∀ x timer, q.heap x = some timer → x < UINTPTR_MAX) (he : e ∈ q.timers) :
    e.timer < UINTPTR_MAX := by
  obtain ⟨timer, hs, -⟩ := h.mem_iff.mp he
  exact haddr _ _ hs.1

theorem lt_sentry {now : Int} (haddr : e.timer < UINTPTR_MAX) : e < ⟨now, UINTPTR_MAX⟩ ↔ e.when ≤ now := by
  rw [Entry.lt_iff, le_iff_lt_or_eq]
  simp [haddr]

theorem Linked.mem_due (h : Linked q []) (haddr : ∀ x timer, q.heap x = some timer → x < UINTPTR_MAX) {now : Int} :
    e ∈ q.due now ↔ e ∈ q.timers ∧ e.when ≤ now := by
  unfold ZkTimerQueue.due
  rw [OrdSet.mem_before]
  exact and_congr_right fun he => lt_sentry (h.addr haddr he)

theorem Linked.mem_later (h : Linked q []) (haddr : ∀ x timer, q.heap x = some timer → x < UINTPTR_MAX) {now : Int} :
    e ∈ q.timers.onward ⟨now, UINTPTR_MAX⟩ ↔ e ∈ q.timers ∧ now < e.when := by
  rw [OrdSet.mem_onward]
  refine and_congr_right fun he => ?_
  rw [← not_lt, lt_sentry (h.addr haddr he), not_le]

theorem eraseActive_loop (h : Linked q []) (now : Int) :
    ∃ activeTimers, (q.due now).foldlM ZkTimerQueue.eraseActive (q.expiredCut now q.activeTimers) =
      .ok (q.expiredCut now activeTimers) ∧ Linked (q.expiredCut now activeTimers) [] := by
  let I (l : List Entry) (r : ZkTimerQueue) : Prop := Linked r l ∧ l.Nodup ∧
    (∀ e ∈ l, e ∉ r.timers) ∧ r = q.expiredCut now r.activeTimers
  have hloop := foldlM_ok (I := I) (f := ZkTimerQueue.eraseActive) ?_ (q.due now) (b := q.expiredCut now q.activeTimers) ?_
  · obtain ⟨r, hr, hlinked, -, -, heq⟩ := hloop
    rw [heq] at hr hlinked
    exact ⟨r.activeTimers, hr, hlinked⟩
  · rintro e l r ⟨hlinked, hnodup, hout, heq⟩
    obtain ⟨hnot, hnodup⟩ := List.nodup_cons.mp hnodup
    have hentry := hout e List.mem_cons_self
    obtain ⟨timer, hs, -⟩ := (hlinked.entries e).mp (.inr List.mem_cons_self)
    refine ⟨{ r with activeTimers := (r.activeTimers.erase ⟨e.timer, timer.sequence⟩).1 }, ?_, ?_⟩
    · unfold ZkTimerQueue.eraseActive
      rw [deref_eq hs.1, ok_bind]
      exact check_bind (OrdSet.erase_mem hs.2) _
    · refine ⟨hlinked.erased hs hnot hentry, hnodup, fun e' he' => hout e' (List.mem_cons_of_mem e he'), ?_⟩
      rw [heq]
      rfl
  · refine ⟨h.cutBefore _, (q.timers.before_sorted _).imp ne_of_lt, fun e he hlater => ?_, rfl⟩
    exact absurd (OrdSet.mem_before.mp he).2 (not_lt_of_ge (OrdSet.mem_onward.mp hlater).2)

theorem getExpired_eq (h : Linked q []) (haddr : ∀ x timer, q.heap x = some timer → x < UINTPTR_MAX) (now : Int) :
    ∃ activeTimers, q.getExpired now = .ok (q.due now, q.expiredCut now activeTimers) ∧
      Linked (q.expiredCut now activeTimers) [] := by
  obtain ⟨activeTimers, hloop, hlinked⟩ := eraseActive_loop h now
  have hend : ∀ e ∈ (q.timers.onward ⟨now, UINTPTR_MAX⟩).first?, now < e.when := fun e he =>
    ((h.mem_later haddr).mp (OrdSet.first_mem he)).2
  refine ⟨activeTimers, ?_, hlinked⟩
  unfold ZkTimerQueue.getExpired
  rw [check_bind h.sameSize]
  dsimp only
  rw [check_bind hend]
  unfold ZkTimerQueue.due ZkTimerQueue.expiredCut at hloop
  rw [hloop, ok_bind]
  exact check_bind hlinked.sameSize _

theorem Linked.due_free (h : Linked q []) (haddr : ∀ x timer, q.heap x = some timer → x < UINTPTR_MAX) {now : Int}
    {activeTimers : OrdSet ActiveTimer} (hcut : Linked (q.expiredCut now activeTimers) []) (he : e ∈ q.due now) :
    (q.expiredCut now activeTimers).Free e.timer := by
  intro n hmem
  obtain ⟨hmem', hle⟩ := (h.mem_due haddr).mp he
  obtain ⟨timer, hs, -⟩ := hcut.live _ hmem
  have hlater : ⟨timer.expiration, e.timer⟩ ∈ (q.expiredCut now activeTimers).timers := hcut.mem_iff.mpr ⟨timer, hs, rfl⟩
  obtain ⟨hlater, hlt⟩ := (h.mem_later haddr).mp hlater
  have heq := h.entry_inj (.inl hmem') (.inl hlater) rfl
  rw [heq] at hle
  exact absurd hlt (not_lt_of_ge hle)

/-! ## `Apart` -/

theorem Apart.perm {ys : List Addr} (h : Apart q xs) (hp : xs.Perm ys) : Apart q ys where
  nodup := hp.nodup_iff.mp h.nodup
  free y hy := h.free y (hp.mem_iff.mpr hy)
  live y hy := h.live y (hp.mem_iff.mpr hy)

theorem Apart.tail (h : Apart q (x :: xs)) : Apart q xs where
  nodup := (List.nodup_cons.mp h.nodup).2
  free y hy := h.free y (List.mem_cons_of_mem x hy)
  live y hy := h.live y (List.mem_cons_of_mem x hy)

theorem Apart.store_some (h : Apart q xs) : Apart (q.store x (some timer)) xs where
  nodup := h.nodup
  free := h.free
  live y hy := by
    by_cases hyx : y = x
    · exact ⟨timer, by simp [ZkTimerQueue.store, hyx]⟩
    · obtain ⟨timer', ht⟩ := h.live y hy
      exact ⟨timer', by simpa [ZkTimerQueue.store, hyx] using ht⟩

theorem Apart.store_none (h : Apart q xs) (hx : x ∉ xs) : Apart (q.store x none) xs where
  nodup := h.nodup
  free := h.free
  live y hy := by
    obtain ⟨timer', ht⟩ := h.live y hy
    exact ⟨timer', by simpa [ZkTimerQueue.store, ne_of_mem_of_not_mem hy hx] using ht⟩

theorem Apart.inserted (h : Apart q xs) (hx : x ∉ xs) : Apart (q.inserted x timer) xs where
  nodup := h.nodup
  free y hy n hmem := by
    rcases OrdSet.mem_insert.mp hmem with heq | hmem
    · exact ne_of_mem_of_not_mem hy hx (congrArg ActiveTimer.timer heq)
    · exact h.free y hy n hmem
  live := h.live

theorem Apart.cancelled {timerId : TimerId} (h : Apart q xs) (hid : timerId ∈ q.activeTimers) :
    Apart (q.cancelled timerId timer) xs := by
  have hx : timerId.timer ∉ xs := fun hmem => h.free _ hmem timerId.sequence hid
  have hs := h.store_none hx
  exact ⟨hs.nodup, fun y hy n hmem => hs.free y hy n (OrdSet.mem_erase.mp hmem).2, hs.live⟩

/-! ## `reset` -/

/-- What becomes of the timer at `x` if it is in the batch. -/
def ZkTimerQueue.kept (q : ZkTimerQueue) (now : Int) (x : Addr) : Option Timer :=
  (q.heap x).bind fun timer =>
    if timer.repeat_ ∧ ⟨x, timer.sequence⟩ ∉ q.cancelingTimers then some (timer.restart now) else none

/-- From `q` to `q'` the loop of `reset` has dealt with the timers at `xs`. -/
structure Put (q : ZkTimerQueue) (now : Int) (xs : List Addr) (q' : ZkTimerQueue) : Prop where
  frame : q' = { q with timers := q'.timers, activeTimers := q'.activeTimers, heap := q'.heap }
  heap : ∀ y, q'.heap y = if y ∈ xs then q.kept now y else q.heap y
  scheduled : ∀ y timer, q'.Scheduled y timer ↔ if y ∈ xs then q'.heap y = some timer else q.Scheduled y timer

theorem put_nil (q : ZkTimerQueue) (now : Int) : Put q now [] q := by
  constructor <;> simp

theorem kept_some {now : Int} (hx : q.heap x = some timer)
    (hon : timer.repeat_ ∧ ⟨x, timer.sequence⟩ ∉ q.cancelingTimers) : q.kept now x = some (timer.restart now) := by
  rw [ZkTimerQueue.kept, hx, Option.bind_some, if_pos hon]

theorem kept_none {now : Int} (hx : q.heap x = some timer)
    (hoff : ¬ (timer.repeat_ ∧ ⟨x, timer.sequence⟩ ∉ q.cancelingTimers)) : q.kept now x = none := by
  rw [ZkTimerQueue.kept, hx, Option.bind_some, if_neg hoff]

theorem Put.restart {now : Int} (h : Put q now xs q') (hx : x ∉ xs) (hq : q'.heap x = some timer)
    (hon : timer.repeat_ ∧ ⟨x, timer.sequence⟩ ∉ q'.cancelingTimers) :
    Put q now (xs ++ [x]) ((q'.store x (some (timer.restart now))).inserted x (timer.restart now)) := by
  have hold : q.heap x = some timer := by rw [← hq, h.heap x, if_neg hx]
  have hkept : q.kept now x = some (timer.restart now) := by
    refine kept_some hold ?_
    rw [h.frame] at hon
    exact hon
  constructor
  · rw [h.frame]
    rfl
  · intro y
    by_cases hy : y = x
    · subst hy
      simp [ZkTimerQueue.inserted, ZkTimerQueue.store, hkept]
    · simpa [ZkTimerQueue.inserted, ZkTimerQueue.store, hy] using h.heap y
  · intro y timer'
    by_cases hy : y = x
    · subst hy
      rw [if_pos (by simp)]
      refine and_iff_left_of_imp fun heap => OrdSet.mem_insert.mpr (.inl ?_)
      simp only [ZkTimerQueue.inserted, ZkTimerQueue.store, Function.update_self, Option.some.injEq] at heap
      rw [heap]
    · have hs := h.scheduled y timer'
      simp only [ZkTimerQueue.Scheduled, ZkTimerQueue.inserted, ZkTimerQueue.store, Function.update_of_ne hy,
        OrdSet.mem_insert, ActiveTimer.mk.injEq, hy, false_and, false_or, List.mem_append, List.mem_singleton,
        or_false] at hs ⊢
      exact hs

theorem Put.delete {now : Int} (h : Put q now xs q') (hx : x ∉ xs) (hq : q'.heap x = some timer)
    (hoff : ¬ (timer.repeat_ ∧ ⟨x, timer.sequence⟩ ∉ q'.cancelingTimers)) :
    Put q now (xs ++ [x]) (q'.store x none) := by
  have hold : q.heap x = some timer := by rw [← hq, h.heap x, if_neg hx]
  have hkept : q.kept now x = none := by
    refine kept_none hold ?_
    rw [h.frame] at hoff
    exact hoff
  constructor
  · rw [h.frame]
    rfl
  · intro y
    by_cases hy : y = x
    · subst hy
      simp [ZkTimerQueue.store, hkept]
    · simpa [ZkTimerQueue.store, hy] using h.heap y
  · intro y timer'
    by_cases hy : y = x
    · subst hy
      simp [ZkTimerQueue.Scheduled, ZkTimerQueue.store]
    · have hs := h.scheduled y timer'
      simp only [ZkTimerQueue.Scheduled, ZkTimerQueue.store, Function.update_of_ne hy, hy, List.mem_append,
        List.mem_singleton, or_false] at hs ⊢
      exact hs

theorem Put.entry {now : Int} (h : Put q now xs q') (hlinked : Linked q []) (hlinked' : Linked q' []) (he : e ∈ q'.timers) :
    (e.timer ∉ xs ∧ e ∈ q.timers) ∨ ∃ timer delta, e.timer ∈ xs ∧ q.heap e.timer = some timer ∧
      timer.interval = some delta ∧ ⟨e.timer, timer.sequence⟩ ∉ q.cancelingTimers ∧ e.when = now + delta := by
  obtain ⟨timer', hs, hwhen⟩ := hlinked'.mem_iff.mp he
  by_cases hmem : e.timer ∈ xs
  · right
    have hx := hs.1
    rw [h.heap, if_pos hmem] at hx
    obtain ⟨timer, hold, hx⟩ := Option.bind_eq_some_iff.mp hx
    split at hx
    · rename_i hon
      obtain ⟨delta, hdelta⟩ := Option.isSome_iff_exists.mp hon.1
      cases hx
      refine ⟨timer, delta, hmem, hold, hdelta, hon.2, ?_⟩
      rw [← hwhen, Timer.restart, hdelta]
    · cases hx
  · left
    rw [h.scheduled, if_neg hmem] at hs
    exact ⟨hmem, hlinked.mem_iff.mpr ⟨timer', hs, hwhen⟩⟩

theorem resetOne_loop (now : Int) {others : List Addr} (h : Linked q []) {expired : List Entry}
    (hapart : Apart q (expired.map Entry.timer ++ others)) :
    ∃ q', expired.foldlM (ZkTimerQueue.resetOne now) q = .ok q' ∧ Put q now (expired.map Entry.timer) q' ∧
      Linked q' [] ∧ Apart q' others := by
  -- the timers at `xs` are dealt with, and those of `l` are still apart from the sets
  let I (l : List Entry) (r : ZkTimerQueue) : Prop := Linked r [] ∧ Apart r (l.map Entry.timer ++ others) ∧
    ∃ xs, xs ++ l.map Entry.timer = expired.map Entry.timer ∧ Put q now xs r
  have hloop := foldlM_ok (I := I) (f := ZkTimerQueue.resetOne now) ?_ expired (b := q) ?_
  · obtain ⟨r, hr, hlinked, happart, xs, hxs, hput⟩ := hloop
    rw [List.map_nil, List.append_nil] at hxs
    subst hxs
    exact ⟨r, hr, hput, hlinked, happart⟩
  · rintro e l r ⟨hlinked, hr, xs, hxs, hput⟩
    have hnew : e.timer ∉ l.map Entry.timer ++ others := (List.nodup_cons.mp hr.nodup).1
    have hfree : r.Free e.timer := hr.free e.timer List.mem_cons_self
    obtain ⟨timer, hx⟩ := hr.live e.timer List.mem_cons_self
    have hnot : e.timer ∉ xs := by
      have hnodup : (xs ++ e.timer :: l.map Entry.timer).Nodup := by
        rw [← List.map_cons, hxs]
        exact (List.nodup_append.mp hapart.nodup).1
      intro hmem
      exact (List.nodup_append.mp hnodup).2.2 _ hmem _ List.mem_cons_self rfl
    have hnext : (xs ++ [e.timer]) ++ l.map Entry.timer = expired.map Entry.timer := by
      rw [← hxs, List.append_assoc]
      rfl
    unfold ZkTimerQueue.resetOne
    rw [deref_eq hx, ok_bind]
    by_cases hon : timer.repeat_ ∧ ⟨e.timer, timer.sequence⟩ ∉ r.cancelingTimers
    · have hstored : (r.store e.timer (some (timer.restart now))).heap e.timer = some (timer.restart now) := by
        simp [ZkTimerQueue.store]
      have hlinked' := hlinked.store hfree (some (timer.restart now))
      refine ⟨_, ?_, hlinked'.inserted hstored, (hr.tail.store_some).inserted hnew, xs ++ [e.timer], hnext,
        hput.restart hnot hx hon⟩
      rw [if_pos hon, insert_eq hlinked' hstored hfree]
      rfl
    · refine ⟨_, ?_, hlinked.store hfree none, hr.tail.store_none hnew, xs ++ [e.timer], hnext,
        hput.delete hnot hx hon⟩
      rw [if_neg hon, delete_eq hx]
  · exact ⟨h, hapart, [], rfl, put_nil q now⟩

def ZkTimerQueue.rearmed (q : ZkTimerQueue) (clock setAt : Int) : Option Alarm :=
  match q.timers.first? with
  | none => q.timerfd
  | some first => if valid first.when then resetTimerfd first.when clock setAt else q.timerfd

theorem reset_eq (now : Int) {others : List Addr} (h : Linked q []) {expired : List Entry}
    (hapart : Apart q (expired.map Entry.timer ++ others)) (clock setAt : Int) :
    ∃ q', q.reset expired now clock setAt = .ok { q' with timerfd := q'.rearmed clock setAt } ∧
      Put q now (expired.map Entry.timer) q' ∧ Linked q' [] ∧ Apart q' others := by
  obtain ⟨q', hloop, hput, hlinked, hother⟩ := resetOne_loop now h hapart
  refine ⟨q', ?_, hput, hlinked, hother⟩
  unfold ZkTimerQueue.reset ZkTimerQueue.rearmed
  rw [hloop, ok_bind]
  cases hfirst : q'.timers.first? with
  | none => rfl
  | some first =>
    obtain ⟨timer, hs, hwhen⟩ := hlinked.mem_iff.mp (OrdSet.first_mem hfirst)
    dsimp only
    rw [deref_eq hs.1, ok_bind, hwhen]
    by_cases hvalid : valid first.when = true
    · rw [if_pos hvalid]
      exact if_pos hvalid
    · rw [if_neg hvalid]
      exact if_neg hvalid

end

end ZkCppClient.Timers
