import ZkCppClient.Timers.Bookkeeping

/-!
# The timer queue is always armed

The descriptor is set where an insertion changes the first entry, and at the end
of `handleRead` where the first entry has a valid expiration. The first entry
has none only if a callback has put it there, and then its insertion has set the
descriptor. What passes between the two readings of the clock makes it late.
-/

namespace ZkCppClient.Timers

/-- Readable, or set to be so by `when` or 100 microseconds after it was set. -/
def Punctual (timerfd : Option Alarm) (now when : Int) : Prop :=
  ∃ alarm ∈ timerfd, alarm.readable now ∨ alarm.deadline ≤ max when (alarm.armedAt + 100)

def AlwaysPunctual (s : St) : Prop :=
  s.pc = .idle → ∀ first ∈ s.queue.timers.first?, Punctual s.queue.timerfd s.clock first.when

/-- The same, with what passed between the two readings of the clock allowed for. -/
def Armed (timerfd : Option Alarm) (now when : Int) : Prop :=
  ∃ alarm ∈ timerfd, alarm.readable now ∨ alarm.deadline ≤ max (when + alarm.lag) (alarm.armedAt + 100)

def AlwaysArmed (s : St) : Prop := s.pc = .idle → ∀ first ∈ s.queue.timers.first?, Armed s.queue.timerfd s.clock first.when

structure ArmedInv (s : St) : Prop where
  positive : 0 < s.clock
  begun : ∀ now expired rest, s.pc = .calling now expired rest → 0 < now
  armed : ∀ e ∈ s.queue.timers, s.pc = .idle ∨ e.when ≤ 0 → Armed s.queue.timerfd s.clock e.when

section
variable {s t : St} {a : Act} {timerfd : Option Alarm} {now now' when when' : Int}

theorem Armed.later (h : Armed timerfd now when) (hnow : now ≤ now') (hwhen : when ≤ when') : Armed timerfd now' when' := by
  obtain ⟨alarm, hmem, h⟩ := h
  refine ⟨alarm, hmem, ?_⟩
  rcases h with h | h
  · exact .inl (le_trans h hnow)
  · exact .inr (by omega)

theorem armed_reset (expiration now setAt clock : Int) : Armed (resetTimerfd expiration now setAt) clock expiration := by
  rw [resetTimerfd_eq]
  exact ⟨_, rfl, .inr (le_refl _)⟩

theorem armedInv_initial (hnow : 0 < now) : ArmedInv (St.initial now) where
  positive := hnow
  begun _ _ _ h := by cases h
  armed _ h := absurd h OrdSet.not_mem_empty

theorem earliest_le {q : ZkTimerQueue} {e : Entry} (h : q.earliest when = true) (he : e ∈ q.timers) : when ≤ e.when := by
  obtain ⟨first, hfirst⟩ := OrdSet.exists_first he
  rw [ZkTimerQueue.earliest, hfirst] at h
  exact (of_decide_eq_true h).le.trans (Entry.when_le (OrdSet.first_le hfirst he))

theorem not_earliest {q : ZkTimerQueue} (h : ¬ q.earliest when = true) : ∃ first ∈ q.timers, first.when ≤ when := by
  unfold ZkTimerQueue.earliest at h
  split at h
  · exact absurd rfl h
  · rename_i first hfirst
    exact ⟨first, OrdSet.first_mem hfirst, not_lt.mp fun hlt => h (decide_eq_true hlt)⟩

theorem armedInv_added (hi : ArmedInv s) {x : Addr} {timer : Timer} (lag : Nat) : ArmedInv { s with
      pending := s.pending.erase x
      clock := s.clock + lag
      queue := s.queue.added x timer s.clock (s.clock + lag) } where
  positive := Int.add_pos_of_pos_of_nonneg hi.positive (Int.natCast_nonneg lag)
  begun := hi.begun
  armed e he hwhen := by
    have hle : s.clock ≤ s.clock + lag := by omega
    unfold ZkTimerQueue.added
    rcases OrdSet.mem_insert.mp he with rfl | he
    · by_cases hearliest : s.queue.earliest timer.expiration = true
      · rw [if_pos hearliest]
        exact armed_reset _ _ _ _
      · obtain ⟨first, hfirst, hfirst'⟩ := not_earliest hearliest
        rw [if_neg hearliest]
        exact (hi.armed first hfirst (hwhen.imp_right hfirst'.trans)).later hle hfirst'
    · by_cases hearliest : s.queue.earliest timer.expiration = true
      · rw [if_pos hearliest]
        exact (armed_reset _ _ _ _).later le_rfl (earliest_le hearliest he)
      · rw [if_neg hearliest]
        exact (hi.armed e he hwhen).later hle le_rfl

theorem armedInv_reset (hi : Inv s) (ha : ArmedInv s) {expired : List Entry} {q : ZkTimerQueue}
    (hpc : s.pc = .calling now expired [])
    (hput : Put { s.queue with callingExpiredTimers := false } now (expired.map Entry.timer) q) (hlinked : Linked q [])
    (lag : Nat) : ArmedInv { s with
      pc := .idle
      clock := s.clock + lag
      queue := { q with timerfd := q.rearmed s.clock (s.clock + lag) } } where
  positive := Int.add_pos_of_pos_of_nonneg ha.positive (Int.natCast_nonneg lag)
  begun _ _ _ h := by cases h
  armed e he _ := by
    obtain ⟨first, hfirst⟩ := OrdSet.exists_first he
    have hle : first.when ≤ e.when := Entry.when_le (OrdSet.first_le hfirst he)
    refine Armed.later ?_ le_rfl hle
    show Armed (q.rearmed s.clock (s.clock + lag)) (s.clock + lag) first.when
    unfold ZkTimerQueue.rearmed
    rw [hfirst]
    dsimp only
    by_cases hvalid : valid first.when = true
    · rw [if_pos hvalid]
      exact armed_reset _ _ _ _
    -- an entry with no valid expiration leaves the descriptor as it was, so it has to be an old one
    · rw [if_neg hvalid]
      have hpast : first.when ≤ 0 := not_lt.mp fun hlt => hvalid (decide_eq_true hlt)
      have hfd : q.timerfd = s.queue.timerfd := by rw [hput.frame]
      rw [hfd]
      have hold : Linked { s.queue with callingExpiredTimers := false } [] := ⟨hi.linked.entries, hi.linked.live⟩
      rcases hput.entry hold hlinked (OrdSet.first_mem hfirst) with ⟨-, hmem⟩ | ⟨timer, delta, -, -, -, -, hwhen⟩
      · have hclock : s.clock ≤ s.clock + lag := by omega
        exact (ha.armed first hmem (.inr hpast)).later hclock le_rfl
      · have hnow := ha.begun _ _ _ hpc
        omega

theorem armedInv_step (hi : Inv s) (ha : ArmedInv s) (h : Step s a t) : ArmedInv t := by
  cases h with
  | tick d =>
    have hle : s.clock ≤ s.clock + d := by omega
    exact ⟨lt_of_lt_of_le ha.positive hle, ha.begun, fun e he hwhen => (ha.armed e he hwhen).later hle le_rfl⟩
  | addTimer hx haddr => exact ⟨ha.positive, ha.begun, ha.armed⟩
  | addTimerInLoop hmem hloop hx hfree => exact armedInv_added ha _
  | cancel hloop hs hseq => exact ⟨ha.positive, ha.begun, fun e he hwhen => ha.armed e (OrdSet.mem_erase.mp he).2 hwhen⟩
  | note hloop hid => exact ⟨ha.positive, ha.begun, ha.armed⟩
  | handleRead hpc hcut =>
    refine ⟨ha.positive, fun now expired rest h => ?_, fun e he hwhen => ?_⟩
    · cases h
      exact ha.positive
    · -- what is left expires after `now`
      have hlater : s.clock < e.when := ((hi.linked.mem_later hi.numbered.addr).mp he).2
      have hpos := ha.positive
      rcases hwhen with h | hwhen
      · cases h
      · omega
  | run hpc =>
    refine ⟨ha.positive, fun now expired rest h => ?_, fun e he hwhen => ?_⟩
    · cases h
      exact ha.begun _ _ _ hpc
    · refine ha.armed e he (.inr (hwhen.resolve_left fun h => ?_))
      cases h
  | reset hpc hput hlinked hapart => exact armedInv_reset hi ha hpc hput hlinked _

theorem alwaysArmed_throughout (clock : Int) (hclock : 0 < clock) (acts : List Act) :
    Lts.Throughout step AlwaysArmed (St.initial clock) acts := by
  intro pre t _ hr hpc first hfirst
  have hinv : Inv t ∧ ArmedInv t := by
    refine Lts.inv_of_run (I := fun s => Inv s ∧ ArmedInv s) ?_ ⟨inv_initial clock, armedInv_initial hclock⟩ hr
    rintro s a u ⟨hi, ha⟩ h
    have hstep := step_inv hi h
    exact ⟨inv_step hi hstep, armedInv_step hi ha hstep⟩
  exact hinv.2.armed first (OrdSet.first_mem hfirst) (.inl hpc)

def zeroAdded : List Act :=
  [.addTimer 8 1500 none, .addTimerInLoop 8 20, .tick 600, .handleRead, .run, .addTimer 16 0 none, .addTimerInLoop 16 10,
    .tick 30, .reset 5]

theorem alwaysArmed_zeroAdded :
    Lts.Throughout step AlwaysArmed (St.initial 1000) zeroAdded ∧
      ∃ t ∈ Lts.run step (St.initial 1000) zeroAdded,
        t.queue.timers.first? = some ⟨0, 16⟩ ∧ t.queue.timerfd = some ⟨1620, 1630, 1730⟩ :=
  ⟨alwaysArmed_throughout 1000 (by decide) zeroAdded, _, rfl, by decide, by decide⟩

/-- The loop's thread is kept off its processor for 50 microseconds between the two readings. -/
def heldUp : List Act := [.addTimer 8 2000 none, .addTimerInLoop 8 50]

theorem not_alwaysPunctual :
    ¬ ∀ clock > 0, ∀ acts, Lts.Throughout step AlwaysPunctual (St.initial clock) acts := by
  intro h
  have hlate : Lts.run step (St.initial 1000) heldUp = some _ := rfl
  obtain ⟨alarm, halarm, hbound⟩ := h 1000 (by decide) heldUp _ _ (List.prefix_refl _) hlate rfl ⟨2000, 8⟩ (by decide)
  have hset : alarm = ⟨1000, 1050, 2050⟩ := (Option.some.inj halarm).symm
  subst hset
  revert hbound
  decide

end

end ZkCppClient.Timers
