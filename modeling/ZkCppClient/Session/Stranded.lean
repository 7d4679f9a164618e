import Mathlib.Logic.Function.Basic
import ZkCppClient.Session.WakeUp

/-!
# The second thread of all clients

One second thread runs `retry` for every client of the process, and waits in
`reconnect` until an event of the client's new handle wakes it. `sessionWatcher`
gets at the waiting client through the registry only, so the event of a client
that has been destroyed in the meantime wakes nobody.
-/

namespace ZkCppClient.Session

/-- `second` is the client that the second thread is in `retry` for. -/
structure Process where
  clients : Nat → St
  second : Option Nat

def Process.initial (timeout : Nat → Int) (expiredHandler : Nat → Bool) (now : Int) : Process where
  clients h := St.initial (timeout h) (expiredHandler h) now
  second := none

inductive ProcessAct
  | tick (d : Nat)
  | client (h : Nat) (a : Act)
  deriving DecidableEq, Repr

def ProcessAct.of (h : Nat) : Act → ProcessAct
  | .tick d => .tick d
  | a => .client h a

def St.onSecond (s : St) : Bool := s.waiter.any (·.who == .second)

def Process.move (p : Process) (h : Nat) (a : Act) : Option Process :=
  (step (p.clients h) a).map fun s =>
    { clients := Function.update p.clients h s
      second := if s.onSecond then some h else if p.second = some h then none else p.second }

def processStep (p : Process) : ProcessAct → Option Process
  | .tick d => some { p with clients := fun h => { p.clients h with now := (p.clients h).now + d } }
  | .client _ (.tick _) => none
  | .client h (.retry i) => if p.second.isSome then none else p.move h (.retry i)
  | .client h a => p.move h a

/-- The call of `sessionWatcher` that is under way goes on to its end. -/
def St.settled (s : St) : St :=
  let call (s : St) : St := (step s .watcher).getD s
  call (call (call s))

def St.parkedSecond (s : St) : Bool := s.onSecond && Waiter.parked s.waiter

/-- Where the second thread is parked, an event of the current handle that ends the wait unparks it. -/
def Woken (s : St) : Prop :=
  s.parkedSecond = true → ∃ zh, s.client.zhandle = some zh ∧ ∀ state recvTimeout, SessState.final state = true →
    ∃ t, step s.settled (.deliver zh state recvTimeout) = some t ∧ t.settled.parkedSecond = false

/-- The client is not destroyed while the second thread is parked for it, unless
the event that wakes it is already recorded, and the second thread does not park
for a client that has been destroyed. -/
def StaysRegistered (s : St) : Act → Prop
  | .destroyClient => s.parkedSecond = true → s.watcher.any (·.state.final) = true
  | .park => s.onSecond = true → s.registered = true
  | _ => True

def ProcessGuard (p : Process) : ProcessAct → Prop
  | .tick _ => True
  | .client h a => StaysRegistered (p.clients h) a

instance (s : St) : ∀ a, Decidable (StaysRegistered s a)
  | .destroyClient => inferInstanceAs (Decidable (_ → _))
  | .park => inferInstanceAs (Decidable (_ → _))
  | .tick _ | .zookeeperInit _ | .zookeeperInitReturn | .testState | .wakeUp | .leaveWait | .finish | .retry _
  | .deliver _ _ _ | .watcher | .checkSessionState | .check | .readCurrentMs | .readSessDisconn | .readSessTimeout
  | .setIsSupportReconnect _ | .destruct => isTrue trivial

instance (p : Process) : ∀ a, Decidable (ProcessGuard p a)
  | .tick _ => isTrue trivial
  | .client _ _ => inferInstanceAs (Decidable (StaysRegistered _ _))

/-! ## A call of `sessionWatcher` -/

section
variable {s t : St}

theorem settled_none (hw : s.watcher = none) : s.settled = s := by
  have hcall : (step s .watcher).getD s = s := by
    simp only [step, hw]
    rfl
  unfold St.settled
  simp only [hcall]

theorem settled_some {w : Watcher} (hw : s.watcher = some w) : s.settled.watcher = none ∧
    s.settled.waiter = (if w.state.final then notify s.waiter else s.waiter) ∧
      s.settled.registered = s.registered ∧ s.settled.opened = s.opened := by
  obtain ⟨zh, state, recvTimeout, pc⟩ := w
  cases pc <;> cases state <;> simp [St.settled, step, hw, sessionWatcher, St.setSessStat]

theorem parkedSecond_of_waiter (h : t.waiter = s.waiter) : t.parkedSecond = s.parkedSecond := by
  unfold St.parkedSecond St.onSecond
  rw [h]

theorem parkedSecond_awake (h : Waiter.parked s.waiter = false) : s.parkedSecond = false := by
  rw [St.parkedSecond, h, Bool.and_false]

theorem parkedSecond_settled : s.settled.parkedSecond = (s.parkedSecond && !s.watcher.any (·.state.final)) := by
  cases hw : s.watcher with
  | none =>
    rw [settled_none hw]
    simp
  | some w =>
    obtain ⟨-, hwaiter, -, -⟩ := settled_some hw
    cases hf : w.state.final with
    | true =>
      rw [hf, if_pos rfl] at hwaiter
      have hawake := parked_notify s.waiter
      rw [← hwaiter] at hawake
      rw [parkedSecond_awake hawake]
      simp [hf]
    | false =>
      rw [hf] at hwaiter
      rw [parkedSecond_of_waiter hwaiter]
      simp [hf]

theorem settled_free (s : St) : s.settled.watcher = none ∧ s.settled.registered = s.registered ∧
    s.settled.opened = s.opened ∧ Waiter.holds s.settled.waiter = Waiter.holds s.waiter := by
  cases hw : s.watcher with
  | none =>
    rw [settled_none hw]
    exact ⟨hw, rfl, rfl, rfl⟩
  | some w =>
    obtain ⟨hfree, hwaiter, hreg, hopened⟩ := settled_some hw
    refine ⟨hfree, hreg, hopened, ?_⟩
    rw [hwaiter]
    split
    · exact holds_notify s.waiter
    · rfl

/-! ## The handle that is waited for -/

def WaitPc.awaited : WaitPc → Option Handle
  | .waiting zh | .tested zh | .parked zh | .leaving zh => some zh
  | .start | .calling _ | .done _ => none

def AwaitedInv (s : St) : Prop :=
  ∀ w ∈ s.waiter, ∀ zh ∈ w.pc.awaited, s.client.zhandle = some zh ∧ zh ∈ s.opened

theorem awaited_congr (hi : AwaitedInv s) (hwaiter : t.waiter = s.waiter ∨ t.waiter = notify s.waiter)
    (hzh : t.client.zhandle = s.client.zhandle) (hopened : t.opened = s.opened) : AwaitedInv t := by
  intro w hw zh hz
  rw [hzh, hopened]
  rcases hwaiter with heq | heq
  · exact hi w (heq ▸ hw) zh hz
  · rw [heq] at hw
    unfold notify at hw
    split at hw
    · rename_i hold
      cases hw
      exact hi _ hold zh hz
    · exact hi w hw zh hz

theorem awaited_moved (hi : AwaitedInv s) {w : Waiter} (hold : s.waiter = some w) {pc : WaitPc}
    (hnew : t.waiter = some ⟨w.who, pc⟩) (hpc : ∀ zh ∈ pc.awaited, zh ∈ w.pc.awaited)
    (hzh : t.client.zhandle = s.client.zhandle) (hopened : t.opened = s.opened) : AwaitedInv t := by
  intro w' hw' zh hz
  rw [hnew] at hw'
  cases hw'
  rw [hzh, hopened]
  exact hi w hold zh (hpc zh hz)

theorem awaited_done (h : ∀ w ∈ t.waiter, w.pc.awaited = none) : AwaitedInv t := by
  intro w hw zh hz
  rw [h w hw] at hz
  cases hz

theorem awaited_step {a : Act} (hi : AwaitedInv s) (h : step s a = some t) : AwaitedInv t := by
  cases step_inv h with
  | dropped _ => exact hi
  | @watcher w hw =>
    obtain ⟨_, _, _, _, _, heq⟩ := sessionWatcher_eq s w
    rw [heq]
    refine awaited_congr hi ?_ rfl rfl
    simp only
    split
    · exact .inr rfl
    · exact .inl rfl
  | callOk _ | callFail _ | returnFail _ | leaveInit _ | leaveReconnect _ | retry _ _ =>
    exact awaited_done fun w hw => by cases hw; rfl
  | retryGone _ _ => exact awaited_done nofun
  | @finishInit ok _ => cases ok <;> exact awaited_done nofun
  | @finishRetry ok _ =>
    obtain ⟨_, _, _, _, he⟩ := finishRetry_eq s ok
    rw [he]
    exact awaited_done nofun
  | @returnOk who zh _ =>  -- the handle is stored and opened in one step
    intro w hw zh' hz
    cases hw
    cases hz
    exact ⟨rfl, List.mem_cons_self⟩
  | testLeave hw _ _ | testHold hw _ _ | park hw | wakeUp hw => exact awaited_moved hi hw rfl (fun _ hz => hz) rfl rfl
  | expired _ =>
    obtain ⟨_, _, _, _, _, he⟩ := sessionExpired_eq s
    rw [he]
    exact awaited_congr hi (.inl rfl) rfl rfl
  | destruct _ _ hw _ _ _ =>
    refine awaited_done fun w hw' => ?_
    have hsome : s.waiter = some w := hw'
    rw [hw] at hsome
    cases hsome
  | _ => exact awaited_congr hi (.inl rfl) rfl rfl

/-! ## The event that wakes -/

def WakerInv (s : St) : Prop :=
  s.parkedSecond = true → s.registered = true ∨ s.watcher.any (·.state.final) = true

theorem wakerInv_congr (hi : WakerInv s) (hwaiter : t.waiter = s.waiter) (hwatcher : t.watcher = s.watcher)
    (hreg : t.registered = s.registered) : WakerInv t := by
  intro hp
  rw [parkedSecond_of_waiter hwaiter] at hp
  rw [hreg, hwatcher]
  exact hi hp

theorem wakerInv_awake (h : Waiter.parked t.waiter = false) : WakerInv t := by
  intro hp
  rw [parkedSecond_awake h] at hp
  cases hp

theorem wakerInv_watcher (hi : WakerInv s) {w : Watcher} (hw : s.watcher = some w) : WakerInv (sessionWatcher s w) := by
  obtain ⟨zh, state, recvTimeout, pc⟩ := w
  have hany : s.watcher.any (·.state.final) = state.final := by rw [hw]; rfl
  unfold WakerInv at hi
  rw [hany] at hi
  cases pc with
  | setState => exact hi
  | setTime => cases state <;> exact hi
  | unlock =>
    cases hf : state.final with
    | true =>
      apply wakerInv_awake
      show Waiter.parked (if state.final = true then notify s.waiter else s.waiter) = false
      rw [if_pos hf]
      exact parked_notify s.waiter
    | false =>
      intro hp
      have hwaiter : (sessionWatcher s ⟨zh, state, recvTimeout, .unlock⟩).waiter = s.waiter := by
        show (if state.final = true then notify s.waiter else s.waiter) = s.waiter
        rw [hf]
        rfl
      rw [parkedSecond_of_waiter hwaiter] at hp
      rcases hi hp with hreg | hfinal
      · exact .inl hreg
      · rw [hf] at hfinal
        cases hfinal

theorem wakerInv_step {a : Act} (hi : WakerInv s) (hg : StaysRegistered s a) (h : step s a = some t) : WakerInv t := by
  cases step_inv h with
  | dropped _ => exact hi
  | delivered _ _ hreg _ => exact fun _ => .inl hreg
  | watcher hw => exact wakerInv_watcher hi hw
  | callOk _ | callFail _ | returnOk _ | returnFail _ | testLeave _ _ _ | testHold _ _ _ | wakeUp _ | leaveInit _ | leaveReconnect _
  | retryGone _ _ | retry _ _ => exact wakerInv_awake rfl
  | @park who zh hw =>
    cases who with
    | creator => exact nofun
    | second => exact fun _ => .inl (hg (by rw [St.onSecond, hw]; rfl))
  | @finishInit ok _ => cases ok <;> exact wakerInv_awake rfl
  | @finishRetry ok _ =>
    obtain ⟨_, _, _, _, he⟩ := finishRetry_eq s ok
    rw [he]
    exact wakerInv_awake rfl
  | expired _ =>
    obtain ⟨_, _, _, _, _, he⟩ := sessionExpired_eq s
    rw [he]
    exact wakerInv_congr hi rfl rfl rfl
  | destroyClient => exact fun hp => .inr (hg hp)  -- the condition: `sessionWatcher` has found the client already
  | destruct _ _ hw _ _ _ =>
    apply wakerInv_awake
    show Waiter.parked s.waiter = false
    rw [hw]
    rfl
  | _ => exact wakerInv_congr hi rfl rfl rfl

theorem woken_of_inv (hi : AwaitedInv s) (hwaker : WakerInv s) : Woken s := by
  intro hp
  obtain ⟨who, zh, hw⟩ : ∃ who zh, s.waiter = some ⟨who, .parked zh⟩ := by
    have hparked : Waiter.parked s.waiter = true := (Bool.and_eq_true_iff.mp hp).2
    unfold Waiter.parked at hparked
    split at hparked
    · rename_i who zh hw
      exact ⟨who, zh, hw⟩
    · cases hparked
  obtain ⟨hzh, hopen⟩ := hi _ hw zh rfl
  obtain ⟨hfree, hreg, hopened, hholds⟩ := settled_free s
  have hholds : Waiter.holds s.settled.waiter = false := by rw [hholds, hw]; rfl
  refine ⟨zh, hzh, fun state recvTimeout hfinal => ?_⟩
  have hlive : s.settled.live zh = true := by simp [St.live, hopened, hopen]
  cases hr : s.registered with
  | true =>
    refine ⟨{ s.settled with watcher := some ⟨zh, state, recvTimeout, .setState⟩ }, ?_, ?_⟩
    · simp [step, hlive, hfree, hreg, hr, hholds]
    · rw [parkedSecond_settled]
      simp [hfinal]
  | false =>
    -- the event that is already recorded wakes it
    have hpending := (hwaker hp).resolve_left (by rw [hr]; exact Bool.false_ne_true)
    refine ⟨s.settled, by simp [step, hlive, hfree, hreg, hr, hholds], ?_⟩
    rw [settled_none hfree, parkedSecond_settled, hpending, Bool.not_true, Bool.and_false]

theorem not_woken (hp : s.parkedSecond = true) (hreg : s.registered = false)
    (hno : s.watcher.any (·.state.final) = false) : ¬ Woken s := by
  intro h
  obtain ⟨zh, -, hwoken⟩ := h hp
  obtain ⟨t, ht, hawake⟩ := hwoken .connected 0 rfl
  obtain ⟨hfree, hreg', -, -⟩ := settled_free s
  have hsame : t = s.settled := by
    cases step_inv ht with
    | dropped _ => rfl
    | delivered _ _ hr _ =>
      rw [hreg', hreg] at hr
      cases hr
  rw [hsame, settled_none hfree, parkedSecond_settled, hp, hno] at hawake
  cases hawake

theorem not_woken_step {a : Act} (hi : HoldsTest s) (hg : ¬ StaysRegistered s a) (h : step s a = some t) : ¬ Woken t := by
  cases a with
  | destroyClient =>
    simp only [StaysRegistered, Classical.not_imp, Bool.not_eq_true] at hg
    cases h
    exact not_woken hg.1 rfl hg.2
  | park =>
    simp only [StaysRegistered, Classical.not_imp, Bool.not_eq_true] at hg
    obtain ⟨hsecond, hreg⟩ := hg
    cases step_inv h with
    | @park who zh hw =>
      have hwho : who = .second := by simpa [St.onSecond, hw] using hsecond
      subst hwho
      obtain ⟨hfree, -⟩ := hi (by rw [hw]; rfl)
      exact not_woken rfl hreg (by rw [show ({ s with waiter := _ } : St).watcher = s.watcher from rfl, hfree]; rfl)
  | _ => exact absurd trivial hg

end

/-! ## All clients -/

section
variable {p q : Process}

theorem processStep_inv {a : ProcessAct} (hstep : processStep p a = some q) :
    (∃ d, a = .tick d ∧ ∀ h, step (p.clients h) (.tick d) = some (q.clients h)) ∨
      ∃ h b, a = .client h b ∧ step (p.clients h) b = some (q.clients h) ∧ ∀ h', h' ≠ h → q.clients h' = p.clients h' := by
  have hmove : ∀ {h b}, p.move h b = some q →
      step (p.clients h) b = some (q.clients h) ∧ ∀ h', h' ≠ h → q.clients h' = p.clients h' := by
    intro h b hm
    obtain ⟨s, hs, rfl⟩ := Option.map_eq_some_iff.mp hm
    exact ⟨hs.trans (congrArg some (Function.update_self h s p.clients).symm), fun _ hne => Function.update_of_ne hne ..⟩
  unfold processStep at hstep
  split at hstep
  · cases hstep
    exact .inl ⟨_, rfl, fun _ => rfl⟩
  · cases hstep
  · split at hstep
    · cases hstep
    · exact .inr ⟨_, _, rfl, hmove hstep⟩
  · exact .inr ⟨_, _, rfl, hmove hstep⟩

structure ProcessInv (p : Process) : Prop where
  awaited : ∀ h, AwaitedInv (p.clients h)
  waker : ∀ h, WakerInv (p.clients h)
  test : ∀ h, HoldsTest (p.clients h)

theorem processInv_step {a : ProcessAct} (hi : ProcessInv p) (hg : ProcessGuard p a) (hstep : processStep p a = some q) :
    ProcessInv q := by
  rcases processStep_inv hstep with ⟨d, rfl, htick⟩ | ⟨h, b, rfl, hb, hother⟩
  · exact ⟨fun h => awaited_step (hi.awaited h) (htick h), fun h => wakerInv_step (a := .tick d) (hi.waker h) trivial (htick h),
      fun h => holdsTest_step (hi.test h) (htick h)⟩
  · constructor <;> intro h'
    · by_cases hne : h' = h
      · subst hne
        exact awaited_step (hi.awaited h') hb
      · rw [hother h' hne]
        exact hi.awaited h'
    · by_cases hne : h' = h
      · subst hne
        exact wakerInv_step (hi.waker h') hg hb
      · rw [hother h' hne]
        exact hi.waker h'
    · by_cases hne : h' = h
      · subst hne
        exact holdsTest_step (hi.test h') hb
      · rw [hother h' hne]
        exact hi.test h'

/-- **The second thread is not stranded.** In every run of any number of clients,
an event of the current handle wakes the second thread wherever it is parked,
just when every client stays registered for as long as it is parked for it. -/
theorem woken_iff {timeout : Nat → Int} {expiredHandler : Nat → Bool} {now : Int} {acts : List ProcessAct}
    (hrun : Lts.run processStep (Process.initial timeout expiredHandler now) acts = some q) :
    Lts.Throughout processStep (fun p => ∀ h, Woken (p.clients h)) (Process.initial timeout expiredHandler now) acts ↔
      Lts.Along processStep ProcessGuard (Process.initial timeout expiredHandler now) acts := by
  refine Lts.throughout_iff_along (I := ProcessInv) (fun _ _ _ hi hg h => processInv_step hi hg h)
    (fun _ hi h => woken_of_inv (hi.awaited h) (hi.waker h)) ?_ ?_ hrun
  · intro p a q hi hg hstep hwoken
    rcases processStep_inv hstep with ⟨d, rfl, -⟩ | ⟨h, b, rfl, hb, -⟩
    · exact hg trivial
    · exact not_woken_step (hi.test h) hg hb (hwoken h)
  · refine ⟨fun _ => awaited_done fun w hw => ?_, fun _ => wakerInv_awake rfl, fun _ => holdsTest_free rfl⟩
    cases hw
    rfl

end

def bothExpired : List ProcessAct :=
  (initConnects ++ localExpiry ++ reopen ++ recordEvent 1 .connecting 4000 ++ [Act.testState, Act.park]).map (.of 1)

theorem woken_otherDestroyed : Lts.Throughout processStep (fun p => ∀ h, Woken (p.clients h))
    (Process.initial (fun _ => 4000) (fun _ => true) 0) (bothExpired ++ [.client 2 .destroyClient]) :=
  (woken_iff (q := (Lts.run processStep (Process.initial (fun _ => 4000) (fun _ => true) 0)
    (bothExpired ++ [.client 2 .destroyClient])).get (by decide)) (by simp)).mpr (by decide)

/-- The client is destroyed while `reconnect` waits for it. -/
theorem not_woken_destroyed : ¬ Lts.Throughout processStep (fun p => ∀ h, Woken (p.clients h))
    (Process.initial (fun _ => 4000) (fun _ => true) 0) (bothExpired ++ [.client 1 .destroyClient]) := by
  intro h
  have hwoken := h _ ((Lts.run processStep (Process.initial (fun _ => 4000) (fun _ => true) 0)
    (bothExpired ++ [.client 1 .destroyClient])).get (by decide)) (List.prefix_refl _) (by simp) 1
  exact not_woken (by decide) (by decide) (by decide) hwoken

end ZkCppClient.Session
