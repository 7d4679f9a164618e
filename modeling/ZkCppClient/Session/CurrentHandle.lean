import ZkCppClient.Session.Machine

/-!
# The session state and the current handle

`sessionWatcher` finds the client by its number, whatever handle an event comes
from, and `reconnect` leaves the handle it replaces open. The session state is
the current handle's as long as the library delivers events of that handle only
and `reconnect` starts from a session that is not connected.
-/

namespace ZkCppClient.Session

/-- `zhandle_`, or the handle about to be stored there. -/
def St.own (s : St) (zh : Handle) : Prop := initCall s.waiter = some (some zh) ∨ s.client.zhandle = some zh

instance (s : St) (zh : Handle) : Decidable (s.own zh) := inferInstanceAs (Decidable (_ ∨ _))

def lastState (log : List SessionEvent) (zh : Handle) : Option SessState :=
  (log.find? (·.zh = zh)).map (·.state)

/-- Outside `zookeeper_init`, the state is CONNECTED only by the last event of `zhandle_`. -/
def OwnState (s : St) : Prop :=
  initCall s.waiter = none → s.client.sessionState = .connected →
    ∃ zh, s.client.zhandle = some zh ∧ lastState s.log zh = some .connected

/-- An event of another handle changes nothing that is recorded of the session. -/
def OthersIgnored (s : St) (a : Act) : Prop :=
  a = .watcher → ∀ w ∈ s.watcher, ¬ s.own w.zh →
    (sessionWatcher s w).client.sessionState = s.client.sessionState ∧
    (sessionWatcher s w).client.sessionTimeout = s.client.sessionTimeout ∧
    (sessionWatcher s w).client.sessionDisconnectMs = s.client.sessionDisconnectMs

/-- Only the current handle has events; no CONNECTED of the handle that is being
replaced is under way or comes during `zookeeper_init`, which no connected
session calls; and it returns with no other handle's event half recorded. -/
def OwnEvents (s : St) : Act → Prop
  | .deliver zh state _ => s.registered = true →
      s.own zh ∧ (state = .connected → initCall s.waiter ≠ none → initCall s.waiter = some (some zh))
  | .zookeeperInit _ => s.client.sessionState ≠ .connected ∧
      ∀ w ∈ s.watcher, w.pc = .setState → w.state ≠ .connected
  | .zookeeperInitReturn => ∀ w ∈ s.watcher, w.pc ≠ .unlock → initCall s.waiter = some (some w.zh)
  | _ => True

instance (s : St) (a : Act) : Decidable (OwnEvents s a) := by
  unfold OwnEvents; split <;> infer_instance

structure OwnInv (s : St) : Prop where
  watcher : ∀ w ∈ s.watcher, w.pc ≠ .unlock → s.own w.zh ∧ (w.pc = .setState → w.state = .connected →
    initCall s.waiter ≠ none → initCall s.waiter = some (some w.zh))
  state : s.client.sessionState = .connected →
    ∃ zh, (initCall s.waiter).getD s.client.zhandle = some zh ∧ lastState s.log zh = some .connected

theorem lastState_cons (e : SessionEvent) (log : List SessionEvent) : lastState (e :: log) e.zh = some e.state := by
  simp [lastState]

theorem OwnInv.ownState {s : St} (hi : OwnInv s) : OwnState s := by
  intro hcall hconn
  obtain ⟨zh, hz, hlast⟩ := hi.state hconn
  rw [hcall] at hz
  exact ⟨zh, hz, hlast⟩

theorem ownInv_initial (timeout : Int) (expiredHandler : Bool) (now : Int) :
    OwnInv (St.initial timeout expiredHandler now) where
  watcher _ h := by cases h
  state h := by cases h

theorem ownInv_congr {s t : St} (hi : OwnInv s) (hwatcher : t.watcher = s.watcher)
    (hcall : initCall t.waiter = initCall s.waiter) (hzh : t.client.zhandle = s.client.zhandle)
    (hstate : t.client.sessionState = .connected → s.client.sessionState = .connected) (hlog : t.log = s.log) :
    OwnInv t := by
  refine ⟨fun w hw hpc => ?_, fun h => ?_⟩
  · rw [hwatcher] at hw
    unfold St.own
    rw [hcall, hzh]
    exact hi.watcher w hw hpc
  · rw [hcall, hzh, hlog]
    exact hi.state (hstate h)

theorem ownInv_sessionWatcher {s : St} (hi : OwnInv s) {w : Watcher} (hw : s.watcher = some w) :
    OwnInv (sessionWatcher s w) := by
  obtain ⟨zh, state, recvTimeout, pc⟩ := w
  have hcur := hi.watcher _ hw
  cases pc with
  | setState =>  -- the state comes from the handle whose event it is, which is the current one
    obtain ⟨hown, hconn⟩ := hcur nofun
    refine ⟨fun w' hw' _ => ?_, fun h => ⟨zh, ?_, ?_⟩⟩
    · cases hw'; exact ⟨hown, nofun⟩
    · have h : state = .connected := h
      show (initCall s.waiter).getD s.client.zhandle = some zh
      -- inside `zookeeper_init` a CONNECTED comes from the handle that it makes
      cases hc : initCall s.waiter with
      | some zh' =>
        have hz := hconn rfl h (by rw [hc]; nofun)
        rw [hc] at hz; cases hz; rfl
      | none =>
        rcases hown with hz | hz
        · rw [hc] at hz; cases hz
        · exact hz
    · have h : state = .connected := h
      show lastState (_ :: s.log) zh = _
      rw [lastState_cons ⟨zh, state, s.now, recvTimeout⟩, h]
  | setTime =>
    have hunlocked : OwnInv { s with watcher := some ⟨zh, state, recvTimeout, .unlock⟩ } := by
      refine ⟨fun w' hw' hpc => ?_, hi.state⟩
      cases hw'; exact absurd rfl hpc
    cases state <;> exact ownInv_congr hunlocked rfl rfl rfl id rfl
  | unlock =>
    have hfree : OwnInv { s with watcher := none } := ⟨nofun, hi.state⟩
    refine ownInv_congr hfree rfl ?_ rfl id rfl
    show initCall (if state.final = true then notify s.waiter else s.waiter) = _
    split
    · exact initCall_notify _
    · rfl

theorem ownInv_called {s t : St} (hi : OwnInv s) {who : Who} (hold : s.waiter = some ⟨who, .start⟩)
    (hstate : s.client.sessionState ≠ .connected)
    (hwriting : ∀ w ∈ s.watcher, w.pc = .setState → w.state ≠ .connected) (hclient : t.client = s.client)
    (hwatcher : t.watcher = s.watcher) : OwnInv t := by
  refine ⟨fun w hw hpc => ?_, fun h => absurd (hclient ▸ h) hstate⟩
  rw [hwatcher] at hw
  obtain ⟨hown | hown, -⟩ := hi.watcher w hw hpc
  · rw [hold] at hown; cases hown
  · exact ⟨.inr (by rw [hclient]; exact hown), fun hset hconn => absurd hconn (hwriting w hw hset)⟩

theorem ownInv_returned {s t : St} (hi : OwnInv s) {zh : Option Handle} (hcall : initCall s.waiter = some zh)
    (hwriting : ∀ w ∈ s.watcher, w.pc ≠ .unlock → initCall s.waiter = some (some w.zh))
    (hnew : initCall t.waiter = none) (hzh : t.client.zhandle = zh)
    (hstate : t.client.sessionState = s.client.sessionState) (hwatcher : t.watcher = s.watcher)
    (hlog : t.log = s.log) : OwnInv t := by
  refine ⟨fun w hw hpc => ?_, fun h => ?_⟩
  · rw [hwatcher] at hw
    have hw' := hwriting w hw hpc
    rw [hcall] at hw'; cases hw'
    exact ⟨.inr hzh, fun _ _ h => absurd hnew h⟩
  · obtain ⟨zh', hz, hlast⟩ := hi.state (hstate ▸ h)
    rw [hcall] at hz
    rw [hnew, hlog]
    exact ⟨zh', hzh.trans hz, hlast⟩

theorem ownInv_step {s t : St} {a : Act} (hi : OwnInv s) (hg : OwnEvents s a) (h : step s a = some t) : OwnInv t := by
  cases step_inv h with
  | delivered _ hfree hr =>
    obtain ⟨hown, hconn⟩ := hg hr
    refine ⟨fun w hw _ => ?_, hi.state⟩
    cases hw; exact ⟨hown, fun _ => hconn⟩
  | watcher hw => exact ownInv_sessionWatcher hi hw
  | callOk hw | callFail hw => exact ownInv_called hi hw hg.1 hg.2 rfl rfl
  | returnOk hw | returnFail hw => exact ownInv_returned hi (congrArg initCall hw) hg rfl rfl rfl rfl rfl
  | testLeave hw _ _ | testHold hw _ _ | park hw | wakeUp hw | leaveInit hw | leaveReconnect hw | retryGone hw _ | retry hw _ =>
    exact ownInv_congr hi rfl (congrArg initCall hw).symm rfl id rfl
  | @finishInit ok hw => cases ok <;> exact ownInv_congr hi rfl (congrArg initCall hw).symm rfl id rfl
  | @finishRetry ok hw =>
    obtain ⟨_, _, _, _, he⟩ := finishRetry_eq s ok
    rw [he]
    exact ownInv_congr hi rfl (congrArg initCall hw).symm rfl id rfl
  | setExpired _ => exact ownInv_congr hi rfl rfl rfl nofun rfl
  | expired _ =>
    obtain ⟨_, _, _, _, _, he⟩ := sessionExpired_eq s
    rw [he]
    exact ownInv_congr hi rfl rfl rfl id rfl
  | _ => exact ownInv_congr hi rfl rfl rfl id rfl

theorem othersIgnored_of_ownInv {s : St} (hi : OwnInv s) (a : Act) : OthersIgnored s a := by
  rintro - w hw hother
  obtain ⟨zh, state, recvTimeout, pc⟩ := w
  cases pc with
  | unlock => exact ⟨rfl, rfl, rfl⟩
  | _ => exact absurd (hi.watcher _ hw nofun).1 hother

end ZkCppClient.Session
