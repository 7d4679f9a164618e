import ZkCppClient.Registry.Handles
import ZkCppClient.Session.OpenHandles

/-!
# A `createZkClient` that fails

The client is registered before `init` runs, so that `sessionWatcher` finds it,
and neither way out of a failed `init` takes the entry back or closes the
handle. The call runs among the session events of its handle; no other thread
knows the number of the client that is being made.
-/

namespace ZkCppClient.Registry

/-- The call with its `init` as a run of the session's machine, up to the return. -/
def createRun (m : Manager) (call : CreateCall) (now : Int) (acts : List Session.Act) :
    Option (UInt32 × Manager × Session.St) :=
  (Lts.run Session.step (.initial call.timeout.toInt call.expiredHandler.isSome now) acts).bind fun s =>
    match s.waiter with
    | some ⟨.creator, .done ok⟩ =>
      let (handle, m) := m.createZkClient { call with initResult := ok }
      some (handle, m, Session.finishInit s ok)
    | _ => none

/-- The registry is as before, the handle that was opened is closed, and none of
its events can reach a client. -/
structure LeavesNothing (m m' : Manager) (t : Session.St) : Prop where
  total : m'.totalZkClients = m.totalZkClients
  closed : t.opened = []
  silent : ∀ zh, t.live zh = true → m'.totalZkClients (advance m.nextHandle) = none

/-! ## The steps of `init` -/

section
variable {s t : Session.St} {a : Session.Act}

theorem creator_of_step (h : Session.step s a = some t) (ht : t.waiter.map (·.who) = some .creator) :
    s.waiter.map (·.who) = some .creator := by
  cases Session.step_inv h with
  | watcher hw => rwa [Session.who_sessionWatcher] at ht
  | callOk hw | callFail hw | returnOk hw | returnFail hw | testLeave hw _ _ | testHold hw _ _ | park hw | wakeUp hw =>
    rw [hw]
    exact ht
  | leaveInit hw => rw [hw]; rfl
  | leaveReconnect hw => cases ht
  | @finishInit ok hw => cases ok <;> cases ht
  | @finishRetry ok hw =>
    obtain ⟨_, _, _, _, heq⟩ := Session.finishRetry_eq s ok
    rw [heq] at ht
    cases ht
  | retryGone _ _ => cases ht
  | retry _ _ => cases ht
  | expired hc =>
    obtain ⟨_, _, _, _, _, heq⟩ := Session.sessionExpired_eq s
    rwa [heq] at ht
  | _ => exact ht

structure Initialising (s : Session.St) : Prop where
  registered : s.registered = true
  handles : s.waiter.map (·.who) = some .creator → Session.HandleInv s

theorem initialising_step (hi : Initialising s) (ha : a ≠ .destroyClient) (h : Session.step s a = some t) :
    Initialising t := by
  refine ⟨(Session.registered_of_step h ha).trans hi.registered, fun ht => ?_⟩
  have hs := creator_of_step h ht
  have hone : Session.NoReconnect s a := fun _ => by rw [hs]; nofun
  exact Session.handleInv_step (hi.handles hs) hone h

end

theorem initialising_run {timeout : Int} {expiredHandler : Bool} {now : Int} {acts : List Session.Act} {s : Session.St}
    (hrun : Lts.run Session.step (.initial timeout expiredHandler now) acts = some s) (hd : .destroyClient ∉ acts) :
    Initialising s := by
  have hinit : Initialising (.initial timeout expiredHandler now) :=
    ⟨rfl, fun _ => Session.handleInv_initial timeout expiredHandler now⟩
  refine Lts.inv_of_along (G := fun _ a => a ≠ .destroyClient) (fun _ _ _ hi ha h => initialising_step hi ha h) hinit ?_ hrun
  apply Lts.along_of_forall
  intro a ha _ heq
  exact hd (heq ▸ ha)

/-! ## What is left behind -/

section
variable {m m' : Manager} {call : CreateCall} {now : Int} {acts : List Session.Act} {t : Session.St}

theorem advance_ne_zero (n : UInt32) : advance n ≠ 0 := by
  by_cases h : n + 1 = 0
  · simp [advance, h]
  · simp [advance, h]

theorem createRun_failed (h : createRun m call now acts = some (0, m', t)) :
    ∃ s, Lts.run Session.step (.initial call.timeout.toInt call.expiredHandler.isSome now) acts = some s ∧
      s.waiter = some ⟨.creator, .done false⟩ ∧ m' = (m.createZkClient { call with initResult := false }).2 ∧
      t = { s with waiter := none } := by
  obtain ⟨s, hrun, h⟩ := Option.bind_eq_some_iff.mp h
  dsimp only at h
  split at h
  · rename_i ok hw
    cases ok with
    | true =>
      have hret := congrArg Prod.fst (Option.some.inj h)
      exact absurd hret (advance_ne_zero m.nextHandle)
    | false =>
      cases h
      exact ⟨s, hrun, hw, rfl, rfl⟩
  · cases h

theorem createRun_left (h : createRun m call now acts = some (0, m', t)) (hd : .destroyClient ∉ acts) :
    m'.totalZkClients (advance m.nextHandle) = some m.clients.length ∧ t.registered = true ∧
      (t.opened = [] ∨ ∃ zh, t.opened = [zh] ∧ t.client.zhandle = some zh) := by
  -- after a failure the client is registered under the handle that nobody was given; where the session
  -- was reported expired its handle is open as well
  obtain ⟨s, hrun, hw, rfl, rfl⟩ := createRun_failed h
  have hi := initialising_run hrun hd
  refine ⟨Function.update_self _ _ _, hi.registered, ?_⟩
  rcases (hi.handles (by rw [hw]; rfl)).creator _ hw with hopened | ⟨-, zh, hopened, hzh⟩
  · exact .inl hopened
  · exact .inr ⟨zh, hopened, hzh⟩

/-- **A failed creation.** It leaves its entry behind in every state of the
registry, whichever way its `init` fails. -/
theorem createRun_not_leavesNothing (h : createRun m call now acts = some (0, m', t)) (hd : .destroyClient ∉ acts) :
    ¬ LeavesNothing m m' t := by
  intro hnothing
  have hentry := (createRun_left h hd).1
  rw [hnothing.total] at hentry
  obtain ⟨client, hget, -⟩ := Option.map_eq_some_iff.mp (m.keyed _ _ hentry)
  rw [List.getElem?_eq_none (Nat.le_refl _)] at hget
  cases hget

theorem createRun_delivered (h : createRun m call now acts = some (0, m', t)) (hd : .destroyClient ∉ acts)
    {zh : Session.Handle} (hzh : zh ∈ t.opened) (hmutex : t.watcher = none) (state : SessState) (recvTimeout : Int) :
    Session.step t (.deliver zh state recvTimeout) =
      some { t with watcher := some ⟨zh, state, recvTimeout, .setState⟩ } := by
  have hreg := (createRun_left h hd).2.1
  have hwaiter : t.waiter = none := by
    obtain ⟨s, -, -, -, ht⟩ := createRun_failed h
    rw [ht]
  simp [Session.step, Session.St.live, Session.Waiter.holds, hzh, hmutex, hreg, hwaiter]

end

def initRefused : List Session.Act := [.zookeeperInit false, .zookeeperInitReturn]

def initExpired : List Session.Act :=
  [.zookeeperInit true, .zookeeperInitReturn, .testState, .park] ++ Session.recordEvent 0 .expired 4000 ++ [.testState, .leaveWait]

theorem createRun_not_leavesNothing_refused :
    ∃ m' t, createRun .initial plainCall 0 initRefused = some (0, m', t) ∧ ¬ LeavesNothing .initial m' t :=
  ⟨_, _, rfl, createRun_not_leavesNothing (show createRun .initial plainCall 0 initRefused = some (0, _, _) from rfl)
    (by decide)⟩

/-- The entry is left, the handle is open, and a later event reaches the client. -/
theorem not_leavesNothing_expired :
    ∃ m' t, createRun .initial plainCall 0 initExpired = some (0, m', t) ∧ m'.totalZkClients 2 = some 0 ∧
      t.opened = [0] ∧ (Session.step t (.deliver 0 .connecting 4000)).map (·.watcher.isSome) = some true ∧
      ¬ LeavesNothing .initial m' t :=
  ⟨_, _, rfl, rfl, rfl, rfl, fun h => absurd h.closed (by decide)⟩

end ZkCppClient.Registry
