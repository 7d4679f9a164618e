import ZkCppClient.Session.Machine

/-!
# Open handles

`reconnect` stores the handle it opens over the one that `zhandle_` held, which
nothing closes any more. So a client has one open handle at most just as long
as no `zookeeper_init` of `reconnect` has returned.
-/

namespace ZkCppClient.Session

/-- At most one handle is open, and it is `zhandle_`; none is once the
destructor has run. -/
def OneHandle (s : St) : Prop :=
  (s.destroyed = true → s.opened = []) ∧ s.opened.length ≤ 1 ∧ ∀ zh ∈ s.opened, s.client.zhandle = some zh

def NoReconnect (s : St) (a : Act) : Prop :=
  a = .zookeeperInitReturn → s.waiter.map (·.who) ≠ some .second

instance (s : St) (a : Act) : Decidable (NoReconnect s a) := by unfold NoReconnect; infer_instance

def HasHandle (s : St) : Prop := s.destroyed = false ∧ ∃ zh, s.opened = [zh] ∧ s.client.zhandle = some zh

def InitOpened (s : St) : WaitPc → Prop
  | .start | .calling _ => s.opened = []
  | .waiting _ | .tested _ | .parked _ | .leaving _ | .done true => HasHandle s
  | .done false => s.opened = [] ∨ HasHandle s

structure HandleInv (s : St) : Prop where
  destroyed : s.destroyed = true → s.opened = [] ∧ s.registered = false ∧ s.waiter = none
  opened : s.opened = [] ∨ HasHandle s
  initialized : s.client.isInitialized = true → s.destroyed = false → HasHandle s
  creator : ∀ pc, s.waiter = some ⟨.creator, pc⟩ → InitOpened s pc
  second : ∀ pc, s.waiter = some ⟨.second, pc⟩ → HasHandle s

theorem HandleInv.oneHandle {s : St} (hi : HandleInv s) : OneHandle s := by
  refine ⟨fun hd => (hi.destroyed hd).1, ?_⟩
  rcases hi.opened with h | ⟨-, zh, h, hz⟩
  · rw [h]; exact ⟨Nat.zero_le _, fun _ hm => by cases hm⟩
  · rw [h]; exact ⟨Nat.le_refl _, fun _ hm => by rw [List.mem_singleton.mp hm]; exact hz⟩

theorem handleInv_initial (timeout : Int) (expiredHandler : Bool) (now : Int) :
    HandleInv (St.initial timeout expiredHandler now) where
  destroyed h := by cases h
  opened := .inl rfl
  initialized h := by cases h
  creator _ h := by cases h; rfl
  second _ h := by cases h

def St.handles (s : St) : Bool × List Handle × Option Handle × Bool :=
  (s.destroyed, s.opened, s.client.zhandle, s.client.isInitialized)

section
variable {s t : St}

theorem handles_inj (h : t.handles = s.handles) : t.destroyed = s.destroyed ∧ t.opened = s.opened ∧
    t.client.zhandle = s.client.zhandle ∧ t.client.isInitialized = s.client.isInitialized := by
  simpa only [St.handles, Prod.mk.injEq] using h

theorem hasHandle_congr (h : t.handles = s.handles) (hs : HasHandle s) : HasHandle t := by
  obtain ⟨hdestroyed, hopened, hzh, -⟩ := handles_inj h
  obtain ⟨hd, zh, ho, hz⟩ := hs
  exact ⟨hdestroyed.trans hd, zh, hopened.trans ho, hzh.trans hz⟩

theorem initOpened_congr (h : t.handles = s.handles) {pc : WaitPc} (hs : InitOpened s pc) : InitOpened t pc := by
  have hopened := (handles_inj h).2.1
  unfold InitOpened at hs ⊢
  rw [hopened]
  split at hs
  · exact hs
  · exact hs
  · exact hasHandle_congr h hs
  · exact hasHandle_congr h hs
  · exact hasHandle_congr h hs
  · exact hasHandle_congr h hs
  · exact hasHandle_congr h hs
  · exact hs.imp_right (hasHandle_congr h)

theorem handleInv_congr (hi : HandleInv s) (h : t.handles = s.handles) (hwaiter : t.waiter = s.waiter)
    (hreg : s.registered = false → t.registered = false) : HandleInv t := by
  obtain ⟨hdestroyed, hopened, -, hinit⟩ := handles_inj h
  constructor
  · intro hd
    rw [hdestroyed] at hd
    obtain ⟨ho, hr, hw⟩ := hi.destroyed hd
    exact ⟨hopened.trans ho, hreg hr, hwaiter.trans hw⟩
  · rw [hopened]
    exact hi.opened.imp_right (hasHandle_congr h)
  · intro hin hd
    exact hasHandle_congr h (hi.initialized (hinit ▸ hin) (hdestroyed ▸ hd))
  · intro pc hw
    exact initOpened_congr h (hi.creator pc (hwaiter ▸ hw))
  · intro pc hw
    exact hasHandle_congr h (hi.second pc (hwaiter ▸ hw))

theorem handleInv_moved (hi : HandleInv s) {w : Waiter} (hold : s.waiter = some w) {pc : WaitPc}
    (hnew : t.waiter = some ⟨w.who, pc⟩) (h : t.handles = s.handles)
    (hpc : w.who = .creator → InitOpened s w.pc → InitOpened t pc) : HandleInv t := by
  obtain ⟨hdestroyed, hopened, -, hinit⟩ := handles_inj h
  obtain ⟨who, pc₀⟩ := w
  constructor
  · intro hd
    rw [hdestroyed] at hd
    rw [(hi.destroyed hd).2.2] at hold
    cases hold
  · rw [hopened]
    exact hi.opened.imp_right (hasHandle_congr h)
  · intro hin hd
    exact hasHandle_congr h (hi.initialized (hinit ▸ hin) (hdestroyed ▸ hd))
  · intro pc' hw
    rw [hnew] at hw; cases hw
    exact hpc rfl (hi.creator pc₀ hold)
  · intro pc' hw
    rw [hnew] at hw; cases hw
    exact hasHandle_congr h (hi.second pc₀ hold)

theorem handleInv_sessionWatcher (hi : HandleInv s) (w : Watcher) : HandleInv (sessionWatcher s w) := by
  obtain ⟨zh, state, recvTimeout, pc⟩ := w
  cases pc with
  | setState => exact handleInv_congr hi rfl rfl id
  | setTime => cases state <;> exact handleInv_congr hi rfl rfl id
  | unlock =>
    have hs : HandleInv { s with watcher := none } := handleInv_congr hi rfl rfl id
    cases hf : state.final with
    | false => simpa [sessionWatcher, hf] using hs
    | true =>
      simp only [sessionWatcher, hf, if_true]
      cases hw : s.waiter with
      | none => exact handleInv_congr hi rfl hw.symm id
      | some w =>
        obtain ⟨who, pc⟩ := w
        cases pc with
        | parked zh => exact handleInv_moved hi hw rfl rfl fun _ h => h
        | _ => exact handleInv_congr hi rfl hw.symm id

theorem handleInv_finished (hi : HandleInv s) (h : t.handles = s.handles) (hwaiter : t.waiter = none)
    (hreg : t.registered = s.registered) : HandleInv t := by
  obtain ⟨hdestroyed, hopened, -, hinit⟩ := handles_inj h
  constructor
  · intro hd
    obtain ⟨ho, hr, -⟩ := hi.destroyed (hdestroyed ▸ hd)
    exact ⟨hopened.trans ho, hreg.trans hr, hwaiter⟩
  · rw [hopened]
    exact hi.opened.imp_right (hasHandle_congr h)
  · intro hin hd
    exact hasHandle_congr h (hi.initialized (hinit ▸ hin) (hdestroyed ▸ hd))
  · intro pc hw
    rw [hwaiter] at hw; cases hw
  · intro pc hw
    rw [hwaiter] at hw; cases hw

theorem handleInv_returned (hi : HandleInv s) {zh : Option Handle}
    (hw : s.waiter = some ⟨.creator, .calling zh⟩) (hdestroyed : t.destroyed = s.destroyed)
    (hopened : t.opened = zh.toList) (hzh : t.client.zhandle = zh)
    (hwaiter : t.waiter = some ⟨.creator, match zh with | some zh => .waiting zh | none => .done false⟩)
    (hinit : t.client.isInitialized = s.client.isInitialized) : HandleInv t := by
  have hd : s.destroyed = false := by
    cases hd : s.destroyed with
    | false => rfl
    | true => rw [(hi.destroyed hd).2.2] at hw; cases hw
  have hopen : s.opened = [] := hi.creator _ hw
  have hni : s.client.isInitialized ≠ true := by
    intro h
    obtain ⟨-, zh', ho, -⟩ := hi.initialized h hd
    rw [hopen] at ho; cases ho
  refine ⟨fun h => ?_, ?_, fun h => absurd (hinit ▸ h) hni, fun pc h => ?_, fun pc h => ?_⟩
  · rw [hdestroyed, hd] at h; cases h
  · cases zh with
    | none => exact .inl hopened
    | some zh => exact .inr ⟨hdestroyed.trans hd, zh, hopened, hzh⟩
  · rw [hwaiter] at h; cases h
    cases zh with
    | none => exact .inl hopened
    | some zh => exact ⟨hdestroyed.trans hd, zh, hopened, hzh⟩
  · rw [hwaiter] at h; cases h

theorem closed_of_handleInv (hi : HandleInv s) :
    (match s.client.zhandle with
      | none => s.opened
      | some zh => s.opened.erase zh) = [] := by
  rcases hi.opened with h | ⟨-, zh, h, hz⟩
  · rw [h]; cases s.client.zhandle <;> rfl
  · rw [h, hz]; simp

theorem handleInv_step {a : Act} (hi : HandleInv s) (hg : NoReconnect s a) (h : step s a = some t) :
    HandleInv t := by
  cases step_inv h with
  | dropped _ => exact hi
  | watcher _ => exact handleInv_sessionWatcher hi _
  | callOk hw | callFail hw | testLeave hw _ _ | testHold hw _ _ | park hw | wakeUp hw =>
    exact handleInv_moved hi hw rfl rfl fun _ h => h
  | @returnOk who zh hw =>
    cases who with
    | second => exact absurd (congrArg (Option.map (·.who)) hw) (hg rfl)
    | creator =>
      -- `init` comes once, before any handle is open
      have ho : s.opened = [] := hi.creator _ hw
      exact handleInv_returned hi hw rfl (congrArg (zh :: ·) ho) rfl rfl rfl
  | @returnFail who hw =>
    cases who with
    | second => exact absurd (congrArg (Option.map (·.who)) hw) (hg rfl)
    | creator => exact handleInv_returned hi hw rfl (hi.creator _ hw) rfl rfl rfl
  | leaveInit hw =>
    refine handleInv_moved hi hw rfl rfl fun _ (h : HasHandle s) => ?_
    cases decide (s.client.sessionState ≠ .expired) with
    | true => exact h
    | false => exact .inr h
  | leaveReconnect hw => exact handleInv_moved hi hw rfl rfl nofun
  | @finishInit ok hw =>
    cases ok with
    | false => exact handleInv_finished hi rfl rfl rfl
    | true =>
      have hhas : HasHandle s := hi.creator _ hw
      refine ⟨fun hd => ?_, .inr hhas, fun _ _ => hhas, nofun, nofun⟩
      have hno := hhas.1
      rw [show s.destroyed = true from hd] at hno
      cases hno
  | @finishRetry ok hw =>
    obtain ⟨_, _, _, _, he⟩ := finishRetry_eq s ok
    rw [he]
    exact handleInv_finished hi rfl rfl rfl
  | retryGone hw _ => exact handleInv_congr hi rfl hw.symm id
  | retry hw hf =>  -- found in the registry, so not destroyed, and initialized with its handle open
    have hf : s.registered = true ∧ s.client.isInitialized = true := by simpa [St.found] using hf
    have hd : s.destroyed = false := by
      cases hd : s.destroyed with
      | false => rfl
      | true => rw [(hi.destroyed hd).2.1] at hf; exact absurd hf.1 (by decide)
    refine ⟨fun h => ?_, hi.opened, hi.initialized, nofun, fun _ _ => hi.initialized hf.2 hd⟩
    rw [show s.destroyed = true from h] at hd; cases hd
  | expired _ =>
    obtain ⟨_, _, _, _, _, he⟩ := sessionExpired_eq s
    rw [he]
    exact handleInv_congr hi rfl rfl id
  | destroyClient => exact handleInv_congr hi rfl rfl fun _ => rfl
  | destruct hr hd hw _ _ ho =>
    -- the destructor closes the only handle there is
    have hnil := ho.trans (closed_of_handleInv hi)
    refine ⟨fun _ => ⟨hnil, hr, hw⟩, .inl hnil, nofun, fun pc h => ?_, fun pc h => ?_⟩
    · rw [show s.waiter = _ from h] at hw; cases hw
    · rw [show s.waiter = _ from h] at hw; cases hw
  | _ => exact handleInv_congr hi rfl rfl id

theorem not_oneHandle_of_reconnect {a : Act} (hi : HandleInv s) (hg : ¬ NoReconnect s a)
    (h : step s a = some t) : ¬ OneHandle t := by
  simp only [NoReconnect, ne_eq, not_forall, Decidable.not_not] at hg
  obtain ⟨rfl, hwho⟩ := hg
  intro ho
  have hhas : ∀ pc, s.waiter = some ⟨.second, pc⟩ → ∃ zh, s.opened = [zh] := fun pc hw => by
    obtain ⟨-, zh, ho, -⟩ := hi.second pc hw
    exact ⟨zh, ho⟩
  cases step_inv h with
  | @returnOk who zh' hw =>
    have hwho : who = .second := by simpa [hw] using hwho
    subst hwho
    obtain ⟨zh, hopen⟩ := hhas _ hw
    have hlen : (zh' :: s.opened).length ≤ 1 := ho.2.1
    rw [hopen] at hlen
    exact absurd hlen (by simp)
  | @returnFail who hw =>
    have hwho : who = .second := by simpa [hw] using hwho
    subst hwho
    obtain ⟨zh, hopen⟩ := hhas _ hw
    have hnone : none = some zh := ho.2.2 zh (by rw [hopen]; exact List.mem_singleton.mpr rfl)
    cases hnone

end

/-- **Open handles.** From the start of `init` on, one open handle at most and
that one `zhandle_`, in every state of the runs where no `zookeeper_init` of
`reconnect` returns, and in no other runs. -/
theorem oneHandle_iff {timeout : Int} {expiredHandler : Bool} {now : Int} {acts : List Act} {s : St}
    (hrun : Lts.run step (St.initial timeout expiredHandler now) acts = some s) :
    Lts.Throughout step OneHandle (St.initial timeout expiredHandler now) acts ↔
      Lts.Along step NoReconnect (St.initial timeout expiredHandler now) acts :=
  Lts.throughout_iff_along (fun _ _ _ hi hg h => handleInv_step hi hg h) (fun _ hi => hi.oneHandle)
    (fun _ _ _ hi hg h => not_oneHandle_of_reconnect hi hg h) (handleInv_initial timeout expiredHandler now) hrun

theorem oneHandle_localExpiry : Lts.Throughout step OneHandle (St.initial 4000 true 0) (initConnects ++ localExpiry) :=
  (oneHandle_iff (s := (Lts.run step (St.initial 4000 true 0) (initConnects ++ localExpiry)).get (by decide))
    (by simp)).mpr (by decide)

/-- The retry opens a second handle, and the first one stays open. -/
theorem not_oneHandle_retry :
    ¬ Lts.Throughout step OneHandle (St.initial 4000 true 0) (initConnects ++ localExpiry ++ reopen) := by
  intro h
  have hlen : ∀ t, Lts.run step (St.initial 4000 true 0) (initConnects ++ localExpiry ++ reopen) = some t →
      t.opened.length ≤ 1 := fun t ht => (h _ t (List.prefix_refl _) ht).2.1
  exact absurd (hlen _ rfl) (by decide)

end ZkCppClient.Session
