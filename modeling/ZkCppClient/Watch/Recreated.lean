import ZkCppClient.Watch.Machine

/-!
# Watches across a new session

`retry` puts a new handle in the place of the old one and registers nothing on
it: `regAllWatcher` is not called. A registered path is watched again after a
successful `reconnect` only if its re-registration was already waiting for the
second thread, in its queue or in a timer, when the handle was made, or if the
user has registered the path on the new handle meanwhile.
-/

namespace ZkCppClient.Watch

def SecondPc.renewing : SecondPc → Bool
  | .reconnecting | .leaving => true
  | _ => false

def Queued (k : Kind) (p : Path) (s : St) : Prop := (k, p) ∈ s.funs ∨ (k, p) ∈ s.timers

instance (k : Kind) (p : Path) (s : St) : Decidable (Queued k p s) := inferInstanceAs (Decidable (_ ∨ _))

/-- A watch on `zhandle_` itself, or a re-registration that will arm it there. -/
def Rearmed (k : Kind) (p : Path) (s : St) : Prop :=
  (∃ zh ∈ s.zhandle, ∃ a ∈ (s.conns zh).armed, a.ctx.on k p) ∨ Queued k p s

instance (k : Kind) (p : Path) (s : St) : Decidable (Rearmed k p s) := inferInstanceAs (Decidable (_ ∨ _))

/-- When `reconnect` returns true, a registered path is armed again or about to be. -/
def Survives (k : Kind) (p : Path) (s : St) (a : Act) : Prop :=
  a = .second → s.second = .leaving → s.sessionState ≠ .expired → s.datas k p ≠ none → Rearmed k p s

instance (k : Kind) (p : Path) (s : St) (a : Act) : Decidable (Survives k p s a) := inferInstanceAs (Decidable (_ → _))

/-- The re-registration of a registered path waits already when the new handle is
made. While `reconnect` waits, no watch of the path fires on the new handle
and none is stored that is not armed there, unless one is queued besides. -/
def Renewable (k : Kind) (p : Path) (s : St) : Act → Prop
  | .retry true => s.datas k p ≠ none → Queued k p s
  | .foreign w => s.second.renewing = true → s.datas k p ≠ none → w.event k p ≠ none → Queued k p s
  | .session zh state _ => s.second.renewing = true → s.datas k p ≠ none → s.zhandle = some zh → state = .connected →
      (∃ a ∈ (s.conns zh).armed, a.ctx.on k p ∧ s.missed a ≠ none) → Queued k p s
  | .regReturn i => s.second.renewing = true → ∀ r ∈ s.replied[i]?, r.1.on k p → r.2 = true → Rearmed k p s
  | _ => True

instance (k : Kind) (p : Path) (s : St) : ∀ a, Decidable (Renewable k p s a)
  | .retry true => inferInstanceAs (Decidable (_ → _))
  | .foreign _ => inferInstanceAs (Decidable (_ → _ → _ → _))
  | .session _ _ _ => inferInstanceAs (Decidable (_ → _ → _ → _ → _ → _))
  | .regReturn _ => inferInstanceAs (Decidable (_ → ∀ _ ∈ _, _ → _ → _))
  | .serve _ | .fail _ _ | .deliver _ | .dispatch _ _ | .second | .timer _ | .reg _ _ _ _ | .cancel _ _ | .expire
  | .retry false => isTrue trivial

def RenewInv (k : Kind) (p : Path) (s : St) : Prop :=
  s.second.renewing = true → s.datas k p ≠ none → Rearmed k p s

section
variable {k : Kind} {p : Path} {s t : St}

theorem rearmed_mono (h : Rearmed k p s) (hzh : t.zhandle = s.zhandle)
    (harmed : ∀ zh ∈ s.zhandle, ∀ a ∈ (s.conns zh).armed, a.ctx.on k p → a ∈ (t.conns zh).armed ∨ Queued k p t)
    (hfuns : ∀ e ∈ s.funs, e ∈ t.funs) (htimers : ∀ e ∈ s.timers, e ∈ t.timers) : Rearmed k p t := by
  rcases h with ⟨zh, hz, a, ha, hon⟩ | h
  · rcases harmed zh hz a ha hon with ha | hq
    · exact .inl ⟨zh, by rw [hzh]; exact hz, a, ha, hon⟩
    · exact .inr hq
  · exact .inr (h.imp (hfuns _) (htimers _))

theorem rearmed_setConn (h : Rearmed k p s) (zh : Nat) {c : Conn} (hc : ∀ a ∈ (s.conns zh).armed, a ∈ c.armed) :
    Rearmed k p (s.setConn zh c) := by
  refine rearmed_mono h rfl (fun z _ a ha _ => .inl ?_) (fun _ => id) (fun _ => id)
  by_cases hz : z = zh
  · subst hz
    rw [setConn_self]
    exact hc a ha
  · rw [setConn_of_ne s zh c hz]
    exact ha

theorem rearmed_queueAutoReg (h : Rearmed k p s) (ctx : WatchContext) : Rearmed k p (s.queueAutoReg ctx) := by
  refine rearmed_mono h rfl (fun _ _ _ ha _ => .inl ha) (fun e he => ?_) (fun _ => id)
  show e ∈ if _ then _ else _
  split
  · exact List.mem_append_left _ he
  · exact he

theorem mem_fire {c : Conn} {event : Armed → Option (EventType × Nat)} {a : Armed} (ha : a ∈ c.armed)
    (he : event a = none) : a ∈ (c.fire event).armed :=
  List.mem_filter.mpr ⟨ha, by rw [he]; rfl⟩

theorem rearmed_foreign (h : Rearmed k p s) {w : Write} {nodes : Tree} (hg : w.event k p ≠ none → Queued k p s) :
    Rearmed k p (s.foreign w nodes) := by
  refine rearmed_mono h rfl (fun z _ a ha hon => ?_) (fun _ => id) (fun _ => id)
  by_cases he : w.event k p = none
  · refine .inl ?_
    show a ∈ (if (s.conns z).up = true then _ else _ : Conn).armed
    split
    · refine mem_fire ha ?_
      rw [hon.1, hon.2, he]; rfl
    · exact ha
  · exact .inr (hg he)

theorem renewing_reply (pc : SecondPc) (auto ok : Bool) :
    (if auto = true then pc.reply ok else pc).renewing = pc.renewing := by
  split
  · cases pc <;> rfl
  · rfl

theorem renewInv_session (hi : RenewInv k p s) {zh : Nat} {state : SessState} {watchersFirst : Bool}
    (hg : Renewable k p s (.session zh state watchersFirst)) : RenewInv k p (s.session zh state watchersFirst) := by
  unfold St.session
  dsimp only
  split
  · rename_i hconn
    intro hr hd
    refine rearmed_mono (hi hr hd) rfl (fun z hz a ha hon => ?_) (fun _ => id) (fun _ => id)
    by_cases hzh : z = zh
    · subst hzh
      by_cases hm : s.missed a = none
      · refine .inl ?_
        show a ∈ (Function.update s.conns z _ z).armed
        rw [Function.update_self]
        exact mem_fire ha hm
      · exact .inr (hg hr hd hz hconn ⟨a, ha, hon, hm⟩)
    · refine .inl ?_
      show a ∈ (Function.update s.conns zh _ z).armed
      rw [Function.update_of_ne hzh]
      exact ha
  · intro hr hd
    have hlost : Rearmed k p (s.replyLost (s.conns zh).outbox) := hi ((renewing_reply s.second _ false).symm.trans hr) hd
    exact rearmed_setConn hlost zh fun _ => id

theorem renewInv_setWatchData (hi : RenewInv k p s) {k' : Kind} {p' : Path} {data : Option WatchData}
    (hnew : k' = k → p' = p → data ≠ none → s.second.renewing = true → Rearmed k p s) :
    RenewInv k p (s.setWatchData k' p' data) := by
  intro hr hd
  show Rearmed k p s
  simp only [St.setWatchData] at hd
  split at hd
  · rename_i heq
    exact hnew heq.1.symm heq.2.symm hd hr
  · exact hi hr hd

theorem renewInv_step {a : Act} (hi : RenewInv k p s) (hg : Renewable k p s a) (hstep : step s a = some t) :
    RenewInv k p t := by
  cases step_inv hstep with
  | foreign _ => exact fun hr hd => rearmed_foreign (hi hr hd) (hg hr hd)  -- a watch may fire, and the condition has another re-registration queued
  | @armed zh ctx auto outbox _ _ _ =>
    intro hr hd
    have hsent : Rearmed k p (s.setConn zh { s.conns zh with outbox }) :=
      rearmed_setConn (hi ((renewing_reply _ auto true).symm.trans hr) hd) zh fun _ => id
    exact rearmed_setConn hsent zh fun _ => List.mem_append_left _
  | @refused zh ctx auto outbox _ _ | @failWatch zh _ ctx auto outbox _ _ =>
    intro hr hd
    exact rearmed_setConn (hi ((renewing_reply _ auto false).symm.trans hr) hd) zh fun _ => id
  | session _ _ => exact renewInv_session hi hg
  | @event zh ctx _ _ _ _ _ _ =>
    intro hr hd
    apply rearmed_queueAutoReg
    exact rearmed_setConn (hi hr hd) zh fun _ => id
  | @read zh _ _ _ _ | @failRead zh _ _ _ _ _ _ | @sessionWatcher zh _ _ _ _ | @fetched zh _ _ _ _ _ _ _ _ _ _
  | @told zh _ _ _ _ _ _ _ _ | @nothing zh _ _ _ _ _ _ | @regSent _ _ _ _ zh _ _ =>
    exact fun hr hd => rearmed_setConn (hi hr hd) zh fun _ => id
  | @fetch zh _ _ _ _ _ _ _ _ =>
    intro hr hd
    have hidle : Rearmed k p (s.setConn zh { s.conns zh with handling := none }) :=
      rearmed_setConn (hi hr hd) zh fun _ => id
    exact rearmed_setConn hidle zh fun _ => id
  | waited hs _ => exact fun _ hd => hi (by rw [hs]; rfl) hd
  | take _ _ | connected _ _ | notConnected _ _ | found _ _ _ | notFound _ _ | autoSent _ _ _ | autoFailed _
  | autoStored _ | autoLost _ | left _ | timer _ _ => nofun
  | regRefused => exact hi
  | @regStored i ctx hr =>
    refine renewInv_setWatchData (s := { s with replied := s.replied.eraseIdx i }) hi fun hk hp _ hren => ?_
    exact hg hren (ctx, true) hr ⟨hk, hp⟩ rfl
  | cancel k' p' => exact renewInv_setWatchData hi fun _ _ hne => absurd rfl hne
  | retried _ => exact fun _ hd => .inr (hg hd)  -- the new handle has no watch yet: the condition is what the path has
  | retryFailed hs =>
    intro hr
    rw [show St.second _ = s.second from rfl, hs] at hr
    cases hr
  | regFailed _ | expire => exact hi

/-- **Survival.** In the runs of `Renewable`, whatever the number of attempts. -/
theorem survives_of_renewable {nodes : Tree} {acts : List Act}
    (hg : Lts.Along step (Renewable k p) (St.initial nodes) acts) :
    Lts.Along step (Survives k p) (St.initial nodes) acts := by
  refine Lts.along_of_along (fun _ _ _ hi hg h => renewInv_step hi hg h) (fun s a hi _ => ?_)
    (show RenewInv k p (St.initial nodes) from nofun) hg
  intro _ hs _ hd
  exact hi (by rw [hs]; rfl) hd

end

def newSession : List Act :=
  [.retry true, .session 1 .connected false, .deliver 1, .second, .second]

theorem survives_timer : Lts.Along step (Survives .node ["a"]) (St.initial oneNode)
    (registered ++ setNode ++ autoRegSent ++ [.serve 0, .fail 0 .zoperationtimeout, .second, .deliver 0,
      .session 0 .expired false, .deliver 0] ++ newSession) :=
  survives_of_renewable (by decide)

/-- The watch's own session event queues a re-registration, which finds the
session expired; then the session is made anew, and the watch is gone. -/
theorem not_survives_expired : ¬ Lts.Along step (Survives .node ["a"]) (St.initial oneNode)
    (registered ++ [.session 0 .expired false, .deliver 0, .deliver 0, .second, .second] ++ newSession) := by
  decide

end ZkCppClient.Watch
