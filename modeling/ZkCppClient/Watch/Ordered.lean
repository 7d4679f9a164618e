import ZkCppClient.Watch.Once

/-!
# The order of the changes

No watch is armed after the last change of the server, and no change of a path
is later than it.
-/

namespace ZkCppClient.Watch

structure Ordered (s : St) : Prop where
  changed : ∀ k p, s.changed k p ≤ s.zxid
  armed : ∀ zh, ∀ a ∈ (s.conns zh).armed, a.zxid ≤ s.zxid

section
variable {s t : St}

theorem session_log (s : St) (zh : Nat) (state : SessState) (watchersFirst : Bool) :
    (s.session zh state watchersFirst).log = s.log := by
  unfold St.session
  dsimp only
  split <;> rfl

theorem session_library (s : St) (zh : Nat) (state : SessState) (watchersFirst : Bool) :
    (s.session zh state watchersFirst).library = s.library := by
  unfold St.session
  dsimp only
  split <;> rfl

theorem stored_isSome {k : Kind} {p : Path} (hwatched : (s.datas k p).isSome) (k' : Kind) (path : Path) (data : WatchData) :
    ((s.setWatchData k' path (some data)).datas k p).isSome := by
  unfold St.setWatchData
  dsimp only
  split
  · rfl
  · exact hwatched

theorem ordered_initial (nodes : Tree) : Ordered (St.initial nodes) := ⟨fun _ _ => Nat.le_refl 0, fun _ _ ha => by cases ha⟩

theorem ordered_library (hi : Ordered s) (hlib : t.library = s.library)
    (harmed : ∀ zh, ∀ a ∈ (t.conns zh).armed, a ∈ (s.conns zh).armed ∨ a.zxid = s.zxid) : Ordered t := by
  obtain ⟨-, hzxid, hchanged, -, -⟩ := library_inj hlib
  constructor
  · intro k p
    rw [hchanged, hzxid]
    exact hi.changed k p
  · intro zh a ha
    rw [hzxid]
    rcases harmed zh a ha with hold | hnow
    · exact hi.armed zh a hold
    · exact Nat.le_of_eq hnow

theorem ordered_setConn (hi : Ordered s) {zh : Nat} {c : Conn} (hlib : t.library = s.library)
    (hconns : t.conns = (s.setConn zh c).conns) (harmed : ∀ a ∈ c.armed, a ∈ (s.conns zh).armed ∨ a.zxid = s.zxid) :
    Ordered t := by
  apply ordered_library hi hlib
  intro z a ha
  rw [hconns] at ha
  by_cases hz : z = zh
  · subst hz
    rw [setConn_self] at ha
    exact harmed a ha
  · rw [setConn_of_ne s zh c hz] at ha
    exact .inl ha

theorem ordered_foreign (hi : Ordered s) (w : Write) (nodes : Tree) : Ordered (s.foreign w nodes) := by
  constructor
  · intro k p
    show (if (w.event k p).isSome = true then s.zxid + 1 else s.changed k p) ≤ s.zxid + 1
    split
    · exact Nat.le_refl _
    · exact Nat.le_succ_of_le (hi.changed k p)
  · intro zh a ha
    change a ∈ (if (s.conns zh).up = true then _ else s.conns zh : Conn).armed at ha
    apply Nat.le_succ_of_le
    split at ha
    · exact hi.armed zh a (mem_armed_fire ha)
    · exact hi.armed zh a ha

theorem ordered_session (hi : Ordered s) (zh : Nat) (state : SessState) (watchersFirst : Bool) :
    Ordered (s.session zh state watchersFirst) := by
  have hlib := session_library s zh state watchersFirst
  unfold St.session at hlib ⊢
  by_cases hstate : state = .connected
  · rw [if_pos hstate] at hlib ⊢
    exact ordered_setConn hi hlib rfl fun a ha => .inl (mem_armed_fire ha)
  · rw [if_neg hstate] at hlib ⊢
    exact ordered_setConn hi hlib rfl fun _ => .inl

theorem ordered_step (hi : Ordered s) {a : Act} (h : step s a = some t) : Ordered t := by
  cases step_inv h with
  | @foreign w nodes _ => exact ordered_foreign hi w nodes
  | @armed zh ctx auto outbox _ _ _ =>
    refine ordered_setConn hi rfl (arm_conns s zh ctx outbox) fun a ha => ?_
    rcases List.mem_append.mp ha with ha | ha
    · exact .inl ha
    · rw [List.mem_singleton.mp ha]
      exact .inr rfl
  | @session zh state watchersFirst _ _ => exact ordered_session hi zh state watchersFirst
  | @refused zh ctx auto outbox _ _ | @failWatch zh _ ctx auto outbox _ _ =>
    exact ordered_setConn (c := { s.conns zh with outbox }) hi rfl rfl fun _ => .inl
  | @read zh d outbox _ _ | @failRead zh _ d outbox _ _ _ => exact ordered_setConn hi rfl rfl fun _ => .inl
  | @sessionWatcher zh state inbox _ _ | @fetched zh d result inbox n _ _ _ _ _ _ =>
    exact ordered_setConn (c := { s.conns zh with inbox }) hi rfl rfl fun _ => .inl
  | @event zh ctx type zxid inbox _ _ _ =>
    refine ordered_setConn (c := { s.conns zh with
      inbox
      handling := if type = .session then none else some ⟨ctx, type, zxid⟩ }) hi rfl rfl fun _ => .inl
  | @told zh accepted h n _ _ _ _ _ | @nothing zh _ h _ _ _ _ =>
    exact ordered_setConn (c := { s.conns zh with handling := none }) hi rfl rfl fun _ => .inl
  | @fetch zh _ h d _ _ _ _ _ => exact ordered_setConn hi rfl (congrArg St.conns (send_setConn s zh _ _)) fun _ => .inl
  | autoSent _ _ _ | regSent _ _ => exact ordered_setConn hi rfl rfl fun _ => .inl
  | retried | retryFailed => exact ⟨hi.changed, hi.armed⟩
  | regRefused => exact hi
  | _ => exact ordered_library hi rfl fun _ _ => .inl

theorem ordered_of_run {nodes : Tree} {as : List Act} (h : Lts.run step (St.initial nodes) as = some s) : Ordered s :=
  Lts.inv_of_run (fun _ _ _ hi h => ordered_step hi h) (ordered_initial nodes) h

end

end ZkCppClient.Watch
