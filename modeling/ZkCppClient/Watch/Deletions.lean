import ZkCppClient.Watch.Ordered

/-!
# The deletion of a watched node

A node that nobody sets or makes anew can only be deleted. Its watch then fires
with the deletion and with nothing else, and the callback tells it without a
read: however often the connection is lost in between, no deletion is missed.
The shared lock waits on such nodes.
-/

namespace ZkCppClient.Watch

def Item.deletion (ctx : WatchContext) : Item → Bool
  | .event c type _ => c = ctx ∧ type = .deleted
  | _ => false

def Handling.deletion (ctx : WatchContext) (h : Handling) : Bool := h.ctx = ctx ∧ h.type = .deleted

def Notification.deletion (ctx : WatchContext) (n : Notification) : Bool := n.ctx = ctx ∧ n.type = .kNodeDelete

/-- The handle is away, and its watch fires with the deletion when it is back. -/
def Armed.deletion (ctx : WatchContext) (s : St) (a : Armed) : Bool := a.ctx = ctx ∧ (s.missed a).any (·.1 = .deleted)

/-- The handler has been called with the deletion, or will be. -/
def Reported (ctx : WatchContext) (s : St) : Prop :=
  s.log.any (Notification.deletion ctx) ∨ (s.conns 0).inbox.any (Item.deletion ctx) ∨
    (s.conns 0).handling.any (Handling.deletion ctx) ∨ (s.conns 0).armed.any (Armed.deletion ctx s)

/-- The watch was armed on the node, and has missed no change since. -/
def Attached (ctx : WatchContext) (s : St) : Prop :=
  ∃ a ∈ (s.conns 0).armed, a.ctx = ctx ∧ a.existed = true ∧ s.changed .node ctx.path ≤ a.zxid

/-- Nobody makes or sets the node, replaces the handle or ends the watch. -/
def Undisturbed (path : Path) : Act → Prop
  | .foreign w => ∀ type ∈ w.event .node path, type = .deleted
  | .retry ok => ok = false
  | .cancel k p => ¬ (k = .node ∧ p = path)
  | _ => True

instance (ctx : WatchContext) (s : St) : Decidable (Reported ctx s) := inferInstanceAs (Decidable (_ ∨ _))

instance (ctx : WatchContext) (s : St) : Decidable (Attached ctx s) := inferInstanceAs (Decidable (∃ a ∈ _, _))

instance (path : Path) : (a : Act) → Decidable (Undisturbed path a)
  | .foreign w => inferInstanceAs (Decidable (∀ type ∈ w.event .node path, type = .deleted))
  | .retry ok => inferInstanceAs (Decidable (ok = false))
  | .cancel k p => inferInstanceAs (Decidable (¬ (k = .node ∧ p = path)))
  | .serve _ | .fail .. | .session .. | .deliver _ | .dispatch .. | .second | .timer _ | .reg .. | .regReturn _
  | .expire => isTrue trivial

structure DeletionInv (ctx : WatchContext) (s : St) : Prop extends Ordered s where
  made : s.made = 1
  watched : (s.datas .node ctx.path).isSome
  attached : (s.nodes ctx.path).isSome → Attached ctx s
  reported : Reported ctx s ↔ s.nodes ctx.path = none

/-! ## The server -/

theorem apply_isSome {nodes nodes' : Tree} {w : Write} {p : Path} (h : nodes.apply w = some nodes')
    (hev : w.event .node p = none) : (nodes' p).isSome = (nodes p).isSome := by
  cases w with
  | create path value =>
    cases path with
    | nil => cases h
    | cons name dir =>
      have hself : p ≠ name :: dir := fun hp => by simp [Write.event, hp] at hev
      simp only [Tree.apply] at h
      split at h <;> cases h
      rename_i hdir _
      by_cases hp : p = dir <;> simp [hself, hp, hdir]
  | set path value =>
    have hself : p ≠ path := fun hp => by simp [Write.event, hp] at hev
    obtain ⟨n, -, rfl⟩ := Option.map_eq_some_iff.mp h
    simp [hself]
  | delete path =>
    cases path with
    | nil => cases h
    | cons name dir =>
      have hself : p ≠ name :: dir := fun hp => by simp [Write.event, hp] at hev
      simp only [Tree.apply] at h
      split at h
      · split at h <;> cases h
        rename_i hdir _ _
        by_cases hp : p = dir <;> simp [hself, hp, hdir]
      · cases h

theorem apply_was {nodes nodes' : Tree} {w : Write} {p : Path} (h : nodes.apply w = some nodes')
    (hev : w.event .node p = some .deleted) : (nodes p).isSome := by
  cases w with
  | create path value | set path value =>
    simp only [Write.event] at hev
    split at hev <;> cases hev
  | delete path =>
    simp only [Write.event] at hev
    split at hev
    · rename_i hp
      subst hp
      cases p with
      | nil => cases h
      | cons name dir =>
        simp only [Tree.apply] at h
        split at h
        · rename_i hnode
          rw [hnode]
          rfl
        · cases h
    · cases hev

/-! ## What is on the way -/

section
variable {ctx : WatchContext} {s t : St}

theorem missed_congr (hlib : t.library = s.library) : t.missed = s.missed := by
  obtain ⟨hnodes, -, hchanged, -, -⟩ := library_inj hlib
  funext a
  unfold St.missed
  rw [hnodes, hchanged]

theorem any_inbox_fire (c : Conn) (event : Armed → Option (EventType × Nat)) :
    (c.fire event).inbox.any (Item.deletion ctx) = (c.inbox.any (Item.deletion ctx) ||
      c.armed.any fun a => a.ctx = ctx ∧ (event a).any (·.1 = .deleted)) := by
  simp only [Conn.fire, List.any_append, List.any_filterMap]
  congr 2
  funext a
  cases event a <;> simp [Item.deletion]

theorem deletionInv_same (hi : DeletionInv ctx s) (hordered : Ordered t) (hlib : t.library = s.library)
    (hdatas : (t.datas .node ctx.path).isSome) (harmed : (t.conns 0).armed = (s.conns 0).armed)
    (hreported : (t.log.any (Notification.deletion ctx) ∨ (t.conns 0).inbox.any (Item.deletion ctx) ∨
      (t.conns 0).handling.any (Handling.deletion ctx)) ↔ (s.log.any (Notification.deletion ctx) ∨
        (s.conns 0).inbox.any (Item.deletion ctx) ∨ (s.conns 0).handling.any (Handling.deletion ctx))) :
    DeletionInv ctx t := by
  obtain ⟨hnodes, -, hchanged, hmade, -⟩ := library_inj hlib
  have hmissed : Armed.deletion ctx t = Armed.deletion ctx s := by
    funext a
    unfold Armed.deletion
    rw [missed_congr hlib]
  refine ⟨hordered, hmade.trans hi.made, hdatas, ?_, ?_⟩
  · unfold Attached
    rw [hnodes, harmed, hchanged]
    exact hi.attached
  · rw [hnodes, ← hi.reported]
    unfold Reported
    rw [harmed, hmissed]
    tauto

theorem deletionInv_silent (hi : DeletionInv ctx s) (hk : ctx.kind = .node) {w : Write} {nodes : Tree}
    (hw : s.nodes.apply w = some nodes) (hev : w.event .node ctx.path = none) : DeletionInv ctx (s.foreign w nodes) := by
  -- nothing happens to the node: what fires is for other watches
  have hchanged : (s.foreign w nodes).changed .node ctx.path = s.changed .node ctx.path := by simp [St.foreign, hev]
  have hthere := apply_isSome hw hev
  have hnone : (s.foreign w nodes).nodes ctx.path = none ↔ s.nodes ctx.path = none := by
    rw [← Option.not_isSome_iff_eq_none, ← Option.not_isSome_iff_eq_none]
    exact not_congr (iff_of_eq (congrArg (· = true) hthere))
  have hmissed : ∀ a : Armed, Armed.deletion ctx (s.foreign w nodes) a = Armed.deletion ctx s a := by
    intro a
    unfold Armed.deletion
    by_cases ha : a.ctx = ctx
    · simp only [St.missed, ha, hk, hchanged]
      rw [show ((s.foreign w nodes).nodes ctx.path).isSome = (s.nodes ctx.path).isSome from hthere]
    · simp [ha]
  have hconn : (s.foreign w nodes).conns 0 =
      if (s.conns 0).up then (s.conns 0).fire fun a => (w.event a.ctx.kind a.ctx.path).map (·, s.zxid + 1)
      else s.conns 0 := rfl
  have hother : ∀ a : Armed, a.ctx = ctx → (w.event a.ctx.kind a.ctx.path).map (·, s.zxid + 1) = none := by
    intro a ha
    rw [ha, hk, hev]
    rfl
  refine ⟨ordered_foreign hi.toOrdered w nodes, hi.made, hi.watched, fun hsome => ?_, ?_⟩
  · obtain ⟨a, ha, hctx, hexisted, hcaught⟩ := hi.attached (hthere ▸ hsome)
    refine ⟨a, ?_, hctx, hexisted, by rwa [hchanged]⟩
    rw [hconn]
    split
    · exact List.mem_filter.mpr ⟨ha, by simp [hother a hctx]⟩
    · exact ha
  · rw [hnone, ← hi.reported]
    unfold Reported
    rw [hconn]
    split
    · rw [any_inbox_fire]
      have hfired : ((s.conns 0).armed.any fun a => a.ctx = ctx ∧
          ((w.event a.ctx.kind a.ctx.path).map (·, s.zxid + 1)).any (·.1 = .deleted)) = false := by
        rw [List.any_eq_false]
        intro a _
        by_cases ha : a.ctx = ctx
        · simp [hother a ha]
        · simp [ha]
      have hkept : ((s.conns 0).armed.filter fun a => ((w.event a.ctx.kind a.ctx.path).map (·, s.zxid + 1)).isNone).any
          (Armed.deletion ctx (s.foreign w nodes)) = (s.conns 0).armed.any (Armed.deletion ctx s) := by
        rw [List.any_filter]
        congr 1
        funext a
        rw [hmissed]
        by_cases ha : a.ctx = ctx
        · simp [hother a ha]
        · simp [Armed.deletion, ha]
      rw [hfired, Bool.or_false]
      exact iff_of_eq (congrArg (fun b => _ ∨ _ ∨ _ ∨ b = true) hkept)
    · rw [show Armed.deletion ctx (s.foreign w nodes) = Armed.deletion ctx s from funext hmissed]
      exact Iff.rfl

theorem deletionInv_deleted (hi : DeletionInv ctx s) (hk : ctx.kind = .node) {w : Write} {nodes : Tree}
    (hw : s.nodes.apply w = some nodes) (hev : w.event .node ctx.path = some .deleted) :
    DeletionInv ctx (s.foreign w nodes) := by
  have hgone : (s.foreign w nodes).nodes ctx.path = none := apply_deleted hw hev
  obtain ⟨a, ha, hctx, hexisted, -⟩ := hi.attached (apply_was hw hev)
  refine ⟨ordered_foreign hi.toOrdered w nodes, hi.made, hi.watched, fun hsome => ?_, iff_of_true ?_ hgone⟩
  · rw [hgone] at hsome
    cases hsome
  have hconn : (s.foreign w nodes).conns 0 =
      if (s.conns 0).up then (s.conns 0).fire fun a => (w.event a.ctx.kind a.ctx.path).map (·, s.zxid + 1)
      else s.conns 0 := rfl
  unfold Reported
  rw [hconn]
  split
  · rw [any_inbox_fire]
    have hfires : (s.conns 0).armed.any (fun a => a.ctx = ctx ∧
        ((w.event a.ctx.kind a.ctx.path).map (·, s.zxid + 1)).any (·.1 = .deleted)) = true :=
      List.any_eq_true.mpr ⟨a, ha, by simp [hctx, hk, hev]⟩
    exact .inr (.inl (by rw [hfires, Bool.or_true]))
  · refine .inr (.inr (.inr (List.any_eq_true.mpr ⟨a, ha, ?_⟩)))
    have hlate : a.zxid < s.zxid + 1 := Nat.lt_succ_of_le (hi.armed 0 a ha)
    have hchanged : (s.foreign w nodes).changed .node ctx.path = s.zxid + 1 := by simp [St.foreign, hev]
    simp [Armed.deletion, St.missed, hctx, hk, hchanged, hlate, hgone, hexisted]

theorem deletionInv_armed (hi : DeletionInv ctx s) (hordered : Ordered t) (hlib : t.library = s.library)
    (hdatas : t.datas = s.datas) (hlog : t.log = s.log) {a : Armed} (ha : s.missed a = none)
    (hconn : t.conns 0 = { s.conns 0 with armed := (s.conns 0).armed ++ [a], outbox := (t.conns 0).outbox }) :
    DeletionInv ctx t := by
  obtain ⟨hnodes, -, hchanged, hmade, -⟩ := library_inj hlib
  have hmissed : Armed.deletion ctx t = Armed.deletion ctx s := by
    funext a
    unfold Armed.deletion
    rw [missed_congr hlib]
  refine ⟨hordered, hmade.trans hi.made, by rw [hdatas]; exact hi.watched, fun hsome => ?_, ?_⟩
  · rw [hnodes] at hsome
    obtain ⟨b, hb, hctx, hexisted, hcaught⟩ := hi.attached hsome
    refine ⟨b, ?_, hctx, hexisted, by rwa [hchanged]⟩
    rw [hconn]
    exact List.mem_append_left _ hb
  · rw [hnodes, ← hi.reported]
    unfold Reported
    rw [hlog, hconn, hmissed]
    have hnew : Armed.deletion ctx s a = false := by simp [Armed.deletion, ha]
    simp [hnew]

theorem any_sessionItems (armed : List Armed) (state : SessState) (watchersFirst : Bool) :
    (sessionItems armed state watchersFirst).any (Item.deletion ctx) = false := by
  rw [List.any_eq_false]
  intro item hm
  rcases mem_sessionItems hm with rfl | ⟨a, -, rfl⟩ <;> simp [Item.deletion]

theorem deletionInv_connected (hi : DeletionInv ctx s) (hk : ctx.kind = .node) (watchersFirst : Bool) :
    DeletionInv ctx (s.session 0 .connected watchersFirst) := by
  -- the handle is back, and the watches fire that have missed a change
  have hlib := session_library s 0 .connected watchersFirst
  obtain ⟨hnodes, -, hchanged, hmade, -⟩ := library_inj hlib
  have hconn : (s.session 0 .connected watchersFirst).conns 0 =
      ({ s.conns 0 with
        up := true
        inbox := (s.conns 0).inbox ++ sessionItems (s.conns 0).armed .connected watchersFirst } : Conn).fire s.missed := by
    unfold St.session
    rw [if_pos rfl, setConn_self]
  refine ⟨ordered_session hi.toOrdered .., hmade.trans hi.made, by rw [session_datas]; exact hi.watched, fun hsome => ?_, ?_⟩
  · rw [hnodes] at hsome
    obtain ⟨a, ha, hctx, hexisted, hcaught⟩ := hi.attached hsome
    refine ⟨a, ?_, hctx, hexisted, by rwa [hchanged]⟩
    have hcaught : s.missed a = none := if_neg (by rw [hctx, hk]; exact Nat.not_lt.mpr hcaught)
    rw [hconn]
    exact List.mem_filter.mpr ⟨ha, by rw [hcaught]; rfl⟩
  · rw [hnodes, ← hi.reported]
    unfold Reported
    rw [session_log, hconn, any_inbox_fire]
    have hkept : ((s.conns 0).armed.filter fun a => (s.missed a).isNone).any
        (Armed.deletion ctx (s.session 0 .connected watchersFirst)) = false := by
      rw [List.any_eq_false]
      intro a ha
      have hnone := Option.isNone_iff_eq_none.mp (List.mem_filter.mp ha).2
      simp [Armed.deletion, missed_congr hlib, hnone]
    simp only [List.any_append, any_sessionItems, Bool.or_false, Bool.or_eq_true]
    have hfired : ((s.conns 0).armed.any fun a => a.ctx = ctx ∧ (s.missed a).any (·.1 = .deleted)) =
        (s.conns 0).armed.any (Armed.deletion ctx s) := rfl
    rw [hfired]
    change _ ∨ _ ∨ _ ∨ (((s.conns 0).armed.filter fun a => (s.missed a).isNone).any _ = true) ↔ _
    rw [hkept]
    simp only [Bool.false_eq_true, or_false]
    tauto

theorem deletionInv_disconnected (hi : DeletionInv ctx s) {state : SessState} (hstate : state ≠ .connected)
    (watchersFirst : Bool) : DeletionInv ctx (s.session 0 state watchersFirst) := by
  have hconn : (s.session 0 state watchersFirst).conns 0 = { s.conns 0 with
      up := false
      outbox := []
      inbox := (s.conns 0).inbox ++ sessionItems (s.conns 0).armed state watchersFirst ++
        ((s.conns 0).outbox.filterMap Request.read?).map (.fetched · (.failed .zconnectionloss)) } := by
    unfold St.session
    rw [if_neg hstate, setConn_self]
  have hlost : (((s.conns 0).outbox.filterMap Request.read?).map fun d => Item.fetched d (.failed .zconnectionloss)).any
      (Item.deletion ctx) = false := by
    rw [List.any_eq_false]
    intro item hm
    obtain ⟨d, -, rfl⟩ := List.mem_map.mp hm
    simp [Item.deletion]
  refine deletionInv_same hi (ordered_session hi.toOrdered ..) (session_library ..) ?_ (by rw [hconn]) ?_
  · rw [session_datas]
    exact hi.watched
  · rw [session_log, hconn]
    simp only [List.any_append, any_sessionItems, hlost, Bool.or_false]

/-! ## The callbacks -/

theorem any_notify (hk : ctx.kind = .node) (hwatched : (s.datas .node ctx.path).isSome) (n : Notification) :
    (s.notify n).log.any (Notification.deletion ctx) =
      (s.log.any (Notification.deletion ctx) || Notification.deletion ctx n) := by
  unfold St.notify
  by_cases hn : n.ctx = ctx
  · have hnotify : s.isShouldNotify n.ctx.kind n.ctx.path = true := by
      rw [hn, hk]
      exact hwatched
    simp [hnotify]
  · have hother : Notification.deletion ctx n = false := by simp [Notification.deletion, hn]
    rw [hother, Bool.or_false]
    split <;> simp [hother]

theorem fetched_type (ctx : WatchContext) {d : ContextInWatcher} {result : Fetched} (h : s.fetched d result = some t) :
    ∃ n : Notification, t = s.notify n ∧ Notification.deletion ctx n = false := by
  have hcarried : d.notifyType ≠ .kNodeDelete := by
    intro htype
    have hc := d.carried
    rw [htype] at hc
    cases hkind : d.ctx.kind <;> rw [hkind] at hc <;> cases hc
  unfold St.fetched at h
  split at h
  · unfold getNodeDataOnWatcher at h
    split at h
    · cases h
      exact ⟨_, rfl, by simp [Notification.deletion, hcarried]⟩
    · split at h
      · cases h
      · rename_i hno
        cases h
        exact ⟨⟨d.ctx, .kTypeError, "", 0, [], d.zxid⟩, by simp [St.notify, hno], by simp [Notification.deletion]⟩
    · split at h
      · cases h
      · split at h <;> cases h <;> exact ⟨_, rfl, by simp [Notification.deletion]⟩
    · cases h
  · unfold getChildDataOnWatcher at h
    split at h
    · cases h
      exact ⟨_, rfl, by simp [Notification.deletion, hcarried]⟩
    · split at h
      · cases h
      · split at h <;> cases h <;> exact ⟨_, rfl, by simp [Notification.deletion]⟩
    · cases h

theorem deletionInv_deliver (hi : DeletionInv ctx s) (hk : ctx.kind = .node) (hordered : Ordered t)
    (h : s.deliver 0 = some t) : DeletionInv ctx t := by
  simp only [St.deliver] at h
  split at h
  · rename_i state inbox hhandling hinbox
    cases h
    refine deletionInv_same hi hordered rfl hi.watched (by simp [St.setConn]) ?_
    simp [St.setConn, hinbox, Item.deletion]
  · rename_i c type zxid inbox hhandling hinbox
    split at h <;> cases h
    refine deletionInv_same hi hordered rfl hi.watched (by simp [St.setConn, St.queueAutoReg]) ?_
    by_cases htype : type = .session
    · simp [St.setConn, St.queueAutoReg, hinbox, hhandling, htype, Item.deletion]
    · simp [St.setConn, St.queueAutoReg, hinbox, hhandling, htype, Item.deletion, Handling.deletion, or_comm,
        or_left_comm]
  · rename_i d result inbox hhandling hinbox
    obtain ⟨n, rfl, htype⟩ := fetched_type ctx h
    refine deletionInv_same hi hordered rfl hi.watched (by simp [St.setConn, St.notify]) ?_
    have hlog := any_notify (s := s.setConn 0 { s.conns 0 with inbox }) hk hi.watched n
    rw [hlog, htype]
    simp [St.setConn, St.notify, hinbox, Item.deletion]
  · cases h

theorem existWatcher_tells (ctx : WatchContext) (s : St) {h : Handling} (hh : h.ctx.kind = .node) (accepted : Bool) :
    (∃ n, existWatcher s 0 h hh accepted = s.notify n ∧ Notification.deletion ctx n = Handling.deletion ctx h) ∨
      Handling.deletion ctx h = false ∧
        (existWatcher s 0 h hh accepted = s ∨ ∃ d, existWatcher s 0 h hh accepted = s.send 0 (.read d)) := by
  cases htype : h.type <;> cases accepted <;>
    simp only [existWatcher, htype, if_true, Bool.false_eq_true, if_false]
  case created.true | changed.true => exact .inr ⟨by simp [Handling.deletion, htype], .inr ⟨_, rfl⟩⟩
  case child.true | child.false | session.true | session.false =>
    exact .inr ⟨by simp [Handling.deletion, htype], .inl trivial⟩
  all_goals exact .inl ⟨_, rfl, by simp [Notification.deletion, Handling.deletion, htype]⟩

theorem deletionInv_dispatch (hi : DeletionInv ctx s) (hk : ctx.kind = .node) (hordered : Ordered t) {accepted : Bool}
    (h : step s (.dispatch 0 accepted) = some t) : DeletionInv ctx t := by
  have hdispatch : s.dispatch 0 accepted = some t := by
    simp only [step] at h
    split at h
    · exact h
    · cases h
  obtain ⟨hd, hh, ht⟩ := Option.map_eq_some_iff.mp hdispatch
  by_cases hnode : hd.ctx.kind = .node
  · rw [dif_pos hnode] at ht
    rcases existWatcher_tells ctx (s.setConn 0 { s.conns 0 with handling := none }) hnode accepted with
      ⟨n, hn, hsame⟩ | ⟨hother, hn | ⟨d, hn⟩⟩
    · rw [hn] at ht
      subst ht
      refine deletionInv_same hi hordered rfl hi.watched (by simp [St.setConn, St.notify]) ?_
      have hlog := any_notify (s := s.setConn 0 { s.conns 0 with handling := none }) hk hi.watched n
      rw [hlog, hsame]
      simp [St.setConn, St.notify, hh, or_assoc, or_comm, or_left_comm]
    · rw [hn] at ht
      subst ht
      refine deletionInv_same hi hordered rfl hi.watched (by simp [St.setConn]) ?_
      simp [St.setConn, hh, hother]
    · rw [hn] at ht
      subst ht
      refine deletionInv_same hi hordered rfl hi.watched (by simp [St.setConn, St.send]) ?_
      simp [St.setConn, St.send, hh, hother]
  -- a child watch's callback tells nothing of the node
  · have hother : hd.ctx ≠ ctx := fun heq => hnode (by rw [heq, hk])
    cases step_inv h with
    | @told _ _ h' n _ hh' hctx _ _ =>
      rw [hh] at hh'
      cases hh'
      refine deletionInv_same hi hordered rfl hi.watched (by simp [St.setConn, St.notify]) ?_
      have hlog := any_notify (s := s.setConn 0 { s.conns 0 with handling := none }) hk hi.watched n
      rw [hlog]
      simp [St.setConn, St.notify, hh, Notification.deletion, Handling.deletion, hctx, hother]
    | fetch _ hh' _ _ _ =>
      rw [hh] at hh'
      cases hh'
      refine deletionInv_same hi hordered rfl hi.watched (by simp [St.setConn, St.send]) ?_
      simp [St.setConn, St.send, hh, Handling.deletion, hother]
    | nothing _ hh' _ _ =>
      rw [hh] at hh'
      cases hh'
      refine deletionInv_same hi hordered rfl hi.watched (by simp [St.setConn]) ?_
      simp [St.setConn, hh, Handling.deletion, hother]

theorem deletionInv_sent (hi : DeletionInv ctx s) (hordered : Ordered t) {zh : Nat} {r : Request}
    (hlib : t.library = s.library) (hdatas : (t.datas .node ctx.path).isSome) (hlog : t.log = s.log)
    (hconns : t.conns = (s.send zh r).conns) : DeletionInv ctx t := by
  refine deletionInv_same hi hordered hlib hdatas ?_ ?_
  · by_cases hz : 0 = zh <;> simp [hconns, St.send, St.setConn, hz]
  · by_cases hz : 0 = zh <;> simp [hconns, hlog, St.send, St.setConn, hz]

/-! ## Runs -/

theorem deletionInv_step (hk : ctx.kind = .node) (hi : DeletionInv ctx s) {a : Act} (hg : Undisturbed ctx.path a)
    (h : step s a = some t) : DeletionInv ctx t := by
  have hordered := ordered_step hi.toOrdered h
  -- the session lasts, so all is on one handle
  have hzero : ∀ {zh}, zh < s.made → zh = 0 := by
    intro zh hz
    have hmade := hi.made
    omega
  cases step_inv h with
  | @foreign w nodes hw =>
    cases hev : w.event .node ctx.path with
    | none => exact deletionInv_silent hi hk hw hev
    | some type =>
      -- the only write that raises an event is the deletion
      rw [hg type hev] at hev
      exact deletionInv_deleted hi hk hw hev
  | @armed zh c auto outbox hz ho harms =>
    cases hzero hz
    refine deletionInv_armed (a := ⟨c, s.zxid, (s.nodes c.path).isSome⟩) hi hordered rfl rfl rfl ?_ ?_
    · exact if_neg (Nat.not_lt.mpr (hi.changed c.kind c.path))
    · show ((s.setConn 0 { s.conns 0 with outbox }).arm 0 c).conns 0 = _
      rw [arm_conns, setConn_self]
      rfl
  | refused hz ho | failWatch hz ho =>
    cases hzero hz
    exact deletionInv_same hi hordered rfl hi.watched (by simp [St.reply, St.setConn]) (by simp [St.reply, St.setConn])
  | read hz ho | failRead hz _ ho =>
    cases hzero hz
    exact deletionInv_same hi hordered rfl hi.watched (by simp [St.setConn]) (by simp [St.setConn, Item.deletion])
  | @session zh state watchersFirst hz _ =>
    cases hzero hz
    by_cases hstate : state = .connected
    · rw [hstate]
      exact deletionInv_connected hi hk watchersFirst
    · exact deletionInv_disconnected hi hstate watchersFirst
  | sessionWatcher hz _ | event hz _ _ | fetched hz _ _ _ _ _ =>
    cases hzero hz
    exact deletionInv_deliver hi hk hordered (by simpa [step, hz] using h)
  | told hz _ _ _ _ | fetch hz _ _ _ _ | nothing hz _ _ _ =>
    cases hzero hz
    exact deletionInv_dispatch hi hk hordered h
  | @autoSent k p data zh _ _ _ =>
    exact deletionInv_sent hi hordered (r := .watch (data.toContext k) true) rfl hi.watched rfl rfl
  | @regSent k p handler context zh _ _ =>
    exact deletionInv_sent hi hordered (r := .watch ⟨k, p, handler, context⟩ false) rfl hi.watched rfl rfl
  | autoStored _ => exact deletionInv_same hi hordered rfl (stored_isSome hi.watched ..) rfl Iff.rfl
  | @regStored i c _ =>
    have hwatched : (St.datas { s with replied := s.replied.eraseIdx i } .node ctx.path).isSome := hi.watched
    exact deletionInv_same hi hordered rfl (stored_isSome hwatched ..) rfl Iff.rfl
  | cancel k p =>
    refine deletionInv_same hi hordered rfl ?_ rfl Iff.rfl
    have hother : ¬ (Kind.node = k ∧ ctx.path = p) := fun heq => hg ⟨heq.1.symm, heq.2.symm⟩
    simp only [St.setWatchData, hother, if_false]
    exact hi.watched
  | retried => cases hg
  | retryFailed _ => exact ⟨hordered, hi.made, hi.watched, hi.attached, hi.reported⟩
  | _ => exact deletionInv_same hi hordered rfl hi.watched rfl Iff.rfl

end

def nodeRegistered : St := (Lts.run step (St.initial oneNode) registered).get rfl

def deletedAway : List Act :=
  [.session 0 .connecting false, .deliver 0, .deliver 0, .foreign (.delete ["a"]), .session 0 .connected true,
    .deliver 0, .deliver 0, .deliver 0, .dispatch 0 true]

/-- Without the condition on the writes the deletion is missed: the node is set, and deleted before it is watched again. -/
theorem not_reported_set : ¬ Lts.Throughout step (fun t => Reported ⟨.node, ["a"], 1, 0⟩ t ↔ t.nodes ["a"] = none)
    nodeRegistered [.foreign (.set ["a"] (some "v1")), .foreign (.delete ["a"])] := by
  apply Lts.not_throughout
  decide

end ZkCppClient.Watch
