import ZkCppClient.Watch.Machine

/-!
# Missed changes

What the user has been told of a path is a history that ends with what the
server holds, as long as nothing is on the way. The read of the new value is
sent by the library thread, and the watch is armed again by the second thread:
a change between the two raises no event and is in no reply.
-/

namespace ZkCppClient.Watch

def Item.concerns (k : Kind) (p : Path) : Item → Bool
  | .event ctx _ _ => ctx.on k p
  | .fetched d _ => d.ctx.on k p
  | .sessionWatcher _ => false

def Request.reads (k : Kind) (p : Path) : Request → Bool
  | .read d => d.ctx.on k p
  | .watch _ _ => false

/-- No watch event to deliver, no re-registration queued or running, no read under way. -/
structure Quiescent (k : Kind) (p : Path) (s : St) : Prop where
  inbox : ∀ item ∈ (s.conns 0).inbox, item.concerns k p = false
  handling : ∀ h ∈ (s.conns 0).handling, ¬ h.ctx.on k p
  outbox : ∀ r ∈ (s.conns 0).outbox, r.reads k p = false
  funs : (k, p) ∉ s.funs
  second : s.second.path ≠ some (k, p)

instance (k : Kind) (p : Path) (s : St) : Decidable (Quiescent k p s) :=
  decidable_of_iff ((∀ item ∈ (s.conns 0).inbox, item.concerns k p = false) ∧
      (∀ h ∈ (s.conns 0).handling, ¬ h.ctx.on k p) ∧ (∀ r ∈ (s.conns 0).outbox, r.reads k p = false) ∧
      (k, p) ∉ s.funs ∧ s.second.path ≠ some (k, p))
    ⟨fun ⟨hi, hh, ho, hf, hs⟩ => ⟨hi, hh, ho, hf, hs⟩, fun h => ⟨h.inbox, h.handling, h.outbox, h.funs, h.second⟩⟩

/-- What the user knows: what the path held when its watch was first armed, and
what the notifications have told since. -/
def told (k : Kind) (p : Path) (s : St) : List (Option Fetched) :=
  (s.base k p).toList.map some ++ (s.log.filter fun n => n.ctx.on k p).map Notification.tells

/-- At quiescence the user has been told last what the server holds. -/
def NoChangeMissed (k : Kind) (p : Path) (s : St) : Prop :=
  s.base k p ≠ none → Quiescent k p s → (told k p s).getLast? = some (some (s.nodes.read p k))

instance (k : Kind) (p : Path) (s : St) : Decidable (NoChangeMissed k p s) := inferInstanceAs (Decidable (_ → _ → _))

def Connected (s : St) : Act → Prop
  | .session _ _ _ | .expire | .retry _ | .dispatch _ false => False
  | .fail zh _ => ∀ r ∈ (s.conns zh).outbox.head?, r.read? = none
  | _ => True

instance (s : St) (a : Act) : Decidable (Connected s a) := by
  unfold Connected; split <;> infer_instance

/-! ## What is on the way -/

def Item.reads (k : Kind) (p : Path) : Item → Bool
  | .event ctx type _ => ctx.on k p ∧ fetches k type
  | _ => false

/-- The read of the new value is still to be sent, or to be taken by the server. -/
def Conn.reading (k : Kind) (p : Path) (c : Conn) : Bool :=
  c.inbox.any (·.reads k p) || c.handling.any (fun h => h.ctx.on k p ∧ fetches k h.type) || c.outbox.any (·.reads k p)

def announces (k : Kind) (type : EventType) : Bool := fetches k type || (type.tells k).isSome

def Item.answers (k : Kind) (p : Path) : Item → Bool
  | .fetched d _ => d.ctx.on k p
  | _ => false

/-- A change of a path that has been watched finds its watch armed, with an event
that the callback acts on, or the read of an earlier change still under way; and
the callbacks that notify the user find the path registered. -/
def Caught (k : Kind) (p : Path) (s : St) : Act → Prop
  | .foreign w => ∀ nodes ∈ s.nodes.apply w, nodes.read p k ≠ s.nodes.read p k → s.base k p ≠ none →
      (s.conns 0).reading k p = true ∨
        (∃ a ∈ (s.conns 0).armed, a.ctx.on k p) ∧ ∃ type ∈ w.event k p, announces k type = true
  | .deliver zh => ∀ item ∈ (s.conns zh).inbox.head?, item.answers k p = true → s.datas k p ≠ none
  | .dispatch zh _ => ∀ h ∈ (s.conns zh).handling, h.ctx.on k p → fetches k h.type = false → s.datas k p ≠ none
  | _ => True

instance (k : Kind) (p : Path) (s : St) (a : Act) : Decidable (Caught k p s a) := by
  unfold Caught; split <;> infer_instance

/-- What the events and replies on the way will tell, in the order of their delivery. -/
def Item.tells (k : Kind) (p : Path) : Item → List (Option Fetched)
  | .event ctx type _ => if ctx.on k p then (type.tells k).toList else []
  | .fetched d result => if d.ctx.on k p then [result.tells] else []
  | .sessionWatcher _ => []

def Handling.tells (k : Kind) (p : Path) (h : Handling) : List (Option Fetched) :=
  if h.ctx.on k p then (h.type.tells k).toList else []

def Conn.tells (k : Kind) (p : Path) (c : Conn) : List (Option Fetched) :=
  c.handling.toList.flatMap (Handling.tells k p) ++ c.inbox.flatMap (Item.tells k p)

structure ChangeInv (k : Kind) (p : Path) (s : St) : Prop where
  made : s.made = 1
  zhandle : s.zhandle = some 0
  up : (s.conns 0).up = true
  unwatched : s.base k p = none → told k p s ++ (s.conns 0).tells k p = [] ∧ (s.conns 0).reading k p = false ∧
    ∀ a ∈ (s.conns 0).armed, ¬ a.ctx.on k p
  current : s.base k p ≠ none → (s.conns 0).reading k p = false →
    (told k p s ++ (s.conns 0).tells k p).getLast? = some (some (s.nodes.read p k))

theorem changeInv_initial (k : Kind) (p : Path) (nodes : Tree) : ChangeInv k p (St.initial nodes) where
  made := rfl
  zhandle := rfl
  up := rfl
  unwatched _ := ⟨rfl, rfl, nofun⟩
  current h := absurd rfl h

section
variable {k : Kind} {p : Path} {s t : St} {c : Conn}

theorem noChangeMissed_of_changeInv (hi : ChangeInv k p s) : NoChangeMissed k p s := by
  intro hbase hq
  have hinbox : (s.conns 0).inbox.flatMap (Item.tells k p) = [] := by
    rw [List.flatMap_eq_nil_iff]
    intro item hm
    have hno := hq.inbox item hm
    cases item with
    | sessionWatcher _ => rfl
    | event ctx _ _ => exact if_neg (of_decide_eq_false hno)
    | fetched d _ => exact if_neg (of_decide_eq_false hno)
  have hhandling : (s.conns 0).handling.toList.flatMap (Handling.tells k p) = [] := by
    rw [List.flatMap_eq_nil_iff]
    exact fun h hm => if_neg (hq.handling h (Option.mem_toList.mp hm))
  have hreading : (s.conns 0).reading k p = false := by
    have hitems : (s.conns 0).inbox.any (·.reads k p) = false := by
      rw [List.any_eq_false]
      intro item hm hr
      have hno := hq.inbox item hm
      cases item with
      | event ctx type z => exact of_decide_eq_false hno (of_decide_eq_true hr).1
      | _ => cases hr
    have hrequests : (s.conns 0).outbox.any (·.reads k p) = false := by
      rw [List.any_eq_false]
      exact fun r hm hr => by rw [hq.outbox r hm] at hr; cases hr
    have hnone : (s.conns 0).handling.any (fun h => h.ctx.on k p ∧ fetches k h.type) = false := by
      cases hh : (s.conns 0).handling with
      | none => rfl
      | some h => exact decide_eq_false fun hon => hq.handling h hh hon.1
    rw [Conn.reading, hitems, hnone, hrequests]
    rfl
  have h := hi.current hbase hreading
  rwa [Conn.tells, hinbox, hhandling, List.append_nil, List.append_nil] at h

/-! ## Steps that leave the history alone -/

theorem changeInv_same (hi : ChangeInv k p s) (hlib : t.library = s.library)
    (hup : (t.conns 0).up = (s.conns 0).up) (hbase : t.base k p = s.base k p)
    (htells : told k p t ++ (t.conns 0).tells k p = told k p s ++ (s.conns 0).tells k p)
    (hreading : (t.conns 0).reading k p = (s.conns 0).reading k p)
    (harmed : ∀ a ∈ (t.conns 0).armed, a.ctx.on k p → a ∈ (s.conns 0).armed) : ChangeInv k p t := by
  obtain ⟨hnodes, -, -, hmade, hzh⟩ := library_inj hlib
  constructor
  · exact hmade.trans hi.made
  · exact hzh.trans hi.zhandle
  · exact hup.trans hi.up
  · intro hb
    rw [hbase] at hb
    obtain ⟨hnil, hno, hfree⟩ := hi.unwatched hb
    exact ⟨htells.trans hnil, hreading.trans hno, fun a ha hon => hfree a (harmed a ha hon) hon⟩
  · intro hb hno
    rw [hbase] at hb
    rw [htells, hnodes]
    exact hi.current hb (hreading.symm.trans hno)

theorem changeInv_conn (hi : ChangeInv k p s) (hlib : t.library = s.library)
    (hconns : t.conns = (s.setConn 0 c).conns) (hbase : t.base k p = s.base k p) (hlog : t.log = s.log)
    (hup : c.up = (s.conns 0).up) (htells : c.tells k p = (s.conns 0).tells k p)
    (hreading : c.reading k p = (s.conns 0).reading k p)
    (harmed : ∀ a ∈ c.armed, a.ctx.on k p → a ∈ (s.conns 0).armed) : ChangeInv k p t := by
  have hself : t.conns 0 = c := by rw [hconns, setConn_self]
  refine changeInv_same hi hlib ?_ hbase ?_ ?_ ?_
  · rw [hself, hup]
  · unfold told
    rw [hself, hbase, hlog, htells]
  · rw [hself, hreading]
  · rw [hself]; exact harmed

theorem changeInv_beside (hi : ChangeInv k p s) (hlib : t.library = s.library) (hconns : t.conns = s.conns)
    (hbase : t.base k p = s.base k p) (hlog : t.log = s.log) : ChangeInv k p t := by
  refine changeInv_same hi hlib (by rw [hconns]) hbase ?_ (by rw [hconns]) ?_
  · unfold told
    rw [hconns, hbase, hlog]
  · rw [hconns]
    exact fun _ ha _ => ha

theorem told_notify (n : Notification) : told k p (s.notify n) =
    told k p s ++ if n.ctx.on k p ∧ s.datas k p ≠ none then [n.tells] else [] := by
  unfold told St.notify
  dsimp only
  by_cases hon : n.ctx.on k p
  · have hreg : s.isShouldNotify n.ctx.kind n.ctx.path = true ↔ s.datas k p ≠ none := by
      rw [hon.1, hon.2, St.isShouldNotify, Option.isSome_iff_ne_none]
    by_cases hd : s.datas k p ≠ none
    · rw [if_pos (hreg.mpr hd), if_pos ⟨hon, hd⟩, List.filter_append, List.map_append, List.append_assoc]
      simp [hon]
    · rw [if_neg fun h => hd (hreg.mp h), if_neg fun h => hd h.2, List.append_nil]
  · simp only [hon, false_and, if_false, List.append_nil]
    split
    · rw [List.filter_append]
      simp [hon]
    · rfl

/-! ## Changes -/

theorem tells_event {w : Write} {nodes nodes' : Tree} {type : EventType} {x : Option Fetched}
    (happly : nodes.apply w = some nodes') (hw : w.event k p = some type) (hx : type.tells k = some x) :
    x = some (nodes'.read p k) := by
  unfold EventType.tells at hx
  split at hx
  · cases hx
    rw [Tree.read, apply_deleted happly hw]
    rfl
  · exact absurd rfl (event_ne hw).2
  · cases hx

theorem tells_fire (l : List Armed) (w : Write) (z : Nat) :
    (l.filterMap fun a => ((w.event a.ctx.kind a.ctx.path).map (·, z)).map fun e => Item.event a.ctx e.1 e.2).flatMap
        (Item.tells k p) =
      (l.filter fun a => a.ctx.on k p).flatMap fun _ => ((w.event k p).bind (EventType.tells k)).toList := by
  induction l with
  | nil => rfl
  | cons a l ih =>
    by_cases hon : a.ctx.on k p
    · rw [List.filterMap_cons, List.filter_cons, if_pos (decide_eq_true hon), List.flatMap_cons, ← ih, hon.1, hon.2]
      cases w.event k p with
      | none => rfl
      | some type => simp only [Option.map_some, List.flatMap_cons, Item.tells, hon, if_true, Option.bind_some]
    · rw [List.filterMap_cons, List.filter_cons, if_neg fun h => hon (of_decide_eq_true h), ← ih]
      cases w.event a.ctx.kind a.ctx.path with
      | none => rfl
      | some type => simp only [Option.map_some, List.flatMap_cons, Item.tells, hon, if_false, List.nil_append]

theorem reading_fire (w : Write) (z : Nat) :
    (c.fire fun a => (w.event a.ctx.kind a.ctx.path).map (·, z)).reading k p = true ↔
      c.reading k p = true ∨ (∃ a ∈ c.armed, a.ctx.on k p) ∧ ∃ type ∈ w.event k p, fetches k type = true := by
  have hfired : ((c.armed.filterMap fun a => ((w.event a.ctx.kind a.ctx.path).map (·, z)).map fun e =>
      Item.event a.ctx e.1 e.2).any (·.reads k p)) = true ↔
      (∃ a ∈ c.armed, a.ctx.on k p) ∧ ∃ type ∈ w.event k p, fetches k type = true := by
    rw [List.any_eq_true]
    constructor
    · rintro ⟨item, hm, hr⟩
      obtain ⟨a, ha, hitem⟩ := List.mem_filterMap.mp hm
      obtain ⟨e, he, rfl⟩ := Option.map_eq_some_iff.mp hitem
      obtain ⟨type, hw, rfl⟩ := Option.map_eq_some_iff.mp he
      obtain ⟨hon, hf⟩ := of_decide_eq_true hr
      rw [hon.1, hon.2] at hw
      exact ⟨⟨a, ha, hon⟩, type, hw, hf⟩
    · rintro ⟨⟨a, ha, hon⟩, type, hw, hf⟩
      refine ⟨.event a.ctx type z, List.mem_filterMap.mpr ⟨a, ha, ?_⟩, decide_eq_true ⟨hon, hf⟩⟩
      rw [hon.1, hon.2, Option.mem_def.mp hw]; rfl
  unfold Conn.reading Conn.fire
  simp only [List.any_append, Bool.or_eq_true, hfired]
  generalize ((∃ a ∈ c.armed, a.ctx.on k p) ∧ ∃ type ∈ w.event k p, fetches k type = true) = fired
  tauto

theorem changeInv_foreign (hi : ChangeInv k p s) {w : Write} {nodes : Tree} (hw : s.nodes.apply w = some nodes)
    (hg : Caught k p s (.foreign w)) : ChangeInv k p (s.foreign w nodes) := by
  have hconn : (s.foreign w nodes).conns 0 =
      (s.conns 0).fire fun a => (w.event a.ctx.kind a.ctx.path).map (·, s.zxid + 1) := if_pos hi.up
  have hreading := reading_fire (k := k) (p := p) (c := s.conns 0) w (s.zxid + 1)
  rw [← hconn] at hreading
  have htells : told k p (s.foreign w nodes) ++ ((s.foreign w nodes).conns 0).tells k p =
      told k p s ++ (s.conns 0).tells k p ++ ((s.conns 0).armed.filter fun a => a.ctx.on k p).flatMap fun _ =>
        ((w.event k p).bind (EventType.tells k)).toList := by
    have h := tells_fire (k := k) (p := p) (s.conns 0).armed w (s.zxid + 1)
    rw [hconn, ← h]
    unfold Conn.tells Conn.fire
    rw [List.flatMap_append, ← List.append_assoc, ← List.append_assoc, ← List.append_assoc]
    rfl
  have harmed : ∀ a ∈ ((s.foreign w nodes).conns 0).armed, a ∈ (s.conns 0).armed := by
    rw [hconn]
    exact fun a ha => (List.mem_filter.mp ha).1
  refine ⟨hi.made, hi.zhandle, by rw [hconn]; exact hi.up, fun hb => ?_, fun hb hno => ?_⟩
  · obtain ⟨hnil, hno, hfree⟩ := hi.unwatched hb
    have hempty : ((s.conns 0).armed.filter fun a => a.ctx.on k p) = [] :=
      List.filter_eq_nil_iff.mpr fun a ha h => hfree a ha (of_decide_eq_true h)
    refine ⟨?_, Bool.eq_false_iff.mpr fun h => ?_, fun a ha => hfree a (harmed a ha)⟩
    · rw [htells, hnil, hempty]; rfl
    · rcases hreading.mp h with h | ⟨⟨a, ha, hon⟩, -⟩
      · rw [hno] at h; cases h
      · exact hfree a ha hon
  · have hno : ¬ ((s.foreign w nodes).conns 0).reading k p = true := Bool.eq_false_iff.mp hno
    have hold : ¬ (s.conns 0).reading k p = true := fun h => hno (hreading.mpr (.inl h))
    have hlast := hi.current hb (Bool.eq_false_iff.mpr hold)
    -- a change that tells nothing would be read
    have hcaught : nodes.read p k ≠ s.nodes.read p k →
        (∃ a ∈ (s.conns 0).armed, a.ctx.on k p) ∧ ∃ x, (w.event k p).bind (EventType.tells k) = some x := by
      intro hne
      obtain ⟨harm, type, htype, hann⟩ := (hg nodes hw hne hb).resolve_left hold
      refine ⟨harm, ?_⟩
      rcases Bool.or_eq_true_iff.mp hann with hf | ht
      · exact absurd (hreading.mpr (.inr ⟨harm, type, htype, hf⟩)) hno
      · obtain ⟨x, hx⟩ := Option.isSome_iff_exists.mp ht
        exact ⟨x, by rw [Option.mem_def.mp htype]; exact hx⟩
    rw [htells]
    show _ = some (some (nodes.read p k))
    by_cases hsilent : ((s.conns 0).armed.filter fun a => a.ctx.on k p) = [] ∨
        (w.event k p).bind (EventType.tells k) = none
    · have hnil : (((s.conns 0).armed.filter fun a => a.ctx.on k p).flatMap fun _ =>
          ((w.event k p).bind (EventType.tells k)).toList) = [] := by
        rcases hsilent with h | h
        · rw [h]; rfl
        · rw [h]; simp
      have hsame : nodes.read p k = s.nodes.read p k := by
        by_contra hne
        obtain ⟨⟨a, ha, hon⟩, x, hx⟩ := hcaught hne
        rcases hsilent with h | h
        · exact List.filter_eq_nil_iff.mp h a ha (decide_eq_true hon)
        · rw [hx] at h; cases h
      rw [hnil, List.append_nil, hlast, hsame]
    · obtain ⟨hsome, hx⟩ := not_or.mp hsilent
      obtain ⟨x, hx⟩ := Option.ne_none_iff_exists'.mp hx
      obtain ⟨type, htype, htells⟩ := Option.bind_eq_some_iff.mp hx
      obtain ⟨init, a, hl⟩ := (List.eq_nil_or_concat _).resolve_left hsome
      rw [hx, hl, tells_event hw htype htells]
      simp

/-! ## Steps of the handle -/

theorem reading_watch {ctx : WatchContext} {auto : Bool} {outbox : List Request}
    (ho : (s.conns 0).outbox = .watch ctx auto :: outbox) :
    Conn.reading k p { s.conns 0 with outbox } = (s.conns 0).reading k p := by
  simp only [Conn.reading, ho, List.any_cons, Request.reads, Bool.false_or]

theorem reading_sent (ctx : WatchContext) (auto : Bool) :
    Conn.reading k p { s.conns 0 with outbox := (s.conns 0).outbox ++ [.watch ctx auto] } =
      (s.conns 0).reading k p := by
  simp only [Conn.reading, List.any_append, List.any_cons, List.any_nil, Request.reads, Bool.or_false]

theorem changeInv_armed (hi : ChangeInv k p s) {ctx : WatchContext} {auto : Bool} {outbox : List Request}
    (ho : (s.conns 0).outbox = .watch ctx auto :: outbox) :
    ChangeInv k p (((s.setConn 0 { s.conns 0 with outbox }).arm 0 ctx).reply ctx auto true) := by
  have hconns := arm_conns s 0 ctx outbox
  have hconn : (((s.setConn 0 { s.conns 0 with outbox }).arm 0 ctx).reply ctx auto true).conns 0 = _ :=
    (congrFun hconns 0).trans (setConn_self ..)
  have hbase : (((s.setConn 0 { s.conns 0 with outbox }).arm 0 ctx).reply ctx auto true).base k p =
      if k = ctx.kind ∧ p = ctx.path then some ((s.base k p).getD (s.nodes.read p k)) else s.base k p := rfl
  by_cases hon : k = ctx.kind ∧ p = ctx.path
  · rw [if_pos hon] at hbase
    refine ⟨hi.made, hi.zhandle, by rw [hconn]; exact hi.up, fun hb => ?_, fun _ hno => ?_⟩
    · rw [hbase] at hb; cases hb
    · have hno : (s.conns 0).reading k p = false := by
        rw [hconn] at hno
        exact (reading_watch ho).symm.trans hno
      rw [hconn]
      unfold told
      rw [hbase]
      cases hb : s.base k p with
      | none =>  -- armed for the first time: what the user knows is what the path holds now
        have hnil := (hi.unwatched hb).1
        unfold told at hnil
        obtain ⟨hlog, htells⟩ := List.append_eq_nil_iff.mp hnil
        show ([some (s.nodes.read p k)] ++ (s.log.filter fun n => n.ctx.on k p).map Notification.tells ++
          (s.conns 0).tells k p).getLast? = _
        rw [(List.append_eq_nil_iff.mp hlog).2, htells]
        rfl
      | some b =>  -- armed again: with no read under way, what was told last still holds
        have hlast := hi.current (by rw [hb]; nofun) hno
        unfold told at hlast
        rw [hb] at hlast
        exact hlast
  · rw [if_neg hon] at hbase
    refine changeInv_conn hi rfl hconns hbase rfl rfl rfl (reading_watch ho) fun a ha hona => ?_
    rcases List.mem_append.mp ha with ha | ha
    · exact ha
    · rw [List.mem_singleton.mp ha] at hona
      exact absurd ⟨hona.1.symm, hona.2.symm⟩ hon

theorem tells_read (nodes : Tree) (p : Path) (k : Kind) : (nodes.read p k).tells = some (nodes.read p k) := by
  unfold Tree.read
  cases k <;> cases nodes p <;> rfl

theorem changeInv_read (hi : ChangeInv k p s) {d : ContextInWatcher} {outbox : List Request}
    (ho : (s.conns 0).outbox = .read d :: outbox) :
    ChangeInv k p (s.setConn 0 { s.conns 0 with
      outbox
      inbox := (s.conns 0).inbox ++ [.fetched d (s.nodes.read d.ctx.path d.ctx.kind)] }) := by
  have hself := setConn_self s 0 { s.conns 0 with
    outbox
    inbox := (s.conns 0).inbox ++ [.fetched d (s.nodes.read d.ctx.path d.ctx.kind)] }
  by_cases hon : d.ctx.on k p
  · refine ⟨hi.made, hi.zhandle, by rw [hself]; exact hi.up, fun hb => ?_, fun _ _ => ?_⟩
    · have hno := (hi.unwatched hb).2.1
      simp [Conn.reading, ho, Request.reads, hon] at hno
    · rw [hself]
      unfold Conn.tells
      rw [List.flatMap_append, ← List.append_assoc, ← List.append_assoc]
      show (_ ++ ((if d.ctx.on k p then _ else _) ++ [])).getLast? = _
      rw [if_pos hon, hon.1, hon.2, tells_read]
      simp
      rfl
  · refine changeInv_conn hi rfl rfl rfl rfl rfl ?_ ?_ fun _ ha _ => ha
    · simp [Conn.tells, Item.tells, hon]
    · simp [Conn.reading, ho, Request.reads, Item.reads, hon]

theorem changeInv_event (hi : ChangeInv k p s) {ctx : WatchContext} {type : EventType} {zxid : Nat} {inbox : List Item}
    (hnone : (s.conns 0).handling = none) (hin : (s.conns 0).inbox = .event ctx type zxid :: inbox) :
    ChangeInv k p ((s.setConn 0 { s.conns 0 with
      inbox
      handling := if type = .session then none else some ⟨ctx, type, zxid⟩ }).queueAutoReg ctx) := by
  have hsession : EventType.tells k .session = none ∧ fetches k .session = false := by cases k <;> exact ⟨rfl, rfl⟩
  refine changeInv_conn (c := { s.conns 0 with
    inbox
    handling := if type = .session then none else some ⟨ctx, type, zxid⟩ }) hi rfl rfl rfl rfl rfl ?_ ?_
    fun _ ha _ => ha
  · by_cases hs : type = .session
    · simp [Conn.tells, hnone, hin, hs, Item.tells, hsession.1]
    · simp [Conn.tells, hnone, hin, hs, Item.tells, Handling.tells]
  · by_cases hs : type = .session
    · simp [Conn.reading, hnone, hin, hs, Item.reads, hsession.2]
    · simp only [Conn.reading, hnone, hin, hs, if_false, List.any_cons, Option.any_none, Option.any_some, Bool.or_false]
      rw [Bool.or_comm (inbox.any _)]
      rfl

theorem changeInv_notify (hi : ChangeInv k p s) {n : Notification} (hup : c.up = (s.conns 0).up)
    (htells : (if n.ctx.on k p ∧ s.datas k p ≠ none then [n.tells] else []) ++ c.tells k p = (s.conns 0).tells k p)
    (hreading : c.reading k p = (s.conns 0).reading k p) (harmed : c.armed = (s.conns 0).armed) :
    ChangeInv k p ((s.setConn 0 c).notify n) := by
  have hself : ((s.setConn 0 c).notify n).conns 0 = c := setConn_self s 0 c
  refine changeInv_same hi rfl ?_ rfl ?_ ?_ ?_
  · rw [hself, hup]
  · rw [hself, told_notify, List.append_assoc, ← htells]
    rfl
  · rw [hself, hreading]
  · rw [hself, harmed]
    exact fun _ ha _ => ha

theorem tells_fetches {type : EventType} (h : fetches k type = true) : type.tells k = none := by
  cases k <;> cases type <;> first | rfl | cases h

theorem changeInv_step {a : Act} (hi : ChangeInv k p s) (hg : Connected s a ∧ Caught k p s a)
    (hstep : step s a = some t) : ChangeInv k p t := by
  -- there is one handle, since the session lasts
  have hzero : ∀ zh, zh < s.made → zh = 0 := fun zh hz => by rw [hi.made] at hz; exact Nat.lt_one_iff.mp hz
  cases step_inv hstep with
  | foreign hw => exact changeInv_foreign hi hw hg.2
  | @armed zh ctx auto outbox hz ho _ =>
    obtain rfl := hzero zh hz
    exact changeInv_armed hi ho
  | @refused zh ctx auto outbox hz ho | @failWatch zh _ ctx auto outbox hz ho =>
    obtain rfl := hzero zh hz
    exact changeInv_conn (c := { s.conns 0 with outbox }) hi rfl rfl rfl rfl rfl rfl (reading_watch ho)
      fun _ ha _ => ha
  | @read zh d outbox hz ho =>
    obtain rfl := hzero zh hz
    exact changeInv_read hi ho
  | @failRead zh _ d outbox hz _ ho =>
    have h := hg.1 (.read d) (by rw [ho]; rfl)
    cases h
  | session _ _ => exact hg.1.elim  -- excluded: the session stays connected
  | @sessionWatcher zh state inbox hz hin =>
    obtain rfl := hzero zh hz
    refine changeInv_conn (c := { s.conns 0 with inbox }) hi rfl rfl rfl rfl rfl ?_ ?_ fun _ ha _ => ha
    · simp [Conn.tells, hin, Item.tells]
    · simp [Conn.reading, hin, Item.reads]
  | @event zh ctx type zxid inbox hz hnone hin =>
    obtain rfl := hzero zh hz
    exact changeInv_event hi hnone hin
  | @fetched zh d result inbox n hz hnone hin hctx _ htells =>
    obtain rfl := hzero zh hz
    refine changeInv_notify (c := { s.conns 0 with inbox }) hi rfl ?_ ?_ rfl
    · by_cases hon : d.ctx.on k p
      · have hreg : s.datas k p ≠ none := hg.2 (.fetched d result) (by rw [hin]; rfl) (decide_eq_true hon)
        -- a reply tells what it was to tell, where the path is registered
        have hn : n.tells = result.tells := by
          refine htells ?_
          rw [hon.1, hon.2]
          exact Option.isSome_iff_ne_none.mpr hreg
        simp [Conn.tells, hin, hnone, Item.tells, hctx, hon, hreg, hn]
      · simp [Conn.tells, hin, hnone, Item.tells, hctx, hon]
    · simp [Conn.reading, hin, Item.reads]
  | @told zh accepted h n hz hh hctx _ htells =>
    obtain rfl := hzero zh hz
    -- the library refuses no read while it is connected
    have hacc : accepted = true := by
      cases accepted with
      | true => rfl
      | false => exact hg.1.elim
    obtain ⟨hf, hx⟩ := htells hacc
    refine changeInv_notify (c := { s.conns 0 with handling := none }) hi rfl ?_ ?_ rfl
    · by_cases hon : h.ctx.on k p
      · rw [hon.1] at hf hx
        have hreg : s.datas k p ≠ none := hg.2 h hh hon hf
        simp [Conn.tells, Handling.tells, hh, hctx, hon, hreg, hx]
      · simp [Conn.tells, Handling.tells, hh, hctx, hon]
    · by_cases hon : h.ctx.on k p
      · rw [hon.1] at hf
        simp [Conn.reading, hh, hf]
      · simp [Conn.reading, hh, hon]
  | @fetch zh accepted h d hz hh hf hctx _ =>
    obtain rfl := hzero zh hz
    refine changeInv_conn hi rfl (congrArg St.conns (send_setConn s 0 _ _)) rfl rfl rfl ?_ ?_ fun _ ha _ => ha
    · by_cases hon : h.ctx.on k p
      · rw [hon.1] at hf
        simp [Conn.tells, Handling.tells, hh, hon, tells_fetches hf]
      · simp [Conn.tells, Handling.tells, hh, hon]
    · by_cases hon : h.ctx.on k p
      · rw [hon.1] at hf
        simp [Conn.reading, Request.reads, hh, hctx, hon, hf]
      · simp [Conn.reading, Request.reads, hh, hctx, hon]
  | @nothing zh accepted h hz hh hf hnone =>
    obtain rfl := hzero zh hz
    refine changeInv_conn (c := { s.conns 0 with handling := none }) hi rfl rfl rfl rfl rfl ?_ ?_
      fun _ ha _ => ha
    · by_cases hon : h.ctx.on k p
      · rw [hon.1] at hnone
        simp [Conn.tells, Handling.tells, hh, hon, hnone]
      · simp [Conn.tells, Handling.tells, hh, hon]
    · by_cases hon : h.ctx.on k p
      · rw [hon.1] at hf
        simp [Conn.reading, hh, hf]
      · simp [Conn.reading, hh, hon]
  | @autoSent _ _ data zh _ _ hz | @regSent _ _ _ _ zh _ hz =>
    obtain rfl : (0 : Nat) = zh := by rw [hi.zhandle] at hz; exact Option.some.inj hz
    exact changeInv_conn hi rfl rfl rfl rfl rfl rfl (reading_sent ..) fun _ ha _ => ha
  | expire | retried _ | retryFailed _ => exact hg.1.elim
  | regRefused => exact hi
  | _ => exact changeInv_beside hi rfl rfl rfl rfl

/-- **No missed change.** In the runs of a connected session, whatever the order
of the callbacks, the replies, the second thread and the other clients. -/
theorem noChangeMissed_of_caught {nodes : Tree} {acts : List Act}
    (hconn : Lts.Along step Connected (St.initial nodes) acts)
    (hg : Lts.Along step (Caught k p) (St.initial nodes) acts) :
    Lts.Throughout step (NoChangeMissed k p) (St.initial nodes) acts :=
  Lts.throughout_of_along (fun _ _ _ hi hg h => changeInv_step hi hg h) (fun _ hi => noChangeMissed_of_changeInv hi)
    (changeInv_initial k p nodes) (hconn.and hg)

end

theorem noChangeMissed_both : Lts.Throughout step (NoChangeMissed .node ["a"]) (St.initial oneNode)
    (registered ++ setNode ++ autoRegSent ++
      [.foreign (.set ["a"] (some "v2")), .serve 0, .serve 0, .second, .deliver 0]) :=
  noChangeMissed_of_caught (by decide) (by decide)

/-- A second change comes between the read of the first one and the watch. -/
theorem not_noChangeMissed_between : ¬ Lts.Throughout step (NoChangeMissed .node ["a"]) (St.initial oneNode)
    (registered ++ setNode ++ autoRegSent ++
      [.serve 0, .foreign (.set ["a"] (some "v2")), .serve 0, .second, .deliver 0]) := by
  apply Lts.not_throughout
  decide

end ZkCppClient.Watch
