import ZkCppClient.Recipes.ChildWatch
import ZkCppClient.Watch.Changes
import ZkCppClient.Watch.Ordered

/-!
# The child watch of a client

As long as the session of a client lasts, everything that its library thread,
its second thread and its timers do with a child watch is seen by a recipe as a
run of `ChildWatch`.
-/

namespace ZkCppClient.Recipes

/-- A child watch, the child list of its node, and the lists that its handler has been called with. -/
structure Feed where
  childNodes : Option (List String)
  watch : ChildWatch
  told : List (List String)
  deriving DecidableEq

inductive FeedAct
  | server (childNodes : Option (List String))
  | watch (e : WatchEvent)
  | callback (n : Nat)

def Feed.step (f : Feed) : FeedAct → Option Feed
  | .server childNodes => some { f with childNodes, watch := f.watch.change f.childNodes childNodes }
  | .watch e => (f.watch.step f.childNodes e).map fun watch => { f with watch }
  | .callback n => (f.watch.pop n).map fun (childNodes, watch) => { f with watch, told := f.told ++ [childNodes] }

end ZkCppClient.Recipes

namespace ZkCppClient.Watch

open Recipes

/-! ## What a recipe sees -/

def Tree.childList (nodes : Tree) (p : Path) : Option (List String) := (nodes p).map (·.children)

def Fetched.listed : Fetched → List String
  | .childNodes strings => strings
  | _ => []

def Item.listed (p : Path) : Item → Option (List String)
  | .fetched d result => if d.ctx.on .child p then some result.listed else none
  | _ => none

/-- It has missed a change, and fires when its handle is back. -/
def Armed.missed (p : Path) (changed : Nat) (a : Armed) : Bool := a.ctx.on .child p ∧ a.zxid < changed

def Armed.catches (p : Path) (changed : Nat) (a : Armed) : Bool := a.ctx.on .child p ∧ ¬ a.zxid < changed

def Handling.reads (p : Path) (h : Handling) : Bool := h.ctx.on .child p ∧ fetches .child h.type

def Conn.childWatch (p : Path) (changed : Nat) (isWatched : Bool) (c : Conn) : ChildWatch where
  isWatched := isWatched
  armed := c.armed.countP (Armed.catches p changed)
  reads := c.armed.countP (Armed.missed p changed) + c.inbox.countP (Item.reads .child p) +
    c.handling.toList.countP (Handling.reads p) + c.outbox.countP (Request.reads .child p)
  inbox := c.inbox.filterMap (Item.listed p)

def St.feed (p : Path) (s : St) : Feed where
  childNodes := s.nodes.childList p
  watch := (s.conns 0).childWatch p (s.changed .child p) (s.datas .child p).isSome
  told := (s.log.filter fun n => n.ctx.on .child p).map (·.childNodes)

def Sees (p : Path) (s t : St) : Prop := ∃ bs, Lts.run Feed.step (s.feed p) bs = some (t.feed p)

/-- Nobody replaces the handle or ends the watch. -/
def Keeps (p : Path) : Act → Prop
  | .retry ok => ok = false
  | .cancel k path => ¬ (k = .child ∧ path = p)
  | _ => True

instance (p : Path) : (a : Act) → Decidable (Keeps p a)
  | .retry ok => inferInstanceAs (Decidable (ok = false))
  | .cancel k path => inferInstanceAs (Decidable (¬ (k = .child ∧ path = p)))
  | .foreign _ | .serve _ | .fail .. | .session .. | .deliver _ | .dispatch .. | .second | .timer _ | .reg .. | .regReturn _
  | .expire => isTrue trivial

/-- Every node is in the child list of its parent. -/
def Tree.Linked (nodes : Tree) : Prop :=
  ∀ name dir, (nodes.childList (name :: dir)).isSome → ∃ l ∈ nodes.childList dir, name ∈ l

structure Watching (p : Path) (s : St) : Prop extends Ordered s where
  linked : s.nodes.Linked
  made : s.made = 1
  watched : (s.datas .child p).isSome

/-! ## The server -/

section
variable {nodes nodes' : Tree} {w : Write} {p dir : Path} {name : String} {value : Option String} {type : EventType}

theorem childList_create (hw : nodes.apply (.create (name :: dir) value) = some nodes') :
    ∃ l, nodes.childList dir = some l ∧ nodes.childList (name :: dir) = none ∧ ∀ p, nodes'.childList p =
      if p = name :: dir then some [] else if p = dir then some (l ++ [name]) else nodes.childList p := by
  simp only [Tree.apply] at hw
  split at hw
  · rename_i q hdir hnew
    cases hw
    refine ⟨q.children, by simp [Tree.childList, hdir], by simp [Tree.childList, hnew], fun p => ?_⟩
    by_cases hself : p = name :: dir
    · simp [Tree.childList, hself]
    · by_cases hp : p = dir <;> simp [Tree.childList, hself, hp]
  · cases hw

theorem childList_set {path : Path} (hw : nodes.apply (.set path value) = some nodes') : nodes'.childList = nodes.childList := by
  obtain ⟨n, hn, rfl⟩ := Option.map_eq_some_iff.mp hw
  funext p
  by_cases hp : p = path <;> simp [Tree.childList, hp, hn]

theorem childList_delete (hw : nodes.apply (.delete (name :: dir)) = some nodes') :
    ∃ l, nodes.childList dir = some l ∧ nodes.childList (name :: dir) = some [] ∧ ∀ p, nodes'.childList p =
      if p = name :: dir then none else if p = dir then some (l.erase name) else nodes.childList p := by
  simp only [Tree.apply] at hw
  split at hw
  · rename_i q n hdir hn
    split at hw
    · rename_i hleaf
      cases hw
      refine ⟨q.children, by simp [Tree.childList, hdir], by simp [Tree.childList, hn, hleaf], fun p => ?_⟩
      by_cases hself : p = name :: dir
      · simp [Tree.childList, hself]
      · by_cases hp : p = dir <;> simp [Tree.childList, hself, hp]
    · cases hw
  · cases hw

theorem linked_create (h : nodes.Linked) (hw : nodes.apply (.create (name :: dir) value) = some nodes') : nodes'.Linked := by
  obtain ⟨l, hdir, hnew, hafter⟩ := childList_create hw
  have hkept : ∀ p, ∀ l₀ ∈ nodes.childList p, ∃ l₁ ∈ nodes'.childList p, l₀ ⊆ l₁ := by
    intro p l₀ hl₀
    rw [hafter]
    by_cases hself : p = name :: dir
    · rw [hself, hnew] at hl₀
      cases hl₀
    · rw [if_neg hself]
      by_cases hp : p = dir
      · rw [hp, hdir] at hl₀
        cases hl₀
        exact ⟨l ++ [name], by rw [if_pos hp]; rfl, List.subset_append_left ..⟩
      · exact ⟨l₀, by rwa [if_neg hp], List.Subset.refl _⟩
  intro leaf p hsome
  by_cases hself : leaf :: p = name :: dir
  · cases hself
    refine ⟨l ++ [name], ?_, List.mem_append_right _ List.mem_cons_self⟩
    rw [hafter]
    simp
  · have hold : (nodes.childList (leaf :: p)).isSome := by
      rw [hafter, if_neg hself] at hsome
      by_cases hp : leaf :: p = dir
      · simp [hp, hdir]
      · rwa [if_neg hp] at hsome
    obtain ⟨l₀, hl₀, hmem⟩ := h leaf p hold
    obtain ⟨l₁, hl₁, hsub⟩ := hkept p l₀ hl₀
    exact ⟨l₁, hl₁, hsub hmem⟩

theorem linked_delete (h : nodes.Linked) (hw : nodes.apply (.delete (name :: dir)) = some nodes') : nodes'.Linked := by
  obtain ⟨l, hdir, hleaf, hafter⟩ := childList_delete hw
  intro leaf p hsome
  rw [hafter] at hsome
  by_cases hself : leaf :: p = name :: dir
  · simp [hself] at hsome
  · have hold : (nodes.childList (leaf :: p)).isSome := by
      rw [if_neg hself] at hsome
      by_cases hp : leaf :: p = dir
      · simp [hp, hdir]
      · rwa [if_neg hp] at hsome
    obtain ⟨l₀, hl₀, hmem⟩ := h leaf p hold
    rw [hafter]
    by_cases hp : p = name :: dir
    · rw [hp, hleaf] at hl₀
      cases hl₀
      cases hmem
    · rw [if_neg hp]
      by_cases hpd : p = dir
      · subst hpd
        rw [hdir] at hl₀
        cases hl₀
        have hne : leaf ≠ name := fun heq => hself (by rw [heq])
        exact ⟨l.erase name, if_pos rfl, (List.mem_erase_of_ne hne).mpr hmem⟩
      · exact ⟨l₀, by rwa [if_neg hpd], hmem⟩

theorem linked_apply (h : nodes.Linked) (hw : nodes.apply w = some nodes') : nodes'.Linked := by
  cases w with
  | create path value =>
    cases path with
    | nil => cases hw
    | cons name dir => exact linked_create h hw
  | set path value =>
    unfold Tree.Linked
    rw [childList_set hw]
    exact h
  | delete path =>
    cases path with
    | nil => cases hw
    | cons name dir => exact linked_delete h hw

theorem childList_silent (hw : nodes.apply w = some nodes') (hev : w.event .child p = none) :
    ChildWatch.SameList (nodes.childList p) (nodes'.childList p) := by
  unfold ChildWatch.SameList
  cases w with
  | create path value =>
    cases path with
    | nil => cases hw
    | cons name dir =>
      obtain ⟨l, hdir, hnew, hafter⟩ := childList_create hw
      have hp : p ≠ dir := fun hp => by simp [Write.event, hp] at hev
      rw [hafter]
      by_cases hself : p = name :: dir
      · simp [hself, hnew]
      · simp [hself, hp]
  | set path value => simp [childList_set hw]
  | delete path =>
    cases path with
    | nil => cases hw
    | cons name dir =>
      obtain ⟨l, hdir, hleaf, hafter⟩ := childList_delete hw
      have hself : p ≠ name :: dir := fun hself => by simp [Write.event, hself] at hev
      have hp : p ≠ dir := fun hp => by simp [Write.event, hp] at hev
      rw [hafter]
      simp [hself, hp]

theorem childList_event (h : nodes.Linked) (hw : nodes.apply w = some nodes') (hev : w.event .child p = some type) :
    ¬ ChildWatch.SameList (nodes.childList p) (nodes'.childList p) ∧ (type = .child ∨ type = .deleted) := by
  unfold ChildWatch.SameList
  cases w with
  | create path value =>
    cases path with
    | nil => cases hw
    | cons name dir =>
      obtain ⟨l, hdir, hnew, hafter⟩ := childList_create hw
      by_cases hp : p = dir
      · subst hp
        simp only [Write.event, List.tail_cons, if_true] at hev
        cases hev
        simp [hafter, hdir]
      · simp [Write.event, hp] at hev
  | set path value => cases hev
  | delete path =>
    cases path with
    | nil => cases hw
    | cons name dir =>
      obtain ⟨l, hdir, hleaf, hafter⟩ := childList_delete hw
      by_cases hself : p = name :: dir
      · subst hself
        simp only [Write.event, if_true] at hev
        cases hev
        simp [hafter, hleaf]
      · by_cases hp : p = dir
        · subst hp
          have hmem : name ∈ l := by
            obtain ⟨l₀, hl₀, hmem⟩ := h name p (by simp [hleaf])
            rw [hdir] at hl₀
            cases hl₀
            exact hmem
          have hne : l.erase name ≠ l := by
            intro heq
            have hlen := List.length_erase_of_mem hmem
            have hpos := List.length_pos_of_mem hmem
            rw [heq] at hlen
            omega
          simp only [Write.event, List.tail_cons, hself, if_false, if_true] at hev
          cases hev
          simp [hafter, hdir, hne]
        · simp [Write.event, hself, hp] at hev

end

/-! ## Runs of the feed -/

section
variable {f g : Feed} {b : FeedAct}

theorem run_one (h : f.step b = some g) : Lts.run Feed.step f [b] = some g := by
  simp [Lts.run, h]

theorem run_lost (k : Nat) (hk : k ≤ f.watch.reads) : Lts.run Feed.step f (List.replicate k (.watch .lost)) =
    some { f with watch := { f.watch with reads := f.watch.reads - k } } := by
  induction k generalizing f with
  | zero => rfl
  | succ k ih =>
    have hstep : f.step (.watch .lost) = some { f with watch := { f.watch with reads := f.watch.reads - 1 } } := by
      simp [Feed.step, ChildWatch.step, show f.watch.reads ≠ 0 by omega]
    rw [List.replicate_succ, Lts.run_cons, hstep, Option.bind_some, ih]
    · simp [Nat.sub_sub, Nat.add_comm]
    · show k ≤ f.watch.reads - 1
      omega

theorem run_unread (k : Nat) (hk : k ≤ f.watch.reads) : Lts.run Feed.step f (List.replicate k (.watch (.read false))) =
    some { f with watch := { f.watch with
      reads := f.watch.reads - k
      inbox := f.watch.inbox ++ List.replicate k [] } } := by
  induction k generalizing f with
  | zero => simp [Lts.run]
  | succ k ih =>
    have hstep : f.step (.watch (.read false)) = some { f with watch := { f.watch with
        reads := f.watch.reads - 1
        inbox := f.watch.inbox ++ [[]] } } := by
      simp [Feed.step, ChildWatch.step, show f.watch.reads ≠ 0 by omega]
    rw [List.replicate_succ, Lts.run_cons, hstep, Option.bind_some, ih]
    · simp [Nat.sub_sub, Nat.add_comm, List.replicate_succ]
    · show k ≤ f.watch.reads - 1
      omega

theorem run_told {e : WatchEvent} {w : ChildWatch} {childNodes : List String}
    (hw : f.watch.step f.childNodes e = some { w with inbox := w.inbox ++ [childNodes] }) :
    Lts.run Feed.step f [.watch e, .callback w.inbox.length] =
      some { f with watch := w, told := f.told ++ [childNodes] } := by
  simp [Lts.run, Feed.step, hw, ChildWatch.pop, List.eraseIdx_append_of_length_le]

end

/-! ## The handle -/

section
variable {c : Conn} {event : Armed → Option (EventType × Nat)} {p : Path} {n : Nat} {isWatched : Bool}

theorem countP_armed_fire (q : Armed → Bool) :
    (c.fire event).armed.countP q = c.armed.countP fun a => q a && (event a).isNone :=
  List.countP_filter

theorem countP_inbox_fire (q : Item → Bool) : (c.fire event).inbox.countP q =
    c.inbox.countP q + c.armed.countP fun a => (event a).any fun e => q (.event a.ctx e.1 e.2) := by
  simp only [Conn.fire, List.countP_append, List.countP_filterMap]
  congr 2
  funext a
  cases event a <;> rfl

theorem listed_fire : (c.fire event).inbox.filterMap (Item.listed p) = c.inbox.filterMap (Item.listed p) := by
  simp only [Conn.fire, List.filterMap_append, List.filterMap_filterMap]
  have hnone : (c.armed.filterMap fun a => ((event a).map fun e => Item.event a.ctx e.1 e.2).bind (Item.listed p)) = [] := by
    rw [List.filterMap_eq_nil_iff]
    intro a _
    cases event a <;> rfl
  rw [hnone, List.append_nil]

theorem catches_add_missed (l : List Armed) :
    l.countP (Armed.catches p n) + l.countP (Armed.missed p n) = l.countP fun a => a.ctx.on .child p := by
  induction l with
  | nil => rfl
  | cons a l ih =>
    simp only [List.countP_cons, Armed.catches, Armed.missed, Bool.decide_and, decide_not]
    by_cases hon : a.ctx.on .child p <;> by_cases hlt : a.zxid < n <;> simp [hon, hlt] <;> omega

theorem childWatch_silent (h : ∀ a ∈ c.armed, a.ctx.on .child p → event a = none) :
    (c.fire event).childWatch p n isWatched = c.childWatch p n isWatched := by
  have hkept : ∀ q : Armed → Bool, (∀ a, q a = true → a.ctx.on .child p) →
      (c.fire event).armed.countP q = c.armed.countP q := by
    intro q hq
    rw [countP_armed_fire]
    apply List.countP_congr
    intro a ha
    by_cases hqa : q a = true
    · simp [hqa, h a ha (hq a hqa)]
    · simp [hqa]
  have hreads : (c.fire event).inbox.countP (Item.reads .child p) = c.inbox.countP (Item.reads .child p) := by
    rw [countP_inbox_fire, Nat.add_eq_left, List.countP_eq_zero]
    intro a ha hany
    by_cases hon : a.ctx.on .child p
    · simp [h a ha hon] at hany
    · cases he : event a <;> simp [he, Item.reads, hon] at hany
  simp only [Conn.childWatch, listed_fire, hreads]
  rw [hkept _ fun a ha => (of_decide_eq_true ha).1, hkept _ fun a ha => (of_decide_eq_true ha).1]
  rfl

/-- All watches on the path fire, or have missed a change: `k` of them find the node deleted. -/
structure Fired (p : Path) (k : Nat) (w w' : ChildWatch) : Prop where
  isWatched : w'.isWatched = w.isWatched
  armed : w'.armed = 0
  reads : w'.reads + k = w.reads + w.armed
  inbox : w'.inbox = w.inbox

theorem fired_run {f : Feed} {w : ChildWatch} {k : Nat} {after : Option (List String)} (hne : ¬ ChildWatch.SameList f.childNodes after)
    (h : Fired p k f.watch w) : Lts.run Feed.step f (.server after :: List.replicate k (.watch .lost)) =
      some { f with childNodes := after, watch := w } := by
  obtain ⟨hwatched, harmed, hreads, hinbox⟩ := h
  rw [Lts.run_cons, Feed.step, Option.bind_some, ChildWatch.change, if_neg hne, run_lost]
  · cases w
    simp_all
    omega
  · show k ≤ f.watch.reads + f.watch.armed
    omega

theorem fired_fire {type : EventType} {z m : Nat} (htype : type = .child ∨ type = .deleted)
    (h : ∀ a ∈ c.armed, a.ctx.on .child p → event a = some (type, z)) :
    Fired p (if type = .child then 0 else c.armed.countP fun a => a.ctx.on .child p)
      (c.childWatch p n isWatched) ((c.fire event).childWatch p m isWatched) := by
  have hgone : ∀ q : Armed → Bool, (∀ a, q a = true → a.ctx.on .child p) → (c.fire event).armed.countP q = 0 := by
    intro q hq
    rw [countP_armed_fire, List.countP_eq_zero]
    intro a ha hqa
    simp only [Bool.and_eq_true] at hqa
    rw [h a ha (hq a hqa.1)] at hqa
    simp at hqa
  have hcatches := hgone (Armed.catches p m) fun a ha => (of_decide_eq_true ha).1
  have hmissed := hgone (Armed.missed p m) fun a ha => (of_decide_eq_true ha).1
  -- each of them brings one read, unless it finds the node deleted
  have hreads : (c.fire event).inbox.countP (Item.reads .child p) +
      (if type = .child then 0 else c.armed.countP fun a => a.ctx.on .child p) =
      c.inbox.countP (Item.reads .child p) + c.armed.countP fun a => a.ctx.on .child p := by
    rw [countP_inbox_fire]
    rcases htype with rfl | rfl
    · rw [if_pos rfl, Nat.add_zero, Nat.add_left_cancel_iff]
      apply List.countP_congr
      intro a ha
      by_cases hon : a.ctx.on .child p
      · simp [h a ha hon, Item.reads, hon, fetches]
      · cases he : event a <;> simp [Item.reads, hon]
    · rw [if_neg (by simp), Nat.add_right_cancel_iff, Nat.add_eq_left, List.countP_eq_zero]
      intro a ha hany
      by_cases hon : a.ctx.on .child p
      · simp [h a ha hon, Item.reads, fetches] at hany
      · cases he : event a <;> simp [he, Item.reads, hon] at hany
  have hsum := catches_add_missed (p := p) (n := n) c.armed
  refine ⟨rfl, hcatches, ?_, listed_fire⟩
  simp only [Conn.childWatch, hmissed]
  simp only [Conn.fire] at hreads ⊢
  omega

theorem childWatch_missed {there : Bool} {z : Nat} (c : Conn) (isWatched : Bool) (items : List Item)
    (hitems : items.countP (Item.reads .child p) = 0) (hlisted : items.filterMap (Item.listed p) = [])
    (h : ∀ a : Armed, a.ctx.on .child p → event a = if a.zxid < n then some (if there then .child else .deleted, z) else none) :
    ∃ k ≤ (c.childWatch p n isWatched).reads,
      (({ c with up := true, inbox := c.inbox ++ items } : Conn).fire event).childWatch p n isWatched =
        { c.childWatch p n isWatched with reads := (c.childWatch p n isWatched).reads - k } := by
  have hcatches : (c.armed.countP fun a => Armed.catches p n a && (event a).isNone) = c.armed.countP (Armed.catches p n) := by
    apply List.countP_congr
    intro a _
    by_cases hc : Armed.catches p n a = true
    · obtain ⟨hon, hlt⟩ := of_decide_eq_true hc
      simp [hc, h a hon, hlt]
    · simp [hc]
  have hgone : (c.armed.countP fun a => Armed.missed p n a && (event a).isNone) = 0 := by
    rw [List.countP_eq_zero]
    intro a _
    by_cases hm : Armed.missed p n a = true
    · obtain ⟨hon, hlt⟩ := of_decide_eq_true hm
      simp [hm, h a hon, hlt]
    · simp [hm]
  have hreads : (c.armed.countP fun a => (event a).any fun e => Item.reads .child p (.event a.ctx e.1 e.2)) =
      if there then c.armed.countP (Armed.missed p n) else 0 := by
    cases there with
    | true =>
      apply List.countP_congr
      intro a _
      by_cases hon : a.ctx.on .child p
      · by_cases hlt : a.zxid < n <;> simp [h a hon, Item.reads, Armed.missed, hon, hlt, fetches]
      · cases event a <;> simp [Item.reads, Armed.missed, hon]
    | false =>
      apply List.countP_eq_zero.mpr
      intro a _
      by_cases hon : a.ctx.on .child p
      · by_cases hlt : a.zxid < n <;> simp [h a hon, Item.reads, hlt, fetches]
      · cases event a <;> simp [Item.reads, hon]
  refine ⟨if there then 0 else c.armed.countP (Armed.missed p n), ?_, ?_⟩
  · simp only [Conn.childWatch]
    split <;> omega
  · simp only [Conn.childWatch, countP_armed_fire, countP_inbox_fire, listed_fire, List.countP_append,
      List.filterMap_append, hcatches, hgone, hreads, hitems, hlisted, List.append_nil]
    congr 1
    simp only [Conn.fire]
    split <;> omega

theorem fired_away {m : Nat} (h : ∀ a ∈ c.armed, a.ctx.on .child p → a.zxid < m) :
    Fired p 0 (c.childWatch p n isWatched) (c.childWatch p m isWatched) := by
  have hcatches : c.armed.countP (Armed.catches p m) = 0 := by
    rw [List.countP_eq_zero]
    intro a ha hc
    obtain ⟨hon, hlt⟩ := of_decide_eq_true hc
    exact hlt (h a ha hon)
  have hbefore := catches_add_missed (p := p) (n := n) c.armed
  have hafter := catches_add_missed (p := p) (n := m) c.armed
  refine ⟨rfl, hcatches, ?_, rfl⟩
  simp only [Conn.childWatch]
  omega

end

/-! ## Steps -/

section
variable {p : Path} {s t : St}

theorem feed_of_library (hlib : t.library = s.library) (hdatas : (t.datas .child p).isSome = (s.datas .child p).isSome)
    (hlog : t.log = s.log) : t.feed p =
      { s.feed p with watch := (t.conns 0).childWatch p (s.changed .child p) (s.datas .child p).isSome } := by
  obtain ⟨hnodes, -, hchanged, -, -⟩ := library_inj hlib
  simp [St.feed, hnodes, hchanged, hdatas, hlog]

theorem sees_refl (h : t.feed p = s.feed p) : Sees p s t := ⟨[], by rw [h]; rfl⟩

theorem sees_same (hlib : t.library = s.library) (hdatas : (t.datas .child p).isSome = (s.datas .child p).isSome)
    (hlog : t.log = s.log) (hconn : (t.conns 0).childWatch p (s.changed .child p) (s.datas .child p).isSome =
      (s.conns 0).childWatch p (s.changed .child p) (s.datas .child p).isSome) : Sees p s t := by
  apply sees_refl
  rw [feed_of_library hlib hdatas hlog, hconn]
  rfl

theorem sees_foreign (hi : Watching p s) {w : Write} {nodes : Tree} (hw : s.nodes.apply w = some nodes) :
    Sees p s (s.foreign w nodes) := by
  cases hev : w.event .child p with
  | none =>
    have hsame := childList_silent hw hev
    have hchanged : (s.foreign w nodes).changed .child p = s.changed .child p := by simp [St.foreign, hev]
    have hwatch : ((s.foreign w nodes).feed p).watch = (s.feed p).watch := by
      simp only [St.feed, hchanged]
      by_cases hup : (s.conns 0).up
      · rw [show (s.foreign w nodes).conns 0 = _ from if_pos hup]
        apply childWatch_silent
        intro a _ hon
        rw [hon.1, hon.2, hev]
        rfl
      · rw [show (s.foreign w nodes).conns 0 = _ from if_neg hup]
        rfl
    refine ⟨[.server (nodes.childList p)], run_one ?_⟩
    rw [Feed.step, ChildWatch.change, if_pos (show ChildWatch.SameList (s.feed p).childNodes _ from hsame), ← hwatch]
    rfl
  | some type =>
    obtain ⟨hne, htype⟩ := childList_event hi.linked hw hev
    have hchanged : (s.foreign w nodes).changed .child p = s.zxid + 1 := by simp [St.foreign, hev]
    have hfired : ∃ k, Fired p k (s.feed p).watch ((s.foreign w nodes).feed p).watch := by
      simp only [St.feed, hchanged]
      by_cases hup : (s.conns 0).up
      · rw [show (s.foreign w nodes).conns 0 = _ from if_pos hup]
        refine ⟨_, fired_fire (z := s.zxid + 1) htype ?_⟩
        intro a _ hon
        rw [hon.1, hon.2, hev]
        rfl
      -- the handle is away: its watches stay, and have missed the change
      · rw [show (s.foreign w nodes).conns 0 = _ from if_neg hup]
        exact ⟨0, fired_away fun a ha _ => Nat.lt_succ_of_le (hi.armed 0 a ha)⟩
    obtain ⟨k, hk⟩ := hfired
    exact ⟨_, fired_run hne hk⟩

theorem reads_sessionItems (armed : List Armed) (state : SessState) (watchersFirst : Bool) :
    (sessionItems armed state watchersFirst).countP (Item.reads .child p) = 0 := by
  rw [List.countP_eq_zero]
  intro item hm
  rcases mem_sessionItems hm with rfl | ⟨a, -, rfl⟩ <;> simp [Item.reads, fetches]

theorem listed_sessionItems (armed : List Armed) (state : SessState) (watchersFirst : Bool) :
    (sessionItems armed state watchersFirst).filterMap (Item.listed p) = [] := by
  rw [List.filterMap_eq_nil_iff]
  intro item hm
  rcases mem_sessionItems hm with rfl | ⟨a, -, rfl⟩ <;> rfl

theorem listed_lost (outbox : List Request) :
    ((outbox.filterMap Request.read?).map (Item.fetched · (.failed .zconnectionloss))).filterMap (Item.listed p) =
      List.replicate (outbox.countP (Request.reads .child p)) [] := by
  induction outbox with
  | nil => rfl
  | cons r outbox ih =>
    cases r with
    | watch ctx auto => exact ih
    | read d =>
      by_cases hon : d.ctx.on .child p <;>
        simp_all [Request.read?, Request.reads, Item.listed, Fetched.listed, List.replicate_succ]

theorem reads_lost (outbox : List Request) :
    ((outbox.filterMap Request.read?).map (Item.fetched · (.failed .zconnectionloss))).countP (Item.reads .child p) = 0 := by
  rw [List.countP_eq_zero]
  intro item hm
  obtain ⟨d, -, rfl⟩ := List.mem_map.mp hm
  simp [Item.reads]

theorem sees_disconnected {state : SessState} (hstate : state ≠ .connected) (watchersFirst : Bool) :
    Sees p s (s.session 0 state watchersFirst) := by
  have hconn : (s.session 0 state watchersFirst).conns 0 = { s.conns 0 with
      up := false
      outbox := []
      inbox := (s.conns 0).inbox ++ sessionItems (s.conns 0).armed state watchersFirst ++
        ((s.conns 0).outbox.filterMap Request.read?).map (.fetched · (.failed .zconnectionloss)) } := by
    unfold St.session
    rw [if_neg hstate]
    exact setConn_self ..
  refine ⟨_, (run_unread ((s.conns 0).outbox.countP (Request.reads .child p)) (Nat.le_add_left _ _)).trans ?_⟩
  rw [feed_of_library (session_library ..) (by rw [session_datas]) (session_log ..), hconn]
  simp only [Conn.childWatch, List.countP_append, List.filterMap_append, reads_sessionItems, listed_sessionItems,
    reads_lost, listed_lost, List.append_nil, List.countP_nil, Nat.add_zero]
  simp [St.feed, Conn.childWatch]

theorem sees_connected (watchersFirst : Bool) : Sees p s (s.session 0 .connected watchersFirst) := by
  have hconn : (s.session 0 .connected watchersFirst).conns 0 = ({ s.conns 0 with
      up := true
      inbox := (s.conns 0).inbox ++ sessionItems (s.conns 0).armed .connected watchersFirst } : Conn).fire s.missed := by
    unfold St.session
    rw [if_pos rfl]
    exact setConn_self ..
  have hmissed : ∀ a : Armed, a.ctx.on .child p → s.missed a = if a.zxid < s.changed .child p then
      some (if (s.nodes p).isSome then .child else .deleted, s.changed .child p) else none := by
    intro a hon
    unfold St.missed
    rw [hon.1, hon.2]
    split
    · cases (s.nodes p).isSome <;> rfl
    · rfl
  obtain ⟨k, hk, hwatch⟩ := childWatch_missed (s.conns 0) (s.datas .child p).isSome
    (sessionItems (s.conns 0).armed .connected watchersFirst) (reads_sessionItems ..) (listed_sessionItems ..) hmissed
  refine ⟨_, (run_lost k hk).trans ?_⟩
  rw [feed_of_library (session_library ..) (by rw [session_datas]) (session_log ..), hconn, hwatch]
  rfl

/-! ## The callbacks -/

theorem feed_setConn (c : Conn) : (s.setConn 0 c).feed p =
    { s.feed p with watch := c.childWatch p (s.changed .child p) (s.datas .child p).isSome } := by
  simp [St.feed, St.setConn]

theorem feed_notify (hwatched : (s.datas .child p).isSome) (n : Notification) : (s.notify n).feed p =
    { s.feed p with told := (s.feed p).told ++ if n.ctx.on .child p then [n.childNodes] else [] } := by
  unfold St.notify
  by_cases hon : n.ctx.on .child p
  · have hnotify : s.isShouldNotify n.ctx.kind n.ctx.path = true := by
      rw [hon.1, hon.2]
      exact hwatched
    simp [St.feed, hnotify, hon]
  · split <;> simp [St.feed, hon]

theorem fetched_listed {d : ContextInWatcher} {result : Fetched} (h : s.fetched d result = some t) (hk : d.ctx.kind = .child) :
    ∃ n : Notification, t = s.notify n ∧ n.ctx = d.ctx ∧ n.childNodes = result.listed := by
  simp only [St.fetched, hk, getChildDataOnWatcher] at h
  split at h
  · cases h
    exact ⟨_, rfl, rfl, rfl⟩
  · split at h
    · cases h
    · split at h <;> cases h <;> exact ⟨_, rfl, rfl, rfl⟩
  · cases h

theorem sees_deliver (hi : Watching p s) (h : s.deliver 0 = some t) : Sees p s t := by
  simp only [St.deliver] at h
  split at h
  · rename_i inbox hhandling hin
    cases h
    refine sees_same rfl rfl rfl ?_
    simp [St.setConn, Conn.childWatch, hin, Item.reads, Item.listed, List.filterMap_cons]
  · rename_i ctx type zxid inbox hhandling hin
    split at h <;> cases h
    refine sees_same rfl rfl rfl ?_
    -- a session event brings no read, any other event moves from the inbox to the callback
    by_cases htype : type = .session
    · simp [St.queueAutoReg, St.setConn, Conn.childWatch, hin, hhandling, Item.reads, Item.listed, List.filterMap_cons,
        htype, fetches]
    · simp only [St.queueAutoReg, St.setConn, Function.update_self, Conn.childWatch, hin, hhandling, htype, if_false,
        List.countP_cons, List.filterMap_cons, Item.listed, Item.reads, Handling.reads, Option.toList_some,
        Option.toList_none, List.countP_nil]
      simp only [Nat.zero_add, Nat.add_zero, Nat.add_assoc]
      rfl
  · rename_i d result inbox hhandling hin
    have hlisted : (s.conns 0).inbox.filterMap (Item.listed p) =
        (if d.ctx.on .child p then [result.listed] else []) ++ inbox.filterMap (Item.listed p) := by
      by_cases hon : d.ctx.on .child p <;> simp [hin, Item.listed, hon]
    have hreads : (s.conns 0).inbox.countP (Item.reads .child p) = inbox.countP (Item.reads .child p) := by
      simp [hin, Item.reads]
    by_cases hon : d.ctx.on .child p
    · obtain ⟨n, rfl, hctx, hn⟩ := fetched_listed h hon.1
      refine ⟨[.callback 0], run_one ?_⟩
      rw [feed_notify (s := s.setConn 0 { s.conns 0 with inbox }) hi.watched, feed_setConn]
      simp [Feed.step, ChildWatch.pop, St.feed, Conn.childWatch, hlisted, hreads, hon, hctx, hn]
    · obtain ⟨n, rfl, hctx, -⟩ := fetched_eq h
      apply sees_refl
      rw [feed_notify (s := s.setConn 0 { s.conns 0 with inbox }) hi.watched, feed_setConn]
      simp [St.feed, Conn.childWatch, hlisted, hreads, hon, hctx]
  · cases h

theorem sees_dispatch_other (hi : Watching p s) {accepted : Bool} {hd : Handling} (hh : (s.conns 0).handling = some hd)
    (hon : ¬ hd.ctx.on .child p) (h : step s (.dispatch 0 accepted) = some t) : Sees p s t := by
  have hwatch : ({ s.conns 0 with handling := none } : Conn).childWatch p (s.changed .child p) (s.datas .child p).isSome =
      (s.conns 0).childWatch p (s.changed .child p) (s.datas .child p).isSome := by
    simp [Conn.childWatch, hh, Handling.reads, hon]
  apply sees_refl
  cases step_inv h with
  | told _ hh' hctx _ _ =>
    rw [hh] at hh'
    cases hh'
    rw [feed_notify (s := s.setConn 0 { s.conns 0 with handling := none }) hi.watched, feed_setConn, hwatch]
    simp [St.feed, hctx, hon]
  | fetch _ hh' _ hctx _ =>
    rw [hh] at hh'
    cases hh'
    rw [send_setConn, feed_setConn]
    simp [St.feed, Conn.childWatch, hh, Handling.reads, Request.reads, hctx, hon]
  | nothing _ _ _ _ =>
    rw [feed_setConn, hwatch]
    rfl

theorem sees_told (hi : Watching p s) {c : Conn} {n : Notification} {e : WatchEvent} {w : ChildWatch} (hon : n.ctx.on .child p)
    (hw : c.childWatch p (s.changed .child p) (s.datas .child p).isSome = w)
    (hstep : (s.feed p).watch.step (s.feed p).childNodes e = some { w with inbox := w.inbox ++ [n.childNodes] }) :
    Sees p s ((s.setConn 0 c).notify n) := by
  refine ⟨_, (run_told hstep).trans ?_⟩
  rw [feed_notify (s := s.setConn 0 c) hi.watched, feed_setConn, hw, if_pos hon]

theorem sees_getChildrenWatcher (hi : Watching p s) {accepted : Bool} {hd : Handling}
    (hh : (s.conns 0).handling = some hd) (hon : hd.ctx.on .child p) :
    Sees p s (getChildrenWatcher (s.setConn 0 { s.conns 0 with handling := none }) 0 hd hon.1 accepted) := by
  generalize hw : ({ s.conns 0 with handling := none } : Conn).childWatch p (s.changed .child p)
    (s.datas .child p).isSome = w
  -- until the callback goes on, the read it will send counts as one that is not answered yet
  have hwatch : (s.feed p).watch = { w with reads := w.reads + if fetches .child hd.type then 1 else 0 } := by
    simp only [St.feed, ← hw, Conn.childWatch, hh, Option.toList_some, Option.toList_none, List.countP_cons,
      List.countP_nil, Handling.reads]
    congr 1
    simp only [hon, true_and, decide_eq_true_eq]
    omega
  have hwatched : w.isWatched = true := by rw [← hw]; exact hi.watched
  cases ht : hd.type <;> simp only [getChildrenWatcher, ht]
  -- an event of no type that the callback knows tells an empty list
  case notWatching =>
    apply sees_told hi (e := .typeError) hon hw
    simp [hwatch, ht, ChildWatch.step, hwatched, fetches]
  case child =>
    cases accepted with
    | true =>
      apply sees_refl
      rw [if_pos rfl, send_setConn, feed_setConn]
      have hsent : ({ s.conns 0 with handling := none, outbox := (s.conns 0).outbox ++
          [.read ⟨hd.ctx, .kChildChange, hd.zxid, by rw [hon.1]; rfl⟩] } : Conn).childWatch p (s.changed .child p)
          (s.datas .child p).isSome = (s.feed p).watch := by
        rw [hwatch, ht, ← hw]
        simp [Conn.childWatch, Request.reads, hon, fetches]
        omega
      rw [hsent]
    | false =>  -- the library does not take the read, and the empty list is told at once
      apply sees_told hi (e := .read false) hon hw
      simp [hwatch, ht, ChildWatch.step, fetches]
  all_goals
    apply sees_refl
    rw [feed_setConn, hw]
    have hsame : (s.feed p).watch = w := by rw [hwatch, ht]; rfl
    rw [← hsame]

theorem sees_dispatch (hi : Watching p s) {accepted : Bool} (h : step s (.dispatch 0 accepted) = some t) : Sees p s t := by
  have hmade : 0 < s.made := by rw [hi.made]; exact Nat.one_pos
  have hdispatch : s.dispatch 0 accepted = some t := by simpa [step, hmade] using h
  obtain ⟨hd, hh, rfl⟩ := Option.map_eq_some_iff.mp hdispatch
  by_cases hon : hd.ctx.on .child p
  · rw [dif_neg (by simp [hon.1])]
    exact sees_getChildrenWatcher hi hh hon
  · exact sees_dispatch_other hi hh hon h

/-! ## The server's answers -/

theorem sees_armed (hi : Watching p s) {ctx : WatchContext} {auto : Bool} {outbox : List Request}
    (ho : (s.conns 0).outbox = .watch ctx auto :: outbox) (harms : s.arms ctx = true) :
    Sees p s (((s.setConn 0 { s.conns 0 with outbox }).arm 0 ctx).reply ctx auto true) := by
  generalize ht : ((s.setConn 0 { s.conns 0 with outbox }).arm 0 ctx).reply ctx auto true = t
  have hfeed : t.feed p = (s.setConn 0 { s.conns 0 with
      outbox
      armed := (s.conns 0).armed ++ [⟨ctx, s.zxid, (s.nodes ctx.path).isSome⟩] }).feed p := by
    rw [← ht]
    have hconns := congrFun (arm_conns s 0 ctx outbox) 0
    simp only [St.feed, St.reply, hconns]
    rfl
  have hcaught := Nat.not_lt.mpr (hi.changed .child p)
  by_cases hon : ctx.on .child p
  · refine ⟨[.watch .arm], run_one ?_⟩
    have hthere : (s.nodes.childList p).isSome := by
      simp only [St.arms, hon.1, hon.2] at harms
      simpa [Tree.childList] using harms
    have hwatched := hi.watched
    rw [hfeed, feed_setConn]
    simp [Feed.step, ChildWatch.step, St.feed, Conn.childWatch, hwatched, hthere, ho, Request.reads, Armed.catches,
      Armed.missed, hon, hcaught]
  · apply sees_refl
    rw [hfeed, feed_setConn]
    simp [St.feed, Conn.childWatch, ho, Request.reads, Armed.catches, Armed.missed, hon]

theorem sees_refused {ctx : WatchContext} {auto : Bool} {outbox : List Request}
    (ho : (s.conns 0).outbox = .watch ctx auto :: outbox) :
    Sees p s ((s.setConn 0 { s.conns 0 with outbox }).reply ctx auto false) := by
  refine sees_same rfl rfl rfl ?_
  simp [St.reply, St.setConn, Conn.childWatch, ho, Request.reads]

theorem sees_answer {d : ContextInWatcher} {outbox : List Request} {result : Fetched} (ok : Bool)
    (ho : (s.conns 0).outbox = .read d :: outbox)
    (hresult : d.ctx.on .child p → result.listed = if ok then (s.nodes.childList p).getD [] else []) :
    Sees p s (s.setConn 0 { s.conns 0 with outbox, inbox := (s.conns 0).inbox ++ [.fetched d result] }) := by
  by_cases hon : d.ctx.on .child p
  · refine ⟨[.watch (.read ok)], run_one ?_⟩
    rw [feed_setConn]
    simp [Feed.step, ChildWatch.step, St.feed, Conn.childWatch, ho, Request.reads, Item.reads, Item.listed, hon,
      hresult hon]
  · apply sees_refl
    rw [feed_setConn]
    simp [St.feed, Conn.childWatch, ho, Request.reads, Item.reads, Item.listed, hon]

theorem read_listed (nodes : Tree) (p : Path) : (nodes.read p .child).listed = (nodes.childList p).getD [] := by
  unfold Tree.read Tree.childList
  cases nodes p <;> rfl

theorem feed_send (zh : Nat) (ctx : WatchContext) (auto : Bool) : (s.send zh (.watch ctx auto)).feed p = s.feed p := by
  unfold St.send
  by_cases hz : zh = 0
  · subst hz
    rw [feed_setConn]
    simp [St.feed, Conn.childWatch, Request.reads]
  · simp [St.feed, St.setConn, Ne.symm hz]

theorem sees_step (hi : Watching p s) {a : Act} (hg : Keeps p a) (h : step s a = some t) : Sees p s t := by
  have hzero : ∀ {zh}, zh < s.made → zh = 0 := by
    intro zh hz
    have hmade := hi.made
    omega
  cases step_inv h with
  | foreign hw => exact sees_foreign hi hw
  | armed hz ho harms =>
    cases hzero hz
    exact sees_armed hi ho harms
  | refused hz ho | failWatch hz ho =>
    cases hzero hz
    exact sees_refused ho
  | @read zh d outbox hz ho =>
    cases hzero hz
    refine sees_answer true ho fun hon => ?_
    rw [hon.1, hon.2, read_listed]
    rfl
  | failRead hz _ ho =>
    cases hzero hz
    exact sees_answer false ho fun _ => rfl
  | @session zh state watchersFirst hz _ =>
    cases hzero hz
    by_cases hstate : state = .connected
    · rw [hstate]
      exact sees_connected watchersFirst
    · exact sees_disconnected hstate watchersFirst
  | sessionWatcher hz _ | event hz _ _ | fetched hz _ _ _ _ _ =>
    cases hzero hz
    exact sees_deliver hi (by simpa [step, hz] using h)
  | told hz _ _ _ _ | fetch hz _ _ _ _ | nothing hz _ _ _ =>
    cases hzero hz
    exact sees_dispatch hi h
  | @autoSent k _ data zh _ _ _ => exact sees_refl (feed_send (s := s) zh (data.toContext k) true)
  | regSent _ _ => exact sees_refl (feed_send ..)
  | autoStored _ => exact sees_same rfl (by rw [stored_isSome hi.watched, hi.watched]) rfl rfl
  | @regStored i ctx _ =>
    have hwatched : (St.datas { s with replied := s.replied.eraseIdx i } .child p).isSome := hi.watched
    exact sees_same rfl (by rw [stored_isSome hwatched, hi.watched]) rfl rfl
  | cancel k path =>
    refine sees_same rfl ?_ rfl rfl
    have hother : ¬ (Kind.child = k ∧ p = path) := fun heq => hg ⟨heq.1.symm, heq.2.symm⟩
    simp only [St.setWatchData, hother, if_false]
  | retried => cases hg
  | retryFailed _ => exact sees_refl rfl
  | _ => exact sees_same rfl rfl rfl rfl

/-! ## Runs -/

theorem linked_step (hi : s.nodes.Linked) {a : Act} (h : step s a = some t) : t.nodes.Linked := by
  cases step_inv h with
  | foreign hw => exact linked_apply hi hw
  | @session zh state watchersFirst _ _ =>
    obtain ⟨hnodes, -, -, -, -⟩ := library_inj (session_library s zh state watchersFirst)
    rw [hnodes]
    exact hi
  | _ => exact hi

theorem watching_step (hi : Watching p s) {a : Act} (hg : Keeps p a) (h : step s a = some t) : Watching p t := by
  have hordered := ordered_step hi.toOrdered h
  have hlinked := linked_step hi.linked h
  cases step_inv h with
  | @session zh state watchersFirst _ _ =>
    obtain ⟨-, -, -, hmade, -⟩ := library_inj (session_library s zh state watchersFirst)
    exact ⟨hordered, hlinked, hmade.trans hi.made, by rw [session_datas]; exact hi.watched⟩
  | autoStored _ => exact ⟨hordered, hlinked, hi.made, stored_isSome hi.watched ..⟩
  | @regStored i ctx _ =>
    have hwatched : (St.datas { s with replied := s.replied.eraseIdx i } .child p).isSome := hi.watched
    exact ⟨hordered, hlinked, hi.made, stored_isSome hwatched ..⟩
  | cancel k path =>
    refine ⟨hordered, hlinked, hi.made, ?_⟩
    have hother : ¬ (Kind.child = k ∧ p = path) := fun heq => hg ⟨heq.1.symm, heq.2.symm⟩
    simp only [St.setWatchData, hother, if_false]
    exact hi.watched
  | retried => cases hg
  | _ => exact ⟨hordered, hlinked, hi.made, hi.watched⟩

end

theorem oneNode_linked : oneNode.Linked := by
  intro name dir hsome
  by_cases hself : name :: dir = ["a"]
  · cases hself
    exact ⟨["a"], rfl, List.mem_cons_self⟩
  · simp [oneNode, Tree.childList, hself] at hsome

def childRegistered : List Act := [.reg .child ["a"] (some 1) 0, .serve 0, .regReturn 0]

/-- A child is made, the list is read and told, and the watch armed again; the handle is away while the child is
deleted. -/
def childDeleted : List Act :=
  [.foreign (.create ["lock", "a"] none), .deliver 0, .dispatch 0 true, .serve 0, .deliver 0] ++ autoRegSent ++
    [.serve 0, .second, .session 0 .connecting true, .foreign (.delete ["lock", "a"]), .session 0 .connected true]

end ZkCppClient.Watch
