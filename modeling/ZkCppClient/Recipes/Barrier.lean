import ZkCppClient.Lib.Run
import ZkCppClient.Recipes.Objects

/-!
# The barrier

`DistriBarrier`: every `countdown` makes a temporary sequential node below
`/queue_barrier`, and `wait` comes back when there are as many nodes as the
barrier's number. Any number of objects run in processes of their own; one
thread of each waits and destroys it, another counts down, and the watch
callback runs on a third.
-/

namespace ZkCppClient.Recipes.Barrier

open SlashPath Ops

def parentPath : String := "/queue_barrier"

def parentName : Name := ⟨"queue_barrier", by decide⟩

def childPath : String := "/queue_barrier/barrier"

/-- `barrNum_`, an `int`, as it is compared with the size of a list. -/
def toSize (barrNum : Int32) : Nat := barrNum.toInt64.toUInt64.toNat

theorem toSize_of_nonneg {barrNum : Int32} (h : 0 ≤ barrNum) : toSize barrNum = barrNum.toInt.toNat := by
  have hwide : 0 ≤ barrNum.toInt64 := by
    rw [Int64.le_iff_toInt_le, Int32.toInt_toInt64]
    exact Int32.le_iff_toInt_le.mp h
  rw [toSize, Int64.toNat_toUInt64_of_le hwide, ← Int64.toNat_toInt, Int32.toInt_toInt64]

inductive Pc
  | idle
  | listing  -- in `wait`, before `getChildren`
  | waiting  -- too few nodes, and not yet in `condition_.wait()`
  | parked
  | through  -- `wait` has returned `true`
  | destroying
  | deleting (childPath : String)  -- in `deleteRecursive`, after its `getChildren`
  | gone
  deriving DecidableEq, Repr

structure DistriBarrier where
  isInit : Bool := false
  pc : Pc := .idle
  childPaths : List String := []
  watch : ChildWatch := {}

instance : Watching DistriBarrier where
  parentPath := parentPath
  watch o := o.watch
  setWatch o watch := { o with watch }
  watch_setWatch _ _ := rfl

abbrev St (ι : Type*) := Objects DistriBarrier ι

def St.initial (ι : Type*) (server : Server) : St ι := ⟨server, fun _ => {}⟩

inductive Act (ι : Type*)
  | init (i : ι) (f : Fate) (registered : Bool)
  | wait (i : ι)
  | getChildren (i : ι) (f : Fate)
  | park (i : ι)
  | wake (i : ι)  -- out of `condition_.wait()` without a notification
  | watch (i : ι) (e : WatchEvent)
  | callback (i : ι) (n : Nat)
  | countdown (i : ι) (f : Fate)
  | destroy (i : ι)
  | list (i : ι) (f : Fate)
  | delete (i : ι) (f : Fate)
  | close (i : ι)
  | drop (path : String)  -- a session has ended, or another client deletes the node

abbrev children (s : Server) : List String := Recipes.children DistriBarrier s

def DistriBarrier.registered (o : DistriBarrier) (ok : Bool) : DistriBarrier :=
  if ok then { o with isInit := true, watch := o.watch.register } else o

def regChildWatcher_cb (barrNum : Int32) (o : DistriBarrier) (childNodes : List String) : DistriBarrier :=
  if toSize barrNum ≤ childNodes.length then
    match o.pc with
    | .parked => { o with pc := .listing }  -- `notifyAll`
    | _ => o
  else o

section
variable {ι : Type*} [DecidableEq ι]

def setPc (s : St ι) (i : ι) (pc : Pc) : St ι := s.setObject i { s.objects i with pc }

variable (barrNum : ι → Int32)

def step (s : St ι) : Act ι → Option (St ι)
  | .init i f registered =>
    if (s.objects i).isInit then none else
    match createOn f s.server parentPath false false with
    | (.kZKSucceed, _, server) | (.kZKExisted, _, server) =>
      let s := s.setServer server
      some (s.setObject i ((s.objects i).registered registered))
    | (_, _, server) => some (s.setServer server)
  | .wait i =>
    let o := s.objects i
    if o.isInit ∧ (o.pc = .idle ∨ o.pc = .through) then some (setPc s i .listing) else none
  | .getChildren i f =>
    if (s.objects i).pc = .listing then
      match getChildrenOn f s.server parentPath with
      | (.kZKSucceed, childNodes) =>
        some (setPc s i (if toSize (barrNum i) ≤ childNodes.length then .through else .waiting))
      | _ => some (setPc s i .idle)
    else none
  | .park i => if (s.objects i).pc = .waiting then some (setPc s i .parked) else none
  | .wake i => if (s.objects i).pc = .parked then some (setPc s i .listing) else none
  | .watch i e =>
    let o := s.objects i
    (o.watch.step (s.server.childList parentPath) e).map fun watch => s.setObject i { o with watch }
  | .callback i n =>
    let o := s.objects i
    (o.watch.pop n).map fun (childNodes, watch) =>
      s.setObject i (regChildWatcher_cb (barrNum i) { o with watch } childNodes)
  | .countdown i f =>
    if (s.objects i).isInit ∧ (s.objects i).pc ≠ .gone then
      let (ec, retPath, server) := createOn f s.server childPath true true
      let s := s.setServer server
      let o := s.objects i
      some (if ec = .kZKError then s else s.setObject i { o with childPaths := o.childPaths ++ [retPath.getD ""] })
    else none
  | .destroy i =>
    let o := s.objects i
    if o.isInit ∧ (o.pc = .idle ∨ o.pc = .through) then some (setPc s i .destroying) else none
  | .list i f =>
    let o := s.objects i
    if o.pc = .destroying then
      match o.childPaths with
      | [] => none
      | childPath :: childPaths =>
        match getChildrenOn f s.server childPath with
        | (.kZKSucceed, _) => some (s.setObject i { o with pc := .deleting childPath, childPaths })  -- it has no children
        | _ => some (s.setObject i { o with childPaths })
    else none
  | .delete i f =>
    match (s.objects i).pc with
    | .deleting childPath => some (setPc (s.setServer (deleteNodeOn f s.server childPath).2) i .destroying)
    | _ => none
  | .close i =>
    let o := s.objects i
    if o.pc = .destroying ∧ o.childPaths = [] then some (setPc s i .gone) else none
  | .drop path =>
    match s.server.delete path (-1) with
    | (.zok, server) => some (s.setServer server)
    | _ => none

end

/-! ## Who is let through -/

/-- A `countdown` whose request the server may have carried out. -/
def Act.arrives {ι : Type*} : Act ι → Bool
  | .countdown _ f => f ≠ .unconnected ∧ f ≠ .lost false
  | _ => false

/-- No more nodes than have arrived, and whoever is through has seen as many as the barrier's number. -/
structure Counted {ι : Type*} (barrNum : ι → Int32) (s : St ι) (n : Nat) : Prop where
  nodes : (children s.server).length ≤ n
  through : ∀ i, (s.objects i).pc = .through → toSize (barrNum i) ≤ n

section
variable {s s' : Server} {f : Fate} {ec : ZkErrorCode} {ret : Option String}

theorem length_children_makes {path created : String} {isTemp isSequence : Bool}
    (h : s.Makes path isTemp isSequence created s') : (children s').length ≤ (children s).length + 1 :=
  length_getChildren (m := parentName) (k := []) fun _ => h.has.mp

theorem ne_parentPath (leaf : String) : parentPath ++ "/" ++ leaf ≠ parentPath := by
  intro heq
  have hlen := congrArg (fun p : String => p.toList.length) heq
  simp only [String.toList_append, List.length_append] at hlen
  have hone : ("/" : String).toList.length = 1 := by decide
  omega

theorem children_subset {created : String} (h : ∀ p, s'.has p = true → p = created ∨ s.has p = true)
    (hcreated : ∀ leaf, parentPath ++ "/" ++ leaf ≠ created) : (children s').length ≤ (children s).length := by
  have hsub : children s' ⊆ children s := by
    intro leaf hleaf
    have hslash := noSlash_of_mem_getChildren hleaf
    have hiff := fun s => mem_getChildren (s := s) (m := parentName) (k := []) hslash
    exact (hiff s).mpr ((h _ ((hiff s').mp hleaf)).resolve_left (hcreated leaf))
  exact ((nodup_getChildren s' parentPath).subperm hsub).length_le

theorem length_children_delete {path : String} {version : Int32} (h : s.delete path version = (.zok, s')) :
    (children s').length ≤ (children s).length := by
  refine children_subset (fun p hp => .inr ((delete_has h).mp hp).2) ne_parentPath

theorem length_children_deleteNode (f : Fate) (s : Server) (path : String) :
    (children (deleteNodeOn f s path).2).length ≤ (children s).length := by
  rcases deleteNodeOn_cases f s path with hsame | hdone
  · rw [hsame]
  · exact length_children_delete hdone

theorem length_children_parent (hc : createOn f s parentPath false false = (ec, ret, s')) :
    (children s').length ≤ (children s).length := by
  have hmakes : ∀ {created}, s.Makes (cString parentPath) false false created s' →
      (children s').length ≤ (children s).length := by
    intro created hmade
    refine children_subset (fun p => hmade.has.mp) ?_
    rw [hmade.created_eq, cString_eq_self.mpr (by decide)]
    exact ne_parentPath
  rcases createOn_cases hc with ⟨-, created, -, hmade⟩ | ⟨-, rfl | ⟨created, hmade⟩⟩
  · exact hmakes hmade
  · exact Nat.le_refl _
  · exact hmakes hmade

theorem length_children_countdown {ι : Type*} {i : ι} (hc : createOn f s childPath true true = (ec, ret, s')) :
    (children s').length ≤ (children s).length + if (Act.countdown i f).arrives then 1 else 0 := by
  by_cases harrives : (Act.countdown i f).arrives = true
  · rw [if_pos harrives]
    rcases createOn_cases hc with ⟨-, created, -, hmade⟩ | ⟨-, rfl | ⟨created, hmade⟩⟩
    · exact length_children_makes hmade
    · exact Nat.le_succ _
    · exact length_children_makes hmade
  · have hsame : s' = s := by
      cases f with
      | answered => exact absurd rfl harrives
      | unconnected =>
        rw [createOn_unconnected] at hc
        cases hc
        rfl
      | lost applied =>
        cases applied with
        | true => exact absurd rfl harrives
        | false =>
          rw [createOn_lost] at hc
          cases hc
          rfl
    rw [hsame]
    exact Nat.le_add_right _ _

end

section
variable {ι : Type*} {barrNum : ι → Int32} {s t : St ι} {n m : Nat}

theorem counted_initial (server : Server) : Counted barrNum (St.initial ι server) (children server).length := by
  refine ⟨Nat.le_refl _, fun i hi => ?_⟩
  cases hi

theorem Counted.moved (h : Counted barrNum s n) (hnm : n ≤ m) (hnodes : (children t.server).length ≤ m)
    (hthrough : ∀ j, (t.objects j).pc = .through → (s.objects j).pc = .through ∨ toSize (barrNum j) ≤ m) :
    Counted barrNum t m := by
  refine ⟨hnodes, fun j hj => ?_⟩
  rcases hthrough j hj with hpc | hsize
  · exact Nat.le_trans (h.through j hpc) hnm
  · exact hsize

end

section
variable {ι : Type*} [DecidableEq ι] {barrNum : ι → Int32} {s t : St ι} {n m : Nat} {i : ι} {o : DistriBarrier}

theorem setObject_through (ho : o.pc = .through → (s.objects i).pc = .through ∨ toSize (barrNum i) ≤ m) (j : ι)
    (hj : ((s.setObject i o).objects j).pc = .through) : (s.objects j).pc = .through ∨ toSize (barrNum j) ≤ m :=
  forall_setObject
    (P := fun j (o : DistriBarrier) => o.pc = .through → (s.objects j).pc = .through ∨ toSize (barrNum j) ≤ m)
    (fun _ => .inl) ho j hj

theorem registered_pc (o : DistriBarrier) (ok : Bool) : (o.registered ok).pc = o.pc := by
  cases ok <;> rfl

theorem step_counted {a : Act ι} (hi : Counted barrNum s n) (h : step barrNum s a = some t) :
    Counted barrNum t (n + if a.arrives then 1 else 0) := by
  have hle : n ≤ n + if a.arrives then 1 else 0 := Nat.le_add_right _ _
  have hnodes : ∀ {server : Server}, (children server).length ≤ (children s.server).length →
      (children server).length ≤ n + if a.arrives then 1 else 0 :=
    fun hserver => Nat.le_trans (Nat.le_trans hserver hi.nodes) hle
  have hsame := hnodes (Nat.le_refl (children s.server).length)
  cases a with
  | init i f registered =>
    simp only [step] at h
    split at h
    · cases h
    · split at h <;> cases h <;> rename_i hc
      · exact hi.moved hle (hnodes (length_children_parent hc)) (setObject_through (by rw [registered_pc]; exact .inl))
      · exact hi.moved hle (hnodes (length_children_parent hc)) (setObject_through (by rw [registered_pc]; exact .inl))
      · exact hi.moved hle (hnodes (length_children_parent hc)) fun _ => .inl
  | wait i =>
    simp only [step] at h
    split at h <;> cases h
    exact hi.moved hle hsame (setObject_through nofun)
  | getChildren i f =>
    simp only [step] at h
    split at h
    · split at h <;> cases h
      · rename_i childNodes hc
        -- the list that is read has the nodes there are, so whoever it lets through has seen enough
        have hlist : childNodes = children s.server := getChildrenOn_succeed (cString_eq_self.mpr (by decide)) hc
        refine hi.moved hle hsame (setObject_through fun hthrough => .inr ?_)
        by_cases hsize : toSize (barrNum i) ≤ childNodes.length
        · rw [hlist] at hsize
          exact Nat.le_trans hsize hsame
        · simp [hsize] at hthrough
      · exact hi.moved hle hsame (setObject_through nofun)
    · cases h
  | park i =>
    simp only [step] at h
    split at h <;> cases h
    exact hi.moved hle hsame (setObject_through nofun)
  | wake i =>
    simp only [step] at h
    split at h <;> cases h
    exact hi.moved hle hsame (setObject_through nofun)
  | watch i e =>
    simp only [step] at h
    obtain ⟨watch, -, rfl⟩ := Option.map_eq_some_iff.mp h
    exact hi.moved hle hsame (setObject_through .inl)
  | callback i n =>
    simp only [step] at h
    obtain ⟨⟨childNodes, watch⟩, -, rfl⟩ := Option.map_eq_some_iff.mp h
    refine hi.moved hle hsame (setObject_through fun hthrough => ?_)
    unfold regChildWatcher_cb at hthrough
    split at hthrough
    · split at hthrough
      · cases hthrough
      · exact .inl hthrough
    · exact .inl hthrough
  | countdown i f =>
    simp only [step] at h
    split at h
    · cases h
      -- the request may be carried out and its answer lost: it counts as an arrival
      have hgrown : ∀ {r : ZkErrorCode × Option String × Server}, createOn f s.server childPath true true = r →
          (children r.2.2).length ≤ n + if (Act.countdown i f).arrives then 1 else 0 :=
        fun hc => Nat.le_trans (length_children_countdown hc) (Nat.add_le_add_right hi.nodes _)
      split
      · exact hi.moved hle (hgrown rfl) fun _ => .inl
      · exact hi.moved hle (hgrown rfl) (setObject_through .inl)
    · cases h
  | destroy i =>
    simp only [step] at h
    split at h <;> cases h
    exact hi.moved hle hsame (setObject_through nofun)
  | list i f =>
    simp only [step] at h
    split at h
    · split at h
      · cases h
      · split at h <;> cases h
        · exact hi.moved hle hsame (setObject_through nofun)
        · exact hi.moved hle hsame (setObject_through .inl)
    · cases h
  | delete i f =>
    simp only [step] at h
    split at h <;> cases h
    exact hi.moved hle (hnodes (length_children_deleteNode ..)) (setObject_through nofun)
  | close i =>
    simp only [step] at h
    split at h <;> cases h
    exact hi.moved hle hsame (setObject_through nofun)
  | drop path =>
    simp only [step] at h
    split at h <;> cases h
    rename_i hdone
    exact hi.moved hle (hnodes (length_children_delete hdone)) fun _ => .inl

end

def arrived : List (Act Bool) :=
  [.init true .answered true, .init false .answered true, .wait false, .getChildren false .answered, .park false,
    .countdown true .answered, .watch false (.read true), .callback false 0, .getChildren false .answered]

end ZkCppClient.Recipes.Barrier
