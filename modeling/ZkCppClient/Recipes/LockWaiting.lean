import ZkCppClient.Recipes.Lock

/-!
# Waiting for the exclusive lock

`lock` finds the node there and then waits, and the callback only wakes a thread
that waits already. A child list without the node that comes in between is
lost, and so is a change that the watch does not catch.
-/

namespace ZkCppClient.Recipes.Lock

open SlashPath Ops

def parentName : Name := ⟨"exclusive_lock", by decide⟩

def Pc.waits : Pc → Bool
  | .waiting | .parked => true
  | _ => false

abbrev DistriLock.Waits (o : DistriLock) : Prop := o.pc.waits

def DistriLock.Told (name : String) (o : DistriLock) : Prop := o.watch.Told (name ∉ ·)

instance (name : String) (o : DistriLock) : Decidable (o.Told name) := inferInstanceAs (Decidable (o.watch.Told (name ∉ ·)))

section
variable {ι : Type*} (childNodeName : ι → Text)

/-- Who waits for a node that is gone is still to be told. -/
def NoneStranded (s : St ι) : Prop :=
  ∀ i, (s.objects i).pc.waits → s.server.has (childPath childNodeName i) = false →
    (s.objects i).Told (childNodeName i).val

/-- No child list without the node comes between the failed creation and the wait, and nobody who waits loses
a change. -/
def InTime (s : St ι) : Act ι → Prop
  | .callback i n =>
    (s.objects i).pc = .waiting → ∀ childNodes ∈ (s.objects i).watch.inbox[n]?, (childNodeName i).val ∈ childNodes
  | .watch i e => (s.objects i).pc.waits → e ≠ .lost
  | _ => True

/-- In time, and a change of the child list is caught by the watches of all who wait. -/
abbrev Attended [DecidableEq ι] (s : St ι) (a : Act ι) : Prop :=
  Recipes.Attended DistriLock.Waits (step childNodeName) (InTime childNodeName) s a

abbrev AllWatched (s : St ι) : Prop := AllHeard DistriLock.Waits (fun i => ((childNodeName i).val ∉ ·)) s

end

section
variable {ι : Type*} {childNodeName : ι → Text} {name : String} {s : St ι} {server : Server} {o : DistriLock}

theorem mem_children (hslash : '/' ∉ name.toList) :
    name ∈ children DistriLock server ↔ server.has (parentPath ++ "/" ++ name) = true :=
  mem_getChildren (m := parentName) (k := []) hslash

theorem heard_callback {childNodes : List String} {watch : ChildWatch} {n : Nat}
    (h : Heard DistriLock.Waits (name ∉ ·) server o) (hpop : o.watch.pop n = some (childNodes, watch))
    (hintime : o.pc = .waiting → name ∈ childNodes) :
    Heard DistriLock.Waits (name ∉ ·) server (regChildWatcher_cb name { o with watch } childNodes) := by
  unfold regChildWatcher_cb
  by_cases hmem : name ∈ childNodes
  · rw [if_pos hmem]
    exact h.pop hpop (not_not_intro hmem) id rfl
  · rw [if_neg hmem]
    split
    · exact .of_not_waits Bool.false_ne_true
    · rename_i hpc
      have hnot : ¬ o.Waits := by
        cases hcase : o.pc <;> simp_all [DistriLock.Waits, Pc.waits]
      exact .of_not_waits hnot

theorem AllWatched.noneStranded (hslash : ∀ i, '/' ∉ (childNodeName i).val.toList) (h : AllWatched childNodeName s) :
    NoneStranded childNodeName s := by
  intro i hwaits hgone
  apply h i hwaits
  rw [mem_children (hslash i), ← childPath, hgone]
  exact Bool.false_ne_true

end

section
variable {ι : Type*} [DecidableEq ι] {childNodeName : ι → Text} {s t : St ι}

theorem step_watched {a : Act ι} (hslash : ∀ i, '/' ∉ (childNodeName i).val.toList) (hi : AllWatched childNodeName s)
    (hg : Attended childNodeName s a) (h : step childNodeName s a = some t) : AllWatched childNodeName t := by
  obtain ⟨hintime, hcaught⟩ := hg
  have hcaught := hcaught t h
  cases a with
  | init i f registered =>
    simp only [step] at h
    split at h
    · cases h
    · have hregistered : ∀ {server}, Caught DistriLock.Waits s server → AllWatched childNodeName
          ((s.setServer server).setObject i (((s.setServer server).objects i).registered registered)) := by
        intro server hc
        apply (hi.setServer hc fun _ => id).setObject
        have hwatched := hi.setServer hc (fun _ => id) i
        cases registered <;> exact hwatched
      split at h <;> cases h
      · exact hregistered hcaught
      · exact hregistered hcaught
      · exact hi.setServer hcaught fun _ => id
  | lock i =>
    simp only [step] at h
    split at h <;> cases h
    exact hi.moved Bool.false_ne_true
  | createChild i f =>
    simp only [step] at h
    split at h
    · split at h <;> cases h
      · rename_i hc
        obtain ⟨hthere, rfl⟩ := createOn_existed hc
        rw [cString_childPath, childPath] at hthere
        apply (hi.setServer hcaught fun _ => id).setObject
        intro _ hgone
        exact absurd ((mem_children (hslash i)).mpr hthere) hgone
      · exact (hi.setServer hcaught fun _ => id).moved Bool.false_ne_true
      · exact (hi.setServer hcaught fun _ => id).moved Bool.false_ne_true
    · cases h
  | wait i =>
    simp only [step] at h
    split at h <;> cases h
    rename_i hpc
    exact hi.setObject ((hi i).of_same (by simp [DistriLock.Waits, hpc, Pc.waits]) rfl)
  | wake i =>
    simp only [step] at h
    split at h <;> cases h
    exact hi.moved Bool.false_ne_true
  | watch i e =>
    simp only [step] at h
    obtain ⟨watch, hs, rfl⟩ := Option.map_eq_some_iff.mp h
    exact hi.setObject ((hi i).step hs id (fun _ _ => List.not_mem_nil) hintime)
  | callback i n =>
    simp only [step] at h
    obtain ⟨⟨childNodes, watch⟩, hpop, rfl⟩ := Option.map_eq_some_iff.mp h
    exact hi.setObject (heard_callback (hi i) hpop fun hpc => hintime hpc _ (ChildWatch.pop_mem hpop))
  | unlock i =>
    simp only [step] at h
    split at h <;> cases h
    exact hi.moved Bool.false_ne_true
  | destroy i =>
    simp only [step] at h
    split at h <;> cases h
    exact hi.moved Bool.false_ne_true
  | list i f =>
    simp only [step] at h
    split at h
    · split at h <;> cases h
      · exact hi.moved Bool.false_ne_true
      · exact hi.moved (by split <;> exact Bool.false_ne_true)
    · cases h
  | delete i f =>
    simp only [step] at h
    split at h
    · cases h
      exact (hi.setServer hcaught fun _ => id).moved (by split <;> exact Bool.false_ne_true)
    · cases h
  | drop path =>
    simp only [step] at h
    split at h <;> cases h
    exact hi.setServer hcaught fun _ => id

/-- **No lost notification.** Where the watches of those who wait catch every change of the child list, and no
child list without the node comes between an object's failed creation and its wait, and nobody who waits
loses a change, an object that waits for a node that is gone is still to be told. -/
theorem noneStranded_throughout (childNodeName : ι → Text) (hslash : ∀ i, '/' ∉ (childNodeName i).val.toList)
    (server : Server) {as : List (Act ι)}
    (h : Lts.Along (step childNodeName) (Attended childNodeName) (St.initial ι server) as) :
    Lts.Throughout (step childNodeName) (NoneStranded childNodeName) (St.initial ι server) as :=
  Lts.throughout_of_along (fun _ _ _ hi hg => step_watched hslash hi hg)
    (fun _ => AllWatched.noneStranded hslash) (fun _ => .of_not_waits Bool.false_ne_true) h

instance [Fintype ι] (s : St ι) : Decidable (NoneStranded childNodeName s) :=
  inferInstanceAs (Decidable (∀ i, (s.objects i).pc.waits → s.server.has (childPath childNodeName i) = false →
    (s.objects i).Told (childNodeName i).val))

instance (s : St ι) : (a : Act ι) → Decidable (InTime childNodeName s a)
  | .callback i n => inferInstanceAs (Decidable ((s.objects i).pc = .waiting →
      ∀ childNodes ∈ (s.objects i).watch.inbox[n]?, (childNodeName i).val ∈ childNodes))
  | .watch i e => inferInstanceAs (Decidable ((s.objects i).pc.waits → e ≠ .lost))
  | .init .. | .lock _ | .createChild .. | .wait _ | .wake _ | .unlock _ | .destroy _ | .list .. | .delete ..
  | .drop _ => isTrue trivial

end

theorem noneStranded_handedOver : Lts.Throughout (step theLock) (NoneStranded theLock) (St.initial Bool bareServer)
    (contended ++ [.wait false] ++ released ++ woken) :=
  noneStranded_throughout theLock (fun _ => show '/' ∉ "lock".toList by decide) bareServer (by decide +kernel)

/-- The lock is released, and its release reported, before the other thread waits: it is never woken. -/
theorem not_noneStranded_early : ¬ Lts.Throughout (step theLock) (NoneStranded theLock) (St.initial Bool bareServer)
    (contended ++ released ++ [.watch false (.read true), .callback false 0, .wait false]) := by
  apply Lts.not_throughout
  decide +kernel

/-- The release comes between the read of the list and the next arming of the watch. -/
theorem not_noneStranded_uncaught : ¬ Lts.Throughout (step theLock) (NoneStranded theLock) (St.initial Bool bareServer)
    (contended ++ [.wait false, .watch false (.read true)] ++ released ++ [.watch false .arm]) := by
  apply Lts.not_throughout
  decide +kernel

end ZkCppClient.Recipes.Lock
