import ZkCppClient.Recipes.Barrier

/-!
# Waiting at the barrier

`wait` finds too few nodes and then waits, and the callback only wakes a thread
that waits already. A list with enough nodes that comes in between is lost, and
so are a change that the watch does not catch and a read that fails, which is
reported as an empty list.
-/

namespace ZkCppClient.Recipes.Barrier

open SlashPath Ops

def Pc.waits : Pc → Bool
  | .waiting | .parked => true
  | _ => false

abbrev DistriBarrier.Waits (o : DistriBarrier) : Prop := o.pc.waits

def opens (barrNum : Int32) (childNodes : List String) : Prop := toSize barrNum ≤ childNodes.length

instance (barrNum : Int32) (childNodes : List String) : Decidable (opens barrNum childNodes) :=
  inferInstanceAs (Decidable (_ ≤ _))

section
variable {ι : Type*} (barrNum : ι → Int32)

/-- Who waits while there are enough nodes is still to be told. -/
def NoneStranded (s : St ι) : Prop :=
  ∀ i, (s.objects i).pc.waits → opens (barrNum i) (children s.server) → (s.objects i).watch.Told (opens (barrNum i))

/-- No list that opens the barrier comes between `getChildren` and the wait, and no read fails and no change is
lost for one who waits. -/
def InTime (s : St ι) : Act ι → Prop
  | .callback i n => (s.objects i).pc = .waiting →
    ∀ childNodes ∈ (s.objects i).watch.inbox[n]?, ¬ opens (barrNum i) childNodes
  | .watch i e => (s.objects i).pc.waits → e ≠ .read false ∧ e ≠ .lost
  | _ => True

abbrev Attended [DecidableEq ι] (s : St ι) (a : Act ι) : Prop :=
  Recipes.Attended DistriBarrier.Waits (step barrNum) (InTime barrNum) s a

abbrev AllWatched (s : St ι) : Prop := AllHeard DistriBarrier.Waits (fun i => opens (barrNum i)) s

end

section
variable {ι : Type*} {barrNum : ι → Int32} {num : Int32} {s : St ι} {server : Server} {o : DistriBarrier}

theorem heard_callback {childNodes : List String} {watch : ChildWatch} {n : Nat}
    (h : Heard DistriBarrier.Waits (opens num) server o) (hpop : o.watch.pop n = some (childNodes, watch))
    (hintime : o.pc = .waiting → ¬ opens num childNodes) :
    Heard DistriBarrier.Waits (opens num) server (regChildWatcher_cb num { o with watch } childNodes) := by
  unfold regChildWatcher_cb
  by_cases hopens : opens num childNodes
  · rw [if_pos (show toSize num ≤ childNodes.length from hopens)]
    split
    · exact .of_not_waits Bool.false_ne_true
    · rename_i hpc
      have hnot : ¬ o.Waits := by
        cases hcase : o.pc <;> simp_all [DistriBarrier.Waits, Pc.waits]
      exact .of_not_waits hnot
  · rw [if_neg (show ¬ toSize num ≤ childNodes.length from hopens)]
    exact h.pop hpop hopens id rfl

theorem AllWatched.noneStranded (h : AllWatched barrNum s) : NoneStranded barrNum s := h

end

section
variable {ι : Type*} [DecidableEq ι] {barrNum : ι → Int32} {s t : St ι}

theorem step_watched {a : Act ι} (hi : AllWatched barrNum s) (hg : Attended barrNum s a) (h : step barrNum s a = some t) :
    AllWatched barrNum t := by
  obtain ⟨hintime, hcaught⟩ := hg
  have hcaught := hcaught t h
  cases a with
  | init i f registered =>
    simp only [step] at h
    split at h
    · cases h
    · have hregistered : ∀ {server}, Caught DistriBarrier.Waits s server → AllWatched barrNum
          ((s.setServer server).setObject i (((s.setServer server).objects i).registered registered)) := by
        intro server hc
        apply (hi.setServer hc fun _ => id).setObject
        have hheard := hi.setServer hc (fun _ => id) i
        cases registered <;> exact hheard
      split at h <;> cases h
      · exact hregistered hcaught
      · exact hregistered hcaught
      · exact hi.setServer hcaught fun _ => id
  | wait i =>
    simp only [step] at h
    split at h <;> cases h
    exact hi.moved Bool.false_ne_true
  | getChildren i f =>
    simp only [step] at h
    split at h
    · split at h <;> cases h
      · rename_i childNodes hc
        have hlist : childNodes = children s.server := getChildrenOn_succeed (cString_eq_self.mpr (by decide)) hc
        apply hi.setObject
        by_cases hopens : toSize (barrNum i) ≤ childNodes.length
        · exact .of_not_waits (by simp [DistriBarrier.Waits, hopens, Pc.waits])
        · rw [hlist] at hopens
          exact fun _ hnow => absurd hnow hopens
      · exact hi.moved Bool.false_ne_true
    · cases h
  | park i =>
    simp only [step] at h
    split at h <;> cases h
    rename_i hpc
    exact hi.setObject ((hi i).of_same (by simp [DistriBarrier.Waits, hpc, Pc.waits]) rfl)
  | wake i =>
    simp only [step] at h
    split at h <;> cases h
    exact hi.moved Bool.false_ne_true
  | watch i e =>
    simp only [step] at h
    obtain ⟨watch, hs, rfl⟩ := Option.map_eq_some_iff.mp h
    exact hi.setObject ((hi i).step hs id (fun hw he => absurd he (hintime hw).1) fun hw => (hintime hw).2)
  | callback i n =>
    simp only [step] at h
    obtain ⟨⟨childNodes, watch⟩, hpop, rfl⟩ := Option.map_eq_some_iff.mp h
    exact hi.setObject (heard_callback (hi i) hpop fun hpc => hintime hpc _ (ChildWatch.pop_mem hpop))
  | countdown i f =>
    simp only [step] at h
    split at h
    · cases h
      split at hcaught
      · rename_i hec
        rw [if_pos hec]
        exact hi.setServer hcaught fun _ => id
      · rename_i hec
        rw [if_neg hec]
        exact (hi.setServer hcaught fun _ => id).setObject (hi.setServer hcaught (fun _ => id) i)
    · cases h
  | destroy i =>
    simp only [step] at h
    split at h <;> cases h
    exact hi.moved Bool.false_ne_true
  | list i f =>
    simp only [step] at h
    split at h
    · rename_i hpc
      split at h
      · cases h
      · split at h <;> cases h
        · exact hi.moved Bool.false_ne_true
        · exact hi.moved (by simp [DistriBarrier.Waits, hpc, Pc.waits])
    · cases h
  | delete i f =>
    simp only [step] at h
    split at h <;> cases h
    exact (hi.setServer hcaught fun _ => id).moved Bool.false_ne_true
  | close i =>
    simp only [step] at h
    split at h <;> cases h
    exact hi.moved Bool.false_ne_true
  | drop path =>
    simp only [step] at h
    split at h <;> cases h
    exact hi.setServer hcaught fun _ => id

/-- **No lost notification.** Where the watches of those who wait catch and keep every change and their reads succeed, and
no list that opens the barrier comes between a thread's own list and its wait, whoever waits while there
are enough nodes is still to be told. -/
theorem arrivalsTold_throughout (barrNum : ι → Int32) (server : Server) {as : List (Act ι)}
    (h : Lts.Along (step barrNum) (Attended barrNum) (St.initial ι server) as) :
    Lts.Throughout (step barrNum) (NoneStranded barrNum) (St.initial ι server) as :=
  Lts.throughout_of_along (fun _ _ _ hi hg => step_watched hi hg) (fun _ => AllWatched.noneStranded)
    (fun _ => .of_not_waits Bool.false_ne_true) h

instance [Fintype ι] (s : St ι) : Decidable (NoneStranded barrNum s) :=
  inferInstanceAs (Decidable (∀ i, (s.objects i).pc.waits → opens (barrNum i) (children s.server) →
    (s.objects i).watch.Told (opens (barrNum i))))

instance (s : St ι) : (a : Act ι) → Decidable (InTime barrNum s a)
  | .callback i n => inferInstanceAs (Decidable ((s.objects i).pc = .waiting →
      ∀ childNodes ∈ (s.objects i).watch.inbox[n]?, ¬ opens (barrNum i) childNodes))
  | .watch i e => inferInstanceAs (Decidable ((s.objects i).pc.waits → e ≠ .read false ∧ e ≠ .lost))
  | .init .. | .wait _ | .getChildren .. | .park _ | .wake _ | .countdown .. | .destroy _ | .list .. | .delete ..
  | .close _ | .drop _ => isTrue trivial

end

theorem arrivalsTold_arrived : Lts.Throughout (step fun _ => 1) (NoneStranded fun _ => 1) (St.initial Bool bareServer) arrived :=
  arrivalsTold_throughout (fun _ => 1) bareServer (by decide +kernel)

/-- The read that should report the last arrival fails, and nothing wakes the thread. -/
theorem not_arrivalsTold_failed : ¬ Lts.Throughout (step fun _ => 1) (NoneStranded fun _ => 1) (St.initial Bool bareServer)
    [.init true .answered true, .init false .answered true, .wait false, .getChildren false .answered, .park false,
      .countdown true .answered, .watch false (.read false), .callback false 0] := by
  apply Lts.not_throughout
  decide +kernel

end ZkCppClient.Recipes.Barrier
