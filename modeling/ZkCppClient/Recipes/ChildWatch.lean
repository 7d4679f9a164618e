import Mathlib.Data.List.Basic

/-!
# The child watch of a recipe

A recipe registers one child watch and is called back with child lists. The
watch fires once and is armed again by the second thread; its callback reads the
list anew, and a change after that read and before the watch is armed again is
never reported. A read that fails is reported with an empty list, and the
deletion of the node is not reported.
-/

namespace ZkCppClient.Recipes

/-- Of the watches that are armed, the reads that are not yet answered, and the
child lists that the handler is still to be called with. -/
structure ChildWatch where
  isWatched : Bool := false
  armed : Nat := 0
  reads : Nat := 0
  inbox : List (List String) := []
  deriving DecidableEq

inductive WatchEvent
  | arm  -- `autoRegChildWatcher`, of which a session event queues one too
  | read (ok : Bool)
  | typeError
  | lost  -- the event is the deletion of the node, which the callback only logs
  deriving DecidableEq, Repr

namespace ChildWatch

def register (w : ChildWatch) : ChildWatch := { w with isWatched := true, armed := w.armed + 1 }

/-- The child list, `none` where the node is not there, stays the same, but that the node may be new. -/
def SameList (before after : Option (List String)) : Prop :=
  after.getD [] = before.getD [] ∧ (before.isSome → after.isSome)

instance (before after : Option (List String)) : Decidable (SameList before after) := inferInstanceAs (Decidable (_ ∧ _))

def change (w : ChildWatch) (before after : Option (List String)) : ChildWatch :=
  if SameList before after then w else { w with armed := 0, reads := w.reads + w.armed }

def step (w : ChildWatch) (childNodes : Option (List String)) : WatchEvent → Option ChildWatch
  | .arm => if w.isWatched ∧ childNodes.isSome then some { w with armed := w.armed + 1 } else none
  | .read ok =>
    if w.reads = 0 then none
    else some { w with reads := w.reads - 1, inbox := w.inbox ++ [if ok then childNodes.getD [] else []] }
  | .typeError => if w.isWatched then some { w with inbox := w.inbox ++ [[]] } else none
  | .lost => if w.reads = 0 then none else some { w with reads := w.reads - 1 }

/-- The handler is called. The list of a read that was not accepted is told before those that are on their way. -/
def pop (w : ChildWatch) (n : Nat) : Option (List String × ChildWatch) :=
  (w.inbox[n]?).map fun childNodes => (childNodes, { w with inbox := w.inbox.eraseIdx n })

def Catches (w : ChildWatch) : Prop := 0 < w.armed ∨ 0 < w.reads

/-- A list of the kind is still to be reported, or the list is to be read. -/
def Told (p : List String → Prop) (w : ChildWatch) : Prop := 0 < w.reads ∨ ∃ childNodes ∈ w.inbox, p childNodes

instance (w : ChildWatch) : Decidable w.Catches := inferInstanceAs (Decidable (_ ∨ _))

instance (p : List String → Prop) [DecidablePred p] (w : ChildWatch) : Decidable (w.Told p) :=
  inferInstanceAs (Decidable (_ ∨ _))

variable {p : List String → Prop} {w w' : ChildWatch} {before after now : Option (List String)} {childNodes : List String}
  {n : Nat} {e : WatchEvent}

@[simp] theorem change_isWatched : (w.change before after).isWatched = w.isWatched := by
  unfold ChildWatch.change
  split <;> rfl

theorem step_isWatched (hs : w.step now e = some w') : w'.isWatched = w.isWatched := by
  cases e <;> simp only [ChildWatch.step] at hs <;> split at hs <;> cases hs <;> rfl

theorem Told.change (h : w.Told p) : (w.change before after).Told p := by
  unfold ChildWatch.change
  split
  · exact h
  · exact h.imp_left fun hreads => Nat.lt_of_lt_of_le hreads (Nat.le_add_right _ _)

theorem told_change (hcatches : w.Catches) (hne : after.getD [] ≠ before.getD []) : (w.change before after).Told p := by
  left
  simp only [ChildWatch.change, SameList, hne, false_and, if_false]
  rcases hcatches with harmed | hreads
  · exact Nat.lt_of_lt_of_le harmed (Nat.le_add_left _ _)
  · exact Nat.lt_of_lt_of_le hreads (Nat.le_add_right _ _)

theorem Told.step (h : w.Told p) (hs : w.step now e = some w') (hnow : p (now.getD [])) (hfail : e = .read false → p [])
    (hlost : e ≠ .lost) : w'.Told p := by
  cases e with
  | arm =>
    simp only [ChildWatch.step] at hs
    split at hs <;> cases hs
    exact h
  | read ok =>
    simp only [ChildWatch.step] at hs
    split at hs <;> cases hs
    refine .inr ⟨_, List.mem_append_right _ List.mem_cons_self, ?_⟩
    cases ok
    · exact hfail rfl
    · exact hnow
  | typeError =>
    simp only [ChildWatch.step] at hs
    split at hs <;> cases hs
    exact h.imp_right fun ⟨l, hl, hp⟩ => ⟨l, List.mem_append_left _ hl, hp⟩
  | lost => exact absurd rfl hlost

theorem pop_mem (hpop : w.pop n = some (childNodes, w')) : childNodes ∈ w.inbox[n]? := by
  obtain ⟨l, hl, heq⟩ := Option.map_eq_some_iff.mp hpop
  cases heq
  exact hl

theorem pop_isWatched (hpop : w.pop n = some (childNodes, w')) : w'.isWatched = w.isWatched := by
  obtain ⟨l, -, heq⟩ := Option.map_eq_some_iff.mp hpop
  cases heq
  rfl

theorem Told.pop (h : w.Told p) (hpop : w.pop n = some (childNodes, w')) (hother : ¬ p childNodes) : w'.Told p := by
  obtain ⟨l, hl, heq⟩ := Option.map_eq_some_iff.mp hpop
  cases heq
  refine h.imp_right ?_
  rintro ⟨l, hmem, hp⟩
  refine ⟨l, ?_, hp⟩
  obtain ⟨m, hm⟩ := List.mem_iff_getElem?.mp hmem
  rw [List.mem_eraseIdx_iff_getElem?]
  refine ⟨m, ?_, hm⟩
  rintro rfl
  rw [hl] at hm
  cases hm
  exact hother hp

end ChildWatch

end ZkCppClient.Recipes
