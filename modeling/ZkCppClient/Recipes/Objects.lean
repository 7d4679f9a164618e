import Mathlib.Data.Fintype.Basic
import ZkCppClient.Recipes.ChildWatch
import ZkCppClient.Recipes.Requests

/-!
# The objects of a recipe

Any number of objects run on one server, in processes of their own. An object
that has a child watch waits until the callback is called with a child list of a
kind, and it waits in vain only if the watch misses that list.
-/

namespace ZkCppClient.Recipes

open Ops

structure Objects (ω ι : Type*) where
  server : Server
  objects : ι → ω

section
variable {ω ι : Type*} [DecidableEq ι] {s : Objects ω ι} {i j : ι} {o : ω}

def Objects.setObject (s : Objects ω ι) (i : ι) (o : ω) : Objects ω ι := { s with objects := Function.update s.objects i o }

@[simp] theorem setObject_server : (s.setObject i o).server = s.server := rfl

@[simp] theorem setObject_self : (s.setObject i o).objects i = o := by simp [Objects.setObject]

theorem setObject_of_ne (hji : j ≠ i) : (s.setObject i o).objects j = s.objects j := by simp [Objects.setObject, hji]

theorem setObject_objects : (s.setObject i o).objects j = if j = i then o else s.objects j := by
  simp only [Objects.setObject, Function.update_apply]

theorem forall_setObject {P : ι → ω → Prop} (h : ∀ j, P j (s.objects j)) (ho : P i o) (j : ι) :
    P j ((s.setObject i o).objects j) := by
  by_cases hji : j = i
  · subst hji
    rwa [setObject_self]
  · rw [setObject_of_ne hji]
    exact h j

end

/-- A type of objects that each have a child watch on one node. -/
class Watching (ω : Type*) where
  parentPath : String
  watch : ω → ChildWatch
  setWatch : ω → ChildWatch → ω
  watch_setWatch : ∀ o w, watch (setWatch o w) = w

def children (ω : Type*) [Watching ω] (s : Server) : List String := (s.getChildren (Watching.parentPath ω)).2

section
variable {ω ι α : Type*} [Watching ω]

def Objects.setServer (s : Objects ω ι) (server : Server) : Objects ω ι where
  server := server
  objects i := Watching.setWatch (s.objects i)
    ((Watching.watch (s.objects i)).change (s.server.childList (Watching.parentPath ω))
      (server.childList (Watching.parentPath ω)))

variable (waits : ω → Prop)

/-- A change of the child list is caught by the watches of all who wait. -/
def Caught (s : Objects ω ι) (server : Server) : Prop :=
  children ω server ≠ children ω s.server → ∀ i, waits (s.objects i) → (Watching.watch (s.objects i)).Catches

/-- The step is in time for those who wait, and a change of the child list that it makes is caught. -/
def Attended (step : Objects ω ι → α → Option (Objects ω ι)) (InTime : Objects ω ι → α → Prop) (s : Objects ω ι) (a : α) : Prop :=
  InTime s a ∧ ∀ t ∈ step s a, Caught waits s t.server

/-- Whoever waits while the child list is of the kind is still to be told. -/
def Heard (p : List String → Prop) (server : Server) (o : ω) : Prop :=
  waits o → p (children ω server) → (Watching.watch o).Told p

def AllHeard (p : ι → List String → Prop) (s : Objects ω ι) : Prop := ∀ i, Heard waits (p i) s.server (s.objects i)

instance [Fintype ι] [DecidablePred waits] (s : Objects ω ι) (server : Server) : Decidable (Caught waits s server) :=
  inferInstanceAs (Decidable (_ → ∀ i, waits (s.objects i) → (Watching.watch (s.objects i)).Catches))

instance [Fintype ι] [DecidablePred waits] (step : Objects ω ι → α → Option (Objects ω ι)) (InTime : Objects ω ι → α → Prop)
    (s : Objects ω ι) (a : α) [Decidable (InTime s a)] : Decidable (Attended waits step InTime s a) :=
  inferInstanceAs (Decidable (_ ∧ ∀ t ∈ step s a, Caught waits s t.server))

end

section
variable {ω ι : Type*} [Watching ω] {waits : ω → Prop} {p : List String → Prop} {s : Objects ω ι} {server : Server} {i : ι}
  {o o' : ω} {w : ChildWatch}

@[simp] theorem setServer_server : (s.setServer server).server = server := rfl

theorem Heard.of_not_waits (h : ¬ waits o) : Heard waits p server o := fun hwaits => absurd hwaits h

theorem Heard.of_same (h : Heard waits p server o) (hwaits : waits o' → waits o)
    (hwatch : Watching.watch o' = Watching.watch o) : Heard waits p server o' := by
  intro hw hp
  rw [hwatch]
  exact h (hwaits hw) hp

theorem Heard.setServer (h : Heard waits p s.server (s.objects i)) (hc : Caught waits s server)
    (hwaits : waits ((s.setServer server).objects i) → waits (s.objects i)) :
    Heard waits p server ((s.setServer server).objects i) := by
  intro hw hp
  have hw := hwaits hw
  simp only [Objects.setServer, Watching.watch_setWatch]
  by_cases hsame : children ω server = children ω s.server
  · rw [hsame] at hp
    exact (h hw hp).change
  · apply ChildWatch.told_change (hc hsame i hw)
    rwa [childList_getD, childList_getD]

theorem Heard.step (h : Heard waits p server o) {e : WatchEvent}
    (hs : (Watching.watch o).step (server.childList (Watching.parentPath ω)) e = some w)
    (hwaits : waits (Watching.setWatch o w) → waits o) (hread : waits o → e = .read false → p [])
    (hlost : waits o → e ≠ .lost) : Heard waits p server (Watching.setWatch o w) := by
  intro hw hp
  have hw := hwaits hw
  rw [Watching.watch_setWatch]
  apply (h hw hp).step hs _ (hread hw) (hlost hw)
  rwa [childList_getD]

theorem Heard.pop (h : Heard waits p server o) {childNodes : List String} {n : Nat}
    (hpop : (Watching.watch o).pop n = some (childNodes, w)) (hother : ¬ p childNodes) (hwaits : waits o' → waits o)
    (hwatch : Watching.watch o' = w) : Heard waits p server o' := by
  intro hw hp
  rw [hwatch]
  exact (h (hwaits hw) hp).pop hpop hother

end

section
variable {ω ι : Type*} [Watching ω] {waits : ω → Prop} {p : ι → List String → Prop} {s : Objects ω ι} {server : Server}
  {i : ι} {o : ω}

theorem AllHeard.setServer (h : AllHeard waits p s) (hc : Caught waits s server)
    (hwaits : ∀ i, waits ((s.setServer server).objects i) → waits (s.objects i)) : AllHeard waits p (s.setServer server) :=
  fun i => (h i).setServer hc (hwaits i)

theorem AllHeard.setObject [DecidableEq ι] (h : AllHeard waits p s) (ho : Heard waits (p i) s.server o) :
    AllHeard waits p (s.setObject i o) :=
  forall_setObject h ho

theorem AllHeard.moved [DecidableEq ι] (h : AllHeard waits p s) (hnot : ¬ waits o) : AllHeard waits p (s.setObject i o) :=
  h.setObject (.of_not_waits hnot)

end

end ZkCppClient.Recipes
