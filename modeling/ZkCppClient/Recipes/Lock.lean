import ZkCppClient.Lib.Run
import ZkCppClient.Recipes.Objects

/-!
# The exclusive lock

`DistriLock`: who makes the temporary node below `/exclusive_lock` has the lock,
and the others wait until a child list comes without it. Any number of objects
run in processes of their own; each is called by one thread, and its watch
callback runs on another.
-/

namespace ZkCppClient.Recipes.Lock

open SlashPath Ops

def parentPath : String := "/exclusive_lock"

inductive Pc
  | idle
  | creating  -- in `lock`, before `createChild`
  | waiting  -- told that the node exists, and not yet in `condition_.wait()`
  | parked
  | holding  -- `lock` has returned `true`
  | listing (destroyed : Bool)  -- in `deleteRecursive`, of `unlock` or of the destructor
  | deleting (destroyed : Bool)
  | gone
  deriving DecidableEq, Repr

structure DistriLock where
  isInit : Bool := false
  pc : Pc := .idle
  watch : ChildWatch := {}

instance : Watching DistriLock where
  parentPath := parentPath
  watch o := o.watch
  setWatch o watch := { o with watch }
  watch_setWatch _ _ := rfl

abbrev St (ι : Type*) := Objects DistriLock ι

def St.initial (ι : Type*) (server : Server) : St ι := ⟨server, fun _ => {}⟩

inductive Act (ι : Type*)
  | init (i : ι) (f : Fate) (registered : Bool)
  | lock (i : ι)
  | createChild (i : ι) (f : Fate)
  | wait (i : ι)
  | wake (i : ι)  -- out of `condition_.wait()` without a notification
  | watch (i : ι) (e : WatchEvent)
  | callback (i : ι) (n : Nat)
  | unlock (i : ι)
  | destroy (i : ι)
  | list (i : ι) (f : Fate)
  | delete (i : ι) (f : Fate)
  | drop (path : String)  -- a session has ended, or another client deletes the node

def Act.object {ι : Type*} : Act ι → Option ι
  | .init i _ _ | .lock i | .createChild i _ | .wait i | .wake i | .watch i _ | .callback i _ | .unlock i | .destroy i
  | .list i _ | .delete i _ => some i
  | .drop _ => none

def DistriLock.registered (o : DistriLock) (ok : Bool) : DistriLock :=
  if ok then { o with isInit := true, watch := o.watch.register } else o

section
variable {ι : Type*} [DecidableEq ι]

def setPc (s : St ι) (i : ι) (pc : Pc) : St ι := s.setObject i { s.objects i with pc }

def regChildWatcher_cb (childNodeName : String) (o : DistriLock) (childNodes : List String) : DistriLock :=
  if childNodeName ∈ childNodes then o else
  match o.pc with
  | .parked => { o with pc := .creating }  -- `notifyAll`
  | _ => o

variable (childNodeName : ι → Text)

def childPath (i : ι) : String := parentPath ++ "/" ++ (childNodeName i).val

def step (s : St ι) : Act ι → Option (St ι)
  | .init i f registered =>
    if (s.objects i).isInit then none else
    match createOn f s.server parentPath false false with
    | (.kZKSucceed, _, server) | (.kZKExisted, _, server) =>
      let s := s.setServer server
      some (s.setObject i ((s.objects i).registered registered))
    | (_, _, server) => some (s.setServer server)
  | .lock i => if (s.objects i).isInit ∧ (s.objects i).pc = .idle then some (setPc s i .creating) else none
  | .createChild i f =>
    if (s.objects i).pc = .creating then
      match createOn f s.server (childPath childNodeName i) true false with
      | (.kZKExisted, _, server) => some (setPc (s.setServer server) i .waiting)
      | (.kZKSucceed, _, server) => some (setPc (s.setServer server) i .holding)
      | (_, _, server) => some (setPc (s.setServer server) i .idle)
    else none
  | .wait i => if (s.objects i).pc = .waiting then some (setPc s i .parked) else none
  | .wake i => if (s.objects i).pc = .parked then some (setPc s i .creating) else none
  | .watch i e =>
    let o := s.objects i
    (o.watch.step (s.server.childList parentPath) e).map fun watch => s.setObject i { o with watch }
  | .callback i n =>
    let o := s.objects i
    (o.watch.pop n).map fun (childNodes, watch) =>
      s.setObject i (regChildWatcher_cb (childNodeName i).val { o with watch } childNodes)
  | .unlock i =>
    let o := s.objects i
    if o.isInit ∧ (o.pc = .idle ∨ o.pc = .holding) then some (setPc s i (.listing false)) else none
  | .destroy i =>
    let o := s.objects i
    if o.isInit ∧ (o.pc = .idle ∨ o.pc = .holding) then some (setPc s i (.listing true)) else none
  | .list i f =>
    match (s.objects i).pc with
    | .listing destroyed =>
      match getChildrenOn f s.server (childPath childNodeName i) with
      | (.kZKSucceed, _) => some (setPc s i (.deleting destroyed))  -- a temporary node has no children
      | _ => some (setPc s i (if destroyed then .gone else .idle))
    | _ => none
  | .delete i f =>
    match (s.objects i).pc with
    | .deleting destroyed =>
      let (_, server) := deleteNodeOn f s.server (childPath childNodeName i)
      some (setPc (s.setServer server) i (if destroyed then .gone else .idle))
    | _ => none
  | .drop path =>
    match s.server.delete path (-1) with
    | (.zok, server) => some (s.setServer server)
    | _ => none

end

/-! ## Exclusion -/

/-- From the return of `lock` until the deletion of the node. -/
def Pc.owns : Pc → Bool
  | .holding | .listing _ | .deleting _ => true
  | _ => false

section
variable {ι : Type*} (childNodeName : ι → Text)

def Exclusive (s : St ι) : Prop :=
  ∀ i j, (s.objects i).pc = .holding → (s.objects j).pc = .holding →
    childPath childNodeName i = childPath childNodeName j → i = j

/-- `unlock` and the destructor are called with the lock held, and the session of
the object that has the lock lasts until it has deleted its node. -/
def Orderly (s : St ι) : Act ι → Prop
  | .unlock i | .destroy i => (s.objects i).pc = .holding
  | .drop path => ∀ i, (s.objects i).pc.owns → childPath childNodeName i ≠ path
  | _ => True

structure Inv (s : St ι) : Prop where
  unique : ∀ i j, (s.objects i).pc.owns → (s.objects j).pc.owns →
    childPath childNodeName i = childPath childNodeName j → i = j
  there : ∀ i, (s.objects i).pc.owns → s.server.has (childPath childNodeName i)

end

section
variable {ι : Type*} {childNodeName : ι → Text} {s t : St ι} {i j : ι} {server : Server}

theorem cString_childPath (i : ι) : cString (childPath childNodeName i) = childPath childNodeName i := by
  rw [cString_eq_self]
  simp [childPath, (childNodeName i).property]
  decide +kernel

@[simp] theorem setServer_pc : ((s.setServer server).objects j).pc = (s.objects j).pc := rfl

theorem registered_pc (o : DistriLock) (ok : Bool) : (o.registered ok).pc = o.pc := by
  cases ok <;> rfl

theorem inv_initial (server : Server) : Inv childNodeName (St.initial ι server) := by
  constructor <;> simp [St.initial, Pc.owns]

theorem Inv.exclusive (h : Inv childNodeName s) : Exclusive childNodeName s := by
  intro i j hi hj
  apply h.unique <;> simp [hi, hj, Pc.owns]

theorem Inv.kept (h : Inv childNodeName s) (howns : ∀ j, (t.objects j).pc.owns → (s.objects j).pc.owns)
    (hthere : ∀ j, (t.objects j).pc.owns → s.server.has (childPath childNodeName j) →
      t.server.has (childPath childNodeName j)) : Inv childNodeName t := by
  constructor
  · intro i j hi hj
    exact h.unique i j (howns i hi) (howns j hj)
  · intro i hi
    exact hthere i hi (h.there i (howns i hi))

theorem Inv.acquired (h : Inv childNodeName s) (howns : ∀ j, j ≠ i → (t.objects j).pc.owns → (s.objects j).pc.owns)
    (hfree : s.server.has (childPath childNodeName i) = false)
    (hmade : ∀ p, t.server.has p = true ↔ p = childPath childNodeName i ∨ s.server.has p = true) :
    Inv childNodeName t := by
  -- who owned a node before owns another one, for this one was not there
  have hother : ∀ j, j ≠ i → (t.objects j).pc.owns → childPath childNodeName j ≠ childPath childNodeName i := by
    intro j hj howns' heq
    have hthere := h.there j (howns j hj howns')
    rw [heq, hfree] at hthere
    cases hthere
  constructor
  · intro j k hj hk heq
    by_cases hji : j = i
    · subst hji
      by_cases hkj : k = j
      · exact hkj.symm
      · exact absurd heq.symm (hother k hkj hk)
    · by_cases hki : k = i
      · subst hki
        exact absurd heq (hother j hji hj)
      · exact h.unique j k (howns j hji hj) (howns k hki hk) heq
  · intro j hj
    rw [hmade]
    by_cases hji : j = i
    · exact .inl (by rw [hji])
    · exact .inr (h.there j (howns j hji hj))

end

section
variable {ι : Type*} [DecidableEq ι] {childNodeName : ι → Text} {s t : St ι} {i j : ι} {pc : Pc} {o : DistriLock}

@[simp] theorem setPc_server : (setPc s i pc).server = s.server := rfl

@[simp] theorem setObject_pc : ((s.setObject i o).objects j).pc = if j = i then o.pc else (s.objects j).pc := by
  rw [setObject_objects]
  split <;> rfl

@[simp] theorem setPc_pc : ((setPc s i pc).objects j).pc = if j = i then pc else (s.objects j).pc := setObject_pc

theorem Inv.moved (h : Inv childNodeName s) (hserver : t.server = s.server)
    (hother : ∀ j, j ≠ i → (t.objects j).pc = (s.objects j).pc)
    (hpc : (t.objects i).pc.owns → (s.objects i).pc.owns) : Inv childNodeName t := by
  apply h.kept
  · intro j hj
    by_cases hji : j = i
    · subst hji
      exact hpc hj
    · rwa [hother j hji] at hj
  · intro j _ hthere
    rwa [hserver]

theorem callback_owns (name : String) (childNodes : List String) :
    (regChildWatcher_cb name o childNodes).pc.owns = o.pc.owns := by
  unfold regChildWatcher_cb
  split
  · rfl
  · split
    · rename_i hpc
      rw [hpc]
      rfl
    · rfl

theorem Inv.request (h : Inv childNodeName s) {f : Fate} {path : String} {isTemp isSequence : Bool} {ec : ZkErrorCode}
    {ret : Option String} {server : Server} (hc : createOn f s.server path isTemp isSequence = (ec, ret, server))
    (hpc : pc.owns → (s.objects i).pc.owns) : Inv childNodeName (setPc (s.setServer server) i pc) := by
  apply h.kept
  · intro j hj
    simp only [setPc_pc, setServer_pc] at hj
    split at hj
    · rename_i hji
      subst hji
      exact hpc hj
    · exact hj
  · exact fun j _ hp => createOn_grows hc hp

theorem step_inv {a : Act ι} (hi : Inv childNodeName s) (hg : Orderly childNodeName s a)
    (h : step childNodeName s a = some t) : Inv childNodeName t := by
  cases a with
  | init i f registered =>
    simp only [step] at h
    split at h
    · cases h
    · split at h <;> cases h <;> rename_i hc
      · exact hi.kept (by intro j; simp [registered_pc]; split <;> simp_all) (fun j _ hp => createOn_grows hc hp)
      · exact hi.kept (by intro j; simp [registered_pc]; split <;> simp_all) (fun j _ hp => createOn_grows hc hp)
      · exact hi.kept (by simp) (fun j _ hp => createOn_grows hc hp)
  | lock i =>
    simp only [step] at h
    split at h <;> cases h
    exact hi.moved (i := i) rfl (by simp_all) (by simp [Pc.owns])
  | createChild i f =>
    simp only [step] at h
    split at h
    · rename_i hpc
      split at h <;> cases h <;> rename_i hc
      · exact hi.request hc (by simp [Pc.owns])
      · obtain ⟨created, -, hmade⟩ := createOn_succeed hc
        have hcreated := hmade.created_eq
        rw [cString_childPath] at hcreated
        subst hcreated
        -- the node was not there, so nobody owned it
        apply hi.acquired (i := i)
        · intro j hji hj
          simpa [hji] using hj
        · exact hmade.new
        · exact fun p => hmade.has
      · exact hi.request hc (by simp [Pc.owns])
    · cases h
  | wait i =>
    simp only [step] at h
    split at h <;> cases h
    exact hi.moved (i := i) rfl (by simp_all) (by simp [Pc.owns])
  | wake i =>
    simp only [step] at h
    split at h <;> cases h
    exact hi.moved (i := i) rfl (by simp_all) (by simp [Pc.owns])
  | watch i e =>
    simp only [step] at h
    obtain ⟨watch, -, rfl⟩ := Option.map_eq_some_iff.mp h
    exact hi.moved (i := i) rfl (by simp_all) (by simp)
  | callback i n =>
    simp only [step] at h
    obtain ⟨⟨childNodes, watch⟩, -, rfl⟩ := Option.map_eq_some_iff.mp h
    exact hi.moved (i := i) rfl (by simp_all) (by simp [callback_owns])
  | unlock i =>
    simp only [step] at h
    split at h <;> cases h
    exact hi.moved (i := i) rfl (by simp_all) (fun _ => by rw [show (s.objects i).pc = .holding from hg]; rfl)
  | destroy i =>
    simp only [step] at h
    split at h <;> cases h
    exact hi.moved (i := i) rfl (by simp_all) (fun _ => by rw [show (s.objects i).pc = .holding from hg]; rfl)
  | list i f =>
    simp only [step] at h
    split at h
    · rename_i destroyed hpc
      split at h <;> cases h
      · exact hi.moved (i := i) rfl (by simp_all) (by simp [hpc, Pc.owns])
      · exact hi.moved (i := i) rfl (by simp_all) (by simp [hpc, Pc.owns])
    · cases h
  | delete i f =>
    simp only [step] at h
    split at h
    · rename_i destroyed hpc
      cases h
      -- the owner deletes its own node, and nobody else owns one of that path
      have howner : (s.objects i).pc.owns := by rw [hpc]; rfl
      apply hi.kept
      · intro j hj
        by_cases hji : j = i
        · rw [hji]
          exact howner
        · simpa [hji] using hj
      · intro j hj hthere
        have hji : j ≠ i := by
          intro hji
          subst hji
          cases destroyed <;> simp [Pc.owns] at hj
        rw [setPc_pc, if_neg hji, setServer_pc] at hj
        have hpath : childPath childNodeName j ≠ childPath childNodeName i := fun heq => hji (hi.unique j i hj howner heq)
        -- the request may fail, and the object lets go of the node all the same
        rcases deleteNodeOn_cases f s.server (childPath childNodeName i) with hsame | hdone
        · simpa [hsame] using hthere
        · rw [cString_childPath] at hdone
          exact (delete_has hdone).mpr ⟨hpath, hthere⟩
    · cases h
  | drop path =>
    simp only [step] at h
    split at h
    · rename_i server hdone
      cases h
      apply hi.kept
      · simp
      · intro j hj hthere
        rw [setServer_pc] at hj
        exact (delete_has hdone).mpr ⟨hg j hj, hthere⟩
    · cases h

/-- **Exclusion.** Objects of one lock node hold the lock one at a time in every
run in which it is released by its holder alone. -/
theorem exclusive_throughout (childNodeName : ι → Text) (server : Server) {as : List (Act ι)}
    (h : Lts.Along (step childNodeName) (Orderly childNodeName) (St.initial ι server) as) :
    Lts.Throughout (step childNodeName) (Exclusive childNodeName) (St.initial ι server) as :=
  Lts.throughout_of_along (fun _ _ _ hi hg => step_inv hi hg) (fun _ => Inv.exclusive) (inv_initial server) h

instance [Fintype ι] (s : St ι) : Decidable (Exclusive childNodeName s) :=
  inferInstanceAs (Decidable (∀ i j, (s.objects i).pc = .holding → (s.objects j).pc = .holding →
    childPath childNodeName i = childPath childNodeName j → i = j))

instance [Fintype ι] (s : St ι) : (a : Act ι) → Decidable (Orderly childNodeName s a)
  | .unlock i | .destroy i => inferInstanceAs (Decidable ((s.objects i).pc = .holding))
  | .drop path => inferInstanceAs (Decidable (∀ i, (s.objects i).pc.owns → childPath childNodeName i ≠ path))
  | .init .. | .lock _ | .createChild .. | .wait _ | .wake _ | .watch .. | .callback .. | .list .. | .delete .. =>
    isTrue trivial

end

def theLock : Bool → Text := fun _ => ⟨"lock", by decide⟩

def contended : List (Act Bool) :=
  [.init true .answered true, .init false .answered true, .lock true, .createChild true .answered, .lock false,
    .createChild false .answered]

def released : List (Act Bool) := [.unlock true, .list true .answered, .delete true .answered]

def woken : List (Act Bool) := [.watch false (.read true), .callback false 0, .createChild false .answered]

theorem exclusive_handedOver : Lts.Throughout (step theLock) (Exclusive theLock) (St.initial Bool bareServer)
    (contended ++ [.wait false] ++ released ++ woken) :=
  exclusive_throughout theLock bareServer (by decide +kernel)

/-- `unlock` called on an object that has not got the lock takes it from the one that has. -/
theorem not_exclusive_unlocked : ¬ Lts.Throughout (step theLock) (Exclusive theLock) (St.initial Bool bareServer)
    [.init true .answered true, .init false .answered true, .lock true, .createChild true .answered,
      .unlock false, .list false .answered, .delete false .answered, .lock false, .createChild false .answered] := by
  apply Lts.not_throughout
  decide +kernel

end ZkCppClient.Recipes.Lock
