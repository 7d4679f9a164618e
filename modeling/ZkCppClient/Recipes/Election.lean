import ZkCppClient.Lib.Run
import ZkCppClient.Recipes.Objects

/-!
# The election of a master

`MasterElection`: who makes the temporary node `binding` is the master, and an
object that is called with a child list without it tries again. Any number of
objects run in processes of their own; `start` and the destructor are called by
one thread, the watch callback runs on another, and both threads call `retry`.
-/

namespace ZkCppClient.Recipes.Election

open SlashPath Ops

def parentPath : String := "/master_election"

def childPath : String := "/master_election/binding"

inductive Thread
  | caller
  | notifier
  deriving DecidableEq, Repr

instance : Fintype Thread := ⟨{.caller, .notifier}, by intro thread; cases thread <;> decide⟩

inductive Pc
  | idle
  | creating  -- in `retry`, before `create`
  | told (isMaster : Bool)  -- `create` has returned, and `isMaster_` is to be set
  | listing  -- in `deleteRecursive` of the destructor
  | deleting
  | gone
  deriving DecidableEq, Repr

structure MasterElection where
  isInit : Bool := false
  isMaster_ : Bool := false
  pc : Thread → Pc := fun _ => .idle
  watch : ChildWatch := {}

def MasterElection.isMaster (o : MasterElection) : Bool := o.isInit && o.isMaster_

instance : Watching MasterElection where
  parentPath := parentPath
  watch o := o.watch
  setWatch o watch := { o with watch }
  watch_setWatch _ _ := rfl

abbrev St (ι : Type*) := Objects MasterElection ι

def St.initial (ι : Type*) (server : Server) : St ι := ⟨server, fun _ => {}⟩

inductive Act (ι : Type*)
  | init (i : ι) (f : Fate)
  | start (i : ι) (registered : Bool)
  | create (i : ι) (thread : Thread) (f : Fate)
  | setMaster (i : ι) (thread : Thread)
  | watch (i : ι) (e : WatchEvent)
  | callback (i : ι) (n : Nat)
  | destroy (i : ι)
  | list (i : ι) (f : Fate)
  | delete (i : ι) (f : Fate)
  | drop (path : String)  -- a session has ended, or another client deletes the node

def MasterElection.setPc (o : MasterElection) (thread : Thread) (pc : Pc) : MasterElection :=
  { o with pc := Function.update o.pc thread pc }

def MasterElection.gone (o : MasterElection) : MasterElection :=
  { o.setPc .caller .gone with isInit := false, isMaster_ := false, watch := {} }

def regChildWatcher_cb (o : MasterElection) (childNodes : List String) : MasterElection :=
  if "binding" ∈ childNodes then o else o.setPc .notifier .creating

section
variable {ι : Type*} [DecidableEq ι]

def step (s : St ι) : Act ι → Option (St ι)
  | .init i f =>
    if (s.objects i).isInit ∨ (s.objects i).pc .caller = .gone then none else
    match createOn f s.server parentPath false false with
    | (.kZKSucceed, _, server) | (.kZKExisted, _, server) =>
      let s := s.setServer server
      some (s.setObject i { s.objects i with isInit := true })
    | (_, _, server) => some (s.setServer server)
  | .start i registered =>
    let o := s.objects i
    if o.isInit ∧ o.pc .caller = .idle ∧ (registered → (s.server.childList parentPath).isSome) then
      if registered then some (s.setObject i { o.setPc .caller .creating with watch := o.watch.register }) else some s
    else none
  | .create i thread f =>
    if (s.objects i).pc thread = .creating ∧ (s.objects i).pc .caller ≠ .gone then
      let (ec, _, server) := createOn f s.server childPath true false
      let s := s.setServer server
      match ec with
      | .kZKSucceed => some (s.setObject i ((s.objects i).setPc thread (.told true)))
      | .kZKExisted => some (s.setObject i ((s.objects i).setPc thread (.told false)))
      | _ => some (s.setObject i ((s.objects i).setPc thread .idle))
    else none
  | .setMaster i thread =>
    let o := s.objects i
    match o.pc thread with
    | .told isMaster =>
      if o.pc .caller = .gone then none
      else some (s.setObject i { o.setPc thread .idle with isMaster_ := isMaster })
    | _ => none
  | .watch i e =>
    let o := s.objects i
    (o.watch.step (s.server.childList parentPath) e).map fun watch => s.setObject i { o with watch }
  | .callback i n =>
    let o := s.objects i
    if o.pc .notifier = .idle ∧ o.pc .caller ≠ .gone then
      (o.watch.pop n).map fun (childNodes, watch) => s.setObject i (regChildWatcher_cb { o with watch } childNodes)
    else none
  | .destroy i =>
    let o := s.objects i
    if o.isInit ∧ o.pc .caller = .idle then some (s.setObject i (o.setPc .caller .listing)) else none
  | .list i f =>
    let o := s.objects i
    if o.pc .caller = .listing then
      match getChildrenOn f s.server childPath with
      | (.kZKSucceed, _) => some (s.setObject i (o.setPc .caller .deleting))  -- a temporary node has no children
      | _ => some (s.setObject i o.gone)
    else none
  | .delete i f =>
    if (s.objects i).pc .caller = .deleting then
      let s := s.setServer (deleteNodeOn f s.server childPath).2
      some (s.setObject i (s.objects i).gone)
    else none
  | .drop path =>
    match s.server.delete path (-1) with
    | (.zok, server) => some (s.setServer server)
    | _ => none

/-! ## The flags -/

/-- Who was told to have made the node that is there. -/
def recordMaster (w : Option ι) (s : St ι) : Act ι → Option ι
  | .create i _ f => if (createOn f s.server childPath true false).1 = .kZKSucceed then some i else w
  | .delete _ f => if (deleteNodeOn f s.server childPath).2.has childPath then w else none
  | .drop path => if path = childPath then none else w
  | _ => w

def electing : St ι × Option ι → Act ι → Option (St ι × Option ι) := Lts.withHistory step recordMaster

def MasterElection.Settled (o : MasterElection) : Prop := ∀ thread isMaster, o.pc thread ≠ .told isMaster

def FlagsRight (x : St ι × Option ι) : Prop := ∀ i, (x.1.objects i).isInit → (x.1.objects i).Settled →
  ((x.1.objects i).isMaster = true ↔ x.2 = some i)

/-- An object asks for the node on one thread at a time and not while it has it, and
the node goes with the object that has made it. -/
def Undisturbed (x : St ι × Option ι) : Act ι → Prop
  | .create i _ _ => x.2 ≠ some i ∧ (x.1.objects i).Settled
  | .delete i _ => ∀ j ∈ x.2, j = i
  | .drop path => path = childPath → ∀ i ∈ x.2, (x.1.objects i).pc .caller = .gone
  | _ => True

end

structure Right (made : Prop) (o : MasterElection) : Prop where
  settled : o.Settled → (o.isMaster_ = true ↔ made)
  told : ∀ thread isMaster, o.pc thread = .told isMaster → (isMaster = true ↔ made)
  one : ∀ thread thread' isMaster isMaster', o.pc thread = .told isMaster → o.pc thread' = .told isMaster' → thread = thread'

/-- What a change of the server leaves of an object. -/
structure SameFlags (o o' : MasterElection) : Prop where
  isInit : o.isInit = o'.isInit
  isMaster_ : o.isMaster_ = o'.isMaster_
  pc : o.pc = o'.pc

section
variable {made made' : Prop} {o o' : MasterElection} {thread : Thread} {pc : Pc} {isMaster : Bool}

theorem setPc_pc (thread' : Thread) : (o.setPc thread pc).pc thread' = if thread' = thread then pc else o.pc thread' := by
  simp [MasterElection.setPc, Function.update_apply]

theorem Right.of_same (h : Right made o) (hmaster : o'.isMaster_ = o.isMaster_) (hpc : o'.pc = o.pc) : Right made o' := by
  constructor
  · unfold MasterElection.Settled
    rw [hmaster, hpc]
    exact h.settled
  · rw [hpc]
    exact h.told
  · rw [hpc]
    exact h.one

theorem Right.setPc (h : Right made o) (hold : ∀ isMaster, o.pc thread ≠ .told isMaster) (hnew : ∀ isMaster, pc ≠ .told isMaster) :
    Right made (o.setPc thread pc) := by
  have htold : ∀ thread' isMaster, (o.setPc thread pc).pc thread' = .told isMaster ↔ o.pc thread' = .told isMaster := by
    intro thread' isMaster
    rw [setPc_pc]
    by_cases heq : thread' = thread
    · subst heq
      simp [hold, hnew]
    · simp [heq]
  constructor
  · intro hsettled
    apply h.settled
    intro thread' isMaster hpc
    exact hsettled thread' isMaster ((htold _ _).mpr hpc)
  · intro thread' isMaster hpc
    exact h.told thread' isMaster ((htold _ _).mp hpc)
  · intro thread₁ thread₂ isMaster₁ isMaster₂ hpc₁ hpc₂
    exact h.one _ _ _ _ ((htold _ _).mp hpc₁) ((htold _ _).mp hpc₂)

theorem right_told (hsettled : o.Settled) (hmade : isMaster = true ↔ made) : Right made (o.setPc thread (.told isMaster)) := by
  have honly : ∀ thread' isMaster', (o.setPc thread (.told isMaster)).pc thread' = .told isMaster' →
      thread' = thread ∧ isMaster' = isMaster := by
    intro thread' isMaster' hpc
    rw [setPc_pc] at hpc
    by_cases heq : thread' = thread
    · rw [if_pos heq] at hpc
      cases hpc
      exact ⟨heq, rfl⟩
    · rw [if_neg heq] at hpc
      exact absurd hpc (hsettled thread' isMaster')
  constructor
  · intro hnone
    exact absurd (by simp [setPc_pc]) (hnone thread isMaster)
  · intro thread' isMaster' hpc
    rw [(honly _ _ hpc).2]
    exact hmade
  · intro thread₁ thread₂ isMaster₁ isMaster₂ hpc₁ hpc₂
    rw [(honly _ _ hpc₁).1, (honly _ _ hpc₂).1]

theorem Right.set (h : Right made o) (hpc : o.pc thread = .told isMaster) :
    Right made { o.setPc thread .idle with isMaster_ := isMaster } := by
  have hnone : ∀ thread' isMaster', (o.setPc thread .idle).pc thread' ≠ .told isMaster' := by
    intro thread' isMaster' hpc'
    rw [setPc_pc] at hpc'
    by_cases heq : thread' = thread
    · rw [if_pos heq] at hpc'
      cases hpc'
    · rw [if_neg heq] at hpc'
      exact heq (h.one _ _ _ _ hpc' hpc)
  constructor
  · exact fun _ => h.told thread isMaster hpc
  · exact fun thread' isMaster' hpc' => absurd hpc' (hnone thread' isMaster')
  · exact fun thread₁ _ isMaster₁ _ hpc₁ => absurd hpc₁ (hnone thread₁ isMaster₁)

theorem Right.of_iff (h : Right made o) (hmade : made ↔ made') : Right made' o := by
  rwa [← propext hmade]

theorem right_initial : Right False {} := by
  constructor <;> simp

end

structure Inv {ι : Type*} (x : St ι × Option ι) : Prop where
  there : ∀ i ∈ x.2, x.1.server.has childPath
  ended : ∀ i, (x.1.objects i).pc .caller = .gone → (x.1.objects i).isInit = false
  right : ∀ i, (x.1.objects i).pc .caller ≠ .gone → Right (x.2 = some i) (x.1.objects i)

section
variable {ι : Type*} {x : St ι × Option ι} {s u : St ι} {w w' : Option ι} {server : Server}

theorem Inv.flagsRight (h : Inv x) : FlagsRight x := by
  intro i hinit hsettled
  have halive : (x.1.objects i).pc .caller ≠ .gone := by
    intro hgone
    rw [h.ended i hgone] at hinit
    cases hinit
  rw [MasterElection.isMaster, hinit, Bool.true_and]
  exact (h.right i halive).settled hsettled

theorem setServer_same (j : ι) : SameFlags ((s.setServer server).objects j) (s.objects j) := ⟨rfl, rfl, rfl⟩

theorem inv_initial (server : Server) : Inv (St.initial ι server, none) := by
  constructor
  · nofun
  · nofun
  · intro i _
    exact right_initial.of_iff (by simp)

theorem Inv.beside (h : Inv (s, w)) (hu : ∀ j, SameFlags (u.objects j) (s.objects j)) (hthere : ∀ i ∈ w', u.server.has childPath)
    (hmade : ∀ j, (s.objects j).pc .caller ≠ .gone → (w = some j ↔ w' = some j)) : Inv (u, w') := by
  constructor
  · exact hthere
  · intro j hgone
    rw [(hu j).isInit]
    rw [(hu j).pc] at hgone
    exact h.ended j hgone
  · intro j halive
    rw [(hu j).pc] at halive
    exact ((h.right j halive).of_same (hu j).isMaster_ (hu j).pc).of_iff (hmade j halive)

end

section
variable {ι : Type*} [DecidableEq ι] {x y : St ι × Option ι} {s u : St ι} {w w' : Option ι} {i : ι} {o : MasterElection}
  {f : Fate} {path : String} {isTemp : Bool} {ec : ZkErrorCode} {ret : Option String} {server : Server}

theorem Inv.moved (h : Inv (s, w)) (hu : ∀ j, SameFlags (u.objects j) (s.objects j)) (hthere : ∀ i ∈ w', u.server.has childPath)
    (hmade : ∀ j, j ≠ i → (s.objects j).pc .caller ≠ .gone → (w = some j ↔ w' = some j))
    (hended : o.pc .caller = .gone → o.isInit = false) (hright : o.pc .caller ≠ .gone → Right (w' = some i) o) :
    Inv (u.setObject i o, w') := by
  constructor
  · exact hthere
  · intro j
    by_cases hji : j = i
    · subst hji
      dsimp only
      rw [setObject_self]
      exact hended
    · dsimp only
      rw [setObject_of_ne hji, (hu j).pc, (hu j).isInit]
      exact h.ended j
  · intro j
    by_cases hji : j = i
    · subst hji
      dsimp only
      rw [setObject_self]
      exact hright
    · dsimp only
      rw [setObject_of_ne hji, (hu j).pc]
      intro halive
      exact ((h.right j halive).of_same (hu j).isMaster_ (hu j).pc).of_iff (hmade j hji halive)

theorem Inv.setPc (h : Inv (s, w)) (thread : Thread) (pc : Pc) (hu : ∀ j, SameFlags (u.objects j) (s.objects j))
    (hthere : s.server.has childPath → u.server.has childPath) (hold : ∀ isMaster, (s.objects i).pc thread ≠ .told isMaster)
    (hnew : ∀ isMaster, pc ≠ .told isMaster) (hgone : pc ≠ .gone) (halive : (s.objects i).pc .caller ≠ .gone)
    (hsame : SameFlags o ((s.objects i).setPc thread pc)) : Inv (u.setObject i o, w) := by
  apply h.moved hu (fun i hi => hthere (h.there i hi)) (fun _ _ _ => Iff.rfl)
  · intro hend
    rw [hsame.pc, setPc_pc] at hend
    split at hend
    · exact absurd hend hgone
    · exact absurd hend halive
  · intro _
    exact ((h.right i halive).setPc hold hnew).of_same hsame.isMaster_ hsame.pc

theorem Inv.unmoved (h : Inv (s, w)) (hsame : SameFlags o (s.objects i)) : Inv (s.setObject i o, w) := by
  apply h.moved (fun _ => ⟨rfl, rfl, rfl⟩) h.there (fun _ _ _ => Iff.rfl)
  · rw [hsame.pc, hsame.isInit]
    exact h.ended i
  · rw [hsame.pc]
    exact fun halive => (h.right i halive).of_same hsame.isMaster_ hsame.pc

theorem Inv.gone (h : Inv (s, w)) (hu : ∀ j, SameFlags (u.objects j) (s.objects j)) (hthere : ∀ i ∈ w', u.server.has childPath)
    (hmade : ∀ j, j ≠ i → (s.objects j).pc .caller ≠ .gone → (w = some j ↔ w' = some j)) (o : MasterElection) :
    Inv (u.setObject i o.gone, w') := by
  have hgone : o.gone.pc .caller = .gone := by simp [MasterElection.gone, setPc_pc]
  exact h.moved hu hthere hmade (fun _ => rfl) fun halive => absurd hgone halive

theorem cString_childPath : cString childPath = childPath := cString_eq_self.mpr (by decide +kernel)

theorem step_inv {a : Act ι} (hi : Inv x) (hg : Undisturbed x a) (h : electing x a = some y) : Inv y := by
  obtain ⟨s, w⟩ := x
  obtain ⟨t, w'⟩ := y
  obtain ⟨hs, hw⟩ := Lts.withHistory_some h
  dsimp only at hs hw
  subst hw
  have hself : ∀ j, SameFlags (s.objects j) (s.objects j) := fun j => ⟨rfl, rfl, rfl⟩
  cases a with
  | init i f =>
    simp only [step] at hs
    split at hs
    · cases hs
    · rename_i hfresh
      have halive : (s.objects i).pc .caller ≠ .gone := fun hgone => hfresh (.inr hgone)
      have hdone : ∀ {ec ret server}, createOn f s.server parentPath false false = (ec, ret, server) →
          Inv ((s.setServer server).setObject i { (s.setServer server).objects i with isInit := true }, w) := by
        intro ec ret server hc
        have hsame : SameFlags ((s.setServer server).objects i) (s.objects i) := setServer_same i
        apply hi.moved setServer_same (fun j hj => createOn_grows hc (hi.there j hj)) (fun _ _ _ => Iff.rfl)
        · exact fun hgone => absurd hgone (by rwa [hsame.pc])
        · exact fun _ => (hi.right i halive).of_same hsame.isMaster_ hsame.pc
      split at hs <;> cases hs <;> rename_i hc
      · exact hdone hc
      · exact hdone hc
      · exact hi.beside setServer_same (fun j hj => createOn_grows hc (hi.there j hj)) (fun _ _ => Iff.rfl)
  | start i registered =>
    simp only [step] at hs
    split at hs
    · rename_i hidle
      split at hs <;> cases hs
      · exact hi.setPc .caller .creating hself id (by simp [hidle.2]) nofun nofun (by simp [hidle.2]) ⟨rfl, rfl, rfl⟩
      · exact hi
    · cases hs
  | create i thread f =>
    obtain ⟨hfree, hsettled⟩ := hg
    simp only [step] at hs
    split at hs
    · rename_i hpc
      have halive := hpc.2
      cases hc : createOn f s.server childPath true false with
      | mk ec r =>
        obtain ⟨ret, server⟩ := r
        have hsame : SameFlags ((s.setServer server).objects i) (s.objects i) := setServer_same i
        have hthere : s.server.has childPath → (s.setServer server).server.has childPath := fun hthere => createOn_grows hc hthere
        have hsettled' : ((s.setServer server).objects i).Settled := by
          unfold MasterElection.Settled
          rw [hsame.pc]
          exact hsettled
        have halive' : ∀ b, (((s.setServer server).objects i).setPc thread (.told b)).pc .caller ≠ .gone := by
          intro b
          rw [setPc_pc, hsame.pc]
          split
          · exact nofun
          · exact halive
        rw [hc] at hs
        -- told that the node is made, the object is the one that has made it, since nobody had one
        by_cases hmade : ec = .kZKSucceed
        · subst hmade
          cases hs
          obtain ⟨created, -, hmakes⟩ := createOn_succeed hc
          have hnew := hmakes.new
          have hpath := hmakes.created_eq
          rw [hpath, cString_childPath] at hnew
          have hnobody : w = none := by
            by_cases hw : w = none
            · exact hw
            · obtain ⟨j, hj⟩ := Option.ne_none_iff_exists'.mp hw
              exact absurd (hi.there j hj) (by simp [hnew])
          simp only [recordMaster, hc, if_true]
          apply hi.moved setServer_same
          · intro j _
            refine hmakes.has.mpr (.inl ?_)
            rw [hpath, cString_childPath]
          · intro j hji _
            simp [hnobody, Ne.symm hji]
          · exact fun hgone => absurd hgone (halive' true)
          · exact fun _ => right_told hsettled' (by simp)
        · simp only [recordMaster, hc, hmade, if_false]
          split at hs
          · rename_i heq
            exact absurd heq hmade
          · cases hs
            apply hi.moved setServer_same (fun j hj => hthere (hi.there j hj)) (fun _ _ _ => Iff.rfl)
            · exact fun hgone => absurd hgone (halive' false)
            · exact fun _ => right_told hsettled' (by simp [hfree])
          · cases hs
            refine hi.setPc thread .idle setServer_same hthere (by simp [hpc.1]) nofun nofun halive ⟨hsame.isInit, hsame.isMaster_, ?_⟩
            simp only [MasterElection.setPc, hsame.pc]
    · cases hs
  | setMaster i thread =>
    simp only [step] at hs
    split at hs
    · rename_i isMaster hpc
      split at hs <;> cases hs
      rename_i halive
      apply hi.moved hself hi.there (fun _ _ _ => Iff.rfl)
      · intro hgone
        rw [setPc_pc] at hgone
        split at hgone
        · cases hgone
        · exact absurd hgone halive
      · exact fun _ => (hi.right i halive).set hpc
    · cases hs
  | watch i e =>
    simp only [step] at hs
    obtain ⟨watch, -, rfl⟩ := Option.map_eq_some_iff.mp hs
    exact hi.unmoved ⟨rfl, rfl, rfl⟩
  | callback i n =>
    simp only [step] at hs
    split at hs
    · rename_i hidle
      obtain ⟨⟨childNodes, watch⟩, -, rfl⟩ := Option.map_eq_some_iff.mp hs
      unfold regChildWatcher_cb
      split
      · exact hi.unmoved ⟨rfl, rfl, rfl⟩
      · exact hi.setPc .notifier .creating hself id (by simp [hidle.1]) nofun nofun hidle.2 ⟨rfl, rfl, rfl⟩
    · cases hs
  | destroy i =>
    simp only [step] at hs
    split at hs <;> cases hs
    rename_i hidle
    exact hi.setPc .caller .listing hself id (by simp [hidle.2]) nofun nofun (by simp [hidle.2]) ⟨rfl, rfl, rfl⟩
  | list i f =>
    simp only [step] at hs
    split at hs
    · rename_i hpc
      split at hs <;> cases hs
      · exact hi.setPc .caller .deleting hself id (by simp [hpc]) nofun nofun (by simp [hpc]) ⟨rfl, rfl, rfl⟩
      · exact hi.gone hself hi.there (fun _ _ _ => Iff.rfl) _
    · cases hs
  | delete i f =>
    simp only [step] at hs
    split at hs <;> cases hs
    -- nobody else has the node that the destructor deletes
    have hg : ∀ j ∈ w, j = i := hg
    apply hi.gone setServer_same
    · intro j hj
      simp only [recordMaster] at hj
      split at hj
      · assumption
      · cases hj
    · intro j hji _
      simp only [recordMaster]
      split
      · rfl
      · refine iff_of_false (fun hj => hji (hg j hj)) nofun
  | drop path =>
    simp only [step] at hs
    split at hs <;> cases hs
    rename_i hdone
    -- whoever had the node that goes from outside is gone himself
    have hg : path = childPath → ∀ i ∈ w, (s.objects i).pc .caller = .gone := hg
    apply hi.beside setServer_same
    · intro j hj
      simp only [recordMaster] at hj
      split at hj
      · cases hj
      · rename_i hne
        exact (delete_has hdone).mpr ⟨fun heq => hne heq.symm, hi.there j hj⟩
    · intro j halive
      simp only [recordMaster]
      split
      · rename_i heq
        exact iff_of_false (fun hj => halive (hg heq j hj)) nofun
      · rfl

/-- **The master knows, and only the master.** Where an object asks for the node on one thread at a time and
not while it has it, and the node goes with the object that has made it, `isMaster` holds of that
object and of no other, except while a thread is about to set the flag. -/
theorem flagsRight_throughout (server : Server) {as : List (Act ι)}
    (h : Lts.Along electing Undisturbed (St.initial ι server, none) as) :
    Lts.Throughout electing FlagsRight (St.initial ι server, none) as :=
  Lts.throughout_of_along (fun _ _ _ hi hg => step_inv hi hg) (fun _ => Inv.flagsRight) (inv_initial server) h

instance (o : MasterElection) : Decidable o.Settled :=
  inferInstanceAs (Decidable (∀ thread isMaster, o.pc thread ≠ .told isMaster))

instance [Fintype ι] (x : St ι × Option ι) : Decidable (FlagsRight x) :=
  inferInstanceAs (Decidable (∀ i, (x.1.objects i).isInit → (x.1.objects i).Settled →
    ((x.1.objects i).isMaster = true ↔ x.2 = some i)))

instance (x : St ι × Option ι) : (a : Act ι) → Decidable (Undisturbed x a)
  | .create i _ _ => inferInstanceAs (Decidable (x.2 ≠ some i ∧ (x.1.objects i).Settled))
  | .delete i _ => inferInstanceAs (Decidable (∀ j ∈ x.2, j = i))
  | .drop path => inferInstanceAs (Decidable (path = childPath → ∀ i ∈ x.2, (x.1.objects i).pc .caller = .gone))
  | .init .. | .start .. | .setMaster .. | .watch .. | .callback .. | .destroy _ | .list .. => isTrue trivial

end

def elected : List (Act Bool) :=
  [.init true .answered, .init false .answered, .start true true, .create true .caller .answered,
    .setMaster true .caller, .start false true, .create false .caller .answered, .setMaster false .caller]

def succeeded : List (Act Bool) :=
  [.destroy true, .list true .answered, .delete true .answered, .watch false (.read true), .callback false 0,
    .create false .notifier .answered, .setMaster false .notifier]

theorem flagsRight_succeeded : Lts.Throughout electing FlagsRight (St.initial Bool bareServer, none) (elected ++ succeeded) :=
  flagsRight_throughout bareServer (by decide +kernel)

/-- The destructor of one that is not the master deletes the master's node. -/
theorem not_flagsRight_deposed : ¬ Lts.Throughout electing FlagsRight (St.initial Bool bareServer, none)
    (elected ++ [.destroy false, .list false .answered, .delete false .answered]) := by
  apply Lts.not_throughout
  decide +kernel

/-- The list that reports the vacancy comes when the vacancy is filled, and the new master steps down. -/
theorem not_flagsRight_steppedDown : ¬ Lts.Throughout electing FlagsRight (St.initial Bool bareServer, none)
    [.init true .answered, .init false .answered, .start true true, .create true .caller .answered,
      .setMaster true .caller, .start false true, .destroy true, .list true .answered, .delete true .answered,
      .watch false (.read true), .create false .caller .answered, .setMaster false .caller, .callback false 0,
      .create false .notifier .answered, .setMaster false .notifier] := by
  apply Lts.not_throughout
  decide +kernel

end ZkCppClient.Recipes.Election
