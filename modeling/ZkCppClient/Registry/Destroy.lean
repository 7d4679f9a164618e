import Mathlib.Logic.Function.Basic
import ZkCppClient.Lib.Mutex
import ZkCppClient.Lib.Run

/-!
# `destroyClient` and the session events

Threads that call `destroyClient` on one client, the library thread of its
handle, which calls `sessionWatcher`, and the user's threads that hold the
client. Whoever drops the last reference runs the destructor, and the destructor
closes the handle: on another thread `zookeeper_close` waits until the library
thread has finished the callback it is in.
-/

namespace ZkCppClient.Destroy

inductive Thread
  | destroyer (i : Nat)
  | library
  | user
  deriving DecidableEq, Repr

inductive DestroyPc
  | idle
  | called  -- to lock `clientMutex_`
  | locked
  | destructing  -- in the destructor, below `erase`
  | closing  -- in `zookeeper_close`
  | unlocking
  deriving DecidableEq, Repr

inductive LibPc
  | idle
  | called  -- in `__getZkClient`, to lock `clientMutex_`
  | locked
  | looked (found : Bool)  -- a reference copied where `found`
  | running
  | destructing
  deriving DecidableEq, Repr

inductive UserPc
  | idle
  | destructing
  | closing
  deriving DecidableEq, Repr

/-- `refs` counts the references other than the registry's and the library thread's. -/
structure St where
  clientMutex : Option Thread
  registered : Bool
  refs : Nat
  closed : Bool
  library : LibPc
  destroyer : Nat → DestroyPc
  user : UserPc

def St.initial (refs : Nat) : St where
  clientMutex := none
  registered := true
  refs := refs
  closed := false
  library := .idle
  destroyer _ := .idle
  user := .idle

inductive Act
  | destroy (i : Nat)
  | deliver  -- the library calls `sessionWatcher`
  | library
  | getZkClient
  | copy
  | release
  | user
  deriving DecidableEq, Repr

def LibPc.refers : LibPc → Bool
  | .looked found => found
  | .running => true
  | _ => false

def St.unreferenced (s : St) : Bool := !s.registered && s.refs == 0 && !s.library.refers

def St.goto (s : St) (i : Nat) (pc : DestroyPc) : St := { s with destroyer := Function.update s.destroyer i pc }

/-- The last part of `zookeeper_close` on a thread that is not the library's. -/
def St.zookeeperClose (s : St) : Option St := if s.library = .idle then some { s with closed := true } else none

def destroyClient (s : St) (i : Nat) : Option St :=
  match s.destroyer i with
  | .idle => some (s.goto i .called)
  | .called => if s.clientMutex = none then some ({ s with clientMutex := some (.destroyer i) }.goto i .locked) else none
  | .locked =>
    if s.registered then
      let s := { s with registered := false }
      some (s.goto i (if s.unreferenced then .destructing else .unlocking))
    else some (s.goto i .unlocking)
  | .destructing => some (s.goto i .closing)
  | .closing => s.zookeeperClose.map (·.goto i .unlocking)
  | .unlocking => some ({ s with clientMutex := none }.goto i .idle)

/-- The lookup of `sessionWatcher` and the life of the reference it takes. -/
def sessionWatcher (s : St) : Option St :=
  match s.library with
  | .idle => none
  | .called => if s.clientMutex = none then some { s with clientMutex := some .library, library := .locked } else none
  | .locked => some { s with library := .looked s.registered }
  | .looked found => some { s with clientMutex := none, library := if found then .running else .idle }
  | .running =>
    let s := { s with library := .idle }
    some { s with library := if s.unreferenced then .destructing else .idle }
  | .destructing => some { s with library := .idle, closed := true }

def step (s : St) : Act → Option St
  | .destroy i => destroyClient s i
  | .deliver => if s.library = .idle ∧ s.closed = false then some { s with library := .called } else none
  | .library => sessionWatcher s
  | .getZkClient => if s.clientMutex = none ∧ s.registered = true then some { s with refs := s.refs + 1 } else none
  | .copy => if 0 < s.refs then some { s with refs := s.refs + 1 } else none
  | .release =>
    if 0 < s.refs then
      let s := { s with refs := s.refs - 1 }
      some (if s.unreferenced then { s with user := .destructing } else s)
    else none
  | .user =>
    match s.user with
    | .idle => none
    | .destructing => some { s with user := .closing }
    | .closing => s.zookeeperClose.map fun s => { s with user := .idle }

def St.waitsForLibrary (s : St) : Thread → Bool
  | .destroyer i => s.destroyer i = .closing
  | .library => false
  | .user => s.user = .closing

/-- The library thread does not wait for `clientMutex_` while its holder waits for the library thread. -/
def NoDeadlock (s : St) : Prop := ∀ th ∈ s.clientMutex, s.waitsForLibrary th = true → s.library ≠ .called

def DestroyPc.locks : DestroyPc → Bool
  | .locked | .destructing | .closing | .unlocking => true
  | .idle | .called => false

def LibPc.locks : LibPc → Bool
  | .locked | .looked _ => true
  | .idle | .called | .running | .destructing => false

def St.locks (s : St) : Thread → Bool
  | .destroyer i => (s.destroyer i).locks
  | .library => s.library.locks
  | .user => false

def DestroyPc.destroying : DestroyPc → Bool
  | .destructing | .closing => true
  | _ => false

def St.destroying (s : St) : Thread → Bool
  | .destroyer i => (s.destroyer i).destroying
  | _ => false

/-- When `destroyClient` drops the last reference no session event waits for
`clientMutex_`, and until the destructor is done none is delivered. -/
def DropsQuietly (s : St) : Act → Prop
  | .destroy i =>
    s.destroyer i = .locked → s.registered = true → St.unreferenced { s with registered := false } = true →
      s.library ≠ .called
  | .deliver => ∀ th ∈ s.clientMutex, s.destroying th = false
  | _ => True

instance (s : St) : Decidable (NoDeadlock s) := inferInstanceAs (Decidable (∀ _ ∈ _, _ → _))

instance (s : St) : ∀ a, Decidable (DropsQuietly s a)
  | .destroy _ => inferInstanceAs (Decidable (_ → _ → _ → _))
  | .deliver => inferInstanceAs (Decidable (∀ _ ∈ _, _))
  | .library | .getZkClient | .copy | .release | .user => isTrue trivial

theorem locks_of_destroying {pc : DestroyPc} (h : pc.destroying = true) : pc.locks = true := by
  cases pc with
  | destructing | closing => rfl
  | _ => cases h

/-! ## What a step can do -/

inductive Step (s : St) : Act → St → Prop
  | call {i} : s.destroyer i = .idle → Step s (.destroy i) (s.goto i .called)
  | lock {i} : s.destroyer i = .called → s.clientMutex = none →
      Step s (.destroy i) ({ s with clientMutex := some (.destroyer i) }.goto i .locked)
  | eraseLast {i} : s.destroyer i = .locked → s.registered = true →
      St.unreferenced { s with registered := false } = true →
      Step s (.destroy i) ({ s with registered := false }.goto i .destructing)
  | erase {i} : s.destroyer i = .locked → s.registered = true →
      St.unreferenced { s with registered := false } = false →
      Step s (.destroy i) ({ s with registered := false }.goto i .unlocking)
  | missing {i} : s.destroyer i = .locked → s.registered = false → Step s (.destroy i) (s.goto i .unlocking)
  | close {i} : s.destroyer i = .destructing → Step s (.destroy i) (s.goto i .closing)
  | closed {i} : s.destroyer i = .closing → s.library = .idle →
      Step s (.destroy i) ({ s with closed := true }.goto i .unlocking)
  | unlock {i} : s.destroyer i = .unlocking → Step s (.destroy i) ({ s with clientMutex := none }.goto i .idle)
  | deliver : s.library = .idle → s.closed = false → Step s .deliver { s with library := .called }
  | libraryLock : s.library = .called → s.clientMutex = none →
      Step s .library { s with clientMutex := some .library, library := .locked }
  | look : s.library = .locked → Step s .library { s with library := .looked s.registered }
  | libraryUnlock {found} : s.library = .looked found →
      Step s .library { s with clientMutex := none, library := if found then .running else .idle }
  | libraryDrop {pc} : s.library = .running → pc = .idle ∨ pc = .destructing → Step s .library { s with library := pc }
  | libraryClose : s.library = .destructing → Step s .library { s with library := .idle, closed := true }
  | found : s.clientMutex = none → s.registered = true → Step s .getZkClient { s with refs := s.refs + 1 }
  | copied : 0 < s.refs → Step s .copy { s with refs := s.refs + 1 }
  | release {pc} : 0 < s.refs → pc = s.user ∨ pc = .destructing →
      Step s .release { s with refs := s.refs - 1, user := pc }
  | userClose : s.user = .destructing → Step s .user { s with user := .closing }
  | userClosed : s.user = .closing → s.library = .idle → Step s .user { s with closed := true, user := .idle }

section
variable {s t : St} {i : Nat}

theorem zookeeperClose_some (h : s.zookeeperClose = some t) : s.library = .idle ∧ t = { s with closed := true } := by
  unfold St.zookeeperClose at h
  split at h
  · rename_i hidle; cases h; exact ⟨hidle, rfl⟩
  · cases h

theorem destroyClient_inv (h : destroyClient s i = some t) : Step s (.destroy i) t := by
  unfold destroyClient at h
  split at h
  · rename_i hpc; cases h; exact .call hpc
  · rename_i hpc
    split at h
    · rename_i hm; cases h; exact .lock hpc hm
    · cases h
  · rename_i hpc
    split at h
    · rename_i hreg
      cases h
      split
      · rename_i hlast; exact .eraseLast hpc hreg hlast
      · rename_i hlast; exact .erase hpc hreg (by simpa using hlast)
    · rename_i hreg; cases h; exact .missing hpc (by simpa using hreg)
  · rename_i hpc; cases h; exact .close hpc
  · rename_i hpc
    obtain ⟨u, hu, rfl⟩ := Option.map_eq_some_iff.mp h
    obtain ⟨hidle, rfl⟩ := zookeeperClose_some hu
    exact .closed hpc hidle
  · rename_i hpc; cases h; exact .unlock hpc

theorem sessionWatcher_inv (h : sessionWatcher s = some t) : Step s .library t := by
  unfold sessionWatcher at h
  split at h
  · cases h
  · rename_i hpc
    split at h
    · rename_i hm; cases h; exact .libraryLock hpc hm
    · cases h
  · rename_i hpc; cases h; exact .look hpc
  · rename_i hpc; cases h; exact .libraryUnlock hpc
  · rename_i hpc
    cases h
    refine .libraryDrop hpc ?_
    split
    · exact .inr rfl
    · exact .inl rfl
  · rename_i hpc; cases h; exact .libraryClose hpc

theorem step_inv {a : Act} (h : step s a = some t) : Step s a t := by
  cases a with
  | destroy i => exact destroyClient_inv h
  | deliver =>
    simp only [step] at h
    split at h
    · rename_i hg; cases h; exact .deliver hg.1 hg.2
    · cases h
  | library => exact sessionWatcher_inv h
  | getZkClient =>
    simp only [step] at h
    split at h
    · rename_i hg; cases h; exact .found hg.1 hg.2
    · cases h
  | copy =>
    simp only [step] at h
    split at h
    · rename_i hg; cases h; exact .copied hg
    · cases h
  | release =>
    simp only [step] at h
    split at h
    · rename_i hr
      cases h
      split
      · exact .release hr (.inr rfl)
      · exact .release hr (.inl rfl)
    · cases h
  | user =>
    simp only [step] at h
    split at h
    · cases h
    · rename_i hpc; cases h; exact .userClose hpc
    · rename_i hpc
      obtain ⟨u, hu, rfl⟩ := Option.map_eq_some_iff.mp h
      obtain ⟨hidle, rfl⟩ := zookeeperClose_some hu
      exact .userClosed hpc hidle

/-! ## The mutex -/

def MutexInv (s : St) : Prop := Mutex.Owned s.clientMutex s.locks

theorem mutexInv_initial (refs : Nat) : MutexInv (St.initial refs) := by
  intro th
  cases th <;> exact ⟨nofun, nofun⟩

theorem goto_destroyer (s : St) (i : Nat) (pc : DestroyPc) : (s.goto i pc).destroyer i = pc := Function.update_self ..

theorem locks_goto (s : St) (i : Nat) (pc : DestroyPc) {th : Thread} (h : th ≠ .destroyer i) :
    (s.goto i pc).locks th = s.locks th := by
  cases th with
  | destroyer j =>
    have hj : j ≠ i := fun heq => h (congrArg _ heq)
    show (Function.update s.destroyer i pc j).locks = _
    rw [Function.update_of_ne hj]
    rfl
  | library | user => rfl

theorem owned_goto {u : St} {pc : DestroyPc} (hi : MutexInv s) (hm : u.clientMutex = s.clientMutex)
    (hu : u.locks = s.locks) (hpc : pc.locks = (s.destroyer i).locks) : MutexInv (u.goto i pc) := by
  show Mutex.Owned u.clientMutex _
  rw [hm]
  apply hi.congr
  intro th
  by_cases hth : th = .destroyer i
  · subst hth
    show ((u.goto i pc).destroyer i).locks = _
    rw [goto_destroyer, hpc]
    rfl
  · rw [locks_goto u i pc hth, hu]

theorem owned_library {u : St} (hi : MutexInv s) (hm : u.clientMutex = s.clientMutex)
    (hd : u.destroyer = s.destroyer) (hl : u.library.locks = s.library.locks) : MutexInv u := by
  unfold MutexInv
  rw [hm]
  apply hi.congr
  intro th
  cases th with
  | destroyer j => rw [St.locks, hd]; rfl
  | library => exact hl
  | user => rfl

theorem mutexInv_step {a : Act} (hi : MutexInv s) (h : step s a = some t) : MutexInv t := by
  have hother : ∀ {pc : LibPc} {th : Thread}, th ≠ .library → St.locks { s with library := pc } th = s.locks th := by
    intro pc th hth
    cases th with
    | library => exact absurd rfl hth
    | destroyer _ | user => rfl
  -- who takes the mutex finds it free, and who gives it back has it; no other step moves it
  cases step_inv h with
  | call hpc | eraseLast hpc _ _ | erase hpc _ _ | missing hpc _ | close hpc | closed hpc _ =>
    exact owned_goto hi rfl rfl (by rw [hpc]; rfl)
  | @lock i hpc hm =>
    unfold MutexInv at hi
    rw [hm] at hi
    refine hi.acquire ?_ fun th hth => locks_goto _ i .locked hth
    show ((St.goto _ i .locked).destroyer i).locks = true
    rw [goto_destroyer]
    rfl
  | @unlock i hpc =>
    refine hi.release (a := .destroyer i) ?_ ?_ fun th hth => locks_goto _ i .idle hth
    · show (s.destroyer i).locks = true
      rw [hpc]
      rfl
    · show ((St.goto _ i .idle).destroyer i).locks = false
      rw [goto_destroyer]
      rfl
  | deliver hpc _ | look hpc | libraryClose hpc => exact owned_library hi rfl rfl (by rw [hpc]; rfl)
  | libraryDrop hpc hpc' => exact owned_library hi rfl rfl (by rw [hpc]; rcases hpc' with rfl | rfl <;> rfl)
  | libraryLock hpc hm =>
    unfold MutexInv at hi
    rw [hm] at hi
    exact hi.acquire rfl fun th hth => hother hth
  | @libraryUnlock found hpc =>
    refine hi.release (a := .library) ?_ ?_ fun th hth => hother hth
    · show s.library.locks = true
      rw [hpc]
      rfl
    · show (if found then LibPc.running else .idle : LibPc).locks = false
      cases found <;> rfl
  | found _ _ | copied _ | release _ _ | userClose _ | userClosed _ _ => exact owned_library hi rfl rfl rfl

/-! ## No deadlock -/

structure QuietInv (s : St) : Prop where
  owned : MutexInv s
  quiet : ∀ i, (s.destroyer i).destroying = true → s.library ≠ .called

theorem quietInv_initial (refs : Nat) : QuietInv (St.initial refs) := ⟨mutexInv_initial refs, nofun⟩

theorem noDeadlock_of_quiet (hi : QuietInv s) : NoDeadlock s := by
  intro th hth hwaits
  cases th with
  | destroyer i =>
    have hpc : s.destroyer i = .closing := by simpa [St.waitsForLibrary] using hwaits
    exact hi.quiet i (by rw [hpc]; rfl)
  | library => cases hwaits
  | user => cases (hi.owned .user).mpr hth

theorem destroying_goto {pc : DestroyPc} {j : Nat} (h : ((s.goto i pc).destroyer j).destroying = true) :
    (s.destroyer j).destroying = true ∨ pc.destroying = true := by
  by_cases hj : j = i
  · subst hj
    rw [goto_destroyer] at h
    exact .inr h
  · have hpc : (s.goto i pc).destroyer j = s.destroyer j := Function.update_of_ne hj ..
    rw [hpc] at h
    exact .inl h

theorem quiet_step {a : Act} (hi : QuietInv s) (hg : DropsQuietly s a) (h : step s a = some t) :
    ∀ i, (t.destroyer i).destroying = true → t.library ≠ .called := by
  cases step_inv h with
  | call _ | lock _ _ | missing _ _ | erase _ _ _ | closed _ _ | unlock _ =>
    exact fun j hj => (destroying_goto hj).elim (hi.quiet j) nofun
  | eraseLast hpc hreg hlast => exact fun j hj => (destroying_goto hj).elim (hi.quiet j) fun _ => hg hpc hreg hlast
  | @close i hpc =>
    have hquiet := hi.quiet i (by rw [hpc]; rfl)
    exact fun j hj => (destroying_goto hj).elim (hi.quiet j) fun _ => hquiet
  | deliver _ _ =>
    intro j hj
    have hinside : s.locks (.destroyer j) = true := locks_of_destroying hj
    have hnot : s.destroying (.destroyer j) = false := hg _ ((hi.owned _).mp hinside)
    exact absurd (hnot.symm.trans hj) nofun
  | libraryLock _ _ | look _ | libraryClose _ => exact fun _ _ => nofun
  | @libraryUnlock found _ => exact fun _ _ => by cases found <;> nofun
  | libraryDrop _ hpc => exact fun _ _ => by rcases hpc with rfl | rfl <;> nofun
  | found _ _ | copied _ | release _ _ | userClose _ | userClosed _ _ => exact hi.quiet

/-- **No deadlock.** In every run in which `destroyClient` drops no last
reference under a session event, the library thread and the thread that
destroys the client never wait for each other. -/
theorem noDeadlock_of_dropsQuietly {refs : Nat} {acts : List Act}
    (hg : Lts.Along step DropsQuietly (St.initial refs) acts) : Lts.Throughout step NoDeadlock (St.initial refs) acts :=
  Lts.throughout_of_along (I := QuietInv)
    (fun _ _ _ hi hg h => ⟨mutexInv_step hi.owned h, quiet_step hi hg h⟩) (fun _ => noDeadlock_of_quiet)
    (quietInv_initial refs) hg

end

theorem noDeadlock_held : Lts.Throughout step NoDeadlock (St.initial 1)
    [.destroy 0, .deliver, .destroy 0, .destroy 0, .destroy 0, .library, .library, .library, .release, .user, .user] :=
  noDeadlock_of_dropsQuietly (by decide)

/-- A session event comes while `destroyClient` has the mutex: the library thread
waits for it, and `zookeeper_close` for the library thread. -/
theorem not_noDeadlock_event :
    ¬ Lts.Throughout step NoDeadlock (St.initial 0) [.destroy 0, .destroy 0, .deliver, .destroy 0, .destroy 0] := by
  apply Lts.not_throughout
  decide

/-! ## No way out -/

/-- The library thread waits for the mutex, and destroyer `i` goes to wait for it. -/
structure Doomed (i : Nat) (s : St) : Prop where
  owned : MutexInv s
  destroying : (s.destroyer i).destroying = true
  called : s.library = .called

section
variable {s t : St} {i : Nat}

theorem Doomed.locked (hi : Doomed i s) : s.clientMutex = some (.destroyer i) :=
  (hi.owned _).mp (locks_of_destroying hi.destroying)

theorem doomed_step {a : Act} (hi : Doomed i s) (h : step s a = some t) : Doomed i t := by
  have howned := mutexInv_step hi.owned h
  have hheld := hi.locked
  have hcalled := hi.called
  -- a destroyer that holds the mutex is the one that is doomed
  have hself : ∀ {j}, (s.destroyer j).locks = true → j = i := by
    intro j hj
    have hin : s.locks (.destroyer j) = true := hj
    have hin' : s.locks (.destroyer i) = true := locks_of_destroying hi.destroying
    exact Thread.destroyer.inj (hi.owned.unique hin hin')
  have hdes := hi.destroying
  cases step_inv h with
  | @call j hpc =>
    have hne : i ≠ j := by
      rintro rfl
      rw [hpc] at hdes
      cases hdes
    refine ⟨howned, ?_, hcalled⟩
    show (Function.update s.destroyer j _ i).destroying = true
    rwa [Function.update_of_ne hne]
  | lock _ hm | libraryLock _ hm =>
    rw [hheld] at hm
    cases hm
  | eraseLast hpc _ _ | erase hpc _ _ | missing hpc _ | unlock hpc =>
    cases hself (by rw [hpc]; rfl)
    rw [hpc] at hdes
    cases hdes
  | close hpc =>
    cases hself (by rw [hpc]; rfl)
    exact ⟨howned, by rw [goto_destroyer]; rfl, hcalled⟩
  | closed _ hl | deliver hl _ | look hl | libraryUnlock hl | libraryDrop hl _ | libraryClose hl | userClosed _ hl =>
    rw [hcalled] at hl
    cases hl
  | found _ _ | copied _ | release _ _ | userClose _ => exact ⟨howned, hdes, hcalled⟩

theorem doomed_of_not_dropsQuietly {a : Act} (hi : MutexInv s) (hg : ¬ DropsQuietly s a) (h : step s a = some t) :
    ∃ i, Doomed i t := by
  have howned := mutexInv_step hi h
  cases a with
  | destroy i =>
    simp only [DropsQuietly, Classical.not_imp, not_not] at hg
    obtain ⟨hpc, hreg, hlast, hcalled⟩ := hg
    have ht : t = { s with registered := false }.goto i .destructing := by
      simpa [step, destroyClient, hpc, hreg, hlast, eq_comm] using h
    subst ht
    exact ⟨i, howned, by rw [goto_destroyer]; rfl, hcalled⟩
  | deliver =>
    simp only [DropsQuietly, not_forall] at hg
    obtain ⟨th, -, hdes⟩ := hg
    cases step_inv h with
    | deliver _ _ =>
      cases th with
      | destroyer i => exact ⟨i, howned, by simpa [St.destroying] using hdes, rfl⟩
      | library | user => exact absurd rfl hdes
  | _ => exact absurd trivial hg

theorem deadlock_of_doomed (hi : Doomed i s) :
    ¬ NoDeadlock s ∨ ∃ t, step s (.destroy i) = some t ∧ ¬ NoDeadlock t := by
  -- what breaks the condition cannot be mended: the destroyer is in the deadlock, or its next step leads
  -- there
  have hheld := hi.locked
  have hdes := hi.destroying
  have hdead : ∀ {u : St}, u.clientMutex = s.clientMutex → u.destroyer i = .closing → u.library = s.library →
      ¬ NoDeadlock u := by
    intro u hm hpc hl hn
    refine hn (.destroyer i) (by rw [hm]; exact hheld) ?_ (hl.trans hi.called)
    rw [St.waitsForLibrary, hpc]
    rfl
  cases hpc : s.destroyer i with
  | closing => exact .inl (hdead rfl hpc rfl)
  | destructing =>
    refine .inr ⟨s.goto i .closing, ?_, hdead rfl (goto_destroyer s i _) rfl⟩
    simp only [step, destroyClient, hpc]
  | _ =>
    rw [hpc] at hdes
    cases hdes

theorem doomed_run {refs : Nat} {acts : List Act} (hrun : Lts.run step (St.initial refs) acts = some t)
    (hn : ¬ Lts.Along step DropsQuietly (St.initial refs) acts) : ∃ i, Doomed i t :=
  Lts.trapped_of_not_along (I := MutexInv) (J := fun s => ∃ i, Doomed i s) (fun _ _ _ hi h => mutexInv_step hi h)
    (fun _ _ _ ⟨i, hi⟩ h => ⟨i, doomed_step hi h⟩) (fun _ _ _ hi hg h => doomed_of_not_dropsQuietly hi hg h)
    (mutexInv_initial refs) hrun hn

end

end ZkCppClient.Destroy
