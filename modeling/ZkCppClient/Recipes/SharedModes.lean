import ZkCppClient.Recipes.SharedExclusion

/-!
# The mode of the shared lock

`unlock` asserts that the mode of the object has a request to release: a reader
at the head of the queue, or a writer's path that is not empty.
-/

namespace ZkCppClient.Recipes.SharedLock

open SlashPath Ops

def Asserted {ι : Type*} (s : St ι) : Prop := ∀ i, (s.objects i).unlock.isSome

/-- What the mode says is there to be released. -/
structure Releasable (o : DistriSharedLock) : Prop where
  path : ∀ x ∈ o.pc.ticket, x.2 ≠ ""
  reader : o.curLockMode = .rd → o.readerChildPaths ≠ []
  writer : o.curLockMode = .wr → o.writerChildPath ≠ ""

section
variable {o o' : DistriSharedLock} {isRead : Bool} {retPath path : String}

theorem Releasable.unlock_isSome (h : Releasable o) : o.unlock.isSome := by
  cases hmode : o.curLockMode with
  | none => simp [DistriSharedLock.unlock, hmode]
  | rd =>
    obtain ⟨childPath, paths, hpaths⟩ := List.exists_cons_of_ne_nil (h.reader hmode)
    simp [DistriSharedLock.unlock, hmode, hpaths]
  | wr => simp [DistriSharedLock.unlock, hmode, h.writer hmode]

theorem Releasable.unlock (h : Releasable o) (hu : o.unlock = some o') : Releasable o' := by
  unfold DistriSharedLock.unlock at hu
  split at hu
  · cases hu
    exact h
  · split at hu
    · cases hu
    · rename_i childPath paths hpaths
      cases hu
      refine ⟨by simp [Pc.ticket], ?_, ?_⟩
      · by_cases hnil : paths = []
        · simp [hnil]
        · exact fun _ => hnil
      · by_cases hnil : paths = [] <;> simp [hnil]
  · split at hu <;> cases hu
    exact ⟨by simp [Pc.ticket], by simp, by simp⟩

theorem releasable_granted (hpath : retPath ≠ "") : Releasable (o.granted isRead retPath) := by
  cases isRead with
  | true => constructor <;> simp [DistriSharedLock.granted, Pc.ticket]
  | false => constructor <;> simp [DistriSharedLock.granted, Pc.ticket, hpath]

theorem Releasable.setPc (h : Releasable o) (hpath : ∀ x ∈ o'.pc.ticket, x.2 ≠ "") (hmode : o'.curLockMode = o.curLockMode)
    (hreaders : o'.readerChildPaths = o.readerChildPaths) (hwriter : o'.writerChildPath = o.writerChildPath) :
    Releasable o' := by
  refine ⟨hpath, ?_, ?_⟩
  · rw [hmode, hreaders]
    exact h.reader
  · rw [hmode, hwriter]
    exact h.writer

theorem Releasable.callback (h : Releasable o) : Releasable (regWatcher_cb o isRead path) := by
  have hticket : (regWatcher_cb o isRead path).pc.ticket = o.pc.ticket := regWatcher_cb_same.2.1
  apply h.setPc
  · rw [hticket]
    exact h.path
  all_goals
    unfold regWatcher_cb
    split
    · split
      · split <;> rfl
      · rfl
    · rfl

theorem releasable_initial : Releasable {} := ⟨nofun, nofun, nofun⟩

theorem dir_starts (n : Name) (k : Key) : ∃ l, (dir (n :: k)).toList = '/' :: l := by
  induction k generalizing n with
  | nil => exact ⟨n.val.toList, by rw [dir_toList]; rfl⟩
  | cons m k ih =>
    obtain ⟨l, hl⟩ := ih m
    exact ⟨l ++ '/' :: n.val.toList, by rw [dir_toList, hl]; rfl⟩

theorem throughBuffer_ne_empty {s s' : Server} {isTemp isSequence : Bool} {created : String}
    (h : s.Makes path isTemp isSequence created s') : throughBuffer kMaxPathLength created ≠ "" := by
  obtain ⟨n, k, -, rfl, -⟩ := h
  obtain ⟨l, hl⟩ := dir_starts n k
  have hslash : '/' ≠ (0 : Char) := by decide
  intro hempty
  have hlist := congrArg String.toList hempty
  simp [throughBuffer, hl, CString.bounded, CString.str, kMaxPathLength, hslash] at hlist

end

section
variable {ι : Type*} {s : St ι}

theorem asserted_of_releasable (h : ∀ i, Releasable (s.objects i)) : Asserted s := fun i => (h i).unlock_isSome

end

section
variable {ι : Type*} [DecidableEq ι] {childNodeName : ι → Text} {s t : St ι} {i : ι} {o : DistriSharedLock}

theorem step_releasable {a : Act ι} (hi : ∀ i, Releasable (s.objects i)) (h : step childNodeName s a = some t) :
    ∀ i, Releasable (t.objects i) := by
  have hserver : ∀ server j, Releasable ((s.setServer server).objects j) :=
    fun server j => (hi j).setPc (hi j).path rfl rfl rfl
  cases a with
  | init i f =>
    simp only [step] at h
    split at h
    · cases h
    · split at h <;> cases h
      · exact forall_setObject (hserver _) ((hi i).setPc (hi i).path rfl rfl rfl)
      · exact forall_setObject (hserver _) ((hi i).setPc (hi i).path rfl rfl rfl)
      · exact hserver _
  | lock i isRead =>
    simp only [step] at h
    split at h <;> cases h
    exact forall_setObject hi ((hi i).setPc (by simp [Pc.ticket]) rfl rfl rfl)
  | createChild i f =>
    simp only [step] at h
    split at h
    · split at h <;> cases h
      · rename_i hc
        obtain ⟨created, hret, hmade⟩ := createOn_succeed hc
        cases hret
        refine forall_setObject (hserver _) ((hi i).setPc ?_ rfl rfl rfl)
        -- the path that comes back is not empty, which is what the assertion of a writer's `unlock` asks
        rintro x ⟨⟩
        exact throughBuffer_ne_empty hmade
      · exact forall_setObject (hserver _) ((hi i).setPc (by simp [Pc.ticket]) rfl rfl rfl)
    · cases h
  | getChildren i f sorted =>
    simp only [step] at h
    split at h
    · rename_i isRead retPath hpc
      have hpath := (hi i).path (isRead, retPath) (by rw [hpc]; rfl)
      split at h
      · split at h
        · split at h <;> cases h
          · exact forall_setObject hi (releasable_granted hpath)
          · refine forall_setObject hi ((hi i).setPc ?_ ?_ ?_ ?_)
            · cases isRead <;> rintro x ⟨⟩ <;> exact hpath
            all_goals cases isRead <;> rfl
        · cases h
      · cases h
        exact forall_setObject hi ((hi i).setPc (by simp [Pc.ticket]) rfl rfl rfl)
    · cases h
  | regNodeWatcher i ok =>
    simp only [step] at h
    split at h
    · rename_i isRead retPath hpc
      have hpath := (hi i).path (isRead, retPath) (by rw [hpc]; rfl)
      split at h <;> cases h
      · exact forall_setObject hi ((hi i).setPc (by rintro x ⟨⟩; exact hpath) rfl rfl rfl)
      · exact forall_setObject hi ((hi i).setPc (by simp [Pc.ticket]) rfl rfl rfl)
    · cases h
  | wait i =>
    simp only [step] at h
    split at h <;> cases h
    rename_i isRead retPath hpc
    have hpath := (hi i).path (isRead, retPath) (by rw [hpc]; rfl)
    exact forall_setObject hi ((hi i).setPc (by rintro x ⟨⟩; exact hpath) rfl rfl rfl)
  | wake i =>
    simp only [step] at h
    split at h <;> cases h
    rename_i isRead retPath hpc
    have hpath := (hi i).path (isRead, retPath) (by rw [hpc]; rfl)
    exact forall_setObject hi ((hi i).setPc (by rintro x ⟨⟩; exact hpath) rfl rfl rfl)
  | callback i =>
    simp only [step] at h
    split at h <;> cases h
    have hsame : ∀ inbox, Releasable { s.objects i with inbox } := fun inbox => (hi i).setPc (hi i).path rfl rfl rfl
    exact forall_setObject hi (hsame _).callback
  | unlock i =>
    simp only [step] at h
    split at h
    · obtain ⟨o, ho, rfl⟩ := Option.map_eq_some_iff.mp h
      exact forall_setObject hi ((hi i).unlock ho)
    · cases h
  | list i f =>
    simp only [step] at h
    split at h
    · split at h <;> cases h
      · exact forall_setObject hi ((hi i).setPc (by simp [Pc.ticket]) rfl rfl rfl)
      · exact forall_setObject hi ((hi i).setPc (by simp [Pc.ticket]) rfl rfl rfl)
    · cases h
  | delete i f =>
    simp only [step] at h
    split at h <;> cases h
    exact forall_setObject (hserver _) ((hi i).setPc (by simp [Pc.ticket]) rfl rfl rfl)
  | drop path =>
    simp only [step] at h
    split at h <;> cases h
    exact hserver _
  | retry i =>
    cases h
    exact forall_setObject hi ((hi i).setPc (hi i).path rfl rfl rfl)

/-- **No failed assertion.** In every run, whatever requests fail, the mode that an object is in has a
request to release. -/
theorem asserted_throughout (childNodeName : ι → Text) (server : Server) (as : List (Act ι)) :
    Lts.Throughout (step childNodeName) Asserted (St.initial ι server) as :=
  Lts.throughout_of_along (I := fun s => ∀ i, Releasable (s.objects i)) (fun _ _ _ hi _ => step_releasable hi)
    (fun _ => asserted_of_releasable) (fun _ => releasable_initial) (Lts.along_true as _)

end

end ZkCppClient.Recipes.SharedLock
