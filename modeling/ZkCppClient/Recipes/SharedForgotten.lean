import ZkCppClient.Recipes.SharedExclusion

/-!
# Forgotten requests of the shared lock

`rlock` and `wlock` give up where their `getChildren` or `regNodeWatcher` fails,
and `unlock` where its requests fail, and the node of the request stays. Nobody
knows its path then, so nobody deletes it, and the requests after it that it
excludes wait until the session ends that has made it.
-/

namespace ZkCppClient.Recipes.SharedLock

open SlashPath Ops

def DistriSharedLock.paths (o : DistriSharedLock) : List String := o.tickets.map (·.2) ++ o.pc.released.toList

section
variable {ι : Type*} (names : ι → LockName)

structure Owned (s : St ι) : Prop where
  parent : ∀ i, ∀ p ∈ (s.objects i).paths, s.server.has parentPath
  numbered : ∀ i, ∀ p ∈ (s.objects i).paths, ∃ isRead n, n < maxSequence ∧ n < s.server.cversion parentKey ∧
    p = ticketPath names i isRead n
  apart : ∀ i j, ∀ p ∈ (s.objects i).paths, ∀ q ∈ (s.objects j).paths, getSeqNo p = getSeqNo q → i = j ∧ p = q

/-- No request arrives, and a node goes by `unlock` or from outside. -/
structure Shrinks (s t : St ι) (a : Act ι) : Prop where
  server : Kept s.server t.server
  paths : ∀ j, (t.objects j).paths ⊆ (s.objects j).paths
  stays : ∀ p, s.server.has p = true → t.server.has p = true ∨ (∃ j, (s.objects j).pc = .deleting p) ∨ a = .drop p

/-- A request arrives, and its object may be told its path. -/
structure Grows [DecidableEq ι] (i : ι) (isRead : Bool) (created : String) (s t : St ι) : Prop where
  arrived : Arrived names i isRead created s.server t.server
  limit : s.server.cversion parentKey < maxSequence
  paths : ∀ j, (t.objects j).paths ⊆ if j = i then created :: (s.objects j).paths else (s.objects j).paths
  stays : ∀ p, s.server.has p = true → t.server.has p = true

structure Forgotten (i : ι) (isRead : Bool) (n : Nat) (s : St ι) : Prop where
  there : s.server.has (ticketPath names i isRead n) = true
  parent : s.server.has parentPath
  below : n < s.server.cversion parentKey
  unknown : ∀ j, ∀ q ∈ (s.objects j).paths, getSeqNo q ≠ n

/-- The node is there, and nobody after it has a lock that it excludes. -/
def StandsBefore (p : String) (s : St ι) : Prop :=
  s.server.has p = true ∧ ∀ j, ∀ y ∈ (s.objects j).held, isReadTypeLock p = false ∨ y.1 = false → getSeqNo y.2 < getSeqNo p

end

section
variable {o o' : DistriSharedLock} {isRead : Bool} {retPath path : String}

theorem mem_paths : path ∈ o.paths ↔ (∃ x ∈ o.tickets, x.2 = path) ∨ o.pc.released = some path := by
  rw [DistriSharedLock.paths, List.mem_append, List.mem_map, Option.mem_toList]

theorem held_paths {x : Bool × String} (h : x ∈ o.held) : x.2 ∈ o.paths :=
  mem_paths.mpr (.inl ⟨x, mem_tickets_of_held h, rfl⟩)

theorem paths_of_same (hticket : o'.pc.ticket = o.pc.ticket) (hreleased : o'.pc.released = o.pc.released)
    (hheld : o'.held = o.held) : o'.paths ⊆ o.paths := by
  rw [DistriSharedLock.paths, DistriSharedLock.paths, DistriSharedLock.tickets, DistriSharedLock.tickets, hticket, hreleased,
    hheld]
  exact List.Subset.refl _

theorem paths_of_none (hticket : o'.pc.ticket = none) (hreleased : o'.pc.released = none) (hheld : o'.held = o.held) :
    o'.paths ⊆ o.paths := by
  intro p hp
  rw [DistriSharedLock.paths, DistriSharedLock.tickets, hticket, hreleased, hheld] at hp
  obtain ⟨x, hx, rfl⟩ : ∃ x ∈ o.held, x.2 = p := by simpa using hp
  exact held_paths hx

theorem paths_of_ticket (hticket : o'.pc.ticket = some (isRead, retPath)) (hreleased : o'.pc.released = none)
    (hheld : o'.held = o.held) : o'.paths ⊆ retPath :: o.paths := by
  intro p hp
  rw [DistriSharedLock.paths, DistriSharedLock.tickets, hticket, hreleased, hheld] at hp
  obtain rfl | ⟨y, hy, rfl⟩ : p = retPath ∨ ∃ y ∈ o.held, y.2 = p := by simpa using hp
  · exact List.mem_cons_self
  · exact List.mem_cons_of_mem _ (held_paths hy)

theorem paths_granted (h : (isRead, retPath) ∈ o.tickets) : (o.granted isRead retPath).paths ⊆ o.paths := by
  intro p hp
  have hticket : (o.granted isRead retPath).pc.ticket = none := by cases isRead <;> rfl
  have hreleased : (o.granted isRead retPath).pc.released = none := by cases isRead <;> rfl
  rw [DistriSharedLock.paths, DistriSharedLock.tickets, hticket, hreleased] at hp
  obtain ⟨x, hx, rfl⟩ : ∃ x ∈ (o.granted isRead retPath).held, x.2 = p := by simpa using hp
  rcases granted_held hx with hx | rfl
  · exact held_paths hx
  · exact mem_paths.mpr (.inl ⟨_, h, rfl⟩)

theorem paths_unlock (hidle : o.pc = .idle) (h : o.unlock = some o') : o'.paths ⊆ o.paths := by
  obtain ⟨hheld, hticket, hreleased⟩ := unlock_held hidle h
  intro p hp
  rcases mem_paths.mp hp with ⟨x, hx, rfl⟩ | hp
  · rw [DistriSharedLock.tickets, hticket] at hx
    exact held_paths (hheld x hx)
  · obtain ⟨x, hx, rfl⟩ := hreleased p hp
    exact held_paths hx

end

section
variable {ι : Type*} {names : ι → LockName} {s t : St ι} {i j : ι} {a : Act ι} {isRead : Bool} {n : Nat} {p : String}
  {server : Server}

theorem owned_initial (names : ι → LockName) (server : Server) : Owned names (St.initial ι server) := by
  have hnone : ({} : DistriSharedLock).paths = [] := rfl
  constructor <;> simp [St.initial, hnone]

theorem Owned.cString (h : Owned names s) (hp : p ∈ (s.objects i).paths) : cString p = p := by
  obtain ⟨isRead, n, -, -, rfl⟩ := h.numbered i p hp
  exact cString_eq_self.mpr ticketPath_zero

theorem Owned.ne_parent (h : Owned names s) (hp : p ∈ (s.objects i).paths) : p ≠ parentPath := by
  obtain ⟨isRead, n, -, -, rfl⟩ := h.numbered i p hp
  exact ticketPath_ne_parent

theorem Owned.below (h : Owned names s) (hp : p ∈ (s.objects i).paths) : getSeqNo p < s.server.cversion parentKey := by
  obtain ⟨isRead, n, hmax, hn, rfl⟩ := h.numbered i p hp
  rwa [getSeqNo_ticketPath (le_ullongMax hmax)]

@[simp] theorem setServer_paths : ((s.setServer server).objects j).paths = (s.objects j).paths := rfl

theorem Owned.shrunk (h : Owned names s) (hstep : Shrinks s t a) : Owned names t := by
  refine ⟨fun j p hp => ?_, fun j p hp => ?_, fun j k p hp q hq => ?_⟩
  · exact hstep.server.parent (h.parent j p (hstep.paths j hp))
  · have hparent := h.parent j p (hstep.paths j hp)
    obtain ⟨isRead, n, hmax, hn, hpath⟩ := h.numbered j p (hstep.paths j hp)
    exact ⟨isRead, n, hmax, Nat.lt_of_lt_of_le hn (hstep.server.counter hparent), hpath⟩
  · exact h.apart j k p (hstep.paths j hp) q (hstep.paths k hq)

theorem isReadTypeLock_ticketPath (h : n ≤ ullongMax) : isReadTypeLock (ticketPath names i isRead n) = isRead := by
  rw [ticketPath_marked]
  exact (readBack_of_unmarked (unmarked_path (names i).unmarked) isRead n h).1

theorem Forgotten.standsBefore (hf : Forgotten names i isRead n s) (hi : Inv names s) (hmax : n < maxSequence) :
    StandsBefore (ticketPath names i isRead n) s := by
  refine ⟨hf.there, fun j y hy hexcludes => ?_⟩
  rw [isReadTypeLock_ticketPath (le_ullongMax hmax)] at hexcludes
  rw [getSeqNo_ticketPath (le_ullongMax hmax)]
  have hother := hf.unknown j y.2 (held_paths hy)
  have hmem : ticketName names i isRead n ∈ children s.server := (mem_children ticketName_noSlash).mpr hf.there
  have hblocks := hi.granted j y hy _ hmem
  rcases hexcludes with hwriter | hwriter <;>
    simp [blocks, getSeqNo_ticketName (le_ullongMax hmax), isReadTypeLock_ticketName (le_ullongMax hmax), hwriter] at hblocks <;>
    omega

end

section
variable {ι : Type*} [DecidableEq ι] {names : ι → LockName} {s t u : St ι} {i j : ι} {a : Act ι} {isRead : Bool} {n : Nat}
  {p created : String} {server : Server} {o : DistriSharedLock}

theorem paths_setObject (hu : ∀ j, (u.objects j).paths ⊆ (s.objects j).paths)
    (ho : o.paths ⊆ (s.objects i).paths) (j : ι) : ((u.setObject i o).objects j).paths ⊆ (s.objects j).paths :=
  forall_setObject (P := fun j (o : DistriSharedLock) => o.paths ⊆ (s.objects j).paths) hu ho j

theorem Shrinks.moved (ho : o.paths ⊆ (s.objects i).paths) : Shrinks s (s.setObject i o) a where
  server := .refl _
  paths := paths_setObject (fun _ => .refl _) ho
  stays _ hp := .inl hp

theorem Grows.request (ha : Arrived names i isRead created s.server server)
    (hlimit : s.server.cversion parentKey < maxSequence) (ho : o.paths ⊆ created :: (s.objects i).paths)
    (hstays : ∀ p, s.server.has p = true → server.has p = true) :
    Grows names i isRead created s ((s.setServer server).setObject i o) where
  arrived := ha
  limit := hlimit
  paths j := by
    by_cases hji : j = i
    · subst hji
      simpa using ho
    · simp [setObject_of_ne hji, hji, List.Subset.refl]
  stays := hstays

theorem step_paths (hi : Owned names s) (hg : Counts s a) (h : step (LockName.texts names) s a = some t) :
    Shrinks s t a ∨ ∃ i isRead created, Grows names i isRead created s t := by
  cases a with
  | init i f =>
    left
    simp only [step] at h
    split at h
    · cases h
    · split at h <;> cases h <;> rename_i hc
      · exact ⟨kept_init hc, paths_setObject (fun _ => .refl _) (.refl _), fun p hp => .inl (createOn_grows hc hp)⟩
      · exact ⟨kept_init hc, paths_setObject (fun _ => .refl _) (.refl _), fun p hp => .inl (createOn_grows hc hp)⟩
      · exact ⟨kept_init hc, fun _ => .refl _, fun p hp => .inl (createOn_grows hc hp)⟩
  | lock i isRead =>
    left
    simp only [step] at h
    split at h <;> cases h
    exact .moved (paths_of_none rfl rfl rfl)
  | createChild i f =>
    simp only [step] at h
    split at h
    · rename_i isRead hpc
      split at h <;> cases h
      · rename_i retPath server hc
        obtain ⟨created, hret, hmade⟩ := createOn_succeed hc
        rw [childPath_cString] at hmade
        have ha := arrived_of_makes hmade
        have hlimit := hg.1 ha.before
        cases hret
        right
        refine ⟨i, isRead, created, .request ha hlimit ?_ fun p hp => createOn_grows hc hp⟩
        rw [ha.created, throughBuffer_ticketPath hlimit]
        exact paths_of_ticket rfl rfl rfl
      -- the path has not come back, but the node may be there
      · rename_i ec ret server _ hc
        have hpaths : { (s.setServer server).objects i with pc := .idle }.paths ⊆ (s.objects i).paths :=
          paths_of_none rfl rfl rfl
        have hgrows : ∀ p, s.server.has p = true → server.has p = true := fun p hp => createOn_grows hc hp
        have hserver : server = s.server ∨ ∃ created, s.server.Makes (childPath (LockName.texts names) i isRead) true true
            created server := by
          rcases createOn_cases hc with ⟨-, created, -, hmade⟩ | ⟨-, hmade⟩
          · exact .inr ⟨created, by rwa [childPath_cString] at hmade⟩
          · rwa [childPath_cString] at hmade
        rcases hserver with rfl | ⟨created, hmade⟩
        · exact .inl ⟨.refl _, paths_setObject (fun _ => .refl _) hpaths, fun p hp => .inl hp⟩
        · have ha := arrived_of_makes hmade
          exact .inr ⟨i, isRead, created, .request ha (hg.1 ha.before) (List.subset_cons_of_subset _ hpaths) hgrows⟩
    · cases h
  | getChildren i f sorted =>
    left
    simp only [step] at h
    split at h
    · rename_i isRead retPath hpc
      split at h
      · split at h
        · split at h <;> cases h
          · exact .moved (paths_granted (by simp [DistriSharedLock.tickets, hpc, Pc.ticket]))
          · apply Shrinks.moved
            cases isRead <;> exact paths_of_same (by rw [hpc]; rfl) (by rw [hpc]; rfl) rfl
        · cases h
      · cases h
        exact .moved (paths_of_none rfl rfl rfl)
    · cases h
  | regNodeWatcher i ok =>
    left
    simp only [step] at h
    split at h
    · rename_i isRead retPath hpc
      split at h <;> cases h
      · exact .moved (paths_of_same (by rw [hpc]; rfl) (by rw [hpc]; rfl) rfl)
      · exact .moved (paths_of_none rfl rfl rfl)
    · cases h
  | wait i =>
    left
    simp only [step] at h
    split at h <;> cases h
    rename_i hpc
    exact .moved (paths_of_same (by rw [hpc]; rfl) (by rw [hpc]; rfl) rfl)
  | wake i =>
    left
    simp only [step] at h
    split at h <;> cases h
    rename_i hpc
    exact .moved (paths_of_same (by rw [hpc]; rfl) (by rw [hpc]; rfl) rfl)
  | callback i =>
    left
    simp only [step] at h
    split at h <;> cases h
    obtain ⟨hheld, hticket, hreleased⟩ := regWatcher_cb_same
    exact .moved (paths_of_same hticket hreleased hheld)
  | unlock i =>
    left
    simp only [step] at h
    split at h
    · rename_i hidle
      obtain ⟨o, ho, rfl⟩ := Option.map_eq_some_iff.mp h
      exact .moved (paths_unlock hidle.2 ho)
    · cases h
  | list i f =>
    left
    simp only [step] at h
    split at h
    · rename_i childPath hpc
      split at h <;> cases h
      · exact .moved (paths_of_same (by rw [hpc]; rfl) (by rw [hpc]; rfl) rfl)
      · exact .moved (paths_of_none rfl rfl rfl)
    · cases h
  | delete i f =>
    left
    simp only [step] at h
    split at h <;> cases h
    rename_i path hpc
    -- the object still knows the path that it deletes, and no longer after that, whether the node is gone or not
    have hmem : path ∈ (s.objects i).paths := mem_paths.mpr (.inr (by rw [hpc]; rfl))
    have hpaths : { (s.setServer (deleteNodeOn f s.server path).2).objects i with pc := .idle }.paths ⊆
        (s.objects i).paths := paths_of_none rfl rfl rfl
    rcases deleteNodeOn_cases f s.server path with hsame | hdone
    · rw [hsame] at hpaths ⊢
      exact ⟨.refl _, paths_setObject (fun _ => .refl _) hpaths, fun p hp => .inl hp⟩
    · rw [hi.cString hmem] at hdone
      refine ⟨kept_delete hdone (hi.ne_parent hmem), paths_setObject (fun _ => .refl _) hpaths, fun p hp => ?_⟩
      by_cases hpath : p = path
      · subst hpath
        exact .inr (.inl ⟨i, hpc⟩)
      · exact .inl ((delete_has hdone).mpr ⟨hpath, hp⟩)
  | drop path =>
    left
    simp only [step] at h
    split at h <;> cases h
    rename_i hdone
    have hne : path ≠ parentPath := fun heq => hg.2 (by rw [heq])
    refine ⟨kept_delete hdone hne, fun _ => .refl _, fun p hp => ?_⟩
    by_cases hpath : p = path
    · subst hpath
      exact .inr (.inr rfl)
    · exact .inl ((delete_has hdone).mpr ⟨hpath, hp⟩)
  | retry i =>
    cases h
    exact .inl (.moved (paths_of_same rfl rfl rfl))

/-! ## Runs -/

theorem Grows.mem_paths (h : Grows names i isRead created s t) (hp : p ∈ (t.objects j).paths) :
    p ∈ (s.objects j).paths ∨ j = i ∧ p = created := by
  have hmem := h.paths j hp
  by_cases hji : j = i
  · rw [if_pos hji] at hmem
    rcases List.mem_cons.mp hmem with heq | hmem
    · exact .inr ⟨hji, heq⟩
    · exact .inl hmem
  · rw [if_neg hji] at hmem
    exact .inl hmem

theorem Grows.number (h : Grows names i isRead created s t) : getSeqNo created = s.server.cversion parentKey := by
  rw [h.arrived.created, getSeqNo_ticketPath (le_ullongMax h.limit)]

theorem Owned.grown (h : Owned names s) (hstep : Grows names i isRead created s t) : Owned names t := by
  have hnew : ∀ j, ∀ p ∈ (s.objects j).paths, getSeqNo p ≠ getSeqNo created := by
    intro j p hp
    rw [hstep.number]
    exact Nat.ne_of_lt (h.below hp)
  refine ⟨fun _ _ _ => hstep.arrived.after, fun j p hp => ?_, fun j k p hp q hq hnum => ?_⟩
  · rw [hstep.arrived.counter]
    rcases hstep.mem_paths hp with hp | ⟨rfl, rfl⟩
    · obtain ⟨isRead, n, hmax, hn, hpath⟩ := h.numbered j p hp
      exact ⟨isRead, n, hmax, Nat.lt_succ_of_lt hn, hpath⟩
    · exact ⟨isRead, _, hstep.limit, Nat.lt_succ_self _, hstep.arrived.created⟩
  · rcases hstep.mem_paths hp with hp | ⟨rfl, rfl⟩
    · rcases hstep.mem_paths hq with hq | ⟨rfl, rfl⟩
      · exact h.apart j k p hp q hq hnum
      · exact absurd hnum (hnew j p hp)
    · rcases hstep.mem_paths hq with hq | ⟨rfl, rfl⟩
      · exact absurd hnum.symm (hnew k q hq)
      · exact ⟨rfl, rfl⟩

theorem step_owned (hi : Owned names s) (hg : Counts s a) (h : step (LockName.texts names) s a = some t) :
    Owned names t := by
  rcases step_paths hi hg h with hstep | ⟨i, isRead, created, hstep⟩
  · exact hi.shrunk hstep
  · exact hi.grown hstep

theorem forgotten_of_step (hi : Owned names s) (hg : Counts s a) (h : step (LockName.texts names) s a = some t)
    (hp : p ∈ (s.objects i).paths) (hthere : t.server.has p = true) (hgone : p ∉ (t.objects i).paths) :
    ∃ isRead n, n < maxSequence ∧ p = ticketPath names i isRead n ∧ Forgotten names i isRead n t := by
  obtain ⟨isRead, n, hmax, hn, rfl⟩ := hi.numbered i p hp
  have hnum : getSeqNo (ticketPath names i isRead n) = n := getSeqNo_ticketPath (le_ullongMax hmax)
  refine ⟨isRead, n, hmax, rfl, ?_⟩
  rcases step_paths hi hg h with hstep | ⟨k, isRead', created, hstep⟩
  · refine ⟨hthere, hstep.server.parent (hi.parent i _ hp), ?_, fun j q hq heq => ?_⟩
    · exact Nat.lt_of_lt_of_le hn (hstep.server.counter (hi.parent i _ hp))
    · obtain ⟨rfl, rfl⟩ := hi.apart j i q (hstep.paths j hq) _ hp (by rw [heq, hnum])
      exact hgone hq
  · refine ⟨hthere, hstep.arrived.after, ?_, fun j q hq heq => ?_⟩
    · rw [hstep.arrived.counter]
      exact Nat.lt_succ_of_lt hn
    · rcases hstep.mem_paths hq with hold | ⟨rfl, rfl⟩
      · obtain ⟨rfl, rfl⟩ := hi.apart j i q hold _ hp (by rw [heq, hnum])
        exact hgone hq
      · rw [hstep.number] at heq
        omega

theorem step_forgotten (hi : Owned names s) (hg : Counts s a) (hmax : n < maxSequence)
    (hkept : a ≠ .drop (ticketPath names i isRead n)) (hf : Forgotten names i isRead n s)
    (h : step (LockName.texts names) s a = some t) : Forgotten names i isRead n t := by
  rcases step_paths hi hg h with hstep | ⟨k, isRead', created, hstep⟩
  · refine ⟨?_, hstep.server.parent hf.parent, ?_, fun j q hq => hf.unknown j q (hstep.paths j hq)⟩
    · rcases hstep.stays _ hf.there with hthere | ⟨j, hdeleting⟩ | hdrop
      · exact hthere
      · -- the object would know the path
        have hmem : ticketPath names i isRead n ∈ (s.objects j).paths := mem_paths.mpr (.inr (by rw [hdeleting]; rfl))
        exact absurd (getSeqNo_ticketPath (le_ullongMax hmax)) (hf.unknown j _ hmem)
      · exact absurd hdrop hkept
    · exact Nat.lt_of_lt_of_le hf.below (hstep.server.counter hf.parent)
  · refine ⟨hstep.stays _ hf.there, hstep.arrived.after, ?_, fun j q hq => ?_⟩
    · rw [hstep.arrived.counter]
      exact Nat.lt_succ_of_lt hf.below
    · rcases hstep.mem_paths hq with hq | ⟨-, rfl⟩
      · exact hf.unknown j q hq
      · rw [hstep.number]
        exact Nat.ne_of_gt hf.below

/-- **Forgotten requests.** In every run, when an object goes on without the path of its request and leaves its node
behind, as `rlock`, `wlock` and `unlock` do where a request fails, then whatever the objects do, until the node is
deleted from outside nobody who comes after it has a lock that it excludes. -/
theorem forgotten_blocks (names : ι → LockName) (server : Server) {as bs : List (Act ι)} {a : Act ι} {i : ι} {p : String}
    {s t : St ι} (hcounts : Lts.Along (step (LockName.texts names)) Counts (St.initial ι server) (as ++ a :: bs))
    (hs : Lts.run (step (LockName.texts names)) (St.initial ι server) as = some s)
    (hstep : step (LockName.texts names) s a = some t) (hp : p ∈ (s.objects i).paths) (hthere : t.server.has p = true)
    (hforgotten : p ∉ (t.objects i).paths) (hkept : .drop p ∉ bs) :
    Lts.Throughout (step (LockName.texts names)) (StandsBefore p) t bs := by
  obtain ⟨hbefore, hafter⟩ := hcounts.append
  obtain ⟨hnow, hrest⟩ := hafter s hs
  have hinv := Lts.inv_of_along (fun _ _ _ hi hg => step_inv hi hg) (inv_initial names server) hbefore hs
  have howned := Lts.inv_of_along (fun _ _ _ hi hg => step_owned hi hg) (owned_initial names server) hbefore hs
  obtain ⟨isRead, n, hmax, rfl, hf⟩ := forgotten_of_step howned hnow hstep hp hthere hforgotten
  have hdrops : ∀ b ∈ bs, ∀ _ : St ι, b ≠ .drop (ticketPath names i isRead n) := by
    rintro b hb _ rfl
    exact hkept hb
  refine Lts.throughout_of_along (I := fun u => Inv names u ∧ Owned names u ∧ Forgotten names i isRead n u) ?_ ?_
    ⟨step_inv hinv hnow hstep, step_owned howned hnow hstep, hf⟩ ((hrest t hstep).and (Lts.along_of_forall hdrops))
  · rintro u b v ⟨hi, ho, hf⟩ ⟨hg, hb⟩ hv
    exact ⟨step_inv hi hg hv, step_owned ho hg hv, step_forgotten ho hg hmax hb hf hv⟩
  · rintro u ⟨hi, -, hf⟩
    exact hf.standsBefore hi hmax

end

/-- A reader's node is made, and the list that it asks for then does not come. -/
def asked : List (Act Bool) :=
  [.init true .answered, .init false .answered, .lock true true, .createChild true .answered]

def beforeListing : St Bool :=
  (Lts.run (step (LockName.texts fun _ => rwlock)) (St.initial Bool bareServer) asked).get (by decide +kernel)

def givenUp : St Bool :=
  (step (LockName.texts fun _ => rwlock) beforeListing (.getChildren true .unconnected [])).get (by decide +kernel)

def queued : List (Act Bool) :=
  [.lock false false, .createChild false .answered,
    .getChildren false .answered ["rwlock-R-0000000000", "rwlock-W-0000000001"], .regNodeWatcher false true, .wait false]

theorem forgotten_blocks_givenUp : Lts.Throughout (step (LockName.texts fun _ => rwlock))
    (StandsBefore "/shared_lock/rwlock-R-0000000000") givenUp queued := by
  have hs : Lts.run (step (LockName.texts fun _ => rwlock)) (St.initial Bool bareServer) asked = some beforeListing :=
    (Option.some_get _).symm
  have hstep : step (LockName.texts fun _ => rwlock) beforeListing (.getChildren true .unconnected []) = some givenUp :=
    (Option.some_get _).symm
  exact forgotten_blocks (fun _ => rwlock) bareServer (i := true) (by decide +kernel) hs hstep (by decide +kernel)
    (by decide +kernel) (by decide +kernel) (by decide +kernel)

end ZkCppClient.Recipes.SharedLock
