import ZkCppClient.Recipes.SharedTickets

/-!
# Exclusion of the shared lock

Every request that has not been released has a number of its own, below the
directory's count, and whoever has the lock has no node before its own that it
should wait for.
-/

namespace ZkCppClient.Recipes.SharedLock

open SlashPath Ops

def Pc.ticket : Pc → Option (Bool × String)
  | .listing isRead retPath | .registering isRead retPath | .waiting isRead retPath | .parked isRead retPath =>
    some (isRead, retPath)
  | _ => none

def Pc.released : Pc → Option String
  | .unlocking childPath | .deleting childPath => some childPath
  | _ => none

def DistriSharedLock.held (o : DistriSharedLock) : List (Bool × String) :=
  o.readerChildPaths.map (true, ·) ++ if o.writerChildPath = "" then [] else [(false, o.writerChildPath)]

def DistriSharedLock.tickets (o : DistriSharedLock) : List (Bool × String) := o.pc.ticket.toList ++ o.held

section
variable {ι : Type*} (names : ι → LockName)

/-- Where a writer has the lock and its node is there, no other request has the lock with its node there. -/
def Exclusive (s : St ι) : Prop :=
  ∀ i j x y, x ∈ (s.objects i).held → y ∈ (s.objects j).held → x.1 = false → s.server.has x.2 → s.server.has y.2 →
    i = j ∧ x = y

/-- Whoever has the lock has come before all requests that exclude it and whose nodes are there. -/
def InTurn (s : St ι) : Prop :=
  ∀ i j x y, x ∈ (s.objects i).held → y ∈ (s.objects j).tickets → x.1 = false ∨ y.1 = false → s.server.has y.2 →
    i = j ∧ x = y ∨ getSeqNo x.2 < getSeqNo y.2

/-- The directory's count is not at its end, and nobody deletes the directory. -/
def Counts (s : St ι) (a : Act ι) : Prop :=
  (s.server.has parentPath → s.server.cversion parentKey < maxSequence) ∧ a ≠ .drop parentPath

structure Inv (s : St ι) : Prop where
  parent : ∀ i, ∀ x ∈ (s.objects i).tickets, s.server.has parentPath
  numbered : ∀ i, ∀ x ∈ (s.objects i).tickets, ∃ n, n < maxSequence ∧ n < s.server.cversion parentKey ∧
    x.2 = ticketPath names i x.1 n
  distinct : ∀ i j, ∀ x ∈ (s.objects i).tickets, ∀ y ∈ (s.objects j).tickets, getSeqNo x.2 = getSeqNo y.2 → i = j ∧ x = y
  granted : ∀ i, ∀ x ∈ (s.objects i).held, ∀ node ∈ children s.server, blocks x.1 x.2 node = false
  released : ∀ i p, (s.objects i).pc.released = some p → cString p ≠ parentPath

end

section
variable {ι : Type*} {names : ι → LockName} {s t : St ι} {i : ι} {isRead : Bool} {n : Nat} {created : String}
  {server : Server}

theorem inv_initial (names : ι → LockName) (server : Server) : Inv names (St.initial ι server) := by
  constructor <;> simp [St.initial, DistriSharedLock.tickets, DistriSharedLock.held, Pc.ticket, Pc.released]

theorem le_ullongMax (h : n < maxSequence) : n ≤ ullongMax := by
  have hmax : maxSequence ≤ ullongMax := by decide
  omega

theorem ticketPath_ne_parent : ticketPath names i isRead n ≠ parentPath := by
  intro heq
  have hlen := congrArg (fun p : String => p.toList.length) heq
  simp only [ticketPath, String.toList_append, List.length_append] at hlen
  have hone : ("/" : String).toList.length = 1 := by decide
  omega

theorem mem_tickets_of_held {o : DistriSharedLock} {x : Bool × String} (h : x ∈ o.held) : x ∈ o.tickets :=
  List.mem_append_right _ h

theorem Inv.ticket_ne_parent (h : Inv names s) {x : Bool × String} (hx : x ∈ (s.objects i).tickets) :
    cString x.2 ≠ parentPath := by
  obtain ⟨n, -, -, hpath⟩ := h.numbered i x hx
  rw [hpath, cString_eq_self.mpr ticketPath_zero]
  exact ticketPath_ne_parent

theorem Inv.inTurn (h : Inv names s) : InTurn s := by
  intro i j x y hx hy hexcludes hythere
  obtain ⟨n, hn, -, hxpath⟩ := h.numbered i x (mem_tickets_of_held hx)
  obtain ⟨m, hm, -, hypath⟩ := h.numbered j y hy
  have hxnum : getSeqNo x.2 = n := by rw [hxpath, getSeqNo_ticketPath (le_ullongMax hn)]
  have hynum : getSeqNo y.2 = m := by rw [hypath, getSeqNo_ticketPath (le_ullongMax hm)]
  rcases Nat.lt_trichotomy n m with hlt | heq | hlt
  · exact .inr (by rwa [hxnum, hynum])
  · exact .inl (h.distinct i j x (mem_tickets_of_held hx) y hy (by rw [hxnum, hynum, heq]))
  · -- the lock was granted to a request that should wait for the other
    have hmem : ticketName names j y.1 m ∈ children s.server := by
      rw [mem_children ticketName_noSlash]
      rwa [hypath] at hythere
    have hblocks := h.granted i x hx _ hmem
    rcases hexcludes with hwriter | hwriter <;>
      simp [blocks, hxnum, getSeqNo_ticketName (le_ullongMax hm), isReadTypeLock_ticketName (le_ullongMax hm), hwriter,
        hlt] at hblocks

theorem Inv.exclusive (h : Inv names s) : Exclusive s := by
  intro i j x y hx hy hwriter hxthere hythere
  rcases h.inTurn i j x y hx (mem_tickets_of_held hy) (.inl hwriter) hythere with hsame | hlt
  · exact hsame
  · rcases h.inTurn j i y x hy (mem_tickets_of_held hx) (.inr hwriter) hxthere with ⟨rfl, rfl⟩ | hgt
    · exact ⟨rfl, rfl⟩
    · exact absurd hgt (Nat.lt_asymm hlt)

theorem Inv.kept (h : Inv names s) (hserver : Kept s.server t.server)
    (htickets : ∀ j, ∀ x ∈ (t.objects j).tickets, x ∈ (s.objects j).tickets)
    (hheld : ∀ j, ∀ x ∈ (t.objects j).held, x ∈ (s.objects j).held ∨ ∀ node ∈ children s.server, blocks x.1 x.2 node = false)
    (hreleased : ∀ j p, (t.objects j).pc.released = some p →
      (s.objects j).pc.released = some p ∨ ∃ x ∈ (s.objects j).tickets, x.2 = p) : Inv names t := by
  constructor
  · intro j x hx
    exact hserver.parent (h.parent j x (htickets j x hx))
  · intro j x hx
    obtain ⟨n, hmax, hn, hpath⟩ := h.numbered j x (htickets j x hx)
    exact ⟨n, hmax, Nat.lt_of_lt_of_le hn (hserver.counter (h.parent j x (htickets j x hx))), hpath⟩
  · intro j k x hx y hy
    exact h.distinct j k x (htickets j x hx) y (htickets k y hy)
  · intro j x hx node hnode
    rcases hheld j x hx with hx | hfree
    · exact h.granted j x hx node (hserver.nodes node hnode)
    · exact hfree node (hserver.nodes node hnode)
  · intro j p hp
    rcases hreleased j p hp with hp | ⟨x, hx, rfl⟩
    · exact h.released j p hp
    · exact h.ticket_ne_parent hx

theorem Inv.arrived (h : Inv names s) (ha : Arrived names i isRead created s.server t.server)
    (hlimit : s.server.cversion parentKey < maxSequence)
    (htickets : ∀ j, ∀ x ∈ (t.objects j).tickets, x ∈ (s.objects j).tickets ∨ j = i ∧ x = (isRead, created))
    (hheld : ∀ j, (t.objects j).held = (s.objects j).held)
    (hreleased : ∀ j p, (t.objects j).pc.released = some p → (s.objects j).pc.released = some p) : Inv names t := by
  -- the numbers given so far are below the count, and the new one is the count itself
  have hold : ∀ j, ∀ x ∈ (s.objects j).tickets, getSeqNo x.2 < s.server.cversion parentKey := by
    intro j x hx
    obtain ⟨n, hmax, hn, hpath⟩ := h.numbered j x hx
    rw [hpath, getSeqNo_ticketPath (le_ullongMax hmax)]
    exact hn
  have hnum : getSeqNo created = s.server.cversion parentKey := by
    rw [ha.created, getSeqNo_ticketPath (le_ullongMax hlimit)]
  constructor
  · intro j x _
    exact ha.after
  · intro j x hx
    rw [ha.counter]
    rcases htickets j x hx with hx | ⟨rfl, rfl⟩
    · obtain ⟨n, hmax, hn, hpath⟩ := h.numbered j x hx
      exact ⟨n, hmax, Nat.lt_succ_of_lt hn, hpath⟩
    · exact ⟨_, hlimit, Nat.lt_succ_self _, ha.created⟩
  · intro j k x hx y hy heq
    rcases htickets j x hx with hx | ⟨rfl, rfl⟩
    · rcases htickets k y hy with hy | ⟨rfl, rfl⟩
      · exact h.distinct j k x hx y hy heq
      · have hlt := hold j x hx
        rw [heq, hnum] at hlt
        exact absurd hlt (Nat.lt_irrefl _)
    · rcases htickets k y hy with hy | ⟨rfl, rfl⟩
      · have hlt := hold k y hy
        rw [← heq, hnum] at hlt
        exact absurd hlt (Nat.lt_irrefl _)
      · exact ⟨rfl, rfl⟩
  · intro j x hx node hnode
    rw [hheld j] at hx
    -- a node that comes now has a larger number than those that have the lock
    rcases ha.nodes node hnode with hnode | rfl
    · exact h.granted j x hx node hnode
    · have hlt := hold j x (mem_tickets_of_held hx)
      simp only [blocks, getSeqNo_ticketName (le_ullongMax hlimit), Bool.and_eq_false_iff, decide_eq_false_iff_not]
      right
      omega
  · intro j p hp
    exact h.released j p (hreleased j p hp)

end

/-! ## One step -/

structure SameLock (o o' : DistriSharedLock) : Prop where
  pc : o.pc = o'.pc
  held : o.held = o'.held

section
variable {ι : Type*} {s : St ι} {i : ι} {server : Server} {o o' : DistriSharedLock}

theorem SameLock.tickets (h : SameLock o o') : o.tickets = o'.tickets := by
  rw [DistriSharedLock.tickets, DistriSharedLock.tickets, h.pc, h.held]

@[simp] theorem setServer_server : (s.setServer server).server = server := rfl

theorem setServer_same (j : ι) : SameLock ((s.setServer server).objects j) (s.objects j) := ⟨rfl, rfl⟩

theorem Inv.beside {names : ι → LockName} {u : St ι} (h : Inv names s) (hserver : Kept s.server u.server)
    (hu : ∀ j, SameLock (u.objects j) (s.objects j)) : Inv names u := by
  apply h.kept hserver
  · intro j x hx
    rwa [← (hu j).tickets]
  · intro j x hx
    exact .inl (by rwa [← (hu j).held])
  · intro j p hp
    exact .inl (by rwa [← (hu j).pc])

end

section
variable {ι : Type*} [DecidableEq ι] {names : ι → LockName} {s t : St ι} {i : ι} {server : Server} {f : Fate}
  {o : DistriSharedLock} {isRead : Bool} {retPath : String}

theorem Inv.moved {u : St ι} (h : Inv names s) (hserver : Kept s.server u.server)
    (hu : ∀ j, SameLock (u.objects j) (s.objects j)) (htickets : ∀ x ∈ o.tickets, x ∈ (s.objects i).tickets)
    (hheld : ∀ x ∈ o.held, x ∈ (s.objects i).held ∨ ∀ node ∈ children s.server, blocks x.1 x.2 node = false)
    (hreleased : ∀ p, o.pc.released = some p →
      (s.objects i).pc.released = some p ∨ ∃ x ∈ (s.objects i).tickets, x.2 = p) : Inv names (u.setObject i o) := by
  apply h.kept (t := u.setObject i o) hserver
  · intro j x hx
    by_cases hji : j = i
    · subst hji
      rw [setObject_self] at hx
      exact htickets x hx
    · rw [setObject_of_ne hji] at hx
      rwa [← (hu j).tickets]
  · intro j x hx
    by_cases hji : j = i
    · subst hji
      rw [setObject_self] at hx
      exact hheld x hx
    · rw [setObject_of_ne hji] at hx
      exact .inl (by rwa [← (hu j).held])
  · intro j p hp
    by_cases hji : j = i
    · subst hji
      rw [setObject_self] at hp
      exact hreleased p hp
    · rw [setObject_of_ne hji] at hp
      exact .inl (by rwa [← (hu j).pc])

theorem Inv.setPc {u : St ι} (h : Inv names s) (hserver : Kept s.server u.server)
    (hu : ∀ j, SameLock (u.objects j) (s.objects j)) (hsame : o.held = (s.objects i).held)
    (hticket : ∀ x, o.pc.ticket = some x → (s.objects i).pc.ticket = some x)
    (hreleased : ∀ p, o.pc.released = some p → (s.objects i).pc.released = some p) : Inv names (u.setObject i o) := by
  apply h.moved hserver hu
  · intro x hx
    rcases List.mem_append.mp hx with hx | hx
    · have hpc := hticket x (Option.mem_toList.mp hx)
      exact List.mem_append_left _ (Option.mem_toList.mpr hpc)
    · rw [hsame] at hx
      exact mem_tickets_of_held hx
  · intro x hx
    rw [hsame] at hx
    exact .inl hx
  · exact fun p hp => .inl (hreleased p hp)

theorem leastNodeName_none {sorted : List String} (h : leastNodeName isRead retPath sorted = none) :
    ∀ node ∈ sorted, blocks isRead retPath node = false := by
  have hfold : ∀ (nodes : List String) (least : Option String),
      nodes.foldl (fun least node => if blocks isRead retPath node then some node else least) least = none →
        least = none ∧ ∀ node ∈ nodes, blocks isRead retPath node = false := by
    intro nodes
    induction nodes with
    | nil => simp
    | cons node nodes ih =>
      intro least hnone
      obtain ⟨hleast, hnodes⟩ := ih _ hnone
      by_cases hb : blocks isRead retPath node = true
      · simp [hb] at hleast
      · simp only [hb] at hleast
        exact ⟨hleast, List.forall_mem_cons.mpr ⟨by simpa using hb, hnodes⟩⟩
  exact (hfold sorted none h).2

theorem granted_held {x : Bool × String} (h : x ∈ (o.granted isRead retPath).held) : x ∈ o.held ∨ x = (isRead, retPath) := by
  cases isRead with
  | true =>
    simp only [DistriSharedLock.granted, DistriSharedLock.held, if_true, List.map_append, List.mem_append] at h ⊢
    rcases h with (h | h) | h
    · exact .inl (.inl h)
    · exact .inr (List.mem_singleton.mp h)
    · exact .inl (.inr h)
  | false =>
    simp only [DistriSharedLock.granted, DistriSharedLock.held, Bool.false_eq_true, if_false, List.mem_append] at h ⊢
    rcases h with h | h
    · exact .inl (.inl h)
    · split at h
      · cases h
      · exact .inr (List.mem_singleton.mp h)

theorem regWatcher_cb_same {path : String} : (regWatcher_cb o isRead path).held = o.held ∧
    (regWatcher_cb o isRead path).pc.ticket = o.pc.ticket ∧ (regWatcher_cb o isRead path).pc.released = o.pc.released := by
  unfold regWatcher_cb
  split
  · split
    · rename_i isRead' retPath hpc
      split
      · rename_i heq
        subst heq
        rw [hpc]
        exact ⟨rfl, rfl, rfl⟩
      · exact ⟨rfl, rfl, rfl⟩
    · exact ⟨rfl, rfl, rfl⟩
  · exact ⟨rfl, rfl, rfl⟩

theorem unlock_held {o' : DistriSharedLock} (hidle : o.pc = .idle) (h : o.unlock = some o') :
    (∀ x ∈ o'.held, x ∈ o.held) ∧ o'.pc.ticket = none ∧ ∀ p, o'.pc.released = some p → ∃ x ∈ o.held, x.2 = p := by
  unfold DistriSharedLock.unlock at h
  split at h
  · cases h
    exact ⟨fun x hx => hx, by rw [hidle]; rfl, by rw [hidle]; exact nofun⟩
  · split at h
    · cases h
    · rename_i childPath paths hpaths
      cases h
      refine ⟨fun x hx => ?_, rfl, fun p hp => ?_⟩
      · simp only [DistriSharedLock.held, hpaths, List.map_cons, List.cons_append] at hx ⊢
        exact List.mem_cons_of_mem _ hx
      · cases hp
        exact ⟨(true, childPath), by simp [DistriSharedLock.held, hpaths], rfl⟩
  · split at h
    · cases h
    · rename_i hwriter
      cases h
      refine ⟨fun x hx => ?_, rfl, fun p hp => ?_⟩
      · simp only [DistriSharedLock.held, if_true, List.append_nil] at hx ⊢
        exact List.mem_append_left _ hx
      · cases hp
        exact ⟨(false, o.writerChildPath), by simp [DistriSharedLock.held, hwriter], rfl⟩

theorem Inv.request {created : String} (h : Inv names s) (ha : Arrived names i isRead created s.server server)
    (hlimit : s.server.cversion parentKey < maxSequence) (hsame : o.held = (s.objects i).held)
    (hticket : ∀ x, o.pc.ticket = some x → x = (isRead, created)) (hreleased : ∀ p, o.pc.released ≠ some p) :
    Inv names ((s.setServer server).setObject i o) := by
  apply h.arrived (t := (s.setServer server).setObject i o) ha hlimit
  · intro j x hx
    by_cases hji : j = i
    · subst hji
      rw [setObject_self] at hx
      rcases List.mem_append.mp hx with hx | hx
      · exact .inr ⟨rfl, hticket x (Option.mem_toList.mp hx)⟩
      · rw [hsame] at hx
        exact .inl (mem_tickets_of_held hx)
    · rw [setObject_of_ne hji] at hx
      exact .inl hx
  · intro j
    by_cases hji : j = i
    · subst hji
      rw [setObject_self]
      exact hsame
    · rw [setObject_of_ne hji]
      rfl
  · intro j p hp
    by_cases hji : j = i
    · subst hji
      rw [setObject_self] at hp
      exact absurd hp (hreleased p)
    · rw [setObject_of_ne hji] at hp
      exact hp

theorem kept_init {ec : ZkErrorCode} {ret : Option String} {server' : Server}
    (hc : createOn f server parentPath false false = (ec, ret, server')) : Kept server server' := by
  have hpath : cString parentPath = parentPath := cString_eq_self.mpr (by decide)
  rcases createOn_cases hc with ⟨-, created, -, hmade⟩ | ⟨-, rfl | ⟨created, hmade⟩⟩
  · rw [hpath] at hmade
    exact kept_parent hmade
  · exact .refl _
  · rw [hpath] at hmade
    exact kept_parent hmade

theorem step_inv {a : Act ι} (hi : Inv names s) (hg : Counts s a) (h : step (LockName.texts names) s a = some t) :
    Inv names t := by
  have hself : ∀ j, SameLock (s.objects j) (s.objects j) := fun j => ⟨rfl, rfl⟩
  cases a with
  | init i f =>
    simp only [step] at h
    split at h
    · cases h
    · split at h <;> cases h <;> rename_i hc
      · exact hi.setPc (kept_init hc) setServer_same rfl (fun x hx => hx) (fun p hp => hp)
      · exact hi.setPc (kept_init hc) setServer_same rfl (fun x hx => hx) (fun p hp => hp)
      · exact hi.beside (kept_init hc) setServer_same
  | lock i isRead =>
    simp only [step] at h
    split at h <;> cases h
    exact hi.setPc (.refl _) hself rfl nofun nofun
  | createChild i f =>
    simp only [step] at h
    split at h
    · rename_i isRead hpc
      -- the request fails, or its node is made without its path coming back
      have hleft : ∀ {ec ret server}, createOn f s.server (childPath (LockName.texts names) i isRead) true true =
          (ec, ret, server) → Inv names ((s.setServer server).setObject i { (s.setServer server).objects i with pc := .idle }) := by
        intro ec ret server hc
        rcases createOn_cases hc with ⟨-, created, -, hmade⟩ | ⟨-, rfl | ⟨created, hmade⟩⟩
        · rw [childPath_cString] at hmade
          have ha := arrived_of_makes hmade
          exact hi.request ha (hg.1 ha.before) rfl (by simp [Pc.ticket]) nofun
        · exact hi.setPc (.refl _) setServer_same rfl nofun nofun
        · rw [childPath_cString] at hmade
          have ha := arrived_of_makes hmade
          exact hi.request ha (hg.1 ha.before) rfl (by simp [Pc.ticket]) nofun
      split at h <;> cases h
      · rename_i retPath server hc
        obtain ⟨created, hret, hmade⟩ := createOn_succeed hc
        rw [childPath_cString] at hmade
        have ha := arrived_of_makes hmade
        have hlimit := hg.1 ha.before
        cases hret
        rw [ha.created, throughBuffer_ticketPath hlimit, ← ha.created]
        exact hi.request ha hlimit rfl (fun x hx => by cases hx; rfl) nofun
      · rename_i hc
        exact hleft hc
    · cases h
  | getChildren i f sorted =>
    simp only [step] at h
    split at h
    · rename_i isRead retPath hpc
      split at h
      · rename_i childNodes hc
        have hlist : childNodes = children s.server := getChildrenOn_succeed (cString_eq_self.mpr (by decide)) hc
        have hticket : (isRead, retPath) ∈ (s.objects i).tickets := by
          simp [DistriSharedLock.tickets, hpc, Pc.ticket]
        split at h
        · rename_i hsorted
          split at h <;> cases h
          · rename_i hleast
            -- granted: no node of the list has to be waited for, and the list has all nodes
            have hfree : ∀ node ∈ children s.server, blocks isRead retPath node = false := by
              intro node hnode
              rw [← hlist] at hnode
              exact leastNodeName_none hleast node (hsorted.1.mem_iff.mpr hnode)
            apply hi.moved (.refl _) hself
            · intro x hx
              have hidle : ((s.objects i).granted isRead retPath).pc.ticket = none := by cases isRead <;> rfl
              rw [DistriSharedLock.tickets, hidle] at hx
              rcases granted_held hx with hx | rfl
              · exact mem_tickets_of_held hx
              · exact hticket
            · intro x hx
              rcases granted_held hx with hx | rfl
              · exact .inl hx
              · exact .inr hfree
            · cases isRead <;> exact nofun
          · apply hi.setPc (.refl _) hself
            · cases isRead <;> rfl
            · rw [hpc]
              cases isRead <;> exact fun x hx => hx
            · cases isRead <;> exact nofun
        · cases h
      · cases h
        exact hi.setPc (.refl _) hself rfl nofun nofun
    · cases h
  | regNodeWatcher i ok =>
    simp only [step] at h
    split at h
    · rename_i isRead retPath hpc
      split at h <;> cases h
      · exact hi.setPc (.refl _) hself rfl (by rw [hpc]; exact fun x hx => hx) nofun
      · exact hi.setPc (.refl _) hself rfl nofun nofun
    · cases h
  | wait i =>
    simp only [step] at h
    split at h <;> cases h
    rename_i hpc
    exact hi.setPc (.refl _) hself rfl (by rw [hpc]; exact fun x hx => hx) nofun
  | wake i =>
    simp only [step] at h
    split at h <;> cases h
    rename_i hpc
    exact hi.setPc (.refl _) hself rfl (by rw [hpc]; exact fun x hx => hx) nofun
  | callback i =>
    simp only [step] at h
    split at h <;> cases h
    obtain ⟨hheld, hticket, hreleased⟩ := regWatcher_cb_same
    exact hi.setPc (.refl _) hself hheld (by rw [hticket]; exact fun x hx => hx) (by rw [hreleased]; exact fun p hp => hp)
  | unlock i =>
    simp only [step] at h
    split at h
    · rename_i hidle
      obtain ⟨o, ho, rfl⟩ := Option.map_eq_some_iff.mp h
      obtain ⟨hheld, hticket, hreleased⟩ := unlock_held hidle.2 ho
      apply hi.moved (.refl _) hself
      · intro x hx
        rw [DistriSharedLock.tickets, hticket] at hx
        exact mem_tickets_of_held (hheld x hx)
      · exact fun x hx => .inl (hheld x hx)
      · intro p hp
        obtain ⟨x, hx, hpath⟩ := hreleased p hp
        exact .inr ⟨x, mem_tickets_of_held hx, hpath⟩
    · cases h
  | list i f =>
    simp only [step] at h
    split at h
    · rename_i childPath hpc
      split at h <;> cases h
      · exact hi.setPc (.refl _) hself rfl nofun (by rw [hpc]; exact fun p hp => hp)
      · exact hi.setPc (.refl _) hself rfl nofun nofun
    · cases h
  | delete i f =>
    simp only [step] at h
    split at h <;> cases h
    rename_i path hpc
    -- what is deleted is a request's node, not the directory
    have hne := hi.released i path (by rw [hpc]; rfl)
    have hkept : Kept s.server (deleteNodeOn f s.server path).2 := by
      rcases deleteNodeOn_cases f s.server path with hsame | hdone
      · rw [hsame]
        exact .refl _
      · exact kept_delete hdone hne
    exact hi.setPc hkept setServer_same rfl nofun nofun
  | drop path =>
    simp only [step] at h
    split at h <;> cases h
    rename_i hdone
    have hne : path ≠ parentPath := fun heq => hg.2 (by rw [heq])
    exact hi.beside (kept_delete hdone hne) setServer_same
  | retry i =>
    cases h
    exact hi.setPc (.refl _) hself rfl (fun x hx => hx) (fun p hp => hp)

/-- **Exclusion.** In every run of any number of objects, whatever requests fail and whatever nodes are
deleted meanwhile, a writer that has the lock is alone with it as long as its node is there: of two
requests that have the lock and should not, one has lost its node. -/
theorem writerAlone_throughout (names : ι → LockName) (server : Server) {as : List (Act ι)}
    (h : Lts.Along (step (LockName.texts names)) Counts (St.initial ι server) as) :
    Lts.Throughout (step (LockName.texts names)) Exclusive (St.initial ι server) as :=
  Lts.throughout_of_along (fun _ _ _ hi hg => step_inv hi hg) (fun _ => Inv.exclusive) (inv_initial names server) h

/-- **First come, first served.** In every run whoever has the lock has a smaller number than every other request, granted
or waiting, that may not have it at the same time and whose node is there. -/
theorem inTurn_throughout (names : ι → LockName) (server : Server) {as : List (Act ι)}
    (h : Lts.Along (step (LockName.texts names)) Counts (St.initial ι server) as) :
    Lts.Throughout (step (LockName.texts names)) InTurn (St.initial ι server) as :=
  Lts.throughout_of_along (fun _ _ _ hi hg => step_inv hi hg) (fun _ => Inv.inTurn) (inv_initial names server) h

instance (s : St ι) (a : Act ι) : Decidable (Counts s a) :=
  inferInstanceAs (Decidable ((_ → _) ∧ _))

end

def rwlock : LockName := ⟨⟨"rwlock", by decide⟩, by decide, by decide, by decide⟩

def contended : List (Act Bool) :=
  [.init true .answered, .init false .answered, .lock true true, .createChild true .answered,
    .getChildren true .answered ["rwlock-R-0000000000"], .lock false false, .createChild false .answered,
    .getChildren false .answered ["rwlock-R-0000000000", "rwlock-W-0000000001"], .regNodeWatcher false true]

def released : List (Act Bool) := [.unlock true, .list true .answered, .delete true .answered]

def woken : List (Act Bool) := [.callback false, .getChildren false .answered ["rwlock-W-0000000001"]]

theorem writerAlone_handedOver : Lts.Throughout (step (LockName.texts fun _ => rwlock)) Exclusive
    (St.initial Bool bareServer) (contended ++ [.wait false] ++ released ++ woken) :=
  writerAlone_throughout (fun _ => rwlock) bareServer (by decide +kernel)

theorem inTurn_contended : Lts.Throughout (step (LockName.texts fun _ => rwlock)) InTurn
    (St.initial Bool bareServer) (contended ++ [.wait false]) :=
  inTurn_throughout (fun _ => rwlock) bareServer (by decide +kernel)

end ZkCppClient.Recipes.SharedLock
