import ZkCppClient.Recipes.SharedOrder

/-!
# Waiting for the shared lock

`rlock` and `wlock` ask to be told of a node's deletion and then wait, and the
callback only wakes a thread that waits already. A deletion that is reported in
between is lost, and so is one before the request to be told, and one after the
session has ended and the watch with it.
-/

namespace ZkCppClient.Recipes.SharedLock

open SlashPath Ops

/-- The callback is next, and the thread that it should wake does not wait yet. -/
def DistriSharedLock.Missed (o : DistriSharedLock) : Prop :=
  match o.pc with
  | .waiting isRead _ => o.inbox.head? = some (isRead, o.leastNodePath isRead)
  | _ => False

section
variable {ι : Type*}

/-- Who waits for a node that is gone is still to be told. -/
def NoneStranded (s : St ι) : Prop :=
  ∀ i, ∀ w ∈ (s.objects i).awaited, s.server.has w.2 = false → w ∈ (s.objects i).inbox

/-- The node is there when it is registered for, its deletion is not reported before the wait, and the session does
not end, nor is its handle replaced, while its watch is waited for. -/
def InTime (s : St ι) : Act ι → Prop
  | .regNodeWatcher i _ => ∀ x ∈ (s.objects i).pc.behind, s.server.has ((s.objects i).leastNodePath x.1)
  | .callback i => ¬ (s.objects i).Missed
  | .retry i => (s.objects i).pc.waits = none
  | _ => True

end

def Watched (server : Server) (o : DistriSharedLock) : Prop :=
  ∀ w ∈ o.awaited, w ∈ o.watches ∧ (server.has w.2 = false → w ∈ o.inbox)

section
variable {s : Server} {o o' : DistriSharedLock} {isRead : Bool} {retPath path : String} {inbox : List (Bool × String)}

theorem Watched.of_not_waits (h : o.pc.waits = none) : Watched s o := by
  simp [Watched, DistriSharedLock.awaited, h]

theorem Watched.of_same (h : Watched s o) (hwaits : o'.pc.waits = o.pc.waits) (hleast : o'.leastNodePath = o.leastNodePath)
    (hwatches : o'.watches = o.watches) (hinbox : o'.inbox = o.inbox) : Watched s o' := by
  unfold Watched DistriSharedLock.awaited
  rw [hwaits, hleast, hwatches, hinbox]
  exact h

theorem regWatcher_cb_wakes (o : DistriSharedLock) (isRead : Bool) (path : String) :
    regWatcher_cb o isRead path = o ∨ (regWatcher_cb o isRead path).pc.waits = none := by
  unfold regWatcher_cb
  split
  · split
    · split
      · exact .inr rfl
      · exact .inl rfl
    · exact .inl rfl
  · exact .inl rfl

theorem regWatcher_cb_parked (h : o.pc = .parked isRead retPath) (hpath : path = o.leastNodePath isRead) :
    (regWatcher_cb o isRead path).pc = .listing isRead retPath := by
  simp [regWatcher_cb, h, hpath]

theorem Watched.callback (h : Watched s o) (hinbox : o.inbox = (isRead, path) :: inbox) (hmissed : ¬ o.Missed) :
    Watched s (regWatcher_cb { o with inbox } isRead path) := by
  by_cases hmine : o.awaited = some (isRead, path)
  · obtain ⟨isRead', hwaits, heq⟩ := Option.map_eq_some_iff.mp hmine
    cases heq
    cases hpc : o.pc with
    | waiting isRead' retPath =>
      rw [hpc] at hwaits
      cases hwaits
      -- the deletion comes too early for the thread, which the condition excludes
      exact absurd (by simp [DistriSharedLock.Missed, hpc, hinbox]) hmissed
    | parked isRead' retPath =>
      rw [hpc] at hwaits
      cases hwaits
      have hwoken : (regWatcher_cb { o with inbox } isRead (o.leastNodePath isRead)).pc = .listing isRead retPath :=
        regWatcher_cb_parked hpc rfl
      rw [hpc] at hwoken
      exact .of_not_waits (by rw [hwoken]; rfl)
    | _ =>
      rw [hpc] at hwaits
      cases hwaits
  -- another deletion than the one waited for: what is waited for stays in the inbox
  · rcases regWatcher_cb_wakes { o with inbox } isRead path with hsame | hwoken
    · rw [hsame]
      intro w hw
      obtain ⟨hwatches, htold⟩ := h w hw
      refine ⟨hwatches, fun hgone => ?_⟩
      have hmem := htold hgone
      rw [hinbox] at hmem
      refine (List.mem_cons.mp hmem).resolve_left fun heq => hmine ?_
      rw [← heq]
      exact hw
    · exact .of_not_waits hwoken

end

section
variable {ι : Type*} {s : St ι}

theorem noneStranded_of_watched (h : ∀ i, Watched s.server (s.objects i)) : NoneStranded s :=
  fun i w hw => (h i w hw).2

theorem watched_setServer (h : ∀ i, Watched s.server (s.objects i)) (server : Server) (i : ι) :
    Watched (s.setServer server).server ((s.setServer server).objects i) := by
  intro w hw
  obtain ⟨hwatches, htold⟩ := h i w hw
  refine ⟨hwatches, fun hgone => ?_⟩
  have hgone : server.has w.2 = false := hgone
  by_cases hthere : s.server.has w.2 = true
  · exact List.mem_append_right _ (List.mem_filter.mpr ⟨hwatches, by simp [hthere, hgone]⟩)
  · exact List.mem_append_left _ (htold (by simpa using hthere))

end

section
variable {ι : Type*} [DecidableEq ι] {childNodeName : ι → Text} {s t : St ι} {i : ι} {o : DistriSharedLock}

theorem step_watched {a : Act ι} (hi : ∀ i, Watched s.server (s.objects i)) (hg : InTime s a)
    (h : step childNodeName s a = some t) : ∀ i, Watched t.server (t.objects i) := by
  have hserver := watched_setServer hi
  cases a with
  | init i f =>
    simp only [step] at h
    split at h
    · cases h
    · split at h <;> cases h
      · exact forall_setObject (hserver _) ((hserver _ i).of_same rfl rfl rfl rfl)
      · exact forall_setObject (hserver _) ((hserver _ i).of_same rfl rfl rfl rfl)
      · exact hserver _
  | lock i isRead =>
    simp only [step] at h
    split at h <;> cases h
    exact forall_setObject hi (.of_not_waits rfl)
  | createChild i f =>
    simp only [step] at h
    split at h
    · split at h <;> cases h
      · exact forall_setObject (hserver _) (.of_not_waits rfl)
      · exact forall_setObject (hserver _) (.of_not_waits rfl)
    · cases h
  | getChildren i f sorted =>
    simp only [step] at h
    split at h
    · split at h
      · split at h
        · split at h <;> cases h
          · exact forall_setObject hi (.of_not_waits (by unfold DistriSharedLock.granted; split <;> rfl))
          · exact forall_setObject hi (.of_not_waits (by unfold DistriSharedLock.blocked; split <;> rfl))
        · cases h
      · cases h
        exact forall_setObject hi (.of_not_waits rfl)
    · cases h
  | regNodeWatcher i ok =>
    simp only [step] at h
    split at h
    · rename_i isRead retPath hpc
      have hthere := hg (isRead, retPath) (by rw [hpc]; rfl)
      split at h <;> cases h
      · apply forall_setObject hi
        intro w hw
        cases hw
        exact ⟨List.mem_append_right _ List.mem_cons_self,
          fun hgone => absurd (hthere.symm.trans hgone) (by simp)⟩
      · exact forall_setObject hi (.of_not_waits rfl)
    · cases h
  | wait i =>
    simp only [step] at h
    split at h <;> cases h
    rename_i hpc
    exact forall_setObject hi ((hi i).of_same (by simp [hpc, Pc.waits]) rfl rfl rfl)
  | wake i =>
    simp only [step] at h
    split at h <;> cases h
    exact forall_setObject hi (.of_not_waits rfl)
  | callback i =>
    simp only [step] at h
    split at h <;> cases h
    rename_i hinbox
    exact forall_setObject hi ((hi i).callback hinbox hg)
  | unlock i =>
    simp only [step] at h
    split at h
    · rename_i hidle
      obtain ⟨o, ho, rfl⟩ := Option.map_eq_some_iff.mp h
      have hnone := (unlock_held hidle.2 ho).2.1
      apply forall_setObject hi
      apply Watched.of_not_waits
      cases hpc : o.pc <;> simp_all [Pc.ticket, Pc.waits]
    · cases h
  | list i f =>
    simp only [step] at h
    split at h
    · split at h <;> cases h
      · exact forall_setObject hi (.of_not_waits rfl)
      · exact forall_setObject hi (.of_not_waits rfl)
    · cases h
  | delete i f =>
    simp only [step] at h
    split at h <;> cases h
    exact forall_setObject (hserver _) (.of_not_waits rfl)
  | drop path =>
    simp only [step] at h
    split at h <;> cases h
    exact hserver _
  | retry i =>
    cases h
    exact forall_setObject hi (.of_not_waits hg)

/-- **No lost notification.** Where the node is there when it is registered for, its deletion is not reported
before the thread waits, and the session of one that waits lasts, whoever waits for a node that is gone is still to
be told. -/
theorem told_throughout (childNodeName : ι → Text) (server : Server) {as : List (Act ι)}
    (h : Lts.Along (step childNodeName) InTime (St.initial ι server) as) :
    Lts.Throughout (step childNodeName) NoneStranded (St.initial ι server) as :=
  Lts.throughout_of_along (I := fun s => ∀ i, Watched s.server (s.objects i)) (fun _ _ _ hi hg => step_watched hi hg)
    (fun _ => noneStranded_of_watched) (fun _ => .of_not_waits rfl) h

instance (o : DistriSharedLock) : Decidable o.Missed := by unfold DistriSharedLock.Missed; split <;> infer_instance

instance (s : St ι) : (a : Act ι) → Decidable (InTime s a)
  | .regNodeWatcher i _ =>
    inferInstanceAs (Decidable (∀ x ∈ (s.objects i).pc.behind, s.server.has ((s.objects i).leastNodePath x.1)))
  | .callback i => inferInstanceAs (Decidable (¬ (s.objects i).Missed))
  | .retry i => inferInstanceAs (Decidable ((s.objects i).pc.waits = none))
  | .init .. | .lock .. | .createChild .. | .getChildren .. | .wait _ | .wake _ | .unlock _ | .list .. | .delete ..
  | .drop _ => isTrue trivial

instance [Fintype ι] (s : St ι) : Decidable (NoneStranded s) :=
  inferInstanceAs (Decidable (∀ i, ∀ w ∈ (s.objects i).awaited, s.server.has w.2 = false → w ∈ (s.objects i).inbox))

end

theorem told_handedOver : Lts.Throughout (step fun _ => rwlock.name) NoneStranded (St.initial Bool bareServer)
    (contended ++ [.wait false] ++ released ++ woken) :=
  told_throughout (fun _ => rwlock.name) bareServer (by decide +kernel)

/-- The lock is released, and its release reported, before the other thread waits: it is never woken. -/
theorem not_told_early : ¬ Lts.Throughout (step fun _ => rwlock.name) NoneStranded (St.initial Bool bareServer)
    (contended ++ released ++ [.callback false, .wait false]) := by
  apply Lts.not_throughout
  decide +kernel

/-- The session of the one who waits expires, and the new handle has no watch on the node. -/
theorem not_told_replaced : ¬ Lts.Throughout (step fun _ => rwlock.name) NoneStranded (St.initial Bool bareServer)
    (contended ++ [.wait false, .retry false] ++ released) := by
  apply Lts.not_throughout
  decide +kernel

end ZkCppClient.Recipes.SharedLock
