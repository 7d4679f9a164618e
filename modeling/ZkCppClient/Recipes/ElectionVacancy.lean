import ZkCppClient.Recipes.Election

/-!
# Vacancies

An object that watches learns that there is no master, and tries to become it:
with the child list that it is still to be called with, or by a request that it
is about to send.
-/

namespace ZkCppClient.Recipes.Election

open SlashPath Ops

def parentName : Name := ⟨"master_election", by decide⟩

def MasterElection.Retries (o : MasterElection) : Prop := ∃ thread, o.pc thread = .creating

instance (o : MasterElection) : Decidable o.Retries := inferInstanceAs (Decidable (∃ thread, o.pc thread = .creating))

abbrev MasterElection.Waits (o : MasterElection) : Prop := o.watch.isWatched ∧ ¬ o.Retries

/-- There is a master's node, or the object is to be told that there is not, or about to try. -/
def MasterElection.Notices (server : Server) (o : MasterElection) : Prop :=
  o.watch.isWatched → server.has childPath = false → o.watch.Told ("binding" ∉ ·) ∨ o.Retries

instance (server : Server) (o : MasterElection) : Decidable (o.Notices server) :=
  inferInstanceAs (Decidable (o.watch.isWatched → server.has childPath = false → o.watch.Told ("binding" ∉ ·) ∨ o.Retries))

section
variable {ι : Type*}

def AllNotice (s : St ι) : Prop := ∀ i, (s.objects i).Notices s.server

/-- A request makes the node or finds it, and a change is lost only to those about to try. -/
def Answered (s : St ι) : Act ι → Prop
  | .create _ _ f =>
    (createOn f s.server childPath true false).1 = .kZKSucceed ∨ (createOn f s.server childPath true false).1 = .kZKExisted
  | .watch i e => e = .lost → (s.objects i).Retries
  | _ => True

/-- Answered, and a change of the child list is caught by all who watch and are not about to try anyway. -/
abbrev Attended [DecidableEq ι] (s : St ι) (a : Act ι) : Prop := Recipes.Attended MasterElection.Waits step Answered s a

abbrev AllWatched (s : St ι) : Prop := AllHeard MasterElection.Waits (fun _ => ("binding" ∉ ·)) s

end

section
variable {server : Server} {o : MasterElection} {thread : Thread} {pc : Pc}

theorem mem_children : "binding" ∈ children MasterElection server ↔ server.has childPath = true :=
  mem_getChildren (m := parentName) (k := []) (by decide)

theorem notices_of_heard (h : Heard MasterElection.Waits ("binding" ∉ ·) server o) : o.Notices server := by
  intro hwatched hgone
  by_cases hretries : o.Retries
  · exact .inr hretries
  · refine .inl (h ⟨hwatched, hretries⟩ fun hthere => ?_)
    rw [mem_children, hgone] at hthere
    cases hthere

theorem heard_of_has (h : server.has childPath = true) : Heard MasterElection.Waits ("binding" ∉ ·) server o :=
  fun _ hgone => absurd (mem_children.mpr h) hgone

theorem waits_of_setPc (hold : o.pc thread ≠ .creating) (h : (o.setPc thread pc).Waits) : o.Waits := by
  refine ⟨h.1, fun ⟨thread', hpc⟩ => h.2 ⟨thread', ?_⟩⟩
  rw [setPc_pc, if_neg, hpc]
  rintro rfl
  exact hold hpc

theorem not_waits_of_retries (h : o.Retries) : ¬ o.Waits := fun hwaits => hwaits.2 h

theorem not_waits_gone : ¬ o.gone.Waits := fun hwaits => absurd hwaits.1 (by simp [MasterElection.gone])

theorem heard_callback {childNodes : List String} {watch : ChildWatch} {n : Nat}
    (h : Heard MasterElection.Waits ("binding" ∉ ·) server o) (hpop : o.watch.pop n = some (childNodes, watch)) :
    Heard MasterElection.Waits ("binding" ∉ ·) server (regChildWatcher_cb { o with watch } childNodes) := by
  unfold regChildWatcher_cb
  by_cases hmem : "binding" ∈ childNodes
  · rw [if_pos hmem]
    refine h.pop hpop (not_not_intro hmem) (fun hwaits => ⟨?_, hwaits.2⟩) rfl
    rw [← ChildWatch.pop_isWatched hpop]
    exact hwaits.1
  · rw [if_neg hmem]
    exact .of_not_waits (not_waits_of_retries ⟨.notifier, by simp [setPc_pc]⟩)

end

section
variable {ι : Type*} {s : St ι} {server : Server}

theorem AllWatched.changed (h : AllWatched s) (hc : Caught MasterElection.Waits s server) :
    AllWatched (s.setServer server) := by
  refine h.setServer hc fun i hwaits => ⟨?_, hwaits.2⟩
  have hwatched : ((s.objects i).watch.change _ _).isWatched = true := hwaits.1
  rwa [ChildWatch.change_isWatched] at hwatched

end

section
variable {ι : Type*} [DecidableEq ι] {s t : St ι}

theorem step_watched {a : Act ι} (hi : AllWatched s) (hg : Attended s a) (h : step s a = some t) : AllWatched t := by
  obtain ⟨hmade, hcaught⟩ := hg
  have hcaught := hcaught t h
  cases a with
  | init i f =>
    simp only [step] at h
    split at h
    · cases h
    · have hdone : ∀ {server}, Caught MasterElection.Waits s server → AllWatched
          ((s.setServer server).setObject i { (s.setServer server).objects i with isInit := true }) :=
        fun hc => (hi.changed hc).setObject (hi.changed hc i)
      split at h <;> cases h
      · exact hdone hcaught
      · exact hdone hcaught
      · exact hi.changed hcaught
  | start i registered =>
    simp only [step] at h
    split at h
    · split at h <;> cases h
      · exact hi.moved (not_waits_of_retries ⟨.caller, by simp [setPc_pc]⟩)
      · exact hi
    · cases h
  | create i thread f =>
    have hthere : t.server.has childPath = true := by
      simp only [step] at h
      split at h
      · cases hc : createOn f s.server childPath true false with
        | mk ec r =>
          obtain ⟨ret, server⟩ := r
          have hmade : ec = .kZKSucceed ∨ ec = .kZKExisted := by
            have hcode : (createOn f s.server childPath true false).1 = .kZKSucceed ∨
                (createOn f s.server childPath true false).1 = .kZKExisted := hmade
            rwa [hc] at hcode
          rw [hc] at h
          have hserver : t.server = server := by
            split at h <;> cases h <;> rfl
          rw [hserver]
          rcases hmade with rfl | rfl
          · obtain ⟨created, -, hmakes⟩ := createOn_succeed hc
            refine hmakes.has.mpr (.inl ?_)
            rw [hmakes.created_eq, cString_childPath]
          · obtain ⟨hthere, rfl⟩ := createOn_existed hc
            rwa [cString_childPath] at hthere
      · cases h
    exact fun j => heard_of_has hthere
  | setMaster i thread =>
    simp only [step] at h
    split at h
    · rename_i isMaster hpc
      split at h <;> cases h
      exact hi.setObject ((hi i).of_same (fun hwaits => waits_of_setPc (by simp [hpc]) hwaits) rfl)
    · cases h
  | watch i e =>
    simp only [step] at h
    obtain ⟨watch, hs, rfl⟩ := Option.map_eq_some_iff.mp h
    refine hi.setObject ((hi i).step hs ?_ (fun _ _ => List.not_mem_nil) fun hwaits he => hwaits.2 (hmade he))
    refine fun hwaits => ⟨?_, hwaits.2⟩
    rw [← ChildWatch.step_isWatched hs]
    exact hwaits.1
  | callback i n =>
    simp only [step] at h
    split at h
    · obtain ⟨⟨childNodes, watch⟩, hpop, rfl⟩ := Option.map_eq_some_iff.mp h
      exact hi.setObject (heard_callback (hi i) hpop)
    · cases h
  | destroy i =>
    simp only [step] at h
    split at h <;> cases h
    rename_i hidle
    exact hi.setObject ((hi i).of_same (waits_of_setPc (by simp [hidle.2])) rfl)
  | list i f =>
    simp only [step] at h
    split at h
    · rename_i hpc
      split at h <;> cases h
      · exact hi.setObject ((hi i).of_same (waits_of_setPc (by simp [hpc])) rfl)
      · exact hi.moved not_waits_gone
    · cases h
  | delete i f =>
    simp only [step] at h
    split at h <;> cases h
    exact (hi.changed hcaught).moved not_waits_gone
  | drop path =>
    simp only [step] at h
    split at h <;> cases h
    exact hi.changed hcaught

/-- **No lasting vacancy.** Where every request for the node makes or finds it, and the watches catch the changes
of the child list, in every state without a master's node all the objects that watch are still to be
told of that, or about to ask for the node. -/
theorem allNotice_throughout (server : Server) {as : List (Act ι)}
    (h : Lts.Along step Attended (St.initial ι server) as) :
    Lts.Throughout step AllNotice (St.initial ι server) as :=
  Lts.throughout_of_along (fun _ _ _ hi hg => step_watched hi hg) (fun _ hi i => notices_of_heard (hi i))
    (fun _ => .of_not_waits fun hwaits => absurd hwaits.1 Bool.false_ne_true) h

instance [Fintype ι] (s : St ι) : Decidable (AllNotice s) := inferInstanceAs (Decidable (∀ i, (s.objects i).Notices s.server))

instance (s : St ι) : (a : Act ι) → Decidable (Answered s a)
  | .create _ _ f => inferInstanceAs (Decidable ((createOn f s.server childPath true false).1 = .kZKSucceed ∨
      (createOn f s.server childPath true false).1 = .kZKExisted))
  | .watch i e => inferInstanceAs (Decidable (e = .lost → (s.objects i).Retries))
  | .init .. | .start .. | .setMaster .. | .callback .. | .destroy _ | .list .. | .delete .. | .drop _ =>
    isTrue trivial

end

theorem allNotice_succeeded : Lts.Throughout step AllNotice (St.initial Bool bareServer) (elected ++ succeeded) :=
  allNotice_throughout bareServer (by decide +kernel)

/-- The request of the only object left fails, and there is no other. -/
theorem not_allNotice_failed : ¬ Lts.Throughout step AllNotice (St.initial Bool bareServer)
    (elected ++ [.destroy true, .list true .answered, .delete true .answered, .watch false (.read true),
      .callback false 0, .create false .notifier .unconnected]) := by
  apply Lts.not_throughout
  decide +kernel

end ZkCppClient.Recipes.Election
