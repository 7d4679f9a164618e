import ZkCppClient.Watch.Machine

/-!
# The user's last word

`autoRegNodeWatcher` copies the stored entry of its path, waits for the answer
to a registration and stores the copy. What the user has said of the path in
between is overwritten: a cancelled watch comes back, and a replaced handler
replaces its replacement.
-/

namespace ZkCppClient.Watch

abbrev Word := Option (Nat × Nat)

/-- The last registration of the path that returned true, or the last cancellation. -/
def lastWord (k : Kind) (p : Path) (w : Word) (s : St) : Act → Word
  | .regReturn i =>
    match s.replied[i]? with
    | some (ctx, true) => if ctx.on k p then some (ctx.handler, ctx.context) else w
    | _ => w
  | .cancel k' p' => if k' = k ∧ p' = p then none else w
  | _ => w

def stored (k : Kind) (p : Path) (s : St) : Word := (s.datas k p).map fun data => (data.handler, data.context)

def spoken (k : Kind) (p : Path) : St × Word → Act → Option (St × Word) := Lts.withHistory step (lastWord k p)

def LastWordWins (k : Kind) (p : Path) (x : St × Word) : Prop := stored k p x.1 = x.2

def SecondPc.storing (k : Kind) (p : Path) : SecondPc → Option WatchData
  | .returned k' _ data true => if k = k' ∧ p = data.path then some data else none
  | _ => none

/-- What a re-registration has copied still stands when it is stored. -/
def CopyStands (k : Kind) (p : Path) (x : St × Word) : Act → Prop
  | .second => ∀ data ∈ x.1.second.storing k p, stored k p x.1 = some (data.handler, data.context)
  | _ => True

instance (k : Kind) (p : Path) (x : St × Word) : Decidable (LastWordWins k p x) := inferInstanceAs (Decidable (_ = _))

instance (k : Kind) (p : Path) (x : St × Word) : ∀ a, Decidable (CopyStands k p x a)
  | .second => inferInstanceAs (Decidable (∀ _ ∈ _, _))
  | .foreign _ | .serve _ | .fail _ _ | .session _ _ _ | .deliver _ | .dispatch _ _ | .timer _ | .reg _ _ _ _
  | .regReturn _ | .cancel _ _ | .expire | .retry _ => isTrue trivial

section
variable {k : Kind} {p : Path} {s t : St} {w : Word}

theorem stored_setWatchData (k' : Kind) (path : Path) (data : Option WatchData) :
    stored k p (s.setWatchData k' path data) =
      if k = k' ∧ p = path then data.map fun data => (data.handler, data.context) else stored k p s := by
  unfold stored St.setWatchData
  dsimp only
  split <;> rfl

theorem lastWordWins_step {a : Act} (hi : stored k p s = w) (hg : CopyStands k p (s, w) a) (h : step s a = some t) :
    stored k p t = lastWord k p w s a := by
  cases step_inv h with
  | @session zh state watchersFirst _ _ =>
    show (((s.session zh state watchersFirst).datas k p).map _) = w
    rw [session_datas]
    exact hi
  | @autoStored k' p' data hs =>
    show stored k p (s.setWatchData k' data.path (some (.ofContext (data.toContext k')))) = w
    rw [stored_setWatchData]
    split
    · rename_i heq
      have hstands := hg data (by rw [hs]; exact if_pos heq)
      exact hstands.symm.trans hi
    · exact hi
  | @regStored i ctx hr =>
    show stored k p (St.setWatchData _ ctx.kind ctx.path (some (.ofContext ctx))) = _
    rw [stored_setWatchData, lastWord, hr]
    dsimp only
    by_cases hon : ctx.on k p
    · rw [if_pos hon, if_pos ⟨hon.1.symm, hon.2.symm⟩]
      rfl
    · rw [if_neg hon, if_neg fun heq => hon ⟨heq.1.symm, heq.2.symm⟩]
      exact hi
  | @regFailed i ctx hr =>
    rw [lastWord, hr]
    exact hi
  | cancel k' p' =>
    rw [stored_setWatchData]
    show _ = if k' = k ∧ p' = p then none else w
    by_cases heq : k' = k ∧ p' = p
    · rw [if_pos heq, if_pos ⟨heq.1.symm, heq.2.symm⟩]
      rfl
    · rw [if_neg heq, if_neg fun h => heq ⟨h.1.symm, h.2.symm⟩]
      exact hi
  | _ => exact hi

theorem not_lastWordWins_of_overwritten {a : Act} (hi : stored k p s = w) (hg : ¬ CopyStands k p (s, w) a)
    (h : step s a = some t) : stored k p t ≠ lastWord k p w s a := by
  cases a with
  | second =>
    intro heq
    apply hg
    intro data hd
    obtain ⟨k', p', hs, hk, hp⟩ : ∃ k' p', s.second = .returned k' p' data true ∧ k = k' ∧ p = data.path := by
      unfold SecondPc.storing at hd
      split at hd
      · rename_i k' p' data' hs
        split at hd
        · rename_i hon
          cases hd
          exact ⟨k', p', hs, hon⟩
        · cases hd
      · cases hd
    have ht : t = { s.setWatchData k' data.path (some (.ofContext (data.toContext k'))) with second := .idle } := by
      simpa only [step, St.secondStep, hs, Option.some.injEq, eq_comm] using h
    have hnew : stored k p t = some (data.handler, data.context) := by
      rw [ht]
      show stored k p (s.setWatchData k' data.path _) = _
      rw [stored_setWatchData, if_pos ⟨hk, hp⟩]
      rfl
    exact hi.trans (heq.symm.trans hnew)
  | _ => exact absurd trivial hg

/-- **The last word.** In every run, the stored entry of a path is what the user
said of it last in every state just when every copy that is stored still stands. -/
theorem lastWordWins_iff {nodes : Tree} {acts : List Act} (hrun : Lts.run step (St.initial nodes) acts = some t) :
    Lts.Throughout (spoken k p) (LastWordWins k p) (St.initial nodes, none) acts ↔
      Lts.Along (spoken k p) (CopyStands k p) (St.initial nodes, none) acts := by
  obtain ⟨w, hspoken⟩ := Lts.run_withHistory (lastWord k p) none hrun
  refine Lts.throughout_iff_along (I := LastWordWins k p) ?_ (fun _ hi => hi) ?_ rfl hspoken
  · intro x a y hi hg h
    obtain ⟨hstep, hword⟩ := Lts.withHistory_some h
    exact (lastWordWins_step hi hg hstep).trans hword.symm
  · intro x a y hi hg h heq
    obtain ⟨hstep, hword⟩ := Lts.withHistory_some h
    exact not_lastWordWins_of_overwritten hi hg hstep (heq.trans hword)

end

theorem lastWordWins_replaced : Lts.Throughout (spoken .node ["a"]) (LastWordWins .node ["a"]) (St.initial oneNode, none)
    (registered ++ setNode ++ autoRegSent ++ [.serve 0, .serve 0, .second, .reg .node ["a"] (some 2) 7, .serve 0,
      .regReturn 0]) :=
  (lastWordWins_iff (t := (Lts.run step (St.initial oneNode)
    (registered ++ setNode ++ autoRegSent ++ [.serve 0, .serve 0, .second, .reg .node ["a"] (some 2) 7, .serve 0,
      .regReturn 0])).get (by decide)) (by simp)).mpr (by decide)

/-- The user cancels while the re-registration waits for its answer, and the
cancelled entry is stored again. -/
theorem not_lastWordWins_cancelled : ¬ Lts.Throughout (spoken .node ["a"]) (LastWordWins .node ["a"])
    (St.initial oneNode, none)
    (registered ++ setNode ++ autoRegSent ++ [.serve 0, .serve 0, .cancel .node ["a"], .second]) := by
  apply Lts.not_throughout
  decide

end ZkCppClient.Watch
