import ZkCppClient.Ops.CreateAgree

/-!
# Whether the creation of directories ends

`createPersistentDir` calls itself on the unchanged path when the parent has been
made. Where another client deletes what has just been made it begins again, and
nothing counts how often.
-/

namespace ZkCppClient.Ops

open SlashPath

/-- The requests are answered in turn; `none` is a connection that is lost before the request. -/
def answering (answers : Nat → Option Rc) : CreateEnv Nat where
  isConnected n := ((answers n).isSome, n)
  zooCreate n _ _ _ := (((answers n).getD .zok, ""), n + 1)
  zooAcreate n _ _ _ := (.zok, n)
  createReply n _ := ((.zok, ""), n)

def outcome : Option Rc → ZkErrorCode
  | none => .kZKLostConnection
  | some .zok => .kZKSucceed
  | some .znonode => .kZKNotExist
  | some .znodeexists => .kZKExisted
  | some _ => .kZKError

def slashes (path : String) : Nat := path.toList.count '/'

def weight : ZkErrorCode → Int
  | .kZKNotExist => 1
  | .kZKSucceed | .kZKExisted => -1
  | _ => 0

/-- How many more of the first `n` answers found a parent missing than found or made a node. -/
def missing (answers : Nat → Option Rc) : Nat → Int
  | 0 => 0
  | n + 1 => missing answers n + weight (outcome (answers n))

/-- After `n` requests: the connection is lost, or a request has failed, or more nodes are there than
were missing, or more are missing than the path has slashes. -/
def Stops (answers : Nat → Option Rc) (slashes n : Nat) : Prop :=
  answers n = none ∨ (∃ i < n, outcome (answers i) = .kZKError) ∨ missing answers n < 0 ∨ slashes < missing answers n

def EndsWithin (answers : Nat → Option Rc) (path : String) (bound : Nat) : Prop :=
  ∃ fuel made n, createPersistentDir (answering answers) fuel 0 path = some (made, n) ∧ n ≤ bound

/-! ## Paths -/

theorem slashes_none {path : String} (h : parentDir path = none) : slashes path = 0 := by
  unfold parentDir splitLast at h
  dsimp only at h
  split at h
  · rename_i hdrop
    refine List.count_eq_zero.mpr fun hmem => ?_
    have hall := List.dropWhile_eq_nil_iff.mp hdrop '/' (List.mem_reverse.mpr hmem)
    simp at hall
  · cases h

theorem slashes_some {path parent : String} (h : parentDir path = some parent) : slashes path = slashes parent + 1 := by
  obtain ⟨⟨p, leaf⟩, hsplit, rfl⟩ := Option.map_eq_some_iff.mp h
  obtain ⟨hpath, hleaf⟩ := splitLast_eq_some hsplit
  have hnone : leaf.toList.count '/' = 0 := List.count_eq_zero.mpr hleaf
  rw [hpath, slashes, slashes, String.toList_append, String.toList_append, List.count_append, List.count_append, hnone]
  rfl

section
variable {answers : Nat → Option Rc}

theorem outcome_cases (answer : Option Rc) : answer = none ∨ weight (outcome answer) = -1 ∨
    outcome answer = .kZKNotExist ∨ outcome answer = .kZKError := by
  cases answer with
  | none => exact .inl rfl
  | some rc => cases rc <;> simp [outcome, weight]

theorem createPersistentDirNode_answering (n : Nat) (path : String) :
    createPersistentDirNode (answering answers) n path =
      (outcome (answers n), if (answers n).isSome then n + 1 else n) := by
  cases h : answers n with
  | none => simp [createPersistentDirNode, answering, h, outcome]
  | some rc => cases rc <;> simp [createPersistentDirNode, answering, h, outcome]

section
variable {fuel n : Nat} {path : String}

theorem run_made (h : weight (outcome (answers n)) = -1) :
    createPersistentDir (answering answers) (fuel + 1) n path = some (true, n + 1) := by
  rw [createPersistentDir, createPersistentDirNode_answering]
  cases ha : answers n with
  | none => rw [ha] at h; cases h
  | some rc => rw [ha] at h; cases rc <;> first | rfl | cases h

theorem run_lost (h : answers n = none) :
    createPersistentDir (answering answers) (fuel + 1) n path = some (false, n) := by
  rw [createPersistentDir, createPersistentDirNode_answering, h]
  rfl

theorem run_failed (h : outcome (answers n) = .kZKError) :
    createPersistentDir (answering answers) (fuel + 1) n path = some (false, n + 1) := by
  have hsome : (answers n).isSome = true := by
    cases ha : answers n with
    | none => rw [ha] at h; cases h
    | some rc => rfl
  rw [createPersistentDir, createPersistentDirNode_answering, h, hsome]
  rfl

theorem run_missing (h : outcome (answers n) = .kZKNotExist) :
    createPersistentDir (answering answers) (fuel + 1) n path =
      match parentDir path with
      | none => some (false, n + 1)
      | some parent =>
        match createPersistentDir (answering answers) fuel (n + 1) parent with
        | none => none
        | some (true, n) => createPersistentDir (answering answers) fuel n path
        | some (false, n) => some (false, n) := by
  have hsome : (answers n).isSome = true := by
    cases ha : answers n with
    | none => rw [ha] at h; cases h
    | some rc => rfl
  rw [createPersistentDir, createPersistentDirNode_answering, h, hsome]
  dsimp only
  cases parentDir path with
  | none => rfl
  | some parent =>
    rw [if_pos rfl]
    dsimp only
    cases createPersistentDir (answering answers) fuel (n + 1) parent with
    | none => rfl
    | some r => obtain ⟨_ | _, _⟩ := r <;> rfl

end

/-! ## The calls -/

/-- A call on a path with `m` slashes, from request `n` on, and what it returns after which request. -/
inductive Returns (answers : Nat → Option Rc) : Nat → Nat → Bool → Nat → Prop
  | made {m n} : weight (outcome (answers n)) = -1 → Returns answers m n true (n + 1)
  | lost {m n} : answers n = none → Returns answers m n false n
  | failed {m n} : outcome (answers n) = .kZKError → Returns answers m n false (n + 1)
  | noSlash {n} : outcome (answers n) = .kZKNotExist → Returns answers 0 n false (n + 1)
  | parentFailed {m n n'} : outcome (answers n) = .kZKNotExist → Returns answers m (n + 1) false n' →
      Returns answers (m + 1) n false n'
  | again {m n n₁ ret n'} : outcome (answers n) = .kZKNotExist → Returns answers m (n + 1) true n₁ →
      Returns answers (m + 1) n₁ ret n' → Returns answers (m + 1) n ret n'

theorem returns_of_run : ∀ {fuel n : Nat} {path : String} {ret : Bool} {n' : Nat},
    createPersistentDir (answering answers) fuel n path = some (ret, n') → Returns answers (slashes path) n ret n'
  | 0, _, _, _, _, h => by cases h
  | fuel + 1, n, path, ret, n', h => by
    rcases outcome_cases (answers n) with hout | hout | hout | hout
    · rw [run_lost hout] at h
      cases h
      exact .lost hout
    · rw [run_made hout] at h
      cases h
      exact .made hout
    · rw [run_missing hout] at h
      split at h
      · rename_i hparent
        cases h
        rw [slashes_none hparent]
        exact .noSlash hout
      · rename_i parent hparent
        rw [slashes_some hparent]
        split at h
        · cases h
        · rename_i n₁ hrun
          have hagain := returns_of_run h
          rw [slashes_some hparent] at hagain
          exact .again hout (returns_of_run hrun) hagain
        · rename_i n₁ hrun
          cases h
          exact .parentFailed hout (returns_of_run hrun)
    · rw [run_failed hout] at h
      cases h
      exact .failed hout

theorem createPersistentDir_mono {σ : Type*} (E : CreateEnv σ) : ∀ {fuel fuel' : Nat} {s : σ} {path : String}
    {r : Bool × σ}, fuel ≤ fuel' → createPersistentDir E fuel s path = some r → createPersistentDir E fuel' s path = some r
  | 0, _, _, _, _, _, h => by cases h
  | fuel + 1, 0, _, _, _, hle, _ => absurd hle (Nat.not_succ_le_zero fuel)
  | fuel + 1, fuel' + 1, s, path, r, hle, h => by
    have hle := Nat.le_of_succ_le_succ hle
    rw [createPersistentDir] at h ⊢
    split at h <;> try exact h
    split at h
    · exact h
    · split at h
      · cases h
      · rename_i hrun
        rw [createPersistentDir_mono E hle hrun]
        exact createPersistentDir_mono E hle h
      · rename_i hrun
        rw [createPersistentDir_mono E hle hrun]
        exact h

theorem run_of_returns {m n n' : Nat} {ret : Bool} (h : Returns answers m n ret n') : ∀ {path : String}, slashes path = m →
    ∃ fuel, createPersistentDir (answering answers) fuel n path = some (ret, n') := by
  induction h with
  | made hout => exact fun _ => ⟨1, run_made hout⟩
  | lost hout => exact fun _ => ⟨1, run_lost hout⟩
  | failed hout => exact fun _ => ⟨1, run_failed hout⟩
  | noSlash hout =>
    intro path hm
    refine ⟨1, ?_⟩
    rw [run_missing hout]
    cases hparent : parentDir path with
    | none => rfl
    | some parent => rw [slashes_some hparent] at hm; cases hm
  | parentFailed hout _ ih =>
    intro path hm
    cases hparent : parentDir path with
    | none => rw [slashes_none hparent] at hm; cases hm
    | some parent =>
      rw [slashes_some hparent] at hm
      obtain ⟨fuel, hrun⟩ := ih (Nat.succ.inj hm)
      refine ⟨fuel + 1, ?_⟩
      rw [run_missing hout, hparent]
      dsimp only
      rw [hrun]
  | again hout _ _ ih₁ ih₂ =>
    intro path hm
    cases hparent : parentDir path with
    | none => rw [slashes_none hparent] at hm; cases hm
    | some parent =>
      obtain ⟨fuel₂, hrun₂⟩ := ih₂ hm
      rw [slashes_some hparent] at hm
      obtain ⟨fuel₁, hrun₁⟩ := ih₁ (Nat.succ.inj hm)
      -- fuel that is enough for the parent and for the second try
      refine ⟨max fuel₁ fuel₂ + 1, ?_⟩
      rw [run_missing hout, hparent]
      dsimp only
      rw [createPersistentDir_mono _ (Nat.le_max_left _ _) hrun₁]
      exact createPersistentDir_mono _ (Nat.le_max_right _ _) hrun₂

/-! ## The requests of a call -/

theorem Returns.of_true {m n n' : Nat} {ret : Bool} (h : Returns answers m n ret n') (hret : ret = true) :
    n < n' ∧ missing answers n' = missing answers n - 1 ∧ ∀ i, n ≤ i → i < n' → outcome (answers i) ≠ .kZKError := by
  induction h with
  | made hout =>
    refine ⟨Nat.lt_succ_self _, by rw [missing, hout]; rfl, fun i hle hlt => ?_⟩
    rw [Nat.le_antisymm (Nat.le_of_lt_succ hlt) hle]
    intro he
    rw [he] at hout
    cases hout
  | again hout _ _ ih₁ ih₂ =>
    obtain ⟨hlt₁, hmissing₁, hok₁⟩ := ih₁ rfl
    obtain ⟨hlt₂, hmissing₂, hok₂⟩ := ih₂ hret
    rename_i m n n₁ ret n' _ _
    have hone : missing answers (n + 1) = missing answers n + 1 := by rw [missing, hout]; rfl
    refine ⟨by omega, by omega, fun i hle hlt => ?_⟩
    by_cases hin : i = n
    · subst hin
      rw [hout]
      nofun
    · by_cases hi : i < n₁
      · exact hok₁ i (by omega) hi
      · exact hok₂ i (by omega) hlt
  | lost _ | failed _ | noSlash _ | parentFailed _ _ _ => cases hret

theorem Returns.of_false {m n n' : Nat} {ret : Bool} (h : Returns answers m n ret n') (hret : ret = false) :
    n ≤ n' ∧ (answers n' = none ∨ (∃ i, n ≤ i ∧ i < n' ∧ outcome (answers i) = .kZKError) ∨
      missing answers n + m < missing answers n') := by
  induction h with
  | made _ => cases hret
  | lost hout => exact ⟨Nat.le_refl _, .inl hout⟩
  | failed hout => exact ⟨Nat.le_succ _, .inr (.inl ⟨_, Nat.le_refl _, Nat.lt_succ_self _, hout⟩)⟩
  | noSlash hout =>
    refine ⟨Nat.le_succ _, .inr (.inr ?_)⟩
    rw [missing, hout]
    exact Int.lt_add_one_of_le (Int.le_of_eq (Int.add_zero _))
  | @parentFailed m n n' hout _ ih =>
    have hone : missing answers (n + 1) = missing answers n + 1 := by rw [missing, hout]; rfl
    obtain ⟨hle, hlost | ⟨i, hi, hlt, herr⟩ | habove⟩ := ih rfl
    · exact ⟨by omega, .inl hlost⟩
    · exact ⟨by omega, .inr (.inl ⟨i, by omega, hlt, herr⟩)⟩
    · exact ⟨by omega, .inr (.inr (by omega))⟩
  | @again m n n₁ ret n' hout h₁ _ _ ih =>
    have hone : missing answers (n + 1) = missing answers n + 1 := by rw [missing, hout]; rfl
    obtain ⟨hlt₁, hmissing₁, -⟩ := h₁.of_true rfl
    obtain ⟨hle, hlost | ⟨i, hi, hlt, herr⟩ | habove⟩ := ih hret
    · exact ⟨by omega, .inl hlost⟩
    · exact ⟨by omega, .inr (.inl ⟨i, by omega, hlt, herr⟩)⟩
    · exact ⟨by omega, .inr (.inr (by omega))⟩

theorem Returns.stops {m n : Nat} {ret : Bool} (h : Returns answers m 0 ret n) : Stops answers m n := by
  cases ret with
  | true =>
    obtain ⟨-, hmissing, -⟩ := h.of_true rfl
    exact .inr (.inr (.inl (by rw [hmissing, missing]; decide)))
  | false =>
    obtain ⟨-, hlost | ⟨i, -, hlt, herr⟩ | habove⟩ := h.of_false rfl
    · exact .inl hlost
    · exact .inr (.inl ⟨i, hlt, herr⟩)
    · rw [missing, Int.zero_add] at habove
      exact .inr (.inr (.inr habove))

theorem returns_of_stops (answers : Nat → Option Rc) (N : Nat) : ∀ (d m n : Nat), n + d = N →
    (answers N = none ∨ (∃ i, n ≤ i ∧ i < N ∧ outcome (answers i) = .kZKError) ∨
      missing answers N < missing answers n ∨ missing answers n + m < missing answers N) →
    ∃ ret n', Returns answers m n ret n' ∧ n' ≤ N := by
  intro d
  induction d using Nat.strong_induction_on with
  | _ d ih =>
  intro m n hN hstops
  have hrest : answers n ≠ none → n + 1 ≤ N := by
    intro hsome
    rcases hstops with hlost | ⟨i, hi, hlt, -⟩ | hbelow | habove
    · refine Nat.lt_of_le_of_ne (by omega) fun heq => hsome (heq ▸ hlost)
    · omega
    · refine Nat.lt_of_le_of_ne (by omega) fun heq => ?_
      rw [heq] at hbelow
      omega
    · refine Nat.lt_of_le_of_ne (by omega) fun heq => ?_
      rw [heq] at habove
      omega
  have hsome : ∀ {ec}, outcome (answers n) = ec → ec ≠ .kZKLostConnection → answers n ≠ none := by
    intro ec hec hne hnone
    rw [hnone] at hec
    exact hne hec.symm
  rcases outcome_cases (answers n) with hout | hout | hout | hout
  · exact ⟨false, n, .lost hout, by omega⟩
  · refine ⟨true, n + 1, .made hout, hrest (hsome rfl fun he => ?_)⟩
    rw [he] at hout
    cases hout
  · have hlt := hrest (hsome hout nofun)
    have hone : missing answers (n + 1) = missing answers n + 1 := by rw [missing, hout]; rfl
    cases m with
    | zero => exact ⟨false, n + 1, .noSlash hout, hlt⟩
    | succ m =>
      -- what stops the call stops the one on the parent, unless that returns true before
      have hparent := ih (d - 1) (by omega) m (n + 1) (by omega) (by
        rcases hstops with hlost | ⟨i, hi, hi', herr⟩ | hbelow | habove
        · exact .inl hlost
        · refine .inr (.inl ⟨i, Nat.lt_of_le_of_ne hi fun heq => ?_, hi', herr⟩)
          rw [← heq, hout] at herr
          cases herr
        · exact .inr (.inr (.inl (by omega)))
        · exact .inr (.inr (.inr (by omega))))
      obtain ⟨ret, n₁, h₁, hle₁⟩ := hparent
      cases ret with
      | false => exact ⟨false, n₁, .parentFailed hout h₁, hle₁⟩
      | true =>
        obtain ⟨hlt₁, hmissing₁, hok₁⟩ := h₁.of_true rfl
        have hagain := ih (N - n₁) (by omega) (m + 1) n₁ (by omega) (by
          rcases hstops with hlost | ⟨i, hi, hi', herr⟩ | hbelow | habove
          · exact .inl hlost
          · refine .inr (.inl ⟨i, ?_, hi', herr⟩)
            refine Nat.le_of_not_lt fun hlt => ?_
            have hne : i ≠ n := by
              rintro rfl
              rw [hout] at herr
              cases herr
            exact hok₁ i (by omega) hlt herr
          · exact .inr (.inr (.inl (by omega)))
          · exact .inr (.inr (.inr (by omega))))
        obtain ⟨ret, n', h', hle'⟩ := hagain
        exact ⟨ret, n', .again hout h₁ h', hle'⟩
  · exact ⟨false, n + 1, .failed hout, hrest (hsome hout nofun)⟩

/-- **The end.** The call returns within `bound` requests, for any bound, just when one of the first
`bound` answers stops it. -/
theorem createPersistentDir_ends_iff (answers : Nat → Option Rc) (path : String) (bound : Nat) :
    EndsWithin answers path bound ↔ ∃ n ≤ bound, Stops answers (slashes path) n := by
  constructor
  · rintro ⟨fuel, made, n, hrun, hle⟩
    exact ⟨n, hle, (returns_of_run hrun).stops⟩
  · rintro ⟨N, hle, hstops⟩
    obtain ⟨ret, n, h, hn⟩ := returns_of_stops answers N N (slashes path) 0 (Nat.zero_add N) (by
      rcases hstops with hlost | ⟨i, hlt, herr⟩ | hbelow | habove
      · exact .inl hlost
      · exact .inr (.inl ⟨i, Nat.zero_le i, hlt, herr⟩)
      · exact .inr (.inr (.inl hbelow))
      · rw [missing, Int.zero_add]
        exact .inr (.inr (.inr habove)))
    obtain ⟨fuel, hrun⟩ := run_of_returns h rfl
    exact ⟨fuel, ret, n, hrun, Nat.le_trans hn hle⟩

/-! ## Where what is made stays -/

theorem missing_of_kept {m : Nat} (hkept : ∀ n, weight (outcome (answers n)) = -1 → outcome (answers (n + 1)) ≠ .kZKNotExist)
    (hno : ∀ n ≤ 2 * m + 1, ¬ Stops answers m n) : ∀ n ≤ 2 * m, missing answers (n + 1) = n + 1 ∨
      weight (outcome (answers n)) = -1 ∧ ∃ a : Nat, a ≤ m ∧ missing answers (n + 1) = 2 * a - (n + 1) := by
  intro n
  induction n with
  | zero =>
    intro _
    rcases outcome_cases (answers 0) with hout | hout | hout | hout
    · exact absurd (.inl hout) (hno 0 (by omega))
    · exact .inr ⟨hout, 0, Nat.zero_le m, by rw [missing, hout]; rfl⟩
    · exact .inl (by rw [missing, hout]; rfl)
    · exact absurd (.inr (.inl ⟨0, Nat.one_pos, hout⟩)) (hno 1 (by omega))
  | succ n ih =>
    intro hle
    rcases outcome_cases (answers (n + 1)) with hout | hout | hout | hout
    · exact absurd (.inl hout) (hno (n + 1) (by omega))
    · refine .inr ⟨hout, ?_⟩
      rw [missing, hout]
      rcases ih (by omega) with hall | ⟨-, a, ha, hmissing⟩
      · have hle : ¬ (m : Int) < missing answers (n + 1) :=
          fun habove => hno (n + 1) (by omega) (.inr (.inr (.inr habove)))
        exact ⟨n + 1, by omega, by rw [hall]; push_cast; omega⟩
      · exact ⟨a, ha, by rw [hmissing]; push_cast; omega⟩
    · rcases ih (by omega) with hall | ⟨hmade, -⟩
      · exact .inl (by rw [missing, hall, hout, weight]; push_cast; omega)
      · exact absurd hout (hkept n hmade)
    · exact absurd (.inr (.inl ⟨n + 1, Nat.lt_succ_self _, hout⟩)) (hno (n + 2) (by omega))

/-- Unless a parent is missing again right after it has been made, two requests for each slash and one more are enough. -/
theorem endsWithin_of_kept (path : String)
    (hkept : ∀ n, weight (outcome (answers n)) = -1 → outcome (answers (n + 1)) ≠ .kZKNotExist) :
    EndsWithin answers path (2 * slashes path + 1) := by
  rw [createPersistentDir_ends_iff]
  refine Classical.byContradiction fun hnone => ?_
  have hno : ∀ n ≤ 2 * slashes path + 1, ¬ Stops answers (slashes path) n := fun n hle hstops => hnone ⟨n, hle, hstops⟩
  have hlast := hno _ (Nat.le_refl _)
  rcases missing_of_kept hkept hno (2 * slashes path) (Nat.le_refl _) with hall | ⟨-, a, ha, hmissing⟩
  · exact hlast (.inr (.inr (.inr (by rw [hall]; push_cast; omega))))
  · exact hlast (.inr (.inr (.inl (by rw [hmissing]; push_cast; omega))))

end

/-! ## Where it is deleted again -/

def creationsUndone (path : String) : CreateEnv Link :=
  { creations with
    zooCreate := fun l p data flags =>
      let made := l.server.create p data flags
      (made.1, { l with server := if p = path then (made.2.delete path (-1)).2 else made.2 }) }

section
variable {s : Server} {n : Name} {k : Key} {node : Znode}

theorem undone_parent (fuel : Nat) (hk : s.tree.get k = some node) (he : node.ephemeral = false)
    (hnew : s.tree.get (n :: k) = none) : ∃ s' : Server, s'.tree.get k = some node ∧ s'.tree.get (n :: k) = none ∧
      createPersistentDir (creationsUndone (dir (n :: k))) (fuel + 1) s.idle (dir (n :: k)) = some (true, s'.idle) := by
  have hcreate : s.create (dir (n :: k)) none ⟨false, false⟩ = ((.zok, dir (n :: k)), s.insert n k dirNode (by rw [hk]; rfl)) :=
    create_ok none ⟨false, false⟩ n.property.2 (name_ne n) (nodeName_dir n) hk hnew he
  have hget : ∀ k', (s.insert n k dirNode (by rw [hk]; rfl)).tree.get k' =
      if k' = n :: k then some dirNode else s.tree.get k' := fun k' => NameTree.get_insert (by rw [hk]; rfl)
  have hne : k ≠ n :: k := fun h => absurd (congrArg List.length h) (by simp)
  -- the new node is a leaf, so the other client can delete it
  have hleaf : (s.insert n k dirNode (by rw [hk]; rfl)).tree.children (n :: k) = [] := by
    refine NameTree.children_eq_nil.mpr fun c => ?_
    rw [hget, if_neg fun h => absurd (congrArg List.length h) (by simp)]
    refine Option.not_isSome_iff_eq_none.mp fun hsome => ?_
    have hparent := NameTree.get_parent hsome
    rw [hnew] at hparent
    cases hparent
  have hversion : (-1 : Int32) = -1 ∨ (-1 : Int32) = dirNode.version := .inl rfl
  have hdelete := delete_leaf (by rw [hget, if_pos rfl]) hversion hleaf
  refine ⟨((s.insert n k dirNode (by rw [hk]; rfl)).delete (dir (n :: k)) (-1)).2, ?_, ?_, ?_⟩
  · rw [hdelete]
    show NameTree.get _ k = some node
    rw [NameTree.get_erase, if_neg hne, hget, if_neg hne, hk]
  · rw [hdelete]
    show NameTree.get _ (n :: k) = none
    rw [NameTree.get_erase, if_pos rfl]
  · have hnode : createPersistentDirNode (creationsUndone (dir (n :: k))) s.idle (dir (n :: k)) =
        (.kZKSucceed, ((s.insert n k dirNode (by rw [hk]; rfl)).delete (dir (n :: k)) (-1)).2.idle) := by
      simp only [createPersistentDirNode, creationsUndone, creations, Server.idle, hcreate, if_true]
    rw [createPersistentDir, hnode]

theorem undone_child (s : Server) (m : Name) (hnew : s.tree.get (n :: k) = none) :
    createPersistentDirNode (creationsUndone (dir (n :: k))) s.idle (dir (m :: n :: k)) = (.kZKNotExist, s.idle) := by
  have hcreate : s.create (dir (m :: n :: k)) none ⟨false, false⟩ = ((.znonode, ""), s) :=
    create_noParent m.property.2 (name_ne m) hnew
  have hne : dir (m :: n :: k) ≠ dir (n :: k) := by
    intro h
    have hkeys := congrArg parseDir h
    rw [parseDir_dir, parseDir_dir] at hkeys
    exact absurd (congrArg List.length (Option.some.inj hkeys)) (by simp)
  simp only [createPersistentDirNode, creationsUndone, creations, Server.idle, hcreate, hne, if_false]

theorem undone_none : ∀ (fuel : Nat) (s : Server) (m : Name), s.tree.get k = some node → node.ephemeral = false →
    s.tree.get (n :: k) = none →
    createPersistentDir (creationsUndone (dir (n :: k))) fuel s.idle (dir (m :: n :: k)) = none
  | 0, _, _, _, _, _ => rfl
  | fuel + 1, s, m, hk, he, hnew => by
    have hdir : parentDir (dir (m :: n :: k)) = some (dir (n :: k)) := parentDir_append (dir (n :: k)) m.property.2
    rw [createPersistentDir, undone_child s m hnew]
    dsimp only
    rw [hdir]
    dsimp only
    cases fuel with
    | zero => rfl
    | succ fuel =>
      obtain ⟨s', hk', hnew', hparent⟩ := undone_parent fuel hk he hnew
      rw [hparent]
      exact undone_none (fuel + 1) s' m hk' he hnew'

end

/-- "/a" is missing whenever "/a/b" is asked for, and made whenever it is asked for itself. -/
def deletedAgain (n : Nat) : Option Rc := some (if n % 2 = 0 then .znonode else .zok)

theorem missing_deletedAgain (n : Nat) : missing deletedAgain n = (n % 2 : Nat) := by
  induction n with
  | zero => rfl
  | succ n ih =>
    rw [missing, ih, deletedAgain]
    rcases Nat.mod_two_eq_zero_or_one n with h | h
    · rw [if_pos h, h, show (n + 1) % 2 = 1 by omega]
      rfl
    · rw [if_neg (by omega), h, show (n + 1) % 2 = 0 by omega]
      rfl

/-- No number of requests is enough for "/a/b". -/
theorem not_ends_deletedAgain : ¬ ∃ bound : Nat → Nat, ∀ (answers : Nat → Option Rc) (path : String),
    EndsWithin answers path (bound path.length) := by
  rintro ⟨bound, h⟩
  have hends := h deletedAgain "/a/b"
  rw [createPersistentDir_ends_iff] at hends
  obtain ⟨n, -, hlost | ⟨i, -, herr⟩ | hbelow | habove⟩ := hends
  · cases hlost
  · unfold deletedAgain at herr
    split at herr <;> cases herr
  · rw [missing_deletedAgain] at hbelow
    omega
  · rw [missing_deletedAgain, show slashes "/a/b" = 2 by decide] at habove
    omega

end ZkCppClient.Ops
