import ZkCppClient.Ops.Server

/-!
# The two forms of `createIfNeedCreateParents`

The synchronous form and the chain of the asynchronous one come to the same
code and the same tree: the old one with the directories on the way to the node
and the node itself, or the old one as it was.
-/

namespace ZkCppClient.Ops

open SlashPath

/-- An absolute path. Only that of a sequential node, or the root's, may end in a slash. -/
structure LeafPath (isSequence : Bool) where
  parent : Key
  leaf : String
  noSlash : '/' ∉ leaf.toList
  named : leaf = "" → isSequence = true ∨ parent = []

def LeafPath.path {isSequence : Bool} (p : LeafPath isSequence) : String := dir p.parent ++ "/" ++ p.leaf

def dirNode : Znode := ⟨none, 0, false⟩

/-- The number that a sequential node below `k` gets, where `k` may have to be made first. -/
def Server.nextNumber (s : Server) (k : Key) : Nat := if (s.tree.get k).isSome then s.cversion k else 0

/-- What was asked for is new, and with the directories on the way to it the only thing that is. -/
def Created {isSequence : Bool} (s s' : Server) (p : LeafPath isSequence) (value : String) (isTemp : Bool) : Prop :=
  ∃ n : Name, n.val = (if isSequence then p.leaf ++ sequenceSuffix (s.nextNumber p.parent) else p.leaf) ∧
    s.tree.get (n :: p.parent) = none ∧ ∀ k, s'.tree.get k =
      if k = n :: p.parent then some ⟨some value, 0, isTemp⟩
      else if k <:+ p.parent ∧ s.tree.get k = none then some dirNode
      else s.tree.get k

/-- Both end with the same code, the one as its result and the other in the one
call of its handler, and leave the same server. The path that the handler is
told comes back through a buffer where there is no handler. -/
def CreationsAgree {isSequence : Bool} (s : Server) (p : LeafPath isSequence) (value : String) (isTemp : Bool)
    (handler context : Nat) : Prop :=
  ∃ (fuel : Nat) (ec : ZkErrorCode) (retPath : Option String) (s' : Server),
    createIfNeedCreateParents creations.returning fuel s.idle p.path value isTemp isSequence =
      some (ec, retPath.map (throughBuffer kMaxPathLength), s'.idle) ∧
    createIfNeedCreateParentsAsync creations fuel s.idle p.path value (some handler) context isTemp isSequence =
      some (.ended true [⟨handler, ec, p.path, retPath.getD "", context⟩] s'.idle) ∧
    (ec = .kZKSucceed → Created s s' p value isTemp) ∧ (ec ≠ .kZKSucceed → s' = s)

def createCode : Rc → ZkErrorCode
  | .zok => .kZKSucceed
  | .znonode => .kZKNotExist
  | .znodeexists => .kZKExisted
  | _ => .kZKError

/-! ## The buffer of the synchronous calls -/

section
variable {σ : Type*} (E : CreateEnv σ)

def returned (r : ZkErrorCode × Option String × σ) : ZkErrorCode × Option String × σ :=
  (r.1, r.2.1.map (throughBuffer kMaxPathLength), r.2.2)

theorem create_returning (s : σ) (path value : String) (isTemp isSequence : Bool) :
    create E.returning s path value isTemp isSequence = returned (create E s path value isTemp isSequence) := by
  unfold create CreateEnv.returning
  dsimp only
  obtain ⟨connected, s⟩ := E.isConnected s
  cases connected with
  | false => rfl
  | true =>
    dsimp only
    obtain ⟨⟨rc, retPath⟩, s⟩ := E.zooCreate s path (some value) ⟨isTemp, isSequence⟩
    cases rc <;> rfl

theorem createPersistentDirNode_returning (s : σ) (path : String) :
    createPersistentDirNode E.returning s path = createPersistentDirNode E s path := by
  unfold createPersistentDirNode CreateEnv.returning
  dsimp only
  obtain ⟨connected, s⟩ := E.isConnected s
  cases connected with
  | false => rfl
  | true =>
    dsimp only
    obtain ⟨⟨rc, retPath⟩, s⟩ := E.zooCreate s path none ⟨false, false⟩
    cases rc <;> rfl

theorem createPersistentDir_returning (fuel : Nat) : createPersistentDir E.returning fuel = createPersistentDir E fuel := by
  induction fuel with
  | zero => rfl
  | succ fuel ih =>
    funext s path
    rw [createPersistentDir, createPersistentDir, createPersistentDirNode_returning, ih]

theorem createIfNeedCreateParents_returning (fuel : Nat) (s : σ) (path value : String) (isTemp isSequence : Bool) :
    createIfNeedCreateParents E.returning fuel s path value isTemp isSequence =
      (createIfNeedCreateParents E fuel s path value isTemp isSequence).map returned := by
  unfold createIfNeedCreateParents
  rw [create_returning]
  obtain ⟨ec, retPath, s⟩ := create E s path value isTemp isSequence
  cases ec with
  | kZKNotExist =>
    dsimp only [returned]
    cases parentDir path with
    | none => rfl
    | some parent =>
      dsimp only
      rw [createPersistentDir_returning]
      cases createPersistentDir E fuel s parent with
      | none => rfl
      | some r =>
        obtain ⟨made, s⟩ := r
        cases made with
        | false => rfl
        | true => exact congrArg some (create_returning E s path value isTemp isSequence)
  | _ => rfl

end

/-! ## Names -/

theorem sequenceSuffix_toList (i : Nat) : (sequenceSuffix i).toList =
    List.replicate (10 - (Nat.toDigits 10 i).length) '0' ++ Nat.toDigits 10 i := by
  simp [sequenceSuffix]

theorem isDigit_of_mem_suffix {i : Nat} {c : Char} (h : c ∈ (sequenceSuffix i).toList) : c.isDigit = true := by
  rw [sequenceSuffix_toList, List.mem_append] at h
  rcases h with h | h
  · rw [List.eq_of_mem_replicate h]
    rfl
  · exact Nat.isDigit_of_mem_toDigits (by decide) (by decide) h

theorem slash_not_mem_suffix (i : Nat) : '/' ∉ (sequenceSuffix i).toList :=
  fun h => absurd (isDigit_of_mem_suffix h) (by decide)

theorem suffix_ne_empty (i : Nat) : sequenceSuffix i ≠ "" := by
  intro h
  have hlist := congrArg String.toList h
  rw [sequenceSuffix_toList] at hlist
  have hlen := congrArg List.length hlist
  simp only [List.length_append, List.length_replicate, String.toList_empty, List.length_nil] at hlen
  omega

section
variable {s s' : Server} {n : Name} {k : Key} {leaf : String} {sequence : Bool} {data : Option String}

theorem nodeName_eq (h : '/' ∉ leaf.toList) (hleaf : ¬ (leaf = "" ∧ sequence = false)) :
    ∃ n : Name, s.nodeName k leaf sequence = some n ∧
      n.val = if sequence then leaf ++ sequenceSuffix (s.cversion k) else leaf := by
  have hval : (if sequence then leaf ++ sequenceSuffix (s.cversion k) else leaf) ≠ "" ∧
      '/' ∉ (if sequence then leaf ++ sequenceSuffix (s.cversion k) else leaf).toList := by
    cases sequence with
    | false => exact ⟨fun he => hleaf ⟨he, rfl⟩, h⟩
    | true =>
      refine ⟨fun he => ?_, fun hm => ?_⟩
      · exact suffix_ne_empty _ (String.append_eq_empty_iff.mp he).2
      · rw [if_pos rfl, String.toList_append, List.mem_append] at hm
        exact hm.elim h (slash_not_mem_suffix _)
  exact ⟨⟨_, hval⟩, dif_pos hval, rfl⟩

theorem nodeName_dir (n : Name) : s.nodeName k n.val false = some n := Name.of?_val n

/-! ## The directories -/

theorem createPersistentDirNode_creations (s : Server) (path : String) :
    createPersistentDirNode creations s.idle path = (createCode (s.create path none ⟨false, false⟩).1.1,
      (s.create path none ⟨false, false⟩).2.idle) := by
  simp only [createPersistentDirNode, creations, Server.idle]
  generalize s.create path none ⟨false, false⟩ = r
  obtain ⟨⟨rc, retPath⟩, t⟩ := r
  cases rc <;> rfl

theorem parentDir_append (p : String) (h : '/' ∉ leaf.toList) : parentDir (p ++ "/" ++ leaf) = some p := by
  rw [parentDir, splitLast_append p h]
  rfl

theorem name_ne (n : Name) : ¬ (n.val = "" ∧ false = false) := fun h => n.property.1 h.1

theorem ne_nil_of_missing (h : s.tree.get k = none) : k ≠ [] := by
  rintro rfl
  obtain ⟨a, ha⟩ := s.tree.get_root
  rw [ha] at h
  cases h

theorem createPersistentDir_exists (fuel : Nat) (h : (s.tree.get (n :: k)).isSome) :
    createPersistentDir creations (fuel + 1) s.idle (dir (n :: k)) = some (true, s.idle) := by
  have hnode := createPersistentDirNode_creations s (dir (n :: k))
  have hcreate : s.create (dir (n :: k)) none ⟨false, false⟩ = ((.znodeexists, ""), s) :=
    create_exists _ _ n.property.2 (name_ne n) (nodeName_dir n) h
  rw [hcreate] at hnode
  rw [createPersistentDir, hnode]
  rfl

theorem createPersistentDir_makes {node : Znode} (fuel : Nat) (hparent : s.tree.get k = some node)
    (hnew : s.tree.get (n :: k) = none) (he : node.ephemeral = false) :
    createPersistentDir creations (fuel + 1) s.idle (dir (n :: k)) =
      some (true, (s.insert n k dirNode (by rw [hparent]; rfl)).idle) := by
  have hnode := createPersistentDirNode_creations s (dir (n :: k))
  have hcreate := create_ok none ⟨false, false⟩ n.property.2 (name_ne n) (nodeName_dir n) hparent hnew he
  rw [show dir k ++ "/" ++ n.val = dir (n :: k) from rfl] at hcreate
  rw [hcreate] at hnode
  rw [createPersistentDir, hnode]
  rfl

theorem createPersistentDir_ephemeral {node : Znode} (fuel : Nat) (hparent : s.tree.get k = some node)
    (hnew : s.tree.get (n :: k) = none) (he : node.ephemeral = true) :
    createPersistentDir creations (fuel + 1) s.idle (dir (n :: k)) = some (false, s.idle) := by
  have hnode := createPersistentDirNode_creations s (dir (n :: k))
  have hcreate : s.create (dir (n :: k)) none ⟨false, false⟩ = ((.znochildrenforephemerals, ""), s) :=
    create_ephemeral _ _ n.property.2 (name_ne n) (nodeName_dir n) hparent hnew he
  rw [hcreate] at hnode
  rw [createPersistentDir, hnode]
  rfl

theorem createPersistentDir_climbs (fuel : Nat) (hparent : s.tree.get k = none) :
    createPersistentDir creations (fuel + 1) s.idle (dir (n :: k)) =
      match createPersistentDir creations fuel s.idle (dir k) with
      | none => none
      | some (true, s) => createPersistentDir creations fuel s (dir (n :: k))
      | some (false, s) => some (false, s) := by
  have hnode := createPersistentDirNode_creations s (dir (n :: k))
  have hcreate : s.create (dir (n :: k)) none ⟨false, false⟩ = ((.znonode, ""), s) :=
    create_noParent n.property.2 (name_ne n) hparent
  have hdir : parentDir (dir (n :: k)) = some (dir k) := parentDir_append (dir k) n.property.2
  rw [hcreate] at hnode
  rw [createPersistentDir, hnode]
  dsimp only [createCode]
  rw [hdir]
  dsimp only
  cases createPersistentDir creations fuel s.idle (dir k) with
  | none => rfl
  | some r =>
    obtain ⟨made, l⟩ := r
    cases made <;> rfl

/-- The node is there, or nothing keeps nodes from being made on the way to it. -/
def Server.Opens (s : Server) (k : Key) : Prop :=
  (s.tree.get k).isSome ∨ ∀ node ∈ s.tree.get (s.tree.deepest k), node.ephemeral = false

theorem opens_of_parent {node : Znode} (hparent : s.tree.get k = some node) (hnew : s.tree.get (n :: k) = none) :
    s.Opens (n :: k) ↔ node.ephemeral = false := by
  rw [Server.Opens, NameTree.deepest_of_none hnew, NameTree.deepest_of_isSome (by rw [hparent]; rfl), hnew, hparent]
  simp

theorem opens_of_missing (hparent : s.tree.get k = none) (hnew : s.tree.get (n :: k) = none) :
    s.Opens (n :: k) ↔ s.Opens k := by
  rw [Server.Opens, Server.Opens, NameTree.deepest_of_none hnew, hnew, hparent]

theorem createPersistentDir_grows : ∀ (fuel : Nat) (s : Server) (k : Key), k ≠ [] → k.length ≤ fuel →
    (∃ s' : Server, createPersistentDir creations fuel s.idle (dir k) = some (true, s'.idle) ∧ s.Opens k ∧
      s.tree.Grown dirNode k s'.tree ∧ s'.cversion k = s.nextNumber k) ∨
    createPersistentDir creations fuel s.idle (dir k) = some (false, s.idle) ∧ ¬ s.Opens k
  | _, _, [], hk, _ => absurd rfl hk
  | 0, _, _ :: _, _, hfuel => absurd hfuel (by simp)
  | fuel + 1, s, n :: k, _, hfuel => by
    have hfuel : k.length ≤ fuel := by simpa using hfuel
    cases hthere : s.tree.get (n :: k) with
    | some node =>
      have hsome : (s.tree.get (n :: k)).isSome := by rw [hthere]; rfl
      exact .inl ⟨s, createPersistentDir_exists fuel hsome, .inl hsome, NameTree.grown_of_isSome dirNode hsome,
        by rw [Server.nextNumber, if_pos hsome]⟩
    | none =>
      have hnumber : s.nextNumber (n :: k) = 0 := by
        rw [Server.nextNumber, hthere]
        rfl
      cases hparent : s.tree.get k with
      | some node =>
        have hopens := opens_of_parent hparent hthere
        cases he : node.ephemeral with
        | true => exact .inr ⟨createPersistentDir_ephemeral fuel hparent hthere he, by rw [hopens, he]; nofun⟩
        | false =>
          have hsome : (s.tree.get k).isSome := by rw [hparent]; rfl
          refine .inl ⟨_, createPersistentDir_makes fuel hparent hthere he, hopens.mpr he,
            (NameTree.grown_of_isSome dirNode hsome).insert hthere hsome, ?_⟩
          rw [hnumber]
          exact Function.update_self ..
      | none =>
        have hopens := opens_of_missing hparent hthere
        have hk : k ≠ [] := ne_nil_of_missing hparent
        rw [createPersistentDir_climbs fuel hparent]
        rcases createPersistentDir_grows fuel s k hk hfuel with ⟨s₁, hrun, hopen, hgrown, -⟩ | ⟨hrun, hclosed⟩
        · rw [hrun]
          dsimp only
          -- the parent is there now, and the second try makes the directory
          obtain ⟨fuel', rfl⟩ : ∃ fuel', fuel = fuel' + 1 :=
            Nat.exists_eq_succ_of_ne_zero fun h0 => hk (List.length_eq_zero_iff.mp (by omega))
          have hparent₁ : s₁.tree.get k = some dirNode := by
            rw [hgrown k, if_pos ⟨List.suffix_refl k, hparent⟩]
          refine .inl ⟨_, createPersistentDir_makes fuel' hparent₁ (hgrown.get_below hthere) rfl, hopens.mpr hopen,
            hgrown.insert hthere (by rw [hparent₁]; rfl), ?_⟩
          rw [hnumber]
          exact Function.update_self ..
        · rw [hrun]
          exact .inr ⟨rfl, fun h => hclosed (hopens.mp h)⟩

/-! ## The node -/

theorem create_creations (s : Server) (path value : String) (isTemp isSequence : Bool) :
    create creations s.idle path value isTemp isSequence =
      (createCode (s.create path (some value) ⟨isTemp, isSequence⟩).1.1,
        (if (s.create path (some value) ⟨isTemp, isSequence⟩).1.1 = .zok
          then some (s.create path (some value) ⟨isTemp, isSequence⟩).1.2 else none),
        (s.create path (some value) ⟨isTemp, isSequence⟩).2.idle) := by
  simp only [create, creations, Server.idle]
  generalize s.create path (some value) ⟨isTemp, isSequence⟩ = r
  obtain ⟨⟨rc, retPath⟩, t⟩ := r
  cases rc <;> rfl

theorem createIfNeedCreateParentsAsync_creations (fuel : Nat) (s : Server) (path value : String)
    (handler context : Nat) (isTemp isSequence : Bool) :
    createIfNeedCreateParentsAsync creations fuel s.idle path value (some handler) context isTemp isSequence =
      createIfNeedCreateParentsCompletion creations fuel (s.create path (some value) ⟨isTemp, isSequence⟩).2.idle
        ⟨path, value, handler, context, isTemp, isSequence⟩ (s.create path (some value) ⟨isTemp, isSequence⟩).1.1
        (s.create path (some value) ⟨isTemp, isSequence⟩).1.2 := rfl

end

section
variable {isSequence : Bool} {s : Server} {p : LeafPath isSequence} {value : String} {isTemp : Bool} {node : Znode}
  {n : Name} (handler context : Nat)

theorem agree_answered {rc : Rc} {retPath : String} {s' : Server}
    (h : s.create p.path (some value) ⟨isTemp, isSequence⟩ = ((rc, retPath), s')) (hrc : rc ≠ .znonode)
    (hasserted : createAsserted rc = true) (hsame : rc ≠ .zok → s' = s)
    (hok : rc = .zok → Created s s' p value isTemp) : CreationsAgree s p value isTemp handler context := by
  have hcreate := create_creations s p.path value isTemp isSequence
  have hasync := createIfNeedCreateParentsAsync_creations 0 s p.path value handler context isTemp isSequence
  rw [h] at hcreate hasync
  -- neither form looks at the parent, as the code is not `znonode`
  refine ⟨0, createCode rc, if rc = .zok then some retPath else none, s', ?_, ?_, ?_, ?_⟩
  · rw [createIfNeedCreateParents_returning]
    unfold createIfNeedCreateParents
    rw [hcreate]
    cases rc with
    | znonode => exact absurd rfl hrc
    | _ => rfl
  · rw [hasync]
    unfold createIfNeedCreateParentsCompletion
    rw [hasserted]
    cases rc with
    | znonode => exact absurd rfl hrc
    | _ => rfl
  · intro hec
    apply hok
    cases rc <;> first | rfl | cases hec
  · intro hec
    apply hsame
    rintro rfl
    exact hec rfl

theorem parentDir_path (p : LeafPath isSequence) : parentDir p.path = some (dir p.parent) :=
  parentDir_append (dir p.parent) p.noSlash

theorem createIfNeedCreateParents_noParent (h : s.create p.path (some value) ⟨isTemp, isSequence⟩ = ((.znonode, ""), s))
    (fuel : Nat) : createIfNeedCreateParents creations fuel s.idle p.path value isTemp isSequence =
      match createPersistentDir creations fuel s.idle (dir p.parent) with
      | none => none
      | some (true, l) => some (create creations l p.path value isTemp isSequence)
      | some (false, l) => some (.kZKError, none, l) := by
  have hcreate := create_creations s p.path value isTemp isSequence
  rw [h] at hcreate
  unfold createIfNeedCreateParents
  rw [hcreate]
  dsimp only [createCode]
  rw [parentDir_path]
  dsimp only
  cases createPersistentDir creations fuel s.idle (dir p.parent) with
  | none => rfl
  | some r =>
    obtain ⟨made, l⟩ := r
    cases made <;> rfl

theorem agree_noDir {fuel : Nat} (h : s.create p.path (some value) ⟨isTemp, isSequence⟩ = ((.znonode, ""), s))
    (hdir : createPersistentDir creations fuel s.idle (dir p.parent) = some (false, s.idle)) :
    CreationsAgree s p value isTemp handler context := by
  have hasync := createIfNeedCreateParentsAsync_creations fuel s p.path value handler context isTemp isSequence
  rw [h] at hasync
  refine ⟨fuel, .kZKError, none, s, ?_, ?_, nofun, fun _ => rfl⟩
  · rw [createIfNeedCreateParents_returning, createIfNeedCreateParents_noParent h, hdir]
    rfl
  · rw [hasync]
    simp only [createIfNeedCreateParentsCompletion, postCreateParentAndNode, parentDir_path, hdir]
    rfl

theorem agree_dirs {fuel : Nat} {s₁ s' : Server} {retPath : String}
    (h : s.create p.path (some value) ⟨isTemp, isSequence⟩ = ((.znonode, ""), s))
    (hdir : createPersistentDir creations fuel s.idle (dir p.parent) = some (true, s₁.idle))
    (h' : s₁.create p.path (some value) ⟨isTemp, isSequence⟩ = ((.zok, retPath), s'))
    (hcreated : Created s s' p value isTemp) : CreationsAgree s p value isTemp handler context := by
  have hcreate' := create_creations s₁ p.path value isTemp isSequence
  have hasync := createIfNeedCreateParentsAsync_creations fuel s p.path value handler context isTemp isSequence
  rw [h] at hasync
  rw [h'] at hcreate'
  refine ⟨fuel, .kZKSucceed, some retPath, s', ?_, ?_, fun _ => hcreated, fun hec => absurd rfl hec⟩
  · rw [createIfNeedCreateParents_returning, createIfNeedCreateParents_noParent h, hdir]
    dsimp only
    rw [hcreate']
    rfl
  · have hrequest : requestCreate creations s₁.idle p.path value isTemp isSequence =
        (true, ⟨s', some (.zok, retPath)⟩) := by
      show (true, (⟨(s₁.create _ _ _).2, some (s₁.create _ _ _).1⟩ : Link)) = _
      rw [h']
    rw [hasync]
    simp only [createIfNeedCreateParentsCompletion, postCreateParentAndNode, parentDir_path, hdir, hrequest]
    rfl

theorem created_insert {s₁ : Server} (hn : n.val =
      if isSequence then p.leaf ++ sequenceSuffix (s.nextNumber p.parent) else p.leaf)
    (hnew : s.tree.get (n :: p.parent) = none) (hgrown : s.tree.Grown dirNode p.parent s₁.tree)
    (hparent : (s₁.tree.get p.parent).isSome) :
    Created s (s₁.insert n p.parent ⟨some value, 0, isTemp⟩ hparent) p value isTemp := by
  refine ⟨n, hn, hnew, fun k => ?_⟩
  show (s₁.tree.insert n p.parent _ hparent).get k = _
  rw [NameTree.get_insert, hgrown k]

theorem agree_parent (hleaf : ¬ (p.leaf = "" ∧ isSequence = false)) (hparent : s.tree.get p.parent = some node) :
    CreationsAgree s p value isTemp handler context := by
  obtain ⟨n, hname, hval⟩ := nodeName_eq (s := s) (k := p.parent) p.noSlash hleaf
  have hthere : (s.tree.get p.parent).isSome := by rw [hparent]; rfl
  have hnumber : s.nextNumber p.parent = s.cversion p.parent := if_pos hthere
  cases hnew : s.tree.get (n :: p.parent) with
  | some old =>
    have hcreate := create_exists (some value) ⟨isTemp, isSequence⟩ p.noSlash hleaf hname (by rw [hnew]; rfl)
    exact agree_answered handler context hcreate nofun rfl (fun _ => rfl) nofun
  | none =>
    cases he : node.ephemeral with
    | true =>
      have hcreate := create_ephemeral (some value) ⟨isTemp, isSequence⟩ p.noSlash hleaf hname hparent hnew he
      exact agree_answered handler context hcreate nofun rfl (fun _ => rfl) nofun
    | false =>
      have hcreate := create_ok (some value) ⟨isTemp, isSequence⟩ p.noSlash hleaf hname hparent hnew he
      refine agree_answered handler context hcreate nofun rfl (fun h => absurd rfl h) fun _ => ?_
      exact created_insert (by rw [hnumber]; exact hval) hnew (NameTree.grown_of_isSome dirNode hthere) hthere

theorem agree_noParent (hleaf : ¬ (p.leaf = "" ∧ isSequence = false)) (hparent : s.tree.get p.parent = none) :
    CreationsAgree s p value isTemp handler context := by
  have hcreate : s.create p.path (some value) ⟨isTemp, isSequence⟩ = ((.znonode, ""), s) :=
    create_noParent p.noSlash hleaf hparent
  have hk : p.parent ≠ [] := ne_nil_of_missing hparent
  rcases createPersistentDir_grows p.parent.length s p.parent hk (Nat.le_refl _) with
    ⟨s₁, hdir, -, hgrown, hnumber⟩ | ⟨hdir, -⟩
  · obtain ⟨n, hname, hval⟩ := nodeName_eq (s := s₁) (k := p.parent) p.noSlash hleaf
    have hparent₁ : s₁.tree.get p.parent = some dirNode := by
      rw [hgrown, if_pos ⟨List.suffix_refl _, hparent⟩]
    have hnew : s.tree.get (n :: p.parent) = none := by
      refine Option.not_isSome_iff_eq_none.mp fun hsome => ?_
      have hsome := NameTree.get_parent hsome
      rw [hparent] at hsome
      cases hsome
    have hcreate₁ :=
      create_ok (some value) ⟨isTemp, isSequence⟩ p.noSlash hleaf hname hparent₁ (hgrown.get_below hnew) rfl
    refine agree_dirs handler context hcreate hdir hcreate₁ ?_
    exact created_insert (by rw [← hnumber]; exact hval) hnew hgrown _
  · exact agree_noDir handler context hcreate hdir

end

/-- **The two forms of `createIfNeedCreateParents`** come to the same code and
the same server, for every tree, path, value and flags, and make what was asked
for or nothing. -/
theorem creationsAgree {isSequence : Bool} (s : Server) (p : LeafPath isSequence) (value : String) (isTemp : Bool)
    (handler context : Nat) : CreationsAgree s p value isTemp handler context := by
  by_cases hleaf : p.leaf = "" ∧ isSequence = false
  · have hroot : p.parent = [] := (p.named hleaf.1).resolve_left (by rw [hleaf.2]; nofun)
    have hcreate : s.create p.path (some value) ⟨isTemp, isSequence⟩ = ((.znodeexists, ""), s) := by
      rw [LeafPath.path, hroot]
      exact create_root hleaf
    exact agree_answered handler context hcreate nofun rfl (fun _ => rfl) nofun
  · cases hparent : s.tree.get p.parent with
    | some node => exact agree_parent handler context hleaf hparent
    | none => exact agree_noParent handler context hleaf hparent

end ZkCppClient.Ops
