import ZkCppClient.Ops.DeleteAsync
import ZkCppClient.Ops.Server

/-!
# The two recursive deletions

Synchronous `deleteRecursive` lists the children first and deletes them whatever
the version of the node, the asynchronous one tries to delete the node first. A
node that is not there is a success to the one and `kZKNotExist` to the other,
and a version that does not match stops only the second before the children.
-/

namespace ZkCppClient.Ops

open SlashPath

/-- Both end with the same code, the one as its result and the other in the one
call of its handler, and with the same tree. -/
def DeletionsAgree (s : Server) (path : String) (handler context : Nat) (version : Int32) : Prop :=
  ∃ (fuel : Nat) (ec : ZkErrorCode) (s₁ s₂ : Server), deleteRecursive server fuel s.idle path version = some (ec, s₁.idle) ∧
    deleteRecursiveAsync server fuel s.idle path (some handler) context version =
      some (.ended true [⟨handler, ec, path, context⟩] s₂.idle) ∧ s₁.tree = s₂.tree

/-- The node is there, and has no children or a version that the given one matches. -/
def Deletable (s : Server) (key : Key) (version : Int32) : Prop :=
  ∃ node ∈ s.tree.get key, s.tree.children key = [] ∨ version = -1 ∨ version = node.version

/-! ## What recursive deletion does to the tree -/

def Reaches (fuel : Nat) (s : Server) (key : Key) : Prop :=
  ∀ k, (s.tree.get k).isSome → k.length < key.length + fuel

section
variable {s s' : Server} {n : Name} {k key : Key} {version : Int32} {node : Znode} {fuel : Nat}

theorem Reaches.pruned {ks : List Key} (h : Reaches fuel s key) (hp : s.tree.Pruned ks s'.tree) :
    Reaches fuel s' key := fun k hk => h k (hp.of_isSome hk)

theorem exists_reaches (s : Server) (key : Key) : ∃ fuel, Reaches fuel s key := by
  obtain ⟨d, hd⟩ := s.tree.exists_length_le
  exact ⟨d + 1, fun k hk => by have := hd k hk; omega⟩

theorem deleteChildren_prunes (hdel : ∀ (s : Server) (c : Name), Reaches fuel s (c :: key) →
      (s.tree.get (c :: key)).isSome → ∃ s' : Server, deleteRecursive server fuel s.idle (dir (c :: key)) (-1) =
        some (.kZKSucceed, s'.idle) ∧ s.tree.Pruned [c :: key] s'.tree) :
    ∀ (cs : List Name) (s : Server), cs.Nodup → (∀ c ∈ cs, (s.tree.get (c :: key)).isSome) →
      Reaches (fuel + 1) s key → ∃ s' : Server, deleteChildren (fun s p => deleteRecursive server fuel s p (-1)) (dir key)
        (cs.map (·.val)) s.idle = some (true, s'.idle) ∧ s.tree.Pruned (cs.map (· :: key)) s'.tree
  | [], s, _, _, _ => ⟨s, rfl, NameTree.pruned_nil s.tree⟩
  | c :: cs, s, hnodup, hthere, hfuel => by
    have hreach : Reaches fuel s (c :: key) := by
      intro k hk
      have := hfuel k hk
      rw [List.length_cons]
      omega
    obtain ⟨s₁, hrun, hpruned⟩ := hdel s c hreach (hthere c List.mem_cons_self)
    have hthere₁ : ∀ c' ∈ cs, (s₁.tree.get (c' :: key)).isSome := by
      intro c' hc'
      rw [hpruned.get_of_not]
      · exact hthere c' (List.mem_cons_of_mem c hc')
      · intro k hk hs
        rw [List.mem_singleton.mp hk] at hs
        have heq : c :: key = c' :: key := hs.eq_of_length rfl
        exact (List.nodup_cons.mp hnodup).1 ((List.cons.inj heq).1 ▸ hc')
    obtain ⟨s₂, hrest, hpruned'⟩ := deleteChildren_prunes hdel cs s₁ (List.nodup_cons.mp hnodup).2 hthere₁
      (hfuel.pruned hpruned)
    refine ⟨s₂, ?_, hpruned.cons hpruned'⟩
    rw [List.map_cons, deleteChildren]
    have hpath : dir key ++ "/" ++ c.val = dir (c :: key) := rfl
    rw [hpath, hrun]
    exact hrest

theorem deleteRecursive_below (hdel : ∀ (s : Server) (c : Name), Reaches fuel s (c :: key) →
      (s.tree.get (c :: key)).isSome → ∃ s' : Server, deleteRecursive server fuel s.idle (dir (c :: key)) (-1) =
        some (.kZKSucceed, s'.idle) ∧ s.tree.Pruned [c :: key] s'.tree)
    (h : s.tree.get key = some node) (hfuel : Reaches (fuel + 1) s key) :
    ∃ s' : Server, deleteChildren (fun s p => deleteRecursive server fuel s p (-1)) (dir key)
        ((s.tree.children key).map (·.val)) s.idle = some (true, s'.idle) ∧
      s.tree.Pruned ((s.tree.children key).map (· :: key)) s'.tree ∧
      s'.tree.get key = some node ∧ s'.tree.children key = [] := by
  obtain ⟨s', hloop, hpruned⟩ := deleteChildren_prunes hdel (s.tree.children key) s NameTree.nodup_children
    (fun c hc => NameTree.mem_children.mp hc) hfuel
  refine ⟨s', hloop, hpruned, ?_, NameTree.children_eq_nil.mpr fun m => ?_⟩
  · rw [hpruned.get_of_not, h]
    intro k hk hs
    obtain ⟨c, -, rfl⟩ := List.mem_map.mp hk
    have := hs.length_le
    rw [List.length_cons] at this
    omega
  · refine Option.not_isSome_iff_eq_none.mp fun hsome => ?_
    have hchild := NameTree.mem_children.mpr (hpruned.of_isSome hsome)
    rw [hpruned, if_pos ⟨m :: key, List.mem_map.mpr ⟨m, hchild, rfl⟩, List.suffix_refl _⟩] at hsome
    cases hsome

theorem deleteRecursive_prunes : ∀ (fuel : Nat) (s : Server) (n : Name) (k : Key), Reaches fuel s (n :: k) →
    (s.tree.get (n :: k)).isSome → ∃ s' : Server, deleteRecursive server fuel s.idle (dir (n :: k)) (-1) =
      some (.kZKSucceed, s'.idle) ∧ s.tree.Pruned [n :: k] s'.tree
  | 0, s, n, k, hfuel, hthere => absurd (hfuel _ hthere) (by omega)
  | fuel + 1, s, n, k, hfuel, hthere => by
    obtain ⟨node, hnode⟩ := Option.isSome_iff_exists.mp hthere
    obtain ⟨s', hloop, hpruned, hnode', hleaf⟩ :=
      deleteRecursive_below (fun s c => deleteRecursive_prunes fuel s c (n :: k)) hnode hfuel
    have hversion : (-1 : Int32) = -1 ∨ -1 = node.version := .inl rfl
    have hdelete := delete_leaf hnode' hversion hleaf
    refine ⟨{ s' with
      tree := s'.tree.erase (n :: k) (List.cons_ne_nil n k) hleaf
      cversion := s'.childChanged k }, ?_, hpruned.erase (List.cons_ne_nil n k) hleaf⟩
    rw [deleteRecursive, getChildren_server hthere]
    dsimp only
    rw [hloop]
    dsimp only
    rw [deleteNode_server, hdelete]

theorem deleteRecursive_leaf (h : s.tree.get (n :: k) = some node) (hleaf : s.tree.children (n :: k) = []) :
    deleteRecursive server 1 s.idle (dir (n :: k)) version =
      some (deleteNode server s.idle (dir (n :: k)) version) := by
  rw [deleteRecursive, getChildren_server (by rw [h]; rfl), hleaf]
  rfl

theorem deleteRecursive_there (version : Int32) (h : s.tree.get (n :: k) = some node) : ∃ (fuel : Nat) (s' : Server),
    deleteChildren (fun s p => deleteRecursive server fuel s p (-1)) (dir (n :: k))
      ((s.tree.children (n :: k)).map (·.val)) s.idle = some (true, s'.idle) ∧
    deleteRecursive server (fuel + 1) s.idle (dir (n :: k)) version =
      some (deleteNode server s'.idle (dir (n :: k)) version) ∧
    s.tree.Pruned ((s.tree.children (n :: k)).map (· :: n :: k)) s'.tree ∧
    s'.tree.get (n :: k) = some node ∧ s'.tree.children (n :: k) = [] := by
  obtain ⟨fuel, hfuel⟩ := exists_reaches s (n :: k)
  have hmore : Reaches (fuel + 1) s (n :: k) := fun k hk => Nat.lt_succ_of_lt (hfuel k hk)
  obtain ⟨s', hloop, hpruned, hnode, hleaf⟩ :=
    deleteRecursive_below (fun s c => deleteRecursive_prunes fuel s c (n :: k)) h hmore
  refine ⟨fuel, s', hloop, ?_, hpruned, hnode, hleaf⟩
  rw [deleteRecursive, getChildren_server (by rw [h]; rfl)]
  dsimp only
  rw [hloop]

/-! ## The asynchronous deletion -/

theorem requestDelete_server (s : Server) (path : String) (version : Int32) : requestDelete server s.idle path version =
    (true, ⟨(s.delete path version).2, some ((s.delete path version).1, "")⟩) := rfl

theorem deleteRecursiveAsync_server (fuel : Nat) (s : Server) (path : String) (handler context : Nat)
    (version : Int32) : deleteRecursiveAsync server fuel s.idle path (some handler) context version =
      deleteRecursiveCompletion server fuel (s.delete path version).2.idle ⟨path, handler, context, version⟩
        (s.delete path version).1 := rfl

theorem postDeleteRecursive_server (h : (s.tree.get (n :: k)).isSome) (handler context : Nat) (version : Int32)
    (hloop : deleteChildren (fun s p => deleteRecursive server fuel s p (-1)) (dir (n :: k))
      ((s.tree.children (n :: k)).map (·.val)) s.idle = some (true, s'.idle)) :
    postDeleteRecursive server fuel s.idle ⟨dir (n :: k), handler, context, version⟩ =
      some ([], true, ⟨(s'.delete (dir (n :: k)) version).2, some ((s'.delete (dir (n :: k)) version).1, "")⟩) := by
  unfold postDeleteRecursive
  rw [getChildren_server h]
  dsimp only
  rw [hloop]
  dsimp only
  rw [requestDelete_server]
  rfl

/-! ## Agreement -/

theorem agree_leaf (handler context : Nat) (h : s.tree.get (n :: k) = some node) (hleaf : s.tree.children (n :: k) = []) :
    DeletionsAgree s (dir (n :: k)) handler context version := by
  have hsync : deleteRecursive server 1 s.idle (dir (n :: k)) version = _ := deleteRecursive_leaf h hleaf
  rw [deleteNode_server] at hsync
  by_cases hversion : version = -1 ∨ version = node.version
  · rw [delete_leaf h hversion hleaf] at hsync
    refine ⟨1, _, _, _, hsync, ?_, rfl⟩
    rw [deleteRecursiveAsync_server, delete_leaf h hversion hleaf]
    rfl
  · have hbad : version ≠ -1 ∧ version ≠ node.version := by tauto
    rw [delete_badVersion h hbad] at hsync
    refine ⟨1, _, _, _, hsync, ?_, rfl⟩
    rw [deleteRecursiveAsync_server, delete_badVersion h hbad]
    rfl

theorem agree_matched (handler context : Nat) (h : s.tree.get (n :: k) = some node)
    (hchildren : s.tree.children (n :: k) ≠ []) (hversion : version = -1 ∨ version = node.version) :
    DeletionsAgree s (dir (n :: k)) handler context version := by
  obtain ⟨fuel, s', hloop, hsync, -, hnode, hleaf⟩ := deleteRecursive_there version h
  rw [deleteNode_server, delete_leaf hnode hversion hleaf] at hsync
  refine ⟨fuel + 1, _, _, _, hsync, ?_, rfl⟩
  have hloop' := deleteChildren_mono (fun _ _ _ => deleteRecursive_mono server (Nat.le_succ fuel)) _ _ _ _ hloop
  have hpost := postDeleteRecursive_server (by rw [h]; rfl) handler context version hloop'
  rw [delete_leaf hnode hversion hleaf] at hpost
  rw [deleteRecursiveAsync_server, delete_notEmpty h hversion hchildren]
  unfold deleteRecursiveCompletion
  simp only [hpost]
  rfl

theorem not_agree_missing (handler context : Nat) (h : s.tree.get (n :: k) = none) :
    ¬ DeletionsAgree s (dir (n :: k)) handler context version := by
  rintro ⟨fuel, ec, s₁, s₂, hsync, hasync, -⟩
  rw [deleteRecursiveAsync_server, delete_none h] at hasync
  cases fuel with
  | zero => cases hsync
  | succ fuel =>
    rw [deleteRecursive, getChildren_server_none h] at hsync
    cases hsync
    cases hasync

theorem not_agree_mismatched (handler context : Nat) (h : s.tree.get (n :: k) = some node)
    (hchildren : s.tree.children (n :: k) ≠ []) (hversion : version ≠ -1 ∧ version ≠ node.version) :
    ¬ DeletionsAgree s (dir (n :: k)) handler context version := by
  -- the synchronous deletion has deleted the children before it finds that the version does not match
  rintro ⟨fuel, ec, s₁, s₂, hsync, hasync, htree⟩
  rw [deleteRecursiveAsync_server, delete_badVersion h hversion] at hasync
  have hsame : s₂.tree = s.tree := by
    cases hasync
    rfl
  obtain ⟨fuel', s', -, hsync', -, hnode, hleaf⟩ := deleteRecursive_there version h
  rw [deleteNode_server, delete_badVersion hnode hversion] at hsync'
  have hm := deleteRecursive_mono server (Nat.le_max_left fuel (fuel' + 1)) hsync
  rw [deleteRecursive_mono server (Nat.le_max_right fuel (fuel' + 1)) hsync'] at hm
  cases hm
  rw [← hsame, ← htree] at hchildren
  exact hchildren hleaf

end

/-- **The two deletions.** They agree, for every tree, path and version, just
when the node is there and is a leaf or has a version that matches. -/
theorem deletionsAgree_iff (s : Server) (n : Name) (k : Key) (handler context : Nat) (version : Int32) :
    DeletionsAgree s (dir (n :: k)) handler context version ↔ Deletable s (n :: k) version := by
  unfold Deletable
  cases h : s.tree.get (n :: k) with
  | none => exact ⟨fun hagree => absurd hagree (not_agree_missing handler context h), nofun⟩
  | some node =>
    by_cases hleaf : s.tree.children (n :: k) = []
    · exact ⟨fun _ => ⟨node, rfl, .inl hleaf⟩, fun _ => agree_leaf handler context h hleaf⟩
    · by_cases hversion : version = -1 ∨ version = node.version
      · exact ⟨fun _ => ⟨node, rfl, .inr hversion⟩, fun _ => agree_matched handler context h hleaf hversion⟩
      · have hbad : version ≠ -1 ∧ version ≠ node.version := by tauto
        refine ⟨fun hagree => absurd hagree (not_agree_mismatched handler context h hleaf hbad), ?_⟩
        rintro ⟨node', hnode', hok⟩
        cases hnode'
        exact absurd hok (by tauto)

def bareServer : Server where
  tree := .single ⟨none, 0, false⟩
  cversion _ := 0

/-- A node that does not exist: kZKSucceed from the one, kZKNotExist from the other. -/
theorem not_deletionsAgree_missing : ¬ DeletionsAgree bareServer (dir [⟨"a", by decide⟩]) 0 7 (-1) :=
  not_agree_missing 0 7 rfl

end ZkCppClient.Ops
