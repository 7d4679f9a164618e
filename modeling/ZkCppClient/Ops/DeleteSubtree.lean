import ZkCppClient.Ops.CompareAndDelete
import ZkCppClient.Ops.Interference

/-!
# What a recursive deletion removes

Alone with the server, synchronous `deleteRecursive` takes away the node with
all that is below it and nothing else, and of the other nodes only the parent's
child list changes.
-/

namespace ZkCppClient.Ops

open SlashPath

/-- The nodes from `n :: k` on are gone, all others are as they were, and so are all child lists but that of `k`. -/
structure SubtreeRemoved (s s' : Server) (n : Name) (k : Key) : Prop where
  removed : ∀ k', n :: k <:+ k' → s'.tree.get k' = none
  kept : ∀ k', ¬ n :: k <:+ k' → s'.tree.get k' = s.tree.get k'
  unlisted : ∀ k', ¬ n :: k <:+ k' → k' ≠ k → s'.cversion k' = s.cversion k'

section
variable {s s' : Server} {n : Name} {k key : Key} {version : Int32} {node : Znode}

theorem delete_cversion (s : Server) (key : Key) (version : Int32) {k' : Key} (h : k' ≠ key.tail) :
    (s.delete (dir key) version).2.cversion k' = s.cversion k' := by
  cases key with
  | nil => rfl
  | cons n k =>
    simp only [Server.delete, parse_dir]
    split
    · rfl
    · split
      · rfl
      · split
        · exact Function.update_of_ne h _ _
        · rfl

theorem server_keeps (s : Server) (n : Name) (k : Key) : server.Keeps
    (fun l => ∀ k', ¬ n :: k <:+ k' → k' ≠ k → l.server.cversion k' = s.cversion k') (n :: k) where
  isConnected _ hi := hi
  zooGetChildren _ _ hi := hi
  names l k _ name hmem := by
    simp only [server, Server.getChildren] at hmem
    split at hmem
    · cases hmem
    · split at hmem
      · cases hmem
      · obtain ⟨n, -, rfl⟩ := List.mem_map.mp hmem
        exact ⟨n, rfl⟩
  zooDelete l key version hkey hi := by
    intro k' hbelow hne
    refine (delete_cversion l.server key version ?_).trans (hi k' hbelow hne)
    rintro rfl
    obtain ⟨p, rfl⟩ := hkey
    cases p with
    | nil => exact hne rfl
    | cons m p => exact hbelow ⟨p, rfl⟩

theorem deleteRecursive_missing (version : Int32) (h : s.tree.get (n :: k) = none) :
    deleteRecursive server 1 s.idle (dir (n :: k)) version = some (.kZKSucceed, s.idle) := by
  rw [deleteRecursive, getChildren_server_none h]

theorem deleteRecursive_pruned (h : s.tree.get (n :: k) = some node) (hversion : version = -1 ∨ version = node.version) :
    ∃ (fuel : Nat) (s' : Server), deleteRecursive server fuel s.idle (dir (n :: k)) version = some (.kZKSucceed, s'.idle) ∧
      s.tree.Pruned [n :: k] s'.tree := by
  obtain ⟨fuel, s₁, -, hrun, hpruned, hnode, hleaf⟩ := deleteRecursive_there version h
  rw [deleteNode_server, delete_leaf hnode hversion hleaf] at hrun
  exact ⟨fuel + 1, _, hrun, hpruned.erase (List.cons_ne_nil n k) hleaf⟩

/-- **Recursive deletion.** With a version that matches it succeeds, for every
tree, and removes just the subtree. -/
theorem deleteRecursive_removes (s : Server) (n : Name) (k : Key) (version : Int32)
    (hversion : ∀ node ∈ s.tree.get (n :: k), version = -1 ∨ version = node.version) :
    ∃ (fuel : Nat) (s' : Server), deleteRecursive server fuel s.idle (dir (n :: k)) version = some (.kZKSucceed, s'.idle) ∧
      SubtreeRemoved s s' n k := by
  cases h : s.tree.get (n :: k) with
  | none =>
    refine ⟨1, s, deleteRecursive_missing version h, ⟨fun k' hbelow => ?_, fun _ _ => rfl, fun _ _ _ => rfl⟩⟩
    refine Option.not_isSome_iff_eq_none.mp fun hthere => ?_
    have hnode := NameTree.get_of_suffix hbelow hthere
    rw [h] at hnode
    cases hnode
  | some node =>
    obtain ⟨fuel, s', hrun, hpruned⟩ := deleteRecursive_pruned h (hversion node h)
    refine ⟨fuel, s', hrun, ⟨fun k' hbelow => ?_, fun k' hbelow => ?_, ?_⟩⟩
    · rw [hpruned, if_pos ⟨n :: k, List.mem_singleton.mpr rfl, hbelow⟩]
    · apply hpruned.get_of_not
      intro k'' hk''
      rw [List.mem_singleton.mp hk'']
      exact hbelow
    · exact (server_keeps s n k).deleteRecursive fuel s.idle (n :: k) version _ (List.suffix_refl _) (fun _ _ _ => rfl) hrun

end

theorem deleteRecursive_removes_ab : ∃ (fuel : Nat) (s' : Server),
    deleteRecursive server fuel parentServer.idle (dir [⟨"a", by decide⟩]) 0 = some (.kZKSucceed, s'.idle) ∧
      SubtreeRemoved parentServer s' ⟨"a", by decide⟩ [] :=
  deleteRecursive_removes parentServer ⟨"a", by decide⟩ [] 0 (by rw [parentServer_a]; rintro _ ⟨⟩; exact .inr rfl)

end ZkCppClient.Ops
