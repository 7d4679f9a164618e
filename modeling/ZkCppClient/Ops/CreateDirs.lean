import ZkCppClient.Ops.CreateAgree

/-!
# The directories on the way to a node

`createPersistentDir` tries the node first and its parent when that is missing,
and then the node once more. Alone with the server it ends, and makes what is
missing of the path unless the deepest node that is there is ephemeral.
-/

namespace ZkCppClient.Ops

open SlashPath

theorem createPersistentDir_root (s : Server) : createPersistentDir creations 1 s.idle (absolute []) = some (true, s.idle) := by
  have hnode := createPersistentDirNode_creations s (absolute [])
  have hcreate : s.create (absolute []) none ⟨false, false⟩ = ((.znodeexists, ""), s) := create_root ⟨rfl, rfl⟩
  rw [hcreate] at hnode
  rw [createPersistentDir, hnode]
  rfl

/-- **The directories.** The call ends, for every tree and path. It returns true
just when the path is there or its deepest node is not ephemeral, and has then
made the missing nodes and changed no other; otherwise nothing has changed. -/
theorem createPersistentDir_makesMissing (s : Server) (k : Key) : ∃ (fuel : Nat) (made : Bool) (s' : Server),
    createPersistentDir creations fuel s.idle (absolute k) = some (made, s'.idle) ∧
    (made = true ↔ (s.tree.get k).isSome ∨ ∃ node, s.tree.get (s.tree.deepest k) = some node ∧ node.ephemeral = false) ∧
    (made = true → ∀ k', s'.tree.get k' = if k' <:+ k ∧ s.tree.get k' = none then some dirNode else s.tree.get k') ∧
    (made = false → s' = s) := by
  have hopens : s.Opens k ↔
      (s.tree.get k).isSome ∨ ∃ node, s.tree.get (s.tree.deepest k) = some node ∧ node.ephemeral = false := by
    obtain ⟨node, hnode⟩ := Option.isSome_iff_exists.mp (NameTree.get_deepest s.tree k)
    rw [Server.Opens, hnode]
    simp
  rw [← hopens]
  cases k with
  | nil =>
    have hroot : (s.tree.get []).isSome := NameTree.get_isSome.mpr s.tree.root
    exact ⟨1, true, s, createPersistentDir_root s, iff_of_true rfl (.inl hroot),
      fun _ => NameTree.grown_of_isSome dirNode hroot, fun h => absurd h (by decide)⟩
  | cons n k =>
    rcases createPersistentDir_grows (n :: k).length s (n :: k) (List.cons_ne_nil n k) (Nat.le_refl _) with
      ⟨s', hrun, hopen, hgrown, -⟩ | ⟨hrun, hclosed⟩
    · exact ⟨_, true, s', hrun, iff_of_true rfl hopen, fun _ => hgrown, fun h => absurd h (by decide)⟩
    · exact ⟨_, false, s, hrun, iff_of_false (by decide) hclosed, fun h => absurd h (by decide), fun _ => rfl⟩

end ZkCppClient.Ops
