import ZkCppClient.Ops.DeleteAgree

/-!
# Recursive deletion of a version that is not there

The server compares the version only with the last delete of the synchronous
`deleteRecursive`, by which time the children are gone. The asynchronous one
sends the compared delete first.
-/

namespace ZkCppClient.Ops

open SlashPath

/-- The deletion returns an error code, and every node and every child list is as before. -/
def FailsUnchanged (s : Server) (path : String) (version : Int32) : Prop :=
  ∃ (fuel : Nat) (ec : ZkErrorCode) (s' : Server), deleteRecursive server fuel s.idle path version = some (ec, s'.idle) ∧
    ec ≠ .kZKSucceed ∧ ∀ k, s'.tree.get k = s.tree.get k ∧ s'.cversion k = s.cversion k

section
variable {s : Server} {n : Name} {k : Key} {node : Znode} {version : Int32}

theorem deleteRecursive_badVersion (h : s.tree.get (n :: k) = some node)
    (hversion : version ≠ -1 ∧ version ≠ node.version) : ∃ (fuel : Nat) (s' : Server),
      deleteRecursive server fuel s.idle (dir (n :: k)) version = some (.kZKError, s'.idle) ∧
      s.tree.Pruned ((s.tree.children (n :: k)).map (· :: n :: k)) s'.tree := by
  obtain ⟨fuel, s', -, hrun, hpruned, hnode, -⟩ := deleteRecursive_there version h
  rw [deleteNode_server, delete_badVersion hnode hversion] at hrun
  exact ⟨fuel + 1, s', hrun, hpruned⟩

theorem deleteRecursive_badVersion_leaf (h : s.tree.get (n :: k) = some node)
    (hversion : version ≠ -1 ∧ version ≠ node.version) (hleaf : s.tree.children (n :: k) = []) :
    deleteRecursive server 1 s.idle (dir (n :: k)) version = some (.kZKError, s.idle) := by
  rw [deleteRecursive_leaf h hleaf, deleteNode_server, delete_badVersion h hversion]

theorem deleteRecursiveAsync_badVersion (h : s.tree.get (n :: k) = some node)
    (hversion : version ≠ -1 ∧ version ≠ node.version) (fuel : Nat) (handler context : Nat) :
    deleteRecursiveAsync server fuel s.idle (dir (n :: k)) (some handler) context version =
      some (.ended true [⟨handler, .kZKError, dir (n :: k), context⟩] s.idle) := by
  rw [deleteRecursiveAsync_server, delete_badVersion h hversion]
  rfl

theorem not_failsUnchanged_parent (h : s.tree.get (n :: k) = some node)
    (hversion : version ≠ -1 ∧ version ≠ node.version) (hchildren : s.tree.children (n :: k) ≠ []) :
    ¬ FailsUnchanged s (dir (n :: k)) version := by
  rintro ⟨fuel, ec, s₁, hrun, -, hsame⟩
  obtain ⟨fuel', s₂, hrun', hpruned⟩ := deleteRecursive_badVersion h hversion
  have hm := deleteRecursive_mono server (Nat.le_max_left fuel fuel') hrun
  rw [deleteRecursive_mono server (Nat.le_max_right fuel fuel') hrun'] at hm
  obtain ⟨c, hc⟩ := List.exists_mem_of_ne_nil _ hchildren
  have hgone : s₂.tree.get (c :: n :: k) = none := by
    rw [hpruned, if_pos ⟨c :: n :: k, List.mem_map.mpr ⟨c, hc, rfl⟩, List.suffix_refl _⟩]
  have hthere := NameTree.mem_children.mp hc
  cases hm
  rw [← (hsame _).1, hgone] at hthere
  cases hthere

/-- **Compare and delete.** With a version that does not match, the synchronous
deletion fails and changes nothing just when the node has no children. -/
theorem failsUnchanged_iff (h : s.tree.get (n :: k) = some node) (hdefault : version ≠ -1)
    (hversion : version ≠ node.version) :
    FailsUnchanged s (dir (n :: k)) version ↔ s.tree.children (n :: k) = [] := by
  constructor
  · intro hfails
    by_contra hchildren
    exact not_failsUnchanged_parent h ⟨hdefault, hversion⟩ hchildren hfails
  · intro hleaf
    have hrun := deleteRecursive_badVersion_leaf h ⟨hdefault, hversion⟩ hleaf
    exact ⟨1, _, s, hrun, nofun, fun _ => ⟨rfl, rfl⟩⟩

end

def leafServer : Server :=
  bareServer.insert ⟨"a", by decide⟩ [] ⟨some "x", 0, false⟩ rfl

def parentServer : Server :=
  leafServer.insert ⟨"b", by decide⟩ [⟨"a", by decide⟩] ⟨some "y", 0, false⟩ rfl

theorem leafServer_a : leafServer.tree.get [⟨"a", by decide⟩] = some ⟨some "x", 0, false⟩ := rfl

theorem parentServer_a : parentServer.tree.get [⟨"a", by decide⟩] = some ⟨some "x", 0, false⟩ := rfl

theorem failsUnchanged_leaf : FailsUnchanged leafServer (dir [⟨"a", by decide⟩]) 7 ↔
    leafServer.tree.children [⟨"a", by decide⟩] = [] :=
  failsUnchanged_iff leafServer_a (by decide) (by decide)

theorem not_failsUnchanged_ab : ¬ FailsUnchanged parentServer (dir [⟨"a", by decide⟩]) 7 :=
  not_failsUnchanged_parent parentServer_a ⟨by decide, by decide⟩ (by decide)

end ZkCppClient.Ops
