import ZkCppClient.Lib.NameTree
import ZkCppClient.Lib.SlashPath
import ZkCppClient.Ops.Create

/-!
# The server alone

One client with its server: no other client interferes, the session is
connected throughout, and every request that is accepted reaches the server at
once.
-/

namespace ZkCppClient.Ops

open SlashPath

/-- `value` is `none` for the null datum. -/
structure Znode where
  value : Option String
  version : Int32
  ephemeral : Bool
  deriving DecidableEq, Repr

/-- `cversion` counts the changes of a node's child list; sequential nodes are numbered by it. -/
structure Server where
  tree : NameTree Name Znode
  cversion : Key → Nat

def sequenceSuffix (n : Nat) : String :=
  let digits := Nat.toDigits 10 n
  String.ofList (List.replicate (10 - digits.length) '0' ++ digits)

/-- `reply` is the answer to an asynchronous request that the library has still to deliver. -/
structure Link where
  server : Server
  reply : Option (Rc × String)

def Server.idle (s : Server) : Link := ⟨s, none⟩

def Server.childChanged (s : Server) (k : Key) : Key → Nat := Function.update s.cversion k (s.cversion k + 1)

def Server.getChildren (s : Server) (path : String) : Rc × List String :=
  match parse path with
  | none => (zbadarguments, [])
  | some k =>
    match s.tree.get k with
    | none => (.znonode, [])
    | some _ => (.zok, (s.tree.children k).map (·.val))

def Server.delete (s : Server) (path : String) (version : Int32) : Rc × Server :=
  match parse path with
  | some (n :: k) =>
    match s.tree.get (n :: k) with
    | none => (.znonode, s)
    | some node =>
      if version ≠ -1 ∧ version ≠ node.version then (.zbadversion, s)
      else if hleaf : s.tree.children (n :: k) = [] then
        (.zok, { s with tree := s.tree.erase (n :: k) (List.cons_ne_nil n k) hleaf, cversion := s.childChanged k })
      else (.znotempty, s)
  | _ => (zbadarguments, s)

def Server.set (s : Server) (path : String) (data : Option String) (version : Int32) : Rc × Server :=
  match parse path with
  | none => (zbadarguments, s)
  | some k =>
    match h : s.tree.get k with
    | none => (.znonode, s)
    | some node =>
      if version ≠ -1 ∧ version ≠ node.version then (.zbadversion, s)
      else (.zok, { s with
        tree := s.tree.set k { node with value := data, version := node.version + 1 } (by rw [h]; rfl) })

def Server.insert (s : Server) (n : Name) (k : Key) (node : Znode) (h : (s.tree.get k).isSome) : Server where
  tree := s.tree.insert n k node h
  cversion := Function.update (s.childChanged k) (n :: k) 0

def Server.nodeName (s : Server) (k : Key) (leaf : String) (sequence : Bool) : Option Name :=
  Name.of? (if sequence then leaf ++ sequenceSuffix (s.cversion k) else leaf)

def Server.create (s : Server) (path : String) (data : Option String) (flags : CreateFlags) : (Rc × String) × Server :=
  match splitLast path with
  | none => ((zbadarguments, ""), s)
  | some (parent, leaf) =>
    match parseDir parent with
    | none => ((zbadarguments, ""), s)
    | some k =>
      -- only the root, and a sequential node's path, may end in a slash
      if leaf = "" ∧ flags.sequence = false then ((if k = [] then .znodeexists else zbadarguments, ""), s)
      else match h : s.tree.get k with
        | none => ((.znonode, ""), s)
        | some node =>
          match s.nodeName k leaf flags.sequence with
          | none => ((zbadarguments, ""), s)
          | some n =>
            if (s.tree.get (n :: k)).isSome then ((.znodeexists, ""), s)
            else if node.ephemeral then ((.znochildrenforephemerals, ""), s)
            else ((.zok, dir (n :: k)), s.insert n k ⟨data, 0, flags.ephemeral⟩ (by rw [h]; rfl))

def Link.deliver (l : Link) : (Rc × String) × Link := (l.reply.getD (.zok, ""), { l with reply := none })

def server : Env Link where
  isConnected l := (true, l)
  zooGetChildren l path := ((l.server.getChildren path).1, (l.server.getChildren path).2, l)
  zooDelete l path version := ((l.server.delete path version).1, { l with server := (l.server.delete path version).2 })
  zooAdelete l path version :=
    (.zok, ⟨(l.server.delete path version).2, some ((l.server.delete path version).1, "")⟩)
  deleteRc l _ := (l.deliver.1.1, l.deliver.2)

def creations : CreateEnv Link where
  isConnected l := (true, l)
  zooCreate l path data flags :=
    ((l.server.create path data flags).1, { l with server := (l.server.create path data flags).2 })
  zooAcreate l path data flags :=
    (.zok, ⟨(l.server.create path data flags).2, some (l.server.create path data flags).1⟩)
  createReply l _ := l.deliver

section
variable {s : Server} {n : Name} {k : Key} {version : Int32} {node : Znode}

theorem getChildren_server (h : (s.tree.get (n :: k)).isSome) :
    getChildren server s.idle (dir (n :: k)) = (.kZKSucceed, (s.tree.children (n :: k)).map (·.val), s.idle) := by
  obtain ⟨node, hnode⟩ := Option.isSome_iff_exists.mp h
  simp [getChildren, server, Server.idle, Server.getChildren, parse_dir, hnode]

theorem getChildren_server_none (h : s.tree.get (n :: k) = none) :
    getChildren server s.idle (dir (n :: k)) = (.kZKNotExist, [], s.idle) := by
  simp [getChildren, server, Server.idle, Server.getChildren, parse_dir, h]

theorem deleteNode_server (s : Server) (path : String) (version : Int32) : deleteNode server s.idle path version =
    ((match (s.delete path version).1 with
      | .zok => .kZKSucceed
      | .znonode => .kZKNotExist
      | .znotempty => .kZKNotEmpty
      | _ => .kZKError), (s.delete path version).2.idle) := by
  simp only [deleteNode, server, Server.idle]
  split <;> simp_all

theorem delete_none (h : s.tree.get (n :: k) = none) : s.delete (dir (n :: k)) version = (.znonode, s) := by
  simp [Server.delete, parse_dir, h]

theorem delete_badVersion (h : s.tree.get (n :: k) = some node) (hversion : version ≠ -1 ∧ version ≠ node.version) :
    s.delete (dir (n :: k)) version = (.zbadversion, s) := by
  simp [Server.delete, parse_dir, h, hversion]

theorem delete_notEmpty (h : s.tree.get (n :: k) = some node) (hversion : version = -1 ∨ version = node.version)
    (hchildren : s.tree.children (n :: k) ≠ []) : s.delete (dir (n :: k)) version = (.znotempty, s) := by
  have hok : ¬ (version ≠ -1 ∧ version ≠ node.version) := by tauto
  simp [Server.delete, parse_dir, h, hok, hchildren]

theorem delete_leaf (h : s.tree.get (n :: k) = some node) (hversion : version = -1 ∨ version = node.version)
    (hleaf : s.tree.children (n :: k) = []) : s.delete (dir (n :: k)) version =
      (.zok, { s with tree := s.tree.erase (n :: k) (List.cons_ne_nil n k) hleaf, cversion := s.childChanged k }) := by
  have hok : ¬ (version ≠ -1 ∧ version ≠ node.version) := by tauto
  simp [Server.delete, parse_dir, h, hok, hleaf]

/-! ## Creation -/

section
variable {leaf : String} {data : Option String} {flags : CreateFlags}

theorem create_root (h : leaf = "" ∧ flags.sequence = false) :
    s.create (dir [] ++ "/" ++ leaf) data flags = ((.znodeexists, ""), s) := by
  unfold Server.create
  rw [splitLast_append _ (by rw [h.1]; exact nofun)]
  dsimp only
  rw [parseDir_dir]
  dsimp only
  rw [if_pos h]
  rfl

theorem create_noParent (h : '/' ∉ leaf.toList) (hleaf : ¬ (leaf = "" ∧ flags.sequence = false))
    (hk : s.tree.get k = none) : s.create (dir k ++ "/" ++ leaf) data flags = ((.znonode, ""), s) := by
  unfold Server.create
  rw [splitLast_append _ h]
  dsimp only
  rw [parseDir_dir]
  dsimp only
  rw [if_neg hleaf]
  split
  · rfl
  · rename_i hsome
    rw [hk] at hsome
    cases hsome

theorem create_named (h : '/' ∉ leaf.toList) (hleaf : ¬ (leaf = "" ∧ flags.sequence = false))
    (hn : s.nodeName k leaf flags.sequence = some n) (hk : s.tree.get k = some node) :
    s.create (dir k ++ "/" ++ leaf) data flags =
      if (s.tree.get (n :: k)).isSome then ((.znodeexists, ""), s)
      else if node.ephemeral then ((.znochildrenforephemerals, ""), s)
      else ((.zok, dir (n :: k)), s.insert n k ⟨data, 0, flags.ephemeral⟩ (by rw [hk]; rfl)) := by
  unfold Server.create
  rw [splitLast_append _ h]
  dsimp only
  rw [parseDir_dir]
  dsimp only
  rw [if_neg hleaf]
  split
  · rename_i hnone
    rw [hk] at hnone
    cases hnone
  · rename_i hsome
    rw [hk] at hsome
    cases hsome
    rw [hn]

theorem create_exists (data : Option String) (flags : CreateFlags) (h : '/' ∉ leaf.toList)
    (hleaf : ¬ (leaf = "" ∧ flags.sequence = false))
    (hn : s.nodeName k leaf flags.sequence = some n) (hthere : (s.tree.get (n :: k)).isSome) :
    s.create (dir k ++ "/" ++ leaf) data flags = ((.znodeexists, ""), s) := by
  obtain ⟨node, hk⟩ := Option.isSome_iff_exists.mp (NameTree.get_parent hthere)
  rw [create_named h hleaf hn hk, if_pos hthere]

theorem create_ephemeral (data : Option String) (flags : CreateFlags) (h : '/' ∉ leaf.toList)
    (hleaf : ¬ (leaf = "" ∧ flags.sequence = false))
    (hn : s.nodeName k leaf flags.sequence = some n) (hk : s.tree.get k = some node)
    (hnew : s.tree.get (n :: k) = none) (he : node.ephemeral = true) :
    s.create (dir k ++ "/" ++ leaf) data flags = ((.znochildrenforephemerals, ""), s) := by
  rw [create_named h hleaf hn hk, if_neg (by rw [hnew]; nofun), if_pos he]

theorem create_ok (data : Option String) (flags : CreateFlags) (h : '/' ∉ leaf.toList)
    (hleaf : ¬ (leaf = "" ∧ flags.sequence = false))
    (hn : s.nodeName k leaf flags.sequence = some n) (hk : s.tree.get k = some node)
    (hnew : s.tree.get (n :: k) = none) (he : node.ephemeral = false) :
    s.create (dir k ++ "/" ++ leaf) data flags =
      ((.zok, dir (n :: k)), s.insert n k ⟨data, 0, flags.ephemeral⟩ (by rw [hk]; rfl)) := by
  rw [create_named h hleaf hn hk, if_neg (by rw [hnew]; nofun), if_neg (by rw [he]; nofun)]

end

end

end ZkCppClient.Ops
