import ZkCppClient.Ops.CreateAgree
import ZkCppClient.Ops.DeleteAgree
import ZkCppClient.Ops.ReadAgree

/-!
# What was stored and what is read

`create` and synchronous `set` send the whole value, of whatever length, and
synchronous `getNode` reads it into a buffer of `kMaxNodeValueLength` bytes: the
library copies what fits and reports success.
-/

namespace ZkCppClient.Ops

open SlashPath

structure WriteEnv (σ : Type*) where
  isConnected : σ → Bool × σ
  zooSet : σ → String → Option String → Int32 → Rc × σ

def set {σ : Type*} (E : WriteEnv σ) (s : σ) (path value : String) (version : Int32) : ZkErrorCode × σ :=
  match E.isConnected s with
  | (false, s) => (.kZKLostConnection, s)
  | (true, s) =>
    match E.zooSet s path (some value) version with
    | (.zok, s) => (.kZKSucceed, s)
    | (.znonode, s) => (.kZKNotExist, s)
    | (_, s) => (.kZKError, s)

def writes : WriteEnv Link where
  isConnected l := (true, l)
  zooSet l path data version := ((l.server.set path data version).1, { l with server := (l.server.set path data version).2 })

def bytes (s : String) : List UInt8 := s.toList.map Char.toUInt8

/-- What the library answers of a node: the bytes that fit, their number, -1 for
the null datum, and the version. -/
def Znode.read (node : Znode) (size : Nat) : List UInt8 × Int × Int32 :=
  let copied := ((node.value.map bytes).getD []).take size
  (copied ++ List.replicate (size - copied.length) 0, if node.value = none then -1 else copied.length, node.version)

def reads (connected : Bool) (failed : Option { rc : Rc // rc ≠ .zok }) : ReadEnv Server where
  isConnected s := (connected, s)
  zooGet s path size :=
    let nothing := (List.replicate size 0, (size : Int), (0 : Int32))
    match failed with
    | some rc => ((rc.val, nothing), s)
    | none =>
      match parse path with
      | none => ((zbadarguments, nothing), s)
      | some k =>
        match s.tree.get k with
        | none => ((.znonode, nothing), s)
        | some node => ((.zok, node.read size), s)

/-- A successful `create` or `set` has left `v` in the node of this key. -/
inductive Stored (v : List UInt8) : Server → Key → Prop
  | create {isSequence : Bool} {s s' : Server} (p : LeafPath isSequence) {isTemp : Bool} {retPath : Option String}
      {n : Name} : n.val = (if isSequence then p.leaf ++ sequenceSuffix (s.cversion p.parent) else p.leaf) →
      create creations s.idle p.path (stdString v) isTemp isSequence = (.kZKSucceed, retPath, s'.idle) →
      Stored v s' (n :: p.parent)
  | set {s s' : Server} {k : Key} {version : Int32} :
      set writes s.idle (absolute k) (stdString v) version = (.kZKSucceed, s'.idle) → Stored v s' k

def ReadsBack (s : Server) (k : Key) (v : List UInt8) : Prop :=
  ∀ connected failed value version value' version' s',
    getNode (reads connected failed) s (absolute k) value version = some ((.kZKSucceed, value', version'), s') →
      value' = stdString v

section
variable {s s' : Server} {k : Key} {v : List UInt8} {node : Znode}

theorem toUInt8_ofUInt8 (b : UInt8) : (Char.ofUInt8 b).toUInt8 = b := by
  show b.toUInt32.toUInt8 = b
  simp

theorem bytes_stdString (v : List UInt8) : bytes (stdString v) = v := by
  simp only [bytes, stdString, String.toList_ofList, List.map_map]
  have hid : Char.toUInt8 ∘ Char.ofUInt8 = id := funext toUInt8_ofUInt8
  rw [hid, List.map_id]

theorem stdString_inj {u v : List UInt8} (h : stdString u = stdString v) : u = v := by
  rw [← bytes_stdString u, h, bytes_stdString]

/-! ## Writing -/

theorem create_stores {isSequence isTemp : Bool} (p : LeafPath isSequence) {data : Option String}
    (hok : (s.create p.path data ⟨isTemp, isSequence⟩).1.1 = .zok) :
    ∃ n : Name, n.val = (if isSequence then p.leaf ++ sequenceSuffix (s.cversion p.parent) else p.leaf) ∧
      (s.create p.path data ⟨isTemp, isSequence⟩).2.tree.get (n :: p.parent) = some ⟨data, 0, isTemp⟩ := by
  by_cases hleaf : p.leaf = "" ∧ isSequence = false
  · have hroot : p.parent = [] := (p.named hleaf.1).resolve_left (by rw [hleaf.2]; nofun)
    rw [LeafPath.path, hroot, create_root hleaf] at hok
    cases hok
  · obtain ⟨n, hn, hval⟩ := nodeName_eq (s := s) (k := p.parent) p.noSlash hleaf
    refine ⟨n, hval, ?_⟩
    unfold LeafPath.path at hok ⊢
    cases hk : s.tree.get p.parent with
    | none =>
      rw [create_noParent p.noSlash hleaf hk] at hok
      cases hok
    | some node =>
      rw [create_named p.noSlash hleaf hn hk] at hok ⊢
      split at hok
      · cases hok
      · split at hok
        · cases hok
        · rw [if_neg ‹_›, if_neg ‹_›, Server.insert, NameTree.get_insert, if_pos rfl]

theorem createCode_succeed {rc : Rc} (h : createCode rc = .kZKSucceed) : rc = .zok := by
  cases rc <;> first | rfl | cases h

theorem set_stores {path : String} {data : Option String} {version : Int32} (hk : parse path = some k)
    (hok : (s.set path data version).1 = .zok) :
    ∃ node, (s.set path data version).2.tree.get k = some node ∧ node.value = data := by
  unfold Server.set at hok ⊢
  rw [hk] at hok ⊢
  dsimp only at hok ⊢
  split at hok
  · cases hok
  · split at hok
    · cases hok
    · rw [if_neg ‹_›, NameTree.get_set, if_pos rfl]
      exact ⟨_, rfl, rfl⟩

theorem set_writes_ok {path value : String} {version : Int32}
    (h : set writes s.idle path value version = (.kZKSucceed, s'.idle)) :
    s.set path (some value) version = (.zok, s') := by
  simp only [set, writes, Server.idle] at h
  generalize s.set path (some value) version = r at h ⊢
  obtain ⟨rc, t⟩ := r
  cases rc with
  | zok => rw [show t = s' from congrArg (·.2.server) h]
  | _ => cases congrArg Prod.fst h

theorem Stored.get (h : Stored v s k) : ∃ node, s.tree.get k = some node ∧ node.value = some (stdString v) := by
  cases h with
  | @create isSequence s₀ _ p isTemp retPath n hval hrun =>
    rw [create_creations] at hrun
    injection hrun with hec hrest
    injection hrest with hpath hs'
    obtain ⟨n', hval', hget⟩ := create_stores p (createCode_succeed hec)
    have hs' : (s₀.create p.path (some (stdString v)) ⟨isTemp, isSequence⟩).2 = s := congrArg Link.server hs'
    have hn : n' = n := Subtype.ext (hval'.trans hval.symm)
    subst hn
    rw [hs'] at hget
    exact ⟨_, hget, rfl⟩
  | @set s₀ _ _ version hrun =>
    have hset := set_writes_ok hrun
    have hget := set_stores (parse_absolute k) (congrArg Prod.fst hset)
    rwa [hset] at hget

/-! ## Reading -/

theorem read_node (hvalue : node.value = some (stdString v)) (size : Nat) :
    node.read size = (v.take size ++ List.replicate (size - (v.take size).length) 0, ((v.take size).length : Int),
      node.version) := by
  simp only [Znode.read, hvalue, Option.map_some, Option.getD_some, bytes_stdString]
  rfl

theorem getNode_reads (hk : s.tree.get k = some node) (hvalue : node.value = some (stdString v))
    (value : String) (version : Int32) : getNode (reads true none) s (absolute k) value version =
      some ((.kZKSucceed, stdString (v.take kMaxNodeValueLength), node.version), s) := by
  simp only [getNode, reads, parse_absolute, hk, read_node hvalue]
  have hlen : ((v.take kMaxNodeValueLength).length : Int) ≠ -1 := by omega
  have hnonneg : ¬ ((v.take kMaxNodeValueLength).length : Int) < 0 := by omega
  rw [if_pos hlen, assign, if_neg hnonneg, Option.getD_some, Int.toNat_natCast, List.take_left]
  rfl

theorem getNode_succeeds {connected : Bool} {failed : Option { rc : Rc // rc ≠ .zok }} {value value' : String}
    {version version' : Int32}
    (h : getNode (reads connected failed) s (absolute k) value version = some ((.kZKSucceed, value', version'), s')) :
    connected = true ∧ failed = none := by
  cases connected with
  | false => cases h
  | true =>
    cases failed with
    | none => exact ⟨rfl, rfl⟩
    | some rc =>
      obtain ⟨rc, hrc⟩ := rc
      cases rc with
      | zok => exact absurd rfl hrc
      | _ => cases h

theorem ReadsBack.length_le (h : Stored v s k) (hkept : s'.tree.get k = s.tree.get k) (hback : ReadsBack s' k v) :
    v.length ≤ kMaxNodeValueLength := by
  obtain ⟨node, hnode, hvalue⟩ := h.get
  have htake := stdString_inj (hback _ _ _ _ _ _ _ (getNode_reads (hkept.trans hnode) hvalue "" 0))
  rw [← htake]
  exact List.length_take_le _ _

end

/-- **What was stored is what is read** just of the values that fit into the buffer. -/
theorem stored_read_iff {s s' : Server} {k : Key} {v : List UInt8} (h : Stored v s k)
    (hkept : s'.tree.get k = s.tree.get k) : ReadsBack s' k v ↔ v.length ≤ kMaxNodeValueLength := by
  constructor
  · exact fun hback => hback.length_le h hkept
  · intro hlen connected failed value version value' version' s'' hrun
    obtain ⟨node, hnode, hvalue⟩ := h.get
    obtain ⟨rfl, rfl⟩ := getNode_succeeds hrun
    rw [getNode_reads (hkept.trans hnode) hvalue, List.take_of_length_le hlen] at hrun
    cases hrun
    rfl

theorem stored_root (v : List UInt8) : Stored v (bareServer.set "/" (some (stdString v)) (-1)).2 [] :=
  @Stored.set v bareServer _ [] (-1) rfl

theorem stored_read_iff_zero : ReadsBack (bareServer.set "/" (some (stdString [120, 0])) (-1)).2 [] [120, 0] ↔
    [(120 : UInt8), 0].length ≤ kMaxNodeValueLength :=
  stored_read_iff (stored_root [120, 0]) rfl

/-- A value of one byte more than the buffer holds comes back without its last, as a success. -/
theorem not_readsBack_long : ¬ ∀ (v : List UInt8) (s s' : Server) (k : Key), Stored v s k →
    s'.tree.get k = s.tree.get k → ReadsBack s' k v := by
  intro h
  have hstored := stored_root (List.replicate (kMaxNodeValueLength + 1) 120)
  have hlen := (h _ _ _ _ hstored rfl).length_le hstored rfl
  rw [List.length_replicate] at hlen
  exact Nat.not_succ_le_self _ hlen

end ZkCppClient.Ops
