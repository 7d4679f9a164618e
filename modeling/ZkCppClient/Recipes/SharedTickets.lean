import ZkCppClient.Recipes.SharedLock

/-!
# Tickets of the shared lock

A node of the shared lock is numbered by its parent's count of changes, so the
numbers only grow, and the name that comes back through the buffer is the whole
name.
-/

namespace ZkCppClient.Recipes.SharedLock

open SlashPath Ops

/-- A name from which every node's kind and number can be read back, and which is
short enough for the whole path to come back. -/
structure LockName where
  name : Text
  noSlash : '/' ∉ name.val.toList
  unmarked : Unmarked name.val
  short : (parentPath ++ "/" ++ name.val).length + 13 < kMaxPathLength

/-- The server counts in 32 bits. -/
def maxSequence : Nat := 2147483648

def children (s : Server) : List String := (s.getChildren parentPath).2

section
variable {ι : Type*} (names : ι → LockName)

def LockName.texts (i : ι) : Text := (names i).name

def ticketName (i : ι) (isRead : Bool) (n : Nat) : String := markedName (names i).name.val isRead ++ sequenceSuffix n

def ticketPath (i : ι) (isRead : Bool) (n : Nat) : String := parentPath ++ "/" ++ ticketName names i isRead n

end

/-- The directory stays, it counts on, and no node is added to it. -/
structure Kept (s s' : Server) : Prop where
  parent : s.has parentPath → s'.has parentPath
  counter : s.has parentPath → s.cversion parentKey ≤ s'.cversion parentKey
  nodes : ∀ node ∈ children s', node ∈ children s

section
variable {ι : Type*} {names : ι → LockName} {i j : ι} {isRead : Bool} {n : Nat} {s s' : Server} {node path created : String}

theorem Kept.refl (s : Server) : Kept s s := ⟨id, fun _ => Nat.le_refl _, fun _ => id⟩

theorem has_parent : s.has parentPath = true ↔ (s.tree.get parentKey).isSome := by
  rw [show parentPath = dir parentKey from Eq.refl _]
  simp [parentKey]

theorem length_suffix (h : n < maxSequence) : (sequenceSuffix n).toList.length = 10 := by
  have hdigits : (Nat.toDigits 10 n).length ≤ 10 := by
    rw [Nat.length_toDigits_le_iff (by decide) (by decide)]
    have hmax : maxSequence < 10 ^ 10 := by decide
    omega
  rw [sequenceSuffix_toList, List.length_append, List.length_replicate]
  omega

theorem unmarked_path {name : String} (h : Unmarked name) : Unmarked (parentPath ++ "/" ++ name) := by
  have hdash : '-' ∉ (parentPath ++ "/").toList := by decide
  have hmark : ∀ c, ('-' :: c) <:+: (parentPath ++ "/" ++ name).toList ++ ['-'] ↔ ('-' :: c) <:+: name.toList ++ ['-'] := by
    intro c
    rw [String.toList_append, List.append_assoc, Find.infix_append_iff hdash]
  exact ⟨(hmark _).not.mpr h.1, (hmark _).not.mpr h.2⟩

theorem ticketPath_eq : ticketPath names i isRead n = childPath (LockName.texts names) i isRead ++ sequenceSuffix n := by
  simp only [ticketPath, ticketName, childPath, LockName.texts, String.append_assoc]

theorem ticketPath_marked : ticketPath names i isRead n =
    markedName (parentPath ++ "/" ++ (names i).name.val) isRead ++ sequenceSuffix n := by
  simp only [ticketPath, ticketName, markedName, String.append_assoc]

@[simp] theorem getSeqNo_ticketName (h : n ≤ ullongMax) : getSeqNo (ticketName names i isRead n) = n :=
  (readBack_of_unmarked (names i).unmarked isRead n h).2

@[simp] theorem getSeqNo_ticketPath (h : n ≤ ullongMax) : getSeqNo (ticketPath names i isRead n) = n := by
  rw [ticketPath_marked]
  exact (readBack_of_unmarked (unmarked_path (names i).unmarked) isRead n h).2

theorem isReadTypeLock_ticketName (h : n ≤ ullongMax) : isReadTypeLock (ticketName names i isRead n) = isRead :=
  (readBack_of_unmarked (names i).unmarked isRead n h).1

theorem ticketName_noSlash : '/' ∉ (ticketName names i isRead n).toList := by
  have hsuffix := slash_not_mem_suffix n
  have hname := (names i).noSlash
  cases isRead <;> simp [ticketName, markedName, hsuffix, hname]

theorem ticketPath_zero : (0 : Char) ∉ (ticketPath names i isRead n).toList := by
  have hsuffix := zero_not_mem_suffix n
  have hname := (names i).name.property
  cases isRead <;> simp [ticketPath, ticketName, markedName, hsuffix, hname] <;> decide

theorem childPath_cString : cString (childPath (LockName.texts names) i isRead) = childPath (LockName.texts names) i isRead := by
  have hname := (names i).name.property
  rw [cString_eq_self]
  cases isRead <;> simp [childPath, LockName.texts, markedName, hname] <;> decide

theorem throughBuffer_ticketPath (h : n < maxSequence) :
    throughBuffer kMaxPathLength (ticketPath names i isRead n) = ticketPath names i isRead n := by
  rw [throughBuffer_eq_self (by decide) ticketPath_zero]
  have hsuffix := length_suffix h
  have hshort := (names i).short
  have hmark : (if isRead then "-R-" else "-W-" : String).length = 3 := by cases isRead <;> rfl
  rw [ticketPath_marked, markedName, String.length_append, String.length_append, hmark, ← String.length_toList (s := sequenceSuffix n)]
  omega

theorem mem_children (h : '/' ∉ node.toList) : node ∈ children s ↔ s.has (parentPath ++ "/" ++ node) = true :=
  mem_getChildren (m := ⟨"shared_lock", by decide⟩) (k := []) h

theorem noSlash_of_mem (h : node ∈ children s) : '/' ∉ node.toList := noSlash_of_mem_getChildren h

/-! ## What requests do to the directory -/

theorem kept_delete {version : Int32} (h : s.delete path version = (.zok, s')) (hne : path ≠ parentPath) : Kept s s' := by
  refine ⟨fun hparent => (delete_has h).mpr ⟨hne.symm, hparent⟩, fun _ => ?_, fun node hnode => ?_⟩
  · obtain ⟨n, k, hleaf, -, -, rfl⟩ := delete_done h
    simp only [Server.childChanged, Function.update_apply]
    split
    · rename_i hk
      rw [hk]
      exact Nat.le_succ _
    · exact Nat.le_refl _
  · have hslash := noSlash_of_mem hnode
    rw [mem_children hslash] at hnode ⊢
    exact ((delete_has h).mp hnode).2

theorem kept_parent (h : s.Makes parentPath false false created s') : Kept s s' := by
  have hcreated := h.created_eq
  subst hcreated
  have hnew := h.new
  refine ⟨fun hparent => by simp [hnew] at hparent, fun hparent => by simp [hnew] at hparent, fun node hnode => ?_⟩
  have hslash := noSlash_of_mem hnode
  rw [mem_children hslash] at hnode ⊢
  refine (h.has.mp hnode).resolve_left fun heq => ?_
  have hlen := congrArg (fun p : String => p.toList.length) heq
  simp only [String.toList_append, List.length_append] at hlen
  have hone : ("/" : String).toList.length = 1 := by decide
  omega

structure Arrived (names : ι → LockName) (i : ι) (isRead : Bool) (created : String) (s s' : Server) : Prop where
  created : created = ticketPath names i isRead (s.cversion parentKey)
  before : s.has parentPath
  after : s'.has parentPath
  counter : s'.cversion parentKey = s.cversion parentKey + 1
  nodes : ∀ node ∈ children s', node ∈ children s ∨ node = ticketName names i isRead (s.cversion parentKey)

theorem arrived_of_makes (h : s.Makes (childPath (LockName.texts names) i isRead) true true created s') :
    Arrived names i isRead created s s' := by
  have hhas := fun p => h.has (p := p)
  obtain ⟨m, k, hk, hdir, hcreated, hnew, rfl⟩ := h
  -- the node is right below the directory
  have hparent : k = parentKey ∧ m.val = ticketName names i isRead (s.cversion k) := by
    have hname : '/' ∉ (ticketName names i isRead (s.cversion k)).toList := ticketName_noSlash
    have hpath : dir k ++ "/" ++ m.val = parentPath ++ "/" ++ ticketName names i isRead (s.cversion k) := by
      rw [numbered, if_pos rfl, ← ticketPath_eq] at hcreated
      exact hdir.symm.trans hcreated
    have hsplit := splitLast_append (dir k) m.property.2
    rw [hpath, splitLast_append parentPath hname] at hsplit
    obtain ⟨hp, hm⟩ := Prod.mk.inj (Option.some.inj hsplit)
    have hkey := parseDir_dir k
    rw [← hp, show parentPath = dir parentKey from Eq.refl _, parseDir_dir] at hkey
    exact ⟨(Option.some.inj hkey).symm, hm.symm⟩
  obtain ⟨rfl, hm⟩ := hparent
  rw [numbered, if_pos rfl, ← ticketPath_eq] at hcreated
  refine ⟨hcreated, has_parent.mpr hk, (hhas _).mpr (.inr (has_parent.mpr hk)), ?_, fun node hnode => ?_⟩
  · rw [cversion_insert hk _ hnew hk, if_pos rfl]
  · have hslash := noSlash_of_mem hnode
    rw [mem_children hslash, hhas] at hnode
    rw [mem_children hslash]
    rcases hnode with heq | hthere
    · right
      rw [hcreated, ticketPath] at heq
      have hsplit := splitLast_append parentPath hslash
      rw [heq, splitLast_append parentPath ticketName_noSlash] at hsplit
      exact (Prod.mk.inj (Option.some.inj hsplit)).2.symm
    · exact .inl hthere

end

end ZkCppClient.Recipes.SharedLock
