import Mathlib.Data.List.Perm.Subperm
import ZkCppClient.Ops.ReturnedPath
import ZkCppClient.Ops.StoredValue

/-!
# Requests of many clients

The recipes run in any number of processes, each with a client of its own, on one
server. It takes one request after the other, and a caller may be told of a
failure instead of the answer.
-/

namespace ZkCppClient.Recipes

open SlashPath Ops

/-- What becomes of a request: its answer comes back, or an error does, the
server having carried it out or not, or it is not sent at all. -/
inductive Fate
  | answered
  | lost (applied : Bool)
  | unconnected
  deriving DecidableEq, Repr

def Fate.connected : Fate → Bool
  | .unconnected => false
  | _ => true

def Fate.creations (f : Fate) : CreateEnv Link :=
  { Ops.creations.buffered with
    isConnected := fun l => (f.connected, l)
    zooCreate := fun l path data flags =>
      match f with
      | .lost applied =>
        ((.zconnectionloss, ""), if applied then (Ops.creations.buffered.zooCreate l path data flags).2 else l)
      | _ => Ops.creations.buffered.zooCreate l path data flags }

def Fate.requests (f : Fate) : Env Link :=
  { Ops.server with
    isConnected := fun l => (f.connected, l)
    zooGetChildren := fun l path =>
      match f with
      | .lost _ => (.zconnectionloss, [], l)
      | _ => Ops.server.zooGetChildren l (cString path)
    zooDelete := fun l path version =>
      match f with
      | .lost applied => (.zconnectionloss, if applied then (Ops.server.zooDelete l (cString path) version).2 else l)
      | _ => Ops.server.zooDelete l (cString path) version }

/-- What a caller can pass as a C string. -/
abbrev Text := { s : String // (0 : Char) ∉ s.toList }

/-! The synchronous operations as a process calls them. -/

def createOn (f : Fate) (s : Server) (path : String) (isTemp isSequence : Bool) :
    ZkErrorCode × Option String × Server :=
  let r := create f.creations s.idle path "" isTemp isSequence
  (r.1, r.2.1, r.2.2.server)

def getChildrenOn (f : Fate) (s : Server) (path : String) : ZkErrorCode × List String :=
  let r := getChildren f.requests s.idle path
  (r.1, r.2.1)

def deleteNodeOn (f : Fate) (s : Server) (path : String) : ZkErrorCode × Server :=
  let r := deleteNode f.requests s.idle path (-1)
  (r.1, r.2.server)

end ZkCppClient.Recipes

namespace ZkCppClient.Ops

open SlashPath

def Server.has (s : Server) (path : String) : Bool := ((parse path).bind s.tree.get).isSome

/-- The server makes the node `created` for a request of `path`. -/
def Server.Makes (s : Server) (path : String) (isTemp isSequence : Bool) (created : String) (s' : Server) : Prop :=
  ∃ (n : Name) (k : Key) (h : (s.tree.get k).isSome), created = dir (n :: k) ∧
    created = numbered path isSequence (s.cversion k) ∧ s.tree.get (n :: k) = none ∧
    s' = s.insert n k ⟨some "", 0, isTemp⟩ h

section
variable {s s' : Server} {path p created : String} {n : Name} {k : Key} {data : Option String} {flags : CreateFlags}
  {isTemp isSequence : Bool}

theorem parse_eq_some (h : parse path = some k) : absolute k = path := by
  unfold parse at h
  split at h
  · cases h
    rename_i hroot
    exact hroot.symm
  · split at h
    · cases h
    · rename_i hne
      have hdir := parseDir_eq_some h
      cases k with
      | nil => exact absurd hdir.symm hne
      | cons n k => exact hdir

theorem has_iff : s.has path = true ↔ ∃ k, parse path = some k ∧ (s.tree.get k).isSome := by
  simp only [Server.has]
  cases parse path <;> simp

@[simp] theorem has_dir : s.has (dir (n :: k)) = (s.tree.get (n :: k)).isSome := by
  simp [Server.has, parse_dir]

theorem has_insert (h : (s.tree.get k).isSome) (node : Znode) :
    (s.insert n k node h).has p = true ↔ p = dir (n :: k) ∨ s.has p = true := by
  simp only [has_iff, Server.insert, NameTree.get_insert]
  constructor
  · intro hhas
    obtain ⟨k', hk', hsome⟩ := hhas
    by_cases heq : k' = n :: k
    · left
      rw [← parse_eq_some hk', heq]
      rfl
    · right
      rw [if_neg heq] at hsome
      exact ⟨k', hk', hsome⟩
  · intro hp
    rcases hp with rfl | ⟨k', hk', hsome⟩
    · exact ⟨n :: k, parse_dir n k, by simp⟩
    · refine ⟨k', hk', ?_⟩
      by_cases heq : k' = n :: k
      · simp [heq]
      · simp [heq, hsome]

theorem has_erase (hleaf : s.tree.children (n :: k) = []) (cversion : Key → Nat) :
    ({ s with tree := s.tree.erase (n :: k) (List.cons_ne_nil n k) hleaf, cversion } : Server).has p = true ↔
      p ≠ dir (n :: k) ∧ s.has p = true := by
  simp only [has_iff, NameTree.get_erase]
  constructor
  · intro hhas
    obtain ⟨k', hk', hsome⟩ := hhas
    by_cases heq : k' = n :: k
    · simp [heq] at hsome
    · rw [if_neg heq] at hsome
      refine ⟨fun hp => heq ?_, k', hk', hsome⟩
      rw [hp, parse_dir] at hk'
      exact (Option.some.inj hk').symm
  · intro hhas
    obtain ⟨hne, k', hk', hsome⟩ := hhas
    have heq : k' ≠ n :: k := by
      intro heq
      apply hne
      rw [← parse_eq_some hk', heq]
      rfl
    exact ⟨k', hk', by rw [if_neg heq]; exact hsome⟩

theorem create_refused {rc : Rc} (h : s.create path data flags = ((rc, created), s')) (hrc : rc ≠ .zok) : s' = s := by
  unfold Server.create at h
  split at h
  · cases h; rfl
  · split at h
    · cases h; rfl
    · split at h
      · cases h; rfl
      · split at h
        · cases h; rfl
        · split at h
          · cases h; rfl
          · split at h
            · cases h; rfl
            · split at h
              · cases h; rfl
              · cases h
                exact absurd rfl hrc

theorem create_made (h : s.create path data flags = ((.zok, created), s')) :
    ∃ (n : Name) (k : Key) (hk : (s.tree.get k).isSome), created = dir (n :: k) ∧
      created = numbered path flags.sequence (s.cversion k) ∧ s.tree.get (n :: k) = none ∧
      s' = s.insert n k ⟨data, 0, flags.ephemeral⟩ hk := by
  obtain ⟨k, leaf, rfl, hslash, hleaf⟩ := create_leaf (congrArg Prod.fst h)
  obtain ⟨n, hn, hval⟩ := nodeName_eq (s := s) (k := k) hslash hleaf
  cases hk : s.tree.get k with
  | none =>
    rw [create_noParent hslash hleaf hk] at h
    cases h
  | some node =>
    rw [create_named hslash hleaf hn hk] at h
    split at h
    · cases h
    · rename_i hnew
      split at h
      · cases h
      · cases h
        refine ⟨n, k, by rw [hk]; rfl, rfl, ?_, Option.not_isSome_iff_eq_none.mp hnew, rfl⟩
        rw [← append_numbered, numbered, ← hval]
        rfl

theorem create_there (h : s.create path data flags = ((.znodeexists, created), s')) (hf : flags.sequence = false) :
    s.has path = true := by
  unfold Server.create at h
  split at h
  · cases h
  · rename_i parent leaf hsplit
    obtain ⟨rfl, hslash⟩ := splitLast_eq_some hsplit
    split at h
    · cases h
    · rename_i k hk
      have hparent := parseDir_eq_some hk
      subst hparent
      split at h
      · rename_i hleaf
        split at h
        · rename_i hroot
          subst hroot
          rw [hleaf.1]
          exact has_iff.mpr ⟨[], rfl, NameTree.get_isSome.mpr s.tree.root⟩
        · cases h
      · rename_i hleaf
        split at h
        · cases h
        · rename_i node hnode
          split at h
          · cases h
          · rename_i n hn
            split at h
            · rename_i hthere
              have hval := Name.of?_eq_some hn
              rw [hf] at hval
              rw [← show n.val = leaf from hval]
              rwa [show dir k ++ "/" ++ n.val = dir (n :: k) from rfl, has_dir]
            · split at h <;> cases h

theorem delete_refused {rc : Rc} {version : Int32} (h : s.delete path version = (rc, s')) (hrc : rc ≠ .zok) : s' = s := by
  unfold Server.delete at h
  split at h
  · split at h
    · cases h; rfl
    · split at h
      · cases h; rfl
      · split at h
        · cases h
          exact absurd rfl hrc
        · cases h; rfl
  · cases h; rfl

theorem delete_done {version : Int32} (h : s.delete path version = (.zok, s')) :
    ∃ (n : Name) (k : Key) (hleaf : s.tree.children (n :: k) = []), path = dir (n :: k) ∧ s.has path = true ∧
      s' = { s with
        tree := s.tree.erase (n :: k) (List.cons_ne_nil n k) hleaf, cversion := s.childChanged k } := by
  unfold Server.delete at h
  split at h
  · rename_i n k hparse
    split at h
    · cases h
    · rename_i node hnode
      split at h
      · cases h
      · split at h
        · rename_i hleaf
          cases h
          exact ⟨n, k, hleaf, (parse_eq_some hparse).symm, has_iff.mpr ⟨_, hparse, by rw [hnode]; rfl⟩, rfl⟩
        · cases h
  · cases h

theorem has_child {leaf : String} (h : '/' ∉ leaf.toList) :
    s.has (dir k ++ "/" ++ leaf) = true ↔ leaf = "" ∧ k = [] ∨ ∃ m : Name, m.val = leaf ∧ (s.tree.get (m :: k)).isSome := by
  rw [has_iff]
  constructor
  · intro ⟨k', hk', hsome⟩
    have hsplit := splitLast_append (dir k) h
    rw [← parse_eq_some hk'] at hsplit
    cases k' with
    | nil =>
      obtain ⟨hk, hleaf⟩ := Prod.mk.inj (Option.some.inj hsplit)
      have hroot := parseDir_dir k
      rw [← hk] at hroot
      exact .inl ⟨hleaf.symm, (Option.some.inj hroot).symm⟩
    | cons m k' =>
      rw [absolute, dir, splitLast_append (dir k') m.property.2] at hsplit
      obtain ⟨hk, hleaf⟩ := Prod.mk.inj (Option.some.inj hsplit)
      have hdir := parseDir_dir k'
      rw [hk, parseDir_dir] at hdir
      cases hdir
      exact .inr ⟨m, hleaf, hsome⟩
  · intro h'
    rcases h' with ⟨rfl, rfl⟩ | ⟨m, rfl, hsome⟩
    · exact ⟨[], rfl, NameTree.get_isSome.mpr s.tree.root⟩
    · exact ⟨m :: k, parse_dir m k, hsome⟩

theorem mem_getChildren {m : Name} {leaf : String} (h : '/' ∉ leaf.toList) :
    leaf ∈ (s.getChildren (dir (m :: k))).2 ↔ s.has (dir (m :: k) ++ "/" ++ leaf) = true := by
  rw [has_child h]
  cases hk : s.tree.get (m :: k) with
  | none =>
    have hlist : s.getChildren (dir (m :: k)) = (.znonode, []) := by simp [Server.getChildren, parse_dir, hk]
    rw [hlist]
    constructor
    · intro hmem
      cases hmem
    · rintro (⟨-, hroot⟩ | ⟨n, -, hsome⟩)
      · cases hroot
      · have hparent := NameTree.get_parent hsome
        rw [hk] at hparent
        cases hparent
  | some node =>
    have hlist : s.getChildren (dir (m :: k)) = (.zok, (s.tree.children (m :: k)).map (·.val)) := by
      simp [Server.getChildren, parse_dir, hk]
    rw [hlist]
    simp only [List.mem_map, NameTree.mem_children]
    constructor
    · intro hmem
      obtain ⟨n, hsome, hn⟩ := hmem
      exact .inr ⟨n, hn, hsome⟩
    · rintro (⟨-, hroot⟩ | ⟨n, hn, hsome⟩)
      · cases hroot
      · exact ⟨n, hsome, hn⟩

def Server.childList (s : Server) (path : String) : Option (List String) :=
  match s.getChildren path with
  | (.zok, childNodes) => some childNodes
  | _ => none

@[simp] theorem childList_getD : (s.childList path).getD [] = (s.getChildren path).2 := by
  simp only [Server.childList, Server.getChildren]
  cases parse path with
  | none => rfl
  | some k => cases hk : s.tree.get k <;> simp only [hk] <;> rfl

theorem noSlash_of_mem_getChildren {leaf : String} (h : leaf ∈ (s.getChildren path).2) : '/' ∉ leaf.toList := by
  unfold Server.getChildren at h
  split at h
  · cases h
  · split at h
    · cases h
    · obtain ⟨m, -, rfl⟩ := List.mem_map.mp h
      exact m.property.2

theorem nodup_getChildren (s : Server) (path : String) : (s.getChildren path).2.Nodup := by
  unfold Server.getChildren
  split
  · exact List.nodup_nil
  · split
    · exact List.nodup_nil
    · exact NameTree.nodup_children.map Subtype.val_injective

theorem length_getChildren {m : Name} {created : String}
    (h : ∀ p, s'.has p = true → p = created ∨ s.has p = true) :
    (s'.getChildren (dir (m :: k))).2.length ≤ (s.getChildren (dir (m :: k))).2.length + 1 := by
  have hsub : ∀ leaf ∈ (s'.getChildren (dir (m :: k))).2,
      dir (m :: k) ++ "/" ++ leaf = created ∨ leaf ∈ (s.getChildren (dir (m :: k))).2 := by
    intro leaf hleaf
    have hslash := noSlash_of_mem_getChildren hleaf
    rw [mem_getChildren hslash] at hleaf ⊢
    exact h _ hleaf
  have hnodup := nodup_getChildren s' (dir (m :: k))
  generalize (s'.getChildren (dir (m :: k))).2 = after at *
  generalize (s.getChildren (dir (m :: k))).2 = before at *
  by_cases hnew : ∃ leaf, dir (m :: k) ++ "/" ++ leaf = created
  · obtain ⟨leaf, rfl⟩ := hnew
    have hcons : after ⊆ leaf :: before := by
      intro leaf' hleaf'
      rcases hsub leaf' hleaf' with heq | hmem
      · rw [String.append_right_inj] at heq
        exact List.mem_cons.mpr (.inl heq)
      · exact List.mem_cons_of_mem _ hmem
    exact (hnodup.subperm hcons).length_le
  · have hsubset : after ⊆ before := fun leaf hleaf => (hsub leaf hleaf).resolve_left fun heq => hnew ⟨leaf, heq⟩
    exact Nat.le_succ_of_le (hnodup.subperm hsubset).length_le

/-! ## Numbers of sequential nodes -/

theorem cversion_insert (h : (s.tree.get k).isSome) (node : Znode) (hnew : s.tree.get (n :: k) = none) {k' : Key}
    (hk' : (s.tree.get k').isSome) :
    (s.insert n k node h).cversion k' = s.cversion k' + if k' = k then 1 else 0 := by
  have hne : k' ≠ n :: k := by
    intro heq
    rw [heq, hnew] at hk'
    cases hk'
  simp only [Server.insert, Server.childChanged, Function.update_apply, hne, if_false]
  split
  · rename_i heq
    rw [heq]
  · rfl

theorem Server.Makes.has (h : s.Makes path isTemp isSequence created s') :
    s'.has p = true ↔ p = created ∨ s.has p = true := by
  obtain ⟨n, k, hk, rfl, -, -, rfl⟩ := h
  exact has_insert hk _

theorem Server.Makes.created_eq (h : s.Makes path isTemp false created s') : created = path := by
  obtain ⟨n, k, hk, -, hcreated, -, -⟩ := h
  exact hcreated

theorem Server.Makes.new (h : s.Makes path isTemp isSequence created s') : s.has created = false := by
  obtain ⟨n, k, hk, rfl, -, hnew, rfl⟩ := h
  simp [hnew]

theorem delete_has {version : Int32} (h : s.delete path version = (.zok, s')) :
    s'.has p = true ↔ p ≠ path ∧ s.has p = true := by
  obtain ⟨n, k, hleaf, rfl, -, rfl⟩ := delete_done h
  exact has_erase hleaf _

end

end ZkCppClient.Ops

namespace ZkCppClient.Recipes

open SlashPath Ops

/-! ## What the operations do to the server -/

section
variable {f : Fate} {s s' : Server} {path : String} {isTemp isSequence : Bool} {ec : ZkErrorCode} {ret : Option String}

theorem createOn_unconnected : createOn .unconnected s path isTemp isSequence = (.kZKLostConnection, none, s) := rfl

theorem createOn_lost (applied : Bool) : createOn (.lost applied) s path isTemp isSequence = (.kZKError, none,
    if applied then (s.create (cString path) (some "") ⟨isTemp, isSequence⟩).2 else s) := by
  cases applied <;> rfl

theorem createOn_answered {rc : Rc} {created : String}
    (h : s.create (cString path) (some "") ⟨isTemp, isSequence⟩ = ((rc, created), s')) :
    createOn .answered s path isTemp isSequence =
      (createCode rc, if rc = .zok then some (throughBuffer kMaxPathLength created) else none, s') := by
  simp only [createOn, create, Fate.creations, Ops.creations, CreateEnv.buffered, CreateEnv.returning, Server.idle, Fate.connected, h]
  cases rc <;> rfl

theorem createOn_cases (h : createOn f s path isTemp isSequence = (ec, ret, s')) :
    (ec = .kZKSucceed ∧ ∃ created, ret = some (throughBuffer kMaxPathLength created) ∧
      s.Makes (cString path) isTemp isSequence created s') ∨
    (ec ≠ .kZKSucceed ∧ (s' = s ∨ ∃ created, s.Makes (cString path) isTemp isSequence created s')) := by
  cases hr : s.create (cString path) (some "") ⟨isTemp, isSequence⟩ with
  | mk answer server =>
    obtain ⟨rc, created⟩ := answer
    cases f with
    | unconnected =>
      cases h
      exact .inr ⟨nofun, .inl rfl⟩
    | lost applied =>  -- the caller is told of an error, whatever the server has done
      rw [createOn_lost, hr] at h
      cases h
      refine .inr ⟨nofun, ?_⟩
      cases applied with
      | false => exact .inl rfl
      | true =>
        by_cases hrc : rc = .zok
        · subst hrc
          exact .inr ⟨created, create_made hr⟩
        · exact .inl (create_refused hr hrc)
    | answered =>
      rw [createOn_answered hr] at h
      by_cases hrc : rc = .zok
      · subst hrc
        cases h
        exact .inl ⟨rfl, created, rfl, create_made hr⟩
      · cases h
        exact .inr ⟨fun hec => hrc (createCode_succeed hec), .inl (create_refused hr hrc)⟩

theorem createOn_grows (h : createOn f s path isTemp isSequence = (ec, ret, s')) {p : String} (hp : s.has p = true) :
    s'.has p = true := by
  rcases createOn_cases h with ⟨-, created, -, hmade⟩ | ⟨-, rfl | ⟨created, hmade⟩⟩
  · exact hmade.has.mpr (.inr hp)
  · exact hp
  · exact hmade.has.mpr (.inr hp)

theorem createOn_succeed (h : createOn f s path isTemp isSequence = (.kZKSucceed, ret, s')) :
    ∃ created, ret = some (throughBuffer kMaxPathLength created) ∧
      s.Makes (cString path) isTemp isSequence created s' := by
  rcases createOn_cases h with ⟨-, hmade⟩ | ⟨hne, -⟩
  · exact hmade
  · exact absurd rfl hne

theorem createOn_existed (h : createOn f s path isTemp false = (.kZKExisted, ret, s')) :
    s.has (cString path) = true ∧ s' = s := by
  cases hr : s.create (cString path) (some "") ⟨isTemp, false⟩ with
  | mk answer server =>
    obtain ⟨rc, created⟩ := answer
    cases f with
    | unconnected => cases h
    | lost applied =>
      rw [createOn_lost] at h
      cases h
    | answered =>
      rw [createOn_answered hr] at h
      cases rc with
      | znodeexists =>
        cases h
        exact ⟨create_there hr rfl, create_refused hr nofun⟩
      | _ => cases h

theorem getChildrenOn_succeed {childNodes : List String} (hpath : cString path = path)
    (h : getChildrenOn f s path = (.kZKSucceed, childNodes)) : childNodes = (s.getChildren path).2 := by
  simp only [getChildrenOn, Ops.getChildren, Fate.requests, Ops.server, Server.idle, hpath] at h
  cases f with
  | unconnected => simp [Fate.connected] at h
  | lost applied => simp [Fate.connected] at h
  | answered =>
    simp only [Fate.connected] at h
    cases hr : s.getChildren path with
    | mk rc names =>
      rw [hr] at h
      cases rc with
      | zok =>
        cases h
        rfl
      | _ => cases h

theorem deleteNodeOn_lost (applied : Bool) : deleteNodeOn (.lost applied) s path =
    (.kZKError, if applied then (s.delete (cString path) (-1)).2 else s) := by
  cases applied <;> rfl

theorem deleteNodeOn_answered {rc : Rc} (h : s.delete (cString path) (-1) = (rc, s')) :
    (deleteNodeOn .answered s path).2 = s' := by
  simp only [deleteNodeOn, deleteNode, Fate.requests, Ops.server, Server.idle, Fate.connected, h]
  cases rc <;> rfl

theorem deleteNodeOn_cases (f : Fate) (s : Server) (path : String) :
    (deleteNodeOn f s path).2 = s ∨ s.delete (cString path) (-1) = (.zok, (deleteNodeOn f s path).2) := by
  cases hr : s.delete (cString path) (-1) with
  | mk rc server =>
    have hserver : (deleteNodeOn f s path).2 = s ∨ (deleteNodeOn f s path).2 = server := by
      cases f with
      | unconnected => exact .inl rfl
      | lost applied =>
        rw [deleteNodeOn_lost, hr]
        cases applied <;> simp
      | answered => exact .inr (deleteNodeOn_answered hr)
    rcases hserver with hs | hs
    · exact .inl hs
    · rw [hs]
      by_cases hrc : rc = .zok
      · exact .inr (by rw [hrc])
      · exact .inl (delete_refused hr hrc)

end

end ZkCppClient.Recipes
