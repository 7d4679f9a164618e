import ZkCppClient.Ops.DeleteRecursive
import ZkCppClient.Ops.Server

/-!
# Recursive deletion beside other clients

Between two requests of a `deleteRecursive` the other clients change the tree
as they like, and each request may fail, having been carried out or not. What a
run does is then a matter of its turns, one for each request, and the
connection is lost when there are no more of them.
-/

namespace ZkCppClient.Ops

open SlashPath

/-- The requests of a deletion at or below `key` keep `I`, and where it holds, what is listed are names. -/
structure Env.Keeps {σ : Type*} (E : Env σ) (I : σ → Prop) (key : Key) : Prop where
  isConnected : ∀ s, I s → I (E.isConnected s).2
  zooGetChildren : ∀ s k, I s → I (E.zooGetChildren s (dir k)).2.2
  names : ∀ s k, I s → ∀ name ∈ (E.zooGetChildren s (dir k)).2.1, ∃ n : Name, n.val = name
  zooDelete : ∀ s k version, key <:+ k → I s → I (E.zooDelete s (dir k) version).2

section
variable {σ : Type*} {E : Env σ} {I : σ → Prop} {key k : Key}

theorem Env.Keeps.getChildren (h : E.Keeps I key) (k : Key) {s s' : σ} {ec : ZkErrorCode} {childNodes : List String}
    (hi : I s) (hget : getChildren E s (dir k) = (ec, childNodes, s')) :
    I s' ∧ ∀ name ∈ childNodes, ∃ n : Name, n.val = name := by
  have hconn := h.isConnected s hi
  have hstate := h.zooGetChildren (E.isConnected s).2 k hconn
  have hnames := h.names (E.isConnected s).2 k hconn
  unfold Ops.getChildren at hget
  split at hget
  · rename_i s₁ heq
    rw [heq] at hconn
    cases hget
    exact ⟨hconn, nofun⟩
  · rename_i s₁ heq
    rw [heq] at hstate hnames
    split at hget
    · rename_i strings s₂ heq'
      rw [heq'] at hstate hnames
      cases hget
      exact ⟨hstate, hnames⟩
    · rename_i strings s₂ heq'
      rw [heq'] at hstate
      cases hget
      exact ⟨hstate, nofun⟩
    · rename_i rc strings s₂ _ _ heq'
      rw [heq'] at hstate
      cases hget
      exact ⟨hstate, nofun⟩

theorem Env.Keeps.deleteNode (h : E.Keeps I key) (hk : key <:+ k) {s : σ} (hi : I s) (version : Int32) :
    I (deleteNode E s (dir k) version).2 := by
  have hconn := h.isConnected s hi
  have hdelete := h.zooDelete (E.isConnected s).2 k version hk hconn
  unfold Ops.deleteNode
  split
  · rename_i s₁ heq
    rw [heq] at hconn
    exact hconn
  · rename_i s₁ heq
    rw [heq] at hdelete
    split <;> rename_i heq' <;> rw [heq'] at hdelete <;> exact hdelete

theorem Env.Keeps.deleteChildren (hdel : ∀ s (n : Name) r, I s → del s (dir (n :: k)) = some r → I r.2) :
    ∀ (childNodes : List String) (s : σ) (r : Bool × σ), (∀ name ∈ childNodes, ∃ n : Name, n.val = name) → I s →
      deleteChildren del (dir k) childNodes s = some r → I r.2
  | [], s, r, _, hi, h => by cases h; exact hi
  | name :: childNodes, s, r, hnames, hi, h => by
    obtain ⟨n, rfl⟩ := hnames name List.mem_cons_self
    simp only [Ops.deleteChildren] at h
    have hpath : dir k ++ "/" ++ n.val = dir (n :: k) := rfl
    rw [hpath] at h
    cases hd : del s (dir (n :: k)) with
    | none => rw [hd] at h; cases h
    | some q =>
      have hq := hdel s n q hi hd
      rw [hd] at h
      dsimp only at h
      split at h
      · cases h; exact hq
      · exact Env.Keeps.deleteChildren hdel childNodes q.2 r (fun name hm => hnames name (List.mem_cons_of_mem _ hm)) hq h

/-- **Rule for recursive deletion.** What its requests keep holds when it returns. -/
theorem Env.Keeps.deleteRecursive (h : E.Keeps I key) : ∀ (fuel : Nat) (s : σ) (k : Key) (version : Int32)
    (r : ZkErrorCode × σ), key <:+ k → I s → deleteRecursive E fuel s (dir k) version = some r → I r.2
  | 0, _, _, _, _, _, _, hr => by cases hr
  | fuel + 1, s, k, version, r, hk, hi, hr => by
    have hdel : ∀ s (n : Name) r, I s → Ops.deleteRecursive E fuel s (dir (n :: k)) (-1) = some r → I r.2 :=
      fun s n r hi hr => h.deleteRecursive fuel s (n :: k) (-1) r (hk.trans (List.suffix_cons n k)) hi hr
    rw [Ops.deleteRecursive] at hr
    split at hr
    · rename_i heq
      cases hr
      exact (h.getChildren k hi heq).1
    · rename_i childNodes s₁ heq
      obtain ⟨hi₁, hnames⟩ := h.getChildren k hi heq
      cases hc : Ops.deleteChildren (fun s p => Ops.deleteRecursive E fuel s p (-1)) (dir k) childNodes s₁ with
      | none => rw [hc] at hr; cases hr
      | some q =>
        have hq : I q.2 := Env.Keeps.deleteChildren hdel childNodes s₁ q hnames hi₁ hc
        rw [hc] at hr
        obtain ⟨done, s₂⟩ := q
        cases done with
        | false => cases hr; exact hq
        | true => cases hr; exact h.deleteNode hk hq version
    · rename_i heq
      cases hr
      exact (h.getChildren k hi heq).1

end

/-! ## The others -/

inductive Change
  | create (path : String) (data : Option String) (flags : CreateFlags)
  | delete (path : String) (version : Int32)
  | set (path : String) (data : Option String) (version : Int32)
  deriving DecidableEq, Repr

def Server.changed (s : Server) : Change → Server
  | .create path data flags => (s.create path data flags).2
  | .delete path version => (s.delete path version).2
  | .set path data version => (s.set path data version).2

abbrev Failure := { rc : Rc // rc ≠ .zok ∧ rc ≠ .znonode }

/-- A request fails with `failed`, `carriedOut` by the server or not. -/
structure Turn where
  before : List Change
  connected : Bool
  failed : Option Failure
  carriedOut : Bool
  after : List Change

/-- `past` are the states of the server since the call began, the newest first,
`deletes` the paths that a delete has been requested for. -/
structure World where
  server : Server
  turns : List Turn
  past : List Server
  deletes : List String

def World.start (server : Server) (turns : List Turn) : World := ⟨server, turns, [server], []⟩

def World.come (w : World) (server : Server) : World := { w with server, past := server :: w.past }

def World.changed (w : World) (changes : List Change) : World :=
  changes.foldl (fun w change => w.come (w.server.changed change)) w

def World.request {β : Type} (w : World) (ask : Server → (Rc × β) × Server) (nothing : β) : (Rc × β) × World :=
  match w.turns with
  | [] => ((.zconnectionloss, nothing), w)
  | turn :: turns =>
    let w := { w with turns }.changed turn.before
    let r := ask w.server
    match turn.failed with
    | none => (r.1, (w.come r.2).changed turn.after)
    | some rc => ((rc.val, nothing), (if turn.carriedOut then w.come r.2 else w).changed turn.after)

def listing (path : String) (s : Server) : (Rc × List String) × Server := (s.getChildren path, s)

def deletion (path : String) (version : Int32) (s : Server) : (Rc × Unit) × Server :=
  (((s.delete path version).1, ()), (s.delete path version).2)

def interfered : Env World where
  isConnected w :=
    match w.turns with
    | [] => (false, w)
    | turn :: turns => if turn.connected then (true, w) else (false, { w with turns })
  zooGetChildren w path :=
    let r := w.request (listing path) []
    (r.1.1, r.1.2, r.2)
  zooDelete w path version :=
    let r := World.request { w with deletes := path :: w.deletes } (deletion path version) ()
    (r.1.1, r.2)
  -- the synchronous deletion makes no asynchronous request
  zooAdelete w _ _ := (.zconnectionloss, w)
  deleteRc w _ := (.zconnectionloss, w)

/-! ## One request -/

section
variable {w w' : World} {t : Server} {β : Type} {ask : Server → (Rc × β) × Server} {nothing : β}

theorem World.changed_past : ∀ (changes : List Change) {w : World}, t ∈ w.past → t ∈ (w.changed changes).past
  | [], _, h => h
  | _ :: changes, _, h => World.changed_past changes (List.mem_cons_of_mem _ h)

theorem World.changed_frame : ∀ (changes : List Change) (w : World),
    (w.changed changes).turns = w.turns ∧ (w.changed changes).deletes = w.deletes
  | [], _ => ⟨rfl, rfl⟩
  | change :: changes, w => World.changed_frame changes (w.come (w.server.changed change))

theorem World.request_frame (w : World) (ask : Server → (Rc × β) × Server) (nothing : β) :
    (w.request ask nothing).2.turns = w.turns.tail ∧ (w.request ask nothing).2.deletes = w.deletes := by
  unfold World.request
  split
  · rename_i heq
    simp [heq]
  · rename_i turn turns heq
    obtain ⟨hturns, hdeletes⟩ := World.changed_frame turn.before { w with turns }
    rw [heq, List.tail_cons]
    split
    · obtain ⟨hturns', hdeletes'⟩ := World.changed_frame turn.after
        (({ w with turns }.changed turn.before).come (ask ({ w with turns }.changed turn.before).server).2)
      exact ⟨hturns'.trans hturns, hdeletes'.trans hdeletes⟩
    · obtain ⟨hturns', hdeletes'⟩ := World.changed_frame turn.after
        (if turn.carriedOut then ({ w with turns }.changed turn.before).come
          (ask ({ w with turns }.changed turn.before).server).2 else { w with turns }.changed turn.before)
      refine ⟨hturns'.trans ?_, hdeletes'.trans ?_⟩
      · split
        · exact hturns
        · exact hturns
      · split
        · exact hdeletes
        · exact hdeletes

theorem World.request_shrinks (ask : Server → (Rc × β) × Server) (nothing : β) (h : w.turns ≠ []) :
    (w.request ask nothing).2.turns.length < w.turns.length := by
  have hpos := List.length_pos_iff.mpr h
  rw [(World.request_frame w ask nothing).1, List.length_tail]
  omega

theorem World.request_answered {rc : Rc} {b : β} (h : w.request ask nothing = ((rc, b), w')) (hrc : rc = .zok ∨ rc = .znonode) :
    ∃ t, (ask t).1 = (rc, b) ∧ (ask t).2 ∈ w'.past := by
  unfold World.request at h
  split at h
  · cases h
    rcases hrc with hrc | hrc <;> cases hrc
  · rename_i turn turns _
    dsimp only at h
    split at h
    · obtain ⟨hreply, rfl⟩ := Prod.mk.inj h
      exact ⟨_, hreply, World.changed_past _ List.mem_cons_self⟩
    · rename_i failed _
      cases h
      rcases hrc with hrc | hrc
      · exact absurd hrc failed.property.1
      · exact absurd hrc failed.property.2

theorem World.request_reply {P : β → Prop} (hnothing : P nothing) (hask : ∀ t, P (ask t).1.2) :
    P (w.request ask nothing).1.2 := by
  unfold World.request
  split
  · exact hnothing
  · dsimp only
    split
    · exact hask _
    · exact hnothing

end

/-! ## The call -/

section
variable {w w' : World} {path : String} {n : Name} {k : Key} {ec : ZkErrorCode}

theorem interfered_keeps (key : Key) :
    interfered.Keeps (fun w => ∀ p ∈ w.deletes, ∃ k, key <:+ k ∧ p = dir k) key where
  isConnected w hi := by
    simp only [interfered]
    split
    · exact hi
    · split
      · exact hi
      · exact hi
  zooGetChildren w k hi := by
    simp only [interfered]
    rw [(World.request_frame w _ _).2]
    exact hi
  names w k _ := by
    refine World.request_reply (P := fun names => ∀ name ∈ names, ∃ n : Name, n.val = name) nofun fun t name hmem => ?_
    simp only [listing, Server.getChildren] at hmem
    split at hmem
    · cases hmem
    · split at hmem
      · cases hmem
      · obtain ⟨n, -, rfl⟩ := List.mem_map.mp hmem
        exact ⟨n, rfl⟩
  zooDelete w k version hk hi := by
    simp only [interfered]
    rw [(World.request_frame _ _ _).2]
    -- the delete that is requested now is below `key`
    intro p hp
    rcases List.mem_cons.mp hp with rfl | hp
    · exact ⟨k, hk, rfl⟩
    · exact hi p hp

theorem isConnected_true (h : interfered.isConnected w = (true, w')) : w' = w ∧ w.turns ≠ [] := by
  simp only [interfered] at h
  split at h
  · cases h
  · rename_i turn turns heq
    split at h
    · cases h
      exact ⟨rfl, by rw [heq]; exact List.cons_ne_nil _ _⟩
    · cases h

theorem isConnected_false (h : interfered.isConnected w = (false, w')) : w'.turns.length ≤ w.turns.length := by
  simp only [interfered] at h
  split at h
  · cases h
    exact Nat.le_refl _
  · rename_i turn turns heq
    split at h
    · cases h
    · cases h
      rw [heq]
      exact Nat.le_succ _

theorem zooGetChildren_interfered {rc : Rc} {strings : List String} (hne : w.turns ≠ [])
    (h : interfered.zooGetChildren w path = (rc, strings, w')) : w'.turns.length < w.turns.length ∧
      (rc = .znonode → ∃ t ∈ w'.past, (t.getChildren path).1 = .znonode) := by
  have hshrinks := World.request_shrinks (listing path) [] hne
  simp only [interfered] at h
  generalize hr : w.request (listing path) [] = r at h hshrinks
  obtain ⟨⟨rc, strings⟩, w'⟩ := r
  cases h
  refine ⟨hshrinks, fun hrc => ?_⟩
  obtain ⟨t, hreply, hpast⟩ := World.request_answered hr (.inr hrc)
  exact ⟨t, hpast, (congrArg Prod.fst hreply).trans hrc⟩

theorem zooDelete_interfered {version : Int32} {rc : Rc} (hne : w.turns ≠ [])
    (h : interfered.zooDelete w path version = (rc, w')) : w'.turns.length < w.turns.length ∧
      (rc = .zok ∨ rc = .znonode → ∃ t : Server, (t.delete path version).1 = rc ∧ (t.delete path version).2 ∈ w'.past) := by
  have hshrinks := World.request_shrinks (w := { w with deletes := path :: w.deletes }) (deletion path version) () hne
  simp only [interfered] at h
  generalize hr : World.request { w with deletes := path :: w.deletes } (deletion path version) () = r at h hshrinks
  obtain ⟨⟨rc, _⟩, w'⟩ := r
  cases h
  refine ⟨hshrinks, fun hrc => ?_⟩
  obtain ⟨t, hreply, hpast⟩ := World.request_answered hr hrc
  exact ⟨t, congrArg Prod.fst hreply, hpast⟩

theorem getChildren_interfered {childNodes : List String} (h : getChildren interfered w path = (ec, childNodes, w')) :
    w'.turns.length ≤ w.turns.length ∧ (ec = .kZKSucceed → w'.turns.length < w.turns.length) ∧
      (ec = .kZKNotExist → ∃ t ∈ w'.past, (t.getChildren path).1 = .znonode) := by
  unfold getChildren at h
  split at h
  · rename_i w₁ heq
    cases h
    exact ⟨isConnected_false heq, nofun, nofun⟩
  · rename_i w₁ heq
    obtain ⟨rfl, hne⟩ := isConnected_true heq
    split at h <;> rename_i heq' <;> cases h <;> obtain ⟨hlt, hgone⟩ := zooGetChildren_interfered hne heq'
    · exact ⟨Nat.le_of_lt hlt, fun _ => hlt, nofun⟩
    · exact ⟨Nat.le_of_lt hlt, nofun, fun _ => hgone rfl⟩
    · exact ⟨Nat.le_of_lt hlt, nofun, nofun⟩

theorem deleteNode_interfered {version : Int32} (h : deleteNode interfered w path version = (ec, w')) :
    w'.turns.length ≤ w.turns.length ∧ (ec = .kZKSucceed ∨ ec = .kZKNotExist → ∃ t : Server,
      ((t.delete path version).1 = .zok ∨ (t.delete path version).1 = .znonode) ∧ (t.delete path version).2 ∈ w'.past) := by
  unfold deleteNode at h
  split at h
  · rename_i w₁ heq
    cases h
    exact ⟨isConnected_false heq, fun hec => by rcases hec with hec | hec <;> cases hec⟩
  · rename_i w₁ heq
    obtain ⟨rfl, hne⟩ := isConnected_true heq
    split at h <;> rename_i heq' <;> cases h <;> obtain ⟨hlt, hgone⟩ := zooDelete_interfered hne heq' <;>
      refine ⟨Nat.le_of_lt hlt, fun hec => ?_⟩
    · obtain ⟨t, hrc, hpast⟩ := hgone (.inl rfl)
      exact ⟨t, .inl hrc, hpast⟩
    · obtain ⟨t, hrc, hpast⟩ := hgone (.inr rfl)
      exact ⟨t, .inr hrc, hpast⟩
    · rcases hec with hec | hec <;> cases hec
    · rcases hec with hec | hec <;> cases hec

/-! ## Every run -/

theorem delete_gone (s : Server) (version : Int32) (h : (s.delete (dir (n :: k)) version).1 = .zok ∨
    (s.delete (dir (n :: k)) version).1 = .znonode) : (s.delete (dir (n :: k)) version).2.tree.get (n :: k) = none := by
  cases hnode : s.tree.get (n :: k) with
  | none =>
    rw [delete_none hnode]
    exact hnode
  | some node =>
    by_cases hversion : version = -1 ∨ version = node.version
    · by_cases hleaf : s.tree.children (n :: k) = []
      · rw [delete_leaf hnode hversion hleaf]
        exact (NameTree.get_erase (List.cons_ne_nil n k) hleaf).trans (if_pos rfl)
      · rw [delete_notEmpty hnode hversion hleaf] at h
        rcases h with h | h <;> cases h
    · have hbad : version ≠ -1 ∧ version ≠ node.version := by tauto
      rw [delete_badVersion hnode hbad] at h
      rcases h with h | h <;> cases h

theorem deleteChildren_returns {fuel : Nat} {del : World → String → Option (ZkErrorCode × World)} (path : String)
    (hdel : ∀ w path, w.turns.length < fuel → ∃ ec w', del w path = some (ec, w') ∧ w'.turns.length ≤ w.turns.length) :
    ∀ (childNodes : List String) (w : World), w.turns.length < fuel →
      ∃ done w', deleteChildren del path childNodes w = some (done, w') ∧ w'.turns.length ≤ w.turns.length
  | [], w, _ => ⟨true, w, rfl, Nat.le_refl _⟩
  | name :: childNodes, w, hfuel => by
    obtain ⟨ec, w₁, hrun, hle⟩ := hdel w (path ++ "/" ++ name) hfuel
    by_cases hfails : ec ≠ .kZKSucceed ∧ ec ≠ .kZKNotExist
    · exact ⟨false, w₁, by simp only [deleteChildren, hrun, if_pos hfails], hle⟩
    · obtain ⟨done, w₂, hrest, hle'⟩ := deleteChildren_returns path hdel childNodes w₁ (Nat.lt_of_le_of_lt hle hfuel)
      exact ⟨done, w₂, by simp only [deleteChildren, hrun, if_neg hfails, hrest], Nat.le_trans hle' hle⟩

theorem deleteRecursive_returns : ∀ (fuel : Nat) (w : World) (path : String) (version : Int32), w.turns.length < fuel →
    ∃ ec w', deleteRecursive interfered fuel w path version = some (ec, w') ∧ w'.turns.length ≤ w.turns.length
  | 0, _, _, _, h => absurd h (Nat.not_lt_zero _)
  | fuel + 1, w, path, version, h => by
    cases hg : getChildren interfered w path with
    | mk ec r =>
      obtain ⟨childNodes, w₁⟩ := r
      obtain ⟨hle, hlt, -⟩ := getChildren_interfered hg
      cases ec with
      | kZKSucceed =>
        have hlt : w₁.turns.length < w.turns.length := hlt rfl
        obtain ⟨done, w₂, hloop, hle₂⟩ := deleteChildren_returns path
          (fun w p hw => deleteRecursive_returns fuel w p (-1) hw) childNodes w₁ (by omega)
        cases done with
        | false => exact ⟨.kZKError, w₂, by simp only [deleteRecursive, hg, hloop], by omega⟩
        | true =>
          cases hd : deleteNode interfered w₂ path version with
          | mk ec w₃ =>
            obtain ⟨hle₃, -⟩ := deleteNode_interfered hd
            exact ⟨ec, w₃, by simp only [deleteRecursive, hg, hloop, hd], by omega⟩
      | kZKNotExist => exact ⟨.kZKSucceed, w₁, by simp only [deleteRecursive, hg], hle⟩
      | _ => exact ⟨.kZKError, w₁, by simp only [deleteRecursive, hg], hle⟩

theorem deleteRecursive_tells {fuel : Nat} {version : Int32} (hec : ec = .kZKSucceed ∨ ec = .kZKNotExist)
    (h : deleteRecursive interfered fuel w (dir (n :: k)) version = some (ec, w')) :
    ∃ t ∈ w'.past, t.tree.get (n :: k) = none := by
  cases fuel with
  | zero => cases h
  | succ fuel =>
    rw [deleteRecursive] at h
    split at h
    · rename_i childNodes w₁ hg
      cases h
      obtain ⟨-, -, hgone⟩ := getChildren_interfered hg
      obtain ⟨t, hpast, hrc⟩ := hgone rfl
      refine ⟨t, hpast, ?_⟩
      simp only [Server.getChildren, parse_dir] at hrc
      split at hrc
      · assumption
      · cases hrc
    · rename_i childNodes w₁ hg
      split at h
      · cases h
      · cases h
        rcases hec with hec | hec <;> cases hec
      · rename_i w₂ _
        obtain ⟨-, hgone⟩ := deleteNode_interfered (Option.some.inj h)
        obtain ⟨t, hrc, hpast⟩ := hgone hec
        exact ⟨_, hpast, delete_gone t version hrc⟩
    · cases h
      rcases hec with hec | hec <;> cases hec

/-- **Interference.** Whatever the other clients do and whichever requests fail, a
recursive deletion requests no delete outside its subtree, and where it reports
the node gone there was a moment without it. -/
theorem deleteRecursive_truthful (s : Server) (turns : List Turn) (n : Name) (k : Key) (version : Int32) :
    ∃ fuel ec w', deleteRecursive interfered fuel (.start s turns) (dir (n :: k)) version = some (ec, w') ∧
      (∀ p ∈ w'.deletes, ∃ k', n :: k <:+ k' ∧ p = dir k') ∧
      (ec = .kZKSucceed ∨ ec = .kZKNotExist → ∃ t ∈ w'.past, t.tree.get (n :: k) = none) := by
  obtain ⟨ec, w', hrun, -⟩ := deleteRecursive_returns (turns.length + 1) (.start s turns) (dir (n :: k)) version
    (Nat.lt_succ_self _)
  refine ⟨_, ec, w', hrun, ?_, fun hec => deleteRecursive_tells hec hrun⟩
  exact (interfered_keeps (n :: k)).deleteRecursive _ _ (n :: k) version _ (List.suffix_refl _)
    (fun _ h => absurd h List.not_mem_nil) hrun

end

end ZkCppClient.Ops
