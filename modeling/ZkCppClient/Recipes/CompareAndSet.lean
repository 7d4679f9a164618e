import ZkCppClient.Lib.Run
import ZkCppClient.Recipes.Requests

/-!
# Compare and set

Any number of clients update one node: each reads the value with its version,
and sets a new value with that version. The server counts versions in 32 bits,
and takes the version -1 for any.
-/

namespace ZkCppClient.Recipes.CompareAndSet

open SlashPath Ops

def fateReads : Fate → ReadEnv Server
  | .unconnected => reads false none
  | .lost _ => reads true (some ⟨.zconnectionloss, nofun⟩)
  | .answered => reads true none

def fateWrites (f : Fate) : WriteEnv Link :=
  { Ops.writes with
    isConnected := fun l => (f.connected, l)
    zooSet := fun l path data version =>
      match f with
      | .lost applied => (.zconnectionloss, if applied then (Ops.writes.zooSet l path data version).2 else l)
      | _ => Ops.writes.zooSet l path data version }

/-- What a client has read, and how often it was told that its update is made. -/
structure Client where
  read : Option (String × Int32) := none
  succeeded : Nat := 0

structure St (ι : Type*) where
  server : Server
  clients : ι → Client

def St.initial (ι : Type*) (server : Server) : St ι := ⟨server, fun _ => {}⟩

inductive Act (ι : Type*)
  | get (i : ι) (f : Fate)
  | set (i : ι) (f : Fate)
  | create (path : String) (data : Option String) (flags : CreateFlags)  -- of other clients, as are the next two
  | delete (path : String) (version : Int32)
  | overwrite (path : String) (data : Option String) (version : Int32)

section
variable {ι : Type*} [DecidableEq ι] (k : Key) (update : ι → List UInt8 → List UInt8)

def St.setClient (s : St ι) (i : ι) (c : Client) : St ι := { s with clients := Function.update s.clients i c }

def newValue (i : ι) (value : String) : String := stdString (update i (bytes value))

def step (s : St ι) : Act ι → Option (St ι)
  | .get i f =>
    match getNode (fateReads f) s.server (absolute k) "" 0 with
    | some ((.kZKSucceed, value, version), server) =>
      some ({ s with server }.setClient i { s.clients i with read := some (value, version) })
    | some (_, server) => some { s with server }
    | none => none
  | .set i f =>
    match (s.clients i).read with
    | none => none
    | some (value, version) =>
      match set (fateWrites f) s.server.idle (absolute k) (newValue update i value) version with
      | (.kZKSucceed, l) =>
        some ({ s with server := l.server }.setClient i ⟨none, (s.clients i).succeeded + 1⟩)
      | (_, l) => some ({ s with server := l.server }.setClient i { s.clients i with read := none })
  | .create path data flags => some { s with server := (s.server.create path data flags).2 }
  | .delete path version => some { s with server := (s.server.delete path version).2 }
  | .overwrite path data version => some { s with server := (s.server.set path data version).2 }

/-! ## Updates -/

def arrives (f : Fate) : Bool := f = .answered ∨ f = .lost true

def recordUpdate (w : List ι) (s : St ι) : Act ι → List ι
  | .set i f =>
    match (s.clients i).read with
    | none => w
    | some (value, version) =>
      if arrives f ∧ (s.server.set (absolute k) (some (newValue update i value)) version).1 = .zok then w ++ [i] else w
  | _ => w

def updating : St ι × List ι → Act ι → Option (St ι × List ι) := Lts.withHistory (step k update) (recordUpdate k update)

def updated (v : List UInt8) (w : List ι) : List UInt8 := w.foldl (fun v i => update i v) v

/-- The node has the value that the updates make of the first one by one, and an
update that a client was told of is one of them. -/
def NoneLost (v : List UInt8) (x : St ι × List ι) : Prop :=
  (∃ node, x.1.server.tree.get k = some node ∧ node.value = some (stdString (updated update v x.2))) ∧
  ∀ i, (x.1.clients i).succeeded ≤ x.2.count i

def versions : Nat := 4294967296

/-- The versions have not come round, none that was read is -1, and others leave the node alone. -/
def Versioned (x : St ι × List ι) : Act ι → Prop
  | .set i _ => x.2.length < versions ∧ ∀ r ∈ (x.1.clients i).read, r.2 ≠ -1
  | .delete path _ | .overwrite path _ _ => parse path ≠ some k
  | _ => True

end

section
variable {s s' : Server} {k : Key} {node : Znode} {v : List UInt8} {f : Fate} {path value value' : String}
  {version version' : Int32} {data : Option String} {ec : ZkErrorCode} {l : Link}

theorem versions_inj {n m : Nat} (hn : n < versions) (hm : m < versions)
    (h : version + Int32.ofNat n = version + Int32.ofNat m) : n = m := by
  rw [Int32.add_right_inj] at h
  have hbits := congrArg (fun x : Int32 => x.toBitVec.toNat) h
  simp only [versions] at hn hm
  simpa [Nat.mod_eq_of_lt hn, Nat.mod_eq_of_lt hm] using hbits

theorem get_read (hnode : s.tree.get k = some node) (hvalue : node.value = some (stdString v))
    (hshort : v.length ≤ kMaxNodeValueLength)
    (h : getNode (fateReads f) s (absolute k) "" 0 = some ((ec, value, version), s')) :
    s' = s ∧ (ec = .kZKSucceed → value = stdString v ∧ version = node.version) := by
  cases f with
  | unconnected =>
    cases h
    exact ⟨rfl, nofun⟩
  | lost applied =>
    cases h
    exact ⟨rfl, nofun⟩
  | answered =>
    have hread := getNode_reads hnode hvalue "" 0
    rw [List.take_of_length_le hshort] at hread
    rw [fateReads, hread] at h
    cases h
    exact ⟨rfl, fun _ => ⟨rfl, rfl⟩⟩

theorem set_refused {rc : Rc} (h : s.set path data version = (rc, s')) (hrc : rc ≠ .zok) : s' = s := by
  unfold Server.set at h
  split at h
  · cases h; rfl
  · split at h
    · cases h; rfl
    · split at h
      · cases h; rfl
      · cases h
        exact absurd rfl hrc

theorem set_made (hnode : s.tree.get k = some node) (h : (s.set (absolute k) data version).1 = .zok) :
    (version = -1 ∨ version = node.version) ∧
      (s.set (absolute k) data version).2.tree.get k = some { node with value := data, version := node.version + 1 } := by
  unfold Server.set at h ⊢
  rw [parse_absolute] at h ⊢
  dsimp only at h ⊢
  split at h
  · cases h
  · rename_i node' hnode'
    rw [hnode] at hnode'
    cases hnode'
    split at h
    · cases h
    · rename_i hversion
      rw [if_neg hversion, NameTree.get_set, if_pos rfl]
      refine ⟨?_, rfl⟩
      by_cases hany : version = -1
      · exact .inl hany
      · exact .inr (by simpa [hany] using hversion)

theorem set_other (h : parse path ≠ some k) : (s.set path data version).2.tree.get k = s.tree.get k := by
  unfold Server.set
  split
  · rfl
  · rename_i k' hk'
    split
    · rfl
    · split
      · rfl
      · rw [NameTree.get_set, if_neg]
        rintro rfl
        exact h hk'

theorem delete_other (h : parse path ≠ some k) : (s.delete path version).2.tree.get k = s.tree.get k := by
  cases hr : s.delete path version with
  | mk rc s' =>
    by_cases hrc : rc = .zok
    · subst hrc
      obtain ⟨n, k', hleaf, rfl, -, rfl⟩ := delete_done hr
      rw [NameTree.get_erase, if_neg]
      rintro rfl
      exact h (parse_dir n k')
    · rw [delete_refused hr hrc]

theorem create_other {flags : CreateFlags} (hnode : s.tree.get k = some node) :
    (s.create path data flags).2.tree.get k = some node := by
  cases hr : s.create path data flags with
  | mk answer s' =>
    obtain ⟨rc, created⟩ := answer
    by_cases hrc : rc = .zok
    · subst hrc
      obtain ⟨n, k', hk', -, -, hnew, rfl⟩ := create_made hr
      rw [Server.insert, NameTree.get_insert, if_neg]
      · exact hnode
      · rintro rfl
        rw [hnode] at hnew
        cases hnew
    · rw [create_refused hr hrc]
      exact hnode

theorem set_cases (h : set (fateWrites f) s.idle path value version = (ec, l)) :
    (arrives f ∧ s.set path (some value) version = (.zok, l.server)) ∨
    (¬ (arrives f ∧ (s.set path (some value) version).1 = .zok) ∧ l.server = s ∧ ec ≠ .kZKSucceed) := by
  cases hr : s.set path (some value) version with
  | mk rc s' =>
    cases f with
    | unconnected =>
      cases h
      exact .inr ⟨by simp [arrives], rfl, by simp⟩
    | lost applied =>
      cases applied with
      | false =>
        cases h
        exact .inr ⟨by simp [arrives], rfl, by simp⟩
      | true =>
        cases h
        have hserver : ((fateWrites (.lost true)).zooSet s.idle path (some value) version).2.server = s' := congrArg Prod.snd hr
        by_cases hrc : rc = .zok
        · subst hrc
          exact .inl ⟨rfl, Prod.ext rfl hserver.symm⟩
        · exact .inr ⟨fun hboth => hrc hboth.2, hserver.trans (set_refused hr hrc), by simp⟩
    | answered =>
      simp only [Ops.set, fateWrites, Fate.connected, writes, Server.idle, hr] at h
      cases rc with
      | zok =>
        cases h
        exact .inl ⟨rfl, rfl⟩
      | _ =>
        cases h
        exact .inr ⟨by simp, set_refused hr (by simp), by simp⟩

end

/-- The node and what the clients have read of it, `first` being its first version. -/
structure Inv {ι : Type*} [DecidableEq ι] (k : Key) (update : ι → List UInt8 → List UInt8) (v : List UInt8) (first : Int32)
    (x : St ι × List ι) : Prop where
  node : ∃ ephemeral, x.1.server.tree.get k =
    some ⟨some (stdString (updated update v x.2)), first + Int32.ofNat x.2.length, ephemeral⟩
  read : ∀ i, ∀ r ∈ (x.1.clients i).read, ∃ w, w <+: x.2 ∧
    r = (stdString (updated update v w), first + Int32.ofNat w.length)
  succeeded : ∀ i, (x.1.clients i).succeeded ≤ x.2.count i

section
variable {ι : Type*} {update : ι → List UInt8 → List UInt8} {v : List UInt8}

theorem updated_length (hshort : ∀ i u, (update i u).length ≤ kMaxNodeValueLength) (hv : v.length ≤ kMaxNodeValueLength)
    (w : List ι) : (updated update v w).length ≤ kMaxNodeValueLength := by
  unfold updated
  induction w generalizing v with
  | nil => exact hv
  | cons i w ih => exact ih (hshort i v)

end

section
variable {ι : Type*} [DecidableEq ι] {k : Key} {update : ι → List UInt8 → List UInt8} {v : List UInt8} {first : Int32}
  {x y : St ι × List ι} {s t : St ι} {w w' : List ι} {i : ι} {c : Client} {server : Server}

theorem Inv.noneLost (h : Inv k update v first x) : NoneLost k update v x := by
  obtain ⟨ephemeral, hnode⟩ := h.node
  exact ⟨⟨_, hnode, rfl⟩, h.succeeded⟩

theorem Inv.beside (h : Inv k update v first (s, w)) (hserver : server.tree.get k = s.server.tree.get k) :
    Inv k update v first ({ s with server }, w) := by
  refine ⟨?_, h.read, h.succeeded⟩
  obtain ⟨ephemeral, hnode⟩ := h.node
  exact ⟨ephemeral, hserver.trans hnode⟩

theorem Inv.setClient (h : Inv k update v first (s, w))
    (hread : ∀ r ∈ c.read, ∃ w', w' <+: w ∧ r = (stdString (updated update v w'), first + Int32.ofNat w'.length))
    (hsucceeded : c.succeeded ≤ w.count i) : Inv k update v first (s.setClient i c, w) := by
  refine ⟨h.node, fun j => ?_, fun j => ?_⟩
  · by_cases hji : j = i
    · subst hji
      simpa [St.setClient] using hread
    · simpa [St.setClient, hji] using h.read j
  · by_cases hji : j = i
    · subst hji
      simpa [St.setClient] using hsucceeded
    · simpa [St.setClient, hji] using h.succeeded j

theorem Inv.updated (h : Inv k update v first (s, w)) {data : Option String} {ephemeral : Bool}
    (hdata : data = some (stdString (update i (updated update v w))))
    (hserver : server.tree.get k = some ⟨data, first + Int32.ofNat w.length + 1, ephemeral⟩) :
    Inv k update v first ({ s with server }, w ++ [i]) := by
  refine ⟨⟨ephemeral, ?_⟩, fun j r hr => ?_, fun j => ?_⟩
  · rw [hserver, hdata, CompareAndSet.updated, CompareAndSet.updated, List.foldl_append, List.length_append, List.length_singleton,
      Int32.ofNat_add, ← Int32.add_assoc]
    rfl
  · obtain ⟨w', hw', heq⟩ := h.read j r hr
    exact ⟨w', hw'.trans (List.prefix_append w [i]), heq⟩
  · exact Nat.le_trans (h.succeeded j) (by simp)

theorem step_inv {a : Act ι} (hshort : ∀ i u, (update i u).length ≤ kMaxNodeValueLength)
    (hv : v.length ≤ kMaxNodeValueLength) (hi : Inv k update v first x) (hg : Versioned k x a)
    (h : updating k update x a = some y) : Inv k update v first y := by
  obtain ⟨s, w⟩ := x
  obtain ⟨t, w'⟩ := y
  obtain ⟨hs, hw⟩ := Lts.withHistory_some h
  dsimp only at hs hw
  subst hw
  obtain ⟨ephemeral, hnode⟩ := hi.node
  cases a with
  | get i f =>
    simp only [step] at hs
    cases hread : getNode (fateReads f) s.server (absolute k) "" 0 with
    | none =>
      rw [hread] at hs
      cases hs
    | some r =>
      obtain ⟨⟨ec, value, version⟩, server⟩ := r
      obtain ⟨rfl, hvalue⟩ := get_read hnode rfl (updated_length hshort hv w) hread
      rw [hread] at hs
      cases ec with
      | kZKSucceed =>
        cases hs
        obtain ⟨rfl, rfl⟩ := hvalue rfl
        apply hi.setClient
        · rintro r ⟨⟩
          exact ⟨w, List.prefix_refl w, rfl⟩
        · exact hi.succeeded i
      | _ =>
        cases hs
        exact hi
  | set i f =>
    simp only [step] at hs
    cases hr : (s.clients i).read with
    | none =>
      rw [hr] at hs
      cases hs
    | some r =>
      obtain ⟨value, version⟩ := r
      rw [hr] at hs
      dsimp only at hs
      obtain ⟨pre, hpre, heq⟩ := hi.read i (value, version) hr
      obtain ⟨hcount, hany⟩ : w.length < versions ∧ ∀ r ∈ (s.clients i).read, r.2 ≠ -1 := hg
      have hany := hany _ hr
      cases hset : Ops.set (fateWrites f) s.server.idle (absolute k) (newValue update i value) version with
      | mk ec l =>
        rw [hset] at hs
        rcases set_cases hset with ⟨harrives, hmade⟩ | ⟨hnot, hserver, hec⟩
        · have hrc : (s.server.set (absolute k) (some (newValue update i value)) version).1 = .zok := by rw [hmade]
          simp only [recordUpdate, hr, harrives, hrc, and_self, if_true]
          obtain ⟨hversion, hget⟩ := set_made hnode hrc
          rw [hmade] at hget
          have hcurrent : pre = w := by
            have hsame := hversion.resolve_left hany
            rw [(Prod.mk.inj heq).2] at hsame
            have hlen := versions_inj (Nat.lt_of_le_of_lt hpre.length_le hcount) hcount hsame
            exact hpre.eq_of_length hlen
          have hvalue : value = stdString (updated update v w) := by rw [(Prod.mk.inj heq).1, hcurrent]
          have hdone : Inv k update v first ({ s with server := l.server }, w ++ [i]) :=
            hi.updated (by rw [newValue, hvalue, bytes_stdString]) hget
          have hone := hi.succeeded i
          cases ec with
          | kZKSucceed =>
            cases hs
            refine hdone.setClient ?_ ?_
            · nofun
            · simpa using hone
          | _ =>
            cases hs
            refine hdone.setClient ?_ (hdone.succeeded i)
            nofun
        · simp only [recordUpdate, hr, hnot, if_false]
          have hdone : Inv k update v first ({ s with server := l.server }, w) := hi.beside (by rw [hserver])
          cases ec with
          | kZKSucceed => exact absurd rfl hec
          | _ =>
            cases hs
            refine hdone.setClient ?_ (hdone.succeeded i)
            nofun
  | create path data flags =>
    cases hs
    exact hi.beside (by rw [create_other hnode, hnode])
  | delete path version =>
    cases hs
    exact hi.beside (delete_other hg)
  | overwrite path data version =>
    cases hs
    exact hi.beside (set_other hg)

/-- **No lost update.** Where fewer than 2 ^ 32 updates are made, none from the version -1, and others leave the node
alone, the node's value is what the updates that the server has made, whether their clients were told or
not, make of the first value one after the other, and each update that a client was told of is one of them. -/
theorem noneLost_throughout (hshort : ∀ i u, (update i u).length ≤ kMaxNodeValueLength)
    (hv : v.length ≤ kMaxNodeValueLength) {server : Server} {node : Znode} (hnode : server.tree.get k = some node)
    (hvalue : node.value = some (stdString v)) {as : List (Act ι)}
    (h : Lts.Along (updating k update) (Versioned k) (St.initial ι server, []) as) :
    Lts.Throughout (updating k update) (NoneLost k update v) (St.initial ι server, []) as := by
  have hinitial : Inv k update v node.version (St.initial ι server, []) := by
    refine ⟨⟨node.ephemeral, ?_⟩, nofun, fun i => Nat.le_refl _⟩
    rw [show (St.initial ι server).server = server from rfl, hnode]
    cases node
    cases hvalue
    simp [CompareAndSet.updated]
  exact Lts.throughout_of_along (fun _ _ _ hi hg => step_inv hshort hv hi hg) (fun _ => Inv.noneLost) hinitial h

instance (x : St ι × List ι) : (a : Act ι) → Decidable (Versioned k x a)
  | .set i _ => inferInstanceAs (Decidable (x.2.length < versions ∧ ∀ r ∈ (x.1.clients i).read, r.2 ≠ -1))
  | .delete path _ | .overwrite path _ _ => inferInstanceAs (Decidable (parse path ≠ some k))
  | .get .. | .create .. => isTrue trivial

end

def sign (i : Bool) (v : List UInt8) : List UInt8 := (v ++ [if i then 97 else 98]).take kMaxNodeValueLength

/-- The second client comes late and reads again, and the first is not told of its second update. -/
def raced : List (Act Bool) :=
  [.get true .answered, .get false .answered, .set true .answered, .set false .answered, .get false .answered,
    .set false .answered, .get true .answered, .set true (.lost true)]

theorem noneLost_raced : Lts.Throughout (updating [] sign) (NoneLost [] sign [])
    (St.initial Bool (bareServer.set "/" (some "") (-1)).2, []) raced :=
  noneLost_throughout (fun _ _ => List.length_take_le _ _) (Nat.zero_le _)
    (show (bareServer.set "/" (some "") (-1)).2.tree.get [] = some ⟨some "", 1, false⟩ from rfl) rfl (by decide +kernel)

end ZkCppClient.Recipes.CompareAndSet
