import ZkCppClient.Ops.CreateAgree
import ZkCppClient.Ops.DeleteAgree

/-!
# The returned path

`zoo_create` takes the path as a C string and writes that of the node it made
into a buffer of `kMaxPathLength` bytes, from which `retPath` is assigned as a C
string. A longer path is cut, and the call succeeds.
-/

namespace ZkCppClient.Ops

open SlashPath

def cString (s : String) : String := String.ofList (CString.str s.toList)

/-- As `create` and `createPersistentDirNode` call the library, to which `E` gives
the path and which gives the path of the new node back. -/
def CreateEnv.buffered {σ : Type*} (E : CreateEnv σ) : CreateEnv σ where
  isConnected := E.isConnected
  zooCreate s path data flags := E.returning.zooCreate s (cString path) data flags
  zooAcreate s path data flags := E.zooAcreate s (cString path) data flags
  createReply s path := E.createReply s (cString path)

/-- The path of the node that is made for this one, `i` being the number in its name if it is sequential. -/
def numbered (path : String) (isSequence : Bool) (i : Nat) : String :=
  if isSequence then path ++ sequenceSuffix i else path

def NamesCreated {σ : Type*} (E : CreateEnv σ) : Prop :=
  ∀ s path data flags created s', E.zooCreate s path data flags = ((.zok, created), s') →
    ∃ i, created = numbered path flags.sequence i

def Succeeds {σ : Type*} (E : CreateEnv σ) (s : σ) (path value : String) (isTemp isSequence : Bool)
    (retPath : Option String) (s' : σ) : Prop :=
  create E s path value isTemp isSequence = (.kZKSucceed, retPath, s') ∨
  ∃ fuel, createIfNeedCreateParents E fuel s path value isTemp isSequence = some (.kZKSucceed, retPath, s')

/-! ## C strings -/

section
variable {s path : String} {isSequence : Bool} {i : Nat}

theorem zero_not_mem_suffix (i : Nat) : (0 : Char) ∉ (sequenceSuffix i).toList :=
  fun h => absurd (isDigit_of_mem_suffix h) (by decide)

theorem cString_eq_self : cString s = s ↔ 0 ∉ s.toList := by
  rw [← CString.str_eq_self, ← String.toList_inj, cString, String.toList_ofList]

theorem zero_not_mem_cString (s : String) : (0 : Char) ∉ (cString s).toList := by
  rw [cString, String.toList_ofList]
  exact CString.zero_not_mem_str s.toList

theorem throughBuffer_eq_self {size : Nat} (hsize : 0 < size) (h : (0 : Char) ∉ s.toList) :
    throughBuffer size s = s ↔ s.length < size := by
  rw [← String.toList_inj, throughBuffer, String.toList_ofList, CString.str_bounded_eq_iff hsize h, String.length_toList]

theorem zero_not_mem_numbered (h : (0 : Char) ∉ path.toList) : (0 : Char) ∉ (numbered path isSequence i).toList := by
  cases isSequence with
  | false => exact h
  | true =>
    rw [numbered, if_pos rfl, String.toList_append, List.mem_append, not_or]
    exact ⟨h, zero_not_mem_suffix i⟩

theorem numbered_inj {path' : String} : numbered path isSequence i = numbered path' isSequence i ↔ path = path' := by
  cases isSequence with
  | false => exact Iff.rfl
  | true =>
    simp only [numbered, if_true]
    exact ⟨fun h => by simpa using h, fun h => h ▸ rfl⟩

end

section
variable {σ : Type*} {E : CreateEnv σ} {s s' : σ} {path value : String} {isTemp isSequence : Bool} {ret : Option String}

theorem create_succeeds (h : create E s path value isTemp isSequence = (.kZKSucceed, ret, s')) :
    ∃ s₁ retPath, ret = some retPath ∧ E.zooCreate s₁ path (some value) ⟨isTemp, isSequence⟩ = ((.zok, retPath), s') := by
  unfold create at h
  split at h
  · cases h
  · split at h <;> cases h
    exact ⟨_, _, rfl, ‹_›⟩

theorem Succeeds.create (h : Succeeds E s path value isTemp isSequence ret s') :
    ∃ s₁, Ops.create E s₁ path value isTemp isSequence = (.kZKSucceed, ret, s') := by
  rcases h with h | ⟨fuel, h⟩
  · exact ⟨s, h⟩
  · unfold createIfNeedCreateParents at h
    split at h
    · split at h
      · cases h
      · split at h
        · cases h
        · exact ⟨_, Option.some.inj h⟩
        · cases h
    · exact ⟨s, Option.some.inj h⟩

theorem Succeeds.made (h : Succeeds E.buffered s path value isTemp isSequence ret s') :
    ∃ s₁ created, ret = some (throughBuffer kMaxPathLength created) ∧
      E.zooCreate s₁ (cString path) (some value) ⟨isTemp, isSequence⟩ = ((.zok, created), s') := by
  obtain ⟨s₀, hcreate⟩ := h.create
  obtain ⟨s₁, retPath, rfl, hmade⟩ := create_succeeds hcreate
  injection hmade with hanswer hs'
  injection hanswer with hrc hpath
  exact ⟨s₁, _, congrArg some hpath.symm, Prod.ext (Prod.ext hrc rfl) hs'⟩

end

/-- **The returned path** is that of the node that was made, and the one asked for, just when it
fits into the buffer and the path is a C string. -/
theorem retPath_iff {σ : Type*} (E : CreateEnv σ) (hE : NamesCreated E) {s s' : σ} {path value : String}
    {isTemp isSequence : Bool} {ret : Option String} (h : Succeeds E.buffered s path value isTemp isSequence ret s') :
    ∃ s₁ i retPath, ret = some retPath ∧
      E.zooCreate s₁ (cString path) (some value) ⟨isTemp, isSequence⟩ =
        ((.zok, numbered (cString path) isSequence i), s') ∧
      (retPath = numbered (cString path) isSequence i ∧ retPath = numbered path isSequence i ↔
        0 ∉ path.toList ∧ (numbered path isSequence i).length < kMaxPathLength) := by
  obtain ⟨s₁, created, rfl, hmade⟩ := h.made
  obtain ⟨i, rfl⟩ := hE _ _ _ _ _ _ hmade
  refine ⟨s₁, i, _, rfl, hmade, ?_⟩
  have hfits : throughBuffer kMaxPathLength (numbered (cString path) isSequence i) = _ ↔ _ :=
    throughBuffer_eq_self (by decide) (zero_not_mem_numbered (zero_not_mem_cString path))
  constructor
  · rintro ⟨hwhole, hret⟩
    have hlen := hfits.mp hwhole
    rw [hwhole, numbered_inj] at hret
    rw [hret] at hlen
    exact ⟨cString_eq_self.mp hret, hlen⟩
  · rintro ⟨hpath, hlen⟩
    rw [cString_eq_self.mpr hpath] at hfits ⊢
    exact ⟨hfits.mpr hlen, hfits.mpr hlen⟩

/-! ## The server alone -/

theorem append_numbered (p leaf : String) (isSequence : Bool) (i : Nat) :
    p ++ numbered leaf isSequence i = numbered (p ++ leaf) isSequence i := by
  cases isSequence with
  | false => rfl
  | true => simp only [numbered, if_true, String.append_assoc]

theorem create_leaf {s : Server} {path created : String} {data : Option String} {flags : CreateFlags}
    (h : (s.create path data flags).1 = (.zok, created)) :
    ∃ k leaf, path = dir k ++ "/" ++ leaf ∧ '/' ∉ leaf.toList ∧ ¬ (leaf = "" ∧ flags.sequence = false) := by
  unfold Server.create at h
  split at h
  · cases congrArg Prod.fst h
  · rename_i parent leaf hsplit
    split at h
    · cases congrArg Prod.fst h
    · rename_i k hk
      obtain ⟨rfl, hleaf⟩ := splitLast_eq_some hsplit
      refine ⟨k, leaf, by rw [parseDir_eq_some hk], hleaf, fun hempty => ?_⟩
      rw [if_pos hempty] at h
      have hrc := congrArg Prod.fst h
      dsimp only at hrc
      split at hrc <;> cases hrc

theorem namesCreated_creations : NamesCreated creations := by
  intro l path data flags created l' h
  have hcreate : (l.server.create path data flags).1 = (.zok, created) := congrArg Prod.fst h
  obtain ⟨k, leaf, rfl, hslash, hleaf⟩ := create_leaf hcreate
  obtain ⟨n, hn, hval⟩ := nodeName_eq (s := l.server) (k := k) hslash hleaf
  refine ⟨l.server.cversion k, ?_⟩
  cases hk : l.server.tree.get k with
  | none =>
    rw [create_noParent hslash hleaf hk] at hcreate
    cases congrArg Prod.fst hcreate
  | some node =>
    rw [create_named hslash hleaf hn hk] at hcreate
    split at hcreate
    · cases congrArg Prod.fst hcreate
    · split at hcreate
      · cases congrArg Prod.fst hcreate
      · rw [← append_numbered, numbered, ← hval]
        exact (congrArg Prod.snd hcreate).symm

theorem retPath_iff_a : ∃ s₁ i retPath, some "/a" = some retPath ∧
    creations.zooCreate s₁ (cString "/a") (some "x") ⟨false, false⟩ =
      ((.zok, numbered (cString "/a") false i), (bareServer.create "/a" (some "x") ⟨false, false⟩).2.idle) ∧
    (retPath = numbered (cString "/a") false i ∧ retPath = numbered "/a" false i ↔
      0 ∉ "/a".toList ∧ (numbered "/a" false i).length < kMaxPathLength) :=
  retPath_iff creations namesCreated_creations (s := bareServer.idle) (.inl rfl)

theorem create_buffered {s s' : Server} {path value created : String} {isTemp isSequence : Bool}
    (hzero : 0 ∉ path.toList) (h : s.create path (some value) ⟨isTemp, isSequence⟩ = ((.zok, created), s')) :
    Succeeds creations.buffered s.idle path value isTemp isSequence (some (throughBuffer kMaxPathLength created))
      s'.idle := by
  apply Or.inl
  simp only [create, CreateEnv.buffered, CreateEnv.returning, creations, Server.idle, cString_eq_self.mpr hzero, h]

def nameOfLength (m : Nat) (h : m ≠ 0) : Name := ⟨String.ofList (List.replicate m 'a'), by
  constructor
  · intro hempty
    have hnil : List.replicate m 'a' = [] := by rw [← String.toList_ofList (l := List.replicate m 'a'), hempty]; rfl
    exact h (by simpa using hnil)
  · rw [String.toList_ofList]
    exact fun hmem => absurd (List.eq_of_mem_replicate hmem) (by decide)⟩

theorem dir_nameOfLength (m : Nat) (h : m ≠ 0) :
    (dir [nameOfLength m h]).toList = '/' :: List.replicate m 'a' := by
  rw [dir_toList, nameOfLength, String.toList_ofList]
  rfl

theorem zero_not_mem_nameOfLength (m : Nat) (h : m ≠ 0) : (0 : Char) ∉ (dir [nameOfLength m h]).toList := by
  rw [dir_nameOfLength, List.mem_cons, not_or]
  exact ⟨by decide, fun hmem => absurd (List.eq_of_mem_replicate hmem) (by decide)⟩

theorem longPath_succeeds (m : Nat) (h : m ≠ 0) : ∃ s', Succeeds creations.buffered bareServer.idle
    (dir [nameOfLength m h]) "x" false false (some (throughBuffer kMaxPathLength (dir [nameOfLength m h]))) s' := by
  have hname := (nameOfLength m h).property.2
  exact ⟨_, create_buffered (zero_not_mem_nameOfLength m h)
    (create_ok (some "x") ⟨false, false⟩ hname (name_ne _) (nodeName_dir _) rfl rfl rfl)⟩

/-- A path of as many bytes as the buffer has comes back without its last, as a success. -/
theorem not_retPath_long : ¬ ∀ (s s' : Link) (path value : String) (isTemp : Bool) (retPath : String),
    Succeeds creations.buffered s path value isTemp false (some retPath) s' → retPath = path := by
  intro h
  have hne : kMaxPathLength - 1 ≠ 0 := by decide
  obtain ⟨s', hsucceeds⟩ := longPath_succeeds (kMaxPathLength - 1) hne
  have hwhole := h _ _ _ _ _ _ hsucceeds
  have hlen := (throughBuffer_eq_self (by decide) (zero_not_mem_nameOfLength _ hne)).mp hwhole
  rw [← String.length_toList, dir_nameOfLength, List.length_cons, List.length_replicate] at hlen
  exact absurd hlen (by decide)

end ZkCppClient.Ops
