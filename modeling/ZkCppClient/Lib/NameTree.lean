import Mathlib.Data.List.AList

/-!
# Finite trees of named nodes

A node is found under its key, the list of names on the way to it with the last
one first, so the parent of `n :: k` is `k` and the nodes below `k` are those
whose key has `k` as a suffix. The root is always there, and every other node
has its parent.
-/

structure NameTree (ν α : Type*) [DecidableEq ν] where
  nodes : AList fun _ : List ν => α
  root : [] ∈ nodes
  closed : ∀ n k, n :: k ∈ nodes → k ∈ nodes

namespace NameTree

variable {ν α : Type*} [DecidableEq ν] (t : NameTree ν α) {k k' : List ν} {n : ν} {a : α}

def get (k : List ν) : Option α := t.nodes.lookup k

def childName (k : List ν) : List ν → Option ν
  | [] => none
  | n :: k' => if k' = k then some n else none

def children (k : List ν) : List ν := t.nodes.keys.filterMap (childName k)

/-- The longest prefix of the way to `k` that is there. -/
def deepest : List ν → List ν
  | [] => []
  | n :: k => if (t.get (n :: k)).isSome then n :: k else deepest k

def single (a : α) : NameTree ν α where
  nodes := AList.singleton [] a
  root := by simp [AList.mem_keys]
  closed n k h := by simp [AList.mem_keys] at h

def insert (n : ν) (k : List ν) (a : α) (h : (t.get k).isSome) : NameTree ν α where
  nodes := t.nodes.insert (n :: k) a
  root := by rw [AList.mem_insert]; exact .inr t.root
  closed m k' hm := by
    rw [AList.mem_insert] at hm ⊢
    rcases hm with heq | hm
    · rw [(List.cons.inj heq).2]
      exact .inr (AList.lookup_isSome.mp h)
    · exact .inr (t.closed m k' hm)

def set (k : List ν) (a : α) (h : (t.get k).isSome) : NameTree ν α where
  nodes := t.nodes.insert k a
  root := by rw [AList.mem_insert]; exact .inr t.root
  closed n k' hn := by
    rw [AList.mem_insert] at hn ⊢
    rcases hn with rfl | hn
    · exact .inr (t.closed n k' (AList.lookup_isSome.mp h))
    · exact .inr (t.closed n k' hn)

section
variable {t}

theorem childName_eq_some : childName k k' = some n ↔ k' = n :: k := by
  cases k' with
  | nil => simp [childName]
  | cons m k' =>
    simp only [childName, List.cons.injEq]
    split
    · rename_i hk
      simp [hk]
    · rename_i hk
      simp [hk]

theorem get_isSome : (t.get k).isSome ↔ k ∈ t.nodes := AList.lookup_isSome

theorem mem_children : n ∈ t.children k ↔ (t.get (n :: k)).isSome := by
  rw [get_isSome, AList.mem_keys, children, List.mem_filterMap]
  constructor
  · rintro ⟨k', hk', hn⟩
    rwa [childName_eq_some.mp hn] at hk'
  · exact fun h => ⟨_, h, childName_eq_some.mpr rfl⟩

theorem nodup_children : (t.children k).Nodup := by
  apply t.nodes.keys_nodup.filterMap
  intro k₁ k₂ n h₁ h₂
  rw [childName_eq_some.mp h₁, childName_eq_some.mp h₂]

theorem children_eq_nil : t.children k = [] ↔ ∀ n, t.get (n :: k) = none := by
  rw [List.eq_nil_iff_forall_not_mem]
  simp only [mem_children, Option.not_isSome_iff_eq_none]

theorem get_root : ∃ a, t.get [] = some a := Option.isSome_iff_exists.mp (get_isSome.mpr t.root)

theorem get_parent (h : (t.get (n :: k)).isSome) : (t.get k).isSome :=
  get_isSome.mpr (t.closed n k (get_isSome.mp h))

theorem get_of_suffix (hs : k <:+ k') (h : (t.get k').isSome) : (t.get k).isSome := by
  obtain ⟨p, rfl⟩ := hs
  induction p with
  | nil => exact h
  | cons n p ih => exact ih (get_parent h)

theorem deepest_of_isSome (h : (t.get k).isSome) : t.deepest k = k := by
  cases k with
  | nil => rfl
  | cons n k => exact if_pos h

theorem deepest_of_none (h : t.get (n :: k) = none) : t.deepest (n :: k) = t.deepest k :=
  if_neg (by rw [h]; nofun)

theorem get_deepest (t : NameTree ν α) (k : List ν) : (t.get (t.deepest k)).isSome := by
  induction k with
  | nil => exact get_isSome.mpr t.root
  | cons n k ih =>
    by_cases h : (t.get (n :: k)).isSome
    · rwa [deepest_of_isSome h]
    · rwa [deepest_of_none (Option.not_isSome_iff_eq_none.mp h)]

theorem get_insert (h : (t.get k).isSome) :
    (t.insert n k a h).get k' = if k' = n :: k then some a else t.get k' := by
  split
  · rename_i heq
    rw [heq]
    exact AList.lookup_insert _
  · rename_i hne
    exact AList.lookup_insert_ne hne

theorem get_set (h : (t.get k).isSome) : (t.set k a h).get k' = if k' = k then some a else t.get k' := by
  split
  · rename_i heq
    rw [heq]
    exact AList.lookup_insert _
  · rename_i hne
    exact AList.lookup_insert_ne hne

theorem exists_length_le (t : NameTree ν α) : ∃ d, ∀ k, (t.get k).isSome → k.length ≤ d := by
  refine ⟨(t.nodes.keys.map List.length).foldr max 0, fun k hk => ?_⟩
  have hmem : k ∈ t.nodes.keys := get_isSome.mp hk
  generalize t.nodes.keys = ks at hmem
  induction ks with
  | nil => cases hmem
  | cons k' ks ih =>
    rw [List.map_cons, List.foldr_cons]
    rcases List.mem_cons.mp hmem with rfl | hmem
    · exact Nat.le_max_left _ _
    · exact Nat.le_trans (ih hmem) (Nat.le_max_right _ _)

end

def erase (k : List ν) (hroot : k ≠ []) (hleaf : t.children k = []) : NameTree ν α where
  nodes := t.nodes.erase k
  root := by rw [AList.mem_erase]; exact ⟨hroot.symm, t.root⟩
  closed n k' h := by
    rw [AList.mem_erase] at h ⊢
    refine ⟨fun heq => ?_, t.closed n k' h.2⟩
    have hn : n ∈ t.children k := mem_children.mpr (get_isSome.mpr (heq ▸ h.2))
    rw [hleaf] at hn
    cases hn

/-- What is left without the nodes from the keys `ks` on. -/
def Pruned (ks : List (List ν)) (t' : NameTree ν α) : Prop :=
  ∀ k', t'.get k' = if ∃ k ∈ ks, k <:+ k' then none else t.get k'

/-- What comes of making the nodes on the way to `k` that are missing. -/
def Grown (a : α) (k : List ν) (t' : NameTree ν α) : Prop :=
  ∀ k', t'.get k' = if k' <:+ k ∧ t.get k' = none then some a else t.get k'

section
variable {t} {t₁ t₂ : NameTree ν α} {ks : List (List ν)}

theorem get_erase (hroot : k ≠ []) (hleaf : t.children k = []) :
    (t.erase k hroot hleaf).get k' = if k' = k then none else t.get k' := by
  split
  · rename_i heq
    rw [heq]
    exact AList.lookup_erase k t.nodes
  · rename_i hne
    exact AList.lookup_erase_ne hne

/-! ## Pruning -/

theorem pruned_nil (t : NameTree ν α) : t.Pruned [] t := by
  intro k'
  rw [if_neg (by simp)]

theorem Pruned.get_of_not (h : t.Pruned ks t₁) (hno : ∀ k ∈ ks, ¬ k <:+ k') : t₁.get k' = t.get k' := by
  rw [h k', if_neg fun ⟨k, hk, hs⟩ => hno k hk hs]

theorem Pruned.of_isSome (h : t.Pruned ks t₁) (hsome : (t₁.get k').isSome) : (t.get k').isSome := by
  rw [h k'] at hsome
  split at hsome
  · cases hsome
  · exact hsome

theorem Pruned.cons (h : t.Pruned [k] t₁) (h' : t₁.Pruned ks t₂) : t.Pruned (k :: ks) t₂ := by
  intro k'
  rw [h' k', h k']
  by_cases hk : k <:+ k'
  · simp [hk]
  · simp [hk]

theorem Pruned.erase (h : t.Pruned ((t.children k).map (· :: k)) t₁) (hroot : k ≠ []) (hleaf : t₁.children k = []) :
    t.Pruned [k] (t₁.erase k hroot hleaf) := by
  intro k'
  rw [get_erase]
  by_cases hk : k <:+ k'
  · have hgone : (if ∃ k₁ ∈ [k], k₁ <:+ k' then none else t.get k') = none :=
      if_pos ⟨k, List.mem_singleton.mpr rfl, hk⟩
    rw [hgone]
    split
    · rfl
    · rename_i hne
      obtain ⟨p, rfl⟩ := hk
      obtain ⟨q, n, rfl⟩ : ∃ q n, p = q ++ [n] := by
        rcases List.eq_nil_or_concat p with rfl | ⟨q, n, rfl⟩
        · exact absurd rfl hne
        · exact ⟨q, n, List.concat_eq_append⟩
      refine Option.not_isSome_iff_eq_none.mp fun hsome => ?_
      -- what is left below `k` would have a node right below `k` above it
      have hchild : (t₁.get (n :: k)).isSome := get_of_suffix ⟨q, by simp⟩ hsome
      rw [children_eq_nil.mp hleaf n] at hchild
      cases hchild
  · have hkept : (if ∃ k₁ ∈ [k], k₁ <:+ k' then none else t.get k') = t.get k' := if_neg (by simpa using hk)
    have hne : k' ≠ k := fun heq => hk (heq ▸ List.suffix_refl _)
    rw [hkept, if_neg hne]
    apply h.get_of_not
    intro kn hkn hs
    obtain ⟨n, -, rfl⟩ := List.mem_map.mp hkn
    exact hk ((List.suffix_cons n k).trans hs)

/-! ## Growing -/

theorem grown_of_isSome (a : α) (h : (t.get k).isSome) : t.Grown a k t := by
  intro k'
  rw [if_neg]
  rintro ⟨hs, hnone⟩
  have hsome := get_of_suffix hs h
  rw [hnone] at hsome
  cases hsome

theorem Grown.get_below (h : t.Grown a k t₁) (hnew : t.get (n :: k) = none) : t₁.get (n :: k) = none := by
  rw [h, if_neg, hnew]
  rintro ⟨hs, -⟩
  exact absurd hs.length_le (by simp)

theorem Grown.insert (h : t.Grown a k t₁) (hnew : t.get (n :: k) = none) (hk : (t₁.get k).isSome) :
    t.Grown a (n :: k) (t₁.insert n k a hk) := by
  intro k'
  rw [get_insert, h k']
  by_cases heq : k' = n :: k
  · subst heq
    rw [if_pos rfl, if_pos ⟨List.suffix_refl _, hnew⟩]
  · have hiff : k' <:+ n :: k ↔ k' <:+ k := by
      rw [List.suffix_cons_iff]
      simp [heq]
    simp only [heq, hiff, if_false]

end

end NameTree
