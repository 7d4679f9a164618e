import Mathlib.Data.List.TakeWhile

/-!
# Slash-separated paths

A key is the list of names on the way to a node, the last one first; the root is
the empty list. Keys are written as absolute paths, and read back.
-/

namespace SlashPath

abbrev Name := { s : String // s ≠ "" ∧ '/' ∉ s.toList }

abbrev Key := List Name

def Name.of? (s : String) : Option Name := if h : s ≠ "" ∧ '/' ∉ s.toList then some ⟨s, h⟩ else none

def dir : Key → String
  | [] => ""
  | n :: k => dir k ++ "/" ++ n.val

/-- The path of a key, that of the root being a slash. -/
def absolute : Key → String
  | [] => "/"
  | n :: k => dir (n :: k)

def splitLast (path : String) : Option (String × String) :=
  let cs := path.toList.reverse
  match cs.dropWhile (· ≠ '/') with
  | [] => none
  | _ :: rest => some (String.ofList rest.reverse, String.ofList (cs.takeWhile (· ≠ '/')).reverse)

/-- The key of which a string is the `dir`. -/
def parseDir (path : String) : Option Key :=
  match path.toList.splitOn '/' with
  | [] :: names => names.reverse.mapM fun cs => Name.of? (String.ofList cs)
  | _ => none

def parse (path : String) : Option Key := if path = "/" then some [] else if path = "" then none else parseDir path

theorem Name.of?_val (n : Name) : Name.of? n.val = some n := dif_pos n.property

theorem splitLast_append (p : String) {leaf : String} (h : '/' ∉ leaf.toList) :
    splitLast (p ++ "/" ++ leaf) = some (p, leaf) := by
  have hcs : (p ++ "/" ++ leaf).toList.reverse = leaf.toList.reverse ++ '/' :: p.toList.reverse := by
    simp [String.toList_append]
  have hleaf : ∀ c ∈ leaf.toList.reverse, decide (c ≠ '/') = true := by
    intro c hc
    rw [List.mem_reverse] at hc
    exact decide_eq_true fun heq => h (heq ▸ hc)
  unfold splitLast
  rw [hcs]
  dsimp only
  rw [List.dropWhile_append_of_pos hleaf, List.takeWhile_append_of_pos hleaf]
  simp

theorem splitLast_eq_some {path p leaf : String} (h : splitLast path = some (p, leaf)) :
    path = p ++ "/" ++ leaf ∧ '/' ∉ leaf.toList := by
  unfold splitLast at h
  dsimp only at h
  split at h
  · cases h
  · rename_i c rest hdrop
    cases h
    have hslash : c = '/' := by
      have hhead := List.head?_dropWhile_not (· ≠ '/') path.toList.reverse
      rw [hdrop] at hhead
      simpa using hhead
    constructor
    · apply String.toList_inj.mp
      have hparts := List.takeWhile_append_dropWhile (p := (· ≠ '/')) (l := path.toList.reverse)
      rw [hdrop, hslash] at hparts
      have hpath := congrArg List.reverse hparts
      rw [List.reverse_reverse] at hpath
      refine hpath.symm.trans ?_
      simp [String.toList_append]
    · intro hmem
      rw [String.toList_ofList, List.mem_reverse] at hmem
      simpa using List.mem_takeWhile_imp hmem

theorem dir_toList (n : Name) (k : Key) : (dir (n :: k)).toList = (dir k).toList ++ '/' :: n.val.toList := by
  simp [dir, String.toList_append]

theorem splitOn_dir : ∀ k : Key, (dir k).toList.splitOn '/' = [] :: (k.map (·.val.toList)).reverse
  | [] => by simp [dir]
  | n :: k => by
    rw [dir_toList, List.splitOn_append_cons_of_beq _ _ (beq_self_eq_true '/'), splitOn_dir k, List.splitOn_eq_singleton n.property.2]
    simp

theorem parseDir_dir (k : Key) : parseDir (dir k) = some k := by
  unfold parseDir
  rw [splitOn_dir]
  dsimp only
  rw [List.reverse_reverse]
  induction k with
  | nil => rfl
  | cons n k ih =>
    rw [List.map_cons, List.mapM_cons, ih, String.ofList_toList, Name.of?_val]
    rfl

theorem Name.of?_eq_some {s : String} {n : Name} (h : Name.of? s = some n) : n.val = s := by
  unfold Name.of? at h
  split at h
  · cases h
    rfl
  · cases h

theorem map_of_mapM : ∀ {names : List (List Char)} {k : Key},
    names.mapM (fun cs => Name.of? (String.ofList cs)) = some k → names = k.map (·.val.toList)
  | [], _, h => by cases h; rfl
  | cs :: names, k, h => by
    rw [List.mapM_cons] at h
    cases hn : Name.of? (String.ofList cs) with
    | none =>
      rw [hn] at h
      cases h
    | some n =>
      cases hk : names.mapM (fun cs => Name.of? (String.ofList cs)) with
      | none =>
        rw [hn, hk] at h
        cases h
      | some k' =>
        rw [hn, hk] at h
        cases h
        rw [List.map_cons, ← map_of_mapM hk, Name.of?_eq_some hn, String.toList_ofList]

theorem parseDir_eq_some {path : String} {k : Key} (h : parseDir path = some k) : dir k = path := by
  unfold parseDir at h
  split at h
  · rename_i names hsplit
    have hdir : (dir k).toList.splitOn '/' = path.toList.splitOn '/' := by
      rw [splitOn_dir, hsplit, List.reverse_eq_iff.mp (map_of_mapM h)]
    apply String.toList_inj.mp
    have hjoined := congrArg (List.intercalate ['/']) hdir
    rwa [List.intercalate_splitOn, List.intercalate_splitOn] at hjoined
  · cases h

theorem dir_ne_empty (n : Name) (k : Key) : dir (n :: k) ≠ "" := by
  intro h
  have hlist := congrArg String.toList h
  rw [dir_toList] at hlist
  simp at hlist

theorem dir_ne_slash (n : Name) (k : Key) : dir (n :: k) ≠ "/" := by
  intro h
  have hlist : (dir k).toList ++ '/' :: n.val.toList = ['/'] := by rw [← dir_toList, h]; rfl
  rcases List.append_eq_singleton_iff.mp hlist with ⟨-, htail⟩ | ⟨-, htail⟩
  · exact n.property.1 (String.toList_eq_nil_iff.mp (List.cons.inj htail).2)
  · cases htail

theorem parse_dir (n : Name) (k : Key) : parse (dir (n :: k)) = some (n :: k) := by
  rw [parse, if_neg (dir_ne_slash n k), if_neg (dir_ne_empty n k), parseDir_dir]

theorem parse_absolute : ∀ k : Key, parse (absolute k) = some k
  | [] => if_pos rfl
  | n :: k => parse_dir n k

end SlashPath
