import ZkCppClient.Lib.Find
import ZkCppClient.Ops.ReturnedPath

/-!
# Names of the shared lock's nodes

`DistriSharedLock` puts the kind of a request into the name it asks for, the
server appends a number, and both are read back from the name by searching it.
-/

namespace ZkCppClient.Recipes.SharedLock

open Ops

def ullongMax : Nat := 18446744073709551615

def isSpace (c : Char) : Bool := c ∈ [' ', '\t', '\n', '\x0b', '\x0c', '\r']

def sign : List Char → Bool × List Char
  | '-' :: cs => (true, cs)
  | '+' :: cs => (false, cs)
  | cs => (false, cs)

/-- `strtouq` in base ten: a number that does not fit comes as the largest, a negative one modulo 2 ^ 64. -/
def strtouq (cs : List Char) : Nat :=
  let (negative, cs) := sign (cs.dropWhile isSpace)
  let n := Nat.ofDigitChars 10 (cs.takeWhile Char.isDigit) 0
  if ullongMax < n then ullongMax else if negative ∧ n ≠ 0 then ullongMax + 1 - n else n

def readMark : List Char := ['-', 'R', '-']

def writeMark : List Char := ['-', 'W', '-']

def isReadTypeLock (nodeName : String) : Bool := (Find.find readMark nodeName.toList).isSome

def getSeqNo (nodeName : String) : Nat :=
  match Find.find readMark nodeName.toList with
  | some i => strtouq (nodeName.toList.drop (i + 3))
  | none =>
    match Find.find writeMark nodeName.toList with
    | some i => strtouq (nodeName.toList.drop (i + 3))
    | none => 0

def markedName (childNodeName : String) (isRead : Bool) : String := childNodeName ++ if isRead then "-R-" else "-W-"

def Unmarked (name : String) : Prop := ¬ readMark <:+: name.toList ++ ['-'] ∧ ¬ writeMark <:+: name.toList ++ ['-']

instance (name : String) : Decidable (Unmarked name) := inferInstanceAs (Decidable (_ ∧ _))

def ReadBack (childNodeName : String) : Prop := ∀ isRead n, n ≤ ullongMax →
  isReadTypeLock (markedName childNodeName isRead ++ sequenceSuffix n) = isRead ∧
  getSeqNo (markedName childNodeName isRead ++ sequenceSuffix n) = n

/-! ## Numbers -/

section
variable {n : Nat} {cs rest : List Char} {c : Char}

theorem isDigit_not_isSpace (h : c.isDigit = true) : isSpace c = false := by
  simp only [isSpace, decide_eq_false_iff_not, List.mem_cons, List.not_mem_nil, or_false]
  rintro (rfl | rfl | rfl | rfl | rfl | rfl) <;> exact absurd h (by decide)

theorem sign_of_isDigit (h : c.isDigit = true) : sign (c :: cs) = (false, c :: cs) := by
  unfold sign
  split
  · rename_i heq
    cases heq
    exact absurd h (by decide)
  · rename_i heq
    cases heq
    exact absurd h (by decide)
  · rfl

theorem strtouq_digits (hdigits : ∀ c ∈ cs, c.isDigit = true) (h : Nat.ofDigitChars 10 cs 0 ≤ ullongMax) :
    strtouq cs = Nat.ofDigitChars 10 cs 0 := by
  cases cs with
  | nil => rfl
  | cons c cs =>
    have hc := hdigits c List.mem_cons_self
    have hdrop : (c :: cs).dropWhile isSpace = c :: cs := by simp [isDigit_not_isSpace hc]
    have htake : (c :: cs).takeWhile Char.isDigit = c :: cs := List.takeWhile_eq_self_iff.mpr hdigits
    simp only [strtouq, hdrop, sign_of_isDigit hc, htake, Nat.not_lt.mpr h, if_false]
    simp

theorem strtouq_suffix (h : n ≤ ullongMax) : strtouq (sequenceSuffix n).toList = n := by
  have hval : Nat.ofDigitChars 10 (sequenceSuffix n).toList 0 = n := by
    rw [sequenceSuffix_toList, Nat.ofDigitChars_append, Nat.ofDigitChars_replicate_zero, Nat.mul_zero,
      Nat.ofDigitChars_ten_toDigits]
  rw [strtouq_digits (fun c hc => isDigit_of_mem_suffix hc) (by rwa [hval]), hval]

theorem strtouq_stops (hspace : isSpace c = false) (hdigit : c.isDigit = false) (hplus : c ≠ '+') (hminus : c ≠ '-')
    (rest rest' : List Char) : strtouq (cs ++ c :: rest) = strtouq (cs ++ c :: rest') := by
  have hdrop : ∀ rest, (cs ++ c :: rest).dropWhile isSpace = cs.dropWhile isSpace ++ c :: rest := by
    intro rest
    induction cs with
    | nil => simp [hspace]
    | cons d cs ih =>
      by_cases hd : isSpace d = true
      · simp [hd, ih]
      · simp [hd]
  have hsign : ∀ rest, sign (cs.dropWhile isSpace ++ c :: rest) =
      ((sign (cs.dropWhile isSpace)).1, (sign (cs.dropWhile isSpace)).2 ++ c :: rest) := by
    intro rest
    cases cs.dropWhile isSpace with
    | nil =>
      unfold sign
      split
      · rename_i heq
        exact absurd (List.cons.inj heq).1 hminus
      · rename_i heq
        exact absurd (List.cons.inj heq).1 hplus
      · rfl
    | cons d ds =>
      rw [List.cons_append]
      unfold sign
      split <;> split <;> simp_all
  have htake : ∀ (ds rest : List Char), (ds ++ c :: rest).takeWhile Char.isDigit = ds.takeWhile Char.isDigit := by
    intro ds rest
    induction ds with
    | nil => simp [hdigit]
    | cons d ds ih =>
      by_cases hd : d.isDigit = true
      · simp [hd, ih]
      · simp [hd]
  simp only [strtouq, hdrop, hsign, htake]

end

/-! ## Names -/

section
variable {c : String} {n : Nat} {isRead : Bool}

theorem markedName_toList : (markedName c isRead ++ sequenceSuffix n).toList =
    c.toList ++ ((if isRead then readMark else writeMark) ++ (sequenceSuffix n).toList) := by
  cases isRead <;> simp [markedName, String.toList_append] <;> rfl

theorem not_mem_suffix {a : Char} (h : a.isDigit = false) (n : Nat) : a ∉ (sequenceSuffix n).toList := by
  intro hmem
  rw [isDigit_of_mem_suffix hmem] at h
  cases h

theorem find_readMark (h : Unmarked c) :
    Find.find readMark (markedName c true ++ sequenceSuffix n).toList = some c.toList.length := by
  rw [markedName_toList, if_pos rfl, Find.find_append_iff (by decide)]
  have hdash := h.1
  rwa [show c.toList ++ readMark.dropLast = c.toList ++ ['-'] ++ ['R'] by simp [readMark],
    show readMark = ['-', 'R'] ++ ['-'] from rfl, Find.infix_concat_of_ne (by decide)]

theorem find_writeMark (h : Unmarked c) :
    Find.find writeMark (markedName c false ++ sequenceSuffix n).toList = some c.toList.length := by
  rw [markedName_toList, if_neg nofun, Find.find_append_iff (by decide)]
  have hdash := h.2
  rwa [show c.toList ++ writeMark.dropLast = c.toList ++ ['-'] ++ ['W'] by simp [writeMark],
    show writeMark = ['-', 'W'] ++ ['-'] from rfl, Find.infix_concat_of_ne (by decide)]

theorem readMark_infix_write :
    readMark <:+: (markedName c false ++ sequenceSuffix n).toList ↔ readMark <:+: c.toList ++ ['-'] := by
  have hlist : (markedName c false ++ sequenceSuffix n).toList =
      c.toList ++ ['-'] ++ 'W' :: '-' :: (sequenceSuffix n).toList := by
    rw [markedName_toList]
    simp [writeMark]
  rw [hlist, Find.infix_split (by decide)]
  constructor
  · rintro (h | h)
    · exact h
    · have hmem : 'R' ∈ '-' :: (sequenceSuffix n).toList := h.subset (by decide)
      rcases List.mem_cons.mp hmem with heq | hmem
      · cases heq
      · exact absurd hmem (not_mem_suffix (by decide) n)
  · exact .inl

theorem readBack_of_unmarked (h : Unmarked c) : ReadBack c := by
  intro isRead n hn
  have hdrop : (markedName c isRead ++ sequenceSuffix n).toList.drop (c.toList.length + 3) = (sequenceSuffix n).toList := by
    rw [markedName_toList, ← List.append_assoc]
    apply List.drop_left'
    cases isRead <;> simp [readMark, writeMark]
  cases isRead with
  | true =>
    refine ⟨by rw [isReadTypeLock, find_readMark h]; rfl, ?_⟩
    rw [getSeqNo, find_readMark h]
    dsimp only
    rw [hdrop, strtouq_suffix hn]
  | false =>
    have hnone : Find.find readMark (markedName c false ++ sequenceSuffix n).toList = none := by
      rw [Find.find_eq_none, readMark_infix_write]
      exact h.1
    refine ⟨by rw [isReadTypeLock, hnone]; rfl, ?_⟩
    rw [getSeqNo, hnone, find_writeMark h]
    dsimp only
    rw [hdrop, strtouq_suffix hn]

theorem unmarked_of_readBack (h : ReadBack c) : Unmarked c := by
  have hread : ¬ readMark <:+: c.toList ++ ['-'] := by
    intro hmark
    have hwrite := (h false 0 (Nat.zero_le _)).1
    rw [isReadTypeLock, Find.find_isSome.mpr (readMark_infix_write.mpr hmark)] at hwrite
    cases hwrite
  refine ⟨hread, fun hmark => ?_⟩
  -- the number read stops at the mark that was appended, and is the same for every node
  have hsame : ∀ n, getSeqNo (markedName c false ++ sequenceSuffix n) =
      getSeqNo (markedName c false ++ sequenceSuffix 0) := by
    intro n
    have hlist : ∀ n, (markedName c false ++ sequenceSuffix n).toList =
        c.toList ++ ['-'] ++ 'W' :: '-' :: (sequenceSuffix n).toList := by
      intro n
      rw [markedName_toList]
      simp [writeMark]
    have hnone : ∀ n, Find.find readMark (markedName c false ++ sequenceSuffix n).toList = none := by
      intro n
      rw [Find.find_eq_none, readMark_infix_write]
      exact hread
    obtain ⟨i, hi, hfind⟩ := Find.find_append_of_infix hmark
    have hi : i + 3 ≤ (c.toList ++ ['-']).length := hi
    have hseq : ∀ n, getSeqNo (markedName c false ++ sequenceSuffix n) =
        strtouq ((c.toList ++ ['-']).drop (i + 3) ++ 'W' :: '-' :: (sequenceSuffix n).toList) := by
      intro n
      rw [getSeqNo, hnone n, hlist, hfind]
      dsimp only
      rw [List.drop_append_of_le_length hi]
    rw [hseq, hseq 0]
    exact strtouq_stops (by decide) (by decide) (by decide) (by decide) _ _
  have h0 := (h false 0 (Nat.zero_le _)).2
  have h1 := (h false 1 (by decide)).2
  rw [hsame, h0] at h1
  cases h1

end

/-- **Reading the names back.** The kind and the number of every node are read back from its name just when
neither mark begins in the name that the lock was given. -/
theorem readBack_iff (childNodeName : String) : ReadBack childNodeName ↔ Unmarked childNodeName :=
  ⟨unmarked_of_readBack, readBack_of_unmarked⟩

end ZkCppClient.Recipes.SharedLock
