import Mathlib.Data.List.Infix

/-!
# The first occurrence of a pattern

What comes before the pattern decides whether the occurrence that was written is
the one that is found.
-/

namespace Find

variable {α : Type*} {pat pre rest l : List α}

theorem infix_append_iff {a : α} (h : a ∉ pre) : (a :: pat) <:+: pre ++ l ↔ (a :: pat) <:+: l := by
  induction pre with
  | nil => rfl
  | cons b pre ih =>
    obtain ⟨hne, hpre⟩ := not_or.mp (List.mem_cons.not.mp h)
    rw [List.cons_append, List.infix_cons_iff, ih hpre]
    constructor
    · intro h'
      rcases h' with hprefix | h'
      · exact absurd (List.cons_prefix_cons.mp hprefix).1 hne
      · exact h'
    · exact .inr

theorem infix_split {b : α} (h : b ∉ pat) : pat <:+: pre ++ b :: rest ↔ pat <:+: pre ∨ pat <:+: rest := by
  constructor
  · intro hinfix
    rcases List.infix_append_iff_ne_nil.mp hinfix with hpre | hrest | ⟨l₁, l₂, -, hne, rfl, -, hl₂⟩
    · exact .inl hpre
    · rcases List.infix_cons_iff.mp hrest with hprefix | hrest
      · cases pat with
        | nil => exact .inl List.nil_infix
        | cons a pat =>
          rw [(List.cons_prefix_cons.mp hprefix).1] at h
          exact absurd List.mem_cons_self h
      · exact .inr hrest
    · obtain ⟨a, l, rfl⟩ := List.exists_cons_of_ne_nil hne
      rw [(List.cons_prefix_cons.mp hl₂).1] at h
      exact absurd (List.mem_append_right l₁ List.mem_cons_self) h
  · rintro (hpre | hrest)
    · exact hpre.trans (List.prefix_append pre (b :: rest)).isInfix
    · exact hrest.trans ⟨pre ++ [b], [], by simp⟩

theorem infix_concat_of_ne {a b : α} (h : a ≠ b) : (pat ++ [a]) <:+: pre ++ [b] ↔ (pat ++ [a]) <:+: pre := by
  rw [List.infix_concat_iff, List.suffix_concat_iff]
  constructor
  · rintro ((hnil | ⟨t, heq, -⟩) | hpre)
    · simp at hnil
    · exact absurd (List.append_inj' heq rfl).2 (by simpa using h)
    · exact hpre
  · exact .inr

variable [DecidableEq α]

def find (pat : List α) : List α → Option Nat
  | [] => if pat = [] then some 0 else none
  | a :: l => if pat <+: a :: l then some 0 else (find pat l).map (· + 1)

theorem find_eq_none : find pat l = none ↔ ¬ pat <:+: l := by
  induction l with
  | nil => simp [find]
  | cons a l ih =>
    rw [find, List.infix_cons_iff]
    by_cases h : pat <+: a :: l
    · simp [h]
    · simp [h, ih]

theorem find_isSome : (find pat l).isSome = true ↔ pat <:+: l := by
  rw [← not_iff_not, ← find_eq_none]
  simp

theorem find_append_of_notMem {a : α} (h : a ∉ pre) : find (a :: pat) (pre ++ l) = (find (a :: pat) l).map (· + pre.length) := by
  induction pre with
  | nil => simp
  | cons b pre ih =>
    obtain ⟨hne, hpre⟩ := not_or.mp (List.mem_cons.not.mp h)
    have hp : ¬ (a :: pat) <+: b :: (pre ++ l) := fun hprefix => hne (List.cons_prefix_cons.mp hprefix).1
    simp [find, hp, ih hpre, Function.comp_def, Nat.add_assoc]

theorem find_append_iff (hpat : pat ≠ []) :
    find pat (pre ++ (pat ++ rest)) = some pre.length ↔ ¬ pat <:+: pre ++ pat.dropLast := by
  induction pre with
  | nil =>
    obtain ⟨a, l, rfl⟩ := List.exists_cons_of_ne_nil hpat
    have hshort : ¬ (a :: l) <:+: (a :: l).dropLast := by
      intro h
      have hlen := h.length_le
      rw [List.length_dropLast, List.length_cons] at hlen
      omega
    have hfound : (a :: l) <+: a :: (l ++ rest) := List.prefix_append (a :: l) rest
    simp [find, hfound]
    simpa using hshort
  | cons a pre ih =>
    have hsame : pat <+: a :: (pre ++ (pat ++ rest)) ↔ pat <+: a :: (pre ++ pat.dropLast) := by
      have hpre : a :: (pre ++ pat.dropLast) <+: a :: (pre ++ (pat ++ rest)) := by
        rw [List.prefix_cons_inj, List.prefix_append_right_inj]
        exact (List.dropLast_prefix pat).trans (List.prefix_append pat rest)
      refine ⟨fun h => List.prefix_of_prefix_length_le h hpre ?_, fun h => h.trans hpre⟩
      simp
      omega
    rw [List.cons_append, List.cons_append, find, List.infix_cons_iff, not_or, ← ih, ← hsame]
    by_cases h : pat <+: a :: (pre ++ (pat ++ rest))
    · simp [h]
    · simp [h]

theorem find_append_of_infix (h : pat <:+: l) :
    ∃ i, i + pat.length ≤ l.length ∧ ∀ rest, find pat (l ++ rest) = some i := by
  induction l with
  | nil =>
    obtain rfl := List.infix_nil.mp h
    refine ⟨0, by simp, fun rest => ?_⟩
    cases rest <;> simp [find]
  | cons a l ih =>
    by_cases hp : pat <+: a :: l
    · refine ⟨0, by simpa using hp.length_le, fun rest => ?_⟩
      have hp' : pat <+: a :: (l ++ rest) := hp.trans (List.prefix_append (a :: l) rest)
      simp [find, hp']
    · obtain ⟨i, hlen, hi⟩ := ih ((List.infix_cons_iff.mp h).resolve_left hp)
      refine ⟨i + 1, by simp; omega, fun rest => ?_⟩
      have hp' : ¬ pat <+: a :: (l ++ rest) := by
        intro hprefix
        apply hp
        apply List.prefix_of_prefix_length_le hprefix (List.prefix_append (a :: l) rest)
        simp
        omega
      simp [find, hp', hi]

end Find
