import Mathlib.Data.List.Sort
import Mathlib.Data.List.TakeWhile

/-!
# Ordered sets

A set as the list of its elements in increasing order, with the operations of
`std::set`: insertion that says whether the element is new, erasure that says
how many elements it took, the first element, and the cut at a lower bound.
-/

structure OrdSet (α : Type*) [LinearOrder α] where
  elems : List α
  sorted : elems.Pairwise (· < ·)

namespace OrdSet

variable {α : Type*} [LinearOrder α]

instance membership : Membership α (OrdSet α) := ⟨fun s a => a ∈ s.elems⟩

instance decidableMem (a : α) (s : OrdSet α) : Decidable (a ∈ s) := inferInstanceAs (Decidable (a ∈ s.elems))

def empty : OrdSet α := ⟨[], .nil⟩

def size (s : OrdSet α) : Nat := s.elems.length

/-- `*begin()`, where there is one. -/
def first? (s : OrdSet α) : Option α := s.elems.head?

theorem nodup (s : OrdSet α) : s.elems.Nodup := s.sorted.imp ne_of_lt

def insert (s : OrdSet α) (a : α) : OrdSet α × Bool :=
  if h : a ∈ s then (s, false)
  else ({
    elems := s.elems.orderedInsert (· ≤ ·) a
    sorted := by
      have hle : (s.elems.orderedInsert (· ≤ ·) a).Pairwise (· ≤ ·) := (s.sorted.imp le_of_lt).orderedInsert a _
      have hnodup : (s.elems.orderedInsert (· ≤ ·) a).Nodup :=
        (List.perm_orderedInsert _ a s.elems).nodup_iff.mpr (List.nodup_cons.mpr ⟨h, s.nodup⟩)
      exact (List.Pairwise.and hle hnodup).imp fun h => lt_of_le_of_ne h.1 h.2 }, true)

def erase (s : OrdSet α) (a : α) : OrdSet α × Nat :=
  (⟨s.elems.erase a, s.sorted.sublist List.erase_sublist⟩, if a ∈ s then 1 else 0)

def before (s : OrdSet α) (a : α) : List α := s.elems.takeWhile (· < a)

/-- What is left from `lower_bound(a)` on. -/
def onward (s : OrdSet α) (a : α) : OrdSet α :=
  ⟨s.elems.dropWhile (· < a), s.sorted.sublist (List.dropWhile_sublist _)⟩

section
variable {s : OrdSet α} {a b : α}

theorem mem_iff : a ∈ s ↔ a ∈ s.elems := Iff.rfl

theorem not_mem_empty : a ∉ (empty : OrdSet α) := List.not_mem_nil

theorem insert_new (h : a ∉ s) : (s.insert a).2 = true ∧ (s.insert a).1.elems.Perm (a :: s.elems) := by
  rw [insert, dif_neg h]
  exact ⟨rfl, List.perm_orderedInsert _ a s.elems⟩

theorem mem_insert : b ∈ (s.insert a).1 ↔ b = a ∨ b ∈ s := by
  unfold insert
  split
  · rename_i h
    exact ⟨.inr, fun hb => hb.elim (fun heq => heq ▸ h) id⟩
  · exact List.mem_orderedInsert _

theorem erase_mem (h : a ∈ s) : (s.erase a).2 = 1 := if_pos h

theorem mem_erase : b ∈ (s.erase a).1 ↔ b ≠ a ∧ b ∈ s := s.nodup.mem_erase_iff

theorem first_le (h : s.first? = some a) (hb : b ∈ s) : a ≤ b := by
  obtain ⟨elems, sorted⟩ := s
  cases elems with
  | nil => cases h
  | cons c l =>
    cases h
    rcases List.mem_cons.mp hb with rfl | hb
    · exact le_rfl
    · exact le_of_lt (List.rel_of_pairwise_cons sorted hb)

theorem first_mem (h : s.first? = some a) : a ∈ s := List.mem_of_mem_head? h

theorem first_none (h : s.first? = none) : b ∉ s := by
  rw [mem_iff, List.head?_eq_none_iff.mp h]
  exact List.not_mem_nil

theorem exists_first (h : b ∈ s) : ∃ a, s.first? = some a := by
  cases hf : s.first? with
  | none => exact absurd h (first_none hf)
  | some a => exact ⟨a, rfl⟩

/-! ## The cut -/

theorem before_append (s : OrdSet α) (a : α) : s.before a ++ (s.onward a).elems = s.elems :=
  List.takeWhile_append_dropWhile

theorem lt_of_mem_before (h : b ∈ s.before a) : b < a := by simpa using List.mem_takeWhile_imp h

theorem le_of_mem_onward (h : b ∈ s.onward a) : a ≤ b := by
  cases hf : (s.onward a).first? with
  | none => exact absurd h (first_none hf)
  | some c =>
    have hc : a ≤ c := by
      have hnot := List.head?_dropWhile_not (· < a) s.elems
      unfold first? onward at hf
      rw [hf] at hnot
      simpa using hnot
    exact hc.trans (first_le hf h)

theorem mem_before : b ∈ s.before a ↔ b ∈ s ∧ b < a := by
  constructor
  · intro h
    exact ⟨(List.takeWhile_sublist _).subset h, lt_of_mem_before h⟩
  · rintro ⟨hb, hlt⟩
    rw [mem_iff, ← before_append s a] at hb
    rcases List.mem_append.mp hb with hb | hb
    · exact hb
    · exact absurd (le_of_mem_onward hb) (not_le_of_gt hlt)

theorem mem_onward : b ∈ s.onward a ↔ b ∈ s ∧ a ≤ b := by
  constructor
  · intro h
    exact ⟨(List.dropWhile_sublist _).subset h, le_of_mem_onward h⟩
  · rintro ⟨hb, hle⟩
    rw [mem_iff, ← before_append s a] at hb
    rcases List.mem_append.mp hb with hb | hb
    · exact absurd (lt_of_mem_before hb) (not_lt_of_ge hle)
    · exact hb

theorem before_sorted (s : OrdSet α) (a : α) : (s.before a).Pairwise (· < ·) :=
  s.sorted.sublist (List.takeWhile_sublist _)

end

end OrdSet
