import Mathlib.Logic.Relation

/-!
# Waiting in order

Where everybody waits for somebody of a smaller rank, nobody waits for himself
through others, and following who waits for whom comes to an end.
-/

namespace Ranked

open Relation

variable {α : Type*} {r : α → α → Prop} {rank : α → Nat}

theorem lt_of_transGen (hr : ∀ a b, r a b → rank b < rank a) {a b : α} (h : TransGen r a b) : rank b < rank a := by
  induction h with
  | single hab => exact hr _ _ hab
  | tail _ hbc ih => exact Nat.lt_trans (hr _ _ hbc) ih

theorem not_transGen_self (hr : ∀ a b, r a b → rank b < rank a) (a : α) : ¬ TransGen r a a :=
  fun h => Nat.lt_irrefl _ (lt_of_transGen hr h)

theorem exists_end (hr : ∀ a b, r a b → rank b < rank a) (a : α) : ∃ b, ReflTransGen r a b ∧ ∀ c, ¬ r b c := by
  induction hn : rank a using Nat.strongRecOn generalizing a with
  | _ n ih =>
    subst hn
    by_cases h : ∃ b, r a b
    · obtain ⟨b, hab⟩ := h
      obtain ⟨c, hbc, hend⟩ := ih (rank b) (hr a b hab) b rfl
      exact ⟨c, .head hab hbc, hend⟩
    · exact ⟨a, .refl, fun b hab => h ⟨b, hab⟩⟩

end Ranked
