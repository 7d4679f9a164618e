import Mathlib.Data.List.Basic

/-!
# Computations that may fault

A function with assertions, or that may touch what it must not, returns
`Except fault`. It is correct when it returns at all, and a loop over a list
does so if each turn keeps what the turns still to come rest on.
-/

namespace Checked

variable {α β ε : Type}

def check (fault : ε) (p : Prop) [Decidable p] : Except ε Unit := if p then .ok () else .error fault

@[simp] theorem ok_bind (a : α) (f : α → Except ε β) : (Except.ok a >>= f) = f a := rfl

@[simp] theorem check_bind {fault : ε} {p : Prop} [Decidable p] (h : p) (f : Unit → Except ε β) :
    (check fault p >>= f) = f () := by rw [check, if_pos h, ok_bind]

/-- **Loop rule.** `I l b`: with `l` still to come, the loop is at `b`. -/
theorem foldlM_ok {I : List α → β → Prop} {f : β → α → Except ε β}
    (hstep : ∀ a l b, I (a :: l) b → ∃ b', f b a = .ok b' ∧ I l b') (l : List α) {b : β} (hi : I l b) :
    ∃ b', l.foldlM f b = .ok b' ∧ I [] b' := by
  induction l generalizing b with
  | nil => exact ⟨b, rfl, hi⟩
  | cons a l ih =>
    obtain ⟨c, hc, hi⟩ := hstep a l b hi
    obtain ⟨b', hb, hi⟩ := ih hi
    refine ⟨b', ?_, hi⟩
    rw [List.foldlM_cons, hc, ok_bind, hb]

end Checked
