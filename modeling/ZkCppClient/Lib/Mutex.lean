import Mathlib.Data.Option.Basic

/-!
# Mutual exclusion

`Owned holder inside` says that just the thread in `holder` is inside the
critical section. A program keeps it when a thread takes the free mutex as it
goes in, and gives it back as it comes out.
-/

namespace Mutex

variable {θ : Type*}

def Owned (holder : Option θ) (inside : θ → Bool) : Prop := ∀ th, inside th = true ↔ holder = some th

variable {holder : Option θ} {inside inside' : θ → Bool} {a b : θ}

theorem Owned.congr (h : Owned holder inside) (hsame : ∀ th, inside' th = inside th) : Owned holder inside' := by
  intro th
  rw [hsame th]
  exact h th

theorem Owned.acquire (h : Owned none inside) (hself : inside' a = true) (hother : ∀ th, th ≠ a → inside' th = inside th) :
    Owned (some a) inside' := by
  intro th
  by_cases hth : th = a
  · subst hth
    exact ⟨fun _ => rfl, fun _ => hself⟩
  · rw [hother th hth]
    exact ⟨fun hin => absurd ((h th).mp hin) nofun, fun heq => absurd (Option.some.inj heq).symm hth⟩

theorem Owned.release (h : Owned holder inside) (hin : inside a = true) (hself : inside' a = false)
    (hother : ∀ th, th ≠ a → inside' th = inside th) : Owned none inside' := by
  intro th
  refine ⟨fun hth => ?_, nofun⟩
  by_cases heq : th = a
  · subst heq
    rw [hself] at hth
    cases hth
  · rw [hother th heq] at hth
    have hholder := ((h th).mp hth).symm.trans ((h a).mp hin)
    exact absurd (Option.some.inj hholder) heq

theorem Owned.unique (h : Owned holder inside) (ha : inside a = true) (hb : inside b = true) : a = b :=
  Option.some.inj (((h a).mp ha).symm.trans ((h b).mp hb))

end Mutex
