import Mathlib.Data.List.Basic

/-!
# Runs of a labelled machine

A machine is a partial step function: `step s a` is the state after the action
`a` in `s`, and `none` where `a` is not enabled. The choices of an environment
(which thread moves, what a server answers) are in the actions, so an
interleaving is a list of actions and a statement about every interleaving
quantifies over every list.

`Along step G s as` says that every action of the run meets the condition `G`
in the state it is taken in.
-/

namespace Lts

variable {σ α : Type*}

/-- The state after the actions `as`, `none` as soon as one is not enabled. -/
def run (step : σ → α → Option σ) : σ → List α → Option σ
  | s, [] => some s
  | s, a :: as => (step s a).bind fun t => run step t as

def Along (step : σ → α → Option σ) (G : σ → α → Prop) : σ → List α → Prop
  | _, [] => True
  | s, a :: as => G s a ∧ ∀ t, step s a = some t → Along step G t as

def Throughout (step : σ → α → Option σ) (P : σ → Prop) (s : σ) (as : List α) : Prop :=
  ∀ pre t, pre <+: as → run step s pre = some t → P t

instance Along.decidable {step : σ → α → Option σ} {G : σ → α → Prop} [∀ s a, Decidable (G s a)] :
    ∀ s as, Decidable (Along step G s as)
  | _, [] => isTrue trivial
  | s, a :: as =>
    match h : step s a with
    | none => decidable_of_iff (G s a) ⟨fun hg => ⟨hg, fun t ht => by rw [h] at ht; cases ht⟩, fun hg => hg.1⟩
    | some t =>
      have : Decidable (Along step G t as) := Along.decidable t as
      decidable_of_iff (G s a ∧ Along step G t as)
        ⟨fun hg => ⟨hg.1, fun u hu => by rw [h] at hu; cases hu; exact hg.2⟩, fun hg => ⟨hg.1, hg.2 t h⟩⟩

section
variable {step : σ → α → Option σ} {G Q : σ → α → Prop}

theorem run_cons (s : σ) (a : α) (as : List α) :
    run step s (a :: as) = (step s a).bind fun t => run step t as := rfl

theorem run_cons_some {s t : σ} {a : α} {as : List α} (h : run step s (a :: as) = some t) :
    ∃ u, step s a = some u ∧ run step u as = some t :=
  Option.bind_eq_some_iff.mp h

theorem run_append : ∀ (as bs : List α) (s : σ), run step s (as ++ bs) = (run step s as).bind fun t => run step t bs
  | [], _, _ => rfl
  | a :: as, bs, s => by
    rw [List.cons_append, run_cons, run_cons]
    cases step s a with
    | none => rfl
    | some t => exact run_append as bs t

theorem Along.append : ∀ {as bs : List α} {s : σ}, Along step G s (as ++ bs) →
    Along step G s as ∧ ∀ t, run step s as = some t → Along step G t bs
  | [], _, s, h => ⟨trivial, fun t ht => by cases ht; exact h⟩
  | a :: as, bs, s, h => by
    refine ⟨⟨h.1, fun t ht => (h.2 t ht).append.1⟩, fun t ht => ?_⟩
    obtain ⟨u, hu, hr⟩ := run_cons_some ht
    exact (h.2 u hu).append.2 t hr

theorem along_true : ∀ (as : List α) (s : σ), Along step (fun _ _ => True) s as
  | [], _ => trivial
  | _ :: as, _ => ⟨trivial, fun t _ => along_true as t⟩

theorem along_of_forall : ∀ {as : List α} {s : σ}, (∀ a ∈ as, ∀ s, G s a) → Along step G s as
  | [], _, _ => trivial
  | a :: _, s, h =>
    ⟨h a List.mem_cons_self s, fun _ _ => along_of_forall fun b hb => h b (List.mem_cons_of_mem a hb)⟩

/-- **Guarded invariant rule.** What every step that meets `G` preserves holds
at the end of every run whose steps all meet `G`. -/
theorem inv_of_along {I : σ → Prop} (hstep : ∀ s a t, I s → G s a → step s a = some t → I t) :
    ∀ {as : List α} {s t : σ}, I s → Along step G s as → run step s as = some t → I t
  | [], _, _, hi, _, hr => by cases hr; exact hi
  | a :: as, s, t, hi, hg, hr => by
    obtain ⟨u, hu, hr⟩ := run_cons_some hr
    exact inv_of_along hstep (hstep s a u hi hg.1 hu) (hg.2 u hu) hr

theorem inv_of_run {I : σ → Prop} (hstep : ∀ s a t, I s → step s a = some t → I t) {as : List α} {s t : σ} (hi : I s)
    (hr : run step s as = some t) : I t :=
  inv_of_along (fun s a t hi _ h => hstep s a t hi h) hi (along_true as s) hr

theorem inv_of_mem {J : σ → Prop} {a : α} (hset : ∀ s t, step s a = some t → J t)
    (hkeep : ∀ s b t, J s → step s b = some t → J t) {as : List α} {s t : σ} (hmem : a ∈ as)
    (hr : run step s as = some t) : J t := by
  obtain ⟨pre, post, rfl⟩ := List.append_of_mem hmem
  rw [run_append] at hr
  obtain ⟨u, -, hr⟩ := Option.bind_eq_some_iff.mp hr
  obtain ⟨v, hv, hr⟩ := run_cons_some hr
  exact inv_of_run hkeep (hset u v hv) hr

/-- A condition that the invariant and the guard give at each step holds along
the whole run. -/
theorem along_of_along {I : σ → Prop} (hstep : ∀ s a t, I s → G s a → step s a = some t → I t)
    (hq : ∀ s a, I s → G s a → Q s a) : ∀ {as : List α} {s : σ}, I s → Along step G s as → Along step Q s as
  | [], _, _, _ => trivial
  | a :: _, s, hi, hg =>
    ⟨hq s a hi hg.1, fun t ht => along_of_along hstep hq (hstep s a t hi hg.1 ht) (hg.2 t ht)⟩

theorem along_iff_along {I : σ → Prop} (hstep : ∀ s a t, I s → step s a = some t → I t)
    (hiff : ∀ s a t, I s → step s a = some t → (Q s a ↔ G s a)) :
    ∀ {as : List α} {s t : σ}, I s → run step s as = some t → (Along step Q s as ↔ Along step G s as)
  | [], _, _, _, _ => Iff.rfl
  | a :: as, s, t, hi, hr => by
    obtain ⟨u, hu, hr⟩ := run_cons_some hr
    have hrest := along_iff_along hstep hiff (hstep s a u hi hu) hr
    constructor
    · intro h
      refine ⟨(hiff s a u hi hu).mp h.1, fun v hv => ?_⟩
      rw [hu] at hv; cases hv
      exact hrest.mp (h.2 u hu)
    · intro h
      refine ⟨(hiff s a u hi hu).mpr h.1, fun v hv => ?_⟩
      rw [hu] at hv; cases hv
      exact hrest.mpr (h.2 u hu)

/-- **Potential.** A count that a guarded step raises by no more than its action's
charge is bounded by the charges of the run. -/
theorem potential_of_along {I : σ → Prop} {f : σ → Nat} {charge : α → Bool}
    (hstep : ∀ s a t, I s → G s a → step s a = some t → I t)
    (hf : ∀ s a t, I s → G s a → step s a = some t → f t ≤ f s + if charge a then 1 else 0) :
    ∀ {as : List α} {s t : σ}, I s → Along step G s as → run step s as = some t → f t ≤ f s + as.countP charge
  | [], _, _, _, _, hr => by cases hr; exact Nat.le_refl _
  | a :: as, s, t, hi, hg, hr => by
    obtain ⟨u, hu, hr⟩ := run_cons_some hr
    have hone := hf s a u hi hg.1 hu
    have hrest := potential_of_along hstep hf (hstep s a u hi hg.1 hu) (hg.2 u hu) hr
    rw [List.countP_cons]
    omega

/-- **Count.** What every step keeps as the count of the charged actions goes on, holds after a run with its
own count. -/
theorem counted_of_run {J : σ → Nat → Prop} {charge : α → Bool}
    (hstep : ∀ s a t n, J s n → step s a = some t → J t (n + if charge a then 1 else 0)) :
    ∀ {as : List α} {s t : σ} {n : Nat}, J s n → run step s as = some t → J t (n + as.countP charge)
  | [], _, _, _, hj, hr => by cases hr; exact hj
  | a :: as, s, t, n, hj, hr => by
    obtain ⟨u, hu, hr⟩ := run_cons_some hr
    have hrest := counted_of_run hstep (hstep s a u n hj hu) hr
    rwa [List.countP_cons, Nat.add_comm (as.countP charge), ← Nat.add_assoc]

/-- **Simulation.** Where each guarded step is seen as a run of another machine, every guarded run is. -/
theorem simulated_of_along {τ β : Type*} {step' : τ → β → Option τ} {view : σ → τ} {I : σ → Prop}
    (hstep : ∀ s a t, I s → G s a → step s a = some t → I t)
    (hsim : ∀ s a t, I s → G s a → step s a = some t → ∃ bs, run step' (view s) bs = some (view t)) :
    ∀ {as : List α} {s t : σ}, I s → Along step G s as → run step s as = some t →
      ∃ bs, run step' (view s) bs = some (view t)
  | [], _, _, _, _, hr => by cases hr; exact ⟨[], rfl⟩
  | a :: as, s, t, hi, hg, hr => by
    obtain ⟨u, hu, hr⟩ := run_cons_some hr
    obtain ⟨bs, hbs⟩ := hsim s a u hi hg.1 hu
    obtain ⟨cs, hcs⟩ := simulated_of_along hstep hsim (hstep s a u hi hg.1 hu) (hg.2 u hu) hr
    refine ⟨bs ++ cs, ?_⟩
    rw [run_append, hbs]
    exact hcs

/-- **Accounts.** If each step adds nothing to the account just when it meets `G`,
a run adds nothing just when all its steps do. -/
theorem account_of_run {β : Type*} {I : σ → List β → Prop}
    (hstep : ∀ s a t w, I s w → step s a = some t → ∃ w', I t (w' ++ w) ∧ (w' = [] ↔ G s a)) :
    ∀ {as : List α} {s t : σ} {w : List β}, I s w → run step s as = some t →
      ∃ w', I t (w' ++ w) ∧ (w' = [] ↔ Along step G s as)
  | [], _, _, _, hi, hr => by cases hr; exact ⟨[], hi, iff_of_true rfl trivial⟩
  | a :: as, s, t, w, hi, hr => by
    obtain ⟨u, hu, hr⟩ := run_cons_some hr
    obtain ⟨w₁, hi₁, hw₁⟩ := hstep s a u w hi hu
    obtain ⟨w₂, hi₂, hw₂⟩ := account_of_run hstep hi₁ hr
    refine ⟨w₂ ++ w₁, by rwa [List.append_assoc], ?_⟩
    rw [List.append_eq_nil_iff, hw₁, hw₂]
    refine ⟨fun h => ⟨h.2, fun v hv => ?_⟩, fun h => ⟨h.2 u hu, h.1⟩⟩
    rw [hu] at hv; cases hv
    exact h.1

theorem Throughout.cons {P : σ → Prop} {s t : σ} {a : α} {as : List α} (h : Throughout step P s (a :: as))
    (ht : step s a = some t) : Throughout step P t as := fun pre u hpre hu =>
  h (a :: pre) u (List.cons_prefix_cons.mpr ⟨rfl, hpre⟩) (by rw [run_cons, ht]; exact hu)

theorem not_throughout {P : σ → Prop} {s : σ} {as : List α} (h : ∃ t ∈ run step s as, ¬ P t) :
    ¬ Throughout step P s as := by
  obtain ⟨t, ht, hn⟩ := h
  exact fun hp => hn (hp as t (List.prefix_refl _) ht)

theorem Along.and : ∀ {as : List α} {s : σ}, Along step G s as → Along step Q s as →
    Along step (fun s a => G s a ∧ Q s a) s as
  | [], _, _, _ => trivial
  | _ :: _, _, hg, hq => ⟨⟨hg.1, hq.1⟩, fun t ht => (hg.2 t ht).and (hq.2 t ht)⟩

theorem along_of_throughout {P : σ → Prop} : ∀ {as : List α} {s : σ}, Throughout step P s as →
    Along step (fun s _ => P s) s as
  | [], _, _ => trivial
  | _ :: _, s, h => ⟨h [] s List.nil_prefix rfl, fun _ ht => along_of_throughout (h.cons ht)⟩

theorem throughout_of_along {I P : σ → Prop} (hstep : ∀ s a t, I s → G s a → step s a = some t → I t)
    (hp : ∀ s, I s → P s) {s : σ} {as : List α} (hi : I s) (hg : Along step G s as) : Throughout step P s as := by
  rintro pre t ⟨post, rfl⟩ hr
  exact hp t (inv_of_along hstep hi hg.append.1 hr)

/-- **Exact guard.** If the guarded steps keep the invariant that gives `P`, and
a step that breaks the guard leads out of `P`, then `P` holds throughout a run
just when all its steps meet the guard. -/
theorem throughout_iff_along {I P : σ → Prop} (hstep : ∀ s a t, I s → G s a → step s a = some t → I t)
    (hp : ∀ s, I s → P s) (hbad : ∀ s a t, I s → ¬ G s a → step s a = some t → ¬ P t) :
    ∀ {as : List α} {s t : σ}, I s → run step s as = some t → (Throughout step P s as ↔ Along step G s as)
  | [], _, _, hi, _ => ⟨fun _ => trivial, fun hg => throughout_of_along hstep hp hi hg⟩
  | a :: as, s, t, hi, hr => by
    refine ⟨fun h => ?_, fun hg => throughout_of_along hstep hp hi hg⟩
    obtain ⟨u, hu, hr⟩ := run_cons_some hr
    have hga : G s a := by
      refine Classical.byContradiction fun hn => ?_
      exact hbad s a u hi hn hu (h.cons hu [] u List.nil_prefix rfl)
    refine ⟨hga, fun v hv => ?_⟩
    rw [hu] at hv; cases hv
    exact (throughout_iff_along hstep hp hbad (hstep s a u hi hga hu) hr).mp (h.cons hu)

/-- **Trap.** Where a step that breaks the guard leads into a trap, a run that is
not guarded ends in it. -/
theorem trapped_of_not_along {I J : σ → Prop} (hI : ∀ s a t, I s → step s a = some t → I t)
    (hJ : ∀ s a t, J s → step s a = some t → J t) (hbad : ∀ s a t, I s → ¬ G s a → step s a = some t → J t) :
    ∀ {as : List α} {s t : σ}, I s → run step s as = some t → ¬ Along step G s as → J t
  | [], _, _, _, _, hn => absurd trivial hn
  | a :: as, s, t, hi, hr, hn => by
    obtain ⟨u, hu, hr⟩ := run_cons_some hr
    by_cases hg : G s a
    · refine trapped_of_not_along hI hJ hbad (hI s a u hi hu) hr fun halong => hn ⟨hg, fun v hv => ?_⟩
      rw [hu] at hv; cases hv
      exact halong
    · exact inv_of_run hJ (hbad s a u hi hg hu) hr

end

/-! ## History -/

section
variable {η : Type*} (step : σ → α → Option σ) (record : η → σ → α → η)

/-- The machine with a record of what has happened, on which no step depends. -/
def withHistory (x : σ × η) (a : α) : Option (σ × η) := (step x.1 a).map fun t => (t, record x.2 x.1 a)

variable {step}

theorem run_withHistory : ∀ {as : List α} {s t : σ} (w : η), run step s as = some t →
    ∃ w', run (withHistory step record) (s, w) as = some (t, w')
  | [], _, _, w, h => by cases h; exact ⟨w, rfl⟩
  | a :: as, s, t, w, h => by
    obtain ⟨u, hu, hr⟩ := run_cons_some h
    obtain ⟨w', hw⟩ := run_withHistory (record w s a) hr
    refine ⟨w', ?_⟩
    rw [run_cons, withHistory, hu]
    exact hw

variable {record}

theorem run_of_withHistory : ∀ {as : List α} {x y : σ × η}, run (withHistory step record) x as = some y →
    run step x.1 as = some y.1
  | [], _, _, h => by cases h; rfl
  | a :: as, x, y, h => by
    obtain ⟨z, hz, hr⟩ := run_cons_some h
    obtain ⟨t, ht, rfl⟩ := Option.map_eq_some_iff.mp hz
    rw [run_cons, ht]
    exact run_of_withHistory hr

theorem throughout_withHistory {P : σ → Prop} {w : η} {s : σ} {as : List α} :
    Throughout (withHistory step record) (fun x => P x.1) (s, w) as ↔ Throughout step P s as := by
  constructor
  · intro h pre t hpre ht
    obtain ⟨w', hw⟩ := run_withHistory record w ht
    exact h pre (t, w') hpre hw
  · intro h pre x hpre hx
    exact h pre x.1 hpre (run_of_withHistory hx)

theorem along_withHistory {G : σ → α → Prop} : ∀ {as : List α} {x : σ × η}, Along step G x.1 as →
    Along (withHistory step record) (fun y => G y.1) x as
  | [], _, _ => trivial
  | _ :: _, _, h => by
    refine ⟨h.1, fun y hy => ?_⟩
    obtain ⟨t, ht, rfl⟩ := Option.map_eq_some_iff.mp hy
    exact along_withHistory (h.2 t ht)

theorem withHistory_some {x y : σ × η} {a : α} (h : withHistory step record x a = some y) :
    step x.1 a = some y.1 ∧ y.2 = record x.2 x.1 a := by
  obtain ⟨t, ht, rfl⟩ := Option.map_eq_some_iff.mp h
  exact ⟨ht, rfl⟩

end

/-! ## Atomic groups of steps -/

def grouped {β : Type*} (step : σ → α → Option σ) (expand : σ → β → Option (List α)) (s : σ) (b : β) : Option σ :=
  (expand s b).bind (run step s)

theorem grouped_some {β : Type*} {step : σ → α → Option σ} {expand : σ → β → Option (List α)} {s t : σ} {b : β}
    (h : grouped step expand s b = some t) : ∃ as, expand s b = some as ∧ run step s as = some t :=
  Option.bind_eq_some_iff.mp h

end Lts
