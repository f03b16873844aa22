import Mathlib.Algebra.BigOperators.Group.Finset.Piecewise
import Mathlib.Tactic
import RewardsDriver.Base.Runs

/-!
Runs that end: a potential pays for the steps of a labelled transition system.

A state holds amounts, and a label brings one with it. Where every step costs at least one, the
length of a run is bounded by what the first state holds and what the labels bring.

* `System.Pays`: every step is paid.
* `System.Pays.run`: **the bound of a run**.
* `sum_update_add`: a sum over a function that is changed at one point.
-/

namespace RewardsDriver

universe u v

/-- A sum of weights when the function is changed at `t`. -/
lemma sum_update_add {α : Type u} {β : Type v} [DecidableEq α] (w : β → ℕ) (f : α → β)
    {T : Finset α} {t : α} (ht : t ∈ T) (b : β) :
    ∑ x ∈ T, w (Function.update f t b x) + w (f t) = ∑ x ∈ T, w (f x) + w b := by
  calc ∑ x ∈ T, w (Function.update f t b x) + w (f t)
      = ∑ x ∈ T, Function.update (w ∘ f) t (w b) x + w (f t) := by
        rw [← Function.comp_update]
        rfl
    _ = w b + (∑ x ∈ T \ {t}, w (f x) + w (f t)) := by
        rw [Finset.sum_update_of_mem ht, add_assoc]
        rfl
    _ = ∑ x ∈ T, w (f x) + w b := by
        rw [Finset.sum_eq_sum_sdiff_singleton_add ht, add_comm]

namespace System

variable {σ : Type u} {α : Type v}

/-- Every step is paid: it leaves one less than the state held and the label brought. -/
def Pays (M : System σ α) (Holds : σ → ℕ → Prop) (brings : α → ℕ) : Prop :=
  ∀ ⦃s : σ⦄ ⦃a : α⦄ ⦃s' : σ⦄ ⦃n : ℕ⦄, Holds s n → M.step s a = some s' →
    ∃ n', Holds s' n' ∧ n' + 1 ≤ n + brings a

variable {M : System σ α} {Holds : σ → ℕ → Prop} {brings : α → ℕ}

/-- **The bound of a run**: what it leaves and its length, against what it began with and what its
labels brought. -/
theorem Pays.run (h : M.Pays Holds brings) {s s' : σ} {n : ℕ} {as : List α} (hs : Holds s n)
    (hr : M.run s as = some s') :
    ∃ n', Holds s' n' ∧ n' + as.length ≤ n + (as.map brings).sum := by
  induction as generalizing s n with
  | nil =>
      obtain rfl : s = s' := Option.some.inj hr
      exact ⟨n, hs, le_rfl⟩
  | cons a as ih =>
      obtain ⟨t, hstep, hrest⟩ := Option.bind_eq_some_iff.mp hr
      obtain ⟨m, ht, hm⟩ := h hs hstep
      obtain ⟨n', hs', hn'⟩ := ih ht hrest
      refine ⟨n', hs', ?_⟩
      rw [List.length_cons, List.map_cons, List.sum_cons]
      omega

end System

end RewardsDriver
