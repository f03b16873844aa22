import Mathlib.Data.Set.Basic
import Mathlib.Logic.Function.Basic

/-!
Labelled transition systems and the induction over their runs.

A system is given by its initial state and a partial step function: the label resolves every
choice (which thread moves, what the environment answers), and `none` says that the label is
not enabled.

* `System.Reach`: the states reached by runs whose steps all meet a guard on the state before
  the step and the label; `System.Free` is the guard that admits every step.
* `System.Reach.invariant`: **the invariant rule**, an initial property that every guarded step
  preserves holds in every state reached.
* `of_update_eq`, `update_eq_of_ne`: a step that changes a function at one point.
* `System.run`, `System.reach_of_run`: executable runs, so that a schedule written out as a list
  of labels is a reachable state; `System.run_invariant` is the invariant rule for a part of one.
-/

namespace RewardsDriver

universe u v

/-- What an update does not put there was there before, elsewhere. -/
lemma of_update_eq {α : Type u} {β : Type v} [DecidableEq α] {f : α → β} {a b : α} {v x : β}
    (h : Function.update f a v b = x) (hv : v ≠ x) : b ≠ a ∧ f b = x := by
  by_cases hba : b = a
  · rw [hba, Function.update_self] at h
    exact absurd h hv
  · rw [Function.update_of_ne hba] at h
    exact ⟨hba, h⟩

/-- What was there elsewhere is still there after an update. -/
lemma update_eq_of_ne {α : Type u} {β : Type v} [DecidableEq α] {f : α → β} {a b : α} {x : β}
    (v : β) (hba : b ≠ a) (h : f b = x) : Function.update f a v b = x := by
  rw [Function.update_of_ne hba, h]

/-- A labelled transition system: an initial state and a partial step function. -/
structure System (σ : Type u) (α : Type v) where
  init : σ
  step : σ → α → Option σ

namespace System

variable {σ : Type u} {α : Type v} (M : System σ α)

/-- The guard that admits every step. -/
def Free : σ → α → Prop := fun _ _ => True

/-- The states reached by the runs whose steps all meet the guard `ok`. -/
inductive Reach (ok : σ → α → Prop) : σ → Prop
  | init : Reach ok M.init
  | step {s s' : σ} {a : α} (h : Reach ok s) (hok : ok s a) (hs : M.step s a = some s') :
      Reach ok s'

variable {M}

/-- **The invariant rule**: a property of the initial state that every guarded step preserves
holds in every state reached. -/
theorem Reach.invariant {ok : σ → α → Prop} {Inv : σ → Prop} (hinit : Inv M.init)
    (hstep : ∀ s a s', Inv s → ok s a → M.step s a = some s' → Inv s') {s : σ}
    (h : M.Reach ok s) : Inv s := by
  induction h with
  | init => exact hinit
  | step _ hok hs ih => exact hstep _ _ _ ih hok hs

variable (M)

/-- The state after the labels of `as`, if each is enabled in its turn. -/
def run : σ → List α → Option σ
  | s, [] => some s
  | s, a :: as => (M.step s a).bind fun s' => run s' as

variable {M}

lemma run_append (s : σ) (as bs : List α) :
    M.run s (as ++ bs) = (M.run s as).bind fun t => M.run t bs := by
  induction as generalizing s with
  | nil => rfl
  | cons a as ih =>
      simp only [List.cons_append, run, Option.bind_assoc, ih]

/-- **The invariant rule** for a part of a run: what each of its labels preserves. -/
theorem run_invariant {Inv : σ → Prop} {s s' : σ} {as : List α} (hs : Inv s)
    (hstep : ∀ t, ∀ a ∈ as, ∀ t', Inv t → M.step t a = some t' → Inv t')
    (hr : M.run s as = some s') : Inv s' := by
  induction as generalizing s with
  | nil =>
      obtain rfl : s = s' := Option.some.inj hr
      exact hs
  | cons a as ih =>
      obtain ⟨t, ht, hrest⟩ := Option.bind_eq_some_iff.mp hr
      exact ih (hstep s a (by simp) t hs ht) (fun t b hb => hstep t b (by simp [hb])) hrest

/-- A schedule of labels that the guard admits in every state leads from a state reached to a
state reached. -/
lemma Reach.run {ok : σ → α → Prop} {s s' : σ} {as : List α} (h : M.Reach ok s)
    (hok : ∀ a ∈ as, ∀ t, ok t a) (hr : M.run s as = some s') : M.Reach ok s' := by
  induction as generalizing s with
  | nil =>
      rw [System.run, Option.some.injEq] at hr
      exact hr ▸ h
  | cons a as ih =>
      rw [System.run, Option.bind_eq_some_iff] at hr
      obtain ⟨t, ht, hrest⟩ := hr
      exact ih (.step h (hok a (by simp) s) ht) (fun b hb => hok b (by simp [hb])) hrest

/-- The end of a schedule from the initial state is reachable. -/
theorem reach_of_run {s : σ} {as : List α} (hr : M.run M.init as = some s) : M.Reach Free s :=
  Reach.run .init (fun _ _ _ => trivial) hr

end System

end RewardsDriver
