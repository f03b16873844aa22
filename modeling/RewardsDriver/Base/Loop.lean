import Mathlib.Data.Nat.Notation
import Mathlib.Tactic.Common

/-!
Loops that may not end.

`loop cond body fuel` is `while cond do body` with at most `fuel` tests of the condition; it
answers `none` when the fuel runs out.

* `loop_ends`: **the loop rule**, an invariant that every iteration keeps while a measure goes
  down; the loop ends in a state of the invariant where the condition fails.
* `loop_keeps`, `loop_mono`: a loop that has ended has kept its invariant, and ends with more fuel.
-/

namespace RewardsDriver

variable {σ : Type*}

/-- `while cond do body`, with at most `fuel` tests of the condition. -/
def loop (cond : σ → Bool) (body : σ → σ) : ℕ → σ → Option σ
  | 0, _ => none
  | fuel + 1, s => if cond s then loop cond body fuel (body s) else some s

variable {cond : σ → Bool} {body : σ → σ}

/-- **The loop rule**: where every iteration keeps an invariant and makes a measure smaller, the
loop ends, in a state of the invariant where the condition fails. -/
theorem loop_ends (Inv : σ → Prop) (μ : σ → ℕ)
    (hinv : ∀ s, Inv s → cond s = true → Inv (body s))
    (hμ : ∀ s, Inv s → cond s = true → μ (body s) < μ s) {s : σ} (hs : Inv s) {fuel : ℕ}
    (hfuel : μ s < fuel) : ∃ t, loop cond body fuel s = some t ∧ Inv t ∧ cond t = false := by
  induction fuel generalizing s with
  | zero => omega
  | succ fuel ih =>
      rw [loop]
      cases hc : cond s with
      | false => exact ⟨s, rfl, hs, hc⟩
      | true =>
          have hlt := hμ s hs hc
          exact ih (hinv s hs hc) (by omega)

/-- A loop that has ended has kept an invariant that every iteration keeps. -/
lemma loop_keeps {Inv : σ → Prop} (hinv : ∀ s, Inv s → cond s = true → Inv (body s)) {s t : σ}
    (hs : Inv s) {fuel : ℕ} (h : loop cond body fuel s = some t) : Inv t ∧ cond t = false := by
  induction fuel generalizing s with
  | zero => cases h
  | succ fuel ih =>
      rw [loop] at h
      cases hc : cond s with
      | true =>
          rw [hc, if_pos rfl] at h
          exact ih (hinv s hs hc) h
      | false =>
          rw [hc] at h
          obtain rfl := Option.some.inj h
          exact ⟨hs, hc⟩

/-- More fuel changes nothing. -/
lemma loop_mono {s t : σ} {fuel fuel' : ℕ} (hle : fuel ≤ fuel')
    (h : loop cond body fuel s = some t) : loop cond body fuel' s = some t := by
  induction fuel generalizing s fuel' with
  | zero => cases h
  | succ fuel ih =>
      obtain ⟨k, rfl⟩ : ∃ k, fuel' = k + 1 := ⟨fuel' - 1, by omega⟩
      rw [loop] at h ⊢
      cases hc : cond s with
      | true =>
          rw [hc, if_pos rfl] at h
          exact ih (by omega) h
      | false =>
          rw [hc] at h
          exact h

end RewardsDriver
