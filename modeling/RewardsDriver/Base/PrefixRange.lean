import Mathlib.Data.List.Lex
import Mathlib.Data.List.TakeWhile

/-!
The words with a given prefix in a sorted list of words.

In the lexicographic order the words that begin with `p` are an interval that starts at `p`: a
sorted list is searched for them by going to the first word that is not below `p` and reading on
while the prefix is there.

* `prefix_of_between`: the interval.
* `filter_prefix_eq`: **the words with a prefix are found in one run**.
* `map_takeWhile_eq_iff`: when two tests read the same run of a list.
* `take_takeWhile_eq`: when they read the same first elements.
* `take_drop_eq_iff_of_prefix`: when two runs have the same window.
-/

namespace RewardsDriver

variable {α β γ : Type*}

/-! ### The interval of a prefix -/

section Interval

variable [LT α]

/-- What lies between a prefix and a word that has it, has it too. -/
lemma prefix_of_between {p k l : List α} (hpk : ¬ k < p) (hkl : k < l) (hl : p <+: l) :
    p <+: k := by
  induction p generalizing k l with
  | nil => exact List.nil_prefix
  | cons a p ih =>
      obtain ⟨t, rfl⟩ := hl
      rw [List.cons_append] at hkl
      cases k with
      | nil => exact absurd (List.nil_lt_cons a p) hpk
      | cons b k =>
          rw [List.cons_lt_cons_iff, not_or] at hpk
          obtain hba | ⟨rfl, hkt⟩ := List.cons_lt_cons_iff.mp hkl
          · exact absurd hba hpk.1
          · have hpk' : ¬ k < p := fun h => hpk.2 ⟨rfl, h⟩
            exact (List.prefix_cons_inj b).mpr (ih hpk' hkt (List.prefix_append p t))

end Interval

/-! ### Runs of a list -/

/-- What is kept of a list that is in an order is a first run of it, if whatever comes before
something kept is kept. -/
lemma filter_eq_takeWhile {r : γ → γ → Prop} {keep : γ → Bool} {l : List γ} (hl : l.Pairwise r)
    (hkeep : ∀ x ∈ l, ∀ y ∈ l, r x y → keep y = true → keep x = true) :
    l.filter keep = l.takeWhile keep := by
  induction l with
  | nil => rfl
  | cons x l ih =>
      obtain ⟨hx, hrest⟩ := List.pairwise_cons.mp hl
      cases hkx : keep x with
      | true =>
          rw [List.filter_cons_of_pos hkx, List.takeWhile_cons_of_pos hkx,
            ih hrest fun y hy z hz => hkeep y (List.mem_cons_of_mem x hy) z
              (List.mem_cons_of_mem x hz)]
      | false =>
          rw [List.takeWhile_cons_of_neg (by simp [hkx]), List.filter_eq_nil_iff]
          intro y hy hky
          obtain rfl | hy := List.mem_cons.mp hy
          · simp [hkx] at hky
          · have := hkeep x List.mem_cons_self y (List.mem_cons_of_mem x hy) (hx y hy) hky
            simp [hkx] at this

/-- Nothing behind the dropped head of a list in a transitive order is dropped either. -/
lemma not_of_mem_dropWhile {r : γ → γ → Prop} {low : γ → Bool} {l : List γ} (hl : l.Pairwise r)
    (hlow : ∀ x y, r x y → low y = true → low x = true) {x : γ} (hx : x ∈ l.dropWhile low) :
    low x = false := by
  have hsub : (l.dropWhile low).Pairwise r := hl.sublist (List.dropWhile_sublist low)
  cases hd : l.dropWhile low with
  | nil => simp [hd] at hx
  | cons y t =>
      have hy : low y = false := by
        have := List.head_dropWhile_not low (l := l) (by simp [hd])
        simpa [hd] using this
      rw [hd] at hx hsub
      obtain rfl | hxt := List.mem_cons.mp hx
      · exact hy
      · cases hlx : low x with
        | false => rfl
        | true =>
            have := hlow y x ((List.pairwise_cons.mp hsub).1 x hxt) hlx
            simp [hy] at this

/-- Two first runs of a list have the same images exactly when the second test holds on the
first run and fails on what comes right behind it. -/
lemma map_takeWhile_eq_iff {f g : γ → Bool} (v : γ → β) (l : List γ) :
    (l.takeWhile f).map v = (l.takeWhile g).map v ↔
      (∀ x ∈ l.takeWhile f, g x = true) ∧ ∀ x ∈ (l.dropWhile f).head?, g x = false := by
  induction l with
  | nil => simp
  | cons x l ih =>
      cases hf : f x <;> cases hg : g x <;> simp [hf, hg, ih]

/-- The same for the first `n` elements of the runs, which only those decide and, if the first run
is shorter, what comes right behind it. -/
lemma take_takeWhile_eq {f g : γ → Bool} {n : ℕ} {l : List γ}
    (hin : ∀ x ∈ (l.takeWhile f).take n, g x = true)
    (hbehind : (l.takeWhile f).length < n → ∀ x ∈ (l.dropWhile f).head?, g x = false) :
    (l.takeWhile g).take n = (l.takeWhile f).take n := by
  induction l generalizing n with
  | nil => rfl
  | cons x l ih =>
      cases n with
      | zero => rw [List.take_zero, List.take_zero]
      | succ n =>
          cases hf : f x with
          | true =>
              rw [List.takeWhile_cons_of_pos hf] at hin hbehind ⊢
              rw [List.dropWhile_cons_of_pos hf, List.length_cons] at hbehind
              rw [List.take_succ_cons] at hin
              have hg : g x = true := hin x List.mem_cons_self
              rw [List.takeWhile_cons_of_pos hg, List.take_succ_cons, List.take_succ_cons,
                ih (fun y hy => hin y (List.mem_cons_of_mem x hy))
                  fun hlt => hbehind (Nat.succ_lt_succ hlt)]
          | false =>
              have hf' : ¬ f x = true := by simp [hf]
              rw [List.takeWhile_cons_of_neg hf', List.dropWhile_cons_of_neg hf'] at hbehind
              have hg : g x = false := hbehind (Nat.succ_pos n) x rfl
              rw [List.takeWhile_cons_of_neg hf', List.takeWhile_cons_of_neg (by simp [hg])]

/-- A list that is shorter than what it agrees on is the other list. -/
lemma eq_of_take_eq {xs ys : List γ} {n : ℕ} (h : xs.take n = ys.take n) (hlt : ys.length < n) :
    xs = ys := by
  have hys : ys.take n = ys := List.take_of_length_le hlt.le
  have hlength := congrArg List.length h
  rw [hys, List.length_take] at hlength
  rw [hys] at h
  rwa [List.take_of_length_le (by omega)] at h

/-- Windows of two first parts of a list are the same exactly when they are equally long. -/
lemma take_drop_eq_iff_of_prefix {xs ys l : List γ} (hx : xs <+: l) (hy : ys <+: l) (a n : ℕ) :
    (xs.drop a).take n = (ys.drop a).take n ↔
      min n (xs.length - a) = min n (ys.length - a) := by
  have hpart : ∀ {zs : List γ}, zs <+: l →
      (zs.drop a).take n = (l.drop a).take (min n (zs.length - a)) := fun {zs} hz =>
    calc (zs.drop a).take n
        = ((l.take zs.length).drop a).take n := by rw [← List.prefix_iff_eq_take.mp hz]
      _ = (l.drop a).take (min n (zs.length - a)) := by rw [List.drop_take, List.take_take]
  constructor
  · intro h
    simpa using congrArg List.length h
  · intro h
    rw [hpart hx, hpart hy, h]

/-! ### The words with a prefix -/

section Sorted

variable [DecidableEq α] [LT α] [DecidableLT α] [Std.Irrefl (α := α) (· < ·)]
  [Trans (α := α) (· < ·) (· < ·) (· < ·)]

/-- **The words with a prefix are found in one run**: in a list of entries sorted by their keys,
those whose key begins with `p` are read from the first key that is not below `p` on, up to the
first key that does not begin with `p`. -/
theorem filter_prefix_eq {entries : List (List α × β)}
    (h : entries.Pairwise fun e f => e.1 < f.1) (p : List α) :
    entries.filter (fun e => p.isPrefixOf e.1) =
      (entries.dropWhile fun e => e.1 < p).takeWhile fun e => p.isPrefixOf e.1 := by
  have hbelow : ∀ e ∈ entries.takeWhile fun e => e.1 < p, ¬ p.isPrefixOf e.1 = true := by
    intro e he hp
    have hlt : e.1 < p := by simpa using List.mem_takeWhile_imp he
    exact (List.isPrefixOf_iff_prefix.mp hp).le hlt
  have hfrom : ∀ e ∈ entries.dropWhile fun e => e.1 < p, ¬ e.1 < p := by
    intro e he
    have := not_of_mem_dropWhile h (fun x y hxy hy => by
      have hy : y.1 < p := by simpa using hy
      simpa using List.lt_trans hxy hy) he
    simpa using this
  calc entries.filter (fun e => p.isPrefixOf e.1)
      = ((entries.takeWhile fun e => e.1 < p) ++ entries.dropWhile fun e => e.1 < p).filter
          fun e => p.isPrefixOf e.1 := by rw [List.takeWhile_append_dropWhile]
    _ = (entries.dropWhile fun e => e.1 < p).filter fun e => p.isPrefixOf e.1 := by
        rw [List.filter_append, List.filter_eq_nil_iff.mpr hbelow, List.nil_append]
    _ = (entries.dropWhile fun e => e.1 < p).takeWhile fun e => p.isPrefixOf e.1 := by
        refine filter_eq_takeWhile (h.sublist (List.dropWhile_sublist _)) ?_
        intro e he f _ hef hf
        exact List.isPrefixOf_iff_prefix.mpr
          (prefix_of_between (hfrom e he) hef (List.isPrefixOf_iff_prefix.mp hf))

end Sorted

end RewardsDriver
