import Mathlib.Data.List.Basic
import Mathlib.Tactic.Ring

/-!
Reading a list through a counter that wraps around.

A reader skips what it meets while its counter is below `start` and keeps the rest; the counter
is taken modulo `m`, so after every `m` elements the reader skips `start` of them again.

* `sieve`: what is kept.
* `sieve_block`: the first `m` elements and what comes behind them.
* `readIndex`, `sieve_getElem?`: **the `j`-th element kept**, at its place in the list.
* `take_sieve`: before the counter wraps the reader has just skipped the first `start`.
* `take_add_drop`: two windows, the second where the first ends.
-/

namespace RewardsDriver

variable {α : Type*} (m start : ℕ)

/-- The elements that are met with a counter, taken modulo `m`, of at least `start`. -/
def sieve : ℕ → List α → List α
  | _, [] => []
  | i, x :: l => if i % m < start then sieve (i + 1) l else x :: sieve (i + 1) l

@[simp] lemma sieve_nil (i : ℕ) : sieve m start i ([] : List α) = [] := rfl

lemma sieve_cons_of_lt {i : ℕ} (h : i % m < start) (x : α) (l : List α) :
    sieve m start i (x :: l) = sieve m start (i + 1) l := by
  rw [sieve, if_pos h]

lemma sieve_cons_of_not_lt {i : ℕ} (h : ¬ i % m < start) (x : α) (l : List α) :
    sieve m start i (x :: l) = x :: sieve m start (i + 1) l := by
  rw [sieve, if_neg h]

/-- The counter matters modulo `m` only. -/
lemma sieve_congr {i j : ℕ} (h : i % m = j % m) (l : List α) :
    sieve m start i l = sieve m start j l := by
  induction l generalizing i j with
  | nil => rfl
  | cons x l ih =>
      have hsucc : (i + 1) % m = (j + 1) % m := by rw [Nat.add_mod, h, ← Nat.add_mod]
      rw [sieve, sieve, h, ih hsucc]

/-- Up to the next wrap the reader drops what is below `start`. -/
lemma sieve_to_wrap {i : ℕ} (hi : i ≤ m) (l : List α) :
    sieve m start i l =
      (l.take (m - i)).drop (start - i) ++ sieve m start 0 (l.drop (m - i)) := by
  induction l generalizing i with
  | nil => simp
  | cons x l ih =>
      obtain rfl | hlt := Nat.eq_or_lt_of_le hi
      · have hwrap : sieve i start i (x :: l) = sieve i start 0 (x :: l) :=
          sieve_congr i start (by simp) _
        simp [hwrap]
      · obtain ⟨k, hk⟩ : ∃ k, m - i = k + 1 := ⟨m - i - 1, by omega⟩
        have hk' : m - (i + 1) = k := by omega
        have hmod : i % m = i := Nat.mod_eq_of_lt hlt
        rw [hk, List.take_succ_cons, List.drop_succ_cons]
        have hrest := ih (i := i + 1) (by omega)
        rw [hk'] at hrest
        by_cases hs : i < start
        · obtain ⟨d, hd⟩ : ∃ d, start - i = d + 1 := ⟨start - i - 1, by omega⟩
          have hd' : start - (i + 1) = d := by omega
          rw [sieve_cons_of_lt m start (by omega), hrest, hd, List.drop_succ_cons, hd']
        · have h0 : start - i = 0 := by omega
          have h1 : start - (i + 1) = 0 := by omega
          rw [sieve_cons_of_not_lt m start (by omega), hrest, h0, h1]
          rfl

/-- The first `m` elements, read once, and what comes behind them, read from the start again. -/
lemma sieve_block (l : List α) :
    sieve m start 0 l = (l.take m).drop start ++ sieve m start 0 (l.drop m) :=
  sieve_to_wrap m start (Nat.zero_le m) l

/-- A list that the counter can number is read once. -/
lemma sieve_of_length_le {l : List α} (h : l.length ≤ m) : sieve m start 0 l = l.drop start := by
  rw [sieve_block, List.take_of_length_le h, List.drop_of_length_le h, sieve_nil, List.append_nil]

/-- The place in the list of the `j`-th element kept: every `m - start` elements kept, `start`
more are skipped. -/
def readIndex (j : ℕ) : ℕ := start + j + start * (j / (m - start))

lemma readIndex_of_lt {j : ℕ} (h : j < m - start) : readIndex m start j = start + j := by
  rw [readIndex, Nat.div_eq_of_lt h, Nat.mul_zero, Nat.add_zero]

/-- One block on. -/
lemma readIndex_sub {j : ℕ} (hstart : start < m) (h : m - start ≤ j) :
    m + readIndex m start (j - (m - start)) = readIndex m start j := by
  obtain ⟨k, rfl⟩ := Nat.exists_eq_add_of_le h
  have hpos : 0 < m - start := by omega
  rw [readIndex, readIndex, Nat.add_sub_cancel_left, Nat.add_div_left k hpos, Nat.mul_succ]
  omega

/-- **The `j`-th element kept.** -/
theorem sieve_getElem? (hstart : start < m) (l : List α) (j : ℕ) :
    (sieve m start 0 l)[j]? = l[readIndex m start j]? := by
  induction j using Nat.strong_induction_on generalizing l with
  | _ j ih =>
    rw [sieve_block]
    have hlen : ((l.take m).drop start).length = min m l.length - start := by simp
    by_cases hl : l.length ≤ m
    · -- one block is all there is
      rw [List.drop_of_length_le hl, List.take_of_length_le hl, sieve_nil, List.append_nil,
        List.getElem?_drop]
      by_cases hj : j < m - start
      · rw [readIndex_of_lt m start hj]
      · have hge : start + j ≤ readIndex m start j := Nat.le_add_right _ _
        rw [List.getElem?_eq_none (by omega), List.getElem?_eq_none (by omega)]
    · by_cases hj : j < m - start
      · rw [List.getElem?_append_left (by omega), List.getElem?_drop,
          List.getElem?_take_of_lt (by omega), readIndex_of_lt m start hj]
      · have hblock : ((l.take m).drop start).length = m - start := by omega
        rw [List.getElem?_append_right (by omega), hblock, ih _ (by omega), List.getElem?_drop,
          readIndex_sub m start hstart (by omega)]

/-- Before the counter wraps the first `start` elements have been skipped, and no others. -/
theorem take_sieve {n : ℕ} (h : start + n ≤ m) (l : List α) :
    (sieve m start 0 l).take n = (l.drop start).take n := by
  obtain rfl | hstart := Nat.eq_or_lt_of_le (Nat.le_of_add_right_le h)
  · obtain rfl : n = 0 := by omega
    simp
  · refine List.ext_getElem? fun j => ?_
    by_cases hj : j < n
    · rw [List.getElem?_take_of_lt hj, List.getElem?_take_of_lt hj,
        sieve_getElem? m start hstart, readIndex_of_lt m start (by omega), List.getElem?_drop]
    · rw [List.getElem?_take_eq_none (by omega), List.getElem?_take_eq_none (by omega)]

/-- A window and the window behind it make one window. -/
lemma take_add_drop (l : List α) (a n k : ℕ) :
    (l.drop a).take n ++ (l.drop (a + n)).take k = (l.drop a).take (n + k) := by
  rw [List.take_add, List.drop_drop]

end RewardsDriver
