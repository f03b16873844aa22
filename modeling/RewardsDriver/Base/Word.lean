import Mathlib.Tactic

/-!
32-bit words as counters: addition that does not wrap, and numbers handed out from both ends.

Of two counters one rises from `0` and is incremented before it is read, the other falls from the
largest word and is decremented after it is read.

* `toNat_add_of_lt`: addition below the wrap.
* `lowEnd`, `highEnd`: the two counters after so many numbers each.
* `TwoEnds`: the numbers handed out are pairwise distinct and stay at their ends.
* `TwoEnds.up`, `TwoEnds.down`: **one more number from an end**, while there are fewer than `2^32`.
-/

namespace RewardsDriver

lemma toNat_add_of_lt {a b : UInt32} (h : a.toNat + b.toNat < 2 ^ 32) :
    (a + b).toNat = a.toNat + b.toNat := by
  rw [UInt32.toNat_add]
  exact Nat.mod_eq_of_lt h

/-- The rising counter after `r` numbers. -/
def lowEnd (r : ℕ) : UInt32 := UInt32.ofNat r

/-- The falling counter after `f` numbers. -/
def highEnd (f : ℕ) : UInt32 := UInt32.ofNat (2 ^ 32 - 1 - f)

lemma lowEnd_add_one (r : ℕ) : lowEnd r + 1 = lowEnd (r + 1) := by
  simp [lowEnd, UInt32.ofNat_add]

lemma toNat_lowEnd {r : ℕ} (h : r < 2 ^ 32) : (lowEnd r).toNat = r :=
  UInt32.toNat_ofNat_of_lt' h

lemma toNat_highEnd (f : ℕ) : (highEnd f).toNat = 2 ^ 32 - 1 - f :=
  UInt32.toNat_ofNat_of_lt' (by simp only [UInt32.size]; omega)

lemma highEnd_sub_one {f : ℕ} (h : f + 1 < 2 ^ 32) : highEnd f - 1 = highEnd (f + 1) := by
  have hone : (1 : UInt32) ≤ highEnd f := by
    rw [UInt32.le_iff_toNat_le, toNat_highEnd, UInt32.toNat_one]
    omega
  rw [← UInt32.toNat_inj, UInt32.toNat_sub_of_le _ _ hone, toNat_highEnd, toNat_highEnd,
    UInt32.toNat_one]
  omega

/-- Of the numbers `ids`, pairwise distinct, `r` have been handed out from the low end and `f`
from the high end. -/
structure TwoEnds (r f : ℕ) (ids : List UInt32) : Prop where
  length : ids.length = r + f
  nodup : ids.Nodup
  ends : ∀ id ∈ ids, 0 < id.toNat ∧ id.toNat ≤ r ∨ 2 ^ 32 - f ≤ id.toNat

namespace TwoEnds

variable {r f : ℕ} {ids : List UInt32}

lemma nil : TwoEnds 0 0 [] where
  length := rfl
  nodup := List.nodup_nil
  ends := by simp

/-- **One more number from the low end.** -/
theorem up (h : TwoEnds r f ids) (hroom : r + f + 1 < 2 ^ 32) :
    TwoEnds (r + 1) f (ids ++ [lowEnd (r + 1)]) := by
  have hnew : (lowEnd (r + 1)).toNat = r + 1 := toNat_lowEnd (by omega)
  refine ⟨?_, ?_, fun id hid => ?_⟩
  · rw [List.length_append, h.length, List.length_singleton]
    omega
  · refine List.nodup_append.mpr ⟨h.nodup, by simp, fun id hid new hn heq => ?_⟩
    obtain rfl : new = lowEnd (r + 1) := by simpa using hn
    rw [heq] at hid
    obtain ⟨_, hle⟩ | hge := h.ends _ hid <;> omega
  · obtain hid | hid := List.mem_append.mp hid
    · obtain ⟨hpos, hle⟩ | hge := h.ends id hid
      · exact .inl ⟨hpos, by omega⟩
      · exact .inr hge
    · obtain rfl : id = lowEnd (r + 1) := by simpa using hid
      exact .inl ⟨by omega, by omega⟩

/-- **One more number from the high end.** -/
theorem down (h : TwoEnds r f ids) (hroom : r + f + 1 < 2 ^ 32) :
    TwoEnds r (f + 1) (ids ++ [highEnd f]) := by
  have hnew : (highEnd f).toNat = 2 ^ 32 - 1 - f := toNat_highEnd f
  refine ⟨?_, ?_, fun id hid => ?_⟩
  · rw [List.length_append, h.length, List.length_singleton]
    omega
  · refine List.nodup_append.mpr ⟨h.nodup, by simp, fun id hid new hn heq => ?_⟩
    obtain rfl : new = highEnd f := by simpa using hn
    rw [heq] at hid
    obtain ⟨_, hle⟩ | hge := h.ends _ hid <;> omega
  · obtain hid | hid := List.mem_append.mp hid
    · obtain ⟨hpos, hle⟩ | hge := h.ends id hid
      · exact .inl ⟨hpos, hle⟩
      · exact .inr (by omega)
    · obtain rfl : id = highEnd f := by simpa using hid
      exact .inr (by omega)

/-- Neither end reaches zero. -/
lemma zero_notMem (h : TwoEnds r f ids) (hroom : ids.length < 2 ^ 32) : (0 : UInt32) ∉ ids := by
  intro h0
  have hlen := h.length
  obtain ⟨hpos, _⟩ | hge := h.ends 0 h0
  · simp at hpos
  · rw [UInt32.toNat_zero] at hge
    omega

end TwoEnds

end RewardsDriver
