import Mathlib.Data.List.Induction
import Mathlib.Data.List.Nodup

/-!
Tables whose rows have a unique key.

A `UniqueTable` carries the uniqueness of its keys as a field, so a table with two rows of one
key cannot be built. `replace` is the write of a row over the row of the same key and `erase`
the removal of a key's row; `row?` reads a key. The main facts are the two last-write-wins
equations `row?_replace_self` and `row?_replace_of_ne`, with `row?_foldl_replace` for a run of
writes, and `mem_iff_row?`, by which membership and reading are the same thing.
-/

namespace RewardsDriver

universe u v w

/-- A list of rows no two of which have the same key. -/
@[ext]
structure UniqueTable {ρ : Type u} {κ : Type v} (key : ρ → κ) where
  rows : List ρ
  nodup : (rows.map key).Nodup

namespace UniqueTable

variable {ρ : Type u} {κ : Type v} {key : ρ → κ}

instance [DecidableEq ρ] : DecidableEq (UniqueTable key) := fun t t' =>
  decidable_of_iff (t.rows = t'.rows) UniqueTable.ext_iff.symm

instance : Membership ρ (UniqueTable key) := ⟨fun t r => r ∈ t.rows⟩

instance [DecidableEq ρ] (r : ρ) (t : UniqueTable key) : Decidable (r ∈ t) :=
  inferInstanceAs (Decidable (r ∈ t.rows))

lemma mem_def {r : ρ} {t : UniqueTable key} : r ∈ t ↔ r ∈ t.rows := Iff.rfl

/-- The table without rows. -/
def empty : UniqueTable key := ⟨[], by simp⟩

/-- Rows of one key in one table are equal. -/
lemma eq_of_key_eq {t : UniqueTable key} {r r' : ρ} (h : r ∈ t) (h' : r' ∈ t)
    (hk : key r = key r') : r = r' :=
  List.inj_on_of_nodup_map t.nodup h h' hk

variable [DecidableEq κ]

/-- The row of a key. -/
def row? (t : UniqueTable key) (k : κ) : Option ρ := t.rows.find? fun r => key r = k

/-- Removing the row of a key. -/
def erase (t : UniqueTable key) (k : κ) : UniqueTable key where
  rows := t.rows.filter fun r => key r ≠ k
  nodup := t.nodup.sublist (List.filter_sublist.map key)

/-- Writing a row over the row of its key. -/
def replace (t : UniqueTable key) (r : ρ) : UniqueTable key where
  rows := (t.erase (key r)).rows ++ [r]
  nodup := by
    have hk : key r ∉ (t.erase (key r)).rows.map key := by simp [erase]
    rw [List.map_append, List.nodup_append]
    refine ⟨(t.erase (key r)).nodup, by simp, fun a ha b hb hab => ?_⟩
    rw [List.map_singleton, List.mem_singleton] at hb
    rw [hab, hb] at ha
    exact hk ha

lemma mem_erase {t : UniqueTable key} {k : κ} {r : ρ} : r ∈ t.erase k ↔ r ∈ t ∧ key r ≠ k := by
  simp [mem_def, erase]

lemma mem_replace {t : UniqueTable key} {r r' : ρ} :
    r' ∈ t.replace r ↔ (r' ∈ t ∧ key r' ≠ key r) ∨ r' = r := by
  rw [mem_def, replace, List.mem_append, List.mem_singleton, ← mem_def, mem_erase]

lemma mem_replace_self (t : UniqueTable key) (r : ρ) : r ∈ t.replace r :=
  mem_replace.mpr (.inr rfl)

/-- A write leaves the rows as they were exactly if the row was there. -/
lemma mem_replace_iff_mem {t : UniqueTable key} {r : ρ} :
    (∀ r', r' ∈ t.replace r ↔ r' ∈ t) ↔ r ∈ t := by
  constructor
  · intro h
    exact (h r).mp (mem_replace_self t r)
  · intro h r'
    rw [mem_replace]
    constructor
    · rintro (⟨h', -⟩ | rfl)
      · exact h'
      · exact h
    · intro h'
      by_cases hk : key r' = key r
      · exact .inr (eq_of_key_eq h' h hk)
      · exact .inl ⟨h', hk⟩

/-- Reading a key gives the row of the table that has it. -/
lemma mem_iff_row? {t : UniqueTable key} {r : ρ} : r ∈ t ↔ t.row? (key r) = some r := by
  constructor
  · intro h
    obtain ⟨r', hr'⟩ : ∃ r', t.row? (key r) = some r' := by
      rw [← Option.isSome_iff_exists, row?, List.find?_isSome]
      exact ⟨r, h, by simp⟩
    have hmem : r' ∈ t := List.mem_of_find?_eq_some hr'
    have hkey : key r' = key r := by simpa using List.find?_some hr'
    rw [hr', eq_of_key_eq hmem h hkey]
  · exact fun h => List.mem_of_find?_eq_some h

lemma row?_eq_some {t : UniqueTable key} {k : κ} {r : ρ} :
    t.row? k = some r ↔ r ∈ t ∧ key r = k := by
  constructor
  · intro h
    exact ⟨List.mem_of_find?_eq_some h, by simpa using List.find?_some h⟩
  · rintro ⟨h, rfl⟩
    exact mem_iff_row?.mp h

/-- What is made of the row of a key is not kept if nothing of that key is. -/
lemma filter_map_row? {γ : Type w} {t : UniqueTable key} {k : κ} {f : ρ → γ} {p : γ → Bool}
    (h : ∀ r, key r = k → p (f r) = false) : ((t.row? k).map f).filter p = none := by
  cases hr : t.row? k with
  | none => rfl
  | some r =>
      rw [Option.map_some, Option.filter_some, h r (row?_eq_some.mp hr).2]
      rfl

/-- **Last write wins**: the key just written reads the row written. -/
@[simp] lemma row?_replace_self (t : UniqueTable key) (r : ρ) :
    (t.replace r).row? (key r) = some r :=
  mem_iff_row?.mp (mem_replace_self t r)

/-- A write leaves every other key's row as it was. -/
lemma row?_replace_of_ne {t : UniqueTable key} {r : ρ} {k : κ} (h : k ≠ key r) :
    (t.replace r).row? k = t.row? k := by
  ext r'
  rw [row?_eq_some, row?_eq_some, mem_replace]
  constructor
  · rintro ⟨⟨hmem, _⟩ | rfl, hk⟩
    · exact ⟨hmem, hk⟩
    · exact absurd hk.symm h
  · rintro ⟨hmem, hk⟩
    exact ⟨.inl ⟨hmem, hk ▸ h⟩, hk⟩

/-- What a key reads after a write. -/
lemma row?_replace (t : UniqueTable key) (r : ρ) (k : κ) :
    (t.replace r).row? k = (if key r = k then some (some r) else none).getD (t.row? k) := by
  by_cases hk : key r = k
  · subst hk
    simp
  · simp [hk, row?_replace_of_ne (Ne.symm hk)]

/-- **Last write wins, over a run**: after a list of writes a key reads the last row written for
it, or what it read before if there is none. -/
theorem row?_foldl_replace (t : UniqueTable key) (rs : List ρ) (k : κ) :
    (rs.foldl replace t).row? k = ((rs.filter fun r => key r = k).getLast?).or (t.row? k) := by
  induction rs using List.reverseRecOn with
  | nil => simp
  | append_singleton rs r ih =>
      rw [List.foldl_append, List.foldl_cons, List.foldl_nil, List.filter_append]
      by_cases hk : key r = k
      · subst hk
        simp
      · rw [row?_replace_of_ne (Ne.symm hk), ih]
        simp [hk]

/-- A table read at a key holds at most one row of the key. -/
lemma filter_key_eq (t : UniqueTable key) (k : κ) :
    t.rows.filter (fun r => key r = k) = (t.row? k).toList := by
  rw [row?]
  obtain ⟨rows, hnodup⟩ := t
  induction rows with
  | nil => simp
  | cons r rs ih =>
      rw [List.map_cons, List.nodup_cons] at hnodup
      by_cases h : key r = k
      · have hnone : rs.filter (fun r => key r = k) = [] := by
          rw [List.filter_eq_nil_iff]
          intro r' hr' hk
          exact hnodup.1 (List.mem_map.mpr ⟨r', hr', by simpa [h] using hk⟩)
        simp [h, hnone]
      · simpa [h] using ih hnodup.2

end UniqueTable

end RewardsDriver
