import Mathlib.Data.List.Sort
import Mathlib.Order.RelClasses

/-!
Maps as lists in the order of their keys.

A `SortedMap` carries the order of its keys as a field, so that no key is there twice. Unlike a
table with unique keys it has only one form: a map is known by what is under each key.

* `SortedMap.get?`, `SortedMap.insert`: reading and writing a key.
* `get?_insert`: **a write** is read under its key, and no other key is touched.
* `mem_entries_iff`: membership and reading are the same thing.
* `ext_get?`: **maps that read alike** are the same list.
-/

namespace RewardsDriver

universe u v

/-- A list of entries in the order of their keys. -/
@[ext]
structure SortedMap (α : Type u) (β : Type v) [LT α] where
  entries : List (α × β)
  sorted : entries.Pairwise fun e f => e.1 < f.1

/-- The entries with one more, over the entry of its key. -/
def insertEntry {α : Type u} {β : Type v} [LT α] [DecidableLT α] [DecidableEq α] (k : α) (v : β) :
    List (α × β) → List (α × β)
  | [] => [(k, v)]
  | e :: es =>
      if e.1 < k then e :: insertEntry k v es
      else if e.1 = k then (k, v) :: es
      else (k, v) :: e :: es

namespace SortedMap

variable {α : Type u} {β : Type v} [LT α] [IsStrictTotalOrder α (· < ·)]

/-- What is not below and not equal is above. -/
lemma lt_of_not_lt {a b : α} (hlt : ¬ a < b) (hne : a ≠ b) : b < a :=
  ((trichotomous_of (· < ·) a b).resolve_left hlt).resolve_left hne

/-- The map without entries. -/
def empty : SortedMap α β := ⟨[], List.Pairwise.nil⟩

lemma nodup_keys (m : SortedMap α β) : (m.entries.map Prod.fst).Nodup := by
  refine List.pairwise_map.mpr (m.sorted.imp ?_)
  intro e f hlt
  exact ne_of_irrefl hlt

/-- Entries of one key are equal. -/
lemma eq_of_key_eq {m : SortedMap α β} {e f : α × β} (he : e ∈ m.entries) (hf : f ∈ m.entries)
    (hkey : e.1 = f.1) : e = f :=
  List.inj_on_of_nodup_map m.nodup_keys he hf hkey

section Reading

variable [DecidableEq α]

/-- What is under a key. -/
def get? (m : SortedMap α β) (k : α) : Option β :=
  (m.entries.find? fun e => e.1 = k).map Prod.snd

omit [IsStrictTotalOrder α (· < ·)] in
@[simp] lemma get?_empty (k : α) : (empty : SortedMap α β).get? k = none := rfl

/-- **Membership and reading** are the same thing. -/
lemma mem_entries_iff {m : SortedMap α β} {e : α × β} :
    e ∈ m.entries ↔ m.get? e.1 = some e.2 := by
  rw [get?, Option.map_eq_some_iff]
  constructor
  · intro he
    cases hfind : m.entries.find? fun f => f.1 = e.1 with
    | none =>
        have hnone := List.find?_eq_none.mp hfind e he
        simp at hnone
    | some f =>
        have hkey : f.1 = e.1 := by simpa using List.find?_some hfind
        have hfe : f = e := eq_of_key_eq (List.mem_of_find?_eq_some hfind) he hkey
        exact ⟨f, rfl, by rw [hfe]⟩
  · rintro ⟨f, hfind, hvalue⟩
    have hkey : f.1 = e.1 := by simpa using List.find?_some hfind
    have hfe : f = e := Prod.ext hkey hvalue
    exact hfe ▸ List.mem_of_find?_eq_some hfind

/-- **Maps that read alike** are the same. -/
theorem ext_get? {m m' : SortedMap α β} (h : ∀ k, m.get? k = m'.get? k) : m = m' := by
  have hperm : m.entries.Perm m'.entries :=
    (List.perm_ext_iff_of_nodup m.nodup_keys.of_map m'.nodup_keys.of_map).mpr
      fun e => by rw [mem_entries_iff, mem_entries_iff, h]
  refine SortedMap.ext (List.Perm.eq_of_pairwise (fun e f he hf hef hfe => ?_) m.sorted m'.sorted
    hperm)
  exact absurd (IsTrans.trans _ _ _ hef hfe) (irrefl _)

end Reading

section Writing

variable [DecidableLT α] [DecidableEq α]

/-- An entry of the result is the new one or an old one under another key. -/
lemma mem_insertEntry {k : α} {v : β} {es : List (α × β)} {e : α × β}
    (hes : es.Pairwise fun e f => e.1 < f.1) :
    e ∈ insertEntry k v es ↔ e = (k, v) ∨ (e.1 ≠ k ∧ e ∈ es) := by
  induction es with
  | nil => simp [insertEntry]
  | cons f es ih =>
      obtain ⟨hf, hrest⟩ := List.pairwise_cons.mp hes
      rw [insertEntry]
      split_ifs with hlt heq
      · rw [List.mem_cons, ih hrest, List.mem_cons]
        constructor
        · rintro (rfl | rfl | ⟨hne, hmem⟩)
          · exact .inr ⟨ne_of_irrefl hlt, .inl rfl⟩
          · exact .inl rfl
          · exact .inr ⟨hne, .inr hmem⟩
        · rintro (rfl | ⟨hne, rfl | hmem⟩)
          · exact .inr (.inl rfl)
          · exact .inl rfl
          · exact .inr (.inr ⟨hne, hmem⟩)
      · have hne : ∀ e ∈ es, e.1 ≠ k := fun e he => heq ▸ ne_of_irrefl' (hf e he)
        rw [List.mem_cons, List.mem_cons]
        constructor
        · rintro (rfl | hmem)
          · exact .inl rfl
          · exact .inr ⟨hne e hmem, .inr hmem⟩
        · rintro (rfl | ⟨hek, rfl | hmem⟩)
          · exact .inl rfl
          · exact absurd heq hek
          · exact .inr hmem
      · have hkf : k < f.1 := lt_of_not_lt hlt heq
        have hne : ∀ e ∈ f :: es, e.1 ≠ k := by
          intro e he
          obtain rfl | he := List.mem_cons.mp he
          · exact ne_of_irrefl' hkf
          · exact ne_of_irrefl' (IsTrans.trans _ _ _ hkf (hf e he))
        rw [List.mem_cons]
        constructor
        · rintro (rfl | hmem)
          · exact .inl rfl
          · exact .inr ⟨hne e hmem, hmem⟩
        · rintro (rfl | ⟨-, hmem⟩)
          · exact .inl rfl
          · exact .inr hmem

lemma sorted_insertEntry (k : α) (v : β) {es : List (α × β)}
    (hes : es.Pairwise fun e f => e.1 < f.1) :
    (insertEntry k v es).Pairwise fun e f => e.1 < f.1 := by
  induction es with
  | nil => exact List.pairwise_singleton _ _
  | cons f es ih =>
      obtain ⟨hf, hrest⟩ := List.pairwise_cons.mp hes
      rw [insertEntry]
      split_ifs with hlt heq
      · refine List.pairwise_cons.mpr ⟨fun e he => ?_, ih hrest⟩
        obtain rfl | ⟨-, he⟩ := (mem_insertEntry hrest).mp he
        · exact hlt
        · exact hf e he
      · exact List.pairwise_cons.mpr ⟨fun e he => heq ▸ hf e he, hrest⟩
      · have hkf : k < f.1 := lt_of_not_lt hlt heq
        refine List.pairwise_cons.mpr ⟨fun e he => ?_, hes⟩
        obtain rfl | he := List.mem_cons.mp he
        · exact hkf
        · exact IsTrans.trans _ _ _ hkf (hf e he)

/-- Writing a key. -/
def insert (m : SortedMap α β) (k : α) (v : β) : SortedMap α β :=
  ⟨insertEntry k v m.entries, sorted_insertEntry k v m.sorted⟩

/-- **A write** is read under its key, and no other key is touched. -/
@[simp] theorem get?_insert (m : SortedMap α β) (k j : α) (v : β) :
    (m.insert k v).get? j = if j = k then some v else m.get? j := by
  have hmem : ∀ w, (m.insert k v).get? j = some w ↔ (j, w) = (k, v) ∨ (j ≠ k ∧ m.get? j = some w) :=
    fun w => calc
      (m.insert k v).get? j = some w ↔ (j, w) ∈ insertEntry k v m.entries :=
        (mem_entries_iff (m := m.insert k v) (e := (j, w))).symm
      _ ↔ (j, w) = (k, v) ∨ (j ≠ k ∧ (j, w) ∈ m.entries) := mem_insertEntry m.sorted
      _ ↔ (j, w) = (k, v) ∨ (j ≠ k ∧ m.get? j = some w) := by rw [mem_entries_iff]
  refine Option.ext fun w => ?_
  rw [hmem w]
  split_ifs with hjk
  · simp [hjk, eq_comm]
  · simp [hjk]

end Writing

end SortedMap

end RewardsDriver
