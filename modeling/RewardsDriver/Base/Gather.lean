import Mathlib.Data.List.Basic
import Mathlib.Logic.Function.Basic

/-!
Gathering pairs of a key and a value into a map.

The first value of a key is inserted; every later one is joined to what is there.

* `gather`, `valuesAt`: the map, and the values of a key in their order.
* `gather_apply`: **the map at a key** depends on what was there and on the values of the key.
* `gather_append_eq_iff`: where joining makes values larger, nothing is gathered unseen.
-/

namespace RewardsDriver

variable {κ ν : Type*} [DecidableEq κ] (join : ν → ν → ν)

/-- A value joined to what is there. -/
def joinTo : Option ν → ν → ν
  | none, v => v
  | some w, v => join w v

/-- Inserting a value, or joining it to the one that is there. -/
def put (m : κ → Option ν) (e : κ × ν) : κ → Option ν :=
  Function.update m e.1 (some (joinTo join (m e.1) e.2))

/-- Gathering pairs into a map, in their order. -/
def gather (m : κ → Option ν) (es : List (κ × ν)) : κ → Option ν := es.foldl (put join) m

/-- The values of a key. -/
def valuesAt (es : List (κ × ν)) (k : κ) : List ν :=
  es.filterMap fun e => if e.1 = k then some e.2 else none

/-- Values joined one after the other to what is there. -/
def joinAll (o : Option ν) (vs : List ν) : Option ν :=
  vs.foldl (fun o v => some (joinTo join o v)) o

variable {join}

@[simp] lemma joinAll_nil (o : Option ν) : joinAll join o [] = o := rfl

lemma joinAll_some (w : ν) (vs : List ν) : joinAll join (some w) vs = some (vs.foldl join w) := by
  induction vs generalizing w with
  | nil => rfl
  | cons v vs ih => exact ih (join w v)

lemma joinAll_none_cons (v : ν) (vs : List ν) :
    joinAll join none (v :: vs) = some (vs.foldl join v) := joinAll_some v vs

lemma joinAll_append (o : Option ν) (vs vs' : List ν) :
    joinAll join o (vs ++ vs') = joinAll join (joinAll join o vs) vs' := List.foldl_append

/-- Where there are values there is something. -/
lemma exists_joinAll {vs : List ν} (h : vs ≠ []) (o : Option ν) :
    ∃ w, joinAll join o vs = some w := by
  obtain ⟨v, vs, rfl⟩ := List.exists_cons_of_ne_nil h
  exact ⟨_, joinAll_some (joinTo join o v) vs⟩

lemma valuesAt_append (es fs : List (κ × ν)) (k : κ) :
    valuesAt (es ++ fs) k = valuesAt es k ++ valuesAt fs k := List.filterMap_append

lemma mem_valuesAt {es : List (κ × ν)} {k : κ} {v : ν} : v ∈ valuesAt es k ↔ (k, v) ∈ es := by
  simp [valuesAt]

/-- **The map at a key**: the values of the key joined to what was there. -/
theorem gather_apply (m : κ → Option ν) (es : List (κ × ν)) (k : κ) :
    gather join m es k = joinAll join (m k) (valuesAt es k) := by
  induction es generalizing m with
  | nil => rfl
  | cons e es ih =>
      obtain ⟨k', v⟩ := e
      have hput : gather join m ((k', v) :: es) = gather join (put join m (k', v)) es := rfl
      rw [hput, ih]
      by_cases hk : k' = k
      · subst hk
        simp [put, valuesAt, joinAll]
      · simp [put, valuesAt, hk, Function.update_of_ne (Ne.symm hk)]

/-! ### Joining that makes values larger -/

section Grows

variable (size : ν → ℕ)

/-- The larger start has the larger end. -/
lemma size_foldl_lt (hmono : ∀ w w' v, size w < size w' → size (join w v) < size (join w' v))
    {w w' : ν} (h : size w < size w') (vs : List ν) :
    size (vs.foldl join w) < size (vs.foldl join w') := by
  induction vs generalizing w w' with
  | nil => exact h
  | cons v vs ih => exact ih (hmono w w' v h)

/-- What has been gathered before shows at its key. -/
theorem gather_append_eq_iff (hgrows : ∀ w v, size v < size (join w v))
    (hmono : ∀ w w' v, size w < size w' → size (join w v) < size (join w' v))
    (es fs : List (κ × ν)) :
    gather join (fun _ => none) (es ++ fs) = gather join (fun _ => none) fs ↔ es = [] := by
  refine ⟨fun h => ?_, fun h => by rw [h, List.nil_append]⟩
  by_contra hne
  obtain ⟨⟨k, v⟩, es', rfl⟩ := List.exists_cons_of_ne_nil hne
  have hk := congrFun h k
  have hvalues : valuesAt ((k, v) :: es') k ≠ [] :=
    List.ne_nil_of_mem (mem_valuesAt.mpr List.mem_cons_self)
  obtain ⟨w, hw⟩ : ∃ w, joinAll join none (valuesAt ((k, v) :: es') k) = some w :=
    exists_joinAll hvalues none
  rw [gather_apply, gather_apply, valuesAt_append, joinAll_append, hw] at hk
  cases hfs : valuesAt fs k with
  | nil => simp [hfs] at hk
  | cons u us =>
      rw [hfs, joinAll_none_cons, joinAll_some, Option.some.injEq] at hk
      have hlt : size (us.foldl join u) < size (us.foldl join (join w u)) :=
        size_foldl_lt size hmono (hgrows w u) us
      rw [List.foldl_cons] at hk
      exact absurd (congrArg size hk) (Nat.ne_of_gt hlt)

end Grows

end RewardsDriver
