import Mathlib.Data.List.TakeWhile

/-!
Splitting a list at separators.

`SplitsRuns p` is about functions that split at the runs of elements with `p`, which count as one
separator each, and `SplitsPairs x y` about those that split at the pairs `x, y`, from left to
right.

* `SplitsRuns`, `SplitsRuns.head?`: the pieces, from left to right, and the first one.
* `SplitsPairs`, `SplitsPairs.flatMap`: likewise, and pieces that are all ended by a pair.
* `SplitsPairs.intercalate`: **splitting what has been joined** gives the pieces back.
* `splitRuns`, `splitPair`: functions that do.
-/

namespace RewardsDriver

variable {α : Type*}

/-! ### Splitting at runs -/

/-- The function splits at the runs of elements with `p`, empty pieces at the ends included. -/
structure SplitsRuns (p : α → Bool) (split : List α → List (List α)) : Prop where
  /-- A list without separators is one piece. -/
  of_forall : ∀ {l}, (∀ a ∈ l, p a = false) → split l = [l]
  /-- The first piece ends where the first run begins. -/
  append_cons : ∀ {s a}, (∀ b ∈ s, p b = false) → p a = true → ∀ l,
    split (s ++ a :: l) = s :: split (l.dropWhile p)

/-- The first piece. -/
lemma SplitsRuns.head? {p : α → Bool} {split : List α → List (List α)} (h : SplitsRuns p split)
    (l : List α) : (split l).head? = some (l.takeWhile fun a => !p a) := by
  have hfirst : ∀ a ∈ l.takeWhile fun a => !p a, p a = false := fun a ha => by
    simpa using List.mem_takeWhile_imp ha
  cases hrest : l.dropWhile fun a => !p a with
  | nil =>
      have hl : (l.takeWhile fun a => !p a) = l := by
        rw [← List.append_nil (l.takeWhile _), ← hrest, List.takeWhile_append_dropWhile]
      rw [hl] at hfirst ⊢
      rw [h.of_forall hfirst]
      rfl
  | cons a rest =>
      have hne : (l.dropWhile fun a => !p a) ≠ [] := by simp [hrest]
      have ha : p a = true := by
        simpa [hrest] using List.head_dropWhile_not (fun a => !p a) hne
      have hl : (l.takeWhile fun a => !p a) ++ a :: rest = l := by
        rw [← hrest, List.takeWhile_append_dropWhile]
      have hsplit := h.append_cons hfirst ha rest
      rw [hl] at hsplit
      rw [hsplit, List.head?_cons]

/-- Putting an element before the first piece. -/
def consHead (a : α) : List (List α) → List (List α)
  | [] => [[a]]
  | s :: ss => (a :: s) :: ss

/-- The pieces between the runs of elements with `p`, empty ones at the ends included. -/
def splitRuns (p : α → Bool) : List α → List (List α)
  | [] => [[]]
  | a :: l =>
      if p a then
        if l.head?.any p then splitRuns p l else [] :: splitRuns p l
      else consHead a (splitRuns p l)

/-- A list without separators is one piece. -/
lemma splitRuns_of_forall {p : α → Bool} {l : List α} (h : ∀ a ∈ l, p a = false) :
    splitRuns p l = [l] := by
  induction l with
  | nil => rfl
  | cons a l ih =>
      rw [splitRuns, if_neg (by simp [h a]), ih fun b hb => h b (List.mem_cons_of_mem a hb)]
      rfl

/-- At the beginning of a run. -/
lemma splitRuns_cons {p : α → Bool} {a : α} (ha : p a = true) (l : List α) :
    splitRuns p (a :: l) = [] :: splitRuns p (l.dropWhile p) := by
  induction l generalizing a with
  | nil => rw [splitRuns, if_pos ha, List.dropWhile_nil]; rfl
  | cons b l ih =>
      rw [splitRuns, if_pos ha]
      cases hb : p b with
      | true =>
          rw [if_pos (by simpa using hb), ih hb, List.dropWhile_cons_of_pos hb]
      | false =>
          rw [if_neg (by simpa using hb), List.dropWhile_cons_of_neg (by simp [hb])]

/-- The first piece ends where the first run begins. -/
lemma splitRuns_append_cons {p : α → Bool} {s : List α} {a : α} (hs : ∀ b ∈ s, p b = false)
    (ha : p a = true) (l : List α) :
    splitRuns p (s ++ a :: l) = s :: splitRuns p (l.dropWhile p) := by
  induction s with
  | nil => exact splitRuns_cons ha l
  | cons b s ih =>
      rw [List.cons_append, splitRuns, if_neg (by simp [hs b]),
        ih fun c hc => hs c (List.mem_cons_of_mem b hc)]
      rfl

theorem splitsRuns_splitRuns (p : α → Bool) : SplitsRuns p (splitRuns p) :=
  ⟨splitRuns_of_forall, fun hs ha l => splitRuns_append_cons hs ha l⟩

/-! ### Splitting at pairs -/

/-- The list nowhere has `x` before `y`. -/
def PairFree (x y : α) (l : List α) : Prop := ¬ [x, y] <:+: l

lemma PairFree.tail {x y a : α} {l : List α} (h : PairFree x y (a :: l)) : PairFree x y l :=
  fun hl => h (hl.trans (List.suffix_cons a l).isInfix)

lemma PairFree.not_pair {x y a b : α} {l : List α} (h : PairFree x y (a :: b :: l)) :
    ¬ (a = x ∧ b = y) := by
  rintro ⟨rfl, rfl⟩
  exact h ⟨[], l, rfl⟩

/-- A list without the first of the two. -/
lemma pairFree_of_notMem {x y : α} {l : List α} (h : x ∉ l) : PairFree x y l :=
  fun hl => h (hl.subset (by simp))

/-- The function splits at the pairs `x, y`. -/
structure SplitsPairs (x y : α) (split : List α → List (List α)) : Prop where
  /-- A list without pairs is one piece. -/
  of_pairFree : ∀ {l}, PairFree x y l → split l = [l]
  /-- The first piece ends where the first pair begins. -/
  append : ∀ {s}, PairFree x y s → ∀ l, split (s ++ x :: y :: l) = s :: split l

/-- Pieces that are all ended by a pair, before a last piece. -/
lemma SplitsPairs.flatMap {x y : α} {split : List α → List (List α)} (h : SplitsPairs x y split)
    {ss : List (List α)} (hss : ∀ s ∈ ss, PairFree x y s) (l : List α) :
    split ((ss.flatMap fun s => s ++ [x, y]) ++ l) = ss ++ split l := by
  induction ss with
  | nil => rfl
  | cons s ss ih =>
      have hs : PairFree x y s := hss s (by simp)
      rw [List.flatMap_cons, List.append_assoc, List.append_assoc, List.cons_append,
        List.cons_append, List.nil_append, h.append hs,
        ih fun t ht => hss t (List.mem_cons_of_mem s ht), List.cons_append]

/-- **Splitting what has been joined** gives the pieces back, also those that end in `x` or begin
with `y`. -/
lemma SplitsPairs.intercalate {x y : α} {split : List α → List (List α)}
    (h : SplitsPairs x y split) {ss : List (List α)} (hne : ss ≠ [])
    (hss : ∀ s ∈ ss, PairFree x y s) : split ([x, y].intercalate ss) = ss := by
  induction ss with
  | nil => exact absurd rfl hne
  | cons s ss ih =>
      have hs : PairFree x y s := hss s (by simp)
      cases ss with
      | nil => simpa using h.of_pairFree hs
      | cons t ss =>
          have hrest := ih (by simp) fun u hu => hss u (List.mem_cons_of_mem s hu)
          rw [List.intercalate_cons_cons, List.append_assoc, List.cons_append, List.cons_append,
            List.nil_append, h.append hs, hrest]

variable [DecidableEq α]

instance (x y : α) (l : List α) : Decidable (PairFree x y l) :=
  inferInstanceAs (Decidable (¬ _))

/-- The pieces between the pairs `x, y`. -/
def splitPair (x y : α) : List α → List (List α)
  | [] => [[]]
  | [a] => [[a]]
  | a :: b :: l =>
      if a = x ∧ b = y then [] :: splitPair x y l else consHead a (splitPair x y (b :: l))

/-- A list without pairs is one piece. -/
lemma splitPair_of_pairFree {x y : α} {l : List α} (h : PairFree x y l) :
    splitPair x y l = [l] := by
  induction l with
  | nil => rfl
  | cons a l ih =>
      cases l with
      | nil => rfl
      | cons b l => rw [splitPair, if_neg h.not_pair, ih h.tail]; rfl

/-- The first piece ends where the first pair begins. -/
lemma splitPair_append {x y : α} (hxy : x ≠ y) {s : List α} (hs : PairFree x y s) (l : List α) :
    splitPair x y (s ++ x :: y :: l) = s :: splitPair x y l := by
  induction s with
  | nil => rw [List.nil_append, splitPair, if_pos ⟨rfl, rfl⟩]
  | cons a s ih =>
      cases s with
      | nil =>
          have hx : splitPair x y (x :: y :: l) = [] :: splitPair x y l := by
            rw [splitPair, if_pos ⟨rfl, rfl⟩]
          rw [List.cons_append, List.nil_append, splitPair, if_neg fun h => hxy h.2, hx]
          rfl
      | cons b s =>
          rw [List.cons_append, List.cons_append, splitPair, if_neg hs.not_pair,
            ← List.cons_append, ih hs.tail]
          rfl

theorem splitsPairs_splitPair {x y : α} (hxy : x ≠ y) : SplitsPairs x y (splitPair x y) :=
  ⟨splitPair_of_pairFree, fun hs l => splitPair_append hxy hs l⟩

end RewardsDriver
