import RewardsDriver.Backend.Search

/-!
Does `PublisherInfoBackend::Search` find the entries whose key begins with a prefix?

`Seek` goes by key, and the jump past the end at the first mismatch is right for keys, which are
in order; but the test is made on the value.

* `keyRange`, `SearchesByKey`: what a search by key prefix appends.
* `ValuesFollowKeys`, `valueRun_eq_keyRange_iff`: for one prefix the run that is read is the
  range of its keys exactly when every key in the range has a value that begins with the prefix
  as well, and the entry right behind the range has not.
* `FollowWithin`, `searchesByKey_of_followWithin`: **when a search is by key**, the same at every
  entry that its window makes it look at.
* `searchesByKey_singleton_iff`: for a single prefix, by counting.
* `prefix_not_searched`: an entry under its key `a1` is not found by the prefix `a`.
-/

namespace RewardsDriver.Backend

/-- The values of the entries whose key begins with the slice, in key order. -/
def keyRange (db : DB) (slice : Bytes) : List Bytes :=
  (db.entries.filter fun e => startsWith e.1 slice).map Prod.snd

/-- The call appends the entries at the positions of the window in the key ranges of its
prefixes, one range after the other. -/
def SearchesByKey (db : DB) (prefixes : List Bytes) (start limit : UInt32) : Prop :=
  Appends (fun fuel disk b => b.search fuel disk prefixes start limit) db
    (((prefixes.flatMap (keyRange db)).drop start.toNat).take limit.toNat)

/-- The entry right behind the keys that begin with the slice. -/
def behindRange (db : DB) (slice : Bytes) : Option (Bytes × Bytes) :=
  ((db.entries.dropWhile fun e => e.1 < slice).dropWhile fun e => startsWith e.1 slice).head?

/-- The values tell where the keys that begin with the slice end. -/
def ValuesFollowKeys (db : DB) (slice : Bytes) : Prop :=
  (∀ e ∈ db.entries, startsWith e.1 slice = true → startsWith e.2 slice = true) ∧
    ∀ e ∈ behindRange db slice, startsWith e.2 slice = false

instance (db : DB) (slice : Bytes) : Decidable (ValuesFollowKeys db slice) :=
  inferInstanceAs (Decidable (_ ∧ _))

/-- The keys that begin with a slice are in one run from the place that `Seek` finds. -/
lemma filter_startsWith (db : DB) (slice : Bytes) :
    (db.entries.filter fun e => startsWith e.1 slice) =
      (db.entries.dropWhile fun e => e.1 < slice).takeWhile fun e => startsWith e.1 slice :=
  filter_prefix_eq db.sorted slice

/-- **For one prefix** the run that is read is the range of its keys exactly when the values
follow the keys. -/
theorem valueRun_eq_keyRange_iff (db : DB) (slice : Bytes) :
    valueRun db slice = keyRange db slice ↔ ValuesFollowKeys db slice := by
  have hrange : (∀ e ∈ (db.entries.dropWhile fun e => e.1 < slice).takeWhile
      fun e => startsWith e.1 slice, startsWith e.2 slice = true) ↔
      ∀ e ∈ db.entries, startsWith e.1 slice = true → startsWith e.2 slice = true := by
    rw [← filter_startsWith]
    simp only [List.mem_filter, and_imp]
  rw [eq_comm, keyRange, filter_startsWith, valueRun, runValues, map_takeWhile_eq_iff, hrange]
  rfl

/-- The entry `x` under the key `a1`. -/
def oneEntry : DB := .ofEntries [([97, 49], [120])] (by simp)

example : ¬ ValuesFollowKeys oneEntry [97] := by decide

lemma searchesByKey_iff_window (db : DB) (prefixes : List Bytes) (start limit : UInt32) :
    SearchesByKey db prefixes start limit ↔
      window start limit (prefixes.flatMap (valueRun db)) =
        ((prefixes.flatMap (keyRange db)).drop start.toNat).take limit.toNat := by
  constructor
  · exact fun h => (search_appends db prefixes start limit).unique h
  · intro h
    rw [SearchesByKey, ← h]
    exact search_appends db prefixes start limit

/-- Where the values follow the keys of every prefix, a search within the first `2^32` entries is
by key. -/
lemma searchesByKey_of_valuesFollowKeys {db : DB} {prefixes : List Bytes} {start limit : UInt32}
    (hfollow : ∀ slice ∈ prefixes, ValuesFollowKeys db slice)
    (hwindow : start.toNat + limit.toNat ≤ 2 ^ 32) : SearchesByKey db prefixes start limit := by
  have hruns : prefixes.flatMap (valueRun db) = prefixes.flatMap (keyRange db) :=
    List.flatMap_congr fun slice hs => (valueRun_eq_keyRange_iff db slice).mpr (hfollow slice hs)
  rw [searchesByKey_iff_window, window, hruns, take_sieve _ _ hwindow]

/-! ### As far as a window goes -/

/-- The values tell where the keys end, as far as a search for the first `n` values of the key
ranges has to look: at those entries, and at the one right behind a range that ends before. -/
def FollowWithin (db : DB) : ℕ → List Bytes → Prop
  | _, [] => True
  | n, slice :: prefixes =>
      (∀ e ∈ (db.entries.filter fun e => startsWith e.1 slice).take n,
        startsWith e.2 slice = true) ∧
      ((keyRange db slice).length < n → ∀ e ∈ behindRange db slice, startsWith e.2 slice = false) ∧
      FollowWithin db (n - (keyRange db slice).length) prefixes

instance decidableFollowWithin (db : DB) : ∀ n prefixes, Decidable (FollowWithin db n prefixes)
  | _, [] => isTrue trivial
  | n, slice :: prefixes =>
      have : Decidable (FollowWithin db (n - (keyRange db slice).length) prefixes) :=
        decidableFollowWithin db _ prefixes
      inferInstanceAs
        (Decidable (_ ∧ _ ∧ FollowWithin db (n - (keyRange db slice).length) prefixes))

/-- **One prefix**: the first values of the run are those of the key range. -/
lemma take_valueRun {db : DB} {slice : Bytes} {n : ℕ}
    (hin : ∀ e ∈ (db.entries.filter fun e => startsWith e.1 slice).take n,
      startsWith e.2 slice = true)
    (hbehind : (keyRange db slice).length < n →
      ∀ e ∈ behindRange db slice, startsWith e.2 slice = false) :
    (valueRun db slice).take n = (keyRange db slice).take n := by
  rw [filter_startsWith] at hin
  rw [keyRange, filter_startsWith, List.length_map] at hbehind
  rw [keyRange, filter_startsWith, valueRun, runValues, ← List.map_take, ← List.map_take,
    take_takeWhile_eq hin hbehind]

/-- **All prefixes**: what a prefix leaves of the `n` values goes to the next. -/
lemma take_runs {db : DB} {n : ℕ} {prefixes : List Bytes} (h : FollowWithin db n prefixes) :
    (prefixes.flatMap (valueRun db)).take n = (prefixes.flatMap (keyRange db)).take n := by
  induction prefixes generalizing n with
  | nil => rfl
  | cons slice prefixes ih =>
      obtain ⟨hin, hbehind, hrest⟩ := h
      have hone := take_valueRun hin hbehind
      rw [List.flatMap_cons, List.flatMap_cons, List.take_append, List.take_append, hone]
      congr 1
      by_cases hlt : (keyRange db slice).length < n
      · rw [eq_of_take_eq hone hlt, ih hrest]
      · have hlength := congrArg List.length hone
        rw [List.length_take, List.length_take] at hlength
        have hrun : n - (valueRun db slice).length = 0 := by omega
        have hrange : n - (keyRange db slice).length = 0 := by omega
        rw [hrun, hrange, List.take_zero, List.take_zero]

/-- **When a search is by key**: where the values tell where the keys end, at every entry that a
search by key would have to look at, and the counter of the positions does not wrap. -/
theorem searchesByKey_of_followWithin {db : DB} {prefixes : List Bytes} {start limit : UInt32}
    (h : limit = 0 ∨ FollowWithin db (start.toNat + limit.toNat) prefixes ∧
      (start.toNat + limit.toNat ≤ 2 ^ 32 ∨
        (prefixes.flatMap (keyRange db)).length ≤ 2 ^ 32)) :
    SearchesByKey db prefixes start limit := by
  rw [searchesByKey_iff_window, window]
  obtain rfl | ⟨hfollow, hcounter⟩ := h
  · rw [UInt32.toNat_zero, List.take_zero, List.take_zero]
  · have htake := take_runs hfollow
    by_cases hwindow : start.toNat + limit.toNat ≤ 2 ^ 32
    · rw [take_sieve _ _ hwindow, List.take_drop, List.take_drop, htake]
    · have hlength := hcounter.resolve_left hwindow
      rw [eq_of_take_eq htake (by omega), sieve_of_length_le _ _ hlength]

/-- Entries under keys of two prefixes, and one behind them. -/
def twoRanges : DB :=
  .ofEntries [([97, 49], [97, 1]), ([97, 50], [97, 2]), ([98, 49], [98, 1]), ([99], [98, 7])]
    (by decide)

/-- A window across both ranges, which is full before the last entry is looked at. -/
theorem searchesByKey_twoRanges : SearchesByKey twoRanges [[97], [98]] 1 2 :=
  searchesByKey_of_followWithin (.inr ⟨by decide, .inl (by decide)⟩)

/-- For a single prefix, within the first `2^32` entries, it comes down to counting: a search is by
key exactly when the window has as many values of the run as of the range. -/
theorem searchesByKey_singleton_iff (db : DB) (slice : Bytes) {start limit : UInt32}
    (hwindow : start.toNat + limit.toNat ≤ 2 ^ 32) : SearchesByKey db [slice] start limit ↔
      min limit.toNat ((valueRun db slice).length - start.toNat) =
        min limit.toNat ((keyRange db slice).length - start.toNat) := by
  have hrun : valueRun db slice <+: (db.entries.dropWhile fun e => e.1 < slice).map Prod.snd :=
    (List.takeWhile_prefix _).map _
  have hrange : keyRange db slice <+:
      (db.entries.dropWhile fun e => e.1 < slice).map Prod.snd := by
    rw [keyRange, filter_startsWith]
    exact (List.takeWhile_prefix _).map _
  rw [searchesByKey_iff_window, window, List.flatMap_singleton, List.flatMap_singleton,
    take_sieve _ _ hwindow, take_drop_eq_iff_of_prefix hrun hrange]

/-- An entry whose key begins with the prefix is not found. -/
theorem prefix_not_searched :
    ¬ ∀ db prefixes start limit, SearchesByKey db prefixes start limit := by
  intro hall
  have hwindow := (searchesByKey_iff_window oneEntry [[97]] 0 1).mp (hall _ _ _ _)
  have hrun : [[97]].flatMap (valueRun oneEntry) = [] := by decide
  have hrange : [[97]].flatMap (keyRange oneEntry) = [[120]] := by decide
  rw [hrun, hrange] at hwindow
  cases hwindow

end RewardsDriver.Backend
