import RewardsDriver.Backend.Search

/-!
Windows of `PublisherInfoBackend::Search` and `Load`: does reading a window in two parts give
the window, and do the two scans agree?

* `window_append`: below `2^32` the counters do not wrap, and two adjacent windows make one.
* `valueRun_nil`: every value begins with the empty prefix.
* `windows_compose`: **windows compose**, for both scans, and `Load` is `Search` on the empty
  prefix.
-/

namespace RewardsDriver.Backend

/-- A window that ends below `2^32` is a plain one. -/
lemma window_eq_take_drop {start limit : UInt32} (h : start.toNat + limit.toNat ≤ 2 ^ 32)
    (vs : List Bytes) : window start limit vs = (vs.drop start.toNat).take limit.toNat :=
  take_sieve _ _ h vs

/-- **Two adjacent windows make one.** -/
lemma window_append {a n m : UInt32} (h : a.toNat + n.toNat + m.toNat < 2 ^ 32)
    (vs : List Bytes) : window a n vs ++ window (a + n) m vs = window a (n + m) vs := by
  have han : (a + n).toNat = a.toNat + n.toNat := toNat_add_of_lt (by omega)
  have hnm : (n + m).toNat = n.toNat + m.toNat := toNat_add_of_lt (by omega)
  calc window a n vs ++ window (a + n) m vs
      = (vs.drop a.toNat).take n.toNat ++ (vs.drop (a.toNat + n.toNat)).take m.toNat := by
        rw [window_eq_take_drop (by omega), window_eq_take_drop (by omega), han]
    _ = (vs.drop a.toNat).take (n.toNat + m.toNat) := take_add_drop vs _ _ _
    _ = window a (n + m) vs := by rw [window_eq_take_drop (by omega), hnm]

/-- The run of the empty prefix is everything. -/
lemma valueRun_nil (db : DB) : valueRun db [] = db.entries.map Prod.snd := by
  have hbelow : (db.entries.dropWhile fun e => decide (e.1 < [])) = db.entries := by
    cases db.entries with
    | nil => rfl
    | cons e es => exact List.dropWhile_cons_of_neg (by simp)
  have hall : (db.entries.takeWhile fun e => startsWith e.2 []) = db.entries := by
    rw [List.takeWhile_eq_self_iff]
    intro e _
    rfl
  rw [valueRun, runValues, hbelow, hall]

/-- **Windows compose**: both scans end; the results of a window followed by those of the window
behind it are the results of the two together, and `Load` appends what `Search` does for the
empty prefix. -/
theorem windows_compose (db : DB) (prefixes : List Bytes) {a n m : UInt32}
    (h : a.toNat + n.toNat + m.toNat < 2 ^ 32) :
    (∃ xs ys, Appends (fun fuel disk b => b.search fuel disk prefixes a n) db xs ∧
      Appends (fun fuel disk b => b.search fuel disk prefixes (a + n) m) db ys ∧
      Appends (fun fuel disk b => b.search fuel disk prefixes a (n + m)) db (xs ++ ys)) ∧
    (∃ xs ys, Appends (fun fuel disk b => b.load fuel disk a n) db xs ∧
      Appends (fun fuel disk b => b.load fuel disk (a + n) m) db ys ∧
      Appends (fun fuel disk b => b.load fuel disk a (n + m)) db (xs ++ ys)) ∧
    ∃ xs, Appends (fun fuel disk b => b.load fuel disk a n) db xs ∧
      Appends (fun fuel disk b => b.search fuel disk [[]] a n) db xs := by
  refine ⟨⟨_, _, search_appends db prefixes a n, search_appends db prefixes (a + n) m, ?_⟩,
    ⟨_, _, load_appends db a n, load_appends db (a + n) m, ?_⟩, _, load_appends db a n, ?_⟩
  · rw [window_append h]
    exact search_appends db prefixes a (n + m)
  · rw [window_append h]
    exact load_appends db a (n + m)
  · have hall : [[]].flatMap (valueRun db) = db.entries.map Prod.snd := by
      rw [List.flatMap_singleton, valueRun_nil]
    rw [← hall]
    exact search_appends db [[]] a n

/-- Two entries, one a window. -/
theorem windows_compose_two :
    let db := DB.ofEntries [([97], [97, 120]), ([98], [98])] (by decide)
    ∃ xs ys, Appends (fun fuel disk b => b.search fuel disk [[97], [98]] 0 1) db xs ∧
      Appends (fun fuel disk b => b.search fuel disk [[97], [98]] 1 1) db ys ∧
      Appends (fun fuel disk b => b.search fuel disk [[97], [98]] 0 2) db (xs ++ ys) :=
  (windows_compose _ [[97], [98]] (a := 0) (n := 1) (m := 1) (by decide)).1

end RewardsDriver.Backend
