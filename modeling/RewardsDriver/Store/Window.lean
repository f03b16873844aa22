import RewardsDriver.Store.Find

/-!
A limit on `Find`: the text it adds, and what becomes of it.

* `findClauses_limit`, `findClauses_no_limit`: the text with a limit, and with none.
* `LimitMode`, `exists_limitMode`: **the fate of a limit** after the text of a filter whose query
  succeeds: it takes effect, it is without effect, or it makes the text refused.
* `LimitMode.rows`: the rows that `Find` appends with a limit.
-/

namespace RewardsDriver.Store

/-! ### The text -/

/-- A limit that is not positive is not written. -/
lemma findClauses_no_limit (L : Ledger) (start : Int32) {limit : Int32}
    (filter : PublisherInfoFilter) (h : ¬ limit > 0) :
    findClauses L start limit filter = findClauses L 0 0 filter := by
  have hzero : ¬ (0 : Int32) > 0 := by decide
  simp only [findClauses, streamIf, if_neg h, if_neg hzero]

/-- A printed integer that is not negative. -/
lemma toString_of_nonneg {z : ℤ} (h : 0 ≤ z) : toString z = toString z.toNat := by
  obtain ⟨n, rfl⟩ := Int.eq_ofNat_of_zero_le h
  rfl

/-- The offset that is written for a start. -/
def offset? (start : Int32) : Option ℕ := if start > 1 then some start.toInt.toNat else none

/-- A positive limit is written after the text without one. -/
lemma findClauses_limit (L : Ledger) (start : Int32) {limit : Int32}
    (filter : PublisherInfoFilter) (h : limit > 0) :
    findClauses L start limit filter
      = findClauses L 0 0 filter ++ limitText limit.toInt.toNat (offset? start) := by
  have hzero : ∀ text, streamIf ((0 : Int32) > 0) text = "" := fun _ => rfl
  have hlimit : (0 : ℤ) ≤ limit.toInt := Int.le_of_lt (Int32.lt_iff_toInt_lt.mp h)
  have htext : streamIf (limit > 0) (" LIMIT " ++ toString limit.toInt ++
      streamIf (start > 1) (" OFFSET " ++ toString start.toInt))
      = limitText limit.toInt.toNat (offset? start) := by
    rw [streamIf, if_pos h, toString_of_nonneg hlimit, offset?, streamIf]
    by_cases hstart : start > 1
    · have hpos : (1 : ℤ) < start.toInt := Int32.lt_iff_toInt_lt.mp hstart
      rw [if_pos hstart, if_pos hstart, toString_of_nonneg (by omega)]
      rfl
    · rw [if_neg hstart, if_neg hstart]
      rfl
  simp only [findClauses, htext, hzero, String.append_empty]

/-! ### The fate of a limit -/

/-- What the text of a filter is prepared to, without a limit and with one. -/
structure LimitMode (E : Sqlite) (L : Ledger) (filter : PublisherInfoFilter) (core : Core)
    (w₀ : Option Window) (mode : TailMode) : Prop where
  query : E.prepare (findText L 0 0 filter) = some (.select core w₀)
  windows : mode = .windows → w₀ = none
  no_limit : ∀ start limit, ¬ limit > 0 →
    E.prepare (findText L start limit filter) = some (.select core w₀)
  limit : ∀ start limit, limit > 0 → E.prepare (findText L start limit filter)
    = mode.apply core w₀ ⟨limit.toInt.toNat, (offset? start).getD 0⟩

variable {E : Sqlite} {L : Ledger} {filter : PublisherInfoFilter} {core : Core}
  {w₀ : Option Window} {mode : TailMode}

/-- **The fate of a limit**: there is one for every filter whose query succeeds. -/
lemma exists_limitMode (h : E.prepare (findText L 0 0 filter) = some (.select core w₀)) :
    ∃ mode, LimitMode E L filter core w₀ mode := by
  have hno : ∀ start limit, ¬ limit > 0 →
      E.prepare (findText L start limit filter) = some (.select core w₀) := fun start limit hl => by
    rw [findText, findClauses_no_limit L start filter hl]
    exact h
  by_cases hnul : '\x00' ∈ (findClauses L 0 0 filter).toList
  · -- the C string ends before the limit
    refine ⟨.ignores, h, fun h => (by cases h), hno, fun start limit hl => ?_⟩
    obtain ⟨cs, ds, hcs, hnulcs⟩ := List.eq_append_cons_of_mem hnul
    have hlimit : (findClauses L start limit filter).toList
        = cs ++ ('\x00' :: ds ++ (limitText limit.toInt.toNat (offset? start)).toList) := by
      rw [findClauses_limit L start filter hl, String.toList_append, hcs, List.append_assoc]
    have htext : cString (findClauses L start limit filter)
        = cString (findClauses L 0 0 filter) := by
      refine String.toList_injective ?_
      rw [cString_append hcs hnulcs, cString_append hlimit hnulcs]
      rfl
    rw [findText, htext]
    exact h
  · obtain ⟨mode, hmode, hprepare⟩ := E.window _ core w₀ rfl h
    refine ⟨mode, h, hmode, hno, fun start limit hl => ?_⟩
    have hlimit : '\x00' ∉ (findClauses L start limit filter).toList := by
      rw [findClauses_limit L start filter hl, String.toList_append, List.mem_append, not_or]
      exact ⟨hnul, nul_notMem_limitText _ _⟩
    have hbound : ∀ n : Int32, n.toInt.toNat < 2 ^ 63 := fun n => by
      have := n.toInt_lt
      omega
    have hoffset : (offset? start).getD 0 < 2 ^ 63 := by
      unfold offset?
      split
      · exact hbound start
      · simp
    have happly := hprepare limit.toInt.toNat (offset? start) (hbound limit) hoffset
    rw [← happly, findText, cString_eq_self hlimit, findClauses_limit L start filter hl]
    simp only [findText, cString_eq_self hnul]

/-- A filter without SQL in its texts takes a limit. -/
lemma LimitMode.eq_windows (h : LimitMode E L filter core w₀ mode) (hid : '\'' ∉ filter.id.toList)
    (hnul : '\x00' ∉ filter.id.toList) (horder : NamesColumns filter.order_by) :
    mode = .windows := by
  have htext := nul_notMem_findClauses L hnul horder
  have htail := readTail_findClauses L hid horder
  rcases orderedParse_cases filter.order_by with ⟨order, haccepts⟩ | hrefuses
  · rw [haccepts] at htail
    have hone : (1 : Int32) > 0 := by decide
    have hfind : findText L 0 1 filter = ⟨.find, findClauses L 0 0 filter ++ limitText 1 none⟩ := by
      rw [findText, findClauses_limit L 0 filter hone, cString_eq_self]
      · rfl
      · rw [String.toList_append, List.mem_append, not_or]
        exact ⟨htext, nul_notMem_limitText _ _⟩
    have hread : read (findText L 0 1 filter)
        = .accepts (.select (.query ⟨filter.conds L, order⟩) (some ⟨1, 0⟩)) := by
      have hlimit := read_limit (t := ⟨.find, findClauses L 0 0 filter⟩) rfl htext 1 none
      rw [hfind, hlimit, readTail_limit htail]
      rfl
    have happly := h.limit 0 1 hone
    rw [E.accepts _ _ hread] at happly
    cases mode with
    | windows => rfl
    | ignores =>
        have hnone : w₀ = none := by
          have hquery := h.query
          have hread₀ := read_findText L hid hnul horder
          rw [haccepts] at hread₀
          rw [E.accepts _ _ hread₀] at hquery
          cases hquery
          rfl
        rw [hnone] at happly
        cases happly
    | refuses => cases happly
  · have hread := read_findText L hid hnul horder
    rw [hrefuses] at hread
    have hquery := h.query
    rw [E.refuses _ hread] at hquery
    cases hquery

/-- The rows that `Find` appends, of the rows without a limit. -/
def TailMode.page {α : Type} (mode : TailMode) (start limit : Int32) (rows : List α) : List α :=
  if limit > 0 then
    match mode with
    | .windows => Window.slice ⟨limit.toInt.toNat, (offset? start).getD 0⟩ rows
    | .ignores => rows
    | .refuses => []
  else rows

lemma TailMode.page_no_limit {α : Type} (mode : TailMode) (start : Int32) {limit : Int32}
    (h : ¬ limit > 0) (rows : List α) : mode.page start limit rows = rows := if_neg h

lemma TailMode.page_limit {α : Type} (mode : TailMode) (start : Int32) {limit : Int32}
    (h : limit > 0) (rows : List α) :
    mode.page start limit rows = match mode with
      | .windows => Window.slice ⟨limit.toInt.toNat, (offset? start).getD 0⟩ rows
      | .ignores => rows
      | .refuses => [] := if_pos h

/-- **`Find` with a limit**: without failures it appends a page of the records that it appends
without one. -/
lemma LimitMode.find_page {c : Conn} (h : LimitMode E L filter core w₀ mode) (hready : c.Ready)
    (hc : c.fails 0 = none) (start limit : Int32) (list : List PublisherInfo) :
    ∃ found, find E L start limit filter list c = (.ok (found, list ++
      mode.page start limit ((windowed w₀ (E.find core c.file)).map (Joined.record L))),
      c.next) := by
  have hselect : ∀ w, E.prepare (findText L start limit filter) = some (.select core w) →
      find E L start limit filter list c = (.ok (true, list ++
        (windowed w (E.find core c.file)).map (Joined.record L)), c.next) := by
    intro w hw
    have hfind := find_select list hready hw
    rw [hc] at hfind
    exact hfind
  by_cases hl : limit > 0
  · have hprepare := h.limit start limit hl
    rw [mode.page_limit start hl]
    cases mode with
    | windows =>
        obtain rfl := h.windows rfl
        refine ⟨true, (hselect _ hprepare).trans ?_⟩
        simp [windowed, Window.slice]
    | ignores => exact ⟨true, hselect _ hprepare⟩
    | refuses =>
        refine ⟨false, (find_refused list hready hprepare).trans ?_⟩
        simp
  · rw [mode.page_no_limit start hl]
    exact ⟨true, hselect _ (h.no_limit start limit hl)⟩

end RewardsDriver.Store
