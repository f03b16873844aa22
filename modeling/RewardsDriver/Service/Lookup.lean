import RewardsDriver.Service.Paging
import RewardsDriver.Store.Count
import RewardsDriver.Store.Orders
import RewardsDriver.Store.Selection

/-!
Looking up one publisher: `LoadPublisherInfo` and `OnPublisherInfoLoaded`.

`Find` is asked for two rows, so that one row is known to be the only one. What it returns is not
looked at, and the list of a query that failed is classified like any other.

* `onPublisherInfoLoaded`, `loadPublisherInfo`: the functions, with the calls of the callback.
* `Ran`, `asked`, `compared`: that the query of the lookup ran, the rows that the filter asks for
  and those that meet the conditions which `Find` writes.
* `classify`: the call for some rows; `classifies_iff_of_ran`, `classifies_iff_of_failed`: **when a
  call is true**, after a query that has run and after one that has failed.
* `exists_page`: the query of the lookup gives the first two of the compared rows, or all of them.
* `LooksUp`, `looksUp_iff`: the callback is told the truth if and only if the query is accepted, the
  two selections are classified alike and no failure comes before two rows.
-/

namespace RewardsDriver.Service

open RewardsDriver.Store

variable (E : Sqlite) (L : Ledger)

/-! ### The functions -/

/-- `ledger::Result`, as far as a lookup uses it. -/
inductive Result where
  | LEDGER_OK
  | NOT_FOUND
  | TOO_MANY_RESULTS
  deriving DecidableEq

/-- A call of a `ledger::PublisherInfoCallback`. -/
abbrev PublisherInfoCall := Result × Option PublisherInfo

/-- `OnPublisherInfoLoaded`: the calls of the callback. -/
def onPublisherInfoLoaded (list : List PublisherInfo) : List PublisherInfoCall :=
  if list.length = 0 then [(.NOT_FOUND, none)]
  else if list.length > 1 then [(.TOO_MANY_RESULTS, none)]
  else [(.LEDGER_OK, list[0]?)]

/-- `LoadPublisherInfo`, with its task run. -/
def loadPublisherInfo (filter : PublisherInfoFilter) : DbM (List PublisherInfoCall) := do
  let list ← loadPublisherInfoListOnFileTaskRunner E L 0 2 filter
  return onPublisherInfoLoaded list

/-! ### What a lookup is to say -/

/-- The rows that match a filter, field by field. -/
def asked (filter : PublisherInfoFilter) (db : Db) : List Joined :=
  db.joined.filter (filter.selects L)

/-- The rows that meet the conditions which `Find` writes for a filter. -/
def compared (filter : PublisherInfoFilter) (db : Db) : List Joined :=
  db.joined.filter fun r => filter.meets L r && filter.compares L r

/-- The query of the lookup has run without failure. -/
def Ran (filter : PublisherInfoFilter) (c : Conn) : Prop :=
  ∃ list c', find E L 0 2 filter [] c = (.ok (true, list), c')

/-- The callback is called once and told the truth: `LEDGER_OK` with its record exactly when the
query ran and one row matches, `NOT_FOUND` only when it ran and none does, `TOO_MANY_RESULTS` only
when two or more do. -/
structure Classifies (filter : PublisherInfoFilter) (c : Conn) (call : PublisherInfoCall) :
    Prop where
  ok_iff : call.1 = .LEDGER_OK ↔ Ran E L filter c ∧ ∃ j, asked L filter c.file = [j]
  record : ∀ j, Ran E L filter c → asked L filter c.file = [j] → call.2 = some (j.record L)
  not_found : call.1 = .NOT_FOUND → Ran E L filter c ∧ asked L filter c.file = []
  too_many : call.1 = .TOO_MANY_RESULTS → 2 ≤ (asked L filter c.file).length

/-- The lookup calls its callback once, and truthfully. -/
def LooksUp (filter : PublisherInfoFilter) (c : Conn) : Prop :=
  ∃ call c', loadPublisherInfo E L filter c = (.ok [call], c') ∧ Classifies E L filter c call

/-- The call for the records of some rows. -/
def classify : List Joined → PublisherInfoCall
  | [] => (.NOT_FOUND, none)
  | [j] => (.LEDGER_OK, some (j.record L))
  | _ => (.TOO_MANY_RESULTS, none)

/-- The query of the lookup is accepted: the id has no quotes, the orders only sort, and a limit may
follow. The conditions that `Find` writes and the fields of the filter select no row, one row with
the same record, or several rows; and the query does not fail, or fails only after two rows have
come and where two are to come. -/
def Conclusive (filter : PublisherInfoFilter) (c : Conn) : Prop :=
  '\'' ∉ filter.id.toList ∧ E.OnlySorts (orderText filter.order_by) ∧
    E.prepare (findText L 0 2 filter) ≠ none ∧
    ((c.fails 0 = none ∧
        classify L (compared L filter c.file) = classify L (asked L filter c.file)) ∨
      ∃ k, c.fails 0 = some k ∧ 2 ≤ k ∧ 2 ≤ (compared L filter c.file).length ∧
        2 ≤ (asked L filter c.file).length)

variable {E L} {filter : PublisherInfoFilter} {c : Conn}

/-! ### The calls of the callback -/

lemma onPublisherInfoLoaded_map (rows : List Joined) :
    onPublisherInfoLoaded (rows.map (Joined.record L)) = [classify L rows] := by
  match rows with
  | [] => rfl
  | [j] => rfl
  | j :: j' :: rows => simp [onPublisherInfoLoaded, classify]

/-- What the callback is told of a list. -/
lemma loadPublisherInfo_of_find {found : Bool} {list : List PublisherInfo} {c' : Conn}
    (h : find E L 0 2 filter [] c = (.ok (found, list), c')) :
    loadPublisherInfo E L filter c = (.ok (onPublisherInfoLoaded list), c') :=
  DbM.bind_ok (DbM.bind_ok h)

lemma ran_iff_of_find {found : Bool} {list : List PublisherInfo} {c' : Conn}
    (h : find E L 0 2 filter [] c = (.ok (found, list), c')) : Ran E L filter c ↔ found = true := by
  rw [Ran, h]
  constructor
  · rintro ⟨list', c'', heq⟩
    cases heq
    rfl
  · rintro rfl
    exact ⟨list, c', rfl⟩

/-- The records of some rows, in the list of the lookup: it is truthful exactly if their call is. -/
lemma looksUp_iff_of_find {found : Bool} {page : List Joined} {c' : Conn}
    (h : find E L 0 2 filter [] c = (.ok (found, page.map (Joined.record L)), c')) :
    LooksUp E L filter c ↔ Classifies E L filter c (classify L page) := by
  have hload := loadPublisherInfo_of_find h
  rw [onPublisherInfoLoaded_map] at hload
  constructor
  · rintro ⟨call, c'', heq, hcall⟩
    rw [hload] at heq
    cases heq
    exact hcall
  · exact fun hcall => ⟨_, _, hload, hcall⟩

/-- The order of the rows does not matter. -/
lemma classify_perm {rows rows' : List Joined} (h : rows.Perm rows') :
    classify L rows = classify L rows' := by
  match rows, rows', h.length_eq with
  | [], [], _ => rfl
  | [j], [j'], _ =>
      rw [List.perm_singleton.mp h]
  | _ :: _ :: _, _ :: _ :: _, _ => rfl

/-- Two rows are enough. -/
lemma classify_take_two (rows : List Joined) : classify L (rows.take 2) = classify L rows := by
  match rows with
  | [] => rfl
  | [j] => rfl
  | j :: j' :: rows => rfl

/-! ### When a call is true -/

/-- **After a query that has run** the call is true exactly if it is the one for the rows that the
filter asks for. -/
lemma classifies_iff_of_ran (hran : Ran E L filter c) (page : List Joined) :
    Classifies E L filter c (classify L page) ↔
      classify L page = classify L (asked L filter c.file) := by
  constructor
  · intro h
    match page with
    | [] => rw [(h.not_found rfl).2]
    | [j] =>
        obtain ⟨-, j', hj'⟩ := h.ok_iff.mp rfl
        have hrecord := h.record j' hran hj'
        rw [hj']
        exact Prod.ext rfl hrecord
    | j :: j' :: rows =>
        have htwo := h.too_many rfl
        match hasked : asked L filter c.file with
        | [] => simp [hasked] at htwo
        | [_] => simp [hasked] at htwo
        | _ :: _ :: _ => rfl
  · intro h
    rw [h]
    match hasked : asked L filter c.file with
    | [] =>
        exact ⟨by simp [classify, hasked], by simp [hasked], fun _ => ⟨hran, hasked⟩,
          by simp [classify]⟩
    | [j] =>
        refine ⟨iff_of_true rfl ⟨hran, j, hasked⟩, fun j' _ hj' => ?_, by simp [classify],
          by simp [classify]⟩
        rw [hasked, List.singleton_inj] at hj'
        rw [hj']
        rfl
    | j :: j' :: rows =>
        exact ⟨by simp [classify, hasked], by simp [hasked], by simp [classify],
          fun _ => by simp [hasked]⟩

/-- **After a query that has failed** only the call for too many rows can be true. -/
lemma classifies_iff_of_failed (hran : ¬ Ran E L filter c) (page : List Joined) :
    Classifies E L filter c (classify L page) ↔
      2 ≤ page.length ∧ 2 ≤ (asked L filter c.file).length := by
  match page with
  | [] =>
      refine iff_of_false (fun h => hran (h.not_found rfl).1) (by simp)
  | [j] =>
      refine iff_of_false (fun h => hran (h.ok_iff.mp rfl).1) (by simp)
  | j :: j' :: rows =>
      refine ⟨fun h => ⟨by simp, h.too_many rfl⟩, fun h => ?_⟩
      exact ⟨iff_of_false (by simp [classify]) fun h => hran h.1, fun j h => absurd h hran,
        by simp [classify], fun _ => h.2⟩

/-! ### The query of the lookup -/

/-- The conditions that `Find` writes select the compared rows. -/
lemma rows_eq_compared (db : Db) : filter.rows L db = compared L filter db := by
  rw [PublisherInfoFilter.rows, Query.rows, compared]
  simp only [all_conds]

/-- **The query of the lookup**: its rows are the first two of the compared rows in some order, or
all of them. -/
lemma exists_page (hid : '\'' ∉ filter.id.toList)
    (horder : E.OnlySorts (orderText filter.order_by))
    (haccepted : E.prepare (findText L 0 2 filter) ≠ none) (db : Db) :
    ∃ core w rows, E.prepare (findText L 0 2 filter) = some (.select core w) ∧
      rows.Perm (compared L filter db) ∧
      (windowed w (E.find core db) = rows.take 2 ∨ windowed w (E.find core db) = rows) := by
  have hnul : '\x00' ∉ filter.id.toList := fun hnul =>
    haccepted (E.refuses _ (read_findText_of_nul L 0 2 hid hnul))
  obtain ⟨core, hprepare, hperm⟩ := exists_prepare_findText (L := L) horder hid hnul
  obtain ⟨mode, hmode⟩ := exists_limitMode hprepare
  have htwo := hmode.limit 0 2 (by decide)
  have hwindow : (⟨(2 : Int32).toInt.toNat, (offset? 0).getD 0⟩ : Window) = ⟨2, 0⟩ := rfl
  rw [hwindow] at htwo
  have hrows : (E.find core db).Perm (compared L filter db) := rows_eq_compared db ▸ hperm db
  cases mode with
  | windows => exact ⟨core, some ⟨2, 0⟩, _, htwo, hrows, .inl rfl⟩
  | ignores => exact ⟨core, none, _, htwo, hrows, .inr rfl⟩
  | refuses => exact absurd htwo haccepted

/-- A refused query is told as `NOT_FOUND`. -/
lemma not_looksUp_of_refused (hready : c.Ready) (h : E.prepare (findText L 0 2 filter) = none) :
    ¬ LooksUp E L filter c := by
  have hfind := find_refused [] hready h
  rw [← List.map_nil] at hfind
  rw [looksUp_iff_of_find hfind]
  intro hcall
  have hran := (hcall.not_found rfl).1
  rw [ran_iff_of_find hfind] at hran
  cases hran

/-- Where the orders only sort, the callback is told the truth exactly by a conclusive query. -/
lemma looksUp_iff_conclusive (hready : c.Ready) (hid : '\'' ∉ filter.id.toList)
    (horder : E.OnlySorts (orderText filter.order_by)) :
    LooksUp E L filter c ↔ Conclusive E L filter c := by
  by_cases haccepted : E.prepare (findText L 0 2 filter) = none
  · exact iff_of_false (not_looksUp_of_refused hready haccepted) fun h => h.2.2.1 haccepted
  · obtain ⟨core, w, rows, hprepare, hperm, hpage⟩ :=
      exists_page hid horder haccepted c.file
    have hfind := find_select [] hready hprepare
    have hclassify : classify L (windowed w (E.find core c.file))
        = classify L (compared L filter c.file) := by
      rw [← classify_perm hperm]
      obtain hpage | hpage := hpage
      · rw [hpage, classify_take_two]
      · rw [hpage]
    have hconclusive : Conclusive E L filter c ↔
        (c.fails 0 = none ∧
          classify L (compared L filter c.file) = classify L (asked L filter c.file)) ∨
        ∃ k, c.fails 0 = some k ∧ 2 ≤ k ∧ 2 ≤ (compared L filter c.file).length ∧
          2 ≤ (asked L filter c.file).length :=
      ⟨fun h => h.2.2.2, fun h => ⟨hid, horder, haccepted, h⟩⟩
    rw [hconclusive]
    cases hc : c.fails 0 with
    | none =>
        rw [hc] at hfind
        have hran : Ran E L filter c := (ran_iff_of_find hfind).mpr rfl
        rw [looksUp_iff_of_find hfind, classifies_iff_of_ran hran, hclassify]
        simp
    | some k =>
        rw [hc] at hfind
        have hran : ¬ Ran E L filter c := by simp [ran_iff_of_find hfind]
        have hlength : 2 ≤ ((windowed w (E.find core c.file)).take k).length ↔
            2 ≤ k ∧ 2 ≤ (compared L filter c.file).length := by
          rw [← hperm.length_eq]
          obtain hpage | hpage := hpage <;> simp only [hpage, List.length_take] <;> omega
        rw [looksUp_iff_of_find hfind, classifies_iff_of_failed hran, hlength]
        simp [and_assoc]

/-- **A lookup**: on an initialised store with any content, for every filter and every outcome of
the query, the callback is called once and truthfully if the query is conclusive; and only if it
is, for the filters whose id has no quotes and whose orders only sort or name columns. -/
theorem looksUp_iff (hready : c.Ready) :
    (Conclusive E L filter c → LooksUp E L filter c) ∧
      ('\'' ∉ filter.id.toList →
        E.OnlySorts (orderText filter.order_by) ∨ NamesColumns filter.order_by →
        LooksUp E L filter c → Conclusive E L filter c) := by
  refine ⟨fun h => (looksUp_iff_conclusive hready h.1 h.2.1).mpr h, fun hid horder hlooks => ?_⟩
  obtain horder | horder := horder
  · exact (looksUp_iff_conclusive hready hid horder).mp hlooks
  · by_cases hone : filter.order_by.length ≤ 1
    · exact (looksUp_iff_conclusive hready hid (onlySorts_of_namesColumns horder hone)).mp hlooks
    · have hread : read (findText L 0 2 filter) = .refuses := by
        by_cases hnul : '\x00' ∈ filter.id.toList
        · exact read_findText_of_nul L 0 2 hid hnul
        · exact read_findText_orders L 0 2 hid hnul horder (Nat.lt_of_not_le hone)
      exact absurd hlooks (not_looksUp_of_refused hready (E.refuses _ hread))

/-! ### Lookups on a sample store -/

/-- The publisher brave.com, unless it is excluded, by its percentages. -/
def lookupFilter : PublisherInfoFilter :=
  ⟨"brave.com", 31, -1, 2018, 4, 0, [("percent", false)], 0⟩

lemma lookupFilter_conclusive :
    Conclusive reference sampleLedger lookupFilter (Conn.on countedDb) := by
  have hid : '\'' ∉ lookupFilter.id.toList := by simp [lookupFilter]
  have horder : NamesColumns lookupFilter.order_by := fun it hit => by
    rw [List.mem_singleton.mp hit]
    decide
  obtain ⟨w, hw⟩ := exists_prepared (E := reference) (L := sampleLedger) hid
    (by simp [lookupFilter]) horder le_rfl 0 2
  exact ⟨hid, onlySorts_of_namesColumns horder le_rfl, by simp [hw], .inl ⟨rfl, by decide⟩⟩

/-- A publisher that is not excluded is found. -/
theorem looksUp_iff_found : LooksUp reference sampleLedger lookupFilter (Conn.on countedDb) :=
  (looksUp_iff countedDb_ready).1 lookupFilter_conclusive

/-- A query that fails is told as `NOT_FOUND`. -/
theorem failure_not_found : ¬ ∀ (E : Sqlite) (L : Ledger) (filter : PublisherInfoFilter) (c : Conn),
    c.Ready → LooksUp E L filter c := by
  intro hall
  let c : Conn := { Conn.on pagedDb with fails := fun _ => some 0 }
  have hready : c.Ready := ⟨rfl, rfl, Db.fresh_complete⟩
  have hid : '\'' ∉ allFilter.id.toList := by simp [allFilter]
  have horder : NamesColumns allFilter.order_by := fun _ hit => absurd hit List.not_mem_nil
  obtain ⟨-, -, -, ⟨hnone, -⟩ | ⟨k, hk, htwo, -⟩⟩ := (looksUp_iff_conclusive hready hid
    (onlySorts_of_namesColumns horder (Nat.zero_le 1))).mp (hall reference sampleLedger _ c hready)
  · cases hnone
  · cases hk
    omega

end RewardsDriver.Service
