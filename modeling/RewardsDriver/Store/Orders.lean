import RewardsDriver.Store.Window

/-!
The order of what `Find` appends: the loop over `order_by`.

The loop writes an `ORDER BY` of its own for every entry, and a query has at most one.

* `orderColumns`, `lexLe`: the columns of the entries, and the order by all of them.
* `read_findText_orders`: **the texts with more than one entry** are refused, whatever comes after
  the orders.
* `exists_prepared`: the query of a text with at most one.
* `OrdersBy`, `ordersBy_iff`: `Find` sorts by all entries if and only if there is at most one.
-/

namespace RewardsDriver.Store

open RewardsDriver.Sql

/-! ### The order by all entries -/

/-- The columns that the entries name, each with whether it ascends. -/
def orderColumns (order_by : List (String × Bool)) : List (Column × Bool) :=
  order_by.filterMap fun it => (orderColumn? it.1).map (·, it.2)

/-- The order of two rows by a column in a direction. -/
def Column.leIn (c : Column) (asc : Bool) (r r' : Joined) : Bool :=
  if asc then c.le r r' else c.le r' r

/-- The lexicographic order: by the first column, then by the others where that one is equal. -/
def lexLe : List (Column × Bool) → Joined → Joined → Bool
  | [], _, _ => true
  | (c, asc) :: cs, r, r' => c.leIn asc r r' && (!c.leIn asc r' r || lexLe cs r r')

lemma lexLe_singleton (c : Column) (asc : Bool) (r r' : Joined) :
    lexLe [(c, asc)] r r' = c.leIn asc r r' := by
  simp [lexLe]

/-- `Find` succeeds, and what it appends are the records of joined rows sorted by all entries. -/
def OrdersBy (E : Sqlite) (L : Ledger) (start limit : Int32) (filter : PublisherInfoFilter)
    (c : Conn) : Prop :=
  ∀ list, ∃ (rows : List Joined) (c' : Conn), find E L start limit filter list c
      = (.ok (true, list ++ rows.map (Joined.record L)), c') ∧
    rows.Subperm c.file.joined ∧
    rows.Pairwise fun r r' => lexLe (orderColumns filter.order_by) r r' = true

/-! ### More than one entry -/

/-- More than one entry is refused. -/
lemma orderedParse_of_lt {order_by : List (String × Bool)} (h : 1 < order_by.length) (q : Query) :
    orderedParse q order_by = .refused := by
  match order_by with
  | _ :: _ :: _ => rfl
  | [_] => simp at h
  | [] => simp at h

/-- Whatever closed pieces come after the orders. -/
lemma readTail_orders (L : Ledger) {filter : PublisherInfoFilter} (hid : '\'' ∉ filter.id.toList)
    (horder : NamesColumns filter.order_by) (hlength : 1 < filter.order_by.length)
    {rest : List (List Char)} (hrest : ∀ p ∈ rest, Closed p) :
    readTail ((findClauses L 0 0 filter).toList ++ rest.flatMap (' ' :: ·)) = .refuses := by
  have hclauses := (((addConds_idClause filter hid).append
    (addConds_periodClauses L filter)).append (addConds_stampClause filter)).append
      (addConds_restClauses L filter)
  have hclosed : ∀ p ∈ orderPieces filter.order_by ++ rest, Closed p := by
    intro p hp
    rcases List.mem_append.mp hp with hp | hp
    · exact closed_orderPieces horder p hp
    · exact hrest p hp
  rw [toList_findClauses, ← List.flatMap_append, List.append_assoc,
    readTail_clauses hclauses hclosed, List.flatMap_append, List.foldl_append, parse_orders horder,
    orderedParse_of_lt hlength, parse_refused]
  rfl

/-- **The texts with more than one entry** are refused. -/
theorem read_findText_orders (L : Ledger) (start limit : Int32) {filter : PublisherInfoFilter}
    (hid : '\'' ∉ filter.id.toList) (hnul : '\x00' ∉ filter.id.toList)
    (horder : NamesColumns filter.order_by) (hlength : 1 < filter.order_by.length) :
    read (findText L start limit filter) = .refuses := by
  have htext := nul_notMem_findClauses L hnul horder
  by_cases hl : limit > 0
  · have hlimit : '\x00' ∉ (findClauses L start limit filter).toList := by
      rw [findClauses_limit L start filter hl, String.toList_append, List.mem_append, not_or]
      exact ⟨htext, nul_notMem_limitText _ _⟩
    have hread := read_limit (t := ⟨.find, findClauses L 0 0 filter⟩) rfl htext
      limit.toInt.toNat (offset? start)
    rw [toList_limitText, readTail_orders L hid horder hlength closed_limitPieces] at hread
    rw [findText, cString_eq_self hlimit, findClauses_limit L start filter hl]
    exact hread
  · have hnone : ∀ p ∈ ([] : List (List Char)), Closed p := fun _ hp => absurd hp List.not_mem_nil
    have hread := readTail_orders L hid horder hlength hnone
    rw [List.flatMap_nil, List.append_nil] at hread
    rw [findText, findClauses_no_limit L start filter hl, cString_eq_self htext, read, if_neg htext]
    simp only [hread, Reading.select]

/-! ### At most one entry -/

variable {E : Sqlite} {L : Ledger} {filter : PublisherInfoFilter}

/-- With at most one entry the text, with a limit or without, is a query that has its order. -/
lemma exists_prepared (hid : '\'' ∉ filter.id.toList) (hnul : '\x00' ∉ filter.id.toList)
    (horder : NamesColumns filter.order_by) (hlength : filter.order_by.length ≤ 1)
    (start limit : Int32) :
    ∃ w, E.prepare (findText L start limit filter)
      = some (.select (.query ⟨filter.conds L, (orderColumns filter.order_by).head?⟩) w) := by
  have hread := read_findText L hid hnul horder
  have hparse : orderedParse ⟨filter.conds L, none⟩ filter.order_by
      = .conds ⟨filter.conds L, (orderColumns filter.order_by).head?⟩ ∨
      orderedParse ⟨filter.conds L, none⟩ filter.order_by
      = .ordered ⟨filter.conds L, (orderColumns filter.order_by).head?⟩ := by
    match hentries : filter.order_by with
    | [] => exact .inl rfl
    | [(name, asc)] =>
        obtain ⟨c, hc⟩ := Option.isSome_iff_exists.mp (horder (name, asc) (by simp [hentries]))
        have hname : orderColumn? name = some c := hc
        exact .inr (by simp [orderedParse, orderColumns, hname])
    | _ :: _ :: _ => simp [hentries] at hlength
  have hprepare : E.prepare (findText L 0 0 filter)
      = some (.select (.query ⟨filter.conds L, (orderColumns filter.order_by).head?⟩) none) := by
    refine E.accepts _ _ (hread.trans ?_)
    rcases hparse with hparse | hparse <;> rw [hparse] <;> rfl
  obtain ⟨mode, hmode⟩ := exists_limitMode hprepare
  by_cases hl : limit > 0
  · have hwindows := hmode.eq_windows hid hnul horder
    subst hwindows
    exact ⟨_, hmode.limit start limit hl⟩
  · exact ⟨_, hmode.no_limit start limit hl⟩

lemma windowed_sublist {α : Type} (w : Option Window) (rows : List α) :
    (windowed w rows).Sublist rows := by
  cases w with
  | none => exact .refl _
  | some w => exact (List.take_sublist _ _).trans (List.drop_sublist _ _)

/-- The rows of a query are joined rows. -/
lemma find_subperm (q : Query) (db : Db) : (E.find (.query q) db).Subperm db.joined :=
  (E.find_perm q db).subperm.trans List.filter_sublist.subperm

/-- The rows of a query with at most one entry are sorted by it. -/
lemma find_pairwise (conds : List Cond) {order_by : List (String × Bool)}
    (hlength : order_by.length ≤ 1) (db : Db) :
    (E.find (.query ⟨conds, (orderColumns order_by).head?⟩) db).Pairwise
      fun r r' => lexLe (orderColumns order_by) r r' = true := by
  have hcolumns : (orderColumns order_by).length ≤ 1 :=
    (List.length_filterMap_le _ _).trans hlength
  match horder : orderColumns order_by with
  | [] => exact List.pairwise_of_forall fun _ _ => rfl
  | [(c, asc)] =>
      have hsorted := E.find_sorted ⟨conds, some (c, asc)⟩ c asc db rfl
      exact hsorted.imp fun h => (lexLe_singleton ..).trans h
  | _ :: _ :: _ => simp [horder] at hcolumns

/-- A text that is refused makes `Find` fail. -/
lemma not_ordersBy {c : Conn} (hready : c.Ready) {start limit : Int32}
    (hread : read (findText L start limit filter) = .refuses) :
    ¬ OrdersBy E L start limit filter c := by
  intro h
  obtain ⟨rows, c', hfind, -⟩ := h []
  rw [find_refused [] hready (E.refuses _ hread)] at hfind
  cases hfind

/-- **The order**: on an initialised store with any content, for every filter whose id has no quote
and whose entries name columns, every window and every pattern of failures, `Find` succeeds and
sorts by all entries if and only if its statement does not fail, the id has no NUL and there is at
most one entry. -/
theorem ordersBy_iff {c : Conn} (hready : c.Ready) (hid : '\'' ∉ filter.id.toList)
    (horder : NamesColumns filter.order_by) (start limit : Int32) :
    OrdersBy E L start limit filter c
      ↔ c.fails 0 = none ∧ '\x00' ∉ filter.id.toList ∧ filter.order_by.length ≤ 1 := by
  constructor
  · intro h
    obtain ⟨rows, c', hfind, -⟩ := h []
    have hc : c.fails 0 = none := (find_true hready hfind).1
    have hnul : '\x00' ∉ filter.id.toList := fun hnul =>
      not_ordersBy hready (read_findText_of_nul L start limit hid hnul) h
    refine ⟨hc, hnul, not_lt.mp fun hlength => ?_⟩
    exact not_ordersBy hready (read_findText_orders L start limit hid hnul horder hlength) h
  · rintro ⟨hc, hnul, hlength⟩ list
    obtain ⟨w, hprepare⟩ := exists_prepared (E := E) (L := L) hid hnul horder hlength start limit
    have hfind := find_select list hready hprepare
    rw [hc] at hfind
    have hsublist := windowed_sublist w
      (E.find (.query ⟨filter.conds L, (orderColumns filter.order_by).head?⟩) c.file)
    exact ⟨_, c.next, hfind, hsublist.subperm.trans (find_subperm _ _),
      (find_pairwise _ hlength _).sublist hsublist⟩

/-! ### One entry and two -/

/-- A store with two activities of one publisher. -/
def rankedDb : Db :=
  { Db.fresh with
    publisher_info := .replace .empty ⟨"brave.com", 1, 0, "Brave", "", "https://brave.com", ""⟩
    activity_info := [⟨"brave.com", 5, 1, 30, 1, 2, 7, 2018, 1⟩,
      ⟨"brave.com", 9, 1, 70, 1, 2, 8, 2018, 1⟩] }

lemma rankedDb_ready : (Conn.on rankedDb).Ready := Conn.on_ready Db.fresh_complete

instance (order_by : List (String × Bool)) : Decidable (NamesColumns order_by) :=
  inferInstanceAs (Decidable (∀ it ∈ order_by, (orderColumn? it.1).isSome))

/-- A filter without conditions, with an order. -/
def orderFilter (order_by : List (String × Bool)) : PublisherInfoFilter :=
  ⟨"", 31, -1, 0, -1, 0, order_by, 0⟩

/-- The one entry of `GetContentSiteList`. -/
theorem ordersBy_iff_percent :
    OrdersBy reference sampleLedger 0 2 (orderFilter [("percent", false)]) (Conn.on rankedDb) := by
  have horder : NamesColumns (orderFilter [("percent", false)]).order_by := by decide
  exact (ordersBy_iff rankedDb_ready (by simp [orderFilter]) horder 0 2).mpr
    ⟨rfl, by simp [orderFilter], le_rfl⟩

/-- With two entries the query is refused. -/
theorem orders_refused : ¬ ∀ (E : Sqlite) (L : Ledger) (start limit : Int32)
    (filter : PublisherInfoFilter) (c : Conn), c.Ready → c.Quiet → '\'' ∉ filter.id.toList →
    NamesColumns filter.order_by → OrdersBy E L start limit filter c := by
  intro hall
  have horder : NamesColumns (orderFilter [("percent", false), ("name", true)]).order_by := by
    decide
  have hread := read_findText_orders sampleLedger 0 0 (by simp [orderFilter])
    (by simp [orderFilter]) horder (Nat.one_lt_two)
  exact not_ordersBy rankedDb_ready hread (hall reference sampleLedger 0 0 _ _ rankedDb_ready
    (Conn.on_quiet _) (by simp [orderFilter]) horder)

end RewardsDriver.Store
