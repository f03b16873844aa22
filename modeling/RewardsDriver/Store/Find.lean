import RewardsDriver.Store.Init

/-!
The queries over activities and publishers: `Find` and `Count`.

Both put the text of a query together from the fields of a filter. `Find` passes it on as a C
string, which ends at the first NUL, and puts the id in quotes. `BuildFilterClauses`, which `Count`
calls, writes the id without quotes, and the stamp's name where the stamp is meant.

* `findClauses`, `find`, `buildFilterClauses`, `count`: the functions.
* `find_refused`, `find_select`: `Find` on an initialised store, by what its text is prepared to.
* `PublisherInfoFilter.conds`: the conditions that a filter asks for.
* `read_findText`, `read_findText_of_nul`: **what the text of `Find` means**.
* `find_rows`: `Find` appends the rows of the filter.
-/

namespace RewardsDriver.Store

open RewardsDriver.Sql

/-! ### The functions -/

/-- What is streamed under a condition. -/
def streamIf (p : Prop) [Decidable p] (text : String) : String := if p then text else ""

/-- The loop over `order_by`. -/
def orderText (order_by : List (String × Bool)) : String :=
  String.join (order_by.map fun it => " ORDER BY " ++ it.1 ++ if it.2 then " ASC" else " DESC")

/-- What `Find` streams after the fixed beginning of its query. -/
def findClauses (L : Ledger) (start limit : Int32) (filter : PublisherInfoFilter) : String :=
  streamIf (filter.id ≠ "") (" AND ai.publisher_id = '" ++ filter.id ++ "'") ++
  streamIf (filter.category ≠ L.ALL_CATEGORIES)
    (" AND ai.category = " ++ toString filter.category.toInt) ++
  streamIf (filter.month ≠ L.ANY) (" AND ai.month = " ++ toString filter.month.toInt) ++
  streamIf (filter.year > 0) (" AND ai.year = " ++ toString filter.year.toInt) ++
  streamIf (filter.reconcile_stamp > 0)
    (" AND ai.reconcile_stamp = " ++ toString filter.reconcile_stamp.toNat) ++
  streamIf (filter.min_duration > 0)
    (" AND ai.duration >= " ++ toString filter.min_duration.toNat) ++
  streamIf (filter.excluded ≠ L.FILTER_ALL ∧ filter.excluded ≠ L.FILTER_ALL_EXCEPT_EXCLUDED)
    (" AND pi.excluded = " ++ toString filter.excluded.toInt) ++
  streamIf (filter.excluded = L.FILTER_ALL_EXCEPT_EXCLUDED)
    (" AND pi.excluded != " ++ toString filter.excluded.toInt) ++
  orderText filter.order_by ++
  streamIf (limit > 0) (" LIMIT " ++ toString limit.toInt ++
    streamIf (start > 1) (" OFFSET " ++ toString start.toInt))

/-- `c_str()`: the text up to the first NUL. -/
def cString (s : String) : String := String.ofList (s.toList.takeWhile (· ≠ '\x00'))

/-- The joined rows among the rows of a statement. -/
def Rows.joinedRows : Rows → List Joined
  | .joined rs => rs
  | _ => []

/-- The record that `Find` makes of a row. -/
def Joined.record (L : Ledger) (r : Joined) : PublisherInfo :=
  { L.publisherInfo r.ai.publisher_id r.ai.month.toInt32 r.ai.year.toInt32 with
    duration := r.ai.duration.toUInt64
    score := .val r.ai.score
    percent := r.ai.percent.toUInt64
    weight := .val r.ai.weight
    verified := columnBool r.pi.verified
    excluded := r.pi.excluded.toInt32
    category := r.ai.category.toInt32
    name := r.pi.name
    url := r.pi.url
    provider := r.pi.provider
    favicon_url := r.pi.favIcon
    reconcile_stamp := r.ai.reconcile_stamp.toUInt64 }

/-- The text that `Find` prepares. -/
def findText (L : Ledger) (start limit : Int32) (filter : PublisherInfoFilter) : SqlText :=
  ⟨.find, cString (findClauses L start limit filter)⟩

/-- `Find`, with the list as it leaves it. The rows that come before a failure have been
appended. -/
def find (E : Sqlite) (L : Ledger) (start limit : Int32) (filter : PublisherInfoFilter)
    (list : List PublisherInfo) : DbM (Bool × List PublisherInfo) := do
  if !(← init E) then return (false, list)
  DbM.tryCatch
    (do
      let (rows, done) ← stepSql E (findText L start limit filter) []
      return (done, list ++ rows.joinedRows.map (Joined.record L)))
    (return (false, list))

/-- `BuildFilterClauses`. What is to stream the stamp is inside the literal. -/
def buildFilterClauses (L : Ledger) (start limit : Int32) (filter : PublisherInfoFilter) : String :=
  streamIf (filter.id ≠ "") (" AND ai.publisher_id = " ++ filter.id) ++
  streamIf (filter.category ≠ L.ALL_CATEGORIES)
    (" AND ai.category = " ++ toString filter.category.toInt) ++
  streamIf (filter.month ≠ L.ANY) (" AND ai.month = " ++ toString filter.month.toInt) ++
  streamIf (filter.year > 0) (" AND ai.year = " ++ toString filter.year.toInt) ++
  streamIf (filter.reconcile_stamp > 0) " AND ai.reconcile_stamp << filter.reconcile_stamp" ++
  streamIf (filter.min_duration > 0)
    (" AND ai.duration >= " ++ toString filter.min_duration.toNat) ++
  streamIf (filter.excluded ≠ L.FILTER_ALL ∧ filter.excluded ≠ L.FILTER_ALL_EXCEPT_EXCLUDED)
    (" AND pi.excluded = " ++ toString filter.excluded.toInt) ++
  streamIf (filter.excluded = L.FILTER_ALL_EXCEPT_EXCLUDED)
    (" AND pi.excluded != " ++ toString filter.excluded.toInt) ++
  orderText filter.order_by ++
  streamIf (limit > 0) (" LIMIT " ++ toString limit.toInt ++
    streamIf (start > 1) (" OFFSET " ++ toString start.toInt))

/-- The counts among the rows of a statement. -/
def Rows.countRows : Rows → List UInt64
  | .counts ns => ns
  | _ => []

/-- The text that `Count` prepares. -/
def countText (L : Ledger) (filter : PublisherInfoFilter) : SqlText :=
  ⟨.count, buildFilterClauses L 0 0 filter⟩

/-- `Count`, with its assertion compiled out. `>>` runs the statement for its row, and the `++`
after it runs it once more. -/
def count (E : Sqlite) (L : Ledger) (filter : PublisherInfoFilter) : DbM Int32 := do
  if !(← init E) then return 0
  let rows ← runSql E (countText L filter) []
  let _ ← runSql E (countText L filter) []
  return (rows.countRows.getLast?.getD 0).toUInt32.toInt32

/-! ### `Find` on an initialised store -/

variable {E : Sqlite}

/-- A window or none. -/
def windowed {α : Type} : Option Window → List α → List α
  | none, rows => rows
  | some w, rows => w.slice rows

/-- A text of `Find` that is refused leaves the list as it was. -/
lemma find_refused {L : Ledger} {start limit : Int32} {filter : PublisherInfoFilter} {c : Conn}
    (list : List PublisherInfo) (hready : c.Ready)
    (h : E.prepare (findText L start limit filter) = none) :
    find E L start limit filter list c = (.ok (false, list), c.next) := by
  have hstep : stepSql E (findText L start limit filter) [] c
      = (.error .sqlite_exception, c.next) := by
    simp [stepSql, h, hready.failed]
  exact (DbM.bind_ok (init_of_ready hready)).trans (DbM.tryCatch_error (DbM.bind_error hstep))

/-- A text of `Find` that is a query appends its rows, or those before a failure. -/
lemma find_select {L : Ledger} {start limit : Int32} {filter : PublisherInfoFilter} {c : Conn}
    {core : Core} {w : Option Window} (list : List PublisherInfo) (hready : c.Ready)
    (h : E.prepare (findText L start limit filter) = some (.select core w)) :
    find E L start limit filter list c = (.ok (match c.fails 0 with
      | none => (true, list ++ (windowed w (E.find core c.file)).map (Joined.record L))
      | some k =>
          (false, list ++ ((windowed w (E.find core c.file)).take k).map (Joined.record L))),
      c.next) := by
  have heffect : E.effect (.select core w) [] c.file
      = some (c.file, .joined (windowed w (E.find core c.file))) := by
    cases w <;> rfl
  have hstep := stepSql_ready hready h (by simp) heffect
  refine (DbM.bind_ok (init_of_ready hready)).trans (DbM.tryCatch_ok ((DbM.bind_ok hstep).trans ?_))
  cases c.fails 0 <;> rfl

/-- A text that begins like a query of `Find` is a query, or is refused. -/
lemma prepare_find (E : Sqlite) (tail : String) :
    E.prepare ⟨.find, tail⟩ = none ∨ ∃ core w, E.prepare ⟨.find, tail⟩ = some (.select core w) := by
  cases hread : read ⟨.find, tail⟩ with
  | refuses => exact .inl (E.refuses _ hread)
  | accepts s =>
      right
      rw [E.accepts _ _ hread]
      rw [read] at hread
      split at hread
      · simp at hread
      · dsimp only at hread
        cases htail : readTail tail.toList with
        | accepts r =>
            simp only [htail, Reading.select, Reading.accepts.injEq] at hread
            exact ⟨_, _, congrArg some hread.symm⟩
        | refuses => simp [htail, Reading.select] at hread
        | outside => simp [htail, Reading.select] at hread
  | outside =>
      cases hprepare : E.prepare ⟨.find, tail⟩ with
      | none => exact .inl rfl
      | some s =>
          obtain ⟨core, rfl⟩ := E.outside _ _ rfl hread hprepare
          exact .inr ⟨core, none, rfl⟩

/-- When `Find` returns `true`, nothing has failed and its text was a query. -/
lemma find_true {L : Ledger} {start limit : Int32} {filter : PublisherInfoFilter} {c c' : Conn}
    {list list' : List PublisherInfo} (hready : c.Ready)
    (h : find E L start limit filter list c = (.ok (true, list'), c')) :
    c.fails 0 = none ∧ ∃ core w, E.prepare (findText L start limit filter) = some (.select core w) ∧
      list' = list ++ (windowed w (E.find core c.file)).map (Joined.record L) := by
  obtain hnone | ⟨core, w, hsome⟩ := prepare_find E (cString (findClauses L start limit filter))
  · rw [find_refused list hready hnone] at h
    simp at h
  · rw [find_select list hready hsome] at h
    cases hc : c.fails 0 with
    | none =>
        simp only [hc, Prod.mk.injEq, Except.ok.injEq, true_and] at h
        exact ⟨rfl, core, w, hsome, h.1.symm⟩
    | some k => simp [hc] at h

/-! ### The conditions of a filter -/

/-- A condition that a filter asks for. -/
def condIf (p : Prop) [Decidable p] (c : Cond) : List Cond := if p then [c] else []

namespace PublisherInfoFilter

variable (L : Ledger) (filter : PublisherInfoFilter)

/-- The conditions on the category and the period. -/
def periodConds : List Cond :=
  condIf (filter.category ≠ L.ALL_CATEGORIES) (.int .ai_category .eq filter.category.toInt) ++
  condIf (filter.month ≠ L.ANY) (.int .ai_month .eq filter.month.toInt) ++
  condIf (filter.year > 0) (.int .ai_year .eq filter.year.toInt)

/-- The condition on the stamp. -/
def stampConds : List Cond :=
  condIf (filter.reconcile_stamp > 0)
    (.int .ai_reconcile_stamp .eq filter.reconcile_stamp.toNat)

/-- The conditions on the duration and on exclusion. -/
def restConds : List Cond :=
  condIf (filter.min_duration > 0) (.int .ai_duration .ge filter.min_duration.toNat) ++
  condIf (filter.excluded ≠ L.FILTER_ALL ∧ filter.excluded ≠ L.FILTER_ALL_EXCEPT_EXCLUDED)
    (.int .pi_excluded .eq filter.excluded.toInt) ++
  condIf (filter.excluded = L.FILTER_ALL_EXCEPT_EXCLUDED)
    (.int .pi_excluded .ne filter.excluded.toInt)

/-- The conditions that a filter asks for. -/
def conds : List Cond :=
  condIf (filter.id ≠ "") (.text .ai_publisher_id filter.id) ++
    filter.periodConds L ++ filter.stampConds ++ filter.restConds L

/-- The rows of the join that a filter asks for. -/
def rows (db : Db) : List Joined := Query.rows ⟨filter.conds L, none⟩ db

end PublisherInfoFilter

/-! ### The clauses of a filter -/

lemma AddConds.append {ps qs : List (List Char × Cond)} (h : AddConds ps) (h' : AddConds qs) :
    AddConds (ps ++ qs) := by
  intro p hp
  obtain hp | hp := List.mem_append.mp hp
  · exact h p hp
  · exact h' p hp

/-- A clause that compares a column with a number. -/
def numberClause (p : Prop) [Decidable p] (head : String) (c : Column) (o : Op) (z : ℤ) :
    List (List Char × Cond) :=
  if p then [(head.toList ++ ' ' :: (toString z).toList, .int c o z)] else []

section NumberClause

variable {p : Prop} [Decidable p] {head : String} {c : Column} {o : Op} {z : ℤ}

lemma map_snd_numberClause : (numberClause p head c o z).map Prod.snd = condIf p (.int c o z) := by
  unfold numberClause condIf
  split <;> rfl

lemma toList_numberClause (text head : String) (c : Column) (o : Op)
    (h : text.toList = ' ' :: (head.toList ++ [' '])) :
    (streamIf p (text ++ toString z)).toList
      = ((numberClause p head c o z).map Prod.fst).flatMap (' ' :: ·) := by
  unfold numberClause streamIf
  split
  · simp [h]
  · rfl

lemma addConds_numberClause {f : Joined → Int64} (hclosed : Closed head.toList)
    (hhead : ∀ q, (lex head.toList).foldl Parse.step (.conds q) = .op q c o)
    (hc : c.field = .int f) (ho : o ≠ .shl) : AddConds (numberClause p head c o z) := by
  intro r hr
  unfold numberClause at hr
  split at hr
  · rw [List.mem_singleton.mp hr]
    exact addsCond_int hclosed hhead hc ho z
  · simp at hr

end NumberClause

section Clauses

variable (L : Ledger) (filter : PublisherInfoFilter)

/-- The clause that `Find` writes for the id. -/
def idClause : List (List Char × Cond) :=
  if filter.id ≠ "" then
    [("AND ai.publisher_id =".toList ++ ' ' :: '\'' :: (filter.id.toList ++ ['\'']),
      .text .ai_publisher_id filter.id)]
  else []

/-- The clauses of the category and the period. -/
def periodClauses : List (List Char × Cond) :=
  numberClause (filter.category ≠ L.ALL_CATEGORIES) "AND ai.category =" .ai_category .eq
    filter.category.toInt ++
  numberClause (filter.month ≠ L.ANY) "AND ai.month =" .ai_month .eq filter.month.toInt ++
  numberClause (filter.year > 0) "AND ai.year =" .ai_year .eq filter.year.toInt

/-- The clause that `Find` writes for the stamp. -/
def stampClause : List (List Char × Cond) :=
  numberClause (filter.reconcile_stamp > 0) "AND ai.reconcile_stamp =" .ai_reconcile_stamp .eq
    filter.reconcile_stamp.toNat

/-- The clauses of the duration and of exclusion. -/
def restClauses : List (List Char × Cond) :=
  numberClause (filter.min_duration > 0) "AND ai.duration >=" .ai_duration .ge
    filter.min_duration.toNat ++
  numberClause
    (filter.excluded ≠ L.FILTER_ALL ∧ filter.excluded ≠ L.FILTER_ALL_EXCEPT_EXCLUDED)
    "AND pi.excluded =" .pi_excluded .eq filter.excluded.toInt ++
  numberClause (filter.excluded = L.FILTER_ALL_EXCEPT_EXCLUDED) "AND pi.excluded !=" .pi_excluded
    .ne filter.excluded.toInt

lemma addConds_idClause (h : '\'' ∉ filter.id.toList) : AddConds (idClause filter) := by
  intro r hr
  unfold idClause at hr
  split at hr
  · rw [List.mem_singleton.mp hr]
    exact addsCond_text (by decide) (fun _ => rfl) rfl h
  · simp at hr

lemma addConds_periodClauses : AddConds (periodClauses L filter) :=
  ((addConds_numberClause (by decide) (fun _ => rfl) rfl (by decide)).append
    (addConds_numberClause (by decide) (fun _ => rfl) rfl (by decide))).append
    (addConds_numberClause (by decide) (fun _ => rfl) rfl (by decide))

lemma addConds_stampClause : AddConds (stampClause filter) :=
  addConds_numberClause (by decide) (fun _ => rfl) rfl (by decide)

lemma addConds_restClauses : AddConds (restClauses L filter) :=
  ((addConds_numberClause (by decide) (fun _ => rfl) rfl (by decide)).append
    (addConds_numberClause (by decide) (fun _ => rfl) rfl (by decide))).append
    (addConds_numberClause (by decide) (fun _ => rfl) rfl (by decide))

lemma map_snd_idClause :
    (idClause filter).map Prod.snd
      = condIf (filter.id ≠ "") (.text .ai_publisher_id filter.id) := by
  unfold idClause condIf
  split <;> rfl

lemma map_snd_periodClauses :
    (periodClauses L filter).map Prod.snd = filter.periodConds L := by
  simp only [periodClauses, List.map_append, map_snd_numberClause,
    PublisherInfoFilter.periodConds]

lemma map_snd_stampClause : (stampClause filter).map Prod.snd = filter.stampConds :=
  map_snd_numberClause

lemma map_snd_restClauses : (restClauses L filter).map Prod.snd = filter.restConds L := by
  simp only [restClauses, List.map_append, map_snd_numberClause, PublisherInfoFilter.restConds]

end Clauses

/-! ### The orders -/

/-- How `ORDER BY` reads the name of a column. -/
def orderColumn? (name : String) : Option Column :=
  if '\x00' ∈ name.toList then none
  else
    match lex name.toList with
    | [.word c] => bareColumn? c
    | [.word t, .sym ['.'], .word c] => column? t c
    | _ => none

/-- Every entry names a column of the query. -/
def NamesColumns (order_by : List (String × Bool)) : Prop :=
  ∀ it ∈ order_by, (orderColumn? it.1).isSome

/-- The direction of an entry. -/
def direction (asc : Bool) : List Char := if asc then "ASC".toList else "DESC".toList

/-- The pieces that the loop over `order_by` writes. -/
def orderPieces (order_by : List (String × Bool)) : List (List Char) :=
  order_by.flatMap fun it => ["ORDER BY".toList ++ ' ' :: it.1.toList, direction it.2]

lemma toList_orderText (order_by : List (String × Bool)) :
    (orderText order_by).toList = (orderPieces order_by).flatMap (' ' :: ·) := by
  rw [orderText, String.toList_join, List.flatMap_map, orderPieces, List.flatMap_assoc]
  congr 1
  funext ⟨name, asc⟩
  cases asc <;> simp [direction]

/-- The tokens of a name are words and dots. -/
lemma closed_of_orderColumn {name : String} {c : Column} (h : orderColumn? name = some c) :
    Closed name.toList ∧ '\x00' ∉ name.toList := by
  unfold orderColumn? at h
  split at h
  · simp at h
  · rename_i hnul
    refine ⟨?_, hnul⟩
    rw [Closed, ← Bool.not_eq_true]
    intro hopen
    obtain hdead | ⟨t, ht, hbad⟩ := bad_of_isOpen hopen
    · simp at hdead
    · change t ∈ lex name.toList at ht
      split at h
      · rename_i htokens
        rw [htokens] at ht
        obtain rfl := List.mem_singleton.mp ht
        simp [Token.Bad] at hbad
      · rename_i htokens
        rw [htokens] at ht
        simp only [List.mem_cons, List.not_mem_nil, or_false] at ht
        obtain rfl | rfl | rfl := ht <;> simp [Token.Bad] at hbad
      · simp at h

lemma lex_direction (asc : Bool) :
    lex (direction asc) = [.word (if asc then "asc".toList else "desc".toList)] := by
  cases asc <;> decide

/-- After `ORDER BY` and a direction the query is ordered. -/
lemma parse_direction {name : String} {c : Column} (h : orderColumn? name = some c) (q : Query)
    (asc : Bool) :
    (lex name.toList ++ lex (direction asc)).foldl Parse.step (.orderBy q)
      = .ordered { q with order := some (c, asc) } := by
  have hdirection : ∀ c, Parse.direction q c (if asc then "asc".toList else "desc".toList)
      = .ordered { q with order := some (c, asc) } := fun c => by
    cases asc <;> rfl
  rw [lex_direction]
  unfold orderColumn? at h
  split at h
  · simp at h
  · split at h
    · rename_i w htokens
      rw [htokens]
      simp only [List.cons_append, List.nil_append, List.foldl_cons, List.foldl_nil, Parse.step, h,
        Option.map_some, Option.getD_some, hdirection]
    · rename_i t w htokens
      rw [htokens]
      simp only [List.cons_append, List.nil_append, List.foldl_cons, List.foldl_nil, Parse.step, h,
        Option.map_some, Option.getD_some, hdirection]
    · simp at h

/-- How far the entries of `order_by` bring the reader: a second entry is refused. -/
def orderedParse (q : Query) : List (String × Bool) → Parse
  | [] => .conds q
  | [(name, asc)] => .ordered { q with order := (orderColumn? name).map (·, asc) }
  | _ => .refused

/-- At its end the text is a query with at most one order, or refused, whatever its conditions. -/
lemma orderedParse_cases (order_by : List (String × Bool)) :
    (∃ order, ∀ conds, (orderedParse ⟨conds, none⟩ order_by).finish
      = .accepts (⟨conds, order⟩, none)) ∨
      ∀ conds, (orderedParse ⟨conds, none⟩ order_by).finish = .refuses := by
  cases order_by with
  | nil => exact .inl ⟨none, fun _ => rfl⟩
  | cons it rest =>
      cases rest with
      | nil => exact .inl ⟨_, fun _ => rfl⟩
      | cons _ _ => exact .inr fun _ => rfl

lemma closed_orderPieces {order_by : List (String × Bool)} (h : NamesColumns order_by) :
    ∀ p ∈ orderPieces order_by, Closed p := by
  intro p hp
  obtain ⟨it, hit, hp⟩ := List.mem_flatMap.mp hp
  obtain ⟨c, hc⟩ := Option.isSome_iff_exists.mp (h it hit)
  have hby : Closed "ORDER BY".toList := by decide
  obtain rfl | rfl := List.mem_pair.mp hp
  · exact hby.append_space (closed_of_orderColumn hc).1
  · cases it.2 <;> decide

lemma lex_orderBy (name : List Char) :
    lex ("ORDER BY".toList ++ ' ' :: name)
      = .word "order".toList :: .word "by".toList :: lex name := by
  have hby : Closed "ORDER BY".toList := by decide
  have htokens : lex "ORDER BY".toList = [.word "order".toList, .word "by".toList] := by decide
  rw [lex_append_space _ hby, htokens]
  rfl

/-- **The orders**: none, one, or a refusal. -/
lemma parse_orders {order_by : List (String × Bool)} (h : NamesColumns order_by) (q : Query) :
    ((orderPieces order_by).flatMap lex).foldl Parse.step (.conds q) = orderedParse q order_by := by
  have hcons : ∀ (it : String × Bool) rest, (orderPieces (it :: rest)).flatMap lex
      = .word "order".toList :: .word "by".toList :: ((lex it.1.toList ++ lex (direction it.2)) ++
        (orderPieces rest).flatMap lex) := fun it rest => by
    have hpieces : orderPieces (it :: rest)
        = ("ORDER BY".toList ++ ' ' :: it.1.toList) :: direction it.2 :: orderPieces rest := rfl
    rw [hpieces, List.flatMap_cons, List.flatMap_cons, lex_orderBy]
    simp only [List.cons_append, List.append_assoc]
  cases order_by with
  | nil => rfl
  | cons it rest =>
      obtain ⟨name, asc⟩ := it
      obtain ⟨c, hc⟩ := Option.isSome_iff_exists.mp (h _ List.mem_cons_self)
      have hby : ∀ ts : List Token,
          (.word "order".toList :: .word "by".toList :: ts).foldl Parse.step (.conds q)
            = ts.foldl Parse.step (.orderBy q) := fun _ => rfl
      rw [hcons, hby, List.foldl_append, parse_direction hc]
      cases rest with
      | nil =>
          rw [orderedParse, show orderColumn? name = some c from hc]
          rfl
      | cons it' rest =>
          have hstep : Parse.step (.ordered { q with order := some (c, asc) })
              (.word "order".toList) = .refused := rfl
          rw [hcons, List.foldl_cons, hstep, parse_refused]
          rfl

/-! ### What the text of `Find` means -/

/-- The texts of the category and the period, before the rest of a text. -/
lemma toList_periodTexts (L : Ledger) (filter : PublisherInfoFilter) (rest : List Char) :
    (streamIf (filter.category ≠ L.ALL_CATEGORIES)
        (" AND ai.category = " ++ toString filter.category.toInt)).toList ++
      ((streamIf (filter.month ≠ L.ANY) (" AND ai.month = " ++ toString filter.month.toInt)).toList
        ++ ((streamIf (filter.year > 0) (" AND ai.year = " ++ toString filter.year.toInt)).toList
          ++ rest))
      = ((periodClauses L filter).map Prod.fst).flatMap (' ' :: ·) ++ rest := by
  rw [toList_numberClause " AND ai.category = " "AND ai.category =" .ai_category .eq (by simp),
    toList_numberClause " AND ai.month = " "AND ai.month =" .ai_month .eq (by simp),
    toList_numberClause " AND ai.year = " "AND ai.year =" .ai_year .eq (by simp)]
  simp only [periodClauses, List.map_append, List.flatMap_append, List.append_assoc]

/-- The texts of the duration and of exclusion, before the rest of a text. -/
lemma toList_restTexts (L : Ledger) (filter : PublisherInfoFilter) (rest : List Char) :
    (streamIf (filter.min_duration > 0)
        (" AND ai.duration >= " ++ toString filter.min_duration.toNat)).toList ++
      ((streamIf (filter.excluded ≠ L.FILTER_ALL ∧ filter.excluded ≠ L.FILTER_ALL_EXCEPT_EXCLUDED)
        (" AND pi.excluded = " ++ toString filter.excluded.toInt)).toList ++
        ((streamIf (filter.excluded = L.FILTER_ALL_EXCEPT_EXCLUDED)
          (" AND pi.excluded != " ++ toString filter.excluded.toInt)).toList ++ rest))
      = ((restClauses L filter).map Prod.fst).flatMap (' ' :: ·) ++ rest := by
  have hnat : ∀ n : ℕ, toString n = toString (n : ℤ) := fun _ => rfl
  rw [hnat,
    toList_numberClause " AND ai.duration >= " "AND ai.duration >=" .ai_duration .ge (by simp),
    toList_numberClause " AND pi.excluded = " "AND pi.excluded =" .pi_excluded .eq (by simp),
    toList_numberClause " AND pi.excluded != " "AND pi.excluded !=" .pi_excluded .ne (by simp)]
  simp only [restClauses, List.map_append, List.flatMap_append, List.append_assoc]

/-- The text of `Find` without a limit, as clauses and orders. -/
lemma toList_findClauses (L : Ledger) (filter : PublisherInfoFilter) :
    (findClauses L 0 0 filter).toList
      = ((idClause filter ++ periodClauses L filter ++ stampClause filter ++
          restClauses L filter).map Prod.fst ++ orderPieces filter.order_by).flatMap
            (' ' :: ·) := by
  have hid : (streamIf (filter.id ≠ "") (" AND ai.publisher_id = '" ++ filter.id ++ "'")).toList
      = ((idClause filter).map Prod.fst).flatMap (' ' :: ·) := by
    unfold streamIf idClause
    split
    · simp
    · rfl
  have hstamp : (streamIf (filter.reconcile_stamp > 0)
      (" AND ai.reconcile_stamp = " ++ toString filter.reconcile_stamp.toNat)).toList
      = ((stampClause filter).map Prod.fst).flatMap (' ' :: ·) := by
    have hnat : ∀ n : ℕ, toString n = toString (n : ℤ) := fun _ => rfl
    rw [hnat, toList_numberClause " AND ai.reconcile_stamp = " "AND ai.reconcile_stamp ="
      .ai_reconcile_stamp .eq (by simp), stampClause]
  have hlimit : ∀ text, streamIf ((0 : Int32) > 0) text = "" := fun _ => rfl
  simp only [findClauses, hlimit, String.toList_append, String.toList_empty, List.append_nil,
    List.append_assoc, hid, hstamp, toList_orderText, toList_periodTexts, toList_restTexts,
    List.map_append, List.flatMap_append]

/-- The tail of the text of `Find`: a query with the conditions of the filter. -/
lemma readTail_findClauses (L : Ledger) {filter : PublisherInfoFilter}
    (hid : '\'' ∉ filter.id.toList) (horder : NamesColumns filter.order_by) :
    readTail (findClauses L 0 0 filter).toList
      = (orderedParse ⟨filter.conds L, none⟩ filter.order_by).finish := by
  have hclauses := (((addConds_idClause filter hid).append
    (addConds_periodClauses L filter)).append (addConds_stampClause filter)).append
      (addConds_restClauses L filter)
  rw [toList_findClauses, readTail_clauses hclauses (closed_orderPieces horder),
    parse_orders horder]
  simp only [List.map_append, map_snd_idClause, map_snd_periodClauses, map_snd_stampClause,
    map_snd_restClauses, PublisherInfoFilter.conds]

lemma nul_notMem_toString (z : ℤ) : '\x00' ∉ (toString z).toList := by
  cases z with
  | ofNat n => exact nul_notMem_repr n
  | negSucc n =>
      have h : toString (Int.negSucc n) = "-" ++ (n + 1).repr := rfl
      rw [h, String.toList_append, List.mem_append, not_or]
      exact ⟨by decide, nul_notMem_repr (n + 1)⟩

/-- Clauses without NUL. -/
def NulFree (clauses : List (List Char × Cond)) : Prop := ∀ p ∈ clauses, '\x00' ∉ p.1

lemma NulFree.append {ps qs : List (List Char × Cond)} (h : NulFree ps) (h' : NulFree qs) :
    NulFree (ps ++ qs) := by
  intro p hp
  obtain hp | hp := List.mem_append.mp hp
  · exact h p hp
  · exact h' p hp

lemma nulFree_numberClause {p : Prop} [Decidable p] {head : String} {c : Column} {o : Op} {z : ℤ}
    (h : '\x00' ∉ head.toList) : NulFree (numberClause p head c o z) := by
  intro r hr
  unfold numberClause at hr
  split at hr
  · rw [List.mem_singleton.mp hr, List.mem_append, List.mem_cons, not_or, not_or]
    exact ⟨h, by decide, nul_notMem_toString z⟩
  · simp at hr

lemma nulFree_periodClauses (L : Ledger) (filter : PublisherInfoFilter) :
    NulFree (periodClauses L filter) :=
  ((nulFree_numberClause (by decide)).append (nulFree_numberClause (by decide))).append
    (nulFree_numberClause (by decide))

lemma nulFree_stampClause (filter : PublisherInfoFilter) : NulFree (stampClause filter) :=
  nulFree_numberClause (by decide)

lemma nulFree_restClauses (L : Ledger) (filter : PublisherInfoFilter) :
    NulFree (restClauses L filter) :=
  ((nulFree_numberClause (by decide)).append (nulFree_numberClause (by decide))).append
    (nulFree_numberClause (by decide))

lemma nulFree_idClause {filter : PublisherInfoFilter} (h : '\x00' ∉ filter.id.toList) :
    NulFree (idClause filter) := by
  intro r hr
  unfold idClause at hr
  split at hr
  · rw [List.mem_singleton.mp hr]
    have hhead : '\x00' ∉ "AND ai.publisher_id =".toList := by decide
    simp_all
  · simp at hr

/-- A text put together from clauses without NUL and from orders has none. -/
lemma nul_notMem_clauses {clauses : List (List Char × Cond)} (h : NulFree clauses)
    {order_by : List (String × Bool)} (horder : NamesColumns order_by) :
    '\x00' ∉ (clauses.map Prod.fst ++ orderPieces order_by).flatMap (' ' :: ·) := by
  intro hnul
  obtain ⟨p, hp, hnul⟩ := List.mem_flatMap.mp hnul
  rw [List.mem_cons] at hnul
  obtain hspace | hnul := hnul
  · revert hspace
    decide
  · obtain hp | hp := List.mem_append.mp hp
    · obtain ⟨r, hr, rfl⟩ := List.mem_map.mp hp
      exact h r hr hnul
    · obtain ⟨it, hit, hp⟩ := List.mem_flatMap.mp hp
      obtain ⟨c, hc⟩ := Option.isSome_iff_exists.mp (horder it hit)
      have hby : '\x00' ∉ "ORDER BY".toList := by decide
      obtain rfl | rfl := List.mem_pair.mp hp
      · rw [List.mem_append, List.mem_cons] at hnul
        obtain hnul | hspace | hnul := hnul
        · exact hby hnul
        · revert hspace
          decide
        · exact (closed_of_orderColumn hc).2 hnul
      · revert hnul
        cases it.2 <;> decide

lemma forall_ne_of_notMem {c : Char} {cs : List Char} (h : c ∉ cs) :
    ∀ d ∈ cs, decide (d ≠ c) = true := by
  intro d hd
  rw [decide_eq_true_eq]
  rintro rfl
  exact h hd

/-- A C string keeps what comes before the first NUL. -/
lemma cString_append {s : String} {cs ds : List Char} (hs : s.toList = cs ++ ds)
    (h : '\x00' ∉ cs) : (cString s).toList = cs ++ ds.takeWhile (· ≠ '\x00') := by
  rw [cString, String.toList_ofList, hs,
    List.takeWhile_append_of_pos (forall_ne_of_notMem h)]

lemma cString_eq_self {s : String} (h : '\x00' ∉ s.toList) : cString s = s := by
  refine String.toList_injective ?_
  rw [cString_append (List.append_nil _).symm h, List.takeWhile_nil, List.append_nil]

lemma nul_notMem_findClauses (L : Ledger) {filter : PublisherInfoFilter}
    (hnul : '\x00' ∉ filter.id.toList) (horder : NamesColumns filter.order_by) :
    '\x00' ∉ (findClauses L 0 0 filter).toList := by
  have hclauses := (((nulFree_idClause hnul).append (nulFree_periodClauses L filter)).append
    (nulFree_stampClause filter)).append (nulFree_restClauses L filter)
  rw [toList_findClauses]
  exact nul_notMem_clauses hclauses horder

/-- **What the text of `Find` means**: for an id without quotes and without NUL, and orders that
name columns, the query for the conditions of the filter. -/
theorem read_findText (L : Ledger) {filter : PublisherInfoFilter}
    (hid : '\'' ∉ filter.id.toList) (hnul : '\x00' ∉ filter.id.toList)
    (horder : NamesColumns filter.order_by) :
    read (findText L 0 0 filter)
      = (orderedParse ⟨filter.conds L, none⟩ filter.order_by).finish.select := by
  have htext := nul_notMem_findClauses L hnul horder
  rw [findText, cString_eq_self htext, read, if_neg htext, ← readTail_findClauses L hid horder]

/-- The text of `Find` is broken off inside an id with NUL. -/
theorem read_findText_of_nul (L : Ledger) (start limit : Int32) {filter : PublisherInfoFilter}
    (hid : '\'' ∉ filter.id.toList) (hnul : '\x00' ∈ filter.id.toList) :
    read (findText L start limit filter) = .refuses := by
  obtain ⟨as, bs, has, hnulas⟩ := List.eq_append_cons_of_mem hnul
  have hne : filter.id ≠ "" := by
    intro hempty
    simp [hempty] at hnul
  obtain ⟨rest, hrest⟩ : ∃ rest, (findClauses L start limit filter).toList
      = (' ' :: "AND ai.publisher_id =".toList ++ ' ' :: '\'' :: as) ++ '\x00' :: rest := by
    simp only [findClauses, streamIf, if_pos hne, String.toList_append, has, List.append_assoc,
      List.cons_append]
    exact ⟨_, rfl⟩
  have hhead : '\x00' ∉ ' ' :: "AND ai.publisher_id =".toList ++ [' ', '\''] := by decide
  have htext : (findText L start limit filter).tail.toList
      = ' ' :: "AND ai.publisher_id =".toList ++ ' ' :: '\'' :: as := by
    rw [findText, cString_append hrest (by simp_all), List.takeWhile_cons]
    simp
  have hquote : '\'' ∉ as := fun h => hid (by simp [has, h])
  have hnone : '\x00' ∉ (findText L start limit filter).tail.toList := by
    rw [htext]
    simp_all
  have hclosed : Closed "AND ai.publisher_id =".toList := by decide
  have hopen : lex ('\'' :: as) = [.illegal] := lexFrom_str_open hquote []
  have htokens : tailTokens (' ' :: "AND ai.publisher_id =".toList ++ ' ' :: '\'' :: as)
      = .num 1 :: (lex "AND ai.publisher_id =".toList ++ [.illegal]) := by
    have hlex := lex_append_space ('\'' :: as) hclosed
    rw [hopen] at hlex
    rw [← hlex]
    rfl
  have hread :
      readTail (' ' :: "AND ai.publisher_id =".toList ++ ' ' :: '\'' :: as) = .refuses := by
    rw [readTail, htokens, List.foldl_cons, List.foldl_append]
    rfl
  rw [read, if_neg hnone, findText]
  rw [findText] at htext
  simp only [htext, hread, Reading.select]

/-- **`Find` without a limit**, for an id without quotes and without NUL and at most one order:
it appends the rows of the filter. -/
theorem find_rows {L : Ledger} {filter : PublisherInfoFilter} {c : Conn}
    {order : Option (Column × Bool)} (list : List PublisherInfo) (hready : c.Ready)
    (hc : c.fails 0 = none) (hid : '\'' ∉ filter.id.toList) (hnul : '\x00' ∉ filter.id.toList)
    (horder : NamesColumns filter.order_by)
    (haccepts : ∀ conds, (orderedParse ⟨conds, none⟩ filter.order_by).finish
      = .accepts (⟨conds, order⟩, none)) :
    find E L 0 0 filter list c
      = (.ok (true, list ++
          (E.find (.query ⟨filter.conds L, order⟩) c.file).map (Joined.record L)), c.next) := by
  have hread := read_findText L hid hnul horder
  rw [haccepts] at hread
  have hfind := find_select list hready (E.accepts _ _ hread)
  rw [hc] at hfind
  exact hfind

end RewardsDriver.Store
