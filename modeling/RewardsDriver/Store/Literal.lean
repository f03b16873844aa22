import Mathlib.Data.List.TakeWhile
import RewardsDriver.Store.Selection

/-!
The id of a filter as a literal of SQL.

`Find` puts the id between quotes as it is, and cuts the text at the first NUL. An id with a quote
ends its own literal, or joins it with what comes after.

* `PublisherInfoFilter.OnlyId`, `IdIsData`: a filter for an id, and what it is to find.
* `idIsData_of_quotable`: **an id without quotes and NUL** is data.
* `toList_idText`, `accepted_id`: what the text of another id asks for, if it is accepted.
* `idIsData_iff`: an id is data if and only if it has neither, as far as its text is understood.
-/

namespace RewardsDriver.Store

open RewardsDriver.Sql

/-! ### The filter of an id -/

/-- A filter for an id, with every other field at its no-condition value. -/
structure PublisherInfoFilter.OnlyId (L : Ledger) (filter : PublisherInfoFilter) : Prop where
  id : filter.id ≠ ""
  category : filter.category = L.ALL_CATEGORIES
  month : filter.month = L.ANY
  year : ¬ filter.year > 0
  excluded : filter.excluded = L.FILTER_ALL
  min_duration : filter.min_duration = 0
  order_by : filter.order_by = []
  reconcile_stamp : filter.reconcile_stamp = 0

/-- Two contents with the same rows about a publisher. -/
structure SameOf (id : String) (db db' : Db) : Prop where
  activity_info : db'.activity_info.filter (fun a => a.publisher_id = id)
    = db.activity_info.filter fun a => a.publisher_id = id
  publisher_info : db'.publisher_info.row? id = db.publisher_info.row? id

/-- For every content, `Find` succeeds and finds exactly what is about the id; the rows about other
publishers make no difference. -/
structure IdIsData (E : Sqlite) (L : Ledger) (filter : PublisherInfoFilter) : Prop where
  finds : ∀ (c : Conn) db, c.Serves db → ∀ list, ∃ found,
    (find E L 0 0 filter list c).1 = .ok (true, list ++ found) ∧
      (∀ r ∈ found, r.id = filter.id) ∧
      ∀ j ∈ db.joined, j.ai.publisher_id = filter.id → j.record L ∈ found
  independent : ∀ (c c' : Conn) db db', c.Serves db → c'.Serves db' → SameOf filter.id db db' →
    ∀ list, ∃ success found found', (find E L 0 0 filter list c).1 = .ok (success, list ++ found) ∧
      (find E L 0 0 filter list c').1 = .ok (success, list ++ found') ∧ found'.Perm found

/-- An id that can stand between quotes. -/
def Quotable (id : String) : Prop := '\'' ∉ id.toList ∧ '\x00' ∉ id.toList

variable {E : Sqlite} {L : Ledger} {filter : PublisherInfoFilter}

lemma PublisherInfoFilter.OnlyId.conds (h : filter.OnlyId L) :
    filter.conds L = [.text .ai_publisher_id filter.id] := by
  simp [PublisherInfoFilter.conds, PublisherInfoFilter.periodConds,
    PublisherInfoFilter.stampConds, PublisherInfoFilter.restConds, condIf, h.id, h.category,
    h.month, h.year, h.excluded, h.min_duration, h.reconcile_stamp, L.filters_ne]

lemma PublisherInfoFilter.OnlyId.readable (h : filter.OnlyId L) (hid : '\'' ∉ filter.id.toList) :
    filter.Readable where
  id := hid
  length_le := by rw [h.order_by]; exact Nat.zero_le 1
  order_by := by
    rw [h.order_by]
    exact fun _ hit => absurd hit List.not_mem_nil

/-! ### Ids that can stand between quotes -/

/-- **An id without quotes and NUL** is data, for every content. -/
theorem idIsData_of_quotable (h : filter.OnlyId L) (hid : Quotable filter.id) :
    IdIsData E L filter := by
  rcases find_readable (E := E) L (h.readable hid.1) with ⟨hnul, -⟩ | ⟨-, order, hfind⟩
  · exact absurd hnul hid.2
  · have hperm : ∀ db : Db, (E.find (.query ⟨filter.conds L, order⟩) db).Perm
        (db.joined.filter fun r => r.ai.publisher_id = filter.id) := by
      intro db
      refine (E.find_perm _ db).trans ?_
      rw [Query.rows, h.conds]
      simp [Cond.holds, Column.field]
    refine ⟨fun c db hc list => ⟨_, congrArg Prod.fst (hfind list c db hc), fun r hr => ?_,
      fun j hj hjid => ?_⟩, fun c c' db db' hc hc' hsame list => ⟨true, _, _,
        congrArg Prod.fst (hfind list c db hc), congrArg Prod.fst (hfind list c' db' hc'), ?_⟩⟩
    · obtain ⟨j, hj, rfl⟩ := List.mem_map.mp hr
      have hmem := (hperm db).mem_iff.mp hj
      have hjid : j.ai.publisher_id = filter.id := by simpa using (List.mem_filter.mp hmem).2
      exact hjid
    · refine List.mem_map_of_mem ((hperm db).mem_iff.mpr ?_)
      exact List.mem_filter.mpr ⟨hj, by simpa using hjid⟩
    · refine List.Perm.map _ ((hperm db').trans ?_)
      have hjoined := filter_joined (p := fun id => id = filter.id) hsame.activity_info
        fun id hid => (of_decide_eq_true hid) ▸ hsame.publisher_info
      rw [hjoined]
      exact (hperm db).symm

/-! ### Ids that break off or end their literal -/

/-- What comes after the opening quote, up to the first NUL. -/
def quoted (id : String) : List Char := (id.toList ++ ['\'']).takeWhile (· ≠ '\x00')

/-- The text of an id. -/
lemma toList_idText (h : filter.OnlyId L) :
    (findText L 0 0 filter).tail.toList
      = ' ' :: "AND ai.publisher_id =".toList ++ ' ' :: '\'' :: quoted filter.id := by
  have hclauses : findClauses L 0 0 filter = " AND ai.publisher_id = '" ++ filter.id ++ "'" := by
    simp [findClauses, streamIf, orderText, h.id, h.category, h.month, h.year, h.excluded,
      h.min_duration, h.order_by, h.reconcile_stamp, L.filters_ne]
  have hlist : (findClauses L 0 0 filter).toList
      = (' ' :: "AND ai.publisher_id =".toList ++ [' ', '\'']) ++ (filter.id.toList ++ ['\'']) := by
    rw [hclauses]
    simp
  rw [findText, cString_append hlist (by decide), quoted]
  simp

/-- The tokens of the text of an id. -/
lemma tailTokens_idText (cs : List Char) :
    tailTokens (' ' :: "AND ai.publisher_id =".toList ++ ' ' :: '\'' :: cs)
      = .num 1 :: (lex "AND ai.publisher_id =".toList ++ lexFrom (.str []) cs) := by
  have hclosed : Closed "AND ai.publisher_id =".toList := by decide
  have hquote : lex ('\'' :: cs) = lexFrom (.str []) cs := rfl
  have hlex := lex_append_space ('\'' :: cs) hclosed
  rw [hquote] at hlex
  rw [← hlex]
  rfl

/-- The literal of an id that cannot stand between quotes is shorter than the id. -/
lemma length_literal {id : String} (hid : ¬ Quotable id) {r : List Char} {ts : List Token}
    (h : lexFrom (.str []) (quoted id) = .str r :: ts) : r.length < id.toList.length := by
  rcases lexFrom_str_cases (quoted id) [] with hillegal | ⟨r', ts', h', hle, hcount⟩
  · rw [hillegal] at h
    cases h
  · obtain ⟨rfl, rfl⟩ : r' = r ∧ ts' = ts := by
      rw [h'] at h
      simpa using h
    rw [List.length_nil, Nat.zero_add] at hle hcount
    by_cases hnul : '\x00' ∈ id.toList
    · obtain ⟨as, bs, has, hnulas⟩ := List.eq_append_cons_of_mem hnul
      have hquoted : quoted id = as := by
        rw [quoted, has, List.append_assoc,
          List.takeWhile_append_of_pos (forall_ne_of_notMem hnulas)]
        simp
      rw [hquoted] at hle
      rw [has, List.length_append, List.length_cons]
      omega
    · have hquote : '\'' ∈ id.toList := by
        by_contra hquote
        exact hid ⟨hquote, hnul⟩
      have hquoted : quoted id = id.toList ++ ['\''] := by
        have hnone : '\x00' ∉ id.toList ++ ['\''] := by
          rw [List.mem_append, not_or]
          exact ⟨hnul, by decide⟩
        rw [quoted, List.takeWhile_eq_self_iff.mpr (forall_ne_of_notMem hnone)]
      have hmany : (quoted id).count '\'' ≠ 1 := by
        rw [hquoted, List.count_append, List.count_singleton_self]
        have hpos := List.count_pos_iff.mpr hquote
        omega
      have hne : r'.length + 1 ≠ (quoted id).length := fun heq => hmany (hcount heq)
      have hlength : (quoted id).length = id.toList.length + 1 := by
        rw [hquoted, List.length_append, List.length_singleton]
      omega

/-- **What an accepted text asks for**: if the id cannot stand between quotes, for another one. -/
lemma accepted_id (h : filter.OnlyId L) (hid : ¬ Quotable filter.id) {q : Query}
    {w : Option Window} (hread : readTail (findText L 0 0 filter).tail.toList = .accepts (q, w)) :
    ∃ other ≠ filter.id, .text .ai_publisher_id other ∈ q.conds := by
  have hbeginning : ∀ ts : List Token,
      (.num 1 :: (lex "AND ai.publisher_id =".toList ++ ts)).foldl Parse.step .one
        = ts.foldl Parse.step (.op ⟨[], none⟩ .ai_publisher_id .eq) := by
    intro ts
    rw [List.foldl_cons, List.foldl_append]
    rfl
  rw [toList_idText h, readTail, tailTokens_idText, hbeginning] at hread
  rcases lexFrom_str_cases (quoted filter.id) [] with hillegal | ⟨r, ts, hstr, -, -⟩
  · rw [hillegal] at hread
    cases hread
  · refine ⟨String.ofList r, fun heq => ?_, ?_⟩
    · have hlt := length_literal hid hstr
      rw [← heq, String.toList_ofList] at hlt
      exact absurd hlt (lt_irrefl _)
    · rw [hstr, List.foldl_cons] at hread
      have hkeeps : (Parse.step (.op ⟨[], none⟩ .ai_publisher_id .eq) (.str r)).Keeps
          (.text .ai_publisher_id (String.ofList r)) :=
        List.mem_append_right _ (List.mem_singleton_self _)
      exact (hkeeps.foldl ts).mem hread

/-- An activity of an id. -/
def idActivity (id : String) : ActivityRow := ⟨id, 5, 1, 100, 1, 2, 7, 2018, 1⟩

/-- The publisher of an id. -/
def idPublisher (id : String) : PublisherRow := { samplePublisher with publisher_id := id }

/-- A store with one activity of an id. -/
def idDb (id : String) : Db :=
  { Db.fresh with
    publisher_info := .replace .empty (idPublisher id)
    activity_info := [idActivity id] }

lemma idDb_serves (id : String) : (Conn.on (idDb id)).Serves (idDb id) :=
  ⟨⟨rfl, rfl, Db.fresh_complete⟩, rfl, rfl⟩

/-- The activity, joined with its publisher. -/
lemma joined_idDb (id : String) : (idDb id).joined = [⟨idActivity id, idPublisher id⟩] := by
  have hrow : (idDb id).publisher_info.row? (idActivity id).publisher_id = some (idPublisher id) :=
    UniqueTable.row?_replace_self .empty (idPublisher id)
  have hactivity : (idDb id).activity_info = [idActivity id] := rfl
  rw [Db.joined, hactivity, List.flatMap_singleton, hrow]
  rfl

/-- A text with an illegal token is refused. -/
def Sqlite.RefusesIllegal (E : Sqlite) : Prop :=
  ∀ t : SqlText, t.head = .find → .illegal ∈ tailTokens t.tail.toList → E.prepare t = none

/-- The reader follows the text of a filter, or the text has an illegal token. -/
def Understood (L : Ledger) (filter : PublisherInfoFilter) : Prop :=
  read (findText L 0 0 filter) ≠ .outside ∨
    .illegal ∈ tailTokens (findText L 0 0 filter).tail.toList

/-- A text that is understood is refused, or it is a query that the reader follows. -/
lemma Understood.cases (hillegal : E.RefusesIllegal) (h : Understood L filter) :
    E.prepare (findText L 0 0 filter) = none ∨ ∃ q w,
      readTail (findText L 0 0 filter).tail.toList = .accepts (q, w) ∧
      E.prepare (findText L 0 0 filter) = some (.select (.query q) w) := by
  rcases h with hread | hbad
  · cases htext : read (findText L 0 0 filter) with
    | outside => exact absurd htext hread
    | refuses => exact .inl (E.refuses _ htext)
    | accepts s =>
        rcases prepare_find E (findText L 0 0 filter).tail with hnone | ⟨core, w, hsome⟩
        · exact .inl hnone
        · have hs : s = .select core w := by
            have hprepare := E.accepts _ _ htext
            exact Option.some.inj (hprepare.symm.trans hsome)
          subst hs
          obtain ⟨-, q, rfl, htail⟩ := readTail_of_read rfl htext
          exact .inr ⟨q, w, htail, hsome⟩
  · exact .inl (hillegal _ rfl hbad)

/-- An id that cannot stand between quotes is not found where it is. -/
lemma not_idIsData (hillegal : E.RefusesIllegal) (h : filter.OnlyId L)
    (hunderstood : Understood L filter) (hid : ¬ Quotable filter.id) : ¬ IdIsData E L filter := by
  intro hdata
  have hserves := idDb_serves filter.id
  obtain ⟨found, hfind, -, hall⟩ := hdata.finds _ _ hserves []
  rcases hunderstood.cases hillegal with hnone | ⟨q, w, htail, hsome⟩
  · rw [find_refused [] hserves.ready hnone] at hfind
    cases hfind
  · obtain ⟨other, hne, hmem⟩ := accepted_id h hid htail
    have hrows : E.find (.query q) (idDb filter.id) = [] := by
      have hperm := E.find_perm q (idDb filter.id)
      have hempty : q.rows (idDb filter.id) = [] := by
        rw [Query.rows, joined_idDb, List.filter_eq_nil_iff]
        intro j hj hholds
        have hheld := List.all_eq_true.mp hholds _ hmem
        rw [List.mem_singleton.mp hj] at hheld
        simp only [Cond.holds, Column.field, decide_eq_true_eq] at hheld
        exact hne hheld.symm
      rw [hempty] at hperm
      exact hperm.eq_nil
    rw [find_select [] hserves.ready hsome, hserves.spared, hserves.file, hrows] at hfind
    have hfound : found = [] := by cases w <;> simpa [windowed, Window.slice] using hfind.symm
    have hlisted := hall _ (by rw [joined_idDb]; exact List.mem_singleton_self _) rfl
    rw [hfound] at hlisted
    exact absurd hlisted List.not_mem_nil

/-- **The id is data** for every content if it has no quote and no NUL, and only then, as far as
its text is understood. -/
theorem idIsData_iff (hillegal : E.RefusesIllegal) (h : filter.OnlyId L) :
    (Quotable filter.id → IdIsData E L filter) ∧
      (Understood L filter → (IdIsData E L filter ↔ Quotable filter.id)) := by
  refine ⟨idIsData_of_quotable h, fun hunderstood => ⟨fun hdata => ?_, idIsData_of_quotable h⟩⟩
  by_contra hid
  exact not_idIsData hillegal h hunderstood hid hdata

/-- The filter of an id. -/
def idFilter (L : Ledger) (id : String) : PublisherInfoFilter :=
  ⟨id, L.ALL_CATEGORIES, L.ANY, 0, L.FILTER_ALL, 0, [], 0⟩

lemma onlyId_idFilter (L : Ledger) {id : String} (hid : id ≠ "") : (idFilter L id).OnlyId L :=
  ⟨hid, rfl, rfl, by simp [idFilter], rfl, rfl, rfl, rfl⟩

/-- The reference engine accepts no text with an illegal token. -/
lemma reference_refusesIllegal : reference.RefusesIllegal := by
  intro t ht hbad
  change referencePrepare t = none
  rw [referencePrepare, read]
  split
  · rename_i s hread
    split at hread
    · cases hread
    · simp only [ht, readTail] at hread
      rcases parse_bad ⟨.illegal, hbad, .inl rfl⟩ .one with hparse | hparse <;>
        simp [hparse, Parse.finish, Reading.select] at hread
  · rfl

/-- The id of a page is data. -/
theorem idIsData_iff_plain : IdIsData reference sampleLedger (idFilter sampleLedger "brave.com") :=
  (idIsData_iff reference_refusesIllegal (onlyId_idFilter sampleLedger (by decide))).1
    ⟨by decide, by decide⟩

/-- An id with a quote at its end leaves the literal open. -/
theorem quoted_id_refused : ¬ ∀ (E : Sqlite) (L : Ledger) (filter : PublisherInfoFilter),
    filter.OnlyId L → IdIsData E L filter := by
  intro hall
  have honly : (idFilter sampleLedger "brave.com'").OnlyId sampleLedger :=
    onlyId_idFilter sampleLedger (by decide)
  have hunderstood : Understood sampleLedger (idFilter sampleLedger "brave.com'") :=
    .inl (by decide)
  exact not_idIsData reference_refusesIllegal honly hunderstood (fun h => h.1 (by decide))
    (hall reference sampleLedger _ honly)

end RewardsDriver.Store
