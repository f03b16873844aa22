import RewardsDriver.Store.Find

/-!
`Count` against `Find` of the same filter.

* `countedId?`: the id that the text of `Count` compares with, if it is written without quotes as
  an integer.
* `read_countText`, `read_countText_stamp`, `read_countText_unreadable`: **what the text of
  `Count` means**, or why it is refused.
* `count_query`, `count_refused`: `Count` on an initialised store.
* `Sqlite.OnlySorts`: orders that leave the rows; `onlySorts_of_namesColumns`: such are columns.
* `Aligned`, `Plain`, `count_agrees`: **when the result is the number of records** that `Find`
  appends.
-/

namespace RewardsDriver.Store

open RewardsDriver.Sql

/-! ### Ids without quotes -/

/-- The id that the text of `Count` compares with: an integer is compared by its digits. -/
def countedId? (id : String) : Option String :=
  if id = "" then some ""
  else if '\x00' ∈ id.toList ∨ '\'' ∈ id.toList then none
  else
    match lex id.toList with
    | [.num n] => if n < 2 ^ 63 then some (toString (n : ℤ)) else none
    | [.sym ['-'], .num n] => if n < 2 ^ 63 then some (toString (-n : ℤ)) else none
    | _ => none

/-- A text whose tokens are all good is closed. -/
lemma closed_of_good {cs : List Char} (h : ∀ t ∈ lex cs, ¬ t.Bad) : Closed cs := by
  rw [Closed, ← Bool.not_eq_true]
  intro hopen
  obtain hdead | ⟨t, ht, hbad⟩ := bad_of_isOpen hopen
  · simp at hdead
  · exact h t ht hbad

/-- An id that is read as an operand makes a condition. -/
lemma addsCond_operand {operand : List Char} {id' : String} (hgood : ∀ t ∈ lex operand, ¬ t.Bad)
    (hparse : ∀ q, (lex operand).foldl Parse.step (.op q .ai_publisher_id .eq)
      = .conds (q.and (.text .ai_publisher_id id'))) :
    AddsCond ("AND ai.publisher_id =".toList ++ ' ' :: operand) (.text .ai_publisher_id id') := by
  have hclosed : Closed "AND ai.publisher_id =".toList := by decide
  exact ⟨hclosed.append_space (closed_of_good hgood), fun q =>
    parse_condition hclosed rfl (hparse q)⟩

/-- An id that is written as an integer makes a condition. -/
lemma addsCond_countedId {id id' : String} (h : countedId? id = some id') (hne : id ≠ "") :
    AddsCond ("AND ai.publisher_id =".toList ++ ' ' :: id.toList) (.text .ai_publisher_id id') := by
  have hcond : ∀ z : ℤ, |z| < 2 ^ 63 →
      intCond? .ai_publisher_id .eq z = some (.text .ai_publisher_id (toString z)) :=
    fun z hz => by
      simp only [intCond?, Column.field]
      rw [if_pos hz]
  unfold countedId? at h
  rw [if_neg hne] at h
  split at h
  · simp at h
  · split at h
    · rename_i n htokens
      split at h
      · rename_i hn
        obtain rfl := Option.some.inj h
        have hz : |(n : ℤ)| < 2 ^ 63 := by
          rw [Nat.abs_cast]
          exact_mod_cast hn
        refine addsCond_operand (by simp [htokens, Token.Bad]) fun q => ?_
        simp only [htokens, List.foldl_cons, List.foldl_nil, Parse.step, hcond _ hz, Parse.ofCond]
      · simp at h
    · rename_i n htokens
      split at h
      · rename_i hn
        obtain rfl := Option.some.inj h
        have hz : |(-n : ℤ)| < 2 ^ 63 := by
          rw [abs_neg, Nat.abs_cast]
          exact_mod_cast hn
        refine addsCond_operand (by simp [htokens, Token.Bad]) fun q => ?_
        simp only [htokens, List.foldl_cons, List.foldl_nil, Parse.step, hcond _ hz, Parse.ofCond]
      · simp at h
    · simp at h

/-- An id that SQLite refuses after `ai.publisher_id =`: a name that the query does not have. -/
def Unreadable (id : String) : Prop :=
  Closed id.toList ∧
    match (lex id.toList).foldl Parse.step (.op ⟨[], none⟩ .ai_publisher_id .eq) with
    | .refused => True
    | .name _ w => unknownName w = true
    | _ => False

/-! ### The text of `Count` -/

section Text

variable (L : Ledger) (filter : PublisherInfoFilter)

/-- What `BuildFilterClauses` writes for the id. -/
def idPieces : List (List Char) :=
  if filter.id ≠ "" then ["AND ai.publisher_id =".toList ++ ' ' :: filter.id.toList] else []

/-- What `BuildFilterClauses` writes for the stamp. -/
def stampPieces : List (List Char) :=
  if filter.reconcile_stamp > 0 then
    ["AND ai.reconcile_stamp << filter.reconcile_stamp".toList]
  else []

/-- The pieces of the text of `Count` between the id and the orders. -/
def piecesAfterId : List (List Char) :=
  (periodClauses L filter).map Prod.fst ++ (stampPieces filter ++
    (restClauses L filter).map Prod.fst)

/-- The text of the orders as one piece, if there is any. -/
def ordersPiece? (order_by : List (String × Bool)) : Option (List Char) :=
  match (orderText order_by).toList with
  | [] => none
  | _ :: piece => some piece

lemma toList_buildFilterClauses :
    (buildFilterClauses L 0 0 filter).toList
      = ((idPieces filter ++ piecesAfterId L filter).flatMap (' ' :: ·)) ++
        (orderText filter.order_by).toList := by
  have hid : (streamIf (filter.id ≠ "") (" AND ai.publisher_id = " ++ filter.id)).toList
      = (idPieces filter).flatMap (' ' :: ·) := by
    unfold streamIf idPieces
    split
    · simp
    · rfl
  have hstamp : (streamIf (filter.reconcile_stamp > 0)
      " AND ai.reconcile_stamp << filter.reconcile_stamp").toList
      = (stampPieces filter).flatMap (' ' :: ·) := by
    unfold streamIf stampPieces
    split
    · simp
    · rfl
  have hlimit : ∀ text, streamIf ((0 : Int32) > 0) text = "" := fun _ => rfl
  simp only [buildFilterClauses, hlimit, String.toList_append, String.toList_empty,
    List.append_nil, List.append_assoc, hid, hstamp, toList_periodTexts,
    toList_restTexts, piecesAfterId, List.flatMap_append]

end Text

/-! ### What the text of `Count` means -/

/-- A piece that begins with a word, as every piece after the id does. -/
def StartsWithWord (p : List Char) : Prop := ∃ w ts, lex p = .word w :: ts

lemma startsWithWord_numberClause {p : Prop} [Decidable p] {head : String} {c : Column} {o : Op}
    {z : ℤ} (hclosed : Closed head.toList) (h : StartsWithWord head.toList) :
    ∀ r ∈ (numberClause p head c o z).map Prod.fst, StartsWithWord r := by
  intro r hr
  unfold numberClause at hr
  split at hr
  · rw [List.map_singleton, List.mem_singleton] at hr
    subst hr
    obtain ⟨w, ts, hw⟩ := h
    exact ⟨w, ts ++ lex (toString z).toList, by rw [lex_append_space _ hclosed, hw]; rfl⟩
  · simp at hr

lemma piecesAfterId_spec (L : Ledger) (filter : PublisherInfoFilter) :
    ∀ p ∈ piecesAfterId L filter, Closed p ∧ StartsWithWord p := by
  have hstamp : Closed "AND ai.reconcile_stamp << filter.reconcile_stamp".toList ∧
      StartsWithWord "AND ai.reconcile_stamp << filter.reconcile_stamp".toList :=
    ⟨by decide, _, _, rfl⟩
  intro p hp
  simp only [piecesAfterId, List.mem_append] at hp
  obtain hp | hp | hp := hp
  · refine ⟨(addConds_periodClauses L filter).closed p hp, ?_⟩
    simp only [periodClauses, List.map_append, List.mem_append] at hp
    obtain (hp | hp) | hp := hp <;>
      exact startsWithWord_numberClause (by decide) ⟨_, _, rfl⟩ p hp
  · unfold stampPieces at hp
    split at hp
    · rw [List.mem_singleton.mp hp]
      exact hstamp
    · simp at hp
  · refine ⟨(addConds_restClauses L filter).closed p hp, ?_⟩
    simp only [restClauses, List.map_append, List.mem_append] at hp
    obtain (hp | hp) | hp := hp <;>
      exact startsWithWord_numberClause (by decide) ⟨_, _, rfl⟩ p hp

/-- The orders, whatever their texts, begin with a word. -/
lemma toList_orderText_piece (order_by : List (String × Bool)) :
    (orderText order_by).toList = (ordersPiece? order_by).toList.flatMap (' ' :: ·) ∧
      ∀ p ∈ (ordersPiece? order_by).toList, StartsWithWord p := by
  cases order_by with
  | nil => exact ⟨rfl, fun p hp => by cases hp⟩
  | cons it rest =>
      have htext : (orderText (it :: rest)).toList
          = ' ' :: ("ORDER BY".toList ++ ' ' :: (it.1.toList ++ ' ' :: (direction it.2 ++
            (orderText rest).toList))) := by
        simp only [toList_orderText, orderPieces, List.flatMap_cons, List.cons_append,
          List.nil_append, List.append_assoc]
      have hpiece : (ordersPiece? (it :: rest)).toList = ["ORDER BY".toList ++ ' ' ::
          (it.1.toList ++ ' ' :: (direction it.2 ++ (orderText rest).toList))] := by
        rw [ordersPiece?, htext]
        rfl
      rw [htext, hpiece, List.flatMap_singleton]
      refine ⟨rfl, fun p hp => ?_⟩
      rw [List.mem_singleton.mp hp]
      exact ⟨_, _, lex_orderBy _⟩

/-- What a refused or unknown operand makes of the pieces after it. -/
lemma parse_unreadable {pieces : List (List Char)} (h : ∀ p ∈ pieces, StartsWithWord p) {q : Query}
    {w : List Char} (hw : unknownName w = true) :
    ((pieces.flatMap lex).foldl Parse.step (.name q w)).finish = .refuses := by
  cases pieces with
  | nil => simp [Parse.finish, hw]
  | cons p ps =>
      obtain ⟨w', ts, hp⟩ := h p List.mem_cons_self
      have hstep : Parse.step (.name q w) (.word w') = .refused := by simp [Parse.step, hw]
      rw [List.flatMap_cons, hp, List.cons_append, List.foldl_cons, hstep, parse_refused]
      rfl

/-- A text that is refused up to its tail is refused. -/
lemma read_count_refuses {tail : String} (h : readTail tail.toList = .refuses) :
    read ⟨.count, tail⟩ = .refuses := by
  rw [read]
  split
  · rfl
  · simp only [h, Reading.count]

/-- The tail of the text of `Count`, piece by piece. -/
lemma readTail_buildFilterClauses (L : Ledger) {filter : PublisherInfoFilter}
    (hid : ∀ p ∈ idPieces filter, Closed p) :
    readTail (buildFilterClauses L 0 0 filter).toList
      = (((idPieces filter).flatMap lex ++ ((piecesAfterId L filter).flatMap lex ++
          (ordersPiece? filter.order_by).toList.flatMap lex)).foldl Parse.step
            (.conds ⟨[], none⟩)).finish := by
  have hpieces : ∀ p ∈ idPieces filter ++ piecesAfterId L filter, Closed p := by
    intro p hp
    obtain hp | hp := List.mem_append.mp hp
    · exact hid p hp
    · exact (piecesAfterId_spec L filter p hp).1
  have hone : Parse.step .one (.num 1) = .conds ⟨[], none⟩ := rfl
  rw [toList_buildFilterClauses, (toList_orderText_piece _).1, ← List.flatMap_append, readTail,
    tailTokens_flatMap_toList hpieces, List.foldl_cons, hone, List.flatMap_append,
    List.flatMap_append, List.append_assoc]

/-- **An id without quotes** that names nothing makes the text refused. -/
theorem read_countText_unreadable (L : Ledger) {filter : PublisherInfoFilter}
    (hne : filter.id ≠ "") (h : Unreadable filter.id) : read (countText L filter) = .refuses := by
  have hclosed : Closed "AND ai.publisher_id =".toList := by decide
  have hhead : (lex "AND ai.publisher_id =".toList).foldl Parse.step (.conds ⟨[], none⟩)
      = .op ⟨[], none⟩ .ai_publisher_id .eq := rfl
  have hidPieces : ∀ p ∈ idPieces filter, Closed p := by
    intro p hp
    rw [idPieces, if_pos hne, List.mem_singleton] at hp
    subst hp
    exact hclosed.append_space h.1
  refine read_count_refuses ?_
  rw [readTail_buildFilterClauses L hidPieces, idPieces, if_pos hne, List.flatMap_singleton,
    lex_append_space _ hclosed, List.append_assoc, List.foldl_append, hhead, List.foldl_append,
    ← List.flatMap_append]
  have hparse := h.2
  split at hparse
  · rename_i hrefused
    rw [hrefused, parse_refused]
    rfl
  · rename_i q w hname
    rw [hname]
    refine parse_unreadable (fun p hp => ?_) hparse
    obtain hp | hp := List.mem_append.mp hp
    · exact (piecesAfterId_spec L filter p hp).2
    · exact (toList_orderText_piece _).2 p hp
  · exact absurd hparse not_false

/-- An id that is written as an integer has neither NUL nor quotes, and its digits are a text. -/
lemma countedId_spec {id id' : String} (h : countedId? id = some id') :
    '\x00' ∉ id.toList ∧ '\'' ∉ id.toList ∧ (id = "" ↔ id' = "") := by
  have hdigits : ∀ z : ℤ, toString z ≠ "" := fun z hz => by
    have htokens := (lex_toString z).1
    rw [hz, intTokens] at htokens
    split at htokens <;> cases htokens
  unfold countedId? at h
  split at h
  · rename_i hempty
    obtain rfl := Option.some.inj h
    simp [hempty]
  · rename_i hne
    split at h
    · simp at h
    · rename_i hclean
      rw [not_or] at hclean
      refine ⟨hclean.1, hclean.2, iff_of_false hne ?_⟩
      split at h
      · split at h
        · exact Option.some.inj h ▸ hdigits _
        · simp at h
      · split at h
        · exact Option.some.inj h ▸ hdigits _
        · simp at h
      · simp at h

/-- The clause of the id, for an id that is written as an integer. -/
def countedIdClause (filter : PublisherInfoFilter) (id' : String) : List (List Char × Cond) :=
  (idPieces filter).map fun p => (p, .text .ai_publisher_id id')

lemma map_fst_countedIdClause (filter : PublisherInfoFilter) (id' : String) :
    (countedIdClause filter id').map Prod.fst = idPieces filter := by
  rw [countedIdClause, List.map_map]
  exact List.map_id _

section Counted

variable {filter : PublisherInfoFilter} {id' : String} (h : countedId? filter.id = some id')

include h

lemma addConds_countedIdClause : AddConds (countedIdClause filter id') := by
  intro r hr
  unfold countedIdClause idPieces at hr
  split at hr
  · rw [List.map_singleton, List.mem_singleton] at hr
    subst hr
    exact addsCond_countedId h ‹_›
  · simp at hr

lemma map_snd_countedIdClause :
    (countedIdClause filter id').map Prod.snd = condIf (id' ≠ "") (.text .ai_publisher_id id') := by
  have hiff := (countedId_spec h).2.2
  unfold countedIdClause idPieces condIf
  by_cases hid : filter.id = ""
  · simp [hid, hiff.mp hid]
  · rw [if_pos hid, if_pos (fun h' => hid (hiff.mpr h'))]
    rfl

lemma nulFree_countedIdClause : NulFree (countedIdClause filter id') := by
  intro r hr
  unfold countedIdClause idPieces at hr
  split at hr
  · rw [List.map_singleton, List.mem_singleton] at hr
    subst hr
    have hhead : '\x00' ∉ "AND ai.publisher_id =".toList := by decide
    have hnul := (countedId_spec h).1
    simp_all
  · simp at hr

/-- **The text of `Count` without a stamp and without orders** is the query for the conditions of
the filter, with the id by its digits. -/
theorem read_countText (L : Ledger) (horder : filter.order_by = [])
    (hstamp : filter.reconcile_stamp = 0) :
    read (countText L filter)
      = .accepts (.count (.query ⟨({ filter with id := id' } : PublisherInfoFilter).conds L,
          none⟩)) := by
  have hno : ¬ filter.reconcile_stamp > 0 := by
    rw [hstamp]
    decide
  have hclauses := ((addConds_countedIdClause h).append (addConds_periodClauses L filter)).append
    (addConds_restClauses L filter)
  have hnul := ((nulFree_countedIdClause h).append (nulFree_periodClauses L filter)).append
    (nulFree_restClauses L filter)
  have htext : (buildFilterClauses L 0 0 filter).toList
      = ((countedIdClause filter id' ++ periodClauses L filter ++ restClauses L filter).map
          Prod.fst ++ orderPieces []).flatMap (' ' :: ·) := by
    have hempty : (orderText filter.order_by).toList = [] := by rw [horder]; rfl
    rw [toList_buildFilterClauses, piecesAfterId, stampPieces, if_neg hno, hempty]
    simp only [List.map_append, map_fst_countedIdClause, List.nil_append, List.append_assoc,
      List.append_nil, orderPieces, List.flatMap_nil]
  have hnone : NamesColumns [] := fun _ hit => absurd hit List.not_mem_nil
  have htail : readTail (buildFilterClauses L 0 0 filter).toList
      = .accepts (⟨({ filter with id := id' } : PublisherInfoFilter).conds L, none⟩, none) := by
    have hconds : ({ filter with id := id' } : PublisherInfoFilter).stampConds = [] := if_neg hno
    rw [htext, readTail_clauses hclauses (closed_orderPieces hnone), parse_orders hnone]
    simp only [List.map_append, map_snd_countedIdClause h, map_snd_periodClauses,
      map_snd_restClauses, PublisherInfoFilter.conds, hconds, List.append_nil]
    rfl
  rw [countText, read, if_neg (htext ▸ nul_notMem_clauses hnul hnone)]
  simp only [htail, Reading.count]

/-- **The text of `Count` with a stamp** is refused: there is no column `filter.reconcile_stamp`. -/
theorem read_countText_stamp (L : Ledger) (hstamp : filter.reconcile_stamp > 0) :
    read (countText L filter) = .refuses := by
  have hrefused : ∀ q, (lex "AND ai.reconcile_stamp << filter.reconcile_stamp".toList).foldl
      Parse.step (.conds q) = .refused := fun _ => rfl
  have hclauses := (addConds_countedIdClause h).append (addConds_periodClauses L filter)
  have hidPieces : ∀ p ∈ idPieces filter, Closed p := fun p hp =>
    (addConds_countedIdClause h).closed p (by rwa [map_fst_countedIdClause])
  refine read_count_refuses ?_
  have hparse := hclauses.parse ⟨[], none⟩
  rw [List.map_append, map_fst_countedIdClause, List.flatMap_append] at hparse
  rw [readTail_buildFilterClauses L hidPieces, piecesAfterId, stampPieces, if_pos hstamp,
    List.flatMap_append, List.append_assoc, ← List.append_assoc, List.foldl_append, hparse,
    List.flatMap_append, List.flatMap_singleton, List.append_assoc, List.foldl_append, hrefused,
    parse_refused]
  rfl

end Counted

/-! ### Orders that only sort -/

variable {E : Sqlite}

/-- A text of orders that only sorts, for the engine: after any conditions that it follows, it
leaves the rows of a query and their number. Such are the columns, a position that both queries
have, and an expression over one row. -/
structure Sqlite.OnlySorts (E : Sqlite) (text : String) : Prop where
  nul : '\x00' ∉ text.toList
  find : ∀ tail conds, read ⟨.find, tail⟩ = .accepts (.select (.query ⟨conds, none⟩) none) →
    ∃ core, E.prepare ⟨.find, tail ++ text⟩ = some (.select core none) ∧
      ∀ db, (E.find core db).Perm (Query.rows ⟨conds, none⟩ db)
  count : ∀ tail conds, read ⟨.count, tail⟩ = .accepts (.count (.query ⟨conds, none⟩)) →
    ∃ core, E.prepare ⟨.count, tail ++ text⟩ = some (.count core) ∧
      ∀ db, E.effect (.count core) [] db
        = some (db, .counts [UInt64.ofNat (Query.rows ⟨conds, none⟩ db).length])

/-- The tail of a text that means a query of `Count`. -/
lemma readTail_of_read_count {tail : String} {q : Query}
    (h : read ⟨.count, tail⟩ = .accepts (.count (.query q))) :
    '\x00' ∉ tail.toList ∧ readTail tail.toList = .accepts (q, none) := by
  rw [read] at h
  split at h
  · cases h
  · rename_i hnul
    dsimp only at h
    cases htail : readTail tail.toList with
    | accepts r =>
        obtain ⟨q', w⟩ := r
        cases w with
        | none =>
            simp only [htail, Reading.count, Reading.accepts.injEq, Statement.count.injEq,
              Core.query.injEq] at h
            exact ⟨hnul, by rw [h]⟩
        | some w => simp [htail, Reading.count] at h
    | refuses => simp [htail, Reading.count] at h
    | outside => simp [htail, Reading.count] at h

/-- The conditions that have been read, with at most one order by a column after them. -/
lemma readTail_orderText {tail : String} {conds : List Cond}
    (h : readTail tail.toList = .accepts (⟨conds, none⟩, none)) {order_by : List (String × Bool)}
    (horder : NamesColumns order_by) :
    readTail (tail ++ orderText order_by).toList
      = (orderedParse ⟨conds, none⟩ order_by).finish := by
  rw [String.toList_append, toList_orderText, readTail_append_pieces h
    (closed_orderPieces horder), parse_of_unordered h, parse_orders horder]

/-- **Columns only sort**, if there is one at most. -/
lemma onlySorts_of_namesColumns {order_by : List (String × Bool)} (horder : NamesColumns order_by)
    (hone : order_by.length ≤ 1) : E.OnlySorts (orderText order_by) := by
  have hnul : '\x00' ∉ (orderText order_by).toList := by
    have hfree : NulFree [] := fun _ hp => by cases hp
    have hclauses := nul_notMem_clauses hfree horder
    rwa [toList_orderText]
  obtain ⟨order, haccepts⟩ : ∃ order, ∀ conds, (orderedParse ⟨conds, none⟩ order_by).finish
      = .accepts (⟨conds, order⟩, none) := by
    match order_by, hone with
    | [], _ => exact ⟨none, fun _ => rfl⟩
    | [_], _ => exact ⟨_, fun _ => rfl⟩
  have happend : ∀ {tail : String}, '\x00' ∉ tail.toList →
      '\x00' ∉ (tail ++ orderText order_by).toList := fun {tail} htail => by
    rw [String.toList_append, List.mem_append, not_or]
    exact ⟨htail, hnul⟩
  refine ⟨hnul, fun tail conds hread => ?_, fun tail conds hread => ?_⟩
  · obtain ⟨hnul', q, hq, htail⟩ := readTail_of_read rfl hread
    obtain rfl := Core.query.inj hq
    refine ⟨.query ⟨conds, order⟩, E.accepts _ _ ?_, fun db => E.find_perm ⟨conds, order⟩ db⟩
    rw [read, if_neg (happend hnul')]
    simp only [readTail_orderText htail horder, haccepts, Reading.select]
  · obtain ⟨hnul', htail⟩ := readTail_of_read_count hread
    refine ⟨.query ⟨conds, order⟩, E.accepts _ _ ?_, fun db => rfl⟩
    rw [read, if_neg (happend hnul')]
    simp only [readTail_orderText htail horder, haccepts, Reading.count]

/-! ### The texts without orders -/

/-- A filter without its orders. -/
def PublisherInfoFilter.unordered (filter : PublisherInfoFilter) : PublisherInfoFilter :=
  { filter with order_by := [] }

section Unordered

variable (L : Ledger) (filter : PublisherInfoFilter)

lemma findClauses_unordered :
    findClauses L 0 0 filter
      = findClauses L 0 0 filter.unordered ++ orderText filter.order_by := by
  have hlimit : ∀ text, streamIf ((0 : Int32) > 0) text = "" := fun _ => rfl
  have hnone : orderText [] = "" := rfl
  simp only [findClauses, PublisherInfoFilter.unordered, hlimit, hnone, String.append_empty]
  rfl

lemma buildFilterClauses_unordered :
    buildFilterClauses L 0 0 filter
      = buildFilterClauses L 0 0 filter.unordered ++ orderText filter.order_by := by
  have hlimit : ∀ text, streamIf ((0 : Int32) > 0) text = "" := fun _ => rfl
  have hnone : orderText [] = "" := rfl
  simp only [buildFilterClauses, PublisherInfoFilter.unordered, hlimit, hnone,
    String.append_empty]
  rfl

end Unordered

/-- The text of `Find` with orders that only sort. -/
lemma exists_prepare_findText {L : Ledger} {filter : PublisherInfoFilter}
    (horder : E.OnlySorts (orderText filter.order_by)) (hid : '\'' ∉ filter.id.toList)
    (hnul : '\x00' ∉ filter.id.toList) :
    ∃ core, E.prepare (findText L 0 0 filter) = some (.select core none) ∧
      ∀ db, (E.find core db).Perm (filter.rows L db) := by
  have hnone : NamesColumns filter.unordered.order_by := fun _ hit => absurd hit List.not_mem_nil
  have hnul₀ : '\x00' ∉ filter.unordered.id.toList := hnul
  have htext := nul_notMem_findClauses L hnul₀ hnone
  have hread : read (findText L 0 0 filter.unordered)
      = .accepts (.select (.query ⟨filter.conds L, none⟩) none) :=
    read_findText L hid hnul₀ hnone
  rw [findText, cString_eq_self htext] at hread
  have hnul' : '\x00' ∉ (findClauses L 0 0 filter).toList := by
    rw [findClauses_unordered, String.toList_append, List.mem_append, not_or]
    exact ⟨htext, horder.nul⟩
  rw [findText, cString_eq_self hnul', findClauses_unordered]
  exact horder.find _ _ hread

/-! ### `Count` on an initialised store -/

lemma count_refused {L : Ledger} {filter : PublisherInfoFilter} {c : Conn} (hready : c.Ready)
    (h : E.prepare (countText L filter) = none) :
    count E L filter c = (.error .sqlite_exception, c.next) := by
  have hstep : stepSql E (countText L filter) [] c = (.error .sqlite_exception, c.next) := by
    simp [stepSql, h, hready.failed]
  exact (DbM.bind_ok (init_of_ready hready)).trans (DbM.bind_error (DbM.bind_error hstep))

/-- The text of `Count` is run twice: the number is that of the first run, and a failure of either
is thrown. -/
lemma count_query {L : Ledger} {filter : PublisherInfoFilter} {c : Conn} {core : Core}
    {rows : Db → List Joined} (hready : c.Ready)
    (h : E.prepare (countText L filter) = some (.count core))
    (heffect : ∀ db, E.effect (.count core) [] db
      = some (db, .counts [UInt64.ofNat (rows db).length]))
    (hc : c.fails 0 = none) :
    count E L filter c = (match c.fails 1 with
      | none => (.ok (UInt64.ofNat (rows c.file).length).toUInt32.toInt32, c.next.next)
      | some _ => (.error .sqlite_exception, c.next.next)) := by
  have hstep : ∀ c : Conn, c.Ready → c.fails 0 = none → runSql E (countText L filter) [] c
      = (.ok (.counts [UInt64.ofNat (rows c.file).length]), c.next) := fun c hready hc => by
    have hone := stepSql_ready hready h (by simp) (heffect c.file)
    rw [hc] at hone
    exact DbM.bind_ok hone
  refine (DbM.bind_ok (init_of_ready hready)).trans ((DbM.bind_ok (hstep c hready hc)).trans ?_)
  cases hc' : c.fails 1 with
  | none => exact DbM.bind_ok (hstep c.next hready.next hc')
  | some k =>
      rw [← hready.next.failed]
      exact DbM.bind_error (runSql_fails hc')

/-- A number on its way through 64 bits without sign and 32 bits with one. -/
lemma toInt_count (m n : ℕ) :
    (UInt64.ofNat m).toUInt32.toInt32.toInt = n ↔ n < 2 ^ 31 ∧ m % 2 ^ 32 = n := by
  have hmod : (UInt64.ofNat m).toUInt32.toInt32.toInt
      = ((m % 2 ^ 64 % 2 ^ 32 : ℕ) : ℤ).bmod (2 ^ 32) := by
    change (UInt64.ofNat m).toUInt32.toBitVec.toInt = _
    rw [BitVec.toInt_eq_toNat_bmod, UInt32.toNat_toBitVec, UInt64.toNat_toUInt32,
      UInt64.toNat_ofNat']
  rw [hmod, Int.bmod]
  omega

/-! ### `Count` against `Find` -/

/-- The filters for which `Count` follows `Find`: the orders only sort, the stamp is not asked for,
the second run of the statement does not fail, the number of rows fits into an `int`, and the id is
empty or an integer whose digits select, modulo `2 ^ 32`, as many rows. -/
def Aligned (E : Sqlite) (L : Ledger) (filter : PublisherInfoFilter) (c : Conn) : Prop :=
  E.OnlySorts (orderText filter.order_by) ∧ filter.reconcile_stamp = 0 ∧ c.fails 1 = none ∧
    (filter.rows L c.file).length < 2 ^ 31 ∧
    ∃ id', countedId? filter.id = some id' ∧
      (({ filter with id := id' } : PublisherInfoFilter).rows L c.file).length % 2 ^ 32
        = (filter.rows L c.file).length

/-- The filters without further SQL in their texts: the orders only sort, and the id has no quotes
and is empty, an integer, or no expression over the query. -/
def Plain (E : Sqlite) (filter : PublisherInfoFilter) : Prop :=
  E.OnlySorts (orderText filter.order_by) ∧ '\'' ∉ filter.id.toList ∧
    ((countedId? filter.id).isSome ∨ (filter.id ≠ "" ∧ Unreadable filter.id))

variable (E)

/-- `Count` returns the number of records by which a list has grown. -/
def CountsAppended (L : Ledger) (filter : PublisherInfoFilter) (c : Conn)
    (list list' : List PublisherInfo) : Prop :=
  ∃ n c', count E L filter c = (.ok n, c') ∧ (list'.length : ℤ) = list.length + n.toInt

variable {E}

/-- What `Find` appends: the rows of the filter, whatever their order. -/
lemma length_of_prepare {L : Ledger} {filter : PublisherInfoFilter} {core : Core}
    {w : Option Window} (db : Db) (horder : E.OnlySorts (orderText filter.order_by))
    (hid : '\'' ∉ filter.id.toList)
    (h : E.prepare (findText L 0 0 filter) = some (.select core w)) :
    (windowed w (E.find core db)).length = (filter.rows L db).length := by
  by_cases hnul : '\x00' ∈ filter.id.toList
  · rw [E.refuses _ (read_findText_of_nul L 0 0 hid hnul)] at h
    cases h
  · obtain ⟨core', hprepare, hperm⟩ := exists_prepare_findText (L := L) horder hid hnul
    rw [hprepare, Option.some.injEq, Statement.select.injEq] at h
    obtain ⟨rfl, rfl⟩ := h
    exact (hperm db).length_eq

/-- **`Count` for an id that is written as an integer**, where the orders only sort. -/
lemma countsAppended_iff {L : Ledger} {filter : PublisherInfoFilter} {c : Conn} {id' : String}
    {list list' : List PublisherInfo} (hready : c.Ready) (hc : c.fails 0 = none)
    (horder : E.OnlySorts (orderText filter.order_by))
    (hid : countedId? filter.id = some id')
    (hlist : list'.length = list.length + (filter.rows L c.file).length) :
    CountsAppended E L filter c list list' ↔ Aligned E L filter c := by
  by_cases hstamp : filter.reconcile_stamp > 0
  · have hcount := count_refused hready (E.refuses _ (read_countText_stamp hid L hstamp))
    refine iff_of_false ?_ fun h => ?_
    · rintro ⟨n, c', hn, -⟩
      rw [hcount] at hn
      cases hn
    · rw [h.2.1] at hstamp
      exact absurd hstamp (by decide)
  · have hzero : filter.reconcile_stamp = 0 := by
      by_contra hne
      exact hstamp (UInt64.pos_iff_ne_zero.mpr hne)
    have hid₀ : countedId? filter.unordered.id = some id' := hid
    have hzero₀ : filter.unordered.reconcile_stamp = 0 := hzero
    have hread : read (countText L filter.unordered) = .accepts (.count (.query
        ⟨({ filter with id := id' } : PublisherInfoFilter).conds L, none⟩)) :=
      read_countText hid₀ L rfl hzero₀
    obtain ⟨core, hprepare, heffect⟩ := horder.count _ _ hread
    rw [← buildFilterClauses_unordered] at hprepare
    have hcounts : ∀ db, E.effect (.count core) [] db = some (db, .counts
        [UInt64.ofNat (({ filter with id := id' } : PublisherInfoFilter).rows L db).length]) :=
      heffect
    have hcount := count_query hready hprepare hcounts hc
    have haligned : Aligned E L filter c ↔ c.fails 1 = none ∧
        (filter.rows L c.file).length < 2 ^ 31 ∧
        (({ filter with id := id' } : PublisherInfoFilter).rows L c.file).length % 2 ^ 32
          = (filter.rows L c.file).length := by
      constructor
      · rintro ⟨-, -, hc', hlt, id'', hid'', heq⟩
        obtain rfl := Option.some.inj (hid.symm.trans hid'')
        exact ⟨hc', hlt, heq⟩
      · rintro ⟨hc', hlt, heq⟩
        exact ⟨horder, hzero, hc', hlt, id', hid, heq⟩
    rw [haligned, CountsAppended, hcount, hlist, Nat.cast_add]
    cases hc' : c.fails 1 with
    | some k => simp
    | none =>
        rw [← toInt_count]
        constructor
        · rintro ⟨n, c', hn, heq⟩
          obtain rfl := Except.ok.inj (Prod.mk.inj hn).1
          exact ⟨rfl, (add_left_cancel heq).symm⟩
        · rintro ⟨-, heq⟩
          exact ⟨_, _, rfl, by rw [heq]⟩

/-- **`Count` and `Find`**: whenever `Find` succeeds, `Count` returns the number of records that it
appended if the filter is `Aligned`, and of the `Plain` filters only if it is. -/
theorem count_agrees (L : Ledger) {filter : PublisherInfoFilter} {c c' : Conn}
    {list list' : List PublisherInfo} (hready : c.Ready)
    (hfind : find E L 0 0 filter list c = (.ok (true, list'), c')) :
    (Aligned E L filter c → CountsAppended E L filter c list list') ∧
      (Plain E filter → CountsAppended E L filter c list list' → Aligned E L filter c) := by
  obtain ⟨hc, core, w, hprepare, hlist⟩ := find_true hready hfind
  have hlength : ∀ n, (windowed w (E.find core c.file)).length = n →
      list'.length = list.length + n := fun n hn => by
    rw [hlist, List.length_append, List.length_map, hn]
  constructor
  · intro haligned
    obtain ⟨id', hid, -⟩ := haligned.2.2.2.2
    have hrows := length_of_prepare c.file haligned.1 (countedId_spec hid).2.1 hprepare
    exact (countsAppended_iff hready hc haligned.1 hid (hlength _ hrows)).mpr haligned
  · rintro ⟨horder, hquote, hid⟩ hcounts
    have hrows := length_of_prepare c.file horder hquote hprepare
    obtain hid | ⟨hne, hid⟩ := hid
    · obtain ⟨id', hid⟩ := Option.isSome_iff_exists.mp hid
      exact (countsAppended_iff hready hc horder hid (hlength _ hrows)).mp hcounts
    · obtain ⟨n, c'', hn, -⟩ := hcounts
      rw [count_refused hready (E.refuses _ (read_countText_unreadable L hne hid))] at hn
      cases hn

/-- Three activities of two publishers, of which the id of one is an integer. -/
def countedDb : Db :=
  { Db.fresh with
    publisher_info :=
      (UniqueTable.empty.replace ⟨"5", 1, 0, "Five", "", "https://5.com", ""⟩).replace
        ⟨"brave.com", 1, 0, "Brave", "", "https://brave.com", ""⟩
    activity_info := [⟨"5", 7, 1, 30, 1, 2, 7, 2018, 1⟩, ⟨"brave.com", 5, 1, 40, 1, 2, 8, 2018, 1⟩,
      ⟨"5", 9, 1, 70, 1, 2, 9, 2018, 1⟩] }

/-- The activities of the publisher `5` in 2018 of a duration of at least 7, by their percentages,
and with a stamp if it is not zero. -/
def countedFilter (reconcile_stamp : UInt64) : PublisherInfoFilter :=
  ⟨"5", 31, -1, 2018, -1, 7, [("percent", false)], reconcile_stamp⟩

lemma countedFilter_names (reconcile_stamp : UInt64) :
    NamesColumns (countedFilter reconcile_stamp).order_by := by
  intro it hit
  rw [List.mem_singleton.mp hit]
  decide

lemma countedDb_ready : (Conn.on countedDb).Ready := Conn.on_ready Db.fresh_complete

lemma find_countedFilter (reconcile_stamp : UInt64) :
    find reference sampleLedger 0 0 (countedFilter reconcile_stamp) [] (.on countedDb)
      = (.ok (true, (reference.find (.query ⟨(countedFilter reconcile_stamp).conds sampleLedger,
          some (.ai_percent, false)⟩) countedDb).map (Joined.record sampleLedger)),
        (Conn.on countedDb).next) :=
  find_rows [] countedDb_ready rfl (by simp [countedFilter]) (by simp [countedFilter])
    (countedFilter_names _) fun _ => rfl

/-- Two of the three activities are found, and counted. -/
theorem count_agrees_two : ∃ list' c',
    find reference sampleLedger 0 0 (countedFilter 0) [] (.on countedDb)
      = (.ok (true, list'), c') ∧ list'.length = 2 ∧
    CountsAppended reference sampleLedger (countedFilter 0) (.on countedDb) [] list' := by
  have hrows : ((countedFilter 0).rows sampleLedger countedDb).length = 2 := rfl
  have hlt : ((countedFilter 0).rows sampleLedger countedDb).length < 2 ^ 31 := by
    rw [hrows]
    decide
  refine ⟨_, _, find_countedFilter 0, ?_, (count_agrees sampleLedger countedDb_ready
    (find_countedFilter 0)).1 ⟨onlySorts_of_namesColumns (countedFilter_names 0) le_rfl, rfl, rfl,
      hlt, "5", by decide, rfl⟩⟩
  rw [List.length_map]
  exact (reference.find_perm _ countedDb).length_eq

/-- A filter with a stamp is not counted. -/
theorem stamp_not_counted : ¬ ∀ (E : Sqlite) (L : Ledger) (filter : PublisherInfoFilter)
    (c c' : Conn) (list list' : List PublisherInfo), c.Ready → c.Quiet →
    find E L 0 0 filter list c = (.ok (true, list'), c') →
    CountsAppended E L filter c list list' := by
  intro hall
  obtain ⟨n, c', hn, -⟩ := hall reference sampleLedger (countedFilter 1) (.on countedDb) _ [] _
    countedDb_ready (Conn.on_quiet _) (find_countedFilter 1)
  have hread : read (countText sampleLedger (countedFilter 1)) = .refuses :=
    read_countText_stamp (by decide : countedId? "5" = some "5") sampleLedger (by decide)
  rw [count_refused countedDb_ready (reference.refuses _ hread)] at hn
  cases hn

end RewardsDriver.Store
