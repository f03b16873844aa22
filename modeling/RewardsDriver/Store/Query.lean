import RewardsDriver.Sql.Lexer
import RewardsDriver.Store.Schema

/-!
The queries over the join of activities and publishers, and how their texts are read.

The texts of `Find` and `Count` differ from their fixed beginning on, `… WHERE 1 = 1`. What
follows is read token by token: conditions after `AND`, at most one `ORDER BY`, a `LIMIT` with or
without `OFFSET`. What SQLite is known to refuse is refused (a second `ORDER BY`, an unfinished
text, a name that is no column); what the reader does not follow it leaves `outside`.

* `Query.rows`: the rows that a query selects, in the order of the join.
* `Parse.step`, `readTail`: the reader.
* `parse_refused`, `Parse.Keeps`: a refusal stands whatever follows, and so does a condition.
* `readTail_clauses`: **the texts put together from clauses**, a list of conditions adds its
  conditions to the query one after the other.
-/

namespace RewardsDriver.Store

open RewardsDriver.Sql

/-! ### Queries -/

/-- The operators of the conditions. -/
inductive Op where
  | eq
  | ne
  | ge
  | shl
  deriving DecidableEq

/-- A condition on a row: a number column compared with an integer, or a text column equal to a
text. -/
inductive Cond where
  | int (c : Column) (o : Op) (n : ℤ)
  | text (c : Column) (s : String)
  deriving DecidableEq

/-- A comparison of integers; the shift is none. -/
def Op.holds : Op → ℤ → ℤ → Bool
  | .eq, a, b => a = b
  | .ne, a, b => a ≠ b
  | .ge, a, b => b ≤ a
  | .shl, _, _ => false

/-- Whether a row meets a condition. -/
def Cond.holds : Cond → Joined → Bool
  | .int c o n, r =>
      match c.field with
      | .int f => o.holds (f r).toInt n
      | _ => false
  | .text c s, r =>
      match c.field with
      | .text f => f r = s
      | _ => false

/-- A query over the join: its conditions and its order, a column and whether it ascends. -/
structure Query where
  conds : List Cond
  order : Option (Column × Bool)
  deriving DecidableEq

/-- `LIMIT limit OFFSET offset`. -/
structure Window where
  limit : ℕ
  offset : ℕ
  deriving DecidableEq

/-- The rows that a query selects. -/
def Query.rows (q : Query) (db : Db) : List Joined := db.joined.filter fun r => q.conds.all (·.holds r)

/-- The rows in a window. -/
def Window.slice {α : Type} (w : Window) (rows : List α) : List α :=
  (rows.drop w.offset).take w.limit

/-- The text of a window; without an offset it starts at the first row. -/
def limitText (limit : ℕ) (offset : Option ℕ) : String :=
  " LIMIT " ++ toString limit ++
    match offset with
    | some o => " OFFSET " ++ toString o
    | none => ""

/-- Adding a condition. -/
def Query.and (q : Query) (c : Cond) : Query := { q with conds := q.conds ++ [c] }

/-! ### The reader -/

/-- How a column is written: its table and its name, in lower case. -/
def Column.spelling : Column → String × String
  | .ai_publisher_id => ("ai", "publisher_id")
  | .ai_duration => ("ai", "duration")
  | .ai_score => ("ai", "score")
  | .ai_percent => ("ai", "percent")
  | .ai_weight => ("ai", "weight")
  | .ai_category => ("ai", "category")
  | .ai_month => ("ai", "month")
  | .ai_year => ("ai", "year")
  | .ai_reconcile_stamp => ("ai", "reconcile_stamp")
  | .pi_publisher_id => ("pi", "publisher_id")
  | .pi_verified => ("pi", "verified")
  | .pi_excluded => ("pi", "excluded")
  | .pi_name => ("pi", "name")
  | .pi_favIcon => ("pi", "favicon")
  | .pi_url => ("pi", "url")
  | .pi_provider => ("pi", "provider")

def Column.all : List Column :=
  [.ai_publisher_id, .ai_duration, .ai_score, .ai_percent, .ai_weight, .ai_category, .ai_month,
    .ai_year, .ai_reconcile_stamp, .pi_publisher_id, .pi_verified, .pi_excluded, .pi_name,
    .pi_favIcon, .pi_url, .pi_provider]

/-- The column `t.c`. -/
def column? (t c : List Char) : Option Column :=
  Column.all.find? fun col => col.spelling.1.toList = t ∧ col.spelling.2.toList = c

/-- The column with a name that only one of the tables has. -/
def bareColumn? (c : List Char) : Option Column :=
  match Column.all.filter fun col => col.spelling.2.toList = c with
  | [col] => some col
  | _ => none

/-- The names that may stand before a dot in a column of the query. -/
def tableNames : List (List Char) := ["ai".toList, "pi".toList, "main".toList, "temp".toList]

/-- The words that mean something in an expression although they are no column of the query. -/
def reserved : List (List Char) :=
  ["null".toList, "not".toList, "case".toList, "cast".toList, "exists".toList, "raise".toList,
    "true".toList, "false".toList, "current_time".toList, "current_date".toList,
    "current_timestamp".toList, "rowid".toList, "oid".toList, "_rowid_".toList, "select".toList,
    "values".toList, "x".toList]

/-- A word that is neither a column nor means anything else in an expression. -/
def unknownName (w : List Char) : Bool :=
  !reserved.contains w && Column.all.all fun col => col.spelling.2.toList ≠ w

def op? (s : List Char) : Option Op :=
  if s = ['='] then some .eq
  else if s = ['!', '='] then some .ne
  else if s = ['>', '='] then some .ge
  else if s = ['<', '<'] then some .shl
  else none

/-- A column compared with an integer. A text column is compared with the integer's digits. -/
def intCond? (c : Column) (o : Op) (n : ℤ) : Option Cond :=
  match c.field, o with
  | _, .shl => none
  | .int _, o => some (.int c o n)
  | .real _, _ => none
  | .text _, .eq => if |n| < 2 ^ 63 then some (.text c (toString n)) else none
  | .text _, _ => none

/-- A column compared with a text. -/
def textCond? (c : Column) (o : Op) (s : List Char) : Option Cond :=
  match c.field, o with
  | .text _, .eq => some (.text c (String.ofList s))
  | _, _ => none

/-- How far a text has been read. -/
inductive Parse where
  | one
  | conds (q : Query)
  | and (q : Query)
  | table (q : Query) (t : List Char)
  | dot (q : Query) (t : List Char)
  | column (q : Query) (c : Column)
  | op (q : Query) (c : Column) (o : Op)
  | minus (q : Query) (c : Column) (o : Op)
  | name (q : Query) (w : List Char)
  | order (q : Query)
  | orderBy (q : Query)
  | orderTable (q : Query) (t : List Char)
  | orderDot (q : Query) (t : List Char)
  | orderColumn (q : Query) (c : Column)
  | ordered (q : Query)
  | limit (q : Query)
  | limited (q : Query) (n : ℕ)
  | offset (q : Query) (n : ℕ)
  | windowed (q : Query) (w : Window)
  | refused
  | outside
  deriving DecidableEq

namespace Parse

/-- After a condition, if there is one that is followed. -/
def ofCond (q : Query) : Option Cond → Parse
  | some c => .conds (q.and c)
  | none => .outside

/-- After `ORDER BY` a column, its direction. -/
def direction (q : Query) (c : Column) (w : List Char) : Parse :=
  if w = "asc".toList then .ordered { q with order := some (c, true) }
  else if w = "desc".toList then .ordered { q with order := some (c, false) }
  else .outside

/-- One token. -/
def step : Parse → Token → Parse
  | .refused, _ => .refused
  | .outside, _ => .outside
  | _, .illegal => .refused
  | .one, .num 1 => .conds ⟨[], none⟩
  | .conds q, .word w =>
      if w = "and".toList then .and q
      else if w = "order".toList then .order q
      else if w = "limit".toList then .limit q
      else .outside
  | .and q, .word t => .table q t
  | .table q t, .sym ['.'] => .dot q t
  | .dot q t, .word c => ((column? t c).map (.column q)).getD .outside
  | .column q c, .sym s => ((op? s).map (.op q c)).getD .outside
  | .op q c o, .num n => ofCond q (intCond? c o n)
  | .op q c o, .str s => ofCond q (textCond? c o s)
  | .op q c o, .sym ['-'] => .minus q c o
  | .op q _ _, .word w => .name q w
  | .minus q c o, .num n => ofCond q (intCond? c o (-n))
  | .name _ w, .sym ['.'] => if tableNames.contains w then .outside else .refused
  -- the name of a function, or a comment and what comes after it
  | .name _ _, .sym ['('] => .outside
  | .name _ _, .other => .outside
  | .name _ w, _ => if unknownName w then .refused else .outside
  | .order q, .word w => if w = "by".toList then .orderBy q else .outside
  | .orderBy q, .word t => .orderTable q t
  | .orderTable q t, .sym ['.'] => .orderDot q t
  | .orderTable q c, .word w => ((bareColumn? c).map (direction q · w)).getD .outside
  | .orderDot q t, .word c => ((column? t c).map (.orderColumn q)).getD .outside
  | .orderColumn q c, .word w => direction q c w
  | .ordered q, .word w =>
      if w = "order".toList then .refused
      else if w = "limit".toList then .limit q
      else .outside
  | .limit q, .num n => .limited q n
  | .limited q n, .word w => if w = "offset".toList then .offset q n else .outside
  | .offset q n, .num m => .windowed q ⟨n, m⟩
  | _, _ => .outside

end Parse

/-- What a text means: a query with or without a window, nothing, or something that the reader
does not follow. -/
inductive Reading (α : Type) where
  | accepts (a : α)
  | refuses
  | outside
  deriving DecidableEq

/-- The end of the text. -/
def Parse.finish : Parse → Reading (Query × Option Window)
  | .conds q => .accepts (q, none)
  | .ordered q => .accepts (q, none)
  | .limited q n => .accepts (q, some ⟨n, 0⟩)
  | .windowed q w => .accepts (q, some w)
  | .name _ w => if unknownName w then .refuses else .outside
  | .and _ | .dot _ _ | .op _ _ _ | .minus _ _ _ => .refuses
  | .order _ | .orderBy _ | .orderDot _ _ | .limit _ | .offset _ _ => .refuses
  | .refused => .refuses
  | .one | .table _ _ | .column _ _ | .orderTable _ _ | .orderColumn _ _ | .outside => .outside

/-- The tokens of the tail of a query, which begins after the last `1` of `WHERE 1 = 1`. -/
def tailTokens (tail : List Char) : List Token := lexFrom (.num 1) tail

/-- Reading the tail of a query. -/
def readTail (tail : List Char) : Reading (Query × Option Window) :=
  ((tailTokens tail).foldl Parse.step .one).finish

/-- A refusal stands. -/
lemma parse_refused (ts : List Token) : ts.foldl Parse.step .refused = .refused := by
  induction ts with
  | nil => rfl
  | cons t ts ih => exact ih

/-! ### Conditions stand -/

namespace Parse

/-- The query that has been read so far has a condition, or there is none any more. -/
def Keeps (k : Cond) : Parse → Prop
  | .one => False
  | .conds q | .and q | .table q _ | .dot q _ | .column q _ | .op q _ _ | .minus q _ _ | .name q _
  | .order q | .orderBy q | .orderTable q _ | .orderDot q _ | .orderColumn q _ | .ordered q
  | .limit q | .limited q _ | .offset q _ | .windowed q _ => k ∈ q.conds
  | .refused | .outside => True

variable {k : Cond} {q : Query}

lemma keeps_ofCond (h : k ∈ q.conds) (c : Option Cond) : (ofCond q c).Keeps k := by
  cases c with
  | none => trivial
  | some c => exact List.mem_append_left _ h

lemma keeps_direction (h : k ∈ q.conds) (c : Column) (w : List Char) :
    (direction q c w).Keeps k := by
  unfold direction
  split_ifs
  · exact h
  · exact h
  · trivial

lemma keeps_getD {α : Type} {f : α → Parse} (h : ∀ a, (f a).Keeps k) (o : Option α) :
    ((o.map f).getD .outside).Keeps k := by
  cases o with
  | none => trivial
  | some a => exact h a

/-- One token takes no condition away. -/
lemma Keeps.step {p : Parse} (h : p.Keeps k) (t : Token) : (p.step t).Keeps k := by
  unfold Parse.step
  split
  -- the query stays as it is, or gets a condition, or a direction, by the branches of the reader
  all_goals first
    | exact h
    | trivial
    | exact keeps_ofCond h _
    | exact keeps_direction h _ _
    | (refine keeps_getD (fun c => ?_) _; first | exact h | exact keeps_direction h c _)
    | (split_ifs <;> first | exact h | trivial)

lemma Keeps.foldl {p : Parse} (h : p.Keeps k) (ts : List Token) :
    (ts.foldl Parse.step p).Keeps k := by
  induction ts generalizing p with
  | nil => exact h
  | cons t ts ih => exact ih (h.step t)

/-- What is accepted in the end has the condition. -/
lemma Keeps.mem {p : Parse} {w : Option Window} (h : p.Keeps k)
    (hfinish : p.finish = .accepts (q, w)) : k ∈ q.conds := by
  cases p with
  | conds | ordered | limited | windowed =>
      simp only [finish, Reading.accepts.injEq, Prod.mk.injEq] at hfinish
      exact hfinish.1 ▸ h
  | name q w =>
      rw [finish] at hfinish
      split at hfinish <;> cases hfinish
  | _ => cases hfinish

end Parse

lemma tailTokens_flatMap {pieces : List (List Char)} (h : ∀ p ∈ pieces, Closed p) :
    tailTokens (pieces.flatMap (' ' :: ·)) = .num 1 :: pieces.flatMap lex :=
  List.nil_append (pieces.flatMap (' ' :: ·)) ▸ lexFrom_flatMap rfl h

/-- The same with a last piece that need not be closed, if there is one. -/
lemma tailTokens_flatMap_toList {pieces : List (List Char)} (h : ∀ p ∈ pieces, Closed p)
    (last : Option (List Char)) :
    tailTokens ((pieces ++ last.toList).flatMap (' ' :: ·))
      = .num 1 :: (pieces ++ last.toList).flatMap lex := by
  cases last with
  | none =>
      rw [Option.toList_none, List.append_nil]
      exact tailTokens_flatMap h
  | some last =>
      exact List.nil_append ((pieces ++ [last]).flatMap (' ' :: ·)) ▸
        lexFrom_flatMap_last rfl h last

/-! ### Clauses -/

/-- A clause adds a condition: it is closed, and after it the query has one condition more. -/
structure AddsCond (text : List Char) (c : Cond) : Prop where
  closed : Closed text
  parse : ∀ q : Query, (lex text).foldl Parse.step (.conds q) = .conds (q.and c)

/-- Clauses that add conditions, and the conditions. -/
def AddConds (clauses : List (List Char × Cond)) : Prop := ∀ p ∈ clauses, AddsCond p.1 p.2

lemma AddConds.closed {clauses : List (List Char × Cond)} (h : AddConds clauses) :
    ∀ p ∈ clauses.map Prod.fst, Closed p := by
  intro p hp
  obtain ⟨c, hc, rfl⟩ := List.mem_map.mp hp
  exact (h c hc).closed

/-- The conditions are added one after the other. -/
lemma AddConds.parse {clauses : List (List Char × Cond)} (h : AddConds clauses) (q : Query) :
    ((clauses.map Prod.fst).flatMap lex).foldl Parse.step (.conds q)
      = .conds { q with conds := q.conds ++ clauses.map Prod.snd } := by
  induction clauses generalizing q with
  | nil => simp
  | cons p ps ih =>
      have hp := (h p (by simp)).parse q
      have hps : AddConds ps := fun r hr => h r (by simp [hr])
      rw [List.map_cons, List.flatMap_cons, List.foldl_append, hp, ih hps]
      simp [Query.and]

/-- **Texts put together from clauses**: after clauses that add conditions the rest of the text is
read with the query that has these conditions. -/
theorem readTail_clauses {clauses : List (List Char × Cond)} (h : AddConds clauses)
    {rest : List (List Char)} (hrest : ∀ p ∈ rest, Closed p) :
    readTail ((clauses.map Prod.fst ++ rest).flatMap (' ' :: ·))
      = ((rest.flatMap lex).foldl Parse.step
          (.conds ⟨clauses.map Prod.snd, none⟩)).finish := by
  have hall : ∀ p ∈ clauses.map Prod.fst ++ rest, Closed p := by
    intro p hp
    obtain hp | hp := List.mem_append.mp hp
    · exact h.closed p hp
    · exact hrest p hp
  have hone : Parse.step .one (.num 1) = .conds ⟨[], none⟩ := rfl
  rw [readTail, tailTokens_flatMap hall, List.foldl_cons, hone, List.flatMap_append,
    List.foldl_append, h.parse, List.nil_append]

/-- A clause `AND column operator` and an operand. -/
lemma parse_condition {q : Query} {head operand : List Char} {c : Column} {o : Op} {p : Parse}
    (hclosed : Closed head) (hhead : (lex head).foldl Parse.step (.conds q) = .op q c o)
    (hoperand : (lex operand).foldl Parse.step (.op q c o) = p) :
    (lex (head ++ ' ' :: operand)).foldl Parse.step (.conds q) = p := by
  rw [lex_append_space operand hclosed, List.foldl_append, hhead, hoperand]

/-- A number column compared with a printed integer. -/
lemma addsCond_int {head : List Char} {c : Column} {o : Op} {f : Joined → Int64}
    (hclosed : Closed head)
    (hhead : ∀ q, (lex head).foldl Parse.step (.conds q) = .op q c o)
    (hc : c.field = .int f) (ho : o ≠ .shl) (z : ℤ) :
    AddsCond (head ++ ' ' :: (toString z).toList) (.int c o z) where
  closed := hclosed.append_space (lex_toString z).2
  parse := fun q => by
    refine parse_condition hclosed (hhead q) ?_
    have hcond : ∀ n : ℤ, intCond? c o n = some (.int c o n) := fun n => by
      cases o <;> simp_all [intCond?]
    rw [(lex_toString z).1, intTokens]
    split
    · rename_i hz
      simp [Parse.step, Parse.ofCond, hcond, Int.toNat_of_nonneg hz]
    · rename_i hz
      have hneg : -((-z).toNat : ℤ) = z := by omega
      simp only [List.foldl_cons, List.foldl_nil, Parse.step, hneg, hcond, Parse.ofCond]

/-- A text column compared with a quoted text. -/
lemma addsCond_text {head : List Char} {c : Column} {f : Joined → String}
    (hclosed : Closed head)
    (hhead : ∀ q, (lex head).foldl Parse.step (.conds q) = .op q c .eq)
    (hc : c.field = .text f) {s : String} (hs : '\'' ∉ s.toList) :
    AddsCond (head ++ ' ' :: '\'' :: (s.toList ++ ['\''])) (.text c s) where
  closed := hclosed.append_space (lex_quoted hs).2
  parse := fun q => by
    refine parse_condition hclosed (hhead q) ?_
    simp [(lex_quoted hs).1, Parse.step, textCond?, hc, Parse.ofCond]

/-! ### Limits -/

/-- The pieces of the text of a window. -/
def limitPieces (limit : ℕ) (offset : Option ℕ) : List (List Char) :=
  ["LIMIT".toList, limit.repr.toList] ++
    match offset with
    | some o => ["OFFSET".toList, o.repr.toList]
    | none => []

lemma toList_limitText (limit : ℕ) (offset : Option ℕ) :
    (limitText limit offset).toList = (limitPieces limit offset).flatMap (' ' :: ·) := by
  cases offset with
  | none => simp [limitText, limitPieces]
  | some o => simp [limitText, limitPieces]

lemma closed_limitPieces {limit : ℕ} {offset : Option ℕ} :
    ∀ p ∈ limitPieces limit offset, Closed p := by
  have hlimit : Closed "LIMIT".toList := by decide
  have hoffset : Closed "OFFSET".toList := by decide
  cases offset with
  | none =>
      intro p hp
      simp only [limitPieces, List.append_nil, List.mem_cons, List.not_mem_nil, or_false] at hp
      obtain rfl | rfl := hp
      · exact hlimit
      · exact closed_repr limit
  | some o =>
      intro p hp
      simp only [limitPieces, List.cons_append, List.nil_append, List.mem_cons,
        List.not_mem_nil, or_false] at hp
      obtain rfl | rfl | rfl | rfl := hp
      · exact hlimit
      · exact closed_repr limit
      · exact hoffset
      · exact closed_repr o

lemma lex_limitPieces (limit : ℕ) (offset : Option ℕ) :
    (limitPieces limit offset).flatMap lex
      = .word "limit".toList :: .num limit ::
          match offset with
          | some o => [.word "offset".toList, .num o]
          | none => [] := by
  have hlimit : lex "LIMIT".toList = [.word "limit".toList] := by decide
  have hoffset : lex "OFFSET".toList = [.word "offset".toList] := by decide
  cases offset with
  | none => simp only [limitPieces, List.flatMap_cons, List.flatMap_nil,
      hlimit, lex_repr, List.append_nil, List.cons_append, List.nil_append]
  | some o => simp only [limitPieces, List.flatMap_cons, List.flatMap_nil,
      hlimit, hoffset, lex_repr, List.append_nil, List.cons_append, List.nil_append]

lemma nul_notMem_repr (n : ℕ) : '\x00' ∉ n.repr.toList := by
  intro h
  rw [Nat.toList_repr] at h
  have hdigit := Nat.isDigit_of_mem_toDigits (b := 10) (by decide) (by decide) h
  revert hdigit
  decide

lemma nul_notMem_limitText (limit : ℕ) (offset : Option ℕ) :
    '\x00' ∉ (limitText limit offset).toList := by
  have hlimit := nul_notMem_repr limit
  rw [Nat.toList_repr] at hlimit
  cases offset with
  | none => simpa [limitText] using hlimit
  | some o =>
      have ho := nul_notMem_repr o
      rw [Nat.toList_repr] at ho
      simpa [limitText] using ⟨hlimit, ho⟩

/-- A query that has been read past a direction is ordered. -/
def Parse.Ordered : Parse → Prop
  | .ordered q => q.order ≠ none
  | _ => True

lemma Parse.ordered_step (p : Parse) (t : Token) : (p.step t).Ordered := by
  have hcond : ∀ q c, (ofCond q c).Ordered := fun q c => by cases c <;> trivial
  have hdirection : ∀ q c w, (direction q c w).Ordered := fun q c w => by
    unfold direction
    split_ifs <;> simp [Ordered]
  have hgetD : ∀ {α : Type} (f : α → Parse) (o : Option α), (∀ a, (f a).Ordered) →
      ((o.map f).getD .outside).Ordered := fun f o h => by
    cases o with
    | none => trivial
    | some a => exact h a
  unfold Parse.step
  split
  all_goals first
    | trivial
    | exact hcond _ _
    | exact hdirection _ _ _
    | exact hgetD _ _ fun _ => hdirection _ _ _
    | exact hgetD _ _ fun _ => trivial
    | (split_ifs <;> trivial)

lemma Parse.ordered_foldl {p : Parse} (h : p.Ordered) (ts : List Token) :
    (ts.foldl Parse.step p).Ordered := by
  induction ts generalizing p with
  | nil => exact h
  | cons t ts ih => exact ih (p.ordered_step t)

/-- After a bad token nothing is accepted any more. -/
lemma parse_bad {ts : List Token} (h : ∃ t ∈ ts, t.Bad) (p : Parse) :
    ts.foldl Parse.step p = .refused ∨ ts.foldl Parse.step p = .outside := by
  have houtside : ∀ us : List Token, us.foldl Parse.step .outside = .outside := fun us => by
    induction us with
    | nil => rfl
    | cons u us ih => exact ih
  obtain ⟨t, ht, hbad⟩ := h
  obtain ⟨us, vs, rfl⟩ := List.append_of_mem ht
  have hstep : ∀ p, Parse.step p t = .refused ∨ Parse.step p t = .outside := fun p => by
    obtain rfl | rfl := hbad <;> cases p <;> simp [Parse.step]
  rw [List.foldl_append, List.foldl_cons]
  obtain h | h := hstep (us.foldl Parse.step p)
  · exact .inl (h ▸ parse_refused vs)
  · exact .inr (h ▸ houtside vs)

/-- The reader has come as far before further pieces as at the end of the text. -/
lemma readTail_append_pieces {tail : List Char} {r : Query × Option Window}
    (h : readTail tail = .accepts r) {pieces : List (List Char)}
    (hpieces : ∀ p ∈ pieces, Closed p) :
    readTail (tail ++ pieces.flatMap (' ' :: ·))
      = ((pieces.flatMap lex).foldl Parse.step
          ((tailTokens tail).foldl Parse.step .one)).finish := by
  have hclosed : (stateAfter (.num 1) tail).isOpen = false := by
    rw [← Bool.not_eq_true]
    intro hopen
    obtain hdead | hbad := bad_of_isOpen hopen
    · simp at hdead
    · obtain hp | hp := parse_bad hbad .one <;>
        simp [readTail, tailTokens, hp, Parse.finish] at h
  rw [readTail, tailTokens, lexFrom_flatMap hclosed hpieces, List.foldl_append]
  rfl

lemma readTail_append_limit {tail : List Char} {r : Query × Option Window}
    (h : readTail tail = .accepts r) (limit : ℕ) (offset : Option ℕ) :
    ∃ p : Parse, p.finish = .accepts r ∧
      readTail (tail ++ (limitText limit offset).toList)
        = (((limitPieces limit offset).flatMap lex).foldl Parse.step p).finish := by
  refine ⟨_, h, ?_⟩
  rw [toList_limitText, readTail_append_pieces h closed_limitPieces]

/-- A query that is read to its end without a window is read so far that a window may follow. -/
lemma finish_eq_accepts_none {p : Parse} {q : Query} (h : p.finish = .accepts (q, none)) :
    p = .conds q ∨ p = .ordered q := by
  cases p with
  | name q w =>
      rw [Parse.finish] at h
      split at h <;> simp at h
  | _ => simp_all [Parse.finish]

/-- A query without an order has been read as far as its conditions. -/
lemma parse_of_unordered {ts : List Token} {conds : List Cond}
    (h : (ts.foldl Parse.step .one).finish = .accepts (⟨conds, none⟩, none)) :
    ts.foldl Parse.step .one = .conds ⟨conds, none⟩ := by
  obtain hconds | hordered := finish_eq_accepts_none h
  · exact hconds
  · have hsome := Parse.ordered_foldl (p := .one) trivial ts
    rw [hordered] at hsome
    exact absurd rfl hsome

/-- A query that is read to its end with a window has ended with it. -/
lemma finish_eq_accepts_some {p : Parse} {q : Query} {w : Window}
    (h : p.finish = .accepts (q, some w)) : (∃ n, p = .limited q n) ∨ p = .windowed q w := by
  cases p with
  | name q w =>
      rw [Parse.finish] at h
      split at h <;> simp at h
  | _ => simp_all [Parse.finish]

/-- **A limit after a query**: a query that is accepted is accepted with a window after it. -/
theorem readTail_limit {tail : List Char} {q : Query} (h : readTail tail = .accepts (q, none))
    (limit : ℕ) (offset : Option ℕ) :
    readTail (tail ++ (limitText limit offset).toList)
      = .accepts (q, some ⟨limit, offset.getD 0⟩) := by
  obtain ⟨p, hp, hread⟩ := readTail_append_limit h limit offset
  rw [hread, lex_limitPieces]
  obtain rfl | rfl := finish_eq_accepts_none hp <;> cases offset <;> rfl

/-- After one window the reader does not follow another. -/
theorem readTail_limit_limit {tail : List Char} {q : Query} {w : Window}
    (h : readTail tail = .accepts (q, some w)) (limit : ℕ) (offset : Option ℕ) :
    readTail (tail ++ (limitText limit offset).toList) = .outside := by
  obtain ⟨p, hp, hread⟩ := readTail_append_limit h limit offset
  rw [hread, lex_limitPieces]
  obtain ⟨n, rfl⟩ | rfl := finish_eq_accepts_some hp <;> cases offset <;> rfl

end RewardsDriver.Store
