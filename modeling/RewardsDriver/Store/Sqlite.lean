import Mathlib.Data.List.Sort
import RewardsDriver.Store.Statements

/-!
The engine under the store, and the connection that the store's functions run on.

SQLite and the header library over it are not part of the program. `Sqlite` states what the store
relies on: texts that the reader follows mean what it says, a query returns the rows it selects in
some fixed order, and a `LIMIT` after a query either takes effect, or is commented out, or makes
the text refused. `reference` is one engine that does all this.

* `Sqlite`, `Sqlite.apply`: the engine and the effect of a statement on the tables.
* `Conn`: the connection, with its open transaction and the failures that the environment has in
  store for the statements to come; `Conn.failed`: a failure may end the transaction.
* `DbM`: the computations on a connection, with `bind_ok`, `bind_error` and the rules for
  `tryCatch`.
* `runSql`, `runSql_ok`, `runSql_refused`: **one statement**, what it does if nothing fails, and
  that a refused text does nothing.
-/

namespace RewardsDriver.Store

open RewardsDriver.Sql

/-- A value bound to a parameter. -/
inductive Value where
  | null
  | int (i : Int64)
  | real (x : Number)
  | text (s : String)
  deriving DecidableEq

/-- Binding a double: NaN is NULL. -/
def Value.double : Double → Value
  | .nan => .null
  | .val x => .real x

/-- Binding a `bool`. -/
def Value.bool (b : Bool) : Value := .int (if b then 1 else 0)

/-- Reading a `bool` from an integer column. -/
def columnBool (v : Int64) : Bool := v.toInt32 ≠ 0

/-- The amount that `INSERT OR REPLACE` stores: NULL is replaced by the default of the column. -/
def amount? : Value → Option Number
  | .real x => some x
  | .null => some 0
  | _ => none

/-- A row of the join of `recurring_donation AS rd` and `publisher_info AS pi`. -/
structure Donation where
  rd : DonationRow
  pi : PublisherRow
  deriving DecidableEq

/-- A row of the join of `contribution_info AS ci` and `publisher_info AS pi`. -/
structure Tip where
  ci : ContributionRow
  pi : PublisherRow
  deriving DecidableEq

/-- The rows of the join on `rd.publisher_id = pi.publisher_id`. -/
def Db.donations (db : Db) : List Donation :=
  db.recurring_donation.rows.flatMap fun d =>
    ((db.publisher_info.row? d.publisher_id).map (Donation.mk d)).toList

/-- The publisher of a media key. -/
def Db.mediaPublisher (db : Db) (media_key : String) : Option PublisherRow :=
  (db.media_publisher_info.row? media_key).bind fun m => db.publisher_info.row? m.publisher_id

/-- The rows that a statement returns. -/
inductive Rows where
  | none
  | values (vs : List String)
  | publishers (rs : List PublisherRow)
  | donations (rs : List Donation)
  | tips (rs : List Tip)
  | joined (rs : List Joined)
  | counts (ns : List UInt64)
  deriving DecidableEq

/-- The first rows. -/
def Rows.take (k : ℕ) : Rows → Rows
  | .none => .none
  | .values vs => .values (vs.take k)
  | .publishers rs => .publishers (rs.take k)
  | .donations rs => .donations (rs.take k)
  | .tips rs => .tips (rs.take k)
  | .joined rs => .joined (rs.take k)
  | .counts ns => .counts (ns.take k)

/-! ### The engine -/

/-- What a `LIMIT` does after a query: it takes effect, it is commented out, or it makes the text
refused. -/
inductive TailMode where
  | windows
  | ignores
  | refuses
  deriving DecidableEq

/-- The query with a window after it, if the text before means a query with the window `w₀`. -/
def TailMode.apply : TailMode → Core → Option Window → Window → Option Statement
  | .windows, core, _, w => some (.select core (some w))
  | .ignores, core, w₀, _ => some (.select core w₀)
  | .refuses, _, _, _ => none

/-- SQLite and `sqlite_modern_cpp`, as far as the store relies on them. -/
structure Sqlite where
  /-- What a text is prepared to; `none` if it is not one complete statement. -/
  prepare : SqlText → Option Statement
  /-- The rows of a query, in the order in which the engine visits them. -/
  find : Core → Db → List Joined
  /-- The rows of a `SELECT COUNT` outside the fragment that the reader follows. -/
  counts : String → Db → List UInt64
  /-- The rows of the recurring donations. -/
  recurring : Db → List Donation
  /-- The number that a text is read as where a double is asked for. -/
  real : String → Number
  /-- A text that the reader accepts is prepared to what it means. -/
  accepts : ∀ t s, read t = .accepts s → prepare t = some s
  /-- A text that the reader refuses is refused. -/
  refuses : ∀ t, read t = .refuses → prepare t = none
  /-- A text that begins like a query of `Find` is a query, or is refused. -/
  outside : ∀ (t : SqlText) s, t.head = .find → read t = .outside → prepare t = some s →
    ∃ core, s = .select core none
  /-- A window after a query has the same fate for all limits and offsets, and does not take
  effect after another window. -/
  window : ∀ (t : SqlText) core w₀, t.head = .find → prepare t = some (.select core w₀) →
    ∃ mode : TailMode, (mode = .windows → w₀ = none) ∧
      ∀ (limit : ℕ) (offset : Option ℕ), limit < 2 ^ 63 → offset.getD 0 < 2 ^ 63 →
        prepare ⟨t.head, t.tail ++ limitText limit offset⟩
          = mode.apply core w₀ ⟨limit, offset.getD 0⟩
  /-- A query returns the rows it selects. -/
  find_perm : ∀ q db, (find (.query q) db).Perm (q.rows db)
  /-- The rows of a query with an order are sorted. -/
  find_sorted : ∀ q c asc db, q.order = some (c, asc) →
    (find (.query q) db).Pairwise fun r r' => (if asc then c.le r r' else c.le r' r) = true
  /-- The recurring donations are the rows of their join. -/
  recurring_perm : ∀ db, (recurring db).Perm db.donations

/-! ### A reference engine -/

/-- Preparing the texts that the reader follows, and no others. -/
def referencePrepare (t : SqlText) : Option Statement :=
  match read t with
  | .accepts s => some s
  | _ => none

lemma referencePrepare_eq_some {t : SqlText} {s : Statement} :
    referencePrepare t = some s ↔ read t = .accepts s := by
  rw [referencePrepare]
  cases read t <;> simp

/-- The rows of a query in the order of the join, sorted if an order is asked for. -/
def referenceFind : Core → Db → List Joined
  | .query ⟨conds, none⟩, db => Query.rows ⟨conds, none⟩ db
  | .query ⟨conds, some (c, asc)⟩, db =>
      (Query.rows ⟨conds, some (c, asc)⟩ db).mergeSort fun r r' =>
        if asc then c.le r r' else c.le r' r
  | .foreign _, _ => []

/-- What a text of `Find` means is what its tail means. -/
lemma readTail_of_read {t : SqlText} {core : Core} {w : Option Window} (ht : t.head = .find)
    (h : read t = .accepts (.select core w)) :
    '\x00' ∉ t.tail.toList ∧ ∃ q, core = .query q ∧ readTail t.tail.toList = .accepts (q, w) := by
  rw [read] at h
  split at h
  · simp at h
  · rename_i hnul
    simp only [ht] at h
    cases htail : readTail t.tail.toList with
    | accepts r =>
        simp only [htail, Reading.select, Reading.accepts.injEq, Statement.select.injEq] at h
        exact ⟨hnul, r.1, h.1.symm, by rw [← h.2]⟩
    | refuses => simp [htail, Reading.select] at h
    | outside => simp [htail, Reading.select] at h

/-- A text of `Find` with a window after it. -/
lemma read_limit {t : SqlText} (ht : t.head = .find) (hnul : '\x00' ∉ t.tail.toList)
    (limit : ℕ) (offset : Option ℕ) :
    read ⟨t.head, t.tail ++ limitText limit offset⟩
      = (readTail (t.tail.toList ++ (limitText limit offset).toList)).select := by
  have hnul' : '\x00' ∉ (t.tail ++ limitText limit offset).toList := by
    rw [String.toList_append, List.mem_append, not_or]
    exact ⟨hnul, nul_notMem_limitText limit offset⟩
  rw [read, if_neg hnul']
  simp only [ht, String.toList_append]

/-- The fate of a window after a text that the reader follows. -/
lemma referencePrepare_limit {t : SqlText} {core : Core} {w₀ : Option Window} (ht : t.head = .find)
    (h : referencePrepare t = some (.select core w₀)) :
    ∃ mode : TailMode, (mode = .windows → w₀ = none) ∧
      ∀ (limit : ℕ) (offset : Option ℕ),
        referencePrepare ⟨t.head, t.tail ++ limitText limit offset⟩
          = mode.apply core w₀ ⟨limit, offset.getD 0⟩ := by
  obtain ⟨hnul, q, rfl, htail⟩ := readTail_of_read ht (referencePrepare_eq_some.mp h)
  cases w₀ with
  | none =>
      refine ⟨.windows, fun _ => rfl, fun limit offset => ?_⟩
      rw [referencePrepare, read_limit ht hnul, readTail_limit htail]
      rfl
  | some w =>
      refine ⟨.refuses, fun h => (by cases h), fun limit offset => ?_⟩
      rw [referencePrepare, read_limit ht hnul, readTail_limit_limit htail]
      rfl

/-- An engine that prepares only what the reader follows and visits the rows in the order of the
join. -/
def reference : Sqlite where
  prepare := referencePrepare
  find := referenceFind
  counts := fun _ _ => []
  recurring := Db.donations
  real := fun _ => 0
  accepts := fun t s h => referencePrepare_eq_some.mpr h
  refuses := fun t h => by simp [referencePrepare, h]
  outside := fun t s _ h hs => by simp [referencePrepare, h] at hs
  window := fun t core w₀ ht h => by
    obtain ⟨mode, hmode, hprepare⟩ := referencePrepare_limit ht h
    exact ⟨mode, hmode, fun limit offset _ _ => hprepare limit offset⟩
  find_perm := fun q db => by
    obtain ⟨conds, order⟩ := q
    cases order with
    | none => exact .refl _
    | some o => exact List.mergeSort_perm _ _
  find_sorted := fun q c asc db h => by
    obtain ⟨conds, order⟩ := q
    dsimp only at h
    subst h
    refine List.pairwise_mergeSort (fun r r' r'' => ?_) (fun r r' => ?_) _
    · cases asc with
      | true => exact c.le_trans r r' r''
      | false => exact fun h h' => c.le_trans r'' r' r h' h
    · cases asc with
      | true => exact c.le_or_le r r'
      | false => exact c.le_or_le r' r
  recurring_perm := fun _ => .refl _

/-! ### The effect of a statement -/

/-- The effect of a statement on the tables, and its rows. The statements that change the
transaction are not among them, and operands of another shape do not occur. -/
def Sqlite.effect (E : Sqlite) : Statement → List Value → Db → Option (Db × Rows)
  | .createTable t, [], db => some ({ db with tables := insert t db.tables }, .none)
  | .createIndex i, [], db => some ({ db with indices := insert i db.indices }, .none)
  | .replaceMeta, [.text key, .int v], db =>
      some ({ db with «meta» := db.meta.replace ⟨key, toString v.toInt⟩ }, .none)
  | .readMeta, [.text key], db =>
      some (db, .values ((db.meta.row? key).map (·.value)).toList)
  | .replacePublisherInfo,
      [.text id, .int verified, .int excluded, .text name, .text url, .text provider,
        .text favIcon], db =>
      let row : PublisherRow := ⟨id, verified, excluded, name, favIcon, url, provider⟩
      some ({ db with publisher_info := db.publisher_info.replace row }, .none)
  | .replaceMediaPublisherInfo, [.text media_key, .text publisher_id], db =>
      let row : MediaRow := ⟨media_key, publisher_id⟩
      some ({ db with media_publisher_info := db.media_publisher_info.replace row }, .none)
  | .readMediaPublisherInfo, [.text media_key], db =>
      some (db, .publishers (db.mediaPublisher media_key).toList)
  | .insertContributionInfo,
      [.text publisher_id, .text probi, .int date, .int category, .int month, .int year], db =>
      let row : ContributionRow := ⟨publisher_id, probi, date, category, month, year⟩
      some ({ db with contribution_info := db.contribution_info ++ [row] }, .none)
  | .replaceRecurringDonation, [.text publisher_id, amount, .int added_date], db =>
      (amount? amount).map fun a =>
        let row : DonationRow := ⟨publisher_id, a, added_date⟩
        ({ db with recurring_donation := db.recurring_donation.replace row }, .none)
  | .readRecurringDonation, [], db => some (db, .donations (E.recurring db))
  | .select core none, [], db => some (db, .joined (E.find core db))
  | .select core (some w), [], db => some (db, .joined (w.slice (E.find core db)))
  | .count (.query q), [], db => some (db, .counts [UInt64.ofNat (q.rows db).length])
  | .count (.foreign text), [], db => some (db, .counts (E.counts text db))
  | _, _, _ => none

/-! ### The connection -/

/-- The exception that the library throws. -/
inductive SqlException where
  | sqlite_exception

/-- The store's connection to its file. `txn` is the database as the open transaction sees it.
`fails` tells of each statement to come whether the environment makes it fail (a full disk, a lock,
whatever else the file holds), and after how many rows; a statement that fails changes nothing. Of
those that fail, `rollsBack` tells with which of them SQLite rolls the open transaction back of its
own accord; the others leave it open. -/
structure Conn where
  initialized_ : Bool
  file : Db
  txn : Option Db
  fails : ℕ → Option ℕ
  rollsBack : ℕ → Bool

/-- No statement to come is made to fail. -/
def Conn.Quiet (c : Conn) : Prop := ∀ n, c.fails n = none

/-- The database that the connection sees. -/
def Conn.visible (c : Conn) : Db := c.txn.getD c.file

/-- Past one statement. -/
def Conn.next (c : Conn) : Conn :=
  { c with fails := fun n => c.fails (n + 1), rollsBack := fun n => c.rollsBack (n + 1) }

@[simp] lemma Conn.next_initialized_ (c : Conn) : c.next.initialized_ = c.initialized_ := rfl
@[simp] lemma Conn.next_file (c : Conn) : c.next.file = c.file := rfl
@[simp] lemma Conn.next_txn (c : Conn) : c.next.txn = c.txn := rfl
@[simp] lemma Conn.next_fails (c : Conn) (n : ℕ) : c.next.fails n = c.fails (n + 1) := rfl
@[simp] lemma Conn.next_rollsBack (c : Conn) (n : ℕ) :
    c.next.rollsBack n = c.rollsBack (n + 1) := rfl

/-- The statement `n` is made to fail, and takes the open transaction with it. -/
def Conn.Drops (c : Conn) (n : ℕ) : Prop := c.fails n ≠ none ∧ c.rollsBack n = true

instance (c : Conn) (n : ℕ) : Decidable (c.Drops n) := inferInstanceAs (Decidable (_ ∧ _))

/-- Past one statement that has failed. -/
def Conn.failed (c : Conn) : Conn := if c.Drops 0 then { c.next with txn := none } else c.next

lemma Conn.failed_of_drops {c : Conn} (h : c.Drops 0) : c.failed = { c.next with txn := none } :=
  if_pos h

lemma Conn.failed_of_not_drops {c : Conn} (h : ¬ c.Drops 0) : c.failed = c.next := if_neg h

/-- Outside a transaction there is nothing to roll back. -/
lemma Conn.failed_of_txn {c : Conn} (h : c.txn = none) : c.failed = c.next := by
  have hnext : ({ c.next with txn := none } : Conn) = c.next := by
    rw [← h]
    rfl
  rw [failed, hnext, ite_self]

lemma Conn.Quiet.next {c : Conn} (h : c.Quiet) : c.next.Quiet := fun n => h (n + 1)

/-- Writing the visible database: into the transaction if one is open, else into the file. -/
def Conn.write (c : Conn) (db : Db) : Conn :=
  match c.txn with
  | some _ => { c with txn := some db }
  | none => { c with file := db }

/-- The effect of a statement on a connection, if nothing makes it fail. -/
def Sqlite.apply (E : Sqlite) (s : Statement) (binds : List Value) (c : Conn) :
    Option (Conn × Rows) :=
  match s with
  | .begin => if c.txn.isNone then some ({ c with txn := some c.file }, .none) else none
  | .commit => c.txn.map fun db => ({ c with file := db, txn := none }, .none)
  | .rollback => c.txn.map fun _ => ({ c with txn := none }, .none)
  | s =>
      if ∀ t ∈ s.needs, t ∈ c.visible.tables then
        (E.effect s binds c.visible).map fun r => (c.write r.1, r.2)
      else none

/-! ### Computations on a connection -/

/-- A computation on the connection that may throw. -/
def DbM (α : Type) : Type := Conn → Except SqlException α × Conn

namespace DbM

variable {α β : Type}

def pure (a : α) : DbM α := fun c => (.ok a, c)

def bind (x : DbM α) (f : α → DbM β) : DbM β := fun c =>
  match x c with
  | (.ok a, c') => f a c'
  | (.error e, c') => (.error e, c')

instance : Monad DbM where
  pure := pure
  bind := bind

/-- `throw`. -/
def throw : DbM α := fun c => (.error .sqlite_exception, c)

/-- `try … catch`: what the `try` block has done to the connection stays done. -/
def tryCatch (x handler : DbM α) : DbM α := fun c =>
  match x c with
  | (.ok a, c') => (.ok a, c')
  | (.error _, c') => handler c'

/-- The connection itself. -/
def get : DbM Conn := fun c => (.ok c, c)

/-- Changing the connection. -/
def modify (f : Conn → Conn) : DbM Unit := fun c => (.ok (), f c)

lemma bind_ok {x : DbM α} {f : α → DbM β} {c c' : Conn} {a : α} (h : x c = (.ok a, c')) :
    (x >>= f) c = f a c' := by
  change bind x f c = f a c'
  rw [bind, h]

lemma bind_error {x : DbM α} {f : α → DbM β} {c c' : Conn} {e : SqlException}
    (h : x c = (.error e, c')) : (x >>= f) c = (.error e, c') := by
  change bind x f c = (.error e, c')
  rw [bind, h]

lemma tryCatch_ok {x handler : DbM α} {c c' : Conn} {a : α} (h : x c = (.ok a, c')) :
    tryCatch x handler c = (.ok a, c') := by
  rw [tryCatch, h]

lemma tryCatch_error {x handler : DbM α} {c c' : Conn} {e : SqlException}
    (h : x c = (.error e, c')) : tryCatch x handler c = handler c' := by
  rw [tryCatch, h]

@[simp] lemma pure_apply (a : α) (c : Conn) : (Pure.pure a : DbM α) c = (.ok a, c) := rfl

end DbM

variable (E : Sqlite)

/-- Preparing a text, binding the operands and running the statement. The rows that were returned
before a failure are returned with `false`. -/
def stepSql (t : SqlText) (binds : List Value) : DbM (Rows × Bool) := fun c =>
  match (E.prepare t).bind fun s => E.apply s binds c.next with
  | none => (.error .sqlite_exception, c.failed)
  | some (c', rows) =>
      match c.fails 0 with
      | none => (.ok (rows, true), c')
      | some k => (.ok (rows.take k, false), c.failed)

/-- A statement whose rows are of use only when all of them are there. -/
def runSql (t : SqlText) (binds : List Value) : DbM Rows := do
  let (rows, done) ← stepSql E t binds
  if done then return rows else DbM.throw

variable {E}

/-- A statement that nothing makes fail. -/
lemma runSql_ok {t : SqlText} {s : Statement} {b : List Value} {c c' : Conn} {rows : Rows}
    (ht : read t = .accepts s) (happly : E.apply s b c.next = some (c', rows))
    (hc : c.fails 0 = none) : runSql E t b c = (.ok rows, c') := by
  have hstep : stepSql E t b c = (.ok (rows, true), c') := by
    simp [stepSql, E.accepts t s ht, happly, hc]
  exact DbM.bind_ok hstep

/-- A statement that the environment makes fail. -/
lemma runSql_fails {t : SqlText} {b : List Value} {c : Conn} {k : ℕ}
    (hc : c.fails 0 = some k) : runSql E t b c = (.error .sqlite_exception, c.failed) := by
  cases h : (E.prepare t).bind fun s => E.apply s b c.next with
  | none => exact DbM.bind_error (by simp [stepSql, h])
  | some r =>
      obtain ⟨c', rows⟩ := r
      have hstep : stepSql E t b c = (.ok (rows.take k, false), c.failed) := by
        simp [stepSql, h, hc]
      exact DbM.bind_ok hstep

/-- A refused text does nothing outside a transaction. -/
lemma stepSql_refused {t : SqlText} {b : List Value} {c : Conn} (hc : c.txn = none)
    (ht : read t = .refuses) : stepSql E t b c = (.error .sqlite_exception, c.next) := by
  simp [stepSql, E.refuses t ht, Conn.failed_of_txn hc]

lemma runSql_refused {t : SqlText} {b : List Value} {c : Conn} (hc : c.txn = none)
    (ht : read t = .refuses) : runSql E t b c = (.error .sqlite_exception, c.next) :=
  DbM.bind_error (stepSql_refused hc ht)

end RewardsDriver.Store
