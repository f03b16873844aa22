import RewardsDriver.Store.Sqlite

/-!
Opening the store: `PublisherInfoDatabase::Init` and what it calls.

`Init` opens the file, begins a transaction, writes both rows of `meta`, creates the tables and the
indices, reads the versions back and commits. It draws on the environment in a fixed order, one
failure for each statement: 0 the open, 1 the begin, 2 to 4 the meta table, 5 to 9 the tables, 10
to 12 the indices, 13 and 14 the versions, 15 the commit and 16 the rollback.

* `metaTableInit`, `createTable`, `ensureCurrentVersion`, `init`: the functions.
* `Conn.Ready`: a store that `Init` has opened; `stepSql_ready`: a statement on it.
* `init_of_begin_error`, `init_of_returns`, `init_of_throws`: the three ways through `Init`.
-/

namespace RewardsDriver.Store

open RewardsDriver.Sql

def kCurrentVersionNumber : Int32 := 1

def kCompatibleVersionNumber : Int32 := 1

/-- `GetCurrentVersion`. -/
def getCurrentVersion : Int32 := kCurrentVersionNumber

/-- A `try` block that sets `succeded` at its end. -/
def succeeds (x : DbM Unit) : DbM Bool :=
  DbM.tryCatch (do x; return true) (return false)

variable (E : Sqlite)

/-- A statement whose rows are not read. -/
def execSql (h : Head) (binds : List Value) : DbM Unit := do
  let _ ← runSql E ⟨h, ""⟩ binds

/-- `MetaTableInit`. -/
def metaTableInit : DbM Bool := succeeds do
  execSql E .createMeta []
  execSql E .insertMeta [.text "version", .int getCurrentVersion.toInt64]
  execSql E .insertMeta [.text "last_compatible_version", .int kCompatibleVersionNumber.toInt64]

/-- The functions that create a table or an index. -/
def createTable (h : Head) : DbM Bool := succeeds (execSql E h [])

def createPublisherInfoTable : DbM Bool := createTable E .createPublisherInfo

def createContributionInfoTable : DbM Bool := createTable E .createContributionInfo

def createActivityInfoTable : DbM Bool := createTable E .createActivityInfo

def createMediaPublisherInfoTable : DbM Bool := createTable E .createMediaPublisherInfo

def createRecurringDonationTable : DbM Bool := createTable E .createRecurringDonation

def createContributionInfoIndex : DbM Bool := createTable E .createContributionInfoIndex

def createActivityInfoIndex : DbM Bool := createTable E .createActivityInfoIndex

def createRecurringDonationIndex : DbM Bool := createTable E .createRecurringDonationIndex

/-- An integer read from a text column: the digits that the text begins with, after spaces and a
sign, cut off at the range of 64 bits and then to 32 bits. -/
def columnInt (s : String) : Int32 :=
  let cs := s.toList.dropWhile isSpace
  let value := fun ds : List Char => (Nat.ofDigitChars 10 (ds.takeWhile Char.isDigit) 0 : ℤ)
  let n := match cs with
    | '-' :: ds => -value ds
    | '+' :: ds => value ds
    | ds => value ds
  Int32.ofInt (max (-2 ^ 63) (min n (2 ^ 63 - 1)))

/-- `*db_ << "SELECT value FROM meta WHERE key=?" << key >> value`: throws without a row. -/
def readVersion (key : String) : DbM Int32 := do
  match ← runSql E ⟨.selectMeta, ""⟩ [.text key] with
  | .values [v] => return columnInt v
  | _ => DbM.throw

/-- `EnsureCurrentVersion`. -/
def ensureCurrentVersion : DbM Bool :=
  DbM.tryCatch
    (do
      let last_compatible_version ← readVersion E "last_compatible_version"
      let _version ← readVersion E "version"
      return decide (last_compatible_version ≤ kCurrentVersionNumber))
    (return false)

/-- Opening the file. A new connection replaces the old one, whose transaction is rolled back. -/
def openDatabase : DbM Unit := fun c =>
  match c.fails 0 with
  | none => (.ok (), { c.next with txn := none })
  | some _ => (.error .sqlite_exception, c.next)

/-- Running the functions of a condition `a() && b() && …` up to the first that returns `false`. -/
def allOf : List (DbM Bool) → DbM Bool
  | [] => return true
  | x :: xs => do if ← x then allOf xs else return false

/-- The functions that the condition of `Init` calls, in order. -/
def createAll : List (DbM Bool) :=
  [metaTableInit E, createPublisherInfoTable E, createContributionInfoTable E,
    createActivityInfoTable E, createMediaPublisherInfoTable E, createRecurringDonationTable E]

/-- The end of the `try` block of `Init`: the version check and the commit. -/
def commitIfCurrent : DbM Bool := do
  let version_status ← ensureCurrentVersion E
  if version_status then
    execSql E .commit []
    DbM.modify fun c => { c with initialized_ := true }
    return true
  else return false

/-- The part of `Init` between the begin and the end of the `try` block. -/
def afterBegin : DbM Bool := do
  let created ← allOf (createAll E)
  if created then
    let _ ← createContributionInfoIndex E
    let _ ← createActivityInfoIndex E
    let _ ← createRecurringDonationIndex E
    commitIfCurrent E
  else return false

/-- What a block returns or throws. -/
def attempt {α : Type} (x : DbM α) : DbM (Except SqlException α) := fun c => (.ok (x c).1, (x c).2)

/-- The first statements of the `try` block of `Init`. -/
def beginTransaction : DbM Unit := do
  openDatabase
  execSql E .begin []

/-- The handler of `Init`. Its rollback is not in a `try` block. -/
def initHandler (transactionStarted : Bool) : DbM Bool := do
  DbM.modify fun c => { c with initialized_ := false }
  if transactionStarted then execSql E .rollback []
  return false

/-- `Init`. -/
def init : DbM Bool := do
  if (← DbM.get).initialized_ then return true
  match ← attempt (beginTransaction E) with
  | .error _ => initHandler E false
  | .ok _ =>
      match ← attempt (afterBegin E) with
      | .ok initialized => return initialized
      | .error _ => initHandler E true

/-! ### One statement -/

variable {E}

/-- A text that stands alone means its statement. -/
lemma read_alone (h : Head) : read ⟨h, ""⟩ = h.statement := by
  cases h <;> rfl

lemma execSql_ok {h : Head} {s : Statement} {b : List Value} {c c' : Conn} {r : Rows}
    (ht : read ⟨h, ""⟩ = .accepts s) (happly : E.apply s b c.next = some (c', r))
    (hc : c.fails 0 = none) : execSql E h b c = (.ok (), c') :=
  DbM.bind_ok (runSql_ok ht happly hc)

lemma execSql_fails {h : Head} {b : List Value} {c : Conn} {k : ℕ} (hc : c.fails 0 = some k) :
    execSql E h b c = (.error .sqlite_exception, c.failed) :=
  DbM.bind_error (runSql_fails hc)

/-- A statement that does not apply throws. -/
lemma runSql_inapplicable {t : SqlText} {s : Statement} {b : List Value} {c : Conn}
    (ht : read t = .accepts s) (happly : E.apply s b c.next = none) :
    runSql E t b c = (.error .sqlite_exception, c.failed) :=
  DbM.bind_error (by simp [stepSql, E.accepts _ s ht, happly])

lemma succeeds_ok {x : DbM Unit} {c c' : Conn} (h : x c = (.ok (), c')) :
    succeeds x c = (.ok true, c') :=
  DbM.tryCatch_ok (DbM.bind_ok h)

lemma succeeds_error {x : DbM Unit} {c c' : Conn} {e : SqlException} (h : x c = (.error e, c')) :
    succeeds x c = (.ok false, c') :=
  DbM.tryCatch_error (DbM.bind_error h)

/-! ### An open store -/

/-- An initialised store: no transaction is open and every table exists. -/
structure Conn.Ready (c : Conn) : Prop where
  initialized : c.initialized_ = true
  txn : c.txn = none
  complete : c.file.Complete

lemma Conn.Ready.visible {c : Conn} (h : c.Ready) : c.visible = c.file := by
  simp [Conn.visible, h.txn]

lemma Conn.Ready.next {c : Conn} (h : c.Ready) : c.next.Ready :=
  ⟨h.initialized, h.txn, h.complete⟩

/-- A store without rows. -/
def Db.fresh : Db where
  tables := {.meta, .publisher_info, .contribution_info, .activity_info, .media_publisher_info,
    .recurring_donation}
  indices := ∅
  «meta» := .empty
  publisher_info := .empty
  contribution_info := []
  activity_info := []
  media_publisher_info := .empty
  recurring_donation := .empty

lemma Db.fresh_complete : Db.fresh.Complete := by
  intro t
  cases t <;> decide

/-- An initialised store on a file, in an environment without failures. -/
def Conn.on (db : Db) : Conn := ⟨true, db, none, fun _ => none, fun _ => false⟩

lemma Conn.on_ready {db : Db} (h : db.Complete) : (Conn.on db).Ready := ⟨rfl, rfl, h⟩

lemma Conn.on_quiet (db : Db) : (Conn.on db).Quiet := fun _ => rfl

/-- An initialised store is not opened again. -/
lemma init_of_initialized {c : Conn} (h : c.initialized_ = true) : init E c = (.ok true, c) := by
  have hget : DbM.get c = (.ok c, c) := rfl
  rw [init, DbM.bind_ok hget, if_pos h]
  rfl

lemma init_of_ready {c : Conn} (h : c.Ready) : init E c = (.ok true, c) :=
  init_of_initialized h.initialized

/-- A statement outside a transaction works on the file. -/
lemma apply_auto {s : Statement} {b : List Value} {c : Conn} {db : Db} {rows : Rows}
    (hs : s ≠ .begin ∧ s ≠ .commit ∧ s ≠ .rollback) (htxn : c.txn = none)
    (hneeds : ∀ t ∈ s.needs, t ∈ c.file.tables)
    (heffect : E.effect s b c.file = some (db, rows)) :
    E.apply s b c = some ({ c with file := db }, rows) := by
  have hvisible : c.visible = c.file := by simp [Conn.visible, htxn]
  have hwrite : c.write db = { c with file := db } := by simp only [Conn.write, htxn]
  cases s with
  | begin | commit | rollback => simp at hs
  | _ => simp_all [Sqlite.apply]

/-- A statement on an initialised store works on the file. -/
lemma apply_ready {s : Statement} {b : List Value} {c : Conn} {db : Db} {rows : Rows}
    (hready : c.Ready) (hs : s ≠ .begin ∧ s ≠ .commit ∧ s ≠ .rollback)
    (heffect : E.effect s b c.file = some (db, rows)) :
    E.apply s b c.next = some ({ c.next with file := db }, rows) :=
  apply_auto (c := c.next) hs hready.txn (fun t _ => hready.complete t) heffect

/-- A failure on an initialised store. -/
lemma Conn.Ready.failed {c : Conn} (h : c.Ready) : c.failed = c.next := Conn.failed_of_txn h.txn

/-- A statement that only reads, on an initialised store. -/
lemma stepSql_ready {t : SqlText} {s : Statement} {b : List Value} {c : Conn} {rows : Rows}
    (hready : c.Ready) (ht : E.prepare t = some s)
    (hs : s ≠ .begin ∧ s ≠ .commit ∧ s ≠ .rollback)
    (heffect : E.effect s b c.file = some (c.file, rows)) :
    stepSql E t b c = (.ok (match c.fails 0 with
      | none => (rows, true)
      | some k => (rows.take k, false)), c.next) := by
  have happly := apply_ready hready hs heffect
  have hconn : ({ c.next with file := c.file } : Conn) = c.next := rfl
  rw [hconn] at happly
  cases hc : c.fails 0 <;> simp [stepSql, ht, happly, hc, hready.failed]

/-! ### The ways through `Init` -/

/-- `Init` when the transaction does not begin. -/
lemma init_of_begin_error {c c' : Conn} {e : SqlException} (h : c.initialized_ = false)
    (hbegin : beginTransaction E c = (.error e, c')) : init E c = initHandler E false c' := by
  have hget : DbM.get c = (.ok c, c) := rfl
  have hattempt : attempt (beginTransaction E) c = (.ok (.error e), c') := by
    rw [attempt, hbegin]
  rw [init, DbM.bind_ok hget, if_neg (by simp [h])]
  exact DbM.bind_ok hattempt

/-- `Init` when the rest of its `try` block returns. -/
lemma init_of_returns {c c₁ c₂ : Conn} {b : Bool} (h : c.initialized_ = false)
    (hbegin : beginTransaction E c = (.ok (), c₁)) (hafter : afterBegin E c₁ = (.ok b, c₂)) :
    init E c = (.ok b, c₂) := by
  have hget : DbM.get c = (.ok c, c) := rfl
  have hattempt₁ : attempt (beginTransaction E) c = (.ok (.ok ()), c₁) := by
    rw [attempt, hbegin]
  have hattempt₂ : attempt (afterBegin E) c₁ = (.ok (.ok b), c₂) := by rw [attempt, hafter]
  rw [init, DbM.bind_ok hget, if_neg (by simp [h])]
  exact (DbM.bind_ok hattempt₁).trans (DbM.bind_ok hattempt₂)

/-- `Init` when the rest of its `try` block throws. -/
lemma init_of_throws {c c₁ c₂ : Conn} {e : SqlException} (h : c.initialized_ = false)
    (hbegin : beginTransaction E c = (.ok (), c₁)) (hafter : afterBegin E c₁ = (.error e, c₂)) :
    init E c = initHandler E true c₂ := by
  have hget : DbM.get c = (.ok c, c) := rfl
  have hattempt₁ : attempt (beginTransaction E) c = (.ok (.ok ()), c₁) := by
    rw [attempt, hbegin]
  have hattempt₂ : attempt (afterBegin E) c₁ = (.ok (.error e), c₂) := by rw [attempt, hafter]
  rw [init, DbM.bind_ok hget, if_neg (by simp [h])]
  exact (DbM.bind_ok hattempt₁).trans (DbM.bind_ok hattempt₂)

end RewardsDriver.Store
