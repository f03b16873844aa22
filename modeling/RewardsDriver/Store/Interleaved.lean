import RewardsDriver.Base.Interleaved
import RewardsDriver.Store.LastWrite

/-!
The write operations of one open store, called from several threads at once.

The operations take no lock. The connection is used by one statement at a time, so that another
thread's statements may stand between any two of an operation. `InsertOrUpdatePublisherInfo` asks
for the activity before it would write it; but this query is refused, and of every operation only
one statement has an effect.

* `Steps`, `Write.steps`: the operations statement by statement; `steps_run`: **on its own** an
  operation is the one of the sequential store.
* `Write.Alone`: what an operation can do and return on its own.
* `steps_atomic`: **one statement** has the effect of an operation.
* `writes_linearizable`: in every interleaving the operations are those of one thread.
* `Cell`: what operations set or leave in the rows; `newest_row`: **no save is lost** to one that
  had returned before it.
-/

namespace RewardsDriver.Store

open RewardsDriver.Sql RewardsDriver.Interleaved

/-! ### Statement by statement -/

/-- A computation on the connection whose accesses are the statements. -/
def Steps (α : Type) : Type := Prog Conn (Except SqlException α)

namespace Steps

variable {α β : Type}

def pure (a : α) : Steps α := .done (.ok a)

def bind (p : Steps α) (f : α → Steps β) : Steps β := Prog.bind p fun
  | .ok a => f a
  | .error e => .done (.error e)

instance : Monad Steps where
  pure := pure
  bind := bind

/-- All in one statement. -/
def statement (x : DbM α) : Steps α := Prog.atomically x

/-- `try … catch`. -/
def tryCatch (p handler : Steps α) : Steps α := Prog.bind p fun
  | .ok a => .done (.ok a)
  | .error _ => handler

/-- The computation on its own. -/
def run (p : Steps α) : DbM α := Prog.run p

lemma run_pure (a : α) : (Pure.pure a : Steps α).run = Pure.pure a := rfl

lemma run_bind (p : Steps α) (f : α → Steps β) :
    (p >>= f).run = (p.run >>= fun a => (f a).run) := by
  funext c
  have hbind : (p >>= f).run c = ((match (p.run c).1 with
      | .ok a => f a
      | .error e => Prog.done (.error e) : Steps β)).run (p.run c).2 := Prog.run_bind p _ c
  rw [hbind]
  cases hrun : p.run c with
  | mk r c' =>
      cases r with
      | ok a => exact (DbM.bind_ok (f := fun a => (f a).run) hrun).symm
      | error e => exact (DbM.bind_error (f := fun a => (f a).run) hrun).symm

lemma run_statement (x : DbM α) : (statement x).run = x := rfl

lemma run_tryCatch (p handler : Steps α) :
    (tryCatch p handler).run = DbM.tryCatch p.run handler.run := by
  funext c
  have hbind : (tryCatch p handler).run c = ((match (p.run c).1 with
      | .ok a => Prog.done (.ok a)
      | .error _ => handler : Steps α)).run (p.run c).2 := Prog.run_bind p _ c
  rw [hbind]
  cases hrun : p.run c with
  | mk r c' =>
      cases r with
      | ok a => exact (DbM.tryCatch_ok hrun).symm
      | error e => exact (DbM.tryCatch_error hrun).symm

lemma run_ite (q : Prop) [Decidable q] (x y : Steps α) :
    (if q then x else y).run = if q then x.run else y.run := by
  split <;> rfl

end Steps

section Operations

open Steps

variable (E : Sqlite)

/-- `Init` of an open store is one look at `initialized_`. -/
def Steps.init : Steps Bool := statement (Store.init E)

/-- A statement of an operation. -/
def Steps.execSql (h : Head) (binds : List Value) : Steps Unit :=
  statement (Store.execSql E h binds)

/-- The handler that every operation has. -/
def Steps.orFalse (x : Steps Bool) : Steps Bool := tryCatch x (return false)

/-- `InsertOrUpdatePublisherInfo`. -/
def Steps.insertOrUpdatePublisherInfo (info : PublisherInfo) : Steps Bool := Steps.orFalse do
  if !(← Steps.init E) then return false
  Steps.execSql E .insertPublisherInfo info.operands
  if info.month = 0 || info.year = 0 then return true
  let row_exixst ← statement (runSql E ⟨.selectActivityInfo, ""⟩
    [.text "publisher_id=? AND category=? AND month=? AND year=?  AND reconcile_stamp=?",
      .text info.id, .int info.category.toInt64, .int info.month.toInt64,
      .int info.year.toInt64, .int info.reconcile_stamp.toInt64])
  if row_exixst.nonempty then
    Steps.execSql E .updateActivityInfo
      [.text "duration=?, score=?, percent=?, ", .text "weight=? WHERE ",
        .text "publisher_id=? AND category=? ",
        .text "AND month=? AND year=? AND reconcile_stamp=?",
        .int info.duration.toInt64, .double info.score, .int info.percent.toInt64,
        .double info.weight, .text info.id, .int info.category.toInt64,
        .int info.month.toInt64, .int info.year.toInt64, .int info.reconcile_stamp.toInt64]
    return true
  Steps.execSql E .insertActivityInfo
    [.text "(publisher_id, duration, score, percent, ",
      .text "weight, category, month, year, reconcile_stamp) ",
      .text "VALUES (?, ?, ?, ?, ?, ?, ?, ?, ?)", .text info.id, .int info.duration.toInt64,
      .double info.score, .int info.percent.toInt64, .double info.weight,
      .int info.category.toInt64, .int info.month.toInt64, .int info.year.toInt64,
      .int info.reconcile_stamp.toInt64]
  return false

/-- `InsertOrUpdateMediaPublisherInfo`. `Init` is called before the `try` block. -/
def Steps.insertOrUpdateMediaPublisherInfo (media_key publisher_id : String) : Steps Bool := do
  if !(← Steps.init E) then return false
  Steps.orFalse do
    Steps.execSql E .insertMediaPublisherInfo [.text media_key, .text publisher_id]
    return true

/-- An operation of one statement that never sets `succeded`. -/
def Steps.writeOnly (h : Head) (binds : List Value) : Steps Bool := Steps.orFalse do
  if !(← Steps.init E) then return false
  Steps.execSql E h binds
  return false

/-- `InsertContributionInfo`. -/
def Steps.insertContributionInfo (info : ContributionInfo) : Steps Bool :=
  Steps.writeOnly E .insertContributionInfo info.operands

/-- `InsertOrUpdateRecurringDonation`. -/
def Steps.insertOrUpdateRecurringDonation (info : RecurringDonation) : Steps Bool :=
  Steps.writeOnly E .insertRecurringDonation info.operands

/-- `RemoveRecurring`. -/
def Steps.removeRecurring (publisher_key : String) : Steps Bool :=
  Steps.writeOnly E .deleteRecurringDonation [.text publisher_key]

/-- The operation, statement by statement. -/
def Write.steps : Write → Steps Bool
  | .publisherInfo info => Steps.insertOrUpdatePublisherInfo E info
  | .mediaPublisherInfo media_key publisher_id =>
      Steps.insertOrUpdateMediaPublisherInfo E media_key publisher_id
  | .contributionInfo info => Steps.insertContributionInfo E info
  | .recurringDonation info => Steps.insertOrUpdateRecurringDonation E info
  | .remove publisher_key => Steps.removeRecurring E publisher_key

/-- **On its own** an operation is the one of the sequential store. -/
theorem steps_run (w : Write) : (w.steps E).run = w.run E := by
  cases w <;>
    simp only [Write.steps, Write.run, Steps.insertOrUpdatePublisherInfo,
      Steps.insertOrUpdateMediaPublisherInfo, Steps.insertContributionInfo,
      Steps.insertOrUpdateRecurringDonation, Steps.removeRecurring, Steps.writeOnly,
      Steps.orFalse, Steps.init, Steps.execSql, run_tryCatch, run_bind, run_ite, run_pure,
      run_statement] <;>
    rfl

/-! ### One effect -/

/-- An open store, on which no statement fails if `quiet`. -/
structure Conn.Open (quiet : Prop) (c : Conn) : Prop where
  ready : c.Ready
  quiet : quiet → c.Quiet

/-- What the operation can make of the rows, and return, on its own on an open store. -/
def Write.Alone (quiet : Prop) (w : Write) (db : Db) (r : Except SqlException Bool) (db' : Db) :
    Prop :=
  ∃ c c', c.Open quiet ∧ c.file = db ∧ w.run E c = (r, c') ∧ c'.file = db'

/-- The effect of the operation, while it has got as far as `r`. -/
def Write.Effect {α : Type} (quiet : Prop) (w : Write) (value : α → Bool) (db : Db)
    (r : Except SqlException α) (db' : Db) : Prop :=
  match r with
  | .ok a => w.Alone E quiet db (.ok (value a)) db'
  | .error _ => w.Alone E quiet db (.ok false) db'

variable {E} {quiet : Prop}

lemma Write.Leaves.alone {w : Write} {c c' : Conn} (h : c.Open quiet) (hleaves : w.Leaves c c') :
    w.Alone E quiet c.file (.ok (decide (c.fails 0 = none) && w.returns)) c'.file := by
  obtain ⟨c'', hrun, hleaves'⟩ := run_ready (E := E) h.ready w
  exact ⟨c, c'', h, rfl, hrun, by rw [hleaves'.file, hleaves.file]⟩

lemma Write.Leaves.open {w : Write} {c c' : Conn} (h : c.Open quiet) (hleaves : w.Leaves c c') :
    c'.Open quiet := ⟨hleaves.ready, fun hq => hleaves.quiet (h.quiet hq)⟩

lemma returns_init : (Steps.init E).Returns (Conn.Open quiet) Conn.file (.ok true) :=
  Prog.returns_atomically fun c hc => by
    rw [init_of_ready hc.ready]
    exact ⟨hc, rfl, rfl⟩

/-- A statement that is refused. -/
lemma returns_refused {t : SqlText} (ht : read t = .refuses) (binds : List Value) :
    (Steps.statement (runSql E t binds)).Returns (Conn.Open quiet) Conn.file
      (.error .sqlite_exception) :=
  Prog.returns_atomically fun c hc => by
    rw [runSql_refused hc.ready.txn ht]
    exact ⟨⟨hc.ready.next, fun hq => (hc.quiet hq).next⟩, rfl, rfl⟩

/-- The statement that has the effect of the operation. -/
lemma atomic_execSql {w : Write} {h : Head} {s : Statement} {binds : List Value} {rows : Rows}
    (ht : read ⟨h, ""⟩ = .accepts s) (hs : s ≠ .begin ∧ s ≠ .commit ∧ s ≠ .rollback)
    (heffect : ∀ db, E.effect s binds db = some (w.apply db, rows)) :
    (Steps.execSql E h binds).Atomic (Conn.Open quiet) Conn.file
      (w.Effect E quiet fun _ => w.returns) := by
  refine Prog.atomic_atomically fun c hc => ?_
  obtain ⟨hfails, c', hexec, hleaves⟩ | ⟨hfails, c', hexec, hleaves⟩ :=
    execSql_leaves (w := w) hc.ready ht hs (heffect c.file)
  · have halone := hleaves.alone (E := E) hc
    rw [decide_eq_false hfails] at halone
    rw [hexec]
    exact ⟨hleaves.open hc, halone⟩
  · have halone := hleaves.alone (E := E) hc
    rw [decide_eq_true hfails, Bool.true_and] at halone
    rw [hexec]
    exact ⟨hleaves.open hc, halone⟩

/-- The statement of a removal is refused. -/
lemma atomic_delete (publisher_key : String) :
    (Steps.execSql E .deleteRecurringDonation [.text publisher_key]).Atomic (Conn.Open quiet)
      Conn.file ((Write.remove publisher_key).Effect E quiet fun _ => false) := by
  refine Prog.atomic_atomically fun c hc => ?_
  have hleaves : (Write.remove publisher_key).Leaves c c.next :=
    ⟨hc.ready.next, by simp [Write.apply], Conn.Quiet.next⟩
  have halone := hleaves.alone (E := E) hc
  rw [Write.returns, Bool.and_false] at halone
  have hexec : Store.execSql E .deleteRecurringDonation [.text publisher_key] c
      = (.error .sqlite_exception, c.next) :=
    DbM.bind_error (runSql_refused hc.ready.txn (read_alone .deleteRecurringDonation))
  rw [hexec]
  exact ⟨hleaves.open hc, halone⟩

/-- Under the handler. -/
lemma atomic_orFalse {w : Write} {x : Steps Bool}
    (hx : x.Atomic (Conn.Open quiet) Conn.file (w.Effect E quiet id)) :
    (Steps.orFalse x).Atomic (Conn.Open quiet) Conn.file (w.Alone E quiet) :=
  Prog.Atomic.bind hx fun db r db' h => by
    cases r with
    | ok b => exact ⟨.ok b, h, rfl⟩
    | error e => exact ⟨.ok false, h, rfl⟩

/-- After the look at `initialized_`. -/
lemma atomic_init {eff : Db → Except SqlException Bool → Db → Prop} {x : Steps Bool}
    (hx : x.Atomic (Conn.Open quiet) Conn.file eff) :
    Prog.Atomic (Conn.Open quiet) Conn.file eff
      (Steps.bind (Steps.init E) fun initialized => if !initialized then Steps.pure false else x) :=
  Prog.Returns.bind_atomic returns_init hx

/-- After the statement. -/
lemma atomic_then {w : Write} {x : Steps Unit} {y : Steps Bool} {r : Except SqlException Bool}
    (hx : x.Atomic (Conn.Open quiet) Conn.file (w.Effect E quiet fun _ => w.returns))
    (hy : y.Returns (Conn.Open quiet) Conn.file r)
    (hr : ∀ db db', w.Alone E quiet db (.ok w.returns) db' → w.Effect E quiet id db r db') :
    Prog.Atomic (Conn.Open quiet) Conn.file (w.Effect E quiet id) (Steps.bind x fun _ => y) :=
  Prog.Atomic.bind hx fun db r' db' h => by
    cases r' with
    | ok u => exact ⟨r, hr db db' h, hy⟩
    | error e => exact ⟨.error e, h, rfl⟩

/-- An operation of one statement. -/
lemma atomic_writeOnly {w : Write} {h : Head} {binds : List Value} (hw : w.returns = false)
    (hx : (Steps.execSql E h binds).Atomic (Conn.Open quiet) Conn.file
      (w.Effect E quiet fun _ => w.returns)) :
    (Steps.writeOnly E h binds).Atomic (Conn.Open quiet) Conn.file (w.Alone E quiet) := by
  have hthen : Prog.Atomic (Conn.Open quiet) Conn.file (w.Effect E quiet id)
      (Steps.bind (Steps.execSql E h binds) fun _ => Steps.pure false) :=
    atomic_then hx (r := .ok false) rfl fun db db' halone => by
      rw [hw] at halone
      exact halone
  exact atomic_orFalse (atomic_init hthen)

/-- The save of a publisher: after its first statement it returns, or the query is refused. -/
lemma atomic_insertOrUpdatePublisherInfo (info : PublisherInfo) :
    (Steps.insertOrUpdatePublisherInfo E info).Atomic (Conn.Open quiet) Conn.file
      ((Write.publisherInfo info).Alone E quiet) := by
  have hexec : (Steps.execSql E .insertPublisherInfo info.operands).Atomic (Conn.Open quiet)
      Conn.file ((Write.publisherInfo info).Effect E quiet fun _ => info.noPeriod) :=
    atomic_execSql (w := .publisherInfo info) (read_alone .insertPublisherInfo) (by simp)
      fun db => rfl
  cases hperiod : info.noPeriod with
  | true =>
      refine atomic_orFalse (atomic_init (atomic_then (r := .ok true) hexec ?_ fun db db' h => ?_))
      · rw [PublisherInfo.noPeriod] at hperiod
        rw [if_pos hperiod]
        rfl
      · rw [Write.returns, hperiod] at h
        exact h
  | false =>
      refine atomic_orFalse (atomic_init (atomic_then (r := .error .sqlite_exception) hexec ?_
        fun db db' h => ?_))
      · rw [PublisherInfo.noPeriod] at hperiod
        rw [if_neg (by simp [hperiod])]
        exact Prog.Returns.bind (returns_refused (read_alone .selectActivityInfo) _) rfl
      · rw [Write.returns, hperiod] at h
        exact h

/-- **One statement** has the effect of an operation, and decides what it returns. -/
theorem steps_atomic (w : Write) :
    (w.steps E).Atomic (Conn.Open quiet) Conn.file (w.Alone E quiet) := by
  cases w with
  | publisherInfo info => exact atomic_insertOrUpdatePublisherInfo info
  | mediaPublisherInfo media_key publisher_id =>
      have hthen : Prog.Atomic (Conn.Open quiet) Conn.file
          ((Write.mediaPublisherInfo media_key publisher_id).Effect E quiet id)
          (Steps.bind (Steps.execSql E .insertMediaPublisherInfo
            [.text media_key, .text publisher_id]) fun _ => Steps.pure true) :=
        atomic_then (r := .ok true)
          (atomic_execSql (w := .mediaPublisherInfo media_key publisher_id)
            (read_alone .insertMediaPublisherInfo) (by simp) fun db => rfl)
          rfl fun db db' h => h
      exact atomic_init (atomic_orFalse hthen)
  | contributionInfo info =>
      exact atomic_writeOnly rfl (atomic_execSql (w := .contributionInfo info)
        (read_alone .insertContributionInfo) (by simp) fun db => rfl)
  | recurringDonation info =>
      have heffect : ∀ db, E.effect .replaceRecurringDonation info.operands db
          = some (Write.apply db (.recurringDonation info), .none) := by
        obtain ⟨publisher_key, amount, added_date⟩ := info
        cases amount <;> exact fun db => rfl
      exact atomic_writeOnly rfl (atomic_execSql (w := .recurringDonation info)
        (read_alone .insertRecurringDonation) (by simp) heffect)
  | remove publisher_key => exact atomic_writeOnly rfl (atomic_delete publisher_key)

/-! ### Every interleaving -/

deriving instance DecidableEq for SqlException

variable (E)

/-- The operations on an open store, called from any number of threads. -/
def calls (c : Conn) : System (Pool Conn (Except SqlException Bool))
    (Label Write (Except SqlException Bool)) :=
  system (Write.steps E) c

variable {E}

/-- **Every interleaving** of the statements is that of one thread: on an open store there is one
order of the operations, each doing and returning what it can do and return on its own, in which
none stands before one that had returned before it was called. -/
theorem writes_linearizable {c : Conn} (hready : c.Ready)
    {as : List (Label Write (Except SqlException Bool))} {p : Pool Conn (Except SqlException Bool)}
    (hr : (calls E c).run (calls E c).init as = some p) :
    p.shared.Ready ∧ ∃ order, Linearizes (Write.Alone E c.Quiet) c.file as p.shared.file order := by
  have hopen : c.Open c.Quiet := ⟨hready, fun hq => hq⟩
  obtain ⟨hopen', -, horder⟩ := linearizable (fun w => steps_atomic (E := E) w) hopen hr
  exact ⟨hopen'.ready, horder⟩

/-- Two saves of media at once: both have looked at `initialized_` before one of them writes. -/
def overlapping : List (Label Write (Except SqlException Bool)) :=
  [.invoke 0 (.mediaPublisherInfo "youtube_1" "old"),
    .invoke 1 (.mediaPublisherInfo "youtube_1" "new"), .access 0, .access 1, .access 1, .access 0,
    .returns 0 (.ok true), .returns 1 (.ok true)]

lemma exists_overlapping : ∃ p, (calls reference (Conn.on Db.fresh)).run
    (calls reference (Conn.on Db.fresh)).init overlapping = some p := ⟨_, rfl⟩

theorem writes_linearizable_overlapping : ∃ p,
    (calls reference (Conn.on Db.fresh)).run (calls reference (Conn.on Db.fresh)).init overlapping
        = some p ∧
      p.shared.Ready ∧ ∃ order, Linearizes (Write.Alone reference (Conn.on Db.fresh).Quiet)
        (Conn.on Db.fresh).file overlapping p.shared.file order := by
  obtain ⟨p, hp⟩ := exists_overlapping
  exact ⟨p, hp, writes_linearizable (Conn.on_ready Db.fresh_complete) hp⟩

/-! ### What is in the rows -/

/-- Something in the rows that each operation sets or leaves as it is. -/
structure Cell (γ : Type) where
  get : Db → γ
  set : Write → Option γ
  apply : ∀ db w, get (w.apply db) = (set w).getD (get db)

/-- The row of a publisher. -/
def publisherCell (id : String) : Cell (Option PublisherRow) where
  get db := db.publisher_info.row? id
  set
    | .publisherInfo info => if info.id = id then some (some info.publisherRow) else none
    | _ => none
  apply db w := by
    cases w with
    | publisherInfo info => exact UniqueTable.row?_replace db.publisher_info info.publisherRow id
    | _ => rfl

/-- The row of a media key. -/
def mediaCell (media_key : String) : Cell (Option MediaRow) where
  get db := db.media_publisher_info.row? media_key
  set
    | .mediaPublisherInfo key publisher_id =>
        if key = media_key then some (some ⟨key, publisher_id⟩) else none
    | _ => none
  apply db w := by
    cases w with
    | mediaPublisherInfo key publisher_id =>
        exact UniqueTable.row?_replace db.media_publisher_info ⟨key, publisher_id⟩ media_key
    | _ => rfl

/-- The row of a recurring donation. -/
def donationCell (publisher_key : String) : Cell (Option DonationRow) where
  get db := db.recurring_donation.row? publisher_key
  set
    | .recurringDonation info =>
        if info.publisher_key = publisher_key then some (some info.row) else none
    | _ => none
  apply db w := by
    cases w with
    | recurringDonation info =>
        exact UniqueTable.row?_replace db.recurring_donation info.row publisher_key
    | _ => rfl

/-- An operation on its own sets its cells; where it does not, its statement has failed. -/
lemma sets_cell {γ : Type} (R : Cell γ) :
    Sets (Write.Alone E quiet) (fun r => r = .ok true ∨ quiet) R.get R.set := by
  rintro w db r db' ⟨c, c', hopen, rfl, hrun, rfl⟩
  obtain ⟨c'', hrun', hleaves⟩ := run_ready (E := E) hopen.ready w
  obtain ⟨rfl, rfl⟩ := Prod.mk.inj (hrun.symm.trans hrun')
  rw [hleaves.file]
  by_cases hc : c.fails 0 = none
  · rw [if_pos hc, R.apply]
    cases hset : R.set w with
    | none => exact .inr ⟨rfl, by simp⟩
    | some g => exact .inl rfl
  · refine .inr ⟨by rw [if_neg hc], fun _ hack => ?_⟩
    rcases hack with hret | hquiet
    · simp [hc] at hret
    · exact hc (hopen.quiet hquiet 0)

/-- **No save is lost**: in every interleaving, the row of a publisher, of a media key or of a
recurring donation is that of a save that had not returned when any save which returned `true` was
called, or it is the row from before and no save has returned `true`. Without failures this is so
for every save that has returned. -/
theorem newest_row {γ : Type} (R : Cell γ) {c : Conn} (hready : c.Ready)
    {as : List (Label Write (Except SqlException Bool))} {p : Pool Conn (Except SqlException Bool)}
    (hr : (calls E c).run (calls E c).init as = some p) :
    (R.get p.shared.file = R.get c.file ∧
        ∀ i w r, Label.invoke i w ∈ as → (R.set w).isSome → Label.returns i r ∈ as →
          ¬ (r = .ok true ∨ c.Quiet)) ∨
      ∃ i w, Label.invoke i w ∈ as ∧ R.set w = some (R.get p.shared.file) ∧
        ∀ j w' r, Label.invoke j w' ∈ as → (R.set w').isSome → Label.returns j r ∈ as →
          r = .ok true ∨ c.Quiet → ¬ Before as i j := by
  have hopen : c.Open c.Quiet := ⟨hready, fun hq => hq⟩
  obtain ⟨-, hproper, order, horder⟩ := linearizable (fun w => steps_atomic (E := E) w) hopen hr
  exact horder.newest (sets_cell R) hproper

theorem newest_row_overlapping : ∃ p,
    (calls reference (Conn.on Db.fresh)).run (calls reference (Conn.on Db.fresh)).init overlapping
        = some p ∧
      (((mediaCell "youtube_1").get p.shared.file
            = (mediaCell "youtube_1").get (Conn.on Db.fresh).file ∧
          ∀ i w r, Label.invoke i w ∈ overlapping → ((mediaCell "youtube_1").set w).isSome →
            Label.returns i r ∈ overlapping → ¬ (r = .ok true ∨ (Conn.on Db.fresh).Quiet)) ∨
        ∃ i w, Label.invoke i w ∈ overlapping ∧
          (mediaCell "youtube_1").set w = some ((mediaCell "youtube_1").get p.shared.file) ∧
          ∀ j w' r, Label.invoke j w' ∈ overlapping → ((mediaCell "youtube_1").set w').isSome →
            Label.returns j r ∈ overlapping → r = .ok true ∨ (Conn.on Db.fresh).Quiet →
            ¬ Before overlapping i j) := by
  obtain ⟨p, hp⟩ := exists_overlapping
  exact ⟨p, hp, newest_row (mediaCell "youtube_1") (Conn.on_ready Db.fresh_complete) hp⟩

end Operations

end RewardsDriver.Store
