import RewardsDriver.Store.Init

/-!
The five write operations of the store, and what the service does with their results.

`InsertOrUpdatePublisherInfo` prepares its query of `activity_info` from the first of two texts
that it streams, so that this query is never complete; `RemoveRecurring` streams the key after the
text of its statement. `InsertContributionInfo` and `InsertOrUpdateRecurringDonation` never set
`succeded`.

* `insertOrUpdatePublisherInfo` and the others, `Write`, `Write.run`: the operations.
* `Write.apply`, `run_ready`: **what each operation does** on an initialised store, by whether its
  statement fails.
* `runAll_ready`: **a run of operations** without failures writes one row after the other.
* `Write.Stored`: the whole intended effect of an operation is in the database.
* `tellsTruth_iff`: an operation returns `true` exactly when its effect is in the database if and
  only if `Honest`.
-/

namespace RewardsDriver.Store

open RewardsDriver.Sql

variable (E : Sqlite)

/-- The handler that every operation has. -/
def orFalse (x : DbM Bool) : DbM Bool := DbM.tryCatch x (return false)

/-- Whether there are any rows. -/
def Rows.nonempty : Rows → Bool
  | .none => false
  | .values vs => !vs.isEmpty
  | .publishers rs => !rs.isEmpty
  | .donations rs => !rs.isEmpty
  | .tips rs => !rs.isEmpty
  | .joined rs => !rs.isEmpty
  | .counts ns => !ns.isEmpty

/-- The operands of the first statement of `InsertOrUpdatePublisherInfo`. -/
def PublisherInfo.operands (info : PublisherInfo) : List Value :=
  [.text info.id, .bool info.verified, .int info.excluded.toInt64, .text info.name,
    .text info.url, .text info.provider, .text info.favicon_url]

/-- The operands of `InsertContributionInfo`. -/
def ContributionInfo.operands (info : ContributionInfo) : List Value :=
  [.text info.publisher_key, .text info.probi, .int (Int64.ofNat info.date.toNat),
    .int info.category.toInt64, .int info.month.toInt64, .int info.year.toInt64]

/-- The operands of `InsertOrUpdateRecurringDonation`. -/
def RecurringDonation.operands (info : RecurringDonation) : List Value :=
  [.text info.publisher_key, .double info.amount, .int (Int64.ofNat info.added_date.toNat)]

/-- `InsertOrUpdatePublisherInfo`. -/
def insertOrUpdatePublisherInfo (info : PublisherInfo) : DbM Bool := orFalse do
  if !(← init E) then return false
  execSql E .insertPublisherInfo info.operands
  if info.month = 0 || info.year = 0 then return true
  -- only the first text is prepared; the second is the first operand
  let row_exixst ← runSql E ⟨.selectActivityInfo, ""⟩
    [.text "publisher_id=? AND category=? AND month=? AND year=?  AND reconcile_stamp=?",
      .text info.id, .int info.category.toInt64, .int info.month.toInt64,
      .int info.year.toInt64, .int info.reconcile_stamp.toInt64]
  if row_exixst.nonempty then
    execSql E .updateActivityInfo
      [.text "duration=?, score=?, percent=?, ", .text "weight=? WHERE ",
        .text "publisher_id=? AND category=? ", .text "AND month=? AND year=? AND reconcile_stamp=?",
        .int info.duration.toInt64, .double info.score, .int info.percent.toInt64,
        .double info.weight, .text info.id, .int info.category.toInt64,
        .int info.month.toInt64, .int info.year.toInt64, .int info.reconcile_stamp.toInt64]
    return true
  execSql E .insertActivityInfo
    [.text "(publisher_id, duration, score, percent, ",
      .text "weight, category, month, year, reconcile_stamp) ",
      .text "VALUES (?, ?, ?, ?, ?, ?, ?, ?, ?)", .text info.id, .int info.duration.toInt64,
      .double info.score, .int info.percent.toInt64, .double info.weight,
      .int info.category.toInt64, .int info.month.toInt64, .int info.year.toInt64,
      .int info.reconcile_stamp.toInt64]
  return false

/-- `InsertOrUpdateMediaPublisherInfo`. `Init` is called before the `try` block. -/
def insertOrUpdateMediaPublisherInfo (media_key publisher_id : String) : DbM Bool := do
  if !(← init E) then return false
  orFalse do
    execSql E .insertMediaPublisherInfo [.text media_key, .text publisher_id]
    return true

/-- `InsertContributionInfo`. -/
def insertContributionInfo (info : ContributionInfo) : DbM Bool := orFalse do
  if !(← init E) then return false
  execSql E .insertContributionInfo info.operands
  return false

/-- `InsertOrUpdateRecurringDonation`. -/
def insertOrUpdateRecurringDonation (info : RecurringDonation) : DbM Bool := orFalse do
  if !(← init E) then return false
  execSql E .insertRecurringDonation info.operands
  return false

/-- `RemoveRecurring`. -/
def removeRecurring (publisher_key : String) : DbM Bool := orFalse do
  if !(← init E) then return false
  execSql E .deleteRecurringDonation [.text publisher_key]
  return false

/-! ### The operations together -/

/-- A write operation. -/
inductive Write where
  | publisherInfo (info : PublisherInfo)
  | mediaPublisherInfo (media_key publisher_id : String)
  | contributionInfo (info : ContributionInfo)
  | recurringDonation (info : RecurringDonation)
  | remove (publisher_key : String)

/-- The operation. -/
def Write.run : Write → DbM Bool
  | .publisherInfo info => insertOrUpdatePublisherInfo E info
  | .mediaPublisherInfo media_key publisher_id =>
      insertOrUpdateMediaPublisherInfo E media_key publisher_id
  | .contributionInfo info => insertContributionInfo E info
  | .recurringDonation info => insertOrUpdateRecurringDonation E info
  | .remove publisher_key => removeRecurring E publisher_key

/-- What the service does when an operation is over: the callback of the ledger, the observers and
the lists that it refreshes. -/
inductive Event where
  | callback (LEDGER_OK : Bool)
  | contentSiteUpdated
  | tipsUpdated
  | recurringDonationsListUpdated
  deriving DecidableEq

/-- `OnPublisherInfoSaved`, `OnMediaPublisherInfoSaved`, `OnContributionInfoSaved`,
`OnRecurringDonationSaved` and `OnRemovedRecurring`. -/
def Write.onSaved (L : Ledger) : Write → Bool → List Event
  | .publisherInfo _, success => [.callback success, .contentSiteUpdated]
  | .mediaPublisherInfo _ _, _ => []
  | .contributionInfo info, success =>
      if success && info.category == L.DIRECT_DONATION then [.tipsUpdated] else []
  | .recurringDonation _, success => if success then [.recurringDonationsListUpdated] else []
  | .remove _, success => [.callback success, .recurringDonationsListUpdated]

/-- `SavePublisherInfo`, `SaveMediaPublisherInfo`, `SaveContributionInfo`,
`SaveRecurringDonation` and `OnRemoveRecurring`. -/
def Write.save (L : Ledger) (w : Write) : DbM (List Event) := do
  return w.onSaved L (← w.run E)

/-- Operations one after the other, whatever they return. -/
def runAll : List Write → DbM Unit
  | [] => return ()
  | w :: ws => do
      let _ ← w.run E
      runAll ws

/-! ### The rows that are to be written -/

/-- The row of a publisher. -/
def PublisherInfo.publisherRow (info : PublisherInfo) : PublisherRow where
  publisher_id := info.id
  verified := if info.verified then 1 else 0
  excluded := info.excluded.toInt64
  name := info.name
  favIcon := info.favicon_url
  url := info.url
  provider := info.provider

/-- The row of an activity; there is none with NaN. -/
def PublisherInfo.activityRow? (info : PublisherInfo) : Option ActivityRow :=
  match info.score, info.weight with
  | .val score, .val weight =>
      some ⟨info.id, info.duration.toInt64, score, info.percent.toInt64, weight,
        info.category.toInt64, info.month.toInt64, info.year.toInt64,
        info.reconcile_stamp.toInt64⟩
  | _, _ => none

/-- The row of a contribution. -/
def ContributionInfo.row (info : ContributionInfo) : ContributionRow where
  publisher_id := info.publisher_key
  probi := info.probi
  date := Int64.ofNat info.date.toNat
  category := info.category.toInt64
  month := info.month.toInt64
  year := info.year.toInt64

/-- The row of a recurring donation that the statement writes: NaN becomes the default. -/
def RecurringDonation.row (info : RecurringDonation) : DonationRow where
  publisher_id := info.publisher_key
  amount := match info.amount with
    | .nan => 0
    | .val x => x
  added_date := Int64.ofNat info.added_date.toNat

/-- Whether a publisher is saved without an activity. -/
def PublisherInfo.noPeriod (info : PublisherInfo) : Bool := info.month = 0 || info.year = 0

/-- What an operation does to the database when its statement does not fail. -/
def Write.apply (db : Db) : Write → Db
  | .publisherInfo info => { db with publisher_info := db.publisher_info.replace info.publisherRow }
  | .mediaPublisherInfo media_key publisher_id =>
      { db with media_publisher_info := db.media_publisher_info.replace ⟨media_key, publisher_id⟩ }
  | .contributionInfo info => { db with contribution_info := db.contribution_info ++ [info.row] }
  | .recurringDonation info =>
      { db with recurring_donation := db.recurring_donation.replace info.row }
  | .remove _ => db

/-- What an operation returns when its statement does not fail. -/
def Write.returns : Write → Bool
  | .publisherInfo info => info.noPeriod
  | .mediaPublisherInfo _ _ => true
  | .contributionInfo _ => false
  | .recurringDonation _ => false
  | .remove _ => false

/-! ### What the operations do -/

variable {E}

/-- A statement that writes, on an initialised store: into the file. -/
lemma execSql_ready {h : Head} {s : Statement} {b : List Value} {c : Conn} {db : Db}
    {rows : Rows} (hready : c.Ready) (ht : read ⟨h, ""⟩ = .accepts s)
    (hs : s ≠ .begin ∧ s ≠ .commit ∧ s ≠ .rollback)
    (heffect : E.effect s b c.file = some (db, rows)) (hc : c.fails 0 = none) :
    execSql E h b c = (.ok (), { c.next with file := db }) :=
  execSql_ok ht (apply_ready hready hs heffect) hc

lemma orFalse_ok {x : DbM Bool} {c c' : Conn} {b : Bool} (h : x c = (.ok b, c')) :
    orFalse x c = (.ok b, c') := DbM.tryCatch_ok h

lemma orFalse_error {x : DbM Bool} {c c' : Conn} {e : SqlException} (h : x c = (.error e, c')) :
    orFalse x c = (.ok false, c') := DbM.tryCatch_error h

/-- What an operation leaves on an initialised store, given whether its statement fails. -/
structure Write.Leaves (w : Write) (c c' : Conn) : Prop where
  ready : c'.Ready
  file : c'.file = if c.fails 0 = none then w.apply c.file else c.file
  quiet : c.Quiet → c'.Quiet

lemma Write.Leaves.of_fails {w : Write} {c : Conn} {k : ℕ} (h : c.Ready) (hc : c.fails 0 = some k) :
    w.Leaves c c.next := ⟨h.next, by simp [hc], Conn.Quiet.next⟩

/-- The statement of an operation has written. -/
lemma Write.Leaves.of_write {w : Write} {c : Conn} {db : Db} (h : c.Ready)
    (hc : c.fails 0 = none) (hdb : db = w.apply c.file) (hcomplete : db.Complete) :
    w.Leaves c { c.next with file := db } :=
  ⟨⟨h.initialized, h.txn, hcomplete⟩, by simp [hc, hdb], fun hq => hq.next⟩

/-- The statement of an operation: it throws, or it writes the row. -/
lemma execSql_leaves {w : Write} {h : Head} {s : Statement} {b : List Value} {c : Conn}
    {rows : Rows} (hready : c.Ready) (ht : read ⟨h, ""⟩ = .accepts s)
    (hs : s ≠ .begin ∧ s ≠ .commit ∧ s ≠ .rollback)
    (heffect : E.effect s b c.file = some (w.apply c.file, rows)) :
    (c.fails 0 ≠ none ∧ ∃ c', execSql E h b c = (.error .sqlite_exception, c') ∧
        w.Leaves c c') ∨
      (c.fails 0 = none ∧ ∃ c', execSql E h b c = (.ok (), c') ∧ w.Leaves c c') := by
  have hcomplete : (w.apply c.file).Complete := fun t => by
    have ht := hready.complete t
    cases w <;> exact ht
  cases hc : c.fails 0 with
  | some k =>
      have hexec := execSql_fails (E := E) (h := h) (b := b) hc
      rw [hready.failed] at hexec
      exact .inl ⟨by simp, c.next, hexec, .of_fails hready hc⟩
  | none =>
      exact .inr ⟨rfl, _, execSql_ready hready ht hs heffect hc,
        .of_write hready hc rfl hcomplete⟩

/-- What an operation leaves, one more failed statement later. -/
lemma Write.Leaves.next {w : Write} {c c' : Conn} (h : w.Leaves c c') : w.Leaves c c'.next :=
  ⟨h.ready.next, h.file, fun hq => (h.quiet hq).next⟩

/-- **What each operation does** on an initialised store: its first statement writes the row unless
the environment makes it fail, and only some of the operations return `true` then. -/
theorem run_ready {c : Conn} (hready : c.Ready) (w : Write) :
    ∃ c', w.run E c = (.ok (decide (c.fails 0 = none) && w.returns), c') ∧ w.Leaves c c' := by
  have hinit := init_of_ready (E := E) hready
  cases w with
  | publisherInfo info =>
      obtain ⟨hc, c', hexec, hleaves⟩ | ⟨hc, c', hexec, hleaves⟩ :=
        execSql_leaves (E := E) (w := .publisherInfo info) (b := info.operands) hready
          (read_alone .insertPublisherInfo) (by simp) rfl
      · refine ⟨c', ?_, hleaves⟩
        rw [decide_eq_false hc]
        exact orFalse_error ((DbM.bind_ok hinit).trans (DbM.bind_error hexec))
      · rw [decide_eq_true hc, Bool.true_and, Write.returns]
        cases hperiod : info.noPeriod with
        | true =>
            refine ⟨c', orFalse_ok ((DbM.bind_ok hinit).trans ((DbM.bind_ok hexec).trans ?_)),
              hleaves⟩
            rw [PublisherInfo.noPeriod] at hperiod
            rw [if_pos hperiod]
            rfl
        | false =>
            have hselect := fun b => runSql_refused (E := E) (b := b) hleaves.ready.txn
              (read_alone .selectActivityInfo)
            refine ⟨c'.next, orFalse_error ((DbM.bind_ok hinit).trans
              ((DbM.bind_ok hexec).trans (c := (.error .sqlite_exception, c'.next)) ?_)),
              hleaves.next⟩
            rw [PublisherInfo.noPeriod] at hperiod
            rw [if_neg (by simp [hperiod])]
            exact DbM.bind_error (hselect _)
  | mediaPublisherInfo media_key publisher_id =>
      obtain ⟨hc, c', hexec, hleaves⟩ | ⟨hc, c', hexec, hleaves⟩ :=
        execSql_leaves (E := E) (w := .mediaPublisherInfo media_key publisher_id)
          (b := [.text media_key, .text publisher_id]) hready
          (read_alone .insertMediaPublisherInfo) (by simp) rfl
      · refine ⟨c', ?_, hleaves⟩
        rw [decide_eq_false hc]
        exact (DbM.bind_ok hinit).trans (orFalse_error (DbM.bind_error hexec))
      · refine ⟨c', ?_, hleaves⟩
        rw [decide_eq_true hc]
        exact (DbM.bind_ok hinit).trans (orFalse_ok (DbM.bind_ok hexec))
  | contributionInfo info =>
      obtain ⟨hc, c', hexec, hleaves⟩ | ⟨hc, c', hexec, hleaves⟩ :=
        execSql_leaves (E := E) (w := .contributionInfo info) (b := info.operands) hready
          (read_alone .insertContributionInfo) (by simp) rfl
      · refine ⟨c', ?_, hleaves⟩
        rw [decide_eq_false hc]
        exact orFalse_error ((DbM.bind_ok hinit).trans (DbM.bind_error hexec))
      · refine ⟨c', ?_, hleaves⟩
        rw [decide_eq_true hc]
        exact orFalse_ok ((DbM.bind_ok hinit).trans (DbM.bind_ok hexec))
  | recurringDonation info =>
      have heffect : E.effect .replaceRecurringDonation info.operands c.file
          = some (Write.apply c.file (.recurringDonation info), .none) := by
        obtain ⟨key, amount, date⟩ := info
        cases amount <;> rfl
      obtain ⟨hc, c', hexec, hleaves⟩ | ⟨hc, c', hexec, hleaves⟩ :=
        execSql_leaves (E := E) (w := .recurringDonation info) hready
          (read_alone .insertRecurringDonation) (by simp) heffect
      · refine ⟨c', ?_, hleaves⟩
        rw [decide_eq_false hc]
        exact orFalse_error ((DbM.bind_ok hinit).trans (DbM.bind_error hexec))
      · refine ⟨c', ?_, hleaves⟩
        rw [decide_eq_true hc]
        exact orFalse_ok ((DbM.bind_ok hinit).trans (DbM.bind_ok hexec))
  | remove publisher_key =>
      refine ⟨c.next, ?_, ⟨hready.next, by simp [Write.apply], Conn.Quiet.next⟩⟩
      rw [Write.returns, Bool.and_false]
      exact orFalse_error ((DbM.bind_ok hinit).trans (DbM.bind_error (DbM.bind_error
        (runSql_refused hready.txn (read_alone .deleteRecurringDonation)))))

/-- **A run of operations** on an initialised store, without failures, writes one row after the
other. -/
theorem runAll_ready {c : Conn} (hready : c.Ready) (hquiet : c.Quiet) (ws : List Write) :
    ∃ c', runAll E ws c = (.ok (), c') ∧ c'.Ready ∧ c'.Quiet ∧
      c'.file = ws.foldl Write.apply c.file := by
  induction ws generalizing c with
  | nil => exact ⟨c, rfl, hready, hquiet, rfl⟩
  | cons w ws ih =>
      obtain ⟨c₁, hrun, hleaves⟩ := run_ready (E := E) hready w
      obtain ⟨c₂, hrest, hready₂, hquiet₂, hfile⟩ := ih hleaves.ready (hleaves.quiet hquiet)
      refine ⟨c₂, (DbM.bind_ok hrun).trans hrest, hready₂, hquiet₂, ?_⟩
      rw [hfile, hleaves.file, if_pos (hquiet 0), List.foldl_cons]

/-! ### Results and effects -/

/-- The activity of a save is in the database. -/
def PublisherInfo.ActivityIn (info : PublisherInfo) (db : Db) : Prop :=
  ∃ row, info.activityRow? = some row ∧ row ∈ db.activity_info

/-- The whole intended effect of an operation is in the database: the rows with the given fields,
one more row for a contribution, no row of the key for a removal. -/
def Write.Stored (before after : Db) : Write → Prop
  | .publisherInfo info =>
      info.publisherRow ∈ after.publisher_info ∧
        (info.noPeriod = false → info.ActivityIn after)
  | .mediaPublisherInfo media_key publisher_id =>
      (⟨media_key, publisher_id⟩ : MediaRow) ∈ after.media_publisher_info
  | .contributionInfo info =>
      after.contribution_info.count info.row = before.contribution_info.count info.row + 1
  | .recurringDonation info => info.amount ≠ .nan ∧ info.row ∈ after.recurring_donation
  | .remove publisher_key =>
      ∀ r ∈ after.recurring_donation, r.publisher_id ≠ publisher_key

variable (E)

/-- An operation returns `true` exactly when its effect is in the database, and the service
reports and refreshes accordingly. -/
def TellsTruth (L : Ledger) (w : Write) (c : Conn) : Prop :=
  ((w.run E c).1 = .ok true ↔ w.Stored c.file (w.run E c).2.file) ∧
    ∀ stored : Bool, (stored = true ↔ w.Stored c.file (w.run E c).2.file) →
      (w.save E L c).1 = .ok (w.onSaved L stored)

/-- When an operation tells the truth: a save without a period and a media save always do, but for
a failing statement that would write the row already there; the operations that never return
`true` do when their effect is not in the database. -/
def Write.Honest (c : Conn) : Write → Prop
  | .publisherInfo info =>
      if info.noPeriod then c.fails 0 = none ∨ info.publisherRow ∉ c.file.publisher_info
      else ¬ ((c.fails 0 = none ∨ info.publisherRow ∈ c.file.publisher_info) ∧
        info.ActivityIn c.file)
  | .mediaPublisherInfo media_key publisher_id =>
      c.fails 0 = none ∨ (⟨media_key, publisher_id⟩ : MediaRow) ∉ c.file.media_publisher_info
  | .contributionInfo _ => c.fails 0 ≠ none
  | .recurringDonation info =>
      info.amount = .nan ∨ (c.fails 0 ≠ none ∧ info.row ∉ c.file.recurring_donation)
  | .remove publisher_key =>
      ∃ r ∈ c.file.recurring_donation, r.publisher_id = publisher_key

variable {E}

/-- The result and the effect of an operation agree exactly when it is honest. -/
lemma returns_iff_stored (w : Write) (c : Conn) :
    ((decide (c.fails 0 = none) && w.returns) = true ↔
        w.Stored c.file (if c.fails 0 = none then w.apply c.file else c.file))
      ↔ w.Honest c := by
  by_cases hc : c.fails 0 = none
  · cases w with
    | publisherInfo info =>
        have hrow := UniqueTable.mem_replace_self c.file.publisher_info info.publisherRow
        cases hperiod : info.noPeriod <;>
          simp [hc, hperiod, Write.returns, Write.Stored, Write.apply, Write.Honest, hrow,
            PublisherInfo.ActivityIn]
    | mediaPublisherInfo media_key publisher_id =>
        have hrow := UniqueTable.mem_replace_self c.file.media_publisher_info
          ⟨media_key, publisher_id⟩
        simp [hc, Write.returns, Write.Stored, Write.apply, Write.Honest, hrow]
    | contributionInfo info =>
        simp [hc, Write.returns, Write.Stored, Write.apply, Write.Honest]
    | recurringDonation info =>
        have hrow := UniqueTable.mem_replace_self c.file.recurring_donation info.row
        simp [hc, Write.returns, Write.Stored, Write.apply, Write.Honest, hrow]
    | remove publisher_key =>
        simp [hc, Write.returns, Write.Stored, Write.apply, Write.Honest]
  · cases w with
    | publisherInfo info =>
        cases hperiod : info.noPeriod <;>
          simp [hc, hperiod, Write.Stored, Write.Honest, PublisherInfo.ActivityIn]
    | mediaPublisherInfo media_key publisher_id => simp [hc, Write.Stored, Write.Honest]
    | contributionInfo info => simp [hc, Write.Stored, Write.Honest]
    | recurringDonation info =>
        simp [hc, Write.Stored, Write.Honest, Classical.or_iff_not_imp_left]
    | remove publisher_key => simp [hc, Write.Stored, Write.Honest]

/-- **Results and effects**: on an initialised store, for every operation, every input and every
pattern of failures, the operation returns `true` exactly when its effect is in the database, and
the service reports it so, if and only if the operation is `Honest`. -/
theorem tellsTruth_iff (L : Ledger) {c : Conn} (hready : c.Ready) (w : Write) :
    TellsTruth E L w c ↔ w.Honest c := by
  obtain ⟨c', hrun, hleaves⟩ := run_ready (E := E) hready w
  rw [← returns_iff_stored, TellsTruth, hrun, hleaves.file]
  simp only [Except.ok.injEq]
  refine ⟨fun h => h.1, fun h => ⟨h, fun stored hstored => ?_⟩⟩
  have heq : stored = (decide (c.fails 0 = none) && w.returns) := by
    rw [Bool.eq_iff_iff, hstored, h]
  rw [heq, Write.save, DbM.bind_ok hrun]
  rfl

/-- A media save whose statement does not fail tells the truth. -/
theorem tellsTruth_iff_media : TellsTruth reference sampleLedger
    (.mediaPublisherInfo "youtube_1" "channel") (Conn.on Db.fresh) :=
  (tellsTruth_iff sampleLedger (Conn.on_ready Db.fresh_complete) _).mpr (.inl rfl)

/-- `InsertContributionInfo` writes its row and returns `false`. -/
theorem contribution_denied : ¬ ∀ (E : Sqlite) (L : Ledger) (c : Conn) (w : Write), c.Ready →
    TellsTruth E L w c := by
  intro hall
  let info : ContributionInfo := ⟨"10", 1, 2018, 8, 0, "brave.com"⟩
  have hready : (Conn.on Db.fresh).Ready := Conn.on_ready Db.fresh_complete
  have htruth := hall reference sampleLedger (Conn.on Db.fresh) (.contributionInfo info) hready
  obtain ⟨c', hrun, hleaves⟩ := run_ready (E := reference) hready (.contributionInfo info)
  have hstored : Write.Stored (Conn.on Db.fresh).file c'.file (.contributionInfo info) := by
    rw [hleaves.file, if_pos (Conn.on_quiet Db.fresh 0)]
    simp [Write.Stored, Write.apply]
  rw [TellsTruth, hrun] at htruth
  have hreturns := htruth.1.mpr hstored
  simp [Write.returns] at hreturns

end RewardsDriver.Store
