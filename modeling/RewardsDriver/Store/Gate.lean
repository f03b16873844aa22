import RewardsDriver.Store.Find
import RewardsDriver.Store.Recurring
import RewardsDriver.Store.Refusal

/-!
The version check of the store, and what a refused `Init` means for its operations.

`Init` writes its own versions into `meta` before it reads them back, so the check never sees what
the file recorded.

* `getMediaPublisherInfo`, `getTips`: reading the publisher of a media key, and the tips of a month.
* `Operation`, `Operation.gives_up`: **every operation** on a store that `Init` refuses.
* `refused_iff`: **when a file is refused** and left as it was.
* `init_overwrites`: otherwise a newer file is overwritten.
-/

namespace RewardsDriver.Store

/-! ### The other operations -/

/-- The publishers among the rows of a statement. -/
def Rows.publisherRows : Rows → List PublisherRow
  | .publishers rs => rs
  | _ => []

/-- The record that `GetMediaPublisherInfo` makes of a row. -/
def PublisherRow.record (L : Ledger) (r : PublisherRow) : PublisherInfo :=
  { L.defaults with
    id := r.publisher_id
    name := r.name
    url := r.url
    favicon_url := r.favIcon
    provider := r.provider
    verified := columnBool r.verified
    excluded := r.excluded.toInt32 }

/-- `GetMediaPublisherInfo`. -/
def getMediaPublisherInfo (E : Sqlite) (L : Ledger) (media_key : String) :
    DbM (Option PublisherInfo) := do
  if !(← init E) then return none
  DbM.tryCatch
    (do
      let (rows, _) ← stepSql E ⟨.selectMediaPublisherInfo, ""⟩ [.text media_key]
      return (rows.publisherRows.map (PublisherRow.record L)).getLast?)
    (return none)

/-- What `GetTips` streams after the fixed beginning of its query. -/
def tipsClauses (L : Ledger) (month year : Int32) : String :=
  "AND ci.month = " ++ toString month.toInt ++
  " AND ci.year =  " ++ toString year.toInt ++
  " AND (ci.category = " ++ toString L.DIRECT_DONATION.toInt ++
  "OR ci.category = " ++ toString L.TIPPING.toInt ++ ")"

/-- The tips among the rows of a statement. -/
def Rows.tipRows : Rows → List Tip
  | .tips rs => rs
  | _ => []

/-- The record that `GetTips` makes of a row. -/
def Tip.record (E : Sqlite) (L : Ledger) (t : Tip) : PublisherInfo :=
  { L.publisherInfo t.pi.publisher_id L.ANY (-1) with
    name := t.pi.name
    url := t.pi.url
    favicon_url := t.pi.favIcon
    weight := .val (E.real t.ci.probi)
    reconcile_stamp := t.ci.date.toUInt64
    verified := columnBool t.pi.verified
    provider := t.pi.provider }

/-- `GetTips`. The rows that come before a failure have been appended. -/
def getTips (E : Sqlite) (L : Ledger) (list : List PublisherInfo) (month year : Int32) :
    DbM (List PublisherInfo) :=
  DbM.tryCatch
    (do
      if !(← init E) then return list
      let (rows, _) ← stepSql E ⟨.tips, cString (tipsClauses L month year)⟩ []
      return list ++ rows.tipRows.map (Tip.record E L))
    (return list)

/-! ### Every operation -/

/-- A public operation of the store. -/
inductive Operation where
  | write (w : Write)
  | find (start limit : Int32) (filter : PublisherInfoFilter) (list : List PublisherInfo)
  | count (filter : PublisherInfoFilter)
  | getRecurringDonations (list : List PublisherInfo)
  | getTips (list : List PublisherInfo) (month year : Int32)
  | getMediaPublisherInfo (media_key : String)

/-- An operation that has found nothing and done nothing says so: `false`, no record, an unchanged
list. -/
def Operation.GivesUp (E : Sqlite) (L : Ledger) (c c' : Conn) : Operation → Prop
  | .write w => w.run E c = (.ok false, c')
  | .find start limit filter list =>
      Store.find E L start limit filter list c = (.ok (false, list), c')
  | .count filter => Store.count E L filter c = (.ok 0, c')
  | .getRecurringDonations list => Store.getRecurringDonations E L list c = (.ok list, c')
  | .getTips list month year => Store.getTips E L list month year c = (.ok list, c')
  | .getMediaPublisherInfo media_key =>
      Store.getMediaPublisherInfo E L media_key c = (.ok none, c')

variable {E : Sqlite}

/-- **Every operation** gives up when `Init` returns `false`, and leaves what `Init` left. -/
lemma Operation.gives_up (L : Ledger) {c c' : Conn} (h : init E c = (.ok false, c'))
    (op : Operation) : op.GivesUp E L c c' := by
  cases op with
  | write w =>
      cases w with
      | mediaPublisherInfo media_key publisher_id => exact DbM.bind_ok h
      | _ => exact orFalse_ok (DbM.bind_ok h)
  | find start limit filter list => exact DbM.bind_ok h
  | count filter => exact DbM.bind_ok h
  | getRecurringDonations list => exact DbM.tryCatch_ok (DbM.bind_ok h)
  | getTips list month year => exact DbM.tryCatch_ok (DbM.bind_ok h)
  | getMediaPublisherInfo media_key => exact DbM.bind_ok h

/-! ### The gate -/

/-- A file that records a newer version. -/
def Newer (db : Db) : Prop :=
  ∃ row, db.meta.row? "last_compatible_version" = some row ∧
    kCurrentVersionNumber < columnInt row.value

/-- `Init` returns `false` and leaves the file as it was, and so does every operation. -/
def RefusedUntouched (E : Sqlite) (L : Ledger) (c : Conn) : Prop :=
  (∃ c', init E c = (.ok false, c') ∧ c'.file = c.file) ∧
    ∀ op : Operation, ∃ c', op.GivesUp E L c c' ∧ c'.file = c.file

/-- The version that the program writes is not newer. -/
lemma Opened.not_newer {db : Db} (h : Opened db) : ¬ Newer db := by
  rintro ⟨row, hrow, hnewer⟩
  rw [h.2, Option.some.injEq] at hrow
  subst hrow
  revert hnewer
  decide

/-- A newer file is overwritten when no statement fails: `Init` succeeds, and the file is not the
one it was. -/
lemma init_overwrites {c : Conn} (h : c.initialized_ = false) (hnewer : Newer c.file)
    (hrefuses : ¬ c.Refuses) (hkeeps : ¬ c.Dropped 13) (hcommit : c.fails 15 = none) :
    ∃ c', init E c = (.ok true, c') ∧ c'.file ≠ c.file := by
  obtain ⟨c', hinit, -, hopened⟩ := (init_spec (E := E) h).2.2 hrefuses hkeeps hcommit
  refine ⟨c', hinit, fun heq => hopened.not_newer ?_⟩
  rwa [heq]

/-- **The gate**: whatever version a file records and whatever else it contains, it is refused and
left as it was if and only if `Init` does not come to the commit, or the commit fails and can be
rolled back, and no index is created in the file itself that it does not have. -/
theorem refused_iff (L : Ledger) {c : Conn} (h : c.initialized_ = false) :
    RefusedUntouched E L c ↔ c.Refuses ∧ ∀ i, c.Autocommits i → i ∈ c.file.indices := by
  obtain ⟨hrefuses, hthrows, hsucceeds⟩ := init_spec (E := E) h
  constructor
  · rintro ⟨⟨c', hinit, hfile⟩, -⟩
    by_cases hr : c.Refuses
    · obtain ⟨c'', hfalse, hiff⟩ := hrefuses hr
      rw [hinit] at hfalse
      cases hfalse
      exact ⟨hr, hiff.mp hfile⟩
    · by_cases hthrow : c.Dropped 13 ∨ c.fails 15 ≠ none
      · obtain ⟨c'', hthrow⟩ := hthrows hr hthrow
        rw [hinit] at hthrow
        cases hthrow
      · rw [not_or, not_not] at hthrow
        obtain ⟨c'', htrue, -⟩ := hsucceeds hr hthrow.1 hthrow.2
        rw [hinit] at htrue
        cases htrue
  · rintro ⟨hr, hindices⟩
    obtain ⟨c', hinit, hiff⟩ := hrefuses hr
    have hfile := hiff.mpr hindices
    exact ⟨⟨c', hinit, hfile⟩, fun op => ⟨c', op.gives_up L hinit, hfile⟩⟩

/-- A store that is not open, on a file of version 2. -/
def newerConn (fails : ℕ → Option ℕ) (rollsBack : ℕ → Bool) : Conn :=
  ⟨false, { Db.fresh with «meta» := .replace .empty ⟨"last_compatible_version", "2"⟩ }, none, fails,
    rollsBack⟩

lemma newerConn_newer (fails : ℕ → Option ℕ) (rollsBack : ℕ → Bool) :
    Newer (newerConn fails rollsBack).file :=
  ⟨_, UniqueTable.row?_replace_self _ _, by decide⟩

/-- The first index takes the transaction with it, and the others fail: the version check sees what
the file records. -/
theorem refused_iff_lost : RefusedUntouched reference sampleLedger
    (newerConn (fun n => if 10 ≤ n ∧ n ≤ 12 then some 0 else none) fun n => n = 10) := by
  refine (refused_iff sampleLedger rfl).mpr ⟨.inl fun hr => ?_, fun i hi => ?_⟩
  · have hcurrent := hr.2.2 ⟨10, by decide, by decide, by decide, by decide⟩
    revert hcurrent
    decide
  · have hfails := hi.2.2.1
    cases i <;> exact absurd hfails (by decide)

/-- A newer file is opened and overwritten. -/
theorem newer_not_refused : ¬ ∀ (E : Sqlite) (L : Ledger) (c : Conn), c.initialized_ = false →
    Newer c.file → RefusedUntouched E L c := by
  intro hall
  let c := newerConn (fun _ => none) fun _ => false
  have hlost : ¬ c.Dropped 13 := fun ⟨j, _, _, hd⟩ => hd.1 rfl
  have hrefuses : ¬ c.Refuses := by
    rintro (hr | hr)
    · exact hr ⟨fun _ _ => rfl, ⟨rfl, rfl⟩, fun hd => absurd hd hlost⟩
    · exact hr.2.1 rfl
  obtain ⟨⟨c', hinit, -⟩, -⟩ := hall reference sampleLedger c rfl (newerConn_newer _ _)
  obtain ⟨c'', htrue, -⟩ :=
    init_overwrites (E := reference) rfl (newerConn_newer _ _) hrefuses hlost rfl
  rw [hinit] at htrue
  cases htrue

end RewardsDriver.Store
