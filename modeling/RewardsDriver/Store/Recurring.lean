import RewardsDriver.Store.Writes

/-!
The recurring donations as a map: `InsertOrUpdateRecurringDonation`, `RemoveRecurring` and
`GetRecurringDonations`.

* `getRecurringDonations`: the listing.
* `Change`, `lastChange`: the operations on donations, and the last one on a key.
* `filter_recurring`: the listing has for each key the record of its row.
* `isMap_iff`: the listing shows for each key what its last operation says if and only if
  `Lasting`.
-/

namespace RewardsDriver.Store

open RewardsDriver.Sql

/-- The record that `GetRecurringDonations` makes of a row. -/
def Donation.record (L : Ledger) (d : Donation) : PublisherInfo :=
  { L.publisherInfo d.pi.publisher_id L.ANY (-1) with
    name := d.pi.name
    url := d.pi.url
    favicon_url := d.pi.favIcon
    weight := .val d.rd.amount
    reconcile_stamp := d.rd.added_date.toUInt64
    verified := columnBool d.pi.verified
    provider := d.pi.provider }

/-- The donations among the rows of a statement. -/
def Rows.donationRows : Rows → List Donation
  | .donations rs => rs
  | _ => []

/-- `GetRecurringDonations`. The rows that come before a failure have been appended. -/
def getRecurringDonations (E : Sqlite) (L : Ledger) (list : List PublisherInfo) :
    DbM (List PublisherInfo) :=
  DbM.tryCatch
    (do
      if !(← init E) then return list
      let (rows, _) ← stepSql E ⟨.selectRecurringDonation, ""⟩ []
      return list ++ rows.donationRows.map (Donation.record L))
    (return list)

variable {E : Sqlite}

/-- The listing on an initialised store, without a failure. -/
lemma getRecurringDonations_ready {c : Conn} (L : Ledger) (hready : c.Ready)
    (hc : c.fails 0 = none) (list : List PublisherInfo) :
    getRecurringDonations E L list c
      = (.ok (list ++ (E.recurring c.file).map (Donation.record L)), c.next) := by
  have hstep := stepSql_ready (E := E) hready (E.accepts _ _ (read_alone .selectRecurringDonation))
    (by simp) (b := []) rfl
  rw [hc] at hstep
  exact DbM.tryCatch_ok ((DbM.bind_ok (init_of_ready hready)).trans (DbM.bind_ok hstep))

/-! ### The operations on donations -/

/-- An operation on the recurring donations. -/
inductive Change where
  | insert (info : RecurringDonation)
  | remove (publisher_key : String)

namespace Change

def key : Change → String
  | insert info => info.publisher_key
  | remove publisher_key => publisher_key

def write : Change → Write
  | insert info => .recurringDonation info
  | remove publisher_key => .remove publisher_key

/-- What an operation inserts. -/
def insert? : Change → Option RecurringDonation
  | insert info => some info
  | remove _ => none

@[simp] lemma key_insert (info : RecurringDonation) : (insert info).key = info.publisher_key := rfl

@[simp] lemma key_remove (k : String) : (remove k).key = k := rfl

@[simp] lemma insert?_insert (info : RecurringDonation) : (insert info).insert? = some info := rfl

@[simp] lemma insert?_remove (k : String) : (remove k).insert? = none := rfl

end Change

/-- The last operation on a key. -/
def lastChange (ops : List Change) (key : String) : Option Change :=
  (ops.filter fun op => op.key = key).getLast?

/-- The last insert of a key, whether or not it was removed later. -/
def lastInsert (ops : List Change) (key : String) : Option RecurringDonation :=
  ((ops.filterMap Change.insert?).filter fun info => info.publisher_key = key).getLast?

/-- A run of operations writes the donations that it inserts and nothing else. -/
lemma foldl_change (db : Db) (ops : List Change) :
    (ops.map Change.write).foldl Write.apply db = { db with
      recurring_donation := ((ops.filterMap Change.insert?).map RecurringDonation.row).foldl
        UniqueTable.replace db.recurring_donation } := by
  induction ops generalizing db with
  | nil => rfl
  | cons op ops ih =>
      rw [List.map_cons, List.foldl_cons, ih]
      cases op <;> rfl

/-- The donation that the table holds for a key after a run of operations. -/
lemma row?_change (ops : List Change) (key : String) :
    UniqueTable.row? (((ops.filterMap Change.insert?).map RecurringDonation.row).foldl
        UniqueTable.replace (.empty : UniqueTable DonationRow.publisher_id)) key
      = (lastInsert ops key).map RecurringDonation.row := by
  have hnone : (UniqueTable.empty : UniqueTable DonationRow.publisher_id).row? key = none := rfl
  rw [UniqueTable.row?_foldl_replace, hnone, Option.or_none, lastInsert, List.filter_map,
    List.getLast?_map]
  rfl

/-- The inserts of a key are among the operations on it. -/
lemma lastInsert_eq (ops : List Change) (key : String) :
    lastInsert ops key
      = ((ops.filter fun op => op.key = key).filterMap Change.insert?).getLast? := by
  have hcomm : (ops.filterMap Change.insert?).filter (fun info => info.publisher_key = key)
      = (ops.filter fun op => op.key = key).filterMap Change.insert? := by
    induction ops with
    | nil => rfl
    | cons op ops ih =>
        cases op with
        | insert info =>
            by_cases hk : info.publisher_key = key <;> simp [hk, ih]
        | remove k =>
            by_cases hk : k = key <;> simp [List.filterMap_cons, hk, ih]
  rw [lastInsert, hcomm]

/-- After an insert as the last operation the table holds what was inserted. -/
lemma lastInsert_of_insert {ops : List Change} {key : String} {info : RecurringDonation}
    (h : lastChange ops key = some (.insert info)) : lastInsert ops key = some info := by
  rw [lastChange, List.getLast?_eq_some_iff] at h
  obtain ⟨ops', hops'⟩ := h
  rw [lastInsert_eq, hops', List.filterMap_append]
  simp

lemma lastInsert_of_none {ops : List Change} {key : String} (h : lastChange ops key = none) :
    lastInsert ops key = none := by
  rw [lastChange, List.getLast?_eq_none_iff] at h
  rw [lastInsert_eq, h]
  rfl

/-- Without an insert of a key the table holds nothing for it. -/
lemma lastInsert_eq_none {ops : List Change} {key : String} :
    lastInsert ops key = none ↔ ∀ info, .insert info ∈ ops → info.publisher_key ≠ key := by
  rw [lastInsert, List.getLast?_eq_none_iff, List.filter_eq_nil_iff]
  constructor
  · intro h info hinfo hkey
    exact h info (List.mem_filterMap.mpr ⟨_, hinfo, rfl⟩) (by simpa using hkey)
  · intro h info hinfo hkey
    obtain ⟨op, hop, hsome⟩ := List.mem_filterMap.mp hinfo
    cases op with
    | insert info' =>
        cases hsome
        exact h info hop (by simpa using hkey)
    | remove k => cases hsome

/-! ### The listing by key -/

/-- The donation of a key, joined with its publisher. -/
def Db.donation (db : Db) (key : String) : Option Donation :=
  (db.recurring_donation.row? key).bind fun d =>
    (db.publisher_info.row? d.publisher_id).map (Donation.mk d)

/-- The join holds for each key at most the row of the key. -/
lemma filter_donations (db : Db) (key : String) :
    db.donations.filter (fun d => d.pi.publisher_id = key) = (db.donation key).toList := by
  have hrow : ∀ d : DonationRow,
      ((db.publisher_info.row? d.publisher_id).map (Donation.mk d)).toList.filter
          (fun d => d.pi.publisher_id = key)
        = if d.publisher_id = key then
            ((db.publisher_info.row? d.publisher_id).map (Donation.mk d)).toList
          else [] := fun d => by
    cases hp : db.publisher_info.row? d.publisher_id with
    | none => simp
    | some p =>
        have hid : p.publisher_id = d.publisher_id := (UniqueTable.row?_eq_some.mp hp).2
        by_cases hk : d.publisher_id = key <;> simp [hid, hk]
  have hfilter : ∀ ds : List DonationRow,
      (ds.flatMap fun d =>
          if d.publisher_id = key then
            ((db.publisher_info.row? d.publisher_id).map (Donation.mk d)).toList
          else [])
        = (ds.filter fun d => d.publisher_id = key).flatMap fun d =>
            ((db.publisher_info.row? d.publisher_id).map (Donation.mk d)).toList := fun ds => by
    induction ds with
    | nil => rfl
    | cons d ds ih => by_cases hk : d.publisher_id = key <;> simp [hk, ih]
  rw [Db.donations, List.filter_flatMap]
  simp only [hrow]
  rw [hfilter, UniqueTable.filter_key_eq, Db.donation]
  cases db.recurring_donation.row? key <;> simp

/-- **The listing by key**: it has the record of the key's donation, if there is one. -/
lemma filter_recurring (L : Ledger) (db : Db) (key : String) :
    ((E.recurring db).map (Donation.record L)).filter (fun info => info.id = key)
      = ((db.donation key).map (Donation.record L)).toList := by
  have hperm := ((E.recurring_perm db).filter fun d => d.pi.publisher_id = key)
  rw [filter_donations] at hperm
  have heq : (E.recurring db).filter (fun d => d.pi.publisher_id = key)
      = (db.donation key).toList := by
    cases hd : db.donation key with
    | none =>
        rw [hd] at hperm
        exact hperm.eq_nil
    | some d =>
        rw [hd] at hperm
        exact List.perm_singleton.mp hperm
  rw [List.filter_map]
  have hid : (fun info : PublisherInfo => decide (info.id = key)) ∘ Donation.record L
      = fun d : Donation => decide (d.pi.publisher_id = key) := rfl
  rw [hid, heq]
  cases db.donation key <;> rfl

lemma toList_injective {α : Type} {a b : Option α} (h : a.toList = b.toList) : a = b := by
  cases a <;> cases b <;> simp_all

/-- What the listing is to show of an insert. -/
def expectedRecord (L : Ledger) (p : PublisherRow) (info : RecurringDonation) : PublisherInfo :=
  { L.publisherInfo p.publisher_id L.ANY (-1) with
    name := p.name
    url := p.url
    favicon_url := p.favIcon
    weight := info.amount
    reconcile_stamp := info.added_date.toUInt64
    verified := columnBool p.verified
    provider := p.provider }

/-- An insert without NaN is shown as it is to be. -/
lemma record_row (L : Ledger) (p : PublisherRow) {info : RecurringDonation}
    (h : info.amount ≠ .nan) : Donation.record L ⟨info.row, p⟩ = expectedRecord L p info := by
  obtain ⟨key, amount, date⟩ := info
  cases amount with
  | nan => simp at h
  | val x => simp [Donation.record, expectedRecord, RecurringDonation.row]

/-- What the listing is to show of a key: the last operation on it, if that is an insert. -/
def expected (L : Ledger) (db : Db) (ops : List Change) (key : String) : Option PublisherInfo :=
  match lastChange ops key with
  | some (.insert info) => (db.publisher_info.row? key).map fun p => expectedRecord L p info
  | _ => none

variable (E)

/-- After the operations, `GetRecurringDonations` appends for each key what its last operation
says, and nothing else of the key. -/
def IsMap (L : Ledger) (c : Conn) (ops : List Change) : Prop :=
  ∀ list, ∃ appended c',
    (do
      runAll E (ops.map Change.write)
      getRecurringDonations E L list : DbM (List PublisherInfo)) c
        = (.ok (list ++ appended), c') ∧
      ∀ key, appended.filter (fun info => info.id = key) = (expected L c.file ops key).toList

/-- The runs that the table follows: a key whose last operation is a removal was never inserted,
and no key's last operation is an insert of NaN. -/
def Lasting (ops : List Change) : Prop :=
  ∀ key,
    match lastChange ops key with
    | some (.insert info) => info.amount ≠ .nan
    | some (.remove _) => ∀ info, .insert info ∈ ops → info.publisher_key ≠ key
    | none => True

variable {E}

/-- The donation of a key after a run. -/
lemma donation_after {c : Conn} {ops : List Change} {key : String}
    (hempty : c.file.recurring_donation = .empty) :
    Db.donation ((ops.map Change.write).foldl Write.apply c.file) key
      = (lastInsert ops key).bind fun info =>
          (c.file.publisher_info.row? key).map (Donation.mk info.row) := by
  rw [foldl_change, hempty, Db.donation, row?_change]
  cases h : lastInsert ops key with
  | none => rfl
  | some info =>
      have hkey : info.row.publisher_id = key := by
        rw [lastInsert] at h
        have hmem := List.mem_of_getLast? h
        simpa [RecurringDonation.row] using (List.mem_filter.mp hmem).2
      simp [hkey]

/-- What the listing shows of a key after a run from an empty table. -/
def shown (L : Ledger) (db : Db) (ops : List Change) (key : String) : Option PublisherInfo :=
  (lastInsert ops key).bind fun info =>
    (db.publisher_info.row? key).map fun p => Donation.record L ⟨info.row, p⟩

/-- The property key by key: what is shown is what is to be shown. -/
lemma isMap_iff_shown (L : Ledger) {c : Conn} (hready : c.Ready) (hquiet : c.Quiet)
    (hempty : c.file.recurring_donation = .empty) (ops : List Change) :
    IsMap E L c ops ↔ ∀ key, shown L c.file ops key = expected L c.file ops key := by
  obtain ⟨c₁, hrun, hready₁, hquiet₁, hfile⟩ := runAll_ready (E := E) hready hquiet
    (ops.map Change.write)
  have hlist : ∀ list, (do
      runAll E (ops.map Change.write)
      getRecurringDonations E L list : DbM (List PublisherInfo)) c
        = (.ok (list ++ (E.recurring c₁.file).map (Donation.record L)), c₁.next) := fun list =>
    (DbM.bind_ok hrun).trans (getRecurringDonations_ready L hready₁ (hquiet₁ 0) list)
  have hshown : ∀ key, ((E.recurring c₁.file).map (Donation.record L)).filter
      (fun info => info.id = key) = (shown L c.file ops key).toList := fun key => by
    rw [filter_recurring, hfile, donation_after hempty, shown, Option.map_bind]
    simp only [Function.comp_def, Option.map_map]
  constructor
  · intro h key
    obtain ⟨appended, c', happ, hkeys⟩ := h []
    rw [hlist, Prod.mk.injEq, Except.ok.injEq, List.append_right_inj] at happ
    have hkey := hkeys key
    rw [← happ.1, hshown] at hkey
    exact toList_injective hkey
  · intro h list
    exact ⟨_, _, hlist list, fun key => by rw [hshown, h key]⟩

/-- **Recurring donations**: from an empty table, for every run of inserts and removals of keys
that have a publisher, the listing shows for every key what its last operation says if and only
if the run is `Lasting`. -/
theorem isMap_iff (L : Ledger) {c : Conn} (hready : c.Ready) (hquiet : c.Quiet)
    (hempty : c.file.recurring_donation = .empty) {ops : List Change}
    (hpublisher : ∀ op ∈ ops, ∃ p ∈ c.file.publisher_info, p.publisher_id = op.key) :
    IsMap E L c ops ↔ Lasting ops := by
  rw [isMap_iff_shown L hready hquiet hempty]
  refine forall_congr' fun key => ?_
  cases hlast : lastChange ops key with
  | none => simp [shown, expected, hlast, lastInsert_of_none hlast]
  | some op =>
      have hmem : op ∈ ops.filter fun op => op.key = key := List.mem_of_getLast? hlast
      obtain ⟨hop, hkey⟩ := List.mem_filter.mp hmem
      rw [decide_eq_true_eq] at hkey
      obtain ⟨p, hp, hpkey⟩ := hpublisher op hop
      have hrow : c.file.publisher_info.row? key = some p :=
        UniqueTable.row?_eq_some.mpr ⟨hp, hpkey.trans hkey⟩
      cases op with
      | insert info =>
          simp only [shown, expected, hlast, lastInsert_of_insert hlast, hrow, Option.bind_some,
            Option.map_some, Option.some.injEq]
          refine ⟨fun h hnan => ?_, record_row L p⟩
          have hweight := congrArg PublisherInfo.weight h
          simp [Donation.record, expectedRecord, hnan] at hweight
      | remove k =>
          simp only [shown, expected, hlast, hrow, ← lastInsert_eq_none]
          cases lastInsert ops key <;> simp

/-- A publisher. -/
def samplePublisher : PublisherRow := ⟨"brave.com", 1, 0, "Brave", "", "https://brave.com", ""⟩

/-- A store with one publisher and nothing else. -/
def sampleDb : Db := { Db.fresh with publisher_info := .replace .empty samplePublisher }

lemma sampleDb_ready : (Conn.on sampleDb).Ready := Conn.on_ready Db.fresh_complete

lemma sampleDb_publisher :
    ∃ p ∈ (Conn.on sampleDb).file.publisher_info, p.publisher_id = "brave.com" :=
  ⟨samplePublisher, UniqueTable.mem_replace_self _ _, rfl⟩

/-- One insert is shown. -/
theorem isMap_iff_insert :
    IsMap reference sampleLedger (.on sampleDb) [.insert ⟨"brave.com", .val 5, 7⟩] := by
  refine (isMap_iff sampleLedger sampleDb_ready (Conn.on_quiet _) rfl
    fun op hop => ?_).mpr fun key => ?_
  · rw [List.mem_singleton] at hop
    subst hop
    exact sampleDb_publisher
  · by_cases hkey : "brave.com" = key
    · simp [lastChange, hkey]
    · simp [lastChange, hkey]

/-- A donation that was inserted and removed is still listed. -/
theorem removed_is_listed : ¬ ∀ (E : Sqlite) (L : Ledger) (c : Conn) (ops : List Change),
    c.Ready → c.Quiet → c.file.recurring_donation = .empty →
    (∀ op ∈ ops, ∃ p ∈ c.file.publisher_info, p.publisher_id = op.key) → IsMap E L c ops := by
  intro hall
  have hmap := hall reference sampleLedger (.on sampleDb)
    [.insert ⟨"brave.com", .val 5, 7⟩, .remove "brave.com"] sampleDb_ready (Conn.on_quiet _) rfl
    fun op hop => by
      obtain rfl | rfl := (List.mem_pair.mp hop)
      · exact sampleDb_publisher
      · exact sampleDb_publisher
  have hkey := (isMap_iff_shown sampleLedger sampleDb_ready (Conn.on_quiet _) rfl _).mp hmap
    "brave.com"
  have hpublisher : (Conn.on sampleDb).file.publisher_info.row? "brave.com"
      = some samplePublisher := UniqueTable.row?_replace_self _ samplePublisher
  simp [shown, expected, lastInsert, lastChange, List.filterMap_cons, hpublisher] at hkey

end RewardsDriver.Store
