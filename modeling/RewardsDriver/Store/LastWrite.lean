import RewardsDriver.Store.Find
import RewardsDriver.Store.Writes

/-!
The publisher store as a map: runs of `InsertOrUpdatePublisherInfo`, and `Find` with the filter of
one key.

A save writes its row of `publisher_info` and then gives up at the query of `activity_info`, so a
run leaves the activities as they were.

* `ActivityKey`, `lastSave`, `lastPublisher`: the keys, and the last saves of a key and of an id.
* `foldl_save`: what a run of saves writes.
* `rows_keyFilter`: **the rows of a key's filter**.
* `IsLastWriteMap`, `Recorded`, `isLastWriteMap_iff`: the store is a map of the last saves if and
  only if the activities had been there before.
-/

namespace RewardsDriver.Store

/-! ### Keys and saves -/

/-- The key of an activity. -/
structure ActivityKey where
  publisher_id : String
  category : Int64
  month : Int64
  year : Int64
  reconcile_stamp : Int64
  deriving DecidableEq

def ActivityRow.key (a : ActivityRow) : ActivityKey :=
  ⟨a.publisher_id, a.category, a.month, a.year, a.reconcile_stamp⟩

def PublisherInfo.key (info : PublisherInfo) : ActivityKey :=
  ⟨info.id, info.category.toInt64, info.month.toInt64, info.year.toInt64,
    info.reconcile_stamp.toInt64⟩

/-- At most one activity for each key. -/
def Db.UniqueActivities (db : Db) : Prop := (db.activity_info.map ActivityRow.key).Nodup

/-- An info that names one key: a category, a month and a year, a stamp that the database can hold,
and an id without quotes. -/
structure PublisherInfo.Specific (L : Ledger) (info : PublisherInfo) : Prop where
  category : info.category ≠ L.ALL_CATEGORIES
  month : info.month ≠ 0
  month_ne_any : info.month ≠ L.ANY
  year : info.year > 0
  stamp : info.reconcile_stamp > 0
  stamp_lt : info.reconcile_stamp.toNat < 2 ^ 63
  id : '\'' ∉ info.id.toList

/-- The last save of a key. -/
def lastSave (infos : List PublisherInfo) (key : ActivityKey) : Option PublisherInfo :=
  (infos.filter fun info => info.key = key).getLast?

/-- The last save of a publisher. -/
def lastPublisher (infos : List PublisherInfo) (id : String) : Option PublisherInfo :=
  (infos.filter fun info => info.id = id).getLast?

/-- The record that the last save of a key and the last save of its publisher make. -/
def savedRecord (L : Ledger) (last publisher : PublisherInfo) : PublisherInfo :=
  { L.publisherInfo last.id last.month last.year with
    duration := last.duration
    score := last.score
    percent := last.percent
    weight := last.weight
    category := last.category
    reconcile_stamp := last.reconcile_stamp
    name := publisher.name
    url := publisher.url
    provider := publisher.provider
    favicon_url := publisher.favicon_url
    verified := publisher.verified
    excluded := publisher.excluded }

/-- The filter that names exactly the key of an info. -/
def keyFilter (L : Ledger) (info : PublisherInfo) : PublisherInfoFilter where
  id := info.id
  category := info.category
  month := info.month
  year := info.year
  excluded := L.FILTER_ALL
  min_duration := 0
  order_by := []
  reconcile_stamp := info.reconcile_stamp

variable (E : Sqlite)

/-- After the saves every key has at most one activity, and the filter of a saved key finds exactly
the record of its last save. -/
def IsLastWriteMap (L : Ledger) (c : Conn) (infos : List PublisherInfo) : Prop :=
  ∃ c', runAll E (infos.map .publisherInfo) c = (.ok (), c') ∧ c'.file.UniqueActivities ∧
    ∀ info ∈ infos, ∃ last publisher, lastSave infos info.key = some last ∧
      lastPublisher infos info.id = some publisher ∧
      ∀ list, ∃ c'', find E L 0 0 (keyFilter L info) list c'
        = (.ok (true, list ++ [savedRecord L last publisher]), c'')

/-! ### The filter of a key -/

/-- Whether the filter of a key names an activity. An empty id asks for no publisher. -/
def PublisherInfo.names (info : PublisherInfo) (a : ActivityRow) : Bool :=
  (info.id = "" || a.publisher_id = info.id) && a.category = info.category.toInt64 &&
    a.month = info.month.toInt64 && a.year = info.year.toInt64 &&
    a.reconcile_stamp = info.reconcile_stamp.toInt64

variable {E} {L : Ledger} {info : PublisherInfo}

lemma conds_keyFilter (h : info.Specific L) :
    (keyFilter L info).conds L = condIf (info.id ≠ "") (.text .ai_publisher_id info.id) ++
      [.int .ai_category .eq info.category.toInt, .int .ai_month .eq info.month.toInt,
        .int .ai_year .eq info.year.toInt,
        .int .ai_reconcile_stamp .eq info.reconcile_stamp.toNat] := by
  by_cases hid : info.id = "" <;>
    simp [PublisherInfoFilter.conds, PublisherInfoFilter.periodConds,
      PublisherInfoFilter.stampConds, PublisherInfoFilter.restConds, keyFilter, condIf, hid,
      h.category, h.month_ne_any, h.year, h.stamp, L.filters_ne]

lemma int64_eq_of_int32 (a : Int64) (b : Int32) : a.toInt = b.toInt ↔ a = b.toInt64 := by
  rw [← Int32.toInt_toInt64, Int64.toInt_inj]

lemma int64_eq_of_uint64 (a : Int64) {b : UInt64} (h : b.toNat < 2 ^ 63) :
    a.toInt = (b.toNat : ℤ) ↔ a = b.toInt64 := by
  have hb : b.toInt64.toInt = (b.toNat : ℤ) := by
    change b.toBitVec.toInt = _
    rw [BitVec.toInt_eq_toNat_of_lt]
    · rfl
    · change 2 * b.toNat < 2 ^ 64
      omega
  rw [← hb, Int64.toInt_inj]

/-- The conditions of a key's filter. -/
lemma holds_keyFilter (h : info.Specific L) (r : Joined) :
    ((keyFilter L info).conds L).all (·.holds r) = info.names r.ai := by
  rw [conds_keyFilter h, List.all_append]
  have hid : (condIf (info.id ≠ "") (.text .ai_publisher_id info.id)).all (·.holds r)
      = (info.id = "" || r.ai.publisher_id = info.id : Bool) := by
    by_cases hid : info.id = "" <;> simp [condIf, hid, Cond.holds, Column.field]
  rw [hid]
  simp [Cond.holds, Column.field, Op.holds, PublisherInfo.names, int64_eq_of_int32,
    int64_eq_of_uint64 _ h.stamp_lt, Bool.and_assoc]

/-- The joined row of an activity. -/
def Db.joinedRow (db : Db) (a : ActivityRow) : Option Joined :=
  (db.publisher_info.row? a.publisher_id).map (Joined.mk a)

/-- **The rows of a key's filter** are those of the activities that it names. -/
lemma rows_keyFilter (h : info.Specific L) (db : Db) :
    (keyFilter L info).rows L db = (db.activity_info.filter info.names).filterMap db.joinedRow := by
  have hrow : ∀ a, (db.joinedRow a).filter (fun r => ((keyFilter L info).conds L).all (·.holds r))
      = if info.names a then db.joinedRow a else none := fun a => by
    rw [Db.joinedRow]
    cases db.publisher_info.row? a.publisher_id with
    | none => simp
    | some p => by_cases ha : info.names a <;> simp [holds_keyFilter h, ha]
  have hjoined : db.joined = db.activity_info.filterMap db.joinedRow :=
    (List.filterMap_eq_flatMap_toList _ _).symm
  rw [PublisherInfoFilter.rows, Query.rows, hjoined, List.filter_filterMap, List.filterMap_filter]
  exact List.filterMap_congr fun a _ => hrow a

/-- A partial map of a list has one value exactly if it is defined at one element. -/
lemma filterMap_eq_singleton {α β : Type} {f : α → Option β} {l : List α} {b : β} :
    l.filterMap f = [b] ↔ ∃ a, l.filter (fun a => (f a).isSome) = [a] ∧ f a = some b := by
  constructor
  · intro h
    obtain ⟨l₁, a, l₂, rfl, hl₁, ha, hl₂⟩ := List.filterMap_eq_cons_iff.mp h
    rw [List.filterMap_eq_nil_iff] at hl₂
    refine ⟨a, ?_, ha⟩
    have hnone : ∀ l' : List α, (∀ x ∈ l', f x = none) →
        l'.filter (fun a => (f a).isSome) = [] := fun l' hl' => by
      rw [List.filter_eq_nil_iff]
      intro x hx
      simp [hl' x hx]
    simp [List.filter_append, hnone l₁ hl₁, hnone l₂ hl₂, ha]
  · rintro ⟨a, ha, hfa⟩
    have hfilter : l.filterMap f = (l.filter fun a => (f a).isSome).filterMap f := by
      rw [List.filterMap_filter]
      refine List.filterMap_congr fun a _ => ?_
      cases f a <;> rfl
    rw [hfilter, ha]
    simp [hfa]

/-- What `Find` appends for a key: one record, if its filter has one row. -/
lemma find_key_iff {c : Conn} (hready : c.Ready) (hquiet : c.Quiet) (h : info.Specific L)
    (r : PublisherInfo) :
    (∀ list, ∃ c', find E L 0 0 (keyFilter L info) list c = (.ok (true, list ++ [r]), c'))
      ↔ '\x00' ∉ info.id.toList ∧
        ∃ j, (keyFilter L info).rows L c.file = [j] ∧ j.record L = r := by
  by_cases hnul : '\x00' ∈ info.id.toList
  · refine iff_of_false (fun hfind => ?_) fun hcond => hcond.1 hnul
    obtain ⟨c', hc'⟩ := hfind []
    have hread : read (findText L 0 0 (keyFilter L info)) = .refuses :=
      read_findText_of_nul L 0 0 h.id hnul
    rw [find_refused [] hready (E.refuses _ hread)] at hc'
    simp at hc'
  · have hfind : ∀ list, find E L 0 0 (keyFilter L info) list c = (.ok (true, list ++
        (E.find (.query ⟨(keyFilter L info).conds L, none⟩) c.file).map (Joined.record L)),
        c.next) := fun list =>
      find_rows list hready (hquiet 0) h.id hnul (fun _ hit => absurd hit List.not_mem_nil)
        fun _ => rfl
    have hperm := E.find_perm ⟨(keyFilter L info).conds L, none⟩ c.file
    constructor
    · intro hall
      obtain ⟨c', hc'⟩ := hall []
      rw [hfind, Prod.mk.injEq, Except.ok.injEq, Prod.mk.injEq, List.append_right_inj,
        List.map_eq_singleton_iff] at hc'
      obtain ⟨j, hj, hr⟩ := hc'.1.2
      rw [hj] at hperm
      exact ⟨hnul, j, (List.singleton_perm.mp hperm).symm, hr⟩
    · rintro ⟨-, j, hj, hr⟩ list
      rw [show Query.rows ⟨(keyFilter L info).conds L, none⟩ c.file = [j] from hj,
        List.perm_singleton] at hperm
      exact ⟨c.next, by rw [hfind, hperm, List.map_singleton, hr]⟩

/-! ### Runs of saves -/

/-- A run of saves writes publishers and nothing else. -/
lemma foldl_save (db : Db) (infos : List PublisherInfo) :
    (infos.map .publisherInfo).foldl Write.apply db = { db with
      publisher_info := (infos.map PublisherInfo.publisherRow).foldl UniqueTable.replace
        db.publisher_info } := by
  induction infos generalizing db with
  | nil => rfl
  | cons info infos ih =>
      rw [List.map_cons, List.foldl_cons, ih]
      rfl

/-- The publisher of an id after a run of saves: the one saved last, or the one before the run. -/
lemma row?_save (db : Db) (infos : List PublisherInfo) (id : String) :
    ((infos.map PublisherInfo.publisherRow).foldl UniqueTable.replace db.publisher_info).row? id
      = ((lastPublisher infos id).map PublisherInfo.publisherRow).or
          (db.publisher_info.row? id) := by
  rw [UniqueTable.row?_foldl_replace, lastPublisher, List.filter_map, List.getLast?_map]
  rfl

/-- Whether an id has a publisher after a run of saves. -/
def Published (db : Db) (infos : List PublisherInfo) (id : String) : Bool :=
  (lastPublisher infos id).isSome || (db.publisher_info.row? id).isSome

/-- The activities that a key's filter finds after a run of saves. -/
def found (db : Db) (infos : List PublisherInfo) (info : PublisherInfo) : List ActivityRow :=
  db.activity_info.filter fun a => Published db infos a.publisher_id && info.names a

/-- The saves of an info's key were there before: its filter finds one activity, with the
duration, the score, the percent and the weight of the last save. -/
def Recorded (db : Db) (infos : List PublisherInfo) (info : PublisherInfo) : Prop :=
  '\x00' ∉ info.id.toList ∧
    ∃ last row, lastSave infos info.key = some last ∧ last.activityRow? = some row ∧
      found db infos info = [row]

lemma key_lastSave {infos : List PublisherInfo} {key : ActivityKey} {last : PublisherInfo}
    (h : lastSave infos key = some last) : last.key = key := by
  have hmem := List.mem_of_getLast? h
  simpa using (List.mem_filter.mp hmem).2

lemma columnBool_bit (b : Bool) : columnBool (if b then 1 else 0) = b := by
  cases b <;> decide

/-- A joined row is the record of the last saves exactly if its activity is the last save's. -/
lemma record_eq_savedRecord_iff {last publisher : PublisherInfo} {a : ActivityRow}
    {p : PublisherRow} (hnames : info.names a = true) (hkey : last.key = info.key)
    (hp : a.publisher_id = info.id → p = publisher.publisherRow) :
    Joined.record L ⟨a, p⟩ = savedRecord L last publisher ↔ last.activityRow? = some a := by
  have hfields := ActivityKey.mk.inj hkey
  obtain ⟨hid, hcategory, hmonth, hyear, hstamp⟩ := hfields
  constructor
  · intro h
    have hpublisher : a.publisher_id = last.id := congrArg PublisherInfo.id h
    have hduration : a.duration.toUInt64 = last.duration := congrArg PublisherInfo.duration h
    have hscore : .val a.score = last.score := congrArg PublisherInfo.score h
    have hpercent : a.percent.toUInt64 = last.percent := congrArg PublisherInfo.percent h
    have hweight : .val a.weight = last.weight := congrArg PublisherInfo.weight h
    simp only [PublisherInfo.names, Bool.and_eq_true, decide_eq_true_eq] at hnames
    obtain ⟨⟨⟨⟨-, hacategory⟩, hamonth⟩, hayear⟩, hastamp⟩ := hnames
    rw [PublisherInfo.activityRow?, ← hscore, ← hweight, ← hduration, ← hpercent, ← hpublisher,
      hcategory, hmonth, hyear, hstamp, ← hacategory, ← hamonth, ← hayear, ← hastamp]
    simp
  · intro h
    obtain ⟨id, duration, score, percent, weight, excluded, category, month, year, name, url,
      provider, favicon_url, reconcile_stamp, verified⟩ := last
    cases score with
    | nan => simp [PublisherInfo.activityRow?] at h
    | val score =>
        cases weight with
        | nan => simp [PublisherInfo.activityRow?] at h
        | val weight =>
            obtain rfl := Option.some.inj h
            obtain rfl := hp hid
            simp [Joined.record, savedRecord, PublisherInfo.publisherRow, columnBool_bit,
              Ledger.publisherInfo]

/-- A saved info has a last save of its key and of its publisher. -/
lemma exists_last {infos : List PublisherInfo} (h : info ∈ infos) :
    ∃ last publisher, lastSave infos info.key = some last ∧
      lastPublisher infos info.id = some publisher := by
  have hsome : ∀ p : PublisherInfo → Bool, p info = true → ∃ last,
      (infos.filter p).getLast? = some last := fun p hp => by
    rw [← Option.isSome_iff_exists, List.getLast?_isSome]
    exact List.ne_nil_of_mem (List.mem_filter.mpr ⟨h, hp⟩)
  obtain ⟨last, hlast⟩ := hsome (fun i => i.key = info.key) (by simp)
  obtain ⟨publisher, hpublisher⟩ := hsome (fun i => i.id = info.id) (by simp)
  exact ⟨last, publisher, hlast, hpublisher⟩

/-- After a run of saves an activity is joined if its id has a publisher. -/
lemma isSome_joinedRow_save (db : Db) (infos : List PublisherInfo) (a : ActivityRow) :
    (Db.joinedRow ((infos.map .publisherInfo).foldl Write.apply db) a).isSome
      = Published db infos a.publisher_id := by
  rw [foldl_save, Db.joinedRow, row?_save, Published]
  cases lastPublisher infos a.publisher_id <;> simp

/-- The filter of a key has one row after a run of saves if it finds one activity. -/
lemma rows_save_eq_singleton {db : Db} {infos : List PublisherInfo} {j : Joined}
    (h : info.Specific L) :
    (keyFilter L info).rows L ((infos.map .publisherInfo).foldl Write.apply db) = [j]
      ↔ ∃ a, found db infos info = [a] ∧
        Db.joinedRow ((infos.map .publisherInfo).foldl Write.apply db) a = some j := by
  have hactivity : ((infos.map .publisherInfo).foldl Write.apply db).activity_info
      = db.activity_info := by rw [foldl_save]
  rw [rows_keyFilter h, filterMap_eq_singleton, hactivity]
  simp only [isSome_joinedRow_save, List.filter_filter, found]

/-- **One key after a run of saves**: its filter finds exactly the record of its last save if and
only if the save was there before. -/
lemma find_save_iff {c c' : Conn} {infos : List PublisherInfo} (hready : c'.Ready)
    (hquiet : c'.Quiet) (hfile : c'.file = (infos.map .publisherInfo).foldl Write.apply c.file)
    (h : info.Specific L) (hinfo : info ∈ infos) :
    (∃ last publisher, lastSave infos info.key = some last ∧
      lastPublisher infos info.id = some publisher ∧
      ∀ list, ∃ c'', find E L 0 0 (keyFilter L info) list c'
        = (.ok (true, list ++ [savedRecord L last publisher]), c''))
      ↔ Recorded c.file infos info := by
  obtain ⟨last, publisher, hlast, hpublisher⟩ := exists_last hinfo
  -- the rows of the publisher that was saved last
  have hrow : ∀ a p, c'.file.joinedRow a = some ⟨a, p⟩ → a.publisher_id = info.id →
      p = publisher.publisherRow := fun a p hap hid => by
    rw [Db.joinedRow, hid, hfile, foldl_save, row?_save, hpublisher] at hap
    simpa using hap.symm
  have hrecord : ∀ a j, found c.file infos info = [a] → c'.file.joinedRow a = some j →
      (j.record L = savedRecord L last publisher ↔ last.activityRow? = some a) :=
    fun a j hfound hj => by
      have hnames : info.names a = true := by
        have hmem : a ∈ found c.file infos info := hfound ▸ List.mem_singleton_self a
        simp only [found, List.mem_filter, Bool.and_eq_true] at hmem
        exact hmem.2.2
      obtain ⟨p, -, rfl⟩ : ∃ p, c'.file.publisher_info.row? a.publisher_id = some p ∧
          Joined.mk a p = j := Option.map_eq_some_iff.mp hj
      exact record_eq_savedRecord_iff hnames (key_lastSave hlast) (hrow a p hj)
  constructor
  · rintro ⟨last', publisher', hlast', hpublisher', hfind⟩
    obtain rfl := Option.some.inj (hlast.symm.trans hlast')
    obtain rfl := Option.some.inj (hpublisher.symm.trans hpublisher')
    obtain ⟨hnul, j, hj, hr⟩ := (find_key_iff hready hquiet h _).mp hfind
    rw [hfile] at hj
    obtain ⟨a, hfound, haj⟩ := (rows_save_eq_singleton h).mp hj
    rw [← hfile] at haj
    exact ⟨hnul, last, a, hlast, (hrecord a j hfound haj).mp hr, hfound⟩
  · rintro ⟨hnul, last', a, hlast', hrow', hfound⟩
    obtain rfl := Option.some.inj (hlast.symm.trans hlast')
    have hmem : a ∈ found c.file infos info := hfound ▸ List.mem_singleton_self a
    have hpublished : (c'.file.joinedRow a).isSome := by
      simp only [found, List.mem_filter, Bool.and_eq_true] at hmem
      rw [hfile, isSome_joinedRow_save]
      exact hmem.2.1
    obtain ⟨j, hj⟩ := Option.isSome_iff_exists.mp hpublished
    refine ⟨last, publisher, hlast, hpublisher, (find_key_iff hready hquiet h _).mpr
      ⟨hnul, j, ?_, (hrecord a j hfound hj).mpr hrow'⟩⟩
    rw [hfile] at hj ⊢
    exact (rows_save_eq_singleton h).mpr ⟨a, hfound, hj⟩

/-- **The publisher store as a map**: from an initialised store with unique activities, for every
run of saves of specific infos, the store is the map of the last saves if and only if every saved
key was recorded before. -/
theorem isLastWriteMap_iff (L : Ledger) {c : Conn} (hready : c.Ready) (hquiet : c.Quiet)
    (hunique : c.file.UniqueActivities) {infos : List PublisherInfo}
    (hspecific : ∀ info ∈ infos, info.Specific L) :
    IsLastWriteMap E L c infos ↔ ∀ info ∈ infos, Recorded c.file infos info := by
  obtain ⟨c', hrun, hready', hquiet', hfile⟩ := runAll_ready (E := E) hready hquiet
    (infos.map .publisherInfo)
  have hunique' : c'.file.UniqueActivities := by
    rw [hfile, foldl_save]
    exact hunique
  have hkey : ∀ info ∈ infos, _ ↔ Recorded c.file infos info := fun info hinfo =>
    find_save_iff (E := E) (L := L) hready' hquiet' hfile (hspecific info hinfo) hinfo
  constructor
  · rintro ⟨c'', hrun'', -, hfind⟩ info hinfo
    obtain rfl : c' = c'' := (Prod.mk.inj (hrun.symm.trans hrun'')).2
    exact (hkey info hinfo).mp (hfind info hinfo)
  · exact fun h => ⟨c', hrun, hunique', fun info hinfo => (hkey info hinfo).mpr (h info hinfo)⟩

/-- An info that names one key. -/
def sampleInfo : PublisherInfo :=
  ⟨"brave.com", 5, .val 1, 100, .val 1, 0, 2, 7, 2018, "Brave", "https://brave.com", "", "", 1,
    true⟩

lemma sampleInfo_specific : sampleInfo.Specific sampleLedger where
  category := by decide
  month := by decide
  month_ne_any := by decide
  year := by decide
  stamp := by decide
  stamp_lt := by decide
  id := by decide

/-- A store that holds the activity of the sample. -/
def recordedDb : Db :=
  { Db.fresh with activity_info := [⟨"brave.com", 5, 1, 100, 1, 2, 7, 2018, 1⟩] }

lemma recordedDb_ready : (Conn.on recordedDb).Ready := Conn.on_ready Db.fresh_complete

lemma sampleInfo_recorded : Recorded recordedDb [sampleInfo] sampleInfo := by
  refine ⟨by decide, sampleInfo, _, by simp [lastSave], rfl, ?_⟩
  have hpublished : Published recordedDb [sampleInfo] "brave.com" = true := by
    simp [Published, lastPublisher, sampleInfo]
  have hnames : sampleInfo.names ⟨"brave.com", 5, 1, 100, 1, 2, 7, 2018, 1⟩ = true := by decide
  rw [found, recordedDb, List.filter_cons_of_pos]
  · rfl
  · exact Bool.and_eq_true_iff.mpr ⟨hpublished, hnames⟩

/-- A save of what is there already. -/
theorem isLastWriteMap_iff_recorded :
    IsLastWriteMap reference sampleLedger (.on recordedDb) [sampleInfo] := by
  refine (isLastWriteMap_iff sampleLedger recordedDb_ready (Conn.on_quiet _)
    (List.nodup_singleton _) fun info hinfo => ?_).mpr fun info hinfo => ?_
  · rw [List.mem_singleton] at hinfo
    exact hinfo ▸ sampleInfo_specific
  · rw [List.mem_singleton] at hinfo
    exact hinfo ▸ sampleInfo_recorded

/-- A save into an empty store is not found. -/
theorem save_not_found : ¬ ∀ (E : Sqlite) (L : Ledger) (c : Conn) (infos : List PublisherInfo),
    c.Ready → c.Quiet → c.file.UniqueActivities → (∀ info ∈ infos, info.Specific L) →
    IsLastWriteMap E L c infos := by
  intro hall
  obtain ⟨c', hrun, -, hfind⟩ := hall reference sampleLedger (.on Db.fresh) [sampleInfo]
    (Conn.on_ready Db.fresh_complete) (Conn.on_quiet _) List.nodup_nil fun info hinfo => by
      rw [List.mem_singleton] at hinfo
      exact hinfo ▸ sampleInfo_specific
  obtain ⟨c'', hrun'', hready, hquiet, hfile⟩ := runAll_ready (E := reference)
    (Conn.on_ready Db.fresh_complete) (Conn.on_quiet _) ([sampleInfo].map .publisherInfo)
  obtain rfl : c' = c'' := (Prod.mk.inj (hrun.symm.trans hrun'')).2
  obtain ⟨-, last, row, -, -, hfound⟩ := (find_save_iff hready hquiet hfile sampleInfo_specific
    (List.mem_singleton_self _)).mp (hfind sampleInfo (List.mem_singleton_self _))
  cases hfound

end RewardsDriver.Store
