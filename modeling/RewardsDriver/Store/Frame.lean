import RewardsDriver.Store.Gate
import RewardsDriver.Store.LastWrite

/-!
What a save of a publisher leaves as it was.

`InsertOrUpdatePublisherInfo` writes `publisher_info` in a statement of its own, outside any
transaction, before the statement that is always refused.

* `SavedRows`, `savedRows_iff`: a save with a period leaves the two tables that it writes as they
  were if and only if its first statement fails or writes what was there.
* `SameElsewhere`: the rows that a save is not about.
* `filter_joined`, `filter_joined_other`, `filter_donations_other`: **the joins** have the same rows
  about other publishers.
* `Undisturbed`, `save_undisturbed`: a save leaves the rows and the records about other publishers
  as they were.
-/

namespace RewardsDriver.Store

open RewardsDriver.Sql

variable {E : Sqlite}

/-! ### A save that fails -/

/-- The two tables that a save writes have the same rows. -/
structure SavedRows (db db' : Db) : Prop where
  publisher_info : ∀ r, r ∈ db'.publisher_info ↔ r ∈ db.publisher_info
  activity_info : db'.activity_info = db.activity_info

/-- A save with a period never reports success: its query of the activities is refused. -/
lemma save_fails {c : Conn} {info : PublisherInfo} (hready : c.Ready)
    (hperiod : info.noPeriod = false) :
    (insertOrUpdatePublisherInfo E info c).1 = .ok false := by
  obtain ⟨c', hrun, -⟩ := run_ready (E := E) hready (.publisherInfo info)
  have hfalse : (Write.publisherInfo info).returns = false := hperiod
  rw [hfalse, Bool.and_false] at hrun
  exact congrArg Prod.fst hrun

/-- A save leaves the rows as they were if its first statement fails or its row was there. -/
lemma savedRows_save_iff {c : Conn} (hready : c.Ready) (info : PublisherInfo) :
    SavedRows c.file (insertOrUpdatePublisherInfo E info c).2.file
      ↔ c.fails 0 ≠ none ∨ info.publisherRow ∈ c.file.publisher_info := by
  obtain ⟨c', hrun, hleaves⟩ := run_ready (E := E) hready (.publisherInfo info)
  have hfile : (insertOrUpdatePublisherInfo E info c).2.file
      = if c.fails 0 = none then Write.apply c.file (.publisherInfo info) else c.file := by
    rw [← hleaves.file]
    exact congrArg (fun r => r.2.file) hrun
  rw [hfile]
  by_cases hc : c.fails 0 = none
  · rw [if_pos hc, ← UniqueTable.mem_replace_iff_mem]
    constructor
    · intro h
      exact .inr h.publisher_info
    · rintro (hfails | hrow)
      · exact absurd hc hfails
      · exact ⟨hrow, rfl⟩
  · rw [if_neg hc]
    exact iff_of_true ⟨fun _ => Iff.rfl, rfl⟩ (.inl hc)

/-- **A failed save**: on an initialised store, for every info with a month and a year and every
pattern of failures, the save leaves the publishers and the activities as they were if and only if
its first statement fails or the publisher's row was already there. -/
theorem savedRows_iff {c : Conn} {info : PublisherInfo} (hready : c.Ready)
    (hmonth : info.month ≠ 0) (hyear : info.year ≠ 0) :
    ((insertOrUpdatePublisherInfo E info c).1 = .ok false ∧
        SavedRows c.file (insertOrUpdatePublisherInfo E info c).2.file)
      ↔ c.fails 0 ≠ none ∨ info.publisherRow ∈ c.file.publisher_info := by
  have hperiod : info.noPeriod = false := by
    rw [PublisherInfo.noPeriod, decide_eq_false hmonth, decide_eq_false hyear, Bool.or_self]
  rw [and_iff_right (save_fails hready hperiod), savedRows_save_iff hready]

/-- An info with a month and a year. -/
def periodInfo : PublisherInfo :=
  { sampleLedger.defaults with id := "brave.com", month := 7, year := 2018 }

/-- A first statement that fails leaves everything as it was. -/
theorem savedRows_iff_failing :
    (insertOrUpdatePublisherInfo reference periodInfo
        { Conn.on Db.fresh with fails := fun _ => some 0 }).1 = .ok false ∧
      SavedRows Db.fresh (insertOrUpdatePublisherInfo reference periodInfo
        { Conn.on Db.fresh with fails := fun _ => some 0 }).2.file :=
  (savedRows_iff ⟨rfl, rfl, Db.fresh_complete⟩ (by decide) (by decide)).mpr (.inl (by simp))

/-- The query of the activities is refused, and the publisher has been written. -/
theorem half_saved : ¬ ∀ (E : Sqlite) (c : Conn) (info : PublisherInfo), c.Ready →
    info.month ≠ 0 → info.year ≠ 0 → (insertOrUpdatePublisherInfo E info c).1 = .ok false →
    SavedRows c.file (insertOrUpdatePublisherInfo E info c).2.file := by
  intro hall
  have hready := Conn.on_ready Db.fresh_complete
  have hfailed : (insertOrUpdatePublisherInfo reference periodInfo (Conn.on Db.fresh)).1
      = .ok false := save_fails hready rfl
  have hrows := hall reference (Conn.on Db.fresh) periodInfo hready (by decide) (by decide) hfailed
  rcases (savedRows_save_iff hready periodInfo).mp hrows with hfails | hrow
  · exact hfails rfl
  · exact absurd hrow List.not_mem_nil

/-! ### What a save is not about -/

/-- The rows of the tables that a save is not about are the same. -/
structure SameElsewhere (info : PublisherInfo) (db db' : Db) : Prop where
  activity_info : db'.activity_info.filter (fun a => a.key ≠ info.key)
    = db.activity_info.filter fun a => a.key ≠ info.key
  publisher_info : ∀ id, id ≠ info.id → db'.publisher_info.row? id = db.publisher_info.row? id
  media_publisher_info : db'.media_publisher_info = db.media_publisher_info
  contribution_info : db'.contribution_info = db.contribution_info
  recurring_donation : db'.recurring_donation = db.recurring_donation

/-- A save writes the row of its publisher. -/
lemma sameElsewhere_apply (info : PublisherInfo) (db : Db) :
    SameElsewhere info db (Write.apply db (.publisherInfo info)) where
  activity_info := rfl
  publisher_info := fun _ hid => UniqueTable.row?_replace_of_ne hid
  media_publisher_info := rfl
  contribution_info := rfl
  recurring_donation := rfl

section Joins

variable {α β γ : Type}

/-- The rows of a join that meet a condition, row by row. -/
lemma filter_join (f : α → Option β) (mk : α → β → γ) (p : γ → Bool) (l : List α) :
    (l.flatMap fun a => ((f a).map (mk a)).toList).filter p
      = l.filterMap fun a => ((f a).map (mk a)).filter p := by
  rw [← List.filterMap_eq_flatMap_toList, List.filter_filterMap]

/-- Rows from which nothing comes do not count. -/
lemma filterMap_eq_of_filter_eq {g : α → Option γ} {q : α → Bool} {l l' : List α}
    (hg : ∀ a, q a = false → g a = none) (h : l'.filter q = l.filter q) :
    l'.filterMap g = l.filterMap g := by
  have hkeep : ∀ l : List α, l.filterMap g = (l.filter q).filterMap g := by
    intro l
    rw [List.filterMap_filter]
    refine List.filterMap_congr fun a _ => ?_
    cases ha : q a with
    | true => rfl
    | false => rw [hg a ha]; rfl
  calc l'.filterMap g = (l'.filter q).filterMap g := hkeep l'
    _ = (l.filter q).filterMap g := by rw [h]
    _ = l.filterMap g := (hkeep l).symm

end Joins

variable {info : PublisherInfo} {db db' : Db}

/-- **The join of `Find`** has the same rows about some publishers if these have the same
activities and the same rows. -/
lemma filter_joined {p : String → Bool}
    (hactivity : db'.activity_info.filter (fun a => p a.publisher_id)
      = db.activity_info.filter fun a => p a.publisher_id)
    (hrow : ∀ id, p id = true → db'.publisher_info.row? id = db.publisher_info.row? id) :
    db'.joined.filter (fun r => p r.ai.publisher_id)
      = db.joined.filter fun r => p r.ai.publisher_id := by
  have hnone : ∀ (t : UniqueTable PublisherRow.publisher_id) (a : ActivityRow),
      p a.publisher_id = false → ((t.row? a.publisher_id).map (Joined.mk a)).filter
        (fun r => p r.ai.publisher_id) = none :=
    fun t a ha => UniqueTable.filter_map_row? fun _ _ => ha
  rw [Db.joined, Db.joined, filter_join, filter_join]
  have hsame : ∀ a ∈ db'.activity_info,
      ((db'.publisher_info.row? a.publisher_id).map (Joined.mk a)).filter
          (fun r => p r.ai.publisher_id)
        = ((db.publisher_info.row? a.publisher_id).map (Joined.mk a)).filter
          fun r => p r.ai.publisher_id := by
    intro a _
    cases ha : p a.publisher_id with
    | false => rw [hnone _ a ha, hnone _ a ha]
    | true => rw [hrow _ ha]
  calc _ = db'.activity_info.filterMap fun a =>
          ((db.publisher_info.row? a.publisher_id).map (Joined.mk a)).filter
            fun r => p r.ai.publisher_id := List.filterMap_congr hsame
    _ = _ := filterMap_eq_of_filter_eq (hnone db.publisher_info) hactivity

/-- The join of `Find` has the same rows about other publishers. -/
lemma filter_joined_other (h : SameElsewhere info db db') :
    db'.joined.filter (fun r => r.ai.publisher_id ≠ info.id)
      = db.joined.filter fun r => r.ai.publisher_id ≠ info.id := by
  refine filter_joined (p := fun id => id ≠ info.id) ?_ fun id hid =>
    h.publisher_info id (of_decide_eq_true hid)
  -- an activity of another publisher has another key
  have hkey : ∀ as : List ActivityRow, as.filter (fun a => a.publisher_id ≠ info.id)
      = (as.filter fun a => a.key ≠ info.key).filter fun a => a.publisher_id ≠ info.id := by
    intro as
    rw [List.filter_filter]
    refine List.filter_congr fun a _ => ?_
    rw [eq_comm, Bool.and_eq_left_iff_imp, decide_eq_true_eq, decide_eq_true_eq]
    exact fun hid heq => hid (congrArg ActivityKey.publisher_id heq)
  rw [hkey, h.activity_info, ← hkey]

/-- The join of `GetRecurringDonations` has the same rows about other publishers. -/
lemma filter_donations_other (h : SameElsewhere info db db') :
    db'.donations.filter (fun d => d.pi.publisher_id ≠ info.id)
      = db.donations.filter fun d => d.pi.publisher_id ≠ info.id := by
  rw [Db.donations, Db.donations, filter_join, filter_join, h.recurring_donation]
  refine List.filterMap_congr fun d _ => ?_
  by_cases hid : d.publisher_id = info.id
  · have hother : ∀ p : PublisherRow, p.publisher_id = d.publisher_id →
        decide (p.publisher_id ≠ info.id) = false := fun p hp => by simp [hp, hid]
    rw [UniqueTable.filter_map_row? hother, UniqueTable.filter_map_row? hother]
  · rw [h.publisher_info _ hid]

/-! ### The records about other publishers -/

/-- A filter whose id has no quote, with at most one order, which names a column. -/
structure PublisherInfoFilter.Readable (filter : PublisherInfoFilter) : Prop where
  id : '\'' ∉ filter.id.toList
  length_le : filter.order_by.length ≤ 1
  order_by : NamesColumns filter.order_by

/-- The orders of a readable filter are accepted. -/
lemma PublisherInfoFilter.Readable.accepts {filter : PublisherInfoFilter} (h : filter.Readable) :
    ∃ order, ∀ conds, (orderedParse ⟨conds, none⟩ filter.order_by).finish
      = .accepts (⟨conds, order⟩, none) := by
  rcases orderedParse_cases filter.order_by with haccepts | hrefuses
  · exact haccepts
  · have hlength := h.length_le
    have hone := hrefuses []
    match horder : filter.order_by with
    | [] => simp [horder, orderedParse, Parse.finish] at hone
    | [it] => simp [horder, orderedParse, Parse.finish] at hone
    | _ :: _ :: _ => simp [horder] at hlength

/-- An initialised store on a file, whose next statement the environment does not make fail. -/
structure Conn.Serves (c : Conn) (db : Db) : Prop where
  ready : c.Ready
  spared : c.fails 0 = none
  file : c.file = db

/-- **`Find` of a readable filter**: it is refused for every content, or it appends the rows of one
query. -/
lemma find_readable (L : Ledger) {filter : PublisherInfoFilter} (h : filter.Readable) :
    ('\x00' ∈ filter.id.toList ∧ ∀ list (c : Conn) db, c.Serves db →
      find E L 0 0 filter list c = (.ok (false, list), c.next)) ∨
    ('\x00' ∉ filter.id.toList ∧ ∃ order, ∀ list (c : Conn) db, c.Serves db →
      find E L 0 0 filter list c = (.ok (true, list ++
        (E.find (.query ⟨filter.conds L, order⟩) db).map (Joined.record L)), c.next)) := by
  by_cases hnul : '\x00' ∈ filter.id.toList
  · refine .inl ⟨hnul, fun list c db hc => ?_⟩
    exact find_refused list hc.ready (E.refuses _ (read_findText_of_nul L 0 0 h.id hnul))
  · obtain ⟨order, haccepts⟩ := h.accepts
    refine .inr ⟨hnul, order, fun list c db hc => ?_⟩
    rw [← hc.file]
    exact find_rows list hc.ready hc.spared h.id hnul h.order_by haccepts

/-- `GetMediaPublisherInfo` on an initialised store: the record of the publisher of the key, unless
the statement fails before its row comes. -/
lemma getMediaPublisherInfo_ready {c : Conn} (L : Ledger) (hready : c.Ready) (media_key : String) :
    getMediaPublisherInfo E L media_key c
      = (.ok (if c.fails 0 = some 0 then none
          else (c.file.mediaPublisher media_key).map (PublisherRow.record L)), c.next) := by
  have hstep := stepSql_ready (E := E) hready
    (E.accepts _ _ (read_alone .selectMediaPublisherInfo)) (by simp) (b := [.text media_key]) rfl
  refine (DbM.bind_ok (init_of_ready hready)).trans
    (DbM.tryCatch_ok ((DbM.bind_ok hstep).trans ?_))
  match hc : c.fails 0 with
  | none => cases hrow : c.file.mediaPublisher media_key <;> rfl
  | some 0 => rfl
  | some (k + 1) =>
      cases hrow : c.file.mediaPublisher media_key with
      | none => rfl
      | some row =>
          have htake : [row].take (k + 1) = [row] := by simp
          have hlast : (([row].take (k + 1)).map (PublisherRow.record L)).getLast?
              = some (row.record L) := by
            rw [htake]
            rfl
          exact congrArg (fun info => (Except.ok info, c.next)) hlast

/-- `GetMediaPublisherInfo` gives the record of the publisher of the key. -/
lemma getMediaPublisherInfo_serves {c : Conn} (L : Ledger) (hc : c.Serves db)
    (media_key : String) :
    getMediaPublisherInfo E L media_key c
      = (.ok ((db.mediaPublisher media_key).map (PublisherRow.record L)), c.next) := by
  rw [getMediaPublisherInfo_ready L hc.ready, hc.spared, hc.file]
  rfl

/-- The records that are about other publishers. -/
def others (info : PublisherInfo) (list : List PublisherInfo) : List PublisherInfo :=
  list.filter fun r => r.id ≠ info.id

variable (E) in
/-- A save has disturbed nothing else: the rows that it is not about are the same, and so are the
records about other publishers that `Find`, `GetMediaPublisherInfo` and `GetRecurringDonations`
give. -/
structure Undisturbed (L : Ledger) (info : PublisherInfo) (db db' : Db) : Prop where
  rows : SameElsewhere info db db'
  find : ∀ filter : PublisherInfoFilter, filter.Readable → ∀ (list : List PublisherInfo)
    (c c' : Conn), c.Serves db → c'.Serves db' → ∃ success found found',
      find E L 0 0 filter list c = (.ok (success, list ++ found), c.next) ∧
      find E L 0 0 filter list c' = (.ok (success, list ++ found'), c'.next) ∧
      (others info found').Perm (others info found)
  media : ∀ (media_key : String) (c c' : Conn), c.Serves db → c'.Serves db' → ∃ found found',
    getMediaPublisherInfo E L media_key c = (.ok found, c.next) ∧
    getMediaPublisherInfo E L media_key c' = (.ok found', c'.next) ∧
    found'.filter (fun r => r.id ≠ info.id) = found.filter fun r => r.id ≠ info.id
  recurring : ∀ (list : List PublisherInfo) (c c' : Conn), c.Serves db → c'.Serves db' →
    ∃ found found', getRecurringDonations E L list c = (.ok (list ++ found), c.next) ∧
      getRecurringDonations E L list c' = (.ok (list ++ found'), c'.next) ∧
      (others info found').Perm (others info found)

/-- The rows of a query about other publishers. -/
lemma perm_find (h : SameElsewhere info db db') (L : Ledger) (q : Query) :
    (others info ((E.find (.query q) db').map (Joined.record L))).Perm
      (others info ((E.find (.query q) db).map (Joined.record L))) := by
  have hrows : ∀ db : Db, (others info ((E.find (.query q) db).map (Joined.record L))).Perm
      (((db.joined.filter fun r => r.ai.publisher_id ≠ info.id).filter
        fun r => q.conds.all (·.holds r)).map (Joined.record L)) := by
    intro db
    rw [others, List.filter_map]
    refine List.Perm.map _ (((E.find_perm q db).filter _).trans ?_)
    rw [Query.rows, List.filter_comm]
    exact .refl _
  have hdb' := hrows db'
  rw [filter_joined_other h] at hdb'
  exact hdb'.trans (hrows db).symm

/-- The recurring donations to other publishers. -/
lemma perm_recurring (h : SameElsewhere info db db') (L : Ledger) :
    (others info ((E.recurring db').map (Donation.record L))).Perm
      (others info ((E.recurring db).map (Donation.record L))) := by
  have hrows : ∀ db : Db, (others info ((E.recurring db).map (Donation.record L))).Perm
      ((db.donations.filter fun d => d.pi.publisher_id ≠ info.id).map (Donation.record L)) := by
    intro db
    rw [others, List.filter_map]
    exact List.Perm.map _ ((E.recurring_perm db).filter _)
  have hdb' := hrows db'
  rw [filter_donations_other h] at hdb'
  exact hdb'.trans (hrows db).symm

/-- The publisher of a media key, if it is another one. -/
lemma mediaPublisher_other (h : SameElsewhere info db db') (L : Ledger) (media_key : String) :
    ((db'.mediaPublisher media_key).map (PublisherRow.record L)).filter (fun r => r.id ≠ info.id)
      = ((db.mediaPublisher media_key).map (PublisherRow.record L)).filter
        fun r => r.id ≠ info.id := by
  rw [Db.mediaPublisher, Db.mediaPublisher, h.media_publisher_info]
  cases db.media_publisher_info.row? media_key with
  | none => rfl
  | some m =>
      rw [Option.bind_some, Option.bind_some]
      by_cases hid : m.publisher_id = info.id
      · have hother : ∀ p : PublisherRow, p.publisher_id = m.publisher_id →
            decide ((PublisherRow.record L p).id ≠ info.id) = false := by
          intro p hp
          simp [PublisherRow.record, hp, hid]
        rw [UniqueTable.filter_map_row? hother, UniqueTable.filter_map_row? hother]
      · rw [h.publisher_info _ hid]

/-- What is the same elsewhere is read the same. -/
lemma undisturbed_of_sameElsewhere (L : Ledger) (h : SameElsewhere info db db') :
    Undisturbed E L info db db' where
  rows := h
  find := fun filter hfilter list c c' hc hc' => by
    rcases find_readable (E := E) L hfilter with ⟨-, hrefused⟩ | ⟨-, order, hfind⟩
    · exact ⟨false, [], [], by rw [hrefused list c db hc, List.append_nil],
        by rw [hrefused list c' db' hc', List.append_nil], .refl _⟩
    · exact ⟨true, _, _, hfind list c db hc, hfind list c' db' hc', perm_find h L _⟩
  media := fun media_key c c' hc hc' =>
    ⟨_, _, getMediaPublisherInfo_serves L hc media_key, getMediaPublisherInfo_serves L hc' media_key,
      mediaPublisher_other h L media_key⟩
  recurring := fun list c c' hc hc' => by
    have hlist := getRecurringDonations_ready (E := E) L hc.ready hc.spared list
    have hlist' := getRecurringDonations_ready (E := E) L hc'.ready hc'.spared list
    rw [hc.file] at hlist
    rw [hc'.file] at hlist'
    exact ⟨_, _, hlist, hlist', perm_recurring h L⟩

/-- **The frame of a save**: on an initialised store, for every info and every pattern of failures,
the save disturbs nothing else. -/
theorem save_undisturbed {c : Conn} (hready : c.Ready) (L : Ledger) (info : PublisherInfo) :
    Undisturbed E L info c.file (insertOrUpdatePublisherInfo E info c).2.file := by
  obtain ⟨c', hrun, hleaves⟩ := run_ready (E := E) hready (.publisherInfo info)
  have hconn : (insertOrUpdatePublisherInfo E info c).2 = c' := congrArg Prod.snd hrun
  refine undisturbed_of_sameElsewhere L ?_
  rw [hconn, hleaves.file]
  split
  · exact sameElsewhere_apply info c.file
  · exact ⟨rfl, fun _ _ => rfl, rfl, rfl, rfl⟩

/-- A save next to another publisher. -/
theorem save_undisturbed_sample : Undisturbed reference sampleLedger { periodInfo with id := "a.com" }
    sampleDb (insertOrUpdatePublisherInfo reference { periodInfo with id := "a.com" }
      (Conn.on sampleDb)).2.file :=
  save_undisturbed sampleDb_ready sampleLedger _

end RewardsDriver.Store
