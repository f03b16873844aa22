import RewardsDriver.Service.Lookup

/-!
Looking up the publisher of a media key: `LoadMediaPublisherInfo` and
`OnMediaPublisherInfoLoaded`.

The record is a pointer that may be null. `OnMediaPublisherInfoLoaded` chooses its result by the
pointer and then copies the record in either case.

* `loadMediaPublisherInfo`: the functions, with the null pointer that they read through.
* `runLog`, `savedUnder`: a run of operations with what each returned, and the publisher id last
  saved under a key.
* `row?_runLog`: **the table of media keys** after a run is that of the last saves.
* `MediaLooksUp`, `mediaLooksUp_iff`: the callback is called as it is to be if and only if there is
  a record.
-/

namespace RewardsDriver.Service

open RewardsDriver.Store

variable (E : Sqlite) (L : Ledger)

/-! ### The functions -/

/-- What a null pointer that is read through makes of a run. -/
inductive Fault where
  | nullDereference
  deriving DecidableEq

/-- `*info` of a pointer that may be null. -/
def dereference (info : Option PublisherInfo) : Except Fault PublisherInfo :=
  match info with
  | some record => .ok record
  | none => .error .nullDereference

/-- `OnMediaPublisherInfoLoaded`: the calls of the callback. The record is copied before the call,
whatever the result. -/
def onMediaPublisherInfoLoaded (info : Option PublisherInfo) :
    Except Fault (List PublisherInfoCall) := do
  let r : Result := if info.isNone then .NOT_FOUND else .LEDGER_OK
  let copy ← dereference info
  return [(r, some copy)]

/-- `LoadMediaPublisherInfo`, with its task run. -/
def loadMediaPublisherInfo (media_key : String) :
    DbM (Except Fault (List PublisherInfoCall)) := do
  let pi ← getMediaPublisherInfo E L media_key
  return onMediaPublisherInfoLoaded pi

/-! ### Runs of saves -/

/-- Operations one after the other, with what each has returned. -/
def runLog : List Write → DbM (List (Write × Bool))
  | [] => return []
  | w :: ws => do
      let success ← w.run E
      return (w, success) :: (← runLog ws)

/-- The publisher id that an operation has saved under a media key. -/
def savedBy (media_key : String) : Write × Bool → Option String
  | (.mediaPublisherInfo key publisher_id, true) =>
      if key = media_key then some publisher_id else none
  | _ => none

/-- The publisher id last saved under a media key. -/
def savedUnder (log : List (Write × Bool)) (media_key : String) : Option String :=
  (log.filterMap (savedBy media_key)).getLast?

/-- The publisher of a media key, by the log of the saves and the current publishers. -/
def publisherOf (log : List (Write × Bool)) (db : Db) (media_key : String) : Option PublisherRow :=
  (savedUnder log media_key).bind fun id => db.publisher_info.row? id

/-- The callback is called once: with `LEDGER_OK` and the record of the publisher, if there is one,
and with `NOT_FOUND` and no record otherwise. -/
def MediaLooksUp (log : List (Write × Bool)) (media_key : String) (c : Conn) : Prop :=
  ∃ c', loadMediaPublisherInfo E L media_key c
    = (.ok (.ok [match publisherOf log c.file media_key with
        | some row => (.LEDGER_OK, some (row.record L))
        | none => (.NOT_FOUND, none)]), c')

variable {E L}

/-! ### The table of media keys -/

lemma savedUnder_cons (entry : Write × Bool) (log : List (Write × Bool)) (media_key : String) :
    savedUnder (entry :: log) media_key
      = (savedUnder log media_key).or (savedBy media_key entry) := by
  rw [savedUnder, savedUnder, List.filterMap_cons]
  cases savedBy media_key entry with
  | none => rw [Option.or_none]
  | some id =>
      rw [List.getLast?_cons]
      cases (log.filterMap (savedBy media_key)).getLast? <;> rfl

/-- The row of a media key after one operation. -/
lemma row?_run {w : Write} {c c' : Conn} (hleaves : w.Leaves c c') (media_key : String) :
    c'.file.media_publisher_info.row? media_key
      = ((savedBy media_key (w, decide (c.fails 0 = none) && w.returns)).map
          (MediaRow.mk media_key)).or (c.file.media_publisher_info.row? media_key) := by
  rw [hleaves.file]
  by_cases hc : c.fails 0 = none
  · cases w with
    | mediaPublisherInfo key publisher_id =>
        by_cases hkey : key = media_key
        · subst hkey
          simp [hc, savedBy, Write.returns, Write.apply]
        · have hrow := UniqueTable.row?_replace_of_ne (t := c.file.media_publisher_info)
            (r := ⟨key, publisher_id⟩) (k := media_key) (Ne.symm hkey)
          simpa [hc, hkey, savedBy, Write.returns, Write.apply] using hrow
    | _ => simp [hc, savedBy, Write.apply]
  · cases w <;> simp [hc, savedBy]

/-- **The table of media keys** after a run has the publisher id last saved under a key, or the row
that was there before. -/
theorem row?_runLog (ws : List Write) {c : Conn} (hready : c.Ready) (media_key : String) :
    ∃ log c', runLog E ws c = (.ok log, c') ∧ c'.Ready ∧
      c'.file.media_publisher_info.row? media_key
        = ((savedUnder log media_key).map (MediaRow.mk media_key)).or
            (c.file.media_publisher_info.row? media_key) := by
  induction ws generalizing c with
  | nil => exact ⟨[], c, rfl, hready, rfl⟩
  | cons w ws ih =>
      obtain ⟨c₁, hrun, hleaves⟩ := run_ready (E := E) hready w
      obtain ⟨log, c₂, hlog, hready₂, hrow⟩ := ih hleaves.ready
      refine ⟨_, c₂, (DbM.bind_ok hrun).trans (DbM.bind_ok hlog), hready₂, ?_⟩
      rw [hrow, row?_run hleaves, savedUnder_cons, ← Option.or_assoc]
      congr 1
      cases savedUnder log media_key <;> rfl

/-! ### The lookup -/

/-- The callback of a lookup. -/
lemma loadMediaPublisherInfo_ready {c : Conn} (hready : c.Ready) (media_key : String) :
    loadMediaPublisherInfo E L media_key c
      = (.ok (onMediaPublisherInfoLoaded (if c.fails 0 = some 0 then none
          else (c.file.mediaPublisher media_key).map (PublisherRow.record L))), c.next) :=
  DbM.bind_ok (getMediaPublisherInfo_ready L hready media_key)

/-- **The lookup of a media key**: after every run of operations, whichever of their statements
fail, from an initialised store without media keys, the callback is called as it is to be if and
only if a publisher id has been saved under the key, it has a publisher, and the lookup's statement
does not fail before its row comes. -/
theorem mediaLooksUp_iff {ws : List Write} {c c' : Conn} {log : List (Write × Bool)}
    (hready : c.Ready) (hempty : c.file.media_publisher_info = .empty)
    (hrun : runLog E ws c = (.ok log, c')) (media_key : String) :
    MediaLooksUp E L log media_key c'
      ↔ (publisherOf log c'.file media_key).isSome ∧ c'.fails 0 ≠ some 0 := by
  obtain ⟨log', c₁, hlog, hready₁, hrow⟩ := row?_runLog (E := E) ws hready media_key
  obtain ⟨rfl, rfl⟩ : log = log' ∧ c' = c₁ := by
    rw [hrun] at hlog
    cases hlog
    exact ⟨rfl, rfl⟩
  have hpublisher : c'.file.mediaPublisher media_key = publisherOf log c'.file media_key := by
    have hnone : c.file.media_publisher_info.row? media_key = none := by
      rw [hempty]
      rfl
    rw [hnone, Option.or_none] at hrow
    rw [Db.mediaPublisher, hrow, publisherOf]
    cases savedUnder log media_key <;> rfl
  rw [MediaLooksUp, loadMediaPublisherInfo_ready hready₁, hpublisher]
  by_cases hfails : c'.fails 0 = some 0
  · rw [if_pos hfails]
    refine iff_of_false ?_ fun h => h.2 hfails
    rintro ⟨c'', h⟩
    cases h
  · rw [if_neg hfails]
    cases publisherOf log c'.file media_key with
    | none =>
        refine iff_of_false ?_ fun h => (by cases h.1)
        rintro ⟨c'', h⟩
        cases h
    | some row => exact iff_of_true ⟨c'.next, rfl⟩ ⟨rfl, hfails⟩

/-! ### Lookups after saves -/

/-- A save of a publisher and of its media key. -/
def mediaSaves : List Write :=
  [.publisherInfo { sampleLedger.defaults with id := "channel" },
    .mediaPublisherInfo "youtube_1" "channel"]

/-- A key that has been saved. -/
theorem mediaLooksUp_iff_saved : ∃ log c', runLog reference mediaSaves (Conn.on Db.fresh)
      = (.ok log, c') ∧ MediaLooksUp reference sampleLedger log "youtube_1" c' := by
  obtain ⟨log, c', hrun, -, -⟩ := row?_runLog (E := reference) mediaSaves
    (Conn.on_ready Db.fresh_complete) "youtube_1"
  refine ⟨log, c', hrun, (mediaLooksUp_iff (Conn.on_ready Db.fresh_complete) rfl hrun _).mpr ?_⟩
  have hvalue : runLog reference mediaSaves (Conn.on Db.fresh) = (.ok _, _) := rfl
  rw [hvalue] at hrun
  cases hrun
  exact ⟨by decide, by decide⟩

/-- A key that has not been saved: the null pointer is read through. -/
theorem absent_dereferenced : ¬ ∀ (E : Sqlite) (L : Ledger) (ws : List Write) (c c' : Conn)
    (log : List (Write × Bool)) (media_key : String), c.Ready → c.Quiet →
    c.file.media_publisher_info = .empty → runLog E ws c = (.ok log, c') →
    MediaLooksUp E L log media_key c' := by
  intro hall
  have hlooks := hall reference sampleLedger [] (Conn.on Db.fresh) (Conn.on Db.fresh) []
    "youtube_1" (Conn.on_ready Db.fresh_complete) (Conn.on_quiet _) rfl rfl
  obtain ⟨c', h⟩ := hlooks
  rw [loadMediaPublisherInfo_ready (Conn.on_ready Db.fresh_complete)] at h
  cases h

end RewardsDriver.Service
