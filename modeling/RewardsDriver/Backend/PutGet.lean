import Mathlib.Data.List.Lex
import Mathlib.Data.Set.Insert
import RewardsDriver.Base.Runs
import RewardsDriver.Base.SortedMap
import RewardsDriver.Backend.KeyRange

/-!
The publisher store over LevelDB as a map: `PublisherInfoBackend::Put` and `Get`, among the scans,
over whole runs.

The store is opened on first use, and a store that is found corrupt is deleted on the way. A call
may fail at LevelDB; a write that fails may have been made nevertheless.

* `LevelDB`: what LevelDB answers to the calls of a run, in order.
* `put`, `get`: the functions; `running` is the system of calls on one path, with restarts.
* `Event`, `possible`: the calls that matter for what is stored, and what a key may then hold.
* `Outcome`, `step_outcome`: **what one call can do**.
* `possible_step`, `possible_reach`: **what is stored** after any run is possible by its events.
-/

namespace RewardsDriver.Backend

instance byteOrder : IsStrictTotalOrder UInt8 (· < ·) where
  trichotomous _ _ hab hba :=
    UInt8.le_antisymm (UInt8.not_lt.mp hba) (UInt8.not_lt.mp hab)
  irrefl _ := UInt8.lt_irrefl _
  trans _ _ _ := UInt8.lt_trans

/-- The byte order of keys. -/
instance bytesOrder : IsStrictTotalOrder Bytes (· < ·) :=
  have horder : IsStrictWeakOrder (List UInt8) (List.Lex (· < ·)) :=
    isStrictWeakOrder_of_isOrderConnected
  { List.Lex.trichotomous (α := UInt8) (· < ·), horder with }

/-- What is stored under a path. -/
abbrev Contents := SortedMap Bytes Bytes

/-- The entries of an open database. -/
def DB.contents (db : DB) : Contents := ⟨db.entries, db.sorted⟩

/-- The codes of `leveldb::Status` that the documentation of `Get` names. -/
inductive Status where
  | ok
  | notFound
  | failed
  deriving DecidableEq

/-- LevelDB in a run: what the calls answer, by their number. -/
structure LevelDB where
  dbOpen : ℕ → Contents → Opened
  /-- `DB::Open` after the files have been removed. -/
  dbOpenRemoved : ℕ → Opened
  put : ℕ → DB → Bytes → Bytes → Status × DB
  get : ℕ → DB → Bytes → Bytes → Status × Bytes
  dbOpen_ok : ∀ n m db, dbOpen n m = .ok db → db.contents = m
  dbOpenRemoved_ok : ∀ n db, dbOpenRemoved n = .ok db → db.contents = .empty
  put_ok : ∀ n db key value db', put n db key value = (.ok, db') →
    db'.contents = db.contents.insert key value
  /-- A write is atomic: it has been made or not. -/
  put_failed : ∀ n db key value status db', put n db key value = (status, db') → status ≠ .ok →
    db'.contents = db.contents ∨ db'.contents = db.contents.insert key value
  get_ok : ∀ n db key value v, get n db key value = (.ok, v) → db.contents.get? key = some v
  get_notFound : ∀ n db key value v, get n db key value = (.notFound, v) →
    db.contents.get? key = none ∧ v = value

/-! ### The functions -/

namespace PublisherInfoBackend

/-- The constructor. -/
def create (path : String) : PublisherInfoBackend := ⟨path, none⟩

/-- `Put`. -/
def put (E : LevelDB) (n : ℕ) (disk : Disk) (b : PublisherInfoBackend) (key value : Bytes) :
    Option (Bool × PublisherInfoBackend) :=
  match b.ensureInitialized disk with
  | (false, b) => some (false, b)
  | (true, b) => b.db_.map fun db =>
      match E.put n db key value with
      | (.ok, db) => (true, { b with db_ := some db })
      | (_, db) => (false, { b with db_ := some db })

/-- `Get`, with what is in `*value` before and after. -/
def get (E : LevelDB) (n : ℕ) (disk : Disk) (b : PublisherInfoBackend) (lookup value : Bytes) :
    Option (Bool × PublisherInfoBackend × Bytes) :=
  match b.ensureInitialized disk with
  | (false, b) => some (false, b, value)
  | (true, b) => b.db_.map fun db =>
      match E.get n db lookup value with
      | (.ok, value) => (true, b, value)
      | (_, value) => (false, b, value)

end PublisherInfoBackend

/-! ### Runs -/

/-- What matters for what is stored. -/
inductive Event where
  /-- A write that reached LevelDB, and whether it was acknowledged. -/
  | put (key value : Bytes) (acknowledged : Bool)
  /-- The files were found corrupt and deleted. -/
  | removed

/-- A path with the one backend on it. -/
structure World where
  backend : PublisherInfoBackend
  /-- What is stored under the path. -/
  files : Contents
  calls : ℕ
  history : List Event

/-- A call, or the end of the backend and the construction of the next one. -/
inductive Op where
  | put (key value : Bytes)
  | get (lookup value : Bytes)
  | search (fuel : ℕ) (prefixes : List Bytes) (start limit : UInt32)
  | load (fuel : ℕ) (start limit : UInt32)
  | restart

namespace World

variable (E : LevelDB) (w : World)

/-- What `DB::Open` answers to the next call. -/
def disk : Disk := ⟨fun _ => E.dbOpen w.calls w.files, fun _ => E.dbOpenRemoved w.calls⟩

/-- `EnsureInitialized` is going to find the files corrupt. -/
def corrupt : Bool :=
  match w.backend.db_, E.dbOpen w.calls w.files with
  | none, .corruption => true
  | _, _ => false

/-- What is stored once `EnsureInitialized` has run. -/
def found : Contents := if w.corrupt E then .empty else w.files

/-- The deletion of the files. -/
def removal : List Event := if w.corrupt E then [.removed] else []

/-- The world after a call that has left the backend `b`. -/
def after (b : PublisherInfoBackend) (events : List Event) : World where
  backend := b
  files := match b.db_ with
    | some db => db.contents
    | none => w.found E
  calls := w.calls + 1
  history := w.history ++ (w.removal E ++ events)

/-- One call. -/
def step : Op → Option World
  | .put key value =>
      (w.backend.put E w.calls (w.disk E) key value).map fun (acknowledged, b) =>
        w.after E b (if b.db_.isSome then [.put key value acknowledged] else [])
  | .get lookup value =>
      (w.backend.get E w.calls (w.disk E) lookup value).map fun (_, b, _) => w.after E b []
  | .search fuel prefixes start limit =>
      (w.backend.search fuel (w.disk E) prefixes start limit []).map fun (_, b, _) =>
        w.after E b []
  | .load fuel start limit =>
      (w.backend.load fuel (w.disk E) start limit []).map fun (_, b, _) => w.after E b []
  | .restart => some { w with backend := .create w.backend.path_ }

end World

/-- The calls on a path that holds `m`. -/
def running (E : LevelDB) (path : String) (m : Contents) : System World Op :=
  ⟨⟨.create path, m, 0, []⟩, World.step E⟩

/-! ### What one call can do -/

/-- What a call does to what is stored, with the events that it leaves. -/
inductive Outcome (found : Contents) : Op → List Event → Contents → Prop
  | kept {op} : Outcome found op [] found
  | written {key value} :
      Outcome found (.put key value) [.put key value true] (found.insert key value)
  | attempted {key value m} (h : m = found ∨ m = found.insert key value) :
      Outcome found (.put key value) [.put key value false] m

section Calls

variable {E : LevelDB} {w w' : World}

/-- The database that is open is the one under the path. -/
def World.Inv (w : World) : Prop := ∀ db, w.backend.db_ = some db → db.contents = w.files

lemma World.inv_after (b : PublisherInfoBackend) (events : List Event) :
    (w.after E b events).Inv := by
  intro db hdb
  have hopen : b.db_ = some db := hdb
  simp only [World.after, hopen]

/-- `EnsureInitialized` opens what it finds. -/
lemma ensureInitialized_true (hinv : w.Inv) {b : PublisherInfoBackend}
    (h : w.backend.ensureInitialized (w.disk E) = (true, b)) :
    ∃ db, b = ⟨w.backend.path_, some db⟩ ∧ db.contents = w.found E := by
  cases hdb : w.backend.db_ with
  | some db =>
      simp only [PublisherInfoBackend.ensureInitialized, hdb, Prod.mk.injEq, true_and] at h
      have hcorrupt : w.corrupt E = false := by simp [World.corrupt, hdb]
      refine ⟨db, ?_, ?_⟩
      · rw [← h, ← hdb]
      · rw [World.found, hcorrupt]
        exact hinv db hdb
  | none =>
      simp only [PublisherInfoBackend.ensureInitialized, hdb, World.disk] at h
      cases hopen : E.dbOpen w.calls w.files with
      | ok db =>
          have hcorrupt : w.corrupt E = false := by simp [World.corrupt, hopen]
          simp only [hopen, Prod.mk.injEq, true_and] at h
          refine ⟨db, h.symm, ?_⟩
          rw [World.found, hcorrupt]
          exact E.dbOpen_ok _ _ _ hopen
      | corruption =>
          have hcorrupt : w.corrupt E = true := by simp [World.corrupt, hdb, hopen]
          simp only [hopen] at h
          cases hagain : E.dbOpenRemoved w.calls with
          | ok db =>
              simp only [hagain, Prod.mk.injEq, true_and] at h
              refine ⟨db, h.symm, ?_⟩
              rw [World.found, hcorrupt]
              exact E.dbOpenRemoved_ok _ _ hagain
          | corruption | failed => simp [hagain] at h
      | failed => simp [hopen] at h

/-- Where `EnsureInitialized` answers `false` there is no database. -/
lemma ensureInitialized_false {disk : Disk} {b b' : PublisherInfoBackend}
    (h : b.ensureInitialized disk = (false, b')) : b'.db_ = none := by
  cases hdb : b.db_ with
  | some db => simp [PublisherInfoBackend.ensureInitialized, hdb] at h
  | none =>
      simp only [PublisherInfoBackend.ensureInitialized, hdb] at h
      split at h
      · simp at h
      · rw [← (Prod.mk.inj h).2, hdb]

/-- The backend after `EnsureInitialized` holds what was found. -/
lemma files_after_ensureInitialized (hinv : w.Inv) (events : List Event) :
    (w.after E (w.backend.ensureInitialized (w.disk E)).2 events).files = w.found E := by
  cases h : w.backend.ensureInitialized (w.disk E) with
  | mk initialized b =>
    cases initialized with
    | true =>
        obtain ⟨db, rfl, hdb⟩ := ensureInitialized_true hinv h
        exact hdb
    | false => simp only [World.after, ensureInitialized_false h]

/-- A read leaves the backend that `EnsureInitialized` leaves. -/
lemma get_backend {n : ℕ} {disk : Disk} {b b' : PublisherInfoBackend} {lookup value v : Bytes}
    {ok : Bool} (h : b.get E n disk lookup value = some (ok, b', v)) :
    b' = (b.ensureInitialized disk).2 := by
  cases hinit : b.ensureInitialized disk with
  | mk initialized b₁ =>
    cases initialized with
    | true =>
        simp only [PublisherInfoBackend.get, hinit, Option.map_eq_some_iff] at h
        obtain ⟨db, -, h⟩ := h
        split at h <;> exact (congrArg (fun a => a.2.1) h).symm
    | false =>
        simp only [PublisherInfoBackend.get, hinit, Option.some.injEq] at h
        exact (congrArg (fun a => a.2.1) h).symm

lemma search_backend {fuel : ℕ} {disk : Disk} {b b' : PublisherInfoBackend}
    {prefixes results vs : List Bytes} {start limit : UInt32} {ok : Bool}
    (h : b.search fuel disk prefixes start limit results = some (ok, b', vs)) :
    b' = (b.ensureInitialized disk).2 := by
  cases hinit : b.ensureInitialized disk with
  | mk initialized b₁ =>
    cases initialized with
    | true =>
        simp only [PublisherInfoBackend.search, hinit, Option.bind_eq_some_iff,
          Option.map_eq_some_iff] at h
        obtain ⟨db, -, s, -, h⟩ := h
        exact (congrArg (fun a => a.2.1) h).symm
    | false =>
        simp only [PublisherInfoBackend.search, hinit, Option.some.injEq] at h
        exact (congrArg (fun a => a.2.1) h).symm

lemma load_backend {fuel : ℕ} {disk : Disk} {b b' : PublisherInfoBackend}
    {results vs : List Bytes} {start limit : UInt32} {ok : Bool}
    (h : b.load fuel disk start limit results = some (ok, b', vs)) :
    b' = (b.ensureInitialized disk).2 := by
  cases hinit : b.ensureInitialized disk with
  | mk initialized b₁ =>
    cases initialized with
    | true =>
        simp only [PublisherInfoBackend.load, hinit, Option.bind_eq_some_iff,
          Option.map_eq_some_iff] at h
        obtain ⟨db, -, s, -, h⟩ := h
        exact (congrArg (fun a => a.2.1) h).symm
    | false =>
        simp only [PublisherInfoBackend.load, hinit, Option.some.injEq] at h
        exact (congrArg (fun a => a.2.1) h).symm

/-- What a write leaves: no database, or one with the write made, or not made and not
acknowledged. -/
lemma put_outcome (hinv : w.Inv) {key value : Bytes} {acknowledged : Bool}
    {b : PublisherInfoBackend}
    (h : w.backend.put E w.calls (w.disk E) key value = some (acknowledged, b)) :
    (acknowledged = false ∧ b.db_ = none) ∨
      ∃ db, b.db_ = some db ∧ Outcome (w.found E) (.put key value)
        [.put key value acknowledged] db.contents := by
  cases hinit : w.backend.ensureInitialized (w.disk E) with
  | mk initialized b₁ =>
    cases initialized with
    | true =>
        obtain ⟨db, rfl, hdb⟩ := ensureInitialized_true hinv hinit
        simp only [PublisherInfoBackend.put, hinit, Option.map_some, Option.some.injEq] at h
        cases hput : E.put w.calls db key value with
        | mk status db' =>
          cases status with
          | ok =>
              simp only [hput, Prod.mk.injEq] at h
              obtain ⟨rfl, rfl⟩ := h
              refine .inr ⟨db', rfl, ?_⟩
              rw [E.put_ok _ _ _ _ _ hput, hdb]
              exact .written
          | notFound | failed =>
              simp only [hput, Prod.mk.injEq] at h
              obtain ⟨rfl, rfl⟩ := h
              have hcases := E.put_failed _ _ _ _ _ _ hput (by simp)
              rw [hdb] at hcases
              exact .inr ⟨db', rfl, .attempted hcases⟩
    | false =>
        simp only [PublisherInfoBackend.put, hinit, Option.some.injEq, Prod.mk.injEq] at h
        obtain ⟨rfl, rfl⟩ := h
        exact .inl ⟨rfl, ensureInitialized_false hinit⟩

/-- **What one call can do**: a restart changes nothing that is stored; another call deletes files
that are corrupt, and has an outcome on what it finds. -/
theorem step_outcome (hinv : w.Inv) {op : Op} (h : w.step E op = some w') :
    w'.Inv ∧ ((w'.files = w.files ∧ w'.history = w.history) ∨
      ∃ events, Outcome (w.found E) op events w'.files ∧
        w'.history = w.history ++ (w.removal E ++ events)) := by
  cases op with
  | put key value =>
      obtain ⟨⟨acknowledged, b⟩, hput, rfl⟩ := Option.map_eq_some_iff.mp h
      refine ⟨w.inv_after b _, .inr ?_⟩
      obtain ⟨-, hnone⟩ | ⟨db, hdb, houtcome⟩ := put_outcome hinv hput
      · simp only [World.after, hnone, Option.isSome_none]
        exact ⟨[], .kept, rfl⟩
      · simp only [World.after, hdb, Option.isSome_some, if_true]
        exact ⟨_, houtcome, rfl⟩
  | get lookup value =>
      obtain ⟨⟨ok, b, v⟩, hget, rfl⟩ := Option.map_eq_some_iff.mp h
      obtain rfl := get_backend hget
      refine ⟨w.inv_after _ _, .inr ⟨[], ?_, rfl⟩⟩
      rw [files_after_ensureInitialized hinv]
      exact .kept
  | search fuel prefixes start limit =>
      obtain ⟨⟨ok, b, vs⟩, hsearch, rfl⟩ := Option.map_eq_some_iff.mp h
      obtain rfl := search_backend hsearch
      refine ⟨w.inv_after _ _, .inr ⟨[], ?_, rfl⟩⟩
      rw [files_after_ensureInitialized hinv]
      exact .kept
  | load fuel start limit =>
      obtain ⟨⟨ok, b, vs⟩, hload, rfl⟩ := Option.map_eq_some_iff.mp h
      obtain rfl := load_backend hload
      refine ⟨w.inv_after _ _, .inr ⟨[], ?_, rfl⟩⟩
      rw [files_after_ensureInitialized hinv]
      exact .kept
  | restart =>
      obtain rfl := Option.some.inj h
      refine ⟨?_, .inl ⟨rfl, rfl⟩⟩
      intro db hdb
      cases hdb

end Calls

/-! ### What a key may hold -/

/-- What becomes of the values that the key may have. -/
def Event.effect (key : Bytes) (values : Set (Option Bytes)) : Event → Set (Option Bytes)
  | .put k value true => if k = key then {some value} else values
  | .put k value false => if k = key then insert (some value) values else values
  | .removed => {none}

/-- The values that the key may have after the events: that of the last acknowledged write, or of
a later one that was not. -/
def possible (m : Contents) (history : List Event) (key : Bytes) : Set (Option Bytes) :=
  history.foldl (Event.effect key) {m.get? key}

/-- The event does not concern the key. -/
def Event.Spares (key : Bytes) : Event → Prop
  | .put k _ _ => k ≠ key
  | .removed => False

section Possible

variable {E : LevelDB} {m : Contents} {key : Bytes}

/-- Events that spare the key leave it what it may have. -/
lemma foldl_effect_of_spares {events : List Event} (h : ∀ e ∈ events, e.Spares key)
    (values : Set (Option Bytes)) : events.foldl (Event.effect key) values = values := by
  induction events generalizing values with
  | nil => rfl
  | cons e events ih =>
      have he : e.effect key values = values := by
        have hspares := h e List.mem_cons_self
        cases e with
        | put k value acknowledged =>
            have hk : k ≠ key := hspares
            cases acknowledged <;> simp [Event.effect, hk]
        | removed => exact hspares.elim
      rw [List.foldl_cons, he, ih fun f hf => h f (List.mem_cons_of_mem e hf)]

/-- An outcome is among the effects of its events. -/
lemma Outcome.effect {found files : Contents} {op : Op} {events : List Event}
    (h : Outcome found op events files) {values : Set (Option Bytes)}
    (hvalues : found.get? key ∈ values) :
    files.get? key ∈ events.foldl (Event.effect key) values := by
  cases h with
  | kept => exact hvalues
  | @written k value =>
      rw [List.foldl_cons, List.foldl_nil, SortedMap.get?_insert, Event.effect]
      by_cases hk : k = key
      · rw [if_pos hk, if_pos hk.symm]
        rfl
      · rwa [if_neg hk, if_neg (Ne.symm hk)]
  | @attempted k value files hfiles =>
      rw [List.foldl_cons, List.foldl_nil, Event.effect]
      by_cases hk : k = key
      · rw [if_pos hk]
        obtain rfl | rfl := hfiles
        · exact Set.mem_insert_of_mem _ hvalues
        · rw [SortedMap.get?_insert, if_pos hk.symm]
          exact Set.mem_insert _ _
      · rw [if_neg hk]
        obtain rfl | rfl := hfiles
        · exact hvalues
        · rwa [SortedMap.get?_insert, if_neg (Ne.symm hk)]

/-- What is found is among the effects of the removal. -/
lemma found_effect (w : World) {values : Set (Option Bytes)}
    (hvalues : w.files.get? key ∈ values) :
    (w.found E).get? key ∈ (w.removal E).foldl (Event.effect key) values := by
  rw [World.found, World.removal]
  cases w.corrupt E with
  | true => exact rfl
  | false => exact hvalues

/-- **The step lemma**: a call leaves under every key a value that its events allow. -/
theorem possible_step {w w' : World} {op : Op} (hinv : w.Inv) (hstep : w.step E op = some w')
    (h : ∀ key, w.files.get? key ∈ possible m w.history key) (key : Bytes) :
    w'.files.get? key ∈ possible m w'.history key := by
  obtain ⟨-, ⟨hfiles, hhistory⟩ | ⟨events, houtcome, hhistory⟩⟩ := step_outcome hinv hstep
  · rw [hfiles, hhistory]
    exact h key
  · rw [hhistory, possible, List.foldl_append, List.foldl_append]
    exact houtcome.effect (found_effect w (h key))

lemma inv_init (path : String) : (running E path m).init.Inv := by
  intro db hdb
  cases hdb

lemma inv_reach {ok : World → Op → Prop} {path : String} {w : World}
    (h : (running E path m).Reach ok w) : w.Inv := by
  induction h with
  | init => exact inv_init path
  | step _ _ hs ih => exact (step_outcome ih hs).1

/-- **What is stored** after any run, whatever fails on the way, is possible by its events. -/
theorem possible_reach {path : String} {w : World} (h : (running E path m).Reach System.Free w)
    (key : Bytes) : w.files.get? key ∈ possible m w.history key := by
  have hboth : w.Inv ∧ ∀ key, w.files.get? key ∈ possible m w.history key := by
    induction h with
    | init => exact ⟨inv_init path, fun key => rfl⟩
    | step _ _ hs ih => exact ⟨(step_outcome ih.1 hs).1, possible_step ih.1 hs ih.2⟩
  exact hboth.2 key

end Possible

end RewardsDriver.Backend
