import RewardsDriver.Store.Transaction

/-!
What `Init` comes to, by the statements that fail.

Up to the indices a failure makes `Init` return from its `try` block. The functions that create an
index return `false` as well, but `Init` goes on, and if the failure has rolled the transaction
back, the statements that follow work on the file itself.

* `Stamped`: an open transaction in which both versions are the program's own.
* `createAll_passes`, `ensureCurrentVersion_passes`: the blocks of `Init` in its transaction.
* `Indexing.step`: **one index**, in the transaction or without it.
* `commitIfCurrent_inTxn`, `commitIfCurrent_auto`: the end of `Init`.
* `init_refuses`: **what a refusal leaves** in the file and of the transaction.
* `init_spec`: what `Init` comes to.
-/

namespace RewardsDriver.Store

open RewardsDriver.Sql

variable {E : Sqlite}

/-! ### The steps of `Init` -/

/-- A transaction is open in which both versions are the program's own and the tables `ts` exist. -/
structure Stamped (f : Db) (ts : List Table) (c : Conn) : Prop where
  file : c.file = f
  txn : ∃ db, c.txn = some db ∧ (∀ t ∈ ts, t ∈ db.tables) ∧
    db.meta.row? "version" = some ⟨"version", "1"⟩ ∧
    db.meta.row? "last_compatible_version" = some ⟨"last_compatible_version", "1"⟩

lemma Stamped.inTxn {f : Db} {ts : List Table} {c : Conn} (h : Stamped f ts c) : InTxn f c := by
  obtain ⟨hfile, db, hdb, _⟩ := h
  exact ⟨hfile, db, hdb⟩

lemma Stamped.next {f : Db} {ts : List Table} {c : Conn} (h : Stamped f ts c) :
    Stamped f ts c.next := ⟨h.file, h.txn⟩

/-- `MetaTableInit` writes both versions. -/
lemma metaTableInit_passes {f : Db} {c : Conn} (h : InTxn f c) :
    Passes (metaTableInit E) (.ok true) (.ok false) 3 f c (Stamped f [.meta]) := by
  obtain ⟨hfile, db, hdb⟩ := h
  have hcreate := passes_execSql (E := E) (b := []) (read_alone .createMeta) (by simp) hfile hdb
    (by simp [Statement.needs]) rfl
  refine Passes.succeeds (Passes.bind (k := 1 + 1) hcreate fun c₁ h₁ => ?_)
  have hversion := passes_execSql (E := E)
    (b := [.text "version", .int getCurrentVersion.toInt64]) (read_alone .insertMeta) (by simp)
    h₁.1 h₁.2 (by simp [Statement.needs]) rfl
  refine Passes.bind hversion fun c₂ h₂ => ?_
  have hcompatible := passes_execSql (E := E)
    (b := [.text "last_compatible_version", .int kCompatibleVersionNumber.toInt64])
    (read_alone .insertMeta) (by simp) h₂.1 h₂.2 (by simp [Statement.needs]) rfl
  refine hcompatible.mono fun c₃ h₃ => ⟨h₃.1, _, h₃.2, by simp, ?_, ?_⟩
  · rw [UniqueTable.row?_replace_of_ne (by decide)]
    exact UniqueTable.row?_replace_self _ _
  · exact UniqueTable.row?_replace_self _ _

/-- The creation of a table. -/
lemma createTable_passes {f : Db} {ts : List Table} {t : Table} {h : Head} {c : Conn}
    (ht : read ⟨h, ""⟩ = .accepts (.createTable t)) (hs : Stamped f ts c) :
    Passes (createTable E h) (.ok true) (.ok false) 1 f c (Stamped f (t :: ts)) := by
  obtain ⟨hfile, db, hdb, htables, hversions⟩ := hs
  have hcreate := passes_execSql (E := E) (b := []) ht (by simp) hfile hdb
    (by simp [Statement.needs]) rfl
  refine hcreate.succeeds.mono fun c' h' => ⟨h'.1, _, h'.2, fun t' ht' => ?_, hversions⟩
  obtain rfl | ht' := List.mem_cons.mp ht'
  · exact Finset.mem_insert_self _ _
  · exact Finset.mem_insert_of_mem (htables t' ht')

/-- Two functions of the condition one after the other. -/
lemma Passes.cons {x : DbM Bool} {xs : List (DbM Bool)} {j k : ℕ} {f : Db} {c : Conn}
    {Q R : Conn → Prop} (hx : Passes x (.ok true) (.ok false) j f c Q)
    (hxs : ∀ c', Q c' → Passes (allOf xs) (.ok true) (.ok false) k f c' R) :
    Passes (allOf (x :: xs)) (.ok true) (.ok false) (j + k) f c R :=
  hx.andThen (fun _ h => DbM.bind_ok h) (fun _ h => DbM.bind_ok h) hxs

lemma Passes.nil {f : Db} {c : Conn} {Q : Conn → Prop} (hq : Q c) :
    Passes (allOf []) (.ok true) (.ok false) 0 f c Q :=
  ⟨fun _ => ⟨c, rfl, hq, fun _ => rfl, fun _ => rfl⟩,
    fun hc => absurd (fun i hi => by omega) hc⟩

/-- All tables in the order in which they were created, the last one first. -/
def allTables : List Table :=
  [.recurring_donation, .media_publisher_info, .activity_info, .contribution_info,
    .publisher_info, .meta]

/-- **The tables**: eight statements, after which both versions are the program's own and every
table exists. -/
lemma createAll_passes {f : Db} {c : Conn} (h : InTxn f c) :
    Passes (allOf (createAll E)) (.ok true) (.ok false) 8 f c (Stamped f allTables) := by
  change Passes (allOf (createAll E)) (.ok true) (.ok false)
    (3 + (1 + (1 + (1 + (1 + (1 + 0)))))) f c (Stamped f allTables)
  refine (metaTableInit_passes h).cons fun c hc => ?_
  refine (createTable_passes (read_alone .createPublisherInfo) hc).cons fun c hc => ?_
  refine (createTable_passes (read_alone .createContributionInfo) hc).cons fun c hc => ?_
  refine (createTable_passes (read_alone .createActivityInfo) hc).cons fun c hc => ?_
  refine (createTable_passes (read_alone .createMediaPublisherInfo) hc).cons fun c hc => ?_
  refine (createTable_passes (read_alone .createRecurringDonation) hc).cons fun c hc => ?_
  exact .nil hc

/-- Reading a version that the program has written. -/
lemma readVersion_passes {f : Db} {ts : List Table} {c : Conn} {key : String}
    (hs : Stamped f ts c) (hmeta : .meta ∈ ts)
    (hkey : key = "version" ∨ key = "last_compatible_version") :
    Passes (readVersion E key) (.ok 1) (.error .sqlite_exception) 1 f c (Stamped f ts) := by
  refine passes_one (fun hc => ⟨c.next, ?_, hs.next, .next c⟩)
    (fun n hn => DbM.bind_error (runSql_fails hn)) hs.inTxn
  obtain ⟨-, db, hdb, htables, hversion, hcompatible⟩ := hs
  have hrow : db.meta.row? key = some ⟨key, "1"⟩ := by
    obtain rfl | rfl := hkey
    · exact hversion
    · exact hcompatible
  have heffect : E.effect .readMeta [.text key] db = some (db, .values ["1"]) := by
    simp [Sqlite.effect, hrow]
  have happly := apply_inTxn (E := E) (c := c.next) (by simp) hdb
    (by simpa [Statement.needs] using htables _ hmeta) heffect
  rw [readVersion, DbM.bind_ok (runSql_ok (read_alone .selectMeta) happly hc)]
  have hconn : { c.next with txn := some db } = c.next := by rw [← hdb]; rfl
  rw [hconn]
  rfl

/-- **The version check** in the transaction is of the versions that the program has just
written. -/
lemma ensureCurrentVersion_passes {f : Db} {ts : List Table} {c : Conn} (hs : Stamped f ts c)
    (hmeta : .meta ∈ ts) :
    Passes (ensureCurrentVersion E) (.ok true) (.ok false) 2 f c (Stamped f ts) := by
  have hblock : Passes (do
      let last_compatible_version ← readVersion E "last_compatible_version"
      let _version ← readVersion E "version"
      return decide (last_compatible_version ≤ kCurrentVersionNumber)) (.ok true)
      (.error .sqlite_exception) (1 + 1) f c (Stamped f ts) :=
    Passes.bind (readVersion_passes hs hmeta (.inr rfl)) fun c₁ h₁ =>
      (readVersion_passes h₁ hmeta (.inl rfl)).map (fun _ h => DbM.bind_ok h)
        fun _ h => DbM.bind_error h
  exact hblock.map (fun _ h => DbM.tryCatch_ok h) fun _ h => DbM.tryCatch_error h

/-- The file that `Init` leaves behind when it succeeds: both versions are the program's own. -/
def Opened (db : Db) : Prop :=
  db.Complete ∧ db.meta.row? "last_compatible_version" = some ⟨"last_compatible_version", "1"⟩

/-- The commit. -/
lemma commit_ok {f : Db} {c : Conn} (hs : Stamped f allTables c) (hc : c.fails 0 = none) :
    ∃ c', execSql E .commit [] c = (.ok (), c') ∧ c'.txn = none ∧ Opened c'.file := by
  obtain ⟨-, db, hdb, htables, -, hcompatible⟩ := hs
  have happly :
      E.apply .commit [] c.next = some ({ c.next with file := db, txn := none }, .none) := by
    simp [Sqlite.apply, hdb]
  refine ⟨_, execSql_ok (read_alone .commit) happly hc, rfl, fun t => htables t ?_, hcompatible⟩
  cases t <;> decide

/-! ### After an automatic rollback -/

/-- The versions that a file records let the program go on. -/
def Db.current (db : Db) : Bool :=
  decide (.meta ∈ db.tables) &&
    match db.meta.row? "last_compatible_version", db.meta.row? "version" with
    | some row, some _ => decide (columnInt row.value ≤ kCurrentVersionNumber)
    | _, _ => false

/-- Reading a version of the file itself. -/
lemma readVersion_auto {c : Conn} (htxn : c.txn = none) (key : String) :
    ∃ r, readVersion E key c = (r, c.next) ∧ ∀ n, r = .ok n ↔
      c.fails 0 = none ∧ .meta ∈ c.file.tables ∧
        ∃ row, c.file.meta.row? key = some row ∧ columnInt row.value = n := by
  have hfailed := Conn.failed_of_txn htxn
  by_cases hmeta : .meta ∈ c.file.tables
  · have happly := apply_auto (E := E) (c := c.next) (s := .readMeta) (b := [.text key]) (by simp)
      htxn (by simpa [Statement.needs] using hmeta) rfl
    cases hc : c.fails 0 with
    | some k =>
        have hfails : readVersion E key c = (.error .sqlite_exception, c.failed) :=
          DbM.bind_error (runSql_fails hc)
        exact ⟨_, by rw [hfails, hfailed], by simp⟩
    | none =>
        have hrun := runSql_ok (E := E) (c := c) (read_alone .selectMeta) happly hc
        cases hrow : c.file.meta.row? key with
        | none =>
            refine ⟨.error .sqlite_exception, ?_, by simp⟩
            rw [readVersion, DbM.bind_ok hrun]
            simp only [Conn.next_file, hrow]
            rfl
        | some row =>
            refine ⟨.ok (columnInt row.value), ?_, by simp [hmeta]⟩
            rw [readVersion, DbM.bind_ok hrun]
            simp only [Conn.next_file, hrow]
            rfl
  · have happly : E.apply .readMeta [.text key] c.next = none := by
      have hvisible : c.next.visible = c.file := by simp [Conn.visible, htxn]
      simp [Sqlite.apply, Statement.needs, hvisible, hmeta]
    have hthrows : readVersion E key c = (.error .sqlite_exception, c.failed) :=
      DbM.bind_error (runSql_inapplicable (read_alone .selectMeta) happly)
    exact ⟨_, by rw [hthrows, hfailed], by simp [hmeta]⟩

/-- **The version check outside a transaction** is of the versions that the file records. -/
lemma ensureCurrentVersion_auto {c : Conn} (htxn : c.txn = none) :
    ∃ c', ensureCurrentVersion E c
        = (.ok (decide (c.fails 0 = none ∧ c.fails 1 = none) && c.file.current), c') ∧
      c'.file = c.file ∧ c'.txn = none := by
  obtain ⟨r, hfirst, hr⟩ := readVersion_auto (E := E) htxn "last_compatible_version"
  cases r with
  | error e =>
      refine ⟨c.next, (DbM.tryCatch_error (DbM.bind_error hfirst)).trans ?_, rfl, htxn⟩
      have hnot : ¬ (c.fails 0 = none ∧ .meta ∈ c.file.tables ∧
          ∃ row, c.file.meta.row? "last_compatible_version" = some row) := by
        rintro ⟨hc, hmeta, row, hrow⟩
        have := (hr (columnInt row.value)).mpr ⟨hc, hmeta, row, hrow, rfl⟩
        cases this
      have hfalse : (decide (c.fails 0 = none ∧ c.fails 1 = none) && c.file.current) = false := by
        by_contra htrue
        simp only [Bool.not_eq_false, Bool.and_eq_true, decide_eq_true_eq, Db.current] at htrue
        obtain ⟨⟨hc, -⟩, hmeta, hmatch⟩ := htrue
        cases hrow : c.file.meta.row? "last_compatible_version" with
        | none => simp [hrow] at hmatch
        | some row => exact hnot ⟨hc, hmeta, row, hrow⟩
      rw [hfalse]
      rfl
  | ok n =>
      obtain ⟨hc, hmeta, row, hrow, hn⟩ := (hr n).mp rfl
      obtain ⟨r', hsecond, hr'⟩ := readVersion_auto (E := E) (c := c.next) htxn "version"
      refine ⟨c.next.next, ?_, rfl, htxn⟩
      cases r' with
      | error e =>
          have hblock : (readVersion E "last_compatible_version" >>= fun last_compatible_version =>
              readVersion E "version" >>= fun _ =>
                (return decide (last_compatible_version ≤ kCurrentVersionNumber) : DbM Bool)) c
                = (.error e, c.next.next) :=
            (DbM.bind_ok hfirst).trans (DbM.bind_error hsecond)
          refine (DbM.tryCatch_error hblock).trans ?_
          have hfalse :
              (decide (c.fails 0 = none ∧ c.fails 1 = none) && c.file.current) = false := by
            by_contra htrue
            simp only [Bool.not_eq_false, Bool.and_eq_true, decide_eq_true_eq, Db.current] at htrue
            obtain ⟨⟨-, hc'⟩, -, hmatch⟩ := htrue
            cases hrow' : c.file.meta.row? "version" with
            | none => simp [hrow, hrow'] at hmatch
            | some row' =>
                have := (hr' (columnInt row'.value)).mpr ⟨hc', hmeta, row', hrow', rfl⟩
                cases this
          rw [hfalse]
          rfl
      | ok n' =>
          obtain ⟨hc', -, row', hrow', -⟩ := (hr' n').mp rfl
          have hblock : (readVersion E "last_compatible_version" >>= fun last_compatible_version =>
              readVersion E "version" >>= fun _ =>
                (return decide (last_compatible_version ≤ kCurrentVersionNumber) : DbM Bool)) c
                = (.ok (decide (n ≤ kCurrentVersionNumber)), c.next.next) :=
            (DbM.bind_ok hfirst).trans (DbM.bind_ok hsecond)
          refine (DbM.tryCatch_ok hblock).trans ?_
          have hc₁ : c.fails 1 = none := hc'
          have hrow₁ : c.file.meta.row? "version" = some row' := hrow'
          simp [hc, hc₁, Db.current, hmeta, hrow, hrow₁, hn]

/-- A failing index has taken the transaction with it before the statement `n`. -/
def Conn.Dropped (c : Conn) (n : ℕ) : Prop := ∃ j < n, 10 ≤ j ∧ c.Drops j

/-- The statement of `Init` that creates an index. -/
def Index.statement : Index → ℕ
  | .contribution_info_publisher_id_index => 10
  | .activity_info_publisher_id_index => 11
  | .recurring_donation_publisher_id_index => 12

/-- `Init` creates the index after it has lost its transaction: straight in the file, if the file
has the table. -/
def Conn.Autocommits (c : Conn) (i : Index) : Prop :=
  c.Spared 10 ∧ c.Dropped i.statement ∧ c.fails i.statement = none ∧ i.table ∈ c.file.tables

lemma Conn.dropped_succ {c : Conn} {n : ℕ} (hn : 10 ≤ n) :
    c.Dropped (n + 1) ↔ c.Dropped n ∨ c.Drops n := by
  constructor
  · rintro ⟨j, hj, h10, hdrops⟩
    obtain rfl | hlt : j = n ∨ j < n := by omega
    · exact .inr hdrops
    · exact .inl ⟨j, hlt, h10, hdrops⟩
  · rintro (⟨j, hj, h10, hdrops⟩ | hdrops)
    · exact ⟨j, by omega, h10, hdrops⟩
    · exact ⟨n, by omega, hn, hdrops⟩

lemma Conn.Dropped.mono {c : Conn} {m n : ℕ} (h : c.Dropped m) (hmn : m ≤ n) : c.Dropped n := by
  obtain ⟨j, hj, h10, hdrops⟩ := h
  exact ⟨j, by omega, h10, hdrops⟩

/-- The creation of an index in the transaction. -/
lemma createIndex_inTxn {f : Db} {i : Index} {h : Head} {c : Conn}
    (ht : read ⟨h, ""⟩ = .accepts (.createIndex i)) (hs : Stamped f allTables c) :
    ∃ b c', createTable E h c = (.ok b, c') ∧ c.After 1 c' ∧
      (c.Drops 0 → c'.file = f ∧ c'.txn = none) ∧ (¬ c.Drops 0 → Stamped f allTables c') := by
  obtain ⟨hfile, db, hdb, htables, hversions⟩ := hs
  cases hc : c.fails 0 with
  | none =>
      have hneeds : ∀ t ∈ (Statement.createIndex i).needs, t ∈ db.tables := fun t _ =>
        htables t (by cases t <;> decide)
      have happly := apply_inTxn (E := E) (c := c.next) (b := []) (by simp) hdb hneeds rfl
      exact ⟨true, _, succeeds_ok (execSql_ok ht happly hc), ⟨fun _ => rfl, fun _ => rfl⟩,
        fun hdrops => absurd hc hdrops.1, fun _ => ⟨hfile, _, rfl, htables, hversions⟩⟩
  | some k =>
      refine ⟨false, c.failed, succeeds_error (execSql_fails hc), .failed c, fun hdrops => ?_,
        fun hdrops => ?_⟩
      · rw [Conn.failed_of_drops hdrops]
        exact ⟨hfile, rfl⟩
      · rw [Conn.failed_of_not_drops hdrops]
        exact ⟨hfile, db, hdb, htables, hversions⟩

/-- The creation of an index outside a transaction. -/
lemma createIndex_auto {i : Index} {h : Head} {c : Conn}
    (ht : read ⟨h, ""⟩ = .accepts (.createIndex i)) (htxn : c.txn = none) :
    ∃ b c', createTable E h c = (.ok b, c') ∧ c.After 1 c' ∧ c'.txn = none ∧
      c'.file = if c.fails 0 = none ∧ i.table ∈ c.file.tables
        then { c.file with indices := insert i c.file.indices } else c.file := by
  have hfailed := Conn.failed_of_txn htxn
  cases hc : c.fails 0 with
  | some k =>
      have hrun := succeeds_error (execSql_fails (E := E) (h := h) (b := []) hc)
      exact ⟨false, c.failed, hrun, .failed c, by rw [hfailed]; exact htxn, by simp⟩
  | none =>
      by_cases htable : i.table ∈ c.file.tables
      · have happly := apply_auto (E := E) (c := c.next) (s := .createIndex i) (b := []) (by simp)
          htxn (by simpa [Statement.needs] using htable) rfl
        refine ⟨true, _, succeeds_ok (execSql_ok ht happly hc), ⟨fun _ => rfl, fun _ => rfl⟩, htxn,
          ?_⟩
        rw [if_pos ⟨rfl, htable⟩]
        rfl
      · have happly : E.apply (.createIndex i) [] c.next = none := by
          have hvisible : c.next.visible = c.file := by simp [Conn.visible, htxn]
          simp [Sqlite.apply, Statement.needs, hvisible, htable]
        have hrun := succeeds_error (DbM.bind_error (f := fun _ => (return () : DbM Unit))
          (runSql_inapplicable ht happly))
        exact ⟨false, c.failed, hrun, .failed c, by rw [hfailed]; exact htxn, by simp [htable]⟩

/-- `c` has lost the transaction of `c₀`: the file is the one of `c₀` with the indices that have
been created since, before the statement `n`. -/
structure Conn.Lost (c₀ : Conn) (n : ℕ) (c : Conn) : Prop where
  txn : c.txn = none
  rest : c.file = { c₀.file with indices := c.file.indices }
  indices : ∀ i, i ∈ c.file.indices ↔
    i ∈ c₀.file.indices ∨ (i.statement < n ∧ c₀.Autocommits i)

/-- Before the statement `n`, which creates an index or comes after them: in the transaction, or
without it. -/
structure Indexing (c₀ : Conn) (n : ℕ) (c : Conn) : Prop where
  after : c₀.After n c
  keeps : ¬ c₀.Dropped n → Stamped c₀.file allTables c
  loses : c₀.Dropped n → c₀.Lost n c

/-- **One index**: the transaction may go, and without it the index may reach the file. -/
lemma Indexing.step {c₀ c : Conn} {i : Index} {h : Head}
    (ht : read ⟨h, ""⟩ = .accepts (.createIndex i)) (hspared : c₀.Spared 10)
    (hphase : Indexing c₀ i.statement c) :
    ∃ b c', createTable E h c = (.ok b, c') ∧ Indexing c₀ (i.statement + 1) c' := by
  have h10 : 10 ≤ i.statement := by cases i <;> decide
  have hdrops : c.Drops 0 ↔ c₀.Drops i.statement := by rw [hphase.after.drops, Nat.zero_add]
  have hinj : ∀ i' : Index, i'.statement < i.statement + 1 ↔ i'.statement < i.statement ∨ i' = i :=
    fun i' => by cases i <;> cases i' <;> decide
  by_cases hlost : c₀.Dropped i.statement
  · have hleft := hphase.loses hlost
    obtain ⟨b, c', hrun, hafter, htxn, hfile⟩ := createIndex_auto (E := E) ht hleft.txn
    have hfails : c.fails 0 = c₀.fails i.statement := by rw [hphase.after.fails, Nat.zero_add]
    have htables : c.file.tables = c₀.file.tables := by rw [hleft.rest]
    have hcommits : c₀.Autocommits i ↔ c.fails 0 = none ∧ i.table ∈ c.file.tables := by
      rw [hfails, htables, Conn.Autocommits]
      exact ⟨fun h => h.2.2, fun h => ⟨hspared, hlost, h⟩⟩
    refine ⟨b, c', hrun, hphase.after.trans hafter, fun hkeeps => ?_, fun _ => ⟨htxn, ?_, ?_⟩⟩
    · exact absurd (hlost.mono (Nat.le_succ _)) hkeeps
    · rw [hfile]
      split
      · rw [hleft.rest]
      · exact hleft.rest
    · intro i'
      rw [hfile, hinj]
      split
      · next hi =>
        have hi := hcommits.mpr hi
        rw [Finset.mem_insert, hleft.indices]
        grind
      · next hi =>
        have hi := mt hcommits.mp hi
        rw [hleft.indices]
        grind
  · have hstamped := hphase.keeps hlost
    obtain ⟨b, c', hrun, hafter, hgoes, hstays⟩ := createIndex_inTxn (E := E) ht hstamped
    refine ⟨b, c', hrun, hphase.after.trans hafter, fun hkeeps => hstays fun hd => ?_,
      fun hd => ?_⟩
    · exact hkeeps ((Conn.dropped_succ h10).mpr (.inr (hdrops.mp hd)))
    · have hd' : c.Drops 0 := hdrops.mpr (((Conn.dropped_succ h10).mp hd).resolve_left hlost)
      obtain ⟨hfile, htxn⟩ := hgoes hd'
      refine ⟨htxn, by rw [hfile], fun i' => ?_⟩
      rw [hfile]
      refine ⟨.inl, fun hi' => hi'.elim id fun ⟨hlt, _, hdropped, _⟩ => ?_⟩
      exact absurd (hdropped.mono (by omega)) hlost

/-- **The three indices.** -/
lemma afterBegin_indices {c₀ c : Conn} (hafter : c₀.After 2 c) (hspared : c₀.Spared 10)
    (h : InTxn c₀.file c) :
    ∃ c', Indexing c₀ 13 c' ∧ afterBegin E c = commitIfCurrent E c' := by
  have htables : c.Spared 8 := (hafter.spared (k := 8)).mp hspared |>.2
  obtain ⟨c₁, hc₁, hs₁, hafter₁⟩ := (createAll_passes (E := E) h).1 htables
  have hphase₁ : Indexing c₀ 10 c₁ := by
    refine ⟨hafter.trans hafter₁, fun _ => hs₁, fun ⟨j, hj, h10, _⟩ => ?_⟩
    omega
  obtain ⟨b₂, c₂, hc₂, hphase₂⟩ := hphase₁.step (E := E)
    (i := .contribution_info_publisher_id_index) (read_alone .createContributionInfoIndex) hspared
  obtain ⟨b₃, c₃, hc₃, hphase₃⟩ := hphase₂.step (E := E)
    (i := .activity_info_publisher_id_index) (read_alone .createActivityInfoIndex) hspared
  obtain ⟨b₄, c₄, hc₄, hphase₄⟩ := hphase₃.step (E := E)
    (i := .recurring_donation_publisher_id_index) (read_alone .createRecurringDonationIndex) hspared
  exact ⟨c₄, hphase₄, (DbM.bind_ok hc₁).trans ((DbM.bind_ok hc₂).trans ((DbM.bind_ok hc₃).trans
    (DbM.bind_ok hc₄)))⟩

/-- A failure before the indices: `Init` returns `false` from within its `try` block. -/
lemma afterBegin_tables {c₀ c : Conn} (hafter : c₀.After 2 c) (h2 : c₀.Spared 2)
    (hspared : ¬ c₀.Spared 10) (h : InTxn c₀.file c) :
    ∃ c', afterBegin E c = (.ok false, c') ∧ c'.file = c₀.file ∧
      (c'.txn = none ↔ c₀.DropsIn 10) := by
  have htables : ¬ c.Spared 8 := fun h8 => hspared (hafter.spared.mpr ⟨h2, h8⟩)
  obtain ⟨c', hc', hfile, htxn⟩ := (createAll_passes (E := E) h).2 htables
  exact ⟨c', DbM.bind_ok hc', hfile, htxn.trans (hafter.dropsIn h2).symm⟩

/-! ### The commit -/

/-- **The end in the transaction**: two versions and the commit. -/
lemma commitIfCurrent_inTxn {f : Db} {c : Conn} (hs : Stamped f allTables c) :
    (¬ c.Spared 2 → ∃ c', commitIfCurrent E c = (.ok false, c') ∧ c'.file = f ∧
      (c'.txn = none ↔ c.DropsIn 2)) ∧
    (c.Spared 2 → c.fails 2 ≠ none → ∃ c', commitIfCurrent E c = (.error .sqlite_exception, c') ∧
      c.After 3 c' ∧ c'.file = f ∧ (c.Drops 2 → c'.txn = none) ∧
      (¬ c.Drops 2 → InTxn f c')) ∧
    (c.Spared 2 → c.fails 2 = none → ∃ c', commitIfCurrent E c = (.ok true, c') ∧
      c'.initialized_ = true ∧ c'.txn = none ∧ Opened c'.file) := by
  obtain ⟨hyes, hno⟩ := ensureCurrentVersion_passes (E := E) hs (by decide)
  refine ⟨fun h2 => ?_, fun h2 hfails => ?_, fun h2 hc => ?_⟩
  · obtain ⟨c', hc', hfile, htxn⟩ := hno h2
    exact ⟨c', DbM.bind_ok hc', hfile, htxn⟩
  · obtain ⟨c₁, hc₁, hs₁, hafter⟩ := hyes h2
    rw [← Nat.zero_add 2, ← hafter.fails] at hfails
    obtain ⟨k, hk⟩ := Option.ne_none_iff_exists'.mp hfails
    have hdrops : c₁.Drops 0 ↔ c.Drops 2 := hafter.drops 0
    have hcommit := DbM.bind_error (f := fun _ => (do
      DbM.modify fun c => { c with initialized_ := true }
      return true : DbM Bool)) (execSql_fails (E := E) (h := .commit) (b := []) hk)
    refine ⟨c₁.failed, (DbM.bind_ok hc₁).trans hcommit, hafter.trans (.failed c₁),
      by rw [Conn.failed_file, hs₁.file], fun hd => ?_, fun hd => ?_⟩
    · rw [Conn.failed_of_drops (hdrops.mpr hd)]
    · rw [Conn.failed_of_not_drops (mt hdrops.mp hd)]
      exact hs₁.inTxn.next
  · obtain ⟨c₁, hc₁, hs₁, hafter⟩ := hyes h2
    rw [← Nat.zero_add 2, ← hafter.fails] at hc
    obtain ⟨c₂, hc₂, htxn, hopened⟩ := commit_ok (E := E) hs₁ hc
    exact ⟨{ c₂ with initialized_ := true }, (DbM.bind_ok hc₁).trans (DbM.bind_ok hc₂), rfl, htxn,
      hopened⟩

/-- **The end without the transaction**: there is nothing to commit. -/
lemma commitIfCurrent_auto {c : Conn} (htxn : c.txn = none) :
    ∃ c', c'.file = c.file ∧ c'.txn = none ∧ commitIfCurrent E c =
      (if (c.fails 0 = none ∧ c.fails 1 = none) ∧ c.file.current = true
        then .error .sqlite_exception else .ok false, c') := by
  obtain ⟨c₁, hc₁, hfile, htxn₁⟩ := ensureCurrentVersion_auto (E := E) htxn
  by_cases hcurrent : (c.fails 0 = none ∧ c.fails 1 = none) ∧ c.file.current = true
  · rw [if_pos hcurrent]
    have htrue : (decide (c.fails 0 = none ∧ c.fails 1 = none) && c.file.current) = true := by
      simpa using hcurrent
    rw [htrue] at hc₁
    have hcommit : execSql E .commit [] c₁ = (.error .sqlite_exception, c₁.failed) :=
      DbM.bind_error (runSql_inapplicable (read_alone .commit) (by simp [Sqlite.apply, htxn₁]))
    refine ⟨c₁.failed, by rw [Conn.failed_file, hfile], ?_, ?_⟩
    · rw [Conn.failed_of_txn htxn₁]
      exact htxn₁
    · exact (DbM.bind_ok hc₁).trans (DbM.bind_error hcommit)
  · rw [if_neg hcurrent]
    have hfalse : (decide (c.fails 0 = none ∧ c.fails 1 = none) && c.file.current) = false := by
      simpa using hcurrent
    rw [hfalse] at hc₁
    exact ⟨c₁, hfile, htxn₁, DbM.bind_ok hc₁⟩

/-! ### What `Init` comes to -/

/-- The open and the begin. -/
lemma beginTransaction_spec (c : Conn) :
    (c.Spared 2 → ∃ c', beginTransaction E c = (.ok (), c') ∧ InTxn c.file c' ∧ c.After 2 c') ∧
    (¬ c.Spared 2 →
      ∃ c', beginTransaction E c = (.error .sqlite_exception, c') ∧ c'.file = c.file) := by
  cases h0 : c.fails 0 with
  | some k =>
      have hopen : openDatabase c = (.error .sqlite_exception, c.next) := by
        simp [openDatabase, h0]
      refine ⟨fun hc => ?_, fun _ => ⟨c.next, DbM.bind_error hopen, rfl⟩⟩
      rw [hc 0 (by omega)] at h0
      cases h0
  | none =>
      have hopen : openDatabase c = (.ok (), { c.next with txn := none }) := by
        simp [openDatabase, h0]
      cases h1 : c.fails 1 with
      | some k =>
          have hbegin := execSql_fails (E := E) (h := .begin) (b := [])
            (c := { c.next with txn := none }) h1
          refine ⟨fun hc => ?_, fun _ => ⟨_, (DbM.bind_ok hopen).trans hbegin, Conn.failed_file _⟩⟩
          rw [hc 1 (by omega)] at h1
          cases h1
      | none =>
          have hbegin := execSql_ok (E := E) (c := { c.next with txn := none }) (b := [])
            (r := .none) (read_alone .begin) rfl h1
          refine ⟨fun _ => ⟨_, (DbM.bind_ok hopen).trans hbegin, ⟨rfl, c.file, rfl⟩,
            fun _ => rfl, fun _ => rfl⟩, fun hc => absurd (fun i hi => ?_) hc⟩
          obtain rfl | rfl : i = 0 ∨ i = 1 := by omega
          · exact h0
          · exact h1

/-- The handler of `Init` in an open transaction. -/
lemma initHandler_inTxn {f : Db} {c : Conn} (h : InTxn f c) :
    (c.fails 0 = none →
      ∃ c', initHandler E true c = (.ok false, c') ∧ c'.file = f ∧ c'.txn = none) ∧
    (c.fails 0 ≠ none → ∃ c', initHandler E true c = (.error .sqlite_exception, c')) := by
  obtain ⟨hfile, db, hdb⟩ := h
  have hset : DbM.modify (fun c => { c with initialized_ := false }) c
      = (.ok (), { c with initialized_ := false }) := rfl
  constructor
  · intro hc
    have happly : E.apply .rollback [] ({ c with initialized_ := false } : Conn).next
        = some ({ ({ c with initialized_ := false } : Conn).next with txn := none }, .none) := by
      simp [Sqlite.apply, Conn.next, hdb]
    have hroll := execSql_ok (E := E) (c := { c with initialized_ := false })
      (read_alone .rollback) happly hc
    exact ⟨_, (DbM.bind_ok hset).trans (DbM.bind_ok hroll), hfile, rfl⟩
  · intro hc
    obtain ⟨k, hk⟩ := Option.ne_none_iff_exists'.mp hc
    have hroll := execSql_fails (E := E) (h := .rollback) (b := [])
      (c := { c with initialized_ := false }) hk
    exact ⟨_, (DbM.bind_ok hset).trans (DbM.bind_error hroll)⟩

/-- The handler of `Init` without the transaction: there is nothing to roll back, and it throws. -/
lemma initHandler_auto {c : Conn} (htxn : c.txn = none) :
    ∃ c', initHandler E true c = (.error .sqlite_exception, c') := by
  have hset : DbM.modify (fun c => { c with initialized_ := false }) c
      = (.ok (), { c with initialized_ := false }) := rfl
  have happly : E.apply .rollback [] ({ c with initialized_ := false } : Conn).next = none := by
    simp [Sqlite.apply, Conn.next, htxn]
  have hroll := runSql_inapplicable (E := E) (b := []) (read_alone .rollback) happly
  exact ⟨_, (DbM.bind_ok hset).trans (DbM.bind_error (DbM.bind_error hroll))⟩

/-- The statements that read the versions do not fail. -/
def Conn.VersionsRead (c : Conn) : Prop := c.fails 13 = none ∧ c.fails 14 = none

/-- `Init` comes as far as the commit: no statement fails on which the way there depends, and if
the transaction has been lost by then, the file itself has the versions that are asked for. -/
def Conn.ReachesCommit (c : Conn) : Prop :=
  c.Spared 10 ∧ c.VersionsRead ∧ (c.Dropped 13 → c.file.current = true)

/-- `Init` returns `false`: it does not come to the commit, or the commit fails and its failure
leaves a transaction that can be rolled back. -/
def Conn.Refuses (c : Conn) : Prop :=
  ¬ c.ReachesCommit ∨
    (¬ c.Dropped 13 ∧ c.fails 15 ≠ none ∧ ¬ c.Drops 15 ∧ c.fails 16 = none)

/-- `Init` returns from its `try` block past the handler, with the transaction still open: of the
statements that decide, the first that fails leaves it open. -/
def Conn.Strands (c : Conn) : Prop :=
  if c.Spared 10 then
    ¬ c.Dropped 13 ∧ ¬ c.VersionsRead ∧ ¬ c.Drops 13 ∧ (c.fails 13 = none → ¬ c.Drops 14)
  else ¬ c.DropsIn 10

/-- The version reads, seen from the statement before them. -/
lemma Indexing.spared_two {c₀ c : Conn} (h : Indexing c₀ 13 c) : c.Spared 2 ↔ c₀.VersionsRead := by
  have h0 : c.fails 0 = c₀.fails 13 := h.after.fails 0
  have h1 : c.fails 1 = c₀.fails 14 := h.after.fails 1
  rw [Conn.VersionsRead, ← h0, ← h1]
  refine ⟨fun hc => ⟨hc 0 (by omega), hc 1 (by omega)⟩, fun hc i hi => ?_⟩
  obtain rfl | rfl : i = 0 ∨ i = 1 := by omega
  · exact hc.1
  · exact hc.2

lemma Indexing.dropsIn_two {c₀ c : Conn} (h : Indexing c₀ 13 c) :
    c.DropsIn 2 ↔ c₀.Drops 13 ∨ (c₀.fails 13 = none ∧ c₀.Drops 14) := by
  have h0 : c.fails 0 = c₀.fails 13 := h.after.fails 0
  rw [← h0, ← h.after.drops 0, ← h.after.drops 1]
  constructor
  · rintro ⟨i, hi, hspared, hdrops⟩
    obtain rfl | rfl : i = 0 ∨ i = 1 := by omega
    · exact .inl hdrops
    · exact .inr ⟨hspared 0 (by omega), hdrops⟩
  · rintro (hdrops | ⟨hfails, hdrops⟩)
    · exact ⟨0, by omega, fun i hi => by omega, hdrops⟩
    · exact ⟨1, by omega, Conn.spared_one.mpr hfails, hdrops⟩

/-- What is in the file when the transaction has been lost. -/
lemma Conn.Lost.file_iff {c₀ c : Conn} (h : c₀.Lost 13 c) :
    c.file = c₀.file ↔ ∀ i, c₀.Autocommits i → i ∈ c₀.file.indices := by
  have hlast : ∀ i : Index, i.statement < 13 := fun i => by cases i <;> decide
  constructor
  · intro hfile i hi
    rw [← hfile, h.indices]
    exact .inr ⟨hlast i, hi⟩
  · intro hall
    have hindices : c.file.indices = c₀.file.indices := by
      ext i
      rw [h.indices]
      exact ⟨fun hi => hi.elim id fun hi => hall i hi.2, .inl⟩
    rw [h.rest, hindices]

/-- In the transaction no index goes into the file. -/
lemma Conn.not_autocommits {c : Conn} (h : ¬ c.Dropped 13) (i : Index) : ¬ c.Autocommits i :=
  fun hi => h (hi.2.1.mono (by cases i <;> decide))

/-- In the transaction, the version read that fails decides. -/
lemma Conn.not_strands_iff {c : Conn} (hspared : c.Spared 10) (hlost : ¬ c.Dropped 13)
    (hread : ¬ c.VersionsRead) :
    ¬ c.Strands ↔ c.Drops 13 ∨ (c.fails 13 = none ∧ c.Drops 14) := by
  rw [Strands, if_pos hspared]
  constructor
  · intro h
    by_contra hdrops
    rw [not_or, not_and] at hdrops
    exact h ⟨hlost, hread, hdrops.1, hdrops.2⟩
  · rintro (h13 | ⟨h13, h14⟩) ⟨-, -, h13', h14'⟩
    · exact h13' h13
    · exact h14' h13 h14

/-- The transaction is lost: the end of `Init` can only return `false`. -/
lemma commitIfCurrent_refuses_lost {c₀ c : Conn} (hspared : c₀.Spared 10)
    (hphase : Indexing c₀ 13 c) (hlost : c₀.Dropped 13) (hrefuses : c₀.Refuses) :
    ∃ c', commitIfCurrent E c = (.ok false, c') ∧ c'.file = c.file ∧ c'.txn = none := by
  have hleft := hphase.loses hlost
  obtain ⟨c', hfile, htxn, hc'⟩ := commitIfCurrent_auto (E := E) hleft.txn
  have hnot : ¬ ((c.fails 0 = none ∧ c.fails 1 = none) ∧ c.file.current = true) := by
    rintro ⟨⟨h0, h1⟩, hcurrent⟩
    have h13 : c₀.fails 13 = none := (hphase.after.fails 0).symm.trans h0
    have h14 : c₀.fails 14 = none := (hphase.after.fails 1).symm.trans h1
    rw [hleft.rest] at hcurrent
    exact hrefuses.elim (fun hr => hr ⟨hspared, ⟨h13, h14⟩, fun _ => hcurrent⟩)
      fun hr => hr.1 hlost
  rw [if_neg hnot] at hc'
  exact ⟨c', hc', hfile, htxn⟩

/-- The transaction is kept: a version cannot be read, or the commit fails and is rolled back. -/
lemma afterBegin_refuses_kept {c₀ c c₁ : Conn} (h : c₀.initialized_ = false)
    (hbegin : beginTransaction E c₀ = (.ok (), c₁))
    (hafterBegin : afterBegin E c₁ = commitIfCurrent E c) (hspared : c₀.Spared 10)
    (hphase : Indexing c₀ 13 c) (hlost : ¬ c₀.Dropped 13) (hrefuses : c₀.Refuses) :
    ∃ c', init E c₀ = (.ok false, c') ∧ c'.file = c₀.file ∧ (c'.txn = none ↔ ¬ c₀.Strands) := by
  obtain ⟨hreads, hthrows, -⟩ := commitIfCurrent_inTxn (E := E) (hphase.keeps hlost)
  by_cases hread : c₀.VersionsRead
  · obtain ⟨-, h15, hdrops, h16⟩ := hrefuses.resolve_left
      (not_not_intro ⟨hspared, hread, fun hd => absurd hd hlost⟩)
    have hcommit : c.fails 2 ≠ none := by rwa [hphase.after.fails 2]
    obtain ⟨c₂, hc₂, hafter, -, -, hopen⟩ := hthrows (hphase.spared_two.mpr hread) hcommit
    have htxn₂ := hopen (mt (hphase.after.drops 2).mp hdrops)
    have hroll : c₂.fails 0 = none := ((hphase.after.trans hafter).fails 0).trans h16
    obtain ⟨c', hc', hfile, htxn⟩ := (initHandler_inTxn (E := E) htxn₂).1 hroll
    refine ⟨c', (init_of_throws h hbegin (hafterBegin.trans hc₂)).trans hc', hfile, ?_⟩
    rw [Conn.Strands, if_pos hspared]
    exact iff_of_true htxn fun hstrands => hstrands.2.1 hread
  · obtain ⟨c', hc', hfile, htxn⟩ := hreads (mt hphase.spared_two.mp hread)
    refine ⟨c', init_of_returns h hbegin (hafterBegin.trans hc'), hfile, ?_⟩
    rw [htxn, hphase.dropsIn_two, Conn.not_strands_iff hspared hlost hread]

/-- **`Init` refuses**: it returns `false`, with the file as it was but for the indices that it has
created in the file itself, and with the transaction open if it strands. -/
theorem init_refuses {c : Conn} (h : c.initialized_ = false) (h2 : c.Spared 2)
    (hrefuses : c.Refuses) :
    ∃ c', init E c = (.ok false, c') ∧
      (c'.file = c.file ↔ ∀ i, c.Autocommits i → i ∈ c.file.indices) ∧
      (c'.txn = none ↔ ¬ c.Strands) := by
  obtain ⟨c₁, hc₁, htxn₁, hafter₁⟩ := (beginTransaction_spec (E := E) c).1 h2
  by_cases hspared : c.Spared 10
  · obtain ⟨c₂, hphase, hc₂⟩ := afterBegin_indices (E := E) hafter₁ hspared htxn₁
    by_cases hlost : c.Dropped 13
    · obtain ⟨c', hc', hfile, htxn⟩ :=
        commitIfCurrent_refuses_lost (E := E) hspared hphase hlost hrefuses
      refine ⟨c', init_of_returns h hc₁ (hc₂.trans hc'), ?_, ?_⟩
      · rw [hfile, (hphase.loses hlost).file_iff]
      · rw [Conn.Strands, if_pos hspared]
        exact iff_of_true htxn fun hstrands => hstrands.1 hlost
    · obtain ⟨c', hc', hfile, htxn⟩ :=
        afterBegin_refuses_kept h hc₁ hc₂ hspared hphase hlost hrefuses
      exact ⟨c', hc', iff_of_true hfile fun i hi => absurd hi (Conn.not_autocommits hlost i), htxn⟩
  · obtain ⟨c', hc', hfile, htxn⟩ := afterBegin_tables (E := E) hafter₁ h2 hspared htxn₁
    refine ⟨c', init_of_returns h hc₁ hc', ?_, ?_⟩
    · exact iff_of_true hfile fun i hi => absurd hi.1 hspared
    · rw [Conn.Strands, if_neg hspared, not_not, htxn]

/-- **What `Init` comes to**, by the statements that fail: it returns `false`, or it throws out of
its handler, or it succeeds. -/
theorem init_spec {c : Conn} (h : c.initialized_ = false) :
    (c.Refuses → ∃ c', init E c = (.ok false, c') ∧
      (c'.file = c.file ↔ ∀ i, c.Autocommits i → i ∈ c.file.indices)) ∧
    (¬ c.Refuses → (c.Dropped 13 ∨ c.fails 15 ≠ none) →
      ∃ c', init E c = (.error .sqlite_exception, c')) ∧
    (¬ c.Refuses → ¬ c.Dropped 13 → c.fails 15 = none →
      ∃ c', init E c = (.ok true, c') ∧ c'.Ready ∧ Opened c'.file) := by
  by_cases h2 : c.Spared 2
  · refine ⟨fun hrefuses => ?_, fun hrefuses hthrow => ?_, fun hrefuses hlost h15 => ?_⟩
    · obtain ⟨c', hinit, hfile, -⟩ := init_refuses (E := E) h h2 hrefuses
      exact ⟨c', hinit, hfile⟩
    all_goals
      rw [Conn.Refuses, not_or, not_not] at hrefuses
      obtain ⟨⟨hspared, hread, hcurrent⟩, hroll⟩ := hrefuses
      obtain ⟨c₁, hc₁, htxn₁, hafter₁⟩ := (beginTransaction_spec (E := E) c).1 h2
      obtain ⟨c₂, hphase, hc₂⟩ := afterBegin_indices (E := E) hafter₁ hspared htxn₁
      have hread₂ := hphase.spared_two.mpr hread
    · by_cases hlost : c.Dropped 13
      · have hleft := hphase.loses hlost
        obtain ⟨c₃, -, htxn, hc₃⟩ := commitIfCurrent_auto (E := E) hleft.txn
        rw [if_pos ⟨⟨hread₂ 0 (by omega), hread₂ 1 (by omega)⟩,
          by rw [hleft.rest]; exact hcurrent hlost⟩] at hc₃
        obtain ⟨c', hc'⟩ := initHandler_auto (E := E) htxn
        exact ⟨c', (init_of_throws h hc₁ (hc₂.trans hc₃)).trans hc'⟩
      · have h15 := hthrow.resolve_left hlost
        have hcommit : c₂.fails 2 ≠ none := by rwa [hphase.after.fails 2]
        obtain ⟨c₃, hc₃, hafter₃, -, hgone, hopen⟩ :=
          (commitIfCurrent_inTxn (E := E) (hphase.keeps hlost)).2.1 hread₂ hcommit
        have hend : ∃ c', initHandler E true c₃ = (.error .sqlite_exception, c') := by
          by_cases hdrops : c.Drops 15
          · exact initHandler_auto (hgone ((hphase.after.drops 2).mpr hdrops))
          · have hfails : c₃.fails 0 ≠ none := by
              rw [(hphase.after.trans hafter₃).fails 0]
              exact fun h16 => hroll ⟨hlost, h15, hdrops, h16⟩
            exact (initHandler_inTxn (hopen (mt (hphase.after.drops 2).mp hdrops))).2 hfails
        obtain ⟨c', hc'⟩ := hend
        exact ⟨c', (init_of_throws h hc₁ (hc₂.trans hc₃)).trans hc'⟩
    · have hcommit : c₂.fails 2 = none := by rwa [hphase.after.fails 2]
      obtain ⟨c₃, hc₃, hinitialized, htxn, hopened⟩ :=
        (commitIfCurrent_inTxn (E := E) (hphase.keeps hlost)).2.2 hread₂ hcommit
      exact ⟨c₃, init_of_returns h hc₁ (hc₂.trans hc₃), ⟨hinitialized, htxn, hopened.1⟩, hopened⟩
  · obtain ⟨c₁, hc₁, hfile⟩ := (beginTransaction_spec (E := E) c).2 h2
    have hspared : ¬ c.Spared 10 := fun hc => h2 (hc.mono (by omega))
    have hrefuses : c.Refuses := .inl fun hr => hspared hr.1
    refine ⟨fun _ => ⟨{ c₁ with initialized_ := false }, ?_, ?_⟩,
      fun hr => absurd hrefuses hr, fun hr => absurd hrefuses hr⟩
    · rw [init_of_begin_error h hc₁]
      rfl
    · exact iff_of_true hfile fun i hi => absurd hi.1 hspared

end RewardsDriver.Store
