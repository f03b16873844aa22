import RewardsDriver.Store.Init

/-!
What `Init` does to a connection whatever statements fail: it keeps the rows, and sets the flag
only when it succeeds.

An `Init` that gives up may leave its transaction open, and the next operation opens the file
again. So a connection that is not initialised may still see what it has put into its transaction.

* `Db.contents`: the rows of the five tables that hold data.
* `Opening`, `Opens`: what a computation may do to a connection on the way through `Init`;
  `opens_bind`, `opens_tryCatch`: **how such computations compose**.
* `initializing_init`: `Init` itself.
-/

namespace RewardsDriver.Store

open RewardsDriver.Sql

/-! ### Rows and transactions -/

/-- The rows of the tables that hold data: not what `Init` writes. -/
def Db.contents (db : Db) : Db := { db with tables := ∅, indices := ∅, «meta» := .empty }

/-- The file and the open transaction hold the rows `f`. -/
structure Conn.Carries (f : Db) (c : Conn) : Prop where
  file : c.file.contents = f
  txn : ∀ db, c.txn = some db → db.contents = f

lemma Conn.Carries.visible {f : Db} {c : Conn} (h : c.Carries f) : c.visible.contents = f := by
  cases htxn : c.txn with
  | none => simpa [Conn.visible, htxn] using h.file
  | some db => simpa [Conn.visible, htxn] using h.txn db htxn

/-- What `Init` may do to a connection before it has committed. -/
structure Opening (c c' : Conn) : Prop where
  initialized : c'.initialized_ = c.initialized_
  carries : ∀ f, c.Carries f → c'.Carries f
  quiet : c.Quiet → c'.Quiet

lemma Opening.refl (c : Conn) : Opening c c := ⟨rfl, fun _ h => h, fun h => h⟩

lemma Opening.trans {c c' c'' : Conn} (h : Opening c c') (h' : Opening c' c'') : Opening c c'' :=
  ⟨h'.initialized.trans h.initialized, fun f hf => h'.carries f (h.carries f hf),
    fun hq => h'.quiet (h.quiet hq)⟩

lemma Opening.next (c : Conn) : Opening c c.next :=
  ⟨rfl, fun _ h => ⟨h.file, h.txn⟩, Conn.Quiet.next⟩

/-- A failure may take the transaction with it. -/
lemma Opening.failed (c : Conn) : Opening c c.failed := by
  by_cases h : c.Drops 0
  · rw [Conn.failed_of_drops h]
    exact ⟨rfl, fun _ hf => ⟨hf.file, fun db hdb => by cases hdb⟩, Conn.Quiet.next⟩
  · rw [Conn.failed_of_not_drops h]
    exact Opening.next c

/-- The statements of `Init`. -/
def Statement.Opens : Statement → Prop
  | .begin | .commit | .rollback | .createTable _ | .createIndex _ | .replaceMeta | .readMeta =>
      True
  | _ => False

variable {E : Sqlite}

/-- The statements of `Init` that change no transaction leave the rows. -/
lemma effect_contents {s : Statement} {b : List Value} {db db' : Db} {rows : Rows} (hs : s.Opens)
    (h : E.effect s b db = some (db', rows)) : db'.contents = db.contents := by
  unfold Sqlite.effect at h
  split at h
  all_goals first
    | exact hs.elim
    | (simp only [Option.some.injEq, Prod.mk.injEq] at h; obtain ⟨rfl, -⟩ := h; rfl)
    | cases h

/-- A statement of `Init`. -/
lemma apply_opening {s : Statement} {b : List Value} {c c' : Conn} {rows : Rows} (hs : s.Opens)
    (h : E.apply s b c = some (c', rows)) : Opening c c' := by
  have hother : (∃ db rows', E.effect s b c.visible = some (db, rows') ∧ c' = c.write db) →
      Opening c c' := by
    rintro ⟨db, rows', heffect, rfl⟩
    have hdb := effect_contents hs heffect
    cases htxn : c.txn with
    | none =>
        refine ⟨by simp [Conn.write, htxn], fun f hf => ?_, by simp [Conn.write, htxn, Conn.Quiet]⟩
        simp only [Conn.write, htxn]
        exact ⟨hdb.trans hf.visible, fun db hdb => by simp at hdb⟩
    | some db₀ =>
        refine ⟨by simp [Conn.write, htxn], fun f hf => ?_, by simp [Conn.write, htxn, Conn.Quiet]⟩
        simp only [Conn.write, htxn]
        refine ⟨hf.file, fun db' hdb' => ?_⟩
        obtain rfl : db = db' := Option.some.inj hdb'
        exact hdb.trans hf.visible
  cases s with
  | begin =>
      simp only [Sqlite.apply] at h
      split at h
      · cases h
        refine ⟨rfl, fun f hf => ⟨hf.file, fun db hdb => ?_⟩, fun hq => hq⟩
        obtain rfl : c.file = db := Option.some.inj hdb
        exact hf.file
      · cases h
  | commit =>
      simp only [Sqlite.apply, Option.map_eq_some_iff, Prod.mk.injEq] at h
      obtain ⟨db, hdb, rfl, -⟩ := h
      exact ⟨rfl, fun f hf => ⟨hf.txn db hdb, fun db' hdb' => by cases hdb'⟩, fun hq => hq⟩
  | rollback =>
      simp only [Sqlite.apply, Option.map_eq_some_iff, Prod.mk.injEq] at h
      obtain ⟨db, hdb, rfl, -⟩ := h
      exact ⟨rfl, fun f hf => ⟨hf.file, fun db' hdb' => by cases hdb'⟩, fun hq => hq⟩
  | createTable | createIndex | replaceMeta | readMeta =>
      refine hother ?_
      simp only [Sqlite.apply] at h
      split at h
      · obtain ⟨⟨db, rows'⟩, heffect, hpair⟩ := Option.map_eq_some_iff.mp h
        rw [Prod.mk.injEq] at hpair
        exact ⟨db, rows', heffect, hpair.1.symm⟩
      · cases h
  | _ => exact hs.elim

/-! ### Computations -/

/-- A computation that does to every connection what `Init` may do. -/
def Opens {α : Type} (x : DbM α) : Prop := ∀ c, Opening c (x c).2

variable {α β : Type}

lemma opens_pure (a : α) : Opens (pure a : DbM α) := Opening.refl

lemma opens_throw : Opens (DbM.throw : DbM α) := Opening.refl

/-- **One after the other.** -/
lemma opens_bind {x : DbM α} {f : α → DbM β} (hx : Opens x) (hf : ∀ a, Opens (f a)) :
    Opens (x >>= f) := by
  intro c
  have hstep := hx c
  cases hrun : x c with
  | mk r c' =>
      rw [hrun] at hstep
      cases r with
      | ok a =>
          rw [DbM.bind_ok hrun]
          exact hstep.trans (hf a c')
      | error e =>
          rw [DbM.bind_error hrun]
          exact hstep

/-- **With a handler.** -/
lemma opens_tryCatch {x handler : DbM α} (hx : Opens x) (hhandler : Opens handler) :
    Opens (DbM.tryCatch x handler) := by
  intro c
  have hstep := hx c
  cases hrun : x c with
  | mk r c' =>
      rw [hrun] at hstep
      cases r with
      | ok a =>
          rw [DbM.tryCatch_ok hrun]
          exact hstep
      | error e =>
          rw [DbM.tryCatch_error hrun]
          exact hstep.trans (hhandler c')

/-- The text of a statement of `Init`. -/
lemma opens_runSql {h : Head} {s : Statement} (ht : read ⟨h, ""⟩ = .accepts s) (hs : s.Opens)
    (b : List Value) : Opens (runSql E ⟨h, ""⟩ b) := by
  refine opens_bind (fun c => ?_) fun r => ?_
  · rw [stepSql, E.accepts _ s ht, Option.bind_some]
    split
    · exact Opening.failed c
    · next c' rows happly =>
      cases c.fails 0 with
      | none => exact (Opening.next c).trans (apply_opening hs happly)
      | some k => exact Opening.failed c
  · obtain ⟨rows, done⟩ := r
    cases done with
    | true => exact opens_pure rows
    | false => exact opens_throw

lemma opens_execSql {h : Head} {s : Statement} (ht : read ⟨h, ""⟩ = .accepts s) (hs : s.Opens)
    (b : List Value) : Opens (execSql E h b) :=
  opens_bind (opens_runSql ht hs b) fun _ => opens_pure ()

lemma opens_succeeds {x : DbM Unit} (hx : Opens x) : Opens (succeeds x) :=
  opens_tryCatch (opens_bind hx fun _ => opens_pure true) (opens_pure false)

lemma opens_metaTableInit : Opens (metaTableInit E) :=
  opens_succeeds (opens_bind (opens_execSql (read_alone .createMeta) trivial _) fun _ =>
    opens_bind (opens_execSql (read_alone .insertMeta) trivial _) fun _ =>
      opens_execSql (read_alone .insertMeta) trivial _)

lemma opens_createTable {h : Head} {s : Statement} (ht : read ⟨h, ""⟩ = .accepts s)
    (hs : s.Opens) : Opens (createTable E h) :=
  opens_succeeds (opens_execSql ht hs [])

lemma opens_allOf {xs : List (DbM Bool)} (h : ∀ x ∈ xs, Opens x) : Opens (allOf xs) := by
  induction xs with
  | nil => exact opens_pure true
  | cons x xs ih =>
      refine opens_bind (h x List.mem_cons_self) fun created => ?_
      cases created with
      | true => exact ih fun y hy => h y (List.mem_cons_of_mem x hy)
      | false => exact opens_pure false

lemma opens_createAll : Opens (allOf (createAll E)) := by
  refine opens_allOf fun x hx => ?_
  simp only [createAll, List.mem_cons, List.not_mem_nil, or_false] at hx
  obtain rfl | rfl | rfl | rfl | rfl | rfl := hx
  · exact opens_metaTableInit
  · exact opens_createTable (read_alone .createPublisherInfo) trivial
  · exact opens_createTable (read_alone .createContributionInfo) trivial
  · exact opens_createTable (read_alone .createActivityInfo) trivial
  · exact opens_createTable (read_alone .createMediaPublisherInfo) trivial
  · exact opens_createTable (read_alone .createRecurringDonation) trivial

lemma opens_readVersion (key : String) : Opens (readVersion E key) := by
  refine opens_bind (opens_runSql (read_alone .selectMeta) trivial _) fun rows => ?_
  split
  · exact opens_pure _
  · exact opens_throw

lemma opens_ensureCurrentVersion : Opens (ensureCurrentVersion E) :=
  opens_tryCatch (opens_bind (opens_readVersion _) fun _ =>
      opens_bind (opens_readVersion _) fun _ =>
    opens_pure _) (opens_pure false)

lemma opens_openDatabase : Opens openDatabase := by
  intro c
  cases hc : c.fails 0 with
  | none =>
      simp only [openDatabase, hc]
      exact ⟨rfl, fun f hf => ⟨hf.file, fun db hdb => by cases hdb⟩, Conn.Quiet.next⟩
  | some k =>
      simp only [openDatabase, hc]
      exact Opening.next c

lemma opens_beginTransaction : Opens (beginTransaction E) :=
  opens_bind opens_openDatabase fun _ => opens_execSql (read_alone .begin) trivial []

/-! ### `Init` -/

/-- What `Init` may do to a connection, with what it returns or throws. -/
structure Initializing (c : Conn) (r : Except SqlException Bool) (c' : Conn) : Prop where
  carries : ∀ f, c.Carries f → c'.Carries f
  quiet : c.Quiet → c'.Quiet
  initialized : r ≠ .ok true → c'.initialized_ = c.initialized_

lemma Opening.initializing {c c' : Conn} (h : Opening c c') (r : Except SqlException Bool) :
    Initializing c r c' := ⟨h.carries, h.quiet, fun _ => h.initialized⟩

lemma Opening.andThen {c c' c'' : Conn} {r : Except SqlException Bool} (h : Opening c c')
    (h' : Initializing c' r c'') : Initializing c r c'' :=
  ⟨fun f hf => h'.carries f (h.carries f hf), fun hq => h'.quiet (h.quiet hq),
    fun hr => (h'.initialized hr).trans h.initialized⟩

/-- A computation that `Init` ends with. -/
def Initializes (x : DbM Bool) : Prop := ∀ c, Initializing c (x c).1 (x c).2

lemma initializes_bind {x : DbM α} {f : α → DbM Bool} (hx : Opens x)
    (hf : ∀ a, Initializes (f a)) : Initializes (x >>= f) := by
  intro c
  have hstep := hx c
  cases hrun : x c with
  | mk r c' =>
      rw [hrun] at hstep
      cases r with
      | ok a =>
          rw [DbM.bind_ok hrun]
          exact hstep.andThen (hf a c')
      | error e =>
          rw [DbM.bind_error hrun]
          exact hstep.initializing _

lemma initializes_commitIfCurrent : Initializes (commitIfCurrent E) := by
  refine initializes_bind opens_ensureCurrentVersion fun version_status => ?_
  cases version_status with
  | false => exact fun c => (opens_pure false c).initializing _
  | true =>
      refine initializes_bind (opens_execSql (read_alone .commit) trivial []) fun _ c => ?_
      -- The flag is set where the result is `true`.
      exact ⟨fun f hf => ⟨hf.file, hf.txn⟩, fun hq => hq, fun hr => absurd rfl hr⟩

lemma initializes_afterBegin : Initializes (afterBegin E) := by
  have hfalse : Initializes (pure false) := fun c => (opens_pure false c).initializing _
  refine initializes_bind opens_createAll fun created => ?_
  cases created with
  | false => exact hfalse
  | true =>
      refine initializes_bind (opens_createTable (read_alone .createContributionInfoIndex) trivial)
        fun _ => ?_
      refine initializes_bind (opens_createTable (read_alone .createActivityInfoIndex) trivial)
        fun _ => ?_
      refine initializes_bind (opens_createTable (read_alone .createRecurringDonationIndex) trivial)
        fun _ => ?_
      exact initializes_commitIfCurrent

/-- The handler of `Init`. -/
lemma opening_initHandler {c : Conn} (h : c.initialized_ = false) (transactionStarted : Bool) :
    Opening c (initHandler E transactionStarted c).2 := by
  have hset : Opening c { c with initialized_ := false } :=
    ⟨h.symm, fun f hf => ⟨hf.file, hf.txn⟩, fun hq => hq⟩
  have hmodify : DbM.modify (fun c => { c with initialized_ := false }) c
      = (.ok (), { c with initialized_ := false }) := rfl
  rw [initHandler, DbM.bind_ok hmodify]
  refine hset.trans ?_
  cases transactionStarted with
  | true =>
      exact opens_bind (opens_execSql (read_alone .rollback) trivial [])
        (fun _ => opens_pure false) _
  | false => exact Opening.refl _

/-- `Init` on a store that is not initialised. -/
lemma initializing_init {c : Conn} (h : c.initialized_ = false) :
    Initializing c (init E c).1 (init E c).2 := by
  have hbegin := opens_beginTransaction (E := E) c
  cases hrun : beginTransaction E c with
  | mk r₁ c₁ =>
      rw [hrun] at hbegin
      have hc₁ : c₁.initialized_ = false := hbegin.initialized.trans h
      cases r₁ with
      | error e =>
          rw [init_of_begin_error h hrun]
          exact (hbegin.trans (opening_initHandler hc₁ false)).initializing _
      | ok u =>
          have hafter := initializes_afterBegin (E := E) c₁
          cases hrest : afterBegin E c₁ with
          | mk r₂ c₂ =>
              rw [hrest] at hafter
              cases r₂ with
              | ok b =>
                  rw [init_of_returns h hrun hrest]
                  exact hbegin.andThen hafter
              | error e =>
                  have hopening : Opening c₁ c₂ :=
                    ⟨hafter.initialized (by simp), hafter.carries, hafter.quiet⟩
                  rw [init_of_throws h hrun hrest]
                  exact ((hbegin.trans hopening).trans
                    (opening_initHandler (hopening.initialized.trans hc₁) true)).initializing _

end RewardsDriver.Store
