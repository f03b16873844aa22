import RewardsDriver.Store.Init

/-!
Blocks of statements in a transaction, any of which may fail.

A statement that fails leaves its transaction open or takes it with it. So a block of statements
that gives up at the first failure leaves the file as it was, and the transaction open or not as
that failure decides.

* `Conn.Spared`, `Conn.DropsIn`: the failures to come; `Conn.After`: a later connection.
* `Passes`: what a block comes to.
* `Passes.andThen`, `Passes.bind`: **how blocks compose**; `passes_execSql`: one statement.
-/

namespace RewardsDriver.Store

open RewardsDriver.Sql

variable {E : Sqlite}

/-! ### The failures to come -/

/-- No one of the next `k` statements is made to fail. -/
def Conn.Spared (c : Conn) (k : ℕ) : Prop := ∀ i < k, c.fails i = none

instance (c : Conn) (k : ℕ) : Decidable (c.Spared k) :=
  inferInstanceAs (Decidable (∀ i < k, c.fails i = none))

/-- One of the next `k` statements fails, and the first that does takes the transaction with it. -/
def Conn.DropsIn (c : Conn) (k : ℕ) : Prop := ∃ i < k, c.Spared i ∧ c.Drops i

/-- `c'` is a connection `k` statements after `c`. -/
structure Conn.After (c : Conn) (k : ℕ) (c' : Conn) : Prop where
  fails : ∀ n, c'.fails n = c.fails (n + k)
  rollsBack : ∀ n, c'.rollsBack n = c.rollsBack (n + k)

lemma Conn.After.next (c : Conn) : c.After 1 c.next := ⟨fun _ => rfl, fun _ => rfl⟩

lemma Conn.After.failed (c : Conn) : c.After 1 c.failed := by
  by_cases h : c.Drops 0
  · rw [Conn.failed_of_drops h]
    exact ⟨fun _ => rfl, fun _ => rfl⟩
  · rw [Conn.failed_of_not_drops h]
    exact .next c

lemma Conn.After.trans {c c' c'' : Conn} {j k : ℕ} (h : c.After j c') (h' : c'.After k c'') :
    c.After (j + k) c'' where
  fails n := by rw [h'.fails n, h.fails (n + k), Nat.add_assoc, Nat.add_comm k j]
  rollsBack n := by rw [h'.rollsBack n, h.rollsBack (n + k), Nat.add_assoc, Nat.add_comm k j]

lemma Conn.After.drops {c c' : Conn} {k : ℕ} (h : c.After k c') (n : ℕ) :
    c'.Drops n ↔ c.Drops (n + k) := by
  rw [Conn.Drops, Conn.Drops, h.fails, h.rollsBack]

lemma Conn.After.spared {c c' : Conn} {j k : ℕ} (h : c.After j c') :
    c.Spared (j + k) ↔ c.Spared j ∧ c'.Spared k := by
  constructor
  · exact fun hc => ⟨fun i hi => hc i (by omega),
      fun i hi => by rw [h.fails i]; exact hc _ (by omega)⟩
  · rintro ⟨hj, hk⟩ i hi
    by_cases hij : i < j
    · exact hj i hij
    · have hrest := hk (i - j) (by omega)
      rwa [h.fails (i - j), Nat.sub_add_cancel (by omega)] at hrest

lemma Conn.spared_one {c : Conn} : c.Spared 1 ↔ c.fails 0 = none :=
  ⟨fun h => h 0 (by omega), fun h i hi => by rwa [show i = 0 by omega]⟩

lemma Conn.Spared.mono {c : Conn} {j k : ℕ} (h : c.Spared k) (hjk : j ≤ k) : c.Spared j :=
  fun i hi => h i (by omega)

/-- A failure among the first statements decides for all. -/
lemma Conn.dropsIn_of_not_spared {c : Conn} {j k : ℕ} (h : ¬ c.Spared j) (hjk : j ≤ k) :
    c.DropsIn k ↔ c.DropsIn j := by
  constructor
  · rintro ⟨i, -, hspared, hdrops⟩
    refine ⟨i, ?_, hspared, hdrops⟩
    by_contra hi
    exact h (hspared.mono (by omega))
  · rintro ⟨i, hi, hdrops⟩
    exact ⟨i, by omega, hdrops⟩

/-- The first failure is not among statements that do not fail. -/
lemma Conn.After.dropsIn {c c' : Conn} {j k : ℕ} (h : c.After j c') (hj : c.Spared j) :
    c.DropsIn (j + k) ↔ c'.DropsIn k := by
  constructor
  · rintro ⟨i, hi, hspared, hdrops⟩
    have hji : j ≤ i := by
      by_contra hij
      exact hdrops.1 (hj i (by omega))
    refine ⟨i - j, by omega, fun n hn => ?_, ?_⟩
    · rw [h.fails]
      exact hspared _ (by omega)
    · rwa [h.drops, Nat.sub_add_cancel hji]
  · rintro ⟨i, hi, hspared, hdrops⟩
    rw [h.drops] at hdrops
    exact ⟨i + j, by omega, by rw [Nat.add_comm]; exact h.spared.mpr ⟨hj, hspared⟩, hdrops⟩

lemma Conn.dropsIn_one {c : Conn} : c.DropsIn 1 ↔ c.Drops 0 := by
  constructor
  · rintro ⟨i, hi, -, hdrops⟩
    rwa [show i = 0 by omega] at hdrops
  · exact fun h => ⟨0, by omega, fun i hi => by omega, h⟩

/-! ### The transaction -/

/-- A transaction is open on the file `f`. -/
def InTxn (f : Db) (c : Conn) : Prop := c.file = f ∧ ∃ db, c.txn = some db

lemma InTxn.next {f : Db} {c : Conn} (h : InTxn f c) : InTxn f c.next := h

@[simp] lemma Conn.failed_file (c : Conn) : c.failed.file = c.file := by
  rw [Conn.failed]
  split <;> rfl

/-- A statement that fails ends the transaction, or does not. -/
lemma InTxn.failed_txn {f : Db} {c : Conn} (h : InTxn f c) : c.failed.txn = none ↔ c.Drops 0 := by
  obtain ⟨-, db, hdb⟩ := h
  by_cases hdrops : c.Drops 0
  · simp [Conn.failed_of_drops hdrops, hdrops]
  · simp [Conn.failed_of_not_drops hdrops, hdrops, hdb]

/-- A write inside the transaction. -/
lemma apply_inTxn {s : Statement} {b : List Value} {c : Conn} {db db' : Db} {rows : Rows}
    (hs : s ≠ .begin ∧ s ≠ .commit ∧ s ≠ .rollback) (htxn : c.txn = some db)
    (hneeds : ∀ t ∈ s.needs, t ∈ db.tables) (heffect : E.effect s b db = some (db', rows)) :
    E.apply s b c = some ({ c with txn := some db' }, rows) := by
  have hvisible : c.visible = db := by simp [Conn.visible, htxn]
  cases s <;> simp_all [Sqlite.apply, Conn.write]

/-! ### Blocks of statements -/

section Blocks

variable {α β : Type}

/-- A block of `k` statements in the transaction: it comes to `yes`, with `Q` of the connection, if
none of them fails, and otherwise to `no`, with the transaction gone or still there. -/
def Passes (x : DbM α) (yes no : Except SqlException α) (k : ℕ) (f : Db) (c : Conn)
    (Q : Conn → Prop) : Prop :=
  (c.Spared k → ∃ c', x c = (yes, c') ∧ Q c' ∧ c.After k c') ∧
    (¬ c.Spared k → ∃ c', x c = (no, c') ∧ c'.file = f ∧ (c'.txn = none ↔ c.DropsIn k))

variable {x : DbM α} {z : DbM β} {yes no : Except SqlException α} {yes' no' : Except SqlException β}
  {j k : ℕ} {f : Db} {c : Conn} {Q R : Conn → Prop}

lemma Passes.mono (h : Passes x yes no k f c Q) (hQ : ∀ c', Q c' → R c') :
    Passes x yes no k f c R := by
  refine ⟨fun hc => ?_, h.2⟩
  obtain ⟨c', hx, hq, hafter⟩ := h.1 hc
  exact ⟨c', hx, hQ c' hq, hafter⟩

/-- **One block after the other**, where the whole follows the second if the first passes. -/
lemma Passes.andThen {y : DbM β} (hx : Passes x yes no j f c Q)
    (hyes : ∀ c', x c = (yes, c') → z c = y c') (hno : ∀ c', x c = (no, c') → z c = (no', c'))
    (hy : ∀ c', Q c' → Passes y yes' no' k f c' R) : Passes z yes' no' (j + k) f c R := by
  by_cases hj : c.Spared j
  · obtain ⟨c', hc', hq, hafter⟩ := hx.1 hj
    constructor
    · intro hc
      obtain ⟨c'', hc'', hr, hafter'⟩ := (hy c' hq).1 (hafter.spared.mp hc).2
      exact ⟨c'', (hyes c' hc').trans hc'', hr, hafter.trans hafter'⟩
    · intro hc
      obtain ⟨c'', hc'', hfile, htxn⟩ := (hy c' hq).2 fun hk => hc (hafter.spared.mpr ⟨hj, hk⟩)
      exact ⟨c'', (hyes c' hc').trans hc'', hfile, htxn.trans (hafter.dropsIn hj).symm⟩
  · obtain ⟨c', hc', hfile, htxn⟩ := hx.2 hj
    refine ⟨fun hc => absurd (hc.mono (by omega)) hj, fun _ => ⟨c', hno c' hc', hfile, ?_⟩⟩
    exact htxn.trans (Conn.dropsIn_of_not_spared hj (Nat.le_add_right j k)).symm

/-- A block whose result is only wrapped. -/
lemma Passes.map (hx : Passes x yes no k f c Q) (hyes : ∀ c', x c = (yes, c') → z c = (yes', c'))
    (hno : ∀ c', x c = (no, c') → z c = (no', c')) : Passes z yes' no' k f c Q := by
  refine ⟨fun hc => ?_, fun hc => ?_⟩
  · obtain ⟨c', hc', hq, hafter⟩ := hx.1 hc
    exact ⟨c', hyes c' hc', hq, hafter⟩
  · obtain ⟨c', hc', hleft⟩ := hx.2 hc
    exact ⟨c', hno c' hc', hleft⟩

/-- Sequencing: an exception of the first block is one of the whole. -/
lemma Passes.bind {y : α → DbM β} {a : α} {e : SqlException}
    (hx : Passes x (.ok a) (.error e) j f c Q)
    (hy : ∀ c', Q c' → Passes (y a) yes' (.error e) k f c' R) :
    Passes (x >>= y) yes' (.error e) (j + k) f c R :=
  hx.andThen (fun _ h => DbM.bind_ok h) (fun _ h => DbM.bind_error h) hy

/-- One statement of which the exception is known. -/
lemma passes_one {e : SqlException}
    (hok : c.fails 0 = none → ∃ c', x c = (yes, c') ∧ Q c' ∧ c.After 1 c')
    (hfails : ∀ n, c.fails 0 = some n → x c = (.error e, c.failed)) (h : InTxn f c) :
    Passes x yes (.error e) 1 f c Q := by
  refine ⟨fun hc => hok (Conn.spared_one.mp hc), fun hc => ?_⟩
  obtain ⟨n, hn⟩ := Option.ne_none_iff_exists'.mp fun hn => hc (Conn.spared_one.mpr hn)
  exact ⟨c.failed, hfails n hn, by rw [Conn.failed_file, h.1],
    by rw [h.failed_txn, Conn.dropsIn_one]⟩

/-- A statement inside the transaction. -/
lemma passes_execSql {h : Head} {s : Statement} {b : List Value} {db db' : Db} {rows : Rows}
    (ht : read ⟨h, ""⟩ = .accepts s) (hs : s ≠ .begin ∧ s ≠ .commit ∧ s ≠ .rollback)
    (hfile : c.file = f) (htxn : c.txn = some db) (hneeds : ∀ t ∈ s.needs, t ∈ db.tables)
    (heffect : E.effect s b db = some (db', rows)) :
    Passes (execSql E h b) (.ok ()) (.error .sqlite_exception) 1 f c
      fun c' => c'.file = f ∧ c'.txn = some db' :=
  passes_one
    (fun hc => ⟨_, execSql_ok ht (apply_inTxn (c := c.next) hs htxn hneeds heffect) hc,
      ⟨hfile, rfl⟩, ⟨fun _ => rfl, fun _ => rfl⟩⟩)
    (fun _ hn => execSql_fails hn) ⟨hfile, db, htxn⟩

lemma Passes.succeeds {x : DbM Unit} {e : SqlException}
    (h : Passes x (.ok ()) (.error e) k f c Q) :
    Passes (succeeds x) (.ok true) (.ok false) k f c Q :=
  h.map (fun _ hx => succeeds_ok hx) fun _ hx => succeeds_error hx

end Blocks

end RewardsDriver.Store
