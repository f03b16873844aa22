import RewardsDriver.Store.Opening
import RewardsDriver.Store.Refusal

/-!
What an `Init` that gives up leaves behind.

`Init` gives up in two ways. An exception reaches its handler, which rolls the transaction back if
it has begun. A helper that has caught its exception itself returns `false`, and then `Init` returns
from within the `try` block, past the handler, with the transaction open unless the failure itself
has rolled it back.

* `LeavesNothing`: a failed `Init` leaves the connection closed off, the file as it was and no
  transaction.
* `init_of_open_fails`, `init_of_begin_fails`: giving up before the transaction has begun.
* `leavesNothing_of_begun`: **giving up after it has begun**.
* `leavesNothing_iff`: which failures leave nothing behind.
-/

namespace RewardsDriver.Store

variable (E : Sqlite)

/-- An `Init` that returns `false` leaves nothing behind: the store is not initialised, the file is
what it was and no transaction is open. -/
def LeavesNothing (c : Conn) : Prop :=
  ∀ c', init E c = (.ok false, c') →
    c'.initialized_ = false ∧ c'.file = c.file ∧ c'.txn = none

variable {E}

/-- Only one thing can be said of the connection that a given `Init` returns with. -/
lemma leavesNothing_of_init {c c' : Conn} {r : Except SqlException Bool}
    (hinit : init E c = (r, c')) :
    LeavesNothing E c ↔ (r = .ok false →
      c'.initialized_ = false ∧ c'.file = c.file ∧ c'.txn = none) := by
  constructor
  · rintro h rfl
    exact h c' hinit
  · intro h c'' hfalse
    rw [hinit] at hfalse
    cases hfalse
    exact h rfl

/-! ### Giving up before the transaction -/

/-- The open fails: the connection that there was is kept, with its transaction. -/
lemma init_of_open_fails {c : Conn} {k : ℕ} (h : c.initialized_ = false)
    (h0 : c.fails 0 = some k) :
    init E c = (.ok false, { c.next with initialized_ := false }) := by
  have hopen : openDatabase c = (.error .sqlite_exception, c.next) := by
    simp [openDatabase, h0]
  rw [init_of_begin_error h (DbM.bind_error hopen)]
  rfl

/-- The begin fails: the connection is new and has no transaction. -/
lemma init_of_begin_fails {c : Conn} {k : ℕ} (h : c.initialized_ = false)
    (h0 : c.fails 0 = none) (h1 : c.fails 1 = some k) :
    init E c = (.ok false, { c.next.next with initialized_ := false, txn := none }) := by
  have hopen : openDatabase c = (.ok (), { c.next with txn := none }) := by
    simp [openDatabase, h0]
  have hbegin := execSql_fails (E := E) (h := .begin) (b := [])
    (c := { c.next with txn := none }) h1
  rw [Conn.failed_of_txn rfl] at hbegin
  rw [init_of_begin_error h ((DbM.bind_ok hopen).trans hbegin)]
  rfl

/-! ### What is left behind -/

/-- **Giving up after the transaction has begun** leaves nothing behind if `Init` does not strand
and creates no index in the file itself. -/
lemma leavesNothing_of_begun {c : Conn} (h : c.initialized_ = false) (h2 : c.Spared 2) :
    LeavesNothing E c ↔
      (c.Refuses → ¬ c.Strands ∧ ∀ i, c.Autocommits i → i ∈ c.file.indices) := by
  by_cases hr : c.Refuses
  · obtain ⟨c', hinit, hfile, htxn⟩ := init_refuses (E := E) h h2 hr
    have hflag : c'.initialized_ = false := by
      have hdoes := initializing_init (E := E) h
      rw [hinit] at hdoes
      exact (hdoes.initialized (by simp)).trans h
    rw [leavesNothing_of_init hinit, ← hfile, ← htxn]
    constructor
    · intro hleaves _
      exact ⟨(hleaves rfl).2.2, (hleaves rfl).2.1⟩
    · intro hleaves _
      exact ⟨hflag, (hleaves hr).2, (hleaves hr).1⟩
  · obtain ⟨-, hthrows, hsucceeds⟩ := init_spec (E := E) h
    refine iff_of_true ?_ fun hr' => absurd hr' hr
    by_cases hthrow : c.Dropped 13 ∨ c.fails 15 ≠ none
    · obtain ⟨c', hinit⟩ := hthrows hr hthrow
      exact (leavesNothing_of_init hinit).mpr fun hfalse => by cases hfalse
    · rw [not_or, not_not] at hthrow
      obtain ⟨c', hinit, -⟩ := hsucceeds hr hthrow.1 hthrow.2
      exact (leavesNothing_of_init hinit).mpr fun hfalse => by cases hfalse

/-- **What a failed `Init` leaves behind**: nothing, for a file and a pattern of failures, if and
only if the store was initialised already, or a failing open finds no transaction on the old
connection, and a refusal after the begin does not strand the transaction and creates no index in
the file itself that it does not have. -/
theorem leavesNothing_iff (c : Conn) :
    LeavesNothing E c ↔ c.initialized_ = true ∨
      ((c.fails 0 ≠ none → c.txn = none) ∧
        (c.Spared 2 → c.Refuses →
          ¬ c.Strands ∧ ∀ i, c.Autocommits i → i ∈ c.file.indices)) := by
  cases h : c.initialized_ with
  | true =>
      have hleaves := (leavesNothing_of_init (init_of_initialized (E := E) h)).mpr
        fun hfalse => by cases hfalse
      exact iff_of_true hleaves (.inl rfl)
  | false =>
      simp only [Bool.false_eq_true, false_or]
      cases h0 : c.fails 0 with
      | some k =>
          have h2 : ¬ c.Spared 2 := fun h2 => by
            rw [h2 0 (by omega)] at h0
            cases h0
          rw [leavesNothing_of_init (init_of_open_fails h h0)]
          simp [h2]
      | none =>
          cases h1 : c.fails 1 with
          | some k =>
              have h2 : ¬ c.Spared 2 := fun h2 => by
                rw [h2 1 (by omega)] at h1
                cases h1
              rw [leavesNothing_of_init (init_of_begin_fails h h0 h1)]
              simp [h2]
          | none =>
              have h2 : c.Spared 2 := fun i hi => by
                obtain rfl | rfl : i = 0 ∨ i = 1 := by omega
                · exact h0
                · exact h1
              rw [leavesNothing_of_begun h h2]
              simp [h2]

/-- A new store whose first table cannot be created: the transaction is left open. -/
theorem meta_fails_open : ¬ ∀ (E : Sqlite) (c : Conn), c.initialized_ = false → c.txn = none →
    LeavesNothing E c := by
  intro hall
  let c : Conn := ⟨false, Db.fresh, none, fun n => if n = 2 then some 0 else none, fun _ => false⟩
  have h2 : c.Spared 2 := by decide
  have h10 : ¬ c.Spared 10 := by decide
  have hstrands : c.Strands := by
    rw [Conn.Strands, if_neg h10]
    rintro ⟨i, -, -, hdrops⟩
    cases hdrops.2
  obtain ⟨c', hinit, -, htxn⟩ :=
    init_refuses (E := reference) (c := c) rfl h2 (.inl fun hr => h10 hr.1)
  exact htxn.mp (hall reference c rfl rfl c' hinit).2.2 hstrands

end RewardsDriver.Store
