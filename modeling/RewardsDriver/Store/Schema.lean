import Mathlib.Data.String.Basic
import Mathlib.Data.Finset.Basic
import Mathlib.Data.Rat.Defs
import Mathlib.Algebra.Order.Ring.Rat
import Mathlib.Algebra.Order.Monoid.Unbundled.WithTop
import RewardsDriver.Base.UniqueTable

/-!
The data of the publisher store (`driver/publisher_info_database.cc`): the values that the
program passes in and out, and the tables as the five `CREATE TABLE` texts declare them.

Integers are stored as SQLite stores them, in 64 bits with a sign; a 64-bit value without sign is
bound and read back through the same bits. A double is bound by its numeric value, and NaN is
bound as NULL.

* `PublisherInfo`, `PublisherInfoFilter`, `Ledger`: what the ledger headers declare; the values of
  their constants are parameters.
* `Db`: the tables, with the uniqueness of the keys carried by `UniqueTable`.
* `Joined`, `Db.joined`: the rows of `activity_info` joined with `publisher_info`.
* `Column`, `Column.field`: the columns of the join, and what each reads.
-/

namespace RewardsDriver.Store

/-- The numeric value of a double that is not NaN. -/
abbrev Number := WithBot (WithTop ℚ)

/-- A double. -/
inductive Double where
  | nan
  | val (x : Number)
  deriving DecidableEq

/-! ### The values of the program -/

/-- `ledger::PublisherInfo`. -/
structure PublisherInfo where
  id : String
  duration : UInt64
  score : Double
  percent : UInt64
  weight : Double
  excluded : Int32
  category : Int32
  month : Int32
  year : Int32
  name : String
  url : String
  provider : String
  favicon_url : String
  reconcile_stamp : UInt64
  verified : Bool
  deriving DecidableEq

/-- `ledger::PublisherInfoFilter`. -/
structure PublisherInfoFilter where
  id : String
  category : Int32
  month : Int32
  year : Int32
  excluded : Int32
  min_duration : UInt64
  order_by : List (String × Bool)
  reconcile_stamp : UInt64
  deriving DecidableEq

/-- `brave_rewards::ContributionInfo`. -/
structure ContributionInfo where
  probi : String
  month : Int32
  year : Int32
  category : Int32
  date : UInt32
  publisher_key : String
  deriving DecidableEq

/-- `brave_rewards::RecurringDonation`. -/
structure RecurringDonation where
  publisher_key : String
  amount : Double
  added_date : UInt32
  deriving DecidableEq

/-- The constants of the ledger headers, the two filters among them different, and the fields of a
`PublisherInfo` that its constructors do not get as arguments. -/
structure Ledger where
  ALL_CATEGORIES : Int32
  DIRECT_DONATION : Int32
  TIPPING : Int32
  ANY : Int32
  FILTER_ALL : Int32
  FILTER_ALL_EXCEPT_EXCLUDED : Int32
  defaults : PublisherInfo
  filters_ne : FILTER_ALL ≠ FILTER_ALL_EXCEPT_EXCLUDED

/-- The constructor `PublisherInfo(id, month, year)`. -/
def Ledger.publisherInfo (L : Ledger) (id : String) (month year : Int32) : PublisherInfo :=
  { L.defaults with id, month, year }

/-- A choice of the constants, to run the store on. -/
def sampleLedger : Ledger where
  ALL_CATEGORIES := 31
  DIRECT_DONATION := 8
  TIPPING := 16
  ANY := -1
  FILTER_ALL := -1
  FILTER_ALL_EXCEPT_EXCLUDED := 4
  defaults := ⟨"", 0, .val 0, 0, .val 0, 0, 31, -1, -1, "", "", "", "", 0, false⟩
  filters_ne := by decide

/-! ### The tables -/

/-- A row of `publisher_info`. -/
structure PublisherRow where
  publisher_id : String
  verified : Int64
  excluded : Int64
  name : String
  favIcon : String
  url : String
  provider : String
  deriving DecidableEq

/-- A row of `activity_info`. -/
structure ActivityRow where
  publisher_id : String
  duration : Int64
  score : Number
  percent : Int64
  weight : Number
  category : Int64
  month : Int64
  year : Int64
  reconcile_stamp : Int64
  deriving DecidableEq

/-- A row of `contribution_info`. -/
structure ContributionRow where
  publisher_id : String
  probi : String
  date : Int64
  category : Int64
  month : Int64
  year : Int64
  deriving DecidableEq

/-- A row of `media_publisher_info`. -/
structure MediaRow where
  media_key : String
  publisher_id : String
  deriving DecidableEq

/-- A row of `recurring_donation`. -/
structure DonationRow where
  publisher_id : String
  amount : Number
  added_date : Int64
  deriving DecidableEq

/-- A row of `meta`. -/
structure MetaRow where
  key : String
  value : String
  deriving DecidableEq

/-- The tables that the program creates. -/
inductive Table where
  | «meta»
  | publisher_info
  | contribution_info
  | activity_info
  | media_publisher_info
  | recurring_donation
  deriving DecidableEq

/-- The indices that the program creates. -/
inductive Index where
  | contribution_info_publisher_id_index
  | activity_info_publisher_id_index
  | recurring_donation_publisher_id_index
  deriving DecidableEq

/-- The contents of a database file. -/
structure Db where
  tables : Finset Table
  indices : Finset Index
  «meta» : UniqueTable MetaRow.key
  publisher_info : UniqueTable PublisherRow.publisher_id
  contribution_info : List ContributionRow
  activity_info : List ActivityRow
  media_publisher_info : UniqueTable MediaRow.media_key
  recurring_donation : UniqueTable DonationRow.publisher_id
  deriving DecidableEq

/-- Every table has been created. -/
def Db.Complete (db : Db) : Prop := ∀ t, t ∈ db.tables

/-! ### The join of activities and publishers -/

/-- A row of the join of `activity_info AS ai` and `publisher_info AS pi`. -/
structure Joined where
  ai : ActivityRow
  pi : PublisherRow
  deriving DecidableEq

/-- The rows of the join on `ai.publisher_id = pi.publisher_id`. -/
def Db.joined (db : Db) : List Joined :=
  db.activity_info.flatMap fun a =>
    ((db.publisher_info.row? a.publisher_id).map (Joined.mk a)).toList

/-- The columns of the join. -/
inductive Column where
  | ai_publisher_id
  | ai_duration
  | ai_score
  | ai_percent
  | ai_weight
  | ai_category
  | ai_month
  | ai_year
  | ai_reconcile_stamp
  | pi_publisher_id
  | pi_verified
  | pi_excluded
  | pi_name
  | pi_favIcon
  | pi_url
  | pi_provider
  deriving DecidableEq

/-- What a column reads, by the affinity of its declared type. -/
inductive Field where
  | int (f : Joined → Int64)
  | real (f : Joined → Number)
  | text (f : Joined → String)

namespace Column

def field : Column → Field
  | ai_publisher_id => .text fun r => r.ai.publisher_id
  | ai_duration => .int fun r => r.ai.duration
  | ai_score => .real fun r => r.ai.score
  | ai_percent => .int fun r => r.ai.percent
  | ai_weight => .real fun r => r.ai.weight
  | ai_category => .int fun r => r.ai.category
  | ai_month => .int fun r => r.ai.month
  | ai_year => .int fun r => r.ai.year
  | ai_reconcile_stamp => .int fun r => r.ai.reconcile_stamp
  | pi_publisher_id => .text fun r => r.pi.publisher_id
  | pi_verified => .int fun r => r.pi.verified
  | pi_excluded => .int fun r => r.pi.excluded
  | pi_name => .text fun r => r.pi.name
  | pi_favIcon => .text fun r => r.pi.favIcon
  | pi_url => .text fun r => r.pi.url
  | pi_provider => .text fun r => r.pi.provider

/-- The order of two rows by a column: numbers by value, texts by their bytes. -/
def le (c : Column) (r r' : Joined) : Bool :=
  match c.field with
  | .int f => (f r).toInt ≤ (f r').toInt
  | .real f => f r ≤ f r'
  | .text f => f r ≤ f r'

end Column

lemma Column.le_or_le (c : Column) (r r' : Joined) : (c.le r r' || c.le r' r) = true := by
  rw [Column.le, Column.le]
  split <;> simpa using le_total _ _

lemma Column.le_trans (c : Column) (r r' r'' : Joined) (h : c.le r r' = true)
    (h' : c.le r' r'' = true) : c.le r r'' = true := by
  rw [Column.le] at h h' ⊢
  cases hf : c.field with
  | int f =>
      simp only [hf, decide_eq_true_eq] at h h' ⊢
      exact Int.le_trans h h'
  | real f =>
      simp only [hf, decide_eq_true_eq] at h h' ⊢
      exact Preorder.le_trans _ _ _ h h'
  | text f =>
      simp only [hf, decide_eq_true_eq] at h h' ⊢
      exact Preorder.le_trans _ _ _ h h'

end RewardsDriver.Store
