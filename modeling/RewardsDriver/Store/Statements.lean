import RewardsDriver.Store.Query

/-!
The statements of the store: their texts, as the program writes them, and what each text means.

`*db_ << text` prepares its text alone; later operands are bound as parameters. So four of the
program's texts are statements that break off: their rest is passed as an operand.

* `Statement`: what the program's complete texts do.
* `Head`, `Head.text`: the texts written out in the program; `SqlText`: one of them and what is
  streamed after it.
* `read`: what a text means.
-/

namespace RewardsDriver.Store

open RewardsDriver.Sql

/-- A query over the join, or one outside the fragment that the reader follows. -/
inductive Core where
  | query (q : Query)
  | foreign (text : String)
  deriving DecidableEq

/-- A prepared statement. -/
inductive Statement where
  | begin
  | commit
  | rollback
  | createTable (t : Table)
  | createIndex (i : Index)
  | replaceMeta
  | readMeta
  | replacePublisherInfo
  | replaceMediaPublisherInfo
  | readMediaPublisherInfo
  | insertContributionInfo
  | replaceRecurringDonation
  | readRecurringDonation
  | select (core : Core) (window : Option Window)
  | count (core : Core)
  deriving DecidableEq

/-- The table that an index is on. -/
def Index.table : Index → Table
  | .contribution_info_publisher_id_index => .contribution_info
  | .activity_info_publisher_id_index => .activity_info
  | .recurring_donation_publisher_id_index => .recurring_donation

/-- The tables that have to exist for a statement to be prepared. -/
def Statement.needs : Statement → List Table
  | .begin | .commit | .rollback | .createTable _ => []
  | .createIndex i => [i.table]
  | .replaceMeta | .readMeta => [.meta]
  | .replacePublisherInfo => [.publisher_info]
  | .replaceMediaPublisherInfo => [.media_publisher_info]
  | .readMediaPublisherInfo => [.media_publisher_info, .publisher_info]
  | .insertContributionInfo => [.contribution_info]
  | .replaceRecurringDonation => [.recurring_donation]
  | .readRecurringDonation => [.recurring_donation, .publisher_info]
  | .select _ _ | .count _ => [.activity_info, .publisher_info]

/-! ### The texts -/

/-- The texts written out in the program. -/
inductive Head where
  | begin
  | commit
  | rollback
  | createMeta
  | insertMeta
  | selectMeta
  | createContributionInfo
  | createContributionInfoIndex
  | createPublisherInfo
  | createActivityInfo
  | createActivityInfoIndex
  | createMediaPublisherInfo
  | createRecurringDonation
  | createRecurringDonationIndex
  | insertPublisherInfo
  | selectActivityInfo
  | updateActivityInfo
  | insertActivityInfo
  | insertMediaPublisherInfo
  | selectMediaPublisherInfo
  | insertContributionInfo
  | insertRecurringDonation
  | selectRecurringDonation
  | deleteRecurringDonation
  | find
  | count
  | tips
  deriving DecidableEq

/-- The text itself. -/
def Head.text : Head → String
  | .begin => "begin;"
  | .commit => "commit;"
  | .rollback => "rollback;"
  | .createMeta =>
      "create table if not exists meta (key longvarchar not null unique primary key, value longvarchar);"
  | .insertMeta => "insert or replace into meta (key,value) values (?,?)"
  | .selectMeta => "SELECT value FROM meta WHERE key=?"
  | .createContributionInfo =>
      "create table if not exists " ++ "contribution_info" ++
        " (publisher_id LONGVARCHAR," ++
        "probi TEXT \"0\"  NOT NULL," ++
        "date INTEGER NOT NULL," ++
        "category INTEGER NOT NULL," ++
        "month INTEGER NOT NULL," ++
        "year INTEGER NOT NULL," ++
        "CONSTRAINT fk_contribution_info_publisher_id" ++
        "    FOREIGN KEY (publisher_id)" ++
        "    REFERENCES publisher_info (publisher_id)" ++
        "    ON DELETE CASCADE)"
  | .createContributionInfoIndex =>
      "CREATE INDEX IF NOT EXISTS contribution_info_publisher_id_index ON contribution_info (publisher_id);"
  | .createPublisherInfo =>
      "CREATE TABLE IF NOT EXISTS " ++ "publisher_info" ++
        " (publisher_id LONGVARCHAR PRIMARY KEY NOT NULL UNIQUE," ++
        "verified BOOLEAN DEFAULT 0 NOT NULL," ++
        "excluded INTEGER DEFAULT 0 NOT NULL," ++
        "name TEXT NOT NULL," ++
        "favIcon TEXT NOT NULL," ++
        "url TEXT NOT NULL," ++
        "provider TEXT NOT NULL)"
  | .createActivityInfo =>
      "CREATE TABLE IF NOT EXISTS " ++ "activity_info" ++
        " (publisher_id LONGVARCHAR NOT NULL," ++
        "duration INTEGER DEFAULT 0 NOT NULL," ++
        "score DOUBLE DEFAULT 0 NOT NULL," ++
        "percent INTEGER DEFAULT 0 NOT NULL," ++
        "weight DOUBLE DEFAULT 0 NOT NULL," ++
        "category INTEGER NOT NULL," ++
        "month INTEGER NOT NULL," ++
        "year INTEGER NOT NULL," ++
        "reconcile_stamp INTEGER DEFAULT 0 NOT NULL," ++
        "CONSTRAINT fk_activity_info_publisher_id" ++
        "    FOREIGN KEY (publisher_id)" ++
        "    REFERENCES publisher_info (publisher_id)" ++
        "    ON DELETE CASCADE)"
  | .createActivityInfoIndex =>
      "CREATE INDEX IF NOT EXISTS activity_info_publisher_id_index ON activity_info (publisher_id)"
  | .createMediaPublisherInfo =>
      "CREATE TABLE IF NOT EXISTS " ++ "media_publisher_info" ++
        " (media_key TEXT NOT NULL PRIMARY KEY UNIQUE," ++
        "publisher_id LONGVARCHAR NOT NULL," ++
        "CONSTRAINT fk_media_publisher_info_publisher_id" ++
        "    FOREIGN KEY (publisher_id)" ++
        "    REFERENCES publisher_info (publisher_id)" ++
        "    ON DELETE CASCADE)"
  | .createRecurringDonation =>
      "CREATE TABLE IF NOT EXISTS " ++ "recurring_donation" ++
        "( publisher_id LONGVARCHAR NOT NULL PRIMARY KEY UNIQUE," ++
        "amount DOUBLE DEFAULT 0 NOT NULL," ++
        "added_date INTEGER DEFAULT 0 NOT NULL," ++
        "CONSTRAINT fk_recurring_donation_publisher_id" ++
        "    FOREIGN KEY (publisher_id)" ++
        "    REFERENCES publisher_info (publisher_id)" ++
        "    ON DELETE CASCADE)"
  | .createRecurringDonationIndex =>
      "CREATE INDEX IF NOT EXISTS recurring_donation_publisher_id_index ON recurring_donation (publisher_id)"
  | .insertPublisherInfo =>
      "INSERT OR REPLACE INTO publisher_info " ++
        "(publisher_id, verified, excluded, " ++
        "name, url, provider, favIcon) " ++
        "VALUES (?, ?, ?, ?, ?, ?, ?)"
  -- what follows these three in the program is an operand
  | .selectActivityInfo => "SELECT publisher_id FROM activity_info WHERE "
  | .updateActivityInfo => "UPDATE activity_info SET "
  | .insertActivityInfo => "INSERT INTO activity_info "
  | .insertMediaPublisherInfo =>
      "INSERT OR REPLACE INTO media_publisher_info " ++
        "(media_key, publisher_id) " ++
        "VALUES (?, ?)"
  | .selectMediaPublisherInfo =>
      "SELECT pi.publisher_id, pi.name, pi.url, pi.favIcon, " ++
        "pi.provider, pi.verified, pi.excluded " ++
        "FROM media_publisher_info as mpi " ++
        "INNER JOIN publisher_info AS pi ON mpi.publisher_id = pi.publisher_id " ++
        "WHERE mpi.media_key=?"
  | .insertContributionInfo =>
      "INSERT INTO contribution_info " ++
        "(publisher_id, probi, date, " ++
        "category, month, year) " ++
        "VALUES (?, ?, ?, ?, ?, ?)"
  | .insertRecurringDonation =>
      "INSERT OR REPLACE INTO recurring_donation " ++
        "(publisher_id, amount, added_date) " ++
        "VALUES (?, ?, ?)"
  | .selectRecurringDonation =>
      "SELECT pi.publisher_id, pi.name, pi.url, pi.favIcon, " ++
        "rd.amount, rd.added_date, pi.verified, pi.provider " ++
        "FROM recurring_donation as rd " ++
        "INNER JOIN publisher_info AS pi ON rd.publisher_id = pi.publisher_id "
  -- the key that follows in the program is an operand
  | .deleteRecurringDonation => "DELETE FROM recurring_donation WHERE publisher_id = "
  | .find =>
      "SELECT ai.publisher_id, ai.duration, ai.score, ai.percent, " ++
        "ai.weight, pi.verified, pi.excluded, ai.category, ai.month, ai.year, pi.name, " ++
        "pi.url, pi.provider, pi.favIcon, ai.reconcile_stamp " ++
        "FROM activity_info AS ai " ++
        "INNER JOIN publisher_info AS pi ON ai.publisher_id = pi.publisher_id " ++
        "WHERE 1 = 1"
  | .count =>
      "SELECT COUNT(ai.publisher_id) " ++
        "FROM activity_info AS ai " ++
        "INNER JOIN publisher_info AS pi ON ai.publisher_id = pi.publisher_id " ++
        "WHERE 1 = 1"
  | .tips =>
      "SELECT pi.publisher_id, pi.name, pi.url, pi.favIcon, " ++
        "ci.probi, ci.date, pi.verified, pi.provider " ++
        "FROM contribution_info as ci " ++
        "INNER JOIN publisher_info AS pi ON ci.publisher_id = pi.publisher_id "

/-- A text that is prepared: one of those written out, and what is streamed after it. -/
structure SqlText where
  head : Head
  tail : String
  deriving DecidableEq

/-- The text that `*db_ << text` gets. -/
def SqlText.text (t : SqlText) : String := t.head.text ++ t.tail

/-! ### Reading a text -/

/-- What the texts mean that stand alone. The four that break off are refused. -/
def Head.statement : Head → Reading Statement
  | .begin => .accepts .begin
  | .commit => .accepts .commit
  | .rollback => .accepts .rollback
  | .createMeta => .accepts (.createTable .meta)
  | .insertMeta => .accepts .replaceMeta
  | .selectMeta => .accepts .readMeta
  | .createContributionInfo => .accepts (.createTable .contribution_info)
  | .createContributionInfoIndex => .accepts (.createIndex .contribution_info_publisher_id_index)
  | .createPublisherInfo => .accepts (.createTable .publisher_info)
  | .createActivityInfo => .accepts (.createTable .activity_info)
  | .createActivityInfoIndex => .accepts (.createIndex .activity_info_publisher_id_index)
  | .createMediaPublisherInfo => .accepts (.createTable .media_publisher_info)
  | .createRecurringDonation => .accepts (.createTable .recurring_donation)
  | .createRecurringDonationIndex => .accepts (.createIndex .recurring_donation_publisher_id_index)
  | .insertPublisherInfo => .accepts .replacePublisherInfo
  | .selectActivityInfo => .refuses
  | .updateActivityInfo => .refuses
  | .insertActivityInfo => .refuses
  | .insertMediaPublisherInfo => .accepts .replaceMediaPublisherInfo
  | .selectMediaPublisherInfo => .accepts .readMediaPublisherInfo
  | .insertContributionInfo => .accepts .insertContributionInfo
  | .insertRecurringDonation => .accepts .replaceRecurringDonation
  | .selectRecurringDonation => .accepts .readRecurringDonation
  | .deleteRecurringDonation => .refuses
  | .find => .accepts (.select (.query ⟨[], none⟩) none)
  | .count => .accepts (.count (.query ⟨[], none⟩))
  | .tips => .outside

/-- What the tail of a query of `Find` makes of it. -/
def Reading.select : Reading (Query × Option Window) → Reading Statement
  | .accepts (q, w) => .accepts (.select (.query q) w)
  | .refuses => .refuses
  | .outside => .outside

/-- What the tail of a query of `Count` makes of it. -/
def Reading.count : Reading (Query × Option Window) → Reading Statement
  | .accepts (q, none) => .accepts (.count (.query q))
  | .accepts (_, some _) => .outside
  | .refuses => .refuses
  | .outside => .outside

/-- What a text means to `*db_ << text`. A NUL ends the statement before the text ends, and no
statement has an illegal token. -/
def read (t : SqlText) : Reading Statement :=
  if '\x00' ∈ t.tail.toList then .refuses
  else match t.head with
    | .find => (readTail t.tail.toList).select
    | .count => (readTail t.tail.toList).count
    | h =>
        if t.tail = "" then h.statement
        else if .illegal ∈ lex t.tail.toList then .refuses
        else .outside

end RewardsDriver.Store
