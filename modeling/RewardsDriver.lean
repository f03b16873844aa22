import RewardsDriver.Base.Runs
import RewardsDriver.Base.UniqueTable
import RewardsDriver.Base.Split
import RewardsDriver.Base.Gather
import RewardsDriver.Fetch.Registry
import RewardsDriver.Fetch.RequestId
import RewardsDriver.Timer.WaitTasks
import RewardsDriver.Timer.NoneLost
import RewardsDriver.Files.StateFile
import RewardsDriver.Files.Torn
import RewardsDriver.Sql.Lexer
import RewardsDriver.Store.Schema
import RewardsDriver.Store.Query
import RewardsDriver.Store.Statements
import RewardsDriver.Store.Sqlite
import RewardsDriver.Store.Init
import RewardsDriver.Store.Transaction
import RewardsDriver.Store.Refusal
import RewardsDriver.Store.Opening
import RewardsDriver.Store.Writes
import RewardsDriver.Store.Recurring
import RewardsDriver.Store.Find
import RewardsDriver.Store.Count
import RewardsDriver.Store.Gate
import RewardsDriver.Store.LastWrite
import RewardsDriver.Store.Tips
import RewardsDriver.Store.Integrity
import RewardsDriver.Store.Frame
import RewardsDriver.Store.Selection
import RewardsDriver.Service.Lookup
import RewardsDriver.Service.Media
import RewardsDriver.Store.Literal
import RewardsDriver.Store.Window
import RewardsDriver.Store.Orders
import RewardsDriver.Store.Rollback
import RewardsDriver.Store.Durable
import RewardsDriver.Service.Paging
import RewardsDriver.Service.Positions
import RewardsDriver.Tasks.Join
import RewardsDriver.Tasks.Driver
import RewardsDriver.Fetch.Ownership
import RewardsDriver.Fetch.Answered
import RewardsDriver.Fetch.Request
import RewardsDriver.Fetch.Headers
import RewardsDriver.Fetch.Transfer
import RewardsDriver.Service.Shutdown
import RewardsDriver.Service.Observers
import RewardsDriver.Base.Loop
import RewardsDriver.Base.PrefixRange
import RewardsDriver.Base.Sieve
import RewardsDriver.Base.SortedMap
import RewardsDriver.Base.Percent
import RewardsDriver.Base.Traversal
import RewardsDriver.Base.Broadcast
import RewardsDriver.Base.Potential
import RewardsDriver.Base.Word
import RewardsDriver.Backend.Search
import RewardsDriver.Backend.KeyRange
import RewardsDriver.Backend.Windows
import RewardsDriver.Backend.PutGet
import RewardsDriver.Backend.Reads
import RewardsDriver.Service.Encoding
import RewardsDriver.Service.Notify
import RewardsDriver.Service.Relay
import RewardsDriver.Service.Donations
import RewardsDriver.Timer.Allowance
import RewardsDriver.Timer.Ids
import RewardsDriver.Timer.Limit
import RewardsDriver.Timer.Reallocation
import RewardsDriver.Base.Interleaved
import RewardsDriver.Store.Interleaved
