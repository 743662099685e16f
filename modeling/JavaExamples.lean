import JavaExamples.Bitwise.DateBitwise
import JavaExamples.Caching.Cache
import JavaExamples.Common.ArrayFill
import JavaExamples.Common.AutoCommit
import JavaExamples.Common.Base64
import JavaExamples.Common.BestWalk
import JavaExamples.Common.BitMask
import JavaExamples.Common.CountVectors
import JavaExamples.Common.DateOrder
import JavaExamples.Common.EditDistance
import JavaExamples.Common.EpochDay
import JavaExamples.Common.ExponentialAverage
import JavaExamples.Common.FallibleFilter
import JavaExamples.Common.FillLoop
import JavaExamples.Common.GreedyMatching
import JavaExamples.Common.HashBucket
import JavaExamples.Common.HeaviestRun
import JavaExamples.Common.InsertIfAbsent
import JavaExamples.Common.IsoDateTime
import JavaExamples.Common.KeyDeletion
import JavaExamples.Common.LastWrite
import JavaExamples.Common.LinkedHashMap
import JavaExamples.Common.LocalDate
import JavaExamples.Common.LuaExpression
import JavaExamples.Common.Md5
import JavaExamples.Common.Median
import JavaExamples.Common.Numbering
import JavaExamples.Common.QGrams
import JavaExamples.Common.References
import JavaExamples.Common.RelativeDistance
import JavaExamples.Common.Renumbering
import JavaExamples.Common.SignedRank
import JavaExamples.Common.SqlColumns
import JavaExamples.Common.TableFill
import JavaExamples.Common.Tally
import JavaExamples.Common.Text
import JavaExamples.Common.Transactions
import JavaExamples.Common.Transition
import JavaExamples.Common.WeightedSum
import JavaExamples.Customers.BalanceTurnover
import JavaExamples.Customers.ManyCustomers
import JavaExamples.Ebean.Completion
import JavaExamples.Ebean.Enlistment
import JavaExamples.Ebean.InMemory
import JavaExamples.Ebean.TransactionManager
import JavaExamples.HashBuckets.PartitionCalc
import JavaExamples.HexFile.Acceptance
import JavaExamples.HexFile.HexMain
import JavaExamples.Jira.Changelog
import JavaExamples.Jira.StatusTimes
import JavaExamples.JsonToLua.Converter
import JavaExamples.JsonToLua.Meaning
import JavaExamples.Jvmti.LocalClassInstanceService
import JavaExamples.Jvmti.ReferenceFilter
import JavaExamples.LiveCollaboration.Delivery
import JavaExamples.LiveCollaboration.Handlers
import JavaExamples.MoneyTransference.Transferences
import JavaExamples.Outbox.Acknowledgement
import JavaExamples.Outbox.HeaderCodec
import JavaExamples.Outbox.HeaderDecoder
import JavaExamples.Outbox.HeaderRoundTrip
import JavaExamples.Outbox.ProducerRecord
import JavaExamples.Outbox.Relay
import JavaExamples.Outbox.Streaming
import JavaExamples.Partitioning.Lookup
import JavaExamples.Partitioning.SkinPrice
import JavaExamples.Partitioning.Tiling
import JavaExamples.SampleWallet.CandidateJob
import JavaExamples.SampleWallet.Creation
import JavaExamples.SampleWallet.Domain
import JavaExamples.SampleWallet.Identifiers
import JavaExamples.SampleWallet.Progress
import JavaExamples.SampleWallet.Ready
import JavaExamples.SampleWallet.Retries
import JavaExamples.SampleWallet.Rows
import JavaExamples.SampleWallet.Statuses
import JavaExamples.Sharding.Accounting
import JavaExamples.Sharding.CustomerBalance
import JavaExamples.Sharding.RoutingStability
import JavaExamples.SimMetrics.ChapmanOrderedNames
import JavaExamples.SimMetrics.CostFunctions
import JavaExamples.SimMetrics.Jaro
import JavaExamples.SimMetrics.JaroWinkler
import JavaExamples.SimMetrics.Levenshtein
import JavaExamples.SimMetrics.LocalTable
import JavaExamples.SimMetrics.MongeElkan
import JavaExamples.SimMetrics.NeedlemanWunch
import JavaExamples.SimMetrics.QGramsDistance
import JavaExamples.SimMetrics.SetSimilarities
import JavaExamples.SimMetrics.SmithWaterman
import JavaExamples.SimMetrics.SmithWatermanGotoh
import JavaExamples.SimMetrics.Soundex
import JavaExamples.SimMetrics.TagLinkToken
import JavaExamples.SimMetrics.TokeniserWhitespace
import JavaExamples.SimMetrics.VectorMetrics
import JavaExamples.Stocks.StockPrice
import JavaExamples.Togglz.Activation
import JavaExamples.Togglz.CacheConvergence
import JavaExamples.Togglz.CacheSoundness
import JavaExamples.Togglz.FeatureState
import JavaExamples.Togglz.FeatureSwitch
import JavaExamples.Togglz.JdbcRepository
import JavaExamples.Togglz.Restriction
import JavaExamples.Togglz.TimedCache
import JavaExamples.Togglz.UserActivation
import JavaExamples.Togglz.WriteFrame
import JavaExamples.Trash.BulkDelete
import JavaExamples.Trend.Algorithms
import JavaExamples.Trend.Cusum
import JavaExamples.Trend.Direction
import JavaExamples.Trend.Ewma
import JavaExamples.Trend.Mirror
import JavaExamples.Trend.TheilSen
