import LlbcDatabase.Library.Transition
import LlbcDatabase.Library.CommutingRuns
import LlbcDatabase.AsyncTaskQueue
import LlbcDatabase.Engine
import LlbcDatabase.EngineSteps
import LlbcDatabase.EngineHandshake
import LlbcDatabase.EngineOrder
import LlbcDatabase.EngineFlush
import LlbcDatabase.EngineEpochs
import LlbcDatabase.DBMgr
import LlbcDatabase.EngineDestroy
import LlbcDatabase.MysqlDB
import LlbcDatabase.Library.CString
import LlbcDatabase.Field
import LlbcDatabase.Library.MemoTable
import LlbcDatabase.Record
import LlbcDatabase.MysqlConnect
import LlbcDatabase.CacheTransparency
import LlbcDatabase.StringCells
import LlbcDatabase.ShardConfluence
import LlbcDatabase.ConnectSession
import LlbcDatabase.Library.SqlLexer
import LlbcDatabase.Library.SqlWriting
import LlbcDatabase.Library.SqlAssignment
import LlbcDatabase.SqlUtil
import LlbcDatabase.SqlCondition
import LlbcDatabase.SqlDecode
import LlbcDatabase.Registry
import LlbcDatabase.RegistryMap
import LlbcDatabase.RegistryOwners
import LlbcDatabase.RegistryConfig
import LlbcDatabase.Lifecycle
import LlbcDatabase.RecordSetters
import LlbcDatabase.KeyClause
import LlbcDatabase.RecordWrites
import LlbcDatabase.InsertBinding
import LlbcDatabase.Library.WriteBack
import LlbcDatabase.RecordWriteBack
import LlbcDatabase.IntegerColumns
import LlbcDatabase.ColumnText
import LlbcDatabase.DeleteStatement
import LlbcDatabase.StatementMeaning
import LlbcDatabase.RowIdentity
import LlbcDatabase.FieldBuffer
import LlbcDatabase.ColumnTypes
import LlbcDatabase.QueryRows
import LlbcDatabase.RecordTable
import LlbcDatabase.EngineGuards
import LlbcDatabase.Library.Fifo
import LlbcDatabase.QueueHistory
import LlbcDatabase.KeyGuard
import LlbcDatabase.BuilderOutput
import LlbcDatabase.ReadOnlyRecords
import LlbcDatabase.RecordsetOwners
import LlbcDatabase.Library.ObjectStore
import LlbcDatabase.Library.SqlStatement
import LlbcDatabase.RecordObjects
import LlbcDatabase.RecordRuns
import LlbcDatabase.RowHistories
import LlbcDatabase.EngineProgress
import LlbcDatabase.Library.Ownership
import LlbcDatabase.RecordHeap
import LlbcDatabase.RecordHolders
import LlbcDatabase.ConnectHandles
import LlbcDatabase.DatabaseHandles
import LlbcDatabase.ComponentHandles
import LlbcDatabase.RecordGetters
import LlbcDatabase.Library.OrderedWalk
import LlbcDatabase.RegistryUpdate
