import MysqlPlugin.ColumnLookup
import MysqlPlugin.RowIteration
import MysqlPlugin.StatementStructure
import MysqlPlugin.StatementPreparation
import MysqlPlugin.ParameterFidelity
import MysqlPlugin.LifeCycle
import MysqlPlugin.LostConnection
import MysqlPlugin.AttemptsFirst
import MysqlPlugin.HeldResultSets
import MysqlPlugin.QueryOutcome
import MysqlPlugin.NativeQueries
import MysqlPlugin.CheckedPops
import MysqlPlugin.ScriptConnections
import MysqlPlugin.OrphanedResults
import MysqlPlugin.FieldNatives
import MysqlPlugin.ShutdownDrain
import MysqlPlugin.RateLimits
import MysqlPlugin.ResultRegistry
import MysqlPlugin.IntegerColumns
import MysqlPlugin.CallbackDispatch
import MysqlPlugin.DeliverySchedule
import MysqlPlugin.Locking
import MysqlPlugin.Service
import MysqlPlugin.QueryOrigins
import MysqlPlugin.BoundedWaits
import MysqlPlugin.Unloading
import MysqlPlugin.Callbacks
import MysqlPlugin.Closing
import MysqlPlugin.HeldStrings
import MysqlPlugin.Answers
