import MysqlConnection.Core.LTS
import MysqlConnection.Core.Literal
import MysqlConnection.Core.Split
import MysqlConnection.Core.SqlLexer
import MysqlConnection.Core.SqlTable
import MysqlConnection.Core.Selection
import MysqlConnection.Core.SqlText
import MysqlConnection.Core.SqlUpdate
import MysqlConnection.L1Foundation.NSString
import MysqlConnection.L2Client.SQLClient
import MysqlConnection.L2Client.Steps
import MysqlConnection.L2Client.Routing
import MysqlConnection.L2Client.Answer
import MysqlConnection.L2Client.OwnHandle
import MysqlConnection.L2Client.Lifecycle
import MysqlConnection.L2Store.DBConnector
import MysqlConnection.L2Store.RoundTrip
import MysqlConnection.L2Store.Frame
import MysqlConnection.L3Screens.Criteria
import MysqlConnection.L3Screens.BuildViewController
import MysqlConnection.L3Screens.MainViewController
import MysqlConnection.L3Screens.OwnDatabase
import MysqlConnection.L3Screens.TableList
import MysqlConnection.L3Screens.AdminTableConfController
import MysqlConnection.L3Screens.CriteriaColumns
import MysqlConnection.L2Store.SoftDelete
import MysqlConnection.L3Screens.CriteriaTable
import MysqlConnection.L2Store.DBInitailize
import MysqlConnection.L3Screens.ConTablesController
import MysqlConnection.L2Store.Labels
import MysqlConnection.Core.TSqlLexer
import MysqlConnection.Core.TSqlSelect
import MysqlConnection.L3Screens.QueryNames
import MysqlConnection.L3Screens.CellTags
import MysqlConnection.Core.Enumerate
import MysqlConnection.L3Screens.ListFilters
import MysqlConnection.Core.TSqlLike
import MysqlConnection.L3Screens.Contains
import MysqlConnection.Core.Calendar
import MysqlConnection.Core.DatePattern
import MysqlConnection.L1Foundation.CommonApi
import MysqlConnection.Core.Cursor
import MysqlConnection.L3Screens.Pagers
import MysqlConnection.Core.SqliteApi
import MysqlConnection.L2Store.FMDatabase
import MysqlConnection.L2Store.FMSteps
import MysqlConnection.L2Store.FMLifecycle
import MysqlConnection.L2Store.FMGate
import MysqlConnection.L2Store.FMReading
import MysqlConnection.L2Store.SQLMgr
import MysqlConnection.L2Store.Registry
import MysqlConnection.L3Screens.MainLists
import MysqlConnection.L3Screens.MainRecords
import MysqlConnection.Core.Heap
import MysqlConnection.L2Client.Results
import MysqlConnection.L2Client.Logins
