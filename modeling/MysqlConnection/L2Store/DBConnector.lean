import MysqlConnection.Core.SqlText
import MysqlConnection.L1Foundation.NSString

/-!
# The local store

`DBConnector` over `SQLMgr`: the statement texts it builds and the records it
reads back. SQLite is a parameter (`Sqlite`): any engine that does what is
documented for the statements of `Core.SqlTable`; a text without tokens and a
statement the engine refuses leave the store as it is (`executeUpdate`).

The tables are those of `createTables`; nothing reads `Connect`. Their cells
are texts and integers (no NULL). Their texts have no NUL: `stringForColumn:`
would cut one there, and no writer stores one, as a statement ends at its first
NUL. The file can always be opened.
-/
namespace MysqlConnection.L2.DBConnector

open Sql

/-! ## Tables -/

/-- mirrors DBConnector.m:23 -/
def historySchema : Schema where
  name := ns "History"
  key := ns "dbID"
  columns := [(ns "HostName", .text), (ns "UserName", .text), (ns "Password", .text),
    (ns "dbName", .text), (ns "dbPort", .text), (ns "Description", .text), (ns "DateTime", .text),
    (ns "flag", .int)]

/-- mirrors DBConnector.m:35 -/
def querySchema : Schema where
  name := ns "Query"
  key := ns "QueryId"
  columns := [(ns "dbID", .int), (ns "tableName", .text), (ns "columns", .text),
    (ns "SearchRule", .text), (ns "ShowName", .text), (ns "DBName", .text)]

structure Store where
  history : Table
  query : Table

/-- What the documentation says a statement does to the store. -/
def Store.apply (st : Store) (stmt : Statement) : Option Store :=
  if stmt.table = historySchema.name then
    (stmt.effect historySchema st.history).map fun t => { st with history := t }
  else if stmt.table = querySchema.name then
    (stmt.effect querySchema st.query).map fun t => { st with query := t }
  else none

def documented (st : Store) (ts : List Token) : Option Store := (parse ts).bind st.apply

/-- The first statement of a text, given by its tokens; `none` is an error. -/
structure Sqlite where
  exec : Store → List Token → Option Store
  conforms : ∀ st ts st', documented st ts = some st' → exec st ts = some st'

/-- The engine that refuses what is not documented. -/
def strict : Sqlite := ⟨documented, fun _ _ _ h => h⟩

/-! ## Writers -/

section
variable (db : Sqlite) (st : Store)

/-- mirrors SQLMgr.m:57-69 -/
def executeUpdate (sql : NSString) : Store :=
  match tokens sql with
  | none => st
  | some ts => (db.exec st ts).getD st

/-- mirrors DBConnector.m:135 -/
def insertIntoHistory_query (item : Obj_Database) : NSString :=
  ns "insert into History (HostName,UserName,Password,dbName,dbPort,Description,DateTime,flag) values('" ++
    item.dbHost ++ ns "','" ++ item.dbUserName ++ ns "','" ++ item.dbPasswd ++ ns "','" ++
    item.dbName ++ ns "','" ++ item.dbPort ++ ns "','" ++ item.dbDescription ++ ns "','" ++
    item.dbDateStr ++ ns "',1)"

/-- mirrors DBConnector.m:125-142 -/
def insertIntoHistory (item : Obj_Database) : Store :=
  executeUpdate db st (insertIntoHistory_query item)

/-- mirrors DBConnector.m:210 -/
def updateHistory_query (item : Obj_Database) : NSString :=
  ns "update History set HostName = '" ++ item.dbHost ++ ns "',UserName = '" ++ item.dbUserName ++
    ns "',Password = '" ++ item.dbPasswd ++ ns "',dbName = '" ++ item.dbName ++ ns "',dbPort = '" ++
    item.dbPort ++ ns "',Description = '" ++ item.dbDescription ++ ns "',DateTime = '" ++
    item.dbDateStr ++ ns "' where dbID = " ++ item.dbId

/-- mirrors DBConnector.m:201-217 -/
def updateHistory (item : Obj_Database) : Store := executeUpdate db st (updateHistory_query item)

/-- mirrors DBConnector.m:218-231 -/
def AddToHistory (item : Obj_Database) : Store :=
  executeUpdate db st (ns "update History set flag = 1 where dbID = " ++ item.dbId)

/-- mirrors DBConnector.m:232-245 -/
def DeleteFromHistory (item : Obj_Database) : Store :=
  executeUpdate db st (ns "update History set flag = 0 where dbID = " ++ item.dbId)

/-- The name both writers of a query store.
mirrors DBConnector.m:46, 63 -/
def showName (dbName tableName : NSString) : NSString :=
  dbName ++ ns "->" ++ tableName ++ ns "->Search"

/-- mirrors DBConnector.m:46 -/
def insertBuildQuery_query (item : Obj_Database) (tableName columns searchRule : NSString) :
    NSString :=
  ns "insert into Query (dbID,tableName,columns,SearchRule,ShowName,DBName) values(" ++
    intText (intValue item.dbId) ++ ns ",'" ++ tableName ++ ns "','" ++ columns ++ ns "','" ++
    searchRule ++ ns "','" ++ showName item.dbName tableName ++ ns "','" ++ item.dbName ++ ns "')"

/-- mirrors DBConnector.m:44-60 -/
def insertBuildQuery (item : Obj_Database) (tableName columns searchRule : NSString) : Store :=
  executeUpdate db st (insertBuildQuery_query item tableName columns searchRule)

/-- mirrors DBConnector.m:63 -/
def updateBuildQuery_query (item : Obj_Query) : NSString :=
  ns "update Query set dbID = " ++ item.query_dbId ++ ns ",tableName = '" ++ item.query_tableName ++
    ns "',columns = '" ++ item.query_columns ++ ns "',SearchRule = '" ++ item.query_searchRule ++
    ns "',ShowName = '" ++ showName item.query_dbName item.query_tableName ++
    ns "' where QueryId = " ++ item.query_Id

/-- mirrors DBConnector.m:61-77 -/
def updateBuildQuery (item : Obj_Query) : Store := executeUpdate db st (updateBuildQuery_query item)

/-- mirrors DBConnector.m:78-94 -/
def deleteBuildQuery (item : Obj_Query) : Store :=
  executeUpdate db st (ns "delete from Query where QueryId = " ++ item.query_Id)

end

/-! ## Readers -/

/-- mirrors DBConnector.m:157-164 -/
def readDatabase (r : Row) : Obj_Database where
  dbId := natText r.id.val
  dbHost := r.text (ns "HostName")
  dbUserName := r.text (ns "UserName")
  dbPasswd := r.text (ns "Password")
  dbName := r.text (ns "dbName")
  dbPort := r.text (ns "dbPort")
  dbDescription := r.text (ns "Description")
  dbDateStr := r.text (ns "DateTime")

/-- The rows with a flag. -/
def flagged (st : Store) (flag : Int) : List Row :=
  st.history.rows.filter fun r => r.int (ns "flag") = flag

/-- mirrors DBConnector.m:143-171 -/
def getHistoryArray (st : Store) : List Obj_Database := (flagged st 1).map readDatabase

/-- mirrors DBConnector.m:172-200 -/
def getDeletedArray (st : Store) : List Obj_Database := (flagged st 0).map readDatabase

/-- mirrors DBConnector.m:109-115 -/
def readQuery (r : Row) : Obj_Query where
  query_Id := natText r.id.val
  query_dbId := intText (r.int (ns "dbID"))
  query_tableName := r.text (ns "tableName")
  query_columns := r.text (ns "columns")
  query_searchRule := r.text (ns "SearchRule")
  query_showName := r.text (ns "ShowName")
  query_dbName := r.text (ns "DBName")

/-- mirrors DBConnector.m:95-123 -/
def getQuerys (st : Store) : List Obj_Query := st.query.rows.map readQuery

/-! ## Steps of an update -/

theorem executeUpdate_of_read (db : Sqlite) {st st' : Store} {sql : NSString} {stmt : Statement}
    (hr : readStatement sql = some stmt) (h : st.apply stmt = some st') :
    executeUpdate db st sql = st' := by
  rw [readStatement, Option.bind_eq_some_iff] at hr
  obtain ⟨ts, ht, hp⟩ := hr
  have hd : documented st ts = some st' := by
    rw [documented, hp, Option.bind_some, h]
  simp only [executeUpdate, ht, db.conforms st ts st' hd, Option.getD_some]

/-- The strict engine changes the store only as documented. -/
theorem executeUpdate_strict (st : Store) (sql : NSString) :
    executeUpdate strict st sql = st ∨
      ∃ stmt, readStatement sql = some stmt ∧ st.apply stmt = some (executeUpdate strict st sql) := by
  cases ht : tokens sql with
  | none => left; simp only [executeUpdate, ht]
  | some ts =>
    cases hd : documented st ts with
    | none => left; simp only [executeUpdate, ht, strict, hd, Option.getD_none]
    | some st' =>
      right
      rw [documented, Option.bind_eq_some_iff] at hd
      obtain ⟨stmt, hp, ha⟩ := hd
      refine ⟨stmt, ?_, ?_⟩
      · rw [readStatement, ht]; exact hp
      · simp only [executeUpdate, ht, strict, documented, hp, ha, Option.bind_some, Option.getD_some]

theorem apply_history {st : Store} {stmt : Statement} (hn : stmt.table = historySchema.name) :
    st.apply stmt =
      (stmt.effect historySchema st.history).map fun t => { st with history := t } := by
  rw [Store.apply, if_pos hn]

theorem apply_query {st : Store} {stmt : Statement} (hn : stmt.table = querySchema.name) :
    st.apply stmt = (stmt.effect querySchema st.query).map fun t => { st with query := t } := by
  have hne : querySchema.name ≠ historySchema.name := by decide
  rw [Store.apply, hn, if_neg hne, if_pos rfl]

end MysqlConnection.L2.DBConnector
