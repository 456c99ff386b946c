import MysqlConnection.Core.Call
import MysqlConnection.Core.SqliteApi
import MysqlConnection.L1Foundation.NSString

/-!
# `FMDatabase`, `FMStatement` and `FMResultSet`

The wrapper around SQLite that `SQLMgr` uses: one database object with its
statement cache and the result sets made from it. Objects are named by their
index, statements of SQLite by their pointer. `FMStatement close` and `reset`
call nothing of SQLite here, so only `executeUpdate` and `close` of the database
finalize statements.

A call returns, raises an exception, aborts the program (`assert`) or uses a
finalized statement, which is undefined. `busy` in a label is how often SQLite
answers `SQLITE_BUSY` before it answers otherwise. `byUpdate` and `era` are
ghosts. Arguments come in an array (`withArgumentsInArray:`).

Left out are what is only logged, the calls that read a text, a number or a
flag back (`lastInsertRowId` among them), `setCachedStatements:`, and how long
a text lives that is bound with `SQLITE_STATIC`. `open` gives its handle to an
object that has none: a second `open` would overwrite the first handle.
-/
namespace MysqlConnection.L2.FM

open Sqlite3

/-! ## Values -/

/-- A value of a parameter; a double by its bits. -/
inductive Value where
  | null
  | integer (i : Int)
  | real (bits : UInt64)
  | text (t : NSString)
  | blob (bytes : List UInt8)
  deriving DecidableEq, Repr

/-- An `NSNumber` by its `objCType`. -/
inductive Number where
  | bool (b : Bool)
  | int (i : Int)
  | long (i : Int)
  | longLong (i : Int)
  | float (bits : UInt64)
  | double (bits : UInt64)
  | other (description : NSString)
  deriving DecidableEq, Repr

inductive Obj where
  | null
  | data (bytes : List UInt8)
  | date (bits : UInt64)
  | number (n : Number)
  | other (description : NSString)
  deriving DecidableEq, Repr

/-- `sqlite3_bind_text` with length -1 reads up to the first NUL. -/
def cString (t : NSString) : NSString := t.takeWhile (· ≠ '\x00')

/-- mirrors FMDatabase.m:222-262 -/
def bindObject : Obj → Value
  | .null => .null
  | .data bytes => .blob bytes
  | .date bits => .real bits
  | .number (.bool b) => .integer (if b then 1 else 0)
  | .number (.int i) => .integer i
  | .number (.long i) => .integer i
  | .number (.longLong i) => .integer i
  | .number (.float bits) => .real bits
  | .number (.double bits) => .real bits
  | .number (.other description) => .text (cString description)
  | .other description => .text (cString description)

/-! ## State -/

/-- `sqlite3_open` gives a handle also when it fails. -/
inductive Handle where
  | null
  | failed
  | opened
  deriving DecidableEq, Repr

/-- `byUpdate`: made by `executeUpdate`; `era`: how often the database was
closed before.
mirrors FMDatabase.h:98-102 -/
structure FMStatement where
  statement : Option Nat
  byUpdate : Bool
  era : Nat
  deriving DecidableEq, Repr

/-- mirrors FMResultSet.h:7-14 -/
structure FMResultSet where
  statement : Option Nat
  parentDB : Bool
  columnNameToIndexMap : List (NSString × Nat)
  columnNamesSetup : Bool
  deriving DecidableEq, Repr

/-- `file` is what the connection sees, `errcode` the answer to the last call
of SQLite. `assertions`: the build has `NSAssert`, as Debug, but not Release.
No dictionary is an empty one: it is only written while `shouldCacheStatements`
is on.
mirrors FMDatabase.h:15-27 -/
structure St (D C : Type) where
  file : D
  db : Handle
  stmts : Mem Value C
  errcode : Code
  assertions : Bool
  logsErrors : Bool
  crashOnErrors : Bool
  inUse : Bool
  inTransaction : Bool
  busyRetryTimeout : Int32
  shouldCacheStatements : Bool
  cachedStatements : List (NSString × Nat)
  statements : List FMStatement
  resultSets : List FMResultSet
  era : Nat

/-- mirrors FMDatabase.m:18-30 -/
def initWithPath {D C : Type} (file : D) : St D C where
  file := file
  db := .null
  stmts := []
  errcode := .ok
  assertions := true
  logsErrors := false
  crashOnErrors := false
  inUse := false
  inTransaction := false
  busyRetryTimeout := 0
  shouldCacheStatements := false
  cachedStatements := []
  statements := []
  resultSets := []
  era := 0

section
variable {D C : Type} (e : Engine D Value C) (s : St D C)

/-! ## The busy loops -/

/-- Whether a loop gives up that is answered `SQLITE_BUSY` so many times;
`retries` is `numberOfRetries`, which wraps after the largest `int`.
mirrors FMDatabase.m:292-328, 427-460, 498-532 and FMResultSet.m:80-116 -/
def givesUp (timeout : Int32) : Int32 → Nat → Bool
  | _, 0 => false
  | retries, busy + 1 =>
    if timeout = 0 then givesUp timeout retries busy
    else if timeout < retries then true
    else givesUp timeout (retries + 1) busy

/-! ## Preparing and binding -/

/-- mirrors FMDatabase.m:122-124, 283-286, 415-418 -/
def cachedStatementForQuery (sql : NSString) : Option Nat :=
  if s.shouldCacheStatements then s.cachedStatements.lookup sql else none

/-- mirrors FMDatabase.m:729-731 -/
def pointer (statement : Nat) : Option Nat := s.statements[statement]?.bind (·.statement)

inductive Prepared where
  | failed (c : Code)
  | ready (p : Option Nat)
  deriving DecidableEq, Repr

/-- mirrors FMDatabase.m:291-329, 423-461 -/
def prepareLoop (sql : NSString) (busy : Nat) : St D C × Prepared :=
  match s.db with
  | .opened =>
    if givesUp s.busyRetryTimeout 0 busy then ({ s with errcode := .busy }, .failed .busy)
    else if e.blank sql then ({ s with errcode := .ok }, .ready none)
    else
      match e.compile s.file sql with
      | .error n => ({ s with errcode := .error n }, .failed (.error n))
      | .ok c =>
        ({ s with errcode := .ok, stmts := s.stmts ++ [some (Stmt.ofCompiled e sql c)] },
          .ready (some s.stmts.length))
  | _ => (s, .failed .misuse)

/-- A cached statement, or a new one.
mirrors FMDatabase.m:283-329, 415-461 -/
def prepare (statement : Option Nat) (sql : NSString) (busy : Nat) : St D C × Prepared :=
  match statement.bind (pointer s) with
  | some p => (s, .ready (some p))
  | none => prepareLoop e s sql busy

/-- The loop over the parameters from the one after the first `idx`; whether
the arguments are enough.
mirrors FMDatabase.m:335-351, 468-485 -/
def bindLoop (args : List Obj) : Nat → Nat → Stmt Value C → Stmt Value C × Bool
  | 0, _, st => (st, true)
  | n + 1, idx, st =>
    match args[idx]? with
    | none => (st, false)
    | some obj => bindLoop args n (idx + 1) (st.bind idx (bindObject obj))

/-- `objectAtIndex:` raises if there are too few arguments.
mirrors FMDatabase.m:331-358, 464-492 -/
def bindArguments (p : Option Nat) (args : List Obj) : Call (St D C) Unit :=
  match p with
  | none => .returned () s
  | some p =>
    match s.stmts.get p with
    | none => .undefined
    | some st =>
      let r := bindLoop args st.bound.length 0 st
      let s' := { s with stmts := s.stmts.put p r.1 }
      if r.2 then .returned () s' else .raised s'

/-- mirrors FMDatabase.m:184-190, 266-269, 400-403 -/
def complainAboutInUse {α : Type} (a : α) : Call (St D C) α :=
  if s.crashOnErrors ∧ s.assertions then .raised s else .returned a s

/-- After a failed preparation.
mirrors FMDatabase.m:300-306, 311-325, 432-437, 443-457 -/
def prepareFailed {α : Type} (c : Code) (a : α) : Call (St D C) α :=
  if c ≠ .busy ∧ s.logsErrors ∧ s.crashOnErrors ∧ s.assertions then .raised s
  else .returned a { s with inUse := false }

/-! ## Queries -/

/-- mirrors FMDatabase.m:126-132 -/
def setCachedStatement (statement : Nat) (sql : NSString) : St D C :=
  { s with cachedStatements := (sql, statement) :: s.cachedStatements }

/-- mirrors FMResultSet.m:12-20 -/
def resultSetWithStatement (statement : Nat) : FMResultSet where
  statement := some statement
  parentDB := true
  columnNameToIndexMap := []
  columnNamesSetup := false

/-- The `FMStatement` of the pointer, put in the cache if that is on.
mirrors FMDatabase.m:362-369, 537-545 -/
def newStatement (sql : NSString) (p : Option Nat) (byUpdate : Bool) : St D C :=
  let s' := { s with statements := s.statements ++ [⟨p, byUpdate, s.era⟩] }
  if s.shouldCacheStatements then setCachedStatement s' s.statements.length sql else s'

/-- mirrors FMDatabase.m:362-381 -/
def openResultSet (sql : NSString) (statement p : Option Nat) : St D C :=
  match statement with
  | some o => { s with resultSets := s.resultSets ++ [resultSetWithStatement o], inUse := false }
  | none =>
    let s' := newStatement s sql p false
    { s' with
      resultSets := s.resultSets ++ [resultSetWithStatement s.statements.length], inUse := false }

/-- Gives the index of the result set, or `nil`.
mirrors FMDatabase.m:264-382 -/
def executeQuery (sql : NSString) (args : List Obj) (busy : Nat) : Call (St D C) (Option Nat) :=
  if s.inUse then complainAboutInUse s none
  else
    let statement := cachedStatementForQuery s sql
    match prepare e { s with inUse := true } statement sql busy with
    | (s₁, .failed c) => prepareFailed s₁ c none
    | (s₁, .ready p) =>
      (bindArguments s₁ p args).bind fun _ s₂ =>
        .returned (some s₂.resultSets.length) (openResultSet s₂ sql statement p)

/-! ## Updates -/

/-- A `sqlite3_step` of the statement that is not answered `SQLITE_BUSY`. -/
def afterStep (p : Nat) (st : Stmt Value C) : St D C :=
  { s with
    stmts := s.stmts.put p (st.step e s.file).2.1
    file := (st.step e s.file).2.2
    errcode := (st.step e s.file).1 }

/-- One that is. -/
def afterBusy (p : Nat) (st : Stmt Value C) : St D C :=
  { s with stmts := s.stmts.put p st.busyStep, errcode := .busy }

/-- The loop around `sqlite3_step`; a row ends the program.
mirrors FMDatabase.m:497-534 -/
def stepUpdate (p : Option Nat) (busy : Nat) : Call (St D C) Unit :=
  match p with
  | none => .returned () s
  | some p =>
    match s.stmts.get p with
    | none => .undefined
    | some st =>
      if givesUp s.busyRetryTimeout 0 busy then .returned () (afterBusy s p st)
      else if (st.step e s.file).1 = .row then .aborted
      else .returned () (afterStep e s p st)

/-- What `sqlite3_reset` and `sqlite3_finalize` answer. -/
def resetCode (p : Option Nat) : Code :=
  match p.bind s.stmts.get with
  | none => .ok
  | some st => st.resetCode

/-- `sqlite3_reset` -/
def resetStmt (p : Option Nat) : St D C :=
  match p with
  | none => s
  | some q =>
    match s.stmts.get q with
    | none => s
    | some st => { s with stmts := s.stmts.put q st.reset, errcode := resetCode s p }

/-- `sqlite3_finalize` -/
def finalizeStmt (p : Option Nat) : St D C :=
  match p with
  | none => s
  | some q => { s with stmts := s.stmts.finalize q, errcode := resetCode s p }

/-- A statement that was cached before is reset. Any other one is finalized,
also when it has just been put in the cache.
mirrors FMDatabase.m:537-560 -/
def finishUpdate (sql : NSString) (cachedStmt p : Option Nat) : Call (St D C) Bool :=
  let rc := resetCode s p
  let s' :=
    match cachedStmt with
    | some _ => resetStmt s p
    | none => finalizeStmt (if s.shouldCacheStatements then newStatement s sql p true else s) p
  .returned (decide (rc = .ok)) { s' with inUse := false }

/-- mirrors FMDatabase.m:398-561 -/
def executeUpdate (sql : NSString) (args : List Obj) (busy busyStep : Nat) : Call (St D C) Bool :=
  if s.inUse then complainAboutInUse s false
  else
    let cachedStmt := cachedStatementForQuery s sql
    match prepare e { s with inUse := true } cachedStmt sql busy with
    | (s₁, .failed c) => prepareFailed s₁ c false
    | (s₁, .ready p) =>
      (bindArguments s₁ p args).bind fun _ s₂ =>
        (stepUpdate e s₂ p busyStep).bind fun _ s₃ => finishUpdate s₃ sql cachedStmt p

/-! ## Transactions -/

/-- The flag after a statement that succeeded.
mirrors FMDatabase.m:587-617 -/
def withFlag (flag : Bool) (sql : NSString) (busy busyStep : Nat) : Call (St D C) Bool :=
  (executeUpdate e s sql [] busy busyStep).bind fun b s' =>
    .returned b (if b then { s' with inTransaction := flag } else s')

/-- mirrors FMDatabase.m:587-593 -/
def rollback (busy busyStep : Nat) : Call (St D C) Bool :=
  withFlag e s false (ns "ROLLBACK TRANSACTION;") busy busyStep

/-- mirrors FMDatabase.m:595-601 -/
def commit (busy busyStep : Nat) : Call (St D C) Bool :=
  withFlag e s false (ns "COMMIT TRANSACTION;") busy busyStep

/-- mirrors FMDatabase.m:603-609 -/
def beginDeferredTransaction (busy busyStep : Nat) : Call (St D C) Bool :=
  withFlag e s true (ns "BEGIN DEFERRED TRANSACTION;") busy busyStep

/-- mirrors FMDatabase.m:611-617 -/
def beginTransaction (busy busyStep : Nat) : Call (St D C) Bool :=
  withFlag e s true (ns "BEGIN EXCLUSIVE TRANSACTION;") busy busyStep

/-! ## Opening, closing, settings -/

/-- mirrors FMDatabase.m:51-59 -/
def openDb (error : Option Nat) : Call (St D C) Bool :=
  match error with
  | none => .returned true { s with db := .opened, errcode := .ok }
  | some n => .returned false { s with db := .failed, errcode := .error n }

/-- `[cachedStmt close]` of each, which only forgets the pointer.
mirrors FMDatabase.m:110-120, 716-721 -/
def clearCachedStatements : St D C :=
  { s with
    statements := s.statements.mapIdx fun o st =>
      if o ∈ s.cachedStatements.map (·.2) then { st with statement := none } else st
    cachedStatements := [] }

/-- The statements that are left are finalized.
mirrors FMDatabase.m:73-108 -/
def close : St D C :=
  let s' := clearCachedStatements s
  if s.db = .null then s'
  else
    { s' with
      db := .null, stmts := s'.stmts.finalizeAll, file := e.close s'.file, era := s'.era + 1 }

/-- mirrors FMDatabase.m:675-686 -/
def setShouldCacheStatements (value : Bool) : St D C :=
  { s with
    shouldCacheStatements := value
    cachedStatements := if value then s.cachedStatements else [] }

/-- mirrors FMDatabase.m:202-204 -/
def lastErrorCode : Code := if s.db = .null then .error 7 else s.errcode

/-- mirrors FMDatabase.m:196-200 -/
def hadError : Bool := (lastErrorCode s).isError

/-! ## Result sets -/

/-- mirrors FMResultSet.m:31-39 -/
def closeResultSet (i : Nat) : St D C :=
  { s with resultSets := s.resultSets.modify i fun rs => { rs with statement := none, parentDB := false } }

/-- The statement of SQLite that a result set reads. -/
def resultPointer (i : Nat) : Option Nat :=
  s.resultSets[i]?.bind fun rs => rs.statement.bind (pointer s)

/-- `[parentDB busyRetryTimeout]`, 0 without a parent. -/
def timeout (i : Nat) : Int32 := if s.resultSets[i]?.any (·.parentDB) then s.busyRetryTimeout else 0

/-- mirrors FMResultSet.m:75-124 -/
def next (i busy : Nat) : Call (St D C) Bool :=
  match resultPointer s i with
  | none => .returned false (closeResultSet s i)
  | some p =>
    match s.stmts.get p with
    | none => .undefined
    | some st =>
      if givesUp (timeout s i) 0 busy then .returned false (closeResultSet (afterBusy s p st) i)
      else if (st.step e s.file).1 = .row then .returned true (afterStep e s p st)
      else .returned false (closeResultSet (afterStep e s p st) i)

end

/-! ## Columns -/

section
variable {D C : Type} (lowercaseString : NSString → NSString) (s : St D C)

/-- The names of the columns of a result set, none if it is closed. A finalized
statement must not be asked.
mirrors FMResultSet.m:47-52 -/
def columnNames (i : Nat) : Option (List NSString) :=
  match resultPointer s i with
  | none => some []
  | some p => (s.stmts.get p).map (·.columns)

/-- `setObject:forKey:` for each name from index `k` on; the last one counts.
mirrors FMResultSet.m:49-53 -/
def addNames : List NSString → Nat → List (NSString × Nat) → List (NSString × Nat)
  | [], _, map => map
  | name :: names, k, map => addNames names (k + 1) ((lowercaseString name, k) :: map)

/-- mirrors FMResultSet.m:41-55 -/
def setupColumnNames (i : Nat) : Call (St D C) Unit :=
  match columnNames s i with
  | none => .undefined
  | some names =>
    .returned () { s with
      resultSets := s.resultSets.modify i fun rs =>
        { rs with
          columnNameToIndexMap := addNames lowercaseString names 0 rs.columnNameToIndexMap
          columnNamesSetup := true } }

/-- The index the map has for a name; `none` is -1.
mirrors FMResultSet.m:135-148 -/
def mappedIndex (i : Nat) (columnName : NSString) : Option Nat :=
  s.resultSets[i]?.bind fun rs => rs.columnNameToIndexMap.lookup (lowercaseString columnName)

/-- mirrors FMResultSet.m:130-149 -/
def columnIndexForName (i : Nat) (columnName : NSString) : Call (St D C) (Option Nat) :=
  if s.resultSets[i]?.all (·.columnNamesSetup) then
    .returned (mappedIndex lowercaseString s i columnName) s
  else
    (setupColumnNames lowercaseString s i).bind fun _ s' =>
      .returned (mappedIndex lowercaseString s' i columnName) s'

/-- `columnText` is the text SQLite makes of a value, none of NULL.
mirrors FMResultSet.m:191-206 -/
def stringForColumnIndex (columnText : C → Option NSString) (i : Nat) (columnIdx : Option Nat) :
    Call (St D C) (Option NSString) :=
  match resultPointer s i with
  | none => .returned none s
  | some p =>
    match s.stmts.get p with
    | none => .undefined
    | some st => .returned (columnIdx.bind fun k => st.row[k]?.bind columnText) s

/-- mirrors FMResultSet.m:209-211 -/
def stringForColumn (columnText : C → Option NSString) (i : Nat) (columnName : NSString) :
    Call (St D C) (Option NSString) :=
  (columnIndexForName lowercaseString s i columnName).bind fun columnIdx s' =>
    stringForColumnIndex s' columnText i columnIdx

end
end MysqlConnection.L2.FM
