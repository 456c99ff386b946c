import MysqlConnection.Core.LTS
import MysqlConnection.L1Foundation.NSString

/-!
# `MySqlServerConnection` over `SQLClient`: two queues and one connection

`MySqlServerConnection` is one singleton with one `delegate`, one
`signal_id` and one set of credentials. A request is `getInstance:` followed
by one of eight methods; each method calls `SQLClient connect:` with a
completion block that calls `execute:` with a completion block that calls
`disconnect` and answers the delegate. `SQLClient` is one singleton, too: one
`login`, one `connection`, the saved inputs `host`, `username`, `password`
and `database`.

`connect:` and `execute:` add a block to the worker queue, an
`NSOperationQueue` without a limit on concurrent operations, so the blocks on
it interleave. A block on the worker queue is a `Task` with a program counter
(`ConnectPc`, `ExecutePc`): one step is one FreeTDS call or one access to the
shared fields. The outcome of a call is chosen by the label (`Outcome`). The
completions run on the callback queue, the main queue, where the user's
actions run as well, so each of them is one step (`Callback`, `Label`). Any
pending completion may run next; the main queue's own order is one of these
orders.

After its completion is enqueued a worker block still has a cleanup call to
make: `dbloginfree` for `connect:`, `dbfreebuf` for `execute:`. It then stays
on the worker queue as `Task.dbloginfree` or `Task.dbfreebuf`.

FreeTDS is outside the repository. Its part here is what its documentation
says: `dblogin` and `dbopen` return a fresh pointer, `dbcmd` adds text to the
command buffer of the handle (emptied first if it was already sent),
`dbsqlexec` sends the buffer, `dbfreebuf` empties it, `dbclose` closes the
handle. Every call is recorded in `log` with the handle it was made on. `dbcmd`,
`DBSETLUSER`, `DBSETLPWD` and `DBSETLHOST` are taken to succeed, which the code
does not check: they fail when there is no memory or a text is too long.

`err_handler`, `msg_handler` and the two blocks that forward their texts
touch neither a handle nor a completion and are left out.
-/
namespace MysqlConnection.L2.Client

/-- One row: column name and value (`none` is `NSNull`).
mirrors SQLClient.m:219-228 -/
abbrev Row := List (NSString × Option NSString)

abbrev Table := List Row

/-- What `execute:` hands to its completion: one table per result set. -/
abbrev Tables := List Table

/-- An element of the `NSArray` handed to a receiver. -/
inductive Item where
  | table (rows : Table)
  | text (s : NSString)
  | null
  deriving DecidableEq, Repr

/-- `m_host`, `m_userName`, `m_password`, `m_schemaName`.
mirrors MySqlServerConnection.h:18-21 -/
structure Creds where
  host : NSString
  username : NSString
  password : NSString
  schema : NSString
  deriving DecidableEq, Repr

/-! ## The eight request methods -/

/-- mirrors MySqlServerConnection.h:38-48 -/
inductive Method where
  | getTableNamesInSchema
  | getColumNamesInTable (tableName : NSString)
  | exeQuery (query : NSString)
  | createAdminConfTable
  | getConfStringInTable (tableName : NSString)
  | admin_conf_mgr_isSet (tableName : NSString)
  | update_admin_conf_mgr (tableName confData : NSString)
  | insert_admin_conf_mgr (tableName confData : NSString)
  deriving DecidableEq, Repr

/-- The text the method passes to `execute:`.
mirrors MySqlServerConnection.m:75-252 -/
def Method.query : Method → NSString
  | .getTableNamesInSchema => ns "select name,type from sys.tables order by name desc"
  | .getColumNamesInTable t =>
    ns "select * from sys.columns where object_id=OBJECT_ID('" ++ t ++ ns "')"
  | .exeQuery q => q
  | .createAdminConfTable =>
    ns "if not exists (select * from INFORMATION_SCHEMA.TABLES where table_name='admin_conf_mgr') create table admin_conf_mgr (tableName varchar(100),conf varchar(400))"
  | .getConfStringInTable t => ns "select * from admin_conf_mgr where tableName = '" ++ t ++ ns "'"
  | .admin_conf_mgr_isSet t =>
    ns "select count(*) from admin_conf_mgr where tableName = '" ++ t ++ ns "'"
  | .update_admin_conf_mgr t c =>
    ns "update admin_conf_mgr set conf = '" ++ c ++ ns "' where tableName = '" ++ t ++ ns "'"
  | .insert_admin_conf_mgr t c =>
    ns "insert into admin_conf_mgr (tableName,conf) values ('" ++ t ++ ns "','" ++ c ++ ns "')"

/-- `m_resultArray` when `nil` results are replaced by `other`. -/
def orElse (other : List Item) : Option Tables → List Item
  | none => other
  | some r => r.map .table

/-- `objectForKey:` put into a one-element array; `initWithObjects:nil` is
the empty array. -/
def confItem (row : Row) : List Item :=
  match row.lookup (ns "conf") with
  | none => []
  | some none => [.null]
  | some (some s) => [.text s]

/-- `getConfStringInTable`: the `conf` of the first row, `@""` if there is none.
mirrors MySqlServerConnection.m:170-182 -/
def confResult : Option Tables → List Item
  | none => [.text []]
  | some [] => [.text []]
  | some ([] :: _) => [.text []]
  | some ((row :: _) :: _) => confItem row

/-- The value of `m_resultArray` the method's completion block leaves.
mirrors MySqlServerConnection.m:75-252 -/
def Method.result : Method → Option Tables → List Item
  | .createAdminConfTable => orElse [.text []]
  | .getConfStringInTable _ => confResult
  | _ => orElse []

/-! ## State -/

section
variable (ρ : Type)

/-- One request. The receiver and the signal id are the ones passed to
`getInstance:`, the credentials those stored when the method was called. -/
structure Request where
  id : Nat
  receiver : ρ
  signalId : Int
  creds : Creds
  method : Method
  deriving DecidableEq, Repr

/-- `LOGINREC`. -/
structure Login where
  user : Option NSString
  pwd : Option NSString
  lhost : Option NSString
  deriving DecidableEq, Repr

/-- `DBPROCESS`. `openedBy` is the request whose block called `dbopen`,
`buffer` the requests whose text is in the command buffer. -/
structure Handle where
  openedBy : Nat
  host : NSString
  login : Option Login
  database : Option NSString
  buffer : List (Request ρ)
  sent : Bool
  isOpen : Bool
  deriving DecidableEq, Repr

/-- Where a `connect:` block is. `failure` and `success` are about to enqueue
the completion. -/
inductive ConnectPc where
  | dblogin | setUser | setPwd | setHost | dbopen | dbuse | failure | success
  deriving DecidableEq, Repr

/-- The calls made for each column. -/
inductive BindCall where
  | dbcolname | dbcoltype | dbcollen | dbbind | dbnullbind
  deriving DecidableEq, Repr

/-- Where an `execute:` block is. `out` are the finished tables, `tbl` the
rows of the current one, `c` of `ncols` the current column. `report` is about
to enqueue the completion (`none` after `executionFailure:`). -/
inductive ExecutePc where
  | dbcmd
  | dbsqlexec
  | dbresults (out : Tables)
  | dbnumcols (out : Tables)
  | bind (k : BindCall) (out : Tables) (ncols c : Nat)
  | dbnextrow (out : Tables) (tbl : Table)
  | report (results : Option Tables)
  deriving DecidableEq, Repr

/-- A block on the worker queue. -/
inductive Task where
  | connect (r : Request ρ) (pc : ConnectPc)
  | execute (r : Request ρ) (pc : ExecutePc)
  | dbloginfree (r : Request ρ)
  | dbfreebuf (r : Request ρ)
  deriving DecidableEq, Repr

/-- A block on the callback queue. -/
inductive Callback where
  | connectionFailure (r : Request ρ)
  | connectionSuccess (r : Request ρ)
  | execution (r : Request ρ) (results : Option Tables)
  deriving DecidableEq, Repr

/-- FreeTDS calls that take a handle, `dbclose` apart. -/
inductive Call where
  | dbuse | dbdead | dbcmd | dbsqlexec | dbresults | dbnumcols
  | bind (k : BindCall)
  | dbnextrow | dbfreebuf
  deriving DecidableEq, Repr

/-- What can be observed. `closed` says that the handle was closed before the
call; `info` is the handle the text was sent on, as it was then; `owner` is
the request that opened the closed handle and `running` whether its query had
not finished yet. -/
inductive Event where
  | call (f : Call) (h : Option Nat) (closed : Bool)
  | executed (r : Request ρ) (h : Nat) (info : Handle ρ)
  | dbclose (closer : Request ρ) (h : Option Nat) (closed : Bool) (owner : Option Nat) (running : Bool)
  | connected (r : Request ρ) (ok : Bool)
  | finished (r : Request ρ) (ok : Bool)
  | recivedDataArray (r : Request ρ) (receiver : ρ) (result : List Item) (res : Bool) (signalId : Int)
  deriving DecidableEq, Repr

/-- `creds` to `m_resultArray` are the fields of `MySqlServerConnection`,
`input` to `connection` those of `SQLClient` (`input` are its saved `host`,
`username`, `password` and `database`). -/
structure St where
  creds : Creds
  delegate : ρ
  signal_id : Int
  m_resultArray : Option (List Item)
  input : Creds
  login : Option Nat
  connection : Option Nat
  logins : List Login
  handles : List (Handle ρ)
  workerQueue : List (Task ρ)
  callbackQueue : List (Callback ρ)
  issued : List (Request ρ)
  log : List (Event ρ)
  deriving DecidableEq, Repr

/-- What a worker step's call returns. `done` is `NO_MORE_RESULTS` and
`NO_MORE_ROWS`, `cols n` the value of `dbnumcols`, `row` a regular row, `ok`
after `dbnextrow` a row of an unknown type. `fail` after `dbnumcols` and
`dbcollen` is a failed `calloc`. -/
inductive Outcome where
  | ok
  | fail
  | done
  | cols (n : Nat)
  | row (r : Row)
  deriving DecidableEq, Repr

/-- `connected` is what `[self connected]` returns. -/
inductive Label where
  | createInstance (c : Creds) (reciver : ρ)
  | request (reciver : ρ) (signalId : Int) (m : Method)
  | worker (i : Nat) (o : Outcome)
  | callback (i : Nat) (connected : Bool)
  deriving DecidableEq, Repr

end

variable {ρ : Type}

/-- The singleton right after it was created. -/
def start (c : Creds) (reciver : ρ) : St ρ :=
  ⟨c, reciver, 0, none, ⟨[], [], [], []⟩, none, none, [], [], [], [], [], []⟩

/-! ## FreeTDS -/

/-- `connection`, if it points to a handle. -/
def St.handle? (s : St ρ) : Option (Handle ρ) := s.connection.bind (s.handles[·]?)

/-- The handle was closed before. -/
def St.isClosed (s : St ρ) : Bool := s.handle?.any fun h => !h.isOpen

/-- Record a call on `connection`. -/
def St.call (s : St ρ) (f : Call) : St ρ := { s with log := s.log ++ [.call f s.connection s.isClosed] }

/-- Change the handle `connection` points to. -/
def St.setHandle (s : St ρ) (f : Handle ρ → Handle ρ) : St ρ :=
  match s.connection with
  | none => s
  | some h => { s with handles := s.handles.modify h f }

/-- `DBSETLUSER` and its kind, on the record `login` points to. -/
def St.setLogin (s : St ρ) (f : Login → Login) : St ρ :=
  match s.login with
  | none => s
  | some l => { s with logins := s.logins.modify l f }

def St.dbopen (s : St ρ) (r : Request ρ) : St ρ :=
  { s with
    connection := some s.handles.length
    handles := s.handles ++
      [⟨r.id, s.input.host, s.login.bind (s.logins[·]?), none, [], false, true⟩] }

def Handle.addText (r : Request ρ) (h : Handle ρ) : Handle ρ :=
  if h.sent then { h with buffer := [r], sent := false } else { h with buffer := h.buffer ++ [r] }

/-- The texts in the command buffer are executed on the handle; a buffer that
was already sent is not sent again. -/
def St.sendBuffer (s : St ρ) : St ρ :=
  match s.connection, s.handle? with
  | some h, some info =>
    if info.sent then s
    else
      ({ s with log := s.log ++ info.buffer.map fun r => Event.executed r h info }).setHandle
        fun i => { i with sent := true }
  | _, _ => s

def Handle.freeBuffer (h : Handle ρ) : Handle ρ := { h with buffer := [], sent := false }

/-! ## Worker queue -/

/-- The block of `connect:`.
mirrors SQLClient.m:97-122, 260-285 -/
def connectStep (s : St ρ) (r : Request ρ) : ConnectPc → Outcome → Option (St ρ × Option (Task ρ))
  | .dblogin, .ok =>
    some ({ s with login := some s.logins.length, logins := s.logins ++ [⟨none, none, none⟩] },
      some (.connect r .setUser))
  | .dblogin, .fail => some ({ s with login := none }, some (.connect r .failure))
  | .setUser, .ok =>
    some (s.setLogin fun l => { l with user := some s.input.username }, some (.connect r .setPwd))
  | .setPwd, .ok =>
    some (s.setLogin fun l => { l with pwd := some s.input.password }, some (.connect r .setHost))
  | .setHost, .ok =>
    some (s.setLogin fun l => { l with lhost := some s.input.host }, some (.connect r .dbopen))
  | .dbopen, .ok => some (s.dbopen r, some (.connect r .dbuse))
  | .dbopen, .fail => some ({ s with connection := none }, some (.connect r .failure))
  | .dbuse, .ok =>
    some ((s.call .dbuse).setHandle fun h => { h with database := some s.input.schema },
      some (.connect r .success))
  | .dbuse, .fail => some (s.call .dbuse, some (.connect r .failure))
  | .failure, .ok =>
    some ({ s with callbackQueue := s.callbackQueue ++ [.connectionFailure r] }, some (.dbloginfree r))
  | .success, .ok =>
    some ({ s with callbackQueue := s.callbackQueue ++ [.connectionSuccess r] }, some (.dbloginfree r))
  | _, _ => none

/-- The next call for column `c` of `ncols`; after the last column the rows. -/
def nextBind (out : Tables) (ncols c : Nat) : ExecutePc :=
  if c < ncols then .bind .dbcolname out ncols c else .dbnextrow out []

/-- The block of `execute:`.
mirrors SQLClient.m:132-252, 287-307 -/
def executeStep (s : St ρ) (r : Request ρ) : ExecutePc → Outcome → Option (St ρ × Option (Task ρ))
  | .dbcmd, .ok => some ((s.call .dbcmd).setHandle (Handle.addText r), some (.execute r .dbsqlexec))
  | .dbsqlexec, .ok => some ((s.call .dbsqlexec).sendBuffer, some (.execute r (.dbresults [])))
  | .dbsqlexec, .fail => some ((s.call .dbsqlexec).sendBuffer, some (.execute r (.report none)))
  | .dbresults out, .ok => some (s.call .dbresults, some (.execute r (.dbnumcols out)))
  -- `FAIL` is not told apart from a result set
  | .dbresults out, .fail => some (s.call .dbresults, some (.execute r (.dbnumcols out)))
  | .dbresults out, .done => some (s.call .dbresults, some (.execute r (.report (some out))))
  | .dbnumcols out, .cols n => some (s.call .dbnumcols, some (.execute r (nextBind out n 0)))
  | .dbnumcols _, .fail => some (s.call .dbnumcols, some (.execute r (.report none)))
  | .bind .dbcolname out n c, .ok =>
    some (s.call (.bind .dbcolname), some (.execute r (.bind .dbcoltype out n c)))
  | .bind .dbcoltype out n c, .ok =>
    some (s.call (.bind .dbcoltype), some (.execute r (.bind .dbcollen out n c)))
  | .bind .dbcollen out n c, .ok =>
    some (s.call (.bind .dbcollen), some (.execute r (.bind .dbbind out n c)))
  | .bind .dbbind out n c, .ok =>
    some (s.call (.bind .dbbind), some (.execute r (.bind .dbnullbind out n c)))
  | .bind .dbnullbind out n c, .ok =>
    some (s.call (.bind .dbnullbind), some (.execute r (nextBind out n (c + 1))))
  | .bind .dbcollen _ _ _, .fail => some (s.call (.bind .dbcollen), some (.execute r (.report none)))
  | .bind .dbbind _ _ _, .fail => some (s.call (.bind .dbbind), some (.execute r (.report none)))
  | .bind .dbnullbind _ _ _, .fail =>
    some (s.call (.bind .dbnullbind), some (.execute r (.report none)))
  | .dbnextrow out tbl, .row x => some (s.call .dbnextrow, some (.execute r (.dbnextrow out (tbl ++ [x]))))
  | .dbnextrow out tbl, .ok => some (s.call .dbnextrow, some (.execute r (.dbnextrow out tbl)))
  | .dbnextrow _ _, .fail => some (s.call .dbnextrow, some (.execute r (.report none)))
  | .dbnextrow out tbl, .done => some (s.call .dbnextrow, some (.execute r (.dbresults (out ++ [tbl]))))
  | .report results, .ok =>
    some ({ s with callbackQueue := s.callbackQueue ++ [.execution r results] }, some (.dbfreebuf r))
  | _, _ => none

/-- One step of a worker block: the new state and the rest of the block
(`none` when it is finished). -/
def workerStep (s : St ρ) : Task ρ → Outcome → Option (St ρ × Option (Task ρ))
  | .connect r pc, o => connectStep s r pc o
  | .execute r pc, o => executeStep s r pc o
  | .dbloginfree _, .ok => some (s, none)
  | .dbfreebuf _, .ok => some ((s.call .dbfreebuf).setHandle Handle.freeBuffer, none)
  | _, _ => none

/-- Entry `i` of a queue replaced by the rest of its block. -/
def putTask (q : List (Task ρ)) (i : Nat) : Option (Task ρ) → List (Task ρ)
  | none => q.eraseIdx i
  | some t => q.set i t

/-! ## Callback queue -/

/-- The request of a worker block whose query has not finished. -/
def Task.unfinished : Task ρ → Option (Request ρ)
  | .connect r _ => some r
  | .execute r _ => some r
  | .dbloginfree _ => none
  | .dbfreebuf _ => none

/-- The request of a callback whose query has not finished. -/
def Callback.unfinished : Callback ρ → Option (Request ρ)
  | .connectionSuccess r => some r
  | .connectionFailure _ => none
  | .execution _ _ => none

/-- The query of request `k` has not finished. -/
def St.running (s : St ρ) (k : Nat) : Bool :=
  s.workerQueue.any (fun t => t.unfinished.any (·.id == k)) ||
    s.callbackQueue.any (fun c => c.unfinished.any (·.id == k))

/-- `disconnect`, called from the completion of request `r`.
mirrors SQLClient.m:254-257 -/
def St.disconnect (s : St ρ) (r : Request ρ) : St ρ :=
  let owner := s.handle?.map (·.openedBy)
  ({ s with log := s.log ++
      [Event.dbclose r s.connection s.isClosed owner (owner.any s.running)] }).setHandle
    fun h => { h with isOpen := false }

/-- A completion block. `success` in the block that answers the delegate is
the `success` of the connection, which is `YES` there.
mirrors MySqlServerConnection.m:75-252 and SQLClient.m:124-127, 261-307 -/
def callbackStep (s : St ρ) (connected : Bool) : Callback ρ → St ρ
  | .connectionFailure r => { s with log := s.log ++ [.connected r false] }
  | .connectionSuccess r =>
    let s := s.call .dbdead
    let s := { s with log := s.log ++ [.connected r connected] }
    if connected then { s with workerQueue := s.workerQueue ++ [.execute r .dbcmd] } else s
  | .execution r results =>
    let s := { s with m_resultArray := some (r.method.result results) }
    let s := s.disconnect r
    { s with log := s.log ++
        [.finished r results.isSome,
         .recivedDataArray r s.delegate (r.method.result results) true s.signal_id] }

/-! ## The system -/

/-- `getInstance:` and the method called on its result: the delegate and the
signal id are overwritten, `connect:` saves its inputs and enqueues its block.
mirrors MySqlServerConnection.m:51-57, 75-252 and SQLClient.m:85-97 -/
def request (s : St ρ) (reciver : ρ) (signalId : Int) (m : Method) : St ρ :=
  let r : Request ρ := ⟨s.issued.length, reciver, signalId, s.creds, m⟩
  { s with
    delegate := reciver
    signal_id := signalId
    input := s.creds
    workerQueue := s.workerQueue ++ [.connect r .dblogin]
    issued := s.issued ++ [r] }

def step (s : St ρ) : Label ρ → Option (St ρ)
  | .createInstance c reciver => some { s with creds := c, delegate := reciver }
  | .request reciver signalId m => some (request s reciver signalId m)
  | .worker i o =>
    match s.workerQueue[i]? with
    | none => none
    | some t => (workerStep s t o).map fun x => { x.1 with workerQueue := putTask s.workerQueue i x.2 }
  | .callback i connected =>
    match s.callbackQueue[i]? with
    | none => none
    | some c => some (callbackStep { s with callbackQueue := s.callbackQueue.eraseIdx i } connected c)

def lts (ρ : Type) : LTS (St ρ) (Label ρ) := LTS.ofFn (fun s => ∃ c d, s = start c d) step

end MysqlConnection.L2.Client
