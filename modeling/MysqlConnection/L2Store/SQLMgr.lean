import MysqlConnection.L2Store.FMReading
import MysqlConnection.L2Store.Labels

/-!
# `SQLMgr`, and one connection of `DBConnector`

Every operation of `DBConnector` makes a database object, opens it, executes
its texts or reads one result set, and closes it. `SQLMgr` sets no timeout and
passes no arguments; it turns the cache on for queries.

* `connection_eq`: whatever the cache, the flags and the locks do in between, a
  connection does what its texts do one after the other, up to the first that
  fails (`performAll`), and leaves no statement.
* `read_eq`: a reader returns every row of its query, with the values of the
  columns it names; rows before an error are returned as if they were all.
* `write_eq`, `reader_eq`: so the operations do what the model of `DBConnector`
  says.
-/
namespace MysqlConnection.L2.SQLMgr

open Sqlite3 FM

/-! ## `SQLMgr` -/

/-- Without arguments, a text with parameters makes `va_arg` read what was not
passed.
mirrors FMDatabase.m:384-393, 563-572 -/
def variadic {S α : Type} : Call S α → Call S α
  | .raised _ => .undefined
  | .returned a s => .returned a s
  | .aborted => .aborted
  | .undefined => .undefined

section
variable {D C : Type} (e : Engine D Value C)

/-- mirrors SQLMgr.m:57-69 -/
def executeUpdate (s : St D C) (sql : NSString) (busy busyStep : Nat) : Call (St D C) Bool :=
  (variadic (FM.executeUpdate e s sql [] busy busyStep)).bind fun res s' =>
    .returned (if hadError s' then false else res) s'

/-- The answer and the result set.
mirrors SQLMgr.m:41-56 -/
def executeQuery (s : St D C) (sql : NSString) (busy : Nat) : Call (St D C) (Bool × Option Nat) :=
  (variadic (FM.executeQuery e (setShouldCacheStatements s true) sql [] busy)).bind fun rs s' =>
    .returned (!hadError s', rs) s'

/-- mirrors SQLMgr.m:74-77 -/
def next (s : St D C) (rs : Option Nat) (busy : Nat) : Call (St D C) Bool :=
  match rs with
  | none => .returned false s
  | some i => FM.next e s i busy

/-- mirrors SQLMgr.m:78-81 -/
def getValue (lowercaseString : NSString → NSString) (columnText : C → Option NSString)
    (s : St D C) (rs : Option Nat) (recordName : NSString) : Call (St D C) (Option NSString) :=
  match rs with
  | none => .returned none s
  | some i => stringForColumn lowercaseString s columnText i recordName

/-! ## Writing connections -/

/-- A text with the busy answers to its preparation and its step. -/
structure Update where
  sql : NSString
  busy : Nat
  busyStep : Nat

/-- Up to the first text that fails.
mirrors DBConnector.m:23-39 -/
def executeUpdates (s : St D C) : List Update → Call (St D C) Bool
  | [] => .returned true s
  | u :: us =>
    (executeUpdate e s u.sql u.busy u.busyStep).bind fun res s' =>
      if res then executeUpdates s' us else .returned false s'

/-- The object is closed; one that was not opened is released, which closes it.
mirrors DBConnector.m:13-94, 125-142, 201-245 -/
def connection (file : D) (error : Option Nat) (us : List Update) : Call (St D C) Unit :=
  (openDb (initWithPath file) error).bind fun opened s =>
    if opened then (executeUpdates e s us).bind fun _ s' => .returned () (close e s')
    else .returned () (close e s)

/-- What one text does to the database, and whether it succeeds. -/
def perform (d : D) (sql : NSString) : D × Bool :=
  if e.blank sql then (d, true)
  else
    match e.compile d sql with
    | .error _ => (d, false)
    | .ok _ => ((e.run d sql []).after, (e.run d sql []).error.isNone)

def performAll (d : D) : List NSString → D × Bool
  | [] => (d, true)
  | sql :: rest =>
    if (perform e d sql).2 then performAll (perform e d sql).1 rest else ((perform e d sql).1, false)

/-- The text has no parameters and gives no rows. -/
def Updates (d : D) (sql : NSString) : Prop :=
  e.blank sql = false → ∀ c, e.compile d sql = .ok c →
    c.parameters = 0 ∧ (e.run d sql []).rows = []

/-- So have the texts that are reached. -/
def UpdatesAll (d : D) : List NSString → Prop
  | [] => True
  | sql :: rest =>
    Updates e d sql ∧ ((perform e d sql).2 = true → UpdatesAll (perform e d sql).1 rest)

/-! ## One text -/

/-- An open database between two updates. -/
structure Idle (s : St D C) : Prop where
  opened : s.db = .opened
  inUse : s.inUse = false
  timeout : s.busyRetryTimeout = 0
  caching : s.shouldCacheStatements = false
  quiet : s.crashOnErrors = false

variable {e}

/-- Without a timeout no loop gives up. -/
theorem not_givesUp {timeout : Int32} (h : timeout = 0) (busy : Nat) :
    givesUp timeout 0 busy = false := by
  rw [← Bool.not_eq_true, givesUp_iff]
  exact fun hgives => hgives.1 (Or.inl h)

theorem Idle.cached {s : St D C} (h : Idle s) (sql : NSString) :
    cachedStatementForQuery s sql = none := by
  rw [cachedStatementForQuery, h.caching]
  exact if_neg Bool.false_ne_true

/-- A step of a run without rows. -/
theorem advance_nil (st : Stmt Value C) (o : Outcome D C) (h : o.rows = []) :
    (st.advance o).1 = o.error.elim .done .error ∧
      (st.advance o).2.1.resetCode = o.error.elim .ok .error ∧ (st.advance o).2.2 = o.after := by
  obtain ⟨rows, error, after⟩ := o
  simp only at h
  subst h
  cases error with
  | none => exact ⟨rfl, rfl, rfl⟩
  | some n => exact ⟨rfl, rfl, rfl⟩

theorem bindArguments_nil {s : St D C} {q : Nat} {st : Stmt Value C} (hq : s.stmts.get q = some st)
    (h : st.bound = []) :
    bindArguments s (some q) [] = .returned () { s with stmts := s.stmts.put q st } := by
  simp only [bindArguments, hq, h, List.length_nil, bindLoop, if_true]

/-- Stepping a statement that gives no rows. -/
theorem stepUpdate_nil {s : St D C} (h : s.busyRetryTimeout = 0) {q : Nat} {st : Stmt Value C}
    (hq : s.stmts.get q = some st) (hrows : (st.current e s.file).rows = []) (busyStep : Nat) :
    stepUpdate e s (some q) busyStep = .returned () (afterStep e s q st) := by
  have hcode := (advance_nil st (st.current e s.file) hrows).1
  have hrow : (st.step e s.file).1 ≠ .row := by
    rw [Stmt.step, hcode]
    cases (st.current e s.file).error <;> exact Code.noConfusion
  simp only [stepUpdate, hq, not_givesUp h, Bool.false_eq_true, if_false, hrow]

/-- The end of an update without the cache. -/
theorem finishUpdate_finalize {s : St D C} (h : s.shouldCacheStatements = false) {q : Nat}
    {st : Stmt Value C} (hq : s.stmts.get q = some st) (sql : NSString) :
    finishUpdate s sql none (some q) = .returned (decide (st.resetCode = .ok))
      { s with stmts := s.stmts.finalize q, errcode := st.resetCode, inUse := false } := by
  have hcode : resetCode s (some q) = st.resetCode := by rw [resetCode, Option.bind_some, hq]
  simp only [finishUpdate, h, Bool.false_eq_true, if_false, finalizeStmt, hcode]

/-- What a new statement does from its preparation to its end. -/
theorem finish_eq {s : St D C} (htimeout : s.busyRetryTimeout = 0)
    (hcaching : s.shouldCacheStatements = false) {q : Nat} {st : Stmt Value C} {o : Outcome D C}
    (hq : s.stmts.get q = some st) (hbound : st.bound = []) (ho : st.current e s.file = o)
    (hrows : o.rows = []) (sql : NSString) (busyStep : Nat) :
    ∃ m, ((bindArguments s (some q) []).bind fun _ s₂ =>
        (stepUpdate e s₂ (some q) busyStep).bind fun _ s₃ => finishUpdate s₃ sql none (some q)) =
      .returned o.error.isNone
        { s with stmts := m, file := o.after, errcode := o.error.elim .ok .error, inUse := false } := by
  subst ho
  obtain ⟨-, hreset, hafter⟩ := advance_nil st _ hrows
  have hq₂ : Mem.get (s.stmts.put q st) q = some st := by rw [get_put (lt_of_get hq), if_pos rfl]
  have hq₃ := get_put (lt_of_get hq₂) q (st.step e s.file).2.1
  rw [if_pos rfl] at hq₃
  refine ⟨(((s.stmts.put q st).put q (st.step e s.file).2.1).finalize q), ?_⟩
  rw [bindArguments_nil hq hbound, Call.bind_returned]
  have hstep := stepUpdate_nil (e := e) (s := { s with stmts := s.stmts.put q st }) htimeout hq₂
    hrows busyStep
  rw [hstep, Call.bind_returned]
  have hfinish := finishUpdate_finalize (s := afterStep e { s with stmts := s.stmts.put q st } q st)
    hcaching hq₃ sql
  rw [hfinish]
  have hcode : (st.step e s.file).2.1.resetCode =
      (st.current e s.file).error.elim .ok .error := hreset
  have hfile : (st.step e s.file).2.2 = (st.current e s.file).after := hafter
  simp only [afterStep, hcode, hfile]
  cases (st.current e s.file).error <;> rfl

theorem executeUpdate_compiled {s : St D C} (h : Idle s) {sql : NSString} {c : Compiled}
    (hblank : e.blank sql = false) (hcomp : e.compile s.file sql = .ok c)
    (hparams : c.parameters = 0) (hrows : (e.run s.file sql []).rows = []) (busy busyStep : Nat) :
    ∃ s', FM.executeUpdate e s sql [] busy busyStep =
        .returned (e.run s.file sql []).error.isNone s' ∧ Idle s' ∧
      s'.file = (e.run s.file sql []).after ∧
        s'.errcode = (e.run s.file sql []).error.elim .ok .error := by
  have hnew : compiled e (taken s) (cachedStatementForQuery s sql) sql busy = some c := by
    rw [h.cached, compiled, if_pos ⟨h.opened, rfl, not_givesUp h.timeout busy, hblank⟩]
    rw [show (taken s).file = s.file from rfl, hcomp]
    rfl
  have hbound : (Stmt.ofCompiled e sql c).bound = [] := by
    rw [Stmt.ofCompiled, hparams]
    rfl
  have hcurrent : (Stmt.ofCompiled e sql c).current e s.file = e.run s.file sql [] := by
    rw [← hbound]
    rfl
  obtain ⟨m, hm⟩ := finish_eq (e := e) (s := { taken s with
      errcode := .ok, stmts := (taken s).stmts ++ [some (Stmt.ofCompiled e sql c)] })
    h.timeout h.caching (get_new e (taken s) sql c) hbound hcurrent hrows sql busyStep
  rw [executeUpdate_ready e h.inUse (prepare_compiled e hnew), h.cached]
  exact ⟨_, hm, ⟨h.opened, rfl, h.timeout, h.caching, h.quiet⟩, rfl, rfl⟩

/-- **One text.** -/
theorem executeUpdate_eq {s : St D C} (h : Idle s) {sql : NSString} (hu : Updates e s.file sql)
    (busy busyStep : Nat) :
    ∃ s', executeUpdate e s sql busy busyStep = .returned (perform e s.file sql).2 s' ∧ Idle s' ∧
      s'.file = (perform e s.file sql).1 := by
  have hcached := h.cached sql
  have hgives : givesUp (taken s).busyRetryTimeout 0 busy = false := not_givesUp h.timeout busy
  have hopened : (taken s).db = .opened := h.opened
  cases hblank : e.blank sql with
  | true =>
    have hp : prepare e (taken s) (cachedStatementForQuery s sql) sql busy =
        ({ taken s with errcode := .ok }, .ready none) := by
      simp only [prepare, hcached, Option.bind_none, prepareLoop, hopened, hgives, hblank,
        Bool.false_eq_true, if_false, if_true]
    refine ⟨{ s with inUse := false, errcode := .ok }, ?_, ⟨h.1, rfl, h.3, h.4, h.5⟩, ?_⟩
    · rw [executeUpdate, executeUpdate_ready e h.inUse hp, perform, if_pos hblank]
      simp only [bindArguments, stepUpdate, finishUpdate, Call.bind_returned, hcached, resetCode,
        Option.bind_none, finalizeStmt, taken, h.caching, Bool.false_eq_true, if_false, variadic,
        hadError, lastErrorCode, h.opened]
      rfl
    · rw [perform, if_pos hblank]
  | false =>
    have hnotBlank : ¬ e.blank sql = true := by rw [hblank]; exact Bool.false_ne_true
    cases hcomp : e.compile s.file sql with
    | error n =>
      have hp : prepare e (taken s) (cachedStatementForQuery s sql) sql busy =
          ({ taken s with errcode := .error n }, .failed (.error n)) := by
        simp only [prepare, hcached, Option.bind_none, prepareLoop, hopened, hgives, hblank,
          show (taken s).file = s.file from rfl, hcomp, Bool.false_eq_true, if_false]
      refine ⟨{ s with inUse := false, errcode := .error n }, ?_, ⟨h.1, rfl, h.3, h.4, h.5⟩, ?_⟩
      · rw [executeUpdate, executeUpdate_failed e h.inUse hp, perform, if_neg hnotBlank, hcomp]
        simp only [prepareFailed, taken, h.quiet, Bool.false_eq_true, false_and, and_false, if_false, variadic,
          Call.bind_returned]
        split <;> rfl
      · rw [perform, if_neg hnotBlank, hcomp]
    | ok c =>
      obtain ⟨hparams, hrows⟩ := hu hblank c hcomp
      obtain ⟨s', hs', hidle, hfile, herror⟩ :=
        executeUpdate_compiled h hblank hcomp hparams hrows busy busyStep
      refine ⟨s', ?_, hidle, ?_⟩
      · rw [executeUpdate, hs', perform, if_neg hnotBlank, hcomp]
        simp only [variadic, Call.bind_returned, hadError, lastErrorCode, hidle.opened, herror]
        cases (e.run s.file sql []).error <;> rfl
      · rw [perform, if_neg hnotBlank, hcomp]
        exact hfile

/-! ## A connection that writes -/

theorem executeUpdates_eq : ∀ (us : List Update) {s : St D C}, Idle s →
    UpdatesAll e s.file (us.map (·.sql)) →
    ∃ s', executeUpdates e s us = .returned (performAll e s.file (us.map (·.sql))).2 s' ∧ Idle s' ∧
      s'.file = (performAll e s.file (us.map (·.sql))).1
  | [], s, h, _ => ⟨s, rfl, h, rfl⟩
  | u :: us, s, h, hu => by
    obtain ⟨s₁, hs₁, hidle, hfile⟩ := executeUpdate_eq h hu.1 u.busy u.busyStep
    rw [executeUpdates, hs₁, Call.bind_returned, List.map_cons, performAll]
    cases hok : (perform e s.file u.sql).2 with
    | false => exact ⟨s₁, rfl, hidle, hfile⟩
    | true =>
      have hrest := hu.2 hok
      rw [← hfile] at hrest ⊢
      exact executeUpdates_eq us hidle hrest

/-- What is left of a connection. -/
structure Closed (file : D) (s : St D C) : Prop where
  file : s.file = file
  null : s.db = .null
  liveCount : s.stmts.liveCount = 0

variable (e)

theorem closed_close {s : St D C} (h : s.db ≠ .null) : Closed (e.close s.file) (close e s) := by
  refine ⟨?_, ?_, liveCount_close e fun hn => absurd hn h⟩
  · unfold close clearCachedStatements
    simp only [if_neg h]
  · unfold close clearCachedStatements
    simp only [if_neg h]

variable {e}

/-- **A connection.** Its texts are executed one after the other up to the first
that fails, or none if the file cannot be opened; no statement is left. -/
theorem connection_eq (file : D) (error : Option Nat) (us : List Update)
    (hu : UpdatesAll e file (us.map (·.sql))) :
    ∃ s' : St D C, connection e file error us = .returned () s' ∧
      Closed (e.close (if error.isSome then file else (performAll e file (us.map (·.sql))).1)) s' := by
  cases error with
  | some n =>
    have hclosed := closed_close e
      (s := { initWithPath file with db := .failed, errcode := .error n }) Handle.noConfusion
    exact ⟨_, rfl, hclosed⟩
  | none =>
    have hidle : Idle ({ initWithPath file with db := .opened, errcode := .ok } : St D C) :=
      ⟨rfl, rfl, rfl, rfl, rfl⟩
    obtain ⟨s₁, hs₁, hidle₁, hfile⟩ := executeUpdates_eq us hidle hu
    have hne : s₁.db ≠ .null := by rw [hidle₁.opened]; exact Handle.noConfusion
    refine ⟨close e s₁, ?_, ?_⟩
    · rw [connection, openDb, Call.bind_returned, if_pos rfl, hs₁, Call.bind_returned]
    · have hclosed := closed_close e hne
      rw [hfile] at hclosed
      exact hclosed

/-! ## Reading connections -/

variable (e)

inductive Answer (α : Type) where
  | unfinished
  | nil
  | array (items : List α)
  deriving DecidableEq, Repr

/-- The values of an item, by the names of their columns. -/
abbrev Values := List (Option NSString)

/-- mirrors DBConnector.m:109-115, 157-164, 186-193 -/
def getValues (lowercaseString : NSString → NSString) (columnText : C → Option NSString)
    (rs : Option Nat) : List NSString → St D C → Call (St D C) Values
  | [], s => .returned [] s
  | name :: names, s =>
    (getValue lowercaseString columnText s rs name).bind fun v s' =>
      (getValues lowercaseString columnText rs names s').bind fun vs s'' => .returned (v :: vs) s''

/-- `busy k`: the busy answers to call `k` of `next`.
mirrors DBConnector.m:107-117, 155-166, 184-195 -/
def readLoop (lowercaseString : NSString → NSString) (columnText : C → Option NSString)
    (rs : Option Nat) (names : List NSString) (busy : Nat → Nat) :
    Nat → Nat → List Values → St D C → Call (St D C) (Answer Values)
  | 0, _, _, s => .returned .unfinished s
  | fuel + 1, k, items, s =>
    (next e s rs (busy k)).bind fun more s' =>
      if more then
        (getValues lowercaseString columnText rs names s').bind fun item s'' =>
          readLoop lowercaseString columnText rs names busy fuel (k + 1) (items ++ [item]) s''
      else .returned (.array items) s'

/-- mirrors DBConnector.m:95-123, 143-200 -/
def read (lowercaseString : NSString → NSString) (columnText : C → Option NSString) (file : D)
    (error : Option Nat) (sql : NSString) (names : List NSString) (busy : Nat)
    (busyNext : Nat → Nat) (fuel : Nat) : Call (St D C) (Answer Values) :=
  (openDb (initWithPath file) error).bind fun opened s =>
    if opened then
      (executeQuery e s sql busy).bind fun r s' =>
        (if r.1 then readLoop e lowercaseString columnText r.2 names busyNext fuel 0 [] s'
          else .returned (.array []) s').bind fun items s'' => .returned items (close e s'')
    else .returned .nil (close e s)

/-- What a query asks for, and the database after it. -/
def ask (d : D) (sql : NSString) : List NSString × List (List C) × D :=
  if e.blank sql then ([], [], d)
  else
    match e.compile d sql with
    | .error _ => ([], [], d)
    | .ok c => (c.columns, (e.run d sql []).rows, (e.run d sql []).after)

/-- The values of a row in the columns of these names. -/
def pick (lowercaseString : NSString → NSString) (columnText : C → Option NSString)
    (columns names : List NSString) (row : List C) : Values :=
  names.map fun name =>
    (lastIndex lowercaseString (lowercaseString name) columns).bind fun k =>
      row[k]?.bind columnText

variable {e} {lowercaseString : NSString → NSString} {columnText : C → Option NSString}

/-- A result set that is being read. -/
structure Open (lowercaseString : NSString → NSString) (s : St D C) (i p : Nat)
    (st : Stmt Value C) (rs : FMResultSet) : Prop where
  opened : s.db = .opened
  timeout : s.busyRetryTimeout = 0
  result : s.resultSets[i]? = some rs
  pointer : resultPointer s i = some p
  live : s.stmts.get p = some st
  mapped : Mapped lowercaseString st.columns rs

theorem getValues_eq {i p : Nat} {st : Stmt Value C} : ∀ (names : List NSString) {s : St D C}
    {rs : FMResultSet}, Open lowercaseString s i p st rs →
    ∃ s' rs', getValues lowercaseString columnText (some i) names s =
        .returned (pick lowercaseString columnText st.columns names st.row) s' ∧
      Open lowercaseString s' i p st rs' ∧ s'.file = s.file
  | [], s, rs, h => ⟨s, rs, rfl, h, rfl⟩
  | name :: names, s, rs, h => by
    obtain ⟨s₁, rs₁, hlooked, hmapped, hvalue⟩ :=
      stringForColumn_eq h.result h.pointer h.live h.mapped columnText name
    have hopen : Open lowercaseString s₁ i p st rs₁ := by
      have hresult := hlooked.getElem h.result
      have hpointer := (hlooked.resultPointer h.result).trans h.pointer
      have hstate := hlooked.state
      subst hstate
      exact ⟨h.opened, h.timeout, hresult, hpointer, h.live, hmapped⟩
    obtain ⟨s₂, rs₂, hvalues, hopen₂, hfile⟩ := getValues_eq names hopen
    refine ⟨s₂, rs₂, ?_, hopen₂, ?_⟩
    · rw [getValues, getValue, hvalue, Call.bind_returned, hvalues, Call.bind_returned]
      rfl
    · rw [hfile, hlooked.state]

theorem timeout_eq {s : St D C} (h : s.busyRetryTimeout = 0) (i : Nat) : timeout s i = 0 := by
  unfold timeout
  split
  · exact h
  · rfl

/-- The next row of a run. -/
theorem next_row {s : St D C} {i p : Nat} {st : Stmt Value C} {rs : FMResultSet}
    (h : Open lowercaseString s i p st rs) {r : List C} {rows : List (List C)}
    {error : Option Nat} {d : D} (hc : st.current e s.file = ⟨r :: rows, error, d⟩) (busy : Nat) :
    ∃ st', FM.next e s i busy = .returned true (afterStep e s p st) ∧
      Open lowercaseString (afterStep e s p st) i p st' rs ∧ st'.row = r ∧
      st'.columns = st.columns ∧
      st'.current e (afterStep e s p st).file = ⟨rows, error, d⟩ := by
  have hstep : st.step e s.file =
      (.row, { st with stepped := true, rest := some (rows, error), row := r, last := .row }, d) := by
    rw [Stmt.step, hc]
    rfl
  refine ⟨(st.step e s.file).2.1, ?_, ⟨h.opened, h.timeout, h.result, h.pointer, ?_, ?_⟩, ?_, ?_, ?_⟩
  · have hrow : (st.step e s.file).1 = .row := by rw [hstep]
    simp only [FM.next, h.pointer, h.live, not_givesUp (timeout_eq h.timeout i),
      Bool.false_eq_true, if_false, hrow, if_true]
  · show (s.stmts.put p _).get p = _
    rw [get_put (lt_of_get h.live), if_pos rfl]
  · rw [hstep]
    exact h.mapped
  · rw [hstep]
  · rw [hstep]
  · show (st.step e s.file).2.1.current e (st.step e s.file).2.2 = _
    rw [hstep]
    rfl

/-- The end of a run. -/
theorem next_end {s : St D C} {i p : Nat} {st : Stmt Value C} {rs : FMResultSet}
    (h : Open lowercaseString s i p st rs) {error : Option Nat} {d : D}
    (hc : st.current e s.file = ⟨[], error, d⟩) (busy : Nat) :
    ∃ s', FM.next e s i busy = .returned false s' ∧ s'.db = .opened ∧ s'.file = d := by
  obtain ⟨hcode, -, hafter⟩ := advance_nil st (st.current e s.file) (by rw [hc])
  have hrow : (st.step e s.file).1 ≠ .row := by
    rw [Stmt.step, hcode]
    cases (st.current e s.file).error <;> exact Code.noConfusion
  refine ⟨closeResultSet (afterStep e s p st) i, ?_, h.opened, ?_⟩
  · simp only [FM.next, h.pointer, h.live, not_givesUp (timeout_eq h.timeout i),
      Bool.false_eq_true, if_false, hrow]
  · show (st.step e s.file).2.2 = d
    rw [Stmt.step, hafter, hc]

/-- The loop returns the rows that are left. -/
theorem readLoop_eq {i p : Nat} {names : List NSString} {busy : Nat → Nat} {error : Option Nat}
    {d : D} : ∀ (rows : List (List C)) (fuel k : Nat) (items : List Values) {s : St D C}
      {st : Stmt Value C} {rs : FMResultSet}, Open lowercaseString s i p st rs →
    st.current e s.file = ⟨rows, error, d⟩ → rows.length < fuel →
    ∃ s', readLoop e lowercaseString columnText (some i) names busy fuel k items s =
        .returned (.array (items ++
          rows.map (pick lowercaseString columnText st.columns names))) s' ∧
      s'.db = .opened ∧ s'.file = d
  | _, 0, _, _, _, _, _, _, _, hf => absurd hf (Nat.not_lt_zero _)
  | [], fuel + 1, k, items, s, st, rs, h, hc, _ => by
    obtain ⟨s', hnext, hdb, hfile⟩ := next_end h hc (busy k)
    refine ⟨s', ?_, hdb, hfile⟩
    rw [readLoop, next, hnext, Call.bind_returned, if_neg Bool.false_ne_true, List.map_nil,
      List.append_nil]
  | r :: rows, fuel + 1, k, items, s, st, rs, h, hc, hf => by
    obtain ⟨st₁, hnext, hopen, hrow, hcolumns, hc₁⟩ := next_row h hc (busy k)
    obtain ⟨s₂, rs₂, hvalues, hopen₂, hfile⟩ := getValues_eq names hopen
    rw [← hfile] at hc₁
    have hlt : rows.length < fuel := Nat.lt_of_succ_lt_succ hf
    obtain ⟨s₃, hloop, hdb, hd⟩ := readLoop_eq rows fuel (k + 1)
      (items ++ [pick lowercaseString columnText st.columns names r]) hopen₂ hc₁ hlt
    refine ⟨s₃, ?_, hdb, hd⟩
    rw [readLoop, next, hnext, Call.bind_returned, if_pos rfl, hvalues, Call.bind_returned, hrow,
      hcolumns]
    rw [hcolumns] at hloop
    rw [hloop, List.append_assoc]
    rfl

/-- The object right after it was opened. -/
abbrev openedDb (file : D) : St D C := { initWithPath file with db := .opened, errcode := .ok }

/-- The first query of a connection. -/
theorem executeQuery_compiled (lowercaseString : NSString → NSString) {file : D} {sql : NSString}
    {c : Compiled} (hblank : e.blank sql = false) (hcomp : e.compile file sql = .ok c)
    (hparams : c.parameters = 0) (busy : Nat) :
    ∃ s' : St D C, executeQuery e (openedDb file) sql busy = .returned (true, some 0) s' ∧
      s'.file = file ∧ Open lowercaseString s' 0 0 (Stmt.ofCompiled e sql c) (resultSetWithStatement 0) := by
  have hnew : compiled e (taken (setShouldCacheStatements (openedDb file : St D C) true)) none sql
      busy = some c := by
    rw [compiled, if_pos ⟨rfl, rfl, not_givesUp rfl busy, hblank⟩]
    show (e.compile file sql).toOption = some c
    rw [hcomp]
    rfl
  have hbound : (Stmt.ofCompiled e sql c).bound = [] := by
    rw [Stmt.ofCompiled, hparams]
    rfl
  have hquery := executeQuery_ready e
    (s := setShouldCacheStatements (openedDb file : St D C) true) rfl (prepare_compiled e hnew) []
  have hget := get_new e (taken (setShouldCacheStatements (openedDb file : St D C) true)) sql c
  rw [bindArguments_nil hget hbound, Call.bind_returned] at hquery
  rw [executeQuery, hquery]
  refine ⟨_, rfl, rfl, rfl, rfl, rfl, rfl, rfl, ?_⟩
  exact mapped_resultSet lowercaseString _ 0

/-- **A reader.** It returns all rows of its query in their order, also when the
query ends with an error after them; none if the text does not compile. The
connection is closed and no statement is left. -/
theorem read_eq (file : D) (error : Option Nat) (sql : NSString) (names : List NSString)
    (hparams : ∀ c, e.compile file sql = .ok c → c.parameters = 0) (busy : Nat)
    (busyNext : Nat → Nat) {fuel : Nat} (hfuel : (ask e file sql).2.1.length < fuel) :
    ∃ s' : St D C, read e lowercaseString columnText file error sql names busy busyNext fuel =
        .returned (if error.isSome then .nil else
          .array ((ask e file sql).2.1.map
            (pick lowercaseString columnText (ask e file sql).1 names))) s' ∧
      Closed (e.close (if error.isSome then file else (ask e file sql).2.2)) s' := by
  cases error with
  | some n =>
    exact ⟨_, rfl, closed_close e (s := { initWithPath file with db := .failed, errcode := .error n })
      Handle.noConfusion⟩
  | none =>
    have hclosed : ∀ {s : St D C} {d : D}, s.db = .opened → s.file = d →
        Closed (e.close d) (close e s) := by
      intro s d hdb hfile
      have hc := closed_close e (s := s) (by rw [hdb]; exact Handle.noConfusion)
      rw [hfile] at hc
      exact hc
    have hgives : givesUp 0 0 busy = false := not_givesUp rfl busy
    cases hblank : e.blank sql with
    | true =>
      have hask : ask e file sql = ([], [], file) := by rw [ask, if_pos hblank]
      have hp : prepare e (taken (setShouldCacheStatements (openedDb file : St D C) true)) none sql
          busy = ({ taken (setShouldCacheStatements (openedDb file) true) with errcode := .ok },
            .ready none) := by
        simp only [prepare, Option.bind_none, prepareLoop, taken, setShouldCacheStatements,
          initWithPath, hgives, hblank, Bool.false_eq_true, if_false, if_true]
      have hquery := executeQuery_ready e
        (s := setShouldCacheStatements (openedDb file : St D C) true) rfl hp []
      obtain ⟨fuel, rfl⟩ := Nat.exists_eq_succ_of_ne_zero (Nat.ne_of_gt (Nat.lt_of_le_of_lt
        (Nat.zero_le _) hfuel))
      rw [hask]
      rw [read, openDb, Call.bind_returned, if_pos rfl, executeQuery, hquery]
      exact ⟨_, rfl, hclosed rfl rfl⟩
    | false =>
      have hnotBlank : ¬ e.blank sql = true := by rw [hblank]; exact Bool.false_ne_true
      cases hcomp : e.compile file sql with
      | error n =>
        have hask : ask e file sql = ([], [], file) := by rw [ask, if_neg hnotBlank, hcomp]
        have hp : prepare e (taken (setShouldCacheStatements (openedDb file : St D C) true)) none sql
            busy = ({ taken (setShouldCacheStatements (openedDb file) true) with errcode := .error n },
              .failed (.error n)) := by
          simp only [prepare, Option.bind_none, prepareLoop, taken, setShouldCacheStatements,
            initWithPath, hgives, hblank, hcomp, Bool.false_eq_true, if_false]
        have hquery := executeQuery_failed e
          (s := setShouldCacheStatements (openedDb file : St D C) true) rfl hp []
        rw [hask]
        rw [read, openDb, Call.bind_returned, if_pos rfl, executeQuery, hquery]
        exact ⟨_, rfl, hclosed rfl rfl⟩
      | ok c =>
        have hask : ask e file sql = (c.columns, (e.run file sql []).rows, (e.run file sql []).after) := by
          rw [ask, if_neg hnotBlank, hcomp]
        obtain ⟨s₁, hquery, hfile, hopen⟩ :=
          executeQuery_compiled lowercaseString hblank hcomp (hparams c hcomp) busy
        have hcurrent : (Stmt.ofCompiled e sql c).current e s₁.file =
            ⟨(e.run file sql []).rows, (e.run file sql []).error, (e.run file sql []).after⟩ := by
          rw [hfile, Stmt.current, Stmt.ofCompiled, hparams c hcomp]
          rfl
        rw [hask] at hfuel ⊢
        obtain ⟨s₂, hloop, hdb, hd⟩ : ∃ s₂, readLoop e lowercaseString columnText (some 0) names
            busyNext fuel 0 [] s₁ = .returned (.array ([] ++ (e.run file sql []).rows.map
              (pick lowercaseString columnText c.columns names))) s₂ ∧
            s₂.db = .opened ∧ s₂.file = (e.run file sql []).after :=
          readLoop_eq _ fuel 0 [] hopen hcurrent hfuel
        refine ⟨close e s₂, ?_, hclosed hdb hd⟩
        rw [read, openDb, Call.bind_returned, if_pos rfl, hquery, Call.bind_returned]
        simp only [if_true, hloop, Call.bind_returned, List.nil_append]
        rfl

end

/-! ## The store behind the connections -/

open DBConnector Sql

/-- The text a write executes. -/
def text : Write → NSString
  | .insertIntoHistory item => insertIntoHistory_query item
  | .updateHistory item => updateHistory_query item
  | .AddToHistory item => ns "update History set flag = 1 where dbID = " ++ item.dbId
  | .DeleteFromHistory item => ns "update History set flag = 0 where dbID = " ++ item.dbId
  | .insertBuildQuery item tableName columns searchRule =>
    insertBuildQuery_query item tableName columns searchRule
  | .updateBuildQuery item => updateBuildQuery_query item
  | .deleteBuildQuery item => ns "delete from Query where QueryId = " ++ item.query_Id

theorem apply_eq (db : Sqlite) (st : Store) (w : Write) :
    w.apply db st = DBConnector.executeUpdate db st (text w) := by
  cases w <;> rfl

inductive Reader where
  | getHistoryArray
  | getDeletedArray
  | getQuerys
  deriving DecidableEq, Repr

/-- mirrors DBConnector.m:105, 153, 182 -/
def Reader.sql : Reader → NSString
  | .getHistoryArray => ns "select *from History where flag = 1"
  | .getDeletedArray => ns "select *from History where flag = 0"
  | .getQuerys => ns "select *from Query"

/-- mirrors DBConnector.m:109-115, 157-164, 186-193 -/
def Reader.names : Reader → List NSString
  | .getHistoryArray | .getDeletedArray =>
    [ns "dbID", ns "HostName", ns "UserName", ns "Password", ns "dbName", ns "dbPort",
      ns "Description", ns "DateTime"]
  | .getQuerys =>
    [ns "QueryId", ns "dbID", ns "tableName", ns "columns", ns "SearchRule", ns "ShowName",
      ns "DBName"]

/-- All columns of a table, in the order of `createTables`.
mirrors DBConnector.m:23, 35 -/
def Reader.columns : Reader → List NSString
  | .getHistoryArray | .getDeletedArray => historySchema.key :: historySchema.columns.map (·.1)
  | .getQuerys => querySchema.key :: querySchema.columns.map (·.1)

/-- A cell as a text; an integer as SQLite writes it. -/
def cell (r : Row) : NSString × Kind → Option NSString
  | (name, .text) => some (r.text name)
  | (name, .int) => some (intText (r.int name))

def cells (s : Schema) (r : Row) : List (Option NSString) :=
  some (natText r.id.val) :: s.columns.map (cell r)

/-- The fields a reader fills, in the order in which it does. -/
def databaseValues (d : Obj_Database) : Values :=
  [some d.dbId, some d.dbHost, some d.dbUserName, some d.dbPasswd, some d.dbName, some d.dbPort,
    some d.dbDescription, some d.dbDateStr]

def queryValues (q : Obj_Query) : Values :=
  [some q.query_Id, some q.query_dbId, some q.query_tableName, some q.query_columns,
    some q.query_searchRule, some q.query_showName, some q.query_dbName]

def Reader.rows (st : Store) : Reader → List (List (Option NSString))
  | .getHistoryArray => (flagged st 1).map (cells historySchema)
  | .getDeletedArray => (flagged st 0).map (cells historySchema)
  | .getQuerys => st.query.rows.map (cells querySchema)

/-- What is documented of the library behind the store: it does to the file what
`db` does, gives no rows for a write, and knows the columns of a reader. -/
structure Serves (e : Engine Store Value (Option NSString)) (db : Sqlite) : Prop where
  close : ∀ st, e.close st = st
  blank : ∀ st w, e.blank (text w) = true → w.apply db st = st
  refused : ∀ st w n, e.compile st (text w) = .error n → w.apply db st = st
  after : ∀ st w c, e.compile st (text w) = .ok c → c.parameters = 0 →
    (e.run st (text w) []).rows = [] ∧ (e.run st (text w) []).after = w.apply db st
  select : ∀ st q, e.blank (Reader.sql q) = false ∧ e.compile st q.sql = .ok ⟨q.columns, 0⟩

/-- **A write of the store.** Whatever locks it meets, a connection that writes
leaves the file as the operation of `DBConnector` does, closed and with no
statement left; one that cannot be opened leaves it as it was. -/
theorem write_eq {e : Engine Store Value (Option NSString)} {db : Sqlite} (h : Serves e db)
    (st : Store) (w : Write) (hp : ∀ c, e.compile st (text w) = .ok c → c.parameters = 0)
    (error : Option Nat) (busy busyStep : Nat) :
    ∃ s', connection e st error [⟨text w, busy, busyStep⟩] = .returned () s' ∧
      Closed (if error.isSome then st else w.apply db st) s' := by
  have hupdates : Updates e st (text w) :=
    fun _ c hc => ⟨hp c hc, (h.after st w c hc (hp c hc)).1⟩
  have hperform : (perform e st (text w)).1 = w.apply db st := by
    unfold perform
    split
    · rename_i hblank
      exact (h.blank st w hblank).symm
    · split
      · rename_i n hc
        exact (h.refused st w n hc).symm
      · rename_i c hc
        exact (h.after st w c hc (hp c hc)).2
  obtain ⟨s', hs', hclosed⟩ := connection_eq st error [⟨text w, busy, busyStep⟩]
    ⟨hupdates, fun _ => trivial⟩
  refine ⟨s', hs', ?_⟩
  have hall : (performAll e st [text w]).1 = (perform e st (text w)).1 := by
    rw [performAll]
    split <;> rfl
  rw [h.close, List.map_cons, List.map_nil, hall, hperform] at hclosed
  exact hclosed

/-- What the reader returns, by the model of `DBConnector`. -/
def Reader.items (st : Store) : Reader → List Values
  | .getHistoryArray => (DBConnector.getHistoryArray st).map databaseValues
  | .getDeletedArray => (DBConnector.getDeletedArray st).map databaseValues
  | .getQuerys => (DBConnector.getQuerys st).map queryValues

/-- `lowercaseString` of an ASCII text. -/
def LowersAscii (lowercaseString : NSString → NSString) : Prop :=
  ∀ t : NSString, (∀ c ∈ t, c.toNat < 128) → lowercaseString t = t.map Char.toLower

theorem lastIndex_congr {f g : NSString → NSString} (key : NSString) : ∀ {names : List NSString},
    (∀ n ∈ names, f n = g n) → lastIndex f key names = lastIndex g key names
  | [], _ => rfl
  | name :: names, h => by
    rw [lastIndex, lastIndex, h name List.mem_cons_self,
      lastIndex_congr key fun n hn => h n (List.mem_cons_of_mem _ hn)]

/-- The names of the columns and of the fields are ASCII. -/
theorem pick_ascii {lowercaseString : NSString → NSString} (h : LowersAscii lowercaseString)
    (q : Reader) (row : List (Option NSString)) :
    pick lowercaseString id q.columns q.names row =
      pick (fun t => t.map Char.toLower) id q.columns q.names row := by
  have hall : (q.columns ++ q.names).all (fun n => n.all fun c => decide (c.toNat < 128)) = true := by
    cases q <;> rfl
  have hnames : ∀ n ∈ q.columns ++ q.names, ∀ c ∈ n, c.toNat < 128 := by
    intro n hn c hc
    exact of_decide_eq_true (List.all_eq_true.mp (List.all_eq_true.mp hall n hn) c hc)
  refine List.map_congr_left fun name hname => ?_
  have hlower : ∀ n ∈ q.columns, lowercaseString n = n.map Char.toLower := fun n hn =>
    h n (hnames n (List.mem_append_left _ hn))
  rw [h name (hnames name (List.mem_append_right _ hname)), lastIndex_congr _ hlower]

theorem pick_rows {lowercaseString : NSString → NSString} (h : LowersAscii lowercaseString)
    (st : Store) (q : Reader) :
    (q.rows st).map (pick lowercaseString id q.columns q.names) = q.items st := by
  rw [List.map_congr_left fun row _ => pick_ascii h q row]
  cases q with
  | getHistoryArray =>
    rw [Reader.rows, Reader.items, DBConnector.getHistoryArray, List.map_map, List.map_map]
    exact List.map_congr_left fun r _ => rfl
  | getDeletedArray =>
    rw [Reader.rows, Reader.items, DBConnector.getDeletedArray, List.map_map, List.map_map]
    exact List.map_congr_left fun r _ => rfl
  | getQuerys =>
    rw [Reader.rows, Reader.items, DBConnector.getQuerys, List.map_map, List.map_map]
    exact List.map_congr_left fun r _ => rfl

/-- **A reader of the store.** If the query gives `k` rows and then ends or
fails, the reader returns the first `k` items of the model of `DBConnector`,
whichever of the two it was. The file is as it was, closed, and no statement is
left. -/
theorem reader_eq {e : Engine Store Value (Option NSString)} {db : Sqlite} (h : Serves e db)
    {lowercaseString : NSString → NSString} (hl : LowersAscii lowercaseString) (st : Store)
    (q : Reader) {k : Nat} {failure : Option Nat}
    (hrun : e.run st q.sql [] = ⟨(q.rows st).take k, failure, st⟩) (busy : Nat)
    (busyNext : Nat → Nat) {fuel : Nat} (hf : (q.rows st).length < fuel) :
    ∃ s', read e lowercaseString id st none q.sql q.names busy busyNext fuel =
        .returned (.array ((q.items st).take k)) s' ∧ Closed st s' := by
  obtain ⟨hblank, hcomp⟩ := h.select st q
  have hask : ask e st q.sql = (q.columns, (q.rows st).take k, st) := by
    rw [ask, hblank, if_neg Bool.false_ne_true, hcomp, hrun]
  have hparams : ∀ c, e.compile st q.sql = .ok c → c.parameters = 0 := by
    intro c hc
    rw [hcomp, Except.ok.injEq] at hc
    rw [← hc]
  have hlt : (ask e st q.sql).2.1.length < fuel := by
    rw [hask]
    exact Nat.lt_of_le_of_lt (List.length_take_le' k (q.rows st)) hf
  have hread : ∃ s' : FM.St Store (Option NSString),
      read e lowercaseString id st none q.sql q.names busy busyNext fuel =
        .returned (.array ((ask e st q.sql).2.1.map
          (pick lowercaseString id (ask e st q.sql).1 q.names))) s' ∧
      Closed (e.close (ask e st q.sql).2.2) s' :=
    read_eq st none q.sql q.names hparams busy busyNext hlt
  rw [hask, h.close, List.map_take, pick_rows hl] at hread
  exact hread

/-- A library that does what is documented, no text having parameters. -/
def storeEngine (db : Sqlite) : Engine Store Value (Option NSString) where
  blank _ := false
  compile _ sql :=
    if sql = Reader.sql .getHistoryArray then .ok ⟨Reader.columns .getHistoryArray, 0⟩
    else if sql = Reader.sql .getDeletedArray then .ok ⟨Reader.columns .getDeletedArray, 0⟩
    else if sql = Reader.sql .getQuerys then .ok ⟨Reader.columns .getQuerys, 0⟩
    else .ok ⟨[], 0⟩
  run st sql _ :=
    if sql = Reader.sql .getHistoryArray then ⟨Reader.rows st .getHistoryArray, none, st⟩
    else if sql = Reader.sql .getDeletedArray then ⟨Reader.rows st .getDeletedArray, none, st⟩
    else if sql = Reader.sql .getQuerys then ⟨Reader.rows st .getQuerys, none, st⟩
    else ⟨[], none, DBConnector.executeUpdate db st sql⟩
  null := .null
  close st := st

/-- `insert`, `update` or `delete`. -/
def firstLetter : Write → Char
  | .insertIntoHistory _ | .insertBuildQuery _ _ _ _ => 'i'
  | .updateHistory _ | .AddToHistory _ | .DeleteFromHistory _ | .updateBuildQuery _ => 'u'
  | .deleteBuildQuery _ => 'd'

theorem head_text (w : Write) : (text w).head? = some (firstLetter w) := by
  cases w <;> rfl

theorem text_ne_sql (w : Write) (q : Reader) : text w ≠ q.sql := by
  intro h
  have hsql : q.sql.head? = some 's' := by cases q <;> rfl
  have hletter : firstLetter w ≠ 's' := by cases w <;> simp [firstLetter]
  rw [← h, head_text, Option.some.injEq] at hsql
  exact hletter hsql

theorem serves_storeEngine (db : Sqlite) : Serves (storeEngine db) db where
  close _ := rfl
  blank _ _ h := absurd h Bool.false_ne_true
  refused st w n h := by
    rw [storeEngine] at h
    simp only [text_ne_sql, if_false] at h
    cases h
  after st w c _ _ := by
    rw [storeEngine]
    simp only [text_ne_sql, if_false, true_and]
    exact (apply_eq db st w).symm
  select st q := ⟨rfl, by cases q <;> rfl⟩

theorem lowersAscii_map : LowersAscii fun t => t.map Char.toLower := fun _ _ => rfl

/-- A row is inserted behind a lock. -/
theorem write_eq_insert : ∃ s', connection (storeEngine strict) twoRecords none
      [⟨text (.insertIntoHistory boss), 3, 5⟩] = .returned () s' ∧
    Closed (Write.apply strict twoRecords (.insertIntoHistory boss)) s' := by
  have hparams : ∀ c, (storeEngine strict).compile twoRecords (text (.insertIntoHistory boss)) = .ok c →
      c.parameters = 0 := by
    intro c hc
    rw [storeEngine] at hc
    simp only [text_ne_sql, if_false, Except.ok.injEq] at hc
    rw [← hc]
  obtain ⟨s', hs', hclosed⟩ :=
    write_eq (serves_storeEngine strict) twoRecords (.insertIntoHistory boss) hparams none 3 5
  rw [Option.isSome_none, if_neg Bool.false_ne_true] at hclosed
  exact ⟨s', hs', hclosed⟩

/-- The one row with the flag is read. -/
theorem reader_eq_flagged : ∃ s', read (storeEngine strict) (fun t => t.map Char.toLower) id
      twoRecords none (Reader.sql .getHistoryArray) (Reader.names .getHistoryArray) 0 (fun k => k) 3 =
        .returned (.array ((Reader.items twoRecords .getHistoryArray).take 1)) s' ∧
      Closed twoRecords s' := by
  have hrun : (storeEngine strict).run twoRecords (Reader.sql .getHistoryArray) [] =
      ⟨(Reader.rows twoRecords .getHistoryArray).take 1, none, twoRecords⟩ := rfl
  exact reader_eq (serves_storeEngine strict) lowersAscii_map twoRecords .getHistoryArray hrun 0
    (fun k => k) (by decide)

end MysqlConnection.L2.SQLMgr
