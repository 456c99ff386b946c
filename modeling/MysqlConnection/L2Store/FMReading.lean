import MysqlConnection.L2Store.FMGate

/-!
# Reading result sets

A result set has no position of its own: it steps the statement of SQLite it
was made for, and nothing resets a statement. With the cache on all result sets
of a text share one statement.

* `stringForColumn_eq`: a column is found by its name without regard to case; of
  several columns of one name it is the last one.
* `cursor`: in any run whose queries change nothing and never fail (`Asks`),
  the call `next` that steps a statement for the m-th time (counted from 0, over
  all its result sets) and does not give up on a lock gives the row m modulo the
  number of rows plus one, and says no where there is none.
-/
namespace MysqlConnection.L2.FM

open Sqlite3

/-! ## Columns -/

section
variable {D C : Type} (lowercaseString : NSString → NSString) (s : St D C)

/-- The last column of the name. -/
def lastIndex (key : NSString) : List NSString → Option Nat
  | [] => none
  | name :: names =>
    match lastIndex key names with
    | some k => some (k + 1)
    | none => if lowercaseString name = key then some 0 else none

variable {lowercaseString} {s}

theorem lookup_addNames (key : NSString) : ∀ (names : List NSString) (k : Nat)
    (map : List (NSString × Nat)), (addNames lowercaseString names k map).lookup key =
      ((lastIndex lowercaseString key names).map (k + ·)).or (map.lookup key)
  | [], k, map => rfl
  | name :: names, k, map => by
    rw [addNames, lookup_addNames key names (k + 1), lastIndex]
    cases lastIndex lowercaseString key names with
    | some j =>
      simp only [Option.map_some, Option.some_or, Option.some.injEq]
      omega
    | none =>
      simp only [Option.map_none, Option.none_or, List.lookup_cons]
      by_cases heq : lowercaseString name = key
      · rw [if_pos heq, heq, beq_self_eq_true]
        rfl
      · rw [if_neg heq, beq_eq_false_iff_ne.mpr fun h => heq h.symm]
        rfl

/-- The map of a result set is not made yet, or made of these names. -/
def Mapped (lowercaseString : NSString → NSString) (names : List NSString) (rs : FMResultSet) :
    Prop :=
  (rs.columnNamesSetup = false ∧ rs.columnNameToIndexMap = []) ∨
    (rs.columnNamesSetup = true ∧
      rs.columnNameToIndexMap = addNames lowercaseString names 0 [])

theorem mapped_resultSet (lowercaseString : NSString → NSString) (names : List NSString)
    (statement : Nat) : Mapped lowercaseString names (resultSetWithStatement statement) :=
  Or.inl ⟨rfl, rfl⟩

theorem set_of_getElem? {α : Type} {l : List α} {i : Nat} {a : α} (h : l[i]? = some a) :
    l.set i a = l := by
  have hlt : i < l.length := by
    by_contra hge
    rw [List.getElem?_eq_none (by omega)] at h
    cases h
  rw [List.getElem?_eq_getElem hlt, Option.some.injEq] at h
  rw [← h, List.set_getElem_self]

/-- The state after a look-up in the result set `i`. -/
structure LookedUp (s : St D C) (i : Nat) (rs rs' : FMResultSet) (s' : St D C) : Prop where
  state : s' = { s with resultSets := s.resultSets.set i rs' }
  statement : rs'.statement = rs.statement
  parentDB : rs'.parentDB = rs.parentDB

theorem LookedUp.getElem {s s' : St D C} {i : Nat} {rs rs' : FMResultSet}
    (h : LookedUp s i rs rs' s') (hi : s.resultSets[i]? = some rs) :
    s'.resultSets[i]? = some rs' := by
  have hlt : i < s.resultSets.length := by
    by_contra hge
    rw [List.getElem?_eq_none (by omega)] at hi
    cases hi
  rw [h.state]
  exact List.getElem?_set_self hlt

theorem LookedUp.resultPointer {s s' : St D C} {i : Nat} {rs rs' : FMResultSet}
    (h : LookedUp s i rs rs' s') (hi : s.resultSets[i]? = some rs) :
    resultPointer s' i = resultPointer s i := by
  rw [FM.resultPointer, FM.resultPointer, h.getElem hi, hi, Option.bind_some, Option.bind_some,
    h.statement]
  have hpointer : pointer s' = pointer s := by
    rw [h.state]
    rfl
  rw [hpointer]

/-- **A column by its name.** -/
theorem stringForColumn_eq {i p : Nat} {rs : FMResultSet} {st : Stmt Value C}
    (hi : s.resultSets[i]? = some rs) (hp : resultPointer s i = some p)
    (hst : s.stmts.get p = some st) (hm : Mapped lowercaseString st.columns rs)
    (columnText : C → Option NSString) (columnName : NSString) :
    ∃ s' rs', LookedUp s i rs rs' s' ∧ Mapped lowercaseString st.columns rs' ∧
      stringForColumn lowercaseString s columnText i columnName = .returned
        ((lastIndex lowercaseString (lowercaseString columnName) st.columns).bind fun k =>
          st.row[k]?.bind columnText) s' := by
  have hlookup : (addNames lowercaseString st.columns 0 []).lookup (lowercaseString columnName) =
      lastIndex lowercaseString (lowercaseString columnName) st.columns := by
    rw [lookup_addNames]
    cases lastIndex lowercaseString (lowercaseString columnName) st.columns with
    | none => rfl
    | some k => simp only [Option.map_some, Nat.zero_add, Option.some_or]
  rcases hm with ⟨hsetup, hmap⟩ | ⟨hsetup, hmap⟩
  · let rs' : FMResultSet :=
      { rs with
        columnNameToIndexMap := addNames lowercaseString st.columns 0 []
        columnNamesSetup := true }
    have hlooked : LookedUp s i rs rs' { s with resultSets := s.resultSets.set i rs' } :=
      ⟨rfl, rfl, rfl⟩
    have hmodify : s.resultSets.modify i (fun rs₁ => { rs₁ with
        columnNameToIndexMap := addNames lowercaseString st.columns 0 rs₁.columnNameToIndexMap
        columnNamesSetup := true }) = s.resultSets.set i rs' := by
      rw [List.modify_eq_set_getElem?, hi]
      simp only [Option.map_eq_map, Option.map_some, Option.getD_some, hmap, rs']
    have hsetupNames : setupColumnNames lowercaseString s i =
        .returned () { s with resultSets := s.resultSets.set i rs' } := by
      simp only [setupColumnNames, columnNames, hp, hst, Option.map_some, hmodify]
    refine ⟨_, rs', hlooked, Or.inr ⟨rfl, rfl⟩, ?_⟩
    have hp' := (hlooked.resultPointer hi).trans hp
    have hi' := hlooked.getElem hi
    simp only at hi'
    simp only [stringForColumn, columnIndexForName, hi, Option.all_some, hsetup,
      Bool.false_eq_true, if_false, hsetupNames, Call.bind_returned, mappedIndex, hi',
      Option.bind_some, stringForColumnIndex, hp', hst]
    rw [show rs'.columnNameToIndexMap = addNames lowercaseString st.columns 0 [] from rfl, hlookup]
  · refine ⟨s, rs, ⟨?_, rfl, rfl⟩, Or.inr ⟨hsetup, hmap⟩, ?_⟩
    · rw [set_of_getElem? hi]
    · simp only [stringForColumn, columnIndexForName, hi, Option.all_some, hsetup, if_true,
        Call.bind_returned, mappedIndex, Option.bind_some, hmap, hlookup, stringForColumnIndex, hp,
        hst]

end

section
variable {D C : Type} (e : Engine D Value C) (lower : NSString → NSString)

/-! ## Statements that are stepped -/

/-- On every database and with all values the text gives its rows, ends without
an error and changes nothing. -/
def Asks (sql : NSString) : Prop :=
  ∀ d bound, (e.run d sql bound).error = none ∧ (e.run d sql bound).after = d

/-- The rows of a statement with the values it has. -/
def rowsOf (d : D) (st : Stmt Value C) : List (List C) := (e.run d st.sql st.bound).rows

/-- The statement was stepped `m` times. -/
structure CursorAt (d : D) (m : Nat) (st : Stmt Value C) : Prop where
  asks : Asks e st.sql
  place : At (rowsOf e d st) (m % ((rowsOf e d st).length + 1)) st
  unstepped : st.stepped = false → m = 0

variable {e}

theorem Asks.reads {st : Stmt Value C} (h : Asks e st.sql) (d : D) :
    Reads e d st.sql st.bound (rowsOf e d st) := by
  obtain ⟨herror, hafter⟩ := h d st.bound
  have hparts : e.run d st.sql st.bound =
      ⟨rowsOf e d st, (e.run d st.sql st.bound).error, (e.run d st.sql st.bound).after⟩ := rfl
  rw [herror, hafter] at hparts
  exact hparts

theorem cursorAt_ofCompiled {sql : NSString} (h : Asks e sql) (d : D) (c : Compiled) :
    CursorAt e d 0 (Stmt.ofCompiled e sql c) where
  asks := h
  place := by rw [Nat.zero_mod]; exact Or.inl ⟨rfl, rfl⟩
  unstepped _ := rfl

/-- Values reach a statement only before its first step. -/
theorem CursorAt.bind {d : D} {m : Nat} {st : Stmt Value C} (h : CursorAt e d m st) (idx : Nat)
    (v : Value) : CursorAt e d m (st.bind idx v) where
  asks := by rw [sql_bind]; exact h.asks
  place := by
    cases hs : st.stepped with
    | true =>
      have hsame : st.bind idx v = st := by rw [Stmt.bind, if_pos hs]
      rw [hsame]
      exact h.place
    | false =>
      have hm := h.unstepped hs
      subst hm
      have hrest : st.rest = none := by
        rcases h.place with hz | hpos
        · exact hz.2
        · rw [Nat.zero_mod] at hpos
          exact absurd hpos.1 (Nat.lt_irrefl 0)
      rw [Nat.zero_mod]
      exact Or.inl ⟨rfl, (rest_bind st idx v).trans hrest⟩
  unstepped := by rw [stepped_bind]; exact h.unstepped

theorem CursorAt.bindLoop {d : D} {m : Nat} (args : List Obj) : ∀ (n idx : Nat) {st : Stmt Value C},
    CursorAt e d m st → CursorAt e d m (bindLoop args n idx st).1
  | 0, _, _, h => h
  | n + 1, idx, st, h => by
    rw [FM.bindLoop]
    cases args[idx]? with
    | none => exact h
    | some obj => exact CursorAt.bindLoop args n (idx + 1) (h.bind idx _)

theorem CursorAt.busyStep {d : D} {m : Nat} {st : Stmt Value C} (h : CursorAt e d m st) :
    CursorAt e d m st.busyStep :=
  ⟨h.asks, h.place, nofun⟩

/-- One step: the answer, the row and the place after it. -/
theorem CursorAt.step {d : D} {m : Nat} {st : Stmt Value C} (h : CursorAt e d m st) :
    (st.step e d).2.2 = d ∧ CursorAt e d (m + 1) (st.step e d).2.1 ∧
      match (rowsOf e d st)[m % ((rowsOf e d st).length + 1)]? with
      | some r => (st.step e d).1 = .row ∧ (st.step e d).2.1.row = r
      | none => (st.step e d).1 = .done := by
  have hle : m % ((rowsOf e d st).length + 1) ≤ (rowsOf e d st).length :=
    Nat.le_of_lt_succ (Nat.mod_lt m (Nat.succ_pos _))
  obtain ⟨hd, hat, hrow⟩ := At.step e (h.asks.reads d) h.place hle
  have hkept := kept_step e st d
  have hrows : rowsOf e d (st.step e d).2.1 = rowsOf e d st := by
    rw [rowsOf, hkept.sql, hkept.bound]
    rfl
  refine ⟨hd, ⟨?_, ?_, ?_⟩, hrow⟩
  · rw [hkept.sql]; exact h.asks
  · rw [hrows, ← Nat.mod_add_mod]
    exact hat
  · rw [stepped_step]
    exact nofun

/-! ## All statements of a database -/

variable (e)

/-- `hist`: the pointers that were stepped so far. -/
structure Cursors (hist : List Nat) (s : St D C) : Prop where
  old : ∀ p ∈ hist, p < s.stmts.length
  place : ∀ p st, s.stmts.get p = some st → CursorAt e s.file (hist.count p) st

variable {e}

theorem Cursors.put {hist : List Nat} {s : St D C} (h : Cursors e hist s) {p : Nat}
    {st st' : Stmt Value C} (hp : s.stmts.get p = some st)
    (hst' : CursorAt e s.file (hist.count p) st') :
    Cursors e hist { s with stmts := s.stmts.put p st' } where
  old q hq := by rw [length_put]; exact h.old q hq
  place q st₁ hq := by
    rw [get_put (lt_of_get hp)] at hq
    split at hq
    · rename_i hqp
      subst hqp
      cases hq
      exact hst'
    · exact h.place q st₁ hq

theorem Cursors.append {hist : List Nat} {s : St D C} (h : Cursors e hist s) {sql : NSString}
    (hsql : Asks e sql) (c : Compiled) :
    Cursors e hist { s with errcode := .ok, stmts := s.stmts ++ [some (Stmt.ofCompiled e sql c)] } where
  old q hq := by
    have := h.old q hq
    rw [List.length_append, List.length_singleton]
    omega
  place q st hq := by
    rw [get_append] at hq
    split at hq
    · rename_i hql
      cases hq
      have hnew : hist.count q = 0 := by
        rw [List.count_eq_zero]
        intro hmem
        have := h.old q hmem
        omega
      rw [hnew]
      exact cursorAt_ofCompiled hsql _ c
    · exact h.place q st hq

/-- A step, recorded. -/
theorem Cursors.afterStep {hist : List Nat} {s : St D C} (h : Cursors e hist s) {p : Nat}
    {st : Stmt Value C} (hp : s.stmts.get p = some st) :
    Cursors e (hist ++ [p]) (afterStep e s p st) := by
  obtain ⟨hfile, hst, -⟩ := (h.place p st hp).step
  refine ⟨fun q hq => ?_, fun q st₁ hq => ?_⟩
  · show q < (s.stmts.put p (st.step e s.file).2.1).length
    rw [length_put]
    rcases List.mem_append.mp hq with hq | hq
    · exact h.old q hq
    · rw [List.mem_singleton] at hq
      subst hq
      exact lt_of_get hp
  · show CursorAt e (st.step e s.file).2.2 ((hist ++ [p]).count q) st₁
    rw [hfile, List.count_append, List.count_singleton]
    have hq' : (s.stmts.put p (st.step e s.file).2.1).get q = some st₁ := hq
    rw [get_put (lt_of_get hp)] at hq'
    split at hq'
    · rename_i hqp
      subst hqp
      cases hq'
      rw [beq_self_eq_true, if_pos rfl]
      exact hst
    · rename_i hqp
      rw [if_neg (by simp only [beq_iff_eq]; exact fun heq => hqp heq.symm), Nat.add_zero]
      exact h.place q st₁ hq'

variable (e)

theorem cursors_prepare {hist : List Nat} {s s' : St D C} {statement : Option Nat} {sql : NSString}
    {busy : Nat} {r : Prepared} (h : Cursors e hist s) (hsql : Asks e sql)
    (hp : prepare e s statement sql busy = (s', r)) : Cursors e hist s' := by
  rcases prepare_cases e hp with ⟨_, _, -, -, rfl, -⟩ | ⟨-, hloop⟩
  · exact h
  · rcases prepareLoop_cases e hloop with ⟨_, _, rfl, -⟩ | ⟨rfl, -⟩ | ⟨c, -, -, -, rfl⟩
    · exact ⟨h.old, h.place⟩
    · exact ⟨h.old, h.place⟩
    · exact h.append hsql c

theorem cursors_bindArguments {hist : List Nat} {s : St D C} (h : Cursors e hist s)
    (p : Option Nat) (args : List Obj) :
    (bindArguments s p args).Ensures (fun _ => Cursors e hist) (Cursors e hist) := by
  rcases bindArguments_cases s p args with ⟨-, hr⟩ | ⟨q, -, -, hr⟩ | ⟨q, st, -, hq, hr⟩
  · rw [hr]; exact h
  · rw [hr]; trivial
  · rw [hr]
    have hput := h.put hq ((h.place q st hq).bindLoop args st.bound.length 0)
    split <;> exact hput

theorem cursors_openResultSet {hist : List Nat} {s : St D C} (h : Cursors e hist s)
    (sql : NSString) (statement p : Option Nat) :
    Cursors e hist (openResultSet s sql statement p) := by
  unfold openResultSet newStatement setCachedStatement
  cases statement with
  | some o => exact ⟨h.old, h.place⟩
  | none =>
    simp only
    split <;> exact ⟨h.old, h.place⟩

theorem cursors_executeQuery {hist : List Nat} {s : St D C} (h : Cursors e hist s) {sql : NSString}
    (hsql : Asks e sql) (args : List Obj) (busy : Nat) :
    (executeQuery e s sql args busy).Ensures (fun _ => Cursors e hist) (Cursors e hist) := by
  cases hin : s.inUse with
  | true =>
    refine (executeQuery_locked e hin sql args busy).mono (fun r s' hs' => ?_) fun s' hs' => ?_
    · rw [hs'.2]; exact h
    · rw [hs']; exact h
  | false =>
    have htaken : Cursors e hist (taken s) := ⟨h.old, h.place⟩
    rcases hp : prepare e (taken s) (cachedStatementForQuery s sql) sql busy with ⟨s₁, r⟩
    have h₁ := cursors_prepare e htaken hsql hp
    cases r with
    | failed c =>
      rw [executeQuery_failed e hin hp]
      unfold prepareFailed
      split
      · exact h₁
      · exact ⟨h₁.old, h₁.place⟩
    | ready p =>
      rw [executeQuery_ready e hin hp]
      refine (cursors_bindArguments e h₁ p args).bind fun _ s₂ hs₂ => ?_
      exact cursors_openResultSet e hs₂ sql _ p

/-! ## Runs that only read -/

/-- A query of a text that asks, or a call that executes nothing. -/
def Reading (_ : St D C) : Label → Prop
  | .executeQuery sql _ _ => Asks e sql
  | .openDb _ | .clearCachedStatements | .setShouldCacheStatements _ | .setBusyRetryTimeout _
  | .setLogsErrors _ | .setCrashOnErrors _ | .setInUse _ | .next _ _ | .closeResultSet _
  | .columnIndexForName _ _ | .stringForColumnIndex _ _ => True
  | .close | .executeUpdate _ _ _ _ | .rollback _ _ | .commit _ _
  | .beginDeferredTransaction _ _ | .beginTransaction _ _ => False

/-- The statement a call steps. -/
def stepped (s : St D C) : Label → List Nat
  | .next i busy => if givesUp (timeout s i) 0 busy then [] else (resultPointer s i).toList
  | _ => []

theorem cursors_next {hist : List Nat} {s : St D C} (h : Cursors e hist s) (i busy : Nat) :
    (next e s i busy).Ensures (fun _ => Cursors e (hist ++ stepped s (.next i busy)))
      (Cursors e (hist ++ stepped s (.next i busy))) := by
  rcases next_cases e s i busy with ⟨hp, hr⟩ | ⟨p, -, -, hr⟩ | ⟨p, st, hp, hget, hr⟩
  · rw [hr, stepped, hp]
    have hnil : (if givesUp (timeout s i) 0 busy then [] else (none : Option Nat).toList) = [] := by
      split <;> rfl
    rw [hnil, List.append_nil]
    exact ⟨h.old, h.place⟩
  · rw [hr]; trivial
  · rw [stepped, hp]
    rcases hr with ⟨hg, hr⟩ | ⟨hg, -, hr⟩ | ⟨hg, -, hr⟩
    · rw [hr, hg, if_pos rfl, List.append_nil]
      have hput := h.put hget (h.place p st hget).busyStep
      exact ⟨hput.old, hput.place⟩
    · rw [hr, hg, if_neg Bool.false_ne_true]
      exact h.afterStep hget
    · rw [hr, hg, if_neg Bool.false_ne_true]
      have hstep := h.afterStep hget
      exact ⟨hstep.old, hstep.place⟩

theorem cursors_columnIndexForName {hist : List Nat} {s : St D C} (h : Cursors e hist s) (i : Nat)
    (columnName : NSString) :
    (columnIndexForName lower s i columnName).Ensures (fun _ => Cursors e hist) (Cursors e hist) := by
  unfold columnIndexForName
  split
  · exact h
  · rcases setupColumnNames_cases lower s i with ⟨-, hr⟩ | ⟨f, -, -, hr⟩
    · rw [hr]; trivial
    · rw [hr]; exact ⟨h.old, h.place⟩

theorem cursors_inductive : (((lts e lower).restrict (Reading e)).observe stepped).Inductive
    (fun x : St D C × List Nat => Cursors e x.2 x.1) where
  init x hx := by
    obtain ⟨⟨file, assertions, hfile⟩, hnil⟩ := hx
    rw [hfile, hnil]
    refine ⟨fun p hp => absurd hp List.not_mem_nil, fun p st hp => ?_⟩
    cases hp
  step x l x' h hs := by
    obtain ⟨⟨hread, hstep⟩, hhist⟩ := hs
    rw [hhist]
    suffices hcall : (call e lower x.1 l).Ensures (fun _ => Cursors e (x.2 ++ stepped x.1 l))
        (Cursors e (x.2 ++ stepped x.1 l)) from hcall.of_state (step_eq_some e lower hstep).2
    have hsame : ∀ s' : St D C, s'.stmts = x.1.stmts → s'.file = x.1.file →
        Cursors e (x.2 ++ []) s' := by
      intro s' hst hf
      rw [List.append_nil]
      exact ⟨hst ▸ h.old, fun p st hp => hf ▸ h.place p st (hst ▸ hp)⟩
    cases l with
    | openDb error => cases error <;> exact hsame _ rfl rfl
    | clearCachedStatements => exact hsame _ rfl rfl
    | setShouldCacheStatements _ => exact hsame _ rfl rfl
    | setBusyRetryTimeout _ => exact hsame _ rfl rfl
    | setLogsErrors _ => exact hsame _ rfl rfl
    | setCrashOnErrors _ => exact hsame _ rfl rfl
    | setInUse _ => exact hsame _ rfl rfl
    | closeResultSet _ => exact hsame _ rfl rfl
    | executeQuery sql args busy =>
      simp only [stepped, List.append_nil]
      exact (cursors_executeQuery e h hread args busy).bind fun _ _ hs' => hs'
    | next i busy => exact (cursors_next e h i busy).bind fun _ _ hs' => hs'
    | columnIndexForName i columnName =>
      simp only [stepped, List.append_nil]
      exact (cursors_columnIndexForName e lower h i columnName).bind fun _ _ hs' => hs'
    | stringForColumnIndex i columnIdx =>
      rcases stringForColumnIndex_cases x.1 (fun _ => none) i columnIdx with ⟨v, hr⟩ | ⟨p, -, -, hr⟩
      · rw [call, hr]; exact hsame _ rfl rfl
      · rw [call, hr]; trivial
    | close | executeUpdate _ _ _ _ | rollback _ _ | commit _ _ | beginDeferredTransaction _ _
    | beginTransaction _ _ => exact absurd hread id

/-- **The position is the statement's.** In any run that only reads, by texts
that end without an error on every database and with all values and change
nothing, a call `next` that does not give up on a lock and whose statement was
stepped `m` times before, by whichever result set, gives the row `m` modulo the
number of rows plus one; where there is none it says no. -/
theorem cursor {x : St D C × List Nat}
    (h : (((lts e lower).restrict (Reading e)).observe stepped).Reachable x) {i busy p : Nat}
    {st : Stmt Value C} (hp : resultPointer x.1 i = some p) (hst : x.1.stmts.get p = some st)
    (hbusy : givesUp (timeout x.1 i) 0 busy = false) :
    ∃ s', next e x.1 i busy = .returned
        ((rowsOf e x.1.file st)[x.2.count p % ((rowsOf e x.1.file st).length + 1)]?).isSome s' ∧
      ∀ r, (rowsOf e x.1.file st)[x.2.count p % ((rowsOf e x.1.file st).length + 1)]? = some r →
        (s'.stmts.get p).map (·.row) = some r := by
  obtain ⟨-, -, hrow⟩ := (((cursors_inductive e lower).reachable h).place p st hst).step
  rcases next_cases e x.1 i busy with ⟨hnone, -⟩ | ⟨q, hq, hdead, -⟩ | ⟨q, st', hq, hget, hr⟩
  · rw [hp] at hnone; cases hnone
  · rw [hp] at hq; cases hq
    rw [hst] at hdead; cases hdead
  · rw [hp] at hq; cases hq
    rw [hst] at hget; cases hget
    rcases hr with ⟨hg, -⟩ | ⟨-, hcode, hr⟩ | ⟨-, hcode, hr⟩
    · rw [hbusy] at hg; cases hg
    · split at hrow
      · rename_i r hr'
        refine ⟨_, by rw [hr, hr']; rfl, fun r' hr'' => ?_⟩
        rw [hr'] at hr''
        cases hr''
        show ((x.1.stmts.put p _).get p).map _ = _
        rw [get_put (lt_of_get hst), if_pos rfl, Option.map_some, hrow.2]
      · rw [hrow] at hcode; cases hcode
    · split at hrow
      · exact absurd hrow.1 hcode
      · rename_i hnone
        refine ⟨_, by rw [hr, hnone]; rfl, fun r' hr'' => ?_⟩
        rw [hnone] at hr''
        cases hr''

end

/-- Two result sets of one text, with the cache on: the first one has read the
row, so the second one finds none. -/
theorem cursor_shared : ∃ x : St Nat Nat × List Nat,
    (((lts counter id).restrict (Reading counter)).observe stepped).Reachable x ∧
      ∃ s', next counter x.1 1 0 = .returned false s' := by
  have hasks : Asks counter (ns "?") := fun _ _ => ⟨rfl, rfl⟩
  have hr : (((lts counter id).restrict (Reading counter)).observe stepped).Reachable _ :=
    LTS.reachable_observe_of_exec stepped ⟨0, true, rfl⟩
      (fun l hl s s' h => by
        refine ⟨?_, h⟩
        simp only [List.mem_cons, List.not_mem_nil, or_false] at hl
        rcases hl with rfl | rfl | rfl | rfl | rfl
        · trivial
        · trivial
        · exact hasks
        · exact hasks
        · trivial)
      (rfl : LTS.exec (LTS.observeFn (step counter id) stepped) (initWithPath 0, [])
        [.openDb none, .setShouldCacheStatements true, .executeQuery (ns "?") [] 0,
          .executeQuery (ns "?") [] 0, .next 0 0] = some _)
  obtain ⟨s', hnext, -⟩ := cursor counter id hr (rfl : resultPointer _ 1 = some 0) rfl
    (rfl : givesUp 0 0 0 = false)
  exact ⟨_, hr, s', hnext⟩

end MysqlConnection.L2.FM
