import MysqlConnection.L2Store.FMSteps

/-!
# What becomes of the statements of SQLite

`executeUpdate` finalizes the statement it has just put in the cache
(`cachedStmt` is set to nil too early), so the same text must not be executed
again while the cache is on. `FMStatement close` and `reset` call nothing of
SQLite, so the statement of a query lives until the database is closed.

* `undefined_iff`: exactly which calls use a finalized statement.
* `live_count`: how many statements are alive in any reachable state.
-/
namespace MysqlConnection.L2.FM

open Sqlite3

section
variable {D C : Type} (e : Engine D Value C) (lower : NSString → NSString)

/-! ## Calls on finalized statements -/

/-- The cache has the text, and `executeUpdate` put it there. -/
def Poisoned (s : St D C) (sql : NSString) : Prop :=
  ∃ o obj, cachedStatementForQuery s sql = some o ∧ s.statements[o]? = some obj ∧
    obj.statement ≠ none ∧ obj.byUpdate = true

/-- The result set is open, and the database was closed since it was made. -/
def Outdated (s : St D C) (i : Nat) : Prop :=
  ∃ rs o obj, s.resultSets[i]? = some rs ∧ rs.statement = some o ∧ s.statements[o]? = some obj ∧
    obj.statement ≠ none ∧ obj.era < s.era

/-- The text a call executes. -/
def Label.executes : Label → Option NSString
  | .executeQuery sql _ _ => some sql
  | .executeUpdate sql _ _ _ => some sql
  | .rollback _ _ => some (ns "ROLLBACK TRANSACTION;")
  | .commit _ _ => some (ns "COMMIT TRANSACTION;")
  | .beginDeferredTransaction _ _ => some (ns "BEGIN DEFERRED TRANSACTION;")
  | .beginTransaction _ _ => some (ns "BEGIN EXCLUSIVE TRANSACTION;")
  | _ => none

/-- The result set a call asks for a row or a column. The names are asked once. -/
def Label.reads (s : St D C) : Label → Option Nat
  | .next i _ => some i
  | .columnIndexForName i _ => if s.resultSets[i]?.all (·.columnNamesSetup) then none else some i
  | .stringForColumnIndex i _ => some i
  | _ => none

def Hazard (s : St D C) (l : Label) : Prop :=
  (s.inUse = false ∧ ∃ sql, l.executes = some sql ∧ Poisoned s sql) ∨
    ∃ i, l.reads s = some i ∧ Outdated s i

theorem get_new (s : St D C) (sql : NSString) (c : Compiled) :
    Mem.get (s.stmts ++ [some (Stmt.ofCompiled e sql c)]) s.stmts.length =
      some (Stmt.ofCompiled e sql c) := by
  rw [get_append, if_pos rfl]

theorem poisoned_iff {s : St D C} (h : Owned s) {sql : NSString} (args : List Obj) (busy : Nat) :
    Poisoned s sql ↔ ∃ s₁ p, prepare e (taken s) (cachedStatementForQuery s sql) sql busy =
      (s₁, .ready p) ∧ bindArguments s₁ p args = .undefined := by
  constructor
  · rintro ⟨o, obj, ho, hobj, hne, hby⟩
    obtain ⟨q, hq⟩ := Option.ne_none_iff_exists'.mp hne
    have hfin := (h.finalized_iff obj (List.mem_of_getElem? hobj) q hq).mpr (Or.inl hby)
    have hptr : pointer (taken s) o = some q := by
      rw [pointer, show (taken s).statements = s.statements from rfl, hobj]
      exact hq
    refine ⟨taken s, some q, ?_, ?_⟩
    · simp only [prepare, ho, Option.bind_some, hptr]
    · simp only [bindArguments, show (taken s).stmts = s.stmts from rfl, hfin]
  · rintro ⟨s₁, p, hp, hb⟩
    have hdead : ∃ q, p = some q ∧ s₁.stmts.get q = none := by
      rcases bindArguments_cases s₁ p args with ⟨-, hr⟩ | ⟨q, hq, hn, -⟩ | ⟨q, st, -, -, hr⟩
      · rw [hr] at hb; cases hb
      · exact ⟨q, hq, hn⟩
      · rw [hr] at hb; split at hb <;> cases hb
    obtain ⟨q, rfl, hdead⟩ := hdead
    rcases prepare_cases e hp with ⟨o, q', ho, hq', rfl, hr⟩ | ⟨-, hloop⟩
    · cases hr
      obtain ⟨obj, hobj, hera⟩ := h.cached _ (cachedStatement_mem ho)
      have hst : obj.statement = some q := by
        rw [pointer, show (taken s).statements = s.statements from rfl, hobj] at hq'
        exact hq'
      have hfin := (h.finalized_iff obj (List.mem_of_getElem? hobj) q hst).mp hdead
      refine ⟨o, obj, ho, hobj, by rw [hst]; exact Option.some_ne_none q, ?_⟩
      exact hfin.resolve_right (by rw [hera]; exact Nat.lt_irrefl _)
    · -- a statement that was compiled just now is alive
      rcases prepareLoop_cases e hloop with ⟨c, code, -, hr⟩ | ⟨-, hr⟩ | ⟨c, -, -, hr, rfl⟩
      · cases hr
      · cases hr
      · cases hr
        have hget := get_new e s sql c
        exact absurd (hget.symm.trans hdead) (Option.some_ne_none _)

theorem not_poisoned {s s₁ : St D C} {c : Code} (h : Owned s) {sql : NSString} {busy : Nat}
    (hp : prepare e (taken s) (cachedStatementForQuery s sql) sql busy = (s₁, .failed c)) :
    ¬ Poisoned s sql := by
  intro hpoisoned
  obtain ⟨s₂, p, heq, -⟩ := (poisoned_iff e h [] busy).mp hpoisoned
  rw [hp] at heq
  cases heq

theorem poisoned_iff_bind {s s₁ : St D C} {p : Option Nat} (h : Owned s) {sql : NSString}
    {busy : Nat} (args : List Obj)
    (hp : prepare e (taken s) (cachedStatementForQuery s sql) sql busy = (s₁, .ready p)) :
    Poisoned s sql ↔ bindArguments s₁ p args = .undefined := by
  rw [poisoned_iff e h args busy, hp]
  constructor
  · intro hbind
    obtain ⟨s₂, p', heq, hb⟩ := hbind
    cases heq
    exact hb
  · intro hb
    exact ⟨s₁, p, rfl, hb⟩

theorem complainAboutInUse_ne {α : Type} (s : St D C) (a : α) :
    complainAboutInUse s a ≠ .undefined := by
  unfold complainAboutInUse
  split <;> exact nofun

theorem prepareFailed_ne {α : Type} (s : St D C) (c : Code) (a : α) :
    prepareFailed s c a ≠ .undefined := by
  unfold prepareFailed
  split <;> exact nofun

theorem executeQuery_undefined_iff {s : St D C} (h : Owned s) (sql : NSString) (args : List Obj)
    (busy : Nat) :
    executeQuery e s sql args busy = .undefined ↔ s.inUse = false ∧ Poisoned s sql := by
  cases hin : s.inUse with
  | true =>
    rw [executeQuery_inUse e hin]
    exact iff_of_false (complainAboutInUse_ne s none) fun hboth => Bool.noConfusion hboth.1
  | false =>
    rcases hp : prepare e (taken s) (cachedStatementForQuery s sql) sql busy with ⟨s₁, r⟩
    cases r with
    | failed c =>
      rw [executeQuery_failed e hin hp]
      exact iff_of_false (prepareFailed_ne s₁ c none) fun hboth => not_poisoned e h hp hboth.2
    | ready p =>
      rw [executeQuery_ready e hin hp, poisoned_iff_bind e h args hp,
        Call.bind_eq_undefined_iff fun _ _ => Call.returned_ne_undefined _ _]
      exact (and_iff_right rfl).symm

/-- Stepping uses no finalized statement if binding did not. -/
theorem stepUpdate_ne {s : St D C} {p : Option Nat} (hu : Usable s p) (busy : Nat) :
    stepUpdate e s p busy ≠ .undefined := by
  rcases stepUpdate_cases e s p busy with ⟨-, hr⟩ | ⟨q, hq, hn, -⟩ | ⟨q, st, -, -, hr⟩
  · rw [hr]; exact nofun
  · exact absurd hn (hu q hq)
  · rcases hr with hr | ⟨-, hr⟩ | ⟨-, hr⟩ <;> rw [hr] <;> exact nofun

theorem executeUpdate_undefined_iff {s : St D C} (h : Owned s) (sql : NSString) (args : List Obj)
    (busy busyStep : Nat) :
    executeUpdate e s sql args busy busyStep = .undefined ↔ s.inUse = false ∧ Poisoned s sql := by
  cases hin : s.inUse with
  | true =>
    rw [executeUpdate_inUse e hin]
    exact iff_of_false (complainAboutInUse_ne s false) fun hboth => Bool.noConfusion hboth.1
  | false =>
    rcases hp : prepare e (taken s) (cachedStatementForQuery s sql) sql busy with ⟨s₁, r⟩
    cases r with
    | failed c =>
      rw [executeUpdate_failed e hin hp]
      exact iff_of_false (prepareFailed_ne s₁ c false) fun hboth => not_poisoned e h hp hboth.2
    | ready p =>
      rw [executeUpdate_ready e hin hp, Call.bind_eq_undefined, poisoned_iff_bind e h args hp]
      have hready := (inCall_prepare e (owned_taken h) hp).2 p rfl
      have hbind := inCall_bindArguments hready args
      constructor
      · intro hcall
        rcases hcall with hb | ⟨_, s₂, hr, hs⟩
        · exact ⟨rfl, hb⟩
        · rw [hr] at hbind
          have hfinish (s₃ : St D C) :
              finishUpdate s₃ sql (cachedStatementForQuery s sql) p ≠ .undefined :=
            Call.returned_ne_undefined _ _
          rw [Call.bind_eq_undefined_iff fun _ => hfinish] at hs
          exact absurd hs (stepUpdate_ne e hbind.2 busyStep)
      · intro hboth
        exact Or.inl hboth.2

/-- A result set is outdated if its statement is finalized. -/
theorem outdated_iff {s : St D C} (h : Owned s) (i : Nat) :
    Outdated s i ↔ ∃ p, resultPointer s i = some p ∧ s.stmts.get p = none := by
  constructor
  · rintro ⟨rs, o, obj, hrs, ho, hobj, hne, hera⟩
    obtain ⟨p, hp⟩ := Option.ne_none_iff_exists'.mp hne
    refine ⟨p, ?_, ?_⟩
    · simp only [resultPointer, hrs, Option.bind_some, ho, pointer, hobj, hp]
    · exact (h.finalized_iff obj (List.mem_of_getElem? hobj) p hp).mpr (Or.inr hera)
  · rintro ⟨p, hp, hdead⟩
    simp only [resultPointer, pointer, Option.bind_eq_some_iff] at hp
    obtain ⟨rs, hrs, o, ho, obj, hobj, hst⟩ := hp
    obtain ⟨obj', hobj', hq⟩ := h.query rs (List.mem_of_getElem? hrs) o ho
    rw [hobj, Option.some.injEq] at hobj'
    subst hobj'
    have hne : obj.statement ≠ none := by rw [hst]; exact Option.some_ne_none p
    have hfin := (h.finalized_iff obj (List.mem_of_getElem? hobj) p hst).mp hdead
    refine ⟨rs, o, obj, hrs, ho, hobj, hne, hfin.resolve_left ?_⟩
    rw [hq hne]
    exact Bool.false_ne_true

theorem outdated_iff_get {s : St D C} (h : Owned s) {i p : Nat} (hp : resultPointer s i = some p) :
    Outdated s i ↔ s.stmts.get p = none := by
  rw [outdated_iff h, hp]
  simp

theorem not_outdated {s : St D C} (h : Owned s) {i : Nat} (hp : resultPointer s i = none) :
    ¬ Outdated s i := by
  rw [outdated_iff h, hp]
  simp

theorem next_undefined_iff {s : St D C} (h : Owned s) (i busy : Nat) :
    next e s i busy = .undefined ↔ Outdated s i := by
  rcases next_cases e s i busy with ⟨hp, hr⟩ | ⟨p, hp, hn, hr⟩ | ⟨p, st, hp, hget, hr⟩
  · rw [hr]
    exact iff_of_false (Call.returned_ne_undefined _ _) (not_outdated h hp)
  · rw [hr]
    exact iff_of_true rfl ((outdated_iff_get h hp).mpr hn)
  · rw [outdated_iff_get h hp, hget]
    refine iff_of_false ?_ (Option.some_ne_none st)
    rcases hr with ⟨-, hr⟩ | ⟨-, -, hr⟩ | ⟨-, -, hr⟩ <;> rw [hr] <;> exact Call.returned_ne_undefined _ _

theorem columnIndexForName_undefined_iff {s : St D C} (h : Owned s) (i : Nat) (columnName : NSString) :
    columnIndexForName lower s i columnName = .undefined ↔
      s.resultSets[i]?.all (·.columnNamesSetup) = false ∧ Outdated s i := by
  have hnames : columnNames s i = none ↔ Outdated s i := by
    rw [columnNames]
    cases hp : resultPointer s i with
    | none => exact iff_of_false nofun (not_outdated h hp)
    | some p => simp [outdated_iff_get h hp]
  unfold columnIndexForName
  split
  · rename_i hsetup
    rw [hsetup]
    exact iff_of_false nofun fun hboth => Bool.noConfusion hboth.1
  · rename_i hsetup
    rw [Bool.not_eq_true] at hsetup
    rw [← hnames]
    rcases setupColumnNames_cases lower s i with ⟨hn, hr⟩ | ⟨f, -, hn, hr⟩
    · rw [hr]; exact iff_of_true rfl ⟨hsetup, hn⟩
    · rw [hr]; exact iff_of_false nofun fun hboth => hn hboth.2

theorem stringForColumnIndex_undefined_iff {s : St D C} (h : Owned s)
    (columnText : C → Option NSString) (i : Nat) (columnIdx : Option Nat) :
    stringForColumnIndex s columnText i columnIdx = .undefined ↔ Outdated s i := by
  cases hp : resultPointer s i with
  | none =>
    simp only [stringForColumnIndex, hp]
    exact iff_of_false (Call.returned_ne_undefined _ _) (not_outdated h hp)
  | some p =>
    rw [outdated_iff_get h hp]
    cases hq : s.stmts.get p with
    | none =>
      simp only [stringForColumnIndex, hp, hq]
    | some st =>
      simp only [stringForColumnIndex, hp, hq]
      exact iff_of_false (Call.returned_ne_undefined _ _) (Option.some_ne_none st)

theorem withFlag_undefined_iff {s : St D C} (h : Owned s) (flag : Bool) (sql : NSString)
    (busy busyStep : Nat) :
    withFlag e s flag sql busy busyStep = .undefined ↔ s.inUse = false ∧ Poisoned s sql := by
  rw [← executeUpdate_undefined_iff e h sql [] busy busyStep, withFlag]
  exact Call.bind_eq_undefined_iff fun _ _ => Call.returned_ne_undefined _ _

/-- **Calls on finalized statements.** In any run in which `open` is called
without a handle only, a call uses a finalized statement exactly if it executes,
while the object is not in use, a text that is in the cache with a statement
that `executeUpdate` made, or if it steps or asks for a column a result set that
is open, was made before the last `close` and still has its pointer. -/
theorem undefined_iff {s : St D C} (h : (lts e lower).Reachable s) (l : Label) :
    call e lower s l = .undefined ↔ Hazard s l := by
  have ho := (owned_inductive e lower).reachable h
  have hexec : ∀ sql, l.executes = some sql → l.reads s = none →
      (Hazard s l ↔ s.inUse = false ∧ Poisoned s sql) := by
    intro sql hsql hreads
    constructor
    · rintro (⟨hin, sql', heq, hp⟩ | ⟨i, heq, -⟩)
      · rw [hsql] at heq; cases heq; exact ⟨hin, hp⟩
      · rw [hreads] at heq; cases heq
    · rintro ⟨hin, hp⟩
      exact Or.inl ⟨hin, sql, hsql, hp⟩
  have hread : ∀ i, l.executes = none → l.reads s = some i → (Hazard s l ↔ Outdated s i) := by
    intro i hno hreads
    constructor
    · rintro (⟨-, sql, heq, -⟩ | ⟨j, heq, hout⟩)
      · rw [hno] at heq; cases heq
      · rw [hreads] at heq; cases heq; exact hout
    · intro hout
      exact Or.inr ⟨i, hreads, hout⟩
  have hnone : l.executes = none → l.reads s = none → ¬ Hazard s l := by
    rintro hn hreads (⟨-, sql, heq, -⟩ | ⟨i, heq, -⟩)
    · rw [hn] at heq; cases heq
    · rw [hreads] at heq; cases heq
  have hvalue : ∀ {α : Type} (r : Call (St D C) α),
      (r.bind fun _ s' => .returned () s') = .undefined ↔ r = .undefined :=
    fun _ => Call.bind_eq_undefined_iff fun _ _ => Call.returned_ne_undefined _ _
  cases l with
  | openDb error => cases error <;> exact iff_of_false nofun (hnone rfl rfl)
  | close => exact iff_of_false nofun (hnone rfl rfl)
  | clearCachedStatements => exact iff_of_false nofun (hnone rfl rfl)
  | setShouldCacheStatements _ => exact iff_of_false nofun (hnone rfl rfl)
  | setBusyRetryTimeout _ => exact iff_of_false nofun (hnone rfl rfl)
  | setLogsErrors _ => exact iff_of_false nofun (hnone rfl rfl)
  | setCrashOnErrors _ => exact iff_of_false nofun (hnone rfl rfl)
  | setInUse _ => exact iff_of_false nofun (hnone rfl rfl)
  | closeResultSet _ => exact iff_of_false nofun (hnone rfl rfl)
  | executeQuery sql args busy =>
    rw [call, hvalue, hexec sql rfl rfl, executeQuery_undefined_iff e ho]
  | executeUpdate sql args busy busyStep =>
    rw [call, hvalue, hexec sql rfl rfl, executeUpdate_undefined_iff e ho]
  | rollback busy busyStep =>
    rw [call, hvalue, hexec _ rfl rfl, rollback, withFlag_undefined_iff e ho]
  | commit busy busyStep =>
    rw [call, hvalue, hexec _ rfl rfl, commit, withFlag_undefined_iff e ho]
  | beginDeferredTransaction busy busyStep =>
    rw [call, hvalue, hexec _ rfl rfl, beginDeferredTransaction, withFlag_undefined_iff e ho]
  | beginTransaction busy busyStep =>
    rw [call, hvalue, hexec _ rfl rfl, beginTransaction, withFlag_undefined_iff e ho]
  | next i busy =>
    rw [call, hvalue, hread i rfl rfl, next_undefined_iff e ho]
  | columnIndexForName i columnName =>
    rw [call, hvalue, columnIndexForName_undefined_iff lower ho]
    cases hsetup : s.resultSets[i]?.all (·.columnNamesSetup) with
    | true =>
      have hreads : Label.reads s (.columnIndexForName i columnName) = none := if_pos hsetup
      exact iff_of_false (fun hboth => Bool.noConfusion hboth.1) (hnone rfl hreads)
    | false =>
      have hreads : Label.reads s (.columnIndexForName i columnName) = some i :=
        if_neg (by rw [hsetup]; exact Bool.false_ne_true)
      rw [hread i rfl hreads]
      exact and_iff_right rfl
  | stringForColumnIndex i columnIdx =>
    rw [call, hvalue, hread i rfl rfl, stringForColumnIndex_undefined_iff ho]

/-! ## Statements that stay -/

/-- What a call compiles, unless it finds a statement of its text in the cache. -/
def compiled (s : St D C) (statement : Option Nat) (sql : NSString) (busy : Nat) : Option Compiled :=
  if s.db = .opened ∧ statement.bind (pointer s) = none ∧
      givesUp s.busyRetryTimeout 0 busy = false ∧ e.blank sql = false then
    (e.compile s.file sql).toOption
  else none

/-- The arguments are too few, or the text is in the cache without a statement. -/
def Stays (statement : Option Nat) (args : List Obj) (c : Compiled) : Prop :=
  args.length < c.parameters ∨ statement ≠ none

instance (statement : Option Nat) (args : List Obj) (c : Compiled) :
    Decidable (Stays statement args c) :=
  inferInstanceAs (Decidable (_ ∨ _))

def queryLeaves (s : St D C) (sql : NSString) (busy : Nat) : Nat :=
  if s.inUse then 0
  else if (compiled e s (cachedStatementForQuery s sql) sql busy).isSome then 1 else 0

def updateLeaves (s : St D C) (sql : NSString) (args : List Obj) (busy : Nat) : Nat :=
  if s.inUse then 0
  else
    match compiled e s (cachedStatementForQuery s sql) sql busy with
    | none => 0
    | some c => if Stays (cachedStatementForQuery s sql) args c then 1 else 0

/-- How many statements of SQLite a call makes that it does not finalize. -/
def leaves (s : St D C) : Label → Nat
  | .executeQuery sql _ busy => queryLeaves e s sql busy
  | .executeUpdate sql args busy _ => updateLeaves e s sql args busy
  | .rollback busy _ => updateLeaves e s (ns "ROLLBACK TRANSACTION;") [] busy
  | .commit busy _ => updateLeaves e s (ns "COMMIT TRANSACTION;") [] busy
  | .beginDeferredTransaction busy _ =>
    updateLeaves e s (ns "BEGIN DEFERRED TRANSACTION;") [] busy
  | .beginTransaction busy _ => updateLeaves e s (ns "BEGIN EXCLUSIVE TRANSACTION;") [] busy
  | _ => 0

/-- So many statements are alive, and the handle is this one. -/
def Counts (n : Nat) (db : Handle) (s : St D C) : Prop := s.stmts.liveCount = n ∧ s.db = db

theorem Counts.put {n : Nat} {db : Handle} {s : St D C} (h : Counts n db s) {p : Nat}
    {st : Stmt Value C} (hp : s.stmts.get p = some st) (st' : Stmt Value C) :
    Counts n db { s with stmts := s.stmts.put p st' } :=
  ⟨(liveCount_put hp st').trans h.1, h.2⟩

theorem prepare_compiled {s : St D C} {statement : Option Nat} {sql : NSString} {busy : Nat}
    {c : Compiled} (h : compiled e s statement sql busy = some c) :
    prepare e s statement sql busy =
      ({ s with errcode := .ok, stmts := s.stmts ++ [some (Stmt.ofCompiled e sql c)] },
        .ready (some s.stmts.length)) := by
  unfold compiled at h
  split at h
  · rename_i hc
    obtain ⟨hdb, hnone, hgives, hblank⟩ := hc
    cases hcomp : e.compile s.file sql with
    | error n => rw [hcomp] at h; cases h
    | ok c' =>
      rw [hcomp] at h
      cases h
      simp only [prepare, hnone, prepareLoop, hdb, hgives, hblank, hcomp, Bool.false_eq_true,
        if_false]
  · cases h

theorem prepare_not_compiled {s s' : St D C} {statement : Option Nat} {sql : NSString} {busy : Nat}
    {r : Prepared} (hc : compiled e s statement sql busy = none)
    (h : prepare e s statement sql busy = (s', r)) :
    s'.stmts = s.stmts ∧ s'.db = s.db ∧ (statement = none → ∀ p, r ≠ .ready (some p)) := by
  rcases prepare_cases e h with ⟨o, p, rfl, -, rfl, rfl⟩ | ⟨hnone, h⟩
  · exact ⟨rfl, rfl, nofun⟩
  · have hloop := h
    rcases prepareLoop_cases e h with ⟨c, code, rfl, rfl⟩ | ⟨rfl, rfl⟩ | ⟨c, hdb, hcomp, rfl, rfl⟩
    · exact ⟨rfl, rfl, fun _ _ => nofun⟩
    · exact ⟨rfl, rfl, fun _ _ => nofun⟩
    · exfalso
      unfold prepareLoop at hloop
      rw [hdb] at hloop
      simp only at hloop
      split at hloop
      · cases congrArg (·.2) hloop
      · rename_i hgives
        split at hloop
        · cases congrArg (·.2) hloop
        · rename_i hblank
          rw [Bool.not_eq_true] at hgives hblank
          rw [compiled, if_pos ⟨hdb, hnone, hgives, hblank⟩, hcomp] at hc
          cases hc

theorem bindLoop_enough (args : List Obj) : ∀ (n idx : Nat) (st : Stmt Value C),
    (bindLoop args n idx st).2 = true ↔ n = 0 ∨ idx + n ≤ args.length
  | 0, idx, st => iff_of_true rfl (Or.inl rfl)
  | n + 1, idx, st => by
    rw [bindLoop]
    cases hobj : args[idx]? with
    | none =>
      rw [List.getElem?_eq_none_iff] at hobj
      exact iff_of_false Bool.false_ne_true (by omega)
    | some obj =>
      have hlt : idx < args.length := by
        by_contra hge
        rw [List.getElem?_eq_none (by omega)] at hobj
        cases hobj
      rw [bindLoop_enough args n (idx + 1)]
      omega

theorem counts_bindArguments {n : Nat} {db : Handle} {s : St D C} (h : Counts n db s)
    (p : Option Nat) (args : List Obj) :
    (bindArguments s p args).Ensures (fun _ s' => Counts n db s' ∧ Usable s' p) (Counts n db) := by
  rcases bindArguments_cases s p args with ⟨rfl, hr⟩ | ⟨q, rfl, -, hr⟩ | ⟨q, st, rfl, hq, hr⟩
  · rw [hr]; exact ⟨h, nofun⟩
  · rw [hr]; trivial
  · rw [hr]
    split
    · exact ⟨h.put hq _, usable_put hq _⟩
    · exact h.put hq _

/-- Stepping raises nothing, whatever `R` is. -/
theorem counts_stepUpdate {n : Nat} {db : Handle} {s : St D C} (h : Counts n db s) {p : Option Nat}
    (hu : Usable s p) (busy : Nat) (R : St D C → Prop) :
    (stepUpdate e s p busy).Ensures (fun _ s' => Counts n db s' ∧ Usable s' p) R := by
  rcases stepUpdate_cases e s p busy with ⟨rfl, hr⟩ | ⟨q, rfl, -, hr⟩ | ⟨q, st, rfl, hq, hr⟩
  · rw [hr]; exact ⟨h, hu⟩
  · rw [hr]; trivial
  · rcases hr with hr | ⟨-, hr⟩ | ⟨-, hr⟩
    · rw [hr]
      exact ⟨h.put hq st.busyStep, usable_put hq st.busyStep⟩
    · rw [hr]; trivial
    · rw [hr]
      exact ⟨h.put hq _, usable_put hq _⟩

theorem counts_newStatement {n : Nat} {db : Handle} {s : St D C} (sql : NSString) (p : Option Nat)
    (byUpdate : Bool) : Counts n db (newStatement s sql p byUpdate) ↔ Counts n db s := by
  unfold newStatement setCachedStatement
  simp only
  split <;> exact Iff.rfl

theorem counts_openResultSet {n : Nat} {db : Handle} {s : St D C} (sql : NSString)
    (statement p : Option Nat) :
    Counts n db (openResultSet s sql statement p) ↔ Counts n db s := by
  unfold openResultSet
  cases statement with
  | some o => exact Iff.rfl
  | none => exact counts_newStatement sql p false

/-- The statement of an update goes, unless the cache had its text before. -/
theorem counts_finishUpdate {n k : Nat} {db : Handle} {s : St D C} {cachedStmt p : Option Nat}
    (h : Counts n db s) (hu : Usable s p) (sql : NSString)
    (hk : n = k + if cachedStmt = none ∧ p ≠ none then 1 else 0) :
    (finishUpdate s sql cachedStmt p).Ensures (fun _ => Counts k db) (Counts k db) := by
  unfold finishUpdate
  cases cachedStmt with
  | some o =>
    have hn : n = k := by rw [hk, if_neg (by rintro ⟨⟨⟩, -⟩)]; rfl
    subst hn
    show Counts _ _ _
    simp only
    unfold resetStmt
    split
    · exact h
    · split
      · exact h
      · rename_i st hq
        exact h.put hq st.reset
  | none =>
    have hfin : Counts k db (finalizeStmt s p) := by
      cases p with
      | none =>
        have hn : n = k := by rw [hk, if_neg (by rintro ⟨-, hp⟩; exact hp rfl)]; rfl
        subst hn
        exact h
      | some q =>
        obtain ⟨st, hst⟩ := Option.ne_none_iff_exists'.mp (hu q rfl)
        refine ⟨?_, h.2⟩
        have hone := liveCount_finalize hst
        rw [if_pos ⟨rfl, nofun⟩] at hk
        have hn := h.1
        show (s.stmts.finalize q).liveCount = k
        omega
    show Counts _ _ _
    simp only
    split
    · rw [finalizeStmt_newStatement]
      exact (counts_newStatement sql p true).mpr hfin
    · exact hfin

theorem counts_complainAboutInUse {α : Type} {n : Nat} {db : Handle} {s : St D C}
    (h : Counts n db s) (a : α) :
    (complainAboutInUse s a).Ensures (fun _ => Counts n db) (Counts n db) := by
  unfold complainAboutInUse
  split <;> exact h

theorem counts_prepareFailed {α : Type} {n : Nat} {db : Handle} {s : St D C} (h : Counts n db s)
    (c : Code) (a : α) : (prepareFailed s c a).Ensures (fun _ => Counts n db) (Counts n db) := by
  unfold prepareFailed
  split <;> exact h

/-- One more statement. -/
theorem counts_append (s : St D C) (st : Stmt Value C) (code : Code) :
    Counts (s.stmts.liveCount + 1) s.db { s with errcode := code, stmts := s.stmts ++ [some st] } :=
  ⟨liveCount_append s.stmts st, rfl⟩

theorem counts_executeQuery (s : St D C) (sql : NSString) (args : List Obj) (busy : Nat) :
    (executeQuery e s sql args busy).Ensures
      (fun _ => Counts (s.stmts.liveCount + queryLeaves e s sql busy) s.db)
      (Counts (s.stmts.liveCount + queryLeaves e s sql busy) s.db) := by
  cases hin : s.inUse with
  | true =>
    rw [executeQuery_inUse e hin, queryLeaves, if_pos hin]
    exact counts_complainAboutInUse ⟨rfl, rfl⟩ none
  | false =>
    rw [queryLeaves, if_neg (by rw [hin]; exact Bool.false_ne_true)]
    cases hc : compiled e s (cachedStatementForQuery s sql) sql busy with
    | some c =>
      have hp := prepare_compiled e (s := taken s) hc
      rw [executeQuery_ready e hin hp]
      refine (counts_bindArguments (counts_append (taken s) _ .ok) _ args).bind fun _ s₂ hs₂ => ?_
      exact (counts_openResultSet sql _ _).mpr hs₂.1
    | none =>
      rcases hp : prepare e (taken s) (cachedStatementForQuery s sql) sql busy with ⟨s₁, r⟩
      obtain ⟨hst, hdb, -⟩ := prepare_not_compiled e (s := taken s) hc hp
      have h₁ : Counts s.stmts.liveCount s.db s₁ := ⟨by rw [hst]; rfl, hdb⟩
      cases r with
      | failed c =>
        rw [executeQuery_failed e hin hp]
        exact counts_prepareFailed h₁ c none
      | ready p =>
        rw [executeQuery_ready e hin hp]
        refine (counts_bindArguments h₁ p args).bind fun _ s₂ hs₂ => ?_
        exact (counts_openResultSet sql _ p).mpr hs₂.1

/-- Binding raises if the arguments are too few. -/
theorem isRaised_bindArguments {s : St D C} {q : Nat} {st : Stmt Value C}
    (hq : s.stmts.get q = some st) (args : List Obj) :
    (bindArguments s (some q) args).isRaised = true ↔ args.length < st.bound.length := by
  have henough := bindLoop_enough args st.bound.length 0 st
  simp only [bindArguments, hq]
  by_cases hb : (bindLoop args st.bound.length 0 st).2 = true
  · rw [if_pos hb]
    have := henough.mp hb
    exact iff_of_false Bool.false_ne_true (by omega)
  · rw [if_neg hb]
    have : ¬ (st.bound.length = 0 ∨ 0 + st.bound.length ≤ args.length) :=
      fun h => hb (henough.mpr h)
    exact iff_of_true rfl (by omega)

theorem isRaised_new (s : St D C) (sql : NSString) (c : Compiled) (args : List Obj) :
    (bindArguments { s with errcode := .ok, stmts := s.stmts ++ [some (Stmt.ofCompiled e sql c)] }
      (some s.stmts.length) args).isRaised = true ↔ args.length < c.parameters := by
  rw [isRaised_bindArguments (get_new e s sql c)]
  rw [show (Stmt.ofCompiled e sql c).bound.length = c.parameters from List.length_replicate]

theorem counts_executeUpdate (s : St D C) (sql : NSString) (args : List Obj) (busy busyStep : Nat) :
    (executeUpdate e s sql args busy busyStep).Ensures
      (fun _ => Counts (s.stmts.liveCount + updateLeaves e s sql args busy) s.db)
      (Counts (s.stmts.liveCount + updateLeaves e s sql args busy) s.db) := by
  cases hin : s.inUse with
  | true =>
    rw [executeUpdate_inUse e hin, updateLeaves, if_pos hin]
    exact counts_complainAboutInUse ⟨rfl, rfl⟩ false
  | false =>
    rw [updateLeaves, if_neg (by rw [hin]; exact Bool.false_ne_true)]
    cases hc : compiled e s (cachedStatementForQuery s sql) sql busy with
    | some c =>
      have hp := prepare_compiled e (s := taken s) hc
      rw [executeUpdate_ready e hin hp]
      have hnew := counts_append (taken s) (Stmt.ofCompiled e sql c) .ok
      have hbind := counts_bindArguments hnew (some (taken s).stmts.length) args
      have hfew := isRaised_new e (taken s) sql c args
      generalize bindArguments _ _ args = r at hbind hfew ⊢
      cases r with
      | aborted => trivial
      | undefined => trivial
      | raised s₂ =>
        have hstays : Stays (cachedStatementForQuery s sql) args c := Or.inl (hfew.mp rfl)
        simp only [if_pos hstays]
        exact hbind
      | returned u s₂ =>
        have hnot : ¬ args.length < c.parameters := fun h => Bool.false_ne_true (hfew.mpr h)
        refine (counts_stepUpdate e hbind.1 hbind.2 busyStep _).bind fun _ s₃ hs₃ => ?_
        refine counts_finishUpdate hs₃.1 hs₃.2 sql ?_
        by_cases hcached : cachedStatementForQuery s sql = none
        · have hstays : ¬ Stays (cachedStatementForQuery s sql) args c := by
            rintro (h | h)
            · exact hnot h
            · exact h hcached
          simp only [if_neg hstays, if_pos (And.intro hcached (Option.some_ne_none _))]
          rfl
        · have hstays : Stays (cachedStatementForQuery s sql) args c := Or.inr hcached
          simp only [if_pos hstays]
          rw [if_neg (fun h => hcached h.1)]
          rfl
    | none =>
      rcases hp : prepare e (taken s) (cachedStatementForQuery s sql) sql busy with ⟨s₁, r⟩
      obtain ⟨hst, hdb, hready⟩ := prepare_not_compiled e (s := taken s) hc hp
      have h₁ : Counts s.stmts.liveCount s.db s₁ := ⟨by rw [hst]; rfl, hdb⟩
      cases r with
      | failed c =>
        rw [executeUpdate_failed e hin hp]
        exact counts_prepareFailed h₁ c false
      | ready p =>
        rw [executeUpdate_ready e hin hp]
        refine (counts_bindArguments h₁ p args).bind fun _ s₂ hs₂ => ?_
        refine (counts_stepUpdate e hs₂.1 hs₂.2 busyStep _).bind fun _ s₃ hs₃ => ?_
        refine counts_finishUpdate hs₃.1 hs₃.2 sql ?_
        rw [if_neg]
        · rfl
        · rintro ⟨hnone, hne⟩
          obtain ⟨q, rfl⟩ := Option.ne_none_iff_exists'.mp hne
          exact hready hnone q rfl

/-- `k` more statements than before, and no handle was given up. -/
def Grew (s : St D C) (k : Nat) (s' : St D C) : Prop :=
  s'.stmts.liveCount = s.stmts.liveCount + k ∧ (s'.db = .null → s.db = .null)

theorem grew_of_counts {s s' : St D C} {k : Nat} (h : Counts (s.stmts.liveCount + k) s.db s') :
    Grew s k s' := ⟨h.1, fun hdb => h.2.symm.trans hdb⟩

theorem grew_executeUpdate (s : St D C) (sql : NSString) (args : List Obj) (busy busyStep : Nat) :
    (executeUpdate e s sql args busy busyStep).Ensures
      (fun _ => Grew s (updateLeaves e s sql args busy))
      (Grew s (updateLeaves e s sql args busy)) :=
  (counts_executeUpdate e s sql args busy busyStep).mono (fun _ _ => grew_of_counts)
    fun _ => grew_of_counts

theorem grew_withFlag (s : St D C) (flag : Bool) (sql : NSString) (busy busyStep : Nat) :
    (withFlag e s flag sql busy busyStep).Ensures (fun _ => Grew s (updateLeaves e s sql [] busy))
      (Grew s (updateLeaves e s sql [] busy)) := by
  refine (grew_executeUpdate e s sql [] busy busyStep).bind fun b s' hs' => ?_
  show Grew _ _ _
  split <;> exact hs'

theorem grew_next (s : St D C) (i busy : Nat) :
    (next e s i busy).Ensures (fun _ => Grew s 0) (Grew s 0) := by
  have hsame : Grew s 0 s := ⟨rfl, id⟩
  rcases next_cases e s i busy with ⟨-, hr⟩ | ⟨p, -, -, hr⟩ | ⟨p, st, -, hq, hr⟩
  · rw [hr]; exact hsame
  · rw [hr]; trivial
  · rcases hr with ⟨-, hr⟩ | ⟨-, -, hr⟩ | ⟨-, -, hr⟩
    · rw [hr]; exact ⟨liveCount_put hq st.busyStep, id⟩
    · rw [hr]; exact ⟨liveCount_put hq _, id⟩
    · rw [hr]; exact ⟨liveCount_put hq _, id⟩

theorem grew_columnIndexForName (s : St D C) (i : Nat) (columnName : NSString) :
    (columnIndexForName lower s i columnName).Ensures (fun _ => Grew s 0) (Grew s 0) := by
  unfold columnIndexForName
  split
  · exact ⟨rfl, id⟩
  · rcases setupColumnNames_cases lower s i with ⟨-, hr⟩ | ⟨f, -, -, hr⟩
    · rw [hr]; trivial
    · rw [hr]; exact ⟨rfl, id⟩

/-- One call that does not close the database. -/
theorem grew_call (s : St D C) {l : Label} (hl : l ≠ .close) :
    (call e lower s l).Ensures (fun _ => Grew s (leaves e s l)) (Grew s (leaves e s l)) := by
  have hsame : Grew s 0 s := ⟨rfl, id⟩
  cases l with
  | openDb error =>
    cases error with
    | none => exact ⟨rfl, nofun⟩
    | some n => exact ⟨rfl, nofun⟩
  | close => exact absurd rfl hl
  | clearCachedStatements => exact hsame
  | setShouldCacheStatements _ => exact hsame
  | setBusyRetryTimeout _ => exact hsame
  | setLogsErrors _ => exact hsame
  | setCrashOnErrors _ => exact hsame
  | setInUse _ => exact hsame
  | closeResultSet _ => exact hsame
  | executeQuery sql args busy =>
    refine ((counts_executeQuery e s sql args busy).mono (fun _ _ => grew_of_counts)
      fun _ => grew_of_counts).bind fun _ _ hs => hs
  | executeUpdate sql args busy busyStep =>
    exact (grew_executeUpdate e s sql args busy busyStep).bind fun _ _ hs => hs
  | rollback busy busyStep => exact (grew_withFlag e s _ _ busy busyStep).bind fun _ _ hs => hs
  | commit busy busyStep => exact (grew_withFlag e s _ _ busy busyStep).bind fun _ _ hs => hs
  | beginDeferredTransaction busy busyStep =>
    exact (grew_withFlag e s _ _ busy busyStep).bind fun _ _ hs => hs
  | beginTransaction busy busyStep =>
    exact (grew_withFlag e s _ _ busy busyStep).bind fun _ _ hs => hs
  | next i busy => exact (grew_next e s i busy).bind fun _ _ hs => hs
  | columnIndexForName i columnName =>
    exact (grew_columnIndexForName lower s i columnName).bind fun _ _ hs => hs
  | stringForColumnIndex i columnIdx =>
    rcases stringForColumnIndex_cases s (fun _ => none) i columnIdx with ⟨v, hr⟩ | ⟨p, -, -, hr⟩
    · rw [call, hr]; exact hsame
    · rw [call, hr]; trivial

/-- Nothing is compiled without a handle. -/
theorem leaves_null {s : St D C} (h : s.db = .null) (l : Label) : leaves e s l = 0 := by
  have hnone : ∀ statement sql busy, compiled e s statement sql busy = none := by
    intro statement sql busy
    rw [compiled, if_neg]
    rintro ⟨hdb, -⟩
    rw [h] at hdb
    cases hdb
  have hquery : ∀ sql busy, queryLeaves e s sql busy = 0 := by
    intro sql busy
    rw [queryLeaves, hnone]
    split <;> rfl
  have hupdate : ∀ sql args busy, updateLeaves e s sql args busy = 0 := by
    intro sql args busy
    simp only [updateLeaves, hnone]
    split <;> rfl
  cases l <;> first | rfl | exact hquery _ _ | exact hupdate _ _ _

/-- Closing is recorded as `none`. -/
def recorded (s : St D C) : Label → List (Option Nat)
  | .close => [none]
  | l => [some (leaves e s l)]

/-- The sum of what was recorded since the database was last closed. -/
def sinceClose (history : List (Option Nat)) : Nat :=
  history.foldl (fun n x => x.elim 0 (n + ·)) 0

theorem recorded_of_ne {l : Label} (hl : l ≠ .close) (s : St D C) :
    recorded e s l = [some (leaves e s l)] := by
  cases l <;> first | rfl | exact absurd rfl hl

/-- Without a handle no statement is alive. -/
structure Recorded (x : St D C × List (Option Nat)) : Prop where
  count : x.1.stmts.liveCount = sinceClose x.2
  null : x.1.db = .null → x.1.stmts.liveCount = 0

theorem sinceClose_none (history : List (Option Nat)) : sinceClose (history ++ [none]) = 0 := by
  rw [sinceClose, List.foldl_append]
  rfl

theorem sinceClose_some (history : List (Option Nat)) (k : Nat) :
    sinceClose (history ++ [some k]) = sinceClose history + k := by
  rw [sinceClose, List.foldl_append]
  rfl

theorem liveCount_close {s : St D C} (h : s.db = .null → s.stmts.liveCount = 0) :
    (close e s).stmts.liveCount = 0 := by
  unfold close
  simp only
  split
  · rename_i hdb
    exact h hdb
  · exact liveCount_finalizeAll _

theorem recorded_inductive : ((lts e lower).observe (recorded e)).Inductive (Recorded (C := C)) where
  init x hx := by
    obtain ⟨⟨file, assertions, hfile⟩, hnil⟩ := hx
    refine ⟨?_, fun _ => ?_⟩
    · rw [hfile, hnil]; rfl
    · rw [hfile]; rfl
  step x l x' h hs := by
    obtain ⟨hstep, hhist⟩ := hs
    have hstate := (step_eq_some e lower hstep).2
    by_cases hl : l = .close
    · subst hl
      have hzero : x'.1.stmts.liveCount = 0 := by
        rw [call, Call.state, Option.some.injEq] at hstate
        rw [← hstate]
        exact liveCount_close e h.null
      refine ⟨?_, fun _ => hzero⟩
      rw [hhist, hzero, recorded, sinceClose_none]
    · have hgrew := (grew_call e lower x.1 hl).of_state hstate
      refine ⟨?_, fun hdb => ?_⟩
      · rw [hhist, recorded_of_ne e hl, sinceClose_some, hgrew.1, h.count]
      · have hnull := hgrew.2 hdb
        rw [hgrew.1, leaves_null e hnull, h.null hnull]

/-- **Statements that stay.** In any run in which `open` is called without a
handle only, the statements of SQLite that are alive
are as many as the calls since the last `close` left: one for each query that
compiled its text, however its result set was read or closed, and one for each
update that was given too few arguments, or whose text the cache had without a
statement. -/
theorem live_count {x : St D C × List (Option Nat)}
    (h : ((lts e lower).observe (recorded e)).Reachable x) :
    x.1.stmts.liveCount = sinceClose x.2 :=
  ((recorded_inductive e lower).reachable h).count

end

/-! ## An engine -/

/-- The database is a counter: a text that asks (`?` alone) reads it, any other
one counts up. -/
def counter : Engine Nat Value Nat where
  blank sql := sql.isEmpty
  compile _ sql := .ok ⟨if sql = ns "?" then [ns "n"] else [], 0⟩
  run n sql _ := if sql = ns "?" then ⟨[[n]], none, n⟩ else ⟨[], none, n + 1⟩
  null := .null
  close n := n

/-- The second execution of a text, with the cache on. -/
theorem undefined_iff_twice : ∃ s : St Nat Nat, (lts counter id).Reachable s ∧
    Hazard s (.executeUpdate (ns "+") [] 0 0) :=
  have hr : (lts counter id).Reachable _ :=
    LTS.reachable_of_exec ⟨0, true, rfl⟩ (rfl : LTS.exec (step counter id) (initWithPath 0)
      [.openDb none, .setShouldCacheStatements true, .executeUpdate (ns "+") [] 0 0] = some _)
  ⟨_, hr, (undefined_iff counter id hr _).mp rfl⟩

/-- Two queries, both read to the end. -/
theorem live_count_read : ∃ x : St Nat Nat × List (Option Nat),
    ((lts counter id).observe (recorded counter)).Reachable x ∧ x.1.stmts.liveCount = 2 ∧
      sinceClose x.2 = 2 := by
  have hr : ((lts counter id).observe (recorded counter)).Reachable _ :=
    LTS.reachable_observe_of_exec (recorded counter) ⟨0, true, rfl⟩ (fun _ _ _ _ h => h)
      (rfl : LTS.exec (LTS.observeFn (step counter id) (recorded counter)) (initWithPath 0, [])
        [.openDb none, .executeQuery (ns "?") [] 0, .next 0 0, .next 0 0,
          .executeQuery (ns "?") [] 0, .next 1 0, .next 1 0, .closeResultSet 1] = some _)
  exact ⟨_, hr, rfl, (live_count counter id hr).symm⟩

end MysqlConnection.L2.FM
