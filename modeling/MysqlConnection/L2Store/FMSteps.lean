import MysqlConnection.Core.LTS
import MysqlConnection.L2Store.FMDatabase

/-!
# Runs of the database object

The calls a program makes on one `FMDatabase` and its result sets, in any order
(`Label`), and what one call does, phase by phase: what preparing can give
(`prepare_cases`), and that binding and stepping only write the statement they
are about.

* `Owned`: the invariant of all runs. The pointer of an `FMStatement` is to a
  finalized statement exactly if `executeUpdate` made it or the database was
  closed since.
-/
namespace MysqlConnection.L2.FM

open Sqlite3

/-! ## Runs -/

inductive Label where
  | openDb (error : Option Nat)
  | close
  | clearCachedStatements
  | setShouldCacheStatements (value : Bool)
  | setBusyRetryTimeout (timeout : Int32)
  | setLogsErrors (flag : Bool)
  | setCrashOnErrors (flag : Bool)
  | setInUse (flag : Bool)
  | executeQuery (sql : NSString) (args : List Obj) (busy : Nat)
  | executeUpdate (sql : NSString) (args : List Obj) (busy busyStep : Nat)
  | rollback (busy busyStep : Nat)
  | commit (busy busyStep : Nat)
  | beginDeferredTransaction (busy busyStep : Nat)
  | beginTransaction (busy busyStep : Nat)
  | next (i busy : Nat)
  | closeResultSet (i : Nat)
  | columnIndexForName (i : Nat) (columnName : NSString)
  | stringForColumnIndex (i : Nat) (columnIdx : Option Nat)
  deriving DecidableEq, Repr

section
variable {D C : Type} (e : Engine D Value C) (lower : NSString → NSString)

/-- The call of a label, without its value. Of the getters of a column there is
one: they all ask the statement of SQLite.
mirrors FMDatabase.m:619-686 -/
def call (s : St D C) : Label → Call (St D C) Unit
  | .openDb error => (openDb s error).bind fun _ s' => .returned () s'
  | .close => .returned () (close e s)
  | .clearCachedStatements => .returned () (clearCachedStatements s)
  | .setShouldCacheStatements value => .returned () (setShouldCacheStatements s value)
  | .setBusyRetryTimeout timeout => .returned () { s with busyRetryTimeout := timeout }
  | .setLogsErrors flag => .returned () { s with logsErrors := flag }
  | .setCrashOnErrors flag => .returned () { s with crashOnErrors := flag }
  | .setInUse flag => .returned () { s with inUse := flag }
  | .executeQuery sql args busy => (executeQuery e s sql args busy).bind fun _ s' => .returned () s'
  | .executeUpdate sql args busy busyStep =>
    (executeUpdate e s sql args busy busyStep).bind fun _ s' => .returned () s'
  | .rollback busy busyStep => (rollback e s busy busyStep).bind fun _ s' => .returned () s'
  | .commit busy busyStep => (commit e s busy busyStep).bind fun _ s' => .returned () s'
  | .beginDeferredTransaction busy busyStep =>
    (beginDeferredTransaction e s busy busyStep).bind fun _ s' => .returned () s'
  | .beginTransaction busy busyStep =>
    (beginTransaction e s busy busyStep).bind fun _ s' => .returned () s'
  | .next i busy => (next e s i busy).bind fun _ s' => .returned () s'
  | .closeResultSet i => .returned () (closeResultSet s i)
  | .columnIndexForName i columnName =>
    (columnIndexForName lower s i columnName).bind fun _ s' => .returned () s'
  | .stringForColumnIndex i columnIdx =>
    (stringForColumnIndex s (fun _ => none) i columnIdx).bind fun _ s' => .returned () s'

/-- A database object is opened when it has no handle. -/
def Callable (s : St D C) : Label → Prop
  | .openDb _ => s.db = .null
  | _ => True

instance (s : St D C) (l : Label) : Decidable (Callable s l) :=
  match l with
  | .openDb _ => inferInstanceAs (Decidable (s.db = .null))
  | .close | .clearCachedStatements | .setShouldCacheStatements _ | .setBusyRetryTimeout _
  | .setLogsErrors _ | .setCrashOnErrors _ | .setInUse _ | .executeQuery _ _ _
  | .executeUpdate _ _ _ _ | .rollback _ _ | .commit _ _ | .beginDeferredTransaction _ _
  | .beginTransaction _ _ | .next _ _ | .closeResultSet _ | .columnIndexForName _ _
  | .stringForColumnIndex _ _ => isTrue trivial

def step (s : St D C) (l : Label) : Option (St D C) :=
  if Callable s l then (call e lower s l).state else none

/-- A build with `NSAssert` or without. -/
def Starts (s : St D C) : Prop :=
  ∃ file assertions, s = { initWithPath file with assertions := assertions }

/-- The runs in which `open` is only called while there is no handle. -/
def lts : LTS (St D C) Label := LTS.ofFn Starts (step e lower)

/-! ## The phases of a call -/

theorem prepareLoop_cases {s s' : St D C} {sql : NSString} {busy : Nat} {r : Prepared}
    (h : prepareLoop e s sql busy = (s', r)) :
    (∃ c code, s' = { s with errcode := code } ∧ r = .failed c) ∨
    (s' = { s with errcode := .ok } ∧ r = .ready none) ∨
    (∃ c, s.db = .opened ∧ e.compile s.file sql = .ok c ∧ r = .ready (some s.stmts.length) ∧
      s' = { s with errcode := .ok, stmts := s.stmts ++ [some (Stmt.ofCompiled e sql c)] }) := by
  unfold prepareLoop at h
  split at h
  · rename_i hdb
    split at h
    · cases h; exact Or.inl ⟨_, _, rfl, rfl⟩
    split at h
    · cases h; exact Or.inr (Or.inl ⟨rfl, rfl⟩)
    split at h
    · cases h; exact Or.inl ⟨_, _, rfl, rfl⟩
    · rename_i c hc
      cases h
      exact Or.inr (Or.inr ⟨c, hdb, hc, rfl, rfl⟩)
  · cases h
    exact Or.inl ⟨_, s.errcode, rfl, rfl⟩

theorem prepare_cases {s s' : St D C} {statement : Option Nat} {sql : NSString} {busy : Nat}
    {r : Prepared} (h : prepare e s statement sql busy = (s', r)) :
    (∃ o p, statement = some o ∧ pointer s o = some p ∧ s' = s ∧ r = .ready (some p)) ∨
    (statement.bind (pointer s) = none ∧ prepareLoop e s sql busy = (s', r)) := by
  unfold prepare at h
  split at h
  · rename_i p hp
    rw [Option.bind_eq_some_iff] at hp
    obtain ⟨o, rfl, hp⟩ := hp
    cases h
    exact Or.inl ⟨o, p, rfl, hp, rfl, rfl⟩
  · rename_i hp
    exact Or.inr ⟨hp, h⟩

/-- Binding writes the statement it is about. -/
theorem bindArguments_cases (s : St D C) (p : Option Nat) (args : List Obj) :
    (p = none ∧ bindArguments s p args = .returned () s) ∨
    (∃ q, p = some q ∧ s.stmts.get q = none ∧ bindArguments s p args = .undefined) ∨
    (∃ q st, p = some q ∧ s.stmts.get q = some st ∧
      bindArguments s p args =
        if (bindLoop args st.bound.length 0 st).2 then
          .returned () { s with stmts := s.stmts.put q (bindLoop args st.bound.length 0 st).1 }
        else .raised { s with stmts := s.stmts.put q (bindLoop args st.bound.length 0 st).1 }) := by
  cases p with
  | none => exact Or.inl ⟨rfl, rfl⟩
  | some q =>
    right
    cases hq : s.stmts.get q with
    | none => left; exact ⟨q, rfl, hq, by simp only [bindArguments, hq]⟩
    | some st => right; exact ⟨q, st, rfl, hq, by simp only [bindArguments, hq]⟩

/-- Stepping writes the statement it is about, the database and the code. -/
theorem stepUpdate_cases (s : St D C) (p : Option Nat) (busy : Nat) :
    (p = none ∧ stepUpdate e s p busy = .returned () s) ∨
    (∃ q, p = some q ∧ s.stmts.get q = none ∧ stepUpdate e s p busy = .undefined) ∨
    (∃ q st, p = some q ∧ s.stmts.get q = some st ∧
      (stepUpdate e s p busy = .returned () (afterBusy s q st) ∨
        ((st.step e s.file).1 = .row ∧ stepUpdate e s p busy = .aborted) ∨
        ((st.step e s.file).1 ≠ .row ∧ stepUpdate e s p busy = .returned () (afterStep e s q st)))) := by
  cases p with
  | none => exact Or.inl ⟨rfl, rfl⟩
  | some q =>
    right
    cases hq : s.stmts.get q with
    | none => left; exact ⟨q, rfl, hq, by simp only [stepUpdate, hq]⟩
    | some st =>
      right
      refine ⟨q, st, rfl, hq, ?_⟩
      simp only [stepUpdate, hq]
      by_cases hg : givesUp s.busyRetryTimeout 0 busy = true
      · left; rw [if_pos hg]
      · right
        rw [if_neg hg]
        by_cases hrow : (st.step e s.file).1 = .row
        · left; exact ⟨hrow, if_pos hrow⟩
        · right; exact ⟨hrow, if_neg hrow⟩

theorem next_cases (s : St D C) (i busy : Nat) :
    (resultPointer s i = none ∧ next e s i busy = .returned false (closeResultSet s i)) ∨
    (∃ p, resultPointer s i = some p ∧ s.stmts.get p = none ∧ next e s i busy = .undefined) ∨
    (∃ p st, resultPointer s i = some p ∧ s.stmts.get p = some st ∧
      ((givesUp (timeout s i) 0 busy = true ∧
          next e s i busy = .returned false (closeResultSet (afterBusy s p st) i)) ∨
        (givesUp (timeout s i) 0 busy = false ∧ (st.step e s.file).1 = .row ∧
          next e s i busy = .returned true (afterStep e s p st)) ∨
        (givesUp (timeout s i) 0 busy = false ∧ (st.step e s.file).1 ≠ .row ∧
          next e s i busy = .returned false (closeResultSet (afterStep e s p st) i)))) := by
  cases hp : resultPointer s i with
  | none => left; exact ⟨rfl, by simp only [next, hp]⟩
  | some p =>
    right
    cases hq : s.stmts.get p with
    | none => left; exact ⟨p, rfl, hq, by simp only [next, hp, hq]⟩
    | some st =>
      right
      refine ⟨p, st, rfl, hq, ?_⟩
      simp only [next, hp, hq]
      by_cases hg : givesUp (timeout s i) 0 busy = true
      · left; exact ⟨hg, if_pos hg⟩
      · right
        rw [if_neg hg]
        rw [Bool.not_eq_true] at hg
        by_cases hrow : (st.step e s.file).1 = .row
        · left; exact ⟨hg, hrow, if_pos hrow⟩
        · right; exact ⟨hg, hrow, if_neg hrow⟩

/-- The state in which a call works. -/
def taken (s : St D C) : St D C := { s with inUse := true }

theorem executeQuery_inUse {s : St D C} (h : s.inUse = true) (sql : NSString) (args : List Obj)
    (busy : Nat) : executeQuery e s sql args busy = complainAboutInUse s none := by
  unfold executeQuery
  rw [if_pos h]

theorem executeQuery_failed {s s₁ : St D C} (h : s.inUse = false) {sql : NSString} {busy : Nat}
    {c : Code} (hp : prepare e (taken s) (cachedStatementForQuery s sql) sql busy = (s₁, .failed c))
    (args : List Obj) : executeQuery e s sql args busy = prepareFailed s₁ c none := by
  unfold taken at hp
  simp only [executeQuery, h, Bool.false_eq_true, if_false, hp]

theorem executeQuery_ready {s s₁ : St D C} (h : s.inUse = false) {sql : NSString} {busy : Nat}
    {p : Option Nat}
    (hp : prepare e (taken s) (cachedStatementForQuery s sql) sql busy = (s₁, .ready p))
    (args : List Obj) : executeQuery e s sql args busy =
      (bindArguments s₁ p args).bind fun _ s₂ =>
        .returned (some s₂.resultSets.length)
          (openResultSet s₂ sql (cachedStatementForQuery s sql) p) := by
  unfold taken at hp
  simp only [executeQuery, h, Bool.false_eq_true, if_false, hp]

theorem executeUpdate_inUse {s : St D C} (h : s.inUse = true) (sql : NSString) (args : List Obj)
    (busy busyStep : Nat) :
    executeUpdate e s sql args busy busyStep = complainAboutInUse s false := by
  unfold executeUpdate
  rw [if_pos h]

theorem executeUpdate_failed {s s₁ : St D C} (h : s.inUse = false) {sql : NSString} {busy : Nat}
    {c : Code} (hp : prepare e (taken s) (cachedStatementForQuery s sql) sql busy = (s₁, .failed c))
    (args : List Obj) (busyStep : Nat) :
    executeUpdate e s sql args busy busyStep = prepareFailed s₁ c false := by
  unfold taken at hp
  simp only [executeUpdate, h, Bool.false_eq_true, if_false, hp]

theorem executeUpdate_ready {s s₁ : St D C} (h : s.inUse = false) {sql : NSString} {busy : Nat}
    {p : Option Nat}
    (hp : prepare e (taken s) (cachedStatementForQuery s sql) sql busy = (s₁, .ready p))
    (args : List Obj) (busyStep : Nat) : executeUpdate e s sql args busy busyStep =
      (bindArguments s₁ p args).bind fun _ s₂ =>
        (stepUpdate e s₂ p busyStep).bind fun _ s₃ =>
          finishUpdate s₃ sql (cachedStatementForQuery s sql) p := by
  unfold taken at hp
  simp only [executeUpdate, h, Bool.false_eq_true, if_false, hp]

/-! ## The invariant -/

structure Owned (s : St D C) : Prop where
  era_le : ∀ o ∈ s.statements, o.era ≤ s.era
  pointer_lt : ∀ o ∈ s.statements, ∀ p, o.statement = some p → p < s.stmts.length
  finalized_iff : ∀ o ∈ s.statements, ∀ p, o.statement = some p →
    (s.stmts.get p = none ↔ o.byUpdate = true ∨ o.era < s.era)
  cached : ∀ x ∈ s.cachedStatements, ∃ o, s.statements[x.2]? = some o ∧ o.era = s.era
  query : ∀ rs ∈ s.resultSets, ∀ i, rs.statement = some i →
    ∃ o, s.statements[i]? = some o ∧ (o.statement ≠ none → o.byUpdate = false)

/-- No `FMStatement` has the pointer. -/
def Unowned (s : St D C) (p : Nat) : Prop := ∀ o ∈ s.statements, o.statement ≠ some p

theorem owned_initWithPath (file : D) : Owned (initWithPath file : St D C) where
  era_le _ h := absurd h List.not_mem_nil
  pointer_lt _ h := absurd h List.not_mem_nil
  finalized_iff _ h := absurd h List.not_mem_nil
  cached _ h := absurd h List.not_mem_nil
  query _ h := absurd h List.not_mem_nil

theorem Owned.put {s : St D C} (h : Owned s) {p : Nat} {st : Stmt Value C}
    (hp : s.stmts.get p = some st) (st' : Stmt Value C) :
    Owned { s with stmts := s.stmts.put p st' } where
  era_le := h.era_le
  pointer_lt o ho q hq := by rw [length_put]; exact h.pointer_lt o ho q hq
  finalized_iff o ho q hq := by
    rw [← h.finalized_iff o ho q hq]
    show (s.stmts.put p st').get q = none ↔ _
    rw [get_put (lt_of_get hp)]
    split
    · rename_i hqp; subst hqp; rw [hp]; exact iff_of_false nofun nofun
    · rfl
  cached := h.cached
  query := h.query

theorem owned_afterStep {s : St D C} (h : Owned s) {p : Nat} {st : Stmt Value C}
    (hp : s.stmts.get p = some st) : Owned (afterStep e s p st) := by
  have hput := h.put hp (st.step e s.file).2.1
  exact ⟨hput.1, hput.2, hput.3, hput.4, hput.5⟩

theorem owned_afterBusy {s : St D C} (h : Owned s) {p : Nat} {st : Stmt Value C}
    (hp : s.stmts.get p = some st) : Owned (afterBusy s p st) := by
  have hput := h.put hp st.busyStep
  exact ⟨hput.1, hput.2, hput.3, hput.4, hput.5⟩

theorem Owned.append {s : St D C} (h : Owned s) (st : Stmt Value C) :
    Owned { s with stmts := s.stmts ++ [some st] } where
  era_le := h.era_le
  pointer_lt o ho q hq := by
    have := h.pointer_lt o ho q hq
    rw [List.length_append, List.length_singleton]; omega
  finalized_iff o ho q hq := by
    have hlt := h.pointer_lt o ho q hq
    rw [← h.finalized_iff o ho q hq]
    show Mem.get (s.stmts ++ [some st]) q = none ↔ _
    rw [get_append, if_neg (by omega)]
  cached := h.cached
  query := h.query

theorem unowned_append {s : St D C} (h : Owned s) : Unowned s s.stmts.length := by
  intro o ho hp
  have := h.pointer_lt o ho _ hp
  omega

theorem getElem?_append_of_some {α : Type} {l : List α} {i : Nat} {a : α} (h : l[i]? = some a)
    (b : α) : (l ++ [b])[i]? = some a := by
  have hi : i < l.length := by
    by_contra hge
    rw [List.getElem?_eq_none (by omega)] at h
    cases h
  rw [List.getElem?_append_left hi, h]

/-- A new object. -/
theorem Owned.addStatement {s : St D C} (h : Owned s) {p : Option Nat} {byUpdate : Bool}
    (hp : ∀ q, p = some q → q < s.stmts.length ∧ (s.stmts.get q = none ↔ byUpdate = true)) :
    Owned { s with statements := s.statements ++ [⟨p, byUpdate, s.era⟩] } where
  era_le o ho := by
    rcases List.mem_append.mp ho with ho | ho
    · exact h.era_le o ho
    · rw [List.mem_singleton] at ho; subst ho; exact Nat.le_refl _
  pointer_lt o ho q hq := by
    rcases List.mem_append.mp ho with ho | ho
    · exact h.pointer_lt o ho q hq
    · rw [List.mem_singleton] at ho; subst ho; exact (hp q hq).1
  finalized_iff o ho q hq := by
    rcases List.mem_append.mp ho with ho | ho
    · exact h.finalized_iff o ho q hq
    · rw [List.mem_singleton] at ho; subst ho
      show s.stmts.get q = none ↔ byUpdate = true ∨ s.era < s.era
      rw [(hp q hq).2]
      exact ⟨Or.inl, fun hor => hor.resolve_right (Nat.lt_irrefl _)⟩
  cached x hx := by
    obtain ⟨o, ho, hera⟩ := h.cached x hx
    exact ⟨o, getElem?_append_of_some ho _, hera⟩
  query rs hrs i hi := by
    obtain ⟨o, ho, hq⟩ := h.query rs hrs i hi
    exact ⟨o, getElem?_append_of_some ho _, hq⟩

/-- The new object in the cache, if that is on. -/
theorem Owned.newStatement {s : St D C} (h : Owned s) (sql : NSString) {p : Option Nat}
    {byUpdate : Bool}
    (hp : ∀ q, p = some q → q < s.stmts.length ∧ (s.stmts.get q = none ↔ byUpdate = true)) :
    Owned (newStatement s sql p byUpdate) := by
  have hnew := h.addStatement hp
  unfold FM.newStatement
  simp only
  split
  · exact
      { era_le := hnew.era_le
        pointer_lt := hnew.pointer_lt
        finalized_iff := hnew.finalized_iff
        query := hnew.query
        cached := by
          intro x hx
          rcases List.mem_cons.mp hx with rfl | hx
          · exact ⟨_, List.getElem?_concat_length, rfl⟩
          · exact hnew.cached x hx }
  · exact hnew

theorem Owned.finalize {s : St D C} (h : Owned s) {p : Nat} (hp : Unowned s p) :
    Owned { s with stmts := s.stmts.finalize p } where
  era_le := h.era_le
  pointer_lt o ho q hq := by rw [length_finalize]; exact h.pointer_lt o ho q hq
  finalized_iff o ho q hq := by
    rw [← h.finalized_iff o ho q hq]
    show (s.stmts.finalize p).get q = none ↔ _
    rw [get_finalize, if_neg]
    rintro rfl
    exact hp o ho hq
  cached := h.cached
  query := h.query

/-! ## What the calls keep -/

/-- What holds between preparing and the end of a call. -/
structure InCall (s : St D C) (statement p : Option Nat) : Prop where
  owned : Owned s
  cached : ∀ o, statement = some o →
    ∃ obj, s.statements[o]? = some obj ∧ obj.era = s.era ∧ (obj.statement ≠ none → obj.statement = p)
  unowned : statement = none → ∀ q, p = some q → Unowned s q

/-- The statement the call is about is not finalized. -/
def Usable (s : St D C) (p : Option Nat) : Prop := ∀ q, p = some q → s.stmts.get q ≠ none

theorem InCall.put {s : St D C} {statement p : Option Nat} (h : InCall s statement p) {q : Nat}
    {st : Stmt Value C} (hq : s.stmts.get q = some st) (st' : Stmt Value C) :
    InCall { s with stmts := s.stmts.put q st' } statement p :=
  ⟨h.owned.put hq st', h.cached, h.unowned⟩

theorem usable_put {s : St D C} {q : Nat} {st : Stmt Value C} (hq : s.stmts.get q = some st)
    (st' : Stmt Value C) : Usable { s with stmts := s.stmts.put q st' } (some q) := by
  intro q' hq'
  cases hq'
  show (s.stmts.put q st').get q ≠ none
  rw [get_put (lt_of_get hq), if_pos rfl]
  exact nofun

theorem cachedStatement_mem {s : St D C} {sql : NSString} {o : Nat}
    (h : cachedStatementForQuery s sql = some o) : (sql, o) ∈ s.cachedStatements := by
  unfold cachedStatementForQuery at h
  split at h
  · rw [List.lookup_eq_some_iff] at h
    obtain ⟨l₁, l₂, hl, -⟩ := h
    rw [hl]
    simp
  · cases h

theorem inCall_prepare {s s' : St D C} {sql : NSString} {busy : Nat} {r : Prepared}
    (hi : Owned s) (h : prepare e s (cachedStatementForQuery s sql) sql busy = (s', r)) :
    Owned s' ∧ ∀ p, r = .ready p → InCall s' (cachedStatementForQuery s sql) p := by
  rcases prepare_cases e h with ⟨o, p, ho, hp, rfl, rfl⟩ | ⟨hnone, h⟩
  · refine ⟨hi, fun p' hp' => ?_⟩
    cases hp'
    refine ⟨hi, fun o' ho' => ?_, fun hn => absurd (ho.symm.trans hn) nofun⟩
    obtain ⟨obj, hobj, hera⟩ := hi.cached _ (cachedStatement_mem ho')
    rw [ho] at ho'
    cases ho'
    refine ⟨obj, hobj, hera, fun _ => ?_⟩
    rw [pointer, hobj] at hp
    exact hp
  · have hcached : ∀ o, cachedStatementForQuery s sql = some o →
        ∃ obj, s.statements[o]? = some obj ∧ obj.era = s.era ∧ obj.statement = none := by
      intro o ho
      obtain ⟨obj, hobj, hera⟩ := hi.cached _ (cachedStatement_mem ho)
      rw [ho, Option.bind_some, pointer, hobj] at hnone
      exact ⟨obj, hobj, hera, hnone⟩
    rcases prepareLoop_cases e h with ⟨c, code, rfl, rfl⟩ | ⟨rfl, rfl⟩ | ⟨c, -, -, rfl, rfl⟩
    · exact ⟨⟨hi.1, hi.2, hi.3, hi.4, hi.5⟩, nofun⟩
    · refine ⟨⟨hi.1, hi.2, hi.3, hi.4, hi.5⟩, fun p hp => ?_⟩
      cases hp
      refine ⟨⟨hi.1, hi.2, hi.3, hi.4, hi.5⟩, fun o ho => ?_, nofun⟩
      obtain ⟨obj, hobj, hera, hst⟩ := hcached o ho
      exact ⟨obj, hobj, hera, fun _ => hst⟩
    · have ha := hi.append (Stmt.ofCompiled e sql c)
      have ha' : Owned { s with errcode := .ok, stmts := s.stmts ++ [some (Stmt.ofCompiled e sql c)] } :=
        ⟨ha.1, ha.2, ha.3, ha.4, ha.5⟩
      refine ⟨ha', fun p hp => ?_⟩
      cases hp
      refine ⟨ha', fun o ho => ?_, fun _ q hq => ?_⟩
      · obtain ⟨obj, hobj, hera, hst⟩ := hcached o ho
        exact ⟨obj, hobj, hera, fun hne => absurd hst hne⟩
      · cases hq
        exact unowned_append hi

theorem inCall_bindArguments {s : St D C} {statement p : Option Nat} (h : InCall s statement p)
    (args : List Obj) :
    (bindArguments s p args).Ensures (fun _ s' => InCall s' statement p ∧ Usable s' p) Owned := by
  rcases bindArguments_cases s p args with ⟨rfl, hr⟩ | ⟨q, rfl, -, hr⟩ | ⟨q, st, rfl, hq, hr⟩
  · rw [hr]; exact ⟨h, nofun⟩
  · rw [hr]; trivial
  · rw [hr]
    split
    · exact ⟨h.put hq _, usable_put hq _⟩
    · exact h.owned.put hq _

theorem inCall_stepUpdate {s : St D C} {statement p : Option Nat} (h : InCall s statement p)
    (hu : Usable s p) (busy : Nat) :
    (stepUpdate e s p busy).Ensures (fun _ s' => InCall s' statement p ∧ Usable s' p) Owned := by
  rcases stepUpdate_cases e s p busy with ⟨rfl, hr⟩ | ⟨q, rfl, -, hr⟩ | ⟨q, st, rfl, hq, hr⟩
  · rw [hr]; exact ⟨h, hu⟩
  · rw [hr]; trivial
  · rcases hr with hr | ⟨-, hr⟩ | ⟨-, hr⟩
    · rw [hr]
      exact ⟨⟨owned_afterBusy h.owned hq, h.cached, h.unowned⟩, usable_put hq st.busyStep⟩
    · rw [hr]; trivial
    · rw [hr]
      exact ⟨⟨owned_afterStep e h.owned hq, h.cached, h.unowned⟩, usable_put hq _⟩

/-- Finalizing and filing the object can be exchanged. -/
theorem finalizeStmt_newStatement (s : St D C) (sql : NSString) (p : Option Nat) :
    finalizeStmt (newStatement s sql p true) p = newStatement (finalizeStmt s p) sql p true := by
  cases p with
  | none => rfl
  | some q =>
    unfold newStatement finalizeStmt setCachedStatement
    simp only
    split <;> rfl

theorem owned_finalizeStmt {s : St D C} {p : Option Nat} (h : Owned s)
    (hp : ∀ q, p = some q → Unowned s q) : Owned (finalizeStmt s p) := by
  cases p with
  | none => exact h
  | some q =>
    have hf := h.finalize (hp q rfl)
    exact ⟨hf.1, hf.2, hf.3, hf.4, hf.5⟩

theorem owned_finishUpdate {s : St D C} {cachedStmt p : Option Nat} (h : InCall s cachedStmt p)
    (hu : Usable s p) (sql : NSString) :
    (finishUpdate s sql cachedStmt p).Ensures (fun _ => Owned) Owned := by
  unfold finishUpdate
  cases cachedStmt with
  | some o =>
    have hreset : Owned (resetStmt s p) := by
      unfold resetStmt
      split
      · exact h.owned
      · split
        · exact h.owned
        · rename_i st hq
          have hput := h.owned.put hq st.reset
          exact ⟨hput.1, hput.2, hput.3, hput.4, hput.5⟩
    exact ⟨hreset.1, hreset.2, hreset.3, hreset.4, hreset.5⟩
  | none =>
    have hf := owned_finalizeStmt h.owned (h.unowned rfl)
    show Owned _
    simp only
    split
    · rw [finalizeStmt_newStatement]
      have hn : Owned (newStatement (finalizeStmt s p) sql p true) := by
        refine hf.newStatement sql fun q hq => ?_
        subst hq
        cases hget : s.stmts.get q with
        | none => exact absurd hget (hu q rfl)
        | some st =>
          refine ⟨?_, ?_⟩
          · show q < (s.stmts.finalize q).length
            rw [length_finalize]
            exact lt_of_get hget
          · show (s.stmts.finalize q).get q = none ↔ _
            rw [get_finalize, if_pos rfl]
            exact iff_of_true rfl rfl
      exact ⟨hn.1, hn.2, hn.3, hn.4, hn.5⟩
    · exact ⟨hf.1, hf.2, hf.3, hf.4, hf.5⟩

/-- A result set of a statement that a query may step. -/
theorem Owned.addResultSet {s : St D C} (h : Owned s) {i : Nat} {o : FMStatement}
    (hi : s.statements[i]? = some o) (hq : o.statement ≠ none → o.byUpdate = false) :
    Owned { s with resultSets := s.resultSets ++ [resultSetWithStatement i] } where
  era_le := h.era_le
  pointer_lt := h.pointer_lt
  finalized_iff := h.finalized_iff
  cached := h.cached
  query rs hrs j hj := by
    rcases List.mem_append.mp hrs with hrs | hrs
    · exact h.query rs hrs j hj
    · rw [List.mem_singleton] at hrs
      subst hrs
      cases hj
      exact ⟨o, hi, hq⟩

theorem newStatement_getElem (s : St D C) (sql : NSString) (p : Option Nat) (byUpdate : Bool) :
    (newStatement s sql p byUpdate).statements[s.statements.length]? = some ⟨p, byUpdate, s.era⟩ := by
  unfold newStatement setCachedStatement
  simp only
  split <;> exact List.getElem?_concat_length

theorem newStatement_resultSets (s : St D C) (sql : NSString) (p : Option Nat) (byUpdate : Bool) :
    (newStatement s sql p byUpdate).resultSets = s.resultSets := by
  unfold newStatement setCachedStatement
  simp only
  split <;> rfl

theorem owned_openResultSet {s : St D C} {statement p : Option Nat} (h : InCall s statement p)
    (hu : Usable s p) (sql : NSString) : Owned (openResultSet s sql statement p) := by
  unfold openResultSet
  cases statement with
  | some o =>
    obtain ⟨obj, hobj, hera, hst⟩ := h.cached o rfl
    have hq : obj.statement ≠ none → obj.byUpdate = false := by
      intro hne
      obtain ⟨q, hq⟩ := Option.ne_none_iff_exists'.mp hne
      have hlive := hu q ((hst hne).symm.trans hq)
      have hfin := h.owned.finalized_iff obj (List.mem_of_getElem? hobj) q hq
      exact Bool.eq_false_iff.mpr fun hb => hlive (hfin.mpr (Or.inl hb))
    have hadd := h.owned.addResultSet hobj hq
    exact ⟨hadd.1, hadd.2, hadd.3, hadd.4, hadd.5⟩
  | none =>
    have hn : Owned (newStatement s sql p false) := by
      refine h.owned.newStatement sql fun q hq => ?_
      have hlive := hu q hq
      cases hget : s.stmts.get q with
      | none => exact absurd hget hlive
      | some st => exact ⟨lt_of_get hget, iff_of_false nofun nofun⟩
    have hadd := hn.addResultSet (newStatement_getElem s sql p false) (fun _ => rfl)
    rw [newStatement_resultSets] at hadd
    exact ⟨hadd.1, hadd.2, hadd.3, hadd.4, hadd.5⟩

theorem owned_taken {s : St D C} (h : Owned s) : Owned (taken s) := ⟨h.1, h.2, h.3, h.4, h.5⟩

theorem owned_complainAboutInUse {α : Type} {s : St D C} (h : Owned s) (a : α) :
    (complainAboutInUse s a).Ensures (fun _ => Owned) Owned := by
  unfold complainAboutInUse
  split <;> exact h

theorem owned_prepareFailed {α : Type} {s : St D C} (h : Owned s) (c : Code) (a : α) :
    (prepareFailed s c a).Ensures (fun _ => Owned) Owned := by
  unfold prepareFailed
  split
  · exact h
  · exact ⟨h.1, h.2, h.3, h.4, h.5⟩

theorem owned_executeQuery {s : St D C} (h : Owned s) (sql : NSString) (args : List Obj)
    (busy : Nat) : (executeQuery e s sql args busy).Ensures (fun _ => Owned) Owned := by
  cases hin : s.inUse with
  | true =>
    rw [executeQuery_inUse e hin]
    exact owned_complainAboutInUse h none
  | false =>
    rcases hp : prepare e (taken s) (cachedStatementForQuery s sql) sql busy with ⟨s₁, r⟩
    obtain ⟨h₁, hready⟩ := inCall_prepare e (owned_taken h) hp
    cases r with
    | failed c =>
      rw [executeQuery_failed e hin hp]
      exact owned_prepareFailed h₁ c none
    | ready p =>
      rw [executeQuery_ready e hin hp]
      refine (inCall_bindArguments (hready p rfl) args).bind fun _ s₂ hs₂ => ?_
      exact owned_openResultSet hs₂.1 hs₂.2 sql

theorem owned_executeUpdate {s : St D C} (h : Owned s) (sql : NSString) (args : List Obj)
    (busy busyStep : Nat) :
    (executeUpdate e s sql args busy busyStep).Ensures (fun _ => Owned) Owned := by
  cases hin : s.inUse with
  | true =>
    rw [executeUpdate_inUse e hin]
    exact owned_complainAboutInUse h false
  | false =>
    rcases hp : prepare e (taken s) (cachedStatementForQuery s sql) sql busy with ⟨s₁, r⟩
    obtain ⟨h₁, hready⟩ := inCall_prepare e (owned_taken h) hp
    cases r with
    | failed c =>
      rw [executeUpdate_failed e hin hp]
      exact owned_prepareFailed h₁ c false
    | ready p =>
      rw [executeUpdate_ready e hin hp]
      refine (inCall_bindArguments (hready p rfl) args).bind fun _ s₂ hs₂ => ?_
      refine (inCall_stepUpdate e hs₂.1 hs₂.2 busyStep).bind fun _ s₃ hs₃ => ?_
      exact owned_finishUpdate hs₃.1 hs₃.2 sql

theorem owned_withFlag {s : St D C} (h : Owned s) (flag : Bool) (sql : NSString)
    (busy busyStep : Nat) : (withFlag e s flag sql busy busyStep).Ensures (fun _ => Owned) Owned := by
  refine (owned_executeUpdate e h sql [] busy busyStep).bind fun b s' hs' => ?_
  show Owned _
  split
  · exact ⟨hs'.1, hs'.2, hs'.3, hs'.4, hs'.5⟩
  · exact hs'

theorem Owned.closeResultSet {s : St D C} (h : Owned s) (i : Nat) : Owned (closeResultSet s i) where
  era_le := h.era_le
  pointer_lt := h.pointer_lt
  finalized_iff := h.finalized_iff
  cached := h.cached
  query rs hrs j hj := by
    obtain ⟨k, hk⟩ := List.mem_iff_getElem?.mp hrs
    rw [show (FM.closeResultSet s i).resultSets = s.resultSets.modify i _ from rfl,
      List.getElem?_modify] at hk
    cases hget : s.resultSets[k]? with
    | none => rw [hget] at hk; cases hk
    | some rs' =>
      rw [hget] at hk
      have hmem := List.mem_of_getElem? hget
      split at hk
      · cases hk; cases hj
      · cases hk; exact h.query _ hmem j hj

theorem owned_next {s : St D C} (h : Owned s) (i busy : Nat) :
    (next e s i busy).Ensures (fun _ => Owned) Owned := by
  rcases next_cases e s i busy with ⟨-, hr⟩ | ⟨p, -, -, hr⟩ | ⟨p, st, -, hq, hr⟩
  · rw [hr]; exact h.closeResultSet i
  · rw [hr]; trivial
  · rcases hr with ⟨-, hr⟩ | ⟨-, -, hr⟩ | ⟨-, -, hr⟩
    · rw [hr]; exact (owned_afterBusy h hq).closeResultSet i
    · rw [hr]; exact owned_afterStep e h hq
    · rw [hr]; exact (owned_afterStep e h hq).closeResultSet i

theorem Owned.clearCachedStatements {s : St D C} (h : Owned s) : Owned (clearCachedStatements s) := by
  have hmem : ∀ o ∈ (FM.clearCachedStatements s).statements,
      ∃ o' ∈ s.statements, o.era = o'.era ∧ o.byUpdate = o'.byUpdate ∧
        (o.statement = none ∨ o.statement = o'.statement) := by
    intro o ho
    obtain ⟨i, hi, hget⟩ := List.mem_mapIdx.mp ho
    refine ⟨s.statements[i], List.getElem_mem hi, ?_⟩
    split at hget
    · subst hget; exact ⟨rfl, rfl, Or.inl rfl⟩
    · subst hget; exact ⟨rfl, rfl, Or.inr rfl⟩
  refine ⟨?_, ?_, ?_, fun _ hx => absurd hx List.not_mem_nil, ?_⟩
  · intro o ho
    obtain ⟨o', ho', hera, -, -⟩ := hmem o ho
    rw [hera]; exact h.era_le o' ho'
  · intro o ho q hq
    obtain ⟨o', ho', -, -, hst⟩ := hmem o ho
    rcases hst with hst | hst
    · rw [hst] at hq; cases hq
    · exact h.pointer_lt o' ho' q (hst ▸ hq)
  · intro o ho q hq
    obtain ⟨o', ho', hera, hby, hst⟩ := hmem o ho
    rcases hst with hst | hst
    · rw [hst] at hq; cases hq
    · rw [hera, hby]
      exact h.finalized_iff o' ho' q (hst ▸ hq)
  · intro rs hrs i hi
    obtain ⟨o, ho, hq⟩ := h.query rs hrs i hi
    have hget : (FM.clearCachedStatements s).statements[i]? =
        some (if i ∈ s.cachedStatements.map (·.2) then { o with statement := none } else o) := by
      show (s.statements.mapIdx _)[i]? = _
      rw [List.getElem?_mapIdx, ho]
      rfl
    refine ⟨_, hget, ?_⟩
    split
    · exact fun hne => absurd rfl hne
    · exact hq

theorem Owned.close {s : St D C} (h : Owned s) : Owned (close e s) := by
  have hc := h.clearCachedStatements
  unfold FM.close
  simp only
  split
  · exact hc
  · refine ⟨?_, ?_, ?_, fun _ hx => absurd hx List.not_mem_nil, hc.query⟩
    · exact fun o ho => Nat.le_succ_of_le (hc.era_le o ho)
    · intro o ho q hq
      rw [length_finalizeAll]
      exact hc.pointer_lt o ho q hq
    · intro o ho q hq
      have := hc.era_le o ho
      exact iff_of_true (get_finalizeAll _ q) (Or.inr (Nat.lt_succ_of_le this))

/-- Making the map of a result set changes this result set alone. -/
theorem setupColumnNames_cases (s : St D C) (i : Nat) :
    (columnNames s i = none ∧ setupColumnNames lower s i = .undefined) ∨
      ∃ f : FMResultSet → FMResultSet, (∀ rs, (f rs).statement = rs.statement) ∧
        columnNames s i ≠ none ∧
        setupColumnNames lower s i = .returned () { s with resultSets := s.resultSets.modify i f } := by
  cases hn : columnNames s i with
  | none => exact Or.inl ⟨rfl, by simp only [setupColumnNames, hn]⟩
  | some names =>
    let f (rs : FMResultSet) : FMResultSet :=
      { rs with
        columnNameToIndexMap := addNames lower names 0 rs.columnNameToIndexMap
        columnNamesSetup := true }
    exact Or.inr ⟨f, fun _ => rfl, Option.some_ne_none _, by simp only [setupColumnNames, hn, f]⟩

theorem Owned.modify {s : St D C} (h : Owned s) (i : Nat) {f : FMResultSet → FMResultSet}
    (hf : ∀ rs, (f rs).statement = rs.statement) :
    Owned { s with resultSets := s.resultSets.modify i f } where
  era_le := h.era_le
  pointer_lt := h.pointer_lt
  finalized_iff := h.finalized_iff
  cached := h.cached
  query rs hrs j hj := by
    obtain ⟨k, hk⟩ := List.mem_iff_getElem?.mp hrs
    rw [List.getElem?_modify, Option.map_eq_map, Option.map_eq_some_iff] at hk
    obtain ⟨rs', hget, hrs'⟩ := hk
    refine h.query rs' (List.mem_of_getElem? hget) j ?_
    rw [← hj, ← hrs']
    split
    · exact (hf rs').symm
    · rfl

theorem owned_columnIndexForName {s : St D C} (h : Owned s) (i : Nat) (columnName : NSString) :
    (columnIndexForName lower s i columnName).Ensures (fun _ => Owned) Owned := by
  unfold columnIndexForName
  split
  · exact h
  · rcases setupColumnNames_cases lower s i with ⟨-, hr⟩ | ⟨f, hf, -, hr⟩
    · rw [hr]; trivial
    · rw [hr]; exact h.modify i hf

theorem stringForColumnIndex_cases (s : St D C) (columnText : C → Option NSString) (i : Nat)
    (columnIdx : Option Nat) :
    (∃ v, stringForColumnIndex s columnText i columnIdx = .returned v s) ∨
      (∃ p, resultPointer s i = some p ∧ s.stmts.get p = none ∧
        stringForColumnIndex s columnText i columnIdx = .undefined) := by
  cases hp : resultPointer s i with
  | none => exact Or.inl ⟨none, by simp only [stringForColumnIndex, hp]⟩
  | some p =>
    cases hq : s.stmts.get p with
    | none => exact Or.inr ⟨p, rfl, hq, by simp only [stringForColumnIndex, hp, hq]⟩
    | some st => exact Or.inl ⟨_, by simp only [stringForColumnIndex, hp, hq]; rfl⟩

theorem owned_call {s : St D C} (h : Owned s) (l : Label) :
    (call e lower s l).Ensures (fun _ => Owned) Owned := by
  cases l with
  | openDb error =>
    cases error with
    | none => exact ⟨h.1, h.2, h.3, h.4, h.5⟩
    | some n => exact ⟨h.1, h.2, h.3, h.4, h.5⟩
  | close => exact h.close e
  | clearCachedStatements => exact h.clearCachedStatements
  | setShouldCacheStatements value =>
    cases value with
    | true => exact ⟨h.1, h.2, h.3, h.4, h.5⟩
    | false => exact ⟨h.1, h.2, h.3, fun _ hx => absurd hx List.not_mem_nil, h.5⟩
  | setBusyRetryTimeout _ => exact ⟨h.1, h.2, h.3, h.4, h.5⟩
  | setLogsErrors _ => exact ⟨h.1, h.2, h.3, h.4, h.5⟩
  | setCrashOnErrors _ => exact ⟨h.1, h.2, h.3, h.4, h.5⟩
  | setInUse _ => exact ⟨h.1, h.2, h.3, h.4, h.5⟩
  | executeQuery sql args busy => exact (owned_executeQuery e h sql args busy).bind fun _ _ hs => hs
  | executeUpdate sql args busy busyStep =>
    exact (owned_executeUpdate e h sql args busy busyStep).bind fun _ _ hs => hs
  | rollback busy busyStep => exact (owned_withFlag e h _ _ busy busyStep).bind fun _ _ hs => hs
  | commit busy busyStep => exact (owned_withFlag e h _ _ busy busyStep).bind fun _ _ hs => hs
  | beginDeferredTransaction busy busyStep =>
    exact (owned_withFlag e h _ _ busy busyStep).bind fun _ _ hs => hs
  | beginTransaction busy busyStep =>
    exact (owned_withFlag e h _ _ busy busyStep).bind fun _ _ hs => hs
  | next i busy => exact (owned_next e h i busy).bind fun _ _ hs => hs
  | closeResultSet i => exact h.closeResultSet i
  | columnIndexForName i columnName =>
    exact (owned_columnIndexForName lower h i columnName).bind fun _ _ hs => hs
  | stringForColumnIndex i columnIdx =>
    rcases stringForColumnIndex_cases s (fun _ => none) i columnIdx with ⟨v, hr⟩ | ⟨p, -, -, hr⟩
    · rw [call, hr]; exact h
    · rw [call, hr]; trivial

theorem step_eq_some {s s' : St D C} {l : Label} (h : step e lower s l = some s') :
    Callable s l ∧ (call e lower s l).state = some s' := by
  unfold step at h
  split at h
  · rename_i hc; exact ⟨hc, h⟩
  · cases h

/-- The invariant of all runs. -/
theorem owned_inductive : (lts e lower : LTS (St D C) Label).Inductive Owned where
  init s hs := by
    obtain ⟨file, assertions, rfl⟩ := hs
    have h : Owned (initWithPath file : St D C) := owned_initWithPath file
    exact ⟨h.1, h.2, h.3, h.4, h.5⟩
  step s l s' h hs := (owned_call e lower h l).of_state (step_eq_some e lower hs).2

end
end MysqlConnection.L2.FM
