import Mathlib.Data.List.Basic

/-!
# Prepared statements

The statement interface of an embedded SQL library, as documented: a statement
is compiled from a text, gets values for its parameters, is stepped through its
rows, reset and finalized. What the texts mean is left to an `Engine`. A call
made while another connection holds the lock answers `busy`; how often that
happens is up to the environment, so the calls below are the ones that are
answered otherwise, and `busyStep` is one that is not.

* A statement that was stepped and not reset takes no new values
  (`Stmt.bind`), and it goes on where it stopped (`Stmt.step`).
* A statement that came to its end starts again with the next step
  (`At.step`): so the m-th step of a query gives the row number m modulo the
  number of rows plus one.
* `Mem`: the statements by their pointers; a finalized one is gone.
-/
namespace MysqlConnection.Sqlite3

/-- Result codes; `error n` is any other error. -/
inductive Code where
  | ok
  | row
  | done
  | busy
  | misuse
  | error (n : Nat)
  deriving DecidableEq, Repr

def Code.isError : Code → Bool
  | .ok | .row | .done => false
  | .busy | .misuse | .error _ => true

/-- A compiled statement: the names of its columns, the number of its
parameters. -/
structure Compiled where
  columns : List (List Char)
  parameters : Nat
  deriving DecidableEq, Repr

/-- What a run of a statement does: its rows, the error it ends with if any,
and the database after it. -/
structure Outcome (D C : Type) where
  rows : List (List C)
  error : Option Nat
  after : D

/-- `blank`: a text of blanks and comments, which has no statement. `compile`:
an error, or the statement. `null` is the value of a parameter that was not set.
`close` ends the connection, and with it an open transaction. -/
structure Engine (D V C : Type) where
  blank : List Char → Bool
  compile : D → List Char → Except Nat Compiled
  run : D → List Char → List V → Outcome D C
  null : V
  close : D → D

/-- `rest`: what the current run has yet to give, `none` before its start.
`last`: the answer to the last step since the last reset. -/
structure Stmt (V C : Type) where
  sql : List Char
  columns : List (List Char)
  bound : List V
  stepped : Bool
  rest : Option (List (List C) × Option Nat)
  row : List C
  last : Code

section
variable {D V C : Type} (e : Engine D V C)

def Stmt.ofCompiled (sql : List Char) (c : Compiled) : Stmt V C where
  sql := sql
  columns := c.columns
  bound := List.replicate c.parameters e.null
  stepped := false
  rest := none
  row := []
  last := .ok

/-- `sqlite3_bind_…` of the parameter after the first `idx` ones. -/
def Stmt.bind (st : Stmt V C) (idx : Nat) (v : V) : Stmt V C :=
  if st.stepped then st else { st with bound := st.bound.set idx v }

/-- The run the next step is a step of, and the database after it. -/
def Stmt.current (st : Stmt V C) (d : D) : Outcome D C :=
  match st.rest with
  | some r => ⟨r.1, r.2, d⟩
  | none => e.run d st.sql st.bound

/-- One step of a run. -/
def Stmt.advance (st : Stmt V C) : Outcome D C → Code × Stmt V C × D
  | ⟨r :: rows, err, d⟩ =>
    (.row, { st with stepped := true, rest := some (rows, err), row := r, last := .row }, d)
  | ⟨[], none, d⟩ =>
    (.done, { st with stepped := true, rest := none, row := [], last := .done }, d)
  | ⟨[], some n, d⟩ =>
    (.error n, { st with stepped := true, rest := none, row := [], last := .error n }, d)

/-- `sqlite3_step`, not answered `busy`. -/
def Stmt.step (st : Stmt V C) (d : D) : Code × Stmt V C × D := st.advance (st.current e d)

/-- `sqlite3_step`, answered `busy`. -/
def Stmt.busyStep (st : Stmt V C) : Stmt V C := { st with stepped := true, last := .busy }

/-- `sqlite3_reset` and `sqlite3_finalize` report the error of the last step. -/
def Stmt.resetCode (st : Stmt V C) : Code := if st.last.isError then st.last else .ok

def Stmt.reset (st : Stmt V C) : Stmt V C :=
  { st with stepped := false, rest := none, row := [], last := .ok }

/-! ## Steps of one statement -/

@[simp] theorem sql_bind (st : Stmt V C) (idx : Nat) (v : V) : (st.bind idx v).sql = st.sql := by
  unfold Stmt.bind; split <;> rfl

@[simp] theorem rest_bind (st : Stmt V C) (idx : Nat) (v : V) : (st.bind idx v).rest = st.rest := by
  unfold Stmt.bind; split <;> rfl

@[simp] theorem stepped_bind (st : Stmt V C) (idx : Nat) (v : V) :
    (st.bind idx v).stepped = st.stepped := by
  unfold Stmt.bind; split <;> rfl

/-- What a step leaves as it is. -/
structure Kept (st st' : Stmt V C) : Prop where
  sql : st'.sql = st.sql
  columns : st'.columns = st.columns
  bound : st'.bound = st.bound

theorem kept_step (st : Stmt V C) (d : D) : Kept st (st.step e d).2.1 := by
  unfold Stmt.step
  match st.current e d with
  | ⟨_ :: _, _, _⟩ => exact ⟨rfl, rfl, rfl⟩
  | ⟨[], none, _⟩ => exact ⟨rfl, rfl, rfl⟩
  | ⟨[], some _, _⟩ => exact ⟨rfl, rfl, rfl⟩

@[simp] theorem stepped_step (st : Stmt V C) (d : D) : (st.step e d).2.1.stepped = true := by
  unfold Stmt.step
  match st.current e d with
  | ⟨_ :: _, _, _⟩ => rfl
  | ⟨[], none, _⟩ => rfl
  | ⟨[], some _, _⟩ => rfl

/-! ## A query that is read -/

/-- On this database the statement gives these rows and changes nothing. -/
def Reads (d : D) (sql : List Char) (bound : List V) (rows : List (List C)) : Prop :=
  e.run d sql bound = ⟨rows, none, d⟩

/-- The statement has given the first `j` rows of its run. -/
def At (rows : List (List C)) (j : Nat) (st : Stmt V C) : Prop :=
  (j = 0 ∧ st.rest = none) ∨ (0 < j ∧ j ≤ rows.length ∧ st.rest = some (rows.drop j, none))

theorem At.current {d : D} {rows : List (List C)} {j : Nat} {st : Stmt V C}
    (h : Reads e d st.sql st.bound rows) (hj : At rows j st) :
    st.current e d = ⟨rows.drop j, none, d⟩ := by
  rcases hj with ⟨rfl, hr⟩ | ⟨-, -, hr⟩
  · rw [Stmt.current, hr, List.drop_zero]
    exact h
  · rw [Stmt.current, hr]

/-- **A step of a query.** The next row; after the last row the end, from where
it starts again. -/
theorem At.step {d : D} {rows : List (List C)} {j : Nat} {st : Stmt V C}
    (h : Reads e d st.sql st.bound rows) (hj : At rows j st) (hle : j ≤ rows.length) :
    (st.step e d).2.2 = d ∧ At rows ((j + 1) % (rows.length + 1)) (st.step e d).2.1 ∧
      match rows[j]? with
      | some r => (st.step e d).1 = .row ∧ (st.step e d).2.1.row = r
      | none => (st.step e d).1 = .done := by
  have hc := hj.current e h
  rcases Nat.lt_or_ge j rows.length with hlt | hge
  · have hdrop : rows.drop j = rows[j] :: rows.drop (j + 1) := List.drop_eq_getElem_cons hlt
    rw [Stmt.step, hc, hdrop, List.getElem?_eq_getElem hlt, Nat.mod_eq_of_lt (by omega)]
    exact ⟨rfl, Or.inr ⟨by omega, by omega, rfl⟩, rfl, rfl⟩
  · have heq : j = rows.length := by omega
    have hdrop : rows.drop j = [] := List.drop_of_length_le hge
    rw [Stmt.step, hc, hdrop, List.getElem?_eq_none hge, heq, Nat.mod_self]
    exact ⟨rfl, Or.inl ⟨rfl, rfl⟩, rfl⟩

/-! ## Statements by their pointers -/

/-- `none`: finalized. -/
abbrev Mem (V C : Type) := List (Option (Stmt V C))

def Mem.get (m : Mem V C) (p : Nat) : Option (Stmt V C) := m[p]?.join

def Mem.put (m : Mem V C) (p : Nat) (st : Stmt V C) : Mem V C := m.set p (some st)

def Mem.finalize (m : Mem V C) (p : Nat) : Mem V C := m.set p none

/-- Every statement is finalized. -/
def Mem.finalizeAll (m : Mem V C) : Mem V C := m.map fun _ => none

@[simp] theorem length_put (m : Mem V C) (p : Nat) (st : Stmt V C) :
    (m.put p st).length = m.length := List.length_set

@[simp] theorem length_finalize (m : Mem V C) (p : Nat) : (m.finalize p).length = m.length :=
  List.length_set

@[simp] theorem length_finalizeAll (m : Mem V C) : m.finalizeAll.length = m.length :=
  List.length_map _

theorem lt_of_get {m : Mem V C} {p : Nat} {st : Stmt V C} (h : m.get p = some st) :
    p < m.length := by
  by_contra hge
  rw [Mem.get, List.getElem?_eq_none (by omega)] at h
  cases h

theorem get_put {m : Mem V C} {p : Nat} (hp : p < m.length) (q : Nat) (st : Stmt V C) :
    (m.put p st).get q = if q = p then some st else m.get q := by
  rw [Mem.get, Mem.put, List.getElem?_set]
  by_cases hq : q = p
  · subst hq; rw [if_pos rfl, if_pos rfl, if_pos hp]; rfl
  · rw [if_neg (fun h => hq h.symm), if_neg hq]; rfl

theorem get_finalize (m : Mem V C) (p q : Nat) :
    (m.finalize p).get q = if q = p then none else m.get q := by
  rw [Mem.get, Mem.finalize, List.getElem?_set]
  by_cases hq : q = p
  · subst hq
    rw [if_pos rfl, if_pos rfl]
    split <;> rfl
  · rw [if_neg (fun h => hq h.symm), if_neg hq]; rfl

@[simp] theorem get_finalizeAll (m : Mem V C) (q : Nat) : m.finalizeAll.get q = none := by
  rw [Mem.get, Mem.finalizeAll, List.getElem?_map]
  cases m[q]? <;> rfl

theorem get_append (m : Mem V C) (st : Stmt V C) (q : Nat) :
    Mem.get (m ++ [some st]) q = if q = m.length then some st else m.get q := by
  rw [Mem.get, List.getElem?_append]
  by_cases hq : q = m.length
  · subst hq
    rw [if_pos rfl, if_neg (by omega), Nat.sub_self]; rfl
  · rw [if_neg hq]
    by_cases hlt : q < m.length
    · rw [if_pos hlt]; rfl
    · have h1 : [some st][q - m.length]? = none := List.getElem?_eq_none (by
        simp only [List.length_singleton]; omega)
      have h2 : m[q]? = none := List.getElem?_eq_none (by omega)
      rw [if_neg hlt, h1, Mem.get, h2]

/-! ## How many are left -/

/-- The statements that are not finalized. -/
def Mem.liveCount (m : Mem V C) : Nat := m.countP (·.isSome)

theorem liveCount_append (m : Mem V C) (st : Stmt V C) :
    Mem.liveCount (m ++ [some st]) = m.liveCount + 1 := by
  rw [Mem.liveCount, List.countP_append, List.countP_singleton]
  rfl

theorem getElem?_of_get {m : Mem V C} {p : Nat} {st : Stmt V C} (h : m.get p = some st) :
    m[p]? = some (some st) := by
  rw [Mem.get] at h
  cases hp : m[p]? with
  | none => rw [hp] at h; cases h
  | some o => rw [hp] at h; rw [← h]; rfl

theorem countP_set {m : Mem V C} {p : Nat} {st : Stmt V C} (h : m.get p = some st)
    (o : Option (Stmt V C)) :
    Mem.liveCount (m.set p o) + 1 = m.liveCount + if o.isSome then 1 else 0 := by
  have hp := lt_of_get h
  have hget := getElem?_of_get h
  rw [List.getElem?_eq_getElem hp, Option.some.injEq] at hget
  rw [Mem.liveCount, List.countP_set hp, hget]
  have hpos : 0 < m.liveCount := by
    rw [Mem.liveCount, List.countP_pos_iff]
    exact ⟨m[p], List.getElem_mem hp, by rw [hget]; rfl⟩
  simp only [Option.isSome_some, if_true]
  rw [Mem.liveCount] at hpos ⊢
  omega

@[simp] theorem liveCount_put {m : Mem V C} {p : Nat} {st : Stmt V C} (h : m.get p = some st)
    (st' : Stmt V C) : (m.put p st').liveCount = m.liveCount := by
  have := countP_set h (some st')
  rw [Mem.put]
  simp only [Option.isSome_some, if_true] at this
  omega

theorem liveCount_finalize {m : Mem V C} {p : Nat} {st : Stmt V C} (h : m.get p = some st) :
    (m.finalize p).liveCount + 1 = m.liveCount := by
  have := countP_set h none
  rw [Mem.finalize]
  simp only [Option.isSome_none, Bool.false_eq_true, if_false] at this
  omega

@[simp] theorem liveCount_finalizeAll (m : Mem V C) : m.finalizeAll.liveCount = 0 := by
  rw [Mem.liveCount, List.countP_eq_zero]
  intro o ho
  obtain ⟨o', -, rfl⟩ := List.mem_map.mp ho
  exact Bool.false_ne_true

end

end MysqlConnection.Sqlite3
