import MysqlConnection.Core.SqlLexer
import Mathlib.Data.List.Nodup

/-!
# Statements on one table

The statements whose effect is documented without an expression language:
`insert` of constants, `update` to constants and `delete`, of all rows or of
the row with a given id. `parse` reads them from tokens. A table has an
autoincrement id and columns of texts and integers.

`effect` is what the documentation says a statement does to a table. It says
nothing (`none`) about a statement that names an unknown column or one column
twice, assigns a constant of the wrong type or leaves a column of a new row
out, nor about an insertion after the largest id was used.

* `insert_inv`, `update_inv`, `delete_inv`: what a documented statement did;
  `seq_effect`: no id is used twice.
* `text_assign`, `int_assign`: a row after an assignment.
-/
namespace MysqlConnection.Sql

/-! ## Statements -/

abbrev Assignments := List (Text × Const)

inductive Statement where
  | insert (table : Text) (columns : List Text) (values : List Const)
  | update (table : Text) (sets : Assignments) (cond : Option (Text × Const))
  | delete (table : Text) (cond : Option (Text × Const))
  deriving DecidableEq, Repr

/-- The rest of a list of names, up to its closing bracket. -/
def namesTail : List Token → Option (List Text × List Token)
  | .sign s :: .word c :: ts =>
    if s = ',' then (namesTail ts).map fun r => (c :: r.1, r.2)
    else if s = ')' then some ([], .word c :: ts)
    else none
  | _ => none

/-- The rest of a list of constants; its bracket ends the statement. -/
def valuesTail : List Token → Option (List Const)
  | [.sign s] => if s = ')' then some [] else none
  | .sign s :: .const v :: ts => if s = ',' then (valuesTail ts).map (v :: ·) else none
  | _ => none

def condition : List Token → Option (Option (Text × Const))
  | [] => some none
  | [.word w, .word c, .sign s, .const v] =>
    if w = "where".toList ∧ s = '=' then some (some (c, v)) else none
  | _ => none

/-- The rest of a list of assignments and the condition. -/
def setsTail : List Token → Option (Assignments × Option (Text × Const))
  | .sign s :: .word c :: .sign e :: .const v :: ts =>
    if s = ',' ∧ e = '=' then (setsTail ts).map fun r => ((c, v) :: r.1, r.2) else none
  | ts => (condition ts).map fun k => ([], k)

def parseInsert : List Token → Option Statement
  | .word into :: .word t :: .sign s :: .word c :: ts =>
    if into = "into".toList ∧ s = '(' then
      (namesTail ts).bind fun r =>
        match r.2 with
        | .word w :: .sign s :: .const v :: ts =>
          if w = "values".toList ∧ s = '(' then
            (valuesTail ts).map fun vs => .insert t (c :: r.1) (v :: vs)
          else none
        | _ => none
    else none
  | _ => none

def parseUpdate : List Token → Option Statement
  | .word t :: .word w :: .word c :: .sign e :: .const v :: ts =>
    if w = "set".toList ∧ e = '=' then
      (setsTail ts).map fun r => .update t ((c, v) :: r.1) r.2
    else none
  | _ => none

def parseDelete : List Token → Option Statement
  | .word w :: .word t :: ts =>
    if w = "from".toList then (condition ts).map fun k => .delete t k else none
  | _ => none

def parse : List Token → Option Statement
  | .word w :: ts =>
    if w = "insert".toList then parseInsert ts
    else if w = "update".toList then parseUpdate ts
    else if w = "delete".toList then parseDelete ts
    else none
  | _ => none

/-! ## Tables -/

inductive Kind where
  | text
  | int
  deriving DecidableEq, Repr

def Const.kind : Const → Kind
  | .text _ => .text
  | .int _ => .int

/-- `key` names the autoincrement id. -/
structure Schema where
  name : Text
  key : Text
  columns : List (Text × Kind)
  deriving DecidableEq, Repr

structure RowId where
  val : Nat
  pos : 0 < val
  le : val ≤ maxInt
  deriving DecidableEq, Repr

theorem RowId.natAbs_le (i : RowId) : (i.val : Int).natAbs ≤ maxInt := i.le

theorem RowId.eq_of_natCast {i j : RowId} (h : (i.val : Int) = j.val) : i = j := by
  obtain ⟨m, _, _⟩ := i
  obtain ⟨n, _, _⟩ := j
  have : m = n := by simp only at h; omega
  subst this
  rfl

/-- The cells of a row by the name of their column. -/
structure Row where
  id : RowId
  text : Text → Text
  int : Text → Int

/-- `seq` is the largest id used so far. -/
structure Table where
  rows : List Row
  seq : Nat
  nodup : (rows.map (·.id)).Nodup
  id_le : ∀ r ∈ rows, r.id.val ≤ seq
  seq_le : seq ≤ maxInt

def Table.empty : Table where
  rows := []
  seq := 0
  nodup := List.nodup_nil
  id_le _ hx := absurd hx List.not_mem_nil
  seq_le := Nat.zero_le _

def Table.single (r : Row) : Table where
  rows := [r]
  seq := r.id.val
  nodup := List.nodup_singleton _
  id_le _ hx := Nat.le_of_eq (congrArg (·.id.val) (List.mem_singleton.mp hx))
  seq_le := r.id.le

def assign (sets : Assignments) (r : Row) : Row where
  id := r.id
  text c := match sets.lookup c with
    | some (.text v) => v
    | _ => r.text c
  int c := match sets.lookup c with
    | some (.int i) => i
    | _ => r.int c

/-- Each column once, with a constant of its type. -/
def Schema.Assigns (s : Schema) (sets : Assignments) : Prop :=
  (sets.map (·.1)).Nodup ∧ ∀ x ∈ sets, (x.1, x.2.kind) ∈ s.columns

/-- No condition, or one on the id. -/
def Schema.Selects (s : Schema) : Option (Text × Const) → Prop
  | none => True
  | some (c, .int _) => c = s.key
  | some (_, .text _) => False

instance (s : Schema) (sets : Assignments) : Decidable (s.Assigns sets) := by
  unfold Schema.Assigns; exact inferInstance

instance (s : Schema) (cond : Option (Text × Const)) : Decidable (s.Selects cond) := by
  unfold Schema.Selects; split <;> exact inferInstance

/-- The rows a condition on the id selects. -/
def hit : Option (Text × Const) → Row → Bool
  | some (_, .int i), r => (r.id.val : Int) = i
  | _, _ => true

theorem id_le_insert {t : Table} {r : Row} (hr : r.id.val = t.seq + 1) :
    ∀ x ∈ t.rows ++ [r], x.id.val ≤ t.seq + 1 := by
  intro x hx
  rcases List.mem_append.mp hx with hx | hx
  · have := t.id_le x hx; omega
  · rw [List.mem_singleton] at hx
    subst hx; omega

theorem nodup_insert {t : Table} {r : Row} (hr : r.id.val = t.seq + 1) :
    ((t.rows ++ [r]).map (·.id)).Nodup := by
  rw [List.map_append, List.nodup_append]
  refine ⟨t.nodup, List.nodup_singleton _, ?_⟩
  intro i hi j hj hij
  obtain ⟨x, hx, rfl⟩ := List.mem_map.mp hi
  have := t.id_le x hx
  simp only [List.map_cons, List.map_nil, List.mem_singleton] at hj
  rw [hij, hj] at this
  omega

/-- `insert into … (columns) values(values)` of all columns. -/
def Table.insert (s : Schema) (t : Table) (columns : List Text) (values : List Const) :
    Option Table :=
  if h : columns.zip (values.map Const.kind) = s.columns ∧ values.length = columns.length ∧
      t.seq < maxInt then
    let id : RowId := ⟨t.seq + 1, by omega, by omega⟩
    some
      { rows := t.rows ++ [assign (columns.zip values) ⟨id, fun _ => [], fun _ => 0⟩]
        seq := t.seq + 1
        nodup := nodup_insert rfl
        id_le := id_le_insert rfl
        seq_le := by omega }
  else none

/-- `update … set sets cond` -/
def Table.update (s : Schema) (t : Table) (sets : Assignments) (cond : Option (Text × Const)) :
    Option Table :=
  if s.Assigns sets ∧ s.Selects cond then
    some
      { rows := t.rows.map fun r => if hit cond r then assign sets r else r
        seq := t.seq
        nodup := by
          have h : (t.rows.map fun r => if hit cond r then assign sets r else r).map (·.id) =
              t.rows.map (·.id) := by
            rw [List.map_map]
            refine List.map_congr_left fun r _ => ?_
            simp only [Function.comp_apply]
            split <;> rfl
          rw [h]; exact t.nodup
        id_le := by
          intro x hx
          obtain ⟨r, hr, rfl⟩ := List.mem_map.mp hx
          have := t.id_le r hr
          split <;> exact this
        seq_le := t.seq_le }
  else none

/-- `delete from … cond` -/
def Table.delete (s : Schema) (t : Table) (cond : Option (Text × Const)) : Option Table :=
  if s.Selects cond then
    some
      { rows := t.rows.filter fun r => !hit cond r
        seq := t.seq
        nodup := (List.Sublist.map _ List.filter_sublist).nodup t.nodup
        id_le := fun x hx => t.id_le x (List.mem_of_mem_filter hx)
        seq_le := t.seq_le }
  else none

def Statement.table : Statement → Text
  | .insert t _ _ => t
  | .update t _ _ => t
  | .delete t _ => t

/-- What the documentation says a statement does to its table. -/
def Statement.effect (s : Schema) (t : Table) : Statement → Option Table
  | .insert _ columns values => t.insert s columns values
  | .update _ sets cond => t.update s sets cond
  | .delete _ cond => t.delete s cond

/-! ## What a documented statement did -/

theorem insert_inv {s : Schema} {t t' : Table} {columns : List Text} {values : List Const}
    (h : t.insert s columns values = some t') :
    columns.zip (values.map Const.kind) = s.columns ∧ values.length = columns.length ∧
      t.seq < maxInt ∧ ∃ r, r.id.val = t.seq + 1 ∧
        t'.rows = t.rows ++ [assign (columns.zip values) r] := by
  unfold Table.insert at h
  split at h
  · rename_i hc
    obtain rfl := Option.some.inj h
    exact ⟨hc.1, hc.2.1, hc.2.2, _, rfl, rfl⟩
  · cases h

theorem insert_isSome {s : Schema} {t : Table} {columns : List Text} {values : List Const}
    (hc : columns.zip (values.map Const.kind) = s.columns) (hl : values.length = columns.length)
    (hs : t.seq < maxInt) : ∃ t', t.insert s columns values = some t' := by
  unfold Table.insert
  rw [dif_pos ⟨hc, hl, hs⟩]
  exact ⟨_, rfl⟩

theorem update_inv {s : Schema} {t t' : Table} {sets : Assignments} {cond : Option (Text × Const)}
    (h : t.update s sets cond = some t') :
    s.Assigns sets ∧ s.Selects cond ∧
      t'.rows = t.rows.map fun r => if hit cond r then assign sets r else r := by
  unfold Table.update at h
  split at h
  · rename_i hc
    obtain rfl := Option.some.inj h
    exact ⟨hc.1, hc.2, rfl⟩
  · cases h

theorem update_isSome {s : Schema} {sets : Assignments} {cond : Option (Text × Const)}
    (hs : s.Assigns sets) (hc : s.Selects cond) (t : Table) : ∃ t', t.update s sets cond = some t' := by
  unfold Table.update
  rw [if_pos ⟨hs, hc⟩]
  exact ⟨_, rfl⟩

theorem delete_isSome {s : Schema} {cond : Option (Text × Const)} (hc : s.Selects cond) (t : Table) :
    ∃ t', t.delete s cond = some t' := by
  unfold Table.delete
  rw [if_pos hc]
  exact ⟨_, rfl⟩

theorem delete_inv {s : Schema} {t t' : Table} {cond : Option (Text × Const)}
    (h : t.delete s cond = some t') : s.Selects cond ∧ t'.rows = t.rows.filter fun r => !hit cond r := by
  unfold Table.delete at h
  split at h
  · rename_i hc
    obtain rfl := Option.some.inj h
    exact ⟨hc, rfl⟩
  · cases h

/-- Ids are not used again. -/
theorem seq_effect {s : Schema} {t t' : Table} {stmt : Statement} (h : stmt.effect s t = some t') :
    t.seq ≤ t'.seq := by
  cases stmt with
  | insert table columns values =>
    simp only [Statement.effect, Table.insert] at h
    split at h
    · obtain rfl := Option.some.inj h
      exact Nat.le_succ t.seq
    · cases h
  | update table sets cond =>
    simp only [Statement.effect, Table.update] at h
    split at h
    · obtain rfl := Option.some.inj h
      exact Nat.le_refl t.seq
    · cases h
  | delete table cond =>
    simp only [Statement.effect, Table.delete] at h
    split at h
    · obtain rfl := Option.some.inj h
      exact Nat.le_refl t.seq
    · cases h

theorem seq_insert {s : Schema} {t t' : Table} {columns : List Text} {values : List Const}
    (h : t.insert s columns values = some t') : t'.seq = t.seq + 1 := by
  unfold Table.insert at h
  split at h
  · obtain rfl := Option.some.inj h
    rfl
  · cases h

theorem seq_update {s : Schema} {t t' : Table} {sets : Assignments} {cond : Option (Text × Const)}
    (h : t.update s sets cond = some t') : t'.seq = t.seq := by
  unfold Table.update at h
  split at h
  · obtain rfl := Option.some.inj h
    rfl
  · cases h

theorem seq_delete {s : Schema} {t t' : Table} {cond : Option (Text × Const)}
    (h : t.delete s cond = some t') : t'.seq = t.seq := by
  unfold Table.delete at h
  split at h
  · obtain rfl := Option.some.inj h
    rfl
  · cases h

/-! ## Assignments -/

/-- An update of a table with one row leaves the row or assigns to it. -/
theorem mem_update_single {s : Schema} {old r : Row} {t : Table} {sets : Assignments}
    {cond : Option (Text × Const)} (h : (Table.single old).update s sets cond = some t)
    (hr : r ∈ t.rows) : r = old ∨ r = assign sets old := by
  rw [(update_inv h).2.2] at hr
  obtain ⟨r₀, hr₀, rfl⟩ := List.mem_map.mp hr
  rw [List.mem_singleton.mp hr₀]
  split
  · exact Or.inr rfl
  · exact Or.inl rfl

theorem lookup_of_mem {sets : Assignments} (hn : (sets.map (·.1)).Nodup) {c : Text} {v : Const}
    (h : (c, v) ∈ sets) : sets.lookup c = some v := by
  induction sets with
  | nil => cases h
  | cons x sets ih =>
    rw [List.map_cons, List.nodup_cons] at hn
    obtain ⟨d, w⟩ := x
    rcases List.mem_cons.mp h with heq | hmem
    · obtain ⟨rfl, rfl⟩ := Prod.mk.inj heq
      simp
    · have hd : (c == d) = false := by
        rw [beq_eq_false_iff_ne]
        intro hcd
        rw [← hcd] at hn
        exact hn.1 (List.mem_map.mpr ⟨(c, v), hmem, rfl⟩)
      rw [List.lookup_cons, hd]
      exact ih hn.2 hmem

theorem text_assign {sets : Assignments} (hn : (sets.map (·.1)).Nodup) {c v : Text}
    (h : (c, .text v) ∈ sets) (r : Row) : (assign sets r).text c = v := by
  simp only [assign, lookup_of_mem hn h]

theorem int_assign {sets : Assignments} (hn : (sets.map (·.1)).Nodup) {c : Text} {i : Int}
    (h : (c, .int i) ∈ sets) (r : Row) : (assign sets r).int c = i := by
  simp only [assign, lookup_of_mem hn h]

/-- Texts found in the columns `l` of an assigned row are those assigned. -/
theorem agrees_of_assign {sets : Assignments} (hn : (sets.map (·.1)).Nodup) {r : Row}
    {l : List (Text × Text)} (h : ∀ x ∈ l, (assign sets r).text x.1 = x.2) :
    ∀ c f v, (c, f) ∈ l → (c, .text v) ∈ sets → v = f := by
  intro c f v hf hv
  rw [← text_assign hn hv r]
  exact h (c, f) hf

theorem lookup_eq_none {sets : Assignments} {c : Text} (h : c ∉ sets.map (·.1)) :
    sets.lookup c = none := by
  induction sets with
  | nil => rfl
  | cons x sets ih =>
    rw [List.map_cons, List.mem_cons, not_or] at h
    have hd : (c == x.1) = false := by
      rw [beq_eq_false_iff_ne]; exact h.1
    rw [List.lookup_cons, hd]
    exact ih h.2

/-- A column that is not assigned keeps its cell. -/
theorem assign_of_not_mem {sets : Assignments} {c : Text} (h : c ∉ sets.map (·.1)) (r : Row) :
    (assign sets r).text c = r.text c ∧ (assign sets r).int c = r.int c := by
  simp only [assign, lookup_eq_none h, and_self]

end MysqlConnection.Sql
