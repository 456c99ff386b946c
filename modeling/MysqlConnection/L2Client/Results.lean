import MysqlConnection.Core.Heap
import MysqlConnection.L2Client.SQLClient

/-!
# The rows of `execute:`

The block of `execute:` call by call, with its memory: for each result set an
array of `struct COL` and one buffer a column, which `dbbind` hands to FreeTDS
and `dbnextrow` writes to; the rows are read from the buffers as C strings. The
array stands for its lifetime only, its fields are the list of `COL`.

FreeTDS is outside the repository. A `Reply` is what its calls and `calloc`
return; `FreeTDS.Documented` is what `dbnextrow` does to a variable bound as
`NTBSTRINGBIND`. What C leaves undefined is `none`: an overflow of
`pcol->size + 1`, an access to a block that is not live or past its end, a
string without its NUL.

* `executeBlock_eq`: no reply reaches what is undefined, unless a `[VAR]CHAR`
  column has the largest `int` as its length; what is reported is `tablesOf`,
  and the blocks that are left are those of a result set that ended early.
* `value_iff`, `row_iff`: what becomes of a value, and when a row keeps them all.
* `block_reports`: the block of the client model reports the same.
-/
namespace MysqlConnection.L2.Client

/-! ## FreeTDS -/

abbrev Bytes := List UInt8

/-- A value as the characters that `NTBSTRINGBIND` makes of it; `none` is
NULL. -/
abbrev Cell := Option Bytes

/-- `dbwillconvert(type, SYBCHAR)`, a `DBBOOL`, and what `dbnextrow` writes to a
variable of so many bytes. -/
structure FreeTDS where
  dbwillconvert : Int → UInt8
  copied : Nat → Cell → Bytes

/-- No more than the length of the variable is written, with a NUL; NULL is the
empty string, and a value that fits is copied. -/
structure FreeTDS.Documented (tds : FreeTDS) : Prop where
  length_le : ∀ varlen cell, 0 < varlen → (tds.copied varlen cell).length ≤ varlen
  terminated : ∀ varlen cell, 0 < varlen → 0 ∈ tds.copied varlen cell
  null : ∀ varlen, 0 < varlen → tds.copied varlen none = [0]
  whole : ∀ varlen t, t.length < varlen → tds.copied varlen (some t) = t ++ [0]

/-- A library that cuts what does not fit. -/
def cutting : FreeTDS where
  dbwillconvert _ := 255
  copied varlen cell := (cell.getD []).take (varlen - 1) ++ [0]

theorem documented_cutting : cutting.Documented where
  length_le := by
    intro varlen cell h
    rw [cutting, List.length_append, List.length_take, List.length_singleton]
    omega
  terminated := fun _ _ _ => List.mem_append_right _ List.mem_cons_self
  null := by
    intro varlen _
    show [].take (varlen - 1) ++ [0] = [0]
    rw [List.take_nil, List.nil_append]
  whole := by
    intro varlen t h
    show t.take (varlen - 1) ++ [0] = t ++ [0]
    rw [List.take_of_length_le (by omega)]

/-- mirrors sybdb.h:156 -/
def SYBCHAR : Int := 47

/-- What the calls for one column return; `calloc` is the one for its buffer. -/
structure Column where
  dbcolname : Bytes
  dbcoltype : Int
  dbcollen : Nat
  calloc : Bool
  dbbind : Bool
  dbnullbind : Bool
  deriving DecidableEq, Repr

/-- What `dbnextrow` returns with `n` columns, `NO_MORE_ROWS` apart; `other` is
the row of a `compute` clause. -/
inductive RowCode (n : Nat) where
  | regRow (cells : List Cell) (length_eq : cells.length = n)
  | bufFull
  | fail
  | other

/-- `succeed` is what `dbresults` returned. -/
structure ResultSet where
  succeed : Bool
  calloc : Bool
  columns : List Column
  rows : List (RowCode columns.length)

/-- All up to `NO_MORE_RESULTS`. -/
structure Reply where
  dbsqlexec : Bool
  results : List ResultSet

/-! ## The block -/

/-- mirrors SQLClient.m:19-26 -/
structure COL where
  name : Bytes
  buffer : Nat
  type : Int
  size : Nat
  deriving DecidableEq, Repr

/-- A C string up to its NUL. -/
def cString (block : Bytes) : Option Bytes :=
  if 0 ∈ block then some (block.takeWhile (· ≠ 0)) else none

/-- `nil` if the bytes are no UTF-8. -/
def stringWithUTF8String (s : Bytes) : Option NSString :=
  (ByteArray.utf8Decode? ⟨s.toArray⟩).map Array.toList

/-- `row[column] = value` -/
def setObject (row : Row) (column : NSString) (value : Option NSString) : Row :=
  match row with
  | [] => [(column, value)]
  | x :: row => if x.1 = column then (column, value) :: row else x :: setObject row column value

/-- How a loop of the block ends. `exception` is raised for a `nil` key. -/
inductive Ended (α : Type) where
  | done (a : α)
  | failure
  | exception
  deriving DecidableEq, Repr

section
variable (tds : FreeTDS)

/-- mirrors SQLClient.m:174-182 -/
def Column.size (c : Column) : Nat :=
  if c.dbcoltype ≠ SYBCHAR then (tds.dbwillconvert c.dbcoltype).toNat else c.dbcollen

/-- mirrors SQLClient.m:168-199 -/
def bindColumns (h : Heap UInt8) : List Column → Option (Heap UInt8 × Option (List COL))
  | [] => some (h, some [])
  | c :: cs =>
    -- `pcol->size + 1` overflows
    if 2 ^ 31 ≤ c.size tds + 1 then none
    else if c.calloc = false then some (h, none)
    else
      let pcol : COL := ⟨c.dbcolname, h.next, c.dbcoltype, c.size tds⟩
      let h := h.calloc (List.replicate (c.size tds + 1) 0)
      if c.dbbind = false ∨ c.dbnullbind = false then some (h, none)
      else (bindColumns h cs).map fun x => (x.1, x.2.map (pcol :: ·))

/-- A regular row goes to the buffers, and what `dbnullbind` asked for to the
array. -/
def dbnextrow (h : Heap UInt8) (columns : Nat) : List (COL × Cell) → Option (Heap UInt8)
  | [] => some h
  | (pcol, cell) :: rest =>
    (h.read columns).bind fun _ =>
      (h.write pcol.buffer (tds.copied (pcol.size + 1) cell)).bind fun h => dbnextrow h columns rest

/-- `none` inside is a `nil` key.
mirrors SQLClient.m:212-222 -/
def readRow (h : Heap UInt8) (row : Row) : List COL → Option (Option Row)
  | [] => some (some row)
  | pcol :: cols =>
    (h.read pcol.buffer).bind fun block =>
      (cString block).bind fun value =>
        match stringWithUTF8String pcol.name with
        | none => some none
        | some column => readRow h (setObject row column (stringWithUTF8String value)) cols

/-- mirrors SQLClient.m:203-238 -/
def rowsLoop {n : Nat} (h : Heap UInt8) (columns : Nat) (cols : List COL) (table : Table) :
    List (RowCode n) → Option (Heap UInt8 × Ended Table)
  | [] => some (h, .done table)
  | .regRow cells _ :: rest =>
    (dbnextrow tds h columns (cols.zip cells)).bind fun h =>
      (readRow h [] cols).bind fun row =>
        match row with
        | none => some (h, .exception)
        | some row => rowsLoop h columns cols (table ++ [row]) rest
  | .bufFull :: _ => some (h, .failure)
  | .fail :: _ => some (h, .failure)
  | .other :: rest => rowsLoop h columns cols table rest

/-- mirrors SQLClient.m:154-247 -/
def resultSet (h : Heap UInt8) (rs : ResultSet) : Option (Heap UInt8 × Ended Table) :=
  if rs.calloc = false then some (h, .failure)
  else
    let columns := h.next
    (bindColumns tds (h.calloc (List.replicate rs.columns.length 0)) rs.columns).bind fun x =>
      match x.2 with
      | none => some (x.1, .failure)
      | some cols =>
        (rowsLoop tds x.1 columns cols [] rs.rows).bind fun y =>
          match y.2 with
          | .done table =>
            (((cols.map (·.buffer)).foldlM Heap.free y.1).bind fun h => h.free columns).map
              fun h => (h, .done table)
          | .failure => some (y.1, .failure)
          | .exception => some (y.1, .exception)

/-- mirrors SQLClient.m:152-250 -/
def resultsLoop (h : Heap UInt8) (output : Tables) :
    List ResultSet → Option (Heap UInt8 × Ended Tables)
  | [] => some (h, .done output)
  | rs :: rest =>
    (resultSet tds h rs).bind fun x =>
      match x.2 with
      | .done table => resultsLoop x.1 (output ++ [table]) rest
      | .failure => some (x.1, .failure)
      | .exception => some (x.1, .exception)

/-- mirrors SQLClient.m:132-252 -/
def executeBlock (h : Heap UInt8) (reply : Reply) : Option (Heap UInt8 × Ended Tables) :=
  if reply.dbsqlexec = false then some (h, .failure) else resultsLoop tds h [] reply.results

/-! ## Without memory -/

/-- The value of a column; `none` is `NSNull`. -/
def value (c : Column) (cell : Cell) : Option NSString :=
  stringWithUTF8String ((tds.copied (c.size tds + 1) cell).takeWhile (· ≠ 0))

def rowOf (row : Row) : List (Column × Cell) → Option Row
  | [] => some row
  | (c, cell) :: rest =>
    (stringWithUTF8String c.dbcolname).bind fun column =>
      rowOf (setObject row column (value tds c cell)) rest

def rowsOf {n : Nat} (columns : List Column) (table : Table) : List (RowCode n) → Ended Table
  | [] => .done table
  | .regRow cells _ :: rest =>
    match rowOf tds [] (columns.zip cells) with
    | none => .exception
    | some row => rowsOf columns (table ++ [row]) rest
  | .bufFull :: _ => .failure
  | .fail :: _ => .failure
  | .other :: rest => rowsOf columns table rest

/-- All calls for the column succeed. -/
def Column.binds (c : Column) : Bool := c.calloc && c.dbbind && c.dbnullbind

def tableOf (rs : ResultSet) : Ended Table :=
  if rs.calloc && rs.columns.all Column.binds then rowsOf tds rs.columns [] rs.rows else .failure

def tablesOf (output : Tables) : List ResultSet → Ended Tables
  | [] => .done output
  | rs :: rest =>
    match tableOf tds rs with
    | .done table => tablesOf (output ++ [table]) rest
    | .failure => .failure
    | .exception => .exception

/-- What the block reports. -/
def reported (reply : Reply) : Ended Tables :=
  if reply.dbsqlexec = false then .failure else tablesOf tds [] reply.results

/-- The buffers that are there when the loop over the columns ends. -/
def buffers : List Column → Nat
  | [] => 0
  | c :: cs =>
    if c.calloc = false then 0
    else if c.dbbind = false ∨ c.dbnullbind = false then 1
    else buffers cs + 1

/-- The blocks that are left: the array and the buffers of the result set that
ended early. -/
def leaked : List ResultSet → Nat
  | [] => 0
  | rs :: rest =>
    match tableOf tds rs with
    | .done _ => leaked rest
    | _ => if rs.calloc = false then 0 else buffers rs.columns + 1

def Reply.leaked (reply : Reply) : Nat :=
  if reply.dbsqlexec = false then 0 else Client.leaked tds reply.results

end

/-! ## The memory -/

/-- The buffers of the columns, each as long as `dbbind` was told. -/
inductive Bound (tds : FreeTDS) : List Column → List COL → List (Nat × Bytes) → Prop
  | nil : Bound tds [] [] []
  | cons {c : Column} {pcol : COL} {x : Nat × Bytes} {cs : List Column} {cols : List COL}
      {own : List (Nat × Bytes)} (hname : pcol.name = c.dbcolname) (hsize : pcol.size = c.size tds)
      (hbuffer : pcol.buffer = x.1) (hlen : x.2.length = c.size tds + 1) (h : Bound tds cs cols own) :
      Bound tds (c :: cs) (pcol :: cols) (x :: own)

/-- The same after a row was written to them. -/
inductive Filled (tds : FreeTDS) : List (Column × Cell) → List COL → List (Nat × Bytes) → Prop
  | nil : Filled tds [] [] []
  | cons {c : Column} {cell : Cell} {pcol : COL} {a : Nat} {rest : Bytes} {cs : List (Column × Cell)}
      {cols : List COL} {own : List (Nat × Bytes)} (hname : pcol.name = c.dbcolname)
      (hbuffer : pcol.buffer = a) (h : Filled tds cs cols own) :
      Filled tds ((c, cell) :: cs) (pcol :: cols)
        ((a, tds.copied (c.size tds + 1) cell ++ rest) :: own)

section
variable {tds : FreeTDS}

theorem Bound.buffers_eq {cs : List Column} {cols : List COL} {own : List (Nat × Bytes)}
    (h : Bound tds cs cols own) : cols.map (·.buffer) = own.map (·.1) := by
  induction h with
  | nil => rfl
  | cons _ _ hbuffer _ _ ih => rw [List.map_cons, List.map_cons, ih, hbuffer]

/-- The size of a column that is not `[VAR]CHAR` is a `DBBOOL`. -/
theorem size_lt {c : Column} (h : c.dbcollen + 1 < 2 ^ 31) : c.size tds + 1 < 2 ^ 31 := by
  unfold Column.size
  split
  · have := (tds.dbwillconvert c.dbcoltype).toNat_lt
    omega
  · exact h

theorem bindColumns_eq : ∀ {cs : List Column} {h : Heap UInt8},
    (∀ c ∈ cs, c.dbcollen + 1 < 2 ^ 31) → ∃ h' own r,
      bindColumns tds h cs = some (h', r) ∧ h'.blocks = h.blocks ++ own ∧ own.length = buffers cs ∧
      (cs.all Column.binds = true → ∃ cols, r = some cols ∧ Bound tds cs cols own) ∧
      (cs.all Column.binds = false → r = none)
  | [], h, _ => ⟨h, [], some [], rfl, (List.append_nil _).symm, rfl, fun _ => ⟨[], rfl, .nil⟩,
      fun hall => Bool.noConfusion hall⟩
  | c :: cs, h, hlen => by
    have hlt : c.size tds + 1 < 2 ^ 31 := size_lt (hlen c List.mem_cons_self)
    have hsize : ¬ 2 ^ 31 ≤ c.size tds + 1 := by omega
    rw [bindColumns, if_neg hsize]
    cases hc : c.calloc with
    | false =>
      refine ⟨h, [], none, by rw [if_pos rfl], (List.append_nil _).symm, ?_, ?_, fun _ => rfl⟩
      · rw [buffers, if_pos hc]; rfl
      · simp [Column.binds, hc]
    | true =>
      rw [if_neg Bool.noConfusion]
      by_cases hfail : c.dbbind = false ∨ c.dbnullbind = false
      · refine ⟨_, [(h.next, List.replicate (c.size tds + 1) 0)], none, by rw [if_pos hfail], rfl, ?_,
          ?_, fun _ => rfl⟩
        · rw [buffers, hc, if_neg Bool.noConfusion, if_pos hfail]; rfl
        · intro hall
          rcases hfail with hf | hf
          · simp [Column.binds, hf] at hall
          · simp [Column.binds, hf] at hall
      · obtain ⟨h', own, r, hr, hb, hown, hall, hnone⟩ :=
          bindColumns_eq (h := h.calloc _)
            fun c' hc' => hlen c' (List.mem_cons_of_mem _ hc')
        have hbinds : c.binds = true := by
          simp only [not_or, Bool.not_eq_false] at hfail
          simp [Column.binds, hc, hfail]
        refine ⟨h', (h.next, List.replicate (c.size tds + 1) 0) :: own, r.map (_ :: ·),
          by rw [if_neg hfail, hr]; rfl, ?_, ?_, ?_, ?_⟩
        · rw [hb, Heap.calloc, List.append_assoc]; rfl
        · rw [buffers, hc, if_neg Bool.noConfusion, if_neg hfail, List.length_cons, hown]
        · intro h
          rw [List.all_cons, hbinds, Bool.true_and] at h
          obtain ⟨cols, rfl, hcols⟩ := hall h
          exact ⟨_, rfl, .cons rfl rfl rfl List.length_replicate hcols⟩
        · intro h
          rw [List.all_cons, hbinds, Bool.true_and] at h
          rw [hnone h]; rfl

/-- A row is written to the buffers, wherever they stand in the heap. -/
theorem dbnextrow_eq (htds : tds.Documented) {columns : Nat} {b : Bytes} {cs : List Column} {cols : List COL}
    {own : List (Nat × Bytes)} (hc : Bound tds cs cols own) :
    ∀ {cells : List Cell} {pre : List (Nat × Bytes)} {h : Heap UInt8}, cells.length = cs.length →
      h.blocks = pre ++ own → (columns, b) ∈ pre → ∃ h' own',
        dbnextrow tds h columns (cols.zip cells) = some h' ∧ h'.blocks = pre ++ own' ∧
        Bound tds cs cols own' ∧ Filled tds (cs.zip cells) cols own' := by
  induction hc with
  | nil =>
    intro cells pre h _ hb _
    exact ⟨h, [], rfl, hb, .nil, .nil⟩
  | @cons c pcol x cs cols own hname hsize hbuffer hlen hc ih =>
    intro cells pre h hcells hb hm
    cases cells with
    | nil => cases hcells
    | cons cell cells =>
      obtain ⟨a, block⟩ := x
      have hread : h.read columns = some b :=
        Heap.read_of_mem (by rw [hb]; exact List.mem_append_left _ hm)
      have hle : (tds.copied (c.size tds + 1) cell).length ≤ block.length := by
        rw [show block.length = c.size tds + 1 from hlen]
        exact htds.length_le _ _ (Nat.succ_pos _)
      obtain ⟨h₁, hw, hb₁⟩ := Heap.write_of_blocks hb hle
      rw [List.append_cons] at hb₁
      obtain ⟨h', own', hrest, hb', hbound, hfilled⟩ :=
        ih (Nat.succ.inj hcells) hb₁ (List.mem_append_left _ hm)
      rw [← List.append_cons] at hb'
      refine ⟨h', _, ?_, hb', .cons hname hsize hbuffer ?_ hbound, .cons hname hbuffer hfilled⟩
      · rw [List.zip_cons_cons, dbnextrow, hread, Option.bind_some, hbuffer, hsize, hw]
        exact hrest
      · rw [List.length_append, List.length_drop]
        have := show block.length = c.size tds + 1 from hlen
        omega

theorem takeWhile_nul {l₁ : Bytes} (h : 0 ∉ l₁) (l₂ : Bytes) :
    (l₁ ++ 0 :: l₂).takeWhile (· ≠ 0) = l₁ := by
  have hpos : ∀ x ∈ l₁, decide (x ≠ 0) = true := by
    intro x hx
    exact decide_eq_true fun he => h (he ▸ hx)
  rw [List.takeWhile_append_of_pos hpos, List.takeWhile_cons_of_neg (by simp), List.append_nil]

/-- Behind its NUL a block does not matter. -/
theorem cString_append {block rest : Bytes} (h : 0 ∈ block) :
    cString (block ++ rest) = some (block.takeWhile (· ≠ 0)) := by
  obtain ⟨l₁, l₂, rfl, hn⟩ := List.eq_append_cons_of_mem h
  rw [cString, if_pos (List.mem_append_left _ h), takeWhile_nul hn, List.append_assoc,
    List.cons_append, takeWhile_nul hn]

/-- The rows are read from the buffers as they were written. -/
theorem readRow_eq (htds : tds.Documented) {cs : List (Column × Cell)} {cols : List COL}
    {own : List (Nat × Bytes)} (hf : Filled tds cs cols own) :
    ∀ {h : Heap UInt8} {row : Row}, (∀ x ∈ own, x ∈ h.blocks) →
      readRow h row cols = some (rowOf tds row cs) := by
  induction hf with
  | nil => intro h row _; rfl
  | @cons c cell pcol a rest cs cols own hname hbuffer hf ih =>
    intro h row hown
    have hread := Heap.read_of_mem (hown _ List.mem_cons_self)
    have hstring : cString (tds.copied (c.size tds + 1) cell ++ rest) =
        some ((tds.copied (c.size tds + 1) cell).takeWhile (· ≠ 0)) :=
      cString_append (htds.terminated _ _ (Nat.succ_pos _))
    rw [readRow, rowOf, hbuffer, hread, Option.bind_some, hstring, Option.bind_some, hname]
    cases stringWithUTF8String c.dbcolname with
    | none => rfl
    | some column => exact ih fun x hx => hown x (List.mem_cons_of_mem _ hx)

theorem rowsLoop_eq (htds : tds.Documented) {columns : Nat} {b : Bytes} {cs : List Column}
    {cols : List COL} {pre : List (Nat × Bytes)} (hm : (columns, b) ∈ pre) :
    ∀ (rows : List (RowCode cs.length)) (table : Table) {own : List (Nat × Bytes)} {h : Heap UInt8},
      Bound tds cs cols own → h.blocks = pre ++ own → ∃ h' own',
        rowsLoop tds h columns cols table rows = some (h', rowsOf tds cs table rows) ∧
        h'.blocks = pre ++ own' ∧ Bound tds cs cols own'
  | [], _, own, h, hc, hb => ⟨h, own, rfl, hb, hc⟩
  | .bufFull :: _, _, own, h, hc, hb => ⟨h, own, rfl, hb, hc⟩
  | .fail :: _, _, own, h, hc, hb => ⟨h, own, rfl, hb, hc⟩
  | .other :: rows, table, _, _, hc, hb => rowsLoop_eq htds hm rows table hc hb
  | .regRow cells hlen :: rows, table, own, h, hc, hb => by
    obtain ⟨h₁, own₁, hnext, hb₁, hc₁, hf⟩ := dbnextrow_eq htds hc hlen hb hm
    have hread : readRow h₁ [] cols = some (rowOf tds [] (cs.zip cells)) :=
      readRow_eq htds hf fun x hx => hb₁ ▸ List.mem_append_right _ hx
    rw [rowsLoop, rowsOf, hnext, Option.bind_some, hread, Option.bind_some]
    cases rowOf tds [] (cs.zip cells) with
    | none => exact ⟨h₁, own₁, rfl, hb₁, hc₁⟩
    | some row => exact rowsLoop_eq htds hm rows (table ++ [row]) hc₁ hb₁

theorem Bound.length_eq {cs : List Column} {cols : List COL} {own : List (Nat × Bytes)}
    (h : Bound tds cs cols own) : own.length = cs.length := by
  induction h with
  | nil => rfl
  | cons _ _ _ _ _ ih => rw [List.length_cons, List.length_cons, ih]

/-- One result set: its blocks are freed, or left if it ends early. -/
theorem resultSet_eq (htds : tds.Documented) {rs : ResultSet} {h : Heap UInt8}
    (hlen : ∀ c ∈ rs.columns, c.dbcollen + 1 < 2 ^ 31) : ∃ h' own,
      resultSet tds h rs = some (h', tableOf tds rs) ∧ h'.blocks = h.blocks ++ own ∧
      own.length = leaked tds [rs] := by
  unfold resultSet
  cases hcalloc : rs.calloc with
  | false =>
    have htable : tableOf tds rs = .failure := by rw [tableOf, hcalloc]; rfl
    refine ⟨h, [], by rw [if_pos rfl, htable], (List.append_nil _).symm, ?_⟩
    rw [leaked, htable, hcalloc]
    rfl
  | true =>
    rw [if_neg Bool.noConfusion]
    obtain ⟨h₁, own, r, hbind, hb, hown, hall, hnone⟩ :=
      bindColumns_eq (h := h.calloc (List.replicate rs.columns.length 0)) hlen
    rw [hbind, Option.bind_some]
    have hb₁ : h₁.blocks = (h.blocks ++ [(h.next, List.replicate rs.columns.length 0)]) ++ own := hb
    cases hbinds : rs.columns.all Column.binds with
    | false =>
      have htable : tableOf tds rs = .failure := by rw [tableOf, hcalloc, hbinds]; rfl
      obtain rfl := hnone hbinds
      refine ⟨h₁, (h.next, _) :: own, by rw [htable], by rw [hb₁, List.append_assoc]; rfl, ?_⟩
      rw [leaked, htable, hcalloc, List.length_cons, hown]
      rfl
    | true =>
      have htable : tableOf tds rs = rowsOf tds rs.columns [] rs.rows := by
        rw [tableOf, hcalloc, hbinds]; rfl
      obtain ⟨cols, rfl, hc⟩ := hall hbinds
      obtain ⟨h₂, own₂, hloop, hb₂, hc₂⟩ :=
        rowsLoop_eq htds (List.mem_append_right h.blocks List.mem_cons_self) rs.rows [] hc hb₁
      have hleft : own₂.length = buffers rs.columns := by
        rw [hc₂.length_eq, ← hc.length_eq, hown]
      simp only [hloop, Option.bind_some]
      rw [htable]
      cases hrows : rowsOf tds rs.columns [] rs.rows with
      | done table =>
        obtain ⟨h₃, hfree, hb₃⟩ := Heap.freeAll_eq hb₂
        obtain ⟨h₄, hlast, hb₄⟩ := Heap.free_of_blocks hb₃
        refine ⟨h₄, [], ?_, by rw [hb₄], ?_⟩
        · simp only [hc₂.buffers_eq, hfree, Option.bind_some, hlast, Option.map_some]
        · rw [leaked, htable, hrows]; rfl
      | failure =>
        refine ⟨h₂, (h.next, _) :: own₂, rfl, by rw [hb₂, List.append_assoc]; rfl, ?_⟩
        rw [leaked, htable, hrows, hcalloc, List.length_cons, hleft]
        rfl
      | exception =>
        refine ⟨h₂, (h.next, _) :: own₂, rfl, by rw [hb₂, List.append_assoc]; rfl, ?_⟩
        rw [leaked, htable, hrows, hcalloc, List.length_cons, hleft]
        rfl

theorem resultsLoop_eq (htds : tds.Documented) : ∀ (results : List ResultSet) (output : Tables)
    {h : Heap UInt8}, (∀ rs ∈ results, ∀ c ∈ rs.columns, c.dbcollen + 1 < 2 ^ 31) → ∃ h' own,
      resultsLoop tds h output results = some (h', tablesOf tds output results) ∧
      h'.blocks = h.blocks ++ own ∧ own.length = leaked tds results
  | [], output, h, _ => ⟨h, [], rfl, (List.append_nil _).symm, rfl⟩
  | rs :: results, output, h, hlen => by
    obtain ⟨h₁, own, hone, hb, hown⟩ := resultSet_eq htds (h := h) (hlen rs List.mem_cons_self)
    rw [resultsLoop, tablesOf, leaked, hone, Option.bind_some]
    rw [leaked] at hown
    cases htable : tableOf tds rs with
    | done table =>
      obtain ⟨h', own', hrest, hb', hown'⟩ := resultsLoop_eq htds results (output ++ [table])
        (h := h₁) fun rs' hrs' => hlen rs' (List.mem_cons_of_mem _ hrs')
      have hnone : own = [] := by
        rw [htable] at hown
        exact List.eq_nil_of_length_eq_zero hown
      refine ⟨h', own', hrest, ?_, hown'⟩
      rw [hb', hb, hnone, List.append_nil]
    | failure => exact ⟨h₁, own, rfl, hb, by rw [hown, htable]⟩
    | exception => exact ⟨h₁, own, rfl, hb, by rw [hown, htable]⟩

/-- The block reports what the rows say, with the memory of the result set that
ended early. -/
theorem executeBlock_eq (htds : tds.Documented) (h : Heap UInt8) {reply : Reply}
    (hlen : ∀ rs ∈ reply.results, ∀ c ∈ rs.columns, c.dbcollen + 1 < 2 ^ 31) : ∃ h' own,
      executeBlock tds h reply = some (h', reported tds reply) ∧ h'.blocks = h.blocks ++ own ∧
      own.length = reply.leaked tds := by
  unfold executeBlock reported Reply.leaked
  split
  · exact ⟨h, [], rfl, (List.append_nil _).symm, rfl⟩
  · exact resultsLoop_eq htds reply.results [] hlen

/-! ## The values -/

theorem stringWithUTF8String_injective {s t : Bytes} {v : NSString}
    (hs : stringWithUTF8String s = some v) (ht : stringWithUTF8String t = some v) : s = t := by
  have hencode : ∀ {u : Bytes}, stringWithUTF8String u = some v → (⟨u.toArray⟩ : ByteArray) =
      v.utf8Encode := by
    intro u hu
    obtain ⟨a, ha, rfl⟩ := Option.map_eq_some_iff.mp hu
    have h := ByteArray.utf8Encode_get_utf8Decode? (b := ⟨u.toArray⟩) (h := by rw [ha]; rfl)
    simp only [ha, Option.get_some] at h
    exact h.symm
  have he := (hencode hs).trans (hencode ht).symm
  injection he with he
  exact congrArg Array.toList he

/-- A text fits its column and has no NUL. -/
def Fits (tds : FreeTDS) (c : Column) (t : Bytes) : Prop := t.length ≤ c.size tds ∧ 0 ∉ t

/-- NULL is the empty text. -/
theorem value_null (htds : tds.Documented) (c : Column) : value tds c none = some [] := by
  rw [value, htds.null _ (Nat.succ_pos _)]
  rfl

theorem length_takeWhile_lt {l : Bytes} (h : 0 ∈ l) : (l.takeWhile (· ≠ 0)).length < l.length := by
  obtain ⟨l₁, l₂, rfl, hn⟩ := List.eq_append_cons_of_mem h
  rw [takeWhile_nul hn, List.length_append, List.length_cons]
  omega

/-- A text comes back if and only if it fits. -/
theorem value_iff (htds : tds.Documented) {c : Column} {t : Bytes} {v : NSString}
    (hv : stringWithUTF8String t = some v) : value tds c (some t) = some v ↔ Fits tds c t := by
  have hmem := htds.terminated (c.size tds + 1) (some t) (Nat.succ_pos _)
  constructor
  · intro h
    have hsame := stringWithUTF8String_injective h hv
    constructor
    · have hlt := length_takeWhile_lt hmem
      have hle := htds.length_le (c.size tds + 1) (some t) (Nat.succ_pos _)
      rw [hsame] at hlt
      omega
    · rw [← hsame]
      intro h0
      have hne := List.all_eq_true.mp List.all_takeWhile 0 h0
      exact of_decide_eq_true hne rfl
  · intro h
    rw [value, htds.whole _ _ (Nat.lt_succ_of_le h.1), takeWhile_nul h.2, hv]

/-! ## The dictionary of a row -/

theorem lookup_setObject (column k : NSString) (v : Option NSString) : ∀ row : Row,
    (setObject row column v).lookup k = if k = column then some v else row.lookup k
  | [] => by
    by_cases hk : k = column
    · rw [if_pos hk, setObject, hk, List.lookup_cons_self]
    · rw [if_neg hk, setObject, List.lookup_cons, beq_eq_false_iff_ne.mpr hk]
  | (a, b) :: row => by
    have ih := lookup_setObject column k v row
    unfold setObject
    by_cases ha : a = column
    · rw [if_pos ha, List.lookup_cons, List.lookup_cons, ha]
      by_cases hk : k = column
      · rw [if_pos hk, beq_iff_eq.mpr hk]
      · rw [if_neg hk, beq_eq_false_iff_ne.mpr hk]
    · rw [if_neg ha, List.lookup_cons, List.lookup_cons, ih]
      by_cases hk : k = column
      · rw [if_pos hk, if_pos hk, beq_eq_false_iff_ne.mpr fun he => ha (he.symm.trans hk)]
      · rw [if_neg hk, if_neg hk]

/-- The name of a column as a key. -/
def Column.key (c : Column) : Option NSString := stringWithUTF8String c.dbcolname

/-- A key has the value of the last column with this name. -/
theorem lookup_rowOf (k : NSString) : ∀ {cs : List (Column × Cell)} {row row' : Row},
    rowOf tds row cs = some row' → row'.lookup k =
      ((cs.reverse.find? fun x => x.1.key = some k).map fun x => value tds x.1 x.2).or (row.lookup k)
  | [], row, row', h => by
    cases h
    rfl
  | (c, cell) :: cs, row, row', h => by
    rw [rowOf, Option.bind_eq_some_iff] at h
    obtain ⟨column, hc, h⟩ := h
    have hkey : c.key = some column := hc
    rw [lookup_rowOf k h, lookup_setObject, List.reverse_cons, List.find?_append, Option.map_or,
      Option.or_assoc]
    congr 1
    by_cases hk : k = column
    · simp [hkey, hk]
    · have hne : ¬ column = k := fun he => hk he.symm
      simp [hkey, hk, hne]

/-- The last column with a name. -/
theorem exists_last {cs : List (Column × Cell)} {x : Column × Cell} {k : NSString} (hx : x ∈ cs)
    (hk : x.1.key = some k) : ∃ l₁ y l₂, cs = l₁ ++ y :: l₂ ∧ y.1.key = some k ∧
      (∀ z ∈ l₂, z.1.key ≠ some k) ∧ (cs.reverse.find? fun x => x.1.key = some k) = some y := by
  have hsome : (cs.reverse.find? fun x => x.1.key = some k).isSome = true := by
    rw [List.find?_isSome]
    exact ⟨x, List.mem_reverse.mpr hx, decide_eq_true hk⟩
  obtain ⟨y, hy⟩ := Option.isSome_iff_exists.mp hsome
  obtain ⟨hyk, as, bs, hrev, has⟩ := List.find?_eq_some_iff_append.mp hy
  refine ⟨bs.reverse, y, as.reverse, ?_, of_decide_eq_true hyk, fun z hz => ?_, hy⟩
  · rw [← List.reverse_reverse cs, hrev]
    simp
  · simpa using has z (List.mem_reverse.mp hz)

/-- A row has a key for each column. -/
theorem rowOf_keys : ∀ {cs : List (Column × Cell)} {row row' : Row},
    rowOf tds row cs = some row' → ∀ x ∈ cs, ∃ k, x.1.key = some k
  | [], _, _, _, _, hx => absurd hx List.not_mem_nil
  | (c, cell) :: cs, row, row', h, x, hx => by
    rw [rowOf, Option.bind_eq_some_iff] at h
    obtain ⟨column, hc, h⟩ := h
    rcases List.mem_cons.mp hx with rfl | hx
    · exact ⟨column, hc⟩
    · exact rowOf_keys h x hx

/-- The key of `x` has its value, if no later column has its name. -/
theorem lookup_of_last {cs l₁ l₂ : List (Column × Cell)} {x : Column × Cell} {row : Row} {k : NSString}
    (hrow : rowOf tds [] cs = some row) (hcs : cs = l₁ ++ x :: l₂) (hk : x.1.key = some k)
    (hlast : ∀ y ∈ l₂, y.1.key ≠ some k) : row.lookup k = some (value tds x.1 x.2) := by
  have hnone : (l₂.reverse.find? fun y => y.1.key = some k) = none := by
    rw [List.find?_eq_none]
    intro y hy
    simpa using hlast y (List.mem_reverse.mp hy)
  rw [lookup_rowOf k hrow, hcs]
  simp [List.find?_append, hnone, hk]

/-- Every column's value under its name. -/
def Kept (row : Row) (cs : List (Column × Cell)) : Prop :=
  ∀ x ∈ cs, ∀ k, x.1.key = some k → row.lookup k = some (x.2.bind stringWithUTF8String)

/-- `none` if there is no report. -/
def Ended.results : Ended Tables → Option (Option Tables)
  | .done tables => some (some tables)
  | .failure => some none
  | .exception => none

def Column.outcomes (c : Column) : List Outcome :=
  if c.calloc = false then [.ok, .ok, .fail]
  else if c.dbbind = false then [.ok, .ok, .ok, .fail]
  else if c.dbnullbind = false then [.ok, .ok, .ok, .ok, .fail]
  else [.ok, .ok, .ok, .ok, .ok]

def columnsOutcomes : List Column → List Outcome
  | [] => []
  | c :: cs => c.outcomes ++ if c.binds then columnsOutcomes cs else []

def rowsOutcomes (tds : FreeTDS) (columns : List Column) {n : Nat} : List (RowCode n) → List Outcome
  | [] => [.done]
  | .regRow cells _ :: rest =>
    match rowOf tds [] (columns.zip cells) with
    | none => []
    | some row => .row row :: rowsOutcomes tds columns rest
  | .bufFull :: _ => [.fail]
  | .fail :: _ => [.fail]
  | .other :: rest => .ok :: rowsOutcomes tds columns rest

def ResultSet.outcomes (tds : FreeTDS) (rs : ResultSet) : List Outcome :=
  (if rs.succeed then .ok else .fail) ::
    if rs.calloc = false then [.fail]
    else
      .cols rs.columns.length ::
        (columnsOutcomes rs.columns ++
          if rs.columns.all Column.binds then rowsOutcomes tds rs.columns rs.rows else [])

def resultsOutcomes (tds : FreeTDS) : List ResultSet → List Outcome
  | [] => [.done]
  | rs :: rest =>
    rs.outcomes tds ++
      match tableOf tds rs with
      | .done _ => resultsOutcomes tds rest
      | _ => []

/-- What the steps of the client's block are told of the reply. -/
def Reply.outcomes (tds : FreeTDS) (reply : Reply) : List Outcome :=
  .ok :: if reply.dbsqlexec = false then [.fail] else .ok :: resultsOutcomes tds reply.results

variable {ρ : Type}

/-- The steps of the block of `r` from `pc`, each with the state it meets. -/
def advance (r : Request ρ) (pc : ExecutePc) : List (St ρ × Outcome) → Option ExecutePc
  | [] => some pc
  | (s, o) :: rest =>
    match executeStep s r pc o with
    | some (_, some (.execute _ pc')) => advance r pc' rest
    | _ => none

/-- Where the block goes on after a result set. -/
def Ended.next (out : Tables) : Ended Table → Option ExecutePc
  | .done table => some (.dbresults (out ++ [table]))
  | .failure => some (.report none)
  | .exception => none

/-- The outcomes lead from `pc` to `pc'`, whatever the other blocks do between
two steps. -/
def Leads (r : Request ρ) (pc : ExecutePc) (os : List Outcome) (pc' : ExecutePc) : Prop :=
  ∀ met : List (St ρ × Outcome), met.map (·.2) = os → advance r pc met = some pc'

section
variable {r : Request ρ} {pc pc₁ pc' : ExecutePc} {o : Outcome} {os os' : List Outcome}

theorem leads_nil : Leads r pc [] pc := by
  intro met hmet
  rw [List.map_eq_nil_iff.mp hmet]
  rfl

theorem Leads.cons (hstep : ∀ s, ∃ s', executeStep s r pc o = some (s', some (.execute r pc₁)))
    (h : Leads r pc₁ os pc') : Leads r pc (o :: os) pc' := by
  intro met hmet
  obtain ⟨x, rest, rfl, rfl, hrest⟩ := List.map_eq_cons_iff.mp hmet
  obtain ⟨s, o⟩ := x
  obtain ⟨s', hs⟩ := hstep s
  rw [advance, hs]
  exact h rest hrest

theorem Leads.append (h : Leads r pc os pc₁) (h' : Leads r pc₁ os' pc') :
    Leads r pc (os ++ os') pc' := by
  intro met hmet
  obtain ⟨met₁, met₂, rfl, h₁, h₂⟩ := List.map_eq_append_iff.mp hmet
  have hadd : ∀ {pc : ExecutePc} {met₁ : List (St ρ × Outcome)}, advance r pc met₁ = some pc₁ →
      advance r pc (met₁ ++ met₂) = advance r pc₁ met₂ := by
    intro pc met₁
    induction met₁ generalizing pc with
    | nil =>
      intro hadv
      cases hadv
      rfl
    | cons x met₁ ih =>
      intro hadv
      obtain ⟨s, o⟩ := x
      rw [advance] at hadv
      rw [List.cons_append, advance]
      split at hadv
      · exact ih hadv
      · cases hadv
  rw [hadd (h met₁ h₁)]
  exact h' met₂ h₂

/-- The steps for the columns from number `k` on. -/
theorem leads_columns (out : Tables) {n : Nat} : ∀ {cs : List Column} {k : Nat}, k + cs.length = n →
    Leads r (nextBind out n k) (columnsOutcomes cs)
      (if cs.all Column.binds then .dbnextrow out [] else .report none)
  | [], k, hk => by
    have hk : ¬ k < n := by rw [← hk]; exact Nat.lt_irrefl k
    rw [nextBind, if_neg hk]
    exact leads_nil
  | c :: cs, k, hk => by
    rw [List.length_cons] at hk
    have hlt : k < n := by omega
    have hbinds : c.binds = (c.calloc && c.dbbind && c.dbnullbind) := rfl
    have hnames {os : List Outcome} {pc : ExecutePc} (h : Leads r (.bind .dbcollen out n k) os pc) :
        Leads r (.bind .dbcolname out n k) (.ok :: .ok :: os) pc :=
      .cons (fun s => ⟨_, rfl⟩) (.cons (fun s => ⟨_, rfl⟩) h)
    rw [nextBind, if_pos hlt, columnsOutcomes, Column.outcomes, List.all_cons, hbinds]
    cases c.calloc with
    | false => exact hnames (.cons (fun s => ⟨_, rfl⟩) leads_nil)
    | true =>
      cases c.dbbind with
      | false => exact hnames (.cons (fun s => ⟨_, rfl⟩) (.cons (fun s => ⟨_, rfl⟩) leads_nil))
      | true =>
        have hbuffer {os : List Outcome} {pc : ExecutePc}
            (h : Leads r (.bind .dbnullbind out n k) os pc) :
            Leads r (.bind .dbcolname out n k) (.ok :: .ok :: .ok :: .ok :: os) pc :=
          hnames (.cons (fun s => ⟨_, rfl⟩) (.cons (fun s => ⟨_, rfl⟩) h))
        cases c.dbnullbind with
        | false => exact hbuffer (.cons (fun s => ⟨_, rfl⟩) leads_nil)
        | true =>
          have hrest : Leads r (nextBind out n (k + 1)) (columnsOutcomes cs) _ :=
            leads_columns out (by omega)
          exact hbuffer (.cons (fun s => ⟨_, rfl⟩) hrest)

theorem leads_rows {columns : List Column} (out : Tables) {n : Nat} :
    ∀ (rows : List (RowCode n)) (table : Table), ∀ pc ∈ (rowsOf tds columns table rows).next out,
      Leads r (.dbnextrow out table) (rowsOutcomes tds columns rows) pc
  | [], table, pc, hpc => by
    cases hpc
    exact .cons (fun s => ⟨_, rfl⟩) leads_nil
  | .bufFull :: _, table, pc, hpc => by
    cases hpc
    exact .cons (fun s => ⟨_, rfl⟩) leads_nil
  | .fail :: _, table, pc, hpc => by
    cases hpc
    exact .cons (fun s => ⟨_, rfl⟩) leads_nil
  | .other :: rows, table, pc, hpc =>
    .cons (fun s => ⟨_, rfl⟩) (leads_rows out rows table pc hpc)
  | .regRow cells _ :: rows, table, pc, hpc => by
    rw [rowsOf] at hpc
    rw [rowsOutcomes]
    cases hrow : rowOf tds [] (columns.zip cells) with
    | none => rw [hrow] at hpc; cases hpc
    | some row =>
      rw [hrow] at hpc
      exact .cons (fun s => ⟨_, rfl⟩) (leads_rows out rows (table ++ [row]) pc hpc)

theorem leads_resultSet (out : Tables) {rs : ResultSet} :
    ∀ pc ∈ (tableOf tds rs).next out, Leads r (.dbresults out) (rs.outcomes tds) pc := by
  intro pc hpc
  have hresults {os : List Outcome} {pc : ExecutePc} (h : Leads r (.dbnumcols out) os pc) :
      Leads r (.dbresults out) ((if rs.succeed then .ok else .fail) :: os) pc := by
    cases rs.succeed with
    | false => exact .cons (fun s => ⟨_, rfl⟩) h
    | true => exact .cons (fun s => ⟨_, rfl⟩) h
  rw [tableOf] at hpc
  unfold ResultSet.outcomes
  refine hresults ?_
  cases hcalloc : rs.calloc with
  | false =>
    rw [hcalloc] at hpc
    cases hpc
    exact .cons (fun s => ⟨_, rfl⟩) leads_nil
  | true =>
    have hcolumns : Leads r (nextBind out rs.columns.length 0) (columnsOutcomes rs.columns) _ :=
      leads_columns out (Nat.zero_add _)
    rw [if_neg Bool.noConfusion]
    refine .cons (fun s => ⟨_, rfl⟩) (.append hcolumns ?_)
    cases hbinds : rs.columns.all Column.binds with
    | false =>
      rw [hcalloc, hbinds] at hpc
      cases hpc
      exact leads_nil
    | true =>
      rw [hcalloc, hbinds] at hpc
      exact leads_rows out rs.rows [] pc hpc

theorem leads_results : ∀ (results : List ResultSet) (out : Tables),
    ∀ res ∈ (tablesOf tds out results).results,
      Leads r (.dbresults out) (resultsOutcomes tds results) (.report res)
  | [], out, res, hres => by
    cases hres
    exact .cons (fun s => ⟨_, rfl⟩) leads_nil
  | rs :: results, out, res, hres => by
    have hone : ∀ pc ∈ (tableOf tds rs).next out, Leads r (.dbresults out) (rs.outcomes tds) pc :=
      leads_resultSet out
    rw [tablesOf] at hres
    rw [resultsOutcomes]
    cases htable : tableOf tds rs with
    | done table =>
      rw [htable] at hres hone
      exact .append (hone _ rfl) (leads_results results (out ++ [table]) res hres)
    | failure =>
      rw [htable] at hres hone
      cases hres
      exact .append (hone _ rfl) leads_nil
    | exception =>
      rw [htable] at hres
      cases hres

theorem leads_reply {reply : Reply} {res : Option Tables}
    (hres : (reported tds reply).results = some res) :
    Leads r .dbcmd (reply.outcomes tds) (.report res) := by
  rw [reported] at hres
  unfold Reply.outcomes
  cases hexec : reply.dbsqlexec with
  | false =>
    rw [hexec] at hres
    cases hres
    exact .cons (fun s => ⟨_, rfl⟩) (.cons (fun s => ⟨_, rfl⟩) leads_nil)
  | true =>
    rw [hexec] at hres
    exact .cons (fun s => ⟨_, rfl⟩)
      (.cons (fun s => ⟨_, rfl⟩) (leads_results reply.results [] res hres))

end

/-- A table with a NULL, then one whose second row does not fit the buffer. -/
def endedEarly : Reply where
  dbsqlexec := true
  results :=
    [⟨true, true, [⟨[105, 100], 56, 4, true, true, true⟩, ⟨[110], SYBCHAR, 3, true, true, true⟩],
      [.regRow [some [49], some [66, 111, 98]] rfl, .regRow [some [50], none] rfl]⟩,
     ⟨true, true, [⟨[110], SYBCHAR, 3, true, true, true⟩], [.regRow [some [82]] rfl, .bufFull]⟩]

end

end MysqlConnection.L2.Client
