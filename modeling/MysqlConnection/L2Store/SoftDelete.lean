import MysqlConnection.L2Store.Frame

/-!
# Soft delete and restore

`DeleteFromHistory` and `AddToHistory` on records read from the store. Each is
an update of the flag of one row, whose id went through the record as a text;
the two readers share the rows out by their flag.

* `executeUpdate_flag`: one operation writes the flag of its row and nothing
  else.
* `run_rows`: after any operations each row is the original one, with the flag
  of the last operation on it (`lastFlag`).
* `shared_out`: no record is lost, doubled or changed, the last operation on a
  record decides who returns it, and the order of operations on different
  records does not matter.
-/
namespace MysqlConnection.L2.DBConnector

open Sql

/-- An operation on a record. -/
inductive FlagOp where
  | AddToHistory (item : Obj_Database)
  | DeleteFromHistory (item : Obj_Database)
  deriving DecidableEq, Repr

namespace FlagOp

def item : FlagOp → Obj_Database
  | .AddToHistory item => item
  | .DeleteFromHistory item => item

/-- The flag it writes. -/
def flag : FlagOp → Int
  | .AddToHistory _ => 1
  | .DeleteFromHistory _ => 0

def apply (db : Sqlite) (st : Store) : FlagOp → Store
  | .AddToHistory item => DBConnector.AddToHistory db st item
  | .DeleteFromHistory item => DBConnector.DeleteFromHistory db st item

end FlagOp

def run (db : Sqlite) : Store → List FlagOp → Store
  | st, [] => st
  | st, op :: ops => run db (op.apply db st) ops

/-- What the two readers return. -/
def readers (st : Store) : List Obj_Database := getHistoryArray st ++ getDeletedArray st

/-- The item of each operation was read by then; `seen` are the records read
before. -/
def FromReaders (db : Sqlite) : List Obj_Database → Store → List FlagOp → Prop
  | _, _, [] => True
  | seen, st, op :: ops =>
    op.item ∈ seen ++ readers st ∧ FromReaders db (seen ++ readers st) (op.apply db st) ops

/-- The flag of a record after the operations: that of the last one on it. -/
def lastFlag (ops : List FlagOp) (dbId : NSString) (flag : Int) : Int :=
  ops.foldl (fun f op => if op.item.dbId = dbId then op.flag else f) flag

/-- A History table that was never written by anything else. -/
def Flags (st : Store) : Prop :=
  ∀ r ∈ st.history.rows, r.int (ns "flag") = 1 ∨ r.int (ns "flag") = 0

/-! ## One operation -/

def flagCells (flag : Int) : Assignments := [(ns "flag", .int flag)]

/-- `update History set flag = f where dbID = ` -/
def flagTokens (flag : Int) : List Token :=
  updateTokens (ns "History") (ns "flag") ++
    [.const (.int flag), .word (ns "where"), .word (ns "dbID"), .sign '=']

theorem opens_AddToHistory :
    Opens (ns "update History set flag = 1 where dbID = ") (flagTokens 1) := by
  decide +kernel

theorem opens_DeleteFromHistory :
    Opens (ns "update History set flag = 0 where dbID = ") (flagTokens 0) := by
  decide +kernel

theorem read_flag {p : NSString} {flag : Int} (hp : Opens p (flagTokens flag)) (k : RowId) :
    readStatement (p ++ natText k.val) =
      some (.update (ns "History") (flagCells flag) (some (ns "dbID", .int k.val))) := by
  rw [readStatement, tokens, hp.lex_append, ← intText_natCast, lex_int_end,
    ofWord_intText k.natAbs_le, Option.map_some, Option.bind_some, flagTokens, List.append_assoc]
  rw [List.cons_append, parse_update]
  simp [setsTail, condition, flagCells, ns]

theorem assigns_flag (flag : Int) : historySchema.Assigns (flagCells flag) := by
  refine ⟨List.nodup_singleton _, ?_⟩
  intro x hx
  rw [flagCells, List.mem_singleton] at hx
  subst hx
  show (ns "flag", Kind.int) ∈ historySchema.columns
  decide

/-- One operation writes the flag of its row. -/
theorem executeUpdate_flag (db : Sqlite) (st : Store) {p : NSString} {flag : Int}
    (hp : Opens p (flagTokens flag)) (k : RowId) :
    ∃ t, executeUpdate db st (p ++ natText k.val) = { st with history := t } ∧
      t.rows = st.history.rows.map fun r => if r.id = k then assign (flagCells flag) r else r := by
  have hsel : historySchema.Selects (some (ns "dbID", .int k.val)) := rfl
  obtain ⟨t, ht⟩ := update_isSome (assigns_flag flag) hsel st.history
  refine ⟨t, ?_, ?_⟩
  · apply executeUpdate_of_read db (read_flag hp k)
    rw [apply_history rfl, Statement.effect, ht, Option.map_some]
  · rw [(update_inv ht).2.2]
    apply List.map_congr_left
    intro r _
    by_cases hr : r.id = k
    · rw [if_pos hr, if_pos (by rw [hit, hr]; exact decide_eq_true rfl)]
    · have hne : ¬ (r.id.val : Int) = k.val := fun h => hr (RowId.eq_of_natCast h)
      rw [if_neg hr, if_neg (by rw [hit]; simpa using hne)]

theorem apply_flag (db : Sqlite) (st : Store) (op : FlagOp) {k : RowId}
    (hk : op.item.dbId = natText k.val) :
    ∃ t, op.apply db st = { st with history := t } ∧
      t.rows = st.history.rows.map fun r => if r.id = k then assign (flagCells op.flag) r else r := by
  cases op with
  | AddToHistory item =>
    have hk : item.dbId = natText k.val := hk
    rw [FlagOp.apply, AddToHistory, hk]
    exact executeUpdate_flag db st opens_AddToHistory k
  | DeleteFromHistory item =>
    have hk : item.dbId = natText k.val := hk
    rw [FlagOp.apply, DeleteFromHistory, hk]
    exact executeUpdate_flag db st opens_DeleteFromHistory k

/-! ## All operations -/

/-- Each operation has an id as the readers return it. -/
def Addressed (ops : List FlagOp) : Prop := ∀ op ∈ ops, ∃ k : RowId, op.item.dbId = natText k.val

theorem exists_id_of_readers {st : Store} {item : Obj_Database} (h : item ∈ readers st) :
    ∃ k : RowId, item.dbId = natText k.val := by
  rcases List.mem_append.mp h with h | h
  · obtain ⟨r, -, rfl⟩ := List.mem_map.mp h
    exact ⟨r.id, rfl⟩
  · obtain ⟨r, -, rfl⟩ := List.mem_map.mp h
    exact ⟨r.id, rfl⟩

theorem addressed_of_fromReaders {db : Sqlite} {seen : List Obj_Database} {st : Store}
    {ops : List FlagOp} (hseen : ∀ item ∈ seen, ∃ k : RowId, item.dbId = natText k.val)
    (h : FromReaders db seen st ops) : Addressed ops := by
  induction ops generalizing seen st with
  | nil => intro op hop; cases hop
  | cons op ops ih =>
    obtain ⟨hitem, hrest⟩ := h
    have hread : ∀ item ∈ seen ++ readers st, ∃ k : RowId, item.dbId = natText k.val := by
      intro item hi
      rcases List.mem_append.mp hi with hi | hi
      · exact hseen item hi
      · exact exists_id_of_readers hi
    intro op' hop'
    rcases List.mem_cons.mp hop' with rfl | hop'
    · exact hread _ hitem
    · exact ih hread hrest op' hop'

theorem natText_injective {m n : Nat} (h : natText m = natText n) : m = n := by
  have hm := readNat_natText m
  rw [h, readNat_natText] at hm
  exact (Option.some.inj hm).symm

theorem natText_id_iff {i k : RowId} : natText k.val = natText i.val ↔ i = k := by
  constructor
  · intro h
    exact RowId.eq_of_natCast (by rw [natText_injective h])
  · intro h; rw [h]

/-- A row after the operations. -/
def reflag (ops : List FlagOp) (r : Row) : Row :=
  ops.foldl (fun r op => if op.item.dbId = natText r.id.val then assign (flagCells op.flag) r else r) r

theorem run_rows (db : Sqlite) {st : Store} {ops : List FlagOp} (h : Addressed ops) :
    (run db st ops).history.rows = st.history.rows.map (reflag ops) := by
  induction ops generalizing st with
  | nil => exact (List.map_id' _).symm
  | cons op ops ih =>
    obtain ⟨k, hk⟩ := h op List.mem_cons_self
    obtain ⟨t, hst, hrows⟩ := apply_flag db st op hk
    rw [run, ih fun op hop => h op (List.mem_cons_of_mem _ hop), hst]
    show t.rows.map (reflag ops) = _
    rw [hrows, List.map_map]
    apply List.map_congr_left
    intro r _
    have hsame : op.item.dbId = natText r.id.val ↔ r.id = k := by rw [hk, natText_id_iff]
    simp only [Function.comp_apply, reflag, List.foldl_cons, hsame]

theorem readDatabase_assign_flag (flag : Int) (r : Row) :
    readDatabase (assign (flagCells flag) r) = readDatabase r := by
  have htext : ∀ c, (assign (flagCells flag) r).text c = r.text c := by
    intro c
    by_cases hc : c = ns "flag"
    · subst hc
      simp [assign, flagCells]
    · refine (assign_of_not_mem ?_ r).1
      simpa [flagCells] using hc
  simp only [readDatabase, htext]
  rfl

theorem int_assign_flag (flag : Int) (r : Row) :
    (assign (flagCells flag) r).int (ns "flag") = flag :=
  int_assign (assigns_flag flag).1 (List.mem_singleton_self _) r

theorem reflag_spec (ops : List FlagOp) (r : Row) :
    readDatabase (reflag ops r) = readDatabase r ∧
      (reflag ops r).int (ns "flag") = lastFlag ops (natText r.id.val) (r.int (ns "flag")) := by
  induction ops generalizing r with
  | nil => exact ⟨rfl, rfl⟩
  | cons op ops ih =>
    simp only [reflag, lastFlag, List.foldl_cons]
    by_cases hop : op.item.dbId = natText r.id.val
    · rw [if_pos hop, if_pos hop]
      have hih := ih (assign (flagCells op.flag) r)
      rw [readDatabase_assign_flag, int_assign_flag] at hih
      exact hih
    · rw [if_neg hop, if_neg hop]
      exact ih r

/-- What a reader returns after the operations. -/
theorem flagged_run (db : Sqlite) {st : Store} {ops : List FlagOp} (h : Addressed ops) (flag : Int) :
    (flagged (run db st ops) flag).map readDatabase =
      (st.history.rows.filter fun r =>
        lastFlag ops (natText r.id.val) (r.int (ns "flag")) = flag).map readDatabase := by
  rw [flagged, run_rows db h, List.filter_map, List.map_map]
  have hfilter : ((fun r : Row => decide (r.int (ns "flag") = flag)) ∘ reflag ops) =
      fun r => decide (lastFlag ops (natText r.id.val) (r.int (ns "flag")) = flag) := by
    funext r
    simp only [Function.comp_apply, (reflag_spec ops r).2]
  rw [hfilter]
  apply List.map_congr_left
  intro r _
  exact (reflag_spec ops r).1

theorem lastFlag_cases (ops : List FlagOp) (dbId : NSString) {flag : Int} (h : flag = 1 ∨ flag = 0) :
    lastFlag ops dbId flag = 1 ∨ lastFlag ops dbId flag = 0 := by
  induction ops generalizing flag with
  | nil => exact h
  | cons op ops ih =>
    rw [lastFlag, List.foldl_cons]
    apply ih
    split
    · cases op with
      | AddToHistory item => exact Or.inl rfl
      | DeleteFromHistory item => exact Or.inr rfl
    · exact h

/-- Only the operations on a record count, in their order. -/
theorem lastFlag_filter (ops : List FlagOp) (dbId : NSString) (flag : Int) :
    lastFlag (ops.filter fun op => op.item.dbId = dbId) dbId flag = lastFlag ops dbId flag := by
  induction ops generalizing flag with
  | nil => rfl
  | cons op ops ih =>
    by_cases hop : op.item.dbId = dbId
    · rw [List.filter_cons_of_pos (by simpa using hop)]
      simp only [lastFlag, List.foldl_cons, if_pos hop]
      exact ih op.flag
    · rw [List.filter_cons_of_neg (by simpa using hop), ih]
      simp only [lastFlag, List.foldl_cons, if_neg hop]

/-! ## Nothing is lost -/

/-- `st'` has the records of `st`, once each, at the reader of their last
operation. -/
structure SharedOut (st : Store) (ops : List FlagOp) (st' : Store) : Prop where
  records : (readers st').Perm (st.history.rows.map readDatabase)
  once : (readers st').Nodup
  history : ∀ r ∈ st.history.rows, readDatabase r ∈ getHistoryArray st' ↔
    lastFlag ops (natText r.id.val) (r.int (ns "flag")) = 1
  deleted : ∀ r ∈ st.history.rows, readDatabase r ∈ getDeletedArray st' ↔
    lastFlag ops (natText r.id.val) (r.int (ns "flag")) = 0

theorem nodup_readDatabase (t : Table) : (t.rows.map readDatabase).Nodup := by
  have hids : ((t.rows.map readDatabase).map (·.dbId)).Nodup := by
    have h : (t.rows.map readDatabase).map (·.dbId) = (t.rows.map (·.id)).map fun i => natText i.val := by
      rw [List.map_map, List.map_map]
      rfl
    rw [h]
    exact t.nodup.map fun i j hij => (natText_id_iff.mp hij).symm
  exact hids.of_map _

/-- A record is returned by the reader that its own row is chosen for. -/
theorem mem_map_readDatabase {t : Table} {r : Row} (hr : r ∈ t.rows) (p : Row → Bool) :
    readDatabase r ∈ (t.rows.filter p).map readDatabase ↔ p r = true := by
  constructor
  · intro h
    obtain ⟨x, hx, heq⟩ := List.mem_map.mp h
    obtain ⟨hxt, hp⟩ := List.mem_filter.mp hx
    have hid : x.id = r.id := (natText_id_iff.mp (congrArg (·.dbId) heq).symm).symm ▸ rfl
    rw [← List.inj_on_of_nodup_map t.nodup hxt hr hid]
    exact hp
  · intro h
    exact List.mem_map_of_mem (List.mem_filter.mpr ⟨hr, h⟩)

theorem sharedOut_run (db : Sqlite) {st : Store} (hflags : Flags st) {ops : List FlagOp}
    (h : Addressed ops) : SharedOut st ops (run db st ops) := by
  have hperm : (readers (run db st ops)).Perm (st.history.rows.map readDatabase) := by
    rw [readers, getHistoryArray, getDeletedArray, flagged_run db h, flagged_run db h, ← List.map_append]
    apply List.Perm.map
    have hzero : (st.history.rows.filter fun r =>
          lastFlag ops (natText r.id.val) (r.int (ns "flag")) = 0) =
        st.history.rows.filter fun r =>
          !decide (lastFlag ops (natText r.id.val) (r.int (ns "flag")) = 1) := by
      apply List.filter_congr
      intro r hr
      rcases lastFlag_cases ops (natText r.id.val) (hflags r hr) with h1 | h0
      · rw [h1]; rfl
      · rw [h0]; rfl
    rw [hzero]
    exact List.filter_append_perm _ _
  refine ⟨hperm, hperm.nodup_iff.mpr (nodup_readDatabase st.history), ?_, ?_⟩
  · intro r hr
    rw [getHistoryArray, flagged_run db h, mem_map_readDatabase hr, decide_eq_true_eq]
  · intro r hr
    rw [getDeletedArray, flagged_run db h, mem_map_readDatabase hr, decide_eq_true_eq]

/-- **Soft delete loses nothing.** After any operations on records that were
read, each record is returned once and as it was, by the reader that the last
operation on it says; and the order of operations on different records makes
no difference. -/
theorem shared_out (db : Sqlite) {st : Store} (hflags : Flags st) {ops : List FlagOp}
    (h : FromReaders db [] st ops) :
    SharedOut st ops (run db st ops) ∧
      ∀ ops' : List FlagOp,
        (∀ dbId, (ops'.filter fun op => op.item.dbId = dbId) =
          ops.filter fun op => op.item.dbId = dbId) →
        getHistoryArray (run db st ops') = getHistoryArray (run db st ops) ∧
          getDeletedArray (run db st ops') = getDeletedArray (run db st ops) := by
  have haddr : Addressed ops := addressed_of_fromReaders (by intro item hi; cases hi) h
  refine ⟨sharedOut_run db hflags haddr, ?_⟩
  intro ops' hsame
  have haddr' : Addressed ops' := by
    intro op hop
    have hmem : op ∈ ops'.filter fun x => x.item.dbId = op.item.dbId :=
      List.mem_filter.mpr ⟨hop, decide_eq_true rfl⟩
    rw [hsame] at hmem
    exact haddr op (List.mem_filter.mp hmem).1
  have hlast : ∀ dbId flag, lastFlag ops' dbId flag = lastFlag ops dbId flag := by
    intro dbId flag
    rw [← lastFlag_filter ops', hsame, lastFlag_filter]
  simp only [getHistoryArray, getDeletedArray, flagged_run db haddr', flagged_run db haddr, hlast,
    and_self]

/-- A record whose password has an apostrophe. -/
def quotedRow (i : RowId) (flag : Int) : Row where
  id := i
  text c := if c = ns "Password" then ns "x'y" else []
  int _ := flag

def rowId (n : Nat) (h : 0 < n ∧ n ≤ maxInt) : RowId := ⟨n, h.1, h.2⟩

/-- Two records, the second one deleted. -/
def twoRecords : Store where
  history := pair (quotedRow (rowId 1 (by decide)) 1) (quotedRow (rowId 2 (by decide)) 0) (by decide)
  query := .empty

theorem flags_twoRecords : Flags twoRecords := by
  intro r hr
  rcases List.mem_cons.mp hr with rfl | hr
  · exact Or.inl rfl
  · rw [List.mem_singleton.mp hr]
    exact Or.inr rfl

/-- The first record is deleted, the second one restored and deleted again. -/
theorem shared_out_twoRecords : ∃ ops, ops.length = 3 ∧ SharedOut twoRecords ops (run strict twoRecords ops) := by
  let first : Obj_Database := ⟨ns "1", [], [], [], ns "x'y", [], [], []⟩
  let second : Obj_Database := ⟨ns "2", [], [], [], ns "x'y", [], [], []⟩
  refine ⟨[.DeleteFromHistory first, .AddToHistory second, .DeleteFromHistory second], rfl, ?_⟩
  refine (shared_out strict flags_twoRecords ?_).1
  exact ⟨by decide +kernel, by decide +kernel, by decide +kernel, trivial⟩

end MysqlConnection.L2.DBConnector
