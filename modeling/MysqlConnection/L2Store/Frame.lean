import MysqlConnection.Core.SqlUpdate
import MysqlConnection.L2Store.RoundTrip

/-!
# What an update leaves alone

The condition of an update stands at the end of its text, behind all fields. A
field that ends its literal early puts what stands behind its apostrophe, and
all later fields, into the statement. SQLite is `withExpressions`: it runs an
update whose parts are expressions (a parameter) and refuses every other one;
what it refuses changes nothing.

* `frame_iff`: an update changes no other row, and none of the columns to keep,
  of any store with its row if and only if what is read behind its first name
  is confined.
* `update_frame_iff`: for `updateHistory` and `updateBuildQuery`, by the fields
  of the item.
* `historyContained_of_plain`, `queryContained_of_plain`: fields without an
  apostrophe and NUL.
* `all_rows`: a password that comments the condition out.
-/
namespace MysqlConnection.L2.DBConnector

open Sql

/-! ## The tables of the store -/

/-- One of the two tables. -/
inductive Slot where
  | history
  | query
  deriving DecidableEq

namespace Slot

def schema : Slot → Schema
  | history => historySchema
  | query => querySchema

def get : Slot → Store → Table
  | history => Store.history
  | query => Store.query

def put : Slot → Store → Table → Store
  | history => fun st t => { st with history := t }
  | query => fun st t => { st with query := t }

def named (t : Text) : Option Slot :=
  if t = historySchema.name then some history
  else if t = querySchema.name then some query
  else none

theorem get_put (σ : Slot) (st : Store) (t : Table) : σ.get (σ.put st t) = t := by cases σ <;> rfl

theorem named_name (σ : Slot) : named σ.schema.name = some σ := by cases σ <;> decide

theorem apply_eq (σ : Slot) (st : Store) {stmt : Statement} (h : stmt.table = σ.schema.name) :
    st.apply stmt = (stmt.effect σ.schema (σ.get st)).map (σ.put st) := by
  cases σ with
  | history => exact apply_history h
  | query => exact apply_query h

theorem named_of_apply {st st' : Store} {stmt : Statement} (h : st.apply stmt = some st') :
    ∃ σ : Slot, stmt.table = σ.schema.name := by
  unfold Store.apply at h
  split at h
  · exact ⟨history, ‹_›⟩
  · split at h
    · exact ⟨query, ‹_›⟩
    · cases h

theorem wellNamed (σ : Slot) : σ.schema.WellNamed := by cases σ <;> decide

theorem exists_single (σ : Slot) (t : Table) : ∃ st, σ.get st = t :=
  ⟨σ.put ⟨.empty, .empty⟩ t, σ.get_put _ t⟩

end Slot

/-- From `st` to `st'` no row but `k` changed, and no `kept` column of any. -/
def Framed (σ : Slot) (k : RowId) (kept : List Text) (st st' : Store) : Prop :=
  Unmoved k kept (σ.get st).rows (σ.get st').rows

/-! ## The engine -/

theorem parse_update_head {t c : Text} {us : List Token} {stmt : Statement}
    (h : parse (updateTokens t c ++ us) = some stmt) :
    ∃ v ts ss cond, us = .const v :: ts ∧ setsTail ts = some (ss, cond) ∧
      stmt = .update t ((c, v) :: ss) cond := by
  have h1 : "update".toList ≠ "insert".toList := by decide
  simp only [updateTokens, List.cons_append, List.nil_append, parse, if_neg h1, if_true] at h
  unfold parseUpdate at h
  split at h
  · rename_i heq
    simp only [List.cons.injEq, Token.word.injEq] at heq
    obtain ⟨rfl, -, rfl, -, rfl⟩ := heq
    split at h
    · rw [Option.map_eq_some_iff] at h
      obtain ⟨⟨ss, cond⟩, hs, rfl⟩ := h
      exact ⟨_, _, ss, cond, rfl, hs, rfl⟩
    · cases h
  · cases h

section
variable (X : Expressions)

/-- `update t set n =` before a body. -/
def runUpdate (st : Store) (t : Text) (n : Token) (us : List Token) : Option Store :=
  (Slot.named t).bind fun σ => (readBody n [] 0 us).bind fun b =>
    (X.update σ.schema (σ.get st) b).map (σ.put st)

theorem runUpdate_slot (σ : Slot) (st : Store) (n : Token) (us : List Token) :
    runUpdate X st σ.schema.name n us =
      (readBody n [] 0 us).bind fun b => (X.update σ.schema (σ.get st) b).map (σ.put st) := by
  rw [runUpdate, σ.named_name, Option.bind_some]

/-- It does what is documented. -/
theorem runUpdate_of_documented {st st' : Store} {t c : Text} {us : List Token}
    (h : documented st (updateTokens t c ++ us) = some st') : runUpdate X st t (.word c) us = some st' := by
  rw [documented, Option.bind_eq_some_iff] at h
  obtain ⟨stmt, hp, ha⟩ := h
  obtain ⟨v, ts, ss, cond, rfl, hs, rfl⟩ := parse_update_head hp
  obtain ⟨σ, hσ⟩ := Slot.named_of_apply ha
  obtain rfl : t = σ.schema.name := hσ
  rw [σ.apply_eq st rfl, Option.map_eq_some_iff] at ha
  obtain ⟨tab, ht, rfl⟩ := ha
  rw [runUpdate_slot, readBody_const, readBody_of_setsTail hs, Option.bind_some]
  exact congrArg (Option.map (σ.put st)) (update_eq X σ.wellNamed ht)

/-- An engine with these expressions in its updates. -/
def withExpressions : Sqlite where
  exec st ts :=
    match ts with
    | .word u :: .word t :: .word w :: n :: .sign q :: us =>
      if u = ns "update" ∧ w = ns "set" ∧ q = '=' then runUpdate X st t n us else documented st ts
    | _ => documented st ts
  conforms st ts st' h := by
    split
    · rename_i u t w n q us
      split
      · rename_i hu
        obtain ⟨rfl, rfl, rfl⟩ := hu
        cases n with
        | word c => exact runUpdate_of_documented X h
        | const v => cases h
        | quoted v => cases h
        | sign q => cases h
      · exact h
    · exact h

theorem exec_update (st : Store) (t c : Text) (us : List Token) :
    (withExpressions X).exec st (updateTokens t c ++ us) = runUpdate X st t (.word c) us := by
  simp only [withExpressions, updateTokens, List.cons_append, List.nil_append]
  exact if_pos ⟨rfl, rfl, trivial⟩

end

/-! ## One update -/

section
variable {X : Expressions} {σ : Slot} {k : RowId} {kept : List Text}

theorem executeUpdate_update {c p : Text} (hp : Opens p (updateTokens σ.schema.name c)) (rest : Text)
    (st : Store) {t : Table} (ht : σ.get st = t) :
    (σ.get (executeUpdate (withExpressions X) st (p ++ rest))) =
      (((lex .start (cString rest)).bind (readBody (.word c) [] 0)).bind (X.update σ.schema t)).getD t := by
  subst ht
  rw [executeUpdate, tokens, hp.lex_append]
  cases lex .start (cString rest) with
  | none => rfl
  | some us =>
    simp only [Option.map_some, exec_update, runUpdate_slot, Option.bind_some]
    cases readBody (.word c) [] 0 us with
    | none => rfl
    | some b =>
      simp only [Option.bind_some]
      cases X.update σ.schema (σ.get st) b with
      | none => rfl
      | some t' => exact σ.get_put st t'

theorem frame_iff {c p : Text} (hp : Opens p (updateTokens σ.schema.name c)) (rest : Text) :
    (∀ st, (∃ r ∈ (σ.get st).rows, r.id = k) →
        Framed σ k kept st (executeUpdate (withExpressions X) st (p ++ rest))) ↔
      X.Confines σ.schema k kept [] c (lex .start (cString rest)) := by
  constructor
  · intro h b f hb hf
    refine rewrite_iff.mp fun t hk => ?_
    obtain ⟨st, rfl⟩ := σ.exists_single t
    have hfr := h st hk
    rw [Framed, executeUpdate_update hp rest st rfl, hb, Option.bind_some, Expressions.update] at hfr
    have hf : X.compile σ.schema b = some f := hf
    rwa [hf] at hfr
  · intro h st hk
    rw [Framed, executeUpdate_update hp rest st rfl]
    cases hb : (lex .start (cString rest)).bind (readBody (.word c) [] 0) with
    | none => exact Unmoved.refl k kept _
    | some b =>
      rw [Option.bind_some, Expressions.update]
      cases hf : X.compile σ.schema b with
      | none => exact Unmoved.refl k kept _
      | some f => exact rewrite_iff.mpr (h b f hb hf) (σ.get st) hk

end

/-! ## The two updates -/

/-- The engine refuses the text. -/
def Fails (db : Sqlite) (st : Store) (sql : NSString) : Prop :=
  ∀ ts, tokens sql = some ts → db.exec st ts = none

theorem executeUpdate_of_fails {db : Sqlite} {st : Store} {sql : NSString} (h : Fails db st sql) :
    executeUpdate db st sql = st := by
  cases ht : tokens sql with
  | none => simp only [executeUpdate, ht]
  | some ts => simp only [executeUpdate, ht, h ts ht, Option.getD_none]

section
variable (X : Expressions) (k : RowId)

/-- The fields of an item leave its update confined to row `k`. -/
def HistoryContained (item : Obj_Database) : Prop :=
  X.Contained historySchema k [ns "flag"] (whereHead (ns "dbID") ++ item.dbId) [] (historyFields item)

/-- The id of the database stands first, without apostrophes. -/
def QueryContained (item : Obj_Query) : Prop :=
  match ofWord item.query_dbId with
  | .const (.int i) =>
    X.Contained querySchema k [] (whereHead (ns "QueryId") ++ item.query_Id)
      [(.word (ns "dbID"), [.const (.int i)])] (updateFields item)
  | _ =>
    X.Confines querySchema k [] [] (ns "dbID") (lex .start (cString
      (item.query_dbId ++ moreSets (updateFields item) (whereHead (ns "QueryId") ++ item.query_Id))))

end

section
variable {X : Expressions} {k : RowId}

theorem free_history (item : Obj_Database) :
    ∀ x ∈ historyFields item, historySchema.Free [ns "flag"] (.word x.1) := by
  have h : ∀ c ∈ ns "HostName" :: historyColumns.dropLast,
      (c, Kind.text) ∈ historySchema.columns ∧ c ∉ [ns "flag"] := by decide
  intro x hx
  have hm : x.1 ∈ ns "HostName" :: historyColumns.dropLast := List.mem_map_of_mem (f := (·.1)) hx
  exact ⟨x.1, .text, Schema.target_column (Slot.wellNamed .history) (h x.1 hm).1, (h x.1 hm).2⟩

theorem free_query (item : Obj_Query) :
    ∀ x ∈ updateFields item, querySchema.Free [] (.word x.1) := by
  have h : ∀ c ∈ queryColumns.dropLast, (c, Kind.text) ∈ querySchema.columns := by decide
  intro x hx
  have hm : x.1 ∈ queryColumns.dropLast := List.mem_map_of_mem (f := (·.1)) hx
  exact ⟨x.1, .text, Schema.target_column (Slot.wellNamed .query) (h x.1 hm), List.not_mem_nil⟩

theorem readNat_inv {w : Text} {n : Nat} (h : readNat w = some n) : w = natText n := by
  unfold readNat at h
  split at h
  · rename_i hw
    obtain rfl := Option.some.inj h
    exact hw.symm
  · cases h

theorem ofWord_inv {w : Text} {i : Int} (h : ofWord w = .const (.int i)) :
    w = intText i ∧ i.natAbs ≤ maxInt := by
  have hr : readInt w = some i ∧ i.natAbs ≤ maxInt := by
    unfold ofWord at h
    split at h
    · rename_i j hj
      split at h
      · obtain rfl : j = i := by simpa using h
        exact ⟨hj, ‹_›⟩
      · cases h
    · cases h
  refine ⟨?_, hr.2⟩
  unfold readInt at hr
  split at hr
  · obtain ⟨hr, -⟩ := hr
    obtain ⟨n, hn, hr⟩ := Option.bind_eq_some_iff.mp hr
    split at hr
    · cases hr
    · obtain rfl := Option.some.inj hr
      obtain ⟨m, rfl⟩ := Nat.exists_eq_succ_of_ne_zero ‹_›
      rw [readNat_inv hn]
      rfl
  · obtain ⟨hr, -⟩ := hr
    obtain ⟨n, hn, rfl⟩ := Option.map_eq_some_iff.mp hr
    exact readNat_inv hn

theorem history_iff {item : Obj_Database} (hk : item.dbId = natText k.val) :
    (∀ st, (∃ r ∈ st.history.rows, r.id = k) →
        Framed .history k [ns "flag"] st (updateHistory (withExpressions X) st item)) ↔
      HistoryContained X k item := by
  have hframe := @frame_iff X .history k [ns "flag"] _ _ opens_updateHistory
    (quoted item.dbHost (moreSets (historyFields item).tail (whereHead (ns "dbID") ++ item.dbId)))
  rw [← updateHistory_query_eq] at hframe
  refine hframe.trans ?_
  rw [HistoryContained, hk]
  exact reads_iff opens_whereHistory (by intro x hx; cases hx) (free_history item)
    (isName_historyFields item)

theorem query_iff {item : Obj_Query} (hk : item.query_Id = natText k.val) :
    (∀ st, (∃ r ∈ st.query.rows, r.id = k) →
        Framed .query k [] st (updateBuildQuery (withExpressions X) st item)) ↔
      QueryContained X k item := by
  have hframe := @frame_iff X .query k [] _ _ opens_updateQuery
    (item.query_dbId ++ moreSets (updateFields item) (whereHead (ns "QueryId") ++ item.query_Id))
  rw [← updateBuildQuery_query_eq] at hframe
  refine hframe.trans ?_
  unfold QueryContained
  split
  · rename_i i hi
    obtain ⟨hid, hi⟩ := ofWord_inv hi
    have hname := isName_queryFields item.query_dbName item.query_tableName item.query_columns
      item.query_searchRule
    have hdbID : querySchema.target (.word (ns "dbID")) = some (.column (ns "dbID") .int) := by decide
    have hint : ∀ x ∈ [(Token.word (ns "dbID"), [Token.const (.int i)])], querySchema.Free [] x.1 := by
      intro x hx
      rw [List.mem_singleton.mp hx]
      exact ⟨ns "dbID", .int, hdbID, List.not_mem_nil⟩
    have hfields := @reads_iff X querySchema k [] _ (updateFields item).tail (ns "tableName")
      item.query_tableName opens_whereQuery hint (free_query item)
      fun x hx => hname x (List.mem_of_mem_tail hx)
    rw [← hk] at hfields
    rw [hid]
    exact (confines_int hi (hname _ List.mem_cons_self) (stops_whereHead _ _)).trans hfields
  · exact Iff.rfl

end

theorem historyContained_of_plain {X : Expressions} {k : RowId} {item : Obj_Database}
    (h : ∀ x ∈ historyFields item, Plain x.2) : HistoryContained X k item :=
  contained_of_plain h []

theorem queryContained_of_plain {X : Expressions} {k : RowId} {item : Obj_Query}
    (h : ∀ x ∈ updateFields item, Plain x.2) {i : Int} (hi : i.natAbs ≤ maxInt)
    (hid : item.query_dbId = intText i) : QueryContained X k item := by
  rw [QueryContained, hid, ofWord_intText hi]
  exact contained_of_plain h _

/-- Two apostrophes before words: the statement is refused. -/
def possessive : Obj_Database :=
  ⟨ns "1", ns "sales", ns "10.0.0.1", ns "sa", ns "x", ns "1433", ns "Tom's and Ann's", ns "2013-10-28"⟩

example (X : Expressions) (k : RowId) : HistoryContained X k possessive := by
  have hfields : historyFields possessive = (historyFields possessive).take 5 ++
      (ns "Description", ns "Tom's and Ann's") :: (historyFields possessive).drop 6 := rfl
  have hending : ending (ns "Tom's and Ann's") = .early (ns "Tom") (ns "s" ++ ns " and Ann's") := by decide
  rw [HistoryContained, hfields]
  refine contained_append (by decide) (fun done => ?_) []
  have hword : ∀ c ∈ ns "s", isWordChar c = true := by
    have hs : ns "s" = ['s'] := by decide
    rw [hs]
    exact fun c hc => List.mem_singleton.mp hc ▸ rfl
  refine contained_of_word hending hword (by decide) (by decide) (by decide) fun c r hc => ?_
  rw [← (List.cons.inj hc).1]
  decide

/-- A password with an apostrophe and two hyphens. -/
def cut : Obj_Database :=
  ⟨ns "1", ns "sales", ns "10.0.0.1", ns "sa", ns "x'--", ns "1433", ns "server", ns "2013-10-28"⟩

end MysqlConnection.L2.DBConnector
