import MysqlConnection.Core.LTS
import MysqlConnection.L2Store.SoftDelete

/-!
# Labels of saved queries

`insertBuildQuery` copies the name of a database into two columns of the
`Query` table, `DBName` and (in the label on the main screen) `ShowName`.
`updateHistory` writes the original, `updateBuildQuery` one of the copies.

* `…_cases`: what a writer does to the rows, for texts without apostrophes.
* `Labelled`: each query names its database as the database is named now.
* `labelled_of_keepsNames`: it holds in every run in which a database with
  saved queries is not renamed and the ids of databases fit an `int`.
  `updateHistory` forgets the copies (`renamed`).
-/
namespace MysqlConnection.L2.DBConnector

open Sql

/-- No insertion after the largest id was used: the engine answers "full". -/
def RefusesFull (db : Sqlite) : Prop :=
  ∀ st ts table columns values, parse ts = some (.insert table columns values) →
    (table = historySchema.name → ¬ st.history.seq < maxInt → db.exec st ts = none) ∧
    (table = querySchema.name → ¬ st.query.seq < maxInt → db.exec st ts = none)

theorem refusesFull_strict : RefusesFull strict := by
  intro st ts table columns values hp
  refine ⟨?_, ?_⟩
  · rintro rfl hfull
    have hnone : st.history.insert historySchema columns values = none := by
      unfold Table.insert
      exact dif_neg fun h => hfull h.2.2
    show documented st ts = none
    rw [documented, hp, Option.bind_some, apply_history rfl, Statement.effect, hnone, Option.map_none]
  · rintro rfl hfull
    have hnone : st.query.insert querySchema columns values = none := by
      unfold Table.insert
      exact dif_neg fun h => hfull h.2.2
    show documented st ts = none
    rw [documented, hp, Option.bind_some, apply_query rfl, Statement.effect, hnone, Option.map_none]

/-! ## What the writers do to the rows -/

/-- Texts that may hold a NUL, but no apostrophe. -/
def Quoteless (texts : List NSString) : Prop := ∀ f ∈ texts, '\'' ∉ f

instance : DecidablePred Quoteless := fun texts => by unfold Quoteless; exact inferInstance

theorem executeUpdate_of_tokens {db : Sqlite} {st : Store} {sql : NSString} (h : tokens sql = none) :
    executeUpdate db st sql = st := by
  simp only [executeUpdate, h]

theorem executeUpdate_of_exec {db : Sqlite} {st : Store} {sql : NSString} {stmt : Statement}
    (hr : readStatement sql = some stmt) (h : ∀ ts, parse ts = some stmt → db.exec st ts = none) :
    executeUpdate db st sql = st := by
  rw [readStatement, Option.bind_eq_some_iff] at hr
  obtain ⟨ts, ht, hp⟩ := hr
  simp only [executeUpdate, ht, h ts hp, Option.getD_none]

variable {db : Sqlite} {st : Store}

/-- A first field and the fields after it, with a NUL in one of them. -/
theorem tokens_quoted_none {p f s : NSString} {ts : List Token} (hp : Opens p ts)
    (hs : Follows s) (hq : '\'' ∉ f) (h : Plain f → lex .start (cString s) = none) :
    tokens (p ++ quoted f s) = none := by
  rw [tokens, hp.lex_append]
  by_cases hf : Plain f
  · rw [lex_quoted hf hs, h hf]
    rfl
  · rw [lex_quoted_none hq hf]
    rfl

variable (st) in
theorem insertIntoHistory_cases (hfull : RefusesFull db) {item : Obj_Database}
    (hq : Quoteless ((historyFields item).map (·.2))) :
    insertIntoHistory db st item = st ∨ ∃ t r, insertIntoHistory db st item = { st with history := t } ∧
      t.rows = st.history.rows ++ [r] := by
  by_cases hf : ∀ x ∈ historyFields item, Plain x.2
  · by_cases hs : st.history.seq < maxInt
    · obtain ⟨t, r, hst, hrows⟩ := insertIntoHistory_rows hf hs db
      exact Or.inr ⟨t, _, hst, hrows⟩
    · left
      exact executeUpdate_of_exec (read_insertIntoHistory hf) fun ts hp =>
        (hfull st ts _ _ _ hp).1 rfl hs
  · left
    apply executeUpdate_of_tokens
    have htail : Follows (ns ",1)") := ⟨',', _, rfl, by decide, by decide⟩
    have hrest : Quoteless ((historyFields item).tail.map (·.2)) :=
      fun f hm => hq f (List.mem_cons_of_mem _ hm)
    rw [insertIntoHistory_query_eq]
    refine tokens_quoted_none opens_insertHistory (follows_moreValues htail _)
      (hq _ List.mem_cons_self) ?_
    intro hhost
    refine lex_moreValues_none htail hrest ?_
    intro hall
    apply hf
    intro x hx
    rcases List.mem_cons.mp hx with rfl | hx
    · exact hhost
    · exact hall x.2 (List.mem_map_of_mem hx)

variable (db st) in
theorem updateHistory_cases {item : Obj_Database} (hq : Quoteless ((historyFields item).map (·.2)))
    {k : RowId} (hk : item.dbId = natText k.val) :
    updateHistory db st item = st ∨ ∃ t, updateHistory db st item = { st with history := t } ∧
      t.rows = st.history.rows.map fun r =>
        if hit (some (ns "dbID", .int k.val)) r then assign (literals (historyFields item)) r else r := by
  by_cases hf : ∀ x ∈ historyFields item, Plain x.2
  · exact Or.inr (updateHistory_rows hf hk db st)
  · left
    apply executeUpdate_of_tokens
    have htail := follows_whereHead (ns "dbID") item.dbId
    rw [updateHistory_query_eq]
    refine tokens_quoted_none opens_updateHistory (follows_moreSets htail _)
      (hq _ List.mem_cons_self) ?_
    intro hhost
    refine lex_moreSets_none htail (isName_historyFields item)
      (fun x hx => hq x.2 (List.mem_map_of_mem (List.mem_of_mem_tail hx))) ?_
    intro hall
    apply hf
    intro x hx
    rcases List.mem_cons.mp hx with rfl | hx
    · exact hhost
    · exact hall x hx

/-- `ShowName` is made of the other texts. -/
theorem quoteless_queryFields {dbName tableName columns searchRule : NSString}
    (hq : Quoteless [tableName, columns, searchRule, dbName]) :
    ∀ x ∈ queryFields dbName tableName columns searchRule, '\'' ∉ x.2 := by
  have h1 : '\'' ∉ ns "->" := by decide
  have h2 : '\'' ∉ ns "->Search" := by decide
  simp only [Quoteless, List.forall_mem_cons] at hq
  obtain ⟨ht, hc, hr, hn, -⟩ := hq
  simp only [queryFields, List.forall_mem_cons, showName, List.mem_append, not_or]
  exact ⟨ht, hc, hr, ⟨⟨⟨hn, h1⟩, ht⟩, h2⟩, by simp⟩

variable (st) in
theorem insertBuildQuery_cases (hfull : RefusesFull db) {item : Obj_Database}
    {tableName columns searchRule : NSString}
    (hq : Quoteless [tableName, columns, searchRule, item.dbName]) :
    insertBuildQuery db st item tableName columns searchRule = st ∨
      ∃ t r, insertBuildQuery db st item tableName columns searchRule = { st with query := t } ∧
        t.rows = st.query.rows ++ [assign (queryCells item tableName columns searchRule) r] ∧
        r.id.val = st.query.seq + 1 := by
  by_cases hf : ∀ f ∈ [tableName, columns, searchRule, item.dbName], Plain f
  · by_cases hs : st.query.seq < maxInt
    · exact Or.inr (insertBuildQuery_rows hf hs db)
    · left
      exact executeUpdate_of_exec (read_insertBuildQuery hf) fun ts hp =>
        (hfull st ts _ _ _ hp).2 rfl hs
  · left
    apply executeUpdate_of_tokens
    have hfields := quoteless_queryFields hq
    have hname : '\'' ∉ item.dbName := hq item.dbName (by simp)
    rw [insertBuildQuery_query_eq, tokens, opens_insertQuery.lex_append,
      lex_int _ (stops_moreValues stops_close _), lex_moreValues_none follows_close]
    · rfl
    · intro f hm
      obtain ⟨x, hx, rfl⟩ := List.mem_map.mp hm
      rcases List.mem_append.mp hx with hx | hx
      · exact hfields x hx
      · rw [List.mem_singleton.mp hx]; exact hname
    · intro hall
      apply hf
      rw [← plain_queryFields]
      refine ⟨fun x hx => ?_, ?_⟩
      · exact hall x.2 (List.mem_map_of_mem (List.mem_append_left _ hx))
      · have hmem : (ns "DBName", item.dbName) ∈ queryFields item.dbName tableName columns searchRule ++
            [(ns "DBName", item.dbName)] := List.mem_append_right _ (List.mem_singleton_self _)
        exact hall item.dbName (List.mem_map.mpr ⟨_, hmem, rfl⟩)

variable (db st) in
theorem updateBuildQuery_cases {item : Obj_Query}
    (hq : Quoteless [item.query_tableName, item.query_columns, item.query_searchRule, item.query_dbName])
    {i : Int} (hi : i.natAbs ≤ maxInt) (hdbId : item.query_dbId = intText i) {k : RowId}
    (hk : item.query_Id = natText k.val) :
    updateBuildQuery db st item = st ∨ ∃ t, updateBuildQuery db st item = { st with query := t } ∧
      (t.rows = st.query.rows.map fun r => if hit (some (ns "QueryId", .int k.val)) r then
        assign ((ns "dbID", .int i) :: literals (updateFields item)) r else r) ∧
      st.query.seq ≤ t.seq := by
  by_cases hf : ∀ x ∈ updateFields item, Plain x.2
  · exact Or.inr (updateBuildQuery_rows hf hi hdbId hk db st)
  · left
    apply executeUpdate_of_tokens
    rw [updateBuildQuery_query_eq, hdbId, tokens, opens_updateQuery.lex_append,
      lex_int _ (stops_moreSets (stops_whereHead _ _) _),
      lex_moreSets_none (follows_whereHead _ _) (isName_queryFields _ _ _ _) (quoteless_queryFields hq) hf]
    rfl

theorem opens_deleteQuery : Opens (ns "delete from Query where QueryId = ")
    [.word (ns "delete"), .word (ns "from"), .word (ns "Query"), .word (ns "where"),
      .word (ns "QueryId"), .sign '='] := by
  decide +kernel

theorem deleteBuildQuery_rows (db : Sqlite) (st : Store) {item : Obj_Query} {k : RowId}
    (hk : item.query_Id = natText k.val) :
    ∃ t, deleteBuildQuery db st item = { st with query := t } ∧
      (t.rows = st.query.rows.filter fun r => !hit (some (ns "QueryId", .int k.val)) r) ∧
      st.query.seq ≤ t.seq := by
  have hsel : querySchema.Selects (some (ns "QueryId", .int k.val)) := rfl
  obtain ⟨t, ht⟩ := delete_isSome hsel st.query
  have hread : readStatement (ns "delete from Query where QueryId = " ++ item.query_Id) =
      some (.delete (ns "Query") (some (ns "QueryId", .int k.val))) := by
    rw [hk, readStatement, tokens, opens_deleteQuery.lex_append, ← intText_natCast, lex_int_end,
      ofWord_intText k.natAbs_le]
    simp [parse, parseDelete, condition, ns]
  refine ⟨t, ?_, (delete_inv ht).2, ?_⟩
  · apply executeUpdate_of_read db hread
    rw [apply_query rfl, Statement.effect, ht, Option.map_some]
  · have heffect : (Statement.delete (ns "Query") (some (ns "QueryId", .int k.val))).effect querySchema
        st.query = some t := ht
    exact seq_effect heffect

/-! ## Runs of the writers -/

inductive Write where
  | insertIntoHistory (item : Obj_Database)
  | updateHistory (item : Obj_Database)
  | AddToHistory (item : Obj_Database)
  | DeleteFromHistory (item : Obj_Database)
  | insertBuildQuery (item : Obj_Database) (tableName columns searchRule : NSString)
  | updateBuildQuery (item : Obj_Query)
  | deleteBuildQuery (item : Obj_Query)
  deriving DecidableEq, Repr

def Write.apply (db : Sqlite) (st : Store) : Write → Store
  | .insertIntoHistory item => DBConnector.insertIntoHistory db st item
  | .updateHistory item => DBConnector.updateHistory db st item
  | .AddToHistory item => DBConnector.AddToHistory db st item
  | .DeleteFromHistory item => DBConnector.DeleteFromHistory db st item
  | .insertBuildQuery item tableName columns searchRule =>
    DBConnector.insertBuildQuery db st item tableName columns searchRule
  | .updateBuildQuery item => DBConnector.updateBuildQuery db st item
  | .deleteBuildQuery item => DBConnector.deleteBuildQuery db st item

/-- The store, and all that `getQuerys` has returned so far. -/
structure Library where
  store : Store
  read : List Obj_Query

/-- The id of a stored database. -/
def Stored (st : Store) (dbId : NSString) : Prop := ∃ r ∈ st.history.rows, dbId = natText r.id.val

/-- `item` was read, and its three texts may have been edited. -/
def Edited (read : List Obj_Query) (item : Obj_Query) : Prop :=
  ∃ q ∈ read, item.query_Id = q.query_Id ∧ item.query_dbId = q.query_dbId ∧
    item.query_dbName = q.query_dbName

/-- No text has an apostrophe, and the items were read from the store. -/
def Allowed (s : Library) : Write → Prop
  | .insertIntoHistory item => Quoteless ((historyFields item).map (·.2))
  | .updateHistory item =>
    Quoteless ((historyFields item).map (·.2)) ∧ Stored s.store item.dbId
  | .AddToHistory item => Stored s.store item.dbId
  | .DeleteFromHistory item => Stored s.store item.dbId
  | .insertBuildQuery item tableName columns searchRule =>
    Quoteless [tableName, columns, searchRule, item.dbName] ∧
      item ∈ s.store.history.rows.map readDatabase
  | .updateBuildQuery item =>
    Quoteless [item.query_tableName, item.query_columns, item.query_searchRule, item.query_dbName] ∧
      Edited s.read item
  | .deleteBuildQuery item => item ∈ s.read

instance (st : Store) (dbId : NSString) : Decidable (Stored st dbId) := by
  unfold Stored; exact inferInstance

instance (read : List Obj_Query) (item : Obj_Query) : Decidable (Edited read item) := by
  unfold Edited; exact inferInstance

instance (s : Library) : (w : Write) → Decidable (Allowed s w)
  | .insertIntoHistory item => inferInstanceAs (Decidable (Quoteless ((historyFields item).map (·.2))))
  | .updateHistory item => inferInstanceAs (Decidable
    (Quoteless ((historyFields item).map (·.2)) ∧ Stored s.store item.dbId))
  | .AddToHistory item => inferInstanceAs (Decidable (Stored s.store item.dbId))
  | .DeleteFromHistory item => inferInstanceAs (Decidable (Stored s.store item.dbId))
  | .insertBuildQuery item tableName columns searchRule => inferInstanceAs (Decidable
    (Quoteless [tableName, columns, searchRule, item.dbName] ∧
      item ∈ s.store.history.rows.map readDatabase))
  | .updateBuildQuery item => inferInstanceAs (Decidable
    (Quoteless [item.query_tableName, item.query_columns, item.query_searchRule, item.query_dbName] ∧
      Edited s.read item))
  | .deleteBuildQuery item => inferInstanceAs (Decidable (item ∈ s.read))

/-- After a write the queries are read. -/
def Library.after (s : Library) (st : Store) : Library := ⟨st, s.read ++ getQuerys st⟩

def Library.step (db : Sqlite) (s : Library) (w : Write) : Option Library :=
  if Allowed s w then some (s.after (w.apply db s.store)) else none

/-- The query names its database as it is named now. -/
def LabelledBy (q : Obj_Query) (d : Obj_Database) : Prop :=
  q.query_dbId = d.dbId ∧ q.query_dbName = d.dbName ∧
    q.query_showName = showName d.dbName q.query_tableName

instance (q : Obj_Query) (d : Obj_Database) : Decidable (LabelledBy q d) := by
  unfold LabelledBy; exact inferInstance

def Labelled (st : Store) : Prop :=
  ∀ q ∈ getQuerys st, ∃ r ∈ st.history.rows, LabelledBy q (readDatabase r)

instance : DecidablePred Labelled := fun st => by unfold Labelled; exact inferInstance

def Library.lts (db : Sqlite) : LTS Library Write :=
  LTS.ofFn (fun s => Labelled s.store ∧ s.read = getQuerys s.store) (Library.step db)

/-- A database with saved queries keeps its name, and the id of the database
of a new query fits an `int`. -/
def KeepsNames (s : Library) : Write → Prop
  | .updateHistory item =>
    ∀ q ∈ getQuerys s.store, q.query_dbId = item.dbId → q.query_dbName = item.dbName
  | .insertBuildQuery item _ _ _ => intText (intValue item.dbId) = item.dbId
  | _ => True

instance (s : Library) : (w : Write) → Decidable (KeepsNames s w)
  | .insertIntoHistory _ => isTrue trivial
  | .updateHistory item => inferInstanceAs (Decidable
    (∀ q ∈ getQuerys s.store, q.query_dbId = item.dbId → q.query_dbName = item.dbName))
  | .AddToHistory _ => isTrue trivial
  | .DeleteFromHistory _ => isTrue trivial
  | .insertBuildQuery item _ _ _ =>
    inferInstanceAs (Decidable (intText (intValue item.dbId) = item.dbId))
  | .updateBuildQuery _ => isTrue trivial
  | .deleteBuildQuery _ => isTrue trivial

/-! ## What is known of a query that was read -/

/-- Its id was used and is not used again, and as long as its row is there,
the row has the database the query was read with. -/
structure Known (st : Store) (q : Obj_Query) : Prop where
  id : ∃ k : RowId, q.query_Id = natText k.val ∧ k.val ≤ st.query.seq
  dbId : ∃ k : RowId, q.query_dbId = natText k.val
  row : ∀ y ∈ getQuerys st, y.query_Id = q.query_Id →
    y.query_dbId = q.query_dbId ∧ y.query_dbName = q.query_dbName

structure Kept (s : Library) : Prop where
  labelled : Labelled s.store
  known : ∀ q ∈ s.read, Known s.store q

theorem known_of_labelled {st : Store} (h : Labelled st) : ∀ q ∈ getQuerys st, Known st q := by
  intro q hq
  obtain ⟨r, -, hr⟩ := h q hq
  obtain ⟨x, hx, rfl⟩ := List.mem_map.mp hq
  refine ⟨⟨x.id, rfl, st.query.id_le x hx⟩, ⟨r.id, hr.1⟩, ?_⟩
  intro y hy hid
  obtain ⟨x', hx', rfl⟩ := List.mem_map.mp hy
  have hsame : x'.id = x.id := (natText_id_iff.mp hid.symm).symm ▸ rfl
  rw [List.inj_on_of_nodup_map st.query.nodup hx' hx hsame]
  exact ⟨rfl, rfl⟩

/-- What a step leaves of the queries: the old ones with their databases, and
new ones with new ids. -/
theorem Known.query {st : Store} {q : Obj_Query} {t : Table} (h : Known st q)
    (hseq : st.query.seq ≤ t.seq)
    (hrows : ∀ y ∈ getQuerys { st with query := t },
      (∃ x ∈ getQuerys st, y.query_Id = x.query_Id ∧ y.query_dbId = x.query_dbId ∧
        y.query_dbName = x.query_dbName) ∨
      ∃ k : RowId, y.query_Id = natText k.val ∧ st.query.seq < k.val) :
    Known { st with query := t } q := by
  obtain ⟨k, hk, hle⟩ := h.id
  refine ⟨⟨k, hk, Nat.le_trans hle hseq⟩, h.dbId, ?_⟩
  intro y hy hid
  rcases hrows y hy with ⟨x, hx, hxid, hxdb, hxname⟩ | ⟨k', hk', hlt⟩
  · rw [hxdb, hxname]
    exact h.row x hx (hxid.symm.trans hid)
  · rw [hid, hk] at hk'
    have hkk := natText_injective hk'
    omega

/-! ## Writing databases -/

/-- Databases that keep their ids and, where queries name them, their names. -/
theorem Labelled.history {st : Store} {t : Table} (h : Labelled st)
    (hrows : ∀ q ∈ getQuerys st, ∀ r ∈ st.history.rows, LabelledBy q (readDatabase r) →
      ∃ r' ∈ t.rows, r'.id = r.id ∧ r'.text (ns "dbName") = r.text (ns "dbName")) :
    Labelled { st with history := t } := by
  intro q hq
  obtain ⟨r, hr, hby⟩ := h q hq
  obtain ⟨r', hr', hid, hname⟩ := hrows q hq r hr hby
  refine ⟨r', hr', ?_⟩
  have hdb : (readDatabase r').dbId = (readDatabase r).dbId := congrArg (fun i : RowId => natText i.val) hid
  have hdbName : (readDatabase r').dbName = (readDatabase r).dbName := hname
  rw [LabelledBy, hdb, hdbName]
  exact hby

theorem labelled_insertIntoHistory (hfull : RefusesFull db) {item : Obj_Database} (h : Labelled st)
    (hq : Quoteless ((historyFields item).map (·.2))) :
    ∃ t, insertIntoHistory db st item = { st with history := t } ∧ Labelled { st with history := t } := by
  rcases insertIntoHistory_cases st hfull hq with hsame | ⟨t, r, hst, hrows⟩
  · exact ⟨st.history, hsame, h⟩
  · refine ⟨t, hst, h.history ?_⟩
    intro q _ x hx _
    exact ⟨x, by rw [hrows]; exact List.mem_append_left _ hx, rfl, rfl⟩

variable (db) in
theorem labelled_updateHistory {item : Obj_Database} (h : Labelled st)
    (hq : Quoteless ((historyFields item).map (·.2))) (hstored : Stored st item.dbId)
    (hkeep : ∀ q ∈ getQuerys st, q.query_dbId = item.dbId → q.query_dbName = item.dbName) :
    ∃ t, updateHistory db st item = { st with history := t } ∧ Labelled { st with history := t } := by
  obtain ⟨r₀, -, hk⟩ := hstored
  rcases updateHistory_cases db st hq hk with hsame | ⟨t, hst, hrows⟩
  · exact ⟨st.history, hsame, h⟩
  · refine ⟨t, hst, h.history ?_⟩
    intro q hq' r hr hby
    refine ⟨_, by rw [hrows]; exact List.mem_map_of_mem hr, ?_, ?_⟩
    · split <;> rfl
    · split
      · rename_i hhit
        have hid : r.id = r₀.id := RowId.eq_of_natCast (by simpa [hit] using hhit)
        have hname : q.query_dbName = item.dbName := by
          refine hkeep q hq' (hby.1.trans ?_)
          rw [hk, ← hid]
          rfl
        have hcell : (assign (literals (historyFields item)) r).text (ns "dbName") = item.dbName :=
          text_assign (assigns_history item).1
            (mem_literals (x := (ns "dbName", item.dbName)) (by simp [historyFields])) r
        rw [hcell, ← hname]
        exact hby.2.1
      · rfl

variable (db) in
theorem labelled_flag (op : FlagOp) (h : Labelled st) (hstored : Stored st op.item.dbId) :
    ∃ t, op.apply db st = { st with history := t } ∧ Labelled { st with history := t } := by
  obtain ⟨r₀, -, hk⟩ := hstored
  obtain ⟨t, hst, hrows⟩ := apply_flag db st op hk
  refine ⟨t, hst, h.history ?_⟩
  intro q _ r hr _
  refine ⟨_, by rw [hrows]; exact List.mem_map_of_mem hr, ?_, ?_⟩
  · split <;> rfl
  · split
    · exact congrArg Obj_Database.dbName (readDatabase_assign_flag op.flag r)
    · rfl

/-- A write to the databases that keeps the labels. -/
theorem Kept.history {s : Library} {t : Table} (h : Kept s)
    (hl : Labelled { s.store with history := t }) :
    Kept (s.after { s.store with history := t }) where
  labelled := hl
  known := by
    intro q hq
    rcases List.mem_append.mp hq with hq | hq
    · exact ⟨(h.known q hq).id, (h.known q hq).dbId, (h.known q hq).row⟩
    · exact known_of_labelled hl q hq

/-! ## Writing queries -/

/-- A write to the queries that keeps the labels. -/
theorem Kept.query {s : Library} {t : Table} (h : Kept s) (hseq : s.store.query.seq ≤ t.seq)
    (hl : Labelled { s.store with query := t })
    (hrows : ∀ y ∈ getQuerys { s.store with query := t },
      (∃ x ∈ getQuerys s.store, y.query_Id = x.query_Id ∧ y.query_dbId = x.query_dbId ∧
        y.query_dbName = x.query_dbName) ∨
      ∃ k : RowId, y.query_Id = natText k.val ∧ s.store.query.seq < k.val) :
    Kept (s.after { s.store with query := t }) where
  labelled := hl
  known := by
    intro q hq
    rcases List.mem_append.mp hq with hq | hq
    · exact (h.known q hq).query hseq hrows
    · exact known_of_labelled hl q hq

/-- Nothing was written. -/
theorem Kept.same {s : Library} (h : Kept s) : Kept (s.after s.store) where
  labelled := h.labelled
  known := by
    intro q hq
    rcases List.mem_append.mp hq with hq | hq
    · exact h.known q hq
    · exact known_of_labelled h.labelled q hq

theorem kept_insertBuildQuery (hfull : RefusesFull db) {s : Library} (h : Kept s)
    {item : Obj_Database} {tableName columns searchRule : NSString}
    (hq : Quoteless [tableName, columns, searchRule, item.dbName])
    (hstored : item ∈ s.store.history.rows.map readDatabase)
    (hid : intText (intValue item.dbId) = item.dbId) :
    Kept (s.after (insertBuildQuery db s.store item tableName columns searchRule)) := by
  rcases insertBuildQuery_cases s.store hfull hq with hsame | ⟨t, r, hst, hrows, hnew⟩
  · rw [hsame]
    exact h.same
  · rw [hst]
    have hget : getQuerys { s.store with query := t } =
        getQuerys s.store ++ [builtQuery item tableName columns searchRule (natText r.id.val)] := by
      rw [← readQuery_queryCells r]
      exact getQuerys_append hrows
    obtain ⟨d, hd, hdi⟩ := List.mem_map.mp hstored
    have hseq : s.store.query.seq ≤ t.seq := by
      have hle := t.id_le _ (by rw [hrows]; exact List.mem_append_right _ (List.mem_singleton_self _))
      have hle : r.id.val ≤ t.seq := hle
      omega
    refine Kept.query h hseq ?_ ?_
    · intro q hq
      rw [hget] at hq
      rcases List.mem_append.mp hq with hq | hq
      · exact h.labelled q hq
      · rw [List.mem_singleton] at hq
        subst hq
        refine ⟨d, hd, ?_⟩
        rw [hdi]
        exact ⟨hid, rfl, rfl⟩
    · intro y hy
      rw [hget] at hy
      rcases List.mem_append.mp hy with hy | hy
      · exact Or.inl ⟨y, hy, rfl, rfl, rfl⟩
      · rw [List.mem_singleton] at hy
        subst hy
        refine Or.inr ⟨r.id, rfl, ?_⟩
        omega

theorem kept_updateBuildQuery {s : Library} (h : Kept s) {item : Obj_Query}
    (hq : Quoteless [item.query_tableName, item.query_columns, item.query_searchRule, item.query_dbName])
    (hedit : Edited s.read item) : Kept (s.after (updateBuildQuery db s.store item)) := by
  obtain ⟨q, hread, hId, hdbId, hdbName⟩ := hedit
  have hknown := h.known q hread
  obtain ⟨k, hk, -⟩ := hknown.id
  obtain ⟨d, hd⟩ := hknown.dbId
  have hint : item.query_dbId = intText d.val := hdbId.trans hd
  rcases updateBuildQuery_cases db s.store hq d.natAbs_le hint (hId.trans hk)
    with hsame | ⟨t, hst, hrows, hseq⟩
  · rw [hsame]
    exact h.same
  · rw [hst]
    -- an updated row keeps its database: the item was read from it
    have hold : ∀ y ∈ getQuerys { s.store with query := t }, ∃ x ∈ getQuerys s.store,
        y.query_Id = x.query_Id ∧ y.query_dbId = x.query_dbId ∧ y.query_dbName = x.query_dbName ∧
          (y = x ∨ y.query_showName = showName x.query_dbName y.query_tableName) := by
      intro y hy
      have hy : y ∈ t.rows.map readQuery := hy
      rw [hrows, List.map_map] at hy
      obtain ⟨r, hr, rfl⟩ := List.mem_map.mp hy
      refine ⟨readQuery r, List.mem_map_of_mem hr, ?_⟩
      rw [Function.comp_apply]
      split
      · rename_i hhit
        have hid : r.id = k := RowId.eq_of_natCast (by simpa [hit] using hhit)
        have hrow := hknown.row (readQuery r) (List.mem_map_of_mem hr) (by
          rw [hk, ← hid]
          rfl)
        rw [readQuery_updateFields hint]
        refine ⟨rfl, hdbId.trans hrow.1.symm, rfl, Or.inr ?_⟩
        rw [hrow.2, ← hdbName]
      · exact ⟨rfl, rfl, rfl, Or.inl rfl⟩
    refine Kept.query h hseq ?_ ?_
    · intro y hy
      obtain ⟨x, hx, -, hdb, hname, hshow⟩ := hold y hy
      obtain ⟨r, hr, hby⟩ := h.labelled x hx
      refine ⟨r, hr, hdb.trans hby.1, hname.trans hby.2.1, ?_⟩
      rcases hshow with rfl | hshow
      · exact hby.2.2
      · rw [hshow, hby.2.1]
    · intro y hy
      obtain ⟨x, hx, hid, hdb, hname, -⟩ := hold y hy
      exact Or.inl ⟨x, hx, hid, hdb, hname⟩

theorem kept_deleteBuildQuery {s : Library} (h : Kept s) {item : Obj_Query} (hread : item ∈ s.read) :
    Kept (s.after (deleteBuildQuery db s.store item)) := by
  obtain ⟨k, hk, -⟩ := (h.known item hread).id
  obtain ⟨t, hst, hrows, hseq⟩ := deleteBuildQuery_rows db s.store hk
  rw [hst]
  have hsub : ∀ y ∈ getQuerys { s.store with query := t }, y ∈ getQuerys s.store := by
    intro y hy
    have hy : y ∈ t.rows.map readQuery := hy
    obtain ⟨r, hr, rfl⟩ := List.mem_map.mp hy
    rw [hrows] at hr
    exact List.mem_map_of_mem (List.mem_filter.mp hr).1
  refine Kept.query h hseq ?_ ?_
  · intro y hy
    exact h.labelled y (hsub y hy)
  · intro y hy
    exact Or.inl ⟨y, hsub y hy, rfl, rfl, rfl⟩

/-! ## All runs -/

theorem kept_step (hfull : RefusesFull db) {s s' : Library} {w : Write} (h : Kept s)
    (hk : KeepsNames s w) (hs : Library.step db s w = some s') : Kept s' := by
  unfold Library.step at hs
  split at hs
  · rename_i ha
    obtain rfl := Option.some.inj hs
    cases w with
    | insertIntoHistory item =>
      obtain ⟨t, hst, hl⟩ := labelled_insertIntoHistory hfull h.labelled ha
      rw [Write.apply, hst]
      exact h.history hl
    | updateHistory item =>
      obtain ⟨t, hst, hl⟩ := labelled_updateHistory db h.labelled ha.1 ha.2 hk
      rw [Write.apply, hst]
      exact h.history hl
    | AddToHistory item =>
      obtain ⟨t, hst, hl⟩ := labelled_flag db (.AddToHistory item) h.labelled ha
      have hst : AddToHistory db s.store item = { s.store with history := t } := hst
      rw [Write.apply, hst]
      exact h.history hl
    | DeleteFromHistory item =>
      obtain ⟨t, hst, hl⟩ := labelled_flag db (.DeleteFromHistory item) h.labelled ha
      have hst : DeleteFromHistory db s.store item = { s.store with history := t } := hst
      rw [Write.apply, hst]
      exact h.history hl
    | insertBuildQuery item tableName columns searchRule =>
      exact kept_insertBuildQuery hfull h ha.1 ha.2 hk
    | updateBuildQuery item => exact kept_updateBuildQuery h ha.1 ha.2
    | deleteBuildQuery item => exact kept_deleteBuildQuery h ha
  · cases hs

theorem kept_inductive (hfull : RefusesFull db) :
    ((Library.lts db).restrict KeepsNames).Inductive Kept where
  init := by
    intro s hs
    refine ⟨hs.1, ?_⟩
    rw [hs.2]
    exact known_of_labelled hs.1
  step := by
    intro s w s' h hs
    exact kept_step hfull h hs.1 hs.2

/-- **Labels.** In every run in which a database with saved queries keeps its
name and the ids of the databases of new queries fit an `int`, each saved
query names its database as it is named now. -/
theorem labelled_of_keepsNames (db : Sqlite) (hfull : RefusesFull db) {s : Library}
    (h : ((Library.lts db).restrict KeepsNames).Reachable s) : Labelled s.store :=
  ((kept_inductive hfull).reachable h).labelled

/-- A database as it is entered, and as it is read back. -/
def sales (dbId : NSString) : Obj_Database :=
  ⟨dbId, ns "sales", ns "host", ns "sa", ns "pw", ns "1433", ns "test", ns "2013"⟩

theorem labelled_empty : Labelled (⟨.empty, .empty⟩ : Store) := by
  intro q hq
  cases hq

/-- A database is added, renamed and then has a query, which is edited. -/
theorem labelled_renamedBefore : ∃ s, ((Library.lts strict).restrict KeepsNames).Reachable s ∧
    Labelled s.store ∧ (getQuerys s.store).map (·.query_showName) = [ns "shop->orders->Search"] := by
  have hex : ∃ s, ((Library.lts strict).restrict KeepsNames).Reachable s ∧
      (getQuerys s.store).map (·.query_showName) = [ns "shop->orders->Search"] :=
    LTS.exists_of_execG ⟨⟨.empty, .empty⟩, []⟩
      [.insertIntoHistory (sales []), .updateHistory { sales (ns "1") with dbName := ns "shop" },
        .insertBuildQuery { sales (ns "1") with dbName := ns "shop" } (ns "people") (ns "id") (ns "id"),
        .updateBuildQuery ⟨ns "1", ns "1", ns "shop", ns "orders", ns "id", ns "id", []⟩] _
      ⟨labelled_empty, rfl⟩ (by decide +kernel)
  obtain ⟨s, hs, hshow⟩ := hex
  exact ⟨s, hs, labelled_of_keepsNames strict refusesFull_strict hs, hshow⟩

/-- A database with a saved query is renamed. -/
theorem renamed : ¬ ∀ db, RefusesFull db → ∀ s, (Library.lts db).Reachable s → Labelled s.store := by
  intro hall
  have hex : ∃ s, (Library.lts strict).Reachable s ∧ ¬ Labelled s.store :=
    LTS.exists_of_exec ⟨⟨.empty, .empty⟩, []⟩
      [.insertIntoHistory (sales []), .insertBuildQuery (sales (ns "1")) (ns "orders") (ns "id") (ns "id"),
        .updateHistory { sales (ns "1") with dbName := ns "shop" }] _
      ⟨labelled_empty, rfl⟩ (by decide +kernel)
  obtain ⟨s, hs, hn⟩ := hex
  exact hn (hall strict refusesFull_strict s hs)

end MysqlConnection.L2.DBConnector
