import MysqlConnection.L2Store.Labels

/-!
# What the store is for

`Registry` is the store without SQL: the databases with their flags and the
saved queries, each with its id, in the order in which they were added, and the
largest ids given so far. Each writer of `DBConnector` is one change of it
(`Registry.apply`); the readers are its two halves and its queries.

For texts without apostrophes and NULs, and ids as the readers give them:

* `readers_run`: after any run of writers the readers return the parts of the
  registry after the same run.
* `records_run`: each record is what the writes with its id made of it, one
  after the other; records keep their order, new ones get the next ids, and what
  was deleted never comes back.
-/
namespace MysqlConnection.L2.DBConnector

open Sql

/-- A database with its flag: 1, or 0 if it was deleted. -/
structure Registry where
  databases : List (Obj_Database × Int)
  queries : List Obj_Query
  lastDatabase : Nat
  lastQuery : Nat
  deriving DecidableEq, Repr

namespace Registry

def insertIntoHistory (r : Registry) (item : Obj_Database) : Registry :=
  if r.lastDatabase < maxInt then
    { r with
      databases := r.databases ++ [({ item with dbId := natText (r.lastDatabase + 1) }, 1)]
      lastDatabase := r.lastDatabase + 1 }
  else r

/-- `f` is done to the databases with the id. -/
def changeDatabase (r : Registry) (dbId : NSString) (f : Obj_Database × Int → Obj_Database × Int) :
    Registry :=
  { r with databases := r.databases.map fun x => if x.1.dbId = dbId then f x else x }

def insertBuildQuery (r : Registry) (item : Obj_Database)
    (tableName columns searchRule : NSString) : Registry :=
  if r.lastQuery < maxInt then
    { r with
      queries := r.queries ++
        [builtQuery item tableName columns searchRule (natText (r.lastQuery + 1))]
      lastQuery := r.lastQuery + 1 }
  else r

/-- The name of its database stays as it was when the query was built. -/
def updateBuildQuery (r : Registry) (item : Obj_Query) : Registry :=
  { r with
    queries := r.queries.map fun q =>
      if q.query_Id = item.query_Id then
        { item with
          query_dbName := q.query_dbName
          query_showName := showName item.query_dbName item.query_tableName }
      else q }

def deleteBuildQuery (r : Registry) (item : Obj_Query) : Registry :=
  { r with queries := r.queries.filter fun q => q.query_Id ≠ item.query_Id }

def apply (r : Registry) : Write → Registry
  | .insertIntoHistory item => r.insertIntoHistory item
  | .updateHistory item => r.changeDatabase item.dbId fun x => (item, x.2)
  | .AddToHistory item => r.changeDatabase item.dbId fun x => (x.1, 1)
  | .DeleteFromHistory item => r.changeDatabase item.dbId fun x => (x.1, 0)
  | .insertBuildQuery item tableName columns searchRule =>
    r.insertBuildQuery item tableName columns searchRule
  | .updateBuildQuery item => r.updateBuildQuery item
  | .deleteBuildQuery item => r.deleteBuildQuery item

end Registry

/-- A row of `History` with its flag. -/
def entry (r : Row) : Obj_Database × Int := (readDatabase r, r.int (ns "flag"))

def Store.registry (st : Store) : Registry where
  databases := st.history.rows.map entry
  queries := getQuerys st
  lastDatabase := st.history.seq
  lastQuery := st.query.seq

/-- The readers of databases are the two halves of the registry. -/
theorem flagged_registry (st : Store) (flag : Int) :
    (flagged st flag).map readDatabase =
      (st.registry.databases.filter fun x => x.2 = flag).map (·.1) := by
  rw [Store.registry, List.filter_map, List.map_map]
  rfl

/-- An id as the readers give it. -/
def GivenId (t : NSString) : Prop := ∃ k : RowId, t = natText k.val

/-- Texts without apostrophes and NULs, ids as the readers give them. -/
def Clean : Write → Prop
  | .insertIntoHistory item => ∀ x ∈ historyFields item, Plain x.2
  | .updateHistory item => (∀ x ∈ historyFields item, Plain x.2) ∧ GivenId item.dbId
  | .AddToHistory item => GivenId item.dbId
  | .DeleteFromHistory item => GivenId item.dbId
  | .insertBuildQuery item tableName columns searchRule =>
    ∀ f ∈ [tableName, columns, searchRule, item.dbName], Plain f
  | .updateBuildQuery item =>
    (∀ x ∈ updateFields item, Plain x.2) ∧ GivenId item.query_Id ∧
      ∃ i : Int, i.natAbs ≤ maxInt ∧ item.query_dbId = intText i
  | .deleteBuildQuery item => GivenId item.query_Id

/-! ## One write -/

variable {db : Sqlite} {st : Store}

/-- A statement on `History` does what is documented. -/
theorem executeUpdate_history (db : Sqlite) {sql : NSString} {stmt : Statement} {t : Table}
    (hr : readStatement sql = some stmt) (hn : stmt.table = historySchema.name)
    (ht : stmt.effect historySchema st.history = some t) :
    executeUpdate db st sql = { st with history := t } := by
  apply executeUpdate_of_read db hr
  rw [apply_history hn, ht, Option.map_some]

theorem executeUpdate_query (db : Sqlite) {sql : NSString} {stmt : Statement} {t : Table}
    (hr : readStatement sql = some stmt) (hn : stmt.table = querySchema.name)
    (ht : stmt.effect querySchema st.query = some t) :
    executeUpdate db st sql = { st with query := t } := by
  apply executeUpdate_of_read db hr
  rw [apply_query hn, ht, Option.map_some]

theorem dbId_iff {r : Row} {k : RowId} : (readDatabase r).dbId = natText k.val ↔ r.id = k :=
  natText_id_iff.trans eq_comm

theorem queryId_iff {r : Row} {k : RowId} : (readQuery r).query_Id = natText k.val ↔ r.id = k :=
  natText_id_iff.trans eq_comm

theorem hit_iff {c : Text} {r : Row} {k : RowId} :
    hit (some (c, .int k.val)) r = true ↔ r.id = k := by
  rw [hit, decide_eq_true_eq]
  exact ⟨RowId.eq_of_natCast, fun h => by rw [h]⟩

/-- An update of the row `k` of `History`. -/
theorem registry_update {t : Table} {sets : Assignments} {k : RowId}
    {f : Obj_Database × Int → Obj_Database × Int}
    (ht : st.history.update historySchema sets (some (ns "dbID", .int k.val)) = some t)
    (hf : ∀ r : Row, r.id = k → entry (assign sets r) = f (entry r)) :
    ({ st with history := t } : Store).registry = st.registry.changeDatabase (natText k.val) f := by
  have hrows : t.rows.map entry =
      (st.history.rows.map entry).map fun x => if x.1.dbId = natText k.val then f x else x := by
    rw [(update_inv ht).2.2, List.map_map, List.map_map]
    refine List.map_congr_left fun r _ => ?_
    simp only [Function.comp_apply]
    by_cases hr : r.id = k
    · have hid : (entry r).1.dbId = natText k.val := dbId_iff.mpr hr
      rw [if_pos (hit_iff.mpr hr), if_pos hid, hf r hr]
    · have hid : ¬ (entry r).1.dbId = natText k.val := fun h => hr (dbId_iff.mp h)
      rw [if_neg (fun h => hr (hit_iff.mp h)), if_neg hid]
  simp only [Store.registry, Registry.changeDatabase, hrows, seq_update ht]
  rfl

theorem registry_insertIntoHistory (hfull : RefusesFull db) {item : Obj_Database}
    (hf : ∀ x ∈ historyFields item, Plain x.2) :
    (insertIntoHistory db st item).registry = st.registry.insertIntoHistory item := by
  have hread := read_insertIntoHistory hf
  by_cases hs : st.history.seq < maxInt
  · have hkinds : (ns "HostName" :: historyColumns).zip
        (((historyFields item).map (fun x : Text × Text => Const.text x.2) ++ [Const.int 1]).map
          Const.kind) = historySchema.columns := rfl
    obtain ⟨t, ht⟩ := insert_isSome hkinds rfl hs
    obtain ⟨-, -, -, r, hid, hrows⟩ := insert_inv ht
    have hst : insertIntoHistory db st item = { st with history := t } :=
      executeUpdate_history db hread rfl ht
    have hn := nodup_historyCells item
    have hentry : entry (assign (historyCells item) r) =
        ({ item with dbId := natText (st.history.seq + 1) }, 1) := by
      have hdatabase : readDatabase (assign (historyCells item) r) =
          { item with dbId := natText (st.history.seq + 1) } := by
        rw [readDatabase_eq_iff]
        refine ⟨?_, fun x hx => text_assign hn (List.mem_append_left _ (mem_literals hx)) r⟩
        show natText r.id.val = _
        rw [hid]
      rw [entry, hdatabase, int_assign hn (List.mem_append_right _ List.mem_cons_self) r]
    have hmap : t.rows.map entry = st.history.rows.map entry ++
        [({ item with dbId := natText (st.history.seq + 1) }, 1)] := by
      rw [hrows, List.map_append, List.map_singleton, ← hentry]
      rfl
    rw [hst, Registry.insertIntoHistory, if_pos (show st.registry.lastDatabase < maxInt from hs)]
    simp only [Store.registry, hmap, seq_insert ht]
    rfl
  · have hst : insertIntoHistory db st item = st :=
      executeUpdate_of_exec hread fun ts hp => (hfull st ts _ _ _ hp).1 rfl hs
    rw [hst, Registry.insertIntoHistory, if_neg (show ¬ st.registry.lastDatabase < maxInt from hs)]

theorem registry_updateHistory {item : Obj_Database} (hf : ∀ x ∈ historyFields item, Plain x.2)
    (hk : GivenId item.dbId) : (updateHistory db st item).registry =
      st.registry.changeDatabase item.dbId fun x => (item, x.2) := by
  obtain ⟨k, hk⟩ := hk
  have hsel : historySchema.Selects (some (ns "dbID", .int k.val)) := rfl
  have ha := assigns_history item
  obtain ⟨t, ht⟩ := update_isSome ha hsel st.history
  have hst : updateHistory db st item = { st with history := t } :=
    executeUpdate_history db (read_updateHistory hf hk) rfl ht
  rw [hst, hk]
  refine registry_update ht fun r hr => ?_
  have hno : ns "flag" ∉ (literals (historyFields item)).map (·.1) := by
    show ns "flag" ∉ ns "HostName" :: historyColumns.dropLast
    decide
  have hdatabase : readDatabase (assign (literals (historyFields item)) r) = item := by
    rw [readDatabase_eq_iff]
    refine ⟨?_, fun x hx => text_assign ha.1 (mem_literals hx) r⟩
    show natText r.id.val = item.dbId
    rw [hr, hk]
  rw [entry, hdatabase, (assign_of_not_mem hno r).2]
  rfl

theorem registry_flag {p : NSString} {flag : Int} (hp : Opens p (flagTokens flag)) {dbId : NSString}
    (hk : GivenId dbId) : (executeUpdate db st (p ++ dbId)).registry =
      st.registry.changeDatabase dbId fun x => (x.1, flag) := by
  obtain ⟨k, rfl⟩ := hk
  have hsel : historySchema.Selects (some (ns "dbID", .int k.val)) := rfl
  obtain ⟨t, ht⟩ := update_isSome (assigns_flag flag) hsel st.history
  rw [executeUpdate_history db (read_flag hp k) rfl ht]
  refine registry_update ht fun r _ => ?_
  rw [entry, readDatabase_assign_flag, int_assign_flag]
  rfl

theorem registry_insertBuildQuery (hfull : RefusesFull db) {item : Obj_Database}
    {tableName columns searchRule : NSString}
    (hf : ∀ f ∈ [tableName, columns, searchRule, item.dbName], Plain f) :
    (insertBuildQuery db st item tableName columns searchRule).registry =
      st.registry.insertBuildQuery item tableName columns searchRule := by
  have hread := read_insertBuildQuery hf
  by_cases hs : st.query.seq < maxInt
  · have hkinds : (ns "dbID" :: queryColumns).zip
        (((queryCells item tableName columns searchRule).map (·.2)).map Const.kind) =
          querySchema.columns := rfl
    obtain ⟨t, ht⟩ := insert_isSome hkinds rfl hs
    obtain ⟨-, -, -, r, hid, hrows⟩ := insert_inv ht
    have hst : insertBuildQuery db st item tableName columns searchRule = { st with query := t } :=
      executeUpdate_query db hread rfl ht
    have hmap : t.rows.map readQuery = getQuerys st ++
        [builtQuery item tableName columns searchRule (natText (st.query.seq + 1))] := by
      have hcells : readQuery (assign (queryCells item tableName columns searchRule) r) =
          builtQuery item tableName columns searchRule (natText r.id.val) := readQuery_queryCells r
      rw [hid] at hcells
      rw [hrows, List.map_append, List.map_singleton, ← hcells]
      rfl
    rw [hst, Registry.insertBuildQuery, if_pos (show st.registry.lastQuery < maxInt from hs)]
    simp only [Store.registry, getQuerys, hmap, seq_insert ht]
  · have hst : insertBuildQuery db st item tableName columns searchRule = st :=
      executeUpdate_of_exec hread fun ts hp => (hfull st ts _ _ _ hp).2 rfl hs
    rw [hst, Registry.insertBuildQuery, if_neg (show ¬ st.registry.lastQuery < maxInt from hs)]

theorem registry_updateBuildQuery {item : Obj_Query} (hf : ∀ x ∈ updateFields item, Plain x.2)
    (hk : GivenId item.query_Id) {i : Int} (hi : i.natAbs ≤ maxInt)
    (hdbId : item.query_dbId = intText i) :
    (updateBuildQuery db st item).registry = st.registry.updateBuildQuery item := by
  obtain ⟨k, hk⟩ := hk
  have hsel : querySchema.Selects (some (ns "QueryId", .int k.val)) := rfl
  obtain ⟨t, ht⟩ := update_isSome (assigns_query item i) hsel st.query
  have hst : updateBuildQuery db st item = { st with query := t } :=
    executeUpdate_query db (read_updateBuildQuery hf hi hdbId hk) rfl ht
  have hrows : t.rows.map readQuery = (getQuerys st).map fun q =>
      if q.query_Id = item.query_Id then
        { item with
          query_dbName := q.query_dbName
          query_showName := showName item.query_dbName item.query_tableName }
      else q := by
    rw [(update_inv ht).2.2, getQuerys, List.map_map, List.map_map, hk]
    refine List.map_congr_left fun r _ => ?_
    simp only [Function.comp_apply]
    by_cases hr : r.id = k
    · rw [if_pos (hit_iff.mpr hr), if_pos (queryId_iff.mpr hr), readQuery_updateFields hdbId, hr, ← hk]
      rfl
    · rw [if_neg (fun h => hr (hit_iff.mp h)), if_neg (fun h => hr (queryId_iff.mp h))]
  rw [hst]
  simp only [Store.registry, Registry.updateBuildQuery, getQuerys, seq_update ht] at hrows ⊢
  rw [hrows]

theorem registry_deleteBuildQuery {item : Obj_Query} (hk : GivenId item.query_Id) :
    (deleteBuildQuery db st item).registry = st.registry.deleteBuildQuery item := by
  obtain ⟨k, hk⟩ := hk
  have hsel : querySchema.Selects (some (ns "QueryId", .int k.val)) := rfl
  obtain ⟨t, ht⟩ := delete_isSome hsel st.query
  have hread : readStatement (ns "delete from Query where QueryId = " ++ item.query_Id) =
      some (.delete (ns "Query") (some (ns "QueryId", .int k.val))) := by
    rw [hk, readStatement, tokens, opens_deleteQuery.lex_append, ← intText_natCast, lex_int_end,
      ofWord_intText k.natAbs_le]
    simp [parse, parseDelete, condition, ns]
  have hst : deleteBuildQuery db st item = { st with query := t } :=
    executeUpdate_query db hread rfl ht
  have hrows : t.rows.map readQuery =
      (getQuerys st).filter fun q => q.query_Id ≠ item.query_Id := by
    rw [(delete_inv ht).2, getQuerys, List.filter_map, hk]
    refine congrArg (List.map readQuery) (List.filter_congr fun r _ => ?_)
    simp only [Function.comp_apply, ne_eq, decide_not]
    by_cases hr : r.id = k
    · rw [hit_iff.mpr hr, decide_eq_true (queryId_iff.mpr hr)]
    · rw [Bool.eq_false_iff.mpr fun h => hr (hit_iff.mp h),
        decide_eq_false fun h => hr (queryId_iff.mp h)]
  rw [hst]
  simp only [Store.registry, Registry.deleteBuildQuery, getQuerys, seq_delete ht] at hrows ⊢
  rw [hrows]

/-- **One write.** -/
theorem registry_apply (hfull : RefusesFull db) {w : Write} (hw : Clean w) (st : Store) :
    (w.apply db st).registry = st.registry.apply w := by
  cases w with
  | insertIntoHistory item => exact registry_insertIntoHistory hfull hw
  | updateHistory item => exact registry_updateHistory hw.1 hw.2
  | AddToHistory item => exact registry_flag opens_AddToHistory hw
  | DeleteFromHistory item => exact registry_flag opens_DeleteFromHistory hw
  | insertBuildQuery item tableName columns searchRule => exact registry_insertBuildQuery hfull hw
  | updateBuildQuery item =>
    obtain ⟨hf, hk, i, hi, hdbId⟩ := hw
    exact registry_updateBuildQuery hf hk hi hdbId
  | deleteBuildQuery item => exact registry_deleteBuildQuery hw

/-! ## Runs of writes -/

def writes (db : Sqlite) (st : Store) (ws : List Write) : Store :=
  ws.foldl (fun st w => w.apply db st) st

@[simp] theorem writes_one (db : Sqlite) (st : Store) (w : Write) : writes db st [w] = w.apply db st := rfl

theorem registry_writes (hfull : RefusesFull db) : ∀ {ws : List Write} (st : Store),
    (∀ w ∈ ws, Clean w) → (writes db st ws).registry = ws.foldl Registry.apply st.registry
  | [], _, _ => rfl
  | w :: ws, st, h => by
    have hrest := registry_writes hfull (w.apply db st) fun w' hw' => h w' (List.mem_cons_of_mem _ hw')
    rw [List.foldl_cons, ← registry_apply hfull (h w List.mem_cons_self) st, ← hrest]
    rfl

/-- **The store and what it is for.** After any run of writers the readers
return the halves and the queries of the registry after the same run. -/
theorem readers_run (hfull : RefusesFull db) (st : Store) {ws : List Write}
    (h : ∀ w ∈ ws, Clean w) :
    (getHistoryArray (writes db st ws) =
        ((ws.foldl Registry.apply st.registry).databases.filter fun x => x.2 = 1).map (·.1)) ∧
      (getDeletedArray (writes db st ws) =
        ((ws.foldl Registry.apply st.registry).databases.filter fun x => x.2 = 0).map (·.1)) ∧
      getQuerys (writes db st ws) = (ws.foldl Registry.apply st.registry).queries := by
  rw [← registry_writes hfull st h]
  exact ⟨flagged_registry _ 1, flagged_registry _ 0, rfl⟩

/-- A database is added, a query of it is deleted and another one saved; then the
database is deleted. -/
def session : List Write :=
  [.insertIntoHistory (sales []),
    .insertBuildQuery (sales (ns "1")) (ns "people") (ns "id") (ns "id"),
    .deleteBuildQuery ⟨ns "1", ns "1", [], [], [], [], []⟩,
    .insertBuildQuery (sales (ns "1")) (ns "orders") (ns "id") (ns "id"),
    .DeleteFromHistory (sales (ns "1"))]

theorem clean_session : ∀ w ∈ session, Clean w := by
  have hone : GivenId (ns "1") := ⟨rowId 1 (by decide), rfl⟩
  have hinsert : ∀ x ∈ historyFields (sales []), Plain x.2 := by decide
  have hpeople : ∀ f ∈ [ns "people", ns "id", ns "id", (sales (ns "1")).dbName], Plain f := by decide
  have horders : ∀ f ∈ [ns "orders", ns "id", ns "id", (sales (ns "1")).dbName], Plain f := by decide
  simp only [session, List.forall_mem_cons]
  exact ⟨hinsert, hpeople, hone, horders, hone, fun _ h => absurd h List.not_mem_nil⟩

theorem readers_run_session :
    getQuerys (writes strict ⟨.empty, .empty⟩ session) =
      [builtQuery (sales (ns "1")) (ns "orders") (ns "id") (ns "id") (ns "2")] :=
  (readers_run refusesFull_strict ⟨.empty, .empty⟩ clean_session).2.2.trans (by decide +kernel)

/-- What a write does to one database. -/
def changed (x : Obj_Database × Int) : Write → Obj_Database × Int
  | .updateHistory item => if x.1.dbId = item.dbId then (item, x.2) else x
  | .AddToHistory item => if x.1.dbId = item.dbId then (x.1, 1) else x
  | .DeleteFromHistory item => if x.1.dbId = item.dbId then (x.1, 0) else x
  | _ => x

/-- What a write does to one query; `none` if it deletes it. -/
def changedQuery (q : Obj_Query) : Write → Option Obj_Query
  | .updateBuildQuery item =>
    some (if q.query_Id = item.query_Id then
      { item with
        query_dbName := q.query_dbName
        query_showName := showName item.query_dbName item.query_tableName }
    else q)
  | .deleteBuildQuery item => if q.query_Id = item.query_Id then none else some q
  | _ => some q

theorem dbId_changed (x : Obj_Database × Int) (w : Write) : (changed x w).1.dbId = x.1.dbId := by
  unfold changed
  split
  · split
    · rename_i h; exact h.symm
    · rfl
  · split <;> rfl
  · split <;> rfl
  · rfl

theorem dbId_foldl (ws : List Write) (x : Obj_Database × Int) :
    (ws.foldl changed x).1.dbId = x.1.dbId := by
  induction ws generalizing x with
  | nil => rfl
  | cons w ws ih => rw [List.foldl_cons, ih, dbId_changed]

theorem queryId_changedQuery {q q' : Obj_Query} {w : Write} (h : changedQuery q w = some q') :
    q'.query_Id = q.query_Id := by
  unfold changedQuery at h
  split at h
  · obtain rfl := Option.some.inj h
    split
    · rename_i heq; exact heq.symm
    · rfl
  · split at h
    · cases h
    · obtain rfl := Option.some.inj h; rfl
  · obtain rfl := Option.some.inj h; rfl

/-- A record that is left keeps its id. -/
theorem queryIds_filterMap {f : Obj_Query → Option Obj_Query}
    (hf : ∀ q q', f q = some q' → q'.query_Id = q.query_Id) : ∀ l : List Obj_Query,
    ((l.filterMap f).map (·.query_Id)).Sublist (l.map (·.query_Id))
  | [] => List.Sublist.slnil
  | q :: l => by
    have ih := queryIds_filterMap hf l
    cases hq : f q with
    | none =>
      rw [List.filterMap_cons_none hq]
      exact ih.cons _
    | some q' =>
      rw [List.filterMap_cons_some hq, List.map_cons, List.map_cons, hf q q' hq]
      exact ih.cons_cons _

theorem queryId_foldlM : ∀ {ws : List Write} {q q' : Obj_Query}, ws.foldlM changedQuery q = some q' →
    q'.query_Id = q.query_Id
  | [], q, q', h => by
    rw [List.foldlM_nil] at h
    cases h
    rfl
  | w :: ws, q, q', h => by
    rw [List.foldlM_cons] at h
    obtain ⟨q₁, h₁, h₂⟩ := Option.bind_eq_some_iff.mp h
    rw [queryId_foldlM h₂, queryId_changedQuery h₁]

/-- Each record was changed by the writes with its id; the new ones came after
them, with the next ids; of the queries some were deleted. -/
structure Grown (ws : List Write) (r r' : Registry) : Prop where
  databases : ∃ n new, r'.lastDatabase = r.lastDatabase + n ∧
    r'.databases = r.databases.map (ws.foldl changed) ++ new ∧
    new.map (·.1.dbId) = (List.range' (r.lastDatabase + 1) n).map natText
  queries : ∃ n new, r'.lastQuery = r.lastQuery + n ∧
    r'.queries = r.queries.filterMap (fun q => ws.foldlM changedQuery q) ++ new ∧
    (new.map (·.query_Id)).Sublist ((List.range' (r.lastQuery + 1) n).map natText)

theorem foldlM_one (q : Obj_Query) (w : Write) : [w].foldlM changedQuery q = changedQuery q w := by
  simp

/-- No new database. -/
theorem databases_changed {r r' : Registry} {w : Write}
    (hd : r'.databases = r.databases.map fun x => changed x w)
    (hl : r'.lastDatabase = r.lastDatabase) :
    ∃ n new, r'.lastDatabase = r.lastDatabase + n ∧
      r'.databases = r.databases.map ([w].foldl changed) ++ new ∧
      new.map (·.1.dbId) = (List.range' (r.lastDatabase + 1) n).map natText :=
  ⟨0, [], hl, by rw [List.append_nil]; exact hd, rfl⟩

/-- No new query. -/
theorem queries_changed {r r' : Registry} {w : Write}
    (hq : r'.queries = r.queries.filterMap fun q => changedQuery q w)
    (hl : r'.lastQuery = r.lastQuery) :
    ∃ n new, r'.lastQuery = r.lastQuery + n ∧
      r'.queries = r.queries.filterMap (fun q => [w].foldlM changedQuery q) ++ new ∧
      (new.map (·.query_Id)).Sublist ((List.range' (r.lastQuery + 1) n).map natText) := by
  refine ⟨0, [], hl, ?_, List.Sublist.slnil⟩
  simp only [foldlM_one, List.append_nil]
  exact hq

theorem grown_apply (r : Registry) (w : Write) : Grown [w] r (r.apply w) := by
  have hsame : (∀ x, changed x w = x) → r.databases = r.databases.map fun x => changed x w := by
    intro h
    rw [List.map_congr_left fun x _ => h x, List.map_id']
  have hall : (∀ q, changedQuery q w = some q) →
      r.queries = r.queries.filterMap fun q => changedQuery q w := by
    intro h
    rw [funext h, List.filterMap_some]
  cases w with
  | insertIntoHistory item =>
    show Grown _ r (r.insertIntoHistory item)
    unfold Registry.insertIntoHistory
    split
    · refine ⟨⟨1, [({ item with dbId := natText (r.lastDatabase + 1) }, 1)], rfl, ?_, rfl⟩, ?_⟩
      · exact congrArg (· ++ _) (hsame fun _ => rfl)
      · exact queries_changed (hall fun _ => rfl) rfl
    · exact ⟨databases_changed (hsame fun _ => rfl) rfl, queries_changed (hall fun _ => rfl) rfl⟩
  | updateHistory item =>
    exact ⟨databases_changed rfl rfl, queries_changed (hall fun _ => rfl) rfl⟩
  | AddToHistory item =>
    exact ⟨databases_changed rfl rfl, queries_changed (hall fun _ => rfl) rfl⟩
  | DeleteFromHistory item =>
    exact ⟨databases_changed rfl rfl, queries_changed (hall fun _ => rfl) rfl⟩
  | insertBuildQuery item tableName columns searchRule =>
    show Grown _ r (r.insertBuildQuery item tableName columns searchRule)
    unfold Registry.insertBuildQuery
    split
    · refine ⟨databases_changed (hsame fun _ => rfl) rfl, ⟨1, [builtQuery item tableName columns
        searchRule (natText (r.lastQuery + 1))], rfl, ?_, List.Sublist.refl _⟩⟩
      simp only [foldlM_one]
      exact congrArg (· ++ _) (hall fun _ => rfl)
    · exact ⟨databases_changed (hsame fun _ => rfl) rfl, queries_changed (hall fun _ => rfl) rfl⟩
  | updateBuildQuery item =>
    refine ⟨databases_changed (hsame fun _ => rfl) rfl, queries_changed ?_ rfl⟩
    exact (congrFun List.filterMap_eq_map r.queries).symm
  | deleteBuildQuery item =>
    refine ⟨databases_changed (hsame fun _ => rfl) rfl, queries_changed ?_ rfl⟩
    show r.queries.filter _ = _
    rw [← List.filterMap_eq_filter]
    refine List.filterMap_congr fun q _ => ?_
    by_cases hq : q.query_Id = item.query_Id
    · simp [changedQuery, Option.guard, hq]
    · simp [changedQuery, Option.guard, hq]

theorem grown_trans {r r₁ r' : Registry} {w : Write} {ws : List Write} (h₁ : Grown [w] r r₁)
    (h₂ : Grown ws r₁ r') : Grown (w :: ws) r r' := by
  obtain ⟨⟨n₁, new₁, hl₁, hd₁, hi₁⟩, ⟨m₁, newq₁, hlq₁, hq₁, hiq₁⟩⟩ := h₁
  obtain ⟨⟨n₂, new₂, hl₂, hd₂, hi₂⟩, ⟨m₂, newq₂, hlq₂, hq₂, hiq₂⟩⟩ := h₂
  constructor
  · refine ⟨n₁ + n₂, new₁.map (ws.foldl changed) ++ new₂, by omega, ?_, ?_⟩
    · rw [hd₂, hd₁, List.map_append, List.map_map, List.append_assoc]
      rfl
    · have hids : (new₁.map (ws.foldl changed)).map (·.1.dbId) = new₁.map (·.1.dbId) := by
        rw [List.map_map]
        exact List.map_congr_left fun x _ => dbId_foldl ws x
      rw [List.map_append, hids, hi₁, hi₂, hl₁, ← List.map_append]
      rw [show r.lastDatabase + n₁ + 1 = r.lastDatabase + 1 + n₁ by omega, List.range'_append_1]
  · refine ⟨m₁ + m₂, newq₁.filterMap (fun q => ws.foldlM changedQuery q) ++ newq₂, by omega, ?_, ?_⟩
    · have hcons : ∀ q, (w :: ws).foldlM changedQuery q =
          ([w].foldlM changedQuery q).bind fun q' => ws.foldlM changedQuery q' := by
        intro q
        rw [foldlM_one, List.foldlM_cons]
        rfl
      rw [hq₂, hq₁, List.filterMap_append, List.filterMap_filterMap, List.append_assoc]
      simp only [hcons]
    · have hids := queryIds_filterMap (f := fun q => ws.foldlM changedQuery q)
        (fun q q' h => queryId_foldlM h) newq₁
      have happ := (hids.trans hiq₁).append hiq₂
      rw [hlq₁, show r.lastQuery + m₁ + 1 = r.lastQuery + 1 + m₁ by omega, ← List.map_append,
        ← List.map_append, List.range'_append_1] at happ
      exact happ

theorem grown_foldl : ∀ (ws : List Write) (r : Registry), Grown ws r (ws.foldl Registry.apply r)
  | [], r => by
    refine ⟨⟨0, [], rfl, ?_, rfl⟩, ⟨0, [], rfl, ?_, List.Sublist.slnil⟩⟩
    · simp
    · simp
  | w :: ws, r => grown_trans (grown_apply r w) (grown_foldl ws (r.apply w))

/-- **Records over a run.** Every database is still there, as the writes with its
id have left it, every query too unless it was deleted, each in its place; new
records come after them with ids that were never used. -/
theorem records_run (hfull : RefusesFull db) (st : Store) {ws : List Write}
    (h : ∀ w ∈ ws, Clean w) : Grown ws st.registry (writes db st ws).registry := by
  rw [registry_writes hfull st h]
  exact grown_foldl ws st.registry

theorem records_run_session : Grown session (Store.registry ⟨.empty, .empty⟩)
    (writes strict ⟨.empty, .empty⟩ session).registry :=
  records_run refusesFull_strict ⟨.empty, .empty⟩ clean_session

end MysqlConnection.L2.DBConnector
