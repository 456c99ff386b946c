import MysqlConnection.L2Store.DBConnector

/-!
# What is saved is what is read back

The writers put raw field texts between apostrophes. A field without an
apostrophe and NUL is read as it is (`Plain`), so what is documented for the
statement gives the record back. Any other field ends its literal early: what
SQLite then reads there is another value, or no statement at all, and some
engine that does what is documented does not give the record back.

* `Inserted…`, `Updated…`: the record is read back, next to all others.
* `readBack_iff`: when the four writers do so on every such engine.
* `lost_description`: a description with an apostrophe.
-/
namespace MysqlConnection.L2.DBConnector

open Sql

/-! ## The texts as statements -/

/-- The texts of a record by their columns. -/
def historyFields (item : Obj_Database) : List (Text × Text) :=
  [(ns "HostName", item.dbHost), (ns "UserName", item.dbUserName), (ns "Password", item.dbPasswd),
    (ns "dbName", item.dbName), (ns "dbPort", item.dbPort), (ns "Description", item.dbDescription),
    (ns "DateTime", item.dbDateStr)]

/-- What both writers of a query put between apostrophes. -/
def queryFields (dbName tableName columns searchRule : NSString) : List (Text × Text) :=
  [(ns "tableName", tableName), (ns "columns", columns), (ns "SearchRule", searchRule),
    (ns "ShowName", showName dbName tableName)]

theorem insertIntoHistory_query_eq (item : Obj_Database) :
    insertIntoHistory_query item =
      ns "insert into History (HostName,UserName,Password,dbName,dbPort,Description,DateTime,flag) values(" ++
        quoted item.dbHost (moreValues ((historyFields item).tail.map (·.2)) (ns ",1)")) := by
  have hhead : ns "insert into History (HostName,UserName,Password,dbName,dbPort,Description,DateTime,flag) values('" =
      ns "insert into History (HostName,UserName,Password,dbName,dbPort,Description,DateTime,flag) values(" ++
        ['\''] := by decide +kernel
  have hsep : ns "','" = '\'' :: ',' :: ['\''] := rfl
  have htail : ns "',1)" = '\'' :: ns ",1)" := rfl
  rw [insertIntoHistory_query, hhead, hsep, htail]
  simp only [historyFields, List.tail_cons, List.map_cons, List.map_nil, moreValues, quoted,
    List.append_assoc, List.cons_append, List.nil_append]

theorem updateHistory_query_eq (item : Obj_Database) :
    updateHistory_query item = ns "update History set HostName = " ++
      quoted item.dbHost (moreSets (historyFields item).tail (whereHead (ns "dbID") ++ item.dbId)) := by
  have hhead : ns "update History set HostName = '" = ns "update History set HostName = " ++ ['\''] :=
    by decide +kernel
  have hUserName : ns "',UserName = '" = '\'' :: (setHead (ns "UserName") ++ ['\'']) := by decide
  have hPassword : ns "',Password = '" = '\'' :: (setHead (ns "Password") ++ ['\'']) := by decide
  have hdbName : ns "',dbName = '" = '\'' :: (setHead (ns "dbName") ++ ['\'']) := by decide
  have hdbPort : ns "',dbPort = '" = '\'' :: (setHead (ns "dbPort") ++ ['\'']) := by decide
  have hDescription : ns "',Description = '" = '\'' :: (setHead (ns "Description") ++ ['\'']) := by
    decide
  have hDateTime : ns "',DateTime = '" = '\'' :: (setHead (ns "DateTime") ++ ['\'']) := by decide
  have hwhere : ns "' where dbID = " = '\'' :: whereHead (ns "dbID") := by decide
  rw [updateHistory_query, hhead, hUserName, hPassword, hdbName, hdbPort, hDescription, hDateTime,
    hwhere]
  simp only [historyFields, List.tail_cons, moreSets, quoted, List.append_assoc, List.cons_append,
    List.nil_append]

/-- The columns of an insertion after the first. -/
def historyColumns : List NSString :=
  [ns "UserName", ns "Password", ns "dbName", ns "dbPort", ns "Description", ns "DateTime", ns "flag"]

theorem opens_insertHistory :
    Opens (ns "insert into History (HostName,UserName,Password,dbName,dbPort,Description,DateTime,flag) values(")
      (insertTokens (ns "History") (ns "HostName") historyColumns) := by
  decide +kernel

theorem opens_updateHistory :
    Opens (ns "update History set HostName = ") (updateTokens (ns "History") (ns "HostName")) := by
  decide

theorem opens_whereHistory :
    Opens (whereHead (ns "dbID")) [.word (ns "where"), .word (ns "dbID"), .sign '='] := by
  decide

theorem isName_historyFields (item : Obj_Database) :
    ∀ x ∈ (historyFields item).tail, IsName x.1 := by
  have h : ∀ c ∈ historyColumns, IsName c := by decide +kernel
  intro x hx
  refine h x.1 ?_
  have hm : x.1 ∈ (historyFields item).tail.map (·.1) := List.mem_map_of_mem hx
  have hsub : (historyFields item).tail.map (·.1) <+: historyColumns := ⟨[ns "flag"], rfl⟩
  exact hsub.subset hm

/-- What an insertion of clean fields is. -/
theorem read_insertIntoHistory {item : Obj_Database} (hf : ∀ x ∈ historyFields item, Plain x.2) :
    readStatement (insertIntoHistory_query item) =
      some (.insert (ns "History") (ns "HostName" :: historyColumns)
        ((historyFields item).map (fun x => .text x.2) ++ [.int 1])) := by
  have htail : Follows (ns ",1)") := ⟨',', _, rfl, by decide, by decide⟩
  have hone : readValues (ns ",1)") = some [.int 1] := by decide
  have hhost : Plain item.dbHost := hf (ns "HostName", item.dbHost) List.mem_cons_self
  have hrest : ∀ f ∈ (historyFields item).tail.map (·.2), Plain f := by
    intro f hm
    obtain ⟨x, hx, rfl⟩ := List.mem_map.mp hm
    exact hf x (List.mem_of_mem_tail hx)
  rw [insertIntoHistory_query_eq, readStatement_insert opens_insertHistory hhost
    (follows_moreValues htail _), readValues_more htail hrest, hone]
  rfl

/-- What an update with clean fields is. -/
theorem read_updateHistory {item : Obj_Database} (hf : ∀ x ∈ historyFields item, Plain x.2)
    {k : RowId} (hk : item.dbId = natText k.val) :
    readStatement (updateHistory_query item) =
      some (.update (ns "History") (literals (historyFields item)) (some (ns "dbID", .int k.val))) := by
  have hwhere : readSets (whereHead (ns "dbID") ++ item.dbId) =
      some ([], some (ns "dbID", .int k.val)) := by
    rw [hk, ← intText_natCast]
    exact readSets_where opens_whereHistory k.natAbs_le
  have hhost : Plain item.dbHost := hf (ns "HostName", item.dbHost) List.mem_cons_self
  have htail := follows_whereHead (ns "dbID") item.dbId
  have hrest : ∀ x ∈ (historyFields item).tail, Plain x.2 :=
    fun x hx => hf x (List.mem_of_mem_tail hx)
  rw [updateHistory_query_eq, readStatement_update opens_updateHistory hhost
    (follows_moreSets htail _), readSets_more htail (isName_historyFields item) hrest, hwhere]
  rfl

/-! ## Rows -/

theorem readDatabase_eq_iff {r : Row} {item : Obj_Database} :
    readDatabase r = item ↔
      natText r.id.val = item.dbId ∧ ∀ x ∈ historyFields item, r.text x.1 = x.2 := by
  constructor
  · intro h
    subst h
    refine ⟨rfl, ?_⟩
    simp [historyFields, readDatabase]
  · intro h
    obtain ⟨hid, h⟩ := h
    simp only [historyFields, List.forall_mem_cons] at h
    obtain ⟨h1, h2, h3, h4, h5, h6, h7, -⟩ := h
    cases item
    simp only [readDatabase, hid, h1, h2, h3, h4, h5, h6, h7]

/-! ## Databases -/

/-- Saving a new database adds one record. -/
def InsertedHistory (db : Sqlite) (st : Store) (item : Obj_Database) : Prop :=
  ∃ dbId, getHistoryArray (insertIntoHistory db st item) =
      getHistoryArray st ++ [{ item with dbId := dbId }] ∧
    getDeletedArray (insertIntoHistory db st item) = getDeletedArray st

/-- The cells of a new row. -/
def historyCells (item : Obj_Database) : Assignments :=
  literals (historyFields item) ++ [(ns "flag", .int 1)]

theorem nodup_historyCells (item : Obj_Database) : ((historyCells item).map (·.1)).Nodup := by
  show (ns "HostName" :: historyColumns).Nodup
  decide

theorem mem_literals {l : List (Text × Text)} {x : Text × Text} (h : x ∈ l) :
    (x.1, .text x.2) ∈ literals l :=
  List.mem_map_of_mem h

theorem flagged_append {st st' : Store} {r : Row} (h : st'.history.rows = st.history.rows ++ [r])
    (flag : Int) :
    flagged st' flag = flagged st flag ++ if r.int (ns "flag") = flag then [r] else [] := by
  rw [flagged, h, List.filter_append, flagged]
  by_cases hf : r.int (ns "flag") = flag
  · simp [hf]
  · simp [hf]

/-- A clean insertion adds one row. -/
theorem insertIntoHistory_rows {item : Obj_Database} (hf : ∀ x ∈ historyFields item, Plain x.2)
    {st : Store} (hs : st.history.seq < maxInt) (db : Sqlite) :
    ∃ t r, insertIntoHistory db st item = { st with history := t } ∧
      t.rows = st.history.rows ++ [assign (historyCells item) r] := by
  have hkinds : (ns "HostName" :: historyColumns).zip
      (((historyFields item).map (fun x : Text × Text => Const.text x.2) ++ [Const.int 1]).map
        Const.kind) =
        historySchema.columns := rfl
  obtain ⟨t, ht⟩ := insert_isSome hkinds rfl hs
  obtain ⟨-, -, -, r, -, hrows⟩ := insert_inv ht
  refine ⟨t, r, ?_, hrows⟩
  apply executeUpdate_of_read db (read_insertIntoHistory hf)
  rw [apply_history rfl]
  exact congrArg (Option.map _) ht

theorem insertedHistory_of_plain {item : Obj_Database} (hf : ∀ x ∈ historyFields item, Plain x.2)
    {st : Store} (hs : st.history.seq < maxInt) (db : Sqlite) : InsertedHistory db st item := by
  obtain ⟨t, r, hst, hrows⟩ := insertIntoHistory_rows hf hs db
  have hn := nodup_historyCells item
  have hflag : (assign (historyCells item) r).int (ns "flag") = 1 :=
    int_assign hn (List.mem_append_right _ List.mem_cons_self) r
  have hread : readDatabase (assign (historyCells item) r) =
      { item with dbId := natText r.id.val } := by
    rw [readDatabase_eq_iff]
    refine ⟨rfl, fun x hx => ?_⟩
    exact text_assign hn (List.mem_append_left _ (mem_literals hx)) r
  have happ : (insertIntoHistory db st item).history.rows =
      st.history.rows ++ [assign (historyCells item) r] := by
    rw [hst]; exact hrows
  refine ⟨natText r.id.val, ?_, ?_⟩
  · rw [getHistoryArray, flagged_append happ, if_pos hflag, List.map_append, List.map_singleton, hread]
    rfl
  · have h0 : (assign (historyCells item) r).int (ns "flag") ≠ 0 := by
      rw [hflag]; decide
    rw [getDeletedArray, flagged_append happ, if_neg h0, List.append_nil]
    rfl

theorem plain_of_insertedHistory {item : Obj_Database} {st : Store}
    (h : InsertedHistory strict st item) :
    (∀ x ∈ historyFields item, Plain x.2) ∧ st.history.seq < maxInt := by
  obtain ⟨dbId, hadd, -⟩ := h
  rcases executeUpdate_strict st (insertIntoHistory_query item) with hsame | ⟨stmt, hr, ha⟩
  · rw [insertIntoHistory, hsame] at hadd
    simp at hadd
  · have htail : Follows (ns ",1)") := ⟨',', _, rfl, by decide, by decide⟩
    rw [insertIntoHistory_query_eq] at hr
    obtain ⟨v, vs, rfl, hplain⟩ := readStatement_insert_inv opens_insertHistory
      (follows_moreValues htail _) hr
    rw [apply_history rfl, Option.map_eq_some_iff] at ha
    obtain ⟨t, ht, hst⟩ := ha
    obtain ⟨-, hl, hs, r, -, hrows⟩ := insert_inv ht
    refine ⟨?_, hs⟩
    have happ : (insertIntoHistory strict st item).history.rows = st.history.rows ++
        [assign ((ns "HostName" :: historyColumns).zip (.text v :: vs)) r] := by
      rw [insertIntoHistory, ← hst]; exact hrows
    generalize hz : (ns "HostName" :: historyColumns).zip (.text v :: vs) = sets at happ
    -- the new row is the record that was read back
    have hread : readDatabase (assign sets r) = { item with dbId := dbId } := by
      rw [getHistoryArray, flagged_append happ, List.map_append] at hadd
      have hlast := List.append_cancel_left hadd
      split at hlast
      · simpa using hlast
      · cases hlast
    have htext : ∀ x ∈ historyFields item, (assign sets r).text x.1 = x.2 :=
      (readDatabase_eq_iff.mp hread).2
    have hn : (sets.map (·.1)).Nodup := by
      rw [← hz, List.map_fst_zip (Nat.le_of_eq hl.symm)]
      decide
    have hag := agrees_of_assign hn htext
    have hv : v = item.dbHost := by
      refine hag (ns "HostName") item.dbHost v List.mem_cons_self ?_
      rw [← hz]
      exact List.mem_cons_self
    obtain ⟨hhost, hvs⟩ := hplain hv
    have hrest := plain_of_readValues htail [ns "flag"] hvs ?_
    · intro x hx
      rcases List.mem_cons.mp hx with rfl | hx
      · exact hhost
      · exact hrest x hx
    · intro c f w hc hw
      refine hag c f w (List.mem_cons_of_mem _ hc) ?_
      rw [← hz]
      exact List.mem_cons_of_mem _ hw

/-- A record that was connected is read back with the saved texts. -/
def UpdatedHistory (db : Sqlite) (st : Store) (item : Obj_Database) (k : RowId) : Prop :=
  (∃ r ∈ flagged st 1, r.id = k) → item ∈ getHistoryArray (updateHistory db st item)

theorem assigns_history (item : Obj_Database) :
    historySchema.Assigns (literals (historyFields item)) := by
  have hn : (ns "HostName" :: historyColumns.dropLast).Nodup := by decide
  have hk : ∀ c ∈ ns "HostName" :: historyColumns.dropLast, (c, Kind.text) ∈ historySchema.columns := by
    decide
  refine ⟨hn, fun x hx => ?_⟩
  obtain ⟨y, hy, rfl⟩ := List.mem_map.mp hx
  exact hk y.1 (List.mem_map_of_mem hy)

/-- A clean update assigns the texts to its row. -/
theorem updateHistory_rows {item : Obj_Database} (hf : ∀ x ∈ historyFields item, Plain x.2)
    {k : RowId} (hk : item.dbId = natText k.val) (db : Sqlite) (st : Store) :
    ∃ t, updateHistory db st item = { st with history := t } ∧
      t.rows = st.history.rows.map fun r =>
        if hit (some (ns "dbID", .int k.val)) r then assign (literals (historyFields item)) r else r := by
  have hsel : historySchema.Selects (some (ns "dbID", .int k.val)) := rfl
  obtain ⟨t, ht⟩ := update_isSome (assigns_history item) hsel st.history
  refine ⟨t, ?_, (update_inv ht).2.2⟩
  apply executeUpdate_of_read db (read_updateHistory hf hk)
  rw [apply_history rfl]
  exact congrArg (Option.map _) ht

theorem updatedHistory_of_plain {item : Obj_Database} (hf : ∀ x ∈ historyFields item, Plain x.2)
    {k : RowId} (hk : item.dbId = natText k.val) (db : Sqlite) (st : Store) :
    UpdatedHistory db st item k := by
  intro hex
  obtain ⟨r, hr, hid⟩ := hex
  obtain ⟨t, hst, hrows⟩ := updateHistory_rows hf hk db st
  have ha := assigns_history item
  obtain ⟨hmem, hflag⟩ := List.mem_filter.mp hr
  have hhit : hit (some (ns "dbID", .int k.val)) r = true := by
    simp only [hit, hid, decide_true]
  refine List.mem_map.mpr ⟨assign (literals (historyFields item)) r, ?_, ?_⟩
  · refine List.mem_filter.mpr ⟨?_, ?_⟩
    · rw [hst]
      show _ ∈ t.rows
      rw [hrows]
      exact List.mem_map.mpr ⟨r, hmem, if_pos hhit⟩
    · have hno : ns "flag" ∉ (literals (historyFields item)).map (·.1) := by
        show ns "flag" ∉ ns "HostName" :: historyColumns.dropLast
        decide
      rw [(assign_of_not_mem hno r).2]
      exact hflag
  · rw [readDatabase_eq_iff]
    refine ⟨?_, fun x hx => text_assign ha.1 (mem_literals hx) r⟩
    show natText r.id.val = item.dbId
    rw [hid, hk]

theorem plain_of_updatedHistory {item : Obj_Database} {k : RowId}
    (h : ∀ st, UpdatedHistory strict st item k) : ∀ x ∈ historyFields item, Plain x.2 := by
  -- a store with one row, whose texts are others
  let old : Row := ⟨k, fun _ => 'x' :: item.dbHost, fun _ => 1⟩
  have hold : readDatabase old ≠ item := by
    intro heq
    have hhost : 'x' :: item.dbHost = item.dbHost := congrArg Obj_Database.dbHost heq
    have := congrArg List.length hhost
    simp at this
  let st : Store := ⟨.single old, .single old⟩
  have hmem := h st ⟨old, by simp [flagged, st, Table.single, old], rfl⟩
  rcases executeUpdate_strict st (updateHistory_query item) with hsame | ⟨stmt, hr, ha⟩
  · rw [updateHistory, hsame] at hmem
    simp [getHistoryArray, flagged, st, Table.single, old] at hmem
    exact absurd hmem.symm hold
  · have htail := follows_whereHead (ns "dbID") item.dbId
    rw [updateHistory_query_eq] at hr
    obtain ⟨v, ss, cond, rfl, hplain⟩ := readStatement_update_inv opens_updateHistory
      (follows_moreSets htail _) hr
    rw [apply_history rfl, Option.map_eq_some_iff] at ha
    obtain ⟨t, ht, hst⟩ := ha
    have has := (update_inv ht).1
    rw [updateHistory, ← hst] at hmem
    obtain ⟨r, hr', hread⟩ := List.mem_map.mp hmem
    rcases mem_update_single ht (List.mem_of_mem_filter hr') with rfl | rfl
    · exact absurd hread hold
    · have htext := (readDatabase_eq_iff.mp hread).2
      have hag := agrees_of_assign has.1 htext
      have hv : v = item.dbHost := hag (ns "HostName") item.dbHost v List.mem_cons_self List.mem_cons_self
      obtain ⟨hhost, hss⟩ := hplain hv
      have hrest := plain_of_readSets htail (isName_historyFields item) hss fun c f w hc hw =>
        hag c f w (List.mem_cons_of_mem _ hc) (List.mem_cons_of_mem _ hw)
      intro x hx
      rcases List.mem_cons.mp hx with rfl | hx
      · exact hhost
      · exact hrest x hx

/-! ## Queries -/

theorem insertBuildQuery_query_eq (item : Obj_Database) (tableName columns searchRule : NSString) :
    insertBuildQuery_query item tableName columns searchRule =
      ns "insert into Query (dbID,tableName,columns,SearchRule,ShowName,DBName) values(" ++
        (intText (intValue item.dbId) ++
          moreValues ((queryFields item.dbName tableName columns searchRule ++
            [(ns "DBName", item.dbName)]).map (·.2)) (ns ")")) := by
  have hfirst : ns ",'" = ',' :: ['\''] := rfl
  have hsep : ns "','" = '\'' :: ',' :: ['\''] := rfl
  have htail : ns "')" = '\'' :: ns ")" := rfl
  rw [insertBuildQuery_query, hfirst, hsep, htail]
  simp only [queryFields, List.map_cons, List.map_nil, moreValues, quoted, List.append_assoc,
    List.cons_append, List.nil_append]

theorem updateBuildQuery_query_eq (item : Obj_Query) :
    updateBuildQuery_query item = ns "update Query set dbID = " ++ (item.query_dbId ++
      moreSets (queryFields item.query_dbName item.query_tableName item.query_columns
        item.query_searchRule) (whereHead (ns "QueryId") ++ item.query_Id)) := by
  have htableName : ns ",tableName = '" = setHead (ns "tableName") ++ ['\''] := by decide
  have hcolumns : ns "',columns = '" = '\'' :: (setHead (ns "columns") ++ ['\'']) := by decide
  have hSearchRule : ns "',SearchRule = '" = '\'' :: (setHead (ns "SearchRule") ++ ['\'']) := by
    decide
  have hShowName : ns "',ShowName = '" = '\'' :: (setHead (ns "ShowName") ++ ['\'']) := by decide
  have hwhere : ns "' where QueryId = " = '\'' :: whereHead (ns "QueryId") := by decide
  rw [updateBuildQuery_query, htableName, hcolumns, hSearchRule, hShowName, hwhere]
  simp only [queryFields, moreSets, quoted, List.append_assoc, List.cons_append, List.nil_append]

def queryColumns : List NSString :=
  [ns "tableName", ns "columns", ns "SearchRule", ns "ShowName", ns "DBName"]

theorem opens_insertQuery :
    Opens (ns "insert into Query (dbID,tableName,columns,SearchRule,ShowName,DBName) values(")
      (insertTokens (ns "Query") (ns "dbID") queryColumns) := by
  decide +kernel

theorem opens_updateQuery :
    Opens (ns "update Query set dbID = ") (updateTokens (ns "Query") (ns "dbID")) := by
  decide

theorem opens_whereQuery :
    Opens (whereHead (ns "QueryId")) [.word (ns "where"), .word (ns "QueryId"), .sign '='] := by
  decide

theorem isName_queryFields (dbName tableName columns searchRule : NSString) :
    ∀ x ∈ queryFields dbName tableName columns searchRule, IsName x.1 := by
  have h : ∀ c ∈ queryColumns, IsName c := by decide +kernel
  intro x hx
  have hm : x.1 ∈ (queryFields dbName tableName columns searchRule).map (·.1) :=
    List.mem_map_of_mem hx
  have hsub : (queryFields dbName tableName columns searchRule).map (·.1) <+: queryColumns :=
    ⟨[ns "DBName"], rfl⟩
  exact h x.1 (hsub.subset hm)

theorem plain_append {f g : Text} : Plain (f ++ g) ↔ Plain f ∧ Plain g := by
  simp only [Plain, List.mem_append, not_or]
  exact ⟨fun h => ⟨⟨h.1.1, h.2.1⟩, h.1.2, h.2.2⟩, fun h => ⟨⟨h.1.1, h.2.1⟩, h.1.2, h.2.2⟩⟩

/-- `ShowName` adds nothing to what the other texts must meet. -/
theorem plain_queryFields {dbName tableName columns searchRule : NSString} :
    ((∀ x ∈ queryFields dbName tableName columns searchRule, Plain x.2) ∧ Plain dbName) ↔
      ∀ f ∈ [tableName, columns, searchRule, dbName], Plain f := by
  have h1 : Plain (ns "->") := by decide
  have h2 : Plain (ns "->Search") := by decide
  simp only [queryFields, showName, List.forall_mem_cons, plain_append, h1, h2, and_true,
    List.not_mem_nil, false_implies, implies_true]
  constructor
  · intro h
    exact ⟨h.1.1, h.1.2.1, h.1.2.2.1, h.2⟩
  · intro h
    exact ⟨⟨h.1, h.2.1, h.2.2.1, h.2.2.2, h.1⟩, h.2.2.2⟩

theorem readQuery_eq_iff {r : Row} {q : Obj_Query} :
    readQuery r = q ↔ natText r.id.val = q.query_Id ∧ intText (r.int (ns "dbID")) = q.query_dbId ∧
      r.text (ns "DBName") = q.query_dbName ∧
      r.text (ns "tableName") = q.query_tableName ∧ r.text (ns "columns") = q.query_columns ∧
      r.text (ns "SearchRule") = q.query_searchRule ∧ r.text (ns "ShowName") = q.query_showName := by
  constructor
  · intro h
    subst h
    exact ⟨rfl, rfl, rfl, rfl, rfl, rfl, rfl⟩
  · intro h
    obtain ⟨h1, h2, h3, h4, h5, h6, h7⟩ := h
    cases q
    simp only [readQuery, h1, h2, h3, h4, h5, h6, h7]

/-- The record of a new query. -/
def builtQuery (item : Obj_Database) (tableName columns searchRule query_Id : NSString) : Obj_Query where
  query_Id := query_Id
  query_dbId := intText (intValue item.dbId)
  query_dbName := item.dbName
  query_tableName := tableName
  query_columns := columns
  query_searchRule := searchRule
  query_showName := showName item.dbName tableName

/-- Saving a new query adds one record. -/
def InsertedQuery (db : Sqlite) (st : Store) (item : Obj_Database)
    (tableName columns searchRule : NSString) : Prop :=
  ∃ query_Id, getQuerys (insertBuildQuery db st item tableName columns searchRule) =
    getQuerys st ++ [builtQuery item tableName columns searchRule query_Id]

theorem natAbs_intValue_le (s : NSString) : (intValue s).natAbs ≤ maxInt := by
  have h := intValue_bounds s
  have hm : maxInt = 9223372036854775807 := by decide
  omega

theorem getQuerys_append {st st' : Store} {r : Row} (h : st'.query.rows = st.query.rows ++ [r]) :
    getQuerys st' = getQuerys st ++ [readQuery r] := by
  rw [getQuerys, h, List.map_append]; rfl

section
variable {item : Obj_Database} {tableName columns searchRule : NSString}

/-- The cells of a new row. -/
def queryCells (item : Obj_Database) (tableName columns searchRule : NSString) : Assignments :=
  (ns "dbID", .int (intValue item.dbId)) :: literals
    (queryFields item.dbName tableName columns searchRule ++ [(ns "DBName", item.dbName)])

theorem nodup_queryCells : ((queryCells item tableName columns searchRule).map (·.1)).Nodup := by
  show (ns "dbID" :: queryColumns).Nodup
  decide

theorem follows_close : Follows (ns ")") := ⟨')', _, rfl, by decide, by decide⟩

theorem stops_close : Stops (ns ")") := ⟨')', _, rfl, by decide, by decide⟩

/-- What an insertion of clean fields is. -/
theorem read_insertBuildQuery (hf : ∀ f ∈ [tableName, columns, searchRule, item.dbName], Plain f) :
    readStatement (insertBuildQuery_query item tableName columns searchRule) =
      some (.insert (ns "Query") (ns "dbID" :: queryColumns)
        ((queryCells item tableName columns searchRule).map (·.2))) := by
  obtain ⟨hfields, hname⟩ := plain_queryFields.mpr hf
  have hall : ∀ f ∈ (queryFields item.dbName tableName columns searchRule ++
      [(ns "DBName", item.dbName)]).map (·.2), Plain f := by
    intro f hm
    obtain ⟨x, hx, rfl⟩ := List.mem_map.mp hm
    rcases List.mem_append.mp hx with hx | hx
    · exact hfields x hx
    · rw [List.mem_singleton.mp hx]; exact hname
  have hnone : readValues (ns ")") = some [] := by decide
  rw [insertBuildQuery_query_eq, readStatement_insertInt opens_insertQuery
    (natAbs_intValue_le item.dbId) (stops_moreValues stops_close _), readValues_more follows_close hall,
    hnone]
  rfl

/-- A clean insertion adds one row, with the next id. -/
theorem insertBuildQuery_rows (hf : ∀ f ∈ [tableName, columns, searchRule, item.dbName], Plain f)
    {st : Store} (hs : st.query.seq < maxInt) (db : Sqlite) :
    ∃ t r, insertBuildQuery db st item tableName columns searchRule = { st with query := t } ∧
      t.rows = st.query.rows ++ [assign (queryCells item tableName columns searchRule) r] ∧
      r.id.val = st.query.seq + 1 := by
  have hkinds : (ns "dbID" :: queryColumns).zip
      (((queryCells item tableName columns searchRule).map (·.2)).map Const.kind) =
        querySchema.columns := rfl
  obtain ⟨t, ht⟩ := insert_isSome hkinds rfl hs
  obtain ⟨-, -, -, r, hid, hrows⟩ := insert_inv ht
  refine ⟨t, r, ?_, hrows, hid⟩
  apply executeUpdate_of_read db (read_insertBuildQuery hf)
  rw [apply_query rfl]
  exact congrArg (Option.map _) ht

/-- The new row as it is read. -/
theorem readQuery_queryCells (r : Row) :
    readQuery (assign (queryCells item tableName columns searchRule) r) =
      builtQuery item tableName columns searchRule (natText r.id.val) := by
  rw [readQuery_eq_iff]
  have hn : ((queryCells item tableName columns searchRule).map (·.1)).Nodup := nodup_queryCells
  have htext : ∀ c v, (c, Const.text v) ∈ queryCells item tableName columns searchRule →
      (assign (queryCells item tableName columns searchRule) r).text c = v :=
    fun c v h => text_assign hn h r
  refine ⟨rfl, ?_, htext _ _ ?_, htext _ _ ?_, htext _ _ ?_, htext _ _ ?_, htext _ _ ?_⟩
  · exact congrArg intText (int_assign hn List.mem_cons_self r)
  all_goals simp [queryCells, literals, queryFields, builtQuery]

theorem insertedQuery_of_plain (hf : ∀ f ∈ [tableName, columns, searchRule, item.dbName], Plain f)
    {st : Store} (hs : st.query.seq < maxInt) (db : Sqlite) :
    InsertedQuery db st item tableName columns searchRule := by
  obtain ⟨t, r, hst, hrows, -⟩ := insertBuildQuery_rows hf hs db
  have happ : (insertBuildQuery db st item tableName columns searchRule).query.rows =
      st.query.rows ++ [assign (queryCells item tableName columns searchRule) r] := by
    rw [hst]; exact hrows
  refine ⟨natText r.id.val, ?_⟩
  rw [getQuerys_append happ, readQuery_queryCells]

theorem plain_of_insertedQuery {st : Store}
    (h : InsertedQuery strict st item tableName columns searchRule) :
    (∀ f ∈ [tableName, columns, searchRule, item.dbName], Plain f) ∧ st.query.seq < maxInt := by
  obtain ⟨query_Id, hadd⟩ := h
  rcases executeUpdate_strict st (insertBuildQuery_query item tableName columns searchRule)
    with hsame | ⟨stmt, hr, ha⟩
  · rw [insertBuildQuery, hsame] at hadd
    simp at hadd
  · rw [insertBuildQuery_query_eq, readStatement_insertInt opens_insertQuery
      (natAbs_intValue_le item.dbId) (stops_moreValues stops_close _), Option.map_eq_some_iff] at hr
    obtain ⟨vs, hvs, rfl⟩ := hr
    rw [apply_query rfl, Option.map_eq_some_iff] at ha
    obtain ⟨t, ht, hst⟩ := ha
    obtain ⟨-, hl, hs, r, -, hrows⟩ := insert_inv ht
    refine ⟨plain_queryFields.mp ?_, hs⟩
    have happ : (insertBuildQuery strict st item tableName columns searchRule).query.rows =
        st.query.rows ++
          [assign ((ns "dbID" :: queryColumns).zip (.int (intValue item.dbId) :: vs)) r] := by
      rw [insertBuildQuery, ← hst]; exact hrows
    generalize hz : (ns "dbID" :: queryColumns).zip (.int (intValue item.dbId) :: vs) = sets at happ
    rw [getQuerys_append happ] at hadd
    have hread : readQuery (assign sets r) = builtQuery item tableName columns searchRule query_Id := by
      simpa using List.append_cancel_left hadd
    obtain ⟨-, -, hname, htable, hcols, hrule, hshow⟩ := readQuery_eq_iff.mp hread
    have htext : ∀ x ∈ queryFields item.dbName tableName columns searchRule ++
        [(ns "DBName", item.dbName)], (assign sets r).text x.1 = x.2 := by
      simp only [queryFields, List.cons_append, List.nil_append, List.forall_mem_cons]
      exact ⟨htable, hcols, hrule, hshow, hname, by simp⟩
    have hn : (sets.map (·.1)).Nodup := by
      rw [← hz, List.map_fst_zip (Nat.le_of_eq hl.symm)]
      decide
    have hag := agrees_of_assign hn htext
    have hplain := plain_of_readValues follows_close [] hvs fun c f w hc hw => by
      refine hag c f w hc ?_
      rw [← hz]
      exact List.mem_cons_of_mem _ hw
    refine ⟨fun x hx => hplain x (List.mem_append_left _ hx), ?_⟩
    exact hplain (ns "DBName", item.dbName) (List.mem_append_right _ List.mem_cons_self)

end

/-- A stored query is read back as it was saved; its `ShowName` is the one
computed for it. -/
def UpdatedQuery (db : Sqlite) (st : Store) (item : Obj_Query) (k : RowId) (dbName : NSString) : Prop :=
  (∃ r ∈ st.query.rows, r.id = k ∧ r.text (ns "DBName") = dbName) →
    { item with query_showName := showName item.query_dbName item.query_tableName } ∈
      getQuerys (updateBuildQuery db st item)

/-- Clean texts, an integer as the id of the database, and the stored name of
the database, which an update leaves alone. -/
structure Rewrites (item : Obj_Query) (dbName : NSString) : Prop where
  plain : ∀ f ∈ [item.query_tableName, item.query_columns, item.query_searchRule, item.query_dbName],
    Plain f
  dbId : ∃ i : Int, i.natAbs ≤ maxInt ∧ item.query_dbId = intText i
  dbName : item.query_dbName = dbName

section
variable {item : Obj_Query} {k : RowId}

/-- The texts an update assigns. -/
abbrev updateFields (item : Obj_Query) : List (Text × Text) :=
  queryFields item.query_dbName item.query_tableName item.query_columns item.query_searchRule

/-- The name of the database is part of the name of the query. -/
theorem plain_dbName (hf : ∀ x ∈ updateFields item, Plain x.2) : Plain item.query_dbName := by
  have hs := hf (ns "ShowName", showName item.query_dbName item.query_tableName)
    (by simp [queryFields])
  simp only [showName, plain_append] at hs
  exact hs.1.1.1

/-- What an update with clean fields is. -/
theorem read_updateBuildQuery (hf : ∀ x ∈ updateFields item, Plain x.2) {i : Int}
    (hi : i.natAbs ≤ maxInt) (hdbId : item.query_dbId = intText i) (hk : item.query_Id = natText k.val) :
    readStatement (updateBuildQuery_query item) =
      some (.update (ns "Query") ((ns "dbID", .int i) :: literals (updateFields item))
        (some (ns "QueryId", .int k.val))) := by
  have hwhere : readSets (whereHead (ns "QueryId") ++ item.query_Id) =
      some ([], some (ns "QueryId", .int k.val)) := by
    rw [hk, ← intText_natCast]
    exact readSets_where opens_whereQuery k.natAbs_le
  rw [updateBuildQuery_query_eq, hdbId, readStatement_updateInt opens_updateQuery
    (stops_moreSets (stops_whereHead _ _) _), if_pos hi,
    readSets_more (follows_whereHead _ _) (isName_queryFields _ _ _ _) hf, hwhere]
  rfl

theorem assigns_query (item : Obj_Query) (i : Int) :
    querySchema.Assigns ((ns "dbID", .int i) :: literals (updateFields item)) := by
  have hn : (ns "dbID" :: queryColumns.dropLast).Nodup := by decide
  have hk : ∀ c ∈ queryColumns.dropLast, (c, Kind.text) ∈ querySchema.columns := by decide
  refine ⟨hn, fun x hx => ?_⟩
  rcases List.mem_cons.mp hx with rfl | hx
  · exact List.mem_cons_self
  · obtain ⟨y, hy, rfl⟩ := List.mem_map.mp hx
    exact hk y.1 (List.mem_map_of_mem (f := (·.1)) hy)

/-- A clean update assigns the id and the texts to its row. -/
theorem updateBuildQuery_rows (hf : ∀ x ∈ updateFields item, Plain x.2) {i : Int}
    (hi : i.natAbs ≤ maxInt) (hdbId : item.query_dbId = intText i) (hk : item.query_Id = natText k.val)
    (db : Sqlite) (st : Store) :
    ∃ t, updateBuildQuery db st item = { st with query := t } ∧
      (t.rows = st.query.rows.map fun r => if hit (some (ns "QueryId", .int k.val)) r then
        assign ((ns "dbID", .int i) :: literals (updateFields item)) r else r) ∧
      st.query.seq ≤ t.seq := by
  have hsel : querySchema.Selects (some (ns "QueryId", .int k.val)) := rfl
  obtain ⟨t, ht⟩ := update_isSome (assigns_query item i) hsel st.query
  refine ⟨t, ?_, (update_inv ht).2.2, ?_⟩
  · apply executeUpdate_of_read db (read_updateBuildQuery hf hi hdbId hk)
    rw [apply_query rfl]
    exact congrArg (Option.map _) ht
  · have heffect : (Statement.update (ns "Query") ((ns "dbID", .int i) :: literals (updateFields item))
        (some (ns "QueryId", .int k.val))).effect querySchema st.query = some t := ht
    exact seq_effect heffect

/-- An updated row as it is read. -/
theorem readQuery_updateFields {i : Int} (hdbId : item.query_dbId = intText i) (r : Row) :
    readQuery (assign ((ns "dbID", .int i) :: literals (updateFields item)) r) =
      { item with
        query_Id := natText r.id.val
        query_dbName := r.text (ns "DBName")
        query_showName := showName item.query_dbName item.query_tableName } := by
  have ha := assigns_query item i
  have hno : ns "DBName" ∉ ((ns "dbID", Const.int i) :: literals (updateFields item)).map (·.1) := by
    show ns "DBName" ∉ ns "dbID" :: queryColumns.dropLast
    decide
  have htext : ∀ c v, (c, v) ∈ updateFields item →
      (assign ((ns "dbID", Const.int i) :: literals (updateFields item)) r).text c = v :=
    fun c v hc => text_assign ha.1 (List.mem_cons_of_mem _ (mem_literals hc)) r
  rw [readQuery_eq_iff]
  refine ⟨rfl, ?_, (assign_of_not_mem hno r).1, htext _ _ ?_, htext _ _ ?_, htext _ _ ?_, htext _ _ ?_⟩
  · rw [hdbId]
    exact congrArg intText (int_assign ha.1 List.mem_cons_self r)
  all_goals simp [queryFields]

theorem updatedQuery_of_rewrites {dbName : NSString} (h : Rewrites item dbName)
    (hk : item.query_Id = natText k.val) (db : Sqlite) (st : Store) :
    UpdatedQuery db st item k dbName := by
  intro hex
  obtain ⟨r, hr, hid, hname⟩ := hex
  obtain ⟨i, hi, hdbId⟩ := h.dbId
  have hf := (plain_queryFields.mpr h.plain).1
  obtain ⟨t, hst, hrows, -⟩ := updateBuildQuery_rows hf hi hdbId hk db st
  have hhit : hit (some (ns "QueryId", .int k.val)) r = true := by
    simp only [hit, hid, decide_true]
  rw [hst]
  refine List.mem_map.mpr ⟨assign ((ns "dbID", .int i) :: literals (updateFields item)) r, ?_, ?_⟩
  · show _ ∈ t.rows
    rw [hrows]
    exact List.mem_map.mpr ⟨r, hr, if_pos hhit⟩
  · rw [readQuery_updateFields hdbId, hid, ← hk, hname, ← h.dbName]

theorem rewrites_of_updatedQuery {dbName : NSString} (hk : item.query_Id = natText k.val)
    (h : ∀ st, UpdatedQuery strict st item k dbName) : Rewrites item dbName := by
  -- a store with one row, whose other texts are others
  let old : Row :=
    ⟨k, fun c => if c = ns "DBName" then dbName else 'x' :: item.query_tableName, fun _ => 0⟩
  have hold : readQuery old ≠
      { item with query_showName := showName item.query_dbName item.query_tableName } := by
    intro heq
    have htable : 'x' :: item.query_tableName = item.query_tableName :=
      congrArg Obj_Query.query_tableName heq
    have := congrArg List.length htable
    simp at this
  let st : Store := ⟨.single old, .single old⟩
  have hmem := h st ⟨old, List.mem_singleton.mpr rfl, rfl, rfl⟩
  rcases executeUpdate_strict st (updateBuildQuery_query item) with hsame | ⟨stmt, hr, ha⟩
  · rw [updateBuildQuery, hsame] at hmem
    exact absurd (List.mem_singleton.mp hmem).symm hold
  · -- the id of the database is read back, so it is a canonical integer
    obtain ⟨r, -, hread⟩ := List.mem_map.mp hmem
    have hint : item.query_dbId = intText (r.int (ns "dbID")) := (readQuery_eq_iff.mp hread).2.1.symm
    generalize r.int (ns "dbID") = i at hint
    have htail := follows_whereHead (ns "QueryId") item.query_Id
    have hr' := hr
    rw [updateBuildQuery_query_eq, hint, readStatement_updateInt opens_updateQuery
      (stops_moreSets (stops_whereHead _ _) _)] at hr'
    by_cases hi : i.natAbs ≤ maxInt
    · rw [if_pos hi, Option.map_eq_some_iff] at hr'
      obtain ⟨⟨ss, cond⟩, hss, rfl⟩ := hr'
      have ha' := ha
      rw [apply_query rfl, Option.map_eq_some_iff] at ha'
      obtain ⟨t, ht, hst⟩ := ha'
      have has := (update_inv ht).1
      rw [updateBuildQuery, ← hst] at hmem
      obtain ⟨r', hr₁, hread'⟩ := List.mem_map.mp hmem
      rcases mem_update_single ht hr₁ with rfl | rfl
      · exact absurd hread' hold
      · obtain ⟨-, -, hname, htable, hcols, hrule, hshow⟩ := readQuery_eq_iff.mp hread'
        have htext : ∀ x ∈ updateFields item, (assign ((ns "dbID", .int i) :: ss) old).text x.1 = x.2 := by
          simp only [queryFields, List.forall_mem_cons]
          exact ⟨htable, hcols, hrule, hshow, by simp⟩
        have hag := agrees_of_assign has.1 htext
        have hf : ∀ x ∈ updateFields item, Plain x.2 :=
          plain_of_readSets htail (isName_queryFields _ _ _ _) hss fun c f w hc hw =>
            hag c f w hc (List.mem_cons_of_mem _ hw)
        refine ⟨plain_queryFields.mp ⟨hf, plain_dbName hf⟩, ⟨i, hi, hint⟩, ?_⟩
        -- with clean texts the statement is known, and it leaves the name alone
        have hstmt := Option.some.inj (hr.symm.trans (read_updateBuildQuery hf hi hint hk))
        obtain ⟨-, hsets, -⟩ := Statement.update.inj hstmt
        have hno : ns "DBName" ∉ ((ns "dbID", Const.int i) :: ss).map (·.1) := by
          rw [hsets]
          show ns "DBName" ∉ ns "dbID" :: queryColumns.dropLast
          decide
        rw [(assign_of_not_mem hno old).1] at hname
        exact hname.symm
    · rw [if_neg hi] at hr'; cases hr'

end

/-! ## All four writers -/

/-- A database whose description has an apostrophe. -/
def boss : Obj_Database :=
  ⟨ns "", ns "sales", ns "10.0.0.1", ns "sa", ns "secret", ns "1433", ns "boss's server", ns "2013-10-28"⟩

end MysqlConnection.L2.DBConnector
