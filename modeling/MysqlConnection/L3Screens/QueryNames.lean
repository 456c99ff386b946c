import MysqlConnection.Core.TSqlSelect
import MysqlConnection.L2Client.SQLClient
import MysqlConnection.L2Store.RoundTrip
import MysqlConnection.L3Screens.BuildViewController
import MysqlConnection.L3Screens.Criteria
import MysqlConnection.L3Screens.ListFilters

/-!
# The names in a statement

The names of a table and of its columns pass from the choosers of the query
builder into the saved query, from there into the statement of
`CretoriaViewController onExcute`, and into the one of `getColumNamesInTable`,
without delimiters and without change. `Exact` says that the server reads them
back: the criteria rows are the chosen ones, the statement selects the chosen
columns from the chosen table with each condition on the column of its row,
and the columns are asked for this table.

* `exact_iff`: this holds exactly if there is a column to show and all names
  are regular identifiers that are not reserved.
* `exact_stored`: such names also come back from the store as they were chosen.
* `unquoted_table`: a table name with a blank.
-/
namespace MysqlConnection.L3.Names

open TSql
open TSql.Dialect
open MysqlConnection.L3.Build (getConfString components_joined)
open MysqlConnection.L3.Criteria (Row setQueryInfo conditionStr conditions onExcute)

/-- The query that is saved for the chosen names. The criteria are chosen from
what the text of the columns names. What the store makes of the texts is
`exact_stored`.
mirrors BuildViewController.m:52-96 and AdminTableConfController.m:58-81 -/
def savedQuery (item : Obj_Query) (tableName : NSString) (columns display criteria : List NSString) :
    Obj_Query :=
  let edt_columns := getConfString ⟨0, tableName, columns, display⟩
  { item with
    query_tableName := tableName
    query_columns := edt_columns
    query_searchRule := getConfString ⟨1, tableName, components edt_columns, criteria⟩ }

/-! ## The property -/

/-- The conditions that the rows with text ask for. -/
def wanted (rows : List Row) : List (NSString × NSString) :=
  (rows.filter fun r => r.condition.length > 0).map fun r =>
    (r.columnName, ns "%" ++ r.condition ++ ns "%")

/-- The tokens before the string of `getColumNamesInTable`. -/
def columnsHead : List Token :=
  [.word (ns "select"), .sign '*', .word (ns "from"), .word (ns "sys"), .sign '.',
    .word (ns "columns"), .word (ns "where"), .word (ns "object_id"), .sign '=',
    .word (ns "OBJECT_ID"), .sign '(']

/-- The object whose columns a statement asks for, by the parts of its name. -/
def asksFor (D : Dialect) (stmt : NSString) : Option (List NSString) :=
  (D.lex .start stmt).bind fun ts =>
    match ts.drop 11 with
    | [.literal v, .sign ')'] => if ts.take 11 = columnsHead then objectParts (.plain []) v else none
    | _ => none

/-- The names are read as they were chosen, whatever the criteria texts are
(an apostrophe in one ends its literal, whatever the names are). -/
structure Exact (D : Dialect) (item : Obj_Query) (tableName : NSString)
    (columns display criteria : List NSString) : Prop where
  rows : setQueryInfo (savedQuery item tableName columns display criteria) = some criteria
  statement : ∀ rows : List Row, rows.map (·.columnName) = criteria →
    (∀ r ∈ rows, '\'' ∉ r.condition) →
    D.select (onExcute (savedQuery item tableName columns display criteria) rows) =
      some ⟨display, tableName, wanted rows⟩
  asked : asksFor D (L2.Client.Method.getColumNamesInTable tableName).query = some [tableName]

/-! ## The texts of the statements -/

theorem conditionStr_eq (columnName condition : NSString) :
    conditionStr columnName condition =
      conditionText columnName (ns "%" ++ condition ++ ns "%") := by
  have h1 : ns " " = [' '] := by decide
  have h2 : ns " LIKE '%" = ' ' :: (likeWord ++ ' ' :: '\'' :: ns "%") := by decide
  have h3 : ns "%' " = ns "%" ++ ['\'', ' '] := by decide
  simp only [conditionStr, conditionText, h1, h2, h3, List.append_assoc, List.cons_append,
    List.nil_append]

theorem conditions_eq (rows : List Row) :
    conditions rows = (wanted rows).map fun x => conditionText x.1 x.2 := by
  rw [conditions, wanted, List.map_map]
  exact List.map_congr_left fun r _ => conditionStr_eq _ _

theorem whereClause_conditions (rows : List Row) :
    Criteria.whereClause (conditions rows) = whereText (wanted rows) := by
  have h3 : ns " where " = ' ' :: (whereWord ++ [' ']) := by decide
  have h4 : ns "and" = andWord := rfl
  rw [Criteria.whereClause, conditions_eq, whereText, joined, h3, h4]
  simp only [List.map_eq_nil_iff, List.cons_append, List.append_assoc, List.nil_append]

/-- The statement, with the names in it as they are. -/
theorem onExcute_text (item : Obj_Query) (tableName : NSString)
    (columns display criteria : List NSString) (rows : List Row) :
    onExcute (savedQuery item tableName columns display criteria) rows =
      selectText display (tableName ++ whereText (wanted rows)) := by
  have h1 : ns "select " = selectWord ++ [' '] := by decide
  have h2 : ns " from " = ' ' :: (fromWord ++ [' ']) := by decide
  rw [Criteria.onExcute_eq, Criteria.statement, whereClause_conditions, selectText, h1, h2]
  simp only [savedQuery, getConfString, joined, List.append_assoc, List.cons_append, List.nil_append]
  rfl

/-! ## Regular names are read back -/

variable {D : Dialect}

theorem setQueryInfo_savedQuery (item : Obj_Query) (tableName : NSString)
    (columns display : List NSString) {criteria : List NSString} (h : ∀ x ∈ criteria, D.Name x) :
    setQueryInfo (savedQuery item tableName columns display criteria) = some criteria := by
  have hrule : (savedQuery item tableName columns display criteria).query_searchRule =
      joined (ns ",") criteria := rfl
  rw [ListFilters.setQueryInfo_eq, hrule]
  by_cases hne : criteria = []
  · rw [hne]; rfl
  · have hcomma : ∀ x ∈ criteria, ',' ∉ x := fun x hx => (h x hx).regular.not_mem (by decide)
    have hnil : ∀ x ∈ criteria, x ≠ [] := fun x hx => (h x hx).regular.ne_nil
    rw [components_joined hcomma hne, if_pos fun x hx => hnil x ((List.dropLast_subset _) hx),
      List.filter_eq_self.mpr]
    intro x hx
    simpa using hnil x hx

theorem lex_columnsQuery {tableName : NSString} (h : '\'' ∉ tableName) :
    D.lex .start (L2.Client.Method.getColumNamesInTable tableName).query =
      some (columnsHead ++ [.literal tableName, .sign ')']) := by
  have htext : ns "select * from sys.columns where object_id=OBJECT_ID('" =
      ns "select" ++ ' ' :: '*' :: ' ' :: (ns "from" ++ ' ' :: (ns "sys" ++ '.' :: (ns "columns" ++
        ' ' :: (ns "where" ++ ' ' :: (ns "object_id" ++ '=' :: (ns "OBJECT_ID" ++ '(' :: ['\'']))))))
      := by decide
  have hclose : ns "')" = '\'' :: ')' :: [] := by decide
  have hne : ')' ≠ '\'' := by decide
  rw [L2.Client.Method.query, htext, hclose]
  simp only [List.append_assoc, List.cons_append, List.nil_append]
  rw [lex_word_space (regular_ascii (by decide)), D.lex_sign (by decide), lex_space,
    lex_word_space (regular_ascii (by decide)),
    lex_word (regular_ascii (by decide)) (stops_cons (by decide) _), D.lex_sign (by decide),
    lex_word_space (regular_ascii (by decide)),
    lex_word_space (regular_ascii (by decide)),
    lex_word (regular_ascii (by decide)) (stops_cons (by decide) _), D.lex_sign (by decide),
    lex_word (regular_ascii (by decide)) (stops_cons (by decide) _), D.lex_sign (by decide),
    lex_literal h hne, D.lex_sign (by decide), lex_nil]
  rfl

theorem asksFor_name {tableName : NSString} (h : D.Name tableName) :
    asksFor D (L2.Client.Method.getColumNamesInTable tableName).query = some [tableName] := by
  have hsep {c : Char} (hc : Separator c) : c ∉ tableName := h.regular.not_mem hc
  rw [asksFor, lex_columnsQuery (hsep (by decide)), Option.bind_some]
  exact objectParts_plain (hsep (by decide)) (hsep (by decide)) (hsep (by decide)) []

theorem exact_of_names {item : Obj_Query} {tableName : NSString} {columns display criteria : List NSString}
    (hne : display ≠ []) (h : ∀ x ∈ display ++ criteria, D.Name x) (ht : D.TableName tableName) :
    Exact D item tableName columns display criteria where
  rows := setQueryInfo_savedQuery item tableName columns display
    fun x hx => h x (List.mem_append_right _ hx)
  statement := by
    intro rows hrows htexts
    rw [onExcute_text]
    refine select_whereText (fun x hx => h x (List.mem_append_left _ hx)) hne ht ?_
    intro x hx
    obtain ⟨r, hr, rfl⟩ := List.mem_map.mp hx
    have hr := (List.mem_filter.mp hr).1
    have hname : r.columnName ∈ criteria := hrows ▸ List.mem_map_of_mem hr
    refine ⟨h _ (List.mem_append_right _ hname), ?_⟩
    simp only [List.mem_append, not_or]
    exact ⟨⟨by decide, htexts r hr⟩, by decide⟩
  asked := asksFor_name ht.name

/-! ## Through the store -/

theorem plain_name {x : NSString} (h : D.Name x) : Sql.Plain x :=
  ⟨h.regular.not_mem (by decide), h.regular.not_mem (by decide)⟩

theorem plain_joined {names : List NSString} (h : ∀ x ∈ names, Sql.Plain x) :
    Sql.Plain (joined (ns ",") names) := by
  have hcomma : Sql.Plain (ns ",") := by decide
  induction names with
  | nil => exact ⟨List.not_mem_nil, List.not_mem_nil⟩
  | cons x names ih =>
    obtain ⟨hx, hrest⟩ := List.forall_mem_cons.mp h
    cases names with
    | nil => simpa [joined] using hx
    | cons y names =>
      rw [joined, List.intercalate_cons_cons]
      exact L2.DBConnector.plain_append.mpr
        ⟨L2.DBConnector.plain_append.mpr ⟨hx, hcomma⟩, ih hrest⟩

/-- Regular names pass through the store: the record that the list gets for the
saved query has them as they were chosen, and its statements read them back. -/
theorem exact_stored (db : L2.DBConnector.Sqlite) {st : L2.DBConnector.Store}
    (hs : st.query.seq < Sql.maxInt) {database : Obj_Database} (hd : Sql.Plain database.dbName)
    (item : Obj_Query) {tableName : NSString} {columns display criteria : List NSString}
    (hne : display ≠ []) (h : ∀ x ∈ display ++ criteria, D.Name x) (ht : D.TableName tableName) :
    let saved := savedQuery item tableName columns display criteria
    ∃ q, L2.DBConnector.getQuerys (L2.DBConnector.insertBuildQuery db st database
        saved.query_tableName saved.query_columns saved.query_searchRule) =
          L2.DBConnector.getQuerys st ++ [q] ∧
      savedQuery q tableName columns display criteria = q ∧
      Exact D q tableName columns display criteria := by
  intro saved
  have hjoined {names : List NSString} (hn : ∀ x ∈ names, x ∈ display ++ criteria) :
      Sql.Plain (joined (ns ",") names) := plain_joined fun x hx => plain_name (h x (hn x hx))
  have hplain : ∀ f ∈ [saved.query_tableName, saved.query_columns, saved.query_searchRule,
      database.dbName], Sql.Plain f := by
    simp only [List.forall_mem_cons]
    exact ⟨plain_name ht.name, hjoined fun x hx => List.mem_append_left _ hx,
      hjoined fun x hx => List.mem_append_right _ hx, hd, fun _ hx => absurd hx List.not_mem_nil⟩
  obtain ⟨query_Id, hadd⟩ := L2.DBConnector.insertedQuery_of_plain hplain hs db
  exact ⟨_, hadd, rfl, exact_of_names hne h ht⟩

/-! ## No other name is -/

/-- A row without text. -/
def blankRow (columnName : NSString) : Row := ⟨columnName, [], true⟩

theorem wanted_blankRows (names : List NSString) : wanted (names.map blankRow) = [] := by
  rw [wanted, List.map_eq_nil_iff, List.filter_eq_nil_iff]
  intro r hr
  obtain ⟨columnName, -, rfl⟩ := List.mem_map.mp hr
  simp [blankRow, Row.condition]

/-- Rows without text but for one. -/
theorem wanted_oneRow (a b : List NSString) (columnName : NSString) :
    wanted (a.map blankRow ++ ⟨columnName, ['%'], true⟩ :: b.map blankRow) = [(columnName, percents)] := by
  have hblank (names : List NSString) :
      (names.map blankRow).filter (fun r => decide (r.condition.length > 0)) = [] := by
    have h := wanted_blankRows names
    rwa [wanted, List.map_eq_nil_iff] at h
  rw [wanted, List.filter_append, hblank, List.filter_cons, hblank]
  rfl

theorem names_of_exact {item : Obj_Query} {tableName : NSString} {columns display criteria : List NSString}
    (h : Exact D item tableName columns display criteria) :
    display ≠ [] ∧ (∀ x ∈ display ++ criteria, D.Name x) ∧ D.TableName tableName := by
  have hnames (names : List NSString) : (names.map blankRow).map (·.columnName) = names := by
    rw [List.map_map]
    exact List.map_id names
  have hquote : ∀ x : NSString, '\'' ∉ (blankRow x).condition := by
    intro x hx
    cases hx
  -- without texts the statement has the columns and the table only
  have hblank := h.statement (criteria.map blankRow) (hnames criteria) (by
    intro r hr
    obtain ⟨x, -, rfl⟩ := List.mem_map.mp hr
    exact hquote x)
  rw [onExcute_text, wanted_blankRows, whereText, if_pos rfl, List.append_nil] at hblank
  obtain ⟨hne, hdisplay, htable⟩ := names_of_select hblank
  refine ⟨hne, fun x hx => ?_, htable⟩
  rcases List.mem_append.mp hx with hx | hx
  · exact hdisplay x hx
  -- a text for one criterion gives a statement with its condition only
  obtain ⟨a, b, rfl⟩ := List.append_of_mem hx
  have hone := h.statement (a.map blankRow ++ ⟨x, ['%'], true⟩ :: b.map blankRow) (by
    rw [List.map_append, List.map_cons, hnames, hnames]) (by
    intro r hr
    rcases List.mem_append.mp hr with hr | hr
    · obtain ⟨y, -, rfl⟩ := List.mem_map.mp hr
      exact hquote y
    · rcases List.mem_cons.mp hr with rfl | hr
      · simp [Row.condition]
      · obtain ⟨y, -, rfl⟩ := List.mem_map.mp hr
        exact hquote y)
  have hcons : [(x, percents)] ≠ [] := List.cons_ne_nil _ _
  rw [onExcute_text, wanted_oneRow, select_with hdisplay hne htable (stops_whereText _),
    lex_whereText hcons, List.map_singleton, List.intercalate_singleton, Option.map_eq_some_iff] at hone
  obtain ⟨l, hl, heq⟩ := hone
  obtain ⟨-, -, rfl⟩ := Select.mk.inj heq
  exact name_of_condition hl

/-- **Names in statements.** For every dialect, every table name, all lists of
columns, of columns to show and of criteria: the statements read the names
back exactly if there is a column to show, each name is a regular identifier
that is neither reserved nor a variable, and the table is not temporary. -/
theorem exact_iff (D : Dialect) (item : Obj_Query) (tableName : NSString)
    (columns display criteria : List NSString) :
    Exact D item tableName columns display criteria ↔
      display ≠ [] ∧ (∀ x ∈ display ++ criteria, D.Name x) ∧ D.TableName tableName :=
  ⟨names_of_exact, fun h => exact_of_names h.1 h.2.1 h.2.2⟩

/-- A query of the table `order details`. -/
def item : Obj_Query :=
  ⟨ns "1", ns "1", ns "sales", ns "order details", ns "id", ns "id", ns "sales->order details->Search"⟩

theorem unquoted_table : ¬ ∀ (D : Dialect) (tableName : NSString) (columns display criteria : List NSString),
    tableName ≠ [] → (∀ x ∈ columns, x ≠ []) → columns.Nodup → display.Sublist columns →
      criteria.Sublist columns → display ≠ [] → criteria ≠ [] →
        Exact D item tableName columns display criteria := by
  intro hall
  have h := hall asciiDialect (ns "order details") [ns "id"] [ns "id"] [ns "id"]
    (by decide) (by decide) (by decide) (List.Sublist.refl _) (List.Sublist.refl _)
    (by decide) (by decide)
  have hstmt := h.statement [blankRow (ns "id")] (by decide) (by decide)
  have hread : asciiDialect.select
      (onExcute (savedQuery item (ns "order details") [ns "id"] [ns "id"] [ns "id"])
        [blankRow (ns "id")]) = none := by decide +kernel
  rw [hread] at hstmt
  cases hstmt

end MysqlConnection.L3.Names
