import MysqlConnection.Core.TSqlLike
import MysqlConnection.L3Screens.QueryNames

/-!
# What a criterion matches

`onExcute` and `onSearch` put each text that is read from a criteria row
between two percent signs; the server takes the literal as a LIKE pattern. With
`wanted` for the conditions of a statement, `Select.result` is what the search
returns and `occurs` what the screen promises.

* `onSearch_text`: the conditions of both statements are the wanted ones
  (`Names.onExcute_text` for the other).
* `contains_iff`: criteria mean that their texts occur exactly if no text has a
  percent sign, an underscore or an opening bracket.
* `excuted_result`: then the statement of a saved query with regular names
  returns the rows in which all texts occur.
-/
namespace MysqlConnection.L3.Contains

open TSql
open TSql.Dialect (whereText)
open MysqlConnection.L3.Names (wanted savedQuery)
open MysqlConnection.L3.Criteria (Row onExcute onSearch)

theorem onSearch_text (m_tableName : NSString) (rows : List Row) :
    onSearch m_tableName rows = ns "select * from " ++ m_tableName ++ whereText (wanted rows) := by
  rw [Criteria.onSearch_eq, Criteria.statement, Names.whereClause_conditions]

/-- The text of the criterion occurs in its column. -/
def occurs (row : DataRow) (r : Row) : Bool := (row r.columnName).any fun v => decide (r.condition <:+: v)

/-- The rows in which every criterion with text occurs. -/
def filtered (rows : List Row) (data : List DataRow) : List DataRow :=
  data.filter fun row => rows.all fun r => r.condition.isEmpty || occurs row r

/-- Each literal matches what contains its text, and a search returns the rows
in which all texts occur. -/
structure MeansContains (columns : List NSString) (table : NSString) (rows : List Row) : Prop where
  pattern : ∀ r ∈ rows, ∀ v : NSString,
    like (ns "%" ++ r.condition ++ ns "%") v ↔ r.condition <:+: v
  result : ∀ data, (Select.mk columns table (wanted rows)).result data = filtered rows data

theorem keeps_wanted {rows : List Row}
    (h : ∀ r ∈ rows, ∀ v, like (containsPattern r.condition) v ↔ r.condition <:+: v) (row : DataRow) :
    ((wanted rows).all fun x => (row x.1).any (like x.2)) =
      rows.all fun r => r.condition.isEmpty || occurs row r := by
  induction rows with
  | nil => rfl
  | cons r rows ih =>
    have ih := ih fun x hx => h x (List.mem_cons_of_mem _ hx)
    have hr : ∀ v, like (containsPattern r.condition) v = decide (r.condition <:+: v) := fun v => by
      rw [Bool.eq_iff_iff, h r List.mem_cons_self v, decide_eq_true_eq]
    have hlike : (row r.columnName).any (like (containsPattern r.condition)) = occurs row r := by
      rw [occurs, funext hr]
    rw [List.all_cons, ← ih]
    by_cases hc : r.condition = []
    · simp [wanted, hc]
    · have hlen : r.condition.length > 0 := List.length_pos_iff.mpr hc
      have hcons : wanted (r :: rows) = (r.columnName, containsPattern r.condition) :: wanted rows := by
        rw [wanted, List.filter_cons_of_pos (by simpa using hlen)]
        rfl
      have hempty : r.condition.isEmpty = false := by simpa using hc
      rw [hcons, List.all_cons, hlike, hempty, Bool.false_or]

theorem contains_of_verbatim (columns : List NSString) (table : NSString) {rows : List Row}
    (h : ∀ r ∈ rows, Verbatim r.condition) : MeansContains columns table rows where
  pattern r hr := (like_containsPattern_iff _).mpr (h r hr)
  result data := by
    have hk := keeps_wanted fun r hr => (like_containsPattern_iff _).mpr (h r hr)
    simp only [Select.result, filtered, hk]

/-- **Criteria.** The criteria of a search mean that their texts occur in the
values, for every value and every table, exactly if no text has a wildcard of
LIKE. -/
theorem contains_iff (columns : List NSString) (table : NSString) (rows : List Row) :
    MeansContains columns table rows ↔ ∀ r ∈ rows, Verbatim r.condition :=
  ⟨fun h r hr => (like_containsPattern_iff _).mp (h.pattern r hr), contains_of_verbatim columns table⟩

/-- From the names and the texts to the rows that come back. -/
theorem excuted_result {D : Dialect} {item : Obj_Query} {tableName : NSString}
    {columns display criteria : List NSString} {rows : List Row}
    (hnames : Names.Exact D item tableName columns display criteria)
    (hrows : rows.map (·.columnName) = criteria)
    (htexts : ∀ r ∈ rows, '\'' ∉ r.condition ∧ Verbatim r.condition) (data : List DataRow) :
    (D.select (onExcute (savedQuery item tableName columns display criteria) rows)).map
        (·.result data) = some (filtered rows data) := by
  rw [hnames.statement rows hrows fun r hr => (htexts r hr).1, Option.map_some]
  exact congrArg some
    ((contains_of_verbatim display tableName fun r hr => (htexts r hr).2).result data)

/-- The criterion `50%` for a column. -/
def discount : Row := ⟨ns "note", ns "50%", true⟩

/-- **A percent sign in a criterion.** `500 pieces` is found for `50%`. -/
theorem contains_percent :
    (like (ns "%" ++ discount.condition ++ ns "%") (ns "500 pieces") = true ∧
      ¬ discount.condition <:+: ns "500 pieces") ∧
    ¬ ∀ columns table rows, MeansContains columns table rows := by
  have hlike : like (ns "%" ++ discount.condition ++ ns "%") (ns "500 pieces") = true := by decide
  have hin : ¬ discount.condition <:+: ns "500 pieces" := by decide
  refine ⟨⟨hlike, hin⟩, fun h => ?_⟩
  exact hin (((h [ns "note"] (ns "orders") [discount]).pattern discount List.mem_cons_self _).mp hlike)

end MysqlConnection.L3.Contains
