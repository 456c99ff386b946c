import MysqlConnection.L1Foundation.NSString
import MysqlConnection.Core.Split

/-!
# Search criteria

`CretoriaViewController onExcute` and `Con_SearchController onSearch` put the
text of each criteria row between `LIKE '%` and `%'`, unchanged. Read with the
T-SQL rule for string literals (`Split.split` at the apostrophe), `Intact`
says that the statement has one literal for each row with text, with the text
between percent signs as its value, and that the code outside the literals is
that of the format strings.

`intact_iff`: this holds exactly if the names and texts have no apostrophe and
each row with text is visible (a row without a cell is skipped). An apostrophe
in a text ends the literal (`escaped_text`).

Only if: a split determines the length of the statement. With a doubled
apostrophe the texts would have to be longer than they are, and with a row
left out the statement is shorter; code contains no apostrophe, so the names
do not either.
-/
namespace MysqlConnection.L3.Criteria

open Split

/-- `for(columnName in m_columns)` with `removeObject:` in its body raises
unless the removed string was the last one.
mirrors CretoriaViewController.m:30-35 -/
def removeEmpty : List NSString → Option (List NSString)
  | [] => some []
  | [c] => some (if c = [] then [] else [c])
  | c :: cs => if c = [] then none else (removeEmpty cs).map (c :: ·)

/-- `m_columns`, none if the loop raises.
mirrors CretoriaViewController.m:26-36 -/
def setQueryInfo (query : Obj_Query) : Option (List NSString) :=
  removeEmpty (components query.query_searchRule)

/-- A criteria row: its label, the text in its text field, and whether the
row is on the screen, so that `cellForRowAtIndexPath:` returns its cell. -/
structure Row where
  columnName : NSString
  text : NSString
  visible : Bool
  deriving DecidableEq, Repr

/-- The `condition` read from the row; `nil` without a cell. -/
def Row.condition (r : Row) : NSString := if r.visible then r.text else []

/-- `@" %@ LIKE '%%%@%%' "` -/
def conditionStr (columnName condition : NSString) : NSString :=
  ns " " ++ columnName ++ ns " LIKE '%" ++ condition ++ ns "%' "

/-- The loop over the rows.
mirrors CretoriaViewController.m:53-69 and Con_SearchController.m:64-72 -/
def conditions (rows : List Row) : List NSString :=
  (rows.filter fun r => r.condition.length > 0).map fun r => conditionStr r.columnName r.condition

/-- The statement of a saved query.
mirrors CretoriaViewController.m:51-77 -/
def onExcute (query : Obj_Query) (rows : List Row) : NSString :=
  let sumCondtionStr := joined (ns "and") (conditions rows)
  if sumCondtionStr.length > 0 then
    ns "select " ++ query.query_columns ++ ns " from " ++ query.query_tableName ++ ns " where " ++
      sumCondtionStr
  else ns "select " ++ query.query_columns ++ ns " from " ++ query.query_tableName

/-- The statement of a table search.
mirrors Con_SearchController.m:62-78 -/
def onSearch (m_tableName : NSString) (rows : List Row) : NSString :=
  if (conditions rows).length = 0 then ns "select * from " ++ m_tableName
  else ns "select * from " ++ m_tableName ++ ns " where " ++ joined (ns "and") (conditions rows)

/-! ## The common form -/

def whereClause (cs : List NSString) : NSString :=
  if cs = [] then [] else ns " where " ++ joined (ns "and") cs

def statement (head : NSString) (cs : List NSString) : NSString := head ++ whereClause cs

theorem length_joined (c : NSString) (cs : List NSString) :
    (joined (ns "and") (c :: cs)).length + 3 = ((c :: cs).map fun c => c.length + 3).sum := by
  induction cs generalizing c with
  | nil => simp [joined]
  | cons d ds ih =>
    have h := ih d
    have hand : (ns "and").length = 3 := rfl
    simp only [joined, List.intercalate_cons_cons, List.length_append, List.map_cons, List.sum_cons] at h ⊢
    omega

theorem length_whereClause (cs : List NSString) :
    (whereClause cs).length = if cs = [] then 0 else 4 + (cs.map fun c => c.length + 3).sum := by
  rw [whereClause]
  split
  · rfl
  · rename_i hne
    obtain ⟨c, cs, rfl⟩ := List.exists_cons_of_ne_nil hne
    have h := length_joined c cs
    have hw : (ns " where ").length = 7 := rfl
    rw [List.length_append]
    omega

theorem length_conditionStr (n c : NSString) : (conditionStr n c).length = n.length + c.length + 12 := by
  have h1 : (ns " ").length = 1 := rfl
  have h2 : (ns " LIKE '%").length = 8 := rfl
  have h3 : (ns "%' ").length = 3 := rfl
  simp only [conditionStr, List.length_append, h1, h2, h3]
  omega

theorem onExcute_eq (query : Obj_Query) (rows : List Row) :
    onExcute query rows =
      statement (ns "select " ++ query.query_columns ++ ns " from " ++ query.query_tableName)
        (conditions rows) := by
  rw [onExcute, statement, whereClause]
  by_cases h : conditions rows = []
  · simp [h, joined]
  · obtain ⟨c, cs, hc⟩ := List.exists_cons_of_ne_nil h
    have hm : c ∈ conditions rows := by rw [hc]; exact List.mem_cons_self
    obtain ⟨r, -, rfl⟩ := List.mem_map.mp hm
    have hlen : (joined (ns "and") (conditions rows)).length > 0 := by
      have hj := length_joined (conditionStr r.columnName r.condition) cs
      rw [List.map_cons, List.sum_cons, length_conditionStr, ← hc] at hj
      omega
    simp only [if_pos hlen, if_neg h, List.append_assoc]

theorem onSearch_eq (m_tableName : NSString) (rows : List Row) :
    onSearch m_tableName rows = statement (ns "select * from " ++ m_tableName) (conditions rows) := by
  rw [onSearch, statement, whereClause]
  by_cases h : conditions rows = []
  · simp [h]
  · rw [if_neg (by simpa using h), if_neg h, List.append_assoc]

/-! ## The property -/

/-- The rows with text. -/
def withText (rows : List Row) : List Row := rows.filter fun r => r.text ≠ []

/-- The value the literal of a row must have. -/
def Row.pattern (r : Row) : NSString := ns "%" ++ r.text ++ ns "%"

/-- What the format of a condition has outside its literal. -/
def outside (columnName : NSString) : NSString := ns " " ++ columnName ++ ns " LIKE " ++ ns " "

/-- The literals of the statement are the patterns of the rows with text, in
order; the code outside does not depend on the texts. -/
def Intact (stmt head : NSString) (rows : List Row) : Prop :=
  ∃ ps, split '\'' stmt = some ps ∧ literalsOf ps = (withText rows).map Row.pattern ∧
    codeOf ps = statement head ((withText rows).map fun r => outside r.columnName)

/-- No name and no text has an apostrophe; a row with text is visible. -/
def Plain (head : NSString) (rows : List Row) : Prop :=
  '\'' ∉ head ∧ ∀ r ∈ rows, r.text ≠ [] → r.visible = true ∧ '\'' ∉ r.columnName ∧ '\'' ∉ r.text

/-! ## Plain names and texts -/

theorem length_outside (n : NSString) : (outside n).length = n.length + 8 := by
  have h1 : (ns " ").length = 1 := rfl
  have h2 : (ns " LIKE ").length = 6 := rfl
  simp only [outside, List.length_append, h1, h2]
  omega

/-- The pieces of a condition. -/
def conditionPieces (r : Row) : List (Piece Char) :=
  (ns " " ++ r.columnName ++ ns " LIKE ").map .code ++ [.literal r.pattern, .code ' ']

theorem reads_condition {r : Row} (hn : '\'' ∉ r.columnName) (ht : '\'' ∉ r.text) :
    Reads '\'' (conditionStr r.columnName r.text) (conditionPieces r) := by
  have hc : '\'' ∉ ns " " ++ r.columnName ++ ns " LIKE " := by
    simp only [List.mem_append, not_or]
    exact ⟨⟨by decide, hn⟩, by decide⟩
  have hp : '\'' ∉ r.pattern := by
    simp only [Row.pattern, List.mem_append, not_or]
    exact ⟨⟨by decide, ht⟩, by decide⟩
  have h := (reads_code '\'' hc).append '\'' (reads_literal '\'' hp (x := ' ') (by decide))
  have he : conditionStr r.columnName r.text =
      ns " " ++ r.columnName ++ ns " LIKE " ++ '\'' :: (r.pattern ++ ['\'', ' ']) := by
    have h1 : ns " LIKE '%" = ns " LIKE " ++ '\'' :: ns "%" := rfl
    have h2 : ns "%' " = ns "%" ++ ['\'', ' '] := rfl
    simp only [conditionStr, Row.pattern, h1, h2, List.append_assoc, List.cons_append]
  rw [he]; exact h

theorem codeOf_condition (r : Row) : codeOf (conditionPieces r) = outside r.columnName := by
  simp only [conditionPieces, outside, codeOf_append, codeOf_code]
  rfl

theorem literalsOf_condition (r : Row) : literalsOf (conditionPieces r) = [r.pattern] := by
  simp [conditionPieces]

theorem codeOf_intercalate (sep : NSString) (l : List Row) :
    codeOf ((sep.map Piece.code).intercalate (l.map conditionPieces)) =
      sep.intercalate (l.map fun r => outside r.columnName) := by
  induction l with
  | nil => rfl
  | cons r l ih =>
    cases l with
    | nil => simp [codeOf_condition]
    | cons r' l =>
      simp only [List.map_cons, List.intercalate_cons_cons, codeOf_append, codeOf_code,
        codeOf_condition] at ih ⊢
      rw [ih]

theorem literalsOf_intercalate (sep : NSString) (l : List Row) :
    literalsOf ((sep.map Piece.code).intercalate (l.map conditionPieces)) = l.map Row.pattern := by
  induction l with
  | nil => rfl
  | cons r l ih =>
    cases l with
    | nil => simp [literalsOf_condition]
    | cons r' l =>
      simp only [List.map_cons, List.intercalate_cons_cons, literalsOf_append, literalsOf_code,
        literalsOf_condition, List.append_nil, List.singleton_append] at ih ⊢
      rw [ih]

/-- Where each row with text is visible, each has its condition. -/
theorem conditions_of_visible {rows : List Row} (h : ∀ r ∈ rows, r.text ≠ [] → r.visible = true) :
    conditions rows = (withText rows).map fun r => conditionStr r.columnName r.text := by
  have hcond : ∀ r ∈ rows, r.condition = r.text := by
    intro r hr
    rw [Row.condition]
    by_cases ht : r.text = []
    · simp [ht]
    · simp [h r hr ht]
  rw [conditions, withText]
  have hf : (rows.filter fun r => r.condition.length > 0) = rows.filter fun r => r.text ≠ [] := by
    refine List.filter_congr fun r hr => ?_
    rw [hcond r hr]
    simp [List.length_pos_iff]
  rw [hf]
  refine List.map_congr_left fun r hr => ?_
  rw [hcond r (List.mem_filter.mp hr).1]

theorem intact_of_plain {head : NSString} {rows : List Row} (h : Plain head rows) :
    Intact (statement head (conditions rows)) head rows := by
  have hr : ∀ r ∈ withText rows, '\'' ∉ r.columnName ∧ '\'' ∉ r.text := by
    intro r hr
    obtain ⟨hm, ht⟩ := List.mem_filter.mp hr
    exact (h.2 r hm (by simpa using ht)).2
  rw [conditions_of_visible fun r hm ht => (h.2 r hm ht).1]
  by_cases hw : withText rows = []
  · refine ⟨head.map .code, ?_, by simp [hw], by simp [hw, statement, whereClause]⟩
    have hs : statement head [] = head := by simp [statement, whereClause]
    rw [hw, List.map_nil, hs]
    exact (reads_code '\'' h.1).split
  · have hne (f : Row → NSString) : (withText rows).map f ≠ [] := by simpa using hw
    have hcs := reads_intercalate '\'' (reads_code '\'' (a := ns "and") (by decide))
      (f := fun r : Row => conditionStr r.columnName r.text) (g := conditionPieces) (l := withText rows)
      fun r hm => reads_condition (hr r hm).1 (hr r hm).2
    have hall := ((reads_code '\'' h.1).append '\'' (reads_code '\'' (a := ns " where ") (by decide))).append
      '\'' hcs
    have he : statement head ((withText rows).map fun r => conditionStr r.columnName r.text) =
        head ++ ns " where " ++ (ns "and").intercalate
          ((withText rows).map fun r => conditionStr r.columnName r.text) := by
      rw [statement, whereClause, if_neg (hne _), joined, List.append_assoc]
    refine ⟨_, (congrArg _ he).trans hall.split, ?_, ?_⟩
    · simp only [literalsOf_append, literalsOf_code, List.nil_append]
      exact literalsOf_intercalate _ _
    · rw [statement, whereClause, if_neg (hne _), codeOf_append, codeOf_append, codeOf_code, codeOf_code,
        List.append_assoc]
      exact congrArg _ (congrArg _ (codeOf_intercalate _ _))

/-! ## Why nothing else works -/

/-- What a row adds to the statement it should be in. -/
def Row.size (r : Row) : Nat := r.columnName.length + r.text.length + 15

/-- What a row takes away from the statement: the whole row if it is not
visible, a character for each apostrophe that is not doubled. -/
def Row.missing (r : Row) : Nat := (if r.visible then 0 else r.size) + r.text.count '\''

theorem sum_conditions (rows : List Row) :
    ((conditions rows).map fun c => c.length + 3).sum +
        ((withText rows).map fun r => if r.visible then 0 else r.size).sum =
      ((withText rows).map Row.size).sum := by
  induction rows with
  | nil => rfl
  | cons r rows ih =>
    simp only [conditions, withText, List.filter_cons, Row.condition] at ih ⊢
    by_cases ht : r.text = []
    · simp [ht] at ih ⊢; omega
    · by_cases hv : r.visible = true
      · simp [ht, hv, Row.size, length_conditionStr, List.length_pos_iff] at ih ⊢; omega
      · simp [ht, hv, Row.size, List.length_pos_iff] at ih ⊢; omega

/-- The split of an intact statement accounts for every row with text. -/
theorem no_missing {head : NSString} {rows : List Row}
    (h : Intact (statement head (conditions rows)) head rows) :
    ∀ r ∈ withText rows, r.missing = 0 := by
  obtain ⟨ps, hs, hl, hc⟩ := h
  have hlen := length_of_split '\'' hs
  have hsum := sum_conditions rows
  have hlit : ((withText rows).map fun r => (outside r.columnName).length + 3).sum +
      ((literalsOf ps).map fun v => v.length + v.count '\'' + 2).sum =
      ((withText rows).map Row.size).sum + ((withText rows).map fun r => r.text.count '\'').sum := by
    rw [hl]
    generalize withText rows = l
    induction l with
    | nil => rfl
    | cons r l ih =>
      simp only [List.map_cons, List.sum_cons, length_outside, Row.pattern, Row.size, List.length_append,
        List.count_append] at ih ⊢
      have h1 : (ns "%").length = 1 := rfl
      have h2 : (ns "%").count '\'' = 0 := by decide
      omega
  have hmiss : ((withText rows).map Row.missing).sum =
      ((withText rows).map fun r => if r.visible then 0 else r.size).sum +
        ((withText rows).map fun r => r.text.count '\'').sum := by
    generalize withText rows = l
    induction l with
    | nil => rfl
    | cons r l ih => simp only [List.map_cons, List.sum_cons, Row.missing] at ih ⊢; omega
  rw [hc] at hlen
  simp only [statement, List.length_append, length_whereClause, List.map_map, Function.comp_def,
    List.map_eq_nil_iff] at hlen
  have hzero : ((withText rows).map Row.missing).sum = 0 := by
    by_cases hw : withText rows = []
    · simp [hw]
    · rw [if_neg hw] at hlen
      by_cases hn : conditions rows = []
      · rw [if_pos hn] at hlen; omega
      · rw [if_neg hn] at hlen; omega
  intro r hr
  exact List.sum_eq_zero_iff_forall_eq_nat.mp hzero _ (List.mem_map_of_mem hr)

theorem mem_statement {c : Char} {head : NSString} {cs : List NSString}
    (h : c ∈ head ∨ ∃ d ∈ cs, c ∈ d) : c ∈ statement head cs := by
  rw [statement, List.mem_append]
  rcases h with h | ⟨d, hd, h⟩
  · exact Or.inl h
  · right
    rw [whereClause, if_neg (List.ne_nil_of_mem hd), List.mem_append]
    right
    rw [joined]
    induction cs with
    | nil => cases hd
    | cons e cs ih =>
      cases cs with
      | nil => simp only [List.mem_singleton] at hd; subst hd; simpa using h
      | cons e' cs =>
        rw [List.intercalate_cons_cons, List.mem_append, List.mem_append]
        rcases List.mem_cons.mp hd with rfl | hd
        · exact Or.inl (Or.inl h)
        · exact Or.inr (ih hd)

theorem plain_of_intact {head : NSString} {rows : List Row}
    (h : Intact (statement head (conditions rows)) head rows) : Plain head rows := by
  have hm := no_missing h
  obtain ⟨ps, hs, -, hc⟩ := h
  have hcode := code_of_split '\'' hs
  rw [hc] at hcode
  refine ⟨fun hq => hcode (mem_statement (Or.inl hq)), fun r hr ht => ?_⟩
  have hw : r ∈ withText rows := List.mem_filter.mpr ⟨hr, by simpa using ht⟩
  have hz := hm r hw
  refine ⟨?_, fun hq => hcode (mem_statement (Or.inr ⟨outside r.columnName, ?_, ?_⟩)), ?_⟩
  · by_contra hv
    simp only [Row.missing, hv, Row.size] at hz
    simp at hz
  · exact List.mem_map_of_mem hw
  · simp [outside, hq]
  · rw [← List.count_eq_zero]
    rw [Row.missing] at hz
    omega

/-- **Criteria texts.** For every saved query and every table, and all rows
with any texts: the statement of `onExcute` (of `onSearch`) has exactly the
typed texts in its literals and the format outside of them if and only if no
name and no text has an apostrophe and every row with text is visible. -/
theorem intact_iff (query : Obj_Query) (m_tableName : NSString) (rows : List Row) :
    (Intact (onExcute query rows)
        (ns "select " ++ query.query_columns ++ ns " from " ++ query.query_tableName) rows ↔
      '\'' ∉ query.query_columns ∧ '\'' ∉ query.query_tableName ∧
        ∀ r ∈ rows, r.text ≠ [] → r.visible = true ∧ '\'' ∉ r.columnName ∧ '\'' ∉ r.text) ∧
    (Intact (onSearch m_tableName rows) (ns "select * from " ++ m_tableName) rows ↔
      '\'' ∉ m_tableName ∧
        ∀ r ∈ rows, r.text ≠ [] → r.visible = true ∧ '\'' ∉ r.columnName ∧ '\'' ∉ r.text) := by
  have hiff (head : NSString) :
      Intact (statement head (conditions rows)) head rows ↔ Plain head rows :=
    ⟨plain_of_intact, intact_of_plain⟩
  have h1 : '\'' ∉ ns "select " := by decide
  have h2 : '\'' ∉ ns " from " := by decide
  have h3 : '\'' ∉ ns "select * from " := by decide
  constructor
  · rw [onExcute_eq, hiff, Plain]
    simp only [List.mem_append, not_or, h1, h2, not_false_eq_true, true_and, and_true, and_assoc]
  · rw [onSearch_eq, hiff, Plain]
    simp only [List.mem_append, not_or, h3, not_false_eq_true, true_and]

/-- A saved query with one criteria column, and `it's` typed into it. -/
def saved : Obj_Query := ⟨ns "1", ns "1", ns "sales", ns "notes", ns "body", ns "title", ns "sales->notes->Search"⟩

theorem escaped_text : ¬ ∀ (query : Obj_Query) (rows : List Row),
    setQueryInfo query = some (rows.map (·.columnName)) →
      Intact (onExcute query rows)
        (ns "select " ++ query.query_columns ++ ns " from " ++ query.query_tableName) rows := by
  intro hall
  obtain ⟨ps, hs, -⟩ := hall saved [⟨ns "title", ns "it's", true⟩] (by decide)
  have hn : split '\'' (onExcute saved [⟨ns "title", ns "it's", true⟩]) = none := by decide
  rw [hn] at hs; cases hs

end MysqlConnection.L3.Criteria
