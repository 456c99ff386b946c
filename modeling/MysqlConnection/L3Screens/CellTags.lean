import MysqlConnection.L3Screens.MainViewController

/-!
# Cells of the main screen and their buttons

`cellForRowAtIndexPath:` writes the row and its table into one number, the tag
of the cell; the two handlers read the table and the index back from that
number. Rows count from 0, deleted databases from 1000, queries from 10000,
and the number is an `int` of 32 bits.

* `AddAction_eq`, `DeleteAction_eq`: the handlers of `MainViewController` take
  the object that `decode` names.
* `ownRow_iff`: exactly which rows have buttons for their own record.
-/
namespace MysqlConnection.L3.CellTags

open L2.DBConnector Main

/-! ## Cells -/

/-- mirrors MainViewController.h:30-32 -/
inductive TableView where
  | connectedDatabase
  | recentDatabase
  | query
  deriving DecidableEq, Repr

inductive Accessory where
  | none
  | disclosureIndicator
  | detailButton
  deriving DecidableEq, Repr

/-- A view with alpha 0 is not shown and takes no touch. -/
structure Cell where
  tag : Int
  accessory : Accessory
  lbl_name : NSString
  lbl_description : NSString
  lbl_newConnection : NSString
  lbl_newConnection_shown : Bool
  btn_add_shown : Bool
  btnDelete_shown : Bool
  deriving DecidableEq, Repr

/-- The cell in the nib. mirrors BaseTableCell.xib:9-66 -/
def baseTableCell : Cell where
  tag := 0
  accessory := .detailButton
  lbl_name := ns "Label"
  lbl_description := ns "Label"
  lbl_newConnection := ns "New Connection"
  lbl_newConnection_shown := false
  btn_add_shown := true
  btnDelete_shown := true

/-- mirrors MainViewController.m:63-71 -/
def numberOfRows (s : St) : TableView → Nat
  | .connectedDatabase => s.m_connectedDatabases.length + 1
  | .query => s.m_queryArray.length
  | .recentDatabase => s.m_recentDatabases.length + 1

/-- mirrors MainViewController.m:84, 100, 118 -/
def tag : TableView → Nat → Int
  | .connectedDatabase, row => row
  | .recentDatabase, row => row + 1000
  | .query, row => row + 10000

/-- `none`: `objectAtIndex:` raises. mirrors MainViewController.m:78-130 -/
def cellForRow (s : St) (t : TableView) (row : Nat) : Option Cell :=
  let cellView : Cell := { baseTableCell with tag := tag t row }
  match t with
  | .connectedDatabase =>
    if row = s.m_connectedDatabases.length then
      some
        { cellView with
          accessory := .disclosureIndicator
          lbl_name := [], lbl_description := []
          lbl_newConnection_shown := true, btnDelete_shown := false }
    else
      s.m_connectedDatabases[row]?.map fun item =>
        { cellView with
          lbl_name := item.dbName, lbl_description := item.dbDescription
          btn_add_shown := false }
  | .recentDatabase =>
    if row = s.m_recentDatabases.length then
      some
        { cellView with
          accessory := .disclosureIndicator
          lbl_name := [], lbl_description := []
          lbl_newConnection_shown := true, lbl_newConnection := ns "Demo SQL Server"
          btnDelete_shown := false, btn_add_shown := false }
    else
      s.m_recentDatabases[row]?.map fun item =>
        { cellView with
          accessory := .none
          lbl_name := item.dbName, lbl_description := item.dbDescription
          btnDelete_shown := false }
  | .query =>
    s.m_queryArray[row]?.map fun item =>
      { cellView with
        lbl_name := [], lbl_description := []
        lbl_newConnection_shown := true, lbl_newConnection := item.query_showName
        btnDelete_shown := true, btn_add_shown := false }

/-! ## Records -/

inductive Record where
  | dataBase (item : Obj_Database)
  | query (item : Obj_Query)
  deriving DecidableEq, Repr

/-- The record at an index of the array behind a table. -/
def record (s : St) : TableView → Nat → Option Record
  | .connectedDatabase, i => s.m_connectedDatabases[i]?.map .dataBase
  | .recentDatabase, i => s.m_recentDatabases[i]?.map .dataBase
  | .query, i => s.m_queryArray[i]?.map .query

/-- The rows of a table that show a record. -/
def count (s : St) : TableView → Nat
  | .connectedDatabase => s.m_connectedDatabases.length
  | .recentDatabase => s.m_recentDatabases.length
  | .query => s.m_queryArray.length

/-- The texts of the record stand in the cell. -/
def Cell.Shows (c : Cell) : Record → Prop
  | .dataBase item => c.lbl_name = item.dbName ∧ c.lbl_description = item.dbDescription ∧
      c.lbl_newConnection_shown = false
  | .query item => c.lbl_newConnection = item.query_showName ∧ c.lbl_newConnection_shown = true

/-! ## Buttons -/

inductive Button where
  | add
  | delete
  deriving DecidableEq, Repr

/-- The button that a row with a record has. -/
def button : TableView → Button
  | .connectedDatabase => .delete
  | .recentDatabase => .add
  | .query => .delete

def Cell.hasButton (c : Cell) : Button → Bool
  | .add => c.btn_add_shown
  | .delete => c.btnDelete_shown

/-- A number stored in an `int`. -/
def int (n : Int) : Int := n.bmod (2 ^ 32)

/-- An `int` taken as an `NSUInteger`. -/
def unsigned (n : Int) : Nat := (n % 2 ^ 32).toNat

/-- The object that a handler is about. -/
inductive Target where
  | newConnection
  | row (t : TableView) (index : Nat)
  deriving DecidableEq, Repr

/-- mirrors MainViewController.m:219-227 -/
def addTarget (s : St) (index : Int) : Target :=
  if 1000 ≤ index then .row .recentDatabase (unsigned (index - 1000))
  else if unsigned index = s.m_connectedDatabases.length then .newConnection
  else .row .connectedDatabase (unsigned index)

/-- mirrors MainViewController.m:237-252 -/
def deleteTarget (s : St) (index : Int) : Target :=
  if 1000 ≤ index ∧ index < 10000 then .row .recentDatabase (unsigned (index - 1000))
  else if 10000 ≤ index then .row .query (unsigned (index - 10000))
  else if unsigned index = s.m_connectedDatabases.length then .newConnection
  else .row .connectedDatabase (unsigned index)

def decode (s : St) : Button → Int → Target
  | .add => addTarget s
  | .delete => deleteTarget s

theorem unsigned_natCast {n : Nat} (h : n < 2 ^ 32) : unsigned n = n := by
  unfold unsigned
  omega

theorem addTarget_natCast (s : St) {n : Nat} (h : n < 2 ^ 31) :
    addTarget s n =
      if 1000 ≤ n then .row .recentDatabase (n - 1000)
      else if n = s.m_connectedDatabases.length then .newConnection
      else .row .connectedDatabase n := by
  unfold addTarget
  rw [unsigned_natCast (by omega)]
  by_cases h1 : 1000 ≤ n
  · rw [if_pos h1, if_pos (by omega), show (n : Int) - 1000 = (n - 1000 : Nat) by omega,
      unsigned_natCast (by omega)]
  · rw [if_neg h1, if_neg (by omega)]

theorem deleteTarget_natCast (s : St) {n : Nat} (h : n < 2 ^ 31) :
    deleteTarget s n =
      if 1000 ≤ n ∧ n < 10000 then .row .recentDatabase (n - 1000)
      else if 10000 ≤ n then .row .query (n - 10000)
      else if n = s.m_connectedDatabases.length then .newConnection
      else .row .connectedDatabase n := by
  unfold deleteTarget
  rw [unsigned_natCast (by omega)]
  by_cases h1 : 1000 ≤ n ∧ n < 10000
  · rw [if_pos h1, if_pos (by omega), show (n : Int) - 1000 = (n - 1000 : Nat) by omega,
      unsigned_natCast (by omega)]
  rw [if_neg h1, if_neg (by omega)]
  by_cases h2 : 10000 ≤ n
  · rw [if_pos h2, if_pos (by omega), show (n : Int) - 10000 = (n - 10000 : Nat) by omega,
      unsigned_natCast (by omega)]
  · rw [if_neg h2, if_neg (by omega)]

section
variable (db : Sqlite)

/-- What a handler does with the record it took.
mirrors MainViewController.m:230-232, 241-245, 255-257 -/
def handle (s : St) : Button → Record → St
  | .add, .dataBase item => refreshTables { s with store := AddToHistory db s.store item }
  | .delete, .dataBase item => refreshTables { s with store := DeleteFromHistory db s.store item }
  | _, .query item => { s with m_delteQueryItem := some item }

/-- `BaseTableCellDelegate_AddAction:` and `BaseTableCellDelegate_DeleteAction:`.
mirrors MainViewController.m:216-258 -/
def action (s : St) (b : Button) (index : Int) : Option St :=
  match decode s b index with
  | .newConnection => some (newConnection s)
  | .row t i => (record s t i).map (handle db s b)

/-- `onAddButtonClicked:` and `onDeleteButtonClicked:`.
mirrors BaseTableCell.m:31-39 -/
def clicked (s : St) (b : Button) (cell : Cell) : Option St := action db s b (int cell.tag)

/-- The handler of the model takes the object that the tag is decoded to. -/
theorem AddAction_eq (s : St) {index : Nat} (h : index < 2 ^ 31) :
    Main.AddAction db s index = action db s .add index := by
  simp only [Main.AddAction, action, decode, addTarget_natCast s h]
  split
  · simp [record, handle, Function.comp_def]
  split
  · rfl
  · simp [record, handle, Function.comp_def]

theorem DeleteAction_eq (s : St) {index : Nat} (h : index < 2 ^ 31) :
    Main.DeleteAction db s index = action db s .delete index := by
  simp only [Main.DeleteAction, action, decode, deleteTarget_natCast s h]
  split
  · simp [record, handle, Function.comp_def]
  split
  · simp [record, handle, Function.comp_def]
  split
  · rfl
  · simp [record, handle, Function.comp_def]

/-! ## Rows and their own records -/

/-- The tag of the row is decoded to its own table and index, and the button
that the row shows acts on the record that it shows. -/
structure OwnRow (s : St) (t : TableView) (row : Nat) : Prop where
  decoded : (cellForRow s t row).map (fun cell => decode s (button t) (int cell.tag)) =
    some (.row t row)
  acts : ∃ cell item, cellForRow s t row = some cell ∧ record s t row = some item ∧
    cell.Shows item ∧ cell.hasButton (button t) ∧
    clicked db s (button t) cell = some (handle db s (button t) item)

/-- The cell of a row with a record: its tag, its texts and its button. -/
theorem cellForRow_record (s : St) (t : TableView) {row : Nat} (h : row < count s t) :
    ∃ cell item, cellForRow s t row = some cell ∧ record s t row = some item ∧
      cell.tag = tag t row ∧ cell.Shows item ∧ cell.hasButton (button t) := by
  cases t with
  | connectedDatabase =>
    have hr : row < s.m_connectedDatabases.length := h
    simp only [cellForRow, if_neg (Nat.ne_of_lt hr), record, List.getElem?_eq_getElem hr]
    exact ⟨_, _, rfl, rfl, rfl, ⟨rfl, rfl, rfl⟩, rfl⟩
  | recentDatabase =>
    have hr : row < s.m_recentDatabases.length := h
    simp only [cellForRow, if_neg (Nat.ne_of_lt hr), record, List.getElem?_eq_getElem hr]
    exact ⟨_, _, rfl, rfl, rfl, ⟨rfl, rfl, rfl⟩, rfl⟩
  | query =>
    have hr : row < s.m_queryArray.length := h
    simp only [cellForRow, record, List.getElem?_eq_getElem hr]
    exact ⟨_, _, rfl, rfl, rfl, ⟨rfl, rfl⟩, rfl⟩

/-- No row of a table raises while it is drawn. -/
theorem cellForRow_isSome (s : St) (t : TableView) {row : Nat} (h : row < numberOfRows s t) :
    (cellForRow s t row).isSome := by
  by_cases hr : row < count s t
  · obtain ⟨cell, -, hc, -⟩ := cellForRow_record s t hr
    simp [hc]
  -- what is left is the last row of the first two tables
  cases t with
  | connectedDatabase =>
    have hlast : row = s.m_connectedDatabases.length := by
      simp only [numberOfRows, count] at h hr; omega
    simp [cellForRow, hlast]
  | recentDatabase =>
    have hlast : row = s.m_recentDatabases.length := by
      simp only [numberOfRows, count] at h hr; omega
    simp [cellForRow, hlast]
  | query => exact absurd h hr

/-- How many rows with a record a table may have before a tag leaves its range. -/
def limit : TableView → Nat
  | .connectedDatabase => 1000
  | .recentDatabase => 2 ^ 31 - 1000
  | .query => 2 ^ 31 - 10000

theorem int_natCast {n : Nat} (h : n < 2 ^ 31) : int n = n :=
  Int.bmod_eq_of_le (by omega) (by omega)

theorem decode_tag (s : St) (t : TableView) {row : Nat} (h : row < count s t) (hl : row < limit t) :
    decode s (button t) (int (tag t row)) = .row t row := by
  cases t with
  | connectedDatabase =>
    simp only [limit] at hl
    have hc : row ≠ s.m_connectedDatabases.length := Nat.ne_of_lt h
    have hn : row < 2 ^ 31 := by omega
    have hi : int (tag .connectedDatabase row) = row := int_natCast hn
    rw [hi]
    simp only [button, decode, deleteTarget_natCast s hn]
    rw [if_neg (by omega), if_neg (by omega), if_neg hc]
  | recentDatabase =>
    simp only [limit] at hl
    have hn : row + 1000 < 2 ^ 31 := by omega
    have hi : int (tag .recentDatabase row) = (row + 1000 : Nat) := int_natCast hn
    rw [hi]
    simp only [button, decode, addTarget_natCast s hn]
    rw [if_pos (by omega), Nat.add_sub_cancel]
  | query =>
    simp only [limit] at hl
    have hn : row + 10000 < 2 ^ 31 := by omega
    have hi : int (tag .query row) = (row + 10000 : Nat) := int_natCast hn
    rw [hi]
    simp only [button, decode, deleteTarget_natCast s hn]
    rw [if_neg (by omega), if_pos (by omega), Nat.add_sub_cancel]

/-- The first row over the limit is taken for a row of another table. -/
theorem decode_tag_limit (s : St) (t : TableView) :
    decode s (button t) (int (tag t (limit t))) ≠ .row t (limit t) := by
  cases t with
  | connectedDatabase =>
    have hi : int (tag .connectedDatabase 1000) = (1000 : Nat) := by decide
    simp only [limit, hi, button, decode, deleteTarget_natCast s (by omega : 1000 < 2 ^ 31)]
    simp
  | recentDatabase =>
    have hi : int (tag .recentDatabase (limit .recentDatabase)) = -2 ^ 31 := by decide
    rw [hi]
    simp only [button, decode, addTarget]
    rw [if_neg (by decide)]
    split <;> simp
  | query =>
    have hi : int (tag .query (limit .query)) = -2 ^ 31 := by decide
    rw [hi]
    simp only [button, decode, deleteTarget]
    rw [if_neg (by decide), if_neg (by decide)]
    split <;> simp

theorem ownRow_of_decode {s : St} {t : TableView} {row : Nat} (h : row < count s t)
    (hd : decode s (button t) (int (tag t row)) = .row t row) : OwnRow db s t row := by
  obtain ⟨cell, item, hc, hr, ht, hs, hb⟩ := cellForRow_record s t h
  refine ⟨by rw [hc, Option.map_some, ht, hd], cell, item, hc, hr, hs, hb, ?_⟩
  rw [clicked, action, ht, hd]
  simp only [hr, Option.map_some]

theorem decode_of_ownRow {s : St} {t : TableView} {row : Nat} (h : row < count s t)
    (ho : OwnRow db s t row) : decode s (button t) (int (tag t row)) = .row t row := by
  obtain ⟨cell, item, hc, hr, ht, hs, hb⟩ := cellForRow_record s t h
  have hd := ho.decoded
  rw [hc, Option.map_some, ht] at hd
  exact Option.some.inj hd

/-- **Whose row it is.** For every state of the lists, each row of a table that
shows a record has a button for this record if and only if the table has no more
rows than its tags have room for: 1000 connected databases, then the tags of the
deleted ones begin; `2 ^ 31 - 1000` and `2 ^ 31 - 10000` in the other two, then
the `int` is negative. -/
theorem ownRow_iff (s : St) (t : TableView) :
    (∀ row < count s t, OwnRow db s t row) ↔ count s t ≤ limit t := by
  constructor
  · intro h
    by_contra hl
    have hrow : limit t < count s t := by omega
    exact decode_tag_limit s t (decode_of_ownRow db hrow (h _ hrow))
  · intro hl row h
    exact ownRow_of_decode db h (decode_tag s t h (by omega))

end

/-! ## A thousand and one databases -/

/-- 1001 connected databases, nothing else. -/
def crowded : St :=
  { viewDidLoad ⟨.empty, .empty⟩ with
    m_connectedDatabases := (List.range 1001).map fun i =>
      ⟨Sql.natText (i + 1), ns "shop", ns "h", ns "sa", ns "pw", ns "1433", ns "orders", ns "2013"⟩ }

/-- **A button without a record.** Row 1000 shows a connected database, and its
delete button asks for the first deleted one; there is none, and `objectAtIndex:`
raises. -/
theorem crowded_row :
    (∃ cell item, cellForRow crowded .connectedDatabase 1000 = some cell ∧
      record crowded .connectedDatabase 1000 = some item ∧ cell.Shows item ∧
      decode crowded .delete (int cell.tag) = .row .recentDatabase 0 ∧
      clicked strict crowded .delete cell = none) ∧
    ¬ ∀ t, ∀ row < count crowded t, OwnRow strict crowded t row := by
  have hc : count crowded .connectedDatabase = 1001 := by simp [count, crowded]
  have hd : decode crowded .delete (int (tag .connectedDatabase 1000)) = .row .recentDatabase 0 := by
    have hi : int (tag .connectedDatabase 1000) = (1000 : Nat) := int_natCast (by omega)
    rw [hi, decode, deleteTarget_natCast crowded (by omega), if_pos (by omega)]
  constructor
  · obtain ⟨cell, item, hcell, hr, ht, hs, -⟩ := cellForRow_record crowded .connectedDatabase
      (by omega : 1000 < count crowded .connectedDatabase)
    refine ⟨cell, item, hcell, hr, hs, by rw [ht, hd], ?_⟩
    rw [clicked, action, ht, hd]
    rfl
  · intro h
    have ho := decode_of_ownRow strict (by omega) (h .connectedDatabase 1000 (by omega))
    rw [button, hd] at ho
    simp at ho

end MysqlConnection.L3.CellTags
