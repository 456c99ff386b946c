import MysqlConnection.Core.LTS
import MysqlConnection.L1Foundation.NSString

/-!
# The query builder

`BuildViewController` with the column chooser it pushes
(`AdminTableConfController`). While the chooser is on top the builder gets no
touches, but responses still arrive. `cols` says which columns each table has;
a response brings the columns of the table it was asked for, or is empty.

`onSelectTable` changes the table name at once and the cached columns with the
response, so the chooser may be opened with the columns of another table, and
the response of edit mode puts the saved columns back under any table name
(`foreign_column`).

* `Owned`: the text fields, the selection of an open column chooser and the
  stored queries only name columns of their table. It is kept by every step
  that meets `Fresh`.
* `owned_of_fresh`: so in such runs every stored query has columns of its own
  table.
-/
namespace MysqlConnection.L3.Build

/-- `AdminTableConfController`. `m_columnArray` holds the names of its
columns, `selected` is `selectedItemArray`. -/
structure Chooser where
  typeId : Int
  m_tableName : NSString
  m_columnArray : List NSString
  selected : List NSString
  deriving DecidableEq, Repr

/-- A `getColumNamesInTable:` that was not answered yet. -/
structure Request where
  tableName : NSString
  signalId : Int
  deriving DecidableEq, Repr

/-- What `onBuild` passes to the store. -/
structure Stored where
  tableName : NSString
  columns : NSString
  searchRule : NSString
  update : Option Obj_Query
  deriving DecidableEq, Repr

/-- `m_tableArray` holds the names of the tables; `m_selectedTableColumns` the
names of the columns and the table they were asked for; `overlay` is the
visibility of `sub_selectTableView`. -/
structure St where
  m_tableArray : List NSString
  m_defaultInformation : Option Obj_Query
  edt_tableName : NSString
  edt_columns : NSString
  edt_searchRule : NSString
  selectedTableName : Option NSString
  m_selectedTableColumns : Option (NSString × List NSString)
  overlay : Bool
  chooser : Option Chooser
  requests : List Request
  stored : List Stored
  closed : Bool
  deriving DecidableEq, Repr

/-- `empty`: the response has no tables (the query failed). -/
inductive Label where
  | didSelectRow (row : Nat)
  | onSelectTable
  | beginTableName
  | beginColumns
  | beginSearchRule
  | onChangeValue (tag : Nat) (isOn : Bool)
  | onSave
  | onGoBack
  | onBuild
  | recivedDataArray (i : Nat) (empty : Bool)
  deriving DecidableEq, Repr

/-- `viewDidLoad`, after `setInformations` and, in edit mode,
`setUpdateQueryItem`.
mirrors BuildViewController.m:41-51, 97-109 -/
def viewDidLoad (m_tableArray : List NSString) (item : Option Obj_Query) : St where
  m_tableArray := m_tableArray
  m_defaultInformation := item
  edt_tableName := (item.map (·.query_tableName)).getD []
  edt_columns := []
  edt_searchRule := []
  selectedTableName := none
  m_selectedTableColumns := none
  overlay := false
  chooser := none
  requests := (item.map fun q => ⟨q.query_tableName, 1⟩).toList
  stored := []
  closed := false

/-! ## The chooser -/

/-- The `for` loop of a switch turned off: `removeObject:` in the loop raises
unless the removed column was the last one.
mirrors AdminTableConfController.m:130-134 -/
def removeSelected (columnName : NSString) : List NSString → Option (List NSString)
  | [] => some []
  | [c] => some (if c = columnName then [] else [c])
  | c :: cs => if c = columnName then none else (removeSelected columnName cs).map (c :: ·)

/-- mirrors AdminTableConfController.m:117-136 -/
def onChangeValue (c : Chooser) (tag : Nat) (isOn : Bool) : Option Chooser :=
  match c.m_columnArray[tag]? with
  | none => none
  | some columnName =>
    if isOn then some { c with selected := c.selected ++ [columnName] }
    else (removeSelected columnName c.selected).map fun l => { c with selected := l }

/-- `setConfData:` is only called with text.
mirrors AdminTableConfController.m:36-42 and BuildViewController.m:61-66, 71-76 -/
def confData (conf : NSString) : List NSString := if conf.length > 0 then components conf else []

/-- mirrors AdminTableConfController.m:58-81 -/
def getConfString (c : Chooser) : NSString := joined (ns ",") c.selected

/-! ## The builder -/

/-- mirrors BuildViewController.m:26-39 -/
def onSelectTable (s : St) : St :=
  if s.selectedTableName = some s.edt_tableName then { s with overlay := false }
  else
    let tableName := s.selectedTableName.getD []
    { s with
      edt_tableName := tableName
      edt_columns := []
      edt_searchRule := []
      requests := s.requests ++ [⟨tableName, 0⟩] }

/-- mirrors BuildViewController.m:58-68 -/
def beginColumns (s : St) : St :=
  if s.edt_tableName.length = 0 then s
  else
    let m_columnArray := (s.m_selectedTableColumns.map (·.2)).getD []
    { s with chooser := some ⟨0, s.edt_tableName, m_columnArray, confData s.edt_columns⟩ }

/-- mirrors BuildViewController.m:69-81 -/
def beginSearchRule (s : St) : St :=
  if s.edt_columns.length = 0 then s
  else
    let columnArray := components s.edt_columns
    { s with chooser := some ⟨1, s.edt_tableName, columnArray, confData s.edt_searchRule⟩ }

/-- mirrors BuildViewController.m:86-95 -/
def AdminTableConfControllerDelegate_Data (s : St) (data : NSString) (type : Int) : St :=
  if type = 0 then
    if s.edt_columns = data then s else { s with edt_searchRule := [], edt_columns := data }
  else if type = 1 then { s with edt_searchRule := data }
  else s

/-- mirrors BuildViewController.m:135-164 -/
def onBuild (s : St) : St :=
  if s.edt_tableName.length = 0 ∨ s.edt_columns.length = 0 ∨ s.edt_searchRule.length = 0 then s
  else
    let item := s.m_defaultInformation.map fun q =>
      ({ q with query_tableName := s.edt_tableName, query_columns := s.edt_columns,
                query_searchRule := s.edt_searchRule } : Obj_Query)
    { s with
      stored := s.stored ++ [⟨s.edt_tableName, s.edt_columns, s.edt_searchRule, item⟩]
      closed := true }

/-- mirrors BuildViewController.m:165-177 -/
def recivedDataArray (s : St) (tableName : NSString) (result : List NSString) (signalId : Int) : St :=
  if signalId = 0 then { s with overlay := false, m_selectedTableColumns := some (tableName, result) }
  else if signalId = 1 then
    { s with
      m_selectedTableColumns := some (tableName, result)
      edt_columns := (s.m_defaultInformation.map (·.query_columns)).getD []
      edt_searchRule := (s.m_defaultInformation.map (·.query_searchRule)).getD [] }
  else s

/-- Touches on the builder while it is on top. -/
def builderStep (s : St) : Label → Option St
  | .didSelectRow 0 => some s
  | .didSelectRow (row + 1) =>
    (s.m_tableArray[row]?).map fun name => { s with selectedTableName := some name }
  | .onSelectTable => some (onSelectTable s)
  | .beginTableName => some { s with overlay := true }
  | .beginColumns => some (beginColumns s)
  | .beginSearchRule => some (beginSearchRule s)
  | .onBuild => some (onBuild s)
  | _ => none

/-- Touches on the chooser while it is on top. -/
def chooserStep (s : St) (c : Chooser) : Label → Option St
  | .onChangeValue tag isOn => (onChangeValue c tag isOn).map fun c' => { s with chooser := some c' }
  | .onSave =>
    some (AdminTableConfControllerDelegate_Data { s with chooser := none } (getConfString c) c.typeId)
  | .onGoBack => some { s with chooser := none }
  | _ => none

section
variable (cols : NSString → List NSString)

def step (s : St) (l : Label) : Option St :=
  if s.closed then none
  else
    match l with
    | .recivedDataArray i empty =>
      (s.requests[i]?).map fun r =>
        let s := { s with requests := s.requests.eraseIdx i }
        if empty then s else recivedDataArray s r.tableName (cols r.tableName) r.signalId
    | l =>
      match s.chooser with
      | none => builderStep s l
      | some c => chooserStep s c l

/-- Each column of `columns` is one of `tableName`. -/
def Belongs (tableName columns : NSString) : Prop := ∀ c ∈ components columns, c ∈ cols tableName

instance (tableName columns : NSString) : Decidable (Belongs cols tableName columns) := by
  unfold Belongs; exact inferInstance

/-- Empty, or in edit mode from a query whose columns belong to its table. -/
def Initial (s : St) : Prop :=
  ∃ tables item, (∀ q, item = some q → Belongs cols q.query_tableName q.query_columns) ∧
    s = viewDidLoad tables item

def lts : LTS St Label := LTS.ofFn (Initial cols) (step cols)

/-- Every stored query has columns of its own table. -/
def StoredBelong (s : St) : Prop := ∀ q ∈ s.stored, Belongs cols q.tableName q.columns

instance : DecidablePred (StoredBelong cols) := fun s => by unfold StoredBelong; exact inferInstance

/-- The column chooser is opened with the columns of the table shown (or with
none), only columns without a comma are switched on in it, and the response
of edit mode finds the table it was asked for. -/
def Fresh (s : St) : Label → Prop
  | .beginColumns => s.edt_tableName = [] ∨ ∀ x ∈ s.m_selectedTableColumns, x.1 = s.edt_tableName
  | .onChangeValue tag true =>
    ∀ c ∈ s.chooser, c.typeId = 0 → ∀ name ∈ c.m_columnArray[tag]?, ',' ∉ name
  | .recivedDataArray i false =>
    ∀ r ∈ s.requests[i]?, r.signalId = 1 → s.edt_tableName = r.tableName
  | _ => True

instance (s : St) (l : Label) : Decidable (Fresh s l) := by
  unfold Fresh; split <;> exact inferInstance

/-- A column chooser of a table: the names it shows and the names it has
selected are columns of the table, and the latter have no comma. -/
structure Chooser.Owned (tableName : NSString) (c : Chooser) : Prop where
  table : c.m_tableName = tableName
  columns : ∀ name ∈ c.m_columnArray, name ∈ cols tableName
  selected : ∀ name ∈ c.selected, name ∈ cols tableName ∧ ',' ∉ name

structure Owned (s : St) : Prop where
  columns : s.edt_columns = [] ∨ Belongs cols s.edt_tableName s.edt_columns
  cached : ∀ x, s.m_selectedTableColumns = some x → x.2 = cols x.1
  chooser : ∀ c, s.chooser = some c → c.typeId = 0 → c.Owned cols s.edt_tableName
  saved : ∀ q, s.m_defaultInformation = some q → Belongs cols q.query_tableName q.query_columns
  edit : ∀ r ∈ s.requests, r.signalId = 1 →
    ∃ q, s.m_defaultInformation = some q ∧ r.tableName = q.query_tableName
  stored : StoredBelong cols s

end

/-! ## Components -/

theorem not_mem_of_mem_components {s c : NSString} (h : c ∈ components s) : ',' ∉ c := by
  induction s generalizing c with
  | nil => simp [components] at h; subst h; simp
  | cons x s ih =>
    rw [components, List.splitOn_cons_eq_if_modifyHead] at h
    by_cases hx : x = ','
    · rw [if_pos (by simpa using hx)] at h
      rcases List.mem_cons.mp h with rfl | h
      · simp
      · exact ih h
    · rw [if_neg (by simpa using hx)] at h
      obtain ⟨d, ds, hd⟩ := List.exists_cons_of_ne_nil (List.splitOn_ne_nil ',' s)
      rw [hd, List.modifyHead_cons] at h
      rcases List.mem_cons.mp h with rfl | h
      · intro hm
        rcases List.mem_cons.mp hm with hm | hm
        · exact hx hm.symm
        · exact ih (c := d) (by rw [components, hd]; simp) hm
      · exact ih (by rw [components, hd]; exact List.mem_cons_of_mem _ h)

theorem components_joined {xs : List NSString} (h : ∀ x ∈ xs, ',' ∉ x) (hne : xs ≠ []) :
    components (joined (ns ",") xs) = xs :=
  List.splitOn_intercalate ',' h hne

/-- What the delegate gets from a chooser whose names have no comma. -/
theorem belongs_getConfString {cols : NSString → List NSString} {tableName : NSString} {c : Chooser}
    (h : c.Owned cols tableName) :
    getConfString c = [] ∨ Belongs cols tableName (getConfString c) := by
  by_cases hne : c.selected = []
  · left; simp [getConfString, joined, hne]
  · right
    intro name hname
    rw [getConfString, components_joined (fun x hx => (h.selected x hx).2) hne] at hname
    exact (h.selected name hname).1

theorem mem_of_removeSelected {columnName : NSString} :
    ∀ {l l' : List NSString}, removeSelected columnName l = some l' → ∀ x ∈ l', x ∈ l
  | [], l', h, x, hx => by
    simp only [removeSelected, Option.some.injEq] at h; subst h; exact hx
  | [c], l', h, x, hx => by
    simp only [removeSelected, Option.some.injEq] at h
    subst h
    split at hx
    · cases hx
    · exact hx
  | c :: d :: cs, l', h, x, hx => by
    rw [removeSelected] at h
    by_cases hc : c = columnName
    · rw [if_pos hc] at h; cases h
    · rw [if_neg hc, Option.map_eq_some_iff] at h
      obtain ⟨l₁, hl, rfl⟩ := h
      rcases List.mem_cons.mp hx with rfl | hx
      · exact List.mem_cons_self
      · exact List.mem_cons_of_mem _ (mem_of_removeSelected hl x hx)
    · simp

/-! ## Every step keeps `Owned` -/

section
variable {cols : NSString → List NSString}

theorem owned_viewDidLoad {tables : List NSString} {item : Option Obj_Query}
    (h : ∀ q, item = some q → Belongs cols q.query_tableName q.query_columns) :
    Owned cols (viewDidLoad tables item) where
  columns := Or.inl rfl
  cached := by intro x hx; cases hx
  chooser := by intro c hc; cases hc
  saved := h
  edit := by
    intro r hr _
    cases item with
    | none => cases hr
    | some q =>
      simp only [viewDidLoad, Option.map_some, Option.toList_some, List.mem_singleton] at hr
      subst hr
      exact ⟨q, rfl, rfl⟩
  stored := by intro q hq; cases hq

theorem owned_onSelectTable {s : St} (h : Owned cols s) (hc : s.chooser = none) :
    Owned cols (onSelectTable s) := by
  unfold onSelectTable
  split
  · exact ⟨h.columns, h.cached, h.chooser, h.saved, h.edit, h.stored⟩
  · refine ⟨Or.inl rfl, h.cached, ?_, h.saved, ?_, h.stored⟩
    · intro c hc'
      rw [hc] at hc'; cases hc'
    · intro r hr h1
      rcases List.mem_append.mp hr with hr | hr
      · exact h.edit r hr h1
      · rw [List.mem_singleton] at hr
        subst hr; cases h1

theorem owned_beginColumns {s : St} (h : Owned cols s) (hf : Fresh s .beginColumns) :
    Owned cols (beginColumns s) := by
  unfold beginColumns
  split
  · exact h
  · rename_i hne
    refine ⟨h.columns, h.cached, ?_, h.saved, h.edit, h.stored⟩
    intro c hc _
    simp only [Option.some.injEq] at hc
    subst hc
    refine ⟨rfl, ?_, ?_⟩
    · intro name hname
      have hshown : ∀ x, s.m_selectedTableColumns = some x → x.1 = s.edt_tableName := by
        rcases hf with hf | hf
        · exact absurd (by rw [hf]; rfl) hne
        · exact hf
      cases hx : s.m_selectedTableColumns with
      | none => rw [hx] at hname; cases hname
      | some x =>
        rw [hx] at hname
        rw [← hshown x hx, ← h.cached x hx]
        exact hname
    · intro name hname
      simp only [confData] at hname
      split at hname
      · rename_i hpos
        refine ⟨?_, not_mem_of_mem_components hname⟩
        rcases h.columns with he | hb
        · rw [he] at hpos; simp at hpos
        · exact hb name hname
      · cases hname

theorem owned_beginSearchRule {s : St} (h : Owned cols s) : Owned cols (beginSearchRule s) := by
  unfold beginSearchRule
  split
  · exact h
  · refine ⟨h.columns, h.cached, ?_, h.saved, h.edit, h.stored⟩
    intro c hc h0
    simp only [Option.some.injEq] at hc
    subst hc; cases h0

theorem owned_onBuild {s : St} (h : Owned cols s) : Owned cols (onBuild s) := by
  unfold onBuild
  split
  · exact h
  · rename_i hne
    refine ⟨h.columns, h.cached, h.chooser, h.saved, h.edit, ?_⟩
    intro q hq
    rcases List.mem_append.mp hq with hq | hq
    · exact h.stored q hq
    · rw [List.mem_singleton] at hq
      subst hq
      rcases h.columns with he | hb
      · exact absurd (by rw [he]; simp) hne
      · exact hb

theorem owned_onChangeValue {tableName : NSString} {c c' : Chooser} {tag : Nat} {isOn : Bool}
    (h : c.Owned cols tableName)
    (hf : isOn = true → ∀ name, c.m_columnArray[tag]? = some name → ',' ∉ name)
    (hs : onChangeValue c tag isOn = some c') : c'.Owned cols tableName := by
  unfold onChangeValue at hs
  split at hs
  · cases hs
  · rename_i columnName hget
    cases isOn with
    | true =>
      simp only [if_true, Option.some.injEq] at hs
      subst hs
      refine ⟨h.table, h.columns, ?_⟩
      intro name hname
      rcases List.mem_append.mp hname with hname | hname
      · exact h.selected name hname
      · rw [List.mem_singleton] at hname
        subst hname
        exact ⟨h.columns _ (List.mem_of_getElem? hget), hf rfl _ hget⟩
    | false =>
      simp only [Bool.false_eq_true, if_false, Option.map_eq_some_iff] at hs
      obtain ⟨l, hl, rfl⟩ := hs
      exact ⟨h.table, h.columns, fun name hname => h.selected name (mem_of_removeSelected hl name hname)⟩

theorem typeId_onChangeValue {c c' : Chooser} {tag : Nat} {isOn : Bool}
    (hs : onChangeValue c tag isOn = some c') :
    c'.typeId = c.typeId := by
  unfold onChangeValue at hs
  split at hs
  · cases hs
  · split at hs
    · simp only [Option.some.injEq] at hs; subst hs; rfl
    · simp only [Option.map_eq_some_iff] at hs
      obtain ⟨l, -, rfl⟩ := hs
      rfl

theorem owned_AdminTableConfControllerDelegate_Data {s : St} {c : Chooser} (h : Owned cols s)
    (hc : s.chooser = some c) :
    Owned cols (AdminTableConfControllerDelegate_Data { s with chooser := none } (getConfString c)
      c.typeId) := by
  have hnone : ∀ d, (none : Option Chooser) = some d → d.typeId = 0 → d.Owned cols s.edt_tableName := by
    intro d hd; cases hd
  unfold AdminTableConfControllerDelegate_Data
  by_cases h0 : c.typeId = 0
  · rw [if_pos h0]
    split
    · exact ⟨h.columns, h.cached, hnone, h.saved, h.edit, h.stored⟩
    · exact ⟨belongs_getConfString (h.chooser c hc h0), h.cached, hnone, h.saved, h.edit, h.stored⟩
  · rw [if_neg h0]
    split
    · exact ⟨h.columns, h.cached, hnone, h.saved, h.edit, h.stored⟩
    · exact ⟨h.columns, h.cached, hnone, h.saved, h.edit, h.stored⟩

theorem owned_recivedDataArray {s : St} {tableName : NSString} {signalId : Int} (h : Owned cols s)
    (h1 : signalId = 1 → ∃ q, s.m_defaultInformation = some q ∧ s.edt_tableName = q.query_tableName) :
    Owned cols (recivedDataArray s tableName (cols tableName) signalId) := by
  have hcached : ∀ x, some (tableName, cols tableName) = some x → x.2 = cols x.1 := by
    intro x hx
    rw [← Option.some.inj hx]
  unfold recivedDataArray
  split
  · exact ⟨h.columns, hcached, h.chooser, h.saved, h.edit, h.stored⟩
  · split
    · rename_i hs
      obtain ⟨q, hq, ht⟩ := h1 hs
      refine ⟨Or.inr ?_, hcached, h.chooser, h.saved, h.edit, h.stored⟩
      show Belongs cols s.edt_tableName ((s.m_defaultInformation.map (·.query_columns)).getD [])
      rw [ht, hq]
      exact h.saved q hq
    · exact h

/-- What a response takes off the list was asked for before. -/
theorem owned_eraseIdx {s : St} {i : Nat} (h : Owned cols s) :
    Owned cols { s with requests := s.requests.eraseIdx i } :=
  ⟨h.columns, h.cached, h.chooser, h.saved,
    fun r hr => h.edit r (List.mem_of_mem_eraseIdx hr), h.stored⟩

theorem owned_builderStep {s s' : St} {l : Label} (h : Owned cols s) (hc : s.chooser = none)
    (hf : Fresh s l) (hs : builderStep s l = some s') : Owned cols s' := by
  cases l with
  | didSelectRow row =>
    cases row with
    | zero => simp only [builderStep, Option.some.injEq] at hs; subst hs; exact h
    | succ row =>
      simp only [builderStep, Option.map_eq_some_iff] at hs
      obtain ⟨name, -, rfl⟩ := hs
      exact ⟨h.columns, h.cached, h.chooser, h.saved, h.edit, h.stored⟩
  | onSelectTable =>
    simp only [builderStep, Option.some.injEq] at hs; subst hs; exact owned_onSelectTable h hc
  | beginTableName =>
    simp only [builderStep, Option.some.injEq] at hs; subst hs
    exact ⟨h.columns, h.cached, h.chooser, h.saved, h.edit, h.stored⟩
  | beginColumns =>
    simp only [builderStep, Option.some.injEq] at hs; subst hs; exact owned_beginColumns h hf
  | beginSearchRule =>
    simp only [builderStep, Option.some.injEq] at hs; subst hs; exact owned_beginSearchRule h
  | onBuild => simp only [builderStep, Option.some.injEq] at hs; subst hs; exact owned_onBuild h
  | onChangeValue tag isOn => cases hs
  | onSave => cases hs
  | onGoBack => cases hs
  | recivedDataArray i empty => cases hs

theorem owned_chooserStep {s s' : St} {c : Chooser} {l : Label} (h : Owned cols s)
    (hc : s.chooser = some c) (hf : Fresh s l) (hs : chooserStep s c l = some s') :
    Owned cols s' := by
  cases l with
  | onChangeValue tag isOn =>
    simp only [chooserStep, Option.map_eq_some_iff] at hs
    obtain ⟨c', hc', rfl⟩ := hs
    refine ⟨h.columns, h.cached, ?_, h.saved, h.edit, h.stored⟩
    intro d hd h0
    simp only [Option.some.injEq] at hd
    subst hd
    rw [typeId_onChangeValue hc'] at h0
    refine owned_onChangeValue (h.chooser c hc h0) ?_ hc'
    intro hon
    subst hon
    exact hf c hc h0
  | onSave =>
    simp only [chooserStep, Option.some.injEq] at hs; subst hs
    exact owned_AdminTableConfControllerDelegate_Data h hc
  | onGoBack =>
    simp only [chooserStep, Option.some.injEq] at hs; subst hs
    refine ⟨h.columns, h.cached, ?_, h.saved, h.edit, h.stored⟩
    intro d hd; cases hd
  | didSelectRow row => cases hs
  | onSelectTable => cases hs
  | beginTableName => cases hs
  | beginColumns => cases hs
  | beginSearchRule => cases hs
  | onBuild => cases hs
  | recivedDataArray i empty => cases hs

/-- A response, or a touch on the screen on top. -/
theorem step_inv {s s' : St} {l : Label} (h : step cols s l = some s') :
    (∃ i empty r, l = .recivedDataArray i empty ∧ s.requests[i]? = some r ∧
      s' = if empty then { s with requests := s.requests.eraseIdx i }
        else recivedDataArray { s with requests := s.requests.eraseIdx i } r.tableName
          (cols r.tableName) r.signalId) ∨
    (s.chooser = none ∧ builderStep s l = some s') ∨
    ∃ c, s.chooser = some c ∧ chooserStep s c l = some s' := by
  unfold step at h
  split at h
  · cases h
  · split at h
    · rename_i i empty
      rw [Option.map_eq_some_iff] at h
      obtain ⟨r, hr, rfl⟩ := h
      exact Or.inl ⟨i, empty, r, rfl, hr, rfl⟩
    · split at h
      · rename_i hc; exact Or.inr (Or.inl ⟨hc, h⟩)
      · rename_i c hc; exact Or.inr (Or.inr ⟨c, hc, h⟩)

theorem owned_step {s s' : St} {l : Label} (h : Owned cols s) (hf : Fresh s l)
    (hs : step cols s l = some s') : Owned cols s' := by
  rcases step_inv hs with ⟨i, empty, r, rfl, hr, rfl⟩ | ⟨hc, hs⟩ | ⟨c, hc, hs⟩
  · cases empty with
    | true => exact owned_eraseIdx h
    | false =>
      refine owned_recivedDataArray (owned_eraseIdx h) ?_
      intro h1
      obtain ⟨q, hq, ht⟩ := h.edit r (List.mem_of_getElem? hr) h1
      exact ⟨q, hq, (hf r hr h1).trans ht⟩
  · exact owned_builderStep h hc hf hs
  · exact owned_chooserStep h hc hf hs

theorem owned_inductive : ((lts cols).restrict Fresh).Inductive (Owned cols) where
  init := by
    intro s hs
    obtain ⟨tables, item, hb, rfl⟩ := hs
    exact owned_viewDidLoad hb
  step := by
    intro s l s' h hs
    exact owned_step h hs.1 hs.2

end

/-- **Own columns.** In every run in which the column chooser is opened with
the columns of the table shown, only columns without a comma are switched on
and the response of edit mode finds its own table, every stored query has
columns of its own table. -/
theorem owned_of_fresh (cols : NSString → List NSString) {s : St}
    (h : ((lts cols).restrict Fresh).Reachable s) : StoredBelong cols s :=
  (owned_inductive.reachable h).stored

theorem initial_none {cols : NSString → List NSString} (tables : List NSString) :
    Initial cols (viewDidLoad tables none) := by
  refine ⟨tables, none, ?_, rfl⟩
  intro q hq
  cases hq

/-- A database with two tables. -/
def shop (tableName : NSString) : List NSString :=
  if tableName = ns "orders" then [ns "id", ns "total"]
  else if tableName = ns "people" then [ns "id", ns "name"]
  else []

/-- Select `orders`, choose both columns and one criterion, build. -/
theorem owned_orders : ∃ s, ((lts shop).restrict Fresh).Reachable s ∧ StoredBelong shop s ∧
    s.stored = [⟨ns "orders", ns "id,total", ns "id", none⟩] := by
  have hex : ∃ s, ((lts shop).restrict Fresh).Reachable s ∧
      s.stored = [⟨ns "orders", ns "id,total", ns "id", none⟩] :=
    LTS.exists_of_execG (viewDidLoad [ns "orders", ns "people"] none)
      [.beginTableName, .didSelectRow 1, .onSelectTable, .recivedDataArray 0 false,
        .beginColumns, .onChangeValue 0 true, .onChangeValue 1 true, .onSave,
        .beginSearchRule, .onChangeValue 0 true, .onSave, .onBuild] _
      (initial_none _) (by decide)
  obtain ⟨s, hs, hstored⟩ := hex
  exact ⟨s, hs, owned_of_fresh shop hs, hstored⟩

/-- Select `orders` and get its columns, select `people` and hide the overlay
with a second tap; the chooser then shows `total` for `people`. -/
theorem foreign_column : ¬ ∀ cols s, (lts cols).Reachable s → StoredBelong cols s := by
  intro hall
  have hex : ∃ s, (lts shop).Reachable s ∧ ¬ StoredBelong shop s :=
    LTS.exists_of_exec (viewDidLoad [ns "orders", ns "people"] none)
      [.beginTableName, .didSelectRow 1, .onSelectTable, .recivedDataArray 0 false,
        .beginTableName, .didSelectRow 2, .onSelectTable, .onSelectTable,
        .beginColumns, .onChangeValue 1 true, .onSave,
        .beginSearchRule, .onChangeValue 0 true, .onSave, .onBuild] _
      (initial_none _) (by decide)
  obtain ⟨s, hs, hn⟩ := hex
  exact hn (hall shop s hs)

end MysqlConnection.L3.Build
