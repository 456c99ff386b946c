import MysqlConnection.Core.LTS
import MysqlConnection.L2Store.DBConnector
import MysqlConnection.L3Screens.Criteria

/-!
# The main screen

`MainViewController` with the screens it pushes, over the local store. The
selected database is one field, `signal_item`, that every handler shares; a
tap on a saved query overwrites it only if the database of the query is
connected.

A table-list request is answered, fails to connect, or stays open. Answers
come to the screen that asked, with the signal id of its request, and carry the
rows of the statement. `m_resultArray` is the last result of any request, also
of other screens (`elsewhere`). The answer may push a builder under the open
alert, so `alertDismiss` comes with any screen on top. Ghosts are `settled`,
`log`, the `Handover` of a query, and what was selected when a request was made.

* `Effect`: all that a step can do (`effect_of_step`). Most steps are `Quiet`:
  nothing is handed over, asked or opened.
-/
namespace MysqlConnection.L3.Main

open L2.DBConnector

/-! ## State -/

/-- What `createInstance` stores. -/
structure Credentials where
  host : NSString
  userName : Option NSString
  password : Option NSString
  schema : Option NSString
  deriving DecidableEq, Repr

/-- mirrors MainViewController.m:142, 202 and CretoriaViewController.m:78 -/
def credentials : Option Obj_Database → Credentials
  | some d => ⟨d.dbHost ++ ns ":" ++ d.dbPort, some d.dbUserName, some d.dbPasswd, some d.dbName⟩
  | none => ⟨ns "(null):(null)", none, none, none⟩

/-- A result array: without rows, the table list of a server, or rows of
another request. -/
inductive Result where
  | empty
  | tables (c : Credentials)
  | other
  deriving DecidableEq, Repr

/-- A `getTableNamesInSchema` that was not answered yet; `dataBase` and `query`
are `signal_item` and `m_selectedQueryItem` at the request. -/
structure Request where
  signalId : Int
  credentials : Credentials
  dataBase : Option Obj_Database
  query : Option Obj_Query
  deriving DecidableEq, Repr

/-- A saved query and the database it is used with; `connected` are the
connected databases at that moment. -/
structure Handover where
  query : Obj_Query
  connected : List Obj_Database
  dataBase : Option Obj_Database
  deriving DecidableEq, Repr

inductive Screen where
  | settings (isEditMode : Bool)
  | cretoria (h : Handover)
  | build (selectDb : Option Obj_Database) (isUpdateMode : Bool)
  deriving DecidableEq, Repr

inductive Event where
  | selected (h : Handover)
  | edited (h : Handover)
  | excuted (h : Handover) (c : Credentials)
  | opened (selectDb : Option Obj_Database) (tables : Option Result) (item : Option Obj_Query)
  deriving DecidableEq, Repr

/-- `stack` holds the screens above the main one. `settled`: a table list
arrived since `signal_item`, its texts or `m_containTables` were last set
otherwise. -/
structure St where
  store : Store
  m_connectedDatabases : List Obj_Database
  m_recentDatabases : List Obj_Database
  m_queryArray : List Obj_Query
  signal_item : Option Obj_Database
  m_containTables : Option Result
  isQueryEditMode : Bool
  m_selectedQueryItem : Option Obj_Query
  m_delteQueryItem : Option Obj_Query
  m_resultArray : Option Result
  requests : List Request
  stack : List Screen
  settled : Bool
  log : List Event

/-- `onSave` carries the texts of the form and the date, `onBuild` those of
the builder. -/
inductive Label where
  | connectedRow (row : Nat)
  | connectedAccessory (row : Nat)
  | queryRow (row : Nat)
  | queryAccessory (row : Nat)
  | addAction (index : Nat)
  | deleteAction (index : Nat)
  | alertDismiss
  | settingsButton
  | buildButton
  | response (i : Nat) (empty : Bool)
  | failure (i : Nat)
  | elsewhere (empty : Bool)
  | onGoBack
  | onSave (form : Obj_Database)
  | onBuild (tableName columns searchRule : NSString)
  | onExcute
  deriving DecidableEq, Repr

/-- mirrors MainViewController.m:39-53 -/
def viewWillAppear (s : St) : St :=
  { s with
    m_connectedDatabases := getHistoryArray s.store
    m_recentDatabases := getDeletedArray s.store
    m_queryArray := getQuerys s.store }

/-- mirrors MainViewController.m:20-37 -/
def viewDidLoad (store : Store) : St where
  store := store
  m_connectedDatabases := []
  m_recentDatabases := []
  m_queryArray := []
  signal_item := none
  m_containTables := none
  isQueryEditMode := false
  m_selectedQueryItem := none
  m_delteQueryItem := none
  m_resultArray := none
  requests := []
  stack := []
  settled := true
  log := []

/-! ## The handlers -/

/-- `prepareForSegue:` for `Con_SettingController`.
mirrors MainViewController.m:276-279 -/
def openSettings (s : St) : St := { s with stack := .settings s.signal_item.isSome :: s.stack }

/-- `prepareForSegue:` for `view_build_controller`; `setInformations:` takes
the first object of the table list, which raises if there is none.
mirrors MainViewController.m:283-291 and BuildViewController.m:41-51 -/
def openBuild (s : St) : Option St :=
  if s.m_containTables = some .empty then none
  else
    let item := if s.isQueryEditMode then s.m_selectedQueryItem else none
    some
      { s with
        isQueryEditMode := false
        stack := .build s.signal_item s.isQueryEditMode :: s.stack
        log := s.log ++ [.opened s.signal_item s.m_containTables item] }

/-- The request of the database that is selected.
mirrors MainViewController.m:142-145, 202-204 -/
def getTableNamesInSchema (s : St) (signalId : Int) : St :=
  { s with
    requests := s.requests ++
      [⟨signalId, credentials s.signal_item, s.signal_item, s.m_selectedQueryItem⟩] }

/-- The row of a new connection.
mirrors MainViewController.m:135-136, 187-188, 223-224, 249-250 -/
def newConnection (s : St) : St := openSettings { s with signal_item := none, settled := false }

/-- mirrors MainViewController.m:133-149 -/
def didSelectRow_connected (s : St) (row : Nat) : Option St :=
  if row = s.m_connectedDatabases.length then some (newConnection s)
  else
    s.m_connectedDatabases[row]?.map fun item =>
      getTableNamesInSchema
        { s with signal_item := some item, settled := false, m_containTables := s.m_resultArray } 0

/-- mirrors MainViewController.m:185-192 -/
def accessory_connected (s : St) (row : Nat) : Option St :=
  if row = s.m_connectedDatabases.length then some (newConnection s)
  else
    s.m_connectedDatabases[row]?.map fun item =>
      openSettings { s with signal_item := some item, settled := false }

/-- The search for the database of a query.
mirrors MainViewController.m:152-157, 196-201 -/
def search (s : St) (item : Obj_Query) : Option Obj_Database :=
  (s.m_connectedDatabases.find? fun subDB => intValue subDB.dbId = intValue item.query_dbId).or
    s.signal_item

def handover (s : St) (item : Obj_Query) : Handover :=
  ⟨item, s.m_connectedDatabases, search s item⟩

/-- mirrors MainViewController.m:150-162 -/
def didSelectRow_query (s : St) (row : Nat) : Option St :=
  s.m_queryArray[row]?.bind fun item =>
    (Criteria.setQueryInfo item).map fun _ =>
      { s with
        signal_item := search s item
        settled := s.settled && decide (search s item = s.signal_item)
        stack := .cretoria (handover s item) :: s.stack
        log := s.log ++ [.selected (handover s item)] }

/-- mirrors MainViewController.m:193-206 -/
def accessory_query (s : St) (row : Nat) : Option St :=
  s.m_queryArray[row]?.map fun item =>
    getTableNamesInSchema
      { s with
        m_selectedQueryItem := some item
        signal_item := search s item
        settled := false
        log := s.log ++ [.edited (handover s item)] } 1

/-- mirrors MainViewController.m:209-215 -/
def refreshTables (s : St) : St :=
  { s with
    m_connectedDatabases := getHistoryArray s.store
    m_recentDatabases := getDeletedArray s.store }

section
variable (db : Sqlite)

/-- mirrors MainViewController.m:216-233 -/
def AddAction (s : St) (index : Nat) : Option St :=
  if 1000 ≤ index then
    s.m_recentDatabases[index - 1000]?.map fun item =>
      refreshTables { s with store := AddToHistory db s.store item }
  else if index = s.m_connectedDatabases.length then some (newConnection s)
  else
    s.m_connectedDatabases[index]?.map fun item =>
      refreshTables { s with store := AddToHistory db s.store item }

/-- mirrors MainViewController.m:234-258 -/
def DeleteAction (s : St) (index : Nat) : Option St :=
  if 1000 ≤ index ∧ index < 10000 then
    s.m_recentDatabases[index - 1000]?.map fun item =>
      refreshTables { s with store := DeleteFromHistory db s.store item }
  else if 10000 ≤ index then
    s.m_queryArray[index - 10000]?.map fun item => { s with m_delteQueryItem := some item }
  else if index = s.m_connectedDatabases.length then some (newConnection s)
  else
    s.m_connectedDatabases[index]?.map fun item =>
      refreshTables { s with store := DeleteFromHistory db s.store item }

/-- mirrors MainViewController.m:259-270 -/
def didDismiss (s : St) : Option St :=
  s.m_delteQueryItem.map fun item =>
    let store := deleteBuildQuery db s.store item
    { s with store := store, m_queryArray := getQuerys store }

/-- mirrors MainViewController.m:165-180 -/
def recivedDataArray (s : St) (result : Result) (signalId : Int) : Option St :=
  if result = .empty then some s
  else if signalId = 1 then
    openBuild { s with m_containTables := some result, isQueryEditMode := true, settled := true }
  else if signalId = 0 then openBuild { s with m_containTables := some result, settled := true }
  else some s

/-- The top screen goes; `viewWillAppear:` if the main one is next. -/
def popViewController (s : St) : St :=
  match s.stack with
  | _ :: [] => viewWillAppear { s with stack := [] }
  | _ :: rest => { s with stack := rest }
  | [] => s

/-- `m_information` is the object `signal_item`.
mirrors Con_SettingController.m:70-107 -/
def onSave (s : St) (isEditMode : Bool) (form : Obj_Database) : St :=
  if form.dbHost = [] ∨ form.dbUserName = [] ∨ form.dbPasswd = [] ∨ form.dbName = [] ∨
      form.dbPort = [] ∨ form.dbDescription = [] then s
  else if isEditMode then
    match s.signal_item with
    | none => s
    | some m_information =>
      let item := { form with dbId := m_information.dbId }
      popViewController
        { s with signal_item := some item, settled := false, store := updateHistory db s.store item }
  else popViewController { s with store := insertIntoHistory db s.store form }

/-- What the format strings print for the fields of `nil`. -/
def nilDatabase : Obj_Database :=
  ⟨[], ns "(null)", ns "(null)", ns "(null)", ns "(null)", ns "(null)", ns "(null)", ns "(null)"⟩

/-- `m_defaultInformation` is the object `m_selectedQueryItem`: no touch on the
main screen replaces it while a builder is up.
mirrors BuildViewController.m:135-164 -/
def onBuild (s : St) (selectDb : Option Obj_Database) (isUpdateMode : Bool)
    (tableName columns searchRule : NSString) : St :=
  if tableName = [] ∨ columns = [] ∨ searchRule = [] then s
  else
    match if isUpdateMode then s.m_selectedQueryItem else none with
    | none =>
      let store := insertBuildQuery db s.store (selectDb.getD nilDatabase) tableName columns searchRule
      popViewController { s with store := store, m_queryArray := getQuerys store }
    | some item =>
      let item : Obj_Query := { item with
        query_tableName := tableName, query_columns := columns, query_searchRule := searchRule }
      let store := updateBuildQuery db s.store item
      popViewController
        { s with store := store, m_queryArray := getQuerys store, m_selectedQueryItem := some item }

/-! ## Steps -/

/-- Touches on the main screen while it is on top. -/
def mainStep (s : St) : Label → Option St
  | .connectedRow row => didSelectRow_connected s row
  | .connectedAccessory row => accessory_connected s row
  | .queryRow row => didSelectRow_query s row
  | .queryAccessory row => accessory_query s row
  | .addAction index => AddAction db s index
  | .deleteAction index => DeleteAction db s index
  | .settingsButton => some (openSettings s)
  | .buildButton => openBuild s
  | _ => none

/-- Touches on the screen on top. -/
def screenStep (s : St) : Screen → Label → Option St
  | _, .onGoBack => some (popViewController s)
  | .settings isEditMode, .onSave form => some (onSave db s isEditMode form)
  | .cretoria h, .onExcute =>
    some { s with log := s.log ++ [.excuted h (credentials h.dataBase)] }
  | .build selectDb isUpdateMode, .onBuild tableName columns searchRule =>
    some (onBuild db s selectDb isUpdateMode tableName columns searchRule)
  | _, _ => none

/-- A touch is for the screen on top. -/
def touch (s : St) (l : Label) : Option St :=
  match s.stack with
  | [] => mainStep db s l
  | screen :: _ => screenStep db s screen l

def step (s : St) : Label → Option St
  | .alertDismiss => didDismiss db s
  | .response i empty =>
    s.requests[i]?.bind fun r =>
      let result := if empty then .empty else .tables r.credentials
      recivedDataArray { s with requests := s.requests.eraseIdx i, m_resultArray := some result }
        result r.signalId
  | .failure i => s.requests[i]?.map fun _ => { s with requests := s.requests.eraseIdx i }
  | .elsewhere empty => some { s with m_resultArray := some (if empty then .empty else .other) }
  | l => touch db s l

def Initial (s : St) : Prop := ∃ store, s = viewWillAppear (viewDidLoad store)

def lts : LTS St Label := LTS.ofFn Initial (step db)

end

/-! ## What a step can do -/

/-- Lists are read again or left alone, no request and no event is new, and
the selection and the table list stay settled only if they stay. -/
structure Quiet (s s' : St) : Prop where
  connected : s'.m_connectedDatabases = s.m_connectedDatabases ∨
    ∃ st, s'.m_connectedDatabases = getHistoryArray st
  queries : s'.m_queryArray = s.m_queryArray ∨ ∃ st, s'.m_queryArray = getQuerys st
  screens : ∀ x ∈ s'.stack, x ∈ s.stack ∨ ∃ isEditMode, x = .settings isEditMode
  log : s'.log = s.log
  requests : ∀ r ∈ s'.requests, r ∈ s.requests
  mode : s'.isQueryEditMode = s.isQueryEditMode
  settled : s'.settled = true → s.settled = true ∧ s'.signal_item = s.signal_item ∧
    s'.m_containTables = s.m_containTables

/-- The selection by `didSelectRow_connected`. -/
def selectDatabase (s : St) (item : Obj_Database) : St :=
  { s with signal_item := some item, settled := false, m_containTables := s.m_resultArray }

/-- The tap on a query, without its search rule. -/
def selectQuery (s : St) (item : Obj_Query) : St :=
  { s with
    signal_item := search s item
    settled := s.settled && decide (search s item = s.signal_item)
    stack := .cretoria (handover s item) :: s.stack
    log := s.log ++ [.selected (handover s item)] }

/-- The selection by `accessory_query`. -/
def editQuery (s : St) (item : Obj_Query) : St :=
  { s with
    m_selectedQueryItem := some item
    signal_item := search s item
    settled := false
    log := s.log ++ [.edited (handover s item)] }

/-- A table list arrived for `r`. -/
def received (s : St) (i : Nat) (r : Request) : St :=
  { s with
    requests := s.requests.eraseIdx i
    m_resultArray := some (.tables r.credentials)
    m_containTables := some (.tables r.credentials)
    isQueryEditMode := decide (r.signalId = 1) || s.isQueryEditMode
    settled := true }

/-- All that a step can do. -/
inductive Effect (s : St) : Label → St → Prop
  | quiet {l : Label} {s' : St} (h : Quiet s s') : Effect s l s'
  | connectedRow {row : Nat} {item : Obj_Database} (hi : s.m_connectedDatabases[row]? = some item) :
      Effect s (.connectedRow row) (getTableNamesInSchema (selectDatabase s item) 0)
  | queryRow {row : Nat} {item : Obj_Query} (hi : s.m_queryArray[row]? = some item) :
      Effect s (.queryRow row) (selectQuery s item)
  | queryAccessory {row : Nat} {item : Obj_Query} (hi : s.m_queryArray[row]? = some item) :
      Effect s (.queryAccessory row) (getTableNamesInSchema (editQuery s item) 1)
  | response {i : Nat} {r : Request} {s' : St} (hi : s.requests[i]? = some r)
      (ho : openBuild (received s i r) = some s') : Effect s (.response i false) s'
  | buildButton {s' : St} (ho : openBuild s = some s') : Effect s .buildButton s'
  | onExcute {h : Handover} (hm : .cretoria h ∈ s.stack) :
      Effect s .onExcute { s with log := s.log ++ [.excuted h (credentials h.dataBase)] }

theorem Quiet.refl (s : St) : Quiet s s :=
  ⟨Or.inl rfl, Or.inl rfl, fun _ h => Or.inl h, rfl, fun _ h => h, rfl, fun h => ⟨h, rfl, rfl⟩⟩

theorem quiet_openSettings (s : St) : Quiet s (openSettings s) := by
  refine ⟨Or.inl rfl, Or.inl rfl, fun x hx => ?_, rfl, fun _ h => h, rfl, fun h => ⟨h, rfl, rfl⟩⟩
  rcases List.mem_cons.mp hx with rfl | hx
  · exact Or.inr ⟨_, rfl⟩
  · exact Or.inl hx

/-- Settings for a database that was selected just now. -/
theorem quiet_select (s : St) (item : Option Obj_Database) :
    Quiet s (openSettings { s with signal_item := item, settled := false }) := by
  have h := quiet_openSettings { s with signal_item := item, settled := false }
  refine ⟨h.connected, h.queries, h.screens, h.log, h.requests, h.mode, fun hs => ?_⟩
  cases hs

theorem quiet_refreshTables (s : St) (st : Store) :
    Quiet s (refreshTables { s with store := st }) :=
  ⟨Or.inr ⟨_, rfl⟩, Or.inl rfl, fun _ h => Or.inl h, rfl, fun _ h => h, rfl,
    fun h => ⟨h, rfl, rfl⟩⟩

theorem popViewController_cases (s : St) :
    popViewController s = s ∨
    (∃ rest, rest ⊆ s.stack ∧ popViewController s = { s with stack := rest }) ∨
    popViewController s = viewWillAppear { s with stack := [] } := by
  unfold popViewController
  split
  · exact Or.inr (Or.inr rfl)
  · rename_i x rest _ heq
    refine Or.inr (Or.inl ⟨rest, ?_, rfl⟩)
    rw [heq]
    exact List.subset_cons_self x rest
  · exact Or.inl rfl

/-- The queries are read again. -/
theorem quiet_needUpdate (s : St) (st : Store) (deleted selected : Option Obj_Query) :
    Quiet s
      { s with
        store := st, m_queryArray := getQuerys st
        m_delteQueryItem := deleted, m_selectedQueryItem := selected } :=
  ⟨Or.inl rfl, Or.inr ⟨_, rfl⟩, fun _ h => Or.inl h, rfl, fun _ h => h, rfl, fun h => ⟨h, rfl, rfl⟩⟩

/-- Going back from `t`, which is `s` but for its store, lists and form data. -/
theorem quiet_popViewController {s t : St} (h : Quiet s t) : Quiet s (popViewController t) := by
  rcases popViewController_cases t with he | ⟨rest, hr, he⟩ | he
  · rw [he]; exact h
  · rw [he]
    exact ⟨h.connected, h.queries, fun x hx => h.screens x (hr hx), h.log, h.requests, h.mode,
      h.settled⟩
  · rw [he]
    refine ⟨Or.inr ⟨_, rfl⟩, Or.inr ⟨_, rfl⟩, fun x hx => ?_, h.log, h.requests, h.mode, h.settled⟩
    cases hx

section
variable {db : Sqlite} {s s' : St}

theorem quiet_AddAction {index : Nat} (h : AddAction db s index = some s') : Quiet s s' := by
  unfold AddAction at h
  split at h
  · obtain ⟨item, -, rfl⟩ := Option.map_eq_some_iff.mp h
    exact quiet_refreshTables s _
  · split at h
    · cases h; exact quiet_select s none
    · obtain ⟨item, -, rfl⟩ := Option.map_eq_some_iff.mp h
      exact quiet_refreshTables s _

theorem quiet_DeleteAction {index : Nat} (h : DeleteAction db s index = some s') : Quiet s s' := by
  unfold DeleteAction at h
  split at h
  · obtain ⟨item, -, rfl⟩ := Option.map_eq_some_iff.mp h
    exact quiet_refreshTables s _
  · split at h
    · obtain ⟨item, -, rfl⟩ := Option.map_eq_some_iff.mp h
      exact ⟨Or.inl rfl, Or.inl rfl, fun _ hx => Or.inl hx, rfl, fun _ hr => hr, rfl,
        fun hs => ⟨hs, rfl, rfl⟩⟩
    · split at h
      · cases h; exact quiet_select s none
      · obtain ⟨item, -, rfl⟩ := Option.map_eq_some_iff.mp h
        exact quiet_refreshTables s _

theorem quiet_didDismiss (h : didDismiss db s = some s') : Quiet s s' := by
  obtain ⟨item, -, rfl⟩ := Option.map_eq_some_iff.mp h
  exact quiet_needUpdate s _ _ _

theorem quiet_onSave (isEditMode : Bool) (form : Obj_Database) :
    Quiet s (onSave db s isEditMode form) := by
  unfold onSave
  split
  · exact Quiet.refl s
  · split
    · split
      · exact Quiet.refl s
      · refine quiet_popViewController ⟨Or.inl rfl, Or.inl rfl, fun _ hx => Or.inl hx, rfl,
          fun _ hr => hr, rfl, fun hs => ?_⟩
        cases hs
    · exact quiet_popViewController ⟨Or.inl rfl, Or.inl rfl, fun _ hx => Or.inl hx, rfl,
        fun _ hr => hr, rfl, fun hs => ⟨hs, rfl, rfl⟩⟩

theorem quiet_onBuild (selectDb : Option Obj_Database) (isUpdateMode : Bool)
    (tableName columns searchRule : NSString) :
    Quiet s (onBuild db s selectDb isUpdateMode tableName columns searchRule) := by
  unfold onBuild
  split
  · exact Quiet.refl s
  · split
    · exact quiet_popViewController (quiet_needUpdate s _ _ _)
    · exact quiet_popViewController (quiet_needUpdate s _ _ _)

/-! ## One kind of step at a time -/

theorem effect_mainStep {l : Label} (h : mainStep db s l = some s') : Effect s l s' := by
  cases l with
  | connectedRow row =>
    simp only [mainStep, didSelectRow_connected] at h
    split at h
    · cases h; exact .quiet (quiet_select s none)
    · obtain ⟨item, hi, rfl⟩ := Option.map_eq_some_iff.mp h
      exact .connectedRow hi
  | connectedAccessory row =>
    simp only [mainStep, accessory_connected] at h
    split at h
    · cases h; exact .quiet (quiet_select s none)
    · obtain ⟨item, -, rfl⟩ := Option.map_eq_some_iff.mp h
      exact .quiet (quiet_select s (some item))
  | queryRow row =>
    simp only [mainStep, didSelectRow_query] at h
    obtain ⟨item, hi, hm⟩ := Option.bind_eq_some_iff.mp h
    obtain ⟨_, -, rfl⟩ := Option.map_eq_some_iff.mp hm
    exact .queryRow hi
  | queryAccessory row =>
    obtain ⟨item, hi, rfl⟩ := Option.map_eq_some_iff.mp h
    exact .queryAccessory hi
  | addAction index => exact .quiet (quiet_AddAction h)
  | deleteAction index => exact .quiet (quiet_DeleteAction h)
  | settingsButton => cases h; exact .quiet (quiet_openSettings s)
  | buildButton => exact .buildButton h
  | _ => cases h

theorem effect_screenStep {screen : Screen} {l : Label} (hm : screen ∈ s.stack)
    (h : screenStep db s screen l = some s') : Effect s l s' := by
  cases l with
  | onGoBack =>
    cases screen <;> cases h <;> exact .quiet (quiet_popViewController (Quiet.refl s))
  | onSave form =>
    cases screen with
    | settings isEditMode => cases h; exact .quiet (quiet_onSave isEditMode form)
    | _ => cases h
  | onExcute =>
    cases screen with
    | cretoria ho => cases h; exact .onExcute hm
    | _ => cases h
  | onBuild tableName columns searchRule =>
    cases screen with
    | build selectDb isUpdateMode => cases h; exact .quiet (quiet_onBuild _ _ _ _ _)
    | _ => cases h
  | _ => cases screen <;> cases h

/-- An answer without rows, a failure, or rows of another request: only
`m_resultArray` and the open requests change. -/
theorem quiet_answer (i : Nat) (result : Option Result) :
    Quiet s { s with requests := s.requests.eraseIdx i, m_resultArray := result } :=
  ⟨Or.inl rfl, Or.inl rfl, fun _ hx => Or.inl hx, rfl, fun _ hr => List.mem_of_mem_eraseIdx hr, rfl,
    fun hs => ⟨hs, rfl, rfl⟩⟩

theorem effect_response {i : Nat} {empty : Bool} (h : step db s (.response i empty) = some s') :
    Effect s (.response i empty) s' := by
  simp only [step] at h
  obtain ⟨r, hi, hr⟩ := Option.bind_eq_some_iff.mp h
  cases empty with
  | true => cases hr; exact .quiet (quiet_answer i _)
  | false =>
    have hne : Result.tables r.credentials ≠ .empty := by intro he; cases he
    simp only [Bool.false_eq_true, if_false, recivedDataArray, if_neg hne] at hr
    by_cases h1 : r.signalId = 1
    · rw [if_pos h1] at hr
      refine .response hi ?_
      rw [received, decide_eq_true h1]
      exact hr
    · rw [if_neg h1] at hr
      by_cases h0 : r.signalId = 0
      · rw [if_pos h0] at hr
        refine .response hi ?_
        rw [received, decide_eq_false h1]
        exact hr
      · rw [if_neg h0] at hr
        cases hr
        exact .quiet (quiet_answer i _)

theorem effect_touch {l : Label} (h : touch db s l = some s') : Effect s l s' := by
  unfold touch at h
  split at h
  · exact effect_mainStep h
  · rename_i screen rest heq
    exact effect_screenStep (by rw [heq]; exact List.mem_cons_self) h

/-- **A step has one of the effects.** -/
theorem effect_of_step {l : Label} (h : step db s l = some s') : Effect s l s' := by
  cases l with
  | alertDismiss => exact .quiet (quiet_didDismiss h)
  | response i empty => exact effect_response h
  | failure i =>
    obtain ⟨_, -, rfl⟩ := Option.map_eq_some_iff.mp h
    exact .quiet (quiet_answer i _)
  | elsewhere empty =>
    cases h
    exact .quiet ⟨Or.inl rfl, Or.inl rfl, fun _ hx => Or.inl hx, rfl, fun _ hr => hr, rfl,
      fun hs => ⟨hs, rfl, rfl⟩⟩
  | _ => exact effect_touch h

end

end MysqlConnection.L3.Main
