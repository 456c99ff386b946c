import MysqlConnection.L2Store.Registry
import MysqlConnection.L3Screens.MainViewController

/-!
# What the main screen lists

The main screen keeps three arrays; what a cell, the alert, the settings and
the builder act on is a record that one of them gave out, perhaps long ago.

* `store_step`: a touch writes at most one statement, about the record in its
  row (`written`); no answer writes anything.
* `holds_step`: what is true of every record the store gives out stays true of
  all that the screens hold (`Holds`), if the forms keep it.
* `listed_run`: so all ids are ids the store gave out, and whenever the main
  screen is on top its lists are the lists of the store: whatever the engine
  does with undocumented statements and whatever is typed into the forms.
-/
namespace MysqlConnection.L3.Main

open L2.DBConnector

/-! ## What a touch writes -/

/-- The record of a cell by its tag. -/
def cellDatabase (s : St) (index : Nat) : Option Obj_Database :=
  if 1000 ≤ index then s.m_recentDatabases[index - 1000]? else s.m_connectedDatabases[index]?

def mainWrites (s : St) : Label → List Write
  | .addAction index => ((cellDatabase s index).map .AddToHistory).toList
  | .deleteAction index =>
    if 10000 ≤ index then [] else ((cellDatabase s index).map .DeleteFromHistory).toList
  | _ => []

/-- The record of the form, with the id of the database it was opened for. -/
def saved (form : Obj_Database) (m_information : Obj_Database) : Obj_Database :=
  { form with dbId := m_information.dbId }

/-- A query with new texts. -/
def rebuilt (tableName columns searchRule : NSString) (item : Obj_Query) : Obj_Query :=
  { item with
    query_tableName := tableName, query_columns := columns, query_searchRule := searchRule }

def screenWrites (s : St) : Screen → Label → List Write
  | .settings isEditMode, .onSave form =>
    if form.dbHost = [] ∨ form.dbUserName = [] ∨ form.dbPasswd = [] ∨ form.dbName = [] ∨
        form.dbPort = [] ∨ form.dbDescription = [] then []
    else if isEditMode then (s.signal_item.map fun d => .updateHistory (saved form d)).toList
    else [.insertIntoHistory form]
  | .build selectDb isUpdateMode, .onBuild tableName columns searchRule =>
    if tableName = [] ∨ columns = [] ∨ searchRule = [] then []
    else
      match if isUpdateMode then s.m_selectedQueryItem else none with
      | none => [.insertBuildQuery (selectDb.getD nilDatabase) tableName columns searchRule]
      | some item => [.updateBuildQuery (rebuilt tableName columns searchRule item)]
  | _, _ => []

def touchWrites (s : St) (l : Label) : List Write :=
  match s.stack with
  | [] => mainWrites s l
  | screen :: _ => screenWrites s screen l

/-- What a step writes to the store. -/
def written (s : St) : Label → List Write
  | .alertDismiss => (s.m_delteQueryItem.map .deleteBuildQuery).toList
  | .response .. | .failure .. | .elsewhere .. => []
  | l => touchWrites s l

section
variable {db : Sqlite} {s s' : St}

@[simp] theorem store_popViewController (s : St) : (popViewController s).store = s.store := by
  rcases popViewController_cases s with h | ⟨_, _, h⟩ | h
  · rw [h]
  · rw [h]
  · rw [h]; rfl

theorem store_AddAction {index : Nat} (h : AddAction db s index = some s') :
    s'.store = writes db s.store (mainWrites s (.addAction index)) := by
  unfold AddAction at h
  simp only [mainWrites, cellDatabase]
  split at h
  · rename_i hi
    obtain ⟨item, hitem, rfl⟩ := Option.map_eq_some_iff.mp h
    rw [if_pos hi, hitem]
    rfl
  · rename_i hi
    rw [if_neg hi]
    split at h
    · rename_i hrow
      obtain rfl := Option.some.inj h
      rw [List.getElem?_eq_none (Nat.le_of_eq hrow.symm)]
      rfl
    · obtain ⟨item, hitem, rfl⟩ := Option.map_eq_some_iff.mp h
      rw [hitem]
      rfl

theorem store_DeleteAction {index : Nat} (h : DeleteAction db s index = some s') :
    s'.store = writes db s.store (mainWrites s (.deleteAction index)) := by
  unfold DeleteAction at h
  simp only [mainWrites, cellDatabase]
  split at h
  · rename_i hi
    obtain ⟨item, hitem, rfl⟩ := Option.map_eq_some_iff.mp h
    rw [if_neg (show ¬ 10000 ≤ index by omega), if_pos hi.1, hitem]
    rfl
  · split at h
    · rename_i hi
      obtain ⟨item, -, rfl⟩ := Option.map_eq_some_iff.mp h
      rw [if_pos hi]
      rfl
    · rename_i hrecent hquery
      rw [if_neg hquery, if_neg (show ¬ 1000 ≤ index by omega)]
      split at h
      · rename_i hrow
        obtain rfl := Option.some.inj h
        rw [List.getElem?_eq_none (Nat.le_of_eq hrow.symm)]
        rfl
      · obtain ⟨item, hitem, rfl⟩ := Option.map_eq_some_iff.mp h
        rw [hitem]
        rfl

theorem store_openBuild (h : openBuild s = some s') : s'.store = s.store := by
  unfold openBuild at h
  split at h
  · cases h
  · obtain rfl := Option.some.inj h
    rfl

theorem store_mainStep {l : Label} (h : mainStep db s l = some s') :
    s'.store = writes db s.store (mainWrites s l) := by
  cases l with
  | addAction index => exact store_AddAction h
  | deleteAction index => exact store_DeleteAction h
  | connectedRow row =>
    simp only [mainStep, didSelectRow_connected] at h
    split at h
    · cases h; rfl
    · obtain ⟨item, -, rfl⟩ := Option.map_eq_some_iff.mp h
      rfl
  | connectedAccessory row =>
    simp only [mainStep, accessory_connected] at h
    split at h
    · cases h; rfl
    · obtain ⟨item, -, rfl⟩ := Option.map_eq_some_iff.mp h
      rfl
  | queryRow row =>
    obtain ⟨item, -, hm⟩ := Option.bind_eq_some_iff.mp h
    obtain ⟨_, -, rfl⟩ := Option.map_eq_some_iff.mp hm
    rfl
  | queryAccessory row =>
    obtain ⟨item, -, rfl⟩ := Option.map_eq_some_iff.mp h
    rfl
  | settingsButton => cases h; rfl
  | buildButton => exact store_openBuild h
  | _ => cases h

/-- All that the save button of the settings does. -/
theorem onSave_cases (db : Sqlite) (s : St) (isEditMode : Bool) (form : Obj_Database) :
    (onSave db s isEditMode form = s ∧
      screenWrites s (.settings isEditMode) (.onSave form) = []) ∨
    (∃ d, s.signal_item = some d ∧
      onSave db s isEditMode form = popViewController
        { s with
          signal_item := some (saved form d), settled := false
          store := updateHistory db s.store (saved form d) } ∧
      screenWrites s (.settings isEditMode) (.onSave form) = [.updateHistory (saved form d)]) ∨
    (onSave db s isEditMode form =
        popViewController { s with store := insertIntoHistory db s.store form } ∧
      screenWrites s (.settings isEditMode) (.onSave form) = [.insertIntoHistory form]) := by
  simp only [onSave, screenWrites]
  split
  · exact Or.inl ⟨rfl, rfl⟩
  · cases isEditMode with
    | false => exact Or.inr (Or.inr ⟨rfl, rfl⟩)
    | true =>
      cases hd : s.signal_item with
      | none => exact Or.inl ⟨rfl, rfl⟩
      | some d => exact Or.inr (Or.inl ⟨d, rfl, rfl, rfl⟩)

/-- All that the build button of the builder does. -/
theorem onBuild_cases (db : Sqlite) (s : St) (selectDb : Option Obj_Database) (isUpdateMode : Bool)
    (tableName columns searchRule : NSString) :
    (onBuild db s selectDb isUpdateMode tableName columns searchRule = s ∧
      screenWrites s (.build selectDb isUpdateMode) (.onBuild tableName columns searchRule) = []) ∨
    (onBuild db s selectDb isUpdateMode tableName columns searchRule =
        (let store := insertBuildQuery db s.store (selectDb.getD nilDatabase) tableName columns searchRule
        popViewController { s with store := store, m_queryArray := getQuerys store }) ∧
      screenWrites s (.build selectDb isUpdateMode) (.onBuild tableName columns searchRule) =
        [.insertBuildQuery (selectDb.getD nilDatabase) tableName columns searchRule]) ∨
    (∃ item, isUpdateMode = true ∧ s.m_selectedQueryItem = some item ∧
      onBuild db s selectDb isUpdateMode tableName columns searchRule =
        (let item := rebuilt tableName columns searchRule item
        let store := updateBuildQuery db s.store item
        popViewController
          { s with
            store := store, m_queryArray := getQuerys store, m_selectedQueryItem := some item }) ∧
      screenWrites s (.build selectDb isUpdateMode) (.onBuild tableName columns searchRule) =
        [.updateBuildQuery (rebuilt tableName columns searchRule item)]) := by
  simp only [onBuild, screenWrites]
  split
  · exact Or.inl ⟨rfl, rfl⟩
  · cases isUpdateMode with
    | false => exact Or.inr (Or.inl ⟨rfl, rfl⟩)
    | true =>
      cases hq : s.m_selectedQueryItem with
      | none => exact Or.inr (Or.inl ⟨rfl, rfl⟩)
      | some item => exact Or.inr (Or.inr ⟨item, rfl, rfl, rfl, rfl⟩)

theorem store_screenStep {screen : Screen} {l : Label} (h : screenStep db s screen l = some s') :
    s'.store = writes db s.store (screenWrites s screen l) := by
  cases l with
  | onGoBack => cases screen <;> cases h <;> exact store_popViewController s
  | onSave form =>
    cases screen with
    | settings isEditMode =>
      have hsave : onSave db s isEditMode form = s' := Option.some.inj h
      subst hsave
      rcases onSave_cases db s isEditMode form with ⟨hs, hw⟩ | ⟨d, -, hs, hw⟩ | ⟨hs, hw⟩
      · rw [hs, hw]; rfl
      · rw [hs, hw, store_popViewController, writes_one, Write.apply]
      · rw [hs, hw, store_popViewController, writes_one, Write.apply]
    | _ => cases h
  | onBuild tableName columns searchRule =>
    cases screen with
    | build selectDb isUpdateMode =>
      have hbuild : onBuild db s selectDb isUpdateMode tableName columns searchRule = s' :=
        Option.some.inj h
      subst hbuild
      rcases onBuild_cases db s selectDb isUpdateMode tableName columns searchRule with
        ⟨hs, hw⟩ | ⟨hs, hw⟩ | ⟨item, -, -, hs, hw⟩
      · rw [hs, hw]; rfl
      · rw [hs, hw, store_popViewController, writes_one, Write.apply]
      · rw [hs, hw, store_popViewController, writes_one, Write.apply]
    | _ => cases h
  | onExcute =>
    cases screen with
    | cretoria ho => cases h; rfl
    | _ => cases h
  | _ => cases screen <;> cases h

theorem store_recivedDataArray {result : Result} {signalId : Int}
    (h : recivedDataArray s result signalId = some s') : s'.store = s.store := by
  unfold recivedDataArray at h
  split at h
  · cases h; rfl
  · split at h
    · exact (store_openBuild h).trans rfl
    · split at h
      · exact (store_openBuild h).trans rfl
      · cases h; rfl

theorem store_touch {l : Label} (h : touch db s l = some s') :
    s'.store = writes db s.store (touchWrites s l) := by
  cases hstack : s.stack with
  | nil =>
    simp only [touch, hstack] at h
    simp only [touchWrites, hstack]
    exact store_mainStep h
  | cons screen rest =>
    simp only [touch, hstack] at h
    simp only [touchWrites, hstack]
    exact store_screenStep h

/-- **What a step writes.** At most one statement, about the record that was
touched. -/
theorem store_step {l : Label} (h : step db s l = some s') :
    s'.store = writes db s.store (written s l) := by
  cases l with
  | alertDismiss =>
    obtain ⟨item, hitem, rfl⟩ := Option.map_eq_some_iff.mp h
    rw [written, hitem]
    rfl
  | response i empty =>
    obtain ⟨r, -, hr⟩ := Option.bind_eq_some_iff.mp h
    exact (store_recivedDataArray hr).trans rfl
  | failure i =>
    obtain ⟨_, -, rfl⟩ := Option.map_eq_some_iff.mp h
    rfl
  | elsewhere empty => cases h; rfl
  | _ => exact store_touch h

end

/-! ## What the screens hold -/

/-- `P` and `Q` are true of every record that the store gives out. -/
structure Gives (P : Obj_Database → Prop) (Q : Obj_Query → Prop) (st : Store) : Prop where
  connected : ∀ d ∈ getHistoryArray st, P d
  recent : ∀ d ∈ getDeletedArray st, P d
  queries : ∀ q ∈ getQuerys st, Q q

/-- They are true of every record that the screens hold. -/
structure Holds (P : Obj_Database → Prop) (Q : Obj_Query → Prop) (s : St) : Prop where
  connected : ∀ d ∈ s.m_connectedDatabases, P d
  recent : ∀ d ∈ s.m_recentDatabases, P d
  queries : ∀ q ∈ s.m_queryArray, Q q
  signal : ∀ d ∈ s.signal_item, P d
  selected : ∀ q ∈ s.m_selectedQueryItem, Q q
  deleted : ∀ q ∈ s.m_delteQueryItem, Q q
  builders : ∀ d isUpdateMode, Screen.build (some d) isUpdateMode ∈ s.stack → P d

/-- The forms keep `P` and `Q`. -/
def Fits (P : Obj_Database → Prop) (Q : Obj_Query → Prop) : Label → Prop
  | .onSave form => ∀ d, P d → P (saved form d)
  | .onBuild tableName columns searchRule => ∀ q, Q q → Q (rebuilt tableName columns searchRule q)
  | _ => True

section
variable {P : Obj_Database → Prop} {Q : Obj_Query → Prop} {db : Sqlite} {s s' : St}

theorem holds_mono {P' : Obj_Database → Prop} {Q' : Obj_Query → Prop} (hP : ∀ d, P d → P' d)
    (hQ : ∀ q, Q q → Q' q) (h : Holds P Q s) : Holds P' Q' s where
  connected d hd := hP d (h.connected d hd)
  recent d hd := hP d (h.recent d hd)
  queries q hq := hQ q (h.queries q hq)
  signal d hd := hP d (h.signal d hd)
  selected q hq := hQ q (h.selected q hq)
  deleted q hq := hQ q (h.deleted q hq)
  builders d b hd := hP d (h.builders d b hd)

theorem holds_viewWillAppear (h : Holds P Q s) (hst : Gives P Q s.store) :
    Holds P Q (viewWillAppear s) :=
  { h with connected := hst.connected, recent := hst.recent, queries := hst.queries }

theorem holds_popViewController (h : Holds P Q s) (hst : Gives P Q s.store) :
    Holds P Q (popViewController s) := by
  rcases popViewController_cases s with he | ⟨rest, hr, he⟩ | he
  · rw [he]; exact h
  · rw [he]
    exact { h with builders := fun d b hd => h.builders d b (hr hd) }
  · rw [he]
    refine holds_viewWillAppear { h with builders := ?_ } hst
    intro d b hd
    cases hd

/-- Selecting a database that is `none` or held, with the settings on top. -/
theorem holds_openSettings (h : Holds P Q s) {item : Option Obj_Database} (hi : ∀ d ∈ item, P d) :
    Holds P Q (openSettings { s with signal_item := item, settled := false }) := by
  refine { h with signal := hi, builders := ?_ }
  intro d b hd
  rcases List.mem_cons.mp hd with he | hd
  · cases he
  · exact h.builders d b hd

theorem holds_openBuild (h : Holds P Q s) (ho : openBuild s = some s') : Holds P Q s' := by
  unfold openBuild at ho
  split at ho
  · cases ho
  · obtain rfl := Option.some.inj ho
    refine { h with builders := ?_ }
    intro d b hd
    rcases List.mem_cons.mp hd with he | hd
    · exact h.signal d (by injection he with he; exact he.symm)
    · exact h.builders d b hd

theorem holds_search (h : Holds P Q s) (item : Obj_Query) : ∀ d ∈ search s item, P d := by
  intro d hd
  unfold search at hd
  cases hf : s.m_connectedDatabases.find? fun subDB => intValue subDB.dbId = intValue item.query_dbId with
  | none =>
    rw [hf, Option.none_or] at hd
    exact h.signal d hd
  | some e =>
    rw [hf, Option.some_or] at hd
    obtain rfl := Option.some.inj hd
    exact h.connected e (List.mem_of_find?_eq_some hf)

theorem holds_refreshTables (h : Holds P Q s) {st : Store} (hst : Gives P Q st) :
    Holds P Q (refreshTables { s with store := st }) :=
  { h with connected := hst.connected, recent := hst.recent }

theorem holds_AddAction {index : Nat} (h : Holds P Q s) (hst : Gives P Q s'.store)
    (ha : AddAction db s index = some s') : Holds P Q s' := by
  unfold AddAction at ha
  split at ha
  · obtain ⟨item, -, rfl⟩ := Option.map_eq_some_iff.mp ha
    exact holds_refreshTables h hst
  · split at ha
    · obtain rfl := Option.some.inj ha
      exact holds_openSettings h fun _ hd => absurd hd (Option.not_mem_none _)
    · obtain ⟨item, -, rfl⟩ := Option.map_eq_some_iff.mp ha
      exact holds_refreshTables h hst

theorem holds_DeleteAction {index : Nat} (h : Holds P Q s) (hst : Gives P Q s'.store)
    (ha : DeleteAction db s index = some s') : Holds P Q s' := by
  unfold DeleteAction at ha
  split at ha
  · obtain ⟨item, -, rfl⟩ := Option.map_eq_some_iff.mp ha
    exact holds_refreshTables h hst
  · split at ha
    · obtain ⟨item, hitem, rfl⟩ := Option.map_eq_some_iff.mp ha
      refine { h with deleted := ?_ }
      intro q hq
      obtain rfl := Option.some.inj hq
      exact h.queries item (List.mem_of_getElem? hitem)
    · split at ha
      · obtain rfl := Option.some.inj ha
        exact holds_openSettings h fun _ hd => absurd hd (Option.not_mem_none _)
      · obtain ⟨item, -, rfl⟩ := Option.map_eq_some_iff.mp ha
        exact holds_refreshTables h hst

theorem holds_mainStep {l : Label} (h : Holds P Q s) (hst : Gives P Q s'.store)
    (hs : mainStep db s l = some s') : Holds P Q s' := by
  cases l with
  | connectedRow row =>
    simp only [mainStep, didSelectRow_connected] at hs
    split at hs
    · obtain rfl := Option.some.inj hs
      exact holds_openSettings h fun _ hd => absurd hd (Option.not_mem_none _)
    · obtain ⟨item, hitem, rfl⟩ := Option.map_eq_some_iff.mp hs
      refine { h with signal := ?_ }
      intro d hd
      obtain rfl := Option.some.inj hd
      exact h.connected item (List.mem_of_getElem? hitem)
  | connectedAccessory row =>
    simp only [mainStep, accessory_connected] at hs
    split at hs
    · obtain rfl := Option.some.inj hs
      exact holds_openSettings h fun _ hd => absurd hd (Option.not_mem_none _)
    · obtain ⟨item, hitem, rfl⟩ := Option.map_eq_some_iff.mp hs
      refine holds_openSettings h fun d hd => ?_
      obtain rfl := Option.some.inj hd
      exact h.connected item (List.mem_of_getElem? hitem)
  | queryRow row =>
    simp only [mainStep, didSelectRow_query] at hs
    obtain ⟨item, hitem, hm⟩ := Option.bind_eq_some_iff.mp hs
    obtain ⟨_, -, rfl⟩ := Option.map_eq_some_iff.mp hm
    refine { h with signal := holds_search h item, builders := ?_ }
    intro d b hd
    rcases List.mem_cons.mp hd with he | hd
    · cases he
    · exact h.builders d b hd
  | queryAccessory row =>
    obtain ⟨item, hitem, rfl⟩ := Option.map_eq_some_iff.mp hs
    refine { h with signal := holds_search h item, selected := ?_ }
    intro q hq
    obtain rfl := Option.some.inj hq
    exact h.queries item (List.mem_of_getElem? hitem)
  | addAction index => exact holds_AddAction h hst hs
  | deleteAction index => exact holds_DeleteAction h hst hs
  | settingsButton =>
    obtain rfl := Option.some.inj hs
    have hopen := holds_openSettings h h.signal
    exact { hopen with }
  | buildButton => exact holds_openBuild h hs
  | _ => cases hs

/-- The settings after they saved. -/
theorem holds_saved (h : Holds P Q s) {item : Option Obj_Database} (hi : ∀ d ∈ item, P d)
    {st : Store} (hst : Gives P Q st) (settled : Bool) :
    Holds P Q (popViewController
      { s with signal_item := item, settled := settled, store := st }) :=
  holds_popViewController { h with signal := hi } hst

/-- The builder after it saved. -/
theorem holds_built (h : Holds P Q s) {item : Option Obj_Query} (hi : ∀ q ∈ item, Q q)
    {st : Store} (hst : Gives P Q st) :
    Holds P Q (popViewController
      { s with store := st, m_queryArray := getQuerys st, m_selectedQueryItem := item }) :=
  holds_popViewController { h with queries := hst.queries, selected := hi } hst

theorem holds_onSave {isEditMode : Bool} {form : Obj_Database} (h : Holds P Q s)
    (hf : Fits P Q (.onSave form)) (hst : Gives P Q (onSave db s isEditMode form).store) :
    Holds P Q (onSave db s isEditMode form) := by
  rcases onSave_cases db s isEditMode form with ⟨he, -⟩ | ⟨d, hd, he, -⟩ | ⟨he, -⟩
  · rw [he]; exact h
  · rw [he] at hst ⊢
    simp only [store_popViewController] at hst
    refine holds_saved h (fun d' hd' => ?_) hst false
    obtain rfl := Option.some.inj hd'
    exact hf d (h.signal d hd)
  · rw [he] at hst ⊢
    simp only [store_popViewController] at hst
    exact holds_saved h h.signal hst s.settled

theorem holds_onBuild {selectDb : Option Obj_Database} {isUpdateMode : Bool}
    {tableName columns searchRule : NSString} (h : Holds P Q s)
    (hf : Fits P Q (.onBuild tableName columns searchRule))
    (hst : Gives P Q (onBuild db s selectDb isUpdateMode tableName columns searchRule).store) :
    Holds P Q (onBuild db s selectDb isUpdateMode tableName columns searchRule) := by
  rcases onBuild_cases db s selectDb isUpdateMode tableName columns searchRule with
    ⟨he, -⟩ | ⟨he, -⟩ | ⟨item, -, hitem, he, -⟩
  · rw [he]; exact h
  · rw [he] at hst ⊢
    simp only [store_popViewController] at hst
    exact holds_built h h.selected hst
  · rw [he] at hst ⊢
    simp only [store_popViewController] at hst
    refine holds_built h (fun q hq => ?_) hst
    obtain rfl := Option.some.inj hq
    exact hf item (h.selected item hitem)

theorem holds_screenStep {screen : Screen} {l : Label} (h : Holds P Q s) (hf : Fits P Q l)
    (hst : Gives P Q s'.store) (hs : screenStep db s screen l = some s') : Holds P Q s' := by
  cases l with
  | onGoBack =>
    have hback : popViewController s = s' := by cases screen <;> exact Option.some.inj hs
    subst hback
    rw [store_popViewController] at hst
    exact holds_popViewController h hst
  | onSave form =>
    cases screen with
    | settings isEditMode =>
      have hsave : onSave db s isEditMode form = s' := Option.some.inj hs
      subst hsave
      exact holds_onSave h hf hst
    | _ => cases hs
  | onBuild tableName columns searchRule =>
    cases screen with
    | build selectDb isUpdateMode =>
      have hbuild : onBuild db s selectDb isUpdateMode tableName columns searchRule = s' :=
        Option.some.inj hs
      subst hbuild
      exact holds_onBuild h hf hst
    | _ => cases hs
  | onExcute =>
    cases screen with
    | cretoria ho => cases hs; exact { h with }
    | _ => cases hs
  | _ => cases screen <;> cases hs

theorem holds_recivedDataArray {result : Result} {signalId : Int} (h : Holds P Q s)
    (hr : recivedDataArray s result signalId = some s') : Holds P Q s' := by
  unfold recivedDataArray at hr
  split at hr
  · cases hr; exact h
  · split at hr
    · exact holds_openBuild (s := { s with
        m_containTables := some result, isQueryEditMode := true, settled := true }) { h with } hr
    · split at hr
      · exact holds_openBuild (s := { s with m_containTables := some result, settled := true })
          { h with } hr
      · cases hr; exact h

theorem holds_touch {l : Label} (h : Holds P Q s) (hf : Fits P Q l) (hst : Gives P Q s'.store)
    (hs : touch db s l = some s') : Holds P Q s' := by
  unfold touch at hs
  split at hs
  · exact holds_mainStep h hst hs
  · exact holds_screenStep h hf hst hs

/-- One step, if the store it leaves still gives out such records. -/
theorem holds_step {l : Label} (h : Holds P Q s) (hf : Fits P Q l) (hst : Gives P Q s'.store)
    (hs : step db s l = some s') : Holds P Q s' := by
  cases l with
  | alertDismiss =>
    obtain ⟨item, -, rfl⟩ := Option.map_eq_some_iff.mp hs
    exact { h with queries := hst.queries }
  | response i empty =>
    obtain ⟨r, -, hr⟩ := Option.bind_eq_some_iff.mp hs
    exact holds_recivedDataArray (s := { s with
      requests := s.requests.eraseIdx i
      m_resultArray := some (if empty then .empty else .tables r.credentials) }) { h with } hr
  | failure i =>
    obtain ⟨_, -, rfl⟩ := Option.map_eq_some_iff.mp hs
    exact { h with }
  | elsewhere empty => cases hs; exact { h with }
  | _ => exact holds_touch h hf hst hs

end

/-! ## The lists -/

/-- The arrays are what the store gives out now. -/
structure Shown (s : St) : Prop where
  connected : s.m_connectedDatabases = getHistoryArray s.store
  recent : s.m_recentDatabases = getDeletedArray s.store
  queries : s.m_queryArray = getQuerys s.store

/-- All ids are ids that the store gave out. -/
def Given (s : St) : Prop := Holds (fun d => GivenId d.dbId) (fun q => GivenId q.query_Id) s

section
variable {db : Sqlite} {s s' : St}

theorem gives_given (st : Store) :
    Gives (fun d => GivenId d.dbId) (fun q => GivenId q.query_Id) st := by
  refine ⟨?_, ?_, ?_⟩ <;> intro x hx
  all_goals
    obtain ⟨r, -, rfl⟩ := List.mem_map.mp hx
    exact ⟨r.id, rfl⟩

theorem given_step {l : Label} (h : Given s) (hs : step db s l = some s') : Given s' := by
  refine holds_step h ?_ (gives_given s'.store) hs
  cases l with
  | onSave form => exact fun d hd => hd
  | onBuild tableName columns searchRule => exact fun q hq => hq
  | _ => trivial

theorem arrays_of_databases {st st' : Store} (h : st'.registry.databases = st.registry.databases) :
    getHistoryArray st' = getHistoryArray st ∧ getDeletedArray st' = getDeletedArray st := by
  refine ⟨(flagged_registry st' 1).trans ?_, (flagged_registry st' 0).trans ?_⟩
  · rw [h]; exact (flagged_registry st 1).symm
  · rw [h]; exact (flagged_registry st 0).symm

theorem listed_refreshTables (hl : Shown s) {st : Store} (hq : getQuerys st = getQuerys s.store) :
    Shown (refreshTables { s with store := st }) :=
  ⟨rfl, rfl, hl.queries.trans hq.symm⟩

/-- The flag of a database is no matter of the queries. -/
theorem getQuerys_AddToHistory {item : Obj_Database} (h : GivenId item.dbId) (st : Store) :
    getQuerys (AddToHistory db st item) = getQuerys st :=
  congrArg Registry.queries (registry_flag opens_AddToHistory h)

theorem getQuerys_DeleteFromHistory {item : Obj_Database} (h : GivenId item.dbId) (st : Store) :
    getQuerys (DeleteFromHistory db st item) = getQuerys st :=
  congrArg Registry.queries (registry_flag opens_DeleteFromHistory h)

theorem arrays_deleteBuildQuery (db : Sqlite) {item : Obj_Query} (h : GivenId item.query_Id)
    (st : Store) :
    getHistoryArray (deleteBuildQuery db st item) = getHistoryArray st ∧
      getDeletedArray (deleteBuildQuery db st item) = getDeletedArray st :=
  arrays_of_databases ((congrArg Registry.databases (registry_deleteBuildQuery h)).trans rfl)

theorem listed_AddAction {index : Nat} (hg : Given s) (hl : Shown s)
    (h : AddAction db s index = some s') (htop : s'.stack = []) : Shown s' := by
  unfold AddAction at h
  split at h
  · obtain ⟨item, hitem, rfl⟩ := Option.map_eq_some_iff.mp h
    exact listed_refreshTables hl
      (getQuerys_AddToHistory (hg.recent item (List.mem_of_getElem? hitem)) s.store)
  · split at h
    · obtain rfl := Option.some.inj h
      cases htop
    · obtain ⟨item, hitem, rfl⟩ := Option.map_eq_some_iff.mp h
      exact listed_refreshTables hl
        (getQuerys_AddToHistory (hg.connected item (List.mem_of_getElem? hitem)) s.store)

theorem listed_DeleteAction {index : Nat} (hg : Given s) (hl : Shown s)
    (h : DeleteAction db s index = some s') (htop : s'.stack = []) : Shown s' := by
  unfold DeleteAction at h
  split at h
  · obtain ⟨item, hitem, rfl⟩ := Option.map_eq_some_iff.mp h
    exact listed_refreshTables hl
      (getQuerys_DeleteFromHistory (hg.recent item (List.mem_of_getElem? hitem)) s.store)
  · split at h
    · obtain ⟨item, -, rfl⟩ := Option.map_eq_some_iff.mp h
      exact ⟨hl.connected, hl.recent, hl.queries⟩
    · split at h
      · obtain rfl := Option.some.inj h
        cases htop
      · obtain ⟨item, hitem, rfl⟩ := Option.map_eq_some_iff.mp h
        exact listed_refreshTables hl
          (getQuerys_DeleteFromHistory (hg.connected item (List.mem_of_getElem? hitem)) s.store)

theorem stack_openBuild (h : openBuild s = some s') : s'.stack ≠ [] := by
  unfold openBuild at h
  split at h
  · cases h
  · obtain rfl := Option.some.inj h
    exact List.cons_ne_nil _ _

theorem listed_mainStep {l : Label} (hg : Given s) (hl : Shown s)
    (h : mainStep db s l = some s') (htop : s'.stack = []) : Shown s' := by
  cases l with
  | connectedRow row =>
    simp only [mainStep, didSelectRow_connected] at h
    split at h
    · obtain rfl := Option.some.inj h
      cases htop
    · obtain ⟨item, -, rfl⟩ := Option.map_eq_some_iff.mp h
      exact ⟨hl.connected, hl.recent, hl.queries⟩
  | connectedAccessory row =>
    simp only [mainStep, accessory_connected] at h
    split at h
    · obtain rfl := Option.some.inj h
      cases htop
    · obtain ⟨item, -, rfl⟩ := Option.map_eq_some_iff.mp h
      cases htop
  | queryRow row =>
    obtain ⟨item, -, hm⟩ := Option.bind_eq_some_iff.mp h
    obtain ⟨_, -, rfl⟩ := Option.map_eq_some_iff.mp hm
    cases htop
  | queryAccessory row =>
    obtain ⟨item, -, rfl⟩ := Option.map_eq_some_iff.mp h
    exact ⟨hl.connected, hl.recent, hl.queries⟩
  | addAction index => exact listed_AddAction hg hl h htop
  | deleteAction index => exact listed_DeleteAction hg hl h htop
  | settingsButton =>
    obtain rfl := Option.some.inj h
    cases htop
  | buildButton => exact absurd htop (stack_openBuild h)
  | _ => cases h

/-- Going back to the main screen reads the lists again. -/
theorem listed_popViewController (hne : s.stack ≠ []) (htop : (popViewController s).stack = []) :
    Shown (popViewController s) := by
  unfold popViewController at htop ⊢
  split
  · exact ⟨rfl, rfl, rfl⟩
  · rename_i screen rest hrest heq
    rw [heq] at htop
    cases rest with
    | nil => exact (hrest rfl).elim
    | cons _ _ => cases htop
  · exact absurd ‹_› hne

theorem listed_screenStep {screen : Screen} {l : Label} (hne : s.stack ≠ [])
    (h : screenStep db s screen l = some s') (htop : s'.stack = []) : Shown s' := by
  cases l with
  | onGoBack =>
    have hback : popViewController s = s' := by cases screen <;> exact Option.some.inj h
    subst hback
    exact listed_popViewController hne htop
  | onSave form =>
    cases screen with
    | settings isEditMode =>
      have hsave : onSave db s isEditMode form = s' := Option.some.inj h
      subst hsave
      rcases onSave_cases db s isEditMode form with ⟨he, -⟩ | ⟨d, -, he, -⟩ | ⟨he, -⟩
      · rw [he] at htop; exact absurd htop hne
      · rw [he] at htop ⊢; exact listed_popViewController hne htop
      · rw [he] at htop ⊢; exact listed_popViewController hne htop
    | _ => cases h
  | onBuild tableName columns searchRule =>
    cases screen with
    | build selectDb isUpdateMode =>
      have hbuild : onBuild db s selectDb isUpdateMode tableName columns searchRule = s' :=
        Option.some.inj h
      subst hbuild
      rcases onBuild_cases db s selectDb isUpdateMode tableName columns searchRule with
        ⟨he, -⟩ | ⟨he, -⟩ | ⟨item, -, -, he, -⟩
      · rw [he] at htop; exact absurd htop hne
      · rw [he] at htop ⊢; exact listed_popViewController hne htop
      · rw [he] at htop ⊢; exact listed_popViewController hne htop
    | _ => cases h
  | onExcute =>
    cases screen with
    | cretoria ho => cases h; exact absurd htop hne
    | _ => cases h
  | _ => cases screen <;> cases h

theorem listed_recivedDataArray {result : Result} {signalId : Int} (hl : s.stack = [] → Shown s)
    (h : recivedDataArray s result signalId = some s') (htop : s'.stack = []) : Shown s' := by
  unfold recivedDataArray at h
  split at h
  · cases h; exact hl htop
  · split at h
    · exact absurd htop (stack_openBuild h)
    · split at h
      · exact absurd htop (stack_openBuild h)
      · cases h; exact hl htop

theorem listed_didDismiss (hg : Given s) (hl : Shown s) (h : didDismiss db s = some s') :
    Shown s' := by
  obtain ⟨item, hitem, rfl⟩ := Option.map_eq_some_iff.mp h
  obtain ⟨hconnected, hrecent⟩ := arrays_deleteBuildQuery db (hg.deleted item hitem) s.store
  exact ⟨hl.connected.trans hconnected.symm, hl.recent.trans hrecent.symm, rfl⟩

theorem listed_touch {l : Label} (hg : Given s) (hl : s.stack = [] → Shown s)
    (h : touch db s l = some s') (htop : s'.stack = []) : Shown s' := by
  unfold touch at h
  split at h
  · exact listed_mainStep hg (hl ‹_›) h htop
  · rename_i screen rest heq
    exact listed_screenStep (by rw [heq]; exact List.cons_ne_nil _ _) h htop

theorem stack_didDismiss (h : didDismiss db s = some s') : s'.stack = s.stack := by
  obtain ⟨item, -, rfl⟩ := Option.map_eq_some_iff.mp h
  rfl

theorem listed_step {l : Label} (hg : Given s) (hl : s.stack = [] → Shown s)
    (hs : step db s l = some s') (htop : s'.stack = []) : Shown s' := by
  -- an answer leaves the store and the lists alone
  have hanswer (i : Nat) (result : Option Result) : s.stack = [] →
      Shown { s with requests := s.requests.eraseIdx i, m_resultArray := result } :=
    fun htop => ⟨(hl htop).connected, (hl htop).recent, (hl htop).queries⟩
  cases l with
  | alertDismiss => exact listed_didDismiss hg (hl ((stack_didDismiss hs).symm.trans htop)) hs
  | response i empty =>
    obtain ⟨r, -, hr⟩ := Option.bind_eq_some_iff.mp hs
    exact listed_recivedDataArray (hanswer i _) hr htop
  | failure i =>
    obtain ⟨_, -, rfl⟩ := Option.map_eq_some_iff.mp hs
    exact hanswer i _ htop
  | elsewhere empty =>
    cases hs
    exact ⟨(hl htop).connected, (hl htop).recent, (hl htop).queries⟩
  | _ => exact listed_touch hg hl hs htop

theorem listed_inductive (db : Sqlite) :
    (lts db).Inductive fun s => Given s ∧ (s.stack = [] → Shown s) where
  init := by
    intro s hs
    obtain ⟨store, rfl⟩ := hs
    refine ⟨?_, fun _ => ⟨rfl, rfl, rfl⟩⟩
    refine holds_viewWillAppear ?_ (gives_given store)
    constructor
    case builders =>
      intro d isUpdateMode hd
      cases hd
    all_goals
      intro x hx
      cases hx
  step := by
    intro s l s' h hs
    exact ⟨given_step h.1 hs, listed_step h.1 h.2 hs⟩

/-- **The lists.** Whenever the main screen is on top its three lists are the
three lists of the store. -/
theorem listed_run (db : Sqlite) {s : St} (h : (lts db).Reachable s) (htop : s.stack = []) :
    Shown s :=
  ((listed_inductive db).reachable h).2 htop

/-- A database is saved and deleted. -/
theorem listed_run_deleted : ∃ s, (lts strict).Reachable s ∧
    s.m_recentDatabases = [sales (ns "1")] ∧ getDeletedArray s.store = [sales (ns "1")] := by
  have hex : ∃ s, (lts strict).Reachable s ∧
      (s.stack = [] ∧ getDeletedArray s.store = [sales (ns "1")]) :=
    LTS.exists_of_exec (viewWillAppear (viewDidLoad ⟨.empty, .empty⟩))
      [.settingsButton, .onSave (sales []), .deleteAction 0] _ ⟨_, rfl⟩ (by decide +kernel)
  obtain ⟨s, hs, htop, hdeleted⟩ := hex
  exact ⟨s, hs, (listed_run strict hs htop).recent.trans hdeleted, hdeleted⟩

end

end MysqlConnection.L3.Main
