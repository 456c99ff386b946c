import MysqlConnection.Core.Selection
import MysqlConnection.L3Screens.BuildViewController

/-!
# The column chooser

`AdminTableConfController`: the selection `selectedItemArray` under switch
changes, what a save and a reopen do to it, and the switches of the cells.

* `removeSelected_eq`: a switch turned off raises unless its column is
  selected last or not at all, since the array is changed while it is
  enumerated. So the changes that do what the switches say are those of
  `Selection.InOrder` (`toggled_iff`).
* `reopened_iff`: the selection survives a save and a reopen unless a name has
  a comma or the caller takes the saved string for another list.
* `Agree`: the switch of each cell shows whether its column is selected. A
  new cell reads the configuration the chooser was opened with, so a cell made
  again for a column that was switched in between is wrong (`stale_switch`);
  in runs without such cells all switches agree (`agree_of_current`).
-/
namespace MysqlConnection.L3.Conf

open MysqlConnection.L3.Build (Chooser removeSelected onChangeValue confData getConfString
  components_joined not_mem_of_mem_components)

/-! ## Switch changes -/

/-- `removeObject:` in the loop raises when a further element is asked for. -/
theorem removeSelected_eq (columnName : NSString) : ∀ l : List NSString,
    removeSelected columnName l =
      if columnName ∈ l.dropLast then none else some (l.filter (· ≠ columnName))
  | [] => rfl
  | [c] => by by_cases hc : c = columnName <;> simp [removeSelected, hc]
  | c :: d :: cs => by
    rw [removeSelected, removeSelected_eq columnName (d :: cs), List.dropLast_cons_cons]
    · by_cases hc : c = columnName
      · simp [hc]
      · have hne : columnName ≠ c := fun h => hc h.symm
        by_cases hm : columnName ∈ (d :: cs).dropLast
        · rw [if_neg hc, if_pos hm, if_pos (List.mem_cons_of_mem _ hm), Option.map_none]
        · have hm' : ¬ columnName ∈ c :: (d :: cs).dropLast := by
            intro h
            rcases List.mem_cons.mp h with h | h
            · exact hne h
            · exact hm h
          have hd : decide (c ≠ columnName) = true := by simpa using hc
          rw [if_neg hc, if_neg hm, if_neg hm', Option.map_some,
            List.filter_cons_of_pos (p := (· ≠ columnName)) (l := d :: cs) hd]
    · intro h; cases h

theorem onChangeValue_inv {c c' : Chooser} {tag : Nat} {isOn : Bool}
    (h : onChangeValue c tag isOn = some c') : ∃ columnName, c.m_columnArray[tag]? = some columnName ∧
      (isOn = false → columnName ∉ c.selected.dropLast) ∧
      c' = { c with selected :=
        if isOn then c.selected ++ [columnName] else c.selected.filter (· ≠ columnName) } := by
  unfold onChangeValue at h
  split at h
  · cases h
  · rename_i columnName hcol
    refine ⟨columnName, hcol, ?_⟩
    cases isOn with
    | true =>
      simp only [if_true, Option.some.injEq] at h
      subst h
      exact ⟨fun hf => (by cases hf), rfl⟩
    | false =>
      rw [if_neg (by simp), removeSelected_eq] at h
      split at h
      · cases h
      · rename_i hlast
        simp only [Option.map_some, Option.some.injEq] at h
        subst h
        exact ⟨fun _ => hlast, rfl⟩

/-- The switch changes of a run: rows and the new values. -/
def changes (c : Chooser) (evs : List (Nat × Bool)) : Option Chooser :=
  LTS.exec (fun c e => onChangeValue c e.1 e.2) c evs

/-- The changes with the names of their columns. -/
def named (c : Chooser) (evs : List (Nat × Bool)) : List (NSString × Bool) :=
  evs.map fun e => ((c.m_columnArray[e.1]?).getD [], e.2)

/-- No change raises, and the selection is what the switches say. -/
def Toggled (c : Chooser) (evs : List (Nat × Bool)) : Prop :=
  ∃ c', changes c evs = some c' ∧
    c'.selected = Selection.toggles c.selected (named c evs) ∧ c'.selected.Nodup

theorem nodup_of_onChangeValue {c c' : Chooser} {tag : Nat} {isOn : Bool}
    (h : onChangeValue c tag isOn = some c') (hn : c'.selected.Nodup) : c.selected.Nodup := by
  obtain ⟨columnName, -, hlast, rfl⟩ := onChangeValue_inv h
  cases isOn with
  | true => exact (List.nodup_append.mp hn).1
  | false =>
    have hlast := hlast rfl
    rcases List.eq_nil_or_concat c.selected with he | ⟨front, last, he⟩
    · rw [he]; exact List.nodup_nil
    · rw [he, List.concat_eq_append] at hlast hn ⊢
      rw [List.dropLast_concat] at hlast
      have hfront : front.filter (· ≠ columnName) = front := by
        rw [List.filter_eq_self]
        intro x hx
        have hne : x ≠ columnName := fun h => hlast (h ▸ hx)
        simpa using hne
      simp only [Bool.false_eq_true, if_false, List.filter_append, hfront] at hn
      rw [List.nodup_append]
      refine ⟨(List.nodup_append.mp hn).1, List.nodup_singleton last, ?_⟩
      intro x hx y hy hxy
      rw [List.mem_singleton] at hy
      subst hy hxy
      have hne : x ≠ columnName := fun h => hlast (h ▸ hx)
      exact (List.nodup_append.mp hn).2.2 x hx x (by simp [hne]) rfl

theorem nodup_of_changes {c c' : Chooser} {evs : List (Nat × Bool)} (h : changes c evs = some c')
    (hn : c'.selected.Nodup) : c.selected.Nodup := by
  induction evs generalizing c with
  | nil => simp only [changes, LTS.exec, Option.some.injEq] at h; subst h; exact hn
  | cons e evs ih =>
    simp only [changes, LTS.exec, Option.bind_eq_some_iff] at h
    obtain ⟨c₁, h₁, h₂⟩ := h
    exact nodup_of_onChangeValue h₁ (ih h₂)

/-- A change that finds its column last or not at all does what it says. -/
theorem onChangeValue_inOrder {c : Chooser} {tag : Nat} {columnName : NSString} {isOn : Bool}
    (hcol : c.m_columnArray[tag]? = some columnName)
    (h : if isOn then columnName ∉ c.selected else columnName ∉ c.selected.dropLast) :
    onChangeValue c tag isOn =
      some { c with selected := Selection.toggle c.selected columnName isOn } := by
  unfold onChangeValue Selection.toggle
  rw [hcol]
  cases isOn with
  | true =>
    have h : columnName ∉ c.selected := h
    simp only [if_true, if_neg h]
  | false =>
    have h : columnName ∉ c.selected.dropLast := h
    simp only [Bool.false_eq_true, if_false, removeSelected_eq, if_neg h, Option.map_some]

/-- A change after which nothing is selected twice found its column so. -/
theorem inOrder_of_nodup {c c' : Chooser} {tag : Nat} {columnName : NSString} {isOn : Bool}
    (hcol : c.m_columnArray[tag]? = some columnName) (h : onChangeValue c tag isOn = some c')
    (hn : c'.selected.Nodup) :
    if isOn then columnName ∉ c.selected else columnName ∉ c.selected.dropLast := by
  obtain ⟨name, hname, hlast, rfl⟩ := onChangeValue_inv h
  rw [hcol, Option.some.injEq] at hname
  subst hname
  cases isOn with
  | true =>
    intro hm
    exact (List.nodup_append.mp hn).2.2 columnName hm columnName (List.mem_singleton_self _) rfl
  | false => exact hlast rfl

/-- **Toggling.** Changes of switches never raise and leave the selection the
switches say exactly when nothing was selected twice, each column switched on
was not selected, and each one switched off was the last selected or none. -/
theorem toggled_iff (c : Chooser) (evs : List (Nat × Bool))
    (hrows : ∀ e ∈ evs, e.1 < c.m_columnArray.length) :
    Toggled c evs ↔ c.selected.Nodup ∧ Selection.InOrder c.selected (named c evs) := by
  induction evs generalizing c with
  | nil =>
    constructor
    · rintro ⟨c', h, -, hn⟩
      exact ⟨nodup_of_changes h hn, trivial⟩
    · rintro ⟨hn, -⟩
      exact ⟨c, rfl, rfl, hn⟩
  | cons e evs ih =>
    have hrow : e.1 < c.m_columnArray.length := hrows e List.mem_cons_self
    have hrest : ∀ e ∈ evs, e.1 < c.m_columnArray.length :=
      fun e he => hrows e (List.mem_cons_of_mem _ he)
    have hcol : c.m_columnArray[e.1]? = some ((c.m_columnArray[e.1]?).getD []) := by
      rw [List.getElem?_eq_getElem hrow, Option.getD_some]
    have ih' := ih { c with
      selected := Selection.toggle c.selected ((c.m_columnArray[e.1]?).getD []) e.2 } hrest
    constructor
    · rintro ⟨c', h, hsel, hn⟩
      simp only [changes, LTS.exec, Option.bind_eq_some_iff] at h
      obtain ⟨c₁, h₁, h₂⟩ := h
      have hn₁ : c₁.selected.Nodup := nodup_of_changes h₂ hn
      have hhead := inOrder_of_nodup hcol h₁ hn₁
      rw [onChangeValue_inOrder hcol hhead, Option.some.injEq] at h₁
      subst h₁
      have hin := (ih'.mp ⟨c', h₂, hsel, hn⟩).2
      refine ⟨?_, hhead, hin⟩
      exact nodup_of_onChangeValue (onChangeValue_inOrder hcol hhead) hn₁
    · rintro ⟨hn, hhead, hin⟩
      obtain ⟨c', h₂, hsel, hn'⟩ := ih'.mpr ⟨Selection.nodup_toggle hn _ _, hin⟩
      refine ⟨c', ?_, hsel, hn'⟩
      simp only [changes, LTS.exec, Option.bind_eq_some_iff]
      exact ⟨_, onChangeValue_inOrder hcol hhead, h₂⟩

/-- Two columns, the second one selected: it is switched off and both on. -/
theorem toggled_both : Toggled ⟨0, ns "orders", [ns "id", ns "total"], [ns "total"]⟩
    [(1, false), (1, true), (0, true)] :=
  (toggled_iff _ _ (by decide)).mpr (by
    refine ⟨by decide, ?_⟩
    simp only [Selection.InOrder, named, List.map_cons, List.map_nil]
    decide)

/-- Both columns are selected and the first one is switched off. -/
theorem removed_in_front : ¬ ∀ c evs, c.m_columnArray.Nodup → c.selected.Nodup →
    (∀ name ∈ c.selected, name ∈ c.m_columnArray) →
    (∀ e ∈ evs, e.1 < c.m_columnArray.length) → Toggled c evs := by
  intro hall
  obtain ⟨c', h, -⟩ := hall ⟨0, ns "orders", [ns "id", ns "total"], [ns "id", ns "total"]⟩
    [(0, false)] (by decide) (by decide) (by decide) (by decide)
  have hraise : changes ⟨0, ns "orders", [ns "id", ns "total"], [ns "id", ns "total"]⟩
      [(0, false)] = none := by decide
  rw [hraise] at h
  cases h

/-! ## Saving and reopening -/

/-- The two screens that open the chooser on a saved string. -/
inductive Caller where
  | BuildViewController
  | Con_TablesController
  deriving DecidableEq, Repr

/-- `selectedItemArray` of a chooser opened on `conf`.
mirrors AdminTableConfController.m:18-42, BuildViewController.m:62-68, 74-78 and
Con_TablesController.m:101-107 -/
def reopen : Caller → NSString → List NSString
  | .BuildViewController, conf => confData conf
  | .Con_TablesController, conf => components conf

/-- The one list that the caller takes the saved string for another list:
`""` is no selection for the builder and one empty name for the browser. -/
def misread : Caller → List NSString
  | .BuildViewController => [[]]
  | .Con_TablesController => []

/-- The same selection after a save and a reopen, and the same string when it
is saved again. -/
def Reopened (caller : Caller) (c : Chooser) : Prop :=
  reopen caller (getConfString c) = c.selected ∧
    getConfString { c with selected := reopen caller (getConfString c) } = getConfString c

theorem components_getConfString (c : Chooser) :
    components (getConfString c) = c.selected ↔
      (∀ name ∈ c.selected, ',' ∉ name) ∧ c.selected ≠ [] := by
  constructor
  · intro h
    refine ⟨?_, ?_⟩
    · intro name hname
      rw [← h] at hname
      exact not_mem_of_mem_components hname
    · rw [← h]
      exact List.splitOn_ne_nil ',' _
  · rintro ⟨hcomma, hne⟩
    exact components_joined hcomma hne

theorem getConfString_eq_nil (c : Chooser) :
    getConfString c = [] ↔ c.selected = [] ∨ c.selected = [[]] := by
  unfold getConfString joined
  cases c.selected with
  | nil => simp
  | cons x xs =>
    cases xs with
    | nil => simp
    | cons y ys => simp [ns]

theorem confData_getConfString (c : Chooser) :
    confData (getConfString c) = c.selected ↔
      (∀ name ∈ c.selected, ',' ∉ name) ∧ c.selected ≠ [[]] := by
  unfold confData
  by_cases hs : getConfString c = []
  · rw [hs, if_neg (by simp)]
    rcases (getConfString_eq_nil c).mp hs with h | h
    · rw [h]; simp
    · rw [h]; simp
  · have hne : c.selected ≠ [] ∧ c.selected ≠ [[]] := by
      rw [getConfString_eq_nil] at hs
      exact not_or.mp hs
    rw [if_pos (List.length_pos_iff.mpr hs), components_getConfString]
    exact and_congr_right fun _ => ⟨fun _ => hne.2, fun _ => hne.1⟩

/-- **Save and reopen.** A selection survives a save and a reopen exactly when
no selected name has a comma and the caller does not misread the list. -/
theorem reopened_iff (caller : Caller) (c : Chooser) :
    Reopened caller c ↔ (∀ name ∈ c.selected, ',' ∉ name) ∧ c.selected ≠ misread caller := by
  have hsame : Reopened caller c ↔ reopen caller (getConfString c) = c.selected := by
    refine ⟨And.left, ?_⟩
    intro h
    refine ⟨h, ?_⟩
    rw [h]
  rw [hsame]
  cases caller with
  | BuildViewController => exact confData_getConfString c
  | Con_TablesController => exact components_getConfString c

/-- Nothing is selected: the browser reopens with one empty name. -/
theorem empty_selection : ¬ ∀ caller c, Reopened caller c := by
  intro hall
  have h := (hall .Con_TablesController ⟨0, ns "orders", [ns "id"], []⟩).1
  exact absurd h (by decide)

/-! ## The switches -/

/-- The cell of a row, with the value of its switch. It is on screen or waits
in the reuse pool. -/
structure Cell where
  row : Nat
  isOn : Bool
  onScreen : Bool
  deriving DecidableEq, Repr

/-- The cell, changed by `f` if it is the one of `row`. -/
def Cell.update (row : Nat) (f : Cell → Cell) (c : Cell) : Cell := if c.row = row then f c else c

/-- `m_confArray` is `none` when `setConfData:` was not called. -/
structure Screen where
  chooser : Chooser
  m_confArray : Option (List NSString)
  cells : List Cell
  deriving DecidableEq, Repr

/-- `discard`: the table view throws a waiting cell away. -/
inductive Label where
  | cellForRowAtIndexPath (row : Nat)
  | didEndDisplayingCell (row : Nat)
  | discard (row : Nat)
  | onChangeValue (row : Nat)
  deriving DecidableEq, Repr

/-- The chooser as it is pushed; `conf` is the argument of `setConfData:`.
mirrors AdminTableConfController.m:18-42 -/
def opened (typeId : Int) (tableName : NSString) (columnArray : List NSString)
    (conf : Option NSString) : Screen where
  chooser := ⟨typeId, tableName, columnArray, (conf.map components).getD []⟩
  m_confArray := conf.map components
  cells := []

/-- mirrors AdminTableConfController.m:168-179, 183-194 -/
def isConf (m_confArray : Option (List NSString)) (columnName : NSString) : Bool :=
  (m_confArray.getD []).any (· == columnName)

/-- mirrors AdminTableConfController.m:146-204 -/
def cellForRowAtIndexPath (s : Screen) (row : Nat) : Option Screen :=
  if row ∈ s.cells.map (·.row) then
    some { s with cells := s.cells.map (Cell.update row fun c => { c with onScreen := true }) }
  else
    (s.chooser.m_columnArray[row]?).map fun columnName =>
      { s with cells := s.cells ++ [⟨row, isConf s.m_confArray columnName, true⟩] }

/-- A tap flips the switch of a cell on screen, then the action is sent. -/
def flip (s : Screen) (row : Nat) : Option Screen :=
  match s.cells.find? (fun c => c.row = row ∧ c.onScreen = true) with
  | none => none
  | some cell =>
    (onChangeValue s.chooser row !cell.isOn).map fun chooser =>
      { s with
        chooser := chooser
        cells := s.cells.map (Cell.update row fun c => { c with isOn := !c.isOn }) }

def step (s : Screen) : Label → Option Screen
  | .cellForRowAtIndexPath row => cellForRowAtIndexPath s row
  | .didEndDisplayingCell row =>
    some { s with cells := s.cells.map (Cell.update row fun c => { c with onScreen := false }) }
  | .discard row =>
    some { s with cells := s.cells.filter fun c => ¬ (c.row = row ∧ c.onScreen = false) }
  | .onChangeValue row => flip s row

/-- Distinct column names, and a configuration string of some of them. -/
def Initial (s : Screen) : Prop :=
  ∃ typeId tableName columnArray conf, columnArray.Nodup ∧
    (∀ text ∈ conf, ∀ name ∈ components text, name ∈ columnArray) ∧
    s = opened typeId tableName columnArray conf

def lts : LTS Screen Label := LTS.ofFn Initial step

/-- The switch of each cell is on exactly when its column is selected. -/
def Agree (s : Screen) : Prop :=
  ∀ cell ∈ s.cells, ∀ columnName ∈ s.chooser.m_columnArray[cell.row]?,
    (cell.isOn = true ↔ columnName ∈ s.chooser.selected)

instance : DecidablePred Agree := fun s => by unfold Agree; exact inferInstance

/-- A new cell is only made for a column that is selected now exactly when the
configuration has it. -/
def Current (s : Screen) : Label → Prop
  | .cellForRowAtIndexPath row => row ∉ s.cells.map (·.row) →
    ∀ columnName ∈ s.chooser.m_columnArray[row]?,
      (isConf s.m_confArray columnName = true ↔ columnName ∈ s.chooser.selected)
  | _ => True

instance (s : Screen) : (l : Label) → Decidable (Current s l)
  | .cellForRowAtIndexPath row => inferInstanceAs (Decidable (row ∉ s.cells.map (·.row) →
    ∀ columnName ∈ s.chooser.m_columnArray[row]?,
      (isConf s.m_confArray columnName = true ↔ columnName ∈ s.chooser.selected)))
  | .didEndDisplayingCell _ => isTrue trivial
  | .discard _ => isTrue trivial
  | .onChangeValue _ => isTrue trivial

/-- The rows have one cell each and distinct names, and the switches agree. -/
structure Shown (s : Screen) : Prop where
  names : s.chooser.m_columnArray.Nodup
  rows : (s.cells.map (·.row)).Nodup
  agree : Agree s

theorem shown_opened {typeId : Int} {tableName : NSString} {columnArray : List NSString}
    {conf : Option NSString} (h : columnArray.Nodup) :
    Shown (opened typeId tableName columnArray conf) where
  names := h
  rows := List.nodup_nil
  agree := by intro cell hcell; cases hcell

theorem row_update {row : Nat} {f : Cell → Cell} (hf : ∀ c, (f c).row = c.row) (c : Cell) :
    (c.update row f).row = c.row := by
  unfold Cell.update
  split
  · exact hf c
  · rfl

theorem rows_update {row : Nat} {f : Cell → Cell} (hf : ∀ c, (f c).row = c.row) (cells : List Cell) :
    (cells.map (Cell.update row f)).map (·.row) = cells.map (·.row) := by
  rw [List.map_map]
  exact List.map_congr_left fun c _ => row_update hf c

/-- Moving a cell between the screen and the pool changes no row and no switch. -/
theorem shown_update {s : Screen} {row : Nat} {f : Cell → Cell} (h : Shown s)
    (hf : ∀ c, (f c).row = c.row) (hon : ∀ c, (f c).isOn = c.isOn) :
    Shown { s with cells := s.cells.map (Cell.update row f) } where
  names := h.names
  rows := (rows_update hf s.cells).symm ▸ h.rows
  agree := by
    intro cell hcell columnName hcol
    obtain ⟨c, hc, rfl⟩ := List.mem_map.mp hcell
    rw [row_update hf] at hcol
    have hsame : (c.update row f).isOn = c.isOn := by
      unfold Cell.update
      split
      · exact hon c
      · rfl
    rw [hsame]
    exact h.agree c hc columnName hcol

theorem shown_cellForRowAtIndexPath {s s' : Screen} {row : Nat} (h : Shown s)
    (hf : Current s (.cellForRowAtIndexPath row)) (hs : cellForRowAtIndexPath s row = some s') :
    Shown s' := by
  unfold cellForRowAtIndexPath at hs
  split at hs
  · simp only [Option.some.injEq] at hs
    subst hs
    exact shown_update h (fun _ => rfl) (fun _ => rfl)
  · rename_i hnew
    rw [Option.map_eq_some_iff] at hs
    obtain ⟨columnName, hcol, rfl⟩ := hs
    refine ⟨h.names, ?_, ?_⟩
    · rw [List.map_append, List.nodup_append]
      refine ⟨h.rows, List.nodup_singleton row, ?_⟩
      intro a ha b hb hab
      rw [List.map_singleton, List.mem_singleton] at hb
      subst hb hab
      exact hnew ha
    · intro cell hcell name hname
      rcases List.mem_append.mp hcell with hcell | hcell
      · exact h.agree cell hcell name hname
      · rw [List.mem_singleton] at hcell
        subst hcell
        have hname' : name = columnName := Option.some.inj (hname.symm.trans hcol)
        subst hname'
        exact hf hnew name hcol

theorem shown_discard {s : Screen} (h : Shown s) (p : Cell → Bool) :
    Shown { s with cells := s.cells.filter p } where
  names := h.names
  rows := h.rows.sublist (List.filter_sublist.map _)
  agree := by
    intro cell hcell
    exact h.agree cell (List.mem_filter.mp hcell).1

theorem mem_onChangeValue {c c' : Chooser} {tag : Nat} {columnName : NSString} {isOn : Bool}
    (hcol : c.m_columnArray[tag]? = some columnName) (h : onChangeValue c tag isOn = some c')
    (name : NSString) :
    name ∈ c'.selected ↔ if name = columnName then isOn = true else name ∈ c.selected := by
  obtain ⟨n, hn, -, rfl⟩ := onChangeValue_inv h
  rw [hcol, Option.some.injEq] at hn
  subst hn
  cases isOn with
  | true => by_cases hname : name = columnName <;> simp [hname]
  | false => by_cases hname : name = columnName <;> simp [hname]

theorem shown_flip {s s' : Screen} {row : Nat} (h : Shown s) (hs : flip s row = some s') :
    Shown s' := by
  unfold flip at hs
  split at hs
  · cases hs
  · rename_i tapped hfind
    rw [Option.map_eq_some_iff] at hs
    obtain ⟨chooser, hch, rfl⟩ := hs
    have htapped : tapped ∈ s.cells := List.mem_of_find?_eq_some hfind
    have htrow : tapped.row = row := by
      have hp := List.find?_some hfind
      simp only [decide_eq_true_eq] at hp
      exact hp.1
    obtain ⟨columnName, hcol, -, hch'⟩ := onChangeValue_inv hch
    have hcols : chooser.m_columnArray = s.chooser.m_columnArray := by rw [hch']
    have hrow : ∀ c : Cell, ({ c with isOn := !c.isOn } : Cell).row = c.row := fun _ => rfl
    refine ⟨by rw [hcols]; exact h.names, (rows_update hrow s.cells).symm ▸ h.rows, ?_⟩
    intro cell hcell name hname
    obtain ⟨c, hc, rfl⟩ := List.mem_map.mp hcell
    rw [row_update hrow, hcols] at hname
    rw [mem_onChangeValue hcol hch]
    have hold := h.agree c hc name hname
    unfold Cell.update
    by_cases hr : c.row = row
    · -- the row has one cell, the one that was tapped
      have hsame : c = tapped := List.inj_on_of_nodup_map h.rows hc htapped (hr.trans htrow.symm)
      have hn : name = columnName := by
        rw [hr] at hname
        exact Option.some.inj (hname.symm.trans hcol)
      rw [if_pos hr, if_pos hn, hsame]
    · -- another row shows another column
      have hn : name ≠ columnName := by
        intro hn
        subst hn
        have hlt : c.row < s.chooser.m_columnArray.length := (List.getElem?_eq_some_iff.mp hname).1
        exact hr ((List.getElem?_inj hlt h.names).mp (hname.trans hcol.symm))
      rw [if_neg hr, if_neg hn]
      exact hold

theorem shown_step {s s' : Screen} {l : Label} (h : Shown s) (hf : Current s l)
    (hs : step s l = some s') : Shown s' := by
  cases l with
  | cellForRowAtIndexPath row => exact shown_cellForRowAtIndexPath h hf hs
  | didEndDisplayingCell row =>
    simp only [step, Option.some.injEq] at hs
    subst hs
    exact shown_update h (fun _ => rfl) (fun _ => rfl)
  | discard row =>
    simp only [step, Option.some.injEq] at hs
    subst hs
    exact shown_discard h _
  | onChangeValue row => exact shown_flip h hs

theorem shown_inductive : (lts.restrict Current).Inductive Shown where
  init := by
    intro s hs
    obtain ⟨typeId, tableName, columnArray, conf, hn, -, rfl⟩ := hs
    exact shown_opened hn
  step := by
    intro s l s' h hs
    exact shown_step h hs.1 hs.2

/-- **Switches.** In every run in which new cells are only made for columns
that are selected exactly when the configuration has them, the switch of each
cell shows whether its column is selected. -/
theorem agree_of_current {s : Screen} (h : (lts.restrict Current).Reachable s) : Agree s :=
  (shown_inductive.reachable h).agree

/-- The second column is switched on and off again while the first one waits
in the pool; then the first cell is made again. -/
theorem agree_made_again : ∃ s, (lts.restrict Current).Reachable s ∧ Agree s ∧
    s.cells = [⟨1, false, true⟩, ⟨0, true, true⟩] := by
  have hex : ∃ s, (lts.restrict Current).Reachable s ∧
      s.cells = [⟨1, false, true⟩, ⟨0, true, true⟩] :=
    LTS.exists_of_execG (opened 0 (ns "orders") [ns "id", ns "total"] (some (ns "id")))
      [.cellForRowAtIndexPath 0, .cellForRowAtIndexPath 1, .onChangeValue 1,
        .didEndDisplayingCell 0, .discard 0, .onChangeValue 1, .cellForRowAtIndexPath 0] _
      ⟨0, ns "orders", [ns "id", ns "total"], some (ns "id"), by decide, by decide, rfl⟩ (by decide)
  obtain ⟨s, hs, hcells⟩ := hex
  exact ⟨s, hs, agree_of_current hs, hcells⟩

/-- A column is switched on, its cell is discarded and made again. -/
theorem stale_switch : ¬ ∀ s, lts.Reachable s → Agree s := by
  intro hall
  have hex : ∃ s, lts.Reachable s ∧ ¬ Agree s :=
    LTS.exists_of_exec (opened 0 (ns "orders") [ns "id", ns "total"] (some (ns "id")))
      [.cellForRowAtIndexPath 1, .onChangeValue 1, .didEndDisplayingCell 1, .discard 1,
        .cellForRowAtIndexPath 1] _
      ⟨0, ns "orders", [ns "id", ns "total"], some (ns "id"), by decide, by decide, rfl⟩ (by decide)
  obtain ⟨s, hs, hn⟩ := hex
  exact hn (hall s hs)

end MysqlConnection.L3.Conf
