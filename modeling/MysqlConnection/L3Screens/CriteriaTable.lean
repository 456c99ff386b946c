import MysqlConnection.L3Screens.Criteria

/-!
# The table of criteria

The texts of the criteria live in the cells of a table that shows some of its
rows. `CretoriaViewController` gets the cell of a row back from the reuse pool,
`Con_SearchController` makes a new one whenever a row comes on screen. Both
read the texts from the cells of the rows on screen.

* `Field.Sound`: what the cell of a row holds, by what the user typed last
  (`typed`) and whether the row stayed on screen since (`kept`).
* `dropped_iff`: the statement has a condition for each column with text, and
  no other, exactly if each such row is on screen (stayed on screen, for
  `Con_SearchController`) when the button is pressed.
-/
namespace MysqlConnection.L3.Criteria

/-- The two screens with criteria. -/
inductive Screen where
  | CretoriaViewController
  | Con_SearchController
  deriving DecidableEq, Repr

/-- A row that comes back on screen has its cell again.
mirrors CretoriaViewController.m:114-118 and Con_SearchController.m:105-107 -/
def Screen.dequeues : Screen → Bool
  | .CretoriaViewController => true
  | .Con_SearchController => false

/-- A column with what the user typed last, the text of its cell (a cell made
later is empty), and whether its row is on screen and stayed there since the
text was typed. -/
structure Field where
  columnName : NSString
  typed : NSString
  text : NSString
  visible : Bool
  kept : Bool
  deriving DecidableEq, Repr

/-- Typing into the row; the rows shown change to `count` ones from `first`. -/
inductive Event where
  | typeText (row : Nat) (text : NSString)
  | scroll (first count : Nat)
  deriving DecidableEq, Repr

def isShown (first count row : Nat) : Bool := first ≤ row ∧ row < first + count

/-- The table as it appears. -/
def opened (columns : List NSString) (first count : Nat) : List Field :=
  columns.mapIdx fun row columnName => ⟨columnName, [], [], isShown first count row, false⟩

/-- Only a row on screen has a text field to type into. -/
def Field.typeText (f : Field) (text : NSString) : Field :=
  if f.visible then { f with typed := text, text := text, kept := true } else f

/-- The row is on screen now, or not. -/
def Field.show (screen : Screen) (f : Field) (visible : Bool) : Field :=
  if visible then { f with visible := true }
  else { f with visible := false, kept := false, text := if screen.dequeues then f.text else [] }

def event (screen : Screen) (fields : List Field) : Event → List Field
  | .typeText row text => fields.mapIdx fun i f => if i = row then f.typeText text else f
  | .scroll first count => fields.mapIdx fun i f => f.show screen (isShown first count i)

def events (screen : Screen) (fields : List Field) (evs : List Event) : List Field :=
  evs.foldl (event screen) fields

/-- The row as the button finds it. -/
def Field.row (f : Field) : Row := ⟨f.columnName, f.text, f.visible⟩

/-- The conditions of the typed texts, in the order of the columns. -/
def expected (fields : List Field) : List NSString :=
  (fields.filter fun f => f.typed ≠ []).map fun f => conditionStr f.columnName f.typed

/-- The button finds the typed text: its row is on screen, and stayed there if
its cell would not have come back. -/
def Field.found (screen : Screen) (f : Field) : Bool := if screen.dequeues then f.visible else f.kept

/-! ## What the cells hold -/

/-- A cell that is kept holds the typed text; else only one whose row stayed
on screen does, and a new one is empty. -/
def Field.Sound (screen : Screen) (f : Field) : Prop :=
  if screen.dequeues then f.text = f.typed
  else (f.kept = true → f.visible = true) ∧ f.text = if f.kept then f.typed else []

theorem Field.Sound.typeText {screen : Screen} {f : Field} (h : f.Sound screen) (text : NSString) :
    (f.typeText text).Sound screen := by
  unfold Field.typeText
  split
  · rename_i hv
    unfold Field.Sound
    split
    · rfl
    · exact ⟨fun _ => hv, rfl⟩
  · exact h

theorem Field.Sound.show {screen : Screen} {f : Field} (h : f.Sound screen) (visible : Bool) :
    (f.show screen visible).Sound screen := by
  unfold Field.Sound at h ⊢
  unfold Field.show
  cases hd : screen.dequeues with
  | true =>
    rw [hd, if_pos rfl] at h
    cases visible with
    | true => exact h
    | false => exact h
  | false =>
    rw [hd, if_neg (by simp)] at h
    cases visible with
    | true => exact ⟨fun _ => rfl, h.2⟩
    | false => exact ⟨fun hk => absurd hk (by simp), rfl⟩

theorem sound_opened (screen : Screen) (columns : List NSString) (first count : Nat) :
    ∀ f ∈ opened columns first count, f.Sound screen := by
  intro f hf
  obtain ⟨i, hi, rfl⟩ := List.mem_mapIdx.mp hf
  unfold Field.Sound
  split
  · rfl
  · exact ⟨fun hk => absurd hk (by simp), rfl⟩

theorem sound_event {screen : Screen} {fields : List Field} (h : ∀ f ∈ fields, f.Sound screen)
    (e : Event) : ∀ f ∈ event screen fields e, f.Sound screen := by
  intro f hf
  cases e with
  | typeText row text =>
    obtain ⟨i, hi, rfl⟩ := List.mem_mapIdx.mp hf
    split
    · exact (h _ (List.getElem_mem hi)).typeText text
    · exact h _ (List.getElem_mem hi)
  | scroll first count =>
    obtain ⟨i, hi, rfl⟩ := List.mem_mapIdx.mp hf
    exact (h _ (List.getElem_mem hi)).show _

theorem sound_events {screen : Screen} {fields : List Field} (h : ∀ f ∈ fields, f.Sound screen)
    (evs : List Event) : ∀ f ∈ events screen fields evs, f.Sound screen := by
  induction evs generalizing fields with
  | nil => exact h
  | cons e evs ih => exact ih (sound_event h e)

/-! ## What the statement has -/

/-- The row as the user sees it: with the typed text, if the button finds it. -/
def Field.typedRow (screen : Screen) (f : Field) : Row := ⟨f.columnName, f.typed, f.found screen⟩

theorem condition_typedRow {screen : Screen} {f : Field} (h : f.Sound screen) :
    f.row.condition = (f.typedRow screen).condition := by
  unfold Field.Sound at h
  unfold Row.condition Field.row Field.typedRow Field.found
  cases hd : screen.dequeues with
  | true =>
    rw [hd, if_pos rfl] at h
    simp only [h, if_true]
  | false =>
    rw [hd, if_neg (by simp)] at h
    cases hk : f.kept with
    | true => simp [h.2, h.1 hk, hk]
    | false => simp [h.2, hk]

theorem conditions_typedRow {screen : Screen} {fields : List Field} (h : ∀ f ∈ fields, f.Sound screen) :
    conditions (fields.map Field.row) = conditions (fields.map (Field.typedRow screen)) := by
  unfold conditions
  rw [List.filter_map, List.filter_map, List.map_map, List.map_map]
  have hf : (fields.filter ((fun r : Row => decide (r.condition.length > 0)) ∘ Field.row)) =
      fields.filter ((fun r : Row => decide (r.condition.length > 0)) ∘ Field.typedRow screen) := by
    apply List.filter_congr
    intro f hf
    simp only [Function.comp_apply, condition_typedRow (h f hf)]
  rw [hf]
  apply List.map_congr_left
  intro f hf
  simp only [Function.comp_apply, condition_typedRow (h f (List.mem_filter.mp hf).1)]
  rfl

theorem expected_eq (screen : Screen) (fields : List Field) :
    expected fields =
      (withText (fields.map (Field.typedRow screen))).map fun r => conditionStr r.columnName r.text := by
  rw [expected, withText, List.filter_map, List.map_map]
  rfl

/-- A statement has all its conditions exactly if each row with text is
visible: it is shorter by what each missing row would add. -/
theorem statement_eq_iff (head : NSString) (rows : List Row) :
    statement head (conditions rows) =
        statement head ((withText rows).map fun r => conditionStr r.columnName r.text) ↔
      ∀ r ∈ rows, r.text ≠ [] → r.visible = true := by
  constructor
  · intro h r hr ht
    have hw : r ∈ withText rows := List.mem_filter.mpr ⟨hr, by simpa using ht⟩
    have hlen := congrArg List.length h
    have hsize : (((withText rows).map fun r => conditionStr r.columnName r.text).map fun c =>
        c.length + 3).sum = ((withText rows).map Row.size).sum := by
      rw [List.map_map]
      apply congrArg List.sum
      apply List.map_congr_left
      intro r _
      simp only [Function.comp_apply, length_conditionStr, Row.size]
    have hsum := sum_conditions rows
    have hne : (withText rows).map (fun r => conditionStr r.columnName r.text) ≠ [] := by
      intro he
      rw [List.map_eq_nil_iff] at he
      rw [he] at hw
      cases hw
    simp only [statement, List.length_append, length_whereClause, if_neg hne, hsize] at hlen
    have hzero : ((withText rows).map fun r => if r.visible then 0 else r.size).sum = 0 := by
      by_cases hn : conditions rows = []
      · rw [if_pos hn] at hlen
        omega
      · rw [if_neg hn] at hlen
        omega
    have hr0 := List.sum_eq_zero_iff_forall_eq_nat.mp hzero _ (List.mem_map_of_mem hw)
    by_contra hv
    rw [if_neg hv, Row.size] at hr0
    omega
  · intro h
    rw [conditions_of_visible h]

theorem complete_statement {screen : Screen} {fields : List Field} (h : ∀ f ∈ fields, f.Sound screen)
    (head : NSString) :
    statement head (conditions (fields.map Field.row)) = statement head (expected fields) ↔
      ∀ f ∈ fields, f.typed ≠ [] → f.found screen = true := by
  rw [conditions_typedRow h, expected_eq screen, statement_eq_iff]
  simp only [List.forall_mem_map]
  rfl

/-- **Entered criteria.** Whatever was typed and scrolled, the statement of
`onExcute` (of `onSearch`) has a condition for each column with text, in
order, and no other, if and only if each such row is on screen (was on screen
since its text was typed). -/
theorem dropped_iff (query : Obj_Query) (m_tableName : NSString) (columns : List NSString)
    (first count : Nat) (evs : List Event) :
    (let fields := events .CretoriaViewController (opened columns first count) evs
     onExcute query (fields.map Field.row) =
        statement (ns "select " ++ query.query_columns ++ ns " from " ++ query.query_tableName)
          (expected fields) ↔ ∀ f ∈ fields, f.typed ≠ [] → f.visible = true) ∧
    (let fields := events .Con_SearchController (opened columns first count) evs
     onSearch m_tableName (fields.map Field.row) =
        statement (ns "select * from " ++ m_tableName) (expected fields) ↔
          ∀ f ∈ fields, f.typed ≠ [] → f.kept = true) := by
  constructor
  · intro fields
    rw [onExcute_eq]
    exact complete_statement (sound_events (sound_opened _ columns first count) evs) _
  · intro fields
    rw [onSearch_eq]
    exact complete_statement (sound_events (sound_opened _ columns first count) evs) _

/-- A saved query with nine criteria columns. -/
def nine : Obj_Query := ⟨ns "1", ns "1", ns "sales", ns "notes", ns "a", ns "a,b,c,d,e,f,g,h,i", ns "sales->notes->Search"⟩

/-- Seven rows fit; a text is typed into the first one, then two rows are
scrolled away: the statement has no condition. -/
theorem scrolled_away : ¬ ∀ (query : Obj_Query) (columns : List NSString) (first count : Nat)
    (evs : List Event), setQueryInfo query = some columns →
      let fields := events .CretoriaViewController (opened columns first count) evs
      onExcute query (fields.map Field.row) =
        statement (ns "select " ++ query.query_columns ++ ns " from " ++ query.query_tableName)
          (expected fields) := by
  intro hall
  have h := hall nine (components nine.query_searchRule) 0 7
    [.typeText 0 (ns "x"), .scroll 2 7] (by decide)
  exact absurd h (by decide)

end MysqlConnection.L3.Criteria
