import MysqlConnection.L3Screens.AdminTableConfController

/-!
# Criteria are selected columns

The two texts of the query builder, `edt_columns` and `edt_searchRule`, are
rewritten by five handlers and by the two choosers. The builder is watched
with one bit, whether a table was selected since it was opened, so that the
response of edit mode can be kept to the time before that (`Timely`).

* `Inside`: each component of the criteria is one of the columns, in the texts,
  in an open criteria chooser and in what was stored; as long as the response
  of edit mode is expected there are no columns to choose criteria from.
* `within_of_timely`: so every stored query has its criteria among its columns.
-/
namespace MysqlConnection.L3.Build

/-- Each component of a non-empty rule is a component of the columns. -/
def Within (columns searchRule : NSString) : Prop :=
  searchRule = [] ∨ ∀ name ∈ components searchRule, name ∈ components columns

instance (columns searchRule : NSString) : Decidable (Within columns searchRule) := by
  unfold Within; exact inferInstance

/-- A tap on `onSelectTable` that takes another table. -/
def selectsTable (s : St) : Label → Bool
  | .onSelectTable => s.selectedTableName != some s.edt_tableName
  | _ => false

section
variable (cols : NSString → List NSString)

/-- Empty, or in edit mode from a query whose criteria are among its columns. -/
def InitialWithin (s : St) : Prop :=
  ∃ tables item, (∀ q, item = some q → Within q.query_columns q.query_searchRule) ∧
    s = viewDidLoad tables item

/-- The builder, and whether a table was selected. -/
def watchedStep (x : St × Bool) (l : Label) : Option (St × Bool) :=
  (step cols x.1 l).map fun s' => (s', x.2 || selectsTable x.1 l)

def watched : LTS (St × Bool) Label :=
  LTS.ofFn (fun x => InitialWithin x.1 ∧ x.2 = false) (watchedStep cols)

end

/-- The response of edit mode comes before a table is selected. -/
def Timely (x : St × Bool) : Label → Prop
  | .recivedDataArray i false => ∀ r ∈ x.1.requests[i]?, r.signalId = 1 → x.2 = false
  | _ => True

instance (x : St × Bool) : (l : Label) → Decidable (Timely x l)
  | .recivedDataArray i false =>
    inferInstanceAs (Decidable (∀ r ∈ x.1.requests[i]?, r.signalId = 1 → x.2 = false))
  | .recivedDataArray _ true => isTrue trivial
  | .didSelectRow _ => isTrue trivial
  | .onSelectTable => isTrue trivial
  | .beginTableName => isTrue trivial
  | .beginColumns => isTrue trivial
  | .beginSearchRule => isTrue trivial
  | .onChangeValue _ _ => isTrue trivial
  | .onSave => isTrue trivial
  | .onGoBack => isTrue trivial
  | .onBuild => isTrue trivial

/-- What `onBuild` stored has its criteria among its columns, in the new query
or in the one that is updated. -/
def StoredWithin (s : St) : Prop :=
  ∀ q ∈ s.stored, Within q.columns q.searchRule ∧
    ∀ item ∈ q.update, Within item.query_columns item.query_searchRule

/-- A criteria chooser shows the columns and has selected some of them. -/
structure Chooser.Inside (columns : NSString) (c : Chooser) : Prop where
  shown : c.m_columnArray = components columns
  selected : ∀ name ∈ c.selected, name ∈ components columns

/-- A chooser with nothing to choose. -/
def Chooser.Empty (c : Chooser) : Prop := c.typeId = 0 ∧ c.m_columnArray = [] ∧ c.selected = []

/-- The response of edit mode is expected: nothing else is, and there are no
columns yet. -/
structure Expecting (s : St) : Prop where
  requests : s.requests.length = 1
  columns : s.edt_columns = []
  cached : s.m_selectedTableColumns = none
  chooser : ∀ c, s.chooser = some c → c.Empty

structure Inside (s : St) (selected : Bool) : Prop where
  texts : Within s.edt_columns s.edt_searchRule
  criteria : ∀ c, s.chooser = some c → c.typeId = 1 → c.Inside s.edt_columns
  early : selected = false → s.requests = [] ∨ Expecting s
  saved : ∀ q, s.m_defaultInformation = some q → Within q.query_columns q.query_searchRule
  stored : StoredWithin s

/-! ## The choosers -/

theorem Chooser.Inside.of_onChangeValue {columns : NSString} {c c' : Chooser} {tag : Nat}
    {isOn : Bool} (h : c.Inside columns) (hc : onChangeValue c tag isOn = some c') :
    c'.Inside columns := by
  obtain ⟨columnName, hcol, -, rfl⟩ := Conf.onChangeValue_inv hc
  refine ⟨h.shown, ?_⟩
  intro name hname
  have hmem : columnName ∈ components columns := h.shown ▸ List.mem_of_getElem? hcol
  split at hname
  · rcases List.mem_append.mp hname with hname | hname
    · exact h.selected name hname
    · rw [List.mem_singleton] at hname
      subst hname
      exact hmem
  · exact h.selected name (List.mem_filter.mp hname).1

/-- No row, no switch. -/
theorem onChangeValue_empty {c : Chooser} (h : c.Empty) (tag : Nat) (isOn : Bool) :
    onChangeValue c tag isOn = none := by
  unfold onChangeValue
  rw [h.2.1]
  rfl

/-- What a criteria chooser saves. -/
theorem within_getConfString {columns : NSString} {c : Chooser} (h : c.Inside columns) :
    Within columns (getConfString c) := by
  by_cases hne : c.selected = []
  · left
    rw [Conf.getConfString_eq_nil]
    exact Or.inl hne
  · right
    intro name hname
    have hcomma : ∀ x ∈ c.selected, ',' ∉ x :=
      fun x hx => not_mem_of_mem_components (h.selected x hx)
    rw [getConfString, components_joined hcomma hne] at hname
    exact h.selected name hname

/-- What an empty chooser saves. -/
theorem getConfString_empty {c : Chooser} (h : c.Empty) : getConfString c = [] := by
  rw [Conf.getConfString_eq_nil]
  exact Or.inl h.2.2

/-! ## Every step keeps `Inside` -/

theorem inside_viewDidLoad {tables : List NSString} {item : Option Obj_Query}
    (h : ∀ q, item = some q → Within q.query_columns q.query_searchRule) :
    Inside (viewDidLoad tables item) false where
  texts := Or.inl rfl
  criteria := by intro c hc; cases hc
  early := by
    intro _
    cases item with
    | none => exact Or.inl rfl
    | some q => exact Or.inr ⟨rfl, rfl, rfl, by intro c hc; cases hc⟩
  saved := h
  stored := by intro q hq; cases hq

/-- The fields that `Inside` says nothing about. -/
theorem Inside.frame {s : St} {selected : Bool} (h : Inside s selected) (edt_tableName : NSString)
    (selectedTableName : Option NSString) (overlay closed : Bool) :
    Inside { s with
      edt_tableName := edt_tableName
      selectedTableName := selectedTableName
      overlay := overlay
      closed := closed } selected where
  texts := h.texts
  criteria := h.criteria
  early := by
    intro hsel
    rcases h.early hsel with he | he
    · exact Or.inl he
    · exact Or.inr ⟨he.requests, he.columns, he.cached, he.chooser⟩
  saved := h.saved
  stored := h.stored

/-- The step `l` selects no table. -/
theorem Inside.unselected {s s' : St} {selected : Bool} {l : Label} (h : Inside s' selected)
    (hl : selectsTable s l = false) : Inside s' (selected || selectsTable s l) := by
  rw [hl, Bool.or_false]
  exact h

theorem inside_onSelectTable {s : St} {selected : Bool} (h : Inside s selected)
    (hc : s.chooser = none) :
    Inside (onSelectTable s) (selected || selectsTable s .onSelectTable) := by
  unfold onSelectTable selectsTable
  by_cases hsame : s.selectedTableName = some s.edt_tableName
  · rw [if_pos hsame, hsame, bne_self_eq_false, Bool.or_false]
    exact h.frame _ _ _ _
  · rw [if_neg hsame]
    have hne : (s.selectedTableName != some s.edt_tableName) = true := by simpa using hsame
    rw [hne, Bool.or_true]
    refine ⟨Or.inl rfl, ?_, ?_, h.saved, h.stored⟩
    · intro c hc'
      rw [hc] at hc'; cases hc'
    · intro hsel; cases hsel

theorem inside_beginColumns {s : St} {selected : Bool} (h : Inside s selected) :
    Inside (beginColumns s) selected := by
  unfold beginColumns
  split
  · exact h
  · refine ⟨h.texts, ?_, ?_, h.saved, h.stored⟩
    · intro c hc h1
      simp only [Option.some.injEq] at hc
      subst hc
      cases h1
    · intro hsel
      rcases h.early hsel with he | he
      · exact Or.inl he
      · refine Or.inr ⟨he.requests, he.columns, he.cached, ?_⟩
        intro c hc
        simp only [Option.some.injEq] at hc
        subst hc
        refine ⟨rfl, ?_, ?_⟩
        · show (s.m_selectedTableColumns.map (·.2)).getD [] = []
          rw [he.cached]
          rfl
        · show confData s.edt_columns = []
          rw [he.columns]
          rfl

theorem inside_beginSearchRule {s : St} {selected : Bool} (h : Inside s selected) :
    Inside (beginSearchRule s) selected := by
  unfold beginSearchRule
  split
  · exact h
  · rename_i hpos
    refine ⟨h.texts, ?_, ?_, h.saved, h.stored⟩
    · intro c hc _
      simp only [Option.some.injEq] at hc
      subst hc
      refine ⟨rfl, ?_⟩
      intro name hname
      simp only [confData] at hname
      split at hname
      · rename_i hrule
        rcases h.texts with he | hw
        · rw [he] at hrule; cases hrule
        · exact hw name hname
      · cases hname
    · intro hsel
      rcases h.early hsel with he | he
      · exact Or.inl he
      · exact absurd (congrArg List.length he.columns) hpos

theorem inside_onBuild {s : St} {selected : Bool} (h : Inside s selected) :
    Inside (onBuild s) selected := by
  unfold onBuild
  split
  · exact h
  · refine ⟨h.texts, h.criteria, ?_, h.saved, ?_⟩
    · intro hsel
      rcases h.early hsel with he | he
      · exact Or.inl he
      · exact Or.inr ⟨he.requests, he.columns, he.cached, he.chooser⟩
    · intro q hq
      rcases List.mem_append.mp hq with hq | hq
      · exact h.stored q hq
      · rw [List.mem_singleton] at hq
        subst hq
        refine ⟨h.texts, ?_⟩
        intro item hitem
        rw [Option.mem_def, Option.map_eq_some_iff] at hitem
        obtain ⟨q, -, rfl⟩ := hitem
        exact h.texts

/-- The chooser goes away. -/
theorem Inside.closeChooser {s : St} {selected : Bool} (h : Inside s selected) :
    Inside { s with chooser := none } selected where
  texts := h.texts
  criteria := by intro c hc; cases hc
  early := by
    intro hsel
    rcases h.early hsel with he | he
    · exact Or.inl he
    · exact Or.inr ⟨he.requests, he.columns, he.cached, by intro c hc; cases hc⟩
  saved := h.saved
  stored := h.stored

theorem inside_AdminTableConfControllerDelegate_Data {s : St} {selected : Bool} {c : Chooser}
    (h : Inside s selected) (hc : s.chooser = some c) :
    Inside (AdminTableConfControllerDelegate_Data { s with chooser := none } (getConfString c)
      c.typeId) selected := by
  have hn := h.closeChooser
  unfold AdminTableConfControllerDelegate_Data
  by_cases h0 : c.typeId = 0
  · rw [if_pos h0]
    split
    · exact hn
    · rename_i hdata
      refine ⟨Or.inl rfl, (by intro d hd; cases hd), ?_, h.saved, h.stored⟩
      intro hsel
      rcases h.early hsel with he | he
      · exact Or.inl he
      · exact absurd (he.columns.trans (getConfString_empty (he.chooser c hc)).symm) hdata
  · rw [if_neg h0]
    split
    · rename_i h1
      refine ⟨within_getConfString (h.criteria c hc h1), hn.criteria, ?_, h.saved, h.stored⟩
      intro hsel
      rcases h.early hsel with he | he
      · exact Or.inl he
      · exact absurd (he.chooser c hc).1 h0
    · exact hn

theorem inside_onChangeValue {s : St} {selected : Bool} {c c' : Chooser} {tag : Nat} {isOn : Bool}
    (h : Inside s selected) (hc : s.chooser = some c) (hs : onChangeValue c tag isOn = some c') :
    Inside { s with chooser := some c' } selected where
  texts := h.texts
  criteria := by
    intro d hd h1
    simp only [Option.some.injEq] at hd
    subst hd
    rw [typeId_onChangeValue hs] at h1
    exact (h.criteria c hc h1).of_onChangeValue hs
  early := by
    intro hsel
    rcases h.early hsel with he | he
    · exact Or.inl he
    · rw [onChangeValue_empty (he.chooser c hc)] at hs
      cases hs
  saved := h.saved
  stored := h.stored

/-- Before a table is selected at most one response is expected. -/
theorem Inside.eraseIdx {s : St} {selected : Bool} {i : Nat} {r : Request} (h : Inside s selected)
    (hr : s.requests[i]? = some r) (hsel : selected = false) :
    Expecting s ∧ s.requests.eraseIdx i = [] := by
  have hlt : i < s.requests.length := (List.getElem?_eq_some_iff.mp hr).1
  rcases h.early hsel with he | he
  · rw [he] at hlt; cases hlt
  · refine ⟨he, ?_⟩
    have hlen := he.requests
    rw [← List.length_eq_zero_iff, List.length_eraseIdx_of_lt hlt]
    omega

theorem inside_response {s : St} {selected empty : Bool} {i : Nat} {r : Request}
    {result : List NSString} (h : Inside s selected) (hr : s.requests[i]? = some r)
    (ht : Timely (s, selected) (.recivedDataArray i empty)) :
    Inside (if empty then { s with requests := s.requests.eraseIdx i }
      else recivedDataArray { s with requests := s.requests.eraseIdx i } r.tableName result
        r.signalId) selected := by
  cases empty with
  | true =>
    rw [if_pos rfl]
    exact ⟨h.texts, h.criteria, fun hsel => Or.inl (h.eraseIdx hr hsel).2, h.saved, h.stored⟩
  | false =>
    rw [if_neg (by simp)]
    unfold recivedDataArray
    split
    · exact ⟨h.texts, h.criteria, fun hsel => Or.inl (h.eraseIdx hr hsel).2, h.saved, h.stored⟩
    · split
      · rename_i h1
        have hsel : selected = false := ht r hr h1
        refine ⟨?_, ?_, fun hsel => Or.inl (h.eraseIdx hr hsel).2, h.saved, h.stored⟩
        · show Within ((s.m_defaultInformation.map (·.query_columns)).getD [])
            ((s.m_defaultInformation.map (·.query_searchRule)).getD [])
          cases hq : s.m_defaultInformation with
          | none => exact Or.inl rfl
          | some q => exact h.saved q hq
        · intro c hc h1'
          have h0 := ((h.eraseIdx hr hsel).1.chooser c hc).1
          rw [h0] at h1'
          cases h1'
      · exact ⟨h.texts, h.criteria, fun hsel => Or.inl (h.eraseIdx hr hsel).2, h.saved, h.stored⟩

theorem inside_builderStep {s s' : St} {selected : Bool} {l : Label} (h : Inside s selected)
    (hc : s.chooser = none) (hs : builderStep s l = some s') :
    Inside s' (selected || selectsTable s l) := by
  cases l with
  | onSelectTable =>
    simp only [builderStep, Option.some.injEq] at hs; subst hs
    exact inside_onSelectTable h hc
  | didSelectRow row =>
    refine Inside.unselected ?_ rfl
    cases row with
    | zero => simp only [builderStep, Option.some.injEq] at hs; subst hs; exact h
    | succ row =>
      simp only [builderStep, Option.map_eq_some_iff] at hs
      obtain ⟨name, -, rfl⟩ := hs
      exact h.frame _ _ _ _
  | beginTableName =>
    simp only [builderStep, Option.some.injEq] at hs; subst hs
    exact (h.frame _ _ _ _).unselected rfl
  | beginColumns =>
    simp only [builderStep, Option.some.injEq] at hs; subst hs
    exact (inside_beginColumns h).unselected rfl
  | beginSearchRule =>
    simp only [builderStep, Option.some.injEq] at hs; subst hs
    exact (inside_beginSearchRule h).unselected rfl
  | onBuild =>
    simp only [builderStep, Option.some.injEq] at hs; subst hs
    exact (inside_onBuild h).unselected rfl
  | onChangeValue tag isOn => cases hs
  | onSave => cases hs
  | onGoBack => cases hs
  | recivedDataArray i empty => cases hs

theorem inside_chooserStep {s s' : St} {selected : Bool} {c : Chooser} {l : Label}
    (h : Inside s selected) (hc : s.chooser = some c) (hs : chooserStep s c l = some s') :
    Inside s' (selected || selectsTable s l) := by
  cases l with
  | onChangeValue tag isOn =>
    simp only [chooserStep, Option.map_eq_some_iff] at hs
    obtain ⟨c', hc', rfl⟩ := hs
    exact (inside_onChangeValue h hc hc').unselected rfl
  | onSave =>
    simp only [chooserStep, Option.some.injEq] at hs; subst hs
    exact (inside_AdminTableConfControllerDelegate_Data h hc).unselected rfl
  | onGoBack =>
    simp only [chooserStep, Option.some.injEq] at hs; subst hs
    exact h.closeChooser.unselected rfl
  | didSelectRow row => cases hs
  | onSelectTable => cases hs
  | beginTableName => cases hs
  | beginColumns => cases hs
  | beginSearchRule => cases hs
  | onBuild => cases hs
  | recivedDataArray i empty => cases hs

theorem inside_step {cols : NSString → List NSString} {x x' : St × Bool} {l : Label}
    (h : Inside x.1 x.2) (ht : Timely x l) (hs : watchedStep cols x l = some x') :
    Inside x'.1 x'.2 := by
  unfold watchedStep at hs
  rw [Option.map_eq_some_iff] at hs
  obtain ⟨s', hs, rfl⟩ := hs
  rcases step_inv hs with ⟨i, empty, r, rfl, hr, rfl⟩ | ⟨hc, hs⟩ | ⟨c, hc, hs⟩
  · exact (inside_response h hr ht).unselected rfl
  · exact inside_builderStep h hc hs
  · exact inside_chooserStep h hc hs

theorem inside_inductive (cols : NSString → List NSString) :
    ((watched cols).restrict Timely).Inductive (fun x => Inside x.1 x.2) where
  init := by
    rintro ⟨s, selected⟩ ⟨⟨tables, item, hw, hs⟩, hsel⟩
    subst hs hsel
    exact inside_viewDidLoad hw
  step := by
    intro x l x' h hs
    exact inside_step h hs.1 hs.2

/-- **Criteria among columns.** In every run in which the response of edit mode
comes before a table is selected, the criteria are among the columns, in the
texts and in every stored query. -/
theorem within_of_timely (cols : NSString → List NSString) {x : St × Bool}
    (h : ((watched cols).restrict Timely).Reachable x) :
    Within x.1.edt_columns x.1.edt_searchRule ∧ StoredWithin x.1 :=
  ⟨((inside_inductive cols).reachable h).texts, ((inside_inductive cols).reachable h).stored⟩

/-- A stored query with both columns as criteria. -/
def bothColumns : Obj_Query where
  query_Id := ns "1"
  query_dbId := ns "1"
  query_dbName := ns "shop"
  query_tableName := ns "orders"
  query_columns := ns "id,total"
  query_searchRule := ns "id,total"
  query_showName := ns "shop->orders->Search"

theorem initialWithin_bothColumns : InitialWithin (viewDidLoad [ns "orders"] (some bothColumns)) := by
  refine ⟨_, _, ?_, rfl⟩
  intro q hq
  rw [← Option.some.inj hq]
  decide

/-- Edit mode: the response comes, then a criterion is taken away and the
query is updated. -/
theorem within_edited : ∃ x, ((watched shop).restrict Timely).Reachable x ∧
    (Within x.1.edt_columns x.1.edt_searchRule ∧ StoredWithin x.1) ∧
    x.1.stored.map (·.searchRule) = [ns "id"] := by
  have hex : ∃ x, ((watched shop).restrict Timely).Reachable x ∧
      x.1.stored.map (·.searchRule) = [ns "id"] :=
    LTS.exists_of_execG (viewDidLoad [ns "orders"] (some bothColumns), false)
      [.recivedDataArray 0 false, .beginSearchRule, .onChangeValue 1 false, .onSave, .onBuild] _
      ⟨initialWithin_bothColumns, rfl⟩ (by decide)
  obtain ⟨x, hx, hstored⟩ := hex
  exact ⟨x, hx, within_of_timely shop hx, hstored⟩

end MysqlConnection.L3.Build
