import MysqlConnection.Core.LTS
import MysqlConnection.L1Foundation.NSString

/-!
# The table browser

`Con_TablesController` with its two chains of requests: 0, 1, 2 after an
accessory tap (columns, `admin_conf_mgr`, configuration) open the configuration
screen, 10, 11 after a row tap (columns, configuration) the search screen.
The steps share the fields for the selected table. Each response comes with
the signal of its own request, in any order; `cols` and `conf` are the columns
and the stored configuration of each table. The ghost `rowTapped` is whether the
last tap was on a row, now and when a screen was opened.

* `Chained`: while taps wait for the answers there is one request, for the
  selected table, and the columns are those of the table, in the form its
  chain has stored them.
* `consistent_iff`: in such runs what is opened is consistent exactly if the tap
  was on a row: chain 0 keeps the array of result sets instead of the first one
  (`whole_result`).
-/
namespace MysqlConnection.L3.Tables

/-- The values of `m_resultArray` and `m_selectedTableColumns`: nil, an array
of result sets, one result set, an array of texts. A row is given by its name. -/
inductive Value where
  | nil
  | sets (sets : List (List NSString))
  | rows (rows : List NSString)
  | strings (strings : List NSString)
  deriving DecidableEq, Repr

def Value.count : Value → Nat
  | .nil => 0
  | .sets l => l.length
  | .rows l => l.length
  | .strings l => l.length

inductive Query where
  | getColumNamesInTable (tableName : NSString)
  | createAdminConfTable
  | getConfStringInTable (tableName : NSString)
  deriving DecidableEq, Repr

structure Request where
  query : Query
  signalId : Int
  deriving DecidableEq, Repr

/-- How the server answers: with results, without result sets, or not at all. -/
inductive Answer where
  | results
  | noResults
  | failed
  deriving DecidableEq, Repr

inductive Screen where
  | AdminTableConfController
  | Con_SearchController
  deriving DecidableEq, Repr

/-- A screen that was opened, with what was passed on. -/
structure Opened where
  screen : Screen
  tableName : NSString
  columns : Value
  confData : NSString
  rowTapped : Bool
  deriving DecidableEq, Repr

/-- `m_resultArray` belongs to the shared connection. -/
structure St where
  m_tableNameArray : List NSString
  m_selectedTableName : NSString
  m_selectedTableColumns : Value
  m_selectedConfData : NSString
  m_resultArray : Value
  requests : List Request
  opened : List Opened
  rowTapped : Bool
  deriving DecidableEq, Repr

/-- `connectFailed`: the request is never answered. -/
inductive Label where
  | accessoryButtonTapped (row : Nat)
  | didSelectRow (row : Nat)
  | recivedDataArray (i : Nat) (answer : Answer)
  | connectFailed (i : Nat)
  deriving DecidableEq, Repr

/-- A tap: the columns are the last result of the connection at first.
mirrors Con_TablesController.m:81-88, 129-136 and MySqlServerConnection.m:95-118 -/
def tap (s : St) (tableName : NSString) (signalId : Int) : St :=
  { s with
    m_selectedTableName := tableName
    m_selectedTableColumns := s.m_resultArray
    requests := s.requests ++ [⟨.getColumNamesInTable tableName, signalId⟩]
    rowTapped := decide (signalId = 10) }

/-- The first element as a text; anything else does not understand what it is
sent. -/
def firstString : Value → Option NSString
  | .strings (x :: _) => some x
  | _ => none

/-- The first result set; a column query is answered with result sets. -/
def firstSet : Value → Option Value
  | .sets (rows :: _) => some (.rows rows)
  | _ => none

/-- `objectForKey:@"name"` of each element; only rows understand it.
mirrors Con_TablesController.m:116-120 and Con_SearchController.m:37-38 -/
def columnNames : Value → Option (List NSString)
  | .nil => some []
  | .rows names => some names
  | .sets [] => some []
  | .strings [] => some []
  | .sets (_ :: _) => none
  | .strings (_ :: _) => none

/-- The search screen asks each column for its name when it gets the
configuration.
mirrors Con_TablesController.m:138-147 and Con_SearchController.m:26-43 -/
def openSearch (s : St) (confData : NSString) : Option St :=
  (columnNames s.m_selectedTableColumns).map fun _ =>
    { s with
      m_selectedConfData := confData
      opened := s.opened ++
        [⟨.Con_SearchController, s.m_selectedTableName, s.m_selectedTableColumns, confData,
          s.rowTapped⟩] }

/-- `none`: an exception.
mirrors Con_TablesController.m:90-126 and MySqlServerConnection.m:160-189 -/
def recivedDataArray (s : St) (result : Value) (signalId : Int) : Option St :=
  if result.count = 0 then some s
  else if signalId = 0 then
    some { s with
      m_selectedTableColumns := result
      requests := s.requests ++ [⟨.createAdminConfTable, 1⟩] }
  else if signalId = 1 then
    some { s with requests := s.requests ++ [⟨.getConfStringInTable s.m_selectedTableName, 2⟩] }
  else if signalId = 2 then
    (firstString result).map fun confData =>
      { s with
        opened := s.opened ++
          [⟨.AdminTableConfController, s.m_selectedTableName, s.m_selectedTableColumns, confData,
            s.rowTapped⟩] }
  else if signalId = 10 then
    (firstSet result).map fun columns =>
      { s with
        m_selectedTableColumns := columns
        m_selectedConfData := []
        requests := s.requests ++ [⟨.getConfStringInTable s.m_selectedTableName, 11⟩] }
  else if signalId = 11 then
    (firstString result).bind fun confData =>
      (if confData = [] then (columnNames s.m_selectedTableColumns).map (joined (ns ","))
        else some confData).bind fun confData => openSearch s confData
  else some s

section
variable (cols : NSString → List NSString) (conf : NSString → NSString)

/-- `m_resultArray` of a response; a configuration that is not found reads as
an empty text.
mirrors MySqlServerConnection.m:104-112, 148-156, 169-185 -/
def response : Query → Answer → Value
  | .getColumNamesInTable tableName, .results => .sets [cols tableName]
  | .getColumNamesInTable _, _ => .sets []
  | .createAdminConfTable, .results => .sets [[]]
  | .createAdminConfTable, .noResults => .sets []
  | .createAdminConfTable, .failed => .strings [[]]
  | .getConfStringInTable tableName, .results => .strings [conf tableName]
  | .getConfStringInTable _, _ => .strings [[]]

def step (s : St) : Label → Option St
  | .accessoryButtonTapped row => (s.m_tableNameArray[row]?).map fun name => tap s name 0
  | .didSelectRow row => (s.m_tableNameArray[row]?).map fun name => tap s name 10
  | .recivedDataArray i answer =>
    (s.requests[i]?).bind fun r =>
      let result := response cols conf r.query answer
      recivedDataArray { s with requests := s.requests.eraseIdx i, m_resultArray := result } result
        r.signalId
  | .connectFailed i => (s.requests[i]?).map fun _ => { s with requests := s.requests.eraseIdx i }

/-- Opened with some tables; the connection may have any last result. -/
def Initial (s : St) : Prop :=
  ∃ tableNames resultArray, s = ⟨tableNames, [], .nil, [], resultArray, [], [], false⟩

def lts : LTS St Label := LTS.ofFn Initial (step cols conf)

/-- A configuration of the table: the stored one, none, or all its columns. -/
def ConfOf (tableName confData : NSString) : Prop :=
  confData = conf tableName ∨ confData = [] ∨ confData = joined (ns ",") (cols tableName)

/-- Columns and configuration are those of the table, the columns as a list of
rows. -/
def Consistent (o : Opened) : Prop :=
  o.columns = .rows (cols o.tableName) ∧ ConfOf cols conf o.tableName o.confData

instance (tableName confData : NSString) : Decidable (ConfOf cols conf tableName confData) := by
  unfold ConfOf; exact inferInstance

instance (o : Opened) : Decidable (Consistent cols conf o) := by
  unfold Consistent; exact inferInstance

end

/-- A tap waits until no request is pending. -/
def Idle (s : St) : Label → Prop
  | .accessoryButtonTapped _ => s.requests = []
  | .didSelectRow _ => s.requests = []
  | _ => True

instance (s : St) : (l : Label) → Decidable (Idle s l)
  | .accessoryButtonTapped _ => inferInstanceAs (Decidable (s.requests = []))
  | .didSelectRow _ => inferInstanceAs (Decidable (s.requests = []))
  | .recivedDataArray _ _ => isTrue trivial
  | .connectFailed _ => isTrue trivial

/-! ## Every step keeps `Chained` -/

section
variable {cols : NSString → List NSString} {conf : NSString → NSString}

/-- The request is a step of the chain of the last tap for the selected table,
with the columns that the chain has stored so far. -/
inductive InChain (cols : NSString → List NSString) (s : St) : Request → Prop
  | columns (signalId : Int) (h : signalId = 0 ∧ s.rowTapped = false ∨ signalId = 10 ∧ s.rowTapped = true) :
      InChain cols s ⟨.getColumNamesInTable s.m_selectedTableName, signalId⟩
  | createTable (h : s.m_selectedTableColumns = .sets [cols s.m_selectedTableName])
      (hrow : s.rowTapped = false) : InChain cols s ⟨.createAdminConfTable, 1⟩
  | configuration (h : s.m_selectedTableColumns = .sets [cols s.m_selectedTableName])
      (hrow : s.rowTapped = false) :
      InChain cols s ⟨.getConfStringInTable s.m_selectedTableName, 2⟩
  | search (h : s.m_selectedTableColumns = .rows (cols s.m_selectedTableName))
      (hrow : s.rowTapped = true) :
      InChain cols s ⟨.getConfStringInTable s.m_selectedTableName, 11⟩

/-- A screen that a tap on a row opened is the search screen and consistent; one
that a tap on an accessory opened is neither. -/
structure ByTap (cols : NSString → List NSString) (conf : NSString → NSString) (o : Opened) : Prop where
  consistent : Consistent cols conf o ↔ o.rowTapped = true
  search : o.screen = .Con_SearchController ↔ o.rowTapped = true

structure Chained (cols : NSString → List NSString) (conf : NSString → NSString) (s : St) : Prop where
  pending : s.requests = [] ∨ ∃ r, s.requests = [r] ∧ InChain cols s r
  opened : ∀ o ∈ s.opened, ByTap cols conf o

theorem chained_tap {s : St} (h : Chained cols conf s) (hidle : s.requests = []) (tableName : NSString)
    {signalId : Int} (hs : signalId = 0 ∨ signalId = 10) :
    Chained cols conf (tap s tableName signalId) where
  pending := by
    have hin : InChain cols (tap s tableName signalId) ⟨.getColumNamesInTable tableName, signalId⟩ := by
      refine .columns signalId ?_
      rcases hs with rfl | rfl
      · exact Or.inl ⟨rfl, rfl⟩
      · exact Or.inr ⟨rfl, rfl⟩
    refine Or.inr ⟨_, ?_, hin⟩
    show s.requests ++ [_] = [_]
    rw [hidle, List.nil_append]
  opened := h.opened

theorem byTap_append {l : List Opened} {o : Opened} (h : ∀ x ∈ l, ByTap cols conf x)
    (ho : ByTap cols conf o) : ∀ x ∈ l ++ [o], ByTap cols conf x := by
  intro x hx
  rcases List.mem_append.mp hx with hx | hx
  · exact h x hx
  · rw [List.mem_singleton] at hx
    subst hx
    exact ho

/-- The answer to a configuration query. -/
theorem response_conf (cols : NSString → List NSString) (conf : NSString → NSString)
    (tableName : NSString) (answer : Answer) : ∃ confData,
      response cols conf (.getConfStringInTable tableName) answer = .strings [confData] ∧
        (confData = conf tableName ∨ confData = []) := by
  cases answer with
  | results => exact ⟨conf tableName, rfl, Or.inl rfl⟩
  | noResults => exact ⟨[], rfl, Or.inr rfl⟩
  | failed => exact ⟨[], rfl, Or.inr rfl⟩

/-- The answer to the one request, which is gone then. -/
theorem chained_recivedDataArray {s s' : St} {r : Request} {answer : Answer}
    (ho : ∀ o ∈ s.opened, ByTap cols conf o) (hreq : s.requests = []) (hr : InChain cols s r)
    (hs : recivedDataArray s (response cols conf r.query answer) r.signalId = some s') :
    Chained cols conf s' := by
  cases hr with
  | columns signalId hid =>
    cases answer with
    | results =>
      rcases hid with ⟨rfl, hrow⟩ | ⟨rfl, hrow⟩
      · simp only [recivedDataArray, response, Value.count, List.length_singleton, hreq] at hs
        obtain rfl := Option.some.inj hs
        exact ⟨Or.inr ⟨_, rfl, .createTable rfl hrow⟩, ho⟩
      · simp only [recivedDataArray, response, Value.count, List.length_singleton, hreq] at hs
        obtain rfl := Option.some.inj hs
        exact ⟨Or.inr ⟨_, rfl, .search rfl hrow⟩, ho⟩
    | noResults =>
      obtain rfl := Option.some.inj hs
      exact ⟨Or.inl hreq, ho⟩
    | failed =>
      obtain rfl := Option.some.inj hs
      exact ⟨Or.inl hreq, ho⟩
  | createTable hcols hrow =>
    cases answer with
    | noResults =>
      obtain rfl := Option.some.inj hs
      exact ⟨Or.inl hreq, ho⟩
    | results =>
      simp only [recivedDataArray, response, Value.count, List.length_singleton, hreq] at hs
      obtain rfl := Option.some.inj hs
      exact ⟨Or.inr ⟨_, rfl, .configuration hcols hrow⟩, ho⟩
    | failed =>
      simp only [recivedDataArray, response, Value.count, List.length_singleton, hreq] at hs
      obtain rfl := Option.some.inj hs
      exact ⟨Or.inr ⟨_, rfl, .configuration hcols hrow⟩, ho⟩
  | configuration hcols hrow =>
    obtain ⟨confData, hresp, -⟩ := response_conf cols conf s.m_selectedTableName answer
    rw [hresp] at hs
    obtain rfl := Option.some.inj hs
    have hnot : s.rowTapped ≠ true := by rw [hrow]; decide
    refine ⟨Or.inl hreq, byTap_append ho ⟨iff_of_false ?_ hnot, iff_of_false ?_ hnot⟩⟩
    · intro h
      have hrows := h.1
      rw [hcols] at hrows
      cases hrows
    · intro h; cases h
  | search hcols hrow =>
    obtain ⟨confData, hresp, hconf⟩ := response_conf cols conf s.m_selectedTableName answer
    rw [hresp] at hs
    have hopen : ∃ c, ConfOf cols conf s.m_selectedTableName c ∧ openSearch s c = some s' := by
      by_cases hempty : confData = []
      · refine ⟨joined (ns ",") (cols s.m_selectedTableName), Or.inr (Or.inr rfl), ?_⟩
        rw [hempty] at hs
        simp only [recivedDataArray, Value.count, firstString, hcols, columnNames] at hs
        exact hs
      · refine ⟨confData, hconf.elim Or.inl (fun h => absurd h hempty), ?_⟩
        simp only [recivedDataArray, Value.count, firstString, Option.bind_some, if_neg hempty] at hs
        exact hs
    obtain ⟨c, hc, hs⟩ := hopen
    obtain ⟨_, -, rfl⟩ := Option.map_eq_some_iff.mp hs
    refine ⟨Or.inl hreq, byTap_append ho ⟨?_, ?_⟩⟩
    · exact iff_of_true ⟨hcols, hc⟩ hrow
    · exact iff_of_true rfl hrow

theorem InChain.congr {s s' : St} {r : Request} (h : InChain cols s r)
    (hname : s'.m_selectedTableName = s.m_selectedTableName)
    (hcols : s'.m_selectedTableColumns = s.m_selectedTableColumns)
    (hrow : s'.rowTapped = s.rowTapped) : InChain cols s' r := by
  cases h with
  | columns signalId hid => rw [← hname]; exact .columns signalId (by rw [hrow]; exact hid)
  | createTable h ht => exact .createTable (by rw [hcols, hname]; exact h) (hrow.trans ht)
  | configuration h ht =>
    rw [← hname]
    exact .configuration (by rw [hcols, hname]; exact h) (hrow.trans ht)
  | search h ht =>
    rw [← hname]
    exact .search (by rw [hcols, hname]; exact h) (hrow.trans ht)

/-- The pending request of a chain, and no other. -/
theorem Chained.request {s : St} {i : Nat} {r : Request} (h : Chained cols conf s)
    (hr : s.requests[i]? = some r) : s.requests.eraseIdx i = [] ∧ InChain cols s r := by
  rcases h.pending with hnil | ⟨r', hone, hin⟩
  · rw [hnil] at hr; cases hr
  · rw [hone] at hr ⊢
    cases i with
    | zero =>
      obtain rfl := Option.some.inj hr
      exact ⟨rfl, hin⟩
    | succ i => cases hr

theorem chained_step {s s' : St} {l : Label} (h : Chained cols conf s) (hidle : Idle s l)
    (hs : step cols conf s l = some s') : Chained cols conf s' := by
  cases l with
  | accessoryButtonTapped row =>
    simp only [step, Option.map_eq_some_iff] at hs
    obtain ⟨name, -, rfl⟩ := hs
    exact chained_tap h hidle name (Or.inl rfl)
  | didSelectRow row =>
    simp only [step, Option.map_eq_some_iff] at hs
    obtain ⟨name, -, rfl⟩ := hs
    exact chained_tap h hidle name (Or.inr rfl)
  | recivedDataArray i answer =>
    simp only [step, Option.bind_eq_some_iff] at hs
    obtain ⟨r, hr, hs⟩ := hs
    obtain ⟨hnil, hin⟩ := h.request hr
    refine chained_recivedDataArray ?_ hnil (hin.congr ?_ ?_ ?_) hs
    · exact h.opened
    · rfl
    · rfl
    · rfl
  | connectFailed i =>
    simp only [step, Option.map_eq_some_iff] at hs
    obtain ⟨r, hr, rfl⟩ := hs
    exact ⟨Or.inl (h.request hr).1, h.opened⟩

theorem chained_inductive : ((lts cols conf).restrict Idle).Inductive (Chained cols conf) where
  init := by
    intro s hs
    obtain ⟨tableNames, resultArray, rfl⟩ := hs
    exact ⟨Or.inl rfl, by intro o ho; cases ho⟩
  step := by
    intro s l s' h hs
    exact chained_step h hs.1 hs.2

end

/-- **Consistent screens.** In every run in which a tap waits until no request
is pending, a screen that was opened is consistent if and only if the last tap
before it was on a row; then it is the search screen, otherwise the
configuration screen. -/
theorem consistent_iff (cols : NSString → List NSString) (conf : NSString → NSString) {s : St}
    (h : ((lts cols conf).restrict Idle).Reachable s) :
    ∀ o ∈ s.opened, (Consistent cols conf o ↔ o.rowTapped = true) ∧
      (o.screen = .Con_SearchController ↔ o.rowTapped = true) := by
  intro o ho
  have hb := (chained_inductive.reachable h).opened o ho
  exact ⟨hb.consistent, hb.search⟩

/-- A database with two tables; one has a stored configuration. -/
def columnsOf (tableName : NSString) : List NSString :=
  if tableName = ns "orders" then [ns "id", ns "total"] else [ns "id", ns "name"]

def confOf (tableName : NSString) : NSString := if tableName = ns "orders" then ns "total" else []

/-- A table without a stored configuration is searched. -/
theorem consistent_search : ∃ s, ((lts columnsOf confOf).restrict Idle).Reachable s ∧
    (∀ o ∈ s.opened, (Consistent columnsOf confOf o ↔ o.rowTapped = true) ∧
      (o.screen = .Con_SearchController ↔ o.rowTapped = true)) ∧
    s.opened =
      [⟨.Con_SearchController, ns "people", .rows [ns "id", ns "name"], ns "id,name", true⟩] := by
  have hex : ∃ s, ((lts columnsOf confOf).restrict Idle).Reachable s ∧
      s.opened =
        [⟨.Con_SearchController, ns "people", .rows [ns "id", ns "name"], ns "id,name", true⟩] :=
    LTS.exists_of_execG ⟨[ns "orders", ns "people"], [], .nil, [], .nil, [], [], false⟩
      [.didSelectRow 1, .recivedDataArray 0 .results, .recivedDataArray 0 .results] _
      ⟨[ns "orders", ns "people"], .nil, rfl⟩ (by decide)
  obtain ⟨s, hs, hopened⟩ := hex
  exact ⟨s, hs, consistent_iff columnsOf confOf hs, hopened⟩

/-- An accessory tap with its three answers: the configuration screen gets the
array of result sets. -/
theorem whole_result : ¬ ∀ cols conf s, (lts cols conf).Reachable s →
    ∀ o ∈ s.opened, Consistent cols conf o := by
  intro hall
  have hex : ∃ s, (lts columnsOf confOf).Reachable s ∧
      ¬ ∀ o ∈ s.opened, Consistent columnsOf confOf o :=
    LTS.exists_of_exec ⟨[ns "orders", ns "people"], [], .nil, [], .nil, [], [], false⟩
      [.accessoryButtonTapped 0, .recivedDataArray 0 .results, .recivedDataArray 0 .results,
        .recivedDataArray 0 .results] _
      ⟨[ns "orders", ns "people"], .nil, rfl⟩ (by decide)
  obtain ⟨s, hs, hn⟩ := hex
  exact hn (hall columnsOf confOf s hs)

end MysqlConnection.L3.Tables
