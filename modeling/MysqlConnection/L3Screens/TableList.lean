import MysqlConnection.L3Screens.OwnDatabase

/-!
# The database and its table list

What `prepareForSegue:` hands to the query builder. It reads `signal_item`,
`m_containTables` and `m_selectedQueryItem` when a table list arrives or the
storyboard button is touched, while every tap on another row has replaced them
at once. So the builder can get one database with the tables of another
(`other_tables`).

* `Matched`: every open request has the credentials of the database it was
  made for, and a settled table list is the list of the selected database.
* `together_of_steady`: database, table list and query belong together in
  every run in which a table list arrives only while what it was asked for is
  still selected.
-/
namespace MysqlConnection.L3.Main

open L2.DBConnector

/-! ## Definitions -/

/-- The table list of a database. -/
def tablesOf (d : Obj_Database) : Result := .tables (credentials (some d))

/-- The builder gets the table list of the database it gets, and the query to
edit, if any, is one of that database. -/
def Event.Together : Event → Prop
  | .opened selectDb tables item =>
    tables = selectDb.map tablesOf ∧
      ∀ q ∈ item, ∃ d ∈ selectDb, d.dbId = q.query_dbId
  | _ => True

/-- A query is edited only while its database is connected, a table list
arrives only while the database it was asked for is selected, with the texts
it had, and the query to edit, if any, is one of the same database, and the
button is touched only if nothing was selected since the last list. -/
def Steady (s : St) : Label → Prop
  | .queryAccessory row => ∀ q ∈ s.m_queryArray[row]?, Recognised s q ∧ Listed s q
  | .response i false => ∀ r ∈ s.requests[i]?, r.dataBase = s.signal_item ∧
      (r.signalId = 1 →
        r.query.map (·.query_dbId) = s.m_selectedQueryItem.map (·.query_dbId))
  | .buildButton => s.settled = true
  | _ => True

instance : DecidablePred Event.Together
  | .opened selectDb tables item => inferInstanceAs (Decidable
      (tables = selectDb.map tablesOf ∧ ∀ q ∈ item, ∃ d ∈ selectDb, d.dbId = q.query_dbId))
  | .selected .. | .edited .. | .excuted .. => isTrue trivial

instance (s : St) : (l : Label) → Decidable (Steady s l)
  | .queryAccessory row => inferInstanceAs (Decidable
      (∀ q ∈ s.m_queryArray[row]?, Recognised s q ∧ Listed s q))
  | .response i false => inferInstanceAs (Decidable
      (∀ r ∈ s.requests[i]?, r.dataBase = s.signal_item ∧ (r.signalId = 1 →
        r.query.map (·.query_dbId) = s.m_selectedQueryItem.map (·.query_dbId))))
  | .buildButton => inferInstanceAs (Decidable (s.settled = true))
  | .connectedRow .. | .connectedAccessory .. | .queryRow .. | .addAction .. | .deleteAction ..
  | .alertDismiss | .settingsButton | .response _ true | .failure .. | .elsewhere .. | .onGoBack
  | .onSave .. | .onBuild .. | .onExcute => isTrue trivial

/-- A request for the tables of one database, that of the query if one is to
be edited. -/
def Faithful (r : Request) : Prop :=
  ∃ d, r.dataBase = some d ∧ r.credentials = credentials (some d) ∧
    (r.signalId = 1 → ∃ q, r.query = some q ∧ d.dbId = q.query_dbId)

structure Matched (s : St) : Prop where
  requests : ∀ r ∈ s.requests, Faithful r
  settled : s.settled = true → s.m_containTables = s.signal_item.map tablesOf
  mode : s.isQueryEditMode = false
  log : ∀ e ∈ s.log, e.Together

/-! ## Steps -/

section
variable {s s' : St}

theorem together_append {e : Event} (h : ∀ x ∈ s.log, x.Together) (he : e.Together) :
    ∀ x ∈ s.log ++ [e], x.Together := by
  intro x hx
  rcases List.mem_append.mp hx with hx | hx
  · exact h x hx
  · rw [List.mem_singleton.mp hx]; exact he

theorem matched_quiet (h : Matched s) (hq : Quiet s s') : Matched s' := by
  refine ⟨fun r hr => h.requests r (hq.requests r hr), fun hs => ?_, ?_, ?_⟩
  · obtain ⟨hset, hitem, htab⟩ := hq.settled hs
    rw [hitem, htab]
    exact h.settled hset
  · rw [hq.mode]; exact h.mode
  · rw [hq.log]; exact h.log

theorem matched_request (h : Matched s) {d : Obj_Database} {signalId : Int}
    (hd : s.signal_item = some d)
    (hq : signalId = 1 → ∃ q, s.m_selectedQueryItem = some q ∧ d.dbId = q.query_dbId) :
    Matched (getTableNamesInSchema s signalId) := by
  refine ⟨fun r hr => ?_, h.settled, h.mode, h.log⟩
  rcases List.mem_append.mp hr with hr | hr
  · exact h.requests r hr
  · rw [List.mem_singleton.mp hr]
    exact ⟨d, hd, congrArg credentials hd, hq⟩

theorem matched_selectDatabase (h : Matched s) (item : Obj_Database) :
    Matched (selectDatabase s item) := by
  refine ⟨h.requests, fun hs => ?_, h.mode, h.log⟩
  cases hs

theorem matched_selectQuery (h : Matched s) (item : Obj_Query) : Matched (selectQuery s item) := by
  refine ⟨h.requests, fun hs => ?_, h.mode, together_append h.log trivial⟩
  have hboth : s.settled = true ∧ search s item = s.signal_item := by
    simpa only [selectQuery, Bool.and_eq_true, decide_eq_true_eq] using hs
  change s.m_containTables = (search s item).map tablesOf
  rw [hboth.2]
  exact h.settled hboth.1

theorem matched_editQuery (h : Matched s) (item : Obj_Query) : Matched (editQuery s item) := by
  refine ⟨h.requests, fun hs => ?_, h.mode, together_append h.log trivial⟩
  cases hs

/-- The search finds the database of the query, if it is connected. -/
theorem exists_search {q : Obj_Query} (hr : Recognised s q) (hl : Listed s q) :
    ∃ d, search s q = some d ∧ d.dbId = q.query_dbId := by
  have hsome := database_isSome_iff.mpr hl
  obtain ⟨d, hd⟩ := Option.isSome_iff_exists.mp hsome
  refine ⟨d, ?_, ?_⟩
  · rw [search_of_recognised hr, hd, Option.some_or]
  · have hid := List.find?_some (show s.m_connectedDatabases.find? _ = some d from hd)
    exact of_decide_eq_true hid

theorem matched_openBuild (hr : ∀ r ∈ s.requests, Faithful r) (hl : ∀ e ∈ s.log, e.Together)
    (ht : s.m_containTables = s.signal_item.map tablesOf)
    (hq : s.isQueryEditMode = true →
      ∀ q ∈ s.m_selectedQueryItem, ∃ d ∈ s.signal_item, d.dbId = q.query_dbId)
    (ho : openBuild s = some s') : Matched s' := by
  rw [openBuild_eq ho]
  refine ⟨hr, fun _ => ht, rfl, together_append hl ⟨ht, fun q hm => ?_⟩⟩
  cases he : s.isQueryEditMode with
  | false => rw [he] at hm; cases hm
  | true => rw [he] at hm; exact hq he q hm

theorem matched_response {i : Nat} {r : Request} (h : Matched s) (hi : s.requests[i]? = some r)
    (hd : r.dataBase = s.signal_item)
    (hq : r.signalId = 1 →
      r.query.map (·.query_dbId) = s.m_selectedQueryItem.map (·.query_dbId))
    (ho : openBuild (received s i r) = some s') : Matched s' := by
  obtain ⟨d, hrd, hcred, hedit⟩ := h.requests r (List.mem_of_getElem? hi)
  have hitem : s.signal_item = some d := by rw [← hd, hrd]
  have htables : some (Result.tables r.credentials) = s.signal_item.map tablesOf := by
    rw [hitem, hcred]; rfl
  have hrest : ∀ x ∈ s.requests.eraseIdx i, Faithful x :=
    fun x hx => h.requests x (List.mem_of_mem_eraseIdx hx)
  have hquery : (received s i r).isQueryEditMode = true →
      ∀ q ∈ s.m_selectedQueryItem, ∃ d ∈ s.signal_item, d.dbId = q.query_dbId := by
    intro hmode q hm
    -- the edit mode is that of this answer, none was left over
    have h1 : r.signalId = 1 := by simpa [received, h.mode] using hmode
    obtain ⟨q', hq', hdb⟩ := hedit h1
    have hids := hq h1
    rw [hq', Option.mem_def.mp hm] at hids
    exact ⟨d, hitem, hdb.trans (Option.some.inj hids)⟩
  exact matched_openBuild (s := received s i r) hrest h.log htables hquery ho

theorem matched_step {l : Label} (h : Matched s) (hg : Steady s l) (he : Effect s l s') :
    Matched s' := by
  cases he with
  | quiet hq => exact matched_quiet h hq
  | @connectedRow row item hi =>
    refine matched_request (matched_selectDatabase h item) rfl fun h1 => ?_
    cases h1
  | @queryRow row item hi => exact matched_selectQuery h item
  | @queryAccessory row item hi =>
    obtain ⟨hrec, hlist⟩ := hg item hi
    obtain ⟨d, hs, hd⟩ := exists_search hrec hlist
    exact matched_request (matched_editQuery h item) hs fun _ => ⟨item, rfl, hd⟩
  | @response i r _ hi ho =>
    obtain ⟨hd, hq⟩ := hg r hi
    exact matched_response h hi hd hq ho
  | buildButton ho =>
    refine matched_openBuild h.requests h.log (h.settled hg) (fun hm => ?_) ho
    rw [h.mode] at hm
    cases hm
  | onExcute hm => exact ⟨h.requests, h.settled, h.mode, together_append h.log trivial⟩

end

/-! ## Every run -/

/-- **The builder gets a database, its table list and a query of it in every
run in which a table list arrives only while what it was asked for is still
selected, a query is edited only while its database is connected, and the
button is touched only when a list has arrived for the selection.** -/
theorem together_of_steady {db : Sqlite} {s : St} (hr : ((lts db).restrict Steady).Reachable s) :
    ∀ e ∈ s.log, e.Together := by
  have hind : ((lts db).restrict Steady).Inductive Matched := by
    constructor
    · rintro s ⟨store, rfl⟩
      exact ⟨fun r hr => absurd hr List.not_mem_nil, fun _ => rfl, rfl,
        fun e he => absurd he List.not_mem_nil⟩
    · intro s l s' h hs
      exact matched_step h hs.1 (effect_of_step hs.2)
  exact (hind.reachable hr).log

/-- The first database is tapped, its builder left and opened again by the
button, then the query of the second is edited. -/
theorem together_edited : ∃ s, ((lts strict).restrict Steady).Reachable s ∧
    s.stack = [.build s.signal_item true] ∧ ∀ e ∈ s.log, e.Together := by
  have hex : ∃ s, ((lts strict).restrict Steady).Reachable s ∧
      s.stack = [.build s.signal_item true] :=
    LTS.exists_of_execG (viewWillAppear (viewDidLoad twoServers))
      [.connectedRow 0, .response 0 false, .onGoBack, .buildButton, .onGoBack, .queryAccessory 0,
        .response 0 false]
      (fun s => s.stack = [.build s.signal_item true]) ⟨twoServers, rfl⟩ (by decide +kernel)
  obtain ⟨s, hr, hs⟩ := hex
  exact ⟨s, hr, hs, together_of_steady hr⟩

/-- The second database is tapped before the list of the first arrives: the
builder gets the second with the tables of the first. -/
theorem other_tables : ¬ ∀ (db : Sqlite) (s : St), (lts db).Reachable s →
    ∀ e ∈ s.log, e.Together := by
  intro h
  have hex : ∃ s, (lts strict).Reachable s ∧ ∃ e ∈ s.log, ¬ e.Together :=
    LTS.exists_of_exec (viewWillAppear (viewDidLoad twoServers))
      [.connectedRow 0, .connectedRow 1, .response 0 false]
      (fun s => ∃ e ∈ s.log, ¬ e.Together) ⟨twoServers, rfl⟩ (by decide +kernel)
  obtain ⟨s, hr, e, he, hn⟩ := hex
  exact hn (h strict s hr e he)

end MysqlConnection.L3.Main
