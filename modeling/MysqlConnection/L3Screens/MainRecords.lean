import MysqlConnection.L3Screens.MainLists

/-!
# What became of each record

Runs of the screens from an empty store. What is typed into the forms has
neither apostrophes nor NULs (`Typed`); touches, answers and failures come in
any order, so a builder may come up late and a confirmed alert may be about a
query that was chosen long ago. The history variable is what the steps wrote.

* `Books`: what the registry owes to the writes that made it. The ids are
  1, 2, 3, …; of the queries those are missing whose deletion was confirmed.
* `listed_once`: every database ever saved is in exactly one row of the main
  screen, every query until its deletion is confirmed.
* `referenced_run`: every listed query belongs to the database that its builder
  was opened for, and that one is listed; or it was opened for none.
* `edit_kept_iff`: what a builder saves for a query is kept if and only if the
  query was not deleted before.
-/
namespace MysqlConnection.L3.Main

open Sql L2.DBConnector

/-! ## Records and writes -/

/-- Clean texts, and one of the first `n` ids. -/
structure KeptDatabase (n : Nat) (d : Obj_Database) : Prop where
  texts : ∀ x ∈ historyFields d, Plain x.2
  id : ∃ k : RowId, k.val ≤ n ∧ d.dbId = natText k.val

/-- The database that a new query is for. -/
def builtFor : Write → Option Obj_Database
  | .insertBuildQuery item _ _ _ => some item
  | _ => none

/-- The databases of the new queries, in the order of the writes. -/
def builds (ws : List Write) : List Obj_Database := ws.filterMap builtFor

/-- Clean texts, the id of one of the queries built for `bs`, and the id of its
database as it was stored then. -/
structure KeptQuery (n : Nat) (bs : List Obj_Database) (q : Obj_Query) : Prop where
  texts : ∀ x ∈ updateFields q, Plain x.2
  id : ∃ k : RowId, q.query_Id = natText k.val ∧ ∃ item, bs[k.val - 1]? = some item ∧
    (KeptDatabase n item ∨ item = nilDatabase) ∧ q.query_dbId = intText (intValue item.dbId)

/-- A write of such records. -/
def Sound (n : Nat) (bs : List Obj_Database) : Write → Prop
  | .insertIntoHistory item => ∀ x ∈ historyFields item, Plain x.2
  | .updateHistory item => KeptDatabase n item
  | .AddToHistory item => KeptDatabase n item
  | .DeleteFromHistory item => KeptDatabase n item
  | .insertBuildQuery item tableName columns searchRule =>
    (∀ f ∈ [tableName, columns, searchRule], Plain f) ∧ (KeptDatabase n item ∨ item = nilDatabase)
  | .updateBuildQuery item => KeptQuery n bs item
  | .deleteBuildQuery item => KeptQuery n bs item

def isNewDatabase : Write → Bool
  | .insertIntoHistory _ => true
  | _ => false

def isNewQuery : Write → Bool
  | .insertBuildQuery _ _ _ _ => true
  | _ => false

def deletedId : Write → Option NSString
  | .deleteBuildQuery item => some item.query_Id
  | _ => none

/-- The queries whose deletion was confirmed. -/
def deletedIds (ws : List Write) : List NSString := ws.filterMap deletedId

section
variable {n n' : Nat} {bs bs' : List Obj_Database}

theorem KeptDatabase.mono (hn : n ≤ n') {d : Obj_Database}
    (h : KeptDatabase n d) : KeptDatabase n' d := by
  obtain ⟨k, hk, hd⟩ := h.id
  exact ⟨h.texts, k, hk.trans hn, hd⟩

theorem KeptQuery.mono (hn : n ≤ n') (hbs : bs <+: bs') {q : Obj_Query} (h : KeptQuery n bs q) :
    KeptQuery n' bs' q := by
  obtain ⟨k, hid, item, hk, hitem, hdb⟩ := h.id
  refine ⟨h.texts, k, hid, item, ?_, hitem.imp (KeptDatabase.mono hn) fun hnil => hnil, hdb⟩
  obtain ⟨rest, rfl⟩ := hbs
  exact List.getElem?_append_left (List.getElem?_eq_some_iff.mp hk).1 ▸ hk

theorem Sound.mono (hn : n ≤ n') (hbs : bs <+: bs')
    {w : Write} (h : Sound n bs w) : Sound n' bs' w := by
  cases w with
  | insertIntoHistory item => exact h
  | updateHistory item => exact KeptDatabase.mono hn h
  | AddToHistory item => exact KeptDatabase.mono hn h
  | DeleteFromHistory item => exact KeptDatabase.mono hn h
  | insertBuildQuery item tableName columns searchRule =>
    exact ⟨h.1, h.2.imp (KeptDatabase.mono hn) fun hnil => hnil⟩
  | updateBuildQuery item => exact KeptQuery.mono hn hbs h
  | deleteBuildQuery item => exact KeptQuery.mono hn hbs h

theorem lastDatabase_apply (r : Registry) (w : Write) :
    r.lastDatabase ≤ (r.apply w).lastDatabase := by
  obtain ⟨n, _, hl, _⟩ := (grown_apply r w).databases
  omega

theorem plain_nilDatabase : Plain nilDatabase.dbName := by decide

theorem plain_dbName_of_kept {d : Obj_Database} (h : KeptDatabase n d) : Plain d.dbName :=
  h.texts (ns "dbName", d.dbName) (by simp [historyFields])

theorem givenId_of_kept {d : Obj_Database} (h : KeptDatabase n d) : GivenId d.dbId := by
  obtain ⟨k, -, hk⟩ := h.id
  exact ⟨k, hk⟩

theorem givenId_of_keptQuery {q : Obj_Query} (h : KeptQuery n bs q) : GivenId q.query_Id := by
  obtain ⟨k, hk, -⟩ := h.id
  exact ⟨k, hk⟩

/-- The texts of a new query. -/
theorem plain_built {item : Obj_Database} {tableName columns searchRule : NSString}
    (h : Sound n bs (.insertBuildQuery item tableName columns searchRule)) :
    ∀ f ∈ [tableName, columns, searchRule, item.dbName], Plain f := by
  obtain ⟨htexts, hitem⟩ := h
  simp only [List.forall_mem_cons] at htexts ⊢
  obtain ⟨ht, hc, hs, -⟩ := htexts
  refine ⟨ht, hc, hs, ?_, fun _ hx => absurd hx List.not_mem_nil⟩
  rcases hitem with hk | rfl
  · exact plain_dbName_of_kept hk
  · exact plain_nilDatabase

theorem clean_of_sound {w : Write} (h : Sound n bs w) : Clean w := by
  cases w with
  | insertIntoHistory item => exact h
  | updateHistory item => exact ⟨h.texts, givenId_of_kept h⟩
  | AddToHistory item => exact givenId_of_kept h
  | DeleteFromHistory item => exact givenId_of_kept h
  | insertBuildQuery item tableName columns searchRule => exact plain_built h
  | updateBuildQuery item =>
    obtain ⟨k, -, item, -, -, hdb⟩ := h.id
    exact ⟨h.texts, givenId_of_keptQuery h, _, natAbs_intValue_le _, hdb⟩
  | deleteBuildQuery item => exact givenId_of_keptQuery h

end

/-! ## The books -/

/-- What the registry owes to the writes that made it. -/
structure Books (ws : List Write) (r : Registry) : Prop where
  databases : ∀ x ∈ r.databases, KeptDatabase r.lastDatabase x.1
  queries : ∀ q ∈ r.queries, KeptQuery r.lastDatabase (builds ws) q
  flags : ∀ x ∈ r.databases, x.2 = 0 ∨ x.2 = 1
  dbIds : r.databases.map (·.1.dbId) = (List.range' 1 r.lastDatabase).map natText
  queryIds : r.queries.map (·.query_Id) =
    ((List.range' 1 r.lastQuery).map natText).filter fun t => t ∉ deletedIds ws
  deleted : ∀ t ∈ deletedIds ws, ∃ k ≤ r.lastQuery, t = natText k
  lastDatabase : r.lastDatabase = min maxInt (ws.countP isNewDatabase)
  lastQuery : r.lastQuery = min maxInt (ws.countP isNewQuery)

section
variable {ws : List Write} {r : Registry} {w : Write} {n n' : Nat}

theorem deletedIds_append (ws ws' : List Write) :
    deletedIds (ws ++ ws') = deletedIds ws ++ deletedIds ws' := List.filterMap_append

theorem builds_append (ws ws' : List Write) : builds (ws ++ ws') = builds ws ++ builds ws' :=
  List.filterMap_append

theorem builds_start (ws ws' : List Write) : builds ws <+: builds (ws ++ ws') := by
  rw [builds_append]
  exact List.prefix_append _ _

theorem countP_isNewQuery (ws : List Write) : ws.countP isNewQuery = (builds ws).length := by
  have hnew : isNewQuery = fun w => (builtFor w).isSome := by
    funext w
    cases w <;> rfl
  rw [hnew]
  exact List.length_filterMap_eq_countP.symm

/-- A query of before. -/
theorem KeptQuery.append (ws' : List Write) (hn : n ≤ n') {q : Obj_Query} (h : KeptQuery n (builds ws) q) :
    KeptQuery n' (builds (ws ++ ws')) q := h.mono hn (builds_start ws ws')

/-- The id of a built query is one that was given out. -/
theorem Books.le_lastQuery (h : Books ws r) {q : Obj_Query} (hq : KeptQuery r.lastDatabase (builds ws) q) :
    ∃ k : RowId, k.val ≤ r.lastQuery ∧ q.query_Id = natText k.val := by
  obtain ⟨k, hid, item, hk, -⟩ := hq.id
  refine ⟨k, ?_, hid⟩
  have hlt := (List.getElem?_eq_some_iff.mp hk).1
  have hpos := k.pos
  have hle := k.le
  rw [h.lastQuery, countP_isNewQuery]
  omega

theorem range'_succ_map (n : Nat) :
    (List.range' 1 (n + 1)).map natText = (List.range' 1 n).map natText ++ [natText (n + 1)] := by
  rw [List.range'_1_concat, List.map_append, List.map_singleton, Nat.add_comm 1 n]

/-- A write that adds no record and deletes none. -/
theorem deletedIds_same (h : deletedId w = none) : deletedIds (ws ++ [w]) = deletedIds ws := by
  rw [deletedIds_append]
  simp [deletedIds, h]

theorem countP_same {p : Write → Bool} (h : p w = false) : (ws ++ [w]).countP p = ws.countP p := by
  simp [h]

theorem countP_new {p : Write → Bool} (h : p w = true) :
    (ws ++ [w]).countP p = ws.countP p + 1 := by
  simp [h]

theorem books_insertIntoHistory {item : Obj_Database} (h : Books ws r)
    (hw : ∀ x ∈ historyFields item, Plain x.2) :
    Books (ws ++ [.insertIntoHistory item]) (r.insertIntoHistory item) := by
  have hdel : deletedIds (ws ++ [.insertIntoHistory item]) = deletedIds ws := deletedIds_same rfl
  have hquery : (ws ++ [Write.insertIntoHistory item]).countP isNewQuery = ws.countP isNewQuery :=
    countP_same rfl
  have hcount : (ws ++ [Write.insertIntoHistory item]).countP isNewDatabase =
      ws.countP isNewDatabase + 1 := countP_new rfl
  have hlast := h.lastDatabase
  unfold Registry.insertIntoHistory
  split
  · rename_i hlt
    have hle : r.lastDatabase ≤ r.lastDatabase + 1 := Nat.le_succ _
    refine ⟨?_, ?_, ?_, ?_, ?_, ?_, ?_, ?_⟩
    · intro x hx
      rcases List.mem_append.mp hx with hx | hx
      · exact (h.databases x hx).mono hle
      · obtain rfl := List.mem_singleton.mp hx
        exact ⟨hw, ⟨r.lastDatabase + 1, Nat.succ_pos _, hlt⟩, Nat.le_refl _, rfl⟩
    · exact fun q hq => (h.queries q hq).append _ hle
    · intro x hx
      rcases List.mem_append.mp hx with hx | hx
      · exact h.flags x hx
      · obtain rfl := List.mem_singleton.mp hx
        exact Or.inr rfl
    · rw [List.map_append, h.dbIds, range'_succ_map]
      rfl
    · rw [hdel]; exact h.queryIds
    · rw [hdel]; exact h.deleted
    · rw [hcount]
      show r.lastDatabase + 1 = _
      omega
    · rw [hquery]; exact h.lastQuery
  · exact ⟨h.databases, fun q hq => (h.queries q hq).append _ (Nat.le_refl _), h.flags, h.dbIds,
      by rw [hdel]; exact h.queryIds, by rw [hdel]; exact h.deleted, by rw [hcount]; omega,
      by rw [hquery]; exact h.lastQuery⟩

/-- A change of the databases with an id. -/
theorem books_changeDatabase {dbId : NSString} {f : Obj_Database × Int → Obj_Database × Int}
    (h : Books ws r) (hdel : deletedId w = none) (hdatabase : isNewDatabase w = false)
    (hquery : isNewQuery w = false)
    (hf : ∀ x, x.1.dbId = dbId → (f x).1.dbId = dbId ∧ (KeptDatabase r.lastDatabase x.1 → KeptDatabase r.lastDatabase (f x).1) ∧
      ((f x).2 = x.2 ∨ (f x).2 = 0 ∨ (f x).2 = 1)) :
    Books (ws ++ [w]) (r.changeDatabase dbId f) := by
  have hmem : ∀ y ∈ (r.changeDatabase dbId f).databases, ∃ x ∈ r.databases, y = x ∨
      x.1.dbId = dbId ∧ y = f x := by
    intro y hy
    obtain ⟨x, hx, rfl⟩ := List.mem_map.mp hy
    refine ⟨x, hx, ?_⟩
    split
    · rename_i hid; exact Or.inr ⟨hid, rfl⟩
    · exact Or.inl rfl
  refine ⟨?_, fun q hq => (h.queries q hq).append _ (Nat.le_refl _), ?_, ?_, ?_, ?_, ?_, ?_⟩
  · intro y hy
    obtain ⟨x, hx, rfl | ⟨hid, rfl⟩⟩ := hmem y hy
    · exact h.databases y hx
    · exact (hf x hid).2.1 (h.databases x hx)
  · intro y hy
    obtain ⟨x, hx, rfl | ⟨hid, rfl⟩⟩ := hmem y hy
    · exact h.flags y hx
    · rcases (hf x hid).2.2 with he | he
      · rw [he]; exact h.flags x hx
      · exact he
  · have hids : (r.changeDatabase dbId f).databases.map (·.1.dbId) = r.databases.map (·.1.dbId) := by
      rw [Registry.changeDatabase, List.map_map]
      refine List.map_congr_left fun x _ => ?_
      simp only [Function.comp_apply]
      split
      · rename_i hid; rw [(hf x hid).1, hid]
      · rfl
    exact hids.trans h.dbIds
  · rw [deletedIds_same hdel]; exact h.queryIds
  · rw [deletedIds_same hdel]; exact h.deleted
  · rw [countP_same hdatabase]; exact h.lastDatabase
  · rw [countP_same hquery]; exact h.lastQuery

theorem books_insertBuildQuery {item : Obj_Database} {tableName columns searchRule : NSString}
    (h : Books ws r)
    (hw : Sound r.lastDatabase (builds ws) (.insertBuildQuery item tableName columns searchRule)) :
    Books (ws ++ [.insertBuildQuery item tableName columns searchRule])
      (r.insertBuildQuery item tableName columns searchRule) := by
  have hdel : deletedIds (ws ++ [.insertBuildQuery item tableName columns searchRule]) =
      deletedIds ws := deletedIds_same rfl
  have hdatabase : (ws ++ [Write.insertBuildQuery item tableName columns searchRule]).countP isNewDatabase =
      ws.countP isNewDatabase := countP_same rfl
  have hcount : (ws ++ [Write.insertBuildQuery item tableName columns searchRule]).countP isNewQuery =
      ws.countP isNewQuery + 1 := countP_new rfl
  have hlast := h.lastQuery
  unfold Registry.insertBuildQuery
  split
  · rename_i hlt
    have hle : r.lastQuery ≤ r.lastQuery + 1 := Nat.le_succ _
    refine ⟨h.databases, ?_, h.flags, h.dbIds, ?_, ?_, ?_, ?_⟩
    · intro q hq
      rcases List.mem_append.mp hq with hq | hq
      · exact (h.queries q hq).append _ (Nat.le_refl _)
      · obtain rfl := List.mem_singleton.mp hq
        refine ⟨(plain_queryFields.mpr (plain_built hw)).1,
          ⟨r.lastQuery + 1, Nat.succ_pos _, hlt⟩, rfl, item, ?_, hw.2, rfl⟩
        -- the id is below the largest, so it counts the queries built so far
        have hlength : r.lastQuery = (builds ws).length := by
          rw [← countP_isNewQuery]
          omega
        rw [builds_append, Nat.add_sub_cancel, hlength]
        exact List.getElem?_concat_length
    · have hnew : natText (r.lastQuery + 1) ∉ deletedIds ws := by
        intro hm
        obtain ⟨k, hk, he⟩ := h.deleted _ hm
        have := natText_injective he
        omega
      have hkeep : [natText (r.lastQuery + 1)].filter (fun t => t ∉ deletedIds ws) =
          [natText (r.lastQuery + 1)] := List.filter_cons_of_pos (by simpa using hnew)
      rw [hdel, List.map_append, h.queryIds, range'_succ_map, List.filter_append, hkeep]
      rfl
    · rw [hdel]
      intro t ht
      obtain ⟨k, hk, he⟩ := h.deleted t ht
      exact ⟨k, hk.trans hle, he⟩
    · rw [hdatabase]; exact h.lastDatabase
    · rw [hcount]
      show r.lastQuery + 1 = _
      omega
  · exact ⟨h.databases, fun q hq => (h.queries q hq).append _ (Nat.le_refl _), h.flags, h.dbIds,
      by rw [hdel]; exact h.queryIds, by rw [hdel]; exact h.deleted,
      by rw [hdatabase]; exact h.lastDatabase, by rw [hcount]; omega⟩

theorem books_updateBuildQuery {item : Obj_Query} (h : Books ws r)
    (hw : KeptQuery r.lastDatabase (builds ws) item) :
    Books (ws ++ [.updateBuildQuery item]) (r.updateBuildQuery item) := by
  have hdel : deletedIds (ws ++ [.updateBuildQuery item]) = deletedIds ws := deletedIds_same rfl
  have htexts := plain_queryFields.mp ⟨hw.texts, plain_dbName hw.texts⟩
  refine ⟨h.databases, ?_, h.flags, h.dbIds, ?_, ?_, ?_, ?_⟩
  · intro q' hq'
    obtain ⟨q, hq, rfl⟩ := List.mem_map.mp hq'
    have hk := (h.queries q hq).append [.updateBuildQuery item] (Nat.le_refl _)
    split
    · refine ⟨(plain_queryFields.mpr ?_).1, (hw.append _ (Nat.le_refl _)).id⟩
      simp only [List.forall_mem_cons] at htexts ⊢
      exact ⟨htexts.1, htexts.2.1, htexts.2.2.1, plain_dbName hk.texts,
        fun _ hx => absurd hx List.not_mem_nil⟩
    · exact hk
  · have hids : (r.updateBuildQuery item).queries.map (·.query_Id) = r.queries.map (·.query_Id) := by
      rw [Registry.updateBuildQuery, List.map_map]
      refine List.map_congr_left fun q _ => ?_
      simp only [Function.comp_apply]
      split
      · rename_i hid; exact hid.symm
      · rfl
    rw [hids, hdel]
    exact h.queryIds
  · rw [hdel]; exact h.deleted
  · rw [countP_same rfl]; exact h.lastDatabase
  · rw [countP_same rfl]; exact h.lastQuery

theorem books_deleteBuildQuery {item : Obj_Query} (h : Books ws r)
    (hw : KeptQuery r.lastDatabase (builds ws) item) :
    Books (ws ++ [.deleteBuildQuery item]) (r.deleteBuildQuery item) := by
  have hdel : deletedIds (ws ++ [.deleteBuildQuery item]) = deletedIds ws ++ [item.query_Id] :=
    deletedIds_append ws _
  refine ⟨h.databases, ?_, h.flags, h.dbIds, ?_, ?_, ?_, ?_⟩
  · exact fun q hq => (h.queries q (List.mem_of_mem_filter hq)).append _ (Nat.le_refl _)
  · have hids : (r.deleteBuildQuery item).queries.map (·.query_Id) =
        (r.queries.map (·.query_Id)).filter fun t => t ≠ item.query_Id := by
      rw [Registry.deleteBuildQuery, List.filter_map]
      rfl
    rw [hids, h.queryIds, List.filter_filter, hdel]
    refine List.filter_congr fun t _ => ?_
    simp [and_comm]
  · rw [hdel]
    intro t ht
    rcases List.mem_append.mp ht with ht | ht
    · exact h.deleted t ht
    · obtain ⟨k, hk, he⟩ := h.le_lastQuery hw
      rw [List.mem_singleton.mp ht]
      exact ⟨k.val, hk, he⟩
  · rw [countP_same rfl]; exact h.lastDatabase
  · rw [countP_same rfl]; exact h.lastQuery

/-- One write. -/
theorem books_apply (h : Books ws r) (hw : Sound r.lastDatabase (builds ws) w) :
    Books (ws ++ [w]) (r.apply w) := by
  cases w with
  | insertIntoHistory item => exact books_insertIntoHistory h hw
  | updateHistory item =>
    exact books_changeDatabase h rfl rfl rfl fun x hid => ⟨rfl, fun _ => hw, Or.inl rfl⟩
  | AddToHistory item =>
    exact books_changeDatabase h rfl rfl rfl fun x hid => ⟨hid, id, Or.inr (Or.inr rfl)⟩
  | DeleteFromHistory item =>
    exact books_changeDatabase h rfl rfl rfl fun x hid => ⟨hid, id, Or.inr (Or.inl rfl)⟩
  | insertBuildQuery item tableName columns searchRule => exact books_insertBuildQuery h hw
  | updateBuildQuery item => exact books_updateBuildQuery h hw
  | deleteBuildQuery item => exact books_deleteBuildQuery h hw

/-- The writes of a step. -/
theorem books_writes : ∀ {ws' ws : List Write} {r : Registry}, Books ws r →
    (∀ w ∈ ws', Sound r.lastDatabase (builds ws) w) →
      Books (ws ++ ws') (ws'.foldl Registry.apply r)
  | [], ws, r, h, _ => by rw [List.append_nil]; exact h
  | w :: ws', ws, r, h, hw => by
    have hone := books_apply h (hw w List.mem_cons_self)
    have hrest := books_writes hone fun w' hw' => (hw w' (List.mem_cons_of_mem _ hw')).mono
      (lastDatabase_apply r w) (builds_start ws [w])
    rw [List.append_assoc] at hrest
    exact hrest

end

/-! ## Runs -/

/-- What is typed has neither apostrophes nor NULs. -/
def Typed : Label → Prop
  | .onSave form => ∀ x ∈ historyFields form, Plain x.2
  | .onBuild tableName columns searchRule => ∀ f ∈ [tableName, columns, searchRule], Plain f
  | _ => True

instance : DecidablePred Typed
  | .onSave form => inferInstanceAs (Decidable (∀ x ∈ historyFields form, Plain x.2))
  | .onBuild tableName columns searchRule =>
    inferInstanceAs (Decidable (∀ f ∈ [tableName, columns, searchRule], Plain f))
  | .connectedRow .. | .connectedAccessory .. | .queryRow .. | .queryAccessory .. | .addAction ..
  | .deleteAction .. | .alertDismiss | .settingsButton | .buildButton | .response .. | .failure ..
  | .elsewhere .. | .onGoBack | .onExcute => isTrue trivial

/-- The screens from an empty store, with the writes of each step. -/
def recorded (db : Sqlite) : LTS (St × List Write) Label :=
  ((LTS.ofFn (fun s => s = viewWillAppear (viewDidLoad ⟨.empty, .empty⟩)) (step db)).restrict
    fun _ l => Typed l).observe written

/-- The registry is the books of the writes, and the screens hold records of it. -/
structure Recorded (x : St × List Write) : Prop where
  books : Books x.2 x.1.store.registry
  holds : Holds (KeptDatabase x.1.store.registry.lastDatabase)
    (KeptQuery x.1.store.registry.lastDatabase (builds x.2)) x.1

section
variable {db : Sqlite} {s s' : St} {ws : List Write}

theorem gives_of_books {st : Store} (h : Books ws st.registry) :
    Gives (KeptDatabase st.registry.lastDatabase)
      (KeptQuery st.registry.lastDatabase (builds ws)) st := by
  have hall (flag : Int) : ∀ d ∈ (flagged st flag).map readDatabase,
      KeptDatabase st.registry.lastDatabase d := by
    rw [flagged_registry]
    intro d hd
    obtain ⟨x, hx, rfl⟩ := List.mem_map.mp hd
    exact h.databases x (List.mem_of_mem_filter hx)
  exact ⟨hall 1, hall 0, h.queries⟩

theorem fits_of_typed {n : Nat} {bs : List Obj_Database} {l : Label} (h : Typed l) :
    Fits (KeptDatabase n) (KeptQuery n bs) l := by
  cases l with
  | onSave form => exact fun d hd => ⟨h, hd.id⟩
  | onBuild tableName columns searchRule =>
    intro q hq
    refine ⟨(plain_queryFields.mpr ?_).1, hq.id⟩
    have hname := plain_dbName hq.texts
    have h : ∀ f ∈ [tableName, columns, searchRule], Plain f := h
    simp only [List.forall_mem_cons] at h ⊢
    exact ⟨h.1, h.2.1, h.2.2.1, hname, fun _ hx => absurd hx List.not_mem_nil⟩
  | _ => trivial

theorem sound_cell {n index : Nat} {bs : List Obj_Database}
    (h : Holds (KeptDatabase n) (KeptQuery n bs) s) :
    ∀ d ∈ cellDatabase s index, KeptDatabase n d := by
  intro d hd
  unfold cellDatabase at hd
  split at hd
  · exact h.recent d (List.mem_of_getElem? hd)
  · exact h.connected d (List.mem_of_getElem? hd)

/-- The write of an optional record. -/
theorem sound_toList {α : Type} {n : Nat} {bs : List Obj_Database} {f : α → Write} {o : Option α}
    (h : ∀ x ∈ o, Sound n bs (f x)) : ∀ w ∈ (o.map f).toList, Sound n bs w := by
  intro w hw
  obtain ⟨x, hx, rfl⟩ := Option.map_eq_some_iff.mp (Option.mem_toList.mp hw)
  exact h x hx

theorem sound_mainWrites {n : Nat} {bs : List Obj_Database} {l : Label}
    (h : Holds (KeptDatabase n) (KeptQuery n bs) s) : ∀ w ∈ mainWrites s l, Sound n bs w := by
  cases l with
  | addAction index => exact sound_toList (sound_cell h)
  | deleteAction index =>
    simp only [mainWrites]
    split
    · exact fun w hw => absurd hw List.not_mem_nil
    · exact sound_toList (sound_cell h)
  | _ => exact fun w hw => absurd hw List.not_mem_nil

theorem sound_screenWrites {n : Nat} {bs : List Obj_Database} {screen : Screen} {l : Label}
    (h : Holds (KeptDatabase n) (KeptQuery n bs) s) (hm : screen ∈ s.stack) (hl : Typed l) :
    ∀ w ∈ screenWrites s screen l, Sound n bs w := by
  have hnone : ∀ w ∈ ([] : List Write), Sound n bs w := fun w hw => absurd hw List.not_mem_nil
  cases l with
  | onSave form =>
    cases screen with
    | settings isEditMode =>
      simp only [screenWrites]
      split
      · exact hnone
      · split
        · exact sound_toList fun d hd => ⟨hl, (h.signal d hd).id⟩
        · exact fun w hw => by rw [List.mem_singleton.mp hw]; exact hl
    | _ => exact hnone
  | onBuild tableName columns searchRule =>
    cases screen with
    | build selectDb isUpdateMode =>
      rcases onBuild_cases strict s selectDb isUpdateMode tableName columns searchRule with
        ⟨-, hw⟩ | ⟨-, hw⟩ | ⟨item, -, hitem, -, hw⟩
      · rw [hw]; exact hnone
      · rw [hw]
        intro w hw
        rw [List.mem_singleton.mp hw]
        refine ⟨hl, ?_⟩
        cases selectDb with
        | none => exact Or.inr rfl
        | some d => exact Or.inl (h.builders d isUpdateMode hm)
      · rw [hw]
        intro w hw
        rw [List.mem_singleton.mp hw]
        exact fits_of_typed hl item (h.selected item hitem)
    | _ => exact hnone
  | _ => cases screen <;> exact hnone

theorem sound_touchWrites {n : Nat} {bs : List Obj_Database} {l : Label}
    (h : Holds (KeptDatabase n) (KeptQuery n bs) s) (hl : Typed l) :
    ∀ w ∈ touchWrites s l, Sound n bs w := by
  unfold touchWrites
  split
  · exact sound_mainWrites h
  · rename_i screen rest heq
    exact sound_screenWrites h (by rw [heq]; exact List.mem_cons_self) hl

theorem sound_written {n : Nat} {bs : List Obj_Database} {l : Label}
    (h : Holds (KeptDatabase n) (KeptQuery n bs) s) (hl : Typed l) :
    ∀ w ∈ written s l, Sound n bs w := by
  cases l with
  | alertDismiss => exact sound_toList h.deleted
  | response _ _ => exact fun w hw => absurd hw List.not_mem_nil
  | failure _ => exact fun w hw => absurd hw List.not_mem_nil
  | elsewhere _ => exact fun w hw => absurd hw List.not_mem_nil
  | _ => exact sound_touchWrites h hl

/-- A step does to the registry what it wrote. -/
theorem registry_step (hfull : RefusesFull db) {l : Label} (h : Recorded (s, ws)) (hl : Typed l)
    (hs : step db s l = some s') :
    s'.store.registry = (written s l).foldl Registry.apply s.store.registry := by
  rw [store_step hs]
  exact registry_writes hfull s.store fun w hw => clean_of_sound (sound_written h.holds hl w hw)

theorem recorded_step (hfull : RefusesFull db) {l : Label} (h : Recorded (s, ws)) (hl : Typed l)
    (hs : step db s l = some s') : Recorded (s', ws ++ written s l) := by
  have hsound := sound_written h.holds hl
  have hregistry := registry_step hfull h hl hs
  have hbooks : Books (ws ++ written s l) s'.store.registry := by
    rw [hregistry]
    exact books_writes h.books hsound
  obtain ⟨n, _, hn, _⟩ := (grown_foldl (written s l) s.store.registry).databases
  rw [← hregistry] at hn
  have hd : s.store.registry.lastDatabase ≤ s'.store.registry.lastDatabase := by omega
  have hkept := holds_mono (fun _ => KeptDatabase.mono hd)
    (fun _ => KeptQuery.append (written s l) hd) h.holds
  exact ⟨hbooks, holds_step hkept (fits_of_typed hl) (gives_of_books hbooks) hs⟩

theorem recorded_inductive (hfull : RefusesFull db) : (recorded db).Inductive Recorded where
  init := by
    intro x hx
    obtain ⟨s, ws⟩ := x
    obtain ⟨rfl, rfl⟩ := hx
    constructor
    · constructor
      case lastDatabase => exact (Nat.min_eq_right (Nat.zero_le _)).symm
      case lastQuery => exact (Nat.min_eq_right (Nat.zero_le _)).symm
      case dbIds => rfl
      case queryIds => rfl
      all_goals
        intro x hx
        cases hx
    · constructor
      case builders =>
        intro d isUpdateMode hd
        cases hd
      all_goals
        intro x hx
        cases hx
  step := by
    intro x l x' h hs
    obtain ⟨s, ws⟩ := x
    obtain ⟨s', ws'⟩ := x'
    obtain ⟨⟨hl, hstep⟩, hws⟩ := hs
    have hws : ws' = ws ++ written s l := hws
    rw [hws]
    exact recorded_step hfull h hl hstep

theorem recorded_run (hfull : RefusesFull db) {x : St × List Write}
    (h : (recorded db).Reachable x) : Recorded x :=
  (recorded_inductive hfull).reachable h

theorem shown_of_recorded {x : St × List Write} (h : (recorded db).Reachable x)
    (htop : x.1.stack = []) : Shown x.1 := by
  have hr : (lts db).Reachable x.1 := by
    refine LTS.Reachable.mono ?_ ?_ h.of_observe
    · exact fun s hs => ⟨_, hs⟩
    · exact fun s l s' hs => hs.2
  exact ((listed_inductive db).reachable hr).2 htop

/-! ## Each record once -/

/-- The two halves of the databases. -/
theorem halves_perm {l : List (Obj_Database × Int)} (h : ∀ x ∈ l, x.2 = 0 ∨ x.2 = 1) :
    ((l.filter fun x => x.2 = 1) ++ l.filter fun x => x.2 = 0).Perm l := by
  have hzero : (l.filter fun x => x.2 = 0) = l.filter fun x => !decide (x.2 = 1) := by
    refine List.filter_congr fun x hx => ?_
    rcases h x hx with h0 | h1
    · rw [h0]; rfl
    · rw [h1]; rfl
  rw [hzero]
  exact List.filter_append_perm _ l

theorem ids_perm {x : St × List Write} (h : Recorded x) (hs : Shown x.1) :
    ((x.1.m_connectedDatabases ++ x.1.m_recentDatabases).map (·.dbId)).Perm
      ((List.range' 1 x.1.store.registry.lastDatabase).map natText) := by
  have hp := (halves_perm h.books.flags).map fun x => x.1.dbId
  rw [h.books.dbIds] at hp
  have hlists : x.1.m_connectedDatabases ++ x.1.m_recentDatabases =
      ((x.1.store.registry.databases.filter fun x => x.2 = 1) ++
        x.1.store.registry.databases.filter fun x => x.2 = 0).map (·.1) := by
    rw [hs.connected, hs.recent, List.map_append, ← flagged_registry, ← flagged_registry]
    rfl
  rw [hlists, List.map_map]
  exact hp

/-- **Each record once.** With the main screen on top every database that was
ever saved is in exactly one row of its two lists, and every query in one row,
in the order of their ids, unless its deletion was confirmed. -/
theorem listed_once (hfull : RefusesFull db) {x : St × List Write} (h : (recorded db).Reachable x)
    (htop : x.1.stack = []) :
    ((x.1.m_connectedDatabases ++ x.1.m_recentDatabases).map (·.dbId)).Perm
        ((List.range' 1 (min maxInt (x.2.countP isNewDatabase))).map natText) ∧
      x.1.m_queryArray.map (·.query_Id) =
        ((List.range' 1 (min maxInt (x.2.countP isNewQuery))).map natText).filter
          fun t => t ∉ deletedIds x.2 := by
  have hr := recorded_run hfull h
  have hs := shown_of_recorded h htop
  rw [← hr.books.lastDatabase, ← hr.books.lastQuery, hs.queries]
  exact ⟨ids_perm hr hs, hr.books.queryIds⟩

/-- Two databases are saved and the first is deleted; a query of the second is
built and deleted, and another one built. -/
def twoDatabases : List Label :=
  [.settingsButton, .onSave (sales []), .settingsButton, .onSave { sales [] with dbName := ns "shop" },
    .deleteAction 0, .connectedRow 0, .response 0 false, .onBuild (ns "people") (ns "id") (ns "id"),
    .deleteAction 10000, .alertDismiss, .buildButton, .onBuild (ns "orders") (ns "id") (ns "id")]

theorem listed_once_twoDatabases : ∃ x, (recorded strict).Reachable x ∧
    ((x.1.m_connectedDatabases ++ x.1.m_recentDatabases).map (·.dbId)).Perm [ns "1", ns "2"] ∧
    x.1.m_queryArray.map (·.query_Id) = [ns "2"] := by
  have hex : ∃ x, (recorded strict).Reachable x ∧ (x.1.stack = [] ∧
      x.2.countP isNewDatabase = 2 ∧ x.2.countP isNewQuery = 2 ∧ deletedIds x.2 = [ns "1"]) :=
    LTS.exists_of_execObs (viewWillAppear (viewDidLoad ⟨.empty, .empty⟩)) twoDatabases _ rfl
      (by decide +kernel)
  obtain ⟨x, hx, htop, hdatabases, hqueries, hdeleted⟩ := hex
  have h := listed_once refusesFull_strict hx htop
  rw [hdatabases, hqueries, hdeleted] at h
  exact ⟨x, hx, h.1.trans (List.Perm.of_eq (by decide)), h.2.trans (by decide)⟩

/-! ## Queries and their databases -/

theorem mem_ids {n : Nat} (k : RowId) (hk : k.val ≤ n) :
    natText k.val ∈ (List.range' 1 n).map natText := by
  refine List.mem_map_of_mem (List.mem_range'_1.mpr ?_)
  have := k.pos
  omega

/-- **No query without a database.** The listed query with the id `k` has the
database id that the `k`-th of the built queries was stored with: it is the id
of a database in one of the two lists, or 0 if the builder was opened while no
database was selected. -/
theorem referenced_run (hfull : RefusesFull db) {x : St × List Write}
    (h : (recorded db).Reachable x) (htop : x.1.stack = []) :
    ∀ q ∈ x.1.m_queryArray, ∃ k item, q.query_Id = natText (k + 1) ∧
      (builds x.2)[k]? = some item ∧
      ((item = nilDatabase ∧ q.query_dbId = ns "0") ∨
        ∃ d ∈ x.1.m_connectedDatabases ++ x.1.m_recentDatabases,
          d.dbId = item.dbId ∧ q.query_dbId = intText (intValue d.dbId)) := by
  have hr := recorded_run hfull h
  have hs := shown_of_recorded h htop
  intro q hq
  obtain ⟨k, hid, item, hk, hitem, hdb⟩ := (hr.holds.queries q hq).id
  refine ⟨k.val - 1, item, by rw [Nat.sub_add_cancel k.pos]; exact hid, hk, ?_⟩
  rcases hitem with hkept | rfl
  · obtain ⟨j, hj, hdbId⟩ := hkept.id
    obtain ⟨d, hd, he⟩ := List.mem_map.mp ((ids_perm hr hs).mem_iff.mpr (mem_ids j hj))
    exact Or.inr ⟨d, hd, he.trans hdbId.symm, by rw [hdb, he, hdbId]⟩
  · exact Or.inl ⟨rfl, hdb.trans (by decide)⟩

theorem referenced_run_twoDatabases : ∃ x, (recorded strict).Reachable x ∧
    x.1.m_queryArray.map (·.query_dbId) = [ns "2"] ∧
    ∃ d ∈ x.1.m_connectedDatabases ++ x.1.m_recentDatabases, ns "2" = intText (intValue d.dbId) := by
  have hex : ∃ x, (recorded strict).Reachable x ∧ (x.1.stack = [] ∧
      x.1.m_queryArray.map (·.query_dbId) = [ns "2"]) :=
    LTS.exists_of_execObs (viewWillAppear (viewDidLoad ⟨.empty, .empty⟩)) twoDatabases _ rfl
      (by decide +kernel)
  obtain ⟨x, hx, htop, hids⟩ := hex
  obtain ⟨q, hq, hid⟩ := List.mem_map.mp (hids ▸ List.mem_singleton_self (ns "2"))
  refine ⟨x, hx, hids, ?_⟩
  obtain ⟨k, item, -, -, ⟨-, h0⟩ | ⟨d, hd, -, hdb⟩⟩ := referenced_run refusesFull_strict hx htop q hq
  · exact absurd (hid.symm.trans h0) (by decide)
  · exact ⟨d, hd, hid.symm.trans hdb⟩

/-! ## Edits of a query -/

theorem written_onBuild {selectDb : Option Obj_Database} {rest : List Screen} {item : Obj_Query}
    {tableName columns searchRule : NSString} (hstack : s.stack = .build selectDb true :: rest)
    (hitem : s.m_selectedQueryItem = some item)
    (htexts : tableName ≠ [] ∧ columns ≠ [] ∧ searchRule ≠ []) :
    written s (.onBuild tableName columns searchRule) =
      [.updateBuildQuery (rebuilt tableName columns searchRule item)] := by
  have hne : ¬ (tableName = [] ∨ columns = [] ∨ searchRule = []) := by
    intro h
    rcases h with h | h | h
    · exact htexts.1 h
    · exact htexts.2.1 h
    · exact htexts.2.2 h
  simp only [written, touchWrites, hstack, screenWrites, if_neg hne, if_true, hitem]

/-- **Edits.** What a builder saves for a query is in the store afterwards if
and only if the query was not deleted before; otherwise nothing is saved. -/
theorem edit_kept_iff (hfull : RefusesFull db) {x : St × List Write}
    (h : (recorded db).Reachable x) {selectDb : Option Obj_Database} {rest : List Screen}
    (hstack : x.1.stack = .build selectDb true :: rest) {item : Obj_Query}
    (hitem : x.1.m_selectedQueryItem = some item) {tableName columns searchRule : NSString}
    (htexts : tableName ≠ [] ∧ columns ≠ [] ∧ searchRule ≠ [])
    (hl : Typed (.onBuild tableName columns searchRule))
    (hs : step db x.1 (.onBuild tableName columns searchRule) = some s') :
    ((∃ q ∈ getQuerys s'.store, q.query_Id = item.query_Id ∧ q.query_tableName = tableName ∧
        q.query_columns = columns ∧ q.query_searchRule = searchRule) ↔
      item.query_Id ∉ deletedIds x.2) ∧
    (item.query_Id ∈ deletedIds x.2 → getQuerys s'.store = getQuerys x.1.store) := by
  have hr := recorded_run hfull h
  have hregistry := registry_step hfull hr hl hs
  rw [written_onBuild hstack hitem htexts] at hregistry
  have hqueries : getQuerys s'.store =
      (x.1.store.registry.updateBuildQuery (rebuilt tableName columns searchRule item)).queries :=
    congrArg Registry.queries hregistry
  -- the query is there unless it was deleted
  have hthere : item.query_Id ∈ x.1.store.registry.queries.map (·.query_Id) ↔
      item.query_Id ∉ deletedIds x.2 := by
    obtain ⟨k, hk, hid⟩ := hr.books.le_lastQuery (hr.holds.selected item hitem)
    rw [hr.books.queryIds, List.mem_filter, decide_eq_true_eq]
    exact ⟨fun hm => hm.2, fun hm => ⟨hid ▸ mem_ids k hk, hm⟩⟩
  rw [hqueries]
  constructor
  · rw [← hthere]
    constructor
    · intro hq
      obtain ⟨q', hq', hid, -⟩ := hq
      obtain ⟨q, hq, rfl⟩ := List.mem_map.mp hq'
      refine List.mem_map.mpr ⟨q, hq, ?_⟩
      split at hid
      · rename_i he; exact he
      · exact hid
    · intro hm
      obtain ⟨q, hq, hid⟩ := List.mem_map.mp hm
      refine ⟨_, List.mem_map_of_mem hq, ?_⟩
      rw [if_pos (show q.query_Id = (rebuilt tableName columns searchRule item).query_Id from hid)]
      exact ⟨rfl, rfl, rfl, rfl⟩
  · intro hdel
    have hno : ∀ q ∈ x.1.store.registry.queries,
        q.query_Id ≠ (rebuilt tableName columns searchRule item).query_Id := by
      intro q hq hid
      exact hthere.mp (List.mem_map.mpr ⟨q, hq, hid⟩) hdel
    refine (List.map_congr_left fun q hq => if_neg (hno q hq)).trans ?_
    exact List.map_id' _

/-- A query is deleted while the tables for its builder are fetched. -/
def deletedMeanwhile : List Label :=
  [.settingsButton, .onSave (sales []), .connectedRow 0, .response 0 false,
    .onBuild (ns "people") (ns "id") (ns "id"), .queryAccessory 0, .deleteAction 10000, .alertDismiss,
    .response 0 false]

theorem edit_kept_iff_deletedMeanwhile : ∃ x s', (recorded strict).Reachable x ∧
    step strict x.1 (.onBuild (ns "orders") (ns "id") (ns "id")) = some s' ∧
    getQuerys s'.store = [] := by
  have hex : ∃ x, (recorded strict).Reachable x ∧
      (x.1.stack = [.build (some (sales (ns "1"))) true] ∧ getQuerys x.1.store = [] ∧
        (∃ item ∈ x.1.m_selectedQueryItem, item.query_Id ∈ deletedIds x.2)) :=
    LTS.exists_of_execObs (viewWillAppear (viewDidLoad ⟨.empty, .empty⟩)) deletedMeanwhile _ rfl
      (by decide +kernel)
  obtain ⟨x, hx, hstack, hnone, item, hitem, hdel⟩ := hex
  obtain ⟨s', hs⟩ : ∃ s', step strict x.1 (.onBuild (ns "orders") (ns "id") (ns "id")) = some s' := by
    simp only [step, touch, hstack, screenStep]
    exact ⟨_, rfl⟩
  have h := edit_kept_iff refusesFull_strict hx hstack hitem (by decide) (by decide) hs
  exact ⟨x, s', hx, hs, (h.2 hdel).trans hnone⟩

end

end MysqlConnection.L3.Main
