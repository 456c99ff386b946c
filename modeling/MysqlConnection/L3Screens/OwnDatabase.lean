import Mathlib.Data.List.Find
import MysqlConnection.Core.SqlUpdate
import MysqlConnection.L3Screens.MainViewController

/-!
# A saved query and its database

Whether a saved query is run and edited on the database with its own id. The
loop of `MainViewController` compares ids by `intValue` and leaves
`signal_item` alone if no connected database matches, so a query of a database
that is not connected gets the database selected before it (`other_database`).

* `own_iff`: what one tap hands over is the query's own database iff that
  database is connected or none was selected, unless another connected id
  reads as the id of the query.
* `recognised_of_reachable`: no other id does, if ids are below the largest
  `int`.
* `own_of_connected`: so it is in every run that has this at every tap on a
  saved query, for the form, the builder and the connection of `onExcute`.
-/
namespace MysqlConnection.L3.Main

open L2.DBConnector

/-! ## Definitions -/

/-- The connected database with the id of the query. -/
def Handover.database (h : Handover) : Option Obj_Database :=
  h.connected.find? fun d => d.dbId = h.query.query_dbId

def Handover.Own (h : Handover) : Prop := h.dataBase = h.database

/-- The query is used on its own database, and executed with its
credentials. -/
def Event.Own : Event → Prop
  | .selected h => h.Own
  | .edited h => h.Own
  | .excuted h c => c = credentials h.database
  | .opened _ _ _ => True

/-- A connected id that reads as the id of the query is that id. -/
def Recognised (s : St) (q : Obj_Query) : Prop :=
  ∀ d ∈ s.m_connectedDatabases, intValue d.dbId = intValue q.query_dbId → d.dbId = q.query_dbId

/-- The database of the query is connected. -/
def Listed (s : St) (q : Obj_Query) : Prop :=
  ∃ d ∈ s.m_connectedDatabases, d.dbId = q.query_dbId

/-- When a saved query is tapped, its database is connected or none is
selected. -/
def Chosen (s : St) : Label → Prop
  | .queryRow row => ∀ q ∈ s.m_queryArray[row]?, Recognised s q ∧ (Listed s q ∨ s.signal_item = none)
  | .queryAccessory row =>
    ∀ q ∈ s.m_queryArray[row]?, Recognised s q ∧ (Listed s q ∨ s.signal_item = none)
  | _ => True

instance (h : Handover) : Decidable h.Own := by unfold Handover.Own; exact inferInstance

instance : DecidablePred Event.Own
  | .selected h | .edited h => inferInstanceAs (Decidable h.Own)
  | .excuted h c => inferInstanceAs (Decidable (c = credentials h.database))
  | .opened .. => isTrue trivial

instance (s : St) (q : Obj_Query) : Decidable (Recognised s q) := by
  unfold Recognised; exact inferInstance

instance (s : St) (q : Obj_Query) : Decidable (Listed s q) := by
  unfold Listed; exact inferInstance

instance (s : St) : (l : Label) → Decidable (Chosen s l)
  | .queryRow row | .queryAccessory row => inferInstanceAs (Decidable
      (∀ q ∈ s.m_queryArray[row]?, Recognised s q ∧ (Listed s q ∨ s.signal_item = none)))
  | .connectedRow .. | .connectedAccessory .. | .addAction .. | .deleteAction .. | .alertDismiss
  | .settingsButton | .buildButton | .response .. | .failure .. | .elsewhere .. | .onGoBack
  | .onSave .. | .onBuild .. | .onExcute => isTrue trivial

/-! ## One tap -/

section
variable {s : St} {q : Obj_Query}

theorem search_of_recognised (h : Recognised s q) :
    search s q = (handover s q).database.or s.signal_item := by
  have hfind : s.m_connectedDatabases.find? (fun d => intValue d.dbId = intValue q.query_dbId) =
      s.m_connectedDatabases.find? fun d => d.dbId = q.query_dbId := by
    refine List.find?_congr fun d hd => ?_
    have hiff : intValue d.dbId = intValue q.query_dbId ↔ d.dbId = q.query_dbId :=
      ⟨h d hd, fun he => congrArg intValue he⟩
    exact decide_eq_decide.mpr hiff
  rw [search, hfind]
  rfl

theorem database_isSome_iff : (handover s q).database.isSome ↔ Listed s q := by
  simp only [Handover.database, List.find?_isSome, decide_eq_true_eq]
  exact Iff.rfl

/-- What a tap hands over is the own database iff that one is connected or
none was selected. -/
theorem own_iff (h : Recognised s q) :
    (handover s q).Own ↔ Listed s q ∨ s.signal_item = none := by
  have hown : (handover s q).Own ↔ (handover s q).database.or s.signal_item =
      (handover s q).database := by
    rw [← search_of_recognised h]; rfl
  rw [hown, ← database_isSome_iff]
  cases (handover s q).database with
  | none => simp
  | some d => simp

end

/-! ## Ids -/

theorem dropWhile_of_digit {c : Char} (h : c.isWhitespace = false) (w : NSString) :
    (c :: w).dropWhile Char.isWhitespace = c :: w := by
  rw [List.dropWhile_cons, h]; rfl

theorem isWhitespace_of_isDigit {c : Char} (h : c.isDigit = true) : c.isWhitespace = false := by
  have hn : ∀ d : Char, d.isDigit = false → c ≠ d := by
    intro d hd heq
    rw [heq, hd] at h; cases h
  simp only [Char.isWhitespace, Bool.or_eq_false_iff, decide_eq_false_iff_not]
  exact ⟨⟨⟨hn _ rfl, hn _ rfl⟩, hn _ rfl⟩, hn _ rfl⟩

theorem takeWhile_natText (n : Nat) : (Sql.natText n).takeWhile Char.isDigit = Sql.natText n := by
  have h : (Sql.natText n ++ []).takeWhile Char.isDigit =
      Sql.natText n ++ [].takeWhile Char.isDigit :=
    List.takeWhile_append_of_pos Sql.isDigit_natText
  simpa using h

theorem intValue_natText (n : Nat) : intValue (Sql.natText n) = min (2 ^ 31 - 1) (n : Int) := by
  obtain ⟨c, w, hw⟩ := List.exists_cons_of_ne_nil (Sql.natText_ne_nil n)
  have hc : c.isDigit = true := Sql.isDigit_natText c (by rw [hw]; exact List.mem_cons_self)
  have hn : ∀ d : Char, d.isDigit = false → some c ≠ some d := by
    intro d hd heq
    rw [Option.some.inj heq, hd] at hc; cases hc
  have hdrop := dropWhile_of_digit (isWhitespace_of_isDigit hc) w
  rw [← hw] at hdrop
  have hhead : (Sql.natText n).head? = some c := by rw [hw]; rfl
  simp only [intValue, hdrop, hhead, if_neg (hn '-' rfl), if_neg (hn '+' rfl), takeWhile_natText]
  rw [Sql.natText, Nat.ofDigitChars_ten_toDigits]

theorem intValue_intText (i : Int) : intValue (Sql.intText i) = max (-2 ^ 31) (min (2 ^ 31 - 1) i) := by
  cases i with
  | ofNat n =>
    rw [Sql.intText, intValue_natText]
    simp only [Int.ofNat_eq_natCast]
    omega
  | negSucc n =>
    have hdrop := dropWhile_of_digit (c := '-') (by decide) (Sql.natText (n + 1))
    simp only [Sql.intText, intValue, hdrop, List.head?_cons, if_true, List.tail_cons,
      takeWhile_natText]
    rw [Sql.natText, Nat.ofDigitChars_ten_toDigits]
    omega

/-- Below the largest `int`, ids with one `intValue` are one id. -/
theorem natText_eq_of_intValue {n : Nat} {i : Int} (h : intValue (Sql.natText n) < 2 ^ 31 - 1)
    (he : intValue (Sql.natText n) = intValue (Sql.intText i)) : Sql.natText n = Sql.intText i := by
  rw [intValue_natText] at h he
  rw [intValue_intText] at he
  have hi : i = n := by omega
  rw [hi]
  rfl

/-- The ids on the screen are those of the store. -/
structure Canonical (s : St) : Prop where
  connected : ∀ d ∈ s.m_connectedDatabases, ∃ n : Nat, d.dbId = Sql.natText n
  queries : ∀ q ∈ s.m_queryArray, ∃ i : Int, q.query_dbId = Sql.intText i

theorem exists_natText {st : Store} {d : Obj_Database} (h : d ∈ getHistoryArray st) :
    ∃ n : Nat, d.dbId = Sql.natText n := by
  obtain ⟨r, -, rfl⟩ := List.mem_map.mp h
  exact ⟨r.id.val, rfl⟩

theorem exists_intText {st : Store} {q : Obj_Query} (h : q ∈ getQuerys st) :
    ∃ i : Int, q.query_dbId = Sql.intText i := by
  obtain ⟨r, -, rfl⟩ := List.mem_map.mp h
  exact ⟨r.int (ns "dbID"), rfl⟩

section
variable {s s' : St}

theorem Canonical.of_lists (h : Canonical s)
    (hc : s'.m_connectedDatabases = s.m_connectedDatabases ∨
      ∃ st, s'.m_connectedDatabases = getHistoryArray st)
    (hq : s'.m_queryArray = s.m_queryArray ∨ ∃ st, s'.m_queryArray = getQuerys st) :
    Canonical s' := by
  constructor
  · intro d hd
    rcases hc with hc | ⟨st, hc⟩
    · exact h.connected d (hc ▸ hd)
    · exact exists_natText (hc ▸ hd)
  · intro q hd
    rcases hq with hq | ⟨st, hq⟩
    · exact h.queries q (hq ▸ hd)
    · exact exists_intText (hq ▸ hd)

theorem openBuild_eq (h : openBuild s = some s') :
    s' = { s with
      isQueryEditMode := false
      stack := .build s.signal_item s.isQueryEditMode :: s.stack
      log := s.log ++ [.opened s.signal_item s.m_containTables
        (if s.isQueryEditMode then s.m_selectedQueryItem else none)] } := by
  unfold openBuild at h
  split at h
  · cases h
  · exact (Option.some.inj h).symm

theorem canonical_step {l : Label} (h : Canonical s) (he : Effect s l s') : Canonical s' := by
  cases he with
  | quiet hq => exact h.of_lists hq.connected hq.queries
  | response hi ho => rw [openBuild_eq ho]; exact ⟨h.connected, h.queries⟩
  | buildButton ho => rw [openBuild_eq ho]; exact ⟨h.connected, h.queries⟩
  | _ => exact ⟨h.connected, h.queries⟩

end

theorem canonical_inductive (db : Sqlite) : (lts db).Inductive Canonical where
  init := by
    rintro s ⟨store, rfl⟩
    exact ⟨fun d hd => exists_natText hd, fun q hq => exists_intText hq⟩
  step s l s' h hs := canonical_step h (effect_of_step hs)

/-- In every reachable state, if the connected ids are below the largest
`int`. -/
theorem recognised_of_reachable {db : Sqlite} {s : St} (hr : (lts db).Reachable s)
    {q : Obj_Query} (hq : q ∈ s.m_queryArray)
    (hsmall : ∀ d ∈ s.m_connectedDatabases, intValue d.dbId < 2 ^ 31 - 1) : Recognised s q := by
  have hcan := (canonical_inductive db).reachable hr
  intro d hd he
  obtain ⟨n, hn⟩ := hcan.connected d hd
  obtain ⟨i, hi⟩ := hcan.queries q hq
  have hlt := hsmall d hd
  rw [hn] at hlt he ⊢
  rw [hi] at he ⊢
  exact natText_eq_of_intValue hlt he

/-! ## Every run -/

/-- What was handed over so far, also to the forms that are open. -/
structure Owned (s : St) : Prop where
  log : ∀ e ∈ s.log, e.Own
  screens : ∀ h, Screen.cretoria h ∈ s.stack → h.Own

section
variable {s s' : St}

theorem own_append {e : Event} (h : ∀ x ∈ s.log, x.Own) (he : e.Own) :
    ∀ x ∈ s.log ++ [e], x.Own := by
  intro x hx
  rcases List.mem_append.mp hx with hx | hx
  · exact h x hx
  · rw [List.mem_singleton.mp hx]; exact he

theorem owned_openBuild (h : Owned s) (ho : openBuild s = some s') : Owned s' := by
  rw [openBuild_eq ho]
  refine ⟨own_append h.log trivial, fun x hx => ?_⟩
  rcases List.mem_cons.mp hx with hx | hx
  · cases hx
  · exact h.screens x hx

theorem owned_step {l : Label} (h : Owned s) (hg : Chosen s l) (he : Effect s l s') : Owned s' := by
  cases he with
  | quiet hq =>
    refine ⟨fun e hm => h.log e (hq.log ▸ hm), fun x hx => ?_⟩
    rcases hq.screens _ hx with hx | ⟨_, hx⟩
    · exact h.screens x hx
    · cases hx
  | connectedRow hi => exact ⟨h.log, h.screens⟩
  | @queryRow row item hi =>
    obtain ⟨hrec, hsel⟩ := hg item hi
    have hown : (handover s item).Own := (own_iff hrec).mpr hsel
    refine ⟨own_append h.log hown, fun x hx => ?_⟩
    rcases List.mem_cons.mp hx with hx | hx
    · cases hx; exact hown
    · exact h.screens x hx
  | @queryAccessory row item hi =>
    obtain ⟨hrec, hsel⟩ := hg item hi
    exact ⟨own_append h.log ((own_iff hrec).mpr hsel), h.screens⟩
  | @response i r _ hi ho =>
    have hrec : Owned (received s i r) := ⟨h.log, h.screens⟩
    exact owned_openBuild hrec ho
  | buildButton ho => exact owned_openBuild h ho
  | @onExcute ho hm =>
    -- the connection is made with the record the form was given
    have hown : ho.dataBase = ho.database := h.screens ho hm
    refine ⟨own_append h.log ?_, h.screens⟩
    exact congrArg credentials hown

end

/-- **A saved query is used on its own database in every run in which, at
every tap on a saved query, that database is connected or none is selected.** -/
theorem own_of_connected {db : Sqlite} {s : St} (hr : ((lts db).restrict Chosen).Reachable s) :
    ∀ e ∈ s.log, e.Own := by
  have hind : ((lts db).restrict Chosen).Inductive Owned := by
    constructor
    · rintro s ⟨store, rfl⟩
      exact ⟨fun e he => absurd he List.not_mem_nil, fun x hx => absurd hx List.not_mem_nil⟩
    · intro s l s' h hs
      exact owned_step h hs.1 (effect_of_step hs.2)
  exact (hind.reachable hr).log

/-- Two connected databases and a saved query of the second. -/
def twoServers : Store where
  history := Sql.pair ⟨⟨1, by decide, by decide⟩, fun _ => ns "a", fun _ => 1⟩
    ⟨⟨2, by decide, by decide⟩, fun _ => ns "b", fun _ => 1⟩ (by decide)
  query := .single ⟨⟨1, by decide, by decide⟩, fun _ => ns "title", fun _ => 2⟩

/-- The query is tapped after the first database, executed, and edited after
its database was deleted and restored. -/
theorem own_restored : ∃ s, ((lts strict).restrict Chosen).Reachable s ∧ 3 ≤ s.log.length ∧
    ∀ e ∈ s.log, e.Own := by
  have hex : ∃ s, ((lts strict).restrict Chosen).Reachable s ∧ 3 ≤ s.log.length :=
    LTS.exists_of_execG (viewWillAppear (viewDidLoad twoServers))
      [.connectedRow 0, .queryRow 0, .onExcute, .onGoBack, .deleteAction 1, .addAction 1000,
        .queryAccessory 0]
      (fun s => 3 ≤ s.log.length) ⟨twoServers, rfl⟩ (by decide +kernel)
  obtain ⟨s, hr, hl⟩ := hex
  exact ⟨s, hr, hl, own_of_connected hr⟩

/-- The second database is deleted, the first selected, the query tapped: its
form gets the first. -/
theorem other_database : ¬ ∀ (db : Sqlite) (s : St), (lts db).Reachable s → ∀ e ∈ s.log, e.Own := by
  intro h
  have hex : ∃ s, (lts strict).Reachable s ∧ ∃ e ∈ s.log, ¬ e.Own :=
    LTS.exists_of_exec (viewWillAppear (viewDidLoad twoServers))
      [.deleteAction 1, .connectedRow 0, .queryRow 0]
      (fun s => ∃ e ∈ s.log, ¬ e.Own) ⟨twoServers, rfl⟩ (by decide +kernel)
  obtain ⟨s, hr, e, he, hn⟩ := hex
  exact hn (h strict s hr e he)

end MysqlConnection.L3.Main
