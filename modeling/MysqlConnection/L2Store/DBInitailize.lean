import Mathlib.Data.List.Basic

/-!
# Set-up at the first launch

`DBInitailize initialize` with `DBConnector createTables`, run at every launch.
A launch is the list of the outcomes of its steps; the list ends where the
launch is stopped. Each step is atomic.

The bundled file is copied only if there is no file, and the tables are only
created right after that, so what the launch that made the file left out is
never made up for (`stopped_after_copy`).

* `tables_initializeFile`: the tables after a launch that finds no file.
* `complete_iff`: after a launch that ran to its end without a failure all
  tables exist exactly if the file was complete from the start, or the launch
  that made it left all tables in it.
-/
namespace MysqlConnection.L2.DBInitailize

/-- The tables of the store. -/
inductive Table where
  | History
  | Connect
  | Query
  deriving DecidableEq, Repr

/-- The tables in `createTables`, in order. -/
def createdTables : List Table := [.History, .Connect, .Query]

/-- A step succeeded, or failed and said so. -/
inductive Outcome where
  | done
  | failed
  deriving DecidableEq, Repr

abbrev Launch := List Outcome

/-- The tables in the file, none if there is no file. -/
abbrev File := Option (List Table)

/-- `create table if not exists` for each of `rest`.
mirrors DBConnector.m:23-39 -/
def executeUpdates (tables : List Table) : List Table → Launch → List Table
  | t :: rest, .done :: os => executeUpdates (if t ∈ tables then tables else tables ++ [t]) rest os
  | _, _ => tables

/-- Opening the store makes an empty file if there is none.
mirrors DBConnector.m:13-42 -/
def createTables (file : File) : Launch → File
  | .done :: os => some (executeUpdates (file.getD []) createdTables os)
  | _ => file

/-- A copy that fails is ignored.
mirrors DBInitailize.m:13-33 and AppDelegate.m:14-20 -/
def initializeFile (template : List Table) (file : File) (launch : Launch) : File :=
  match file, launch with
  | some tables, _ => some tables
  | none, .done :: os => createTables (some template) os
  | none, .failed :: os => createTables none os
  | none, [] => none

/-- The launches one after the other. -/
def launches (template : List Table) (file : File) (ls : List Launch) : File :=
  ls.foldl (initializeFile template) file

/-- Copy, open and the three statements are done. With a file there is no step. -/
def RunsToEnd (file : File) (launch : Launch) : Prop :=
  file = none → List.replicate 5 .done <+: launch

def Complete (file : File) : Prop := ∃ tables, file = some tables ∧ ∀ t : Table, t ∈ tables

/-! ## Which launch makes the file, and with which tables -/

/-- The copy or the opening of the store made a file. -/
def makesFile : Launch → Bool
  | .done :: _ => true
  | .failed :: .done :: _ => true
  | _ => false

/-- The table was in the copied file or its statement was done. -/
def hasTable (template : List Table) (launch : Launch) (t : Table) : Prop :=
  (launch.head? = some .done ∧ t ∈ template) ∨
    (launch[1]? = some .done ∧
      t ∈ createdTables.take ((launch.drop 2).takeWhile (· = .done)).length)

/-- What the file had from the start, or what the first launch that made one
left in it. -/
def Prepared (template : List Table) : File → List Launch → Prop
  | some tables, _ => ∀ t, t ∈ tables
  | none, [] => True
  | none, launch :: ls =>
    if makesFile launch then ∀ t, hasTable template launch t else Prepared template none ls

/-! ## One launch -/

theorem mem_executeUpdates (t : Table) : ∀ (tables rest : List Table) (launch : Launch),
    t ∈ executeUpdates tables rest launch ↔
      t ∈ tables ∨ t ∈ rest.take (launch.takeWhile (· = .done)).length
  | tables, [], launch => by simp [executeUpdates]
  | tables, u :: rest, [] => by simp [executeUpdates]
  | tables, u :: rest, .failed :: os => by simp [executeUpdates]
  | tables, u :: rest, .done :: os => by
    rw [executeUpdates, mem_executeUpdates t _ rest os]
    have htake : (List.takeWhile (fun o => decide (o = Outcome.done)) (.done :: os)).length =
        (os.takeWhile (· = .done)).length + 1 := by simp
    rw [htake, List.take_succ_cons, List.mem_cons]
    by_cases hu : u ∈ tables
    · rw [if_pos hu]
      constructor
      · rintro (h | h)
        · exact Or.inl h
        · exact Or.inr (Or.inr h)
      · rintro (h | rfl | h)
        · exact Or.inl h
        · exact Or.inl hu
        · exact Or.inr h
    · rw [if_neg hu, List.mem_append, List.mem_singleton, or_assoc]

/-- A launch that finds no file. -/
theorem tables_initializeFile (template : List Table) (launch : Launch) :
    if makesFile launch then
      ∃ tables, initializeFile template none launch = some tables ∧
        ∀ t, t ∈ tables ↔ hasTable template launch t
    else initializeFile template none launch = none := by
  match launch with
  | [] => rfl
  | .done :: os =>
    match os with
    | [] => exact ⟨template, rfl, fun t => by simp [hasTable]⟩
    | .failed :: os => exact ⟨template, rfl, fun t => by simp [hasTable]⟩
    | .done :: os =>
      refine ⟨_, rfl, fun t => ?_⟩
      rw [Option.getD_some, mem_executeUpdates]
      simp [hasTable]
  | [.failed] => rfl
  | .failed :: .failed :: os => rfl
  | .failed :: .done :: os =>
    refine ⟨_, rfl, fun t => ?_⟩
    rw [Option.getD_none, mem_executeUpdates]
    simp [hasTable]

/-! ## All launches -/

/-- With a file nothing is done any more. -/
theorem launches_some (template tables : List Table) (ls : List Launch) :
    launches template (some tables) ls = some tables := by
  induction ls with
  | nil => rfl
  | cons launch ls ih => exact ih

theorem complete_some {tables : List Table} : Complete (some tables) ↔ ∀ t, t ∈ tables := by
  constructor
  · rintro ⟨ts, h, hall⟩
    rw [Option.some.injEq] at h
    subst h
    exact hall
  · intro hall
    exact ⟨tables, rfl, hall⟩

/-- A first launch without a failure leaves all tables. -/
theorem complete_of_runsToEnd (template : List Table) {launch : Launch} (h : RunsToEnd none launch) :
    Complete (initializeFile template none launch) := by
  obtain ⟨os, rfl⟩ := h rfl
  have hmake : makesFile (List.replicate 5 .done ++ os) = true := rfl
  have hspec := tables_initializeFile template (List.replicate 5 .done ++ os)
  rw [if_pos hmake] at hspec
  obtain ⟨tables, htables, hmem⟩ := hspec
  rw [htables, complete_some]
  intro t
  rw [hmem]
  right
  refine ⟨rfl, ?_⟩
  have hlen : createdTables.length ≤
      (((List.replicate 5 Outcome.done ++ os).drop 2).takeWhile (· = .done)).length := by
    simp [List.replicate, createdTables]
  rw [List.take_of_length_le hlen]
  cases t with
  | History => decide
  | Connect => decide
  | Query => decide

/-- **First launch.** After any launches, one that runs to its end without a
failure leaves all tables exactly if the file had them from the start, or the
launch that made the file left them all in it. -/
theorem complete_iff (template : List Table) (file : File) (ls : List Launch) (last : Launch)
    (h : RunsToEnd (launches template file ls) last) :
    Complete (initializeFile template (launches template file ls) last) ↔
      Prepared template file ls := by
  induction ls generalizing file with
  | nil =>
    cases file with
    | none => exact iff_of_true (complete_of_runsToEnd template h) trivial
    | some tables => exact complete_some
  | cons launch ls ih =>
    cases file with
    | some tables =>
      rw [launches_some]
      exact complete_some
    | none =>
      have hspec := tables_initializeFile template launch
      rw [Prepared]
      by_cases hmake : makesFile launch = true
      · rw [if_pos hmake] at hspec ⊢
        obtain ⟨tables, htables, hmem⟩ := hspec
        have hfile : launches template none (launch :: ls) = some tables := by
          rw [launches, List.foldl_cons, htables]
          exact launches_some template tables ls
        rw [hfile]
        refine complete_some.trans (forall_congr' hmem)
      · rw [if_neg hmake] at hspec ⊢
        have hfile : launches template none (launch :: ls) = launches template none ls := by
          rw [launches, List.foldl_cons, hspec]
          rfl
        rw [hfile] at h ⊢
        exact ih none h

/-- The copy fails and the store does not open; the next launch runs to its end. -/
theorem complete_second_launch :
    Complete (initializeFile [] (launches [] none [[.failed, .failed]]) (List.replicate 5 .done)) :=
  (complete_iff [] none [[.failed, .failed]] (List.replicate 5 .done) (fun _ => List.prefix_rfl)).mpr
    trivial

/-- The first launch is stopped after the copy of a file without the tables. -/
theorem stopped_after_copy : ¬ ∀ template file ls last,
    RunsToEnd (launches template file ls) last →
      Complete (initializeFile template (launches template file ls) last) := by
  intro hall
  obtain ⟨tables, htables, hmem⟩ := hall [] none [[.done]] [] (by intro h; cases h)
  rw [show initializeFile [] (launches [] none [[.done]]) [] = some [] from rfl,
    Option.some.injEq] at htables
  subst htables
  exact absurd (hmem .History) (by decide)

end MysqlConnection.L2.DBInitailize
