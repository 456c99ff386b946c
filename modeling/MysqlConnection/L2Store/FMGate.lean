import Mathlib.Data.Nat.Find
import MysqlConnection.L2Store.FMLifecycle

/-!
# The flag that guards the database, and the busy loops

`inUse` is set when a query or an update begins and taken back at each of its
ends but the exceptional ones. The loops around SQLite go on while it answers
`SQLITE_BUSY`.

* `locked_iff`: `inUse` is set exactly if, since `setInUse:` last took it back,
  it set it or a call was given too few arguments, or a text that does not
  compile with both `logsErrors` and `crashOnErrors` on in a build with
  `NSAssert`.
* `ends_iff`: which streams of answers a busy loop gets out of, and after how
  many.
-/
namespace MysqlConnection.L2.FM

open Sqlite3

section
variable {D C : Type} (e : Engine D Value C) (lower : NSString → NSString)

/-! ## Which calls raise -/

/-- The number of parameters of the statement that a call binds. -/
def needed (s : St D C) (statement : Option Nat) (sql : NSString) (busy : Nat) : Option Nat :=
  match statement.bind (pointer s) with
  | some p => (s.stmts.get p).map (·.bound.length)
  | none => (compiled e s statement sql busy).map (·.parameters)

/-- There is no statement for the text, for another reason than a lock. -/
def Refused (s : St D C) (statement : Option Nat) (sql : NSString) (busy : Nat) : Prop :=
  statement.bind (pointer s) = none ∧
    (s.db ≠ .opened ∨ (givesUp s.busyRetryTimeout 0 busy = false ∧ e.blank sql = false ∧
      ∃ n, e.compile s.file sql = .error n))

/-- The text, the arguments and the busy answers of a call. -/
def Label.runs : Label → Option (NSString × List Obj × Nat)
  | .executeQuery sql args busy => some (sql, args, busy)
  | .executeUpdate sql args busy _ => some (sql, args, busy)
  | .rollback busy _ => some (ns "ROLLBACK TRANSACTION;", [], busy)
  | .commit busy _ => some (ns "COMMIT TRANSACTION;", [], busy)
  | .beginDeferredTransaction busy _ => some (ns "BEGIN DEFERRED TRANSACTION;", [], busy)
  | .beginTransaction busy _ => some (ns "BEGIN EXCLUSIVE TRANSACTION;", [], busy)
  | _ => none

/-- Too few arguments, or a text that does not compile with both flags on and
`NSAssert` in the build. -/
def Raises (s : St D C) (sql : NSString) (args : List Obj) (busy : Nat) : Prop :=
  (∃ n, needed e s (cachedStatementForQuery s sql) sql busy = some n ∧ args.length < n) ∨
    (Refused e s (cachedStatementForQuery s sql) sql busy ∧ s.logsErrors = true ∧
      s.crashOnErrors = true ∧ s.assertions = true)

/-- The call sets `inUse` and leaves it set. -/
def Locks (s : St D C) (l : Label) : Prop :=
  s.inUse = false ∧ ∃ sql args busy, l.runs = some (sql, args, busy) ∧ Raises e s sql args busy

/-- A preparation that failed changed the error code only. -/
theorem prepare_failed {s s' : St D C} {statement : Option Nat} {sql : NSString} {busy : Nat}
    {c : Code} (h : prepare e s statement sql busy = (s', .failed c)) :
    (∃ code, s' = { s with errcode := code }) ∧ needed e s statement sql busy = none ∧
      (c ≠ .busy ↔ Refused e s statement sql busy) := by
  rcases prepare_cases e h with ⟨o, p, -, -, -, hr⟩ | ⟨hnone, h⟩
  · cases hr
  · unfold prepareLoop at h
    simp only [needed, hnone, compiled, Refused, true_and]
    split at h
    · rename_i hdb
      have hdb' : ¬ s.db ≠ .opened := fun hne => hne hdb
      split at h
      · rename_i hgives
        cases h
        refine ⟨⟨_, rfl⟩, ?_, ?_⟩
        · rw [if_neg (by rintro ⟨-, hg, -⟩; rw [hgives] at hg; cases hg)]; rfl
        · refine iff_of_false (fun hne => hne rfl) ?_
          rintro (hne | ⟨hg, -⟩)
          · exact hdb' hne
          · rw [hgives] at hg; cases hg
      · rename_i hgives
        rw [Bool.not_eq_true] at hgives
        split at h
        · cases h
        · rename_i hblank
          rw [Bool.not_eq_true] at hblank
          split at h
          · rename_i n hcomp
            cases h
            refine ⟨⟨_, rfl⟩, ?_, ?_⟩
            · rw [hcomp]; split <;> rfl
            · exact iff_of_true Code.noConfusion (Or.inr ⟨hgives, hblank, n, hcomp⟩)
          · cases h
    · rename_i hdb
      cases h
      refine ⟨⟨s.errcode, rfl⟩, ?_, ?_⟩
      · rw [if_neg (fun hc => hdb hc.1)]; rfl
      · exact iff_of_true Code.noConfusion (Or.inl hdb)

theorem prepare_ready {s s' : St D C} {statement : Option Nat} {sql : NSString} {busy : Nat}
    {p : Option Nat} (h : prepare e s statement sql busy = (s', .ready p)) :
    s'.inUse = s.inUse ∧ ¬ Refused e s statement sql busy ∧
      ∀ args, (bindArguments s' p args).isRaised = true ↔
        ∃ n, needed e s statement sql busy = some n ∧ args.length < n := by
  rcases prepare_cases e h with ⟨o, q, rfl, hq, rfl, hr⟩ | ⟨hnone, h⟩
  · cases hr
    refine ⟨rfl, fun href => ?_, fun args => ?_⟩
    · have := href.1
      rw [Option.bind_some, hq] at this
      cases this
    · simp only [needed, Option.bind_some, hq]
      cases hget : s'.stmts.get q with
      | none =>
        simp only [bindArguments, hget, Option.map_none]
        exact iff_of_false Bool.false_ne_true (by rintro ⟨_, ⟨⟩, -⟩)
      | some st => simp [isRaised_bindArguments hget]
  · unfold prepareLoop at h
    simp only [needed, hnone, compiled, Refused, true_and]
    split at h
    · rename_i hdb
      have hdb' : ¬ s.db ≠ .opened := fun hne => hne hdb
      split at h
      · cases h
      · rename_i hgives
        rw [Bool.not_eq_true] at hgives
        split at h
        · rename_i hblank
          cases h
          refine ⟨rfl, ?_, fun args => ?_⟩
          · rintro (hne | ⟨-, hb, -⟩)
            · exact hdb' hne
            · rw [hblank] at hb; cases hb
          · rw [if_neg (by rintro ⟨-, -, hb⟩; rw [hblank] at hb; cases hb)]
            exact iff_of_false Bool.false_ne_true (by rintro ⟨_, ⟨⟩, -⟩)
        · rename_i hblank
          rw [Bool.not_eq_true] at hblank
          split at h
          · cases h
          · rename_i c hcomp
            cases h
            refine ⟨rfl, ?_, fun args => ?_⟩
            · rintro (hne | ⟨-, -, n, hn⟩)
              · exact hdb' hne
              · rw [hcomp] at hn; cases hn
            · rw [if_pos ⟨hdb, hgives, hblank⟩, isRaised_new, hcomp]
              simp [Except.toOption]
    · cases h

/-! ## What becomes of the flag -/

/-- The flag is taken back if the call returns; it stays if the call raises. -/
def Gated (s : St D C) (sql : NSString) (args : List Obj) (busy : Nat) {α : Type}
    (r : Call (St D C) α) : Prop :=
  r.Ensures (fun _ s' => s'.inUse = false ∧ ¬ Raises e s sql args busy)
    (fun s' => s'.inUse = true ∧ Raises e s sql args busy)

theorem inUse_bindArguments (s : St D C) (p : Option Nat) (args : List Obj) :
    (bindArguments s p args).Ensures (fun _ s' => s'.inUse = s.inUse) (fun s' => s'.inUse = s.inUse) := by
  rcases bindArguments_cases s p args with ⟨-, hr⟩ | ⟨q, -, -, hr⟩ | ⟨q, st, -, -, hr⟩
  · rw [hr]; exact rfl
  · rw [hr]; trivial
  · rw [hr]
    split <;> exact rfl

/-- Stepping raises nothing. -/
theorem ensures_stepUpdate (s : St D C) (p : Option Nat) (busy : Nat) (R : St D C → Prop) :
    (stepUpdate e s p busy).Ensures (fun _ _ => True) R := by
  rcases stepUpdate_cases e s p busy with ⟨-, hr⟩ | ⟨q, -, -, hr⟩ | ⟨q, st, -, -, hr⟩
  · rw [hr]; trivial
  · rw [hr]; trivial
  · rcases hr with hr | ⟨-, hr⟩ | ⟨-, hr⟩ <;> rw [hr] <;> trivial

theorem inUse_openResultSet (s : St D C) (sql : NSString) (statement p : Option Nat) :
    (openResultSet s sql statement p).inUse = false := by
  unfold openResultSet
  cases statement <;> rfl

theorem gated_prepareFailed {α : Type} {s s₁ : St D C} {sql : NSString} {args : List Obj}
    {busy : Nat} {c : Code}
    (hp : prepare e (taken s) (cachedStatementForQuery s sql) sql busy = (s₁, .failed c)) (a : α) :
    Gated e s sql args busy (prepareFailed s₁ c a) := by
  obtain ⟨⟨code, hs₁⟩, hneeded, href⟩ := prepare_failed e hp
  have hfew : ¬ ∃ n, needed e s (cachedStatementForQuery s sql) sql busy = some n ∧
      args.length < n := by
    intro h
    obtain ⟨n, hn, -⟩ := h
    exact Option.some_ne_none n (hn.symm.trans hneeded)
  subst hs₁
  unfold prepareFailed
  split
  · rename_i hc
    exact ⟨rfl, Or.inr ⟨href.mp hc.1, hc.2⟩⟩
  · rename_i hc
    refine ⟨rfl, fun hraises => ?_⟩
    rcases hraises with h | h
    · exact hfew h
    · exact hc ⟨href.mpr h.1, h.2⟩

/-- The part that a query and an update have in common. -/
theorem gated_bindArguments {s s₁ : St D C} {sql : NSString} {busy : Nat} {p : Option Nat}
    (hp : prepare e (taken s) (cachedStatementForQuery s sql) sql busy = (s₁, .ready p))
    (args : List Obj) :
    (bindArguments s₁ p args).Ensures (fun _ _ => ¬ Raises e s sql args busy)
      (fun s' => s'.inUse = true ∧ Raises e s sql args busy) := by
  obtain ⟨hin, href, hraised⟩ := prepare_ready e hp
  refine ((inUse_bindArguments s₁ p args).and (Call.ensures_isRaised _)).mono ?_ ?_
  · intro _ s' h hraises
    rcases hraises with hfew | hrefused
    · exact h.2 ((hraised args).mpr hfew)
    · exact href hrefused.1
  · intro s' h
    exact ⟨h.1.trans hin, Or.inl ((hraised args).mp h.2)⟩

theorem gated_executeQuery {s : St D C} (hin : s.inUse = false) (sql : NSString) (args : List Obj)
    (busy : Nat) : Gated e s sql args busy (executeQuery e s sql args busy) := by
  rcases hp : prepare e (taken s) (cachedStatementForQuery s sql) sql busy with ⟨s₁, r⟩
  cases r with
  | failed c =>
    rw [executeQuery_failed e hin hp]
    exact gated_prepareFailed e hp none
  | ready p =>
    rw [executeQuery_ready e hin hp]
    refine (gated_bindArguments e hp args).bind fun _ s₂ hs₂ => ?_
    exact ⟨inUse_openResultSet s₂ sql _ p, hs₂⟩

theorem gated_executeUpdate {s : St D C} (hin : s.inUse = false) (sql : NSString)
    (args : List Obj) (busy busyStep : Nat) :
    Gated e s sql args busy (executeUpdate e s sql args busy busyStep) := by
  rcases hp : prepare e (taken s) (cachedStatementForQuery s sql) sql busy with ⟨s₁, r⟩
  cases r with
  | failed c =>
    rw [executeUpdate_failed e hin hp]
    exact gated_prepareFailed e hp false
  | ready p =>
    rw [executeUpdate_ready e hin hp]
    refine (gated_bindArguments e hp args).bind fun _ s₂ hs₂ => ?_
    refine (ensures_stepUpdate e s₂ p busyStep _).bind fun _ s₃ _ => ?_
    exact ⟨rfl, hs₂⟩

theorem gated_withFlag {s : St D C} (hin : s.inUse = false) (flag : Bool) (sql : NSString)
    (busy busyStep : Nat) : Gated e s sql [] busy (withFlag e s flag sql busy busyStep) := by
  refine (gated_executeUpdate e hin sql [] busy busyStep).bind fun b s' hs' => ?_
  refine ⟨?_, hs'.2⟩
  split <;> exact hs'.1

/-- A locked database does nothing. -/
theorem executeQuery_locked {s : St D C} (hin : s.inUse = true) (sql : NSString) (args : List Obj)
    (busy : Nat) :
    (executeQuery e s sql args busy).Ensures (fun r s' => r = none ∧ s' = s) (fun s' => s' = s) := by
  rw [executeQuery_inUse e hin]
  unfold complainAboutInUse
  split
  · exact rfl
  · exact ⟨rfl, rfl⟩

theorem executeUpdate_locked {s : St D C} (hin : s.inUse = true) (sql : NSString) (args : List Obj)
    (busy busyStep : Nat) :
    (executeUpdate e s sql args busy busyStep).Ensures (fun b s' => b = false ∧ s' = s)
      (fun s' => s' = s) := by
  rw [executeUpdate_inUse e hin]
  unfold complainAboutInUse
  split
  · exact rfl
  · exact ⟨rfl, rfl⟩

theorem withFlag_locked {s : St D C} (hin : s.inUse = true) (flag : Bool) (sql : NSString)
    (busy busyStep : Nat) :
    (withFlag e s flag sql busy busyStep).Ensures (fun b s' => b = false ∧ s' = s)
      (fun s' => s' = s) := by
  refine (executeUpdate_locked e hin sql [] busy busyStep).bind fun b s' hs' => ?_
  obtain ⟨rfl, rfl⟩ := hs'
  exact ⟨rfl, rfl⟩

theorem call_locked {s s' : St D C} (hin : s.inUse = true) {l : Label} (hl : l.runs ≠ none)
    (h : (call e lower s l).state = some s') : s' = s := by
  suffices hsame : (call e lower s l).Ensures (fun _ t => t = s) (fun t => t = s) from hsame.of_state h
  cases l with
  | executeQuery sql args busy =>
    exact (executeQuery_locked e hin sql args busy).bind fun _ _ hs => hs.2
  | executeUpdate sql args busy busyStep =>
    exact (executeUpdate_locked e hin sql args busy busyStep).bind fun _ _ hs => hs.2
  | rollback busy busyStep => exact (withFlag_locked e hin _ _ busy busyStep).bind fun _ _ hs => hs.2
  | commit busy busyStep => exact (withFlag_locked e hin _ _ busy busyStep).bind fun _ _ hs => hs.2
  | beginDeferredTransaction busy busyStep =>
    exact (withFlag_locked e hin _ _ busy busyStep).bind fun _ _ hs => hs.2
  | beginTransaction busy busyStep =>
    exact (withFlag_locked e hin _ _ busy busyStep).bind fun _ _ hs => hs.2
  | openDb _ | close | clearCachedStatements | setShouldCacheStatements _ | setBusyRetryTimeout _
  | setLogsErrors _ | setCrashOnErrors _ | setInUse _ | next _ _ | closeResultSet _
  | columnIndexForName _ _ | stringForColumnIndex _ _ => exact absurd rfl hl

theorem inUse_next (s : St D C) (i busy : Nat) :
    (next e s i busy).Ensures (fun _ s' => s'.inUse = s.inUse) (fun s' => s'.inUse = s.inUse) := by
  rcases next_cases e s i busy with ⟨-, hr⟩ | ⟨p, -, -, hr⟩ | ⟨p, st, -, -, hr⟩
  · rw [hr]; exact rfl
  · rw [hr]; trivial
  · rcases hr with ⟨-, hr⟩ | ⟨-, -, hr⟩ | ⟨-, -, hr⟩ <;> rw [hr] <;> exact rfl

theorem inUse_close (s : St D C) : (close e s).inUse = s.inUse := by
  unfold close clearCachedStatements
  simp only
  split <;> rfl

theorem inUse_columnIndexForName (s : St D C) (i : Nat) (columnName : NSString) :
    (columnIndexForName lower s i columnName).Ensures (fun _ s' => s'.inUse = s.inUse)
      (fun s' => s'.inUse = s.inUse) := by
  unfold columnIndexForName
  split
  · exact rfl
  · rcases setupColumnNames_cases lower s i with ⟨-, hr⟩ | ⟨f, -, -, hr⟩
    · rw [hr]; trivial
    · rw [hr]; exact rfl

/-- A call that is neither a query nor an update leaves the flag alone. -/
theorem inUse_other {s s' : St D C} {l : Label} (hruns : l.runs = none) (hset : ∀ b, l ≠ .setInUse b)
    (h : (call e lower s l).state = some s') : s'.inUse = s.inUse := by
  suffices hsame : (call e lower s l).Ensures (fun _ t => t.inUse = s.inUse)
      (fun t => t.inUse = s.inUse) from hsame.of_state h
  cases l with
  | openDb error => cases error <;> exact rfl
  | close => exact inUse_close e s
  | clearCachedStatements => exact rfl
  | setShouldCacheStatements _ => exact rfl
  | setBusyRetryTimeout _ => exact rfl
  | setLogsErrors _ => exact rfl
  | setCrashOnErrors _ => exact rfl
  | setInUse b => exact absurd rfl (hset b)
  | closeResultSet _ => exact rfl
  | next i busy => exact (inUse_next e s i busy).bind fun _ _ hs => hs
  | columnIndexForName i columnName =>
    exact (inUse_columnIndexForName lower s i columnName).bind fun _ _ hs => hs
  | stringForColumnIndex i columnIdx =>
    rcases stringForColumnIndex_cases s (fun _ => none) i columnIdx with ⟨v, hr⟩ | ⟨p, -, -, hr⟩
    · rw [call, hr]; exact rfl
    · rw [call, hr]; trivial
  | executeQuery _ _ _ | executeUpdate _ _ _ _ | rollback _ _ | commit _ _
  | beginDeferredTransaction _ _ | beginTransaction _ _ => exact absurd hruns (Option.some_ne_none _)

/-- A call that sets the flag and leaves it set. -/
def Sets (s : St D C) (l : Label) : Prop := Locks e s l ∨ l = .setInUse true

/-- One call: the flag is set if the call sets it, or if it was set and the call
does not take it back. -/
theorem inUse_call {s s' : St D C} {l : Label} (h : (call e lower s l).state = some s') :
    s'.inUse = true ↔ Sets e s l ∨ (s.inUse = true ∧ l ≠ .setInUse false) := by
  have hother : l.runs = none → (∀ b, l ≠ .setInUse b) →
      (s'.inUse = true ↔ Sets e s l ∨ (s.inUse = true ∧ l ≠ .setInUse false)) := by
    intro hnone hset
    rw [inUse_other e lower hnone hset h]
    refine ⟨fun hin => Or.inr ⟨hin, hset false⟩, fun hor => ?_⟩
    rcases hor with (hlocks | hset') | hin
    · obtain ⟨-, sql, args, busy, hruns, -⟩ := hlocks
      exact absurd (hruns.symm.trans hnone) (Option.some_ne_none _)
    · exact absurd hset' (hset true)
    · exact hin.1
  have hgated : ∀ {α : Type} {r : Call (St D C) α} {sql args busy},
      l.runs = some (sql, args, busy) → call e lower s l = (r.bind fun _ t => .returned () t) →
      (s.inUse = false → Gated e s sql args busy r) →
      (s'.inUse = true ↔ Sets e s l ∨ (s.inUse = true ∧ l ≠ .setInUse false)) := by
    intro α r sql args busy hruns hcall hgate
    have hset : ∀ b, l ≠ .setInUse b := by
      rintro b rfl
      cases hruns
    cases hin : s.inUse with
    | true =>
      have hsame := call_locked e lower hin (by rw [hruns]; exact Option.some_ne_none _) h
      rw [hsame, hin]
      exact iff_of_true rfl (Or.inr ⟨rfl, hset false⟩)
    | false =>
      have hsets : Sets e s l ∨ (false = true ∧ l ≠ .setInUse false) ↔ Raises e s sql args busy := by
        constructor
        · rintro ((hl | hl) | ⟨⟨⟩, -⟩)
          · obtain ⟨-, sql', args', busy', hruns', hraises⟩ := hl
            rw [hruns, Option.some.injEq, Prod.mk.injEq, Prod.mk.injEq] at hruns'
            obtain ⟨rfl, rfl, rfl⟩ := hruns'
            exact hraises
          · exact absurd hl (hset true)
        · intro hraises
          exact Or.inl (Or.inl ⟨hin, sql, args, busy, hruns, hraises⟩)
      rw [hsets]
      rw [hcall] at h
      have hg := hgate hin
      cases r with
      | returned a t =>
        cases h
        exact iff_of_false (by rw [hg.1]; exact Bool.false_ne_true) hg.2
      | raised t =>
        cases h
        exact iff_of_true hg.1 hg.2
      | aborted => cases h
      | undefined => cases h
  cases l with
  | setInUse b =>
    cases h
    cases b with
    | true => exact iff_of_true rfl (Or.inl (Or.inr rfl))
    | false =>
      refine iff_of_false Bool.false_ne_true ?_
      rintro ((⟨-, _, _, _, hruns, -⟩ | hset) | ⟨-, hne⟩)
      · cases hruns
      · cases hset
      · exact hne rfl
  | executeQuery sql args busy =>
    exact hgated rfl rfl fun hin => gated_executeQuery e hin sql args busy
  | executeUpdate sql args busy busyStep =>
    exact hgated rfl rfl fun hin => gated_executeUpdate e hin sql args busy busyStep
  | rollback busy busyStep =>
    exact hgated rfl rfl fun hin => gated_withFlag e hin false _ busy busyStep
  | commit busy busyStep =>
    exact hgated rfl rfl fun hin => gated_withFlag e hin false _ busy busyStep
  | beginDeferredTransaction busy busyStep =>
    exact hgated rfl rfl fun hin => gated_withFlag e hin true _ busy busyStep
  | beginTransaction busy busyStep =>
    exact hgated rfl rfl fun hin => gated_withFlag e hin true _ busy busyStep
  | openDb _ | close | clearCachedStatements | setShouldCacheStatements _ | setBusyRetryTimeout _
  | setLogsErrors _ | setCrashOnErrors _ | next _ _ | closeResultSet _ | columnIndexForName _ _
  | stringForColumnIndex _ _ => exact hother rfl (fun _ hl => by cases hl)

/-- The calls of a run, with the states they were made in. -/
def calls (s : St D C) (l : Label) : List (St D C × Label) := [(s, l)]

/-- A call set the flag, and none after it took it back. -/
def SetLast (history : List (St D C × Label)) : Prop :=
  ∃ before y after, history = before ++ y :: after ∧ Sets e y.1 y.2 ∧
    ∀ z ∈ after, z.2 ≠ .setInUse false

theorem setLast_append (history : List (St D C × Label)) (y : St D C × Label) :
    SetLast e (history ++ [y]) ↔ Sets e y.1 y.2 ∨ (SetLast e history ∧ y.2 ≠ .setInUse false) := by
  constructor
  · rintro ⟨before, z, after, heq, hz, hafter⟩
    rcases List.eq_nil_or_concat after with rfl | ⟨after, x, rfl⟩
    · obtain ⟨-, hyz⟩ := List.append_inj' heq rfl
      rw [(List.cons.inj hyz).1]
      exact Or.inl hz
    · rw [List.concat_eq_append, ← List.cons_append, ← List.append_assoc] at heq
      obtain ⟨hhist, hyx⟩ := List.append_inj' heq rfl
      refine Or.inr ⟨⟨before, z, after, hhist, hz, fun w hw => hafter w ?_⟩, ?_⟩
      · rw [List.concat_eq_append]; exact List.mem_append_left _ hw
      · rw [(List.cons.inj hyx).1]
        exact hafter x (by rw [List.concat_eq_append]; simp)
  · rintro (hy | ⟨⟨before, z, after, rfl, hz, hafter⟩, hy⟩)
    · exact ⟨history, y, [], rfl, hy, fun _ hw => absurd hw List.not_mem_nil⟩
    · refine ⟨before, z, after ++ [y], by simp, hz, fun w hw => ?_⟩
      rcases List.mem_append.mp hw with hw | hw
      · exact hafter w hw
      · rw [List.mem_singleton.mp hw]; exact hy

/-- **The flag that an exception leaves set.** In any run in which `open` is
called without a handle only, `inUse` is set exactly if, since `setInUse:` last
took it back, a call raised (too few arguments, or a text that does not compile
with both flags on and `NSAssert` in the build) or `setInUse:` set it. While it
is set no query and no update does anything. -/
theorem locked_iff {x : St D C × List (St D C × Label)}
    (h : ((lts e lower).observe calls).Reachable x) :
    (x.1.inUse = true ↔ SetLast e x.2) ∧
      (x.1.inUse = true → ∀ l s', l.runs ≠ none → step e lower x.1 l = some s' → s' = x.1) := by
  have hinv : ((lts e lower).observe calls).Inductive
      (fun x : St D C × List (St D C × Label) => x.1.inUse = true ↔ SetLast e x.2) := by
    constructor
    · intro x hx
      obtain ⟨⟨file, assertions, hfile⟩, hnil⟩ := hx
      rw [hfile, hnil]
      refine iff_of_false Bool.false_ne_true fun hset => ?_
      obtain ⟨before, y, after, heq, -⟩ := hset
      exact List.append_ne_nil_of_right_ne_nil before (List.cons_ne_nil y after) heq.symm
    · intro x l x' hx hs
      obtain ⟨hstep, hhist⟩ := hs
      rw [inUse_call e lower (step_eq_some e lower hstep).2, hx, hhist, calls, setLast_append]
  refine ⟨hinv.reachable h, fun hin l s' hl hs => ?_⟩
  exact call_locked e lower hin hl (step_eq_some e lower hs).2

end

/-- A text with a parameter, and no argument for it. -/
def placeholder : Engine Nat Value Nat where
  blank sql := sql.isEmpty
  compile _ sql := .ok ⟨[], sql.count '?'⟩
  run n _ _ := ⟨[], none, n + 1⟩
  null := .null
  close n := n

theorem locked_iff_argument : ∃ x : St Nat Nat × List (St Nat Nat × Label),
    ((lts placeholder id).observe calls).Reachable x ∧ SetLast placeholder x.2 := by
  have hr : ((lts placeholder id).observe calls).Reachable _ :=
    LTS.reachable_observe_of_exec calls ⟨0, false, rfl⟩ (fun _ _ _ _ h => h)
      (rfl : LTS.exec (LTS.observeFn (step placeholder id) calls)
        ({ initWithPath 0 with assertions := false }, [])
        [.openDb none, .executeUpdate (ns "set ?") [] 0 0, .setInUse false,
          .executeUpdate (ns "set ?") [] 0 0, .executeUpdate (ns "drop") [] 0 0] = some _)
  exact ⟨_, hr, (locked_iff placeholder id hr).1.mp rfl⟩

/-! ## The busy loops -/

/-- The loop from answer `k` on; `busy` says which answers are `SQLITE_BUSY`.
Gives the answer it ends with, and whether it gave up.
mirrors FMDatabase.m:292-328, 427-460, 498-532 and FMResultSet.m:80-116 -/
def retryLoop (timeout : Int32) (busy : Nat → Bool) : Nat → Int32 → Nat → Option (Nat × Bool)
  | 0, _, _ => none
  | fuel + 1, retries, k =>
    if busy k then
      if timeout = 0 then retryLoop timeout busy fuel retries (k + 1)
      else if timeout < retries then some (k, true)
      else retryLoop timeout busy fuel (retries + 1) (k + 1)
    else some (k, false)

/-- No number of retries is past the timeout. -/
def Endless (timeout : Int32) : Prop := timeout = 0 ∨ timeout = Int32.maxValue

instance : DecidablePred Endless := fun timeout => by unfold Endless; exact inferInstance

theorem toInt_le_max (n : Int32) : n.toInt ≤ 2 ^ 31 - 1 := by
  have := Int32.toInt_lt n
  omega

theorem toInt_lt_max {timeout : Int32} (h : ¬ Endless timeout) : timeout.toInt < 2 ^ 31 - 1 := by
  have hne : timeout.toInt ≠ Int32.maxValue.toInt := fun heq => h (Or.inr (Int32.toInt_inj.mp heq))
  have hle := toInt_le_max timeout
  have hmax : Int32.maxValue.toInt = 2 ^ 31 - 1 := by decide
  omega

/-- Below the largest `int` the counter does not wrap. -/
theorem toInt_succ {retries : Int32} (h : retries.toInt < 2 ^ 31 - 1) :
    (retries + 1).toInt = retries.toInt + 1 := by
  have hlow := Int32.le_toInt retries
  rw [Int32.toInt_add, Int32.toInt_one]
  exact Int.bmod_eq_of_le (by omega) (by omega)

theorem not_endless {timeout retries : Int32} (h0 : timeout ≠ 0) (h : timeout < retries) :
    ¬ Endless timeout := by
  rintro (hz | hmax)
  · exact h0 hz
  · rw [hmax, Int32.lt_iff_toInt_lt, Int32.toInt_maxValue] at h
    have := toInt_le_max retries
    omega

/-- Answer `m` is the first one that is not busy, or the first busy one past the
timeout. -/
structure EndsAt (timeout : Int32) (busy : Nat → Bool) (k m : Nat) (gaveUp : Bool) : Prop where
  le : k ≤ m
  before : ∀ j, k ≤ j → j < m → busy j = true ∧ (Endless timeout ∨ (j : Int) ≤ timeout.toInt)
  last : busy m = gaveUp
  late : gaveUp = true → ¬ Endless timeout ∧ timeout.toInt < m

section
variable {timeout : Int32} {busy : Nat → Bool}

/-- One more busy answer at the front. -/
theorem EndsAt.cons {k m : Nat} {gaveUp : Bool} (hk : busy k = true)
    (hle : Endless timeout ∨ (k : Int) ≤ timeout.toInt) (h : EndsAt timeout busy (k + 1) m gaveUp) :
    EndsAt timeout busy k m gaveUp where
  le := by have := h.le; omega
  before j hj hm := by
    by_cases heq : j = k
    · subst heq; exact ⟨hk, hle⟩
    · exact h.before j (by omega) hm
  last := h.last
  late := h.late

/-- With a timeout the retries are counted along with the answers. -/
theorem endsAt_of_retryLoop : ∀ (fuel : Nat) (retries : Int32) (k : Nat) {m : Nat} {gaveUp : Bool},
    (¬ Endless timeout → retries.toInt = k) →
    retryLoop timeout busy fuel retries k = some (m, gaveUp) → EndsAt timeout busy k m gaveUp
  | 0, _, _, _, _, _, h => by cases h
  | fuel + 1, retries, k, m, gaveUp, hr, h => by
    rw [retryLoop] at h
    split at h
    · rename_i hk
      split at h
      · rename_i h0
        exact (endsAt_of_retryLoop fuel retries (k + 1) (fun hne => absurd (Or.inl h0) hne) h).cons hk
          (Or.inl (Or.inl h0))
      · rename_i h0
        split at h
        · rename_i hlt
          cases h
          have hne := not_endless h0 hlt
          rw [Int32.lt_iff_toInt_lt, hr hne] at hlt
          exact ⟨Nat.le_refl _, fun j hj hm => by omega, hk, fun _ => ⟨hne, hlt⟩⟩
        · rename_i hge
          rw [Int32.lt_iff_toInt_lt] at hge
          have hle : Endless timeout ∨ (k : Int) ≤ timeout.toInt := by
            by_cases hend : Endless timeout
            · exact Or.inl hend
            · exact Or.inr (by have := hr hend; omega)
          refine (endsAt_of_retryLoop fuel (retries + 1) (k + 1) (fun hne => ?_) h).cons hk hle
          have hretries := hr hne
          have hmax := toInt_lt_max hne
          rw [toInt_succ (by omega)]
          omega
    · rename_i hk
      cases h
      exact ⟨Nat.le_refl _, fun j hj hm => by omega, Bool.eq_false_iff.mpr hk, nofun⟩

theorem retryLoop_of_endsAt : ∀ (d : Nat) (retries : Int32) (k : Nat) {m : Nat} {gaveUp : Bool},
    (¬ Endless timeout → retries.toInt = k) → m = k + d → EndsAt timeout busy k m gaveUp →
    retryLoop timeout busy (d + 1) retries k = some (m, gaveUp)
  | 0, retries, k, m, gaveUp, hr, hm, h => by
    have hkm : m = k := hm
    subst hkm
    rw [retryLoop, h.last]
    cases gaveUp with
    | false => rfl
    | true =>
      obtain ⟨hne, hlt⟩ := h.late rfl
      have hlt' : timeout < retries := by
        rw [Int32.lt_iff_toInt_lt, hr hne]
        exact hlt
      rw [if_pos rfl, if_neg fun h0 => hne (Or.inl h0), if_pos hlt']
  | d + 1, retries, k, m, gaveUp, hr, hm, h => by
    obtain ⟨hk, hle⟩ := h.before k (Nat.le_refl k) (by omega)
    have hnext : EndsAt timeout busy (k + 1) m gaveUp :=
      ⟨by omega, fun j hj => h.before j (by omega), h.last, h.late⟩
    rw [retryLoop, if_pos hk]
    by_cases h0 : timeout = 0
    · rw [if_pos h0]
      exact retryLoop_of_endsAt d retries (k + 1) (fun hne => absurd (Or.inl h0) hne) (by omega) hnext
    · have hge : ¬ timeout < retries := by
        intro hlt
        have hne := not_endless h0 hlt
        rw [Int32.lt_iff_toInt_lt, hr hne] at hlt
        have := hle.resolve_left hne
        omega
      rw [if_neg h0, if_neg hge]
      refine retryLoop_of_endsAt d (retries + 1) (k + 1) (fun hne => ?_) (by omega) hnext
      have hretries := hr hne
      have hmax := toInt_lt_max hne
      have hk' := hle.resolve_left hne
      rw [toInt_succ (by omega)]
      omega

theorem retryLoop_iff {m : Nat} {gaveUp : Bool} :
    (∃ fuel, retryLoop timeout busy fuel 0 0 = some (m, gaveUp)) ↔
      EndsAt timeout busy 0 m gaveUp := by
  constructor
  · intro h
    obtain ⟨fuel, h⟩ := h
    exact endsAt_of_retryLoop fuel 0 0 (fun _ => rfl) h
  · intro h
    exact ⟨m + 1, retryLoop_of_endsAt m 0 0 (fun _ => rfl) (by omega) h⟩

/-- So many busy answers make a loop give up. -/
theorem givesUp_iff : ∀ (n : Nat) (retries : Int32),
    givesUp timeout retries n = true ↔
      ¬ Endless timeout ∧ 0 < n ∧ timeout.toInt + 1 < retries.toInt + n
  | 0, retries => by
    rw [givesUp]
    exact iff_of_false Bool.false_ne_true (by omega)
  | n + 1, retries => by
    rw [givesUp]
    by_cases h0 : timeout = 0
    · rw [if_pos h0, givesUp_iff n retries]
      exact iff_of_false (fun h => h.1 (Or.inl h0)) fun h => h.1 (Or.inl h0)
    · rw [if_neg h0]
      by_cases hlt : timeout < retries
      · rw [if_pos hlt]
        have hne := not_endless h0 hlt
        rw [Int32.lt_iff_toInt_lt] at hlt
        exact iff_of_true rfl ⟨hne, by omega, by omega⟩
      · rw [if_neg hlt, givesUp_iff n (retries + 1)]
        rw [Int32.lt_iff_toInt_lt] at hlt
        by_cases hne : Endless timeout
        · exact iff_of_false (fun h => h.1 hne) fun h => h.1 hne
        · have hmax := toInt_lt_max hne
          rw [toInt_succ (by omega)]
          simp only [hne, not_false_iff, true_and]
          omega

/-- The number of busy answers decides whether a loop gives up. -/
theorem EndsAt.givesUp_eq {m : Nat} {gaveUp : Bool} (h : EndsAt timeout busy 0 m gaveUp) :
    givesUp timeout 0 (if gaveUp then m + 1 else m) = gaveUp := by
  cases gaveUp with
  | true =>
    obtain ⟨hne, hlt⟩ := h.late rfl
    rw [if_pos rfl, givesUp_iff, Int32.toInt_zero]
    exact ⟨hne, by omega, by omega⟩
  | false =>
    rw [if_neg Bool.false_ne_true, ← Bool.not_eq_true, givesUp_iff, Int32.toInt_zero]
    intro hgives
    obtain ⟨hne, hpos, hlt⟩ := hgives
    have hbefore := (h.before (m - 1) (by omega) (by omega)).2.resolve_left hne
    omega

theorem exists_endsAt (h : ¬ Endless timeout ∨ ∃ k, busy k = false) :
    ∃ m, EndsAt timeout busy 0 m (busy m) := by
  have hex : ∃ m : Nat, busy m = false ∨ (¬ Endless timeout ∧ timeout.toInt < m) := by
    rcases h with hne | hk
    · exact ⟨timeout.toInt.toNat + 1, Or.inr ⟨hne, by omega⟩⟩
    · obtain ⟨k, hk⟩ := hk
      exact ⟨k, Or.inl hk⟩
  refine ⟨Nat.find hex, Nat.zero_le _, fun j _ hj => ?_, rfl, fun hbusy => ?_⟩
  · have hmin := Nat.find_min hex hj
    rw [not_or, Bool.not_eq_false] at hmin
    refine ⟨hmin.1, ?_⟩
    by_cases hne : Endless timeout
    · exact Or.inl hne
    · right
      by_contra hgt
      exact hmin.2 ⟨hne, by omega⟩
  · exact (Nat.find_spec hex).resolve_left fun hfree => Bool.false_ne_true (hfree.symm.trans hbusy)

end

/-- **The busy loops.** A loop ends exactly if the timeout is neither 0 nor the
largest `int`, or some answer is not busy. It takes the answers up to the first
that is not busy, at most two more than the timeout says, and gives up exactly
if all of them were busy. -/
theorem ends_iff (timeout : Int32) (busy : Nat → Bool) :
    ((∃ fuel r, retryLoop timeout busy fuel 0 0 = some r) ↔
        (timeout ≠ 0 ∧ timeout ≠ Int32.maxValue) ∨ ∃ k, busy k = false) ∧
      ∀ fuel m gaveUp, retryLoop timeout busy fuel 0 0 = some (m, gaveUp) →
        (∀ k < m, busy k = true) ∧ busy m = gaveUp ∧
          (timeout ≠ 0 → timeout ≠ Int32.maxValue → (m : Int) ≤ max 0 (timeout.toInt + 1)) ∧
          (gaveUp = true → (m : Int) = max 0 (timeout.toInt + 1)) ∧
          givesUp timeout 0 (if gaveUp then m + 1 else m) = gaveUp := by
  rw [← not_or]
  refine ⟨⟨fun h => ?_, fun h => ?_⟩, fun fuel m gaveUp h => ?_⟩
  · obtain ⟨fuel, ⟨m, gaveUp⟩, h⟩ := h
    have hends := retryLoop_iff.mp ⟨fuel, h⟩
    cases gaveUp with
    | true => exact Or.inl (hends.late rfl).1
    | false => exact Or.inr ⟨m, hends.last⟩
  · obtain ⟨m, hends⟩ := exists_endsAt h
    obtain ⟨fuel, h⟩ := retryLoop_iff.mpr hends
    exact ⟨fuel, _, h⟩
  · have hends := retryLoop_iff.mp ⟨fuel, h⟩
    have hle : ¬ Endless timeout → (m : Int) ≤ max 0 (timeout.toInt + 1) := by
      intro hne
      rcases Nat.eq_zero_or_pos m with hm | hm
      · omega
      · have := (hends.before (m - 1) (Nat.zero_le _) (by omega)).2.resolve_left hne
        omega
    refine ⟨fun k hk => (hends.before k (Nat.zero_le k) hk).1, hends.last,
      fun h0 hmax => hle (not_or.mpr ⟨h0, hmax⟩), fun hgave => ?_, hends.givesUp_eq⟩
    have hlate := hends.late hgave
    have := hle hlate.1
    omega

end MysqlConnection.L2.FM
