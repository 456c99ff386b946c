import MysqlConnection.Core.SqlText
import Mathlib.Data.List.MinMax
import Mathlib.Logic.Function.Basic

/-!
# Updates of expressions

An update that need not assign constants: `update t set` before assignments of
expressions and an expression for its condition, as the grammar of SQLite has
it (`readBody`). What an expression is, and what value it has in a row, is a
parameter with what is documented of constants and of `id = integer`
(`Expressions`); its value depends on its row alone. A statement that does not
compile, or whose evaluation fails for one row, changes nothing.

* `rewrite_iff`: an update touches the row `k` alone, in every table with this
  row, if and only if it is `Confined`, which is about single rows.
* `confined_of_key`: it is, where the condition still is `id = k` and the
  assigned columns are free.
* `update_eq`: for constants this is `Table.update`.
* `lex_lit_ending`: a raw text between apostrophes, by what its first literal
  is (`ending`).
* `reads_iff`: which fields between apostrophes leave the update confined
  (`Contained`).
-/
namespace MysqlConnection.Sql

/-! ## The body of an update -/

/-- The assignments, and what stands behind `where`. -/
structure Body where
  sets : List (Token × List Token)
  cond : Option (List Token)
  deriving DecidableEq, Repr

def Body.prepend (b : Body) (sets : List (Token × List Token)) : Body :=
  { b with sets := sets ++ b.sets }

/-- Names and keywords are the same in either case. -/
def fold (w : Text) : Text := w.map Char.toLower

/-- What stands behind `n =`. The expression so far is `e`, with `d` brackets
open in it; outside of brackets a comma ends it, and so does `where`. -/
def readBody (n : Token) (e : List Token) (d : Nat) : List Token → Option Body
  | [] => some ⟨[(n, e)], none⟩
  | .sign s :: ts =>
    if s = '(' then readBody n (e ++ [.sign s]) (d + 1) ts
    else if s = ')' then readBody n (e ++ [.sign s]) (d - 1) ts
    else if s = ',' ∧ d = 0 then
      match ts with
      | m :: .sign q :: us =>
        if q = '=' then (readBody m [] 0 us).map fun b => b.prepend [(n, e)] else none
      | _ => none
    else readBody n (e ++ [.sign s]) d ts
  | .word w :: ts =>
    if fold w = "where".toList ∧ d = 0 then some ⟨[(n, e)], some ts⟩
    else readBody n (e ++ [.word w]) d ts
  | t :: ts => readBody n (e ++ [t]) d ts

@[simp] theorem readBody_nil (n : Token) (e : List Token) (d : Nat) :
    readBody n e d [] = some ⟨[(n, e)], none⟩ := rfl

@[simp] theorem readBody_const (n : Token) (e : List Token) (d : Nat) (v : Const) (ts : List Token) :
    readBody n e d (.const v :: ts) = readBody n (e ++ [.const v]) d ts := rfl

@[simp] theorem readBody_comma (n m : Token) (e ts : List Token) :
    readBody n e 0 (.sign ',' :: m :: .sign '=' :: ts) =
      (readBody m [] 0 ts).map fun b => b.prepend [(n, e)] := by
  rw [readBody, if_neg (by decide), if_neg (by decide), if_pos ⟨rfl, rfl⟩]
  exact if_pos rfl

@[simp] theorem readBody_where (n : Token) (e ts : List Token) :
    readBody n e 0 (.word "where".toList :: ts) = some ⟨[(n, e)], some ts⟩ := by
  rw [readBody, if_pos (by decide)]

/-- `c = i` -/
def keyIs (c : Text) (i : Int) : List Token := [.word c, .sign '=', .const (.int i)]

/-- An update of constants, in this form. -/
theorem readBody_of_setsTail {ts : List Token} {ss : Assignments} {k : Option (Text × Const)}
    (h : setsTail ts = some (ss, k)) (n : Token) (e : List Token) :
    readBody n e 0 ts = some ⟨(n, e) :: ss.map fun x => (.word x.1, [.const x.2]),
      k.map fun x => [.word x.1, .sign '=', .const x.2]⟩ := by
  induction ts using setsTail.induct generalizing ss n e with
  | case1 s c q v ts hsq ih =>
    obtain ⟨rfl, rfl⟩ := hsq
    rw [setsTail_cons, Option.map_eq_some_iff] at h
    obtain ⟨⟨ss', k'⟩, hs, hr⟩ := h
    obtain ⟨rfl, rfl⟩ := Prod.mk.inj hr
    rw [readBody_comma, readBody_const, ih hs]
    rfl
  | case2 s c q v ts hsq =>
    simp only [setsTail, if_neg hsq] at h
    cases h
  | case3 ts hts =>
    have hc : setsTail ts = (condition ts).map fun k => ([], k) := by
      unfold setsTail
      split
      · exact absurd rfl (hts _ _ _ _ _)
      · rfl
    rw [hc, Option.map_eq_some_iff] at h
    obtain ⟨k', hk, hr⟩ := h
    obtain ⟨rfl, rfl⟩ := Prod.mk.inj hr
    unfold condition at hk
    split at hk
    · obtain rfl := Option.some.inj hk
      rfl
    · split at hk
      · rename_i hw
        obtain ⟨rfl, rfl⟩ := hw
        obtain rfl := Option.some.inj hk
        exact readBody_where n e _
      · cases hk
    · cases hk

/-! ## Expressions -/

/-- What an assignment assigns to. -/
inductive Target where
  | key
  | column (c : Text) (k : Kind)
  deriving DecidableEq, Repr

def rowidNames : List Text := ["rowid".toList, "oid".toList, "_rowid_".toList]

def Schema.named (s : Schema) (w : Text) : Option Target :=
  if fold w ∈ fold s.key :: rowidNames then some .key
  else (s.columns.find? fun c => fold c.1 = fold w).map fun c => .column c.1 c.2

/-- A name may stand in quotes of any kind. -/
def Schema.target (s : Schema) : Token → Option Target
  | .word w => s.named w
  | .quoted w => s.named w
  | .const (.text w) => s.named w
  | _ => none

/-- No two columns have names that are the same in either case. -/
def Schema.WellNamed (s : Schema) : Prop := ∀ c ∈ s.columns, s.named c.1 = some (.column c.1 c.2)

instance (s : Schema) : Decidable s.WellNamed := by unfold Schema.WellNamed; exact inferInstance

/-- The words that may stand behind a literal in an expression. -/
def operators : List Text :=
  ["and", "or", "not", "is", "isnull", "notnull", "in", "like", "glob", "regexp", "match", "between",
    "collate"].map String.toList

/-- `isExpr`: the tokens compile as an expression over the columns of a table.
The others are its value in a row, as a condition and as a column of the type
stores it; `none` is an error. An id below 1 may stand as any id. -/
structure Expressions where
  isExpr : Schema → List Token → Bool
  holds : Schema → Row → List Token → Option Bool
  text : Schema → Row → List Token → Option Text
  int : Schema → Row → List Token → Option Int
  id : Schema → Row → List Token → Option RowId
  isExpr_const : ∀ s v, isExpr s [.const v] = true
  isExpr_key : ∀ s i, isExpr s (keyIs s.key i) = true
  isExpr_word : ∀ s v w ts, fold w ∉ operators → isExpr s (.const (.text v) :: .word w :: ts) = false
  holds_key : ∀ s r i, holds s r (keyIs s.key i) = some (decide ((r.id.val : Int) = i))
  text_const : ∀ s r v, text s r [.const (.text v)] = some v
  int_const : ∀ s r i, int s r [.const (.int i)] = some i

/-- Constants and conditions on the id, and no other expressions. -/
def constants : Expressions where
  isExpr s
    | [.const _] => true
    | [.word c, .sign q, .const (.int _)] => c = s.key ∧ q = '='
    | _ => false
  holds s r
    | [.word _, .sign _, .const (.int i)] => some (decide ((r.id.val : Int) = i))
    | _ => none
  text s r
    | [.const (.text v)] => some v
    | _ => none
  int s r
    | [.const (.int i)] => some i
    | _ => none
  id _ _ _ := none
  isExpr_const _ _ := rfl
  isExpr_key _ _ := by simp [keyIs]
  isExpr_word _ _ _ _ _ := rfl
  holds_key _ _ _ := rfl
  text_const _ _ _ := rfl
  int_const _ _ _ := rfl

instance : Inhabited Expressions := ⟨constants⟩

section
variable (X : Expressions) (s : Schema)

/-- One assignment; its expression is about the row `r` as it was. -/
def Expressions.set (r acc : Row) : Target × List Token → Option Row
  | (.key, e) => (X.id s r e).map fun i => { acc with id := i }
  | (.column c .text, e) =>
    (X.text s r e).map fun v => { acc with text := Function.update acc.text c v }
  | (.column c .int, e) =>
    (X.int s r e).map fun i => { acc with int := Function.update acc.int c i }

/-- Of assignments to one column the last one counts. -/
def rightmost : List (Target × List Token) → List (Target × List Token)
  | [] => []
  | x :: xs => if x.1 ∈ xs.map (·.1) then rightmost xs else x :: rightmost xs

def Expressions.assigned (sets : List (Target × List Token)) (r : Row) : Option Row :=
  (rightmost sets).foldlM (X.set s r) r

/-- What becomes of one row; `none` is an error. -/
def Expressions.rewrite (sets : List (Target × List Token)) (cond : Option (List Token)) (r : Row) :
    Option Row :=
  match cond with
  | none => X.assigned s sets r
  | some e => (X.holds s r e).bind fun b => if b then X.assigned s sets r else some r

/-- The targets of assignments of expressions. -/
def Expressions.targets : List (Token × List Token) → Option (List (Target × List Token))
  | [] => some []
  | (n, e) :: xs =>
    if X.isExpr s e then
      (s.target n).bind fun x => (Expressions.targets xs).map ((x, e) :: ·)
    else none

def Expressions.compile (b : Body) : Option (Row → Option Row) :=
  if (b.cond.map (X.isExpr s)).getD true then
    (X.targets s b.sets).map fun sets => X.rewrite s sets b.cond
  else none

end

/-! ## Tables -/

theorem foldr_max_le {ns : List Nat} {m b : Nat} (h : ∀ n ∈ ns, n ≤ b) (hm : m ≤ b) :
    ns.foldr max m ≤ b := by
  induction ns with
  | nil => exact hm
  | cons x ns ih =>
    rw [List.foldr_cons]
    exact Nat.max_le.mpr ⟨h x List.mem_cons_self, ih fun n hn => h n (List.mem_cons_of_mem _ hn)⟩

def rewritten (f : Row → Option Row) (rows : List Row) : List Row := rows.map fun r => (f r).getD r

theorem le_foldr_max (ns : List Nat) (m : Nat) : m ≤ ns.foldr max m := by
  induction ns with
  | nil => exact Nat.le_refl m
  | cons x ns ih => exact Nat.le_trans ih (Nat.le_max_right _ _)

/-- Every row rewritten; the ids must stay distinct. -/
def Table.rewrite (t : Table) (f : Row → Option Row) : Option Table :=
  if h : (∀ r ∈ t.rows, (f r).isSome) ∧ ((rewritten f t.rows).map (·.id)).Nodup then
    some
      { rows := rewritten f t.rows
        seq := ((rewritten f t.rows).map (·.id.val)).foldr max t.seq
        nodup := h.2
        id_le := fun r hr =>
          List.le_max_of_le' t.seq (List.mem_map.mpr ⟨r, hr, rfl⟩) (Nat.le_refl r.id.val)
        seq_le := by
          refine foldr_max_le (fun n hn => ?_) t.seq_le
          obtain ⟨r, -, rfl⟩ := List.mem_map.mp hn
          exact r.id.le }
  else none

def Expressions.update (X : Expressions) (s : Schema) (t : Table) (b : Body) : Option Table :=
  (X.compile s b).bind t.rewrite

theorem rewrite_inv {t t' : Table} {f : Row → Option Row} (h : t.rewrite f = some t') :
    (∀ r ∈ t.rows, (f r).isSome) ∧ ((rewritten f t.rows).map (·.id)).Nodup ∧
      t'.rows = rewritten f t.rows := by
  unfold Table.rewrite at h
  split at h
  · rename_i hc
    obtain rfl := Option.some.inj h
    exact ⟨hc.1, hc.2, rfl⟩
  · cases h

theorem rewrite_isSome {t : Table} {f : Row → Option Row} (hf : ∀ r ∈ t.rows, (f r).isSome)
    (hn : ((rewritten f t.rows).map (·.id)).Nodup) :
    ∃ t', t.rewrite f = some t' ∧ t'.rows = rewritten f t.rows := by
  unfold Table.rewrite
  rw [dif_pos ⟨hf, hn⟩]
  exact ⟨_, rfl, rfl⟩

/-- Ids stay and no row fails. -/
theorem rewrite_eq {t t' : Table} {f : Row → Option Row} {g : Row → Row} (hf : ∀ r ∈ t.rows, f r = some (g r))
    (hid : ∀ r ∈ t.rows, (g r).id = r.id) (hrows : t'.rows = t.rows.map g) (hseq : t'.seq = t.seq) :
    t.rewrite f = some t' := by
  have hw : rewritten f t.rows = t.rows.map g :=
    List.map_congr_left fun r hr => by rw [hf r hr, Option.getD_some]
  have hids : (rewritten f t.rows).map (·.id) = t.rows.map (·.id) := by
    rw [hw, List.map_map]
    exact List.map_congr_left hid
  have hn : ((rewritten f t.rows).map (·.id)).Nodup := by rw [hids]; exact t.nodup
  have hmax : ((rewritten f t.rows).map (·.id.val)).foldr max t.seq = t.seq := by
    refine Nat.le_antisymm (foldr_max_le (fun n hn => ?_) (Nat.le_refl _)) ?_
    · obtain ⟨r, hr, rfl⟩ := List.mem_map.mp hn
      have hm : r.id ∈ t.rows.map (·.id) := by
        rw [← hids]; exact List.mem_map.mpr ⟨r, hr, rfl⟩
      obtain ⟨r₀, hr₀, hid₀⟩ := List.mem_map.mp hm
      rw [← hid₀]
      exact t.id_le r₀ hr₀
    · exact le_foldr_max _ _
  obtain ⟨rows', seq', _, _, _⟩ := t'
  simp only at hrows hseq
  unfold Table.rewrite
  rw [dif_pos ⟨fun r hr => by rw [hf r hr]; rfl, hn⟩]
  rw [hw] at hmax
  simp only [hw, hmax, hrows, hseq]

/-! ## Constants -/

theorem Schema.target_column {s : Schema} (hs : s.WellNamed) {c : Text} {k : Kind}
    (h : (c, k) ∈ s.columns) : s.target (.word c) = some (.column c k) := hs (c, k) h

section
variable (X : Expressions) {s : Schema}

theorem targets_const (hs : s.WellNamed) {sets : Assignments}
    (h : ∀ x ∈ sets, (x.1, x.2.kind) ∈ s.columns) :
    X.targets s (sets.map fun x => (.word x.1, [.const x.2])) =
      some (sets.map fun x => (.column x.1 x.2.kind, [.const x.2])) := by
  induction sets with
  | nil => rfl
  | cons x sets ih =>
    have hx : s.target (.word x.1) = some (.column x.1 x.2.kind) :=
      Schema.target_column hs (h x List.mem_cons_self)
    rw [List.map_cons, Expressions.targets, if_pos (X.isExpr_const s x.2), hx, Option.bind_some,
      ih fun y hy => h y (List.mem_cons_of_mem _ hy)]
    rfl

theorem rightmost_of_nodup {sets : List (Target × List Token)} (h : (sets.map (·.1)).Nodup) :
    rightmost sets = sets := by
  induction sets with
  | nil => rfl
  | cons x sets ih =>
    rw [List.map_cons, List.nodup_cons] at h
    rw [rightmost, if_neg h.1, ih h.2]

theorem lookup_cons_ite (c d : Text) (v : Const) (sets : Assignments) :
    ((c, v) :: sets).lookup d = if d = c then some v else sets.lookup d := by
  by_cases hd : d = c
  · subst hd
    rw [List.lookup_cons_self, if_pos rfl]
  · rw [List.lookup_cons, beq_eq_false_iff_ne.mpr hd, if_neg hd]

/-- One constant after the other. -/
theorem assign_cons {c : Text} {v : Const} {sets : Assignments} (h : c ∉ sets.map (·.1)) (r : Row) :
    assign ((c, v) :: sets) r = assign sets (assign [(c, v)] r) := by
  simp only [assign, lookup_cons_ite, List.lookup_nil]
  congr 1
  · funext d
    by_cases hd : d = c
    · subst hd
      simp only [if_true, lookup_eq_none h]
    · simp only [if_neg hd]
  · funext d
    by_cases hd : d = c
    · subst hd
      simp only [if_true, lookup_eq_none h]
    · simp only [if_neg hd]

theorem set_const (x : Text × Const) (r acc : Row) :
    X.set s r acc (.column x.1 x.2.kind, [.const x.2]) = some (assign [x] acc) := by
  obtain ⟨c, v⟩ := x
  cases v with
  | text w =>
    simp only [Const.kind, Expressions.set, X.text_const, Option.map_some, assign, lookup_cons_ite,
      List.lookup_nil]
    congr 2
    · funext d
      by_cases hd : d = c
      · subst hd; simp
      · simp [hd]
    · funext d
      by_cases hd : d = c
      · simp [hd]
      · simp [hd]
  | int i =>
    simp only [Const.kind, Expressions.set, X.int_const, Option.map_some, assign, lookup_cons_ite,
      List.lookup_nil]
    congr 2
    · funext d
      by_cases hd : d = c
      · simp [hd]
      · simp [hd]
    · funext d
      by_cases hd : d = c
      · subst hd; simp
      · simp [hd]

theorem assigned_const {sets : Assignments} (h : (sets.map (·.1)).Nodup) (r : Row) :
    X.assigned s (sets.map fun x => (.column x.1 x.2.kind, [.const x.2])) r =
      some (assign sets r) := by
  have hfold (acc : Row) :
      (sets.map fun x => (Target.column x.1 x.2.kind, [Token.const x.2])).foldlM (X.set s r) acc =
        some (assign sets acc) := by
    induction sets generalizing acc with
    | nil => rfl
    | cons x sets ih =>
      rw [List.map_cons, List.nodup_cons] at h
      rw [List.map_cons, List.foldlM_cons, set_const, assign_cons h.1]
      exact ih h.2 _
  have hn : ((sets.map fun x => (Target.column x.1 x.2.kind, [Token.const x.2])).map (·.1)).Nodup := by
    rw [List.map_map]
    refine List.Nodup.of_map (fun t => match t with | .column c _ => c | .key => []) ?_
    rw [List.map_map]
    exact h
  rw [Expressions.assigned, rightmost_of_nodup hn]
  exact hfold r

theorem rewrite_const {sets : Assignments} {cond : Option (Text × Const)} (ha : s.Assigns sets)
    (hc : s.Selects cond) (r : Row) :
    X.rewrite s (sets.map fun x => (.column x.1 x.2.kind, [.const x.2]))
        (cond.map fun x => [.word x.1, .sign '=', .const x.2]) r =
      some (if hit cond r then assign sets r else r) := by
  cases cond with
  | none => exact assigned_const X ha.1 r
  | some x =>
    obtain ⟨c, v⟩ := x
    cases v with
    | text w => exact hc.elim
    | int i =>
      obtain rfl : c = s.key := hc
      have hh : X.holds s r [.word s.key, .sign '=', .const (.int i)] =
          some (decide ((r.id.val : Int) = i)) := X.holds_key s r i
      simp only [Option.map_some, Expressions.rewrite, hh, Option.bind_some, hit]
      by_cases hi : (r.id.val : Int) = i
      · simp only [hi, decide_true, if_true]
        exact assigned_const X ha.1 r
      · simp only [hi, decide_false, Bool.false_eq_true, if_false]

/-- An update of constants is what is documented. -/
theorem update_eq (hs : s.WellNamed) {t t' : Table} {sets : Assignments} {cond : Option (Text × Const)}
    (h : t.update s sets cond = some t') :
    X.update s t ⟨sets.map fun x => (.word x.1, [.const x.2]),
      cond.map fun x => [.word x.1, .sign '=', .const x.2]⟩ = some t' := by
  obtain ⟨ha, hc, hrows⟩ := update_inv h
  have hcond : ((cond.map fun x => [Token.word x.1, .sign '=', .const x.2]).map
      (X.isExpr s)).getD true = true := by
    cases cond with
    | none => rfl
    | some x =>
      obtain ⟨c, v⟩ := x
      cases v with
      | text w => exact hc.elim
      | int i =>
        obtain rfl : c = s.key := hc
        exact X.isExpr_key s i
  rw [Expressions.update, Expressions.compile, if_pos hcond, targets_const X hs ha.2, Option.map_some,
    Option.bind_some]
  have hf : (X.rewrite s (sets.map fun x => (.column x.1 x.2.kind, [.const x.2]))
      (cond.map fun x => [.word x.1, .sign '=', .const x.2])) =
        fun r => some (if hit cond r then assign sets r else r) :=
    funext (rewrite_const X ha hc)
  rw [hf]
  refine rewrite_eq (fun _ _ => rfl) ?_ hrows (seq_update h)
  intro r hr
  split <;> rfl

end

/-! ## An update of one row -/

/-- From `rows` to `rows'` no row but `k` changed, and no `kept` column of any. -/
structure Unmoved (k : RowId) (kept : List Text) (rows rows' : List Row) : Prop where
  others : rows'.filter (fun r => r.id ≠ k) = rows.filter fun r => r.id ≠ k
  columns : ∀ c ∈ kept, rows'.map (fun r => (r.id, r.int c)) = rows.map fun r => (r.id, r.int c)

theorem Unmoved.refl (k : RowId) (kept : List Text) (rows : List Row) : Unmoved k kept rows rows :=
  ⟨rfl, fun _ _ => rfl⟩

/-- Row `k`, where `f` is no error for it, keeps its id and the `kept` columns;
next to it every other row stays as it is, is an error, or takes its id. -/
structure Confined (k : RowId) (kept : List Text) (f : Row → Option Row) : Prop where
  own : ∀ r r', r.id = k → f r = some r' → r'.id = k ∧ ∀ c ∈ kept, r'.int c = r.int c
  others : ∀ r r' x x', r.id = k → f r = some r' → x.id ≠ k → f x = some x' → x'.id ≠ k → x' = x

/-- A table with two rows. -/
def pair (r r' : Row) (h : r.id ≠ r'.id) : Table where
  rows := [r, r']
  seq := max r.id.val r'.id.val
  nodup := by simp [h]
  id_le := by
    intro x hx
    rcases List.mem_cons.mp hx with rfl | hx
    · omega
    · rw [List.mem_singleton.mp hx]; omega
  seq_le := Nat.max_le.mpr ⟨r.id.le, r'.id.le⟩

section
variable {k : RowId} {kept : List Text} {f : Row → Option Row}

theorem unmoved_of_confined (h : Confined k kept f) {t t' : Table} (ht : t.rewrite f = some t')
    (hk : ∃ r ∈ t.rows, r.id = k) : Unmoved k kept t.rows t'.rows := by
  obtain ⟨hf, hn, hrows⟩ := rewrite_inv ht
  obtain ⟨r₀, hr₀, hid₀⟩ := hk
  have hg : ∀ r ∈ t.rows, f r = some ((f r).getD r) := by
    intro r hr
    obtain ⟨r', hr'⟩ := Option.isSome_iff_exists.mp (hf r hr)
    rw [hr', Option.getD_some]
  have hown := h.own r₀ _ hid₀ (hg r₀ hr₀)
  -- a row that took the id of row `k` would be a second one with it
  have hinj : ∀ r ∈ t.rows, ((f r).getD r).id = k → r = r₀ := by
    intro r hr hid
    rw [rewritten, List.map_map] at hn
    refine List.inj_on_of_nodup_map hn hr hr₀ ?_
    simp only [Function.comp_apply, hid, hown.1]
  have hother : ∀ r ∈ t.rows, r.id ≠ k → (f r).getD r = r := by
    intro r hr hid
    refine h.others r₀ _ r _ hid₀ (hg r₀ hr₀) hid (hg r hr) fun hk' => hid ?_
    rw [hinj r hr hk', hid₀]
  have hsame : ∀ r ∈ t.rows, r.id = k → ((f r).getD r).id = k ∧ ∀ c ∈ kept, ((f r).getD r).int c = r.int c :=
    fun r hr hid => h.own r _ hid (hg r hr)
  rw [hrows, rewritten]
  constructor
  · rw [List.filter_map]
    have hp : ∀ r ∈ t.rows, ((fun r : Row => decide (r.id ≠ k)) ∘ fun r => (f r).getD r) r =
        decide (r.id ≠ k) := by
      intro r hr
      by_cases hid : r.id = k
      · simp only [Function.comp_apply, (hsame r hr hid).1, hid]
      · simp only [Function.comp_apply, hother r hr hid]
    rw [List.filter_congr hp]
    calc (t.rows.filter fun r => decide (r.id ≠ k)).map (fun r => (f r).getD r)
        = (t.rows.filter fun r => decide (r.id ≠ k)).map id := by
          refine List.map_congr_left fun r hr => ?_
          obtain ⟨hm, hid⟩ := List.mem_filter.mp hr
          exact hother r hm (of_decide_eq_true hid)
      _ = t.rows.filter fun r => decide (r.id ≠ k) := List.map_id _
  · intro c hc
    rw [List.map_map]
    refine List.map_congr_left fun r hr => ?_
    by_cases hid : r.id = k
    · obtain ⟨hi, hkept⟩ := hsame r hr hid
      simp only [Function.comp_apply, hi, hid, hkept c hc]
    · simp only [Function.comp_apply, hother r hr hid]

theorem confined_of_unmoved
    (h : ∀ t t' : Table, (∃ r ∈ t.rows, r.id = k) → t.rewrite f = some t' → Unmoved k kept t.rows t'.rows) :
    Confined k kept f := by
  have hown : ∀ r r', r.id = k → f r = some r' → r'.id = k ∧ ∀ c ∈ kept, r'.int c = r.int c := by
    intro r r' hid hr
    have hrows : rewritten f (Table.single r).rows = [r'] := by
      simp only [rewritten, Table.single, List.map_cons, List.map_nil, hr, Option.getD_some]
    obtain ⟨t', ht, hrows'⟩ := rewrite_isSome (t := .single r) (f := f)
      (by intro x hx; rw [List.mem_singleton.mp hx, hr]; rfl)
      (by rw [hrows]; exact List.nodup_singleton _)
    have hu := h _ t' ⟨r, List.mem_singleton.mpr rfl, hid⟩ ht
    rw [hrows', hrows] at hu
    constructor
    · have ho := hu.others
      by_contra hne
      simp only [Table.single, List.filter_cons, List.filter_nil, hid, ne_eq, not_true, decide_false,
        hne, not_false_iff, decide_true, if_true, Bool.false_eq_true, if_false] at ho
      cases ho
    · intro c hc
      have hcol := hu.columns c hc
      simp only [Table.single, List.map_cons, List.map_nil, List.cons.injEq, Prod.mk.injEq,
        and_true] at hcol
      exact hcol.2
  refine ⟨hown, fun r r' x x' hid hr hx hx' hk => ?_⟩
  have hid' : r'.id = k := (hown r r' hid hr).1
  have hne : r.id ≠ x.id := by rw [hid]; exact Ne.symm hx
  have hrows : rewritten f (pair r x hne).rows = [r', x'] := by
    simp only [rewritten, pair, List.map_cons, List.map_nil, hr, hx', Option.getD_some]
  obtain ⟨t', ht, hrows'⟩ := rewrite_isSome (t := pair r x hne) (f := f)
    (by
      intro y hy
      rcases List.mem_cons.mp hy with rfl | hy
      · rw [hr]; rfl
      · rw [List.mem_singleton.mp hy, hx']; rfl)
    (by
      rw [hrows]
      simpa [hid'] using fun he : k = x'.id => hk he.symm)
  have hu := (h _ t' ⟨r, List.mem_cons_self, hid⟩ ht).others
  rw [hrows', hrows] at hu
  simp only [pair, List.filter_cons, List.filter_nil, hid, hid', hx, hk, ne_eq, not_true, decide_false,
    not_false_iff, decide_true, if_true, Bool.false_eq_true, if_false] at hu
  exact (List.cons.inj hu).1

theorem rewrite_iff :
    (∀ t : Table, (∃ r ∈ t.rows, r.id = k) → Unmoved k kept t.rows ((t.rewrite f).getD t).rows) ↔
      Confined k kept f := by
  constructor
  · intro h
    refine confined_of_unmoved fun t t' hk ht => ?_
    have hu := h t hk
    rw [ht] at hu
    exact hu
  · intro h t hk
    cases ht : t.rewrite f with
    | none => exact Unmoved.refl k kept t.rows
    | some t' => exact unmoved_of_confined h ht hk

end

/-! ## Where the condition is still on the id -/

/-- The name of a column that need not be kept. -/
def Schema.Free (s : Schema) (kept : List Text) (n : Token) : Prop :=
  ∃ c κ, s.target n = some (.column c κ) ∧ c ∉ kept

theorem targets_inv {X : Expressions} {s : Schema} {sets : List (Token × List Token)}
    {ts : List (Target × List Token)} (h : X.targets s sets = some ts) :
    ∀ y ∈ ts, ∃ x ∈ sets, s.target x.1 = some y.1 := by
  induction sets generalizing ts with
  | nil =>
    obtain rfl := Option.some.inj h
    intro y hy; cases hy
  | cons x sets ih =>
    obtain ⟨n, e⟩ := x
    rw [Expressions.targets] at h
    split at h
    · rw [Option.bind_eq_some_iff] at h
      obtain ⟨y₀, hy₀, h⟩ := h
      rw [Option.map_eq_some_iff] at h
      obtain ⟨us, hus, rfl⟩ := h
      intro y hy
      rcases List.mem_cons.mp hy with rfl | hy
      · exact ⟨(n, e), List.mem_cons_self, hy₀⟩
      · obtain ⟨x, hx, hxy⟩ := ih hus y hy
        exact ⟨x, List.mem_cons_of_mem _ hx, hxy⟩
    · cases h

theorem mem_rightmost {sets : List (Target × List Token)} {x : Target × List Token}
    (h : x ∈ rightmost sets) : x ∈ sets := by
  induction sets with
  | nil => cases h
  | cons y sets ih =>
    rw [rightmost] at h
    split at h
    · exact List.mem_cons_of_mem _ (ih h)
    · rcases List.mem_cons.mp h with rfl | h
      · exact List.mem_cons_self
      · exact List.mem_cons_of_mem _ (ih h)

/-- Assignments to columns keep the id and all other columns. -/
theorem foldlM_set {X : Expressions} {s : Schema} {kept : List Text} {sets : List (Target × List Token)}
    (h : ∀ x ∈ sets, ∃ c κ, x.1 = .column c κ ∧ c ∉ kept) {r acc r' : Row}
    (hr : sets.foldlM (X.set s r) acc = some r') :
    r'.id = acc.id ∧ ∀ c ∈ kept, r'.int c = acc.int c := by
  induction sets generalizing acc with
  | nil =>
    obtain rfl := Option.some.inj hr
    exact ⟨rfl, fun _ _ => rfl⟩
  | cons x sets ih =>
    rw [List.foldlM_cons] at hr
    obtain ⟨acc', hset, hr⟩ := Option.bind_eq_some_iff.mp hr
    obtain ⟨hid, hint⟩ := ih (fun y hy => h y (List.mem_cons_of_mem _ hy)) hr
    obtain ⟨c, κ, hx, hc⟩ := h x List.mem_cons_self
    obtain ⟨n, e⟩ := x
    obtain rfl : n = .column c κ := hx
    have hstep : acc'.id = acc.id ∧ ∀ d, d ≠ c → acc'.int d = acc.int d := by
      cases κ with
      | text =>
        rw [Expressions.set, Option.map_eq_some_iff] at hset
        obtain ⟨v, -, rfl⟩ := hset
        exact ⟨rfl, fun _ _ => rfl⟩
      | int =>
        rw [Expressions.set, Option.map_eq_some_iff] at hset
        obtain ⟨i, -, rfl⟩ := hset
        exact ⟨rfl, fun d hd => Function.update_of_ne hd _ _⟩
    refine ⟨hid.trans hstep.1, fun d hd => ?_⟩
    rw [hint d hd]
    refine hstep.2 d fun heq => hc ?_
    rwa [← heq]

theorem confined_of_key {X : Expressions} {s : Schema} {k : RowId} {kept : List Text} {b : Body}
    {f : Row → Option Row} (hb : X.compile s b = some f) (hk : b.cond = some (keyIs s.key k.val))
    (hfree : ∀ x ∈ b.sets, s.Free kept x.1) : Confined k kept f := by
  rw [Expressions.compile] at hb
  split at hb
  · rw [Option.map_eq_some_iff] at hb
    obtain ⟨sets, hsets, rfl⟩ := hb
    have hcols : ∀ x ∈ sets, ∃ c κ, x.1 = .column c κ ∧ c ∉ kept := by
      intro y hy
      obtain ⟨x, hx, hxy⟩ := targets_inv hsets y hy
      obtain ⟨c, κ, hc, hkept⟩ := hfree x hx
      rw [hc] at hxy
      exact ⟨c, κ, (Option.some.inj hxy).symm, hkept⟩
    have hrow (r : Row) : X.rewrite s sets b.cond r =
        if r.id = k then X.assigned s sets r else some r := by
      have hdec : decide ((r.id.val : Int) = k.val) = decide (r.id = k) :=
        decide_eq_decide.mpr ⟨RowId.eq_of_natCast, fun h => by rw [h]⟩
      simp only [Expressions.rewrite, hk, X.holds_key, Option.bind_some, hdec, decide_eq_true_eq]
    refine ⟨fun r r' hid hr => ?_, fun r r' x x' _ _ hx hx' _ => ?_⟩
    · rw [hrow, if_pos hid] at hr
      have hset := foldlM_set (fun x hx => hcols x (mem_rightmost hx)) hr
      exact ⟨hset.1.trans hid, hset.2⟩
    · rw [hrow, if_neg hx] at hx'
      exact (Option.some.inj hx').symm
  · cases hb

/-! ## Raw fields -/

/-- The literal a raw text is the start of, its value so far and what stands
behind it. -/
inductive Ending where
  | whole (v : Text)
  | cut
  | early (v rest : Text)
  deriving DecidableEq, Repr

def Ending.cons (c : Char) : Ending → Ending
  | .whole v => .whole (c :: v)
  | .cut => .cut
  | .early v rest => .early (c :: v) rest

/-- `whole`: it takes the apostrophe that follows the text to end it. `cut`: a
NUL in it ends the statement. `early`: an apostrophe that is not doubled in the
text ends it. -/
def ending : Text → Ending
  | [] => .whole []
  | '\'' :: '\'' :: f => (ending f).cons '\''
  | c :: f =>
    if c = '\'' then .early [] f
    else if c = Char.ofNat 0 then .cut
    else (ending f).cons c

theorem cString_cons {c : Char} (hc : c ≠ Char.ofNat 0) (s : Text) : cString (c :: s) = c :: cString s := by
  have hn : Char.ofNat 0 ∉ [c] := by
    rw [List.mem_singleton]; exact fun h => hc h.symm
  exact cString_append hn s

/-- The tokens of `w`, read in the literal before, the text and `s`. -/
def Ending.lex (w s : Text) : Ending → Option (List Token)
  | .whole v => Sql.lex (.litQuote (w ++ v)) (cString s)
  | .cut => none
  | .early v rest => Sql.lex (.litQuote (w ++ v)) (cString (rest ++ '\'' :: s))

theorem Ending.lex_cons (e : Ending) (c : Char) (w s : Text) :
    (e.cons c).lex w s = e.lex (w ++ [c]) s := by
  cases e with
  | whole v => simp only [Ending.cons, Ending.lex, List.append_assoc, List.singleton_append]
  | cut => rfl
  | early v rest => simp only [Ending.cons, Ending.lex, List.append_assoc, List.singleton_append]

theorem ending_of_ne {c : Char} {f : Text} (h : ∀ g, c = '\'' → f = '\'' :: g → False) :
    ending (c :: f) =
      if c = '\'' then .early [] f else if c = Char.ofNat 0 then .cut else (ending f).cons c := by
  rw [ending]
  exact h

/-- A raw text between apostrophes. -/
theorem lex_lit_ending (f w s : Text) :
    lex (.lit w) (cString (f ++ '\'' :: s)) = (ending f).lex w s := by
  have hq : '\'' ≠ Char.ofNat 0 := by decide
  have hend (w u : Text) : lex (.lit w) ('\'' :: u) = lex (.litQuote w) u := by
    rw [lex_cons]
    simp [next]
  induction f using ending.induct generalizing w with
  | case1 => rw [ending, List.nil_append, cString_cons hq, hend, Ending.lex, List.append_nil]
  | case2 f ih =>
    rw [ending, Ending.lex_cons, ← ih, List.cons_append, List.cons_append, cString_cons hq,
      cString_cons hq, hend, lex_cons]
    simp [next]
  | case3 f hf =>
    rw [ending_of_ne hf, if_pos rfl, List.cons_append, cString_cons hq, hend, Ending.lex, List.append_nil]
  | case4 f hf hc =>
    rw [ending_of_ne hf, if_neg hc, if_pos rfl]
    have hcut : cString (Char.ofNat 0 :: f ++ '\'' :: s) = [] := by
      rw [List.cons_append, cString, List.takeWhile_cons_of_neg (by decide)]
    rw [hcut]
    rfl
  | case5 c f hf hc h0 ih =>
    have hlit (u : Text) : lex (.lit w) (c :: u) = lex (.lit (w ++ [c])) u := by
      rw [lex_cons]
      simp [next, hc]
    rw [ending_of_ne hf, if_neg hc, if_neg h0, Ending.lex_cons, ← ih, List.cons_append, cString_cons h0,
      hlit]

theorem lex_litQuote_follows {s : Text} (hs : Follows s) (v : Text) :
    lex (.litQuote v) (cString s) = (lex .start (cString s)).map (.const (.text v) :: ·) := by
  obtain ⟨c, r, hr, hq, -⟩ := hs.cString
  rw [hr, lex_litQuote hq]

/-! ## Fields between apostrophes -/

section
variable (X : Expressions) (s : Schema) (k : RowId) (kept : List Text)

/-- The tokens behind `n =` and the assignments `done`: no statement that
compiles, or a confined one. -/
def Expressions.Confines (done : List (Token × List Token)) (n : Text) (ts : Option (List Token)) : Prop :=
  ∀ b f, ts.bind (readBody (.word n) [] 0) = some b → X.compile s (b.prepend done) = some f →
    Confined k kept f

/-- The first field that does not end with its own apostrophe decides: by a
NUL, or by what stands behind the apostrophe that ends it, up to `tail`. -/
def Expressions.Contained (tail : Text) : List (Token × List Token) → List (Text × Text) → Prop
  | _, [] => True
  | done, (c, f) :: l =>
    match ending f with
    | .whole v => Expressions.Contained tail (done ++ [(.word c, [.const (.text v)])]) l
    | .cut => True
    | .early v rest =>
      X.Confines s k kept done c (lex (.litQuote v) (cString (rest ++ '\'' :: moreSets l tail)))

end

section
variable {X : Expressions} {s : Schema} {k : RowId} {kept : List Text}

theorem confines_none (done : List (Token × List Token)) (n : Text) :
    X.Confines s k kept done n none := by
  intro b f hb
  cases hb

/-- Past a field that is read as a literal. -/
theorem confines_cons {done : List (Token × List Token)} {n c f : Text} {e : List Token} (hc : IsName c)
    (u : Text) :
    (∀ b g, (lex .start (cString (setHead c ++ quoted f u))).bind (readBody (.word n) e 0) = some b →
        X.compile s (b.prepend done) = some g → Confined k kept g) ↔
      X.Confines s k kept (done ++ [(.word n, e)]) c (lex .start (cString (quoted f u))) := by
  have hx : Opens (setHead c) [.sign ',', .word c, .sign '='] := hc
  rw [hx.lex_append]
  cases lex .start (cString (quoted f u)) with
  | none => exact ⟨fun _ => confines_none _ _, fun _ b g hb => by cases hb⟩
  | some ts =>
    simp only [Option.map_some, Option.bind_some, List.cons_append, List.nil_append, readBody_comma,
      Option.map_eq_some_iff, Expressions.Confines]
    constructor
    · intro h b g hb hg
      refine h (b.prepend [(.word n, e)]) g ⟨b, hb, rfl⟩ ?_
      rw [Body.prepend, Body.prepend, ← List.append_assoc]
      exact hg
    · intro h b g hb hg
      obtain ⟨b', hb', rfl⟩ := hb
      refine h b' g hb' ?_
      rw [Body.prepend, Body.prepend, ← List.append_assoc] at hg
      exact hg

/-- Past an integer before the fields. -/
theorem confines_int {n : Text} {i : Int} (hi : i.natAbs ≤ maxInt) {x : Text × Text} (hc : IsName x.1)
    {l : List (Text × Text)} {tail : Text} (htail : Stops tail) :
    X.Confines s k kept [] n (lex .start (cString (intText i ++ moreSets (x :: l) tail))) ↔
      X.Confines s k kept [(.word n, [.const (.int i)])] x.1
        (lex .start (cString (quoted x.2 (moreSets l tail)))) := by
  have hcons := @confines_cons X s k kept [] n x.1 x.2 [.const (.int i)] hc (moreSets l tail)
  refine Iff.trans ?_ hcons
  rw [lex_int i (stops_moreSets htail (x :: l)), ofWord_intText hi, moreSets, Expressions.Confines]
  cases lex .start (cString (setHead x.1 ++ quoted x.2 (moreSets l tail))) with
  | none => exact Iff.rfl
  | some ts => exact Iff.rfl

theorem reads_iff {done : List (Token × List Token)} {l : List (Text × Text)} {c f : Text}
    (hwhere : Opens (whereHead s.key) [.word "where".toList, .word s.key, .sign '='])
    (hd : ∀ x ∈ done, s.Free kept x.1) (hl : ∀ x ∈ (c, f) :: l, s.Free kept (.word x.1))
    (hn : ∀ x ∈ l, IsName x.1) :
    X.Confines s k kept done c
        (lex .start (cString (quoted f (moreSets l (whereHead s.key ++ natText k.val))))) ↔
      X.Contained s k kept (whereHead s.key ++ natText k.val) done ((c, f) :: l) := by
  induction l generalizing done c f with
  | nil =>
    rw [lex_quoted_eq, lex_lit_ending, Expressions.Contained]
    cases ending f with
    | whole v =>
      refine ⟨fun _ => trivial, fun _ b g hb hg => ?_⟩
      have ht : lex .start (cString (whereHead s.key ++ natText k.val)) =
          some (.word "where".toList :: keyIs s.key k.val) := by
        rw [hwhere.lex_append, ← intText_natCast, lex_int_end, ofWord_intText k.natAbs_le]
        rfl
      rw [Ending.lex, List.nil_append, moreSets, lex_litQuote_follows (follows_whereHead s.key _), ht,
        Option.map_some, Option.bind_some, readBody_const, readBody_where] at hb
      obtain rfl := Option.some.inj hb
      refine confined_of_key hg rfl fun x hx => ?_
      rcases List.mem_append.mp hx with hx | hx
      · exact hd x hx
      · rw [List.mem_singleton.mp hx]
        exact hl (c, f) List.mem_cons_self
    | cut => exact ⟨fun _ => trivial, fun _ => confines_none _ _⟩
    | early v rest => exact Iff.rfl
  | cons x l ih =>
    rw [lex_quoted_eq, lex_lit_ending, Expressions.Contained]
    cases ending f with
    | whole v =>
      have hfree : ∀ y ∈ done ++ [(Token.word c, [Token.const (.text v)])], s.Free kept y.1 := by
        intro y hy
        rcases List.mem_append.mp hy with hy | hy
        · exact hd y hy
        · rw [List.mem_singleton.mp hy]
          exact hl (c, f) List.mem_cons_self
      have hrest := ih hfree (fun y hy => hl y (List.mem_cons_of_mem _ hy))
        fun y hy => hn y (List.mem_cons_of_mem _ hy)
      refine Iff.trans ?_ hrest
      have hfollows := follows_moreSets (follows_whereHead s.key (natText k.val)) (x :: l)
      rw [← confines_cons (hn x List.mem_cons_self), Ending.lex, List.nil_append,
        lex_litQuote_follows hfollows, moreSets, Expressions.Confines]
      cases lex .start (cString (setHead x.1 ++ quoted x.2 (moreSets l (whereHead s.key ++ natText k.val)))) with
      | none => exact Iff.rfl
      | some ts => exact Iff.rfl
    | cut => exact ⟨fun _ => trivial, fun _ => confines_none _ _⟩
    | early v rest => exact Iff.rfl

theorem ending_of_plain {f : Text} (hf : Plain f) : ending f = .whole f := by
  induction f with
  | nil => rfl
  | cons c f ih =>
    obtain ⟨hq, h0⟩ := hf
    rw [List.mem_cons, not_or] at hq h0
    rw [ending_of_ne fun g hc _ => hq.1 hc.symm, if_neg fun hc => hq.1 hc.symm,
      if_neg fun hc => h0.1 hc.symm, ih ⟨hq.2, h0.2⟩]
    rfl

/-- Clean fields decide nothing. -/
theorem contained_append {tail : Text} {l l' : List (Text × Text)} (h : ∀ x ∈ l, Plain x.2)
    (h' : ∀ done, X.Contained s k kept tail done l') (done : List (Token × List Token)) :
    X.Contained s k kept tail done (l ++ l') := by
  induction l generalizing done with
  | nil => exact h' done
  | cons x l ih =>
    rw [List.cons_append, Expressions.Contained, ending_of_plain (h x List.mem_cons_self)]
    exact ih (fun y hy => h y (List.mem_cons_of_mem _ hy)) _

theorem contained_of_plain {tail : Text} {l : List (Text × Text)} (h : ∀ x ∈ l, Plain x.2)
    (done : List (Token × List Token)) : X.Contained s k kept tail done l := by
  have hnil : ∀ done', X.Contained s k kept tail done' [] := fun _ => trivial
  rw [← List.append_nil l]
  exact contained_append h hnil done

/-- An expression that is begun is the first that is read. -/
theorem readBody_head {n : Token} {e ts : List Token} {d : Nat} {b : Body}
    (h : readBody n e d ts = some b) : ∃ e' xs, b.sets = (n, e ++ e') :: xs := by
  induction ts generalizing e d with
  | nil =>
    obtain rfl := Option.some.inj h
    exact ⟨[], [], by rw [List.append_nil]⟩
  | cons t ts ih =>
    have hgo {d' : Nat} (h' : readBody n (e ++ [t]) d' ts = some b) :
        ∃ e' xs, b.sets = (n, e ++ e') :: xs := by
      obtain ⟨e', xs, hb⟩ := ih h'
      exact ⟨t :: e', xs, by rw [hb, List.append_assoc, List.singleton_append]⟩
    cases t with
    | sign q =>
      unfold readBody at h
      split at h
      · exact hgo h
      · split at h
        · exact hgo h
        · split at h
          · split at h
            · split at h
              · obtain ⟨b', -, rfl⟩ := Option.map_eq_some_iff.mp h
                exact ⟨[], b'.sets, by rw [List.append_nil]; rfl⟩
              · cases h
            · cases h
          · exact hgo h
    | word w =>
      rw [readBody] at h
      split at h
      · obtain rfl := Option.some.inj h
        exact ⟨[], [], by rw [List.append_nil]⟩
      · exact hgo h
    | const v => exact hgo h
    | quoted v => exact hgo h

theorem targets_eq_none {done xs : List (Token × List Token)} {n : Token} {e : List Token}
    (h : X.isExpr s e = false) : X.targets s (done ++ (n, e) :: xs) = none := by
  induction done with
  | nil => rw [List.nil_append, Expressions.targets, if_neg (by rw [h]; decide)]
  | cons x done ih =>
    rw [List.cons_append, Expressions.targets, ih]
    split
    · cases s.target x.1 <;> rfl
    · rfl

theorem begin_word {c : Char} (h : isWordChar c = true) : begin c = (.word [c], []) := by
  have hn : ∀ d : Char, isWordChar d = false → c ≠ d := by
    intro d hd heq
    rw [← heq, h] at hd
    cases hd
  have hs : isSpace c = false := by
    simp only [isSpace, Bool.or_eq_false_iff, decide_eq_false_iff_not]
    exact ⟨⟨⟨⟨hn _ rfl, hn _ rfl⟩, hn _ rfl⟩, hn _ rfl⟩, hn _ rfl⟩
  have hq : (decide (c = '"') || decide (c = Char.ofNat 96)) = false := by
    simp only [Bool.or_eq_false_iff, decide_eq_false_iff_not]
    exact ⟨hn _ rfl, hn _ rfl⟩
  simp only [begin, hs, Bool.false_eq_true, if_false, if_neg (hn '\'' rfl), hq,
    if_neg (hn '[' rfl), if_neg (hn '-' rfl), if_neg (hn '/' rfl), if_neg (hn ';' rfl), h, if_true]

/-- A literal that ends before a word. -/
theorem lex_litQuote_word {w z : Text} (hw : ∀ c ∈ w, isWordChar c = true) (hne : w ≠ [])
    (hz : ∀ c r, z = c :: r → isWordChar c = false) (v : Text) {ts : List Token}
    (h : lex (.litQuote v) (w ++ z) = some ts) : ∃ us, ts = .const (.text v) :: ofWord w :: us := by
  obtain ⟨c, w', rfl⟩ := List.exists_cons_of_ne_nil hne
  have hc : isWordChar c = true := hw c List.mem_cons_self
  have hq : c ≠ '\'' := by
    intro heq
    rw [heq] at hc
    revert hc; decide
  have hw' : ∀ d ∈ w', isWordChar d = true := fun d hd => hw d (List.mem_cons_of_mem _ hd)
  have hrun : run .start (c :: w') = (.word (c :: w'), []) := by
    simp only [run, next, begin_word hc, run_word hw', List.nil_append, List.singleton_append]
  rw [List.cons_append, lex_litQuote hq, ← List.cons_append, lex_append, hrun, Option.map_map,
    Option.map_eq_some_iff] at h
  obtain ⟨us, hus, rfl⟩ := h
  cases z with
  | nil =>
    obtain rfl := Option.some.inj hus
    exact ⟨[], rfl⟩
  | cons d z =>
    have hd := hz d z rfl
    rw [lex_cons] at hus
    simp only [next, hd, Bool.false_eq_true, if_false, after, Option.map_eq_some_iff] at hus
    obtain ⟨us', -, rfl⟩ := hus
    exact ⟨_, rfl⟩

/-- An apostrophe before a word that is no operator leaves no statement. -/
theorem contained_of_word {tail : Text} {done : List (Token × List Token)} {l : List (Text × Text)}
    {c f v w u : Text} (hf : ending f = .early v (w ++ u)) (hw : ∀ c ∈ w, isWordChar c = true)
    (hne : w ≠ []) (hword : ofWord w = .word w) (hop : fold w ∉ "where".toList :: operators)
    (hu : ∀ c r, u = c :: r → isWordChar c = false) :
    X.Contained s k kept tail done ((c, f) :: l) := by
  rw [List.mem_cons, not_or] at hop
  rw [Expressions.Contained, hf]
  intro b g hb hg
  have h0 : Char.ofNat 0 ∉ w := by
    intro hm
    have := hw _ hm
    revert this; decide
  have hz : ∀ d r, cString (u ++ '\'' :: moreSets l tail) = d :: r → isWordChar d = false := by
    intro d r hd
    cases u with
    | nil =>
      rw [List.nil_append, cString_cons (by decide)] at hd
      rw [← (List.cons.inj hd).1]
      decide
    | cons d' u =>
      by_cases hd0 : d' = Char.ofNat 0
      · rw [hd0, List.cons_append, cString, List.takeWhile_cons_of_neg (by decide)] at hd
        cases hd
      · rw [List.cons_append, cString_cons hd0] at hd
        rw [← (List.cons.inj hd).1]
        exact hu d' u rfl
  rw [List.append_assoc, cString_append h0, Option.bind_eq_some_iff] at hb
  obtain ⟨ts, hts, hb⟩ := hb
  obtain ⟨us, rfl⟩ := lex_litQuote_word hw hne hz v hts
  have hwhere : readBody (.word c) [.const (.text v)] 0 (.word w :: us) =
      readBody (.word c) ([.const (.text v)] ++ [.word w]) 0 us := by
    rw [readBody, if_neg fun h => hop.1 h.1]
  rw [hword, readBody_const, List.nil_append, hwhere] at hb
  obtain ⟨e', xs, hsets⟩ := readBody_head hb
  have hnone : X.targets s (b.prepend done).sets = none := by
    rw [Body.prepend, hsets]
    exact targets_eq_none (X.isExpr_word s v w e' hop.2)
  rw [Expressions.compile, hnone] at hg
  split at hg
  · cases hg
  · cases hg

end

end MysqlConnection.Sql
