import MysqlConnection.Core.SqlTable

/-!
# Statements built from raw texts

A statement text with raw fields between apostrophes, read by the lexer and
the parser. `moreValues` and `moreSets` are the parts that repeat.

* `readValues_more`, `readSets_more`: fields without an apostrophe and NUL are
  read as they are.
* `plain_of_readValues`, `plain_of_readSets`: where the values read agree with
  the fields, column by column, no field has an apostrophe or NUL.
* `lex_moreValues_none`, `lex_moreSets_none`: fields without an apostrophe but
  with a NUL leave no statement.
* `readStatement`: a text with its first field, as a statement.
-/
namespace MysqlConnection.Sql

/-! ## One field -/

/-- The text `p` is complete before what follows; its tokens are `ts`. -/
def Opens (p : Text) (ts : List Token) : Prop := run .start p = (.start, ts) ∧ Char.ofNat 0 ∉ p

instance (p : Text) (ts : List Token) : Decidable (Opens p ts) := by
  unfold Opens; exact inferInstance

theorem Opens.lex_append {p : Text} {ts : List Token} (hp : Opens p ts) (s : Text) :
    lex .start (cString (p ++ s)) = (lex .start (cString s)).map (ts ++ ·) := by
  rw [cString_append hp.2, lex_append_start hp.1]

/-- The field `f` as a literal before `s`. -/
def quoted (f s : Text) : Text := '\'' :: (f ++ '\'' :: s)

theorem lex_quoted_eq (f s : Text) :
    lex .start (cString (quoted f s)) = lex (.lit []) (cString (f ++ '\'' :: s)) := by
  have h0 : Char.ofNat 0 ∉ ['\''] := by decide
  have hn : next .start '\'' = (.lit [], []) := by decide
  rw [quoted, show '\'' :: (f ++ '\'' :: s) = ['\''] ++ (f ++ '\'' :: s) from rfl,
    cString_append h0, List.singleton_append, lex_cons, hn]
  simp

theorem lex_quoted {f s : Text} (hf : Plain f) (hs : Follows s) :
    lex .start (cString (quoted f s)) = (lex .start (cString s)).map (.const (.text f) :: ·) := by
  rw [lex_quoted_eq, lex_literal hf hs]

theorem lex_quoted_inv {f s : Text} {ts : List Token} (hs : Follows s)
    (h : lex .start (cString (quoted f s)) = some ts) :
    ∃ v ts', ts = .const (.text v) :: ts' ∧
      (v = f → Plain f ∧ lex .start (cString s) = some ts') := by
  rw [lex_quoted_eq] at h
  exact lex_raw hs h

/-! ## The values of an insertion -/

/-- `,'f₁','f₂'…` before `tail`. -/
def moreValues : List Text → Text → Text
  | [], tail => tail
  | f :: fs, tail => ',' :: quoted f (moreValues fs tail)

theorem follows_moreValues {tail : Text} (h : Follows tail) (fs : List Text) :
    Follows (moreValues fs tail) := by
  cases fs with
  | nil => exact h
  | cons f fs => exact ⟨',', _, rfl, by decide, by decide⟩

def readValues (s : Text) : Option (List Const) := (lex .start (cString s)).bind valuesTail

theorem opens_comma : Opens [','] [.sign ','] := by decide

theorem readValues_cons {f s : Text} (hf : Plain f) (hs : Follows s) :
    readValues (',' :: quoted f s) = (readValues s).map (.text f :: ·) := by
  rw [readValues, ← List.singleton_append, opens_comma.lex_append, lex_quoted hf hs, readValues]
  cases lex .start (cString s) with
  | none => rfl
  | some ts => simp only [Option.map_some, Option.bind_some, List.singleton_append, valuesTail, if_true]

theorem readValues_more {tail : Text} (ht : Follows tail) {fs : List Text} (hf : ∀ f ∈ fs, Plain f) :
    readValues (moreValues fs tail) = (readValues tail).map (fs.map .text ++ ·) := by
  induction fs with
  | nil => simp [moreValues]
  | cons f fs ih =>
    rw [moreValues, readValues_cons (hf f List.mem_cons_self) (follows_moreValues ht fs),
      ih fun g hg => hf g (List.mem_cons_of_mem _ hg), Option.map_map]
    rfl

/-- The values read for the columns `l` agree with the fields. -/
theorem plain_of_readValues {tail : Text} (ht : Follows tail) (cs : List Text)
    {l : List (Text × Text)} {vs : List Const}
    (h : readValues (moreValues (l.map (·.2)) tail) = some vs)
    (hag : ∀ c f v, (c, f) ∈ l → (c, .text v) ∈ (l.map (·.1) ++ cs).zip vs → v = f) :
    ∀ x ∈ l, Plain x.2 := by
  induction l generalizing vs with
  | nil => intro x hx; cases hx
  | cons x l ih =>
    obtain ⟨c, f⟩ := x
    rw [readValues, Option.bind_eq_some_iff] at h
    obtain ⟨ts, hts, hvs⟩ := h
    rw [List.map_cons, moreValues, ← List.singleton_append, opens_comma.lex_append,
      Option.map_eq_some_iff] at hts
    obtain ⟨us, hus, rfl⟩ := hts
    obtain ⟨v, ts', rfl, hplain⟩ := lex_quoted_inv (follows_moreValues ht _) hus
    simp only [List.singleton_append, valuesTail, if_true, Option.map_eq_some_iff] at hvs
    obtain ⟨vs', hvs', rfl⟩ := hvs
    have hv : v = f := hag c f v List.mem_cons_self (by simp)
    obtain ⟨hf, hl⟩ := hplain hv
    have hread : readValues (moreValues (l.map (·.2)) tail) = some vs' := by
      rw [readValues, hl]; exact hvs'
    have hrest : ∀ x ∈ l, Plain x.2 := by
      apply ih hread
      intro d g w hd hw
      exact hag d g w (List.mem_cons_of_mem _ hd) (by simpa using Or.inr hw)
    intro x hx
    rcases List.mem_cons.mp hx with rfl | hx
    · exact hf
    · exact hrest x hx

/-! ## The assignments of an update -/

/-- `,c = ` -/
def setHead (c : Text) : Text := ',' :: (c ++ " = ".toList)

/-- `,c₁ = 'f₁',c₂ = 'f₂'…` before `tail`. -/
def moreSets : List (Text × Text) → Text → Text
  | [], tail => tail
  | x :: l, tail => setHead x.1 ++ quoted x.2 (moreSets l tail)

/-- `c` is read as a name in an assignment. -/
def IsName (c : Text) : Prop := Opens (setHead c) [.sign ',', .word c, .sign '=']

instance : DecidablePred IsName := fun c => by unfold IsName; exact inferInstance

theorem follows_moreSets {tail : Text} (h : Follows tail) (l : List (Text × Text)) :
    Follows (moreSets l tail) := by
  cases l with
  | nil => exact h
  | cons x l => exact ⟨',', _, rfl, by decide, by decide⟩

def readSets (s : Text) : Option (Assignments × Option (Text × Const)) :=
  (lex .start (cString s)).bind setsTail

/-- The fields as they should be read. -/
def literals (l : List (Text × Text)) : Assignments := l.map fun x => (x.1, .text x.2)

theorem setsTail_cons (c : Text) (v : Const) (ts : List Token) :
    setsTail (.sign ',' :: .word c :: .sign '=' :: .const v :: ts) =
      (setsTail ts).map fun r => ((c, v) :: r.1, r.2) := by
  simp only [setsTail, and_self, if_true]

theorem readSets_cons {c f s : Text} (hc : IsName c) (hf : Plain f) (hs : Follows s) :
    readSets (setHead c ++ quoted f s) = (readSets s).map fun r => ((c, .text f) :: r.1, r.2) := by
  rw [readSets, Opens.lex_append hc, lex_quoted hf hs, readSets]
  cases lex .start (cString s) with
  | none => rfl
  | some ts => exact setsTail_cons c (.text f) ts

theorem readSets_more {tail : Text} (ht : Follows tail) {l : List (Text × Text)}
    (hc : ∀ x ∈ l, IsName x.1) (hf : ∀ x ∈ l, Plain x.2) :
    readSets (moreSets l tail) = (readSets tail).map fun r => (literals l ++ r.1, r.2) := by
  induction l with
  | nil => simp [moreSets, literals]
  | cons x l ih =>
    rw [moreSets, readSets_cons (hc x List.mem_cons_self) (hf x List.mem_cons_self)
      (follows_moreSets ht l), ih (fun y hy => hc y (List.mem_cons_of_mem _ hy))
      (fun y hy => hf y (List.mem_cons_of_mem _ hy)), Option.map_map]
    rfl

/-- The assignments read agree with the fields. -/
theorem plain_of_readSets {tail : Text} (ht : Follows tail) {l : List (Text × Text)}
    (hc : ∀ x ∈ l, IsName x.1) {ss : Assignments} {k : Option (Text × Const)}
    (h : readSets (moreSets l tail) = some (ss, k))
    (hag : ∀ c f v, (c, f) ∈ l → (c, .text v) ∈ ss → v = f) : ∀ x ∈ l, Plain x.2 := by
  induction l generalizing ss with
  | nil => intro x hx; cases hx
  | cons x l ih =>
    have hx : Opens (setHead x.1) [.sign ',', .word x.1, .sign '='] := hc x List.mem_cons_self
    rw [readSets, moreSets, Option.bind_eq_some_iff] at h
    obtain ⟨ts, hts, hss⟩ := h
    rw [hx.lex_append, Option.map_eq_some_iff] at hts
    obtain ⟨us, hus, rfl⟩ := hts
    obtain ⟨v, ts', rfl, hplain⟩ := lex_quoted_inv (follows_moreSets ht l) hus
    rw [List.cons_append, List.cons_append, List.cons_append, List.nil_append, setsTail_cons,
      Option.map_eq_some_iff] at hss
    obtain ⟨⟨ss', k'⟩, hss', hr⟩ := hss
    obtain ⟨rfl, rfl⟩ := Prod.mk.inj hr
    have hv : v = x.2 := hag x.1 x.2 v List.mem_cons_self List.mem_cons_self
    obtain ⟨hf, hl⟩ := hplain hv
    have hread : readSets (moreSets l tail) = some (ss', k') := by
      rw [readSets, hl]; exact hss'
    have hrest : ∀ y ∈ l, Plain y.2 := by
      apply ih (fun y hy => hc y (List.mem_cons_of_mem _ hy)) hread
      intro c f w hd hw
      exact hag c f w (List.mem_cons_of_mem _ hd) (List.mem_cons_of_mem _ hw)
    intro y hy
    rcases List.mem_cons.mp hy with rfl | hy
    · exact hf
    · exact hrest y hy

/-! ## Integers -/

/-- A text that a number can be followed by. -/
def Stops (s : Text) : Prop := ∃ c r, s = c :: r ∧ isWordChar c = false ∧ c ≠ Char.ofNat 0

theorem stops_moreValues {tail : Text} (h : Stops tail) (fs : List Text) :
    Stops (moreValues fs tail) := by
  cases fs with
  | nil => exact h
  | cons f fs => exact ⟨',', _, rfl, by decide, by decide⟩

theorem stops_moreSets {tail : Text} (h : Stops tail) (l : List (Text × Text)) :
    Stops (moreSets l tail) := by
  cases l with
  | nil => exact h
  | cons x l => exact ⟨',', _, rfl, by decide, by decide⟩

theorem not_mem_intText (i : Int) : Char.ofNat 0 ∉ intText i := by
  have hnat (n : Nat) : Char.ofNat 0 ∉ natText n := by
    intro h
    exact absurd (isDigit_natText _ h) (by decide)
  cases i with
  | ofNat n => exact hnat n
  | negSucc n =>
    rw [intText, List.mem_cons, not_or]
    exact ⟨by decide, hnat (n + 1)⟩

theorem lex_int (i : Int) {s : Text} (hs : Stops s) :
    lex .start (cString (intText i ++ s)) =
      (lex .start (cString s)).map (ofWord (intText i) :: ·) := by
  obtain ⟨c, r, rfl, hc, h0⟩ := hs
  have hr : cString (c :: r) = c :: cString r := by
    have hn : Char.ofNat 0 ∉ [c] := by
      rw [List.mem_singleton]; exact fun h => h0 h.symm
    exact cString_append hn r
  rw [cString_append (not_mem_intText i), lex_append, run_intText, hr, lex_cons, lex_cons]
  simp only [next, hc, Bool.false_eq_true, if_false, after, List.nil_append, Option.map_map,
    Function.comp_def, List.cons_append]

theorem lex_int_end (i : Int) : lex .start (cString (intText i)) = some [ofWord (intText i)] := by
  have h := cString_append (not_mem_intText i) []
  rw [List.append_nil] at h
  rw [h, lex, show cString [] = [] from rfl, List.append_nil, run_intText]
  rfl

theorem ofWord_of_large {i : Int} (h : ¬ i.natAbs ≤ maxInt) : ofWord (intText i) = .word (intText i) := by
  simp only [ofWord, readInt_intText, if_neg h]

/-- ` where c = ` -/
def whereHead (c : Text) : Text := " where ".toList ++ (c ++ " = ".toList)

theorem follows_whereHead (c s : Text) : Follows (whereHead c ++ s) :=
  ⟨' ', _, rfl, by decide, by decide⟩

theorem stops_whereHead (c s : Text) : Stops (whereHead c ++ s) :=
  ⟨' ', _, rfl, by decide, by decide⟩

theorem readSets_where {c : Text}
    (hc : Opens (whereHead c) [.word "where".toList, .word c, .sign '=']) {i : Int}
    (hi : i.natAbs ≤ maxInt) : readSets (whereHead c ++ intText i) = some ([], some (c, .int i)) := by
  rw [readSets, hc.lex_append, lex_int_end, ofWord_intText hi]
  simp [setsTail, condition]

/-! ## A NUL in a field -/

/-- A NUL cuts the statement off inside a literal, if no apostrophe is in
front of it. -/
theorem lex_quoted_none {f : Text} (hq : '\'' ∉ f) (hf : ¬ Plain f) (s : Text) :
    lex .start (cString (quoted f s)) = none := by
  have h0 : Char.ofNat 0 ∈ f := by
    by_contra h0
    exact hf ⟨hq, h0⟩
  obtain ⟨a, b, rfl, ha⟩ := List.eq_append_cons_of_mem h0
  have hcut : cString (a ++ Char.ofNat 0 :: b ++ '\'' :: s) = a := by
    rw [List.append_assoc, cString_append ha, List.cons_append]
    simp [cString]
  have hqa : '\'' ∉ a := fun h => hq (List.mem_append_left _ h)
  rw [lex_quoted_eq, hcut, lex, run_lit hqa]
  rfl

theorem lex_moreValues_none {tail : Text} (ht : Follows tail) {fs : List Text}
    (hq : ∀ f ∈ fs, '\'' ∉ f) (hf : ¬ ∀ f ∈ fs, Plain f) :
    lex .start (cString (moreValues fs tail)) = none := by
  induction fs with
  | nil => exact absurd (by intro f hm; cases hm) hf
  | cons f fs ih =>
    rw [moreValues, ← List.singleton_append, opens_comma.lex_append]
    by_cases hp : Plain f
    · rw [lex_quoted hp (follows_moreValues ht fs), ih (fun g hg => hq g (List.mem_cons_of_mem _ hg))]
      · rfl
      · intro hall
        exact hf (List.forall_mem_cons.mpr ⟨hp, hall⟩)
    · rw [lex_quoted_none (hq f List.mem_cons_self) hp]
      rfl

theorem lex_moreSets_none {tail : Text} (ht : Follows tail) {l : List (Text × Text)}
    (hc : ∀ x ∈ l, IsName x.1) (hq : ∀ x ∈ l, '\'' ∉ x.2) (hf : ¬ ∀ x ∈ l, Plain x.2) :
    lex .start (cString (moreSets l tail)) = none := by
  induction l with
  | nil => exact absurd (by intro x hm; cases hm) hf
  | cons x l ih =>
    have hx : Opens (setHead x.1) [.sign ',', .word x.1, .sign '='] := hc x List.mem_cons_self
    rw [moreSets, hx.lex_append]
    by_cases hp : Plain x.2
    · rw [lex_quoted hp (follows_moreSets ht l), ih (fun y hy => hc y (List.mem_cons_of_mem _ hy))
        (fun y hy => hq y (List.mem_cons_of_mem _ hy))]
      · rfl
      · intro hall
        exact hf (List.forall_mem_cons.mpr ⟨hp, hall⟩)
    · rw [lex_quoted_none (hq x List.mem_cons_self) hp]
      rfl

/-! ## Statements -/

def readStatement (s : Text) : Option Statement := (tokens s).bind parse

/-- `update t set c =` -/
def updateTokens (t c : Text) : List Token :=
  [.word "update".toList, .word t, .word "set".toList, .word c, .sign '=']

theorem parse_update (t c : Text) (v : Const) (ts : List Token) :
    parse (updateTokens t c ++ .const v :: ts) =
      (setsTail ts).map fun r => .update t ((c, v) :: r.1) r.2 := by
  have h1 : "update".toList ≠ "insert".toList := by decide
  simp only [updateTokens, List.cons_append, List.nil_append, parse, if_neg h1, if_true,
    parseUpdate, and_self]

theorem readStatement_update {t c p : Text} (hp : Opens p (updateTokens t c)) {f s : Text}
    (hf : Plain f) (hs : Follows s) :
    readStatement (p ++ quoted f s) =
      (readSets s).map fun r => .update t ((c, .text f) :: r.1) r.2 := by
  rw [readStatement, tokens, hp.lex_append, lex_quoted hf hs, readSets]
  cases lex .start (cString s) with
  | none => rfl
  | some ts => exact parse_update t c (.text f) ts

theorem readStatement_update_inv {t c p : Text} (hp : Opens p (updateTokens t c)) {f s : Text}
    (hs : Follows s) {stmt : Statement} (h : readStatement (p ++ quoted f s) = some stmt) :
    ∃ v ss k, stmt = .update t ((c, .text v) :: ss) k ∧
      (v = f → Plain f ∧ readSets s = some (ss, k)) := by
  rw [readStatement, Option.bind_eq_some_iff] at h
  obtain ⟨ts, hts, hst⟩ := h
  rw [tokens, hp.lex_append, Option.map_eq_some_iff] at hts
  obtain ⟨us, hus, rfl⟩ := hts
  obtain ⟨v, ts', rfl, hplain⟩ := lex_quoted_inv hs hus
  rw [parse_update, Option.map_eq_some_iff] at hst
  obtain ⟨⟨ss, k⟩, hss, rfl⟩ := hst
  refine ⟨v, ss, k, rfl, fun hv => ?_⟩
  obtain ⟨hf, hl⟩ := hplain hv
  exact ⟨hf, by rw [readSets, hl]; exact hss⟩

/-- An assignment of an integer first. -/
theorem readStatement_updateInt {t c p : Text} (hp : Opens p (updateTokens t c)) {i : Int} {s : Text}
    (hs : Stops s) :
    readStatement (p ++ (intText i ++ s)) =
      if i.natAbs ≤ maxInt then (readSets s).map fun r => .update t ((c, .int i) :: r.1) r.2
      else none := by
  rw [readStatement, tokens, hp.lex_append, lex_int i hs, readSets]
  cases hl : lex .start (cString s) with
  | none => simp
  | some ts =>
    by_cases hi : i.natAbs ≤ maxInt
    · rw [if_pos hi, ofWord_intText hi]
      exact parse_update t c (.int i) ts
    · rw [if_neg hi, ofWord_of_large hi]
      have h1 : "update".toList ≠ "insert".toList := by decide
      simp [updateTokens, parse, parseUpdate]

/-- `insert into t (c,cs…) values(` -/
def insertTokens (t c : Text) (cs : List Text) : List Token :=
  [.word "insert".toList, .word "into".toList, .word t, .sign '(', .word c] ++
    (cs.flatMap fun d => [.sign ',', .word d]) ++ [.sign ')', .word "values".toList, .sign '(']

theorem namesTail_names (cs : List Text) (w : Text) (ts : List Token) :
    namesTail ((cs.flatMap fun d => [.sign ',', .word d]) ++ .sign ')' :: .word w :: ts) =
      some (cs, .word w :: ts) := by
  induction cs with
  | nil => simp [namesTail]
  | cons d cs ih =>
    simp only [List.flatMap_cons, List.cons_append, List.nil_append, namesTail, if_true, ih,
      Option.map_some]

theorem parse_insert (t c : Text) (cs : List Text) (v : Const) (ts : List Token) :
    parse (insertTokens t c cs ++ .const v :: ts) =
      (valuesTail ts).map fun vs => .insert t (c :: cs) (v :: vs) := by
  have h : insertTokens t c cs ++ .const v :: ts =
      .word "insert".toList :: .word "into".toList :: .word t :: .sign '(' :: .word c ::
        ((cs.flatMap fun d => [.sign ',', .word d]) ++
          .sign ')' :: .word "values".toList :: .sign '(' :: .const v :: ts) := by
    simp [insertTokens]
  rw [h]
  simp only [parse, if_true, parseInsert, and_self, namesTail_names, Option.bind_some]

theorem readStatement_insert {t c p : Text} {cs : List Text} (hp : Opens p (insertTokens t c cs))
    {f s : Text} (hf : Plain f) (hs : Follows s) :
    readStatement (p ++ quoted f s) =
      (readValues s).map fun vs => .insert t (c :: cs) (.text f :: vs) := by
  rw [readStatement, tokens, hp.lex_append, lex_quoted hf hs, readValues]
  cases lex .start (cString s) with
  | none => rfl
  | some ts => exact parse_insert t c cs (.text f) ts

theorem readStatement_insert_inv {t c p : Text} {cs : List Text} (hp : Opens p (insertTokens t c cs))
    {f s : Text} (hs : Follows s) {stmt : Statement}
    (h : readStatement (p ++ quoted f s) = some stmt) :
    ∃ v vs, stmt = .insert t (c :: cs) (.text v :: vs) ∧
      (v = f → Plain f ∧ readValues s = some vs) := by
  rw [readStatement, Option.bind_eq_some_iff] at h
  obtain ⟨ts, hts, hst⟩ := h
  rw [tokens, hp.lex_append, Option.map_eq_some_iff] at hts
  obtain ⟨us, hus, rfl⟩ := hts
  obtain ⟨v, ts', rfl, hplain⟩ := lex_quoted_inv hs hus
  rw [parse_insert, Option.map_eq_some_iff] at hst
  obtain ⟨vs, hvs, rfl⟩ := hst
  refine ⟨v, vs, rfl, fun hv => ?_⟩
  obtain ⟨hf, hl⟩ := hplain hv
  exact ⟨hf, by rw [readValues, hl]; exact hvs⟩

/-- An integer as the first value. -/
theorem readStatement_insertInt {t c p : Text} {cs : List Text} (hp : Opens p (insertTokens t c cs))
    {i : Int} (hi : i.natAbs ≤ maxInt) {s : Text} (hs : Stops s) :
    readStatement (p ++ (intText i ++ s)) =
      (readValues s).map fun vs => .insert t (c :: cs) (.int i :: vs) := by
  rw [readStatement, tokens, hp.lex_append, lex_int i hs, ofWord_intText hi, readValues]
  cases lex .start (cString s) with
  | none => rfl
  | some ts => exact parse_insert t c cs (.int i) ts

end MysqlConnection.Sql
