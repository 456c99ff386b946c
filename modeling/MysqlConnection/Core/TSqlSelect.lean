import MysqlConnection.Core.TSqlLexer

/-!
# Select statements of T-SQL

`select n₁,…,nₖ from t [where n LIKE 'p' and …]` as a reader of tokens. A name
is a delimited one or a word that is neither reserved nor, from its `@`, a
variable; `#` starts the name of a temporary table.

* `select_selectText`, `select_whereText`: where all names may stand for
  themselves (`Name`) a statement with raw names is read as it was meant.
* `names_of_select`, `name_of_condition`: and only there. A name that is read
  as itself without being a word needs its two delimiters, and the text has no
  room for them (`cost_le`).
* `objectParts`, `columnsOf`: the object that `OBJECT_ID('…')` names.
-/
namespace MysqlConnection.TSql

structure Select where
  columns : List Text
  table : Text
  conditions : List (Text × Text)
  deriving DecidableEq, Repr

def lower (w : Text) : Text := w.map Char.toLower

def selectWord : Text := "select".toList

def fromWord : Text := "from".toList

def whereWord : Text := "where".toList

def likeWord : Text := "LIKE".toList

def andWord : Text := "and".toList

/-- The keyword `k`, in whatever case. -/
def Token.isKeyword (k : Text) : Token → Bool
  | .word w => lower w = lower k
  | _ => false

namespace Dialect

variable (D : Dialect)

/-- The name that a token stands for. -/
def name : Token → Option Text
  | .word w => if D.reserved (lower w) || w.head? = some '@' then none else some w
  | .delimited v => some v
  | _ => none

def tableName (t : Token) : Option Text := (D.name t).filter fun n => n.head? ≠ some '#'

/-- The names separated by commas, and the tokens after them. -/
def nameList : List Token → Option (List Text × List Token)
  | [] => none
  | t :: ts => (D.name t).bind fun n =>
    match ts with
    | .sign ',' :: ts' => (nameList ts').map fun r => (n :: r.1, r.2)
    | _ => some ([n], ts)

def conjuncts : List Token → Option (List (Text × Text))
  | c :: k :: .literal p :: ts =>
    if k.isKeyword likeWord then
      (D.name c).bind fun n =>
        match ts with
        | [] => some [(n, p)]
        | a :: ts' =>
          if a.isKeyword andWord then (conjuncts ts').map ((n, p) :: ·) else none
    else none
  | _ => none

def whereClause : List Token → Option (List (Text × Text))
  | [] => some []
  | w :: ts => if w.isKeyword whereWord then D.conjuncts ts else none

def fromClause (columns : List Text) : List Token → Option Select
  | f :: t :: ts =>
    if f.isKeyword fromWord then
      (D.tableName t).bind fun n => (D.whereClause ts).map fun l => ⟨columns, n, l⟩
    else none
  | _ => none

def readSelect : List Token → Option Select
  | [] => none
  | s :: ts =>
    if s.isKeyword selectWord then (D.nameList ts).bind fun r => D.fromClause r.1 r.2 else none

/-- What a text selects, if it is one of these statements. -/
def select (s : Text) : Option Select := (D.lex .start s).bind D.readSelect

/-! ## Names that stand for themselves -/

structure Name (x : Text) : Prop where
  regular : D.Regular x
  reserved : D.reserved (lower x) = false
  no_variable : x.head? ≠ some '@'

variable {D}

theorem name_word {x : Text} (h : D.Name x) : D.name (.word x) = some x := by
  have hv : (x.head? = some '@') = False := eq_false h.no_variable
  simp only [name, h.reserved, hv, decide_false, Bool.or_self, Bool.false_eq_true, if_false]

/-- A name is a word or has two characters more. -/
theorem name_inv {t : Token} {x : Text} (h : D.name t = some x) :
    (t = .word x ∧ D.reserved (lower x) = false ∧ x.head? ≠ some '@') ∨
      (t.isWord = false ∧ t.size = x.length + 2) := by
  cases t with
  | word w =>
    rw [name] at h
    split at h
    · cases h
    · rename_i hw
      simp only [Bool.or_eq_true, decide_eq_true_eq, not_or, Bool.not_eq_true] at hw
      obtain rfl := Option.some.inj h
      exact Or.inl ⟨rfl, hw⟩
  | delimited v =>
    obtain rfl := Option.some.inj h
    exact Or.inr ⟨rfl, rfl⟩
  | literal v => cases h
  | sign c => cases h

theorem isKeyword_inv {k : Text} {t : Token} (h : t.isKeyword k = true) :
    t.isWord = true ∧ t.size = k.length := by
  cases t with
  | word w =>
    have hw : lower w = lower k := by simpa [Token.isKeyword] using h
    have hlen : (lower w).length = (lower k).length := by rw [hw]
    simp only [lower, List.length_map] at hlen
    exact ⟨rfl, hlen⟩
  | delimited v => cases h
  | literal v => cases h
  | sign c => cases h

/-! ## Keywords and lists of names -/

theorem lex_word_space {w : Text} (h : D.Regular w) (s : Text) :
    D.lex .start (w ++ ' ' :: s) = (D.lex .start s).map (.word w :: ·) := by
  rw [lex_word h (stops_cons (by decide) s), lex_space]

theorem isKeyword_word (k : Text) : Token.isKeyword k (.word k) = true := by
  simp only [Token.isKeyword, decide_true]

/-- The tokens of a list of names. -/
def listTokens (names : List Text) : List Token := (names.map Token.word).intersperse (.sign ',')

theorem lex_list {names : List Text} (h : ∀ x ∈ names, D.Regular x) {s : Text} (hs : D.Stops s) :
    D.lex .start ([','].intercalate names ++ s) =
      (D.lex .start s).map (listTokens names ++ ·) := by
  induction names with
  | nil => simp [listTokens]
  | cons x names ih =>
    have hx := h x List.mem_cons_self
    cases names with
    | nil => simpa [listTokens] using lex_word hx hs
    | cons y names =>
      have hsep : Separator ',' := by decide
      rw [List.intercalate_cons_cons, List.append_assoc, List.append_assoc, List.singleton_append,
        lex_word hx (stops_cons hsep _), D.lex_sign (by decide),
        ih fun z hz => h z (List.mem_cons_of_mem _ hz)]
      simp [listTokens, Option.map_map, Function.comp_def]

theorem nameList_listTokens {names : List Text} (hn : ∀ x ∈ names, D.Name x) (hne : names ≠ [])
    (w : Text) (ts : List Token) :
    D.nameList (listTokens names ++ .word w :: ts) = some (names, .word w :: ts) := by
  induction names with
  | nil => exact absurd rfl hne
  | cons x names ih =>
    have hx := name_word (hn x List.mem_cons_self)
    cases names with
    | nil =>
      show D.nameList (.word x :: .word w :: ts) = _
      rw [nameList, hx]
      rfl
    | cons y names =>
      have hrest := ih (fun z hz => hn z (List.mem_cons_of_mem _ hz)) (List.cons_ne_nil _ _)
      show D.nameList (.word x :: .sign ',' :: (listTokens (y :: names) ++ .word w :: ts)) = _
      rw [nameList, hx, Option.bind_some]
      simp only [hrest, Option.map_some]

/-- The tokens are those of the names, with commas, and then `rest`. -/
inductive Lists (D : Dialect) (rest : List Token) : List Token → List Text → Prop where
  | last {t : Token} {x : Text} (hx : D.name t = some x) : Lists D rest (t :: rest) [x]
  | more {t : Token} {x : Text} {ts : List Token} {names : List Text} (hx : D.name t = some x)
      (hn : Lists D rest ts names) : Lists D rest (t :: .sign ',' :: ts) (x :: names)

theorem lists_of_nameList {ts rest : List Token} {names : List Text}
    (h : D.nameList ts = some (names, rest)) : D.Lists rest ts names := by
  induction hk : ts.length using Nat.strongRecOn generalizing ts names with
  | ind k ih =>
    cases ts with
    | nil => cases h
    | cons t us =>
      rw [nameList, Option.bind_eq_some_iff] at h
      obtain ⟨x, hx, h⟩ := h
      split at h
      · rename_i us'
        rw [Option.map_eq_some_iff] at h
        obtain ⟨⟨names', rest'⟩, hus, h⟩ := h
        obtain ⟨rfl, rfl⟩ := Prod.mk.inj h
        have hlt : us'.length < k := by rw [← hk]; simp only [List.length_cons]; omega
        exact .more hx (ih us'.length hlt hus rfl)
      · obtain ⟨rfl, rfl⟩ := Prod.mk.inj (Option.some.inj h)
        exact .last hx

theorem Lists.ne_nil {ts rest : List Token} {names : List Text} (h : D.Lists rest ts names) :
    names ≠ [] := by
  cases h <;> exact List.cons_ne_nil _ _

theorem Lists.mem {ts rest : List Token} {names : List Text} (h : D.Lists rest ts names) {t : Token}
    (ht : t ∈ rest) : t ∈ ts := by
  induction h with
  | last hx => exact List.mem_cons_of_mem _ ht
  | more hx hn ih => exact List.mem_cons_of_mem _ (List.mem_cons_of_mem _ ih)

/-- What is known of a name that is read without delimiters. -/
def ReadAs (D : Dialect) (ts : List Token) (x : Text) : Prop :=
  .word x ∈ ts ∧ D.reserved (lower x) = false ∧ x.head? ≠ some '@'

/-- A list of names needs its characters and a blank before the word after it;
it needs no more only if no name is delimited. -/
theorem Lists.cost_le {ts rest : List Token} {names : List Text} (h : D.Lists rest ts names)
    (hrest : cost true rest = cost false rest + 1) :
    ([','].intercalate names).length + cost true rest ≤ cost false ts ∧
      (cost false ts ≤ ([','].intercalate names).length + cost true rest →
        ∀ x ∈ names, D.ReadAs ts x) := by
  induction h with
  | @last t x hx =>
    rw [List.intercalate_singleton]
    rcases name_inv hx with ⟨rfl, hw⟩ | ⟨hw, hsize⟩
    · simp only [cost_word, Bool.toNat_false]
      refine ⟨by omega, fun _ y hy => ?_⟩
      rw [List.mem_singleton] at hy
      rw [hy]
      exact ⟨List.mem_cons_self, hw⟩
    · rw [cost_other hw, hsize]
      exact ⟨by omega, fun hle => by omega⟩
  | @more t x ts names hx hn ih =>
    obtain ⟨hle, hwords⟩ := ih
    obtain ⟨y, names', rfl⟩ := List.exists_cons_of_ne_nil hn.ne_nil
    rw [List.intercalate_cons_cons]
    simp only [List.length_append, List.length_singleton]
    rcases name_inv hx with ⟨rfl, hw⟩ | ⟨hw, hsize⟩
    · simp only [cost_word, cost_sign, Bool.toNat_false]
      refine ⟨by omega, fun hcost z hz => ?_⟩
      rcases List.mem_cons.mp hz with rfl | hz
      · exact ⟨List.mem_cons_self, hw⟩
      · obtain ⟨hmem, hz⟩ := hwords (by omega) z hz
        exact ⟨List.mem_cons_of_mem _ (List.mem_cons_of_mem _ hmem), hz⟩
    · rw [cost_other hw, hsize, cost_sign]
      exact ⟨by omega, fun hcost => by omega⟩

/-! ## `select n₁,…,nₖ from t` -/

/-- A select statement with raw names. -/
def selectText (columns : List Text) (table : Text) : Text :=
  selectWord ++ ' ' :: ([','].intercalate columns ++ ' ' :: (fromWord ++ ' ' :: table))

/-- The statement up to its table. -/
theorem lex_selectText {columns : List Text} (hc : ∀ x ∈ columns, D.Regular x) (s : Text) :
    D.lex .start (selectText columns s) = (D.lex .start s).map fun ts =>
      .word selectWord :: (listTokens columns ++ .word fromWord :: ts) := by
  have hsep : Separator ' ' := by decide
  rw [selectText, lex_word_space (regular_ascii (by decide)), lex_list hc (stops_cons hsep _), lex_space,
    lex_word_space (regular_ascii (by decide))]
  simp only [Option.map_map, Function.comp_def]

/-- A table that the words after `from` name. -/
structure TableName (D : Dialect) (x : Text) : Prop where
  name : D.Name x
  permanent : x.head? ≠ some '#'

theorem tableName_word {x : Text} (h : D.TableName x) : D.tableName (.word x) = some x := by
  rw [tableName, name_word h.name]
  simp [h.permanent]

/-- The statement with what follows its table, `s`. -/
theorem select_with {columns : List Text} {table : Text} (hc : ∀ x ∈ columns, D.Name x)
    (hne : columns ≠ []) (ht : D.TableName table) {s : Text} (hs : D.Stops s) :
    D.select (selectText columns (table ++ s)) =
      ((D.lex .start s).bind D.whereClause).map fun l => ⟨columns, table, l⟩ := by
  rw [select, lex_selectText (fun x hx => (hc x hx).regular), lex_word ht.name.regular hs]
  cases D.lex .start s with
  | none => rfl
  | some ts =>
    simp only [Option.map_some, Option.bind_some, readSelect, isKeyword_word, if_true,
      nameList_listTokens hc hne, fromClause, tableName_word ht]

/-! ## `where n LIKE 'p' and …` -/

def conditionText (c p : Text) : Text :=
  ' ' :: (c ++ ' ' :: (likeWord ++ ' ' :: '\'' :: (p ++ ['\'', ' '])))

def conditionTokens (c p : Text) : List Token := [.word c, .word likeWord, .literal p]

theorem lex_conditionText {c p : Text} (hc : D.Regular c) (hp : '\'' ∉ p) (s : Text) :
    D.lex .start (conditionText c p ++ s) = (D.lex .start s).map (conditionTokens c p ++ ·) := by
  have hblank : ' ' ≠ '\'' := by decide
  rw [conditionText]
  simp only [List.cons_append, List.append_assoc, List.nil_append]
  rw [lex_space, lex_word_space hc, lex_word_space (regular_ascii (by decide)),
    lex_literal hp hblank, lex_space]
  simp only [Option.map_map, Function.comp_def, conditionTokens, List.cons_append, List.nil_append]

/-- A conjunction of conditions on names. -/
theorem conjuncts_conditions {l : List (Text × Text)} (hl : l ≠ [])
    (h : ∀ x ∈ l, D.Name x.1 ∧ '\'' ∉ x.2) :
    (D.lex .start (andWord.intercalate (l.map fun x => conditionText x.1 x.2))).bind D.conjuncts =
      some l := by
  induction l with
  | nil => exact absurd rfl hl
  | cons x l ih =>
    obtain ⟨hx, hp⟩ := h x List.mem_cons_self
    cases l with
    | nil =>
      have hlex := lex_conditionText hx.regular hp []
      rw [List.append_nil, lex_nil] at hlex
      rw [List.map_singleton, List.intercalate_singleton, hlex]
      simp only [finish, Option.map_some, List.append_nil, Option.bind_some, conditionTokens, conjuncts,
        isKeyword_word, if_true, name_word hx]
    | cons y l =>
      have hrest := ih (List.cons_ne_nil _ _) fun z hz => h z (List.mem_cons_of_mem _ hz)
      rw [Option.bind_eq_some_iff] at hrest
      obtain ⟨ts, hts, hread⟩ := hrest
      have hstop : D.Stops (andWord.intercalate ((y :: l).map fun x => conditionText x.1 x.2)) := by
        cases l with
        | nil => exact stops_cons (by decide) _
        | cons z l => exact stops_cons (by decide) _
      simp only [List.map_cons] at hts hstop ⊢
      rw [List.intercalate_cons_cons, List.append_assoc,
        lex_conditionText hx.regular hp, lex_word (regular_ascii (by decide)) hstop, hts]
      simp only [Option.map_some, Option.bind_some, conditionTokens, List.cons_append, List.nil_append,
        conjuncts, isKeyword_word, if_true, name_word hx, hread]

/-- The conditions after the table, if there are any. -/
def whereText (l : List (Text × Text)) : Text :=
  if l = [] then []
  else ' ' :: (whereWord ++ ' ' :: andWord.intercalate (l.map fun x => conditionText x.1 x.2))

theorem stops_whereText (l : List (Text × Text)) : D.Stops (whereText l) := by
  rw [whereText]
  split
  · exact stops_nil
  · exact stops_cons (by decide) _

theorem lex_whereText {l : List (Text × Text)} (hl : l ≠ []) :
    (D.lex .start (whereText l)).bind D.whereClause =
      (D.lex .start (andWord.intercalate (l.map fun x => conditionText x.1 x.2))).bind D.conjuncts := by
  rw [whereText, if_neg hl, lex_space, lex_word_space (regular_ascii (by decide))]
  cases D.lex .start (andWord.intercalate (l.map fun x => conditionText x.1 x.2)) with
  | none => rfl
  | some ts => simp only [Option.map_some, Option.bind_some, whereClause, isKeyword_word, if_true]

/-- Names that stand for themselves are read as they were meant. -/
theorem select_whereText {columns : List Text} {table : Text} {l : List (Text × Text)}
    (hc : ∀ x ∈ columns, D.Name x) (hne : columns ≠ []) (ht : D.TableName table)
    (h : ∀ x ∈ l, D.Name x.1 ∧ '\'' ∉ x.2) :
    D.select (selectText columns (table ++ whereText l)) = some ⟨columns, table, l⟩ := by
  rw [select_with hc hne ht (stops_whereText l)]
  by_cases hl : l = []
  · rw [hl]; rfl
  · rw [lex_whereText hl, conjuncts_conditions hl h, Option.map_some]

/-! ## Only names that stand for themselves -/

theorem conjuncts_inv {ts : List Token} {l : List (Text × Text)} (h : D.conjuncts ts = some l) :
    ∃ c k p us x, ts = c :: k :: .literal p :: us ∧ k.isKeyword likeWord = true ∧
      D.name c = some x ∧ ((us = [] ∧ l = [(x, p)]) ∨ ∃ a us' l', us = a :: us' ∧
        a.isKeyword andWord = true ∧ D.conjuncts us' = some l' ∧ l = (x, p) :: l') := by
  unfold conjuncts at h
  split at h
  · rename_i c k p us
    split at h
    · rename_i hk
      rw [Option.bind_eq_some_iff] at h
      obtain ⟨x, hx, h⟩ := h
      refine ⟨c, k, p, us, x, rfl, hk, hx, ?_⟩
      split at h
      · exact Or.inl ⟨rfl, (Option.some.inj h).symm⟩
      · rename_i a us'
        split at h
        · rename_i ha
          rw [Option.map_eq_some_iff] at h
          obtain ⟨l', hl', rfl⟩ := h
          exact Or.inr ⟨a, us', l', rfl, ha, hl', rfl⟩
        · cases h
    · cases h
  · cases h

theorem conjuncts_ne_nil {ts : List Token} : D.conjuncts ts ≠ some [] := by
  intro h
  obtain ⟨c, k, p, us, x, -, -, -, ⟨-, hl⟩ | ⟨a, us', l', -, -, -, hl⟩⟩ := conjuncts_inv h
  · cases hl
  · cases hl

theorem whereClause_nil {ts : List Token} (h : D.whereClause ts = some []) : ts = [] := by
  cases ts with
  | nil => rfl
  | cons w ts =>
    rw [whereClause] at h
    split at h
    · exact absurd h conjuncts_ne_nil
    · cases h

theorem fromClause_inv {columns : List Text} {ts : List Token} {q : Select}
    (h : D.fromClause columns ts = some q) : ∃ f t us, ts = f :: t :: us ∧
      f.isKeyword fromWord = true ∧ D.tableName t = some q.table ∧
      D.whereClause us = some q.conditions ∧ q.columns = columns := by
  unfold fromClause at h
  split at h
  · rename_i f t us
    split at h
    · rename_i hf
      rw [Option.bind_eq_some_iff] at h
      obtain ⟨x, hx, h⟩ := h
      rw [Option.map_eq_some_iff] at h
      obtain ⟨l, hl, rfl⟩ := h
      exact ⟨f, t, us, rfl, hf, hx, hl, rfl⟩
    · cases h
  · cases h

theorem readSelect_inv {ts : List Token} {q : Select} (h : D.readSelect ts = some q) :
    ∃ s us rest, ts = s :: us ∧ D.nameList us = some (q.columns, rest) ∧
      D.fromClause q.columns rest = some q := by
  cases ts with
  | nil => cases h
  | cons s us =>
    rw [readSelect] at h
    split at h
    · rw [Option.bind_eq_some_iff] at h
      obtain ⟨⟨columns, rest⟩, hn, h⟩ := h
      obtain ⟨-, -, -, -, -, -, -, hcol⟩ := fromClause_inv h
      rw [hcol]
      exact ⟨s, us, rest, rfl, hn, h⟩
    · cases h

theorem tableName_inv {t : Token} {x : Text} (h : D.tableName t = some x) :
    D.name t = some x ∧ x.head? ≠ some '#' := by
  rw [tableName, Option.filter_eq_some_iff] at h
  exact ⟨h.1, by simpa using h.2⟩

/-- A word that was read where it is taken for a name. -/
theorem ReadAs.name {s : Text} {ts : List Token} (hlex : D.lex .start s = some ts) {x : Text}
    (h : D.ReadAs ts x) : D.Name x :=
  ⟨regular_of_mem_lex (m := .start) trivial hlex h.1, h.2.1, h.2.2⟩

/-- A statement of raw names that is read with just these names. -/
theorem names_of_select {columns : List Text} {table : Text}
    (h : D.select (selectText columns table) = some ⟨columns, table, []⟩) :
    columns ≠ [] ∧ (∀ x ∈ columns, D.Name x) ∧ D.TableName table := by
  rw [select, selectText, lex_word_space (regular_ascii (by decide)), Option.bind_eq_some_iff] at h
  obtain ⟨ts, hts, h⟩ := h
  rw [Option.map_eq_some_iff] at hts
  obtain ⟨us, hus, rfl⟩ := hts
  obtain ⟨s, us', rest, heq, hnames, hfrom⟩ := readSelect_inv h
  obtain ⟨-, rfl⟩ := List.cons.inj heq
  obtain ⟨f, t, ws, rfl, hf, ht, hws, -⟩ := fromClause_inv hfrom
  obtain rfl := whereClause_nil hws
  obtain ⟨hname, hperm⟩ : D.name t = some table ∧ table.head? ≠ some '#' := tableName_inv ht
  obtain ⟨hword, hsize⟩ := isKeyword_inv hf
  have hfour : fromWord.length = 4 := by decide
  -- the keyword needs a blank on both sides unless the table is delimited
  have hgap (gap : Bool) : cost gap [f, t] = gap.toNat + 4 + cost true [t] := by
    cases f with
    | word w => rw [cost_word]; simp only [Token.size] at hsize; omega
    | delimited v => cases hword
    | literal v => cases hword
    | sign c => cases hword
  have hfits := Dialect.cost_le hus
  simp only [Mode.gap, Mode.size, List.length_append, List.length_cons] at hfits
  have hlists : D.Lists [f, t] us columns := lists_of_nameList hnames
  have hblank : cost true [f, t] = cost false [f, t] + 1 := by
    rw [hgap, hgap, Bool.toNat_true, Bool.toNat_false]
    omega
  obtain ⟨hle, hwords⟩ := hlists.cost_le hblank
  rw [hgap, Bool.toNat_true] at hle hwords
  have htable : t = .word table ∧ D.reserved (lower table) = false ∧ table.head? ≠ some '@' := by
    rcases name_inv hname with h | ⟨hw, hs⟩
    · exact h
    · exfalso
      rw [cost_other hw, hs, cost_nil] at hle
      omega
  obtain ⟨rfl, htable⟩ := htable
  rw [cost_word, cost_nil, Bool.toNat_true] at hle hwords
  have hread : D.ReadAs us table := ⟨hlists.mem (by simp), htable⟩
  exact ⟨hlists.ne_nil, fun x hx => (hwords (by omega) x hx).name hus, hread.name hus, hperm⟩

/-- After a blank nothing but a literal, a name or a comment is open. -/
theorem next_space (m : Mode) : (D.next m ' ').1 = .start ∨ (∃ q v, (D.next m ' ').1 = .inside q v) ∨
    (D.next m ' ').1 = .line ∨ ∃ n, (D.next m ' ').1 = .block n := by
  have hb : (D.begin ' ').1 = .start := by rw [begin_space]
  have hpart : D.identPart ' ' = false := D.identPart_separator (by decide)
  cases m with
  | start => exact Or.inl hb
  | word w =>
    rw [next, hpart, if_neg Bool.false_ne_true]
    exact Or.inl hb
  | inside q v =>
    have hq : ' ' ≠ q.close := by cases q <;> decide
    rw [next, if_neg hq]
    exact Or.inr (Or.inl ⟨q, v ++ [' '], rfl⟩)
  | closing q v =>
    have hq : ' ' ≠ q.close := by cases q <;> decide
    rw [next, if_neg hq]
    exact Or.inl hb
  | minus => exact Or.inl hb
  | line => exact Or.inr (Or.inr (Or.inl rfl))
  | slash => exact Or.inl hb
  | block n => exact Or.inr (Or.inr (Or.inr ⟨n, rfl⟩))
  | blockStar n => exact Or.inr (Or.inr (Or.inr ⟨n, rfl⟩))
  | blockSlash n => exact Or.inr (Or.inr (Or.inr ⟨n, rfl⟩))

/-- A pattern of percent signs. -/
def percents : Text := ['%', '%', '%']

/-- What follows the name and a blank in a condition. -/
def likePercents : Text := likeWord ++ ' ' :: '\'' :: (percents ++ ['\'', ' '])

theorem lex_likePercents : D.lex .start likePercents = some [.word likeWord, .literal percents] := by
  have hp : '\'' ∉ percents := by decide
  have hblank : ' ' ≠ '\'' := by decide
  rw [likePercents, lex_word_space (regular_ascii (by decide)), lex_literal hp hblank, lex_space, lex_nil]
  rfl

/-- In a literal or name that is open before them they leave one open. -/
theorem lex_inside_likePercents (q : Delim) (v : Text) : D.lex (.inside q v) likePercents = none := by
  cases q with
  | apostrophe =>
    have hq : Delim.close .apostrophe ∉ likeWord ++ [' '] := by decide
    have hclose (u : Text) : D.next (.inside .apostrophe u) '\'' = (.closing .apostrophe u, []) := by
      rw [next]; exact if_pos rfl
    have hne : '%' ≠ Delim.close .apostrophe := by decide
    have hblank : Delim.close .apostrophe ∉ [' '] := by decide
    have hsign : Sign '%' := by decide
    have hsplit : likePercents = (likeWord ++ [' ']) ++ '\'' :: '%' :: '%' :: '%' :: '\'' :: [' '] := by
      decide
    rw [hsplit, lex_inside hq, lex_cons, hclose, lex_closing hne, D.lex_sign hsign, D.lex_sign hsign,
      D.lex_sign hsign, lex_apostrophe, lex_inside_none hblank]
    rfl
  | quote => exact lex_inside_none (by decide) v
  | bracket => exact lex_inside_none (by decide) v

/-- A name read first in a text with one character more than it has. -/
theorem name_of_first {a : Text} {t : Token} {vs : List Token} {x : Text}
    (h : D.lex .start a = some (t :: vs)) (hx : D.name t = some x) (ha : a.length ≤ x.length + 1) :
    D.Name x := by
  have hfits := Dialect.cost_le h
  simp only [Mode.gap, Mode.size, cost] at hfits
  rcases name_inv hx with ⟨rfl, hw⟩ | ⟨-, hsize⟩
  · exact ReadAs.name h ⟨List.mem_cons_self, hw⟩
  · omega

/-- A raw name that is read as itself in a condition. -/
theorem name_of_condition {c : Text}
    (h : (D.lex .start (conditionText c percents)).bind D.conjuncts = some [(c, percents)]) :
    D.Name c := by
  rw [Option.bind_eq_some_iff] at h
  obtain ⟨us, hus, h⟩ := h
  obtain ⟨t, k, p, ws, x, rfl, -, hx, ⟨rfl, hl⟩ | ⟨a, ws', l', -, -, hl', hl⟩⟩ := conjuncts_inv h
  · obtain ⟨hp, -⟩ := List.cons.inj hl
    obtain ⟨rfl, -⟩ := Prod.mk.inj hp
    have hsplit : conditionText c percents = ' ' :: ((c ++ [' ']) ++ likePercents) := by
      rw [conditionText, List.append_assoc, List.singleton_append, likePercents]
    have hmode : (D.run .start (c ++ [' '])).1 = (D.next (D.run .start c).1 ' ').1 := by
      rw [run_append]; rfl
    have hlen : (c ++ [' ']).length ≤ c.length + 1 := by
      rw [List.length_append, List.length_singleton]
    have hlex (hf : D.finish (D.next (D.run .start c).1 ' ').1 = some []) :
        D.lex .start (c ++ [' ']) = some (D.run .start (c ++ [' '])).2 := by
      rw [lex, hmode, hf, Option.map_some, List.append_nil]
    rw [hsplit, lex_space, lex_append, hmode] at hus
    rcases D.next_space (D.run .start c).1 with hm | ⟨q, v, hm⟩ | hm | ⟨n, hm⟩
    · have hread := hlex (by rw [hm]; rfl)
      rw [hm, lex_likePercents, Option.map_some, Option.some.injEq] at hus
      cases hr : (D.run .start (c ++ [' '])).2 with
      | nil =>
        rw [hr] at hus
        have hthree := congrArg List.length hus
        cases hthree
      | cons t' vs =>
        rw [hr] at hread hus
        obtain ⟨rfl, -⟩ := List.cons.inj hus
        exact name_of_first hread hx hlen
    · rw [hm, lex_inside_likePercents] at hus
      cases hus
    · have hread := hlex (by rw [hm]; rfl)
      rw [hm, lex_line (by decide), Option.map_some, Option.some.injEq, List.append_nil] at hus
      rw [hus] at hread
      exact name_of_first hread hx hlen
    · rw [hm, lex_block_none (by decide) (by decide)] at hus
      cases hus
  · obtain ⟨-, rfl⟩ := List.cons.inj hl
    exact absurd hl' conjuncts_ne_nil

end Dialect

/-! ## Names in a string -/

/-- `delim q v`: in a delimited part that ends at `q`; `closed q v`: after a `q`
that ends it or is the first of a doubled one. -/
inductive PartMode where
  | plain (v : Text)
  | delim (q : Char) (v : Text)
  | closed (q : Char) (v : Text)
  deriving DecidableEq, Repr

/-- The parts of a name such as `[a b].c`, from the mode `m` on. A part without
delimiters may have any characters but a dot. -/
def objectParts : PartMode → Text → Option (List Text)
  | .plain v, [] => some [v]
  | .plain v, c :: s =>
    if c = '.' then (objectParts (.plain []) s).map (v :: ·)
    else if v = [] ∧ c = '[' then objectParts (.delim ']' []) s
    else if v = [] ∧ c = '"' then objectParts (.delim '"' []) s
    else objectParts (.plain (v ++ [c])) s
  | .delim _ _, [] => none
  | .delim q v, c :: s =>
    if c = q then objectParts (.closed q v) s else objectParts (.delim q (v ++ [c])) s
  | .closed _ v, [] => some [v]
  | .closed q v, c :: s =>
    if c = q then objectParts (.delim q (v ++ [c])) s
    else if c = '.' then (objectParts (.plain []) s).map (v :: ·)
    else none

/-- A name with no character that has a meaning is one part. -/
theorem objectParts_plain {s : Text} (hdot : '.' ∉ s) (hbracket : '[' ∉ s) (hquote : '"' ∉ s) (v : Text) :
    objectParts (.plain v) s = some [v ++ s] := by
  induction s generalizing v with
  | nil => rw [objectParts, List.append_nil]
  | cons c s ih =>
    rw [List.mem_cons, not_or] at hdot hbracket hquote
    rw [objectParts, if_neg fun hc => hdot.1 hc.symm, if_neg fun hc => hbracket.1 hc.2.symm,
      if_neg fun hc => hquote.1 hc.2.symm, ih hdot.2 hbracket.2 hquote.2, List.append_assoc,
      List.singleton_append]

/-! ## The words of the language -/

/-- The reserved keywords of Transact-SQL. -/
def reservedWords : List String :=
  ["add", "all", "alter", "and", "any", "as", "asc", "authorization", "backup", "begin", "between",
    "break", "browse", "bulk", "by", "cascade", "case", "check", "checkpoint", "close", "clustered",
    "coalesce", "collate", "column", "commit", "compute", "constraint", "contains", "containstable",
    "continue", "convert", "create", "cross", "current", "current_date", "current_time",
    "current_timestamp", "current_user", "cursor", "database", "dbcc", "deallocate", "declare",
    "default", "delete", "deny", "desc", "disk", "distinct", "distributed", "double", "drop", "dump",
    "else", "end", "errlvl", "escape", "except", "exec", "execute", "exists", "exit", "external",
    "fetch", "file", "fillfactor", "for", "foreign", "freetext", "freetexttable", "from", "full",
    "function", "goto", "grant", "group", "having", "holdlock", "identity", "identity_insert",
    "identitycol", "if", "in", "index", "inner", "insert", "intersect", "into", "is", "join", "key",
    "kill", "left", "like", "lineno", "load", "merge", "national", "nocheck", "nonclustered", "not",
    "null", "nullif", "of", "off", "offsets", "on", "open", "opendatasource", "openquery",
    "openrowset", "openxml", "option", "or", "order", "outer", "over", "percent", "pivot", "plan",
    "precision", "primary", "print", "proc", "procedure", "public", "raiserror", "read", "readtext",
    "reconfigure", "references", "replication", "restore", "restrict", "return", "revert", "revoke",
    "right", "rollback", "rowcount", "rowguidcol", "rule", "save", "schema", "securityaudit", "select",
    "semantickeyphrasetable", "semanticsimilaritydetailstable", "semanticsimilaritytable",
    "session_user", "set", "setuser", "shutdown", "some", "statistics", "system_user", "table",
    "tablesample", "textsize", "then", "to", "top", "tran", "transaction", "trigger", "truncate",
    "try_convert", "tsequal", "union", "unique", "unpivot", "update", "updatetext", "use", "user",
    "values", "varying", "view", "waitfor", "when", "where", "while", "with", "within", "writetext"]

/-- With the letters and digits of ASCII only, and `QUOTED_IDENTIFIER` on. -/
def asciiDialect : Dialect where
  letter := Char.isAlpha
  digit := Char.isDigit
  reserved := fun w => reservedWords.any fun k => k.toList = w
  quotedIdentifier := true
  letter_ascii := fun _ _ => rfl
  digit_ascii := fun _ _ => rfl

end MysqlConnection.TSql
