import Mathlib.Algebra.Order.Ring.Nat
import Mathlib.Data.List.Basic

/-!
# The tokens of a T-SQL text

The identifier rules of Transact-SQL as an automaton (`next`). A regular
identifier starts with a letter, `_`, `@` or `#` and goes on with these, digits
and `$`; any other name stands between brackets or, with `QUOTED_IDENTIFIER`,
between double quotes, its closing delimiter doubled. Two hyphens start a
comment up to the end of the line, `/*` one up to `*/`; these may be nested. A
text that ends in a literal, a delimited name or a comment of the second kind
has no tokens.

Which characters beyond ASCII are letters and digits and which words are
reserved is left to the `Dialect`.

* `lex_word`, `lex_sign`, `lex_literal`: how the pieces of a statement are read.
* `regular_of_mem_lex`: each word that is read is a regular identifier.
* `cost_le`: the tokens do not need more characters than the text has. A name
  that is not regular needs two more for its delimiters.
-/
namespace MysqlConnection.TSql

abbrev Text := List Char

/-- `reserved` gets its word in lower case. -/
structure Dialect where
  letter : Char → Bool
  digit : Char → Bool
  reserved : Text → Bool
  quotedIdentifier : Bool
  letter_ascii : ∀ c : Char, c.toNat < 128 → letter c = c.isAlpha
  digit_ascii : ∀ c : Char, c.toNat < 128 → digit c = c.isDigit

/-- A `delimited` name and a `literal` are given without their delimiters.
Each digit of a number is a `sign`. -/
inductive Token where
  | word (w : Text)
  | delimited (v : Text)
  | literal (v : Text)
  | sign (c : Char)
  deriving DecidableEq, Repr

/-- What a literal or a delimited name stands between. -/
inductive Delim where
  | apostrophe
  | quote
  | bracket
  deriving DecidableEq, Repr

/-- The character it ends at. -/
def Delim.close : Delim → Char
  | .apostrophe => '\''
  | .quote => '"'
  | .bracket => ']'

/-- `inside q v`: in a literal or a name, `v` read so far; `closing q v`: after
a character that ends it or is the first of a doubled one. `block n`: in a comment
with `n` others around it; `blockStar`, `blockSlash`: after this character. -/
inductive Mode where
  | start
  | word (w : Text)
  | inside (q : Delim) (v : Text)
  | closing (q : Delim) (v : Text)
  | minus
  | line
  | slash
  | block (n : Nat)
  | blockStar (n : Nat)
  | blockSlash (n : Nat)
  deriving DecidableEq, Repr

/-- After the end of a comment with `n` others around it. -/
def leave : Nat → Mode
  | 0 => .start
  | n + 1 => .block n

def isSpace (c : Char) : Bool :=
  c = ' ' || c = '\t' || c = '\n' || c = '\r' || c = Char.ofNat 11 || c = Char.ofNat 12

namespace Dialect

variable (D : Dialect)

def identStart (c : Char) : Bool := D.letter c || c = '_' || c = '@' || c = '#'

def identPart (c : Char) : Bool := D.identStart c || D.digit c || c = '$'

/-- Double quotes are delimiters of names or of literals. -/
def token : Delim → Text → Token
  | .apostrophe, v => .literal v
  | .quote, v => if D.quotedIdentifier then .delimited v else .literal v
  | .bracket, v => .delimited v

/-- What a character outside of all tokens starts. -/
def begin (c : Char) : Mode × List Token :=
  if D.identStart c then (.word [c], [])
  else if isSpace c then (.start, [])
  else if c = '\'' then (.inside .apostrophe [], [])
  else if c = '"' then (.inside .quote [], [])
  else if c = '[' then (.inside .bracket [], [])
  else if c = '-' then (.minus, [])
  else if c = '/' then (.slash, [])
  else (.start, [.sign c])

/-- The token `t` ended before the character `c`. -/
def after (t : Token) (c : Char) : Mode × List Token := ((D.begin c).1, t :: (D.begin c).2)

def next : Mode → Char → Mode × List Token
  | .start, c => D.begin c
  | .word w, c => if D.identPart c then (.word (w ++ [c]), []) else D.after (.word w) c
  | .inside q v, c => if c = q.close then (.closing q v, []) else (.inside q (v ++ [c]), [])
  | .closing q v, c => if c = q.close then (.inside q (v ++ [c]), []) else D.after (D.token q v) c
  | .minus, c => if c = '-' then (.line, []) else D.after (.sign '-') c
  | .line, c => if c = '\n' then (.start, []) else (.line, [])
  | .slash, c => if c = '*' then (.block 0, []) else D.after (.sign '/') c
  | .block n, c =>
    if c = '*' then (.blockStar n, []) else if c = '/' then (.blockSlash n, []) else (.block n, [])
  | .blockStar n, c =>
    if c = '/' then (leave n, [])
    else if c = '*' then (.blockStar n, [])
    else (.block n, [])
  | .blockSlash n, c =>
    if c = '*' then (.block (n + 1), [])
    else if c = '/' then (.blockSlash n, [])
    else (.block n, [])

/-- The tokens that end with the text. -/
def finish : Mode → Option (List Token)
  | .start => some []
  | .word w => some [.word w]
  | .inside _ _ => none
  | .closing q v => some [D.token q v]
  | .minus => some [.sign '-']
  | .line => some []
  | .slash => some [.sign '/']
  | .block _ => none
  | .blockStar _ => none
  | .blockSlash _ => none

def run : Mode → Text → Mode × List Token
  | m, [] => (m, [])
  | m, c :: cs => ((run (D.next m c).1 cs).1, (D.next m c).2 ++ (run (D.next m c).1 cs).2)

def lex (m : Mode) (s : Text) : Option (List Token) :=
  (D.finish (D.run m s).1).map ((D.run m s).2 ++ ·)

/-! ## Lexing piece by piece -/

theorem run_append (m : Mode) (a b : Text) :
    D.run m (a ++ b) =
      ((D.run (D.run m a).1 b).1, (D.run m a).2 ++ (D.run (D.run m a).1 b).2) := by
  induction a generalizing m with
  | nil => rfl
  | cons c a ih => simp only [List.cons_append, run, ih, List.append_assoc]

theorem lex_append (m : Mode) (a b : Text) :
    D.lex m (a ++ b) = (D.lex (D.run m a).1 b).map ((D.run m a).2 ++ ·) := by
  simp only [lex, run_append, Option.map_map, Function.comp_def, List.append_assoc]

theorem lex_cons (m : Mode) (c : Char) (s : Text) :
    D.lex m (c :: s) = (D.lex (D.next m c).1 s).map ((D.next m c).2 ++ ·) := by
  have h := D.lex_append m [c] s
  simpa only [List.singleton_append, run, List.append_nil] using h

theorem lex_nil (m : Mode) : D.lex m [] = D.finish m := by
  rw [lex, run]
  cases D.finish m with
  | none => rfl
  | some ts => rfl

/-- The token `t` ends at the end of the text or before `c`. -/
theorem lex_after {m : Mode} {t : Token} {c : Char} (hn : D.next m c = D.after t c) (s : Text) :
    D.lex m (c :: s) = (D.lex .start (c :: s)).map (t :: ·) := by
  rw [lex_cons, lex_cons, hn]
  simp only [next, after, Option.map_map, Function.comp_def, List.cons_append]

/-! ## ASCII characters -/

def asciiStart (c : Char) : Bool := c.isAlpha || c = '_' || c = '@' || c = '#'

def asciiPart (c : Char) : Bool := asciiStart c || c.isDigit || c = '$'

theorem identStart_ascii {c : Char} (h : c.toNat < 128) : D.identStart c = asciiStart c := by
  rw [identStart, D.letter_ascii c h, asciiStart]

theorem identPart_ascii {c : Char} (h : c.toNat < 128) : D.identPart c = asciiPart c := by
  rw [identPart, D.identStart_ascii h, D.digit_ascii c h, asciiPart]

/-- A character that cannot stand in an identifier. -/
def Separator (c : Char) : Prop := c.toNat < 128 ∧ asciiPart c = false

instance : DecidablePred Separator := fun c => by unfold Separator; exact inferInstance

theorem identPart_separator {c : Char} (h : Separator c) : D.identPart c = false := by
  rw [D.identPart_ascii h.1, h.2]

theorem identStart_of_not_part {c : Char} (h : D.identPart c = false) : D.identStart c = false := by
  simp only [identPart, Bool.or_eq_false_iff] at h
  exact h.1.1

/-- A separator that is a token on its own. -/
def Sign (c : Char) : Prop :=
  Separator c ∧ isSpace c = false ∧ c ≠ '\'' ∧ c ≠ '"' ∧ c ≠ '[' ∧ c ≠ '-' ∧ c ≠ '/'

instance : DecidablePred Sign := fun c => by unfold Sign; exact inferInstance

theorem begin_sign {c : Char} (h : Sign c) : D.begin c = (.start, [.sign c]) := by
  obtain ⟨hsep, hsp, hq, hd, hb, hm, hs⟩ := h
  have hstart := D.identStart_of_not_part (D.identPart_separator hsep)
  simp only [begin, hstart, hsp, hq, hd, hb, hm, hs, Bool.false_eq_true, if_false]

theorem lex_sign {c : Char} (h : Sign c) (s : Text) :
    D.lex .start (c :: s) = (D.lex .start s).map (.sign c :: ·) := by
  rw [lex_cons, next, D.begin_sign h]
  rfl

theorem begin_space : D.begin ' ' = (.start, []) := by
  have hstart : D.identStart ' ' = false := D.identStart_ascii (by decide)
  have hsp : isSpace ' ' = true := by decide
  simp only [begin, hstart, hsp, Bool.false_eq_true, if_false, if_true]

theorem lex_space (s : Text) : D.lex .start (' ' :: s) = D.lex .start s := by
  rw [lex_cons, next, D.begin_space]
  simp only [List.nil_append, Option.map_id']

/-! ## Words -/

def Regular : Text → Prop
  | [] => False
  | c :: cs => D.identStart c = true ∧ ∀ d ∈ cs, D.identPart d = true

/-- A text that does not continue a word. -/
def Stops (s : Text) : Prop := ∀ c ∈ s.head?, D.identPart c = false

variable {D}

theorem stops_nil : D.Stops [] := by
  intro c hc; cases hc

theorem stops_cons {c : Char} (h : Separator c) (s : Text) : D.Stops (c :: s) := by
  intro d hd
  obtain rfl : c = d := by simpa using hd
  exact D.identPart_separator h

theorem identPart_of_start {c : Char} (h : D.identStart c = true) : D.identPart c = true := by
  rw [identPart, h, Bool.true_or, Bool.true_or]

theorem Regular.part {w : Text} (h : D.Regular w) : ∀ c ∈ w, D.identPart c = true := by
  intro c hc
  cases w with
  | nil => cases hc
  | cons d w =>
    rcases List.mem_cons.mp hc with rfl | hc
    · exact identPart_of_start h.1
    · exact h.2 c hc

theorem Regular.ne_nil {w : Text} (h : D.Regular w) : w ≠ [] := by
  rintro rfl; exact h

theorem Regular.not_mem {w : Text} (h : D.Regular w) {c : Char} (hc : Separator c) : c ∉ w := by
  intro hm
  have hp := h.part c hm
  rw [D.identPart_separator hc] at hp
  cases hp

theorem Regular.append {w : Text} (h : D.Regular w) {c : Char} (hc : D.identPart c = true) :
    D.Regular (w ++ [c]) := by
  cases w with
  | nil => exact h.elim
  | cons d w =>
    refine ⟨h.1, fun e he => ?_⟩
    rcases List.mem_append.mp he with he | he
    · exact h.2 e he
    · rw [List.mem_singleton] at he
      rw [he]; exact hc

/-- Regular in every dialect. -/
def asciiWord (w : Text) : Bool :=
  asciiStart (w.headD ' ') && w.all fun c => decide (c.toNat < 128) && asciiPart c

theorem regular_ascii {w : Text} (h : asciiWord w = true) : D.Regular w := by
  simp only [asciiWord, Bool.and_eq_true, List.all_eq_true, decide_eq_true_eq] at h
  cases w with
  | nil =>
    have hblank : asciiStart ' ' = false := by decide
    rw [List.headD_nil, hblank] at h
    cases h.1
  | cons c w =>
    refine ⟨(D.identStart_ascii (h.2 c List.mem_cons_self).1).trans h.1, fun d hd => ?_⟩
    have hd := h.2 d (List.mem_cons_of_mem _ hd)
    exact (D.identPart_ascii hd.1).trans hd.2

theorem lex_word_part {f : Text} (h : ∀ c ∈ f, D.identPart c = true) (w : Text) {s : Text}
    (hs : D.Stops s) :
    D.lex (.word w) (f ++ s) = (D.lex .start s).map (.word (w ++ f) :: ·) := by
  induction f generalizing w with
  | nil =>
    rw [List.nil_append, List.append_nil]
    cases s with
    | nil => simp only [lex_nil, finish, Option.map_some]
    | cons c s =>
      have hp : D.identPart c = false := hs c rfl
      refine D.lex_after ?_ s
      simp only [next, hp, Bool.false_eq_true, if_false]
  | cons c f ih =>
    have hn : D.next (.word w) c = (.word (w ++ [c]), []) := by
      simp only [next, h c List.mem_cons_self, if_true]
    rw [List.cons_append, lex_cons, hn, ih fun d hd => h d (List.mem_cons_of_mem _ hd)]
    simp only [List.nil_append, Option.map_id', List.append_assoc, List.singleton_append]

theorem lex_word {w s : Text} (h : D.Regular w) (hs : D.Stops s) :
    D.lex .start (w ++ s) = (D.lex .start s).map (.word w :: ·) := by
  cases w with
  | nil => exact h.elim
  | cons c w =>
    have hn : D.next .start c = (.word [c], []) := by
      rw [next, begin, h.1, if_pos rfl]
    rw [List.cons_append, lex_cons, hn, lex_word_part h.2 [c] hs]
    simp only [List.nil_append, Option.map_id', List.singleton_append]

/-- A word that starts or goes on is regular. -/
def RegularSoFar (D : Dialect) : Mode → Prop
  | .word w => D.Regular w
  | _ => True

theorem begin_cases {c : Char} (h : D.identStart c = false) :
    D.begin c = (.start, []) ∨ (∃ q, D.begin c = (.inside q [], [])) ∨ D.begin c = (.minus, []) ∨
      D.begin c = (.slash, []) ∨ D.begin c = (.start, [.sign c]) := by
  unfold begin
  rw [h, if_neg Bool.false_ne_true]
  split
  · exact Or.inl rfl
  split
  · exact Or.inr (Or.inl ⟨.apostrophe, rfl⟩)
  split
  · exact Or.inr (Or.inl ⟨.quote, rfl⟩)
  split
  · exact Or.inr (Or.inl ⟨.bracket, rfl⟩)
  split
  · exact Or.inr (Or.inr (Or.inl rfl))
  split
  · exact Or.inr (Or.inr (Or.inr (Or.inl rfl)))
  · exact Or.inr (Or.inr (Or.inr (Or.inr rfl)))

/-- What a character outside of all tokens starts is no word that is read. -/
theorem begin_spec (c : Char) :
    D.RegularSoFar (D.begin c).1 ∧ ∀ w, .word w ∉ (D.begin c).2 := by
  by_cases hc : D.identStart c = true
  · rw [begin, if_pos hc]
    exact ⟨⟨hc, fun d hd => by cases hd⟩, fun w hw => by cases hw⟩
  · rcases begin_cases (by simpa using hc) with hb | ⟨q, hb⟩ | hb | hb | hb <;> rw [hb] <;>
      exact ⟨trivial, fun w hw => by simp at hw⟩

theorem token_ne_word (q : Delim) (v w : Text) : D.token q v ≠ .word w := by
  cases q with
  | apostrophe => exact fun h => by cases h
  | quote => rw [token]; split <;> exact fun h => by cases h
  | bracket => exact fun h => by cases h

theorem next_spec {m : Mode} (hm : D.RegularSoFar m) (c : Char) :
    D.RegularSoFar (D.next m c).1 ∧ ∀ w, .word w ∈ (D.next m c).2 → D.Regular w := by
  have hafter {t : Token} (ht : ∀ w, t = .word w → D.Regular w) :
      D.RegularSoFar (D.after t c).1 ∧ ∀ w, .word w ∈ (D.after t c).2 → D.Regular w := by
    refine ⟨(begin_spec c).1, fun w hw => ?_⟩
    rcases List.mem_cons.mp hw with hw | hw
    · exact ht w hw.symm
    · exact absurd hw ((begin_spec c).2 w)
  have hnil (m' : Mode) (hm' : D.RegularSoFar m') :
      D.RegularSoFar m' ∧ ∀ w, .word w ∈ ([] : List Token) → D.Regular w :=
    ⟨hm', fun w hw => by cases hw⟩
  cases m with
  | start => exact ⟨(begin_spec c).1, fun w hw => absurd hw ((begin_spec c).2 w)⟩
  | word w =>
    rw [next]
    split
    · rename_i hp
      exact hnil _ (Regular.append hm hp)
    · exact hafter fun u hu => by cases hu; exact hm
  | inside q v => rw [next]; split <;> exact hnil _ trivial
  | closing q v =>
    rw [next]
    split
    · exact hnil _ trivial
    · exact hafter fun u hu => absurd hu (token_ne_word q v u)
  | minus =>
    rw [next]
    split
    · exact hnil _ trivial
    · exact hafter fun u hu => by cases hu
  | line => rw [next]; split <;> exact hnil _ trivial
  | slash =>
    rw [next]
    split
    · exact hnil _ trivial
    · exact hafter fun u hu => by cases hu
  | block n => rw [next]; (repeat' split) <;> exact hnil _ trivial
  | blockStar n =>
    rw [next]
    split
    · cases n <;> exact hnil _ trivial
    · split <;> exact hnil _ trivial
  | blockSlash n => rw [next]; (repeat' split) <;> exact hnil _ trivial

/-- Each word that is read is a regular identifier. -/
theorem regular_of_mem_lex {s : Text} {m : Mode} (hm : D.RegularSoFar m) {ts : List Token}
    (h : D.lex m s = some ts) {w : Text} (hw : .word w ∈ ts) : D.Regular w := by
  induction s generalizing m ts with
  | nil =>
    rw [lex_nil] at h
    cases m with
    | word u =>
      obtain rfl := Option.some.inj h
      rw [List.mem_singleton] at hw
      cases hw
      exact hm
    | closing q v =>
      obtain rfl := Option.some.inj h
      rw [List.mem_singleton] at hw
      exact absurd hw.symm (token_ne_word q v w)
    | start => obtain rfl := Option.some.inj h; simp at hw
    | line => obtain rfl := Option.some.inj h; simp at hw
    | minus => obtain rfl := Option.some.inj h; simp at hw
    | slash => obtain rfl := Option.some.inj h; simp at hw
    | inside q v => cases h
    | block n => cases h
    | blockStar n => cases h
    | blockSlash n => cases h
  | cons c s ih =>
    rw [lex_cons, Option.map_eq_some_iff] at h
    obtain ⟨us, hus, rfl⟩ := h
    obtain ⟨hnext, hread⟩ := next_spec hm c
    rcases List.mem_append.mp hw with hw | hw
    · exact hread w hw
    · exact ih hnext hus hw

/-! ## Literals -/

theorem lex_inside {q : Delim} {f : Text} (hf : q.close ∉ f) (v s : Text) :
    D.lex (.inside q v) (f ++ s) = D.lex (.inside q (v ++ f)) s := by
  induction f generalizing v with
  | nil => rw [List.nil_append, List.append_nil]
  | cons c f ih =>
    rw [List.mem_cons, not_or] at hf
    have hn : D.next (.inside q v) c = (.inside q (v ++ [c]), []) := by
      rw [next, if_neg fun hc => hf.1 hc.symm]
    rw [List.cons_append, lex_cons, hn, ih hf.2, List.append_assoc]
    simp only [List.nil_append, Option.map_id', List.singleton_append]

/-- An open literal or name never ends without its delimiter. -/
theorem lex_inside_none {q : Delim} {f : Text} (hf : q.close ∉ f) (v : Text) :
    D.lex (.inside q v) f = none := by
  have h := D.lex_inside hf v []
  rwa [List.append_nil, lex_nil] at h

theorem lex_closing {q : Delim} {c : Char} (h : c ≠ q.close) (v s : Text) :
    D.lex (.closing q v) (c :: s) = (D.lex .start (c :: s)).map (D.token q v :: ·) := by
  refine D.lex_after ?_ s
  rw [next, if_neg h]

theorem lex_apostrophe (s : Text) :
    D.lex .start ('\'' :: s) = D.lex (.inside .apostrophe []) s := by
  have hstart : D.identStart '\'' = false := D.identStart_ascii (by decide)
  have hsp : isSpace '\'' = false := by decide
  have hb : D.next .start '\'' = (.inside .apostrophe [], []) := by
    simp only [next, begin, hstart, hsp, Bool.false_eq_true, if_false, if_true]
  rw [lex_cons, hb]
  simp only [List.nil_append, Option.map_id']

theorem lex_literal {v s : Text} {c : Char} (hv : '\'' ∉ v) (hc : c ≠ '\'') :
    D.lex .start ('\'' :: (v ++ '\'' :: c :: s)) =
      (D.lex .start (c :: s)).map (.literal v :: ·) := by
  have hq : Delim.close .apostrophe ∉ v := hv
  have hn : D.next (.inside .apostrophe v) '\'' = (.closing .apostrophe v, []) := by
    rw [next]; exact if_pos rfl
  rw [lex_apostrophe, lex_inside hq, List.nil_append, lex_cons, hn, lex_closing hc]
  simp only [List.nil_append, Option.map_id', token]

/-! ## Comments -/

/-- A line comment goes on up to the end of the line. -/
theorem lex_line {f : Text} (hf : '\n' ∉ f) : D.lex .line f = some [] := by
  induction f with
  | nil => rfl
  | cons c f ih =>
    rw [List.mem_cons, not_or] at hf
    rw [lex_cons, next, if_neg fun hc => hf.1 hc.symm, ih hf.2]
    rfl

/-- An open comment never ends without `*/`. -/
theorem lex_block_none {f : Text} (hstar : '*' ∉ f) (hslash : '/' ∉ f) (n : Nat) :
    D.lex (.block n) f = none := by
  induction f with
  | nil => rfl
  | cons c f ih =>
    rw [List.mem_cons, not_or] at hstar hslash
    rw [lex_cons, next, if_neg fun hc => hstar.1 hc.symm, if_neg fun hc => hslash.1 hc.symm,
      ih hstar.2 hslash.2]
    rfl

/-! ## The characters that tokens need -/

end Dialect

def Token.isWord : Token → Bool
  | .word _ => true
  | _ => false

def Token.size : Token → Nat
  | .word w => w.length
  | .delimited v => v.length + 2
  | .literal v => v.length + 2
  | .sign _ => 1

/-- Two words have at least one character between them; `gap`: after a word. -/
def cost : Bool → List Token → Nat
  | _, [] => 0
  | gap, t :: ts => (gap && t.isWord).toNat + t.size + cost t.isWord ts

@[simp] theorem cost_nil (gap : Bool) : cost gap [] = 0 := rfl

@[simp] theorem cost_word (gap : Bool) (w : Text) (ts : List Token) :
    cost gap (.word w :: ts) = gap.toNat + w.length + cost true ts := by
  simp only [cost, Token.isWord, Token.size, Bool.and_true]

/-- A token that is no word needs no gap. -/
theorem cost_other {t : Token} (h : t.isWord = false) (gap : Bool) (ts : List Token) :
    cost gap (t :: ts) = t.size + cost false ts := by
  simp only [cost, h, Bool.and_false, Bool.toNat_false, Nat.zero_add]

@[simp] theorem cost_sign (gap : Bool) (c : Char) (ts : List Token) :
    cost gap (.sign c :: ts) = 1 + cost false ts :=
  cost_other rfl gap ts

theorem cost_gap (g g' : Bool) (ts : List Token) : cost g ts ≤ cost g' ts + (g && !g').toNat := by
  cases ts with
  | nil => exact Nat.zero_le _
  | cons t ts =>
    have h : (g && t.isWord).toNat ≤ (g' && t.isWord).toNat + (g && !g').toNat := by
      cases g <;> cases g' <;> cases t.isWord <;> decide
    simp only [cost]
    omega

/-- The characters read for a token that did not end. -/
def Mode.size : Mode → Nat
  | .start => 0
  | .word w => w.length
  | .inside _ v => v.length + 1
  | .closing _ v => v.length + 2
  | .minus => 1
  | .line => 0
  | .slash => 1
  | .block _ => 0
  | .blockStar _ => 0
  | .blockSlash _ => 0

/-- Its first character already separates a word before it from the next. -/
def Mode.gap : Mode → Bool
  | .start => false
  | .word _ => false
  | .inside _ _ => true
  | .closing _ _ => true
  | .minus => true
  | .line => false
  | .slash => true
  | .block _ => false
  | .blockStar _ => false
  | .blockSlash _ => false

namespace Dialect

variable {D : Dialect}

theorem token_size (q : Delim) (v : Text) :
    (D.token q v).size = v.length + 2 ∧ (D.token q v).isWord = false := by
  cases q with
  | apostrophe => exact ⟨rfl, rfl⟩
  | quote => rw [token]; split <;> exact ⟨rfl, rfl⟩
  | bracket => exact ⟨rfl, rfl⟩

/-- `ts` may follow the mode `m` in a text of which `n` characters are left. -/
def Within (m : Mode) (ts : List Token) (n : Nat) : Prop := cost m.gap ts ≤ m.size + n

/-- One character pays for going from the mode `m` to `x.1` and for `x.2`. -/
def Pays (m : Mode) (x : Mode × List Token) : Prop :=
  ∀ ts n, Within x.1 ts n → Within m (x.2 ++ ts) (n + 1)

/-- Nothing is read, and a gap is one character. -/
theorem pays_silent {m m' : Mode} (h : m'.size + (m.gap && !m'.gap).toNat ≤ m.size + 1) :
    Pays m (m', []) := by
  intro ts n hw
  have hm' : cost m'.gap ts ≤ m'.size + n := hw
  have hgap := cost_gap m.gap m'.gap ts
  rw [Within, List.nil_append]
  omega

/-- A character that does not start a word leaves a gap. -/
theorem cost_begin_gap {c : Char} (hc : D.identStart c = false) {ts : List Token} {n : Nat}
    (h : Within (D.begin c).1 ts n) : cost true ((D.begin c).2 ++ ts) ≤ n + 1 := by
  have hgap : cost true ts ≤ cost false ts + 1 := cost_gap true false ts
  rcases begin_cases hc with hb | ⟨q, hb⟩ | hb | hb | hb <;> rw [hb] at h ⊢ <;>
    simp only [Within, Mode.gap, Mode.size, List.length_nil] at h
  · rw [List.nil_append]; omega
  · rw [List.nil_append]; omega
  · rw [List.nil_append]; omega
  · rw [List.nil_append]; omega
  · rw [List.singleton_append, cost_sign]; omega

theorem cost_begin (c : Char) {ts : List Token} {n : Nat} (h : Within (D.begin c).1 ts n) :
    cost false ((D.begin c).2 ++ ts) ≤ n + 1 := by
  by_cases hc : D.identStart c = true
  · rw [begin, if_pos hc] at h ⊢
    simp only [Within, Mode.gap, Mode.size, List.length_singleton] at h
    rw [List.nil_append]
    omega
  · exact Nat.le_trans (cost_gap false true _) (cost_begin_gap (by simpa using hc) h)

/-- The token `t`, no word, ended before `c`. -/
theorem pays_after {m : Mode} {t : Token} (ht : t.isWord = false) (hm : t.size ≤ m.size) (c : Char) :
    Pays m (D.after t c) := by
  intro ts n h
  have hb := cost_begin c h
  rw [Within, after, List.cons_append, cost_other ht]
  omega

/-- The word `w` ended before `c`. -/
theorem pays_word (w : Text) {c : Char} (hc : D.identPart c = false) :
    Pays (.word w) (D.after (.word w) c) := by
  intro ts n h
  have hb := cost_begin_gap (D.identStart_of_not_part hc) h
  simp only [Within, Mode.gap, Mode.size, after, List.cons_append, cost_word, Bool.toNat_false]
  omega

/-- The step lemma: each character pays for what is read with it. -/
theorem pays_next (m : Mode) (c : Char) : Pays m (D.next m c) := by
  cases m with
  | start =>
    intro ts n h
    have hb := cost_begin c h
    simp only [Within, Mode.gap, Mode.size, next]
    omega
  | word w =>
    rw [next]
    split
    · exact pays_silent (by simp [Mode.size, Mode.gap])
    · rename_i hc
      exact pays_word w (by simpa using hc)
  | inside q v =>
    rw [next]
    split <;> exact pays_silent (by simp [Mode.size, Mode.gap])
  | closing q v =>
    obtain ⟨hsize, hword⟩ := token_size (D := D) q v
    rw [next]
    split
    · exact pays_silent (by simp [Mode.size, Mode.gap])
    · refine pays_after hword ?_ c
      rw [hsize]; exact Nat.le_refl _
  | minus =>
    rw [next]
    split
    · exact pays_silent (Nat.le_succ 1)
    · refine pays_after rfl ?_ c
      exact Nat.le_refl 1
  | line => rw [next]; split <;> exact pays_silent (Nat.zero_le 1)
  | slash =>
    rw [next]
    split
    · exact pays_silent (Nat.le_succ 1)
    · refine pays_after rfl ?_ c
      exact Nat.le_refl 1
  | block k => rw [next]; (repeat' split) <;> exact pays_silent (Nat.zero_le 1)
  | blockStar k =>
    rw [next]
    split
    · cases k <;> exact pays_silent (Nat.zero_le 1)
    · split <;> exact pays_silent (Nat.zero_le 1)
  | blockSlash k => rw [next]; (repeat' split) <;> exact pays_silent (Nat.zero_le 1)

/-- The tokens of a text fit into it. -/
theorem cost_le {m : Mode} {s : Text} {ts : List Token} (h : D.lex m s = some ts) :
    cost m.gap ts ≤ m.size + s.length := by
  induction s generalizing m ts with
  | nil =>
    rw [lex_nil] at h
    cases m with
    | closing q v =>
      obtain ⟨hsize, hword⟩ := token_size (D := D) q v
      obtain rfl := Option.some.inj h
      rw [cost_other hword, hsize]
      exact Nat.le_refl _
    | start => obtain rfl := Option.some.inj h; exact Nat.le_refl _
    | word w =>
      obtain rfl := Option.some.inj h
      rw [cost_word, cost_nil]
      simp only [Mode.gap, Mode.size, Bool.toNat_false]
      omega
    | line => obtain rfl := Option.some.inj h; exact Nat.le_refl _
    | minus => obtain rfl := Option.some.inj h; exact Nat.le_refl _
    | slash => obtain rfl := Option.some.inj h; exact Nat.le_refl _
    | inside q v => cases h
    | block n => cases h
    | blockStar n => cases h
    | blockSlash n => cases h
  | cons c s ih =>
    rw [lex_cons, Option.map_eq_some_iff] at h
    obtain ⟨us, hus, rfl⟩ := h
    exact pays_next m c us s.length (ih hus)

end Dialect

end MysqlConnection.TSql
