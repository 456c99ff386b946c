import Mathlib.Algebra.Order.Ring.Nat
import MysqlConnection.Core.Literal

/-!
# The tokens of an SQL text

SQLite's rules for literals, quoted names and comments, as an automaton
(`next`). A literal starts at an apostrophe and ends at the next one that is
not doubled; two hyphens start a comment up to the end of the line, `/*` one
up to `*/`; a semicolon ends the statement. A text that ends inside a literal
or a quoted name has no tokens. The text is read up to its first NUL.

* `run_append`, `lex_append`: a text is lexed piece by piece.
* `lex_literal`: a raw text between apostrophes, with no apostrophe and no
  NUL in it, is one literal with this value.
* `lex_raw`: whatever the raw text is, its first literal has a value; it is
  the raw text only if that has no apostrophe and no NUL.
-/
namespace MysqlConnection.Sql

abbrev Text := List Char

/-! ## Decimal numbers -/

def natText (n : Nat) : Text := Nat.toDigits 10 n

def intText : Int → Text
  | .ofNat n => natText n
  | .negSucc n => '-' :: natText (n + 1)

/-- The number a canonical decimal text stands for. -/
def readNat (w : Text) : Option Nat :=
  if natText (Nat.ofDigitChars 10 w 0) = w then some (Nat.ofDigitChars 10 w 0) else none

def readInt : Text → Option Int
  | '-' :: w => (readNat w).bind fun n => if n = 0 then none else some (-n)
  | w => (readNat w).map Int.ofNat

/-- Largest integer, and largest row id, of SQLite. -/
def maxInt : Nat := 2 ^ 63 - 1

theorem isDigit_natText {n : Nat} : ∀ c ∈ natText n, c.isDigit = true := by
  intro c hc
  exact Nat.isDigit_of_mem_toDigits (by omega) (by omega) hc

theorem natText_ne_nil (n : Nat) : natText n ≠ [] := Nat.toDigits_ne_nil

theorem readNat_natText (n : Nat) : readNat (natText n) = some n := by
  simp only [readNat, natText, Nat.ofDigitChars_ten_toDigits, if_true]

theorem readInt_intText (i : Int) : readInt (intText i) = some i := by
  cases i with
  | ofNat n =>
    obtain ⟨c, w, hw⟩ := List.exists_cons_of_ne_nil (natText_ne_nil n)
    have hc : c ≠ '-' := by
      rintro rfl
      have := isDigit_natText (n := n) '-' (by rw [hw]; exact List.mem_cons_self)
      revert this; decide
    have hr : readInt (natText n) = (readNat (natText n)).map Int.ofNat := by
      rw [hw]
      unfold readInt
      split
      · rename_i heq; exact absurd (List.cons.inj heq).1 hc
      · rfl
    rw [intText, hr, readNat_natText]; rfl
  | negSucc n =>
    rw [intText, readInt, readNat_natText]
    show (if n + 1 = 0 then none else some (-((n + 1 : Nat) : Int))) = _
    rw [if_neg (by omega)]; rfl

theorem intText_natCast (n : Nat) : intText n = natText n := rfl

/-! ## Tokens -/

inductive Const where
  | text (v : Text)
  | int (i : Int)
  deriving DecidableEq, Repr

/-- `word`: a keyword, a name, or a number that is no `Const`. -/
inductive Token where
  | const (c : Const)
  | word (w : Text)
  | quoted (v : Text)
  | sign (c : Char)
  deriving DecidableEq, Repr

/-- `litQuote` and `identQuote`: after a delimiter that ends the literal (the
name) or is the first of a doubled one. `opened`: right after `/*`. -/
inductive Mode where
  | start
  | word (w : Text)
  | lit (v : Text)
  | litQuote (v : Text)
  | ident (q : Char) (v : Text)
  | identQuote (q : Char) (v : Text)
  | bracket (v : Text)
  | minus
  | line
  | slash
  | opened
  | block
  | star
  | done
  deriving DecidableEq, Repr

def isSpace (c : Char) : Bool :=
  c = ' ' || c = '\t' || c = '\n' || c = '\r' || c = Char.ofNat 12

def isWordChar (c : Char) : Bool := c.isAlphanum || c = '_' || c = '$' || 128 ≤ c.toNat

/-- A canonical integer of 64 bits is a constant. -/
def ofWord (w : Text) : Token :=
  match readInt w with
  | some i => if i.natAbs ≤ maxInt then .const (.int i) else .word w
  | none => .word w

/-- What a character outside of all tokens starts. -/
def begin (c : Char) : Mode × List Token :=
  if isSpace c then (.start, [])
  else if c = '\'' then (.lit [], [])
  else if c = '"' || c = Char.ofNat 96 then (.ident c [], [])
  else if c = '[' then (.bracket [], [])
  else if c = '-' then (.minus, [])
  else if c = '/' then (.slash, [])
  else if c = ';' then (.done, [])
  else if isWordChar c then (.word [c], [])
  else (.start, [.sign c])

/-- The token `t` ended before the character `c`. -/
def after (t : Token) (c : Char) : Mode × List Token := ((begin c).1, t :: (begin c).2)

/-- A hyphen right before a digit is read as part of the number. -/
def next : Mode → Char → Mode × List Token
  | .start, c => begin c
  | .word w, c => if isWordChar c then (.word (w ++ [c]), []) else after (ofWord w) c
  | .lit v, c => if c = '\'' then (.litQuote v, []) else (.lit (v ++ [c]), [])
  | .litQuote v, c => if c = '\'' then (.lit (v ++ [c]), []) else after (.const (.text v)) c
  | .ident q v, c => if c = q then (.identQuote q v, []) else (.ident q (v ++ [c]), [])
  | .identQuote q v, c => if c = q then (.ident q (v ++ [c]), []) else after (.quoted v) c
  | .bracket v, c => if c = ']' then (.start, [.quoted v]) else (.bracket (v ++ [c]), [])
  | .minus, c =>
    if c = '-' then (.line, []) else if c.isDigit then (.word ['-', c], []) else after (.sign '-') c
  | .line, c => if c = '\n' then (.start, []) else (.line, [])
  | .slash, c => if c = '*' then (.opened, []) else after (.sign '/') c
  | .opened, c => if c = '*' then (.star, []) else (.block, [])
  | .block, c => if c = '*' then (.star, []) else (.block, [])
  | .star, c => if c = '/' then (.start, []) else if c = '*' then (.star, []) else (.block, [])
  | .done, _ => (.done, [])

/-- The tokens that end with the text; a comment may be left open. -/
def finish : Mode → Option (List Token)
  | .start => some []
  | .word w => some [ofWord w]
  | .lit _ => none
  | .litQuote v => some [.const (.text v)]
  | .ident _ _ => none
  | .identQuote _ v => some [.quoted v]
  | .bracket _ => none
  | .minus => some [.sign '-']
  | .line => some []
  | .slash => some [.sign '/']
  | .opened => some [.sign '/', .sign '*']
  | .block => some []
  | .star => some []
  | .done => some []

def run : Mode → Text → Mode × List Token
  | m, [] => (m, [])
  | m, c :: cs => ((run (next m c).1 cs).1, (next m c).2 ++ (run (next m c).1 cs).2)

def lex (m : Mode) (cs : Text) : Option (List Token) :=
  (finish (run m cs).1).map ((run m cs).2 ++ ·)

/-- A C string ends at the first NUL. -/
def cString (s : Text) : Text := s.takeWhile (· != Char.ofNat 0)

def tokens (s : Text) : Option (List Token) := lex .start (cString s)

/-! ## Lexing piece by piece -/

theorem run_append (m : Mode) (a b : Text) :
    run m (a ++ b) = ((run (run m a).1 b).1, (run m a).2 ++ (run (run m a).1 b).2) := by
  induction a generalizing m with
  | nil => rfl
  | cons c a ih => simp only [List.cons_append, run, ih, List.append_assoc]

theorem lex_append (m : Mode) (a b : Text) :
    lex m (a ++ b) = (lex (run m a).1 b).map ((run m a).2 ++ ·) := by
  simp only [lex, run_append, Option.map_map, Function.comp_def, List.append_assoc]

theorem lex_cons (m : Mode) (c : Char) (cs : Text) :
    lex m (c :: cs) = (lex (next m c).1 cs).map ((next m c).2 ++ ·) := by
  have h := lex_append m [c] cs
  simpa only [List.singleton_append, run, List.append_nil] using h

/-- From a text that leaves the automaton outside of all tokens. -/
theorem lex_append_start {m : Mode} {a : Text} {ts : List Token} (h : run m a = (.start, ts))
    (b : Text) : lex m (a ++ b) = (lex .start b).map (ts ++ ·) := by
  rw [lex_append, h]

theorem cString_append {a : Text} (h : Char.ofNat 0 ∉ a) (b : Text) :
    cString (a ++ b) = a ++ cString b := by
  refine List.takeWhile_append_of_pos ?_
  intro c hc
  simp only [bne_iff_ne, ne_eq]
  rintro rfl
  exact h hc

theorem not_mem_cString (s : Text) : Char.ofNat 0 ∉ cString s := by
  intro h
  have hall : (cString s).all (· != Char.ofNat 0) = true := List.all_takeWhile
  rw [List.all_eq_true] at hall
  exact absurd (hall _ h) (by decide)

/-! ## Literals -/

/-- Neither of the characters that end a literal early. -/
def Plain (f : Text) : Prop := '\'' ∉ f ∧ Char.ofNat 0 ∉ f

instance : DecidablePred Plain := fun f => by unfold Plain; exact inferInstance

theorem run_lit {f : Text} (h : '\'' ∉ f) (v : Text) : run (.lit v) f = (.lit (v ++ f), []) := by
  induction f generalizing v with
  | nil => simp [run]
  | cons c f ih =>
    rw [List.mem_cons, not_or] at h
    have hn : next (.lit v) c = (.lit (v ++ [c]), []) := by
      simp only [next, if_neg fun hc : c = '\'' => h.1 hc.symm]
    simp only [run, hn, ih h.2, List.append_assoc, List.singleton_append, List.nil_append]

/-- What follows a literal that ended. -/
theorem lex_litQuote {c : Char} (hc : c ≠ '\'') (v cs : Text) :
    lex (.litQuote v) (c :: cs) = (lex .start (c :: cs)).map (.const (.text v) :: ·) := by
  rw [lex_cons, lex_cons]
  simp only [next, if_neg hc, after, Option.map_map, Function.comp_def, List.cons_append]

/-- The text after the start of a literal has the value of the literal at its
front, with apostrophes doubled. -/
theorem doubled_of_lex_lit {u : Text} :
    (∀ {v : Text} {ts : List Token}, lex (.lit v) u = some ts →
      ∃ w r ts', u = Literal.doubled '\'' w ++ '\'' :: r ∧ ts = .const (.text (v ++ w)) :: ts') ∧
    ∀ {v : Text} {ts : List Token}, lex (.litQuote v) u = some ts →
      ∃ w r ts', '\'' :: u = Literal.doubled '\'' w ++ '\'' :: r ∧
        ts = .const (.text (v ++ w)) :: ts' := by
  induction u with
  | nil =>
    constructor
    · intro v ts h; cases h
    · intro v ts h
      refine ⟨[], [], [], rfl, ?_⟩
      rw [List.append_nil]
      exact (Option.some.inj h).symm
  | cons c u ih =>
    obtain ⟨ihl, ihq⟩ := ih
    constructor
    · intro v ts h
      by_cases hc : c = '\''
      · subst hc
        refine ihq ?_
        rw [lex_cons] at h
        simpa [next] using h
      · have hl : lex (.lit (v ++ [c])) u = some ts := by
          rw [lex_cons] at h
          simpa [next, hc] using h
        obtain ⟨w, r, ts', hu, hts⟩ := ihl hl
        refine ⟨c :: w, r, ts', ?_, ?_⟩
        · rw [Literal.doubled_cons, if_neg hc, hu]; rfl
        · rw [hts, List.append_assoc]; rfl
    · intro v ts h
      by_cases hc : c = '\''
      · subst hc
        have hl : lex (.lit (v ++ ['\''])) u = some ts := by
          rw [lex_cons] at h
          simpa [next] using h
        obtain ⟨w, r, ts', hu, hts⟩ := ihl hl
        refine ⟨'\'' :: w, r, ts', ?_, ?_⟩
        · rw [Literal.doubled_cons, if_pos rfl, hu]; rfl
        · rw [hts, List.append_assoc]; rfl
      · rw [lex_litQuote hc] at h
        obtain ⟨ts', -, rfl⟩ := Option.map_eq_some_iff.mp h
        refine ⟨[], c :: u, ts', rfl, ?_⟩
        rw [List.append_nil]

/-- A text that a literal can be followed by. -/
def Follows (s : Text) : Prop := ∃ c r, s = c :: r ∧ c ≠ '\'' ∧ c ≠ Char.ofNat 0

theorem Follows.cString {s : Text} (h : Follows s) : Follows (cString s) := by
  obtain ⟨c, r, rfl, hq, h0⟩ := h
  refine ⟨c, Sql.cString r, ?_, hq, h0⟩
  have hn : Char.ofNat 0 ∉ [c] := by
    rw [List.mem_singleton]; exact fun h => h0 h.symm
  exact cString_append hn r

theorem lex_literal {f s : Text} (hf : Plain f) (hs : Follows s) :
    lex (.lit []) (cString (f ++ '\'' :: s)) =
      (lex .start (cString s)).map (.const (.text f) :: ·) := by
  have h0 : Char.ofNat 0 ∉ f ++ ['\''] := by
    rw [List.mem_append, List.mem_singleton, not_or]
    exact ⟨hf.2, by decide⟩
  have hcs : cString (f ++ '\'' :: s) = f ++ '\'' :: cString s := by
    have := cString_append h0 s
    rwa [List.append_assoc, List.append_assoc] at this
  obtain ⟨c, r, hr, hq, -⟩ := hs.cString
  rw [hcs, lex_append, run_lit hf.1, lex_cons, hr]
  simp only [next, if_true, List.nil_append, lex_litQuote hq, Option.map_map, Function.comp_def]

/-- The first literal of a raw text and what is known of its value. -/
theorem lex_raw {f s : Text} {ts : List Token} (hs : Follows s)
    (h : lex (.lit []) (cString (f ++ '\'' :: s)) = some ts) :
    ∃ v ts', ts = .const (.text v) :: ts' ∧
      (v = f → Plain f ∧ lex .start (cString s) = some ts') := by
  by_cases hf : Plain f
  · rw [lex_literal hf hs] at h
    obtain ⟨ts', hts, rfl⟩ := Option.map_eq_some_iff.mp h
    exact ⟨f, ts', rfl, fun _ => ⟨hf, hts⟩⟩
  · obtain ⟨w, r, ts', hu, hts⟩ := doubled_of_lex_lit.1 h
    rw [List.nil_append] at hts
    refine ⟨w, ts', hts, fun hw => absurd ?_ hf⟩
    subst hw
    have h0 : Char.ofNat 0 ∉ w := by
      intro hm
      refine not_mem_cString (w ++ '\'' :: s) ?_
      rw [hu]
      exact List.mem_append_left _ (Literal.mem_doubled '\'' hm)
    refine ⟨?_, h0⟩
    rw [cString_append h0] at hu
    have hq0 : Char.ofNat 0 ∉ ['\''] := by decide
    rw [show '\'' :: s = ['\''] ++ s from rfl, cString_append hq0] at hu
    obtain ⟨c, r', hr, hq, -⟩ := hs.cString
    rw [hr] at hu
    exact Literal.not_mem_of_doubled '\'' hq hu

/-! ## Numbers -/

theorem isWordChar_of_isDigit {c : Char} (h : c.isDigit = true) : isWordChar c = true := by
  simp [isWordChar, Char.isAlphanum, h]

theorem run_word {f : Text} (h : ∀ c ∈ f, isWordChar c = true) (w : Text) :
    run (.word w) f = (.word (w ++ f), []) := by
  induction f generalizing w with
  | nil => simp [run]
  | cons c f ih =>
    have hn : next (.word w) c = (.word (w ++ [c]), []) := by
      simp only [next, if_pos (h c List.mem_cons_self)]
    have hf : ∀ d ∈ f, isWordChar d = true := fun d hd => h d (List.mem_cons_of_mem _ hd)
    simp only [run, hn, ih hf, List.append_assoc, List.singleton_append, List.nil_append]

theorem begin_digit {c : Char} (h : c.isDigit = true) : begin c = (.word [c], []) := by
  have hn : ∀ d : Char, d.isDigit = false → c ≠ d := by
    rintro d hd rfl
    rw [h] at hd; cases hd
  have hs : isSpace c = false := by
    simp only [isSpace, Bool.or_eq_false_iff, decide_eq_false_iff_not]
    exact ⟨⟨⟨⟨hn _ rfl, hn _ rfl⟩, hn _ rfl⟩, hn _ rfl⟩, hn _ rfl⟩
  have hq : (decide (c = '"') || decide (c = Char.ofNat 96)) = false := by
    simp only [Bool.or_eq_false_iff, decide_eq_false_iff_not]
    exact ⟨hn _ rfl, hn _ rfl⟩
  simp only [begin, hs, Bool.false_eq_true, if_false, if_neg (hn '\'' rfl), hq,
    if_neg (hn '[' rfl), if_neg (hn '-' rfl), if_neg (hn '/' rfl), if_neg (hn ';' rfl),
    isWordChar_of_isDigit h, if_true]

theorem run_natText (n : Nat) : run .start (natText n) = (.word (natText n), []) := by
  obtain ⟨c, w, hw⟩ := List.exists_cons_of_ne_nil (natText_ne_nil n)
  have hd := isDigit_natText (n := n)
  rw [hw] at hd ⊢
  have hw' : ∀ d ∈ w, isWordChar d = true :=
    fun d hd' => isWordChar_of_isDigit (hd d (List.mem_cons_of_mem _ hd'))
  simp only [run, next, begin_digit (hd c List.mem_cons_self), run_word hw', List.nil_append,
    List.singleton_append]

theorem run_intText (i : Int) : run .start (intText i) = (.word (intText i), []) := by
  cases i with
  | ofNat n => exact run_natText n
  | negSucc n =>
    obtain ⟨c, w, hw⟩ := List.exists_cons_of_ne_nil (natText_ne_nil (n + 1))
    have hd := isDigit_natText (n := n + 1)
    rw [intText, hw] at *
    have hw' : ∀ d ∈ w, isWordChar d = true :=
      fun d hd' => isWordChar_of_isDigit (hd d (List.mem_cons_of_mem _ hd'))
    have hc : c ≠ '-' := by
      rintro rfl
      have := hd '-' List.mem_cons_self
      revert this; decide
    have h1 : next .start '-' = (.minus, []) := by decide
    have h2 : next .minus c = (.word ['-', c], []) := by
      simp only [next, if_neg hc, if_pos (hd c List.mem_cons_self)]
    simp only [run, h1, h2, run_word hw', List.nil_append]
    rfl

theorem ofWord_intText {i : Int} (h : i.natAbs ≤ maxInt) : ofWord (intText i) = .const (.int i) := by
  simp only [ofWord, readInt_intText, if_pos h]

end MysqlConnection.Sql
