import MysqlConnection.Core.SqlLexer

/-!
# Date patterns

A pattern of letters and other characters, as a formatter of dates reads it: a
run of one letter is a number padded to as many digits, another character
stands for itself. Reading takes all digits that follow for a number, however
many the letter is repeated.

* `parse_format`: if no digit follows a number, the numbers are read back, so
  equal texts have equal numbers (`fields_inj`).
-/
namespace MysqlConnection.DatePattern

abbrev Text := List Char

/-- Year of the era, month, day, hour from 1 to 12, minute, second. -/
inductive Letter where
  | y
  | M
  | d
  | h
  | m
  | s
  deriving DecidableEq, Repr

def Letter.ofChar (c : Char) : Option Letter :=
  if c = 'y' then some .y
  else if c = 'M' then some .M
  else if c = 'd' then some .d
  else if c = 'h' then some .h
  else if c = 'm' then some .m
  else if c = 's' then some .s
  else none

inductive Item where
  | field (l : Letter) (width : Nat)
  | text (c : Char)
  deriving DecidableEq, Repr

/-- A letter in front joins a run of the same one. -/
def joinField (l : Letter) : List Item → List Item
  | .field l' width :: items =>
    if l = l' then .field l (width + 1) :: items else .field l 1 :: .field l' width :: items
  | items => .field l 1 :: items

def compile : Text → List Item
  | [] => []
  | c :: s =>
    match Letter.ofChar c with
    | some l => joinField l (compile s)
    | none => .text c :: compile s

/-- At least `width` digits. -/
def pad (width n : Nat) : Text :=
  List.replicate (width - (Sql.natText n).length) '0' ++ Sql.natText n

def format (val : Letter → Nat) : List Item → Text
  | [] => []
  | .field l width :: items => pad width (val l) ++ format val items
  | .text c :: items => c :: format val items

def parse : List Item → Text → Option (List (Letter × Nat))
  | [], s => if s = [] then some [] else none
  | .field l _ :: items, s =>
    if s.takeWhile Char.isDigit = [] then none
    else
      (parse items (s.dropWhile Char.isDigit)).map
        ((l, Nat.ofDigitChars 10 (s.takeWhile Char.isDigit) 0) :: ·)
  | .text c :: items, s =>
    match s with
    | [] => none
    | d :: s => if c = d then parse items s else none

/-- The numbers of the pattern with their values. -/
def fields (val : Letter → Nat) : List Item → List (Letter × Nat)
  | [] => []
  | .field l _ :: items => (l, val l) :: fields val items
  | .text _ :: items => fields val items

/-- No digit follows a number. -/
def Separated : List Item → Prop
  | [] => True
  | .field _ _ :: items =>
    (match items with
      | [] => True
      | .field _ _ :: _ => False
      | .text c :: _ => c.isDigit = false) ∧ Separated items
  | .text _ :: items => Separated items

theorem isDigit_pad (width n : Nat) : ∀ c ∈ pad width n, c.isDigit = true := by
  intro c hc
  rcases List.mem_append.mp hc with hc | hc
  · rw [List.eq_of_mem_replicate hc]
    decide
  · exact Sql.isDigit_natText c hc

theorem pad_ne_nil (width n : Nat) : pad width n ≠ [] :=
  List.append_ne_nil_of_right_ne_nil _ (Sql.natText_ne_nil n)

theorem ofDigitChars_pad (width n : Nat) : Nat.ofDigitChars 10 (pad width n) 0 = n := by
  rw [pad, Nat.ofDigitChars_append, Nat.ofDigitChars_replicate_zero, Nat.mul_zero]
  exact Nat.ofDigitChars_ten_toDigits

/-- Digits end where no digit follows. -/
theorem takeWhile_digits {ds s : Text} (hd : ∀ c ∈ ds, c.isDigit = true)
    (hs : ∀ c ∈ s.head?, c.isDigit = false) :
    (ds ++ s).takeWhile Char.isDigit = ds ∧ (ds ++ s).dropWhile Char.isDigit = s := by
  have hnone : s.takeWhile Char.isDigit = [] ∧ s.dropWhile Char.isDigit = s := by
    cases s with
    | nil => exact ⟨rfl, rfl⟩
    | cons c s =>
      have hc : c.isDigit = false := hs c rfl
      simp [hc]
  rw [List.takeWhile_append_of_pos hd, List.dropWhile_append_of_pos hd, hnone.1, hnone.2,
    List.append_nil]
  exact ⟨rfl, rfl⟩

theorem head_format (val : Letter → Nat) {l : Letter} {width : Nat} {items : List Item}
    (h : Separated (.field l width :: items)) : ∀ c ∈ (format val items).head?, c.isDigit = false := by
  intro c hc
  match items, h, hc with
  | .text d :: items, h, hc =>
    rw [format, List.head?_cons, Option.mem_some_iff] at hc
    exact hc ▸ h.1

theorem parse_format (val : Letter → Nat) {items : List Item} (h : Separated items) :
    parse items (format val items) = some (fields val items) := by
  induction items with
  | nil => rfl
  | cons item items ih =>
    cases item with
    | field l width =>
      obtain ⟨ht, hd⟩ := takeWhile_digits (isDigit_pad width (val l)) (head_format val h)
      rw [format, parse, ht, hd, if_neg (pad_ne_nil _ _), ih h.2, Option.map_some, ofDigitChars_pad]
      rfl
    | text c =>
      rw [format, parse]
      simp only [if_true]
      exact ih h

theorem fields_inj {val val' : Letter → Nat} {items : List Item} (h : Separated items)
    (he : format val items = format val' items) : fields val items = fields val' items := by
  have hp := parse_format val h
  rw [he, parse_format val' h] at hp
  exact (Option.some.inj hp).symm

theorem mem_format {val : Letter → Nat} {items : List Item} {c : Char} (h : c ∈ format val items) :
    c.isDigit = true ∨ .text c ∈ items := by
  induction items with
  | nil => cases h
  | cons item items ih =>
    cases item with
    | field l width =>
      rcases List.mem_append.mp h with h | h
      · exact Or.inl (isDigit_pad _ _ c h)
      · exact (ih h).imp_right (List.mem_cons_of_mem _)
    | text d =>
      rcases List.mem_cons.mp h with rfl | h
      · exact Or.inr List.mem_cons_self
      · exact (ih h).imp_right (List.mem_cons_of_mem _)

end MysqlConnection.DatePattern
