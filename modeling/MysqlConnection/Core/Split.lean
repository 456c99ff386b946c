import Mathlib.Algebra.Order.Ring.Nat
import MysqlConnection.Core.Literal

/-!
# A text split at its literals

`split` reads a text left to right: a delimiter `q` starts a literal, the next
delimiter that is not doubled ends it, everything else is code. A text that
ends inside a literal has no split.

* `Reads t ps`: wherever the text `t` stands in code, its pieces are `ps`.
  Texts that read can be appended and joined (`Reads.append`,
  `reads_intercalate`); code reads, and a literal whose value has no delimiter.
* `length_of_split`: a split determines the length of its text, a delimiter
  inside a literal counting twice.
* `code_of_split`: code contains no delimiter.
-/
namespace MysqlConnection

inductive Piece (α : Type) where
  | code (c : α)
  | literal (v : List α)
  deriving DecidableEq, Repr

namespace Split

variable {α : Type} [DecidableEq α] (q : α)

/-- `quote v`: after a delimiter that ends the literal `v` or is the first of
a doubled one. -/
inductive Mode (α : Type) where
  | code
  | lit (v : List α)
  | quote (v : List α)

def pieces : Mode α → List α → Option (List (Piece α))
  | .code, [] => some []
  | .lit _, [] => none
  | .quote v, [] => some [.literal v]
  | .code, c :: cs => if c = q then pieces (.lit []) cs else (pieces .code cs).map (.code c :: ·)
  | .lit v, c :: cs => if c = q then pieces (.quote v) cs else pieces (.lit (v ++ [c])) cs
  | .quote v, c :: cs =>
    if c = q then pieces (.lit (v ++ [q])) cs
    else (pieces .code cs).map fun ps => .literal v :: .code c :: ps

def split (cs : List α) : Option (List (Piece α)) := pieces q .code cs

/-! ## The pieces of a split -/

def Piece.code? : Piece α → Option α
  | .code c => some c
  | .literal _ => none

def Piece.literal? : Piece α → Option (List α)
  | .code _ => none
  | .literal v => some v

def codeOf (ps : List (Piece α)) : List α := ps.filterMap Piece.code?

def literalsOf (ps : List (Piece α)) : List (List α) := ps.filterMap Piece.literal?

section
omit [DecidableEq α]

@[simp] theorem codeOf_nil : codeOf ([] : List (Piece α)) = [] := rfl

@[simp] theorem codeOf_cons_code (c : α) (ps : List (Piece α)) :
    codeOf (.code c :: ps) = c :: codeOf ps := rfl

@[simp] theorem codeOf_cons_literal (v : List α) (ps : List (Piece α)) :
    codeOf (.literal v :: ps) = codeOf ps := rfl

@[simp] theorem literalsOf_nil : literalsOf ([] : List (Piece α)) = [] := rfl

@[simp] theorem literalsOf_cons_code (c : α) (ps : List (Piece α)) :
    literalsOf (.code c :: ps) = literalsOf ps := rfl

@[simp] theorem literalsOf_cons_literal (v : List α) (ps : List (Piece α)) :
    literalsOf (.literal v :: ps) = v :: literalsOf ps := rfl

@[simp] theorem codeOf_append (ps qs : List (Piece α)) : codeOf (ps ++ qs) = codeOf ps ++ codeOf qs :=
  List.filterMap_append

@[simp] theorem literalsOf_append (ps qs : List (Piece α)) :
    literalsOf (ps ++ qs) = literalsOf ps ++ literalsOf qs := List.filterMap_append

@[simp] theorem codeOf_code (cs : List α) : codeOf (cs.map Piece.code) = cs := by
  rw [codeOf, List.filterMap_map]; exact List.filterMap_some

@[simp] theorem literalsOf_code (cs : List α) : literalsOf (cs.map Piece.code) = [] := by
  rw [literalsOf, List.filterMap_map, List.filterMap_eq_nil_iff]; intro c _; rfl

end

/-! ## Texts with a known split -/

theorem pieces_lit_cons {c : α} (hc : c ≠ q) (v cs : List α) :
    pieces q (.lit v) (c :: cs) = pieces q (.lit (v ++ [c])) cs := by rw [pieces, if_neg hc]

theorem pieces_lit_close (v cs : List α) : pieces q (.lit v) (q :: cs) = pieces q (.quote v) cs := by
  rw [pieces, if_pos rfl]

/-- The first character after a literal is read as code. -/
theorem pieces_quote_cons {c : α} (hc : c ≠ q) (v cs : List α) :
    pieces q (.quote v) (c :: cs) = (pieces q .code (c :: cs)).map (.literal v :: ·) := by
  rw [pieces, if_neg hc, pieces, if_neg hc, Option.map_map]; rfl

theorem pieces_code {a : List α} (h : q ∉ a) (b : List α) :
    pieces q .code (a ++ b) = (pieces q .code b).map (a.map Piece.code ++ ·) := by
  induction a with
  | nil => simp
  | cons c a ih =>
    rw [List.mem_cons, not_or] at h
    rw [List.cons_append, pieces, if_neg fun hc => h.1 hc.symm, ih h.2, Option.map_map]
    rfl

theorem pieces_lit {t : List α} (h : q ∉ t) (v : List α) {x : α} (hx : x ≠ q) (b : List α) :
    pieces q (.lit v) (t ++ q :: x :: b) =
      (pieces q .code (x :: b)).map (Piece.literal (v ++ t) :: ·) := by
  induction t generalizing v with
  | nil => rw [List.nil_append, pieces_lit_close, pieces_quote_cons q hx, List.append_nil]
  | cons c t ih =>
    rw [List.mem_cons, not_or] at h
    have hc : c ≠ q := fun hc => h.1 hc.symm
    rw [List.cons_append, pieces_lit_cons q hc, ih h.2, List.append_assoc, List.singleton_append]

/-- Whatever follows `t`, its pieces are `ps`. -/
def Reads (t : List α) (ps : List (Piece α)) : Prop :=
  ∀ rest, pieces q .code (t ++ rest) = (pieces q .code rest).map (ps ++ ·)

theorem Reads.append {a b : List α} {ps qs : List (Piece α)} (ha : Reads q a ps) (hb : Reads q b qs) :
    Reads q (a ++ b) (ps ++ qs) := by
  intro rest
  rw [List.append_assoc, ha, hb, Option.map_map]
  simp [Function.comp_def]

theorem Reads.split {t : List α} {ps : List (Piece α)} (h : Reads q t ps) : split q t = some ps := by
  have h0 := h []
  rw [List.append_nil, pieces] at h0
  rw [Split.split, h0]; simp

theorem reads_nil : Reads q [] [] := by intro rest; simp

theorem reads_code {a : List α} (ha : q ∉ a) : Reads q a (a.map Piece.code) := fun rest => pieces_code q ha rest

/-- A literal whose value has no delimiter, and the character after it. -/
theorem reads_literal {t : List α} (ht : q ∉ t) {x : α} (hx : x ≠ q) :
    Reads q (q :: (t ++ [q, x])) [.literal t, .code x] := by
  intro rest
  have h := pieces_lit q ht [] hx rest
  rw [pieces, if_neg hx, Option.map_map] at h
  rw [List.cons_append, pieces, if_pos rfl, List.append_assoc]
  exact h

/-- Texts joined by a separator. -/
theorem reads_intercalate {sep : List α} {ss : List (Piece α)} (hs : Reads q sep ss)
    {ι : Type} {f : ι → List α} {g : ι → List (Piece α)} {l : List ι} (h : ∀ i ∈ l, Reads q (f i) (g i)) :
    Reads q (sep.intercalate (l.map f)) (ss.intercalate (l.map g)) := by
  induction l with
  | nil => exact reads_nil q
  | cons i l ih =>
    have hi := h i List.mem_cons_self
    cases l with
    | nil => simpa using hi
    | cons j l =>
      simp only [List.map_cons, List.intercalate_cons_cons] at ih ⊢
      exact (hi.append q hs).append q (ih fun k hk => h k (List.mem_cons_of_mem _ hk))

/-! ## What a split says about its text -/

/-- The characters already read in a mode. -/
def Mode.read : Mode α → List α
  | .code => []
  | .lit v => q :: Literal.doubled q v
  | .quote v => q :: (Literal.doubled q v ++ [q])

def Piece.text : Piece α → List α
  | .code c => [c]
  | .literal v => q :: (Literal.doubled q v ++ [q])

/-- A split gives its text back. -/
theorem text_of_pieces : ∀ {m : Mode α} {cs : List α} {ps : List (Piece α)},
    pieces q m cs = some ps → ps.flatMap (Piece.text q) = m.read q ++ cs
  | .code, [], ps, h => by
    simp only [pieces, Option.some.injEq] at h; subst h; rfl
  | .lit v, [], ps, h => by simp [pieces] at h
  | .quote v, [], ps, h => by
    simp only [pieces, Option.some.injEq] at h; subst h
    simp [Piece.text, Mode.read]
  | .code, c :: cs, ps, h => by
    rw [pieces] at h
    by_cases hc : c = q
    · rw [if_pos hc] at h
      rw [text_of_pieces h, hc]; rfl
    · rw [if_neg hc, Option.map_eq_some_iff] at h
      obtain ⟨ps', h', rfl⟩ := h
      rw [List.flatMap_cons, text_of_pieces h']; rfl
  | .lit v, c :: cs, ps, h => by
    rw [pieces] at h
    by_cases hc : c = q
    · rw [if_pos hc] at h
      rw [text_of_pieces h, hc]; simp [Mode.read]
    · rw [if_neg hc] at h
      rw [text_of_pieces h]; simp [Mode.read, Literal.doubled_cons, hc]
  | .quote v, c :: cs, ps, h => by
    rw [pieces] at h
    by_cases hc : c = q
    · rw [if_pos hc] at h
      rw [text_of_pieces h, hc]; simp [Mode.read, Literal.doubled_cons]
    · rw [if_neg hc, Option.map_eq_some_iff] at h
      obtain ⟨ps', h', rfl⟩ := h
      rw [List.flatMap_cons, List.flatMap_cons, text_of_pieces h']
      simp [Piece.text, Mode.read]

theorem length_of_split {cs : List α} {ps : List (Piece α)} (h : split q cs = some ps) :
    cs.length = (codeOf ps).length + ((literalsOf ps).map fun v => v.length + v.count q + 2).sum := by
  have ht := congrArg List.length (text_of_pieces q h)
  rw [Mode.read, List.nil_append] at ht
  rw [← ht]
  clear ht h
  induction ps with
  | nil => rfl
  | cons p ps ih =>
    rw [List.flatMap_cons, List.length_append, ih]
    cases p with
    | code c => simp [Piece.text]; omega
    | literal v => simp [Piece.text, Literal.length_doubled]; omega

theorem code_of_pieces : ∀ {m : Mode α} {cs : List α} {ps : List (Piece α)},
    pieces q m cs = some ps → q ∉ codeOf ps
  | .code, [], ps, h => by
    simp only [pieces, Option.some.injEq] at h; subst h; exact List.not_mem_nil
  | .lit v, [], ps, h => by simp [pieces] at h
  | .quote v, [], ps, h => by
    simp only [pieces, Option.some.injEq] at h; subst h; exact List.not_mem_nil
  | .code, c :: cs, ps, h => by
    rw [pieces] at h
    by_cases hc : c = q
    · rw [if_pos hc] at h; exact code_of_pieces h
    · rw [if_neg hc, Option.map_eq_some_iff] at h
      obtain ⟨ps', h', rfl⟩ := h
      have hm : q ∉ c :: codeOf ps' := by
        rw [List.mem_cons, not_or]; exact ⟨fun he => hc he.symm, code_of_pieces h'⟩
      exact hm
  | .lit v, c :: cs, ps, h => by
    rw [pieces] at h
    by_cases hc : c = q
    · rw [if_pos hc] at h; exact code_of_pieces h
    · rw [if_neg hc] at h; exact code_of_pieces h
  | .quote v, c :: cs, ps, h => by
    rw [pieces] at h
    by_cases hc : c = q
    · rw [if_pos hc] at h; exact code_of_pieces h
    · rw [if_neg hc, Option.map_eq_some_iff] at h
      obtain ⟨ps', h', rfl⟩ := h
      have hm : q ∉ c :: codeOf ps' := by
        rw [List.mem_cons, not_or]; exact ⟨fun he => hc he.symm, code_of_pieces h'⟩
      exact hm

/-- Code contains no delimiter. -/
theorem code_of_split {cs : List α} {ps : List (Piece α)} (h : split q cs = some ps) : q ∉ codeOf ps :=
  code_of_pieces q h

end Split
end MysqlConnection
