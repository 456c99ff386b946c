import Mathlib.Data.List.Basic

/-!
# Literals closed by a delimiter that is doubled inside

SQL string literals: between two delimiters `q`, a delimiter in the value is
written twice (`doubled`). Texts are lists over any type with decidable
equality.

* `length_doubled`: doubling adds one character for each delimiter.
* `not_mem_of_doubled`: a raw text followed by a delimiter and a character
  that is none reads back as itself only if it contains no delimiter.
-/
namespace MysqlConnection.Literal

variable {α : Type} [DecidableEq α] (q : α)

/-- The value `v` as it is written between the delimiters. -/
def doubled (v : List α) : List α := v.flatMap fun c => if c = q then [q, q] else [c]

@[simp] theorem doubled_nil : doubled q [] = [] := rfl

theorem doubled_cons (c : α) (v : List α) :
    doubled q (c :: v) = (if c = q then [q, q] else [c]) ++ doubled q v := rfl

@[simp] theorem doubled_append (v w : List α) : doubled q (v ++ w) = doubled q v ++ doubled q w :=
  List.flatMap_append

theorem length_doubled (v : List α) : (doubled q v).length = v.length + v.count q := by
  induction v with
  | nil => rfl
  | cons c v ih =>
    rw [doubled_cons, List.length_append, ih, List.count_cons]
    by_cases h : c = q
    · simp [h]; omega
    · simp [h]; omega

/-- Characters of the value are characters of the text. -/
theorem mem_doubled {c : α} {v : List α} (h : c ∈ v) : c ∈ doubled q v := by
  rw [doubled, List.mem_flatMap]
  by_cases hc : c = q
  · exact ⟨c, h, by simp [hc]⟩
  · exact ⟨c, h, by simp [hc]⟩

/-- After `k + 1` extra delimiters a raw text never meets its doubled form
again: with every delimiter read, the doubled form is one further ahead. -/
theorem raw_ne_ahead {x : α} (hx : x ≠ q) (rest r f : List α) (k : Nat) :
    f ++ q :: x :: rest ≠ List.replicate (k + 1) q ++ doubled q f ++ q :: r := by
  induction f generalizing k with
  | nil =>
    intro h
    simp only [List.nil_append, doubled_nil, List.append_nil, List.replicate_succ, List.cons_append,
      List.cons.injEq, true_and] at h
    cases k with
    | zero =>
      simp only [List.replicate_zero, List.nil_append, List.cons.injEq] at h
      exact hx h.1
    | succ k =>
      simp only [List.replicate_succ, List.cons_append, List.cons.injEq] at h
      exact hx h.1
  | cons c f ih =>
    intro h
    rw [List.replicate_succ, List.cons_append, List.cons_append, List.cons_append, List.cons.injEq] at h
    obtain ⟨hc, h⟩ := h
    refine ih (k + 1) ?_
    rw [h, doubled_cons, if_pos hc, List.replicate_succ', List.replicate_succ']
    simp

/-- A raw text that reads back as itself contains no delimiter. -/
theorem not_mem_of_doubled {x : α} (hx : x ≠ q) {rest r f : List α}
    (h : f ++ q :: x :: rest = doubled q f ++ q :: r) : q ∉ f := by
  induction f with
  | nil => exact List.not_mem_nil
  | cons c f ih =>
    rw [doubled_cons] at h
    by_cases hc : c = q
    · rw [if_pos hc, List.cons_append, List.append_assoc, List.cons_append, List.cons.injEq] at h
      exact absurd (by simpa using h.2) (raw_ne_ahead q hx rest r f 0)
    · rw [if_neg hc, List.cons_append, List.append_assoc, List.cons_append, List.nil_append,
        List.cons.injEq] at h
      rw [List.mem_cons, not_or]
      exact ⟨fun he => hc he.symm, ih h.2⟩

end MysqlConnection.Literal
