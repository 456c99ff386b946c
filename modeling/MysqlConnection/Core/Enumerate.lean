import Mathlib.Data.List.Basic

/-!
# Enumeration of an array that its body may change

A loop over a mutable array that notices changes: when the body has changed the
array and a further element is asked for, the enumeration raises; a change at
the last element goes unnoticed. The elements come from the array as it was at
the start, which is all of it until the first change.

* `enumerate_eq`: what any such loop does.
* `enumerate_removeObject`: the loop that removes the elements with a property
  is a filter, unless one of them stands before the last element.
-/
namespace MysqlConnection.Enumerate

variable {α : Type}

/-- The array after the loop, `none` if it raises. `body array x` is the changed
array, `none` if it is not touched; `rest` is what was not enumerated yet. -/
def enumerate (body : List α → α → Option (List α)) (array : List α) : List α → Option (List α)
  | [] => some array
  | x :: rest =>
    match body array x with
    | none => enumerate body array rest
    | some changed => if rest.isEmpty then some changed else none

/-- Nothing may be changed before the last element. -/
theorem enumerate_eq (body : List α → α → Option (List α)) (array : List α) : ∀ rest : List α,
    enumerate body array rest =
      if ∀ x ∈ rest.dropLast, body array x = none then
        some ((rest.getLast?.bind (body array)).getD array)
      else none
  | [] => by simp [enumerate]
  | [x] => by
    cases hx : body array x with
    | none => simp [enumerate, hx]
    | some changed => simp [enumerate, hx]
  | x :: y :: rest => by
    rw [enumerate, List.dropLast_cons_cons]
    cases hx : body array x with
    | none =>
      simp only
      rw [enumerate_eq body array (y :: rest), List.getLast?_cons_cons]
      simp [hx]
    | some changed => simp [hx]

/-- All elements equal to `x` go. -/
def removeObject [DecidableEq α] (array : List α) (x : α) : List α := array.filter (· ≠ x)

/-- The loop that removes each element for which `p` holds. -/
def removing [DecidableEq α] (p : α → Bool) (array : List α) : Option (List α) :=
  enumerate (fun array x => if p x then some (removeObject array x) else none) array array

theorem removeObject_append_singleton [DecidableEq α] {l : List α} {x : α} (h : x ∉ l) :
    removeObject (l ++ [x]) x = l := by
  have hl : l.filter (· ≠ x) = l := by
    rw [List.filter_eq_self]
    intro y hy
    simpa using fun he : y = x => h (he ▸ hy)
  rw [removeObject, List.filter_append, hl]
  simp

theorem filter_not_eq_self {p : α → Bool} {l : List α} (h : ∀ x ∈ l, ¬ p x) :
    l.filter (fun x => !p x) = l := by
  rw [List.filter_eq_self]
  intro x hx
  simpa using h x hx

theorem enumerate_removeObject [DecidableEq α] (p : α → Bool) (l : List α) :
    removing p l = if ∀ x ∈ l.dropLast, ¬ p x then some (l.filter fun x => !p x) else none := by
  rw [removing, enumerate_eq]
  simp only [ite_eq_right_iff, reduceCtorEq, imp_false]
  split
  · rename_i h
    rcases List.eq_nil_or_concat l with rfl | ⟨init, x, rfl⟩
    · rfl
    rw [List.concat_eq_append, List.dropLast_concat] at h
    rw [List.concat_eq_append, List.filter_append, filter_not_eq_self h, List.getLast?_concat,
      Option.bind_some]
    by_cases hx : p x
    · -- `x` itself has `p`, so nothing in front of it equals it
      have hn : x ∉ init := fun hm => h x hm hx
      simp [hx, removeObject_append_singleton hn]
    · simp [hx]
  · rfl

end MysqlConnection.Enumerate
