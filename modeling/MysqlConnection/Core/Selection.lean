import Mathlib.Data.List.Nodup

/-!
# Ordered selections

A list of chosen elements without repetitions. `toggle` is one change: what is
switched on goes to the end (unless it is there), what is switched off goes
away and the others keep their order.

* `nodup_toggle`: a change never selects an element twice.
* `InOrder`: each element switched on is new and each one switched off is not
  in front of another; a program that appends and removes while it enumerates
  the list does exactly such changes (see the column chooser).
-/
namespace MysqlConnection.Selection

variable {α : Type} [DecidableEq α]

def toggle (sel : List α) (x : α) (isOn : Bool) : List α :=
  if isOn then (if x ∈ sel then sel else sel ++ [x]) else sel.filter (· ≠ x)

/-- A list of changes, from the first to the last. -/
def toggles (sel : List α) : List (α × Bool) → List α
  | [] => sel
  | e :: es => toggles (toggle sel e.1 e.2) es

/-- The changes that find their element last or not at all. -/
def InOrder : List α → List (α × Bool) → Prop
  | _, [] => True
  | sel, e :: es =>
    (if e.2 then e.1 ∉ sel else e.1 ∉ sel.dropLast) ∧ InOrder (toggle sel e.1 e.2) es

theorem nodup_toggle {sel : List α} (h : sel.Nodup) (x : α) (isOn : Bool) :
    (toggle sel x isOn).Nodup := by
  unfold toggle
  split
  · split
    · exact h
    · rename_i hx
      rw [List.nodup_append]
      refine ⟨h, List.nodup_singleton x, ?_⟩
      intro a ha b hb hab
      rw [List.mem_singleton] at hb
      subst hb hab
      exact hx ha
  · exact h.filter _

end MysqlConnection.Selection
