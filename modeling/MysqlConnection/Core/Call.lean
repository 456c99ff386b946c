import Mathlib.Logic.Basic

/-!
# How a call ends

A call over a state returns a value, raises an exception, aborts the program or
does something undefined. `Ensures` is a postcondition for the first two ends,
with the rule of sequencing; `state` is the state that is left.
-/
namespace MysqlConnection

inductive Call (S α : Type) where
  | returned (a : α) (s : S)
  | raised (s : S)
  | aborted
  | undefined
  deriving DecidableEq, Repr

namespace Call

variable {S α β : Type}

def bind (r : Call S α) (f : α → S → Call S β) : Call S β :=
  match r with
  | .returned a s => f a s
  | .raised s => .raised s
  | .aborted => .aborted
  | .undefined => .undefined

/-- The state after a call that did not stop the program. -/
def state : Call S α → Option S
  | .returned _ s => some s
  | .raised s => some s
  | .aborted => none
  | .undefined => none

def isRaised : Call S α → Bool
  | .raised _ => true
  | _ => false

/-- What holds if the call returns, and what if it raises. -/
def Ensures (r : Call S α) (Q : α → S → Prop) (R : S → Prop) : Prop :=
  match r with
  | .returned a s => Q a s
  | .raised s => R s
  | .aborted => True
  | .undefined => True

@[simp] theorem bind_returned (a : α) (s : S) (f : α → S → Call S β) :
    (Call.returned a s).bind f = f a s := rfl

@[simp] theorem bind_raised (s : S) (f : α → S → Call S β) :
    (Call.raised s : Call S α).bind f = .raised s := rfl

@[simp] theorem bind_aborted (f : α → S → Call S β) :
    (Call.aborted : Call S α).bind f = .aborted := rfl

@[simp] theorem bind_undefined (f : α → S → Call S β) :
    (Call.undefined : Call S α).bind f = .undefined := rfl

theorem returned_ne_undefined (a : α) (s : S) : (Call.returned a s) ≠ .undefined := by
  intro h; cases h

theorem Ensures.bind {r : Call S α} {f : α → S → Call S β} {P : α → S → Prop} {Q : β → S → Prop}
    {R : S → Prop} (h : r.Ensures P R) (hf : ∀ a s, P a s → (f a s).Ensures Q R) :
    (r.bind f).Ensures Q R := by
  cases r with
  | returned a s => exact hf a s h
  | raised s => exact h
  | aborted => trivial
  | undefined => trivial

theorem Ensures.mono {r : Call S α} {P Q : α → S → Prop} {R R' : S → Prop} (h : r.Ensures P R)
    (hQ : ∀ a s, P a s → Q a s) (hR : ∀ s, R s → R' s) : r.Ensures Q R' := by
  cases r with
  | returned a s => exact hQ a s h
  | raised s => exact hR s h
  | aborted => trivial
  | undefined => trivial

theorem Ensures.and {r : Call S α} {P Q : α → S → Prop} {R T : S → Prop} (h : r.Ensures P R)
    (h' : r.Ensures Q T) : r.Ensures (fun a s => P a s ∧ Q a s) (fun s => R s ∧ T s) := by
  cases r with
  | returned a s => exact ⟨h, h'⟩
  | raised s => exact ⟨h, h'⟩
  | aborted => trivial
  | undefined => trivial

/-- Which of the two ends it is. -/
theorem ensures_isRaised (r : Call S α) :
    r.Ensures (fun _ _ => ¬ r.isRaised = true) (fun _ => r.isRaised = true) := by
  cases r with
  | returned a s => exact Bool.false_ne_true
  | raised s => exact rfl
  | aborted => trivial
  | undefined => trivial

/-- Where both ends promise the same of the state, it holds of the state left. -/
theorem Ensures.of_state {r : Call S α} {P : S → Prop} (h : r.Ensures (fun _ => P) P) {s : S}
    (hs : r.state = some s) : P s := by
  cases r with
  | returned a t => cases hs; exact h
  | raised t => cases hs; exact h
  | aborted => cases hs
  | undefined => cases hs

theorem bind_eq_undefined {r : Call S α} {f : α → S → Call S β} :
    r.bind f = .undefined ↔ r = .undefined ∨ ∃ a s, r = .returned a s ∧ f a s = .undefined := by
  cases r with
  | returned a s =>
    constructor
    · intro h; exact Or.inr ⟨a, s, rfl, h⟩
    · rintro (h | ⟨a', s', h, hf⟩)
      · cases h
      · cases h; exact hf
  | raised s =>
    constructor
    · intro h; cases h
    · rintro (h | ⟨_, _, h, -⟩) <;> cases h
  | aborted =>
    constructor
    · intro h; cases h
    · rintro (h | ⟨_, _, h, -⟩) <;> cases h
  | undefined => exact iff_of_true rfl (Or.inl rfl)

/-- What follows is always defined. -/
theorem bind_eq_undefined_iff {r : Call S α} {f : α → S → Call S β} (hf : ∀ a s, f a s ≠ .undefined) :
    r.bind f = .undefined ↔ r = .undefined := by
  rw [bind_eq_undefined]
  refine or_iff_left fun hex => ?_
  obtain ⟨a, s, -, hundef⟩ := hex
  exact hf a s hundef

end Call
end MysqlConnection
