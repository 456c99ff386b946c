import Mathlib.Data.List.Basic

/-!
# Resources that are acquired, used and released

The operations on resources in the order in which they are made. A use or a
release of a resource that is not held is an error (`none`); to release
nothing is none.

* `check_append`: a trace piece by piece.
* `length_of_check`: without an error as many are held as were acquired and not
  released.
* `mem_of_check`: what is held stays held until it is released, so a trace
  that ends with nothing held releases whatever it acquires
  (`released_of_check`).
-/
namespace MysqlConnection.Resource

inductive Op (α : Type) where
  | acquire (a : α)
  | use (a : Option α)
  | release (a : Option α)
  deriving DecidableEq, Repr

def Op.acquires {α : Type} : Op α → Bool
  | .acquire _ => true
  | _ => false

def Op.releases {α : Type} : Op α → Bool
  | .release (some _) => true
  | _ => false

section
variable {α : Type} [DecidableEq α]

/-- What is held after the operation. -/
def Op.apply (held : List α) : Op α → Option (List α)
  | .acquire a => some (a :: held)
  | .use none => none
  | .use (some a) => if a ∈ held then some held else none
  | .release none => some held
  | .release (some a) => if a ∈ held then some (held.erase a) else none

def check (held : List α) : List (Op α) → Option (List α)
  | [] => some held
  | op :: ops => (op.apply held).bind fun held => check held ops

theorem check_append (ops ops' : List (Op α)) : ∀ held : List α,
    check held (ops ++ ops') = (check held ops).bind fun held => check held ops' := by
  induction ops with
  | nil => intro held; rfl
  | cons op ops ih =>
    intro held
    rw [List.cons_append, check, check, Option.bind_assoc]
    exact congrArg _ (funext ih)

@[simp] theorem check_singleton (held : List α) (op : Op α) : check held [op] = op.apply held := by
  rw [check]
  cases op.apply held <;> rfl

theorem length_of_apply {held held' : List α} {op : Op α} (h : op.apply held = some held') :
    held'.length + [op].countP Op.releases = held.length + [op].countP Op.acquires := by
  cases op with
  | acquire a => cases h; rfl
  | use a =>
    cases a with
    | none => cases h
    | some a =>
      rw [Op.apply] at h
      split at h
      · cases h; rfl
      · cases h
  | release a =>
    cases a with
    | none => cases h; rfl
    | some a =>
      rw [Op.apply] at h
      split at h
      · rename_i ha
        cases h
        have hlength := List.length_erase_of_mem ha
        have hpos := List.length_pos_of_mem ha
        show (held.erase a).length + 1 = held.length
        omega
      · cases h

theorem length_of_check : ∀ {ops : List (Op α)} {held held' : List α}, check held ops = some held' →
    held'.length + ops.countP Op.releases = held.length + ops.countP Op.acquires
  | [], _, _, h => by cases h; rfl
  | op :: ops, held, held', h => by
    rw [check, Option.bind_eq_some_iff] at h
    obtain ⟨held₁, h₁, h⟩ := h
    have hone := length_of_apply h₁
    have hrest := length_of_check h
    rw [← List.singleton_append, List.countP_append, List.countP_append]
    omega

theorem mem_of_apply {held held' : List α} {a : α} {op : Op α} (h : op.apply held = some held')
    (ha : a ∈ held) (hop : op ≠ .release (some a)) : a ∈ held' := by
  cases op with
  | acquire b =>
    cases h
    exact List.mem_cons_of_mem _ ha
  | use b =>
    cases b with
    | none => cases h
    | some b =>
      rw [Op.apply] at h
      split at h
      · cases h; exact ha
      · cases h
  | release b =>
    cases b with
    | none => cases h; exact ha
    | some b =>
      have hne : a ≠ b := fun he => hop (he ▸ rfl)
      rw [Op.apply] at h
      split at h
      · cases h; exact (List.mem_erase_of_ne hne).mpr ha
      · cases h

theorem mem_of_check {a : α} : ∀ {ops : List (Op α)} {held held' : List α},
    check held ops = some held' → a ∈ held → .release (some a) ∉ ops → a ∈ held'
  | [], _, _, h, ha, _ => by cases h; exact ha
  | op :: ops, held, held', h, ha, hops => by
    rw [check, Option.bind_eq_some_iff] at h
    obtain ⟨held₁, h₁, h⟩ := h
    have ha₁ := mem_of_apply h₁ ha fun he => hops (he ▸ List.mem_cons_self)
    exact mem_of_check h ha₁ fun hm => hops (List.mem_cons_of_mem _ hm)

theorem released_of_check {a : α} : ∀ {ops : List (Op α)} {held : List α},
    check held ops = some [] → .acquire a ∈ ops → .release (some a) ∈ ops
  | [], _, _, ha => absurd ha List.not_mem_nil
  | op :: ops, held, h, ha => by
    rw [check, Option.bind_eq_some_iff] at h
    obtain ⟨held₁, h₁, h⟩ := h
    rcases List.mem_cons.mp ha with rfl | ha
    · cases h₁
      by_contra hn
      have hmem := mem_of_check h List.mem_cons_self fun hm => hn (List.mem_cons_of_mem _ hm)
      cases hmem
    · exact List.mem_cons_of_mem _ (released_of_check h ha)

end

end MysqlConnection.Resource
