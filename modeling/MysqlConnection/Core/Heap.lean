import Mathlib.Data.List.Nodup

/-!
# Blocks of memory

`calloc` gives out a block at a new address, `free` takes one back. To read,
write or free a block that is not live, or to write past the end of one, has no
meaning in C: the operation is `none`.

* `read_of_mem`, `write_of_blocks`, `free_of_blocks`: the operations by the list of the live
  blocks, in the order in which they were given out.
* `freeAll_eq`: a run of `free` over different blocks that are live.
-/
namespace MysqlConnection

/-- The live blocks by their addresses. No address is given out twice. -/
structure Heap (α : Type) where
  next : Nat
  blocks : List (Nat × List α)
  fresh : ∀ x ∈ blocks, x.1 < next
  nodup : (blocks.map (·.1)).Nodup

namespace Heap

variable {α : Type}

def empty : Heap α := ⟨0, [], fun _ h => absurd h List.not_mem_nil, List.nodup_nil⟩

/-- The address of the new block is `h.next`. -/
def calloc (h : Heap α) (block : List α) : Heap α where
  next := h.next + 1
  blocks := h.blocks ++ [(h.next, block)]
  fresh := by
    intro x hx
    rcases List.mem_append.mp hx with hx | hx
    · exact Nat.lt_succ_of_lt (h.fresh x hx)
    · rw [List.mem_singleton.mp hx]
      exact Nat.lt_succ_self _
  nodup := by
    rw [List.map_append, List.map_singleton, List.nodup_append]
    refine ⟨h.nodup, List.nodup_singleton _, fun a ha b hb he => ?_⟩
    obtain ⟨x, hx, rfl⟩ := List.mem_map.mp ha
    have := h.fresh x hx
    rw [he, List.mem_singleton.mp hb] at this
    exact Nat.lt_irrefl _ this

def read (h : Heap α) (a : Nat) : Option (List α) := h.blocks.lookup a

/-- `xs` over the first places of the block. -/
def overwrite (a : Nat) (xs : List α) (x : Nat × List α) : Nat × List α :=
  if x.1 = a then (x.1, xs ++ x.2.drop xs.length) else x

theorem overwrite_fst (a : Nat) (xs : List α) (x : Nat × List α) : (overwrite a xs x).1 = x.1 := by
  unfold overwrite
  split <;> rfl

def write (h : Heap α) (a : Nat) (xs : List α) : Option (Heap α) :=
  (h.read a).bind fun block =>
    if xs.length ≤ block.length then
      some
        { next := h.next
          blocks := h.blocks.map (overwrite a xs)
          fresh := by
            intro x hx
            obtain ⟨y, hy, rfl⟩ := List.mem_map.mp hx
            rw [overwrite_fst]
            exact h.fresh y hy
          nodup := by
            rw [List.map_map]
            have hsame : (fun x : Nat × List α => x.1) ∘ overwrite a xs = fun x => x.1 :=
              funext (overwrite_fst a xs)
            rw [hsame]
            exact h.nodup }
    else none

def free (h : Heap α) (a : Nat) : Option (Heap α) :=
  (h.read a).map fun _ =>
    { next := h.next
      blocks := h.blocks.filter fun x => x.1 ≠ a
      fresh := fun x hx => h.fresh x (List.mem_of_mem_filter hx)
      nodup := h.nodup.sublist (List.filter_sublist.map _) }

/-! ## By the list of the blocks -/

section
variable {h : Heap α} {a : Nat} {b : List α} {l₁ l₂ : List (Nat × List α)}

/-- No other block has the address. -/
theorem ne_of_blocks (hb : h.blocks = l₁ ++ (a, b) :: l₂) : ∀ x ∈ l₁ ++ l₂, x.1 ≠ a := by
  have hn := h.nodup
  rw [hb, List.map_append, List.map_cons, List.nodup_middle, List.nodup_cons, ← List.map_append] at hn
  intro x hx he
  exact hn.1 (List.mem_map.mpr ⟨x, hx, he⟩)

theorem read_of_blocks (hb : h.blocks = l₁ ++ (a, b) :: l₂) : h.read a = some b := by
  have hne := ne_of_blocks hb
  have hnone : l₁.lookup a = none := by
    rw [List.lookup_eq_none_iff]
    exact fun x hx => bne_iff_ne.mpr (hne x (List.mem_append_left _ hx)).symm
  rw [read, hb, List.lookup_append, hnone, Option.none_or, List.lookup_cons_self]

theorem read_of_mem (hm : (a, b) ∈ h.blocks) : h.read a = some b := by
  obtain ⟨l₁, l₂, hb⟩ := List.mem_iff_append.mp hm
  exact read_of_blocks hb

theorem map_overwrite {xs : List α} {l : List (Nat × List α)} (hl : ∀ x ∈ l, x.1 ≠ a) :
    l.map (overwrite a xs) = l := by
  have hid : ∀ x ∈ l, overwrite a xs x = id x := fun x hx => if_neg (hl x hx)
  rw [List.map_congr_left hid, List.map_id]

theorem write_of_blocks {xs : List α} (hb : h.blocks = l₁ ++ (a, b) :: l₂) (hlen : xs.length ≤ b.length) :
    ∃ h', h.write a xs = some h' ∧ h'.blocks = l₁ ++ (a, xs ++ b.drop xs.length) :: l₂ := by
  have hne := ne_of_blocks hb
  refine ⟨_, by rw [write, read_of_blocks hb, Option.bind_some, if_pos hlen], ?_⟩
  have h₁ : l₁.map (overwrite a xs) = l₁ :=
    map_overwrite fun x hx => hne x (List.mem_append_left _ hx)
  have h₂ : l₂.map (overwrite a xs) = l₂ :=
    map_overwrite fun x hx => hne x (List.mem_append_right _ hx)
  show h.blocks.map (overwrite a xs) = _
  rw [hb, List.map_append, List.map_cons, h₁, h₂, overwrite, if_pos rfl]

theorem filter_ne {l : List (Nat × List α)} (hl : ∀ x ∈ l, x.1 ≠ a) :
    (l.filter fun x => x.1 ≠ a) = l :=
  List.filter_eq_self.mpr fun x hx => decide_eq_true (hl x hx)

theorem free_of_blocks (hb : h.blocks = l₁ ++ (a, b) :: l₂) :
    ∃ h', h.free a = some h' ∧ h'.blocks = l₁ ++ l₂ := by
  have hne := ne_of_blocks hb
  refine ⟨_, by rw [free, read_of_blocks hb, Option.map_some], ?_⟩
  have hdrop : (((a, b) :: l₂).filter fun x => x.1 ≠ a) = l₂.filter fun x => x.1 ≠ a :=
    List.filter_cons_of_neg (by simp)
  show (h.blocks.filter fun x => x.1 ≠ a) = _
  rw [hb, List.filter_append, hdrop,
    filter_ne fun x hx => hne x (List.mem_append_left _ hx),
    filter_ne fun x hx => hne x (List.mem_append_right _ hx)]

/-- Blocks freed one after the other. -/
theorem freeAll_eq : ∀ {own : List (Nat × List α)} {h : Heap α}, h.blocks = l₁ ++ own →
    ∃ h', (own.map (·.1)).foldlM free h = some h' ∧ h'.blocks = l₁
  | [], h, hb => ⟨h, rfl, by rw [hb, List.append_nil]⟩
  | (a, b) :: own, h, hb => by
    obtain ⟨h', hf, hb'⟩ := free_of_blocks hb
    obtain ⟨h'', hall, hb''⟩ := freeAll_eq hb'
    refine ⟨h'', ?_, hb''⟩
    rw [List.map_cons, List.foldlM_cons, hf]
    exact hall

end

end Heap
end MysqlConnection
