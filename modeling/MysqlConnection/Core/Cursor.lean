import Mathlib.Algebra.Order.Ring.Nat
import Mathlib.Data.List.Basic
import MysqlConnection.Core.LTS

/-!
# Cursors

An index into a list of `n` elements that is moved back and forth and stops at
both ends (`walk`), and the machine word that holds it.

* `Follows.exec`: a program whose steps are moves of a cursor never gets stuck
  and walks.
* `sle_zero`, `pred_count_le`, `eq_pred_count`, `count_le`: what the tests for the ends
  mean, when the index is signed, the count unsigned and both have `w` bits.
-/
namespace MysqlConnection.Cursor

inductive Move where
  | before
  | next
  deriving DecidableEq, Repr

def move (n i : Nat) : Move → Nat
  | .before => i - 1
  | .next => if i + 1 < n then i + 1 else i

def walk (n i : Nat) (ms : List Move) : Nat := ms.foldl (move n) i

/-! ## Programs -/

/-- In states with `Inv` each step succeeds and moves the cursor `pos`. -/
def Follows {S : Type} (f : S → Move → Option S) (n : Nat) (Inv : S → Prop) (pos : S → Nat) : Prop :=
  ∀ s m, Inv s → ∃ s', f s m = some s' ∧ Inv s' ∧ pos s' = move n (pos s) m

theorem Follows.exec {S : Type} {f : S → Move → Option S} {n : Nat} {Inv : S → Prop} {pos : S → Nat}
    (h : Follows f n Inv pos) {s : S} (hs : Inv s) (ms : List Move) :
    ∃ s', LTS.exec f s ms = some s' ∧ Inv s' ∧ pos s' = walk n (pos s) ms := by
  induction ms generalizing s with
  | nil => exact ⟨s, rfl, hs, rfl⟩
  | cons m ms ih =>
    obtain ⟨s₁, h₁, hi, hp⟩ := h s m hs
    obtain ⟨s', h', hi', hp'⟩ := ih hi
    refine ⟨s', by rw [LTS.exec, h₁, Option.bind_some, h'], hi', ?_⟩
    rw [hp', hp]
    rfl

/-! ## Machine words -/

section
variable {w n : Nat} {i : BitVec w}

/-- The half of the words that are not negative. -/
theorem two_pow_eq (h0 : 0 < n) (hn : n < 2 ^ (w - 1)) : 2 ^ w = 2 * 2 ^ (w - 1) := by
  cases w with
  | zero => simp only [Nat.zero_sub, Nat.pow_zero] at hn; omega
  | succ w => rw [Nat.add_sub_cancel, Nat.pow_succ, Nat.mul_comm]

theorem toNat_count (hn : n < 2 ^ (w - 1)) : (BitVec.ofNat w n).toNat = n := by
  have hle : 2 ^ (w - 1) ≤ 2 ^ w := Nat.pow_le_pow_right (by omega) (Nat.sub_le w 1)
  rw [BitVec.toNat_ofNat, Nat.mod_eq_of_lt (by omega)]

/-- An index of the list is not negative. -/
theorem sle_zero (hi : i.toNat < n) (hn : n < 2 ^ (w - 1)) : i.sle 0 = true ↔ i.toNat = 0 := by
  have hw := two_pow_eq (by omega) hn
  have hint : i.toInt = i.toNat := BitVec.toInt_eq_toNat_of_lt (by omega)
  have hzero : (0 : BitVec w).toInt = 0 := BitVec.toInt_zero
  rw [BitVec.sle_iff_toInt_le, hint, hzero]
  omega

theorem toNat_one (h0 : 0 < n) (hn : n < 2 ^ (w - 1)) : (1 : BitVec w).toNat = 1 := by
  have hw := two_pow_eq h0 hn
  exact (BitVec.toNat_ofNat 1 w).trans (Nat.mod_eq_of_lt (by omega))

theorem toNat_pred_count (h0 : 0 < n) (hn : n < 2 ^ (w - 1)) : (BitVec.ofNat w n - 1).toNat = n - 1 := by
  have hone := toNat_one h0 hn
  have hcount := toNat_count hn
  rw [BitVec.toNat_sub_of_le (by rw [BitVec.le_def]; omega), hcount, hone]

/-- `index >= count - 1` -/
theorem pred_count_le (hi : i.toNat < n) (hn : n < 2 ^ (w - 1)) :
    BitVec.ofNat w n - 1 ≤ i ↔ ¬ i.toNat + 1 < n := by
  rw [BitVec.le_def, toNat_pred_count (by omega) hn]
  omega

/-- `index == count - 1` -/
theorem eq_pred_count (hi : i.toNat < n) (hn : n < 2 ^ (w - 1)) :
    i = BitVec.ofNat w n - 1 ↔ ¬ i.toNat + 1 < n := by
  rw [← BitVec.toNat_inj, toNat_pred_count (by omega) hn]
  omega

/-- `count <= index` -/
theorem count_le (hn : n < 2 ^ (w - 1)) : BitVec.ofNat w n ≤ i ↔ n ≤ i.toNat := by
  rw [BitVec.le_def, toNat_count hn]

theorem toNat_succ (hi : i.toNat + 1 < n) (hn : n < 2 ^ (w - 1)) : (i + 1).toNat = i.toNat + 1 := by
  have hw := two_pow_eq (by omega) hn
  rw [BitVec.toNat_add, toNat_one (by omega) hn, Nat.mod_eq_of_lt (by omega)]

theorem toNat_pred (hi : i.toNat < n) (h0 : i.toNat ≠ 0) (hn : n < 2 ^ (w - 1)) :
    (i - 1).toNat = i.toNat - 1 := by
  have hone := toNat_one (by omega) hn
  rw [BitVec.toNat_sub_of_le (by rw [BitVec.le_def]; omega), hone]

end

end MysqlConnection.Cursor
