import Mathlib.Data.Nat.Bitwise
import Mathlib.Tactic.Ring

/-!
# Merkle trees

A tree over an infinite sequence of leaves: the node at `level` and `index` is the root of the
subtree over the leaves from `index * 2 ^ level` on. Two nodes are combined with their level.
-/

namespace FrostTools.MerkleTree

variable {α : Type*} (combine : ℕ → α → α → α)

def node (leaf : ℕ → α) : ℕ → ℕ → α
  | 0, index => leaf index
  | level + 1, index =>
    combine level (node leaf level (2 * index)) (node leaf level (2 * index + 1))

def emptyRoot (uncommitted : α) : ℕ → α
  | 0 => uncommitted
  | level + 1 => combine level (emptyRoot uncommitted level) (emptyRoot uncommitted level)

def sibling (index : ℕ) : ℕ := if index % 2 = 0 then index + 1 else index - 1

/-- Folds a node at `level` along a path, to the sides that the bits of the position say. -/
def climb (position : ℕ) : ℕ → α → List α → α
  | _, cur, [] => cur
  | level, cur, s :: path =>
    climb position (level + 1)
      (if position.testBit level then combine level s cur else combine level cur s) path

variable {combine} {leaf leaf' : ℕ → α} {uncommitted : α} {level index : ℕ}

theorem node_congr (h : ∀ k, index * 2 ^ level ≤ k → k < (index + 1) * 2 ^ level → leaf k = leaf' k) :
    node combine leaf level index = node combine leaf' level index := by
  induction level generalizing index with
  | zero => exact h index (by omega) (by omega)
  | succ level ih =>
    have hpow : 2 ^ (level + 1) = 2 * 2 ^ level := by ring
    rw [node, node]
    congr 1
    · apply ih
      intro k hle hlt
      apply h k
      · rw [hpow]
        calc index * (2 * 2 ^ level) = 2 * index * 2 ^ level := by ring
          _ ≤ k := hle
      · rw [hpow]
        calc k < (2 * index + 1) * 2 ^ level := hlt
          _ ≤ (2 * index + 2) * 2 ^ level := Nat.mul_le_mul_right _ (by omega)
          _ = (index + 1) * (2 * 2 ^ level) := by ring
    · apply ih
      intro k hle hlt
      apply h k
      · rw [hpow]
        calc index * (2 * 2 ^ level) = 2 * index * 2 ^ level := by ring
          _ ≤ (2 * index + 1) * 2 ^ level := Nat.mul_le_mul_right _ (by omega)
          _ ≤ k := hle
      · rw [hpow]
        calc k < (2 * index + 1 + 1) * 2 ^ level := hlt
          _ = (index + 1) * (2 * 2 ^ level) := by ring

theorem node_const (level index : ℕ) :
    node combine (fun _ => uncommitted) level index = emptyRoot combine uncommitted level := by
  induction level generalizing index with
  | zero => rfl
  | succ level ih => rw [node, ih, ih, emptyRoot]

theorem node_eq_emptyRoot (h : ∀ k, index * 2 ^ level ≤ k → leaf k = uncommitted) :
    node combine leaf level index = emptyRoot combine uncommitted level := by
  rw [← node_const level index]
  exact node_congr fun k hle _ => h k hle

/-- The subtree over the leaves from `start * 2 ^ height` on, as a tree of its own. -/
theorem node_shift {height start : ℕ} (hle : level ≤ height) :
    node combine (fun k => leaf (start * 2 ^ height + k)) level index =
      node combine leaf level (start * 2 ^ (height - level) + index) := by
  induction level generalizing index with
  | zero => rfl
  | succ level ih =>
    have hpow : 2 ^ (height - level) = 2 * 2 ^ (height - (level + 1)) := by
      rw [show height - level = height - (level + 1) + 1 by omega]
      ring
    rw [node, node, ih (by omega), ih (by omega), hpow]
    congr 2 <;> ring

theorem node_parent (combine : ℕ → α → α → α) (leaf : ℕ → α) (level index : ℕ) :
    node combine leaf (level + 1) (index / 2) =
      if index % 2 = 1 then
        combine level (node combine leaf level (sibling index)) (node combine leaf level index)
      else combine level (node combine leaf level index) (node combine leaf level (sibling index)) := by
  rw [node, sibling]
  by_cases hodd : index % 2 = 1
  · rw [if_pos hodd, if_neg (by omega), show 2 * (index / 2) = index - 1 by omega,
      show index - 1 + 1 = index by omega]
  · rw [if_neg hodd, if_pos (by omega), show 2 * (index / 2) = index by omega]

theorem testBit_iff_odd (position level : ℕ) :
    position.testBit level = true ↔ position / 2 ^ level % 2 = 1 := by
  rw [Nat.testBit_eq_decide_div_mod_eq, decide_eq_true_eq]

theorem testBit_eq_false_iff_even (position level : ℕ) :
    position.testBit level = false ↔ position / 2 ^ level % 2 = 0 := by
  rw [← Bool.not_eq_true, testBit_iff_odd]
  omega

/-- The siblings on the way up lead to the root. -/
theorem climb_siblings (combine : ℕ → α → α → α) (leaf : ℕ → α) (position level n : ℕ) :
    climb combine position level (node combine leaf level (position / 2 ^ level))
      ((List.range' level n).map fun i => node combine leaf i (sibling (position / 2 ^ i))) =
      node combine leaf (level + n) (position / 2 ^ (level + n)) := by
  induction n generalizing level with
  | zero => rfl
  | succ n ih =>
    have hnext : position / 2 ^ (level + 1) = position / 2 ^ level / 2 := by
      rw [Nat.div_div_eq_div_mul, Nat.pow_succ]
    have hparent := node_parent combine leaf level (position / 2 ^ level)
    rw [← hnext] at hparent
    simp only [testBit_iff_odd, List.range'_succ, List.map_cons, climb, ← hparent]
    rw [ih (level + 1), show level + 1 + n = level + (n + 1) by omega]

end FrostTools.MerkleTree
