import FrostTools.Lib.MerkleTree
import FrostTools.ZcashSign.TransactionPlan
import Mathlib.Data.Nat.Size

/-!
# The path of a witness

What a witness stands for, in terms of the tree padded with uncommitted leaves, and that its path
authenticates its leaf in this tree.
-/

namespace FrostTools.ZcashSign
open MerkleTree

namespace Hasher

variable (hasher : Hasher)

def combine (level : ℕ) (left right : Node) : Node := hasher.nodeCombine (.ofNat level) left right

def emptyRoot (level : ℕ) : Node := MerkleTree.emptyRoot hasher.combine hasher.uncommitedNode level

def padded (leaves : List Node) (k : ℕ) : Node := leaves.getD k hasher.uncommitedNode

theorem padded_of_length_le {leaves : List Node} {k : ℕ} (h : leaves.length ≤ k) :
    hasher.padded leaves k = hasher.uncommitedNode := List.getD_eq_default leaves _ h

theorem emptyRoots_eq (height : ℕ) :
    hasher.emptyRoots height = (List.range (height + 1)).map hasher.emptyRoot := by
  suffices h : (List.range height).foldl hasher.pushEmptyRoot
      ([hasher.uncommitedNode], hasher.uncommitedNode) =
        ((List.range (height + 1)).map hasher.emptyRoot, hasher.emptyRoot height) by
    rw [emptyRoots, h]
  induction height with
  | zero => rfl
  | succ height ih =>
    rw [List.range_succ, List.foldl_append, ih, List.range_succ (n := height + 1), List.map_append]
    rfl

theorem index_emptyRoots {ε : Type} {height depth : ℕ} (h : depth ≤ height) :
    (Checked.index (hasher.emptyRoots height) depth : Outcome ε Node) =
      .ok (hasher.emptyRoot depth) := by
  apply Checked.index_of_getElem?
  rw [emptyRoots_eq, List.getElem?_map, List.getElem?_range (by omega)]
  rfl

end Hasher

/-- The tree holds the last pair of the leaves `leaf 0`, …, `leaf (n - 1)`, and the left siblings on
the way up from it. -/
structure CTree.IsFrontier (hasher : Hasher) (leaf : ℕ → Node) (n : ℕ) (tree : CTree) : Prop where
  left : tree.left = if n = 0 then none else some (leaf (2 * ((n - 1) / 2)))
  right : tree.right = if n ≠ 0 ∧ n % 2 = 0 then some (leaf (n - 1)) else none
  length : tree.parents.length = ((n - 1) / 2).size
  parents : ∀ i < tree.parents.length, tree.parents[i]? =
    some (if (n - 1).testBit (i + 1) then
      some (node hasher.combine leaf (i + 1) ((n - 1) / 2 ^ (i + 1) - 1)) else none)

namespace CTree

variable {ε : Type} {hasher : Hasher} {leaf : ℕ → Node} {n height : ℕ} {tree : CTree}

theorem node_right_empty (hempty : ∀ k, n ≤ k → leaf k = hasher.uncommitedNode) {q level : ℕ}
    (hq : n ≤ q + 1) :
    node hasher.combine leaf level (q / 2 ^ level + 1) = hasher.emptyRoot level := by
  apply node_eq_emptyRoot
  intro k hk
  apply hempty
  have hlt : q < (q / 2 ^ level + 1) * 2 ^ level := by
    rw [Nat.mul_comm]
    exact Nat.lt_mul_div_succ q (Nat.two_pow_pos level)
  omega

theorem foldM_mergeParent (hempty : ∀ k, n ≤ k → leaf k = hasher.uncommitedNode) {q k : ℕ}
    (hq : n ≤ q + 1) {parents : List (Option Node)}
    (hparents : ∀ i < parents.length, parents[i]? = some (if q.testBit (k + i) then
      some (node hasher.combine leaf (k + i) (q / 2 ^ (k + i) - 1)) else none))
    (hheight : k + parents.length ≤ height + 1) (hu8 : k + parents.length < Checked.u8Size) :
    (Outcome.foldM (mergeParent (hasher.emptyRoots height) hasher)
      (node hasher.combine leaf k (q / 2 ^ k), k) parents : Outcome ε (Node × ℕ)) =
      .ok (node hasher.combine leaf (k + parents.length) (q / 2 ^ (k + parents.length)),
        k + parents.length) := by
  induction parents generalizing k with
  | nil => rfl
  | cons parent parents ih =>
    rw [List.length_cons] at hheight hu8 ⊢
    have hfirst : parent = if q.testBit k then
        some (node hasher.combine leaf k (q / 2 ^ k - 1)) else none :=
      Option.some.inj (hparents 0 (Nat.succ_pos _))
    have hnext : q / 2 ^ (k + 1) = q / 2 ^ k / 2 := by
      rw [Nat.div_div_eq_div_mul, Nat.pow_succ]
    have hparent := node_parent hasher.combine leaf k (q / 2 ^ k)
    rw [← hnext, sibling] at hparent
    have hadd : (Checked.add Checked.u8Size k 1 : Outcome ε ℕ) = .ok (k + 1) :=
      Checked.add_of_lt (by omega)
    have hmerge : (mergeParent (hasher.emptyRoots height) hasher
        (node hasher.combine leaf k (q / 2 ^ k), k) parent : Outcome ε (Node × ℕ)) =
        .ok (node hasher.combine leaf (k + 1) (q / 2 ^ (k + 1)), k + 1) := by
      by_cases hbit : q.testBit k = true
      · have hodd := (testBit_iff_odd q k).mp hbit
        rw [hfirst, if_pos hbit]
        rw [if_pos hodd, if_neg (by omega)] at hparent
        simp only [mergeParent, Outcome.bind, hadd, hparent]
        rfl
      · have heven := (testBit_eq_false_iff_even q k).mp (Bool.eq_false_of_not_eq_true hbit)
        rw [hfirst, if_neg hbit]
        rw [if_neg (by omega), if_pos heven, node_right_empty hempty hq] at hparent
        simp only [mergeParent, Outcome.bind, hadd, hparent,
          hasher.index_emptyRoots (show k ≤ height by omega)]
        rfl
    rw [Outcome.foldM, hmerge]
    have hrest := ih (k := k + 1) (fun i hi => ?_) (by omega) (by omega)
    · rw [show k + (parents.length + 1) = k + 1 + parents.length by omega]
      exact hrest
    · have hi' := hparents (i + 1) (Nat.succ_lt_succ hi)
      rwa [List.getElem?_cons_succ, show k + (i + 1) = k + 1 + i by omega] at hi'

theorem foldM_fillLevel (hempty : ∀ k, n ≤ k → leaf k = hasher.uncommitedNode) {k m : ℕ}
    (hk : n ≤ 2 ^ k) (hheight : k + m ≤ height + 1) :
    (Outcome.foldM (fillLevel (hasher.emptyRoots height) hasher) (node hasher.combine leaf k 0)
      (List.range' k m) : Outcome ε Node) = .ok (node hasher.combine leaf (k + m) 0) := by
  induction m generalizing k with
  | zero => rfl
  | succ m ih =>
    have hright : node hasher.combine leaf k 1 = hasher.emptyRoot k := by
      apply node_eq_emptyRoot
      intro i hi
      exact hempty i (by omega)
    have hfill : (fillLevel (hasher.emptyRoots height) hasher (node hasher.combine leaf k 0) k :
        Outcome ε Node) = .ok (node hasher.combine leaf (k + 1) 0) := by
      rw [fillLevel, hasher.index_emptyRoots (by omega), ← hright]
      rfl
    have hle : n ≤ 2 ^ (k + 1) := hk.trans (Nat.pow_le_pow_right (by decide) (by omega))
    rw [List.range'_succ, Outcome.foldM, hfill]
    have hrest := ih hle (by omega)
    rw [show k + (m + 1) = k + 1 + m by omega]
    exact hrest

namespace IsFrontier

variable (h : tree.IsFrontier hasher leaf n)
include h

theorem half_lt : (n - 1) / 2 < 2 ^ tree.parents.length := by
  rw [h.length]
  exact Nat.lt_size_self _

theorem length_le {d : ℕ} (hn : n ≤ 2 ^ (d + 1)) : tree.parents.length ≤ d := by
  rw [h.length, Nat.size_le]
  have hpow : 2 ^ (d + 1) = 2 * 2 ^ d := by ring
  have hpos := Nat.two_pow_pos d
  omega

theorem root_eq (hempty : ∀ k, n ≤ k → leaf k = hasher.uncommitedNode) {d : ℕ} (hlt : n < 2 ^ d)
    (hd : d ≤ height) (hn : n < Checked.usizeSize) :
    (tree.root d (hasher.emptyRoots height) hasher : Outcome ε Node) =
      .ok (node hasher.combine leaf d 0) := by
  have hleft := h.left
  by_cases hzero : n = 0
  · rw [if_pos hzero] at hleft
    rw [root, hleft]
    dsimp only
    rw [hasher.index_emptyRoots hd, node_eq_emptyRoot fun k _ => hempty k (by omega)]
    rfl
  · rw [if_neg hzero] at hleft
    obtain ⟨d, rfl⟩ : ∃ d', d = d' + 1 := by
      apply Nat.exists_eq_succ_of_ne_zero
      rintro rfl
      omega
    -- the pair of the last leaf
    have hpair : hasher.nodeCombine 0 (leaf (2 * ((n - 1) / 2)))
        (tree.right.getD hasher.uncommitedNode) =
          node hasher.combine leaf 1 ((n - 1) / 2 ^ 1) := by
      have hright : tree.right.getD hasher.uncommitedNode = leaf (2 * ((n - 1) / 2) + 1) := by
        rw [h.right]
        by_cases heven : n % 2 = 0
        · rw [if_pos ⟨hzero, heven⟩, show 2 * ((n - 1) / 2) + 1 = n - 1 by omega]
          rfl
        · rw [if_neg (fun hand => heven hand.2), hempty _ (by omega)]
          rfl
      rw [hright]
      rfl
    have hlen : tree.parents.length ≤ d := h.length_le hlt.le
    have hu8 : tree.parents.length ≤ 63 := h.length_le hn.le
    have hmerge : (Outcome.foldM (mergeParent (hasher.emptyRoots height) hasher)
        (node hasher.combine leaf 1 ((n - 1) / 2 ^ 1), 1) tree.parents : Outcome ε (Node × ℕ)) =
        .ok (node hasher.combine leaf (1 + tree.parents.length)
          ((n - 1) / 2 ^ (1 + tree.parents.length)), 1 + tree.parents.length) := by
      apply foldM_mergeParent hempty (by omega) _ (by omega) (by unfold Checked.u8Size; omega)
      intro i hi
      rw [Nat.add_comm 1 i]
      exact h.parents i hi
    -- the parents lead to the first node of their level
    have hfirst : (n - 1) / 2 ^ (1 + tree.parents.length) = 0 := by
      rw [Nat.pow_add, ← Nat.div_div_eq_div_mul, Nat.pow_one]
      exact Nat.div_eq_of_lt h.half_lt
    have hle : n ≤ 2 ^ (1 + tree.parents.length) := by
      have hhalf := h.half_lt
      rw [Nat.pow_add, Nat.pow_one]
      omega
    rw [root, hleft]
    dsimp only
    rw [hpair, hmerge, hfirst, Outcome.bind, foldM_fillLevel hempty hle (by omega)]
    rw [show 1 + tree.parents.length + (d + 1 - (1 + tree.parents.length)) = d + 1 by omega]

omit h in
/-- Parents that are there at the bits of a number stand for twice as many leaves. -/
theorem parentsLeaves_eq {parents : List (Option Node)} {q : ℕ} (hlt : q < 2 ^ parents.length)
    (hbits : ∀ i (hi : i < parents.length), parents[i].isSome = q.testBit i) :
    parentsLeaves parents = 2 * q := by
  induction parents generalizing q with
  | nil =>
    rw [List.length_nil, Nat.pow_zero] at hlt
    rw [parentsLeaves]
    omega
  | cons parent parents ih =>
    have hfirst : parent.isSome = q.testBit 0 := hbits 0 (Nat.succ_pos _)
    have hrest : parentsLeaves parents = 2 * (q / 2) := by
      apply ih
      · rw [List.length_cons, Nat.pow_succ] at hlt
        omega
      · intro i hi
        rw [Nat.testBit_div_two]
        exact hbits (i + 1) (Nat.succ_lt_succ hi)
    rw [parentsLeaves, hrest, hfirst, Nat.testBit_zero]
    by_cases hodd : q % 2 = 1
    · rw [decide_eq_true hodd, Bool.toNat_true]
      omega
    · rw [decide_eq_false hodd, Bool.toNat_false]
      omega

theorem numLeaves_eq : tree.numLeaves = n := by
  have hparents : parentsLeaves tree.parents = 2 * ((n - 1) / 2) := by
    apply parentsLeaves_eq h.half_lt
    intro i hi
    have hi' := h.parents i hi
    rw [List.getElem?_eq_getElem hi, Option.some.injEq] at hi'
    rw [hi', Nat.testBit_div_two]
    cases (n - 1).testBit (i + 1) <;> rfl
  rw [numLeaves, hparents, h.left, h.right]
  by_cases hzero : n = 0
  · subst hzero
    rfl
  · by_cases heven : n % 2 = 0
    · rw [if_neg hzero, if_pos ⟨hzero, heven⟩]
      show 2 * ((n - 1) / 2) + 1 + 1 = n
      omega
    · rw [if_neg hzero, if_neg (fun hand => heven hand.2)]
      show 2 * ((n - 1) / 2) + 1 + 0 = n
      omega

theorem getD_parents (i : ℕ) : tree.parents.getD i none = if (n - 1).testBit (i + 1) then
    some (node hasher.combine leaf (i + 1) ((n - 1) / 2 ^ (i + 1) - 1)) else none := by
  by_cases hi : i < tree.parents.length
  · rw [List.getD_eq_getElem?_getD, h.parents i hi, Option.getD_some]
  · have hbit : (n - 1).testBit (i + 1) = false := by
      rw [← Nat.testBit_div_two]
      apply Nat.testBit_lt_two_pow
      exact h.half_lt.trans_le (Nat.pow_le_pow_right (by decide) (by omega))
    rw [List.getD_eq_default _ _ (by omega), hbit]
    rfl

end IsFrontier
end CTree

def siblingStart (p level : ℕ) : ℕ := (p / 2 ^ level + 1) * 2 ^ level

/-- The sibling of `p` at the level is on the right, and complete among `n` leaves. -/
def completeAt (n p level : ℕ) : Bool :=
  !p.testBit level && decide (siblingStart p level + 2 ^ level ≤ n)

/-- The sibling of `p` at the level is on the right, and not complete among `n` leaves. -/
def incompleteAt (n p level : ℕ) : Bool :=
  !p.testBit level && decide (n < siblingStart p level + 2 ^ level)

/-- The witness of the leaf `p` in a tree of the given height: its tree was taken when that leaf was
the last one. -/
structure Witness.Represents (hasher : Hasher) (height : ℕ) (leaves : List Node) (p : ℕ)
    (w : Witness) : Prop where
  tree : w.tree.IsFrontier hasher (hasher.padded leaves) (p + 1)
  /-- The roots of the completed siblings on the right, from the leaf upwards. -/
  filled : w.filled = ((List.range height).filter (completeAt leaves.length p)).map fun level =>
    node hasher.combine (hasher.padded leaves) level (p / 2 ^ level + 1)
  /-- The leaves so far in the next one. -/
  cursor : match (List.range height).find? (incompleteAt leaves.length p) with
    | some level => w.cursor.IsFrontier hasher
        (fun k => hasher.padded leaves (siblingStart p level + k))
        (leaves.length - siblingStart p level)
    | none => w.cursor = .new

variable {n p level level' : ℕ}

theorem siblingStart_le (hbit : p.testBit level = false) (hlt : level < level') :
    siblingStart p level + 2 ^ level ≤ siblingStart p level' := by
  obtain ⟨m, rfl⟩ : ∃ m, level' = level + (m + 1) := ⟨level' - level - 1, by omega⟩
  have heven := (testBit_eq_false_iff_even p level).mp hbit
  have hlast : p / 2 ^ level < 2 * ((p / 2 ^ (level + (m + 1)) + 1) * 2 ^ m) := by
    have hpos := Nat.two_pow_pos m
    rw [Nat.pow_add, ← Nat.div_div_eq_div_mul, Nat.pow_succ, Nat.mul_left_comm, Nat.mul_comm 2,
      Nat.mul_comm]
    exact Nat.lt_mul_div_succ _ (by omega)
  have htwo : p / 2 ^ level + 2 ≤ 2 * ((p / 2 ^ (level + (m + 1)) + 1) * 2 ^ m) := by
    generalize (p / 2 ^ (level + (m + 1)) + 1) * 2 ^ m = half at hlast ⊢
    omega
  calc siblingStart p level + 2 ^ level = (p / 2 ^ level + 2) * 2 ^ level := by
        unfold siblingStart
        ring
    _ ≤ 2 * ((p / 2 ^ (level + (m + 1)) + 1) * 2 ^ m) * 2 ^ level := Nat.mul_le_mul_right _ htwo
    _ = siblingStart p (level + (m + 1)) := by
        unfold siblingStart
        ring

theorem completeAt_eq_false (h : incompleteAt n p level = true) (hlt : level < level') :
    completeAt n p level' = false := by
  simp only [incompleteAt, Bool.and_eq_true, Bool.not_eq_true', decide_eq_true_eq] at h
  have hle := siblingStart_le h.1 hlt
  have hpos := Nat.two_pow_pos level'
  unfold completeAt
  rw [Bool.and_eq_false_iff]
  right
  rw [decide_eq_false_iff_not]
  omega

namespace Witness

/-- The fillers before the level `i`: the complete siblings from there on, and whether an incomplete
one was passed. -/
def fillersAt (hasher : Hasher) (height : ℕ) (leaves : List Node) (p i : ℕ) : Fillers :=
  (((List.range' i (height - i)).filter (completeAt leaves.length p)).map fun level =>
    node hasher.combine (hasher.padded leaves) level (p / 2 ^ level + 1),
  (List.range i).any (incompleteAt leaves.length p))

variable {ε : Type} {hasher : Hasher} {height i : ℕ} {leaves : List Node} {w : Witness}

theorem range'_eq_cons (h : i < height) :
    List.range' i (height - i) = i :: List.range' (i + 1) (height - (i + 1)) := by
  rw [show height - i = height - (i + 1) + 1 by omega, List.range'_succ]

theorem fillersAt_of_testBit (hbit : p.testBit i = true) (h : i < height) :
    fillersAt hasher height leaves p i = fillersAt hasher height leaves p (i + 1) := by
  have hcomplete : completeAt leaves.length p i = false := by rw [completeAt, hbit]; rfl
  have hincomplete : incompleteAt leaves.length p i = false := by rw [incompleteAt, hbit]; rfl
  rw [fillersAt, fillersAt, range'_eq_cons h, List.filter_cons_of_neg (by rw [hcomplete]; decide),
    List.range_succ, List.any_append, List.any_cons, hincomplete, List.any_nil, Bool.or_self,
    Bool.or_false]

theorem fillersAt_of_complete (hcomplete : completeAt leaves.length p i = true) (h : i < height) :
    fillersAt hasher height leaves p i =
      (node hasher.combine (hasher.padded leaves) i (p / 2 ^ i + 1) ::
        (fillersAt hasher height leaves p (i + 1)).1, (fillersAt hasher height leaves p (i + 1)).2) := by
  have hincomplete : incompleteAt leaves.length p i = false := by
    rw [completeAt, Bool.and_eq_true, decide_eq_true_eq] at hcomplete
    rw [incompleteAt, decide_eq_false (by omega), Bool.and_false]
  rw [fillersAt, fillersAt, range'_eq_cons h, List.filter_cons_of_pos hcomplete, List.range_succ,
    List.any_append, List.any_cons, hincomplete, List.any_nil, Bool.or_self, Bool.or_false]
  rfl

/-- From an incomplete sibling on there are no complete ones. -/
theorem fillersAt_of_incomplete (hasher : Hasher) (height : ℕ)
    (hincomplete : incompleteAt leaves.length p i = true) :
    fillersAt hasher height leaves p i = ([], (List.range i).any (incompleteAt leaves.length p)) ∧
      fillersAt hasher height leaves p (i + 1) = ([], true) := by
  have hnil : ∀ k, i ≤ k →
      (List.range' k (height - k)).filter (completeAt leaves.length p) = [] := by
    intro k hk
    rw [List.filter_eq_nil_iff]
    intro level hlevel
    rw [Bool.not_eq_true]
    have hle : k ≤ level := (List.mem_range'_1.mp hlevel).1
    rcases Nat.eq_or_lt_of_le (hk.trans hle) with rfl | hlt
    · rw [incompleteAt, Bool.and_eq_true, decide_eq_true_eq] at hincomplete
      rw [completeAt, decide_eq_false (by omega), Bool.and_false]
    · exact completeAt_eq_false hincomplete hlt
  have hany : (List.range (i + 1)).any (incompleteAt leaves.length p) = true := by
    rw [List.range_succ, List.any_append, List.any_cons, hincomplete, Bool.true_or, Bool.or_true]
  rw [fillersAt, fillersAt, hnil i le_rfl, hnil (i + 1) (by omega), hany]
  exact ⟨rfl, rfl⟩

/-- A sibling that begins after the last leaf. -/
theorem node_eq_emptyRoot_of_le (hle : leaves.length ≤ siblingStart p i) :
    node hasher.combine (hasher.padded leaves) i (p / 2 ^ i + 1) = hasher.emptyRoot i := by
  apply node_eq_emptyRoot
  intro k hk
  exact hasher.padded_of_length_le (hle.trans hk)

theorem Represents.cursor_root (h : w.Represents hasher height leaves p)
    (hincomplete : incompleteAt leaves.length p i = true)
    (hfirst : (List.range i).any (incompleteAt leaves.length p) = false) (hi : i < height)
    (hlen : leaves.length < Checked.usizeSize) :
    (w.cursor.root i (hasher.emptyRoots height) hasher : Outcome ε Node) =
      .ok (node hasher.combine (hasher.padded leaves) i (p / 2 ^ i + 1)) := by
  have hcursor := h.cursor
  have hfind : (List.range height).find? (incompleteAt leaves.length p) = some i := by
    rw [List.find?_range_eq_some]
    refine ⟨hincomplete, List.mem_range.mpr hi, fun j hj => ?_⟩
    rw [List.any_eq_false] at hfirst
    rw [Bool.not_eq_true', ← Bool.not_eq_true]
    exact hfirst j (List.mem_range.mpr hj)
  rw [hfind] at hcursor
  dsimp only at hcursor
  have hpos := Nat.two_pow_pos i
  rw [incompleteAt, Bool.and_eq_true, decide_eq_true_eq] at hincomplete
  rw [hcursor.root_eq _ (by omega) hi.le (by omega)]
  · rw [siblingStart, node_shift le_rfl, Nat.sub_self, Nat.pow_zero, Nat.mul_one, Nat.add_zero]
  · intro k hk
    exact hasher.padded_of_length_le (by omega)

theorem Represents.pushNode_eq (h : w.Represents hasher height leaves p) (hi : i < height)
    (hlen : leaves.length < Checked.usizeSize) (path : List Node) :
    (w.pushNode (hasher.emptyRoots height) hasher i
      (if p.testBit i then
        some (node hasher.combine (hasher.padded leaves) i (p / 2 ^ i - 1)) else none)
      (path, fillersAt hasher height leaves p i) : Outcome ε (List Node × Fillers)) =
      .ok (path ++ [node hasher.combine (hasher.padded leaves) i (sibling (p / 2 ^ i))],
        fillersAt hasher height leaves p (i + 1)) := by
  by_cases hbit : p.testBit i = true
  · have hodd := (testBit_iff_odd p i).mp hbit
    rw [if_pos hbit, fillersAt_of_testBit hbit hi, sibling, if_neg (by omega)]
    rfl
  · rw [Bool.not_eq_true] at hbit
    have heven := (testBit_eq_false_iff_even p i).mp hbit
    rw [hbit, sibling, if_pos heven]
    by_cases hcomplete : siblingStart p i + 2 ^ i ≤ leaves.length
    · have hcomplete' : completeAt leaves.length p i = true := by
        rw [completeAt, hbit, decide_eq_true hcomplete]
        rfl
      rw [fillersAt_of_complete hcomplete' hi]
      rfl
    · have hincomplete : incompleteAt leaves.length p i = true := by
        rw [incompleteAt, hbit, decide_eq_true (Nat.lt_of_not_le hcomplete)]
        rfl
      obtain ⟨hfillers, hfillers'⟩ := fillersAt_of_incomplete hasher height hincomplete
      rw [hfillers, hfillers']
      by_cases hused : (List.range i).any (incompleteAt leaves.length p) = true
      · -- the cursor stands for a sibling further down
        obtain ⟨j, hj, hbefore⟩ := List.any_eq_true.mp hused
        rw [incompleteAt, Bool.and_eq_true, Bool.not_eq_true', decide_eq_true_eq] at hbefore
        have hle := siblingStart_le hbefore.1 (List.mem_range.mp hj)
        rw [hused, node_eq_emptyRoot_of_le (by omega)]
        simp only [pushNode, nextFiller, hasher.index_emptyRoots hi.le]
        rfl
      · rw [Bool.not_eq_true] at hused
        rw [hused]
        simp only [pushNode, nextFiller, h.cursor_root hincomplete hused hi hlen]
        rfl

theorem Represents.foldM_pushNode (h : w.Represents hasher height leaves p)
    (hlen : leaves.length < Checked.usizeSize) {m : ℕ} (hi : 1 ≤ i) (hm : i + m ≤ height)
    (path : List Node) :
    (Outcome.foldM (fun state i => w.pushNode (hasher.emptyRoots height) hasher i
        (w.tree.parents.getD (i - 1) none) state)
      (path, fillersAt hasher height leaves p i) (List.range' i m) :
        Outcome ε (List Node × Fillers)) =
      .ok (path ++ (List.range' i m).map fun level =>
          node hasher.combine (hasher.padded leaves) level (sibling (p / 2 ^ level)),
        fillersAt hasher height leaves p (i + m)) := by
  induction m generalizing i path with
  | zero =>
    rw [List.range'_zero, List.map_nil, List.append_nil]
    rfl
  | succ m ih =>
    have hnode := h.tree.getD_parents (i - 1)
    rw [Nat.add_sub_cancel, Nat.sub_add_cancel hi] at hnode
    rw [List.range'_succ, Outcome.foldM, hnode, h.pushNode_eq (by omega) hlen]
    have hrest := ih (i := i + 1) (by omega) (by omega)
      (path ++ [node hasher.combine (hasher.padded leaves) i (sibling (p / 2 ^ i))])
    rw [List.append_assoc, List.singleton_append] at hrest
    rw [show i + (m + 1) = i + 1 + m by omega, List.map_cons]
    exact hrest

theorem Represents.leafSibling_eq (h : w.Represents hasher height leaves p) :
    w.leafSibling = if p.testBit 0 then
      some (node hasher.combine (hasher.padded leaves) 0 (p / 2 ^ 0 - 1)) else none := by
  have hleft := h.tree.left
  have hright := h.tree.right
  rw [if_neg (Nat.succ_ne_zero p), Nat.add_sub_cancel] at hleft
  rw [Nat.add_sub_cancel] at hright
  rw [Nat.testBit_zero, Nat.pow_zero, Nat.div_one]
  by_cases hodd : p % 2 = 1
  · rw [if_pos ⟨Nat.succ_ne_zero p, by omega⟩] at hright
    rw [show 2 * (p / 2) = p - 1 by omega] at hleft
    rw [leafSibling, hright, hleft, decide_eq_true hodd]
    rfl
  · rw [if_neg (by omega)] at hright
    rw [leafSibling, hright, decide_eq_false hodd]
    rfl

theorem Represents.authPath_eq (h : w.Represents hasher height leaves p) (hheight : 1 ≤ height)
    (hlen : leaves.length < Checked.usizeSize) :
    (w.authPath height (hasher.emptyRoots height) hasher : Outcome ε (List Node)) =
      .ok ((List.range' 0 height).map fun level =>
        node hasher.combine (hasher.padded leaves) level (sibling (p / 2 ^ level))) := by
  have hfilled : w.filled = (fillersAt hasher height leaves p 0).1 := by
    rw [h.filled, fillersAt, Nat.sub_zero, List.range_eq_range']
  have hstart : (w.filled, false) = fillersAt hasher height leaves p 0 := Prod.ext hfilled rfl
  have hleft := h.tree.left
  rw [if_neg (Nat.succ_ne_zero p)] at hleft
  have hloop := h.foldM_pushNode (ε := ε) hlen (i := 1) (m := height - 1) le_rfl (by omega)
    ([] ++ [node hasher.combine (hasher.padded leaves) 0 (sibling (p / 2 ^ 0))])
  rw [authPath, hleft]
  dsimp only
  rw [hstart, h.leafSibling_eq, h.pushNode_eq hheight hlen, Outcome.bind, hloop, Outcome.bind]
  obtain ⟨n, rfl⟩ : ∃ n, height = n + 1 := Nat.exists_eq_succ_of_ne_zero (by omega)
  rw [List.range'_succ, Nat.add_sub_cancel]
  rfl

end Witness

/-- The path of a witness of the leaf `p` holds, level by level, the sibling on the way from that
leaf to the root of the padded tree, and the tree of the witness gives the position `p`. -/
theorem authPath_authenticates {ε : Type} (hasher : Hasher) (height : ℕ) (hheight : 1 ≤ height)
    (leaves : Checked.Vec Node) (hleaves : leaves.val.length ≤ 2 ^ height) (p : ℕ)
    (hp : p < leaves.val.length) (w : Witness) (h : w.Represents hasher height leaves.val p) :
    ∃ path, (w.authPath height (hasher.emptyRoots height) hasher : Outcome ε (List Node)) =
        .ok path ∧ path.length = height ∧
      (∀ level < height, path[level]? =
        some (node hasher.combine (hasher.padded leaves.val) level (sibling (p / 2 ^ level)))) ∧
      (w.tree.getPosition.bind fun n => Checked.sub n 1 : Outcome ε ℕ) = .ok p ∧
      climb hasher.combine p 0 leaves.val[p] path =
        node hasher.combine (hasher.padded leaves.val) height 0 := by
  have hlen : leaves.val.length < Checked.usizeSize := leaves.property
  refine ⟨_, h.authPath_eq hheight hlen, ?_, ?_, ?_, ?_⟩
  · rw [List.length_map, List.length_range']
  · intro level hlevel
    rw [List.getElem?_map, List.getElem?_range' hlevel, Option.map_some, Nat.zero_add, Nat.one_mul]
  · have hcount := h.tree.numLeaves_eq
    rw [CTree.getPosition_of_lt (by omega), hcount, Outcome.bind, Checked.sub_of_le (by omega),
      Nat.add_sub_cancel]
  · have hclimb := climb_siblings hasher.combine (hasher.padded leaves.val) p 0 height
    have hleaf : leaves.val[p] =
        node hasher.combine (hasher.padded leaves.val) 0 (p / 2 ^ 0) := by
      rw [Nat.pow_zero, Nat.div_one, node, Hasher.padded, List.getD_eq_getElem _ _ hp]
    rw [hleaf, hclimb, Nat.zero_add, Nat.div_eq_of_lt (hp.trans_le hleaves)]

def sampleHasher : Hasher where
  uncommitedNode := .replicate 32 0
  nodeCombine depth left right := .replicate 32 (depth + 2 * left.get 0 + 3 * right.get 0)

def sampleLeaves : Checked.Vec Node := ⟨[1, 2, 3, 4, 5, 6, 7].map (.replicate 32), by decide⟩

def sampleWitness : Witness where
  position := 2
  tree := ⟨some (.replicate 32 3), none, [some (.replicate 32 8)]⟩
  filled := [.replicate 32 4]
  cursor := ⟨some (.replicate 32 7), none, [some (.replicate 32 28)]⟩
  idNote := 7
  cmx := .replicate 32 3

theorem sampleWitness_represents :
    sampleWitness.Represents sampleHasher 3 sampleLeaves.val 2 where
  tree := {
    left := rfl
    right := rfl
    length := rfl
    parents := by decide }
  filled := by decide
  cursor := {
    left := rfl
    right := rfl
    length := rfl
    parents := by decide }

/-- The path of the sample leads to the root over all seven leaves. -/
theorem authPath_authenticates_sample : ∃ path,
    (sampleWitness.authPath 3 (sampleHasher.emptyRoots 3) sampleHasher : Outcome String (List Node)) =
        .ok path ∧
      climb sampleHasher.combine 2 0 (.replicate 32 3) path =
        node sampleHasher.combine (sampleHasher.padded sampleLeaves.val) 3 0 := by
  obtain ⟨path, hpath, -, -, -, hclimb⟩ := authPath_authenticates sampleHasher 3 (by decide)
    sampleLeaves (by decide) 2 (by decide) sampleWitness sampleWitness_represents
  exact ⟨path, hpath, hclimb⟩

end FrostTools.ZcashSign
