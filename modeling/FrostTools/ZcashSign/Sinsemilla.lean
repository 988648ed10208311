import FrostTools.Lib.BitString
import FrostTools.ZcashSign.AuthPath

/-!
# The hash of the Orchard tree

Which chunks of its two nodes the Sinsemilla hash absorbs. The curve and its table of points are a
parameter.
-/

namespace FrostTools.ZcashSign
open BitString

/-- The curve, with the table `SINSEMILLA_S` of the coordinates of points on it. -/
structure Pallas where
  Base : Type
  Point : Type
  add : Point → Point → Point
  /-- The point with these coordinates, if they are on the curve. -/
  fromXY : Base → Base → Option Point
  sinsemillaS : Vector (Base × Base) 1024
  sinsemillaS_on_curve : ∀ i (h : i < 1024),
    (fromXY sinsemillaS[i].1 sinsemillaS[i].2).isSome = true
  /-- The bytes of the x coordinate, or of zero for the point at infinity. -/
  xRepr : Point → Node
  xRepr_lt : ∀ p, bit (xRepr p).toList 255 = false

variable {C : Pallas} {ε : Type}

namespace Pallas

def absorb (acc : C.Point) (i : ℕ) : Outcome ε C.Point :=
  (Checked.index C.sinsemillaS.toList i).bind fun (x, y) =>
    match C.fromXY x y with
    | some chunk => .ok (C.add (C.add acc chunk) acc)
    | none => .panic "assertion failed"

def chunkPoint (c : Fin 1024) : C.Point :=
  (C.fromXY C.sinsemillaS[c].1 C.sinsemillaS[c].2).get (C.sinsemillaS_on_curve c c.isLt)

def absorbed (acc : C.Point) (c : Fin 1024) : C.Point := C.add (C.add acc (chunkPoint c)) acc

theorem absorb_eq (acc : C.Point) (c : Fin 1024) :
    (absorb acc c : Outcome ε C.Point) = .ok (absorbed acc c) := by
  have hentry : C.sinsemillaS.toList[(c : ℕ)]? = some C.sinsemillaS[c] := by
    rw [Vector.getElem?_toList]
    exact Vector.getElem?_eq_getElem c.isLt
  have hpoint : C.fromXY C.sinsemillaS[c].1 C.sinsemillaS[c].2 = some (chunkPoint c) :=
    (Option.some_get _).symm
  rw [absorb, Checked.index_of_getElem? hentry, Outcome.bind]
  dsimp only
  rw [hpoint]
  rfl

end Pallas

structure OrchardHasher (C : Pallas) where
  Q : C.Point

namespace OrchardHasher

/-- Moves the first bit of `right` into the 256th of `left`. -/
def joinLeft (left right : Node) : Outcome ε Node :=
  (Checked.index left.toList 31).bind fun last =>
    (Checked.index right.toList 0).bind fun first =>
      .ok (left.setIfInBounds 31 (last ||| (first &&& 1) <<< 7))

/-- One turn of the loop that moves `right` by one bit. -/
def shiftByte (right : Node) (i : ℕ) : Outcome ε Node :=
  let carry : Outcome ε UInt8 :=
    if i < 31 then
      (Checked.index right.toList (i + 1)).bind fun next => .ok ((next &&& 1) <<< 7)
    else .ok 0
  carry.bind fun carry =>
    (Checked.index right.toList i).bind fun byte =>
      .ok (right.setIfInBounds i (byte >>> 1 ||| carry))

def window (left right : Node) (byteOffset : ℕ) : Outcome ε UInt16 :=
  if byteOffset < 31 then
    (Checked.index left.toList byteOffset).bind fun lo =>
      (Checked.add Checked.usizeSize byteOffset 1).bind fun next =>
        (Checked.index left.toList next).bind fun hi => .ok (word lo hi)
  else if byteOffset = 31 then
    (Checked.index left.toList 31).bind fun lo =>
      (Checked.index right.toList 0).bind fun hi => .ok (word lo hi)
  else
    (Checked.sub byteOffset 32).bind fun offset =>
      (Checked.index right.toList offset).bind fun lo =>
        (Checked.sub byteOffset 31).bind fun next =>
          (Checked.index right.toList next).bind fun hi => .ok (word lo hi)

/-- One round: the accumulator, the bit offset and the byte offset. -/
def round (left right : Node) : C.Point × ℕ × ℕ → Outcome ε (C.Point × ℕ × ℕ) :=
  fun (acc, bitOffset, byteOffset) =>
    (window left right byteOffset).bind fun v =>
    (Checked.shiftRight v bitOffset).bind fun v =>
    (Pallas.absorb acc (v &&& 0x03FF).toNat).bind fun acc =>
    (Checked.add Checked.usizeSize bitOffset 10).bind fun bitOffset =>
    if 8 ≤ bitOffset then
      (Checked.add Checked.usizeSize byteOffset (bitOffset / 8)).bind fun byteOffset =>
        .ok (acc, bitOffset % 8, byteOffset)
    else .ok (acc, bitOffset, byteOffset)

variable (hasher : OrchardHasher C)

def nodeCombineInner (depth : UInt8) (left right : Node) : Outcome ε C.Point :=
  (Pallas.absorb hasher.Q depth.toNat).bind fun acc =>
  (joinLeft left right).bind fun left =>
  (Outcome.foldM shiftByte right (List.range 32)).bind fun right =>
  (Outcome.foldM (fun state _ => round left right state) (acc, 0, 0) (List.range 51)).bind
    fun (acc, _, _) => .ok acc

def uncommitedNode : Node := (Vector.replicate 32 0).set 0 2

def nodeCombine (depth : UInt8) (left right : Node) : Outcome ε Node :=
  (hasher.nodeCombineInner depth left right).bind fun acc => .ok (C.xRepr acc)

end OrchardHasher

theorem index_toList (node : Node) {i : ℕ} (h : i < 32) :
    (Checked.index node.toList i : Outcome ε UInt8) = .ok (node.toList.getD i 0) := by
  have hlength : i < node.toList.length := by rw [Vector.length_toList]; exact h
  rw [Checked.index_of_lt hlength, List.getD_eq_getElem _ _ hlength]

theorem getD_setIfInBounds (node : Node) {i : ℕ} (h : i < 32) (byte : UInt8) (j : ℕ) :
    (node.setIfInBounds i byte).toList.getD j 0 = if j = i then byte else node.toList.getD j 0 := by
  have hlength : i < node.toList.length := by rw [Vector.length_toList]; exact h
  rw [Vector.toList_setIfInBounds, List.getD_eq_getElem?_getD, List.getD_eq_getElem?_getD]
  by_cases hj : j = i
  · rw [if_pos hj, hj, List.getElem?_set_self hlength]
    rfl
  · rw [if_neg hj, List.getElem?_set_ne (fun heq => hj heq.symm)]

namespace OrchardHasher

def joined (left right : Node) : Node :=
  left.setIfInBounds 31 (left.toList.getD 31 0 ||| (right.toList.getD 0 0 &&& 1) <<< 7)

theorem joinLeft_eq (left right : Node) :
    (joinLeft left right : Outcome ε Node) = .ok (joined left right) := by
  rw [joinLeft, index_toList left (by decide), Outcome.bind, index_toList right (by decide)]
  rfl

theorem bit_joined (left right : Node) (i : ℕ) :
    bit (joined left right).toList i =
      if i = 255 then bit left.toList 255 || bit right.toList 0 else bit left.toList i := by
  rw [bit, joined, getD_setIfInBounds left (by decide)]
  by_cases hlast : i / 8 = 31
  · have hbyte : bit left.toList i = (left.toList.getD 31 0).toNat.testBit (i % 8) := by
      rw [bit, hlast]
    rw [if_pos hlast, UInt8.toNat_or, Nat.testBit_or, testBit_carry _ (by omega), ← hbyte]
    by_cases hi : i = 255
    · subst hi
      rfl
    · rw [if_neg hi, decide_eq_false (by omega), Bool.false_and, Bool.or_false]
  · rw [if_neg hlast, if_neg (by omega), bit]

def shiftedByte (right : Node) (i : ℕ) : UInt8 :=
  right.toList.getD i 0 >>> 1 ||| (right.toList.getD (i + 1) 0 &&& 1) <<< 7

/-- A turn writes the byte `i` of a node that is the original one from there on. -/
theorem shiftByte_eq {node right : Node} {i : ℕ} (hi : i < 32)
    (h : ∀ j, i ≤ j → node.toList.getD j 0 = right.toList.getD j 0) :
    (shiftByte node i : Outcome ε Node) = .ok (node.setIfInBounds i (shiftedByte right i)) := by
  rw [shiftByte, index_toList node hi, h i le_rfl, shiftedByte]
  by_cases hlast : i < 31
  · rw [if_pos hlast, index_toList node (by omega), h (i + 1) (by omega)]
    rfl
  · have hnone : right.toList.getD (i + 1) 0 = 0 := by
      apply List.getD_eq_default
      rw [Vector.length_toList]
      omega
    rw [if_neg hlast, hnone]
    rfl

theorem foldM_shiftByte (right : Node) {n : ℕ} (hn : n ≤ 32) :
    ∃ node, (Outcome.foldM shiftByte right (List.range n) : Outcome ε Node) = .ok node ∧
      ∀ j, node.toList.getD j 0 = if j < n then shiftedByte right j else right.toList.getD j 0 := by
  induction n with
  | zero => exact ⟨right, rfl, fun j => (if_neg (Nat.not_lt_zero j)).symm⟩
  | succ n ih =>
    obtain ⟨node, hnode, hbytes⟩ := ih (by omega)
    have hrest : ∀ j, n ≤ j → node.toList.getD j 0 = right.toList.getD j 0 := by
      intro j hj
      rw [hbytes, if_neg (by omega)]
    refine ⟨node.setIfInBounds n (shiftedByte right n), ?_, fun j => ?_⟩
    · rw [List.range_succ, Outcome.foldM_append_singleton, hnode, Outcome.bind,
        shiftByte_eq (by omega) hrest]
    · rw [getD_setIfInBounds node (by omega), hbytes]
      by_cases hj : j = n
      · rw [if_pos hj, hj, if_pos (by omega)]
      · rw [if_neg hj]
        by_cases hlt : j < n
        · rw [if_pos hlt, if_pos (by omega)]
        · rw [if_neg hlt, if_neg (by omega)]

theorem window_eq (left right : Node) {b : ℕ} (hb : b + 1 < 64) :
    (window left right b : Outcome ε UInt16) =
      .ok (word ((left.toList ++ right.toList).getD b 0)
        ((left.toList ++ right.toList).getD (b + 1) 0)) := by
  have hleft : ∀ j < 32, (left.toList ++ right.toList).getD j 0 = left.toList.getD j 0 := by
    intro j hj
    rw [List.getD_append _ _ _ _ (by rw [Vector.length_toList]; exact hj)]
  have hright : ∀ j, 32 ≤ j →
      (left.toList ++ right.toList).getD j 0 = right.toList.getD (j - 32) 0 := by
    intro j hj
    rw [List.getD_append_right _ _ _ _ (by rw [Vector.length_toList]; exact hj),
      Vector.length_toList]
  rw [window]
  by_cases hlt : b < 31
  · rw [if_pos hlt, hleft b (by omega), hleft (b + 1) (by omega), index_toList left (by omega),
      Outcome.bind, Checked.add_of_lt (by unfold Checked.usizeSize; omega), Outcome.bind,
      index_toList left (by omega), Outcome.bind]
  · rw [if_neg hlt]
    by_cases heq : b = 31
    · subst heq
      rw [if_pos rfl, hleft 31 (by decide), hright 32 le_rfl, index_toList left (by decide),
        Outcome.bind, index_toList right (by decide), Outcome.bind]
    · rw [if_neg heq, hright b (by omega), hright (b + 1) (by omega),
        Checked.sub_of_le (by omega), Outcome.bind, index_toList right (by omega), Outcome.bind,
        Checked.sub_of_le (by omega), Outcome.bind, show b - 31 = b + 1 - 32 by omega,
        index_toList right (by omega), Outcome.bind]

def chunkOf (bits : ℕ → Bool) (k : ℕ) : Fin 1024 := ⟨chunk 10 bits (10 * k), chunk_lt⟩

theorem round_eq (left right : Node) (acc : C.Point) {k : ℕ} (hk : k < 51) :
    (round left right (acc, 10 * k % 8, 10 * k / 8) : Outcome ε (C.Point × ℕ × ℕ)) =
      .ok (Pallas.absorbed acc (chunkOf (bit (left.toList ++ right.toList)) k),
        10 * (k + 1) % 8, 10 * (k + 1) / 8) := by
  have hchunk : (word ((left.toList ++ right.toList).getD (10 * k / 8) 0)
        ((left.toList ++ right.toList).getD (10 * k / 8 + 1) 0) >>> .ofNat (10 * k % 8) &&&
          0x03FF).toNat = (chunkOf (bit (left.toList ++ right.toList)) k).val := by
    have hshift : (UInt16.ofNat (10 * k % 8)).toNat % 16 = 10 * k % 8 := by
      rw [UInt16.toNat_ofNat']
      omega
    have hstart : 8 * (10 * k / 8) + 10 * k % 8 = 10 * k := Nat.div_add_mod (10 * k) 8
    have hword : (word ((left.toList ++ right.toList).getD (10 * k / 8) 0)
        ((left.toList ++ right.toList).getD (10 * k / 8 + 1) 0)).toNat >>> (10 * k % 8) % 2 ^ 10 =
          chunk 10 (bit (left.toList ++ right.toList)) (8 * (10 * k / 8) + 10 * k % 8) :=
      word_shift_mod_eq_chunk (by omega)
    rw [hstart] at hword
    rw [UInt16.toNat_and, UInt16.toNat_shiftRight, hshift]
    exact (Nat.and_two_pow_sub_one_eq_mod _ 10).trans hword
  rw [round, window_eq left right (by omega), Outcome.bind, Checked.shiftRight_of_lt (by omega),
    Outcome.bind, hchunk, Pallas.absorb_eq, Outcome.bind,
    Checked.add_of_lt (by unfold Checked.usizeSize; omega), Outcome.bind, if_pos (by omega),
    Checked.add_of_lt (by unfold Checked.usizeSize; omega), Outcome.bind,
    show (10 * k % 8 + 10) % 8 = 10 * (k + 1) % 8 by omega,
    show 10 * k / 8 + (10 * k % 8 + 10) / 8 = 10 * (k + 1) / 8 by omega]

theorem foldM_round (left right : Node) (acc : C.Point) {n : ℕ} (hn : n ≤ 51) :
    (Outcome.foldM (fun state _ => round left right state) (acc, 0, 0) (List.range n) :
      Outcome ε (C.Point × ℕ × ℕ)) =
      .ok (((List.range n).map (chunkOf (bit (left.toList ++ right.toList)))).foldl
        Pallas.absorbed acc, 10 * n % 8, 10 * n / 8) := by
  induction n with
  | zero => rfl
  | succ n ih =>
    rw [List.range_succ, Outcome.foldM_append_singleton, ih (by omega), Outcome.bind,
      round_eq left right _ (by omega), List.map_append, List.foldl_append]
    rfl

def joinedBits (left right : Node) (i : ℕ) : Bool :=
  if i = 255 then bit left.toList 255 || bit right.toList 0
  else if i < 255 then bit left.toList i else bit right.toList (i - 255)

/-- The first 255 bits of two nodes. -/
def nodeBits (left right : Node) (i : ℕ) : Bool :=
  if i < 255 then bit left.toList i else bit right.toList (i - 255)

theorem joinedBits_eq (left right : Node) (h : bit left.toList 255 = false) :
    joinedBits left right = nodeBits left right := by
  funext i
  unfold joinedBits nodeBits
  by_cases hi : i = 255
  · subst hi
    rw [if_pos rfl, if_neg (by decide), h, Bool.false_or]
  · rw [if_neg hi]

/-- The bits of the two nodes as the loops leave them. -/
theorem bit_joined_append {left right shifted : Node} {i : ℕ} (hi : i < 512)
    (h : ∀ j < 32, shifted.toList.getD j 0 = shiftedByte right j) :
    bit ((joined left right).toList ++ shifted.toList) i = joinedBits left right i := by
  have hlength : 8 * (joined left right).toList.length = 256 := by rw [Vector.length_toList]
  unfold joinedBits
  by_cases hlt : i < 256
  · rw [bit_append_left (by omega), bit_joined]
    by_cases hlast : i = 255
    · rw [if_pos hlast, if_pos hlast]
    · rw [if_neg hlast, if_neg hlast, if_pos (by omega)]
  · have hbyte : bit shifted.toList (i - 256) = bit right.toList (i - 256 + 1) := by
      rw [bit, h _ (by omega), shiftedByte, testBit_shift (by omega), Nat.div_add_mod]
    rw [bit_append_right (by omega), hlength, hbyte, if_neg (by omega), if_neg (by omega),
      show i - 256 + 1 = i - 255 by omega]

/-- The chunks that are absorbed for any two nodes. -/
theorem nodeCombineInner_eq (hasher : OrchardHasher C) (depth : UInt8) (left right : Node) :
    (hasher.nodeCombineInner depth left right : Outcome ε C.Point) =
      .ok (((List.range 51).map (chunkOf (joinedBits left right))).foldl Pallas.absorbed
        (Pallas.absorbed hasher.Q (depth.toFin.castLE (by decide)))) := by
  obtain ⟨shifted, hshifted, hbytes⟩ := foldM_shiftByte (ε := ε) right le_rfl
  have hdepth : (Pallas.absorb hasher.Q depth.toNat : Outcome ε C.Point) =
      .ok (Pallas.absorbed hasher.Q (depth.toFin.castLE (by decide))) :=
    Pallas.absorb_eq hasher.Q (depth.toFin.castLE (by decide))
  have hchunks : (List.range 51).map (chunkOf (bit ((joined left right).toList ++ shifted.toList))) =
      (List.range 51).map (chunkOf (joinedBits left right)) := by
    apply List.map_congr_left
    intro k hk
    have hlt : k < 51 := List.mem_range.mp hk
    apply Fin.ext
    apply chunk_congr
    intro j hj
    apply bit_joined_append (by omega)
    intro j hj
    rw [hbytes, if_pos hj]
  rw [nodeCombineInner, hdepth, Outcome.bind, joinLeft_eq, Outcome.bind, hshifted, Outcome.bind,
    foldM_round _ _ _ le_rfl, Outcome.bind, hchunks]

/-- The hash of the tree, which never panics. -/
def combine (hasher : OrchardHasher C) (depth : UInt8) (left right : Node) : Node :=
  C.xRepr (((List.range 51).map (chunkOf (joinedBits left right))).foldl Pallas.absorbed
    (Pallas.absorbed hasher.Q (depth.toFin.castLE (by decide))))

theorem nodeCombine_eq (hasher : OrchardHasher C) (depth : UInt8) (left right : Node) :
    (hasher.nodeCombine depth left right : Outcome ε Node) =
      .ok (hasher.combine depth left right) := by
  rw [nodeCombine, nodeCombineInner_eq]
  rfl

/-- The hasher of the Orchard tree, as the paths of witnesses use it. -/
def toHasher (hasher : OrchardHasher C) : Hasher where
  uncommitedNode := uncommitedNode
  nodeCombine := hasher.combine

theorem node_eq (hasher : OrchardHasher C) {leaf : ℕ → Node}
    (hleaf : ∀ k, bit (leaf k).toList 255 = false) (level index : ℕ) :
    MerkleTree.node hasher.toHasher.combine leaf (level + 1) index =
      C.xRepr (((List.range 51).map (chunkOf (nodeBits
        (MerkleTree.node hasher.toHasher.combine leaf level (2 * index))
        (MerkleTree.node hasher.toHasher.combine leaf level (2 * index + 1))))).foldl
          Pallas.absorbed
            (Pallas.absorbed hasher.Q ((UInt8.ofNat level).toFin.castLE (by decide)))) := by
  have hclear : bit (MerkleTree.node hasher.toHasher.combine leaf level (2 * index)).toList 255 =
      false := by
    cases level with
    | zero => exact hleaf _
    | succ level => exact C.xRepr_lt _
  rw [← joinedBits_eq _ _ hclear]
  rfl

end OrchardHasher

/-- After the chunk of the depth the hash absorbs 51 chunks of ten bits each, in the order of the
string of the first 255 bits of each node, the lowest bit first. The last bit of the left node is
clear. -/
theorem nodeCombineInner_absorbs {C : Pallas} {ε : Type} (hasher : OrchardHasher C) (depth : UInt8)
    (left right : Node) (hleft : bit left.toList 255 = false) :
    ∃ chunks : List (Fin 1024), chunks.length = 51 ∧
      (∀ k (hk : k < chunks.length),
        chunks[k].val = chunk 10 (OrchardHasher.nodeBits left right) (10 * k)) ∧
      (hasher.nodeCombineInner depth left right : Outcome ε C.Point) =
        .ok (chunks.foldl Pallas.absorbed
          (Pallas.absorbed hasher.Q (depth.toFin.castLE (by decide)))) := by
  refine ⟨(List.range 51).map (OrchardHasher.chunkOf (OrchardHasher.nodeBits left right)), ?_, ?_,
    ?_⟩
  · rw [List.length_map, List.length_range]
  · intro k hk
    rw [List.getElem_map, List.getElem_range, OrchardHasher.chunkOf]
  · rw [OrchardHasher.nodeCombineInner_eq, OrchardHasher.joinedBits_eq left right hleft]

/-- Integers as points. A chunk doubles the accumulator and is added to it. -/
def samplePallas : Pallas where
  Base := ℤ
  Point := ℤ
  add a b := a + b
  fromXY x y := if y = 2 * x then some x else none
  sinsemillaS := Vector.ofFn fun i => ((i : ℕ), 2 * (i : ℕ))
  sinsemillaS_on_curve := by
    intro i h
    rw [Vector.getElem_ofFn, if_pos rfl]
    rfl
  xRepr _ := .replicate 32 0
  xRepr_lt _ := by decide

def sampleOrchardHasher : OrchardHasher samplePallas where
  Q := (7 : ℤ)

/-- The first chunk of two sample nodes. -/
theorem nodeCombineInner_absorbs_sample : ∃ chunks : List (Fin 1024), chunks.length = 51 ∧
    chunks[0]? = some 341 ∧
    (sampleOrchardHasher.nodeCombineInner 3 (.replicate 32 0x55) (.replicate 32 0x33) :
      Outcome String samplePallas.Point) =
        .ok (chunks.foldl Pallas.absorbed (Pallas.absorbed sampleOrchardHasher.Q 3)) := by
  obtain ⟨chunks, hlength, hchunks, hok⟩ := nodeCombineInner_absorbs sampleOrchardHasher 3
    (.replicate 32 0x55) (.replicate 32 0x33) (by decide)
  have hpos : 0 < chunks.length := by omega
  refine ⟨chunks, hlength, ?_, hok⟩
  rw [List.getElem?_eq_getElem hpos]
  apply congrArg some
  apply Fin.ext
  exact (hchunks 0 hpos).trans (by decide)

end FrostTools.ZcashSign
