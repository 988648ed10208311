import FrostTools.Lib.Checked
import FrostTools.ZcashSign.Sign

/-!
# The transaction plan of YWallet

The crates that read JSON, memos and the encoding of Zcash are a parameter. A `usize` has 64 bits,
and arithmetic that overflows panics.
-/

namespace FrostTools.ZcashSign
open Client (hexDecode)

abbrev Node := Bytes32

abbrev Hash := Bytes32

inductive Source where
  | transparent (txid : Bytes32) (index : UInt32)
  | sapling (idNote : UInt32) (diversifier : Vector UInt8 11) (rseed : Bytes32) (witness : Bytes)
  | orchard (idNote : UInt32) (diversifier : Vector UInt8 11) (rseed rho : Bytes32)
    (witness : Bytes)

structure UTXO where
  id : UInt32
  source : Source
  amount : UInt64

inductive Destination where
  /-- t1/t3 and a hash. -/
  | transparent (data : Vector UInt8 21)
  /-- A diversifier and a Jubjub point. -/
  | sapling (data : Vector UInt8 43)
  /-- A diversifier and a Pallas point. -/
  | orchard (data : Vector UInt8 43)

structure Fill (M : Type) where
  idOrder : Option UInt32
  destination : Destination
  amount : UInt64
  memo : M

structure TransactionPlan (M : Type) where
  taddr : String
  fvk : String
  orchardFvk : String
  anchorHeight : UInt32
  expiryHeight : UInt32
  orchardAnchor : Hash
  spends : List UTXO
  outputs : List (Fill M)
  fee : UInt64
  netChg : Int64 × Int64

/-- What `serde_json` does with a text. It hands the string of a memo to the conversion as soon as it
has read it, and goes on with the memo. -/
inductive Deserialization (M α : Type) where
  | error (e : String)
  | value (a : α)
  | memo (proxy : String) (k : M → Deserialization M α)

structure PlanLibraries where
  Pczt : Type
  MemoBytes : Type
  parsePczt : Bytes → Option Pczt
  /-- `MemoBytes::from_bytes`. -/
  memoFromBytes : Bytes → Option MemoBytes
  deserialize : Bytes → Deserialization MemoBytes (TransactionPlan MemoBytes)

inductive PlanError where
  | json (e : String)
  deriving DecidableEq

variable {M α ε : Type}

def Deserialization.run (convert : String → Outcome PlanError M) :
    Deserialization M α → Outcome PlanError α
  | error e => .err (.json e)
  | value a => .ok a
  | memo proxy k => (convert proxy).bind fun m => (k m).run convert

inductive Input (L : PlanLibraries) where
  | pczt (pczt : L.Pczt)
  | ywalletTxPlan (plan : TransactionPlan L.MemoBytes)

namespace PlanLibraries

variable (L : PlanLibraries)

def unwrap : Option α → Outcome ε α
  | some a => .ok a
  | none => .panic "called `Result::unwrap()` on an `Err` value"

def memoBytesFrom (proxy : String) : Outcome ε L.MemoBytes :=
  (unwrap (hexDecode proxy)).bind fun bytes => unwrap (L.memoFromBytes bytes)

/-- `serde_json::from_slice` of a plan. -/
def fromSlice (text : Bytes) : Outcome PlanError (TransactionPlan L.MemoBytes) :=
  (L.deserialize text).run L.memoBytesFrom

/-- The input of `sign`: whatever is not a PCZT is taken for a plan. -/
def parseInput (txPlan : Bytes) : Outcome PlanError (Input L) :=
  match L.parsePczt txPlan with
  | some pczt => .ok (.pczt pczt)
  | none => (L.fromSlice txPlan).bind fun plan => .ok (.ywalletTxPlan plan)

end PlanLibraries

/-- The two-to-one hash of a tree. -/
structure Hasher where
  uncommitedNode : Node
  nodeCombine (depth : UInt8) (left right : Node) : Node

/-- One turn of the loop over the heights: the roots so far and the last one. -/
def Hasher.pushEmptyRoot (hasher : Hasher) : List Node × Node → ℕ → List Node × Node :=
  fun (roots, cur) depth =>
    let cur := hasher.nodeCombine (.ofNat depth) cur cur
    (roots ++ [cur], cur)

/-- The roots of the trees of uncommitted leaves, of the heights up to `height`. -/
def Hasher.emptyRoots (hasher : Hasher) (height : ℕ) : List Node :=
  ((List.range height).foldl hasher.pushEmptyRoot
    ([hasher.uncommitedNode], hasher.uncommitedNode)).1

structure CTree where
  left : Option Node
  right : Option Node
  parents : List (Option Node)
  deriving DecidableEq

namespace CTree

def new : CTree where
  left := none
  right := none
  parents := []

def countNode (p : ℕ) (node : Option Node) : Outcome ε ℕ :=
  if node.isSome then Checked.add Checked.usizeSize p 1 else .ok p

/-- One turn of the loop over the parents, from the last to the first. -/
def addParent (p : ℕ) (parent : Option Node) : Outcome ε ℕ :=
  (countNode p parent).bind fun p => Checked.mul Checked.usizeSize p 2

def getPosition (tree : CTree) : Outcome ε ℕ :=
  (Outcome.foldM addParent 0 tree.parents.reverse).bind fun p =>
    (countNode p tree.left).bind fun p => countNode p tree.right

def parentsLeaves : List (Option Node) → ℕ
  | [] => 0
  | parent :: parents => 2 * (parentsLeaves parents + parent.isSome.toNat)

/-- The leaves that a tree stands for, of which there may be more than a `usize` can count. -/
def numLeaves (tree : CTree) : ℕ :=
  parentsLeaves tree.parents + tree.left.isSome.toNat + tree.right.isSome.toNat

theorem countNode_of_lt {p : ℕ} {node : Option Node} (h : p + node.isSome.toNat < Checked.usizeSize) :
    (countNode p node : Outcome ε ℕ) = .ok (p + node.isSome.toNat) := by
  unfold countNode
  cases node with
  | none => rfl
  | some node => exact Checked.add_of_lt h

theorem countNode_of_le {p : ℕ} {node : Option Node} (hp : p < Checked.usizeSize)
    (h : Checked.usizeSize ≤ p + node.isSome.toNat) :
    (countNode p node : Outcome ε ℕ) = .panic "attempt to add with overflow" := by
  unfold countNode
  cases node with
  | none => exact absurd h (Nat.not_le.mpr hp)
  | some node => exact Checked.add_of_le h

theorem foldM_addParent (parents : List (Option Node)) :
    (parentsLeaves parents < Checked.usizeSize →
      (Outcome.foldM addParent 0 parents.reverse : Outcome ε ℕ) = .ok (parentsLeaves parents)) ∧
    (Checked.usizeSize ≤ parentsLeaves parents →
      ∃ message, (Outcome.foldM addParent 0 parents.reverse : Outcome ε ℕ) = .panic message) := by
  induction parents with
  | nil => exact ⟨fun _ => rfl, fun h => absurd h (by decide)⟩
  | cons parent parents ih =>
    rw [List.reverse_cons, Outcome.foldM_append_singleton, parentsLeaves]
    by_cases hlt : parentsLeaves parents < Checked.usizeSize
    · rw [ih.1 hlt]
      dsimp only [Outcome.bind]
      rw [addParent]
      by_cases hadd : parentsLeaves parents + parent.isSome.toNat < Checked.usizeSize
      · rw [countNode_of_lt hadd]
        refine ⟨fun h => ?_, fun h => ⟨_, Checked.mul_of_le (by omega)⟩⟩
        rw [Nat.mul_comm 2]
        exact Checked.mul_of_lt (by omega)
      · rw [countNode_of_le hlt (by omega)]
        exact ⟨fun h => absurd h (by omega), fun _ => ⟨_, rfl⟩⟩
    · obtain ⟨message, hpanic⟩ := ih.2 (by omega)
      rw [hpanic]
      exact ⟨fun h => absurd h (by omega), fun _ => ⟨message, rfl⟩⟩

theorem getPosition_of_lt {tree : CTree} (h : tree.numLeaves < Checked.usizeSize) :
    (tree.getPosition : Outcome ε ℕ) = .ok tree.numLeaves := by
  unfold numLeaves at h
  rw [getPosition, (foldM_addParent tree.parents).1 (by omega)]
  dsimp only [Outcome.bind]
  rw [countNode_of_lt (by omega)]
  exact countNode_of_lt h

theorem getPosition_of_le {tree : CTree} (h : Checked.usizeSize ≤ tree.numLeaves) :
    ∃ message, (tree.getPosition : Outcome ε ℕ) = .panic message := by
  unfold numLeaves at h
  rw [getPosition]
  by_cases hparents : parentsLeaves tree.parents < Checked.usizeSize
  · rw [(foldM_addParent tree.parents).1 hparents]
    dsimp only [Outcome.bind]
    by_cases hleft : parentsLeaves tree.parents + tree.left.isSome.toNat < Checked.usizeSize
    · rw [countNode_of_lt hleft]
      exact ⟨_, countNode_of_le hleft h⟩
    · rw [countNode_of_le hparents (by omega)]
      exact ⟨_, rfl⟩
  · obtain ⟨message, hpanic⟩ := (foldM_addParent (ε := ε) tree.parents).2 (by omega)
    rw [hpanic]
    exact ⟨message, rfl⟩

def mergeParent (emptyRoots : List Node) (hasher : Hasher) :
    Node × ℕ → Option Node → Outcome ε (Node × ℕ) := fun (cur, depth) p =>
  let cur : Outcome ε Node :=
    match p with
    | some left => .ok (hasher.nodeCombine (.ofNat depth) left cur)
    | none => (Checked.index emptyRoots depth).bind fun empty =>
      .ok (hasher.nodeCombine (.ofNat depth) cur empty)
  cur.bind fun cur => (Checked.add Checked.u8Size depth 1).bind fun depth => .ok (cur, depth)

/-- Fills in a missing level. -/
def fillLevel (emptyRoots : List Node) (hasher : Hasher) (cur : Node) (d : ℕ) : Outcome ε Node :=
  (Checked.index emptyRoots d).bind fun empty => .ok (hasher.nodeCombine (.ofNat d) cur empty)

def root (tree : CTree) (height : ℕ) (emptyRoots : List Node) (hasher : Hasher) :
    Outcome ε Node :=
  match tree.left with
  | none => Checked.index emptyRoots height
  | some left =>
    let cur := hasher.nodeCombine 0 left (tree.right.getD hasher.uncommitedNode)
    (Outcome.foldM (mergeParent emptyRoots hasher) (cur, 1) tree.parents).bind fun (cur, depth) =>
      Outcome.foldM (fillLevel emptyRoots hasher) cur (List.range' depth (height - depth))

end CTree

structure Witness where
  position : ℕ
  /-- The commitment tree at the moment the witness is created. -/
  tree : CTree
  /-- As more nodes are added, levels get filled up. -/
  filled : List Node
  /-- The partial tree which still updates when nodes are added. -/
  cursor : CTree
  idNote : UInt32
  cmx : Bytes32
  deriving DecidableEq

namespace Witness

/-- The state of `next_filler`: the nodes left of `filled`, and whether the cursor was used. -/
abbrev Fillers := List Node × Bool

variable (w : Witness)

def nextFiller (emptyRoots : List Node) (hasher : Hasher) (depth : ℕ) :
    Fillers → Outcome ε (Node × Fillers)
  | (f :: filled, cursorUsed) => .ok (f, filled, cursorUsed)
  | ([], false) => (w.cursor.root depth emptyRoots hasher).bind fun node => .ok (node, [], true)
  | ([], true) => (Checked.index emptyRoots depth).bind fun node => .ok (node, [], true)

/-- Pushes a node of the tree or, where there is none, a filler. -/
def pushNode (emptyRoots : List Node) (hasher : Hasher) (depth : ℕ) (p : Option Node) :
    List Node × Fillers → Outcome ε (List Node × Fillers) := fun (path, fillers) =>
  match p with
  | some node => .ok (path ++ [node], fillers)
  | none => (w.nextFiller emptyRoots hasher depth fillers).bind fun (node, fillers) =>
    .ok (path ++ [node], fillers)

/-- The left sibling of the last leaf, when that is a right child. -/
def leafSibling : Option Node := if w.tree.right.isSome then w.tree.left else none

def authPath (height : ℕ) (emptyRoots : List Node) (hasher : Hasher) : Outcome ε (List Node) :=
  let leaf : Outcome ε (List Node × Fillers) :=
    match w.tree.left with
    | some _ => w.pushNode emptyRoots hasher 0 w.leafSibling ([], w.filled, false)
    | none => .ok ([], w.filled, false)
  leaf.bind fun state =>
  (Outcome.foldM
    (fun state i => w.pushNode emptyRoots hasher i (w.tree.parents.getD (i - 1) none) state)
    state (List.range' 1 (height - 1))).bind fun (path, _) => .ok path

end Witness

/-- Reads a value from the front of the bytes. `none` is an I/O error. -/
abbrev Reader (α : Type) := Bytes → Option (α × Bytes)

structure ZcashEncoding where
  optional {α : Type} (read : Reader α) : Reader (Option α)
  vector {α : Type} (read : Reader α) : Reader (List α)

def readExact (n : ℕ) : Reader (Vector UInt8 n) := fun bytes =>
  (toArray n (bytes.take n)).map fun v => (v, bytes.drop n)

def nodeRead : Reader Node := readExact 32

inductive IoError where
  | io
  deriving DecidableEq

section Read

variable (enc : ZcashEncoding)

def CTree.read : Reader CTree := fun bytes => do
  let (left, bytes) ← enc.optional nodeRead bytes
  let (right, bytes) ← enc.optional nodeRead bytes
  let (parents, bytes) ← enc.vector (enc.optional nodeRead) bytes
  pure (⟨left, right, parents⟩, bytes)

namespace Witness

/-- What is read of a witness. Its position is computed from the tree. -/
def readParts (idNote : UInt32) : Reader Witness := fun bytes => do
  let (tree, bytes) ← CTree.read enc bytes
  let (filled, bytes) ← enc.vector nodeRead bytes
  let (cursor, bytes) ← enc.optional (CTree.read enc) bytes
  let (cmx, bytes) ← readExact 32 bytes
  pure ({
    position := 0
    idNote
    tree
    filled
    cursor := cursor.getD .new
    cmx }, bytes)

def read (idNote : UInt32) (bytes : Bytes) : Outcome IoError (Witness × Bytes) :=
  (Outcome.okOr .io (readParts enc idNote bytes)).bind fun (witness, bytes) =>
    witness.tree.getPosition.bind fun p =>
      (Checked.sub p 1).bind fun position => .ok ({ witness with position }, bytes)

def fromBytes (idNote : UInt32) (bytes : Bytes) : Outcome IoError Witness :=
  (read enc idNote bytes).bind fun (witness, _) => .ok witness

end Witness
end Read
end FrostTools.ZcashSign
