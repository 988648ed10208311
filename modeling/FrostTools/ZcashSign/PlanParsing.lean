import FrostTools.ZcashSign.AuthPath

/-!
# Reading a transaction plan

Which witnesses and which memos make the program panic. The vectors of a witness are as long as the
file says, so its tree and its cursor may stand for more levels than there are.
-/

namespace FrostTools.ZcashSign
open Client (hexDecode)

variable {ε : Type} {hasher : Hasher} {height : ℕ}

theorem Hasher.index_emptyRoots_of_lt {depth : ℕ} (h : height < depth) :
    (Checked.index (hasher.emptyRoots height) depth : Outcome ε Node) =
      .panic "index out of bounds" := by
  apply Checked.index_of_le
  rw [hasher.emptyRoots_eq, List.length_map, List.length_range]
  exact h

namespace CTree

/-- There is an empty root for each parent that is missing, and the level after the last one fits in
a byte. The first parent is at the level `k`. -/
def ParentsInRange (height k : ℕ) (parents : List (Option Node)) : Prop :=
  k + parents.length < Checked.u8Size ∧ ∀ i, parents[i]? = some none → k + i ≤ height

/-- A tree without leaves has its root in the table. -/
def InRange (height : ℕ) (tree : CTree) : Prop :=
  tree.left.isSome = true → ParentsInRange height 1 tree.parents

theorem parentsInRange_nil {k : ℕ} (hk : k < Checked.u8Size) : ParentsInRange height k [] :=
  ⟨hk, fun i h => by rw [List.getElem?_nil] at h; cases h⟩

theorem parentsInRange_cons_iff {k : ℕ} {parent : Option Node} {parents : List (Option Node)} :
    ParentsInRange height k (parent :: parents) ↔
      ((parent = none → k ≤ height) ∧ k + 1 < Checked.u8Size) ∧
        ParentsInRange height (k + 1) parents := by
  constructor
  · rintro ⟨hlength, hnone⟩
    rw [List.length_cons] at hlength
    refine ⟨⟨fun h => hnone 0 (congrArg some h), by omega⟩, by omega, fun i hi => ?_⟩
    have hle := hnone (i + 1) hi
    omega
  · rintro ⟨⟨hfirst, -⟩, hlength, hnone⟩
    refine ⟨?_, fun i hi => ?_⟩
    · rw [List.length_cons]
      omega
    · cases i with
      | zero => exact hfirst (Option.some.inj hi)
      | succ i =>
        have hle := hnone i hi
        omega

theorem mergeParent_panicsUnless (cur : Node) (k : ℕ) (parent : Option Node) :
    (mergeParent (hasher.emptyRoots height) hasher (cur, k) parent :
      Outcome ε (Node × ℕ)).PanicsUnless ((parent = none → k ≤ height) ∧ k + 1 < Checked.u8Size) := by
  have hadd : ∀ node : Node, ((Checked.add Checked.u8Size k 1).bind fun depth => .ok (node, depth) :
      Outcome ε (Node × ℕ)).PanicsUnless (k + 1 < Checked.u8Size) := by
    intro node
    by_cases hlt : k + 1 < Checked.u8Size
    · rw [Checked.add_of_lt hlt]
      exact .of_ok rfl hlt
    · rw [Checked.add_of_le (Nat.le_of_not_lt hlt)]
      exact .of_panic rfl hlt
  unfold mergeParent
  cases parent with
  | some left => exact (hadd _).congr ⟨fun h => ⟨fun heq => absurd heq (by simp), h⟩, And.right⟩
  | none =>
    by_cases hle : k ≤ height
    · dsimp only
      rw [hasher.index_emptyRoots hle]
      exact (hadd _).congr ⟨fun h => ⟨fun _ => hle, h⟩, And.right⟩
    · dsimp only
      rw [hasher.index_emptyRoots_of_lt (Nat.lt_of_not_le hle)]
      exact .of_panic rfl fun hand => hle (hand.1 rfl)

theorem depth_of_mergeParent {emptyRoots : List Node} {cur cur' : Node} {k k' : ℕ}
    {parent : Option Node}
    (h : (mergeParent emptyRoots hasher (cur, k) parent : Outcome ε (Node × ℕ)) = .ok (cur', k')) :
    k' = k + 1 := by
  obtain ⟨node, -, hadd⟩ := Outcome.bind_eq_ok_iff.mp h
  obtain ⟨depth, hdepth, heq⟩ := Outcome.bind_eq_ok_iff.mp hadd
  rw [Checked.add] at hdepth
  split_ifs at hdepth with hlt
  rw [← (Prod.mk.inj (Outcome.ok.inj heq)).2, Outcome.ok.inj hdepth]

theorem foldM_mergeParent_panicsUnless {cur : Node} {k : ℕ} (hk : k < Checked.u8Size)
    (parents : List (Option Node)) :
    (Outcome.foldM (mergeParent (hasher.emptyRoots height) hasher) (cur, k) parents :
      Outcome ε (Node × ℕ)).PanicsUnless (ParentsInRange height k parents) := by
  induction parents generalizing cur k with
  | nil => exact .of_ok rfl (parentsInRange_nil hk)
  | cons parent parents ih =>
    rw [Outcome.foldM]
    by_cases hlt : k + 1 < Checked.u8Size
    · refine ((mergeParent_panicsUnless cur k parent).bind ?_).congr parentsInRange_cons_iff.symm
      rintro ⟨cur', k'⟩ hmerge
      rw [depth_of_mergeParent hmerge]
      exact ih hlt
    · have hmerge : ∃ message, (mergeParent (hasher.emptyRoots height) hasher (cur, k) parent :
          Outcome ε (Node × ℕ)) = .panic message :=
        (mergeParent_panicsUnless cur k parent).2 fun hand => hlt hand.2
      obtain ⟨message, hpanic⟩ := hmerge
      rw [hpanic]
      exact .of_panic rfl fun h => hlt (parentsInRange_cons_iff.mp h).1.2

theorem foldM_fillLevel_ok {levels : List ℕ} (h : ∀ d ∈ levels, d ≤ height) (cur : Node) :
    ∃ node, (Outcome.foldM (fillLevel (hasher.emptyRoots height) hasher) cur levels :
      Outcome ε Node) = .ok node := by
  induction levels generalizing cur with
  | nil => exact ⟨cur, rfl⟩
  | cons d levels ih =>
    rw [Outcome.foldM, fillLevel, hasher.index_emptyRoots (h d List.mem_cons_self)]
    exact ih (fun d hd => h d (List.mem_cons_of_mem _ hd)) _

theorem root_panicsUnless (tree : CTree) {depth : ℕ} (hdepth : depth ≤ height) :
    (tree.root depth (hasher.emptyRoots height) hasher : Outcome ε Node).PanicsUnless
      (tree.InRange height) := by
  unfold root InRange
  cases tree.left with
  | none =>
    dsimp only
    rw [hasher.index_emptyRoots hdepth]
    exact .of_ok rfl fun h => by cases h
  | some left =>
    dsimp only
    refine ((foldM_mergeParent_panicsUnless (by decide) tree.parents).bind (q := True) ?_).congr ?_
    · rintro ⟨cur, k⟩ -
      have hlevels : ∀ d ∈ List.range' k (depth - k), d ≤ height := by
        intro d hd
        have hlt := List.mem_range'_1.mp hd
        omega
      obtain ⟨node, hnode⟩ := foldM_fillLevel_ok hlevels cur
      exact .of_ok hnode trivial
    · rw [and_true, Option.isSome_some]
      exact ⟨fun h _ => h, fun h => h rfl⟩

end CTree

namespace Witness

variable (w : Witness)

def nodeAt : ℕ → Option Node
  | 0 => w.leafSibling
  | level + 1 => w.tree.parents.getD level none

/-- The levels of the path. A tree without a left leaf skips the first one. -/
def levels (height : ℕ) : List ℕ :=
  if w.tree.left.isSome then List.range height else List.range' 1 (height - 1)

def fillerCount (height : ℕ) : ℕ :=
  (w.levels height).countP fun level => (w.nodeAt level).isNone

/-- The leaves of the tree are at least one and no more than a `usize` can count, and the cursor, if
the path uses it, is in range. -/
structure InRange (height : ℕ) : Prop where
  leaves : 1 ≤ w.tree.numLeaves ∧ w.tree.numLeaves < Checked.usizeSize
  cursor : w.filled.length < w.fillerCount height → w.cursor.InRange height

variable {w}

theorem le_of_mem_levels {level : ℕ} (h : level ∈ w.levels height) : level ≤ height := by
  unfold levels at h
  split_ifs at h
  · exact (List.mem_range.mp h).le
  · have hlt := List.mem_range'_1.mp h
    omega

theorem authPath_eq_foldM (hheight : 1 ≤ height) (emptyRoots : List Node) :
    (w.authPath height emptyRoots hasher : Outcome ε (List Node)) =
      (Outcome.foldM (fun state level => w.pushNode emptyRoots hasher level (w.nodeAt level) state)
        ([], w.filled, false) (w.levels height)).bind fun (path, _) => .ok path := by
  have hloop : ∀ state,
      (Outcome.foldM (fun state i => w.pushNode emptyRoots hasher i
        (w.tree.parents.getD (i - 1) none) state) state (List.range' 1 (height - 1)) :
          Outcome ε (List Node × Fillers)) =
        Outcome.foldM (fun state level => w.pushNode emptyRoots hasher level (w.nodeAt level) state)
          state (List.range' 1 (height - 1)) := by
    intro state
    apply Outcome.foldM_congr
    intro state i hi
    obtain ⟨level, rfl⟩ : ∃ level, i = level + 1 :=
      Nat.exists_eq_succ_of_ne_zero (by have hle := (List.mem_range'_1.mp hi).1; omega)
    rfl
  unfold authPath levels
  cases w.tree.left with
  | none =>
    dsimp only [Outcome.bind]
    rw [hloop]
    rfl
  | some left =>
    have hrange : List.range height = 0 :: List.range' 1 (height - 1) := by
      rw [List.range_eq_range', show height = height - 1 + 1 by omega, List.range'_succ]
      rfl
    rw [Option.isSome_some, if_pos rfl, hrange, Outcome.foldM]
    show (Outcome.bind (w.pushNode emptyRoots hasher 0 w.leafSibling ([], w.filled, false)) _) =
      ((w.pushNode emptyRoots hasher 0 w.leafSibling ([], w.filled, false)).bind _).bind _
    cases (w.pushNode emptyRoots hasher 0 w.leafSibling ([], w.filled, false) :
        Outcome ε (List Node × Fillers)) with
    | ok state =>
      dsimp only [Outcome.bind]
      rw [hloop]
    | err e => rfl
    | panic message => rfl

/-- The loop takes the nodes of `filled` first, then the cursor once, then empty roots. -/
theorem foldM_pushNode_panicsUnless {nodes : ℕ → Option Node} {levels : List ℕ}
    (hlevels : ∀ level ∈ levels, level ≤ height) (path filled : List Node) (used : Bool) :
    (Outcome.foldM (fun state level => w.pushNode (hasher.emptyRoots height) hasher level
        (nodes level) state) (path, filled, used) levels :
          Outcome ε (List Node × Fillers)).PanicsUnless
      (used = true ∨ levels.countP (fun level => (nodes level).isNone) ≤ filled.length ∨
        w.cursor.InRange height) := by
  -- on the levels: each missing node takes a filler and, when none is left, the cursor once
  induction levels generalizing path filled used with
  | nil => exact .of_ok rfl (.inr (.inl (Nat.zero_le _)))
  | cons level levels ih =>
    have hle : level ≤ height := hlevels level List.mem_cons_self
    have hrest : ∀ level ∈ levels, level ≤ height :=
      fun level h => hlevels level (List.mem_cons_of_mem _ h)
    rw [Outcome.foldM]
    cases hat : nodes level with
    | some node =>
      rw [List.countP_cons_of_neg (by rw [hat]; exact Bool.false_ne_true)]
      exact ih hrest _ _ _
    | none =>
      rw [List.countP_cons_of_pos (by rw [hat]; rfl)]
      cases filled with
      | cons f filled =>
        refine (ih hrest (path ++ [f]) filled used).congr ?_
        rw [List.length_cons, Nat.add_le_add_iff_right]
      | nil =>
        cases used with
        | true =>
          have hpush : (w.pushNode (hasher.emptyRoots height) hasher level none (path, [], true) :
              Outcome ε (List Node × Fillers)) =
              .ok (path ++ [hasher.emptyRoot level], [], true) := by
            rw [pushNode, nextFiller, hasher.index_emptyRoots hle]
            rfl
          rw [hpush]
          exact (ih hrest _ _ _).congr ⟨fun _ => .inl rfl, fun _ => .inl rfl⟩
        | false =>
          rw [pushNode, nextFiller]
          -- the cursor is used here for the first time
          by_cases hrange : w.cursor.InRange height
          · obtain ⟨node, hnode⟩ := (w.cursor.root_panicsUnless hle).1 hrange
            rw [hnode]
            exact (ih hrest _ _ _).congr ⟨fun _ => .inr (.inr hrange), fun _ => .inl rfl⟩
          · obtain ⟨message, hpanic⟩ := (w.cursor.root_panicsUnless hle).2 hrange
            rw [hpanic]
            refine .of_panic rfl ?_
            rintro (h | h | h)
            · cases h
            · exact absurd h (by simp)
            · exact hrange h

theorem authPath_panicsUnless (hheight : 1 ≤ height) :
    (w.authPath height (hasher.emptyRoots height) hasher : Outcome ε (List Node)).PanicsUnless
      (w.filled.length < w.fillerCount height → w.cursor.InRange height) := by
  rw [authPath_eq_foldM hheight]
  refine ((foldM_pushNode_panicsUnless (fun _ => le_of_mem_levels) [] w.filled false).bind
    (q := True) ?_).congr ?_
  · rintro ⟨path, fillers⟩ -
    exact .of_ok rfl trivial
  · rw [and_true, fillerCount, ← Nat.not_le, imp_iff_not_or, not_not]
    exact ⟨fun h => h.resolve_left (by decide), .inr⟩

variable {enc : ZcashEncoding} {idNote : UInt32} {bytes rest : Bytes}

theorem fromBytes_of_readParts_eq_none (h : readParts enc idNote bytes = none) :
    fromBytes enc idNote bytes = .err .io := by
  rw [fromBytes, read, h]
  rfl

theorem fromBytes_of_leaves (h : readParts enc idNote bytes = some (w, rest))
    (hleaves : 1 ≤ w.tree.numLeaves ∧ w.tree.numLeaves < Checked.usizeSize) :
    fromBytes enc idNote bytes = .ok { w with position := w.tree.numLeaves - 1 } := by
  rw [fromBytes, read, h]
  dsimp only [Outcome.okOr, Outcome.bind]
  rw [CTree.getPosition_of_lt hleaves.2]
  dsimp only [Outcome.bind]
  rw [Checked.sub_of_le hleaves.1]

theorem fromBytes_of_not_leaves (h : readParts enc idNote bytes = some (w, rest))
    (hleaves : ¬(1 ≤ w.tree.numLeaves ∧ w.tree.numLeaves < Checked.usizeSize)) :
    ∃ message, fromBytes enc idNote bytes = .panic message := by
  rw [fromBytes, read, h]
  dsimp only [Outcome.okOr, Outcome.bind]
  by_cases hlt : w.tree.numLeaves < Checked.usizeSize
  · rw [CTree.getPosition_of_lt hlt]
    dsimp only [Outcome.bind]
    rw [Checked.sub_of_lt (by omega)]
    exact ⟨_, rfl⟩
  · obtain ⟨message, hpanic⟩ := CTree.getPosition_of_le (ε := IoError) (Nat.le_of_not_lt hlt)
    rw [hpanic]
    exact ⟨message, rfl⟩

end Witness

variable {L : PlanLibraries} {α : Type}

/-- Every memo that is handed over is the hexadecimal form of bytes that a memo may have. -/
def Deserialization.MemosDecode : Deserialization L.MemoBytes α → Prop
  | error _ => True
  | value _ => True
  | memo proxy k =>
    ∃ bytes m, hexDecode proxy = some bytes ∧ L.memoFromBytes bytes = some m ∧ (k m).MemosDecode

theorem PlanLibraries.memoBytesFrom_eq_ok {proxy : String} {bytes : Bytes} {m : L.MemoBytes}
    (hbytes : hexDecode proxy = some bytes) (hm : L.memoFromBytes bytes = some m) :
    L.memoBytesFrom proxy = (.ok m : Outcome PlanError L.MemoBytes) := by
  rw [memoBytesFrom, hbytes, unwrap, Outcome.bind, hm, unwrap]

theorem Deserialization.run_never_panics_iff (d : Deserialization L.MemoBytes α) :
    (∀ message, d.run L.memoBytesFrom ≠ .panic message) ↔ d.MemosDecode := by
  induction d with
  | error e => exact iff_of_true (Outcome.err_ne_panic _) trivial
  | value a => exact iff_of_true (Outcome.ok_ne_panic a) trivial
  | memo proxy k ih =>
    rw [run, MemosDecode]
    cases hbytes : hexDecode proxy with
    | none =>
      rw [PlanLibraries.memoBytesFrom, hbytes]
      refine iff_of_false (fun h => h _ rfl) ?_
      rintro ⟨bytes, m, h, -⟩
      cases h
    | some bytes =>
      cases hm : L.memoFromBytes bytes with
      | none =>
        rw [PlanLibraries.memoBytesFrom, hbytes, PlanLibraries.unwrap, Outcome.bind, hm]
        refine iff_of_false (fun h => h _ rfl) ?_
        rintro ⟨bytes', m, h, hm', -⟩
        rw [Option.some.inj h, hm'] at hm
        cases hm
      | some m =>
        rw [PlanLibraries.memoBytesFrom_eq_ok hbytes hm]
        refine (ih m).trans ⟨fun h => ⟨bytes, m, rfl, hm, h⟩, ?_⟩
        rintro ⟨bytes', m', h, hm', hrest⟩
        rw [← Option.some.inj h, hm] at hm'
        rwa [Option.some.inj hm']

theorem PlanLibraries.parseInput_never_panics_iff (text : Bytes) :
    (∀ message, L.parseInput text ≠ .panic message) ↔
      (L.parsePczt text = none → (L.deserialize text).MemosDecode) := by
  rw [parseInput]
  cases L.parsePczt text with
  | some pczt => exact iff_of_true (Outcome.ok_ne_panic _) fun h => by cases h
  | none =>
    have hplan := (L.deserialize text).run_never_panics_iff
    constructor
    · intro h _
      apply hplan.mp
      intro message hpanic
      apply h message
      dsimp only
      rw [fromSlice, hpanic]
      rfl
    · intro h message hpanic
      exact hplan.mpr (h rfl) message
        (Outcome.panic_of_bind_eq_panic hpanic fun _ => Outcome.ok_ne_panic _ message)

/-- The bytes of a witness are read, and its path taken, without a panic exactly when the witness
that they encode is in range, and a text is read without one exactly when its memos decode. -/
theorem parsing_never_panics_iff (enc : ZcashEncoding) (L : PlanLibraries) (idNote : UInt32)
    (hasher : Hasher) (bytes text : Bytes) :
    (((∀ message, Witness.fromBytes enc idNote bytes ≠ .panic message) ∧
        ∀ w, Witness.fromBytes enc idNote bytes = .ok w → ∀ message,
          (w.authPath 32 (hasher.emptyRoots 32) hasher : Outcome IoError (List Node)) ≠
            .panic message) ↔
      ∀ w rest, Witness.readParts enc idNote bytes = some (w, rest) → w.InRange 32) ∧
    ((∀ message, L.fromSlice text ≠ .panic message) ↔ (L.deserialize text).MemosDecode) := by
  refine ⟨?_, (L.deserialize text).run_never_panics_iff⟩
  cases hparts : Witness.readParts enc idNote bytes with
  | none =>
    rw [Witness.fromBytes_of_readParts_eq_none hparts]
    refine iff_of_true ⟨Outcome.err_ne_panic _, fun w h => absurd h (Outcome.err_ne_ok _ w)⟩ ?_
    intro w rest h
    cases h
  | some found =>
    obtain ⟨w, rest⟩ := found
    have hsome : (∀ w' rest', some (w, rest) = some (w', rest') → w'.InRange 32) ↔
        w.InRange 32 := by
      constructor
      · intro h
        exact h w rest rfl
      · intro h w' rest' heq
        obtain ⟨rfl, rfl⟩ := Prod.mk.inj (Option.some.inj heq)
        exact h
    have hpath : (∀ message, (w.authPath 32 (hasher.emptyRoots 32) hasher :
        Outcome IoError (List Node)) ≠ .panic message) ↔
          (w.filled.length < w.fillerCount 32 → w.cursor.InRange 32) :=
      (Witness.authPath_panicsUnless (by decide)).never_panics_iff
    rw [hsome]
    -- `from_bytes` counts the leaves, and `auth_path` is run only on what it returns
    by_cases hleaves : 1 ≤ w.tree.numLeaves ∧ w.tree.numLeaves < Checked.usizeSize
    · rw [Witness.fromBytes_of_leaves hparts hleaves]
      constructor
      · rintro ⟨-, h⟩
        exact ⟨hleaves, hpath.mp (h { w with position := w.tree.numLeaves - 1 } rfl)⟩
      · intro h
        refine ⟨Outcome.ok_ne_panic _, fun w' hw' => ?_⟩
        rw [← Outcome.ok.inj hw']
        exact hpath.mpr h.cursor
    · obtain ⟨message, hpanic⟩ := Witness.fromBytes_of_not_leaves hparts hleaves
      exact iff_of_false (fun h => h.1 message hpanic) fun h => hleaves h.leaves

/-- Reads as many values as are announced. -/
def readMany (read : Reader α) : ℕ → Reader (List α)
  | 0, bytes => some ([], bytes)
  | n + 1, bytes => do
    let (a, bytes) ← read bytes
    let (as, bytes) ← readMany read n bytes
    pure (a :: as, bytes)

/-- Options after a flag, and vectors of fewer than 253 elements after their length. -/
def sampleEncoding : ZcashEncoding where
  optional read
    | 0 :: bytes => some (none, bytes)
    | 1 :: bytes => do
      let (a, bytes) ← read bytes
      pure (some a, bytes)
    | _ => none
  vector read
    | n :: bytes => if n < 253 then readMany read n.toNat bytes else none
    | [] => none

def emptyTreeBytes : Bytes := List.replicate 37 0

/-- A tree with one leaf, and a cursor with one leaf and 33 parents that are missing. -/
def tallCursorBytes : Bytes :=
  (1 :: List.replicate 32 1) ++ [0, 0, 0] ++ (1 :: 1 :: List.replicate 32 2) ++ [0, 33] ++
    List.replicate 33 0 ++ List.replicate 32 1

def samplePlan (M : Type) (memo : M) : TransactionPlan M where
  taddr := ""
  fvk := ""
  orchardFvk := ""
  anchorHeight := 1
  expiryHeight := 2
  orchardAnchor := .replicate 32 0
  spends := []
  outputs := [⟨none, .transparent (.replicate 21 0), 5, memo⟩]
  fee := 1
  netChg := (0, 0)

def planText (memo : String) : Bytes :=
  ("\x7b\"taddr\":\"\",\"fvk\":\"\",\"orchard_fvk\":\"\",\"anchor_height\":1," ++
    "\"expiry_height\":2,\"orchard_anchor\":\"" ++ .ofList (List.replicate 64 '0') ++
    "\",\"spends\":[],\"outputs\":[\x7b\"id_order\":null,\"destination\":" ++
    "\x7b\"Transparent\":\"" ++ .ofList (List.replicate 42 '0') ++ "\"\x7d,\"amount\":5," ++
    "\"memo\":\"" ++ memo ++ "\"\x7d],\"fee\":1,\"net_chg\":[0,0]\x7d").toUTF8.data.toList

/-- Reads the sample plan with one memo, which is no PCZT. -/
def samplePlanLibraries (memo : String) : PlanLibraries where
  Pczt := Unit
  MemoBytes := Bytes
  parsePczt _ := none
  memoFromBytes bytes := if bytes.length ≤ 512 then some bytes else none
  deserialize text :=
    if text = planText memo then .memo memo fun m => .value (samplePlan Bytes m)
    else .error "expected value"

/-- A witness without leaves, one with a cursor that is too tall, and a memo that is not hexadecimal
panic. -/
theorem parsing_panics :
    Witness.fromBytes sampleEncoding 0 emptyTreeBytes =
        .panic "attempt to subtract with overflow" ∧
      (∃ w, Witness.fromBytes sampleEncoding 0 tallCursorBytes = .ok w ∧
        (w.authPath 32 (sampleHasher.emptyRoots 32) sampleHasher : Outcome IoError (List Node)) =
          .panic "index out of bounds") ∧
      (samplePlanLibraries "zz").fromSlice (planText "zz") =
        .panic "called `Result::unwrap()` on an `Err` value" := by
  refine ⟨rfl, ⟨_, rfl, ?_⟩, ?_⟩
  · rfl
  · rw [PlanLibraries.fromSlice, samplePlanLibraries]
    dsimp only
    rw [if_pos rfl]
    rfl

end FrostTools.ZcashSign
