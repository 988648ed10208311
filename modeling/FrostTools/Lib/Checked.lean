import FrostTools.Lib.Outcome
import Mathlib.Algebra.Ring.Nat

/-!
# Checked operations

Arithmetic and indexing that panic instead of leaving the range of a machine type, which has
`size` values.
-/

namespace FrostTools.Checked

variable {ε α : Type*} {size a b : ℕ}

def usizeSize : ℕ := 2 ^ 64

def u8Size : ℕ := 2 ^ 8

/-- A vector, whose length is a `usize`. -/
def Vec (α : Type*) := {l : List α // l.length < usizeSize}

def add (size a b : ℕ) : Outcome ε ℕ :=
  if a + b < size then .ok (a + b) else .panic "attempt to add with overflow"

def mul (size a b : ℕ) : Outcome ε ℕ :=
  if a * b < size then .ok (a * b) else .panic "attempt to multiply with overflow"

def sub (a b : ℕ) : Outcome ε ℕ :=
  if b ≤ a then .ok (a - b) else .panic "attempt to subtract with overflow"

def index (l : List α) (i : ℕ) : Outcome ε α :=
  match l[i]? with
  | some a => .ok a
  | none => .panic "index out of bounds"

def shiftRight (v : UInt16) (n : ℕ) : Outcome ε UInt16 :=
  if n < 16 then .ok (v >>> .ofNat n) else .panic "attempt to shift right with overflow"

theorem add_of_lt (h : a + b < size) : (add size a b : Outcome ε ℕ) = .ok (a + b) := if_pos h

theorem mul_of_lt (h : a * b < size) : (mul size a b : Outcome ε ℕ) = .ok (a * b) := if_pos h

theorem sub_of_le (h : b ≤ a) : (sub a b : Outcome ε ℕ) = .ok (a - b) := if_pos h

theorem add_of_le (h : size ≤ a + b) :
    (add size a b : Outcome ε ℕ) = .panic "attempt to add with overflow" := if_neg (Nat.not_lt.mpr h)

theorem mul_of_le (h : size ≤ a * b) :
    (mul size a b : Outcome ε ℕ) = .panic "attempt to multiply with overflow" :=
  if_neg (Nat.not_lt.mpr h)

theorem sub_of_lt (h : a < b) :
    (sub a b : Outcome ε ℕ) = .panic "attempt to subtract with overflow" :=
  if_neg (Nat.not_le.mpr h)

theorem index_of_le {l : List α} {i : ℕ} (h : l.length ≤ i) :
    (index l i : Outcome ε α) = .panic "index out of bounds" := by
  rw [index, List.getElem?_eq_none h]

theorem index_of_getElem? {l : List α} {i : ℕ} {a : α} (h : l[i]? = some a) :
    (index l i : Outcome ε α) = .ok a := by
  rw [index, h]

theorem index_of_lt {l : List α} {i : ℕ} (h : i < l.length) :
    (index l i : Outcome ε α) = .ok l[i] := index_of_getElem? (List.getElem?_eq_getElem h)

theorem shiftRight_of_lt {v : UInt16} {n : ℕ} (h : n < 16) :
    (shiftRight v n : Outcome ε UInt16) = .ok (v >>> .ofNat n) := if_pos h

end FrostTools.Checked
