import FrostTools.Lib.FiniteMap

/-!
# Maps whose entries expire

An entry carries the instant at which its delay has elapsed. Elapsed entries
stay in the map until they are popped.
-/

namespace FrostTools

/-- A map with a deadline beside every value and the delay given to new entries. -/
structure DelayMap (K V : Type*) where
  entries : Map K (V × ℕ)
  defaultTimeout : ℕ

namespace DelayMap

variable {K V : Type*} [DecidableEq K]

def new (timeout : ℕ) : DelayMap K V := ⟨∅, timeout⟩

def lookup (m : DelayMap K V) (k : K) : Option V := (m.entries.lookup k).map Prod.fst

def deadline (m : DelayMap K V) (k : K) : Option ℕ := (m.entries.lookup k).map Prod.snd

def keys (m : DelayMap K V) : Finset K := m.entries.keys

def insert (m : DelayMap K V) (now : ℕ) (k : K) (v : V) : DelayMap K V :=
  { m with entries := m.entries.insert k (v, now + m.defaultTimeout) }

def remove (m : DelayMap K V) (k : K) : DelayMap K V := { m with entries := m.entries.erase k }

/-- Replaces the value of an existing entry and keeps its deadline. -/
def modify (m : DelayMap K V) (k : K) (f : V → V) : DelayMap K V :=
  match m.entries.lookup k with
  | some (v, d) => { m with entries := m.entries.insert k (f v, d) }
  | none => m

def updateTimeout (m : DelayMap K V) (now : ℕ) (k : K) (timeout : ℕ) : DelayMap K V :=
  match m.entries.lookup k with
  | some (v, _) => { m with entries := m.entries.insert k (v, now + timeout) }
  | none => m

def expired (m : DelayMap K V) (now : ℕ) (k : K) : Option V :=
  match m.entries.lookup k with
  | some (v, d) => if d ≤ now then some v else none
  | none => none

theorem mem_keys_iff {m : DelayMap K V} {k : K} : k ∈ m.keys ↔ ∃ v, m.lookup k = some v := by
  simp [keys, lookup, Map.mem_keys_iff]

@[simp] theorem lookup_new (timeout : ℕ) (k : K) :
    (new timeout : DelayMap K V).lookup k = none := rfl

@[simp] theorem defaultTimeout_remove (m : DelayMap K V) (k : K) :
    (m.remove k).defaultTimeout = m.defaultTimeout := rfl

theorem lookup_insert (m : DelayMap K V) (now : ℕ) (k k' : K) (v : V) :
    (m.insert now k v).lookup k' = if k' = k then some v else m.lookup k' := by
  simp only [lookup, insert, Map.lookup_insert]
  split_ifs <;> rfl

theorem lookup_remove (m : DelayMap K V) (k k' : K) :
    (m.remove k).lookup k' = if k' = k then none else m.lookup k' := by
  simp only [lookup, remove, Map.lookup_erase]
  split_ifs <;> rfl

theorem mem_keys_insert {m : DelayMap K V} {now : ℕ} {k k' : K} {v : V} :
    k' ∈ (m.insert now k v).keys ↔ k' = k ∨ k' ∈ m.keys := by
  simp [keys, insert]

theorem mem_keys_remove {m : DelayMap K V} {k k' : K} :
    k' ∈ (m.remove k).keys ↔ k' ≠ k ∧ k' ∈ m.keys := by
  rw [mem_keys_iff, mem_keys_iff, lookup_remove]
  split_ifs with h <;> simp [h]

theorem lookup_modify (m : DelayMap K V) (k k' : K) (f : V → V) :
    (m.modify k f).lookup k' = if k' = k then (m.lookup k').map f else m.lookup k' := by
  unfold modify
  split
  · next v d h =>
    simp only [lookup, Map.lookup_insert]
    split_ifs with hk
    · simp [hk, h]
    · rfl
  · next h =>
    split_ifs with hk
    · simp [lookup, hk, h]
    · rfl

@[simp] theorem lookup_updateTimeout (m : DelayMap K V) (now : ℕ) (k k' : K) (timeout : ℕ) :
    (m.updateTimeout now k timeout).lookup k' = m.lookup k' := by
  unfold updateTimeout
  split
  · next v d h =>
    simp only [lookup, Map.lookup_insert]
    split_ifs with hk
    · simp [hk, h]
    · rfl
  · rfl

theorem deadline_insert (m : DelayMap K V) (now : ℕ) (k k' : K) (v : V) :
    (m.insert now k v).deadline k' = if k' = k then some (now + m.defaultTimeout) else m.deadline k' := by
  simp only [deadline, insert, Map.lookup_insert]
  split_ifs <;> rfl

theorem deadline_remove (m : DelayMap K V) (k k' : K) :
    (m.remove k).deadline k' = if k' = k then none else m.deadline k' := by
  simp only [deadline, remove, Map.lookup_erase]
  split_ifs <;> rfl

@[simp] theorem deadline_modify (m : DelayMap K V) (k k' : K) (f : V → V) :
    (m.modify k f).deadline k' = m.deadline k' := by
  unfold modify
  split
  · next v d h =>
    simp only [deadline, Map.lookup_insert]
    split_ifs with hk
    · simp [hk, h]
    · rfl
  · rfl

theorem deadline_updateTimeout (m : DelayMap K V) (now : ℕ) (k k' : K) (timeout : ℕ) :
    (m.updateTimeout now k timeout).deadline k' =
      if k' = k then (m.deadline k').map fun _ => now + timeout else m.deadline k' := by
  unfold updateTimeout
  split
  · next v d h =>
    simp only [deadline, Map.lookup_insert]
    split_ifs with hk
    · simp [hk, h]
    · rfl
  · next h =>
    split_ifs with hk
    · simp [deadline, hk, h]
    · rfl

@[simp] theorem defaultTimeout_modify (m : DelayMap K V) (k : K) (f : V → V) :
    (m.modify k f).defaultTimeout = m.defaultTimeout := by
  unfold modify
  split <;> rfl

@[simp] theorem defaultTimeout_updateTimeout (m : DelayMap K V) (now : ℕ) (k : K) (timeout : ℕ) :
    (m.updateTimeout now k timeout).defaultTimeout = m.defaultTimeout := by
  unfold updateTimeout
  split <;> rfl

theorem exists_deadline {m : DelayMap K V} {k : K} {v : V} (h : m.lookup k = some v) :
    ∃ d, m.deadline k = some d := by
  obtain ⟨⟨_, d⟩, hk, -⟩ := Option.map_eq_some_iff.mp h
  exact ⟨d, Option.map_eq_some_iff.mpr ⟨_, hk, rfl⟩⟩

theorem exists_lookup {m : DelayMap K V} {k : K} {d : ℕ} (h : m.deadline k = some d) :
    ∃ v, m.lookup k = some v := by
  obtain ⟨⟨v, _⟩, hk, -⟩ := Option.map_eq_some_iff.mp h
  exact ⟨v, Option.map_eq_some_iff.mpr ⟨_, hk, rfl⟩⟩

theorem deadline_le_of_expired {m : DelayMap K V} {now : ℕ} {k : K} {v : V} {d : ℕ}
    (h : m.expired now k = some v) (hd : m.deadline k = some d) : d ≤ now := by
  obtain ⟨⟨v', _⟩, hk, rfl⟩ := Option.map_eq_some_iff.mp hd
  unfold expired at h
  rw [hk] at h
  dsimp only at h
  split_ifs at h with hle
  exact hle

theorem mem_keys_of_lookup {m : DelayMap K V} {k : K} {v : V} (h : m.lookup k = some v) :
    k ∈ m.keys := mem_keys_iff.mpr ⟨v, h⟩

theorem lookup_of_expired {m : DelayMap K V} {now : ℕ} {k : K} {v : V}
    (h : m.expired now k = some v) : m.lookup k = some v := by
  unfold expired at h
  split at h
  · next v' d hk =>
    split_ifs at h
    simpa [lookup, hk] using h
  · cases h

end DelayMap
end FrostTools
