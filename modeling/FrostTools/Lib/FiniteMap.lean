import Mathlib.Data.Finmap
import Mathlib.Data.Finset.Sort

/-!
# Finite maps

A map from keys to values of one type is Mathlib's `Finmap` at a constant
family, so two maps are equal as soon as they look up the same. This file gives
it a non-dependent interface, with the size of a map, the conditional forms of
the lookup lemmas, collection from a list of pairs, a pointwise image, and
iteration in key order.
-/

namespace FrostTools

/-- A finite map with values of a single type. -/
structure Map (K V : Type*) where
  toFinmap : Finmap fun _ : K => V

namespace Map

variable {K V W : Type*}

instance : EmptyCollection (Map K V) := ⟨⟨∅⟩⟩

instance : Inhabited (Map K V) := ⟨∅⟩

def keys (m : Map K V) : Finset K := m.toFinmap.keys

def len (m : Map K V) : ℕ := m.keys.card

@[simp] theorem keys_empty : keys (∅ : Map K V) = ∅ := Finmap.keys_empty

@[simp] theorem len_empty : len (∅ : Map K V) = 0 := by simp [len]

def onlyKey (m : Map K V) : Option K :=
  m.keys.val.liftOn (fun l => if l.length = 1 then l.head? else none) fun l₁ l₂ h => by
    rw [h.length_eq]
    split_ifs with hlen
    · obtain ⟨k, rfl⟩ := List.length_eq_one_iff.mp hlen
      rw [List.perm_singleton.mp h]
    · rfl

theorem onlyKey_eq_some_iff {m : Map K V} {k : K} : m.onlyKey = some k ↔ m.keys = {k} := by
  rw [← Finset.val_inj, Finset.singleton_val, onlyKey]
  induction m.keys.val using Quotient.inductionOn with
  | h l =>
    change (if l.length = 1 then l.head? else none) = some k ↔ (l : Multiset K) = {k}
    rw [Multiset.coe_eq_singleton]
    constructor
    · intro h
      split_ifs at h with hlen
      obtain ⟨k', rfl⟩ := List.length_eq_one_iff.mp hlen
      obtain rfl := Option.some.inj h
      rfl
    · rintro rfl
      rfl

theorem keys_nonempty_iff {m : Map K V} : m.keys.Nonempty ↔ 0 < m.len := Finset.card_pos.symm

variable [DecidableEq K]

instance [DecidableEq V] : DecidableEq (Map K V) := fun m m' =>
  decidable_of_iff (m.toFinmap = m'.toFinmap) (by cases m; cases m'; simp)

def lookup (m : Map K V) (k : K) : Option V := m.toFinmap.lookup k

def insert (m : Map K V) (k : K) (v : V) : Map K V := ⟨m.toFinmap.insert k v⟩

def erase (m : Map K V) (k : K) : Map K V := ⟨m.toFinmap.erase k⟩

@[ext] theorem ext {m m' : Map K V} (h : ∀ k, m.lookup k = m'.lookup k) : m = m' :=
  congrArg Map.mk (Finmap.ext_lookup h)

@[simp] theorem lookup_empty (k : K) : (∅ : Map K V).lookup k = none := Finmap.lookup_empty k

theorem mem_keys_iff {m : Map K V} {k : K} : k ∈ m.keys ↔ ∃ v, m.lookup k = some v := by
  rw [keys, Finmap.mem_keys, Finmap.mem_iff]
  rfl

theorem mem_keys_of_lookup {m : Map K V} {k : K} {v : V} (h : m.lookup k = some v) :
    k ∈ m.keys := mem_keys_iff.mpr ⟨v, h⟩

theorem lookup_eq_none_iff {m : Map K V} {k : K} : m.lookup k = none ↔ k ∉ m.keys := by
  rw [mem_keys_iff, not_exists, Option.eq_none_iff_forall_ne_some]

theorem lookup_insert (m : Map K V) (k k' : K) (v : V) :
    (m.insert k v).lookup k' = if k' = k then some v else m.lookup k' := by
  split_ifs with h
  · subst h
    exact Finmap.lookup_insert m.toFinmap
  · exact Finmap.lookup_insert_of_ne m.toFinmap h

@[simp] theorem lookup_insert_self (m : Map K V) (k : K) (v : V) :
    (m.insert k v).lookup k = some v := by
  rw [lookup_insert, if_pos rfl]

theorem insert_of_lookup {m : Map K V} {k : K} {v : V} (h : m.lookup k = some v) :
    m.insert k v = m := by
  ext k' : 1
  rw [lookup_insert]
  split_ifs with hk
  · rw [hk, h]
  · rfl

theorem insert_insert (m : Map K V) (k : K) (v v' : V) : (m.insert k v).insert k v' = m.insert k v' := by
  ext k' : 1
  simp only [lookup_insert]
  split_ifs <;> rfl

theorem lookup_erase (m : Map K V) (k k' : K) :
    (m.erase k).lookup k' = if k' = k then none else m.lookup k' := by
  split_ifs with h
  · subst h
    exact Finmap.lookup_erase k' m.toFinmap
  · exact Finmap.lookup_erase_ne h

@[simp] theorem keys_erase (m : Map K V) (k : K) : (m.erase k).keys = m.keys.erase k := by
  ext k'
  rw [Finset.mem_erase, mem_keys_iff, mem_keys_iff, lookup_erase]
  by_cases hk : k' = k
  · simp [hk]
  · simp [hk]

@[simp] theorem keys_insert (m : Map K V) (k : K) (v : V) :
    (m.insert k v).keys = Insert.insert k m.keys := by
  ext k'
  rw [Finset.mem_insert, mem_keys_iff, mem_keys_iff, lookup_insert]
  split_ifs with h <;> simp [h]

theorem len_insert_pos (m : Map K V) (k : K) (v : V) : 0 < (m.insert k v).len := by
  rw [len, keys_insert]
  exact Finset.card_pos.mpr (Finset.insert_nonempty k m.keys)

theorem len_insert_le (m : Map K V) (k : K) (v : V) : (m.insert k v).len ≤ m.len + 1 := by
  rw [len, keys_insert]
  exact Finset.card_insert_le k m.keys

/-- Inserts the pairs from the left, so the last pair of a repeated key wins. -/
def ofList (l : List (K × V)) : Map K V := l.foldl (fun m kv => m.insert kv.1 kv.2) ∅

theorem ofList_append_singleton (l : List (K × V)) (kv : K × V) :
    ofList (l ++ [kv]) = (ofList l).insert kv.1 kv.2 := by
  simp [ofList, List.foldl_append]

theorem mem_keys_ofList {l : List (K × V)} {k : K} :
    k ∈ (ofList l).keys ↔ k ∈ l.map Prod.fst := by
  induction l using List.reverseRecOn with
  | nil => simp [ofList]
  | append_singleton l kv ih =>
    rw [ofList_append_singleton, keys_insert, Finset.mem_insert, ih]
    simp [or_comm]

theorem mem_of_lookup_ofList {l : List (K × V)} {k : K} {v : V}
    (h : (ofList l).lookup k = some v) : (k, v) ∈ l := by
  induction l using List.reverseRecOn with
  | nil => simp [ofList] at h
  | append_singleton l kv ih =>
    rw [ofList_append_singleton, lookup_insert] at h
    split_ifs at h with hk
    · obtain rfl := Option.some.inj h
      simp [hk]
    · exact List.mem_append_left _ (ih h)

theorem lookup_ofList (l : List (K × V)) (k : K) :
    (ofList l).lookup k = ((l.filter fun kv => kv.1 = k).getLast?).map Prod.snd := by
  induction l using List.reverseRecOn with
  | nil => simp [ofList]
  | append_singleton l kv ih =>
    rw [ofList_append_singleton, lookup_insert, List.filter_append]
    by_cases h : k = kv.1
    · simp [h]
    · simp [h, Ne.symm h, ih]

theorem keys_ofList (l : List (K × V)) : (ofList l).keys = (l.map Prod.fst).toFinset := by
  ext k
  rw [mem_keys_ofList, List.mem_toFinset]

section Distinct

variable {l l' : List (K × V)}

theorem lookup_ofList_of_unique (h : ∀ k v v', (k, v) ∈ l → (k, v') ∈ l → v = v') {k : K} {v : V} :
    (ofList l).lookup k = some v ↔ (k, v) ∈ l := by
  refine ⟨mem_of_lookup_ofList, fun hmem => ?_⟩
  obtain ⟨v', hv'⟩ := mem_keys_iff.mp (mem_keys_ofList.mpr (List.mem_map_of_mem hmem))
  rw [hv', h k v v' hmem (mem_of_lookup_ofList hv')]

theorem ofList_congr (h : ∀ k v v', (k, v) ∈ l → (k, v') ∈ l → v = v')
    (hmem : ∀ kv, kv ∈ l ↔ kv ∈ l') : ofList l = ofList l' := by
  have h' : ∀ k v v', (k, v) ∈ l' → (k, v') ∈ l' → v = v' :=
    fun k v v' hv hv' => h k v v' ((hmem _).mpr hv) ((hmem _).mpr hv')
  ext k v
  rw [lookup_ofList_of_unique h, lookup_ofList_of_unique h', hmem]

theorem len_ofList (h : (l.map Prod.fst).Nodup) : (ofList l).len = l.length := by
  rw [len, keys_ofList, List.toFinset_card_of_nodup h, List.length_map]

end Distinct

def filterMap (f : V → Option W) (m : Map K V) : Map K W :=
  ⟨Finmap.keysLookupEquiv.symm
    ⟨(m.keys.filter fun k => ((m.lookup k).bind f).isSome, fun k => (m.lookup k).bind f), by
      intro k
      rw [Finset.mem_filter, iff_and_self, Option.isSome_iff_exists, mem_keys_iff]
      rintro ⟨w, hw⟩
      obtain ⟨v, hv, -⟩ := Option.bind_eq_some_iff.mp hw
      exact ⟨v, hv⟩⟩⟩

@[simp] theorem lookup_filterMap (f : V → Option W) (m : Map K V) (k : K) :
    (filterMap f m).lookup k = (m.lookup k).bind f := by
  simp [lookup, filterMap]

/-- The image of `m` under `f`, where `f` maps every entry to a value. -/
def traverse (f : V → Option W) (m : Map K V) : Option (Map K W) :=
  if ∀ k ∈ m.keys, ((m.lookup k).bind f).isSome then some (filterMap f m) else none

theorem traverse_of_forall {f : V → Option W} {m : Map K V}
    (h : ∀ k v, m.lookup k = some v → (f v).isSome) : traverse f m = some (filterMap f m) := by
  refine if_pos fun k hk => ?_
  obtain ⟨v, hv⟩ := mem_keys_iff.mp hk
  rw [hv]
  exact h k v hv

theorem keys_filterMap_of_forall {f : V → Option W} {m : Map K V}
    (h : ∀ k v, m.lookup k = some v → (f v).isSome) : (filterMap f m).keys = m.keys := by
  ext k
  rw [mem_keys_iff, mem_keys_iff, lookup_filterMap]
  constructor
  · rintro ⟨w, hw⟩
    obtain ⟨v, hv, -⟩ := Option.bind_eq_some_iff.mp hw
    exact ⟨v, hv⟩
  · rintro ⟨v, hv⟩
    obtain ⟨w, hw⟩ := Option.isSome_iff_exists.mp (h k v hv)
    exact ⟨w, by rw [hv]; exact hw⟩

def HasValue (m : Map K V) (v : V) : Prop := ∃ k ∈ m.keys, m.lookup k = some v

instance [DecidableEq V] (m : Map K V) (v : V) : Decidable (m.HasValue v) :=
  inferInstanceAs (Decidable (∃ k ∈ m.keys, m.lookup k = some v))

theorem hasValue_iff {m : Map K V} {v : V} : m.HasValue v ↔ ∃ k, m.lookup k = some v := by
  constructor
  · rintro ⟨k, -, h⟩
    exact ⟨k, h⟩
  · rintro ⟨k, h⟩
    exact ⟨k, mem_keys_of_lookup h, h⟩

def all (p : K → V → Bool) (m : Map K V) : Bool :=
  decide (∀ k ∈ m.keys, (m.lookup k).all (p k) = true)

theorem all_iff {p : K → V → Bool} {m : Map K V} :
    m.all p = true ↔ ∀ k v, m.lookup k = some v → p k v = true := by
  rw [all, decide_eq_true_iff]
  constructor
  · intro h k v hk
    simpa [hk] using h k (mem_keys_of_lookup hk)
  · intro h k _
    rw [Option.all_eq_true]
    exact fun v hv => h k v hv

end Map

namespace Map
section Sorted

variable {K V : Type*} [LinearOrder K]

/-- The keys in increasing order. Insertion sort, so that the list evaluates. -/
def sortedKeys (m : Map K V) : List K :=
  m.keys.val.liftOn (List.insertionSort (· ≤ ·)) fun l₁ l₂ h => by
    refine List.Perm.eq_of_pairwise' (List.pairwise_insertionSort _ _)
      (List.pairwise_insertionSort _ _) ?_
    exact (List.perm_insertionSort _ l₁).trans (h.trans (List.perm_insertionSort _ l₂).symm)

theorem coe_sortedKeys (m : Map K V) : (m.sortedKeys : Multiset K) = m.keys.val := by
  unfold sortedKeys
  induction m.keys.val using Quotient.inductionOn with
  | h l => exact Quotient.sound (List.perm_insertionSort _ l)

theorem sortedKeys_eq_sort (m : Map K V) : m.sortedKeys = m.keys.sort (· ≤ ·) := by
  have hsorted : m.sortedKeys.Pairwise (· ≤ ·) := by
    unfold sortedKeys
    induction m.keys.val using Quotient.inductionOn with
    | h l => exact List.pairwise_insertionSort _ l
  refine List.Perm.eq_of_pairwise' hsorted (Finset.pairwise_sort _ _) ?_
  rw [← Multiset.coe_eq_coe, coe_sortedKeys, Finset.sort_eq]

theorem mem_sortedKeys {m : Map K V} {k : K} : k ∈ m.sortedKeys ↔ k ∈ m.keys := by
  rw [← Multiset.mem_coe, coe_sortedKeys, Finset.mem_val]

theorem nodup_sortedKeys (m : Map K V) : m.sortedKeys.Nodup := by
  rw [← Multiset.coe_nodup, coe_sortedKeys]
  exact m.keys.nodup

def toSortedList (m : Map K V) : List (K × V) :=
  m.sortedKeys.filterMap fun k => (m.lookup k).map fun v => (k, v)

theorem mem_toSortedList {m : Map K V} {k : K} {v : V} :
    (k, v) ∈ m.toSortedList ↔ m.lookup k = some v := by
  simp only [toSortedList, List.mem_filterMap, Option.map_eq_some_iff, Prod.mk.injEq]
  constructor
  · rintro ⟨k', _, v', h, rfl, rfl⟩
    exact h
  · intro h
    exact ⟨k, mem_sortedKeys.mpr (mem_keys_of_lookup h), v, h, rfl, rfl⟩

theorem map_fst_toSortedList (m : Map K V) : m.toSortedList.map Prod.fst = m.sortedKeys := by
  rw [toSortedList, List.map_filterMap]
  calc m.sortedKeys.filterMap (fun k => ((m.lookup k).map fun v => (k, v)).map Prod.fst)
    _ = m.sortedKeys.filterMap some := by
      refine List.filterMap_congr fun k hk => ?_
      obtain ⟨v, hv⟩ := mem_keys_iff.mp (mem_sortedKeys.mp hk)
      rw [hv]
      rfl
    _ = m.sortedKeys := List.filterMap_some

theorem ofList_toSortedList (m : Map K V) : ofList m.toSortedList = m := by
  have hunique : ∀ k v v', (k, v) ∈ m.toSortedList → (k, v') ∈ m.toSortedList → v = v' := by
    intro k v v' h h'
    rw [mem_toSortedList] at h h'
    exact Option.some.inj (h.symm.trans h')
  ext k v
  rw [lookup_ofList_of_unique hunique, mem_toSortedList]

theorem length_toSortedList (m : Map K V) : m.toSortedList.length = m.len := by
  rw [← List.length_map Prod.fst, map_fst_toSortedList, ← Multiset.coe_card, coe_sortedKeys]
  rfl

theorem nodup_toSortedList (m : Map K V) : m.toSortedList.Nodup := by
  refine (nodup_sortedKeys m).filterMap ?_
  intro k k' e he he'
  simp only [Option.mem_def, Option.map_eq_some_iff] at he he'
  obtain ⟨v, _, rfl⟩ := he
  obtain ⟨v', _, h⟩ := he'
  exact (congrArg Prod.fst h).symm

end Sorted
end Map
end FrostTools
