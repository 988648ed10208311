import FrostTools.Lib.FiniteMap

/-!
# Ordered channels

Both ends of a channel keep a state that advances with every message. A reader
holds one state for each writer, and takes the messages of all writers from a
single queue, in the order in which they were written.
-/

namespace FrostTools

/-- Messages `M`, encoded as `C` under states `S`. -/
structure Channel (S M C : Type*) where
  write : S → M → Option (C × S)
  read : S → C → Option (M × S)

namespace Channel

variable {S M C K : Type*} [DecidableEq K] {ch : Channel S M C}

def readFrom (ch : Channel S M C) (readers : Map K S) (k : K) (x : C) : Option (M × Map K S) :=
  match readers.lookup k with
  | none => none
  | some r => (ch.read r x).map fun mr => (mr.1, readers.insert k mr.2)

def readAll (ch : Channel S M C) (readers : Map K S) :
    List (K × C) → Option (List (K × M) × Map K S)
  | [] => some ([], readers)
  | (k, x) :: queue =>
    (ch.readFrom readers k x).bind fun mr =>
      (readAll ch mr.2 queue).map fun rest => ((k, mr.1) :: rest.1, rest.2)

theorem readAll_cons_iff {readers readers' : Map K S} {k : K} {x : C} {queue : List (K × C)}
    {plain : List (K × M)} :
    ch.readAll readers ((k, x) :: queue) = some (plain, readers') ↔
      ∃ m readers₁ plain', ch.readFrom readers k x = some (m, readers₁) ∧
        ch.readAll readers₁ queue = some (plain', readers') ∧ plain = (k, m) :: plain' := by
  rw [readAll, Option.bind_eq_some_iff]
  constructor
  · rintro ⟨⟨m, readers₁⟩, hread, h⟩
    obtain ⟨⟨plain', _⟩, hall, heq⟩ := Option.map_eq_some_iff.mp h
    obtain ⟨rfl, rfl⟩ := Prod.mk.inj heq
    exact ⟨m, readers₁, plain', hread, hall, rfl⟩
  · rintro ⟨m, readers₁, plain', hread, hall, rfl⟩
    refine ⟨(m, readers₁), hread, ?_⟩
    rw [hall]
    rfl

theorem readAll_append {readers readers₁ readers₂ : Map K S} {queue queue' : List (K × C)}
    {plain plain' : List (K × M)} (h : ch.readAll readers queue = some (plain, readers₁))
    (h' : ch.readAll readers₁ queue' = some (plain', readers₂)) :
    ch.readAll readers (queue ++ queue') = some (plain ++ plain', readers₂) := by
  induction queue generalizing readers plain with
  | nil =>
    obtain ⟨rfl, rfl⟩ := Prod.mk.inj (Option.some.inj h)
    exact h'
  | cons kx queue ih =>
    obtain ⟨m, readers₀, rest, hread, hall, rfl⟩ := readAll_cons_iff.mp h
    exact readAll_cons_iff.mpr ⟨m, readers₀, rest ++ plain', hread, ih hall, rfl⟩

/-- A reader that is paired with a writer reads what it writes next, and the two
stay paired. -/
def InOrder (ch : Channel S M C) (Paired : S → S → Prop) : Prop :=
  ∀ {w w' r : S} {m : M} {x : C}, Paired w r → ch.write w m = some (x, w') →
    ∃ r', ch.read r x = some (m, r') ∧ Paired w' r'

/-- The writer `w` can write the messages `m 0`, …, `m (n - 1)`, each as something that fits. -/
def Carries (ch : Channel S M C) (Fits : C → Prop) : ℕ → S → (ℕ → M) → Prop
  | 0, _, _ => True
  | n + 1, w, m => ∃ x w', ch.write w (m 0) = some (x, w') ∧ Fits x ∧
      Carries ch Fits n w' fun k => m (k + 1)

/-- The states of a writer and of its reader around the messages `m 0`, …, `m (n - 1)`. -/
structure Lane (ch : Channel S M C) (n : ℕ) (m : ℕ → M) where
  writer : ℕ → S
  reader : ℕ → S
  sent : ℕ → C
  write : ∀ k < n, ch.write (writer k) (m k) = some (sent k, writer (k + 1))
  read : ∀ k < n, ch.read (reader k) (sent k) = some (m k, reader (k + 1))

theorem InOrder.exists_lane [Inhabited C] {Paired : S → S → Prop} (hch : ch.InOrder Paired)
    {Fits : C → Prop} {n : ℕ} {m : ℕ → M} {w r : S} (hwrite : ch.Carries Fits n w m)
    (h : Paired w r) :
    ∃ lane : ch.Lane n m, lane.writer 0 = w ∧ lane.reader 0 = r ∧ ∀ k < n, Fits (lane.sent k) := by
  induction n generalizing m w r with
  | zero =>
    refine ⟨⟨fun _ => w, fun _ => r, fun _ => default, ?_, ?_⟩, rfl, rfl, ?_⟩
    all_goals exact fun k hk => absurd hk k.not_lt_zero
  | succ n ih =>
    obtain ⟨x, w', hw, hfits, hrest⟩ := hwrite
    obtain ⟨r', hr, hpaired⟩ := hch h hw
    obtain ⟨lane, rfl, rfl, hlane⟩ := ih hrest hpaired
    -- the first message, and then those of the shorter lane
    refine ⟨⟨fun k => k.casesOn w lane.writer, fun k => k.casesOn r lane.reader,
      fun k => k.casesOn x lane.sent, ?_, ?_⟩, rfl, rfl, ?_⟩
    · intro k hk
      cases k with
      | zero => exact hw
      | succ k => exact lane.write k (Nat.lt_of_succ_lt_succ hk)
    · intro k hk
      cases k with
      | zero => exact hr
      | succ k => exact lane.read k (Nat.lt_of_succ_lt_succ hk)
    · intro k hk
      cases k with
      | zero => exact hfits
      | succ k => exact hlane k (Nat.lt_of_succ_lt_succ hk)

/-- The reader `r` reads the messages `l`, in this order, and then is paired with the writer `w`. -/
inductive Pending (ch : Channel S M C) (Paired : S → S → Prop) : S → S → List (M × C) → Prop
  | done {w r : S} : Paired w r → Pending ch Paired w r []
  | next {w r r' : S} {m : M} {x : C} {l : List (M × C)} : ch.read r x = some (m, r') →
    Pending ch Paired w r' l → Pending ch Paired w r ((m, x) :: l)

theorem Pending.write {Paired : S → S → Prop} {w w' r : S} {l : List (M × C)} {m : M} {x : C}
    (h : ch.Pending Paired w r l) (hch : ch.InOrder Paired) (hwrite : ch.write w m = some (x, w')) :
    ch.Pending Paired w' r (l ++ [(m, x)]) := by
  induction h with
  | done hpaired =>
    obtain ⟨r', hread, hpaired'⟩ := hch hpaired hwrite
    exact .next hread (.done hpaired')
  | next hread _ ih => exact .next hread ih

theorem Pending.read {Paired : S → S → Prop} {w r : S} {l : List (M × C)} {m : M} {x : C}
    (h : ch.Pending Paired w r ((m, x) :: l)) :
    ∃ r', ch.read r x = some (m, r') ∧ ch.Pending Paired w r' l := by
  cases h with
  | next hread hrest => exact ⟨_, hread, hrest⟩

theorem Pending.snoc {r r' r'' : S} {l : List (M × C)} {m : M} {x : C} (h : ch.Pending Eq r' r l)
    (hread : ch.read r' x = some (m, r'')) : ch.Pending Eq r'' r (l ++ [(m, x)]) := by
  induction h with
  | done heq =>
    obtain rfl := heq
    exact .next hread (.done rfl)
  | next hfirst _ ih => exact .next hfirst ih

variable {Paired : S → S → Prop} {writers writers' : K → Option S} {readers : Map K S}
  {queue : List (K × C)} {plain : List (K × M)}

/-- The queue holds the messages `plain`, and once it is read every remaining
writer has a reader it is paired with. -/
def InFlight (ch : Channel S M C) (Paired : S → S → Prop) (writers : K → Option S)
    (readers : Map K S) (queue : List (K × C)) (plain : List (K × M)) : Prop :=
  ∃ readers', ch.readAll readers queue = some (plain, readers') ∧
    ∀ k w, writers k = some w → ∃ r, readers'.lookup k = some r ∧ Paired w r

theorem InFlight.start
    (h : ∀ k w, writers k = some w → ∃ r, readers.lookup k = some r ∧ Paired w r) :
    ch.InFlight Paired writers readers [] [] := ⟨readers, rfl, h⟩

theorem InFlight.mono (h : ch.InFlight Paired writers readers queue plain)
    (hw : ∀ k w, writers' k = some w → writers k = some w) :
    ch.InFlight Paired writers' readers queue plain := by
  obtain ⟨readers', hall, hpaired⟩ := h
  exact ⟨readers', hall, fun k w hk => hpaired k w (hw k w hk)⟩

/-- A writer appends to the queue. -/
theorem InFlight.write (h : ch.InFlight Paired writers readers queue plain)
    (hch : ch.InOrder Paired) {k : K} {w w' : S} {m : M} {x : C} (hk : writers k = some w)
    (hwrite : ch.write w m = some (x, w'))
    (hw' : ∀ k' w₁, writers' k' = some w₁ → if k' = k then w₁ = w' else writers k' = some w₁) :
    ch.InFlight Paired writers' readers (queue ++ [(k, x)]) (plain ++ [(k, m)]) := by
  obtain ⟨readers', hall, hpaired⟩ := h
  obtain ⟨r, hr, hwr⟩ := hpaired k w hk
  obtain ⟨r', hread, hpair'⟩ := hch hwr hwrite
  have hfrom : ch.readFrom readers' k x = some (m, readers'.insert k r') := by
    rw [readFrom, hr]
    simp only [hread, Option.map_some]
  refine ⟨readers'.insert k r', readAll_append hall ?_, fun k' w₁ hk' => ?_⟩
  · exact readAll_cons_iff.mpr ⟨m, _, [], hfrom, rfl, rfl⟩
  · have hcases := hw' k' w₁ hk'
    rw [Map.lookup_insert]
    split_ifs at hcases ⊢ with heq
    · exact ⟨r', rfl, hcases ▸ hpair'⟩
    · exact hpaired k' w₁ hcases

theorem InFlight.drain (h : ch.InFlight Paired writers readers queue plain) :
    ∃ readers', ch.readAll readers queue = some (plain, readers') ∧
      ch.InFlight Paired writers readers' [] [] := by
  obtain ⟨readers', hall, hpaired⟩ := h
  exact ⟨readers', hall, .start hpaired⟩

theorem InFlight.eq_nil (h : ch.InFlight Paired writers readers [] plain) : plain = [] := by
  obtain ⟨readers', hall, -⟩ := h
  exact (congrArg Prod.fst (Option.some.inj hall)).symm

theorem readAll_length {readers' : Map K S} (h : ch.readAll readers queue = some (plain, readers')) :
    plain.length = queue.length := by
  induction queue generalizing readers plain with
  | nil =>
    obtain ⟨rfl, -⟩ := Prod.mk.inj (Option.some.inj h)
    rfl
  | cons kx queue ih =>
    obtain ⟨m, readers₀, rest, -, hall, rfl⟩ := readAll_cons_iff.mp h
    rw [List.length_cons, List.length_cons, ih hall]

theorem InFlight.length_eq (h : ch.InFlight Paired writers readers queue plain) :
    plain.length = queue.length := by
  obtain ⟨readers', hall, -⟩ := h
  exact readAll_length hall

end Channel
end FrostTools
