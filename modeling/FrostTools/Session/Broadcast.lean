import FrostTools.Session.Dkg

/-!
# What a participant has accepted

The maps of a session state are described by the payloads accepted so far, from
any senders. Past the echo broadcast, every original sender was echoed by every
other one, with the package that was received first-hand.
-/

namespace FrostTools.Session.DKGSessionState

variable {I R1 R2 : Type*} [DecidableEq I]

theorem heard_insertBroadcast (broadcasted : Map I (Map I R1)) (original sender : I) (package : R1)
    (original' sender' : I) :
    heard (insertBroadcast broadcasted original sender package) original' sender' =
      if original' = original ∧ sender' = sender then some package
      else heard broadcasted original' sender' := by
  rw [heard, insertBroadcast, Map.lookup_insert]
  by_cases ho : original' = original
  · subst ho
    rw [if_pos rfl, Option.getD_some, Map.lookup_insert]
    by_cases hs : sender' = sender
    · rw [if_pos hs, if_pos ⟨rfl, hs⟩]
    · rw [if_neg hs, if_neg fun h => hs h.2]
      rfl
  · rw [if_neg ho, if_neg fun h => ho h.1]
    rfl

theorem heard_eq_some_iff {broadcasted : Map I (Map I R1)} {original sender : I} {package : R1} :
    heard broadcasted original sender = some package ↔
      ∃ m, broadcasted.lookup original = some m ∧ m.lookup sender = some package := by
  rw [heard]
  cases broadcasted.lookup original <;> simp

/-- The map holds a package for exactly the identifiers that one was accepted from. -/
structure Collected {V : Type*} (f : V → Payload I R1 R2) (pubkeys : Map PublicKey I)
    (l : List (PublicKey × Payload I R1 R2)) (m : Map I V) : Prop where
  sent : ∀ identifier package, m.lookup identifier = some package →
    ∃ pubkey, pubkeys.lookup pubkey = some identifier ∧ (pubkey, f package) ∈ l
  stored : ∀ pubkey package, (pubkey, f package) ∈ l →
    ∃ identifier ∈ m.keys, pubkeys.lookup pubkey = some identifier

section Collected

variable {V : Type*} {f : V → Payload I R1 R2} {pubkeys : Map PublicKey I}
  {l : List (PublicKey × Payload I R1 R2)} {m : Map I V}

theorem Collected.empty (hf : ∀ m ∈ l, ∀ v, m.2 ≠ f v) : Collected f pubkeys l ∅ where
  sent identifier package h := by simp at h
  stored pubkey package h := absurd rfl (hf _ h package)

theorem Collected.insert (h : Collected f pubkeys l m)
    {pubkey : PublicKey} {identifier : I} (hp : pubkeys.lookup pubkey = some identifier)
    (package : V) :
    Collected f pubkeys (l ++ [(pubkey, f package)]) (m.insert identifier package) := by
  constructor
  · intro identifier' package' h'
    rw [Map.lookup_insert] at h'
    split_ifs at h' with hid
    · obtain rfl := Option.some.inj h'
      exact ⟨pubkey, hid ▸ hp, List.mem_append_right _ (List.mem_singleton_self _)⟩
    · obtain ⟨pubkey', hp', hmem⟩ := h.sent identifier' package' h'
      exact ⟨pubkey', hp', List.mem_append_left _ hmem⟩
  · intro pubkey' package' hmem
    rw [Map.keys_insert]
    obtain hmem | hmem := List.mem_append.mp hmem
    · obtain ⟨identifier', hkey, hp'⟩ := h.stored pubkey' package' hmem
      exact ⟨identifier', Finset.mem_insert_of_mem hkey, hp'⟩
    · obtain ⟨rfl, heq⟩ := Prod.mk.inj (List.mem_singleton.mp hmem)
      exact ⟨identifier, Finset.mem_insert_self _ _, hp⟩

theorem Collected.append (h : Collected f pubkeys l m) {e : PublicKey × Payload I R1 R2}
    (he : ∀ v, e.2 ≠ f v) : Collected f pubkeys (l ++ [e]) m := by
  constructor
  · intro identifier package hlookup
    obtain ⟨pubkey, hp, hmem⟩ := h.sent identifier package hlookup
    exact ⟨pubkey, hp, List.mem_append_left _ hmem⟩
  · intro pubkey package hmem
    obtain hmem | hmem := List.mem_append.mp hmem
    · exact h.stored pubkey package hmem
    · exact absurd (congrArg Prod.snd (List.mem_singleton.mp hmem)).symm (he package)

/-- When one package for each of the others was collected, every one of them sent
one, and they have different identifiers. -/
theorem Collected.full {self : PublicKey} (h : Collected f pubkeys l m)
    (hlen : m.len = pubkeys.len - 1) (hself : self ∈ pubkeys.keys) (hl : ∀ e ∈ l, e.1 ≠ self) :
    Set.InjOn pubkeys.lookup (pubkeys.keys.erase self) ∧
      ∀ pubkey ∈ pubkeys.keys.erase self,
        ∃ identifier ∈ m.keys, pubkeys.lookup pubkey = some identifier := by
  have hsub : m.keys.image some ⊆ (pubkeys.keys.erase self).image pubkeys.lookup := by
    intro o ho
    obtain ⟨identifier, hid, rfl⟩ := Finset.mem_image.mp ho
    obtain ⟨package, hp⟩ := Map.mem_keys_iff.mp hid
    obtain ⟨pubkey, hk, hmem⟩ := h.sent identifier package hp
    refine Finset.mem_image.mpr ⟨pubkey, Finset.mem_erase.mpr ⟨hl _ hmem, ?_⟩, hk⟩
    exact Map.mem_keys_of_lookup hk
  have hcard : (m.keys.image some).card = (pubkeys.keys.erase self).card := by
    rw [Finset.card_image_of_injective _ (Option.some_injective I), Finset.card_erase_of_mem hself]
    exact hlen
  have hle := Finset.card_image_le (s := pubkeys.keys.erase self) (f := pubkeys.lookup)
  have heq := Finset.eq_of_subset_of_card_le hsub (hcard ▸ hle)
  refine ⟨Finset.card_image_iff.mp (heq ▸ hcard), fun pubkey hk => ?_⟩
  have ho : pubkeys.lookup pubkey ∈ m.keys.image some := heq ▸ Finset.mem_image_of_mem _ hk
  obtain ⟨identifier, hid, ho⟩ := Finset.mem_image.mp ho
  exact ⟨identifier, hid, ho.symm⟩

end Collected

variable {self : I} {pubkeys : Map PublicKey I} {l : List (PublicKey × Payload I R1 R2)}

/-- The echoes in the map are the accepted ones, each about another participant and
with the package received from it. -/
structure Heard (selfId : I) (pubkeys : Map PublicKey I) (l : List (PublicKey × Payload I R1 R2))
    (r1 : Map I R1) (broadcasted : Map I (Map I R1)) : Prop where
  heard_iff : ∀ original sender package, heard broadcasted original sender = some package ↔
    ∃ pubkey, pubkeys.lookup pubkey = some sender ∧ (pubkey, .broadcast original package) ∈ l
  valid : ∀ original sender package, heard broadcasted original sender = some package →
    r1.lookup original = some package ∧ original ≠ sender ∧ original ≠ selfId
  nonempty : ∀ original m, broadcasted.lookup original = some m → m.keys.Nonempty

/-- Among three or more participants, everyone from whom a package was received
echoed everyone else with the package received. -/
def Echoed (pubkeys : Map PublicKey I) (l : List (PublicKey × Payload I R1 R2))
    (r1 : Map I R1) : Prop :=
  2 < pubkeys.len → ∀ original ∈ r1.keys, ∀ sender ∈ r1.keys, original ≠ sender →
    ∃ pubkey package, pubkeys.lookup pubkey = some sender ∧ r1.lookup original = some package ∧
      (pubkey, .broadcast original package) ∈ l

theorem Echoed.append {r1 : Map I R1} (h : Echoed pubkeys l r1)
    (e : PublicKey × Payload I R1 R2) : Echoed pubkeys (l ++ [e]) r1 := by
  intro hlen original ho sender hs hne
  obtain ⟨pubkey, package, hp, hr1, hmem⟩ := h hlen original ho sender hs hne
  exact ⟨pubkey, package, hp, hr1, List.mem_append_left _ hmem⟩

theorem Heard.empty {r1 : Map I R1} (h : ∀ m ∈ l, ∃ package, m.2 = .round1 package) :
    Heard self pubkeys l r1 (∅ : Map I (Map I R1)) := by
  refine ⟨fun original sender package => ?_, ?_, ?_⟩
  · refine iff_of_false (by simp [heard]) ?_
    rintro ⟨pubkey, -, hmem⟩
    obtain ⟨package', heq⟩ := h _ hmem
    cases heq
  · intro original sender package h
    simp [heard] at h
  · intro original m h
    simp at h

theorem Heard.insert {r1 : Map I R1} {broadcasted : Map I (Map I R1)}
    (h : Heard self pubkeys l r1 broadcasted) {pubkey : PublicKey} {original sender : I}
    {package : R1} (hp : pubkeys.lookup pubkey = some sender)
    (hr1 : r1.lookup original = some package) (hself : original ≠ self) (hne : original ≠ sender) :
    Heard self pubkeys (l ++ [(pubkey, .broadcast original package)]) r1
      (insertBroadcast broadcasted original sender package) := by
  refine ⟨fun original' sender' package' => ?_, ?_, ?_⟩
  · rw [heard_insertBroadcast]
    split_ifs with heq
    · obtain ⟨rfl, rfl⟩ := heq
      rw [Option.some.injEq]
      constructor
      · rintro rfl
        exact ⟨pubkey, hp, List.mem_append_right _ (List.mem_singleton_self _)⟩
      -- an earlier echo by the same sender was of the same package, as both are the one received
      · rintro ⟨pubkey', hp', hmem⟩
        obtain hmem | hmem := List.mem_append.mp hmem
        · have hheard := (h.heard_iff original' sender' package').mpr ⟨pubkey', hp', hmem⟩
          have hr1' := (h.valid original' sender' package' hheard).1
          exact Option.some.inj (hr1.symm.trans hr1')
        · obtain ⟨-, hpackage⟩ := Prod.mk.inj (List.mem_singleton.mp hmem)
          exact (Payload.broadcast.inj hpackage).2.symm
    · rw [h.heard_iff]
      constructor
      · rintro ⟨pubkey', hp', hmem⟩
        exact ⟨pubkey', hp', List.mem_append_left _ hmem⟩
      · rintro ⟨pubkey', hp', hmem⟩
        obtain hmem | hmem := List.mem_append.mp hmem
        · exact ⟨pubkey', hp', hmem⟩
        · obtain ⟨rfl, hpackage⟩ := Prod.mk.inj (List.mem_singleton.mp hmem)
          refine absurd ⟨(Payload.broadcast.inj hpackage).1, ?_⟩ heq
          exact Option.some.inj (hp'.symm.trans hp)
  · intro original' sender' package' hheard
    rw [heard_insertBroadcast] at hheard
    split_ifs at hheard with heq
    · obtain ⟨rfl, rfl⟩ := heq
      obtain rfl := Option.some.inj hheard
      exact ⟨hr1, hne, hself⟩
    · exact h.valid original' sender' package' hheard
  · intro original' m hm
    rw [insertBroadcast, Map.lookup_insert] at hm
    split_ifs at hm with heq
    · obtain rfl := Option.some.inj hm
      rw [Map.keys_insert]
      exact Finset.insert_nonempty _ _
    · exact h.nonempty original' m hm

section Complete

variable [DecidableEq R1]

theorem broadcastComplete_iff {r1 : Map I R1} {broadcasted : Map I (Map I R1)} :
    broadcastComplete r1 broadcasted = true ↔ broadcasted.keys = r1.keys ∧
      ∀ original m, broadcasted.lookup original = some m →
        insert original m.keys = r1.keys ∧
          ∀ sender package, m.lookup sender = some package → some package = r1.lookup original := by
  simp only [broadcastComplete, Bool.and_eq_true, decide_eq_true_eq, Map.all_iff]

theorem heard_of_complete {r1 : Map I R1} {broadcasted : Map I (Map I R1)}
    (h : broadcastComplete r1 broadcasted = true) {original sender : I}
    (ho : original ∈ r1.keys) (hs : sender ∈ r1.keys) (hne : original ≠ sender) :
    ∃ package, heard broadcasted original sender = some package ∧
      r1.lookup original = some package := by
  obtain ⟨hkeys, hall⟩ := broadcastComplete_iff.mp h
  rw [← hkeys] at ho
  obtain ⟨m, hm⟩ := Map.mem_keys_iff.mp ho
  obtain ⟨hinsert, hpackage⟩ := hall original m hm
  rw [← hinsert] at hs
  have hmem : sender ∈ m.keys := (Finset.mem_insert.mp hs).resolve_left (Ne.symm hne)
  obtain ⟨package, hp⟩ := Map.mem_keys_iff.mp hmem
  exact ⟨package, heard_eq_some_iff.mpr ⟨m, hm, hp⟩, (hpackage sender package hp).symm⟩

/-- A broadcast among at least two other participants is complete once all of
them echoed each other with the right packages. -/
theorem complete_of_heard {r1 : Map I R1} {broadcasted : Map I (Map I R1)} (hlen : 1 < r1.len)
    (hvalid : ∀ original sender package, heard broadcasted original sender = some package →
      r1.lookup original = some package ∧ sender ∈ r1.keys)
    (hnonempty : ∀ original m, broadcasted.lookup original = some m → m.keys.Nonempty)
    (hall : ∀ original ∈ r1.keys, ∀ sender ∈ r1.keys, original ≠ sender →
      ∃ package, heard broadcasted original sender = some package) :
    broadcastComplete r1 broadcasted = true := by
  have hmem : ∀ original m sender, broadcasted.lookup original = some m → sender ∈ m.keys →
      original ∈ r1.keys ∧ sender ∈ r1.keys := by
    intro original m sender hm hsender
    obtain ⟨package, hp⟩ := Map.mem_keys_iff.mp hsender
    obtain ⟨h1, h2⟩ := hvalid original sender package (heard_eq_some_iff.mpr ⟨m, hm, hp⟩)
    exact ⟨Map.mem_keys_of_lookup h1, h2⟩
  refine broadcastComplete_iff.mpr ⟨?_, fun original m hm => ⟨?_, ?_⟩⟩
  · ext original
    constructor
    · intro ho
      obtain ⟨m, hm⟩ := Map.mem_keys_iff.mp ho
      obtain ⟨sender, hs⟩ := hnonempty original m hm
      exact (hmem original m sender hm hs).1
    · intro ho
      obtain ⟨sender, hs, hne⟩ := Finset.exists_mem_ne hlen original
      obtain ⟨package, hp⟩ := hall original ho sender hs (Ne.symm hne)
      obtain ⟨m, hm, -⟩ := heard_eq_some_iff.mp hp
      exact Map.mem_keys_of_lookup hm
  -- each original sender was heard about by everybody else, and by nobody who is unknown
  · obtain ⟨sender₀, hs₀⟩ := hnonempty original m hm
    have ho := (hmem original m sender₀ hm hs₀).1
    ext sender
    rw [Finset.mem_insert]
    constructor
    · rintro (rfl | hs)
      · exact ho
      · exact (hmem original m sender hm hs).2
    · intro hs
      by_cases hne : original = sender
      · exact .inl hne.symm
      · obtain ⟨package, hp⟩ := hall original ho sender hs hne
        obtain ⟨m', hm', hp'⟩ := heard_eq_some_iff.mp hp
        obtain rfl := Option.some.inj (hm.symm.trans hm')
        exact .inr (Map.mem_keys_of_lookup hp')
  · intro sender package hp
    exact (hvalid original sender package (heard_eq_some_iff.mpr ⟨m, hm, hp⟩)).1.symm

theorem Heard.echoed {r1 : Map I R1} {broadcasted : Map I (Map I R1)}
    (h : Heard self pubkeys l r1 broadcasted) (hcomplete : broadcastComplete r1 broadcasted = true) :
    Echoed pubkeys l r1 := by
  intro _ original ho sender hs hne
  obtain ⟨package, hheard, hr1⟩ := heard_of_complete hcomplete ho hs hne
  obtain ⟨pubkey, hp, hmem⟩ := (h.heard_iff original sender package).mp hheard
  exact ⟨pubkey, package, hp, hr1, hmem⟩

end Complete

variable [DecidableEq R1] {st st' : DKGSessionState I R1 R2}

/-- The state of a participant that has accepted the payloads `l`. -/
inductive Represents (self : I) (pubkeys : Map PublicKey I)
    (l : List (PublicKey × Payload I R1 R2)) : DKGSessionState I R1 R2 → Prop
  | waitingForRound1Packages (r1 : Map I R1) :
    Collected .round1 pubkeys l r1 → (∀ m ∈ l, ∃ package, m.2 = .round1 package) →
    r1.len ≠ pubkeys.len - 1 →
    Represents self pubkeys l (.waitingForRound1Packages pubkeys r1)
  | waitingForRound1PackagesBroadcast (r1 : Map I R1) (broadcasted : Map I (Map I R1)) :
    Collected .round1 pubkeys l r1 → Heard self pubkeys l r1 broadcasted →
    (∀ m ∈ l, ∀ package, m.2 ≠ .round2 package) → r1.len = pubkeys.len - 1 → 2 < pubkeys.len →
    broadcastComplete r1 broadcasted = false →
    Represents self pubkeys l (.waitingForRound1PackagesBroadcast pubkeys r1 broadcasted)
  | waitingForRound2Packages (r1 : Map I R1) (r2 : Map I R2) :
    Collected .round1 pubkeys l r1 → Echoed pubkeys l r1 → Collected .round2 pubkeys l r2 →
    r1.len = pubkeys.len - 1 → r2.keys ⊆ r1.keys → r2.keys ≠ r1.keys →
    Represents self pubkeys l (.waitingForRound2Packages pubkeys r1 r2)
  | round2PackagesReady (r1 : Map I R1) (r2 : Map I R2) :
    Collected .round1 pubkeys l r1 → Echoed pubkeys l r1 → Collected .round2 pubkeys l r2 →
    r1.len = pubkeys.len - 1 → r2.keys = r1.keys →
    Represents self pubkeys l (.round2PackagesReady pubkeys r2)

theorem represents_new (hlen : 2 ≤ pubkeys.len) :
    Represents self pubkeys [] (new pubkeys : DKGSessionState I R1 R2) := by
  refine .waitingForRound1Packages ∅ (Collected.empty nofun) nofun ?_
  rw [Map.len_empty]
  omega

theorem Accepts.represents {pubkey : PublicKey} {p : Payload I R1 R2}
    (h : Accepts self pubkey p st st') (hst : Represents self pubkeys l st)
    (hlen : 2 ≤ pubkeys.len) : Represents self pubkeys (l ++ [(pubkey, p)]) st' := by
  cases h with
  | round1 _ r1 identifier package hid =>
    cases hst with
    | waitingForRound1Packages _ hr1 hl hne =>
      have hr1' := hr1.insert hid package
      have hl' : ∀ m ∈ l ++ [(pubkey, Payload.round1 package)], ∃ package, m.2 = .round1 package := by
        intro m hmem
        obtain hmem | hmem := List.mem_append.mp hmem
        · exact hl m hmem
        · exact ⟨package, congrArg Prod.snd (List.mem_singleton.mp hmem)⟩
      have hround2 : ∀ m ∈ l ++ [(pubkey, Payload.round1 package)], ∀ v, m.2 ≠ .round2 v := by
        intro m hmem v hv
        obtain ⟨package', heq⟩ := hl' m hmem
        rw [hv] at heq
        cases heq
      split_ifs with hfull hthree
      · refine .waitingForRound1PackagesBroadcast _ _ hr1' (Heard.empty hl') hround2 hfull hthree ?_
        -- nobody was heard yet, and there is somebody to hear
        rw [Bool.eq_false_iff, Ne, broadcastComplete_iff]
        rintro ⟨hkeys, -⟩
        have hnonempty : (r1.insert identifier package).keys.Nonempty := Map.keys_nonempty_iff.mpr (by omega)
        rw [← hkeys, Map.keys_empty] at hnonempty
        exact Finset.not_nonempty_empty hnonempty
      · refine .waitingForRound2Packages _ _ hr1' (fun h => absurd h hthree)
          (Collected.empty hround2) hfull (by simp) ?_
        rw [Map.keys_empty]
        exact (Map.keys_nonempty_iff.mpr (by omega)).ne_empty.symm
      · exact .waitingForRound1Packages _ hr1' hl' hfull
  | broadcast _ r1 broadcasted sender original package hid hvalue hself hne hlookup hheard =>
    cases hst with
    | waitingForRound1PackagesBroadcast _ _ hr1 hb hround2 hfull hthree hincomplete =>
      have hb' := hb.insert hid hlookup hself hne
      have hr1' := hr1.append (e := (pubkey, .broadcast original package))
        fun _ heq => by cases heq
      have hround2' : ∀ m ∈ l ++ [(pubkey, Payload.broadcast original package)],
          ∀ v, m.2 ≠ .round2 v := by
        intro m hmem v hv
        obtain hmem | hmem := List.mem_append.mp hmem
        · exact hround2 m hmem v hv
        · rw [List.mem_singleton.mp hmem] at hv
          cases hv
      split_ifs with hcomplete
      · refine .waitingForRound2Packages _ _ hr1' (hb'.echoed hcomplete)
          (Collected.empty hround2') hfull (by simp) ?_
        rw [Map.keys_empty]
        exact (Map.keys_nonempty_iff.mpr (by omega)).ne_empty.symm
      · exact .waitingForRound1PackagesBroadcast _ _ hr1' hb' hround2' hfull hthree
          (Bool.eq_false_iff.mpr hcomplete)
  | round2 _ r1 r2 identifier package hid hmem =>
    cases hst with
    | waitingForRound2Packages _ _ hr1 hechoed hr2 hfull hsub hne =>
      have hr1' := hr1.append (e := (pubkey, .round2 package)) fun _ heq => by cases heq
      have hsub' : (r2.insert identifier package).keys ⊆ r1.keys := by
        rw [Map.keys_insert]
        exact Finset.insert_subset hmem hsub
      split_ifs with hready
      · exact .round2PackagesReady _ _ hr1' (hechoed.append _) (hr2.insert hid package) hfull hready
      · exact .waitingForRound2Packages _ _ hr1' (hechoed.append _) (hr2.insert hid package) hfull
          hsub' hready

theorem Reaches.represents (h : Reaches self pubkeys l st) (hlen : 2 ≤ pubkeys.len) :
    Represents self pubkeys l st := by
  induction h with
  | new => exact represents_new hlen
  | snoc _ ha ih => exact ha.represents ih hlen

theorem Accepts.unique {pubkey : PublicKey} {p : Payload I R1 R2} {st'' : DKGSessionState I R1 R2}
    (h : Accepts self pubkey p st st') (h' : Accepts self pubkey p st st'') : st' = st'' := by
  cases h with
  | round1 _ _ identifier _ hid =>
    cases h' with
    | round1 _ _ identifier' _ hid' =>
      obtain rfl := Option.some.inj (hid.symm.trans hid')
      rfl
  | broadcast _ _ _ sender _ _ hid _ _ _ _ _ =>
    cases h' with
    | broadcast _ _ _ sender' _ _ hid' _ _ _ _ _ =>
      obtain rfl := Option.some.inj (hid.symm.trans hid')
      rfl
  | round2 _ _ _ identifier _ hid _ =>
    cases h' with
    | round2 _ _ _ identifier' _ hid' _ =>
      obtain rfl := Option.some.inj (hid.symm.trans hid')
      rfl

theorem Reaches.of_append {l' : List (PublicKey × Payload I R1 R2)}
    {e : PublicKey × Payload I R1 R2} (h : Reaches self pubkeys (l' ++ [e]) st') :
    ∃ st, Reaches self pubkeys l' st ∧ Accepts self e.1 e.2 st st' := by
  generalize hl : l' ++ [e] = l at h
  cases h with
  | new => simp at hl
  | snoc hr ha =>
    obtain ⟨rfl, he⟩ := List.append_inj' hl rfl
    obtain rfl := List.singleton_inj.mp he
    exact ⟨_, hr, ha⟩

theorem Reaches.unique (h : Reaches self pubkeys l st) (h' : Reaches self pubkeys l st') :
    st = st' := by
  induction h generalizing st' with
  | new =>
    generalize hl : ([] : List (PublicKey × Payload I R1 R2)) = l at h'
    cases h' with
    | new => rfl
    | snoc _ _ => simp at hl
  | snoc hr ha ih =>
    obtain ⟨st₀, hr₀, ha₀⟩ := h'.of_append
    obtain rfl := ih hr₀
    exact ha.unique ha₀

theorem Reaches.initial {l' : List (PublicKey × Payload I R1 R2)}
    (h : Reaches self pubkeys (l ++ l') st') : ∃ st, Reaches self pubkeys l st := by
  induction l' using List.reverseRecOn generalizing st' with
  | nil => exact ⟨st', by rwa [List.append_nil] at h⟩
  | append_singleton l' e ih =>
    rw [← List.append_assoc] at h
    obtain ⟨st₀, hr₀, -⟩ := h.of_append
    exact ih hr₀

theorem Accepts.frozen {pubkey : PublicKey} {p : Payload I R1 R2} {r1 : Map I R1}
    (h : Accepts self pubkey p st st') (hst : st.round1Packages = .ok r1) :
    st'.round1Packages = .ok r1 ∨ st'.hasRound2Packages = true := by
  cases h with
  | round1 _ _ _ _ _ => cases hst
  | broadcast _ _ _ _ _ _ _ _ _ _ _ _ =>
    obtain rfl := Outcome.ok.inj hst
    split_ifs
    · exact .inl rfl
    · exact .inl rfl
  | round2 _ _ _ _ _ _ _ =>
    obtain rfl := Outcome.ok.inj hst
    split_ifs
    · exact .inr rfl
    · exact .inl rfl

theorem Accepts.not_ready {pubkey : PublicKey} {p : Payload I R1 R2}
    (h : Accepts self pubkey p st st') : st.hasRound2Packages = false := by
  cases h <;> rfl

theorem Accepts.phase_le {pubkey : PublicKey} {p : Payload I R1 R2}
    (h : Accepts self pubkey p st st') : st.phase ≤ st'.phase := by
  cases h with
  | round1 _ _ _ _ _ => exact Nat.zero_le _
  | broadcast _ _ _ _ _ _ _ _ _ _ _ _ => split_ifs <;> simp [phase]
  | round2 _ _ _ _ _ _ _ => split_ifs <;> simp [phase]

/-- A session never goes back, whatever `recv` returns. -/
theorem recv_phase_le (decode : DKGDecoder I R1 R2) (st : DKGSessionState I R1 R2)
    (msg : Msg) (self : I) : st.phase ≤ (st.recv decode msg self).2.phase := by
  by_cases h : (st.recv decode msg self).1 = .ok ()
  · obtain ⟨p, -, ha⟩ := recv_ok_iff.mp (Prod.ext h rfl : st.recv decode msg self = (.ok (), _))
    exact ha.phase_le
  · obtain heq | ⟨_, _, _, _, _, _, rfl, -, -, heq⟩ := recv_of_ne_ok h
    · rw [heq]
    · rw [heq]
      exact le_rfl

theorem Accepts.of_ready {pubkey : PublicKey} {p : Payload I R1 R2}
    (h : Accepts self pubkey p st st') (hready : st'.hasRound2Packages = true) :
    ∃ pubkeys r1 r2, st = .waitingForRound2Packages pubkeys r1 r2 := by
  cases h with
  | round1 _ _ _ _ _ => split_ifs at hready <;> cases hready
  | broadcast _ _ _ _ _ _ _ _ _ _ _ _ => split_ifs at hready <;> cases hready
  | round2 pubkeys r1 r2 _ _ _ _ => exact ⟨pubkeys, r1, r2, rfl⟩

/-- A session past the first round has waited for the second round. -/
theorem Reaches.waited (h : Reaches self pubkeys l st) (hlen : 2 ≤ pubkeys.len)
    (hphase : 2 ≤ st.phase) : ∃ l' r1 r2, l' <+: l ∧
      Reaches self pubkeys l' (.waitingForRound2Packages pubkeys r1 r2) := by
  cases h.represents hlen with
  | waitingForRound1Packages _ _ _ _ => simp [phase] at hphase
  | waitingForRound1PackagesBroadcast _ _ _ _ _ _ _ _ => simp [phase] at hphase
  | waitingForRound2Packages r1 r2 _ _ _ _ _ _ => exact ⟨l, r1, r2, List.prefix_rfl, h⟩
  | round2PackagesReady _ r2 _ _ _ _ _ =>
    generalize hst : round2PackagesReady pubkeys r2 = st at h
    cases h with
    | new => cases hst
    | @snoc l' st₀ _ _ _ hr ha =>
      obtain ⟨_, r1, r2, rfl⟩ := ha.of_ready (hst ▸ rfl)
      cases hr.represents hlen with
      | waitingForRound2Packages _ _ _ _ _ _ _ _ =>
        exact ⟨l', r1, r2, List.prefix_append _ _, hr⟩

theorem Reaches.frozen {l' : List (PublicKey × Payload I R1 R2)} {r1 r1' : Map I R1}
    (h : Reaches self pubkeys l st) (hst : st.round1Packages = .ok r1)
    (h' : Reaches self pubkeys (l ++ l') st') (hst' : st'.round1Packages = .ok r1') :
    r1 = r1' := by
  have hall : st'.round1Packages = .ok r1 ∨ st'.hasRound2Packages = true := by
    clear hst'
    induction l' using List.reverseRecOn generalizing st' with
    | nil =>
      rw [List.append_nil] at h'
      exact .inl (h.unique h' ▸ hst)
    | append_singleton l' e ih =>
      rw [← List.append_assoc] at h'
      obtain ⟨st₀, hr₀, ha₀⟩ := h'.of_append
      obtain hsame | hready := ih hr₀
      · exact ha₀.frozen hsame
      · rw [ha₀.not_ready] at hready
        cases hready
  obtain hsame | hready := hall
  · exact Outcome.ok.inj (hsame.symm.trans hst')
  · cases st' with
    | round2PackagesReady _ _ => cases hst'
    | _ => cases hready

end FrostTools.Session.DKGSessionState
