import FrostTools.Dkg.Records

/-!
# The order in which a participant must receive

Among honest participants, the payloads addressed to a participant have the
expected contents and no two are of the same kind. Which of them its session state
accepts is then a matter of order alone.
-/

namespace FrostTools.Session

variable {I R1 R2 : Type*}

def Payload.kind : Payload I R1 R2 → Payload I Unit Unit
  | .round1 _ => .round1 ()
  | .broadcast original _ => .broadcast original ()
  | .round2 _ => .round2 ()

end FrostTools.Session

namespace FrostTools.Dkg
open Client Session Frostd DKGSessionState

variable {I R1 R2 : Type*}

def kinds (l : List (PublicKey × Payload I R1 R2)) : List (PublicKey × Payload I Unit Unit) :=
  l.map fun e => (e.1, e.2.kind)

section Kinds

variable {l l' : List (PublicKey × Payload I R1 R2)} {pubkey : PublicKey}

@[simp] theorem kinds_append : kinds (l ++ l') = kinds l ++ kinds l' := List.map_append

theorem mem_kinds_of_mem {e : PublicKey × Payload I R1 R2} (h : e ∈ l) :
    (e.1, e.2.kind) ∈ kinds l := List.mem_map_of_mem h

theorem mem_kinds_round1 : (pubkey, .round1 ()) ∈ kinds l ↔ ∃ package, (pubkey, .round1 package) ∈ l := by
  constructor
  · intro h
    obtain ⟨⟨_, p⟩, hmem, heq⟩ := List.mem_map.mp h
    obtain ⟨rfl, hkind⟩ := Prod.mk.inj heq
    cases p <;> cases hkind
    exact ⟨_, hmem⟩
  · rintro ⟨package, hmem⟩
    exact mem_kinds_of_mem hmem

theorem mem_kinds_broadcast {original : I} : (pubkey, .broadcast original ()) ∈ kinds l ↔
    ∃ package, (pubkey, .broadcast original package) ∈ l := by
  constructor
  · intro h
    obtain ⟨⟨_, p⟩, hmem, heq⟩ := List.mem_map.mp h
    obtain ⟨rfl, hkind⟩ := Prod.mk.inj heq
    cases p <;> cases hkind
    exact ⟨_, hmem⟩
  · rintro ⟨package, hmem⟩
    exact mem_kinds_of_mem hmem

theorem mem_kinds_round2 : (pubkey, .round2 ()) ∈ kinds l ↔ ∃ package, (pubkey, .round2 package) ∈ l := by
  constructor
  · intro h
    obtain ⟨⟨_, p⟩, hmem, heq⟩ := List.mem_map.mp h
    obtain ⟨rfl, hkind⟩ := Prod.mk.inj heq
    cases p <;> cases hkind
    exact ⟨_, hmem⟩
  · rintro ⟨package, hmem⟩
    exact mem_kinds_of_mem hmem

end Kinds

def Expected (D : Setup I R1 R2) (self sender : PublicKey) : Payload I R1 R2 → Prop
  | .round1 package => package = D.round1Package sender
  | .broadcast original package => ∃ pubkey ∈ D.members, pubkey ≠ self ∧ pubkey ≠ sender ∧
      original = D.identifier pubkey ∧ package = D.round1Package pubkey
  | .round2 _ => True

/-- Payloads that honest senders may have sent to a participant, in any order. -/
structure Valid (D : Setup I R1 R2) (pubkey : PublicKey) (l : List (PublicKey × Payload I R1 R2)) :
    Prop where
  sender : ∀ e ∈ l, e.1 ∈ D.members ∧ e.1 ≠ pubkey
  expected : ∀ e ∈ l, Expected D pubkey e.1 e.2
  nodup : (kinds l).Nodup

def Other (D : Setup I R1 R2) (self pubkey : PublicKey) : Prop := pubkey ∈ D.members ∧ pubkey ≠ self

instance (D : Setup I R1 R2) (self pubkey : PublicKey) : Decidable (Other D self pubkey) :=
  inferInstanceAs (Decidable (_ ∧ _))

def HasRound1 (D : Setup I R1 R2) (self : PublicKey) (l : List (PublicKey × Payload I R1 R2)) : Prop :=
  ∀ sender, Other D self sender → (sender, .round1 ()) ∈ kinds l

def HasEchoes (D : Setup I R1 R2) (self : PublicKey) (l : List (PublicKey × Payload I R1 R2)) : Prop :=
  ∀ sender, Other D self sender → ∀ original, Other D self original → original ≠ sender →
    (sender, .broadcast (D.identifier original) ()) ∈ kinds l

def HasRound2 (D : Setup I R1 R2) (self : PublicKey) (l : List (PublicKey × Payload I R1 R2)) : Prop :=
  ∀ sender, Other D self sender → (sender, .round2 ()) ∈ kinds l

def Timely (D : Setup I R1 R2) (self : PublicKey) (l : List (PublicKey × Payload I R1 R2)) :
    Payload I R1 R2 → Prop
  | .round1 _ => True
  | .broadcast _ _ => HasRound1 D self l
  | .round2 _ => HasRound1 D self l ∧ HasEchoes D self l

/-- Every echo comes after all Round 1 Packages, and every Round 2 Package after all
Round 1 Packages and all echoes. -/
def Ordered (D : Setup I R1 R2) (self : PublicKey) (l : List (PublicKey × Payload I R1 R2)) : Prop :=
  ∀ l' e, l' ++ [e] <+: l → Timely D self l' e.2

variable {D : Setup I R1 R2} {self : PublicKey} {l l' : List (PublicKey × Payload I R1 R2)}

theorem HasRound1.mono (h : HasRound1 D self l) (hle : l <+: l') : HasRound1 D self l' :=
  fun sender hsender => (hle.map _).subset (h sender hsender)

theorem HasEchoes.mono (h : HasEchoes D self l) (hle : l <+: l') : HasEchoes D self l' :=
  fun sender hsender original horiginal hne => (hle.map _).subset (h sender hsender original horiginal hne)

theorem HasRound2.mono (h : HasRound2 D self l) (hle : l <+: l') : HasRound2 D self l' :=
  fun sender hsender => (hle.map _).subset (h sender hsender)

instance [DecidableEq I] : Decidable (HasRound2 D self l) :=
  decidable_of_iff (∀ sender ∈ D.members, sender ≠ self → (sender, .round2 ()) ∈ kinds l)
    (forall_congr' fun _ => and_imp.symm)

theorem Valid.initial (h : Valid D self l) (hle : l' <+: l) : Valid D self l' := by
  refine ⟨fun e he => h.sender e (hle.subset he), fun e he => h.expected e (hle.subset he), ?_⟩
  exact h.nodup.sublist (hle.map _).sublist

theorem Valid.new {e : PublicKey × Payload I R1 R2} (h : Valid D self (l ++ [e])) :
    (e.1, e.2.kind) ∉ kinds l := by
  have hnodup := h.nodup
  rw [kinds_append] at hnodup
  exact fun hmem => (List.nodup_append.mp hnodup).2.2 _ hmem _ List.mem_cons_self rfl

theorem ordered_nil : Ordered D self [] := by
  intro l' e h
  simp at h

theorem ordered_append_singleton {e : PublicKey × Payload I R1 R2} :
    Ordered D self (l ++ [e]) ↔ Ordered D self l ∧ Timely D self l e.2 := by
  constructor
  · intro h
    exact ⟨fun l' e' hle => h l' e' (hle.trans (List.prefix_append _ _)), h l e List.prefix_rfl⟩
  · rintro ⟨h, he⟩ l' e' hle
    obtain heq | hle := List.prefix_concat_iff.mp hle
    · obtain ⟨rfl, hlast⟩ := List.append_inj' heq rfl
      obtain rfl := List.singleton_inj.mp hlast
      exact he
    · exact h l' e' hle

theorem Ordered.complete (h : Ordered D self l) {sender : PublicKey}
    (hmem : (sender, .round2 ()) ∈ kinds l) : HasRound1 D self l ∧ HasEchoes D self l := by
  obtain ⟨package, hmem⟩ := mem_kinds_round2.mp hmem
  obtain ⟨l₁, l₂, rfl⟩ := List.append_of_mem hmem
  have hle : l₁ ++ [(sender, .round2 package)] <+: l₁ ++ (sender, .round2 package) :: l₂ :=
    ⟨l₂, List.append_assoc _ _ _⟩
  obtain ⟨hround1, hechoes⟩ := h l₁ _ hle
  exact ⟨hround1.mono (List.prefix_append _ _), hechoes.mono (List.prefix_append _ _)⟩

theorem Valid.eq_nil_of_complete (h : Valid D self (l ++ l')) (hround1 : HasRound1 D self l)
    (hechoes : HasEchoes D self l) (hround2 : HasRound2 D self l) : l' = [] := by
  cases l' with
  | nil => rfl
  | cons e l' =>
    have hvalid : Valid D self (l ++ [e]) := h.initial ⟨l', List.append_assoc _ _ _⟩
    obtain ⟨hsender, hne⟩ := hvalid.sender e (List.mem_append_right _ (List.mem_singleton_self e))
    have hexpected := hvalid.expected e (List.mem_append_right _ (List.mem_singleton_self e))
    refine absurd ?_ hvalid.new
    obtain ⟨sender, p⟩ := e
    cases p with
    | round1 _ => exact hround1 sender ⟨hsender, hne⟩
    | broadcast _ _ =>
      obtain ⟨pubkey, hmem, hself, hother, rfl, -⟩ := hexpected
      exact hechoes sender ⟨hsender, hne⟩ pubkey ⟨hmem, hself⟩ hother
    | round2 _ => exact hround2 sender ⟨hsender, hne⟩

section Others

variable [LinearOrder I]

def otherIdentifiers (D : Setup I R1 R2) (self : PublicKey) : Finset I :=
  (D.pubkeys.keys.erase self).image D.identifier

def Setup.Distinct (D : Setup I R1 R2) : Prop :=
  ∀ pubkey ∈ D.members, ∀ pubkey' ∈ D.members, D.identifier pubkey = D.identifier pubkey' →
    pubkey = pubkey'

instance (D : Setup I R1 R2) : Decidable D.Distinct :=
  inferInstanceAs (Decidable (∀ pubkey ∈ D.members, ∀ pubkey' ∈ D.members, _ → _))

theorem mem_otherIdentifiers {identifier : I} : identifier ∈ otherIdentifiers D self ↔
    ∃ pubkey, Other D self pubkey ∧ D.identifier pubkey = identifier := by
  simp only [otherIdentifiers, Finset.mem_image, Finset.mem_erase, Setup.mem_keys_pubkeys, Other]
  constructor
  · rintro ⟨pubkey, ⟨hne, hmem⟩, h⟩
    exact ⟨pubkey, ⟨hmem, hne⟩, h⟩
  · rintro ⟨pubkey, ⟨hmem, hne⟩, h⟩
    exact ⟨pubkey, ⟨hne, hmem⟩, h⟩

theorem card_otherIdentifiers (hD : D.Distinct) (hself : self ∈ D.members) :
    (otherIdentifiers D self).card = D.pubkeys.len - 1 := by
  rw [otherIdentifiers, Finset.card_image_of_injOn,
    Finset.card_erase_of_mem (Setup.mem_keys_pubkeys.mpr hself)]
  · rfl
  · intro pubkey h pubkey' h' heq
    exact hD _ (Setup.mem_keys_pubkeys.mp (Finset.mem_of_mem_erase h)) _
      (Setup.mem_keys_pubkeys.mp (Finset.mem_of_mem_erase h')) heq

variable {V : Type*} {f : V → Payload I R1 R2} {m : Map I V}

theorem keys_subset_otherIdentifiers (hl : Valid D self l) (h : Collected f D.pubkeys l m) :
    m.keys ⊆ otherIdentifiers D self := by
  intro identifier hid
  obtain ⟨v, hv⟩ := Map.mem_keys_iff.mp hid
  obtain ⟨pubkey, hlookup, hmem⟩ := h.sent identifier v hv
  obtain ⟨-, rfl⟩ := Setup.lookup_pubkeys_iff.mp hlookup
  exact mem_otherIdentifiers.mpr ⟨pubkey, hl.sender _ hmem, rfl⟩

theorem sent_of_lookup (hD : D.Distinct) (h : Collected f D.pubkeys l m) {pubkey : PublicKey}
    (hp : pubkey ∈ D.members) {v : V} (hv : m.lookup (D.identifier pubkey) = some v) :
    (pubkey, f v) ∈ l := by
  obtain ⟨pubkey', hlookup, hmem⟩ := h.sent _ v hv
  obtain ⟨hp', heq⟩ := Setup.lookup_pubkeys_iff.mp hlookup
  rwa [hD _ hp _ hp' heq]

theorem keys_eq_iff (hD : D.Distinct) (hl : Valid D self l) (h : Collected f D.pubkeys l m) :
    m.keys = otherIdentifiers D self ↔ ∀ sender, Other D self sender → ∃ v, (sender, f v) ∈ l := by
  constructor
  · intro heq sender hsender
    have hid : D.identifier sender ∈ m.keys := heq ▸ mem_otherIdentifiers.mpr ⟨sender, hsender, rfl⟩
    obtain ⟨v, hv⟩ := Map.mem_keys_iff.mp hid
    exact ⟨v, sent_of_lookup hD h hsender.1 hv⟩
  · intro hall
    refine (keys_subset_otherIdentifiers hl h).antisymm fun identifier hid => ?_
    obtain ⟨sender, hsender, rfl⟩ := mem_otherIdentifiers.mp hid
    obtain ⟨v, hv⟩ := hall sender hsender
    obtain ⟨identifier', hmem, hlookup⟩ := h.stored sender v hv
    rwa [(Setup.lookup_pubkeys_iff.mp hlookup).2] at hmem

theorem len_eq_iff (hD : D.Distinct) (hself : self ∈ D.members) (hl : Valid D self l)
    (h : Collected f D.pubkeys l m) :
    m.len = D.pubkeys.len - 1 ↔ m.keys = otherIdentifiers D self := by
  rw [← card_otherIdentifiers hD hself]
  constructor
  · intro heq
    exact Finset.eq_of_subset_of_card_le (keys_subset_otherIdentifiers hl h) heq.ge
  · intro heq
    rw [Map.len, heq]

theorem hasRound1_iff_keys (hD : D.Distinct) (hl : Valid D self l) {r1 : Map I R1}
    (h : Collected .round1 D.pubkeys l r1) :
    HasRound1 D self l ↔ r1.keys = otherIdentifiers D self := by
  rw [keys_eq_iff hD hl h]
  exact forall₂_congr fun sender _ => mem_kinds_round1

theorem hasRound2_iff_keys (hD : D.Distinct) (hl : Valid D self l) {r2 : Map I R2}
    (h : Collected .round2 D.pubkeys l r2) :
    HasRound2 D self l ↔ r2.keys = otherIdentifiers D self := by
  rw [keys_eq_iff hD hl h]
  exact forall₂_congr fun sender _ => mem_kinds_round2

end Others

variable [LinearOrder I] [DecidableEq R1] {st st' : DKGSessionState I R1 R2}

omit [DecidableEq R1] in
theorem hasEchoes_of_echoed (hD : D.Distinct) (hself : self ∈ D.members) (hlen : 2 ≤ D.pubkeys.len)
    {r1 : Map I R1} (hkeys : r1.keys = otherIdentifiers D self) (h : Echoed D.pubkeys l r1) :
    HasEchoes D self l := by
  intro sender hsender original horiginal hne
  have hids : D.identifier original ≠ D.identifier sender :=
    fun heq => hne (hD _ horiginal.1 _ hsender.1 heq)
  have hmem : ∀ {pubkey}, Other D self pubkey → D.identifier pubkey ∈ r1.keys :=
    fun hp => hkeys ▸ mem_otherIdentifiers.mpr ⟨_, hp, rfl⟩
  have hthree : 2 < D.pubkeys.len := by
    have hcard := card_otherIdentifiers hD hself
    have hpair : 1 < (otherIdentifiers D self).card :=
      Finset.one_lt_card.mpr ⟨_, hkeys ▸ hmem horiginal, _, hkeys ▸ hmem hsender, hids⟩
    omega
  obtain ⟨pubkey, package, hlookup, -, hecho⟩ :=
    h hthree _ (hmem horiginal) _ (hmem hsender) hids
  obtain ⟨hp, heq⟩ := Setup.lookup_pubkeys_iff.mp hlookup
  obtain rfl := hD _ hsender.1 _ hp heq
  exact mem_kinds_broadcast.mpr ⟨package, hecho⟩

theorem complete_of_hasEchoes (hD : D.Distinct) (hself : self ∈ D.members) (hl : Valid D self l)
    (hthree : 2 < D.pubkeys.len) {r1 : Map I R1} (hkeys : r1.keys = otherIdentifiers D self)
    {broadcasted : Map I (Map I R1)} (hheard : Heard (D.identifier self) D.pubkeys l r1 broadcasted)
    (h : HasEchoes D self l) : broadcastComplete r1 broadcasted = true := by
  have hcard : 1 < r1.len := by
    have := card_otherIdentifiers hD hself
    rw [Map.len, hkeys]
    omega
  refine complete_of_heard hcard ?_ hheard.nonempty ?_
  · intro original sender package hp
    refine ⟨(hheard.valid original sender package hp).1, ?_⟩
    obtain ⟨pubkey, hlookup, hmem⟩ := (hheard.heard_iff original sender package).mp hp
    obtain ⟨-, rfl⟩ := Setup.lookup_pubkeys_iff.mp hlookup
    exact hkeys ▸ mem_otherIdentifiers.mpr ⟨pubkey, hl.sender _ hmem, rfl⟩
  · intro original ho sender hs hne
    obtain ⟨pubkey, hp, rfl⟩ := mem_otherIdentifiers.mp (hkeys ▸ ho)
    obtain ⟨pubkey', hp', rfl⟩ := mem_otherIdentifiers.mp (hkeys ▸ hs)
    have hecho := h pubkey' hp' pubkey hp fun heq => hne (heq ▸ rfl)
    obtain ⟨package, hmem⟩ := mem_kinds_broadcast.mp hecho
    exact ⟨package, (hheard.heard_iff _ _ package).mpr
      ⟨pubkey', Setup.lookup_pubkeys hp'.1, hmem⟩⟩

theorem phase_iff (hD : D.Distinct) (hself : self ∈ D.members) (hlen : 2 ≤ D.pubkeys.len)
    (hl : Valid D self l) (h : Reaches (D.identifier self) D.pubkeys l st) :
    (1 ≤ st.phase ↔ HasRound1 D self l) ∧
      (2 ≤ st.phase ↔ HasRound1 D self l ∧ HasEchoes D self l) ∧
      (3 ≤ st.phase ↔ HasRound1 D self l ∧ HasEchoes D self l ∧ HasRound2 D self l) := by
  cases h.represents hlen with
  | waitingForRound1Packages r1 hr1 _ hne =>
    have hnot : ¬HasRound1 D self l := by
      rwa [hasRound1_iff_keys hD hl hr1, ← len_eq_iff hD hself hl hr1]
    simp [phase, hnot]
  | waitingForRound1PackagesBroadcast r1 broadcasted hr1 hheard _ hfull hthree hincomplete =>
    have hkeys := (len_eq_iff hD hself hl hr1).mp hfull
    have hround1 := (hasRound1_iff_keys hD hl hr1).mpr hkeys
    have hnot : ¬HasEchoes D self l := by
      intro hechoes
      rw [complete_of_hasEchoes hD hself hl hthree hkeys hheard hechoes] at hincomplete
      cases hincomplete
    simp [phase, hround1, hnot]
  | waitingForRound2Packages r1 r2 hr1 hechoed hr2 hfull _ hne =>
    have hkeys := (len_eq_iff hD hself hl hr1).mp hfull
    have hround1 := (hasRound1_iff_keys hD hl hr1).mpr hkeys
    have hechoes := hasEchoes_of_echoed hD hself hlen hkeys hechoed
    have hnot : ¬HasRound2 D self l := by
      rwa [hasRound2_iff_keys hD hl hr2, ← hkeys]
    simp [phase, hround1, hechoes, hnot]
  | round2PackagesReady r1 r2 hr1 hechoed hr2 hfull heq =>
    have hkeys := (len_eq_iff hD hself hl hr1).mp hfull
    have hround1 := (hasRound1_iff_keys hD hl hr1).mpr hkeys
    have hechoes := hasEchoes_of_echoed hD hself hlen hkeys hechoed
    have hround2 := (hasRound2_iff_keys hD hl hr2).mpr (heq.trans hkeys)
    simp [phase, hround1, hechoes, hround2]

omit [LinearOrder I] [DecidableEq R1] in
theorem ordered_append_of_complete (h : Ordered D self l) (hround1 : HasRound1 D self l)
    (hechoes : HasEchoes D self l) : Ordered D self (l ++ l') := by
  intro l₀ e hle
  obtain hle' | ⟨t, ht⟩ := List.prefix_or_prefix_of_prefix hle (List.prefix_append l l')
  · exact h l₀ e hle'
  · -- the payload comes after the whole of `l`, or is its last one
    obtain rfl | ⟨t', e', rfl⟩ := t.eq_nil_or_concat
    · rw [List.append_nil] at ht
      exact h l₀ e (ht ▸ List.prefix_rfl)
    · rw [List.concat_eq_append, ← List.append_assoc] at ht
      obtain ⟨rfl, -⟩ := List.append_inj' ht rfl
      have hround1' := hround1.mono (List.prefix_append l t')
      have hechoes' := hechoes.mono (List.prefix_append l t')
      cases h2 : e.2 with
      | round1 _ => trivial
      | broadcast _ _ => exact hround1'
      | round2 _ => exact ⟨hround1', hechoes'⟩

/-- The complete first-round packages of a state are those that the others sent. -/
theorem collected_of_round1Packages (hD : D.Distinct) (hself : self ∈ D.members)
    (hlen : 2 ≤ D.pubkeys.len) (hl : Valid D self l)
    (h : Reaches (D.identifier self) D.pubkeys l st) {r1 : Map I R1}
    (hr : st.round1Packages = .ok r1) :
    Collected .round1 D.pubkeys l r1 ∧ r1.keys = otherIdentifiers D self := by
  cases h.represents hlen with
  | waitingForRound1Packages _ _ _ _ => cases hr
  | waitingForRound1PackagesBroadcast r1 _ hr1 _ _ hfull _ _ =>
    obtain rfl := Outcome.ok.inj hr
    exact ⟨hr1, (len_eq_iff hD hself hl hr1).mp hfull⟩
  | waitingForRound2Packages r1 _ hr1 _ _ hfull _ _ =>
    obtain rfl := Outcome.ok.inj hr
    exact ⟨hr1, (len_eq_iff hD hself hl hr1).mp hfull⟩
  | round2PackagesReady _ _ _ _ _ _ _ => cases hr

/-- A payload is accepted when it is not too early. -/
theorem accepts_of_timely (hD : D.Distinct) (hself : self ∈ D.members) (hlen : 2 ≤ D.pubkeys.len)
    {e : PublicKey × Payload I R1 R2} (hl : Valid D self (l ++ [e]))
    (h : Reaches (D.identifier self) D.pubkeys l st) (htimely : Timely D self l e.2) :
    ∃ st', Accepts (D.identifier self) e.1 e.2 st st' := by
  have hvalid := hl.initial (List.prefix_append l [e])
  have hnew := hl.new
  obtain ⟨hsender, hne⟩ := hl.sender e (List.mem_append_right _ (List.mem_singleton_self e))
  have hexpected := hl.expected e (List.mem_append_right _ (List.mem_singleton_self e))
  obtain ⟨h1, h2, h3⟩ := phase_iff hD hself hlen hvalid h
  have hlookup := Setup.lookup_pubkeys hsender
  obtain ⟨sender, p⟩ := e
  cases p with
  -- the sender's package is missing, so the first phase is not over
  | round1 package =>
    have hnot : ¬1 ≤ st.phase := fun hphase => hnew (h1.mp hphase sender ⟨hsender, hne⟩)
    cases h.represents hlen with
    | waitingForRound1Packages r1 _ _ _ =>
      exact ⟨_, .round1 D.pubkeys r1 (D.identifier sender) package hlookup⟩
    | _ => simp [phase] at hnot
  -- all packages are there, and this echo is missing
  | broadcast original package =>
    obtain ⟨pubkey, hpubkey, hpself, hpsender, rfl, rfl⟩ := hexpected
    have hother : Other D self pubkey := ⟨hpubkey, hpself⟩
    have hnot : ¬2 ≤ st.phase := fun hphase =>
      hnew ((h2.mp hphase).2 sender ⟨hsender, hne⟩ pubkey hother hpsender)
    have hphase := h1.mpr htimely
    cases h.represents hlen with
    | waitingForRound1PackagesBroadcast r1 broadcasted hr1 hheard _ hfull _ _ =>
      have hkeys := (len_eq_iff hD hself hvalid hr1).mp hfull
      have hid : D.identifier pubkey ∈ r1.keys := hkeys ▸ mem_otherIdentifiers.mpr ⟨pubkey, hother, rfl⟩
      obtain ⟨package, hp⟩ := Map.mem_keys_iff.mp hid
      have hpackage : package = D.round1Package pubkey :=
        hvalid.expected _ (sent_of_lookup hD hr1 hpubkey hp)
      refine ⟨_, .broadcast D.pubkeys r1 broadcasted (D.identifier sender) (D.identifier pubkey) _
        hlookup (Map.hasValue_iff.mpr ⟨pubkey, Setup.lookup_pubkeys hpubkey⟩) ?_ ?_ (hpackage ▸ hp) ?_⟩
      · exact fun heq => hpself (hD _ hpubkey _ hself heq)
      · exact fun heq => hpsender (hD _ hpubkey _ hsender heq)
      · -- an echo that was heard before is of the same kind
        refine Option.eq_none_iff_forall_ne_some.mpr fun package' hheard' => hnew ?_
        obtain ⟨pubkey', hlookup', hmem⟩ := (hheard.heard_iff _ _ package').mp hheard'
        obtain ⟨hp', heq⟩ := Setup.lookup_pubkeys_iff.mp hlookup'
        obtain rfl := hD _ hsender _ hp' heq
        exact mem_kinds_broadcast.mpr ⟨package', hmem⟩
    | waitingForRound1Packages _ _ _ _ => simp [phase] at hphase
    | _ => simp [phase] at hnot
  -- all echoes are there, and this package is missing
  | round2 package =>
    have hphase := h2.mpr htimely
    have hnot : ¬3 ≤ st.phase := fun hphase => hnew ((h3.mp hphase).2.2 sender ⟨hsender, hne⟩)
    cases h.represents hlen with
    | waitingForRound2Packages r1 r2 hr1 _ _ hfull _ _ =>
      have hkeys := (len_eq_iff hD hself hvalid hr1).mp hfull
      refine ⟨_, .round2 D.pubkeys r1 r2 (D.identifier sender) package hlookup ?_⟩
      exact hkeys ▸ mem_otherIdentifiers.mpr ⟨sender, ⟨hsender, hne⟩, rfl⟩
    | round2PackagesReady _ _ _ _ _ _ _ => simp [phase] at hnot
    | _ => simp [phase] at hphase

theorem timely_of_accepts (hD : D.Distinct) (hself : self ∈ D.members) (hlen : 2 ≤ D.pubkeys.len)
    {e : PublicKey × Payload I R1 R2} (hl : Valid D self l)
    (h : Reaches (D.identifier self) D.pubkeys l st)
    (ha : Accepts (D.identifier self) e.1 e.2 st st') : Timely D self l e.2 := by
  obtain ⟨h1, h2, h3⟩ := phase_iff hD hself hlen hl h
  obtain ⟨sender, p⟩ := e
  cases ha with
  | round1 _ _ _ _ _ => trivial
  | broadcast _ _ _ _ _ _ _ _ _ _ _ _ => exact h1.mp le_rfl
  | round2 _ _ _ _ _ _ _ => exact h2.mp le_rfl

/-- Valid payloads are all accepted exactly when they come in order. -/
theorem reaches_iff_ordered (hD : D.Distinct) (hself : self ∈ D.members)
    (hlen : 2 ≤ D.pubkeys.len) (hl : Valid D self l) :
    (∃ st, Reaches (D.identifier self) D.pubkeys l st) ↔ Ordered D self l := by
  induction l using List.reverseRecOn with
  | nil => exact iff_of_true ⟨_, .new⟩ ordered_nil
  | append_singleton l e ih =>
    have hvalid := hl.initial (List.prefix_append l [e])
    rw [ordered_append_singleton, ← ih hvalid]
    constructor
    · rintro ⟨st', h⟩
      obtain ⟨st, hr, ha⟩ := h.of_append
      exact ⟨⟨st, hr⟩, timely_of_accepts hD hself hlen hvalid hr ha⟩
    · rintro ⟨⟨st, hr⟩, htimely⟩
      obtain ⟨st', ha⟩ := accepts_of_timely hD hself hlen hl hr htimely
      exact ⟨st', .snoc hr ha⟩

end FrostTools.Dkg
