import FrostTools.Client.Config
import FrostTools.Dkg.Authenticity

/-!
# The key of a session

Every honest participant that ends its key generation has made its key from the same first-round
packages, and from the second-round packages that the other honest participants made of them.
-/

namespace FrostTools.Dkg
open Client Session Frostd HTTPComms

/-- The rest of a key generation, when both rounds of messages are done. -/
structure KeyGenerator (I R1 R2 K P : Type*) where
  /-- `part3` with the secret package of a participant. -/
  part3 : PublicKey → Map I R1 → Map I R2 → Option (K × P)
  /-- Of the key packages, if the ciphersuite needs it. -/
  evenY : Option (EvenY K P)

variable {S : Snow} {I R1 R2 K P : Type*} [LinearOrder I]

def KeyGenerator.intoEvenY (G : KeyGenerator I R1 R2 K P) (x : K × P) : K × P :=
  match G.evenY with
  | none => x
  | some evenY =>
    let isEven := evenY.hasEvenY x.2
    (evenY.secretIntoEvenY x.1 isEven, evenY.publicIntoEvenY x.2 isEven)

omit [LinearOrder I] in
theorem KeyGenerator.snd_intoEvenY (G : KeyGenerator I R1 R2 K P) (k k' : K) (p : P) :
    (G.intoEvenY (k, p)).2 = (G.intoEvenY (k', p)).2 := by
  unfold intoEvenY
  cases G.evenY <;> rfl

/-- The public key package is made of the first-round packages of all participants. -/
structure KeyGenerator.Lawful (G : KeyGenerator I R1 R2 K P) (D : Setup I R1 R2)
    (publicKeyPackage : Map I R1 → P) : Prop where
  part3 : ∀ self r1 r2 k p, G.part3 self r1 r2 = some (k, p) →
    p = publicKeyPackage (r1.insert (D.identifier self) (D.round1Package self))

variable [DecidableEq R1] {D : Setup I R1 R2} {corrupted : Finset PublicKey}
  {s s' : Network S I R1 R2}

def HTTPComms.Generated (D : Setup I R1 R2) (G : KeyGenerator I R1 R2 K P) (self : PublicKey)
    (c : HTTPComms S I R1 R2) (key : K × P) : Prop :=
  ∃ r1 r2 made, c.Used D self r1 ∧ c.phase = .finished r2 ∧ G.part3 self r1 r2 = some made ∧
    key = G.intoEvenY made

/-- What an honest participant accepts from an honest one was encrypted for it. -/
def Network.Genuine (D : Setup I R1 R2) (corrupted : Finset PublicKey) (s : Network S I R1 R2) : Prop :=
  ∀ self ∈ D.members, self ∉ corrupted → ∀ sender p, (sender, p) ∈ (s.comms self).accepted →
    sender ∉ corrupted → (self, p) ∈ (s.comms sender).produced

theorem genuine_of_reachable {Matched : S.HandshakeState → S.HandshakeState → Prop}
    {Synced : S.TransportState → S.TransportState → Prop} (hS : S.InOrder Matched Synced)
    (hcodec : D.codec.Lawful) (h : (Network.system S D corrupted).Reachable s) :
    s.Genuine D corrupted := by
  intro self hself hhonest sender p hmem hsender
  obtain ⟨st, b, hb, hp⟩ := (recorded_of_reachable h self).decoded _ hmem
  obtain ⟨⟨_, payload⟩, hproduced, rfl, hencode⟩ :=
    authentic_of_reachable hS h self hself hhonest _ hb hsender
  change b = D.codec.encode payload at hencode
  rw [hencode] at hp
  obtain rfl := hcodec.payload_encode hp
  exact hproduced

section Round1

variable (h : (Network.system S D corrupted).Reachable s) (hgenuine : s.Genuine D corrupted)
  {self : PublicKey} (hself : self ∈ D.members) (hhonest : self ∉ corrupted)
include h hgenuine hself hhonest

theorem vouched_of_genuine {sender : PublicKey} (hsender : sender ∉ corrupted) {p : Payload I R1 R2}
    (hmem : (sender, p) ∈ (s.comms self).accepted) :
    sender ≠ self ∧ Vouched D sender (s.comms sender).accepted self p := by
  obtain ⟨-, hne, hvouched⟩ :=
    (recorded_of_reachable h sender).produced _ (hgenuine self hself hhonest sender p hmem hsender)
  exact ⟨Ne.symm hne, hvouched⟩

theorem sender_ne : ∀ e ∈ (s.comms self).accepted, e.1 ≠ self := by
  rintro ⟨sender, p⟩ he rfl
  exact (vouched_of_genuine h hgenuine hself hhonest hhonest he).1 rfl

variable (hD : D.Distinct) (hlen : 2 ≤ D.pubkeys.len)
include hD

theorem keys_eq_otherIdentifiers {V : Type*} {f : V → Payload I R1 R2} {m : Map I V}
    {l : List (PublicKey × Payload I R1 R2)} (hle : l <+: (s.comms self).accepted)
    (hcollected : DKGSessionState.Collected f D.pubkeys l m) (hfull : m.len = D.pubkeys.len - 1) :
    m.keys = otherIdentifiers D self := by
  apply Finset.eq_of_subset_of_card_le
  · intro identifier hid
    obtain ⟨v, hv⟩ := Map.mem_keys_iff.mp hid
    obtain ⟨pubkey, hlookup, hmem⟩ := hcollected.sent identifier v hv
    obtain ⟨hmember, rfl⟩ := Setup.lookup_pubkeys_iff.mp hlookup
    have hne := sender_ne h hgenuine hself hhonest _ (hle.subset hmem)
    exact mem_otherIdentifiers.mpr ⟨pubkey, ⟨hmember, hne⟩, rfl⟩
  · rw [card_otherIdentifiers hD hself, ← hfull, Map.len]

include hlen

theorem keys_of_used {r1 : Map I R1} (hused : (s.comms self).Used D self r1) :
    r1.keys = otherIdentifiers D self := by
  obtain ⟨l, hle, hcollected, -, hfull⟩ := represents_of_used hlen hused
  exact keys_eq_otherIdentifiers h hgenuine hself hhonest hD hle hcollected hfull

theorem lookup_of_used {r1 : Map I R1} (hused : (s.comms self).Used D self r1) {pubkey : PublicKey}
    (hpubkey : pubkey ∈ D.members) (hother : pubkey ≠ self) (hsender : pubkey ∉ corrupted) :
    r1.lookup (D.identifier pubkey) = some (D.round1Package pubkey) := by
  have hkeys := keys_of_used h hgenuine hself hhonest hD hlen hused
  obtain ⟨l, hle, hcollected, -⟩ := represents_of_used hlen hused
  have hid : D.identifier pubkey ∈ r1.keys :=
    hkeys ▸ mem_otherIdentifiers.mpr ⟨pubkey, ⟨hpubkey, hother⟩, rfl⟩
  obtain ⟨package, hpackage⟩ := Map.mem_keys_iff.mp hid
  have hmem := hle.subset (sent_of_lookup hD hcollected hpubkey hpackage)
  obtain ⟨-, hvouched⟩ := vouched_of_genuine h hgenuine hself hhonest hsender hmem
  rw [hpackage, show package = D.round1Package pubkey from hvouched]

/-- Two honest participants have the same package of every third one. -/
theorem lookup_eq_of_used {self' pubkey : PublicKey} (hself' : self' ∈ D.members)
    (hhonest' : self' ∉ corrupted) (hne : self ≠ self') {r1 r1' : Map I R1}
    (hused : (s.comms self).Used D self r1) (hused' : (s.comms self').Used D self' r1')
    (hpubkey : pubkey ∈ D.members) (hother : pubkey ≠ self) (hother' : pubkey ≠ self') :
    r1.lookup (D.identifier pubkey) = r1'.lookup (D.identifier pubkey) := by
  have hthree : 2 < D.pubkeys.len := Finset.two_lt_card.mpr
    ⟨self, Setup.mem_keys_pubkeys.mpr hself, self', Setup.mem_keys_pubkeys.mpr hself', pubkey,
      Setup.mem_keys_pubkeys.mpr hpubkey, hne, hother.symm, hother'.symm⟩
  have hkeys := keys_of_used h hgenuine hself hhonest hD hlen hused
  obtain ⟨l, hle, -, hechoed, -⟩ := represents_of_used hlen hused
  have hid : ∀ {pubkey}, pubkey ∈ D.members → pubkey ≠ self → D.identifier pubkey ∈ r1.keys := by
    intro pubkey hmem hne
    exact hkeys ▸ mem_otherIdentifiers.mpr ⟨pubkey, ⟨hmem, hne⟩, rfl⟩
  obtain ⟨sender, package, hlookup, hpackage, hmem⟩ := hechoed hthree _ (hid hpubkey hother) _
    (hid hself' hne.symm) fun heq => hother' (hD _ hpubkey _ hself' heq)
  obtain ⟨hsender, heq⟩ := Setup.lookup_pubkeys_iff.mp hlookup
  obtain rfl := hD _ hself' _ hsender heq
  -- what the second one echoed is what it used
  obtain ⟨-, -, st, r, hpassed, hr, hechoed'⟩ :=
    vouched_of_genuine h hgenuine hself hhonest hhonest' (hle.subset hmem)
  obtain ⟨r2, hused'⟩ := hused'
  obtain rfl := hpassed.frozen hused' hr rfl
  rw [hpackage, hechoed']

/-- An honest participant uses the packages of all without its own. -/
theorem used_erase {self' : PublicKey} (hself' : self' ∈ D.members) (hhonest' : self' ∉ corrupted)
    {r1 r1' : Map I R1} (hused : (s.comms self).Used D self r1)
    (hused' : (s.comms self').Used D self' r1') :
    r1' = (r1.insert (D.identifier self) (D.round1Package self)).erase (D.identifier self') := by
  have hkeys := keys_of_used h hgenuine hself hhonest hD hlen hused
  have hkeys' := keys_of_used h hgenuine hself' hhonest' hD hlen hused'
  have hnone : ∀ {identifier}, identifier ∉ r1'.keys → r1'.lookup identifier = none :=
    fun hid => Map.lookup_eq_none_iff.mpr hid
  ext1 identifier
  rw [Map.lookup_erase, Map.lookup_insert]
  -- the identifier is that of the second participant, of the first one, or of neither
  split_ifs with hown hown'
  · apply hnone
    rw [hkeys', mem_otherIdentifiers, hown]
    rintro ⟨pubkey, ⟨hmem, hne⟩, heq⟩
    exact hne (hD _ hmem _ hself' heq)
  · subst hown'
    refine lookup_of_used h hgenuine hself' hhonest' hD hlen hused' hself ?_ hhonest
    rintro rfl
    exact hown rfl
  · by_cases hid : ∃ pubkey ∈ D.members, D.identifier pubkey = identifier
    · obtain ⟨pubkey, hpubkey, rfl⟩ := hid
      have hne : pubkey ≠ self := by
        rintro rfl
        exact hown' rfl
      have hne' : pubkey ≠ self' := by
        rintro rfl
        exact hown rfl
      by_cases hsame : self = self'
      · subst hsame
        rw [hused.unique hused']
      · exact (lookup_eq_of_used h hgenuine hself hhonest hD hlen hself' hhonest' hsame hused
          hused' hpubkey hne hne').symm
    · have hno : ∀ {pubkey}, identifier ∉ otherIdentifiers D pubkey := by
        intro pubkey hmem
        obtain ⟨pubkey', hother, heq⟩ := mem_otherIdentifiers.mp hmem
        exact hid ⟨pubkey', hother.1, heq⟩
      rw [hnone (hkeys' ▸ hno), Map.lookup_eq_none_iff.mpr (hkeys ▸ hno)]

end Round1

/-- `part2` made the package for the recipient, of the first-round packages used. -/
def Made (D : Setup I R1 R2) (self : PublicKey) (c : HTTPComms S I R1 R2) (recipient : PublicKey)
    (package : R2) : Prop :=
  ∃ r1 made, c.Used D self r1 ∧ D.part2 self r1 = some made ∧
    made.lookup (D.identifier recipient) = some package

structure SendsMade (D : Setup I R1 R2) (pubkey : PublicKey) (c : HTTPComms S I R1 R2) : Prop where
  produced : ∀ recipient package, (recipient, .round2 package) ∈ c.produced →
    Made D pubkey c recipient package
  todo : ∀ stage todo, c.phase = .exchange stage todo → ∀ recipient package,
    (recipient, some (.round2 package)) ∈ todo → Made D pubkey c recipient package

section Made

variable {self : PublicKey} {c c' : HTTPComms S I R1 R2} {order : List PublicKey} {now : ℕ}
  {app app' : AppState} {letter : Option (Letter I R1 R2)}

theorem Made.mono {recipient : PublicKey} {package : R2} (h : Made D self c recipient package)
    (hle : c.accepted <+: c'.accepted) : Made D self c' recipient package := by
  obtain ⟨r1, made, ⟨r2, hpassed⟩, hmade⟩ := h
  exact ⟨r1, made, ⟨r2, hpassed.mono hle⟩, hmade⟩

theorem SendsMade.quiet (h : SendsMade D self c) (hle : c.accepted <+: c'.accepted)
    (hproduced : c'.produced = c.produced)
    (htodo : ∀ stage todo, c'.phase = .exchange stage todo → ∀ recipient package,
      (recipient, some (.round2 package)) ∉ todo) : SendsMade D self c' where
  produced recipient package hmem := (h.produced recipient package (hproduced ▸ hmem)).mono hle
  todo stage todo hphase recipient package hmem :=
    absurd hmem (htodo stage todo hphase recipient package)

theorem SendsMade.step (h : SendsMade D self c)
    (hused : ∀ r1, c.phase = .round1Done r1 → c.Used D self r1)
    (hstep : Steps D self now order app c c' app' letter) : SendsMade D self c' := by
  have hle := hstep.le.2
  cases hstep with
  | sent stage recipient payload todo msg cipher hphase _ _ =>
    constructor
    · intro recipient' package hmem
      obtain hmem | hmem := List.mem_append.mp hmem
      · exact (h.produced _ _ hmem).mono hle
      · obtain ⟨rfl, rfl⟩ := Prod.mk.inj (List.mem_singleton.mp hmem)
        exact (h.todo _ _ hphase _ _ List.mem_cons_self).mono hle
    · rintro stage' todo' ⟨⟩ recipient' package hmem
      exact (h.todo _ _ hphase _ _ (List.mem_cons_of_mem _ hmem)).mono hle
  | received stage msgs c₁ phase hphase _ hbatch hfollows =>
    have hproduced := (recvBatch_frame D self c msgs).1
    rw [hbatch] at hproduced
    refine h.quiet hle hproduced ?_
    rintro stage' todo rfl recipient package hmem
    obtain ⟨rfl, -⟩ | ⟨-, -, r1, -, -, rfl⟩ := hfollows.exchange
    · cases hmem
    · -- an echo is no second-round package
      obtain ⟨_, -, hmem⟩ := List.mem_flatMap.mp hmem
      obtain ⟨_, -, heq⟩ := List.mem_map.mp hmem
      cases heq
  | rejected stage msgs phase _ _ _ hdead _ =>
    refine h.quiet hle (recvBatch_frame D self c msgs).1 ?_
    rintro stage' todo rfl
    exact absurd hdead not_false
  | stopped cipher produced phase _ hdead _ _ hproduced =>
    constructor
    · intro recipient package hmem
      obtain hmem | hmem := List.mem_append.mp hmem
      · exact (h.produced _ _ hmem).mono hle
      · obtain ⟨stage, todo, hphase⟩ := hproduced _ (Option.mem_toList.mp hmem)
        exact (h.todo _ _ hphase _ _ List.mem_cons_self).mono hle
    · rintro stage' todo rfl
      exact absurd hdead not_false
  -- what is put on the list here was made of the first-round packages that the state holds
  | part2 r1 r2 hphase hpart2 =>
    refine ⟨fun recipient package hmem => (h.produced _ _ hmem).mono hle, ?_⟩
    rintro stage' todo ⟨⟩ recipient package hmem
    obtain ⟨pubkey, -, heq⟩ := List.mem_map.mp hmem
    obtain ⟨rfl, hpackage⟩ := Prod.mk.inj heq
    obtain ⟨_, hlookup, ⟨⟩⟩ := Option.map_eq_some_iff.mp hpackage
    exact ⟨r1, r2, hused r1 hphase, hpart2, hlookup⟩
  | closed _ _ => exact h.quiet hle rfl nofun
  | loggedOut _ =>
    obtain ⟨phase, heq, hcases⟩ := enter_eq (c := c) Phase.finished c.state.round2Packages
    rw [heq] at hle ⊢
    refine h.quiet hle rfl ?_
    rintro stage' todo rfl
    obtain hdead | ⟨_, -, ⟨⟩⟩ := hcases
    exact absurd hdead not_false
  | cleaned _ _ => exact h.quiet hle rfl nofun

theorem finished_step (hstep : Steps D self now order app c c' app' letter) {r2 : Map I R2}
    (hphase : c'.phase = .finished r2) : c'.state.round2Packages = .ok r2 := by
  cases hstep with
  | sent stage _ _ todo _ _ _ _ _ => cases hphase
  | received stage msgs c₁ phase _ _ _ hfollows =>
    obtain rfl : phase = .finished r2 := hphase
    generalize c₁.state = st at hfollows
    generalize hp : Phase.finished r2 = phase at hfollows
    cases hfollows with
    | ready _ _ => split_ifs at hp
    | _ => cases hp
  | rejected _ _ phase _ _ _ hdead _ =>
    obtain rfl : phase = .finished r2 := hphase
    exact absurd hdead not_false
  | stopped _ _ phase _ hdead _ _ _ =>
    obtain rfl : phase = .finished r2 := hphase
    exact absurd hdead not_false
  | part2 _ _ _ _ => cases hphase
  | closed _ _ => cases hphase
  | loggedOut _ =>
    obtain ⟨phase, heq, hcases⟩ := enter_eq (c := c) Phase.finished c.state.round2Packages
    rw [heq] at hphase ⊢
    obtain rfl : phase = .finished r2 := hphase
    obtain hdead | ⟨_, hok, ⟨⟩⟩ := hcases
    · exact absurd hdead not_false
    · exact hok
  | cleaned _ _ => cases hphase

end Made

theorem sendsMade_of_reachable (hlen : 2 ≤ D.pubkeys.len)
    (h : (Network.system S D corrupted).Reachable s) (self : PublicKey) :
    SendsMade D self (s.comms self) := by
  refine TransitionSystem.Reachable.invariant (P := fun s => ∀ self, SendsMade D self (s.comms self))
    ?_ ?_ h self
  · rintro s ⟨now, app, order, -, rfl⟩ self
    change SendsMade D self (start D self (order self))
    unfold start
    split
    · refine ⟨nofun, ?_⟩
      rintro stage todo ⟨⟩ recipient package hmem
      obtain ⟨_, -, heq⟩ := List.mem_map.mp hmem
      cases heq
    · exact ⟨nofun, nofun⟩
  · intro s a s' hreach hP he self
    cases Network.steps_of_step he with
    | participant pubkey now order c app letter _ _ _ hc =>
      by_cases hp : self = pubkey
      · subst hp
        change SendsMade D self (Function.update s.comms self c self)
        rw [Function.update_self]
        exact (hP self).step (fun _ => used_of_round1Done hreach hlen) (steps_of_step hc)
      · change SendsMade D self (Function.update s.comms pubkey c self)
        rw [Function.update_of_ne hp]
        exact hP self
    | corrupted user now request _ _ => exact hP self

theorem round2Packages_of_finished (h : (Network.system S D corrupted).Reachable s) (self : PublicKey) :
    ∀ r2, (s.comms self).phase = .finished r2 → (s.comms self).state.round2Packages = .ok r2 := by
  refine Network.invariant_comms
    (P := fun _ c => ∀ r2, c.phase = .finished r2 → c.state.round2Packages = .ok r2) ?_ ?_ h self
  · intro pubkey order _
    unfold start
    split <;> exact nofun
  · intro pubkey now order app c c' app' letter _ _ _ hstep r2 hphase
    exact finished_step (steps_of_step hstep) hphase

section Shared

variable (hD : D.Distinct) (hlen : 2 ≤ D.pubkeys.len)
  (h : (Network.system S D corrupted).Reachable s) (hgenuine : s.Genuine D corrupted)
include hD hlen h hgenuine

/-- A participant that has finished has a package from every other, and the honest ones made theirs
for it. -/
theorem made_of_finished {A B : PublicKey} (hA : A ∈ D.members) (hAhonest : A ∉ corrupted)
    {r2 : Map I R2} (hfinished : (s.comms A).phase = .finished r2) (hB : B ∈ D.members)
    (hBhonest : B ∉ corrupted) (hne : B ≠ A) :
    ∃ package, r2.lookup (D.identifier B) = some package ∧ Made D B (s.comms B) A package := by
  have hlive : ¬Dead (s.comms A).phase := by
    rw [hfinished]
    exact not_false
  have hreaches := (recorded_of_reachable h A).current hlive
  have hrepresents := hreaches.represents hlen
  have hready := round2Packages_of_finished h A r2 hfinished
  generalize (s.comms A).state = st at hready hrepresents
  cases hrepresents with
  | round2PackagesReady r1 r2 hround1 _ hround2 hfull hkeys =>
    obtain rfl := Outcome.ok.inj hready
    rw [keys_eq_otherIdentifiers h hgenuine hA hAhonest hD List.prefix_rfl hround1 hfull] at hkeys
    have hid : D.identifier B ∈ r2.keys :=
      hkeys ▸ mem_otherIdentifiers.mpr ⟨B, ⟨hB, hne⟩, rfl⟩
    obtain ⟨package, hpackage⟩ := Map.mem_keys_iff.mp hid
    refine ⟨package, hpackage, ?_⟩
    exact (sendsMade_of_reachable hlen h B).produced _ _ (hgenuine A hA hAhonest B _
      (sent_of_lookup hD hround2 hB hpackage) hBhonest)
  | _ => cases hready

omit hD hgenuine in
theorem exists_used_of_finished {A : PublicKey} {r2 : Map I R2}
    (hfinished : (s.comms A).phase = .finished r2) : ∃ r1, (s.comms A).Used D A r1 := by
  have hposition := positioned_of_reachable h A
  have hlive : ¬Dead (s.comms A).phase := by
    rw [hfinished]
    exact not_false
  rw [hfinished] at hposition
  exact exists_used hlen h hlive (Nat.le_of_succ_le hposition)

/-- The first-round packages that the honest participants have in common, and what they made of
them. -/
structure Shared (D : Setup I R1 R2) (corrupted : Finset PublicKey) (s : Network S I R1 R2)
    (pubkey : PublicKey) (r2 : Map I R2) (packages : Map I R1) : Prop where
  keys : packages.keys = D.members.toFinset.image D.identifier
  own : ∀ B ∈ D.members, B ∉ corrupted →
    packages.lookup (D.identifier B) = some (D.round1Package B)
  used : ∀ B ∈ D.members, B ∉ corrupted → ∀ r1, (s.comms B).Used D B r1 →
    r1 = packages.erase (D.identifier B)
  made : ∀ B ∈ D.members, B ∉ corrupted → B ≠ pubkey → ∃ made package,
    D.part2 B (packages.erase (D.identifier B)) = some made ∧
    made.lookup (D.identifier pubkey) = some package ∧ r2.lookup (D.identifier B) = some package

theorem exists_shared {A : PublicKey} (hA : A ∈ D.members) (hAhonest : A ∉ corrupted) {r2 : Map I R2}
    (hfinished : (s.comms A).phase = .finished r2) : ∃ packages, Shared D corrupted s A r2 packages := by
  obtain ⟨r1, hused⟩ := exists_used_of_finished hlen h hfinished
  have hkeys := keys_of_used h hgenuine hA hAhonest hD hlen hused
  have herase : ∀ B ∈ D.members, B ∉ corrupted → ∀ r1', (s.comms B).Used D B r1' →
      r1' = (r1.insert (D.identifier A) (D.round1Package A)).erase (D.identifier B) :=
    fun B hB hBhonest r1' hused' =>
      used_erase h hgenuine hA hAhonest hD hlen hB hBhonest hused hused'
  refine ⟨r1.insert (D.identifier A) (D.round1Package A), ?_, fun B hB hBhonest => ?_, herase,
    fun B hB hBhonest hne => ?_⟩
  · rw [Map.keys_insert, hkeys, otherIdentifiers, ← Finset.image_insert]
    congr 1
    ext pubkey
    rw [Finset.mem_insert, Finset.mem_erase, Setup.mem_keys_pubkeys, List.mem_toFinset]
    by_cases hp : pubkey = A
    · simp [hp, hA]
    · simp [hp]
  · rw [Map.lookup_insert]
    split_ifs with hid
    · rw [hD _ hB _ hA hid]
    · refine lookup_of_used h hgenuine hA hAhonest hD hlen hused hB ?_ hBhonest
      rintro rfl
      exact hid rfl
  · obtain ⟨package, hpackage, r1', made, hused', hmade, hlookup⟩ :=
      made_of_finished hD hlen h hgenuine hA hAhonest hfinished hB hBhonest hne
    rw [← herase B hB hBhonest r1' hused']
    exact ⟨made, package, hmade, hlookup, hpackage⟩

omit hD hlen h hgenuine in
theorem Shared.eq_insert {A B : PublicKey} {r2 : Map I R2} {packages : Map I R1}
    (hshared : Shared D corrupted s A r2 packages) (hB : B ∈ D.members) (hBhonest : B ∉ corrupted)
    {r1 : Map I R1} (hused : (s.comms B).Used D B r1) :
    packages = r1.insert (D.identifier B) (D.round1Package B) := by
  ext1 identifier
  rw [Map.lookup_insert]
  split_ifs with hid
  · rw [hid, hshared.own B hB hBhonest]
  · rw [hshared.used B hB hBhonest r1 hused, Map.lookup_erase, if_neg hid]

omit hD hlen h hgenuine in
theorem Shared.publicKeyPackage {A B : PublicKey} {r2 : Map I R2} {packages : Map I R1}
    (hshared : Shared D corrupted s A r2 packages) {publicKeyPackage : Map I R1 → P}
    {G : KeyGenerator I R1 R2 K P} (hG : G.Lawful D publicKeyPackage) (hB : B ∈ D.members)
    (hBhonest : B ∉ corrupted) {key : K × P} (hkey : (s.comms B).Generated D G B key) (k : K) :
    key.2 = (G.intoEvenY (k, publicKeyPackage packages)).2 := by
  obtain ⟨r1, _, ⟨k', p⟩, hused, -, hpart3, rfl⟩ := hkey
  rw [hG.part3 _ _ _ _ _ hpart3, ← hshared.eq_insert hB hBhonest hused]
  exact G.snd_intoEvenY _ _ _

/-- What a participant makes of first-round packages in common and of the second-round packages that
the others made of them for it. -/
structure KeyGenerator.Makes (G : KeyGenerator I R1 R2 K P) (D : Setup I R1 R2)
    (packages : Map I R1) (pubkey : PublicKey) (key : K × P) : Prop where
  own : packages.lookup (D.identifier pubkey) = some (D.round1Package pubkey)
  key : ∃ r2 made, G.part3 pubkey (packages.erase (D.identifier pubkey)) r2 = some made ∧
    key = G.intoEvenY made ∧ ∀ B ∈ D.members, B ≠ pubkey → ∃ r2' package,
      D.part2 B (packages.erase (D.identifier B)) = some r2' ∧
      r2'.lookup (D.identifier pubkey) = some package ∧ r2.lookup (D.identifier B) = some package

/-- Without corrupted participants, all keys are made of the same packages. -/
theorem makes_of_generated {A : PublicKey} {r2 : Map I R2} {packages : Map I R1}
    (hshared : Shared D corrupted s A r2 packages) (hcorrupted : corrupted = ∅)
    {G : KeyGenerator I R1 R2 K P} {B : PublicKey} (hB : B ∈ D.members) {key : K × P}
    (hkey : (s.comms B).Generated D G B key) : G.Makes D packages B key := by
  have hhonest : ∀ pubkey, pubkey ∉ corrupted := by
    rw [hcorrupted]
    exact fun _ => Finset.notMem_empty _
  obtain ⟨r1, r2', made, hused, hfinished, hpart3, hkey⟩ := hkey
  -- the participant's own view is the one in common
  obtain ⟨packages', hshared'⟩ := exists_shared hD hlen h hgenuine hB (hhonest B) hfinished
  obtain rfl : packages' = packages := (hshared'.eq_insert hB (hhonest B) hused).trans
    (hshared.eq_insert hB (hhonest B) hused).symm
  rw [hshared.used B hB (hhonest B) r1 hused] at hpart3
  exact ⟨hshared.own B hB (hhonest B), r2', made, hpart3, hkey,
    fun C hC hne => hshared'.made C hC (hhonest C) hne⟩

end Shared

/-- When an honest participant has finished, whatever the corrupted ones do, there is one set of
first-round packages, with those of the honest participants, that every honest participant uses: the
second-round packages of the others are made of it, and so is every public key package. -/
theorem honest_participants_share_key {Matched : S.HandshakeState → S.HandshakeState → Prop}
    {Synced : S.TransportState → S.TransportState → Prop} (hS : S.InOrder Matched Synced)
    (hcodec : D.codec.Lawful) (hD : D.Distinct) (hlen : 2 ≤ D.pubkeys.len)
    (h : (Network.system S D corrupted).Reachable s) {publicKeyPackage : Map I R1 → P} {G : KeyGenerator I R1 R2 K P}
    (hG : G.Lawful D publicKeyPackage) {A : PublicKey} (hA : A ∈ D.members) (hAhonest : A ∉ corrupted)
    {r2 : Map I R2} (hfinished : (s.comms A).phase = .finished r2) : ∃ packages : Map I R1,
      packages.keys = D.members.toFinset.image D.identifier ∧
      (∀ B ∈ D.members, B ∉ corrupted →
        packages.lookup (D.identifier B) = some (D.round1Package B)) ∧
      (∀ B ∈ D.members, B ∉ corrupted → ∀ r1, (s.comms B).Used D B r1 →
        r1 = packages.erase (D.identifier B)) ∧
      (∀ B ∈ D.members, B ∉ corrupted → B ≠ A → ∃ made package,
        D.part2 B (packages.erase (D.identifier B)) = some made ∧
        made.lookup (D.identifier A) = some package ∧ r2.lookup (D.identifier B) = some package) ∧
      ∀ B ∈ D.members, B ∉ corrupted → ∀ key, (s.comms B).Generated D G B key →
        ∀ k, key.2 = (G.intoEvenY (k, publicKeyPackage packages)).2 := by
  obtain ⟨packages, hshared⟩ := exists_shared hD hlen h (genuine_of_reachable hS hcodec h) hA
    hAhonest hfinished
  exact ⟨packages, hshared.keys, hshared.own, hshared.used, hshared.made,
    fun B hB hBhonest key hkey => hshared.publicKeyPackage hG hB hBhonest hkey⟩

/-- The public key package is the map of all first-round packages. -/
def sampleKeyGenerator : KeyGenerator (Fin 256) UInt8 UInt8 Unit (Map (Fin 256) UInt8) where
  part3 self r1 _ := some ((), r1.insert (Network.trio.identifier self) (Network.trio.round1Package self))
  evenY := none

theorem sampleKeyGenerator_lawful : sampleKeyGenerator.Lawful Network.trio id where
  part3 _ _ _ _ _ h := (Prod.mk.inj (Option.some.inj h)).2.symm

/-- After the run in which the corrupted participant sends other packages, the first one finishes. -/
def Network.corruptedEnd : List Action :=
  corruptedRun ++ sampleActions trio [1, 2, 1, 1, 2, 2] ++ [corruptedSend ⟨[1]⟩ [1, 3, 5]] ++
    sampleActions trio [1, 1, 1]

def Phase.returned {I R1 R2 : Type*} : Phase I R1 R2 → Option (Map I R2)
  | .finished r2 => some r2
  | _ => none

theorem Phase.eq_finished {I R1 R2 : Type*} {phase : Phase I R1 R2} {r2 : Map I R2}
    (h : phase.returned = some r2) : phase = .finished r2 := by
  cases phase with
  | finished r2' => rw [Option.some.inj h]
  | _ => cases h

open Network in
theorem honest_participants_share_key_trio : ∃ s r2, ∃ packages : Map (Fin 256) UInt8,
    (Network.system sampleSnow trio {⟨[3]⟩}).Run corruptedEnd s ∧
    (s.comms ⟨[1]⟩).phase = .finished r2 ∧
    packages.keys = trio.members.toFinset.image trio.identifier ∧
    packages.lookup (trio.identifier ⟨[2]⟩) = some (trio.round1Package ⟨[2]⟩) := by
  obtain ⟨s, hrun, hfinished⟩ := exists_run_of_sampleExec trio {⟨[3]⟩} (fun _ => True)
    (fun s => ((s.comms ⟨[1]⟩).phase.returned).isSome)
    corruptedEnd (by decide) trivial (by decide +kernel)
  obtain ⟨r2, hr2⟩ := Option.isSome_iff_exists.mp hfinished
  have hphase := Phase.eq_finished hr2
  obtain ⟨packages, hkeys, hhonest, -⟩ := honest_participants_share_key sampleSnow_inOrder
    sampleCodec_lawful (by decide) (by decide) hrun.of_within.reachable sampleKeyGenerator_lawful (by decide) (by decide) hphase
  exact ⟨s, r2, packages, hrun.of_within, hphase, hkeys, hhonest _ (by decide) (by decide)⟩

end FrostTools.Dkg
