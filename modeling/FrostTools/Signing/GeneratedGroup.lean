import FrostTools.Client.Generation
import FrostTools.Dkg.KeyAgreement
import FrostTools.Signing.DealtGroup

namespace FrostTools.Signing
open Client Dkg

variable {L : Libraries} {K : SigningLibraries L} {name : CiphersuiteName}

abbrev DkgSetup (L : Libraries) (name : CiphersuiteName) :=
  Setup (L.ciphersuite name).Identifier (L.ciphersuite name).Round1Package
    (L.ciphersuite name).Round2Package

abbrev DkgGenerator (L : Libraries) (name : CiphersuiteName) :=
  KeyGenerator (L.ciphersuite name).Identifier (L.ciphersuite name).Round1Package
    (L.ciphersuite name).Round2Package (L.ciphersuite name).KeyPackage
    (L.ciphersuite name).PublicKeyPackage

abbrev DkgNetwork (S : Snow) (L : Libraries) (name : CiphersuiteName) :=
  Network S (L.ciphersuite name).Identifier (L.ciphersuite name).Round1Package
    (L.ciphersuite name).Round2Package

variable {S : Snow} {D : DkgSetup L name} {gen : DkgGenerator L name} {s : DkgNetwork S L name}
  {Matches : (K.suite name).SigningNonces → (K.suite name).SigningCommitments → Prop}
  {Verifies : Option (K.suite name).Randomizer → Bytes → (K.suite name).Signature → Prop}
  {threshold : UInt16}

/-- What `frost-core` makes of first-round packages in common: one public key package with a verifying
share for each of them, and key packages of which any `threshold` sign. -/
structure GeneratesKeys (K : SigningLibraries L) (name : CiphersuiteName) (D : DkgSetup L name)
    (gen : DkgGenerator L name)
    (Matches : (K.suite name).SigningNonces → (K.suite name).SigningCommitments → Prop)
    (Verifies : Option (K.suite name).Randomizer → Bytes → (K.suite name).Signature → Prop)
    (threshold : ℕ) : Prop where
  enough : 1 ≤ threshold
  publicKeyPackage : ∀ packages p q key key', gen.Makes D packages p key → gen.Makes D packages q key' →
    key.2 = key'.2
  identifier : ∀ packages p key, gen.Makes D packages p key →
    (K.library name).identifier key.1 = D.identifier p
  verifyingShares : ∀ packages p key, gen.Makes D packages p key →
    (L.ciphersuite name).verifyingShares key.2 = packages.keys
  complete : ∀ packages (G : SigningGroup K name), G.threshold = threshold →
    (∀ p ∈ G.pubkeys, gen.Makes D packages p (G.keyPackage p, G.publicKeyPackage)) →
    G.Complete Matches Verifies

/-- A `dkg` command, after any others, that gets its session and its key from the network and ends. -/
structure Joins (K : SigningLibraries L) (D : DkgSetup L name) (gen : DkgGenerator L name)
    (threshold : UInt16) (s : DkgNetwork S L name) (pubkey : PublicKey) (fs fs' : FileSystem L)
    (args : DkgArgs) (inputs : DkgInputs (L.ciphersuite name)) : Prop where
  run : ∃ invocations, (commands L).Run invocations fs ∧
    ∀ config key, .init config (some key) ∈ invocations → K.keyPair key.privkey = key.pubkey
  own : ∃ config, Config.read fs args.config = .ok config ∧
    config.communicationKey.map CommunicationKey.pubkey = some pubkey
  asked : args.threshold = threshold
  session : ∀ participants x, inputs.session participants = some x → x = (D.sessionId, D.members)
  part3 : ∀ maxSigners key, inputs.part3 (D.identifier pubkey) maxSigners threshold = some key →
    (s.comms pubkey).Generated D gen pubkey key
  ends : dkgForCiphersuite (L.ciphersuite name) fs args inputs = .ok fs'

def Derives (L : Libraries) (name : CiphersuiteName) (D : DkgSetup L name) : Prop :=
  ∀ p ∈ D.members, ∀ i, (L.ciphersuite name).derive D.sessionId p = some i → i = D.identifier p

section Session

variable {pubkeyMap : Map PublicKey (L.ciphersuite name).Identifier}

theorem sessionPubkeys_eq (hderives : Derives L name D)
    (h : sessionPubkeys (L.ciphersuite name) D.sessionId D.members = .ok pubkeyMap) :
    pubkeyMap = D.pubkeys ∧
      ∀ p ∈ D.members, (L.ciphersuite name).derive D.sessionId p = some (D.identifier p) := by
  have hlookup := @lookup_sessionPubkeys_iff _ _ _ _ h
  have hderive : ∀ p ∈ D.members,
      (L.ciphersuite name).derive D.sessionId p = some (D.identifier p) := by
    intro p hp
    obtain ⟨entries, hentries, -⟩ := Outcome.bind_eq_ok_iff.mp h
    obtain ⟨entries', hfst, hderived, -⟩ := Outcome.exists_of_mapM_okOr hentries
    obtain ⟨⟨_, i⟩, hmem, rfl⟩ := List.mem_map.mp (hfst ▸ hp)
    have hi := hderived _ _ hmem
    rw [hi, hderives _ hp i hi]
  refine ⟨?_, hderive⟩
  ext1 p
  apply Option.ext
  intro i
  rw [hlookup, Setup.lookup_pubkeys_iff]
  refine and_congr_right fun hp => ?_
  rw [hderive p hp, Option.some.injEq, eq_comm]

theorem sessionEntries_eq
    (h : ∀ p ∈ D.members, (L.ciphersuite name).derive D.sessionId p = some (D.identifier p)) :
    sessionEntries (L.ciphersuite name) D.sessionId D.members =
      D.members.dedup.map fun p => (D.identifier p, p) := by
  rw [sessionEntries, ← List.filterMap_eq_map]
  refine List.filterMap_congr fun p hp => ?_
  rw [h p (List.mem_dedup.mp hp)]
  rfl

end Session

section Participant

variable {pubkey : PublicKey} {fs fs' : FileSystem L} {args : DkgArgs}
  {inputs : DkgInputs (L.ciphersuite name)}

theorem Joins.heldAt (hL : L.Lawful)
    (hreads : ReadsIdentifiers _ (K.library name).deserializeIdentifier) (hD : D.Distinct)
    (hderives : Derives L name D) (hpubkey : pubkey ∈ D.members)
    (h : Joins K D gen threshold s pubkey fs fs' args inputs) :
    2 ≤ D.pubkeys.len ∧ ∃ key verifyingKey, (s.comms pubkey).Generated D gen pubkey key ∧
      (L.ciphersuite name).verifyingKey key.2 = some verifyingKey ∧
      ((L.ciphersuite name).verifyingShares key.2 = D.members.toFinset.image D.identifier →
        ∀ G : SigningGroup K name, G.members = D.members.dedup.map (fun p => (D.identifier p, p)) →
          G.publicKeyPackage = key.2 → G.keyPackage pubkey = key.1 →
          G.HeldAt fs' args.config (hexEncode verifyingKey) pubkey) := by
  obtain ⟨config, pubkey', _, _, identifier, k, p, pubkeyMap, key, group, hgenerates, hID, hencoded,
    verifyingKey, hverifyingKey, rfl⟩ := dkgForCiphersuite_stored hL h.ends
  -- the participant's own public key and its session
  obtain ⟨config', hread, hown⟩ := h.own
  obtain rfl := Outcome.ok.inj (hread.symm.trans hgenerates.rewrites.before)
  obtain rfl := Option.some.inj (hown.symm.trans hgenerates.own)
  obtain ⟨participants, hsession⟩ := hgenerates.session
  obtain ⟨rfl, rfl⟩ := Prod.mk.inj (h.session participants _ hsession)
  obtain ⟨rfl, hderive⟩ := sessionPubkeys_eq hderives hgenerates.pubkeys
  obtain rfl := hderives pubkey hpubkey identifier hgenerates.derived
  have hpart3 := hgenerates.part3
  rw [h.asked] at hpart3
  refine ⟨hgenerates.two, (k, p), verifyingKey, h.part3 _ _ hpart3, hverifyingKey,
    fun hshares G hmembers hpublic hkeyPackage => ?_⟩
  obtain ⟨pair, hpair, rfl⟩ := Option.map_eq_some_iff.mp hown
  obtain ⟨invocations, hrun, hinit⟩ := h.run
  have hgenuine := genuineKeys_of_run hL hinit hrun _ _ pair hread hpair
  have hdistinct : DerivesDistinct (L.ciphersuite name) D.sessionId D.members := by
    intro p hp q hq heq
    rw [hderive p hp, hderive q hq] at heq
    exact hD p hp q hq (Option.some.inj heq)
  have hread' := hgenerates.rewrites.after args.config
  rw [if_pos rfl] at hread'
  refine ⟨_, pair, group, hread', hpair, rfl, hgenuine, Map.lookup_insert_self _ _ _, hID, ?_, ?_, ?_, ?_⟩
  · rw [hpublic]
    exact hL.publicKeyPackage hencoded
  · rw [hkeyPackage]
    exact hL.keyPackage hgenerates.keyPackage
  · rw [hmembers, ← sessionEntries_eq hderive]
    refine hgenerates.participant_eq hreads hdistinct fun i => ?_
    rw [hshares]
    simp only [Finset.mem_image, List.mem_toFinset]
    refine exists_congr fun q => and_congr_right fun hq => ?_
    rw [hderive q hq, Option.some.injEq]
  · rw [SigningGroup.pubkeys, hmembers, List.map_map]
    exact List.mem_map.mpr ⟨_, List.mem_dedup.mpr hpubkey, rfl⟩

end Participant

theorem length_dedup_members : D.members.dedup.length = D.pubkeys.len := by
  have hkeys : D.pubkeys.keys = D.members.toFinset := by
    ext p
    rw [Setup.mem_keys_pubkeys, List.mem_toFinset]
  rw [← List.card_toFinset, ← hkeys, Map.len]

/-- The participants of a session, with key packages for their identifiers. -/
def sessionGroup (hD : D.Distinct) (hlt : D.pubkeys.len < 65536)
    (publicKeyPackage : (L.ciphersuite name).PublicKeyPackage)
    (keyPackage : PublicKey → (L.ciphersuite name).KeyPackage) {threshold : ℕ} (hpos : 1 ≤ threshold)
    (hidentifier : ∀ p ∈ D.members, (K.library name).identifier (keyPackage p) = D.identifier p) :
    SigningGroup K name where
  members := D.members.dedup.map fun p => (D.identifier p, p)
  publicKeyPackage := publicKeyPackage
  keyPackage := keyPackage
  threshold := threshold
  nodup_identifiers := by
    rw [List.map_map]
    exact (List.nodup_dedup _).map_on fun p hp q hq =>
      hD p (List.mem_dedup.mp hp) q (List.mem_dedup.mp hq)
  nodup_pubkeys := by
    rw [List.map_map]
    exact (List.nodup_dedup _).map Function.injective_id
  identifier i p hmem := by
    obtain ⟨_, hp, heq⟩ := List.mem_map.mp hmem
    obtain ⟨rfl, rfl⟩ := Prod.mk.inj heq
    exact hidentifier _ (List.mem_dedup.mp hp)
  length_lt := by
    rw [List.length_map, length_dedup_members]
    exact hlt
  threshold_pos := hpos

theorem pubkeys_sessionGroup {hD : D.Distinct} {hlt : D.pubkeys.len < 65536}
    {publicKeyPackage : (L.ciphersuite name).PublicKeyPackage}
    {keyPackage : PublicKey → (L.ciphersuite name).KeyPackage} {threshold : ℕ} {hpos : 1 ≤ threshold}
    {hidentifier : ∀ p ∈ D.members, (K.library name).identifier (keyPackage p) = D.identifier p} :
    (sessionGroup hD hlt publicKeyPackage keyPackage hpos hidentifier).pubkeys = D.members.dedup := by
  rw [SigningGroup.pubkeys, sessionGroup, List.map_map]
  exact List.map_id _

/-- When all participants of a key generation end their commands, their config files hold one group with
the threshold that was asked for, which can sign. Its members are the participants. -/
theorem generated_group_held (hL : L.Lawful)
    (hreads : ReadsIdentifiers _ (K.library name).deserializeIdentifier)
    {Matched : S.HandshakeState → S.HandshakeState → Prop}
    {Synced : S.TransportState → S.TransportState → Prop} (hS : S.InOrder Matched Synced)
    (hcodec : D.codec.Lawful) (hD : D.Distinct) (hderives : Derives L name D)
    (hlt : D.pubkeys.len < 65536)
    (hkeys : GeneratesKeys K name D gen Matches Verifies threshold.toNat)
    (h : (Network.system S D ∅).Reachable s) {before after : PublicKey → FileSystem L}
    {args : PublicKey → DkgArgs} {inputs : PublicKey → DkgInputs (L.ciphersuite name)}
    (hjoins : ∀ p ∈ D.members,
      Joins K D gen threshold s p (before p) (after p) (args p) (inputs p)) :
    ∃ (G : SigningGroup K name) (key : String), G.threshold = threshold.toNat ∧
      G.Complete Matches Verifies ∧ G.pubkeys = D.members.dedup ∧
      ∀ p ∈ D.members, G.HeldAt (after p) (args p).config key p := by
  have hheld := fun p hp => (hjoins p hp).heldAt hL hreads hD hderives hp
  obtain ⟨hlen, key₀, verifyingKey, hkey₀, hverifyingKey, -⟩ := hheld D.creator D.creator_mem
  have hgenuine := genuine_of_reachable hS hcodec h
  -- the first-round packages that all participants used
  obtain ⟨r1, r2, made, -, hfinished, -⟩ := id hkey₀
  obtain ⟨packages, hshared⟩ := exists_shared hD hlen h hgenuine D.creator_mem
    (Finset.notMem_empty _) hfinished
  have hmakes : ∀ p ∈ D.members, ∀ key, (s.comms p).Generated D gen p key →
      gen.Makes D packages p key :=
    fun p hp key hkey => makes_of_generated hD hlen h hgenuine hshared rfl hp hkey
  have hpublic : ∀ p ∈ D.members, ∀ key, (s.comms p).Generated D gen p key → key.2 = key₀.2 :=
    fun p hp key hkey => hkeys.publicKeyPackage packages p D.creator key key₀ (hmakes p hp key hkey)
      (hmakes _ D.creator_mem _ hkey₀)
  have hshares : (L.ciphersuite name).verifyingShares key₀.2 =
      D.members.toFinset.image D.identifier :=
    (hkeys.verifyingShares _ _ _ (hmakes _ D.creator_mem _ hkey₀)).trans hshared.keys
  -- a key package for every public key, that of its command for a participant
  have hkeyPackage : ∀ p, ∃ k, p ∈ D.members → gen.Makes D packages p (k, key₀.2) ∧
      ∀ G : SigningGroup K name, G.members = D.members.dedup.map (fun p => (D.identifier p, p)) →
        G.publicKeyPackage = key₀.2 → G.keyPackage p = k →
        G.HeldAt (after p) (args p).config (hexEncode verifyingKey) p := by
    intro p
    by_cases hp : p ∈ D.members
    · obtain ⟨-, ⟨k, _⟩, verifyingKey', hkey, hverifyingKey', hholds⟩ := hheld p hp
      obtain rfl := hpublic p hp _ hkey
      obtain rfl := Option.some.inj (hverifyingKey.symm.trans hverifyingKey')
      exact ⟨k, fun _ => ⟨hmakes p hp _ hkey, hholds hshares⟩⟩
    · exact ⟨key₀.1, fun hmem => absurd hmem hp⟩
  choose keyPackage hkeyPackage using hkeyPackage
  have hmember : ∀ p ∈ D.members, gen.Makes D packages p (keyPackage p, key₀.2) :=
    fun p hp => (hkeyPackage p hp).1
  let G := sessionGroup hD hlt key₀.2 keyPackage hkeys.enough fun p hp =>
    hkeys.identifier _ _ _ (hmember p hp)
  refine ⟨G, hexEncode verifyingKey, rfl, hkeys.complete packages G rfl fun p hp => ?_,
    pubkeys_sessionGroup, fun p hp => (hkeyPackage p hp).2 G rfl rfl rfl⟩
  rw [pubkeys_sessionGroup] at hp
  exact hmember p (List.mem_dedup.mp hp)

/-- The key package of a participant is its identifier. -/
def sampleGenerating : DkgGenerator sampleSigning .redpallas where
  part3 p (r1 : Map (Fin 256) UInt8) _ :=
    some (Network.pair.identifier p, (insert (Network.pair.identifier p) r1.keys : Finset (Fin 256)))
  evenY := none

theorem sampleGenerating_makes {packages : Map (Fin 256) UInt8} {p : PublicKey}
    {key : Fin 256 × Finset (Fin 256)} (h : sampleGenerating.Makes Network.pair packages p key) :
    key = (Network.pair.identifier p, packages.keys) := by
  obtain ⟨hown, r2, made, hpart3, rfl, -⟩ := h
  obtain rfl := Option.some.inj hpart3
  refine Prod.ext rfl ?_
  exact (congrArg (insert _) (Map.keys_erase packages _)).trans
    (Finset.insert_erase (Map.mem_keys_of_lookup hown))

theorem sampleGenerating_keys : GeneratesKeys sampleSigningLibraries .redpallas Network.pair
    sampleGenerating Http.sampleMatches Http.sampleVerifies 2 where
  enough := by decide
  publicKeyPackage packages p q key key' h h' := by
    rw [sampleGenerating_makes h, sampleGenerating_makes h']
  identifier packages p key h := by
    rw [sampleGenerating_makes h]
    rfl
  verifyingShares packages p key h := by
    rw [sampleGenerating_makes h]
    rfl
  complete _ G _ _ := sampleSigning_complete G

/-- The commands with which a participant gets to know the other one. -/
def sampleMeets (p : PublicKey) : List (Invocation sampleSigning) :=
  [.init (some "a") (some ⟨p.bytes, p⟩), .importContact (hexEncode (samplePeer p).bytes) (some "a")]

def sampleMetConfig (p : PublicKey) : Config := { Config.default with
  communicationKey := some ⟨p.bytes, p⟩
  contact := Map.insert (∅ : Map String Contact) (hexEncode (samplePeer p).bytes)
    ⟨none, hexEncode (samplePeer p).bytes, samplePeer p⟩ }

def sampleMet (p : PublicKey) : FileSystem sampleSigning :=
  Map.insert (∅ : Map String Config) "a" (sampleMetConfig p)

theorem mem_pair {p : PublicKey} (h : p ∈ Network.pair.members) : p = ⟨[1]⟩ ∨ p = ⟨[2]⟩ := by
  have hall : ∀ p ∈ Network.pair.members, p = ⟨[1]⟩ ∨ p = ⟨[2]⟩ := by decide
  exact hall p h

theorem sampleMeets_run {p : PublicKey} (h : p ∈ Network.pair.members) :
    (commands sampleSigning).Run (sampleMeets p) (sampleMet p) := by
  have hstart : (commands sampleSigning).Run [] ∅ := .start rfl
  have hone : (commands sampleSigning).Run [.init (some "a") (some ⟨p.bytes, p⟩)]
      (Map.insert (∅ : Map String Config) "a" { Config.default with
        communicationKey := some ⟨p.bytes, p⟩ }) :=
    hstart.snoc rfl
  refine hone.snoc ?_
  rcases mem_pair h with rfl | rfl
  · rfl
  · rfl

def samplePairShares : Finset (Fin 256) := insert (UInt8.toFin 1) {UInt8.toFin 2}

noncomputable def sampleJoining (p : PublicKey) : DkgInputs (sampleSigning.ciphersuite .redpallas) where
  session _ := some (0, Network.pair.members)
  msgs := [⟨samplePeer p, 1 :: (samplePeer p).bytes⟩, ⟨samplePeer p, 3 :: (samplePeer p).bytes⟩]
  part3 := fun _ _ _ => some (Network.pair.identifier p, samplePairShares)
  iterate := (sampleInputs ⟨[1]⟩).iterate

def samplePairArgs : DkgArgs := ⟨some "a", "group", "localhost", "redpallas", 2, []⟩

theorem exists_samplePairTable : ∃ table,
    dkgParticipants (C := sampleSigning.ciphersuite .redpallas) samplePairShares
      (reversePubkeyMap Network.pair.pubkeys ((sampleInputs ⟨[1]⟩).iterate Network.pair.pubkeys.keys)) =
        .ok table := by
  have hsort : samplePairShares.sort (· ≤ ·) = ([1, 2] : Bytes).map UInt8.toFin := by
    rw [samplePairShares, Finset.sort_insert (· ≤ ·), Finset.sort_singleton]
    · rfl
    · intro i hi
      rw [Finset.mem_singleton.mp hi]
      decide
    · decide
  apply Outcome.isOk_iff.mp
  unfold dkgParticipants
  change ((Outcome.mapM _ (samplePairShares.sort (· ≤ ·))).bind _).isOk = true
  rw [hsort]
  decide

theorem sampleJoining_ends {p : PublicKey} (h : p ∈ Network.pair.members) :
    ∃ fs', dkgForCiphersuite (sampleSigning.ciphersuite .redpallas) (sampleMet p) samplePairArgs
      (sampleJoining p) = .ok fs' := by
  obtain ⟨table, htable⟩ := exists_samplePairTable
  refine ⟨_, Outcome.bind_eq_ok_iff.mpr ⟨_, rfl, Outcome.bind_eq_ok_iff.mpr ⟨_, rfl,
    Outcome.bind_eq_ok_iff.mpr ⟨_, rfl, Outcome.bind_eq_ok_iff.mpr ⟨_, rfl,
    Outcome.bind_eq_ok_iff.mpr ⟨_, rfl, Outcome.bind_eq_ok_iff.mpr
    ⟨(Network.pair.identifier p, samplePairShares, Network.pair.pubkeys), ?_,
    Outcome.bind_eq_ok_iff.mpr ⟨_, htable, rfl⟩⟩⟩⟩⟩⟩⟩⟩
  rcases mem_pair h with rfl | rfl <;> rfl

theorem pair_distinct : Network.pair.Distinct := by decide

theorem exists_samplePairRun : ∃ s : DkgNetwork Network.sampleSnow sampleSigning .redpallas,
    (Network.system Network.sampleSnow Network.pair ∅).Reachable s ∧
    ∀ p ∈ Network.pair.members, ∃ r2, (s.comms p).phase = .finished r2 := by
  obtain ⟨s, hrun, hone, htwo⟩ := Network.exists_run_of_sampleExec Network.pair ∅ (fun _ => True)
    (fun s => ((s.comms ⟨[1]⟩).phase.returned).isSome ∧ ((s.comms ⟨[2]⟩).phase.returned).isSome)
    (Network.sampleActions Network.pair [1, 2, 1, 2, 1, 2, 1, 2, 2, 2, 1, 1, 1]) (by decide) trivial
    (by decide +kernel)
  refine ⟨s, hrun.of_within.reachable, fun p hp => ?_⟩
  rcases mem_pair hp with rfl | rfl
  · obtain ⟨r2, hr2⟩ := Option.isSome_iff_exists.mp hone
    exact ⟨r2, Phase.eq_finished hr2⟩
  · obtain ⟨r2, hr2⟩ := Option.isSome_iff_exists.mp htwo
    exact ⟨r2, Phase.eq_finished hr2⟩

theorem sampleJoining_joins {s : DkgNetwork Network.sampleSnow sampleSigning .redpallas}
    (h : (Network.system Network.sampleSnow Network.pair ∅).Reachable s) {p : PublicKey}
    (hp : p ∈ Network.pair.members) {r2 : Map (Fin 256) UInt8} (hphase : (s.comms p).phase = .finished r2)
    {fs' : FileSystem sampleSigning}
    (hends : dkgForCiphersuite (sampleSigning.ciphersuite .redpallas) (sampleMet p) samplePairArgs
      (sampleJoining p) = .ok fs') :
    Joins sampleSigningLibraries Network.pair sampleGenerating 2 s p (sampleMet p) fs' samplePairArgs
      (sampleJoining p) where
  run := by
    refine ⟨sampleMeets p, sampleMeets_run hp, fun config key hmem => ?_⟩
    obtain hinit | himport := List.mem_cons.mp hmem
    · obtain ⟨-, hkey⟩ := Invocation.init.inj hinit
      rw [Option.some.inj hkey]
      rfl
    · cases List.mem_singleton.mp himport
  own := ⟨_, rfl, rfl⟩
  asked := rfl
  session _ x hx := (Option.some.inj hx).symm
  part3 maxSigners key hkey := by
    obtain rfl := Option.some.inj hkey
    have hgenuine := genuine_of_reachable Network.sampleSnow_inOrder Network.sampleCodec_lawful h
    obtain ⟨r1, hused⟩ := exists_used_of_finished (by decide) h hphase
    have hr1 := keys_of_used h hgenuine hp (Finset.notMem_empty _) (by decide) (by decide) hused
    refine ⟨r1, r2, _, hused, hphase, rfl, ?_⟩
    refine Prod.ext rfl ?_
    change samplePairShares = insert _ r1.keys
    rw [hr1]
    rcases mem_pair hp with rfl | rfl
    · decide
    · decide
  ends := hends

theorem generated_group_held_sample : ∃ (after : PublicKey → FileSystem sampleSigning)
    (G : SigningGroup sampleSigningLibraries .redpallas) (key : String),
    (∀ p ∈ Network.pair.members, dkgForCiphersuite (sampleSigning.ciphersuite .redpallas) (sampleMet p)
      samplePairArgs (sampleJoining p) = .ok (after p)) ∧
    G.pubkeys = [⟨[1]⟩, ⟨[2]⟩] ∧
    ∀ p ∈ Network.pair.members, G.HeldAt (after p) (some "a") key p := by
  have hends : ∀ p, ∃ fs', p ∈ Network.pair.members → dkgForCiphersuite
      (sampleSigning.ciphersuite .redpallas) (sampleMet p) samplePairArgs (sampleJoining p) = .ok fs' := by
    intro p
    by_cases hp : p ∈ Network.pair.members
    · obtain ⟨fs', hfs'⟩ := sampleJoining_ends hp
      exact ⟨fs', fun _ => hfs'⟩
    · exact ⟨∅, fun hmem => absurd hmem hp⟩
  choose after hafter using hends
  obtain ⟨s, hreach, hfinished⟩ := exists_samplePairRun
  obtain ⟨G, key, -, -, hpubkeys, hheld⟩ := generated_group_held sampleSigning_lawful
    (sampleSigning_reads .redpallas) Network.sampleSnow_inOrder Network.sampleCodec_lawful pair_distinct
    (fun p hp i hi => by
      rcases mem_pair hp with rfl | rfl
      · exact (Option.some.inj hi).symm
      · exact (Option.some.inj hi).symm)
    (by decide) sampleGenerating_keys hreach fun p hp => by
      obtain ⟨r2, hphase⟩ := hfinished p hp
      exact sampleJoining_joins hreach hp hphase (hafter p hp)
  exact ⟨after, G, key, hafter, hpubkeys, hheld⟩

end FrostTools.Signing
