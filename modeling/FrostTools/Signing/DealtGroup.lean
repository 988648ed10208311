import FrostTools.Client.Dealing
import FrostTools.Signing.Groups

namespace FrostTools.Client

variable {L : Libraries} {name : CiphersuiteName} {fs fs' : FileSystem L} {args : TrustedDealerArgs}
  {shares : Map (L.ciphersuite name).Identifier (L.ciphersuite name).SecretShare}
  {publicKeyPackage : (L.ciphersuite name).PublicKeyPackage}
  {dealt : List ((L.ciphersuite name).Identifier × Contact)}

theorem Deals.stored (hL : L.Lawful) (h : Deals fs fs' args shares publicKeyPackage dealt)
    (hnodup : args.config.Nodup) {share : (L.ciphersuite name).SecretShare} {path : String}
    (hzip : (share, path) ∈ (shares.toSortedList.map Prod.snd).zip args.config) {config : Config}
    (hread : Config.read fs (some path) = .ok config) :
    ∃ config' k keyPackage encoded verifyingKey, Config.read fs' (some path) = .ok config' ∧
      config'.communicationKey = config.communicationKey ∧
      (L.ciphersuite name).keyPackageTryFrom share = some k ∧
      (L.ciphersuite name).encodeKeyPackage k = some keyPackage ∧
      (L.ciphersuite name).encodePublicKeyPackage publicKeyPackage = some encoded ∧
      (L.ciphersuite name).verifyingKey publicKeyPackage = some verifyingKey ∧
      config'.group.lookup (hexEncode verifyingKey) = some ⟨args.description,
        (L.ciphersuite name).ID, encoded, keyPackage, args.serverUrl, participantsOf dealt⟩ := by
  obtain ⟨before, after, hsplit⟩ := List.append_of_mem hzip
  have hlast : path ∉ after.map Prod.snd := by
    rw [← h.paths, hsplit, List.map_append, List.map_cons] at hnodup
    exact (List.nodup_cons.mp (List.nodup_append.mp hnodup).2.1).1
  have hsecond := h.secondPass
  rw [hsplit, Outcome.foldM_append] at hsecond
  obtain ⟨fs₁, hbefore, hsecond⟩ := Outcome.bind_eq_ok_iff.mp hsecond
  obtain ⟨fs₂, hstore, hafter⟩ := Outcome.bind_eq_ok_iff.mp hsecond
  obtain ⟨config₁, hread₁, hstored, hsame⟩ := storeShares_ok hL hbefore hread
  have hkey : config₁.communicationKey = config.communicationKey := by
    by_cases hmem : Config.parsePath L (some path) ∈ before.map Prod.snd
    · obtain ⟨_, _, -, -, -, rfl⟩ := hstored hmem
      rfl
    · rw [hsame hmem]
  obtain ⟨config₁', k, keyPackage, encoded, verifyingKey, htry, hk, hp, hv, hrewrites⟩ :=
    storeShare_cases hL hstore
  obtain rfl := Outcome.ok.inj (hread₁.symm.trans hrewrites.before)
  have hread₂ := hrewrites.after (some path)
  rw [if_pos rfl] at hread₂
  obtain ⟨config', hread', -, hunchanged⟩ := storeShares_ok hL hafter hread₂
  obtain rfl := hunchanged hlast
  exact ⟨_, k, keyPackage, encoded, verifyingKey, hread', hkey, htry, hk, hp, hv,
    Map.lookup_insert_self _ _ _⟩

structure Gives (fs fs' : FileSystem L) (args : TrustedDealerArgs)
    (shares : Map (L.ciphersuite name).Identifier (L.ciphersuite name).SecretShare)
    (publicKeyPackage : (L.ciphersuite name).PublicKeyPackage)
    (dealt : List ((L.ciphersuite name).Identifier × Contact)) (i : ℕ)
    (identifier : (L.ciphersuite name).Identifier) (path : String) (pubkey : PublicKey)
    (k : (L.ciphersuite name).KeyPackage) : Prop where
  listed : args.config[i]? = some path
  entry : (dealt.map fun e => (e.1, e.2.pubkey))[i]? = some (identifier, pubkey)
  share : ∃ share, shares.lookup identifier = some share ∧
    (L.ciphersuite name).keyPackageTryFrom share = some k
  config : ∃ config key config' keyPackage encoded verifyingKey,
    Config.read fs (some path) = .ok config ∧ config.communicationKey = some key ∧
    key.pubkey = pubkey ∧ Config.read fs' (some path) = .ok config' ∧
    config'.communicationKey = some key ∧
    (L.ciphersuite name).encodeKeyPackage k = some keyPackage ∧
    (L.ciphersuite name).encodePublicKeyPackage publicKeyPackage = some encoded ∧
    (L.ciphersuite name).verifyingKey publicKeyPackage = some verifyingKey ∧
    config'.group.lookup (hexEncode verifyingKey) = some ⟨args.description,
      (L.ciphersuite name).ID, encoded, keyPackage, args.serverUrl, participantsOf dealt⟩

theorem Deals.exists_gives (hL : L.Lawful) (hdeals : Deals fs fs' args shares publicKeyPackage dealt)
    (hnodup : args.config.Nodup) {i : ℕ} (hi : i < args.numSigners.toNat) :
    ∃ identifier path pubkey k, Gives fs fs' args shares publicKeyPackage dealt i identifier path pubkey k := by
  obtain ⟨identifier, share, path, contact, config, key, hshare, hpath, hentry, hread, hkey, hpubkey⟩ :=
    hdeals.place hi
  have hzip : (share, path) ∈ (shares.toSortedList.map Prod.snd).zip args.config := by
    apply List.mem_of_getElem? (i := i)
    rw [List.getElem?_zip_eq_some, List.getElem?_map, hshare]
    exact ⟨rfl, hpath⟩
  obtain ⟨config', k, keyPackage, encoded, verifyingKey, hread', hkey', htry, hk, hp, hv, hgroup⟩ :=
    hdeals.stored hL hnodup hzip hread
  refine ⟨identifier, path, contact.pubkey, k, hpath, ?_, ?_, config, key, config', keyPackage, encoded,
    verifyingKey, hread, hkey, hpubkey, hread', hkey'.trans hkey, hk, hp, hv, hgroup⟩
  · rw [List.getElem?_map, hentry]
    rfl
  · exact ⟨share, Map.mem_toSortedList.mp (List.mem_of_getElem? hshare), htry⟩

end FrostTools.Client

namespace FrostTools.Signing
open Client

variable {L : Libraries} {K : SigningLibraries L} {name : CiphersuiteName}

/-- The key pairs in the config files belong together. -/
def GenuineKeys (K : SigningLibraries L) (fs : FileSystem L) : Prop :=
  ∀ path config key, Config.read fs path = .ok config → config.communicationKey = some key →
    K.keyPair key.privkey = key.pubkey

/-- A dealing has enough shares, each for the identifier that it is listed under, and any `threshold`
of its key packages sign. -/
structure DealsKeys (K : SigningLibraries L) (name : CiphersuiteName)
    (Matches : (K.suite name).SigningNonces → (K.suite name).SigningCommitments → Prop)
    (Verifies : Option (K.suite name).Randomizer → Bytes → (K.suite name).Signature → Prop)
    (threshold : ℕ)
    (x : Map (L.ciphersuite name).Identifier (L.ciphersuite name).SecretShare ×
      (L.ciphersuite name).PublicKeyPackage) : Prop where
  enough : 1 ≤ threshold ∧ threshold ≤ x.1.len
  identifier : ∀ i share k, x.1.lookup i = some share →
    (L.ciphersuite name).keyPackageTryFrom share = some k → (K.library name).identifier k = i
  complete : ∀ G : SigningGroup K name, G.threshold = threshold → G.publicKeyPackage = x.2 →
    (∀ i p, (i, p) ∈ G.members → ∃ share, x.1.lookup i = some share ∧
      (L.ciphersuite name).keyPackageTryFrom share = some (G.keyPackage p)) →
    G.Complete Matches Verifies

/-- What `frost-core` deals. -/
def DealerLawful (K : SigningLibraries L) (name : CiphersuiteName)
    (Matches : (K.suite name).SigningNonces → (K.suite name).SigningCommitments → Prop)
    (Verifies : Option (K.suite name).Randomizer → Bytes → (K.suite name).Signature → Prop) : Prop :=
  ∀ maxSigners minSigners rng x,
    (L.ciphersuite name).generateWithDealer maxSigners minSigners rng = some x →
      DealsKeys K name Matches Verifies minSigners.toNat ((L.ciphersuite name).intoEvenY x)

section Keys

variable {fs fs' : FileSystem L} {path : Option String} {config config' : Config}

theorem genuineKeys_of_rewrites (h : Rewrites fs fs' path config config') (hfs : GenuineKeys K fs)
    (hkey : ∀ key, config'.communicationKey = some key → config.communicationKey = some key ∨
      K.keyPair key.privkey = key.pubkey) : GenuineKeys K fs' := by
  intro path' config'' key hread hlookup
  rw [h.after] at hread
  split_ifs at hread
  · obtain rfl := Outcome.ok.inj hread
    rcases hkey key hlookup with hold | hnew
    · exact hfs path config key h.before hold
    · exact hnew
  · exact hfs path' config'' key hread hlookup

theorem genuineKeys_execute (hL : L.Lawful) {invocation : Invocation L} (hsound : Sound fs)
    (hinit : ∀ config key, invocation = .init config (some key) → K.keyPair key.privkey = key.pubkey)
    (hfs : GenuineKeys K fs) (h : execute fs invocation = .ok fs') : GenuineKeys K fs' := by
  cases invocation with
  | init path keypair =>
    obtain ⟨config, config', hrewrites, rfl | ⟨-, key, rfl, rfl⟩⟩ := init_cases hL h
    · exact genuineKeys_of_rewrites hrewrites hfs fun _ hkey => .inl hkey
    · refine genuineKeys_of_rewrites hrewrites hfs fun key' hkey' => .inr ?_
      obtain rfl := Option.some.inj hkey'
      exact hinit path key rfl
  | importContact text path =>
    obtain ⟨config, contact, -, -, -, -, hrewrites⟩ := importContact_cases hL h
    exact genuineKeys_of_rewrites hrewrites hfs fun _ hkey => .inl hkey
  | removeContact path pubkey =>
    obtain ⟨config, name, contact, -, hrewrites⟩ := removeContact_ok hL h
    exact genuineKeys_of_rewrites hrewrites hfs fun _ hkey => .inl hkey
  | trustedDealer args rng =>
    obtain ⟨_, _, _, _, -, -, -, hafter⟩ := trustedDealer_ok hL h
    intro path config' key hread' hkey
    obtain ⟨config, hread, -⟩ := hsound path
    obtain ⟨config'', hread'', hstored, hsame⟩ := hafter path config hread
    obtain rfl := Outcome.ok.inj (hread'.symm.trans hread'')
    by_cases hpath : Config.parsePath L path ∈ args.config
    · obtain ⟨_, _, -, -, -, rfl⟩ := hstored hpath
      exact hfs path config key hread hkey
    · rw [hsame hpath] at hkey
      exact hfs path config key hread hkey
  | dkg args inputs =>
    obtain ⟨config, key, group, hrewrites, -, -⟩ := dkg_ok hL h
    exact genuineKeys_of_rewrites hrewrites hfs fun _ hkey => .inl hkey
  | removeGroup path group =>
    obtain ⟨config, hrewrites⟩ := removeGroup_cases hL h
    exact genuineKeys_of_rewrites hrewrites hfs fun _ hkey => .inl hkey

theorem genuineKeys_of_run (hL : L.Lawful) {invocations : List (Invocation L)}
    (hinit : ∀ config key, .init config (some key) ∈ invocations → K.keyPair key.privkey = key.pubkey)
    (h : (commands L).Run invocations fs) : GenuineKeys K fs := by
  induction h with
  | start hstart =>
    obtain rfl := hstart
    intro path config key hread hkey
    simp only [Config.read, Map.lookup_empty, Outcome.ok.injEq] at hread
    subst hread
    cases hkey
  | @snoc invocations fs fs' invocation hrun hstep ih =>
    refine genuineKeys_execute hL (sound_of_reachable hL ⟨invocations, hrun⟩) ?_
      (ih fun config key hmem => hinit config key (List.mem_append_left _ hmem)) hstep
    rintro config key rfl
    exact hinit config key (List.mem_append_right _ List.mem_cons_self)

end Keys

section Group

variable {fs fs' : FileSystem L} {args : TrustedDealerArgs}
  {shares : Map (L.ciphersuite name).Identifier (L.ciphersuite name).SecretShare}
  {publicKeyPackage : (L.ciphersuite name).PublicKeyPackage}
  {dealt : List ((L.ciphersuite name).Identifier × Contact)}
  {Matches : (K.suite name).SigningNonces → (K.suite name).SigningCommitments → Prop}
  {Verifies : Option (K.suite name).Randomizer → Bytes → (K.suite name).Signature → Prop}

/-- The users of different config files, each with the key package of its share. -/
theorem exists_dealtGroup (hL : L.Lawful)
    (hdeals : Deals fs fs' args shares publicKeyPackage dealt)
    (hkeys : DealsKeys K name Matches Verifies args.threshold.toNat (shares, publicKeyPackage))
    (hdifferent : DifferentUsers fs args.config) : ∃ G : SigningGroup K name,
      G.members = dealt.map (fun e => (e.1, e.2.pubkey)) ∧ G.publicKeyPackage = publicKeyPackage ∧
      G.threshold = args.threshold.toNat ∧
      ∀ i p, (i, p) ∈ G.members → ∃ share, shares.lookup i = some share ∧
        (L.ciphersuite name).keyPackageTryFrom share = some (G.keyPackage p) := by
  have hgives := fun i (hi : i < args.numSigners.toNat) =>
    hdeals.exists_gives hL (List.Nodup.of_map _ hdifferent) hi
  have hlength : (dealt.map fun e => (e.1, e.2.pubkey)).length = args.numSigners.toNat :=
    (List.length_map _).trans hdeals.length_dealt
  have hpubkeys := hdeals.differentUsers_iff.mp hdifferent
  have hpos : 0 < args.numSigners.toNat := by
    rw [← hdeals.shares]
    exact Nat.lt_of_lt_of_le hkeys.enough.1 hkeys.enough.2
  obtain ⟨_, _, _, k₀, -⟩ := hgives 0 hpos
  -- a key package for every public key, that of its share for a member
  have hkeyPackage : ∀ p, ∃ k, ∀ i, (i, p) ∈ dealt.map (fun e => (e.1, e.2.pubkey)) →
      ∃ share, shares.lookup i = some share ∧
        (L.ciphersuite name).keyPackageTryFrom share = some k := by
    intro p
    by_cases hp : ∃ i, (i, p) ∈ dealt.map (fun e => (e.1, e.2.pubkey))
    · obtain ⟨i, hi⟩ := hp
      obtain ⟨n, hn⟩ := List.mem_iff_getElem?.mp hi
      obtain ⟨j, path, q, k, hgiven⟩ := hgives n (hlength ▸ (List.getElem?_eq_some_iff.mp hn).1)
      obtain ⟨rfl, rfl⟩ := Prod.mk.inj (Option.some.inj (hn.symm.trans hgiven.entry))
      refine ⟨k, fun i' hi' => ?_⟩
      obtain rfl := (Prod.mk.inj (List.inj_on_of_nodup_map hpubkeys hi hi' rfl)).1
      exact hgiven.share
    · exact ⟨k₀, fun i hi => absurd ⟨i, hi⟩ hp⟩
  choose keyPackage hkeyPackage using hkeyPackage
  refine ⟨{
    members := dealt.map fun e => (e.1, e.2.pubkey)
    publicKeyPackage, keyPackage
    threshold := args.threshold.toNat
    nodup_identifiers := hdeals.nodup_identifiers
    nodup_pubkeys := hpubkeys
    identifier := fun i p hmem => ?_
    length_lt := hlength ▸ args.numSigners.toNat_lt
    threshold_pos := hkeys.enough.1 }, rfl, rfl, rfl, fun i p => hkeyPackage p i⟩
  obtain ⟨share, hshare, htry⟩ := hkeyPackage p i hmem
  exact hkeys.identifier i share _ hshare htry

theorem heldAt_of_deals (hL : L.Lawful) (hdeals : Deals fs fs' args shares publicKeyPackage dealt)
    (hnodup : args.config.Nodup) (hfs : GenuineKeys K fs) {G : SigningGroup K name}
    (hmembers : G.members = dealt.map (fun e => (e.1, e.2.pubkey)))
    (hpublic : G.publicKeyPackage = publicKeyPackage)
    (hkeyPackage : ∀ i p, (i, p) ∈ G.members → ∃ share, shares.lookup i = some share ∧
      (L.ciphersuite name).keyPackageTryFrom share = some (G.keyPackage p))
    {verifyingKey : Bytes}
    (hverifyingKey : (L.ciphersuite name).verifyingKey publicKeyPackage = some verifyingKey)
    {path : String} {pubkey : PublicKey} (hmem : path ∈ args.config)
    (hpubkey : communicationPubkey fs path = some pubkey) :
    G.HeldAt fs' (some path) (hexEncode verifyingKey) pubkey := by
  obtain ⟨n, hn⟩ := List.mem_iff_getElem?.mp hmem
  obtain ⟨identifier, path', q, k, hgiven⟩ :=
    hdeals.exists_gives hL hnodup (hdeals.config ▸ (List.getElem?_eq_some_iff.mp hn).1)
  obtain rfl := Option.some.inj (hn.symm.trans hgiven.listed)
  obtain ⟨config, key, config', keyPackage', encoded, verifyingKey', hread, hkey, hq, hread', hkey',
    hk, hp, hv, hgroup⟩ := hgiven.config
  obtain rfl := Option.some.inj (hverifyingKey.symm.trans hv)
  have hown := communicationPubkey_eq_some_iff.mpr ⟨config, key, hread, hkey, hq⟩
  obtain rfl := Option.some.inj (hpubkey.symm.trans hown)
  have hentry : (identifier, pubkey) ∈ G.members := hmembers ▸ List.mem_of_getElem? hgiven.entry
  obtain ⟨share, hshare, htry⟩ := hgiven.share
  obtain ⟨share', hshare', htry'⟩ := hkeyPackage identifier pubkey hentry
  obtain rfl := Option.some.inj (hshare.symm.trans hshare')
  refine ⟨config', key, _, hread', hkey', hq, ?_, hgroup, rfl, ?_, ?_, ?_, List.mem_map_of_mem hentry⟩
  · rw [hfs _ config key hread hkey, hq]
  · rw [hpublic]
    exact hL.publicKeyPackage hp
  · exact (hL.keyPackage hk).trans (htry.symm.trans htry')
  · rw [hmembers]
    exact participantsOf_eq dealt

end Group

/-- The config files have different users if and only if `trusted-dealer` makes a group of them that can
sign: its members are the users in the order of the files, and each file holds the group. -/
theorem dealt_group_held (hL : L.Lawful)
    {Matches : (K.suite name).SigningNonces → (K.suite name).SigningCommitments → Prop}
    {Verifies : Option (K.suite name).Randomizer → Bytes → (K.suite name).Signature → Prop}
    (hdealer : DealerLawful K name Matches Verifies) {invocations : List (Invocation L)}
    (hinit : ∀ config key, .init config (some key) ∈ invocations → K.keyPair key.privkey = key.pubkey)
    {fs fs' : FileSystem L} (hrun : (commands L).Run invocations fs) {args : TrustedDealerArgs} {rng : ℕ}
    (hname : ciphersuiteOf args.ciphersuite = .ok name)
    (hdeal : execute fs (.trustedDealer args rng) = .ok fs') :
    DifferentUsers fs args.config ↔ ∃ (G : SigningGroup K name) (key : String),
      G.threshold = args.threshold.toNat ∧ G.Complete Matches Verifies ∧
      args.config.map (communicationPubkey fs) = G.pubkeys.map some ∧
      ∀ path pubkey, path ∈ args.config → communicationPubkey fs path = some pubkey →
        G.HeldAt fs' (some path) key pubkey := by
  constructor
  · intro hdifferent
    have hdealt : trustedDealerForCiphersuite (L.ciphersuite name) fs args rng = .ok fs' := by
      rwa [execute, trustedDealer, hname] at hdeal
    obtain ⟨shares, publicKeyPackage, dealt, hkeygen, hdeals⟩ := trustedDealerForCiphersuite_cases hL hdealt
    have hkeys : DealsKeys K name Matches Verifies args.threshold.toNat (shares, publicKeyPackage) := by
      obtain ⟨x, hgenerate, hkeygen⟩ := Outcome.bind_eq_ok_iff.mp hkeygen
      have hx := hdealer _ _ _ _ (Outcome.okOr_eq_ok_iff.mp hgenerate)
      simp only at hkeygen
      split_ifs at hkeygen
      rwa [← Outcome.ok.inj hkeygen]
    obtain ⟨G, hmembers, hpublic, hthreshold, hkeyPackage⟩ := exists_dealtGroup hL hdeals hkeys hdifferent
    have hnodup : args.config.Nodup := List.Nodup.of_map _ hdifferent
    have hpos : 0 < args.numSigners.toNat := by
      rw [← hdeals.shares]
      exact Nat.lt_of_lt_of_le hkeys.enough.1 hkeys.enough.2
    obtain ⟨_, _, _, _, hgiven⟩ := hdeals.exists_gives hL hnodup hpos
    obtain ⟨_, _, _, _, _, verifyingKey, -, -, -, -, -, -, -, hverifyingKey, -⟩ := hgiven.config
    refine ⟨G, hexEncode verifyingKey, hthreshold, hkeys.complete G hthreshold hpublic hkeyPackage, ?_,
      fun path pubkey => heldAt_of_deals hL hdeals hnodup (genuineKeys_of_run hL hinit hrun) hmembers
        hpublic hkeyPackage hverifyingKey⟩
    rw [← hdeals.map_dealt.2, SigningGroup.pubkeys, hmembers, List.map_map, List.map_map]
    rfl
  · rintro ⟨G, key, -, -, hpubkeys, -⟩
    rw [DifferentUsers, hpubkeys]
    exact G.nodup_pubkeys.map (Option.some_injective _)

theorem sampleSigning_dealerLawful : DealerLawful sampleSigningLibraries .redpallas
    Http.sampleMatches Http.sampleVerifies := by
  intro maxSigners minSigners rng x hx
  obtain ⟨hsigners, hx⟩ := Option.ite_none_right_eq_some.mp hx
  obtain rfl := Option.some.inj hx
  exact {
    enough := ⟨hsigners.1, by
      change _ ≤ (sampleSigningShares _).len
      rw [len_sampleSigningShares hsigners.2.2]
      exact UInt16.le_iff_toNat_le.mp hsigners.2.1⟩
    identifier := fun i share k hshare hk => by
      obtain ⟨n, -, hn⟩ := List.mem_map.mp (Map.mem_of_lookup_ofList hshare)
      obtain ⟨rfl, rfl⟩ := Prod.mk.inj hn
      exact (Option.some.inj hk).symm
    complete := fun G _ _ _ => sampleSigning_complete G }

def sampleInit (fs : FileSystem sampleSigning) (path : String) (b : UInt8) : FileSystem sampleSigning :=
  Map.insert (K := String) (V := Config) fs path { Config.default with
    communicationKey := some ⟨(Http.sampleKey b).bytes, Http.sampleKey b⟩ }

def sampleKeyInits : List (Invocation sampleSigning) :=
  [.init (some "a") (some ⟨(Http.sampleKey 1).bytes, Http.sampleKey 1⟩),
    .init (some "b") (some ⟨(Http.sampleKey 2).bytes, Http.sampleKey 2⟩)]

def sampleInitialized : FileSystem sampleSigning := sampleInit (sampleInit ∅ "a" 1) "b" 2

theorem sampleKeyInits_run : (commands sampleSigning).Run sampleKeyInits sampleInitialized := by
  have hstart : (commands sampleSigning).Run [] ∅ := .start rfl
  have hone : (commands sampleSigning).Run
    [.init (some "a") (some ⟨(Http.sampleKey 1).bytes, Http.sampleKey 1⟩)] (sampleInit ∅ "a" 1) :=
    hstart.snoc rfl
  exact hone.snoc rfl

theorem sampleKeyInits_genuine {config : Option String} {key : CommunicationKey}
    (h : .init config (some key) ∈ sampleKeyInits) :
    sampleSigningLibraries.keyPair key.privkey = key.pubkey := by
  simp only [sampleKeyInits, List.mem_cons, List.not_mem_nil, or_false, Invocation.init.injEq,
    Option.some.injEq] at h
  obtain ⟨-, rfl⟩ | ⟨-, rfl⟩ := h <;> rfl

def sampleDeal : TrustedDealerArgs :=
  ⟨["a", "b"], "group", ["alice", "bob"], none, "redpallas", 2, 2⟩

theorem dealt_group_held_sample : ∃ fs',
    execute sampleInitialized (.trustedDealer sampleDeal 0) = .ok fs' ∧
    ∃ (G : SigningGroup sampleSigningLibraries .redpallas) (key : String),
      G.pubkeys = [Http.sampleKey 1, Http.sampleKey 2] ∧
      G.HeldAt fs' (some "a") key (Http.sampleKey 1) ∧ G.HeldAt fs' (some "b") key (Http.sampleKey 2) := by
  obtain ⟨fs', hfs'⟩ := Outcome.isOk_iff.mp
    (show (execute sampleInitialized (.trustedDealer sampleDeal 0)).isOk = true by rfl)
  have hdifferent : DifferentUsers sampleInitialized ["a", "b"] := by decide
  obtain ⟨G, key, -, -, hpubkeys, hheld⟩ := (dealt_group_held sampleSigning_lawful
    sampleSigning_dealerLawful (fun _ _ => sampleKeyInits_genuine) sampleKeyInits_run rfl hfs').mp hdifferent
  refine ⟨fs', hfs', G, key, ?_, hheld _ _ List.mem_cons_self rfl,
    hheld _ _ (List.mem_cons_of_mem _ List.mem_cons_self) rfl⟩
  exact List.map_injective_iff.mpr (Option.some_injective _) hpubkeys.symm

end FrostTools.Signing
