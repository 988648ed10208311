import FrostTools.Client.Participants

/-!
# The shares of a trusted dealer

`trusted-dealer` takes the identifiers, the config files and the names in step, and writes each
share to the next file. It counts the files but does not compare their users.
-/

namespace FrostTools.Client

variable {L : Libraries} {name : CiphersuiteName} {fs fs' : FileSystem L} {args : TrustedDealerArgs}
  {rng : ℕ} {deserialize : Bytes → Option (L.ciphersuite name).Identifier}

def communicationPubkey (fs : FileSystem L) (path : String) : Option PublicKey :=
  match Config.read fs (some path) with
  | .ok config => config.communicationKey.map CommunicationKey.pubkey
  | _ => none

def DifferentUsers (fs : FileSystem L) (paths : List String) : Prop :=
  (paths.map (communicationPubkey fs)).Nodup

instance (fs : FileSystem L) (paths : List String) : Decidable (DifferentUsers fs paths) :=
  inferInstanceAs (Decidable (List.Nodup _))

/-- The group entry has the share of an identifier, and finds the identifier by its owner's key. -/
structure HoldsShare (deserialize : Bytes → Option (L.ciphersuite name).Identifier) (group : Group)
    (pubkey : PublicKey) (identifier : (L.ciphersuite name).Identifier)
    (share : (L.ciphersuite name).SecretShare) : Prop where
  keyPackage : ∃ k, (L.ciphersuite name).keyPackageTryFrom share = some k ∧
    (L.ciphersuite name).decodeKeyPackage group.keyPackage = some k
  identifier : group.identifierByPubkey deserialize pubkey = .ok identifier

/-- Every listed config file holds the share of its place, for its own user. -/
def SharesRetrievable (deserialize : Bytes → Option (L.ciphersuite name).Identifier)
    (args : TrustedDealerArgs) (rng : ℕ) (fs' : FileSystem L) : Prop :=
  ∃ shares publicKeyPackage,
    trustedDealerKeygen (L.ciphersuite name) args.numSigners args.threshold rng =
      .ok (shares, publicKeyPackage) ∧
    shares.len = args.numSigners.toNat ∧
    ∀ i < args.numSigners.toNat, ∃ identifier share path config key verifyingKey group,
      shares.toSortedList[i]? = some (identifier, share) ∧ args.config[i]? = some path ∧
      Config.read fs' (some path) = .ok config ∧ config.communicationKey = some key ∧
      (L.ciphersuite name).verifyingKey publicKeyPackage = some verifyingKey ∧
      config.group.lookup (hexEncode verifyingKey) = some group ∧
      HoldsShare deserialize group key.pubkey identifier share

theorem communicationPubkey_eq_some_iff {path : String} {pubkey : PublicKey} :
    communicationPubkey fs path = some pubkey ↔ ∃ config key,
      Config.read fs (some path) = .ok config ∧ config.communicationKey = some key ∧
        key.pubkey = pubkey := by
  unfold communicationPubkey
  constructor
  · intro h
    split at h
    · next config hread =>
      obtain ⟨key, hkey, hpubkey⟩ := Option.map_eq_some_iff.mp h
      exact ⟨config, key, hread, hkey, hpubkey⟩
    · cases h
  · rintro ⟨config, key, hread, hkey, rfl⟩
    simp only [hread, hkey, Option.map_some]

theorem map_firstPass {C : Ciphersuite} {identifiers : List C.Identifier}
    {paths names : List String} {dealt : List (C.Identifier × Contact)}
    (h : firstPass fs identifiers paths names = .ok dealt)
    (hpaths : paths.length = identifiers.length) (hnames : names.length = identifiers.length) :
    dealt.map Prod.fst = identifiers ∧
      dealt.map (fun e => some e.2.pubkey) = paths.map (communicationPubkey fs) := by
  have hfst : (paths.zip names).map Prod.fst = paths :=
    List.map_fst_zip (le_of_eq (hpaths.trans hnames.symm))
  have hlen : (paths.zip names).length = identifiers.length := by
    rw [List.length_zip, hpaths, hnames, Nat.min_self]
  constructor
  · rw [Outcome.map_of_mapM h (k := Prod.fst), List.map_fst_zip (le_of_eq hlen.symm)]
    rintro ⟨identifier, path, name⟩ e he
    obtain ⟨_, -, he⟩ := Outcome.bind_eq_ok_iff.mp he
    obtain ⟨_, -, he⟩ := Outcome.bind_eq_ok_iff.mp he
    rw [← Outcome.ok.inj he]
  · have hsnd : (identifiers.zip (paths.zip names)).map Prod.snd = paths.zip names :=
      List.map_snd_zip (le_of_eq hlen)
    rw [Outcome.map_of_mapM h (k := fun x => communicationPubkey fs x.2.1)]
    · conv_rhs => rw [← hfst, ← hsnd, List.map_map, List.map_map]
      rfl
    rintro ⟨identifier, path, name⟩ e he
    obtain ⟨config, hread, he⟩ := Outcome.bind_eq_ok_iff.mp he
    obtain ⟨key, hkey, he⟩ := Outcome.bind_eq_ok_iff.mp he
    rw [← Outcome.ok.inj he]
    exact (communicationPubkey_eq_some_iff.mpr
      ⟨config, key, hread, Outcome.okOr_eq_ok_iff.mp hkey, rfl⟩).symm

theorem participantsOf_eq {C : Ciphersuite} (dealt : List (C.Identifier × Contact)) :
    participantsOf dealt = tableOf C (dealt.map fun e => (e.1, e.2.pubkey)) := by
  rw [tableOf, List.map_map]
  rfl

/-- A file that is written to several times keeps the last share. -/
theorem storeShares_last (hL : L.Lawful) {publicKeyPackage : (L.ciphersuite name).PublicKeyPackage}
    {dealt : List ((L.ciphersuite name).Identifier × Contact)}
    {before after : List ((L.ciphersuite name).SecretShare × String)}
    {share : (L.ciphersuite name).SecretShare} {path : String}
    (h : Outcome.foldM (storeShare args publicKeyPackage dealt) fs
      (before ++ (share, path) :: after) = .ok fs') (hpath : path ∉ after.map Prod.snd)
    {config : Config} (hread : Config.read fs (some path) = .ok config) :
    ∃ config' k verifyingKey group, Config.read fs' (some path) = .ok config' ∧
      config'.communicationKey = config.communicationKey ∧
      (L.ciphersuite name).verifyingKey publicKeyPackage = some verifyingKey ∧
      config'.group.lookup (hexEncode verifyingKey) = some group ∧
      group.participant = participantsOf dealt ∧
      (L.ciphersuite name).keyPackageTryFrom share = some k ∧
      (L.ciphersuite name).encodeKeyPackage k = some group.keyPackage := by
  rw [Outcome.foldM_append] at h
  obtain ⟨fs₁, hbefore, h⟩ := Outcome.bind_eq_ok_iff.mp h
  obtain ⟨fs₂, hstore, hafter⟩ := Outcome.bind_eq_ok_iff.mp h
  obtain ⟨config₁, hread₁, hstored, hsame⟩ := storeShares_ok hL hbefore hread
  have hkey : config₁.communicationKey = config.communicationKey := by
    by_cases hmem : Config.parsePath L (some path) ∈ before.map Prod.snd
    · obtain ⟨_, _, -, -, -, rfl⟩ := hstored hmem
      rfl
    · rw [hsame hmem]
  obtain ⟨config₁', k, keyPackage, encoded, verifyingKey, htry, hk, -, hv, hrewrites⟩ :=
    storeShare_cases hL hstore
  obtain rfl := Outcome.ok.inj (hread₁.symm.trans hrewrites.before)
  have hread₂ := hrewrites.after (some path)
  rw [if_pos rfl] at hread₂
  obtain ⟨config', hread', -, hlast⟩ := storeShares_ok hL hafter hread₂
  obtain rfl := hlast hpath
  exact ⟨_, k, verifyingKey, _, hread', hkey, hv, Map.lookup_insert_self _ _ _, rfl, htry, hk⟩

namespace Deals

variable {shares : Map (L.ciphersuite name).Identifier (L.ciphersuite name).SecretShare}
  {publicKeyPackage : (L.ciphersuite name).PublicKeyPackage}
  {dealt : List ((L.ciphersuite name).Identifier × Contact)}

theorem map_dealt (h : Deals fs fs' args shares publicKeyPackage dealt) :
    dealt.map Prod.fst = shares.sortedKeys ∧
      dealt.map (fun e => some e.2.pubkey) = args.config.map (communicationPubkey fs) := by
  have hlist : (shares.toSortedList.map Prod.fst).length = args.numSigners.toNat := by
    rw [List.length_map, Map.length_toSortedList, h.shares]
  rw [← Map.map_fst_toSortedList]
  exact map_firstPass h.firstPass (h.config.trans hlist.symm) (h.names.trans hlist.symm)

theorem length_dealt (h : Deals fs fs' args shares publicKeyPackage dealt) :
    dealt.length = args.numSigners.toNat := by
  rw [← h.config, ← List.length_map, h.map_dealt.2, List.length_map]

theorem nodup_identifiers (h : Deals fs fs' args shares publicKeyPackage dealt) :
    ((dealt.map fun e => (e.1, e.2.pubkey)).map Prod.fst).Nodup := by
  rw [List.map_map]
  show (dealt.map Prod.fst).Nodup
  rw [h.map_dealt.1]
  exact Map.nodup_sortedKeys shares

theorem differentUsers_iff (h : Deals fs fs' args shares publicKeyPackage dealt) :
    DifferentUsers fs args.config ↔
      ((dealt.map fun e => (e.1, e.2.pubkey)).map Prod.snd).Nodup := by
  rw [DifferentUsers, ← h.map_dealt.2, List.map_map,
    ← List.nodup_map_iff (Option.some_injective PublicKey) (l := dealt.map _), List.map_map]
  rfl

theorem place (h : Deals fs fs' args shares publicKeyPackage dealt) {i : ℕ}
    (hi : i < args.numSigners.toNat) : ∃ identifier share path contact config key,
      shares.toSortedList[i]? = some (identifier, share) ∧ args.config[i]? = some path ∧
      dealt[i]? = some (identifier, contact) ∧ Config.read fs (some path) = .ok config ∧
      config.communicationKey = some key ∧ key.pubkey = contact.pubkey := by
  obtain ⟨⟨identifier, share⟩, hshare⟩ : ∃ e, shares.toSortedList[i]? = some e :=
    ⟨_, List.getElem?_eq_getElem (by rwa [Map.length_toSortedList, h.shares])⟩
  obtain ⟨path, hpath⟩ : ∃ path, args.config[i]? = some path :=
    ⟨_, List.getElem?_eq_getElem (by rwa [h.config])⟩
  obtain ⟨⟨identifier', contact⟩, hentry⟩ : ∃ e, dealt[i]? = some e :=
    ⟨_, List.getElem?_eq_getElem (by rwa [h.length_dealt])⟩
  have hidentifier := congrArg (·[i]?) h.map_dealt.1
  have hpubkey := congrArg (·[i]?) h.map_dealt.2
  simp only [← Map.map_fst_toSortedList, List.getElem?_map, hshare, hpath, hentry, Option.map_some,
    Option.some.injEq] at hidentifier hpubkey
  obtain ⟨config, key, hread, hkey, heq⟩ := communicationPubkey_eq_some_iff.mp hpubkey.symm
  subst hidentifier
  exact ⟨identifier', share, path, contact, config, key, hshare, hpath, hentry, hread, hkey, heq⟩

end Deals

/-- All files have the same table, in which a public key has one identifier. -/
theorem differentUsers_of_sharesRetrievable (hL : L.Lawful) (hreads : ReadsIdentifiers _ deserialize)
    (h : trustedDealerForCiphersuite (L.ciphersuite name) fs args rng = .ok fs')
    (hretrievable : SharesRetrievable deserialize args rng fs') : DifferentUsers fs args.config := by
  obtain ⟨shares, publicKeyPackage, dealt, hkeygen, hdeals⟩ := trustedDealerForCiphersuite_cases hL h
  obtain ⟨shares', publicKeyPackage', hkeygen', -, hheld⟩ := hretrievable
  obtain ⟨rfl, rfl⟩ := Prod.mk.inj (Outcome.ok.inj (hkeygen.symm.trans hkeygen'))
  let table : Group := ⟨"", "", [], [], none, participantsOf dealt⟩
  rw [hdeals.differentUsers_iff, ← forall_identifierByPubkey_iff hreads hdeals.nodup_identifiers
    (show table.participant = _ from participantsOf_eq dealt)]
  intro identifier pubkey hmem
  obtain ⟨⟨_, contact⟩, hentry, heq⟩ := List.mem_map.mp hmem
  obtain ⟨rfl, rfl⟩ := Prod.mk.inj heq
  obtain ⟨i, hi⟩ := List.mem_iff_getElem?.mp hentry
  have hlt : i < args.numSigners.toNat := by
    rw [← hdeals.length_dealt]
    exact (List.getElem?_eq_some_iff.mp hi).1
  obtain ⟨_, _, path, _, config, key, hshare, hpath, hi', hread, hkey, hpubkey⟩ := hdeals.place hlt
  obtain ⟨_, _, _, config', key', verifyingKey, group, hshare', hpath', hread', hkey', hv, hgroup,
    hholds⟩ := hheld i hlt
  obtain rfl := Option.some.inj (hpath.symm.trans hpath')
  obtain ⟨rfl, rfl⟩ := Prod.mk.inj (Option.some.inj (hshare.symm.trans hshare'))
  obtain ⟨rfl, rfl⟩ := Prod.mk.inj (Option.some.inj (hi.symm.trans hi'))
  -- the stored group has the table, and its user the dealt public key
  obtain ⟨_, hread'', hstored, -⟩ := storeShares_ok hL hdeals.secondPass hread
  obtain rfl := Outcome.ok.inj (hread'.symm.trans hread'')
  rw [hdeals.paths] at hstored
  obtain ⟨_, group', hv', htable, -, rfl⟩ := hstored (List.mem_of_getElem? hpath)
  obtain rfl := Option.some.inj (hv.symm.trans hv')
  rw [withDealt, Map.lookup_insert_self] at hgroup
  obtain rfl := Option.some.inj hgroup
  obtain rfl := Option.some.inj (hkey.symm.trans hkey')
  rw [← hpubkey]
  unfold Group.identifierByPubkey Group.participantByPubkey
  rw [show table.participant = group'.participant from htable.symm]
  exact hholds.identifier

/-- Files of different users are different files, so that none is written to twice. -/
theorem sharesRetrievable_of_differentUsers (hL : L.Lawful) (hreads : ReadsIdentifiers _ deserialize)
    (h : trustedDealerForCiphersuite (L.ciphersuite name) fs args rng = .ok fs')
    (hdifferent : DifferentUsers fs args.config) : SharesRetrievable deserialize args rng fs' := by
  obtain ⟨shares, publicKeyPackage, dealt, hkeygen, hdeals⟩ := trustedDealerForCiphersuite_cases hL h
  refine ⟨shares, publicKeyPackage, hkeygen, hdeals.shares, fun i hi => ?_⟩
  obtain ⟨identifier, share, path, contact, config, key, hshare, hpath, hentry, hread, hkey,
    hpubkey⟩ := hdeals.place hi
  have hzip : (share, path) ∈ (shares.toSortedList.map Prod.snd).zip args.config := by
    apply List.mem_of_getElem? (i := i)
    rw [List.getElem?_zip_eq_some, List.getElem?_map, hshare]
    exact ⟨rfl, hpath⟩
  obtain ⟨before, after, hsplit⟩ := List.append_of_mem hzip
  have hlast : path ∉ after.map Prod.snd := by
    have hnodup : args.config.Nodup := List.Nodup.of_map _ hdifferent
    rw [← hdeals.paths, hsplit, List.map_append, List.map_cons] at hnodup
    exact (List.nodup_cons.mp (List.nodup_append.mp hnodup).2.1).1
  have hstore := hdeals.secondPass
  rw [hsplit] at hstore
  obtain ⟨config', k, verifyingKey, group, hread', hkey', hv, hgroup, htable, htry, hk⟩ :=
    storeShares_last hL hstore hlast hread
  refine ⟨identifier, share, path, config', key, verifyingKey, group, hshare, hpath, hread',
    hkey'.trans hkey, hv, hgroup, ⟨k, htry, hL.keyPackage hk⟩, ?_⟩
  apply (forall_identifierByPubkey_iff hreads hdeals.nodup_identifiers
    (htable.trans (participantsOf_eq dealt))).mpr (hdeals.differentUsers_iff.mp hdifferent)
  rw [hpubkey]
  exact List.mem_map_of_mem (List.mem_of_getElem? hentry)

/-- No share is lost if and only if the config files have different users. -/
theorem shares_retrievable_iff (hL : L.Lawful) (hreads : ReadsIdentifiers _ deserialize)
    (h : trustedDealerForCiphersuite (L.ciphersuite name) fs args rng = .ok fs') :
    SharesRetrievable deserialize args rng fs' ↔ DifferentUsers fs args.config :=
  ⟨differentUsers_of_sharesRetrievable hL hreads h, sharesRetrievable_of_differentUsers hL hreads h⟩

/-- The sample libraries, with identifiers in unary. -/
def sampleDealer : Libraries := { sampleLibraries with
  ciphersuite := fun name => { sampleLibraries.ciphersuite name with
    serializeIdentifier := fun (i : ℕ) => List.replicate i 1 } }

theorem sampleDealer_lawful : sampleDealer.Lawful where
  toml := sampleLibraries_lawful.toml
  keyPackage h := by
    obtain rfl := Option.some.inj h
    rfl
  publicKeyPackage h := by
    obtain rfl := Option.some.inj h
    rfl
  generateWithDealer h := by
    obtain ⟨rfl, -⟩ := Prod.mk.inj (Option.some.inj h)
    exact len_sampleShares _
  ID_ne := sampleLibraries_lawful.ID_ne

def sampleDeserialize : Bytes → Option (sampleDealer.ciphersuite .ed25519).Identifier :=
  fun bytes => some bytes.length

theorem sampleDealer_reads : ReadsIdentifiers _ sampleDeserialize :=
  fun _ => congrArg some (List.length_replicate ..)

def sampleUsers : FileSystem sampleDealer := sampleFiles

def sampleDealt (paths : List String) : Outcome ConfigError (FileSystem sampleDealer) :=
  trustedDealerForCiphersuite (sampleDealer.ciphersuite .ed25519) sampleUsers
    ⟨paths, "group", ["alice", "bob"], none, "ed25519", 2, 2⟩ 0

theorem shares_retrievable_sample : ∃ fs', sampleDealt ["a", "b"] = .ok fs' ∧
    SharesRetrievable sampleDeserialize
      ⟨["a", "b"], "group", ["alice", "bob"], none, "ed25519", 2, 2⟩ 0 fs' := by
  obtain ⟨fs', hfs'⟩ := Outcome.isOk_iff.mp (show (sampleDealt ["a", "b"]).isOk = true by decide)
  have hdifferent : DifferentUsers sampleUsers ["a", "b"] := by decide
  exact ⟨fs', hfs', (shares_retrievable_iff sampleDealer_lawful sampleDealer_reads hfs').mpr hdifferent⟩

/-- The second share for a file takes the place of the first. -/
theorem listed_twice_loses_share : ∃ fs', sampleDealt ["a", "a"] = .ok fs' ∧
    ¬SharesRetrievable sampleDeserialize
      ⟨["a", "a"], "group", ["alice", "bob"], none, "ed25519", 2, 2⟩ 0 fs' := by
  obtain ⟨fs', hfs'⟩ := Outcome.isOk_iff.mp (show (sampleDealt ["a", "a"]).isOk = true by decide)
  refine ⟨fs', hfs', fun hretrievable => ?_⟩
  have hdifferent : DifferentUsers sampleUsers ["a", "a"] :=
    differentUsers_of_sharesRetrievable sampleDealer_lawful sampleDealer_reads hfs' hretrievable
  exact absurd hdifferent (by decide)

end FrostTools.Client
