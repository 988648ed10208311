import FrostTools.Client.Groups

/-!
# Which commands keep the participants in the address book

`remove-contact` can take the only contact of a participant away, and `trusted-dealer`
gives a name to a new key without looking whether it is taken.
-/

namespace FrostTools.Client

variable {L : Libraries} {C : Ciphersuite} {config : Config} {pubkey : PublicKey}

/-- A name belongs to the last contact it was given to. -/
theorem lookup_addContacts_iff {book : Map String Contact} {l : List Contact} {name : String}
    {contact : Contact} : (addContacts book l).lookup name = some contact ↔
      (book.lookup name = some contact ∧ ∀ c ∈ l, c.name ≠ name) ∨
      ∃ after, contact :: after <:+ l ∧ contact.name = name ∧ ∀ c ∈ after, c.name ≠ name := by
  induction l generalizing book with
  | nil => simp [addContacts]
  | cons c l ih =>
    have hcons : addContacts book (c :: l) = addContacts (book.insert c.name c) l := rfl
    rw [hcons, ih, Map.lookup_insert, List.forall_mem_cons]
    simp only [List.suffix_cons_iff, List.cons.injEq, or_and_right, exists_or]
    split_ifs with hname
    · subst hname
      constructor
      · rintro (⟨heq, hl⟩ | h)
        · obtain rfl := Option.some.inj heq
          exact .inr (.inl ⟨l, ⟨rfl, rfl⟩, rfl, hl⟩)
        · exact .inr (.inr h)
      · rintro (⟨-, hne, -⟩ | ⟨after, ⟨rfl, rfl⟩, -, hafter⟩ | h)
        · exact absurd rfl hne
        · exact .inl ⟨rfl, hafter⟩
        · exact .inr h
    · constructor
      · rintro (⟨hbook, hl⟩ | h)
        · exact .inl ⟨hbook, Ne.symm hname, hl⟩
        · exact .inr (.inr h)
      · rintro (⟨hbook, -, hl⟩ | ⟨after, ⟨rfl, rfl⟩, heq, -⟩ | h)
        · exact .inl ⟨hbook, hl⟩
        · exact absurd heq.symm hname
        · exact .inr h

theorem addContacts_addContacts (book : Map String Contact) (l : List Contact) :
    addContacts (addContacts book l) l = addContacts book l := by
  ext name contact
  rw [lookup_addContacts_iff, lookup_addContacts_iff]
  constructor
  · rintro (⟨h | ⟨after, hsuffix, rfl, -⟩, hl⟩ | h)
    · exact .inl h
    · exact absurd rfl (hl contact (hsuffix.mem List.mem_cons_self))
    · exact .inr h
  · rintro (h | h)
    · exact .inl ⟨.inl h, h.2⟩
    · exact .inr h

/-- The key keeps a name: that of a stored contact which is given to no new one, or that of
a new contact which is given to none after it. -/
def KeepsName (book : Map String Contact) (new : List Contact) (pubkey : PublicKey) : Prop :=
  (∃ name contact, book.lookup name = some contact ∧ contact.pubkey = pubkey ∧
      ∀ c ∈ new, c.name ≠ name) ∨
    ∃ contact after, contact :: after <:+ new ∧ contact.pubkey = pubkey ∧
      ∀ c ∈ after, c.name ≠ contact.name

theorem keepsName_iff {book : Map String Contact} {new : List Contact} :
    KeepsName book new pubkey ↔
      ∃ name contact, (addContacts book new).lookup name = some contact ∧
        contact.pubkey = pubkey := by
  simp only [KeepsName, lookup_addContacts_iff]
  constructor
  · rintro (⟨name, contact, hlookup, hp, hnew⟩ | ⟨contact, after, hsuffix, hp, hafter⟩)
    · exact ⟨name, contact, .inl ⟨hlookup, hnew⟩, hp⟩
    · exact ⟨contact.name, contact, .inr ⟨after, hsuffix, rfl, hafter⟩, hp⟩
  · rintro ⟨name, contact, ⟨hlookup, hnew⟩ | ⟨after, hsuffix, rfl, hafter⟩, hp⟩
    · exact .inl ⟨name, contact, hlookup, hp, hnew⟩
    · exact .inr ⟨contact, after, hsuffix, hp, hafter⟩

section TrustedDealer

variable {fs fs' : FileSystem L} {args : TrustedDealerArgs} {name : CiphersuiteName}
  {dealt : List ((L.ciphersuite name).Identifier × Contact)}
  {publicKeyPackage : (L.ciphersuite name).PublicKeyPackage}

def withDealt (config : Config) (dealt : List (C.Identifier × Contact)) (key : String)
    (group : Group) : Config :=
  { config with
    group := config.group.insert key group
    contact := addContacts config.contact (dealt.map Prod.snd) }

def Stored (L : Libraries) {name : CiphersuiteName}
    (publicKeyPackage : (L.ciphersuite name).PublicKeyPackage)
    (dealt : List ((L.ciphersuite name).Identifier × Contact)) (config config' : Config) : Prop :=
  ∃ verifyingKey group, (L.ciphersuite name).verifyingKey publicKeyPackage = some verifyingKey ∧
    group.participant = participantsOf dealt ∧ group.Readable L ∧
    config' = withDealt config dealt (hexEncode verifyingKey) group

theorem storeShare_cases (hL : L.Lawful) {share : (L.ciphersuite name).SecretShare} {path : String}
    (h : storeShare args publicKeyPackage dealt fs (share, path) = .ok fs') :
    ∃ config k keyPackage encoded verifyingKey,
      (L.ciphersuite name).keyPackageTryFrom share = some k ∧
      (L.ciphersuite name).encodeKeyPackage k = some keyPackage ∧
      (L.ciphersuite name).encodePublicKeyPackage publicKeyPackage = some encoded ∧
      (L.ciphersuite name).verifyingKey publicKeyPackage = some verifyingKey ∧
      Rewrites fs fs' (some path) config (withDealt config dealt (hexEncode verifyingKey)
        ⟨args.description, (L.ciphersuite name).ID, encoded, keyPackage, args.serverUrl,
          participantsOf dealt⟩) := by
  obtain ⟨config, hread, h⟩ := Outcome.bind_eq_ok_iff.mp h
  obtain ⟨k, htry, h⟩ := Outcome.bind_eq_ok_iff.mp h
  obtain ⟨keyPackage, hk, h⟩ := Outcome.bind_eq_ok_iff.mp h
  obtain ⟨encoded, hp, h⟩ := Outcome.bind_eq_ok_iff.mp h
  obtain ⟨verifyingKey, hv, hwrite⟩ := Outcome.bind_eq_ok_iff.mp h
  rw [Outcome.okOr_eq_ok_iff] at htry hk hp hv
  exact ⟨config, k, keyPackage, encoded, verifyingKey, htry, hk, hp, hv, .of_write hL hread hwrite rfl⟩

theorem storeShare_ok (hL : L.Lawful) {share : (L.ciphersuite name).SecretShare} {path : String}
    (h : storeShare args publicKeyPackage dealt fs (share, path) = .ok fs') :
    ∃ config config', Rewrites fs fs' (some path) config config' ∧
      Stored L publicKeyPackage dealt config config' := by
  obtain ⟨config, k, keyPackage, encoded, verifyingKey, -, hk, hp, hv, hrewrites⟩ :=
    storeShare_cases hL h
  exact ⟨config, _, hrewrites, verifyingKey, _, hv, rfl,
    Group.readable_of_encoded hL rfl hk hp hv, rfl⟩

theorem Stored.trans {config₁ config₂ : Config}
    (h₁ : Stored L publicKeyPackage dealt config config₁)
    (h₂ : Stored L publicKeyPackage dealt config₁ config₂) :
    Stored L publicKeyPackage dealt config config₂ := by
  obtain ⟨key, group, hkey, -, -, rfl⟩ := h₁
  obtain ⟨key', group', hkey', hp, hr, rfl⟩ := h₂
  obtain rfl := Option.some.inj (hkey.symm.trans hkey')
  refine ⟨key, group', hkey, hp, hr, ?_⟩
  simp only [withDealt, Map.insert_insert, addContacts_addContacts]

/-- The second pass rewrites the files of the given paths, and no others. -/
theorem storeShares_ok (hL : L.Lawful)
    {l : List ((L.ciphersuite name).SecretShare × String)}
    (h : Outcome.foldM (storeShare args publicKeyPackage dealt) fs l = .ok fs')
    {path : Option String} (hread : Config.read fs path = .ok config) :
    ∃ config', Config.read fs' path = .ok config' ∧
      (Config.parsePath L path ∈ l.map Prod.snd → Stored L publicKeyPackage dealt config config') ∧
      (Config.parsePath L path ∉ l.map Prod.snd → config' = config) := by
  induction l generalizing fs config with
  | nil =>
    obtain rfl := Outcome.ok.inj h
    exact ⟨config, hread, fun h => absurd h List.not_mem_nil, fun _ => rfl⟩
  | cons e l ih =>
    obtain ⟨share, file⟩ := e
    obtain ⟨fs₁, hstore, h⟩ := Outcome.bind_eq_ok_iff.mp h
    obtain ⟨before, config₁, hrewrites, hstored⟩ := storeShare_ok hL hstore
    have hafter := hrewrites.after path
    rw [List.map_cons, List.mem_cons]
    by_cases hpath : Config.parsePath L path = Config.parsePath L (some file)
    · -- this file was just rewritten
      rw [if_pos hpath] at hafter
      obtain rfl : before = config := Outcome.ok.inj
        (hrewrites.before.symm.trans ((read_congr hpath).symm.trans hread))
      obtain ⟨config', hread', hmem, hnotMem⟩ := ih h hafter
      refine ⟨config', hread', fun _ => ?_, fun hno => absurd (.inl hpath) hno⟩
      by_cases hl : Config.parsePath L path ∈ l.map Prod.snd
      · exact hstored.trans (hmem hl)
      · rwa [hnotMem hl]
    · rw [if_neg hpath] at hafter
      obtain ⟨config', hread', hmem, hnotMem⟩ := ih h (hafter.trans hread)
      refine ⟨config', hread', fun hl => hmem (hl.resolve_left hpath), fun hno => ?_⟩
      exact hnotMem fun hl => hno (.inr hl)

theorem trustedDealerKeygen_len (hL : L.Lawful) {maxSigners minSigners : UInt16} {rng : ℕ}
    {shares : Map (L.ciphersuite name).Identifier (L.ciphersuite name).SecretShare}
    (h : trustedDealerKeygen (L.ciphersuite name) maxSigners minSigners rng =
      .ok (shares, publicKeyPackage)) : shares.len = maxSigners.toNat := by
  obtain ⟨⟨shares', publicKeyPackage'⟩, hgenerate, h⟩ := Outcome.bind_eq_ok_iff.mp h
  simp only at h
  split_ifs at h
  have hkeys := (L.ciphersuite name).keys_intoEvenY (shares', publicKeyPackage')
  rw [Outcome.ok.inj h] at hkeys
  rw [Map.len, hkeys, ← hL.generateWithDealer (Outcome.okOr_eq_ok_iff.mp hgenerate), Map.len]

/-- The contacts that `trusted-dealer` adds leave every participant its name, in every file:
those of the groups that stay, and those of the new group. -/
def NamesKept (fs : FileSystem L) (args : TrustedDealerArgs) (rng : ℕ) : Prop :=
  ∀ name shares publicKeyPackage dealt path config verifyingKey,
    ciphersuiteOf args.ciphersuite = .ok name →
    trustedDealerKeygen (L.ciphersuite name) args.numSigners args.threshold rng =
      .ok (shares, publicKeyPackage) →
    firstPass fs (shares.toSortedList.map Prod.fst) args.config args.names = .ok dealt →
    path ∈ args.config → Config.read fs (some path) = .ok config →
    (L.ciphersuite name).verifyingKey publicKeyPackage = some verifyingKey →
    ∀ pubkey, ({ config with
        group := config.group.erase (hexEncode verifyingKey) }.HasParticipant pubkey ∨
      ∃ id participant, (participantsOf dealt).lookup id = some participant ∧
        participant.pubkey = pubkey) →
    some pubkey = config.communicationKey.map CommunicationKey.pubkey ∨
      KeepsName config.contact (dealt.map Prod.snd) pubkey

theorem knows_withDealt_iff {dealt : List (C.Identifier × Contact)} {key : String} {group : Group} :
    (withDealt config dealt key group).Knows pubkey ↔
      some pubkey = config.communicationKey.map CommunicationKey.pubkey ∨
        KeepsName config.contact (dealt.map Prod.snd) pubkey := by
  rw [keepsName_iff]
  rfl

theorem hasParticipant_withDealt_iff {dealt : List (C.Identifier × Contact)} {key : String}
    {group : Group} : (withDealt config dealt key group).HasParticipant pubkey ↔
      { config with group := config.group.erase key }.HasParticipant pubkey ∨
        ∃ id participant, group.participant.lookup id = some participant ∧
          participant.pubkey = pubkey := by
  simp only [withDealt, Config.HasParticipant, Map.lookup_insert, Map.lookup_erase]
  constructor
  · rintro ⟨key', group', id, participant, hg, hp, rfl⟩
    split_ifs at hg with hkey
    · obtain rfl := Option.some.inj hg
      exact .inr ⟨id, participant, hp, rfl⟩
    · exact .inl ⟨key', group', id, participant, by rw [if_neg hkey, hg], hp, rfl⟩
  · rintro (⟨key', group', id, participant, hg, hp, rfl⟩ | ⟨id, participant, hp, rfl⟩)
    · split_ifs at hg with hkey
      exact ⟨key', group', id, participant, by rw [if_neg hkey, hg], hp, rfl⟩
    · exact ⟨key, group, id, participant, if_pos rfl, hp, rfl⟩

structure Deals (fs fs' : FileSystem L) (args : TrustedDealerArgs)
    (shares : Map (L.ciphersuite name).Identifier (L.ciphersuite name).SecretShare)
    (publicKeyPackage : (L.ciphersuite name).PublicKeyPackage)
    (dealt : List ((L.ciphersuite name).Identifier × Contact)) : Prop where
  firstPass : firstPass fs (shares.toSortedList.map Prod.fst) args.config args.names = .ok dealt
  secondPass : Outcome.foldM (storeShare args publicKeyPackage dealt) fs
    ((shares.toSortedList.map Prod.snd).zip args.config) = .ok fs'
  shares : shares.len = args.numSigners.toNat
  config : args.config.length = args.numSigners.toNat
  names : args.names.length = args.numSigners.toNat

theorem trustedDealerForCiphersuite_cases (hL : L.Lawful) {rng : ℕ}
    (h : trustedDealerForCiphersuite (L.ciphersuite name) fs args rng = .ok fs') :
    ∃ shares publicKeyPackage dealt,
      trustedDealerKeygen (L.ciphersuite name) args.numSigners args.threshold rng =
        .ok (shares, publicKeyPackage) ∧ Deals fs fs' args shares publicKeyPackage dealt := by
  obtain ⟨hconfig, h⟩ := Outcome.ite_err_eq_ok_iff.mp h
  obtain ⟨hnames, h⟩ := Outcome.ite_err_eq_ok_iff.mp h
  obtain ⟨⟨shares, publicKeyPackage⟩, hkeygen, h⟩ := Outcome.bind_eq_ok_iff.mp h
  obtain ⟨dealt, hdealt, h⟩ := Outcome.bind_eq_ok_iff.mp h
  exact ⟨shares, publicKeyPackage, dealt, hkeygen, hdealt, h, trustedDealerKeygen_len hL hkeygen,
    not_not.mp hconfig, not_not.mp hnames⟩

theorem Deals.paths
    {shares : Map (L.ciphersuite name).Identifier (L.ciphersuite name).SecretShare}
    (h : Deals fs fs' args shares publicKeyPackage dealt) :
    ((shares.toSortedList.map Prod.snd).zip args.config).map Prod.snd = args.config := by
  apply List.map_snd_zip
  rw [List.length_map, Map.length_toSortedList, h.shares, h.config]

theorem trustedDealer_ok (hL : L.Lawful) {rng : ℕ} (h : trustedDealer fs args rng = .ok fs') :
    ∃ name shares publicKeyPackage dealt, ciphersuiteOf args.ciphersuite = .ok name ∧
      trustedDealerKeygen (L.ciphersuite name) args.numSigners args.threshold rng =
        .ok (shares, publicKeyPackage) ∧
      firstPass fs (shares.toSortedList.map Prod.fst) args.config args.names = .ok dealt ∧
      ∀ path config, Config.read fs path = .ok config →
        ∃ config', Config.read fs' path = .ok config' ∧
          (Config.parsePath L path ∈ args.config →
            Stored L publicKeyPackage dealt config config') ∧
          (Config.parsePath L path ∉ args.config → config' = config) := by
  obtain ⟨name, hname, h⟩ := Outcome.bind_eq_ok_iff.mp h
  obtain ⟨shares, publicKeyPackage, dealt, hkeygen, hdeals⟩ := trustedDealerForCiphersuite_cases hL h
  refine ⟨name, shares, publicKeyPackage, dealt, hname, hkeygen, hdeals.firstPass,
    fun path config hread => ?_⟩
  have hstored := storeShares_ok hL hdeals.secondPass hread
  rwa [hdeals.paths] at hstored

end TrustedDealer

def ContactUnused (fs : FileSystem L) (path : Option String) (pubkey : String) : Prop :=
  ∀ config name contact, Config.read fs path = .ok config →
    Contact.findByHex config pubkey = some (name, contact) →
    config.HasParticipant contact.pubkey →
    some contact.pubkey = config.communicationKey.map CommunicationKey.pubkey ∨
      ∃ name' contact', name' ≠ name ∧ config.contact.lookup name' = some contact' ∧
        contact'.pubkey = contact.pubkey

def KeepsParticipants (fs : FileSystem L) : Invocation L → Prop
  | .removeContact path pubkey => ContactUnused fs path pubkey
  | .trustedDealer args rng => NamesKept fs args rng
  | _ => True

section Step

variable {fs fs' : FileSystem L} {path : Option String}

theorem knows_erase_iff {name : String} :
    { config with contact := config.contact.erase name }.Knows pubkey ↔
      some pubkey = config.communicationKey.map CommunicationKey.pubkey ∨
        ∃ name' contact', name' ≠ name ∧ config.contact.lookup name' = some contact' ∧
          contact'.pubkey = pubkey := by
  simp only [Config.Knows, Map.lookup_erase]
  refine or_congr_right (exists_congr fun name' => exists_congr fun contact' => ?_)
  split_ifs with hname <;> simp [hname]

theorem contactUnused_iff (hL : L.Lawful) {pubkey : String} (hfs : AllResolved fs)
    (h : Contact.remove fs path pubkey = .ok fs') : ContactUnused fs path pubkey ↔ AllResolved fs' := by
  obtain ⟨config, name, contact, hfind, hrewrites⟩ := removeContact_ok hL h
  have hlookup : config.contact.lookup name = some contact :=
    Map.mem_toSortedList.mp (List.mem_of_find?_eq_some hfind)
  rw [hrewrites.allResolved_iff hfs]
  constructor
  · intro hunused key hparticipant
    rw [knows_erase_iff]
    by_cases hkey : contact.pubkey = key
    · exact hkey ▸ hunused config name contact hrewrites.before hfind (hkey ▸ hparticipant)
    · obtain hown | ⟨name', contact', hlookup', rfl⟩ := hfs path config hrewrites.before key hparticipant
      · exact .inl hown
      · refine .inr ⟨name', contact', ?_, hlookup', rfl⟩
        rintro rfl
        obtain rfl := Option.some.inj (hlookup.symm.trans hlookup')
        exact hkey rfl
  · intro hresolved config' name' contact' hread hfind' hparticipant
    obtain rfl := Outcome.ok.inj (hrewrites.before.symm.trans hread)
    obtain ⟨rfl, rfl⟩ := Prod.mk.inj (Option.some.inj (hfind.symm.trans hfind'))
    exact knows_erase_iff.mp (hresolved _ hparticipant)

theorem namesKept_iff (hL : L.Lawful) {args : TrustedDealerArgs} {rng : ℕ} (hsound : Sound fs)
    (hfs : AllResolved fs) (h : trustedDealer fs args rng = .ok fs') :
    NamesKept fs args rng ↔ AllResolved fs' := by
  obtain ⟨name, shares, publicKeyPackage, dealt, hname, hkeygen, hdealt, hafter⟩ :=
    trustedDealer_ok hL h
  constructor
  · intro hkept path config' hread'
    obtain ⟨config, hread, -⟩ := hsound path
    obtain ⟨config'', hread'', hmem, hnotMem⟩ := hafter path config hread
    obtain rfl := Outcome.ok.inj (hread'.symm.trans hread'')
    by_cases hpath : Config.parsePath L path ∈ args.config
    · obtain ⟨verifyingKey, group, hkey, hgroup, -, rfl⟩ := hmem hpath
      intro pubkey hparticipant
      rw [hasParticipant_withDealt_iff, hgroup] at hparticipant
      rw [knows_withDealt_iff]
      exact hkept name shares publicKeyPackage dealt _ config verifyingKey hname hkeygen hdealt
        hpath hread hkey pubkey hparticipant
    · rw [hnotMem hpath]
      exact hfs path config hread
  · intro hresolved name' shares' publicKeyPackage' dealt' path config verifyingKey' hname' hkeygen'
      hdealt' hpath hread hkey' pubkey hparticipant
    obtain rfl := Outcome.ok.inj (hname.symm.trans hname')
    obtain ⟨rfl, rfl⟩ := Prod.mk.inj (Outcome.ok.inj (hkeygen.symm.trans hkeygen'))
    obtain rfl := Outcome.ok.inj (hdealt.symm.trans hdealt')
    obtain ⟨config', hread', hmem, -⟩ := hafter (some path) config hread
    obtain ⟨verifyingKey, group, hkey, hgroup, -, rfl⟩ := hmem hpath
    obtain rfl := Option.some.inj (hkey.symm.trans hkey')
    rw [← hgroup, ← hasParticipant_withDealt_iff] at hparticipant
    exact knows_withDealt_iff.mp (hresolved _ _ hread' pubkey hparticipant)

theorem dkg_resolved (hL : L.Lawful) {args : DkgArgs}
    {inputs : (name : CiphersuiteName) → DkgInputs (L.ciphersuite name)} (hfs : AllResolved fs)
    (h : dkg fs args inputs = .ok fs') : AllResolved fs' := by
  obtain ⟨config, key, group, hrewrites, -, hknown⟩ := dkg_ok hL h
  rw [hrewrites.allResolved_iff hfs]
  rintro _ ⟨key', group', id, participant, hg, hp, rfl⟩
  rw [Map.lookup_insert] at hg
  split_ifs at hg
  · obtain rfl := Option.some.inj hg
    exact hknown id participant hp
  · exact hfs _ config hrewrites.before _ ⟨key', group', id, participant, hg, hp, rfl⟩

/-- Exactly the steps that keep the participants keep every file resolved. -/
theorem keepsParticipants_iff (hL : L.Lawful) {invocation : Invocation L} (hsound : Sound fs)
    (hfs : AllResolved fs) (h : execute fs invocation = .ok fs') :
    KeepsParticipants fs invocation ↔ AllResolved fs' := by
  have hextends : ∀ {path config config'}, Rewrites fs fs' path config config' ∧
      config.Extends config' → AllResolved fs' := by
    rintro path config config' ⟨hrewrites, hextends⟩
    exact (hrewrites.allResolved_iff hfs).mpr (hextends.resolved (hfs _ _ hrewrites.before))
  cases invocation with
  | init path keypair =>
    obtain ⟨config, config', h⟩ := init_ok hL h
    exact iff_of_true trivial (hextends h)
  | importContact text path =>
    obtain ⟨config, config', h⟩ := importContact_ok hL h
    exact iff_of_true trivial (hextends h)
  | removeContact path pubkey => exact contactUnused_iff hL hfs h
  | trustedDealer args rng => exact namesKept_iff hL hsound hfs h
  | dkg args inputs => exact iff_of_true trivial (dkg_resolved hL hfs h)
  | removeGroup path group =>
    obtain ⟨config, config', h⟩ := removeGroup_ok hL h
    exact iff_of_true trivial (hextends h)

theorem sound_execute (hL : L.Lawful) {invocation : Invocation L} (hsound : Sound fs)
    (h : execute fs invocation = .ok fs') : Sound fs' := by
  have hextends : ∀ {path config config'}, Rewrites fs fs' path config config' ∧
      config.Extends config' → Sound fs' := fun ⟨hrewrites, hextends⟩ =>
    hrewrites.sound hsound fun hold key group hg => hold key group (hextends.group key group hg)
  cases invocation with
  | init path keypair =>
    obtain ⟨config, config', h⟩ := init_ok hL h
    exact hextends h
  | importContact text path =>
    obtain ⟨config, config', h⟩ := importContact_ok hL h
    exact hextends h
  | removeContact path pubkey =>
    obtain ⟨config, name, contact, -, hrewrites⟩ := removeContact_ok hL h
    exact hrewrites.sound hsound fun hold => hold
  | trustedDealer args rng =>
    obtain ⟨name, shares, publicKeyPackage, dealt, -, -, -, hafter⟩ := trustedDealer_ok hL h
    intro path
    obtain ⟨config, hread, hold⟩ := hsound path
    obtain ⟨config', hread', hmem, hnotMem⟩ := hafter path config hread
    refine ⟨config', hread', fun key group hg => ?_⟩
    by_cases hpath : Config.parsePath L path ∈ args.config
    · obtain ⟨verifyingKey, group', -, -, hreadable, rfl⟩ := hmem hpath
      rw [withDealt, Map.lookup_insert] at hg
      split_ifs at hg
      · obtain rfl := Option.some.inj hg
        exact hreadable
      · exact hold key group hg
    · rw [hnotMem hpath] at hg
      exact hold key group hg
  | dkg args inputs =>
    obtain ⟨config, key, group, hrewrites, hreadable, -⟩ := dkg_ok hL h
    refine hrewrites.sound hsound fun hold key' group' hg => ?_
    rw [Map.lookup_insert] at hg
    split_ifs at hg
    · obtain rfl := Option.some.inj hg
      exact hreadable
    · exact hold key' group' hg
  | removeGroup path group =>
    obtain ⟨config, config', h⟩ := removeGroup_ok hL h
    exact hextends h

end Step

/-- In every config file every participant is found by its public key, and every group is
printed. -/
def GroupsListed (L : Libraries) (fs : FileSystem L) : Prop :=
  ∀ path, ∃ config, Config.read fs path = .ok config ∧
    (∀ key group id participant, config.group.lookup key = some group →
      group.participant.lookup id = some participant →
      ∃ contact, config.contactByPubkey participant.pubkey = .ok contact) ∧
    ∃ texts, Group.list L fs path = .ok texts ∧ texts.length = config.group.len

theorem groupsListed_iff {fs : FileSystem L} (hsound : Sound fs) :
    GroupsListed L fs ↔ AllResolved fs := by
  constructor
  · intro h path config hread
    obtain ⟨config', hread', hfound, -⟩ := h path
    obtain rfl := Outcome.ok.inj (hread.symm.trans hread')
    rintro _ ⟨key, group, id, participant, hg, hp, rfl⟩
    exact Config.contactByPubkey_ok_iff.mp (hfound key group id participant hg hp)
  · intro h path
    obtain ⟨config, hread, hreadable⟩ := hsound path
    obtain ⟨texts, htexts⟩ := (Group.list_ok_iff hread).mpr ⟨hreadable, h path config hread⟩
    refine ⟨config, hread, fun key group id participant hg hp => ?_, texts, htexts, ?_⟩
    · exact Config.contactByPubkey_ok_iff.mpr
        (h path config hread _ ⟨key, group, id, participant, hg, hp, rfl⟩)
    · rw [Group.list, hread] at htexts
      rw [Outcome.length_of_mapM htexts, List.length_map, Map.length_toSortedList]

theorem sound_empty : Sound (∅ : FileSystem L) := by
  intro path
  refine ⟨{ Config.default with path := some (Config.parsePath L path) }, ?_, fun key group hg => ?_⟩
  · simp only [Config.read, Map.lookup_empty]
  · rw [Config.default, Map.lookup_empty] at hg
    cases hg

theorem allResolved_empty : AllResolved (∅ : FileSystem L) := by
  rintro path config hread _ ⟨key, group, id, participant, hg, -, -⟩
  simp only [Config.read, Map.lookup_empty, Outcome.ok.injEq] at hread
  subst hread
  rw [Config.default, Map.lookup_empty] at hg
  cases hg

theorem sound_of_reachable (hL : L.Lawful) {fs : FileSystem L} (h : (commands L).Reachable fs) :
    Sound fs := by
  refine h.invariant ?_ ?_
  · rintro _ rfl
    exact sound_empty
  · exact fun _ _ _ _ hsound hstep => sound_execute hL hsound hstep

/-- The sequences of commands that keep the participants in the address book at every step
are those after each of whose commands all groups are listed. -/
theorem groups_listed_iff (hL : L.Lawful) {invocations : List (Invocation L)} {fs : FileSystem L} :
    ((commands L).restrict KeepsParticipants).Run invocations fs ↔
      ((commands L).within (GroupsListed L)).Run invocations fs := by
  refine TransitionSystem.run_restrict_iff_within ?_ ?_
  · rintro _ rfl
    exact (groupsListed_iff sound_empty).mpr allResolved_empty
  · intro fs invocation fs' hreach hlisted hstep
    have hsound := sound_of_reachable hL hreach
    rw [groupsListed_iff (sound_execute hL hsound hstep)]
    exact keepsParticipants_iff hL hsound ((groupsListed_iff hsound).mp hlisted) hstep

theorem run_of_foldM {invocations invocations' : List (Invocation L)} {fs fs' : FileSystem L}
    (h : (commands L).Run invocations fs)
    (h' : Outcome.foldM execute fs invocations' = .ok fs') :
    (commands L).Run (invocations ++ invocations') fs' := by
  induction invocations' generalizing invocations fs with
  | nil =>
    obtain rfl := Outcome.ok.inj h'
    rwa [List.append_nil]
  | cons invocation invocations' ih =>
    obtain ⟨fs₁, hstep, hrest⟩ := Outcome.bind_eq_ok_iff.mp h'
    rw [List.append_cons]
    exact ih (h.snoc hstep) hrest

def sampleShares (n : ℕ) : Map ℕ UInt8 := .ofList ((List.range n).map fun i => (i, i.toUInt8))

theorem len_sampleShares (n : ℕ) : (sampleShares n).len = n := by
  rw [sampleShares, Map.len_ofList, List.length_map, List.length_range]
  rw [List.map_map]
  exact List.nodup_range.map fun _ _ h => h

def sampleCiphersuite (ID : String) : Ciphersuite where
  ID := ID
  Identifier := ℕ
  SecretShare := UInt8
  KeyPackage := UInt8
  PublicKeyPackage := UInt8
  Round1Package := Unit
  Round2Package := Unit
  decodeDkg := ⟨fun _ => none, fun _ => none, fun _ => none⟩
  serializeIdentifier i := [i.toUInt8]
  derive _ _ := none
  generateWithDealer maxSigners _ rng :=
    some (sampleShares maxSigners.toNat, rng.toUInt8)
  evenY := none
  keyPackageTryFrom := some
  minSigners _ := 2
  verifyingKey p := some [p]
  verifyingShares _ := ∅
  encodeKeyPackage k := some [k]
  decodeKeyPackage := List.head?
  encodePublicKeyPackage p := some [p]
  decodePublicKeyPackage := List.head?

def sampleLibraries : Libraries where
  ciphersuite name := sampleCiphersuite (if name = .ed25519 then "ed25519" else "redpallas")
  Text := Config
  tomlToStringPretty config := some { config with path := none }
  tomlFromStr := some
  bech32Decode _ := none
  postcardContact _ := none
  urlHostStr _ := none
  defaultPath := "credentials.toml"

theorem sampleLibraries_lawful : sampleLibraries.Lawful where
  toml h := by
    obtain rfl := Option.some.inj h
    rfl
  keyPackage h := by
    obtain rfl := Option.some.inj h
    rfl
  publicKeyPackage h := by
    obtain rfl := Option.some.inj h
    rfl
  generateWithDealer h := by
    obtain ⟨rfl, -⟩ := Prod.mk.inj (Option.some.inj h)
    exact len_sampleShares _
  ID_ne := by decide

/-- Two users, and a trusted dealer who gives them names. -/
def sampleInvocations (names : List String) : List (Invocation sampleLibraries) :=
  [.init (some "a") (some ⟨[], ⟨[1]⟩⟩), .init (some "b") (some ⟨[], ⟨[2]⟩⟩),
    .trustedDealer ⟨["a", "b"], "group", names, none, "ed25519", 2, 2⟩ 0]

def sampleConfig (key : UInt8) : Config := { Config.default with
  communicationKey := some ⟨[], ⟨[key]⟩⟩ }

def sampleFiles : FileSystem sampleLibraries :=
  (Map.insert (∅ : Map String Config) "a" (sampleConfig 1)).insert "b" (sampleConfig 2)

theorem namesKept_sample :
    NamesKept sampleFiles ⟨["a", "b"], "group", ["alice", "bob"], none, "ed25519", 2, 2⟩ 0 := by
  intro name shares publicKeyPackage dealt path config verifyingKey hname hkeygen hdealt hpath hread
    hkey pubkey hparticipant
  obtain rfl : CiphersuiteName.ed25519 = name := Outcome.ok.inj hname
  obtain ⟨rfl, rfl⟩ : sampleShares 2 = shares ∧ (0 : UInt8) = publicKeyPackage :=
    Prod.mk.inj (Outcome.ok.inj hkeygen)
  obtain rfl : [((0 : ℕ), ⟨none, "alice", ⟨[1]⟩⟩), ((1 : ℕ), ⟨none, "bob", ⟨[2]⟩⟩)] = dealt :=
    Outcome.ok.inj hdealt
  have hgroup : config.group = ∅ := by
    obtain rfl | rfl : path = "a" ∨ path = "b" := by simpa using hpath
    all_goals
      obtain rfl := Outcome.ok.inj hread
      rfl
  obtain ⟨key, group, id, participant, hg, -, -⟩ | ⟨id, participant, hp, rfl⟩ := hparticipant
  · rw [hgroup, Map.lookup_erase, Map.lookup_empty, ite_self] at hg
    cases hg
  · obtain ⟨⟨i, contact⟩, hmem, heq⟩ := List.mem_map.mp (Map.mem_of_lookup_ofList hp)
    obtain ⟨-, rfl⟩ := Prod.mk.inj heq
    obtain heq | hmem := List.mem_cons.mp hmem
    · obtain ⟨rfl, rfl⟩ := Prod.mk.inj heq
      exact .inr (.inr ⟨_, [⟨none, "bob", ⟨[2]⟩⟩], List.suffix_rfl, rfl, by decide⟩)
    · obtain ⟨rfl, rfl⟩ := Prod.mk.inj (List.mem_singleton.mp hmem)
      exact .inr (.inr ⟨_, [], List.suffix_cons _ _, rfl, by decide⟩)

theorem groups_listed_sample : ∃ fs,
    ((commands sampleLibraries).within (GroupsListed sampleLibraries)).Run
      (sampleInvocations ["alice", "bob"]) fs := by
  obtain ⟨fs, hfs⟩ := Outcome.isOk_iff.mp (show (execute sampleFiles (.trustedDealer
    ⟨["a", "b"], "group", ["alice", "bob"], none, "ed25519", 2, 2⟩ 0)).isOk = true by decide)
  refine ⟨fs, (groups_listed_iff sampleLibraries_lawful).mp ?_⟩
  have hstart : ((commands sampleLibraries).restrict KeepsParticipants).Run [] ∅ := .start rfl
  have hone : ((commands sampleLibraries).restrict KeepsParticipants).Run
      [.init (some "a") (some ⟨[], ⟨[1]⟩⟩)] (Map.insert (∅ : Map String Config) "a" (sampleConfig 1)) :=
    hstart.snoc ⟨trivial, rfl⟩
  have htwo : ((commands sampleLibraries).restrict KeepsParticipants).Run
      [.init (some "a") (some ⟨[], ⟨[1]⟩⟩), .init (some "b") (some ⟨[], ⟨[2]⟩⟩)] sampleFiles :=
    hone.snoc ⟨trivial, rfl⟩
  exact htwo.snoc ⟨namesKept_sample, hfs⟩

theorem list_fails {invocations : List (Invocation L)} (path : Option String)
    (hok : (Outcome.foldM execute (∅ : FileSystem L) invocations).isOk = true)
    (hlist : ((Outcome.foldM execute (∅ : FileSystem L) invocations).bind fun fs =>
      Group.list L fs path).isOk = false) :
    ∃ fs, (commands L).Run invocations fs ∧ ¬GroupsListed L fs := by
  obtain ⟨fs, hfs⟩ := Outcome.isOk_iff.mp hok
  refine ⟨fs, run_of_foldM (.start rfl) hfs, fun hlisted => ?_⟩
  obtain ⟨config, -, -, texts, htexts, -⟩ := hlisted path
  rw [hfs, Outcome.bind, htexts] at hlist
  cases hlist

/-- A name given twice replaces a contact, and a removed contact is still a participant. -/
theorem listing_fails :
    (∃ fs, (commands sampleLibraries).Run (sampleInvocations ["alice", "alice"]) fs ∧
      ¬GroupsListed sampleLibraries fs) ∧
    ∃ fs, (commands sampleLibraries).Run
        (sampleInvocations ["alice", "bob"] ++ [.removeContact (some "a") "02"]) fs ∧
      ¬GroupsListed sampleLibraries fs :=
  ⟨list_fails (some "b") (by decide) (by decide),
    list_fails (some "a") (by decide) (by decide)⟩

end FrostTools.Client
