import FrostTools.Client.Commands

/-!
# Listing the groups of a config file

A group is printed if all its participants are in the address book. The commands that
take a contact out of the book, or put another one in its place, can make that fail.
-/

namespace FrostTools.Client

variable {L : Libraries} {C : Ciphersuite} {config : Config} {pubkey : PublicKey}

namespace Config

def Knows (config : Config) (pubkey : PublicKey) : Prop :=
  some pubkey = config.communicationKey.map CommunicationKey.pubkey ∨
    ∃ name contact, config.contact.lookup name = some contact ∧ contact.pubkey = pubkey

theorem contactByPubkey_ok_iff :
    (∃ contact, config.contactByPubkey pubkey = .ok contact) ↔ config.Knows pubkey := by
  unfold contactByPubkey Knows
  split_ifs with hown
  · simp [hown]
  · simp only [hown, false_or, Outcome.okOr_eq_ok_iff, ← Option.isSome_iff_exists,
      List.find?_isSome, List.mem_map, Prod.exists, decide_eq_true_eq]
    constructor
    · rintro ⟨_, ⟨name, contact, hmem, rfl⟩, hp⟩
      exact ⟨name, contact, Map.mem_toSortedList.mp hmem, hp⟩
    · rintro ⟨name, contact, hlookup, hp⟩
      exact ⟨contact, ⟨name, contact, Map.mem_toSortedList.mpr hlookup, rfl⟩, hp⟩

theorem Knows.mono {config' : Config} (h : config.Knows pubkey)
    (hkey : ∀ key, config.communicationKey = some key → config'.communicationKey = some key)
    (hcontact : ∀ name contact, config.contact.lookup name = some contact →
      config'.contact.lookup name = some contact) : config'.Knows pubkey := by
  obtain hown | ⟨name, contact, hlookup, hp⟩ := h
  · obtain ⟨key, hk, rfl⟩ := Option.map_eq_some_iff.mp hown.symm
    exact .inl (by rw [hkey key hk]; rfl)
  · exact .inr ⟨name, contact, hcontact name contact hlookup, hp⟩

def HasParticipant (config : Config) (pubkey : PublicKey) : Prop :=
  ∃ key group id participant, config.group.lookup key = some group ∧
    group.participant.lookup id = some participant ∧ participant.pubkey = pubkey

def Resolved (config : Config) : Prop := ∀ pubkey, config.HasParticipant pubkey → config.Knows pubkey

end Config

def Group.Readable (L : Libraries) (group : Group) : Prop :=
  ∃ name info, ciphersuiteHelper L group.ciphersuite = .ok name ∧
    groupInfo (L.ciphersuite name) group.keyPackage group.publicKeyPackage = .ok info

theorem Group.asHumanReadableSummary_ok_iff {group : Group} :
    (∃ s, group.asHumanReadableSummary L config = .ok s) ↔ group.Readable L ∧
      ∀ id participant, group.participant.lookup id = some participant →
        config.Knows participant.pubkey := by
  have hlines : (∃ lines, Outcome.mapM (fun participant : Participant =>
        (config.contactByPubkey participant.pubkey).bind fun contact => (.ok
          ("\t" ++ contact.name ++ "\t(" ++ hexEncode contact.pubkey.bytes ++ ")\n") :
            Outcome ConfigError String)) (group.participant.toSortedList.map Prod.snd) = .ok lines) ↔
      ∀ id participant, group.participant.lookup id = some participant →
        config.Knows participant.pubkey := by
    rw [Outcome.exists_mapM_eq_ok_iff]
    simp only [List.mem_map, Prod.exists, exists_eq_right, Map.mem_toSortedList,
      Outcome.bind_eq_ok_iff, Outcome.ok.injEq, forall_exists_index]
    constructor
    · intro h id participant hp
      obtain ⟨_, contact, hc, -⟩ := h participant id hp
      exact Config.contactByPubkey_ok_iff.mp ⟨contact, hc⟩
    · intro h participant id hp
      obtain ⟨contact, hc⟩ := Config.contactByPubkey_ok_iff.mpr (h id participant hp)
      exact ⟨_, contact, hc, rfl⟩
  rw [← hlines]
  simp only [asHumanReadableSummary, Readable, Outcome.bind_eq_ok_iff, Outcome.ok.injEq]
  constructor
  · rintro ⟨_, name, hname, info, hinfo, lines, hl, -⟩
    exact ⟨⟨name, info, hname, hinfo⟩, lines, hl⟩
  · rintro ⟨⟨name, info, hname, hinfo⟩, lines, hl⟩
    exact ⟨_, name, hname, info, hinfo, lines, hl, rfl⟩

/-- What makes `groups` print every group of a config. -/
def Config.Listable (L : Libraries) (config : Config) : Prop :=
  (∀ key group, config.group.lookup key = some group → group.Readable L) ∧ config.Resolved

theorem Group.list_ok_iff {fs : FileSystem L} {path : Option String}
    (hread : Config.read fs path = .ok config) :
    (∃ texts, list L fs path = .ok texts) ↔ config.Listable L := by
  have hlist : (∃ texts, list L fs path = .ok texts) ↔ ∀ key group,
      config.group.lookup key = some group →
        ∃ s, group.asHumanReadableSummary L config = .ok s := by
    simp only [list, hread, Outcome.bind, Outcome.exists_mapM_eq_ok_iff, List.mem_map, Prod.exists,
      exists_eq_right, Map.mem_toSortedList, forall_exists_index]
    exact forall_comm
  rw [hlist]
  constructor
  · intro h
    refine ⟨fun key group hg => (asHumanReadableSummary_ok_iff.mp (h key group hg)).1, ?_⟩
    rintro _ ⟨key, group, id, participant, hg, hp, rfl⟩
    exact (asHumanReadableSummary_ok_iff.mp (h key group hg)).2 id participant hp
  · rintro ⟨hreadable, hresolved⟩ key group hg
    refine asHumanReadableSummary_ok_iff.mpr ⟨hreadable key group hg, fun id participant hp => ?_⟩
    exact hresolved _ ⟨key, group, id, participant, hg, hp, rfl⟩

section Files

variable {fs fs' : FileSystem L} {path : Option String}

theorem Config.read_path (h : Config.read fs path = .ok config) :
    config.path = some (parsePath L path) := by
  simp only [read] at h
  split at h
  · obtain rfl := Outcome.ok.inj h
    rfl
  · obtain ⟨_, _, hc⟩ := Outcome.bind_eq_ok_iff.mp h
    obtain rfl := Outcome.ok.inj hc
    rfl

/-- A written config is read back, and every other file as before. -/
theorem Config.read_write (hL : L.Lawful) {file : String} (hfile : config.path = some file)
    (h : config.write fs = .ok fs') (path : Option String) :
    read fs' path = if parsePath L path = file then .ok config else read fs path := by
  simp only [write, hfile, Outcome.bind_eq_ok_iff, Outcome.okOr_eq_ok_iff, Option.some.injEq,
    exists_eq_left', Outcome.ok.injEq] at h
  obtain ⟨text, htext, rfl⟩ := h
  split_ifs with heq
  · subst heq
    simp only [read, Map.lookup_insert_self, hL.toml htext, Outcome.okOr, Outcome.bind]
    rw [← hfile]
  · simp only [read, Map.lookup_insert, if_neg heq]

end Files

/-- Every config file can be read, and so can the groups in it. -/
def Sound (fs : FileSystem L) : Prop :=
  ∀ path, ∃ config, Config.read fs path = .ok config ∧
    ∀ key group, config.group.lookup key = some group → group.Readable L

def AllResolved (fs : FileSystem L) : Prop :=
  ∀ path config, Config.read fs path = .ok config → config.Resolved

structure Rewrites (fs fs' : FileSystem L) (path : Option String) (config config' : Config) :
    Prop where
  before : Config.read fs path = .ok config
  after : ∀ path', Config.read fs' path' =
    if Config.parsePath L path' = Config.parsePath L path then .ok config'
    else Config.read fs path'

section Commands

variable {fs fs' : FileSystem L} {path : Option String} {config' : Config}

theorem Rewrites.of_write (hL : L.Lawful) (hread : Config.read fs path = .ok config)
    (hwrite : config'.write fs = .ok fs') (hpath : config'.path = config.path) :
    Rewrites fs fs' path config config' where
  before := hread
  after := Config.read_write hL (hpath.trans (Config.read_path hread)) hwrite

theorem read_congr {path' : Option String}
    (h : Config.parsePath L path' = Config.parsePath L path) :
    Config.read fs path' = Config.read fs path := by
  unfold Config.read
  rw [h]

theorem Rewrites.sound (h : Rewrites fs fs' path config config') (hfs : Sound fs)
    (hgroups : (∀ key group, config.group.lookup key = some group → group.Readable L) →
      ∀ key group, config'.group.lookup key = some group → group.Readable L) : Sound fs' := by
  intro path'
  rw [h.after]
  split_ifs
  · obtain ⟨_, hread, hold⟩ := hfs path
    obtain rfl := Outcome.ok.inj (h.before.symm.trans hread)
    exact ⟨config', rfl, hgroups hold⟩
  · exact hfs path'

theorem Rewrites.allResolved_iff (h : Rewrites fs fs' path config config') (hfs : AllResolved fs) :
    AllResolved fs' ↔ config'.Resolved := by
  constructor
  · intro h'
    exact h' path config' (by rw [h.after, if_pos rfl])
  · intro hc path' config'' hread
    rw [h.after] at hread
    split_ifs at hread
    · obtain rfl := Outcome.ok.inj hread
      exact hc
    · exact hfs path' config'' hread

structure Config.Extends (config config' : Config) : Prop where
  communicationKey : ∀ key, config.communicationKey = some key →
    config'.communicationKey = some key
  contact : ∀ name contact, config.contact.lookup name = some contact →
    config'.contact.lookup name = some contact
  group : ∀ key group, config'.group.lookup key = some group →
    config.group.lookup key = some group

theorem Config.Extends.resolved (h : config.Extends config') (hc : config.Resolved) :
    config'.Resolved := by
  rintro _ ⟨key, group, id, participant, hg, hp, rfl⟩
  exact (hc _ ⟨key, group, id, participant, h.group key group hg, hp, rfl⟩).mono
    h.communicationKey h.contact

theorem init_cases (hL : L.Lawful) {keypair : Option CommunicationKey}
    (h : init fs path keypair = .ok fs') :
    ∃ config config', Rewrites fs fs' path config config' ∧
      (config' = config ∨ config.communicationKey = none ∧ ∃ key, keypair = some key ∧
        config' = { config with communicationKey := some key }) := by
  obtain ⟨config, hread, h⟩ := Outcome.bind_eq_ok_iff.mp h
  split at h
  · exact ⟨config, config, .of_write hL hread h rfl, .inl rfl⟩
  · next hnone =>
    obtain ⟨key, hkey, hwrite⟩ := Outcome.bind_eq_ok_iff.mp h
    exact ⟨config, _, .of_write hL hread hwrite rfl,
      .inr ⟨hnone, key, Outcome.okOr_eq_ok_iff.mp hkey, rfl⟩⟩

theorem init_ok (hL : L.Lawful) {keypair : Option CommunicationKey}
    (h : init fs path keypair = .ok fs') :
    ∃ config config', Rewrites fs fs' path config config' ∧ config.Extends config' := by
  obtain ⟨config, config', hrewrites, rfl | ⟨hnone, key, -, rfl⟩⟩ := init_cases hL h
  · exact ⟨config', config', hrewrites, fun _ h => h, fun _ _ h => h, fun _ _ h => h⟩
  · refine ⟨config, _, hrewrites, fun key hkey => ?_, fun _ _ h => h, fun _ _ h => h⟩
    rw [hnone] at hkey
    cases hkey

theorem importContact_cases (hL : L.Lawful) {textContact : String}
    (h : Contact.importContact fs textContact path = .ok fs') :
    ∃ config contact, Contact.fromText L textContact = .ok contact ∧
      contact.name ∉ config.contact.keys ∧
      (∀ name c, config.contact.lookup name = some c → c.pubkey ≠ contact.pubkey) ∧
      config.communicationKey.map CommunicationKey.pubkey ≠ some contact.pubkey ∧
      Rewrites fs fs' path config { config with
        contact := config.contact.insert contact.name { contact with version := none } } := by
  obtain ⟨config, hread, h⟩ := Outcome.bind_eq_ok_iff.mp h
  obtain ⟨contact, hcontact, h⟩ := Outcome.bind_eq_ok_iff.mp h
  split_ifs at h with hname hpubkey hown
  refine ⟨config, contact, hcontact, hname, fun name c hc heq => hpubkey ?_, hown,
    .of_write hL hread h rfl⟩
  rw [List.any_eq_true]
  exact ⟨c, List.mem_map.mpr ⟨(name, c), Map.mem_toSortedList.mpr hc, rfl⟩, decide_eq_true heq⟩

theorem importContact_ok (hL : L.Lawful) {textContact : String}
    (h : Contact.importContact fs textContact path = .ok fs') :
    ∃ config config', Rewrites fs fs' path config config' ∧ config.Extends config' := by
  obtain ⟨config, contact, -, hname, -, -, hrewrites⟩ := importContact_cases hL h
  refine ⟨config, _, hrewrites, fun _ h => h, fun name c hc => ?_, fun _ _ h => h⟩
  -- the name of the imported contact is new
  have hne : name ≠ contact.name := by
    rintro rfl
    exact hname (Map.mem_keys_of_lookup hc)
  rw [Map.lookup_insert, if_neg hne, hc]

theorem removeGroup_cases (hL : L.Lawful) {group : String}
    (h : Group.remove fs path group = .ok fs') :
    ∃ config, Rewrites fs fs' path config { config with group := config.group.erase group } := by
  obtain ⟨config, hread, h⟩ := Outcome.bind_eq_ok_iff.mp h
  split_ifs at h
  exact ⟨config, .of_write hL hread h rfl⟩

theorem removeGroup_ok (hL : L.Lawful) {group : String}
    (h : Group.remove fs path group = .ok fs') :
    ∃ config config', Rewrites fs fs' path config config' ∧ config.Extends config' := by
  obtain ⟨config, hrewrites⟩ := removeGroup_cases hL h
  refine ⟨config, _, hrewrites, fun _ h => h, fun _ _ h => h, fun key g hg => ?_⟩
  rw [Map.lookup_erase] at hg
  split_ifs at hg
  exact hg

theorem removeContact_ok (hL : L.Lawful) {pubkey : String}
    (h : Contact.remove fs path pubkey = .ok fs') :
    ∃ config name contact, Contact.findByHex config pubkey = some (name, contact) ∧
      Rewrites fs fs' path config { config with contact := config.contact.erase name } := by
  obtain ⟨config, hread, h⟩ := Outcome.bind_eq_ok_iff.mp h
  obtain ⟨⟨name, contact⟩, hfind, hwrite⟩ := Outcome.bind_eq_ok_iff.mp h
  exact ⟨config, name, contact, Outcome.okOr_eq_ok_iff.mp hfind, .of_write hL hread hwrite rfl⟩

theorem groupInfo_ok {C : Ciphersuite} {keyPackage publicKeyPackage verifyingKey : Bytes}
    {k : C.KeyPackage} {p : C.PublicKeyPackage} (hk : C.decodeKeyPackage keyPackage = some k)
    (hp : C.decodePublicKeyPackage publicKeyPackage = some p)
    (hv : C.verifyingKey p = some verifyingKey) :
    ∃ info, groupInfo C keyPackage publicKeyPackage = .ok info := by
  simp only [groupInfo, hk, hp, hv, Outcome.okOr, Outcome.bind]
  exact ⟨_, rfl⟩

theorem ciphersuiteHelper_ID (hL : L.Lawful) (name : CiphersuiteName) :
    ciphersuiteHelper L (L.ciphersuite name).ID = .ok name := by
  cases name with
  | ed25519 => exact if_pos rfl
  | redpallas =>
    rw [ciphersuiteHelper, if_neg hL.ID_ne.symm, if_pos rfl]

theorem Group.readable_of_encoded (hL : L.Lawful) {name : CiphersuiteName} {group : Group}
    {k : (L.ciphersuite name).KeyPackage} {p : (L.ciphersuite name).PublicKeyPackage}
    {verifyingKey : Bytes} (hID : group.ciphersuite = (L.ciphersuite name).ID)
    (hk : (L.ciphersuite name).encodeKeyPackage k = some group.keyPackage)
    (hp : (L.ciphersuite name).encodePublicKeyPackage p = some group.publicKeyPackage)
    (hv : (L.ciphersuite name).verifyingKey p = some verifyingKey) : group.Readable L := by
  obtain ⟨info, hinfo⟩ := groupInfo_ok (hL.keyPackage hk) (hL.publicKeyPackage hp) hv
  exact ⟨name, info, hID ▸ ciphersuiteHelper_ID hL name, hinfo⟩

theorem deliver_pubkeys {I R1 R2 : Type} [DecidableEq I] [DecidableEq R1]
    {decode : Session.DKGDecoder I R1 R2} {self : I} {msgs : List Msg}
    {st st' : Session.DKGSessionState I R1 R2}
    (h : deliver (fun st msg => Session.DKGSessionState.recv decode st msg self) st msgs = some st') :
    st'.pubkeys = st.pubkeys := by
  induction msgs generalizing st with
  | nil =>
    obtain rfl := Option.some.inj h
    rfl
  | cons msg msgs ih =>
    simp only [deliver] at h
    split at h
    · next st₁ hrecv =>
      obtain ⟨p, -, ha⟩ := Session.DKGSessionState.recv_ok_iff.mp hrecv
      exact (ih h).trans ha.pubkeys
    · cases h

/-- A key generation that ends, with the map that its session began with. -/
theorem dkgOverHttp_cases {inputs : DkgInputs C} {getter : PublicKey → Option PublicKey}
    {minSigners : UInt16} {participants : List PublicKey} {k : C.KeyPackage}
    {p : C.PublicKeyPackage} {pubkeyMap : Map PublicKey C.Identifier}
    (h : dkgOverHttp inputs pubkey getter minSigners participants = .ok (k, p, pubkeyMap)) :
    ∃ sessionId members identifier, inputs.session participants = some (sessionId, members) ∧
      sessionPubkeys C sessionId members = .ok pubkeyMap ∧ 2 ≤ pubkeyMap.len ∧
      C.derive sessionId pubkey = some identifier ∧
      (∀ pubkey ∈ pubkeyMap.keys, getter pubkey ≠ none) ∧
      inputs.part3 identifier pubkeyMap.len.toUInt16 minSigners = some (k, p) := by
  obtain ⟨⟨sessionId, members⟩, hsession, h⟩ := Outcome.bind_eq_ok_iff.mp h
  obtain ⟨pubkeys, hpubkeys, h⟩ := Outcome.bind_eq_ok_iff.mp h
  obtain ⟨htwo, h⟩ := Outcome.ite_err_eq_ok_iff.mp h
  obtain ⟨identifier, hidentifier, h⟩ := Outcome.bind_eq_ok_iff.mp h
  obtain ⟨hgetter, h⟩ := Outcome.ite_err_eq_ok_iff.mp h
  obtain ⟨st, hdeliver, h⟩ := Outcome.bind_eq_ok_iff.mp h
  obtain ⟨⟨k', p'⟩, hpart3, h⟩ := Outcome.bind_eq_ok_iff.mp h
  obtain ⟨pubkeyMap', hmap, h⟩ := Outcome.bind_eq_ok_iff.mp h
  obtain ⟨rfl, rfl, rfl⟩ : k' = k ∧ p' = p ∧ pubkeyMap' = pubkeyMap := by simpa using h
  -- the session state keeps its map
  have hst := deliver_pubkeys (Outcome.okOr_eq_ok_iff.mp hdeliver)
  unfold getPubkeyIdentifierMap at hmap
  split at hmap
  · next pubkeys' _ _ =>
    obtain rfl := Outcome.ok.inj hmap
    obtain rfl : pubkeys' = pubkeys := hst
    exact ⟨sessionId, members, identifier, Outcome.okOr_eq_ok_iff.mp hsession, hpubkeys,
      not_lt.mp htwo, Outcome.okOr_eq_ok_iff.mp hidentifier,
      fun pubkey hmem hnone => hgetter ⟨pubkey, hmem, hnone⟩, Outcome.okOr_eq_ok_iff.mp hpart3⟩
  · cases hmap

theorem dkgParticipants_pubkey {p : C.PublicKeyPackage} {pubkeyMap : Map PublicKey C.Identifier}
    {order : List PublicKey} {participants : Map String Participant}
    (h : dkgParticipants p (reversePubkeyMap pubkeyMap order) = .ok participants)
    {id : String} {participant : Participant} (hp : participants.lookup id = some participant) :
    participant.pubkey ∈ pubkeyMap.keys := by
  obtain ⟨entries, hentries, h⟩ := Outcome.bind_eq_ok_iff.mp h
  obtain rfl := Outcome.ok.inj h
  obtain ⟨identifier, -, hi⟩ := Outcome.exists_of_mem_mapM hentries (Map.mem_of_lookup_ofList hp)
  obtain ⟨pubkey, hpubkey, hi⟩ := Outcome.bind_eq_ok_iff.mp hi
  obtain ⟨-, rfl⟩ := Prod.mk.inj (Outcome.ok.inj hi)
  -- the entries of the reversed map come from entries of the map
  obtain ⟨pubkey', -, hentry⟩ := List.mem_filterMap.mp
    (Map.mem_of_lookup_ofList (Outcome.okOr_eq_ok_iff.mp hpubkey))
  obtain ⟨identifier', hlookup, heq⟩ := Option.map_eq_some_iff.mp hentry
  obtain ⟨-, rfl⟩ := Prod.mk.inj heq
  exact Map.mem_keys_of_lookup hlookup

structure Generates {name : CiphersuiteName} (fs fs' : FileSystem L) (args : DkgArgs)
    (inputs : DkgInputs (L.ciphersuite name)) (config : Config) (pubkey : PublicKey)
    (sessionId : Uuid) (members : List PublicKey) (identifier : (L.ciphersuite name).Identifier)
    (k : (L.ciphersuite name).KeyPackage) (p : (L.ciphersuite name).PublicKeyPackage)
    (pubkeyMap : Map PublicKey (L.ciphersuite name).Identifier) (key : String) (group : Group) :
    Prop where
  own : config.communicationKey.map CommunicationKey.pubkey = some pubkey
  session : ∃ participants, inputs.session participants = some (sessionId, members)
  pubkeys : sessionPubkeys (L.ciphersuite name) sessionId members = .ok pubkeyMap
  two : 2 ≤ pubkeyMap.len
  derived : (L.ciphersuite name).derive sessionId pubkey = some identifier
  knows : ∀ pubkey ∈ pubkeyMap.keys, config.Knows pubkey
  part3 : inputs.part3 identifier pubkeyMap.len.toUInt16 args.threshold = some (k, p)
  participant : dkgParticipants p (reversePubkeyMap pubkeyMap (inputs.iterate pubkeyMap.keys)) =
    .ok group.participant
  readable : group.Readable L
  keyPackage : (L.ciphersuite name).encodeKeyPackage k = some group.keyPackage
  rewrites : Rewrites fs fs' args.config config
    { config with group := config.group.insert key group }

theorem dkgForCiphersuite_stored (hL : L.Lawful) {name : CiphersuiteName} {args : DkgArgs}
    {inputs : DkgInputs (L.ciphersuite name)}
    (h : dkgForCiphersuite (L.ciphersuite name) fs args inputs = .ok fs') :
    ∃ config pubkey sessionId members identifier k p pubkeyMap key group,
      Generates fs fs' args inputs config pubkey sessionId members identifier k p pubkeyMap key
        group ∧ group.ciphersuite = (L.ciphersuite name).ID ∧
      (L.ciphersuite name).encodePublicKeyPackage p = some group.publicKeyPackage ∧
      ∃ verifyingKey, (L.ciphersuite name).verifyingKey p = some verifyingKey ∧
        key = hexEncode verifyingKey := by
  obtain ⟨config, hread, h⟩ := Outcome.bind_eq_ok_iff.mp h
  obtain ⟨host, -, h⟩ := Outcome.bind_eq_ok_iff.mp h
  obtain ⟨key, hkey, h⟩ := Outcome.bind_eq_ok_iff.mp h
  obtain ⟨_, -, h⟩ := Outcome.bind_eq_ok_iff.mp h
  obtain ⟨_, -, h⟩ := Outcome.bind_eq_ok_iff.mp h
  obtain ⟨⟨k, p, pubkeyMap⟩, hdkg, h⟩ := Outcome.bind_eq_ok_iff.mp h
  obtain ⟨participants, hparticipants, h⟩ := Outcome.bind_eq_ok_iff.mp h
  obtain ⟨keyPackage, hk, h⟩ := Outcome.bind_eq_ok_iff.mp h
  obtain ⟨encoded, hp, h⟩ := Outcome.bind_eq_ok_iff.mp h
  obtain ⟨config', hread', h⟩ := Outcome.bind_eq_ok_iff.mp h
  obtain ⟨verifyingKey, hv, hwrite⟩ := Outcome.bind_eq_ok_iff.mp h
  obtain rfl := Outcome.ok.inj (hread.symm.trans hread')
  rw [Outcome.okOr_eq_ok_iff] at hkey hk hp hv
  obtain ⟨sessionId, members, identifier, hsession, hpubkeys, htwo, hidentifier, hgetter, hpart3⟩ :=
    dkgOverHttp_cases hdkg
  refine ⟨config, key.pubkey, sessionId, members, identifier, k, p, pubkeyMap, hexEncode verifyingKey,
    _, ⟨by rw [hkey]; rfl, ⟨_, hsession⟩, hpubkeys, htwo, hidentifier, fun pubkey hmem => ?_, hpart3,
      hparticipants, Group.readable_of_encoded hL rfl hk hp hv, hk, .of_write hL hread hwrite rfl⟩,
    rfl, hp, verifyingKey, hv, rfl⟩
  have hknown := hgetter pubkey hmem
  split at hknown
  · next contact hcontact => exact Config.contactByPubkey_ok_iff.mp ⟨contact, hcontact⟩
  · exact absurd rfl hknown

theorem dkgForCiphersuite_cases (hL : L.Lawful) {name : CiphersuiteName} {args : DkgArgs}
    {inputs : DkgInputs (L.ciphersuite name)}
    (h : dkgForCiphersuite (L.ciphersuite name) fs args inputs = .ok fs') :
    ∃ config pubkey sessionId members identifier k p pubkeyMap key group,
      Generates fs fs' args inputs config pubkey sessionId members identifier k p pubkeyMap key
        group := by
  obtain ⟨config, pubkey, sessionId, members, identifier, k, p, pubkeyMap, key, group, hgenerates, -⟩ :=
    dkgForCiphersuite_stored hL h
  exact ⟨config, pubkey, sessionId, members, identifier, k, p, pubkeyMap, key, group, hgenerates⟩

theorem dkg_ok (hL : L.Lawful) {args : DkgArgs}
    {inputs : (name : CiphersuiteName) → DkgInputs (L.ciphersuite name)}
    (h : dkg fs args inputs = .ok fs') :
    ∃ config key group, Rewrites fs fs' args.config config
        { config with group := config.group.insert key group } ∧ group.Readable L ∧
      ∀ id participant, group.participant.lookup id = some participant →
        config.Knows participant.pubkey := by
  obtain ⟨name, -, h⟩ := Outcome.bind_eq_ok_iff.mp h
  obtain ⟨config, _, _, _, _, _, _, _, key, group, hgenerates⟩ := dkgForCiphersuite_cases hL h
  refine ⟨config, key, group, hgenerates.rewrites, hgenerates.readable, fun id participant hlookup => ?_⟩
  exact hgenerates.knows _ (dkgParticipants_pubkey hgenerates.participant hlookup)

end Commands

end FrostTools.Client
