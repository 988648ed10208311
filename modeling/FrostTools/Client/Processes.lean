import FrostTools.Client.AddressBook
import FrostTools.Client.WriteAtomic

/-!
# The commands as processes

A command that writes config files, with each read and each write of them as steps of its own. What it
does between a read and a write is an edit of the config.
-/

namespace FrostTools.Client

variable {L : Libraries} {C : Ciphersuite}

def initEdit (keypair : Option CommunicationKey) (config : Config) : Outcome ConfigError Config :=
  match config.communicationKey with
  | some _ => .ok config
  | none => (Outcome.okOr .library keypair).bind fun keypair =>
      .ok { config with communicationKey := some keypair }

def importEdit (L : Libraries) (textContact : String) (config : Config) :
    Outcome ConfigError Config :=
  (Contact.fromText L textContact).bind fun contact =>
    if contact.name ∈ config.contact.keys then
      .err (.eyre ("contact with name " ++ contact.name ++ " already exists. Either remove the " ++
        "existing one, or ask the sender to change their display name when exporting"))
    else if (config.contact.toSortedList.map Prod.snd).any fun c => c.pubkey = contact.pubkey then
      .err (.eyre ("pubkey " ++ hexEncode contact.pubkey.bytes ++ " already registered for " ++
        contact.name))
    else if config.communicationKey.map CommunicationKey.pubkey = some contact.pubkey then
      .err (.eyre ("pubkey " ++ hexEncode contact.pubkey.bytes ++ " already registered for yourself"))
    else
      .ok { config with
        contact := config.contact.insert contact.name { contact with version := none } }

def removeEdit (pubkey : String) (config : Config) : Outcome ConfigError Config :=
  (Outcome.okOr (.eyre "contact not found") (Contact.findByHex config pubkey)).bind fun (name, _) =>
    .ok { config with contact := config.contact.erase name }

def removeGroupEdit (group : String) (config : Config) : Outcome ConfigError Config :=
  if group ∉ config.group.keys then .err (.eyre "group not found")
  else .ok { config with group := config.group.erase group }

def storeShareEdit (args : TrustedDealerArgs) (publicKeyPackage : C.PublicKeyPackage)
    (dealt : List (C.Identifier × Contact)) (share : C.SecretShare) (config : Config) :
    Outcome ConfigError Config :=
  (Outcome.okOr .library (C.keyPackageTryFrom share)).bind fun keyPackage =>
  (Outcome.okOr .library (C.encodeKeyPackage keyPackage)).bind fun keyPackage =>
  (Outcome.okOr .library (C.encodePublicKeyPackage publicKeyPackage)).bind fun encoded =>
  (Outcome.okOr .library (C.verifyingKey publicKeyPackage)).bind fun verifyingKey =>
    .ok { config with
      group := config.group.insert (hexEncode verifyingKey)
        ⟨args.description, C.ID, encoded, keyPackage, args.serverUrl, participantsOf dealt⟩
      contact := addContacts config.contact (dealt.map Prod.snd) }

/-- The group that a key generation makes with the config that it starts with. -/
def dkgGroup (L : Libraries) (C : Ciphersuite) (args : DkgArgs) (inputs : DkgInputs C)
    (config : Config) : Outcome ConfigError (C.PublicKeyPackage × Group) :=
  (Outcome.okOr .library (L.urlHostStr ("https://" ++ args.serverUrl))).bind fun host =>
  (Outcome.okOr (.eyre "user not initialized") config.communicationKey).bind fun key =>
  (Outcome.okOr .library (args.participants.mapM hexDecode)).bind fun participants =>
  (Outcome.okOr (.eyre "host missing in URL") host).bind fun _ =>
    let participants := participants.map PublicKey.mk
    let participants :=
      if participants ≠ [] ∧ key.pubkey ∉ participants then participants ++ [key.pubkey]
      else participants
    let getter participantPubkey :=
      match config.contactByPubkey participantPubkey with
      | .ok contact => some contact.pubkey
      | _ => none
    (dkgOverHttp inputs key.pubkey getter args.threshold participants).bind
      fun (keyPackage, publicKeyPackage, pubkeyMap) =>
    (dkgParticipants publicKeyPackage
      (reversePubkeyMap pubkeyMap (inputs.iterate pubkeyMap.keys))).bind fun participants =>
    (Outcome.okOr .library (C.encodeKeyPackage keyPackage)).bind fun keyPackage =>
    (Outcome.okOr .library (C.encodePublicKeyPackage publicKeyPackage)).bind fun encoded =>
      .ok (publicKeyPackage,
        ⟨args.description, C.ID, encoded, keyPackage, some args.serverUrl, participants⟩)

def storeGroupEdit (generated : C.PublicKeyPackage × Group) (config : Config) :
    Outcome ConfigError Config :=
  (Outcome.okOr .library (C.verifyingKey generated.1)).bind fun verifyingKey =>
    .ok { config with group := config.group.insert (hexEncode verifyingKey) generated.2 }

def Invocation.paths : Invocation L → List String
  | .init config _ => [Config.parsePath L config]
  | .importContact _ config => [Config.parsePath L config]
  | .removeContact config _ => [Config.parsePath L config]
  | .trustedDealer args _ => args.config
  | .dkg args _ => [Config.parsePath L args.config]
  | .removeGroup config _ => [Config.parsePath L config]

/-- `as_bytes` and `str::from_utf8` at the contents of config files. -/
structure Encoding (L : Libraries) where
  asBytes : L.Text → Bytes
  fromUtf8 : Bytes → Option L.Text

def Encoding.Lawful (U : Encoding L) : Prop := ∀ text, U.fromUtf8 (U.asBytes text) = some text

namespace Storage

variable (platform : Platform) (U : Encoding L)

/-- Reads the config from the given path, or a default (empty) config if the path does not exist. -/
def readConfig (path : Option String) : Run Config := do
  let path := Config.parsePath L path
  -- a path that cannot be looked at does not exist
  if (← Method.query (F := System) (.pathExists path)) = some true then
    let bytes ← Method.lift (.okOr .library (← Method.query (F := System) (.read path)))
    let text ← Method.lift (.okOr .library (U.fromUtf8 bytes))
    let config ← Method.lift (.okOr .library (L.tomlFromStr text))
    pure { config with path := some path }
  else pure { Config.default with path := some path }

def writeConfig (config : Config) : Run Unit := do
  let text ← Method.lift (.okOr .library (L.tomlToStringPretty config))
  let path ← Method.lift (.okOr (.eyre "path not specified") config.path)
  writeFile platform path (U.asBytes text)

def update (path : Option String) (edit : Config → Outcome ConfigError Config) : Run Unit := do
  let config ← readConfig U path
  let config ← Method.lift (edit config)
  writeConfig platform U config

/-- The first pass over the configs, at one of them. -/
def readUser (dealt : List (C.Identifier × Contact)) : C.Identifier × String × String →
    Run (List (C.Identifier × Contact))
  | (identifier, path, name) => do
    let config ← readConfig U (some path)
    let key ← Method.lift (.okOr (.eyre "config not initialized") config.communicationKey)
    pure (dealt ++ [(identifier, ⟨none, name, key.pubkey⟩)])

def deal (C : Ciphersuite) (args : TrustedDealerArgs) (rng : ℕ) : Run Unit :=
  if args.config.length ≠ args.numSigners.toNat then
    Method.fail (.eyre "The `config` option must specify `num_signers` different config files")
  else if args.names.length ≠ args.numSigners.toNat then
    Method.fail (.eyre "The `names` option must specify `num_signers` names")
  else do
    let (shares, publicKeyPackage) ←
      Method.lift (trustedDealerKeygen C args.numSigners args.threshold rng)
    let dealt ← Method.foldM (readUser U) []
      ((shares.toSortedList.map Prod.fst).zip (args.config.zip args.names))
    Method.foldM
      (fun () (share, path) =>
        update platform U (some path) (storeShareEdit args publicKeyPackage dealt share))
      () ((shares.toSortedList.map Prod.snd).zip args.config)

def process : Invocation L → Run Unit
  | .init config keypair => update platform U config (initEdit keypair)
  | .importContact contact config => update platform U config (importEdit L contact)
  | .removeContact config pubkey => update platform U config (removeEdit pubkey)
  | .trustedDealer args rng => do
    let name ← Method.lift (ciphersuiteOf args.ciphersuite)
    deal platform U (L.ciphersuite name) args rng
  | .dkg args inputs => do
    let name ← Method.lift (ciphersuiteOf args.ciphersuite)
    let config ← readConfig U args.config
    let generated ← Method.lift (dkgGroup L (L.ciphersuite name) args (inputs name) config)
    -- the config is read again
    update platform U args.config (storeGroupEdit generated)
  | .removeGroup config group => update platform U config (removeGroupEdit group)

end Storage

/-- The edit fails without a panic, and does not move the config. -/
structure Edits (edit : Config → Outcome ConfigError Config) : Prop where
  neverPanics : ∀ config, (edit config).NeverPanics
  path : ∀ {config config'}, edit config = .ok config' → config'.path = config.path

theorem edits_init (keypair : Option CommunicationKey) : Edits (initEdit keypair) where
  neverPanics config := by
    unfold initEdit
    split
    · exact .ok _
    · exact (Outcome.NeverPanics.okOr _ _).bind fun _ => .ok _
  path := by
    intro config config' h
    unfold initEdit at h
    split at h
    · cases h
      rfl
    · obtain ⟨key, -, h⟩ := Outcome.bind_eq_ok_iff.mp h
      cases h
      rfl

theorem fromText_neverPanics (L : Libraries) (text : String) :
    (Contact.fromText L text).NeverPanics := by
  refine (Outcome.NeverPanics.okOr _ _).bind fun x => ?_
  dsimp only
  split_ifs
  · exact .err _
  · refine (Outcome.NeverPanics.okOr _ _).bind fun contact => ?_
    split_ifs
    · exact .err _
    · exact .ok _

theorem edits_import (L : Libraries) (text : String) : Edits (importEdit L text) where
  neverPanics config := by
    refine (fromText_neverPanics L text).bind fun contact => ?_
    split_ifs
    · exact .err _
    · exact .err _
    · exact .err _
    · exact .ok _
  path := by
    intro config config' h
    obtain ⟨contact, -, h⟩ := Outcome.bind_eq_ok_iff.mp h
    split_ifs at h
    cases h
    rfl

theorem edits_remove (pubkey : String) : Edits (removeEdit pubkey) where
  neverPanics config := (Outcome.NeverPanics.okOr _ _).bind fun _ => .ok _
  path := by
    intro config config' h
    obtain ⟨contact, -, h⟩ := Outcome.bind_eq_ok_iff.mp h
    cases h
    rfl

theorem edits_removeGroup (group : String) : Edits (removeGroupEdit group) where
  neverPanics config := by
    unfold removeGroupEdit
    split_ifs
    · exact .ok _
    · exact .err _
  path := by
    intro config config' h
    unfold removeGroupEdit at h
    split_ifs at h
    cases h
    rfl

theorem edits_storeShare (args : TrustedDealerArgs) (publicKeyPackage : C.PublicKeyPackage)
    (dealt : List (C.Identifier × Contact)) (share : C.SecretShare) :
    Edits (storeShareEdit args publicKeyPackage dealt share) where
  neverPanics config := (Outcome.NeverPanics.okOr _ _).bind fun _ =>
    (Outcome.NeverPanics.okOr _ _).bind fun _ => (Outcome.NeverPanics.okOr _ _).bind fun _ =>
    (Outcome.NeverPanics.okOr _ _).bind fun _ => .ok _
  path := by
    intro config config' h
    obtain ⟨_, -, h⟩ := Outcome.bind_eq_ok_iff.mp h
    obtain ⟨_, -, h⟩ := Outcome.bind_eq_ok_iff.mp h
    obtain ⟨_, -, h⟩ := Outcome.bind_eq_ok_iff.mp h
    obtain ⟨_, -, h⟩ := Outcome.bind_eq_ok_iff.mp h
    cases h
    rfl

theorem edits_storeGroup (generated : C.PublicKeyPackage × Group) :
    Edits (storeGroupEdit generated) where
  neverPanics config := (Outcome.NeverPanics.okOr _ _).bind fun _ => .ok _
  path := by
    intro config config' h
    obtain ⟨_, -, h⟩ := Outcome.bind_eq_ok_iff.mp h
    cases h
    rfl

theorem dkgOverHttp_neverPanics (inputs : DkgInputs C) (commPubkey : PublicKey)
    (getter : PublicKey → Option PublicKey) (minSigners : UInt16) (participants : List PublicKey) :
    (dkgOverHttp inputs commPubkey getter minSigners participants).NeverPanics := by
  refine (Outcome.NeverPanics.okOr _ _).bind fun x => ?_
  refine Outcome.NeverPanics.bind ?_ fun pubkeys => ?_
  · exact (Outcome.NeverPanics.mapM
      (fun p => (Outcome.NeverPanics.okOr _ _).bind fun _ => .ok _) _).bind fun _ => .ok _
  · split_ifs
    · exact .err _
    · exact (Outcome.NeverPanics.okOr _ _).bind fun _ => .err _
    · refine (Outcome.NeverPanics.okOr _ _).bind fun identifier => ?_
      refine (Outcome.NeverPanics.okOr _ _).bind fun st => ?_
      refine (Outcome.NeverPanics.okOr _ _).bind fun _ => ?_
      refine Outcome.NeverPanics.bind ?_ fun _ => .ok _
      unfold getPubkeyIdentifierMap
      split
      · exact .ok _
      · exact .err _

theorem dkgGroup_neverPanics (args : DkgArgs) (inputs : DkgInputs C) (config : Config) :
    (dkgGroup L C args inputs config).NeverPanics := by
  refine (Outcome.NeverPanics.okOr _ _).bind fun host => ?_
  refine (Outcome.NeverPanics.okOr _ _).bind fun key => ?_
  refine (Outcome.NeverPanics.okOr _ _).bind fun participants => ?_
  refine (Outcome.NeverPanics.okOr _ _).bind fun _ => ?_
  refine (dkgOverHttp_neverPanics _ _ _ _ _).bind fun x => ?_
  refine Outcome.NeverPanics.bind ?_ fun _ => ?_
  · exact (Outcome.NeverPanics.mapM
      (fun p => (Outcome.NeverPanics.okOr _ _).bind fun _ => .ok _) _).bind fun _ => .ok _
  · exact (Outcome.NeverPanics.okOr _ _).bind fun _ => (Outcome.NeverPanics.okOr _ _).bind fun _ => .ok _

theorem trustedDealerKeygen_neverPanics (maxSigners minSigners : UInt16) (rng : ℕ) :
    (trustedDealerKeygen C maxSigners minSigners rng).NeverPanics := by
  refine (Outcome.NeverPanics.okOr _ _).bind fun x => ?_
  dsimp only
  split_ifs
  · exact .ok _
  · exact .err _

theorem ciphersuiteOf_neverPanics (ciphersuite : String) : (ciphersuiteOf ciphersuite).NeverPanics := by
  unfold ciphersuiteOf
  split_ifs
  · exact .ok _
  · exact .ok _
  · exact .err _

def Config.updateFiles (fs : FileSystem L) (path : Option String)
    (edit : Config → Outcome ConfigError Config) : Outcome ConfigError (FileSystem L) :=
  (Config.read fs path).bind fun config => (edit config).bind fun config => config.write fs

section Commands

variable {fs : FileSystem L} {path : Option String}

theorem init_eq_update (keypair : Option CommunicationKey) :
    init fs path keypair = Config.updateFiles fs path (initEdit keypair) := by
  refine congrArg (Outcome.bind _) (funext fun config => ?_)
  unfold initEdit
  cases config.communicationKey with
  | some key => rfl
  | none => cases keypair <;> rfl

theorem importContact_eq_update (text : String) :
    Contact.importContact fs text path = Config.updateFiles fs path (importEdit L text) := by
  refine congrArg (Outcome.bind _) (funext fun config => ?_)
  rw [importEdit, Outcome.bind_assoc]
  refine congrArg (Outcome.bind _) (funext fun contact => ?_)
  split_ifs <;> rfl

theorem remove_eq_update (pubkey : String) :
    Contact.remove fs path pubkey = Config.updateFiles fs path (removeEdit pubkey) := by
  refine congrArg (Outcome.bind _) (funext fun config => ?_)
  rw [removeEdit, Outcome.bind_assoc]
  rfl

theorem removeGroup_eq_update (group : String) :
    Group.remove fs path group = Config.updateFiles fs path (removeGroupEdit group) := by
  refine congrArg (Outcome.bind _) (funext fun config => ?_)
  unfold removeGroupEdit
  split_ifs <;> rfl

theorem storeShare_eq_update (args : TrustedDealerArgs) (publicKeyPackage : C.PublicKeyPackage)
    (dealt : List (C.Identifier × Contact)) (share : C.SecretShare) (file : String) :
    storeShare args publicKeyPackage dealt fs (share, file) =
      Config.updateFiles fs (some file) (storeShareEdit args publicKeyPackage dealt share) := by
  refine congrArg (Outcome.bind _) (funext fun config => ?_)
  simp only [storeShareEdit, Outcome.bind_assoc]
  rfl

theorem dkgForCiphersuite_eq_update (args : DkgArgs) (inputs : DkgInputs C) :
    dkgForCiphersuite C fs args inputs = (Config.read fs args.config).bind fun config =>
      (dkgGroup L C args inputs config).bind fun generated =>
        Config.updateFiles fs args.config (storeGroupEdit generated) := by
  refine congrArg (Outcome.bind _) (funext fun config => ?_)
  simp only [dkgGroup, Outcome.bind_assoc, Config.updateFiles, storeGroupEdit]
  rfl

end Commands

end FrostTools.Client
