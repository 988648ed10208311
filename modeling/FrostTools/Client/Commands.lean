import FrostTools.Client.Config
import FrostTools.Lib.Deliver
import FrostTools.Lib.TransitionSystem

/-!
# The commands that write config files

A command succeeds with the files it leaves. What it gets from elsewhere, such as a fresh
key pair or the server's answers, is part of its invocation.
-/

namespace FrostTools.Client

variable {L : Libraries} {C : Ciphersuite}

def init (fs : FileSystem L) (path : Option String) (keypair : Option CommunicationKey) :
    Outcome ConfigError (FileSystem L) :=
  (Config.read fs path).bind fun config =>
    match config.communicationKey with
    | some _ => config.write fs
    | none => (Outcome.okOr .library keypair).bind fun keypair =>
        { config with communicationKey := some keypair }.write fs

namespace Contact

def fromText (L : Libraries) (s : String) : Outcome ConfigError Contact :=
  (Outcome.okOr .library (L.bech32Decode s)).bind fun (hrp, bytes) =>
    if hrp ≠ "zffrost" then .err (.eyre "invalid contact format")
    else (Outcome.okOr .library (L.postcardContact bytes)).bind fun contact =>
      if contact.version ≠ some 0 then .err (.eyre "invalid contact version") else .ok contact

def importContact (fs : FileSystem L) (textContact : String) (path : Option String) :
    Outcome ConfigError (FileSystem L) :=
  (Config.read fs path).bind fun config =>
  (fromText L textContact).bind fun contact =>
    if contact.name ∈ config.contact.keys then
      .err (.eyre ("contact with name " ++ contact.name ++ " already exists. Either remove the " ++
        "existing one, or ask the sender to change their display name when exporting"))
    else if (config.contact.toSortedList.map Prod.snd).any fun c => c.pubkey = contact.pubkey then
      .err (.eyre ("pubkey " ++ hexEncode contact.pubkey.bytes ++ " already registered for " ++
        contact.name))
    else if config.communicationKey.map CommunicationKey.pubkey = some contact.pubkey then
      .err (.eyre ("pubkey " ++ hexEncode contact.pubkey.bytes ++ " already registered for yourself"))
    else
      { config with
        contact := config.contact.insert contact.name { contact with version := none } }.write fs

/-- The first contact with a hex-encoded public key. -/
def findByHex (config : Config) (pubkey : String) : Option (String × Contact) :=
  config.contact.toSortedList.find? fun (_, c) => hexEncode c.pubkey.bytes = pubkey

def remove (fs : FileSystem L) (path : Option String) (pubkey : String) :
    Outcome ConfigError (FileSystem L) :=
  (Config.read fs path).bind fun config =>
  (Outcome.okOr (.eyre "contact not found") (findByHex config pubkey)).bind fun (name, _) =>
    { config with contact := config.contact.erase name }.write fs

end Contact

structure TrustedDealerArgs where
  config : List String
  description : String
  names : List String
  serverUrl : Option String
  ciphersuite : String
  threshold : UInt16
  numSigners : UInt16

/-- `trusted_dealer` without a secret to share; every share must convert to a key package. -/
def trustedDealerKeygen (C : Ciphersuite) (maxSigners minSigners : UInt16) (rng : ℕ) :
    Outcome ConfigError (Map C.Identifier C.SecretShare × C.PublicKeyPackage) :=
  (Outcome.okOr .library (C.generateWithDealer maxSigners minSigners rng)).bind
    fun (shares, publicKeyPackage) =>
      if shares.all fun _ share => (C.keyPackageTryFrom share).isSome then
        .ok (C.intoEvenY (shares, publicKeyPackage))
      else .err .library

/-- The first pass over the configs: the identifier and the contact of each. -/
def firstPass (fs : FileSystem L) (identifiers : List C.Identifier) (paths names : List String) :
    Outcome ConfigError (List (C.Identifier × Contact)) :=
  Outcome.mapM (fun (identifier, path, name) =>
      (Config.read fs (some path)).bind fun config =>
      (Outcome.okOr (.eyre "config not initialized") config.communicationKey).bind fun key =>
        .ok (identifier, ⟨none, name, key.pubkey⟩))
    (identifiers.zip (paths.zip names))

def participantsOf (dealt : List (C.Identifier × Contact)) : Map String Participant :=
  .ofList (dealt.map fun (identifier, contact) =>
    (hexEncode (C.serializeIdentifier identifier),
      ⟨C.serializeIdentifier identifier, contact.pubkey⟩))

/-- Contacts are inserted in order, over those of the same name. -/
def addContacts (contact : Map String Contact) (contacts : List Contact) : Map String Contact :=
  contacts.foldl (fun contact c => contact.insert c.name c) contact

/-- The second pass over the configs, at one of them. -/
def storeShare (args : TrustedDealerArgs) (publicKeyPackage : C.PublicKeyPackage)
    (dealt : List (C.Identifier × Contact)) (fs : FileSystem L) :
    C.SecretShare × String → Outcome ConfigError (FileSystem L)
  | (share, path) =>
    (Config.read fs (some path)).bind fun config =>
    (Outcome.okOr .library (C.keyPackageTryFrom share)).bind fun keyPackage =>
    (Outcome.okOr .library (C.encodeKeyPackage keyPackage)).bind fun keyPackage =>
    (Outcome.okOr .library (C.encodePublicKeyPackage publicKeyPackage)).bind fun encoded =>
    (Outcome.okOr .library (C.verifyingKey publicKeyPackage)).bind fun verifyingKey =>
      { config with
        group := config.group.insert (hexEncode verifyingKey)
          ⟨args.description, C.ID, encoded, keyPackage, args.serverUrl, participantsOf dealt⟩
        contact := addContacts config.contact (dealt.map Prod.snd) }.write fs

def trustedDealerForCiphersuite (C : Ciphersuite) (fs : FileSystem L) (args : TrustedDealerArgs)
    (rng : ℕ) : Outcome ConfigError (FileSystem L) :=
  if args.config.length ≠ args.numSigners.toNat then
    .err (.eyre "The `config` option must specify `num_signers` different config files")
  else if args.names.length ≠ args.numSigners.toNat then
    .err (.eyre "The `names` option must specify `num_signers` names")
  else
    (trustedDealerKeygen C args.numSigners args.threshold rng).bind fun (shares, publicKeyPackage) =>
    (firstPass fs (shares.toSortedList.map Prod.fst) args.config args.names).bind fun dealt =>
      Outcome.foldM (storeShare args publicKeyPackage dealt) fs
        ((shares.toSortedList.map Prod.snd).zip args.config)

def ciphersuiteOf (ciphersuite : String) : Outcome ConfigError CiphersuiteName :=
  if ciphersuite = "ed25519" then .ok .ed25519
  else if ciphersuite = "redpallas" then .ok .redpallas
  else .err (.eyre "unsupported ciphersuite")

def trustedDealer (fs : FileSystem L) (args : TrustedDealerArgs) (rng : ℕ) :
    Outcome ConfigError (FileSystem L) :=
  (ciphersuiteOf args.ciphersuite).bind fun name =>
    trustedDealerForCiphersuite (L.ciphersuite name) fs args rng

structure DkgArgs where
  config : Option String
  description : String
  serverUrl : String
  ciphersuite : String
  threshold : UInt16
  participants : List String

/-- What a key generation gets from the server, from the peers and from `frost-core`. -/
structure DkgInputs (C : Ciphersuite) where
  /-- The session that is created for some participants, or joined without any. -/
  session : List PublicKey → Option (Uuid × List PublicKey)
  /-- The messages of the peers, after decryption. -/
  msgs : List Msg
  /-- The results of `part3` and `into_even_y`, for an identifier and the numbers of signers. -/
  part3 : C.Identifier → UInt16 → UInt16 → Option (C.KeyPackage × C.PublicKeyPackage)
  /-- The order of iteration over a hash map. -/
  iterate : (keys : Finset PublicKey) →
    { order : List PublicKey // order.Nodup ∧ order.toFinset = keys }

/-- `self.pubkeys` of the HTTP participant. -/
def sessionPubkeys (C : Ciphersuite) (sessionId : Uuid) (pubkeys : List PublicKey) :
    Outcome ConfigError (Map PublicKey C.Identifier) :=
  (Outcome.mapM (fun p => (Outcome.okOr .library (C.derive sessionId p)).bind fun identifier =>
    .ok (p, identifier)) pubkeys).bind fun entries => .ok (.ofList entries)

def getPubkeyIdentifierMap {I R1 R2 : Type} :
    Session.DKGSessionState I R1 R2 → Outcome ConfigError (Map PublicKey I)
  | .round2PackagesReady pubkeys _ => .ok pubkeys
  | _ => .err (.eyre "wrong state")

/-- A key generation over HTTP, as far as its result depends on it. -/
def dkgOverHttp (inputs : DkgInputs C) (commPubkey : PublicKey)
    (commParticipantPubkeyGetter : PublicKey → Option PublicKey) (minSigners : UInt16)
    (participants : List PublicKey) :
    Outcome ConfigError (C.KeyPackage × C.PublicKeyPackage × Map PublicKey C.Identifier) :=
  (Outcome.okOr .library (inputs.session participants)).bind fun (sessionId, members) =>
  (sessionPubkeys C sessionId members).bind fun pubkeys =>
    if pubkeys.len < 2 then .err (.eyre "DKG session must have at least 2 participants")
    else
      (Outcome.okOr .library (C.derive sessionId commPubkey)).bind fun identifier =>
        if ∃ pubkey ∈ pubkeys.keys, commParticipantPubkeyGetter pubkey = none then
          .err (.eyre ("A participant in specified FROST session is not registered in the user's " ++
            "address book"))
        else
          (Outcome.okOr .library (deliver
            (fun (st : Session.DKGSessionState C.Identifier C.Round1Package C.Round2Package) msg =>
              st.recv C.decodeDkg msg identifier) (.new pubkeys) inputs.msgs)).bind fun st =>
          (Outcome.okOr .library (inputs.part3 identifier pubkeys.len.toUInt16 minSigners)).bind
            fun (keyPackage, publicKeyPackage) =>
          (getPubkeyIdentifierMap st).bind fun pubkeyMap =>
            .ok (keyPackage, publicKeyPackage, pubkeyMap)

/-- `pubkey_map` from identifiers to public keys. -/
def reversePubkeyMap (pubkeyMap : Map PublicKey C.Identifier) (order : List PublicKey) :
    Map C.Identifier PublicKey :=
  .ofList (order.filterMap fun pubkey =>
    (pubkeyMap.lookup pubkey).map fun identifier => (identifier, pubkey))

def dkgParticipants (publicKeyPackage : C.PublicKeyPackage)
    (pubkeyMap : Map C.Identifier PublicKey) : Outcome ConfigError (Map String Participant) :=
  (Outcome.mapM (fun identifier =>
      (Outcome.okOr (.eyre "missing pubkey") (pubkeyMap.lookup identifier)).bind fun pubkey =>
        .ok (hexEncode (C.serializeIdentifier identifier),
          (⟨C.serializeIdentifier identifier, pubkey⟩ : Participant)))
    ((C.verifyingShares publicKeyPackage).sort (· ≤ ·))).bind fun entries => .ok (.ofList entries)

def dkgForCiphersuite (C : Ciphersuite) (fs : FileSystem L) (args : DkgArgs)
    (inputs : DkgInputs C) : Outcome ConfigError (FileSystem L) :=
  (Config.read fs args.config).bind fun config =>
  (Outcome.okOr .library (L.urlHostStr ("https://" ++ args.serverUrl))).bind fun host =>
  (Outcome.okOr (.eyre "user not initialized") config.communicationKey).bind fun key =>
  (Outcome.okOr .library (args.participants.mapM hexDecode)).bind fun participants =>
  (Outcome.okOr (.eyre "host missing in URL") host).bind fun _ =>
    let participants := participants.map PublicKey.mk
    -- the user is added if not already in the list
    let participants :=
      if participants ≠ [] ∧ key.pubkey ∉ participants then participants ++ [key.pubkey]
      else participants
    let getter participantPubkey :=
      match config.contactByPubkey participantPubkey with
      | .ok contact => some contact.pubkey
      | _ => none
    (dkgOverHttp inputs key.pubkey getter args.threshold participants).bind
      fun (keyPackage, publicKeyPackage, pubkeyMap) =>
    (dkgParticipants publicKeyPackage
      (reversePubkeyMap pubkeyMap (inputs.iterate pubkeyMap.keys))).bind fun participants =>
    (Outcome.okOr .library (C.encodeKeyPackage keyPackage)).bind fun keyPackage =>
    (Outcome.okOr .library (C.encodePublicKeyPackage publicKeyPackage)).bind fun encoded =>
    -- the config is read again
    (Config.read fs args.config).bind fun config =>
    (Outcome.okOr .library (C.verifyingKey publicKeyPackage)).bind fun verifyingKey =>
      { config with
        group := config.group.insert (hexEncode verifyingKey)
          ⟨args.description, C.ID, encoded, keyPackage, some args.serverUrl, participants⟩ }.write fs

def dkg (fs : FileSystem L) (args : DkgArgs)
    (inputs : (name : CiphersuiteName) → DkgInputs (L.ciphersuite name)) :
    Outcome ConfigError (FileSystem L) :=
  (ciphersuiteOf args.ciphersuite).bind fun name =>
    dkgForCiphersuite (L.ciphersuite name) fs args (inputs name)

def Group.remove (fs : FileSystem L) (path : Option String) (group : String) :
    Outcome ConfigError (FileSystem L) :=
  (Config.read fs path).bind fun config =>
    if group ∉ config.group.keys then .err (.eyre "group not found")
    else { config with group := config.group.erase group }.write fs

inductive Invocation (L : Libraries) where
  | init (config : Option String) (keypair : Option CommunicationKey)
  | importContact (contact : String) (config : Option String)
  | removeContact (config : Option String) (pubkey : String)
  | trustedDealer (args : TrustedDealerArgs) (rng : ℕ)
  | dkg (args : DkgArgs) (inputs : (name : CiphersuiteName) → DkgInputs (L.ciphersuite name))
  | removeGroup (config : Option String) (group : String)

def execute (fs : FileSystem L) : Invocation L → Outcome ConfigError (FileSystem L)
  | .init config keypair => init fs config keypair
  | .importContact contact config => Contact.importContact fs contact config
  | .removeContact config pubkey => Contact.remove fs config pubkey
  | .trustedDealer args rng => trustedDealer fs args rng
  | .dkg args inputs => dkg fs args inputs
  | .removeGroup config group => Group.remove fs config group

/-- Sequences of successful commands, beginning without any config file. -/
def commands (L : Libraries) : TransitionSystem (FileSystem L) (Invocation L) where
  init fs := fs = ∅
  step fs invocation fs' := execute fs invocation = .ok fs'

end FrostTools.Client
