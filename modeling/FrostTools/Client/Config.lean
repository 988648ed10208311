import FrostTools.Session.Dkg
import Mathlib.Data.String.Basic

/-!
# The config file of a user

The file formats, the ciphersuites and the URL parser of the libraries are parameters.
-/

namespace FrostTools.Client

def hexDigit (n : UInt8) : Char := Char.ofNat (if n < 10 then 48 + n.toNat else 87 + n.toNat)

def hexEncode (bytes : Bytes) : String :=
  String.ofList (bytes.flatMap fun b => [hexDigit (b / 16), hexDigit (b % 16)])

def hexValue (c : Char) : Option UInt8 :=
  if '0' ≤ c ∧ c ≤ '9' then some (c.toNat - 48).toUInt8
  else if 'a' ≤ c ∧ c ≤ 'f' then some (c.toNat - 87).toUInt8
  else if 'A' ≤ c ∧ c ≤ 'F' then some (c.toNat - 55).toUInt8
  else none

def hexPairs : List Char → Option Bytes
  | [] => some []
  | [_] => none
  | high :: low :: rest => do
    let high ← hexValue high
    let low ← hexValue low
    return (16 * high + low) :: (← hexPairs rest)

def hexDecode (s : String) : Option Bytes := hexPairs s.toList

theorem digits_lt (b : UInt8) : b / 16 < 16 ∧ b % 16 < 16 := by
  have hb := b.toNat_lt
  rw [UInt8.lt_iff_toNat_lt, UInt8.lt_iff_toNat_lt, UInt8.toNat_div, UInt8.toNat_mod]
  constructor
  · change b.toNat / 16 < 16
    omega
  · exact Nat.mod_lt _ (by decide)

theorem hexValue_hexDigit {n : UInt8} (h : n < 16) : hexValue (hexDigit n) = some n := by
  have hall : ∀ i : Fin 16, hexValue (hexDigit (UInt8.ofNat i)) = some (UInt8.ofNat i) := by decide
  have hn := hall ⟨n.toNat, UInt8.lt_iff_toNat_lt.mp h⟩
  rwa [UInt8.ofNat_toNat] at hn

theorem hexPairs_flatMap (bytes : Bytes) :
    hexPairs (bytes.flatMap fun b => [hexDigit (b / 16), hexDigit (b % 16)]) = some bytes := by
  induction bytes with
  | nil => rfl
  | cons b bytes ih =>
    have hb : 16 * (b / 16) + b % 16 = b := by
      have hlt := b.toNat_lt
      apply UInt8.toNat_inj.mp
      simp
      omega
    simp [hexPairs, hexValue_hexDigit (digits_lt b).1, hexValue_hexDigit (digits_lt b).2, ih, hb]

theorem hexDecode_hexEncode (bytes : Bytes) : hexDecode (hexEncode bytes) = some bytes := by
  rw [hexDecode, hexEncode, String.toList_ofList]
  exact hexPairs_flatMap bytes

/-- A contact, which critically has the public key required to exchange messages with them. -/
structure Contact where
  /-- Absent in the config file. -/
  version : Option UInt8
  name : String
  pubkey : PublicKey
  deriving DecidableEq

structure Participant where
  identifier : Bytes
  pubkey : PublicKey
  deriving DecidableEq

structure Group where
  description : String
  ciphersuite : String
  publicKeyPackage : Bytes
  keyPackage : Bytes
  serverUrl : Option String
  /-- Keyed by hex-encoded identifier. -/
  participant : Map String Participant
  deriving DecidableEq

structure CommunicationKey where
  privkey : Bytes
  pubkey : PublicKey
  deriving DecidableEq

structure Config where
  /-- The path the config was loaded from. -/
  path : Option String
  version : UInt8
  communicationKey : Option CommunicationKey
  /-- The address book of the user, keyed by each contact's name. -/
  contact : Map String Contact
  /-- Keyed by hex-encoded verifying key. -/
  group : Map String Group
  deriving DecidableEq

inductive ConfigError where
  | eyre (message : String)
  | library
  deriving DecidableEq

/-- `EvenY` of secrets and their public key packages. -/
structure EvenY (S P : Type*) where
  hasEvenY : P → Bool
  secretIntoEvenY : S → Bool → S
  publicIntoEvenY : P → Bool → P

structure Ciphersuite where
  ID : String
  Identifier : Type
  [linearOrder : LinearOrder Identifier]
  SecretShare : Type
  KeyPackage : Type
  PublicKeyPackage : Type
  Round1Package : Type
  Round2Package : Type
  [decidableEqRound1Package : DecidableEq Round1Package]
  decodeDkg : Session.DKGDecoder Identifier Round1Package Round2Package
  serializeIdentifier : Identifier → Bytes
  /-- `derive` of the concatenation of a session id and a public key. -/
  derive : Uuid → PublicKey → Option Identifier
  /-- With the maximum and the minimum number of signers, and the randomness as a seed. -/
  generateWithDealer : UInt16 → UInt16 → ℕ → Option (Map Identifier SecretShare × PublicKeyPackage)
  /-- Of the shares, if the ciphersuite needs it. -/
  evenY : Option (EvenY SecretShare PublicKeyPackage)
  keyPackageTryFrom : SecretShare → Option KeyPackage
  minSigners : KeyPackage → UInt16
  /-- `verifying_key().serialize()`. -/
  verifyingKey : PublicKeyPackage → Option Bytes
  /-- The identifiers of the verifying shares. -/
  verifyingShares : PublicKeyPackage → Finset Identifier
  encodeKeyPackage : KeyPackage → Option Bytes
  decodeKeyPackage : Bytes → Option KeyPackage
  encodePublicKeyPackage : PublicKeyPackage → Option Bytes
  decodePublicKeyPackage : Bytes → Option PublicKeyPackage

instance (C : Ciphersuite) : LinearOrder C.Identifier := C.linearOrder

instance (C : Ciphersuite) : DecidableEq C.Round1Package := C.decidableEqRound1Package

def Ciphersuite.intoEvenY (C : Ciphersuite)
    (x : Map C.Identifier C.SecretShare × C.PublicKeyPackage) :
    Map C.Identifier C.SecretShare × C.PublicKeyPackage :=
  match C.evenY with
  | none => x
  | some evenY =>
    let isEven := evenY.hasEvenY x.2
    (x.1.filterMap fun share => some (evenY.secretIntoEvenY share isEven),
      evenY.publicIntoEvenY x.2 isEven)

theorem Ciphersuite.keys_intoEvenY (C : Ciphersuite)
    (x : Map C.Identifier C.SecretShare × C.PublicKeyPackage) : (C.intoEvenY x).1.keys = x.1.keys := by
  unfold intoEvenY
  cases C.evenY with
  | none => rfl
  | some evenY => exact Map.keys_filterMap_of_forall fun _ _ _ => rfl

inductive CiphersuiteName where
  | ed25519
  | redpallas
  deriving DecidableEq

structure Libraries where
  ciphersuite : CiphersuiteName → Ciphersuite
  Text : Type
  tomlToStringPretty : Config → Option Text
  tomlFromStr : Text → Option Config
  bech32Decode : String → Option (String × Bytes)
  postcardContact : Bytes → Option Contact
  urlHostStr : String → Option (Option String)
  /-- The path of the config file if none is given. -/
  defaultPath : String

/-- Postcard and TOML round trips, ciphersuites with different names, and a share for each signer. -/
structure Libraries.Lawful (L : Libraries) : Prop where
  toml {config : Config} {text : L.Text} : L.tomlToStringPretty config = some text →
    L.tomlFromStr text = some { config with path := none }
  keyPackage {name : CiphersuiteName} {keyPackage : (L.ciphersuite name).KeyPackage} {b : Bytes} :
    (L.ciphersuite name).encodeKeyPackage keyPackage = some b →
      (L.ciphersuite name).decodeKeyPackage b = some keyPackage
  publicKeyPackage {name : CiphersuiteName}
    {publicKeyPackage : (L.ciphersuite name).PublicKeyPackage} {b : Bytes} :
    (L.ciphersuite name).encodePublicKeyPackage publicKeyPackage = some b →
      (L.ciphersuite name).decodePublicKeyPackage b = some publicKeyPackage
  generateWithDealer {name : CiphersuiteName} {maxSigners minSigners : UInt16} {rng : ℕ}
    {shares : Map (L.ciphersuite name).Identifier (L.ciphersuite name).SecretShare}
    {publicKeyPackage : (L.ciphersuite name).PublicKeyPackage} :
    (L.ciphersuite name).generateWithDealer maxSigners minSigners rng =
      some (shares, publicKeyPackage) → shares.len = maxSigners.toNat
  ID_ne : (L.ciphersuite .ed25519).ID ≠ (L.ciphersuite .redpallas).ID

abbrev FileSystem (L : Libraries) := Map String L.Text

namespace Config

def default : Config := ⟨none, 0, none, ∅, ∅⟩

def contactByPubkey (config : Config) (pubkey : PublicKey) : Outcome ConfigError Contact :=
  if some pubkey = config.communicationKey.map CommunicationKey.pubkey then
    .ok ⟨some 0, "", pubkey⟩
  else
    .okOr (.eyre "contact not found")
      ((config.contact.toSortedList.map Prod.snd).find? fun c => c.pubkey = pubkey)

variable {L : Libraries}

def parsePath (L : Libraries) (path : Option String) : String := path.getD L.defaultPath

/-- Reads the config from the given path, or a default (empty) config if there is no file. -/
def read (fs : FileSystem L) (path : Option String) : Outcome ConfigError Config :=
  let path := parsePath L path
  match fs.lookup path with
  | none => .ok { default with path := some path }
  | some text => (Outcome.okOr .library (L.tomlFromStr text)).bind fun config =>
      .ok { config with path := some path }

/-- Writes the config to the path it was loaded from. -/
def write (fs : FileSystem L) (config : Config) : Outcome ConfigError (FileSystem L) :=
  (Outcome.okOr .library (L.tomlToStringPretty config)).bind fun text =>
  (Outcome.okOr (.eyre "path not specified") config.path).bind fun path =>
    .ok (fs.insert path text)

end Config

structure GroupInfo where
  hexVerifyingKey : String
  threshold : ℕ
  numParticipants : ℕ

def ciphersuiteHelper (L : Libraries) (ciphersuiteId : String) :
    Outcome ConfigError CiphersuiteName :=
  if ciphersuiteId = (L.ciphersuite .ed25519).ID then .ok .ed25519
  else if ciphersuiteId = (L.ciphersuite .redpallas).ID then .ok .redpallas
  else .err (.eyre "invalid ciphersuite ID")

def groupInfo (C : Ciphersuite) (encodedKeyPackage encodedPublicKeyPackage : Bytes) :
    Outcome ConfigError GroupInfo :=
  (Outcome.okOr .library (C.decodeKeyPackage encodedKeyPackage)).bind fun keyPackage =>
  (Outcome.okOr .library (C.decodePublicKeyPackage encodedPublicKeyPackage)).bind
    fun publicKeyPackage =>
  (Outcome.okOr .library (C.verifyingKey publicKeyPackage)).bind fun verifyingKey =>
    .ok ⟨hexEncode verifyingKey, (C.minSigners keyPackage).toNat,
      (C.verifyingShares publicKeyPackage).card⟩

namespace Group

variable (L : Libraries)

/-- A human-readable summary; used when the group is printed to the terminal. -/
def asHumanReadableSummary (group : Group) (config : Config) : Outcome ConfigError String :=
  (ciphersuiteHelper L group.ciphersuite).bind fun name =>
  (groupInfo (L.ciphersuite name) group.keyPackage group.publicKeyPackage).bind fun info =>
  (Outcome.mapM (fun participant : Participant =>
      (config.contactByPubkey participant.pubkey).bind fun contact =>
        .ok ("\t" ++ contact.name ++ "\t(" ++ hexEncode contact.pubkey.bytes ++ ")\n"))
    (group.participant.toSortedList.map Prod.snd)).bind fun lines =>
  .ok ("Group \"" ++ group.description ++ "\"\nPublic key " ++ info.hexVerifyingKey ++
    "\nServer URL: " ++ group.serverUrl.getD "" ++ "\nThreshold: " ++ toString info.threshold ++
    "\nParticipants: " ++ toString info.numParticipants ++ "\n" ++ String.join lines)

def list (fs : FileSystem L) (path : Option String) : Outcome ConfigError (List String) :=
  (Config.read fs path).bind fun config =>
    Outcome.mapM (fun group : Group => group.asHumanReadableSummary L config)
      (config.group.toSortedList.map Prod.snd)

end Group
end FrostTools.Client
