import FrostTools.Client.Participants
import FrostTools.Lib.Target
import FrostTools.Signing.Http

/-!
# The signing commands

`coordinator` and `participant` read the config file of their user, sign over HTTP, and write the
signatures. What they use of the libraries beyond the other commands is a parameter. A line that
is not text and an error of the standard output are left out.
-/

namespace FrostTools.Signing
open Client

structure SigningLibrary (C : Client.Ciphersuite) where
  SigningCommitments : Type
  SigningNonces : Type
  SignatureShare : Type
  Randomizer : Type
  Signature : Type
  identifier : C.KeyPackage → C.Identifier
  sign : SigningPackage C.Identifier SigningCommitments → SigningNonces → C.KeyPackage →
    Option SignatureShare
  signRerandomized : SigningPackage C.Identifier SigningCommitments → SigningNonces → C.KeyPackage →
    Randomizer → Option SignatureShare
  aggregate : SigningPackage C.Identifier SigningCommitments → Map C.Identifier SignatureShare →
    C.PublicKeyPackage → Option Signature
  aggregateRerandomized : SigningPackage C.Identifier SigningCommitments →
    Map C.Identifier SignatureShare → C.PublicKeyPackage → Randomizer → Option Signature
  deserializeIdentifier : Bytes → Option C.Identifier
  deserializeRandomizer : Bytes → Option Randomizer
  serializeSignature : Signature → Option Bytes

def ciphersuiteId : CiphersuiteName → CiphersuiteId
  | .ed25519 => .ed25519Sha512
  | .redpallas => .pallasBlake2b512

abbrev SigningLibrary.suite {C : Client.Ciphersuite} (K : SigningLibrary C) (name : CiphersuiteName) :
    Ciphersuite where
  id := ciphersuiteId name
  Identifier := C.Identifier
  SigningCommitments := K.SigningCommitments
  SigningNonces := K.SigningNonces
  SignatureShare := K.SignatureShare
  Randomizer := K.Randomizer
  KeyPackage := C.KeyPackage
  PublicKeyPackage := C.PublicKeyPackage
  Signature := K.Signature
  linearOrder := C.linearOrder
  identifier := K.identifier
  verifyingShares := C.verifyingShares
  sign := K.sign
  signRerandomized := K.signRerandomized
  aggregate := K.aggregate
  aggregateRerandomized := K.aggregateRerandomized

structure SigningLibraries (L : Libraries) where
  library : (name : CiphersuiteName) → SigningLibrary (L.ciphersuite name)
  http : (name : CiphersuiteName) → HttpLibrary ((library name).suite name)
  keyPair : Bytes → PublicKey
  uuidParseStr : String → Option Uuid

abbrev SigningLibraries.suite {L : Libraries} (K : SigningLibraries L) (name : CiphersuiteName) :
    Ciphersuite := (K.library name).suite name

/-- What a command reads and writes besides its config file. -/
structure Console where
  files : String → Option Bytes
  paths : Paths
  stdin : List String
  stdout : List String
  written : List (Target × Bytes)

namespace Console

/-- `writeln!` and `read_line`, which reads nothing at the end of the input. -/
def ask (console : Console) (prompt : String) : String × Console :=
  (console.stdin.headD "",
    { console with stdin := console.stdin.tail, stdout := console.stdout ++ [prompt] })

def println (console : Console) (line : String) : Console :=
  { console with stdout := console.stdout ++ [line] }

/-- `fs::write`. -/
def write (console : Console) (filename : String) (contents : Bytes) : Outcome ConfigError Console :=
  if console.paths.canWrite filename then
    .ok { console with written := console.written ++ [(console.paths.resolve filename, contents)] }
  else .err .library

/-- The contents of a file, or hex from the standard input. -/
def read (prompt : String) (console : Console) (filename : String) :
    Outcome ConfigError (Bytes × Console) :=
  if filename = "-" ∨ filename = "" then
    let (line, console) := console.ask prompt
    (Outcome.okOr .library (hexDecode (trim line))).bind fun bytes => .ok (bytes, console)
  else
    (Outcome.okOr .library (console.files filename)).bind fun bytes => .ok (bytes, console)

/-- `collect` of what is read for each name, in order. -/
def readAll {α : Type} (read : Console → String → Outcome ConfigError (α × Console))
    (console : Console) (filenames : List String) : Outcome ConfigError (List α × Console) :=
  Outcome.foldM (fun (values, console) filename =>
    (read console filename).bind fun (value, console) => .ok (values ++ [value], console))
    ([], console) filenames

end Console

def readMessages (messagePaths : List String) (console : Console) :
    Outcome ConfigError (List Bytes × Console) :=
  if messagePaths = [] then
    -- a single one is read from the standard input
    (console.read "The message to be signed (hex encoded)" "-").bind fun (msg, console) =>
      .ok ([msg], console)
  else console.readAll (Console.read "The message to be signed (hex encoded)") messagePaths

def readAuxMessage (filename : String) (console : Console) : Outcome ConfigError (Bytes × Console) :=
  console.read "The aux message to be sent (hex encoded)" filename

def readRandomizers {C : Client.Ciphersuite} (K : SigningLibrary C) (randomizerPaths : List String)
    (console : Console) : Outcome ConfigError (List K.Randomizer × Console) :=
  console.readAll (fun console filename =>
    (console.read "Enter the randomizer (hex string):" filename).bind fun (bytes, console) =>
    (Outcome.okOr .library (K.deserializeRandomizer bytes)).bind fun randomizer =>
      .ok (randomizer, console)) randomizerPaths

inductive CommandError where
  | config (e : ConfigError)
  | signing (e : Failure)

abbrev Command (α : Type) := Method World Unit CommandError α

def runWith {σ α : Type} (run : Run σ α) (comms : σ) : Command α :=
  fun _ => (run comms).bind fun (r, _) => .done (r.mapErr .signing, ())

section Shared

variable {L : Libraries}

def groupOf (config : Config) (group : String) : Outcome ConfigError Group :=
  .okOr (.eyre "Group not found") (config.group.lookup group)

def supportedCiphersuite (L : Libraries) (ciphersuite : String) : Outcome ConfigError CiphersuiteName :=
  if ciphersuite = (L.ciphersuite .ed25519).ID then .ok .ed25519
  else if ciphersuite = (L.ciphersuite .redpallas).ID then .ok .redpallas
  else .err (.eyre "unsupported ciphersuite")

/-- Both commands read the config once to find the ciphersuite. -/
def ciphersuiteOfGroup (fs : FileSystem L) (config : Option String) (group : String) :
    Outcome ConfigError CiphersuiteName :=
  (Config.read fs config).bind fun config =>
  (groupOf config group).bind fun group => supportedCiphersuite L group.ciphersuite

/-- The host of the server, if the URL can be parsed and has one. -/
def serverHost (L : Libraries) (serverUrl : Option String) (group : Group) :
    Outcome ConfigError (Option String) :=
  (Outcome.okOr (.eyre "server-url required") (serverUrl.orElse fun _ => group.serverUrl)).bind
    fun serverUrl => .okOr .library (L.urlHostStr ("https://" ++ serverUrl))

end Shared

structure CoordinatorCommand where
  config : Option String
  serverUrl : Option String
  group : String
  /-- Hex-encoded public keys. -/
  signers : List String
  message : List String
  randomizer : List String
  auxMessage : Option String
  signature : List String

namespace Coordinator

variable {L : Libraries} (K : SigningLibraries L) (name : CiphersuiteName)

def signer (group : Group) (s : String) :
    Outcome ConfigError (PublicKey × (L.ciphersuite name).Identifier) :=
  (Outcome.okOr .library (hexDecode s)).bind fun bytes =>
  (group.identifierByPubkey (K.library name).deserializeIdentifier ⟨bytes⟩).bind fun identifier =>
    .ok (⟨bytes⟩, identifier)

structure Prepared where
  pargs : ProcessedArgs (K.suite name)
  args : Http.Coordinator.Args (K.suite name)

def prepare (fs : FileSystem L) (command : CoordinatorCommand) (console : Console) :
    Outcome ConfigError (Prepared K name × Console) :=
  (Config.read fs command.config).bind fun config =>
  (groupOf config command.group).bind fun group =>
  (Outcome.okOr .library ((L.ciphersuite name).decodePublicKeyPackage group.publicKeyPackage)).bind
    fun publicKeyPackage =>
  (serverHost L command.serverUrl group).bind fun host =>
  (Outcome.mapM (signer K name group) command.signers).bind fun signers =>
    let signers := Map.ofList signers
  (readMessages command.message console).bind fun (messages, console) =>
  (readRandomizers (K.library name) command.randomizer console).bind fun (randomizers, console) =>
  (match command.auxMessage with
    | some filename => (readAuxMessage filename console).bind fun (msg, console) =>
        .ok (some msg, console)
    | none => .ok (none, console)).bind fun (auxMsg, console) =>
  if command.signature ≠ [] ∧ command.signature.length ≠ messages.length then
    .err (.eyre ("number of signature outputs (" ++ toString command.signature.length ++
      ") must match number of messages (" ++ toString messages.length ++ ")"))
  else
    (Outcome.okOr (ConfigError.eyre "host missing in URL") host).bind fun _ =>
    (Outcome.okOr (ConfigError.eyre "user not initialized") config.communicationKey).bind fun key =>
      .ok (⟨⟨signers.len.toUInt16, publicKeyPackage, messages, randomizers, auxMsg⟩,
        ⟨signers, some (K.keyPair key.privkey), some key.pubkey⟩⟩, console)

/-- Prints each signature or writes it to a file. -/
def writeSignatures (signatureFn : List String) (signatures : List (K.suite name).Signature)
    (console : Console) : Outcome ConfigError Console :=
  let signatureFn := if signatureFn = [] then List.replicate signatures.length "-" else signatureFn
  Outcome.foldM (fun console (signature, filename) =>
    (Outcome.okOr .library ((K.library name).serializeSignature signature)).bind fun bytes =>
      if filename = "" ∨ filename = "-" then .ok (console.println (hexEncode bytes))
      else console.write filename bytes) console (signatures.zip signatureFn)

def runForCiphersuite (S : Snow) (fs : FileSystem L) (command : CoordinatorCommand)
    (console : Console) : Command Console := do
  let (prepared, console) ← Method.lift ((prepare K name fs command console).mapErr .config)
  let signatures ← runWith (coordinator (Http.Coordinator.comms (S := S) (K.http name)) prepared.pargs)
    (.new prepared.pargs prepared.args)
  Method.lift ((writeSignatures K name command.signature signatures console).mapErr .config)

def run (S : Snow) (fs : FileSystem L) (command : CoordinatorCommand) (console : Console) :
    Command Console := do
  let name ← Method.lift ((ciphersuiteOfGroup fs command.config command.group).mapErr .config)
  runForCiphersuite K name S fs command console

end Coordinator

structure ParticipantCommand where
  config : Option String
  serverUrl : Option String
  group : String
  session : Option String

namespace Participant

variable {L : Libraries} (K : SigningLibraries L) (name : CiphersuiteName)

structure Prepared where
  pargs : ProcessedArgs (K.suite name)
  sessionId : Option Uuid
  args : Http.Participant.Args

def prepare (fs : FileSystem L) (command : ParticipantCommand) :
    Outcome ConfigError (Prepared K name) :=
  (Config.read fs command.config).bind fun config =>
  (groupOf config command.group).bind fun group =>
  (Outcome.okOr .library ((L.ciphersuite name).decodeKeyPackage group.keyPackage)).bind
    fun keyPackage =>
  (serverHost L command.serverUrl group).bind fun host =>
  (Outcome.okOr (ConfigError.eyre "host missing in URL") host).bind fun _ =>
  (Outcome.okOr (ConfigError.eyre "user not initialized") config.communicationKey).bind fun key =>
    .ok {
      pargs := ⟨keyPackage⟩
      -- no session id if it cannot be parsed
      sessionId := K.uuidParseStr (command.session.getD "")
      args := ⟨some (K.keyPair key.privkey), some key.pubkey, some fun coordinatorPubkey =>
        ((group.participant.toSortedList.map Prod.snd).find? fun p =>
          p.pubkey = coordinatorPubkey).map Client.Participant.pubkey⟩ }

def runForCiphersuite (S : Snow) (fs : FileSystem L) (command : ParticipantCommand)
    (commit : Draws (K.suite name)) : Command Unit := do
  let prepared ← Method.lift ((prepare K name fs command).mapErr .config)
  runWith (participant (Http.Participant.comms (S := S) (K.http name)) prepared.pargs commit)
    (.new prepared.sessionId prepared.args)

def run (S : Snow) (fs : FileSystem L) (command : ParticipantCommand)
    (commit : (name : CiphersuiteName) → Draws (K.suite name)) : Command Unit := do
  let name ← Method.lift ((ciphersuiteOfGroup fs command.config command.group).mapErr .config)
  runForCiphersuite K name S fs command (commit name)

end Participant
end FrostTools.Signing
