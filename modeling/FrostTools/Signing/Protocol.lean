import FrostTools.Client.Cipher
import FrostTools.Client.Http
import FrostTools.Session.Coordinator

/-!
# The two rounds of signing

What the coordinator and a participant do, over any means of communication. The
`frost-core` and `frost-rerandomized` crates are a parameter.
-/

namespace FrostTools.Signing
open Client

/-- The value of `C::ID`. -/
inductive CiphersuiteId where
  | ed25519Sha512
  | pallasBlake2b512
  | other
  deriving DecidableEq

structure SigningPackage (I SC : Type) where
  signingCommitments : Map I SC
  message : Bytes
  deriving DecidableEq

structure Ciphersuite where
  id : CiphersuiteId
  Identifier : Type
  SigningCommitments : Type
  SigningNonces : Type
  SignatureShare : Type
  Randomizer : Type
  KeyPackage : Type
  PublicKeyPackage : Type
  Signature : Type
  [linearOrder : LinearOrder Identifier]
  identifier : KeyPackage → Identifier
  verifyingShares : PublicKeyPackage → Finset Identifier
  sign : SigningPackage Identifier SigningCommitments → SigningNonces → KeyPackage →
    Option SignatureShare
  signRerandomized : SigningPackage Identifier SigningCommitments → SigningNonces → KeyPackage →
    Randomizer → Option SignatureShare
  aggregate : SigningPackage Identifier SigningCommitments → Map Identifier SignatureShare →
    PublicKeyPackage → Option Signature
  /-- With the parameters that `from_randomizer` computes from the randomizer. -/
  aggregateRerandomized : SigningPackage Identifier SigningCommitments →
    Map Identifier SignatureShare → PublicKeyPackage → Randomizer → Option Signature

namespace Ciphersuite

instance (C : Ciphersuite) : LinearOrder C.Identifier := C.linearOrder

abbrev Package (C : Ciphersuite) := SigningPackage C.Identifier C.SigningCommitments

/-- Signs with a randomizer or, without one, plainly. -/
def signWith (C : Ciphersuite) (randomizer : Option C.Randomizer) (package : C.Package)
    (nonces : C.SigningNonces) (keyPackage : C.KeyPackage) : Option C.SignatureShare :=
  match randomizer with
  | some randomizer => C.signRerandomized package nonces keyPackage randomizer
  | none => C.sign package nonces keyPackage

def aggregateWith (C : Ciphersuite) (randomizer : Option C.Randomizer) (package : C.Package)
    (shares : Map C.Identifier C.SignatureShare) (publicKeyPackage : C.PublicKeyPackage) :
    Option C.Signature :=
  match randomizer with
  | some randomizer => C.aggregateRerandomized package shares publicKeyPackage randomizer
  | none => C.aggregate package shares publicKeyPackage

end Ciphersuite

inductive Failure where
  | io
  | malformed
  /-- An error of the `frost-core` crate. -/
  | frost
  | malformedIdentifier
  | duplicatedIdentifier
  | eyre (message : String)
  | session (e : Session.Error)
  | cipher (e : CipherError)
  | invalidPrivateKey
  | client (e : ClientError)
  deriving DecidableEq

variable {C : Ciphersuite} {σ : Type}

abbrev Run (σ α : Type) := Method World σ Failure α

/-- Sends a request, `?` included. -/
def request (accessToken : Option Uuid) (r : HttpRequest) : Run σ r.Output := do
  match (← Method.query (F := World) (.http accessToken r)) with
  | .ok output => pure output
  | .error e => Method.fail (.client e)

/-- `read_line`, `?` included. -/
def readLine : Run σ String := do
  Method.lift (.okOr .io (← Method.query (F := World) .readLine))

/-- `writeln!`, `?` included. -/
def writeLine (line : String) : Run σ Unit := do
  Method.lift (.okOr .io (← Method.query (F := World) (.writeLine line)))

section Yields

variable {s s' : σ} {es : List World.Event} {accessToken : Option Uuid} {r : HttpRequest}

@[simp] theorem yields_request_iff {output : r.Output} :
    Method.Yields (α := no_index r.Output) (request accessToken r) s es output s' ↔
      es = [⟨.http accessToken r, .ok output⟩] ∧ s = s' := by
  rw [request, Method.yields_bind_iff]
  constructor
  · rintro ⟨answer, s₁, es₁, es₂, rfl, hquery, h⟩
    obtain ⟨rfl, rfl⟩ := Method.yields_query_iff.mp hquery
    cases answer with
    | ok output' =>
      obtain ⟨rfl, rfl, rfl⟩ := Method.yields_pure_iff.mp h
      exact ⟨rfl, rfl⟩
    | error e => exact absurd h Method.not_yields_fail
  · rintro ⟨rfl, rfl⟩
    refine ⟨.ok output, s, _, [], rfl, Method.yields_query_iff.mpr ⟨rfl, rfl⟩, ?_⟩
    exact Method.yields_pure_iff.mpr ⟨rfl, rfl, rfl⟩

theorem ends_request_bind_iff {α : Type} {f : r.Output → Run σ α} {o : Outcome Failure α} :
    (request accessToken r >>= f).Ends s es o s' ↔
      ∃ answer es', es = ⟨.http accessToken r, answer⟩ :: es' ∧
        ((∃ output, answer = .ok output ∧ (f output).Ends s es' o s') ∨
          ∃ e, answer = .error e ∧ es' = [] ∧ o = .err (.client e) ∧ s = s') := by
  constructor
  · intro h
    obtain ⟨answer, es', rfl, hrest⟩ := Program.returns_ask_iff.mp h
    refine ⟨answer, es', rfl, ?_⟩
    cases answer with
    | ok output => exact .inl ⟨output, rfl, hrest⟩
    | error e =>
      obtain ⟨rfl, heq⟩ := Program.returns_done_iff.mp hrest
      obtain ⟨rfl, rfl⟩ := Prod.mk.inj heq
      exact .inr ⟨e, rfl, rfl, rfl, rfl⟩
  · rintro ⟨_, es', rfl, ⟨output, rfl, hrest⟩ | ⟨e, rfl, rfl, rfl, rfl⟩⟩
    · exact Program.returns_ask_iff.mpr ⟨_, es', rfl, hrest⟩
    · exact Program.returns_ask_iff.mpr ⟨_, [], rfl, .refl _⟩

theorem ends_request_iff {o : Outcome Failure r.Output} :
    (request accessToken r).Ends s es o s' ↔
      ∃ answer, es = [⟨.http accessToken r, answer⟩] ∧ s = s' ∧
        ((∃ output, answer = .ok output ∧ o = .ok output) ∨
          ∃ e, answer = .error e ∧ o = .err (.client e)) := by
  constructor
  · intro h
    obtain ⟨answer, es', rfl, hrest⟩ := Program.returns_ask_iff.mp h
    cases answer with
    | ok output =>
      obtain ⟨rfl, heq⟩ := Program.returns_done_iff.mp hrest
      obtain ⟨rfl, rfl⟩ := Prod.mk.inj heq
      exact ⟨_, rfl, rfl, .inl ⟨output, rfl, rfl⟩⟩
    | error e =>
      obtain ⟨rfl, heq⟩ := Program.returns_done_iff.mp hrest
      obtain ⟨rfl, rfl⟩ := Prod.mk.inj heq
      exact ⟨_, rfl, rfl, .inr ⟨e, rfl, rfl⟩⟩
  · rintro ⟨_, rfl, rfl, ⟨output, rfl, rfl⟩ | ⟨e, rfl, rfl⟩⟩
    · exact Program.returns_ask_iff.mpr ⟨_, [], rfl, .refl _⟩
    · exact Program.returns_ask_iff.mpr ⟨_, [], rfl, .refl _⟩

theorem neverPanics_request : (request accessToken r : Run σ r.Output).NeverPanics := by
  intro s es message s' hends
  obtain ⟨_, -, -, ⟨_, -, heq⟩ | ⟨_, -, heq⟩⟩ := ends_request_iff.mp hends
  · cases heq
  · cases heq

theorem asks_request_iff {q : Query} :
    (request accessToken r : Run σ r.Output).Asks s es q ↔ es = [] ∧ .http accessToken r = q := by
  rw [request, Method.asks_bind_iff, Method.asks_query_iff]
  refine or_iff_left ?_
  rintro ⟨answer, s', es₁, es₂, -, -, h⟩
  cases answer with
  | ok output => exact Method.not_asks_pure h
  | error e => exact Method.not_asks_lift h

theorem onlyAsks_request {P : Query → Prop} (h : P (.http accessToken r)) :
    (request accessToken r : Run σ r.Output).OnlyAsks P := by
  intro s es q hq
  obtain ⟨-, rfl⟩ := asks_request_iff.mp hq
  exact h

@[simp] theorem yields_readLine_iff {line : String} :
    readLine.Yields s es line s' ↔ es = [⟨.readLine, some line⟩] ∧ s = s' := by
  rw [readLine, Method.yields_bind_iff]
  constructor
  · rintro ⟨answer, s₁, es₁, es₂, rfl, hquery, h⟩
    obtain ⟨rfl, rfl⟩ := Method.yields_query_iff.mp hquery
    obtain ⟨rfl, hanswer, rfl⟩ := Method.yields_lift_iff.mp h
    rw [Outcome.okOr_eq_ok_iff.mp hanswer]
    exact ⟨rfl, rfl⟩
  · rintro ⟨rfl, rfl⟩
    refine ⟨some line, s, _, [], rfl, Method.yields_query_iff.mpr ⟨rfl, rfl⟩, ?_⟩
    exact Method.yields_lift_iff.mpr ⟨rfl, rfl, rfl⟩

@[simp] theorem yields_writeLine_iff {line : String} {u : Unit} :
    (writeLine line).Yields s es u s' ↔ es = [⟨.writeLine line, some ()⟩] ∧ s = s' := by
  rw [writeLine, Method.yields_bind_iff]
  constructor
  · rintro ⟨answer, s₁, es₁, es₂, rfl, hquery, h⟩
    obtain ⟨rfl, rfl⟩ := Method.yields_query_iff.mp hquery
    obtain ⟨rfl, hanswer, rfl⟩ := Method.yields_lift_iff.mp h
    rw [Outcome.okOr_eq_ok_iff.mp hanswer]
    exact ⟨rfl, rfl⟩
  · rintro ⟨rfl, rfl⟩
    refine ⟨some (), s, _, [], rfl, Method.yields_query_iff.mpr ⟨rfl, rfl⟩, ?_⟩
    exact Method.yields_lift_iff.mpr ⟨rfl, rfl, rfl⟩

end Yields

def isWhitespace (c : Char) : Bool :=
  (9 ≤ c.val && c.val ≤ 13) || c.val == 32 || c.val == 0x85 || c.val == 0xa0 || c.val == 0x1680 ||
    (0x2000 ≤ c.val && c.val ≤ 0x200a) || c.val == 0x2028 || c.val == 0x2029 || c.val == 0x202f ||
    c.val == 0x205f || c.val == 0x3000

/-- `str::trim`. -/
def trim (s : String) : String :=
  String.ofList ((s.toList.dropWhile isWhitespace).reverse.dropWhile isWhitespace).reverse

structure Coordinator.ProcessedArgs (C : Ciphersuite) where
  numSigners : UInt16
  publicKeyPackage : C.PublicKeyPackage
  messages : List Bytes
  randomizers : List C.Randomizer
  auxMsg : Option Bytes

structure Coordinator.Comms (C : Ciphersuite) (σ : Type) where
  getSigningCommitments (publicKeyPackage : C.PublicKeyPackage) (numParticipants : UInt16)
    (numMessages : ℕ) : Run σ (List (Map C.Identifier C.SigningCommitments))
  sendSigningPackageAndGetSignatureShares (signingPackages : List C.Package)
    (randomizers : Option (List C.Randomizer)) (auxMsg : Option Bytes) :
    Run σ (List (Map C.Identifier C.SignatureShare))
  processSignature (signatures : List C.Signature) : Run σ Unit
  cleanupOnError : Run σ Unit

/-- A signing package for each of the messages; the indexing panics on a missing message. -/
def signingPackages (commitments : List (Map C.Identifier C.SigningCommitments))
    (messages : List Bytes) : Outcome Failure (List C.Package) :=
  Outcome.mapM
    (fun (commitment, i) =>
      match messages[i]? with
      | some message => .ok ⟨commitment, message⟩
      | none => .panic "index out of bounds")
    commitments.zipIdx

structure AggregateCall (C : Ciphersuite) where
  signingPackage : C.Package
  signatureShares : Map C.Identifier C.SignatureShare
  randomizer : Option C.Randomizer

def aggregateCalls (randomizers : Option (List C.Randomizer)) (signingPackages : List C.Package)
    (signatureShares : List (Map C.Identifier C.SignatureShare)) : List (AggregateCall C) :=
  match randomizers with
  | some randomizers =>
    (randomizers.zip (signingPackages.zip signatureShares)).map
      fun (randomizer, package, shares) => ⟨package, shares, some randomizer⟩
  | none =>
    (signingPackages.zip signatureShares).map fun (package, shares) => ⟨package, shares, none⟩

/-- The two rounds of the coordinator, up to the calls of `aggregate`. -/
def Coordinator.rounds (comms : Comms C σ) (pargs : ProcessedArgs C) :
    Run σ (List (AggregateCall C)) := do
  let commitments ← comms.getSigningCommitments pargs.publicKeyPackage pargs.numSigners
    pargs.messages.length
  let packages ← Method.lift (signingPackages commitments pargs.messages)
  let randomizers := if pargs.randomizers = [] then none else some pargs.randomizers
  let shares ← comms.sendSigningPackageAndGetSignatureShares packages randomizers pargs.auxMsg
  pure (aggregateCalls randomizers packages shares)

/-- The block of `coordinator`. -/
def Coordinator.doit (comms : Comms C σ) (pargs : ProcessedArgs C) :
    Run σ (List C.Signature) := do
  let calls ← rounds comms pargs
  let signatures ← Method.lift <| .okOr .frost <| calls.mapM fun call =>
    C.aggregateWith call.randomizer call.signingPackage call.signatureShares pargs.publicKeyPackage
  comms.processSignature signatures
  pure signatures

def Coordinator.coordinator (comms : Comms C σ) (pargs : ProcessedArgs C) :
    Run σ (List C.Signature) :=
  if pargs.randomizers ≠ [] ∧ pargs.randomizers.length ≠ pargs.messages.length then
    Method.fail (.eyre "Number of randomizers must match number of messages")
  else fun s => (doit comms pargs s).bind fun
    | (.err e, s') => (comms.cleanupOnError s').bind fun
      | (.panic message, s'') => .done (.panic message, s'')
      -- the result of the cleanup is ignored
      | (_, s'') => .done (.err e, s'')
    | r => .done r

structure SendSigningPackageArgs (C : Ciphersuite) where
  signingPackage : List C.Package
  auxMsg : Bytes
  /-- One for each signing package, or none. -/
  randomizer : List C.Randomizer

structure Participant.Comms (C : Ciphersuite) (σ : Type) where
  getMessageCount : Run σ UInt8
  getSigningPackage (commitments : List C.SigningCommitments) (identifier : C.Identifier)
    (rerandomized : Bool) : Run σ (SendSigningPackageArgs C)
  confirmMessage (signingPackage : SendSigningPackageArgs C) : Run σ Unit
  sendSignatureShare (identifier : C.Identifier) (signatureShares : List C.SignatureShare) :
    Run σ Unit

structure SignCall (C : Ciphersuite) where
  signingPackage : C.Package
  signingNonces : C.SigningNonces
  randomizer : Option C.Randomizer

/-- The calls of `sign` in `generate_signature`, in order. -/
def signCalls (config : SendSigningPackageArgs C) (signingNonces : List C.SigningNonces) :
    List (SignCall C) :=
  if config.randomizer = [] then
    (config.signingPackage.zip signingNonces).map fun (package, nonces) => ⟨package, nonces, none⟩
  else
    (config.signingPackage.zip (signingNonces.zip config.randomizer)).map
      fun (package, nonces, randomizer) => ⟨package, nonces, some randomizer⟩

theorem getElem?_signCalls {config : SendSigningPackageArgs C} {nonces : List C.SigningNonces} {i : ℕ}
    {call : SignCall C} (h : (signCalls config nonces)[i]? = some call) :
    config.signingPackage[i]? = some call.signingPackage ∧ nonces[i]? = some call.signingNonces ∧
      call.randomizer = config.randomizer[i]? := by
  unfold signCalls at h
  split_ifs at h with hnil
  · rw [List.getElem?_map, Option.map_eq_some_iff] at h
    obtain ⟨⟨package, nonce⟩, hzip, rfl⟩ := h
    rw [List.getElem?_zip_eq_some] at hzip
    exact ⟨hzip.1, hzip.2, by rw [hnil, List.getElem?_nil]⟩
  · rw [List.getElem?_map, Option.map_eq_some_iff] at h
    obtain ⟨⟨package, nonce, randomizer⟩, hzip, rfl⟩ := h
    rw [List.getElem?_zip_eq_some, List.getElem?_zip_eq_some] at hzip
    exact ⟨hzip.1, hzip.2.1, hzip.2.2.symm⟩

def generateSignature (config : SendSigningPackageArgs C) (keyPackage : C.KeyPackage)
    (signingNonces : List C.SigningNonces) : Outcome Failure (List C.SignatureShare) :=
  if signingNonces.length ≠ config.signingPackage.length then
    .err (.eyre "Number of nonces must match number of signing packages")
  else if config.randomizer ≠ [] ∧ config.randomizer.length ≠ config.signingPackage.length then
    .err (.eyre "Number of randomizers must match number of signing packages")
  else
    .okOr .frost ((signCalls config signingNonces).mapM fun call =>
      C.signWith call.randomizer call.signingPackage call.signingNonces keyPackage)

/-- Whether a participant expects a randomizer, by its ciphersuite. -/
def rerandomized (C : Ciphersuite) : Outcome Failure Bool :=
  match C.id with
  | .ed25519Sha512 => .ok false
  | .pallasBlake2b512 => .ok true
  | .other => .panic "invalid ciphersuite"

structure Participant.ProcessedArgs (C : Ciphersuite) where
  keyPackage : C.KeyPackage

/-- The results of the successive calls of `round1::commit`. -/
abbrev Draws (C : Ciphersuite) := ℕ → C.SigningNonces × C.SigningCommitments

/-- What a participant does before it asks its user: it draws nonces for every message, and
receives the signing packages. -/
def Participant.receiveConfig (comms : Comms C σ) (pargs : ProcessedArgs C) (commit : Draws C) :
    Run σ (SendSigningPackageArgs C × List C.SigningNonces) := do
  let messageCount ← comms.getMessageCount
  let draws := (List.range messageCount.toNat).map commit
  let rerandomized ← Method.lift (rerandomized C)
  let config ← comms.getSigningPackage (draws.map Prod.snd) (C.identifier pargs.keyPackage)
    rerandomized
  pure (config, draws.map Prod.fst)

def Participant.participant (comms : Comms C σ) (pargs : ProcessedArgs C) (commit : Draws C) :
    Run σ Unit := do
  let (config, nonces) ← receiveConfig comms pargs commit
  comms.confirmMessage config
  let signatures ← Method.lift (generateSignature config pargs.keyPackage nonces)
  comms.sendSignatureShare (C.identifier pargs.keyPackage) signatures

/-- One byte for everything but the signatures, which tell what was aggregated. -/
def sampleSuite (id : CiphersuiteId) : Ciphersuite where
  id := id
  Identifier := Fin 256
  SigningCommitments := UInt8
  SigningNonces := UInt8
  SignatureShare := UInt8
  Randomizer := UInt8
  KeyPackage := Fin 256
  PublicKeyPackage := Finset (Fin 256)
  Signature := Bytes × Option UInt8
  identifier keyPackage := keyPackage
  verifyingShares publicKeyPackage := publicKeyPackage
  sign _ nonces _ := some nonces
  signRerandomized _ nonces _ randomizer := some (nonces + randomizer)
  aggregate package _ _ := some (package.message, none)
  aggregateRerandomized package _ _ randomizer := some (package.message, some randomizer)

end FrostTools.Signing
