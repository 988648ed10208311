import FrostTools.Client.Config
import FrostTools.Signing.Protocol

namespace FrostTools.Signing
open Client

inductive Message (C : Ciphersuite) where
  | identifiedCommitments (identifier : C.Identifier) (commitments : C.SigningCommitments)
  | signingPackageAndRandomizer (signingPackage : C.Package) (randomizer : Option C.Randomizer)
  | signatureShare (signatureShare : C.SignatureShare)

/-- `serde_json` at the messages. -/
structure MessageCodec (C : Ciphersuite) where
  toVec : Message C → Bytes
  fromSlice : Bytes → Option (Message C)

def question (message : Bytes) : String :=
  "Message to be signed (hex-encoded):\n" ++ hexEncode message ++ "\nDo you want to sign it? (y/n)"

def confirmMessage {C : Ciphersuite} {σ : Type} (config : SendSigningPackageArgs C) : Run σ Unit :=
  Method.foldM
    (fun () (signingPackage : C.Package) => do
      let () ← Method.query (F := World) (.eprintln (question signingPackage.message))
      let signIt ← readLine
      if trim signIt ≠ "y" then Method.fail (.eyre "signing cancelled"))
    () config.signingPackage

namespace Socket

variable {C : Ciphersuite} (codec : MessageCodec C)

/-- The next message, or an error when there is none. -/
def recv {σ : Type} (missing : String) : Run σ (Endpoint × Message C) := do
  let (endpoint, data) ←
    Method.lift (.okOr (.eyre missing) (← Method.query (F := World) .socketRecv))
  let message ← Method.lift (.okOr .malformed (codec.fromSlice data))
  pure (endpoint, message)

theorem yields_recv_iff {codec : MessageCodec C} {σ : Type} {missing : String} {s s' : σ}
    {es : List World.Event} {r : Endpoint × Message C} :
    (recv codec missing).Yields s es r s' ↔ ∃ data, codec.fromSlice data = some r.2 ∧
      es = [⟨.socketRecv, some (r.1, data)⟩] ∧ s = s' := by
  rw [recv, Method.yields_bind_iff]
  constructor
  · rintro ⟨answer, s₁, es₁, es₂, rfl, hquery, h⟩
    obtain ⟨rfl, rfl⟩ := Method.yields_query_iff.mp hquery
    simp only [Method.yields_bind_iff, Method.yields_lift_iff, Method.yields_pure_iff,
      Outcome.okOr_eq_ok_iff] at h
    obtain ⟨⟨endpoint, data⟩, _, _, _, rfl, ⟨rfl, rfl, rfl⟩, message, _, _, _, rfl,
      ⟨rfl, hdata, rfl⟩, rfl, rfl, rfl⟩ := h
    exact ⟨data, hdata, rfl, rfl⟩
  · rintro ⟨data, hdata, rfl, rfl⟩
    refine ⟨some (r.1, data), s, _, [], rfl, Method.yields_query_iff.mpr ⟨rfl, rfl⟩, ?_⟩
    simp [hdata]

def send {σ : Type} (endpoint : Endpoint) (message : Message C) : Run σ Unit := do
  let () ← Method.query (F := World) (.socketSend endpoint (codec.toVec message))

abbrev Endpoints (C : Ciphersuite) := Map C.Identifier Endpoint

/-- One turn of the loop: receives the commitments of some participant. -/
def recvCommitments (signingCommitments : Map C.Identifier C.SigningCommitments) (_ : ℕ) :
    Run (Endpoints C) (Map C.Identifier C.SigningCommitments) := do
  match (← recv codec "Did not receive all commitments") with
  | (endpoint, .identifiedCommitments identifier commitments) =>
    Method.modify fun endpoints => endpoints.insert identifier endpoint
    pure (signingCommitments.insert identifier commitments)
  | _ => Method.fail (.eyre "Expected IdentifiedCommitments message")

def identifierOf (endpoints : Endpoints C) (endpoint : Endpoint) : Option C.Identifier :=
  (endpoints.toSortedList.find? fun (_, e) => e = endpoint).map Prod.fst

def recvShare (signatureShares : Map C.Identifier C.SignatureShare) (_ : ℕ) :
    Run (Endpoints C) (Map C.Identifier C.SignatureShare) := do
  match (← recv codec "Did not receive all commitments") with
  | (endpoint, .signatureShare signatureShare) =>
    let endpoints ← Method.read
    let identifier ← Method.lift (.okOr (.eyre "Unknown participant") (identifierOf endpoints endpoint))
    pure (signatureShares.insert identifier signatureShare)
  | _ => Method.fail (.eyre "Expected IdentifiedCommitments message")

def onlyRandomizer : Option (List C.Randomizer) → Outcome Failure (Option C.Randomizer)
  | none => .ok none
  | some [randomizer] => .ok (some randomizer)
  | some _ => .err (.eyre "number of randomizers must match number of messages")

def sendSigningPackage (signingPackages : List C.Package) (randomizers : Option (List C.Randomizer))
    (auxMsg : Option Bytes) : Run (Endpoints C) (List (Map C.Identifier C.SignatureShare)) :=
  match signingPackages with
  | [signingPackage] => do
    let randomizer ← Method.lift (onlyRandomizer randomizers)
    if auxMsg.isSome then
      Method.fail (.eyre "SocketComms does not support auxiliary messages")
    let endpoints ← Method.read
    Method.foldM
      (fun () identifier => do
        let endpoint ← Method.lift (.okOr (.eyre "unknown identifier") (endpoints.lookup identifier))
        send codec endpoint (.signingPackageAndRandomizer signingPackage randomizer))
      () signingPackage.signingCommitments.sortedKeys
    let signatureShares ← Method.foldM (recvShare codec) ∅
      (List.range signingPackage.signingCommitments.len)
    pure [signatureShares]
  | _ => Method.fail (.eyre "SocketComms only supports one message at a time")

def coordinatorComms : Coordinator.Comms C (Endpoints C) where
  getSigningCommitments _ numParticipants numMessages :=
    if numMessages ≠ 1 then
      Method.fail (.eyre "SocketComms only supports one message at a time")
    else do
      Method.modify fun _ => ∅
      let signingCommitments ← Method.foldM (recvCommitments codec) ∅
        (List.range numParticipants.toNat)
      pure [signingCommitments]
  sendSigningPackageAndGetSignatureShares := sendSigningPackage codec
  processSignature _ := pure ()
  cleanupOnError := pure ()

def getSigningPackage (commitments : List C.SigningCommitments) (identifier : C.Identifier) :
    Run Endpoint (SendSigningPackageArgs C) :=
  match commitments with
  | [commitments] => do
    send codec (← Method.read) (.identifiedCommitments identifier commitments)
    match (← recv codec "Did not receive signing package!") with
    | (_, .signingPackageAndRandomizer signingPackage randomizer) =>
      pure { signingPackage := [signingPackage], auxMsg := [], randomizer := randomizer.toList }
    | _ => Method.fail (.eyre "Expected SigningPackage message")
  | _ => Method.fail (.eyre "SocketComms only supports one message at a time")

def participantComms : Participant.Comms C Endpoint where
  getMessageCount := pure 1
  getSigningPackage commitments identifier _ := getSigningPackage codec commitments identifier
  confirmMessage := confirmMessage
  sendSignatureShare _ signatureShares :=
    match signatureShares with
    | [signatureShare] => do
      send codec (← Method.read) (.signatureShare signatureShare)
    | _ => Method.fail (.eyre "SocketComms only supports one message at a time")

end Socket
end FrostTools.Signing
