import FrostTools.Client.Config
import FrostTools.Signing.Protocol

namespace FrostTools.Signing
open Client

theorem trim_ofList {l : List Char} (h : ∀ c ∈ l, isWhitespace c = false) :
    trim (String.ofList l) = String.ofList l := by
  have hdrop : ∀ l' : List Char, (∀ c ∈ l', isWhitespace c = false) → l'.dropWhile isWhitespace = l' := by
    intro l' h'
    cases l' with
    | nil => rfl
    | cons c l' => rw [List.dropWhile_cons_of_neg (by simp [h' c List.mem_cons_self])]
  rw [trim, String.toList_ofList, hdrop l h, hdrop l.reverse fun c hc => h c (List.mem_reverse.mp hc),
    List.reverse_reverse]

theorem isWhitespace_hexDigit {n : UInt8} (h : n < 16) : isWhitespace (hexDigit n) = false := by
  have hall : ∀ i : Fin 16, isWhitespace (hexDigit (UInt8.ofNat i)) = false := by decide
  have hn := hall ⟨n.toNat, UInt8.lt_iff_toNat_lt.mp h⟩
  rwa [UInt8.ofNat_toNat] at hn

theorem trim_hexEncode (bytes : Bytes) : trim (hexEncode bytes) = hexEncode bytes := by
  apply trim_ofList
  intro c hc
  obtain ⟨b, -, hc⟩ := List.mem_flatMap.mp hc
  rcases List.mem_cons.mp hc with rfl | hc
  · exact isWhitespace_hexDigit (digits_lt b).1
  · rw [List.mem_singleton.mp hc]
    exact isWhitespace_hexDigit (digits_lt b).2

/-- The JSON texts, and the byte strings that are shown in hex. -/
structure Text (C : Ciphersuite) where
  serializeIdentifier : C.Identifier → Bytes
  deserializeIdentifier : Bytes → Option C.Identifier
  deserializeRandomizer : Bytes → Option C.Randomizer
  serializeSignature : C.Signature → Option Bytes
  identifierToString : C.Identifier → String
  commitmentsToString : C.SigningCommitments → String
  commitmentsFromStr : String → Option C.SigningCommitments
  packageToString : C.Package → String
  packageFromStr : String → Option C.Package
  shareToString : C.SignatureShare → String
  shareFromStr : String → Option C.SignatureShare

namespace Cli

variable {C : Ciphersuite} (text : Text C)

/-- `writeln!(..).unwrap()`. -/
def writeLineUnwrap (line : String) : Run Unit Unit := do
  match (← Method.query (F := World) (.writeLine line)) with
  | some () => pure ()
  | none => Method.lift (.panic "called `Result::unwrap()` on an `Err` value")

def hexIdentifier (identifier : C.Identifier) : String :=
  hexEncode (text.serializeIdentifier identifier)

def readIdentifier : Run Unit C.Identifier := do
  let identifierInput ← readLine
  Method.lift (.okOr .malformed ((hexDecode (trim identifierInput)).bind text.deserializeIdentifier))

def validate (id : C.Identifier) (publicKeyPackage : C.PublicKeyPackage)
    (idList : List C.Identifier) : Outcome Failure Unit :=
  if id ∉ C.verifyingShares publicKeyPackage then .err .malformedIdentifier
  else if id ∈ idList then .err .duplicatedIdentifier
  else .ok ()

def printParticipants (participants : Map C.Identifier C.SigningCommitments) : Run Unit Unit := do
  writeLineUnwrap "Selected participants: "
  Method.foldM (fun () p => writeLineUnwrap (text.identifierToString p)) () participants.sortedKeys

/-- One turn of the inner loop: reads the commitments of the `i`-th participant. -/
def readCommitments (publicKeyPackage : C.PublicKeyPackage)
    (lists : List C.Identifier × Map C.Identifier C.SigningCommitments) (i : ℕ) :
    Run Unit (List C.Identifier × Map C.Identifier C.SigningCommitments) := do
  writeLine ("Identifier for participant " ++ toString i ++ " (hex encoded): ")
  let idValue ← readIdentifier text
  Method.lift (validate idValue publicKeyPackage lists.1)
  writeLine ("Please enter JSON encoded commitments for participant " ++
    hexIdentifier text idValue ++ ":")
  let commitmentsInput ← readLine
  let commitments ← Method.lift (.okOr .malformed (text.commitmentsFromStr commitmentsInput))
  pure (lists.1 ++ [idValue], lists.2.insert idValue commitments)

def readMessageCommitments (publicKeyPackage : C.PublicKeyPackage) (numParticipants : UInt16)
    (commitments : List (Map C.Identifier C.SigningCommitments)) (_ : ℕ) :
    Run Unit (List (Map C.Identifier C.SigningCommitments)) := do
  let lists ← Method.foldM (readCommitments text publicKeyPackage) ([], ∅)
    (List.range' 1 numParticipants.toNat)
  printParticipants text lists.2
  pure (commitments ++ [lists.2])

def readShare (signatures : Map C.Identifier C.SignatureShare) (p : C.Identifier) :
    Run Unit (Map C.Identifier C.SignatureShare) := do
  writeLine ("Please enter JSON encoded signature shares for participant " ++
    hexIdentifier text p ++ ":")
  let signatureInput ← readLine
  let share ← Method.lift (.okOr .malformed (text.shareFromStr signatureInput))
  pure (signatures.insert p share)

def readPackageShares (signatureShares : List (Map C.Identifier C.SignatureShare))
    (signingPackage : C.Package) : Run Unit (List (Map C.Identifier C.SignatureShare)) := do
  writeLineUnwrap ("Signing Package:\n" ++ text.packageToString signingPackage)
  let signatures ← Method.foldM (readShare text) ∅ signingPackage.signingCommitments.sortedKeys
  pure (signatureShares ++ [signatures])

def coordinatorComms : Coordinator.Comms C Unit where
  getSigningCommitments publicKeyPackage numParticipants numMessages :=
    Method.foldM (readMessageCommitments text publicKeyPackage numParticipants) []
      (List.range numMessages)
  sendSigningPackageAndGetSignatureShares signingPackages randomizers auxMsg :=
    if randomizers.isSome then
      Method.fail (.eyre "CLIComms does not support rerandomized signing")
    else if auxMsg.isSome then
      Method.fail (.eyre "CLIComms does not support auxiliary messages")
    else Method.foldM (readPackageShares text) [] signingPackages
  processSignature signatures :=
    Method.foldM
      (fun () signature => do
        let bytes ← Method.lift (.okOr .frost (text.serializeSignature signature))
        writeLine ("Signature:\n" ++ hexEncode bytes))
      () signatures
  cleanupOnError := pure ()

def printValues (commitments : C.SigningCommitments) : Run Unit Unit := do
  writeLine "=== Round 1 ==="
  writeLine "SigningNonces were generated and stored in memory"
  writeLine ("SigningCommitments:\n" ++ text.commitmentsToString commitments)
  writeLine "=== Round 1 Completed ==="
  writeLine "Please send your SigningCommitments to the coordinator"

/-- `read_line(..).unwrap()`. -/
def readLineUnwrap : Run Unit String := do
  match (← Method.query (F := World) .readLine) with
  | some line => pure line
  | none => Method.lift (.panic "called `Result::unwrap()` on an `Err` value")

def readRandomizer : Run Unit C.Randomizer := do
  writeLine "Enter the randomizer (hex string):"
  let json ← readLineUnwrap
  Method.lift (.okOr .malformed ((hexDecode (trim json)).bind text.deserializeRandomizer))

def getSigningPackage (commitments : List C.SigningCommitments) (rerandomized : Bool) :
    Run Unit (SendSigningPackageArgs C) :=
  match commitments with
  | [commitments] => do
    printValues text commitments
    writeLine "Enter the JSON-encoded SigningPackage:"
    let signingPackageJson ← readLine
    let signingPackage ← Method.lift (.okOr .malformed (text.packageFromStr (trim signingPackageJson)))
    if rerandomized then
      let randomizer ← readRandomizer text
      pure { signingPackage := [signingPackage], auxMsg := [], randomizer := [randomizer] }
    else pure { signingPackage := [signingPackage], auxMsg := [], randomizer := [] }
  | _ => Method.fail (.eyre "CLIComms only supports a single message")

def confirmMessage (config : SendSigningPackageArgs C) : Run Unit Unit :=
  Method.foldM
    (fun () signingPackage => do
      writeLine ("Message to be signed (hex-encoded):\n" ++ hexEncode signingPackage.message ++
        "\nDo you want to sign it? (y/n)")
      let signIt ← readLine
      if trim signIt ≠ "y" then Method.fail (.eyre "signing cancelled"))
    () config.signingPackage

def participantComms : Participant.Comms C Unit where
  getMessageCount := pure 1
  getSigningPackage commitments _ rerandomized := getSigningPackage text commitments rerandomized
  confirmMessage := confirmMessage
  sendSignatureShare _ signatureShares :=
    Method.foldM
      (fun () signatureShare => do
        writeLine "Please send the following to the Coordinator"
        writeLine ("SignatureShare:\n" ++ text.shareToString signatureShare))
      () signatureShares

end Cli
end FrostTools.Signing
