import FrostTools.Client.Config
import FrostTools.Lib.Patch
import FrostTools.Signing.Protocol

/-!
# Signing a PCZT with signatures made elsewhere

The crates `pczt`, `orchard` and `zcash_primitives` are a parameter.
-/

namespace FrostTools.ZcashSign
open Client (hexEncode hexDecode)
open Signing (trim)

abbrev Bytes32 := Vector UInt8 32

abbrev Bytes64 := Vector UInt8 64

/-- `try_into` an array. -/
def toArray (n : ℕ) (bytes : Bytes) : Option (Vector UInt8 n) :=
  if h : bytes.toArray.size = n then some ⟨bytes.toArray, h⟩ else none

inductive TxVersion where
  | sprout (version : UInt32)
  | v3
  | v4
  | v5
  | v6
  deriving DecidableEq

/-- Which Orchard-protocol bundle of the transaction a spend lives in. -/
inductive Pool where
  | orchard
  | ironwood
  deriving DecidableEq, Repr

/-- The `pczt` signer entry point for this pool, for use in error messages. -/
def Pool.signerName : Pool → String
  | .orchard => "sign_orchard_with"
  | .ironwood => "sign_ironwood_with"

/-- The lowercase pool name, used to disambiguate prompts. -/
def Pool.label : Pool → String
  | .orchard => "orchard"
  | .ironwood => "ironwood"

/-- The bundles that may carry spends in a transaction of the given version. -/
def poolsFor : TxVersion → List Pool
  | .v6 => [.orchard, .ironwood]
  | _ => [.orchard]

/-- What the program uses of the crates. An error is its debug text. -/
structure Libraries where
  Pczt : Type
  TransactionData : Type
  TxDigests : Type
  Action : Type
  BundleData : Type
  Scalar : Type
  Signature : Type
  intoEffects : Pczt → Except String TransactionData
  digest : TransactionData → TxDigests
  version : TransactionData → TxVersion
  hasOrchardBundle : TransactionData → Bool
  /-- For `SignableInput::Shielded`. -/
  v5SignatureHash : TransactionData → TxDigests → Bytes
  v6SignatureHash : TransactionData → TxDigests → Bytes
  parse : Pool → Pczt → Except String (List Action × BundleData)
  serializeFrom : Pool → Pczt → List Action × BundleData → Pczt
  spendAuthSig : Action → Option Signature
  alpha : Action → Option Scalar
  toRepr : Scalar → Bytes32
  signatureFrom : Bytes64 → Signature
  applySignature : Action → Bytes32 → Signature → Except String Action
  serialize : Pczt → Except String Bytes

inductive SignErr where
  | parse (e : String)
  | apply (e : String)
  deriving DecidableEq

def SignErr.debug : SignErr → String
  | .parse e => "Parse(" ++ e ++ ")"
  | .apply e => "Apply(" ++ e ++ ")"

inductive Error where
  | eyre (message : String)
  | io
  | fromHex
  deriving DecidableEq

inductive Query where
  | println (line : String)
  | readLine
  deriving DecidableEq

/-- `none` is an I/O error. -/
@[reducible] def Query.Answer : Query → Type
  | .println _ => Unit
  | .readLine => Option String

abbrev Terminal : Interface := ⟨Query, Query.Answer⟩

abbrev Run (α : Type) := Method Terminal Unit Error α

def println (line : String) : Run Unit := Method.query (F := Terminal) (.println line)

/-- `read_line`, `?` included. -/
def readLine : Run String := do
  Method.lift (.okOr .io (← Method.query (F := Terminal) .readLine))

/-- A spend awaiting signature: its pool, its action index and its randomizer. -/
structure PoolRandomizer where
  pool : Pool
  idx : ℕ
  alpha : Bytes32
  deriving DecidableEq

/-- A signature paired with the pool and action index it applies to. -/
structure PoolSignature where
  pool : Pool
  idx : ℕ
  signature : Bytes64
  deriving DecidableEq

namespace Libraries

variable (L : Libraries)

abbrev Bundle := List L.Action × L.BundleData

/-- The version-appropriate signature hash, with the version. -/
def sighashForPczt (pczt : L.Pczt) : Outcome Error (TxVersion × Bytes32) :=
  match L.intoEffects pczt with
  | .error e =>
    .err (.eyre ("Not enough information to build the transaction's effects: " ++ e))
  | .ok txData =>
    let txidParts := L.digest txData
    let unsupported : Outcome Error Bytes :=
      .err (.eyre "Only v6 (Ironwood) and v5 shielded-Orchard transactions are supported")
    let sighash : Outcome Error Bytes :=
      match L.version txData with
      | .v6 => .ok (L.v6SignatureHash txData txidParts)
      | .v5 =>
        if L.hasOrchardBundle txData then .ok (L.v5SignatureHash txData txidParts)
        else unsupported
      | _ => unsupported
    sighash.bind fun sighash =>
      (Outcome.okOr (.eyre "unexpected sighash length") (toArray 32 sighash)).bind fun sighash =>
        .ok (L.version txData, sighash)

variable {L} {ε α : Type}

/-- `sign_orchard_with` or `sign_ironwood_with`: the closure is run on the parsed bundle, which is
then written back. What the closure writes to a captured variable is returned as well. -/
def signWith (ofParseError : String → ε) (pool : Pool) (pczt : L.Pczt)
    (closure : L.Bundle → Outcome ε (α × L.Bundle)) : Outcome ε (α × L.Pczt) :=
  match L.parse pool pczt with
  | .error e => .err (ofParseError e)
  | .ok bundle => (closure bundle).bind fun r => .ok (r.1, L.serializeFrom pool pczt r.2)

/-- Collects the index and alpha of every real spend still awaiting a signature. -/
def collectRandomizers (bundle : L.Bundle) (out : List (ℕ × Bytes32)) : List (ℕ × Bytes32) :=
  bundle.1.zipIdx.foldl
    (fun out (action, idx) =>
      if (L.spendAuthSig action).isNone then
        match L.alpha action with
        | some alpha => out ++ [(idx, L.toRepr alpha)]
        | none => out
      else out)
    out

/-- One turn of the first pass. -/
def extract (pczt : L.Pczt) (randomizers : List PoolRandomizer) (pool : Pool) :
    Outcome Error (List PoolRandomizer) :=
  let signed : Outcome Error (List (ℕ × Bytes32) × L.Pczt) :=
    (signWith id pool pczt fun bundle => .ok (collectRandomizers bundle [], bundle)).mapErr fun e =>
      .eyre (pool.signerName ++ " (extract): " ++ e)
  signed.bind fun (found, _) =>
    .ok (randomizers ++ found.map fun (idx, alpha) => ⟨pool, idx, alpha⟩)

end Libraries

def printRandomizer (r : PoolRandomizer) : Run Unit :=
  println ("Randomizer #" ++ toString r.idx ++ " (" ++ r.pool.label ++ "): " ++
    hexEncode r.alpha.toList)

def promptForSignature (signatures : List PoolSignature) (r : PoolRandomizer) :
    Run (List PoolSignature) := do
  println ("Input hex-encoded signature #" ++ toString r.idx ++ " (" ++ r.pool.label ++ "): ")
  let buffer ← readLine
  let signature ← Method.lift (.okOr .fromHex (hexDecode (trim buffer)))
  let signature ← Method.lift (.okOr
    (.eyre ("signature #" ++ toString r.idx ++ " must be 64 bytes")) (toArray 64 signature))
  pure (signatures ++ [⟨r.pool, r.idx, signature⟩])

/-- Prints each randomizer and reads the corresponding hex-encoded signature. -/
def promptForSignatures (randomizers : List PoolRandomizer) : Run (List PoolSignature) := do
  Method.foldM (fun () r => printRandomizer r) () randomizers
  Method.foldM promptForSignature [] randomizers

namespace Libraries

variable {L : Libraries}

def apply (sighash : Bytes32) (action : L.Action) (sig : Bytes64) : Outcome SignErr L.Action :=
  match L.applySignature action sighash (L.signatureFrom sig) with
  | .ok action => .ok action
  | .error e => .err (.apply e)

/-- Applies each signature to the action at the given index. -/
def applySignatures (bundle : L.Bundle) (sighash : Bytes32) (signatures : List (ℕ × Bytes64)) :
    Outcome SignErr L.Bundle :=
  (Outcome.foldM (Outcome.patch (apply sighash)) bundle.1 signatures).bind fun actions =>
    .ok (actions, bundle.2)

def forPool (pool : Pool) (signatures : List PoolSignature) : List (ℕ × Bytes64) :=
  (signatures.filter fun s => decide (s.pool = pool)).map fun s => (s.idx, s.signature)

/-- One turn of the second pass. -/
def inject (sighash : Bytes32) (signatures : List PoolSignature) (signed : L.Pczt) (pool : Pool) :
    Outcome Error L.Pczt :=
  if forPool pool signatures = [] then .ok signed
  else
    ((signWith SignErr.parse pool signed fun bundle =>
      (applySignatures bundle sighash (forPool pool signatures)).bind fun bundle =>
        .ok ((), bundle)).mapErr fun e =>
          .eyre (pool.signerName ++ " (apply): " ++ e.debug)).bind fun (_, signed) => .ok signed

end Libraries

def signPczt (L : Libraries) (pczt : L.Pczt) : Run Bytes := do
  let (version, sighash) ← Method.lift (L.sighashForPczt pczt)
  println ("SIGHASH: " ++ hexEncode sighash.toList)
  let randomizers ← Method.lift (Outcome.foldM (Libraries.extract pczt) [] (poolsFor version))
  let signatures ← promptForSignatures randomizers
  let signed ← Method.lift
    (Outcome.foldM (Libraries.inject sighash signatures) pczt (poolsFor version))
  match L.serialize signed with
  | .ok bytes => pure bytes
  | .error e => Method.fail (.eyre ("failed to serialize signed PCZT: " ++ e))

end FrostTools.ZcashSign
