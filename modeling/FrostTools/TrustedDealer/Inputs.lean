import FrostTools.Client.Config
import FrostTools.Lib.Outcome
import FrostTools.Lib.Placeholder
import FrostTools.Lib.Target

/-!
# The output of the standalone trusted dealer

`-` is a path like any other.
-/

namespace FrostTools.TrustedDealer
open Client (hexEncode)

structure Args where
  cli : Bool
  publicKeyPackage : String
  keyPackage : String
  deriving DecidableEq

structure Ciphersuite where
  Identifier : Type
  SecretShare : Type
  PublicKeyPackage : Type
  [linearOrder : LinearOrder Identifier]
  serializeIdentifier : Identifier → Bytes
  shareToJson : SecretShare → Option String
  publicKeyPackageToJson : PublicKeyPackage → Option String

instance (C : Ciphersuite) : LinearOrder C.Identifier := C.linearOrder

inductive Error where
  | json
  | io
  deriving DecidableEq

/-- The lines that the logger was given, and what was written, oldest first. -/
structure Output where
  lines : List String
  writes : List (Target × String)
  deriving DecidableEq

namespace Output

def writeln (out : Output) (line : String) : Output := { out with lines := out.lines ++ [line] }

/-- `fs::write`. -/
def write (paths : Paths) (out : Output) (path contents : String) : Outcome Error Output :=
  if paths.canWrite path then .ok { out with writes := out.writes ++ [(paths.resolve path, contents)] }
  else .err .io

end Output

variable {C : Ciphersuite}

/-- `str::replace(template, "{}", ..)` with the index of a participant, starting from 1. -/
def keyPackagePath (template : String) (i : ℕ) : String :=
  String.ofList (fill '\x7b' '\x7d' (toString (i + 1)).toList template.toList)

def printShare (out : Output) (p : C.Identifier × C.SecretShare) : Outcome Error Output :=
  let out := out.writeln ("Participant: " ++ hexEncode (C.serializeIdentifier p.1))
  match C.shareToJson p.2 with
  | some json => .ok (out.writeln ("Secret share:\n" ++ json))
  | none => .panic "called `Result::unwrap()` on an `Err` value"

def writeShare (paths : Paths) (args : Args) (out : Output)
    (p : (C.Identifier × C.SecretShare) × ℕ) : Outcome Error Output :=
  (Outcome.okOr .json (C.shareToJson p.1.2)).bind fun json =>
    out.write paths (keyPackagePath args.keyPackage p.2) json

def printValues (paths : Paths) (args : Args) (keys : Map C.Identifier C.SecretShare)
    (pubkeys : C.PublicKeyPackage) (out : Output) : Outcome Error Output :=
  (Outcome.okOr .json (C.publicKeyPackageToJson pubkeys)).bind fun json =>
    if args.cli then
      Outcome.foldM printShare (out.writeln ("Public key package:\n" ++ json)) keys.toSortedList
    else
      (out.write paths args.publicKeyPackage json).bind fun out =>
        Outcome.foldM (writeShare paths args) out keys.toSortedList.zipIdx

end FrostTools.TrustedDealer
