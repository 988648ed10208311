import Mathlib.Data.BitVec

/-!
# Types of the server API

Outputs with a single field are represented by that field.
-/

namespace FrostTools

abbrev Bytes := List UInt8

abbrev Uuid := BitVec 128

/-- A communication public key, as the bytes the server receives. -/
structure PublicKey where
  bytes : Bytes
  deriving DecidableEq, Repr

structure Msg where
  sender : PublicKey
  msg : Bytes
  deriving DecidableEq, Repr

namespace Api

def maxMsgSize : ℕ := 65535

structure LoginArgs where
  challenge : Uuid
  pubkey : PublicKey
  signature : Bytes
  deriving DecidableEq

structure CreateNewSessionArgs where
  pubkeys : List PublicKey
  messageCount : UInt8
  deriving DecidableEq

structure GetSessionInfoArgs where
  sessionId : Uuid
  deriving DecidableEq

structure GetSessionInfoOutput where
  messageCount : UInt8
  pubkeys : List PublicKey
  coordinatorPubkey : PublicKey
  deriving DecidableEq

structure SendArgs where
  sessionId : Uuid
  recipients : List PublicKey
  msg : Bytes
  deriving DecidableEq

structure ReceiveArgs where
  sessionId : Uuid
  asCoordinator : Bool
  deriving DecidableEq

structure CloseSessionArgs where
  sessionId : Uuid
  deriving DecidableEq

inductive Error where
  | invalidArgument (argument : String)
  | unauthorized
  | sessionNotFound
  | notCoordinator
  | notInSession
  deriving DecidableEq

end Api
end FrostTools
