import FrostTools.Client.Cipher
import FrostTools.Frostd.Functions
import FrostTools.Session.Dkg

/-!
# A key generation participant over HTTP

The calls of one participant, split at every request to the server. The session
is open and joined, so the participant starts with `get_round1_packages`.
-/

namespace FrostTools.Dkg
open Client Session Frostd

structure Codec (I R1 R2 : Type*) where
  encode : Payload I R1 R2 → Bytes
  decode : DKGDecoder I R1 R2

structure Codec.Lawful {I R1 R2 : Type*} (codec : Codec I R1 R2) : Prop where
  round1 : ∀ p, codec.decode.round1 (codec.encode p) = p.asRound1
  broadcast : ∀ p, codec.decode.broadcast (codec.encode p) = p.asBroadcast
  round2 : ∀ p, codec.decode.round2 (codec.encode p) = p.asRound2

structure Setup (I R1 R2 : Type*) where
  sessionId : Uuid
  members : List PublicKey
  /-- The participant who created the session, the only one with a list of participants. -/
  creator : PublicKey
  creator_mem : creator ∈ members
  token : PublicKey → Uuid
  /-- `Identifier::derive` of the session id and a public key. -/
  identifier : PublicKey → I
  codec : Codec I R1 R2
  /-- The Round 1 Package that `part1` returned to a participant. -/
  round1Package : PublicKey → R1
  /-- `part2` with the secret package of a participant. -/
  part2 : PublicKey → Map I R1 → Option (Map I R2)

namespace Setup

variable {I R1 R2 : Type*} (D : Setup I R1 R2)

def user (pubkey : PublicKey) : User := ⟨pubkey, D.token pubkey⟩

/-- The map that every participant computes from the session info. -/
def pubkeys : Map PublicKey I := .ofList (D.members.map fun pubkey => (pubkey, D.identifier pubkey))

/-- A possible order of iteration over `pubkeys`. -/
def Iterates (order : List PublicKey) : Prop := order.Nodup ∧ order.toFinset = D.pubkeys.keys

instance (order : List PublicKey) : Decidable (D.Iterates order) :=
  inferInstanceAs (Decidable (_ ∧ _))

variable {D} {pubkey : PublicKey}

theorem mem_keys_pubkeys : pubkey ∈ D.pubkeys.keys ↔ pubkey ∈ D.members := by
  rw [pubkeys, Map.mem_keys_ofList, List.map_map]
  simp [Function.comp_def]

theorem lookup_pubkeys_iff {identifier : I} : D.pubkeys.lookup pubkey = some identifier ↔
    pubkey ∈ D.members ∧ identifier = D.identifier pubkey := by
  constructor
  · intro h
    obtain ⟨pubkey', hmem, heq⟩ := List.mem_map.mp (Map.mem_of_lookup_ofList h)
    obtain ⟨rfl, rfl⟩ := Prod.mk.inj heq
    exact ⟨hmem, rfl⟩
  · rintro ⟨hmem, rfl⟩
    obtain ⟨identifier, h⟩ := Map.mem_keys_iff.mp (mem_keys_pubkeys.mpr hmem)
    obtain ⟨pubkey', -, heq⟩ := List.mem_map.mp (Map.mem_of_lookup_ofList h)
    obtain ⟨rfl, rfl⟩ := Prod.mk.inj heq
    exact h

theorem lookup_pubkeys (h : pubkey ∈ D.members) :
    D.pubkeys.lookup pubkey = some (D.identifier pubkey) := lookup_pubkeys_iff.mpr ⟨h, rfl⟩

theorem Iterates.mem_iff {order : List PublicKey} (h : D.Iterates order) :
    pubkey ∈ order ↔ pubkey ∈ D.members := by
  rw [← List.mem_toFinset, h.2, mem_keys_pubkeys]

end Setup

/-- The three rounds of sending messages and then waiting for those of the others. -/
inductive Stage where
  | round1
  | broadcast
  | round2
  deriving DecidableEq

/-- The messages that are still to be sent; there may be no payload for a recipient. -/
abbrev Todo (I R1 R2 : Type*) := List (PublicKey × Option (Payload I R1 R2))

inductive Failure where
  | server (e : Api.Error)
  | cipher (e : CipherError)
  | session (e : Session.Error)
  | eyre (message : String)
  | part2
  deriving DecidableEq

inductive Phase (I R1 R2 : Type*) where
  | exchange (stage : Stage) (todo : Todo I R1 R2)
  /-- `get_round1_packages` has returned. -/
  | round1Done (round1Packages : Map I R1)
  | closing
  | loggingOut
  /-- `get_round2_packages` has returned. -/
  | finished (round2Packages : Map I R2)
  | failed (e : Failure)
  /-- `cleanup_on_error` has returned. -/
  | cleaned (e : Failure)
  | panicked (message : String)

/-- A participant, with a record of what passed its cipher and its session state. -/
structure HTTPComms (S : Snow) (I R1 R2 : Type*) where
  cipher : Cipher S
  state : DKGSessionState I R1 R2
  phase : Phase I R1 R2
  /-- The payloads encrypted so far, with their recipients. -/
  produced : List (PublicKey × Payload I R1 R2)
  /-- The messages decrypted so far. -/
  decrypted : List Msg
  /-- The payloads accepted by the session state so far, with their senders. -/
  accepted : List (PublicKey × Payload I R1 R2)

structure Letter (I R1 R2 : Type*) where
  sender : PublicKey
  recipient : PublicKey
  payload : Payload I R1 R2
  deriving DecidableEq

variable {S : Snow} {I R1 R2 : Type*} [LinearOrder I] [DecidableEq R1] (D : Setup I R1 R2)

def recipientsFor (self : PublicKey) (order : List PublicKey) : List PublicKey :=
  order.filter fun pubkey => pubkey ≠ self

def round1Todo (self : PublicKey) (order : List PublicKey) : Todo I R1 R2 :=
  (recipientsFor self order).map fun pubkey => (pubkey, some (.round1 (D.round1Package self)))

/-- No package is broadcast back to its sender. -/
def broadcastTodo (self : PublicKey) (order : List PublicKey) (round1Packages : Map I R1) :
    Todo I R1 R2 :=
  (recipientsFor self order).flatMap fun pubkey =>
    (round1Packages.toSortedList.filter fun entry => entry.1 ≠ D.identifier pubkey).map
      fun entry => (pubkey, some (.broadcast entry.1 entry.2))

def round2Todo (self : PublicKey) (order : List PublicKey) (round2Packages : Map I R2) :
    Todo I R1 R2 :=
  (recipientsFor self order).map fun pubkey =>
    (pubkey, (round2Packages.lookup (D.identifier pubkey)).map .round2)

/-- The exit tests of the three wait loops. -/
def exitTest (stage : Stage) (st : DKGSessionState I R1 R2) : Bool :=
  match stage with
  | .round1 => st.hasRound1Packages
  | .broadcast => st.hasRound1BroadcastPackages
  | .round2 => st.hasRound2Packages

namespace HTTPComms

def start (self : PublicKey) (order : List PublicKey) : HTTPComms S I R1 R2 :=
  match Cipher.new self order with
  | some cipher =>
    { cipher
      state := .new D.pubkeys
      phase := .exchange .round1 (round1Todo D self order)
      produced := []
      decrypted := []
      accepted := [] }
  | none =>
    { cipher := .empty
      state := .new D.pubkeys
      phase := .failed (.cipher .snowError)
      produced := []
      decrypted := []
      accepted := [] }

variable (c : HTTPComms S I R1 R2)

def fail (e : Failure) : HTTPComms S I R1 R2 := { c with phase := .failed e }

def panic (message : String) : HTTPComms S I R1 R2 := { c with phase := .panicked message }

def enter {α : Type*} (next : α → Phase I R1 R2) : Outcome Session.Error α → HTTPComms S I R1 R2
  | .ok a => { c with phase := next a }
  | .err e => c.fail (.session e)
  | .panic message => c.panic message

def recvMsg (self : PublicKey) (msg : Msg) : Outcome Failure Unit × HTTPComms S I R1 R2 :=
  match c.cipher.decrypt msg with
  | (.err e, cipher) => (.err (.cipher e), { c with cipher })
  | (.panic message, cipher) => (.panic message, { c with cipher })
  | (.ok plain, cipher) =>
    let c := { c with cipher, decrypted := c.decrypted ++ [plain] }
    match c.state.recv D.codec.decode plain (D.identifier self) with
    | (.err e, state) => (.err (.session e), { c with state })
    | (.panic message, state) => (.panic message, { c with state })
    | (.ok (), state) =>
      let payload := c.state.payload D.codec.decode plain.msg
      (.ok (), { c with
        state
        accepted := c.accepted ++ (payload.map fun p => (plain.sender, p)).toList })

/-- `for msg in r.msgs`, up to the first error. -/
def recvBatch (self : PublicKey) : HTTPComms S I R1 R2 → List Msg →
    Outcome Failure Unit × HTTPComms S I R1 R2
  | c, [] => (.ok (), c)
  | c, msg :: msgs =>
    match c.recvMsg D self msg with
    | (.ok (), c) => recvBatch self c msgs
    | (.err e, c) => (.err e, c)
    | (.panic message, c) => (.panic message, c)

/-- What follows a turn of a wait loop: another turn, or the code after the loop. -/
def afterReceive (self : PublicKey) (order : List PublicKey) (stage : Stage) :
    HTTPComms S I R1 R2 :=
  if exitTest stage c.state then
    match stage with
    | .round1 =>
      if c.state.hasRound1BroadcastPackages then c.enter .round1Done c.state.round1Packages
      else
        c.enter (fun r1 => .exchange .broadcast (broadcastTodo D self order r1))
          c.state.round1Packages
    | .broadcast => c.enter .round1Done c.state.round1Packages
    | .round2 => { c with phase := if self = D.creator then .closing else .loggingOut }
  else c

def sendMsg (self : PublicKey) (now : ℕ) (app : AppState) (recipient : PublicKey)
    (payload : Payload I R1 R2) (next : Phase I R1 R2) :
    HTTPComms S I R1 R2 × AppState × Option (Letter I R1 R2) :=
  match c.cipher.encrypt recipient (D.codec.encode payload) with
  | (.err e, cipher) => (fail { c with cipher } (.cipher e), app, none)
  | (.panic message, cipher) => (panic { c with cipher } message, app, none)
  | (.ok msg, cipher) =>
    let c := { c with cipher, produced := c.produced ++ [(recipient, payload)] }
    match send now app (D.user self) ⟨D.sessionId, [recipient], msg⟩ with
    | (.ok (), app) => ({ c with phase := next }, app, some ⟨self, recipient, payload⟩)
    | (.error e, app) => (c.fail (.server e), app, none)

/-- One turn of a wait loop. -/
def poll (self : PublicKey) (now : ℕ) (order : List PublicKey) (app : AppState) (stage : Stage) :
    HTTPComms S I R1 R2 × AppState :=
  match receive now app (D.user self) ⟨D.sessionId, false⟩ with
  | (.error e, app) => (c.fail (.server e), app)
  | (.ok msgs, app) =>
    match c.recvBatch D self msgs with
    | (.ok (), c) => (c.afterReceive D self order stage, app)
    | (.err e, c) => (c.fail e, app)
    | (.panic message, c) => (c.panic message, app)

/-- The next step of a participant; `none` when it is done. -/
def step (self : PublicKey) (now : ℕ) (order : List PublicKey) (app : AppState) :
    Option (HTTPComms S I R1 R2 × AppState × Option (Letter I R1 R2)) :=
  match c.phase with
  | .exchange stage ((recipient, some payload) :: todo) =>
    some (c.sendMsg D self now app recipient payload (.exchange stage todo))
  | .exchange _ ((_, none) :: _) =>
    some (c.fail (.eyre "must have Round 2 Package for the given identifier"), app, none)
  | .exchange stage [] =>
    let (c, app) := c.poll D self now order app stage
    some (c, app, none)
  | .round1Done r1 =>
    match D.part2 self r1 with
    | none => some (c.fail .part2, app, none)
    | some r2 => some ({ c with phase := .exchange .round2 (round2Todo D self order r2) }, app, none)
  | .closing =>
    match closeSession app (D.user self) ⟨D.sessionId⟩ with
    | (.ok (), app) => some ({ c with phase := .loggingOut }, app, none)
    | (.error e, app) => some (c.fail (.server e), app, none)
  | .loggingOut =>
    match logout app (D.user self) with
    | (.ok (), app) => some (c.enter .finished c.state.round2Packages, app, none)
    | (.error e, app) => some (c.fail (.server e), app, none)
  | .failed e =>
    -- the result of the cleanup is ignored
    some ({ c with phase := .cleaned e }, (closeSession app (D.user self) ⟨D.sessionId⟩).2, none)
  | .finished _ | .cleaned _ | .panicked _ => none

end HTTPComms
end FrostTools.Dkg
