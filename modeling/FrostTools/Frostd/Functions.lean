import FrostTools.Frostd.State

/-!
# The request handlers

A handler returns its result together with the state it leaves behind, on the
error exits as well. `now` is the instant at which the delay maps are written,
and the ids drawn by `Uuid::new_v4` are arguments.
-/

namespace FrostTools.Frostd
open Api

/-- `xed25519` verification of a signature on the bytes of a challenge. -/
abbrev Verifier := PublicKey → Uuid → Bytes → Bool

def challenge (now : ℕ) (state : AppState) (id : Uuid) : Except Error Uuid × AppState :=
  (.ok id, { state with challenges := state.challenges.insert now id () })

/-- The first half of `login`: the checks and the removal of the challenge. -/
def loginChallenge (verify : Verifier) (state : AppState) (args : LoginArgs) :
    Except Error Unit × AppState :=
  if args.signature = [] ∨ args.pubkey.bytes = [] then
    (.error (.invalidArgument "signature or pubkey"), state)
  else if args.pubkey.bytes.length ≠ 32 then (.error (.invalidArgument "pubkey"), state)
  else if args.signature.length ≠ 64 then (.error (.invalidArgument "signature"), state)
  else if verify args.pubkey args.challenge args.signature = false then
    (.error .unauthorized, state)
  else if args.challenge ∉ state.challenges.keys then (.error .unauthorized, state)
  else (.ok (), { state with challenges := state.challenges.remove args.challenge })

/-- The second half of `login`, after the lock on the challenges was dropped. -/
def loginToken (now : ℕ) (state : AppState) (args : LoginArgs) (accessToken : Uuid) :
    Except Error Uuid × AppState :=
  (.ok accessToken,
    { state with accessTokens := state.accessTokens.insert now accessToken args.pubkey })

/-- `User::from_request_parts`. A missing or malformed header is `none`. -/
def fromRequestParts (state : AppState) (bearer : Option Uuid) : Except Error User :=
  match bearer with
  | none => .error .unauthorized
  | some accessToken =>
    match state.accessTokens.lookup accessToken with
    | some pubkey => .ok { pubkey, currentToken := accessToken }
    | none => .error .unauthorized

def logout (state : AppState) (user : User) : Except Error Unit × AppState :=
  (.ok (), { state with accessTokens := state.accessTokens.remove user.currentToken })

def createNewSession (now : ℕ) (state : AppState) (user : User) (args : CreateNewSessionArgs)
    (id : Uuid) : Except Error Uuid × AppState :=
  if args.messageCount = 0 then (.error (.invalidArgument "message_count"), state)
  else
    let index := args.pubkeys.foldl (SessionState.insertId id) state.sessions.sessionsByPubkey
    let index := SessionState.insertId id index user.pubkey
    let session : Session :=
      { pubkeys := args.pubkeys
        coordinatorPubkey := user.pubkey
        messageCount := args.messageCount
        queue := ∅ }
    (.ok id, { state with
      sessions :=
        { sessions := state.sessions.sessions.insert now id session
          sessionsByPubkey := index } })

/-- The ids are returned in no particular order. -/
def listSessions (state : AppState) (user : User) : Except Error (Finset Uuid) × AppState :=
  (.ok (SessionState.listed state.sessions.sessionsByPubkey user.pubkey), state)

def getSessionInfo (state : AppState) (user : User) (args : GetSessionInfoArgs) :
    Except Error GetSessionInfoOutput × AppState :=
  match state.sessions.sessionsByPubkey.lookup user.pubkey with
  | none => (.error .sessionNotFound, state)
  | some userSessions =>
    if args.sessionId ∉ userSessions then (.error .sessionNotFound, state)
    else
      match state.sessions.sessions.lookup args.sessionId with
      | none => (.error .sessionNotFound, state)
      | some session =>
        (.ok
          { messageCount := session.messageCount
            pubkeys := session.pubkeys
            coordinatorPubkey := session.coordinatorPubkey }, state)

/-- The queues a `send` writes to; no recipient means the coordinator. -/
def recipients (args : SendArgs) : List SessionParticipant :=
  if args.recipients = [] then [.coordinator] else args.recipients.map .participant

def canSend (session : Session) (user : User) (args : SendArgs) : Bool :=
  decide (session.Member user.pubkey) &&
    (recipients args).all fun
      | .coordinator => true
      | .participant pubkey => decide (pubkey ∈ session.pubkeys)

/-- `push_back` of the same message on every recipient's queue. -/
def enqueue (user : User) (args : SendArgs) (session : Session) : Session :=
  (recipients args).foldl
    (fun session recipient => session.pushBack recipient ⟨user.pubkey, args.msg⟩) session

def send (now : ℕ) (state : AppState) (user : User) (args : SendArgs) :
    Except Error Unit × AppState :=
  if args.msg.length > maxMsgSize then (.error (.invalidArgument "msg is too big"), state)
  else
    match state.sessions.sessions.lookup args.sessionId with
    | none => (.error .sessionNotFound, state)
    | some session =>
      if canSend session user args = false then (.error .notInSession, state)
      else
        let sessions := state.sessions.sessions.modify args.sessionId (enqueue user args)
        let sessions := sessions.updateTimeout now args.sessionId sessionTimeout
        (.ok (), { state with sessions := { state.sessions with sessions } })

def resolve (session : Session) (pubkey : PublicKey) (asCoordinator : Bool) : SessionParticipant :=
  if pubkey = session.coordinatorPubkey ∧ asCoordinator = true then .coordinator
  else .participant pubkey

def receive (now : ℕ) (state : AppState) (user : User) (args : ReceiveArgs) :
    Except Error (List Msg) × AppState :=
  match state.sessions.sessions.lookup args.sessionId with
  | none => (.error .sessionNotFound, state)
  | some session =>
    if ¬session.Member user.pubkey then (.error .notInSession, state)
    else
      let participant := resolve session user.pubkey args.asCoordinator
      let msgs := (session.drain participant).1
      let sessions := state.sessions.sessions.modify args.sessionId
        fun session => (session.drain participant).2
      -- an empty `receive` does not renew the timeout
      let sessions := if msgs = [] then sessions
        else sessions.updateTimeout now args.sessionId sessionTimeout
      (.ok msgs, { state with sessions := { state.sessions with sessions } })

def closeSession (state : AppState) (user : User) (args : CloseSessionArgs) :
    Except Error Unit × AppState :=
  match state.sessions.sessionsByPubkey.lookup user.pubkey with
  | none => (.error .sessionNotFound, state)
  | some userSessions =>
    if args.sessionId ∉ userSessions then (.error .sessionNotFound, state)
    else
      match state.sessions.sessions.lookup args.sessionId with
      | none => (.error .sessionNotFound, state)
      | some session =>
        if session.coordinatorPubkey ≠ user.pubkey then (.error .notCoordinator, state)
        else
          let index := session.pubkeys.foldl (SessionState.removeId args.sessionId)
            state.sessions.sessionsByPubkey
          let index := SessionState.removeId args.sessionId index user.pubkey
          (.ok (), { state with
            sessions :=
              { sessions := state.sessions.sessions.remove args.sessionId
                sessionsByPubkey := index } })

/-- A request of an authenticated user. The id of a new session is the one
drawn by the handler. -/
inductive Request where
  | logout
  | createNewSession (args : CreateNewSessionArgs) (id : Uuid)
  | listSessions
  | getSessionInfo (args : GetSessionInfoArgs)
  | send (args : SendArgs)
  | receive (args : ReceiveArgs)
  | closeSession (args : CloseSessionArgs)
  deriving DecidableEq

inductive Response where
  | done
  | uuid (id : Uuid)
  | sessionIds (ids : Finset Uuid)
  | sessionInfo (info : GetSessionInfoOutput)
  | msgs (msgs : List Msg)
  | user (user : User)
  | expired (session : Session)
  | error (e : Error)
  deriving DecidableEq

def Response.ofResult {α : Type} (f : α → Response) : Except Error α → Response
  | .ok a => f a
  | .error e => .error e

def handle (now : ℕ) (state : AppState) (user : User) : Request → Response × AppState
  | .logout => Prod.map (.ofResult fun _ => .done) id (logout state user)
  | .createNewSession args id' =>
    Prod.map (.ofResult .uuid) id (createNewSession now state user args id')
  | .listSessions => Prod.map (.ofResult .sessionIds) id (listSessions state user)
  | .getSessionInfo args => Prod.map (.ofResult .sessionInfo) id (getSessionInfo state user args)
  | .send args => Prod.map (.ofResult fun _ => .done) id (send now state user args)
  | .receive args => Prod.map (.ofResult .msgs) id (receive now state user args)
  | .closeSession args => Prod.map (.ofResult fun _ => .done) id (closeSession state user args)

end FrostTools.Frostd
