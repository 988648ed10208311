import FrostTools.Signing.Socket

/-!
# Signing over HTTP

The parties exchange encrypted messages through the server. A communication key pair is
represented by its public key.
-/

namespace FrostTools.Signing
open Client

structure HttpLibrary (C : Ciphersuite) where
  /-- `PrivateKey::sign` of the bytes of a challenge. -/
  sign : PublicKey → Uuid → Option Bytes
  decoder : Session.CoordinatorDecoder C.SigningCommitments C.SignatureShare
  configFromSlice : Bytes → Option (SendSigningPackageArgs C)
  commitmentsToVec : List C.SigningCommitments → Bytes
  sharesToVec : List C.SignatureShare → Bytes
  configToVec : SendSigningPackageArgs C → Bytes
  /-- The orders in which the coordinator iterates over its two maps of the signers. -/
  signersKeys : Map PublicKey C.Identifier → List PublicKey
  pubkeysKeys : Map PublicKey C.Identifier → List PublicKey

namespace Http

variable {C : Ciphersuite} {S : Snow} {σ : Type} (lib : HttpLibrary C)

/-- `expect` or `unwrap` of an option that was set before. -/
def expect {α : Type} (message : String) : Option α → Outcome Failure α
  | some a => .ok a
  | none => .panic message

@[simp] theorem expect_eq_ok_iff {α : Type} {message : String} {o : Option α} {a : α} :
    expect message o = .ok a ↔ o = some a := by
  cases o <;> simp [expect]

/-- `self.session_id.unwrap()`. -/
def unwrapSessionId (sessionId : Option Uuid) : Outcome Failure Uuid :=
  expect "called `Option::unwrap()` on a `None` value" sessionId

def login (accessToken : Option Uuid) (commPrivkey commPubkey : Option PublicKey) :
    Run σ Uuid := do
  let challenge ← request accessToken .challenge
  let privkey ← Method.lift (.okOr (.eyre "comm_privkey must be specified") commPrivkey)
  let signature ← Method.lift (.okOr .invalidPrivateKey (lib.sign privkey challenge))
  let pubkey ← Method.lift (.okOr (.eyre "comm_pubkey must be specified") commPubkey)
  request accessToken (.login ⟨challenge, pubkey, signature⟩)

@[simp] theorem yields_login_iff {lib : HttpLibrary C} {accessToken : Option Uuid}
    {commPrivkey commPubkey : Option PublicKey} {token : Uuid} {s s' : σ} {es : List World.Event} :
    (login lib accessToken commPrivkey commPubkey).Yields s es token s' ↔
      ∃ challenge privkey pubkey signature, commPrivkey = some privkey ∧ commPubkey = some pubkey ∧
        lib.sign privkey challenge = some signature ∧
        es = [⟨.http accessToken .challenge, .ok challenge⟩,
          ⟨.http accessToken (.login ⟨challenge, pubkey, signature⟩), .ok token⟩] ∧ s = s' := by
  simp [login]
  constructor
  · rintro ⟨challenge, privkey, signature, pubkey, rfl, rfl, hsign, rfl, rfl⟩
    exact ⟨challenge, privkey, rfl, pubkey, rfl, signature, hsign, rfl, rfl⟩
  · rintro ⟨challenge, privkey, rfl, pubkey, rfl, signature, hsign, rfl, rfl⟩
    exact ⟨challenge, privkey, signature, pubkey, rfl, rfl, hsign, rfl, rfl⟩

def encrypt (cipher : Cipher S) (recipient : Option PublicKey) (msg : Bytes) :
    Outcome Failure (Bytes × Cipher S) :=
  let (r, cipher) := cipher.encryptTo recipient msg
  (r.mapErr .cipher).bind fun x => .ok (x, cipher)

theorem encrypt_some_eq_ok_iff {cipher cipher' : Cipher S} {recipient : PublicKey} {msg x : Bytes} :
    encrypt cipher (some recipient) msg = .ok (x, cipher') ↔
      cipher.encrypt recipient msg = (.ok x, cipher') := by
  change ((cipher.encrypt recipient msg).1.mapErr Failure.cipher).bind
    (fun x => .ok (x, (cipher.encrypt recipient msg).2)) = _ ↔ _
  rw [Outcome.bind_eq_ok_iff, Prod.ext_iff]
  simp

theorem encrypt_none_eq_ok_iff {cipher cipher' : Cipher S} {msg x : Bytes} :
    encrypt cipher none msg = .ok (x, cipher') ↔ ∃ recipient,
      cipher.recipient none = .ok recipient ∧ cipher.encrypt recipient msg = (.ok x, cipher') := by
  unfold encrypt Cipher.encryptTo
  cases cipher.recipient none with
  | ok recipient =>
    simp only [Outcome.ok.injEq, exists_eq_left']
    exact encrypt_some_eq_ok_iff
  | err e => simp [Outcome.mapErr, Outcome.bind]
  | panic message => simp [Outcome.mapErr, Outcome.bind]

end Http

namespace Http.Coordinator

structure Args (C : Ciphersuite) where
  signers : Map PublicKey C.Identifier
  commPrivkey : Option PublicKey
  commPubkey : Option PublicKey

abbrev State (C : Ciphersuite) :=
  Session.CoordinatorSessionState C.Identifier C.SigningCommitments C.SignatureShare

structure HTTPComms (C : Ciphersuite) (S : Snow) where
  accessToken : Option Uuid
  sessionId : Option Uuid
  args : Args C
  state : State C
  pubkeys : Map PublicKey C.Identifier
  cipher : Option (Cipher S)

variable {C : Ciphersuite} {S : Snow} (lib : HttpLibrary C)

def HTTPComms.new (pargs : Coordinator.ProcessedArgs C) (args : Args C) : HTTPComms C S where
  accessToken := none
  sessionId := none
  args := args
  state := .new pargs.messages.length pargs.numSigners.toNat args.signers
  pubkeys := ∅
  cipher := none

/-- Decrypts the messages of a batch and hands them to the session state, up to the first
error. -/
def recvBatch : Cipher S × State C → List Msg → Outcome Failure Unit × Cipher S × State C
  | (cipher, state), [] => (.ok (), cipher, state)
  | (cipher, state), msg :: msgs =>
    match cipher.decrypt msg with
    | (.err e, cipher) => (.err (.cipher e), cipher, state)
    | (.panic message, cipher) => (.panic message, cipher, state)
    | (.ok plain, cipher) =>
      match state.recv lib.decoder plain with
      | (.err e, state) => (.err (.session e), cipher, state)
      | (.panic message, state) => (.panic message, cipher, state)
      | (.ok (), state) => recvBatch (cipher, state) msgs

def turn (exit : State C → Bool) (s : Cipher S × HTTPComms C S)
    (answer : Except ClientError (List Msg)) :
    (Cipher S × HTTPComms C S) ⊕ (Outcome Failure (Cipher S) × HTTPComms C S) :=
  match answer with
  | .error e => .inr (.err (.client e), s.2)
  | .ok msgs =>
    match recvBatch lib (s.1, s.2.state) msgs with
    | (.ok (), cipher, state) =>
      let comms := { s.2 with state }
      if exit state then .inr (.ok cipher, comms) else .inl (cipher, comms)
    | (.err e, _, state) => .inr (.err e, { s.2 with state })
    | (.panic message, _, state) => .inr (.panic message, { s.2 with state })

/-- Receives messages for the coordinator until the session state passes a test. -/
def receiveUntil (exit : State C → Bool) (accessToken : Option Uuid) (sessionId : Uuid)
    (cipher : Cipher S) : Run (HTTPComms C S) (Cipher S) :=
  Method.poll (F := World) cipher (.http accessToken (.receive ⟨sessionId, true⟩)) (turn lib exit)

def getSigningCommitments (numMessages : ℕ) :
    Run (HTTPComms C S) (List (Map C.Identifier C.SigningCommitments)) := do
  let comms ← Method.read
  let args := comms.args
  let accessToken ← login lib comms.accessToken args.commPrivkey args.commPubkey
  Method.modify fun comms => { comms with accessToken := some accessToken }
  let messageCount ← Method.lift <|
    if numMessages ≤ 255 then .ok (UInt8.ofNat numMessages)
    else .err (.eyre "too many messages (maximum is 255)")
  let signers := lib.signersKeys args.signers
  let sessionId ← request accessToken (.createNewSession ⟨signers, messageCount⟩)
  Method.modify fun comms => { comms with sessionId := some sessionId }
  let commPrivkey ← Method.lift (.okOr (.eyre "comm_privkey must be specified") args.commPrivkey)
  let cipher ← Method.lift (.okOr (.cipher .snowError) (Cipher.new (S := S) commPrivkey signers))
  let cipher ← receiveUntil lib (·.hasCommitments) accessToken sessionId cipher
  Method.modify fun comms => { comms with cipher := some cipher }
  let (commitments, pubkeys) ←
    Method.lift ((← Method.read).state.commitments.mapErr .session)
  Method.modify fun comms => { comms with pubkeys }
  pure commitments

section Yields

variable {lib : HttpLibrary C} {s s' : HTTPComms C S} {es : List World.Event}
  {cipher cipher' : Cipher S}

/-- A wait loop returns when the test passes, and the successful batches of messages have kept
any property of the cipher and the session state. -/
theorem yields_receiveUntil {exit : State C → Bool} {accessToken : Option Uuid} {sessionId : Uuid}
    (h : (receiveUntil lib exit accessToken sessionId cipher).Yields s es cipher' s')
    {I : Cipher S × State C → Prop} (hstart : I (cipher, s.state))
    (hbatch : ∀ r r' msgs, I r → recvBatch lib r msgs = (.ok (), r') → I r') :
    exit s'.state = true ∧ s' = { s with state := s'.state } ∧ I (cipher', s'.state) ∧
      ∀ e ∈ es, e.query = .http accessToken (.receive ⟨sessionId, true⟩) := by
  have hturns : ∀ (t : Cipher S × HTTPComms C S) (answer : Except ClientError (List Msg)) t',
      I (t.1, t.2.state) ∧ t.2 = { s with state := t.2.state } → turn lib exit t answer = .inl t' →
      I (t'.1, t'.2.state) ∧ t'.2 = { s with state := t'.2.state } := by
    rintro t answer t' ⟨hI, hframe⟩ hturn
    cases answer with
    | error e => simp [turn] at hturn
    | ok msgs =>
      simp only [turn] at hturn
      split at hturn
      · next cipher₁ state₁ hrecv =>
        split_ifs at hturn with hexit
        obtain rfl := Sum.inl.inj hturn
        exact ⟨hbatch _ _ msgs hI hrecv, by rw [hframe]⟩
      · cases hturn
      · cases hturn
  obtain ⟨t, answer, -, ⟨hI, hframe⟩, hturn, -, hquery⟩ := Method.Yields.leaves h ⟨hstart, rfl⟩ hturns
  cases answer with
  | error e => simp [turn] at hturn
  | ok msgs =>
    simp only [turn] at hturn
    split at hturn
    · next cipher₁ state₁ hrecv =>
      split_ifs at hturn with hexit
      obtain ⟨hcipher, rfl⟩ := Prod.mk.inj (Sum.inr.inj hturn)
      obtain rfl := Outcome.ok.inj hcipher
      exact ⟨hexit, by rw [hframe], hbatch _ _ msgs hI hrecv, hquery⟩
    · cases hturn
    · cases hturn

theorem yields_getSigningCommitments {numMessages : ℕ}
    {commitments : List (Map C.Identifier C.SigningCommitments)}
    (h : (getSigningCommitments lib numMessages).Yields s es commitments s') :
    ∃ privkey token sessionId cipher cipher' comms pubkeys es₁ es₂,
      s.args.commPrivkey = some privkey ∧
      Cipher.new privkey (lib.signersKeys s.args.signers) = some cipher ∧
      (receiveUntil lib (·.hasCommitments) (some token) sessionId cipher).Yields
        { s with accessToken := some token, sessionId := some sessionId } es₂ cipher' comms ∧
      comms.state.commitments = .ok (commitments, pubkeys) ∧
      s' = { comms with pubkeys, cipher := some cipher' } ∧ es = es₁ ++ es₂ ∧
      ∀ e ∈ es₁, ∀ token args, e.query ≠ .http token (.send args) := by
  simp [getSigningCommitments] at h
  obtain ⟨_, token, _, sessionId, es₂, _, _, _, _, rfl, rfl, -, -, privkey, hprivkey, cipher, hcipher,
    cipher', comms, hreceive, pubkeys, hcommitments, rfl⟩ := h
  exact ⟨privkey, token, sessionId, cipher, cipher', comms, pubkeys, [_, _, _], es₂, hprivkey, hcipher,
    hreceive, hcommitments, rfl, rfl, by simp⟩

end Yields

def sendTo (accessToken sessionId : Option Uuid) (payload : Bytes) (cipher : Cipher S)
    (recipient : PublicKey) : Run (HTTPComms C S) (Cipher S) := do
  let (msg, cipher) ← Method.lift (encrypt cipher (some recipient) payload)
  let sessionId ← Method.lift (unwrapSessionId sessionId)
  request accessToken (.send ⟨sessionId, [recipient], msg⟩)
  pure cipher

def sendSigningPackage (signingPackages : List C.Package) (randomizers : Option (List C.Randomizer))
    (auxMsg : Option Bytes) : Run (HTTPComms C S) (List (Map C.Identifier C.SignatureShare)) := do
  let comms ← Method.read
  let cipher ← Method.lift (expect "cipher must have been set before" comms.cipher)
  let args : SendSigningPackageArgs C :=
    { signingPackage := signingPackages
      auxMsg := auxMsg.getD []
      randomizer := randomizers.getD [] }
  let cipher ← Method.foldM (sendTo comms.accessToken comms.sessionId (lib.configToVec args)) cipher
    (lib.pubkeysKeys comms.pubkeys)
  let sessionId ← Method.lift (unwrapSessionId comms.sessionId)
  let cipher ← receiveUntil lib (·.hasSignatureShares) comms.accessToken sessionId cipher
  Method.modify fun comms => { comms with cipher := some cipher }
  request comms.accessToken (.closeSession ⟨sessionId⟩)
  request comms.accessToken .logout
  Method.modify fun comms => { comms with accessToken := none }
  Method.lift ((← Method.read).state.signatureShares.mapErr .session)

section Yields

variable {lib : HttpLibrary C} {s s' : HTTPComms C S} {es : List World.Event}
  {cipher cipher' : Cipher S}

/-- To every recipient goes the payload, encrypted by the Noise state that the cipher has for it. -/
theorem yields_sendTo_all {accessToken sessionId : Option Uuid} {payload : Bytes}
    {recipients : List PublicKey} (hnodup : recipients.Nodup)
    (h : (Method.foldM (sendTo accessToken sessionId payload) cipher recipients).Yields s es cipher' s') :
    s = s' ∧ ∀ e ∈ es, ∃ sessionId recipient x noise noise',
      e = ⟨.http accessToken (.send ⟨sessionId, [recipient], x⟩), .ok ()⟩ ∧
      cipher.sendNoiseMap.lookup recipient = some noise ∧
      (Noise.channel S).write noise payload = some (x, noise') ∧ recipient ∈ recipients := by
  induction recipients generalizing cipher s es with
  | nil =>
    obtain ⟨rfl, -, rfl⟩ := Method.yields_foldM_nil_iff.mp h
    exact ⟨rfl, fun e he => absurd he List.not_mem_nil⟩
  | cons recipient recipients ih =>
    obtain ⟨hnew, hrest⟩ := List.nodup_cons.mp hnodup
    obtain ⟨cipher₁, s₁, es₁, es₂, rfl, hsend, hall⟩ := Method.yields_foldM_cons_iff.mp h
    simp [sendTo] at hsend
    obtain ⟨x, sessionId, ⟨_, rfl⟩, hencrypt, -, rfl⟩ := hsend
    obtain ⟨noise, noise', hlookup, hwrite, rfl⟩ :=
      Cipher.encrypt_ok_iff.mp (encrypt_some_eq_ok_iff.mp hencrypt)
    obtain ⟨rfl, hevents⟩ := ih hrest hall
    refine ⟨rfl, fun e he => ?_⟩
    rcases List.mem_append.mp he with he | he
    · rw [List.mem_singleton.mp he]
      exact ⟨sessionId, recipient, x, noise, noise', rfl, hlookup, hwrite, List.mem_cons_self⟩
    · obtain ⟨sessionId', recipient', x', noise₁, noise₂, rfl, hlookup', hwrite', hmem⟩ := hevents e he
      have hne : recipient' ≠ recipient := by
        rintro rfl
        exact hnew hmem
      rw [Map.lookup_insert, if_neg hne] at hlookup'
      exact ⟨sessionId', recipient', x', noise₁, noise₂, rfl, hlookup', hwrite',
        List.mem_cons_of_mem _ hmem⟩

theorem yields_sendSigningPackage {signingPackages : List C.Package}
    {randomizers : Option (List C.Randomizer)} {auxMsg : Option Bytes}
    {shares : List (Map C.Identifier C.SignatureShare)}
    (h : (sendSigningPackage lib signingPackages randomizers auxMsg).Yields s es shares s') :
    ∃ cipher cipher₁ cipher₂ sessionId s₁ s₂ es₁ es₂, s.cipher = some cipher ∧
      (Method.foldM (sendTo s.accessToken s.sessionId
        (lib.configToVec ⟨signingPackages, auxMsg.getD [], randomizers.getD []⟩)) cipher
          (lib.pubkeysKeys s.pubkeys)).Yields s es₁ cipher₁ s₁ ∧
      (receiveUntil lib (·.hasSignatureShares) s.accessToken sessionId cipher₁).Yields s₁ es₂
        cipher₂ s₂ ∧
      s₂.state.signatureShares = .ok shares ∧
      es = es₁ ++ (es₂ ++ [⟨.http s.accessToken (.closeSession ⟨sessionId⟩), .ok ()⟩,
        ⟨.http s.accessToken .logout, .ok ()⟩]) := by
  simp [sendSigningPackage] at h
  obtain ⟨cipher, cipher₁, s₁, es₁, sessionId, cipher₂, s₂, es₂, ⟨_, _, rfl⟩, hcipher, hsend, -, hreceive,
    -, hshares⟩ := h
  exact ⟨cipher, cipher₁, cipher₂, sessionId, s₁, s₂, es₁, es₂, hcipher, hsend, hreceive, hshares, rfl⟩

end Yields

def cleanupOnError : Run (HTTPComms C S) Unit := do
  let comms ← Method.read
  match comms.sessionId with
  | some sessionId => request comms.accessToken (.closeSession ⟨sessionId⟩)
  | none => pure ()

def comms : Coordinator.Comms C (HTTPComms C S) where
  getSigningCommitments _ _ numMessages := getSigningCommitments lib numMessages
  sendSigningPackageAndGetSignatureShares := sendSigningPackage lib
  processSignature _ := pure ()
  cleanupOnError := cleanupOnError

end Http.Coordinator

namespace Http.Participant

structure Args where
  commPrivkey : Option PublicKey
  commPubkey : Option PublicKey
  /-- Confirms that a public key from the server is trusted by the user. -/
  commCoordinatorPubkeyGetter : Option (PublicKey → Option PublicKey)

structure HTTPComms (S : Snow) where
  accessToken : Option Uuid
  sessionId : Option Uuid
  args : Args
  cipher : Option (Cipher S)

variable {C : Ciphersuite} {S : Snow} (lib : HttpLibrary C)

/-- The session id is the one that was specified, if any. -/
def HTTPComms.new (sessionId : Option Uuid) (args : Args) : HTTPComms S where
  accessToken := none
  sessionId := sessionId
  args := args
  cipher := none

/-- The session that the user specified, or the only one the server lists. -/
def findSession (sessionId accessToken : Option Uuid) : Run (HTTPComms S) Uuid :=
  match sessionId with
  | some sessionId => pure sessionId
  | none => do
    match (← request accessToken .listSessions) with
    | [] => Method.fail (.eyre "User has no current sessions active. The Coordinator should either specify your username, or manually share the session ID which you can specify with --session_id")
    | [sessionId] => pure sessionId
    | _ => Method.fail (.eyre "user has more than one FROST session active; use `frost-client sessions` to list them and specify the session ID with `-S`")

def getMessageCount : Run (HTTPComms S) UInt8 := do
  let comms ← Method.read
  let accessToken ← login lib comms.accessToken comms.args.commPrivkey comms.args.commPubkey
  Method.modify fun comms => { comms with accessToken := some accessToken }
  let sessionId ← findSession comms.sessionId accessToken
  Method.modify fun comms => { comms with sessionId := some sessionId }
  match comms.args.commPrivkey, comms.args.commCoordinatorPubkeyGetter with
  | some commPrivkey, some commCoordinatorPubkeyGetter =>
    let sessionInfo ← request accessToken (.getSessionInfo ⟨sessionId⟩)
    let commCoordinatorPubkey ← Method.lift <| .okOr (.eyre "The coordinator for the specified FROST session is not registered in the user's address book") <|
      commCoordinatorPubkeyGetter sessionInfo.coordinatorPubkey
    let cipher ← Method.lift <|
      .okOr (.cipher .snowError) (Cipher.new (S := S) commPrivkey [commCoordinatorPubkey])
    Method.modify fun comms => { comms with cipher := some cipher }
    pure sessionInfo.messageCount
  | _, _ =>
    Method.fail (.eyre "comm_privkey and comm_coordinator_pubkey_getter must be specified")

def sendToCoordinator (accessToken : Option Uuid) (sessionId : Uuid) (cipher : Cipher S)
    (payload : Bytes) : Run (HTTPComms S) (Cipher S) := do
  let (msg, cipher) ← Method.lift (encrypt cipher none payload)
  Method.modify fun comms => { comms with cipher := some cipher }
  -- no recipient means the coordinator
  request accessToken (.send ⟨sessionId, [], msg⟩)
  pure cipher

theorem yields_findSession {sessionId accessToken : Option Uuid} {id : Uuid}
    {s s' : HTTPComms S} {es : List World.Event}
    (h : (findSession sessionId accessToken).Yields s es id s') : s = s' := by
  unfold findSession at h
  split at h
  · exact (Method.yields_pure_iff.mp h).2.2
  · obtain ⟨ids, s₁, es₁, es₂, -, hrequest, h⟩ := Method.yields_bind_iff.mp h
    obtain ⟨-, rfl⟩ := yields_request_iff.mp hrequest
    split at h
    · exact absurd h Method.not_yields_fail
    · exact (Method.yields_pure_iff.mp h).2.2
    · exact absurd h Method.not_yields_fail

theorem yields_getMessageCount {lib : HttpLibrary C} {messageCount : UInt8} {s s' : HTTPComms S}
    {es : List World.Event} (h : (getMessageCount lib).Yields s es messageCount s') :
    ∃ privkey getter token sessionId info coordinator cipher, s.args.commPrivkey = some privkey ∧
      s.args.commCoordinatorPubkeyGetter = some getter ∧
      ⟨.http (some token) (.getSessionInfo ⟨sessionId⟩), .ok info⟩ ∈ es ∧
      getter info.coordinatorPubkey = some coordinator ∧
      Cipher.new privkey [coordinator] = some cipher ∧
      s' = { s with accessToken := some token, sessionId := some sessionId, cipher := some cipher } := by
  simp [getMessageCount] at h
  obtain ⟨token, sessionId, s₁, es₁, es₂, _, privkey, _, _, rfl, -, hfind, h⟩ := h
  obtain rfl := yields_findSession hfind
  split at h
  · next privkey getter hprivkey hgetter =>
    simp at h
    obtain ⟨info, rfl, coordinator, hcoordinator, cipher, hcipher, rfl, -⟩ := h
    exact ⟨privkey, getter, token, sessionId, info, coordinator, cipher, hprivkey, hgetter, by simp,
      hcoordinator, hcipher, rfl⟩
  · exact absurd h Method.not_yields_fail

def turn (s : Cipher S × HTTPComms S) (answer : Except ClientError (List Msg)) :
    (Cipher S × HTTPComms S) ⊕ (Outcome Failure (SendSigningPackageArgs C) × HTTPComms S) :=
  match answer with
  | .error e => .inr (.err (.client e), s.2)
  | .ok [] => .inl s
  | .ok (msg :: _) =>
    let (r, cipher) := s.1.decrypt msg
    .inr ((r.mapErr .cipher).bind fun plain => .okOr .malformed (lib.configFromSlice plain.msg),
      { s.2 with cipher := some cipher })

def getSigningPackage (commitments : List C.SigningCommitments) :
    Run (HTTPComms S) (SendSigningPackageArgs C) := do
  let comms ← Method.read
  let cipher ← Method.lift (expect "was previously set" comms.cipher)
  let sessionId ← Method.lift (expect "was previously set" comms.sessionId)
  let cipher ← sendToCoordinator comms.accessToken sessionId cipher (lib.commitmentsToVec commitments)
  Method.poll (F := World) cipher (.http comms.accessToken (.receive ⟨sessionId, false⟩)) (turn lib)

/-- The packages are in the first message received, which the cipher decrypts after it encrypted
the commitments. -/
theorem yields_getSigningPackage {lib : HttpLibrary C} {commitments : List C.SigningCommitments}
    {config : SendSigningPackageArgs C} {s s' : HTTPComms S} {es : List World.Event}
    (h : (getSigningPackage lib commitments).Yields s es config s') :
    ∃ cipher cipher₁ cipher₂ recipient x sessionId msg msgs plain, s.cipher = some cipher ∧
      cipher.encrypt recipient (lib.commitmentsToVec commitments) = (.ok x, cipher₁) ∧
      ⟨.http s.accessToken (.receive ⟨sessionId, false⟩), .ok (msg :: msgs)⟩ ∈ es ∧
      cipher₁.decrypt msg = (.ok plain, cipher₂) ∧ lib.configFromSlice plain.msg = some config ∧
      s' = { s with cipher := some cipher₂ } := by
  simp [getSigningPackage, sendToCoordinator] at h
  obtain ⟨cipher, sessionId, cipher₁, es₂, x, ⟨_, rfl⟩, hcipher, -, hencrypt, hpoll⟩ := h
  obtain ⟨recipient, -, hencrypt⟩ := encrypt_none_eq_ok_iff.mp hencrypt
  have hturns : ∀ (t : Cipher S × HTTPComms S) (answer : Except ClientError (List Msg)) t',
      t = (cipher₁, { s with cipher := some cipher₁ }) → turn lib t answer = .inl t' →
      t' = (cipher₁, { s with cipher := some cipher₁ }) := by
    intro t answer t' ht hturn
    match answer with
    | .error e => simp [turn] at hturn
    | .ok [] =>
      obtain rfl := Sum.inl.inj hturn
      exact ht
    | .ok (msg :: msgs) => simp [turn] at hturn
  obtain ⟨t, answer, es', rfl, hturn, rfl, -⟩ := Method.Yields.leaves hpoll
    (I := fun t => t = (cipher₁, { s with cipher := some cipher₁ })) rfl hturns
  match answer with
  | .error e => simp [turn] at hturn
  | .ok [] => cases hturn
  | .ok (msg :: msgs) =>
    obtain ⟨hresult, rfl⟩ := Prod.mk.inj (Sum.inr.inj hturn)
    obtain ⟨plain, hplain, hconfig⟩ := Outcome.bind_eq_ok_iff.mp hresult
    exact ⟨cipher, cipher₁, (cipher₁.decrypt msg).2, recipient, x, sessionId, msg, msgs, plain, hcipher,
      hencrypt, by simp, Prod.ext (Outcome.mapErr_eq_ok_iff.mp hplain) rfl,
      Outcome.okOr_eq_ok_iff.mp hconfig, rfl⟩

def sendSignatureShare (signatureShares : List C.SignatureShare) : Run (HTTPComms S) Unit := do
  let comms ← Method.read
  let cipher ← Method.lift (expect "was just set" comms.cipher)
  let sessionId ← Method.lift (unwrapSessionId comms.sessionId)
  let _ ← sendToCoordinator comms.accessToken sessionId cipher (lib.sharesToVec signatureShares)
  request comms.accessToken .logout
  Method.modify fun comms => { comms with accessToken := none }

def comms : Participant.Comms C (HTTPComms S) where
  getMessageCount := getMessageCount lib
  getSigningPackage commitments _ _ := getSigningPackage lib commitments
  confirmMessage := confirmMessage
  sendSignatureShare _ signatureShares := sendSignatureShare lib signatureShares

end Http.Participant
end FrostTools.Signing
