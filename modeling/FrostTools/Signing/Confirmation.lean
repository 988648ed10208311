import FrostTools.Client.Exchange
import FrostTools.Signing.Http

/-!
# A participant signs what its user confirmed

A participant sends two messages: the commitments, and the shares for the packages whose messages
its user confirmed.
-/

namespace FrostTools.Signing
open Api Client Http

variable {C : Ciphersuite} {S : Snow} {σ : Type} {es : List World.Event}

def confirmations (packages : List C.Package) (answers : List String) : List World.Event :=
  (packages.zip answers).flatMap fun (package, answer) =>
    [⟨.eprintln (question package.message), ()⟩, ⟨.readLine, some answer⟩]

/-- The user answered `y` for the message of every package. -/
def ConfirmedBy (packages : List C.Package) (es : List World.Event) : Prop :=
  ∃ answers : List String, answers.length = packages.length ∧ (∀ answer ∈ answers, trim answer = "y") ∧
    es = confirmations packages answers

theorem confirmedBy_nil_iff : ConfirmedBy ([] : List C.Package) es ↔ es = [] := by
  constructor
  · rintro ⟨answers, -, -, rfl⟩
    rfl
  · rintro rfl
    exact ⟨[], rfl, fun _ h => absurd h List.not_mem_nil, rfl⟩

theorem confirmedBy_cons_iff {package : C.Package} {packages : List C.Package} :
    ConfirmedBy (package :: packages) es ↔ ∃ answer es', trim answer = "y" ∧
      es = [⟨.eprintln (question package.message), ()⟩, ⟨.readLine, some answer⟩] ++ es' ∧
      ConfirmedBy packages es' := by
  constructor
  · rintro ⟨answers, hlength, hyes, rfl⟩
    cases answers with
    | nil => cases hlength
    | cons answer answers =>
      have hrest := List.forall_mem_cons.mp hyes
      exact ⟨answer, _, hrest.1, rfl, answers, Nat.succ.inj hlength, hrest.2, rfl⟩
  · rintro ⟨answer, _, hanswer, rfl, answers, hlength, hyes, rfl⟩
    exact ⟨answer :: answers, congrArg Nat.succ hlength, List.forall_mem_cons.mpr ⟨hanswer, hyes⟩, rfl⟩

/-- The messages are confirmed exactly when the user answers `y` to every question. -/
theorem yields_confirmMessage_iff {config : SendSigningPackageArgs C} {s s' : σ} {u : Unit} :
    (confirmMessage config).Yields s es u s' ↔ ConfirmedBy config.signingPackage es ∧ s = s' := by
  unfold confirmMessage
  induction config.signingPackage generalizing es with
  | nil =>
    rw [Method.yields_foldM_nil_iff, confirmedBy_nil_iff]
    exact and_congr_right' ⟨And.right, fun h => ⟨rfl, h⟩⟩
  | cons package packages ih =>
    rw [Method.yields_foldM_cons_iff, confirmedBy_cons_iff]
    constructor
    · rintro ⟨_, s₁, es₁, es₂, rfl, hturn, hrest⟩
      obtain ⟨_, s₂, es₃, es₄, rfl, hquestion, hanswer⟩ := Method.yields_bind_iff.mp hturn
      obtain ⟨rfl, rfl⟩ := Method.yields_query_iff.mp hquestion
      obtain ⟨answer, s₃, es₅, es₆, rfl, hread, hcheck⟩ := Method.yields_bind_iff.mp hanswer
      obtain ⟨rfl, rfl⟩ := yields_readLine_iff.mp hread
      split_ifs at hcheck with hyes
      · exact absurd hcheck Method.not_yields_fail
      · obtain ⟨rfl, -, rfl⟩ := Method.yields_pure_iff.mp hcheck
        obtain ⟨hconfirmed, rfl⟩ := ih.mp hrest
        exact ⟨⟨answer, es₂, not_not.mp hyes, rfl, hconfirmed⟩, rfl⟩
    · rintro ⟨⟨answer, es', hyes, rfl, hconfirmed⟩, rfl⟩
      refine ⟨(), s, _, es', rfl, ?_, ih.mpr ⟨hconfirmed, rfl⟩⟩
      apply Method.Yields.bind (Method.yields_query_iff.mpr ⟨rfl, rfl⟩)
      apply Method.Yields.bind (yields_readLine_iff.mpr ⟨rfl, rfl⟩)
      rw [if_neg (not_not.mpr hyes)]
      exact .pure () s

theorem neverPanics_readLine : (readLine : Run σ String).NeverPanics :=
  Method.neverPanics_query.bind fun _ => Method.neverPanics_lift fun _ => Outcome.okOr_ne_panic _ _ _

theorem neverPanics_confirmMessage (config : SendSigningPackageArgs C) :
    (confirmMessage config : Run σ Unit).NeverPanics := by
  apply Method.neverPanics_foldM
  intro _ package
  apply Method.neverPanics_query.bind
  intro _
  apply neverPanics_readLine.bind
  intro answer
  split_ifs
  · exact Method.neverPanics_lift fun _ => Outcome.err_ne_panic _ _
  · exact Method.neverPanics_pure

def sends (es : List World.Event) : List SendArgs :=
  es.filterMap fun e => match e.query with
    | .http _ (.send args) => some args
    | _ => none

theorem sends_append (es es' : List World.Event) : sends (es ++ es') = sends es ++ sends es' :=
  List.filterMap_append

def Quiet : Query → Prop
  | .http _ (.send _) => False
  | _ => True

theorem sends_eq_nil (h : ∀ e ∈ es, Quiet e.query) : sends es = [] := by
  rw [sends, List.filterMap_eq_nil_iff]
  intro e he
  split
  · next heq =>
    have hquiet := h e he
    rw [heq] at hquiet
    exact absurd hquiet id
  · rfl

theorem onlyAsks_readLine : (readLine : Run σ String).OnlyAsks Quiet :=
  (Method.onlyAsks_query trivial).bind fun _ => Method.onlyAsks_lift

theorem onlyAsks_confirmMessage (config : SendSigningPackageArgs C) :
    (confirmMessage config : Run σ Unit).OnlyAsks Quiet := by
  apply Method.onlyAsks_foldM
  intro _ package
  refine (Method.onlyAsks_query trivial).bind fun _ => ?_
  refine onlyAsks_readLine.bind fun answer => ?_
  split_ifs
  · exact Method.onlyAsks_lift
  · exact Method.onlyAsks_pure

theorem onlyAsks_login (lib : HttpLibrary C) (accessToken : Option Uuid)
    (commPrivkey commPubkey : Option PublicKey) :
    (login lib accessToken commPrivkey commPubkey : Run σ Uuid).OnlyAsks Quiet := by
  refine (onlyAsks_request trivial).bind fun _ => ?_
  refine Method.onlyAsks_lift.bind fun _ => Method.onlyAsks_lift.bind fun _ => ?_
  exact Method.onlyAsks_lift.bind fun _ => onlyAsks_request trivial

theorem neverPanics_okOr {α : Type} (e : Failure) (o : Option α) :
    (Method.lift (.okOr e o) : Run σ α).NeverPanics :=
  Method.neverPanics_lift fun _ => Outcome.okOr_ne_panic e o _

theorem neverPanics_fail {α : Type} (e : Failure) : (Method.fail e : Run σ α).NeverPanics :=
  Method.neverPanics_lift fun _ => Outcome.err_ne_panic e _

theorem neverPanics_login (lib : HttpLibrary C) (accessToken : Option Uuid)
    (commPrivkey commPubkey : Option PublicKey) :
    (login lib accessToken commPrivkey commPubkey : Run σ Uuid).NeverPanics := by
  refine neverPanics_request.bind fun _ => ?_
  refine (neverPanics_okOr _ _).bind fun _ => (neverPanics_okOr _ _).bind fun _ => ?_
  exact (neverPanics_okOr _ _).bind fun _ => neverPanics_request

namespace Http

theorem encrypt_ne_panic {cipher : Cipher S} {coordinator : PublicKey}
    (h : cipher.ForOne coordinator) (payload : Bytes) (message : String) :
    encrypt cipher none payload ≠ .panic message := by
  intro hpanic
  have hmap := Outcome.panic_of_bind_eq_panic hpanic fun _ => Outcome.ok_ne_panic _ _
  exact h.encrypt_ne_panic payload message (Outcome.mapErr_eq_panic_iff.mp hmap)

end Http

namespace Http.Participant

variable {lib : HttpLibrary C}

theorem onlyAsks_findSession (sessionId accessToken : Option Uuid) :
    (findSession sessionId accessToken : Run (HTTPComms S) Uuid).OnlyAsks Quiet := by
  unfold findSession
  split
  · exact Method.onlyAsks_pure
  · refine (onlyAsks_request trivial).bind fun ids => ?_
    split
    · exact Method.onlyAsks_lift
    · exact Method.onlyAsks_pure
    · exact Method.onlyAsks_lift

theorem neverPanics_findSession (sessionId accessToken : Option Uuid) :
    (findSession sessionId accessToken : Run (HTTPComms S) Uuid).NeverPanics := by
  unfold findSession
  split
  · exact Method.neverPanics_pure
  · refine neverPanics_request.bind fun ids => ?_
    split
    · exact neverPanics_fail _
    · exact Method.neverPanics_pure
    · exact neverPanics_fail _

theorem onlyAsks_getMessageCount :
    (getMessageCount lib : Run (HTTPComms S) UInt8).OnlyAsks Quiet := by
  refine Method.onlyAsks_read.bind fun comms => ?_
  refine (onlyAsks_login lib _ _ _).bind fun token => Method.onlyAsks_modify.bind fun _ => ?_
  refine (onlyAsks_findSession _ _).bind fun sessionId => Method.onlyAsks_modify.bind fun _ => ?_
  split
  · refine (onlyAsks_request trivial).bind fun info => Method.onlyAsks_lift.bind fun _ => ?_
    refine Method.onlyAsks_lift.bind fun cipher => Method.onlyAsks_modify.bind fun _ => ?_
    exact Method.onlyAsks_pure
  · exact Method.onlyAsks_lift

theorem neverPanics_getMessageCount :
    (getMessageCount lib : Run (HTTPComms S) UInt8).NeverPanics := by
  refine Method.neverPanics_read.bind fun comms => ?_
  refine (neverPanics_login lib _ _ _).bind fun token => Method.neverPanics_modify.bind fun _ => ?_
  refine (neverPanics_findSession _ _).bind fun id => Method.neverPanics_modify.bind fun _ => ?_
  split
  · refine neverPanics_request.bind fun info => (neverPanics_okOr _ _).bind fun _ => ?_
    refine (neverPanics_okOr _ _).bind fun cipher => Method.neverPanics_modify.bind fun _ => ?_
    exact Method.neverPanics_pure
  · exact neverPanics_fail _

/-- A message to the coordinator, encrypted by the cipher of a participant. -/
def Carries (s : HTTPComms S) (payload : Bytes) (sent : SendArgs) : Prop :=
  sent.recipients = [] ∧ ∃ cipher cipher', s.cipher = some cipher ∧
    encrypt cipher none payload = .ok (sent.msg, cipher')

variable {s s' : HTTPComms S} {accessToken : Option Uuid} {sessionId : Uuid} {cipher : Cipher S}
  {payload : Bytes} {q : Query}

theorem asks_sendToCoordinator
    (h : (sendToCoordinator accessToken sessionId cipher payload).Asks s es q) :
    es = [] ∧ ∃ x cipher', encrypt cipher none payload = .ok (x, cipher') ∧
      q = .http accessToken (.send ⟨sessionId, [], x⟩) := by
  cases hencrypt : encrypt cipher none payload with
  | panic message =>
    rw [sendToCoordinator, hencrypt] at h
    exact absurd h Method.not_asks_lift
  | err e =>
    rw [sendToCoordinator, hencrypt] at h
    exact absurd h Method.not_asks_lift
  | ok r =>
    obtain ⟨x, cipher'⟩ := r
    rw [sendToCoordinator, hencrypt, Method.lift_ok_bind] at h
    rcases Method.asks_bind_iff.mp (Method.asks_modify_bind_iff.mp h) with
      hrequest | ⟨_, _, _, _, -, -, hpure⟩
    · obtain ⟨rfl, rfl⟩ := asks_request_iff.mp hrequest
      exact ⟨rfl, x, cipher', rfl, rfl⟩
    · exact absurd hpure Method.not_asks_pure

theorem ends_sendToCoordinator {o : Outcome Failure (Cipher S)} {coordinator : PublicKey}
    (hcipher : cipher.ForOne coordinator)
    (h : (sendToCoordinator accessToken sessionId cipher payload).Ends s es o s') :
    (es = [] ∧ ∃ e, o = .err e) ∨
    ∃ x cipher' answer, encrypt cipher none payload = .ok (x, cipher') ∧
      es = [⟨.http accessToken (.send ⟨sessionId, [], x⟩), answer⟩] ∧
      ((o = .ok cipher' ∧ s' = { s with cipher := some cipher' }) ∨ ∃ e, o = .err e) := by
  cases hencrypt : encrypt cipher none payload with
  | panic message => exact absurd hencrypt (encrypt_ne_panic hcipher payload message)
  | err e =>
    rw [sendToCoordinator, hencrypt] at h
    obtain ⟨rfl, rfl, -⟩ := Method.ends_lift_iff.mp h
    exact .inl ⟨rfl, e, rfl⟩
  | ok r =>
    obtain ⟨x, cipher'⟩ := r
    rw [sendToCoordinator, hencrypt, Method.lift_ok_bind] at h
    obtain ⟨answer, es', rfl, ⟨_, rfl, hpure⟩ | ⟨e, rfl, rfl, rfl, rfl⟩⟩ :=
      ends_request_bind_iff.mp (Method.ends_modify_bind_iff.mp h)
    · obtain ⟨rfl, rfl, rfl⟩ := Method.ends_pure_iff.mp hpure
      exact .inr ⟨_, _, _, rfl, rfl, .inl ⟨rfl, rfl⟩⟩
    · exact .inr ⟨_, _, _, rfl, rfl, .inr ⟨_, rfl⟩⟩

structure Joined (s : HTTPComms S) (sessionId : Uuid) (cipher : Cipher S) (coordinator : PublicKey) :
    Prop where
  hasSession : s.sessionId = some sessionId
  hasCipher : s.cipher = some cipher
  forOne : cipher.ForOne coordinator

variable {coordinator : PublicKey} {commitments : List C.SigningCommitments}
  {shares : List C.SignatureShare}

theorem Joined.getSigningPackage_eq (h : Joined s sessionId cipher coordinator)
    (commitments : List C.SigningCommitments) :
    getSigningPackage lib commitments s = (do
      let cipher ← sendToCoordinator s.accessToken sessionId cipher (lib.commitmentsToVec commitments)
      Method.poll (F := World) cipher (.http s.accessToken (.receive ⟨sessionId, false⟩)) (turn lib) :
        Run (HTTPComms S) (SendSigningPackageArgs C)) s := by
  change ((do
    let cipher ← Method.lift (expect "was previously set" s.cipher)
    let sessionId ← Method.lift (expect "was previously set" s.sessionId)
    let cipher ← sendToCoordinator s.accessToken sessionId cipher (lib.commitmentsToVec commitments)
    Method.poll (F := World) cipher (.http s.accessToken (.receive ⟨sessionId, false⟩)) (turn lib) :
      Run (HTTPComms S) (SendSigningPackageArgs C)) s) = _
  rw [h.hasCipher, h.hasSession]
  rfl

theorem Joined.asks_getSigningPackage (h : Joined s sessionId cipher coordinator)
    (hasks : (getSigningPackage lib commitments).Asks s es q) :
    (es = [] ∧ ∃ token sent, q = .http token (.send sent) ∧
      Carries s (lib.commitmentsToVec commitments) sent) ∨ Quiet q := by
  rw [Method.Asks, h.getSigningPackage_eq] at hasks
  rcases Method.asks_bind_iff.mp hasks with hsend | ⟨_, s₁, _, es₂, -, -, hpoll⟩
  · obtain ⟨rfl, x, cipher', hencrypt, rfl⟩ := asks_sendToCoordinator hsend
    exact .inl ⟨rfl, _, _, rfl, rfl, cipher, cipher', h.hasCipher, hencrypt⟩
  · exact .inr (Method.onlyAsks_poll (P := Quiet) trivial s₁ es₂ q hpoll)

theorem turn_ne_panic {t : Cipher S × HTTPComms S} {answer : Except ClientError (List Msg)}
    {o : Outcome Failure (SendSigningPackageArgs C)}
    (hlive : ∀ sender noise, t.1.recvNoiseMap.lookup sender = some noise → noise.Live)
    (h : turn lib t answer = .inr (o, s')) (message : String) : o ≠ .panic message := by
  match answer with
  | .error e =>
    obtain ⟨rfl, -⟩ := Prod.mk.inj (Sum.inr.inj h)
    exact Outcome.err_ne_panic _ message
  | .ok [] => cases h
  | .ok (msg :: msgs) =>
    obtain ⟨rfl, -⟩ := Prod.mk.inj (Sum.inr.inj h)
    intro hpanic
    have hdecrypt := Outcome.panic_of_bind_eq_panic hpanic fun _ => Outcome.okOr_ne_panic _ _ _
    exact Cipher.decrypt_ne_panic hlive msg message (Outcome.mapErr_eq_panic_iff.mp hdecrypt)

theorem turn_inl {t t' : Cipher S × HTTPComms S} {answer : Except ClientError (List Msg)}
    (h : turn lib t answer = .inl t') : t' = t := by
  match answer with
  | .error e => cases h
  | .ok [] => exact (Sum.inl.inj h).symm
  | .ok (msg :: msgs) => cases h

theorem Joined.sends_getSigningPackage_le {o : Outcome Failure (SendSigningPackageArgs C)}
    (h : Joined s sessionId cipher coordinator)
    (hends : (getSigningPackage lib commitments).Ends s es o s') : (sends es).length ≤ 1 := by
  rw [Method.Ends, h.getSigningPackage_eq] at hends
  have hsends : ∀ {o s₁ es₁}, (sendToCoordinator s.accessToken sessionId cipher
      (lib.commitmentsToVec commitments)).Ends s es₁ o s₁ → (sends es₁).length ≤ 1 := by
    intro o s₁ es₁ hsend
    rcases ends_sendToCoordinator h.forOne hsend with ⟨rfl, -⟩ | ⟨_, _, _, -, rfl, -⟩
    · exact Nat.zero_le 1
    · exact Nat.le_refl 1
  rcases Method.ends_bind_iff.mp hends with ⟨_, _, es₁, es₂, rfl, hsend, hpoll⟩ | ⟨_, hsend, -⟩ |
    ⟨_, hsend, -⟩
  · have hquiet : sends es₂ = [] :=
      sends_eq_nil ((Method.onlyAsks_poll (P := Quiet) trivial).forall_query hpoll)
    rw [sends_append, hquiet, List.append_nil]
    exact hsends hsend
  · exact hsends hsend
  · exact hsends hsend

theorem Joined.getSigningPackage_ne_panic {o : Outcome Failure (SendSigningPackageArgs C)}
    (h : Joined s sessionId cipher coordinator)
    (hlive : ∀ sender noise, cipher.recvNoiseMap.lookup sender = some noise → noise.Live)
    (hends : (getSigningPackage lib commitments).Ends s es o s') (message : String) :
    o ≠ .panic message := by
  rw [Method.Ends, h.getSigningPackage_eq] at hends
  rcases Method.ends_bind_iff.mp hends with ⟨cipher₁, s₁, es₁, es₂, -, hsend, hpoll⟩ |
    ⟨e, -, rfl⟩ | ⟨text, hsend, -⟩
  · rcases ends_sendToCoordinator h.forOne hsend with ⟨-, e, heq⟩ | ⟨x, cipher', _, hencrypt, -,
      ⟨heq, -⟩ | ⟨e, heq⟩⟩
    · cases heq
    · obtain rfl := Outcome.ok.inj heq
      obtain ⟨recipient, -, hencrypt⟩ := encrypt_none_eq_ok_iff.mp hencrypt
      have hrecv : (cipher.encrypt recipient (lib.commitmentsToVec commitments)).2.recvNoiseMap =
          cipher.recvNoiseMap := Cipher.encrypt_recvNoiseMap recipient _
      rw [hencrypt] at hrecv
      obtain ⟨t, answer, rfl, hturn⟩ := Method.Ends.leaves hpoll
        (I := fun t => t = (cipher₁, s₁)) rfl fun t answer t' ht hturn => (turn_inl hturn).trans ht
      refine turn_ne_panic (fun sender noise hnoise => hlive sender noise ?_) hturn message
      rwa [← hrecv]
    · cases heq
  · exact Outcome.err_ne_panic e message
  · rcases ends_sendToCoordinator h.forOne hsend with ⟨-, _, heq⟩ | ⟨_, _, _, -, -, ⟨heq, -⟩ | ⟨_, heq⟩⟩
    · cases heq
    · cases heq
    · cases heq

/-- The packages are received after the commitments were sent, and the cipher is ready for the
shares. -/
theorem Joined.yields_getSigningPackage {config : SendSigningPackageArgs C}
    (h : Joined s sessionId cipher coordinator)
    (hyields : (getSigningPackage lib commitments).Yields s es config s') :
    (sends es).length = 1 ∧ ∃ cipher', Joined s' sessionId cipher' coordinator := by
  obtain ⟨_, cipher₁, _, _, x, _, msg, _, plain, hsame, hencrypt, -, hdecrypt, -, rfl⟩ :=
    Participant.yields_getSigningPackage hyields
  obtain rfl := Option.some.inj (hsame.symm.trans h.hasCipher)
  refine ⟨?_, _, h.hasSession, rfl, ?_⟩
  · rw [Method.Yields, h.getSigningPackage_eq] at hyields
    obtain ⟨_, s₁, es₁, es₂, rfl, hsend, hpoll⟩ := Method.yields_bind_iff.mp hyields
    have hquiet : sends es₂ = [] :=
      sends_eq_nil ((Method.onlyAsks_poll (P := Quiet) trivial).forall_query hpoll)
    rw [sends_append, hquiet, List.append_nil]
    rcases ends_sendToCoordinator h.forOne hsend with ⟨-, _, heq⟩ | ⟨_, _, _, -, rfl, -⟩
    · cases heq
    · rfl
  · have hforOne := (h.forOne.encrypt hencrypt).decrypt msg
    rwa [hdecrypt] at hforOne

theorem Joined.sendSignatureShare_eq (h : Joined s sessionId cipher coordinator)
    (shares : List C.SignatureShare) : sendSignatureShare lib shares s = (do
      let _ ← sendToCoordinator s.accessToken sessionId cipher (lib.sharesToVec shares)
      request s.accessToken .logout
      Method.modify fun comms => { comms with accessToken := none } : Run (HTTPComms S) Unit) s := by
  change ((do
    let cipher ← Method.lift (expect "was just set" s.cipher)
    let sessionId ← Method.lift (unwrapSessionId s.sessionId)
    let _ ← sendToCoordinator s.accessToken sessionId cipher (lib.sharesToVec shares)
    request s.accessToken .logout
    Method.modify fun comms => { comms with accessToken := none } : Run (HTTPComms S) Unit) s) = _
  rw [h.hasCipher, h.hasSession]
  rfl

theorem onlyAsks_logout (accessToken : Option Uuid) : (do
      request accessToken .logout
      Method.modify fun comms => { comms with accessToken := none } :
        Run (HTTPComms S) Unit).OnlyAsks Quiet :=
  (onlyAsks_request trivial).bind fun _ => Method.onlyAsks_modify

theorem Joined.asks_sendSignatureShare (h : Joined s sessionId cipher coordinator)
    (hasks : (sendSignatureShare lib shares).Asks s es q) :
    (es = [] ∧ ∃ token sent, q = .http token (.send sent) ∧ Carries s (lib.sharesToVec shares) sent) ∨
      Quiet q := by
  rw [Method.Asks, h.sendSignatureShare_eq] at hasks
  rcases Method.asks_bind_iff.mp hasks with hsend | ⟨_, s₁, _, es₂, -, -, hlogout⟩
  · obtain ⟨rfl, x, cipher', hencrypt, rfl⟩ := asks_sendToCoordinator hsend
    exact .inl ⟨rfl, _, _, rfl, rfl, cipher, cipher', h.hasCipher, hencrypt⟩
  · exact .inr (onlyAsks_logout s.accessToken s₁ es₂ q hlogout)

theorem Joined.ends_sendSignatureShare {o : Outcome Failure Unit}
    (h : Joined s sessionId cipher coordinator)
    (hends : (sendSignatureShare lib shares).Ends s es o s') :
    (es = [] ∧ ∃ e, o = .err e) ∨ ∃ token sent answer post,
      es = ⟨.http token (.send sent), answer⟩ :: post ∧ Carries s (lib.sharesToVec shares) sent ∧
      sends post = [] := by
  rw [Method.Ends, h.sendSignatureShare_eq] at hends
  rcases Method.ends_bind_iff.mp hends with ⟨_, s₁, es₁, post, rfl, hsend, hlogout⟩ | ⟨e, hsend, rfl⟩ |
    ⟨_, hsend, -⟩
  · rcases ends_sendToCoordinator h.forOne hsend with ⟨-, _, heq⟩ | ⟨x, cipher', answer, hencrypt, rfl, -⟩
    · cases heq
    · exact .inr ⟨_, _, answer, post, rfl, ⟨rfl, cipher, cipher', h.hasCipher, hencrypt⟩,
        sends_eq_nil ((onlyAsks_logout s.accessToken).forall_query hlogout)⟩
  · rcases ends_sendToCoordinator h.forOne hsend with ⟨rfl, -⟩ | ⟨x, cipher', answer, hencrypt, rfl, -⟩
    · exact .inl ⟨rfl, e, rfl⟩
    · exact .inr ⟨_, _, answer, [], rfl, ⟨rfl, cipher, cipher', h.hasCipher, hencrypt⟩, rfl⟩
  · rcases ends_sendToCoordinator h.forOne hsend with ⟨-, _, heq⟩ | ⟨_, _, _, -, -, ⟨heq, -⟩ | ⟨_, heq⟩⟩
    · cases heq
    · cases heq
    · cases heq

end Http.Participant

section Shares

variable {config : SendSigningPackageArgs C} {nonces : List C.SigningNonces}
  {keyPackage : C.KeyPackage} {shares : List C.SignatureShare}

theorem length_signCalls (hnonces : nonces.length = config.signingPackage.length)
    (hrandomizers : config.randomizer = [] ∨ config.randomizer.length = config.signingPackage.length) :
    (signCalls config nonces).length = config.signingPackage.length := by
  unfold signCalls
  split_ifs with hnil
  · rw [List.length_map, List.length_zip, hnonces, Nat.min_self]
  · rw [List.length_map, List.length_zip, List.length_zip, hnonces,
      hrandomizers.resolve_left hnil, Nat.min_self, Nat.min_self]

theorem map_signingNonces (hnonces : nonces.length = config.signingPackage.length)
    (hrandomizers : config.randomizer = [] ∨ config.randomizer.length = config.signingPackage.length) :
    (signCalls config nonces).map SignCall.signingNonces = nonces := by
  have hlength := length_signCalls hnonces hrandomizers
  apply List.ext_getElem?
  intro i
  rw [List.getElem?_map]
  cases hcall : (signCalls config nonces)[i]? with
  | some call => exact (getElem?_signCalls hcall).2.1.symm
  | none =>
    rw [List.getElem?_eq_none_iff, hlength, ← hnonces] at hcall
    exact (List.getElem?_eq_none hcall).symm

theorem getElem?_of_mapM {α β : Type*} {f : α → Option β} {l : List α} {l' : List β}
    (h : l.mapM f = some l') {i : ℕ} {a : α} (ha : l[i]? = some a) :
    ∃ b, l'[i]? = some b ∧ f a = some b := by
  induction l generalizing l' i with
  | nil => cases ha
  | cons a' l ih =>
    rw [List.mapM_cons] at h
    obtain ⟨b, hb, h⟩ := Option.bind_eq_some_iff.mp h
    obtain ⟨bs, hbs, h⟩ := Option.bind_eq_some_iff.mp h
    obtain rfl := Option.some.inj h
    cases i with
    | zero =>
      obtain rfl := Option.some.inj ha
      exact ⟨b, rfl, hb⟩
    | succ i => exact ih hbs ha

theorem generateSignature_eq_ok_iff : generateSignature config keyPackage nonces = .ok shares ↔
    nonces.length = config.signingPackage.length ∧
    (config.randomizer = [] ∨ config.randomizer.length = config.signingPackage.length) ∧
    (signCalls config nonces).mapM (fun call =>
      C.signWith call.randomizer call.signingPackage call.signingNonces keyPackage) = some shares := by
  unfold generateSignature
  rw [Outcome.ite_err_eq_ok_iff, Outcome.ite_err_eq_ok_iff, Outcome.okOr_eq_ok_iff, not_not, not_and_or,
    not_not, not_not]

theorem generateSignature_ne_panic (message : String) :
    generateSignature config keyPackage nonces ≠ .panic message := by
  unfold generateSignature
  split_ifs
  · exact Outcome.err_ne_panic _ message
  · exact Outcome.err_ne_panic _ message
  · exact Outcome.okOr_ne_panic _ _ message

end Shares

def generatedNonces (commit : Draws C) (messageCount : UInt8) : List C.SigningNonces :=
  (List.range messageCount.toNat).map fun i => (commit i).1

def generatedCommitments (commit : Draws C) (messageCount : UInt8) : List C.SigningCommitments :=
  (List.range messageCount.toNat).map fun i => (commit i).2

theorem receiveConfig_eq (comms : Participant.Comms C σ) (pargs : Participant.ProcessedArgs C)
    (commit : Draws C) : Participant.receiveConfig comms pargs commit = (do
      let messageCount ← comms.getMessageCount
      let rerandomized ← Method.lift (rerandomized C)
      let config ← comms.getSigningPackage (generatedCommitments commit messageCount)
        (C.identifier pargs.keyPackage) rerandomized
      pure (config, generatedNonces commit messageCount)) := by
  simp only [Participant.receiveConfig, List.map_map]
  rfl

theorem rerandomized_ne_panic (h : C.id ≠ .other) (message : String) :
    rerandomized C ≠ .panic message := by
  unfold rerandomized
  split
  · exact Outcome.ok_ne_panic _ message
  · exact Outcome.ok_ne_panic _ message
  · next hid => exact absurd hid h

namespace Http.Participant

variable {lib : HttpLibrary C} {sessionId : Option Uuid} {args : Args}
  {pargs : Participant.ProcessedArgs C} {commit : Draws C} {s s' : HTTPComms S} {q : Query}

structure SendsCommitments (lib : HttpLibrary C) (start : HTTPComms S) (commit : Draws C)
    (es : List World.Event) (sent : SendArgs) : Prop where
  first : sends es = []
  commitments : ∃ messageCount s, (getMessageCount lib).Yields start es messageCount s ∧
    Carries s (lib.commitmentsToVec (generatedCommitments commit messageCount)) sent

/-- The shares for the packages of `config`, all of which the user confirmed. -/
structure SignsConfirmed (lib : HttpLibrary C) (start : HTTPComms S)
    (pargs : Participant.ProcessedArgs C) (commit : Draws C) (es : List World.Event)
    (messageCount : UInt8) (config : SendSigningPackageArgs C) (s' : HTTPComms S)
    (shares : List C.SignatureShare) : Prop where
  confirmed : ∃ es₀ es₁ es₂ s, es = es₀ ++ es₁ ++ es₂ ∧
    (getMessageCount lib).Yields start es₀ messageCount s ∧
    (getSigningPackage lib (generatedCommitments commit messageCount)).Yields s es₁ config s' ∧
    ConfirmedBy config.signingPackage es₂
  length_signingPackage : config.signingPackage.length = messageCount.toNat
  length_randomizer : config.randomizer.length = 0 ∨
    config.randomizer.length = messageCount.toNat
  length_shares : shares.length = messageCount.toNat
  share : ∀ i < messageCount.toNat, ∃ package share, config.signingPackage[i]? = some package ∧
    shares[i]? = some share ∧
    C.signWith config.randomizer[i]? package (commit i).1 pargs.keyPackage = some share
  /-- Every nonce is used in one call of `sign`. -/
  nonces : (signCalls config (generatedNonces commit messageCount)).map SignCall.signingNonces =
    generatedNonces commit messageCount

structure SendsShares (lib : HttpLibrary C) (start : HTTPComms S)
    (pargs : Participant.ProcessedArgs C) (commit : Draws C) (es : List World.Event)
    (sent : SendArgs) : Prop where
  second : (sends es).length = 1
  shares : ∃ messageCount config s shares,
    SignsConfirmed lib start pargs commit es messageCount config s shares ∧
    Carries s (lib.sharesToVec shares) sent

theorem joined_of_getMessageCount {messageCount : UInt8}
    (h : (getMessageCount lib).Yields s es messageCount s') :
    ∃ sessionId cipher coordinator, Joined s' sessionId cipher coordinator ∧
      ∀ sender noise, cipher.recvNoiseMap.lookup sender = some noise → noise.Live := by
  obtain ⟨privkey, getter, token, id, info, coordinator, cipher, -, -, -, -, hcipher, rfl⟩ :=
    yields_getMessageCount h
  exact ⟨id, cipher, coordinator, ⟨rfl, rfl, Cipher.forOne_new hcipher⟩, Cipher.live_of_new hcipher⟩

theorem sends_of_getMessageCount {messageCount : UInt8}
    (h : (getMessageCount lib).Yields s es messageCount s') : sends es = [] :=
  sends_eq_nil (onlyAsks_getMessageCount.forall_query h)

theorem sends_of_confirmedBy {packages : List C.Package} (h : ConfirmedBy packages es) :
    sends es = [] := by
  obtain ⟨answers, -, -, rfl⟩ := h
  apply sends_eq_nil
  intro e he
  obtain ⟨⟨package, answer⟩, -, he⟩ := List.mem_flatMap.mp he
  rcases List.mem_cons.mp he with rfl | he
  · exact trivial
  · rw [List.mem_singleton.mp he]
    exact trivial

theorem yields_receiveConfig_eq {config : SendSigningPackageArgs C} {nonces : List C.SigningNonces}
    (h : (Participant.receiveConfig (comms lib) pargs commit).Yields s es (config, nonces) s') :
    ∃ messageCount s₁ es₁ es₂, es = es₁ ++ es₂ ∧
      (getMessageCount lib).Yields s es₁ messageCount s₁ ∧
      (getSigningPackage lib (generatedCommitments commit messageCount)).Yields s₁ es₂ config s' ∧
      nonces = generatedNonces commit messageCount := by
  rw [receiveConfig_eq] at h
  obtain ⟨messageCount, s₁, es₁, es₂, rfl, hcount, hrest⟩ := Method.yields_bind_iff.mp h
  obtain ⟨expected, s₂, es₃, es₄, rfl, hlift, hrest'⟩ := Method.yields_bind_iff.mp hrest
  obtain ⟨rfl, -, rfl⟩ := Method.yields_lift_iff.mp hlift
  obtain ⟨config', s₃, es₅, es₆, rfl, hconfig, hpure⟩ := Method.yields_bind_iff.mp hrest'
  obtain ⟨rfl, heq, rfl⟩ := Method.yields_pure_iff.mp hpure
  obtain ⟨rfl, rfl⟩ := Prod.mk.inj heq
  exact ⟨messageCount, s₁, es₁, es₅, by rw [List.nil_append, List.append_nil], hcount, hconfig, rfl⟩

/-- Before the user is asked, only the commitments are sent. -/
theorem asks_receiveConfig
    (h : (Participant.receiveConfig (comms lib) pargs commit).Asks s es q) :
    Quiet q ∨ ∃ token sent, q = .http token (.send sent) ∧ SendsCommitments lib s commit es sent := by
  rw [receiveConfig_eq] at h
  rcases Method.asks_bind_iff.mp h with hcount | ⟨messageCount, s₁, es₁, es₂, rfl, hcount, hrest⟩
  · exact .inl (onlyAsks_getMessageCount _ _ _ hcount)
  rcases Method.asks_bind_iff.mp hrest with hlift | ⟨expected, s₂, es₃, es₄, rfl, hlift, hrest'⟩
  · exact absurd hlift Method.not_asks_lift
  obtain ⟨rfl, -, rfl⟩ := Method.yields_lift_iff.mp hlift
  rcases Method.asks_bind_iff.mp hrest' with hconfig | ⟨_, _, _, _, -, -, hpure⟩
  · obtain ⟨id, cipher, coordinator, hjoined, -⟩ := joined_of_getMessageCount hcount
    rcases hjoined.asks_getSigningPackage hconfig with ⟨rfl, token, sent, rfl, hcarries⟩ | hquiet
    · rw [List.append_nil, List.append_nil]
      exact .inr ⟨token, sent, rfl, sends_of_getMessageCount hcount, messageCount, s₁, hcount, hcarries⟩
    · exact .inl hquiet
  · exact absurd hpure Method.not_asks_pure

theorem ends_receiveConfig {o : Outcome Failure (SendSigningPackageArgs C × List C.SigningNonces)}
    (h : (Participant.receiveConfig (comms lib) pargs commit).Ends s es o s') :
    (sends es).length ≤ 1 ∧ (C.id ≠ .other → ∀ message, o ≠ .panic message) := by
  rw [receiveConfig_eq] at h
  rcases Method.ends_bind_iff.mp h with ⟨messageCount, s₁, es₁, es₂, rfl, hcount, hrest⟩ |
    ⟨e, hcount, rfl⟩ | ⟨message, hcount, -⟩
  · rw [sends_append, sends_of_getMessageCount hcount, List.nil_append]
    obtain ⟨id, cipher, coordinator, hjoined, hlive⟩ := joined_of_getMessageCount hcount
    cases hexpected : rerandomized C with
    | panic message =>
      rw [hexpected] at hrest
      obtain ⟨rfl, -, -⟩ := Method.ends_lift_iff.mp hrest
      exact ⟨Nat.zero_le 1, fun hid => absurd hexpected (rerandomized_ne_panic hid message)⟩
    | err e =>
      rw [hexpected] at hrest
      obtain ⟨rfl, rfl, -⟩ := Method.ends_lift_iff.mp hrest
      exact ⟨Nat.zero_le 1, fun _ => Outcome.err_ne_panic e⟩
    | ok expected =>
      rw [hexpected, Method.lift_ok_bind] at hrest
      rcases Method.ends_bind_iff.mp hrest with ⟨config, s₂, es₃, es₄, rfl, hconfig, hpure⟩ |
        ⟨e, hconfig, rfl⟩ | ⟨message, hconfig, -⟩
      · obtain ⟨rfl, rfl, -⟩ := Method.ends_pure_iff.mp hpure
        rw [List.append_nil]
        exact ⟨hjoined.sends_getSigningPackage_le hconfig, fun _ => Outcome.ok_ne_panic _⟩
      · exact ⟨hjoined.sends_getSigningPackage_le hconfig, fun _ => Outcome.err_ne_panic e⟩
      · exact absurd rfl (hjoined.getSigningPackage_ne_panic hlive hconfig message)
  · rw [sends_eq_nil (onlyAsks_getMessageCount.forall_query hcount)]
    exact ⟨Nat.zero_le 1, fun _ => Outcome.err_ne_panic e⟩
  · exact absurd hcount (neverPanics_getMessageCount s es message s')

theorem signsConfirmed {messageCount : UInt8} {config : SendSigningPackageArgs C}
    {shares : List C.SignatureShare} {s₁ : HTTPComms S} {es₁ es₂ es₃ : List World.Event}
    (hcount : (getMessageCount lib).Yields s es₁ messageCount s₁)
    (hconfig : (getSigningPackage lib (generatedCommitments commit messageCount)).Yields s₁ es₂ config
      s')
    (hconfirmed : ConfirmedBy config.signingPackage es₃)
    (hshares : generateSignature config pargs.keyPackage (generatedNonces commit messageCount) =
      .ok shares) :
    SignsConfirmed lib s pargs commit (es₁ ++ es₂ ++ es₃) messageCount config s' shares := by
  obtain ⟨hnonces, hrandomizers, hmap⟩ := generateSignature_eq_ok_iff.mp hshares
  have hlength : config.signingPackage.length = messageCount.toNat := by
    rw [← hnonces, generatedNonces, List.length_map, List.length_range]
  have hcalls := length_signCalls hnonces hrandomizers
  exact {
    confirmed := ⟨es₁, es₂, es₃, s₁, rfl, hcount, hconfig, hconfirmed⟩
    length_signingPackage := hlength
    length_randomizer := by
      rw [List.length_eq_zero_iff, ← hlength]
      exact hrandomizers
    length_shares := by
      rw [Session.CoordinatorSessionState.length_of_mapM_eq_some hmap, hcalls, hlength]
    share := by
      intro i hi
      have hbound : i < (signCalls config (generatedNonces commit messageCount)).length := by omega
      obtain ⟨call, hcall⟩ : ∃ call, (signCalls config (generatedNonces commit messageCount))[i]? =
        some call := ⟨_, List.getElem?_eq_getElem hbound⟩
      obtain ⟨hpackage, hnonce, hrandomizer⟩ := getElem?_signCalls hcall
      obtain ⟨share, hshare, hsign⟩ := getElem?_of_mapM hmap hcall
      rw [generatedNonces, List.getElem?_map, List.getElem?_range hi, Option.map_some,
        Option.some.injEq] at hnonce
      rw [hrandomizer, ← hnonce] at hsign
      exact ⟨call.signingPackage, share, hpackage, hshare, hsign⟩
    nonces := map_signingNonces hnonces hrandomizers }

theorem joined_of_receiveConfig {config : SendSigningPackageArgs C} {nonces : List C.SigningNonces}
    (h : (Participant.receiveConfig (comms lib) pargs commit).Yields s es (config, nonces) s') :
    (sends es).length = 1 ∧ ∃ sessionId cipher coordinator, Joined s' sessionId cipher coordinator := by
  obtain ⟨messageCount, s₁, es₁, es₂, rfl, hcount, hpackages, -⟩ := yields_receiveConfig_eq h
  obtain ⟨id, cipher, coordinator, hjoined, -⟩ := joined_of_getMessageCount hcount
  obtain ⟨hone, cipher', hjoined'⟩ := hjoined.yields_getSigningPackage hpackages
  rw [sends_append, sends_of_getMessageCount hcount]
  exact ⟨hone, id, cipher', coordinator, hjoined'⟩

theorem sendsShares {config : SendSigningPackageArgs C} {nonces : List C.SigningNonces}
    {shares : List C.SignatureShare} {sent : SendArgs} {es₁ es₂ : List World.Event}
    (hconfig : (Participant.receiveConfig (comms lib) pargs commit).Yields s es₁ (config, nonces) s')
    (hconfirmed : ConfirmedBy config.signingPackage es₂)
    (hshares : generateSignature config pargs.keyPackage nonces = .ok shares)
    (hcarries : Carries s' (lib.sharesToVec shares) sent) :
    SendsShares lib s pargs commit (es₁ ++ es₂) sent := by
  refine ⟨?_, ?_⟩
  · rw [sends_append, sends_of_confirmedBy hconfirmed, List.append_nil]
    exact (joined_of_receiveConfig hconfig).1
  · obtain ⟨messageCount, s₁, es₃, es₄, rfl, hcount, hpackages, rfl⟩ := yields_receiveConfig_eq hconfig
    exact ⟨messageCount, config, s', shares, signsConfirmed hcount hpackages hconfirmed hshares, hcarries⟩

/-- A participant sends nothing but the commitments and shares for what its user confirmed. -/
theorem asks_participant {token : Option Uuid} {sent : SendArgs}
    (h : (Participant.participant (comms lib) pargs commit).Asks s es (.http token (.send sent))) :
    SendsCommitments lib s commit es sent ∨ SendsShares lib s pargs commit es sent := by
  rcases Method.asks_bind_iff.mp h with hconfig | ⟨⟨config, nonces⟩, s₁, es₁, es₂, rfl, hconfig, hrest⟩
  · rcases asks_receiveConfig hconfig with hquiet | ⟨token', sent', heq, hsends⟩
    · exact absurd hquiet id
    · cases heq
      exact .inl hsends
  rcases Method.asks_bind_iff.mp hrest with hconfirm | ⟨_, s₂, es₃, es₄, rfl, hconfirm, hrest'⟩
  · exact absurd (onlyAsks_confirmMessage config _ _ _ hconfirm) id
  obtain ⟨hconfirmed, rfl⟩ := yields_confirmMessage_iff.mp hconfirm
  rcases Method.asks_bind_iff.mp hrest' with hlift | ⟨shares, s₃, es₅, es₆, rfl, hlift, hshares⟩
  · exact absurd hlift Method.not_asks_lift
  obtain ⟨rfl, hgenerate, rfl⟩ := Method.yields_lift_iff.mp hlift
  obtain ⟨-, sessionId, cipher, coordinator, hjoined⟩ := joined_of_receiveConfig hconfig
  rcases hjoined.asks_sendSignatureShare hshares with ⟨rfl, token', sent', heq, hcarries⟩ | hquiet
  · cases heq
    rw [List.append_nil, List.append_nil]
    exact .inr (sendsShares hconfig hconfirmed hgenerate hcarries)
  · exact absurd hquiet id

/-- A participant that ends has sent the shares, or has failed without them. -/
theorem ends_participant {o : Outcome Failure Unit}
    (h : (Participant.participant (comms lib) pargs commit).Ends s es o s') :
    (∃ before token sent answer after, es = before ++ ⟨.http token (.send sent), answer⟩ :: after ∧
      SendsShares lib s pargs commit before sent ∧ sends after = []) ∨
    (sends es).length ≤ 1 ∧ (C.id ≠ .other → ∃ e, o = .err e) := by
  rcases Method.ends_bind_iff.mp h with ⟨⟨config, nonces⟩, s₁, es₁, es₂, rfl, hconfig, hrest⟩ |
    ⟨e, hconfig, rfl⟩ | ⟨message, hconfig, rfl⟩
  · obtain ⟨hone, sessionId, cipher, coordinator, hjoined⟩ := joined_of_receiveConfig hconfig
    have hquiet : ∀ {o s'}, (confirmMessage config).Ends s₁ es₂ o s' → (sends (es₁ ++ es₂)).length ≤ 1 := by
      intro o s' hends
      rw [sends_append, sends_eq_nil ((onlyAsks_confirmMessage config).forall_query hends),
        List.append_nil, hone]
    rcases Method.ends_bind_iff.mp hrest with ⟨_, s₂, es₃, es₄, rfl, hconfirm, hrest'⟩ |
      ⟨e, hconfirm, rfl⟩ | ⟨message, hconfirm, -⟩
    · obtain ⟨hconfirmed, rfl⟩ := yields_confirmMessage_iff.mp hconfirm
      have hless : (sends (es₁ ++ (es₃ ++ []))).length ≤ 1 := by
        rw [List.append_nil, sends_append, sends_of_confirmedBy hconfirmed, List.append_nil, hone]
      cases hgenerate : generateSignature config pargs.keyPackage nonces with
      | panic message => exact absurd hgenerate (generateSignature_ne_panic message)
      | err e =>
        rw [hgenerate] at hrest'
        obtain ⟨rfl, rfl, -⟩ := Method.ends_lift_iff.mp hrest'
        exact .inr ⟨hless, fun _ => ⟨e, rfl⟩⟩
      | ok shares =>
        rw [hgenerate, Method.lift_ok_bind] at hrest'
        rcases hjoined.ends_sendSignatureShare hrest' with ⟨rfl, e, rfl⟩ |
          ⟨token, sent, answer, after, rfl, hcarries, hafter⟩
        · exact .inr ⟨hless, fun _ => ⟨e, rfl⟩⟩
        · exact .inl ⟨es₁ ++ es₃, token, sent, answer, after, (List.append_assoc _ _ _).symm,
            sendsShares hconfig hconfirmed hgenerate hcarries, hafter⟩
    · exact .inr ⟨hquiet hconfirm, fun _ => ⟨e, rfl⟩⟩
    · exact absurd hconfirm (neverPanics_confirmMessage config s₁ es₂ message s')
  · exact .inr ⟨(ends_receiveConfig hconfig).1, fun _ => ⟨e, rfl⟩⟩
  · exact .inr ⟨(ends_receiveConfig hconfig).1, fun hid =>
      absurd rfl ((ends_receiveConfig hconfig).2 hid message)⟩

/-- A participant sends shares only for packages that its user confirmed, one for each generated
nonce, and fails without shares otherwise. -/
theorem signs_only_confirmed (lib : HttpLibrary C) (pargs : Participant.ProcessedArgs C)
    (commit : Draws C) (s : HTTPComms S) (es : List World.Event) :
    (∀ token sent,
      (Participant.participant (comms lib) pargs commit).Asks s es (.http token (.send sent)) →
      SendsCommitments lib s commit es sent ∨ SendsShares lib s pargs commit es sent) ∧
    ∀ o s', (Participant.participant (comms lib) pargs commit).Ends s es o s' →
      (∃ before token sent answer after,
        es = before ++ ⟨.http token (.send sent), answer⟩ :: after ∧
        SendsShares lib s pargs commit before sent ∧ sends after = []) ∨
      (sends es).length ≤ 1 ∧ (C.id ≠ .other → ∃ e, o = .err e) :=
  ⟨fun _ _ h => asks_participant h, fun _ _ h => ends_participant h⟩

/-- A config is the message of its only package. -/
def sampleLibrary : HttpLibrary (sampleSuite .ed25519Sha512) where
  sign _ _ := some []
  decoder := ⟨some, some⟩
  configFromSlice message := some ⟨[⟨∅, message⟩], [], []⟩
  commitmentsToVec commitments := commitments
  sharesToVec shares := shares
  configToVec config := config.signingPackage.flatMap SigningPackage.message
  signersKeys _ := []
  pubkeysKeys _ := []

def sampleComms : HTTPComms Exchange.numberedSnow :=
  .new (some 12) ⟨some ⟨[1]⟩, some ⟨[1]⟩, some some⟩

def sampleNonces : Draws (sampleSuite .ed25519Sha512) := fun _ => ((4 : UInt8), (7 : UInt8))

def sampleReceived : List World.Event :=
  [⟨.http none .challenge, .ok 10⟩, ⟨.http none (.login ⟨10, ⟨[1]⟩, []⟩), .ok 11⟩,
    ⟨.http (some 11) (.getSessionInfo ⟨12⟩), .ok ⟨1, [⟨[1]⟩], ⟨[2]⟩⟩⟩,
    ⟨.http (some 11) (.send ⟨12, [], Exchange.frame 0 [7]⟩), .ok ()⟩,
    ⟨.http (some 11) (.receive ⟨12, false⟩), .ok [⟨⟨[2]⟩, Exchange.frame 0 [5]⟩]⟩]

def sampleConfig : SendSigningPackageArgs (sampleSuite .ed25519Sha512) := ⟨[⟨∅, [5]⟩], [], []⟩

theorem exists_sampleReceived : ∃ s,
    (Participant.receiveConfig (comms sampleLibrary) ⟨(1 : Fin 256)⟩ sampleNonces).Yields sampleComms
      sampleReceived (sampleConfig, [(4 : UInt8)]) s ∧
    (sendSignatureShare sampleLibrary [(4 : UInt8)] s).next.map Sigma.fst =
      some (.http (some 11) (.send ⟨12, [], Exchange.frame 1 [4]⟩)) := by
  refine ⟨_, .step _ rfl (.step _ rfl (.step _ rfl (.step _ rfl (.step _ rfl (.refl _))))), ?_⟩
  rfl

theorem signs_only_confirmed_sample : ∃ es,
    SendsShares sampleLibrary sampleComms ⟨(1 : Fin 256)⟩ sampleNonces es
      ⟨12, [], Exchange.frame 1 [4]⟩ := by
  obtain ⟨s, hreceive, hquery⟩ := exists_sampleReceived
  obtain ⟨⟨_, k⟩, hnext, rfl⟩ := Option.map_eq_some_iff.mp hquery
  have hconfirmed : ConfirmedBy sampleConfig.signingPackage
      (confirmations sampleConfig.signingPackage ["y\n"]) := by
    refine ⟨["y\n"], rfl, fun answer hanswer => ?_, rfl⟩
    rw [List.mem_singleton.mp hanswer]
    decide
  have hasks : (Participant.participant (comms sampleLibrary) ⟨(1 : Fin 256)⟩ sampleNonces).Asks
      sampleComms (sampleReceived ++ (confirmations sampleConfig.signingPackage ["y\n"] ++ []))
      (.http (some 11) (.send ⟨12, [], Exchange.frame 1 [4]⟩)) := by
    refine Method.asks_bind_iff.mpr (.inr ⟨_, s, _, _, rfl, hreceive, ?_⟩)
    refine Method.asks_bind_iff.mpr (.inr ⟨(), s, _, _, rfl,
      yields_confirmMessage_iff.mpr ⟨hconfirmed, rfl⟩, ?_⟩)
    exact ⟨_, k, .refl _, hnext⟩
  rcases (signs_only_confirmed sampleLibrary _ _ _ _).1 _ _ hasks with hfirst | hshares
  · cases hfirst.first
  · exact ⟨_, hshares⟩

end Http.Participant
end FrostTools.Signing
