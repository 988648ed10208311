import FrostTools.Signing.SignerCount

/-!
# Rerandomization

The coordinator decides from its list of randomizers whether it aggregates with a randomizer.
A participant decides from the packages it receives or, at the command line, from its
ciphersuite.
-/

namespace FrostTools.Signing
open Client

variable {C : Ciphersuite} {S : Snow}

namespace Transport

@[reducible] def ParticipantState : Transport C S → Type
  | .cli _ => Unit
  | .socket _ => Endpoint
  | .http _ _ => Http.Participant.HTTPComms S

def participantComms : (t : Transport C S) → Participant.Comms C t.ParticipantState
  | .cli text => Cli.participantComms text
  | .socket codec => Socket.participantComms codec
  | .http lib _ => Http.Participant.comms lib

def IsCli : Transport C S → Prop
  | .cli _ => True
  | .socket _ | .http _ _ => False

/-- What is relied on: what is written is read back, a map is iterated over without
repetition, and the messages of a sender are decrypted in order. -/
def Lawful (Matched : S.HandshakeState → S.HandshakeState → Prop)
    (Synced : S.TransportState → S.TransportState → Prop) : Transport C S → Prop
  | .cli text => ∀ package, text.packageFromStr (text.packageToString package) = some package
  | .socket codec => ∀ message, codec.fromSlice (codec.toVec message) = some message
  | .http lib _ => (∀ config, lib.configFromSlice (lib.configToVec config) = some config) ∧
      (∀ m, (lib.pubkeysKeys m).Nodup) ∧ S.InOrder Matched Synced

end Transport

def linesRead (es : List World.Event) : List String :=
  es.filterMap fun
    | ⟨.readLine, some line⟩ => some line
    | _ => none

/-- The coordinator and a participant know each other's keys, and the messages that the
participant received are messages that the coordinator sent to it. -/
structure Http.Delivers (args : Coordinator.Args C) (comms : Participant.HTTPComms S)
    (es es' : List World.Event) (coordinator participant : PublicKey) : Prop where
  coordinatorKey : args.commPrivkey = some coordinator
  participantKey : comms.args.commPrivkey = some participant
  getter : ∀ getter, comms.args.commCoordinatorPubkeyGetter = some getter →
    ∀ key key', getter key = some key' → key' = key
  sessionInfo : ∀ token args info, ⟨.http token (.getSessionInfo args), .ok info⟩ ∈ es' →
    info.coordinatorPubkey = coordinator
  received : ∀ token args msg msgs, ⟨.http token (.receive args), .ok (msg :: msgs)⟩ ∈ es' →
    ∃ token sessionId, ⟨.http token (.send ⟨sessionId, [participant], msg.msg⟩), .ok ()⟩ ∈ es

/-- The participant received what the coordinator sent to it, the first package being that of
the `first` message. At the command line the user carries a single package. -/
def Transport.Delivers (es es' : List World.Event) (calls : List (AggregateCall C)) (first : ℕ) :
    (t : Transport C S) → t.ParticipantState → Prop
  | .cli text, _ => ∃ call line, calls[first]? = some call ∧ (linesRead es')[0]? = some line ∧
      trim line = text.packageToString call.signingPackage
  | .socket _, _ => first = 0 ∧ ∀ endpoint data, ⟨.socketRecv, some (endpoint, data)⟩ ∈ es' →
      ∃ endpoint, ⟨.socketSend endpoint data, ()⟩ ∈ es
  | .http _ args, comms => first = 0 ∧ ∃ coordinator participant,
      Http.Delivers args comms es es' coordinator participant

/-- A run of the coordinator with arguments that it accepts, and of a participant. -/
structure HonestRun (t : Transport C S) (pargs : Coordinator.ProcessedArgs C)
    (pargs' : Participant.ProcessedArgs C) (commit : Draws C) (comms : t.ParticipantState)
    (es es' : List World.Event) (calls : List (AggregateCall C))
    (config : SendSigningPackageArgs C) (nonces : List C.SigningNonces) (first : ℕ) : Prop where
  accepted : pargs.randomizers = [] ∨ pargs.randomizers.length = pargs.messages.length
  coordinator : ∃ s', (Coordinator.rounds t.comms pargs).Yields (t.start pargs) es calls s'
  participant : ∃ s', (Participant.receiveConfig t.participantComms pargs' commit).Yields comms es'
    (config, nonces) s'
  delivers : t.Delivers es es' calls first comms

/-- Every package is signed with the randomizer with which it is aggregated, or both times
without one. -/
def Agree (first : ℕ) (calls : List (AggregateCall C)) (signs : List (SignCall C)) : Prop :=
  ∀ j sign, signs[j]? = some sign → ∃ call, calls[first + j]? = some call ∧
    call.signingPackage = sign.signingPackage ∧ call.randomizer = sign.randomizer

variable {es : List World.Event} {j : ℕ}

def passedRandomizers (randomizers : List C.Randomizer) : Option (List C.Randomizer) :=
  if randomizers = [] then none else some randomizers

theorem getD_passedRandomizers (randomizers : List C.Randomizer) :
    (passedRandomizers randomizers).getD [] = randomizers := by
  unfold passedRandomizers
  split_ifs with h
  · exact h.symm
  · rfl

theorem getElem?_aggregateCalls {randomizers : List C.Randomizer} {packages : List C.Package}
    {shares : List (Map C.Identifier C.SignatureShare)} {package : C.Package}
    (hpackage : packages[j]? = some package) (hshares : j < shares.length)
    (hrandomizers : randomizers = [] ∨ randomizers.length = packages.length) :
    ∃ call, (aggregateCalls (passedRandomizers randomizers) packages shares)[j]? = some call ∧
      call.signingPackage = package ∧ call.randomizer = randomizers[j]? := by
  have hzip : (packages.zip shares)[j]? = some (package, shares[j]) :=
    List.getElem?_zip_eq_some.mpr ⟨hpackage, List.getElem?_eq_getElem hshares⟩
  unfold passedRandomizers aggregateCalls
  split_ifs with hnil
  · refine ⟨⟨package, shares[j], none⟩, ?_, rfl, by rw [hnil, List.getElem?_nil]⟩
    rw [List.getElem?_map, hzip, Option.map_some]
  · have hj : j < randomizers.length := by
      rw [hrandomizers.resolve_left hnil]
      exact (List.getElem?_eq_some_iff.mp hpackage).1
    have hr := List.getElem?_eq_getElem hj
    refine ⟨⟨package, shares[j], some randomizers[j]⟩, ?_, rfl, hr.symm⟩
    have hzip' : (randomizers.zip (packages.zip shares))[j]? =
        some (randomizers[j], package, shares[j]) := List.getElem?_zip_eq_some.mpr ⟨hr, hzip⟩
    rw [List.getElem?_map, hzip', Option.map_some]

/-- A participant that has the packages and the randomizers of the coordinator agrees with it. -/
theorem agree_of_config {randomizers : List C.Randomizer} {packages : List C.Package}
    {shares : List (Map C.Identifier C.SignatureShare)} {config : SendSigningPackageArgs C}
    (nonces : List C.SigningNonces) (hshares : shares.length = packages.length)
    (hrandomizers : randomizers = [] ∨ randomizers.length = packages.length)
    (hpackages : config.signingPackage = packages) (hconfig : config.randomizer = randomizers) :
    Agree 0 (aggregateCalls (passedRandomizers randomizers) packages shares)
      (signCalls config nonces) := by
  intro j sign hsign
  obtain ⟨hpackage, -, hrandomizer⟩ := getElem?_signCalls hsign
  rw [hpackages] at hpackage
  have hlt := (List.getElem?_eq_some_iff.mp hpackage).1
  obtain ⟨call, hcall, hcp, hcr⟩ :=
    getElem?_aggregateCalls hpackage (hshares ▸ hlt) hrandomizers
  rw [Nat.zero_add]
  exact ⟨call, hcall, hcp, by rw [hcr, hrandomizer, hconfig]⟩

theorem yields_rounds {σ : Type} {comms : Coordinator.Comms C σ}
    {pargs : Coordinator.ProcessedArgs C} {calls : List (AggregateCall C)} {s s' : σ}
    (h : (Coordinator.rounds comms pargs).Yields s es calls s') :
    ∃ commitments packages shares s₁ es₁ es₂, es = es₁ ++ es₂ ∧
      (commitmentsCall comms pargs).Yields s es₁ commitments s₁ ∧
      signingPackages commitments pargs.messages = .ok packages ∧
      (comms.sendSigningPackageAndGetSignatureShares packages (passedRandomizers pargs.randomizers)
        pargs.auxMsg).Yields s₁ es₂ shares s' ∧
      calls = aggregateCalls (passedRandomizers pargs.randomizers) packages shares := by
  obtain ⟨commitments, s₁, es₁, _, rfl, hcommitments, h⟩ := Method.yields_bind_iff.mp h
  obtain ⟨packages, s₂, _, es₂, rfl, hlift, h⟩ := Method.yields_bind_iff.mp h
  obtain ⟨rfl, hpackages, rfl⟩ := Method.yields_lift_iff.mp hlift
  obtain ⟨shares, s₃, es₃, _, rfl, hshares, h⟩ := Method.yields_bind_iff.mp h
  obtain ⟨rfl, rfl, rfl⟩ := Method.yields_pure_iff.mp h
  exact ⟨commitments, packages, shares, s₁, es₁, es₃, by simp, hcommitments, hpackages, hshares, rfl⟩

theorem yields_receiveConfig {σ : Type} {comms : Participant.Comms C σ}
    {pargs : Participant.ProcessedArgs C} {commit : Draws C} {config : SendSigningPackageArgs C}
    {nonces : List C.SigningNonces} {s s' : σ}
    (h : (Participant.receiveConfig comms pargs commit).Yields s es (config, nonces) s') :
    ∃ messageCount expected commitments s₁ es₁ es₂, es = es₁ ++ es₂ ∧
      comms.getMessageCount.Yields s es₁ messageCount s₁ ∧ rerandomized C = .ok expected ∧
      (comms.getSigningPackage commitments (C.identifier pargs.keyPackage) expected).Yields s₁ es₂
        config s' ∧
      nonces.length = messageCount.toNat := by
  obtain ⟨messageCount, s₁, es₁, _, rfl, hcount, h⟩ := Method.yields_bind_iff.mp h
  obtain ⟨expected, s₂, _, es₂, rfl, hlift, h⟩ := Method.yields_bind_iff.mp h
  obtain ⟨rfl, hexpected, rfl⟩ := Method.yields_lift_iff.mp hlift
  obtain ⟨config', s₃, es₃, _, rfl, hconfig, h⟩ := Method.yields_bind_iff.mp h
  obtain ⟨rfl, heq, rfl⟩ := Method.yields_pure_iff.mp h
  obtain ⟨rfl, rfl⟩ := Prod.mk.inj heq
  exact ⟨messageCount, expected, _, s₁, es₁, es₃, by simp, hcount, hexpected, hconfig, by simp⟩

theorem rerandomized_eq_ok_iff {expected : Bool} : rerandomized C = .ok expected ↔
    C.id = .ed25519Sha512 ∧ expected = false ∨ C.id = .pallasBlake2b512 ∧ expected = true := by
  unfold rerandomized
  split
  · next h => simp [h, eq_comm]
  · next h => simp [h, eq_comm]
  · next h => simp [h]

theorem length_of_signingPackages {commitments : List (Map C.Identifier C.SigningCommitments)}
    {messages : List Bytes} {packages : List C.Package}
    (h : signingPackages commitments messages = .ok packages) :
    packages.length = commitments.length := by
  rw [Outcome.length_of_mapM h, List.length_zipIdx]

namespace Cli

variable {text : Text C}

theorem randomizer_of_rounds {pargs : Coordinator.ProcessedArgs C} {calls : List (AggregateCall C)}
    {s s' : Unit} (h : (Coordinator.rounds (coordinatorComms text) pargs).Yields s es calls s') :
    ∀ call ∈ calls, call.randomizer = none := by
  obtain ⟨_, packages, shares, _, _, _, -, -, -, hshares, rfl⟩ := yields_rounds h
  unfold coordinatorComms at hshares
  dsimp only at hshares
  intro call hcall
  cases hr : passedRandomizers pargs.randomizers with
  | some randomizers =>
    rw [hr, if_pos Option.isSome_some] at hshares
    exact absurd hshares Method.not_yields_fail
  | none =>
    rw [hr] at hcall
    obtain ⟨entry, -, rfl⟩ := List.mem_map.mp hcall
    rfl

theorem yields_getSigningPackage (commitments : List C.SigningCommitments) {expected : Bool}
    {config : SendSigningPackageArgs C} {s s' : Unit}
    (h : (getSigningPackage text commitments expected).Yields s es config s') :
    ∃ line package, (linesRead es)[0]? = some line ∧
      text.packageFromStr (trim line) = some package ∧ config.signingPackage = [package] ∧
      config.randomizer.length = if expected then 1 else 0 := by
  unfold getSigningPackage at h
  split at h
  · cases expected with
    | false =>
      simp [printValues] at h
      obtain ⟨line, rfl, package, hpackage, rfl⟩ := h
      exact ⟨line, package, rfl, hpackage, rfl, rfl⟩
    | true =>
      simp [printValues, readRandomizer] at h
      obtain ⟨line, package, randomizer, _, _, rfl, hpackage, -, rfl⟩ := h
      exact ⟨line, package, rfl, hpackage, rfl, rfl⟩
  · exact absurd h Method.not_yields_fail

end Cli

namespace Socket

variable {codec : MessageCodec C}

theorem yields_send_iff {σ : Type} {endpoint : Endpoint} {message : Message C} {s s' : σ} {u : Unit} :
    (send codec endpoint message).Yields s es u s' ↔
      es = [⟨.socketSend endpoint (codec.toVec message), ()⟩] ∧ s = s' := by
  rw [send, Method.yields_bind_iff]
  constructor
  · rintro ⟨answer, s₁, es₁, es₂, rfl, hquery, h⟩
    obtain ⟨rfl, rfl⟩ := Method.yields_query_iff.mp hquery
    obtain ⟨rfl, -, rfl⟩ := Method.yields_pure_iff.mp h
    exact ⟨rfl, rfl⟩
  · rintro ⟨rfl, rfl⟩
    exact ⟨(), s, _, [], rfl, Method.yields_query_iff.mpr ⟨rfl, rfl⟩,
      Method.yields_pure_iff.mpr ⟨rfl, rfl, rfl⟩⟩

def Sends (data : Bytes) (es : List World.Event) : Prop :=
  ∀ endpoint data', ⟨.socketSend endpoint data', ()⟩ ∈ es → data' = data

theorem Sends.append {data : Bytes} {es es' : List World.Event} (h : Sends data es)
    (h' : Sends data es') : Sends data (es ++ es') := by
  intro endpoint data' hmem
  rcases List.mem_append.mp hmem with hmem | hmem
  · exact h endpoint data' hmem
  · exact h' endpoint data' hmem

theorem sends_recvShare {data : Bytes} {i : ℕ} {m m' : Map C.Identifier C.SignatureShare}
    {s s' : Endpoints C} (h : (recvShare codec m i).Yields s es m' s') : Sends data es := by
  obtain ⟨⟨endpoint, message⟩, s₁, es₁, es₂, rfl, hrecv, h⟩ := Method.yields_bind_iff.mp h
  obtain ⟨data', -, rfl, rfl⟩ := yields_recv_iff.mp hrecv
  cases message with
  | signatureShare share =>
    simp at h
    obtain ⟨rfl, -⟩ := h
    intro endpoint' data'' hmem
    simp at hmem
  | identifiedCommitments _ _ => exact absurd h Method.not_yields_fail
  | signingPackageAndRandomizer _ _ => exact absurd h Method.not_yields_fail

theorem sends_commitments {data : Bytes} {pargs : Coordinator.ProcessedArgs C}
    {commitments : List (Map C.Identifier C.SigningCommitments)} {s s' : Endpoints C}
    (h : (commitmentsCall (coordinatorComms codec) pargs).Yields s es commitments s') :
    Sends data es := by
  unfold commitmentsCall coordinatorComms at h
  dsimp only at h
  split_ifs at h with hone
  · exact absurd h Method.not_yields_fail
  · simp only [Method.yields_bind_iff, Method.yields_modify_iff, Method.yields_pure_iff] at h
    obtain ⟨-, s₁, _, _, rfl, ⟨rfl, rfl⟩, m, s₂, es₁, _, rfl, hrecv, rfl, rfl, rfl⟩ := h
    rw [List.nil_append, List.append_nil]
    apply hrecv.foldM_invariant (P := fun _ es _ _ => Sends data es)
    · exact fun _ _ hmem => absurd hmem List.not_mem_nil
    · intro n es m s i es' m' s' hold hturn
      obtain ⟨endpoint, data', identifier, commitments, -, rfl, -, -⟩ :=
        yields_recvCommitments_iff.mp hturn
      refine hold.append fun endpoint' data'' hmem => ?_
      simp at hmem

theorem onlyRandomizer_eq_ok_iff {randomizers : List C.Randomizer} {randomizer : Option C.Randomizer} :
    onlyRandomizer (passedRandomizers randomizers) = .ok randomizer ↔
      randomizers = randomizer.toList := by
  unfold passedRandomizers
  match randomizers, randomizer with
  | [], none => simp [onlyRandomizer]
  | [], some _ => simp [onlyRandomizer]
  | [r], none => simp [onlyRandomizer]
  | [r], some r' => simp [onlyRandomizer]
  | r :: r' :: rs, none => simp [onlyRandomizer]
  | r :: r' :: rs, some _ => simp [onlyRandomizer]

theorem yields_sendSigningPackage {packages : List C.Package}
    {randomizers : List C.Randomizer} {auxMsg : Option Bytes}
    {shares : List (Map C.Identifier C.SignatureShare)} {s s' : Endpoints C}
    (h : (sendSigningPackage codec packages (passedRandomizers randomizers) auxMsg).Yields s es
      shares s') :
    ∃ package randomizer, packages = [package] ∧ shares.length = 1 ∧
      randomizers = randomizer.toList ∧
      Sends (codec.toVec (.signingPackageAndRandomizer package randomizer)) es := by
  unfold sendSigningPackage at h
  split at h
  · next package =>
    by_cases haux : auxMsg.isSome = true
    · simp [haux] at h
    · simp [haux] at h
      obtain ⟨randomizer, _, s₁, es₁, es₂, rfl, hrandomizer, hsend, m, hrecv, rfl⟩ := h
      refine ⟨package, randomizer, rfl, rfl, onlyRandomizer_eq_ok_iff.mp hrandomizer, ?_⟩
      have hsent := hsend.foldM_invariant
        (P := fun _ es _ _ =>
          Sends (codec.toVec (.signingPackageAndRandomizer package randomizer)) es)
        (fun _ _ hmem => absurd hmem List.not_mem_nil) ?_
      · refine hsent.append (hrecv.foldM_invariant (P := fun _ es _ _ =>
          Sends (codec.toVec (.signingPackageAndRandomizer package randomizer)) es)
          (fun _ _ hmem => absurd hmem List.not_mem_nil) ?_)
        intro n es m s i es' m' s' hold hturn
        exact hold.append (sends_recvShare hturn)
      · intro n es u s₂ identifier es' u' s₃ hold hturn
        simp [yields_send_iff] at hturn
        obtain ⟨endpoint, rfl, -, -⟩ := hturn
        refine hold.append fun endpoint' data' hmem => ?_
        simp at hmem
        exact hmem.2
  · exact absurd h Method.not_yields_fail

theorem yields_getSigningPackage {commitments : List C.SigningCommitments}
    {identifier : C.Identifier} {config : SendSigningPackageArgs C} {s s' : Endpoint}
    (h : (getSigningPackage codec commitments identifier).Yields s es config s') :
    ∃ endpoint data package randomizer, ⟨.socketRecv, some (endpoint, data)⟩ ∈ es ∧
      codec.fromSlice data = some (.signingPackageAndRandomizer package randomizer) ∧
      config.signingPackage = [package] ∧ config.randomizer = randomizer.toList := by
  unfold getSigningPackage at h
  split at h
  · simp [yields_send_iff] at h
    obtain ⟨endpoint, message, s₁, es₁, es₂, rfl, hrecv, h⟩ := h
    obtain ⟨data, hdata, rfl, rfl⟩ := yields_recv_iff.mp hrecv
    cases message with
    | signingPackageAndRandomizer package randomizer =>
      obtain ⟨rfl, rfl, rfl⟩ := Method.yields_pure_iff.mp h
      exact ⟨endpoint, data, package, randomizer, by simp, hdata, rfl, rfl⟩
    | identifiedCommitments _ _ => exact absurd h Method.not_yields_fail
    | signatureShare _ => exact absurd h Method.not_yields_fail
  · exact absurd h Method.not_yields_fail

end Socket

namespace Http

variable {lib : HttpLibrary C}

namespace Coordinator

theorem recvBatch_frame (lib : HttpLibrary C) (msgs : List Msg) (r : Cipher S × State C) :
    (recvBatch lib r msgs).2.1.sendNoiseMap = r.1.sendNoiseMap ∧
      (recvBatch lib r msgs).2.2.args = r.2.args := by
  induction msgs generalizing r with
  | nil => exact ⟨rfl, rfl⟩
  | cons msg msgs ih =>
    obtain ⟨cipher, state⟩ := r
    have hsend : (cipher.decrypt msg).2.sendNoiseMap = cipher.sendNoiseMap :=
      Cipher.decrypt_sendNoiseMap msg
    unfold recvBatch
    split
    · next heq => exact ⟨by rw [← hsend, heq], rfl⟩
    · next heq => exact ⟨by rw [← hsend, heq], rfl⟩
    · next plain cipher₁ heq =>
      rw [heq] at hsend
      have hargs := (state.recv_spec lib.decoder plain).args_eq
      split
      · next hrecv => exact ⟨hsend, by rw [← hargs, hrecv]⟩
      · next hrecv => exact ⟨hsend, by rw [← hargs, hrecv]⟩
      · next state₁ hrecv =>
        rw [hrecv] at hargs
        exact ⟨(ih _).1.trans hsend, (ih _).2.trans hargs⟩

theorem frame_of_receiveUntil {exit : State C → Bool} {accessToken : Option Uuid}
    {sessionId : Uuid} {cipher cipher' : Cipher S} {s s' : HTTPComms C S}
    (h : (receiveUntil lib exit accessToken sessionId cipher).Yields s es cipher' s') :
    cipher'.sendNoiseMap = cipher.sendNoiseMap ∧ s'.state.args = s.state.args ∧
      s' = { s with state := s'.state } ∧
      ∀ e ∈ es, e.query = .http accessToken (.receive ⟨sessionId, true⟩) := by
  have hbatch : ∀ (r r' : Cipher S × State C) msgs,
      r.1.sendNoiseMap = cipher.sendNoiseMap ∧ r.2.args = s.state.args →
      recvBatch lib r msgs = (.ok (), r') →
      r'.1.sendNoiseMap = cipher.sendNoiseMap ∧ r'.2.args = s.state.args := by
    intro r r' msgs hr hrecv
    have hframe := recvBatch_frame lib msgs r
    rw [hrecv] at hframe
    exact ⟨hframe.1.trans hr.1, hframe.2.trans hr.2⟩
  obtain ⟨-, hstate, hkept, hquery⟩ := yields_receiveUntil h ⟨rfl, rfl⟩ hbatch
  exact ⟨hkept.1, hkept.2, hstate, hquery⟩

/-- Every message is sent to one recipient, and is the payload encrypted by the first Noise state
for it. -/
theorem yields_rounds_http {pargs : Coordinator.ProcessedArgs C} {args : Args C}
    {calls : List (AggregateCall C)} {s' : HTTPComms C S}
    (hnodup : ∀ m, (lib.pubkeysKeys m).Nodup)
    (h : (Coordinator.rounds (comms lib) pargs).Yields (.new pargs args) es calls s') :
    ∃ packages shares privkey cipher, args.commPrivkey = some privkey ∧
      Cipher.new (S := S) privkey (lib.signersKeys args.signers) = some cipher ∧
      packages.length = pargs.messages.length ∧ shares.length = packages.length ∧
      calls = aggregateCalls (passedRandomizers pargs.randomizers) packages shares ∧
      ∀ e ∈ es, ∀ token sendArgs, e.query = .http token (.send sendArgs) →
        ∃ recipient noise noise', sendArgs.recipients = [recipient] ∧
          cipher.sendNoiseMap.lookup recipient = some noise ∧
          (Noise.channel S).write noise
            (lib.configToVec ⟨packages, pargs.auxMsg.getD [], pargs.randomizers⟩) =
              some (sendArgs.msg, noise') := by
  obtain ⟨commitments, packages, shares, s₁, es₁, es₂, rfl, hcommitments, hpackages, hshares, rfl⟩ :=
    yields_rounds h
  obtain ⟨privkey, token, sessionId, cipher, cipher₁, comms₁, pubkeys, esl, esr, hprivkey, hcipher,
    hreceive, hmaps, rfl, rfl, hquiet⟩ := yields_getSigningCommitments hcommitments
  obtain ⟨cipher', cipher₂, cipher₃, sessionId', s₂, s₃, ess, esr', hcipher', hsend, hreceive', hready,
    rfl⟩ := yields_sendSigningPackage hshares
  obtain ⟨hkept, hargs, hframe, hquery⟩ := frame_of_receiveUntil hreceive
  obtain ⟨-, hargs', -, hquery'⟩ := frame_of_receiveUntil hreceive'
  obtain ⟨rfl, hsent⟩ := yields_sendTo_all (hnodup _) hsend
  obtain rfl := Option.some.inj hcipher'
  have hlength : packages.length = pargs.messages.length := by
    rw [length_of_signingPackages hpackages, Session.CoordinatorSessionState.length_of_commitments hmaps,
      hargs]
    rfl
  refine ⟨packages, shares, privkey, cipher, hprivkey, hcipher, hlength, ?_, rfl, ?_⟩
  · rw [hlength, Session.CoordinatorSessionState.length_of_signatureShares hready, hargs', hargs]
    rfl
  · intro e he token sendArgs hsendArgs
    have hmem : e ∈ ess := by
      rcases List.mem_append.mp he with he | he
      · rcases List.mem_append.mp he with he | he
        · exact absurd hsendArgs (hquiet e he token sendArgs)
        · rw [hquery e he] at hsendArgs
          cases hsendArgs
      · rcases List.mem_append.mp he with he | he
        · exact he
        · rcases List.mem_append.mp he with he | he
          · rw [hquery' e he] at hsendArgs
            cases hsendArgs
          · rcases List.mem_cons.mp he with rfl | he
            · cases hsendArgs
            · rw [List.mem_singleton.mp he] at hsendArgs
              cases hsendArgs
    obtain ⟨sessionId, recipient, x, noise, noise', rfl, hlookup, hwrite, -⟩ := hsent e hmem
    cases hsendArgs
    rw [hkept] at hlookup
    rw [getD_passedRandomizers] at hwrite
    exact ⟨recipient, noise, noise', rfl, hlookup, hwrite⟩

end Coordinator

theorem Participant.yields_receiveConfig_http {pargs : Participant.ProcessedArgs C}
    {commit : Draws C} {config : SendSigningPackageArgs C} {nonces : List C.SigningNonces}
    {s s' : HTTPComms S}
    (h : (Participant.receiveConfig (comms lib) pargs commit).Yields s es (config, nonces) s') :
    ∃ privkey getter token infoArgs info coordinator handshake, s.args.commPrivkey = some privkey ∧
      s.args.commCoordinatorPubkeyGetter = some getter ∧
      ⟨.http token (.getSessionInfo infoArgs), .ok info⟩ ∈ es ∧
      getter info.coordinatorPubkey = some coordinator ∧
      S.buildResponder privkey coordinator = some handshake ∧
      ∃ token receiveArgs msg msgs m noise,
        ⟨.http token (.receive receiveArgs), .ok (msg :: msgs)⟩ ∈ es ∧
        (Noise.channel S).read (.new handshake) msg.msg = some (m, noise) ∧
        lib.configFromSlice m = some config := by
  obtain ⟨messageCount, expected, commitments, s₁, es₁, es₂, rfl, hcount, -, hconfig, -⟩ :=
    yields_receiveConfig h
  obtain ⟨privkey, getter, token, sessionId, info, coordinator, cipher, hprivkey, hgetter, hinfo,
    hcoordinator, hcipher, rfl⟩ := yields_getMessageCount hcount
  obtain ⟨cipher', cipher₁, cipher₂, recipient, x, sessionId', msg, msgs, plain, hsame, hencrypt,
    hreceive, hdecrypt, hslice, -⟩ := yields_getSigningPackage hconfig
  obtain rfl := Option.some.inj hsame
  have hrecv : (cipher.encrypt recipient (lib.commitmentsToVec commitments)).2.recvNoiseMap =
      cipher.recvNoiseMap := Cipher.encrypt_recvNoiseMap recipient _
  rw [hencrypt] at hrecv
  obtain ⟨m, readers, hread, rfl, -⟩ := Cipher.decrypt_ok_iff.mp hdecrypt
  obtain ⟨sendNoise, recvNoise, -, hbuild⟩ := Cipher.build_of_new hcipher List.mem_cons_self
  have hlookup := (Cipher.lookup_new hcipher msg.sender).2
  unfold Channel.readFrom at hread
  rw [hrecv, hlookup] at hread
  by_cases hsender : msg.sender ∈ [coordinator]
  · rw [if_pos hsender, List.mem_singleton.mp hsender, hbuild] at hread
    obtain ⟨⟨m', noise⟩, hm, heq⟩ := Option.map_eq_some_iff.mp hread
    obtain ⟨rfl, rfl⟩ := Prod.mk.inj heq
    exact ⟨privkey, getter, _, _, info, coordinator, recvNoise, hprivkey, hgetter,
      List.mem_append_left _ hinfo, hcoordinator, hbuild, _, _, msg, msgs, m', noise,
      List.mem_append_right _ hreceive, hm, hslice⟩
  · rw [if_neg hsender] at hread
    cases hread

theorem config_eq {args : Coordinator.Args C} {comms : Participant.HTTPComms S}
    {pargs : Coordinator.ProcessedArgs C} {pargs' : Participant.ProcessedArgs C} {commit : Draws C}
    {es' : List World.Event} {calls : List (AggregateCall C)} {config : SendSigningPackageArgs C}
    {nonces : List C.SigningNonces} {coordinator participant : PublicKey}
    {s' : Coordinator.HTTPComms C S} {s'' : Participant.HTTPComms S}
    {Matched : S.HandshakeState → S.HandshakeState → Prop}
    {Synced : S.TransportState → S.TransportState → Prop}
    (hslice : ∀ config, lib.configFromSlice (lib.configToVec config) = some config)
    (hnodup : ∀ m, (lib.pubkeysKeys m).Nodup) (hS : S.InOrder Matched Synced)
    (hc : (Coordinator.rounds (Coordinator.comms lib) pargs).Yields (.new pargs args) es calls s')
    (hp : (Participant.receiveConfig (Participant.comms lib) pargs' commit).Yields comms es'
      (config, nonces) s'')
    (hd : Delivers args comms es es' coordinator participant) :
    ∃ packages shares, packages.length = pargs.messages.length ∧
      shares.length = packages.length ∧
      calls = aggregateCalls (passedRandomizers pargs.randomizers) packages shares ∧
      config.signingPackage = packages ∧ config.randomizer = pargs.randomizers := by
  obtain ⟨packages, shares, privkey, cipher, hprivkey, hcipher, hpackages, hshares, rfl, hsent⟩ :=
    Coordinator.yields_rounds_http hnodup hc
  obtain ⟨privkey', getter, token, infoArgs, info, key, h', hprivkey', hgetter, hinfo, hkey, hbuild',
    token', receiveArgs, msg, msgs, m, noise', hreceive, hread, hconfig⟩ :=
    Participant.yields_receiveConfig_http hp
  obtain rfl := Option.some.inj (hprivkey.symm.trans hd.coordinatorKey)
  obtain rfl := Option.some.inj (hprivkey'.symm.trans hd.participantKey)
  have hkeyeq : key = privkey := by
    rw [hd.getter getter hgetter _ key hkey, hd.sessionInfo _ _ _ hinfo]
  subst hkeyeq
  obtain ⟨token₁, sessionId, hmem⟩ := hd.received _ _ _ _ hreceive
  obtain ⟨recipient, noise, noise₁, hrecipient, hlookup, hwrite⟩ := hsent _ hmem _ _ rfl
  obtain rfl := List.singleton_inj.mp hrecipient
  rw [(Cipher.lookup_new hcipher _).1] at hlookup
  split_ifs at hlookup with hpeer
  obtain ⟨h, hbuild, rfl⟩ := Option.map_eq_some_iff.mp hlookup
  have hpaired : Noise.Paired Matched Synced (.new h) (.new h') := .handshake (hS.build hbuild hbuild')
  obtain ⟨r', hread', -⟩ := Noise.channel_inOrder hS hpaired hwrite
  obtain ⟨rfl, -⟩ := Prod.mk.inj (Option.some.inj (hread.symm.trans hread'))
  rw [hslice] at hconfig
  obtain rfl := Option.some.inj hconfig
  exact ⟨packages, shares, hpackages, hshares, rfl, rfl, rfl⟩

end Http

section Agreement

variable {pargs : Coordinator.ProcessedArgs C} {pargs' : Participant.ProcessedArgs C}
  {commit : Draws C} {es' : List World.Event} {calls : List (AggregateCall C)}
  {config : SendSigningPackageArgs C} {nonces : List C.SigningNonces} {first : ℕ}

theorem Socket.agree {codec : MessageCodec C} {comms : Endpoint}
    (hcodec : ∀ message, codec.fromSlice (codec.toVec message) = some message)
    (h : HonestRun (S := S) (.socket codec) pargs pargs' commit comms es es' calls config nonces
      first) : Agree first calls (signCalls config nonces) := by
  obtain ⟨s', hc⟩ := h.coordinator
  obtain ⟨s'', hp⟩ := h.participant
  obtain ⟨rfl, hdelivers⟩ := h.delivers
  obtain ⟨commitments, packages, shares, s₁, es₁, es₂, rfl, hcommitments, hpackages, hshares, rfl⟩ :=
    yields_rounds hc
  obtain ⟨package, randomizer, rfl, hlength, hrandomizers, hsent⟩ := yields_sendSigningPackage hshares
  obtain ⟨_, _, commitments', s₂, es₃, es₄, rfl, -, -, hconfig, -⟩ := yields_receiveConfig hp
  obtain ⟨endpoint, data, package', randomizer', hrecv, hdata, hcp, hcr⟩ :=
    yields_getSigningPackage hconfig
  obtain ⟨endpoint', hmem⟩ := hdelivers endpoint data (List.mem_append_right _ hrecv)
  obtain rfl := (sends_commitments hcommitments).append hsent endpoint' data hmem
  rw [hcodec] at hdata
  cases hdata
  refine agree_of_config nonces hlength ?_ hcp (hcr.trans hrandomizers.symm)
  rw [hrandomizers]
  cases randomizer with
  | none => exact .inl rfl
  | some r => exact .inr rfl

theorem Http.agree {lib : HttpLibrary C} {args : Http.Coordinator.Args C}
    {comms : Http.Participant.HTTPComms S} {Matched : S.HandshakeState → S.HandshakeState → Prop}
    {Synced : S.TransportState → S.TransportState → Prop}
    (ht : Transport.Lawful Matched Synced (.http lib args))
    (h : HonestRun (.http lib args) pargs pargs' commit comms es es' calls config nonces first) :
    Agree first calls (signCalls config nonces) := by
  obtain ⟨hslice, hnodup, hS⟩ := ht
  obtain ⟨s', hc⟩ := h.coordinator
  obtain ⟨s'', hp⟩ := h.participant
  obtain ⟨rfl, coordinator, participant, hd⟩ := h.delivers
  obtain ⟨packages, shares, hpackages, hshares, rfl, hcp, hcr⟩ :=
    config_eq hslice hnodup hS hc hp hd
  apply agree_of_config nonces hshares _ hcp hcr
  rw [hpackages]
  exact h.accepted

/-- At the command line the participant signs without a randomizer exactly when its ciphersuite
expects none. -/
theorem Cli.agree_iff {text : Text C}
    (htext : ∀ package, text.packageFromStr (text.packageToString package) = some package)
    (h : HonestRun (S := S) (.cli text) pargs pargs' commit () es es' calls config nonces first) :
    Agree first calls (signCalls config nonces) ↔ C.id ≠ .pallasBlake2b512 := by
  obtain ⟨s', hc⟩ := h.coordinator
  obtain ⟨s'', hp⟩ := h.participant
  obtain ⟨call, line, hcall, hline, htrim⟩ := h.delivers
  have hnone := randomizer_of_rounds hc call (List.mem_of_getElem? hcall)
  obtain ⟨messageCount, expected, commitments, s₂, es₃, es₄, rfl, hcount, hexpected, hconfig,
    hnonces⟩ := yields_receiveConfig hp
  obtain ⟨rfl, rfl, rfl⟩ := Method.yields_pure_iff.mp hcount
  obtain ⟨line', package, hline', hpackage, hcp, hcr⟩ := yields_getSigningPackage _ hconfig
  obtain rfl := Option.some.inj (hline.symm.trans hline')
  rw [htrim, htext] at hpackage
  obtain rfl := Option.some.inj hpackage
  rcases rerandomized_eq_ok_iff.mp hexpected with ⟨hid, rfl⟩ | ⟨hid, rfl⟩
  · refine iff_of_true (fun j sign hsign => ?_) (by rw [hid]; decide)
    have hnil : config.randomizer = [] := List.eq_nil_of_length_eq_zero hcr
    obtain ⟨hsp, -, hsr⟩ := getElem?_signCalls hsign
    rw [hcp, List.getElem?_singleton] at hsp
    split_ifs at hsp with hj
    refine ⟨call, by rw [hj]; exact hcall, Option.some.inj hsp, ?_⟩
    rw [hnone, hsr, hnil, List.getElem?_nil]
  · refine iff_of_false (fun hagree => ?_) (not_not.mpr hid)
    obtain ⟨r, hr⟩ := List.length_eq_one_iff.mp hcr
    obtain ⟨n, rfl⟩ := List.length_eq_one_iff.mp hnonces
    have hsign : (signCalls config [n])[0]? = some ⟨call.signingPackage, n, some r⟩ := by
      simp [signCalls, hr, hcp]
    obtain ⟨call', hcall', -, hrandomizer⟩ := hagree 0 _ hsign
    have hnone' := randomizer_of_rounds hc call' (List.mem_of_getElem? hcall')
    rw [hnone'] at hrandomizer
    cases hrandomizer

/-- A participant agrees with the coordinator in every honest run, except for `redpallas` at the
command line, where they agree in none. -/
theorem rerandomization_agrees_iff (t : Transport C S) (comms : t.ParticipantState)
    {Matched : S.HandshakeState → S.HandshakeState → Prop}
    {Synced : S.TransportState → S.TransportState → Prop} (ht : t.Lawful Matched Synced)
    (h : HonestRun t pargs pargs' commit comms es es' calls config nonces first) :
    Agree first calls (signCalls config nonces) ↔ ¬(t.IsCli ∧ C.id = .pallasBlake2b512) := by
  cases t with
  | cli text =>
    rw [Cli.agree_iff ht h]
    exact ⟨fun hid hcli => hid hcli.2, fun hid heq => hid ⟨trivial, heq⟩⟩
  | socket codec => exact iff_of_true (Socket.agree ht h) fun hcli => hcli.1
  | http lib args => exact iff_of_true (Http.agree ht h) fun hcli => hcli.1

end Agreement

def sampleEntries : Bytes → Option (List (Fin 256 × UInt8) × Bytes)
  | 0 :: message => some ([], message)
  | 1 :: identifier :: commitments :: rest => (sampleEntries rest).map
      fun (entries, message) => ((identifier.toFin, commitments) :: entries, message)
  | _ => none

def packageBytes (package : SigningPackage (Fin 256) UInt8) : Bytes :=
  (package.signingCommitments.toSortedList.flatMap
    fun (identifier, commitments) => [1, UInt8.ofFin identifier, commitments]) ++ 0 :: package.message

def packageOfBytes (bytes : Bytes) : Option (SigningPackage (Fin 256) UInt8) :=
  (sampleEntries bytes).map fun package => ⟨.ofList package.1, package.2⟩

theorem packageOfBytes_packageBytes (package : SigningPackage (Fin 256) UInt8) :
    packageOfBytes (packageBytes package) = some package := by
  have hentries : ∀ entries : List (Fin 256 × UInt8), sampleEntries ((entries.flatMap
      fun (identifier, commitments) => [1, UInt8.ofFin identifier, commitments]) ++
        0 :: package.message) = some (entries, package.message) := by
    intro entries
    induction entries with
    | nil => rfl
    | cons entry entries ih =>
      simp only [List.flatMap_cons, List.cons_append, List.nil_append, sampleEntries, ih]
      rfl
  rw [packageOfBytes, packageBytes, hentries, Option.map_some]
  dsimp only
  rw [Map.ofList_toSortedList]

def byteFromStr (s : String) : Option UInt8 := (hexDecode s).bind List.head?

theorem byteFromStr_hexEncode (b : UInt8) : byteFromStr (hexEncode [b]) = some b := by
  rw [byteFromStr, hexDecode_hexEncode]
  rfl

def sampleText (id : CiphersuiteId) : Text (sampleSuite id) where
  serializeIdentifier identifier := [UInt8.ofFin identifier]
  deserializeIdentifier bytes := bytes.head?.map UInt8.toFin
  deserializeRandomizer := List.head?
  serializeSignature signature := some signature.1
  identifierToString identifier := hexEncode [UInt8.ofFin identifier]
  commitmentsToString commitments := hexEncode [commitments]
  commitmentsFromStr := byteFromStr
  packageToString package := hexEncode (packageBytes package)
  packageFromStr s := (hexDecode s).bind packageOfBytes
  shareToString share := hexEncode [share]
  shareFromStr := byteFromStr

section SampleText

variable (id : CiphersuiteId) (s : String)

theorem sampleText_commitmentsFromStr : (sampleText id).commitmentsFromStr s = byteFromStr s := rfl

theorem sampleText_shareFromStr : (sampleText id).shareFromStr s = byteFromStr s := rfl

theorem sampleText_packageFromStr :
    (sampleText id).packageFromStr s = (hexDecode s).bind packageOfBytes := rfl

theorem sampleText_packageToString (package : (sampleSuite id).Package) :
    (sampleText id).packageToString package = hexEncode (packageBytes package) := rfl

theorem sampleText_lawful (package : (sampleSuite id).Package) :
    (sampleText id).packageFromStr ((sampleText id).packageToString package) = some package := by
  rw [sampleText_packageFromStr, sampleText_packageToString, hexDecode_hexEncode, Option.bind_some]
  exact packageOfBytes_packageBytes package

end SampleText

def sampleCliArgs (id : CiphersuiteId) : Coordinator.ProcessedArgs (sampleSuite id) where
  numSigners := 2
  publicKeyPackage := ({1, 2} : Finset (Fin 256))
  messages := [[1]]
  randomizers := []
  auxMsg := none

def samplePackage (id : CiphersuiteId) : (sampleSuite id).Package :=
  ⟨sampleCommitments 1 2, [1]⟩

theorem sample_readCommitments (id : CiphersuiteId) (identifier commitments : UInt8) (i : ℕ)
    (lists : List (Fin 256) × Map (Fin 256) UInt8)
    (hid : identifier.toFin ∈ ({1, 2} : Finset (Fin 256))) (hnew : identifier.toFin ∉ lists.1) :
    ∃ es, (Cli.readCommitments (sampleText id) ({1, 2} : Finset (Fin 256)) lists i).Yields () es
      (lists.1 ++ [identifier.toFin], lists.2.insert identifier.toFin commitments) () := by
  refine ⟨_, Cli.yields_readCommitments_iff.mpr ⟨hexEncode [identifier], hexEncode [commitments],
    identifier.toFin, commitments, ?_, hid, hnew, ?_, rfl, rfl⟩⟩
  · rw [trim_hexEncode, hexDecode_hexEncode]
    rfl
  · rw [sampleText_commitmentsFromStr]
    exact byteFromStr_hexEncode commitments

theorem sample_writeLineUnwrap (line : String) :
    (Cli.writeLineUnwrap line).Yields () [⟨.writeLine line, some ()⟩] () () := by
  have hquery : (Method.query (F := World) (.writeLine line) : Run Unit _).Yields ()
      [⟨.writeLine line, some ()⟩] (some ()) () := Method.yields_query_iff.mpr ⟨rfl, rfl⟩
  exact Method.yields_bind_iff.mpr ⟨some (), (), _, [], rfl, hquery, .pure () ()⟩

theorem sample_printParticipants (id : CiphersuiteId) (participants : Map (Fin 256) UInt8) :
    ∃ es, (Cli.printParticipants (sampleText id) participants).Yields () es () () := by
  obtain ⟨es, _, _, hall⟩ := Method.exists_yields_foldM
    (g := fun () p => Cli.writeLineUnwrap ((sampleText id).identifierToString p))
    (fun _ _ _ => ⟨_, _, _, sample_writeLineUnwrap _⟩) () participants.sortedKeys ()
  exact ⟨_, .bind (sample_writeLineUnwrap _) hall⟩

theorem sample_readPackageShares (id : CiphersuiteId) (package : (sampleSuite id).Package) :
    ∃ es shares, (Cli.readPackageShares (sampleText id) [] package).Yields () es [shares] () := by
  have hshare : ∀ (m : Map (Fin 256) UInt8) (p : Fin 256), ∃ es,
      (Cli.readShare (sampleText id) m p).Yields () es (m.insert p 3) () := by
    intro m p
    have hline : Outcome.okOr Failure.malformed ((sampleText id).shareFromStr (hexEncode [3])) =
        .ok (3 : UInt8) := by
      rw [sampleText_shareFromStr]
      exact Outcome.okOr_eq_ok_iff.mpr (byteFromStr_hexEncode 3)
    exact ⟨_, .bind (a := ()) (yields_writeLine_iff.mpr ⟨rfl, rfl⟩) (.bind (a := hexEncode [3])
      (yields_readLine_iff.mpr ⟨rfl, rfl⟩)
      (.bind (Method.yields_lift_iff.mpr ⟨rfl, hline, rfl⟩) (.pure _ ())))⟩
  obtain ⟨es, shares, _, hall⟩ := Method.exists_yields_foldM
    (g := Cli.readShare (sampleText id)) (fun m p _ => ⟨_, _, _, (hshare m p).choose_spec⟩) ∅
    package.signingCommitments.sortedKeys ()
  exact ⟨_, shares, .bind (sample_writeLineUnwrap _) (.bind hall (.pure _ ()))⟩

theorem sample_coordinator (id : CiphersuiteId) : ∃ es shares,
    (Coordinator.rounds (Cli.coordinatorComms (sampleText id)) (sampleCliArgs id)).Yields () es
      [⟨samplePackage id, shares, none⟩] () := by
  obtain ⟨es₁, h₁⟩ := sample_readCommitments id 1 7 1 ([], ∅) (by decide) (by decide)
  obtain ⟨es₂, h₂⟩ := sample_readCommitments id 2 8 2
    ([1], (∅ : Map (Fin 256) UInt8).insert 1 7) (by decide) (by decide)
  obtain ⟨es₃, h₃⟩ := sample_printParticipants id (sampleCommitments 1 2)
  obtain ⟨es₄, shares, h₄⟩ := sample_readPackageShares id (samplePackage id)
  have hread : (Cli.readMessageCommitments (sampleText id) ({1, 2} : Finset (Fin 256)) 2 [] 0).Yields ()
      _ [sampleCommitments 1 2] () :=
    .bind (.foldM_cons h₁ (.foldM_cons h₂ .foldM_nil)) (.bind h₃ (.pure _ ()))
  have hcommitments : (commitmentsCall (Cli.coordinatorComms (sampleText id))
      (sampleCliArgs id)).Yields () _ [sampleCommitments 1 2] () := .foldM_cons hread .foldM_nil
  have hsend : ((Cli.coordinatorComms (sampleText id)).sendSigningPackageAndGetSignatureShares
      [samplePackage id] none none).Yields () _ [shares] () := .foldM_cons h₄ .foldM_nil
  exact ⟨_, shares, .bind hcommitments (.bind (a := [samplePackage id])
    (Method.yields_lift_iff.mpr ⟨rfl, rfl, rfl⟩) (.bind hsend (.pure _ ())))⟩

def sampleDraws (id : CiphersuiteId) : Draws (sampleSuite id) := fun _ => ((4 : UInt8), (7 : UInt8))

theorem sample_participant (id : CiphersuiteId) {expected : Bool}
    (hexpected : rerandomized (sampleSuite id) = .ok expected) :
    ∃ es, (Participant.receiveConfig (Cli.participantComms (sampleText id)) ⟨(1 : Fin 256)⟩
      (sampleDraws id)).Yields () es
        (⟨[samplePackage id], [], if expected then [(9 : UInt8)] else []⟩, [(4 : UInt8)]) () ∧
      (linesRead es)[0]? = some ((sampleText id).packageToString (samplePackage id)) := by
  have hline : ∀ line : String, (writeLine line : Run Unit Unit).Yields ()
      [⟨.writeLine line, some ()⟩] () () := fun line => yields_writeLine_iff.mpr ⟨rfl, rfl⟩
  have hread : ∀ line : String, (readLine : Run Unit String).Yields ()
      [⟨.readLine, some line⟩] line () := fun line => yields_readLine_iff.mpr ⟨rfl, rfl⟩
  have hprint : (Cli.printValues (sampleText id) (7 : UInt8)).Yields () _ () () :=
    .bind (hline _) (.bind (hline _) (.bind (hline _) (.bind (hline _) (hline _))))
  have hpackage : Outcome.okOr Failure.malformed ((sampleText id).packageFromStr
      (trim ((sampleText id).packageToString (samplePackage id)))) = .ok (samplePackage id) := by
    rw [sampleText_packageToString, trim_hexEncode, ← sampleText_packageToString, sampleText_lawful]
    rfl
  cases expected with
  | false =>
    refine ⟨_, .bind (.pure 1 ()) (.bind (Method.yields_lift_iff.mpr ⟨rfl, hexpected, rfl⟩)
      (.bind (.bind hprint (.bind (hline _) (.bind (hread _)
        (.bind (Method.yields_lift_iff.mpr ⟨rfl, hpackage, rfl⟩) (.pure _ ()))))) (.pure _ ()))), rfl⟩
  | true =>
    have hunwrap : (Cli.readLineUnwrap).Yields () [⟨.readLine, some (hexEncode [9])⟩]
        (hexEncode [9]) () := by
      have hquery : (Method.query (F := World) .readLine : Run Unit _).Yields ()
          [⟨.readLine, some (hexEncode [9])⟩] (some (hexEncode [9])) () :=
        Method.yields_query_iff.mpr ⟨rfl, rfl⟩
      exact Method.yields_bind_iff.mpr ⟨_, (), _, [], rfl, hquery, .pure (hexEncode [9]) ()⟩
    have hrandomizer : Outcome.okOr Failure.malformed
        ((hexDecode (trim (hexEncode [9]))).bind (sampleText id).deserializeRandomizer) =
          .ok (9 : UInt8) := by
      rw [trim_hexEncode, hexDecode_hexEncode]
      rfl
    have hask : (Cli.readRandomizer (sampleText id)).Yields () _ (9 : UInt8) () :=
      .bind (hline _) (.bind hunwrap (Method.yields_lift_iff.mpr ⟨rfl, hrandomizer, rfl⟩))
    refine ⟨_, .bind (.pure 1 ()) (.bind (Method.yields_lift_iff.mpr ⟨rfl, hexpected, rfl⟩)
      (.bind (.bind hprint (.bind (hline _) (.bind (hread _)
        (.bind (Method.yields_lift_iff.mpr ⟨rfl, hpackage, rfl⟩) (.bind hask (.pure _ ())))))) (.pure _ ()))),
      rfl⟩

theorem sample_honestRun (id : CiphersuiteId) {expected : Bool}
    (hexpected : rerandomized (sampleSuite id) = .ok expected) : ∃ es es' shares,
    HonestRun (S := Exchange.numberedSnow) (.cli (sampleText id)) (sampleCliArgs id)
      ⟨(1 : Fin 256)⟩ (sampleDraws id) () es es' [⟨samplePackage id, shares, none⟩]
      ⟨[samplePackage id], [], if expected then [(9 : UInt8)] else []⟩ [(4 : UInt8)] 0 := by
  obtain ⟨es, shares, hcoordinator⟩ := sample_coordinator id
  obtain ⟨es', hparticipant, hfirst⟩ := sample_participant id hexpected
  refine ⟨es, es', shares, .inl rfl, ⟨(), hcoordinator⟩, ⟨(), hparticipant⟩, _, _, rfl, hfirst, ?_⟩
  rw [sampleText_packageToString]
  exact trim_hexEncode _

theorem rerandomization_agrees_sample : ∃ shares,
    Agree 0 [⟨samplePackage .ed25519Sha512, shares, none⟩]
      (signCalls ⟨[samplePackage .ed25519Sha512], [], []⟩ [(4 : UInt8)]) := by
  obtain ⟨es, es', shares, hrun⟩ := sample_honestRun .ed25519Sha512 rfl
  have hlawful : Transport.Lawful (S := Exchange.numberedSnow) (fun _ _ => True) (fun _ _ => True)
      (.cli (sampleText .ed25519Sha512)) := sampleText_lawful .ed25519Sha512
  refine ⟨shares, (rerandomization_agrees_iff _ () hlawful hrun).mpr fun h => ?_⟩
  cases h.2

/-- The coordinator has no randomizers, and the participant asks its user for one. -/
theorem redpallas_disagrees : ∃ es es' shares,
    HonestRun (S := Exchange.numberedSnow) (.cli (sampleText .pallasBlake2b512))
      (sampleCliArgs .pallasBlake2b512) ⟨(1 : Fin 256)⟩ (sampleDraws .pallasBlake2b512) () es es'
      [⟨samplePackage .pallasBlake2b512, shares, none⟩]
      ⟨[samplePackage .pallasBlake2b512], [], [(9 : UInt8)]⟩ [(4 : UInt8)] 0 ∧
    ¬Agree 0 [⟨samplePackage .pallasBlake2b512, shares, none⟩]
      (signCalls ⟨[samplePackage .pallasBlake2b512], [], [(9 : UInt8)]⟩ [(4 : UInt8)]) := by
  obtain ⟨es, es', shares, hrun⟩ := sample_honestRun .pallasBlake2b512 rfl
  refine ⟨es, es', shares, hrun, fun hagree => ?_⟩
  obtain ⟨call, hcall, -, hrandomizer⟩ := hagree 0 _ rfl
  obtain rfl := Option.some.inj hcall
  cases hrandomizer

end FrostTools.Signing
