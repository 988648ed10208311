import FrostTools.Client.Exchange
import FrostTools.Signing.Cli
import FrostTools.Signing.Http

namespace FrostTools.Signing
open Client

inductive Transport (C : Ciphersuite) (S : Snow) where
  | cli (text : Text C)
  | socket (codec : MessageCodec C)
  | http (lib : HttpLibrary C) (args : Http.Coordinator.Args C)

namespace Transport

variable {C : Ciphersuite} {S : Snow}

@[reducible] def State : Transport C S → Type
  | .cli _ => Unit
  | .socket _ => Socket.Endpoints C
  | .http _ _ => Http.Coordinator.HTTPComms C S

def comms : (t : Transport C S) → Coordinator.Comms C t.State
  | .cli text => Cli.coordinatorComms text
  | .socket codec => Socket.coordinatorComms codec
  | .http lib _ => Http.Coordinator.comms lib

def start (pargs : Coordinator.ProcessedArgs C) : (t : Transport C S) → t.State
  | .cli _ => ()
  | .socket _ => ∅
  | .http _ args => .new pargs args

end Transport

variable {C : Ciphersuite} {S : Snow} {es : List World.Event}

/-- The call of `get_signing_commitments` in `coordinator`. -/
def commitmentsCall {σ : Type} (comms : Coordinator.Comms C σ)
    (pargs : Coordinator.ProcessedArgs C) : Run σ (List (Map C.Identifier C.SigningCommitments)) :=
  comms.getSigningCommitments pargs.publicKeyPackage pargs.numSigners pargs.messages.length

/-- For every message there are the commitments of as many signers as requested, and every
signing package has them. -/
structure CountsSigners (pargs : Coordinator.ProcessedArgs C)
    (commitments : List (Map C.Identifier C.SigningCommitments)) : Prop where
  messages : commitments.length = pargs.messages.length
  signers : ∀ m ∈ commitments, m.len = pargs.numSigners.toNat
  packages : ∀ packages, signingPackages commitments pargs.messages = .ok packages →
    ∀ package ∈ packages, package.signingCommitments.len = pargs.numSigners.toNat

theorem CountsSigners.of_maps {pargs : Coordinator.ProcessedArgs C}
    {commitments : List (Map C.Identifier C.SigningCommitments)}
    (hlen : commitments.length = pargs.messages.length)
    (h : ∀ m ∈ commitments, m.len = pargs.numSigners.toNat) : CountsSigners pargs commitments where
  messages := hlen
  signers := h
  packages packages hpackages package hmem := by
    obtain ⟨⟨m, i⟩, hm, hpackage⟩ := Outcome.exists_of_mem_mapM hpackages hmem
    dsimp only at hpackage
    split at hpackage
    · obtain rfl := Outcome.ok.inj hpackage
      exact h m (List.fst_mem_of_mem_zipIdx hm)
    · cases hpackage

namespace Cli

variable {text : Text C} {publicKeyPackage : C.PublicKeyPackage}

theorem validate_eq_ok_iff {id : C.Identifier} {idList : List C.Identifier} {u : Unit} :
    validate id publicKeyPackage idList = .ok u ↔
      id ∈ C.verifyingShares publicKeyPackage ∧ id ∉ idList := by
  rw [validate, Outcome.ite_err_eq_ok_iff, Outcome.ite_err_eq_ok_iff]
  simp

theorem yields_readCommitments_iff
    {lists lists' : List C.Identifier × Map C.Identifier C.SigningCommitments} {i : ℕ}
    {s s' : Unit} :
    (readCommitments text publicKeyPackage lists i).Yields s es lists' s' ↔
      ∃ identifierInput commitmentsInput id commitments,
        (hexDecode (trim identifierInput)).bind text.deserializeIdentifier = some id ∧
        id ∈ C.verifyingShares publicKeyPackage ∧ id ∉ lists.1 ∧
        text.commitmentsFromStr commitmentsInput = some commitments ∧
        lists' = (lists.1 ++ [id], lists.2.insert id commitments) ∧
        es =
          [⟨.writeLine ("Identifier for participant " ++ toString i ++ " (hex encoded): "), some ()⟩,
            ⟨.readLine, some identifierInput⟩,
            ⟨.writeLine ("Please enter JSON encoded commitments for participant " ++
              hexIdentifier text id ++ ":"), some ()⟩,
            ⟨.readLine, some commitmentsInput⟩] := by
  simp [readCommitments, readIdentifier, validate_eq_ok_iff]
  constructor
  · rintro ⟨id, commitmentsInput, identifierInput, rfl, hid, hnew, commitments, hc, rfl⟩
    exact ⟨identifierInput, commitmentsInput, id, hid, hnew.1, hnew.2, commitments, hc, rfl, rfl⟩
  · rintro ⟨identifierInput, commitmentsInput, id, hid, hmem, hnew, commitments, hc, rfl, rfl⟩
    exact ⟨id, commitmentsInput, identifierInput, rfl, hid, ⟨hmem, hnew⟩, commitments, hc, rfl⟩

/-- The participants read so far are `n` distinct ones, and each has commitments. -/
def Distinct (n : ℕ) (lists : List C.Identifier × Map C.Identifier C.SigningCommitments) : Prop :=
  lists.1.length = n ∧ lists.1.Nodup ∧ lists.2.keys = lists.1.toFinset

theorem Distinct.readCommitments {n i : ℕ} {s s' : Unit}
    {lists lists' : List C.Identifier × Map C.Identifier C.SigningCommitments}
    (h : Distinct n lists)
    (hread : (readCommitments text publicKeyPackage lists i).Yields s es lists' s') :
    Distinct (n + 1) lists' := by
  obtain ⟨_, _, id, commitments, -, -, hnew, -, rfl, -⟩ := yields_readCommitments_iff.mp hread
  obtain ⟨hlen, hnodup, hkeys⟩ := h
  refine ⟨by rw [List.length_append, hlen, List.length_singleton], ?_, ?_⟩
  · apply List.nodup_append.mpr
    refine ⟨hnodup, List.nodup_singleton id, fun a ha b hb => ?_⟩
    rw [List.mem_singleton.mp hb]
    rintro rfl
    exact hnew ha
  · rw [Map.keys_insert, hkeys, List.toFinset_append, Finset.union_comm]
    rfl

theorem len_readMessageCommitments {numParticipants : UInt16} {i : ℕ} {s s' : Unit}
    {commitments commitments' : List (Map C.Identifier C.SigningCommitments)}
    (h : (readMessageCommitments text publicKeyPackage numParticipants commitments i).Yields s es
      commitments' s') :
    ∃ m, m.len = numParticipants.toNat ∧ commitments' = commitments ++ [m] := by
  simp only [readMessageCommitments, Method.yields_bind_iff, Method.yields_pure_iff] at h
  obtain ⟨lists, s₁, es₁, es₂, -, hread, -, -, -, -, -, -, -, rfl, -⟩ := h
  have hdistinct := hread.foldM_invariant (P := fun n _ lists _ => Distinct n lists)
    ⟨rfl, List.nodup_nil, rfl⟩ fun n _ lists _ i _ lists' _ hn hturn => hn.readCommitments hturn
  obtain ⟨hlen, hnodup, hkeys⟩ := hdistinct
  refine ⟨lists.2, ?_, rfl⟩
  rw [Map.len, hkeys, List.toFinset_card_of_nodup hnodup, hlen, List.length_range']

theorem countsSigners {pargs : Coordinator.ProcessedArgs C} {s s' : Unit}
    {commitments : List (Map C.Identifier C.SigningCommitments)}
    (h : (commitmentsCall (coordinatorComms text) pargs).Yields s es commitments s') :
    CountsSigners pargs commitments := by
  have hall := Method.Yields.foldM_invariant h
    (P := fun n _ commitments _ => commitments.length = n ∧
      ∀ m ∈ commitments, m.len = pargs.numSigners.toNat)
    ⟨rfl, fun m hm => absurd hm List.not_mem_nil⟩ ?_
  · rw [List.length_range] at hall
    exact .of_maps hall.1 hall.2
  · rintro n _ commitments _ i _ commitments' _ ⟨hlen, hmem⟩ hturn
    obtain ⟨m, hm, rfl⟩ := len_readMessageCommitments hturn
    refine ⟨by rw [List.length_append, hlen, List.length_singleton], fun m' hm' => ?_⟩
    rcases List.mem_append.mp hm' with hold | hnew
    · exact hmem m' hold
    · rw [List.mem_singleton.mp hnew, hm]

end Cli

namespace Socket

variable {codec : MessageCodec C}

def receivedIdentifier (codec : MessageCodec C) : World.Event → Option C.Identifier
  | ⟨.socketRecv, some (_, data)⟩ =>
    match codec.fromSlice data with
    | some (.identifiedCommitments identifier _) => some identifier
    | _ => none
  | _ => none

def receivedIdentifiers (codec : MessageCodec C) (es : List World.Event) : List C.Identifier :=
  es.filterMap (receivedIdentifier codec)

theorem yields_recvCommitments_iff {m m' : Map C.Identifier C.SigningCommitments} {i : ℕ}
    {s s' : Endpoints C} : (recvCommitments codec m i).Yields s es m' s' ↔
      ∃ endpoint data identifier commitments,
        codec.fromSlice data = some (.identifiedCommitments identifier commitments) ∧
        es = [⟨.socketRecv, some (endpoint, data)⟩] ∧ m' = m.insert identifier commitments ∧
        s' = s.insert identifier endpoint := by
  rw [recvCommitments, Method.yields_bind_iff]
  constructor
  · rintro ⟨⟨endpoint, message⟩, s₁, es₁, es₂, rfl, hrecv, h⟩
    obtain ⟨data, hdata, rfl, rfl⟩ := yields_recv_iff.mp hrecv
    cases message with
    | identifiedCommitments identifier commitments =>
      simp only [Method.yields_bind_iff, Method.yields_modify_iff, Method.yields_pure_iff] at h
      obtain ⟨-, s₂, _, _, rfl, ⟨rfl, rfl⟩, rfl, rfl, rfl⟩ := h
      exact ⟨endpoint, data, identifier, commitments, hdata, rfl, rfl, rfl⟩
    | signingPackageAndRandomizer _ _ => exact absurd h Method.not_yields_fail
    | signatureShare _ => exact absurd h Method.not_yields_fail
  · rintro ⟨endpoint, data, identifier, commitments, hdata, rfl, rfl, rfl⟩
    refine ⟨(endpoint, .identifiedCommitments identifier commitments), s, _, [], rfl,
      yields_recv_iff.mpr ⟨data, hdata, rfl, rfl⟩, ?_⟩
    simp

/-- The map holds commitments of the identifiers received, of which there are `n`. -/
def Collects (codec : MessageCodec C) (n : ℕ) (es : List World.Event)
    (m : Map C.Identifier C.SigningCommitments) : Prop :=
  (receivedIdentifiers codec es).length = n ∧ m.keys = (receivedIdentifiers codec es).toFinset

theorem Collects.recvCommitments {n i : ℕ} {es es' : List World.Event} {s s' : Endpoints C}
    {m m' : Map C.Identifier C.SigningCommitments} (h : Collects codec n es m)
    (hrecv : (recvCommitments codec m i).Yields s es' m' s') :
    Collects codec (n + 1) (es ++ es') m' := by
  obtain ⟨endpoint, data, identifier, commitments, hdata, rfl, rfl, -⟩ :=
    yields_recvCommitments_iff.mp hrecv
  have hnew : receivedIdentifiers codec (es ++ [⟨.socketRecv, some (endpoint, data)⟩]) =
      receivedIdentifiers codec es ++ [identifier] := by
    simp [receivedIdentifiers, receivedIdentifier, hdata]
  refine ⟨by rw [hnew, List.length_append, h.1, List.length_singleton], ?_⟩
  rw [hnew, Map.keys_insert, h.2, List.toFinset_append, Finset.union_comm]
  rfl

/-- There are enough commitments exactly when no identifier was received twice. -/
theorem countsSigners_iff {pargs : Coordinator.ProcessedArgs C} {s s' : Endpoints C}
    {commitments : List (Map C.Identifier C.SigningCommitments)}
    (h : (commitmentsCall (coordinatorComms codec) pargs).Yields s es commitments s') :
    CountsSigners pargs commitments ↔ (receivedIdentifiers codec es).Nodup := by
  unfold commitmentsCall coordinatorComms at h
  dsimp only at h
  split_ifs at h with hone
  · exact absurd h Method.not_yields_fail
  simp only [Method.yields_bind_iff, Method.yields_modify_iff, Method.yields_pure_iff] at h
  obtain ⟨-, s₁, _, _, rfl, ⟨rfl, rfl⟩, m, s₂, es₁, _, rfl, hrecv, rfl, rfl, rfl⟩ := h
  rw [List.nil_append, List.append_nil]
  obtain ⟨hlen, hkeys⟩ := hrecv.foldM_invariant (P := fun n es m _ => Collects codec n es m)
    ⟨rfl, rfl⟩ fun n es m _ i es' m' _ hn hturn => hn.recvCommitments hturn
  rw [List.length_range] at hlen
  have hcard : m.len = pargs.numSigners.toNat ↔ (receivedIdentifiers codec es₁).Nodup := by
    rw [Map.len, hkeys, ← hlen]
    exact Multiset.toFinset_card_eq_card_iff_nodup
  rw [← hcard]
  constructor
  · intro hcounts
    exact hcounts.signers m List.mem_cons_self
  · intro hm
    refine .of_maps (by rw [not_not.mp hone, List.length_singleton]) fun m' hm' => ?_
    rw [List.mem_singleton.mp hm', hm]

end Socket

namespace Http.Coordinator

open Session CoordinatorSessionState

variable {lib : HttpLibrary C} {cipher cipher' : Cipher S} {state state' : State C}

def Received (lib : HttpLibrary C) (args : CoordinatorSessionStateArgs)
    (signers : Map PublicKey C.Identifier) (state : State C) : Prop :=
  ∃ msgs, state = (session lib.decoder args signers msgs).1

theorem Received.recvBatch {args : CoordinatorSessionStateArgs}
    {signers : Map PublicKey C.Identifier} (h : Received lib args signers state) (msgs : List Msg) :
    Received lib args signers (recvBatch lib (cipher, state) msgs).2.2 := by
  induction msgs generalizing cipher state with
  | nil => exact h
  | cons msg msgs ih =>
    unfold Coordinator.recvBatch
    split
    · exact h
    · exact h
    · next plain cipher₁ _ =>
      have hrecv : Received lib args signers (state.recv lib.decoder plain).2 := by
        obtain ⟨received, rfl⟩ := h
        refine ⟨received ++ [plain], ?_⟩
        rw [session, session, recvAll_append]
        rfl
      split
      · next heq => rwa [heq] at hrecv
      · next heq => rwa [heq] at hrecv
      · next heq =>
        rw [heq] at hrecv
        exact ih hrecv

theorem hasCommitments_phase (h : state.hasCommitments = true) : state.phase ≠ 0 := by
  cases state with
  | waitingForCommitments _ _ _ => cases h
  | waitingForSignatureShares _ _ _ _ => exact Nat.one_ne_zero
  | signatureSharesReady _ _ => cases h

theorem countsSigners {pargs : Coordinator.ProcessedArgs C} {args : Args C}
    {s' : HTTPComms C S} {commitments : List (Map C.Identifier C.SigningCommitments)}
    (hpos : 1 ≤ pargs.numSigners.toNat)
    (h : (commitmentsCall (comms lib) pargs).Yields (.new pargs args) es commitments s') :
    CountsSigners pargs commitments := by
  obtain ⟨_, _, _, cipher, cipher', comms', pubkeys, -, es₂, -, -, hreceive, hcommitments, -⟩ :=
    yields_getSigningCommitments h
  have hbatch : ∀ (r r' : Cipher S × State C) msgs,
      Received lib ⟨pargs.messages.length, pargs.numSigners.toNat⟩ args.signers r.2 →
      Coordinator.recvBatch lib r msgs = (.ok (), r') →
      Received lib ⟨pargs.messages.length, pargs.numSigners.toNat⟩ args.signers r'.2 := by
    rintro ⟨cipher, state⟩ r' msgs hr hrecv
    have hafter : Received lib ⟨pargs.messages.length, pargs.numSigners.toNat⟩ args.signers
        (Coordinator.recvBatch lib (cipher, state) msgs).2.2 := Received.recvBatch hr msgs
    rwa [hrecv] at hafter
  obtain ⟨hhas, -, ⟨msgs, hstate⟩, -⟩ := yields_receiveUntil hreceive ⟨[], rfl⟩ hbatch
  have hsound := session_sound lib.decoder pargs.messages.length pargs.numSigners.toNat hpos
    args.signers msgs
  dsimp only at hstate
  rw [hstate] at hhas hcommitments
  obtain ⟨maps, hmaps, hlen, hentry⟩ := hsound.commitments hhas
  obtain ⟨rfl, -⟩ := Prod.mk.inj (Outcome.ok.inj (hmaps.symm.trans hcommitments))
  have hleft := hsound.leaves_iff.mp (hasCommitments_phase hhas)
  refine .of_maps hlen fun m hm => ?_
  obtain ⟨i, hi, rfl⟩ := List.mem_iff_getElem.mp hm
  obtain ⟨m', hm', hkeys, -⟩ := hentry i (hlen ▸ hi)
  rw [List.getElem?_eq_getElem hi] at hm'
  rw [Option.some.inj hm', Map.len, hkeys, hleft]

end Http.Coordinator

/-- No identifier is in two of the commitments messages that were received; only the messages on
a socket carry identifiers that nobody checks. -/
def Transport.ReceivesDistinct (es : List World.Event) : Transport C S → Prop
  | .socket codec => (Socket.receivedIdentifiers codec es).Nodup
  | .cli _ | .http _ _ => True

/-- When `get_signing_commitments` succeeds, it has the commitments of the requested number of
signers exactly when the messages received on a socket have distinct identifiers. -/
theorem counts_signers_iff (t : Transport C S) (pargs : Coordinator.ProcessedArgs C)
    (hpos : 1 ≤ pargs.numSigners.toNat)
    {commitments : List (Map C.Identifier C.SigningCommitments)} {s' : t.State}
    (h : (commitmentsCall t.comms pargs).Yields (t.start pargs) es commitments s') :
    CountsSigners pargs commitments ↔ t.ReceivesDistinct es := by
  cases t with
  | cli text => exact iff_of_true (Cli.countsSigners h) trivial
  | socket codec => exact Socket.countsSigners_iff h
  | http lib args => exact iff_of_true (Http.Coordinator.countsSigners hpos h) trivial

def sampleCommitmentsCodec : MessageCodec (sampleSuite .ed25519Sha512) where
  toVec
    | .identifiedCommitments identifier commitments => [UInt8.ofFin identifier, commitments]
    | _ => []
  fromSlice
    | [identifier, commitments] => some (.identifiedCommitments identifier.toFin commitments)
    | _ => none

def sampleArgs : Coordinator.ProcessedArgs (sampleSuite .ed25519Sha512) where
  numSigners := 2
  publicKeyPackage := (∅ : Finset (Fin 256))
  messages := [[1]]
  randomizers := []
  auxMsg := none

def sampleEvents (identifier identifier' : UInt8) : List World.Event :=
  [⟨.socketRecv, some (1, [identifier, 7])⟩, ⟨.socketRecv, some (2, [identifier', 8])⟩]

def sampleCommitments (identifier identifier' : UInt8) : Map (Fin 256) UInt8 :=
  ((∅ : Map (Fin 256) UInt8).insert identifier.toFin 7).insert identifier'.toFin 8

theorem sampleEvents_yields (identifier identifier' : UInt8) :
    (commitmentsCall (Socket.coordinatorComms sampleCommitmentsCodec) sampleArgs).Yields ∅
      (sampleEvents identifier identifier')
      [sampleCommitments identifier identifier']
      (((∅ : Map (Fin 256) Endpoint).insert identifier.toFin 1).insert identifier'.toFin 2) := by
  have hrecv : ∀ (endpoint : Endpoint) (i c : UInt8) (m : Map (Fin 256) UInt8)
      (s : Map (Fin 256) Endpoint) (n : ℕ),
      (Socket.recvCommitments sampleCommitmentsCodec m n).Yields s
        [⟨.socketRecv, some (endpoint, [i, c])⟩] (m.insert i.toFin c) (s.insert i.toFin endpoint) :=
    fun endpoint i c m s n =>
      Socket.yields_recvCommitments_iff.mpr ⟨endpoint, [i, c], i.toFin, c, rfl, rfl, rfl, rfl⟩
  change Method.Yields (do
    Method.modify fun _ => ∅
    let signingCommitments ← Method.foldM (Socket.recvCommitments sampleCommitmentsCodec) ∅ [0, 1]
    pure [signingCommitments]) _ _ _ _
  refine Method.yields_bind_iff.mpr ⟨(), ∅, [], _, rfl, Method.yields_modify_iff.mpr ⟨rfl, rfl⟩, ?_⟩
  refine Method.yields_bind_iff.mpr ⟨_, _, sampleEvents identifier identifier', [],
    (List.append_nil _).symm, ?_, Method.yields_pure_iff.mpr ⟨rfl, rfl, rfl⟩⟩
  refine Method.yields_foldM_cons_iff.mpr ⟨_, _, _, _, rfl, hrecv 1 identifier 7 _ _ 0, ?_⟩
  exact Method.yields_foldM_cons_iff.mpr
    ⟨_, _, _, [], rfl, hrecv 2 identifier' 8 _ _ 1, Method.yields_foldM_nil_iff.mpr ⟨rfl, rfl, rfl⟩⟩

theorem counts_signers_sample : CountsSigners sampleArgs [sampleCommitments 1 2] :=
  (counts_signers_iff (S := Exchange.numberedSnow) (.socket sampleCommitmentsCodec) sampleArgs
    (by decide) (sampleEvents_yields 1 2)).mpr
      (show ([1, 2] : List (Fin 256)).Nodup from by decide)

/-- Both messages carry the identifier `1`, so there are the commitments of one signer only. -/
theorem repeated_identifier :
    (∃ s', (commitmentsCall (Socket.coordinatorComms sampleCommitmentsCodec) sampleArgs).Yields ∅
      (sampleEvents 1 1) [sampleCommitments 1 1] s') ∧
        ¬CountsSigners sampleArgs [sampleCommitments 1 1] := by
  refine ⟨⟨_, sampleEvents_yields 1 1⟩, fun h => ?_⟩
  have hlen := h.signers _ List.mem_cons_self
  revert hlen
  decide

end FrostTools.Signing
