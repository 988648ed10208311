import FrostTools.Client.Attendance
import FrostTools.Signing.Http

namespace FrostTools.Signing.Http
open Api Client

structure Setup (C : Ciphersuite) where
  lib : HttpLibrary C
  coordinator : PublicKey
  pargs : Coordinator.ProcessedArgs C
  signers : Map PublicKey C.Identifier
  keyPackage : PublicKey → C.KeyPackage
  commit : PublicKey → Draws C
  /-- The address books. -/
  getter : PublicKey → PublicKey → Option PublicKey
  /-- The session ids that the users specify. -/
  sessionId : PublicKey → Option Uuid

section Values

variable {α β : Type} {f : α → Option β} {l : List α}

theorem mapM_eq_some_filterMap (h : ∀ a ∈ l, ∃ b, f a = some b) :
    l.mapM f = some (l.filterMap f) := by
  induction l with
  | nil => rfl
  | cons a l ih =>
    obtain ⟨b, hb⟩ := h a List.mem_cons_self
    rw [List.mapM_cons, hb, ih fun a' ha' => h a' (List.mem_cons_of_mem a ha'),
      List.filterMap_cons_some hb]
    rfl

theorem getElem?_filterMap (h : ∀ a ∈ l, ∃ b, f a = some b) (i : ℕ) :
    (l.filterMap f)[i]? = l[i]?.bind f := by
  induction l generalizing i with
  | nil => rfl
  | cons a l ih =>
    obtain ⟨b, hb⟩ := h a List.mem_cons_self
    rw [List.filterMap_cons_some hb]
    cases i with
    | zero => exact hb.symm
    | succ i => exact ih (fun a' ha' => h a' (List.mem_cons_of_mem a ha')) i

theorem length_filterMap (h : ∀ a ∈ l, ∃ b, f a = some b) : (l.filterMap f).length = l.length :=
  Session.CoordinatorSessionState.length_of_mapM_eq_some (mapM_eq_some_filterMap h)

end Values

namespace Setup

variable {C : Ciphersuite} (D : Setup C) (S : Snow)

abbrev Signer := { pubkey // pubkey ∈ D.signers.keys }

/-- The coordinator is `none`. -/
abbrev Party := Option D.Signer

def pubkey : D.Party → PublicKey
  | none => D.coordinator
  | some p => p

def Result : D.Party → Type
  | none => Outcome Failure (List C.Signature) × Coordinator.HTTPComms C S
  | some _ => Outcome Failure Unit × Participant.HTTPComms S

def runCoordinator : Program World (Outcome Failure (List C.Signature) × Coordinator.HTTPComms C S) :=
  Coordinator.coordinator (Coordinator.comms D.lib) D.pargs
    (.new D.pargs ⟨D.signers, some D.coordinator, some D.coordinator⟩)

def runParticipant (p : PublicKey) : Program World (Outcome Failure Unit × Participant.HTTPComms S) :=
  Participant.participant (Participant.comms D.lib) ⟨D.keyPackage p⟩ (D.commit p)
    (.new (D.sessionId p) ⟨some p, some p, some (D.getter p)⟩)

def programs : (i : D.Party) → Program World (D.Result S i)
  | none => D.runCoordinator S
  | some p => D.runParticipant S p

def numMessages : ℕ := D.pargs.messages.length

def identifier (p : PublicKey) : C.Identifier := C.identifier (D.keyPackage p)

def nonces (p : PublicKey) (i : ℕ) : C.SigningNonces := (D.commit p i).1

def commitments (p : PublicKey) (i : ℕ) : C.SigningCommitments := (D.commit p i).2

def randomizer (i : ℕ) : Option C.Randomizer := D.pargs.randomizers[i]?

def collect {V : Type} (value : PublicKey → Option V) : Map C.Identifier V :=
  Map.ofList ((D.lib.signersKeys D.signers).filterMap fun p => (value p).map (D.identifier p, ·))

def package (i : ℕ) : C.Package where
  signingCommitments := D.collect fun p => some (D.commitments p i)
  message := D.pargs.messages.getD i []

def share (p : PublicKey) (i : ℕ) : Option C.SignatureShare :=
  C.signWith (D.randomizer i) (D.package i) (D.nonces p i) (D.keyPackage p)

def signature (i : ℕ) : Option C.Signature :=
  C.aggregateWith (D.randomizer i) (D.package i) (D.collect fun p => D.share p i)
    D.pargs.publicKeyPackage

def signatures : List C.Signature := (List.range D.numMessages).filterMap D.signature

def commitmentList (p : PublicKey) : List C.SigningCommitments :=
  (List.range D.numMessages).map (D.commitments p)

def shareList (p : PublicKey) : List C.SignatureShare :=
  (List.range D.numMessages).filterMap (D.share p)

def config : SendSigningPackageArgs C where
  signingPackage := (List.range D.numMessages).map D.package
  auxMsg := D.pargs.auxMsg.getD []
  randomizer := D.pargs.randomizers

/-- What a participant sends: its commitments, and then its shares. -/
def uplink (p : PublicKey) : ℕ → Bytes
  | 0 => D.lib.commitmentsToVec (D.commitmentList p)
  | _ => D.lib.sharesToVec (D.shareList p)

def downlink (_ : ℕ) : Bytes := D.lib.configToVec D.config

/-- The inputs fit together, and the users know the session by its id or not at all. -/
structure Fits (sid : Uuid) : Prop where
  numMessages : 1 ≤ D.numMessages ∧ D.numMessages ≤ 255
  randomizers : D.pargs.randomizers = [] ∨ D.pargs.randomizers.length = D.numMessages
  numSigners : D.pargs.numSigners.toNat = D.signers.len ∧ 1 ≤ D.signers.len
  identifier : ∀ p ∈ D.signers.keys, D.signers.lookup p = some (D.identifier p)
  distinct : ∀ p ∈ D.signers.keys, ∀ p' ∈ D.signers.keys, D.identifier p = D.identifier p' → p = p'
  ciphersuite : C.id ≠ .other
  getter : ∀ p ∈ D.signers.keys, D.getter p D.coordinator = some D.coordinator
  sessionId : ∀ p ∈ D.signers.keys, D.sessionId p = none ∨ D.sessionId p = some sid

/-- The codecs invert each other, and an iteration over a map takes each of its keys once. -/
structure Lawful : Prop where
  commitments : ∀ l, D.lib.decoder.commitments (D.lib.commitmentsToVec l) = some l
  shares : ∀ l, D.lib.decoder.signatureShares (D.lib.sharesToVec l) = some l
  config : D.lib.configFromSlice (D.lib.configToVec D.config) = some D.config
  signersKeys : (D.lib.signersKeys D.signers).Nodup ∧
    ∀ p, p ∈ D.lib.signersKeys D.signers ↔ p ∈ D.signers.keys
  pubkeysKeys : (D.lib.pubkeysKeys D.signers).Nodup ∧
    ∀ p, p ∈ D.lib.pubkeysKeys D.signers ↔ p ∈ D.signers.keys

/-- The keys of the parties sign challenges for the server. -/
def Genuine (verify : Frostd.Verifier) : Prop :=
  ∀ i : D.Party, (D.pubkey i).bytes.length = 32 ∧ ∀ c, ∃ signature,
    D.lib.sign (D.pubkey i) c = some signature ∧ signature.length = 64 ∧
      verify (D.pubkey i) c signature = true

/-- The keys of two clients make a channel, on which the messages fit `MAX_MSG_SIZE`. -/
def Carries {S : Snow} (sender recipient : PublicKey) (n : ℕ) (messages : ℕ → Bytes) : Prop :=
  ∃ h h', S.buildInitiator sender recipient = some h ∧ S.buildResponder recipient sender = some h' ∧
    (Noise.channel S).Carries (fun x => x.length ≤ maxMsgSize) n (.new h) messages

def Connected : Prop :=
  ∀ p ∈ D.signers.keys, Carries (S := S) p D.coordinator 2 (D.uplink p) ∧
    Carries (S := S) D.coordinator p 1 D.downlink

/-- Completeness of the ciphersuite for the key packages of the signers: shares for one package of
theirs, each with the nonces of its commitments there, are computed and aggregate to a signature
that verifies. -/
structure Complete (Matches : C.SigningNonces → C.SigningCommitments → Prop)
    (Verifies : Option C.Randomizer → Bytes → C.Signature → Prop) : Prop where
  commit : ∀ p ∈ D.signers.keys, ∀ i, Matches (D.commit p i).1 (D.commit p i).2
  sign : ∀ randomizer (package : C.Package),
    package.signingCommitments.keys = D.signers.keys.image D.identifier →
    (∀ p ∈ D.signers.keys, ∃ nonces commitments,
      package.signingCommitments.lookup (D.identifier p) = some commitments ∧
      Matches nonces commitments) →
    ∀ p ∈ D.signers.keys, ∀ nonces commitments,
      package.signingCommitments.lookup (D.identifier p) = some commitments →
      Matches nonces commitments →
      ∃ share, C.signWith randomizer package nonces (D.keyPackage p) = some share
  aggregate : ∀ randomizer (package : C.Package) (shares : Map C.Identifier C.SignatureShare),
    package.signingCommitments.keys = D.signers.keys.image D.identifier →
    shares.keys = D.signers.keys.image D.identifier →
    (∀ p ∈ D.signers.keys, ∃ nonces commitments share,
      package.signingCommitments.lookup (D.identifier p) = some commitments ∧
      Matches nonces commitments ∧ shares.lookup (D.identifier p) = some share ∧
      C.signWith randomizer package nonces (D.keyPackage p) = some share) →
    ∃ signature, C.aggregateWith randomizer package shares D.pargs.publicKeyPackage =
      some signature ∧ Verifies randomizer package.message signature

section Derived

variable {D} {sid : Uuid} (hfits : D.Fits sid) (hlawful : D.Lawful)
include hfits hlawful

theorem lookup_collect_iff {V : Type} {value : PublicKey → Option V} {k : C.Identifier} {v : V} :
    (D.collect value).lookup k = some v ↔
      ∃ p ∈ D.signers.keys, D.identifier p = k ∧ value p = some v := by
  have hmem : ∀ k v, (k, v) ∈ (D.lib.signersKeys D.signers).filterMap
      (fun p => (value p).map (D.identifier p, ·)) ↔
      ∃ p ∈ D.signers.keys, D.identifier p = k ∧ value p = some v := by
    intro k v
    simp only [List.mem_filterMap, hlawful.signersKeys.2, Option.map_eq_some_iff,
      Prod.mk.injEq]
    constructor
    · rintro ⟨p, hp, v', hv, rfl, rfl⟩
      exact ⟨p, hp, rfl, hv⟩
    · rintro ⟨p, hp, rfl, hv⟩
      exact ⟨p, hp, v, hv, rfl, rfl⟩
  rw [collect, Map.lookup_ofList_of_unique, hmem]
  intro k v v' hv hv'
  obtain ⟨p, hp, rfl, hp'⟩ := (hmem _ _).mp hv
  obtain ⟨q, hq, heq, hq'⟩ := (hmem _ _).mp hv'
  obtain rfl := hfits.distinct q hq p hp heq
  exact Option.some.inj (hp'.symm.trans hq')

theorem lookup_collect {V : Type} (value : PublicKey → Option V) {p : PublicKey}
    (hp : p ∈ D.signers.keys) : (D.collect value).lookup (D.identifier p) = value p := by
  ext v
  rw [lookup_collect_iff hfits hlawful]
  constructor
  · rintro ⟨q, hq, heq, hv⟩
    rwa [← hfits.distinct q hq p hp heq]
  · exact fun hv => ⟨p, hp, rfl, hv⟩

theorem keys_collect {V : Type} {value : PublicKey → Option V}
    (hvalue : ∀ p ∈ D.signers.keys, ∃ v, value p = some v) :
    (D.collect value).keys = D.signers.keys.image D.identifier := by
  ext k
  rw [Map.mem_keys_iff, Finset.mem_image]
  simp only [lookup_collect_iff hfits hlawful]
  constructor
  · rintro ⟨v, p, hp, heq, -⟩
    exact ⟨p, hp, heq⟩
  · rintro ⟨p, hp, heq⟩
    obtain ⟨v, hv⟩ := hvalue p hp
    exact ⟨v, p, hp, heq, hv⟩

omit hlawful in
theorem lookup_ofList_signers {V : Type} {value : PublicKey → V} {got : List D.Signer}
    {k : C.Identifier} {v : V} :
    (Map.ofList (got.map fun p : D.Signer => (D.identifier p, value p))).lookup k = some v ↔
      ∃ p ∈ got, D.identifier p = k ∧ value p = v := by
  rw [Map.lookup_ofList_of_unique]
  · simp only [List.mem_map, Prod.mk.injEq]
  · simp only [List.mem_map, Prod.mk.injEq]
    rintro k v v' ⟨p, -, rfl, rfl⟩ ⟨q, -, heq, rfl⟩
    rw [Subtype.ext (hfits.distinct q q.2 p p.2 heq)]

theorem transpose_signers {V : Type} {list : PublicKey → List V} {value : PublicKey → ℕ → Option V}
    (hlength : ∀ p ∈ D.signers.keys, (list p).length = D.numMessages)
    (hvalue : ∀ p ∈ D.signers.keys, ∀ i < D.numMessages, (list p)[i]? = value p i)
    {got : List D.Signer} (hgot : ∀ p, p ∈ got) :
    Session.transpose D.numMessages (Map.ofList (got.map fun p : D.Signer => (D.identifier p, list p))) =
      .ok ((List.range D.numMessages).map fun i => D.collect fun p => value p i) := by
  have hmaps : ∀ i ∈ List.range D.numMessages,
      (Map.ofList (got.map fun p : D.Signer => (D.identifier p, list p))).traverse (fun l => l[i]?) =
        some (D.collect fun p => value p i) := by
    intro i hi
    rw [List.mem_range] at hi
    rw [Map.traverse_of_forall]
    · congr 1
      ext k v
      rw [Map.lookup_filterMap, lookup_collect_iff hfits hlawful, Option.bind_eq_some_iff]
      simp only [lookup_ofList_signers hfits]
      constructor
      · rintro ⟨_, ⟨p, -, rfl, rfl⟩, hv⟩
        exact ⟨p, p.2, rfl, by rwa [← hvalue p p.2 i hi]⟩
      · rintro ⟨p, hp, rfl, hv⟩
        exact ⟨_, ⟨⟨p, hp⟩, hgot _, rfl, rfl⟩, by rwa [hvalue p hp i hi]⟩
    · intro k l hl
      obtain ⟨p, -, -, rfl⟩ := (lookup_ofList_signers hfits).mp hl
      rw [List.getElem?_eq_getElem (by rw [hlength p p.2]; exact hi)]
      rfl
  rw [Session.transpose, Session.CoordinatorSessionState.mapM_eq_some_map hmaps]

omit hlawful in
theorem randomizers_cases : (D.pargs.randomizers = [] ∧ ∀ i, D.randomizer i = none) ∨
    ∃ r, D.pargs.randomizers ≠ [] ∧ D.pargs.randomizers = (List.range D.numMessages).map r ∧
      ∀ i ∈ List.range D.numMessages, D.randomizer i = some (r i) := by
  cases hr : D.pargs.randomizers with
  | nil => exact .inl ⟨rfl, fun i => by rw [randomizer, hr]; rfl⟩
  | cons r₀ rs =>
    have hlength : (r₀ :: rs).length = D.numMessages := by
      rw [← hr]
      exact hfits.randomizers.resolve_left (by rw [hr]; exact List.cons_ne_nil _ _)
    refine .inr ⟨fun i => (r₀ :: rs).getD i r₀, List.cons_ne_nil _ _, ?_, fun i hi => ?_⟩
    · refine List.ext_getElem? fun i => ?_
      by_cases hi : i < D.numMessages
      · simp [hi, List.getElem?_eq_getElem (hlength ▸ hi)]
      · rw [List.getElem?_eq_none (by omega), List.getElem?_eq_none (by simpa using hi)]
    · dsimp only
      rw [randomizer, hr, List.getD_eq_getElem?_getD,
        List.getElem?_eq_getElem (hlength ▸ List.mem_range.mp hi)]
      rfl

omit hlawful in
theorem signCalls_config (p : PublicKey) :
    signCalls D.config ((List.range D.numMessages).map (D.nonces p)) =
      (List.range D.numMessages).map fun i => ⟨D.package i, D.nonces p i, D.randomizer i⟩ := by
  unfold signCalls config
  rcases randomizers_cases hfits with ⟨hnil, hnone⟩ | ⟨r, hne, hrs, hsome⟩
  · rw [if_pos hnil, List.zip_map', List.map_map]
    exact List.map_congr_left fun i _ => by rw [hnone]; rfl
  · rw [if_neg hne]
    dsimp only
    rw [hrs, List.zip_map', List.zip_map', List.map_map]
    exact List.map_congr_left fun i hi => by rw [hsome i hi]; rfl

omit hlawful in
theorem aggregateCalls_config (shares : ℕ → Map C.Identifier C.SignatureShare) :
    aggregateCalls (if D.pargs.randomizers = [] then none else some D.pargs.randomizers)
      D.config.signingPackage ((List.range D.numMessages).map shares) =
      (List.range D.numMessages).map fun i => ⟨D.package i, shares i, D.randomizer i⟩ := by
  unfold aggregateCalls config
  rcases randomizers_cases hfits with ⟨hnil, hnone⟩ | ⟨r, hne, hrs, hsome⟩
  · rw [if_pos hnil]
    dsimp only
    rw [List.zip_map', List.map_map]
    exact List.map_congr_left fun i _ => by rw [hnone]; rfl
  · rw [if_neg hne]
    dsimp only
    rw [hrs, List.zip_map', List.zip_map', List.map_map]
    exact List.map_congr_left fun i hi => by rw [hsome i hi]; rfl

omit hfits hlawful in
theorem signingPackages_config :
    signingPackages ((List.range D.numMessages).map fun i =>
      D.collect fun p => some (D.commitments p i)) D.pargs.messages = .ok D.config.signingPackage := by
  have hindex : ((List.range D.numMessages).map fun i =>
      D.collect fun p => some (D.commitments p i)).zipIdx =
        (List.range D.numMessages).map fun i => (D.collect fun p => some (D.commitments p i), i) := by
    refine List.ext_getElem? fun i => ?_
    by_cases hi : i < D.numMessages
    · simp [hi]
    · simp [hi]
  rw [signingPackages, hindex, Outcome.mapM_eq_ok_iff, config]
  rw [List.forall₂_map_left_iff, List.forall₂_map_right_iff, List.forall₂_same]
  intro i hi
  have hmessage := List.getElem?_eq_getElem (l := D.pargs.messages) (List.mem_range.mp hi)
  dsimp only
  rw [hmessage, package, List.getD_eq_getElem?_getD, hmessage]
  rfl

end Derived

section Complete

variable {D} {sid : Uuid} {Matches : C.SigningNonces → C.SigningCommitments → Prop}
  {Verifies : Option C.Randomizer → Bytes → C.Signature → Prop} (hfits : D.Fits sid)
  (hlawful : D.Lawful) (hcomplete : D.Complete Matches Verifies)
include hfits hlawful hcomplete

omit hcomplete in
theorem lookup_package {p : PublicKey} (hp : p ∈ D.signers.keys) (i : ℕ) :
    (D.package i).signingCommitments.lookup (D.identifier p) = some (D.commitments p i) :=
  lookup_collect hfits hlawful _ hp

theorem exists_share {p : PublicKey} (hp : p ∈ D.signers.keys) (i : ℕ) :
    ∃ share, D.share p i = some share :=
  hcomplete.sign _ _ (keys_collect hfits hlawful fun _ _ => ⟨_, rfl⟩)
    (fun _ hp => ⟨_, _, lookup_package hfits hlawful hp i, hcomplete.commit _ hp i⟩) p hp _ _
    (lookup_package hfits hlawful hp i) (hcomplete.commit p hp i)

theorem exists_signature (i : ℕ) : ∃ signature, D.signature i = some signature ∧
    Verifies (D.randomizer i) (D.pargs.messages.getD i []) signature := by
  apply hcomplete.aggregate
  · exact keys_collect hfits hlawful fun p _ => ⟨_, rfl⟩
  · exact keys_collect hfits hlawful fun p hp => exists_share hfits hlawful hcomplete hp i
  · intro p hp
    obtain ⟨share, hshare⟩ := exists_share hfits hlawful hcomplete hp i
    refine ⟨D.nonces p i, D.commitments p i, share, lookup_package hfits hlawful hp i,
      hcomplete.commit p hp i, ?_, hshare⟩
    rw [lookup_collect hfits hlawful _ hp, hshare]

theorem shareList_spec {p : PublicKey} (hp : p ∈ D.signers.keys) :
    (D.shareList p).length = D.numMessages ∧
      ∀ i < D.numMessages, (D.shareList p)[i]? = D.share p i := by
  have hall : ∀ i ∈ List.range D.numMessages, ∃ share, D.share p i = some share :=
    fun i _ => exists_share hfits hlawful hcomplete hp i
  refine ⟨(length_filterMap hall).trans List.length_range, fun i hi => ?_⟩
  rw [shareList, getElem?_filterMap hall, List.getElem?_range hi, Option.bind_some]

theorem generateSignature_config {p : PublicKey} (hp : p ∈ D.signers.keys) :
    generateSignature D.config (D.keyPackage p) ((List.range D.numMessages).map (D.nonces p)) =
      .ok (D.shareList p) := by
  have hlength : D.config.signingPackage.length = D.numMessages := by
    rw [config, List.length_map, List.length_range]
  have hrandomizer : ¬(D.config.randomizer ≠ [] ∧
      D.config.randomizer.length ≠ D.config.signingPackage.length) := by
    rw [hlength]
    exact fun h => h.2 (hfits.randomizers.resolve_left h.1)
  have hnonces : ¬((List.range D.numMessages).map (D.nonces p)).length ≠
      D.config.signingPackage.length := by
    rw [hlength, List.length_map, List.length_range]
    exact fun h => h rfl
  rw [generateSignature, if_neg hnonces, if_neg hrandomizer, signCalls_config hfits, List.mapM_map]
  exact Outcome.okOr_eq_ok_iff.mpr
    (mapM_eq_some_filterMap fun i _ => exists_share hfits hlawful hcomplete hp i)

theorem mapM_aggregateCalls :
    (aggregateCalls (if D.pargs.randomizers = [] then none else some D.pargs.randomizers)
      D.config.signingPackage
      ((List.range D.numMessages).map fun i => D.collect fun p => D.share p i)).mapM (fun call =>
        C.aggregateWith call.randomizer call.signingPackage call.signatureShares
          D.pargs.publicKeyPackage) = some D.signatures := by
  rw [aggregateCalls_config hfits, List.mapM_map]
  exact mapM_eq_some_filterMap fun i _ =>
    (exists_signature hfits hlawful hcomplete i).imp fun _ h => h.1

theorem signatures_spec : D.signatures.length = D.numMessages ∧
    ∀ i < D.numMessages, D.signatures[i]? = D.signature i := by
  have hall : ∀ i ∈ List.range D.numMessages, ∃ signature, D.signature i = some signature :=
    fun i _ => (exists_signature hfits hlawful hcomplete i).imp fun _ h => h.1
  refine ⟨(length_filterMap hall).trans List.length_range, fun i hi => ?_⟩
  rw [signatures, getElem?_filterMap hall, List.getElem?_range hi, Option.bind_some]

end Complete

end Setup
end FrostTools.Signing.Http
