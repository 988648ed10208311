import FrostTools.Lib.Environment
import FrostTools.Lib.Hub
import FrostTools.Signing.Socket

/-!
# The parties of a signing session over sockets

A coordinator and its participants, whose connections are up before anything is sent. A
participant gets one message only, so that its own channel is left out.
-/

namespace FrostTools.Signing.Socket
open Client

/-- The capacity of the channel between the listener and the coordinator. -/
def capacity : ℕ := 2000

structure Setup (C : Ciphersuite) where
  codec : MessageCodec C
  publicKeyPackage : C.PublicKeyPackage
  message : Bytes
  randomizer : Option C.Randomizer
  signers : Finset C.Identifier
  keyPackage : C.Identifier → C.KeyPackage
  commit : C.Identifier → Draws C
  endpoint : C.Identifier → Endpoint
  /-- The endpoint of the coordinator at each participant. -/
  server : C.Identifier → Endpoint
  codec_lawful : ∀ message, codec.fromSlice (codec.toVec message) = some message
  signers_nonempty : signers.Nonempty
  signers_fit : signers.card ≤ capacity
  identifier_keyPackage : ∀ k ∈ signers, C.identifier (keyPackage k) = k
  endpoint_injective : Function.Injective endpoint
  ciphersuite : C.id ≠ .other

namespace Setup

variable {C : Ciphersuite} (D : Setup C)

def pargs : Coordinator.ProcessedArgs C where
  numSigners := D.signers.card.toUInt16
  publicKeyPackage := D.publicKeyPackage
  messages := [D.message]
  randomizers := D.randomizer.toList
  auxMsg := none

abbrev Signer := { k // k ∈ D.signers }

/-- The coordinator is `none`. -/
abbrev Party := Option D.Signer

def Result : D.Party → Type
  | none => Outcome Failure (List C.Signature) × Endpoints C
  | some _ => Outcome Failure Unit × Endpoint

def programs : (i : D.Party) → Program World (D.Result i)
  | none => Coordinator.coordinator (coordinatorComms D.codec) D.pargs ∅
  | some k => Participant.participant (participantComms D.codec) ⟨D.keyPackage k⟩ (D.commit k)
      (D.server k)

def all : List D.Signer :=
  (D.signers.sort (· ≤ ·)).attachWith (· ∈ D.signers) fun _ => (Finset.mem_sort _).mp

def valuesOf {V : Type} (value : C.Identifier → Option V) (got : List D.Signer) : Map C.Identifier V :=
  Map.ofList (got.filterMap fun k : D.Signer => (value k).map (k.1, ·))

def collect {V : Type} (value : C.Identifier → Option V) : Map C.Identifier V :=
  D.valuesOf value D.all

def nonces (k : C.Identifier) : C.SigningNonces := (D.commit k 0).1

def commitments (k : C.Identifier) : C.SigningCommitments := (D.commit k 0).2

def package : C.Package where
  signingCommitments := D.collect fun k => some (D.commitments k)
  message := D.message

def share (k : C.Identifier) : Option C.SignatureShare :=
  C.signWith D.randomizer D.package (D.nonces k) (D.keyPackage k)

def signature : Option C.Signature :=
  C.aggregateWith D.randomizer D.package (D.collect D.share) D.publicKeyPackage

/-- What a participant sends: its commitments, and then its share. -/
def uplink (k : D.Signer) : ℕ → Bytes
  | 0 => D.codec.toVec (.identifiedCommitments k (D.commitments k))
  | _ => ((D.share k).map fun share => D.codec.toVec (.signatureShare share)).getD []

def downlink (_ : D.Signer) (_ : ℕ) : Bytes :=
  D.codec.toVec (.signingPackageAndRandomizer D.package D.randomizer)

/-- Completeness of the ciphersuite for the key packages of the signers: shares for one package of
theirs, each with the nonces of its commitments there, are computed and aggregate to a signature
that verifies. -/
structure Complete (Matches : C.SigningNonces → C.SigningCommitments → Prop)
    (Verifies : Option C.Randomizer → Bytes → C.Signature → Prop) : Prop where
  commit : ∀ k ∈ D.signers, Matches (D.nonces k) (D.commitments k)
  sign : ∀ randomizer (package : C.Package), package.signingCommitments.keys = D.signers →
    (∀ k ∈ D.signers, ∃ nonces commitments,
      package.signingCommitments.lookup k = some commitments ∧ Matches nonces commitments) →
    ∀ k ∈ D.signers, ∀ nonces commitments,
      package.signingCommitments.lookup k = some commitments → Matches nonces commitments →
      ∃ share, C.signWith randomizer package nonces (D.keyPackage k) = some share
  aggregate : ∀ randomizer (package : C.Package) (shares : Map C.Identifier C.SignatureShare),
    package.signingCommitments.keys = D.signers → shares.keys = D.signers →
    (∀ k ∈ D.signers, ∃ nonces commitments share,
      package.signingCommitments.lookup k = some commitments ∧ Matches nonces commitments ∧
      shares.lookup k = some share ∧
      C.signWith randomizer package nonces (D.keyPackage k) = some share) →
    ∃ signature, C.aggregateWith randomizer package shares D.publicKeyPackage = some signature ∧
      Verifies randomizer package.message signature

section Values

variable {D} {V : Type} {value : C.Identifier → Option V} {got : List D.Signer}

theorem mem_all (k : D.Signer) : k ∈ D.all := by
  rw [all, List.mem_attachWith, Finset.mem_sort]
  exact k.2

theorem nodup_all : D.all.Nodup := by
  refine List.Nodup.of_map Subtype.val ?_
  rw [all, List.attachWith_map_subtype_val]
  exact Finset.sort_nodup _ _

theorem lookup_valuesOf_iff {k : C.Identifier} {v : V} :
    (D.valuesOf value got).lookup k = some v ↔ (∃ i ∈ got, i.1 = k) ∧ value k = some v := by
  have hmem : ∀ k v, (k, v) ∈ got.filterMap (fun i : D.Signer => (value i).map (i.1, ·)) ↔
      (∃ i ∈ got, i.1 = k) ∧ value k = some v := by
    intro k v
    simp only [List.mem_filterMap, Option.map_eq_some_iff, Prod.mk.injEq]
    constructor
    · rintro ⟨i, hi, _, hv, rfl, rfl⟩
      exact ⟨⟨i, hi, rfl⟩, hv⟩
    · rintro ⟨⟨i, hi, rfl⟩, hv⟩
      exact ⟨i, hi, v, hv, rfl, rfl⟩
  rw [valuesOf, Map.lookup_ofList_of_unique, hmem]
  intro k v v' hv hv'
  exact Option.some.inj (((hmem k v).mp hv).2.symm.trans ((hmem k v').mp hv').2)

theorem valuesOf_append_singleton {k : D.Signer} {v : V} (hv : value k = some v) :
    D.valuesOf value (got ++ [k]) = (D.valuesOf value got).insert k v := by
  rw [valuesOf, List.filterMap_append, List.filterMap_cons_some (by rw [hv]; rfl),
    List.filterMap_nil, Map.ofList_append_singleton]
  rfl

theorem valuesOf_some_append_singleton (f : C.Identifier → V) (k : D.Signer) :
    D.valuesOf (fun k => some (f k)) (got ++ [k]) =
      (D.valuesOf (fun k => some (f k)) got).insert k (f k) := valuesOf_append_singleton rfl

/-- The order of the signers does not matter. -/
theorem valuesOf_eq_collect (hgot : ∀ k, k ∈ got) : D.valuesOf value got = D.collect value := by
  ext k v
  rw [collect, lookup_valuesOf_iff, lookup_valuesOf_iff]
  refine and_congr_left fun _ => exists_congr fun i => and_congr_left fun _ => ?_
  exact iff_of_true (hgot i) (mem_all i)

theorem lookup_collect_iff {k : C.Identifier} {v : V} :
    (D.collect value).lookup k = some v ↔ k ∈ D.signers ∧ value k = some v := by
  rw [collect, lookup_valuesOf_iff]
  refine and_congr_left fun _ => ⟨?_, fun hk => ⟨⟨k, hk⟩, mem_all _, rfl⟩⟩
  rintro ⟨i, -, rfl⟩
  exact i.2

theorem keys_collect (hvalue : ∀ k ∈ D.signers, ∃ v, value k = some v) :
    (D.collect value).keys = D.signers := by
  ext k
  simp only [Map.mem_keys_iff, lookup_collect_iff]
  constructor
  · rintro ⟨v, hk, -⟩
    exact hk
  · intro hk
    obtain ⟨v, hv⟩ := hvalue k hk
    exact ⟨v, hk, hv⟩

theorem keys_package : D.package.signingCommitments.keys = D.signers :=
  keys_collect fun _ _ => ⟨_, rfl⟩

theorem len_package : D.package.signingCommitments.len = D.signers.card := by
  rw [Map.len, keys_package]

theorem sortedKeys_package : D.package.signingCommitments.sortedKeys = D.all.map Subtype.val := by
  rw [Map.sortedKeys_eq_sort, keys_package, all, List.attachWith_map_subtype_val]

theorem identifierOf_collect (k : D.Signer) :
    identifierOf (D.collect fun k => some (D.endpoint k)) (D.endpoint k) = some k.1 := by
  have hmem : (k.1, D.endpoint k) ∈ (D.collect fun k => some (D.endpoint k)).toSortedList :=
    Map.mem_toSortedList.mpr (lookup_collect_iff.mpr ⟨k.2, rfl⟩)
  cases hfind : (D.collect fun k => some (D.endpoint k)).toSortedList.find? fun x =>
      x.2 = D.endpoint k with
  | none =>
    have hnone := List.find?_eq_none.mp hfind _ hmem
    exact absurd (decide_eq_true rfl) hnone
  | some found =>
    have hendpoint : found.2 = D.endpoint k := by simpa using List.find?_some hfind
    have hlookup := Map.mem_toSortedList.mp (List.mem_of_find?_eq_some hfind)
    have hkey : found.1 = k := by
      apply D.endpoint_injective
      rw [← hendpoint]
      exact Option.some.inj (lookup_collect_iff.mp hlookup).2
    rw [identifierOf]
    change (List.find? (fun x => decide (x.2 = D.endpoint k)) _).map Prod.fst = _
    rw [hfind, Option.map_some, hkey]

end Values

section Complete

variable {D} {Matches : C.SigningNonces → C.SigningCommitments → Prop}
  {Verifies : Option C.Randomizer → Bytes → C.Signature → Prop}
  (hcomplete : D.Complete Matches Verifies)
include hcomplete

theorem exists_share {k : C.Identifier} (hk : k ∈ D.signers) : ∃ share, D.share k = some share :=
  hcomplete.sign _ _ keys_package
    (fun k hk => ⟨_, _, lookup_collect_iff.mpr ⟨hk, rfl⟩, hcomplete.commit k hk⟩) k hk _ _
    (lookup_collect_iff.mpr ⟨hk, rfl⟩) (hcomplete.commit k hk)

theorem exists_signature : ∃ signature, D.signature = some signature ∧
    Verifies D.randomizer D.message signature := by
  refine hcomplete.aggregate D.randomizer D.package (D.collect D.share) keys_package
    (keys_collect fun k hk => exists_share hcomplete hk) fun k hk => ?_
  obtain ⟨share, hshare⟩ := exists_share hcomplete hk
  exact ⟨_, _, share, lookup_collect_iff.mpr ⟨hk, rfl⟩, hcomplete.commit k hk,
    lookup_collect_iff.mpr ⟨hk, hshare⟩, hshare⟩

end Complete

end Setup

variable {C : Ciphersuite} (D : Setup C)

inductive Answers (h : Hub D.Signer Bytes) :
    (i : D.Party) → (q : Query) → q.Answer → Hub D.Signer Bytes → Prop
  | recv {k : D.Signer} {data : Bytes} {h' : Hub D.Signer Bytes} : h.Takes (k, data) h' →
    Answers h none .socketRecv (some (D.endpoint k, data)) h'
  | closed : h.inbox = [] → h.listening = false → Answers h none .socketRecv none h
  | post {k : D.Signer} {data : Bytes} :
    Answers h none (.socketSend (D.endpoint k) data) () (h.post k data)
  | fetch {k : D.Signer} {data : Bytes} {h' : Hub D.Signer Bytes} : h.Fetches k data h' →
    Answers h (some k) .socketRecv (some (D.server k, data)) h'
  | send {k : D.Signer} {data : Bytes} :
    Answers h (some k) (.socketSend (D.server k) data) () (h.send k data)
  | eprintln {k : D.Signer} {line : String} : Answers h (some k) (.eprintln line) () h
  /-- The user types any line, or none can be read. -/
  | readLine {k : D.Signer} {line : Option String} : Answers h (some k) .readLine line h

/-- Messages arrive at any time, also while a party waits. -/
def connections : Environment World D.Party (Hub D.Signer Bytes) where
  idles h h' := h.Arrives capacity h'
  works h _ _ h' := h.Arrives capacity h'
  answers := Answers D

abbrev Setup.State : Type 1 := Hub D.Signer Bytes × ((i : D.Party) → Program World (D.Result i))

def Setup.network : TransitionSystem D.State (Move World D.Party) :=
  (connections D).system .new D.programs

end FrostTools.Signing.Socket
