import FrostTools.Signing.Connections

namespace FrostTools.Signing.Socket
open Client Setup

variable {C : Ciphersuite}

inductive Coordinator.Phase (σ : Type) where
  | receiving (round : ℕ) (got : List σ)
  | sending (k : σ) (left : List σ)
  | finished

def Coordinator.Phase.send {σ : Type} : List σ → Coordinator.Phase σ
  | [] => .receiving 1 []
  | k :: left => .sending k left

inductive Participant.Phase where
  | committing
  | waiting
  | asking
  | confirming
  | sharing
  | finished
  | refused
  deriving DecidableEq

namespace Setup

variable (D : Setup C)

def received (round : ℕ) (got : List D.Signer) : Coordinator.Phase D.Signer :=
  if got.length = D.signers.card then if round = 0 then .send D.all else .finished
  else .receiving round got

def coordinatorRole : Role World (Coordinator.Phase D.Signer) where
  next
    | .receiving round got => some ⟨.socketRecv, fun answer φ => ∃ k ∉ got,
        answer = some (D.endpoint k, D.uplink k round) ∧ φ = D.received round (got ++ [k])⟩
    | .sending k left => some ⟨.socketSend (D.endpoint k) (D.downlink k 0), fun _ φ => φ = .send left⟩
    | .finished => none

def participantRole (k : D.Signer) : Role World Participant.Phase where
  next
    | .committing => some ⟨.socketSend (D.server k) (D.uplink k 0), fun _ φ => φ = .waiting⟩
    | .waiting => some ⟨.socketRecv, fun answer φ =>
        answer = some (D.server k, D.downlink k 0) ∧ φ = .asking⟩
    | .asking => some ⟨.eprintln (question D.message), fun _ φ => φ = .confirming⟩
    | .confirming => some ⟨.readLine, fun answer φ =>
        φ = if answer.map trim = some "y" then .sharing else .refused⟩
    | .sharing => some ⟨.socketSend (D.server k) (D.uplink k 1), fun _ φ => φ = .finished⟩
    | .finished => none
    | .refused => none

end Setup

inductive Participant.Refused : Failure → Prop
  | cancelled : Refused (.eyre "signing cancelled")
  | unread : Refused .io

variable {D : Setup C}

section All

variable {got : List D.Signer}

/-- A list of different signers is complete at the number of signers. -/
theorem length_eq_iff (hnodup : got.Nodup) : got.length = D.signers.card ↔ ∀ k, k ∈ got := by
  have hcard : Fintype.card D.Signer = D.signers.card := Fintype.card_coe _
  rw [← hcard, ← List.toFinset_card_of_nodup hnodup, Finset.card_eq_iff_eq_univ,
    Finset.eq_univ_iff_forall]
  exact forall_congr' fun k => List.mem_toFinset

theorem received_of_length (h : got.length = D.signers.card) :
    D.received 0 got = .send D.all ∧ D.received 1 got = .finished :=
  ⟨(if_pos h).trans (if_pos rfl), (if_pos h).trans (if_neg Nat.one_ne_zero)⟩

theorem received_of_length_lt {round : ℕ} (h : got.length < D.signers.card) :
    D.received round got = .receiving round got := if_neg (Nat.ne_of_lt h)

theorem received_nil (round : ℕ) : D.received round [] = .receiving round [] :=
  received_of_length_lt (Finset.card_pos.mpr D.signers_nonempty)

theorem nodup_snoc {k : D.Signer} (hnodup : got.Nodup) (hk : k ∉ got) : (got ++ [k]).Nodup :=
  List.nodup_append.mpr ⟨hnodup, List.nodup_singleton k, fun _ ha _ hb hab =>
    hk (List.mem_singleton.mp hb ▸ hab ▸ ha)⟩

end All

theorem uplink_one {k : D.Signer} {share : C.SignatureShare} (h : D.share k = some share) :
    D.uplink k 1 = D.codec.toVec (.signatureShare share) := by
  change ((D.share k).map _).getD [] = _
  rw [h]
  rfl

section Plays

variable {σ Φ : Type} {R : Role World Φ} {E : Failure → Φ → Prop} {s : σ} {φ : Φ}

theorem plays_recv {missing : String} {Q : Endpoint × Message C → σ → Φ → Prop}
    {leads : Option (Endpoint × Bytes) → Φ → Prop} (hnext : R.next φ = some ⟨.socketRecv, leads⟩)
    (hleads : ∀ answer φ', leads answer φ' → ∃ endpoint message,
      answer = some (endpoint, D.codec.toVec message) ∧ Q (endpoint, message) s φ') :
    Method.Plays R E Q (recv D.codec missing) s φ := by
  apply Method.Plays.bind
  refine .query hnext fun answer φ' h => ?_
  obtain ⟨endpoint, message, rfl, hQ⟩ := hleads answer φ' h
  apply Method.Plays.bind
  refine .lift rfl ?_
  apply Method.Plays.bind
  exact .lift (Outcome.okOr_eq_ok_iff.mpr (D.codec_lawful message)) (.pure hQ)

theorem plays_send {endpoint : Endpoint} {message : Message C} {leads : Unit → Φ → Prop}
    {Q : Unit → σ → Φ → Prop}
    (hnext : R.next φ = some ⟨.socketSend endpoint (D.codec.toVec message), leads⟩)
    (hleads : ∀ φ', leads () φ' → Q () s φ') :
    Method.Plays R E Q (send D.codec endpoint message) s φ := by
  apply Method.Plays.bind
  exact .query hnext fun _ φ' h => .pure (hleads φ' h)

end Plays

namespace Coordinator

variable {E : Failure → Phase D.Signer → Prop}

theorem plays_getSigningCommitments {s : Endpoints C}
    {Q : List (Map C.Identifier C.SigningCommitments) → Endpoints C → Phase D.Signer → Prop}
    (hdone : Q [D.collect fun k => some (D.commitments k)] (D.collect fun k => some (D.endpoint k))
      (.send D.all)) :
    ((coordinatorComms D.codec).getSigningCommitments D.publicKeyPackage D.pargs.numSigners 1).Plays
      D.coordinatorRole E Q s (.receiving 0 []) := by
  have hnumSigners : D.pargs.numSigners.toNat = D.signers.card :=
    UInt16.toNat_ofNat_of_lt (Nat.lt_of_le_of_lt D.signers_fit (by decide))
  unfold coordinatorComms
  dsimp only
  rw [if_neg (not_not.mpr rfl), hnumSigners]
  apply Method.Plays.bind
  refine .modify ?_
  apply Method.Plays.bind
  -- what is left of the loop is counted by the signers that are not heard yet
  refine Method.Plays.foldM (fun acc left s φ => ∃ got : List D.Signer, got.Nodup ∧
    got.length + left.length = D.signers.card ∧
    acc = D.valuesOf (fun k => some (D.commitments k)) got ∧
    s = D.valuesOf (fun k => some (D.endpoint k)) got ∧ φ = D.received 0 got) ?_ ?_ ?_
  · exact ⟨[], List.nodup_nil, by simp, rfl, rfl, (received_nil 0).symm⟩
  · rintro _ _ _ ⟨got, hnodup, hlength, rfl, rfl, rfl⟩
    have hall := (length_eq_iff hnodup).mp hlength
    rw [valuesOf_eq_collect hall, valuesOf_eq_collect hall, (received_of_length hlength).1]
    exact .pure hdone
  · rintro _ i left _ _ ⟨got, hnodup, hlength, rfl, rfl, rfl⟩
    rw [List.length_cons] at hlength
    rw [received_of_length_lt (by omega)]
    apply Method.Plays.bind
    refine plays_recv rfl ?_
    rintro _ _ ⟨k, hk, rfl, rfl⟩
    refine ⟨D.endpoint k, .identifiedCommitments k (D.commitments k), rfl, ?_⟩
    apply Method.Plays.bind
    refine .modify (.pure ⟨got ++ [k], nodup_snoc hnodup hk, ?_, ?_, ?_, rfl⟩)
    · rw [List.length_append, List.length_singleton]
      omega
    · exact (valuesOf_some_append_singleton D.commitments k).symm
    · exact (valuesOf_some_append_singleton D.endpoint k).symm

theorem plays_sendPackages {endpoints : Endpoints C} {Q : Unit → Endpoints C → Phase D.Signer → Prop}
    (hendpoints : endpoints = D.collect fun k => some (D.endpoint k))
    (hdone : Q () endpoints (.receiving 1 [])) :
    (Method.foldM (fun () identifier => do
        let endpoint ← Method.lift (.okOr (.eyre "unknown identifier") (endpoints.lookup identifier))
        send D.codec endpoint (.signingPackageAndRandomizer D.package D.randomizer))
      () D.package.signingCommitments.sortedKeys : Run (Endpoints C) Unit).Plays D.coordinatorRole E Q
      endpoints (.send D.all) := by
  rw [sortedKeys_package]
  refine Method.Plays.foldM (fun _ identifiers s φ => s = endpoints ∧ ∃ left : List D.Signer,
    identifiers = left.map Subtype.val ∧ φ = .send left) ?_ ?_ ?_
  · exact ⟨rfl, D.all, rfl, rfl⟩
  · rintro _ _ _ ⟨rfl, left, hnil, rfl⟩
    obtain rfl := List.map_eq_nil_iff.mp hnil.symm
    exact hdone
  · rintro _ identifier identifiers s _ ⟨rfl, left, hcons, rfl⟩
    obtain ⟨k, left, rfl, rfl, rfl⟩ := List.map_eq_cons_iff.mp hcons.symm
    have hlookup : s.lookup k = some (D.endpoint k) := by
      rw [hendpoints]
      exact lookup_collect_iff.mpr ⟨k.2, rfl⟩
    apply Method.Plays.bind
    refine .lift (Outcome.okOr_eq_ok_iff.mpr hlookup) ?_
    refine plays_send rfl ?_
    rintro _ rfl
    exact ⟨rfl, left, rfl, rfl⟩

variable {Matches : C.SigningNonces → C.SigningCommitments → Prop}
  {Verifies : Option C.Randomizer → Bytes → C.Signature → Prop}
  (hcomplete : D.Complete Matches Verifies)
include hcomplete

theorem plays_recvShares {endpoints : Endpoints C}
    {Q : Map C.Identifier C.SignatureShare → Endpoints C → Phase D.Signer → Prop}
    (hendpoints : endpoints = D.collect fun k => some (D.endpoint k))
    (hdone : Q (D.collect D.share) endpoints .finished) :
    (Method.foldM (recvShare D.codec) ∅ (List.range D.signers.card)).Plays D.coordinatorRole E Q
      endpoints (.receiving 1 []) := by
  refine Method.Plays.foldM (fun acc left s φ => ∃ got : List D.Signer, got.Nodup ∧
    got.length + left.length = D.signers.card ∧ acc = D.valuesOf D.share got ∧ s = endpoints ∧
    φ = D.received 1 got) ?_ ?_ ?_
  · exact ⟨[], List.nodup_nil, by simp, rfl, rfl, (received_nil 1).symm⟩
  · rintro _ _ _ ⟨got, hnodup, hlength, rfl, rfl, rfl⟩
    rw [valuesOf_eq_collect ((length_eq_iff hnodup).mp hlength), (received_of_length hlength).2]
    exact hdone
  · rintro _ i left _ _ ⟨got, hnodup, hlength, rfl, rfl, rfl⟩
    rw [List.length_cons] at hlength
    rw [received_of_length_lt (by omega)]
    apply Method.Plays.bind
    refine plays_recv rfl ?_
    rintro _ _ ⟨k, hk, rfl, rfl⟩
    obtain ⟨share, hshare⟩ := exists_share hcomplete k.2
    refine ⟨D.endpoint k, .signatureShare share, by rw [uplink_one hshare], ?_⟩
    apply Method.Plays.bind
    refine .read ?_
    apply Method.Plays.bind
    refine .lift (a := k.1) (Outcome.okOr_eq_ok_iff.mpr ?_) (.pure ⟨got ++ [k],
      nodup_snoc hnodup hk, ?_, ?_, rfl, rfl⟩)
    · rw [hendpoints, identifierOf_collect]
    · rw [List.length_append, List.length_singleton]
      omega
    · exact (valuesOf_append_singleton hshare).symm

theorem plays_sendSigningPackage {endpoints : Endpoints C}
    {Q : List (Map C.Identifier C.SignatureShare) → Endpoints C → Phase D.Signer → Prop}
    (hendpoints : endpoints = D.collect fun k => some (D.endpoint k))
    (hdone : Q [D.collect D.share] endpoints .finished) :
    (sendSigningPackage D.codec [D.package]
      (if D.pargs.randomizers = [] then none else some D.pargs.randomizers) none).Plays
      D.coordinatorRole E Q endpoints (.send D.all) := by
  have hrandomizer : onlyRandomizer (if D.pargs.randomizers = [] then none else
      some D.pargs.randomizers) = .ok D.randomizer := by
    rw [pargs]
    cases D.randomizer <;> rfl
  apply Method.Plays.bind
  refine .lift hrandomizer ?_
  apply Method.Plays.bind
  refine .read ?_
  apply Method.Plays.bind
  refine plays_sendPackages hendpoints ?_
  apply Method.Plays.bind
  rw [len_package]
  exact plays_recvShares hcomplete hendpoints (.pure hdone)

theorem plays_coordinator : (D.programs none).Plays D.coordinatorRole
    (fun r φ => φ = .finished ∧ ∃ signature, D.signature = some signature ∧ r.1 = .ok [signature])
    (.receiving 0 []) := by
  obtain ⟨signature, hsignature, -⟩ := exists_signature hcomplete
  have hrandomizers : ¬(D.pargs.randomizers ≠ [] ∧
      D.pargs.randomizers.length ≠ D.pargs.messages.length) := by
    rw [pargs]
    cases D.randomizer <;> simp
  have hcalls : (aggregateCalls (if D.pargs.randomizers = [] then none else some D.pargs.randomizers)
      [D.package] [D.collect D.share]).mapM (fun call => C.aggregateWith call.randomizer
        call.signingPackage call.signatureShares D.pargs.publicKeyPackage) = some [signature] := by
    rw [Setup.signature] at hsignature
    cases hr : D.randomizer with
    | _ =>
      rw [hr] at hsignature
      simp [pargs, hr, aggregateCalls, hsignature]
  have hplays : (Signing.Coordinator.doit (coordinatorComms D.codec) D.pargs).Plays D.coordinatorRole
      (fun _ _ => False) (fun signatures _ φ => φ = .finished ∧ signatures = [signature]) ∅
      (.receiving 0 []) := by
    unfold Signing.Coordinator.doit Signing.Coordinator.rounds
    apply Method.Plays.bind
    apply Method.Plays.bind
    refine plays_getSigningCommitments ?_
    apply Method.Plays.bind
    refine .lift (a := [D.package]) rfl ?_
    apply Method.Plays.bind
    refine plays_sendSigningPackage hcomplete rfl (.pure ?_)
    apply Method.Plays.bind
    refine .lift (Outcome.okOr_eq_ok_iff.mpr hcalls) ?_
    apply Method.Plays.bind
    exact .pure (.pure ⟨rfl, rfl⟩)
  have hrun : D.programs none = (Signing.Coordinator.doit (coordinatorComms D.codec) D.pargs ∅).bind _ :=
    congrFun (if_neg hrandomizers) _
  rw [hrun]
  apply Program.Plays.bind
  refine Program.Plays.mono hplays ?_
  rintro ⟨o, s⟩ φ (⟨signatures, rfl, hφ, rfl⟩ | ⟨e, -, hfalse⟩)
  · exact ⟨hφ, signature, hsignature, rfl⟩
  · exact hfalse.elim

end Coordinator

namespace Participant

variable {k : D.Signer}

def config (D : Setup C) : SendSigningPackageArgs C where
  signingPackage := [D.package]
  auxMsg := []
  randomizer := D.randomizer.toList

/-- Only the user makes a participant fail. -/
abbrev Fails (e : Failure) (φ : Phase) : Prop := φ = .refused ∧ Refused e

theorem plays_getSigningPackage {Q : SendSigningPackageArgs C → Endpoint → Phase → Prop}
    (hdone : Q (config D) (D.server k) .asking) :
    (getSigningPackage D.codec [D.commitments k] k.1).Plays (D.participantRole k) Fails Q (D.server k)
      .committing := by
  apply Method.Plays.bind
  refine .read ?_
  apply Method.Plays.bind
  refine plays_send rfl ?_
  rintro _ rfl
  apply Method.Plays.bind
  refine plays_recv rfl ?_
  rintro _ _ ⟨rfl, rfl⟩
  exact ⟨_, .signingPackageAndRandomizer D.package D.randomizer, rfl, .pure hdone⟩

/-- The participant goes on only if the user confirms. -/
theorem plays_confirmMessage {Q : Unit → Endpoint → Phase → Prop} {s : Endpoint}
    (hdone : Q () s .sharing) :
    (confirmMessage (config D)).Plays (D.participantRole k) Fails Q s .asking := by
  apply Method.Plays.bind
  apply Method.Plays.bind
  refine .query rfl ?_
  rintro _ _ rfl
  apply Method.Plays.bind
  apply Method.Plays.bind
  refine .query rfl ?_
  rintro answer _ rfl
  cases answer with
  | none => exact .fail ⟨rfl, .unread⟩
  | some line =>
    refine .lift rfl ?_
    by_cases hline : trim line = "y"
    · rw [if_neg (not_not.mpr hline), Option.map_some, if_pos (congrArg some hline)]
      exact .pure (.pure hdone)
    · rw [if_pos hline, Option.map_some, if_neg fun h => hline (Option.some.inj h)]
      exact .fail ⟨rfl, .cancelled⟩

theorem plays_participant {Matches : C.SigningNonces → C.SigningCommitments → Prop}
    {Verifies : Option C.Randomizer → Bytes → C.Signature → Prop}
    (hcomplete : D.Complete Matches Verifies) (k : D.Signer) :
    (D.programs (some k)).Plays (D.participantRole k) (fun r φ =>
      (φ = .finished ∧ r.1 = .ok ()) ∨ φ = .refused ∧ ∃ e, r.1 = .err e ∧ Refused e)
      .committing := by
  obtain ⟨share, hshare⟩ := exists_share hcomplete k.2
  obtain ⟨rerandomized, hrerandomized⟩ : ∃ b, rerandomized C = .ok b := by
    unfold Signing.rerandomized
    cases hid : C.id with
    | other => exact absurd hid D.ciphersuite
    | _ => exact ⟨_, rfl⟩
  have hidentifier : C.identifier (D.keyPackage k) = k := D.identifier_keyPackage k k.2
  have hgenerate : generateSignature (config D) (D.keyPackage k) [D.nonces k] = .ok [share] := by
    rw [Setup.share] at hshare
    cases hr : D.randomizer with
    | _ =>
      rw [hr] at hshare
      simp [generateSignature, signCalls, config, hr, hshare]
  have hplays : (Signing.Participant.participant (participantComms D.codec) ⟨D.keyPackage k⟩
      (D.commit k)).Plays (D.participantRole k) Fails (fun _ _ φ => φ = .finished) (D.server k)
      .committing := by
    unfold Signing.Participant.participant Signing.Participant.receiveConfig
    apply Method.Plays.bind
    apply Method.Plays.bind
    refine .pure ?_
    apply Method.Plays.bind
    refine .lift hrerandomized ?_
    rw [hidentifier]
    apply Method.Plays.bind
    refine plays_getSigningPackage (.pure ?_)
    apply Method.Plays.bind
    refine plays_confirmMessage ?_
    apply Method.Plays.bind
    refine .lift hgenerate ?_
    apply Method.Plays.bind
    refine .read (plays_send (by rw [← uplink_one hshare]; rfl) ?_)
    rintro _ rfl
    rfl
  refine Program.Plays.mono hplays ?_
  rintro ⟨o, s⟩ φ (⟨_, rfl, hφ⟩ | ⟨e, rfl, hφ, he⟩)
  · exact .inl ⟨hφ, rfl⟩
  · exact .inr ⟨hφ, e, rfl, he⟩

end Participant
end FrostTools.Signing.Socket
