import FrostTools.Dkg.Network
import FrostTools.Signing.ParticipantRole
import FrostTools.Signing.Progress

namespace FrostTools.Signing.Http
open Api Client Frostd Setup

variable {C : Ciphersuite} {D : Setup C} {S : Snow} {verify : Verifier} {sid : Uuid}

namespace Setup

abbrev State (D : Setup C) (S : Snow) : Type 1 :=
  Service D.Party × ((i : D.Party) → Program World (D.Result S i))

/-- The steps after a state. Every user confirms, and no timeout fires. -/
def networkFrom (D : Setup C) (verify : Verifier) (sid : Uuid) (s : D.State S) :
    TransitionSystem (D.State S) (Move World D.Party) :=
  (frostd D.Party verify (.of sid (trim · = "y"))).system s.1 s.2

def network (D : Setup C) (S : Snow) (verify : Verifier) (sid : Uuid) :
    TransitionSystem (D.State S) (Move World D.Party) :=
  D.networkFrom verify sid (.new D.Party, D.programs S)

def Unfailed (s : D.State S) : Prop :=
  ∀ (p : D.Signer) (r : Outcome Failure Unit × Participant.HTTPComms S),
    s.2 (some p) = .done r → r.1 = .ok ()

/-- The parts of signature `i`: message `i` with the commitments that every signer makes for it, and
the shares that the signers make for this package with the nonces of these commitments. -/
structure Aggregates (D : Setup C) (i : ℕ) (package : C.Package)
    (shares : Map C.Identifier C.SignatureShare) (signature : C.Signature) : Prop where
  message : D.pargs.messages[i]? = some package.message
  commitments : ∀ k commitments, package.signingCommitments.lookup k = some commitments ↔
    ∃ p ∈ D.signers.keys, D.identifier p = k ∧ (D.commit p i).2 = commitments
  signed : ∀ p ∈ D.signers.keys, ∃ share,
    C.signWith D.pargs.randomizers[i]? package (D.commit p i).1 (D.keyPackage p) = some share
  collected : ∀ k share, shares.lookup k = some share ↔ ∃ p ∈ D.signers.keys, D.identifier p = k ∧
    C.signWith D.pargs.randomizers[i]? package (D.commit p i).1 (D.keyPackage p) = some share
  aggregated : C.aggregateWith D.pargs.randomizers[i]? package shares D.pargs.publicKeyPackage =
    some signature

variable {Matches : C.SigningNonces → C.SigningCommitments → Prop}
  {Verifies : Option C.Randomizer → Bytes → C.Signature → Prop}

theorem exists_aggregates (hfits : D.Fits sid) (hlawful : D.Lawful)
    (hcomplete : D.Complete Matches Verifies) {i : ℕ} (hi : i < D.numMessages) :
    ∃ package shares signature, D.Aggregates i package shares signature ∧
      D.signatures[i]? = some signature ∧ Verifies D.pargs.randomizers[i]? package.message signature := by
  obtain ⟨signature, hsignature, hverifies⟩ := exists_signature hfits hlawful hcomplete i
  refine ⟨D.package i, D.collect fun p => D.share p i, signature, ⟨?_, ?_, ?_, ?_, hsignature⟩, ?_,
    hverifies⟩
  · rw [package, List.getD_eq_getElem?_getD, List.getElem?_eq_getElem hi]
    rfl
  · intro k commitments
    rw [package, lookup_collect_iff hfits hlawful]
    simp only [Option.some.injEq]
    rfl
  · exact fun p hp => exists_share hfits hlawful hcomplete hp i
  · exact fun k share => lookup_collect_iff hfits hlawful
  · rw [(signatures_spec hfits hlawful hcomplete).2 i hi, hsignature]

end Setup

theorem allPlay_programs {Matches : C.SigningNonces → C.SigningCommitments → Prop}
    {Verifies : Option C.Randomizer → Bytes → C.Signature → Prop} (X : Script D S verify)
    (hfits : D.Fits sid) (hlawful : D.Lawful) (hcomplete : D.Complete Matches Verifies) :
    Environment.AllPlay (X.role sid) (D.Returns S) (D.programs S) start := by
  intro i
  cases i with
  | none => exact Coordinator.plays_coordinator hfits hlawful hcomplete X
  | some p => exact Participant.plays_participant hfits hlawful hcomplete X p

theorem final_of_returns (X : Script D S verify) (i : D.Party) (r : D.Result S i) (φ : D.Phase i)
    (h : D.Returns S i r φ) : (X.role sid i).next φ = none := by
  cases i with
  | none =>
    obtain ⟨rfl, -⟩ := h
    rfl
  | some p =>
    rcases h with ⟨rfl, -⟩ | ⟨⟨t, rfl⟩, -⟩
    · rfl
    · rfl

theorem sum_rank_start : ∑ i, rank i (start (D := D) i) =
    (3 * D.signers.len + 5) + D.signers.len * (2 * D.numMessages + 8) := by
  rw [Fintype.sum_option]
  change _ + ∑ _p : D.Signer, (2 * D.numMessages + 8) = _
  rw [Finset.sum_const, Finset.card_univ, Fintype.card_coe, Nat.nsmul_eq_mul]
  rfl

theorem exists_failed {P : Type} {φ : Participant.Phase P} (h : φ.hasFailed = true) :
    ∃ t, φ = .failed t := by
  cases φ with
  | failed t => exact ⟨t, rfl⟩
  | _ => cases h

section Unfailed

variable {X : Script D S verify} {s : D.State S} {φ : (i : D.Party) → D.Phase i}
  (hplay : Environment.AllPlay (X.role sid) (D.Returns S) s.2 φ)
include hplay

theorem noneFailed_of_unfailed (h : Unfailed s) : NoneFailed φ := by
  intro p
  cases hfailed : Participant.Phase.hasFailed (φ (some p)) with
  | false => rfl
  | true =>
    obtain ⟨t, hφ⟩ := exists_failed hfailed
    obtain ⟨r, hr, hreturns⟩ := (hplay (some p)).exists_done (by rw [hφ]; rfl)
    rcases hreturns with ⟨hfinished, -⟩ | ⟨-, e, herr, -⟩
    · rw [hφ] at hfinished
      cases hfinished
    · have hok := h p r hr
      rw [herr] at hok
      cases hok

theorem unfailed_of_noneFailed (h : NoneFailed φ) : Unfailed s := by
  intro p r hr
  have hreturns := hplay (some p)
  rw [hr] at hreturns
  rcases hreturns with ⟨-, hok⟩ | ⟨⟨t, hfailed⟩, -⟩
  · exact hok
  · have hnone := h p
    rw [hfailed] at hnone
    cases hnone

end Unfailed

theorem Aligned.opened {X : Script D S verify} {s : Service D.Party} {φ : (i : D.Party) → D.Phase i}
    (h : Aligned X sid s φ) (hsession : s.server.session sid ≠ none) :
    X.view (φ none) ≠ .unopened := by
  intro hview
  obtain ⟨record, hattends, hsituation⟩ := h.situation
  rw [hview] at hsituation
  exact hsession (hattends.hosts.session.trans hsituation.1)

/-- The coordinator and the participants in any interleaving. What the coordinator returns is
aligned with the messages, participants only fail when they look for the session before it is
there, and every run is bounded and can go on until all have returned. -/
theorem signing_aligned {Matched : S.HandshakeState → S.HandshakeState → Prop}
    {Synced : S.TransportState → S.TransportState → Prop}
    {Matches : C.SigningNonces → C.SigningCommitments → Prop}
    {Verifies : Option C.Randomizer → Bytes → C.Signature → Prop} (hS : S.InOrder Matched Synced)
    (hfits : D.Fits sid) (hlawful : D.Lawful) (hgenuine : D.Genuine verify)
    (hconnected : D.Connected S) (hcomplete : D.Complete Matches Verifies)
    {ms : List (Move World D.Party)} {s : D.State S} (hrun : (D.network S verify sid).Run ms s) :
    (∀ r : Outcome Failure (List C.Signature) × Coordinator.HTTPComms C S, s.2 none = .done r →
      ∃ signatures, r.1 = .ok signatures ∧ signatures.length = D.pargs.messages.length ∧
        ∀ i < D.pargs.messages.length, ∃ package shares signature,
          D.Aggregates i package shares signature ∧ signatures[i]? = some signature ∧
          Verifies D.pargs.randomizers[i]? package.message signature) ∧
    (∀ (p : D.Signer) (r : Outcome Failure Unit × Participant.HTTPComms S), s.2 (some p) = .done r →
      r.1 = .ok () ∨ ∃ e, r.1 = .err e ∧ Participant.NotFound e) ∧
    (s.1.server.session sid ≠ none → Unfailed s →
      ∀ ms' s', (D.networkFrom verify sid s).Run ms' s' → Unfailed s') ∧
    ms.countP (Move.counts productive) ≤
      (3 * D.signers.len + 5) + D.signers.len * (2 * D.pargs.messages.length + 8) ∧
    (Unfailed s → ∃ ms' s', (D.network S verify sid).Run (ms ++ ms') s' ∧ Unfailed s' ∧
      ∀ i, ∃ r, s'.2 i = .done r) := by
  obtain ⟨X⟩ := exists_script hS hlawful hgenuine hconnected
  have hkeeps := keeps X hfits hlawful
  obtain ⟨φ, haligned, hplay, hrank⟩ := hkeeps.run (aligned_start X sid)
    (allPlay_programs X hfits hlawful hcomplete) hrun
  refine ⟨fun r hr => ?_, fun p r hr => ?_, fun hsession hunfailed ms' s' hrun' => ?_, ?_,
    fun hunfailed => ?_⟩
  · have hreturns := hplay none
    rw [hr] at hreturns
    obtain ⟨-, hok⟩ := hreturns
    exact ⟨D.signatures, hok, (signatures_spec hfits hlawful hcomplete).1, fun i hi =>
      exists_aggregates hfits hlawful hcomplete hi⟩
  · have hreturns := hplay (some p)
    rw [hr] at hreturns
    rcases hreturns with ⟨-, hok⟩ | ⟨-, herr⟩
    · exact .inl hok
    · exact .inr herr
  · obtain ⟨φ', hunderway, hplay', -⟩ := (keeps_underway X hfits hlawful).run
      ⟨haligned, haligned.opened hsession, noneFailed_of_unfailed hplay hunfailed⟩ hplay hrun'
    exact unfailed_of_noneFailed hplay' hunderway.noneFailed
  · rw [sum_rank_start] at hrank
    exact Nat.le_trans (Nat.le_add_left _ _) hrank
  · obtain ⟨ms', s', φ', hrun', -, hplay', hgood, hgoal⟩ := hkeeps.exists_run
      (progress X hfits hlawful) (final_of_returns X) hrun haligned hplay
      (noneFailed_of_unfailed hplay hunfailed)
    refine ⟨ms', s', hrun', unfailed_of_noneFailed hplay' hgood, fun i => ?_⟩
    obtain ⟨r, hr, -⟩ := (hplay' i).exists_done (hgoal i)
    exact ⟨r, hr⟩

def sampleKey (b : UInt8) : PublicKey := ⟨List.replicate 32 b⟩

def sampleIdentifier (b : UInt8) : Fin 256 := b.toFin

def decodeSampleConfig :
    Bytes → Option (SendSigningPackageArgs (sampleSuite .pallasBlake2b512))
  | [] => some ⟨[], [], []⟩
  | commitments₁ :: commitments₂ :: message :: randomizer :: rest =>
    (decodeSampleConfig rest).map fun config =>
      ⟨⟨.ofList [(sampleIdentifier 1, commitments₁), (sampleIdentifier 2, commitments₂)], [message]⟩ ::
        config.signingPackage, [], randomizer :: config.randomizer⟩
  | _ => none

/-- For messages of one byte, each with a randomizer, and the signers `1` and `2`. -/
def sampleHttpLibrary : HttpLibrary (sampleSuite .pallasBlake2b512) where
  sign key _ := some (List.replicate 64 (key.bytes.headD 0))
  decoder := ⟨some, some⟩
  configFromSlice := decodeSampleConfig
  commitmentsToVec commitments := commitments
  sharesToVec shares := shares
  configToVec config := (config.signingPackage.zip config.randomizer).flatMap fun x =>
    [(x.1.signingCommitments.lookup (sampleIdentifier 1)).getD (0 : UInt8),
      (x.1.signingCommitments.lookup (sampleIdentifier 2)).getD (0 : UInt8), x.1.message.headD 0, x.2]
  signersKeys _ := [sampleKey 1, sampleKey 2]
  pubkeysKeys _ := [sampleKey 2, sampleKey 1]

/-- The commitment to a nonce is greater by 100. -/
def sampleParties : Setup (sampleSuite .pallasBlake2b512) where
  lib := sampleHttpLibrary
  coordinator := sampleKey 9
  pargs := {
    numSigners := 2
    publicKeyPackage := ({sampleIdentifier 1, sampleIdentifier 2} : Finset (Fin 256))
    messages := [[5], [6]]
    randomizers := [(7 : UInt8), (8 : UInt8)]
    auxMsg := none }
  signers := ((∅ : Map PublicKey (Fin 256)).insert (sampleKey 1) (sampleIdentifier 1)).insert
    (sampleKey 2) (sampleIdentifier 2)
  keyPackage p := sampleIdentifier (p.bytes.headD 0)
  commit p i := ((p.bytes.headD 0 + 10 * UInt8.ofNat i : UInt8),
    (p.bytes.headD 0 + 10 * UInt8.ofNat i + 100 : UInt8))
  getter _ pubkey := some pubkey
  sessionId _ := none

def sampleVerifier : Verifier := fun pubkey _ signature =>
  decide (signature = List.replicate 64 (pubkey.bytes.headD 0))

theorem sampleParties_signers (p : PublicKey) :
    p ∈ sampleParties.signers.keys ↔ p = sampleKey 1 ∨ p = sampleKey 2 := by
  change p ∈ (((∅ : Map PublicKey (Fin 256)).insert (sampleKey 1) (sampleIdentifier 1)).insert
    (sampleKey 2) (sampleIdentifier 2)).keys ↔ _
  rw [Map.keys_insert, Map.keys_insert, Finset.mem_insert, Finset.mem_insert, Map.keys_empty]
  simp [or_comm]

theorem sampleParties_fits : sampleParties.Fits 3 where
  numMessages := by decide
  randomizers := .inr rfl
  numSigners := by decide
  identifier := by
    intro p hp
    rcases (sampleParties_signers p).mp hp with rfl | rfl <;> rfl
  distinct := by
    intro p hp p' hp'
    rcases (sampleParties_signers p).mp hp with rfl | rfl <;>
      rcases (sampleParties_signers p').mp hp' with rfl | rfl <;> decide
  ciphersuite := nofun
  getter _ _ := rfl
  sessionId _ _ := .inl rfl

theorem sampleParties_lawful : sampleParties.Lawful where
  commitments _ := rfl
  shares _ := rfl
  config := by rfl
  signersKeys := ⟨by decide, fun p => by
    rw [sampleParties_signers]
    simp [sampleParties, sampleHttpLibrary]⟩
  pubkeysKeys := ⟨by decide, fun p => by
    rw [sampleParties_signers]
    simp [sampleParties, sampleHttpLibrary, or_comm]⟩

theorem sampleParties_genuine : sampleParties.Genuine sampleVerifier := by
  have hkey : ∀ i : sampleParties.Party, ∃ b, sampleParties.pubkey i = sampleKey b := by
    rintro (_ | ⟨p, hp⟩)
    · exact ⟨9, rfl⟩
    · rcases (sampleParties_signers p).mp hp with rfl | rfl
      · exact ⟨1, rfl⟩
      · exact ⟨2, rfl⟩
  intro i
  obtain ⟨b, hb⟩ := hkey i
  rw [hb]
  exact ⟨List.length_replicate, fun c =>
    ⟨_, rfl, List.length_replicate, decide_eq_true rfl⟩⟩

theorem sampleParties_connected : sampleParties.Connected Dkg.Network.sampleSnow := by
  intro p hp
  rcases (sampleParties_signers p).mp hp with rfl | rfl
  · exact ⟨⟨_, _, rfl, rfl, _, _, rfl, by decide, _, _, rfl, by decide, trivial⟩,
      ⟨_, _, rfl, rfl, _, _, rfl, by decide, trivial⟩⟩
  · exact ⟨⟨_, _, rfl, rfl, _, _, rfl, by decide, _, _, rfl, by decide, trivial⟩,
      ⟨_, _, rfl, rfl, _, _, rfl, by decide, trivial⟩⟩

def sampleMatches (nonces commitments : UInt8) : Prop := commitments = nonces + 100

def sampleVerifies (randomizer : Option UInt8) (message : Bytes) (signature : Bytes × Option UInt8) :
    Prop := signature = (message, randomizer)

theorem sampleParties_complete : sampleParties.Complete sampleMatches sampleVerifies where
  commit _ _ _ := rfl
  sign randomizer _ _ _ _ _ nonces _ _ _ := by
    cases randomizer <;> exact ⟨_, rfl⟩
  aggregate randomizer _ _ _ _ _ := by
    cases randomizer <;> exact ⟨_, rfl, rfl⟩

theorem signing_aligned_sample : ∃ ms s,
    (sampleParties.network Dkg.Network.sampleSnow sampleVerifier 3).Run ms s ∧
    ∃ r : Outcome Failure (List (Bytes × Option UInt8)) × _, s.2 none = .done r ∧
      r.1 = .ok [([5], some 7), ([6], some 8)] := by
  have haligned := @signing_aligned _ sampleParties Dkg.Network.sampleSnow sampleVerifier 3 _ _
    sampleMatches sampleVerifies Dkg.Network.sampleSnow_inOrder sampleParties_fits
    sampleParties_lawful sampleParties_genuine sampleParties_connected sampleParties_complete
  obtain ⟨-, -, -, -, hcontinue⟩ := haligned (.start rfl)
  obtain ⟨ms, s, hrun, -, hdone⟩ := hcontinue fun p r hr => by cases hr
  obtain ⟨r, hr⟩ := hdone none
  refine ⟨_, s, hrun, r, hr, ?_⟩
  obtain ⟨signatures, hok, hlength, hsignatures⟩ := (haligned hrun).1 r hr
  obtain ⟨_, _, rfl⟩ := List.length_eq_two.mp hlength
  obtain ⟨package, _, _, haggregates, ⟨⟩, hverifies⟩ := hsignatures 0 (by decide)
  obtain ⟨package', _, _, haggregates', ⟨⟩, hverifies'⟩ := hsignatures 1 (by decide)
  rw [hok, hverifies, hverifies', ← Option.some.inj haggregates.message,
    ← Option.some.inj haggregates'.message]
  rfl

end FrostTools.Signing.Http
